import Mathlib

/-!
# Separated — what a joined list still tells

Lists joined with a separator that they may contain themselves. The joined
list determines the pieces between separators and nothing more; the lists
themselves only where none of them holds the separator.
-/

namespace Lib

universe u
variable {α : Type u} [DecidableEq α]

/-- The pieces between the separators of the joined lists. Joining nothing
leaves one empty piece. -/
def pieces (sep : α) : List (List α) → List (List α)
  | [] => [[]]
  | l :: ls => (l :: ls).flatMap (List.splitOn sep)

theorem pieces_cons_cons (sep : α) (l l' : List α) (ls : List (List α)) :
    pieces sep (l :: l' :: ls) = l.splitOn sep ++ pieces sep (l' :: ls) :=
  List.flatMap_cons

/-- Cutting at the separators undoes the joining up to the pieces. -/
theorem splitOn_intercalate (sep : α) (ls : List (List α)) :
    (List.intercalate [sep] ls).splitOn sep = pieces sep ls := by
  induction ls with
  | nil => simp [pieces]
  | cons l rest ih =>
      cases rest with
      | nil => simp [pieces]
      | cons l' ls =>
          rw [List.intercalate_cons_cons, pieces_cons_cons, ← ih, List.append_assoc,
            List.singleton_append, List.splitOn_append_cons_self]

/-- **Joined lists are equal when their pieces are.** -/
theorem intercalate_eq_iff {sep : α} {ls ls' : List (List α)} :
    List.intercalate [sep] ls = List.intercalate [sep] ls' ↔ pieces sep ls = pieces sep ls' := by
  constructor
  · intro h
    rw [← splitOn_intercalate, ← splitOn_intercalate, h]
  · intro h
    have hback : ∀ l : List α, List.intercalate [sep] (l.splitOn sep) = l :=
      fun _ => List.intercalate_splitOn sep
    rw [← splitOn_intercalate, ← splitOn_intercalate] at h
    rw [← hback (List.intercalate [sep] ls), h, hback]

/-- Lists without the separator are their own pieces. -/
theorem pieces_of_clear {sep : α} {ls : List (List α)} (hclear : ∀ l ∈ ls, sep ∉ l)
    (hne : ls ≠ []) : pieces sep ls = ls := by
  rw [← splitOn_intercalate, List.splitOn_intercalate sep hclear hne]

/-- Three lists without the separator, cut apart. -/
theorem splitOn_three {sep : α} {x y z : List α} (hx : sep ∉ x) (hy : sep ∉ y) (hz : sep ∉ z) :
    (x ++ sep :: (y ++ sep :: z)).splitOn sep = [x, y, z] := by
  rw [List.splitOn_append_cons_self, List.splitOn_append_cons_self, List.splitOn_eq_singleton hx,
    List.splitOn_eq_singleton hy, List.splitOn_eq_singleton hz]
  rfl

end Lib
