import Mathlib

/-!
# Numbering — a list split by a test, with the numbers of its elements

A pass over a numbered list that keeps some elements and reports the
numbers of the others. `List.findIdxs` are the numbers reported; the
results here put the kept elements, the reported ones and the numbers
together again.
-/

namespace Lib

universe u
variable {α β : Type u}

/-- The elements whose numbers are not among the given ones. -/
def withoutNumbers (l : List α) (start : Nat) (numbers : List Nat) : List α :=
  ((l.zipIdx start).filter fun x => x.2 ∉ numbers).map Prod.fst

theorem withoutNumbers_cons (x : α) (l : List α) (start : Nat) (numbers : List Nat) :
    withoutNumbers (x :: l) start numbers =
      if start ∈ numbers then withoutNumbers l (start + 1) numbers
      else x :: withoutNumbers l (start + 1) numbers := by
  unfold withoutNumbers
  rw [List.zipIdx_cons]
  by_cases h : start ∈ numbers
  · simp [h]
  · simp [h]

/-- Lists related element by element stay so without the same numbers. -/
theorem forall₂_withoutNumbers {r : α → β → Prop} {l : List α} {l' : List β}
    (h : List.Forall₂ r l l') (start : Nat) (numbers : List Nat) :
    List.Forall₂ r (withoutNumbers l start numbers) (withoutNumbers l' start numbers) := by
  induction h generalizing start with
  | nil => exact .nil
  | cons hhead _ ih =>
      rw [withoutNumbers_cons, withoutNumbers_cons]
      split
      · exact ih (start + 1)
      · exact .cons hhead (ih (start + 1))

/-- A number is reported exactly when the element it stands at passes the test. -/
theorem mem_findIdxs_zipIdx {p : α → Bool} {l : List α} {start : Nat} {x : α × Nat}
    (hx : x ∈ l.zipIdx start) : x.2 ∈ l.findIdxs p start ↔ p x.1 = true := by
  obtain ⟨hle, hlt, hget⟩ := List.mem_zipIdx hx
  rw [List.mem_findIdxs_iff_getElem_sub_pos]
  constructor
  · rintro ⟨_, _, hp⟩
    rwa [hget]
  · intro hp
    refine ⟨hle, by omega, ?_⟩
    rwa [hget] at hp

/-- **The elements without the reported numbers** are those that fail the test. -/
theorem withoutNumbers_findIdxs (p : α → Bool) (l : List α) (start : Nat) :
    withoutNumbers l start (l.findIdxs p start) = l.filter fun x => !p x := by
  have hsame : ((l.zipIdx start).filter fun x => x.2 ∉ l.findIdxs p start) =
      (l.zipIdx start).filter ((fun x => !p x) ∘ Prod.fst) := by
    refine List.filter_congr fun x hx => ?_
    simp [mem_findIdxs_zipIdx hx]
  rw [withoutNumbers, hsame, ← List.filter_map, List.zipIdx_map_fst]

/-- The reported elements stand at the reported numbers. -/
theorem forall₂_findIdxs (p : α → Bool) (l : List α) (start : Nat) :
    List.Forall₂ (fun i x => start ≤ i ∧ i < start + l.length ∧ l[i - start]? = some x)
      (l.findIdxs p start) (l.filter p) := by
  rw [List.forall₂_iff_get]
  refine ⟨by simp [List.countP_eq_length_filter], fun k hk hk' => ?_⟩
  have hlow := List.le_getElem_findIdxs hk
  have hhigh := List.getElem_findIdxs_lt hk
  refine ⟨hlow, by simp only [List.get_eq_getElem]; omega, ?_⟩
  rw [List.get_eq_getElem, List.get_eq_getElem,
    List.getElem_filter_eq_getElem_getElem_findIdxs_sub start hk']
  exact List.getElem?_eq_getElem _

end Lib
