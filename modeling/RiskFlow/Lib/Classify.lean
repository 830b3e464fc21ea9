import Mathlib

/-!
# Classify — a sample against named tests that exclude each other

A sample is classified by the first test, in a fixed order, that all its
elements pass. Where no element passes two tests the order decides
nothing: a sample has at most one class, and it has it exactly when every
part of it does.
-/

namespace Lib

universe u v
variable {ι : Type u} {α : Type v}

/-- The name of the first test that all elements pass. -/
def firstAll (tests : List (ι × (α → Bool))) (xs : List α) : Option ι :=
  (tests.find? fun t => xs.all t.2).map Prod.fst

/-- Named tests: no name stands twice and no element passes two of them. -/
structure Exclusive (tests : List (ι × (α → Bool))) : Prop where
  names : (tests.map Prod.fst).Nodup
  apart : tests.Pairwise fun t u => ∀ x, t.2 x = true → u.2 x = false

section Exclusive
variable {tests tests' : List (ι × (α → Bool))} {xs ys : List α} {i : ι}

/-- The tests exclude each other in any order. -/
theorem Exclusive.perm (h : Exclusive tests) (hperm : tests.Perm tests') : Exclusive tests' := by
  refine ⟨(hperm.map Prod.fst).nodup_iff.mp h.names, ?_⟩
  refine hperm.pairwise h.apart fun {t u} htu x hu => ?_
  cases ht : t.2 x with
  | false => rfl
  | true =>
      rw [htu x ht] at hu
      cases hu

/-- Of an element, at most one test passes. -/
theorem Exclusive.eq_of_pass (h : Exclusive tests) {t u : ι × (α → Bool)} (ht : t ∈ tests)
    (hu : u ∈ tests) {x : α} (htx : t.2 x = true) (hux : u.2 x = true) : t = u := by
  by_contra hne
  have hapart : tests.Pairwise fun t u => ¬ ∃ x, t.2 x = true ∧ u.2 x = true := by
    refine h.apart.imp fun {t u} htu => ?_
    rintro ⟨x, ht, hu⟩
    rw [htu x ht] at hu
    cases hu
  have : Std.Symm fun t u : ι × (α → Bool) => ¬ ∃ x, t.2 x = true ∧ u.2 x = true := by
    refine ⟨fun t u htu => ?_⟩
    rintro ⟨x, hu, ht⟩
    exact htu ⟨x, ht, hu⟩
  exact hapart.forall ht hu hne ⟨x, htx, hux⟩

/-- **A sample has the class of a test** exactly when all its elements pass it. -/
theorem firstAll_eq_some_iff (h : Exclusive tests) (hne : xs ≠ []) :
    firstAll tests xs = some i ↔ ∃ t ∈ tests, t.1 = i ∧ xs.all t.2 = true := by
  unfold firstAll
  rw [Option.map_eq_some_iff]
  constructor
  · rintro ⟨t, hfind, hname⟩
    have hall := List.find?_some (p := fun t : ι × (α → Bool) => xs.all t.2) hfind
    exact ⟨t, List.mem_of_find?_eq_some hfind, hname, hall⟩
  · rintro ⟨t, ht, hname, hall⟩
    obtain ⟨u, hfind⟩ : ∃ u, (tests.find? fun t => xs.all t.2) = some u := by
      rw [← Option.isSome_iff_exists, List.find?_isSome]
      exact ⟨t, ht, hall⟩
    obtain ⟨x, hx⟩ := List.exists_mem_of_ne_nil xs hne
    have hpass : u.2 x = true := by
      have hu := List.find?_some (p := fun t : ι × (α → Bool) => xs.all t.2) hfind
      exact List.all_eq_true.mp hu x hx
    have heq : t = u :=
      h.eq_of_pass ht (List.mem_of_find?_eq_some hfind) (List.all_eq_true.mp hall x hx) hpass
    exact ⟨u, hfind, heq ▸ hname⟩

/-- The order of the tests does not matter. -/
theorem firstAll_perm_tests (h : Exclusive tests) (hperm : tests.Perm tests') (hne : xs ≠ []) :
    firstAll tests xs = firstAll tests' xs := by
  ext i
  rw [firstAll_eq_some_iff h hne, firstAll_eq_some_iff (h.perm hperm) hne]
  simp only [hperm.mem_iff]

/-- The order of the elements does not matter. -/
theorem firstAll_perm (tests : List (ι × (α → Bool))) (hperm : xs.Perm ys) :
    firstAll tests xs = firstAll tests ys := by
  unfold firstAll
  simp only [hperm.all_eq]

/-- **A sample in two parts** has a class exactly when both parts have it. -/
theorem firstAll_append (h : Exclusive tests) (hx : xs ≠ []) (hy : ys ≠ []) :
    firstAll tests (xs ++ ys) = some i ↔
      firstAll tests xs = some i ∧ firstAll tests ys = some i := by
  rw [firstAll_eq_some_iff h (List.append_ne_nil_of_left_ne_nil hx ys),
    firstAll_eq_some_iff h hx, firstAll_eq_some_iff h hy]
  constructor
  · rintro ⟨t, ht, hname, hall⟩
    rw [List.all_append, Bool.and_eq_true] at hall
    exact ⟨⟨t, ht, hname, hall.1⟩, ⟨t, ht, hname, hall.2⟩⟩
  · rintro ⟨⟨t, ht, hname, htx⟩, ⟨u, hu, hname', huy⟩⟩
    have heq : u = t := List.inj_on_of_nodup_map h.names hu ht (hname'.trans hname.symm)
    subst heq
    refine ⟨u, hu, hname, ?_⟩
    rw [List.all_append, htx, huy, Bool.and_self]

end Exclusive

end Lib
