import Mathlib

/-!
# Extension — orders on nested partial maps

A partial map extends another when it keeps its keys, up to a relation on
the values, and matches it when each extends the other. Both relations
inherit reflexivity, symmetry and transitivity from the values, so an order
on a nested structure is built level by level.
-/

namespace Lib

universe u v
variable {κ : Type u} {ν : Type v} {r : ν → ν → Prop} {f g h : κ → Option ν}

/-- `g` has every key of `f`, with a value that `r` relates to that of `f`. -/
def Extends (r : ν → ν → Prop) (f g : κ → Option ν) : Prop :=
  ∀ k v, f k = some v → ∃ w, g k = some w ∧ r v w

/-- The same keys, with values that `r` relates. -/
def Matches (r : ν → ν → Prop) (f g : κ → Option ν) : Prop :=
  Extends r f g ∧ ∀ k, f k = none → g k = none

theorem Extends.refl (hr : ∀ v, r v v) (f : κ → Option ν) : Extends r f f :=
  fun _ v hv => ⟨v, hv, hr v⟩

theorem Extends.trans (hr : ∀ u v w, r u v → r v w → r u w) (hfg : Extends r f g)
    (hgh : Extends r g h) : Extends r f h := by
  intro k u hu
  obtain ⟨v, hv, huv⟩ := hfg k u hu
  obtain ⟨w, hw, hvw⟩ := hgh k v hv
  exact ⟨w, hw, hr u v w huv hvw⟩

theorem Matches.refl (hr : ∀ v, r v v) (f : κ → Option ν) : Matches r f f :=
  ⟨.refl hr f, fun _ hk => hk⟩

theorem Matches.symm (hr : ∀ v w, r v w → r w v) (hfg : Matches r f g) : Matches r g f := by
  obtain ⟨hext, hnone⟩ := hfg
  constructor
  · intro k w hw
    cases hv : f k with
    | none =>
        rw [hnone k hv] at hw
        cases hw
    | some v =>
        obtain ⟨w', hw', hvw⟩ := hext k v hv
        cases hw.symm.trans hw'
        exact ⟨v, rfl, hr v w hvw⟩
  · intro k hk
    cases hv : f k with
    | none => rfl
    | some v =>
        obtain ⟨w, hw, _⟩ := hext k v hv
        rw [hk] at hw
        cases hw

theorem Matches.trans (hr : ∀ u v w, r u v → r v w → r u w) (hfg : Matches r f g)
    (hgh : Matches r g h) : Matches r f h :=
  ⟨hfg.1.trans hr hgh.1, fun k hk => hgh.2 k (hfg.2 k hk)⟩

/-- No key of `f` is missing in `g`, and the values at a shared key are related. -/
theorem extends_iff :
    Extends r f g ↔
      (∀ k v, f k = some v → g k ≠ none) ∧ ∀ k v w, f k = some v → g k = some w → r v w := by
  constructor
  · intro hfg
    refine ⟨?_, ?_⟩
    · intro k v hv hnone
      obtain ⟨w, hw, _⟩ := hfg k v hv
      rw [hnone] at hw
      cases hw
    · intro k v w hv hw
      obtain ⟨w', hw', hvw⟩ := hfg k v hv
      cases hw.symm.trans hw'
      exact hvw
  · intro h k v hv
    obtain ⟨hthere, hshared⟩ := h
    obtain ⟨w, hw⟩ := Option.ne_none_iff_exists'.mp (hthere k v hv)
    exact ⟨w, hw, hshared k v w hv hw⟩

theorem matches_iff : Matches r f g ↔ Extends r f g ∧ ∀ k v, g k = some v → f k ≠ none := by
  refine and_congr_right fun _ => forall_congr' fun k => ?_
  cases g k with
  | none => simp
  | some v => simp

/-! ## Moving along an equivalence inside a preorder -/

section Congruence
variable {α : Type u} {le same : α → α → Prop} {a b : α}

/-- Equivalent elements are below the same elements. -/
theorem le_congr_left (htrans : ∀ a b c, le a b → le b c → le a c)
    (hsymm : ∀ a b, same a b → same b a) (hle : ∀ a b, same a b → le a b) (h : same a b) (c : α) :
    le a c ↔ le b c :=
  ⟨htrans b a c (hle b a (hsymm a b h)), htrans a b c (hle a b h)⟩

/-- Equivalent elements are above the same elements. -/
theorem le_congr_right (htrans : ∀ a b c, le a b → le b c → le a c)
    (hsymm : ∀ a b, same a b → same b a) (hle : ∀ a b, same a b → le a b) (h : same a b) (c : α) :
    le c a ↔ le c b :=
  ⟨fun hca => htrans c a b hca (hle a b h), fun hcb => htrans c b a hcb (hle b a (hsymm a b h))⟩

end Congruence

end Lib
