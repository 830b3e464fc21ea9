import Mathlib

/-!
# Renaming — a list of names renamed at once

A partial renaming gives some of the names a new one and leaves the
others. All of them are renamed at once, so the new name of one may be the
old name of another.
-/

namespace Lib

universe u v
variable {α : Type u} {β : Type v}

/-- The name after the renaming. -/
def renameOne (f : α → Option α) (name : α) : α := (f name).getD name

def renameAll (f : α → Option α) (names : List α) : List α := names.map (renameOne f)

variable {f : α → Option α} {names : List α} {name new : α}

theorem renameOne_some (h : f name = some new) : renameOne f name = new := by
  simp [renameOne, h]

theorem renameOne_none (h : f name = none) : renameOne f name = name := by
  simp [renameOne, h]

/-- A name after the renaming is a new one, or one that was kept. -/
theorem mem_renameAll :
    new ∈ renameAll f names ↔
      (∃ name ∈ names, f name = some new) ∨ (new ∈ names ∧ f new = none) := by
  rw [renameAll, List.mem_map]
  constructor
  · rintro ⟨name, hname, rfl⟩
    cases hf : f name with
    | none =>
        rw [renameOne_none hf]
        exact .inr ⟨hname, hf⟩
    | some t =>
        rw [renameOne_some hf]
        exact .inl ⟨name, hname, hf⟩
  · rintro (⟨name, hname, hf⟩ | ⟨hnew, hf⟩)
    · exact ⟨name, hname, renameOne_some hf⟩
    · exact ⟨new, hnew, renameOne_none hf⟩

/-- What stands next to a name stands next to its new one. -/
theorem mem_zip_renameAll {values : List β} {value : β} (h : (name, value) ∈ names.zip values)
    (hf : f name = some new) : (new, value) ∈ (renameAll f names).zip values := by
  rw [renameAll, List.zip_map_left]
  refine List.mem_map.mpr ⟨(name, value), h, ?_⟩
  rw [Prod.map_apply, renameOne_some hf, id_eq]

/-- **When a renaming keeps distinct names distinct**: under an injective one,
exactly if every name that is also the new name of another is itself
renamed. -/
theorem nodup_renameAll_iff (hnames : names.Nodup)
    (hinj : ∀ x y t, f x = some t → f y = some t → x = y) :
    (renameAll f names).Nodup ↔ ∀ c ∈ names, ∀ t ∈ names, f c = some t → f t ≠ none := by
  rw [renameAll, List.nodup_map_iff_inj_on hnames]
  constructor
  · intro hdistinct c hc t ht hnew hkept
    have hsame : renameOne f c = renameOne f t :=
      (renameOne_some hnew).trans (renameOne_none hkept).symm
    rw [hdistinct c hc t ht hsame, hkept] at hnew
    cases hnew
  · intro hclear x hx y hy hsame
    cases hfx : f x with
    | none =>
        cases hfy : f y with
        | none => rwa [renameOne_none hfx, renameOne_none hfy] at hsame
        | some t =>
            -- `y` would take the name that `x` keeps
            rw [renameOne_none hfx, renameOne_some hfy] at hsame
            subst hsame
            exact absurd hfx (hclear y hy x hx hfy)
    | some t =>
        cases hfy : f y with
        | none =>
            rw [renameOne_some hfx, renameOne_none hfy] at hsame
            subst hsame
            exact absurd hfy (hclear x hx t hy hfx)
        | some t' =>
            rw [renameOne_some hfx, renameOne_some hfy] at hsame
            subst hsame
            exact hinj x y t hfx hfy

end Lib
