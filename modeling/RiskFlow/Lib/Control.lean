import Mathlib

/-!
# Control — inversion of computations that can fail

What a successful `Except` computation says about its parts, so that a
proof takes a `do` block apart with `obtain` and never unfolds the monad.
-/

namespace Lib

universe u
variable {ε α β : Type u}

/-- A sequence succeeds when both parts do. -/
theorem bind_eq_ok {x : Except ε α} {f : α → Except ε β} {b : β} :
    (x >>= f) = .ok b ↔ ∃ a, x = .ok a ∧ f a = .ok b := by
  cases x <;> simp [bind, Except.bind]

/-- It fails when the first part does, or the second after it. -/
theorem bind_eq_error {x : Except ε α} {f : α → Except ε β} {e : ε} :
    (x >>= f) = .error e ↔ x = .error e ∨ ∃ a, x = .ok a ∧ f a = .error e := by
  cases x <;> simp [bind, Except.bind]

theorem map_eq_ok {x : Except ε α} {f : α → β} {b : β} :
    x.map f = .ok b ↔ ∃ a, x = .ok a ∧ f a = b := by
  cases x <;> simp [Except.map]

theorem map_eq_error {x : Except ε α} {f : α → β} {e : ε} :
    x.map f = .error e ↔ x = .error e := by
  cases x <;> simp [Except.map]

theorem mapError_eq_ok {ε' : Type u} {x : Except ε α} {f : ε → ε'} {a : α} :
    x.mapError f = .ok a ↔ x = .ok a := by
  cases x <;> simp [Except.mapError]

/-- A loop of checks passes exactly when every check does. -/
theorem forM_eq_ok {ε α : Type} {f : α → Except ε Unit} {l : List α} :
    l.forM f = .ok () ↔ ∀ x ∈ l, f x = .ok () := by
  induction l with
  | nil => simp [pure, Except.pure]
  | cons x rest ih =>
      simp only [List.forM_eq_forM] at ih
      cases hx : f x with
      | error e => simp [List.forM_cons, hx, bind, Except.bind]
      | ok u => simp [List.forM_cons, hx, bind, Except.bind, ih]

/-- What a loop of checks fails with, one of them failed with. -/
theorem forM_eq_error {ε α : Type} {f : α → Except ε Unit} {l : List α} {e : ε}
    (h : l.forM f = .error e) : ∃ x ∈ l, f x = .error e := by
  induction l with
  | nil => cases h
  | cons x rest ih =>
      rw [List.forM_eq_forM, List.forM_cons] at h
      cases hx : f x with
      | error e' =>
          rw [hx] at h
          cases h
          exact ⟨x, by simp, hx⟩
      | ok u =>
          rw [hx] at h
          obtain ⟨y, hy, hfy⟩ := ih h
          exact ⟨y, by simp [hy], hfy⟩

/-! ## Loops -/

variable {r : β → β → Prop}

/-- Whatever relation the rounds of a loop keep between their states relates
the first and the last. -/
theorem foldlM_keeps {f : β → α → Except ε β} {l : List α} (hrefl : ∀ b, r b b)
    (htrans : ∀ a b c, r a b → r b c → r a c)
    (h : ∀ x ∈ l, ∀ b b', f b x = .ok b' → r b b') {b b' : β}
    (hrun : l.foldlM f b = .ok b') : r b b' := by
  induction l generalizing b with
  | nil =>
      cases hrun
      exact hrefl _
  | cons x rest ih =>
      rw [List.foldlM_cons] at hrun
      obtain ⟨m, hm, hrest⟩ := bind_eq_ok.mp hrun
      exact htrans b m b' (h x (by simp) b m hm) (ih (fun y hy => h y (by simp [hy])) hrest)

/-- Rounds that all succeed make the loop the plain fold. -/
theorem foldlM_eq_foldl {f : β → α → Except ε β} {g : β → α → β} {l : List α}
    (h : ∀ x ∈ l, ∀ b, f b x = .ok (g b x)) (b : β) : l.foldlM f b = .ok (l.foldl g b) := by
  induction l generalizing b with
  | nil => rfl
  | cons x rest ih =>
      have hrest := ih (fun y hy => h y (by simp [hy])) (g b x)
      simp [List.foldlM_cons, h x (by simp) b, hrest, bind, Except.bind]

/-- A round that fails from every state fails the loop, whatever runs before it. -/
theorem foldlM_error_of_mem {f : β → α → Except ε β} {l : List α} {x : α} (hx : x ∈ l)
    (h : ∀ b, ∃ e, f b x = .error e) (b : β) : ∃ e, l.foldlM f b = .error e := by
  induction l generalizing b with
  | nil => cases hx
  | cons y rest ih =>
      rw [List.foldlM_cons]
      rcases List.mem_cons.mp hx with rfl | hmem
      · obtain ⟨e, he⟩ := h b
        exact ⟨e, by rw [he]; rfl⟩
      · cases hy : f b y with
        | error e => exact ⟨e, rfl⟩
        | ok b' => exact ih hmem b'

/-- What a loop fails with, one of its rounds failed with. -/
theorem foldlM_eq_error {f : β → α → Except ε β} {l : List α} {b : β} {e : ε}
    (h : l.foldlM f b = .error e) : ∃ x ∈ l, ∃ b', f b' x = .error e := by
  induction l generalizing b with
  | nil => cases h
  | cons x rest ih =>
      rw [List.foldlM_cons] at h
      cases hx : f b x with
      | error e' =>
          rw [hx] at h
          cases h
          exact ⟨x, by simp, b, hx⟩
      | ok b' =>
          rw [hx] at h
          obtain ⟨y, hy, hfy⟩ := ih h
          exact ⟨y, by simp [hy], hfy⟩

/-- Mapping a function that succeeds on every element relates the two lists
element by element. -/
theorem mapM_total {f : α → Except ε β} {t : α → β → Prop} {l : List α}
    (h : ∀ x ∈ l, ∃ y, f x = .ok y ∧ t x y) :
    ∃ ys, l.mapM f = .ok ys ∧ List.Forall₂ t l ys := by
  induction l with
  | nil => exact ⟨[], rfl, .nil⟩
  | cons x rest ih =>
      obtain ⟨y, hy, ht⟩ := h x (by simp)
      obtain ⟨ys, hys, hrel⟩ := ih fun z hz => h z (by simp [hz])
      refine ⟨y :: ys, ?_, .cons ht hrel⟩
      simp [List.mapM_cons, hy, hys, bind, Except.bind, pure, Except.pure]

/-- Every element of related lists has a partner. -/
theorem exists_of_forall₂ {l : List α} {ys : List β} {t : α → β → Prop}
    (h : List.Forall₂ t l ys) {x : α} (hx : x ∈ l) : ∃ y ∈ ys, t x y := by
  induction h with
  | nil => cases hx
  | cons hhead _ ih =>
      rcases List.mem_cons.mp hx with rfl | hmem
      · exact ⟨_, by simp, hhead⟩
      · obtain ⟨y, hy, ht⟩ := ih hmem
        exact ⟨y, by simp [hy], ht⟩

/-- Three lists related element by element. -/
theorem forall₂_trans {γ : Type u} {r : α → β → Prop} {s : β → γ → Prop} {t : α → γ → Prop}
    {l : List α} {ys : List β} {zs : List γ} (hr : List.Forall₂ r l ys)
    (hs : List.Forall₂ s ys zs) (h : ∀ x y z, r x y → s y z → t x z) : List.Forall₂ t l zs := by
  induction hr generalizing zs with
  | nil =>
      cases hs
      exact .nil
  | cons hhead _ ih =>
      cases hs with
      | cons hhead' htail' => exact .cons (h _ _ _ hhead hhead') (ih htail')

/-- A relation that means the same for each pair holds of two lists if that
holds, or if there are no pairs. -/
theorem forall₂_iff_const {t : α → β → Prop} {p : Prop} {l : List α} {ys : List β}
    (h : List.Forall₂ (fun x y => t x y ↔ p) l ys) : List.Forall₂ t l ys ↔ p ∨ ys = [] := by
  induction h with
  | nil => simp
  | cons hhead _ ih =>
      rw [List.forall₂_cons, ih, hhead]
      constructor
      · exact fun hboth => .inl hboth.1
      · rintro (hp | hnil)
        · exact ⟨hp, .inl hp⟩
        · cases hnil

/-- What a mapping that succeeds returns, element by element. -/
theorem mapM_eq_ok {f : α → Except ε β} {l : List α} {ys : List β} :
    l.mapM f = .ok ys ↔ List.Forall₂ (fun x y => f x = .ok y) l ys := by
  induction l generalizing ys with
  | nil =>
      cases ys with
      | nil => simp [pure, Except.pure]
      | cons y ys => simp [pure, Except.pure]
  | cons x rest ih =>
      rw [List.mapM_cons, List.forall₂_cons_left_iff]
      simp only [bind_eq_ok, ih, pure, Except.pure, Except.ok.injEq]
      constructor
      · rintro ⟨y, hy, ys', hys, rfl⟩
        exact ⟨y, ys', hy, hys, rfl⟩
      · rintro ⟨y, ys', hy, hys, rfl⟩
        exact ⟨y, hy, ys', hys, rfl⟩

/-- Two passes over a list, the first of which succeeds everywhere, are one
pass with both functions. -/
theorem filterMap_mapM {γ : Type u} {f : α → Except ε β} {g : β → Except ε γ} {l : List α}
    {ys : List β} (h : l.mapM f = .ok ys) :
    ys.filterMap (fun y => (g y).toOption) = l.filterMap fun x => (f x >>= g).toOption := by
  induction l generalizing ys with
  | nil =>
      cases h
      rfl
  | cons x rest ih =>
      rw [List.mapM_cons] at h
      obtain ⟨y, hy, h⟩ := bind_eq_ok.mp h
      obtain ⟨ys', hys, h⟩ := bind_eq_ok.mp h
      cases h
      have hfirst : (f x >>= g) = g y := by rw [hy]; rfl
      rw [List.filterMap_cons, List.filterMap_cons, hfirst, ih hys]

/-- The results of a pass that drops the failures are those of the elements
it succeeds on. -/
theorem forall₂_toOption (f : α → Except ε β) (l : List α) :
    List.Forall₂ (fun x y => f x = .ok y) (l.filter fun x => (f x).isOk)
      (l.filterMap fun x => (f x).toOption) := by
  induction l with
  | nil => exact .nil
  | cons x rest ih =>
      cases hx : f x with
      | error e => simpa [hx, Except.isOk, Except.toBool, Except.toOption] using ih
      | ok y => simpa [hx, Except.isOk, Except.toBool, Except.toOption] using ih

/-- A mapping fails with what the function fails with on an element. -/
theorem mapM_eq_error {f : α → Except ε β} {l : List α} {e : ε} (h : l.mapM f = .error e) :
    ∃ x ∈ l, f x = .error e := by
  induction l with
  | nil => cases h
  | cons x rest ih =>
      rw [List.mapM_cons] at h
      rcases bind_eq_error.mp h with hx | ⟨y, _, h⟩
      · exact ⟨x, by simp, hx⟩
      · rcases bind_eq_error.mp h with hrest | ⟨ys, _, h⟩
        · obtain ⟨z, hz, hfz⟩ := ih hrest
          exact ⟨z, by simp [hz], hfz⟩
        · cases h

/-- Two mappings in a row that succeed are one. -/
theorem mapM_bind_eq_ok {γ : Type u} {f : α → Except ε β} {g : β → Except ε γ} {l : List α}
    {zs : List γ} :
    (l.mapM f >>= fun ys => ys.mapM g) = .ok zs ↔ (l.mapM fun x => f x >>= g) = .ok zs := by
  rw [bind_eq_ok]
  simp only [mapM_eq_ok]
  constructor
  · rintro ⟨ys, hys, hzs⟩
    exact forall₂_trans hys hzs fun _ y _ hy hz => bind_eq_ok.mpr ⟨y, hy, hz⟩
  · intro h
    induction h with
    | nil => exact ⟨[], .nil, .nil⟩
    | cons hhead _ ih =>
        obtain ⟨y, hy, hz⟩ := bind_eq_ok.mp hhead
        obtain ⟨ys, hys, hzs⟩ := ih
        exact ⟨y :: ys, .cons hy hys, .cons hz hzs⟩

/-- Leaving out elements leaves out what they are mapped to. -/
theorem mapM_sublist {f : α → Except ε β} {l' l : List α} {ys : List β} (hsub : l'.Sublist l)
    (h : l.mapM f = .ok ys) : ∃ ys', l'.mapM f = .ok ys' ∧ ys'.Sublist ys := by
  rw [mapM_eq_ok] at h
  induction hsub generalizing ys with
  | slnil => exact ⟨[], rfl, List.nil_sublist _⟩
  | cons x _ ih =>
      cases h with
      | cons _ htail =>
          obtain ⟨ys', hys', hsub'⟩ := ih htail
          exact ⟨ys', hys', hsub'.cons _⟩
  | cons_cons x _ ih =>
      cases h with
      | cons hhead htail =>
          obtain ⟨ys', hys', hsub'⟩ := ih htail
          exact ⟨_ :: ys', mapM_eq_ok.mpr (.cons hhead (mapM_eq_ok.mp hys')), hsub'.cons_cons _⟩

/-- More elements at the end are mapped at the end. -/
theorem mapM_prefix {f : α → Except ε β} {l' l : List α} {ys : List β} (hfront : l' <+: l)
    (h : l.mapM f = .ok ys) : ∃ ys', l'.mapM f = .ok ys' ∧ ys' <+: ys := by
  obtain ⟨more, rfl⟩ := hfront
  rw [List.mapM_append] at h
  obtain ⟨ys', hys', h⟩ := bind_eq_ok.mp h
  obtain ⟨zs, _, h⟩ := bind_eq_ok.mp h
  cases h
  exact ⟨ys', hys', List.prefix_append _ _⟩

end Lib
