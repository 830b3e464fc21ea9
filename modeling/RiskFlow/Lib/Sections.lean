import RiskFlow.Lib.Lines

/-!
# Sections — entries under the title of their class

Entries are put under the title of their class, each section with an end
mark behind it and the empty sections left out. The titles tell the sections
apart, so the whole list determines what stands in each of them, and the
sections together hold each entry once.
-/

namespace Lib

universe u v
variable {κ : Type u} {α : Type v}

/-- The entries of all classes, class by class. -/
def byClass [DecidableEq κ] (cls : α → κ) (order : List κ) (xs : List α) : List α :=
  order.flatMap fun k => xs.filter fun x => cls x = k

/-- **The classes together hold each entry once.** -/
theorem byClass_perm [DecidableEq κ] {cls : α → κ} {order : List κ} (hone : order.Nodup)
    {xs : List α} (hall : ∀ x ∈ xs, cls x ∈ order) : (byClass cls order xs).Perm xs := by
  induction order generalizing xs with
  | nil =>
      rw [List.eq_nil_iff_forall_not_mem.mpr fun x hx => List.not_mem_nil (hall x hx)]
      rfl
  | cons k rest ih =>
      obtain ⟨hk, hrest⟩ := List.nodup_cons.mp hone
      have hothers : ∀ x ∈ xs.filter fun x => !decide (cls x = k), cls x ∈ rest := by
        intro x hx
        obtain ⟨hx, hne⟩ := List.mem_filter.mp hx
        rcases List.mem_cons.mp (hall x hx) with heq | hmem
        · simp [heq] at hne
        · exact hmem
      have hsame : byClass cls rest (xs.filter fun x => !decide (cls x = k)) =
          byClass cls rest xs := by
        refine List.flatMap_congr fun k' hk' => ?_
        have hne : k' ≠ k := fun heq => hk (heq ▸ hk')
        rw [List.filter_filter]
        refine List.filter_congr fun x _ => ?_
        by_cases hx : cls x = k'
        · simp [hx, hne]
        · simp [hx]
      have hperm := ih hrest hothers
      rw [hsame] at hperm
      exact (hperm.append_left _).trans (List.filter_append_perm _ xs)

/-- The sections that have entries, each with its title and an end mark. -/
def sections [DecidableEq α] (title : κ → α) (mark : α) (entries : κ → List α)
    (order : List κ) : List α :=
  order.flatMap fun k => if entries k = [] then [] else title k :: (entries k ++ [mark])

section Sections
variable [DecidableEq α] {title : κ → α} {mark : α} {entries entries' : κ → List α}
  {order : List κ}

theorem sections_cons (k : κ) (rest : List κ) :
    sections title mark entries (k :: rest) =
      (if entries k = [] then [] else title k :: (entries k ++ [mark])) ++
        sections title mark entries rest := List.flatMap_cons

theorem sections_congr (h : ∀ k ∈ order, entries k = entries' k) :
    sections title mark entries order = sections title mark entries' order :=
  List.flatMap_congr fun k hk => by rw [h k hk]

/-- Titles, entries and end marks are all there is. -/
theorem cases_of_mem_sections {x : α} (h : x ∈ sections title mark entries order) :
    (∃ k, x = title k) ∨ x = mark ∨ ∃ k, x ∈ entries k := by
  obtain ⟨k, _, hx⟩ := List.mem_flatMap.mp h
  split at hx
  · cases hx
  · rcases List.mem_cons.mp hx with htitle | hx
    · exact .inl ⟨k, htitle⟩
    · rcases List.mem_append.mp hx with hentry | hx
      · exact .inr (.inr ⟨k, hentry⟩)
      · exact .inr (.inl (List.mem_singleton.mp hx))

/-- What stands first is the title of a section with entries. -/
theorem sections_head {x : α} (h : (sections title mark entries order).head? = some x) :
    ∃ k ∈ order, x = title k := by
  induction order with
  | nil => cases h
  | cons k rest ih =>
      rw [sections_cons] at h
      by_cases hnil : entries k = []
      · rw [if_pos hnil, List.nil_append] at h
        obtain ⟨k', hk', hx⟩ := ih h
        exact ⟨k', List.mem_cons_of_mem _ hk', hx⟩
      · rw [if_neg hnil] at h
        cases h
        exact ⟨k, List.mem_cons_self, rfl⟩

/-- A section does not stand first where its class has none. -/
theorem sections_ne_title (htitle : Function.Injective title) {k : κ} (hk : k ∉ order)
    {tail : List α} : sections title mark entries order ≠ title k :: tail := by
  intro heq
  have hhead : (sections title mark entries order).head? = some (title k) := by
    rw [heq]
    rfl
  obtain ⟨k', hk', htitles⟩ := sections_head hhead
  exact hk (htitle htitles ▸ hk')

/-- **The sections tell what stands in each of them.** -/
theorem sections_eq_iff (htitle : Function.Injective title) (hone : order.Nodup)
    (hmark : ∀ k ∈ order, mark ∉ entries k) (hmark' : ∀ k ∈ order, mark ∉ entries' k) :
    sections title mark entries order = sections title mark entries' order ↔
      ∀ k ∈ order, entries k = entries' k := by
  refine ⟨fun h => ?_, sections_congr⟩
  induction order with
  | nil => simp
  | cons k rest ih =>
      obtain ⟨hk, hrest⟩ := List.nodup_cons.mp hone
      rw [List.forall_mem_cons] at hmark hmark' ⊢
      rw [sections_cons, sections_cons] at h
      by_cases hnil : entries k = []
      · by_cases hnil' : entries' k = []
        · rw [if_pos hnil, if_pos hnil', List.nil_append, List.nil_append] at h
          exact ⟨hnil.trans hnil'.symm, ih hrest hmark.2 hmark'.2 h⟩
        · rw [if_pos hnil, if_neg hnil', List.nil_append] at h
          exact absurd h (sections_ne_title htitle hk)
      · by_cases hnil' : entries' k = []
        · rw [if_neg hnil, if_pos hnil', List.nil_append] at h
          exact absurd h.symm (sections_ne_title htitle hk)
        · rw [if_neg hnil, if_neg hnil', List.cons_append, List.cons_append, List.append_assoc,
            List.append_assoc] at h
          -- the entries end where the mark stands first
          have hclear : ∀ {l : List α}, mark ∉ l → Clear (fun x => decide (x = mark)) l := by
            intro l hl x hx
            exact decide_eq_false fun heq => hl (heq ▸ hx)
          have hstops : ∀ tail : List α, Stops (fun x => decide (x = mark)) ([mark] ++ tail) := by
            intro tail b hb
            cases hb
            exact decide_eq_true rfl
          obtain ⟨hsame, htail⟩ := (hclear hmark.1).append_inj (hstops _) (hclear hmark'.1)
            (hstops _) (List.cons.inj h).2
          exact ⟨hsame, ih hrest hmark.2 hmark'.2 (List.append_cancel_left htail)⟩

end Sections

end Lib
