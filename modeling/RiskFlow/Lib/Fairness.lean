import RiskFlow.Lib.Interleaving

/-!
# Fairness — pools whose tasks all come to an end

A round gives every task at least one turn. If a step does nothing or
leaves its task with less to do, and as long as something is left to do
some task can step, then a round in which nothing happened would have
passed over that task: every round brings the pool forward, and after as
many rounds as there is work left, no task has any.
-/

namespace Lib
namespace Pool
variable {σ τ : Type} {advance : σ → τ → σ × τ}

/-- What is left to do, and why it gets less. -/
structure Progress (advance : σ → τ → σ × τ) where
  left : τ → Nat
  inv : Pool σ τ → Prop
  keeps : ∀ p i, inv p → inv (p.step advance i)
  forward : ∀ s t, advance s t = (s, t) ∨ left (advance s t).2 < left t
  live : ∀ p, inv p → (∃ t ∈ p.tasks, 0 < left t) →
    ∃ t ∈ p.tasks, left (advance p.shared t).2 < left t

/-- Every one of `n` tasks has a turn. -/
def Covers (n : Nat) (round : List Nat) : Prop := ∀ i < n, i ∈ round

theorem length_step (p : Pool σ τ) (i : Nat) :
    (p.step advance i).tasks.length = p.tasks.length := by
  cases ht : p.tasks[i]? with
  | none => rw [step_none advance ht]
  | some t =>
      rw [step_some advance ht]
      exact List.length_set

theorem length_run (p : Pool σ τ) (schedule : List Nat) :
    (p.run advance schedule).tasks.length = p.tasks.length := by
  induction schedule generalizing p with
  | nil => rfl
  | cons i rest ih => exact (ih (p.step advance i)).trans (length_step p i)

namespace Progress
variable (m : Progress advance)

/-- What all tasks together have left to do. -/
def total (p : Pool σ τ) : Nat := (p.tasks.map m.left).sum

theorem sum_set (left : τ → Nat) {l : List τ} {i : Nat} {t : τ} (h : l[i]? = some t) (t' : τ) :
    ((l.set i t').map left).sum + left t = (l.map left).sum + left t' := by
  induction l generalizing i with
  | nil => cases h
  | cons x l ih =>
      cases i with
      | zero =>
          cases Option.some.inj h
          simp only [List.set_cons_zero, List.map_cons, List.sum_cons]
          omega
      | succ i =>
          have hrest := ih h
          simp only [List.set_cons_succ, List.map_cons, List.sum_cons]
          omega

/-- A step does nothing, or something that was left to do. -/
theorem step_total (p : Pool σ τ) (i : Nat) :
    p.step advance i = p ∨ m.total (p.step advance i) < m.total p := by
  cases ht : p.tasks[i]? with
  | none => exact .inl (step_none advance ht)
  | some t =>
      rw [step_some advance ht]
      rcases m.forward p.shared t with hsame | hless
      · left
        rw [hsame]
        have hset : p.tasks.set i t = p.tasks := by
          obtain ⟨hi, hget⟩ := List.getElem?_eq_some_iff.mp ht
          rw [← hget]
          exact List.set_getElem_self hi
        rw [hset]
      · right
        have hsum := sum_set m.left ht (advance p.shared t).2
        show ((p.tasks.set i (advance p.shared t).2).map m.left).sum < (p.tasks.map m.left).sum
        omega

/-- A schedule that does nothing passes over no task that could step. -/
theorem run_total (p : Pool σ τ) (schedule : List Nat) :
    m.total (p.run advance schedule) ≤ m.total p ∧
      (m.total (p.run advance schedule) = m.total p → ∀ i ∈ schedule, p.step advance i = p) := by
  induction schedule generalizing p with
  | nil => exact ⟨Nat.le_refl _, fun _ i hi => by cases hi⟩
  | cons j rest ih =>
      obtain ⟨hle, hsame⟩ := ih (p.step advance j)
      have hrun : p.run advance (j :: rest) = (p.step advance j).run advance rest := rfl
      rw [hrun]
      rcases m.step_total p j with hstep | hless
      · rw [hstep] at hle hsame ⊢
        refine ⟨hle, fun heq i hi => ?_⟩
        rcases List.mem_cons.mp hi with rfl | hi
        · exact hstep
        · exact hsame heq i hi
      · refine ⟨by omega, fun heq => ?_⟩
        omega

theorem inv_run {p : Pool σ τ} (hp : m.inv p) (schedule : List Nat) :
    m.inv (p.run advance schedule) := by
  induction schedule generalizing p with
  | nil => exact hp
  | cons i rest ih => exact ih (m.keeps p i hp)

/-- **A round brings the pool forward**, unless nothing is left to do. -/
theorem round_total {p : Pool σ τ} (hp : m.inv p) {round : List Nat}
    (hround : Covers p.tasks.length round) :
    m.total p = 0 ∨ m.total (p.run advance round) < m.total p := by
  by_cases hwork : ∃ t ∈ p.tasks, 0 < m.left t
  · right
    obtain ⟨hle, hsame⟩ := m.run_total p round
    obtain ⟨t, ht, hless⟩ := m.live p hp hwork
    obtain ⟨i, hi, hget⟩ := List.getElem_of_mem ht
    have hsome : p.tasks[i]? = some t := List.getElem?_eq_some_iff.mpr ⟨hi, hget⟩
    by_contra hnot
    have hstep := hsame (by omega) i (hround i hi)
    -- the step of `t` would have changed nothing, but it leaves less to do
    have hless' : m.total (p.step advance i) < m.total p := by
      have hsum := sum_set m.left hsome (advance p.shared t).2
      rw [step_some advance hsome]
      show ((p.tasks.set i (advance p.shared t).2).map m.left).sum < (p.tasks.map m.left).sum
      omega
    rw [hstep] at hless'
    exact Nat.lt_irrefl _ hless'
  · left
    refine List.sum_eq_zero fun n hn => ?_
    obtain ⟨t, ht, rfl⟩ := List.mem_map.mp hn
    by_contra hne
    exact hwork ⟨t, ht, Nat.pos_of_ne_zero hne⟩

/-- **Enough rounds finish every task.** -/
theorem rounds_finish {p : Pool σ τ} (hp : m.inv p) {rounds : List (List Nat)}
    (hrounds : ∀ round ∈ rounds, Covers p.tasks.length round)
    (henough : m.total p ≤ rounds.length) :
    ∀ t ∈ (p.run advance rounds.flatten).tasks, m.left t = 0 := by
  have hzero : m.total (p.run advance rounds.flatten) = 0 := by
    induction rounds generalizing p with
    | nil =>
        have hnone : m.total p ≤ 0 := henough
        exact Nat.le_zero.mp hnone
    | cons round rest ih =>
        have hrun : p.run advance (round :: rest).flatten =
            (p.run advance round).run advance rest.flatten := List.foldl_append
        rw [hrun]
        have hlength : rest.length + 1 = (round :: rest).length := rfl
        refine ih (m.inv_run hp round) (fun r hr => ?_) ?_
        · rw [length_run]
          exact hrounds r (List.mem_cons_of_mem round hr)
        · rcases m.round_total hp (hrounds round List.mem_cons_self) with hdone | hless
          · have hle := (m.run_total p round).1
            omega
          · omega
  intro t ht
  exact List.sum_eq_zero_iff.mp hzero _ (List.mem_map_of_mem ht)

end Progress
end Pool
end Lib
