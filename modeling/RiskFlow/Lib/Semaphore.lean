import RiskFlow.Lib.Interleaving

/-!
# Semaphore — a counted number of permits

A task takes a permit when it goes inside and gives it back when it
leaves, whatever else its steps do. So the free permits and the tasks
inside always add up to the number of permits there were at the start:
none is lost or made, and never are more tasks inside than that.
-/

namespace Lib
namespace Pool
variable {σ τ : Type} {advance : σ → τ → σ × τ}

/-- How the steps of tasks use the permits. -/
structure Semaphore (advance : σ → τ → σ × τ) where
  free : σ → Nat
  inside : τ → Bool
  enter : ∀ s t, inside t = false → inside (advance s t).2 = true →
    free (advance s t).1 + 1 = free s
  same : ∀ s t, inside (advance s t).2 = inside t → free (advance s t).1 = free s
  leave : ∀ s t, inside t = true → inside (advance s t).2 = false →
    free (advance s t).1 = free s + 1

namespace Semaphore
variable (m : Semaphore advance) {p : Pool σ τ}

/-- The task, if it is inside. -/
def holder (t : τ) : Option τ := if m.inside t then some t else none

/-- The number of tasks inside. -/
def inUse (p : Pool σ τ) : Nat := (p.collect m.holder).length

theorem inUse_eq_countP (p : Pool σ τ) : m.inUse p = p.tasks.countP m.inside := by
  obtain ⟨_, tasks⟩ := p
  show (tasks.filterMap m.holder).length = tasks.countP m.inside
  induction tasks with
  | nil => rfl
  | cons t rest ih =>
      unfold holder at ih ⊢
      cases hin : m.inside t with
      | true => simp [hin, ih]
      | false => simp [hin, ih]

theorem length_holder (t : τ) : (m.holder t).toList.length = if m.inside t then 1 else 0 := by
  unfold holder
  split <;> rfl

/-- Every step conserves the permits. -/
theorem conserved_step (p : Pool σ τ) (i : Nat) :
    m.free (p.step advance i).shared + m.inUse (p.step advance i) =
      m.free p.shared + m.inUse p := by
  cases ht : p.tasks[i]? with
  | none => rw [step_none advance ht]
  | some t =>
      have hshared : (p.step advance i).shared = (advance p.shared t).1 := by
        rw [step_some advance ht]
      obtain ⟨rest, hbefore, hafter⟩ := collect_step advance m.holder ht
      have hlength := hbefore.length_eq
      have hlength' := hafter.length_eq
      rw [List.length_append, length_holder] at hlength hlength'
      unfold inUse
      rw [hshared, hlength, hlength']
      cases hin : m.inside t with
      | false =>
          cases hin' : m.inside (advance p.shared t).2 with
          | false =>
              rw [m.same _ _ (hin'.trans hin.symm)]
          | true =>
              have henter := m.enter _ _ hin hin'
              simp only [if_true, Bool.false_eq_true, if_false]
              omega
      | true =>
          cases hin' : m.inside (advance p.shared t).2 with
          | false =>
              have hleave := m.leave _ _ hin hin'
              simp only [if_true, Bool.false_eq_true, if_false]
              omega
          | true =>
              rw [m.same _ _ (hin'.trans hin.symm)]

/-- **The permits are conserved** by every schedule. -/
theorem conserved_run (p : Pool σ τ) (schedule : List Nat) :
    m.free (p.run advance schedule).shared + m.inUse (p.run advance schedule) =
      m.free p.shared + m.inUse p := by
  induction schedule generalizing p with
  | nil => rfl
  | cons i rest ih => exact (ih (p.step advance i)).trans (m.conserved_step p i)

/-- Where no permit is free, a task is inside, if there were permits at all. -/
theorem exists_inside (hpermits : 0 < m.free p.shared + m.inUse p) (hnone : m.free p.shared = 0) :
    ∃ t ∈ p.tasks, m.inside t = true := by
  have hpos : 0 < (p.collect m.holder).length := by
    have hcount : 0 < m.inUse p := by omega
    exact hcount
  obtain ⟨t, ht⟩ := List.exists_mem_of_length_pos hpos
  obtain ⟨u, hu, hholder⟩ := List.mem_filterMap.mp ht
  unfold holder at hholder
  split at hholder
  · rename_i hinside
    exact ⟨u, hu, hinside⟩
  · cases hholder

end Semaphore
end Pool
end Lib
