import RiskFlow.Lib.Interleaving

/-!
# Recording — a history beside the shared state

A pool that keeps, beside the shared state, the list of what its tasks
have contributed, in the order of the steps that contributed it. No task
reads the history, so every run of the pool is the first half of a run of
the recording pool: an invariant that speaks of the history, proved by the
rules for pools, is a fact about the pool without one.
-/

namespace Lib
namespace Pool
variable {σ τ ρ : Type} (advance : σ → τ → σ × τ) (f : τ → Option ρ)

/-- What a step adds to the contribution of its task. -/
def gained (t t' : τ) : List ρ :=
  match f t with
  | some _ => []
  | none => (f t').toList

/-- The step of a task, its contribution written down. -/
def recording (s : σ × List ρ) (t : τ) : (σ × List ρ) × τ :=
  (((advance s.1 t).1, s.2 ++ gained f t (advance s.1 t).2), (advance s.1 t).2)

/-- The pool without its history. -/
def forget (p : Pool (σ × List ρ) τ) : Pool σ τ := ⟨p.shared.1, p.tasks⟩

/-- The pool with an empty history. -/
def unrecorded (p : Pool σ τ) : Pool (σ × List ρ) τ := ⟨(p.shared, []), p.tasks⟩

variable {f}

theorem gained_same {t t' : τ} (h : f t' = f t) : gained f t t' = [] := by
  unfold gained
  split
  · rfl
  · rename_i hnone
    rw [h, hnone]
    rfl

theorem gained_new {t t' : τ} {r : ρ} (hbefore : f t = none) (hafter : f t' = some r) :
    gained f t t' = [r] := by
  simp [gained, hbefore, hafter]

section Steps
variable {advance} {s s' : σ} {t t' : τ} {history : List ρ}

theorem recording_same (h : advance s t = (s', t')) (hf : f t' = f t) :
    recording advance f (s, history) t = ((s', history), t') := by
  simp [recording, h, gained_same hf]

theorem recording_new {r : ρ} (h : advance s t = (s', t')) (hbefore : f t = none)
    (hafter : f t' = some r) :
    recording advance f (s, history) t = ((s', history ++ [r]), t') := by
  simp [recording, h, gained_new hbefore hafter]

end Steps

/-- One step of the recording pool is the step of the pool. -/
theorem forget_step (p : Pool (σ × List ρ) τ) (i : Nat) :
    (p.step (recording advance f) i).forget = p.forget.step advance i := by
  cases ht : p.tasks[i]? with
  | none =>
      have hforget : p.forget.tasks[i]? = none := ht
      rw [step_none _ ht, step_none _ hforget]
  | some t =>
      have hforget : p.forget.tasks[i]? = some t := ht
      rw [step_some _ ht, step_some _ hforget]
      rfl

/-- **The history is not seen by the run.** -/
theorem forget_run (p : Pool (σ × List ρ) τ) (schedule : List Nat) :
    (p.run (recording advance f) schedule).forget = p.forget.run advance schedule := by
  induction schedule generalizing p with
  | nil => rfl
  | cons i rest ih =>
      show ((p.step (recording advance f) i).run (recording advance f) rest).forget = _
      rw [ih, forget_step]
      rfl

/-- Nothing is ever taken out of the history. -/
theorem history_run (p : Pool (σ × List ρ) τ) (schedule : List Nat) :
    ∃ more, (p.run (recording advance f) schedule).shared.2 = p.shared.2 ++ more := by
  induction schedule generalizing p with
  | nil => exact ⟨[], (List.append_nil _).symm⟩
  | cons i rest ih =>
      obtain ⟨more, hmore⟩ := ih (p.step (recording advance f) i)
      have hstep : ∃ new, (p.step (recording advance f) i).shared.2 = p.shared.2 ++ new := by
        cases ht : p.tasks[i]? with
        | none =>
            rw [step_none _ ht]
            exact ⟨[], (List.append_nil _).symm⟩
        | some t =>
            rw [step_some _ ht]
            exact ⟨gained f t (advance p.shared.1 t).2, rfl⟩
      obtain ⟨new, hnew⟩ := hstep
      rw [hnew, List.append_assoc] at hmore
      exact ⟨new ++ more, hmore⟩

/-- The history holds what the tasks have contributed, each thing once. -/
def Recorded (f : τ → Option ρ) (p : Pool (σ × List ρ) τ) : Prop :=
  p.shared.2.Perm (p.collect f)

/-- A step keeps the record if no task withdraws or changes a contribution. -/
theorem recorded_step {p : Pool (σ × List ρ) τ} {i : Nat}
    (hkeep : ∀ s t r, f t = some r → f (advance s t).2 = some r) (hp : p.Recorded f) :
    (p.step (recording advance f) i).Recorded f := by
  cases ht : p.tasks[i]? with
  | none => rwa [step_none _ ht]
  | some t =>
      have hshared : (p.step (recording advance f) i).shared =
          (recording advance f p.shared t).1 := by
        rw [step_some _ ht]
      unfold Recorded at hp ⊢
      rw [hshared]
      show (p.shared.2 ++ gained f t (advance p.shared.1 t).2).Perm _
      cases hbefore : f t with
      | some r =>
          have hafter := (hkeep p.shared.1 t r hbefore).trans hbefore.symm
          rw [gained_same hafter, List.append_nil]
          exact hp.trans (collect_same (recording advance f) ht hafter).symm
      | none =>
          cases hafter : f (advance p.shared.1 t).2 with
          | none =>
              have hsame := hafter.trans hbefore.symm
              rw [gained_same hsame, List.append_nil]
              exact hp.trans (collect_same (recording advance f) ht hsame).symm
          | some r =>
              rw [gained_new hbefore hafter]
              have hgain := collect_gain (recording advance f) ht hbefore hafter
              exact (List.perm_append_singleton r _).trans ((hp.cons r).trans hgain.symm)

/-- The record of a run that starts without contributions. -/
theorem recorded_run (hkeep : ∀ s t r, f t = some r → f (advance s t).2 = some r)
    {p : Pool σ τ} (hnone : p.collect f = []) (schedule : List Nat) :
    (p.unrecorded.run (recording advance f) schedule).Recorded f := by
  have hstart : p.unrecorded.Recorded f := by
    show [].Perm (p.collect f)
    rw [hnone]
  exact run_preserves (fun _ _ h _ => recorded_step advance hkeep h)
    (allSteps_of_forall fun _ _ _ => trivial) hstart

/-- **The monitor rule with a history**: after every schedule some order of
the contributions satisfies the invariant of a monitor that sees them. -/
theorem Monitor.recorded_run (m : Monitor (recording advance f)) {p : Pool σ τ}
    (hkeep : ∀ s t r, f t = some r → f (advance s t).2 = some r)
    (hnone : p.collect f = []) (hp : m.Invariant p.unrecorded) (schedule : List Nat) :
    ∃ history, history.Perm ((p.run advance schedule).collect f) ∧
      m.Invariant ⟨((p.run advance schedule).shared, history),
        (p.run advance schedule).tasks⟩ := by
  have hforget : (p.unrecorded.run (recording advance f) schedule).forget =
      p.run advance schedule := forget_run advance p.unrecorded schedule
  refine ⟨(p.unrecorded.run (recording advance f) schedule).shared.2, ?_, ?_⟩
  · rw [← hforget]
    exact Pool.recorded_run advance hkeep hnone schedule
  · rw [← hforget]
    exact m.invariant_run hp schedule

end Pool
end Lib
