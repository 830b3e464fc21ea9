import Mathlib

/-!
# Run — sequences of events on a state

A run folds a step function over a list of events. `AllSteps` says that
every event meets a condition in the state it is applied to; the rules
turn what one step preserves into what a run preserves.
-/

namespace Lib

universe u v
variable {σ : Type u} {ε : Type v} {step : σ → ε → σ}

/-- Every event of the run meets `ok` in the state it finds. -/
def AllSteps (step : σ → ε → σ) (ok : σ → ε → Prop) : σ → List ε → Prop
  | _, [] => True
  | s, e :: rest => ok s e ∧ AllSteps step ok (step s e) rest

section Rules
variable {ok : σ → ε → Prop}

theorem allSteps_append {s : σ} {l l' : List ε} :
    AllSteps step ok s (l ++ l') ↔
      AllSteps step ok s l ∧ AllSteps step ok (l.foldl step s) l' := by
  induction l generalizing s with
  | nil => simp [AllSteps]
  | cons e rest ih => simp [AllSteps, ih, and_assoc]

/-- **The run rule**: what permitted steps preserve, a permitted run preserves. -/
theorem run_preserves {inv : σ → Prop} {s : σ} {l : List ε}
    (hstep : ∀ s e, inv s → ok s e → inv (step s e)) (hl : AllSteps step ok s l) (hs : inv s) :
    inv (l.foldl step s) := by
  induction l generalizing s with
  | nil => exact hs
  | cons e rest ih => exact ih hl.2 (hstep s e hs hl.1)

theorem allSteps_of_forall {s : σ} {l : List ε} (h : ∀ s, ∀ e ∈ l, ok s e) :
    AllSteps step ok s l := by
  induction l generalizing s with
  | nil => trivial
  | cons e rest ih => exact ⟨h s e (by simp), ih fun s e' he' => h s e' (by simp [he'])⟩

/-- Under an invariant of every step, equivalent conditions permit the same runs. -/
theorem allSteps_congr {ok' : σ → ε → Prop} {inv : σ → Prop} {s : σ} {l : List ε}
    (hstep : ∀ s e, inv s → inv (step s e)) (hok : ∀ s e, inv s → (ok s e ↔ ok' s e))
    (hs : inv s) : AllSteps step ok s l ↔ AllSteps step ok' s l := by
  induction l generalizing s with
  | nil => exact Iff.rfl
  | cons e rest ih =>
      rw [AllSteps, AllSteps, hok s e hs, ih (hstep s e hs)]

end Rules

end Lib
