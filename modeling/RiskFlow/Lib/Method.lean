import Mathlib

/-!
# Method — calls that mutate an object and may raise

A method is a computation over the object it is called on. What it has
assigned before it raises stays assigned. So a call that raises leaves its
object alone only where all checks come before all assignments, that is
where the method `Computes` a function of the object; the rules turn this
into what runs of calls do.
-/

namespace Lib

/-- A computation that reads and assigns an object of type `σ` and may raise an `ε`. -/
abbrev Method (ε σ α : Type) := ExceptT ε (StateM σ) α

namespace Method

section Calls
variable {ε σ α β : Type}

/-- One call: what it returns or raises, and the object afterwards. -/
def call (m : Method ε σ α) (s : σ) : Except ε α × σ := (ExceptT.run m).run s

@[simp] theorem call_pure (a : α) (s : σ) : call (pure a : Method ε σ α) s = (.ok a, s) := rfl

@[simp] theorem call_throw (e : ε) (s : σ) :
    call (throw e : Method ε σ α) s = (.error e, s) := rfl

@[simp] theorem call_get (s : σ) : call (get : Method ε σ σ) s = (.ok s, s) := rfl

@[simp] theorem call_modify (f : σ → σ) (s : σ) :
    call (modify f : Method ε σ PUnit) s = (.ok ⟨⟩, f s) := rfl

/-- A sequence goes on with the object the first part leaves, or ends with it. -/
@[simp] theorem call_bind (m : Method ε σ α) (f : α → Method ε σ β) (s : σ) :
    call (m >>= f) s =
      match call m s with
      | (.ok a, s') => call (f a) s'
      | (.error e, s') => (.error e, s') := by
  simp only [call, ExceptT.run_bind, StateT.run_bind]
  cases hm : (ExceptT.run m).run s with
  | mk r s' =>
      cases r with
      | ok a => rfl
      | error e => rfl

/-- A loop of checks raises for the first element that fails one. -/
theorem call_forM_check (p : β → Prop) [DecidablePred p] (err : β → ε) (l : List β) (s : σ) :
    call (l.forM fun x => if p x then throw (err x) else pure () : Method ε σ PUnit) s =
      match l.find? fun x => decide (p x) with
      | some x => (.error (err x), s)
      | none => (.ok ⟨⟩, s) := by
  induction l with
  | nil => rfl
  | cons x rest ih =>
      rw [List.forM, call_bind]
      by_cases h : p x
      · simp [h]
      · simpa [h] using ih

end Calls

/-! ## Methods that check before they assign -/

section Rules
variable {ε σ ι : Type}

/-- A call assigns what `f` computes of the object, or raises what `f` does
and leaves the object as it was. -/
def Computes (m : Method ε σ Unit) (f : σ → Except ε σ) : Prop :=
  ∀ s, call m s =
    match f s with
    | .ok s' => (.ok (), s')
    | .error e => (.error e, s)

variable {m : Method ε σ Unit} {f : σ → Except ε σ} {s : σ}

theorem Computes.ok_iff (h : Computes m f) :
    (call m s).1 = .ok () ↔ ∃ s', f s = .ok s' ∧ (call m s).2 = s' := by
  rw [h s]
  cases f s <;> simp

/-- **A call that raises leaves its object as it was.** -/
theorem Computes.raises (h : Computes m f) {e : ε} (hraised : (call m s).1 = .error e) :
    (call m s).2 = s ∧ f s = .error e := by
  rw [h s] at hraised ⊢
  cases hf : f s with
  | ok s' =>
      rw [hf] at hraised
      cases hraised
  | error e' =>
      rw [hf] at hraised
      cases hraised
      exact ⟨rfl, rfl⟩

theorem Computes.raises_of_error (h : Computes m f) {e : ε} (hf : f s = .error e) :
    (call m s).1 = .error e := by
  rw [h s, hf]

variable {method : ι → Method ε σ Unit} {fn : ι → σ → Except ε σ} {inv : σ → Prop}

/-- The object after calls in turn; the caller catches what they raise. -/
def afterCalls (method : ι → Method ε σ Unit) (s : σ) (calls : List ι) : σ :=
  calls.foldl (fun s c => (call (method c) s).2) s

/-- What the calls return and raise. -/
def reactions (method : ι → Method ε σ Unit) : σ → List ι → List (Except ε Unit)
  | _, [] => []
  | s, c :: rest => (call (method c) s).1 :: reactions method (call (method c) s).2 rest

theorem afterCalls_append (s : σ) (calls calls' : List ι) :
    afterCalls method s (calls ++ calls') = afterCalls method (afterCalls method s calls) calls' :=
  List.foldl_append ..

/-- **One call** keeps what the functions keep. -/
theorem call_preserves (h : ∀ c, Computes (method c) (fn c)) {c : ι}
    (hstep : ∀ s', inv s → fn c s = .ok s' → inv s') (hs : inv s) :
    inv (call (method c) s).2 := by
  rw [h c s]
  cases hf : fn c s with
  | ok s' => exact hstep s' hs hf
  | error e => exact hs

/-- **Every run of calls** keeps what the functions keep. -/
theorem afterCalls_preserves (h : ∀ c, Computes (method c) (fn c)) {calls : List ι}
    (hstep : ∀ c ∈ calls, ∀ s s', inv s → fn c s = .ok s' → inv s') (hs : inv s) :
    inv (afterCalls method s calls) := by
  induction calls generalizing s with
  | nil => exact hs
  | cons c rest ih =>
      exact ih (fun c' hc' => hstep c' (by simp [hc']))
        (call_preserves h (hstep c (by simp) s) hs)

/-- Calls that all raise change nothing. -/
theorem afterCalls_of_raising (h : ∀ c, Computes (method c) (fn c))
    (hraise : ∀ c, ∃ e, fn c s = .error e) (calls : List ι) : afterCalls method s calls = s := by
  induction calls with
  | nil => rfl
  | cons c rest ih =>
      obtain ⟨e, he⟩ := hraise c
      have hsame : (call (method c) s).2 = s := ((h c).raises ((h c).raises_of_error he)).1
      rw [afterCalls, List.foldl_cons, hsame]
      exact ih

end Rules

end Method

end Lib
