import RiskFlow.Adapters.GroqMapper
import RiskFlow.Lib.Fairness
import RiskFlow.Lib.Semaphore

/-!
# SlmCalls — calls of `map_headers` that share a semaphore

`create_app` gives one semaphore to the mappers of all schemas. An attempt
takes a permit for the time of the API call and gives it back whatever the
call gives, so a rate-limited call sleeps without one. The number of API
calls in flight never exceeds the number of permits, every call comes to
its end if every one gets its turns, and what it returns is what it would
return alone.
-/

namespace RiskFlow

open Lib

/-! ## The tasks -/

/-- Where a call stands: before the semaphore of attempt `k`, in the API call
of it, in the sleep after it, or done. -/
inductive SlmPhase where
  | waiting (k : Nat)
  | calling (k : Nat)
  | sleeping (k : Nat)
  | answered (outcome : Except PyErr MappingResult)

/-- A call of `map_headers`, and what the API answers to its attempts. -/
structure SlmRequest where
  mapper : GroqMapper
  sourceHeaders : List String
  previewRows : List Row
  api : ChatRequest → Nat → SlmCall

/-- What the API answers to attempt `k` of the call. -/
def SlmRequest.attempt (rt : Runtime) (r : SlmRequest) (k : Nat) : SlmCall :=
  r.api (r.mapper.request rt r.sourceHeaders r.previewRows) k

/-- What the call returns when it is alone. -/
def SlmRequest.alone (env : SlmEnv) (r : SlmRequest) : Except PyErr MappingResult :=
  r.mapper.mapHeaders env r.api r.sourceHeaders r.previewRows

structure SlmTask where
  request : SlmRequest
  phase : SlmPhase

def SlmTask.begin (request : SlmRequest) : SlmTask := ⟨request, .waiting 0⟩

/-- tenacity after attempt `k`: another one after a sleep, or the end. -/
def SlmRequest.afterAttempt (env : SlmEnv) (r : SlmRequest) (k : Nat) : SlmPhase :=
  match r.attempt env.rt k with
  | .error (.rateLimit msg) =>
      if k + 1 < maxAttempts then .sleeping (k + 1)
      else .answered (finishCall env (.error (.rateLimit msg)))
  | outcome => .answered (finishCall env outcome)

/-- The next step of a call; the shared state is the number of free permits. -/
def SlmTask.advance (env : SlmEnv) (free : Nat) (t : SlmTask) : Nat × SlmTask :=
  match t.phase with
  | .waiting k =>
      if t.request.mapper.semaphore then
        -- `async with self._semaphore` waits while there is no permit
        if free = 0 then (free, t) else (free - 1, { t with phase := .calling k })
      else (free, { t with phase := .calling k })
  | .calling k =>
      -- leaving `async with` gives the permit back, also with an exception
      (if t.request.mapper.semaphore then free + 1 else free,
        { t with phase := t.request.afterAttempt env k })
  | .sleeping k => (free, { t with phase := .waiting k })
  | .answered _ => (free, t)

/-- The calls after a schedule, with `permits` permits at the start. -/
def serveCalls (env : SlmEnv) (permits : Nat) (calls : List SlmRequest) (schedule : List Nat) :
    Pool Nat SlmTask :=
  Pool.run (SlmTask.advance env) ⟨permits, calls.map SlmTask.begin⟩ schedule

/-- The call holds a permit. -/
def SlmTask.inFlight (t : SlmTask) : Bool :=
  match t.phase with
  | .calling _ => t.request.mapper.semaphore
  | _ => false

/-! ## The permits -/

theorem inFlight_afterAttempt (env : SlmEnv) (r : SlmRequest) (k : Nat) :
    SlmTask.inFlight ⟨r, r.afterAttempt env k⟩ = false := by
  unfold SlmRequest.afterAttempt
  split
  · split <;> rfl
  · rfl

/-- The mappers' semaphore. -/
def slmSemaphore (env : SlmEnv) : Pool.Semaphore (SlmTask.advance env) where
  free := id
  inside := SlmTask.inFlight
  enter s t hout hin := by
    obtain ⟨r, phase⟩ := t
    cases phase with
    | waiting k =>
        cases hlimited : r.mapper.semaphore with
        | false => simp [SlmTask.advance, SlmTask.inFlight, hlimited] at hin
        | true =>
            by_cases hfree : s = 0
            · simp [SlmTask.advance, SlmTask.inFlight, hlimited, hfree] at hin
            · simp only [SlmTask.advance, hlimited, if_true, if_neg hfree, id_eq]
              omega
    | calling k => exact absurd ((inFlight_afterAttempt env r k).symm.trans hin) (by decide)
    | sleeping k => cases hin
    | answered outcome => cases hin
  same s t hsame := by
    obtain ⟨r, phase⟩ := t
    cases phase with
    | waiting k =>
        cases hlimited : r.mapper.semaphore with
        | false => simp [SlmTask.advance, hlimited]
        | true =>
            by_cases hfree : s = 0
            · simp [SlmTask.advance, hlimited, hfree]
            · simp [SlmTask.advance, SlmTask.inFlight, hlimited, hfree] at hsame
    | calling k =>
        have hlimited : r.mapper.semaphore = false :=
          hsame.symm.trans (inFlight_afterAttempt env r k)
        simp [SlmTask.advance, hlimited]
    | sleeping k => rfl
    | answered outcome => rfl
  leave s t hin hout := by
    obtain ⟨r, phase⟩ := t
    cases phase with
    | calling k =>
        have hlimited : r.mapper.semaphore = true := hin
        simp [SlmTask.advance, hlimited]
    | waiting k => cases hin
    | sleeping k => cases hin
    | answered outcome => cases hin

/-! ## What a call returns -/

/-- The call is on its way to what it would return alone. -/
def SlmTask.OnCourse (env : SlmEnv) (t : SlmTask) : Prop :=
  match t.phase with
  | .waiting k | .calling k | .sleeping k => k < maxAttempts ∧
      t.request.alone env =
        finishCall env (callWithRetry (t.request.attempt env.rt) (maxAttempts - 1 - k) k)
  | .answered outcome => outcome = t.request.alone env

theorem onCourse_begin (env : SlmEnv) (r : SlmRequest) : (SlmTask.begin r).OnCourse env :=
  ⟨by decide, rfl⟩

/-- After an attempt: the same call with one attempt less. -/
theorem onCourse_afterAttempt {env : SlmEnv} {r : SlmRequest} {k : Nat} (hk : k < maxAttempts)
    (halone : r.alone env =
      finishCall env (callWithRetry (r.attempt env.rt) (maxAttempts - 1 - k) k)) :
    SlmTask.OnCourse env ⟨r, r.afterAttempt env k⟩ := by
  have hmax : maxAttempts = 3 := rfl
  -- an outcome that is not tried again is what the remaining attempts give
  have hends : ∀ outcome, r.attempt env.rt k = outcome →
      (∀ msg, outcome ≠ .error (.rateLimit msg)) → finishCall env outcome = r.alone env := by
    intro outcome houtcome hne
    rw [halone]
    cases maxAttempts - 1 - k with
    | zero => rw [callWithRetry, houtcome]
    | succ left =>
        rw [callWithRetry, houtcome]
        split
        · rename_i msg
          exact absurd rfl (hne msg)
        · rfl
  unfold SlmTask.OnCourse SlmRequest.afterAttempt
  cases hattempt : r.attempt env.rt k with
  | ok choices => exact hends _ hattempt fun msg h => by cases h
  | error e =>
      cases e with
      | other e => exact hends _ hattempt fun msg h => by cases h
      | rateLimit msg =>
          by_cases hmore : k + 1 < maxAttempts
          · simp only [if_pos hmore]
            have hleft : maxAttempts - 1 - k = (maxAttempts - 1 - (k + 1)) + 1 := by omega
            refine ⟨hmore, ?_⟩
            rw [halone, hleft, callWithRetry, hattempt]
          · simp only [if_neg hmore]
            have hleft : maxAttempts - 1 - k = 0 := by omega
            show finishCall env (.error (.rateLimit msg)) = r.alone env
            rw [halone, hleft, callWithRetry, hattempt]

theorem onCourse_step (env : SlmEnv) (free : Nat) {t : SlmTask} (h : t.OnCourse env) :
    (t.advance env free).2.OnCourse env := by
  obtain ⟨r, phase⟩ := t
  cases phase with
  | waiting k =>
      simp only [SlmTask.advance]
      split
      · split
        · exact h
        · exact h
      · exact h
  | calling k => exact onCourse_afterAttempt h.1 h.2
  | sleeping k => exact h
  | answered outcome => exact h

theorem advance_request (env : SlmEnv) (free : Nat) (t : SlmTask) :
    (t.advance env free).2.request = t.request := by
  obtain ⟨r, phase⟩ := t
  cases phase with
  | waiting k =>
      simp only [SlmTask.advance]
      split
      · split <;> rfl
      · rfl
  | _ => rfl

/-! ## Runs -/

/-- The calls keep their places, and each is on its course. -/
theorem onCourse_run (env : SlmEnv) (permits : Nat) (calls : List SlmRequest)
    (schedule : List Nat) :
    (serveCalls env permits calls schedule).tasks.map SlmTask.request = calls ∧
      ∀ t ∈ (serveCalls env permits calls schedule).tasks, t.OnCourse env := by
  have hstep : ∀ (p : Pool Nat SlmTask) (i : Nat),
      p.tasks.map SlmTask.request = calls ∧ (∀ t ∈ p.tasks, t.OnCourse env) →
      (p.step (SlmTask.advance env) i).tasks.map SlmTask.request = calls ∧
        ∀ t ∈ (p.step (SlmTask.advance env) i).tasks, t.OnCourse env := by
    intro p i ⟨hcalls, hcourse⟩
    cases ht : p.tasks[i]? with
    | none =>
        rw [Pool.step_none _ ht]
        exact ⟨hcalls, hcourse⟩
    | some t =>
        rw [Pool.step_some _ ht]
        obtain ⟨hi, hget⟩ := List.getElem?_eq_some_iff.mp ht
        refine ⟨?_, fun u hu => ?_⟩
        · have hsame : (p.tasks.map SlmTask.request)[i]? = some t.request := by
            rw [List.getElem?_map, ht]
            rfl
          rw [List.map_set, advance_request, hcalls]
          rw [hcalls] at hsame
          obtain ⟨hi', hget'⟩ := List.getElem?_eq_some_iff.mp hsame
          rw [← hget']
          exact List.set_getElem_self hi'
        · rcases List.mem_or_eq_of_mem_set hu with hmem | rfl
          · exact hcourse u hmem
          · exact onCourse_step env _ (hcourse t (List.mem_of_getElem? ht))
  have hbegin : (calls.map SlmTask.begin).map SlmTask.request = calls ∧
      ∀ t ∈ calls.map SlmTask.begin, t.OnCourse env := by
    refine ⟨by rw [List.map_map]; exact List.map_id calls, fun t ht => ?_⟩
    obtain ⟨r, _, rfl⟩ := List.mem_map.mp ht
    exact onCourse_begin env r
  exact run_preserves (fun p i hp _ => hstep p i hp)
    (allSteps_of_forall (fun _ _ _ => trivial)) hbegin

/-- The calls in flight and the free permits. -/
theorem permits_run (env : SlmEnv) (permits : Nat) (calls : List SlmRequest)
    (schedule : List Nat) :
    (serveCalls env permits calls schedule).tasks.countP SlmTask.inFlight +
      (serveCalls env permits calls schedule).shared = permits := by
  have hconserved := (slmSemaphore env).conserved_run ⟨permits, calls.map SlmTask.begin⟩ schedule
  rw [Pool.Semaphore.inUse_eq_countP, Pool.Semaphore.inUse_eq_countP] at hconserved
  have hnone : (calls.map SlmTask.begin).countP SlmTask.inFlight = 0 := by
    refine List.countP_eq_zero.mpr fun t ht => ?_
    obtain ⟨r, _, rfl⟩ := List.mem_map.mp ht
    exact Bool.false_ne_true
  have hstart : (slmSemaphore env).free permits +
      (calls.map SlmTask.begin).countP (slmSemaphore env).inside = permits := by
    show permits + (calls.map SlmTask.begin).countP SlmTask.inFlight = permits
    omega
  rw [Nat.add_comm]
  exact hconserved.trans hstart

/-- **At most as many API calls as permits.** After every schedule the calls in
flight and the free permits add up to the permits there were, no call is
lost, and what a call has returned is what it returns alone. -/
theorem slm_calls_limited (env : SlmEnv) (permits : Nat) (calls : List SlmRequest)
    (schedule : List Nat) :
    (serveCalls env permits calls schedule).tasks.countP SlmTask.inFlight +
        (serveCalls env permits calls schedule).shared = permits ∧
      (serveCalls env permits calls schedule).tasks.map SlmTask.request = calls ∧
      ∀ t ∈ (serveCalls env permits calls schedule).tasks, ∀ outcome,
        t.phase = .answered outcome → outcome = t.request.alone env := by
  obtain ⟨hcalls, hcourse⟩ := onCourse_run env permits calls schedule
  refine ⟨permits_run env permits calls schedule, hcalls, fun t ht outcome hanswered => ?_⟩
  have hon := hcourse t ht
  unfold SlmTask.OnCourse at hon
  rw [hanswered] at hon
  exact hon

/-! ## The end of every call -/

/-- The steps a call still has to take, at most. -/
def SlmPhase.left : SlmPhase → Nat
  | .sleeping k => 3 * (maxAttempts - k) + 4
  | .waiting k => 3 * (maxAttempts - k) + 3
  | .calling k => 3 * (maxAttempts - k) + 2
  | .answered _ => 0

theorem left_afterAttempt (env : SlmEnv) (r : SlmRequest) (k : Nat) :
    (r.afterAttempt env k).left < (SlmPhase.calling k).left := by
  unfold SlmRequest.afterAttempt
  split
  · split
    · simp only [SlmPhase.left]
      omega
    · simp only [SlmPhase.left]
      omega
  · simp only [SlmPhase.left]
    omega

/-- A step does nothing, where no permit is free, or brings its call forward. -/
theorem advance_left (env : SlmEnv) (free : Nat) (t : SlmTask) :
    (t.advance env free = (free, t) ∧ (t.phase.left = 0 ∨
        (t.request.mapper.semaphore = true ∧ free = 0))) ∨
      (t.advance env free).2.phase.left < t.phase.left := by
  obtain ⟨r, phase⟩ := t
  cases phase with
  | waiting k =>
      cases hlimited : r.mapper.semaphore with
      | false =>
          right
          simp [SlmTask.advance, hlimited, SlmPhase.left]
      | true =>
          by_cases hfree : free = 0
          · left
            simp [SlmTask.advance, hlimited, hfree]
          · right
            simp [SlmTask.advance, hlimited, hfree, SlmPhase.left]
  | calling k => exact .inr (left_afterAttempt env r k)
  | sleeping k =>
      right
      show (SlmPhase.waiting k).left < (SlmPhase.sleeping k).left
      simp only [SlmPhase.left]
      omega
  | answered outcome => exact .inl ⟨rfl, .inl rfl⟩

/-- A call inside the semaphore can always take its step. -/
theorem inFlight_left {env : SlmEnv} {t : SlmTask} (h : t.inFlight = true) (free : Nat) :
    (t.advance env free).2.phase.left < t.phase.left := by
  obtain ⟨r, phase⟩ := t
  cases phase with
  | calling k => exact left_afterAttempt env r k
  | waiting k => cases h
  | sleeping k => cases h
  | answered outcome => cases h

/-- Where a call must wait for a permit, one of the others gives one back. -/
def slmProgress (env : SlmEnv) (permits : Nat) : Pool.Progress (SlmTask.advance env) where
  left t := t.phase.left
  inv p := (slmSemaphore env).free p.shared + (slmSemaphore env).inUse p = permits ∧
    ∀ t ∈ p.tasks, t.request.mapper.semaphore = true → 0 < permits
  keeps p i hp := by
    refine ⟨((slmSemaphore env).conserved_step p i).trans hp.1, ?_⟩
    cases ht : p.tasks[i]? with
    | none =>
        rw [Pool.step_none _ ht]
        exact hp.2
    | some t =>
        rw [Pool.step_some _ ht]
        intro u hu
        rcases List.mem_or_eq_of_mem_set hu with hmem | rfl
        · exact hp.2 u hmem
        · rw [advance_request]
          exact hp.2 t (List.mem_of_getElem? ht)
  forward s t := by
    rcases advance_left env s t with ⟨hsame, _⟩ | hless
    · exact .inl hsame
    · exact .inr hless
  live p hp hwork := by
    obtain ⟨t, ht, hleft⟩ := hwork
    rcases advance_left env p.shared t with ⟨_, hdone | ⟨hlimited, hfree⟩⟩ | hless
    · omega
    · have hpermits := hp.2 t ht hlimited
      have hconserved := hp.1
      obtain ⟨u, hu, hinside⟩ :=
        (slmSemaphore env).exists_inside (p := p) (by omega) hfree
      exact ⟨u, hu, inFlight_left hinside p.shared⟩
    · exact ⟨t, ht, hless⟩

/-- **Every call comes to its end.** If all calls get their turns often enough,
each has returned what it returns alone and every permit is free again,
whatever the API answers and in whatever order the calls take their steps. -/
theorem slm_calls_finish (env : SlmEnv) (permits : Nat) (calls : List SlmRequest)
    (rounds : List (List Nat))
    (hpermits : ∀ r ∈ calls, r.mapper.semaphore = true → 0 < permits)
    (hrounds : ∀ round ∈ rounds, Pool.Covers calls.length round)
    (henough : 12 * calls.length ≤ rounds.length) :
    serveCalls env permits calls rounds.flatten =
      ⟨permits, calls.map fun r => ⟨r, .answered (r.alone env)⟩⟩ := by
  have hstart : (slmProgress env permits).inv ⟨permits, calls.map SlmTask.begin⟩ := by
    refine ⟨?_, fun t ht => ?_⟩
    · rw [Pool.Semaphore.inUse_eq_countP, Nat.add_comm]
      exact permits_run env permits calls []
    · obtain ⟨r, hr, rfl⟩ := List.mem_map.mp ht
      exact hpermits r hr
  have htotal : (slmProgress env permits).total ⟨permits, calls.map SlmTask.begin⟩ =
      12 * calls.length := by
    show ((calls.map SlmTask.begin).map fun t => t.phase.left).sum = 12 * calls.length
    have heach : ∀ r ∈ calls, ((fun t : SlmTask => t.phase.left) ∘ SlmTask.begin) r = 12 :=
      fun _ _ => rfl
    rw [List.map_map, List.map_congr_left heach, List.map_const', List.sum_replicate,
      smul_eq_mul, Nat.mul_comm]
  have hfinished := (slmProgress env permits).rounds_finish hstart
    (by simpa using hrounds) (by omega)
  obtain ⟨hcalls, hcourse⟩ := onCourse_run env permits calls rounds.flatten
  have hpermits := permits_run env permits calls rounds.flatten
  have hanswered : ∀ t ∈ (serveCalls env permits calls rounds.flatten).tasks,
      t = ⟨t.request, .answered (t.request.alone env)⟩ := by
    intro t ht
    have hleft : t.phase.left = 0 := hfinished t ht
    have hon := hcourse t ht
    obtain ⟨r, phase⟩ := t
    cases phase with
    | answered outcome =>
        have houtcome : outcome = r.alone env := hon
        rw [houtcome]
    | waiting k =>
        simp only [SlmPhase.left] at hleft
        omega
    | calling k =>
        simp only [SlmPhase.left] at hleft
        omega
    | sleeping k =>
        simp only [SlmPhase.left] at hleft
        omega
  have hnone : (serveCalls env permits calls rounds.flatten).tasks.countP SlmTask.inFlight = 0 := by
    refine List.countP_eq_zero.mpr fun t ht => ?_
    rw [hanswered t ht]
    exact Bool.false_ne_true
  generalize serveCalls env permits calls rounds.flatten = p at hcalls hpermits hanswered hnone
  obtain ⟨free, tasks⟩ := p
  have hfree : free = permits := by
    show free = permits
    have hsum : tasks.countP SlmTask.inFlight + free = permits := hpermits
    have hzero : tasks.countP SlmTask.inFlight = 0 := hnone
    omega
  have htasks : tasks = calls.map fun r => ⟨r, .answered (r.alone env)⟩ := by
    rw [← hcalls, List.map_map]
    exact (List.map_id tasks).symm.trans (List.map_congr_left hanswered)
  rw [hfree, htasks]

/-! ## The calls of two uploads -/

/-- A mapper that shares the semaphore, and an API that is busy once. -/
def busyOnce : SlmRequest where
  mapper := { schema := defaultTargetSchema, semaphore := true }
  sourceHeaders := ["GWP"]
  previewRows := []
  api _ k := if k = 0 then .error (.rateLimit "429") else .ok [some "mapped"]

def plainSlmEnv : SlmEnv where
  rt := .plain
  parseJson _ := .ok (MappingResult.encode ⟨[], ["GWP"], List.nodup_nil⟩)

/-- Two calls with one permit. -/
theorem busyOnce_finishes :
    serveCalls plainSlmEnv 1 [busyOnce, busyOnce] (List.replicate 24 [0, 1]).flatten =
      ⟨1, [⟨busyOnce, .answered (busyOnce.alone plainSlmEnv)⟩,
        ⟨busyOnce, .answered (busyOnce.alone plainSlmEnv)⟩]⟩ := by
  refine slm_calls_finish plainSlmEnv 1 [busyOnce, busyOnce] (List.replicate 24 [0, 1])
    (fun _ _ _ => Nat.one_pos) (fun round hround => ?_) (by simp)
  rw [List.eq_of_mem_replicate hround]
  intro i hi
  have htwo : i < 2 := hi
  have hcases : i = 0 ∨ i = 1 := by omega
  rcases hcases with rfl | rfl
  · simp
  · simp

example : (busyOnce.alone plainSlmEnv).toOption.map MappingResult.unmappedHeaders =
    some ["GWP"] := rfl

end RiskFlow
