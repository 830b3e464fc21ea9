import RiskFlow.Entrypoint.SchemasInStep
import RiskFlow.Lib.Fairness
import RiskFlow.Lib.Recording

/-!
# SchemaSerial — handlers under one lock, one after the other

Whatever the handlers' steps do in between, the successful requests have
an order in which a process that serves them one at a time gives the same
answers and ends in the same state, and a refused request gets the error
it would have got at some place of that order. With enough turns for
everyone every handler answers.
-/

namespace RiskFlow

open Lib

/-! ## One request at a time -/

/-- A handler without others, from its checks to its answer. -/
def serveOne (env : SchemaEnv) (s : SchemaWorld) :
    SchemaRequest → Except HttpException SchemaAnswer × SchemaWorld
  | .create body =>
      match checkCreate env s body with
      | .error e => (.error e, s)
      | .ok schema =>
          let answer := SchemaAnswer.created schema.name (schema.fingerprint env.rt)
          let saved := { s with store := RedisSchemaStore.save s.store schema }
          (.ok answer, (saved.register env schema).answer answer)
  | .delete name =>
      match checkDelete s name with
      | .error e => (.error e, s)
      | .ok () =>
          let unregistered := s.unregister name
          let deleted := { unregistered with
            store := RedisSchemaStore.delete unregistered.store name }
          (.ok (.deleted name), deleted.answer (.deleted name))

/-- A request that was answered with success, and its answer. -/
abbrev Accepted := SchemaRequest × SchemaAnswer

/-- The request is served. -/
def serial (env : SchemaEnv) (s : SchemaWorld) (r : Accepted) : SchemaWorld :=
  (serveOne env s r.1).2

/-- It gets this answer. -/
def GetsAnswer (env : SchemaEnv) (s : SchemaWorld) (r : Accepted) : Prop :=
  (serveOne env s r.1).1 = .ok r.2

/-- The process after these requests, one at a time. -/
def serialRun (env : SchemaEnv) (start : SchemaWorld) (history : List Accepted) : SchemaWorld :=
  history.foldl (serial env) start

/-- The request of a handler, once it has succeeded. -/
def SchemaTask.accepted (t : SchemaTask) : Option Accepted :=
  match t.phase with
  | .answered (.ok a) => some (t.request, a)
  | _ => none

/-! ## The lock -/

/-- The shared state and the handler after the last steps of a critical section. -/
def SchemaTask.final (env : SchemaEnv) (s : SchemaWorld) (t : SchemaTask) :
    SchemaWorld × SchemaTask :=
  (t.advance env s).2.advance env (t.advance env s).1

/-- A handler of the pool that writes down the accepted requests. -/
abbrev recordAccepted (env : SchemaEnv) : SchemaWorld × List Accepted → SchemaTask →
    (SchemaWorld × List Accepted) × SchemaTask :=
  Pool.recording (SchemaTask.advance env) SchemaTask.accepted

/-- While the lock is free the state is that of serving the history. -/
structure Serialized (env : SchemaEnv) (start : SchemaWorld)
    (s : SchemaWorld × List Accepted) : Prop where
  answers : AllSteps (serial env) (GetsAnswer env) start s.2
  state : s.1 = serialRun env start s.2

/-- What the rest of a critical section makes of state and handler is what
serving its request after the history does. -/
structure Serializes (env : SchemaEnv) (start : SchemaWorld)
    (s : SchemaWorld × List Accepted) (t : SchemaTask) : Prop where
  answers : AllSteps (serial env) (GetsAnswer env) start s.2
  finishes : ∃ a, serveOne env (serialRun env start s.2) t.request = (.ok a, (t.final env s.1).1) ∧
    (t.final env s.1).2 = ⟨t.request, .answered (.ok a)⟩

section Steps
variable {env : SchemaEnv} {start : SchemaWorld} {s : SchemaWorld × List Accepted}

theorem serializes_create (h : Serialized env start s) {body : List (String × Json)}
    {schema : TargetSchema} (hcheck : checkCreate env s.1 body = .ok schema) :
    Serializes env start ({ s.1 with locked := true }, s.2) ⟨.create body, .saving schema⟩ where
  answers := h.answers
  finishes := by
    refine ⟨.created schema.name (schema.fingerprint env.rt), ?_, rfl⟩
    rw [← h.state]
    simp only [serveOne, hcheck]
    rfl

theorem serializes_delete (h : Serialized env start s) {name : String}
    (hcheck : checkDelete s.1 name = .ok ()) :
    Serializes env start ({ s.1.unregister name with locked := true }, s.2)
      ⟨.delete name, .deleting name⟩ where
  answers := h.answers
  finishes := by
    refine ⟨.deleted name, ?_, rfl⟩
    rw [← h.state]
    simp only [serveOne, hcheck]
    rfl

/-- The last step of a critical section appends its request to the history. -/
theorem serialized_leave {t : SchemaTask} {s' : SchemaWorld} {a : SchemaAnswer}
    (h : Serializes env start s t)
    (hfinal : t.final env s.1 = (s', ⟨t.request, .answered (.ok a)⟩)) :
    Serialized env start (s', s.2 ++ [(t.request, a)]) := by
  obtain ⟨answer, hserve, hanswer⟩ := h.finishes
  rw [hfinal] at hserve hanswer
  have hsame : answer = a := by
    cases hanswer
    rfl
  subst hsame
  refine ⟨allSteps_append.mpr ⟨h.answers, ?_, trivial⟩, ?_⟩
  · show (serveOne env (serialRun env start s.2) t.request).1 = .ok answer
    rw [hserve]
  · show s' = serialRun env start (s.2 ++ [(t.request, answer)])
    unfold serialRun
    rw [List.foldl_append]
    show s' = (serveOne env (serialRun env start s.2) t.request).2
    rw [hserve]

end Steps

/-- `_schema_lock`, beside the accepted requests. -/
def serialLock (env : SchemaEnv) (start : SchemaWorld) : Pool.Monitor (recordAccepted env) where
  free s := s.1.locked = false
  inside := SchemaTask.holdsLock
  whenFree := Serialized env start
  whenHeld := Serializes env start
  enter s t hout hin := by
    obtain ⟨request, phase⟩ := t
    cases phase with
    | waiting =>
        rcases advance_waiting env s.1 request with ⟨phase, hphase, heq⟩ |
          ⟨body, schema, rfl, hfree, hcheck, heq⟩ | ⟨name, rfl, hfree, hcheck, heq⟩
        · have hin' : SchemaTask.holdsLock (SchemaTask.advance env s.1 ⟨request, .waiting⟩).2 =
              true := hin
          rw [heq] at hin'
          rcases hphase with rfl | ⟨e, rfl⟩
          · cases hin'
          · cases hin'
        · rw [show recordAccepted env s _ = _ from Pool.recording_same heq rfl]
          exact ⟨hfree, fun h => ⟨by simp, serializes_create h hcheck⟩⟩
        · rw [show recordAccepted env s _ = _ from Pool.recording_same heq rfl]
          exact ⟨hfree, fun h => ⟨by simp, serializes_delete h hcheck⟩⟩
    | answered answer => cases hin
    | _ => cases hout
  outside s t hout hout' := by
    obtain ⟨request, phase⟩ := t
    cases phase with
    | waiting =>
        have hstill : SchemaTask.holdsLock (SchemaTask.advance env s.1 ⟨request, .waiting⟩).2 =
            false := hout'
        rcases advance_waiting env s.1 request with ⟨phase, hphase, heq⟩ |
          ⟨_, _, _, _, _, heq⟩ | ⟨_, _, _, _, heq⟩
        · have hsame : SchemaTask.accepted ⟨request, phase⟩ =
              SchemaTask.accepted ⟨request, .waiting⟩ := by
            rcases hphase with rfl | ⟨e, rfl⟩
            · rfl
            · rfl
          rw [show recordAccepted env s _ = _ from Pool.recording_same heq hsame]
        · rw [heq] at hstill
          cases hstill
        · rw [heq] at hstill
          cases hstill
    | answered answer =>
        have heq : SchemaTask.advance env s.1 ⟨request, .answered answer⟩ =
            (s.1, ⟨request, .answered answer⟩) := rfl
        rw [show recordAccepted env s _ = _ from Pool.recording_same heq rfl]
    | _ => cases hout
  stay s t hin hin' hlocked hheld := by
    obtain ⟨request, phase⟩ := t
    cases phase with
    | saving schema =>
        have heq : recordAccepted env s ⟨request, .saving schema⟩ =
            (({ s.1 with store := RedisSchemaStore.save s.1.store schema }, s.2),
              ⟨request, .saved schema⟩) := Pool.recording_same rfl rfl
        rw [heq]
        exact ⟨hlocked, hheld.answers, hheld.finishes⟩
    | deleting name =>
        have heq : recordAccepted env s ⟨request, .deleting name⟩ =
            (({ s.1 with store := RedisSchemaStore.delete s.1.store name }, s.2),
              ⟨request, .deleted name⟩) := Pool.recording_same rfl rfl
        rw [heq]
        exact ⟨hlocked, hheld.answers, hheld.finishes⟩
    | saved schema => cases hin'
    | deleted name => cases hin'
    | waiting => cases hin
    | answered answer => cases hin
  leave s t hin hout hheld := by
    obtain ⟨request, phase⟩ := t
    cases phase with
    | saved schema =>
        have heq : recordAccepted env s ⟨request, .saved schema⟩ =
            (((s.1.register env schema).answer
                (.created schema.name (schema.fingerprint env.rt)),
              s.2 ++ [(request, .created schema.name (schema.fingerprint env.rt))]),
              ⟨request, .answered (.ok (.created schema.name (schema.fingerprint env.rt)))⟩) :=
          Pool.recording_new rfl rfl rfl
        rw [heq]
        exact ⟨rfl, serialized_leave hheld rfl⟩
    | deleted name =>
        have heq : recordAccepted env s ⟨request, .deleted name⟩ =
            ((s.1.answer (.deleted name), s.2 ++ [(request, .deleted name)]),
              ⟨request, .answered (.ok (.deleted name))⟩) := Pool.recording_new rfl rfl rfl
        rw [heq]
        exact ⟨rfl, serialized_leave hheld rfl⟩
    | saving schema => cases hout
    | deleting name => cases hout
    | waiting => cases hin
    | answered answer => cases hin

/-! ## Refused requests -/

/-- A refused request got the error it gets after the first part of the history. -/
def SchemaTask.RefusedAt (env : SchemaEnv) (start : SchemaWorld) (history : List Accepted)
    (t : SchemaTask) : Prop :=
  ∀ e, t.phase = .answered (.error e) → ∃ earlier, earlier <+: history ∧
    (serveOne env (serialRun env start earlier) t.request).1 = .error e

/-- A step that refuses its request found the lock free. -/
theorem advance_refused {env : SchemaEnv} {s : SchemaWorld} {request : SchemaRequest}
    {e : HttpException}
    (h : (SchemaTask.advance env s ⟨request, .waiting⟩).2.phase = .answered (.error e)) :
    s.locked = false ∧ (serveOne env s request).1 = .error e := by
  cases hlocked : s.locked with
  | true => simp [SchemaTask.advance, hlocked] at h
  | false =>
      refine ⟨rfl, ?_⟩
      cases request with
      | create body =>
          cases hcheck : checkCreate env s body with
          | error refused =>
              simp only [SchemaTask.advance, hlocked, hcheck] at h
              cases h
              simp only [serveOne, hcheck]
          | ok schema => simp [SchemaTask.advance, hlocked, hcheck] at h
      | delete name =>
          cases hcheck : checkDelete s name with
          | error refused =>
              simp only [SchemaTask.advance, hlocked, hcheck] at h
              cases h
              simp only [serveOne, hcheck]
          | ok u => simp [SchemaTask.advance, hlocked, hcheck] at h

theorem advance_keeps_request (env : SchemaEnv) (s : SchemaWorld) (t : SchemaTask) :
    (t.advance env s).2.request = t.request := by
  obtain ⟨request, phase⟩ := t
  cases phase with
  | waiting =>
      rcases advance_waiting env s request with ⟨_, _, heq⟩ | ⟨_, _, _, _, _, heq⟩ |
        ⟨_, _, _, _, heq⟩
      · rw [heq]
      · rw [heq]
      · rw [heq]
  | _ => rfl

section Refused
variable {env : SchemaEnv} {start : SchemaWorld}
  {p : Pool (SchemaWorld × List Accepted) SchemaTask}

theorem refusedAt_step (hlock : (serialLock env start).Invariant p)
    (h : ∀ t ∈ p.tasks, t.RefusedAt env start p.shared.2) (i : Nat) :
    ∀ t ∈ (p.step (recordAccepted env) i).tasks,
      t.RefusedAt env start (p.step (recordAccepted env) i).shared.2 := by
  have hholds : p.Holds (fun _ => True) fun s t => t.RefusedAt env start s.2 := ⟨trivial, h⟩
  refine (Pool.step_holds _ hholds fun t ht => ⟨trivial, ?_, ?_⟩).2
  · obtain ⟨request, phase⟩ := t
    intro e he
    cases phase with
    | waiting =>
        obtain ⟨hfree, hrefused⟩ := advance_refused he
        rcases hlock with ⟨_, hserialized, _⟩ | ⟨_, hlocked, _⟩
        · -- the lock is free, so the request meets the state of the whole history
          have hstate := hserialized.state
          rw [hstate] at hrefused
          refine ⟨p.shared.2, List.prefix_append _ _, ?_⟩
          show (serveOne env _
            (SchemaTask.advance env p.shared.1 ⟨request, .waiting⟩).2.request).1 = .error e
          rw [advance_keeps_request]
          exact hrefused
        · exact absurd hfree hlocked
    | answered answer =>
        obtain ⟨earlier, hfront, hrefused⟩ := h _ (List.mem_of_getElem? ht) e he
        exact ⟨earlier, hfront.trans (List.prefix_append _ _), hrefused⟩
    | saving schema => cases he
    | saved schema => cases he
    | deleting name => cases he
    | deleted name => cases he
  · intro u _ hu e he
    obtain ⟨earlier, hfront, hrefused⟩ := hu e he
    exact ⟨earlier, hfront.trans (List.prefix_append _ _), hrefused⟩

/-- Lock and refused requests, after every schedule. -/
theorem serial_run (hlock : (serialLock env start).Invariant p)
    (h : ∀ t ∈ p.tasks, t.RefusedAt env start p.shared.2) (schedule : List Nat) :
    (serialLock env start).Invariant (p.run (recordAccepted env) schedule) ∧
      ∀ t ∈ (p.run (recordAccepted env) schedule).tasks,
        t.RefusedAt env start (p.run (recordAccepted env) schedule).shared.2 := by
  induction schedule generalizing p with
  | nil => exact ⟨hlock, h⟩
  | cons i rest ih =>
      exact ih ((serialLock env start).invariant_step hlock) (refusedAt_step hlock h i)

end Refused

/-! ## Every handler answers -/

/-- The steps a handler still has to take. -/
def SchemaPhase.left : SchemaPhase → Nat
  | .waiting => 3
  | .saving _ | .deleting _ => 2
  | .saved _ | .deleted _ => 1
  | .answered _ => 0

/-- A step does nothing, where the lock is taken, or brings its handler forward. -/
theorem advance_schema_left (env : SchemaEnv) (s : SchemaWorld) (t : SchemaTask) :
    (t.advance env s = (s, t) ∧ (t.phase.left = 0 ∨ s.locked = true)) ∨
      (t.advance env s).2.phase.left < t.phase.left := by
  obtain ⟨request, phase⟩ := t
  cases phase with
  | waiting =>
      cases hlocked : s.locked with
      | true =>
          left
          simp [SchemaTask.advance, hlocked]
      | false =>
          right
          cases request with
          | create body =>
              simp only [SchemaTask.advance, hlocked]
              cases checkCreate env s body with
              | error e => exact Nat.succ_pos 2
              | ok schema => exact Nat.lt_succ_self 2
          | delete name =>
              simp only [SchemaTask.advance, hlocked]
              cases checkDelete s name with
              | error e => exact Nat.succ_pos 2
              | ok u => exact Nat.lt_succ_self 2
  | saving schema => exact .inr (Nat.lt_succ_self 1)
  | deleting name => exact .inr (Nat.lt_succ_self 1)
  | saved schema => exact .inr Nat.one_pos
  | deleted name => exact .inr Nat.one_pos
  | answered answer => exact .inl ⟨rfl, .inl rfl⟩

theorem holdsLock_left {env : SchemaEnv} {t : SchemaTask} (h : t.holdsLock = true)
    (s : SchemaWorld) : (t.advance env s).2.phase.left < t.phase.left := by
  obtain ⟨request, phase⟩ := t
  cases phase with
  | waiting => cases h
  | answered answer => cases h
  | saving schema => exact Nat.lt_succ_self 1
  | deleting name => exact Nat.lt_succ_self 1
  | saved schema => exact Nat.one_pos
  | deleted name => exact Nat.one_pos

/-- Where a handler must wait for the lock, the one inside goes on. -/
def schemaProgress (env : SchemaEnv) : Pool.Progress (SchemaTask.advance env) where
  left t := t.phase.left
  inv := (plainLock env).Invariant
  keeps _ _ hp := (plainLock env).invariant_step hp
  forward s t := by
    rcases advance_schema_left env s t with ⟨hsame, _⟩ | hless
    · exact .inl hsame
    · exact .inr hless
  live p hp hwork := by
    obtain ⟨t, ht, hleft⟩ := hwork
    rcases advance_schema_left env p.shared t with ⟨_, hdone | hlocked⟩ | hless
    · omega
    · rcases hp with ⟨hfree, _, _⟩ | ⟨u, _, _, hholder⟩
      · have hopen : p.shared.locked = false := hfree
        rw [hopen] at hlocked
        cases hlocked
      · obtain ⟨hu, hinside⟩ := (plainLock env).mem_of_holder hholder
        exact ⟨u, hu, holdsLock_left hinside p.shared⟩
    · exact ⟨t, ht, hless⟩

theorem rounds_answer (env : SchemaEnv) {s : SchemaWorld} (hfree : s.locked = false)
    (requests : List SchemaRequest) {rounds : List (List Nat)}
    (hrounds : ∀ round ∈ rounds, Pool.Covers requests.length round)
    (henough : 3 * requests.length ≤ rounds.length) :
    ∀ t ∈ (serveSchemas env s requests rounds.flatten).tasks,
      ∃ answer, t.phase = .answered answer := by
  have hstart : (plainLock env).Invariant ⟨s, requests.map SchemaTask.begin⟩ :=
    .inl ⟨hfree, trivial, Pool.collect_start _ fun _ _ => rfl⟩
  have htotal : (schemaProgress env).total ⟨s, requests.map SchemaTask.begin⟩ =
      3 * requests.length := by
    have heach : ∀ r ∈ requests, ((fun t : SchemaTask => t.phase.left) ∘ SchemaTask.begin) r = 3 :=
      fun _ _ => rfl
    show ((requests.map SchemaTask.begin).map fun t => t.phase.left).sum = _
    rw [List.map_map, List.map_congr_left heach, List.map_const', List.sum_replicate,
      smul_eq_mul, Nat.mul_comm]
  have hfinished := (schemaProgress env).rounds_finish hstart (by simpa using hrounds) (by omega)
  intro t ht
  have hleft : t.phase.left = 0 := hfinished t ht
  obtain ⟨request, phase⟩ := t
  cases phase with
  | answered answer => exact ⟨answer, rfl⟩
  | _ => cases hleft

/-! ## Every schedule -/

end RiskFlow
