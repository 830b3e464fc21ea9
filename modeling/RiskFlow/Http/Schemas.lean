import RiskFlow.Adapters.SchemaStore
import RiskFlow.Service.RowValidation
import RiskFlow.Http.Errors
import RiskFlow.Lib.Interleaving

/-!
# Schemas — the handlers that create and delete runtime schemas

Each handler as a task that holds `_schema_lock` from its checks to its
answer and waits once for the store in between. `create_schema` saves
first and registers afterwards; `delete_schema` unregisters first and
deletes afterwards.
-/

namespace RiskFlow

open Lib

/-- What the handlers were constructed with: the service factory and the
text of pydantic's error on a body. -/
structure SchemaEnv where
  rt : Runtime
  makeService : TargetSchema → MappingService
  strErr : Json → ValidationFailure → String

inductive SchemaRequest where
  | create (body : List (String × Json))
  | delete (name : String)

/-- A successful answer: 201 with `SchemaCreatedResponse`, or 204 to the
deletion of a name. -/
inductive SchemaAnswer where
  | created (name fingerprint : String)
  | deleted (name : String)
  deriving DecidableEq

/-- What the handlers of one process share. `served` lists the successful
answers in the order they were given. -/
structure SchemaWorld where
  registry : Dict String MappingService
  definitions : Dict String TargetSchema
  builtins : List String
  store : Dict String Json
  locked : Bool := false
  served : List SchemaAnswer := []

/-! ## Checks -/

/-- `create_schema` up to the store. -/
def checkCreate (env : SchemaEnv) (s : SchemaWorld) (body : List (String × Json)) :
    Except HttpException TargetSchema := do
  if body.isEmpty then
    .error ⟨422, .detail "INVALID_SCHEMA" "Request body must not be empty."
      "Provide a JSON object with 'name' and 'fields' keys."⟩
  else
    match TargetSchema.modelValidate (.obj body) with
    | .error e => .error ⟨422, .detail "INVALID_SCHEMA" (env.strErr (.obj body) e)
        "Check the schema format: name (string), fields (dict of field definitions)."⟩
    | .ok schema =>
        validateSchemaName schema.name
        if schema.name ∈ s.registry.keys ∨ schema.name ∈ s.definitions.keys then
          .error ⟨409, .detail "SCHEMA_ALREADY_EXISTS"
            ("Schema '" ++ schema.name ++ "' already exists.")
            ("Use DELETE /schemas/" ++ String.ofList [Char.ofNat 123] ++ "name" ++
              String.ofList [Char.ofNat 125] ++ " first, or choose a different name.")⟩
        else pure schema

/-- `delete_schema` up to its first change. -/
def checkDelete (s : SchemaWorld) (name : String) : Except HttpException Unit := do
  validateSchemaName name
  if name ∈ s.builtins then
    .error ⟨403, .detail "PROTECTED_SCHEMA"
      ("Schema '" ++ name ++ "' is a built-in schema and cannot be deleted.")
      "Only runtime schemas created via POST /schemas can be deleted."⟩
  else if name ∉ s.registry.keys ∧ name ∉ s.definitions.keys then
    .error ⟨404, .detail "SCHEMA_NOT_FOUND" ("Schema '" ++ name ++ "' not found.")
      "Use GET /schemas to list available schemas."⟩
  else pure ()

/-! ## Handlers -/

/-- Where a handler stands: before the lock, at the store before and after
its operation, or done. -/
inductive SchemaPhase where
  | waiting
  | saving (schema : TargetSchema)
  | saved (schema : TargetSchema)
  | deleting (name : String)
  | deleted (name : String)
  | answered (answer : Except HttpException SchemaAnswer)

/-- A handler at work on its request. -/
structure SchemaTask where
  request : SchemaRequest
  phase : SchemaPhase

/-- `_registry[schema.name] = _factory(schema)` and `_definitions[schema.name] = schema`. -/
def SchemaWorld.register (env : SchemaEnv) (s : SchemaWorld) (schema : TargetSchema) :
    SchemaWorld :=
  { s with
    registry := s.registry.set schema.name (env.makeService schema)
    definitions := s.definitions.set schema.name schema }

/-- `_registry.pop(name, None)` and `_definitions.pop(name, None)`. -/
def SchemaWorld.unregister (s : SchemaWorld) (name : String) : SchemaWorld :=
  { s with registry := s.registry.erase name, definitions := s.definitions.erase name }

/-- The lock is released with the answer. -/
def SchemaWorld.answer (s : SchemaWorld) (a : SchemaAnswer) : SchemaWorld :=
  { s with locked := false, served := s.served ++ [a] }

/-- The next step of a handler. A handler that finds the lock taken waits. -/
def SchemaTask.advance (env : SchemaEnv) (s : SchemaWorld) (t : SchemaTask) :
    SchemaWorld × SchemaTask :=
  match t.phase with
  -- `async with _schema_lock`, then everything up to the await of the store
  | .waiting =>
      if s.locked then (s, t)
      else
        match t.request with
        | .create body =>
            match checkCreate env s body with
            | .error e => (s, { t with phase := .answered (.error e) })
            | .ok schema => ({ s with locked := true }, { t with phase := .saving schema })
        | .delete name =>
            match checkDelete s name with
            | .error e => (s, { t with phase := .answered (.error e) })
            | .ok () =>
                ({ s.unregister name with locked := true }, { t with phase := .deleting name })
  -- a save registers afterwards, a delete has unregistered before
  | .saving schema =>
      ({ s with store := RedisSchemaStore.save s.store schema }, { t with phase := .saved schema })
  | .saved schema =>
      ((s.register env schema).answer (.created schema.name (schema.fingerprint env.rt)),
        { t with phase := .answered (.ok (.created schema.name (schema.fingerprint env.rt))) })
  | .deleting name =>
      ({ s with store := RedisSchemaStore.delete s.store name }, { t with phase := .deleted name })
  | .deleted name =>
      (s.answer (.deleted name), { t with phase := .answered (.ok (.deleted name)) })
  | .answered _ => (s, t)

/-- A handler that has not begun. -/
def SchemaTask.begin (request : SchemaRequest) : SchemaTask := ⟨request, .waiting⟩

/-- The handlers of `requests` on a process, after a schedule. -/
def serveSchemas (env : SchemaEnv) (s : SchemaWorld) (requests : List SchemaRequest)
    (schedule : List Nat) : Pool SchemaWorld SchemaTask :=
  Pool.run (SchemaTask.advance env) ⟨s, requests.map SchemaTask.begin⟩ schedule

/-! ## What the checks establish -/

theorem checkCreate_ok {env : SchemaEnv} {s : SchemaWorld} {body : List (String × Json)}
    {schema : TargetSchema} (h : checkCreate env s body = .ok schema) :
    isSchemaName schema.name = true ∧ schema.name ∉ s.registry.keys ∧
      schema.name ∉ s.definitions.keys := by
  unfold checkCreate at h
  split at h
  · cases h
  · split at h
    · cases h
    · obtain ⟨_, hname, h⟩ := bind_eq_ok.mp h
      split at h
      · cases h
      · rename_i hnew
        cases h
        exact ⟨validateSchemaName_ok hname, not_or.mp hnew⟩

theorem checkDelete_ok {s : SchemaWorld} {name : String} (h : checkDelete s name = .ok ()) :
    isSchemaName name = true ∧ name ∉ s.builtins := by
  unfold checkDelete at h
  obtain ⟨_, hname, h⟩ := bind_eq_ok.mp h
  split at h
  · cases h
  · rename_i hprotected
    exact ⟨validateSchemaName_ok hname, hprotected⟩

/-- **The first step of a handler**: it changes nothing and waits or is
refused, or it takes the lock with its checks passed. -/
theorem advance_waiting (env : SchemaEnv) (s : SchemaWorld) (request : SchemaRequest) :
    (∃ phase, (phase = .waiting ∨ ∃ e, phase = .answered (.error e)) ∧
        SchemaTask.advance env s ⟨request, .waiting⟩ = (s, ⟨request, phase⟩)) ∨
      (∃ body schema, request = .create body ∧ s.locked = false ∧
        checkCreate env s body = .ok schema ∧
        SchemaTask.advance env s ⟨request, .waiting⟩ =
          ({ s with locked := true }, ⟨request, .saving schema⟩)) ∨
      ∃ name, request = .delete name ∧ s.locked = false ∧ checkDelete s name = .ok () ∧
        SchemaTask.advance env s ⟨request, .waiting⟩ =
          ({ s.unregister name with locked := true }, ⟨request, .deleting name⟩) := by
  cases hlocked : s.locked with
  | true => exact .inl ⟨.waiting, .inl rfl, by simp [SchemaTask.advance, hlocked]⟩
  | false =>
      cases request with
      | create body =>
          cases hcheck : checkCreate env s body with
          | error e =>
              refine .inl ⟨.answered (.error e), .inr ⟨e, rfl⟩, ?_⟩
              simp [SchemaTask.advance, hlocked, hcheck]
          | ok schema =>
              refine .inr (.inl ⟨body, schema, rfl, rfl, hcheck, ?_⟩)
              simp [SchemaTask.advance, hlocked, hcheck]
      | delete name =>
          cases hcheck : checkDelete s name with
          | error e =>
              refine .inl ⟨.answered (.error e), .inr ⟨e, rfl⟩, ?_⟩
              simp [SchemaTask.advance, hlocked, hcheck]
          | ok u =>
              refine .inr (.inr ⟨name, rfl, rfl, hcheck, ?_⟩)
              simp [SchemaTask.advance, hlocked, hcheck]

/-! ## The answers -/

/-- The successful answer of a handler, once it is given. -/
def SchemaTask.success (t : SchemaTask) : Option SchemaAnswer :=
  match t.phase with
  | .answered (.ok a) => some a
  | _ => none

/-- A step gives at most one successful answer, and the log gets it. -/
theorem advance_served (env : SchemaEnv) (s : SchemaWorld) (t : SchemaTask) :
    ((t.advance env s).1.served = s.served ∧ (t.advance env s).2.success = t.success) ∨
      ∃ a, t.success = none ∧ (t.advance env s).2.success = some a ∧
        (t.advance env s).1.served = s.served ++ [a] := by
  obtain ⟨request, phase⟩ := t
  cases phase with
  | waiting =>
      rcases advance_waiting env s request with ⟨phase, hphase, heq⟩ | ⟨_, _, _, _, _, heq⟩ |
        ⟨_, _, _, _, heq⟩
      · rw [heq]
        rcases hphase with rfl | ⟨e, rfl⟩
        · exact .inl ⟨rfl, rfl⟩
        · exact .inl ⟨rfl, rfl⟩
      · rw [heq]
        exact .inl ⟨rfl, rfl⟩
      · rw [heq]
        exact .inl ⟨rfl, rfl⟩
  | saved schema => exact .inr ⟨_, rfl, rfl, rfl⟩
  | deleted name => exact .inr ⟨_, rfl, rfl, rfl⟩
  | _ => exact .inl ⟨rfl, rfl⟩

/-- The log is what the handlers answered with success, in some order. -/
def AnswersLogged (p : Pool SchemaWorld SchemaTask) : Prop :=
  p.shared.served.Perm (p.collect SchemaTask.success)

theorem answersLogged_step (env : SchemaEnv) {p : Pool SchemaWorld SchemaTask} {i : Nat}
    (h : AnswersLogged p) : AnswersLogged (p.step (SchemaTask.advance env) i) := by
  cases ht : p.tasks[i]? with
  | none => rwa [Pool.step_none _ ht]
  | some t =>
      have hshared : (p.step (SchemaTask.advance env) i).shared = (t.advance env p.shared).1 := by
        rw [Pool.step_some _ ht]
      unfold AnswersLogged at h ⊢
      rw [hshared]
      rcases advance_served env p.shared t with ⟨hserved, hsame⟩ | ⟨a, hbefore, hafter, hserved⟩
      · rw [hserved]
        exact h.trans (Pool.collect_same (SchemaTask.advance env) ht hsame).symm
      · rw [hserved]
        have hgain := Pool.collect_gain (SchemaTask.advance env) ht hbefore hafter
        exact (List.perm_append_singleton a _).trans ((h.cons a).trans hgain.symm)

/-- **Every successful answer is logged**, after every schedule. -/
theorem answersLogged_run (env : SchemaEnv) {s : SchemaWorld} (hs : s.served = [])
    (requests : List SchemaRequest) (schedule : List Nat) :
    AnswersLogged (serveSchemas env s requests schedule) := by
  have hstart : AnswersLogged ⟨s, requests.map SchemaTask.begin⟩ := by
    unfold AnswersLogged
    rw [Pool.collect_start s fun _ _ => rfl, hs]
  have hsteps : AllSteps (Pool.step (SchemaTask.advance env)) (fun _ _ => True)
      ⟨s, requests.map SchemaTask.begin⟩ schedule := allSteps_of_forall fun _ _ _ => trivial
  exact run_preserves (fun _ _ hp _ => answersLogged_step env hp) hsteps hstart

end RiskFlow
