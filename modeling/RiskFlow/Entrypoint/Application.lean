import RiskFlow.Entrypoint.Main
import RiskFlow.Http.SchemaCreation
import RiskFlow.Http.SessionCreation

/-!
# Application — schema and session handlers on one process

The handlers of the runtime schemas and those of the mapping sessions
share the registry of services and take turns on it. Here they are tasks
of one pool, on the state `create_app` starts with.
-/

namespace RiskFlow

open Lib MappingService

/-! ## Services -/

/-- `_make_service`. -/
def makeService (schema : TargetSchema) : MappingService := { schema }

theorem loadAllSchemas_nonempty (files : SchemaFiles) : (loadAllSchemas files).entries ≠ [] := by
  have hset : ∀ (d : Dict String TargetSchema) (schema : TargetSchema),
      (addSchema d schema).entries ≠ [] := by
    intro d schema hnil
    have hget : (addSchema d schema).get? schema.name = some schema := by simp [addSchema]
    have hmem := Dict.get?_eq_some.mp hget
    rw [hnil] at hmem
    cases hmem
  unfold loadAllSchemas
  split
  · exact hset _ _
  · split
    · exact hset _ _
    · rename_i hfiles
      rcases List.eq_nil_or_concat files.directory with hnil | ⟨front, last, hlast⟩
      · rw [hnil] at hfiles
        exact absurd rfl hfiles
      · rw [hlast, List.concat_eq_append, List.foldl_append]
        exact hset _ _

/-- `next(iter(schemas.values()))`. -/
def firstSchema (files : SchemaFiles) : TargetSchema :=
  ((loadAllSchemas files).entries.head (loadAllSchemas_nonempty files)).2

/-- `default_schema`. -/
def defaultSchema (files : SchemaFiles) (defaultName : String) : TargetSchema :=
  ((loadAllSchemas files).get? defaultName).getD (firstSchema files)

/-- What a process is started with. `uuid` lists what `uuid4` answers, one
call after the other. -/
structure AppEnv where
  rt : Runtime
  strErr : Json → ValidationFailure → String
  raises : TargetSchema → Option PyErr
  files : SchemaFiles
  defaultName : String := "standard_reinsurance"
  uuid : Nat → String
  uuidInjective : Function.Injective uuid

namespace AppEnv

/-- What the schema handlers get. -/
def factoryEnv (env : AppEnv) : FactoryEnv where
  rt := env.rt
  makeService := makeService
  strErr := env.strErr
  raises := env.raises

/-- `mapping_service`: the entry of the default schema. -/
def mappingService (env : AppEnv) : MappingService :=
  let registry := (loadAllSchemas env.files).entries.foldl (addService env.factoryEnv.toSchemaEnv) ∅
  (registry.get? (defaultSchema env.files env.defaultName).name).getD
    (makeService (firstSchema env.files))

end AppEnv

/-! ## The shared state -/

/-- What the history knows of a session: its schema name and target fields at
its creation, and the schema registered last under the name since then. -/
structure Capture where
  schemaName : String
  targetFields : List String
  since : Option TargetSchema := none

/-- What the handlers share, and the captures, which no handler reads. `drawn`
counts the identifiers given. -/
structure AppWorld where
  schemas : SchemaWorld
  sessions : SessionWorld
  drawn : Nat := 0
  captured : Dict String Capture := ∅

namespace AppWorld

/-- The router on the schemas registered now. A service stands for itself:
the schemas of two names are different, so `is` is equality on the values. -/
def router (env : AppEnv) (w : AppWorld) : Router MappingService where
  rt := env.rt
  service := id
  defaultService := env.mappingService
  registry := w.schemas.registry
  definitions := w.schemas.definitions

@[simp] theorem router_rt (env : AppEnv) (w : AppWorld) : (w.router env).rt = env.rt := rfl

@[simp] theorem router_definitions (env : AppEnv) (w : AppWorld) :
    (w.router env).definitions = w.schemas.definitions := rfl

/-- The session just created is noted. -/
def capture (w : AppWorld) (session : MappingSession) : AppWorld :=
  { w with
    drawn := w.drawn + 1
    captured := w.captured.set session.id ⟨session.schemaName, session.targetFields, none⟩ }

/-- The schema just registered is noted with the sessions of its name. -/
def noteRegistered (w : AppWorld) : Option TargetSchema → AppWorld
  | none => w
  | some schema =>
      { w with
        captured := w.captured.mapValues fun c =>
          if c.schemaName = schema.name then { c with since := some schema } else c }

end AppWorld

/-! ## Handlers -/

/-- Where `create_session` stands: before its first await, at the mapper, at
the store, or done. -/
inductive CreatePhase where
  | waiting
  | asked (activeService : MappingService) (schemaName : String) (headers : List String)
      (preview : List Row)
  | saving (session : MappingSession)
  | written (session : MappingSession)
  | answered (answer : Except HttpException MappingSession)

structure CreateTask where
  upload : SessionUpload MappingService
  phase : CreatePhase

/-- An `except` clause of `create_session`. -/
def CreateTask.fail (env : AppEnv) (w : AppWorld) (t : CreateTask) (files : Files) (e : PyErr) :
    AppWorld × CreateTask :=
  ({ w with
      sessions.files := if e.isException then files.remove t.upload.path else files },
    { t with phase := .answered (.error (createSessionError env.rt e)) })

/-- The next step of `create_session`. -/
def CreateTask.advance (env : AppEnv) (w : AppWorld) (t : CreateTask) : AppWorld × CreateTask :=
  let u := t.upload
  match t.phase with
  -- everything up to the await of the mapper
  | .waiting =>
      match validateFile env.rt u.file with
      | .error e => (w, { t with phase := .answered (.error e) })
      | .ok () =>
          match (w.router env).resolveService u.schema with
          | .error e => (w, { t with phase := .answered (.error e) })
          | .ok activeService =>
              let schemaName := sessionSchemaName (w.router env) u.schema activeService
              let files := saveTempFile w.sessions.files u.path u.file
              match ingest env.rt files u.path u.sheetName with
              | .error e => t.fail env w files e
              | .ok (headers, preview) =>
                  ({ w with sessions.files := files },
                    { t with phase := .asked activeService schemaName headers preview })
  -- the mapper has answered: the definition of the name is looked up only now
  | .asked activeService schemaName headers preview =>
      match u.mappers activeService headers preview with
      | .error e => t.fail env w w.sessions.files e
      | .ok suggestion =>
          let session := newSession (env.uuid w.drawn) u schemaName
            (sessionTargetFields w.schemas.definitions schemaName) headers preview suggestion
          (w.capture session, { t with phase := .saving session })
  | .saving session =>
      ({ w with sessions.store := RedisMappingSessionStore.save w.sessions.store session },
        { t with phase := .written session })
  | .written session => (w, { t with phase := .answered (.ok session) })
  | .answered _ => (w, t)

/-- A handler of one session, and the service `finalise_session` resolved. -/
structure SessionHandler where
  sessionId : String
  task : SessionTask
  used : Option MappingService := none

/-- The service the next step of the handler resolves, or the one it has. -/
def SessionHandler.resolves (env : AppEnv) (w : AppWorld) (h : SessionHandler) :
    Option MappingService :=
  match h.task.phase, h.task.request with
  | .loaded (some copy), .edit .finalise =>
      ((w.router env).sessionEnv.resolveService copy.schemaName).toOption
  | _, _ => h.used

/-- The next step of a session's handler, with the services registered now. -/
def SessionHandler.advance (env : AppEnv) (w : AppWorld) (h : SessionHandler) :
    AppWorld × SessionHandler :=
  let r := h.task.advance (w.router env).sessionEnv h.sessionId w.sessions
  ({ w with sessions := r.1 }, { h with task := r.2, used := h.resolves env w })

/-- The schema the next step of a schema handler registers. -/
def SchemaTask.registers (env : FactoryEnv) (t : SchemaTask) : Option TargetSchema :=
  match t.phase with
  | .saved schema =>
      match env.factory schema with
      | .error _ => none
      | .ok _ => some schema
  | _ => none

inductive AppTask where
  | schema (t : SchemaTask)
  | create (t : CreateTask)
  | session (h : SessionHandler)

/-- The next step of any handler. -/
def AppTask.advance (env : AppEnv) (w : AppWorld) : AppTask → AppWorld × AppTask
  | .schema t =>
      let r := t.advanceFactory env.factoryEnv w.schemas
      ({ w with schemas := r.1 }.noteRegistered (t.registers env.factoryEnv), .schema r.2)
  | .create t => ((t.advance env w).1, .create (t.advance env w).2)
  | .session h => ((h.advance env w).1, .session (h.advance env w).2)

inductive AppRequest where
  | schema (request : SchemaRequest)
  | create (upload : SessionUpload MappingService)
  | session (sessionId : String) (request : SessionRequest)

def AppTask.begin : AppRequest → AppTask
  | .schema request => .schema (.begin request)
  | .create upload => .create ⟨upload, .waiting⟩
  | .session sessionId request => .session ⟨sessionId, .begin request, none⟩

/-- The state after `create_app`, on a Redis with these documents. -/
def startApp (env : AppEnv) (store : Dict String Json) (pages : List (List String))
    (sessions : SessionWorld) : AppWorld where
  schemas := createApp env.factoryEnv.toSchemaEnv env.files store pages
  sessions := sessions

/-- The handlers of `requests` on a process, after a schedule. -/
def serveApp (env : AppEnv) (w : AppWorld) (requests : List AppRequest) (schedule : List Nat) :
    Pool AppWorld AppTask :=
  Pool.run (AppTask.advance env) ⟨w, requests.map AppTask.begin⟩ schedule

/-! ## A creation alone -/

/-- **A creation that no other handler interrupts** leaves what
`createSession` says, and answers it. -/
theorem createSession_alone (env : AppEnv) (w : AppWorld) (u : SessionUpload MappingService) :
    ∃ p, serveApp env w [.create u] [0, 0, 0, 0] = p ∧
      p.shared.sessions =
        (createSession (w.router env) (env.uuid w.drawn) w.sessions u).2 ∧
      p.tasks = [.create ⟨u,
        .answered (createSession (w.router env) (env.uuid w.drawn) w.sessions u).1⟩] := by
  refine ⟨_, rfl, ?_⟩
  cases hvalid : validateFile env.rt u.file with
  | error e =>
      simp [serveApp, AppTask.begin, AppTask.advance, CreateTask.advance, createSession, hvalid]
  | ok v =>
      cases hresolved : (w.router env).resolveService u.schema with
      | error e =>
          simp [serveApp, AppTask.begin, AppTask.advance, CreateTask.advance, createSession, hvalid,
            hresolved]
      | ok activeService =>
          cases hin : ingest env.rt (saveTempFile w.sessions.files u.path u.file) u.path
              u.sheetName with
          | error e =>
              have hsuggest := suggest_unread (u.mappers activeService) hin
              simp [serveApp, AppTask.begin, AppTask.advance, CreateTask.advance, CreateTask.fail,
                createSession, hvalid, hresolved, hin, hsuggest]
          | ok r =>
              obtain ⟨headers, preview⟩ := r
              have hsuggest := suggest_read (u.mappers activeService) hin
              cases hmapper : u.mappers activeService headers preview with
              | error e =>
                  simp [serveApp, AppTask.begin, AppTask.advance, CreateTask.advance,
                    CreateTask.fail, createSession, hvalid, hresolved, hin, hsuggest, hmapper,
                    Except.map]
              | ok suggestion =>
                  simp [serveApp, AppTask.begin, AppTask.advance, CreateTask.advance,
                    AppWorld.capture, createSession, hvalid, hresolved, hin, hsuggest, hmapper,
                    Except.map]

end RiskFlow
