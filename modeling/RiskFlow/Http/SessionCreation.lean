import RiskFlow.Http.Sessions
import RiskFlow.Http.Uploads

/-!
# SessionCreation — the route that starts a session

`create_session`: the file is kept, its headers and preview go to the
mapper of the schema's service, and the answer becomes a session as it
is. The target fields are those of the definition registered under the
session's schema name when the mapper has answered.
-/

namespace RiskFlow

open Lib MappingService

/-- A `POST /sessions` request, with the temp name it gets and the answers the
services' mappers give while it is served. -/
structure SessionUpload (σ : Type) where
  file : UploadFile
  sheetName : Option String := none
  schema : Option String := none
  temp : TempName
  mappers : σ → Mapper

section Create
variable {σ : Type}

def SessionUpload.path (u : SessionUpload σ) : String := tempPath u.temp u.file

/-- `next((name for name, svc in _registry.items() if svc is active_service), "default")`. -/
def nameOfService [DecidableEq σ] (registry : Dict String σ) (activeService : σ) : String :=
  match registry.entries.find? fun kv => kv.2 = activeService with
  | some kv => kv.1
  | none => "default"

/-- The name found is one the registry has for the service, if there is one. -/
theorem nameOfService_cases [DecidableEq σ] (registry : Dict String σ) (activeService : σ) :
    registry.get? (nameOfService registry activeService) = some activeService ∨
      nameOfService registry activeService = "default" ∧
        ∀ name, registry.get? name ≠ some activeService := by
  unfold nameOfService
  cases hfind : registry.entries.find? fun kv => kv.2 = activeService with
  | none =>
      right
      refine ⟨rfl, fun name hget => ?_⟩
      have hno := List.find?_eq_none.mp hfind _ (Dict.get?_eq_some.mp hget)
      exact hno (decide_eq_true rfl)
  | some kv =>
      left
      have hservice := List.find?_some hfind
      rw [Dict.get?_eq_some, ← of_decide_eq_true hservice]
      exact List.mem_of_find?_eq_some hfind

/-- `schema_name`. -/
def sessionSchemaName [DecidableEq σ] (router : Router σ) (schema : Option String)
    (activeService : σ) : String :=
  match schema with
  | none => nameOfService router.registry activeService
  | some name =>
      if Py.isBlank name then nameOfService router.registry activeService else name

/-- Without a schema the default service is active, under its name. -/
theorem sessionSchemaName_default [DecidableEq σ] {router : Router σ} {schema : Option String}
    {ref : σ} (hresolved : router.resolveService schema = .ok ref)
    (h : ¬ ∃ name, schema = some name ∧ Py.isBlank name = false) :
    ref = router.defaultService ∧
      sessionSchemaName router schema ref =
        nameOfService router.registry router.defaultService := by
  unfold Router.resolveService at hresolved
  unfold sessionSchemaName
  cases schema with
  | none =>
      cases hresolved
      exact ⟨rfl, rfl⟩
  | some name =>
      have hblank : Py.isBlank name = true := by
        by_contra hname
        exact h ⟨name, rfl, by simpa using hname⟩
      simp only [hblank, if_true] at hresolved ⊢
      cases hresolved
      exact ⟨rfl, rfl⟩

/-- `target_fields`. -/
def sessionTargetFields (definitions : Dict String TargetSchema) (schemaName : String) :
    List String :=
  match definitions.get? schemaName with
  | some schema => Py.sorted schema.fieldNames
  | none => []

theorem sessionTargetFields_of_get {definitions : Dict String TargetSchema} {schemaName : String}
    {schema : TargetSchema} (h : definitions.get? schemaName = some schema) :
    sessionTargetFields definitions schemaName = Py.sorted schema.fieldNames := by
  rw [sessionTargetFields, h]

/-- `MappingSession.create`, with the identifier `uuid4` gives it. -/
def newSession (id : String) (u : SessionUpload σ) (schemaName : String)
    (targetFields headers : List String) (preview : List Row) (suggestion : MappingResult) :
    MappingSession where
  id := id
  status := .created
  schemaName := schemaName
  filePath := u.path
  sheetName := u.sheetName
  sourceHeaders := headers
  targetFields := targetFields
  mappings := suggestion.mappings
  unmappedHeaders := suggestion.unmappedHeaders
  previewRows := preview

/-- The `except` clauses of `create_session`. -/
def createSessionError (rt : Runtime) (e : PyErr) : HttpException :=
  match e with
  | .invalidCedentDataError _ | .validationError _ | .valueError _ =>
      ⟨400, .detail "INVALID_DATA" (rt.strErr e)
        "Ensure the file is a valid CSV or Excel spreadsheet with headers in the first row."⟩
  | .slmUnavailableError _ => ⟨503, .detail "SLM_UNAVAILABLE" (rt.strErr e)
      "The mapping service is temporarily unavailable. Retry in a few seconds."⟩
  | .baseException _ => unhandled
  | _ => ⟨500, .detail "INTERNAL_ERROR" "Internal server error"
      "Contact support if the problem persists."⟩

/-- The headers, the preview and the suggestion for them. -/
def suggest (rt : Runtime) (files : Files) (u : SessionUpload σ) (mapper : Mapper) :
    Except PyErr (List String × List Row × MappingResult) := do
  let (headers, preview) ← ingest rt files u.path u.sheetName
  -- `suggest_mapping`: no cache and no confidence check
  let suggestion ← mapper headers preview
  pure (headers, preview, suggestion)

/-- `create_session`. A failure removes the temp file, unless it is no `Exception`. -/
def createSession [DecidableEq σ] (router : Router σ) (id : String) (w : SessionWorld)
    (u : SessionUpload σ) : Except HttpException MappingSession × SessionWorld :=
  match validateFile router.rt u.file with
  | .error e => (.error e, w)
  | .ok () =>
      match router.resolveService u.schema with
      | .error e => (.error e, w)
      | .ok activeService =>
          let schemaName := sessionSchemaName router u.schema activeService
          let files := saveTempFile w.files u.path u.file
          match suggest router.rt files u (u.mappers activeService) with
          | .error e =>
              (.error (createSessionError router.rt e),
                { w with files := if e.isException then files.remove u.path else files })
          | .ok (headers, preview, suggestion) =>
              let session := newSession id u schemaName
                (sessionTargetFields router.definitions schemaName) headers preview suggestion
              (.ok session, { store := RedisMappingSessionStore.save w.store session, files })

/-- The router as the session routes see it. -/
def Router.sessionEnv (router : Router σ) : SessionEnv where
  rt := router.rt
  defaultService := router.service router.defaultService
  registry := router.registry.mapValues router.service

variable {router : Router σ}

/-- The session routes resolve a name as every route does. -/
theorem sessionEnv_resolves {name : String} {ref : σ}
    (h : router.resolveService (some name) = .ok ref) :
    router.sessionEnv.resolveService name = .ok (router.service ref) := by
  unfold Router.resolveService at h
  unfold SessionEnv.resolveService
  by_cases hblank : Py.isBlank name = true
  · simp only [hblank, if_true] at h ⊢
    cases h
    rfl
  · simp only [hblank] at h ⊢
    obtain ⟨_, hname, h⟩ := bind_eq_ok.mp h
    rw [hname]
    cases hget : router.registry.get? name with
    | none =>
        rw [hget] at h
        cases h
    | some ref' =>
        rw [hget] at h
        cases h
        have hservice : router.sessionEnv.registry.get? name = some (router.service ref) := by
          simp [Router.sessionEnv, Dict.get?_mapValues, hget]
        rw [hservice]
        rfl

theorem suggest_ok {rt : Runtime} {files : Files} {u : SessionUpload σ} {mapper : Mapper}
    {headers : List String} {preview : List Row} {suggestion : MappingResult}
    (h : suggest rt files u mapper = .ok (headers, preview, suggestion)) :
    ingest rt files u.path u.sheetName = .ok (headers, preview) ∧
      mapper headers preview = .ok suggestion := by
  obtain ⟨⟨headers', preview'⟩, hin, h⟩ := bind_eq_ok.mp h
  obtain ⟨suggestion', hmapper, h⟩ := bind_eq_ok.mp h
  cases h
  exact ⟨hin, hmapper⟩

section Suggest
variable {rt : Runtime} {files : Files} {u : SessionUpload σ} (mapper : Mapper)
variable {headers : List String} {preview : List Row}

/-- A file that is not read is not mapped. -/
theorem suggest_unread {e : PyErr} (h : ingest rt files u.path u.sheetName = .error e) :
    suggest rt files u mapper = .error e := by
  rw [suggest, h]
  rfl

/-- A file that is read gets what the mapper says. -/
theorem suggest_read (h : ingest rt files u.path u.sheetName = .ok (headers, preview)) :
    suggest rt files u mapper =
      (mapper headers preview).map fun suggestion => (headers, preview, suggestion) := by
  rw [suggest, h]
  cases hmapper : mapper headers preview <;> simp only [hmapper, bind, Except.bind] <;> rfl

end Suggest

variable [DecidableEq σ]

/-- **What a created session is**, and what the store and the files hold then. -/
theorem createSession_ok {id : String} {w : SessionWorld} {u : SessionUpload σ}
    {session : MappingSession} (h : (createSession router id w u).1 = .ok session) :
    ∃ ref headers preview suggestion, validateFile router.rt u.file = .ok () ∧
      router.resolveService u.schema = .ok ref ∧
      suggest router.rt (saveTempFile w.files u.path u.file) u (u.mappers ref) =
        .ok (headers, preview, suggestion) ∧
      session = newSession id u (sessionSchemaName router u.schema ref)
        (sessionTargetFields router.definitions (sessionSchemaName router u.schema ref))
        headers preview suggestion ∧
      (createSession router id w u).2 =
        { store := RedisMappingSessionStore.save w.store session
          files := saveTempFile w.files u.path u.file } := by
  unfold createSession at h
  cases hvalid : validateFile router.rt u.file with
  | error e =>
      rw [hvalid] at h
      cases h
  | ok v =>
      cases hresolved : router.resolveService u.schema with
      | error e =>
          rw [hvalid, hresolved] at h
          cases h
      | ok ref =>
          simp only [hvalid, hresolved] at h
          cases hsuggest : suggest router.rt (saveTempFile w.files u.path u.file) u
              (u.mappers ref) with
          | error e =>
              rw [hsuggest] at h
              cases h
          | ok r =>
              obtain ⟨headers, preview, suggestion⟩ := r
              rw [hsuggest] at h
              cases h
              refine ⟨ref, headers, preview, suggestion, rfl, rfl, hsuggest, rfl, ?_⟩
              simp only [createSession, hvalid, hresolved, hsuggest]

/-- A file that passes its checks, resolved and mapped, becomes a session. -/
theorem createSession_of (id : String) (w : SessionWorld) (u : SessionUpload σ) {ref : σ}
    {headers : List String} {preview : List Row} {suggestion : MappingResult}
    (hvalid : validateFile router.rt u.file = .ok ())
    (hresolved : router.resolveService u.schema = .ok ref)
    (hsuggest : suggest router.rt (saveTempFile w.files u.path u.file) u (u.mappers ref) =
      .ok (headers, preview, suggestion)) :
    (createSession router id w u).1 = .ok (newSession id u (sessionSchemaName router u.schema ref)
        (sessionTargetFields router.definitions (sessionSchemaName router u.schema ref))
        headers preview suggestion) ∧
      (createSession router id w u).2.files = saveTempFile w.files u.path u.file := by
  simp [createSession, hvalid, hresolved, hsuggest]

/-- The store holds the created session in its stored form. -/
theorem createSession_get {id : String} {w : SessionWorld} {u : SessionUpload σ}
    {session : MappingSession} (h : (createSession router id w u).1 = .ok session) :
    RedisMappingSessionStore.get (createSession router id w u).2.store session.id =
      some session.stored := by
  obtain ⟨_, _, _, _, _, _, _, _, hworld⟩ := createSession_ok h
  rw [hworld]
  exact RedisMappingSessionStore.get_save w.store session

end Create

end RiskFlow
