import RiskFlow.Adapters.SessionStore
import RiskFlow.Service.RowValidation
import RiskFlow.Http.Errors
import RiskFlow.Lib.Interleaving

/-!
# Sessions — the handlers of one mapping session

Each handler as a task: it waits for the store to give it the session,
works on that copy, waits for the store to take the whole session back,
and answers. Between two of these steps any other handler may take its
own; nothing but the copy connects them.
-/

namespace RiskFlow

open Lib

/-! ## Requests -/

/-- A request that loads the session, changes it and saves it. -/
inductive SessionEdit where
  | putMappings (mappings : List ColumnMapping) (unmappedHeaders : List String)
  | patchTargetFields (fields : List String)
  | finalise

inductive SessionRequest where
  | edit (e : SessionEdit)
  | delete

/-- What the handlers were constructed with. -/
structure SessionEnv where
  rt : Runtime
  defaultService : MappingService
  registry : Dict String MappingService

/-- `_resolve_service` of a schema name. -/
def SessionEnv.resolveService (env : SessionEnv) (schemaName : String) :
    Except HttpException MappingService := do
  if Py.isBlank schemaName then pure env.defaultService
  else
    validateSchemaName schemaName
    match env.registry.get? schemaName with
    | some service => pure service
    | none => .error ⟨404, .detail "SCHEMA_NOT_FOUND"
        ("Schema '" ++ schemaName ++ "' not found. Available: " ++
          Py.reprStrs (Py.sorted env.registry.keys))
        "Use GET /schemas to list available schemas."⟩

def sessionNotFound : HttpException := ⟨404, .text "Session not found"⟩

/-! ## Between load and save -/

/-- The file is gone. -/
def Files.remove (files : Files) (path : String) : Files where
  pathExists p := p ≠ path && files.pathExists p
  readCsv p n :=
    if p = path then .error (.fileNotFoundError ("No such file: " ++ path)) else files.readCsv p n
  readExcel p sheet :=
    if p = path then .error (.fileNotFoundError ("No such file: " ++ path))
    else files.readExcel p sheet

/-- `update_session_mappings` on its copy. -/
def updateSessionMappings (rt : Runtime) (session : MappingSession) (mappings : List ColumnMapping)
    (unmappedHeaders : List String) : Except HttpException MappingSession :=
  match session.updateMappings mappings unmappedHeaders with
  | .ok session => .ok session
  | .error e => .error ⟨422, .detail "INVALID_MAPPING" (rt.strErr e)
      "Check that all target fields are valid and not duplicated."⟩

/-- `extend_target_fields` on its copy. -/
def extendSessionFields (rt : Runtime) (session : MappingSession) (fields : List String) :
    Except HttpException MappingSession :=
  match session.extendTargetFields fields with
  | .ok session => .ok session
  | .error e => .error ⟨422, .detail "INVALID_FIELDS" (rt.strErr e)
      "Provide at least one non-empty field name."⟩

/-- `finalise_session` on its copy. -/
def finaliseSession (env : SessionEnv) (files : Files) (session : MappingSession) :
    Except HttpException MappingSession := do
  if session.status = .finalised then .error ⟨409, .text "Session already finalised"⟩
  else
    let activeService ← env.resolveService session.schemaName
    -- built outside the `try`: its `ValidationError` reaches no handler
    match MappingResult.build session.mappings session.unmappedHeaders with
    | .error _ => .error unhandled
    | .ok mappingResult =>
        match validateRows env.rt activeService files session.filePath mappingResult
            session.sheetName with
        | .error e =>
            if e.isException then
              .error ⟨500, .detail "INTERNAL_ERROR" "Internal server error"
                "Contact support if the problem persists."⟩
            else .error unhandled
        | .ok result =>
            match session.finalise result.modelDump with
            | .error _ => .error unhandled
            | .ok session => .ok session

/-- What an edit makes of the loaded session. -/
def SessionEdit.apply (env : SessionEnv) (files : Files) (session : MappingSession) :
    SessionEdit → Except HttpException MappingSession
  | .putMappings mappings unmapped => updateSessionMappings env.rt session mappings unmapped
  | .patchTargetFields fields => extendSessionFields env.rt session fields
  | .finalise => finaliseSession env files session

/-! ## Handlers -/

/-- Where a handler stands. `copy` is the session it loaded; the handler
itself only keeps what it made of it. -/
inductive SessionPhase where
  | waiting
  | loaded (copy : Option MappingSession)
  | saving (copy session : MappingSession)
  | deleting
  | written (body : Option MappingSession)
  | answered (answer : Except HttpException (Option MappingSession))

/-- A handler at work on its request. -/
structure SessionTask where
  request : SessionRequest
  phase : SessionPhase

/-- What the handlers share: the session store and the files. -/
structure SessionWorld where
  store : Dict String Json
  files : Files

/-- The next step of a handler of the session `sessionId`. -/
def SessionTask.advance (env : SessionEnv) (sessionId : String) (w : SessionWorld)
    (t : SessionTask) : SessionWorld × SessionTask :=
  match t.phase with
  -- `await session_store.get`: the store answers with a copy
  | .waiting => (w, { t with phase := .loaded (RedisMappingSessionStore.get w.store sessionId) })
  | .loaded none => (w, { t with phase := .answered (.error sessionNotFound) })
  -- from here to the next await nothing else runs
  | .loaded (some copy) =>
      match t.request with
      | .edit e =>
          match e.apply env w.files copy with
          | .error err => (w, { t with phase := .answered (.error err) })
          | .ok session => (w, { t with phase := .saving copy session })
      | .delete =>
          ({ w with files := w.files.remove copy.filePath }, { t with phase := .deleting })
  -- the whole session is written, whatever the key holds by now
  | .saving _ session =>
      ({ w with store := RedisMappingSessionStore.save w.store session },
        { t with phase := .written (some session) })
  | .deleting =>
      ({ w with store := RedisMappingSessionStore.delete w.store sessionId },
        { t with phase := .written none })
  | .written body => (w, { t with phase := .answered (.ok body) })
  | .answered _ => (w, t)

/-- A handler that has not begun. -/
def SessionTask.begin (request : SessionRequest) : SessionTask := ⟨request, .waiting⟩

/-- The handlers of `requests`, with `session` in the store. -/
def sessionPool (store : Dict String Json) (files : Files) (session : MappingSession)
    (requests : List SessionRequest) : Pool SessionWorld SessionTask where
  shared := { store := RedisMappingSessionStore.save store session, files }
  tasks := requests.map SessionTask.begin

/-! ## What an edit does -/

section Edits
variable {env : SessionEnv} {files : Files} {copy session : MappingSession}

theorem updateSessionMappings_ok {mappings : List ColumnMapping} {unmapped : List String}
    (h : updateSessionMappings env.rt copy mappings unmapped = .ok session) :
    copy.updateMappings mappings unmapped = .ok session := by
  unfold updateSessionMappings at h
  split at h
  · rename_i s hs
    cases h
    exact hs
  · cases h

theorem extendSessionFields_ok {fields : List String}
    (h : extendSessionFields env.rt copy fields = .ok session) :
    copy.extendTargetFields fields = .ok session := by
  unfold extendSessionFields at h
  split at h
  · rename_i s hs
    cases h
    exact hs
  · cases h

/-- **What a successful `finalise_session` did**: it resolved a service and
kept what that made of the rows. -/
theorem finaliseSession_runs (h : finaliseSession env files copy = .ok session) :
    ∃ service mappingResult result, env.resolveService copy.schemaName = .ok service ∧
      MappingResult.build copy.mappings copy.unmappedHeaders = .ok mappingResult ∧
      validateRows env.rt service files copy.filePath mappingResult copy.sheetName = .ok result ∧
      copy.finalise result.modelDump = .ok session := by
  unfold finaliseSession at h
  split at h
  · cases h
  · obtain ⟨service, hservice, h⟩ := bind_eq_ok.mp h
    split at h
    · cases h
    · rename_i mappingResult hbuild
      split at h
      · split at h <;> cases h
      · rename_i result hrows
        split at h
        · cases h
        · rename_i s hs
          cases h
          exact ⟨service, mappingResult, result, hservice, hbuild, hrows, hs⟩

/-- What it takes to finalise a session. -/
theorem finaliseSession_of (copy : MappingSession) {service : MappingService}
    {mappingResult : MappingResult} {result : ProcessingResult} (hstatus : copy.status = .created)
    (hservice : env.resolveService copy.schemaName = .ok service)
    (hbuild : MappingResult.build copy.mappings copy.unmappedHeaders = .ok mappingResult)
    (hrows : validateRows env.rt service files copy.filePath mappingResult copy.sheetName =
      .ok result) :
    finaliseSession env files copy =
      .ok { copy with status := .finalised, result := some result.modelDump } := by
  simp [finaliseSession, MappingSession.finalise, hstatus, hservice, hbuild, hrows, bind,
    Except.bind]

theorem finaliseSession_ok (h : finaliseSession env files copy = .ok session) :
    ∃ result, copy.finalise result = .ok session := by
  obtain ⟨_, _, result, _, _, _, hfinal⟩ := finaliseSession_runs h
  exact ⟨result.modelDump, hfinal⟩

/-- An accepted edit started from a CREATED copy and keeps its identity. -/
theorem SessionEdit.apply_ok {e : SessionEdit} (h : e.apply env files copy = .ok session) :
    copy.status = .created ∧ session.id = copy.id := by
  cases e with
  | putMappings mappings unmapped =>
      obtain ⟨hs, rfl⟩ := MappingSession.updateMappings_ok (updateSessionMappings_ok h)
      exact ⟨hs, rfl⟩
  | patchTargetFields fields =>
      obtain ⟨hs, rfl⟩ := MappingSession.extendTargetFields_ok (extendSessionFields_ok h)
      exact ⟨hs, rfl⟩
  | finalise =>
      obtain ⟨result, hf⟩ := finaliseSession_ok h
      obtain ⟨hs, rfl⟩ := MappingSession.finalise_ok hf
      exact ⟨hs, rfl⟩

/-- No edit changes which schema and which file the session names. -/
theorem SessionEdit.apply_origin {e : SessionEdit} (h : e.apply env files copy = .ok session) :
    session.schemaName = copy.schemaName ∧ session.filePath = copy.filePath := by
  cases e with
  | putMappings mappings unmapped =>
      obtain ⟨_, rfl⟩ := MappingSession.updateMappings_ok (updateSessionMappings_ok h)
      exact ⟨rfl, rfl⟩
  | patchTargetFields fields =>
      obtain ⟨_, rfl⟩ := MappingSession.extendTargetFields_ok (extendSessionFields_ok h)
      exact ⟨rfl, rfl⟩
  | finalise =>
      obtain ⟨result, hf⟩ := finaliseSession_ok h
      obtain ⟨_, rfl⟩ := MappingSession.finalise_ok hf
      exact ⟨rfl, rfl⟩

theorem SessionEdit.finalise_status (h : SessionEdit.finalise.apply env files copy = .ok session) :
    session.status = .finalised := by
  obtain ⟨result, hf⟩ := finaliseSession_ok h
  obtain ⟨_, rfl⟩ := MappingSession.finalise_ok hf
  rfl

end Edits

/-! ## One session -/

/-- One service, under the name its sessions carry. -/
def standardEnv : SessionEnv where
  rt := .plain
  defaultService := { schema := defaultTargetSchema }
  registry := .ofList [("standard_reinsurance", { schema := defaultTargetSchema })]

/-- A file with the column `GWP` and no rows. -/
def gwpFiles : Files :=
  let table : DataFrame := { columns := ["GWP"], rows := [], nodup := by decide, width := by simp }
  { pathExists := fun _ => true
    readCsv := fun _ _ => .ok table
    readExcel := fun _ _ => .ok table }

/-- A session whose file is uploaded and not mapped yet. -/
def draftSession : MappingSession where
  id := "session-1"
  status := .created
  schemaName := "standard_reinsurance"
  filePath := "/tmp/riskflow_a.csv"
  sheetName := none
  sourceHeaders := ["GWP"]
  targetFields := ["Gross_Premium"]
  mappings := []
  unmappedHeaders := ["GWP"]
  previewRows := []

end RiskFlow
