import RiskFlow.Http.SessionCreation
import RiskFlow.Http.SessionEdits

/-!
# SessionShape — which sessions can be reached

The edits of a session check the targets they are given, the creation
takes the mapper's answer as it is. So every session reached from a
creation is well formed exactly when the mapper named fields of the
session only.
-/

namespace RiskFlow

open Lib MappingService

/-- A session of the shape its operations expect. -/
structure MappingSession.WellFormed (s : MappingSession) : Prop where
  targets_nodup : (s.mappings.map ColumnMapping.targetField).Nodup
  targets_known : ∀ m ∈ s.mappings, m.targetField ∈ s.targetFields
  fields_nodup : s.targetFields.Nodup
  result_iff : s.result ≠ none ↔ s.status = .finalised

namespace MappingSession
variable {s s' : MappingSession}

/-- The stored form of a session has its shape. -/
theorem wellFormed_stored : s.stored.WellFormed ↔ s.WellFormed := by
  have hresult : s.stored.result ≠ none ↔ s.result ≠ none := by simp [stored]
  constructor
  · intro h
    exact ⟨h.targets_nodup, h.targets_known, h.fields_nodup, hresult.symm.trans h.result_iff⟩
  · intro h
    exact ⟨h.targets_nodup, h.targets_known, h.fields_nodup, hresult.trans h.result_iff⟩

end MappingSession

/-- **One edit** keeps the shape. -/
theorem wellFormed_apply {env : SessionEnv} {files : Files} {copy session : MappingSession}
    {e : SessionEdit} (hcopy : copy.WellFormed) (h : e.apply env files copy = .ok session) :
    session.WellFormed := by
  cases e with
  | putMappings mappings unmapped =>
      obtain ⟨_, hknown, hnodup, rfl⟩ :=
        MappingSession.updateMappings_passed (updateSessionMappings_ok h)
      exact ⟨hnodup, hknown, hcopy.fields_nodup, hcopy.result_iff⟩
  | patchTargetFields fields =>
      obtain ⟨_, rfl⟩ := MappingSession.extendTargetFields_ok (extendSessionFields_ok h)
      exact ⟨hcopy.targets_nodup,
        fun m hm => MappingSession.mem_appendFields.mpr (.inl (hcopy.targets_known m hm)),
        MappingSession.appendFields_nodup fields hcopy.fields_nodup, hcopy.result_iff⟩
  | finalise =>
      obtain ⟨result, hfinal⟩ := finaliseSession_ok h
      obtain ⟨_, rfl⟩ := MappingSession.finalise_ok hfinal
      exact ⟨hcopy.targets_nodup, hcopy.targets_known, hcopy.fields_nodup, by simp⟩

/-! ## Runs -/

section Runs
variable {env : SessionEnv} {sessionId : String} {w : SessionWorld}

/-- The store after edits run one after the other. -/
def afterEdits (env : SessionEnv) (sessionId : String) (w : SessionWorld)
    (edits : List SessionEdit) :
    SessionWorld :=
  (edits.map SessionRequest.edit).foldl (afterAlone env sessionId) w

/-- An edit run alone changes nothing, or saves what it made of the session. -/
theorem afterAlone_edit_cases (env : SessionEnv) (sessionId : String) (w : SessionWorld)
    (e : SessionEdit) :
    afterAlone env sessionId w (.edit e) = w ∨
      ∃ stored session, RedisMappingSessionStore.get w.store sessionId = some stored ∧
        e.apply env w.files stored = .ok session ∧
        afterAlone env sessionId w (.edit e) =
          { w with store := RedisMappingSessionStore.save w.store session } := by
  cases hget : RedisMappingSessionStore.get w.store sessionId with
  | none =>
      left
      simp [afterAlone, serveAlone, SessionTask.begin, SessionTask.advance, hget]
  | some stored =>
      cases happly : e.apply env w.files stored with
      | error err =>
          left
          simp [afterAlone, serveAlone, SessionTask.begin, SessionTask.advance, hget, happly]
      | ok session =>
          right
          exact ⟨stored, session, rfl, happly, (alone_edit hget happly).1⟩

/-- What is stored under the identifier is a session of it with this property. -/
def StoredHas (P : MappingSession → Prop) (sessionId : String) (w : SessionWorld) : Prop :=
  ∀ session, RedisMappingSessionStore.get w.store sessionId = some session →
    session.id = sessionId ∧ P session

theorem storedHas_edit {P : MappingSession → Prop} (hstored : ∀ s, P s → P s.stored)
    (h : StoredHas P sessionId w) {e : SessionEdit}
    (hstep : ∀ files copy session, P copy → e.apply env files copy = .ok session → P session) :
    StoredHas P sessionId (afterAlone env sessionId w (.edit e)) := by
  rcases afterAlone_edit_cases env sessionId w e with
    hsame | ⟨stored, session, hget, happly, hsaved⟩
  · rw [hsame]
    exact h
  · rw [hsaved]
    obtain ⟨hid, hP⟩ := h stored hget
    have hid' : session.id = sessionId := (SessionEdit.apply_ok happly).2.trans hid
    intro s hs
    rw [get_save_keyed hid'] at hs
    cases hs
    exact ⟨hid', hstored session (hstep _ stored session hP happly)⟩

/-- What every edit of a run keeps, the stored session has in each state of it. -/
theorem storedHas_run {P : MappingSession → Prop} (hstored : ∀ s, P s → P s.stored)
    (h : StoredHas P sessionId w) {edits : List SessionEdit}
    (hstep : ∀ e ∈ edits, ∀ files copy session, P copy → e.apply env files copy = .ok session →
      P session) :
    StoredHas P sessionId (afterEdits env sessionId w edits) := by
  induction edits generalizing w with
  | nil => exact h
  | cons e rest ih =>
      exact ih (storedHas_edit hstored h (hstep e (by simp))) fun e' he' => hstep e' (by simp [he'])

/-- What is stored under the identifier is a well-formed session of it. -/
def StoredWellFormed (sessionId : String) (w : SessionWorld) : Prop :=
  ∀ session, RedisMappingSessionStore.get w.store sessionId = some session →
    session.id = sessionId ∧ session.WellFormed

/-- **Every run of edits** keeps the shape. -/
theorem storedWellFormed_run (h : StoredWellFormed sessionId w) (edits : List SessionEdit) :
    StoredWellFormed sessionId (afterEdits env sessionId w edits) := by
  have hstored : ∀ s : MappingSession, s.WellFormed → s.stored.WellFormed :=
    fun _ => MappingSession.wellFormed_stored.mpr
  exact storedHas_run hstored h fun _ _ _ _ _ hcopy happly => wellFormed_apply hcopy happly

end Runs

/-! ## From the creation on -/

section Created
variable {σ : Type} [DecidableEq σ] {router : Router σ} {id : String} {w : SessionWorld}
variable {u : SessionUpload σ} {session : MappingSession}

/-- The mapper maps the file to fields of the session's schema only. -/
def SuggestsOwnFields (router : Router σ) (w : SessionWorld) (u : SessionUpload σ) : Prop :=
  ∀ ref headers preview suggestion, router.resolveService u.schema = .ok ref →
    ingest router.rt (saveTempFile w.files u.path u.file) u.path u.sheetName =
      .ok (headers, preview) →
    u.mappers ref headers preview = .ok suggestion →
    ∀ m ∈ suggestion.mappings,
      m.targetField ∈ sessionTargetFields router.definitions (sessionSchemaName router u.schema ref)

theorem sessionTargetFields_nodup (definitions : Dict String TargetSchema) (schemaName : String) :
    (sessionTargetFields definitions schemaName).Nodup := by
  unfold sessionTargetFields
  cases definitions.get? schemaName with
  | none => exact List.nodup_nil
  | some schema => exact (Py.sorted_perm schema.fieldNames).nodup_iff.mpr schema.fields.nodup

/-- A created session lacks at most the check of its targets. -/
theorem created_wellFormed_iff (h : (createSession router id w u).1 = .ok session) :
    session.WellFormed ↔ SuggestsOwnFields router w u := by
  obtain ⟨ref, headers, preview, suggestion, _, hresolved, hsuggest, rfl, _⟩ := createSession_ok h
  obtain ⟨hin, hmapper⟩ := suggest_ok hsuggest
  constructor
  · intro hshape ref' headers' preview' suggestion' hresolved' hin' hmapper'
    cases hresolved.symm.trans hresolved'
    cases hin.symm.trans hin'
    cases hmapper.symm.trans hmapper'
    exact hshape.targets_known
  · intro hown
    refine ⟨suggestion.noDuplicateTargetFields, ?_, sessionTargetFields_nodup _ _, ?_⟩
    · exact hown ref headers preview suggestion hresolved hin hmapper
    · simp [newSession]

/-- **Which sessions are well formed in every state reached.** From any
store, the session created and then edited in any order is well formed
throughout exactly if its mapper named fields of its schema only. -/
theorem reached_wellFormed_iff (h : (createSession router id w u).1 = .ok session) :
    (∀ edits stored,
        RedisMappingSessionStore.get
            (afterEdits router.sessionEnv session.id (createSession router id w u).2 edits).store
            session.id = some stored →
          stored.WellFormed) ↔
      SuggestsOwnFields router w u := by
  rw [← created_wellFormed_iff h]
  constructor
  · intro hreached
    exact MappingSession.wellFormed_stored.mp (hreached [] _ (createSession_get h))
  · intro hshape edits stored hget
    have hstart : StoredWellFormed session.id (createSession router id w u).2 := by
      intro s hs
      rw [createSession_get h] at hs
      cases hs
      exact ⟨rfl, MappingSession.wellFormed_stored.mpr hshape⟩
    exact (storedWellFormed_run hstart edits stored hget).2

end Created

/-! ### A mapper with a field of its own -/

/-- The upload of `grossFile` for the premiums, with the mapper's answer. -/
def grossSession (target : String) : SessionUpload String where
  file := grossFile
  temp := someTemp
  mappers := fun _ _ _ =>
    .ok ⟨[⟨"GWP", target, 1, ColumnMapping.certain⟩], [], List.nodup_singleton _⟩

def emptySessions : SessionWorld := ⟨.empty, noDisk⟩

/-- A mapper that names a premium field starts a session that keeps its shape. -/
theorem own_field_well_formed :
    ∃ session,
      (createSession bookRouter "5d1f" emptySessions (grossSession "Gross_Premium")).1 =
        .ok session ∧
      ∀ edits stored,
        RedisMappingSessionStore.get
            (afterEdits bookRouter.sessionEnv session.id
              (createSession bookRouter "5d1f" emptySessions (grossSession "Gross_Premium")).2
              edits).store
            session.id = some stored →
          stored.WellFormed := by
  refine ⟨_, rfl, (reached_wellFormed_iff rfl).mpr ?_⟩
  intro ref headers preview suggestion hresolved _ hmapper m hm
  cases hresolved
  cases hmapper
  cases List.mem_singleton.mp hm
  exact Py.mem_sorted.mpr (by decide)

/-- A mapper that names a field of its own starts one that never had it. -/
theorem foreign_field_ill_formed :
    ∃ session stored,
      (createSession bookRouter "5d1f" emptySessions (grossSession "Deductible")).1 = .ok session ∧
      RedisMappingSessionStore.get
          (createSession bookRouter "5d1f" emptySessions (grossSession "Deductible")).2.store
          session.id = some stored ∧
      ¬ ∀ m ∈ stored.mappings, m.targetField ∈ stored.targetFields := by
  refine ⟨_, _, rfl, createSession_get rfl, ?_⟩
  intro hknown
  have hfield := hknown ⟨"GWP", "Deductible", 1, ColumnMapping.certain⟩ (List.mem_singleton.mpr rfl)
  exact absurd (Py.mem_sorted.mp hfield) (by decide)

end RiskFlow
