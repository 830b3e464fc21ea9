import RiskFlow.Entrypoint.Application

/-!
# SessionSchemas — the schema a session is finalised against

A session keeps the name of its schema and a copy of its field names, and
`finalise_session` looks the name up again. What the invariant says of a
session is about its capture: the schema registered under its name is the
captured one, unless one was registered since.
-/

namespace RiskFlow

open Lib MappingService

/-- The two lists have the same members. -/
def SameFields (fields fields' : List String) : Prop := ∀ f, f ∈ fields ↔ f ∈ fields'

theorem sameFields_sorted (fields : List String) : SameFields fields (Py.sorted fields) :=
  fun _ => Py.mem_sorted.symm

/-! ## Assertions -/

section Assertions
variable (env : AppEnv) (w : AppWorld)

/-- The identifier is none of those still to be given. -/
def AppWorld.Given (sessionId : String) : Prop :=
  ∀ k, w.drawn ≤ k → env.uuid k ≠ sessionId

/-- A copy of the session fits what is noted of it. -/
structure AppWorld.Fits (sessionId : String) (copy : MappingSession) : Prop where
  id : copy.id = sessionId
  given : w.Given env sessionId
  schemaName : ∀ c, w.captured.get? sessionId = some c → copy.schemaName = c.schemaName

/-- What the schemas are to a capture. -/
structure Capture.Current (s : SchemaWorld) (c : Capture) : Prop where
  registered : ∀ schema, s.definitions.get? c.schemaName = some schema →
    (c.since = none ∧ SameFields schema.fieldNames c.targetFields) ∨ c.since = some schema
  blank : Py.isBlank c.schemaName = true →
    SameFields env.mappingService.schema.fieldNames c.targetFields

/-- What holds of the shared state at every moment. -/
structure AppWorld.Consistent : Prop where
  services : ∀ n, w.schemas.registry.get? n = (w.schemas.definitions.get? n).map makeService
  stored : ∀ key session, RedisMappingSessionStore.get w.sessions.store key = some session →
    w.Fits env key session
  captures : ∀ id c, w.captured.get? id = some c → c.Current env w.schemas

/-- The service used has the fields noted at the session's creation. -/
structure AppWorld.UsedOwn (sessionId : String) (used : Option MappingService) : Prop where
  given : w.Given env sessionId
  fields : ∃ service, used = some service ∧ ∀ c, w.captured.get? sessionId = some c →
    SameFields service.schema.fieldNames c.targetFields

/-- A schema handler at the store has checked the name. -/
def SchemaTask.Named (t : SchemaTask) : Prop :=
  match t.phase with
  | .saving schema | .saved schema => isSchemaName schema.name = true
  | _ => True

/-- A blank schema name is that of the default service. -/
def CreateTask.Sound (t : CreateTask) : Prop :=
  match t.phase with
  | .asked _ schemaName _ _ => Py.isBlank schemaName = true →
      ∃ schema, w.schemas.definitions.get? schemaName = some schema ∧
        makeService schema = env.mappingService
  | .saving session => w.Fits env session.id session
  | _ => True

def SessionHandler.Sound (h : SessionHandler) : Prop :=
  match h.task.phase with
  | .loaded (some copy) => w.Fits env h.sessionId copy
  | .saving _ session => w.Fits env h.sessionId session ∧
      (h.task.request = .edit .finalise → w.UsedOwn env h.sessionId h.used)
  | .deleting => h.task.request = .delete
  | .written _ | .answered (.ok _) =>
      h.task.request = .edit .finalise → w.UsedOwn env h.sessionId h.used
  | _ => True

/-- What a handler knows between two of its steps. -/
def AppTask.Sound : AppTask → Prop
  | .schema t => t.Named
  | .create t => t.Sound env w
  | .session h => h.Sound env w

end Assertions

/-! ## What the steps of others leave -/

/-- What a step may change of what the assertions are about: identifiers are
used up, the captures of the given ones are kept, blank names are left alone. -/
structure AppWorld.Follows (env : AppEnv) (w w' : AppWorld) : Prop where
  drawn : w.drawn ≤ w'.drawn
  captured : ∀ id c', w.Given env id → w'.captured.get? id = some c' →
    ∃ c, w.captured.get? id = some c ∧ c'.schemaName = c.schemaName ∧
      c'.targetFields = c.targetFields
  blank : ∀ n, Py.isBlank n = true →
    w'.schemas.definitions.get? n = w.schemas.definitions.get? n

section Follows
variable {env : AppEnv} {w w' : AppWorld}

/-- A step that touches neither identifiers nor definitions. -/
theorem follows_of_same (hdrawn : w'.drawn = w.drawn) (hcaptured : w'.captured = w.captured)
    (hdefinitions : w'.schemas.definitions = w.schemas.definitions) : w.Follows env w' where
  drawn := hdrawn.ge
  captured id c' _ hget := ⟨c', hcaptured ▸ hget, rfl, rfl⟩
  blank n _ := by rw [hdefinitions]

theorem given_mono (h : w.Follows env w') {sessionId : String} (hg : w.Given env sessionId) :
    w'.Given env sessionId :=
  fun k hk => hg k (h.drawn.trans hk)

theorem fits_mono (h : w.Follows env w') {sessionId : String} {copy : MappingSession}
    (hf : w.Fits env sessionId copy) : w'.Fits env sessionId copy := by
  refine ⟨hf.id, given_mono h hf.given, ?_⟩
  intro c' hget
  obtain ⟨c, hc, hname, _⟩ := h.captured sessionId c' hf.given hget
  rw [hname]
  exact hf.schemaName c hc

theorem usedOwn_mono (h : w.Follows env w') {sessionId : String} {used : Option MappingService}
    (hu : w.UsedOwn env sessionId used) : w'.UsedOwn env sessionId used := by
  obtain ⟨service, hused, hfields⟩ := hu.fields
  refine ⟨given_mono h hu.given, service, hused, ?_⟩
  intro c' hget
  obtain ⟨c, hc, _, hsame⟩ := h.captured sessionId c' hu.given hget
  rw [hsame]
  exact hfields c hc

/-- **No step disturbs what another handler knows.** -/
theorem sound_mono (h : w.Follows env w') {t : AppTask} (ht : t.Sound env w) :
    t.Sound env w' := by
  cases t with
  | schema t => exact ht
  | create t =>
      obtain ⟨upload, phase⟩ := t
      cases phase with
      | asked service schemaName headers preview =>
          intro hblank
          rw [h.blank schemaName hblank]
          exact ht hblank
      | saving session => exact fits_mono h ht
      | _ => trivial
  | session t =>
      obtain ⟨sessionId, ⟨request, phase⟩, used⟩ := t
      cases phase with
      | loaded copy =>
          cases copy with
          | none => trivial
          | some copy => exact fits_mono h ht
      | saving copy session => exact ⟨fits_mono h ht.1, fun hr => usedOwn_mono h (ht.2 hr)⟩
      | deleting => exact ht
      | written body => exact fun hr => usedOwn_mono h (ht hr)
      | answered answer =>
          cases answer with
          | error e => trivial
          | ok body => exact fun hr => usedOwn_mono h (ht hr)
      | waiting => trivial

end Follows

/-! ## One step of each handler -/

section Steps
variable {env : AppEnv} {w : AppWorld}

/-- What the step of a schema handler does to the schemas: nothing, or it
registers one, or it takes one away. -/
theorem advanceFactory_schemas (env : FactoryEnv) (s : SchemaWorld) {t : SchemaTask}
    (ht : t.Named) :
    (t.advanceFactory env s).2.Named ∧
      (((t.advanceFactory env s).1.registry = s.registry ∧
          (t.advanceFactory env s).1.definitions = s.definitions ∧ t.registers env = none) ∨
        (∃ schema, isSchemaName schema.name = true ∧ t.registers env = some schema ∧
          (t.advanceFactory env s).1.registry =
            s.registry.set schema.name (env.makeService schema) ∧
          (t.advanceFactory env s).1.definitions = s.definitions.set schema.name schema) ∨
        ∃ name, isSchemaName name = true ∧ t.registers env = none ∧
          (t.advanceFactory env s).1.registry = s.registry.erase name ∧
          (t.advanceFactory env s).1.definitions = s.definitions.erase name) := by
  obtain ⟨request, phase⟩ := t
  cases phase with
  | waiting =>
      rcases advance_waiting env.toSchemaEnv s request with ⟨phase, hphase, heq⟩ |
        ⟨_, schema, _, _, hcheck, heq⟩ | ⟨name, _, _, hcheck, heq⟩
      · rw [SchemaTask.advanceFactory, heq]
        rcases hphase with rfl | ⟨e, rfl⟩
        · exact ⟨trivial, .inl ⟨rfl, rfl, rfl⟩⟩
        · exact ⟨trivial, .inl ⟨rfl, rfl, rfl⟩⟩
      · rw [SchemaTask.advanceFactory, heq]
        exact ⟨(checkCreate_ok hcheck).1, .inl ⟨rfl, rfl, rfl⟩⟩
      · rw [SchemaTask.advanceFactory, heq]
        exact ⟨trivial, .inr (.inr ⟨name, (checkDelete_ok hcheck).1, rfl, rfl, rfl⟩)⟩
  | saving schema => exact ⟨ht, .inl ⟨rfl, rfl, rfl⟩⟩
  | saved schema =>
      simp only [SchemaTask.advanceFactory, SchemaTask.registers]
      cases hfactory : env.factory schema with
      | error e => exact ⟨trivial, .inl ⟨rfl, rfl, rfl⟩⟩
      | ok service => exact ⟨trivial, .inr (.inl ⟨schema, ht, rfl, rfl, rfl⟩)⟩
  | deleting name => exact ⟨trivial, .inl ⟨rfl, rfl, rfl⟩⟩
  | deleted name => exact ⟨trivial, .inl ⟨rfl, rfl, rfl⟩⟩
  | answered answer => exact ⟨trivial, .inl ⟨rfl, rfl, rfl⟩⟩

/-- A name that passes the check is no blank one. -/
theorem ne_of_isBlank {name n : String} (h : isSchemaName name = true)
    (hn : Py.isBlank n = true) : name ≠ n := by
  intro heq
  rw [heq] at h
  rw [isBlank_of_isSchemaName h] at hn
  cases hn

/-- The state after a schema was registered. -/
theorem consistent_register {schemas : SchemaWorld} (hw : w.Consistent env) {schema : TargetSchema}
    (hname : isSchemaName schema.name = true)
    (hregistry : schemas.registry = w.schemas.registry.set schema.name (makeService schema))
    (hdefinitions : schemas.definitions = w.schemas.definitions.set schema.name schema) :
    w.Follows env ({ w with schemas }.noteRegistered (some schema)) ∧
      ({ w with schemas }.noteRegistered (some schema)).Consistent env := by
  have hfollows : w.Follows env ({ w with schemas }.noteRegistered (some schema)) := by
    refine ⟨Nat.le_refl _, ?_, ?_⟩
    · intro id c' _ hget
      simp only [AppWorld.noteRegistered, Dict.get?_mapValues, Option.map_eq_some_iff] at hget
      obtain ⟨c, hc, rfl⟩ := hget
      refine ⟨c, hc, ?_⟩
      split <;> exact ⟨rfl, rfl⟩
    · intro n hn
      show schemas.definitions.get? n = _
      rw [hdefinitions, Dict.get?_set_ne _ _ (ne_of_isBlank hname hn)]
  refine ⟨hfollows, ?_, fun key session hget => fits_mono hfollows (hw.stored key session hget), ?_⟩
  · intro n
    show schemas.registry.get? n = (schemas.definitions.get? n).map makeService
    rw [hregistry, hdefinitions, Dict.get?_set, Dict.get?_set]
    split
    · rfl
    · exact hw.services n
  · intro id c' hget
    simp only [AppWorld.noteRegistered, Dict.get?_mapValues, Option.map_eq_some_iff] at hget
    obtain ⟨c, hc, rfl⟩ := hget
    have hcurrent := hw.captures id c hc
    by_cases hsame : c.schemaName = schema.name
    · rw [if_pos hsame]
      refine ⟨?_, hcurrent.blank⟩
      intro found hfound
      have hget : schemas.definitions.get? c.schemaName = some found := hfound
      rw [hdefinitions, hsame, Dict.get?_set_self] at hget
      exact .inr hget
    · rw [if_neg hsame]
      refine ⟨?_, hcurrent.blank⟩
      intro found hfound
      have hget : schemas.definitions.get? c.schemaName = some found := hfound
      rw [hdefinitions, Dict.get?_set_ne _ _ (Ne.symm hsame)] at hget
      exact hcurrent.registered found hget

/-- The state after a schema was taken away. -/
theorem consistent_unregister {schemas : SchemaWorld} (hw : w.Consistent env) {name : String}
    (hname : isSchemaName name = true)
    (hregistry : schemas.registry = w.schemas.registry.erase name)
    (hdefinitions : schemas.definitions = w.schemas.definitions.erase name) :
    w.Follows env { w with schemas } ∧ AppWorld.Consistent env { w with schemas } := by
  have hfollows : w.Follows env { w with schemas } := by
    refine ⟨Nat.le_refl _, fun id c' _ hget => ⟨c', hget, rfl, rfl⟩, ?_⟩
    intro n hn
    show schemas.definitions.get? n = _
    rw [hdefinitions, Dict.get?_erase, if_neg (ne_of_isBlank hname hn)]
  refine ⟨hfollows, ?_, fun key session hget => fits_mono hfollows (hw.stored key session hget), ?_⟩
  · intro n
    show schemas.registry.get? n = (schemas.definitions.get? n).map makeService
    rw [hregistry, hdefinitions, Dict.get?_erase, Dict.get?_erase]
    split
    · rfl
    · exact hw.services n
  · intro id c hget
    have hcurrent := hw.captures id c hget
    refine ⟨?_, hcurrent.blank⟩
    intro found hfound
    have hleft : schemas.definitions.get? c.schemaName = some found := hfound
    rw [hdefinitions, Dict.get?_erase] at hleft
    split at hleft
    · cases hleft
    · exact hcurrent.registered found hleft

/-- A step that leaves sessions, captures and schemas as they are to the eye. -/
theorem consistent_same {w' : AppWorld} (hw : w.Consistent env)
    (hregistry : w'.schemas.registry = w.schemas.registry)
    (hdefinitions : w'.schemas.definitions = w.schemas.definitions)
    (hstore : w'.sessions.store = w.sessions.store) (hdrawn : w'.drawn = w.drawn)
    (hcaptured : w'.captured = w.captured) : w.Follows env w' ∧ w'.Consistent env := by
  have hfollows : w.Follows env w' := follows_of_same hdrawn hcaptured hdefinitions
  refine ⟨hfollows, ?_, ?_, ?_⟩
  · intro n
    rw [hregistry, hdefinitions]
    exact hw.services n
  · intro key session hget
    rw [hstore] at hget
    exact fits_mono hfollows (hw.stored key session hget)
  · intro id c hget
    rw [hcaptured] at hget
    refine ⟨?_, (hw.captures id c hget).blank⟩
    rw [hdefinitions]
    exact (hw.captures id c hget).registered

/-- A step of a session's handler that leaves the store. -/
theorem consistent_files {sessions : SessionWorld} (hw : w.Consistent env)
    (hstore : sessions.store = w.sessions.store) :
    w.Follows env { w with sessions } ∧ AppWorld.Consistent env { w with sessions } :=
  consistent_same hw rfl rfl hstore rfl rfl

theorem schema_step (hw : w.Consistent env) {t : SchemaTask} (ht : t.Named) :
    w.Follows env (AppTask.advance env w (.schema t)).1 ∧
      (AppTask.advance env w (.schema t)).1.Consistent env ∧
      (AppTask.advance env w (.schema t)).2.Sound env (AppTask.advance env w (.schema t)).1 := by
  obtain ⟨hnamed, heffect⟩ := advanceFactory_schemas env.factoryEnv w.schemas ht
  rw [← and_assoc]
  refine ⟨?_, hnamed⟩
  rcases heffect with ⟨hregistry, hdefinitions, hnone⟩ | ⟨schema, hname, hsome, hregistry, hdefs⟩ |
    ⟨name, hname, hnone, hregistry, hdefs⟩
  · simp only [AppTask.advance, hnone, AppWorld.noteRegistered]
    exact consistent_same hw hregistry hdefinitions rfl rfl rfl
  · simp only [AppTask.advance, hsome]
    exact consistent_register hw hname hregistry hdefs
  · simp only [AppTask.advance, hnone, AppWorld.noteRegistered]
    exact consistent_unregister hw hname hregistry hdefs

/-- A blank schema name is the name of the default service. -/
theorem sessionSchemaName_blank {router : Router MappingService} {schema : Option String}
    {activeService : MappingService} (hresolved : router.resolveService schema = .ok activeService)
    (hblank : Py.isBlank (sessionSchemaName router schema activeService) = true) :
    router.registry.get? (sessionSchemaName router schema activeService) =
      some router.defaultService := by
  have hgiven : ¬ ∃ name, schema = some name ∧ Py.isBlank name = false := by
    intro hgiven
    obtain ⟨name, rfl, hname⟩ := hgiven
    simp [sessionSchemaName, hname] at hblank
  obtain ⟨rfl, hname⟩ := sessionSchemaName_default hresolved hgiven
  rw [hname] at hblank ⊢
  rcases nameOfService_cases router.registry router.defaultService with hget | ⟨hdefault, _⟩
  · exact hget
  · rw [hdefault] at hblank
    exact absurd hblank (by decide)

/-- A session just created fits its capture, and its capture the schemas. -/
theorem capture_step (hw : w.Consistent env) {session : MappingSession} {schemaName : String}
    (hid : session.id = env.uuid w.drawn) (hname : session.schemaName = schemaName)
    (hfields : session.targetFields = sessionTargetFields w.schemas.definitions schemaName)
    (hdefault : Py.isBlank schemaName = true →
      ∃ schema, w.schemas.definitions.get? schemaName = some schema ∧
        makeService schema = env.mappingService) :
    w.Follows env (w.capture session) ∧ (w.capture session).Consistent env ∧
      (w.capture session).Fits env session.id session := by
  have hfollows : w.Follows env (w.capture session) := by
    refine ⟨Nat.le_succ _, ?_, fun _ _ => rfl⟩
    intro id c' hgiven hget
    have hne : session.id ≠ id := by
      rw [hid]
      exact hgiven w.drawn (Nat.le_refl _)
    rw [AppWorld.capture, Dict.get?_set_ne _ _ hne] at hget
    exact ⟨c', hget, rfl, rfl⟩
  have hfresh : (w.capture session).Given env session.id := by
    intro k hk heq
    rw [hid] at heq
    have hsame : k = w.drawn := env.uuidInjective heq
    have hlater : w.drawn + 1 ≤ k := hk
    omega
  refine ⟨hfollows, ⟨hw.services, ?_, ?_⟩, rfl, hfresh, ?_⟩
  · exact fun key stored hget => fits_mono hfollows (hw.stored key stored hget)
  · intro id c hget
    simp only [AppWorld.capture, Dict.get?_set] at hget
    split at hget
    · cases hget
      constructor
      · intro schema hschema
        have hget : w.schemas.definitions.get? schemaName = some schema := hname ▸ hschema
        rw [hfields, sessionTargetFields_of_get hget]
        exact .inl ⟨rfl, sameFields_sorted _⟩
      · intro hblank
        obtain ⟨schema, hget, hservice⟩ := hdefault (hname ▸ hblank)
        rw [hfields, sessionTargetFields_of_get hget, ← hservice]
        exact sameFields_sorted _
    · exact hw.captures id c hget
  · intro c hget
    rw [AppWorld.capture, Dict.get?_set_self] at hget
    cases hget
    rfl

/-- What is saved under its own identifier leaves the store consistent. -/
theorem save_step (hw : w.Consistent env) {session : MappingSession}
    (hfits : w.Fits env session.id session) {files : Files} :
    w.Follows env
        { w with sessions := ⟨RedisMappingSessionStore.save w.sessions.store session, files⟩ } ∧
      AppWorld.Consistent env
        { w with sessions := ⟨RedisMappingSessionStore.save w.sessions.store session, files⟩ } := by
  have hfollows : w.Follows env
      { w with sessions := ⟨RedisMappingSessionStore.save w.sessions.store session, files⟩ } :=
    follows_of_same rfl rfl rfl
  refine ⟨hfollows, hw.services, ?_, hw.captures⟩
  intro key stored hget
  by_cases hkey : session.id = key
  · subst hkey
    have hstored : some session.stored = some stored :=
      (RedisMappingSessionStore.get_save _ _).symm.trans hget
    cases hstored
    exact ⟨rfl, hfits.given, hfits.schemaName⟩
  · have hold : RedisMappingSessionStore.get w.sessions.store key = some stored :=
      (RedisMappingSessionStore.get_save_ne _ hkey).symm.trans hget
    exact fits_mono hfollows (hw.stored key stored hold)

theorem create_step (hw : w.Consistent env) {t : CreateTask} (ht : t.Sound env w) :
    w.Follows env (t.advance env w).1 ∧ (t.advance env w).1.Consistent env ∧
      (t.advance env w).2.Sound env (t.advance env w).1 := by
  obtain ⟨u, phase⟩ := t
  rw [← and_assoc]
  cases phase with
  | waiting =>
      simp only [CreateTask.advance]
      split
      · exact ⟨consistent_files hw rfl, trivial⟩
      · split
        · exact ⟨consistent_files hw rfl, trivial⟩
        · rename_i activeService hresolved
          split
          · exact ⟨consistent_files hw rfl, trivial⟩
          · refine ⟨consistent_files hw rfl, ?_⟩
            intro hblank
            have hget : w.schemas.registry.get?
                (sessionSchemaName (w.router env) u.schema activeService) =
                some env.mappingService := sessionSchemaName_blank hresolved hblank
            rw [hw.services, Option.map_eq_some_iff] at hget
            exact hget
  | asked activeService schemaName headers preview =>
      simp only [CreateTask.advance]
      split
      · exact ⟨consistent_files hw rfl, trivial⟩
      · rw [and_assoc]
        exact capture_step hw rfl rfl rfl ht
  | saving session => exact ⟨save_step hw ht, trivial⟩
  | written session => exact ⟨consistent_files hw rfl, trivial⟩
  | answered answer => exact ⟨consistent_files hw rfl, trivial⟩

/-- The schema registered now under the session's name, if it was registered
since the session was created, has the fields noted then. -/
def AppWorld.FieldsKept (w : AppWorld) (sessionId : String) : Prop :=
  ∀ c schema, w.captured.get? sessionId = some c → c.since = some schema →
    w.schemas.definitions.get? c.schemaName = some schema →
    SameFields schema.fieldNames c.targetFields

/-- **What the name resolves to** has the fields noted of the session. -/
theorem resolved_fields (hw : w.Consistent env) {sessionId : String} {copy : MappingSession}
    (hfits : w.Fits env sessionId copy) (hkept : w.FieldsKept sessionId) {service : MappingService}
    (hresolved : (w.router env).sessionEnv.resolveService copy.schemaName = .ok service)
    {c : Capture} (hc : w.captured.get? sessionId = some c) :
    SameFields service.schema.fieldNames c.targetFields := by
  have hcurrent := hw.captures sessionId c hc
  rw [hfits.schemaName c hc] at hresolved
  unfold SessionEnv.resolveService at hresolved
  by_cases hblank : Py.isBlank c.schemaName = true
  · rw [if_pos hblank] at hresolved
    cases hresolved
    exact hcurrent.blank hblank
  · rw [if_neg hblank] at hresolved
    obtain ⟨_, _, hresolved⟩ := bind_eq_ok.mp hresolved
    have hregistry : (w.router env).sessionEnv.registry.get? c.schemaName =
        (w.schemas.definitions.get? c.schemaName).map makeService := by
      rw [← hw.services, Router.sessionEnv, Dict.get?_mapValues]
      exact Option.map_id_apply
    rw [hregistry] at hresolved
    cases hschema : w.schemas.definitions.get? c.schemaName with
    | none =>
        rw [hschema] at hresolved
        cases hresolved
    | some schema =>
        rw [hschema] at hresolved
        cases hresolved
        -- the schema is the captured one, or was registered since
        rcases hcurrent.registered schema hschema with ⟨_, hsame⟩ | hsince
        · exact hsame
        · exact hkept c schema hc hsince hschema

/-- An edit of a loaded copy keeps its identity, and a finalisation has used
what the schema's name resolves to. -/
theorem edit_step (hw : w.Consistent env) {sessionId : String} {copy session : MappingSession}
    {e : SessionEdit} (used : Option MappingService) (hfits : w.Fits env sessionId copy)
    (hkept : e = .finalise → w.FieldsKept sessionId)
    (happly : e.apply (w.router env).sessionEnv w.sessions.files copy = .ok session) :
    w.Fits env sessionId session ∧ (e = .finalise → w.UsedOwn env sessionId
      (SessionHandler.resolves env w ⟨sessionId, ⟨.edit e, .loaded (some copy)⟩, used⟩)) := by
  have hid := (SessionEdit.apply_ok happly).2
  have hname := (SessionEdit.apply_origin happly).1
  refine ⟨⟨hid.trans hfits.id, hfits.given, fun c hc => ?_⟩, fun hfinalise => ?_⟩
  · rw [hname]
    exact hfits.schemaName c hc
  · subst hfinalise
    obtain ⟨service, _, _, hresolved, _⟩ := finaliseSession_runs happly
    have hused : SessionHandler.resolves env w
        ⟨sessionId, ⟨.edit .finalise, .loaded (some copy)⟩, used⟩ = some service := by
      simp only [SessionHandler.resolves, hresolved, Except.toOption]
    refine ⟨hfits.given, service, hused, fun c hc => ?_⟩
    exact resolved_fields hw hfits (hkept rfl) hresolved hc

theorem session_step (hw : w.Consistent env) {h : SessionHandler} (hh : h.Sound env w)
    (hkept : ∀ copy, h.task = ⟨.edit .finalise, .loaded (some copy)⟩ → w.FieldsKept h.sessionId) :
    w.Follows env (h.advance env w).1 ∧ (h.advance env w).1.Consistent env ∧
      (h.advance env w).2.Sound env (h.advance env w).1 := by
  obtain ⟨sessionId, ⟨request, phase⟩, used⟩ := h
  rw [← and_assoc]
  cases phase with
  | waiting =>
      refine ⟨consistent_files hw rfl, ?_⟩
      show SessionHandler.Sound env _ ⟨sessionId, ⟨request, .loaded _⟩, _⟩
      cases hget : RedisMappingSessionStore.get w.sessions.store sessionId with
      | none => trivial
      | some copy => exact hw.stored sessionId copy hget
  | loaded copy =>
      cases copy with
      | none => exact ⟨consistent_files hw rfl, trivial⟩
      | some copy =>
          cases request with
          | delete => exact ⟨consistent_files hw rfl, rfl⟩
          | edit e =>
              cases happly : e.apply (w.router env).sessionEnv w.sessions.files copy with
              | error err =>
                  simp only [SessionHandler.advance, SessionTask.advance, happly]
                  exact ⟨consistent_files hw rfl, trivial⟩
              | ok session =>
                  simp only [SessionHandler.advance, SessionTask.advance, happly]
                  obtain ⟨hfits, hused⟩ := edit_step hw used hh
                    (fun he => hkept copy (by rw [he])) happly
                  exact ⟨consistent_files hw rfl, hfits,
                    fun hrequest => hused (by cases hrequest; rfl)⟩
  | saving copy session =>
      obtain ⟨hfits, hused⟩ := hh
      have hown : w.Fits env session.id session := by
        rw [hfits.id]
        exact hfits
      refine ⟨save_step hw hown, fun hrequest => ?_⟩
      exact usedOwn_mono (save_step hw hown).1 (hused hrequest)
  | deleting =>
      have hrequest : request = .delete := hh
      subst hrequest
      have hfollows : w.Follows env { w with
          sessions := ⟨RedisMappingSessionStore.delete w.sessions.store sessionId,
            w.sessions.files⟩ } := follows_of_same rfl rfl rfl
      refine ⟨⟨hfollows, hw.services, ?_, hw.captures⟩, fun hrequest => by cases hrequest⟩
      intro key session hget
      exact fits_mono hfollows
        (hw.stored key session (RedisMappingSessionStore.get_of_get_delete hget))
  | written body => exact ⟨consistent_files hw rfl, hh⟩
  | answered answer => exact ⟨consistent_files hw rfl, hh⟩

end Steps

/-! ## Runs -/

section Runs
variable {env : AppEnv}

/-- A finalisation about to run finds its schema's fields kept. -/
def FieldsKeptAt (p : Pool AppWorld AppTask) (i : Nat) : Prop :=
  ∀ h copy, p.tasks[i]? = some (.session h) → h.task = ⟨.edit .finalise, .loaded (some copy)⟩ →
    p.shared.FieldsKept h.sessionId

/-- Consistency, and what every handler knows. -/
def AppInvariant (env : AppEnv) (p : Pool AppWorld AppTask) : Prop :=
  p.Holds (AppWorld.Consistent env) fun w t => t.Sound env w

/-- **One step keeps the invariant.** -/
theorem appInvariant_step {p : Pool AppWorld AppTask} {i : Nat} (hp : AppInvariant env p)
    (hkept : FieldsKeptAt p i) : AppInvariant env (p.step (AppTask.advance env) i) := by
  apply Pool.step_holds _ hp
  intro t ht
  have hsound := hp.2 t (List.mem_of_getElem? ht)
  have hstep : p.shared.Follows env (t.advance env p.shared).1 ∧
      (t.advance env p.shared).1.Consistent env ∧
      (t.advance env p.shared).2.Sound env (t.advance env p.shared).1 := by
    cases t with
    | schema t => exact schema_step hp.1 hsound
    | create t => exact create_step hp.1 hsound
    | session h => exact session_step hp.1 hsound fun copy hcopy => hkept h copy ht hcopy
  obtain ⟨hfollows, hconsistent, hown⟩ := hstep
  exact ⟨hconsistent, hown, fun u _ hu => sound_mono hfollows hu⟩

/-- The store keeps sessions under their identifiers, none of them still to be given. -/
def FreshSessions (env : AppEnv) (store : Dict String Json) : Prop :=
  ∀ key session, RedisMappingSessionStore.get store key = some session →
    session.id = key ∧ ∀ k, env.uuid k ≠ key

theorem appInvariant_start {store : Dict String Json} {pages : List (List String)}
    {sessions : SessionWorld} (hfresh : FreshSessions env sessions.store)
    (requests : List AppRequest) :
    AppInvariant env ⟨startApp env store pages sessions, requests.map AppTask.begin⟩ := by
  refine ⟨⟨?_, ?_, ?_⟩, ?_⟩
  · exact createApp_served env.factoryEnv.toSchemaEnv env.files store pages
  · intro key session hget
    obtain ⟨hid, hnever⟩ := hfresh key session hget
    exact ⟨hid, fun k _ => hnever k, fun c hc => by cases hc⟩
  · intro id c hc
    cases hc
  · intro t ht
    obtain ⟨request, _, rfl⟩ := List.mem_map.mp ht
    cases request <;> trivial

/-- Every successful finalisation of a session created here used a service
with the fields the session was created with. -/
def FinalisedAsCreated (p : Pool AppWorld AppTask) : Prop :=
  ∀ h body c, AppTask.session h ∈ p.tasks → h.task = ⟨.edit .finalise, .answered (.ok body)⟩ →
    p.shared.captured.get? h.sessionId = some c →
    ∃ service, h.used = some service ∧ SameFields service.schema.fieldNames c.targetFields

/-- **When sessions are finalised against the schema they were created for.**
After every schedule of schema and session handlers: if each finalisation
that ran found the fields of its schema kept, each that succeeded used a
service with the fields of the creation. -/
theorem finalised_as_created (env : AppEnv) (store : Dict String Json) (pages : List (List String))
    (sessions : SessionWorld) (requests : List AppRequest) (schedule : List Nat)
    (hfresh : FreshSessions env sessions.store)
    (hkept : AllSteps (Pool.step (AppTask.advance env)) FieldsKeptAt
      ⟨startApp env store pages sessions, requests.map AppTask.begin⟩ schedule) :
    FinalisedAsCreated
      (serveApp env (startApp env store pages sessions) requests schedule) := by
  have hinvariant : AppInvariant env
      (serveApp env (startApp env store pages sessions) requests schedule) :=
    run_preserves (fun _ _ hp hstep => appInvariant_step hp hstep) hkept
      (appInvariant_start hfresh requests)
  intro h body c hmem htask hc
  have hsound : h.Sound env _ := hinvariant.2 _ hmem
  rw [SessionHandler.Sound, htask] at hsound
  obtain ⟨service, hused, hfields⟩ := (hsound rfl).fields
  exact ⟨service, hused, hfields c hc⟩

end Runs

/-! ### A schema replaced under its name -/

/-- Identifiers of one letter, longer and longer. -/
def growingIds (k : Nat) : String := String.ofList (List.replicate k 'a')

theorem growingIds_injective : Function.Injective growingIds := by
  intro k k' h
  have hlength := congrArg (fun s => s.toList.length) h
  simpa [growingIds] using hlength

/-- A process with the premiums built in. -/
def bookEnv : AppEnv where
  rt := .plain
  strErr _ _ := "validation error"
  raises _ := none
  files := { directory := [premiumSchema], defaultFile := premiumSchema }
  uuid := growingIds
  uuidInjective := growingIds_injective

/-- Hulls with one field. -/
def hullSchema (field : String) : TargetSchema where
  name := "hull"
  fields := .ofList [(field, .plain .string)]
  rulesValid := rfl
  hintsValid := rfl

def hullRequest (field : String) : AppRequest :=
  .schema (.create [("name", .str "hull"),
    ("fields", .obj [(field, .obj [("type", .str "string")])])])

/-- `grossFile`, for the hulls. -/
def hullUpload : SessionUpload MappingService where
  file := grossFile
  schema := some "hull"
  temp := someTemp
  mappers := fun _ headers _ => .ok ⟨[], headers, List.nodup_nil⟩

/-- The hulls are created, a session for them too; the hulls are deleted and
created again, and the session is finalised, each request after the other. -/
def replacedHull (field : String) : Pool AppWorld AppTask :=
  serveApp bookEnv (startApp bookEnv ∅ [] ⟨∅, noDisk⟩)
    [hullRequest "Vessel", .create hullUpload, .schema (.delete "hull"), hullRequest field,
      .session "" (.edit .finalise)]
    [0, 0, 0, 1, 1, 1, 1, 2, 2, 2, 3, 3, 3, 4, 4, 4, 4]

/-- With the same field again the session is finalised as it was created. -/
theorem same_hull_finalised :
    (∃ body, AppTask.session ⟨"", ⟨.edit .finalise, .answered (.ok body)⟩,
        some (makeService (hullSchema "Vessel"))⟩ ∈ (replacedHull "Vessel").tasks) ∧
      FinalisedAsCreated (replacedHull "Vessel") := by
  refine ⟨⟨_, List.mem_of_getElem? (i := 4) rfl⟩, ?_⟩
  refine finalised_as_created bookEnv ∅ [] ⟨∅, noDisk⟩ _ _ ?_ ?_
  · intro key session hget
    cases hget
  · refine ⟨?_, ?_, ?_, ?_, ?_, ?_, ?_, ?_, ?_, ?_, ?_, ?_, ?_, ?_, ?_, ?_, ?_, trivial⟩
    all_goals
      intro h copy htask hphase
      cases htask
    -- only the second step of the finalisation finds it loaded
    all_goals cases hphase
    intro c schema hc hsince _
    cases hc
    cases hsince
    exact fun _ => Iff.rfl

/-- With another field the same run finalises it with a service for that field. -/
theorem other_hull_finalised : ¬ FinalisedAsCreated (replacedHull "Port") := by
  intro hown
  have hdone : ∃ body, AppTask.session ⟨"", ⟨.edit .finalise, .answered (.ok body)⟩,
      some (makeService (hullSchema "Port"))⟩ ∈ (replacedHull "Port").tasks :=
    ⟨_, List.mem_of_getElem? (i := 4) rfl⟩
  obtain ⟨body, hmem⟩ := hdone
  obtain ⟨service, hused, hfields⟩ := hown _ body _ hmem rfl rfl
  cases hused
  have hport := (hfields "Port").mp (List.mem_singleton.mpr rfl)
  exact absurd hport (by decide)

end RiskFlow
