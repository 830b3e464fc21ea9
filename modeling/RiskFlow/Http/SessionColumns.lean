import RiskFlow.Http.SessionShape
import RiskFlow.Service.MappedColumns

/-!
# SessionColumns — what a finalised session keeps of its columns

The custom fields of a session are known to the session only. Finalise
validates with the service registered for the schema, whose records have
those names of that schema that pydantic makes fields of.
-/

namespace RiskFlow

open Lib

/-! ## One finalise -/

/-- The mapped headers are distinct columns of the file. -/
def MappedOnce (files : Files) (session : MappingSession) : Prop :=
  (session.mappings.map ColumnMapping.sourceHeader).Nodup ∧
    ∃ df, readTable files session.filePath session.sheetName = .ok df ∧
      ∀ m ∈ session.mappings, m.sourceHeader ∈ df.columns

/-- What a finalise went through that turned one session into the other. -/
structure FinaliseRun (env : SessionEnv) (files : Files) (session final : MappingSession) where
  service : MappingService
  mapping : MappingResult
  df : DataFrame
  table : DataFrame
  rows : List Row
  result : ProcessingResult
  resolved : env.resolveService session.schemaName = .ok service
  mapped : MappingResult.build session.mappings session.unmappedHeaders = .ok mapping
  read : readTable files session.filePath session.sheetName = .ok df
  renamed : renameTable df mapping = .ok table
  converted : convertedRows env.rt service mapping df = .ok rows
  validated : validateTable env.rt service mapping df = .ok result
  returned : final.result = some result.modelDump

namespace FinaliseRun
variable {env : SessionEnv} {files : Files} {session final : MappingSession}

/-- Each valid record of the result has the mapped columns of its row. -/
def KeepsColumns (run : FinaliseRun env files session final) : Prop :=
  RecordsKeepColumns env.rt run.service.schema run.df run.table session.mappings run.result

/-- The model of the service accepts no row of the file. -/
def AcceptsNoRow (run : FinaliseRun env files session final) : Prop :=
  ∀ row ∈ run.rows, ¬ Accepts env.rt (run.service.recordModel env.rt) row

/-- A finalise that succeeds went through all of it. -/
theorem of_finalise (h : SessionEdit.finalise.apply env files session = .ok final) :
    Nonempty (FinaliseRun env files session final) := by
  obtain ⟨service, mapping, result, hservice, hbuild, hrows, hfinal⟩ := finaliseSession_runs h
  obtain ⟨df, hread, hvalid⟩ := bind_eq_ok.mp hrows
  obtain ⟨rows, hconverted, _, _⟩ := validateTable_runs hvalid
  obtain ⟨table, hrename, _⟩ := bind_eq_ok.mp hconverted
  obtain ⟨_, rfl⟩ := MappingSession.finalise_ok hfinal
  exact ⟨⟨service, mapping, df, table, rows, result, hservice, hbuild, hread, hrename, hconverted,
    hvalid, rfl⟩⟩

/-- **One finalise** keeps the mapped columns if their targets are fields of
the records it makes, or if no row is accepted. -/
theorem keepsColumns_iff (run : FinaliseRun env files session final)
    (h : MappedOnce files session) :
    run.KeepsColumns ↔ TargetsKnown run.service.schema session.mappings ∨ run.AcceptsNoRow := by
  obtain ⟨hmappings, _⟩ := MappingResult.build_ok run.mapped
  obtain ⟨hsources, df, hread, hin⟩ := h
  cases hread.symm.trans run.read
  rw [← hmappings] at hsources hin
  rw [KeepsColumns, ← hmappings]
  exact validateTable_keepsColumns run.renamed run.converted hsources hin run.validated

end FinaliseRun

/-! ## Runs -/

section Runs
variable {env : SessionEnv} {schemaName : String} {known : List ColumnMapping → Prop}

/-- A session of the schema whose mappings are of the kind. -/
def MapsInto (schemaName : String) (known : List ColumnMapping → Prop) (s : MappingSession) :
    Prop :=
  s.schemaName = schemaName ∧ known s.mappings

/-- **One edit**: only a PUT changes the mappings, and nothing the schema. -/
theorem mapsInto_apply {e : SessionEdit} {files : Files} {copy session : MappingSession}
    (hputs : ∀ mappings unmapped, e = .putMappings mappings unmapped → known mappings)
    (hcopy : MapsInto schemaName known copy) (h : e.apply env files copy = .ok session) :
    MapsInto schemaName known session := by
  refine ⟨(SessionEdit.apply_origin h).1.trans hcopy.1, ?_⟩
  cases e with
  | putMappings mappings unmapped =>
      obtain ⟨_, rfl⟩ := MappingSession.updateMappings_ok (updateSessionMappings_ok h)
      exact hputs mappings unmapped rfl
  | patchTargetFields fields =>
      obtain ⟨_, rfl⟩ := MappingSession.extendTargetFields_ok (extendSessionFields_ok h)
      exact hcopy.2
  | finalise =>
      obtain ⟨result, hfinal⟩ := finaliseSession_ok h
      obtain ⟨_, rfl⟩ := MappingSession.finalise_ok hfinal
      exact hcopy.2

variable {σ : Type} [DecidableEq σ] {router : Router σ} {id : String} {w : SessionWorld}
variable {u : SessionUpload σ} {created : MappingSession}

/-- The state after a session has been created and edited. -/
def editedWorld (router : Router σ) (id : String) (w : SessionWorld) (u : SessionUpload σ)
    (edits : List SessionEdit) : SessionWorld :=
  afterEdits router.sessionEnv id (createSession router id w u).2 edits

theorem createSession_id (h : (createSession router id w u).1 = .ok created) :
    created.id = id := by
  obtain ⟨_, _, _, _, _, _, _, rfl, _⟩ := createSession_ok h
  rfl

/-- **Every run from the creation on**: if its mappings and those of all PUTs
are of a kind, the stored ones are in each state reached. -/
theorem mapsInto_run (hcreated : (createSession router id w u).1 = .ok created)
    (hstart : known created.mappings) {edits : List SessionEdit}
    (hputs : ∀ mappings unmapped, .putMappings mappings unmapped ∈ edits → known mappings) :
    StoredHas (MapsInto created.schemaName known) id (editedWorld router id w u edits) := by
  have hid := createSession_id hcreated
  have hget := createSession_get hcreated
  rw [hid] at hget
  refine storedHas_run (fun _ hs => hs) ?_ fun e he _ _ _ hcopy happly => ?_
  · intro s hs
    cases hget.symm.trans hs
    exact ⟨hid, rfl, hstart⟩
  · exact mapsInto_apply (fun mappings unmapped heq => hputs mappings unmapped (heq ▸ he)) hcopy
      happly

end Runs

/-- **When a finalised session keeps the columns of its mappings.** In every
run from a creation on, a finalise that succeeds keeps them if their targets
are fields of the records of its schema, or if no row is accepted; so it
does if the mapper and all PUTs of the run mapped to such fields. -/
theorem finalised_columns_iff {σ : Type} [DecidableEq σ] (router : Router σ) (id : String)
    (w : SessionWorld) (u : SessionUpload σ) (created : MappingSession)
    (hcreated : (createSession router id w u).1 = .ok created) (edits : List SessionEdit)
    (session final : MappingSession)
    (hsession : RedisMappingSessionStore.get (editedWorld router id w u edits).store id =
      some session)
    (hfinal : SessionEdit.finalise.apply router.sessionEnv (editedWorld router id w u edits).files
      session = .ok final)
    (hmapped : MappedOnce (editedWorld router id w u edits).files session) :
    ∃ run : FinaliseRun router.sessionEnv (editedWorld router id w u edits).files session final,
      router.sessionEnv.resolveService created.schemaName = .ok run.service ∧
        (run.KeepsColumns ↔
          TargetsKnown run.service.schema session.mappings ∨ run.AcceptsNoRow) ∧
        (TargetsKnown run.service.schema created.mappings →
          (∀ mappings unmapped, .putMappings mappings unmapped ∈ edits →
            TargetsKnown run.service.schema mappings) →
          run.KeepsColumns) := by
  obtain ⟨run⟩ := FinaliseRun.of_finalise hfinal
  have hiff := run.keepsColumns_iff hmapped
  refine ⟨run, ?_, hiff, fun hstart hputs => ?_⟩
  · have hany : StoredHas (MapsInto created.schemaName fun _ => True) id
        (editedWorld router id w u edits) := mapsInto_run hcreated trivial fun _ _ _ => trivial
    rw [← (hany session hsession).2.1]
    exact run.resolved
  · exact hiff.mpr (.inl (mapsInto_run hcreated hstart hputs session hsession).2.2)

/-! ### A column that ends in the session -/

/-- One claim and a note on it. -/
def notedClaim : DataFrame where
  columns := ["Claim No", "Notes"]
  rows := [[.str "C1", .str "by broker"]]
  nodup := by decide
  width := by simp

def claimGuess : ColumnMapping := ⟨"Claim No", "Claim_ID", 1, ColumnMapping.certain⟩

def noteMapping : ColumnMapping := ⟨"Notes", "Broker_Notes", 1, ColumnMapping.certain⟩

/-- The upload of the claim, whose number the mapper knows. -/
def claimSession : SessionUpload String where
  file :=
    { filename := some "april.csv"
      size := 4
      readCsv := fun _ => .ok notedClaim
      readExcel := fun _ => .ok notedClaim }
  schema := some "claims"
  temp := someTemp
  mappers := fun _ => recallOne claimGuess

/-- A custom field is added, and the mappings are replaced. -/
def noteEdits (mappings : List ColumnMapping) : List SessionEdit :=
  [.patchTargetFields ["Broker_Notes"], .putMappings mappings []]

/-- The state these requests lead to. -/
def noteWorld (mappings : List ColumnMapping) : SessionWorld :=
  editedWorld bookRouter "5d1f" emptySessions claimSession (noteEdits mappings)

theorem claimGuess_known : TargetsKnown claimsService.schema [claimGuess] := by
  intro m hm
  cases List.mem_singleton.mp hm
  decide

/-- With the claim number alone, the record keeps what is mapped. -/
theorem claim_number_kept :
    ∃ created session final,
      (createSession bookRouter "5d1f" emptySessions claimSession).1 = .ok created ∧
      RedisMappingSessionStore.get (noteWorld [claimGuess]).store "5d1f" = some session ∧
      ∃ run : FinaliseRun bookRouter.sessionEnv (noteWorld [claimGuess]).files session final,
        run.KeepsColumns := by
  obtain ⟨run, hservice, _, hkept⟩ := finalised_columns_iff bookRouter "5d1f" emptySessions
    claimSession _ rfl (noteEdits [claimGuess]) _ _ rfl rfl
    (by exact ⟨List.nodup_singleton _, notedClaim, rfl, by decide⟩)
  have hclaims : claimsService = run.service := Except.ok.inj hservice
  refine ⟨_, _, _, rfl, rfl, run, hkept (hclaims ▸ claimGuess_known) ?_⟩
  intro mappings unmapped hput
  simp only [noteEdits, List.mem_cons, reduceCtorEq, SessionEdit.putMappings.injEq,
    List.not_mem_nil, or_false, false_or] at hput
  rw [hput.1, ← hclaims]
  exact claimGuess_known

/-- With the note mapped to the custom field, finalise succeeds, and the
record has the claim number only. -/
theorem broker_note_lost :
    ∃ created session final,
      (createSession bookRouter "5d1f" emptySessions claimSession).1 = .ok created ∧
      RedisMappingSessionStore.get (noteWorld [claimGuess, noteMapping]).store "5d1f" =
        some session ∧
      SessionEdit.finalise.apply bookRouter.sessionEnv (noteWorld [claimGuess, noteMapping]).files
        session = .ok final ∧
      MappedOnce (noteWorld [claimGuess, noteMapping]).files session ∧
      ∃ run : FinaliseRun bookRouter.sessionEnv (noteWorld [claimGuess, noteMapping]).files
          session final,
        run.result.validRecords = [.ofList [("Claim_ID", .str "C1")]] ∧ ¬ run.KeepsColumns := by
  refine ⟨_, _, _, rfl, rfl, rfl, ⟨by decide, notedClaim, rfl, by decide⟩, ?_⟩
  refine ⟨⟨_, _, notedClaim, _, _, _, rfl, rfl, rfl, rfl, rfl, rfl, rfl⟩, rfl, fun hkeeps => ?_⟩
  -- the one record has no key for the second mapping
  obtain ⟨_, _, _, _, hrecord⟩ := (hkeeps.get Nat.zero_lt_one Nat.zero_lt_one) noteMapping (by simp)
  cases hrecord

end RiskFlow
