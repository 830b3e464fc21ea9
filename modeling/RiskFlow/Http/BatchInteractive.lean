import RiskFlow.Http.SessionShape

/-!
# BatchInteractive — one file through both paths

`upload_file` and a session that is finalised without an edit: two
services looked up, two temp files, one time a cache and a merge with no
corrections, the other time a stored session and its name. The rows are
validated by the same service with the same mapping, if the name the
session keeps can be resolved.
-/

namespace RiskFlow

open Lib MappingService

/-! ## The file -/

/-- What polars promises of a file: `n_rows` limits the rows and not the
columns. And the file has a column. -/
structure UploadFile.Tabular (file : UploadFile) : Prop where
  csvColumns : ∀ n m df df', file.readCsv n = .ok df → file.readCsv m = .ok df' →
    df'.columns = df.columns
  csvNonempty : ∀ n df, file.readCsv n = .ok df → df.columns ≠ []
  excelNonempty : ∀ sheetName df, file.readExcel sheetName = .ok df → df.columns ≠ []

section File
variable {rt : Runtime} {files : Files} {path : String} {file : UploadFile}
variable {sheetName : Option String} {headers : List String} {preview : List Row}

/-- Both temp paths are read alike. -/
theorem ingest_anywhere {files' : Files} {path' : String}
    (hext : Py.endsWith path ".csv" = Py.endsWith path' ".csv")
    (h : ingest rt (saveTempFile files path file) path sheetName = .ok (headers, preview)) :
    ingest rt (saveTempFile files' path' file) path' sheetName = .ok (headers, preview) := by
  rw [ingest_saved] at h ⊢
  rwa [← hext]

theorem readTable_anywhere {files' : Files} {path' : String}
    (hext : Py.endsWith path ".csv" = Py.endsWith path' ".csv") :
    readTable (saveTempFile files path file) path sheetName =
      readTable (saveTempFile files' path' file) path' sheetName := by
  simp [readTable, saveTempFile, hext]

/-- The headers and preview of a file with a column: there is a header, and
the rows have no other keys. -/
theorem ingest_tabular (hfile : file.Tabular)
    (h : ingest rt (saveTempFile files path file) path sheetName = .ok (headers, preview)) :
    headers ≠ [] ∧ ∀ row ∈ preview, ∀ k ∈ row.keys, k ∈ headers := by
  obtain ⟨df, df', hdf, hdf', rfl, rfl⟩ := ingest_saved.mp h
  unfold UploadFile.table at hdf hdf'
  cases hcsv : Py.endsWith path ".csv" with
  | true =>
      simp only [hcsv, if_true] at hdf hdf' ⊢
      refine ⟨hfile.csvNonempty _ df hdf, fun row hrow k hk => ?_⟩
      rw [← hfile.csvColumns _ _ df df' hdf hdf']
      exact DataFrame.mem_keys_toDicts hrow hk
  | false =>
      simp only [hcsv, Bool.false_eq_true, if_false] at hdf hdf' ⊢
      refine ⟨hfile.excelNonempty _ df hdf, fun row hrow k hk => ?_⟩
      cases hdf.symm.trans hdf'
      exact DataFrame.mem_keys_toDicts hrow hk

/-- A preview with no key beside the headers is shown to the mapper whole. -/
theorem uncorrectedPreview_self (h : ∀ row ∈ preview, ∀ k ∈ row.keys, k ∈ headers) :
    uncorrectedPreview headers preview = preview := by
  have hself : ∀ row ∈ preview, (row.filterKeys fun k => decide (k ∈ headers)) = row :=
    fun row hrow => Dict.filterKeys_eq_self fun k hk => decide_eq_true (h row hrow k hk)
  exact (List.map_congr_left hself).trans (List.map_id preview)

end File

/-! ## The name -/

section Name
variable {σ : Type} [DecidableEq σ] {router : Router σ} {schema : Option String} {ref : σ}

/-- A schema is chosen, or the registry's first name of the default service is
blank or passes the check of schema names. -/
def SchemaNamed (router : Router σ) (schema : Option String) : Prop :=
  (∃ name, schema = some name ∧ Py.isBlank name = false) ∨
    Py.isBlank (nameOfService router.registry router.defaultService) = true ∨
    isSchemaName (nameOfService router.registry router.defaultService) = true

/-- The name kept for a request without a schema is one of the registry's. -/
theorem get?_nameOfService
    (hdefault : ∃ name, router.registry.get? name = some router.defaultService) :
    router.registry.get? (nameOfService router.registry router.defaultService) =
      some router.defaultService := by
  rcases nameOfService_cases router.registry router.defaultService with hget | ⟨_, hnone⟩
  · exact hget
  · obtain ⟨name, hget⟩ := hdefault
    exact absurd hget (hnone name)

/-- **The name a session keeps resolves to the service it was created with**,
if it is a schema name or blank. -/
theorem sessionSchemaName_resolves
    (hdefault : ∃ name, router.registry.get? name = some router.defaultService)
    (hresolved : router.resolveService schema = .ok ref) (hnamed : SchemaNamed router schema) :
    router.sessionEnv.resolveService (sessionSchemaName router schema ref) =
      .ok (router.service ref) := by
  apply sessionEnv_resolves
  by_cases hgiven : ∃ name, schema = some name ∧ Py.isBlank name = false
  · obtain ⟨name, rfl, hname⟩ := hgiven
    have hself : sessionSchemaName router (some name) ref = name := by
      simp [sessionSchemaName, hname]
    rw [hself]
    exact hresolved
  · obtain ⟨rfl, hname⟩ := sessionSchemaName_default hresolved hgiven
    rw [hname]
    unfold Router.resolveService
    by_cases hblank : Py.isBlank (nameOfService router.registry router.defaultService) = true
    · simp [hblank]
    · have hpattern := (hnamed.resolve_left hgiven).resolve_left hblank
      simp only [hblank, validateSchemaName, hpattern, get?_nameOfService hdefault]
      rfl

/-- And it resolves to nothing else: another name is refused. -/
theorem schemaNamed_of_resolves (hresolved : router.resolveService schema = .ok ref)
    {service : MappingService} (hservice : router.sessionEnv.resolveService
      (sessionSchemaName router schema ref) = .ok service) : SchemaNamed router schema := by
  by_cases hgiven : ∃ name, schema = some name ∧ Py.isBlank name = false
  · exact .inl hgiven
  · right
    rw [(sessionSchemaName_default hresolved hgiven).2] at hservice
    unfold SessionEnv.resolveService at hservice
    by_cases hblank : Py.isBlank (nameOfService router.registry router.defaultService) = true
    · exact .inl hblank
    · rw [if_neg hblank] at hservice
      obtain ⟨_, hpattern, _⟩ := bind_eq_ok.mp hservice
      exact .inr (validateSchemaName_ok hpattern)

end Name

/-! ## The two paths -/

section Paths
variable {σ : Type} {router : Router σ} {u : UploadRequest σ} {disk : Files} {stores : Stores}
variable {result : ProcessingResult}

/-- **What a batch upload without a cedent did**, on a cache without mappings. -/
theorem uploadFile_runs (hcedent : u.cedentId = none)
    (hempty : ∀ key, RedisCache.getMapping stores key = none) (hfile : u.file.Tabular)
    (h : (uploadFile router disk stores u).1 = .ok result) :
    ∃ ref headers preview, validateFile router.rt u.file = .ok () ∧
      router.resolveService u.schema = .ok ref ∧
      ingest router.rt (saveTempFile disk u.path u.file) u.path u.sheetName =
        .ok (headers, preview) ∧
      u.mappers ref headers preview = .ok result.mapping ∧
      validateRows router.rt (router.service ref) (saveTempFile disk u.path u.file) u.path
        result.mapping u.sheetName = .ok result := by
  by_cases hserved : ∃ ref, validateFile router.rt u.file = .ok () ∧
      router.resolveService u.schema = .ok ref
  · obtain ⟨ref, hvalid, hresolved⟩ := hserved
    rw [uploadFile_resolved hvalid hresolved] at h
    obtain ⟨headers, preview, hin, hob, hrows⟩ := processFile_runs (mapError_eq_ok.mp h)
    obtain ⟨hne, hkeys⟩ := ingest_tabular hfile hin
    rw [obtainMapping_miss (hempty _)] at hob
    have hmapped : mapWithCorrections router.rt (router.service ref) (u.mappers ref) stores
        headers preview u.cedentId = .ok result.mapping := hob
    rw [hcedent, mapWithCorrections_none hne] at hmapped
    obtain ⟨hmapper, _⟩ := mapUncorrected_ok.mp hmapped
    rw [uncorrectedPreview_self hkeys] at hmapper
    exact ⟨ref, headers, preview, hvalid, hresolved, hin, hmapper, hrows⟩
  · obtain ⟨e, hrefused, _⟩ := uploadFile_unresolved disk stores hserved
    rw [hrefused] at h
    cases h

/-- The creation of a session on the upload's file, for the upload's schema. -/
def UploadRequest.session (u : UploadRequest σ) (temp : TempName) : SessionUpload σ where
  file := u.file
  sheetName := u.sheetName
  schema := u.schema
  temp := temp
  mappers := u.mappers

/-- The session is created, and the finalisation of what the store returns
succeeds with this result. -/
def FinalisesTo [DecidableEq σ] (router : Router σ) (id : String) (w : SessionWorld)
    (u : SessionUpload σ) (result : ProcessingResult) : Prop :=
  ∃ session stored final, (createSession router id w u).1 = .ok session ∧
    RedisMappingSessionStore.get (createSession router id w u).2.store session.id = some stored ∧
    finaliseSession router.sessionEnv (createSession router id w u).2.files stored = .ok final ∧
    final.result = some result.modelDump

/-- **When the interactive path agrees with the batch path.** If an upload
without a cedent returns a result and no mapping was cached, a session for
the same file and schema, finalised without an edit, yields this result
exactly if a schema is chosen or the default service has a proper name. -/
theorem interactive_agrees_iff [DecidableEq σ] (router : Router σ) (id : String) (w : SessionWorld)
    (disk : Files) (stores : Stores) (u : UploadRequest σ) (temp : TempName)
    (hdefault : ∃ name, router.registry.get? name = some router.defaultService)
    (hcedent : u.cedentId = none) (hempty : ∀ key, RedisCache.getMapping stores key = none)
    (hfile : u.file.Tabular) {result : ProcessingResult}
    (hresult : (uploadFile router disk stores u).1 = .ok result) :
    FinalisesTo router id w (u.session temp) result ↔ SchemaNamed router u.schema := by
  obtain ⟨ref, headers, preview, hvalid, hresolved, hin, hmapper, hrows⟩ :=
    uploadFile_runs hcedent hempty hfile hresult
  constructor
  · intro hfinalises
    obtain ⟨session, stored, final, hcreated, hstored, hfinal, _⟩ := hfinalises
    obtain ⟨ref', _, _, _, _, hresolved', _, hsession, _⟩ := createSession_ok hcreated
    cases hresolved.symm.trans hresolved'
    rw [createSession_get hcreated] at hstored
    cases hstored
    obtain ⟨service, _, _, hservice, _⟩ := finaliseSession_runs hfinal
    rw [hsession] at hservice
    exact schemaNamed_of_resolves hresolved hservice
  · intro hnamed
    have hext : Py.endsWith u.path ".csv" = Py.endsWith (u.session temp).path ".csv" :=
      (tempPath_endsWith u.temp u.file).trans (tempPath_endsWith temp u.file).symm
    have hsuggest : suggest router.rt (saveTempFile w.files (u.session temp).path u.file)
        (u.session temp) (u.mappers ref) = .ok (headers, preview, result.mapping) := by
      rw [suggest_read (u.mappers ref) (ingest_anywhere hext hin), hmapper]
      rfl
    obtain ⟨hcreated, hfiles⟩ := createSession_of id w (u.session temp) hvalid hresolved hsuggest
    have hread : validateRows router.rt (router.service ref)
        (saveTempFile w.files (u.session temp).path (u.session temp).file) (u.session temp).path
        result.mapping u.sheetName = .ok result := by
      rw [validateRows, ← readTable_anywhere hext]
      exact hrows
    have hfinal := finaliseSession_of (newSession id (u.session temp)
      (sessionSchemaName router u.schema ref)
      (sessionTargetFields router.definitions (sessionSchemaName router u.schema ref))
      headers preview result.mapping).stored rfl
      (sessionSchemaName_resolves hdefault hresolved hnamed)
      result.mapping.build_mappings hread
    rw [← hfiles] at hfinal
    exact ⟨_, _, _, hcreated, createSession_get hcreated, hfinal, rfl⟩

end Paths

/-! ### A default schema and its name -/

/-- The premiums alone, registered under this name. -/
def namedRouter (name : String) : Router Unit where
  rt := .plain
  service _ := premiumService
  defaultService := ()
  registry := .ofList [(name, ())]
  definitions := .ofList [(name, premiumSchema)]

/-- `grossFile`, with neither a cedent nor a schema. -/
def plainUpload : UploadRequest Unit where
  file := grossFile
  temp := someTemp
  mappers := fun _ _ _ =>
    .ok ⟨[⟨"GWP", "Gross_Premium", 1, ColumnMapping.certain⟩], [], List.nodup_singleton _⟩

theorem grossFile_tabular : grossFile.Tabular where
  csvColumns _ _ _ _ h h' := by
    cases h
    cases h'
    rfl
  csvNonempty _ _ h := by
    cases h
    exact List.cons_ne_nil _ _
  excelNonempty _ _ h := by
    cases h
    exact List.cons_ne_nil _ _

/-- The result of the upload, and the session that yields it. -/
theorem premiums_agree :
    ∃ result, (uploadFile (namedRouter "premiums") noDisk .empty plainUpload).1 = .ok result ∧
      FinalisesTo (namedRouter "premiums") "5d1f" emptySessions (plainUpload.session someTemp)
        result := by
  refine ⟨_, rfl, ?_⟩
  exact (interactive_agrees_iff (namedRouter "premiums") "5d1f" emptySessions noDisk .empty
    plainUpload someTemp ⟨"premiums", rfl⟩ rfl (fun _ => rfl) grossFile_tabular rfl).mpr
    (.inr (.inr (by decide)))

/-- The same upload where the name has a blank: no session yields the result. -/
theorem premium_book_disagrees :
    (namedRouter "premium book").registry.get? "premium book" =
        some (namedRouter "premium book").defaultService ∧
      ∃ result, (uploadFile (namedRouter "premium book") noDisk .empty plainUpload).1 = .ok result ∧
        ¬ FinalisesTo (namedRouter "premium book") "5d1f" emptySessions
          (plainUpload.session someTemp) result := by
  refine ⟨rfl, _, rfl, ?_⟩
  intro hfinalises
  obtain ⟨session, stored, final, hcreated, hstored, hfinal, _⟩ := hfinalises
  rw [createSession_get hcreated] at hstored
  cases hstored
  cases hcreated
  cases hfinal

end RiskFlow
