import RiskFlow.Service.CachedMapping

/-!
# SharedCache — several services on one cache

Calls on the services of a collection, in any order, over the same caches.
The threshold is checked when a mapping is made and not when it is read,
so what a reader gets has passed the check of the service that wrote it.
-/

namespace RiskFlow

open Lib MappingService

/-! ## Runs of several services -/

/-- One call: the service it is made on, and what is called. -/
structure Call where
  svc : MappingService
  event : Event

def serveCall (rt : Runtime) (stores : Stores) (call : Call) : Stores :=
  serve rt call.svc stores call.event

/-- The caches after calls that start with nothing stored. -/
def runCalls (rt : Runtime) (calls : List Call) : Stores := calls.foldl (serveCall rt) .empty

/-- Every call is made on a service of the collection. -/
def CallsOn (services : Set MappingService) (calls : List Call) : Prop :=
  ∀ call ∈ calls, call.svc ∈ services

/-! ## Who wrote an entry -/

/-- A service of the collection made the mapping for headers with this key,
from corrections and an answer that passed its check. -/
def WrittenBy (rt : Runtime) (services : Set MappingService) (cacheKey : String)
    (mapping : MappingResult) : Prop :=
  ∃ writer ∈ services, ∃ headers corrections answer, headers.Nodup ∧
    cacheKey = buildCacheKey rt writer headers ∧
    MadeFrom writer headers corrections answer mapping ∧
    (answer ≠ [] → headers ≠ []) ∧
    ∀ m ∈ answer, writer.confidenceThreshold ≤ m.confidence

/-- Every entry of the mapping cache has a writer in the collection. -/
def AllWritten (rt : Runtime) (services : Set MappingService) (stores : Stores) : Prop :=
  ∀ cacheKey mapping, RedisCache.getMapping stores cacheKey = some mapping →
    WrittenBy rt services cacheKey mapping

section Written
variable {rt : Runtime} {svc : MappingService} {services : Set MappingService} {stores : Stores}

/-- The headers of a file are distinct. -/
theorem ingested_nodup {u : Upload} {headers : List String} {preview : List Row}
    (h : u.ingested rt = .ok (headers, preview)) : headers.Nodup := by
  obtain ⟨headers', hheaders, h⟩ := bind_eq_ok.mp h
  obtain ⟨preview', _, h⟩ := bind_eq_ok.mp h
  cases h
  unfold PolarsIngestor.getHeaders at hheaders
  cases hframe : PolarsIngestor.readFrame rt u.files u.filePath u.sheetName 0 with
  | error e =>
      rw [hframe] at hheaders
      cases hheaders
  | ok df =>
      rw [hframe] at hheaders
      cases hheaders
      exact df.nodup

theorem answer_confident {mapper : Mapper} {headers : List String} {preview : List Row}
    {cedentId : Option String} {answer : List ColumnMapping}
    (h : AnswerOf rt svc mapper stores headers preview cedentId answer) :
    (answer ≠ [] → headers ≠ []) ∧ ∀ m ∈ answer, svc.confidenceThreshold ≤ m.confidence := by
  rcases h with ⟨_, hnil⟩ | ⟨hasked, slmResult, hslm, rfl⟩
  · rw [hnil]
    exact ⟨fun hne => absurd rfl hne, by simp⟩
  · refine ⟨fun _ hempty => hasked ?_, (mapUncorrected_ok.mp hslm).2⟩
    rw [hempty]
    rfl

/-- A mapping the service made has a writer in every collection with it. -/
theorem writtenBy_of_made (hsvc : svc ∈ services) {mapper : Mapper} {headers : List String}
    {preview : List Row} {cedentId : Option String} {mapping : MappingResult}
    (hnodup : headers.Nodup)
    (h : mapWithCorrections rt svc mapper stores headers preview cedentId = .ok mapping) :
    WrittenBy rt services (buildCacheKey rt svc headers) mapping := by
  obtain ⟨answer, hanswer, hmade⟩ := mapWithCorrections_ok h
  obtain ⟨hasked, hconfident⟩ := answer_confident hanswer
  exact ⟨svc, hsvc, headers, _, answer, hnodup, rfl, hmade, hasked, hconfident⟩

theorem allWritten_upload (hsvc : svc ∈ services) (u : Upload)
    (h : AllWritten rt services stores) :
    AllWritten rt services (serve rt svc stores (.upload u)) := by
  rw [serve, process_stores]
  cases hin : u.ingested rt with
  | error e => exact h
  | ok r =>
      obtain ⟨headers, preview⟩ := r
      dsimp only
      cases hcached : svc.cached rt stores headers with
      | some mapping =>
          rw [obtainMapping_hit hcached]
          exact h
      | none =>
          rw [obtainMapping_miss hcached]
          cases hmap : mapWithCorrections rt svc u.mapper stores headers preview u.cedentId with
          | error e => exact h
          | ok mapping =>
              intro cacheKey other hget
              dsimp only at hget
              rw [RedisCache.getMapping_setMapping] at hget
              by_cases hkey : buildCacheKey rt svc headers = cacheKey
              · rw [if_pos hkey] at hget
                cases hget
                rw [← hkey]
                exact writtenBy_of_made hsvc (ingested_nodup hin) hmap
              · rw [if_neg hkey] at hget
                exact h cacheKey other hget

theorem allWritten_step {call : Call} (hsvc : call.svc ∈ services)
    (h : AllWritten rt services stores) : AllWritten rt services (serveCall rt stores call) := by
  obtain ⟨svc, event⟩ := call
  cases event with
  | upload u => exact allWritten_upload hsvc u h
  | correction k =>
      intro cacheKey mapping hget
      rw [serveCall, serve_correction_mappings] at hget
      exact h cacheKey mapping hget
  | expire key =>
      intro cacheKey mapping hget
      rw [serveCall, serve, RedisCache.getMapping_expire] at hget
      by_cases hkey : key = cacheKey
      · rw [if_pos hkey] at hget
        cases hget
      · rw [if_neg hkey] at hget
        exact h cacheKey mapping hget

/-- **Every cached mapping has a writer in the collection**, after every run. -/
theorem allWritten_run {calls : List Call} (hcalls : CallsOn services calls) :
    AllWritten rt services (runCalls rt calls) := by
  induction calls using List.reverseRecOn with
  | nil =>
      intro cacheKey mapping hget
      cases hget
  | append_singleton calls call ih =>
      have hbefore : AllWritten rt services (runCalls rt calls) :=
        ih fun c hc => hcalls c (List.mem_append_left _ hc)
      rw [runCalls, List.foldl_append]
      exact allWritten_step (hcalls call (by simp)) hbefore

/-- What an upload of the collection returns has a writer in it. -/
theorem result_written {calls : List Call} (hcalls : CallsOn services calls)
    (hsvc : svc ∈ services) {u : Upload} {result : ProcessingResult}
    (h : (u.process rt svc (runCalls rt calls)).1 = .ok result) :
    ∃ headers : List String, headers.Nodup ∧
      WrittenBy rt services (buildCacheKey rt svc headers) result.mapping := by
  obtain ⟨headers, preview, hin, hmapping⟩ := process_mapping h
  have hnodup := ingested_nodup hin
  refine ⟨headers, hnodup, ?_⟩
  rcases hmapping with hhit | ⟨_, hmake⟩
  · exact allWritten_run hcalls _ _ hhit
  · exact writtenBy_of_made hsvc hnodup hmake

end Written

/-! ## The threshold -/

/-- The reader can find under the key of a file of its own what the writer
stored for a file with columns. -/
def ReadsFrom (rt : Runtime) (reader writer : MappingService) : Prop :=
  ∃ written read : List String, written.Nodup ∧ read.Nodup ∧ written ≠ [] ∧
    buildCacheKey rt reader read = buildCacheKey rt writer written

/-- Every result of a run on the collection is confident enough for the
service that returned it. -/
def ThresholdHolds (rt : Runtime) (services : Set MappingService) : Prop :=
  ∀ calls, CallsOn services calls → ∀ svc ∈ services, ∀ (u : Upload) (result : ProcessingResult),
    (u.process rt svc (runCalls rt calls)).1 = .ok result →
      ∀ m ∈ result.mapping.mappings, svc.confidenceThreshold ≤ m.confidence

/-! ### A run that undercuts -/

/-- A mapping of no header of a file, as unsure as the writer's threshold allows. -/
def leastMapping (writer : MappingService)
    (h : 0 ≤ writer.confidenceThreshold ∧ writer.confidenceThreshold ≤ 1) : MappingResult where
  mappings := [⟨"", "", writer.confidenceThreshold, h⟩]
  unmappedHeaders := []
  noDuplicateTargetFields := List.nodup_singleton _

section Undercut
variable {rt : Runtime} {svc : MappingService}

theorem csvUpload_ingested (columns : List String) (h : columns.Nodup) (mapper : Mapper)
    (cedentId : Option String) :
    (csvUpload columns h mapper cedentId).ingested rt = .ok (columns, []) := by
  have hcsv : Py.endsWith "march.csv" ".csv" = true := by decide
  simp [Upload.ingested, ingest, PolarsIngestor.getHeaders, PolarsIngestor.getPreview,
    PolarsIngestor.readFrame, PolarsIngestor.checkFileExists, csvUpload, hcsv, DataFrame.toDicts,
    bind, Except.bind, pure, Except.pure, Except.map]

/-- A mapping that renames nothing leaves the columns as they are. -/
theorem renameTable_same {df : DataFrame} {mapping : MappingResult}
    (h : ∀ m ∈ mapping.mappings, m.sourceHeader = m.targetField) :
    renameTable df mapping = .ok df := by
  have hname : ∀ column ∈ df.columns, DataFrame.renamed
      ((renameMap mapping).filterKeys fun k => decide (k ∈ df.columns)) column = column := by
    intro column hcolumn
    unfold DataFrame.renamed
    rw [Dict.get?_filterKeys, if_pos (by simpa using hcolumn)]
    cases hget : (renameMap mapping).get? column with
    | none => rfl
    | some target =>
        have hentry := Dict.mem_of_mem_ofList (Dict.get?_eq_some.mp hget)
        obtain ⟨m, hm, heq⟩ := List.mem_map.mp hentry
        cases heq
        exact (h m hm).symm
  have hcolumns : df.columns.map (DataFrame.renamed
      ((renameMap mapping).filterKeys fun k => decide (k ∈ df.columns))) = df.columns :=
    (List.map_congr_left hname).trans (List.map_id _)
  unfold renameTable DataFrame.rename
  simp only [hcolumns, df.nodup, dif_pos]

/-- A file without rows validates with every mapping that renames nothing. -/
theorem csvUpload_validated (rt : Runtime) (svc : MappingService) (columns : List String)
    (h : columns.Nodup) (mapper : Mapper) (cedentId : Option String) {mapping : MappingResult}
    (hsame : ∀ m ∈ mapping.mappings, m.sourceHeader = m.targetField) :
    ∃ result, validateRows rt svc (csvUpload columns h mapper cedentId).files "march.csv" mapping
        none = .ok result ∧ result.mapping = mapping := by
  have htable : readTable (csvUpload columns h mapper cedentId).files "march.csv" none =
      .ok { columns, rows := [], nodup := h, width := by simp } := rfl
  refine ⟨{
    mapping
    confidenceReport := .fromMappingResult mapping svc.confidenceThreshold svc.schema.fieldNames
    validRecords := []
    invalidRecords := []
    errors := [] }, ?_, rfl⟩
  simp [validateRows, validateTable, htable, renameTable_same hsame, DataFrame.toDicts, rowLoop,
    bind, Except.bind, pure, Except.pure]

/-- A file without columns in common with what is cached under its key still
gets it, whatever the mapper would answer. -/
theorem csvUpload_hit (svc : MappingService) (columns : List String) (h : columns.Nodup)
    (mapper : Mapper) (cedentId : Option String) {stores : Stores} {mapping : MappingResult}
    (hsame : ∀ m ∈ mapping.mappings, m.sourceHeader = m.targetField)
    (hcached : svc.cached rt stores columns = some mapping) :
    ∃ result, ((csvUpload columns h mapper cedentId).process rt svc stores).1 = .ok result ∧
      result.mapping = mapping := by
  obtain ⟨result, hvalid, hresult⟩ :=
    csvUpload_validated rt svc columns h mapper cedentId hsame
  refine ⟨result, ?_, hresult⟩
  rw [process_outcome, csvUpload_ingested]
  refine bind_eq_ok.mpr ⟨_, rfl, bind_eq_ok.mpr ⟨mapping, ?_, hvalid⟩⟩
  rw [obtainMapping_hit hcached]

/-- The writer's call that caches its least mapping. -/
def leastUpload (writer : MappingService)
    (h : 0 ≤ writer.confidenceThreshold ∧ writer.confidenceThreshold ≤ 1) (columns : List String)
    (hcolumns : columns.Nodup) : Upload :=
  csvUpload columns hcolumns (fun _ _ => .ok (leastMapping writer h)) none

theorem leastUpload_cached (rt : Runtime) {writer : MappingService}
    (h : 0 ≤ writer.confidenceThreshold ∧ writer.confidenceThreshold ≤ 1) {columns : List String}
    (hcolumns : columns.Nodup) (hne : columns ≠ []) :
    RedisCache.getMapping (runCalls rt [⟨writer, .upload (leastUpload writer h columns hcolumns)⟩])
      (buildCacheKey rt writer columns) = some (leastMapping writer h) := by
  have hmade : mapWithCorrections rt writer (fun _ _ => .ok (leastMapping writer h)) .empty columns
      [] none = .ok (leastMapping writer h) := by
    rw [mapWithCorrections_none hne]
    refine mapUncorrected_ok.mpr ⟨rfl, ?_⟩
    intro m hm
    rw [List.mem_singleton.mp hm]
  have hmiss : RedisCache.getMapping .empty (buildCacheKey rt writer columns) = none := rfl
  have hstores : runCalls rt [⟨writer, .upload (leastUpload writer h columns hcolumns)⟩] =
      RedisCache.setMapping .empty (buildCacheKey rt writer columns) (leastMapping writer h) := by
    show serve rt writer .empty (.upload (leastUpload writer h columns hcolumns)) = _
    rw [serve, process_stores, leastUpload, csvUpload_ingested]
    dsimp only
    rw [obtainMapping_miss hmiss]
    simp only [csvUpload, hmade]
  rw [hstores, RedisCache.getMapping_setMapping, if_pos rfl]

end Undercut

/-- **When the threshold holds on every path.** Every result of every run on
a collection of services is confident enough for the service that returned
it, exactly if no service can read from one with a lower threshold. -/
theorem threshold_holds_iff (rt : Runtime) (services : Set MappingService)
    (hrange : ∀ svc ∈ services, 0 ≤ svc.confidenceThreshold ∧ svc.confidenceThreshold ≤ 1) :
    ThresholdHolds rt services ↔
      ∀ reader ∈ services, ∀ writer ∈ services, ReadsFrom rt reader writer →
        reader.confidenceThreshold ≤ writer.confidenceThreshold := by
  constructor
  · intro hholds reader hreader writer hwriter hreads
    obtain ⟨written, read, hwritten, hread, hne, hkey⟩ := hreads
    have hcached := leastUpload_cached rt (hrange writer hwriter) hwritten hne
    rw [← hkey] at hcached
    -- the writer stores its least mapping, and the reader's file hits it
    obtain ⟨result, hresult, hmapping⟩ := csvUpload_hit reader read hread
      (fun _ _ => .ok (leastMapping writer (hrange writer hwriter))) none
      (by intro m hm; rw [List.mem_singleton.mp hm]) hcached
    refine hholds _ ?_ reader hreader _ result hresult
      ⟨"", "", writer.confidenceThreshold, hrange writer hwriter⟩ ?_
    · intro call hcall
      rw [List.mem_singleton.mp hcall]
      exact hwriter
    · rw [hmapping]
      exact List.mem_singleton.mpr rfl
  · intro hcond calls hcalls svc hsvc u result hresult m hm
    obtain ⟨headers, hnodup, writer, hwriter, written, corrections, answer, hwritten, hkey, hmade,
      hasked, hconfident⟩ := result_written hcalls hsvc hresult
    rcases hmade.mem hm with ⟨kv, _, rfl⟩ | ⟨hanswer, _⟩
    · exact (hrange svc hsvc).2
    · have hne : written ≠ [] := hasked (List.ne_nil_of_mem hanswer)
      have hreads : ReadsFrom rt svc writer := ⟨written, headers, hwritten, hnodup, hne, hkey⟩
      exact le_trans (hcond svc hsvc writer hwriter hreads) (hconfident m hanswer)

/-- The premium schema under a service that takes every mapping. -/
def lenientService : MappingService := { schema := premiumSchema, confidenceThreshold := 0 }

/-- One service alone keeps its threshold. -/
theorem one_service_holds : ThresholdHolds .plain {premiumService} := by
  refine (threshold_holds_iff .plain {premiumService} ?_).mpr ?_
  · intro svc hsvc
    rw [Set.mem_singleton_iff.mp hsvc]
    exact ColumnMapping.certain
  · intro reader hreader writer hwriter _
    rw [Set.mem_singleton_iff.mp hreader, Set.mem_singleton_iff.mp hwriter]

/-- A guess without any confidence that PRMA is the gross premium. -/
def unsureGuess : ColumnMapping := ⟨"PRMA", "Gross_Premium", 0, le_rfl, zero_le_one⟩

def unsureUpload : Upload :=
  csvUpload ["PRMA"] (List.nodup_singleton _) (recallOne unsureGuess) none

/-- What the lenient service cached the strict one returns. -/
theorem lenient_mapping_returned : ¬ ThresholdHolds .plain {premiumService, lenientService} := by
  intro hholds
  obtain ⟨result, hresult, hmem⟩ : ∃ result,
      (unsureUpload.process .plain premiumService
        (runCalls .plain [⟨lenientService, .upload unsureUpload⟩])).1 = .ok result ∧
      unsureGuess ∈ result.mapping.mappings := by
    refine ⟨_, rfl, ?_⟩
    exact List.mem_singleton.mpr rfl
  have hconfident := hholds [⟨lenientService, .upload unsureUpload⟩] (by simp [CallsOn])
    premiumService (by simp) unsureUpload result hresult unsureGuess hmem
  have hthreshold : premiumService.confidenceThreshold = 1 := rfl
  rw [hthreshold, unsureGuess] at hconfident
  norm_num at hconfident

end RiskFlow
