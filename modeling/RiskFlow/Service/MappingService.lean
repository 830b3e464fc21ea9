import RiskFlow.Service.RowValidation
import RiskFlow.Adapters.Caches

/-!
# MappingService — mapping a file with cache, corrections and mapper

`process_file` and what it calls. An operation takes the two caches as
they are and returns them as they are afterwards; the mapper and the
files are what they are during the call.
-/

namespace RiskFlow

open Lib

/-- `MapperPort.map_headers`: source headers and their preview rows to a
mapping, or an exception. -/
abbrev Mapper := List String → List Row → Except PyErr MappingResult

namespace MappingService

/-! ## Corrections -/

/-- `store_correction`. -/
def storeCorrection (svc : MappingService) (stores : Stores) (correction : Correction) :
    Except PyErr Stores :=
  if correction.targetField ∉ svc.schema.fieldNames then
    .error (.invalidCorrectionError ("Correction target '" ++ correction.targetField ++
      "' not in schema fields: " ++ Py.reprStrs (Py.sorted svc.schema.fieldNames)))
  else .ok (RedisCorrectionCache.setCorrection stores correction)

/-- The corrections looked up for an upload; without a cedent there are none. -/
def correctionsFor (stores : Stores) (headers : List String) (cedentId : Option String) :
    Dict String String :=
  match cedentId with
  | none => ∅
  | some c => if c.isEmpty then ∅ else RedisCorrectionCache.getCorrections stores c headers

/-- `_validate_corrections`. -/
def validateCorrections (svc : MappingService) (corrections : Dict String String) :
    Except PyErr Unit :=
  corrections.entries.forM fun (header, target) =>
    if target ∉ svc.schema.fieldNames then
      .error (.invalidCorrectionError ("Correction for '" ++ header ++ "' references target '" ++
        target ++ "' which is not in schema fields: " ++
        Py.reprStrs (Py.sorted svc.schema.fieldNames)))
    else pure ()

/-! ## The mapper -/

/-- `_check_confidence`. -/
def checkConfidence (rt : Runtime) (svc : MappingService) (result : MappingResult) :
    Except PyErr Unit :=
  result.mappings.forM fun mapping =>
    if mapping.confidence < svc.confidenceThreshold then
      .error (.mappingConfidenceLowError ("Mapping '" ++ mapping.sourceHeader ++ "' -> '" ++
        mapping.targetField ++ "' has confidence " ++ rt.reprFloat (.finite mapping.confidence) ++
        ", below threshold " ++ rt.reprFloat (.finite svc.confidenceThreshold)))
    else pure ()

/-- The mapping of one correction. -/
def correctedMapping (correction : String × String) : ColumnMapping where
  sourceHeader := correction.1
  targetField := correction.2
  confidence := 1
  confidenceInRange := ColumnMapping.certain

/-- The headers the mapper is asked about. -/
def uncorrectedHeaders (headers : List String) (corrections : Dict String String) : List String :=
  headers.filter fun h => h ∉ corrections.keys

/-- The rows the mapper sees. -/
def uncorrectedPreview (headers : List String) (preview : List Row) : List Row :=
  preview.map fun row => row.filterKeys fun k => decide (k ∈ headers)

/-- The mapper's answer for the uncorrected headers, confidence checked. -/
def mapUncorrected (rt : Runtime) (svc : MappingService) (mapper : Mapper) (headers : List String)
    (preview : List Row) : Except PyErr MappingResult := do
  let slmResult ← mapper headers (uncorrectedPreview headers preview)
  checkConfidence rt svc slmResult
  pure slmResult

/-- `_map_with_corrections`. -/
def mapWithCorrections (rt : Runtime) (svc : MappingService) (mapper : Mapper) (stores : Stores)
    (headers : List String) (preview : List Row) (cedentId : Option String) :
    Except PyErr MappingResult := do
  let corrections := correctionsFor stores headers cedentId
  validateCorrections svc corrections
  -- corrections come first and win; the mapper is not asked about their headers
  let correctedMappings := corrections.entries.map correctedMapping
  let uncorrected := uncorrectedHeaders headers corrections
  if uncorrected.isEmpty then
    MappingResult.build correctedMappings []
  else
    let slmResult ← mapUncorrected rt svc mapper uncorrected preview
    -- a target that a correction has taken is dropped from the mapper's answer
    let filteredSlm := slmResult.mappings.filter fun m => m.targetField ∉ corrections.values
    MappingResult.build (correctedMappings ++ filteredSlm) slmResult.unmappedHeaders

/-! ## The upload -/

/-- The headers as they enter the cache key. -/
def normalizedHeaders (rt : Runtime) (headers : List String) : String :=
  "|".intercalate (Py.sorted (headers.map fun h => Py.strip (rt.lower h)))

/-- `_build_cache_key`. -/
def buildCacheKey (rt : Runtime) (svc : MappingService) (headers : List String) : String :=
  rt.sha256 (svc.schema.fingerprint rt ++ ":" ++ normalizedHeaders rt headers)

/-- The headers and preview rows `process_file` starts from. -/
def ingest (rt : Runtime) (files : Files) (filePath : String) (sheetName : Option String) :
    Except PyErr (List String × List Row) := do
  let headers ← PolarsIngestor.getHeaders rt files filePath sheetName
  let preview ← PolarsIngestor.getPreview rt files filePath sheetName
  pure (headers, preview)

/-- The mapping an upload uses, and the caches once it has it: the cached
mapping, or a new one that is cached. -/
def obtainMapping (rt : Runtime) (svc : MappingService) (mapper : Mapper) (stores : Stores)
    (headers : List String) (preview : List Row) (cedentId : Option String) :
    Except PyErr MappingResult × Stores :=
  let cacheKey := buildCacheKey rt svc headers
  -- a hit returns before the corrections are looked up
  match RedisCache.getMapping stores cacheKey with
  | some mapping => (.ok mapping, stores)
  | none =>
      match mapWithCorrections rt svc mapper stores headers preview cedentId with
      | .error e => (.error e, stores)
      | .ok mapping => (.ok mapping, RedisCache.setMapping stores cacheKey mapping)

/-- `process_file`. -/
def processFile (rt : Runtime) (svc : MappingService) (files : Files) (mapper : Mapper)
    (filePath : String) (sheetName cedentId : Option String) (stores : Stores) :
    Except PyErr ProcessingResult × Stores :=
  match ingest rt files filePath sheetName with
  | .error e => (.error e, stores)
  | .ok (headers, preview) =>
      match obtainMapping rt svc mapper stores headers preview cedentId with
      | (.error e, stores) => (.error e, stores)
      | (.ok mapping, stores) => (validateRows rt svc files filePath mapping sheetName, stores)

/-! ## What the operations do -/

section Spec
variable {rt : Runtime} {svc : MappingService} {mapper : Mapper} {stores : Stores}
  {headers : List String} {preview : List Row} {cedentId : Option String}

theorem storeCorrection_of_mem {k : Correction} (h : k.targetField ∈ svc.schema.fieldNames) :
    svc.storeCorrection stores k = .ok (RedisCorrectionCache.setCorrection stores k) :=
  if_neg (not_not.mpr h)

theorem storeCorrection_of_not_mem (stores : Stores) {k : Correction}
    (h : k.targetField ∉ svc.schema.fieldNames) :
    ∃ e, svc.storeCorrection stores k = .error e :=
  ⟨_, if_pos h⟩

theorem validateCorrections_ok {corrections : Dict String String} :
    svc.validateCorrections corrections = .ok () ↔
      ∀ kv ∈ corrections.entries, kv.2 ∈ svc.schema.fieldNames := by
  rw [validateCorrections, forM_eq_ok]
  refine forall₂_congr fun kv _ => ?_
  by_cases hfield : kv.2 ∈ svc.schema.fieldNames
  · simp [hfield, pure, Except.pure]
  · simp [hfield]

theorem checkConfidence_ok (rt : Runtime) {r : MappingResult} :
    checkConfidence rt svc r = .ok () ↔
      ∀ m ∈ r.mappings, svc.confidenceThreshold ≤ m.confidence := by
  rw [checkConfidence, forM_eq_ok]
  refine forall₂_congr fun m _ => ?_
  by_cases hlow : m.confidence < svc.confidenceThreshold
  · simp [hlow]
  · simp [hlow, pure, Except.pure, not_lt.mp hlow]

/-- The mapper's answer is taken when every confidence passes the check. -/
theorem mapUncorrected_ok {slmResult : MappingResult} :
    mapUncorrected rt svc mapper headers preview = .ok slmResult ↔
      mapper headers (uncorrectedPreview headers preview) = .ok slmResult ∧
        ∀ m ∈ slmResult.mappings, svc.confidenceThreshold ≤ m.confidence := by
  rw [mapUncorrected, bind_eq_ok, ← checkConfidence_ok rt]
  constructor
  · intro h
    obtain ⟨r, hr, hrest⟩ := h
    obtain ⟨u, hcheck, hsame⟩ := bind_eq_ok.mp hrest
    cases hsame
    exact ⟨hr, hcheck⟩
  · intro h
    obtain ⟨hr, hcheck⟩ := h
    exact ⟨slmResult, hr, bind_eq_ok.mpr ⟨(), hcheck, rfl⟩⟩

theorem mem_uncorrectedHeaders {corrections : Dict String String} {h : String} :
    h ∈ uncorrectedHeaders headers corrections ↔ h ∈ headers ∧ corrections.get? h = none := by
  simp [uncorrectedHeaders, Dict.get?_eq_none]

theorem correctionsFor_get? {h t : String}
    (hget : (correctionsFor stores headers cedentId).get? h = some t) :
    h ∈ headers := by
  unfold correctionsFor at hget
  split at hget
  · cases hget
  · split at hget
    · cases hget
    · rw [RedisCorrectionCache.getCorrections_get?] at hget
      split at hget
      · assumption
      · cases hget

theorem correctionsFor_some {c h : String} (hc : c ≠ "") (hmem : h ∈ headers) :
    (correctionsFor stores headers (some c)).get? h =
      (RedisCorrectionCache.hashOf stores c).get? h := by
  have hne : c.isEmpty = false := by simpa using hc
  simp [correctionsFor, hne, RedisCorrectionCache.getCorrections_get?, hmem]

/-- A mapping made for an upload: its corrections first, each certain, then
what the mapper answered about the other headers. -/
structure MadeFrom (svc : MappingService) (headers : List String) (corrections : Dict String String)
    (answer : List ColumnMapping) (mapping : MappingResult) : Prop where
  split : mapping.mappings = corrections.entries.map correctedMapping ++
    answer.filter fun m => m.targetField ∉ corrections.values
  valid : ∀ kv ∈ corrections.entries, kv.2 ∈ svc.schema.fieldNames
  headers : ∀ kv ∈ corrections.entries, kv.1 ∈ headers

/-- The answer the mapper gave: none if it was not asked. -/
def AnswerOf (rt : Runtime) (svc : MappingService) (mapper : Mapper) (stores : Stores)
    (headers : List String) (preview : List Row) (cedentId : Option String)
    (answer : List ColumnMapping) : Prop :=
  let uncorrected := uncorrectedHeaders headers (correctionsFor stores headers cedentId)
  (uncorrected = [] ∧ answer = []) ∨
    (uncorrected ≠ [] ∧ ∃ slmResult,
      mapUncorrected rt svc mapper uncorrected preview = .ok slmResult ∧
      slmResult.mappings = answer)

theorem AnswerOf.unique {answer answer' : List ColumnMapping}
    (h : AnswerOf rt svc mapper stores headers preview cedentId answer)
    (h' : AnswerOf rt svc mapper stores headers preview cedentId answer') : answer = answer' := by
  rcases h with ⟨hnil, ha⟩ | ⟨hne, r, hr, ha⟩ <;> rcases h' with ⟨hnil', ha'⟩ | ⟨hne', r', hr', ha'⟩
  · rw [ha, ha']
  · exact absurd hnil hne'
  · exact absurd hnil' hne
  · have hsame : r = r' := by
      rw [hr] at hr'
      exact Except.ok.inj hr'
    rw [← ha, ← ha', hsame]

/-- What is in an answer the mapper returned, for headers of the file. -/
theorem AnswerOf.returned {answer : List ColumnMapping} {m : ColumnMapping}
    (h : AnswerOf rt svc mapper stores headers preview cedentId answer) (hm : m ∈ answer) :
    ∃ asked rows r, (∀ x ∈ asked, x ∈ headers) ∧ mapper asked rows = .ok r ∧ m ∈ r.mappings := by
  rcases h with ⟨_, rfl⟩ | ⟨_, slmResult, hslm, rfl⟩
  · cases hm
  · obtain ⟨hr, _⟩ := mapUncorrected_ok.mp hslm
    exact ⟨_, _, _, fun x hx => (mem_uncorrectedHeaders.mp hx).1, hr, hm⟩

/-- A correction that was applied is in the mapping, certain. -/
theorem MadeFrom.corrected {corrections : Dict String String} {answer : List ColumnMapping}
    {mapping : MappingResult} (h : MadeFrom svc headers corrections answer mapping)
    {header target : String} (hget : corrections.get? header = some target) :
    correctedMapping (header, target) ∈ mapping.mappings := by
  rw [h.split]
  exact List.mem_append_left _ (List.mem_map.mpr ⟨_, Dict.get?_eq_some.mp hget, rfl⟩)

/-- A mapping is a correction or comes from the mapper. -/
theorem MadeFrom.mem {corrections : Dict String String} {answer : List ColumnMapping}
    {mapping : MappingResult} (h : MadeFrom svc headers corrections answer mapping)
    {m : ColumnMapping} (hm : m ∈ mapping.mappings) :
    (∃ kv ∈ corrections.entries, m = correctedMapping kv) ∨
      (m ∈ answer ∧ m.targetField ∉ corrections.values) := by
  rw [h.split, List.mem_append] at hm
  rcases hm with hm | hm
  · obtain ⟨kv, hkv, rfl⟩ := List.mem_map.mp hm
    exact .inl ⟨kv, hkv, rfl⟩
  · obtain ⟨hmem, hp⟩ := List.mem_filter.mp hm
    exact .inr ⟨hmem, by simpa using hp⟩

/-- **What a new mapping is made of.** -/
theorem mapWithCorrections_ok {mapping : MappingResult}
    (h : mapWithCorrections rt svc mapper stores headers preview cedentId = .ok mapping) :
    ∃ answer, AnswerOf rt svc mapper stores headers preview cedentId answer ∧
      MadeFrom svc headers (correctionsFor stores headers cedentId) answer mapping := by
  unfold mapWithCorrections at h
  obtain ⟨_, hvalid, h⟩ := bind_eq_ok.mp h
  have hfields := validateCorrections_ok.mp hvalid
  have hheaders : ∀ kv ∈ (correctionsFor stores headers cedentId).entries, kv.1 ∈ headers :=
    fun kv hkv => correctionsFor_get? (Dict.get?_eq_some.mpr hkv)
  dsimp only at h
  split at h
  · rename_i hempty
    obtain ⟨hmappings, _⟩ := MappingResult.build_ok h
    refine ⟨[], .inl ⟨List.isEmpty_iff.mp hempty, rfl⟩, ?_, hfields, hheaders⟩
    simpa using hmappings
  · rename_i hne
    obtain ⟨slmResult, hslm, h⟩ := bind_eq_ok.mp h
    obtain ⟨hmappings, _⟩ := MappingResult.build_ok h
    exact ⟨slmResult.mappings, .inr ⟨by simpa using hne, slmResult, hslm, rfl⟩,
      hmappings, hfields, hheaders⟩

/-- Without a cedent the mapper is asked about every header, and its accepted
answer is the mapping. -/
theorem mapWithCorrections_none (hne : headers ≠ []) :
    mapWithCorrections rt svc mapper stores headers preview none =
      mapUncorrected rt svc mapper headers preview := by
  have hasked : uncorrectedHeaders headers ∅ = headers :=
    List.filter_eq_self.mpr fun h _ => by
      simp [Dict.keys, EmptyCollection.emptyCollection, Dict.empty]
  have hvalid : svc.validateCorrections ∅ = .ok () := rfl
  have hnonempty : headers.isEmpty = false := by simpa using hne
  simp only [mapWithCorrections, correctionsFor, hvalid, hasked, hnonempty]
  cases hslm : mapUncorrected rt svc mapper headers preview with
  | error e => rfl
  | ok r =>
      have hkept : (r.mappings.filter fun m => m.targetField ∉ (∅ : Dict String String).values) =
          r.mappings :=
        List.filter_eq_self.mpr fun m _ => by
          simp [Dict.values, EmptyCollection.emptyCollection, Dict.empty]
      exact (congrArg (fun ms => MappingResult.build ms r.unmappedHeaders) hkept).trans
        r.build_mappings

/-- The result of validation carries the mapping it was made with. -/
theorem validateRows_mapping {files : Files} {filePath : String} {sheetName : Option String}
    {mapping : MappingResult} {result : ProcessingResult}
    (h : validateRows rt svc files filePath mapping sheetName = .ok result) :
    result.mapping = mapping := by
  obtain ⟨df, _, h⟩ := bind_eq_ok.mp h
  obtain ⟨_, _, _, _, _, _, rfl⟩ := validateTable_ok h
  rfl

theorem obtainMapping_hit {mapping : MappingResult}
    (h : RedisCache.getMapping stores (buildCacheKey rt svc headers) = some mapping) :
    obtainMapping rt svc mapper stores headers preview cedentId = (.ok mapping, stores) := by
  simp [obtainMapping, h]

theorem obtainMapping_miss
    (h : RedisCache.getMapping stores (buildCacheKey rt svc headers) = none) :
    obtainMapping rt svc mapper stores headers preview cedentId =
      (mapWithCorrections rt svc mapper stores headers preview cedentId,
        match mapWithCorrections rt svc mapper stores headers preview cedentId with
        | .error _ => stores
        | .ok mapping => RedisCache.setMapping stores (buildCacheKey rt svc headers) mapping) := by
  simp only [obtainMapping, h]
  split <;> simp_all

/-- **What an upload that returns a result did**: it ingested its file,
obtained the result's mapping and validated the rows with it. -/
theorem processFile_runs {files : Files} {filePath : String} {sheetName : Option String}
    {result : ProcessingResult}
    (h : (processFile rt svc files mapper filePath sheetName cedentId stores).1 = .ok result) :
    ∃ headers preview, ingest rt files filePath sheetName = .ok (headers, preview) ∧
      (obtainMapping rt svc mapper stores headers preview cedentId).1 = .ok result.mapping ∧
      validateRows rt svc files filePath result.mapping sheetName = .ok result := by
  unfold processFile at h
  split at h
  · cases h
  · rename_i headers preview hin
    refine ⟨headers, preview, hin, ?_⟩
    split at h
    · cases h
    · rename_i mapping _ hob
      rw [hob, validateRows_mapping h]
      exact ⟨rfl, h⟩

theorem processFile_ok {files : Files} {filePath : String} {sheetName : Option String}
    {result : ProcessingResult}
    (h : (processFile rt svc files mapper filePath sheetName cedentId stores).1 = .ok result) :
    ∃ headers preview, ingest rt files filePath sheetName = .ok (headers, preview) ∧
      (obtainMapping rt svc mapper stores headers preview cedentId).1 = .ok result.mapping := by
  obtain ⟨headers, preview, hin, hob, _⟩ := processFile_runs h
  exact ⟨headers, preview, hin, hob⟩

end Spec

end MappingService

end RiskFlow
