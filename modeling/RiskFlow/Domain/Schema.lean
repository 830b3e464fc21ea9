import RiskFlow.Python.Value

/-!
# Schema — mappings and processing results

`ColumnMapping`, `MappingResult`, `ConfidenceReport` and
`ProcessingResult`. A confidence is a rational in [0, 1] and the targets
of a `MappingResult` are pairwise distinct, both by construction: the
validators of the source are the only way to obtain a value.
-/

namespace RiskFlow

open Lib

/-- Maps a source spreadsheet header to a target schema field. -/
structure ColumnMapping where
  sourceHeader : String
  targetField : String
  confidence : ℚ
  confidenceInRange : 0 ≤ confidence ∧ confidence ≤ 1
  deriving DecidableEq

/-- The bounds of a confidence of 1.0. -/
theorem ColumnMapping.certain : (0 : ℚ) ≤ 1 ∧ (1 : ℚ) ≤ 1 := by decide

/-- `dupes` of `no_duplicate_target_fields`: the targets occurring more than once. -/
def duplicateTargets (mappings : List ColumnMapping) : List String :=
  let targets := mappings.map ColumnMapping.targetField
  targets.filter fun t => 1 < targets.count t

theorem duplicateTargets_eq_nil {mappings : List ColumnMapping} :
    duplicateTargets mappings = [] ↔ (mappings.map ColumnMapping.targetField).Nodup := by
  rw [List.nodup_iff_count_le_one]
  simp only [duplicateTargets, List.filter_eq_nil_iff, decide_eq_true_eq, Nat.not_lt]
  constructor
  · intro h t
    by_cases ht : t ∈ mappings.map ColumnMapping.targetField
    · exact h t ht
    · rw [List.count_eq_zero_of_not_mem ht]
      exact Nat.zero_le 1
  · intro h t _
    exact h t

/-- Result of header mapping. -/
structure MappingResult where
  mappings : List ColumnMapping
  unmappedHeaders : List String
  noDuplicateTargetFields : (mappings.map ColumnMapping.targetField).Nodup
  deriving DecidableEq

namespace MappingResult

/-- The constructor with its `no_duplicate_target_fields` validator. -/
def build (mappings : List ColumnMapping) (unmappedHeaders : List String) :
    Except PyErr MappingResult :=
  if h : duplicateTargets mappings = [] then
    .ok ⟨mappings, unmappedHeaders, duplicateTargets_eq_nil.mp h⟩
  else
    .error (.validationError [
      { loc := []
        msg := "Value error, MappingResult contains duplicate target fields: " ++
          Py.reprStrs (duplicateTargets mappings).dedup
        input := .none }])

theorem build_ok {ms : List ColumnMapping} {us : List String} {r : MappingResult}
    (h : build ms us = .ok r) : r.mappings = ms ∧ r.unmappedHeaders = us := by
  simp only [build] at h
  split at h
  · cases h
    exact ⟨rfl, rfl⟩
  · cases h

/-- The validator accepts exactly the lists without a repeated target. -/
theorem build_isOk_iff {ms : List ColumnMapping} {us : List String} :
    (∃ r, build ms us = .ok r) ↔ (ms.map ColumnMapping.targetField).Nodup := by
  rw [← duplicateTargets_eq_nil]
  unfold build
  by_cases h : duplicateTargets ms = []
  · simp [h]
  · simp [h]

theorem build_mappings (r : MappingResult) : build r.mappings r.unmappedHeaders = .ok r := by
  simp [build, duplicateTargets_eq_nil.mpr r.noDuplicateTargetFields]

/-- `validate_against_schema`: the first mapping with a foreign target raises. -/
def validateAgainstSchema (self : MappingResult) (validFields : List String) :
    Except PyErr Unit :=
  self.mappings.forM fun mapping =>
    if mapping.targetField ∈ validFields then pure ()
    else .error (.valueError ("target_field '" ++ mapping.targetField ++
      "' not in schema fields: " ++ Py.reprStrs (Py.sorted validFields)))

end MappingResult

/-! ## The confidence report -/

def defaultConfidenceReviewThreshold : ℚ := 6 / 10

/-- Summarizes mapping quality for human review. -/
structure ConfidenceReport where
  minConfidence : ℚ
  avgConfidence : ℚ
  lowConfidenceFields : List ColumnMapping
  missingFields : List String
  deriving DecidableEq

/-- `ConfidenceReport.from_mapping_result`. -/
def ConfidenceReport.fromMappingResult (result : MappingResult) (threshold : ℚ)
    (validFields : List String) : ConfidenceReport :=
  match result.mappings.map ColumnMapping.confidence with
  | [] =>
      { minConfidence := 0
        avgConfidence := 0
        lowConfidenceFields := []
        missingFields := Py.sorted validFields }
  | c :: confidences =>
      let mappedTargets := result.mappings.map ColumnMapping.targetField
      { minConfidence := confidences.foldl min c
        avgConfidence := (c :: confidences).sum / (c :: confidences).length
        lowConfidenceFields := result.mappings.filter fun m => m.confidence < threshold
        missingFields := Py.sorted (validFields.filter (· ∉ mappedTargets)) }

/-! ## Processing results -/

/-- A validation error for a specific field within a row. -/
structure FieldError where
  field : String
  message : String
  value : Option String
  deriving DecidableEq

/-- A validation error for a specific row. -/
structure RowError where
  row : Nat
  error : String
  fieldErrors : List FieldError
  deriving DecidableEq

/-- Full result of processing a spreadsheet: mapping and row validation. -/
structure ProcessingResult where
  mapping : MappingResult
  confidenceReport : ConfidenceReport
  validRecords : List Row
  invalidRecords : List Row
  errors : List RowError

/-! ## `model_dump` -/

def ColumnMapping.modelDump (m : ColumnMapping) : PyVal :=
  .dict [("source_header", .str m.sourceHeader), ("target_field", .str m.targetField),
    ("confidence", .float (.finite m.confidence))]

def MappingResult.modelDump (r : MappingResult) : PyVal :=
  .dict [("mappings", .list (r.mappings.map ColumnMapping.modelDump)),
    ("unmapped_headers", .list (r.unmappedHeaders.map .str))]

def ConfidenceReport.modelDump (r : ConfidenceReport) : PyVal :=
  .dict [("min_confidence", .float (.finite r.minConfidence)),
    ("avg_confidence", .float (.finite r.avgConfidence)),
    ("low_confidence_fields", .list (r.lowConfidenceFields.map ColumnMapping.modelDump)),
    ("missing_fields", .list (r.missingFields.map .str))]

def FieldError.modelDump (e : FieldError) : PyVal :=
  .dict [("field", .str e.field), ("message", .str e.message),
    ("value", match e.value with | none => .none | some v => .str v)]

def RowError.modelDump (e : RowError) : PyVal :=
  .dict [("row", .int e.row), ("error", .str e.error),
    ("field_errors", .list (e.fieldErrors.map FieldError.modelDump))]

/-- `ProcessingResult.model_dump()`: record values are `object`s and stay
the Python objects they are. -/
def ProcessingResult.modelDump (r : ProcessingResult) : Row :=
  .ofList [("mapping", r.mapping.modelDump),
    ("confidence_report", r.confidenceReport.modelDump),
    ("valid_records", .list (r.validRecords.map fun row => .dict row.entries)),
    ("invalid_records", .list (r.invalidRecords.map fun row => .dict row.entries)),
    ("errors", .list (r.errors.map RowError.modelDump))]

/-! ## JSON of a mapping -/

/-- A JSON number within the float type. Numeric strings, which pydantic
would read too, are written by no part of the program. -/
def numberOfJson : Json → Option ℚ
  | .float (.finite q) => some q
  | .int i => some i
  | _ => none

namespace ColumnMapping

def encode (m : ColumnMapping) : Json :=
  .obj [("source_header", .str m.sourceHeader), ("target_field", .str m.targetField),
    ("confidence", .float (.finite m.confidence))]

def decode (j : Json) : Option ColumnMapping := do
  let sourceHeader ← (← j.field "source_header").asStr
  let targetField ← (← j.field "target_field").asStr
  let confidence ← numberOfJson (← j.field "confidence")
  if h : 0 ≤ confidence ∧ confidence ≤ 1 then
    some ⟨sourceHeader, targetField, confidence, h⟩
  else none

def codec : Codec ColumnMapping where
  encode := encode
  decode := decode
  decode_encode m := by
    simp [encode, decode, Json.field, Json.lookupLast, numberOfJson, m.confidenceInRange]

end ColumnMapping

namespace MappingResult

/-- `model_dump_json`. -/
def encode (r : MappingResult) : Json :=
  .obj [("mappings", (Codec.list ColumnMapping.codec).encode r.mappings),
    ("unmapped_headers", (Codec.list Codec.str).encode r.unmappedHeaders)]

/-- `model_validate_json`, its `ValueError` as `none`. -/
def decode (j : Json) : Option MappingResult := do
  let mappings ← (Codec.list ColumnMapping.codec).decode (← j.field "mappings")
  let unmappedHeaders ← (Codec.list Codec.str).decode (← j.field "unmapped_headers")
  (build mappings unmappedHeaders).toOption

/-- **A cached mapping reads back as itself.** -/
def codec : Codec MappingResult where
  encode := encode
  decode := decode
  decode_encode r := by
    simp [encode, decode, Json.field, Json.lookupLast, Codec.decode_encode, build_mappings,
      Except.toOption]

end MappingResult

end RiskFlow
