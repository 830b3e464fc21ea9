import RiskFlow.Domain.RecordModel
import RiskFlow.Adapters.Ingestor

/-!
# RowValidation — reading, renaming and validating the rows of a file

`_validate_rows` of the mapping service, step by step under the source's
names: the rename map, the frame, the detected date formats, the
conversion of date cells, and the loop over the rows with its three
accumulators.
-/

namespace RiskFlow

open Lib

def defaultConfidenceThreshold : ℚ := 6 / 10

/-- What a service was constructed with. Its record model is `build_record_model`
of the schema, without which there is no service; the ports are arguments of
the functions that use them. -/
structure MappingService where
  schema : TargetSchema
  confidenceThreshold : ℚ := defaultConfidenceThreshold
  deriving DecidableEq

namespace MappingService

/-- `self._record_model`. -/
def recordModel (rt : Runtime) (self : MappingService) : RecordModel := recordClass rt self.schema

end MappingService

/-! ## The table -/

/-- `rename_map`: a later mapping of the same header overwrites. -/
def renameMap (mapping : MappingResult) : Dict String String :=
  .ofList (mapping.mappings.map fun m => (m.sourceHeader, m.targetField))

/-- The full file. -/
def readTable (files : Files) (filePath : String) (sheetName : Option String) :
    Except PyErr DataFrame :=
  if Py.endsWith filePath ".csv" then files.readCsv filePath none
  else files.readExcel filePath sheetName

/-- The rename of the mapped columns the file has. -/
def renameTable (df : DataFrame) (mapping : MappingResult) : Except PyErr DataFrame :=
  df.rename ((renameMap mapping).filterKeys fun k => decide (k ∈ df.columns))

/-! ## Date columns -/

/-- `date_field_names`. -/
def dateFieldNames (schema : TargetSchema) : List String :=
  (schema.fields.entries.filter fun kv => kv.2.type == .date).map Prod.fst

/-- `date_formats`: each date column with the format of its first five values. -/
def dateFormats (rt : Runtime) (schema : TargetSchema) (df : DataFrame) :
    List (String × Option DateFormat) :=
  ((dateFieldNames schema).filter (· ∈ df.columns)).map fun name =>
    let sample := ((df.head 5).column name).filter fun v => !v.isNone
    (name, detectDateFormat (sample.map rt.str))

/-- One cell of the conversion loop; a `ValueError` leaves it to the model. -/
def convertDate (rt : Runtime) (row : Row) (format : String × Option DateFormat) :
    Except PyErr Row :=
  match row.get? format.1 with
  | some (.str s) =>
      if Py.isBlank s then .ok row
      else match parseDate rt s format.2 with
        | .ok d => .ok (row.set format.1 (.date d))
        -- the cell stays a string, and the model's own date check decides
        | .error e => if e.isValueError then .ok row else .error e
  | _ => .ok row

def convertDates (rt : Runtime) (formats : List (String × Option DateFormat)) (row : Row) :
    Except PyErr Row :=
  formats.foldlM (convertDate rt) row

/-! ## The row loop -/

/-- The lists the loop appends to. -/
structure RowLists where
  validRecords : List Row := []
  invalidRecords : List Row := []
  errors : List RowError := []

/-- One entry of `e.errors()` as the loop reports it. -/
def fieldErrorOf (rt : Runtime) (err : ErrorDetails) : FieldError where
  field := err.loc.getLast?.getD "unknown"
  message := err.msg
  value := if err.input.isNone then none else some (rt.str err.input)

/-- The `RowError` of a caught exception. -/
def rowErrorOf (rt : Runtime) (row : Nat) (e : PyErr) : RowError where
  row := row
  error := rt.strErr e
  fieldErrors :=
    match e with
    | .validationError errors => errors.map (fieldErrorOf rt)
    | _ => []

/-- One round: the record, or the row with its error. Only
`(ValidationError, ValueError)` is caught. -/
def validateRow (rt : Runtime) (model : RecordModel) (lists : RowLists) (row : Row × Nat) :
    Except PyErr RowLists :=
  match modelValidate rt model row.1 with
  | .ok record => .ok { lists with validRecords := lists.validRecords ++ [record] }
  | .error e =>
      -- `ValidationError` is a `ValueError`; anything else ends the loop
      if e.isValueError then
        .ok { lists with
          invalidRecords := lists.invalidRecords ++ [row.1]
          errors := lists.errors ++ [rowErrorOf rt (row.2 + 1) e] }
      else .error e

/-- `for i, row in enumerate(rows)`. -/
def rowLoop (rt : Runtime) (model : RecordModel) (rows : List Row) : Except PyErr RowLists :=
  rows.zipIdx.foldlM (validateRow rt model) {}

/-- `_validate_rows` from the frame on. -/
def validateTable (rt : Runtime) (svc : MappingService) (mapping : MappingResult)
    (df : DataFrame) : Except PyErr ProcessingResult := do
  let df ← renameTable df mapping
  let rows ← df.toDicts.mapM (convertDates rt (dateFormats rt svc.schema df))
  let lists ← rowLoop rt (svc.recordModel rt) rows
  pure {
    mapping
    confidenceReport :=
      .fromMappingResult mapping svc.confidenceThreshold svc.schema.fieldNames
    validRecords := lists.validRecords
    invalidRecords := lists.invalidRecords
    errors := lists.errors }

/-- What validating a table goes through, and what it returns. -/
theorem validateTable_ok {rt : Runtime} {svc : MappingService} {mapping : MappingResult}
    {df : DataFrame} {result : ProcessingResult}
    (h : validateTable rt svc mapping df = .ok result) :
    ∃ table rows lists, renameTable df mapping = .ok table ∧
      table.toDicts.mapM (convertDates rt (dateFormats rt svc.schema table)) = .ok rows ∧
      rowLoop rt (svc.recordModel rt) rows = .ok lists ∧
      result = ⟨mapping,
        .fromMappingResult mapping svc.confidenceThreshold svc.schema.fieldNames,
        lists.validRecords, lists.invalidRecords, lists.errors⟩ := by
  obtain ⟨table, htable, h⟩ := bind_eq_ok.mp h
  obtain ⟨rows, hrows, h⟩ := bind_eq_ok.mp h
  obtain ⟨lists, hloop, h⟩ := bind_eq_ok.mp h
  cases h
  exact ⟨table, rows, lists, htable, hrows, hloop, rfl⟩

/-- `_validate_rows`. -/
def validateRows (rt : Runtime) (svc : MappingService) (files : Files) (filePath : String)
    (mapping : MappingResult) (sheetName : Option String) : Except PyErr ProcessingResult := do
  let df ← readTable files filePath sheetName
  validateTable rt svc mapping df

end RiskFlow
