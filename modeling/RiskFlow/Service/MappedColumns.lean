import RiskFlow.Service.DateMeaning
import RiskFlow.Service.RenamedColumns

/-!
# MappedColumns — from the columns of a file to the keys of its records

A mapped column is renamed to its target and goes through the record
model. The model has the fields of its schema, but for names with a leading
underscore, and no others, so a column whose target is not one of them ends
there.
-/

namespace RiskFlow

open Lib

/-! ## Cells under new names -/

namespace DataFrame
variable {df : DataFrame} {cells : List PyVal} {column : String} {v : PyVal}

/-- A row holds under a column the cell that stands next to it. -/
theorem get?_cells (hcells : cells ∈ df.rows) :
    (Dict.ofList (df.columns.zip cells)).get? column = some v ↔
      (column, v) ∈ df.columns.zip cells := by
  have hnames : ((df.columns.zip cells).map Prod.fst).Nodup := by
    rw [List.map_fst_zip (df.width cells hcells).ge]
    exact df.nodup
  rw [Dict.get?_eq_some, Dict.ofList_entries hnames]

/-- A row has a cell under each column of its table. -/
theorem exists_cell (hcells : cells ∈ df.rows) (hcolumn : column ∈ df.columns) :
    ∃ v, (Dict.ofList (df.columns.zip cells)).get? column = some v := by
  rw [← Dict.mem_keys, Dict.mem_keys_ofList, List.map_fst_zip (df.width cells hcells).ge]
  exact hcolumn

end DataFrame

section Rename
variable {df table : DataFrame} {mapping : MappingResult}

/-- The cell of a mapped column stands under its target. -/
def CarriesOver (mapping : MappingResult) (row row' : Row) : Prop :=
  ∀ m ∈ mapping.mappings, ∃ v, row.get? m.sourceHeader = some v ∧ row'.get? m.targetField = some v

/-- **Renaming carries the mapped cells over**, row by row. -/
theorem renameTable_carriesOver (h : renameTable df mapping = .ok table)
    (hsources : (mapping.mappings.map ColumnMapping.sourceHeader).Nodup)
    (hin : ∀ m ∈ mapping.mappings, m.sourceHeader ∈ df.columns) :
    List.Forall₂ (CarriesOver mapping) df.toDicts table.toDicts := by
  have hrows := renameTable_rows h
  rw [DataFrame.toDicts, DataFrame.toDicts, hrows, List.forall₂_map_left_iff,
    List.forall₂_map_right_iff, List.forall₂_same]
  intro cells hcells m hm
  obtain ⟨v, hv⟩ := DataFrame.exists_cell hcells (hin m hm)
  refine ⟨v, hv, (DataFrame.get?_cells (hrows ▸ hcells)).mpr ?_⟩
  rw [renameTable_columns h, renamedColumns_eq]
  exact mem_zip_renameAll ((DataFrame.get?_cells hcells).mp hv) (renameMap_of_mem hsources hm)

/-- The targets of mapped columns are columns of the renamed table. -/
theorem target_mem_columns (h : renameTable df mapping = .ok table)
    (hsources : (mapping.mappings.map ColumnMapping.sourceHeader).Nodup) {m : ColumnMapping}
    (hm : m ∈ mapping.mappings) (hin : m.sourceHeader ∈ df.columns) :
    m.targetField ∈ table.columns :=
  (mem_renamed_columns h).mpr (.inl ⟨m.sourceHeader, hin, renameMap_of_mem hsources hm⟩)

end Rename

/-! ## One record -/

/-- What validation makes of a cell under this target: a field of the schema
has it fitted to its type, a date in the format of its column; any other
target has the cell as it is. -/
def coercedCell (rt : Runtime) (schema : TargetSchema) (table : DataFrame) (target : String)
    (v : PyVal) : Except CheckFailure PyVal :=
  match schema.fields.get? target with
  | none => .ok v
  | some defn =>
      checkCell rt ⟨target, defn.type, defn.required⟩
        (if defn.type = .date then convertCell rt (columnFormat rt table target) v else v)

/-- The record has a key for every target, with the coerced value of the
mapped column of its row. -/
def KeepsColumns (rt : Runtime) (schema : TargetSchema) (table : DataFrame)
    (mappings : List ColumnMapping) (row record : Row) : Prop :=
  ∀ m ∈ mappings, ∃ v w, row.get? m.sourceHeader = some v ∧
    coercedCell rt schema table m.targetField v = .ok w ∧ record.get? m.targetField = some w

/-- Every target is a field of the schema's records. -/
def TargetsKnown (schema : TargetSchema) (mappings : List ColumnMapping) : Prop :=
  ∀ m ∈ mappings, m.targetField ∈ (modelFields schema).keys

section Record
variable {rt : Runtime} {svc : MappingService} {table : DataFrame} {row : Row}
variable {name : String} {defn : FieldDefinition}

/-- A field of another type than date is not converted. -/
theorem not_mem_dateFormats (hfield : svc.schema.fields.get? name = some defn)
    (hdate : defn.type ≠ .date) : name ∉ (dateFormats rt svc.schema table).map Prod.fst := by
  rw [dateFormats_names, List.mem_filter]
  rintro ⟨hname, _⟩
  obtain ⟨kv, hkv, rfl⟩ := List.mem_map.mp hname
  obtain ⟨hentry, htype⟩ := List.mem_filter.mp hkv
  have hget : svc.schema.fields.get? kv.1 = some kv.2 := Dict.get?_eq_some.mpr hentry
  cases hfield.symm.trans hget
  exact hdate (by simpa using htype)

/-- The conversion of a row, read under a field of the schema. -/
theorem converted_cell {row' : Row} {v : PyVal} (hcolumn : name ∈ table.columns)
    (hfield : svc.schema.fields.get? name = some defn) (hcell : row.get? name = some v)
    (h : convertDates rt (dateFormats rt svc.schema table) row = .ok row') :
    row'.get? name =
      some (if defn.type = .date then convertCell rt (columnFormat rt table name) v else v) := by
  by_cases hdate : defn.type = .date
  · rw [convertDates_date hfield hdate hcolumn h, hcell, if_pos hdate]
    rfl
  · rw [convertDates_get_other (not_mem_dateFormats hfield hdate) h, hcell, if_neg hdate]

/-- **Which records keep their columns**: those of mappings to fields of the
model. -/
theorem keepsColumns_iff {mapping : MappingResult} {original record : Row}
    (hcolumns : ∀ m ∈ mapping.mappings, m.targetField ∈ table.columns)
    (hcarried : CarriesOver mapping original row)
    (h : recordOfRow rt svc table row = .ok record) :
    KeepsColumns rt svc.schema table mapping.mappings original record ↔
      TargetsKnown svc.schema mapping.mappings := by
  obtain ⟨row', hconvert, hvalid⟩ := bind_eq_ok.mp h
  constructor
  · intro hkeeps m hm
    obtain ⟨_, w, _, _, hrecord⟩ := hkeeps m hm
    -- the record has no keys but the fields
    obtain ⟨value, _, rfl⟩ := modelValidate_record hvalid
    rw [← recordOf_keys svc.schema value]
    exact Dict.mem_keys.mpr ⟨w, hrecord⟩
  · intro hknown m hm
    obtain ⟨v, hv, hcell⟩ := hcarried m hm
    obtain ⟨defn, hmodel⟩ := Dict.mem_keys.mp (hknown m hm)
    have hfield := (modelFields_get?.mp hmodel).2
    have hconverted := converted_cell (hcolumns m hm) hfield hcell hconvert
    obtain ⟨w, hrecord, hchecked, _⟩ := modelValidate_cell hvalid hmodel hconverted
    refine ⟨v, w, hv, ?_, hrecord⟩
    simp only [coercedCell, hfield]
    exact hchecked

end Record

/-! ## The records of a file -/

section File
variable {rt : Runtime} {svc : MappingService} {mapping : MappingResult}
variable {df table : DataFrame} {result : ProcessingResult}

/-- The valid records are those of the rows no error is about. -/
theorem validRecords_rows (hrename : renameTable df mapping = .ok table)
    (h : validateTable rt svc mapping df = .ok result) :
    List.Forall₂ (fun row record => recordOfRow rt svc table row = .ok record)
      (withoutNumbers table.toDicts 1 (result.errors.map RowError.row)) result.validRecords := by
  obtain ⟨rows, hrows, _, hparts⟩ := validateTable_runs h
  obtain ⟨table', hrename', hrows⟩ := bind_eq_ok.mp hrows
  cases hrename.symm.trans hrename'
  refine forall₂_trans (forall₂_withoutNumbers (mapM_eq_ok.mp hrows) 1 _) hparts.reportsRows.valid
    fun row row' record hconvert hvalid => ?_
  exact bind_eq_ok.mpr ⟨row', hconvert, hvalid⟩

/-- There is no valid record exactly if the model accepts no row. -/
theorem validRecords_eq_nil {model : RecordModel} {rows : List Row}
    (h : Partitions rt model rows ⟨result.validRecords, result.invalidRecords, result.errors⟩) :
    result.validRecords = [] ↔ ∀ row ∈ rows, ¬ Accepts rt model row := by
  have hvalid : result.validRecords =
      rows.filterMap fun row => (modelValidate rt model row).toOption := h.valid
  rw [hvalid, List.filterMap_eq_nil_iff]
  refine forall₂_congr fun row _ => ?_
  rw [not_accepts_iff]
  cases modelValidate rt model row <;> simp [Except.toOption]

/-- Each valid record keeps the mapped columns of its row of the file: the
records come, in order, from the rows no error is about. -/
def RecordsKeepColumns (rt : Runtime) (schema : TargetSchema) (df table : DataFrame)
    (mappings : List ColumnMapping) (result : ProcessingResult) : Prop :=
  List.Forall₂ (KeepsColumns rt schema table mappings)
    (withoutNumbers df.toDicts 1 (result.errors.map RowError.row)) result.validRecords

/-- **When the records of a file keep the mapped columns**: if every target
is a field of the model, or there are no records to lack one. -/
theorem validateTable_keepsColumns {rows : List Row}
    (hrename : renameTable df mapping = .ok table)
    (hconverted : convertedRows rt svc mapping df = .ok rows)
    (hsources : (mapping.mappings.map ColumnMapping.sourceHeader).Nodup)
    (hin : ∀ m ∈ mapping.mappings, m.sourceHeader ∈ df.columns)
    (h : validateTable rt svc mapping df = .ok result) :
    RecordsKeepColumns rt svc.schema df table mapping.mappings result ↔
      TargetsKnown svc.schema mapping.mappings ∨
        ∀ row ∈ rows, ¬ Accepts rt (svc.recordModel rt) row := by
  obtain ⟨rows', hconverted', _, hparts⟩ := validateTable_runs h
  cases hconverted.symm.trans hconverted'
  have hcarried := forall₂_withoutNumbers (renameTable_carriesOver hrename hsources hin) 1
    (result.errors.map RowError.row)
  -- each record comes from a renamed row, and that from a row of the file
  have hpairs := forall₂_trans hcarried (validRecords_rows hrename h)
    fun original row record hcarries hrecord =>
      keepsColumns_iff (fun m hm => target_mem_columns hrename hsources hm (hin m hm)) hcarries
        hrecord
  rw [RecordsKeepColumns, forall₂_iff_const hpairs, validRecords_eq_nil hparts]

end File

end RiskFlow
