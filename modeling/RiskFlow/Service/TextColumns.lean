import RiskFlow.Service.MappedColumns

/-!
# TextColumns — text fields and columns that look like numbers

polars chooses the type of a column from all of its cells, and the record
model checks each cell by itself. A text that is a number reaches the check
as a number when every other cell of its column is one as well.
-/

namespace RiskFlow

open Lib

/-! ## Reading a CSV file -/

/-- The cells of a CSV file as they are written. -/
structure CsvText where
  columns : List String
  rows : List (List String)

/-- The cells under a header. -/
def CsvText.column (text : CsvText) (name : String) : List String :=
  text.rows.filterMap fun row => lookup (text.columns.zip row) name

/-- An integer literal: ASCII digits with an optional sign. -/
def isIntegerLiteral (s : String) : Bool :=
  let digits := match s.toList with
    | '+' :: rest | '-' :: rest => rest
    | cs => cs
  !digits.isEmpty && digits.all fun c => decide ('0' ≤ c ∧ c ≤ '9')

/-- The values polars gives a column whose cells are all filled; `number` tells
the texts it reads as numbers. -/
structure InfersColumn (number : String → Bool) (cells : List String) (values : List PyVal) :
    Prop where
  length : values.length = cells.length
  /-- `Int64`. -/
  integers : (∀ s ∈ cells, isIntegerLiteral s = true) → ∀ v ∈ values, ∃ i, v = .int i
  /-- `Float64`. -/
  floats : (∀ s ∈ cells, number s = true) → (∃ s ∈ cells, isIntegerLiteral s = false) →
    ∀ v ∈ values, ∃ x, v = .float x
  /-- `String`. -/
  texts : (∃ s ∈ cells, number s = false) → values = cells.map .str

/-- The frame `pl.read_csv` makes of the text. -/
structure ReadsCsv (number : String → Bool) (text : CsvText) (df : DataFrame) : Prop where
  columns : df.columns = text.columns
  inferred : ∀ c ∈ text.columns, (∀ s ∈ text.column c, Py.isBlank s = false) →
    InfersColumn number (text.column c) (df.column c)

/-- pydantic's `str` accepts exactly the strings among strings and numbers. -/
structure StrictText (rt : Runtime) : Prop where
  str : ∀ s, rt.pydanticStr (.str s) = .ok s
  int : ∀ i, ∃ msg, rt.pydanticStr (.int i) = .error msg
  float : ∀ x, ∃ msg, rt.pydanticStr (.float x) = .error msg

/-! ## One column through the loop -/

section Column
variable {rt : Runtime} {svc : MappingService} {mapping : MappingResult} {df : DataFrame}
  {rows : List Row} {c name : String} {defn : FieldDefinition}

/-- Under its target the rows hold the cells of a mapped column that is no date. -/
theorem convertedRows_column (h : convertedRows rt svc mapping df = .ok rows)
    (hcolumn : c ∈ df.columns) (hmapped : (renameMap mapping).get? c = some name)
    (hfield : svc.schema.fields.get? name = some defn) (hdate : defn.type ≠ .date) :
    rows.map (fun row => row.get? name) = (df.column c).map some := by
  obtain ⟨table, htable, hconverted⟩ := bind_eq_ok.mp h
  have hrows := renameTable_rows htable
  have hkept : rows.map (fun row => row.get? name) =
      table.toDicts.map fun row => row.get? name := by
    have hpairs := mapM_eq_ok.mp hconverted
    rw [← List.forall₂_eq_eq_eq, List.forall₂_map_left_iff, List.forall₂_map_right_iff]
    refine hpairs.flip.imp fun row' row hrow => ?_
    exact convertDates_get_other (not_mem_dateFormats hfield hdate) hrow
  have hcells : ∀ cells ∈ df.rows, (Dict.ofList (table.columns.zip cells)).get? name =
      some (((Dict.ofList (df.columns.zip cells)).get? c).getD .none) := by
    intro cells hmem
    obtain ⟨v, hv⟩ := DataFrame.exists_cell hmem hcolumn
    rw [hv, Option.getD_some]
    refine (DataFrame.get?_cells (hrows ▸ hmem)).mpr ?_
    rw [renameTable_columns htable, renamedColumns_eq]
    exact mem_zip_renameAll ((DataFrame.get?_cells hmem).mp hv) hmapped
  rw [hkept]
  simp only [DataFrame.toDicts, DataFrame.column, List.map_map, hrows]
  exact List.map_congr_left hcells

/-- A required text field takes exactly the texts that its constraint takes. -/
theorem validateField_text (hstrict : StrictText rt) {row : Row} {v : PyVal}
    (hfield : (modelFields svc.schema).get? name = some defn) (htext : defn.type = .string)
    (hreq : defn.required = true) (hcell : row.get? name = some v)
    (hkind : (∃ i, v = .int i) ∨ (∃ x, v = .float x) ∨ ∃ s, v = .str s ∧ Py.isBlank s = false) :
    (∃ w, validateField rt (recordClass rt svc.schema) row
        ⟨name, defn.type, defn.required⟩ = .value w) ↔ ∃ s, v = .str s := by
  have hchecked : checkCell rt ⟨name, defn.type, defn.required⟩ v =
      ((rt.pydanticStr v).map .str).mapError .invalid := by
    simp [checkCell, hreq, checkType, htext]
  rcases hkind with ⟨i, rfl⟩ | ⟨x, rfl⟩ | ⟨s, rfl, hfilled⟩
  · obtain ⟨msg, hmsg⟩ := hstrict.int i
    rw [hmsg] at hchecked
    simp [validateField_unfit hcell hchecked]
  · obtain ⟨msg, hmsg⟩ := hstrict.float x
    rw [hmsg] at hchecked
    simp [validateField_unfit hcell hchecked]
  · rw [hstrict.str] at hchecked
    refine iff_of_true ⟨.str s, validateField_value_iff.mpr (.inr ⟨_, hcell, hchecked, ?_⟩)⟩
      ⟨s, rfl⟩
    rw [recordClass_validators hfield]
    refine attached_pass_iff.mpr ⟨fun hnn => ?_, fun _ => ⟨s, rfl, hfilled⟩, fun allowed ha => ?_⟩
    · cases htext.symm.trans (defn.constraints.1 hnn)
    · cases htext.symm.trans (defn.constraints.2.2 (by simp [ha]))

/-- No row is rejected on account of the field, if the model has one of the name. -/
def NeverRejectedFor (rt : Runtime) (schema : TargetSchema) (rows : List Row) (name : String) :
    Prop :=
  ∀ row ∈ rows, ∀ spec ∈ fieldSpecs schema, spec.name = name →
    ∃ w, validateField rt (recordClass rt schema) row spec = .value w

/-- The field of a name is the one of its definition. -/
theorem neverRejectedFor_field (hfield : (modelFields svc.schema).get? name = some defn) :
    NeverRejectedFor rt svc.schema rows name ↔ ∀ row ∈ rows, ∃ w,
      validateField rt (recordClass rt svc.schema) row
        ⟨name, defn.type, defn.required⟩ = .value w := by
  refine forall₂_congr fun row _ => ?_
  constructor
  · exact fun hall => hall _ (mem_fieldSpecs.mpr ⟨defn, hfield, rfl, rfl⟩) rfl
  · rintro hone ⟨_, type, required⟩ hspec rfl
    obtain ⟨defn', hget, ht, hr⟩ := mem_fieldSpecs.mp hspec
    cases hfield.symm.trans hget
    dsimp only at ht hr
    rw [ht, hr]
    exact hone

/-- **A filled column passes a text field when all of it is text.** -/
theorem neverRejectedFor_iff (hstrict : StrictText rt)
    (hvalues : rows.map (fun row => row.get? name) = (df.column c).map some)
    (hfield : (modelFields svc.schema).get? name = some defn) (htext : defn.type = .string)
    (hreq : defn.required = true)
    (hkinds : ∀ v ∈ df.column c,
      (∃ i, v = .int i) ∨ (∃ x, v = .float x) ∨ ∃ s, v = .str s ∧ Py.isBlank s = false) :
    NeverRejectedFor rt svc.schema rows name ↔ ∀ v ∈ df.column c, ∃ s, v = .str s := by
  rw [neverRejectedFor_field hfield]
  constructor
  · intro hnever v hv
    have hmem : some v ∈ rows.map fun row => row.get? name := by
      rw [hvalues]
      exact List.mem_map_of_mem hv
    obtain ⟨row, hrow, hcell⟩ := List.mem_map.mp hmem
    exact (validateField_text hstrict hfield htext hreq hcell (hkinds v hv)).mp (hnever row hrow)
  · intro hall row hrow
    have hmem : row.get? name ∈ (df.column c).map some := by
      rw [← hvalues]
      exact List.mem_map_of_mem hrow
    obtain ⟨v, hv, hcell⟩ := List.mem_map.mp hmem
    exact (validateField_text hstrict hfield htext hreq hcell.symm (hkinds v hv)).mpr (hall v hv)

end Column

/-- A filled column is text throughout, or numbers throughout. -/
theorem InfersColumn.kinds {number : String → Bool} {cells : List String} {values : List PyVal}
    (h : InfersColumn number cells values) :
    ((∃ s ∈ cells, number s = false) ∧ values = cells.map .str) ∨
      (∀ s ∈ cells, number s = true) ∧
        ∀ v ∈ values, (∃ i, v = .int i) ∨ ∃ x, v = .float x := by
  by_cases htext : ∃ s ∈ cells, number s = false
  · exact .inl ⟨htext, h.texts htext⟩
  · have hnumbers : ∀ s ∈ cells, number s = true := by simpa using htext
    refine .inr ⟨hnumbers, fun v hv => ?_⟩
    by_cases hfloat : ∃ s ∈ cells, isIntegerLiteral s = false
    · exact .inr (h.floats hnumbers hfloat v hv)
    · exact .inl (h.integers (by simpa using hfloat) v hv)

/-- **It is text throughout** unless it has cells, and numbers alone. -/
theorem InfersColumn.all_text_iff {number : String → Bool} {cells : List String}
    {values : List PyVal} (h : InfersColumn number cells values) :
    (∀ v ∈ values, ∃ s, v = .str s) ↔ cells = [] ∨ ∃ s ∈ cells, number s = false := by
  have hlength := h.length
  rcases h.kinds with ⟨hsome, hstrings⟩ | ⟨hnumbers, hkinds⟩
  · refine iff_of_true (fun v hv => ?_) (.inr hsome)
    rw [hstrings] at hv
    obtain ⟨s, _, rfl⟩ := List.mem_map.mp hv
    exact ⟨s, rfl⟩
  · have hnone : ¬ ∃ s ∈ cells, number s = false := by simpa using hnumbers
    rw [or_iff_left hnone]
    constructor
    · intro hall
      -- a value would be a number and a text
      cases values with
      | nil => exact List.eq_nil_of_length_eq_zero hlength.symm
      | cons v rest =>
          obtain ⟨s, rfl⟩ := hall v (by simp)
          rcases hkinds (.str s) (by simp) with ⟨i, hi⟩ | ⟨x, hx⟩
          · cases hi
          · cases hx
    · rintro rfl v hv
      rw [List.eq_nil_of_length_eq_zero hlength] at hv
      cases hv

/-- Its values are numbers, or the texts of its cells. -/
theorem InfersColumn.values_filled {number : String → Bool} {cells : List String}
    {values : List PyVal} (h : InfersColumn number cells values)
    (hfilled : ∀ s ∈ cells, Py.isBlank s = false) :
    ∀ v ∈ values, (∃ i, v = .int i) ∨ (∃ x, v = .float x) ∨
      ∃ s, v = .str s ∧ Py.isBlank s = false := by
  intro v hv
  rcases h.kinds with ⟨_, hstrings⟩ | ⟨_, hkinds⟩
  · rw [hstrings] at hv
    obtain ⟨s, hs, rfl⟩ := List.mem_map.mp hv
    exact .inr (.inr ⟨s, rfl, hfilled s hs⟩)
  · exact (hkinds v hv).elim .inl fun hx => .inr (.inl hx)

/-- One text field, the number of the policy. -/
def policyService : MappingService where
  schema := { name := "policies", fields := .ofList [("Policy_ID", .filled true)] }

/-- `Policy No` under the name of the field. -/
def policyNumberMapping : MappingResult := ⟨[policyGuess], [], List.nodup_singleton _⟩

/-- A CSV file with these policy numbers. -/
def policyText (numbers : List String) : CsvText := ⟨["Policy No"], numbers.map fun n => [n]⟩

/-- A frame with these policy numbers. -/
def policyFrame (values : List PyVal) : DataFrame where
  columns := ["Policy No"]
  rows := values.map fun v => [v]
  nodup := List.nodup_singleton _
  width := by simp

theorem plain_strictText : StrictText .plain := ⟨fun _ => rfl, fun _ => ⟨_, rfl⟩, fun _ => ⟨_, rfl⟩⟩

/-- Two policy numbers, one with letters. -/
theorem mixed_read : ReadsCsv isIntegerLiteral (policyText ["1001", "POL-7"])
    (policyFrame [.str "1001", .str "POL-7"]) where
  columns := rfl
  inferred c hc _ := by
    rw [List.mem_singleton.mp hc]
    exact ⟨rfl, fun h => absurd (h "POL-7" (by decide)) (by decide),
      fun h => absurd (h "POL-7" (by decide)) (by decide), fun _ => rfl⟩

/-- Two policy numbers of digits. -/
theorem digits_read : ReadsCsv isIntegerLiteral (policyText ["1001", "1002"])
    (policyFrame [.int 1001, .int 1002]) where
  columns := rfl
  inferred c hc _ := by
    rw [List.mem_singleton.mp hc]
    refine ⟨rfl, fun _ v hv => ?_, fun _ h => absurd h (by decide), fun h => absurd h (by decide)⟩
    rcases List.mem_pair.mp hv with rfl | rfl <;> exact ⟨_, rfl⟩

end RiskFlow
