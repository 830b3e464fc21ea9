import RiskFlow.Lib.Numbering
import RiskFlow.Domain.AcceptedRecords
import RiskFlow.Service.RowPartition

/-!
# RowReport — the row numbers of a result

The three lists of a result against the rows of its file, the first of
which is row 1: which row an error is about, and which rows the records
come from.
-/

namespace RiskFlow

open Lib

/-- The rows as the loop reads them: columns renamed, date cells converted
in place. -/
def convertedRows (rt : Runtime) (svc : MappingService) (mapping : MappingResult)
    (df : DataFrame) : Except PyErr (List Row) := do
  let table ← renameTable df mapping
  table.toDicts.mapM (convertDates rt (dateFormats rt svc.schema table))

/-- The error is about this record: the record stands at the error's row
number, and the error is what the model refused it with. -/
structure ErrorAbout (rt : Runtime) (model : RecordModel) (rows : List Row) (error : RowError)
    (record : Row) : Prop where
  first : 1 ≤ error.row
  last : error.row ≤ rows.length
  position : rows[error.row - 1]? = some record
  refusal : ∃ e, modelValidate rt model record = .error e ∧ error = rowErrorOf rt error.row e

/-- What a result says about the rows. -/
structure ReportsRows (rt : Runtime) (model : RecordModel) (rows : List Row)
    (result : ProcessingResult) : Prop where
  errors : List.Forall₂ (ErrorAbout rt model rows) result.errors result.invalidRecords
  increasing : (result.errors.map RowError.row).Pairwise (· < ·)
  valid : List.Forall₂ (fun row record => modelValidate rt model row = .ok record)
    (withoutNumbers rows 1 (result.errors.map RowError.row)) result.validRecords
  total : result.validRecords.length + result.invalidRecords.length = rows.length

/-- The record stands among the invalid ones, next to an error for the row
at this place. -/
def ReportedAt (result : ProcessingResult) (place : Nat) (record : Row) : Prop :=
  ∃ (k : Nat) (error : RowError), result.errors[k]? = some error ∧ error.row = place + 1 ∧
    result.invalidRecords[k]? = some record

/-! ## The errors -/

section Errors
variable {rt : Runtime} {model : RecordModel}

theorem errorOf_accepted {row record : Row} (start : Nat)
    (h : modelValidate rt model row = .ok record) :
    errorOf rt model (row, start) = none ∧ refused rt model row = false := by
  simp [errorOf, refused, h, Except.isOk, Except.toBool]

theorem errorOf_refused {row : Row} {e : PyErr} (start : Nat)
    (h : modelValidate rt model row = .error e) :
    errorOf rt model (row, start) = some (rowErrorOf rt (start + 1) e) ∧
      refused rt model row = true := by
  simp [errorOf, refused, h, Except.isOk, Except.toBool]

/-- The errors of numbered rows are numbered by the refused rows. -/
theorem errors_row (rows : List Row) (start : Nat) :
    ((rows.zipIdx start).filterMap (errorOf rt model)).map RowError.row =
      rows.findIdxs (refused rt model) (start + 1) := by
  induction rows generalizing start with
  | nil => rfl
  | cons row rest ih =>
      rw [List.zipIdx_cons, List.findIdxs_cons, List.filterMap_cons]
      cases hm : modelValidate rt model row with
      | ok record =>
          obtain ⟨herror, haccepted⟩ := errorOf_accepted start hm
          simp [herror, haccepted, ih]
      | error e =>
          obtain ⟨herror, hrefused⟩ := errorOf_refused start hm
          simp [herror, hrefused, ih, rowErrorOf]

/-- Each error is the one its refused row gives. -/
theorem errors_refusal (rows : List Row) (start : Nat) :
    List.Forall₂ (fun (error : RowError) row =>
        ∃ e, modelValidate rt model row = .error e ∧ error = rowErrorOf rt error.row e)
      ((rows.zipIdx start).filterMap (errorOf rt model)) (rows.filter (refused rt model)) := by
  induction rows generalizing start with
  | nil => exact .nil
  | cons row rest ih =>
      rw [List.zipIdx_cons, List.filterMap_cons]
      cases hm : modelValidate rt model row with
      | ok record =>
          obtain ⟨herror, haccepted⟩ := errorOf_accepted start hm
          rw [herror, List.filter_cons_of_neg (by simp [haccepted])]
          exact ih (start + 1)
      | error e =>
          obtain ⟨herror, hrefused⟩ := errorOf_refused start hm
          rw [herror, List.filter_cons_of_pos hrefused]
          exact .cons ⟨e, hm, rfl⟩ (ih (start + 1))

/-- **The lists of the loop report its rows.** -/
theorem Partitions.reportsRows {rows : List Row} {result : ProcessingResult}
    (h : Partitions rt model rows ⟨result.validRecords, result.invalidRecords, result.errors⟩) :
    ReportsRows rt model rows result := by
  have herrors : result.errors = rows.zipIdx.filterMap (errorOf rt model) := h.errors
  have hinvalid : result.invalidRecords = rows.filter (refused rt model) := h.invalid
  have hvalid : result.validRecords =
      rows.filterMap fun row => (modelValidate rt model row).toOption := h.valid
  have hnumbers : result.errors.map RowError.row = rows.findIdxs (refused rt model) 1 := by
    rw [herrors]
    exact errors_row rows 0
  have hkept : List.Forall₂ (fun row record => modelValidate rt model row = .ok record)
      (rows.filter fun row => !refused rt model row) result.validRecords := by
    rw [hvalid]
    simpa [refused] using forall₂_toOption (modelValidate rt model) rows
  refine ⟨?_, ?_, ?_, ?_⟩
  · -- the numbers and the refusals are two readings of one pair of lists
    have hposition := forall₂_findIdxs (refused rt model) rows 1
    rw [← hnumbers, ← hinvalid, List.forall₂_map_left_iff] at hposition
    have hrefusal := @errors_refusal rt model rows 0
    rw [← herrors, ← hinvalid] at hrefusal
    refine List.forall₂_iff_zip.mpr ⟨hrefusal.length_eq, fun {error record} hz => ?_⟩
    obtain ⟨hfirst, hlast, hget⟩ := (List.forall₂_iff_zip.mp hposition).2 hz
    exact ⟨hfirst, by omega, hget, (List.forall₂_iff_zip.mp hrefusal).2 hz⟩
  · rw [hnumbers]
    exact List.pairwise_findIdxs
  · rw [hnumbers, withoutNumbers_findIdxs]
    exact hkept
  · rw [← hkept.length_eq, hinvalid]
    have hsplit := List.length_eq_length_filter_add (l := rows) (refused rt model)
    omega

/-- **A row is reported exactly when the model does not accept it.** -/
theorem ReportsRows.reportedAt_iff {rows : List Row} {result : ProcessingResult}
    (h : ReportsRows rt model rows result) {place : Nat} {row : Row}
    (hrow : rows[place]? = some row) :
    ReportedAt result place row ↔ ¬ Accepts rt model row := by
  constructor
  · rintro ⟨k, error, herror, hnumber, hrecord⟩
    obtain ⟨hk, rfl⟩ := List.getElem?_eq_some_iff.mp herror
    obtain ⟨hk', rfl⟩ := List.getElem?_eq_some_iff.mp hrecord
    obtain ⟨e, he, _⟩ := (h.errors.get hk hk').refusal
    exact not_accepts_iff.mpr ⟨e, he⟩
  · intro hrefused
    have hnumber : place + 1 ∈ result.errors.map RowError.row := by
      by_contra hfree
      -- a row without an error is one of those whose records are valid
      have hkept : row ∈ withoutNumbers rows 1 (result.errors.map RowError.row) := by
        refine List.mem_map.mpr ⟨(row, place + 1), List.mem_filter.mpr ⟨?_, by simpa using hfree⟩,
          rfl⟩
        rw [List.mk_mem_zipIdx_iff_le_and_getElem?_sub]
        exact ⟨by omega, by simpa using hrow⟩
      obtain ⟨record, _, hrecord⟩ := exists_of_forall₂ h.valid hkept
      exact hrefused ⟨record, hrecord⟩
    obtain ⟨error, hmem, hrow'⟩ := List.mem_map.mp hnumber
    obtain ⟨k, hk, rfl⟩ := List.mem_iff_getElem.mp hmem
    have hk' : k < result.invalidRecords.length := h.errors.length_eq ▸ hk
    refine ⟨k, _, List.getElem?_eq_getElem hk, hrow', ?_⟩
    have hposition := (h.errors.get hk hk').position
    rw [List.get_eq_getElem, hrow', Nat.add_sub_cancel, hrow] at hposition
    rw [hposition]
    exact List.getElem?_eq_getElem hk'

end Errors

/-! ## The file -/

/-- Renaming leaves the rows. -/
theorem renameTable_rows {df table : DataFrame} {mapping : MappingResult}
    (h : renameTable df mapping = .ok table) : table.rows = df.rows :=
  (renameTable_parts h).2

/-- Validating a table partitions its converted rows. -/
theorem validateTable_runs {rt : Runtime} {svc : MappingService} {mapping : MappingResult}
    {df : DataFrame} {result : ProcessingResult}
    (h : validateTable rt svc mapping df = .ok result) :
    ∃ rows, convertedRows rt svc mapping df = .ok rows ∧ rows.length = df.rows.length ∧
      Partitions rt (svc.recordModel rt) rows
        ⟨result.validRecords, result.invalidRecords, result.errors⟩ := by
  obtain ⟨table, rows, lists, htable, hrows, hloop, rfl⟩ := validateTable_ok h
  refine ⟨rows, bind_eq_ok.mpr ⟨table, htable, hrows⟩, ?_, rowLoop_ok hloop⟩
  rw [← (mapM_eq_ok.mp hrows).length_eq, DataFrame.toDicts, List.length_map,
    renameTable_rows htable]

/-- **Row validation partitions the file.** When it returns, the errors and
the invalid records stand in pairs, each pair at its row of the file, in
file order; the valid records are the records of all other rows. -/
theorem validateRows_reports (rt : Runtime) (svc : MappingService) (files : Files)
    (filePath : String) (mapping : MappingResult) (sheetName : Option String)
    (result : ProcessingResult)
    (h : validateRows rt svc files filePath mapping sheetName = .ok result) :
    ∃ df rows, readTable files filePath sheetName = .ok df ∧
      convertedRows rt svc mapping df = .ok rows ∧ rows.length = df.rows.length ∧
      ReportsRows rt (svc.recordModel rt) rows result := by
  obtain ⟨df, hread, h⟩ := bind_eq_ok.mp h
  obtain ⟨rows, hrows, hlength, hparts⟩ := validateTable_runs h
  exact ⟨df, rows, hread, hrows, hlength, hparts.reportsRows⟩

/-- The table as the only file there is. -/
def filesOf (df : DataFrame) : Files where
  pathExists _ := true
  readCsv _ _ := .ok df
  readExcel _ _ := .ok df

/-- A file whose second amount is no number. -/
theorem second_amount_reported :
    ∃ result, validateRows .plain amountService
        (filesOf (amountTable (.float .posInf) (.str "unknown"))) "amounts.csv" amountMapping none =
          .ok result ∧
      result.errors.map RowError.row = [2] ∧
      ∃ df rows, readTable (filesOf (amountTable (.float .posInf) (.str "unknown")))
          "amounts.csv" none = .ok df ∧
        convertedRows .plain amountService amountMapping df = .ok rows ∧
        rows.length = df.rows.length ∧
        ReportsRows .plain (amountService.recordModel .plain) rows result :=
  ⟨_, rfl, rfl, validateRows_reports .plain amountService
    (filesOf (amountTable (.float .posInf) (.str "unknown"))) "amounts.csv" amountMapping none _
    rfl⟩

end RiskFlow
