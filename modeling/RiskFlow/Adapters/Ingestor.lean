import RiskFlow.Python.Value

/-!
# Ingestor — tables and the polars spreadsheet parser

`DataFrame` is a polars frame: distinct column names and rows of that
width, by construction. `Files` is the file system as polars reads it;
the `PolarsIngestor` functions are the adapter's code over it.
-/

namespace RiskFlow

open Lib

/-- A table. -/
structure DataFrame where
  columns : List String
  rows : List (List PyVal)
  nodup : columns.Nodup
  width : ∀ row ∈ rows, row.length = columns.length

namespace DataFrame

/-- The name a column has after `rename`. -/
def renamed (mapping : Dict String String) (column : String) : String :=
  (mapping.get? column).getD column

/-- `df.rename(mapping)`: all columns at once; equal names raise. -/
def rename (df : DataFrame) (mapping : Dict String String) : Except PyErr DataFrame :=
  let columns := df.columns.map (renamed mapping)
  if h : columns.Nodup then
    .ok { columns, rows := df.rows, nodup := h, width := by simpa [columns] using df.width }
  else .error (.duplicateError (Py.reprStrs columns))

/-- `df.to_dicts()`. -/
def toDicts (df : DataFrame) : List Row :=
  df.rows.map fun row => Dict.ofList (df.columns.zip row)

/-- `df.head(n)`. -/
def head (df : DataFrame) (n : Nat) : DataFrame where
  columns := df.columns
  rows := df.rows.take n
  nodup := df.nodup
  width row h := df.width row (List.mem_of_mem_take h)

/-- Every row has the columns of its table. -/
theorem mem_keys_toDicts {df : DataFrame} {row : Row} (h : row ∈ df.toDicts) {k : String}
    (hk : k ∈ row.keys) : k ∈ df.columns := by
  obtain ⟨cells, _, rfl⟩ := List.mem_map.mp h
  obtain ⟨kv, hmem, rfl⟩ := List.mem_map.mp (Dict.mem_keys_ofList.mp hk)
  exact (List.of_mem_zip hmem).1

/-- `df[name].to_list()`. -/
def column (df : DataFrame) (name : String) : List PyVal :=
  df.toDicts.map fun row => (row.get? name).getD .none

end DataFrame

/-- The files polars finds: whether a path exists, `pl.read_csv` (with its
`n_rows`) and `pl.read_excel` (with its sheet). -/
structure Files where
  pathExists : String → Bool
  readCsv : String → Option Nat → Except PyErr DataFrame
  readExcel : String → Option String → Except PyErr DataFrame

namespace PolarsIngestor
variable (rt : Runtime) (files : Files)

/-- `_check_file_exists`. -/
def checkFileExists (filePath : String) : Except PyErr Unit :=
  if files.pathExists filePath then .ok ()
  else .error (.fileNotFoundError ("File not found: " ++ filePath))

/-- `sub in s`. -/
def mentions (s sub : String) : Bool := decide (sub.toList <:+: s.toList)

/-- `_read_excel`: a missing sheet becomes a `ValueError`. -/
def readExcel (filePath : String) (sheetName : Option String) : Except PyErr DataFrame :=
  match sheetName with
  | none => files.readExcel filePath none
  | some sheet =>
      match files.readExcel filePath (some sheet) with
      | .ok df => .ok df
      | .error e =>
          let text := rt.lower (rt.strErr e)
          if e.isException && (mentions text "not found" || mentions text "no sheet") then
            .error (.valueError ("Sheet '" ++ sheet ++ "' not found in " ++ filePath))
          else .error e

/-- The frame both readers start from, `NoDataError` translated. -/
def readFrame (filePath : String) (sheetName : Option String) (nRows : Nat) :
    Except PyErr DataFrame := do
  checkFileExists files filePath
  let read :=
    if Py.endsWith filePath ".csv" then files.readCsv filePath (some nRows)
    else readExcel rt files filePath sheetName
  match read with
  | .error (.noDataError _) =>
      .error (.invalidCedentDataError "File is empty or contains no data")
  | r => r

/-- `get_headers`. -/
def getHeaders (filePath : String) (sheetName : Option String) : Except PyErr (List String) :=
  (readFrame rt files filePath sheetName 0).map DataFrame.columns

/-- `get_preview` with its default of five rows. A CSV is read that far; a
sheet is read whole and cut. -/
def getPreview (filePath : String) (sheetName : Option String) : Except PyErr (List Row) :=
  (readFrame rt files filePath sheetName 5).map fun df =>
    if Py.endsWith filePath ".csv" then df.toDicts else (df.head 5).toDicts

/-- `get_sheet_names`; `workbook` is what openpyxl finds in a file. -/
def getSheetNames (workbook : String → Except PyErr (List String)) (filePath : String) :
    Except PyErr (List String) := do
  checkFileExists files filePath
  if Py.endsWith filePath ".csv" then pure [] else workbook filePath

variable {rt files}

/-- A sheet is read when polars reads it; only its errors are translated. -/
theorem readExcel_ok {path : String} {sheetName : Option String}
    {df : DataFrame} : readExcel rt files path sheetName = .ok df ↔
      files.readExcel path sheetName = .ok df := by
  cases sheetName with
  | none => exact Iff.rfl
  | some sheet =>
      simp only [readExcel]
      cases hread : files.readExcel path (some sheet) with
      | ok df' => exact Iff.rfl
      | error e =>
          refine iff_of_false ?_ (by simp)
          dsimp only
          split <;> simp

end PolarsIngestor

end RiskFlow
