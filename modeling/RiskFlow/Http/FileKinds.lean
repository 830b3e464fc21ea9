import RiskFlow.Http.Uploads

/-!
# FileKinds — which branch each reader of an upload takes

The upload is checked by its lower-cased extension and saved under its raw
one. The readers of the temp path ask whether it ends with `.csv`, so they
agree with each other, and with the check unless it had to lower the case.
-/

namespace RiskFlow

open Lib PolarsIngestor

inductive FileKind where
  | csv
  | excel
  deriving DecidableEq

section Branches
variable (rt : Runtime) (files : Files) (path : String) (sheetName : Option String)

/-- What `get_headers` and `get_preview` read in the branch of a kind. -/
def frameAs (kind : FileKind) (nRows : Nat) : Except PyErr DataFrame := do
  checkFileExists files path
  let read := match kind with
    | .csv => files.readCsv path (some nRows)
    | .excel => readExcel rt files path sheetName
  match read with
  | .error (.noDataError _) =>
      .error (.invalidCedentDataError "File is empty or contains no data")
  | r => r

def headersAs (kind : FileKind) : Except PyErr (List String) :=
  (frameAs rt files path sheetName kind 0).map DataFrame.columns

def previewAs (kind : FileKind) : Except PyErr (List Row) :=
  (frameAs rt files path sheetName kind 5).map fun df =>
    match kind with
    | .csv => df.toDicts
    | .excel => (df.head 5).toDicts

def sheetNamesAs (workbook : String → Except PyErr (List String)) (kind : FileKind) :
    Except PyErr (List String) := do
  checkFileExists files path
  match kind with
  | .csv => pure []
  | .excel => workbook path

def rowsAs (svc : MappingService) (mapping : MappingResult) (kind : FileKind) :
    Except PyErr ProcessingResult := do
  let df ← match kind with
    | .csv => files.readCsv path none
    | .excel => files.readExcel path sheetName
  validateTable rt svc mapping df

end Branches

/-- On every file system the four readers of the path are those of the kind. -/
structure TakeBranch (rt : Runtime) (path : String) (kind : FileKind) : Prop where
  headers : ∀ files sheetName,
    getHeaders rt files path sheetName = headersAs rt files path sheetName kind
  preview : ∀ files sheetName,
    getPreview rt files path sheetName = previewAs rt files path sheetName kind
  sheetNames : ∀ files workbook,
    getSheetNames files workbook path = sheetNamesAs files path workbook kind
  rows : ∀ files sheetName svc mapping,
    validateRows rt svc files path mapping sheetName =
      rowsAs rt files path sheetName svc mapping kind

/-- The kind the readers see in a path. -/
def kindOfPath (path : String) : FileKind := if Py.endsWith path ".csv" then .csv else .excel

theorem readFrame_eq (rt : Runtime) (files : Files) (path : String) (sheetName : Option String)
    (nRows : Nat) :
    readFrame rt files path sheetName nRows =
      frameAs rt files path sheetName (kindOfPath path) nRows := by
  unfold kindOfPath
  cases hends : Py.endsWith path ".csv" <;> simp only [readFrame, frameAs, hends] <;> rfl

/-- The readers of a path take the branch of its end. -/
theorem takeBranch_kindOfPath (rt : Runtime) (path : String) :
    TakeBranch rt path (kindOfPath path) where
  headers files sheetName := by rw [getHeaders, readFrame_eq, headersAs]
  preview files sheetName := by
    rw [getPreview, readFrame_eq, previewAs, kindOfPath]
    cases Py.endsWith path ".csv" <;> rfl
  sheetNames files workbook := by
    unfold getSheetNames sheetNamesAs kindOfPath
    cases Py.endsWith path ".csv" <;> rfl
  rows files sheetName svc mapping := by
    unfold validateRows readTable rowsAs kindOfPath
    cases Py.endsWith path ".csv" <;> rfl

/-- A workbook with one sheet tells the branches apart. -/
theorem takeBranch_unique {rt : Runtime} {path : String} {kind kind' : FileKind}
    (h : TakeBranch rt path kind) (h' : TakeBranch rt path kind') : kind = kind' := by
  let files : Files := {
    pathExists := fun _ => true
    readCsv := fun _ _ => .error (.noDataError "")
    readExcel := fun _ _ => .error (.noDataError "") }
  let workbook : String → Except PyErr (List String) := fun _ => .ok ["Sheet1"]
  have hsame := (h.sheetNames files workbook).symm.trans (h'.sheetNames files workbook)
  cases kind with
  | csv =>
      cases kind' with
      | csv => rfl
      | excel => cases hsame
  | excel =>
      cases kind' with
      | csv => cases hsame
      | excel => rfl

/-- **All four readers take one branch**, that of the end of the path. -/
theorem takeBranch_iff {rt : Runtime} {path : String} {kind : FileKind} :
    TakeBranch rt path kind ↔ kindOfPath path = kind :=
  ⟨fun h => takeBranch_unique (takeBranch_kindOfPath rt path) h,
    fun h => h ▸ takeBranch_kindOfPath rt path⟩

/-! ## The accepted upload -/

/-- `str.lower` leaves a text of dots and lower-case ASCII letters as it is. -/
def LowersPlainText (rt : Runtime) : Prop :=
  ∀ s : String, (∀ c ∈ s.toList, c = '.' ∨ 'a' ≤ c ∧ c ≤ 'z') → rt.lower s = s

/-- The extension of the name of an upload. -/
def UploadFile.extension (file : UploadFile) : String := (Py.splitext (file.nameOr "")).2

/-- **The components agree on the kind of the upload**: a file accepted as `.csv`
is read as CSV by all of them, one accepted as `.xlsx` or `.xls` as a workbook. -/
def KindAgreed (rt : Runtime) (file : UploadFile) (path : String) : Prop :=
  (rt.lower file.extension = ".csv" → TakeBranch rt path .csv) ∧
    (rt.lower file.extension = ".xlsx" ∨ rt.lower file.extension = ".xls" →
      TakeBranch rt path .excel)

/-- An extension is empty, or a dot and characters that are none. -/
theorem splitext_extension (name : String) :
    (Py.splitext name).2 = "" ∨
      ∃ cs : List Char, '.' ∉ cs ∧ (Py.splitext name).2 = String.ofList ('.' :: cs) := by
  unfold Py.splitext
  dsimp only
  split
  · refine .inr ⟨_, fun hdot => ?_, rfl⟩
    have hnot := List.mem_takeWhile_imp (List.mem_reverse.mp hdot)
    simp at hnot
  · exact .inl rfl

/-- Only the extension `.csv` ends with `.csv`. -/
theorem extension_endsWith_csv (name : String) :
    Py.endsWith (Py.splitext name).2 ".csv" = true ↔ (Py.splitext name).2 = ".csv" := by
  constructor
  · intro hends
    rcases splitext_extension name with hnone | ⟨cs, hdot, hext⟩
    · rw [hnone] at hends
      cases hends
    · rw [hext] at hends ⊢
      simp only [Py.endsWith, List.isSuffixOf_iff_suffix, String.toList_ofList] at hends
      rcases List.suffix_cons_iff.mp hends with hwhole | hrest
      · rw [← hwhole]
        rfl
      · exact absurd (hrest.subset (by decide : '.' ∈ (".csv").toList)) hdot
  · intro hext
    rw [hext]
    decide

section Accepted
variable {rt : Runtime} {file : UploadFile}

theorem accepted_extension (h : validateFile rt file = .ok ()) :
    rt.lower file.extension ∈ allowedExtensions := by
  by_contra hforeign
  unfold UploadFile.extension at hforeign
  rw [validateFile, if_pos hforeign] at h
  cases h

/-- An accepted upload has a name, so it is saved under the extension checked. -/
theorem saved_extension (hlower : LowersPlainText rt) (h : validateFile rt file = .ok ()) :
    (Py.splitext (file.nameOr "upload")).2 = file.extension := by
  have hempty : file.nameOr "" ≠ "" := by
    intro hname
    have hallowed := accepted_extension h
    have hext : file.extension = "" := by
      rw [UploadFile.extension, hname]
      rfl
    rw [hext, hlower "" (by simp)] at hallowed
    exact absurd hallowed (by decide)
  unfold UploadFile.extension UploadFile.nameOr at *
  cases hname : file.filename with
  | none => simp [hname] at hempty
  | some name => cases hblank : name.isEmpty <;> simp_all

theorem kindOfPath_tempPath (hlower : LowersPlainText rt) (h : validateFile rt file = .ok ())
    (temp : TempName) : kindOfPath (tempPath temp file) = .csv ↔ file.extension = ".csv" := by
  rw [kindOfPath, tempPath_endsWith, saved_extension hlower h, UploadFile.extension,
    ← extension_endsWith_csv]
  cases Py.endsWith (Py.splitext (file.nameOr "")).2 ".csv" <;> simp

end Accepted

/-- **When the components agree on the kind of an upload.** -/
theorem file_kinds_agree_iff (rt : Runtime) (hlower : LowersPlainText rt) (file : UploadFile)
    (temp : TempName) (haccepted : validateFile rt file = .ok ()) :
    KindAgreed rt file (tempPath temp file) ↔
      (rt.lower file.extension = ".csv" → file.extension = ".csv") := by
  have hkind := kindOfPath_tempPath hlower haccepted temp
  simp only [KindAgreed, takeBranch_iff, hkind]
  refine and_iff_left fun hexcel => ?_
  cases hpath : kindOfPath (tempPath temp file) with
  | excel => rfl
  | csv =>
      -- an extension that is saved as `.csv` was lower case already
      have hcsv : rt.lower ".csv" = ".csv" := hlower ".csv" (by simp)
      rw [hkind.mp hpath, hcsv] at hexcel
      rcases hexcel with h | h <;> exact absurd h (by decide)

/-! ### Upper case -/

theorem plain_lowersPlainText : LowersPlainText .plain := by
  intro s hs
  refine String.toList_inj.mp ?_
  have hmap : s.toList.map Char.toLower = s.toList := by
    refine (List.map_congr_left fun c hc => ?_).trans (List.map_id _)
    have hupper : ¬ (c.val ≥ 'A'.val ∧ c.val ≤ 'Z'.val) := by
      rintro ⟨hmin, hmax⟩
      rcases hs c hc with rfl | ⟨ha, _⟩
      · exact absurd hmin (by decide)
      · exact absurd (le_trans ha hmax) (by decide)
    exact dif_neg hupper
  simpa [Runtime.plain] using hmap

/-- The file of `grossFile` under another name. -/
def grossFileNamed (name : String) : UploadFile := { grossFile with filename := some name }

/-- A workbook in capitals is read as one. -/
theorem workbook_in_capitals_agreed :
    validateFile .plain (grossFileNamed "MARCH.v2.XLSX") = .ok () ∧
      KindAgreed .plain (grossFileNamed "MARCH.v2.XLSX")
        (tempPath someTemp (grossFileNamed "MARCH.v2.XLSX")) := by
  have haccepted : validateFile .plain (grossFileNamed "MARCH.v2.XLSX") = .ok () := rfl
  refine ⟨haccepted, ?_⟩
  refine (file_kinds_agree_iff .plain plain_lowersPlainText _ someTemp haccepted).mpr ?_
  intro hcsv
  exact absurd hcsv (by decide)

/-- A CSV file in capitals is accepted as `.csv` and read as a workbook by all four. -/
theorem csv_in_capitals_read_as_workbook :
    LowersPlainText .plain ∧
      validateFile .plain (grossFileNamed "MARCH.CSV") = .ok () ∧
      TakeBranch .plain (tempPath someTemp (grossFileNamed "MARCH.CSV")) .excel ∧
      ¬ KindAgreed .plain (grossFileNamed "MARCH.CSV")
        (tempPath someTemp (grossFileNamed "MARCH.CSV")) := by
  have hbranch : TakeBranch .plain (tempPath someTemp (grossFileNamed "MARCH.CSV")) .excel :=
    takeBranch_iff.mpr (by decide)
  refine ⟨plain_lowersPlainText, rfl, hbranch, fun hagreed => ?_⟩
  cases takeBranch_unique hbranch (hagreed.1 (by decide))

end RiskFlow
