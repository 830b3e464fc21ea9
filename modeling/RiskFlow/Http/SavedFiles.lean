import RiskFlow.Http.Sessions
import RiskFlow.Http.Uploads
import RiskFlow.Service.ConcurrentUploads

/-!
# SavedFiles — the upload behind a path

A disk may change in many places while a file lies on it. What the service
reads of it is the same on every disk that has the upload under its path.
-/

namespace RiskFlow

open Lib MappingService

/-! ## What is under a path -/

namespace Files

/-- The upload is on the disk under the path, as it was saved. -/
structure Has (files : Files) (path : String) (file : UploadFile) : Prop where
  present : files.pathExists path = true
  csv : files.readCsv path = file.readCsv
  excel : files.readExcel path = file.readExcel

/-- The two disks have the same under the path. -/
structure SameAt (path : String) (files files' : Files) : Prop where
  present : files'.pathExists path = files.pathExists path
  csv : files'.readCsv path = files.readCsv path
  excel : files'.readExcel path = files.readExcel path

/-- The upload is on the disk if it is held, and nothing is if not. -/
structure Kept (files : Files) (path : String) (file : UploadFile) (held : Prop) : Prop where
  has : held → files.Has path file
  gone : ¬ held → files.pathExists path = false

variable {files files' files'' : Files} {path other : String} {file : UploadFile} {held : Prop}

theorem sameAt_refl (path : String) (files : Files) : SameAt path files files :=
  ⟨rfl, rfl, rfl⟩

theorem SameAt.trans (h : SameAt path files files') (h' : SameAt path files' files'') :
    SameAt path files files'' :=
  ⟨h'.present.trans h.present, h'.csv.trans h.csv, h'.excel.trans h.excel⟩

theorem Has.of_sameAt (h : files.Has path file) (hsame : SameAt path files files') :
    files'.Has path file :=
  ⟨hsame.present.trans h.present, hsame.csv.trans h.csv, hsame.excel.trans h.excel⟩

theorem Kept.of_sameAt (h : files.Kept path file held) (hsame : SameAt path files files') :
    files'.Kept path file held :=
  ⟨fun hheld => (h.has hheld).of_sameAt hsame, fun hnot => hsame.present.trans (h.gone hnot)⟩

theorem Kept.of_iff {held' : Prop} (h : files.Kept path file held) (hiff : held' ↔ held) :
    files.Kept path file held' :=
  ⟨fun hheld => h.has (hiff.mp hheld), fun hnot => h.gone fun hheld => hnot (hiff.mpr hheld)⟩

theorem kept_of_has (h : files.Has path file) (hheld : held) : files.Kept path file held :=
  ⟨fun _ => h, fun hnot => absurd hheld hnot⟩

theorem kept_of_gone (h : files.pathExists path = false) (hnot : ¬ held) :
    files.Kept path file held :=
  ⟨fun hheld => absurd hheld hnot, fun _ => h⟩

theorem has_saveTempFile (files : Files) (path : String) (file : UploadFile) :
    (saveTempFile files path file).Has path file := by
  refine ⟨by simp [saveTempFile], ?_, ?_⟩
  · funext n
    simp [saveTempFile]
  · funext sheet
    simp [saveTempFile]

theorem sameAt_saveTempFile (files : Files) (file : UploadFile) (h : other ≠ path) :
    SameAt other files (saveTempFile files path file) := by
  refine ⟨by simp [saveTempFile, h], ?_, ?_⟩
  · funext n
    simp [saveTempFile, h]
  · funext sheet
    simp [saveTempFile, h]

theorem gone_remove (files : Files) (path : String) :
    (files.remove path).pathExists path = false := by
  simp [remove]

theorem sameAt_remove (files : Files) (h : other ≠ path) :
    SameAt other files (files.remove path) := by
  refine ⟨by simp [remove, h], ?_, ?_⟩
  · funext n
    simp [remove, h]
  · funext sheet
    simp [remove, h]

/-- A step has changed nothing but this file, which is now as `held` says. -/
structure Leaves (files files' : Files) (path : String) (file : UploadFile) (held : Prop) :
    Prop where
  others : ∀ other, other ≠ path → SameAt other files files'
  own : files'.Kept path file held

theorem leaves_of_kept (h : files.Kept path file held) : Leaves files files path file held :=
  ⟨fun other _ => sameAt_refl other files, h⟩

theorem leaves_saveTempFile (files : Files) (path : String) (file : UploadFile) (hheld : held) :
    Leaves files (saveTempFile files path file) path file held :=
  ⟨fun _ hne => sameAt_saveTempFile files file hne,
    kept_of_has (has_saveTempFile files path file) hheld⟩

theorem leaves_remove (files : Files) (path : String) (file : UploadFile) (hnot : ¬ held) :
    Leaves files (files.remove path) path file held :=
  ⟨fun _ hne => sameAt_remove files hne, kept_of_gone (gone_remove files path) hnot⟩

theorem Leaves.after {held' : Prop} (h : Leaves files files' path file held)
    (h' : Leaves files' files'' path file held') : Leaves files files'' path file held' :=
  ⟨fun other hne => (h.others other hne).trans (h'.others other hne), h'.own⟩

end Files

/-! ## What the service reads -/

namespace Files
variable {files files' : Files} {path : String} {file : UploadFile}

theorem Has.sameAt (h : files.Has path file) (h' : files'.Has path file) :
    SameAt path files files' :=
  ⟨h'.present.trans h.present.symm, h'.csv.trans h.csv.symm, h'.excel.trans h.excel.symm⟩

theorem SameAt.readFrame (h : SameAt path files files') (rt : Runtime)
    (sheetName : Option String) (nRows : Nat) :
    PolarsIngestor.readFrame rt files' path sheetName nRows =
      PolarsIngestor.readFrame rt files path sheetName nRows := by
  simp only [PolarsIngestor.readFrame, PolarsIngestor.checkFileExists, PolarsIngestor.readExcel,
    h.present, h.csv, h.excel]

theorem SameAt.ingest (h : SameAt path files files') (rt : Runtime) (sheetName : Option String) :
    MappingService.ingest rt files' path sheetName =
      MappingService.ingest rt files path sheetName := by
  simp only [MappingService.ingest, PolarsIngestor.getHeaders, PolarsIngestor.getPreview,
    h.readFrame]

theorem SameAt.validateRows (h : SameAt path files files') (rt : Runtime) (svc : MappingService)
    (mapping : MappingResult) (sheetName : Option String) :
    RiskFlow.validateRows rt svc files' path mapping sheetName =
      RiskFlow.validateRows rt svc files path mapping sheetName := by
  simp only [RiskFlow.validateRows, readTable, h.csv, h.excel]

end Files

/-- **`process_file` looks at its own file only**, at every of its steps. -/
theorem advance_sameAt {u : Upload} {files : Files} (h : Files.SameAt u.filePath u.files files)
    (rt : Runtime) (svc : MappingService) (outages : Outages) (stores : Stores)
    (phase : UploadPhase) :
    phase.advance rt svc { u with files } outages stores =
      phase.advance rt svc u outages stores := by
  cases phase with
  | started => simp only [UploadPhase.advance, Upload.ingested, h.ingest]
  | looking headers preview => simp only [UploadPhase.advance, h.validateRows]
  | caching headers mapping => simp only [UploadPhase.advance, h.validateRows]
  | _ => rfl

end RiskFlow
