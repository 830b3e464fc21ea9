import RiskFlow.Service.History
import RiskFlow.Http.Errors

/-!
# Uploads — the upload route and what the routes share

The router with its services, the uploaded file on its way to a temp
path, and `upload_file`: checks, the service of the schema, `process_file`
and the answer to every exception it can raise.
-/

namespace RiskFlow

open Lib MappingService

/-! ## The router -/

/-- What `create_router` was given. Services are objects: the registry holds
references to them, and `is` compares these. -/
structure Router (σ : Type) where
  rt : Runtime
  service : σ → MappingService
  defaultService : σ
  registry : Dict String σ
  definitions : Dict String TargetSchema

/-- `_resolve_service`. -/
def Router.resolveService {σ : Type} (router : Router σ) (schemaName : Option String) :
    Except HttpException σ :=
  match schemaName with
  | none => .ok router.defaultService
  | some name =>
      if Py.isBlank name then .ok router.defaultService
      else do
        validateSchemaName name
        match router.registry.get? name with
        | some service => pure service
        | none => .error ⟨404, .detail "SCHEMA_NOT_FOUND"
            ("Schema '" ++ name ++ "' not found. Available: " ++
              Py.reprStrs (Py.sorted router.registry.keys))
            "Use GET /schemas to list available schemas."⟩

/-! ## Files -/

/-- An uploaded file: its name and size, and what polars makes of its content. -/
structure UploadFile where
  filename : Option String
  size : Nat
  readCsv : Option Nat → Except PyErr DataFrame
  readExcel : Option String → Except PyErr DataFrame

def allowedExtensions : List String := [".csv", ".xlsx", ".xls"]

def maxFileSizeBytes : Nat := 10 * 1024 * 1024

/-- `file.filename or other`. -/
def UploadFile.nameOr (file : UploadFile) (other : String) : String :=
  match file.filename with
  | none => other
  | some name => if name.isEmpty then other else name

/-- `_validate_file`. -/
def validateFile (rt : Runtime) (file : UploadFile) : Except HttpException Unit :=
  let ext := rt.lower (Py.splitext (file.nameOr "")).2
  if ext ∉ allowedExtensions then
    .error ⟨400, .text ("Unsupported file type '" ++ ext ++ "'. Allowed: " ++
      ", ".intercalate (Py.sorted allowedExtensions))⟩
  else if maxFileSizeBytes < file.size then
    .error ⟨400, .text ("File size " ++ toString file.size ++ " bytes exceeds limit of " ++
      toString maxFileSizeBytes ++ " bytes")⟩
  else .ok ()

/-- What `tempfile` chooses: the directory, and characters of its alphabet of
letters, digits and the underscore. -/
structure TempName where
  dir : String
  chosen : String
  noDot : '.' ∉ chosen.toList

/-- The path `_save_temp_file` writes to. -/
def tempPath (temp : TempName) (file : UploadFile) : String :=
  temp.dir ++ "/riskflow_" ++ temp.chosen ++ (Py.splitext (file.nameOr "upload")).2

/-- The files after `_save_temp_file`. -/
def saveTempFile (files : Files) (path : String) (file : UploadFile) : Files where
  pathExists p := p = path || files.pathExists p
  readCsv p n := if p = path then file.readCsv n else files.readCsv p n
  readExcel p sheet := if p = path then file.readExcel sheet else files.readExcel p sheet

/-- The temp path ends as the file's extension does. -/
theorem tempPath_endsWith (temp : TempName) (file : UploadFile) :
    Py.endsWith (tempPath temp file) ".csv" =
      Py.endsWith (Py.splitext (file.nameOr "upload")).2 ".csv" := by
  have hbody : '.' ∉ ("/riskflow_" ++ temp.chosen).toList := by
    rw [String.toList_append, List.mem_append, not_or]
    exact ⟨by decide, temp.noDot⟩
  have hpath : tempPath temp file = temp.dir ++ ("/riskflow_" ++ temp.chosen) ++
      (Py.splitext (file.nameOr "upload")).2 := by
    simp only [tempPath, String.append_assoc]
  rw [hpath]
  refine Py.endsWith_append rfl hbody ?_
  rw [String.toList_append, List.length_append]
  have hten : ("/riskflow_").toList.length = 10 := by decide
  have hfour : (".csv").toList.length = 4 := by decide
  omega

/-- The table polars reads of an uploaded file. -/
def UploadFile.table (file : UploadFile) (csv : Bool) (sheetName : Option String) (nRows : Nat) :
    Except PyErr DataFrame :=
  if csv then file.readCsv (some nRows) else file.readExcel sheetName

section Saved
variable {rt : Runtime} {files : Files} {path : String} {file : UploadFile}
variable {sheetName : Option String}

/-- The saved file is read as the upload is. -/
theorem readFrame_saved {nRows : Nat} {df : DataFrame} :
    PolarsIngestor.readFrame rt (saveTempFile files path file) path sheetName nRows = .ok df ↔
      file.table (Py.endsWith path ".csv") sheetName nRows = .ok df := by
  have hread : (if Py.endsWith path ".csv" then
        (saveTempFile files path file).readCsv path (some nRows)
      else PolarsIngestor.readExcel rt (saveTempFile files path file) path sheetName) = .ok df ↔
      file.table (Py.endsWith path ".csv") sheetName nRows = .ok df := by
    unfold UploadFile.table
    cases Py.endsWith path ".csv" with
    | true => simp [saveTempFile]
    | false =>
        simp only [Bool.false_eq_true, if_false]
        rw [PolarsIngestor.readExcel_ok]
        simp [saveTempFile]
  rw [← hread]
  have hexists : PolarsIngestor.checkFileExists (saveTempFile files path file) path = .ok () := by
    simp [PolarsIngestor.checkFileExists, saveTempFile]
  rw [PolarsIngestor.readFrame, hexists]
  simp only [bind, Except.bind]
  split
  · rename_i heq
    rw [heq]
    constructor <;> intro h <;> cases h
  · exact Iff.rfl

/-- What the routes start from: the columns of the table, and its first rows. -/
theorem ingest_saved {headers : List String} {preview : List Row} :
    ingest rt (saveTempFile files path file) path sheetName = .ok (headers, preview) ↔
      ∃ df df', file.table (Py.endsWith path ".csv") sheetName 0 = .ok df ∧
        file.table (Py.endsWith path ".csv") sheetName 5 = .ok df' ∧ headers = df.columns ∧
        preview = if Py.endsWith path ".csv" then df'.toDicts else (df'.head 5).toDicts := by
  rw [ingest, bind_eq_ok]
  constructor
  · intro h
    obtain ⟨headers', hheaders, h⟩ := h
    obtain ⟨preview', hpreview, h⟩ := bind_eq_ok.mp h
    cases h
    obtain ⟨df, hdf, rfl⟩ := map_eq_ok.mp hheaders
    obtain ⟨df', hdf', rfl⟩ := map_eq_ok.mp hpreview
    exact ⟨df, df', readFrame_saved.mp hdf, readFrame_saved.mp hdf', rfl, rfl⟩
  · intro h
    obtain ⟨df, df', hdf, hdf', rfl, rfl⟩ := h
    refine ⟨df.columns, map_eq_ok.mpr ⟨df, readFrame_saved.mpr hdf, rfl⟩, bind_eq_ok.mpr ?_⟩
    exact ⟨_, map_eq_ok.mpr ⟨df', readFrame_saved.mpr hdf', rfl⟩, rfl⟩

end Saved

/-! ## `upload_file` -/

/-- The `except` clauses of `upload_file`, first match first. -/
def uploadError (rt : Runtime) (e : PyErr) : HttpException :=
  match e with
  | .mappingConfidenceLowError _ => ⟨422, .detail "LOW_CONFIDENCE" (rt.strErr e)
      "Review the unmapped headers and consider providing more representative sample data."⟩
  | .schemaValidationError _ => ⟨422, .detail "SCHEMA_VALIDATION" (rt.strErr e)
      "Check that the source data matches the expected format for each target field."⟩
  | .invalidCedentDataError _ => ⟨400, .detail "INVALID_DATA" (rt.strErr e)
      "Ensure the file is a valid CSV or Excel spreadsheet with headers in the first row."⟩
  | .slmUnavailableError _ => ⟨503, .detail "SLM_UNAVAILABLE" (rt.strErr e)
      "The mapping service is temporarily unavailable. Retry in a few seconds."⟩
  | .invalidCorrectionError _ => ⟨422, .detail "INVALID_CORRECTION" (rt.strErr e)
      "The correction references a target field not in the active schema."⟩
  | .validationError _ | .valueError _ => ⟨400, .detail "INVALID_SHEET" (rt.strErr e)
      "Check the sheet name and try again. Omit sheet_name to use the first sheet."⟩
  | .invalidSchemaError _ => ⟨500, .detail "INTERNAL_ERROR" (rt.strErr e)
      "Contact support if the problem persists."⟩
  | .baseException _ => unhandled
  | _ => ⟨500, .detail "INTERNAL_ERROR" "Internal server error"
      "Contact support if the problem persists."⟩

/-- A `POST /upload` request, with the temp name it gets and the answers the
services' mappers give while it is served. -/
structure UploadRequest (σ : Type) where
  file : UploadFile
  sheetName : Option String := none
  cedentId : Option String := none
  schema : Option String := none
  temp : TempName
  mappers : σ → Mapper

section Upload
variable {σ : Type}

/-- The path of the request's temp file. -/
def UploadRequest.path (u : UploadRequest σ) : String := tempPath u.temp u.file

/-- The files while the request is served. -/
def UploadRequest.files (u : UploadRequest σ) (files : Files) : Files :=
  saveTempFile files u.path u.file

/-- `upload_file`; the temp file is gone when it answers. -/
def uploadFile (router : Router σ) (files : Files) (stores : Stores) (u : UploadRequest σ) :
    Except HttpException ProcessingResult × Stores :=
  match validateFile router.rt u.file with
  | .error e => (.error e, stores)
  | .ok () =>
      match router.resolveService u.schema with
      | .error e => (.error e, stores)
      | .ok activeService =>
          match processFile router.rt (router.service activeService) (u.files files)
              (u.mappers activeService) u.path u.sheetName u.cedentId stores with
          | (.ok result, stores) => (.ok result, stores)
          | (.error e, stores) => (.error (uploadError router.rt e), stores)

/-- The call of `process_file` the route makes on a service. -/
def UploadRequest.call (u : UploadRequest σ) (disk : Files) (activeService : σ) : Upload where
  files := u.files disk
  mapper := u.mappers activeService
  filePath := u.path
  sheetName := u.sheetName
  cedentId := u.cedentId

variable {router : Router σ} {disk : Files} {stores : Stores} {u : UploadRequest σ}

/-- The route passes on what the service returns, its exceptions translated. -/
theorem uploadFile_resolved {activeService : σ} (hvalid : validateFile router.rt u.file = .ok ())
    (hresolved : router.resolveService u.schema = .ok activeService) :
    uploadFile router disk stores u =
      (((u.call disk activeService).process router.rt
          (router.service activeService) stores).1.mapError (uploadError router.rt),
        ((u.call disk activeService).process router.rt
          (router.service activeService) stores).2) := by
  simp only [uploadFile, hvalid, hresolved]
  show (match (u.call disk activeService).process router.rt
      (router.service activeService) stores with
    | (.ok result, stores) => (Except.ok result, stores)
    | (.error e, stores) => (Except.error (uploadError router.rt e), stores)) = _
  cases (u.call disk activeService).process router.rt (router.service activeService) stores with
  | mk outcome stores => cases outcome <;> rfl

theorem validateFile_status {file : UploadFile} {e : HttpException}
    (h : validateFile router.rt file = .error e) : e.statusCode = 400 := by
  unfold validateFile at h
  dsimp only at h
  split at h
  · cases h
    rfl
  · split at h
    · cases h
      rfl
    · cases h

theorem resolveService_status {schemaName : Option String} {e : HttpException}
    (h : router.resolveService schemaName = .error e) :
    e.statusCode = 400 ∨ e.statusCode = 404 := by
  unfold Router.resolveService at h
  split at h
  · cases h
  · rename_i name
    split at h
    · cases h
    · unfold validateSchemaName at h
      split at h
      · dsimp only [bind, Except.bind] at h
        split at h
        · cases h
        · cases h
          exact .inr rfl
      · cases h
        exact .inl rfl

/-- A request that reaches no service changes no cache. -/
theorem uploadFile_unresolved (disk : Files) (stores : Stores)
    (h : ¬ ∃ activeService, validateFile router.rt u.file = .ok () ∧
      router.resolveService u.schema = .ok activeService) :
    ∃ e, uploadFile router disk stores u = (.error e, stores) ∧
      (e.statusCode = 400 ∨ e.statusCode = 404) := by
  unfold uploadFile
  cases hvalid : validateFile router.rt u.file with
  | error e => exact ⟨e, rfl, .inl (validateFile_status hvalid)⟩
  | ok v =>
      cases hresolved : router.resolveService u.schema with
      | error e => exact ⟨e, rfl, resolveService_status hresolved⟩
      | ok activeService => exact absurd ⟨activeService, hvalid, hresolved⟩ h

end Upload

/-! ## A book and a file -/

/-- Claims next to the premiums. -/
def claimsService : MappingService where
  schema := { name := "claims", fields := .ofList [("Claim_ID", .plain .string)] }

/-- Premiums by default, claims on request; a service is known by its name. -/
def bookRouter : Router String where
  rt := .plain
  service name := if name = "claims" then claimsService else premiumService
  defaultService := "premiums"
  registry := .ofList [("premiums", "premiums"), ("claims", "claims")]
  definitions := .ofList [("premiums", premiumSchema), ("claims", claimsService.schema)]

/-- A table with one column and no rows. -/
def headerTable (column : String) : DataFrame where
  columns := [column]
  rows := []
  nodup := List.nodup_singleton _
  width := by simp

/-- A CSV file with the one column `GWP`. -/
def grossFile : UploadFile where
  filename := some "march.csv"
  size := 4
  readCsv _ := .ok (headerTable "GWP")
  readExcel _ := .ok (headerTable "GWP")

/-- A temp name as `tempfile` makes them. -/
def someTemp : TempName := ⟨"/tmp", "k3v9x_2a", by decide⟩

def noDisk : Files where
  pathExists _ := false
  readCsv path _ := .error (.fileNotFoundError path)
  readExcel path _ := .error (.fileNotFoundError path)

end RiskFlow
