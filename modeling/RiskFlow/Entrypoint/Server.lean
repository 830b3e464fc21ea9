import RiskFlow.Entrypoint.Application
import RiskFlow.Http.JobPolling
import RiskFlow.Http.SavedFiles

/-!
# Server — all handlers of one process on one temp directory

Uploads, background jobs, sheet lists, schemas, sessions, corrections and
expiring entries as tasks of one pool. They share the registry, the caches,
the stores and the directory that `tempfile` writes to: what one handler
leaves there or removes is what the next one finds.
-/

namespace RiskFlow

open Lib MappingService

/-! ## The shared state -/

/-- What the handlers share. `filed` and `removed` are kept for the statements
and read by no handler: the temp file of each session created here, and the
sessions whose file a DELETE has removed. -/
structure ServerWorld (τ : Type) where
  app : AppWorld
  stores : Stores
  jobs : τ
  filed : Dict String String := ∅
  removed : List String := []

namespace ServerWorld
variable {τ : Type} (w : ServerWorld τ)

/-- The files, those of the temp directory among them. -/
def disk : Files := w.app.sessions.files

def withDisk (files : Files) : ServerWorld τ :=
  { w with app := { w.app with sessions := { w.app.sessions with files } } }

end ServerWorld

/-! ## Uploads -/

/-- Where `POST /upload` stands. -/
inductive RequestPhase where
  | received
  | serving (activeService : MappingService) (phase : UploadPhase)
  | answered (answer : Except HttpException ProcessingResult)

structure UploadTask where
  request : UploadRequest MappingService
  outages : Outages := {}
  phase : RequestPhase := .received

namespace UploadTask
variable {τ : Type} (env : AppEnv) (w : ServerWorld τ) (t : UploadTask)

/-- The call of `process_file`, on the files as they are at one of its steps. -/
def call (files : Files) (activeService : MappingService) : Upload :=
  { t.request.call files activeService with files }

/-- After a step of `process_file`: once it has returned or raised, `finally`
removes the file. -/
def settle (files : Files) (activeService : MappingService) (r : Stores × UploadPhase) :
    ServerWorld τ × UploadTask :=
  match r with
  | (stores, .answered outcome) =>
      ({ w.withDisk (files.remove t.request.path) with stores },
        { t with phase := .answered (outcome.mapError (uploadError env.rt)) })
  | (stores, phase) =>
      ({ w.withDisk files with stores }, { t with phase := .serving activeService phase })

/-- The next step of `upload_file`. -/
def advance : ServerWorld τ × UploadTask :=
  let u := t.request
  match t.phase with
  -- everything up to the first await of `process_file`
  | .received =>
      match validateFile env.rt u.file with
      | .error e => (w, { t with phase := .answered (.error e) })
      | .ok () =>
          match (w.app.router env).resolveService u.schema with
          | .error e => (w, { t with phase := .answered (.error e) })
          | .ok activeService =>
              let files := saveTempFile w.disk u.path u.file
              t.settle env w files activeService
                (UploadPhase.started.advance env.rt activeService (t.call files activeService)
                  t.outages w.stores)
  | .serving activeService phase =>
      t.settle env w w.disk activeService
        (phase.advance env.rt activeService (t.call w.disk activeService) t.outages w.stores)
  | .answered _ => (w, t)

end UploadTask

/-! ## Background jobs -/

/-- A `POST /upload/async` request, with what `tempfile`, `uuid4`, the clock
and the mapper give it, and what its three calls to the job store come to. -/
structure JobRequest where
  file : UploadFile
  sheetName : Option String := none
  temp : TempName
  id : String
  createdAt : DateTime
  mapper : Mapper
  outages : Outages := {}
  accepting : ClientCall := .answers
  starting : ClientCall := .answers
  finishing : ClientCall := .answers

/-- Where the request and its background task stand. In `stranded` a call
outside of the `try`, or the one in `finally`, has raised, and the lines behind
it were not reached. -/
inductive JobPhase where
  | received
  | refused (e : HttpException)
  | queued (job : Job)
  | processing (job : Job) (phase : UploadPhase)
  | ended (job : Job) (raised : Option PyErr)
  | stranded (job : Job) (e : PyErr)

namespace JobRequest
variable {τ : Type} (env : AppEnv) (port : JobStorePort τ) (w : ServerWorld τ) (r : JobRequest)

def path : String := tempPath r.temp r.file

/-- The call of `process_file`: without a cedent, on the default service. -/
def call (files : Files) : Upload where
  files := files
  mapper := r.mapper
  filePath := r.path
  sheetName := r.sheetName

/-- `upload_file_async`. The job is saved before the file is. -/
def accept : ServerWorld τ × JobPhase :=
  match validateFile env.rt r.file with
  | .error e => (w, .refused e)
  | .ok () =>
      let job := Job.create r.id r.createdAt r.file.filename
      match port.save w.jobs job r.accepting with
      | (jobs, .error _) => ({ w with jobs }, .refused unhandled)
      | (jobs, .ok _) =>
          ({ w.withDisk (saveTempFile w.disk r.path r.file) with jobs }, .queued job)

/-- `_process_job` up to `process_file`. -/
def begin (job : Job) : ServerWorld τ × JobPhase :=
  match job.start with
  | .error e => (w, .stranded job e)
  | .ok job =>
      match port.save w.jobs job r.starting with
      | (jobs, .error e) => ({ w with jobs }, .stranded job e)
      | (jobs, .ok _) => ({ w with jobs }, .processing job .started)

/-- `_process_job` from the outcome of `process_file` on. -/
def conclude (job : Job) (outcome : Except PyErr ProcessingResult) : ServerWorld τ × JobPhase :=
  let (job, inFlight) := completeOrFail env.rt job outcome
  match port.save w.jobs job r.finishing with
  | (jobs, .error e) => ({ w with jobs }, .stranded job e)
  | (jobs, .ok _) => ({ w.withDisk (w.disk.remove r.path) with jobs }, .ended job inFlight)

/-- The next step of the request, or of its background task. -/
def advance : JobPhase → ServerWorld τ × JobPhase
  | .received => r.accept env port w
  | .queued job => r.begin port w job
  | .processing job (.answered outcome) => r.conclude env port w job outcome
  | .processing job phase =>
      let step := phase.advance env.rt env.mappingService (r.call w.disk) r.outages w.stores
      ({ w with stores := step.1 }, .processing job step.2)
  | .refused e => (w, .refused e)
  | .ended job raised => (w, .ended job raised)
  | .stranded job e => (w, .stranded job e)

end JobRequest

/-! ## Sheet lists -/

/-- A `POST /sheets` request; `workbook` is what openpyxl finds in a file. -/
structure SheetsTask where
  file : UploadFile
  temp : TempName
  workbook : String → Except PyErr (List String)
  answer : Option (Except HttpException (List String)) := none

namespace SheetsTask
variable {τ : Type} (env : AppEnv) (w : ServerWorld τ) (t : SheetsTask)

def path : String := tempPath t.temp t.file

/-- `list_sheets`, which has no `except` clause and no await. -/
def advance : ServerWorld τ × SheetsTask :=
  match t.answer with
  | some _ => (w, t)
  | none =>
      match validateFile env.rt t.file with
      | .error e => (w, { t with answer := some (.error e) })
      | .ok () =>
          let files := saveTempFile w.disk t.path t.file
          let names := PolarsIngestor.getSheetNames files t.workbook t.path
          (w.withDisk (files.remove t.path),
            { t with answer := some (names.mapError fun _ => unhandled) })

end SheetsTask

/-! ## The pool -/

/-- An entry whose time to live ends. -/
inductive Expiring where
  | session (sessionId : String)
  | job (jobId : String)

/-- A handler of this process, an entry that expires, or what happens to the
caches beside them: corrections, entries that expire, the uploads of other
processes. -/
inductive ServerTask where
  | upload (t : UploadTask)
  | job (r : JobRequest) (phase : JobPhase)
  | sheets (t : SheetsTask)
  | app (t : AppTask)
  | beside (t : ServiceTask)
  | expiry (entry : Expiring) (expired : Bool)

/-- The file of a session that `create_session` is about to save. -/
def AppTask.noteFiled (filed : Dict String String) : AppTask → Dict String String
  | .create ⟨u, .saving created⟩ => filed.set created.id u.path
  | _ => filed

/-- The session whose file the next step removes. -/
def AppTask.noteRemoved (removed : List String) : AppTask → List String
  | .session ⟨sessionId, ⟨.delete, .loaded (some _)⟩, _⟩ => sessionId :: removed
  | _ => removed

namespace UploadTask
variable {τ : Type} (env : AppEnv) (w : ServerWorld τ) (t : UploadTask)

theorem request_settle (files : Files) (activeService : MappingService)
    (r : Stores × UploadPhase) : (t.settle env w files activeService r).2.request = t.request := by
  obtain ⟨stores, phase⟩ := r
  cases phase <;> rfl

theorem request_advance : (t.advance env w).2.request = t.request := by
  unfold advance
  dsimp only
  split
  · split
    · rfl
    · split
      · rfl
      · exact t.request_settle env w _ _ _
  · exact t.request_settle env w _ _ _
  · rfl

end UploadTask

theorem SheetsTask.file_advance {τ : Type} (env : AppEnv) (w : ServerWorld τ) (t : SheetsTask) :
    (t.advance env w).2.temp = t.temp ∧ (t.advance env w).2.file = t.file := by
  unfold advance
  split
  · exact ⟨rfl, rfl⟩
  · split <;> exact ⟨rfl, rfl⟩

theorem CreateTask.upload_advance (env : AppEnv) (w : AppWorld) (t : CreateTask) :
    (t.advance env w).2.upload = t.upload := by
  unfold advance
  dsimp only
  split
  · split
    · rfl
    · split
      · rfl
      · split <;> rfl
  · split <;> rfl
  · rfl
  · rfl
  · rfl

namespace ServerTask
variable {τ : Type}

/-- The next step of a task. -/
def advance (env : AppEnv) (port : JobStorePort τ) (w : ServerWorld τ) :
    ServerTask → ServerWorld τ × ServerTask
  | .upload t => ((t.advance env w).1, .upload (t.advance env w).2)
  | .job r phase => ((r.advance env port w phase).1, .job r (r.advance env port w phase).2)
  | .sheets t => ((t.advance env w).1, .sheets (t.advance env w).2)
  | .app t =>
      let step := t.advance env w.app
      ({ w with
          app := step.1
          filed := step.2.noteFiled w.filed
          removed := t.noteRemoved w.removed },
        .app step.2)
  | .beside t =>
      ({ w with stores := (t.advance env.rt w.stores).1 }, .beside (t.advance env.rt w.stores).2)
  | .expiry (.session sessionId) false =>
      ({ w with app.sessions.store :=
          RedisMappingSessionStore.delete w.app.sessions.store sessionId },
        .expiry (.session sessionId) true)
  | .expiry (.job jobId) false =>
      ({ w with jobs := port.expire w.jobs jobId }, .expiry (.job jobId) true)
  | .expiry entry true => (w, .expiry entry true)

/-- A task that has not begun. -/
def Begins : ServerTask → Prop
  | .upload t => t.phase = .received
  | .job _ phase => phase = .received
  | .sheets t => t.answer = none
  | .app t => ∃ request, t = .begin request
  | .beside t => t.Begins
  | .expiry _ expired => expired = false

/-- The temp file of the task: its path, and the upload saved there. -/
def temp? : ServerTask → Option (String × UploadFile)
  | .upload t => some (t.request.path, t.request.file)
  | .job r _ => some (r.path, r.file)
  | .sheets t => some (t.path, t.file)
  | .app (.create t) => some (t.upload.path, t.upload.file)
  | _ => none

def path? (t : ServerTask) : Option String := t.temp?.map Prod.fst

/-- No step changes what file a task has. -/
theorem temp?_advance (env : AppEnv) (port : JobStorePort τ) (w : ServerWorld τ) (t : ServerTask) :
    (t.advance env port w).2.temp? = t.temp? := by
  cases t with
  | upload t =>
      show some _ = some _
      rw [UploadTask.request_advance]
  | sheets t =>
      obtain ⟨htemp, hfile⟩ := SheetsTask.file_advance env w t
      show some (tempPath _ _, _) = some (tempPath _ _, _)
      rw [htemp, hfile]
  | app t =>
      cases t with
      | create t =>
          show some (SessionUpload.path _, _) = some (SessionUpload.path _, _)
          rw [CreateTask.upload_advance]
      | schema t => rfl
      | session h => rfl
  | job r phase => rfl
  | beside t => rfl
  | expiry entry expired => cases entry <;> cases expired <;> rfl

end ServerTask

end RiskFlow
