import RiskFlow.Http.Jobs
import RiskFlow.Http.Uploads
import RiskFlow.Lib.Interleaving

/-!
# JobPolling — async uploads and the clients that ask for them

`POST /upload/async` answers with a job id and leaves the work to a
background task; `GET /jobs/{job_id}` shows how far it has come. Uploads
run at the same time, their calls to the store may fail or be cancelled,
and entries expire. What a client sees of its job only ever moves on.

The routes speak to a store through its port, so the results hold of both
adapters; the last one says when the two cannot be told apart.
-/

namespace RiskFlow

open Lib

/-! ## The port and its adapters -/

/-- What becomes of a call to the store: it answers, it fails with an error
the adapter catches, or its task is cancelled while it waits. A call without
an answer may have been carried out all the same. -/
inductive ClientCall where
  | answers
  | fails (written : Bool)
  | cancelled (written : Bool)

/-- `JobStorePort`, and what its users rely on: a call changes what is stored
under the id of its job and nothing else. `seen` is a saved job as it is
read back. -/
structure JobStorePort (σ : Type) where
  save : σ → Job → ClientCall → σ × Except PyErr Unit
  get : σ → String → Option Job
  expire : σ → String → σ
  seen : Job → Job
  seen_status : ∀ job, (seen job).status = job.status
  get_save : ∀ s job call id, get (save s job call).1 id = get s id ∨
    id = job.id ∧ get (save s job call).1 id = some (seen job)
  get_answered : ∀ s job, (save s job .answers).2 = .ok () →
    get (save s job .answers).1 job.id = some (seen job)
  get_expire : ∀ s gone id, get (expire s gone) id = get s id ∨
    id = gone ∧ get (expire s gone) id = none

namespace RedisJobStore

/-- `save` with its `except`: the encoder raises through it, a failing client
is logged and forgotten. -/
def saveCall (store : Dict String Json) (job : Job) (call : ClientCall) :
    Dict String Json × Except PyErr Unit :=
  match save store job with
  | .error e => (store, .error e)
  | .ok stored =>
      match call with
      | .answers => (stored, .ok ())
      | .fails written => (if written then stored else store, .ok ())
      | .cancelled written =>
          (if written then stored else store, .error (.baseException "CancelledError"))

/-- The job with its result written and parsed. -/
def reloaded (job : Job) : Job :=
  match dumps job.result with
  | .ok data => { job with result := loads data }
  | .error _ => job

theorem key_ne {id id' : String} (h : id ≠ id') : keyPrefix ++ id ≠ keyPrefix ++ id' :=
  fun heq => h ((String.append_right_inj _).mp heq)

theorem dumps_optStr (s : Option String) :
    ∃ j, dumps (Job.optStr s) = .ok j ∧ loads j = Job.optStr s :=
  loads_dumps _ (Job.optStr_isJson s)

/-- The stored text of a job reads back as the job, its result reloaded. -/
theorem fromDict_dumps (rt : Runtime) {job : Job} {data : Json}
    (h : dumps job.toDict = .ok data) : Job.fromDict rt (loads data) = some (reloaded job) := by
  obtain ⟨jf, hjf, hlf⟩ := dumps_optStr job.filename
  obtain ⟨je, hje, hle⟩ := dumps_optStr job.error
  unfold reloaded
  cases hr : dumps job.result with
  | error e => simp [Job.toDict, dumps, dumpsEntries, hr, hjf, bind, Except.bind, Except.map] at h
  | ok jr =>
      simp only [Job.toDict, dumps, dumpsEntries, hr, hjf, hje, bind, Except.bind, Except.map,
        pure, Except.pure, Except.ok.injEq] at h
      subst h
      have hkeys : (Dict.ofList [("id", PyVal.str job.id), ("status", .str job.status.value),
          ("filename", Job.optStr job.filename), ("created_at", .str job.createdAt.isoformatUtc),
          ("result", loads jr), ("error", Job.optStr job.error)]).entries = _ :=
        Dict.ofList_entries (by simp)
      simp only [loads, loadsEntries, hlf, hle]
      rw [hkeys]
      simp [Job.fromDict, lookup, Runtime.str, DateTime.fromisoformatUtc_isoformatUtc]

theorem get_of_save (rt : Runtime) {store stored : Dict String Json} {job : Job}
    (h : save store job = .ok stored) (id : String) :
    (id ≠ job.id → get rt stored id = get rt store id) ∧
      get rt stored job.id = some (reloaded job) := by
  obtain ⟨data, hdata, hset⟩ := bind_eq_ok.mp h
  cases hset
  constructor
  · intro hne
    unfold get
    rw [Dict.get?_set_ne _ _ (key_ne (Ne.symm hne))]
  · unfold get
    rw [Dict.get?_set_self]
    exact fromDict_dumps rt hdata

theorem get_saveCall (rt : Runtime) (store : Dict String Json) (job : Job) (call : ClientCall)
    (id : String) :
    get rt (saveCall store job call).1 id = get rt store id ∨
      id = job.id ∧ get rt (saveCall store job call).1 id = some (reloaded job) := by
  unfold saveCall
  cases hsave : save store job with
  | error e => exact .inl rfl
  | ok stored =>
      have hread : get rt stored id = get rt store id ∨
          id = job.id ∧ get rt stored id = some (reloaded job) := by
        obtain ⟨hother, hown⟩ := get_of_save rt hsave id
        by_cases hid : id = job.id
        · subst hid
          exact .inr ⟨rfl, hown⟩
        · exact .inl (hother hid)
      cases call with
      | answers => exact hread
      | fails written =>
          cases written with
          | true => exact hread
          | false => exact .inl rfl
      | cancelled written =>
          cases written with
          | true => exact hread
          | false => exact .inl rfl

end RedisJobStore

/-- `RedisJobStore` behind the port. -/
def redisJobs (rt : Runtime) : JobStorePort (Dict String Json) where
  save := RedisJobStore.saveCall
  get := RedisJobStore.get rt
  expire store id := store.erase (RedisJobStore.keyPrefix ++ id)
  seen := RedisJobStore.reloaded
  seen_status job := by
    unfold RedisJobStore.reloaded
    split <;> rfl
  get_save := RedisJobStore.get_saveCall rt
  get_answered s job h := by
    unfold RedisJobStore.saveCall at h ⊢
    cases hsave : RedisJobStore.save s job with
    | error e =>
        rw [hsave] at h
        cases h
    | ok stored => exact (RedisJobStore.get_of_save rt hsave job.id).2
  get_expire s gone id := by
    by_cases hid : id = gone
    · subst hid
      exact .inr ⟨rfl, by simp [RedisJobStore.get]⟩
    · left
      unfold RedisJobStore.get
      rw [Dict.get?_erase, if_neg (RedisJobStore.key_ne (Ne.symm hid))]

/-- `InMemoryJobStore` behind the port. Its dict holds the job objects
themselves; a task changes its job only in a step that saves it, so that
at every await the object is the job as saved. Nothing expires. -/
def inMemoryJobs : JobStorePort (Dict String Job) where
  save jobs job _ := (jobs.set job.id job, .ok ())
  get jobs id := jobs.get? id
  expire jobs _ := jobs
  seen job := job
  seen_status _ := rfl
  get_save jobs job _ id := by
    by_cases hid : id = job.id
    · subst hid
      exact .inr ⟨rfl, Dict.get?_set_self ..⟩
    · exact .inl (Dict.get?_set_ne _ _ (Ne.symm hid))
  get_answered jobs job _ := Dict.get?_set_self ..
  get_expire _ _ _ := .inl rfl

/-! ## The tasks -/

/-- The job store of a server and its temp files. -/
structure JobServer (σ : Type) where
  jobs : σ
  files : List String

/-- An async upload: the request, what `tempfile`, `uuid4` and the clock give
it, what `process_file` returns or raises, and what its three calls to the
store come to. -/
structure AsyncUpload where
  file : UploadFile
  temp : TempName
  id : String
  createdAt : DateTime
  outcome : Except PyErr ProcessingResult
  accepting : ClientCall := .answers
  starting : ClientCall := .answers
  finishing : ClientCall := .answers

/-- Where an upload stands: not answered yet, answered with an error, waiting
for the task to begin, inside `process_file`, and over. -/
inductive AsyncPhase where
  | received
  | refused (e : HttpException)
  | queued (job : Job)
  | processing (job : Job)
  | ended (job : Job) (raised : Option PyErr)

namespace AsyncUpload

def path (u : AsyncUpload) : String := tempPath u.temp u.file

section Steps
variable {σ : Type} (rt : Runtime) (port : JobStorePort σ) (u : AsyncUpload) (s : JobServer σ)

/-- `upload_file_async`. -/
def accept : JobServer σ × AsyncPhase :=
  match validateFile rt u.file with
  | .error e => (s, .refused e)
  | .ok _ =>
      let job := Job.create u.id u.createdAt u.file.filename
      match port.save s.jobs job u.accepting with
      | (jobs, .error _) => ({ s with jobs }, .refused unhandled)
      | (jobs, .ok _) => ({ jobs, files := u.path :: s.files }, .queued job)

/-- `_process_job` up to `process_file`. -/
def begin (job : Job) : JobServer σ × AsyncPhase :=
  match job.start with
  | .error e => (s, .ended job (some e))
  | .ok job =>
      match port.save s.jobs job u.starting with
      -- outside of the `try`: the temp file stays
      | (jobs, .error e) => ({ s with jobs }, .ended job (some e))
      | (jobs, .ok _) => ({ s with jobs }, .processing job)

/-- `_process_job` from the outcome of `process_file` on. -/
def conclude (job : Job) : JobServer σ × AsyncPhase :=
  let (job, inFlight) := completeOrFail rt job u.outcome
  match port.save s.jobs job u.finishing with
  | (jobs, .error e) => ({ s with jobs }, .ended job (some e))
  | (jobs, .ok _) =>
      ({ jobs, files := s.files.filter fun f => f ≠ u.path }, .ended job inFlight)

/-- The next step of an upload. -/
def advance : AsyncPhase → JobServer σ × AsyncPhase
  | .received => u.accept rt port s
  | .queued job => u.begin port s job
  | .processing job => u.conclude rt port s job
  | .refused e => (s, .refused e)
  | .ended job raised => (s, .ended job raised)

end Steps

end AsyncUpload

/-- An upload, or an entry whose time to live ends. -/
inductive JobTask where
  | upload (u : AsyncUpload) (phase : AsyncPhase)
  | expiry (id : String) (expired : Bool)

namespace JobTask

/-- The next step of a task. -/
def advance {σ : Type} (rt : Runtime) (port : JobStorePort σ) (s : JobServer σ) :
    JobTask → JobServer σ × JobTask
  | .upload u phase => ((u.advance rt port s phase).1, .upload u (u.advance rt port s phase).2)
  | .expiry id false => ({ s with jobs := port.expire s.jobs id }, .expiry id true)
  | .expiry id true => (s, .expiry id true)

/-- The job that is the task's own. -/
def jobId? : JobTask → Option String
  | .upload u _ => some u.id
  | .expiry _ _ => none

end JobTask

/-- The tasks at the start. -/
def uploadTasks (uploads : List AsyncUpload) (expiring : List String) : List JobTask :=
  uploads.map (JobTask.upload · .received) ++ expiring.map (JobTask.expiry · false)

/-- The server after a schedule of uploads and of entries that expire. -/
def serveUploads {σ : Type} (rt : Runtime) (port : JobStorePort σ) (s : JobServer σ)
    (uploads : List AsyncUpload) (expiring : List String) (schedule : List Nat) :
    Pool (JobServer σ) JobTask :=
  Pool.run (JobTask.advance rt port)
    ⟨s, uploadTasks uploads expiring⟩ schedule

/-! ## What a client is told -/

/-- `JobStatusResponse`. -/
structure JobStatusResponse where
  jobId : String
  status : String
  result : PyVal
  error : Option String
  filename : Option String
  createdAt : String

/-- The response for a job. -/
def Job.statusResponse (job : Job) : JobStatusResponse where
  jobId := job.id
  status := job.status.value
  result := job.result
  error := job.error
  filename := job.filename
  createdAt := job.createdAt.isoformatUtc

/-- `get_job_status`. -/
def getJobStatus {σ : Type} (port : JobStorePort σ) (s : JobServer σ) (jobId : String) :
    Except HttpException JobStatusResponse :=
  match port.get s.jobs jobId with
  | none => .error ⟨404, .text "Job not found"⟩
  | some job => .ok job.statusResponse

/-! ## The course of a job -/

namespace AsyncUpload
variable {σ : Type} (rt : Runtime) (port : JobStorePort σ) (u : AsyncUpload)

/-- The job after none, one and two of its moves. -/
def snapshot : Nat → Job
  | 0 => Job.create u.id u.createdAt u.file.filename
  | 1 => startedJob u.id u.createdAt u.file.filename
  | _ => (completeOrFail rt (startedJob u.id u.createdAt u.file.filename) u.outcome).1

/-- In this phase the job has made `n` moves. -/
def At (n : Nat) : AsyncPhase → Prop
  | .received => n = 0
  | .refused _ => n = 0
  | .queued job => n = 0 ∧ job = u.snapshot rt 0
  | .processing job => n = 1 ∧ job = u.snapshot rt 1
  | .ended job _ => job = u.snapshot rt n

variable {rt} {u}

theorem completeOrFail_id (job : Job) (outcome : Except PyErr ProcessingResult) :
    (completeOrFail rt job outcome).1.id = job.id := by
  have hcomplete : ∀ (result : Row) completed, job.complete result = .ok completed →
      completed.id = job.id := by
    intro result completed h
    unfold Job.complete at h
    split at h <;> cases h
    rfl
  have hfail : ∀ (error : String) failed, job.fail error = .ok failed → failed.id = job.id := by
    intro error failed h
    unfold Job.fail at h
    split at h <;> cases h
    rfl
  unfold completeOrFail
  split
  · rename_i completed hok
    obtain ⟨result, _, hdone⟩ := bind_eq_ok.mp hok
    exact hcomplete _ _ hdone
  · split
    · split
      · rename_i failed hfailed
        exact hfail _ _ hfailed
      · rfl
    · rfl

theorem snapshot_id (n : Nat) : (u.snapshot rt n).id = u.id := by
  match n with
  | 0 => rfl
  | 1 => rfl
  | _ + 2 => exact completeOrFail_id _ _

/-- **One step of an upload.** The job makes at most one move, and what
changes in the store is the entry of the job, which becomes the moved job. -/
theorem advance_moves (s : JobServer σ) {n : Nat} (hn : n ≤ 2) {phase : AsyncPhase}
    (hat : u.At rt n phase) :
    ∃ m, n ≤ m ∧ m ≤ 2 ∧ u.At rt m (u.advance rt port s phase).2 ∧
      ∀ id, port.get (u.advance rt port s phase).1.jobs id = port.get s.jobs id ∨
        id = u.id ∧ port.get (u.advance rt port s phase).1.jobs id =
          some (port.seen (u.snapshot rt m)) := by
  have hwrites : ∀ m call id, port.get (port.save s.jobs (u.snapshot rt m) call).1 id =
        port.get s.jobs id ∨
      id = u.id ∧ port.get (port.save s.jobs (u.snapshot rt m) call).1 id =
        some (port.seen (u.snapshot rt m)) := by
    intro m call id
    have hsave := port.get_save s.jobs (u.snapshot rt m) call id
    rwa [snapshot_id] at hsave
  cases phase with
  | received =>
      have hcreate : Job.create u.id u.createdAt u.file.filename = u.snapshot rt 0 := rfl
      obtain rfl : n = 0 := hat
      refine ⟨0, Nat.le_refl 0, by omega, ?_⟩
      show u.At rt 0 (u.accept rt port s).2 ∧ ∀ id, port.get (u.accept rt port s).1.jobs id =
          port.get s.jobs id ∨ id = u.id ∧ port.get (u.accept rt port s).1.jobs id =
          some (port.seen (u.snapshot rt 0))
      unfold accept
      split
      · exact ⟨rfl, fun _ => .inl rfl⟩
      · rw [hcreate]
        have hw := hwrites 0 u.accepting
        dsimp only
        split
        · rename_i hsave
          rw [hsave] at hw
          exact ⟨rfl, hw⟩
        · rename_i hsave
          rw [hsave] at hw
          exact ⟨⟨rfl, rfl⟩, hw⟩
  | queued job =>
      obtain ⟨rfl, rfl⟩ := hat
      have hstart : (u.snapshot rt 0).start = .ok (u.snapshot rt 1) := rfl
      refine ⟨1, by omega, by omega, ?_⟩
      show u.At rt 1 (u.begin port s (u.snapshot rt 0)).2 ∧
        ∀ id, port.get (u.begin port s (u.snapshot rt 0)).1.jobs id = port.get s.jobs id ∨
          id = u.id ∧ port.get (u.begin port s (u.snapshot rt 0)).1.jobs id =
            some (port.seen (u.snapshot rt 1))
      unfold begin
      rw [hstart]
      have hw := hwrites 1 u.starting
      dsimp only
      split
      · rename_i hsave
        rw [hsave] at hw
        exact ⟨rfl, hw⟩
      · rename_i hsave
        rw [hsave] at hw
        exact ⟨⟨rfl, rfl⟩, hw⟩
  | processing job =>
      obtain ⟨rfl, rfl⟩ := hat
      have hend : (completeOrFail rt (u.snapshot rt 1) u.outcome).1 = u.snapshot rt 2 := rfl
      refine ⟨2, by omega, Nat.le_refl 2, ?_⟩
      show u.At rt 2 (u.conclude rt port s (u.snapshot rt 1)).2 ∧
        ∀ id, port.get (u.conclude rt port s (u.snapshot rt 1)).1.jobs id = port.get s.jobs id ∨
          id = u.id ∧ port.get (u.conclude rt port s (u.snapshot rt 1)).1.jobs id =
            some (port.seen (u.snapshot rt 2))
      unfold conclude
      have hw := hwrites 2 u.finishing
      dsimp only
      rw [hend]
      split
      · rename_i hsave
        rw [hsave] at hw
        exact ⟨rfl, hw⟩
      · rename_i hsave
        rw [hsave] at hw
        exact ⟨rfl, hw⟩
  | refused e => exact ⟨n, Nat.le_refl n, hn, hat, fun _ => .inl rfl⟩
  | ended job raised => exact ⟨n, Nat.le_refl n, hn, hat, fun _ => .inl rfl⟩

/-- The upload has not gone back behind its `m`-th move, and what is stored of
its job is at least that far and no further than the upload. -/
def Follows (rt : Runtime) (port : JobStorePort σ) (u : AsyncUpload) (m : Nat) (s : JobServer σ)
    (t : JobTask) : Prop :=
  ∃ phase n, t = .upload u phase ∧ u.At rt n phase ∧ m ≤ n ∧ n ≤ 2 ∧
    ∀ job, port.get s.jobs u.id = some job →
      ∃ k, m ≤ k ∧ k ≤ n ∧ job = port.seen (u.snapshot rt k)

theorem follows_own {m : Nat} (s : JobServer σ) (t : JobTask) (h : Follows rt port u m s t) :
    Follows rt port u m (t.advance rt port s).1 (t.advance rt port s).2 := by
  obtain ⟨phase, n, rfl, hat, hmn, hn, hstored⟩ := h
  obtain ⟨n', hnn', hn', hat', hget⟩ := advance_moves port s hn hat
  refine ⟨_, n', rfl, hat', by omega, hn', fun job hjob => ?_⟩
  rcases hget u.id with hsame | ⟨_, hnew⟩
  · obtain ⟨k, hmk, hkn, hk⟩ := hstored job (hsame.symm.trans hjob)
    exact ⟨k, hmk, by omega, hk⟩
  · exact ⟨n', by omega, Nat.le_refl n', Option.some.inj (hjob.symm.trans hnew)⟩

end AsyncUpload

namespace JobTask
variable {σ : Type} {rt : Runtime} {port : JobStorePort σ}

/-- An upload holds the job its phase says. -/
def OnCourse (rt : Runtime) : JobTask → Prop
  | .upload u phase => ∃ n ≤ 2, u.At rt n phase
  | .expiry _ _ => True

theorem onCourse_advance (s : JobServer σ) (t : JobTask) (h : t.OnCourse rt) :
    (t.advance rt port s).2.OnCourse rt := by
  cases t with
  | upload u phase =>
      obtain ⟨n, hn, hat⟩ := h
      obtain ⟨m, _, hm, hat', _⟩ := AsyncUpload.advance_moves port s hn hat
      exact ⟨m, hm, hat'⟩
  | expiry id expired => cases expired <;> trivial

theorem jobId?_advance (s : JobServer σ) (t : JobTask) :
    (t.advance rt port s).2.jobId? = t.jobId? := by
  cases t with
  | upload u phase => rfl
  | expiry id expired => cases expired <;> rfl

/-- **The frame of a step.** Of a job that is not its own a task can only let
the entry expire. -/
theorem get_other (s : JobServer σ) {t : JobTask} (h : t.OnCourse rt) {id : String}
    (hid : t.jobId? ≠ some id) :
    port.get (t.advance rt port s).1.jobs id = port.get s.jobs id ∨
      port.get (t.advance rt port s).1.jobs id = none := by
  cases t with
  | upload u phase =>
      obtain ⟨n, hn, hat⟩ := h
      obtain ⟨_, _, _, _, hget⟩ := AsyncUpload.advance_moves port s hn hat
      rcases hget id with hsame | ⟨hown, _⟩
      · exact .inl hsame
      · exact absurd (congrArg some hown.symm) hid
  | expiry gone expired =>
      cases expired with
      | true => exact .inl rfl
      | false =>
          rcases port.get_expire s.jobs gone id with hsame | ⟨_, hnone⟩
          · exact .inl hsame
          · exact .inr hnone

end JobTask

/-! ## Every schedule -/

section Polling
variable {σ : Type} {rt : Runtime} {port : JobStorePort σ}

/-- No task of the pool owns the job. -/
def Unowned (rt : Runtime) (p : Pool (JobServer σ) JobTask) (id : String) : Prop :=
  ∀ t ∈ p.tasks, t.OnCourse rt ∧ t.jobId? ≠ some id

/-- A job that no task owns keeps its entry until it expires. -/
theorem unowned_run {p : Pool (JobServer σ) JobTask} {id : String} (h : Unowned rt p id)
    (schedule : List Nat) :
    Unowned rt (p.run (JobTask.advance rt port) schedule) id ∧
      ∀ job, port.get (p.run (JobTask.advance rt port) schedule).shared.jobs id = some job →
        port.get p.shared.jobs id = some job := by
  induction schedule generalizing p with
  | nil => exact ⟨h, fun _ hjob => hjob⟩
  | cons i rest ih =>
      have hrun : p.run (JobTask.advance rt port) (i :: rest) =
          (p.step (JobTask.advance rt port) i).run (JobTask.advance rt port) rest := rfl
      rw [hrun]
      cases ht : p.tasks[i]? with
      | none =>
          rw [Pool.step_none _ ht]
          exact ih h
      | some t =>
          obtain ⟨hcourse, hid⟩ := h t (List.mem_of_getElem? ht)
          rw [Pool.step_some _ ht]
          have hstep : Unowned rt ⟨(t.advance rt port p.shared).1,
              p.tasks.set i (t.advance rt port p.shared).2⟩ id := by
            intro u hu
            rcases List.mem_or_eq_of_mem_set hu with hu | rfl
            · exact h u hu
            · rw [JobTask.jobId?_advance]
              exact ⟨JobTask.onCourse_advance p.shared t hcourse, hid⟩
          obtain ⟨hafter, hback⟩ := ih hstep
          refine ⟨hafter, fun job hjob => ?_⟩
          have hstored := hback job hjob
          rcases JobTask.get_other p.shared hcourse hid with hsame | hnone
          · exact hsame.symm.trans hstored
          · rw [hnone] at hstored
            cases hstored

variable {s : JobServer σ} {uploads : List AsyncUpload} {expiring : List String}

theorem uploadTasks_onCourse (uploads : List AsyncUpload) (expiring : List String) :
    ∀ t ∈ uploadTasks uploads expiring, t.OnCourse rt := by
  intro t ht
  rcases List.mem_append.mp ht with ht | ht
  · obtain ⟨u, _, rfl⟩ := List.mem_map.mp ht
    exact ⟨0, by omega, rfl⟩
  · obtain ⟨id, _, rfl⟩ := List.mem_map.mp ht
    trivial

theorem uploadTasks_jobId? {id : String} (hid : ∀ u ∈ uploads, u.id ≠ id) :
    ∀ t ∈ uploadTasks uploads expiring, t.jobId? ≠ some id := by
  intro t ht
  rcases List.mem_append.mp ht with ht | ht
  · obtain ⟨u, hu, rfl⟩ := List.mem_map.mp ht
    exact fun h => hid u hu (Option.some.inj h)
  · obtain ⟨gone, _, rfl⟩ := List.mem_map.mp ht
    exact fun h => by cases h

/-- Beside an upload, no task of the pool owns its job. -/
theorem uploadTasks_beside (hids : (uploads.map AsyncUpload.id).Nodup) {i : Nat}
    {u : AsyncUpload} (hu : uploads[i]? = some u) {j : Nat} {t : JobTask} (hji : j ≠ i)
    (ht : (uploadTasks uploads expiring)[j]? = some t) : t.jobId? ≠ some u.id := by
  by_cases hj : j < uploads.length
  · unfold uploadTasks at ht
    rw [List.getElem?_append_left (by simpa using hj), List.getElem?_map,
      List.getElem?_eq_getElem hj] at ht
    cases ht
    obtain ⟨hi, hget⟩ := List.getElem?_eq_some_iff.mp hu
    intro h
    have hsame : uploads[j].id = uploads[i].id := by
      rw [hget]
      exact Option.some.inj h
    have hj' : j < (uploads.map AsyncUpload.id).length := by simpa using hj
    have hi' : i < (uploads.map AsyncUpload.id).length := by simpa using hi
    have hmapped : (uploads.map AsyncUpload.id)[j] = (uploads.map AsyncUpload.id)[i] := by
      simpa using hsame
    exact hji (hids.getElem_inj_iff.mp hmapped)
  · unfold uploadTasks at ht
    rw [List.getElem?_append_right (by simpa using hj)] at ht
    obtain ⟨gone, _, rfl⟩ := List.mem_map.mp (List.mem_of_getElem? ht)
    exact fun h => by cases h

/-- The tasks beside an upload hold jobs of their own. -/
def Beside (rt : Runtime) (p : Pool (JobServer σ) JobTask) (i : Nat) (u : AsyncUpload) : Prop :=
  ∀ j v, j ≠ i → p.tasks[j]? = some v → v.OnCourse rt ∧ v.jobId? ≠ some u.id

/-- An upload is followed through every schedule. -/
theorem follows_run {p : Pool (JobServer σ) JobTask} {i : Nat} {u : AsyncUpload}
    (hrest : Beside rt p i u) {m : Nat} {t : JobTask} (ht : p.tasks[i]? = some t)
    (h : u.Follows rt port m p.shared t) (schedule : List Nat) :
    (∃ t', (p.run (JobTask.advance rt port) schedule).tasks[i]? = some t' ∧
      u.Follows rt port m (p.run (JobTask.advance rt port) schedule).shared t') ∧
      Beside rt (p.run (JobTask.advance rt port) schedule) i u := by
  refine Pool.followed_turns (JobTask.advance rt port) (n := 0)
    (fun _ s t (h : u.Follows rt port m s t) => AsyncUpload.follows_own port s t h)
    (fun s v (hv : v.OnCourse rt ∧ v.jobId? ≠ some u.id) => ?_) (fun _ s t v hv h => ?_)
    ht hrest h schedule
  · rw [JobTask.jobId?_advance]
    exact ⟨JobTask.onCourse_advance s v hv.1, hv.2⟩
  · obtain ⟨phase, n, rfl, hat, hmn, hn, hstored⟩ := h
    refine ⟨phase, n, rfl, hat, hmn, hn, fun job hjob => ?_⟩
    rcases JobTask.get_other s hv.1 hv.2 with hsame | hnone
    · exact hstored job (hsame.symm.trans hjob)
    · rw [hnone] at hjob
      cases hjob

theorem follows_start (rt : Runtime) (expiring : List String)
    (hids : (uploads.map AsyncUpload.id).Nodup)
    (hfresh : ∀ u ∈ uploads, port.get s.jobs u.id = none) {i : Nat} {u : AsyncUpload}
    (hu : uploads[i]? = some u) :
    (uploadTasks uploads expiring)[i]? = some (.upload u .received) ∧
      u.Follows rt port 0 s (.upload u .received) ∧
      Beside rt ⟨s, uploadTasks uploads expiring⟩ i u := by
  refine ⟨?_, ?_, ?_⟩
  · obtain ⟨hi, _⟩ := List.getElem?_eq_some_iff.mp hu
    unfold uploadTasks
    rw [List.getElem?_append_left (by simpa using hi), List.getElem?_map, hu]
    rfl
  · refine ⟨.received, 0, rfl, rfl, Nat.le_refl 0, by omega, fun job hjob => ?_⟩
    rw [hfresh u (List.mem_of_getElem? hu)] at hjob
    cases hjob
  · intro j v hji hv
    exact ⟨uploadTasks_onCourse uploads expiring v (List.mem_of_getElem? hv),
      uploadTasks_beside hids hu hji hv⟩

/-- A job that has ended makes no move. -/
theorem snapshot_ended {u : AsyncUpload} {n : Nat}
    (h : (u.snapshot rt n).status = .complete ∨ (u.snapshot rt n).status = .failed) : 2 ≤ n := by
  match n with
  | 0 => rcases h with h | h <;> cases h
  | 1 => rcases h with h | h <;> cases h
  | n + 2 => omega

theorem getJobStatus_ok {s : JobServer σ} {id : String} {a : JobStatusResponse} :
    getJobStatus port s id = .ok a ↔
      ∃ job, port.get s.jobs id = some job ∧ a = job.statusResponse := by
  unfold getJobStatus
  cases port.get s.jobs id with
  | none => simp
  | some job => simp [eq_comm]

theorem value_inj {a b : JobStatus} (h : a.value = b.value) : a = b := by
  have hread := congrArg JobStatus.ofValue? h
  rw [JobStatus.ofValue?_value, JobStatus.ofValue?_value] at hread
  exact Option.some.inj hread

end Polling

/-- **What a client sees of its job only moves on.** Of two answers to
`GET /jobs/{job_id}`, with any steps of any uploads between them, any calls
to the store failed or cancelled and any entries expired, the later one shows
the job after at least as many of its moves; a job that has ended is answered
the same from then on; and a job of no upload here is answered as it was. -/
theorem polled_jobs_advance {σ : Type} (rt : Runtime) (port : JobStorePort σ) (s : JobServer σ)
    (uploads : List AsyncUpload) (expiring : List String)
    (hids : (uploads.map AsyncUpload.id).Nodup)
    (hfresh : ∀ u ∈ uploads, port.get s.jobs u.id = none) (earlier later : List Nat)
    (id : String) (a b : JobStatusResponse)
    (ha : getJobStatus port (serveUploads rt port s uploads expiring earlier).shared id = .ok a)
    (hb : getJobStatus port
      (serveUploads rt port s uploads expiring (earlier ++ later)).shared id = .ok b) :
    (∃ u ∈ uploads, u.id = id ∧ ∃ m n, m ≤ n ∧ n ≤ 2 ∧
        a = (port.seen (u.snapshot rt m)).statusResponse ∧
        b = (port.seen (u.snapshot rt n)).statusResponse ∧
        (a.status = "complete" ∨ a.status = "failed" → b = a)) ∨
      (∀ u ∈ uploads, u.id ≠ id) ∧ b = a := by
  obtain ⟨job, hjob, rfl⟩ := getJobStatus_ok.mp ha
  obtain ⟨job', hjob', rfl⟩ := getJobStatus_ok.mp hb
  unfold serveUploads at hjob hjob'
  rw [Pool.run_append] at hjob'
  by_cases hown : ∃ u ∈ uploads, u.id = id
  · left
    obtain ⟨u, hmem, rfl⟩ := hown
    obtain ⟨i, hi, hu⟩ := List.getElem_of_mem hmem
    obtain ⟨ht, hstart, hrest⟩ := follows_start rt expiring hids hfresh
      (List.getElem?_eq_some_iff.mpr ⟨hi, hu⟩)
    obtain ⟨⟨t₁, ht₁, phase₁, n₁, rfl, hat₁, _, hn₁, hseen₁⟩, hrest₁⟩ :=
      follows_run hrest ht hstart earlier
    obtain ⟨m, _, hm, rfl⟩ := hseen₁ job hjob
    -- from here on the upload is followed from its `m`-th move
    have hmiddle : u.Follows rt port m
        (Pool.run (JobTask.advance rt port) ⟨s, uploadTasks uploads expiring⟩ earlier).shared
        (.upload u phase₁) := by
      refine ⟨phase₁, n₁, rfl, hat₁, hm, hn₁, fun job hsome => ?_⟩
      rw [hjob] at hsome
      exact ⟨m, Nat.le_refl m, hm, (Option.some.inj hsome).symm⟩
    obtain ⟨⟨_, _, _, n₂, _, _, _, hn₂, hseen₂⟩, _⟩ := follows_run hrest₁ ht₁ hmiddle later
    obtain ⟨n, hmn, hn, rfl⟩ := hseen₂ job' hjob'
    refine ⟨u, hmem, rfl, m, n, hmn, by omega, rfl, rfl, fun hended => ?_⟩
    have hstatus : (u.snapshot rt m).status = .complete ∨ (u.snapshot rt m).status = .failed := by
      rw [← port.seen_status]
      rcases hended with h | h
      · exact .inl (value_inj h)
      · exact .inr (value_inj h)
    have htwo := snapshot_ended hstatus
    have hsame : n = m := by omega
    rw [hsame]
  · right
    have hnone : ∀ u ∈ uploads, u.id ≠ id := fun u hu h => hown ⟨u, hu, h⟩
    refine ⟨hnone, ?_⟩
    have hstart : Unowned rt ⟨s, uploadTasks uploads expiring⟩ id := fun t ht =>
      ⟨uploadTasks_onCourse uploads expiring t ht, uploadTasks_jobId? hnone t ht⟩
    have hsame := (unowned_run (unowned_run hstart earlier).1 later).2 job' hjob'
    rw [Option.some.inj (hsame.symm.trans hjob)]

/-- One upload whose result holds a date, and one that the mapper fails while
its last call to the store is lost. -/
def polledUploads : List AsyncUpload :=
  [{ file := grossFile, temp := someTemp, id := "job-1", createdAt := uploadedAt,
      outcome := .ok datedResult },
    { file := grossFile, temp := ⟨"/tmp", "p0q1r2s3", by decide⟩, id := "job-2",
      createdAt := uploadedAt, outcome := .error (.slmUnavailableError "rate limited")
      finishing := .fails true }]

theorem polledUploads_advance :
    ∃ a b : JobStatusResponse,
      ((∃ u ∈ polledUploads, u.id = "job-2" ∧ ∃ m n, m ≤ n ∧ n ≤ 2 ∧
          a = ((redisJobs .plain).seen (u.snapshot .plain m)).statusResponse ∧
          b = ((redisJobs .plain).seen (u.snapshot .plain n)).statusResponse ∧
          (a.status = "complete" ∨ a.status = "failed" → b = a)) ∨
        (∀ u ∈ polledUploads, u.id ≠ "job-2") ∧ b = a) ∧
      a.status = "processing" ∧ b.status = "failed" :=
  ⟨_, _, polled_jobs_advance .plain (redisJobs .plain) ⟨∅, []⟩ polledUploads ["job-1"]
    (by decide) (fun _ _ => rfl) [1, 0, 1] [0, 2, 1, 0] "job-2" _ _ rfl rfl, rfl, rfl⟩

/-! ## The two stores -/

/-- Every call to the store answers. -/
def AsyncUpload.Answered (u : AsyncUpload) : Prop :=
  u.accepting = .answers ∧ u.starting = .answers ∧ u.finishing = .answers

/-- The two servers hold the same jobs and the same files. -/
def SameJobs (rt : Runtime) (s : JobServer (Dict String Json)) (m : JobServer (Dict String Job)) :
    Prop :=
  s.files = m.files ∧ ∀ id, (redisJobs rt).get s.jobs id = inMemoryJobs.get m.jobs id

theorem RedisJobStore.reloaded_of_isJson {job : Job} (h : job.result.isJson = true) :
    RedisJobStore.reloaded job = job := by
  obtain ⟨data, hdata, hback⟩ := loads_dumps job.result h
  unfold RedisJobStore.reloaded
  rw [hdata]
  show { job with result := loads data } = job
  rw [hback]

/-- A job made of JSON values is saved alike. -/
theorem save_same {rt : Runtime} {s : Dict String Json} {m : Dict String Job} {job : Job}
    (h : job.result.isJson = true) (hsame : ∀ id, (redisJobs rt).get s id = inMemoryJobs.get m id) :
    ((redisJobs rt).save s job .answers).2 = .ok () ∧
      ∀ id, (redisJobs rt).get ((redisJobs rt).save s job .answers).1 id =
        inMemoryJobs.get (inMemoryJobs.save m job .answers).1 id := by
  obtain ⟨stored, hsave, _⟩ := RedisJobStore.get_save rt s h
  have hcall : (redisJobs rt).save s job .answers = (stored, .ok ()) := by
    show RedisJobStore.saveCall s job .answers = (stored, .ok ())
    unfold RedisJobStore.saveCall
    rw [hsave]
  rw [hcall]
  refine ⟨rfl, fun id => ?_⟩
  obtain ⟨hother, hown⟩ := RedisJobStore.get_of_save rt hsave id
  show RedisJobStore.get rt stored id = (m.set job.id job).get? id
  by_cases hid : id = job.id
  · subst hid
    rw [hown, RedisJobStore.reloaded_of_isJson h, Dict.get?_set_self]
  · rw [hother hid, Dict.get?_set_ne _ _ (Ne.symm hid)]
    exact hsame id

/-- Where the calls to Redis answer, the two steps of the task are `_process_job`. -/
theorem processJob_steps (rt : Runtime) {u : AsyncUpload} (hanswered : u.Answered)
    (s : JobServer (Dict String Json)) :
    let begun := u.begin (redisJobs rt) s (u.snapshot rt 0)
    let ended := (u.advance rt (redisJobs rt) begun.1 begun.2).1
    let worker := (processJob rt ⟨s.jobs, s.files⟩ (u.snapshot rt 0) u.path u.outcome).1
    ended.jobs = worker.jobs ∧ ended.files = worker.files := by
  obtain ⟨_, hstarting, hfinishing⟩ := hanswered
  have hstart : (u.snapshot rt 0).start = .ok (u.snapshot rt 1) := rfl
  have hjson : (u.snapshot rt 1).result.isJson = true := rfl
  obtain ⟨started, hstarted, _⟩ := RedisJobStore.get_save rt s.jobs hjson
  have hbegun : u.begin (redisJobs rt) s (u.snapshot rt 0) =
      ({ s with jobs := started }, .processing (u.snapshot rt 1)) := by
    simp only [AsyncUpload.begin, hstart, hstarting, redisJobs, RedisJobStore.saveCall, hstarted]
  rw [hbegun]
  simp only [AsyncUpload.advance, AsyncUpload.conclude, processJob, hstart, hstarted, finishJob,
    hfinishing, redisJobs, RedisJobStore.saveCall]
  cases RedisJobStore.save started (completeOrFail rt (u.snapshot rt 1) u.outcome).1 with
  | error e => exact ⟨rfl, rfl⟩
  | ok jobs => exact ⟨rfl, rfl⟩

namespace AsyncUpload

/-- The result, if there is one, is made of JSON values. -/
def HasJsonResult (u : AsyncUpload) : Prop :=
  ∀ result, u.outcome = .ok result → Storable (.ok result)

theorem snapshot_isJson {rt : Runtime} {u : AsyncUpload} (h : u.HasJsonResult) (n : Nat) :
    (u.snapshot rt n).result.isJson = true := by
  match n with
  | 0 => rfl
  | 1 => rfl
  | n + 2 =>
      show (completeOrFail rt (startedJob u.id u.createdAt u.file.filename)
        u.outcome).1.result.isJson = true
      cases houtcome : u.outcome with
      | ok result =>
          rw [completeOrFail_ok]
          exact modelDump_isJson.mpr (h result houtcome)
      | error e =>
          cases he : e.isException with
          | true =>
              rw [completeOrFail_exception rt _ _ _ he]
              rfl
          | false =>
              rw [completeOrFail_baseException rt _ _ _ he]
              rfl

/-- An upload whose calls answer, and whose result, if it is ever saved, is
made of JSON values. -/
def Plain (rt : Runtime) (u : AsyncUpload) (phase : AsyncPhase) : Prop :=
  u.Answered ∧ (validateFile rt u.file = .ok () → u.HasJsonResult) ∧
    (∃ n ≤ 2, u.At rt n phase) ∧
    (validateFile rt u.file = .ok () ∨ phase = .received ∨ ∃ e, phase = .refused e)

section Same
variable {rt : Runtime} {u : AsyncUpload} {s : JobServer (Dict String Json)}
  {m : JobServer (Dict String Job)}

theorem same_accept (hanswers : u.accepting = .answers)
    (hjson : validateFile rt u.file = .ok () → u.HasJsonResult) (h : SameJobs rt s m) :
    SameJobs rt (u.accept rt (redisJobs rt) s).1 (u.accept rt inMemoryJobs m).1 ∧
      (u.accept rt inMemoryJobs m).2 = (u.accept rt (redisJobs rt) s).2 ∧
      (validateFile rt u.file = .ok () ∨
        ∃ e, (u.accept rt (redisJobs rt) s).2 = .refused e) := by
  unfold accept
  cases hvalid : validateFile rt u.file with
  | error e => exact ⟨h, rfl, .inr ⟨e, rfl⟩⟩
  | ok _ =>
      have hcreate : Job.create u.id u.createdAt u.file.filename = u.snapshot rt 0 := rfl
      obtain ⟨hok, hget⟩ := save_same (snapshot_isJson (hjson hvalid) 0) h.2
      rw [hanswers, hcreate]
      dsimp only
      split
      · rename_i hsave
        rw [hsave] at hok
        cases hok
      · rename_i hsave
        rw [hsave] at hget
        exact ⟨⟨congrArg (u.path :: ·) h.1, hget⟩, rfl, .inl rfl⟩

theorem same_begin (hanswers : u.starting = .answers) (hjson : u.HasJsonResult)
    (h : SameJobs rt s m) :
    SameJobs rt (u.begin (redisJobs rt) s (u.snapshot rt 0)).1
        (u.begin inMemoryJobs m (u.snapshot rt 0)).1 ∧
      (u.begin inMemoryJobs m (u.snapshot rt 0)).2 =
        (u.begin (redisJobs rt) s (u.snapshot rt 0)).2 := by
  have hstart : (u.snapshot rt 0).start = .ok (u.snapshot rt 1) := rfl
  obtain ⟨hok, hget⟩ := save_same (snapshot_isJson hjson 1) h.2
  unfold begin
  rw [hstart, hanswers]
  dsimp only
  split
  · rename_i hsave
    rw [hsave] at hok
    cases hok
  · rename_i hsave
    rw [hsave] at hget
    exact ⟨⟨h.1, hget⟩, rfl⟩

theorem same_conclude (hanswers : u.finishing = .answers) (hjson : u.HasJsonResult)
    (h : SameJobs rt s m) :
    SameJobs rt (u.conclude rt (redisJobs rt) s (u.snapshot rt 1)).1
        (u.conclude rt inMemoryJobs m (u.snapshot rt 1)).1 ∧
      (u.conclude rt inMemoryJobs m (u.snapshot rt 1)).2 =
        (u.conclude rt (redisJobs rt) s (u.snapshot rt 1)).2 := by
  have hend : (completeOrFail rt (u.snapshot rt 1) u.outcome).1 = u.snapshot rt 2 := rfl
  obtain ⟨hok, hget⟩ := save_same (snapshot_isJson hjson 2) h.2
  unfold conclude
  rw [hanswers]
  dsimp only
  rw [hend]
  split
  · rename_i hsave
    rw [hsave] at hok
    cases hok
  · rename_i hsave
    rw [hsave] at hget
    exact ⟨⟨congrArg (List.filter fun f => f ≠ u.path) h.1, hget⟩, rfl⟩

/-- **An upload takes the same step on both servers.** -/
theorem same_advance {phase : AsyncPhase} (hplain : u.Plain rt phase) (h : SameJobs rt s m) :
    u.Plain rt (u.advance rt (redisJobs rt) s phase).2 ∧
      SameJobs rt (u.advance rt (redisJobs rt) s phase).1 (u.advance rt inMemoryJobs m phase).1 ∧
      (u.advance rt inMemoryJobs m phase).2 = (u.advance rt (redisJobs rt) s phase).2 := by
  obtain ⟨hanswered, hjson, ⟨n, hn, hat⟩, hvalid⟩ := hplain
  obtain ⟨k, _, hk, hat', _⟩ := advance_moves (redisJobs rt) s hn hat
  have hplain' : (validateFile rt u.file = .ok () ∨
        (u.advance rt (redisJobs rt) s phase).2 = .received ∨
        ∃ e, (u.advance rt (redisJobs rt) s phase).2 = .refused e) →
      u.Plain rt (u.advance rt (redisJobs rt) s phase).2 := fun h =>
    ⟨hanswered, hjson, ⟨k, hk, hat'⟩, h⟩
  cases phase with
  | received =>
      obtain ⟨hsame, hphase, hchecked⟩ := same_accept hanswered.1 hjson h
      refine ⟨hplain' ?_, hsame, hphase⟩
      rcases hchecked with hchecked | hrefused
      · exact .inl hchecked
      · exact .inr (.inr hrefused)
  | queued job =>
      obtain ⟨rfl, rfl⟩ := hat
      have hchecked : validateFile rt u.file = .ok () := by simpa using hvalid
      exact ⟨hplain' (.inl hchecked), same_begin hanswered.2.1 (hjson hchecked) h⟩
  | processing job =>
      obtain ⟨rfl, rfl⟩ := hat
      have hchecked : validateFile rt u.file = .ok () := by simpa using hvalid
      exact ⟨hplain' (.inl hchecked), same_conclude hanswered.2.2 (hjson hchecked) h⟩
  | refused e => exact ⟨hplain' hvalid, h, rfl⟩
  | ended job raised => exact ⟨hplain' hvalid, h, rfl⟩

end Same

/-- Left alone, an upload that is accepted shows its last snapshot in memory. -/
theorem kept_alone {rt : Runtime} {u : AsyncUpload} (hvalid : validateFile rt u.file = .ok ())
    {p : Pool (JobServer (Dict String Job)) JobTask} {i : Nat}
    (ht : p.tasks[i]? = some (.upload u .received)) :
    inMemoryJobs.get (p.run (JobTask.advance rt inMemoryJobs) (List.replicate 3 i)).shared.jobs
      u.id = some (u.snapshot rt 2) := by
  rw [(Pool.run_replicate (JobTask.advance rt inMemoryJobs) ht 3).1]
  have hstart : (Job.create u.id u.createdAt u.file.filename).start = .ok (u.snapshot rt 1) := rfl
  have hend : (completeOrFail rt (u.snapshot rt 1) u.outcome).1 = u.snapshot rt 2 := rfl
  simp only [Function.iterate_succ, Function.iterate_zero, Function.comp_apply, id_eq,
    JobTask.advance, AsyncUpload.advance, accept, hvalid, inMemoryJobs, begin, hstart, conclude,
    hend]
  rw [Dict.get?_set, snapshot_id, if_pos rfl]

end AsyncUpload

/-- An upload of that kind. -/
def JobTask.Plain (rt : Runtime) (t : JobTask) : Prop :=
  ∃ u phase, t = .upload u phase ∧ u.Plain rt phase

theorem JobTask.same_advance {rt : Runtime} (s : JobServer (Dict String Json))
    (m : JobServer (Dict String Job)) (t : JobTask) (hplain : t.Plain rt)
    (hsame : SameJobs rt s m) :
    (t.advance rt (redisJobs rt) s).2.Plain rt ∧
      SameJobs rt (t.advance rt (redisJobs rt) s).1 (t.advance rt inMemoryJobs m).1 ∧
      (t.advance rt inMemoryJobs m).2 = (t.advance rt (redisJobs rt) s).2 := by
  obtain ⟨u, phase, rfl, hu⟩ := hplain
  obtain ⟨hu', hsame', hphase⟩ := AsyncUpload.same_advance hu hsame
  exact ⟨⟨u, _, rfl, hu'⟩, hsame', congrArg (JobTask.upload u) hphase⟩

/-- **When the two stores cannot be told apart.** If every call to Redis
answers and nothing expires, the choice of the job store shows in no answer to
`GET /jobs/{job_id}` and in no temp file, at any moment of any schedule, if and
only if every accepted upload has a result made of JSON values, or none. -/
theorem job_stores_agree_iff (rt : Runtime) (uploads : List AsyncUpload)
    (hanswered : ∀ u ∈ uploads, u.Answered) :
    (∀ schedule,
      (serveUploads rt (redisJobs rt) ⟨∅, []⟩ uploads [] schedule).shared.files =
          (serveUploads rt inMemoryJobs ⟨∅, []⟩ uploads [] schedule).shared.files ∧
        ∀ id, getJobStatus (redisJobs rt)
            (serveUploads rt (redisJobs rt) ⟨∅, []⟩ uploads [] schedule).shared id =
          getJobStatus inMemoryJobs
            (serveUploads rt inMemoryJobs ⟨∅, []⟩ uploads [] schedule).shared id) ↔
      ∀ u ∈ uploads, validateFile rt u.file = .ok () → u.HasJsonResult := by
  constructor
  · intro h u hu hvalid result houtcome
    obtain ⟨i, hi, hget⟩ := List.getElem_of_mem hu
    have ht : (uploadTasks uploads [])[i]? = some (.upload u .received) := by
      unfold uploadTasks
      rw [List.map_nil, List.append_nil, List.getElem?_map, List.getElem?_eq_getElem hi, hget]
      rfl
    -- its three turns, and the job in memory has the result
    have hmemory := AsyncUpload.kept_alone (p := ⟨⟨∅, []⟩, uploadTasks uploads []⟩) hvalid ht
    have hanswer := (h (List.replicate 3 i)).2 u.id
    have hshown : getJobStatus inMemoryJobs (serveUploads rt inMemoryJobs ⟨∅, []⟩ uploads []
        (List.replicate 3 i)).shared u.id = .ok (u.snapshot rt 2).statusResponse :=
      getJobStatus_ok.mpr ⟨_, hmemory, rfl⟩
    rw [hshown] at hanswer
    obtain ⟨job, hjob, hsame⟩ := getJobStatus_ok.mp hanswer
    have hresult : (u.snapshot rt 2).result = job.result := congrArg JobStatusResponse.result hsame
    have hdump : (u.snapshot rt 2).result = .dict result.modelDump.entries := by
      show (completeOrFail rt (startedJob u.id u.createdAt u.file.filename)
        u.outcome).1.result = _
      rw [houtcome, completeOrFail_ok]
    have hjson := RedisJobStore.get_result_isJson hjob
    rw [← hresult, hdump] at hjson
    exact modelDump_isJson.mp hjson
  · intro hresults schedule
    have hplain : ∀ t ∈ uploadTasks uploads [], t.Plain rt := by
      intro t ht
      unfold uploadTasks at ht
      rw [List.map_nil, List.append_nil] at ht
      obtain ⟨u, hu, rfl⟩ := List.mem_map.mp ht
      exact ⟨u, .received, rfl, hanswered u hu, hresults u hu, ⟨0, by omega, rfl⟩, .inr (.inl rfl)⟩
    obtain ⟨⟨hfiles, hjobs⟩, _⟩ := Pool.simulated_run (JobTask.advance rt (redisJobs rt))
      (p := ⟨⟨∅, []⟩, uploadTasks uploads []⟩) JobTask.same_advance hplain
      (show SameJobs rt ⟨∅, []⟩ ⟨∅, []⟩ from ⟨rfl, fun _ => rfl⟩) schedule
    refine ⟨hfiles, fun id => ?_⟩
    show (match (redisJobs rt).get (Pool.run (JobTask.advance rt (redisJobs rt))
        ⟨⟨∅, []⟩, uploadTasks uploads []⟩ schedule).shared.jobs id with
      | none => _
      | some job => _) = _
    rw [hjobs id]
    rfl

theorem polledUploads_told_apart :
    (∀ schedule,
      (serveUploads .plain (redisJobs .plain) ⟨∅, []⟩ [polledUploads[0]] [] schedule).shared.files =
          (serveUploads .plain inMemoryJobs ⟨∅, []⟩ [polledUploads[0]] [] schedule).shared.files ∧
        ∀ id, getJobStatus (redisJobs .plain)
            (serveUploads .plain (redisJobs .plain) ⟨∅, []⟩ [polledUploads[0]] []
              schedule).shared id =
          getJobStatus inMemoryJobs
            (serveUploads .plain inMemoryJobs ⟨∅, []⟩ [polledUploads[0]] []
              schedule).shared id) ↔
      ∀ u ∈ [polledUploads[0]], validateFile .plain u.file = .ok () → u.HasJsonResult :=
  job_stores_agree_iff .plain [polledUploads[0]] (by
    intro u hu
    rw [List.mem_singleton.mp hu]
    exact ⟨rfl, rfl, rfl⟩)

end RiskFlow
