import RiskFlow.Adapters.JobStore
import RiskFlow.Domain.Schema

/-!
# Jobs — the background task of an async upload

`processJob` with its `try`, `except` and `finally` blocks, each a
function of its own, over the job store and the temp files. The main
result says for which outcomes of `process_file` the stored job ends in a
terminal state.
-/

namespace RiskFlow

open Lib

/-! ## The task -/

/-- What the task changes: the job store and the files that exist. -/
structure Worker where
  jobs : Dict String Json
  files : List String

/-- `if os.path.exists(path): os.remove(path)`. -/
def Worker.removeTemp (self : Worker) (path : String) : Worker :=
  { self with files := self.files.filter fun f => f ≠ path }

/-- The `try` block and its `except Exception`: the job afterwards, and
the exception still in flight. -/
def completeOrFail (rt : Runtime) (job : Job) (outcome : Except PyErr ProcessingResult) :
    Job × Option PyErr :=
  match outcome.bind fun result => job.complete result.modelDump with
  | .ok completed => (completed, none)
  | .error e =>
      -- `CancelledError` is a `BaseException` and passes by the handler
      if e.isException then
        match job.fail (rt.strErr e) with
        | .ok failed => (failed, none)
        | .error e' => (job, some e')
      else (job, some e)

/-- The `finally` block. An exception of its own `save` replaces the one in
flight, and leaves before the temp file is removed. -/
def finishJob (worker : Worker) (tempPath : String) (job : Job) (inFlight : Option PyErr) :
    Worker × Except PyErr Unit :=
  match RedisJobStore.save worker.jobs job with
  -- `save` raised: `os.remove` below it is not reached
  | .error e => (worker, .error e)
  | .ok jobs =>
      (({ worker with jobs }).removeTemp tempPath,
        match inFlight with
        | none => .ok ()
        | some e => .error e)

/-- `_process_job`; `outcome` is what `process_file` returns or raises. -/
def processJob (rt : Runtime) (worker : Worker) (job : Job) (tempPath : String)
    (outcome : Except PyErr ProcessingResult) : Worker × Except PyErr Unit :=
  match job.start with
  | .error e => (worker, .error e)
  | .ok job =>
      match RedisJobStore.save worker.jobs job with
      | .error e => (worker, .error e)
      | .ok jobs =>
          let (job, inFlight) := completeOrFail rt job outcome
          finishJob { worker with jobs } tempPath job inFlight

/-! ## What is stored -/

/-- The job under `jobId` has ended and shows the outcome, and the temp file is gone. -/
def Settled (rt : Runtime) (worker : Worker) (jobId tempPath : String)
    (outcome : Except PyErr ProcessingResult) : Prop :=
  (∃ job, RedisJobStore.get rt worker.jobs jobId = some job ∧
    ((job.status = .complete ∧
        ∃ result, outcome = .ok result ∧ job.result = .dict result.modelDump.entries) ∨
      (job.status = .failed ∧ ∃ e, outcome = .error e ∧ job.error = some (rt.strErr e)))) ∧
  tempPath ∉ worker.files

/-- The outcome can be stored: every cell of its records is a JSON value,
or it is an exception the task catches. -/
def Storable : Except PyErr ProcessingResult → Prop
  | .ok result => ∀ row ∈ result.validRecords ++ result.invalidRecords,
      ∀ cell ∈ row.entries, cell.2.isJson = true
  | .error e => e.isException = true

/-! ## The dumped result -/

theorem ColumnMapping.modelDump_isJson (m : ColumnMapping) : m.modelDump.isJson = true := rfl

theorem strings_isJson (xs : List String) : (PyVal.list (xs.map .str)).isJson = true := by
  apply PyVal.isJson_list.mpr
  intro v hv
  obtain ⟨s, _, rfl⟩ := List.mem_map.mp hv
  rfl

theorem mappings_isJson (ms : List ColumnMapping) :
    (PyVal.list (ms.map ColumnMapping.modelDump)).isJson = true := by
  apply PyVal.isJson_list.mpr
  intro v hv
  obtain ⟨m, _, rfl⟩ := List.mem_map.mp hv
  exact m.modelDump_isJson

theorem MappingResult.modelDump_isJson (r : MappingResult) : r.modelDump.isJson = true := by
  apply PyVal.isJson_dict.mpr
  refine ⟨by simp, fun kv hkv => ?_⟩
  simp only [List.mem_cons, List.not_mem_nil, or_false] at hkv
  rcases hkv with rfl | rfl
  · exact mappings_isJson _
  · exact strings_isJson _

theorem ConfidenceReport.modelDump_isJson (r : ConfidenceReport) : r.modelDump.isJson = true := by
  apply PyVal.isJson_dict.mpr
  refine ⟨by simp, fun kv hkv => ?_⟩
  simp only [List.mem_cons, List.not_mem_nil, or_false] at hkv
  rcases hkv with rfl | rfl | rfl | rfl
  · rfl
  · rfl
  · exact mappings_isJson _
  · exact strings_isJson _

theorem FieldError.modelDump_isJson (e : FieldError) : e.modelDump.isJson = true := by
  unfold FieldError.modelDump
  cases e.value <;> rfl

theorem RowError.modelDump_isJson (e : RowError) : e.modelDump.isJson = true := by
  apply PyVal.isJson_dict.mpr
  refine ⟨by simp, fun kv hkv => ?_⟩
  simp only [List.mem_cons, List.not_mem_nil, or_false] at hkv
  rcases hkv with rfl | rfl | rfl
  · rfl
  · rfl
  · apply PyVal.isJson_list.mpr
    intro v hv
    obtain ⟨f, _, rfl⟩ := List.mem_map.mp hv
    exact f.modelDump_isJson

theorem records_isJson {rows : List Row} :
    (PyVal.list (rows.map fun row => .dict row.entries)).isJson = true ↔
      ∀ row ∈ rows, ∀ cell ∈ row.entries, cell.2.isJson = true := by
  rw [PyVal.isJson_list, List.forall_mem_map]
  constructor
  · intro h row hrow
    exact (PyVal.isJson_dict.mp (h row hrow)).2
  · intro h row hrow
    exact PyVal.isJson_dict.mpr ⟨row.nodup, h row hrow⟩

/-- Of a dumped result only the cells of the records decide. -/
theorem modelDump_isJson {result : ProcessingResult} :
    (PyVal.dict result.modelDump.entries).isJson = true ↔ Storable (.ok result) := by
  have hentries : result.modelDump.entries =
      [("mapping", result.mapping.modelDump),
        ("confidence_report", result.confidenceReport.modelDump),
        ("valid_records", .list (result.validRecords.map fun row => .dict row.entries)),
        ("invalid_records", .list (result.invalidRecords.map fun row => .dict row.entries)),
        ("errors", .list (result.errors.map RowError.modelDump))] :=
    Dict.ofList_entries (by simp)
  have herrors : (PyVal.list (result.errors.map RowError.modelDump)).isJson = true := by
    apply PyVal.isJson_list.mpr
    intro v hv
    obtain ⟨e, _, rfl⟩ := List.mem_map.mp hv
    exact e.modelDump_isJson
  rw [PyVal.isJson_dict, hentries]
  simp only [List.forall_mem_cons, List.not_mem_nil, IsEmpty.forall_iff, implies_true, and_true,
    MappingResult.modelDump_isJson, ConfidenceReport.modelDump_isJson, herrors, records_isJson,
    true_and, Storable, List.forall_mem_append]
  simp

/-! ## The outcome of the task -/

section Task
variable (rt : Runtime) (worker : Worker) (id tempPath : String) (createdAt : DateTime)
  (filename : Option String)

/-- The job while `process_file` runs. -/
def startedJob : Job := { Job.create id createdAt filename with status := .processing }

/-- A fresh job is stored as PROCESSING, and what follows is `finally`. -/
theorem processJob_create (outcome : Except PyErr ProcessingResult) :
    ∃ jobs, processJob rt worker (Job.create id createdAt filename) tempPath outcome =
      finishJob { worker with jobs } tempPath
        (completeOrFail rt (startedJob id createdAt filename) outcome).1
        (completeOrFail rt (startedJob id createdAt filename) outcome).2 := by
  have hjson : (startedJob id createdAt filename).result.isJson = true := rfl
  obtain ⟨jobs, hsave, _⟩ := RedisJobStore.get_save rt worker.jobs hjson
  have hstart : (Job.create id createdAt filename).start =
      .ok (startedJob id createdAt filename) := rfl
  exact ⟨jobs, by simp only [processJob, hstart, hsave]⟩

theorem completeOrFail_ok (result : ProcessingResult) :
    completeOrFail rt (startedJob id createdAt filename) (.ok result) =
      ({ startedJob id createdAt filename with
          status := .complete
          result := .dict result.modelDump.entries }, none) := rfl

theorem completeOrFail_exception {e : PyErr} (h : e.isException = true) :
    completeOrFail rt (startedJob id createdAt filename) (.error e) =
      ({ startedJob id createdAt filename with
          status := .failed
          error := some (rt.strErr e) }, none) := by
  unfold completeOrFail
  dsimp only [Except.bind]
  rw [if_pos h]
  rfl

theorem completeOrFail_baseException {e : PyErr} (h : e.isException = false) :
    completeOrFail rt (startedJob id createdAt filename) (.error e) =
      (startedJob id createdAt filename, some e) := by
  unfold completeOrFail
  dsimp only [Except.bind]
  rw [if_neg (by simp [h])]

/-- A job that can be stored is what `finally` leaves in the store. -/
theorem finishJob_stored (job : Job) (h : job.result.isJson = true) (inFlight : Option PyErr) :
    RedisJobStore.get rt (finishJob worker tempPath job inFlight).1.jobs job.id = some job ∧
      tempPath ∉ (finishJob worker tempPath job inFlight).1.files := by
  obtain ⟨jobs, hsave, hget⟩ := RedisJobStore.get_save rt worker.jobs h
  simp only [finishJob, hsave]
  exact ⟨hget, by simp [Worker.removeTemp]⟩

/-- **When a job settles.** Run on a fresh job, the task leaves it terminal
and the temp file removed exactly when the outcome can be stored. -/
theorem job_settled_iff (outcome : Except PyErr ProcessingResult) :
    Settled rt (processJob rt worker (Job.create id createdAt filename) tempPath outcome).1 id
      tempPath outcome ↔ Storable outcome := by
  obtain ⟨jobs, hrun⟩ := processJob_create rt worker id tempPath createdAt filename outcome
  rw [hrun]
  constructor
  · rintro ⟨⟨job, hget, hends⟩, _⟩
    rcases hends with ⟨_, result, rfl, hresult⟩ | ⟨hfailed, e, rfl, _⟩
    · have hjson := RedisJobStore.get_result_isJson hget
      rw [hresult] at hjson
      exact modelDump_isJson.mp hjson
    · show e.isException = true
      by_contra hbase
      have hbase : e.isException = false := by simpa using hbase
      -- nothing catches it: `finally` stores the job as it was, PROCESSING
      rw [completeOrFail_baseException rt id createdAt filename hbase] at hget
      obtain ⟨hstored, _⟩ := finishJob_stored rt { worker with jobs } tempPath
        (startedJob id createdAt filename) rfl (some e)
      have hjob : startedJob id createdAt filename = job :=
        Option.some.inj (hstored.symm.trans hget)
      rw [← hjob] at hfailed
      cases hfailed
  · intro hstorable
    cases outcome with
    | ok result =>
        rw [completeOrFail_ok]
        obtain ⟨hget, hfile⟩ := finishJob_stored rt { worker with jobs } tempPath
          { startedJob id createdAt filename with
            status := .complete
            result := .dict result.modelDump.entries } (modelDump_isJson.mpr hstorable) none
        exact ⟨⟨_, hget, .inl ⟨rfl, result, rfl, rfl⟩⟩, hfile⟩
    | error e =>
        rw [completeOrFail_exception rt id createdAt filename hstorable]
        obtain ⟨hget, hfile⟩ := finishJob_stored rt { worker with jobs } tempPath
          { startedJob id createdAt filename with
            status := .failed
            error := some (rt.strErr e) } rfl none
        exact ⟨⟨_, hget, .inr ⟨rfl, e, rfl, rfl⟩⟩, hfile⟩

end Task

/-! ## A stuck job -/

/-- One record with the date its schema asks for. -/
def datedResult : ProcessingResult where
  mapping := ⟨[], [], List.nodup_nil⟩
  confidenceReport :=
    .fromMappingResult ⟨[], [], List.nodup_nil⟩ defaultConfidenceReviewThreshold []
  validRecords := [.ofList [("Inception_Date", .date ⟨2024, 1, 15, by decide⟩)]]
  invalidRecords := []
  errors := []

def uploadedAt : DateTime := .midnight ⟨2024, 5, 17, by decide⟩

/-- The worker after the task has run on that result. -/
def stuckWorker : Worker :=
  (processJob .plain { jobs := ∅, files := ["/tmp/riskflow_a.csv"] }
    (Job.create "job-1" uploadedAt (some "a.csv")) "/tmp/riskflow_a.csv" (.ok datedResult)).1

/-- The encoder raises in `finally`: the stored job stays PROCESSING and
the temp file stays behind. -/
theorem dated_result_stuck :
    (RedisJobStore.get .plain stuckWorker.jobs "job-1").map Job.status = some .processing ∧
      "/tmp/riskflow_a.csv" ∈ stuckWorker.files ∧
      ¬ Settled .plain stuckWorker "job-1" "/tmp/riskflow_a.csv" (.ok datedResult) := by
  have hfile : "/tmp/riskflow_a.csv" ∈ stuckWorker.files := by decide
  exact ⟨rfl, hfile, fun hsettled => hsettled.2 hfile⟩

end RiskFlow
