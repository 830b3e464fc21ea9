import RiskFlow.Adapters.JobStore
import RiskFlow.Domain.DateOrdering
import RiskFlow.Lib.Method

/-!
# JobPersistence — jobs between workers

A job as the object the source mutates, through any sequence of attempts to
start, complete or fail it, and its way through the stored text: whoever
reads it back holds the same job.
-/

namespace RiskFlow

open Lib Method

namespace Job

/-! ## The transitions in place -/

namespace InPlace

/-- `start`. -/
def start : Method PyErr Job Unit := do
  let self ← get
  if self.status ≠ .pending then
    throw (.valueError ("Can only start a PENDING job, got " ++ self.status.value))
  modify fun self => { self with status := .processing }

/-- `complete`. -/
def complete (result : Row) : Method PyErr Job Unit := do
  let self ← get
  if self.status ≠ .processing then
    throw (.valueError ("Can only complete a PROCESSING job, got " ++ self.status.value))
  modify fun self => { self with status := .complete }
  modify fun self => { self with result := .dict result.entries }

/-- `fail`. -/
def fail (error : String) : Method PyErr Job Unit := do
  let self ← get
  if self.status ≠ .processing then
    throw (.valueError ("Can only fail a PROCESSING job, got " ++ self.status.value))
  modify fun self => { self with status := .failed }
  modify fun self => { self with error := some error }

end InPlace

theorem start_computes : Computes InPlace.start Job.start := by
  intro job
  unfold InPlace.start Job.start
  by_cases hpending : job.status = .pending
  · simp [hpending]
  · simp [hpending]

theorem complete_computes (result : Row) :
    Computes (InPlace.complete result) fun job => job.complete result := by
  intro job
  unfold InPlace.complete Job.complete
  by_cases hprocessing : job.status = .processing
  · simp [hprocessing]
  · simp [hprocessing]

theorem fail_computes (error : String) :
    Computes (InPlace.fail error) fun job => job.fail error := by
  intro job
  unfold InPlace.fail Job.fail
  by_cases hprocessing : job.status = .processing
  · simp [hprocessing]
  · simp [hprocessing]

/-! ## Attempts -/

/-- An attempt to move a job on. -/
inductive Attempt where
  | start
  | complete (result : Row)
  | fail (error : String)

def Attempt.method : Attempt → Method PyErr Job Unit
  | .start => InPlace.start
  | .complete result => InPlace.complete result
  | .fail error => InPlace.fail error

/-- What it computes. -/
def Attempt.apply : Attempt → Job → Except PyErr Job
  | .start, job => job.start
  | .complete result, job => job.complete result
  | .fail error, job => job.fail error

/-- The result it would store is made of JSON values. -/
def Attempt.HasJsonResult : Attempt → Prop
  | .complete result => (PyVal.dict result.entries).isJson = true
  | _ => True

theorem Attempt.computes (a : Attempt) : Computes a.method a.apply := by
  cases a with
  | start => exact start_computes
  | complete result => exact complete_computes result
  | fail error => exact fail_computes error

/-- The moves of a job. -/
inductive Moves : JobStatus → JobStatus → Prop where
  | start : Moves .pending .processing
  | complete : Moves .processing .complete
  | fail : Moves .processing .failed

/-- A job that has what its status says, and a result of JSON values. -/
structure Consistent (job : Job) : Prop where
  result_iff : job.result ≠ .none ↔ job.status = .complete
  error_iff : job.error ≠ none ↔ job.status = .failed
  json : job.result.isJson = true

section Steps
variable {job job' : Job} {a : Attempt}

theorem start_ok (h : job.start = .ok job') :
    job.status = .pending ∧ job' = { job with status := .processing } := by
  unfold Job.start at h
  split at h
  · cases h
  · rename_i hpending
    cases h
    exact ⟨not_not.mp hpending, rfl⟩

theorem complete_ok {result : Row} (h : job.complete result = .ok job') :
    job.status = .processing ∧
      job' = { job with status := .complete, result := .dict result.entries } := by
  unfold Job.complete at h
  split at h
  · cases h
  · rename_i hprocessing
    cases h
    exact ⟨not_not.mp hprocessing, rfl⟩

theorem fail_ok {error : String} (h : job.fail error = .ok job') :
    job.status = .processing ∧ job' = { job with status := .failed, error := some error } := by
  unfold Job.fail at h
  split at h
  · cases h
  · rename_i hprocessing
    cases h
    exact ⟨not_not.mp hprocessing, rfl⟩

/-- **A successful attempt** is a move, and keeps the job consistent. -/
theorem Attempt.apply_ok (h : a.apply job = .ok job') :
    Moves job.status job'.status ∧ (a.HasJsonResult → job.Consistent → job'.Consistent) := by
  cases a with
  | start =>
      obtain ⟨hpending, rfl⟩ := start_ok h
      rw [hpending]
      refine ⟨.start, fun _ hjob => ⟨?_, ?_, hjob.json⟩⟩
      · simpa [hpending] using hjob.result_iff
      · simpa [hpending] using hjob.error_iff
  | complete result =>
      obtain ⟨hprocessing, rfl⟩ := complete_ok h
      rw [hprocessing]
      refine ⟨.complete, fun hjson hjob => ⟨by simp, ?_, hjson⟩⟩
      simpa [hprocessing] using hjob.error_iff
  | fail error =>
      obtain ⟨hprocessing, rfl⟩ := fail_ok h
      rw [hprocessing]
      refine ⟨.fail, fun _ hjob => ⟨?_, by simp, hjob.json⟩⟩
      simpa [hprocessing] using hjob.result_iff

theorem create_consistent (id : String) (createdAt : DateTime) (filename : Option String) :
    (create id createdAt filename).Consistent :=
  ⟨by simp [create], by simp [create], rfl⟩

end Steps

/-- `Job.from_dict(json.loads(json.dumps(job.to_dict())))`. -/
def reread (rt : Runtime) (job : Job) : Except PyErr (Option Job) := do
  let text ← dumps job.toDict
  pure (fromDict rt (loads text))

theorem reread_eq (rt : Runtime) {job : Job} (h : job.result.isJson = true) :
    job.reread rt = .ok (some job) := by
  obtain ⟨text, htext, hback⟩ := loads_dumps job.toDict (RedisJobStore.toDict_isJson h)
  simp [reread, htext, hback, fromDict_toDict, bind, Except.bind, pure, Except.pure]

/-- What a worker may rely on that holds the job, or reads it back. -/
structure SurvivesPersistence (rt : Runtime) (job : Job) : Prop where
  moves : ∀ a : Attempt, (call a.method job).1 = .ok () →
    Moves job.status (call a.method job).2.status
  unchanged : ∀ (a : Attempt) e, (call a.method job).1 = .error e → (call a.method job).2 = job
  result_iff : job.result ≠ .none ↔ job.status = .complete
  error_iff : job.error ≠ none ↔ job.status = .failed
  reread : ∃ copy, job.reread rt = .ok (some copy) ∧ copy = job ∧
    ∀ further, reactions Attempt.method copy further = reactions Attempt.method job further

/-- **Jobs survive persistence.** In every state attempts lead a created job to: a
further attempt moves its status along PENDING → PROCESSING → COMPLETE or FAILED
or raises and changes nothing; the job has a result exactly when it is COMPLETE
and an error exactly when it is FAILED; and the job read back from its stored
text is that job, and reacts as it does. -/
theorem job_survives_persistence (rt : Runtime) (id : String) (createdAt : DateTime)
    (filename : Option String) (attempts : List Attempt)
    (hjson : ∀ a ∈ attempts, a.HasJsonResult) :
    (afterCalls Attempt.method (create id createdAt filename) attempts).SurvivesPersistence rt := by
  have hjob : (afterCalls Attempt.method (create id createdAt filename) attempts).Consistent :=
    afterCalls_preserves Attempt.computes
      (fun a ha _ _ hjob happly => (Attempt.apply_ok happly).2 (hjson a ha) hjob)
      (create_consistent id createdAt filename)
  refine ⟨fun a hok => ?_, fun a e hraised => (a.computes.raises hraised).1, hjob.result_iff,
    hjob.error_iff, _, reread_eq rt hjob.json, rfl, fun _ => rfl⟩
  obtain ⟨job', happly, hafter⟩ := a.computes.ok_iff.mp hok
  rw [hafter]
  exact (Attempt.apply_ok happly).1

/-- A job that failed to complete before its start, and then failed with an empty text. -/
theorem blank_failure_survives :
    (afterCalls Attempt.method (create "a1" (.midnight mar1) (some "march.csv"))
        [.complete (.ofList [("rows", .list [.int 1, .none])]), .start, .fail ""]).error = some "" ∧
      (afterCalls Attempt.method (create "a1" (.midnight mar1) (some "march.csv"))
        [.complete (.ofList [("rows", .list [.int 1, .none])]), .start,
          .fail ""]).SurvivesPersistence .plain := by
  refine ⟨rfl, job_survives_persistence .plain "a1" (.midnight mar1) (some "march.csv") _ ?_⟩
  intro a ha
  simp only [List.mem_cons, List.not_mem_nil, or_false] at ha
  rcases ha with rfl | rfl | rfl
  · rfl
  · exact trivial
  · exact trivial

end Job

end RiskFlow
