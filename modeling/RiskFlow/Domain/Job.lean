import RiskFlow.Python.Json

/-!
# Job — the lifecycle of an async upload

A job moves PENDING → PROCESSING → COMPLETE or FAILED; each transition
checks the state it starts from. `toDict` and `fromDict` are the two
directions of the stored form.
-/

namespace RiskFlow

open Lib

inductive JobStatus where
  | pending
  | processing
  | complete
  | failed
  deriving DecidableEq

namespace JobStatus

def value : JobStatus → String
  | .pending => "pending"
  | .processing => "processing"
  | .complete => "complete"
  | .failed => "failed"

/-- `JobStatus(text)`; `none` is its `ValueError`. -/
def ofValue? : String → Option JobStatus
  | "pending" => some .pending
  | "processing" => some .processing
  | "complete" => some .complete
  | "failed" => some .failed
  | _ => none

@[simp] theorem ofValue?_value (s : JobStatus) : ofValue? s.value = some s := by
  cases s <;> rfl

end JobStatus

/-- Tracks the state of an async file processing task. `result` is `None`
or the dumped result. -/
structure Job where
  id : String
  status : JobStatus
  filename : Option String
  createdAt : DateTime
  result : PyVal := .none
  error : Option String := none

namespace Job

/-- `Job.create` with the identifier and the time it draws. -/
def create (id : String) (createdAt : DateTime) (filename : Option String) : Job :=
  { id, status := .pending, filename, createdAt }

/-! ## Transitions -/

def start (self : Job) : Except PyErr Job :=
  if self.status ≠ .pending then
    .error (.valueError ("Can only start a PENDING job, got " ++ self.status.value))
  else .ok { self with status := .processing }

def complete (self : Job) (result : Row) : Except PyErr Job :=
  if self.status ≠ .processing then
    .error (.valueError ("Can only complete a PROCESSING job, got " ++ self.status.value))
  else .ok { self with status := .complete, result := .dict result.entries }

def fail (self : Job) (error : String) : Except PyErr Job :=
  if self.status ≠ .processing then
    .error (.valueError ("Can only fail a PROCESSING job, got " ++ self.status.value))
  else .ok { self with status := .failed, error := some error }

/-! ## The stored form -/

/-- An optional text as the value it is. -/
def optStr : Option String → PyVal
  | none => .none
  | some s => .str s

/-- `to_dict`. -/
def toDict (self : Job) : PyVal :=
  .dict [("id", .str self.id), ("status", .str self.status.value),
    ("filename", optStr self.filename), ("created_at", .str self.createdAt.isoformatUtc),
    ("result", self.result), ("error", optStr self.error)]

/-- `str(v)` unless it is `None`. -/
def strUnlessNone (rt : Runtime) (v : PyVal) : Option String :=
  if v.isNone then none else some (rt.str v)

/-- `from_dict` on what a stored text parses to; `none` stands for the
exceptions its caller catches. -/
def fromDict (rt : Runtime) (data : PyVal) : Option Job :=
  match data with
  | .dict kvs => do
      let id ← lookup kvs "id"
      let status ← JobStatus.ofValue? (rt.str (← lookup kvs "status"))
      let createdAt ← DateTime.fromisoformatUtc (rt.str (← lookup kvs "created_at"))
      some {
        id := rt.str id
        status
        filename := strUnlessNone rt ((lookup kvs "filename").getD .none)
        createdAt
        result := (lookup kvs "result").getD .none
        error := strUnlessNone rt ((lookup kvs "error").getD .none) }
  | _ => none

@[simp] theorem strUnlessNone_optStr (rt : Runtime) (s : Option String) :
    strUnlessNone rt (optStr s) = s := by
  cases s <;> rfl

theorem optStr_isJson (s : Option String) : (optStr s).isJson = true := by
  cases s <;> rfl

/-- The stored dictionary gives back the job it was made from. -/
theorem fromDict_toDict (rt : Runtime) (job : Job) : fromDict rt job.toDict = some job := by
  simp [toDict, fromDict, lookup, Runtime.str, DateTime.fromisoformatUtc_isoformatUtc]

/-- The result is taken over as parsed. -/
theorem fromDict_result {rt : Runtime} {kvs : List (String × PyVal)} {job : Job}
    (h : fromDict rt (.dict kvs) = some job) : job.result = (lookup kvs "result").getD .none := by
  simp only [fromDict, Option.bind_eq_bind, Option.bind_eq_some_iff, Option.some.injEq] at h
  obtain ⟨_, _, _, _, _, _, _, _, _, _, rfl⟩ := h
  rfl

end Job

end RiskFlow
