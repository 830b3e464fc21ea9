import RiskFlow.Domain.Job

/-!
# JobStore — the Redis-backed store of jobs

The keys of the job namespace with the documents stored under them. The
client never fails here; what can fail is the JSON encoder, before
anything is written.
-/

namespace RiskFlow

open Lib

namespace RedisJobStore

def keyPrefix : String := "riskflow:job:"

/-- `save`: the job is encoded, then written under its key. -/
def save (store : Dict String Json) (job : Job) : Except PyErr (Dict String Json) := do
  let data ← dumps job.toDict
  pure (store.set (keyPrefix ++ job.id) data)

/-- `get`: an absent or unreadable entry is no job. -/
def get (rt : Runtime) (store : Dict String Json) (jobId : String) : Option Job := do
  let data ← store.get? (keyPrefix ++ jobId)
  Job.fromDict rt (loads data)

/-! ## What a save does -/

theorem toDict_isJson {job : Job} (h : job.result.isJson = true) : job.toDict.isJson = true := by
  apply PyVal.isJson_dict.mpr
  constructor
  · show ["id", "status", "filename", "created_at", "result", "error"].Nodup
    decide
  intro kv hkv
  simp only [List.mem_cons, List.not_mem_nil, or_false] at hkv
  rcases hkv with rfl | rfl | rfl | rfl | rfl | rfl
  · rfl
  · rfl
  · exact Job.optStr_isJson _
  · rfl
  · exact h
  · exact Job.optStr_isJson _

/-- **A job whose result is a JSON value is stored and read back.** -/
theorem get_save (rt : Runtime) (store : Dict String Json) {job : Job}
    (h : job.result.isJson = true) :
    ∃ store', save store job = .ok store' ∧ get rt store' job.id = some job := by
  obtain ⟨data, hdata, hback⟩ := loads_dumps job.toDict (toDict_isJson h)
  refine ⟨store.set (keyPrefix ++ job.id) data, ?_, ?_⟩
  · simp [save, hdata, bind, Except.bind, pure, Except.pure]
  · simp [get, hback, Job.fromDict_toDict]

/-- What the store gives back holds a JSON value as its result. -/
theorem get_result_isJson {rt : Runtime} {store : Dict String Json} {jobId : String} {job : Job}
    (h : get rt store jobId = some job) : job.result.isJson = true := by
  simp only [get, Option.bind_eq_bind, Option.bind_eq_some_iff] at h
  obtain ⟨data, _, hjob⟩ := h
  have hdata := loads_isJson data
  cases hv : loads data with
  | dict kvs =>
      rw [hv] at hdata hjob
      rw [Job.fromDict_result hjob]
      cases hr : lookup kvs "result" with
      | none => rfl
      | some v =>
          obtain ⟨hnd, hcells⟩ := PyVal.isJson_dict.mp hdata
          exact hcells ("result", v) ((lookup_eq_some hnd).mp hr)
  | _ =>
      rw [hv] at hjob
      cases hjob

end RedisJobStore

end RiskFlow
