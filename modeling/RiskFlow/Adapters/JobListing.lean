import RiskFlow.Adapters.JobStore
import RiskFlow.Domain.DateOrdering

/-!
# JobListing — all jobs of the Redis-backed store

`list_all` follows the cursor of SCAN and appends a job for every key of
every batch. A full scan returns each key at least once; a key it returns
twice is two entries of the list.
-/

namespace RiskFlow

open Lib

/-! ## The order of the list -/

namespace DateTime

/-- The microsecond of the day. -/
def clock (t : DateTime) : Nat :=
  ((t.hour * 60 + t.minute) * 60 + t.second) * 1000000 + t.microsecond

/-- The time as one number, the year first. -/
def stamp (t : DateTime) : Nat :=
  ((t.date.year * 13 + t.date.month) * 32 + t.date.day) * 86400000000 + t.clock

theorem clock_lt (t : DateTime) : t.clock < 86400000000 := by
  have hh := t.hour.isLt
  have hm := t.minute.isLt
  have hs := t.second.isLt
  have hu := t.microsecond.isLt
  unfold clock
  omega

/-- The numbers are ordered as the times are. -/
theorem stamp_lt_iff {a b : DateTime} :
    a.stamp < b.stamp ↔
      a.date.before b.date = true ∨ a.date = b.date ∧ a.clock < b.clock := by
  have hca := a.clock_lt
  have hcb := b.clock_lt
  unfold stamp Date.before
  generalize a.clock = ca at *
  generalize b.clock = cb at *
  obtain ⟨⟨ya, ma, da, hva⟩, _⟩ := a
  obtain ⟨⟨yb, mb, db, hvb⟩, _⟩ := b
  have hda := daysInMonth_le ya ma
  have hdb := daysInMonth_le yb mb
  simp only [Date.mk.injEq, Bool.or_eq_true, Bool.and_eq_true, decide_eq_true_eq, beq_iff_eq]
  omega

end DateTime

/-- `key=lambda j: j.created_at, reverse=True`. -/
def notOlder (a b : Job) : Prop := b.createdAt.stamp ≤ a.createdAt.stamp

instance : DecidableRel notOlder := fun _ _ => Nat.decLe _ _

/-- Newest first; jobs of one time keep their order. -/
def newestFirst (jobs : List Job) : List Job := jobs.insertionSort notOlder

theorem newestFirst_perm (jobs : List Job) : (newestFirst jobs).Perm jobs :=
  jobs.perm_insertionSort _

theorem newestFirst_pairwise (jobs : List Job) : (newestFirst jobs).Pairwise notOlder :=
  haveI : Std.Total notOlder := ⟨fun a b => Nat.le_total b.createdAt.stamp a.createdAt.stamp⟩
  haveI : IsTrans Job notOlder := ⟨fun _ _ _ hab hbc => Nat.le_trans hbc hab⟩
  jobs.pairwise_insertionSort _

/-! ## The scan -/

/-- A reply of SCAN: the cursor to go on with and a batch of keys. -/
structure ScanReply where
  cursor : Nat
  keys : List String

namespace RedisJobStore

def key (job : Job) : String := keyPrefix ++ job.id

/-- The job stored under a key; an unreadable entry is none. -/
def jobAt (rt : Runtime) (store : Dict String Json) (key : String) : Option Job :=
  (store.get? key).bind fun data => Job.fromDict rt (loads data)

/-- One key of a batch. -/
def appendJob (rt : Runtime) (store : Dict String Json) (jobs : List Job) (key : String) :
    List Job :=
  match jobAt rt store key with
  | some job => jobs ++ [job]
  | none => jobs

/-- The `while` loop over the replies as they come; `none` is a loop that
waits for another one. -/
def scanJobs (rt : Runtime) (store : Dict String Json) :
    List ScanReply → List Job → Option (List Job)
  | [], _ => none
  | reply :: rest, jobs =>
      let jobs := reply.keys.foldl (appendJob rt store) jobs
      if reply.cursor = 0 then some jobs else scanJobs rt store rest jobs

/-- `list_all`. -/
def listAll (rt : Runtime) (store : Dict String Json) (replies : List ScanReply) :
    Option (List Job) :=
  (scanJobs rt store replies []).map newestFirst

/-- All keys of the batches, in the order they come. -/
def returnedKeys (replies : List ScanReply) : List String := replies.flatMap ScanReply.keys

/-- What Redis promises for `SCAN … MATCH riskflow:job:*` over a store that does
not change: the cursor comes back to 0, and every matching key has been
returned by then, some perhaps more than once. -/
structure IsFullScan (store : Dict String Json) (replies : List ScanReply) : Prop where
  ends : ∃ front last, replies = front ++ [last] ∧ last.cursor = 0 ∧
    ∀ reply ∈ front, reply.cursor ≠ 0
  returned : ∀ k, k ∈ returnedKeys replies ↔ k ∈ store.keys ∧ Py.startsWith k keyPrefix = true

section Listing
variable {rt : Runtime} {store : Dict String Json}

theorem foldl_appendJob (keys : List String) (jobs : List Job) :
    keys.foldl (appendJob rt store) jobs = jobs ++ keys.filterMap (jobAt rt store) := by
  induction keys generalizing jobs with
  | nil => simp
  | cons k rest ih =>
      rw [List.foldl_cons, ih, appendJob]
      cases hjob : jobAt rt store k with
      | none => simp [hjob]
      | some job => simp [hjob]

/-- **The loop ends with the cursor at 0**, and has a job for every readable key
of every batch. -/
theorem scanJobs_eq {front : List ScanReply} {last : ScanReply} (hlast : last.cursor = 0)
    (hfront : ∀ reply ∈ front, reply.cursor ≠ 0) (jobs : List Job) :
    scanJobs rt store (front ++ [last]) jobs =
      some (jobs ++ (returnedKeys (front ++ [last])).filterMap (jobAt rt store)) := by
  induction front generalizing jobs with
  | nil => simp [scanJobs, hlast, foldl_appendJob, returnedKeys]
  | cons reply rest ih =>
      have hnext := hfront reply (by simp)
      rw [List.cons_append, scanJobs, if_neg hnext, ih fun r hr => hfront r (by simp [hr]),
        foldl_appendJob]
      simp [returnedKeys]

theorem listAll_eq {replies : List ScanReply} (h : IsFullScan store replies) :
    listAll rt store replies =
      some (newestFirst ((returnedKeys replies).filterMap (jobAt rt store))) := by
  obtain ⟨front, last, rfl, hlast, hfront⟩ := h.ends
  rw [listAll, scanJobs_eq hlast hfront]
  rfl

/-! ## The saved jobs -/

/-- `save` for each job in turn. -/
def saveAll (store : Dict String Json) (jobs : List Job) : Except PyErr (Dict String Json) :=
  jobs.foldlM save store

theorem key_inj {a b : Job} : key a = key b ↔ a.id = b.id := String.append_right_inj _

/-- Saving leaves the other keys. -/
theorem saveAll_other {jobs : List Job} {after : Dict String Json}
    (h : saveAll store jobs = .ok after) {k : String} (hk : k ∉ jobs.map key) :
    after.get? k = store.get? k := by
  induction jobs generalizing store with
  | nil =>
      cases h
      rfl
  | cons job rest ih =>
      obtain ⟨middle, hfirst, hrest⟩ := bind_eq_ok.mp h
      obtain ⟨data, _, hset⟩ := bind_eq_ok.mp hfirst
      cases hset
      rw [List.map_cons, List.mem_cons, not_or] at hk
      rw [ih hrest hk.2]
      exact Dict.get?_set_ne _ _ (Ne.symm hk.1)

/-- **Each of the jobs is read back under its own key.** -/
theorem saveAll_jobAt (rt : Runtime) {jobs : List Job} {after : Dict String Json}
    (h : saveAll store jobs = .ok after) (hids : (jobs.map Job.id).Nodup)
    (hjson : ∀ job ∈ jobs, job.result.isJson = true) :
    ∀ job ∈ jobs, jobAt rt after (key job) = some job := by
  induction jobs generalizing store with
  | nil => simp
  | cons job rest ih =>
      obtain ⟨middle, hfirst, hrest⟩ := bind_eq_ok.mp h
      rw [List.map_cons, List.nodup_cons] at hids
      intro j hj
      rcases List.mem_cons.mp hj with rfl | hj
      · have hfresh : key j ∉ rest.map key := by
          intro hmem
          obtain ⟨other, hother, heq⟩ := List.mem_map.mp hmem
          exact hids.1 (List.mem_map.mpr ⟨other, hother, key_inj.mp heq⟩)
        obtain ⟨data, hdata, hback⟩ := loads_dumps j.toDict (toDict_isJson (hjson j (by simp)))
        have hmiddle : middle = store.set (key j) data := by
          rw [save, hdata] at hfirst
          cases hfirst
          rfl
        rw [jobAt, saveAll_other hrest hfresh, hmiddle, Dict.get?_set_self, Option.bind_some,
          hback, Job.fromDict_toDict]
      · exact ih hrest hids.2 (fun job hmem => hjson job (by simp [hmem])) j hj

/-- The keys of the store with the prefix are those of the jobs. -/
theorem saveAll_keys {jobs : List Job} {after : Dict String Json}
    (h : saveAll store jobs = .ok after) (hids : (jobs.map Job.id).Nodup)
    (hjson : ∀ job ∈ jobs, job.result.isJson = true)
    (hclear : ∀ k ∈ store.keys, Py.startsWith k keyPrefix = false) (k : String) :
    (k ∈ after.keys ∧ Py.startsWith k keyPrefix = true) ↔ k ∈ jobs.map key := by
  constructor
  · rintro ⟨hmem, hstarts⟩
    by_contra hother
    obtain ⟨v, hv⟩ := Dict.mem_keys.mp hmem
    rw [saveAll_other h hother] at hv
    have hfalse := hclear k (Dict.mem_keys.mpr ⟨v, hv⟩)
    rw [hstarts] at hfalse
    cases hfalse
  · intro hmem
    obtain ⟨job, hjob, rfl⟩ := List.mem_map.mp hmem
    have hread := saveAll_jobAt .plain h hids hjson job hjob
    obtain ⟨data, hdata, _⟩ := Option.bind_eq_some_iff.mp hread
    exact ⟨Dict.mem_keys.mpr ⟨data, hdata⟩, Py.startsWith_append ..⟩

/-- **When the list shows each job exactly once.** The loop ends, and its list
goes from newest to oldest; the list is the stored jobs, each once, if and only
if no key is returned twice. -/
theorem listAll_each_once_iff (rt : Runtime) (store after : Dict String Json) (jobs : List Job)
    (hids : (jobs.map Job.id).Nodup) (hjson : ∀ job ∈ jobs, job.result.isJson = true)
    (hclear : ∀ k ∈ store.keys, Py.startsWith k keyPrefix = false)
    (hsaved : saveAll store jobs = .ok after) (replies : List ScanReply)
    (hscan : IsFullScan after replies) :
    ∃ result, listAll rt after replies = some result ∧ result.Pairwise notOlder ∧
      (result.Perm jobs ↔ (returnedKeys replies).Nodup) := by
  have hread := saveAll_jobAt rt hsaved hids hjson
  have hkeys : ∀ k, k ∈ returnedKeys replies ↔ k ∈ jobs.map key := fun k =>
    (hscan.returned k).trans (saveAll_keys hsaved hids hjson hclear k)
  have hjobkeys : (jobs.map key).Nodup := by
    have hmap : jobs.map key = (jobs.map Job.id).map (keyPrefix ++ ·) := by
      rw [List.map_map]
      rfl
    rw [hmap]
    exact hids.map fun _ _ => (String.append_right_inj _).mp
  refine ⟨_, listAll_eq hscan, newestFirst_pairwise _, ?_⟩
  constructor
  · intro hperm
    -- the jobs tell the keys they were read from
    have hback : ((returnedKeys replies).filterMap (jobAt rt after)).map key =
        returnedKeys replies := by
      have hown : ∀ keys : List String, (∀ k ∈ keys, k ∈ jobs.map key) →
          (keys.filterMap (jobAt rt after)).map key = keys := by
        intro keys hin
        induction keys with
        | nil => rfl
        | cons k rest ih =>
            obtain ⟨job, hjob, rfl⟩ := List.mem_map.mp (hin k (by simp))
            rw [List.filterMap_cons, hread job hjob, List.map_cons,
              ih fun k hk => hin k (by simp [hk])]
      exact hown _ fun k hk => (hkeys k).mp hk
    rw [← hback, ((newestFirst_perm _).symm.trans hperm).map key |>.nodup_iff]
    exact hjobkeys
  · intro hnodup
    have hperm := (List.perm_ext_iff_of_nodup hnodup hjobkeys).mpr hkeys
    have hall : (jobs.map key).filterMap (jobAt rt after) = jobs := by
      rw [List.filterMap_map]
      exact (List.filterMap_congr hread).trans (List.filterMap_some)
    refine (newestFirst_perm _).trans ?_
    have hmapped := hperm.filterMap (jobAt rt after)
    rwa [hall] at hmapped

end Listing

/-! ### Batches of two jobs -/

def marchJob : Job := .create "a1" (.midnight mar1) (some "march.csv")

def juneJob : Job := .create "b2" (.midnight jun1) (some "june.csv")

/-- Batches that return the keys of these jobs, and the cursor comes back. -/
theorem isFullScan_of_keys {jobs : List Job} {after : Dict String Json}
    (hsaved : saveAll ∅ jobs = .ok after) (hids : (jobs.map Job.id).Nodup)
    (hjson : ∀ job ∈ jobs, job.result.isJson = true) {front : List ScanReply} {last : ScanReply}
    (hlast : last.cursor = 0) (hfront : ∀ reply ∈ front, reply.cursor ≠ 0)
    (hkeys : ∀ k, k ∈ returnedKeys (front ++ [last]) ↔ k ∈ jobs.map key) :
    IsFullScan after (front ++ [last]) where
  ends := ⟨front, last, rfl, hlast, hfront⟩
  returned k := (hkeys k).trans
    (saveAll_keys hsaved hids hjson (fun _ hk => absurd hk List.not_mem_nil) k).symm

/-- An empty batch and one key in each of two others: both jobs, once. -/
theorem two_jobs_listed_once :
    ∃ after result, saveAll ∅ [marchJob, juneJob] = .ok after ∧
      listAll .plain after [⟨7, []⟩, ⟨3, [key marchJob]⟩, ⟨0, [key juneJob]⟩] = some result ∧
      result.Pairwise notOlder ∧ result.Perm [marchJob, juneJob] := by
  have hids : ([marchJob, juneJob].map Job.id).Nodup := by decide
  have hjson : ∀ job ∈ [marchJob, juneJob], job.result.isJson = true := by
    intro job hjob
    rcases List.mem_pair.mp hjob with rfl | rfl <;> rfl
  obtain ⟨after, hsaved⟩ : ∃ after, saveAll ∅ [marchJob, juneJob] = .ok after := ⟨_, rfl⟩
  have hscan : IsFullScan after ([⟨7, []⟩, ⟨3, [key marchJob]⟩] ++ [⟨0, [key juneJob]⟩]) :=
    isFullScan_of_keys hsaved hids hjson rfl (by simp) (by simp [returnedKeys])
  obtain ⟨result, hresult, hsorted, honce⟩ := listAll_each_once_iff .plain ∅ after
    [marchJob, juneJob] hids hjson (fun _ hk => absurd hk List.not_mem_nil) hsaved _ hscan
  exact ⟨after, result, hsaved, hresult, hsorted, honce.mpr (by decide)⟩

/-- One job whose key comes in both batches is listed twice. -/
theorem job_listed_twice :
    ∃ after, saveAll ∅ [marchJob] = .ok after ∧
      IsFullScan after [⟨7, [key marchJob]⟩, ⟨0, [key marchJob]⟩] ∧
      listAll .plain after [⟨7, [key marchJob]⟩, ⟨0, [key marchJob]⟩] =
        some [marchJob, marchJob] ∧
      ¬ [marchJob, marchJob].Perm [marchJob] := by
  have hjson : ∀ job ∈ [marchJob], job.result.isJson = true := by
    intro job hjob
    rw [List.mem_singleton.mp hjob]
    rfl
  obtain ⟨after, hsaved⟩ : ∃ after, saveAll ∅ [marchJob] = .ok after := ⟨_, rfl⟩
  have hids : ([marchJob].map Job.id).Nodup := List.nodup_singleton _
  have hscan : IsFullScan after ([⟨7, [key marchJob]⟩] ++ [⟨0, [key marchJob]⟩]) :=
    isFullScan_of_keys hsaved hids hjson rfl (by simp) (by simp [returnedKeys])
  have hread := saveAll_jobAt .plain hsaved hids hjson marchJob (List.mem_singleton_self _)
  refine ⟨after, hsaved, hscan, ?_, fun hperm => absurd hperm.length_eq (by decide)⟩
  rw [List.singleton_append] at hscan
  rw [listAll_eq hscan]
  simp [returnedKeys, hread, newestFirst, notOlder]

end RedisJobStore

end RiskFlow
