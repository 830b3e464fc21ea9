import RiskFlow.Service.SharedCache
import RiskFlow.Lib.Recording

/-!
# ConcurrentUploads — uploads and corrections that take turns

`process_file` as a task: it waits for the cache, for the corrections, for
the mapper and for the cache again, and between two of these waits other
uploads, corrections and expiring entries take their steps. A Redis call
may fail, and the adapters turn the failure into a miss or drop the write.

Whatever the interleaving, an upload answers what `process_file` alone
would have answered on one state of the caches, whose mappings are those
of its lookup and whose corrections those of its later one. So what holds
of every single run on a cache holds of all of them together.
-/

namespace RiskFlow

open Lib MappingService

/-! ## The tasks -/

/-- Which of the Redis calls of a task fail. -/
structure Outages where
  getMapping : Bool := false
  getCorrections : Bool := false
  write : Bool := false

/-- Where an upload stands: before its first step, waiting for the cache, for
the corrections, for the mapper and for the cache to take the mapping. -/
inductive UploadPhase where
  | started
  | looking (headers : List String) (preview : List Row)
  | missed (headers : List String) (preview : List Row)
  | asking (headers : List String) (preview : List Row) (corrections : Dict String String)
  | caching (headers : List String) (mapping : MappingResult)
  | answered (outcome : Except PyErr ProcessingResult)

/-- A call of `process_file`, a call of `store_correction`, and an entry whose
time to live ends. -/
inductive ServiceTask where
  | upload (svc : MappingService) (u : Upload) (outages : Outages) (phase : UploadPhase)
  | correction (svc : MappingService) (k : Correction) (outages : Outages)
      (outcome : Option (Except PyErr Unit))
  | expiry (cacheKey : String) (expired : Bool)

namespace MappingService

/-- `_map_with_corrections` once the corrections are there. -/
def mapWith (rt : Runtime) (svc : MappingService) (mapper : Mapper) (headers : List String)
    (preview : List Row) (corrections : Dict String String) : Except PyErr MappingResult := do
  validateCorrections svc corrections
  let correctedMappings := corrections.entries.map correctedMapping
  let uncorrected := uncorrectedHeaders headers corrections
  if uncorrected.isEmpty then
    MappingResult.build correctedMappings []
  else
    let slmResult ← mapUncorrected rt svc mapper uncorrected preview
    let filteredSlm := slmResult.mappings.filter fun m => m.targetField ∉ corrections.values
    MappingResult.build (correctedMappings ++ filteredSlm) slmResult.unmappedHeaders

theorem mapWithCorrections_eq (rt : Runtime) (svc : MappingService) (mapper : Mapper)
    (stores : Stores) (headers : List String) (preview : List Row) (cedentId : Option String) :
    mapWithCorrections rt svc mapper stores headers preview cedentId =
      mapWith rt svc mapper headers preview (correctionsFor stores headers cedentId) := rfl

end MappingService

/-- The next step of an upload. -/
def UploadPhase.advance (rt : Runtime) (svc : MappingService) (u : Upload) (outages : Outages)
    (stores : Stores) : UploadPhase → Stores × UploadPhase
  | .started =>
      match u.ingested rt with
      | .error e => (stores, .answered (.error e))
      | .ok (headers, preview) => (stores, .looking headers preview)
  | .looking headers preview =>
      match if outages.getMapping then none else svc.cached rt stores headers with
      | some mapping =>
          (stores, .answered (validateRows rt svc u.files u.filePath mapping u.sheetName))
      | none => (stores, .missed headers preview)
  | .missed headers preview =>
      (stores, .asking headers preview
        (if outages.getCorrections then ∅ else correctionsFor stores headers u.cedentId))
  | .asking headers preview corrections =>
      match mapWith rt svc u.mapper headers preview corrections with
      | .error e => (stores, .answered (.error e))
      | .ok mapping => (stores, .caching headers mapping)
  | .caching headers mapping =>
      (if outages.write then stores
        else RedisCache.setMapping stores (buildCacheKey rt svc headers) mapping,
        .answered (validateRows rt svc u.files u.filePath mapping u.sheetName))
  | .answered outcome => (stores, .answered outcome)

/-- The next step of a task. -/
def ServiceTask.advance (rt : Runtime) (stores : Stores) : ServiceTask → Stores × ServiceTask
  | .upload svc u outages phase =>
      ((phase.advance rt svc u outages stores).1,
        .upload svc u outages (phase.advance rt svc u outages stores).2)
  | .correction svc k outages none =>
      match svc.storeCorrection stores k with
      | .error e => (stores, .correction svc k outages (some (.error e)))
      | .ok stored =>
          (if outages.write then stores else stored, .correction svc k outages (some (.ok ())))
  | .correction svc k outages (some outcome) => (stores, .correction svc k outages (some outcome))
  | .expiry cacheKey false => (RedisCache.expire stores cacheKey, .expiry cacheKey true)
  | .expiry cacheKey true => (stores, .expiry cacheKey true)

/-- A task that has not begun. -/
def ServiceTask.Begins : ServiceTask → Prop
  | .upload _ _ _ phase => phase = .started
  | .correction _ _ _ outcome => outcome = none
  | .expiry _ expired => expired = false

/-- An upload on a service of the collection. -/
def ServiceTask.On (services : Set MappingService) : ServiceTask → Prop
  | .upload svc _ _ _ => svc ∈ services
  | _ => True

/-! ## One state for each upload -/

section Snapshots
variable (rt : Runtime) (services : Set MappingService)

/-- A state of the caches on which `process_file` alone misses at its lookup
and finds these corrections. -/
def MissesOn (svc : MappingService) (u : Upload) (headers : List String)
    (corrections : Dict String String) (stores : Stores) : Prop :=
  svc.cached rt stores headers = none ∧ correctionsFor stores headers u.cedentId = corrections

/-- What an upload has seen of the caches so far is one state, each of whose
entries has a writer in the collection. -/
def UploadPhase.SeesOne (svc : MappingService) (u : Upload) : UploadPhase → Prop
  | .started => True
  | .looking headers preview => u.ingested rt = .ok (headers, preview)
  | .missed headers preview => u.ingested rt = .ok (headers, preview) ∧
      ∃ stores, AllWritten rt services stores ∧ svc.cached rt stores headers = none
  | .asking headers preview corrections => u.ingested rt = .ok (headers, preview) ∧
      ∃ stores, AllWritten rt services stores ∧ MissesOn rt svc u headers corrections stores
  | .caching headers mapping => ∃ preview corrections stores,
      u.ingested rt = .ok (headers, preview) ∧ AllWritten rt services stores ∧
      MissesOn rt svc u headers corrections stores ∧
      mapWith rt svc u.mapper headers preview corrections = .ok mapping
  | .answered outcome => ∃ stores, AllWritten rt services stores ∧
      outcome = (u.process rt svc stores).1

def ServiceTask.SeesOne : ServiceTask → Prop
  | .upload svc u _ phase => svc ∈ services ∧ phase.SeesOne rt services svc u
  | _ => True

end Snapshots

section Outcomes
variable {rt : Runtime} {svc : MappingService} {u : Upload} {stores : Stores}
  {headers : List String} {preview : List Row}

theorem process_unread {e : PyErr} (h : u.ingested rt = .error e) :
    (u.process rt svc stores).1 = .error e := by
  rw [process_outcome, h]
  rfl

theorem process_hit {mapping : MappingResult} (h : u.ingested rt = .ok (headers, preview))
    (hcached : svc.cached rt stores headers = some mapping) :
    (u.process rt svc stores).1 =
      validateRows rt svc u.files u.filePath mapping u.sheetName := by
  rw [process_outcome, h]
  show ((obtainMapping rt svc u.mapper stores headers preview u.cedentId).1 >>= _) = _
  rw [obtainMapping_hit hcached]
  rfl

theorem process_miss {corrections : Dict String String}
    (h : u.ingested rt = .ok (headers, preview))
    (hmisses : MissesOn rt svc u headers corrections stores) :
    (u.process rt svc stores).1 = (do
      let mapping ← mapWith rt svc u.mapper headers preview corrections
      validateRows rt svc u.files u.filePath mapping u.sheetName) := by
  obtain ⟨hcached, hcorrections⟩ := hmisses
  rw [process_outcome, h]
  show ((obtainMapping rt svc u.mapper stores headers preview u.cedentId).1 >>= _) = _
  rw [obtainMapping_miss hcached, mapWithCorrections_eq, hcorrections]

end Outcomes

/-! ## Steps -/

section Steps
variable {rt : Runtime} {services : Set MappingService} {stores : Stores}

theorem allWritten_empty : AllWritten rt services .empty := by
  intro cacheKey mapping hget
  cases hget

/-- Where no correction is stored, none applies. -/
theorem correctionsFor_nothing (mappings : Dict String Json) (headers : List String)
    (cedentId : Option String) : correctionsFor ⟨mappings, ∅⟩ headers cedentId = ∅ := by
  have hnone : ∀ header : String, (∅ : Dict String String).get? header = none := fun _ => rfl
  unfold correctionsFor
  split
  · rfl
  · split
    · rfl
    · rename_i c _
      have hash : RedisCorrectionCache.hashOf ⟨mappings, ∅⟩ c = ∅ := rfl
      simp only [RedisCorrectionCache.getCorrections, hash, hnone, Option.map_none,
        List.filterMap_none]
      rfl

/-- The writers of the entries do not depend on the corrections. -/
theorem allWritten_mappings {other : Stores} (h : AllWritten rt services stores)
    (hsame : other.mappings = stores.mappings) : AllWritten rt services other := by
  intro cacheKey mapping hget
  rw [RedisCache.getMapping, hsame] at hget
  exact h cacheKey mapping hget

theorem allWritten_set {svc : MappingService} (hsvc : svc ∈ services) {u : Upload}
    {headers : List String} {preview : List Row} {corrections : Dict String String}
    {seen : Stores} {mapping : MappingResult} (h : AllWritten rt services stores)
    (hin : u.ingested rt = .ok (headers, preview))
    (hmisses : MissesOn rt svc u headers corrections seen)
    (hmade : mapWith rt svc u.mapper headers preview corrections = .ok mapping) :
    AllWritten rt services
      (RedisCache.setMapping stores (buildCacheKey rt svc headers) mapping) := by
  rw [← hmisses.2, ← mapWithCorrections_eq] at hmade
  intro cacheKey other hget
  rw [RedisCache.getMapping_setMapping] at hget
  by_cases hkey : buildCacheKey rt svc headers = cacheKey
  · rw [if_pos hkey] at hget
    cases hget
    rw [← hkey]
    exact writtenBy_of_made hsvc (ingested_nodup hin) hmade
  · rw [if_neg hkey] at hget
    exact h cacheKey other hget

/-- **One step of an upload**: the caches keep their writers, and the upload
still sees one state of them. -/
theorem upload_seesOne {svc : MappingService} (hsvc : svc ∈ services) {u : Upload}
    (outages : Outages) {phase : UploadPhase} (h : AllWritten rt services stores)
    (hphase : phase.SeesOne rt services svc u) :
    AllWritten rt services (phase.advance rt svc u outages stores).1 ∧
      (phase.advance rt svc u outages stores).2.SeesOne rt services svc u := by
  cases phase with
  | started =>
      cases hin : u.ingested rt with
      | error e =>
          simp only [UploadPhase.advance, hin]
          exact ⟨h, stores, h, (process_unread hin).symm⟩
      | ok r =>
          simp only [UploadPhase.advance, hin]
          exact ⟨h, hin⟩
  | looking headers preview =>
      by_cases hfails : outages.getMapping = true
      · simp only [UploadPhase.advance, if_pos hfails]
        exact ⟨h, hphase, .empty, allWritten_empty, rfl⟩
      · simp only [UploadPhase.advance, if_neg hfails]
        cases hcached : svc.cached rt stores headers with
        | some mapping => exact ⟨h, stores, h, (process_hit hphase hcached).symm⟩
        | none => exact ⟨h, hphase, stores, h, hcached⟩
  | missed headers preview =>
      obtain ⟨hin, seen, hseen, hcached⟩ := hphase
      -- the mappings of the first lookup with the corrections of this one
      refine ⟨h, hin, ⟨seen.mappings, if outages.getCorrections then ∅ else stores.corrections⟩,
        allWritten_mappings hseen rfl, hcached, ?_⟩
      by_cases hfails : outages.getCorrections = true
      · rw [if_pos hfails, if_pos hfails]
        exact correctionsFor_nothing seen.mappings headers u.cedentId
      · rw [if_neg hfails, if_neg hfails]
        rfl
  | asking headers preview corrections =>
      obtain ⟨hin, seen, hseen, hmisses⟩ := hphase
      cases hmade : mapWith rt svc u.mapper headers preview corrections with
      | error e =>
          simp only [UploadPhase.advance, hmade]
          refine ⟨h, seen, hseen, ?_⟩
          rw [process_miss hin hmisses, hmade]
          rfl
      | ok mapping =>
          simp only [UploadPhase.advance, hmade]
          exact ⟨h, preview, corrections, seen, hin, hseen, hmisses, hmade⟩
  | caching headers mapping =>
      obtain ⟨preview, corrections, seen, hin, hseen, hmisses, hmade⟩ := hphase
      refine ⟨?_, seen, hseen, ?_⟩
      · by_cases hfails : outages.write = true
        · simp only [UploadPhase.advance, if_pos hfails]
          exact h
        · simp only [UploadPhase.advance, if_neg hfails]
          exact allWritten_set hsvc h hin hmisses hmade
      · rw [process_miss hin hmisses, hmade]
        rfl
  | answered outcome => exact ⟨h, hphase⟩

theorem task_seesOne {t : ServiceTask} (h : AllWritten rt services stores)
    (ht : t.SeesOne rt services) :
    AllWritten rt services (t.advance rt stores).1 ∧
      (t.advance rt stores).2.SeesOne rt services := by
  cases t with
  | upload svc u outages phase =>
      obtain ⟨hstores, hphase⟩ := upload_seesOne ht.1 outages h ht.2
      exact ⟨hstores, ht.1, hphase⟩
  | correction svc k outages outcome =>
      cases outcome with
      | some outcome => exact ⟨h, trivial⟩
      | none =>
          by_cases hfield : k.targetField ∈ svc.schema.fieldNames
          · simp only [ServiceTask.advance, storeCorrection_of_mem hfield]
            refine ⟨?_, trivial⟩
            by_cases hfails : outages.write = true
            · rw [if_pos hfails]
              exact h
            · rw [if_neg hfails]
              exact allWritten_mappings h rfl
          · obtain ⟨e, he⟩ := storeCorrection_of_not_mem stores hfield
            simp only [ServiceTask.advance, he]
            exact ⟨h, trivial⟩
  | expiry cacheKey expired =>
      cases expired with
      | true => exact ⟨h, trivial⟩
      | false =>
          refine ⟨?_, trivial⟩
          intro other mapping hget
          show WrittenBy rt services other mapping
          have hread : RedisCache.getMapping (RedisCache.expire stores cacheKey) other =
              some mapping := hget
          rw [RedisCache.getMapping_expire] at hread
          split at hread
          · cases hread
          · exact h other mapping hread

end Steps

/-! ## Runs -/

/-- **An upload among others answers as one alone.** After every schedule of
uploads, corrections and expiring entries, whichever Redis calls fail, each
outcome is that of `process_file` on one state of the caches whose entries
all have a writer among the services. -/
theorem seesOne_run (rt : Runtime) {services : Set MappingService}
    {p : Pool Stores ServiceTask}
    (hp : p.Holds (AllWritten rt services) fun _ t => t.SeesOne rt services)
    (schedule : List Nat) :
    (p.run (ServiceTask.advance rt) schedule).Holds (AllWritten rt services)
      fun _ t => t.SeesOne rt services := by
  induction schedule generalizing p with
  | nil => exact hp
  | cons i rest ih =>
      refine ih (Pool.step_holds _ hp fun t ht => ?_)
      obtain ⟨hstores, htask⟩ := task_seesOne hp.1 (hp.2 t (List.mem_of_getElem? ht))
      exact ⟨hstores, htask, fun _ _ hu => hu⟩

theorem seesOne_begin {rt : Runtime} {services : Set MappingService} {t : ServiceTask}
    (hbegins : t.Begins) (hon : t.On services) : t.SeesOne rt services := by
  cases t with
  | upload svc u outages phase =>
      have hphase : phase = .started := hbegins
      rw [hphase]
      exact ⟨hon, trivial⟩
  | _ => trivial

/-- What `process_file` returns on written caches has a writer. -/
theorem written_of_process {rt : Runtime} {services : Set MappingService} {svc : MappingService}
    (hsvc : svc ∈ services) {stores : Stores} (hstores : AllWritten rt services stores)
    {u : Upload} {result : ProcessingResult} (h : (u.process rt svc stores).1 = .ok result) :
    ∃ headers : List String, headers.Nodup ∧
      WrittenBy rt services (buildCacheKey rt svc headers) result.mapping := by
  obtain ⟨headers, preview, hin, hmapping⟩ := process_mapping h
  have hnodup := ingested_nodup hin
  refine ⟨headers, hnodup, ?_⟩
  rcases hmapping with hhit | ⟨_, hmake⟩
  · exact hstores _ _ hhit
  · exact writtenBy_of_made hsvc hnodup hmake

/-- A mapping found under a reader's key is as sure as its writer asked. -/
theorem confident_of_written {rt : Runtime} {services : Set MappingService}
    (hrange : ∀ svc ∈ services, svc.confidenceThreshold ≤ 1)
    (hreads : ∀ reader ∈ services, ∀ writer ∈ services, ReadsFrom rt reader writer →
      reader.confidenceThreshold ≤ writer.confidenceThreshold)
    {svc : MappingService} (hsvc : svc ∈ services) {headers : List String}
    (hnodup : headers.Nodup) {mapping : MappingResult}
    (h : WrittenBy rt services (buildCacheKey rt svc headers) mapping) :
    ∀ m ∈ mapping.mappings, svc.confidenceThreshold ≤ m.confidence := by
  obtain ⟨writer, hwriter, written, corrections, answer, hwritten, hkey, hmade, hasked,
    hconfident⟩ := h
  intro m hm
  rcases hmade.mem hm with ⟨kv, _, rfl⟩ | ⟨hanswer, _⟩
  · exact hrange svc hsvc
  · have hreadsFrom : ReadsFrom rt svc writer :=
      ⟨written, headers, hwritten, hnodup, hasked (List.ne_nil_of_mem hanswer), hkey⟩
    exact le_trans (hreads svc hsvc writer hwriter hreadsFrom) (hconfident m hanswer)

/-- The report of a mapping without a field below the threshold lists none. -/
theorem lowConfidenceFields_nil {mapping : MappingResult} {threshold : ℚ}
    (h : ∀ m ∈ mapping.mappings, threshold ≤ m.confidence) (validFields : List String) :
    (ConfidenceReport.fromMappingResult mapping threshold validFields).lowConfidenceFields =
      [] := by
  have hnone : mapping.mappings.filter (fun m => decide (m.confidence < threshold)) = [] :=
    List.filter_eq_nil_iff.mpr fun m hm => by simpa using h m hm
  unfold ConfidenceReport.fromMappingResult
  split
  · rfl
  · exact hnone

/-- **Concurrent uploads keep the threshold.** On one cache, with every
interleaving and whichever Redis calls fail, each upload answers what
`process_file` alone would on some state whose entries the services wrote;
and where thresholds are at most 1 and no service reads from one with a
lower threshold, no result has a mapping below its own and no report lists
one. -/
theorem concurrent_uploads_confident (rt : Runtime) (services : Set MappingService)
    (tasks : List ServiceTask) (schedule : List Nat)
    (hbegin : ∀ t ∈ tasks, t.Begins ∧ t.On services) :
    ∀ svc u outages outcome, ServiceTask.upload svc u outages (.answered outcome) ∈
        (Pool.run (ServiceTask.advance rt) ⟨.empty, tasks⟩ schedule).tasks →
      (∃ stores, AllWritten rt services stores ∧ outcome = (u.process rt svc stores).1) ∧
        ((∀ svc ∈ services, svc.confidenceThreshold ≤ 1) →
          (∀ reader ∈ services, ∀ writer ∈ services, ReadsFrom rt reader writer →
            reader.confidenceThreshold ≤ writer.confidenceThreshold) →
          ∀ result, outcome = .ok result →
            (∀ m ∈ result.mapping.mappings, svc.confidenceThreshold ≤ m.confidence) ∧
              result.confidenceReport.lowConfidenceFields = []) := by
  intro svc u outages outcome hmem
  have hstart : Pool.Holds (AllWritten rt services) (fun _ t => t.SeesOne rt services)
      ⟨Stores.empty, tasks⟩ :=
    ⟨allWritten_empty, fun t ht => seesOne_begin (hbegin t ht).1 (hbegin t ht).2⟩
  obtain ⟨hsvc, stores, hstores, houtcome⟩ := (seesOne_run rt hstart schedule).2 _ hmem
  refine ⟨⟨stores, hstores, houtcome⟩, fun hrange hreads result hresult => ?_⟩
  rw [houtcome] at hresult
  obtain ⟨headers, hnodup, hwritten⟩ := written_of_process hsvc hstores hresult
  have hconfident := confident_of_written hrange hreads hsvc hnodup hwritten
  refine ⟨hconfident, ?_⟩
  obtain ⟨_, _, _, _, hvalid⟩ := processFile_runs hresult
  obtain ⟨df, _, htable⟩ := bind_eq_ok.mp hvalid
  obtain ⟨_, _, _, _, _, _, hmade⟩ := validateTable_ok htable
  rw [hmade]
  exact lowConfidenceFields_nil hconfident _

/-- The same file twice, the second time without its corrections, and the
correction of one of its headers. -/
def crossingTasks : List ServiceTask :=
  [.upload premiumService acmeUpload {} .started,
    .upload premiumService acmeUpload { getCorrections := true } .started,
    .correction premiumService premiumCorrection {} none]

/-- Both uploads miss, the correction is stored between their lookups. -/
def crossingSchedule : List Nat := [0, 1, 0, 1, 2, 0, 1, 0, 1, 0, 1]

theorem crossing_uploads_confident :
    ∃ result : ProcessingResult,
      (∃ stores, AllWritten .plain {premiumService} stores ∧
          .ok result = (acmeUpload.process .plain premiumService stores).1) ∧
        (∀ m ∈ result.mapping.mappings, premiumService.confidenceThreshold ≤ m.confidence) ∧
          result.confidenceReport.lowConfidenceFields = [] := by
  have h := concurrent_uploads_confident .plain {premiumService} crossingTasks crossingSchedule
    ?_ premiumService acmeUpload {} _ (List.mem_of_getElem? (i := 0) rfl)
  · refine ⟨_, h.1, h.2 ?_ ?_ _ rfl⟩
    · intro svc hsvc
      rw [Set.mem_singleton_iff.mp hsvc]
      exact le_refl (1 : ℚ)
    · intro reader hreader writer hwriter _
      rw [Set.mem_singleton_iff.mp hreader, Set.mem_singleton_iff.mp hwriter]
  · intro t ht
    simp only [crossingTasks, List.mem_cons, List.not_mem_nil, or_false] at ht
    rcases ht with rfl | rfl | rfl
    · exact ⟨rfl, rfl⟩
    · exact ⟨rfl, rfl⟩
    · exact ⟨rfl, trivial⟩

end RiskFlow
