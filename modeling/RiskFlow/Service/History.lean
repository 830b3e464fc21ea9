import RiskFlow.Service.MappingService
import RiskFlow.Lib.Run

/-!
# History — runs of a mapping service

A history is any sequence of corrections, uploads and expiring cache
entries. Beside the caches a run tracks where each cached mapping came
from: the headers of the upload that wrote it and the corrections applied
there. The main result describes every cached mapping by its origin.
-/

namespace RiskFlow

open Lib MappingService

/-! ## Events -/

/-- One call of `process_file`, with the files and the mapper it meets. -/
structure Upload where
  files : Files
  mapper : Mapper
  filePath : String
  sheetName : Option String := none
  cedentId : Option String := none

inductive Event where
  | correction (k : Correction)
  | upload (u : Upload)
  | expire (cacheKey : String)

namespace Upload
variable (rt : Runtime) (svc : MappingService)

def ingested (u : Upload) : Except PyErr (List String × List Row) :=
  ingest rt u.files u.filePath u.sheetName

def process (u : Upload) (stores : Stores) : Except PyErr ProcessingResult × Stores :=
  processFile rt svc u.files u.mapper u.filePath u.sheetName u.cedentId stores

end Upload

/-- The mapping an upload with these headers finds in the cache. -/
def MappingService.cached (rt : Runtime) (svc : MappingService) (stores : Stores)
    (headers : List String) : Option MappingResult :=
  RedisCache.getMapping stores (buildCacheKey rt svc headers)

/-- What one event makes of the caches. -/
def serve (rt : Runtime) (svc : MappingService) (stores : Stores) : Event → Stores
  | .correction k =>
      match svc.storeCorrection stores k with
      | .ok stores => stores
      | .error _ => stores
  | .upload u => (u.process rt svc stores).2
  | .expire cacheKey => RedisCache.expire stores cacheKey

/-- The caches after a history that starts with nothing stored. -/
def run (rt : Runtime) (svc : MappingService) (history : List Event) : Stores :=
  history.foldl (serve rt svc) .empty

/-- The target of the last correction of header `h` the service took from
cedent `c`. -/
def latestCorrection (svc : MappingService) (c h : String) (history : List Event) :
    Option String :=
  history.foldl
    (fun latest e =>
      match e with
      | .correction k =>
          if k.cedentId = c ∧ k.sourceHeader = h ∧ k.targetField ∈ svc.schema.fieldNames then
            some k.targetField
          else latest
      | _ => latest)
    none

/-! ## Where cached mappings come from -/

/-- The upload that wrote an entry: its headers, and the corrections applied to them. -/
structure Origin where
  headers : List String
  corrections : Dict String String
  deriving DecidableEq

/-- The caches, and for each cache key the last upload that wrote under it. -/
structure Tracked where
  stores : Stores
  origins : Dict String Origin

/-- The entry an upload writes: none on a hit or an error. -/
def Upload.writes (rt : Runtime) (svc : MappingService) (u : Upload) (stores : Stores) :
    Option (String × Origin) :=
  match u.ingested rt with
  | .error _ => none
  | .ok (headers, preview) =>
      match svc.cached rt stores headers,
        mapWithCorrections rt svc u.mapper stores headers preview u.cedentId with
      | none, .ok _ => some (buildCacheKey rt svc headers,
          { headers, corrections := correctionsFor stores headers u.cedentId })
      | _, _ => none

def track (rt : Runtime) (svc : MappingService) (t : Tracked) (e : Event) : Tracked where
  stores := serve rt svc t.stores e
  origins :=
    match e with
    | .upload u =>
        match u.writes rt svc t.stores with
        | some (cacheKey, origin) => t.origins.set cacheKey origin
        | none => t.origins
    | _ => t.origins

def trackedRun (rt : Runtime) (svc : MappingService) (history : List Event) : Tracked :=
  history.foldl (track rt svc) ⟨.empty, ∅⟩

section Runs
variable {rt : Runtime} {svc : MappingService}

theorem run_append (history : List Event) (e : Event) :
    run rt svc (history ++ [e]) = serve rt svc (run rt svc history) e := by
  simp [run]

theorem trackedRun_append (history : List Event) (e : Event) :
    trackedRun rt svc (history ++ [e]) = track rt svc (trackedRun rt svc history) e := by
  simp [trackedRun]

/-- Tracking the origins changes nothing. -/
theorem trackedRun_stores (history : List Event) :
    (trackedRun rt svc history).stores = run rt svc history := by
  induction history using List.reverseRecOn with
  | nil => rfl
  | append_singleton history e ih =>
      rw [trackedRun_append, run_append, ← ih]
      rfl

/-! ## Corrections -/

theorem latestCorrection_append (c h : String) (history : List Event) (e : Event) :
    latestCorrection svc c h (history ++ [e]) =
      match e with
      | .correction k =>
          if k.cedentId = c ∧ k.sourceHeader = h ∧ k.targetField ∈ svc.schema.fieldNames then
            some k.targetField
          else latestCorrection svc c h history
      | _ => latestCorrection svc c h history := by
  simp only [latestCorrection, List.foldl_append, List.foldl_cons, List.foldl_nil]

theorem obtainMapping_corrections (mapper : Mapper) (stores : Stores) (headers : List String)
    (preview : List Row) (cedentId : Option String) :
    (obtainMapping rt svc mapper stores headers preview cedentId).2.corrections =
      stores.corrections := by
  simp only [obtainMapping]
  split
  · rfl
  · split <;> rfl

/-- The caches after an upload: those of obtaining its mapping. -/
theorem process_stores (u : Upload) (stores : Stores) :
    (u.process rt svc stores).2 =
      match u.ingested rt with
      | .error _ => stores
      | .ok (headers, preview) =>
          (obtainMapping rt svc u.mapper stores headers preview u.cedentId).2 := by
  unfold Upload.process processFile Upload.ingested
  cases ingest rt u.files u.filePath u.sheetName with
  | error e => rfl
  | ok r =>
      dsimp only
      cases obtainMapping rt svc u.mapper stores r.1 r.2 u.cedentId with
      | mk mapping stores => cases mapping <;> rfl

/-- The outcome of an upload: that of validating with the mapping obtained. -/
theorem process_outcome (u : Upload) (stores : Stores) :
    (u.process rt svc stores).1 = (do
      let (headers, preview) ← u.ingested rt
      let mapping ← (obtainMapping rt svc u.mapper stores headers preview u.cedentId).1
      validateRows rt svc u.files u.filePath mapping u.sheetName) := by
  unfold Upload.process processFile Upload.ingested
  cases ingest rt u.files u.filePath u.sheetName with
  | error e => rfl
  | ok r =>
      show _ = ((obtainMapping rt svc u.mapper stores r.1 r.2 u.cedentId).1 >>= fun mapping =>
        validateRows rt svc u.files u.filePath mapping u.sheetName)
      dsimp only
      cases obtainMapping rt svc u.mapper stores r.1 r.2 u.cedentId with
      | mk mapping stores => cases mapping <;> rfl

theorem serve_upload_corrections (u : Upload) (stores : Stores) :
    (serve rt svc stores (.upload u)).corrections = stores.corrections := by
  rw [serve, process_stores]
  split
  · rfl
  · exact obtainMapping_corrections ..

theorem hashOf_congr {stores stores' : Stores} (h : stores'.corrections = stores.corrections)
    (c : String) :
    RedisCorrectionCache.hashOf stores' c = RedisCorrectionCache.hashOf stores c := by
  rw [RedisCorrectionCache.hashOf, h]
  rfl

theorem serve_correction_mappings (stores : Stores) (k : Correction) (key : String) :
    RedisCache.getMapping (serve rt svc stores (.correction k)) key =
      RedisCache.getMapping stores key := by
  dsimp only [serve]
  by_cases hfield : k.targetField ∈ svc.schema.fieldNames
  · rw [storeCorrection_of_mem hfield]
    rfl
  · obtain ⟨err, herr⟩ := storeCorrection_of_not_mem stores hfield
    rw [herr]

theorem serve_correction_hash (stores : Stores) (k : Correction) (c : String) :
    RedisCorrectionCache.hashOf (serve rt svc stores (.correction k)) c =
      if k.cedentId = c ∧ k.targetField ∈ svc.schema.fieldNames then
        (RedisCorrectionCache.hashOf stores c).set k.sourceHeader k.targetField
      else RedisCorrectionCache.hashOf stores c := by
  dsimp only [serve]
  by_cases hfield : k.targetField ∈ svc.schema.fieldNames
  · rw [storeCorrection_of_mem hfield]
    dsimp only
    rw [RedisCorrectionCache.hashOf_setCorrection]
    simp [hfield]
  · obtain ⟨err, herr⟩ := storeCorrection_of_not_mem stores hfield
    rw [herr]
    simp [hfield]

/-- Storing a correction of one cedent leaves the others' hashes alone. -/
theorem serve_correction_other (stores : Stores) {k : Correction} {c : String}
    (h : k.cedentId ≠ c) :
    RedisCorrectionCache.hashOf (serve rt svc stores (.correction k)) c =
      RedisCorrectionCache.hashOf stores c := by
  rw [serve_correction_hash, if_neg fun hk => h hk.1]

/-- The stored corrections are the latest ones of the history. -/
theorem hashOf_run (c h : String) (history : List Event) :
    (RedisCorrectionCache.hashOf (run rt svc history) c).get? h =
      latestCorrection svc c h history := by
  induction history using List.reverseRecOn with
  | nil => rfl
  | append_singleton history e ih =>
      rw [run_append, latestCorrection_append]
      cases e with
      | upload u => rw [hashOf_congr (serve_upload_corrections u _), ih]
      | expire cacheKey => exact ih
      | correction k =>
          -- a correction with a foreign target is refused and counts in neither
          rw [serve_correction_hash]
          by_cases hstored : k.cedentId = c ∧ k.targetField ∈ svc.schema.fieldNames
          · rw [if_pos hstored, Dict.get?_set, ih]
            simp [hstored]
          · rw [if_neg hstored, ih]
            have hcounts : ¬ (k.cedentId = c ∧ k.sourceHeader = h ∧
                k.targetField ∈ svc.schema.fieldNames) :=
              fun hk => hstored ⟨hk.1, hk.2.2⟩
            simp only [if_neg hcounts]

/-- A correction the service took has a target of its schema. -/
theorem latestCorrection_mem {c h target : String} {history : List Event}
    (hlatest : latestCorrection svc c h history = some target) :
    target ∈ svc.schema.fieldNames := by
  induction history using List.reverseRecOn with
  | nil => cases hlatest
  | append_singleton history e ih =>
      rw [latestCorrection_append] at hlatest
      cases e with
      | correction k =>
          dsimp only at hlatest
          split at hlatest
          · rename_i hk
            cases hlatest
            exact hk.2.2
          · exact ih hlatest
      | upload u => exact ih hlatest
      | expire cacheKey => exact ih hlatest

/-- No correction belongs to the empty cedent. -/
theorem latestCorrection_empty (h : String) (history : List Event) :
    latestCorrection svc "" h history = none := by
  induction history using List.reverseRecOn with
  | nil => rfl
  | append_singleton history e ih =>
      rw [latestCorrection_append]
      cases e with
      | correction k => simp [k.cedentId_ne_empty, ih]
      | _ => exact ih

/-- What applies to an upload after a history: its cedent's latest corrections. -/
theorem correctionsFor_run {c h : String} {headers : List String} {history : List Event}
    (hmem : h ∈ headers) :
    (correctionsFor (run rt svc history) headers (some c)).get? h =
      latestCorrection svc c h history := by
  by_cases hc : c = ""
  · rw [hc, latestCorrection_empty]
    rfl
  · rw [correctionsFor_some hc hmem, hashOf_run]

/-! ## The provenance of an entry -/

/-- The mapper's answers the upload can get in this state satisfy `q`. -/
def Answers (rt : Runtime) (svc : MappingService) (q : Origin → List ColumnMapping → Prop)
    (t : Tracked) (u : Upload) : Prop :=
  ∀ headers preview answer, u.ingested rt = .ok (headers, preview) →
    svc.cached rt t.stores headers = none →
    AnswerOf rt svc u.mapper t.stores headers preview u.cedentId answer →
    q { headers, corrections := correctionsFor t.stores headers u.cedentId } answer

/-- Every upload of the run gets answers that satisfy `q`. -/
def AnswersOf (rt : Runtime) (svc : MappingService) (q : Origin → List ColumnMapping → Prop)
    (t : Tracked) : Event → Prop
  | .upload u => Answers rt svc q t u
  | _ => True

/-- Every cached mapping was made from its origin, with an answer that satisfies `q`. -/
def Provenance (svc : MappingService) (q : Origin → List ColumnMapping → Prop) (t : Tracked) :
    Prop :=
  ∀ cacheKey mapping, RedisCache.getMapping t.stores cacheKey = some mapping →
    ∃ origin answer, t.origins.get? cacheKey = some origin ∧
      MadeFrom svc origin.headers origin.corrections answer mapping ∧ q origin answer

/-- An upload leaves the state as it is, or writes one mapping under its key
and is the origin of it. -/
theorem track_upload_cases (t : Tracked) (u : Upload) :
    track rt svc t (.upload u) = t ∨
      ∃ headers preview answer mapping, u.ingested rt = .ok (headers, preview) ∧
        svc.cached rt t.stores headers = none ∧
        AnswerOf rt svc u.mapper t.stores headers preview u.cedentId answer ∧
        MadeFrom svc headers (correctionsFor t.stores headers u.cedentId) answer mapping ∧
        track rt svc t (.upload u) =
          ⟨RedisCache.setMapping t.stores (buildCacheKey rt svc headers) mapping,
            t.origins.set (buildCacheKey rt svc headers)
              ⟨headers, correctionsFor t.stores headers u.cedentId⟩⟩ := by
  unfold track serve
  dsimp only
  rw [process_stores]
  cases hin : u.ingested rt with
  | error e =>
      left
      simp [Upload.writes, hin]
  | ok r =>
      obtain ⟨headers, preview⟩ := r
      dsimp only
      cases hcached : svc.cached rt t.stores headers with
      | some m =>
          left
          rw [obtainMapping_hit hcached]
          simp [Upload.writes, hin, hcached]
      | none =>
          rw [obtainMapping_miss hcached]
          cases hmap : mapWithCorrections rt svc u.mapper t.stores headers preview u.cedentId with
          | error e =>
              left
              simp [Upload.writes, hin, hcached, hmap]
          | ok mapping =>
              right
              obtain ⟨answer, hanswer, hmade⟩ := mapWithCorrections_ok hmap
              refine ⟨headers, preview, answer, mapping, rfl, hcached, hanswer, hmade, ?_⟩
              simp [Upload.writes, hin, hcached, hmap]

/-- One event: an upload that writes records its own origin, and every
other event leaves an entry as it is or removes it. -/
theorem provenance_step {q : Origin → List ColumnMapping → Prop} {t : Tracked} {e : Event}
    (h : Provenance svc q t) (hq : AnswersOf rt svc q t e) :
    Provenance svc q (track rt svc t e) := by
  cases e with
  | correction k =>
      intro cacheKey mapping hget
      dsimp only [track] at hget
      rw [serve_correction_mappings] at hget
      exact h cacheKey mapping hget
  | expire key =>
      intro cacheKey mapping hget
      dsimp only [track, serve] at hget
      rw [RedisCache.getMapping_expire] at hget
      split at hget
      · cases hget
      · exact h cacheKey mapping hget
  | upload u =>
      rcases track_upload_cases t u with
        hsame | ⟨headers, preview, answer, written, hin, hcached, hanswer, hmade, hwrites⟩
      · rw [hsame]
        exact h
      · rw [hwrites]
        intro cacheKey mapping hget
        rw [RedisCache.getMapping_setMapping] at hget
        -- the key written has this upload as its origin, every other keeps its own
        by_cases hkey : buildCacheKey rt svc headers = cacheKey
        · rw [if_pos hkey] at hget
          cases hget
          exact ⟨_, answer, by rw [hkey, Dict.get?_set_self], hmade,
            hq headers preview answer hin hcached hanswer⟩
        · rw [if_neg hkey] at hget
          rw [Dict.get?_set_ne _ _ hkey]
          exact h cacheKey mapping hget

/-- **Every cached mapping is known by its origin**, after every history. -/
theorem provenance_run {q : Origin → List ColumnMapping → Prop} {history : List Event}
    (hq : AllSteps (track rt svc) (AnswersOf rt svc q) ⟨.empty, ∅⟩ history) :
    Provenance svc q (trackedRun rt svc history) :=
  run_preserves (fun _ _ h hq => provenance_step h hq) hq fun _ _ hget => by cases hget

end Runs

/-! ## A small book -/

/-- Policies and their premiums. -/
def premiumSchema : TargetSchema where
  name := "premiums"
  fields := .ofList [("Policy_ID", .plain .string), ("Gross_Premium", .plain .float)]

def premiumService : MappingService := { schema := premiumSchema, confidenceThreshold := 1 }

/-- An upload of a CSV file with these columns and no rows. -/
def csvUpload (columns : List String) (h : columns.Nodup) (mapper : Mapper)
    (cedentId : Option String) : Upload where
  files :=
    let table : DataFrame := { columns, rows := [], nodup := h, width := by simp }
    { pathExists := fun _ => true
      readCsv := fun _ _ => .ok table
      readExcel := fun _ _ => .ok table }
  mapper
  filePath := "march.csv"
  cedentId

/-- A mapper that knows one header. -/
def recallOne (known : ColumnMapping) : Mapper := fun headers _ =>
  if known.sourceHeader ∈ headers then .ok ⟨[known], headers.erase known.sourceHeader, by simp⟩
  else .ok ⟨[], headers, List.nodup_nil⟩

def policyGuess : ColumnMapping := ⟨"Policy No", "Policy_ID", 1, ColumnMapping.certain⟩

/-- ACME-RE sends its policies and premiums. -/
def acmeUpload : Upload :=
  csvUpload ["Policy No", "PRMA"] (by decide) (recallOne policyGuess) (some "ACME-RE")

/-- ACME-RE calls the gross premium PRMA. -/
def premiumCorrection : Correction where
  cedentId := "ACME-RE"
  sourceHeader := "PRMA"
  targetField := "Gross_Premium"

theorem recallOne_answer {known m : ColumnMapping} {headers : List String} {rows : List Row}
    {r : MappingResult} (h : recallOne known headers rows = .ok r) (hm : m ∈ r.mappings) :
    m = known ∧ known.sourceHeader ∈ headers := by
  unfold recallOne at h
  split at h
  · rename_i hmem
    cases h
    exact ⟨by simpa using hm, hmem⟩
  · cases h
    cases hm

end RiskFlow
