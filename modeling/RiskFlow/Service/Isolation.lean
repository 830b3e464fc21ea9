import RiskFlow.Service.CachedMapping

/-!
# Isolation — two runs that differ in one cedent's corrections

A pair of runs is a list of moves: an event of both runs, or a correction
that only one of them stores. The pair tracks the cache keys whose entries
may depend on the corrections of the cedent the runs differ in. Off these
keys the two caches agree, which is what isolates the other cedents.
-/

namespace RiskFlow

open Lib MappingService

/-! ## Pairs of runs -/

inductive Move where
  | both (e : Event)
  | left (k : Correction)
  | right (k : Correction)

namespace Move

def leftEvent : Move → Option Event
  | .both e => some e
  | .left k => some (.correction k)
  | .right _ => none

def rightEvent : Move → Option Event
  | .both e => some e
  | .left _ => none
  | .right k => some (.correction k)

/-- A correction only one run stores is one of cedent `a`. -/
def DiffersOnlyFor (a : String) : Move → Prop
  | .both _ => True
  | .left k => k.cedentId = a
  | .right k => k.cedentId = a

end Move

/-- The caches of the two runs, and the keys an upload of the distinguished
cedent may have filled differently. -/
structure Pair where
  left : Stores
  right : Stores
  mixed : List String

section Runs
variable (rt : Runtime) (svc : MappingService) (a : String)

/-- An upload of `a` mixes its key if it misses the cache in one of the runs
while other corrections of `a` apply to its headers than in the other. -/
def mixedAfter (p : Pair) : Event → List String
  | .correction _ => p.mixed
  | .expire cacheKey => p.mixed.filter fun key => key ≠ cacheKey
  | .upload u =>
      match u.ingested rt with
      | .error _ => p.mixed
      | .ok (headers, _) =>
          if u.cedentId = some a ∧
              (svc.cached rt p.left headers = none ∨ svc.cached rt p.right headers = none) ∧
              correctionsFor p.left headers u.cedentId ≠ correctionsFor p.right headers u.cedentId
          then buildCacheKey rt svc headers :: p.mixed
          else p.mixed

def Pair.advance (p : Pair) : Move → Pair
  | .both e => ⟨serve rt svc p.left e, serve rt svc p.right e, mixedAfter rt svc a p e⟩
  | .left k => { p with left := serve rt svc p.left (.correction k) }
  | .right k => { p with right := serve rt svc p.right (.correction k) }

def pairRun (moves : List Move) : Pair :=
  moves.foldl (Pair.advance rt svc a) ⟨.empty, .empty, []⟩

theorem pairRun_append (moves : List Move) (m : Move) :
    pairRun rt svc a (moves ++ [m]) = (pairRun rt svc a moves).advance rt svc a m := by
  simp [pairRun]

/-- The sides of the pair are the runs of the two histories. -/
theorem pairRun_left (moves : List Move) :
    (pairRun rt svc a moves).left = run rt svc (moves.filterMap Move.leftEvent) := by
  induction moves using List.reverseRecOn with
  | nil => rfl
  | append_singleton moves m ih =>
      rw [pairRun_append, List.filterMap_append]
      cases m with
      | both e => simp [Pair.advance, Move.leftEvent, run_append, ih]
      | left k => simp [Pair.advance, Move.leftEvent, run_append, ih]
      | right k =>
          have hnone : [Move.right k].filterMap Move.leftEvent = [] := rfl
          rw [hnone, List.append_nil]
          exact ih

theorem pairRun_right (moves : List Move) :
    (pairRun rt svc a moves).right = run rt svc (moves.filterMap Move.rightEvent) := by
  induction moves using List.reverseRecOn with
  | nil => rfl
  | append_singleton moves m ih =>
      rw [pairRun_append, List.filterMap_append]
      cases m with
      | both e => simp [Pair.advance, Move.rightEvent, run_append, ih]
      | right k => simp [Pair.advance, Move.rightEvent, run_append, ih]
      | left k =>
          have hnone : [Move.left k].filterMap Move.rightEvent = [] := rfl
          rw [hnone, List.append_nil]
          exact ih

end Runs

/-! ## One upload -/

section Upload
variable {rt : Runtime} {svc : MappingService} {mapper : Mapper} {headers : List String}
  {preview : List Row} {cedentId : Option String} {s s' : Stores}

/-- The corrections are all a new mapping takes from the stores. -/
theorem mapWithCorrections_congr
    (h : correctionsFor s headers cedentId = correctionsFor s' headers cedentId) :
    mapWithCorrections rt svc mapper s headers preview cedentId =
      mapWithCorrections rt svc mapper s' headers preview cedentId := by
  simp only [mapWithCorrections, h]

theorem obtainMapping_congr (hcached : svc.cached rt s headers = svc.cached rt s' headers)
    (h : correctionsFor s headers cedentId = correctionsFor s' headers cedentId) :
    (obtainMapping rt svc mapper s headers preview cedentId).1 =
      (obtainMapping rt svc mapper s' headers preview cedentId).1 := by
  cases hc : svc.cached rt s headers with
  | some m => rw [obtainMapping_hit hc, obtainMapping_hit (hcached.symm.trans hc)]
  | none =>
      rw [obtainMapping_miss hc, obtainMapping_miss (hcached.symm.trans hc)]
      exact mapWithCorrections_congr h

/-- What is obtained is what the key holds afterwards. -/
theorem obtainMapping_cached (stores : Stores) :
    svc.cached rt (obtainMapping rt svc mapper stores headers preview cedentId).2 headers =
      (obtainMapping rt svc mapper stores headers preview cedentId).1.toOption := by
  cases hc : svc.cached rt stores headers with
  | some m =>
      rw [obtainMapping_hit hc]
      exact hc
  | none =>
      rw [obtainMapping_miss hc]
      cases mapWithCorrections rt svc mapper stores headers preview cedentId with
      | error e => exact hc
      | ok m =>
          show RedisCache.getMapping _ _ = some m
          rw [RedisCache.getMapping_setMapping, if_pos rfl]

/-- Every other key is left alone. -/
theorem obtainMapping_frame (stores : Stores) {key : String}
    (h : buildCacheKey rt svc headers ≠ key) :
    RedisCache.getMapping (obtainMapping rt svc mapper stores headers preview cedentId).2 key =
      RedisCache.getMapping stores key := by
  cases hc : svc.cached rt stores headers with
  | some m => rw [obtainMapping_hit hc]
  | none =>
      rw [obtainMapping_miss hc]
      cases mapWithCorrections rt svc mapper stores headers preview cedentId with
      | error e => rfl
      | ok m =>
          show RedisCache.getMapping (RedisCache.setMapping _ _ m) key = _
          rw [RedisCache.getMapping_setMapping, if_neg h]

end Upload

/-! ## The two caches -/

/-- Off the mixed keys the caches hold the same mappings, and the corrections
of every cedent but `a` are the same. -/
structure Agrees (a : String) (p : Pair) : Prop where
  mappings : ∀ key, key ∉ p.mixed →
    RedisCache.getMapping p.left key = RedisCache.getMapping p.right key
  corrections : ∀ c, c ≠ a →
    RedisCorrectionCache.hashOf p.left c = RedisCorrectionCache.hashOf p.right c

section Steps
variable {rt : Runtime} {svc : MappingService} {a : String} {p : Pair}

theorem correctionsFor_congr {s s' : Stores} {headers : List String} {cedentId : Option String}
    (h : ∀ c, cedentId = some c →
      RedisCorrectionCache.hashOf s c = RedisCorrectionCache.hashOf s' c) :
    correctionsFor s headers cedentId = correctionsFor s' headers cedentId := by
  unfold correctionsFor
  cases cedentId with
  | none => rfl
  | some c => simp only [RedisCorrectionCache.getCorrections, h c rfl]

/-- Another cedent's corrections of its headers are the same in both runs. -/
theorem Agrees.correctionsFor (h : Agrees a p) {cedentId : Option String}
    (hother : cedentId ≠ some a) (headers : List String) :
    MappingService.correctionsFor p.left headers cedentId =
      MappingService.correctionsFor p.right headers cedentId :=
  correctionsFor_congr fun c hc => h.corrections c fun hca => hother (hca ▸ hc)

/-- An upload changes its own key, the same way in both runs unless the key
gets mixed. -/
theorem agrees_upload (h : Agrees a p) (u : Upload) :
    Agrees a (p.advance rt svc a (.both (.upload u))) := by
  constructor
  · intro key hkey
    dsimp only [Pair.advance, serve, mixedAfter] at hkey ⊢
    rw [process_stores, process_stores]
    cases hin : u.ingested rt with
    | error e =>
        rw [hin] at hkey
        exact h.mappings key hkey
    | ok r =>
        obtain ⟨headers, preview⟩ := r
        rw [hin] at hkey
        dsimp only at hkey ⊢
        have hunmixed : key ∉ p.mixed := by
          split at hkey
          · exact fun hmem => hkey (by simp [hmem])
          · exact hkey
        by_cases hown : buildCacheKey rt svc headers = key
        · subst hown
          have hcached : svc.cached rt p.left headers = svc.cached rt p.right headers :=
            h.mappings _ hunmixed
          -- on a hit nothing is written; on a miss the corrections were the same
          have hsame : (obtainMapping rt svc u.mapper p.left headers preview u.cedentId).1 =
              (obtainMapping rt svc u.mapper p.right headers preview u.cedentId).1 := by
            cases hc : svc.cached rt p.left headers with
            | some m => rw [obtainMapping_hit hc, obtainMapping_hit (hcached.symm.trans hc)]
            | none =>
                refine obtainMapping_congr hcached ?_
                by_cases hother : u.cedentId = some a
                · by_contra hdiffer
                  rw [if_pos ⟨hother, .inl hc, hdiffer⟩] at hkey
                  exact hkey (by simp)
                · exact h.correctionsFor hother headers
          show svc.cached rt _ headers = svc.cached rt _ headers
          rw [obtainMapping_cached, obtainMapping_cached, hsame]
        · rw [obtainMapping_frame _ hown, obtainMapping_frame _ hown]
          exact h.mappings key hunmixed
  · intro c hc
    dsimp only [Pair.advance]
    rw [hashOf_congr (serve_upload_corrections u p.left),
      hashOf_congr (serve_upload_corrections u p.right)]
    exact h.corrections c hc

/-- A correction of `a` shows neither in the mappings nor with the others. -/
theorem correction_unseen (rt : Runtime) (svc : MappingService) (stores : Stores) {k : Correction}
    (hk : k.cedentId = a) :
    (∀ key, RedisCache.getMapping (serve rt svc stores (.correction k)) key =
        RedisCache.getMapping stores key) ∧
      ∀ c, c ≠ a → RedisCorrectionCache.hashOf (serve rt svc stores (.correction k)) c =
        RedisCorrectionCache.hashOf stores c := by
  constructor
  · intro key
    rw [serve_correction_mappings]
  · intro c hc
    have hne : k.cedentId ≠ c := fun hkc => hc (hkc ▸ hk)
    exact serve_correction_other stores hne

theorem agrees_advance (h : Agrees a p) {m : Move} (hm : m.DiffersOnlyFor a) :
    Agrees a (p.advance rt svc a m) := by
  cases m with
  | left k =>
      obtain ⟨hmappings, hothers⟩ := correction_unseen rt svc p.left hm
      exact ⟨fun key hkey => (hmappings key).trans (h.mappings key hkey),
        fun c hc => (hothers c hc).trans (h.corrections c hc)⟩
  | right k =>
      obtain ⟨hmappings, hothers⟩ := correction_unseen rt svc p.right hm
      exact ⟨fun key hkey => (h.mappings key hkey).trans (hmappings key).symm,
        fun c hc => (h.corrections c hc).trans (hothers c hc).symm⟩
  | both e =>
      cases e with
      | upload u => exact agrees_upload h u
      | correction k =>
          constructor
          · intro key hkey
            dsimp only [Pair.advance]
            rw [serve_correction_mappings, serve_correction_mappings]
            exact h.mappings key hkey
          · intro c hc
            dsimp only [Pair.advance]
            rw [serve_correction_hash, serve_correction_hash, h.corrections c hc]
      | expire cacheKey =>
          constructor
          · intro key hkey
            dsimp only [Pair.advance, serve]
            rw [RedisCache.getMapping_expire, RedisCache.getMapping_expire]
            split
            · rfl
            · rename_i hne
              apply h.mappings key
              intro hmem
              exact hkey (List.mem_filter.mpr ⟨hmem, by simpa using Ne.symm hne⟩)
          · exact h.corrections

theorem agrees_run {moves : List Move} (h : ∀ m ∈ moves, m.DiffersOnlyFor a) :
    Agrees a (pairRun rt svc a moves) := by
  have hempty : Agrees a ⟨.empty, .empty, []⟩ := ⟨fun _ _ => rfl, fun _ _ => rfl⟩
  exact run_preserves (fun _ _ h hm => agrees_advance h hm)
    (allSteps_of_forall fun _ m hm => h m hm) hempty

end Steps

/-- **When the other cedents are isolated.** In two runs that differ only in
corrections of `a`, an upload of another cedent, or of none, has the same
outcome if its cache key has not been mixed by an upload of `a`. -/
theorem cedents_isolated (rt : Runtime) (svc : MappingService) (a : String) (moves : List Move)
    (u : Upload) (hmoves : ∀ m ∈ moves, m.DiffersOnlyFor a) (hother : u.cedentId ≠ some a)
    (hunmixed : ∀ headers preview, u.ingested rt = .ok (headers, preview) →
      buildCacheKey rt svc headers ∉ (pairRun rt svc a moves).mixed) :
    (u.process rt svc (run rt svc (moves.filterMap Move.leftEvent))).1 =
      (u.process rt svc (run rt svc (moves.filterMap Move.rightEvent))).1 := by
  have hagrees : Agrees a (pairRun rt svc a moves) := agrees_run hmoves
  rw [← pairRun_left rt svc a, ← pairRun_right rt svc a, process_outcome, process_outcome]
  cases hin : u.ingested rt with
  | error e => rfl
  | ok r =>
      obtain ⟨headers, preview⟩ := r
      have hcached : svc.cached rt (pairRun rt svc a moves).left headers =
          svc.cached rt (pairRun rt svc a moves).right headers :=
        hagrees.mappings _ (hunmixed headers preview hin)
      show ((obtainMapping rt svc u.mapper (pairRun rt svc a moves).left headers preview
          u.cedentId).1 >>= _) =
        ((obtainMapping rt svc u.mapper (pairRun rt svc a moves).right headers preview
          u.cedentId).1 >>= _)
      rw [obtainMapping_congr hcached (hagrees.correctionsFor hother headers)]

/-- In one run only, ACME-RE has corrected `PRMA` before it uploads. -/
def acmeMoves : List Move := [.left premiumCorrection, .both (.upload acmeUpload)]

/-- A file of another cedent that has no premium column. -/
def policyUpload : Upload :=
  csvUpload ["Policy No"] (List.nodup_singleton _) (recallOne policyGuess) (some "SWISS-RE")

/-- That file has a key of its own. -/
theorem other_file_isolated :
    (policyUpload.process .plain premiumService
        (run .plain premiumService (acmeMoves.filterMap Move.leftEvent))).1 =
      (policyUpload.process .plain premiumService
        (run .plain premiumService (acmeMoves.filterMap Move.rightEvent))).1 := by
  refine cedents_isolated .plain premiumService "ACME-RE" acmeMoves policyUpload ?_ (by decide) ?_
  · intro m hm
    simp only [acmeMoves, List.mem_cons, List.not_mem_nil, or_false] at hm
    rcases hm with rfl | rfl
    · rfl
    · trivial
  · intro headers preview hin
    have hfile : policyUpload.ingested .plain = .ok (["Policy No"], []) := rfl
    rw [hfile] at hin
    cases hin
    have hmixed : (pairRun .plain premiumService "ACME-RE" acmeMoves).mixed =
        [buildCacheKey .plain premiumService ["Policy No", "PRMA"]] := rfl
    rw [hmixed]
    decide

/-- The same file without a cedent. -/
def anonymousUpload : Upload := { acmeUpload with cedentId := none }

/-- It gets the mapping ACME-RE's correction made, or not, depending on a
correction that is not its own. -/
theorem correction_reaches_anonymous_upload :
    (∀ m ∈ acmeMoves, m.DiffersOnlyFor "ACME-RE") ∧ anonymousUpload.cedentId ≠ some "ACME-RE" ∧
      (anonymousUpload.process .plain premiumService
          (run .plain premiumService (acmeMoves.filterMap Move.leftEvent))).1 ≠
        (anonymousUpload.process .plain premiumService
          (run .plain premiumService (acmeMoves.filterMap Move.rightEvent))).1 := by
  refine ⟨?_, by decide, fun hsame => ?_⟩
  · intro m hm
    simp only [acmeMoves, List.mem_cons, List.not_mem_nil, or_false] at hm
    rcases hm with rfl | rfl
    · rfl
    · trivial
  · have hmappings := congrArg (Except.map fun r => r.mapping.mappings.length) hsame
    have hleft : Except.map (fun r : ProcessingResult => r.mapping.mappings.length)
        (anonymousUpload.process .plain premiumService
          (run .plain premiumService (acmeMoves.filterMap Move.leftEvent))).1 = .ok 2 := rfl
    have hright : Except.map (fun r : ProcessingResult => r.mapping.mappings.length)
        (anonymousUpload.process .plain premiumService
          (run .plain premiumService (acmeMoves.filterMap Move.rightEvent))).1 = .ok 1 := rfl
    rw [hleft, hright] at hmappings
    cases hmappings

end RiskFlow
