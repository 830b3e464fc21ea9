import RiskFlow.Domain.RecordFactory
import RiskFlow.Lib.Lru

/-!
# RecordModelCache — the classes that are built once

`_build_cached` stands behind `functools.lru_cache`: services of one
schema share one class object, as long as it is in the cache. The cache
changes nothing about how rows are validated; the last result says for
which two requests it gives the very same class. What raises is not kept.
-/

namespace RiskFlow

open Lib

/-! ## The cache -/

/-- A class object: what it does, and the number it was made as. Two of them
are the same object if and only if their numbers are. -/
structure ModelClass where
  ident : Nat
  model : RecordModel

/-- The arguments of `_build_cached`, which are its cache key. -/
def TargetSchema.modelKey (rt : Runtime) (schema : TargetSchema) : String × Json :=
  (schema.fingerprint rt, schema.modelDumpJson)

/-- The cache of `@functools.lru_cache(maxsize=32)`, and how many classes have been made. -/
abbrev ModelCache : Type := Lru (String × Json) ModelClass 32 × Nat

namespace ModelCache

def start : ModelCache := (Lru.empty, 0)

/-- `_build_cached` itself: the class it returns is a new one. -/
def makeClass (rt : Runtime) (made : Nat) (key : String × Json) :
    Except BuildFailure ModelClass × Nat :=
  match buildCached rt key.2 with
  | .ok model => (.ok ⟨made, model⟩, made + 1)
  | .error e => (.error e, made)

/-- `build_record_model`, through the cache. -/
def buildRecordModel (rt : Runtime) (cache : ModelCache) (schema : TargetSchema) :
    Except BuildFailure ModelClass × ModelCache :=
  Lru.call (makeClass rt) cache (schema.modelKey rt)

/-- `clear_record_model_cache`. -/
def clearRecordModelCache (cache : ModelCache) : ModelCache := (Lru.empty, cache.2)

end ModelCache

/-- A request for the class of a schema, or for an empty cache. -/
inductive ModelCall where
  | build (schema : TargetSchema)
  | clear

namespace ModelCall

def apply (rt : Runtime) (cache : ModelCache) : ModelCall → ModelCache
  | .build schema => (cache.buildRecordModel rt schema).2
  | .clear => cache.clearRecordModelCache

/-- The key under which the call leaves a class. -/
def key? (rt : Runtime) : ModelCall → Option (String × Json)
  | .build schema => if (buildModel rt schema).isOk then some (schema.modelKey rt) else none
  | .clear => none

end ModelCall

/-- The cache after a history of calls. -/
def modelCacheAfter (rt : Runtime) (cache : ModelCache) (history : List ModelCall) : ModelCache :=
  history.foldl (ModelCall.apply rt) cache

/-! ## What a call returns -/

section Calls
variable {rt : Runtime} {cache : ModelCache} {s t : TargetSchema} {model : RecordModel}

theorem TargetSchema.modelKey_inj : s.modelKey rt = t.modelKey rt ↔ s = t := by
  constructor
  · intro h
    have hdump : s.modelDumpJson = t.modelDumpJson := congrArg Prod.snd h
    have hread := TargetSchema.modelValidate_dump s
    rw [hdump, TargetSchema.modelValidate_dump t] at hread
    exact (Except.ok.inj hread).symm
  · intro h
    rw [h]

/-- The schema a class is built from is the one that was dumped. -/
theorem makeClass_modelKey (hs : buildModel rt s = .ok model) (n : Nat) :
    ModelCache.makeClass rt n (s.modelKey rt) = (.ok ⟨n, model⟩, n + 1) := by
  have hbuild : buildCached rt s.modelDumpJson = .ok model := buildRecordModel_ok.mpr hs
  unfold ModelCache.makeClass TargetSchema.modelKey
  rw [hbuild]

theorem makeClass_refused {e : PyErr} (hs : buildModel rt s = .error e) (n : Nat) :
    ModelCache.makeClass rt n (s.modelKey rt) = (.error (.model e), n) := by
  have hbuild : buildCached rt s.modelDumpJson = .error (.model e) := by
    rw [show buildCached rt s.modelDumpJson = _ from buildRecordModel_eq rt s, hs]
    rfl
  unfold ModelCache.makeClass TargetSchema.modelKey
  rw [hbuild]

theorem makes_modelKey (hs : buildModel rt s = .ok model) :
    Lru.Makes (ModelCache.makeClass rt) (s.modelKey rt) := fun n =>
  ⟨_, _, makeClass_modelKey hs n⟩

/-- A class in the cache was made before, for the schema it is kept under, and
is kept under no other. -/
structure ModelCache.Sound (rt : Runtime) (cache : ModelCache) : Prop where
  made : ∀ kc ∈ cache.1.entries, kc.2.ident < cache.2
  built : ∀ kc ∈ cache.1.entries, ∃ schema : TargetSchema,
    kc.1 = schema.modelKey rt ∧ buildModel rt schema = .ok kc.2.model
  once : ∀ kc ∈ cache.1.entries, ∀ kd ∈ cache.1.entries, kc.2.ident = kd.2.ident → kc.1 = kd.1

/-- **A call finds the class, makes a new one, or fails** and leaves the cache. -/
theorem buildRecordModel_cases (rt : Runtime) (cache : ModelCache) (s : TargetSchema) :
    (∃ c, cache.1.get? (s.modelKey rt) = some c ∧
        cache.buildRecordModel rt s = (.ok c, (cache.1.put (s.modelKey rt) c, cache.2))) ∨
      (∃ model, cache.1.get? (s.modelKey rt) = none ∧ buildModel rt s = .ok model ∧
        cache.buildRecordModel rt s = (.ok ⟨cache.2, model⟩,
          (cache.1.put (s.modelKey rt) ⟨cache.2, model⟩, cache.2 + 1))) ∨
      ∃ e, cache.1.get? (s.modelKey rt) = none ∧ buildModel rt s = .error e ∧
        cache.buildRecordModel rt s = (.error (.model e), cache) := by
  unfold ModelCache.buildRecordModel Lru.call
  cases hget : cache.1.get? (s.modelKey rt) with
  | some c => exact .inl ⟨c, rfl, rfl⟩
  | none =>
      right
      cases hs : buildModel rt s with
      | ok model =>
          rw [makeClass_modelKey hs]
          exact .inl ⟨model, rfl, rfl, rfl⟩
      | error e =>
          rw [makeClass_refused hs]
          exact .inr ⟨e, rfl, rfl, rfl⟩

theorem sound_build (h : cache.Sound rt) (s : TargetSchema) :
    (cache.buildRecordModel rt s).2.Sound rt := by
  rcases buildRecordModel_cases rt cache s with
    ⟨c, hget, hcall⟩ | ⟨model, hget, hbuilt, hcall⟩ | ⟨e, _, _, hcall⟩
  · rw [hcall]
    have hmem : (s.modelKey rt, c) ∈ cache.1.entries := Lru.get?_eq_some.mp hget
    have hsub : ∀ kc ∈ (cache.1.put (s.modelKey rt) c).entries, kc ∈ cache.1.entries := by
      intro kc hkc
      rcases Lru.mem_put hkc with rfl | ⟨hold, _⟩
      · exact hmem
      · exact hold
    exact ⟨fun kc hkc => h.made kc (hsub kc hkc), fun kc hkc => h.built kc (hsub kc hkc),
      fun kc hkc kd hkd => h.once kc (hsub kc hkc) kd (hsub kd hkd)⟩
  · rw [hcall]
    refine ⟨fun kc hkc => ?_, fun kc hkc => ?_, fun kc hkc kd hkd heq => ?_⟩
    · rcases Lru.mem_put hkc with rfl | ⟨hold, _⟩
      · exact Nat.lt_succ_self _
      · exact Nat.lt_succ_of_lt (h.made kc hold)
    · rcases Lru.mem_put hkc with rfl | ⟨hold, _⟩
      · exact ⟨s, rfl, hbuilt⟩
      · exact h.built kc hold
    · -- the new class has a number none of the others has
      rcases Lru.mem_put hkc with rfl | ⟨hold, _⟩
      · rcases Lru.mem_put hkd with rfl | ⟨hold', _⟩
        · rfl
        · have hlt := h.made kd hold'
          dsimp only at heq
          omega
      · rcases Lru.mem_put hkd with rfl | ⟨hold', _⟩
        · have hlt := h.made kc hold
          dsimp only at heq
          omega
        · exact h.once kc hold kd hold' heq
  · rw [hcall]
    exact h

theorem sound_apply (h : cache.Sound rt) (call : ModelCall) : (call.apply rt cache).Sound rt := by
  cases call with
  | build schema => exact sound_build h schema
  | clear =>
      refine ⟨fun kc hkc => ?_, fun kc hkc => ?_, fun kc hkc => ?_⟩
      · cases hkc
      · cases hkc
      · cases hkc

theorem sound_after (h : cache.Sound rt) (history : List ModelCall) :
    (modelCacheAfter rt cache history).Sound rt := by
  induction history generalizing cache with
  | nil => exact h
  | cons call rest ih => exact ih (sound_apply h call)

theorem sound_empty (rt : Runtime) (n : Nat) : ModelCache.Sound rt (Lru.empty, n) where
  made _ h := by cases h
  built _ h := by cases h
  once _ h := by cases h

/-- The class with the number `i` has been made, and is kept under `key` if at all. -/
def ModelCache.Keeps (cache : ModelCache) (i : Nat) (key : String × Json) : Prop :=
  i < cache.2 ∧ ∀ kc ∈ cache.1.entries, kc.2.ident = i → kc.1 = key

theorem keeps_apply {i : Nat} {key : String × Json} (h : cache.Keeps i key) (call : ModelCall) :
    (call.apply rt cache).Keeps i key := by
  cases call with
  | clear => exact ⟨h.1, fun kc hkc => by cases hkc⟩
  | build schema =>
      show (cache.buildRecordModel rt schema).2.Keeps i key
      rcases buildRecordModel_cases rt cache schema with
        ⟨c, hget, hcall⟩ | ⟨model, _, _, hcall⟩ | ⟨e, _, _, hcall⟩
      · rw [hcall]
        refine ⟨h.1, fun kc hkc hi => ?_⟩
        rcases Lru.mem_put hkc with rfl | ⟨hold, _⟩
        · exact h.2 _ (Lru.get?_eq_some.mp hget) hi
        · exact h.2 kc hold hi
      · rw [hcall]
        have hlt := h.1
        refine ⟨Nat.lt_succ_of_lt hlt, fun kc hkc hi => ?_⟩
        rcases Lru.mem_put hkc with rfl | ⟨hold, _⟩
        · dsimp only at hi
          omega
        · exact h.2 kc hold hi
      · rw [hcall]
        exact h

theorem keeps_after {i : Nat} {key : String × Json} (h : cache.Keeps i key)
    (history : List ModelCall) : (modelCacheAfter rt cache history).Keeps i key := by
  induction history generalizing cache with
  | nil => exact h
  | cons call rest ih => exact ih (keeps_apply h call)

theorem key?_built (hs : buildModel rt s = .ok model) :
    ModelCall.key? rt (.build s) = some (s.modelKey rt) := by
  rw [ModelCall.key?, hs]
  rfl

theorem key?_refused {e : PyErr} (hs : buildModel rt s = .error e) :
    ModelCall.key? rt (.build s) = none := by
  rw [ModelCall.key?, hs]
  rfl

theorem key?_eq_some {call : ModelCall} {key : String × Json} (h : call.key? rt = some key) :
    ∃ schema model, call = .build schema ∧ buildModel rt schema = .ok model ∧
      key = schema.modelKey rt := by
  cases call with
  | clear => cases h
  | build schema =>
      cases hs : buildModel rt schema with
      | ok model =>
          rw [key?_built hs] at h
          exact ⟨schema, model, rfl, hs, (Option.some.inj h).symm⟩
      | error e =>
          rw [key?_refused hs] at h
          cases h

theorem makes_keys (history : List ModelCall) :
    ∀ key ∈ history.filterMap (ModelCall.key? rt), Lru.Makes (ModelCache.makeClass rt) key := by
  intro key hkey
  obtain ⟨call, _, hcall⟩ := List.mem_filterMap.mp hkey
  obtain ⟨schema, model, _, hs, rfl⟩ := key?_eq_some hcall
  exact makes_modelKey hs

theorem after_append (cache : ModelCache) (history more : List ModelCall) :
    modelCacheAfter rt cache (history ++ more) =
      modelCacheAfter rt (modelCacheAfter rt cache history) more := List.foldl_append

/-- Between two clears the calls are calls for their keys. -/
theorem after_builds {history : List ModelCall} (h : .clear ∉ history) (hsound : cache.Sound rt) :
    modelCacheAfter rt cache history =
      Lru.calls (ModelCache.makeClass rt) cache (history.filterMap (ModelCall.key? rt)) := by
  induction history generalizing cache with
  | nil => rfl
  | cons call rest ih =>
      rw [List.mem_cons, not_or] at h
      cases call with
      | clear => exact absurd rfl h.1
      | build schema =>
          have hrest := ih h.2 (sound_build hsound schema)
          rw [List.filterMap_cons]
          cases hs : buildModel rt schema with
          | ok model =>
              rw [key?_built hs]
              exact hrest
          | error e =>
              have hsame : (cache.buildRecordModel rt schema).2 = cache := by
                rcases buildRecordModel_cases rt cache schema with
                  ⟨c, hget, _⟩ | ⟨model, _, hbuilt, _⟩ | ⟨_, _, _, hcall⟩
                · -- only what was built is kept
                  obtain ⟨schema', hkey', hbuilt⟩ := hsound.built _ (Lru.get?_eq_some.mp hget)
                  rw [← TargetSchema.modelKey_inj.mp hkey', hs] at hbuilt
                  cases hbuilt
                · rw [hs] at hbuilt
                  cases hbuilt
                · rw [hcall]
              rw [key?_refused hs]
              rw [hsame] at hrest
              exact (congrArg (modelCacheAfter rt · rest) hsame).trans hrest

/-- What a history leaves is what the calls since its last clear leave. -/
theorem after_clear (rt : Runtime) (history : List ModelCall) :
    ∃ (n : Nat) (since : List ModelCall), .clear ∉ since ∧
      (∀ call ∈ since, call ∈ history) ∧
      modelCacheAfter rt .start history = modelCacheAfter rt (Lru.empty, n) since := by
  induction history using List.reverseRecOn with
  | nil => exact ⟨0, [], List.not_mem_nil, fun _ h => h, rfl⟩
  | append_singleton history call ih =>
      obtain ⟨n, since, hclear, hsub, hafter⟩ := ih
      have hstep : modelCacheAfter rt .start (history ++ [call]) =
          call.apply rt (modelCacheAfter rt .start history) := after_append _ _ _
      cases call with
      | build schema =>
          refine ⟨n, since ++ [.build schema], by simp [hclear], fun c hc => ?_, ?_⟩
          · rcases List.mem_append.mp hc with hc | hc
            · exact List.mem_append_left _ (hsub c hc)
            · exact List.mem_append_right _ hc
          · rw [hstep, hafter]
            exact (after_append _ since [.build schema]).symm
      | clear =>
          exact ⟨(modelCacheAfter rt .start history).2, [], List.not_mem_nil,
            (fun c hc => by cases hc), hstep⟩

/-- A class that has not been asked for since the cache was empty is not in it. -/
theorem get?_unasked {history : List ModelCall} (h : .build s ∉ history) {n : Nat} :
    (modelCacheAfter rt (Lru.empty, n) history).1.get? (s.modelKey rt) = none := by
  induction history using List.reverseRecOn with
  | nil => rfl
  | append_singleton history call ih =>
      rw [List.mem_append, not_or, List.mem_singleton] at h
      have hlast := ih h.1
      rw [after_append]
      cases call with
      | clear => rfl
      | build schema =>
          have hne : s.modelKey rt ≠ schema.modelKey rt := fun hkey =>
            h.2 (congrArg ModelCall.build (TargetSchema.modelKey_inj.mp hkey))
          show ((modelCacheAfter rt (Lru.empty, n) history).buildRecordModel rt
            schema).2.1.get? (s.modelKey rt) = none
          rcases buildRecordModel_cases rt (modelCacheAfter rt (Lru.empty, n) history) schema with
            ⟨c, _, hcall⟩ | ⟨model, _, _, hcall⟩ | ⟨e, _, _, hcall⟩
          · rw [hcall]
            rcases Lru.get?_put_ne _ c hne with hsame | hnone
            · exact hsame.trans hlast
            · exact hnone
          · rw [hcall]
            rcases Lru.get?_put_ne _ _ hne with hsame | hnone
            · exact hsame.trans hlast
            · exact hnone
          · rw [hcall]
            exact hlast

/-- The request gets a class built from its schema, kept under its key. -/
theorem build_class (h : cache.Sound rt) (hs : buildModel rt s = .ok model) :
    ∃ c, (cache.buildRecordModel rt s).1 = .ok c ∧ c.model = model ∧
      (cache.buildRecordModel rt s).2.Keeps c.ident (s.modelKey rt) := by
  rcases buildRecordModel_cases rt cache s with
    ⟨c, hget, hcall⟩ | ⟨model', _, hbuilt, hcall⟩ | ⟨e, _, hbuilt, _⟩
  · rw [hcall]
    have hmem := Lru.get?_eq_some.mp hget
    obtain ⟨schema, hkey, hmodel⟩ := h.built _ hmem
    rw [← TargetSchema.modelKey_inj.mp hkey, hs] at hmodel
    refine ⟨c, rfl, (Except.ok.inj hmodel).symm, h.made _ hmem, fun kc hkc hident => ?_⟩
    rcases Lru.mem_put hkc with rfl | ⟨hold, _⟩
    · rfl
    · exact h.once kc hold _ hmem hident
  · rw [hcall]
    cases hs.symm.trans hbuilt
    refine ⟨⟨cache.2, model⟩, rfl, rfl, Nat.lt_succ_self _, fun kc hkc hident => ?_⟩
    rcases Lru.mem_put hkc with rfl | ⟨hold, _⟩
    · rfl
    · have hlt := h.made kc hold
      dsimp only at hident
      omega
  · rw [hs] at hbuilt
    cases hbuilt

/-- A class with an old number is one found in the cache. -/
theorem found_of_keeps {i : Nat} {key : String × Json} {c : ModelClass} (h : cache.Keeps i key)
    (hc : (cache.buildRecordModel rt t).1 = .ok c) (hident : c.ident = i) :
    t.modelKey rt = key ∧ cache.1.get? (t.modelKey rt) = some c := by
  rcases buildRecordModel_cases rt cache t with
    ⟨d, hget, hcall⟩ | ⟨model, _, _, hcall⟩ | ⟨e, _, _, hcall⟩
  · rw [hcall] at hc
    cases hc
    exact ⟨h.2 _ (Lru.get?_eq_some.mp hget) hident, hget⟩
  · rw [hcall] at hc
    cases hc
    have hlt := h.1
    dsimp only at hident
    omega
  · rw [hcall] at hc
    cases hc

theorem build_of_get? {c : ModelClass} (h : cache.1.get? (s.modelKey rt) = some c) :
    (cache.buildRecordModel rt s).1 = .ok c := by
  rcases buildRecordModel_cases rt cache s with ⟨d, hget, hcall⟩ | ⟨_, hget, _⟩ | ⟨_, hget, _⟩
  · rw [hcall]
    exact congrArg Except.ok (Option.some.inj (hget.symm.trans h))
  · rw [h] at hget
    cases hget
  · rw [h] at hget
    cases hget

theorem get?_cleared (rt : Runtime) {between : List ModelCall} (hclear : .clear ∈ between)
    (hlast : .build s ∉ between) (cache : ModelCache) :
    (modelCacheAfter rt cache between).1.get? (s.modelKey rt) = none := by
  obtain ⟨front, rest, rfl⟩ := List.append_of_mem hclear
  rw [after_append]
  refine get?_unasked fun hmem => ?_
  exact hlast (List.mem_append_right _ (List.mem_cons_of_mem _ hmem))

/-- Without a clear since its last request a class is there while fewer than 32
other classes have been asked for. -/
theorem get?_since (before : List ModelCall) {between : List ModelCall}
    (hs : buildModel rt s = .ok model) (hclear : .clear ∉ between) (hlast : .build s ∉ between)
    {c : ModelClass} (hc : ((modelCacheAfter rt .start before).buildRecordModel rt s).1 = .ok c) :
    (modelCacheAfter rt .start (before ++ .build s :: between)).1.get? (s.modelKey rt) =
      if (between.filterMap (ModelCall.key? rt)).dedup.length < 32 then some c else none := by
  obtain ⟨n, since, hsince, _, hafter⟩ := after_clear rt before
  have hother : s.modelKey rt ∉ between.filterMap (ModelCall.key? rt) := by
    intro hmem
    obtain ⟨call, hcall, hkey'⟩ := List.mem_filterMap.mp hmem
    obtain ⟨schema, _, rfl, _, hsame⟩ := key?_eq_some hkey'
    rw [← TargetSchema.modelKey_inj.mp hsame] at hcall
    exact hlast hcall
  have hkeys : (since ++ .build s :: between).filterMap (ModelCall.key? rt) =
      since.filterMap (ModelCall.key? rt) ++
        s.modelKey rt :: between.filterMap (ModelCall.key? rt) := by
    rw [List.filterMap_append, List.filterMap_cons, key?_built hs]
  have hnone : .clear ∉ since ++ .build s :: between := by
    intro hmem
    rcases List.mem_append.mp hmem with hmem | hmem
    · exact hsince hmem
    · rcases List.mem_cons.mp hmem with hmem | hmem
      · cases hmem
      · exact hclear hmem
  obtain ⟨v, hv, hget⟩ := Lru.get?_calls_since n
    (fun key hkey => makes_keys (since ++ .build s :: between) key (hkeys ▸ hkey)) hother
  have hsplit : modelCacheAfter rt .start (before ++ .build s :: between) =
      Lru.calls (ModelCache.makeClass rt) (Lru.empty, n)
        (since.filterMap (ModelCall.key? rt) ++
          s.modelKey rt :: between.filterMap (ModelCall.key? rt)) := by
    rw [after_append, hafter, ← after_append, after_builds hnone (sound_empty rt n), hkeys]
  rw [hafter, after_builds hsince (sound_empty rt n)] at hc
  have hsame : v = c := Except.ok.inj (hv.symm.trans hc)
  rw [hsplit, hget, hsame]

end Calls

/-- **When two requests get one class.** Every class a request gets is built
from its own schema. Of a schema's request and a later one, the schema not
asked for between them, the second gets the very class of the first if and
only if it is for that schema, the cache has not been cleared in between, and
the classes of fewer than 32 other schemas have been asked for. -/
theorem record_model_reused_iff (rt : Runtime) (before between : List ModelCall)
    (s t : TargetSchema) (model model' : RecordModel) (hs : buildModel rt s = .ok model)
    (ht : buildModel rt t = .ok model') (hlast : .build s ∉ between) :
    ∃ first second : ModelClass,
      ((modelCacheAfter rt .start before).buildRecordModel rt s).1 = .ok first ∧
        ((modelCacheAfter rt .start (before ++ .build s :: between)).buildRecordModel rt t).1 =
          .ok second ∧
        first.model = model ∧ second.model = model' ∧
        (second.ident = first.ident ↔ t = s ∧ .clear ∉ between ∧
          (between.filterMap (ModelCall.key? rt)).dedup.length < 32) := by
  have hbefore : (modelCacheAfter rt .start before).Sound rt := sound_after (sound_empty rt 0) _
  have hafter : (modelCacheAfter rt .start (before ++ .build s :: between)).Sound rt :=
    sound_after (sound_empty rt 0) _
  obtain ⟨first, hfirst, hmodel, hkeeps⟩ := build_class hbefore hs
  obtain ⟨second, hsecond, hmodel', _⟩ := build_class hafter ht
  have hkept : (modelCacheAfter rt .start (before ++ .build s :: between)).Keeps first.ident
      (s.modelKey rt) := by
    rw [after_append]
    exact keeps_after hkeeps between
  refine ⟨first, second, hfirst, hsecond, hmodel, hmodel', ?_⟩
  constructor
  · intro hident
    obtain ⟨hkey, hget⟩ := found_of_keeps hkept hsecond hident
    obtain rfl := TargetSchema.modelKey_inj.mp hkey
    have hclear : .clear ∉ between := by
      intro hmem
      rw [after_append] at hget
      have hnone := get?_cleared rt hmem hlast
        ((modelCacheAfter rt .start before).buildRecordModel rt t).2
      cases hnone.symm.trans hget
    refine ⟨rfl, hclear, ?_⟩
    by_contra hmany
    rw [get?_since before hs hclear hlast hfirst, if_neg hmany] at hget
    cases hget
  · rintro ⟨rfl, hclear, hfew⟩
    have hget := get?_since before hs hclear hlast hfirst
    rw [if_pos hfew] at hget
    have hsame := build_of_get? hget
    rw [hsecond] at hsame
    rw [Except.ok.inj hsame]

/-- The default schema under another name: its fingerprint is the same. -/
def renamedSchema : TargetSchema := { defaultTargetSchema with name := "renamed" }

/-- Asked for again and again, the renamed schema keeps a class of its own. -/
theorem renamed_schema_rebuilt :
    ∃ first second : ModelClass,
      ((modelCacheAfter .plain .start [.build renamedSchema]).buildRecordModel .plain
        defaultTargetSchema).1 = .ok first ∧
      ((modelCacheAfter .plain .start ([.build renamedSchema] ++ .build defaultTargetSchema ::
        [.build renamedSchema, .build renamedSchema])).buildRecordModel .plain
          renamedSchema).1 = .ok second ∧
      second.ident ≠ first.ident := by
  have hne : renamedSchema ≠ defaultTargetSchema := fun heq =>
    absurd (congrArg (fun s : TargetSchema => s.name) heq) (by decide)
  obtain ⟨first, second, hfirst, hsecond, _, _, hident⟩ := record_model_reused_iff .plain
    [.build renamedSchema] [.build renamedSchema, .build renamedSchema] defaultTargetSchema
    renamedSchema _ _ rfl rfl (by simp [hne.symm])
  exact ⟨first, second, hfirst, hsecond, fun heq => hne (hident.mp heq).1⟩

end RiskFlow
