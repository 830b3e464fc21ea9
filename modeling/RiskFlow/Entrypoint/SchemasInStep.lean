import RiskFlow.Entrypoint.Main

/-!
# SchemasInStep — registry, definitions and store under one lock

`Aligned` is what the three are to each other while `_schema_lock` is
free. While a handler holds it they differ, but what the rest of that
handler makes of them is aligned again; the monitor rule turns the two
into a fact about every interleaving.
-/

namespace RiskFlow

open Lib

/-! ## The answers given -/

/-- Between two 201 for one name there is a successful delete of it. -/
def CreatedOnce (served : List SchemaAnswer) : Prop :=
  ∀ name fp fp' before between after,
    served = before ++ .created name fp :: (between ++ .created name fp' :: after) →
    .deleted name ∈ between

/-- Every 201 for the name was followed by a successful delete of it. -/
def Closed (served : List SchemaAnswer) (name : String) : Prop :=
  ∀ fp before after, served = before ++ .created name fp :: after → .deleted name ∈ after

theorem closed_concat {served : List SchemaAnswer} {name : String} {a : SchemaAnswer}
    (h : a = .deleted name ∨ (Closed served name ∧ ∀ fp, a ≠ .created name fp)) :
    Closed (served ++ [a]) name := by
  intro fp before after heq
  rcases List.eq_nil_or_concat after with rfl | ⟨after', last, rfl⟩
  · -- the answer added is the 201 itself
    have hlast : [a] = [.created name fp] := (List.append_inj' heq rfl).2
    have ha : a = .created name fp := List.singleton_inj.mp hlast
    rcases h with rfl | ⟨_, hne⟩
    · cases ha
    · exact absurd ha (hne fp)
  · have hsplit : served ++ [a] = (before ++ .created name fp :: after') ++ [last] := by
      simpa using heq
    obtain ⟨hserved, hlast⟩ := List.append_inj' hsplit rfl
    rcases h with rfl | ⟨hclosed, _⟩
    · rw [← List.singleton_inj.mp hlast]
      simp
    · have hmem := hclosed fp before after' hserved
      simp [hmem]

theorem createdOnce_concat {served : List SchemaAnswer} {a : SchemaAnswer}
    (h : CreatedOnce served) (hclosed : ∀ name fp, a = .created name fp → Closed served name) :
    CreatedOnce (served ++ [a]) := by
  intro name fp fp' before between after heq
  rcases List.eq_nil_or_concat after with rfl | ⟨after', last, rfl⟩
  · have hsplit : served ++ [a] =
        (before ++ .created name fp :: between) ++ [.created name fp'] := by
      simpa using heq
    obtain ⟨hserved, hlast⟩ := List.append_inj' hsplit rfl
    exact hclosed name fp' (List.singleton_inj.mp hlast) fp before between hserved
  · have hsplit : served ++ [a] =
        (before ++ .created name fp :: (between ++ .created name fp' :: after')) ++ [last] := by
      simpa using heq
    exact h name fp fp' before between after' (List.append_inj' hsplit rfl).1

/-! ## The invariant -/

/-- The names of the store decode to schemas of that name. -/
def StoreDecodes (builtin : Dict String TargetSchema) (store : Dict String Json) : Prop :=
  ∀ name, RedisSchemaStore.Holds store name → name ∉ builtin.keys →
    ∃ schema, RedisSchemaStore.get store name = some schema ∧ schema.name = name

/-- What `save` writes decodes to a schema of its name. -/
theorem storeDecodes_save {builtin : Dict String TargetSchema} {store : Dict String Json}
    (h : StoreDecodes builtin store) (schema : TargetSchema) :
    StoreDecodes builtin (RedisSchemaStore.save store schema) := by
  intro name hholds hruntime
  rw [RedisSchemaStore.get_save]
  by_cases hname : schema.name = name
  · exact ⟨schema, if_pos hname, hname⟩
  · rw [if_neg hname]
    rcases RedisSchemaStore.holds_save.mp hholds with rfl | hold
    · exact absurd rfl hname
    · exact h name hold hruntime

theorem storeDecodes_delete {builtin : Dict String TargetSchema} {store : Dict String Json}
    (h : StoreDecodes builtin store) (deleted : String) :
    StoreDecodes builtin (RedisSchemaStore.delete store deleted) := by
  intro name hholds hruntime
  obtain ⟨hne, hold⟩ := RedisSchemaStore.holds_delete.mp hholds
  rw [RedisSchemaStore.get_delete, if_neg (Ne.symm hne)]
  exact h name hold hruntime

/-- What holds while the lock is free. -/
structure Aligned (env : SchemaEnv) (builtin : Dict String TargetSchema) (s : SchemaWorld) :
    Prop where
  registry : ∀ n, s.registry.get? n = (s.definitions.get? n).map env.makeService
  definitions : ∀ n, s.definitions.get? n = (builtin.get? n).or (RedisSchemaStore.get s.store n)
  decodes : StoreDecodes builtin s.store
  builtins : s.builtins = builtin.keys
  createdOnce : CreatedOnce s.served
  closed : ∀ n, n ∉ s.definitions.keys → Closed s.served n

section Sections
variable {env : SchemaEnv} {builtin : Dict String TargetSchema} {s : SchemaWorld}

/-- The whole critical section of a `create_schema`. -/
theorem aligned_create (h : Aligned env builtin s) {schema : TargetSchema}
    (hnew : schema.name ∉ s.definitions.keys) (fp : String) :
    Aligned env builtin ((SchemaWorld.register env { s with
        locked := true, store := RedisSchemaStore.save s.store schema } schema).answer
      (.created schema.name fp)) where
  registry n := by
    simp only [SchemaWorld.answer, SchemaWorld.register, Dict.get?_set]
    split
    · rfl
    · exact h.registry n
  definitions n := by
    simp only [SchemaWorld.answer, SchemaWorld.register, Dict.get?_set, RedisSchemaStore.get_save]
    split
    · rename_i hn
      subst hn
      have hnone := Dict.get?_eq_none.mpr hnew
      rw [h.definitions, Option.or_eq_none_iff] at hnone
      rw [hnone.1, Option.none_or]
    · exact h.definitions n
  decodes := storeDecodes_save h.decodes schema
  builtins := h.builtins
  createdOnce := by
    refine createdOnce_concat h.createdOnce fun name fp' heq => ?_
    cases heq
    exact h.closed _ hnew
  closed n hn := by
    have hkeys : n ∉ (s.definitions.set schema.name schema).keys := hn
    rw [Dict.mem_keys_set, not_or] at hkeys
    refine closed_concat (.inr ⟨h.closed n hkeys.2, ?_⟩)
    rintro fp' heq
    cases heq
    exact hkeys.1 rfl

/-- The whole critical section of a `delete_schema`. -/
theorem aligned_delete (h : Aligned env builtin s) {name : String}
    (hruntime : name ∉ builtin.keys) :
    Aligned env builtin (SchemaWorld.answer { s.unregister name with
        locked := true, store := RedisSchemaStore.delete s.store name } (.deleted name)) where
  registry n := by
    simp only [SchemaWorld.answer, SchemaWorld.unregister, Dict.get?_erase]
    split
    · rfl
    · exact h.registry n
  definitions n := by
    simp only [SchemaWorld.answer, SchemaWorld.unregister, Dict.get?_erase,
      RedisSchemaStore.get_delete]
    split
    · rename_i hn
      subst hn
      rw [Dict.get?_eq_none.mpr hruntime, Option.none_or]
    · exact h.definitions n
  decodes := storeDecodes_delete h.decodes name
  builtins := h.builtins
  createdOnce := createdOnce_concat h.createdOnce fun _ _ heq => by cases heq
  closed n hn := by
    -- the deleted name is closed by this answer, the others were before
    have hkeys : n ∉ (s.definitions.erase name).keys := hn
    rw [Dict.mem_keys_erase, not_and] at hkeys
    by_cases heq : n = name
    · subst heq
      exact closed_concat (.inl rfl)
    · exact closed_concat (.inr ⟨h.closed n (hkeys heq), by rintro _ ⟨⟩⟩)

end Sections

/-! ## The lock -/

/-- The handler holds the lock. -/
def SchemaTask.holdsLock (t : SchemaTask) : Bool :=
  match t.phase with
  | .saving _ | .saved _ | .deleting _ | .deleted _ => true
  | _ => false

/-- What the shared state is after the last steps of a handler that holds the lock. -/
def SchemaTask.finish (env : SchemaEnv) (s : SchemaWorld) (t : SchemaTask) : SchemaWorld :=
  ((t.advance env s).2.advance env (t.advance env s).1).1

/-- The step of a handler without the lock: it takes the lock, with its
checks passed, or changes nothing. -/
theorem advance_outside (env : SchemaEnv) {s : SchemaWorld} {t : SchemaTask}
    (h : t.holdsLock = false) :
    ((t.advance env s).1 = s ∧ (t.advance env s).2.holdsLock = false) ∨
      (s.locked = false ∧ ∃ schema, schema.name ∉ s.definitions.keys ∧
        t.advance env s = ({ s with locked := true }, { t with phase := .saving schema })) ∨
      (s.locked = false ∧ ∃ name, name ∉ s.builtins ∧
        t.advance env s =
          ({ s.unregister name with locked := true }, { t with phase := .deleting name })) := by
  obtain ⟨request, phase⟩ := t
  cases phase with
  | waiting =>
      rcases advance_waiting env s request with ⟨phase, hphase, heq⟩ |
        ⟨_, schema, _, hfree, hcheck, heq⟩ | ⟨name, _, hfree, hcheck, heq⟩
      · rw [heq]
        rcases hphase with rfl | ⟨e, rfl⟩
        · exact .inl ⟨rfl, rfl⟩
        · exact .inl ⟨rfl, rfl⟩
      · exact .inr (.inl ⟨hfree, schema, (checkCreate_ok hcheck).2.2, heq⟩)
      · exact .inr (.inr ⟨hfree, name, (checkDelete_ok hcheck).2, heq⟩)
  | answered answer => exact .inl ⟨rfl, rfl⟩
  | _ => cases h

/-- The steps of a handler with the lock: it keeps it once, and frees it with its answer. -/
theorem advance_inside (env : SchemaEnv) {s : SchemaWorld} {t : SchemaTask}
    (h : t.holdsLock = true) :
    ((t.advance env s).2.holdsLock = true ∧ (t.advance env s).1.locked = s.locked ∧
        (t.advance env s).2.finish env (t.advance env s).1 = t.finish env s) ∨
      ((t.advance env s).2.holdsLock = false ∧ (t.advance env s).1.locked = false ∧
        (t.advance env s).1 = t.finish env s) := by
  obtain ⟨request, phase⟩ := t
  cases phase with
  | waiting => cases h
  | answered answer => cases h
  | saving schema => exact .inl ⟨rfl, rfl, rfl⟩
  | deleting name => exact .inl ⟨rfl, rfl, rfl⟩
  | saved schema => exact .inr ⟨rfl, rfl, rfl⟩
  | deleted name => exact .inr ⟨rfl, rfl, rfl⟩

/-- A step that stays outside the lock changes nothing. -/
theorem locked_outside (env : SchemaEnv) (s : SchemaWorld) (t : SchemaTask)
    (hout : t.holdsLock = false) (hout' : (t.advance env s).2.holdsLock = false) :
    (t.advance env s).1 = s := by
  rcases advance_outside env hout with ⟨hsame, _⟩ | ⟨_, schema, _, heq⟩ | ⟨_, name, _, heq⟩
  · exact hsame
  · rw [heq] at hout'
    cases hout'
  · rw [heq] at hout'
    cases hout'

/-- `_schema_lock`. Its holder knows that its remaining steps align the state. -/
def schemaLock (env : SchemaEnv) (builtin : Dict String TargetSchema) :
    Pool.Monitor (SchemaTask.advance env) where
  free s := s.locked = false
  inside := SchemaTask.holdsLock
  whenFree := Aligned env builtin
  whenHeld s t := Aligned env builtin (t.finish env s)
  enter s t hout hin := by
    rcases advance_outside env hout with ⟨_, hstill⟩ | ⟨hfree, schema, hnew, heq⟩ |
      ⟨hfree, name, hruntime, heq⟩
    · rw [hstill] at hin
      cases hin
    · refine ⟨hfree, fun halign => ?_⟩
      rw [heq]
      exact ⟨by simp, aligned_create halign hnew _⟩
    · refine ⟨hfree, fun halign => ?_⟩
      rw [heq]
      exact ⟨by simp, aligned_delete halign (halign.builtins ▸ hruntime)⟩
  outside := locked_outside env
  stay s t hin hin' hlocked hheld := by
    rcases advance_inside (s := s) env hin with ⟨_, hsame, hfinish⟩ | ⟨hout, _, _⟩
    · exact ⟨by rwa [hsame], by rwa [hfinish]⟩
    · rw [hout] at hin'
      cases hin'
  leave s t hin hout hheld := by
    rcases advance_inside (s := s) env hin with ⟨hstill, _, _⟩ | ⟨_, hfree, hfinish⟩
    · rw [hout] at hstill
      cases hstill
    · exact ⟨hfree, by rwa [hfinish]⟩

/-- The lock alone: taken exactly while one handler is inside. -/
def plainLock (env : SchemaEnv) : Pool.Monitor (SchemaTask.advance env) where
  free s := s.locked = false
  inside := SchemaTask.holdsLock
  whenFree _ := True
  whenHeld _ _ := True
  enter s t hout hin := by
    rcases advance_outside env hout with ⟨_, hstill⟩ | ⟨hfree, schema, _, heq⟩ |
      ⟨hfree, name, _, heq⟩
    · rw [hstill] at hin
      cases hin
    · rw [heq]
      exact ⟨hfree, fun _ => ⟨by simp, trivial⟩⟩
    · rw [heq]
      exact ⟨hfree, fun _ => ⟨by simp, trivial⟩⟩
  outside := locked_outside env
  stay s t hin hin' hlocked _ := by
    rcases advance_inside (s := s) env hin with ⟨_, hsame, _⟩ | ⟨hout, _, _⟩
    · exact ⟨by rwa [hsame], trivial⟩
    · rw [hout] at hin'
      cases hin'
  leave s t hin hout _ := by
    rcases advance_inside (s := s) env hin with ⟨hstill, _, _⟩ | ⟨_, hfree, _⟩
    · rw [hout] at hstill
      cases hstill
    · exact ⟨hfree, trivial⟩

/-! ## Runs -/

theorem aligned_createApp (env : SchemaEnv) (files : SchemaFiles) {store : Dict String Json}
    {pages : List (List String)} (hscan : RedisSchemaStore.IsScan store pages)
    (hstore : StoreDecodes (loadAllSchemas files) store) :
    Aligned env (loadAllSchemas files) (createApp env files store pages) where
  registry n := (createApp_schemas env files hscan n).2
  definitions n := (createApp_schemas env files hscan n).1
  decodes := hstore
  builtins := rfl
  createdOnce := by
    intro name fp fp' before between after heq
    have hempty : ([] : List SchemaAnswer) = before ++ .created name fp :: _ := heq
    simp at hempty
  closed n _ := by
    intro fp before after heq
    have hempty : ([] : List SchemaAnswer) = before ++ .created n fp :: after := heq
    simp at hempty

/-- Registry, definitions and store have the same names, a definition has
the name it stands under, and those that are not built in are the store's. -/
structure InStep (builtin : Dict String TargetSchema) (s : SchemaWorld) : Prop where
  registryNames : ∀ n, n ∈ s.registry.keys ↔ n ∈ builtin.keys ∨ RedisSchemaStore.Holds s.store n
  definitionNames : ∀ n,
    n ∈ s.definitions.keys ↔ n ∈ builtin.keys ∨ RedisSchemaStore.Holds s.store n
  named : ∀ n schema, s.definitions.get? n = some schema → schema.name = n
  runtime : ∀ n, RedisSchemaStore.Holds s.store n → n ∉ builtin.keys →
    s.definitions.get? n ≠ none ∧ s.definitions.get? n = RedisSchemaStore.get s.store n
  builtins : ∀ n schema, builtin.get? n = some schema → s.definitions.get? n = some schema

section Aligned
variable {env : SchemaEnv} {files : SchemaFiles} {s : SchemaWorld}

theorem Aligned.mem_definitions {builtin : Dict String TargetSchema} (h : Aligned env builtin s)
    (n : String) :
    n ∈ s.definitions.keys ↔ n ∈ builtin.keys ∨ RedisSchemaStore.Holds s.store n := by
  rw [← not_iff_not, ← Dict.get?_eq_none, h.definitions, Option.or_eq_none_iff, not_or,
    Dict.get?_eq_none]
  refine and_congr_right fun hruntime => ⟨fun hnone hholds => ?_, fun hno => ?_⟩
  · obtain ⟨schema, hget, _⟩ := h.decodes n hholds hruntime
    rw [hnone] at hget
    cases hget
  · cases hget : RedisSchemaStore.get s.store n with
    | none => rfl
    | some schema => exact absurd (RedisSchemaStore.holds_of_get hget) hno

theorem Aligned.inStep (h : Aligned env (loadAllSchemas files) s) :
    InStep (loadAllSchemas files) s where
  definitionNames := h.mem_definitions
  registryNames n := by
    rw [← h.mem_definitions, ← not_iff_not, ← Dict.get?_eq_none, ← Dict.get?_eq_none, h.registry,
      Option.map_eq_none_iff]
  named n schema hget := by
    rw [h.definitions] at hget
    cases hbuiltin : (loadAllSchemas files).get? n with
    | some schema' =>
        rw [hbuiltin, Option.some_or] at hget
        cases hget
        exact loadAllSchemas_named files n _ hbuiltin
    | none =>
        rw [hbuiltin, Option.none_or] at hget
        obtain ⟨schema', hget', hname⟩ :=
          h.decodes n (RedisSchemaStore.holds_of_get hget) (Dict.get?_eq_none.mp hbuiltin)
        rw [hget] at hget'
        cases hget'
        exact hname
  runtime n hholds hruntime := by
    obtain ⟨schema, hget, _⟩ := h.decodes n hholds hruntime
    rw [h.definitions, Dict.get?_eq_none.mpr hruntime, Option.none_or, hget]
    exact ⟨by simp, rfl⟩
  builtins n schema hget := by
    rw [h.definitions, hget, Option.some_or]

/-- A process started on the store has the same schemas with the same services. -/
theorem Aligned.rebuilt (h : Aligned env (loadAllSchemas files) s) {pages : List (List String)}
    (hscan : RedisSchemaStore.IsScan s.store pages) (n : String) :
    (createApp env files s.store pages).definitions.get? n = s.definitions.get? n ∧
      (createApp env files s.store pages).registry.get? n = s.registry.get? n := by
  obtain ⟨hdefinitions, hregistry⟩ := createApp_schemas env files hscan n
  rw [hregistry, hdefinitions, h.registry, h.definitions]
  exact ⟨rfl, rfl⟩

end Aligned

/-- **Registry, definitions and store stay in step.** After every schedule
of create and delete handlers that leaves the lock free they have the same
schemas, no name was created twice without a delete in between, and a
process started on the store would have these schemas too. -/
theorem schemas_in_step (env : SchemaEnv) (files : SchemaFiles) (store : Dict String Json)
    (pages : List (List String)) (requests : List SchemaRequest) (schedule : List Nat)
    (hscan : RedisSchemaStore.IsScan store pages)
    (hstore : StoreDecodes (loadAllSchemas files) store)
    (hfree : (serveSchemas env (createApp env files store pages) requests
      schedule).shared.locked = false) :
    InStep (loadAllSchemas files)
        (serveSchemas env (createApp env files store pages) requests schedule).shared ∧
      (CreatedOnce (serveSchemas env (createApp env files store pages) requests
          schedule).shared.served ∧
        AnswersLogged (serveSchemas env (createApp env files store pages) requests schedule)) ∧
      ∀ pages', RedisSchemaStore.IsScan
          (serveSchemas env (createApp env files store pages) requests
            schedule).shared.store pages' →
        ∀ n, (createApp env files (serveSchemas env (createApp env files store pages) requests
              schedule).shared.store pages').definitions.get? n =
            (serveSchemas env (createApp env files store pages) requests
              schedule).shared.definitions.get? n ∧
          (createApp env files (serveSchemas env (createApp env files store pages) requests
              schedule).shared.store pages').registry.get? n =
            (serveSchemas env (createApp env files store pages) requests
              schedule).shared.registry.get? n := by
  have hstart : (schemaLock env (loadAllSchemas files)).Invariant
      ⟨createApp env files store pages, requests.map SchemaTask.begin⟩ :=
    .inl ⟨rfl, aligned_createApp env files hscan hstore, Pool.collect_start _ fun _ _ => rfl⟩
  have haligned : Aligned env (loadAllSchemas files)
      (serveSchemas env (createApp env files store pages) requests schedule).shared := by
    -- with the lock free the monitor's invariant is the first of its two cases
    rcases (schemaLock env (loadAllSchemas files)).invariant_run hstart schedule with
      ⟨_, haligned, _⟩ | ⟨_, hlocked, _⟩
    · exact haligned
    · exact absurd hfree hlocked
  exact ⟨haligned.inStep, ⟨haligned.createdOnce, answersLogged_run env rfl requests schedule⟩,
    fun _ h n => haligned.rebuilt h n⟩

/-! ## A schedule -/

def plainSchemaEnv : SchemaEnv where
  rt := .plain
  makeService schema := { schema }
  strErr _ _ := "validation error"

/-- A runtime schema with one field. -/
def voyageSchema : TargetSchema where
  name := "voyage"
  fields := .ofList [("Vessel_Name", .plain .string)]

def standardFiles : SchemaFiles where
  directory := [defaultTargetSchema]
  defaultFile := defaultTargetSchema

/-- Two requests for one new name and the delete of a stored one. -/
def createTwiceAndDelete : List SchemaRequest :=
  [.create [("name", .str "hull"), ("fields", .obj [])],
    .create [("name", .str "hull"), ("fields", .obj [])], .delete "voyage"]

/-- The first request takes the lock, the others find it taken; then each
gets its turn, and the second create is refused. -/
def replaced : Pool SchemaWorld SchemaTask :=
  serveSchemas plainSchemaEnv
    (createApp plainSchemaEnv standardFiles (RedisSchemaStore.save ∅ voyageSchema)
      [["riskflow:schema:voyage"]])
    createTwiceAndDelete [0, 1, 0, 2, 0, 1, 2, 2, 2]

example : replaced.shared.served =
    [.created "hull" (plainSchemaEnv.rt.blake2b (.obj [("cross_field_rules", .arr []),
      ("fields", .obj []), ("slm_hints", .arr [])])), .deleted "voyage"] := rfl

theorem replaced_in_step :
    InStep (loadAllSchemas standardFiles) replaced.shared ∧
      (CreatedOnce replaced.shared.served ∧ AnswersLogged replaced) ∧
      ∀ pages, RedisSchemaStore.IsScan replaced.shared.store pages → ∀ n,
        (createApp plainSchemaEnv standardFiles replaced.shared.store pages).definitions.get? n =
            replaced.shared.definitions.get? n ∧
          (createApp plainSchemaEnv standardFiles replaced.shared.store pages).registry.get? n =
            replaced.shared.registry.get? n := by
  refine schemas_in_step plainSchemaEnv standardFiles (RedisSchemaStore.save ∅ voyageSchema)
    [["riskflow:schema:voyage"]] createTwiceAndDelete [0, 1, 0, 2, 0, 1, 2, 2, 2] ?_ ?_ rfl
  · intro key
    have hkeys : (RedisSchemaStore.save ∅ voyageSchema).keys = ["riskflow:schema:voyage"] := rfl
    rw [hkeys]
    constructor
    · intro hmem
      rw [List.mem_singleton.mp hmem]
      decide
    · exact fun h => h.1
  · apply storeDecodes_save
    intro name hholds
    cases hholds

end RiskFlow
