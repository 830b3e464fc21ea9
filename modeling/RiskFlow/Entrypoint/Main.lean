import RiskFlow.Http.Schemas

/-!
# Main — the schemas `create_app` starts with

The schemas of the YAML files, then those of the store under the names
that are not taken. What a process starts with depends on the store's
contents only, not on the order in which SCAN lists them.
-/

namespace RiskFlow

open Lib

/-- What `YamlSchemaLoader.load` makes of the files: the one `SCHEMA_PATH`
names, if it is set, those of the schemas directory in the order of their
paths, and the default file. -/
structure SchemaFiles where
  schemaPath : Option TargetSchema := none
  directory : List TargetSchema
  defaultFile : TargetSchema

/-- `schemas[schema.name] = schema`. -/
def addSchema (schemas : Dict String TargetSchema) (schema : TargetSchema) :
    Dict String TargetSchema :=
  schemas.set schema.name schema

/-- `_load_all_schemas`. -/
def loadAllSchemas (files : SchemaFiles) : Dict String TargetSchema :=
  match files.schemaPath with
  | some schema => addSchema ∅ schema
  | none =>
      if files.directory.isEmpty then addSchema ∅ files.defaultFile
      else files.directory.foldl addSchema ∅

/-- `schema_registry` and `schemas` while `create_app` fills them. -/
structure Registration where
  registry : Dict String MappingService
  schemas : Dict String TargetSchema

/-- One built-in schema gets its service. -/
def addService (env : SchemaEnv) (registry : Dict String MappingService)
    (kv : String × TargetSchema) : Dict String MappingService :=
  registry.set kv.1 (env.makeService kv.2)

/-- One name of the store. -/
def loadRuntime (env : SchemaEnv) (store : Dict String Json) (r : Registration) (name : String) :
    Registration :=
  -- a built-in schema is never replaced by a stored one
  if name ∈ r.schemas.keys then r
  else
    match RedisSchemaStore.get store name with
    | none => r
    | some schema =>
        { registry := r.registry.set name (env.makeService schema)
          schemas := r.schemas.set name schema }

/-- `create_app`: the state the router is created with. -/
def createApp (env : SchemaEnv) (files : SchemaFiles) (store : Dict String Json)
    (pages : List (List String)) : SchemaWorld :=
  let schemas := loadAllSchemas files
  let registry := schemas.entries.foldl (addService env) ∅
  let loaded := (RedisSchemaStore.listAll pages).foldl (loadRuntime env store) ⟨registry, schemas⟩
  { registry := loaded.registry
    definitions := loaded.schemas
    builtins := schemas.keys
    store }

/-! ## What a process starts with -/

theorem addSchema_named {schemas : Dict String TargetSchema}
    (h : ∀ n schema, schemas.get? n = some schema → schema.name = n) (added : TargetSchema) :
    ∀ n schema, (addSchema schemas added).get? n = some schema → schema.name = n := by
  intro n schema hget
  rw [addSchema, Dict.get?_set] at hget
  split at hget
  · rename_i hn
    cases hget
    exact hn
  · exact h n schema hget

/-- The built-in schemas stand under their own names. -/
theorem loadAllSchemas_named (files : SchemaFiles) :
    ∀ n schema, (loadAllSchemas files).get? n = some schema → schema.name = n := by
  have hempty : ∀ n schema, (∅ : Dict String TargetSchema).get? n = some schema →
      schema.name = n := by
    intro n schema h
    cases h
  have hfold : ∀ (l : List TargetSchema) (d : Dict String TargetSchema),
      (∀ n schema, d.get? n = some schema → schema.name = n) →
      ∀ n schema, (l.foldl addSchema d).get? n = some schema → schema.name = n := by
    intro l
    induction l with
    | nil => exact fun d hd => hd
    | cons added rest ih => exact fun d hd => ih _ (addSchema_named hd added)
  unfold loadAllSchemas
  split
  · exact addSchema_named hempty _
  · split
    · exact addSchema_named hempty _
    · exact hfold _ _ hempty

section Loading
variable {env : SchemaEnv} {store : Dict String Json} {r : Registration}

/-- Every schema has its service. -/
def Registration.Served (env : SchemaEnv) (r : Registration) : Prop :=
  ∀ n, r.registry.get? n = (r.schemas.get? n).map env.makeService

/-- One name adds the stored schema, unless the name is taken. -/
theorem loadRuntime_schemas (name n : String) :
    (loadRuntime env store r name).schemas.get? n =
      (r.schemas.get? n).or (if name = n then RedisSchemaStore.get store n else none) := by
  unfold loadRuntime
  by_cases hn : name = n
  · subst hn
    split
    · rename_i htaken
      obtain ⟨schema, hget⟩ := Dict.mem_keys.mp htaken
      simp [hget]
    · rename_i hfree
      have hnone := Dict.get?_eq_none.mpr hfree
      split
      · rename_i hget
        simp [hnone, hget]
      · rename_i schema hget
        simp [hnone, hget]
  · rw [if_neg hn, Option.or_none]
    split
    · rfl
    · split
      · rfl
      · exact Dict.get?_set_ne _ _ hn

theorem loadRuntime_served (store : Dict String Json) (h : r.Served env) (name : String) :
    (loadRuntime env store r name).Served env := by
  unfold loadRuntime
  split
  · exact h
  · split
    · exact h
    · intro n
      simp only [Dict.get?_set]
      split
      · rfl
      · exact h n

/-- **The names of the store, one after the other**: the first schema of a
name stays. -/
theorem foldl_loadRuntime (store : Dict String Json) (names : List String) (h : r.Served env) :
    (names.foldl (loadRuntime env store) r).Served env ∧
      ∀ n, (names.foldl (loadRuntime env store) r).schemas.get? n =
        (r.schemas.get? n).or (if n ∈ names then RedisSchemaStore.get store n else none) := by
  induction names generalizing r with
  | nil => simpa using h
  | cons name rest ih =>
      obtain ⟨hserved, hschemas⟩ := ih (loadRuntime_served store h name)
      refine ⟨hserved, fun n => ?_⟩
      -- a name listed twice by the scan finds itself taken the second time
      rw [List.foldl_cons, hschemas, loadRuntime_schemas, Option.or_assoc]
      congr 1
      by_cases hname : name = n
      · subst hname
        cases RedisSchemaStore.get store name <;> simp
      · simp [hname, Ne.symm hname]

end Loading

/-- The schemas built in have their services. -/
theorem builtin_served (env : SchemaEnv) (files : SchemaFiles) :
    Registration.Served env
      ⟨(loadAllSchemas files).entries.foldl (addService env) ∅, loadAllSchemas files⟩ := by
  have hbuiltin : (loadAllSchemas files).entries.foldl (addService env) ∅ =
      Dict.ofList ((loadAllSchemas files).entries.map fun kv => (kv.1, env.makeService kv.2)) := by
    rw [Dict.ofList, List.foldl_map]
    rfl
  intro n
  rw [hbuiltin]
  exact Dict.get?_ofList_map _ _ n

/-- Whatever the store lists, every schema a process starts with has its service. -/
theorem createApp_served (env : SchemaEnv) (files : SchemaFiles) (store : Dict String Json)
    (pages : List (List String)) (n : String) :
    (createApp env files store pages).registry.get? n =
      ((createApp env files store pages).definitions.get? n).map env.makeService :=
  (foldl_loadRuntime store (RedisSchemaStore.listAll pages) (builtin_served env files)).1 n

/-- **What a process starts with**: the built-in schemas, and under every
other name what the store decodes to, each with its service. -/
theorem createApp_schemas (env : SchemaEnv) (files : SchemaFiles) {store : Dict String Json}
    {pages : List (List String)} (h : RedisSchemaStore.IsScan store pages) (n : String) :
    (createApp env files store pages).definitions.get? n =
        ((loadAllSchemas files).get? n).or (RedisSchemaStore.get store n) ∧
      (createApp env files store pages).registry.get? n =
        ((createApp env files store pages).definitions.get? n).map env.makeService := by
  obtain ⟨_, hschemas⟩ :=
    foldl_loadRuntime store (RedisSchemaStore.listAll pages) (builtin_served env files)
  refine ⟨(hschemas n).trans ?_, createApp_served env files store pages n⟩
  congr 1
  split
  · rfl
  · rename_i hn
    rw [RedisSchemaStore.mem_listAll h] at hn
    cases hget : RedisSchemaStore.get store n with
    | none => rfl
    | some schema => exact absurd (RedisSchemaStore.holds_of_get hget) hn

end RiskFlow
