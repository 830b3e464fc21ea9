import RiskFlow.Http.Schemas

/-!
# SchemaCreation — what a refused schema leaves behind

`create_schema` with a service factory that may raise. The document is
saved before the factory is asked, so a schema the factory cannot build
stays in the store although it was refused.
-/

namespace RiskFlow

open Lib

/-- The handlers' environment with the exceptions of `_factory`: the one it
raises on a schema, if it raises. -/
structure FactoryEnv extends SchemaEnv where
  raises : TargetSchema → Option PyErr

/-- `_factory(schema)`. -/
def FactoryEnv.factory (env : FactoryEnv) (schema : TargetSchema) : Except PyErr MappingService :=
  match env.raises schema with
  | some e => .error e
  | none => .ok (env.makeService schema)

/-- `create_schema` from the lock to its answer. -/
def createSchema (env : FactoryEnv) (s : SchemaWorld) (body : List (String × Json)) :
    Except HttpException SchemaAnswer × SchemaWorld :=
  match checkCreate env.toSchemaEnv s body with
  | .error e => (.error e, s)
  | .ok schema =>
      let stored := { s with store := RedisSchemaStore.save s.store schema }
      match env.factory schema with
      -- no clause catches it, and nothing takes the document back
      | .error _ => (.error unhandled, stored)
      | .ok service =>
          let answer := SchemaAnswer.created schema.name (schema.fingerprint env.rt)
          (.ok answer,
            { stored with
              registry := s.registry.set schema.name service
              definitions := s.definitions.set schema.name schema
              served := s.served ++ [answer] })

/-- The next step of a handler when the factory may raise: the exception
leaves `async with`, which releases the lock. -/
def SchemaTask.advanceFactory (env : FactoryEnv) (s : SchemaWorld) (t : SchemaTask) :
    SchemaWorld × SchemaTask :=
  match t.phase with
  | .saved schema =>
      match env.factory schema with
      | .error _ => ({ s with locked := false }, { t with phase := .answered (.error unhandled) })
      | .ok _ => t.advance env.toSchemaEnv s
  | _ => t.advance env.toSchemaEnv s

section Creation
variable {env : FactoryEnv} {s : SchemaWorld} {body : List (String × Json)}

theorem factory_error {schema : TargetSchema} {e : PyErr} :
    env.factory schema = .error e ↔ env.raises schema = some e := by
  unfold FactoryEnv.factory
  cases env.raises schema <;> simp

theorem factory_ok {schema : TargetSchema} {service : MappingService}
    (h : env.factory schema = .ok service) : service = env.makeService schema := by
  unfold FactoryEnv.factory at h
  split at h <;> cases h
  rfl

/-- A factory that never raises makes the steps those of `SchemaTask.advance`. -/
theorem advanceFactory_eq (hfactory : ∀ schema, env.raises schema = none) (s : SchemaWorld)
    (t : SchemaTask) : t.advanceFactory env s = t.advance env.toSchemaEnv s := by
  obtain ⟨request, phase⟩ := t
  cases phase with
  | saved schema => simp [SchemaTask.advanceFactory, FactoryEnv.factory, hfactory]
  | _ => rfl

/-- **A handler that meets a free lock and no other handler** leaves what
`createSchema` says, and answers it. -/
theorem createSchema_alone (hfree : s.locked = false) :
    Pool.run (SchemaTask.advanceFactory env) ⟨s, [.begin (.create body)]⟩ [0, 0, 0] =
      ⟨(createSchema env s body).2,
        [⟨.create body, .answered (createSchema env s body).1⟩]⟩ := by
  obtain ⟨registry, definitions, builtins, store, locked, served⟩ := s
  cases hfree
  cases hcheck : checkCreate env.toSchemaEnv ⟨registry, definitions, builtins, store, false, served⟩
      body with
  | error e =>
      simp [SchemaTask.begin, SchemaTask.advanceFactory, SchemaTask.advance, createSchema, hcheck]
  | ok schema =>
      cases hfactory : env.factory schema with
      | error e =>
          simp [SchemaTask.begin, SchemaTask.advanceFactory, SchemaTask.advance, createSchema,
            hcheck, hfactory]
      | ok service =>
          cases factory_ok hfactory
          simp [SchemaTask.begin, SchemaTask.advanceFactory, SchemaTask.advance, createSchema,
            hcheck, hfactory, SchemaWorld.register, SchemaWorld.answer]

/-- Registry, definitions and store are the same. -/
def SchemaWorld.SameSchemas (s s' : SchemaWorld) : Prop :=
  s'.registry = s.registry ∧ s'.definitions = s.definitions ∧ s'.store = s.store

theorem save_eq_self {store : Dict String Json} {schema : TargetSchema} :
    RedisSchemaStore.save store schema = store ↔
      store.get? (RedisSchemaStore.keyPrefix ++ schema.name) = some schema.modelDumpJson :=
  Dict.set_eq_self

end Creation

/-- **When a refused schema leaves no trace.** A request that is not
answered with 201 leaves registry, definitions and store as they were,
exactly if the factory builds every schema that passes the checks of the
request or the store holds this very document already. -/
theorem refused_schema_leaves_no_trace (env : FactoryEnv) (s : SchemaWorld)
    (body : List (String × Json)) :
    (∀ e, (createSchema env s body).1 = .error e →
        s.SameSchemas (createSchema env s body).2) ↔
      ∀ schema, checkCreate env.toSchemaEnv s body = .ok schema →
        env.raises schema = none ∨
          s.store.get? (RedisSchemaStore.keyPrefix ++ schema.name) = some schema.modelDumpJson := by
  unfold createSchema
  cases hcheck : checkCreate env.toSchemaEnv s body with
  | error e =>
      constructor
      · rintro _ schema ⟨⟩
      · exact fun _ _ _ => ⟨rfl, rfl, rfl⟩
  | ok schema =>
      dsimp only
      cases hfactory : env.factory schema with
      | ok service =>
          constructor
          · rintro _ schema' ⟨⟩
            left
            cases hraises : env.raises schema with
            | none => rfl
            | some e =>
                rw [factory_error.mpr hraises] at hfactory
                cases hfactory
          · rintro _ e ⟨⟩
      | error e =>
          have hraises := factory_error.mp hfactory
          constructor
          · rintro hsame schema' ⟨⟩
            right
            obtain ⟨_, _, hstore⟩ := hsame unhandled rfl
            exact save_eq_self.mp hstore
          · intro hcond e' _
            refine ⟨rfl, rfl, ?_⟩
            rcases hcond schema rfl with hnone | hheld
            · rw [hraises] at hnone
              cases hnone
            · exact save_eq_self.mpr hheld

/-- A factory that raises what `_build_model` raises on the schema. -/
def buildingEnv : FactoryEnv where
  rt := .plain
  makeService schema := { schema }
  strErr _ _ := "validation error"
  raises schema :=
    match buildModel .plain schema with
    | .error e => some e
    | .ok _ => none

/-- A schema with a constraint on the private name `_x`. -/
def privateBody : List (String × Json) :=
  [("name", .str "hidden"),
    ("fields", .obj [("_x", .obj [("type", .str "string"), ("not_empty", .bool true)])])]

/-- A process without schemas. -/
def bareWorld : SchemaWorld where
  registry := ∅
  definitions := ∅
  builtins := []
  store := ∅

/-- The request fails in the factory, and the store holds its schema. -/
theorem refused_schema_stays_stored :
    ¬ ∀ e, (createSchema buildingEnv bareWorld privateBody).1 = .error e →
      bareWorld.SameSchemas (createSchema buildingEnv bareWorld privateBody).2 := by
  intro hsame
  have herror : (createSchema buildingEnv bareWorld privateBody).1 = .error unhandled := rfl
  obtain ⟨_, _, hstore⟩ := hsame unhandled herror
  have hkeys : (createSchema buildingEnv bareWorld privateBody).2.store.keys =
      ["riskflow:schema:hidden"] := rfl
  rw [hstore] at hkeys
  cases hkeys

end RiskFlow
