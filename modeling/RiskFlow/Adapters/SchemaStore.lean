import RiskFlow.Domain.TargetSchema

/-!
# SchemaStore — the Redis-backed store of runtime schemas

Schemas as JSON documents under the names they carry. Listing goes
through SCAN, whose pages hold every matching key at least once, in no
particular order.
-/

namespace RiskFlow

open Lib

namespace RedisSchemaStore

def keyPrefix : String := "riskflow:schema:"

/-- `get`: an absent or unreadable entry is no schema. -/
def get (store : Dict String Json) (name : String) : Option TargetSchema :=
  (store.get? (keyPrefix ++ name)).bind TargetSchema.codec.decode

/-- `save`. -/
def save (store : Dict String Json) (schema : TargetSchema) : Dict String Json :=
  store.set (keyPrefix ++ schema.name) schema.modelDumpJson

/-- `delete`. -/
def delete (store : Dict String Json) (name : String) : Dict String Json :=
  store.erase (keyPrefix ++ name)

/-- `list_all`, on the pages of keys the client's `scan` returned. -/
def listAll (pages : List (List String)) : List String :=
  Py.sorted (pages.flatten.map fun key => Py.removePrefix key keyPrefix)

/-- The pages of a full SCAN for the prefix. -/
def IsScan (store : Dict String Json) (pages : List (List String)) : Prop :=
  ∀ key, key ∈ pages.flatten ↔ key ∈ store.keys ∧ Py.startsWith key keyPrefix = true

/-- The names the store holds a document for. -/
def Holds (store : Dict String Json) (name : String) : Prop := keyPrefix ++ name ∈ store.keys

instance (store : Dict String Json) (name : String) : Decidable (Holds store name) :=
  inferInstanceAs (Decidable (_ ∈ _))

/-- **A scan lists the names of the store**, each of them and no other. -/
theorem mem_listAll {store : Dict String Json} {pages : List (List String)}
    (h : IsScan store pages) {name : String} : name ∈ listAll pages ↔ Holds store name := by
  rw [listAll, Py.mem_sorted, List.mem_map]
  constructor
  · rintro ⟨key, hkey, rfl⟩
    obtain ⟨hmem, hprefix⟩ := (h key).mp hkey
    show keyPrefix ++ _ ∈ store.keys
    rw [Py.append_removePrefix hprefix]
    exact hmem
  · intro hname
    exact ⟨keyPrefix ++ name, (h _).mpr ⟨hname, Py.startsWith_append ..⟩,
      Py.removePrefix_append ..⟩

theorem holds_of_get {store : Dict String Json} {name : String} {schema : TargetSchema}
    (h : get store name = some schema) : Holds store name := by
  obtain ⟨data, hdata, _⟩ := Option.bind_eq_some_iff.mp h
  exact Dict.mem_keys.mpr ⟨data, hdata⟩

/-! ## What the operations do -/

theorem get_save (store : Dict String Json) (schema : TargetSchema) (name : String) :
    get (save store schema) name = if schema.name = name then some schema else get store name := by
  simp only [get, save, Dict.get?_set, String.append_right_inj]
  split
  · exact TargetSchema.codec.decode_encode schema
  · rfl

theorem get_delete (store : Dict String Json) (deleted name : String) :
    get (delete store deleted) name = if deleted = name then none else get store name := by
  simp only [get, delete, Dict.get?_erase, String.append_right_inj]
  split <;> rfl

theorem holds_save {store : Dict String Json} {schema : TargetSchema} {name : String} :
    Holds (save store schema) name ↔ name = schema.name ∨ Holds store name := by
  rw [Holds, save, Dict.mem_keys_set, String.append_right_inj]
  exact Iff.rfl

theorem holds_delete {store : Dict String Json} {deleted name : String} :
    Holds (delete store deleted) name ↔ name ≠ deleted ∧ Holds store name := by
  rw [Holds, delete, Dict.mem_keys_erase, ne_eq, String.append_right_inj]
  exact Iff.rfl

end RedisSchemaStore

end RiskFlow
