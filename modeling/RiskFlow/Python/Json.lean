import RiskFlow.Python.Value

/-!
# Json — `json.dumps` and `json.loads` on Python values

The encoder knows dict, list, str, int, float, bool and None and raises
`TypeError` on every other value. A value survives the round trip exactly
when it is made of these types, with distinct keys in its dicts, and
everything the parser returns is.
-/

namespace RiskFlow

open Lib

/-! ## The two directions -/

/-- `TypeError` of the encoder. -/
def notSerializable (v : PyVal) : PyErr :=
  .typeError ("Object of type " ++ v.typeName ++ " is not JSON serializable")

mutual

/-- `json.dumps`. -/
def dumps : PyVal → Except PyErr Json
  | .none => .ok .null
  | .bool b => .ok (.bool b)
  | .int i => .ok (.int i)
  | .float x => .ok (.float x)
  | .str s => .ok (.str s)
  | .list xs => (dumpsList xs).map .arr
  | .dict kvs => (dumpsEntries kvs).map .obj
  | v => .error (notSerializable v)
termination_by structural v => v

def dumpsList : List PyVal → Except PyErr (List Json)
  | [] => .ok []
  | v :: rest => do
      let j ← dumps v
      let js ← dumpsList rest
      pure (j :: js)
termination_by structural vs => vs

def dumpsEntries : List (String × PyVal) → Except PyErr (List (String × Json))
  | [] => .ok []
  | (k, v) :: rest => do
      let j ← dumps v
      let js ← dumpsEntries rest
      pure ((k, j) :: js)
termination_by structural kvs => kvs

end

mutual

/-- `json.loads`: a repeated key keeps its last value. -/
def loads : Json → PyVal
  | .null => .none
  | .bool b => .bool b
  | .int i => .int i
  | .float x => .float x
  | .str s => .str s
  | .arr js => .list (loadsList js)
  | .obj kvs => .dict (Dict.ofList (loadsEntries kvs)).entries
termination_by structural j => j

def loadsList : List Json → List PyVal
  | [] => []
  | j :: rest => loads j :: loadsList rest
termination_by structural js => js

def loadsEntries : List (String × Json) → List (String × PyVal)
  | [] => []
  | (k, j) :: rest => (k, loads j) :: loadsEntries rest
termination_by structural kvs => kvs

end

/-! ## pydantic's serialiser -/

mutual

/-- `model_dump_json` of a field of type `object`: dates and times become
their ISO text, NaN and the infinities become null. -/
def dumpObject : PyVal → Json
  | .none => .null
  | .bool b => .bool b
  | .int i => .int i
  | .float (.finite q) => .float (.finite q)
  | .float _ => .null
  | .str s => .str s
  | .date d => .str d.isoformat
  | .datetime t => .str t.isoformat
  | .list xs => .arr (dumpObjects xs)
  | .dict kvs => .obj (dumpMembers kvs)
  | .other _ text => .str text
termination_by structural v => v

def dumpObjects : List PyVal → List Json
  | [] => []
  | v :: rest => dumpObject v :: dumpObjects rest
termination_by structural vs => vs

def dumpMembers : List (String × PyVal) → List (String × Json)
  | [] => []
  | (k, v) :: rest => (k, dumpObject v) :: dumpMembers rest
termination_by structural kvs => kvs

end

/-- A dict of objects, written. -/
def encodeRow (row : Row) : Json := .obj (dumpMembers row.entries)

/-- A dict of objects, read. -/
def decodeRow : Json → Option Row
  | .obj kvs => some (.ofList (loadsEntries kvs))
  | _ => none

/-- A dict of objects after it has been written and read. -/
def storedRow (row : Row) : Row := .ofList (loadsEntries (dumpMembers row.entries))

@[simp] theorem decodeRow_encodeRow (row : Row) :
    decodeRow (encodeRow row) = some (storedRow row) :=
  rfl

/-! ## JSON values -/

namespace PyVal

mutual

/-- A value made of JSON types. The keys of a Python dict are distinct. -/
def isJson : PyVal → Bool
  | .none | .bool _ | .int _ | .float _ | .str _ => true
  | .list xs => allJson xs
  | .dict kvs => decide (kvs.map Prod.fst).Nodup && entriesJson kvs
  | _ => false
termination_by structural v => v

def allJson : List PyVal → Bool
  | [] => true
  | v :: rest => isJson v && allJson rest
termination_by structural vs => vs

def entriesJson : List (String × PyVal) → Bool
  | [] => true
  | (_, v) :: rest => isJson v && entriesJson rest
termination_by structural kvs => kvs

end

theorem allJson_iff {xs : List PyVal} : allJson xs = true ↔ ∀ v ∈ xs, v.isJson = true := by
  induction xs with
  | nil => simp [allJson]
  | cons v rest ih => simp [allJson, ih]

theorem entriesJson_iff {kvs : List (String × PyVal)} :
    entriesJson kvs = true ↔ ∀ kv ∈ kvs, kv.2.isJson = true := by
  induction kvs with
  | nil => simp [entriesJson]
  | cons kv rest ih =>
      obtain ⟨k, v⟩ := kv
      simp [entriesJson, ih]

theorem isJson_list {xs : List PyVal} : (PyVal.list xs).isJson = true ↔ ∀ v ∈ xs, v.isJson = true :=
  allJson_iff

theorem isJson_dict {kvs : List (String × PyVal)} :
    (PyVal.dict kvs).isJson = true ↔
      (kvs.map Prod.fst).Nodup ∧ ∀ kv ∈ kvs, kv.2.isJson = true := by
  simp [isJson, entriesJson_iff]

end PyVal

/-! ## The round trip -/

mutual

/-- **A JSON value is written and reads back as itself.** -/
theorem loads_dumps : ∀ v : PyVal, v.isJson = true → ∃ j, dumps v = .ok j ∧ loads j = v
  | .none, _ => ⟨.null, rfl, rfl⟩
  | .bool b, _ => ⟨.bool b, rfl, rfl⟩
  | .int i, _ => ⟨.int i, rfl, rfl⟩
  | .float x, _ => ⟨.float x, rfl, rfl⟩
  | .str s, _ => ⟨.str s, rfl, rfl⟩
  | .list xs, h => by
      obtain ⟨js, hjs, hback⟩ := loads_dumps_list xs h
      exact ⟨.arr js, by simp [dumps, hjs, Except.map], by simp [loads, hback]⟩
  | .dict kvs, h => by
      simp only [PyVal.isJson, Bool.and_eq_true, decide_eq_true_eq] at h
      obtain ⟨js, hjs, hback⟩ := loads_dumps_entries kvs h.2
      refine ⟨.obj js, by simp [dumps, hjs, Except.map], ?_⟩
      rw [loads, hback, Dict.ofList_entries h.1]
  | .date _, h => by cases h
  | .datetime _, h => by cases h
  | .other _ _, h => by cases h

theorem loads_dumps_list : ∀ xs : List PyVal, PyVal.allJson xs = true →
    ∃ js, dumpsList xs = .ok js ∧ loadsList js = xs
  | [], _ => ⟨[], rfl, rfl⟩
  | v :: rest, h => by
      simp only [PyVal.allJson, Bool.and_eq_true] at h
      obtain ⟨j, hj, hv⟩ := loads_dumps v h.1
      obtain ⟨js, hjs, hrest⟩ := loads_dumps_list rest h.2
      refine ⟨j :: js, ?_, by simp [loadsList, hv, hrest]⟩
      simp [dumpsList, hj, hjs, bind, Except.bind, pure, Except.pure]

theorem loads_dumps_entries : ∀ kvs : List (String × PyVal), PyVal.entriesJson kvs = true →
    ∃ js, dumpsEntries kvs = .ok js ∧ loadsEntries js = kvs
  | [], _ => ⟨[], rfl, rfl⟩
  | (k, v) :: rest, h => by
      simp only [PyVal.entriesJson, Bool.and_eq_true] at h
      obtain ⟨j, hj, hv⟩ := loads_dumps v h.1
      obtain ⟨js, hjs, hrest⟩ := loads_dumps_entries rest h.2
      refine ⟨(k, j) :: js, ?_, by simp [loadsEntries, hv, hrest]⟩
      simp [dumpsEntries, hj, hjs, bind, Except.bind, pure, Except.pure]

end

mutual

/-- What the parser returns is a JSON value. -/
theorem loads_isJson : ∀ j : Json, (loads j).isJson = true
  | .null | .bool _ | .int _ | .float _ | .str _ => rfl
  | .arr js => PyVal.isJson_list.mpr (loadsList_isJson js)
  | .obj kvs => by
      refine PyVal.isJson_dict.mpr ⟨Dict.nodup _, fun kv hkv => ?_⟩
      exact loadsEntries_isJson kvs kv (Dict.mem_of_mem_ofList hkv)

theorem loadsList_isJson : ∀ js : List Json, ∀ v ∈ loadsList js, v.isJson = true
  | [], v, hv => by cases hv
  | j :: rest, v, hv => by
      rcases List.mem_cons.mp hv with rfl | hv
      · exact loads_isJson j
      · exact loadsList_isJson rest v hv

theorem loadsEntries_isJson : ∀ kvs : List (String × Json), ∀ kv ∈ loadsEntries kvs,
    kv.2.isJson = true
  | [], kv, hkv => by cases hkv
  | (k, j) :: rest, kv, hkv => by
      rcases List.mem_cons.mp hkv with rfl | hkv
      · exact loads_isJson j
      · exact loadsEntries_isJson rest kv hkv

end

end RiskFlow
