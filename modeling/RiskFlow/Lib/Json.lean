import RiskFlow.Lib.XRat

/-!
# Json — document trees and codecs

A JSON text is represented by the tree it denotes: writer and parser are
inverse on trees, so what can go wrong in a round trip is only the
translation between a program's values and the tree. A `Codec` is such a
translation with its round-trip law as a field; the combinators build the
codec of a list, an optional value or a map from the codec of its parts.

An object is a list of pairs. A reader takes the LAST pair of a repeated
key, as dictionary-building parsers do.
-/

namespace Lib

inductive Json where
  | null
  | bool (b : Bool)
  | int (i : Int)
  | float (x : XRat)
  | str (s : String)
  | arr (xs : List Json)
  | obj (kvs : List (String × Json))

namespace Json

/-- The last value of key `k`. -/
def lookupLast : List (String × Json) → String → Option Json
  | [], _ => none
  | (k, v) :: rest, x => (lookupLast rest x).or (if k = x then some v else none)

/-- The member `k` of an object; a non-object has none. -/
def field : Json → String → Option Json
  | .obj kvs, k => lookupLast kvs k
  | _, _ => none

def asStr : Json → Option String
  | .str s => some s
  | _ => none

def asArr : Json → Option (List Json)
  | .arr xs => some xs
  | _ => none

def asObj : Json → Option (List (String × Json))
  | .obj kvs => some kvs
  | _ => none

@[simp] theorem asStr_str (s : String) : asStr (.str s) = some s := rfl

@[simp] theorem asArr_arr (xs : List Json) : asArr (.arr xs) = some xs := rfl

@[simp] theorem asObj_obj (kvs : List (String × Json)) : asObj (.obj kvs) = some kvs := rfl

end Json

namespace Json

mutual

/-- Equality of trees, computed. -/
def same : Json → Json → Bool
  | .null, .null => true
  | .bool b, .bool c => decide (b = c)
  | .int i, .int j => decide (i = j)
  | .float x, .float y => decide (x = y)
  | .str s, .str t => decide (s = t)
  | .arr xs, .arr ys => sameElements xs ys
  | .obj kvs, .obj kws => sameMembers kvs kws
  | _, _ => false
termination_by structural j => j

def sameElements : List Json → List Json → Bool
  | [], [] => true
  | x :: xs, y :: ys => same x y && sameElements xs ys
  | _, _ => false
termination_by structural xs => xs

def sameMembers : List (String × Json) → List (String × Json) → Bool
  | [], [] => true
  | (k, x) :: kvs, (l, y) :: kws => decide (k = l) && (same x y && sameMembers kvs kws)
  | _, _ => false
termination_by structural kvs => kvs

end

mutual

theorem same_iff : ∀ j j' : Json, same j j' = true ↔ j = j'
  | .null, j' | .bool _, j' | .int _, j' | .float _, j' | .str _, j' => by
      cases j' <;> simp [same]
  | .arr xs, j' => by cases j' <;> simp [same, sameElements_iff]
  | .obj kvs, j' => by cases j' <;> simp [same, sameMembers_iff]

theorem sameElements_iff : ∀ xs ys : List Json, sameElements xs ys = true ↔ xs = ys
  | [], ys => by cases ys <;> simp [sameElements]
  | x :: xs, ys => by cases ys <;> simp [sameElements, same_iff x, sameElements_iff xs]

theorem sameMembers_iff : ∀ kvs kws : List (String × Json), sameMembers kvs kws = true ↔ kvs = kws
  | [], kws => by cases kws <;> simp [sameMembers]
  | (k, x) :: kvs, kws => by
      cases kws <;> simp [sameMembers, same_iff x, sameMembers_iff kvs, Prod.ext_iff, and_assoc]

end

instance : DecidableEq Json := fun j j' => decidable_of_iff _ (same_iff j j')

end Json

/-- Decoding each element of an encoded list succeeds when decoding each
element does. -/
theorem mapM_map_eq_some {α β γ : Type} {f : β → Option γ} {g : α → β} {h : α → γ}
    {l : List α} (hf : ∀ x ∈ l, f (g x) = some (h x)) :
    (l.map g).mapM f = some (l.map h) := by
  induction l with
  | nil => rfl
  | cons x rest ih =>
      have hx : f (g x) = some (h x) := hf x (by simp)
      have hrest := ih (fun y hy => hf y (by simp [hy]))
      simp [List.mapM_cons, hx, hrest]

/-- A two-way translation between values and trees that loses nothing. -/
structure Codec (α : Type) where
  encode : α → Json
  decode : Json → Option α
  decode_encode : ∀ a, decode (encode a) = some a

namespace Codec
variable {α : Type}

def str : Codec String := ⟨.str, Json.asStr, Json.asStr_str⟩

def list (c : Codec α) : Codec (List α) where
  encode xs := .arr (xs.map c.encode)
  decode j := j.asArr.bind (List.mapM c.decode)
  decode_encode xs := by
    have h := mapM_map_eq_some (l := xs) (h := id) (fun x _ => c.decode_encode x)
    simpa using h

/-- An optional value, `null` when absent. The inner codec must not
itself write `null`. -/
def option (c : Codec α) (hc : ∀ a, c.encode a ≠ .null) : Codec (Option α) where
  encode
    | none => .null
    | some a => c.encode a
  decode
    | .null => some none
    | j => (c.decode j).map some
  decode_encode a := by
    cases a with
    | none => rfl
    | some a =>
        dsimp only
        split
        · rename_i h
          exact absurd h (hc a)
        · rw [c.decode_encode]
          rfl

/-- The pairs of an object, values translated. -/
def pairs (c : Codec α) : Codec (List (String × α)) where
  encode kvs := .obj (kvs.map fun kv => (kv.1, c.encode kv.2))
  decode j := j.asObj.bind (List.mapM fun kv => (c.decode kv.2).map (Prod.mk kv.1))
  decode_encode kvs := by
    have h := mapM_map_eq_some (l := kvs) (h := id)
      (f := fun kv : String × Json => (c.decode kv.2).map (Prod.mk kv.1))
      (g := fun kv : String × α => (kv.1, c.encode kv.2))
      (fun kv _ => by simp [c.decode_encode])
    simpa using h

end Codec

end Lib
