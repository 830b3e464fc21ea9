import RiskFlow.Domain.Correction
import RiskFlow.Domain.Schema

/-!
# Caches — the mapping cache and the correction cache

The two Redis adapters over the keys they own: a JSON document for each
mapping, a hash for each cedent. Store operations succeed, and an entry
that does not parse is a miss.
-/

namespace RiskFlow

open Lib

/-- The part of Redis the mapping service uses. -/
structure Stores where
  mappings : Dict String Json
  corrections : Dict String (Dict String String)

/-- Nothing cached, nothing corrected. -/
def Stores.empty : Stores := ⟨∅, ∅⟩

/-! ## Mappings -/

namespace RedisCache

def keyPrefix : String := "riskflow:mapping:"

/-- `get_mapping`. -/
def getMapping (stores : Stores) (cacheKey : String) : Option MappingResult :=
  (stores.mappings.get? (keyPrefix ++ cacheKey)).bind MappingResult.decode

/-- `set_mapping`. -/
def setMapping (stores : Stores) (cacheKey : String) (result : MappingResult) : Stores :=
  { stores with mappings := stores.mappings.set (keyPrefix ++ cacheKey) result.encode }

/-- The entry's time to live is over. -/
def expire (stores : Stores) (cacheKey : String) : Stores :=
  { stores with mappings := stores.mappings.erase (keyPrefix ++ cacheKey) }

theorem getMapping_setMapping (stores : Stores) (cacheKey : String) (r : MappingResult)
    (other : String) : getMapping (setMapping stores cacheKey r) other =
      if cacheKey = other then some r else getMapping stores other := by
  simp only [getMapping, setMapping, Dict.get?_set, String.append_right_inj]
  split
  · exact MappingResult.codec.decode_encode r
  · rfl

theorem getMapping_expire (stores : Stores) (cacheKey other : String) :
    getMapping (expire stores cacheKey) other =
      if cacheKey = other then none else getMapping stores other := by
  simp only [getMapping, expire, Dict.get?_erase, String.append_right_inj]
  split <;> rfl

end RedisCache

/-! ## Corrections -/

namespace RedisCorrectionCache

def keyPrefix : String := "corrections:"

/-- The hash of a cedent. -/
def hashOf (stores : Stores) (cedentId : String) : Dict String String :=
  (stores.corrections.get? (keyPrefix ++ cedentId)).getD ∅

/-- `get_corrections`: the headers the hash has a value for, in file order. -/
def getCorrections (stores : Stores) (cedentId : String) (headers : List String) :
    Dict String String :=
  .ofList (headers.filterMap fun header =>
    ((hashOf stores cedentId).get? header).map fun value => (header, value))

/-- `set_correction`. -/
def setCorrection (stores : Stores) (correction : Correction) : Stores :=
  { stores with
    corrections := stores.corrections.set (keyPrefix ++ correction.cedentId)
      ((hashOf stores correction.cedentId).set correction.sourceHeader correction.targetField) }

/-- One correction changes one field of one hash. -/
theorem hashOf_setCorrection (stores : Stores) (k : Correction) (cedentId : String) :
    hashOf (setCorrection stores k) cedentId =
      if k.cedentId = cedentId then (hashOf stores cedentId).set k.sourceHeader k.targetField
      else hashOf stores cedentId := by
  simp only [hashOf, setCorrection, Dict.get?_set, String.append_right_inj]
  split
  · rename_i h
    rw [h]
    rfl
  · rfl

/-- What applies to a file: the cedent's own corrections of its headers. -/
theorem getCorrections_get? (stores : Stores) (cedentId : String) (headers : List String)
    (h : String) : (getCorrections stores cedentId headers).get? h =
      if h ∈ headers then (hashOf stores cedentId).get? h else none := by
  have hval : ∀ {kv : String × String}, kv ∈ (getCorrections stores cedentId headers).entries →
      kv.1 ∈ headers ∧ (hashOf stores cedentId).get? kv.1 = some kv.2 := by
    intro kv hkv
    obtain ⟨header, hmem, hv⟩ := List.mem_filterMap.mp (Dict.mem_of_mem_ofList hkv)
    obtain ⟨value, hget, rfl⟩ := Option.map_eq_some_iff.mp hv
    exact ⟨hmem, hget⟩
  cases hg : (getCorrections stores cedentId headers).get? h with
  | some t =>
      obtain ⟨hmem, hget⟩ := hval (Dict.get?_eq_some.mp hg)
      rw [if_pos hmem, hget]
  | none =>
      split
      · rename_i hmem
        cases ht : (hashOf stores cedentId).get? h with
        | none => rfl
        | some t =>
            have hkey : h ∈ (getCorrections stores cedentId headers).keys := by
              apply Dict.mem_keys_ofList.mpr
              refine List.mem_map.mpr ⟨(h, t), List.mem_filterMap.mpr ⟨h, hmem, ?_⟩, rfl⟩
              rw [ht]
              rfl
            exact absurd hkey (Dict.get?_eq_none.mp hg)
      · rfl

end RedisCorrectionCache

end RiskFlow
