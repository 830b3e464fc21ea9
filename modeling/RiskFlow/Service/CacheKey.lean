import RiskFlow.Lib.Separated
import RiskFlow.Service.DateMeaning
import RiskFlow.Service.History

/-!
# CacheKey — which header lists share a cache key

The key is a hash of the schema's fingerprint and of the sorted headers
joined with `|`. The order of the headers is gone by sorting; where one
header ends and the next begins is gone as well, if a header has a `|`.
-/

namespace RiskFlow

open Lib MappingService

section Key
variable {rt : Runtime}

/-- The headers as they are compared: lower case, without white space around. -/
def normalForms (rt : Runtime) (headers : List String) : List String :=
  headers.map fun h => Py.strip (rt.lower h)

/-- The pieces of the sorted headers between the `|`s. -/
def headerPieces (rt : Runtime) (headers : List String) : List (List Char) :=
  pieces '|' ((Py.sorted (normalForms rt headers)).map String.toList)

/-- The joined headers tell their pieces. -/
theorem normalizedHeaders_eq_iff {headers headers' : List String} :
    normalizedHeaders rt headers = normalizedHeaders rt headers' ↔
      headerPieces rt headers = headerPieces rt headers' := by
  have hbar : "|".toList = ['|'] := rfl
  unfold headerPieces
  rw [← intercalate_eq_iff, ← String.toList_inj, normalizedHeaders, normalizedHeaders,
    String.toList_intercalate, String.toList_intercalate, hbar]
  rfl

/-- Sorting forgets the order and nothing else. -/
theorem sorted_eq_iff {xs ys : List String} : Py.sorted xs = Py.sorted ys ↔ xs.Perm ys := by
  constructor
  · intro h
    exact (Py.sorted_perm xs).symm.trans (h ▸ Py.sorted_perm ys)
  · intro h
    have hperm : (Py.sorted xs).Perm (Py.sorted ys) :=
      (Py.sorted_perm xs).trans (h.trans (Py.sorted_perm ys).symm)
    exact hperm.eq_of_pairwise (fun _ _ _ _ => le_antisymm)
      (List.pairwise_insertionSort (· ≤ ·) xs) (List.pairwise_insertionSort (· ≤ ·) ys)

/-- One schema's keys are equal when the pieces are. -/
theorem buildCacheKey_eq_iff (hsha : Function.Injective rt.sha256) {svc : MappingService}
    {headers headers' : List String} :
    buildCacheKey rt svc headers = buildCacheKey rt svc headers' ↔
      headerPieces rt headers = headerPieces rt headers' := by
  rw [buildCacheKey, buildCacheKey, hsha.eq_iff, ← normalizedHeaders_eq_iff]
  constructor
  · intro h
    have hlists := congrArg String.toList h
    simp only [String.toList_append] at hlists
    exact String.toList_inj.mp (List.append_cancel_left hlists)
  · intro h
    rw [h]

/-- A permutation has the same pieces. -/
theorem headerPieces_of_perm {headers headers' : List String}
    (h : (normalForms rt headers).Perm (normalForms rt headers')) :
    headerPieces rt headers = headerPieces rt headers' := by
  rw [headerPieces, headerPieces, sorted_eq_iff.mpr h]

/-- Without a `|` in them, non-empty header lists with the same pieces are
permutations of each other. -/
theorem perm_of_headerPieces {headers headers' : List String}
    (hclear : ∀ h ∈ normalForms rt headers, '|' ∉ h.toList)
    (hclear' : ∀ h ∈ normalForms rt headers', '|' ∉ h.toList)
    (hne : headers ≠ []) (hne' : headers' ≠ [])
    (h : headerPieces rt headers = headerPieces rt headers') :
    (normalForms rt headers).Perm (normalForms rt headers') := by
  have hown : ∀ hs : List String, (∀ h ∈ normalForms rt hs, '|' ∉ h.toList) → hs ≠ [] →
      headerPieces rt hs = (Py.sorted (normalForms rt hs)).map String.toList := by
    intro hs hclear hne
    refine pieces_of_clear ?_ ?_
    · intro l hl
      obtain ⟨x, hx, rfl⟩ := List.mem_map.mp hl
      exact hclear x (Py.mem_sorted.mp hx)
    · intro hnil
      have hlength := congrArg List.length hnil
      rw [List.length_map, (Py.sorted_perm _).length_eq, normalForms, List.length_map] at hlength
      exact hne (List.eq_nil_of_length_eq_zero hlength)
  rw [hown headers hclear hne, hown headers' hclear' hne'] at h
  have hinj : Function.Injective String.toList := fun _ _ => String.toList_inj.mp
  exact sorted_eq_iff.mp (List.map_injective_iff.mpr hinj h)

/-- Texts that start with different texts of one length differ. -/
theorem append_ne_append {a b c d : String} (hlength : a.length = b.length) (h : a ≠ b) :
    a ++ c ≠ b ++ d := by
  intro heq
  have hlists := congrArg String.toList heq
  rw [String.toList_append, String.toList_append] at hlists
  exact h (String.toList_inj.mp (List.append_inj_left hlists hlength))

end Key

/-- **When the cache key identifies the headers.** With an injective SHA-256 and
BLAKE2b digests of 32 characters: the keys of two header lists are equal
exactly for permutations of the normal forms, if and only if lists with the
same pieces are permutations, which non-empty lists without a `|` are; and
different fingerprints have different keys. -/
theorem cache_key_iff (rt : Runtime) (hsha : Function.Injective rt.sha256)
    (hblake : ∀ j, (rt.blake2b j).length = 32) :
    (∀ (svc : MappingService) (headers headers' : List String),
      (buildCacheKey rt svc headers = buildCacheKey rt svc headers' ↔
          (normalForms rt headers).Perm (normalForms rt headers')) ↔
        (headerPieces rt headers = headerPieces rt headers' →
          (normalForms rt headers).Perm (normalForms rt headers'))) ∧
    (∀ headers headers' : List String,
      (∀ h ∈ normalForms rt headers, '|' ∉ h.toList) →
      (∀ h ∈ normalForms rt headers', '|' ∉ h.toList) → headers ≠ [] → headers' ≠ [] →
        headerPieces rt headers = headerPieces rt headers' →
        (normalForms rt headers).Perm (normalForms rt headers')) ∧
    ∀ (svc svc' : MappingService) (headers headers' : List String),
      svc.schema.fingerprint rt ≠ svc'.schema.fingerprint rt →
        buildCacheKey rt svc headers ≠ buildCacheKey rt svc' headers' := by
  refine ⟨?_, fun _ _ => perm_of_headerPieces, ?_⟩
  · intro svc headers headers'
    rw [buildCacheKey_eq_iff hsha]
    exact ⟨fun h => h.mp, fun h => ⟨h, headerPieces_of_perm⟩⟩
  · intro svc svc' headers headers' hprints hkeys
    have hlength : (svc.schema.fingerprint rt).length = (svc'.schema.fingerprint rt).length := by
      rw [TargetSchema.fingerprint, TargetSchema.fingerprint, hblake, hblake]
    have htexts := hsha hkeys
    rw [String.append_assoc, String.append_assoc] at htexts
    exact append_ne_append hlength hprints htexts

/-- A SHA-256 without collisions, and the BLAKE2b digests of two schemas. -/
def digestRuntime : Runtime :=
  { Runtime.plain with
    blake2b := fun j =>
      match (j.field "fields").bind fun fields => fields.field "Start" with
      | some _ => "ac67b0c9d595d46ca33417b41c7d9295"
      | none => "4d83296568786b772ce4e29a00f6fe1c" }

theorem digestRuntime_blake2b (j : Json) : (digestRuntime.blake2b j).length = 32 := by
  unfold digestRuntime
  dsimp only
  split
  · decide
  · decide

/-- Headers without a bar have a key of their own, and other keys under
another schema. -/
theorem key_of_plain_headers :
    (buildCacheKey digestRuntime premiumService ["PRMA", " Policy No"] ≠
        buildCacheKey digestRuntime premiumService ["PRMA"]) ∧
      buildCacheKey digestRuntime premiumService ["PRMA", " Policy No"] =
        buildCacheKey digestRuntime premiumService ["policy no", "prma"] ∧
      buildCacheKey digestRuntime premiumService ["PRMA"] ≠
        buildCacheKey digestRuntime startService ["PRMA"] := by
  obtain ⟨hsame, hclear, hschemas⟩ :=
    cache_key_iff digestRuntime Function.injective_id digestRuntime_blake2b
  refine ⟨fun hkeys => ?_, ?_, hschemas _ _ _ _ (by decide)⟩
  · have hperm := ((hsame premiumService ["PRMA", " Policy No"] ["PRMA"]).mpr
      (hclear _ _ (by decide) (by decide) (by simp) (by simp))).mp hkeys
    exact absurd hperm.length_eq (by decide)
  · have hleft : normalForms digestRuntime ["PRMA", " Policy No"] = ["prma", "policy no"] := by
      decide
    have hright : normalForms digestRuntime ["policy no", "prma"] = ["policy no", "prma"] := by
      decide
    refine ((hsame premiumService ["PRMA", " Policy No"] ["policy no", "prma"]).mpr
      (hclear _ _ (by decide) (by decide) (by simp) (by simp))).mpr ?_
    rw [hleft, hright]
    exact List.Perm.swap ..

/-- One header with a bar has the key of two headers. -/
theorem key_of_header_with_bar :
    Function.Injective digestRuntime.sha256 ∧
      (∀ j, (digestRuntime.blake2b j).length = 32) ∧
      ¬ (buildCacheKey digestRuntime premiumService ["GWP|PRMA"] =
            buildCacheKey digestRuntime premiumService ["GWP", "PRMA"] ↔
          (normalForms digestRuntime ["GWP|PRMA"]).Perm
            (normalForms digestRuntime ["GWP", "PRMA"])) := by
  refine ⟨Function.injective_id, digestRuntime_blake2b, fun hsame => ?_⟩
  have hperm := hsame.mp ((buildCacheKey_eq_iff Function.injective_id).mpr (by decide))
  exact absurd hperm.length_eq (by decide)

end RiskFlow
