import Mathlib

/-!
# Dict — finite maps in insertion order

A Python `dict`: an association list whose keys are distinct by
construction. Assigning to a present key keeps its position, assigning to
a new key appends, so iteration order is first-assignment order.

The list functions (`lookup`, `put`) carry the recursion; `Dict` wraps
them with the key-uniqueness proof, and every lemma a client needs is
stated on `Dict` as a fact about `get?`.
-/

namespace Lib

universe u v
variable {κ : Type u} {ν : Type v}

/-! ## The list layer -/

/-- Translating entries loses keys and keeps their order. -/
theorem keys_filterMap_sublist {μ : Type v} (f : κ → ν → Option μ) (l : List (κ × ν)) :
    ((l.filterMap fun kv => (f kv.1 kv.2).map (Prod.mk kv.1)).map Prod.fst).Sublist
      (l.map Prod.fst) := by
  induction l with
  | nil => simp
  | cons kv rest ih =>
      cases hf : f kv.1 kv.2 with
      | none => simpa [hf] using ih.cons kv.1
      | some w => simpa [hf] using ih.cons_cons kv.1

theorem nodup_keys_filterMap {μ : Type v} (f : κ → ν → Option μ) {l : List (κ × ν)}
    (h : (l.map Prod.fst).Nodup) :
    ((l.filterMap fun kv => (f kv.1 kv.2).map (Prod.mk kv.1)).map Prod.fst).Nodup :=
  h.sublist (keys_filterMap_sublist f l)

section Entries
variable [DecidableEq κ]

/-- The value at the first occurrence of `x`. -/
def lookup : List (κ × ν) → κ → Option ν
  | [], _ => none
  | (k, v) :: rest, x => if k = x then some v else lookup rest x

/-- Overwrite the first occurrence of `x`, or append. -/
def put : List (κ × ν) → κ → ν → List (κ × ν)
  | [], x, w => [(x, w)]
  | (k, v) :: rest, x, w =>
      if k = x then (k, w) :: rest else (k, v) :: put rest x w

theorem lookup_put (l : List (κ × ν)) (x : κ) (w : ν) (y : κ) :
    lookup (put l x w) y = if x = y then some w else lookup l y := by
  induction l with
  | nil => simp [put, lookup]
  | cons kv rest ih =>
      obtain ⟨k, v⟩ := kv
      by_cases hk : k = x
      · subst hk
        by_cases hy : k = y <;> simp [put, lookup, hy]
      · by_cases hy : k = y
        · subst hy
          simp [put, lookup, hk, Ne.symm hk]
        · simp [put, lookup, hk, hy, ih]

/-- Overwriting keeps the key column, a new key goes to its end. -/
theorem keys_put (l : List (κ × ν)) (x : κ) (w : ν) :
    (put l x w).map Prod.fst =
      if x ∈ l.map Prod.fst then l.map Prod.fst else l.map Prod.fst ++ [x] := by
  induction l with
  | nil => simp [put]
  | cons kv rest ih =>
      obtain ⟨k, v⟩ := kv
      by_cases hk : k = x
      · simp [put, hk]
      · simp only [put, if_neg hk, List.map_cons, ih, List.mem_cons, Ne.symm hk, false_or]
        split <;> rfl

theorem mem_keys_put {l : List (κ × ν)} {x : κ} {w : ν} {y : κ} :
    y ∈ (put l x w).map Prod.fst ↔ y = x ∨ y ∈ l.map Prod.fst := by
  rw [keys_put]
  split
  · rename_i hx
    exact ⟨.inr, fun h => h.elim (fun e => e ▸ hx) id⟩
  · rw [List.mem_append, List.mem_singleton, or_comm]

theorem nodup_keys_put {l : List (κ × ν)} {x : κ} {w : ν}
    (h : (l.map Prod.fst).Nodup) : ((put l x w).map Prod.fst).Nodup := by
  rw [keys_put]
  split
  · exact h
  · rename_i hx
    exact h.append (List.nodup_singleton x) (List.disjoint_singleton.mpr hx)

theorem lookup_eq_none {l : List (κ × ν)} {x : κ} :
    lookup l x = none ↔ x ∉ l.map Prod.fst := by
  induction l with
  | nil => simp [lookup]
  | cons kv rest ih =>
      obtain ⟨k, v⟩ := kv
      by_cases hk : k = x
      · simp [lookup, hk]
      · simp [lookup, hk, ih, Ne.symm hk]

theorem lookup_eq_some {l : List (κ × ν)} (h : (l.map Prod.fst).Nodup)
    {x : κ} {v : ν} : lookup l x = some v ↔ (x, v) ∈ l := by
  induction l with
  | nil => simp [lookup]
  | cons kv rest ih =>
      obtain ⟨k, w⟩ := kv
      simp only [List.map_cons, List.nodup_cons] at h
      by_cases hk : k = x
      · subst hk
        have hfresh : ∀ u, (k, u) ∉ rest := fun u hu =>
          h.1 (List.mem_map.mpr ⟨(k, u), hu, rfl⟩)
        simp [lookup, hfresh, eq_comm]
      · simp [lookup, hk, ih h.2, Ne.symm hk]

theorem put_of_not_mem {l : List (κ × ν)} {x : κ} {w : ν}
    (h : x ∉ l.map Prod.fst) : put l x w = l ++ [(x, w)] := by
  induction l with
  | nil => rfl
  | cons kv rest ih =>
      obtain ⟨k, v⟩ := kv
      simp only [List.map_cons, List.mem_cons, not_or] at h
      simp [put, Ne.symm h.1, ih h.2]

/-- Overwriting a key with the value it has changes nothing. -/
theorem put_of_lookup {l : List (κ × ν)} {x : κ} {w : ν} (h : lookup l x = some w) :
    put l x w = l := by
  induction l with
  | nil => cases h
  | cons kv rest ih =>
      obtain ⟨k, v⟩ := kv
      by_cases hk : k = x
      · simp only [lookup, if_pos hk, Option.some.injEq] at h
        simp [put, hk, h]
      · simp only [lookup, if_neg hk] at h
        simp [put, hk, ih h]

theorem lookup_filter (p : κ → Bool) (l : List (κ × ν)) (x : κ) :
    lookup (l.filter fun kv => p kv.1) x = if p x then lookup l x else none := by
  induction l with
  | nil => simp [lookup]
  | cons kv rest ih =>
      obtain ⟨k, v⟩ := kv
      by_cases hp : p k = true
      · by_cases hk : k = x
        · subst hk
          simp [lookup, hp]
        · simp [hp, lookup, hk, ih]
      · by_cases hk : k = x
        · subst hk
          simp [hp, ih]
        · simp [hp, lookup, hk, ih]

theorem lookup_map {μ : Type v} (f : ν → μ) (l : List (κ × ν)) (x : κ) :
    lookup (l.map fun kv => (kv.1, f kv.2)) x = (lookup l x).map f := by
  induction l with
  | nil => rfl
  | cons kv rest ih =>
      by_cases hk : kv.1 = x
      · simp [lookup, hk]
      · simp [lookup, hk, ih]

theorem lookup_filterMap {μ : Type v} (f : κ → ν → Option μ) {l : List (κ × ν)}
    (h : (l.map Prod.fst).Nodup) (x : κ) :
    lookup (l.filterMap fun kv => (f kv.1 kv.2).map (Prod.mk kv.1)) x =
      (lookup l x).bind (f x) := by
  induction l with
  | nil => rfl
  | cons kv rest ih =>
      simp only [List.map_cons, List.nodup_cons] at h
      obtain ⟨hfresh, hrest⟩ := h
      by_cases hk : kv.1 = x
      · subst hk
        cases hf : f kv.1 kv.2 with
        | some w => simp [lookup, hf]
        | none =>
            have hgone : lookup rest kv.1 = none := lookup_eq_none.mpr hfresh
            simp [lookup, hf, ih hrest, hgone]
      · cases hf : f kv.1 kv.2 with
        | some w => simp [lookup, hf, hk, ih hrest]
        | none => simp [lookup, hf, hk, ih hrest]

end Entries

/-! ## Dictionaries -/

/-- A finite map in insertion order. -/
structure Dict (κ : Type u) (ν : Type v) where
  entries : List (κ × ν)
  nodup : (entries.map Prod.fst).Nodup
  deriving DecidableEq

namespace Dict

/-- The keys in insertion order. -/
def keys (d : Dict κ ν) : List κ := d.entries.map Prod.fst

/-- The values in insertion order. -/
def values (d : Dict κ ν) : List ν := d.entries.map Prod.snd

def empty : Dict κ ν := ⟨[], by simp⟩

instance : EmptyCollection (Dict κ ν) := ⟨empty⟩

theorem ext_entries {d e : Dict κ ν} (h : d.entries = e.entries) : d = e := by
  cases d; cases e; cases h; rfl

/-- Keep the entries whose key satisfies `p`. -/
def filterKeys (d : Dict κ ν) (p : κ → Bool) : Dict κ ν :=
  ⟨d.entries.filter fun kv => p kv.1,
    d.nodup.sublist ((List.filter_sublist (l := d.entries)).map Prod.fst)⟩

/-- Keep and translate the entries on which `f` is defined. -/
def filterMap {μ : Type v} (d : Dict κ ν) (f : κ → ν → Option μ) : Dict κ μ :=
  ⟨d.entries.filterMap fun kv => (f kv.1 kv.2).map (Prod.mk kv.1),
    nodup_keys_filterMap f d.nodup⟩

/-- Translate every value. -/
def mapValues {μ : Type v} (d : Dict κ ν) (f : ν → μ) : Dict κ μ :=
  ⟨d.entries.map fun kv => (kv.1, f kv.2), by
    rw [List.map_map]
    exact d.nodup⟩

theorem filterKeys_eq_self {d : Dict κ ν} {p : κ → Bool} (h : ∀ k ∈ d.keys, p k = true) :
    d.filterKeys p = d :=
  ext_entries (List.filter_eq_self.mpr fun kv hkv => h kv.1 (List.mem_map_of_mem hkv))

variable [DecidableEq κ]

def get? (d : Dict κ ν) (x : κ) : Option ν := lookup d.entries x

def set (d : Dict κ ν) (x : κ) (w : ν) : Dict κ ν :=
  ⟨put d.entries x w, nodup_keys_put d.nodup⟩

def erase (d : Dict κ ν) (x : κ) : Dict κ ν := d.filterKeys fun k => !decide (k = x)

/-- The dictionary display `{k: v for k, v in l}`: a later pair overwrites
an earlier one with the same key. -/
def ofList (l : List (κ × ν)) : Dict κ ν :=
  l.foldl (fun d kv => d.set kv.1 kv.2) empty

theorem get?_set (d : Dict κ ν) (x : κ) (w : ν) (y : κ) :
    (d.set x w).get? y = if x = y then some w else d.get? y :=
  lookup_put d.entries x w y

@[simp] theorem get?_set_self (d : Dict κ ν) (x : κ) (w : ν) :
    (d.set x w).get? x = some w := by
  simp [get?_set]

theorem get?_set_ne (d : Dict κ ν) {x y : κ} (w : ν) (h : x ≠ y) :
    (d.set x w).get? y = d.get? y := by
  simp [get?_set, h]

/-- A key is set to `w` without an effect exactly when it has that value. -/
theorem set_eq_self {d : Dict κ ν} {x : κ} {w : ν} : d.set x w = d ↔ d.get? x = some w := by
  constructor
  · intro h
    rw [← h, get?_set_self]
  · exact fun h => ext_entries (put_of_lookup h)

theorem get?_filterKeys (d : Dict κ ν) (p : κ → Bool) (x : κ) :
    (d.filterKeys p).get? x = if p x then d.get? x else none :=
  lookup_filter p d.entries x

theorem get?_filterMap {μ : Type v} (d : Dict κ ν) (f : κ → ν → Option μ) (x : κ) :
    (d.filterMap f).get? x = (d.get? x).bind (f x) :=
  lookup_filterMap f d.nodup x

theorem get?_mapValues {μ : Type v} (d : Dict κ ν) (f : ν → μ) (x : κ) :
    (d.mapValues f).get? x = (d.get? x).map f :=
  lookup_map f d.entries x

theorem get?_erase (d : Dict κ ν) (x y : κ) :
    (d.erase x).get? y = if x = y then none else d.get? y := by
  by_cases h : x = y
  · simp [erase, get?_filterKeys, h]
  · simp [erase, get?_filterKeys, h, Ne.symm h]

@[simp] theorem get?_erase_self (d : Dict κ ν) (x : κ) : (d.erase x).get? x = none := by
  simp [get?_erase]

theorem get?_eq_none {d : Dict κ ν} {x : κ} : d.get? x = none ↔ x ∉ d.keys :=
  lookup_eq_none

theorem get?_eq_some {d : Dict κ ν} {x : κ} {v : ν} :
    d.get? x = some v ↔ (x, v) ∈ d.entries :=
  lookup_eq_some d.nodup

theorem mem_keys {d : Dict κ ν} {x : κ} : x ∈ d.keys ↔ ∃ v, d.get? x = some v := by
  rw [← Option.isSome_iff_exists, ← not_iff_not, ← get?_eq_none]
  simp

/-- No value repeats exactly when no two keys have one value. -/
theorem nodup_values {d : Dict κ ν} :
    d.values.Nodup ↔ ∀ x y v, d.get? x = some v → d.get? y = some v → x = y := by
  have hentries : d.entries.Nodup := .of_map _ d.nodup
  rw [values, List.nodup_map_iff_inj_on hentries]
  constructor
  · intro h x y v hx hy
    exact congrArg Prod.fst (h _ (get?_eq_some.mp hx) _ (get?_eq_some.mp hy) rfl)
  · intro h kv hkv kv' hkv' hvalue
    refine Prod.ext ?_ hvalue
    exact h kv.1 kv'.1 kv.2 (get?_eq_some.mpr hkv) (hvalue ▸ get?_eq_some.mpr hkv')

theorem mem_keys_set {d : Dict κ ν} {x : κ} {w : ν} {y : κ} :
    y ∈ (d.set x w).keys ↔ y = x ∨ y ∈ d.keys :=
  mem_keys_put

theorem mem_keys_erase {d : Dict κ ν} {x y : κ} :
    y ∈ (d.erase x).keys ↔ y ≠ x ∧ y ∈ d.keys := by
  rw [mem_keys, mem_keys, get?_erase]
  by_cases h : x = y
  · simp [h]
  · simp [h, Ne.symm h]

theorem keys_erase_subset {d : Dict κ ν} {x : κ} : (d.erase x).keys ⊆ d.keys :=
  fun _ hy => (mem_keys_erase.mp hy).2

private theorem foldl_set_entries (l : List (κ × ν)) :
    ∀ d : Dict κ ν, ((d.entries ++ l).map Prod.fst).Nodup →
      (l.foldl (fun d kv => d.set kv.1 kv.2) d).entries = d.entries ++ l := by
  induction l with
  | nil => intro d _; simp
  | cons kv rest ih =>
      intro d h
      have hfresh : kv.1 ∉ d.entries.map Prod.fst := by
        intro hmem
        rw [List.map_append] at h
        exact List.disjoint_of_nodup_append h hmem (by simp)
      have hset : (d.set kv.1 kv.2).entries = d.entries ++ [kv] := put_of_not_mem hfresh
      rw [List.foldl_cons, ih]
      · simp [hset]
      · simpa [hset] using h

/-- Distinct pairs are kept as they stand. -/
theorem ofList_entries {l : List (κ × ν)} (h : (l.map Prod.fst).Nodup) :
    (ofList l).entries = l :=
  foldl_set_entries l empty h

@[simp] theorem ofList_entries_self (d : Dict κ ν) : ofList d.entries = d :=
  ext_entries (ofList_entries d.nodup)

/-- The display `{k: f(v) for k, v in d.items()}`. -/
theorem get?_ofList_map {μ : Type v} (f : ν → μ) (d : Dict κ ν) (x : κ) :
    (ofList (d.entries.map fun kv => (kv.1, f kv.2))).get? x = (d.get? x).map f := by
  have hkeys : ((d.entries.map fun kv => (kv.1, f kv.2)).map Prod.fst).Nodup := by
    rw [List.map_map]
    exact d.nodup
  rw [get?, ofList_entries hkeys, lookup_map]
  rfl

private theorem mem_keys_foldl_set (l : List (κ × ν)) {y : κ} :
    ∀ d : Dict κ ν, y ∈ (l.foldl (fun d kv => d.set kv.1 kv.2) d).keys ↔
      y ∈ d.keys ∨ y ∈ l.map Prod.fst := by
  induction l with
  | nil => intro d; simp
  | cons kv rest ih =>
      intro d
      rw [List.foldl_cons, ih, mem_keys_set, List.map_cons, List.mem_cons]
      tauto

theorem mem_keys_ofList {l : List (κ × ν)} {y : κ} :
    y ∈ (ofList l).keys ↔ y ∈ l.map Prod.fst := by
  rw [ofList, mem_keys_foldl_set]
  simp [keys, empty]

private theorem get?_foldl_set (l : List (κ × ν)) (x : κ) :
    ∀ d : Dict κ ν, (l.foldl (fun d kv => d.set kv.1 kv.2) d).get? x =
      ((l.reverse.find? fun kv => kv.1 = x).map Prod.snd).or (d.get? x) := by
  induction l with
  | nil => intro d; simp
  | cons kv rest ih =>
      intro d
      rw [List.foldl_cons, ih, List.reverse_cons, List.find?_append, get?_set]
      cases hrest : rest.reverse.find? fun kv => kv.1 = x with
      | some found => simp
      | none => by_cases hk : kv.1 = x <;> simp [hk]

/-- **The last pair of a key is the one a display keeps.** -/
theorem get?_ofList (l : List (κ × ν)) (x : κ) :
    (ofList l).get? x = (l.reverse.find? fun kv => kv.1 = x).map Prod.snd := by
  rw [ofList, get?_foldl_set]
  exact Option.or_none

private theorem mem_entries_foldl_set (l : List (κ × ν)) {kv : κ × ν} :
    ∀ d : Dict κ ν, kv ∈ (l.foldl (fun d kv => d.set kv.1 kv.2) d).entries →
      kv ∈ d.entries ∨ kv ∈ l := by
  induction l with
  | nil => intro d h; exact .inl h
  | cons x rest ih =>
      intro d h
      rcases ih _ h with hmem | hmem
      · have hget := get?_eq_some.mpr hmem
        rw [get?_set] at hget
        split at hget
        · rename_i hk
          have hv : x.2 = kv.2 := Option.some.inj hget
          exact .inr (by simp [← Prod.ext hk hv])
        · exact .inl (get?_eq_some.mp hget)
      · exact .inr (by simp [hmem])

/-- Every entry of a display is one of its pairs. -/
theorem mem_of_mem_ofList {l : List (κ × ν)} {kv : κ × ν} (h : kv ∈ (ofList l).entries) :
    kv ∈ l := by
  rcases mem_entries_foldl_set l empty h with hmem | hmem
  · cases hmem
  · exact hmem

/-! ### Equal as finite maps -/

/-- The entries of dictionaries with the same values are permutations. -/
theorem entries_perm_iff {d e : Dict κ ν} :
    d.entries.Perm e.entries ↔ ∀ x, d.get? x = e.get? x := by
  constructor
  · intro h x
    ext v
    rw [get?_eq_some, get?_eq_some, h.mem_iff]
  · intro h
    refine (List.perm_ext_iff_of_nodup (.of_map _ d.nodup) (.of_map _ e.nodup)).mpr ?_
    rintro ⟨k, v⟩
    rw [← get?_eq_some, ← get?_eq_some, h]

/-- **The entries sorted by key tell the finite map and nothing more.** -/
theorem sortedEntries_eq_iff {κ : Type u} [DecidableEq κ] [LinearOrder κ] {d e : Dict κ ν} :
    (d.entries.insertionSort fun a b => a.1 ≤ b.1) =
        (e.entries.insertionSort fun a b => a.1 ≤ b.1) ↔
      ∀ x, d.get? x = e.get? x := by
  have hsort : ∀ l : List (κ × ν), (l.insertionSort fun a b => a.1 ≤ b.1).Perm l :=
    fun l => l.perm_insertionSort _
  rw [← entries_perm_iff]
  constructor
  · intro h
    exact (hsort d.entries).symm.trans (h ▸ hsort e.entries)
  · intro h
    have hperm := (hsort d.entries).trans (h.trans (hsort e.entries).symm)
    have hsorted : ∀ l : List (κ × ν),
        (l.insertionSort fun a b => a.1 ≤ b.1).Pairwise fun a b => a.1 ≤ b.1 := fun l =>
      haveI : Std.Total fun a b : κ × ν => a.1 ≤ b.1 := ⟨fun a b => le_total a.1 b.1⟩
      haveI : IsTrans (κ × ν) fun a b => a.1 ≤ b.1 := ⟨fun _ _ _ => le_trans⟩
      l.pairwise_insertionSort _
    refine hperm.eq_of_pairwise ?_ (hsorted _) (hsorted _)
    -- two entries with one key are one entry, so the order by keys is antisymmetric here
    intro a b ha hb hab hba
    have hmem : b ∈ d.entries := h.mem_iff.mpr ((hsort _).mem_iff.mp hb)
    exact List.inj_on_of_nodup_map d.nodup ((hsort _).mem_iff.mp ha) hmem (le_antisymm hab hba)

end Dict

end Lib
