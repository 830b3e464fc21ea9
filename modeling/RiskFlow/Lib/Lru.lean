import RiskFlow.Lib.Dict
import RiskFlow.Lib.Run

/-!
# Lru — a bounded cache that forgets what was asked for longest ago

The entries are kept most recent first. A call that finds its key moves it
to the front; one that does not makes the value, puts it in front and
drops what is beyond the capacity. What is in the cache after any calls is
decided by their keys alone: it is the front of the list of all keys ever
asked for, most recent first. So a key is still there exactly as long as
fewer other keys than the cache holds have been asked for since.
-/

namespace Lib

universe u v w

/-! ## The order of use -/

section Recent
variable {κ : Type u} [DecidableEq κ]

/-- `k` is asked for: it comes first, and once. -/
def use (l : List κ) (k : κ) : List κ := k :: l.filter fun x => x ≠ k

/-- All keys asked for, most recent first. -/
def recent (ks : List κ) : List κ := ks.foldl use []

theorem use_nodup {l : List κ} (h : l.Nodup) (k : κ) : (use l k).Nodup :=
  List.nodup_cons.mpr ⟨by simp, h.filter _⟩

theorem recent_concat (ks : List κ) (k : κ) : recent (ks ++ [k]) = use (recent ks) k := by
  simp [recent]

theorem recent_nodup (ks : List κ) : (recent ks).Nodup := by
  induction ks using List.reverseRecOn with
  | nil => exact List.nodup_nil
  | append_singleton ks k ih =>
      rw [recent_concat]
      exact use_nodup ih k

theorem mem_recent {ks : List κ} {k : κ} : k ∈ recent ks ↔ k ∈ ks := by
  induction ks using List.reverseRecOn with
  | nil => exact Iff.rfl
  | append_singleton ks j ih =>
      rw [recent_concat, use, List.mem_cons, List.mem_filter, ih, List.mem_append,
        List.mem_singleton]
      by_cases hk : k = j
      · simp [hk]
      · simp [hk]

/-- The order of use of distinct keys counts each of them once. -/
theorem length_recent (ks : List κ) : (recent ks).length = ks.dedup.length :=
  ((List.perm_ext_iff_of_nodup (recent_nodup ks) ks.nodup_dedup).mpr fun k => by
    rw [mem_recent, List.mem_dedup]).length_eq

/-- Later keys come before earlier ones. -/
theorem recent_append (ks ls : List κ) :
    recent (ks ++ ls) = recent ls ++ (recent ks).filter fun k => k ∉ ls := by
  induction ls using List.reverseRecOn with
  | nil => simp [recent]
  | append_singleton ls j ih =>
      rw [← List.append_assoc, recent_concat, ih, recent_concat, use, use, List.filter_append,
        List.filter_filter, List.cons_append]
      congr 2
      refine List.filter_congr fun k _ => ?_
      by_cases hk : k = j
      · simp [hk]
      · simp [hk]

/-- Cutting the list before or after a use makes no difference to its front. -/
theorem take_use (n : Nat) {l : List κ} (h : l.Nodup) (k : κ) :
    (use (l.take n) k).take n = (use l k).take n := by
  cases n with
  | zero => simp
  | succ n =>
      unfold use
      rw [List.take_succ_cons, List.take_succ_cons]
      congr 1
      induction l generalizing n with
      | nil => simp
      | cons x l ih =>
          obtain ⟨hx, hl⟩ := List.nodup_cons.mp h
          rw [List.take_succ_cons]
          by_cases hxk : x = k
          · -- it is not in the rest, so nothing more is dropped
            have hkeep : l.filter (fun y => y ≠ k) = l := by
              refine List.filter_eq_self.mpr fun y hy => ?_
              rw [decide_eq_true_eq]
              intro hyk
              rw [hyk, ← hxk] at hy
              exact hx hy
            have hkeep' : (l.take n).filter (fun y => y ≠ k) = l.take n := by
              refine List.filter_eq_self.mpr fun y hy => ?_
              exact List.filter_eq_self.mp hkeep y (List.mem_of_mem_take hy)
            rw [List.filter_cons_of_neg (by simp [hxk]), List.filter_cons_of_neg (by simp [hxk]),
              hkeep, hkeep', List.take_take, Nat.min_self]
          · rw [List.filter_cons_of_pos (by simp [hxk]), List.filter_cons_of_pos (by simp [hxk])]
            cases n with
            | zero => simp
            | succ n => rw [List.take_succ_cons, List.take_succ_cons, ih hl n]

/-- A key asked for once more is in front of all but the keys asked for since. -/
theorem mem_take_recent {before after : List κ} {k : κ} (hk : k ∉ after) (n : Nat) :
    k ∈ (recent (before ++ k :: after)).take n ↔ after.dedup.length < n := by
  have hsplit : before ++ k :: after = (before ++ [k]) ++ after := by simp
  have horder : recent (before ++ k :: after) = recent after ++
      k :: ((recent before).filter fun x => x ≠ k).filter fun x => x ∉ after := by
    rw [hsplit, recent_append, recent_concat, use, List.filter_cons_of_pos (by simp [hk])]
  have hfront : k ∉ recent after := fun hmem => hk (mem_recent.mp hmem)
  rw [horder, ← length_recent]
  constructor
  · intro hmem
    by_contra hle
    rw [List.take_append_of_le_length (by omega)] at hmem
    exact hfront (List.mem_of_mem_take hmem)
  · intro hlt
    obtain ⟨m, hm⟩ := Nat.exists_eq_add_of_lt hlt
    rw [List.take_append, List.mem_append]
    right
    have hrest : n - (recent after).length = m + 1 := by omega
    rw [hrest, List.take_succ_cons]
    exact List.mem_cons_self

end Recent

/-! ## The cache -/

/-- At most `capacity` entries with distinct keys, most recent first. -/
structure Lru (κ : Type u) (ν : Type v) (capacity : Nat) where
  entries : List (κ × ν)
  nodup : (entries.map Prod.fst).Nodup
  bounded : entries.length ≤ capacity

namespace Lru
variable {κ : Type u} {ν : Type v} [DecidableEq κ] {capacity : Nat}

def empty : Lru κ ν capacity := ⟨[], List.nodup_nil, Nat.zero_le _⟩

def keys (c : Lru κ ν capacity) : List κ := c.entries.map Prod.fst

def get? (c : Lru κ ν capacity) (k : κ) : Option ν := lookup c.entries k

theorem map_use (l : List (κ × ν)) (k : κ) (v : ν) :
    ((k, v) :: l.filter fun kv => kv.1 ≠ k).map Prod.fst = use (l.map Prod.fst) k := by
  rw [List.map_cons, use, List.filter_map]
  rfl

/-- `k` in front with the value `v`; the last entry may fall out. -/
def put (c : Lru κ ν capacity) (k : κ) (v : ν) : Lru κ ν capacity where
  entries := ((k, v) :: c.entries.filter fun kv => kv.1 ≠ k).take capacity
  nodup := by
    rw [List.map_take, map_use]
    exact (use_nodup c.nodup k).sublist (List.take_sublist _ _)
  bounded := List.length_take_le _ _

theorem keys_put (c : Lru κ ν capacity) (k : κ) (v : ν) :
    (c.put k v).keys = (use c.keys k).take capacity := by
  show (((k, v) :: c.entries.filter fun kv => kv.1 ≠ k).take capacity).map Prod.fst = _
  rw [List.map_take, map_use]
  rfl

theorem mem_put {c : Lru κ ν capacity} {k : κ} {v : ν} {kv : κ × ν}
    (h : kv ∈ (c.put k v).entries) : kv = (k, v) ∨ kv ∈ c.entries ∧ kv.1 ≠ k := by
  rcases List.mem_cons.mp (List.mem_of_mem_take h) with hnew | hold
  · exact .inl hnew
  · obtain ⟨hmem, hne⟩ := List.mem_filter.mp hold
    exact .inr ⟨hmem, by simpa using hne⟩

theorem get?_eq_some {c : Lru κ ν capacity} {k : κ} {v : ν} :
    c.get? k = some v ↔ (k, v) ∈ c.entries := lookup_eq_some c.nodup

theorem get?_eq_none {c : Lru κ ν capacity} {k : κ} : c.get? k = none ↔ k ∉ c.keys :=
  lookup_eq_none

theorem get?_put_self (c : Lru κ ν capacity) (k : κ) (v : ν) (h : 0 < capacity) :
    (c.put k v).get? k = some v := by
  refine get?_eq_some.mpr ?_
  obtain ⟨n, rfl⟩ := Nat.exists_eq_succ_of_ne_zero (Nat.pos_iff_ne_zero.mp h)
  show (k, v) ∈ List.take (n + 1) ((k, v) :: _)
  rw [List.take_succ_cons]
  exact List.mem_cons_self

/-- Of another key a new entry can only push the entry out. -/
theorem get?_put_ne (c : Lru κ ν capacity) {j k : κ} (v : ν) (h : j ≠ k) :
    (c.put k v).get? j = c.get? j ∨ (c.put k v).get? j = none := by
  cases hget : (c.put k v).get? j with
  | none => exact .inr rfl
  | some w =>
      left
      rcases mem_put (get?_eq_some.mp hget) with hnew | ⟨hold, _⟩
      · exact absurd (congrArg Prod.fst hnew) h
      · exact (get?_eq_some.mpr hold).symm

/-! ## Calls -/

section Calls
variable {σ : Type w} {ε : Type} (make : σ → κ → Except ε ν × σ)

/-- A call for `k`. What `make` raises is not kept. -/
def call (cs : Lru κ ν capacity × σ) (k : κ) : Except ε ν × (Lru κ ν capacity × σ) :=
  match cs.1.get? k with
  | some v => (.ok v, (cs.1.put k v, cs.2))
  | none =>
      match make cs.2 k with
      | (.ok v, s) => (.ok v, (cs.1.put k v, s))
      | (.error e, s) => (.error e, (cs.1, s))

/-- The cache and the state after calls for all of `ks`. -/
def calls (cs : Lru κ ν capacity × σ) (ks : List κ) : Lru κ ν capacity × σ :=
  ks.foldl (fun cs k => (call make cs k).2) cs

/-- `make` raises nothing for `k`. -/
def Makes (k : κ) : Prop := ∀ s, ∃ v s', make s k = (.ok v, s')

variable {make}

/-- A call that raises nothing answers with what it puts in front. -/
theorem call_put {k : κ} (h : Makes make k) (cs : Lru κ ν capacity × σ) :
    ∃ v s, call make cs k = (.ok v, (cs.1.put k v, s)) := by
  unfold call
  cases cs.1.get? k with
  | some v => exact ⟨v, cs.2, rfl⟩
  | none =>
      obtain ⟨v, s, hmake⟩ := h cs.2
      exact ⟨v, s, by rw [hmake]⟩

/-- **The cache is the front of the order of use.** -/
theorem keys_calls {ks : List κ} (h : ∀ k ∈ ks, Makes make k) (s : σ) :
    (calls make ((empty : Lru κ ν capacity), s) ks).1.keys = (recent ks).take capacity := by
  induction ks using List.reverseRecOn with
  | nil => exact (List.take_nil).symm
  | append_singleton ks k ih =>
      have hlast := ih fun j hj => h j (List.mem_append_left _ hj)
      obtain ⟨v, s', hcall⟩ := call_put (h k (by simp))
        (calls make ((empty : Lru κ ν capacity), s) ks)
      have hstep : calls make ((empty : Lru κ ν capacity), s) (ks ++ [k]) =
          (call make (calls make (empty, s) ks) k).2 := List.foldl_append
      rw [hstep, hcall, recent_concat]
      show (put _ k v).keys = _
      rw [keys_put, hlast]
      exact take_use capacity (recent_nodup ks) k

/-- Calls for other keys leave an entry or push it out. -/
theorem get?_calls_other {after : List κ} (h : ∀ j ∈ after, Makes make j) {k : κ}
    (hk : k ∉ after) (cs : Lru κ ν capacity × σ) :
    (calls make cs after).1.get? k = cs.1.get? k ∨ (calls make cs after).1.get? k = none := by
  induction after generalizing cs with
  | nil => exact .inl rfl
  | cons j rest ih =>
      rw [List.mem_cons, not_or] at hk
      obtain ⟨v, s, hcall⟩ := call_put (h j (by simp)) cs
      have hstep : calls make cs (j :: rest) = calls make (cs.1.put j v, s) rest := by
        show calls make (call make cs j).2 rest = _
        rw [hcall]
      rw [hstep]
      rcases ih (fun i hi => h i (by simp [hi])) hk.2 (cs.1.put j v, s) with hsame | hnone
      · rcases get?_put_ne cs.1 v hk.1 with hkept | hout
        · exact .inl (hsame.trans hkept)
        · exact .inr (hsame.trans hout)
      · exact .inr hnone

/-- **How long an entry is kept**: after a call for `k`, while fewer other keys
than the cache holds have been asked for. -/
theorem get?_calls_since {before after : List κ} {k : κ} (s : σ)
    (h : ∀ j ∈ before ++ k :: after, Makes make j) (hk : k ∉ after) :
    ∃ v, (call make (calls make ((empty : Lru κ ν capacity), s) before) k).1 = .ok v ∧
      (calls make ((empty : Lru κ ν capacity), s) (before ++ k :: after)).1.get? k =
        if after.dedup.length < capacity then some v else none := by
  obtain ⟨v, s', hcall⟩ := call_put (h k (by simp))
    (calls make ((empty : Lru κ ν capacity), s) before)
  refine ⟨v, by rw [hcall], ?_⟩
  have hsplit : calls make ((empty : Lru κ ν capacity), s) (before ++ k :: after) =
      calls make ((calls make (empty, s) before).1.put k v, s') after := by
    have happend : calls make ((empty : Lru κ ν capacity), s) (before ++ k :: after) =
        calls make (call make (calls make (empty, s) before) k).2 after := List.foldl_append
    rw [happend, hcall]
  have hkeys : (calls make ((empty : Lru κ ν capacity), s) (before ++ k :: after)).1.keys =
      (recent (before ++ k :: after)).take capacity := keys_calls h s
  by_cases hfew : after.dedup.length < capacity
  · rw [if_pos hfew]
    have hmem : k ∈ (calls make ((empty : Lru κ ν capacity), s) (before ++ k :: after)).1.keys := by
      rw [hkeys]
      exact (mem_take_recent hk capacity).mpr hfew
    rw [hsplit] at hmem ⊢
    have hfound := get?_put_self (calls make ((empty : Lru κ ν capacity), s) before).1 k v
      (by omega)
    rcases get?_calls_other (fun j hj => h j (by simp [hj])) hk
      ((calls make (empty, s) before).1.put k v, s') with hsame | hnone
    · exact hsame.trans hfound
    · exact absurd hmem (get?_eq_none.mp hnone)
  · rw [if_neg hfew, get?_eq_none, hkeys]
    exact fun hmem => hfew ((mem_take_recent hk capacity).mp hmem)

end Calls

end Lru

end Lib
