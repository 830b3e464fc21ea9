import RiskFlow.Lib.Run

/-!
# Interleaving — tasks that take turns on a shared state

A pool is a shared state and a list of tasks. One step lets one task take
its next atomic step; a task that has none leaves the pool as it is, so a
schedule is any list of task numbers and every interleaving is the run of
a schedule. Four ways to reason about the run of a schedule:

* `Holds`: an assertion on the shared state and one on each task, the
  latter stable under the steps of the other tasks, or of those with
  another key;
* `collect`: what the tasks have contributed so far, up to order;
* `Linearized`: the contributions, put in some order, explain the shared
  state as a serial execution would;
* `Monitor`: a lock, with what holds when it is free and what its holder
  knows.
-/

namespace Lib

/-- A shared state and the tasks that work on it. -/
structure Pool (σ τ : Type) where
  shared : σ
  tasks : List τ

namespace Pool
variable {σ τ ρ : Type} (advance : σ → τ → σ × τ) {p : Pool σ τ} {i : Nat}

/-- Task `i` takes its next step. -/
def step (p : Pool σ τ) (i : Nat) : Pool σ τ :=
  match p.tasks[i]? with
  | none => p
  | some t => ⟨(advance p.shared t).1, p.tasks.set i (advance p.shared t).2⟩

/-- The pool after a schedule. -/
def run (p : Pool σ τ) (schedule : List Nat) : Pool σ τ :=
  schedule.foldl (step advance) p

theorem step_none (h : p.tasks[i]? = none) : p.step advance i = p := by
  simp [step, h]

theorem step_some {t : τ} (h : p.tasks[i]? = some t) :
    p.step advance i = ⟨(advance p.shared t).1, p.tasks.set i (advance p.shared t).2⟩ := by
  simp [step, h]

@[simp] theorem run_nil (p : Pool σ τ) : p.run advance [] = p := rfl

/-- A task without others takes one step after the other. -/
@[simp] theorem run_alone (s : σ) (t : τ) (schedule : List Nat) :
    (Pool.mk s [t]).run advance (0 :: schedule) =
      (Pool.mk (advance s t).1 [(advance s t).2]).run advance schedule := rfl

/-! ## Assertions -/

/-- The shared state satisfies `g`, and each task `h` together with it. -/
def Holds (g : σ → Prop) (h : σ → τ → Prop) (p : Pool σ τ) : Prop :=
  g p.shared ∧ ∀ t ∈ p.tasks, h p.shared t

/-- **The interference rule.** A step keeps the assertions if it establishes
them for the task that takes it and no other task's is disturbed. -/
theorem step_holds {g : σ → Prop} {h : σ → τ → Prop} (hp : p.Holds g h)
    (hstep : ∀ t, p.tasks[i]? = some t → g (advance p.shared t).1 ∧
      h (advance p.shared t).1 (advance p.shared t).2 ∧
      ∀ u ∈ p.tasks, h p.shared u → h (advance p.shared t).1 u) :
    (p.step advance i).Holds g h := by
  cases ht : p.tasks[i]? with
  | none => rwa [step_none advance ht]
  | some t =>
      rw [step_some advance ht]
      obtain ⟨hg, hown, hothers⟩ := hstep t ht
      refine ⟨hg, fun u hu => ?_⟩
      rcases List.mem_or_eq_of_mem_set hu with hmem | rfl
      · exact hothers u hmem (hp.2 u hmem)
      · exact hown

/-- **The rule for one task and its turns.** What each turn of the task
advances, and no step of the tasks beside it disturbs, has advanced as often
as the schedule gives the task a turn; and the tasks beside it stay what
they are. -/
theorem followed_turns {inv : Nat → σ → τ → Prop} {other : τ → Prop}
    (hown : ∀ n s t, inv n s t → inv (n + 1) (advance s t).1 (advance s t).2)
    (hkeep : ∀ s u, other u → other (advance s u).2)
    (hothers : ∀ n s t u, other u → inv n s t → inv n (advance s u).1 t) {n : Nat} {t : τ}
    (ht : p.tasks[i]? = some t) (hrest : ∀ j u, j ≠ i → p.tasks[j]? = some u → other u)
    (h : inv n p.shared t) (schedule : List Nat) :
    (∃ t', (p.run advance schedule).tasks[i]? = some t' ∧
      inv (n + schedule.count i) (p.run advance schedule).shared t') ∧
      ∀ j u, j ≠ i → (p.run advance schedule).tasks[j]? = some u → other u := by
  induction schedule generalizing p n t with
  | nil => exact ⟨⟨t, ht, h⟩, hrest⟩
  | cons j rest ih =>
      have hrun : p.run advance (j :: rest) = (p.step advance j).run advance rest := rfl
      rw [hrun]
      cases hj : p.tasks[j]? with
      | none =>
          have hji : j ≠ i := by
            intro hji
            rw [hji, ht] at hj
            cases hj
          rw [step_none advance hj, List.count_cons_of_ne hji]
          exact ih ht hrest h
      | some u =>
          rw [step_some advance hj]
          by_cases hji : j = i
          · subst hji
            rw [ht] at hj
            cases hj
            rw [List.count_cons_self, Nat.add_comm _ 1, ← Nat.add_assoc]
            refine ih (p := ⟨_, _⟩) (List.getElem?_set_self (List.getElem?_eq_some_iff.mp ht).1)
              ?_ (hown _ _ _ h)
            intro k v hk hv
            exact hrest k v hk ((List.getElem?_set_ne (Ne.symm hk)).symm.trans hv)
          · rw [List.count_cons_of_ne hji]
            refine ih (p := ⟨_, _⟩) ((List.getElem?_set_ne hji).trans ht) ?_
              (hothers _ _ _ _ (hrest j u hji hj) h)
            intro k v hk hv
            by_cases hkj : k = j
            · subst hkj
              rw [List.getElem?_set_self (List.getElem?_eq_some_iff.mp hj).1] at hv
              cases hv
              exact hkeep _ _ (hrest k u hk hj)
            · exact hrest k v hk ((List.getElem?_set_ne (Ne.symm hkj)).symm.trans hv)

/-- **The rule for one task.** What its own steps keep, and no step of
another task disturbs, holds of it after every schedule. -/
theorem followed_run {inv : σ → τ → Prop}
    (hown : ∀ s t, inv s t → inv (advance s t).1 (advance s t).2)
    (hothers : ∀ s t u, inv s t → inv (advance s u).1 t) {t : τ} (ht : p.tasks[i]? = some t)
    (h : inv p.shared t) (schedule : List Nat) :
    ∃ t', (p.run advance schedule).tasks[i]? = some t' ∧
      inv (p.run advance schedule).shared t' :=
  (followed_turns advance (n := 0) (fun _ s t (h : inv s t) => hown s t h)
    (fun _ _ (_ : True) => trivial) (fun _ s t u _ => hothers s t u) ht
    (fun _ _ _ _ => trivial) h schedule).1

theorem run_append (p : Pool σ τ) (schedule more : List Nat) :
    p.run advance (schedule ++ more) = (p.run advance schedule).run advance more :=
  List.foldl_append

/-- A task that has all the turns takes one step after the other. -/
theorem run_replicate {t : τ} (ht : p.tasks[i]? = some t) (n : Nat) :
    (p.run advance (List.replicate n i)).shared =
        ((fun st => advance st.1 st.2)^[n] (p.shared, t)).1 ∧
      (p.run advance (List.replicate n i)).tasks[i]? =
        some ((fun st => advance st.1 st.2)^[n] (p.shared, t)).2 := by
  induction n generalizing p t with
  | zero => exact ⟨rfl, ht⟩
  | succ n ih =>
      have hrun : p.run advance (List.replicate (n + 1) i) =
          (p.step advance i).run advance (List.replicate n i) := rfl
      rw [hrun, step_some advance ht]
      exact ih (p := ⟨_, _⟩) (List.getElem?_set_self (List.getElem?_eq_some_iff.mp ht).1)

/-! ## Simulation -/

/-- **The simulation rule.** Two pools of the same tasks whose steps keep two
shared states related, and do the same to the task, run alike. -/
theorem simulated_run {σ' : Type} {advance' : σ' → τ → σ' × τ} {rel : σ → σ' → Prop}
    {fit : τ → Prop}
    (hstep : ∀ s s' t, fit t → rel s s' → fit (advance s t).2 ∧
      rel (advance s t).1 (advance' s' t).1 ∧ (advance' s' t).2 = (advance s t).2)
    {s' : σ'} (hfit : ∀ t ∈ p.tasks, fit t) (hrel : rel p.shared s') (schedule : List Nat) :
    rel (p.run advance schedule).shared ((Pool.mk s' p.tasks).run advance' schedule).shared ∧
      ((Pool.mk s' p.tasks).run advance' schedule).tasks = (p.run advance schedule).tasks := by
  induction schedule generalizing p s' with
  | nil => exact ⟨hrel, rfl⟩
  | cons j rest ih =>
      show rel ((p.step advance j).run advance rest).shared
          (((Pool.mk s' p.tasks).step advance' j).run advance' rest).shared ∧
        (((Pool.mk s' p.tasks).step advance' j).run advance' rest).tasks =
          ((p.step advance j).run advance rest).tasks
      cases hj : p.tasks[j]? with
      | none =>
          rw [step_none advance hj, step_none advance' (p := ⟨s', p.tasks⟩) hj]
          exact ih hfit hrel
      | some u =>
          obtain ⟨hown, hshared, htask⟩ := hstep p.shared s' u
            (hfit u (List.mem_of_getElem? hj)) hrel
          rw [step_some advance hj, step_some advance' (p := ⟨s', p.tasks⟩) hj, htask]
          refine ih (p := ⟨_, _⟩) (fun t ht => ?_) hshared
          rcases List.mem_or_eq_of_mem_set ht with hmem | rfl
          · exact hfit t hmem
          · exact hown

/-! ## Contributions -/

/-- What the tasks contribute under `f`. -/
def collect (f : τ → Option ρ) (p : Pool σ τ) : List ρ := p.tasks.filterMap f

/-- A contribution that is one or the other comes from the tasks of the one and
those of the other. -/
theorem collect_or {f g : τ → Option ρ} (h : ∀ t r, f t = some r → g t = none)
    (p : Pool σ τ) :
    (p.collect fun t => (f t).or (g t)).Perm (p.collect f ++ p.collect g) := by
  obtain ⟨_, tasks⟩ := p
  show (tasks.filterMap _).Perm (tasks.filterMap f ++ tasks.filterMap g)
  induction tasks with
  | nil => exact .nil
  | cons t rest ih =>
      cases hf : f t with
      | some r =>
          rw [List.filterMap_cons_some (b := r) (by simp [hf]), List.filterMap_cons_some hf,
            List.filterMap_cons_none (h t r hf)]
          exact ih.cons r
      | none =>
          rw [List.filterMap_cons_none hf]
          cases hg : g t with
          | some r =>
              rw [List.filterMap_cons_some (b := r) (by simp [hf, hg]),
                List.filterMap_cons_some hg]
              exact (ih.cons r).trans List.perm_middle.symm
          | none =>
              rw [List.filterMap_cons_none (by simp [hf, hg]), List.filterMap_cons_none hg]
              exact ih

/-- Tasks that have not begun have contributed nothing. -/
theorem collect_start {ι : Type} {start : ι → τ} {l : List ι} {f : τ → Option ρ} (s : σ)
    (h : ∀ x ∈ l, f (start x) = none) : collect f ⟨s, l.map start⟩ = [] := by
  refine List.filterMap_eq_nil_iff.mpr fun t ht => ?_
  obtain ⟨x, hx, rfl⟩ := List.mem_map.mp ht
  exact h x hx

private theorem filterMap_set {f : τ → Option ρ} {l : List τ} {i : Nat} {t t' : τ}
    (h : l[i]? = some t) :
    ∃ rest, (l.filterMap f).Perm ((f t).toList ++ rest) ∧
      ((l.set i t').filterMap f).Perm ((f t').toList ++ rest) := by
  induction l generalizing i with
  | nil => cases h
  | cons x l ih =>
      cases i with
      | zero =>
          cases Option.some.inj h
          refine ⟨l.filterMap f, ?_, ?_⟩
          · cases hx : f t <;> simp [hx]
          · cases hx : f t' <;> simp [hx]
      | succ i =>
          obtain ⟨rest, hl, hset⟩ := ih h
          refine ⟨(f x).toList ++ rest, ?_, ?_⟩
          · have hcons : (x :: l).filterMap f = (f x).toList ++ l.filterMap f := by
              cases hx : f x <;> simp [hx]
            rw [hcons, ← List.append_assoc]
            exact (hl.append_left _).trans (by
              rw [← List.append_assoc]
              exact List.perm_append_comm.append_right rest)
          · have hcons : ((x :: l).set (i + 1) t').filterMap f =
                (f x).toList ++ (l.set i t').filterMap f := by
              cases hx : f x <;> simp [hx]
            rw [hcons, ← List.append_assoc]
            exact (hset.append_left _).trans (by
              rw [← List.append_assoc]
              exact List.perm_append_comm.append_right rest)

/-- A step replaces the contribution of its task and no other. -/
theorem collect_step (f : τ → Option ρ) {t : τ} (h : p.tasks[i]? = some t) :
    ∃ rest, (p.collect f).Perm ((f t).toList ++ rest) ∧
      ((p.step advance i).collect f).Perm ((f (advance p.shared t).2).toList ++ rest) := by
  rw [step_some advance h]
  exact filterMap_set h

/-- A step that leaves its task's contribution alone leaves all of them alone. -/
theorem collect_same {f : τ → Option ρ} {t : τ} (h : p.tasks[i]? = some t)
    (hf : f (advance p.shared t).2 = f t) :
    ((p.step advance i).collect f).Perm (p.collect f) := by
  obtain ⟨rest, hbefore, hafter⟩ := collect_step advance f h
  rw [hf] at hafter
  exact hafter.trans hbefore.symm

/-- A step in which a task contributes `r`. -/
theorem collect_gain {f : τ → Option ρ} {t : τ} {r : ρ} (h : p.tasks[i]? = some t)
    (hbefore : f t = none) (hafter : f (advance p.shared t).2 = some r) :
    ((p.step advance i).collect f).Perm (r :: p.collect f) := by
  obtain ⟨rest, hp, hp'⟩ := collect_step advance f h
  rw [hbefore] at hp
  rw [hafter] at hp'
  exact hp'.trans (hp.symm.cons r)

/-- A step in which a task withdraws `r`. -/
theorem collect_loss {f : τ → Option ρ} {t : τ} {r : ρ} (h : p.tasks[i]? = some t)
    (hbefore : f t = some r) (hafter : f (advance p.shared t).2 = none) :
    (p.collect f).Perm (r :: (p.step advance i).collect f) := by
  obtain ⟨rest, hp, hp'⟩ := collect_step advance f h
  rw [hbefore] at hp
  rw [hafter] at hp'
  exact hp.trans (hp'.symm.cons r)

/-! ## Tasks with keys -/

/-- Tasks at two places have different keys where no key is collected twice. -/
theorem key_ne {κ : Type} {key : τ → Option κ} (hkeys : (p.collect key).Nodup) {j : Nat}
    (hij : i ≠ j) {t u : τ} (ht : p.tasks[i]? = some t) (hu : p.tasks[j]? = some u) {k : κ}
    (hk : key u = some k) : key t ≠ some k := by
  intro hkt
  obtain ⟨hi, rfl⟩ := List.getElem?_eq_some_iff.mp ht
  obtain ⟨hj, rfl⟩ := List.getElem?_eq_some_iff.mp hu
  have hpairs := List.pairwise_iff_getElem.mp (List.pairwise_filterMap.mp hkeys)
  rcases Nat.lt_or_gt_of_ne hij with hlt | hgt
  · exact hpairs i j hi hj hlt k hkt k hk rfl
  · exact hpairs j i hj hi hgt k hk k hkt rfl

/-- **The interference rule for tasks with keys.** Only what holds of tasks
with another key has to be left undisturbed by a step. -/
theorem step_holds_keyed {κ : Type} {key : τ → Option κ} {g : σ → Prop} {h : σ → τ → Prop}
    (hp : p.Holds g h) (hkeys : (p.collect key).Nodup)
    (hstep : ∀ t, p.tasks[i]? = some t → g (advance p.shared t).1 ∧
      h (advance p.shared t).1 (advance p.shared t).2 ∧
      ∀ u ∈ p.tasks, (∀ k, key u = some k → key t ≠ some k) → h p.shared u →
        h (advance p.shared t).1 u) : (p.step advance i).Holds g h := by
  cases ht : p.tasks[i]? with
  | none => rwa [step_none advance ht]
  | some t =>
      rw [step_some advance ht]
      obtain ⟨hg, hown, hothers⟩ := hstep t ht
      refine ⟨hg, fun u hu => ?_⟩
      obtain ⟨j, hj⟩ := List.mem_iff_getElem?.mp hu
      by_cases hij : i = j
      · subst hij
        rw [List.getElem?_set_self (List.getElem?_eq_some_iff.mp ht).1] at hj
        cases hj
        exact hown
      · rw [List.getElem?_set_ne hij] at hj
        have hmem := List.mem_of_getElem? hj
        exact hothers u hmem (fun k hk => key_ne hkeys hij ht hj hk) (hp.2 u hmem)

/-! ## Linearization -/

section Linearization
variable {α : Type} (serial : α → ρ → α) (ok : α → ρ → Prop) (shows : α → σ → Prop)
  (f : τ → Option ρ)

/-- The contributions have an order in which each is permitted and after
which the abstract state shows the shared one. -/
def Linearized (start : α) (p : Pool σ τ) : Prop :=
  ∃ order : List ρ, order.Perm (p.collect f) ∧ AllSteps serial ok start order ∧
    shows (order.foldl serial start) p.shared

variable {serial ok shows f}

/-- **The linearization rule.** A step keeps a linearization if it either
contributes nothing and is not seen, or contributes `r` and does to every
abstract state that shows the shared one what `r` does. -/
theorem linearized_step {start : α} (hp : p.Linearized serial ok shows f start)
    (hstep : ∀ t, p.tasks[i]? = some t →
      (f (advance p.shared t).2 = f t ∧
          ∀ a, shows a p.shared → shows a (advance p.shared t).1) ∨
        ∃ r, f t = none ∧ f (advance p.shared t).2 = some r ∧
          ∀ a, shows a p.shared → ok a r ∧ shows (serial a r) (advance p.shared t).1) :
    (p.step advance i).Linearized serial ok shows f start := by
  cases ht : p.tasks[i]? with
  | none => rwa [step_none advance ht]
  | some t =>
      obtain ⟨order, hperm, horder, hshows⟩ := hp
      have hshared : (p.step advance i).shared = (advance p.shared t).1 := by
        rw [step_some advance ht]
      unfold Linearized
      rw [hshared]
      rcases hstep t ht with ⟨hsame, hunseen⟩ | ⟨r, hbefore, hafter, hserial⟩
      · exact ⟨order, hperm.trans (collect_same advance ht hsame).symm, horder, hunseen _ hshows⟩
      · -- the contribution comes last in the serial order
        obtain ⟨hok, hshows'⟩ := hserial _ hshows
        refine ⟨order ++ [r], ?_, allSteps_append.mpr ⟨horder, hok, trivial⟩, ?_⟩
        · have hgain := collect_gain advance ht hbefore hafter
          exact (List.perm_append_singleton r order).trans ((hperm.cons r).trans hgain.symm)
        · rw [List.foldl_append]
          exact hshows'

end Linearization

/-! ## Monitors -/

/-- A lock that at most one task holds. `free` reads the lock, `holds` says
that a task is inside, `whenFree` is what the shared state satisfies while
the lock is free and `whenHeld` what the task inside knows. -/
structure Monitor where
  free : σ → Prop
  inside : τ → Bool
  whenFree : σ → Prop
  whenHeld : σ → τ → Prop
  enter : ∀ s t, inside t = false → inside (advance s t).2 = true →
    free s ∧ (whenFree s → ¬ free (advance s t).1 ∧ whenHeld (advance s t).1 (advance s t).2)
  outside : ∀ s t, inside t = false → inside (advance s t).2 = false → (advance s t).1 = s
  stay : ∀ s t, inside t = true → inside (advance s t).2 = true → ¬ free s → whenHeld s t →
    ¬ free (advance s t).1 ∧ whenHeld (advance s t).1 (advance s t).2
  leave : ∀ s t, inside t = true → inside (advance s t).2 = false → whenHeld s t →
    free (advance s t).1 ∧ whenFree (advance s t).1

namespace Monitor
variable {advance}

/-- The task inside, as a contribution. -/
def holder (m : Monitor advance) (t : τ) : Option τ := if m.inside t then some t else none

/-- Either the lock is free and nobody is inside, or exactly one task is. -/
def Invariant (m : Monitor advance) (p : Pool σ τ) : Prop :=
  (m.free p.shared ∧ m.whenFree p.shared ∧ p.collect m.holder = []) ∨
    ∃ t, ¬ m.free p.shared ∧ m.whenHeld p.shared t ∧ p.collect m.holder = [t]

/-- **The monitor rule.** Every step keeps the invariant. -/
theorem invariant_step (m : Monitor advance) (hp : m.Invariant p) :
    m.Invariant (p.step advance i) := by
  cases ht : p.tasks[i]? with
  | none => rwa [step_none advance ht]
  | some t =>
      have hshared : (p.step advance i).shared = (advance p.shared t).1 := by
        rw [step_some advance ht]
      have hholder : ∀ u, m.inside u = true → m.holder u = some u := fun u hu => if_pos hu
      have hnone : ∀ u, m.inside u = false → m.holder u = none := fun u hu => if_neg (by simp [hu])
      unfold Invariant
      rw [hshared]
      cases hin : m.inside t with
      | false =>
          cases hin' : m.inside (advance p.shared t).2 with
          | false =>
              rw [m.outside _ _ hin hin']
              have hsame := collect_same advance ht ((hnone _ hin').trans (hnone _ hin).symm)
              rcases hp with ⟨hfree, hwhen, hnil⟩ | ⟨u, hheld, hwhen, hone⟩
              · exact .inl ⟨hfree, hwhen, List.perm_nil.mp (hnil ▸ hsame)⟩
              · exact .inr ⟨u, hheld, hwhen, List.perm_singleton.mp (hone ▸ hsame)⟩
          | true =>
              obtain ⟨hfree, henter⟩ := m.enter _ _ hin hin'
              have hgain := collect_gain advance ht (hnone _ hin) (hholder _ hin')
              rcases hp with ⟨_, hwhen, hnil⟩ | ⟨u, hheld, _, _⟩
              · obtain ⟨hlocked, hinside⟩ := henter hwhen
                exact .inr ⟨_, hlocked, hinside, List.perm_singleton.mp (hnil ▸ hgain)⟩
              · exact absurd hfree hheld
      | true =>
          -- only one task is inside, and it is this one
          have hself : ¬ m.free p.shared ∧ m.whenHeld p.shared t ∧ p.collect m.holder = [t] := by
            have hmem : t ∈ p.collect m.holder :=
              List.mem_filterMap.mpr ⟨t, List.mem_of_getElem? ht, hholder t hin⟩
            rcases hp with ⟨_, _, hnil⟩ | ⟨u, hheld, hwhen, hone⟩
            · rw [hnil] at hmem
              cases hmem
            · rw [hone, List.mem_singleton] at hmem
              subst hmem
              exact ⟨hheld, hwhen, hone⟩
          obtain ⟨hlocked, hwhen, hone⟩ := hself
          cases hin' : m.inside (advance p.shared t).2 with
          | false =>
              obtain ⟨hfree, hopen⟩ := m.leave _ _ hin hin' hwhen
              have hloss := collect_loss advance ht (hholder _ hin) (hnone _ hin')
              rw [hone] at hloss
              exact .inl ⟨hfree, hopen, by simpa using hloss.symm⟩
          | true =>
              obtain ⟨hlocked', hinside⟩ := m.stay _ _ hin hin' hlocked hwhen
              refine .inr ⟨_, hlocked', hinside, ?_⟩
              obtain ⟨rest, hbefore, hafter⟩ := collect_step advance m.holder ht
              rw [hone, hholder _ hin] at hbefore
              rw [hholder _ hin'] at hafter
              have hrest : rest = [] := by simpa using hbefore.symm
              subst hrest
              exact List.perm_singleton.mp hafter

theorem invariant_run (m : Monitor advance) (hp : m.Invariant p) (schedule : List Nat) :
    m.Invariant (p.run advance schedule) := by
  induction schedule generalizing p with
  | nil => exact hp
  | cons i rest ih => exact ih (m.invariant_step hp)

/-- The holder is a task of the pool, and inside. -/
theorem mem_of_holder (m : Monitor advance) {t : τ} (h : p.collect m.holder = [t]) :
    t ∈ p.tasks ∧ m.inside t = true := by
  have hmem : t ∈ p.collect m.holder := by
    rw [h]
    exact List.mem_singleton_self t
  obtain ⟨u, hu, hholder⟩ := List.mem_filterMap.mp hmem
  unfold holder at hholder
  split at hholder
  · rename_i hinside
    cases hholder
    exact ⟨hu, hinside⟩
  · cases hholder

end Monitor

end Pool

end Lib
