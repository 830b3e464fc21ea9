import RiskFlow.Http.Sessions

/-!
# SessionFinality — when FINALISED is final

The guards of the three edits look at the copy a handler loaded. They
protect the stored session as long as its status is still the one they
have looked at when the handler saves: then at most one finalise succeeds,
and the stored document stays as that one left it.
-/

namespace RiskFlow

open Lib

section Finality
variable (env : SessionEnv) (sessionId : String)

/-- The stored session is FINALISED. -/
def StoredFinalised (w : SessionWorld) : Prop :=
  ∃ session, RedisMappingSessionStore.get w.store sessionId = some session ∧
    session.status = .finalised

/-- If task `i` is about to save, the stored session has the status of the
copy its handler loaded. -/
def SavesFresh (p : Pool SessionWorld SessionTask) (i : Nat) : Prop :=
  ∀ t copy session, p.tasks[i]? = some t → t.phase = .saving copy session →
    (RedisMappingSessionStore.get p.shared.store sessionId).map MappingSession.status =
      some copy.status

/-- A finalise handler whose session has been stored: its answer is success. -/
def finaliseSucceeded (t : SessionTask) : Option Unit :=
  match t.request, t.phase with
  | .edit .finalise, .written _ => some ()
  | .edit .finalise, .answered (.ok _) => some ()
  | _, _ => none

/-! ## The invariant -/

/-- The session is in the store, under its own id. -/
def SessionStored (w : SessionWorld) : Prop :=
  ∃ session, RedisMappingSessionStore.get w.store sessionId = some session ∧
    session.id = sessionId

/-- An edit's copy is the session with this id. What is about to be saved has
passed the guard, and is FINALISED if a finalise made it. -/
def EditInFlight (t : SessionTask) : Prop :=
  ∃ e, t.request = .edit e ∧
    match t.phase with
    | .loaded (some copy) => copy.id = sessionId
    | .saving copy session => copy.status = .created ∧ session.id = sessionId ∧
        (e = .finalise → session.status = .finalised)
    | .deleting => False
    | _ => True

/-- No finalise has succeeded, or exactly one has and the stored session is FINALISED. -/
def FinalisedOnce (p : Pool SessionWorld SessionTask) : Prop :=
  p.collect finaliseSucceeded = [] ∨
    (p.collect finaliseSucceeded = [()] ∧ StoredFinalised sessionId p.shared)

def FinalityInvariant (p : Pool SessionWorld SessionTask) : Prop :=
  p.Holds (SessionStored sessionId) (fun _ t => EditInFlight sessionId t) ∧
    FinalisedOnce sessionId p

variable {env sessionId}

theorem storedFinalised_congr {w w' : SessionWorld} (h : w'.store = w.store) :
    StoredFinalised sessionId w' ↔ StoredFinalised sessionId w := by
  rw [StoredFinalised, StoredFinalised, h]

theorem storedFinalised_iff {w : SessionWorld} :
    StoredFinalised sessionId w ↔
      (RedisMappingSessionStore.get w.store sessionId).map MappingSession.status =
        some .finalised := by
  rw [StoredFinalised, Option.map_eq_some_iff]

/-- A step that saves nothing is permitted. -/
theorem savesFresh_of_phase {p : Pool SessionWorld SessionTask} {i : Nat} {t : SessionTask}
    (ht : p.tasks[i]? = some t) (h : ∀ copy session, t.phase ≠ .saving copy session) :
    SavesFresh sessionId p i := by
  intro t' copy session ht' hphase
  rw [ht] at ht'
  cases ht'
  exact absurd hphase (h copy session)

/-- **What the guards are for**: an edit whose save is fresh finds the session open. -/
theorem savesFresh_open {p : Pool SessionWorld SessionTask} {i : Nat} {t : SessionTask}
    {copy session : MappingSession} (h : SavesFresh sessionId p i) (ht : p.tasks[i]? = some t)
    (hphase : t.phase = .saving copy session) (hguard : copy.status = .created) :
    ¬ StoredFinalised sessionId p.shared := by
  rw [storedFinalised_iff, h t copy session ht hphase, hguard]
  rintro ⟨⟩

/-- The step of one edit: what it does to the store and to its own phase. -/
theorem advance_edit (env : SessionEnv) {w : SessionWorld} {t : SessionTask}
    (hw : SessionStored sessionId w)
    (ht : EditInFlight sessionId t) :
    EditInFlight sessionId (t.advance env sessionId w).2 ∧
      (((t.advance env sessionId w).1.store = w.store ∧
          finaliseSucceeded (t.advance env sessionId w).2 = finaliseSucceeded t) ∨
        ∃ copy session, t.phase = .saving copy session ∧ copy.status = .created ∧
          session.id = sessionId ∧
          (t.advance env sessionId w).1.store = RedisMappingSessionStore.save w.store session ∧
          finaliseSucceeded t = none ∧
          (finaliseSucceeded (t.advance env sessionId w).2 = none ∨
            session.status = .finalised ∧
              finaliseSucceeded (t.advance env sessionId w).2 = some ())) := by
  obtain ⟨request, phase⟩ := t
  obtain ⟨e, rfl, hphase⟩ := ht
  cases phase with
  | waiting =>
      obtain ⟨stored, hget, hid⟩ := hw
      refine ⟨⟨e, rfl, ?_⟩, .inl ⟨rfl, ?_⟩⟩
      · simp only [SessionTask.advance, hget]
        exact hid
      · cases e <;> rfl
  | loaded copy =>
      cases copy with
      | none => exact ⟨⟨e, rfl, trivial⟩, .inl ⟨rfl, by cases e <;> rfl⟩⟩
      | some copy =>
          cases happly : e.apply env w.files copy with
          | error err =>
              simp only [SessionTask.advance, happly]
              exact ⟨⟨e, rfl, trivial⟩, .inl ⟨trivial, by cases e <;> rfl⟩⟩
          | ok session =>
              simp only [SessionTask.advance, happly]
              obtain ⟨hguard, hid⟩ := SessionEdit.apply_ok happly
              refine ⟨⟨e, rfl, hguard, ?_, ?_⟩, .inl ⟨trivial, by cases e <;> rfl⟩⟩
              · rw [hid]
                exact hphase
              · rintro rfl
                exact SessionEdit.finalise_status happly
  | saving copy session =>
      obtain ⟨hguard, hid, hfinal⟩ := hphase
      refine ⟨⟨e, rfl, trivial⟩,
        .inr ⟨copy, session, rfl, hguard, hid, rfl, by cases e <;> rfl, ?_⟩⟩
      cases e with
      | finalise => exact .inr ⟨hfinal rfl, rfl⟩
      | _ => exact .inl rfl
  | deleting => exact hphase.elim
  | written body => exact ⟨⟨e, rfl, trivial⟩, .inl ⟨rfl, by cases e <;> rfl⟩⟩
  | answered answer => exact ⟨⟨e, rfl, trivial⟩, .inl ⟨rfl, rfl⟩⟩

theorem sessionStored_save {w w' : SessionWorld} {session : MappingSession}
    (h : w'.store = RedisMappingSessionStore.save w.store session) (hid : session.id = sessionId) :
    SessionStored sessionId w' ∧
      (session.status = .finalised → StoredFinalised sessionId w') := by
  subst hid
  have hget : RedisMappingSessionStore.get w'.store session.id = some session.stored := by
    rw [h, RedisMappingSessionStore.get_save]
  exact ⟨⟨_, hget, rfl⟩, fun hs => ⟨_, hget, hs⟩⟩

/-- **One step keeps the invariant**, if its save is fresh. -/
theorem finality_step (env : SessionEnv) {p : Pool SessionWorld SessionTask} {i : Nat}
    (hp : FinalityInvariant sessionId p) (hfresh : SavesFresh sessionId p i) :
    FinalityInvariant sessionId (p.step (fun w t => t.advance env sessionId w) i) := by
  obtain ⟨hholds, honce⟩ := hp
  cases ht : p.tasks[i]? with
  | none =>
      rw [Pool.step_none _ ht]
      exact ⟨hholds, honce⟩
  | some t =>
      have hmem := List.mem_of_getElem? ht
      constructor
      · apply Pool.step_holds _ hholds
        intro u hu
        obtain ⟨hedit, hstore⟩ := advance_edit env hholds.1 (hholds.2 u (List.mem_of_getElem? hu))
        refine ⟨?_, hedit, fun v _ hv => hv⟩
        rcases hstore with ⟨hsame, _⟩ | ⟨copy, session, _, _, hid, hsave, _⟩
        · obtain ⟨stored, hget, hid⟩ := hholds.1
          exact ⟨stored, hsame ▸ hget, hid⟩
        · exact (sessionStored_save hsave hid).1
      · have hshared : (p.step (fun w t => t.advance env sessionId w) i).shared =
            (t.advance env sessionId p.shared).1 := by rw [Pool.step_some _ ht]
        unfold FinalisedOnce
        rw [hshared]
        obtain ⟨_, hstore⟩ := advance_edit env hholds.1 (hholds.2 t hmem)
        rcases hstore with ⟨hsame, hcount⟩ |
          ⟨copy, session, hphase, hguard, hid, hsave, hbefore, hafter⟩
        · have hperm := Pool.collect_same (fun w t => t.advance env sessionId w) ht hcount
          rcases honce with hnil | ⟨hone, hfinal⟩
          · rw [hnil] at hperm
            exact .inl (List.perm_nil.mp hperm)
          · rw [hone] at hperm
            exact .inr ⟨List.perm_singleton.mp hperm, (storedFinalised_congr hsame).mpr hfinal⟩
        · -- the save finds the session open, so no finalise has succeeded yet
          have hnil : p.collect finaliseSucceeded = [] := by
            rcases honce with hnil | ⟨_, hfinal⟩
            · exact hnil
            · exact absurd hfinal (savesFresh_open hfresh ht hphase hguard)
          rcases hafter with hnone | ⟨hstatus, hsome⟩
          · have hperm := Pool.collect_same (fun w t => t.advance env sessionId w) ht
              (hnone.trans hbefore.symm)
            rw [hnil] at hperm
            exact .inl (List.perm_nil.mp hperm)
          · have hperm := Pool.collect_gain (fun w t => t.advance env sessionId w) ht hbefore hsome
            rw [hnil] at hperm
            exact .inr ⟨List.perm_singleton.mp hperm, (sessionStored_save hsave hid).2 hstatus⟩

/-- The stored session is FINALISED and its document is `store`'s. -/
def Frozen (sessionId : String) (store : Dict String Json) (p : Pool SessionWorld SessionTask) :
    Prop :=
  FinalityInvariant sessionId p ∧ StoredFinalised sessionId p.shared ∧ p.shared.store = store

/-- From a FINALISED state on, steps whose saves are fresh leave the store alone. -/
theorem frozen_step (env : SessionEnv) {p : Pool SessionWorld SessionTask} {i : Nat}
    {store : Dict String Json} (hp : Frozen sessionId store p)
    (hfresh : SavesFresh sessionId p i) :
    Frozen sessionId store (p.step (fun w t => t.advance env sessionId w) i) := by
  obtain ⟨hinv, hfinal, hstore⟩ := hp
  have hsame : (p.step (fun w t => t.advance env sessionId w) i).shared.store =
      p.shared.store := by
    cases ht : p.tasks[i]? with
    | none => rw [Pool.step_none _ ht]
    | some t =>
        rw [Pool.step_some _ ht]
        obtain ⟨_, hstep⟩ := advance_edit env hinv.1.1 (hinv.1.2 t (List.mem_of_getElem? ht))
        rcases hstep with ⟨hsame, _⟩ | ⟨copy, session, hphase, hguard, _⟩
        · exact hsame
        · exact absurd hfinal (savesFresh_open hfresh ht hphase hguard)
  exact ⟨finality_step env hinv hfresh, (storedFinalised_congr hsame).mpr hfinal,
    hsame.trans hstore⟩

end Finality

/-! ## Runs -/

/-- The handlers of `edits` on the session, after a schedule. -/
def runEdits (env : SessionEnv) (store : Dict String Json) (files : Files)
    (session : MappingSession) (edits : List SessionEdit) (schedule : List Nat) :
    Pool SessionWorld SessionTask :=
  (sessionPool store files session (edits.map .edit)).run
    (fun w t => t.advance env session.id w) schedule

theorem finality_start (store : Dict String Json) (files : Files) (session : MappingSession)
    (edits : List SessionEdit) :
    FinalityInvariant session.id (sessionPool store files session (edits.map .edit)) := by
  refine ⟨⟨⟨session.stored, RedisMappingSessionStore.get_save .., rfl⟩, ?_⟩, .inl ?_⟩
  · intro t ht
    simp only [sessionPool, List.mem_map] at ht
    obtain ⟨_, ⟨e, _, rfl⟩, rfl⟩ := ht
    exact ⟨e, rfl, trivial⟩
  · refine Pool.collect_start _ fun r hr => ?_
    obtain ⟨e, _, rfl⟩ := List.mem_map.mp hr
    cases e <;> rfl

/-- **When FINALISED is final.** In every run whose saves find the status
their handlers have loaded, at most one finalise succeeds, and once the
stored session is FINALISED its document never changes. -/
theorem finalised_is_final (env : SessionEnv) (store : Dict String Json) (files : Files)
    (session : MappingSession) (edits : List SessionEdit) (schedule : List Nat)
    (hfresh : AllSteps (Pool.step fun w t => t.advance env session.id w) (SavesFresh session.id)
      (sessionPool store files session (edits.map .edit)) schedule) :
    ((runEdits env store files session edits schedule).collect finaliseSucceeded).length ≤ 1 ∧
      ∀ before after, schedule = before ++ after →
        StoredFinalised session.id (runEdits env store files session edits before).shared →
        (runEdits env store files session edits schedule).shared.store =
          (runEdits env store files session edits before).shared.store := by
  have hrun : ∀ {steps : List Nat}, AllSteps (Pool.step fun w t => t.advance env session.id w)
      (SavesFresh session.id) (sessionPool store files session (edits.map .edit)) steps →
      FinalityInvariant session.id (runEdits env store files session edits steps) := fun hsteps =>
    run_preserves (fun _ _ hp hf => finality_step env hp hf) hsteps
      (finality_start store files session edits)
  constructor
  · rcases (hrun hfresh).2 with hnil | ⟨hone, _⟩
    · simp [hnil]
    · simp [hone]
  · rintro before after rfl hfinal
    obtain ⟨hbefore, hafter⟩ := allSteps_append.mp hfresh
    have hsplit : runEdits env store files session edits (before ++ after) =
        after.foldl (Pool.step fun w t => t.advance env session.id w)
          (runEdits env store files session edits before) := by
      simp [runEdits, Pool.run]
    rw [hsplit]
    have hfrozen : Frozen session.id (runEdits env store files session edits before).shared.store
        (runEdits env store files session edits before) := ⟨hrun hbefore, hfinal, rfl⟩
    exact (run_preserves (fun _ _ hp hf => frozen_step env hp hf) hafter hfrozen).2.2

/-! ## Two schedules -/

/-- An edit of the mappings beside a finalise. -/
def editAndFinalise : List SessionEdit := [.putMappings [] [], .finalise]

/-- The edit starts after the finalise is done, and is refused. -/
theorem edit_after_finalise_refused :
    ((runEdits standardEnv ∅ gwpFiles draftSession editAndFinalise [1, 1, 1, 1, 0, 0]).collect
        finaliseSucceeded).length ≤ 1 ∧
      ∀ before after, [1, 1, 1, 1, 0, 0] = before ++ after →
        StoredFinalised draftSession.id
          (runEdits standardEnv ∅ gwpFiles draftSession editAndFinalise before).shared →
        (runEdits standardEnv ∅ gwpFiles draftSession editAndFinalise
          [1, 1, 1, 1, 0, 0]).shared.store =
          (runEdits standardEnv ∅ gwpFiles draftSession editAndFinalise before).shared.store := by
  refine finalised_is_final standardEnv ∅ gwpFiles draftSession editAndFinalise _ ?_
  refine ⟨savesFresh_of_phase rfl (by rintro _ _ ⟨⟩), savesFresh_of_phase rfl (by rintro _ _ ⟨⟩),
    ?_, savesFresh_of_phase rfl (by rintro _ _ ⟨⟩), savesFresh_of_phase rfl (by rintro _ _ ⟨⟩),
    savesFresh_of_phase rfl (by rintro _ _ ⟨⟩), trivial⟩
  -- the finalise saves, and the stored session is CREATED as its copy is
  intro t copy session ht hphase
  cases ht
  cases hphase
  rfl

/-- The edit has loaded its copy before the finalise, and saves after it:
the stored session is CREATED again. -/
theorem stale_edit_reopens :
    StoredFinalised draftSession.id
        (runEdits standardEnv ∅ gwpFiles draftSession editAndFinalise [0, 0, 1, 1, 1]).shared ∧
      ¬ StoredFinalised draftSession.id
        (runEdits standardEnv ∅ gwpFiles draftSession editAndFinalise
          ([0, 0, 1, 1, 1] ++ [0])).shared := by
  have hafter : (RedisMappingSessionStore.get (runEdits standardEnv ∅ gwpFiles draftSession
      editAndFinalise ([0, 0, 1, 1, 1] ++ [0])).shared.store draftSession.id).map
        MappingSession.status = some .created := rfl
  constructor
  · exact storedFinalised_iff.mpr rfl
  · rw [storedFinalised_iff, hafter]
    rintro ⟨⟩

end RiskFlow
