import RiskFlow.Http.Sessions

/-!
# SessionEdits — when no acknowledged edit is lost

A handler writes back the whole session it loaded. If every write finds
the store in a state where the handler, run alone, would write the same,
the run is equivalent to its successful requests one after the other, in
the order of their writes; without that a stale copy undoes what was
acknowledged in between.
-/

namespace RiskFlow

open Lib

section Serial
variable (env : SessionEnv) (sessionId : String)

/-- A handler whose write is done: its answer is, or will be, success. -/
def succeeded (t : SessionTask) : Option SessionRequest :=
  match t.phase with
  | .written _ => some t.request
  | .answered (.ok _) => some t.request
  | _ => none

/-! ## One request at a time -/

/-- A handler that takes all its steps before any other. -/
def serveAlone (w : SessionWorld) (r : SessionRequest) : Pool SessionWorld SessionTask :=
  Pool.run (fun w t => t.advance env sessionId w) ⟨w, [.begin r]⟩ [0, 0, 0, 0]

def afterAlone (w : SessionWorld) (r : SessionRequest) : SessionWorld :=
  (serveAlone env sessionId w r).shared

def SucceedsAlone (w : SessionWorld) (r : SessionRequest) : Prop :=
  (serveAlone env sessionId w r).collect succeeded = [r]

/-- `order` is a serial execution from `w` in which every request succeeds
and which leaves `store`. -/
def SerialRun (w : SessionWorld) (order : List SessionRequest) (store : Dict String Json) : Prop :=
  AllSteps (afterAlone env sessionId) (SucceedsAlone env sessionId) w order ∧
    (order.foldl (afterAlone env sessionId) w).store = store

/-- The successful requests have an order whose serial execution leaves the store. -/
def Serializable (start : SessionWorld) (p : Pool SessionWorld SessionTask) : Prop :=
  ∃ order : List SessionRequest, order.Perm (p.collect succeeded) ∧
    SerialRun env sessionId start order p.shared.store

/-- If task `i` is about to write, it finds the session it loaded: for new
mappings up to the mappings, for a deletion just a session. -/
def WritesFresh (p : Pool SessionWorld SessionTask) (i : Nat) : Prop :=
  ∀ t, p.tasks[i]? = some t →
    match t.request, t.phase with
    | .edit (.putMappings _ _), .saving copy _ =>
        ∃ stored, RedisMappingSessionStore.get p.shared.store sessionId = some stored ∧
          stored.SameButMappings copy
    | .edit _, .saving copy _ =>
        RedisMappingSessionStore.get p.shared.store sessionId = some copy
    | .delete, .deleting => RedisMappingSessionStore.get p.shared.store sessionId ≠ none
    | _, _ => True

/-- The session under this key has this id. -/
def WellKeyed (w : SessionWorld) : Prop :=
  ∀ session, RedisMappingSessionStore.get w.store sessionId = some session → session.id = sessionId

variable {env sessionId} {w : SessionWorld}

theorem serializable_iff {start : SessionWorld} {p : Pool SessionWorld SessionTask} :
    Serializable env sessionId start p ↔
      p.Linearized (afterAlone env sessionId) (SucceedsAlone env sessionId)
        (fun alone w => alone.store = w.store) succeeded start := Iff.rfl

theorem alone_edit {e : SessionEdit} {stored session : MappingSession}
    (hget : RedisMappingSessionStore.get w.store sessionId = some stored)
    (happly : e.apply env w.files stored = .ok session) :
    afterAlone env sessionId w (.edit e) =
        { w with store := RedisMappingSessionStore.save w.store session } ∧
      SucceedsAlone env sessionId w (.edit e) := by
  simp [afterAlone, SucceedsAlone, serveAlone, SessionTask.begin, SessionTask.advance, hget, happly,
    Pool.collect, succeeded]

theorem alone_delete {stored : MappingSession}
    (hget : RedisMappingSessionStore.get w.store sessionId = some stored) :
    (afterAlone env sessionId w .delete).store =
        RedisMappingSessionStore.delete w.store sessionId ∧
      SucceedsAlone env sessionId w .delete := by
  simp [afterAlone, SucceedsAlone, serveAlone, SessionTask.begin, SessionTask.advance, hget,
    Pool.collect, succeeded]

theorem alone_missing {r : SessionRequest}
    (hget : RedisMappingSessionStore.get w.store sessionId = none) :
    ¬ SucceedsAlone env sessionId w r := by
  simp [SucceedsAlone, serveAlone, SessionTask.begin, SessionTask.advance, hget, Pool.collect,
    List.filterMap_cons, succeeded]

theorem alone_refused {e : SessionEdit} {stored : MappingSession} {err : HttpException}
    (hget : RedisMappingSessionStore.get w.store sessionId = some stored)
    (happly : e.apply env w.files stored = .error err) :
    ¬ SucceedsAlone env sessionId w (.edit e) := by
  simp [SucceedsAlone, serveAlone, SessionTask.begin, SessionTask.advance, hget, happly,
    Pool.collect, List.filterMap_cons, succeeded]

/-- What a request that succeeds alone found and did. -/
theorem succeedsAlone_cases {r : SessionRequest} (h : SucceedsAlone env sessionId w r) :
    ∃ stored, RedisMappingSessionStore.get w.store sessionId = some stored ∧
      match r with
      | .edit e => ∃ session, e.apply env w.files stored = .ok session ∧
          (afterAlone env sessionId w r).store = RedisMappingSessionStore.save w.store session
      | .delete =>
          (afterAlone env sessionId w r).store =
            RedisMappingSessionStore.delete w.store sessionId := by
  cases hget : RedisMappingSessionStore.get w.store sessionId with
  | none => exact absurd h (alone_missing hget)
  | some stored =>
      refine ⟨stored, rfl, ?_⟩
      cases r with
      | delete => exact (alone_delete hget).1
      | edit e =>
          cases happly : e.apply env w.files stored with
          | error err => exact absurd h (alone_refused hget happly)
          | ok session => exact ⟨session, happly, by rw [(alone_edit hget happly).1]⟩

/-- An edit that is no finalise does not look at the files. -/
theorem SessionEdit.apply_files {e : SessionEdit} (he : e ≠ .finalise) (files files' : Files)
    (copy : MappingSession) : e.apply env files copy = e.apply env files' copy := by
  cases e with
  | finalise => exact absurd rfl he
  | _ => rfl

/-! ## What a serial run keeps -/

/-- The stored session has the target field. -/
def HasField (sessionId : String) (w : SessionWorld) (f : String) : Prop :=
  ∃ session, RedisMappingSessionStore.get w.store sessionId = some session ∧
    f ∈ session.targetFields

/-- No edit takes a target field away, and a PATCH adds its own. -/
theorem apply_targetFields {e : SessionEdit} {files : Files} {copy session : MappingSession}
    (h : e.apply env files copy = .ok session) :
    (∀ f ∈ copy.targetFields, f ∈ session.targetFields) ∧
      ∀ fields, e = .patchTargetFields fields → ∀ f ∈ fields, f ∈ session.targetFields := by
  cases e with
  | putMappings mappings unmapped =>
      obtain ⟨_, rfl⟩ := MappingSession.updateMappings_ok (updateSessionMappings_ok h)
      exact ⟨fun f hf => hf, by rintro _ ⟨⟩⟩
  | patchTargetFields fields =>
      obtain ⟨_, rfl⟩ := MappingSession.extendTargetFields_ok (extendSessionFields_ok h)
      refine ⟨fun f hf => MappingSession.mem_appendFields.mpr (.inl hf), ?_⟩
      rintro _ ⟨⟩ f hf
      exact MappingSession.mem_appendFields.mpr (.inr hf)
  | finalise =>
      obtain ⟨result, hf⟩ := finaliseSession_ok h
      obtain ⟨_, rfl⟩ := MappingSession.finalise_ok hf
      exact ⟨fun f hf => hf, by rintro _ ⟨⟩⟩

theorem get_save_keyed {store : Dict String Json} {session : MappingSession}
    (h : session.id = sessionId) :
    RedisMappingSessionStore.get (RedisMappingSessionStore.save store session) sessionId =
      some session.stored := by
  subst h
  exact RedisMappingSessionStore.get_save store session

/-- One request that succeeds: the session it leaves. -/
theorem afterAlone_get {r : SessionRequest} (hw : WellKeyed sessionId w)
    (h : SucceedsAlone env sessionId w r) :
    match r with
    | .delete => RedisMappingSessionStore.get (afterAlone env sessionId w r).store sessionId = none
    | .edit e => ∃ stored session, RedisMappingSessionStore.get w.store sessionId = some stored ∧
        e.apply env w.files stored = .ok session ∧ session.id = sessionId ∧
        RedisMappingSessionStore.get (afterAlone env sessionId w r).store sessionId =
          some session.stored := by
  obtain ⟨stored, hget, heffect⟩ := succeedsAlone_cases h
  cases r with
  | delete =>
      dsimp only at heffect ⊢
      rw [heffect, RedisMappingSessionStore.get_delete]
  | edit e =>
      obtain ⟨session, happly, hstore⟩ := heffect
      have hid : session.id = sessionId := by
        rw [(SessionEdit.apply_ok happly).2]
        exact hw stored hget
      exact ⟨stored, session, hget, happly, hid, by rw [hstore, get_save_keyed hid]⟩

theorem wellKeyed_alone {r : SessionRequest} (hw : WellKeyed sessionId w)
    (h : SucceedsAlone env sessionId w r) : WellKeyed sessionId (afterAlone env sessionId w r) := by
  have hafter := afterAlone_get hw h
  intro session hget
  cases r with
  | delete =>
      dsimp only at hafter
      rw [hafter] at hget
      cases hget
  | edit e =>
      obtain ⟨_, session', _, _, hid, hget'⟩ := hafter
      rw [hget'] at hget
      cases hget
      exact hid

/-- After a deletion no request succeeds. -/
theorem serial_of_deleted {order : List SessionRequest}
    (hnone : RedisMappingSessionStore.get w.store sessionId = none)
    (h : AllSteps (afterAlone env sessionId) (SucceedsAlone env sessionId) w order) :
    order = [] := by
  cases order with
  | nil => rfl
  | cons r rest =>
      obtain ⟨stored, hget, _⟩ := succeedsAlone_cases h.1
      rw [hnone] at hget
      cases hget

/-- **A serial run keeps what it acknowledged**: a deleted session is gone,
and without a deletion every field that was there or was patched in is. -/
theorem serial_keeps {order : List SessionRequest} (hw : WellKeyed sessionId w)
    (h : AllSteps (afterAlone env sessionId) (SucceedsAlone env sessionId) w order) :
    (.delete ∈ order → RedisMappingSessionStore.get
        (order.foldl (afterAlone env sessionId) w).store sessionId = none) ∧
      (.delete ∉ order → ∀ f, (HasField sessionId w f ∨
          ∃ fields, .edit (.patchTargetFields fields) ∈ order ∧ f ∈ fields) →
        HasField sessionId (order.foldl (afterAlone env sessionId) w) f) := by
  -- the head request decides: after a delete nothing can follow, an edit keeps the fields
  induction order generalizing w with
  | nil =>
      refine ⟨by rintro ⟨⟩, ?_⟩
      rintro _ f (hf | ⟨fields, hmem, _⟩)
      · exact hf
      · cases hmem
  | cons r rest ih =>
      have hafter := afterAlone_get hw h.1
      have hkeyed := wellKeyed_alone hw h.1
      obtain ⟨hdeleted, hkept⟩ := ih hkeyed h.2
      rw [List.foldl_cons]
      cases r with
      | delete =>
          dsimp only at hafter
          rw [serial_of_deleted hafter h.2]
          exact ⟨fun _ => hafter, fun hno => absurd (List.mem_singleton.mpr rfl) hno⟩
      | edit e =>
          obtain ⟨stored, session, hget, happly, _, hget'⟩ := hafter
          obtain ⟨hold, hnew⟩ := apply_targetFields happly
          constructor
          · intro hmem
            rcases List.mem_cons.mp hmem with heq | hmem
            · cases heq
            · exact hdeleted hmem
          · intro hno f hf
            refine hkept (fun hmem => hno (List.mem_cons_of_mem _ hmem)) f ?_
            rcases hf with ⟨s, hs, hfield⟩ | ⟨fields, hmem, hfield⟩
            · rw [hget] at hs
              cases hs
              exact .inl ⟨_, hget', hold f hfield⟩
            · rcases List.mem_cons.mp hmem with heq | hmem
              · cases heq
                exact .inl ⟨_, hget', hnew fields rfl f hfield⟩
              · exact .inr ⟨fields, hmem, hfield⟩

end Serial

/-! ## Runs -/

section Runs
variable (env : SessionEnv) (sessionId : String)

/-- What a handler that does not finalise carries from its load to its write. -/
def WriteInFlight (t : SessionTask) : Prop :=
  match t.request with
  | .delete => ∀ copy session, t.phase ≠ .saving copy session
  | .edit e => e ≠ .finalise ∧
      match t.phase with
      | .saving copy session => ∀ files, e.apply env files copy = .ok session
      | .deleting => False
      | _ => True

def EditsInvariant (start : SessionWorld) (p : Pool SessionWorld SessionTask) : Prop :=
  p.Holds (fun _ => True) (fun _ t => WriteInFlight env t) ∧
    Serializable env sessionId start p

variable {env sessionId}

/-- A fresh write is the one the handler would do alone. -/
theorem fresh_write {w alone : SessionWorld} {t : SessionTask} {copy session : MappingSession}
    {e : SessionEdit} (hrequest : t.request = .edit e) (hphase : t.phase = .saving copy session)
    (hflight : WriteInFlight env t) (hsame : alone.store = w.store)
    (hfresh : match e with
      | .putMappings _ _ => ∃ stored, RedisMappingSessionStore.get w.store sessionId = some stored ∧
          stored.SameButMappings copy
      | _ => RedisMappingSessionStore.get w.store sessionId = some copy) :
    (afterAlone env sessionId alone (.edit e)).store =
        RedisMappingSessionStore.save w.store session ∧
      SucceedsAlone env sessionId alone (.edit e) := by
  unfold WriteInFlight at hflight
  rw [hrequest, hphase] at hflight
  obtain ⟨hne, happly⟩ := hflight
  have halone : ∃ stored, RedisMappingSessionStore.get alone.store sessionId = some stored ∧
      e.apply env alone.files stored = .ok session := by
    rw [hsame]
    cases e with
    | finalise => exact absurd rfl hne
    | patchTargetFields fields => exact ⟨copy, hfresh, happly _⟩
    -- the copy may be older in the mappings, which the edit overwrites unread
    | putMappings mappings unmapped =>
        obtain ⟨stored, hget, hbut⟩ := hfresh
        refine ⟨stored, hget, ?_⟩
        rw [← happly alone.files]
        simp only [SessionEdit.apply, updateSessionMappings,
          MappingSession.updateMappings_congr hbut]
  obtain ⟨stored, hget, hok⟩ := halone
  obtain ⟨hafter, hsucceeds⟩ := alone_edit hget hok
  exact ⟨by rw [hafter, hsame], hsucceeds⟩

theorem writeInFlight_advance (env : SessionEnv) {w : SessionWorld} {t : SessionTask}
    (h : WriteInFlight env t) : WriteInFlight env (t.advance env sessionId w).2 := by
  obtain ⟨request, phase⟩ := t
  cases request with
  | delete =>
      cases phase with
      | saving copy session => exact absurd rfl (h copy session)
      | loaded copy => cases copy <;> rintro _ _ ⟨⟩
      | answered answer => exact h
      | _ => rintro _ _ ⟨⟩
  | edit e =>
      cases phase with
      | deleting => exact h.2.elim
      | loaded copy =>
          cases copy with
          | none => exact ⟨h.1, trivial⟩
          | some copy =>
              cases happly : e.apply env w.files copy with
              | error err =>
                  simp only [SessionTask.advance, happly]
                  exact ⟨h.1, trivial⟩
              | ok session =>
                  simp only [SessionTask.advance, happly]
                  refine ⟨h.1, fun files => ?_⟩
                  rw [SessionEdit.apply_files h.1 files w.files copy, happly]
      | _ => exact ⟨h.1, trivial⟩

/-- A handler that is not about to write leaves the store alone. -/
theorem advance_unwritten (env : SessionEnv) (sessionId : String) {w : SessionWorld}
    {t : SessionTask}
    (hsaving : ∀ copy session, t.phase ≠ .saving copy session) (hdeleting : t.phase ≠ .deleting) :
    (t.advance env sessionId w).1.store = w.store ∧
      succeeded (t.advance env sessionId w).2 = succeeded t := by
  obtain ⟨request, phase⟩ := t
  cases phase with
  | loaded copy =>
      cases copy with
      | none => exact ⟨rfl, rfl⟩
      | some copy =>
          cases request with
          | delete => exact ⟨rfl, rfl⟩
          | edit e =>
              simp only [SessionTask.advance]
              split <;> exact ⟨rfl, rfl⟩
  | saving copy session => exact absurd rfl (hsaving copy session)
  | deleting => exact absurd rfl hdeleting
  | _ => exact ⟨rfl, rfl⟩

/-- A handler about to write does, if its copy is fresh, what it would do alone. -/
theorem advance_write (env : SessionEnv) {p : Pool SessionWorld SessionTask} {i : Nat}
    {t : SessionTask} (ht : p.tasks[i]? = some t) (hflight : WriteInFlight env t)
    (hfresh : WritesFresh sessionId p i)
    (hphase : (∃ copy session, t.phase = .saving copy session) ∨ t.phase = .deleting) :
    succeeded t = none ∧ succeeded (t.advance env sessionId p.shared).2 = some t.request ∧
      ∀ alone : SessionWorld, alone.store = p.shared.store →
        SucceedsAlone env sessionId alone t.request ∧
          (afterAlone env sessionId alone t.request).store =
            (t.advance env sessionId p.shared).1.store := by
  have hcopy := hfresh t ht
  obtain ⟨request, phase⟩ := t
  rcases hphase with ⟨copy, session, rfl⟩ | rfl
  · cases request with
    | delete => exact absurd rfl (hflight copy session)
    | edit e =>
        refine ⟨rfl, rfl, fun alone hsame => ?_⟩
        have halone := fresh_write (w := p.shared) rfl rfl hflight hsame
          (by cases e <;> exact hcopy)
        exact ⟨halone.2, halone.1⟩
  · cases request with
    | edit e => exact hflight.2.elim
    | delete =>
        refine ⟨rfl, rfl, fun alone hsame => ?_⟩
        obtain ⟨stored, hget⟩ := Option.ne_none_iff_exists'.mp hcopy
        obtain ⟨hafter, hsucceeds⟩ : (afterAlone env sessionId alone .delete).store =
            RedisMappingSessionStore.delete alone.store sessionId ∧
              SucceedsAlone env sessionId alone .delete := alone_delete (hsame ▸ hget)
        exact ⟨hsucceeds, by rw [hafter, hsame]; rfl⟩

/-- **One step keeps the invariant**, if a write is fresh. -/
theorem edits_step (env : SessionEnv) {start : SessionWorld} {p : Pool SessionWorld SessionTask}
    {i : Nat} (hp : EditsInvariant env sessionId start p) (hfresh : WritesFresh sessionId p i) :
    EditsInvariant env sessionId start (p.step (fun w t => t.advance env sessionId w) i) := by
  obtain ⟨hholds, hserial⟩ := hp
  constructor
  · apply Pool.step_holds _ hholds
    intro t ht
    have hmem := List.mem_of_getElem? ht
    exact ⟨trivial, writeInFlight_advance env (hholds.2 t hmem), fun u _ hu => hu⟩
  · rw [serializable_iff] at hserial ⊢
    apply Pool.linearized_step _ hserial
    intro t ht
    -- only these two phases write to the store
    by_cases hphase : (∃ copy session, t.phase = .saving copy session) ∨ t.phase = .deleting
    · obtain ⟨hbefore, hafter, halone⟩ :=
        advance_write env ht (hholds.2 t (List.mem_of_getElem? ht)) hfresh hphase
      exact .inr ⟨t.request, hbefore, hafter, halone⟩
    · obtain ⟨hsaving, hdeleting⟩ := not_or.mp hphase
      obtain ⟨hstore, hsame⟩ := advance_unwritten env sessionId (w := p.shared)
        (fun copy session heq => hsaving ⟨copy, session, heq⟩) hdeleting
      exact .inl ⟨hsame, fun alone halone => halone.trans hstore.symm⟩

end Runs

/-- The handlers of `requests` on the session, after a schedule. -/
def runRequests (env : SessionEnv) (store : Dict String Json) (files : Files)
    (session : MappingSession) (requests : List SessionRequest) (schedule : List Nat) :
    Pool SessionWorld SessionTask :=
  (sessionPool store files session requests).run (fun w t => t.advance env session.id w) schedule

theorem edits_start (env : SessionEnv) (store : Dict String Json) (files : Files)
    (session : MappingSession) {requests : List SessionRequest} (h : .edit .finalise ∉ requests) :
    EditsInvariant env session.id (sessionPool store files session requests).shared
      (sessionPool store files session requests) := by
  refine ⟨⟨trivial, fun t ht => ?_⟩, [], ?_, trivial, rfl⟩
  · obtain ⟨r, hr, rfl⟩ := List.mem_map.mp ht
    cases r with
    | delete => rintro _ _ ⟨⟩
    | edit e => exact ⟨by rintro rfl; exact h hr, trivial⟩
  · rw [sessionPool, Pool.collect_start _ fun _ _ => rfl]

/-- **When no acknowledged edit is lost.** In every run of PUT, PATCH and
DELETE handlers whose writes are fresh, the store is what the successful
requests leave when served one after the other: a field whose PATCH
succeeded is there unless a DELETE succeeded, and then the session is gone. -/
theorem acknowledged_edits_kept (env : SessionEnv) (store : Dict String Json) (files : Files)
    (session : MappingSession) (requests : List SessionRequest) (schedule : List Nat)
    (hedits : .edit .finalise ∉ requests)
    (hfresh : AllSteps (Pool.step fun w t => t.advance env session.id w) (WritesFresh session.id)
      (sessionPool store files session requests) schedule) :
    Serializable env session.id (sessionPool store files session requests).shared
        (runRequests env store files session requests schedule) ∧
      (.delete ∉ (runRequests env store files session requests schedule).collect succeeded →
        ∀ fields, .edit (.patchTargetFields fields) ∈
            (runRequests env store files session requests schedule).collect succeeded →
          ∀ f ∈ fields,
            HasField session.id (runRequests env store files session requests schedule).shared f) ∧
      (.delete ∈ (runRequests env store files session requests schedule).collect succeeded →
        RedisMappingSessionStore.get
          (runRequests env store files session requests schedule).shared.store
          session.id = none) := by
  have hinv : EditsInvariant env session.id (sessionPool store files session requests).shared
      (runRequests env store files session requests schedule) :=
    run_preserves (fun _ _ hp hf => edits_step env hp hf) hfresh
      (edits_start env store files session hedits)
  refine ⟨hinv.2, ?_⟩
  obtain ⟨order, hperm, horder, hstore⟩ := hinv.2
  have hkeyed : WellKeyed session.id (sessionPool store files session requests).shared := by
    intro stored hget
    have hsaved : RedisMappingSessionStore.get (RedisMappingSessionStore.save store session)
        session.id = some stored := hget
    rw [RedisMappingSessionStore.get_save] at hsaved
    cases hsaved
    rfl
  obtain ⟨hdeleted, hkept⟩ := serial_keeps hkeyed horder
  constructor
  · intro hno fields hmem f hf
    obtain ⟨kept, hget, hfield⟩ := hkept (fun h => hno (hperm.mem_iff.mp h)) f
      (.inr ⟨fields, hperm.mem_iff.mpr hmem, hf⟩)
    exact ⟨kept, hstore ▸ hget, hfield⟩
  · intro hmem
    rw [← hstore]
    exact hdeleted (hperm.mem_iff.mpr hmem)

/-! ## Two schedules -/

/-- The mappings are cleared twice and a field is added. -/
def clearTwiceAndExtend : List SessionRequest :=
  [.edit (.putMappings [] []), .edit (.putMappings [] ["GWP"]),
    .edit (.patchTargetFields ["Broker_Code"])]

/-- The second PUT saves a copy loaded before the first one's save, which
differs from the stored session in the mappings only. -/
theorem interleaved_puts_kept :
    Serializable standardEnv draftSession.id
        (sessionPool ∅ gwpFiles draftSession clearTwiceAndExtend).shared
        (runRequests standardEnv ∅ gwpFiles draftSession clearTwiceAndExtend
          [0, 0, 1, 1, 0, 1, 2, 2, 2, 2]) ∧
      HasField draftSession.id (runRequests standardEnv ∅ gwpFiles draftSession
        clearTwiceAndExtend [0, 0, 1, 1, 0, 1, 2, 2, 2, 2]).shared "Broker_Code" := by
  have hcollect : (runRequests standardEnv ∅ gwpFiles draftSession clearTwiceAndExtend
      [0, 0, 1, 1, 0, 1, 2, 2, 2, 2]).collect succeeded = clearTwiceAndExtend := rfl
  obtain ⟨hserial, hkept, _⟩ := acknowledged_edits_kept standardEnv ∅ gwpFiles draftSession
    clearTwiceAndExtend [0, 0, 1, 1, 0, 1, 2, 2, 2, 2] (by simp [clearTwiceAndExtend]) (by
      refine ⟨?_, ?_, ?_, ?_, ?_, ?_, ?_, ?_, ?_, ?_, trivial⟩
      all_goals
        rintro t ⟨⟩
      · trivial
      · trivial
      · trivial
      · trivial
      · exact ⟨_, rfl, rfl⟩
      · exact ⟨_, rfl, rfl⟩
      · trivial
      · trivial
      · rfl
      · trivial)
  refine ⟨hserial, hkept ?_ ["Broker_Code"] ?_ "Broker_Code" (by simp)⟩
  · rw [hcollect]
    simp [clearTwiceAndExtend]
  · rw [hcollect]
    simp [clearTwiceAndExtend]

/-- A PUT has loaded its copy before a PATCH, or a DELETE, is answered with
success, and saves after it: the field is lost, the session comes back. -/
theorem stale_put_undoes :
    ((runRequests standardEnv ∅ gwpFiles draftSession
        [.edit (.putMappings [] []), .edit (.patchTargetFields ["Broker_Code"])]
        [0, 0, 1, 1, 1, 1, 0, 0]).collect succeeded =
          [.edit (.putMappings [] []), .edit (.patchTargetFields ["Broker_Code"])] ∧
      ¬ HasField draftSession.id (runRequests standardEnv ∅ gwpFiles draftSession
        [.edit (.putMappings [] []), .edit (.patchTargetFields ["Broker_Code"])]
        [0, 0, 1, 1, 1, 1, 0, 0]).shared "Broker_Code") ∧
      (runRequests standardEnv ∅ gwpFiles draftSession [.edit (.putMappings [] []), .delete]
        [0, 0, 1, 1, 1, 1, 0, 0]).collect succeeded = [.edit (.putMappings [] []), .delete] ∧
      RedisMappingSessionStore.get (runRequests standardEnv ∅ gwpFiles draftSession
        [.edit (.putMappings [] []), .delete] [0, 0, 1, 1, 1, 1, 0, 0]).shared.store
          draftSession.id ≠ none := by
  have hfields : (RedisMappingSessionStore.get (runRequests standardEnv ∅ gwpFiles draftSession
      [.edit (.putMappings [] []), .edit (.patchTargetFields ["Broker_Code"])]
      [0, 0, 1, 1, 1, 1, 0, 0]).shared.store draftSession.id).map MappingSession.targetFields =
        some ["Gross_Premium"] := rfl
  have hback : (RedisMappingSessionStore.get (runRequests standardEnv ∅ gwpFiles draftSession
      [.edit (.putMappings [] []), .delete] [0, 0, 1, 1, 1, 1, 0, 0]).shared.store
        draftSession.id).isSome = true := rfl
  refine ⟨⟨rfl, ?_⟩, rfl, Option.isSome_iff_ne_none.mp hback⟩
  rintro ⟨session, hget, hmem⟩
  rw [hget] at hfields
  rw [Option.some.inj hfields] at hmem
  exact absurd hmem (by decide)

end RiskFlow
