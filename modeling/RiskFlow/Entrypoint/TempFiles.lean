import RiskFlow.Http.SessionCreation

/-!
# TempFiles — the cleanup at a start and the files of the sessions

Two clocks: the store forgets a session one TTL after its last save, and a
start removes the temp files last modified more than a TTL ago. A save
restarts the first clock and leaves the second as it was at the upload.
-/

namespace RiskFlow

open Lib

/-! ## Cleanup -/

/-- `session_ttl` of `_cleanup_orphaned_temp_files`. -/
def sessionTtl : ℚ := 3600

/-- The names `glob` is asked for: everything in the temp directory that
starts with `riskflow_`. -/
def tempPrefix (tempDir : String) : String := tempDir ++ "/riskflow_"

/-- The file matches and was modified before the cutoff. -/
def orphaned (tempDir : String) (now : ℚ) (path : String) (mtime : ℚ) : Bool :=
  Py.startsWith path (tempPrefix tempDir) && decide (mtime < now - sessionTtl)

/-- `_cleanup_orphaned_temp_files`, on the files with their modification times. -/
def cleanupOrphanedTempFiles (tempDir : String) (now : ℚ) (disk : Dict String ℚ) : Dict String ℚ :=
  disk.filterMap fun path mtime => if orphaned tempDir now path mtime then none else some mtime

/-! ## Runs -/

/-- The clocks of an upload: when it was, and whether a start has come later
than a TTL after it. -/
structure UploadClock where
  uploaded : ℚ
  swept : Bool := false

/-- The clocks of a session: those of its file, and its last save. -/
structure SessionClock extends UploadClock where
  path : String
  saved : ℚ

/-- The session store, the temp files and the copies the handlers hold. The
names given, the uploads without a session and the clocks of the sessions
are kept for the statements; no handler reads them. -/
structure TempWorld where
  store : Dict String (Leased Json ℚ) := ∅
  disk : Dict String ℚ := ∅
  copies : Dict Nat MappingSession := ∅
  names : List String := []
  uploads : Dict String UploadClock := ∅
  clocks : Dict String SessionClock := ∅

/-- What happens at a moment. A creation writes its file and saves its session
after the mapper has answered; the other handlers load and save. -/
inductive TempEvent where
  | upload (temp : TempName) (file : UploadFile)
  | create (session : MappingSession)
  | load (handler : Nat) (sessionId : String)
  | save (handler : Nat) (env : SessionEnv) (files : Files) (e : SessionEdit)
  | start

/-- A start at `now` finds an upload of more than a TTL ago. -/
def UploadClock.sweep (now : ℚ) (c : UploadClock) : UploadClock :=
  { c with swept := c.swept || decide (c.uploaded + sessionTtl < now) }

def SessionClock.sweep (now : ℚ) (c : SessionClock) : SessionClock :=
  { c with toUploadClock := c.toUploadClock.sweep now }

/-- The clock of the session's saves starts anew. -/
def noteSave (clocks : Dict String SessionClock) (now : ℚ) (sessionId : String) :
    Dict String SessionClock :=
  match clocks.get? sessionId with
  | none => clocks
  | some c => clocks.set sessionId { c with saved := now }

/-- One event. `tempfile` gives no name twice and `uuid4` no identifier, so
an event that would changes nothing. -/
def TempWorld.step (tempDir : String) (w : TempWorld) (te : ℚ × TempEvent) : TempWorld :=
  let now := te.1
  match te.2 with
  | .upload temp file =>
      let path := tempPath { temp with dir := tempDir } file
      if path ∈ w.names then w
      else
        { w with
          disk := w.disk.set path now
          names := path :: w.names
          uploads := w.uploads.set path { uploaded := now } }
  | .create session =>
      match w.uploads.get? session.filePath with
      | none => w
      | some c =>
          if session.id ∈ w.clocks.keys then w
          else
            { w with
              store := RedisMappingSessionStore.saveAt w.store now session
              uploads := w.uploads.erase session.filePath
              clocks := w.clocks.set session.id
                { toUploadClock := c, path := session.filePath, saved := now } }
  | .load handler sessionId =>
      match RedisMappingSessionStore.getAt w.store now sessionId with
      | none => w
      | some copy => { w with copies := w.copies.set handler copy }
  -- the copy is edited and written back, whether or not its session has expired by now
  | .save handler env files e =>
      match w.copies.get? handler with
      | none => w
      | some copy =>
          match e.apply env files copy with
          | .error _ => { w with copies := w.copies.erase handler }
          | .ok session =>
              { w with
                store := RedisMappingSessionStore.saveAt w.store now session
                copies := w.copies.erase handler
                clocks := noteSave w.clocks now session.id }
  | .start =>
      { w with
        disk := cleanupOrphanedTempFiles tempDir now w.disk
        uploads := w.uploads.mapValues (UploadClock.sweep now)
        clocks := w.clocks.mapValues (SessionClock.sweep now) }

/-- The file of every session in the store is left where it is. -/
def SparesLive (tempDir : String) (w : TempWorld) (te : ℚ × TempEvent) : Prop :=
  te.2 = .start → ∀ sessionId session,
    RedisMappingSessionStore.getAt w.store te.1 sessionId = some session →
    session.filePath ∈ w.disk.keys → session.filePath ∈ (w.step tempDir te).disk.keys

/-- Every session saved within the last TTL was uploaded within the last TTL
as well, unless its file was removed by an earlier start. -/
def ClocksAgree (w : TempWorld) (te : ℚ × TempEvent) : Prop :=
  te.2 = .start → ∀ sessionId c, w.clocks.get? sessionId = some c →
    te.1 < c.saved + RedisMappingSessionStore.defaultTtl →
    te.1 ≤ c.uploaded + sessionTtl ∨ c.swept = true

/-! ## The invariant -/

section Invariant
variable {tempDir : String} {w : TempWorld}

/-- The file of the path is as its clock says. -/
structure UploadClock.Tracks (tempDir : String) (disk : Dict String ℚ) (names : List String)
    (path : String) (c : UploadClock) : Prop where
  named : path ∈ names
  matched : Py.startsWith path (tempPrefix tempDir) = true
  disk : disk.get? path = if c.swept then none else some c.uploaded

/-- The session of the clock is in the store until a TTL after its last save. -/
def SessionClock.Keeps (store : Dict String (Leased Json ℚ)) (sessionId : String)
    (c : SessionClock) : Prop :=
  ∃ session : MappingSession, session.id = sessionId ∧ session.filePath = c.path ∧
    ∀ now, RedisMappingSessionStore.getAt store now sessionId =
      if now < c.saved + RedisMappingSessionStore.defaultTtl then some session else none

/-- Store, disk and copies are what the clocks say. -/
structure TempWorld.Timed (tempDir : String) (w : TempWorld) : Prop where
  sessions : ∀ id c, w.clocks.get? id = some c →
    c.Keeps w.store id ∧ c.Tracks tempDir w.disk w.names c.path
  others : ∀ id, w.clocks.get? id = none → ∀ now,
    RedisMappingSessionStore.getAt w.store now id = none
  uploads : ∀ path c, w.uploads.get? path = some c → c.Tracks tempDir w.disk w.names path
  copies : ∀ handler copy, w.copies.get? handler = some copy →
    ∃ c, w.clocks.get? copy.id = some c ∧ copy.filePath = c.path

/-- A session in the store has a clock. -/
theorem clock_of_getAt (hw : w.Timed tempDir) {now : ℚ} {sessionId : String}
    {session : MappingSession}
    (h : RedisMappingSessionStore.getAt w.store now sessionId = some session) :
    ∃ c, w.clocks.get? sessionId = some c ∧
      now < c.saved + RedisMappingSessionStore.defaultTtl ∧ session.id = sessionId ∧
      session.filePath = c.path := by
  cases hclock : w.clocks.get? sessionId with
  | none =>
      rw [hw.others sessionId hclock now] at h
      cases h
  | some c =>
      obtain ⟨⟨kept, hid, hpath, hget⟩, _⟩ := hw.sessions sessionId c hclock
      rw [hget now] at h
      split at h
      · rename_i hlive
        cases h
        exact ⟨c, rfl, hlive, hid, hpath⟩
      · cases h

/-- A file removed by a start is one that an upload of more than a TTL ago left. -/
theorem get?_cleanup {disk : Dict String ℚ} {now : ℚ} {path : String} {c : UploadClock}
    (hmatched : Py.startsWith path (tempPrefix tempDir) = true)
    (hdisk : disk.get? path = if c.swept then none else some c.uploaded) :
    (cleanupOrphanedTempFiles tempDir now disk).get? path =
      if (c.sweep now).swept then none else some c.uploaded := by
  have hcutoff : c.uploaded < now - sessionTtl ↔ c.uploaded + sessionTtl < now := lt_sub_iff_add_lt
  rw [cleanupOrphanedTempFiles, Dict.get?_filterMap, hdisk]
  cases hswept : c.swept with
  | true => simp [UploadClock.sweep, hswept]
  | false => simp [UploadClock.sweep, hswept, orphaned, hmatched, hcutoff]

theorem timed_upload (hw : w.Timed tempDir) (now : ℚ) (temp : TempName) (file : UploadFile) :
    (w.step tempDir (now, .upload temp file)).Timed tempDir := by
  simp only [TempWorld.step]
  split
  · exact hw
  · rename_i hfresh
    have hother : ∀ {path : String} {c : UploadClock}, c.Tracks tempDir w.disk w.names path →
        c.Tracks tempDir (w.disk.set (tempPath { temp with dir := tempDir } file) now)
          (tempPath { temp with dir := tempDir } file :: w.names) path := by
      intro path c htracks
      have hne : tempPath { temp with dir := tempDir } file ≠ path := by
        intro heq
        rw [heq] at hfresh
        exact hfresh htracks.named
      refine ⟨List.mem_cons_of_mem _ htracks.named, htracks.matched, ?_⟩
      rw [Dict.get?_set_ne _ _ hne]
      exact htracks.disk
    refine ⟨fun id c hget => ?_, hw.others, ?_, hw.copies⟩
    · obtain ⟨hkeeps, htracks⟩ := hw.sessions id c hget
      exact ⟨hkeeps, hother htracks⟩
    · intro path c hget
      simp only [Dict.get?_set] at hget
      split at hget
      · rename_i hpath
        cases hget
        subst hpath
        refine ⟨List.mem_cons_self, ?_, Dict.get?_set_self _ _ _⟩
        simp only [tempPath, tempPrefix, String.append_assoc]
        rw [← String.append_assoc]
        exact Py.startsWith_append _ _
      · exact hother (hw.uploads path c hget)

/-- A save of a session that has this clock from then on. -/
theorem keeps_saveAt (store : Dict String (Leased Json ℚ)) {now : ℚ} {session : MappingSession}
    {c : SessionClock} (hpath : session.filePath = c.path) (hsaved : c.saved = now) :
    c.Keeps (RedisMappingSessionStore.saveAt store now session) session.id := by
  refine ⟨session.stored, rfl, hpath, fun later => ?_⟩
  rw [hsaved]
  exact RedisMappingSessionStore.getAt_saveAt_self store now later session

/-- A save leaves the other sessions where they are. -/
theorem keeps_saveAt_ne {store : Dict String (Leased Json ℚ)} {now : ℚ} {session : MappingSession}
    {id : String} {c : SessionClock} (hne : session.id ≠ id) (h : c.Keeps store id) :
    c.Keeps (RedisMappingSessionStore.saveAt store now session) id := by
  obtain ⟨kept, hid, hpath, hget⟩ := h
  refine ⟨kept, hid, hpath, fun later => ?_⟩
  rw [RedisMappingSessionStore.getAt_saveAt_ne _ _ _ hne]
  exact hget later

/-- After a save the clocks of the sessions are right again, if the clock of
the saved one has been set. -/
theorem sessions_saveAt (hw : w.Timed tempDir) {now : ℚ} {session : MappingSession}
    {c : SessionClock} (hpath : session.filePath = c.path) (hsaved : c.saved = now)
    (htracks : c.Tracks tempDir w.disk w.names c.path) :
    (∀ id c', (w.clocks.set session.id c).get? id = some c' →
        c'.Keeps (RedisMappingSessionStore.saveAt w.store now session) id ∧
          c'.Tracks tempDir w.disk w.names c'.path) ∧
      ∀ id, (w.clocks.set session.id c).get? id = none → ∀ later,
        RedisMappingSessionStore.getAt (RedisMappingSessionStore.saveAt w.store now session)
          later id = none := by
  constructor
  · intro id c' hget
    rw [Dict.get?_set] at hget
    split at hget
    · rename_i hid
      cases hget
      subst hid
      exact ⟨keeps_saveAt w.store hpath hsaved, htracks⟩
    · rename_i hid
      obtain ⟨hkeeps, htracks'⟩ := hw.sessions id c' hget
      exact ⟨keeps_saveAt_ne hid hkeeps, htracks'⟩
  · intro id hnone later
    rw [Dict.get?_set] at hnone
    split at hnone
    · cases hnone
    · rename_i hid
      rw [RedisMappingSessionStore.getAt_saveAt_ne _ _ _ hid]
      exact hw.others id hnone later

theorem timed_create (hw : w.Timed tempDir) (now : ℚ) (session : MappingSession) :
    (w.step tempDir (now, .create session)).Timed tempDir := by
  simp only [TempWorld.step]
  split
  · exact hw
  · rename_i c hupload
    split
    · exact hw
    · rename_i hnew
      have hsaved := sessions_saveAt (c := { c with path := session.filePath, saved := now }) hw
        rfl rfl (hw.uploads _ c hupload)
      refine ⟨hsaved.1, hsaved.2, ?_, ?_⟩
      · intro path c' hget
        simp only [Dict.get?_erase] at hget
        split at hget
        · cases hget
        · exact hw.uploads path c' hget
      · intro handler copy hcopy
        obtain ⟨c', hclock, hpath⟩ := hw.copies handler copy hcopy
        have hid : session.id ≠ copy.id := by
          intro heq
          rw [heq] at hnew
          exact hnew (Dict.mem_keys.mpr ⟨c', hclock⟩)
        exact ⟨c', (Dict.get?_set_ne _ _ hid).trans hclock, hpath⟩

theorem timed_load (hw : w.Timed tempDir) (now : ℚ) (handler : Nat) (sessionId : String) :
    (w.step tempDir (now, .load handler sessionId)).Timed tempDir := by
  simp only [TempWorld.step]
  split
  · exact hw
  · rename_i copy hget
    refine ⟨hw.sessions, hw.others, hw.uploads, ?_⟩
    intro h held hheld
    simp only [Dict.get?_set] at hheld
    split at hheld
    · cases hheld
      obtain ⟨c, hclock, _, hid, hpath⟩ := clock_of_getAt hw hget
      exact ⟨c, hid ▸ hclock, hpath⟩
    · exact hw.copies h held hheld

theorem timed_save (hw : w.Timed tempDir) (now : ℚ) (handler : Nat) (env : SessionEnv)
    (files : Files) (e : SessionEdit) :
    (w.step tempDir (now, .save handler env files e)).Timed tempDir := by
  have hcopies : ∀ h held, (w.copies.erase handler).get? h = some held →
      w.copies.get? h = some held := by
    intro h held hget
    rw [Dict.get?_erase] at hget
    split at hget
    · cases hget
    · exact hget
  simp only [TempWorld.step]
  split
  · exact hw
  · rename_i copy hcopy
    split
    · refine ⟨hw.sessions, hw.others, hw.uploads, fun h held hget => ?_⟩
      exact hw.copies h held (hcopies h held hget)
    · rename_i session happly
      obtain ⟨c, hclock, hpath⟩ := hw.copies handler copy hcopy
      have hid : session.id = copy.id := (SessionEdit.apply_ok happly).2
      have hfile : session.filePath = c.path := (SessionEdit.apply_origin happly).2.trans hpath
      have hnote : noteSave w.clocks now session.id =
          w.clocks.set session.id { c with saved := now } := by
        rw [noteSave, hid, hclock]
      have hsaved := sessions_saveAt (c := { c with saved := now }) hw hfile rfl
        (hw.sessions copy.id c hclock).2
      rw [hnote]
      refine ⟨hsaved.1, hsaved.2, hw.uploads, ?_⟩
      · intro h held hget
        obtain ⟨c', hclock', hpath'⟩ := hw.copies h held (hcopies h held hget)
        by_cases hsame : session.id = held.id
        · -- the clock has a new save and the path it had
          have hold : some c = some c' := by rw [← hclock, ← hclock', ← hid, hsame]
          cases hold
          exact ⟨{ c with saved := now }, by rw [← hsame]; exact Dict.get?_set_self _ _ _, hpath'⟩
        · exact ⟨c', (Dict.get?_set_ne _ _ hsame).trans hclock', hpath'⟩

theorem timed_start (hw : w.Timed tempDir) (now : ℚ) :
    (w.step tempDir (now, .start)).Timed tempDir := by
  have htracks : ∀ {path : String} {c : UploadClock}, c.Tracks tempDir w.disk w.names path →
      (c.sweep now).Tracks tempDir (cleanupOrphanedTempFiles tempDir now w.disk) w.names path := by
    intro path c h
    exact ⟨h.named, h.matched, get?_cleanup h.matched h.disk⟩
  refine ⟨?_, ?_, ?_, ?_⟩
  · intro id c' hget
    simp only [TempWorld.step, Dict.get?_mapValues, Option.map_eq_some_iff] at hget
    obtain ⟨c, hclock, rfl⟩ := hget
    obtain ⟨hkeeps, htrack⟩ := hw.sessions id c hclock
    exact ⟨hkeeps, htracks htrack⟩
  · intro id hnone
    simp only [TempWorld.step, Dict.get?_mapValues, Option.map_eq_none_iff] at hnone
    exact hw.others id hnone
  · intro path c' hget
    simp only [TempWorld.step, Dict.get?_mapValues, Option.map_eq_some_iff] at hget
    obtain ⟨c, hupload, rfl⟩ := hget
    exact htracks (hw.uploads path c hupload)
  · intro handler copy hcopy
    obtain ⟨c, hclock, hpath⟩ := hw.copies handler copy hcopy
    refine ⟨c.sweep now, ?_, hpath⟩
    show (w.clocks.mapValues _).get? copy.id = _
    rw [Dict.get?_mapValues, hclock]
    rfl

/-- **Every event** leaves store, disk and copies as the clocks say. -/
theorem timed_step (hw : w.Timed tempDir) (te : ℚ × TempEvent) :
    (w.step tempDir te).Timed tempDir := by
  obtain ⟨now, event⟩ := te
  cases event with
  | upload temp file => exact timed_upload hw now temp file
  | create session => exact timed_create hw now session
  | load handler sessionId => exact timed_load hw now handler sessionId
  | save handler env files e => exact timed_save hw now handler env files e
  | start => exact timed_start hw now

/-- **One start** leaves the files of the sessions in the store exactly if the
clocks agree. -/
theorem sparesLive_iff (hw : w.Timed tempDir) (te : ℚ × TempEvent) :
    SparesLive tempDir w te ↔ ClocksAgree w te := by
  obtain ⟨now, event⟩ := te
  have hcleanup : ∀ {c : SessionClock}, c.Tracks tempDir w.disk w.names c.path →
      (c.path ∈ w.disk.keys ↔ c.swept = false) ∧
        (c.path ∈ (cleanupOrphanedTempFiles tempDir now w.disk).keys ↔
          c.swept = false ∧ now ≤ c.uploaded + sessionTtl) := by
    intro c htracks
    constructor
    · rw [Dict.mem_keys, htracks.disk]
      cases c.swept <;> simp
    · rw [Dict.mem_keys, get?_cleanup htracks.matched htracks.disk]
      cases hswept : c.swept with
      | true => simp [UploadClock.sweep, hswept]
      | false =>
          by_cases hlate : c.uploaded + sessionTtl < now
          · simp [UploadClock.sweep, hlate]
          · simp [UploadClock.sweep, hswept, hlate, not_lt.mp hlate]
  constructor
  · intro hspares hstart id c hclock hlive
    obtain ⟨⟨session, _, hpath, hget⟩, htracks⟩ := hw.sessions id c hclock
    obtain ⟨hbefore, hafter⟩ := hcleanup htracks
    cases hswept : c.swept with
    | true => exact .inr rfl
    | false =>
        have hkept := hspares hstart id session (by rw [hget now, if_pos hlive])
        rw [hpath] at hkept
        dsimp only at hstart
        subst hstart
        exact .inl (hafter.mp (hkept (hbefore.mpr hswept))).2
  · intro hagree hstart id session hget hmem
    obtain ⟨c, hclock, hlive, _, hpath⟩ := clock_of_getAt hw hget
    obtain ⟨hbefore, hafter⟩ := hcleanup (hw.sessions id c hclock).2
    rw [hpath] at hmem ⊢
    have hunswept := hbefore.mp hmem
    dsimp only at hstart
    subst hstart
    rcases hagree rfl id c hclock hlive with hyoung | hswept
    · exact hafter.mpr ⟨hunswept, hyoung⟩
    · rw [hunswept] at hswept
      cases hswept

end Invariant

theorem timed_empty (tempDir : String) : TempWorld.Timed tempDir {} where
  sessions id c hget := by cases hget
  others id _ now := rfl
  uploads path c hget := by cases hget
  copies handler copy hget := by cases hget

/-- **When the cleanups of a run spare the sessions.** In every run of
creations, saves and starts, no start removes the file of a session in the
store exactly if at each start every session saved within the last TTL was
uploaded within the last TTL, or has lost its file at an earlier start. -/
theorem cleanup_spares_iff (tempDir : String) (events : List (ℚ × TempEvent)) :
    AllSteps (TempWorld.step tempDir) (SparesLive tempDir) {} events ↔
      AllSteps (TempWorld.step tempDir) ClocksAgree {} events := by
  have hstep : ∀ (w : TempWorld) (te : ℚ × TempEvent), w.Timed tempDir →
      (w.step tempDir te).Timed tempDir := fun _ te hw => timed_step hw te
  exact allSteps_congr hstep (fun _ te hw => sparesLive_iff hw te) (timed_empty tempDir)

/-! ### An edit after half an hour -/

/-- A session on the file `grossFile`. -/
def halfHourSession : MappingSession where
  id := "5d1f"
  status := .created
  schemaName := "premiums"
  filePath := tempPath { someTemp with dir := "/tmp" } grossFile
  sheetName := none
  sourceHeaders := ["GWP"]
  targetFields := ["Gross_Premium", "Policy_ID"]
  mappings := []
  unmappedHeaders := ["GWP"]
  previewRows := []

/-- The upload, a `PUT` half an hour later, and a start another half hour and a
second later. -/
def editThenStart : List (ℚ × TempEvent) :=
  [(0, .upload someTemp grossFile), (0, .create halfHourSession), (1800, .load 0 "5d1f"),
    (1800, .save 0 bookRouter.sessionEnv noDisk (.putMappings [] ["GWP"])), (3601, .start)]

/-- The start removes the file of a session that lives for another half hour. -/
theorem edit_then_start_removes :
    ¬ AllSteps (TempWorld.step "/tmp") (SparesLive "/tmp") {} editThenStart := by
  intro hspares
  obtain ⟨_, _, _, _, hstart, _⟩ := hspares
  have hlive : (RedisMappingSessionStore.getAt
      ((editThenStart.take 4).foldl (TempWorld.step "/tmp") {}).store 3601 "5d1f").map
        MappingSession.filePath = some halfHourSession.filePath := by decide +kernel
  obtain ⟨session, hget, hpath⟩ := Option.map_eq_some_iff.mp hlive
  have hkept := hstart rfl "5d1f" session hget
  rw [hpath] at hkept
  exact absurd (hkept (by decide +kernel)) (by decide +kernel)

end RiskFlow
