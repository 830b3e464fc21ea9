import RiskFlow.Entrypoint.Server
import RiskFlow.Entrypoint.SessionSchemas

/-!
# ServerDisk — which temp files are there, and whose they are

Between any two steps of the handlers each temp file is on the disk exactly
while somebody has it: the request or the job that reads it, the session it
was uploaded for, or nobody any more, where a call raised on the way to the
line that removes it. No handler removes or writes the file of another.
-/

namespace RiskFlow

open Lib MappingService

/-! ## Who has a file -/

/-- The session of a creation, from the moment it is about to be saved. -/
def CreatePhase.born? : CreatePhase → Option String
  | .saving session | .written session | .answered (.ok session) => some session.id
  | _ => none

/-- A creation has its file while it waits for the mapper, and then its session
has it, until a DELETE. An error removes it, unless it is no `Exception`. -/
def CreatePhase.Held (removed : List String) : CreatePhase → Prop
  | .waiting => False
  | .asked _ _ _ _ => True
  | .saving session | .written session | .answered (.ok session) => session.id ∉ removed
  | .answered (.error e) => e = unhandled

namespace ServerTask

def born? : ServerTask → Option String
  | .app (.create t) => t.phase.born?
  | _ => none

/-- The task's file is on the disk: an upload has it while it is served, a job
from its request on until its task has ended, or for good if that is stranded. -/
def Held (removed : List String) : ServerTask → Prop
  | .upload ⟨_, _, .serving _ _⟩ => True
  | .job _ (.queued _) | .job _ (.processing _ _) | .job _ (.stranded _ _) => True
  | .app (.create t) => t.phase.Held removed
  | _ => False

/-- Only a file with a session is removed by a DELETE. -/
theorem held_of_unborn {t : ServerTask} (h : t.born? = none) (removed removed' : List String) :
    t.Held removed ↔ t.Held removed' := by
  cases t with
  | app t =>
      cases t with
      | create t =>
          obtain ⟨u, phase⟩ := t
          cases phase with
          | saving session => cases h
          | written session => cases h
          | answered answer =>
              cases answer with
              | ok session => cases h
              | error e => exact Iff.rfl
          | _ => exact Iff.rfl
      | _ => exact Iff.rfl
  | upload t => rcases t with ⟨_, _, _ | _ | _⟩ <;> exact Iff.rfl
  | job r phase => cases phase <;> exact Iff.rfl
  | _ => exact Iff.rfl

theorem held_of_born {t : ServerTask} {sessionId : String} (h : t.born? = some sessionId)
    (removed : List String) : t.Held removed ↔ sessionId ∉ removed := by
  cases t with
  | app t =>
      cases t with
      | create t =>
          obtain ⟨u, phase⟩ := t
          cases phase with
          | saving session =>
              cases h
              exact Iff.rfl
          | written session =>
              cases h
              exact Iff.rfl
          | answered answer =>
              cases answer with
              | ok session =>
                  cases h
                  exact Iff.rfl
              | error e => cases h
          | _ => cases h
      | _ => cases h
  | _ => cases h

/-- It matters which sessions have been removed, not in which order. -/
theorem held_congr (t : ServerTask) {removed removed' : List String}
    (h : ∀ sessionId, sessionId ∈ removed ↔ sessionId ∈ removed') :
    t.Held removed ↔ t.Held removed' := by
  cases hborn : t.born? with
  | none => exact held_of_unborn hborn removed removed'
  | some sessionId =>
      rw [held_of_born hborn, held_of_born hborn]
      exact not_congr (h sessionId)

end ServerTask

/-! ## The invariant -/

section Invariant
variable {τ : Type} (env : AppEnv) (paths : List String) (w : ServerWorld τ)

/-- A session's copy names the file it was created with here, or one that is no
temp file of this process. -/
structure ServerWorld.Knows (sessionId : String) (copy : MappingSession) : Prop where
  id : copy.id = sessionId
  given : w.app.Given env sessionId
  filed : ∀ path, w.filed.get? sessionId = some path → copy.filePath = path
  foreign : w.filed.get? sessionId = none → copy.filePath ∉ paths

/-- What holds of the shared state at every moment. -/
structure ServerWorld.Filed : Prop where
  stored : ∀ sessionId copy, RedisMappingSessionStore.get w.app.sessions.store sessionId =
    some copy → w.Knows env paths sessionId copy
  given : ∀ sessionId path, w.filed.get? sessionId = some path → w.app.Given env sessionId
  removed : ∀ sessionId ∈ w.removed, w.app.Given env sessionId

/-- What a session's handler knows of its copy. -/
def SessionHandler.Knows (h : SessionHandler) : Prop :=
  match h.task.phase with
  | .loaded (some copy) => w.Knows env paths h.sessionId copy
  | .saving _ session => w.Knows env paths h.sessionId session ∧ h.task.request ≠ .delete
  | .deleting => h.sessionId ∈ w.removed
  | .written _ | .answered (.ok _) => h.task.request = .delete → h.sessionId ∈ w.removed
  | _ => True

/-- What a task knows between two of its steps. -/
def ServerTask.Knows : ServerTask → Prop
  | .app (.create ⟨_, .saving session⟩) => w.Knows env paths session.id session
  | .app (.session h) => h.Knows env paths w
  | _ => True

/-- The task's file is on the disk while it is held, and belongs to the session
of the task and to no other. -/
structure ServerTask.Keeps (t : ServerTask) : Prop where
  kept : ∀ path file, t.temp? = some (path, file) → w.disk.Kept path file (t.Held w.removed)
  filed : ∀ path file, t.temp? = some (path, file) →
    ∀ sessionId, w.filed.get? sessionId = some path ↔ t.born? = some sessionId
  knows : t.Knows env paths w

/-- What a step may change of what the others know: its own file and that of
the session whose file it removes. -/
structure ServerWorld.Moves (own : Option String) (w w' : ServerWorld τ) : Prop where
  drawn : w.app.drawn ≤ w'.app.drawn
  filed : ∀ sessionId, w.app.Given env sessionId →
    w'.filed.get? sessionId = w.filed.get? sessionId
  fresh : ∀ sessionId path, w'.filed.get? sessionId = some path →
    w.filed.get? sessionId = some path ∨ own = some path
  removed : ∀ sessionId ∈ w.removed, sessionId ∈ w'.removed
  gone : ∀ sessionId ∈ w'.removed, sessionId ∉ w.removed → ∀ path,
    w.filed.get? sessionId = some path → w'.disk.pathExists path = false
  disk : ∀ path ∈ paths, own ≠ some path → Files.SameAt path w.disk w'.disk ∨
    ∃ sessionId, w.filed.get? sessionId = some path ∧ sessionId ∈ w'.removed ∧
      w'.disk.pathExists path = false

end Invariant

/-! ## What the steps of others leave -/

section Others
variable {τ : Type} {env : AppEnv} {paths : List String} {own : Option String}
  {w w' : ServerWorld τ}

theorem ServerWorld.Moves.given (h : w.Moves env paths own w') {sessionId : String}
    (hg : w.app.Given env sessionId) : w'.app.Given env sessionId :=
  fun k hk => hg k (h.drawn.trans hk)

theorem ServerWorld.Knows.mono (h : w.Moves env paths own w') {sessionId : String}
    {copy : MappingSession} (hk : w.Knows env paths sessionId copy) :
    w'.Knows env paths sessionId copy := by
  have hfiled := h.filed sessionId hk.given
  refine ⟨hk.id, h.given hk.given, ?_, ?_⟩
  · rw [hfiled]
    exact hk.filed
  · rw [hfiled]
    exact hk.foreign

theorem ServerTask.Knows.mono (h : w.Moves env paths own w') {t : ServerTask}
    (ht : t.Knows env paths w) : t.Knows env paths w' := by
  cases t with
  | app t =>
      cases t with
      | create t =>
          obtain ⟨u, phase⟩ := t
          cases phase with
          | saving session => exact ServerWorld.Knows.mono h ht
          | _ => trivial
      | schema t => trivial
      | session handler =>
          obtain ⟨sessionId, ⟨request, phase⟩, used⟩ := handler
          cases phase with
          | loaded copy =>
              cases copy with
              | none => trivial
              | some copy => exact ServerWorld.Knows.mono h ht
          | saving copy session => exact ⟨ServerWorld.Knows.mono h ht.1, ht.2⟩
          | deleting => exact h.removed sessionId ht
          | written body => exact fun hr => h.removed sessionId (ht hr)
          | answered answer =>
              cases answer with
              | ok body => exact fun hr => h.removed sessionId (ht hr)
              | error e => trivial
          | waiting => trivial
  | _ => trivial

/-- **No step disturbs the file of another task.** -/
theorem ServerTask.Keeps.mono (h : w.Moves env paths own w') (hw : w.Filed env paths)
    {t : ServerTask} (hpath : ∀ path, t.path? = some path → path ∈ paths ∧ own ≠ some path)
    (ht : t.Keeps env paths w) : t.Keeps env paths w' := by
  have hfile : ∀ path file, t.temp? = some (path, file) → path ∈ paths ∧ own ≠ some path := by
    intro path file htemp
    exact hpath path (by rw [path?, htemp, Option.map_some])
  refine ⟨fun path file htemp => ?_, fun path file htemp sessionId => ?_, ht.knows.mono h⟩
  · obtain ⟨hmem, hown⟩ := hfile path file htemp
    have hkept := ht.kept path file htemp
    have hborn := ht.filed path file htemp
    cases hb : t.born? with
    | none =>
        have hiff := held_of_unborn hb w'.removed w.removed
        rcases h.disk path hmem hown with hsame | ⟨sessionId, hfiled, _, _⟩
        · exact (hkept.of_sameAt hsame).of_iff hiff
        · rw [hborn, hb] at hfiled
          cases hfiled
    | some b =>
        rw [hb] at hborn
        have hb' : w.filed.get? b = some path := (hborn b).mpr rfl
        by_cases hremoved : b ∈ w'.removed
        · refine Files.kept_of_gone ?_ fun hheld => (held_of_born hb _).mp hheld hremoved
          by_cases hbefore : b ∈ w.removed
          · have hgone := hkept.gone fun hheld => (held_of_born hb _).mp hheld hbefore
            rcases h.disk path hmem hown with hsame | ⟨_, _, _, hgone'⟩
            · exact hsame.present.trans hgone
            · exact hgone'
          · exact h.gone b hremoved hbefore path hb'
        · have hhas := hkept.has ((held_of_born hb _).mpr fun hmem => hremoved (h.removed b hmem))
          refine Files.kept_of_has ?_ ((held_of_born hb _).mpr hremoved)
          rcases h.disk path hmem hown with hsame | ⟨sessionId, hfiled, hin, _⟩
          · exact hhas.of_sameAt hsame
          · rw [hborn, Option.some.injEq] at hfiled
            exact absurd (hfiled ▸ hin) hremoved
  · obtain ⟨hmem, hown⟩ := hfile path file htemp
    rw [← ht.filed path file htemp]
    constructor
    · intro hfiled
      rcases h.fresh sessionId path hfiled with hbefore | hself
      · exact hbefore
      · exact absurd hself hown
    · intro hfiled
      rw [h.filed sessionId (hw.given sessionId path hfiled)]
      exact hfiled

end Others

/-! ## Steps -/

section Steps
variable {τ : Type} {env : AppEnv} {port : JobStorePort τ} {paths : List String}
  {own : Option String} {w w' : ServerWorld τ}

/-- A step that touches no file but its own. -/
theorem moves_of_same (hdrawn : w'.app.drawn = w.app.drawn) (hfiled : w'.filed = w.filed)
    (hremoved : w'.removed = w.removed)
    (hdisk : ∀ path, own ≠ some path → Files.SameAt path w.disk w'.disk) :
    w.Moves env paths own w' := by
  refine ⟨hdrawn.ge, fun _ _ => by rw [hfiled], fun sessionId path hget => ?_,
    fun sessionId hmem => ?_, fun sessionId hmem hnot => ?_,
    fun path _ hown => .inl (hdisk path hown)⟩
  · rw [hfiled] at hget
    exact .inl hget
  · rwa [hremoved]
  · rw [hremoved] at hmem
    exact absurd hmem hnot

/-- What is stored stays known, and what is added is known. -/
theorem ServerWorld.Filed.mono (h : w.Moves env paths own w') (hw : w.Filed env paths)
    (hstored : ∀ sessionId copy,
      RedisMappingSessionStore.get w'.app.sessions.store sessionId = some copy →
      RedisMappingSessionStore.get w.app.sessions.store sessionId = some copy ∨
        w.Knows env paths sessionId copy)
    (hgiven : ∀ sessionId path, w'.filed.get? sessionId = some path →
      w.filed.get? sessionId = some path ∨ w'.app.Given env sessionId)
    (hremoved : ∀ sessionId ∈ w'.removed,
      sessionId ∈ w.removed ∨ w.app.Given env sessionId) : w'.Filed env paths := by
  refine ⟨fun sessionId copy hget => ?_, fun sessionId path hget => ?_, fun sessionId hmem => ?_⟩
  · rcases hstored sessionId copy hget with hold | hknown
    · exact (hw.stored sessionId copy hold).mono h
    · exact hknown.mono h
  · rcases hgiven sessionId path hget with hold | hnew
    · exact h.given (hw.given sessionId path hold)
    · exact hnew
  · rcases hremoved sessionId hmem with hold | hnew
    · exact h.given (hw.removed sessionId hold)
    · exact h.given hnew

theorem filed_of_same (h : w.Moves env paths own w') (hw : w.Filed env paths)
    (hstore : w'.app.sessions.store = w.app.sessions.store) (hfiled : w'.filed = w.filed)
    (hremoved : w'.removed = w.removed) : w'.Filed env paths := by
  refine hw.mono h (fun sessionId copy hget => ?_) (fun sessionId path hget => ?_)
    fun sessionId hmem => ?_
  · rw [hstore] at hget
    exact .inl hget
  · rw [hfiled] at hget
    exact .inl hget
  · rw [hremoved] at hmem
    exact .inl hmem

/-- A task without a session keeps its file as its next phase has it. -/
theorem keeps_of_unborn {t t' : ServerTask} (ht : t.Keeps env paths w)
    (htemp : t'.temp? = t.temp?) (hborn : t.born? = none) (hborn' : t'.born? = none)
    (hfiled : w'.filed = w.filed)
    (hkept : ∀ path file, t.temp? = some (path, file) →
      w'.disk.Kept path file (t'.Held w'.removed))
    (hknows : t'.Knows env paths w') : t'.Keeps env paths w' := by
  refine ⟨fun path file hfile => hkept path file (htemp ▸ hfile), ?_, hknows⟩
  intro path file hfile sessionId
  rw [hfiled, ht.filed path file (htemp ▸ hfile), hborn, hborn']

/-- A task without a file. -/
theorem keeps_of_templess {t : ServerTask} (htemp : t.temp? = none)
    (hknows : t.Knows env paths w) : t.Keeps env paths w := by
  refine ⟨?_, ?_, hknows⟩
  · intro path file hfile
    rw [htemp] at hfile
    cases hfile
  · intro path file hfile
    rw [htemp] at hfile
    cases hfile

/-- A step that keeps what the others know, and after which the task knows its
file again. -/
structure ServerTask.StepsWell (env : AppEnv) (port : JobStorePort τ) (paths : List String)
    (w : ServerWorld τ) (t : ServerTask) : Prop where
  moves : w.Moves env paths t.path? (t.advance env port w).1
  filed : (t.advance env port w).1.Filed env paths
  keeps : (t.advance env port w).2.Keeps env paths (t.advance env port w).1

/-- A step of a task without a session that touches no file but its own. -/
theorem stepsWell_of_unborn {t : ServerTask} (hw : w.Filed env paths) (ht : t.Keeps env paths w)
    (hborn : t.born? = none) (hborn' : (t.advance env port w).2.born? = none)
    (hdrawn : (t.advance env port w).1.app.drawn = w.app.drawn)
    (hstore : (t.advance env port w).1.app.sessions.store = w.app.sessions.store)
    (hfiled : (t.advance env port w).1.filed = w.filed)
    (hremoved : (t.advance env port w).1.removed = w.removed)
    {path : String} {file : UploadFile} (htemp : t.temp? = some (path, file))
    (hleaves : Files.Leaves w.disk (t.advance env port w).1.disk path file
      ((t.advance env port w).2.Held (t.advance env port w).1.removed))
    (hknows : (t.advance env port w).2.Knows env paths (t.advance env port w).1) :
    t.StepsWell env port paths w := by
  have hmoves : w.Moves env paths t.path? (t.advance env port w).1 := by
    refine moves_of_same hdrawn hfiled hremoved fun other hother => hleaves.others other ?_
    intro heq
    rw [ServerTask.path?, htemp, heq] at hother
    exact hother rfl
  refine ⟨hmoves, filed_of_same hmoves hw hstore hfiled hremoved,
    keeps_of_unborn ht (t.temp?_advance env port w) hborn hborn' hfiled ?_ hknows⟩
  intro path' file' htemp'
  rw [htemp] at htemp'
  cases htemp'
  exact hleaves.own

/-- What the steps of an upload, a job and a sheet list leave as it is. -/
structure ServerWorld.SameApp (w w' : ServerWorld τ) : Prop where
  schemas : w'.app.schemas = w.app.schemas
  drawn : w'.app.drawn = w.app.drawn
  store : w'.app.sessions.store = w.app.sessions.store
  filed : w'.filed = w.filed
  removed : w'.removed = w.removed

/-! ### Uploads -/

/-- After a step of `process_file` the file is there as long as it is served. -/
theorem settle_leaves (t : UploadTask) {files : Files} (activeService : MappingService)
    (r : Stores × UploadPhase) (hhas : files.Has t.request.path t.request.file) :
    Files.Leaves files (t.settle env w files activeService r).1.disk t.request.path t.request.file
      (ServerTask.Held w.removed (.upload (t.settle env w files activeService r).2)) := by
  obtain ⟨stores, phase⟩ := r
  cases phase with
  | answered outcome => exact Files.leaves_remove files _ _ not_false
  | _ => exact Files.leaves_of_kept (Files.kept_of_has hhas trivial)

theorem settle_same (t : UploadTask) (files : Files) (activeService : MappingService)
    (r : Stores × UploadPhase) : w.SameApp (t.settle env w files activeService r).1 := by
  obtain ⟨stores, phase⟩ := r
  cases phase <;> exact ⟨rfl, rfl, rfl, rfl, rfl⟩

theorem upload_same (env : AppEnv) (w : ServerWorld τ) (t : UploadTask) :
    w.SameApp (t.advance env w).1 := by
  unfold UploadTask.advance
  dsimp only
  split
  · split
    · exact ⟨rfl, rfl, rfl, rfl, rfl⟩
    · split
      · exact ⟨rfl, rfl, rfl, rfl, rfl⟩
      · exact settle_same t _ _ _
  · exact settle_same t _ _ _
  · exact ⟨rfl, rfl, rfl, rfl, rfl⟩

theorem upload_leaves (t : UploadTask)
    (h : w.disk.Kept t.request.path t.request.file (ServerTask.Held w.removed (.upload t))) :
    Files.Leaves w.disk (t.advance env w).1.disk t.request.path t.request.file
      (ServerTask.Held w.removed (.upload (t.advance env w).2)) := by
  obtain ⟨request, outages, phase⟩ := t
  cases phase with
  | received =>
      simp only [UploadTask.advance]
      split
      · exact Files.leaves_of_kept (h.of_iff Iff.rfl)
      · split
        · exact Files.leaves_of_kept (h.of_iff Iff.rfl)
        · have hsaved := Files.leaves_saveTempFile w.disk request.path request.file trivial
          exact hsaved.after (settle_leaves _ _ _ (hsaved.own.has trivial))
  | serving activeService phase => exact settle_leaves _ _ _ (h.has trivial)
  | answered answer => exact Files.leaves_of_kept h

theorem upload_stepsWell (hw : w.Filed env paths) {t : UploadTask}
    (ht : (ServerTask.upload t).Keeps env paths w) :
    (ServerTask.upload t).StepsWell env port paths w := by
  have hsame := upload_same env w t
  refine stepsWell_of_unborn hw ht rfl rfl hsame.drawn hsame.store hsame.filed hsame.removed rfl
    ?_ trivial
  show Files.Leaves w.disk (t.advance env w).1.disk _ _
    (ServerTask.Held (t.advance env w).1.removed _)
  rw [hsame.removed]
  exact upload_leaves t (ht.kept _ _ rfl)

/-! ### Jobs and sheet lists -/

theorem job_same (env : AppEnv) (port : JobStorePort τ) (w : ServerWorld τ) (r : JobRequest)
    (phase : JobPhase) : w.SameApp (r.advance env port w phase).1 := by
  cases phase with
  | received =>
      simp only [JobRequest.advance, JobRequest.accept]
      split
      · exact ⟨rfl, rfl, rfl, rfl, rfl⟩
      · split <;> exact ⟨rfl, rfl, rfl, rfl, rfl⟩
  | queued job =>
      simp only [JobRequest.advance, JobRequest.begin]
      split
      · exact ⟨rfl, rfl, rfl, rfl, rfl⟩
      · split <;> exact ⟨rfl, rfl, rfl, rfl, rfl⟩
  | processing job phase =>
      cases phase with
      | answered outcome =>
          simp only [JobRequest.advance, JobRequest.conclude]
          split <;> exact ⟨rfl, rfl, rfl, rfl, rfl⟩
      | _ => exact ⟨rfl, rfl, rfl, rfl, rfl⟩
  | _ => exact ⟨rfl, rfl, rfl, rfl, rfl⟩

theorem job_leaves (r : JobRequest) (phase : JobPhase)
    (h : w.disk.Kept r.path r.file (ServerTask.Held w.removed (.job r phase))) :
    Files.Leaves w.disk (r.advance env port w phase).1.disk r.path r.file
      (ServerTask.Held w.removed (.job r (r.advance env port w phase).2)) := by
  cases phase with
  | received =>
      simp only [JobRequest.advance, JobRequest.accept]
      split
      · exact Files.leaves_of_kept (h.of_iff Iff.rfl)
      · split
        · exact Files.leaves_of_kept (h.of_iff Iff.rfl)
        · exact Files.leaves_saveTempFile w.disk r.path r.file trivial
  | queued job =>
      simp only [JobRequest.advance, JobRequest.begin]
      split
      · exact Files.leaves_of_kept (h.of_iff Iff.rfl)
      · split <;> exact Files.leaves_of_kept (h.of_iff Iff.rfl)
  | processing job phase =>
      cases phase with
      | answered outcome =>
          simp only [JobRequest.advance, JobRequest.conclude]
          split
          · exact Files.leaves_of_kept (h.of_iff Iff.rfl)
          · exact Files.leaves_remove w.disk r.path r.file not_false
      | _ => exact Files.leaves_of_kept (h.of_iff Iff.rfl)
  | _ => exact Files.leaves_of_kept h

theorem job_stepsWell (hw : w.Filed env paths) {r : JobRequest} {phase : JobPhase}
    (ht : (ServerTask.job r phase).Keeps env paths w) :
    (ServerTask.job r phase).StepsWell env port paths w := by
  have hsame := job_same env port w r phase
  refine stepsWell_of_unborn hw ht rfl rfl hsame.drawn hsame.store hsame.filed hsame.removed rfl
    ?_ trivial
  show Files.Leaves w.disk (r.advance env port w phase).1.disk _ _
    (ServerTask.Held (r.advance env port w phase).1.removed _)
  rw [hsame.removed]
  exact job_leaves r phase (ht.kept _ _ rfl)

theorem sheets_same (env : AppEnv) (w : ServerWorld τ) (t : SheetsTask) :
    w.SameApp (t.advance env w).1 := by
  unfold SheetsTask.advance
  split
  · exact ⟨rfl, rfl, rfl, rfl, rfl⟩
  · split <;> exact ⟨rfl, rfl, rfl, rfl, rfl⟩

theorem sheets_stepsWell (hw : w.Filed env paths) {t : SheetsTask}
    (ht : (ServerTask.sheets t).Keeps env paths w) :
    (ServerTask.sheets t).StepsWell env port paths w := by
  have hsame := sheets_same env w t
  refine stepsWell_of_unborn hw ht rfl rfl hsame.drawn hsame.store hsame.filed hsame.removed rfl
    ?_ trivial
  have hkept := ht.kept _ _ rfl
  show Files.Leaves w.disk (t.advance env w).1.disk t.path t.file False
  unfold SheetsTask.advance
  split
  · exact Files.leaves_of_kept hkept
  · split
    · exact Files.leaves_of_kept hkept
    · -- saved, read and removed in one step
      have hsaved := Files.leaves_saveTempFile w.disk t.path t.file trivial
      exact hsaved.after (Files.leaves_remove _ t.path t.file not_false)

/-- A step that touches neither files nor what is known of them. -/
theorem stepsWell_of_quiet {t : ServerTask} (hw : w.Filed env paths) (ht : t.Keeps env paths w)
    (hborn : (t.advance env port w).2.born? = t.born?)
    (hheld : (t.advance env port w).2.Held w.removed ↔ t.Held w.removed)
    (hdrawn : (t.advance env port w).1.app.drawn = w.app.drawn)
    (hdisk : (t.advance env port w).1.disk = w.disk)
    (hstored : ∀ sessionId copy, RedisMappingSessionStore.get
      (t.advance env port w).1.app.sessions.store sessionId = some copy →
      RedisMappingSessionStore.get w.app.sessions.store sessionId = some copy ∨
        w.Knows env paths sessionId copy)
    (hfiled : (t.advance env port w).1.filed = w.filed)
    (hremoved : (t.advance env port w).1.removed = w.removed)
    (hknows : (t.advance env port w).2.Knows env paths w) : t.StepsWell env port paths w := by
  have hmoves : w.Moves env paths t.path? (t.advance env port w).1 := by
    refine moves_of_same hdrawn hfiled hremoved fun other _ => ?_
    rw [hdisk]
    exact Files.sameAt_refl other w.disk
  have htemp := t.temp?_advance env port w
  refine ⟨hmoves, hw.mono hmoves hstored ?_ ?_, ⟨?_, ?_, hknows.mono hmoves⟩⟩
  · intro sessionId path hget
    rw [hfiled] at hget
    exact .inl hget
  · intro sessionId hmem
    rw [hremoved] at hmem
    exact .inl hmem
  · intro path file hfile
    rw [hdisk, hremoved]
    exact (ht.kept path file (htemp ▸ hfile)).of_iff hheld
  · intro path file hfile sessionId
    rw [hfiled, hborn]
    exact ht.filed path file (htemp ▸ hfile) sessionId

/-! ### Handlers of a session -/

/-- What is saved under its identifier is known of it. -/
theorem knows_of_saved {session stored : MappingSession} {sessionId key : String}
    (hknown : w.Knows env paths sessionId session)
    (hget : RedisMappingSessionStore.get
      (RedisMappingSessionStore.save w.app.sessions.store session) key = some stored) :
    RedisMappingSessionStore.get w.app.sessions.store key = some stored ∨
      w.Knows env paths key stored := by
  by_cases hkey : session.id = key
  · subst hkey
    rw [RedisMappingSessionStore.get_save, Option.some.injEq] at hget
    subst hget
    have hid := hknown.id
    subst hid
    exact .inr ⟨rfl, hknown.given, hknown.filed, hknown.foreign⟩
  · rw [RedisMappingSessionStore.get_save_ne _ hkey] at hget
    exact .inl hget

theorem knows_of_edited {copy session : MappingSession} {sessionId : String} {files : Files}
    {sessions : SessionEnv} {e : SessionEdit} (hknown : w.Knows env paths sessionId copy)
    (happly : e.apply sessions files copy = .ok session) : w.Knows env paths sessionId session := by
  have hid := (SessionEdit.apply_ok happly).2
  have hpath := (SessionEdit.apply_origin happly).2
  refine ⟨hid.trans hknown.id, hknown.given, ?_, ?_⟩
  · rw [hpath]
    exact hknown.filed
  · rw [hpath]
    exact hknown.foreign

/-- **A DELETE removes the file of its session** and no other. -/
theorem delete_stepsWell (hw : w.Filed env paths) {sessionId : String} {copy : MappingSession}
    {used : Option MappingService} (hknown : w.Knows env paths sessionId copy) :
    (ServerTask.app (.session ⟨sessionId, ⟨.delete, .loaded (some copy)⟩, used⟩)).StepsWell env port
      paths w := by
  have hmoves : w.Moves env paths none
      ((ServerTask.app (.session ⟨sessionId, ⟨.delete, .loaded (some copy)⟩, used⟩)).advance env
        port w).1 := by
    refine ⟨Nat.le_refl _, fun _ _ => rfl, fun _ _ hget => .inl hget,
      fun _ hmem => List.mem_cons_of_mem _ hmem, fun id hmem hnot path hfiled => ?_,
      fun path hpath _ => ?_⟩
    · rcases List.mem_cons.mp hmem with rfl | hold
      · rw [← hknown.filed path hfiled]
        exact Files.gone_remove w.disk copy.filePath
      · exact absurd hold hnot
    · by_cases heq : path = copy.filePath
      · subst heq
        refine .inr ⟨sessionId, ?_, List.mem_cons_self, Files.gone_remove w.disk copy.filePath⟩
        cases hget : w.filed.get? sessionId with
        | none => exact absurd hpath (hknown.foreign hget)
        | some path => rw [hknown.filed path hget]
      · exact .inl (Files.sameAt_remove w.disk heq)
  refine ⟨hmoves, hw.mono hmoves (fun _ _ hget => .inl hget) (fun _ _ hget => .inl hget) ?_, ?_⟩
  · intro id hmem
    rcases List.mem_cons.mp hmem with rfl | hold
    · exact .inr hknown.given
    · exact .inl hold
  · exact keeps_of_templess rfl List.mem_cons_self

/-- An edit of a loaded copy fails, or its result is to be saved. -/
theorem edit_advance (port : JobStorePort τ) {sessionId : String} {copy : MappingSession}
    (e : SessionEdit) (used : Option MappingService) (hknown : w.Knows env paths sessionId copy) :
    ∃ phase used', (ServerTask.app
      (.session ⟨sessionId, ⟨.edit e, .loaded (some copy)⟩, used⟩)).advance env port w =
        (w, .app (.session ⟨sessionId, ⟨.edit e, phase⟩, used'⟩)) ∧
      (SessionHandler.mk sessionId ⟨.edit e, phase⟩ used').Knows env paths w := by
  simp only [ServerTask.advance, AppTask.advance, SessionHandler.advance, SessionTask.advance]
  cases happly : e.apply (w.app.router env).sessionEnv w.app.sessions.files copy with
  | error err => exact ⟨.answered (.error err), _, rfl, trivial⟩
  | ok session => exact ⟨.saving copy session, _, rfl, knows_of_edited hknown happly, by simp⟩

theorem edit_stepsWell (hw : w.Filed env paths) {sessionId : String} {copy : MappingSession}
    {e : SessionEdit} {used : Option MappingService}
    (ht : (ServerTask.app (.session ⟨sessionId, ⟨.edit e, .loaded (some copy)⟩, used⟩)).Keeps env
      paths w) :
    (ServerTask.app (.session ⟨sessionId, ⟨.edit e, .loaded (some copy)⟩, used⟩)).StepsWell env port
      paths w := by
  obtain ⟨phase, used', hadvance, hknows⟩ := edit_advance port e used ht.knows
  refine stepsWell_of_quiet hw ht ?_ ?_ ?_ ?_ ?_ ?_ ?_ ?_
  all_goals rw [hadvance]
  · rfl
  · exact Iff.rfl
  · exact fun _ _ hget => .inl hget
  · exact hknows

theorem session_stepsWell (hw : w.Filed env paths) {h : SessionHandler}
    (ht : (ServerTask.app (.session h)).Keeps env paths w) :
    (ServerTask.app (.session h)).StepsWell env port paths w := by
  have hknows : h.Knows env paths w := ht.knows
  obtain ⟨sessionId, ⟨request, phase⟩, used⟩ := h
  cases phase with
  | waiting =>
      refine stepsWell_of_quiet hw ht rfl Iff.rfl rfl rfl (fun _ _ hget => .inl hget) rfl ?_ ?_
      · cases request <;> rfl
      · show SessionHandler.Knows env paths w ⟨sessionId, ⟨request, .loaded _⟩, _⟩
        cases hget : RedisMappingSessionStore.get w.app.sessions.store sessionId with
        | none => trivial
        | some copy => exact hw.stored sessionId copy hget
  | loaded copy =>
      cases copy with
      | none =>
          refine stepsWell_of_quiet hw ht rfl Iff.rfl rfl rfl (fun _ _ hget => .inl hget) rfl ?_
            trivial
          cases request <;> rfl
      | some copy =>
          cases request with
          | delete => exact delete_stepsWell hw hknows
          | edit e => exact edit_stepsWell hw ht
  | saving copy session =>
      obtain ⟨hknown, hrequest⟩ := hknows
      refine stepsWell_of_quiet hw ht rfl Iff.rfl rfl rfl
        (fun _ _ hget => knows_of_saved hknown hget) rfl ?_ ?_
      · cases request <;> rfl
      · exact fun hdelete => absurd hdelete hrequest
  | deleting =>
      refine stepsWell_of_quiet hw ht rfl Iff.rfl rfl rfl
        (fun _ _ hget => .inl (RedisMappingSessionStore.get_of_get_delete hget)) rfl ?_ ?_
      · cases request <;> rfl
      · exact fun _ => hknows
  | written body =>
      refine stepsWell_of_quiet hw ht rfl Iff.rfl rfl rfl (fun _ _ hget => .inl hget) rfl ?_ hknows
      cases request <;> rfl
  | answered answer =>
      refine stepsWell_of_quiet hw ht rfl Iff.rfl rfl rfl (fun _ _ hget => .inl hget) rfl ?_ hknows
      cases request <;> rfl

/-! ### Creations -/

theorem createSessionError_unhandled {rt : Runtime} {e : PyErr} :
    createSessionError rt e = unhandled ↔ e.isException = false := by
  cases e <;> simp [createSessionError, unhandled, PyErr.isException]

/-- A failure leaves the file only where it answers as unhandled. -/
theorem fail_leaves (t : CreateTask) {files : Files} (e : PyErr)
    (hhas : files.Has t.upload.path t.upload.file) (removed : List String) :
    Files.Leaves files (t.fail env w.app files e).1.sessions.files t.upload.path t.upload.file
      ((t.fail env w.app files e).2.phase.Held removed) := by
  cases hexception : e.isException with
  | true =>
      simp only [CreateTask.fail, hexception, if_true]
      refine Files.leaves_remove files _ _ fun hheld => ?_
      rw [createSessionError_unhandled.mp hheld] at hexception
      cases hexception
  | false =>
      simp only [CreateTask.fail, hexception]
      exact Files.leaves_of_kept
        (Files.kept_of_has hhas (createSessionError_unhandled.mpr hexception))

theorem noteFiled_of_unborn {t : CreateTask} (h : t.phase.born? = none)
    (filed : Dict String String) : (AppTask.create t).noteFiled filed = filed := by
  obtain ⟨u, phase⟩ := t
  cases phase with
  | saving session => cases h
  | _ => rfl

/-- A creation up to its session's birth touches no file but its own. -/
theorem create_leaves (t : CreateTask)
    (h : w.disk.Kept t.upload.path t.upload.file (t.phase.Held w.removed))
    (hborn : (t.advance env w.app).2.phase.born? = none) :
    (t.advance env w.app).1.drawn = w.app.drawn ∧
      (t.advance env w.app).1.sessions.store = w.app.sessions.store ∧
      Files.Leaves w.disk (t.advance env w.app).1.sessions.files t.upload.path t.upload.file
        ((t.advance env w.app).2.phase.Held w.removed) := by
  obtain ⟨u, phase⟩ := t
  cases phase with
  | waiting =>
      simp only [CreateTask.advance]
      split
      · rename_i e hvalid
        refine ⟨rfl, rfl, Files.leaves_of_kept (Files.kept_of_gone (h.gone not_false) ?_)⟩
        intro hheld
        have hstatus : e.statusCode = 400 :=
          validateFile_status (show validateFile (w.app.router env).rt u.file = .error e from
            hvalid)
        rw [show e = unhandled from hheld] at hstatus
        cases hstatus
      · split
        · rename_i e hresolved
          refine ⟨rfl, rfl, Files.leaves_of_kept (Files.kept_of_gone (h.gone not_false) ?_)⟩
          intro hheld
          have hstatus := resolveService_status hresolved
          rw [show e = unhandled from hheld] at hstatus
          rcases hstatus with hstatus | hstatus <;> cases hstatus
        · have hsaved := Files.leaves_saveTempFile w.disk u.path u.file trivial
          split
          · exact ⟨rfl, rfl, hsaved.after
              (fail_leaves ⟨u, .waiting⟩ _ (hsaved.own.has trivial) w.removed)⟩
          · exact ⟨rfl, rfl, Files.leaves_saveTempFile w.disk u.path u.file trivial⟩
  | asked activeService schemaName headers preview =>
      simp only [CreateTask.advance] at hborn ⊢
      split
      · exact ⟨rfl, rfl,
          fail_leaves ⟨u, .asked activeService schemaName headers preview⟩ _ (h.has trivial)
            w.removed⟩
      · rename_i hsuggestion
        rw [hsuggestion] at hborn
        cases hborn
  | saving session => cases hborn
  | written session => cases hborn
  | answered answer => exact ⟨rfl, rfl, Files.leaves_of_kept h⟩

theorem create_unborn (hw : w.Filed env paths) {t : CreateTask}
    (ht : (ServerTask.app (.create t)).Keeps env paths w) (hborn : t.phase.born? = none)
    (hborn' : (t.advance env w.app).2.phase.born? = none) :
    (ServerTask.app (.create t)).StepsWell env port paths w := by
  obtain ⟨hdrawn, hstore, hleaves⟩ := create_leaves t (ht.kept _ _ rfl) hborn'
  refine stepsWell_of_unborn hw ht hborn hborn' hdrawn hstore
    (noteFiled_of_unborn hborn' w.filed) rfl rfl hleaves ?_
  show (ServerTask.app (.create (t.advance env w.app).2)).Knows env paths _
  cases hphase : (t.advance env w.app).2 with
  | mk u phase =>
      rw [hphase] at hborn'
      cases phase with
      | saving session => cases hborn'
      | _ => trivial

/-- **A session is born** with its file, under an identifier never given before. -/
theorem born_stepsWell (hw : w.Filed env paths) {u : SessionUpload MappingService}
    {activeService : MappingService} {schemaName : String} {headers : List String}
    {preview : List Row} {suggestion : MappingResult}
    (ht : (ServerTask.app (.create ⟨u, .asked activeService schemaName headers preview⟩)).Keeps env
      paths w)
    (hsuggestion : u.mappers activeService headers preview = .ok suggestion) :
    (ServerTask.app (.create ⟨u, .asked activeService schemaName headers preview⟩)).StepsWell env
      port paths w := by
  let id := env.uuid w.app.drawn
  let session := newSession id u schemaName
    (sessionTargetFields w.app.schemas.definitions schemaName) headers preview suggestion
  let w' : ServerWorld τ :=
    { w with app := w.app.capture session, filed := w.filed.set id u.path }
  have hadvance : (ServerTask.app
      (.create ⟨u, .asked activeService schemaName headers preview⟩)).advance env port w =
        (w', .app (.create ⟨u, .saving session⟩)) := by
    simp only [ServerTask.advance, AppTask.advance, CreateTask.advance, hsuggestion]
    rfl
  have hnew : ∀ sessionId, w.app.Given env sessionId → id ≠ sessionId :=
    fun sessionId hg => hg w.app.drawn (Nat.le_refl _)
  have hgiven : w'.app.Given env id := by
    intro k hk heq
    have hsame : k = w.app.drawn := env.uuidInjective heq
    have hlater : w.app.drawn + 1 ≤ k := hk
    omega
  have hmoves : w.Moves env paths (some u.path) w' := by
    refine ⟨Nat.le_succ _, ?_, ?_, fun _ hmem => hmem, fun _ hmem hnot => absurd hmem hnot,
      fun path _ _ => .inl (Files.sameAt_refl path w.disk)⟩
    · intro sessionId hg
      exact Dict.get?_set_ne _ _ (hnew sessionId hg)
    · intro sessionId path hget
      have hset : (w.filed.set id u.path).get? sessionId = some path := hget
      rw [Dict.get?_set] at hset
      split at hset
      · exact .inr hset
      · exact .inl hset
  have hfiled : w'.Filed env paths := by
    refine hw.mono hmoves (fun _ _ hget => .inl hget) ?_ fun _ hmem => .inl hmem
    intro sessionId path hget
    have hset : (w.filed.set id u.path).get? sessionId = some path := hget
    rw [Dict.get?_set] at hset
    split at hset
    · rename_i heq
      exact .inr (heq ▸ hgiven)
    · exact .inl hset
  have hkeeps : (ServerTask.app (.create ⟨u, .saving session⟩)).Keeps env paths w' := by
    refine ⟨?_, ?_, ?_⟩
    · intro path file hfile
      cases hfile
      refine Files.kept_of_has ((ht.kept _ _ rfl).has trivial) fun hmem => ?_
      exact hnew id (hw.removed id hmem) rfl
    · intro path file hfile sessionId
      cases hfile
      have hbefore := ht.filed _ _ rfl sessionId
      show (w.filed.set id u.path).get? sessionId = some u.path ↔ some id = some sessionId
      rw [Dict.get?_set, Option.some.injEq]
      split
      · rename_i heq
        exact ⟨fun _ => heq, fun _ => rfl⟩
      · rename_i hne
        constructor
        · intro hget
          cases hbefore.mp hget
        · intro heq
          exact absurd heq hne
    · have hget : w'.filed.get? id = some u.path := Dict.get?_set_self _ _ _
      refine ⟨rfl, hgiven, fun path hpath => ?_, fun hnone => ?_⟩
      · exact Option.some.inj (hget.symm.trans hpath)
      · exact absurd (hget.symm.trans hnone) (by simp)
  refine ⟨?_, ?_, ?_⟩
  all_goals rw [hadvance]
  · exact hmoves
  · exact hfiled
  · exact hkeeps

theorem create_stepsWell (hw : w.Filed env paths) {t : CreateTask}
    (ht : (ServerTask.app (.create t)).Keeps env paths w) :
    (ServerTask.app (.create t)).StepsWell env port paths w := by
  obtain ⟨u, phase⟩ := t
  cases phase with
  | waiting =>
      refine create_unborn hw ht rfl ?_
      simp only [CreateTask.advance]
      split
      · rfl
      · split
        · rfl
        · split <;> rfl
  | asked activeService schemaName headers preview =>
      cases hsuggestion : u.mappers activeService headers preview with
      | error e =>
          refine create_unborn hw ht rfl ?_
          simp only [CreateTask.advance, hsuggestion]
          rfl
      | ok suggestion => exact born_stepsWell hw ht hsuggestion
  | saving session =>
      exact stepsWell_of_quiet hw ht rfl Iff.rfl rfl rfl
        (fun _ _ hget => knows_of_saved ht.knows hget) rfl rfl trivial
  | written session =>
      exact stepsWell_of_quiet hw ht rfl Iff.rfl rfl rfl (fun _ _ hget => .inl hget) rfl rfl trivial
  | answered answer =>
      exact stepsWell_of_quiet hw ht rfl Iff.rfl rfl rfl (fun _ _ hget => .inl hget) rfl rfl trivial

/-! ### All handlers -/

/-- **One step of any handler** keeps every file where it belongs. -/
theorem stepsWell (port : JobStorePort τ) (hw : w.Filed env paths) {t : ServerTask}
    (ht : t.Keeps env paths w) :
    t.StepsWell env port paths w := by
  cases t with
  | upload t => exact upload_stepsWell hw ht
  | job r phase => exact job_stepsWell hw ht
  | sheets t => exact sheets_stepsWell hw ht
  | app t =>
      cases t with
      | schema t =>
          have hnoted : ∀ (a : AppWorld) (registered : Option TargetSchema),
              (a.noteRegistered registered).sessions = a.sessions ∧
                (a.noteRegistered registered).drawn = a.drawn := by
            intro a registered
            cases registered <;> exact ⟨rfl, rfl⟩
          obtain ⟨hsessions, hdrawn⟩ := hnoted
            { w.app with schemas := (t.advanceFactory env.factoryEnv w.app.schemas).1 }
            (t.registers env.factoryEnv)
          refine stepsWell_of_quiet hw ht rfl Iff.rfl hdrawn (congrArg SessionWorld.files hsessions)
            (fun sessionId copy hget => .inl ?_) rfl rfl trivial
          exact (congrArg SessionWorld.store hsessions) ▸ hget
      | create t => exact create_stepsWell hw ht
      | session h => exact session_stepsWell hw ht
  | beside t =>
      exact stepsWell_of_quiet hw ht rfl Iff.rfl rfl rfl (fun _ _ hget => .inl hget) rfl rfl trivial
  | expiry entry expired =>
      cases entry with
      | session sessionId =>
          cases expired with
          | true =>
              exact stepsWell_of_quiet hw ht rfl Iff.rfl rfl rfl (fun _ _ hget => .inl hget) rfl rfl
                trivial
          | false =>
              exact stepsWell_of_quiet hw ht rfl Iff.rfl rfl rfl
                (fun _ _ hget => .inl (RedisMappingSessionStore.get_of_get_delete hget)) rfl rfl
                trivial
      | job jobId =>
          cases expired <;>
            exact stepsWell_of_quiet hw ht rfl Iff.rfl rfl rfl (fun _ _ hget => .inl hget) rfl rfl
              trivial

end Steps

/-! ## Runs -/

/-- The session whose file a DELETE has removed, on its way to the answer. -/
def ServerTask.deleted? : ServerTask → Option String
  | .app (.session ⟨sessionId, ⟨.delete, .deleting⟩, _⟩)
  | .app (.session ⟨sessionId, ⟨.delete, .written _⟩, _⟩)
  | .app (.session ⟨sessionId, ⟨.delete, .answered (.ok _)⟩, _⟩) => some sessionId
  | _ => none

/-- The state of a process before its first request. -/
def startServer {τ : Type} (app : AppWorld) (stores : Stores) (jobs : τ) : ServerWorld τ :=
  { app, stores, jobs }

/-- The tasks on a server, after a schedule. -/
def runServer {τ : Type} (env : AppEnv) (port : JobStorePort τ) (w : ServerWorld τ)
    (tasks : List ServerTask) (schedule : List Nat) : Pool (ServerWorld τ) ServerTask :=
  Pool.run (ServerTask.advance env port) ⟨w, tasks⟩ schedule

section Runs
variable {τ : Type} {env : AppEnv} {port : JobStorePort τ}

theorem deleted?_edit (sessionId : String) (e : SessionEdit) (phase : SessionPhase)
    (used : Option MappingService) :
    (ServerTask.app (.session ⟨sessionId, ⟨.edit e, phase⟩, used⟩)).deleted? = none := by
  cases phase <;> rfl

/-- A DELETE is noted when it removes the file, and stays noted. -/
theorem deleted?_advance (port : JobStorePort τ) {paths : List String} {w : ServerWorld τ}
    {t : ServerTask} (hknows : t.Knows env paths w) :
    ((t.advance env port w).2.deleted? = t.deleted? ∧
      (t.advance env port w).1.removed = w.removed) ∨
    ∃ sessionId, t.deleted? = none ∧ (t.advance env port w).2.deleted? = some sessionId ∧
      (t.advance env port w).1.removed = sessionId :: w.removed := by
  cases t with
  | upload t => exact .inl ⟨rfl, (upload_same env w t).removed⟩
  | job r phase => exact .inl ⟨rfl, (job_same env port w r phase).removed⟩
  | sheets t => exact .inl ⟨rfl, (sheets_same env w t).removed⟩
  | app t =>
      cases t with
      | schema t => exact .inl ⟨rfl, rfl⟩
      | create t => exact .inl ⟨rfl, rfl⟩
      | session h =>
          obtain ⟨sessionId, ⟨request, phase⟩, used⟩ := h
          cases phase with
          | loaded copy =>
              cases copy with
              | none => cases request <;> exact .inl ⟨rfl, rfl⟩
              | some copy =>
                  cases request with
                  | delete => exact .inr ⟨sessionId, rfl, rfl, rfl⟩
                  | edit e =>
                      obtain ⟨phase, used', hadvance, _⟩ := edit_advance port e used hknows
                      rw [hadvance]
                      exact .inl ⟨deleted?_edit sessionId e phase used', rfl⟩
          | saving copy session =>
              cases request with
              | delete => exact absurd rfl hknows.2
              | edit e => exact .inl ⟨rfl, rfl⟩
          | answered answer => cases request <;> cases answer <;> exact .inl ⟨rfl, rfl⟩
          | _ => cases request <;> exact .inl ⟨rfl, rfl⟩
  | beside t => exact .inl ⟨rfl, rfl⟩
  | expiry entry expired => cases entry <;> cases expired <;> exact .inl ⟨rfl, rfl⟩

/-- What holds between any two steps: no two tasks have one file, the sessions
removed are those of the DELETE handlers, and every file is where it belongs. -/
structure DiskInvariant (env : AppEnv) (paths : List String) (p : Pool (ServerWorld τ) ServerTask) :
    Prop where
  holds : p.Holds (ServerWorld.Filed env paths) fun w t => t.Keeps env paths w
  paths : (p.collect ServerTask.path?).Perm paths
  removed : p.shared.removed.Perm (p.collect ServerTask.deleted?)

/-- **One step keeps the invariant.** -/
theorem diskInvariant_step {paths : List String} (hnames : paths.Nodup)
    {p : Pool (ServerWorld τ) ServerTask} (hp : DiskInvariant env paths p) (i : Nat) :
    DiskInvariant env paths (p.step (ServerTask.advance env port) i) := by
  cases ht : p.tasks[i]? with
  | none => rwa [Pool.step_none _ ht]
  | some t =>
      have hpath : (ServerTask.path? (t.advance env port p.shared).2) = t.path? :=
        congrArg (Option.map Prod.fst) (t.temp?_advance env port p.shared)
      refine ⟨?_, (Pool.collect_same _ ht hpath).trans hp.paths, ?_⟩
      · refine Pool.step_holds_keyed _ hp.holds (hp.paths.nodup_iff.mpr hnames) fun u hu => ?_
        rw [ht] at hu
        cases hu
        have hstep := stepsWell port hp.holds.1
          (hp.holds.2 t (List.mem_of_getElem? ht))
        refine ⟨hstep.filed, hstep.keeps, fun u hu hother hkeeps => ?_⟩
        refine hkeeps.mono hstep.moves hp.holds.1 fun path hpath => ⟨?_, hother path hpath⟩
        exact hp.paths.subset (List.mem_filterMap.mpr ⟨u, hu, hpath⟩)
      · have hshared : (p.step (ServerTask.advance env port) i).shared =
            (t.advance env port p.shared).1 := by rw [Pool.step_some _ ht]
        rw [hshared]
        rcases deleted?_advance port (hp.holds.2 t (List.mem_of_getElem? ht)).knows with
          ⟨hdeleted, hremoved⟩ | ⟨sessionId, hbefore, hafter, hremoved⟩
        · rw [hremoved]
          exact hp.removed.trans (Pool.collect_same _ ht hdeleted).symm
        · rw [hremoved]
          exact (hp.removed.cons sessionId).trans (Pool.collect_gain _ ht hbefore hafter).symm

theorem diskInvariant_run (port : JobStorePort τ) {paths : List String} (hnames : paths.Nodup)
    {p : Pool (ServerWorld τ) ServerTask} (hp : DiskInvariant env paths p) (schedule : List Nat) :
    DiskInvariant env paths (p.run (ServerTask.advance env port) schedule) := by
  induction schedule generalizing p with
  | nil => exact hp
  | cons i rest ih => exact ih (diskInvariant_step hnames hp i)

/-- No temp name is given twice, none is that of a file there already, and no
session of an earlier process has a file of that name. -/
structure NewNames (env : AppEnv) (app : AppWorld) (paths : List String) : Prop where
  distinct : paths.Nodup
  free : ∀ path ∈ paths, app.sessions.files.pathExists path = false
  fresh : FreshSessions env app.sessions.store
  foreign : ∀ sessionId copy, RedisMappingSessionStore.get app.sessions.store sessionId =
    some copy → copy.filePath ∉ paths

/-- A task that has not begun has no file yet, and no session. -/
theorem begins_unheld (env : AppEnv) (paths : List String) (w : ServerWorld τ) {t : ServerTask}
    (h : t.Begins) :
    (∀ removed, ¬ t.Held removed) ∧ t.born? = none ∧ t.deleted? = none ∧ t.Knows env paths w := by
  cases t with
  | upload t =>
      obtain ⟨request, outages, phase⟩ := t
      have hphase : phase = .received := h
      subst hphase
      exact ⟨fun _ hheld => hheld, rfl, rfl, trivial⟩
  | job r phase =>
      have hphase : phase = .received := h
      subst hphase
      exact ⟨fun _ hheld => hheld, rfl, rfl, trivial⟩
  | app t =>
      obtain ⟨request, rfl⟩ := h
      cases request with
      | session sessionId request =>
          cases request <;> exact ⟨fun _ hheld => hheld, rfl, rfl, trivial⟩
      | _ => exact ⟨fun _ hheld => hheld, rfl, rfl, trivial⟩
  | _ => exact ⟨fun _ hheld => hheld, rfl, rfl, trivial⟩

theorem diskInvariant_start {app : AppWorld} {tasks : List ServerTask} (stores : Stores) (jobs : τ)
    (hbegin : ∀ t ∈ tasks, t.Begins)
    (hnames : NewNames env app (tasks.filterMap ServerTask.path?)) :
    DiskInvariant env (tasks.filterMap ServerTask.path?)
      ⟨startServer app stores jobs, tasks⟩ := by
  refine ⟨⟨⟨fun sessionId copy hget => ?_, ?_, ?_⟩, fun t ht => ?_⟩, .refl _, ?_⟩
  · obtain ⟨hid, hnever⟩ := hnames.fresh sessionId copy hget
    refine ⟨hid, fun k _ => hnever k, ?_, fun _ => hnames.foreign sessionId copy hget⟩
    intro path hpath
    cases hpath
  · intro sessionId path hpath
    cases hpath
  · intro sessionId hmem
    cases hmem
  · obtain ⟨hunheld, hunborn, _, hknows⟩ :=
      begins_unheld env (tasks.filterMap ServerTask.path?) (startServer app stores jobs)
        (hbegin t ht)
    refine ⟨fun path file hfile => ?_, fun path file hfile sessionId => ?_, hknows⟩
    · have hmem : path ∈ tasks.filterMap ServerTask.path? := by
        refine List.mem_filterMap.mpr ⟨t, ht, ?_⟩
        rw [ServerTask.path?, hfile, Option.map_some]
      exact Files.kept_of_gone (hnames.free path hmem) (hunheld _)
    · rw [hunborn]
      constructor
      · intro hpath
        cases hpath
      · intro hborn
        cases hborn
  · have hnone : tasks.filterMap ServerTask.deleted? = [] := by
      refine List.filterMap_eq_nil_iff.mpr fun t ht => ?_
      exact (begins_unheld env [] (startServer app stores jobs) (hbegin t ht)).2.2.1
    show List.Perm [] (tasks.filterMap ServerTask.deleted?)
    rw [hnone]

/-- Every temp file is on the disk, as it was uploaded, exactly while its task
has it; and the file a session names is the one it was created with. -/
structure FilesAccounted (p : Pool (ServerWorld τ) ServerTask) : Prop where
  kept : ∀ t ∈ p.tasks, ∀ path file, t.temp? = some (path, file) →
    p.shared.disk.Kept path file (t.Held (p.collect ServerTask.deleted?))
  named : ∀ t ∈ p.tasks, ∀ path file sessionId copy, t.temp? = some (path, file) →
    t.born? = some sessionId →
    RedisMappingSessionStore.get p.shared.app.sessions.store sessionId = some copy →
    copy.filePath = path

/-- **Every temp file is accounted for.** After every schedule of uploads,
background jobs, sheet lists, schema and session requests, corrections and
expiring entries, on any job store and with any of its calls failing: the temp
file of an upload is there while that is served, the file of a job from its
acceptance until it has ended, or for good if a call to the job store raised,
that of a sheet list never, and that of a session from its creation until a
DELETE has removed it, whether the session expires or not. -/
theorem temp_files_accounted (env : AppEnv) (port : JobStorePort τ) (app : AppWorld)
    (stores : Stores) (jobs : τ) (tasks : List ServerTask) (hbegin : ∀ t ∈ tasks, t.Begins)
    (hnames : NewNames env app (tasks.filterMap ServerTask.path?)) (schedule : List Nat) :
    FilesAccounted (runServer env port (startServer app stores jobs) tasks schedule) := by
  have hinv := diskInvariant_run port hnames.distinct
    (diskInvariant_start stores jobs hbegin hnames) schedule
  refine ⟨fun t ht path file hfile => ?_, fun t ht path file sessionId copy hfile hborn hget => ?_⟩
  · refine ((hinv.holds.2 t ht).kept path file hfile).of_iff ?_
    exact t.held_congr fun sessionId => hinv.removed.mem_iff.symm
  · have hfiled := ((hinv.holds.2 t ht).filed path file hfile sessionId).mpr hborn
    exact (hinv.holds.1.stored sessionId copy hget).filed path hfiled

end Runs

/-- A session on the premiums, which expires before anybody deletes it, beside
an upload of the same file under another temp name. -/
def expiringTasks : List ServerTask :=
  [.app (.begin (.create { hullUpload with schema := none })), .expiry (.session "") false,
    .upload { request := { file := grossFile, temp := ⟨"/tmp", "q7w2e9rt", by decide⟩
                           mappers := fun _ _ _ => .ok ⟨[], ["GWP"], List.nodup_nil⟩ } }]

def expiredSession : Pool (ServerWorld (Dict String Job)) ServerTask :=
  runServer bookEnv inMemoryJobs (startServer (startApp bookEnv ∅ [] ⟨∅, noDisk⟩) .empty ∅)
    expiringTasks [0, 2, 0, 0, 2, 0, 1]

theorem expiringTasks_begin : ∀ t ∈ expiringTasks, t.Begins := by
  intro t ht
  simp only [expiringTasks, List.mem_cons, List.not_mem_nil, or_false] at ht
  rcases ht with rfl | rfl | rfl
  · exact ⟨_, rfl⟩
  · rfl
  · rfl

theorem expiringTasks_new : NewNames bookEnv (startApp bookEnv ∅ [] ⟨∅, noDisk⟩)
    (expiringTasks.filterMap ServerTask.path?) := by
  refine ⟨by decide, fun _ _ => rfl, ?_, ?_⟩
  · intro key session hget
    cases hget
  · intro key session hget
    cases hget

/-- The session is gone, its file is not. -/
theorem expired_session_keeps_file :
    FilesAccounted expiredSession ∧
      RedisMappingSessionStore.get expiredSession.shared.app.sessions.store "" = none ∧
      expiredSession.shared.disk.pathExists (tempPath someTemp grossFile) = true :=
  ⟨temp_files_accounted bookEnv inMemoryJobs _ _ _ expiringTasks expiringTasks_begin
    expiringTasks_new _, rfl, rfl⟩

end RiskFlow
