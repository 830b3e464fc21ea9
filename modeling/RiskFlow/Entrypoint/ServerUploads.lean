import RiskFlow.Entrypoint.ServerDisk

/-!
# ServerUploads — what an upload answers on a busy server

`POST /upload` resolves its service once and then reads its temp file and the
caches in several steps, while other handlers write and remove files, replace
schemas and fill the caches. Its answer is still that of one call alone: on
the schemas of one moment, one state of the caches and its own file.
-/

namespace RiskFlow

open Lib MappingService

/-! ## The services of a process -/

/-- The services that `_make_service` makes. -/
def processServices : Set MappingService := Set.range makeService

theorem mappingService_mem (env : AppEnv) : env.mappingService ∈ processServices := by
  have hserved := builtin_served env.factoryEnv.toSchemaEnv env.files
    (defaultSchema env.files env.defaultName).name
  unfold AppEnv.mappingService
  dsimp only at hserved ⊢
  rw [hserved]
  cases (loadAllSchemas env.files).get? (defaultSchema env.files env.defaultName).name with
  | none => exact ⟨firstSchema env.files, rfl⟩
  | some schema => exact ⟨schema, rfl⟩

/-- Every registered service was made here. -/
def AppWorld.Made (w : AppWorld) : Prop :=
  ∀ n svc, w.schemas.registry.get? n = some svc → svc ∈ processServices

theorem resolveService_mem {env : AppEnv} {w : AppWorld} (hw : w.Made) {schema : Option String}
    {svc : MappingService} (h : (w.router env).resolveService schema = .ok svc) :
    svc ∈ processServices := by
  unfold Router.resolveService at h
  cases schema with
  | none =>
      cases h
      exact mappingService_mem env
  | some name =>
      dsimp only at h
      split at h
      · cases h
        exact mappingService_mem env
      · obtain ⟨_, _, h⟩ := bind_eq_ok.mp h
        cases hget : w.schemas.registry.get? name with
        | none =>
            simp only [AppWorld.router, hget] at h
            cases h
        | some found =>
            simp only [AppWorld.router, hget] at h
            cases h
            exact hw name _ hget

/-! ## Alone -/

section Alone
variable {τ : Type} (env : AppEnv) (moment : AppWorld → Prop) (disk : Files)

/-- The call of `process_file` for a job, with nothing but its own file. -/
def JobRequest.alone (r : JobRequest) : Upload := r.call (saveTempFile disk r.path r.file)

/-- The answer is that of the route alone: on the schemas of some moment, and
one state of the caches that the services wrote. -/
def UploadRequest.AnsweredAlone (u : UploadRequest MappingService)
    (answer : Except HttpException ProcessingResult) : Prop :=
  ∃ app stores, moment app ∧ AllWritten env.rt processServices stores ∧
    answer = (uploadFile (app.router env) disk stores u).1

/-- The job has ended as its file does alone, on one state of the caches. -/
def JobRequest.EndedAlone (r : JobRequest) (job : Job) (raised : Option PyErr) : Prop :=
  ∃ stores, AllWritten env.rt processServices stores ∧
    (job, raised) = completeOrFail env.rt (startedJob r.id r.createdAt r.file.filename)
      (((r.alone disk).process env.rt env.mappingService stores).1)

/-- What an upload has seen so far, it would have seen alone. -/
def UploadTask.Alone (t : UploadTask) : Prop :=
  match t.phase with
  | .received => True
  | .serving svc phase => (∃ app, moment app ∧ validateFile env.rt t.request.file = .ok () ∧
        (app.router env).resolveService t.request.schema = .ok svc) ∧
      svc ∈ processServices ∧ phase.SeesOne env.rt processServices svc (t.request.call disk svc)
  | .answered answer => t.request.AnsweredAlone env moment disk answer

def JobRequest.Alone (r : JobRequest) : JobPhase → Prop
  | .queued job => job = Job.create r.id r.createdAt r.file.filename
  | .processing job phase => job = startedJob r.id r.createdAt r.file.filename ∧
      phase.SeesOne env.rt processServices env.mappingService (r.alone disk)
  | .ended job raised => r.EndedAlone env disk job raised
  | _ => True

/-- What is known of a task between two of its steps, whatever the others do. -/
def ServerTask.Alone : ServerTask → Prop
  | .upload t => t.Alone env moment disk
  | .job r phase => r.Alone env disk phase
  | .app (.schema t) => t.Named
  | .beside t => t.SeesOne env.rt processServices
  | _ => True

/-- What holds of the shared state: who made the services and filled the caches. -/
structure ServerWorld.Made (w : ServerWorld τ) : Prop where
  services : w.app.Made
  written : AllWritten env.rt processServices w.stores

end Alone

/-! ## Steps -/

section Steps
variable {τ : Type} {env : AppEnv} {moment : AppWorld → Prop} {disk : Files}
  {port : JobStorePort τ} {w : ServerWorld τ}

/-- A step of `process_file` among others sees what it would see alone. -/
theorem serving_seesOne {svc : MappingService} (hsvc : svc ∈ processServices) (u : Upload)
    {files : Files} (hfile : Files.SameAt u.filePath u.files files) (outages : Outages)
    {stores : Stores} (hstores : AllWritten env.rt processServices stores) (phase : UploadPhase)
    (hphase : phase.SeesOne env.rt processServices svc u) :
    AllWritten env.rt processServices
        (phase.advance env.rt svc { u with files } outages stores).1 ∧
      (phase.advance env.rt svc { u with files } outages stores).2.SeesOne env.rt processServices
        svc u := by
  rw [advance_sameAt hfile]
  exact upload_seesOne hsvc outages hstores hphase

theorem settle_alone (t : UploadTask) (files : Files) {svc : MappingService}
    (hsvc : svc ∈ processServices) {app : AppWorld} (happ : moment app)
    (hvalid : validateFile env.rt t.request.file = .ok ())
    (hresolved : (app.router env).resolveService t.request.schema = .ok svc)
    {r : Stores × UploadPhase} (hstores : AllWritten env.rt processServices r.1)
    (hphase : r.2.SeesOne env.rt processServices svc (t.request.call disk svc)) :
    AllWritten env.rt processServices (t.settle env w files svc r).1.stores ∧
      (t.settle env w files svc r).2.Alone env moment disk := by
  obtain ⟨stores, phase⟩ := r
  cases phase with
  | answered outcome =>
      obtain ⟨seen, hseen, houtcome⟩ := hphase
      have hanswer : uploadFile (app.router env) disk seen t.request = _ :=
        uploadFile_resolved hvalid hresolved
      refine ⟨hstores, app, seen, happ, hseen, ?_⟩
      show outcome.mapError (uploadError env.rt) =
        (uploadFile (app.router env) disk seen t.request).1
      rw [hanswer, houtcome]
      rfl
  | _ => exact ⟨hstores, ⟨app, happ, hvalid, hresolved⟩, hsvc, hphase⟩

/-- **One step of an upload** keeps it alone, while its file is held. -/
theorem upload_alone (hmoment : moment w.app) (hw : w.Made env) {t : UploadTask}
    (hkept : w.disk.Kept t.request.path t.request.file (ServerTask.Held w.removed (.upload t)))
    (ht : t.Alone env moment disk) :
    AllWritten env.rt processServices (t.advance env w).1.stores ∧
      (t.advance env w).2.Alone env moment disk := by
  obtain ⟨request, outages, phase⟩ := t
  have hsame : ∀ svc files, files.Has request.path request.file →
      Files.SameAt (request.call disk svc).filePath (request.call disk svc).files files :=
    fun _ _ hhas => (Files.has_saveTempFile disk request.path request.file).sameAt hhas
  cases phase with
  | received =>
      simp only [UploadTask.advance]
      cases hvalid : validateFile env.rt request.file with
      | error e =>
          refine ⟨hw.written, w.app, .empty, hmoment, allWritten_empty, ?_⟩
          simp only [uploadFile, AppWorld.router_rt, hvalid]
      | ok _ =>
          cases hresolved : (w.app.router env).resolveService request.schema with
          | error e =>
              refine ⟨hw.written, w.app, .empty, hmoment, allWritten_empty, ?_⟩
              simp only [uploadFile, AppWorld.router_rt, hvalid, hresolved]
          | ok svc =>
              have hsvc := resolveService_mem hw.services hresolved
              have hsaved := Files.has_saveTempFile w.disk request.path request.file
              obtain ⟨hstores, hphase⟩ := serving_seesOne hsvc (request.call disk svc)
                (hsame svc _ hsaved) outages hw.written .started trivial
              exact settle_alone ⟨request, outages, .received⟩
                (saveTempFile w.disk request.path request.file) hsvc hmoment hvalid hresolved
                hstores hphase
  | serving svc phase =>
      obtain ⟨⟨app, happ, hvalid, hresolved⟩, hsvc, hphase⟩ := ht
      obtain ⟨hstores, hphase'⟩ := serving_seesOne hsvc (request.call disk svc)
        (hsame svc _ (hkept.has trivial)) outages hw.written phase hphase
      exact settle_alone _ _ hsvc happ hvalid hresolved hstores hphase'
  | answered answer => exact ⟨hw.written, ht⟩

/-- **One step of a job** keeps it alone, while its file is held. -/
theorem job_alone (port : JobStorePort τ) (hw : w.Made env) {r : JobRequest} {phase : JobPhase}
    (hkept : w.disk.Kept r.path r.file (ServerTask.Held w.removed (.job r phase)))
    (hr : r.Alone env disk phase) :
    AllWritten env.rt processServices (r.advance env port w phase).1.stores ∧
      r.Alone env disk (r.advance env port w phase).2 := by
  cases phase with
  | received =>
      simp only [JobRequest.advance, JobRequest.accept]
      split
      · exact ⟨hw.written, trivial⟩
      · split
        · exact ⟨hw.written, trivial⟩
        · exact ⟨hw.written, rfl⟩
  | queued job =>
      have hjob : job = Job.create r.id r.createdAt r.file.filename := hr
      have hstart : job.start = .ok (startedJob r.id r.createdAt r.file.filename) := by
        rw [hjob]
        rfl
      simp only [JobRequest.advance, JobRequest.begin, hstart]
      split
      · exact ⟨hw.written, trivial⟩
      · exact ⟨hw.written, rfl, trivial⟩
  | processing job phase =>
      obtain ⟨hjob, hphase⟩ := hr
      have hsame : Files.SameAt (r.alone disk).filePath (r.alone disk).files w.disk :=
        (Files.has_saveTempFile disk r.path r.file).sameAt (hkept.has trivial)
      have hnext := serving_seesOne (mappingService_mem env) (r.alone disk) hsame r.outages
        hw.written phase hphase
      cases phase with
      | answered outcome =>
          obtain ⟨seen, hseen, houtcome⟩ := hphase
          simp only [JobRequest.advance, JobRequest.conclude]
          split
          · exact ⟨hw.written, trivial⟩
          · refine ⟨hw.written, seen, hseen, ?_⟩
            rw [hjob, houtcome]
      | _ => exact ⟨hnext.1, hjob, hnext.2⟩
  | _ => exact ⟨hw.written, hr⟩

theorem create_schemas (env : AppEnv) (w : AppWorld) (t : CreateTask) :
    (t.advance env w).1.schemas = w.schemas := by
  unfold CreateTask.advance
  dsimp only
  split
  · split
    · rfl
    · split
      · rfl
      · split <;> rfl
  · split <;> rfl
  · rfl
  · rfl
  · rfl

/-- A schema handler registers what `_make_service` makes. -/
theorem schema_made (env : AppEnv) (hw : w.app.Made) {t : SchemaTask} (ht : t.Named) :
    (AppTask.advance env w.app (.schema t)).1.Made ∧
      (t.advanceFactory env.factoryEnv w.app.schemas).2.Named := by
  obtain ⟨hnamed, heffect⟩ := advanceFactory_schemas env.factoryEnv w.app.schemas ht
  refine ⟨fun n svc hget => ?_, hnamed⟩
  have hnoted : ∀ (a : AppWorld) (registered : Option TargetSchema),
      (a.noteRegistered registered).schemas = a.schemas := by
    intro a registered
    cases registered <;> rfl
  simp only [AppTask.advance, hnoted] at hget
  rcases heffect with ⟨hregistry, _, _⟩ | ⟨schema, _, _, hregistry, _⟩ | ⟨name, _, _, hregistry, _⟩
  · rw [hregistry] at hget
    exact hw n svc hget
  · rw [hregistry, Dict.get?_set] at hget
    split at hget
    · cases hget
      exact ⟨schema, rfl⟩
    · exact hw n svc hget
  · rw [hregistry, Dict.get?_erase] at hget
    split at hget
    · cases hget
    · exact hw n svc hget

theorem made_of_schemas {app : AppWorld} (hw : w.app.Made) (h : app.schemas = w.app.schemas) :
    app.Made := by
  intro n svc hget
  rw [h] at hget
  exact hw n svc hget

/-- **One step of any handler** keeps every upload alone. -/
theorem alone_step (port : JobStorePort τ) {paths : List String} (hmoment : moment w.app)
    (hw : w.Made env) {t : ServerTask} (hkeeps : t.Keeps env paths w)
    (ht : t.Alone env moment disk) :
    (t.advance env port w).1.Made env ∧ (t.advance env port w).2.Alone env moment disk := by
  cases t with
  | upload t =>
      obtain ⟨hstores, halone⟩ := upload_alone hmoment hw (hkeeps.kept _ _ rfl) ht
      exact ⟨⟨made_of_schemas hw.services (upload_same env w t).schemas, hstores⟩, halone⟩
  | job r phase =>
      obtain ⟨hstores, halone⟩ := job_alone port hw (hkeeps.kept _ _ rfl) ht
      exact ⟨⟨made_of_schemas hw.services (job_same env port w r phase).schemas, hstores⟩, halone⟩
  | sheets t =>
      have hstores : (t.advance env w).1.stores = w.stores := by
        unfold SheetsTask.advance
        split
        · rfl
        · split <;> rfl
      refine ⟨⟨made_of_schemas hw.services (sheets_same env w t).schemas, ?_⟩, trivial⟩
      show AllWritten env.rt processServices (t.advance env w).1.stores
      rw [hstores]
      exact hw.written
  | app t =>
      cases t with
      | schema t =>
          obtain ⟨hmade, hnamed⟩ := schema_made env hw.services ht
          exact ⟨⟨hmade, hw.written⟩, hnamed⟩
      | create t =>
          exact ⟨⟨made_of_schemas hw.services (create_schemas env w.app t), hw.written⟩, trivial⟩
      | session h => exact ⟨⟨hw.services, hw.written⟩, trivial⟩
  | beside t =>
      obtain ⟨hstores, hsees⟩ := task_seesOne hw.written ht
      exact ⟨⟨hw.services, hstores⟩, hsees⟩
  | expiry entry expired =>
      cases entry <;> cases expired <;> exact ⟨⟨hw.services, hw.written⟩, trivial⟩

end Steps

/-! ## Runs -/

section Runs
variable {τ : Type} {env : AppEnv} {port : JobStorePort τ}

/-- **A run keeps every upload alone**, if its states are among the moments. -/
theorem alone_run (moment : AppWorld → Prop) (disk : Files) {paths : List String}
    (hnames : paths.Nodup) {p : Pool (ServerWorld τ) ServerTask} (hdisk : DiskInvariant env paths p)
    (hp : p.Holds (ServerWorld.Made env) fun _ t => t.Alone env moment disk)
    (schedule : List Nat) (hmoment : ∀ front, front <+: schedule →
      moment (p.run (ServerTask.advance env port) front).shared.app) :
    (p.run (ServerTask.advance env port) schedule).Holds (ServerWorld.Made env)
      fun _ t => t.Alone env moment disk := by
  induction schedule generalizing p with
  | nil => exact hp
  | cons i rest ih =>
      refine ih (diskInvariant_step hnames hdisk i) (Pool.step_holds _ hp fun t ht => ?_) ?_
      · have hmem := List.mem_of_getElem? ht
        have hfirst := hmoment [] (List.nil_prefix)
        obtain ⟨hmade, halone⟩ := alone_step port hfirst hp.1 (hdisk.holds.2 t hmem) (hp.2 t hmem)
        exact ⟨hmade, halone, fun _ _ hu => hu⟩
      · intro front hfront
        exact hmoment (i :: front) (List.cons_prefix_cons.mpr ⟨rfl, hfront⟩)

theorem alone_begin (moment : AppWorld → Prop) (disk : Files) {t : ServerTask} (h : t.Begins)
    (hbeside : ∀ other, t = .beside other → other.On processServices) :
    t.Alone env moment disk := by
  cases t with
  | upload t =>
      obtain ⟨request, outages, phase⟩ := t
      have hphase : phase = .received := h
      subst hphase
      trivial
  | job r phase =>
      have hphase : phase = .received := h
      subst hphase
      trivial
  | app t =>
      obtain ⟨request, rfl⟩ := h
      cases request <;> trivial
  | beside other => exact seesOne_begin h (hbeside other rfl)
  | _ => trivial

theorem answeredAlone_of_alone {moment : AppWorld → Prop} {disk : Files} {t : UploadTask}
    {answer : Except HttpException ProcessingResult}
    (h : (ServerTask.upload t).Alone env moment disk) (hphase : t.phase = .answered answer) :
    t.request.AnsweredAlone env moment disk answer := by
  obtain ⟨request, outages, phase⟩ := t
  subst hphase
  exact h

/-- What `processServices` made of a file has no mapping below their threshold. -/
theorem confident_alone {svc : MappingService} (hsvc : svc ∈ processServices) {stores : Stores}
    (hstores : AllWritten env.rt processServices stores) {u : Upload} {result : ProcessingResult}
    (h : (u.process env.rt svc stores).1 = .ok result) :
    (∀ m ∈ result.mapping.mappings, defaultConfidenceThreshold ≤ m.confidence) ∧
      result.confidenceReport.lowConfidenceFields = [] := by
  have hthreshold : ∀ other ∈ processServices,
      other.confidenceThreshold = defaultConfidenceThreshold := by
    intro other hother
    obtain ⟨schema, rfl⟩ := hother
    rfl
  obtain ⟨headers, hnodup, hwritten⟩ := written_of_process hsvc hstores h
  have hconfident := confident_of_written
    (fun other hother => by rw [hthreshold other hother]; norm_num [defaultConfidenceThreshold])
    (fun reader hreader writer hwriter _ => by
      rw [hthreshold reader hreader, hthreshold writer hwriter]) hsvc hnodup hwritten
  refine ⟨fun m hm => hthreshold svc hsvc ▸ hconfident m hm, ?_⟩
  obtain ⟨_, _, _, _, hvalid⟩ := processFile_runs h
  obtain ⟨df, _, htable⟩ := bind_eq_ok.mp hvalid
  obtain ⟨_, _, _, _, _, _, hmade⟩ := validateTable_ok htable
  rw [hmade]
  exact lowConfidenceFields_nil hconfident _

/-- The route answers with a result only what its service made of the file. -/
theorem uploadFile_ok {router : Router MappingService} {disk : Files} {stores : Stores}
    {u : UploadRequest MappingService} {result : ProcessingResult}
    (h : (uploadFile router disk stores u).1 = .ok result) :
    ∃ svc, router.resolveService u.schema = .ok svc ∧
      ((u.call disk svc).process router.rt (router.service svc) stores).1 = .ok result := by
  cases hvalid : validateFile router.rt u.file with
  | error e =>
      simp only [uploadFile, hvalid] at h
      cases h
  | ok _ =>
      cases hresolved : router.resolveService u.schema with
      | error e =>
          simp only [uploadFile, hvalid, hresolved] at h
          cases h
      | ok svc =>
          refine ⟨svc, rfl, ?_⟩
          rw [uploadFile_resolved hvalid hresolved] at h
          exact mapError_eq_ok.mp h

/-- What the answers of a run come to, next to any other files than those of
the run. -/
structure UploadsAlone (env : AppEnv) (port : JobStorePort τ) (disk : Files)
    (start : Pool (ServerWorld τ) ServerTask) (schedule : List Nat) : Prop where
  answered : ∀ t answer,
    ServerTask.upload t ∈ (start.run (ServerTask.advance env port) schedule).tasks →
    t.phase = .answered answer →
    ∃ front seen, front <+: schedule ∧ AllWritten env.rt processServices seen ∧
      answer = (uploadFile
        ((start.run (ServerTask.advance env port) front).shared.app.router env) disk seen
        t.request).1
  confident : ∀ t result,
    ServerTask.upload t ∈ (start.run (ServerTask.advance env port) schedule).tasks →
    t.phase = .answered (.ok result) →
    (∀ m ∈ result.mapping.mappings, defaultConfidenceThreshold ≤ m.confidence) ∧
      result.confidenceReport.lowConfidenceFields = []
  ended : ∀ r job raised,
    ServerTask.job r (.ended job raised) ∈
      (start.run (ServerTask.advance env port) schedule).tasks →
    r.EndedAlone env disk job raised

/-- **On a busy server every upload is answered alone.** After every schedule
of all the handlers of a process, with schemas created and deleted, files of
others written and removed and caches filled and emptied meanwhile: each answer
of `POST /upload` is the route's own on the schemas of one moment, one state of
the caches and its own file, no result has a mapping below the threshold, and
each job has ended as its file does alone. -/
theorem uploads_answer_alone (env : AppEnv) (port : JobStorePort τ) (store : Dict String Json)
    (pages : List (List String)) (sessions : SessionWorld) {stores : Stores} (jobs : τ)
    (tasks : List ServerTask) (disk : Files) (hbegin : ∀ t ∈ tasks, t.Begins)
    (hnames : NewNames env (startApp env store pages sessions)
      (tasks.filterMap ServerTask.path?))
    (hstores : AllWritten env.rt processServices stores)
    (hbeside : ∀ t, ServerTask.beside t ∈ tasks → t.On processServices) (schedule : List Nat) :
    UploadsAlone env port disk
      ⟨startServer (startApp env store pages sessions) stores jobs, tasks⟩ schedule := by
  let start : Pool (ServerWorld τ) ServerTask :=
    ⟨startServer (startApp env store pages sessions) stores jobs, tasks⟩
  have hdisk : DiskInvariant env (tasks.filterMap ServerTask.path?) start :=
    diskInvariant_start stores jobs hbegin hnames
  have hmade : (startApp env store pages sessions).Made := by
    intro n svc hget
    have hserved : _ = some svc :=
      (createApp_served env.factoryEnv.toSchemaEnv env.files store pages n).symm.trans hget
    obtain ⟨schema, _, rfl⟩ := Option.map_eq_some_iff.mp hserved
    exact ⟨schema, rfl⟩
  have hstart : ∀ moment, start.Holds (ServerWorld.Made env) fun _ t => t.Alone env moment disk :=
    fun moment => ⟨⟨hmade, hstores⟩, fun t ht =>
      alone_begin moment disk (hbegin t ht) fun other hother => hbeside other (hother ▸ ht)⟩
  -- first that the services are made here at every moment, then what is said of the moments
  have hservices : ∀ front, (start.run (ServerTask.advance env port) front).shared.app.Made :=
    fun front => (alone_run (fun _ => True) disk hnames.distinct hdisk (hstart _) front
      fun _ _ => trivial).1.services
  have hrun := alone_run
    (fun app => app.Made ∧ ∃ front, front <+: schedule ∧
      (start.run (ServerTask.advance env port) front).shared.app = app)
    disk hnames.distinct hdisk (hstart _) schedule
    fun front hfront => ⟨hservices front, front, hfront, rfl⟩
  refine ⟨fun t answer ht hphase => ?_, fun t result ht hphase => ?_, fun r job raised ht => ?_⟩
  · obtain ⟨app, seen, ⟨_, front, hfront, rfl⟩, hseen, hanswer⟩ :=
      answeredAlone_of_alone (hrun.2 _ ht) hphase
    exact ⟨front, seen, hfront, hseen, hanswer⟩
  · obtain ⟨app, seen, ⟨hservice, _⟩, hseen, hanswer⟩ :=
      answeredAlone_of_alone (hrun.2 _ ht) hphase
    obtain ⟨svc, hresolved, hprocess⟩ := uploadFile_ok hanswer.symm
    exact confident_alone (resolveService_mem hservice hresolved) hseen hprocess
  · exact hrun.2 _ ht

end Runs

/-- `expiringTasks`, with all turns the upload needs between those of the rest. -/
def expiringUpload : List Nat := [0, 2, 0, 2, 2, 0, 2, 0, 1, 2]

theorem expiring_upload_alone :
    UploadsAlone bookEnv inMemoryJobs noDisk
        ⟨startServer (startApp bookEnv ∅ [] ⟨∅, noDisk⟩) .empty ∅, expiringTasks⟩ expiringUpload ∧
      ∃ t answer, ServerTask.upload t ∈ (Pool.run (ServerTask.advance bookEnv inMemoryJobs)
          ⟨startServer (startApp bookEnv ∅ [] ⟨∅, noDisk⟩) .empty ∅, expiringTasks⟩
          expiringUpload).tasks ∧
        t.phase = .answered answer := by
  refine ⟨uploads_answer_alone bookEnv inMemoryJobs ∅ [] ⟨∅, noDisk⟩ ∅ expiringTasks noDisk ?_ ?_
    allWritten_empty ?_ expiringUpload, _, _, List.mem_of_getElem? (i := 2) rfl, rfl⟩
  · exact expiringTasks_begin
  · exact expiringTasks_new
  · intro t ht
    simp [expiringTasks] at ht

end RiskFlow
