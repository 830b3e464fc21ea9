import RiskFlow.Entrypoint.SchemaRecovery
import RiskFlow.Http.Sessions

/-!
# SchemaReads — what `GET /schemas` answers while schemas change

The handlers that only read have no await: each answers from the registry
and the definitions as it finds them, also while another handler holds
`_schema_lock`. Every read shows the catalogue after some of the changes:
the acknowledged ones, and besides at most the change of the handler that
holds the lock. A later read shows these and possibly more.
-/

namespace RiskFlow

open Lib

/-! ## The handlers -/

/-- `list_schemas`. -/
def listSchemas (s : SchemaWorld) : List String := Py.sorted s.registry.keys

/-- `get_schema`. -/
def getSchema (s : SchemaWorld) (name : String) : Except HttpException TargetSchema := do
  validateSchemaName name
  match s.definitions.get? name with
  | some schema => pure schema
  | none => .error ⟨404, .detail "SCHEMA_NOT_FOUND" ("Schema '" ++ name ++ "' not found.")
      "Use GET /schemas to list available schemas."⟩

/-- `_resolve_service` on the registry of the moment. -/
def SchemaWorld.resolveService (env : SchemaEnv) (s : SchemaWorld)
    (defaultService : MappingService) (name : String) : Except HttpException MappingService :=
  SessionEnv.resolveService ⟨env.rt, defaultService, s.registry⟩ name

/-- What the reading handlers answer is this catalogue: its names in order,
each definition under its name, and the service of each. -/
structure ShowsCatalogue (env : SchemaEnv) (s : SchemaWorld) (catalogue : Catalogue) : Prop where
  increasing : (listSchemas s).Pairwise (· < ·)
  listed : ∀ n, n ∈ listSchemas s ↔ catalogue n ≠ none
  got : ∀ n schema, getSchema s n = .ok schema ↔
    isSchemaName n = true ∧ catalogue n = some schema
  missing : ∀ n e, getSchema s n = .error e →
    (isSchemaName n = true ∧ catalogue n = none ∧ e.statusCode = 404) ∨
      (isSchemaName n = false ∧ e.statusCode = 400)
  resolved : ∀ defaultService n service, Py.isBlank n = false →
    (s.resolveService env defaultService n = .ok service ↔
      ∃ schema, getSchema s n = .ok schema ∧ service = env.makeService schema)

section Reads
variable {env : SchemaEnv} {s : SchemaWorld} {name : String}

theorem getSchema_ok {schema : TargetSchema} :
    getSchema s name = .ok schema ↔
      isSchemaName name = true ∧ s.definitions.get? name = some schema := by
  unfold getSchema
  by_cases hname : isSchemaName name = true
  · have hvalid : validateSchemaName name = .ok () := if_pos hname
    rw [hvalid]
    show (match s.definitions.get? name with | some schema => _ | none => _) = _ ↔ _
    cases s.definitions.get? name with
    | none => simp
    | some found => simp [hname, pure, Except.pure]
  · have hinvalid : ∃ e, validateSchemaName name = .error e := ⟨_, if_neg hname⟩
    obtain ⟨e, he⟩ := hinvalid
    rw [he]
    show Except.error e = _ ↔ _
    simp [hname]

theorem getSchema_error {e : HttpException} (h : getSchema s name = .error e) :
    (isSchemaName name = true ∧ s.definitions.get? name = none ∧ e.statusCode = 404) ∨
      (isSchemaName name = false ∧ e.statusCode = 400) := by
  unfold getSchema at h
  by_cases hname : isSchemaName name = true
  · have hvalid : validateSchemaName name = .ok () := if_pos hname
    rw [hvalid] at h
    cases hget : s.definitions.get? name with
    | none =>
        simp only [hget] at h
        cases h
        exact .inl ⟨hname, rfl, rfl⟩
    | some schema =>
        simp only [hget] at h
        cases h
  · rw [validateSchemaName, if_neg hname] at h
    cases h
    exact .inr ⟨by simpa using hname, rfl⟩

/-- While every definition has its service, the readers show the definitions. -/
theorem shows_definitions
    (h : ∀ n, s.registry.get? n = (s.definitions.get? n).map env.makeService) :
    ShowsCatalogue env s s.definitions.get? where
  increasing := Py.sorted_pairwise_lt s.registry.nodup
  listed n := by
    rw [listSchemas, Py.mem_sorted, ← not_iff_not, ← Dict.get?_eq_none, h, Option.map_eq_none_iff,
      not_not]
  got n schema := getSchema_ok
  missing n e he := getSchema_error he
  resolved defaultService n service hblank := by
    show SessionEnv.resolveService _ n = _ ↔ _
    unfold SessionEnv.resolveService
    rw [if_neg (by simp [hblank]), h]
    unfold getSchema
    cases validateSchemaName n with
    | error e =>
        constructor
        · intro he
          cases he
        · intro ⟨_, he, _⟩
          cases he
    | ok u =>
        cases s.definitions.get? n with
        | none =>
            constructor
            · intro he
              cases he
            · intro ⟨_, he, _⟩
              cases he
        | some schema =>
            constructor
            · intro he
              cases he
              exact ⟨schema, rfl, rfl⟩
            · intro ⟨found, hfound, hservice⟩
              cases hfound
              rw [hservice]
              rfl

end Reads

/-! ## The handlers that write -/

/-- The change of a handler, once a reader sees it: a deletion is seen when
the names are taken out, a creation when they are put in. -/
def SchemaTask.shown (t : SchemaTask) : Option SchemaChange :=
  match t.phase with
  | .deleting _ | .deleted _ | .answered (.ok _) => t.request.change
  | _ => none

/-- What a handler works on is what its request asks for. -/
def SchemaTask.WorksOn (t : SchemaTask) : Prop :=
  match t.phase with
  | .saving schema | .saved schema => t.request.change = some (.add schema)
  | .deleting name | .deleted name => t.request.change = some (.remove name)
  | _ => True

/-- The definitions show the history, and the registry follows them. -/
structure Showing (env : SchemaEnv) (start : Catalogue)
    (s : SchemaWorld × List SchemaChange) : Prop where
  registry : ∀ n, s.1.registry.get? n = (s.1.definitions.get? n).map env.makeService
  shown : s.1.definitions.get? = SchemaChange.applyAll start s.2

section Steps
variable {env : SchemaEnv} {start : Catalogue} {s : SchemaWorld × List SchemaChange}

/-- A handler of the pool that writes down the changes as they are seen. -/
abbrev recordShown (env : SchemaEnv) : SchemaWorld × List SchemaChange → SchemaTask →
    (SchemaWorld × List SchemaChange) × SchemaTask :=
  Pool.recording (SchemaTask.advance env) SchemaTask.shown

theorem showing_register (h : Showing env start s) (schema : TargetSchema) :
    Showing env start (s.1.register env schema, s.2 ++ [.add schema]) where
  registry n := by
    show (s.1.registry.set schema.name (env.makeService schema)).get? n =
      ((s.1.definitions.set schema.name schema).get? n).map env.makeService
    rw [Dict.get?_set, Dict.get?_set]
    split
    · rfl
    · exact h.registry n
  shown := by
    rw [SchemaChange.applyAll_concat, ← h.shown]
    funext n
    exact Dict.get?_set ..

theorem showing_unregister (h : Showing env start s) (name : String) :
    Showing env start (s.1.unregister name, s.2 ++ [.remove name]) where
  registry n := by
    show (s.1.registry.erase name).get? n =
      ((s.1.definitions.erase name).get? n).map env.makeService
    rw [Dict.get?_erase, Dict.get?_erase]
    split
    · rfl
    · exact h.registry n
  shown := by
    rw [SchemaChange.applyAll_concat, ← h.shown]
    funext n
    exact Dict.get?_erase ..

/-- **One step of a handler**: the readers see nothing of it, or the change
that it writes down. -/
theorem showing_step (h : Showing env start s) {t : SchemaTask} (ht : t.WorksOn) :
    Showing env start (recordShown env s t).1 ∧ (recordShown env s t).2.WorksOn := by
  obtain ⟨request, phase⟩ := t
  cases phase with
  | waiting =>
      rcases advance_waiting env s.1 request with ⟨phase, hphase, heq⟩ |
        ⟨body, schema, rfl, _, hcheck, heq⟩ | ⟨name, rfl, _, _, heq⟩
      · rcases hphase with rfl | ⟨e, rfl⟩
        · rw [show recordShown env s _ = _ from Pool.recording_same heq rfl]
          exact ⟨h, trivial⟩
        · rw [show recordShown env s _ = _ from Pool.recording_same heq rfl]
          exact ⟨h, trivial⟩
      · rw [show recordShown env s _ = _ from Pool.recording_same heq rfl]
        refine ⟨⟨h.registry, h.shown⟩, ?_⟩
        show (SchemaRequest.create body).change = some (.add schema)
        simp [SchemaRequest.change, checkCreate_decodes hcheck]
      · rw [show recordShown env s _ = _ from Pool.recording_new heq rfl rfl]
        have hunregistered := showing_unregister h name
        exact ⟨⟨hunregistered.registry, hunregistered.shown⟩, rfl⟩
  | saving schema =>
      have heq : recordShown env s ⟨request, .saving schema⟩ =
          (({ s.1 with store := RedisSchemaStore.save s.1.store schema }, s.2),
            ⟨request, .saved schema⟩) := Pool.recording_same rfl rfl
      rw [heq]
      exact ⟨⟨h.registry, h.shown⟩, ht⟩
  | saved schema =>
      have heq : recordShown env s ⟨request, .saved schema⟩ =
          (((s.1.register env schema).answer ((SchemaChange.add schema).answer env),
              s.2 ++ [.add schema]),
            ⟨request, .answered (.ok ((SchemaChange.add schema).answer env))⟩) :=
        Pool.recording_new rfl rfl ht
      rw [heq]
      have hregistered := showing_register h schema
      exact ⟨⟨hregistered.registry, hregistered.shown⟩, trivial⟩
  | deleting name =>
      have heq : recordShown env s ⟨request, .deleting name⟩ =
          (({ s.1 with store := RedisSchemaStore.delete s.1.store name }, s.2),
            ⟨request, .deleted name⟩) := Pool.recording_same rfl rfl
      rw [heq]
      exact ⟨⟨h.registry, h.shown⟩, ht⟩
  | deleted name =>
      have heq : recordShown env s ⟨request, .deleted name⟩ =
          ((s.1.answer ((SchemaChange.remove name).answer env), s.2),
            ⟨request, .answered (.ok ((SchemaChange.remove name).answer env))⟩) :=
        Pool.recording_same rfl rfl
      rw [heq]
      exact ⟨⟨h.registry, h.shown⟩, trivial⟩
  | answered answer =>
      have heq : recordShown env s ⟨request, .answered answer⟩ =
          (s, ⟨request, .answered answer⟩) := Pool.recording_same rfl rfl
      rw [heq]
      exact ⟨h, ht⟩

end Steps

/-! ## Runs -/

theorem shown_keeps (env : SchemaEnv) (s : SchemaWorld) (t : SchemaTask) (c : SchemaChange)
    (h : t.shown = some c) : (t.advance env s).2.shown = some c := by
  obtain ⟨request, phase⟩ := t
  cases phase with
  | waiting => cases h
  | saving schema => cases h
  | saved schema => cases h
  | answered answer => exact h
  | deleting name => exact h
  | deleted name => exact h

/-- The invariant of every schedule, with the history of what was shown. -/
theorem showing_run {env : SchemaEnv} {start : Catalogue}
    {p : Pool (SchemaWorld × List SchemaChange) SchemaTask}
    (hp : p.Holds (Showing env start) fun _ t => t.WorksOn) (schedule : List Nat) :
    (p.run (recordShown env) schedule).Holds (Showing env start) fun _ t => t.WorksOn := by
  induction schedule generalizing p with
  | nil => exact hp
  | cons i rest ih =>
      refine ih (Pool.step_holds _ hp fun t ht => ?_)
      obtain ⟨hshared, hown⟩ := showing_step hp.1 (hp.2 t (List.mem_of_getElem? ht))
      exact ⟨hshared, hown, fun _ _ hu => hu⟩

/-- The handlers of the requests before their first steps, with an empty record. -/
def SchemaWorld.recorder (s : SchemaWorld) (requests : List SchemaRequest) :
    Pool (SchemaWorld × List SchemaChange) SchemaTask :=
  Pool.unrecorded ⟨s, requests.map SchemaTask.begin⟩

/-- The changes shown after the schedule, in the order in which they were. -/
def SchemaWorld.shownBy (env : SchemaEnv) (s : SchemaWorld) (requests : List SchemaRequest)
    (schedule : List Nat) : List SchemaChange :=
  ((s.recorder requests).run (recordShown env) schedule).shared.2

/-- What was shown stays first. -/
theorem shownBy_append (env : SchemaEnv) (s : SchemaWorld) (requests : List SchemaRequest)
    (earlier later : List Nat) :
    ∃ more, s.shownBy env requests (earlier ++ later) = s.shownBy env requests earlier ++ more := by
  obtain ⟨more, hmore⟩ := Pool.history_run (SchemaTask.advance env) (f := SchemaTask.shown)
    ((s.recorder requests).run (recordShown env) earlier) later
  refine ⟨more, ?_⟩
  unfold SchemaWorld.shownBy
  rw [← hmore, Pool.run, List.foldl_append]
  rfl

/-- **One moment**: the readers show the record, and the record is what the
handlers have made visible. -/
theorem reads_moment {env : SchemaEnv} {s : SchemaWorld}
    (hs : ∀ n, s.registry.get? n = (s.definitions.get? n).map env.makeService)
    (requests : List SchemaRequest) (schedule : List Nat) :
    ShowsCatalogue env (serveSchemas env s requests schedule).shared
        (SchemaChange.applyAll s.definitions.get? (s.shownBy env requests schedule)) ∧
      (s.shownBy env requests schedule).Perm
        ((serveSchemas env s requests schedule).collect SchemaTask.shown) := by
  have hbegin : (s.recorder requests).Holds (Showing env s.definitions.get?)
      fun _ t => t.WorksOn := by
    refine ⟨⟨hs, rfl⟩, fun t ht => ?_⟩
    obtain ⟨request, _, rfl⟩ := List.mem_map.mp ht
    trivial
  have hforget : ((s.recorder requests).run (recordShown env) schedule).forget =
      serveSchemas env s requests schedule := Pool.forget_run _ (s.recorder requests) schedule
  have hshowing := (showing_run hbegin schedule).1
  rw [← hforget, SchemaWorld.shownBy, ← hshowing.shown]
  exact ⟨shows_definitions hshowing.registry,
    Pool.recorded_run _ (shown_keeps env) (Pool.collect_start _ fun _ _ => rfl) schedule⟩

/-! ## The change under way -/

/-- What a handler shows while it holds the lock. -/
def SchemaTask.underway (t : SchemaTask) : Option SchemaChange :=
  if t.holdsLock then t.shown else none

/-- What is shown is acknowledged, or its handler still holds the lock. -/
theorem shown_eq (t : SchemaTask) : t.shown = t.change.or t.underway := by
  obtain ⟨request, phase⟩ := t
  cases phase with
  | answered answer =>
      cases answer with
      | ok a => exact (Option.or_none).symm
      | error e => rfl
  | _ => rfl

theorem underway_of_change (t : SchemaTask) (c : SchemaChange) (h : t.change = some c) :
    t.underway = none := by
  obtain ⟨request, phase⟩ := t
  cases phase with
  | answered answer => rfl
  | _ => cases h

/-- A handler under way shows the change of its own request. -/
theorem change_of_underway {t : SchemaTask} {c : SchemaChange} (h : t.underway = some c) :
    t.request.change = some c := by
  obtain ⟨request, phase⟩ := t
  cases phase with
  | deleting name => exact h
  | deleted name => exact h
  | _ => cases h

/-- The changes shown are those of the handlers that have answered with
success, and `pending` besides: the change of the one handler that holds
the lock, and nothing while the lock is free. -/
structure ShowsAcknowledged (p : Pool SchemaWorld SchemaTask) (shown : List SchemaChange)
    (pending : Option SchemaChange) : Prop where
  acknowledged : shown.Perm (p.collect SchemaTask.change ++ pending.toList)
  free : p.shared.locked = false → pending = none
  held : ∀ c, pending = some c → ∃ t, p.tasks.filter SchemaTask.holdsLock = [t] ∧
    t.request.change = some c

/-- **At most one change is under way.** -/
theorem shown_acknowledged (env : SchemaEnv) {s : SchemaWorld} (hs : s.locked = false)
    (requests : List SchemaRequest) (schedule : List Nat) {shown : List SchemaChange}
    (h : shown.Perm ((serveSchemas env s requests schedule).collect SchemaTask.shown)) :
    ∃ pending, ShowsAcknowledged (serveSchemas env s requests schedule) shown pending := by
  have hstart : (plainLock env).Invariant ⟨s, requests.map SchemaTask.begin⟩ :=
    .inl ⟨hs, trivial, Pool.collect_start s fun _ _ => rfl⟩
  have hlock : (plainLock env).Invariant (serveSchemas env s requests schedule) :=
    (plainLock env).invariant_run hstart schedule
  have hsplit : shown.Perm ((serveSchemas env s requests schedule).collect SchemaTask.change ++
      (serveSchemas env s requests schedule).collect SchemaTask.underway) := by
    refine h.trans ?_
    rw [show SchemaTask.shown = fun t => t.change.or t.underway from funext shown_eq]
    exact Pool.collect_or underway_of_change _
  -- the handlers under way are among the holders of the lock, of which there is one at most
  have hholders : (serveSchemas env s requests schedule).tasks.filter SchemaTask.holdsLock =
      (serveSchemas env s requests schedule).collect (plainLock env).holder :=
    (congrFun List.filterMap_eq_filter _).symm
  have hunderway : (serveSchemas env s requests schedule).collect SchemaTask.underway =
      ((serveSchemas env s requests schedule).collect (plainLock env).holder).filterMap
        SchemaTask.shown := by
    rw [← hholders, List.filterMap_filter]
    rfl
  rw [hunderway] at hsplit
  rcases hlock with ⟨_, _, hnil⟩ | ⟨t, hheld, _, hone⟩
  · rw [hnil] at hsplit
    exact ⟨none, hsplit, fun _ => rfl, fun c hc => by cases hc⟩
  · rw [hone] at hsplit
    have hinside : t.holdsLock = true := ((plainLock env).mem_of_holder hone).2
    refine ⟨t.shown, ?_, fun hfree => absurd hfree hheld, fun c hc => ⟨t, ?_, ?_⟩⟩
    · cases hshown : t.shown <;> simpa [hshown] using hsplit
    · rw [hholders, hone]
    · exact change_of_underway ((if_pos hinside).trans hc)

/-- **Reads are linearized with the changes.** Whatever the handlers of the
requests have done by two moments, the later moment's readers show the
changes the earlier ones showed and then possibly more. What is shown is
what the handlers have made visible: every acknowledged change, and besides
at most the change of the one handler that holds the lock. -/
theorem reads_linearized (env : SchemaEnv) (files : SchemaFiles) (store : Dict String Json)
    (pages : List (List String)) (requests : List SchemaRequest) (earlier later : List Nat) :
    ∃ shown more : List SchemaChange,
      ShowsCatalogue env
          (serveSchemas env (createApp env files store pages) requests earlier).shared
          (SchemaChange.applyAll (createApp env files store pages).definitions.get? shown) ∧
      ShowsCatalogue env
          (serveSchemas env (createApp env files store pages) requests (earlier ++ later)).shared
          (SchemaChange.applyAll (createApp env files store pages).definitions.get?
            (shown ++ more)) ∧
      (shown.Perm ((serveSchemas env (createApp env files store pages) requests
          earlier).collect SchemaTask.shown) ∧
        (shown ++ more).Perm ((serveSchemas env (createApp env files store pages) requests
          (earlier ++ later)).collect SchemaTask.shown)) ∧
      (∃ pending, ShowsAcknowledged
          (serveSchemas env (createApp env files store pages) requests earlier) shown pending) ∧
        ∃ pending, ShowsAcknowledged
          (serveSchemas env (createApp env files store pages) requests (earlier ++ later))
          (shown ++ more) pending := by
  have hmoment := reads_moment (createApp_served env files store pages) requests
  obtain ⟨more, hmore⟩ :=
    shownBy_append env (createApp env files store pages) requests earlier later
  refine ⟨(createApp env files store pages).shownBy env requests earlier, more, ?_⟩
  rw [← hmore]
  exact ⟨(hmoment earlier).1, (hmoment (earlier ++ later)).1,
    ⟨(hmoment earlier).2, (hmoment (earlier ++ later)).2⟩,
    shown_acknowledged env rfl requests earlier (hmoment earlier).2,
    shown_acknowledged env rfl requests (earlier ++ later) (hmoment (earlier ++ later)).2⟩

end RiskFlow
