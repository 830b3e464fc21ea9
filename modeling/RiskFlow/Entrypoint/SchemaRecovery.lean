import RiskFlow.Entrypoint.SchemasInStep
import RiskFlow.Lib.Recording

/-!
# SchemaRecovery — what a restarted process serves

A process may stop at any await: after a save that was not registered yet,
after an unregistration whose delete did not reach the store. What the
store decodes to is at every moment the result of the acknowledged changes
in the order of their answers, or of these and the one change of the
handler inside the lock. So no crash loses, repeats or reorders an
acknowledged change, over any number of restarts.
-/

namespace RiskFlow

open Lib

/-! ## The catalogue -/

/-- The schemas by name, as a caller sees them. -/
abbrev Catalogue := String → Option TargetSchema

/-- What a successful request changes. -/
inductive SchemaChange where
  | add (schema : TargetSchema)
  | remove (name : String)

namespace SchemaChange

def apply (catalogue : Catalogue) (c : SchemaChange) : Catalogue := fun n =>
  match c with
  | .add schema => if schema.name = n then some schema else catalogue n
  | .remove name => if name = n then none else catalogue n

/-- A schema is added under a proper name that is free, and only a schema
that is there and not built in is removed. -/
def Permitted (builtin : Dict String TargetSchema) (catalogue : Catalogue) : SchemaChange → Prop
  | .add schema => isSchemaName schema.name = true ∧ catalogue schema.name = none
  | .remove name => isSchemaName name = true ∧ name ∉ builtin.keys ∧ catalogue name ≠ none

def answer (env : SchemaEnv) : SchemaChange → SchemaAnswer
  | .add schema => .created schema.name (schema.fingerprint env.rt)
  | .remove name => .deleted name

/-- The catalogue after the changes. -/
def applyAll (catalogue : Catalogue) (changes : List SchemaChange) : Catalogue :=
  changes.foldl apply catalogue

@[simp] theorem applyAll_concat (catalogue : Catalogue) (changes : List SchemaChange)
    (c : SchemaChange) :
    applyAll catalogue (changes ++ [c]) = apply (applyAll catalogue changes) c := by
  simp [applyAll]

theorem applyAll_append (catalogue : Catalogue) (changes later : List SchemaChange) :
    applyAll catalogue (changes ++ later) = applyAll (applyAll catalogue changes) later :=
  List.foldl_append

end SchemaChange

/-- The change a request asks for. -/
def SchemaRequest.change : SchemaRequest → Option SchemaChange
  | .create body =>
      match TargetSchema.modelValidate (.obj body) with
      | .ok schema => some (.add schema)
      | .error _ => none
  | .delete name => some (.remove name)

/-- The change of a handler, once it is acknowledged. -/
def SchemaTask.change (t : SchemaTask) : Option SchemaChange :=
  match t.phase with
  | .answered (.ok _) => t.request.change
  | _ => none

/-- What a process started on the store serves, `createApp_schemas` by name. -/
def recovered (builtin : Dict String TargetSchema) (store : Dict String Json) : Catalogue :=
  fun n => (builtin.get? n).or (RedisSchemaStore.get store n)

theorem recovered_save {builtin : Dict String TargetSchema} {store : Dict String Json}
    {schema : TargetSchema} (h : recovered builtin store schema.name = none) :
    recovered builtin (RedisSchemaStore.save store schema) =
      SchemaChange.apply (recovered builtin store) (.add schema) := by
  funext n
  obtain ⟨hbuiltin, _⟩ := Option.or_eq_none_iff.mp h
  show (builtin.get? n).or (RedisSchemaStore.get (RedisSchemaStore.save store schema) n) =
    if schema.name = n then some schema else (builtin.get? n).or (RedisSchemaStore.get store n)
  rw [RedisSchemaStore.get_save]
  by_cases hn : schema.name = n
  · rw [if_pos hn, if_pos hn, ← hn, hbuiltin, Option.none_or]
  · rw [if_neg hn, if_neg hn]

theorem recovered_delete {builtin : Dict String TargetSchema} {store : Dict String Json}
    {name : String} (h : name ∉ builtin.keys) :
    recovered builtin (RedisSchemaStore.delete store name) =
      SchemaChange.apply (recovered builtin store) (.remove name) := by
  funext n
  show (builtin.get? n).or (RedisSchemaStore.get (RedisSchemaStore.delete store name) n) =
    if name = n then none else (builtin.get? n).or (RedisSchemaStore.get store n)
  rw [RedisSchemaStore.get_delete]
  by_cases hn : name = n
  · rw [if_pos hn, if_pos hn, ← hn, Dict.get?_eq_none.mpr h, Option.none_or]
  · rw [if_neg hn, if_neg hn]

/-! ## The lock -/

/-- What the checks of a delete establish about the name. -/
theorem checkDelete_known {s : SchemaWorld} {name : String} (h : checkDelete s name = .ok ()) :
    name ∈ s.registry.keys ∨ name ∈ s.definitions.keys := by
  unfold checkDelete at h
  obtain ⟨_, _, h⟩ := bind_eq_ok.mp h
  split at h
  · cases h
  · split at h
    · cases h
    · rename_i hknown
      by_cases hregistry : name ∈ s.registry.keys
      · exact .inl hregistry
      · exact .inr (not_not.mp fun hno => hknown ⟨hregistry, hno⟩)

theorem checkCreate_decodes {env : SchemaEnv} {s : SchemaWorld} {body : List (String × Json)}
    {schema : TargetSchema} (h : checkCreate env s body = .ok schema) :
    TargetSchema.modelValidate (.obj body) = .ok schema := by
  unfold checkCreate at h
  split at h
  · cases h
  · split at h
    · cases h
    · rename_i decoded hdecoded
      obtain ⟨_, _, h⟩ := bind_eq_ok.mp h
      split at h
      · cases h
      · cases h
        exact hdecoded

/-- Process and store beside the acknowledged changes: `running` is what the
process shows, `stored` what the store would restore. -/
structure CatalogueConsistent (env : SchemaEnv) (builtin : Dict String TargetSchema)
    (start : Catalogue) (s : SchemaWorld × List SchemaChange) (running stored : Catalogue) :
    Prop where
  served : s.2.map (SchemaChange.answer env) = s.1.served
  permitted : AllSteps SchemaChange.apply (SchemaChange.Permitted builtin) start s.2
  builtins : s.1.builtins = builtin.keys
  registry : ∀ n, s.1.registry.get? n = (s.1.definitions.get? n).map env.makeService
  running : s.1.definitions.get? = running
  stored : recovered builtin s.1.store = stored

/-- What the handler that holds the lock knows, at each of its awaits. -/
def Underway (env : SchemaEnv) (builtin : Dict String TargetSchema) (start : Catalogue)
    (s : SchemaWorld × List SchemaChange) (t : SchemaTask) : Prop :=
  ∃ c, t.request.change = some c ∧
    SchemaChange.Permitted builtin (SchemaChange.applyAll start s.2) c ∧
    let before := SchemaChange.applyAll start s.2
    let after := SchemaChange.apply before c
    match t.phase with
    | .saving schema => c = .add schema ∧ CatalogueConsistent env builtin start s before before
    | .saved schema => c = .add schema ∧ CatalogueConsistent env builtin start s before after
    | .deleting name => c = .remove name ∧ CatalogueConsistent env builtin start s after before
    | .deleted name => c = .remove name ∧ CatalogueConsistent env builtin start s after after
    | _ => False

section Sections
variable {env : SchemaEnv} {builtin : Dict String TargetSchema} {start : Catalogue}
  {s : SchemaWorld × List SchemaChange} {running stored : Catalogue}

/-- `_registry[schema.name]` and `_definitions[schema.name]` are set together. -/
theorem catalogue_register (h : CatalogueConsistent env builtin start s running stored)
    (schema : TargetSchema) :
    CatalogueConsistent env builtin start (s.1.register env schema, s.2)
      (SchemaChange.apply running (.add schema)) stored where
  served := h.served
  permitted := h.permitted
  builtins := h.builtins
  stored := h.stored
  registry n := by
    show (s.1.registry.set schema.name (env.makeService schema)).get? n =
      ((s.1.definitions.set schema.name schema).get? n).map env.makeService
    rw [Dict.get?_set, Dict.get?_set]
    split
    · rfl
    · exact h.registry n
  running := by
    funext n
    show (s.1.definitions.set schema.name schema).get? n = _
    rw [Dict.get?_set, h.running]
    rfl

theorem catalogue_unregister (h : CatalogueConsistent env builtin start s running stored)
    (name : String) :
    CatalogueConsistent env builtin start (s.1.unregister name, s.2)
      (SchemaChange.apply running (.remove name)) stored where
  served := h.served
  permitted := h.permitted
  builtins := h.builtins
  stored := h.stored
  registry n := by
    show (s.1.registry.erase name).get? n =
      ((s.1.definitions.erase name).get? n).map env.makeService
    rw [Dict.get?_erase, Dict.get?_erase]
    split
    · rfl
    · exact h.registry n
  running := by
    funext n
    show (s.1.definitions.erase name).get? n = _
    rw [Dict.get?_erase, h.running]
    rfl

/-- While the lock is free process and store show the acknowledged changes. -/
abbrev CatalogueSettled (env : SchemaEnv) (builtin : Dict String TargetSchema) (start : Catalogue)
    (s : SchemaWorld × List SchemaChange) : Prop :=
  CatalogueConsistent env builtin start s (SchemaChange.applyAll start s.2)
    (SchemaChange.applyAll start s.2)

/-- The answer acknowledges a change that process and store both show. -/
theorem settled_answer {c : SchemaChange}
    (hpermitted : SchemaChange.Permitted builtin (SchemaChange.applyAll start s.2) c)
    (h : CatalogueConsistent env builtin start s
      (SchemaChange.apply (SchemaChange.applyAll start s.2) c)
      (SchemaChange.apply (SchemaChange.applyAll start s.2) c)) :
    CatalogueSettled env builtin start (s.1.answer (c.answer env), s.2 ++ [c]) where
  served := by
    show _ = s.1.served ++ [c.answer env]
    rw [List.map_append, h.served]
    rfl
  permitted := allSteps_append.mpr ⟨h.permitted, hpermitted, trivial⟩
  builtins := h.builtins
  registry := h.registry
  running := by
    rw [SchemaChange.applyAll_concat]
    exact h.running
  stored := by
    rw [SchemaChange.applyAll_concat]
    exact h.stored

theorem underway_create (h : CatalogueSettled env builtin start s) {body : List (String × Json)}
    {schema : TargetSchema} (hcheck : checkCreate env s.1 body = .ok schema) :
    Underway env builtin start ({ s.1 with locked := true }, s.2)
      ⟨.create body, .saving schema⟩ := by
  obtain ⟨hname, _, hnew⟩ := checkCreate_ok hcheck
  have hchange : (SchemaRequest.create body).change = some (.add schema) := by
    simp [SchemaRequest.change, checkCreate_decodes hcheck]
  have hfree : SchemaChange.applyAll start s.2 schema.name = none := by
    rw [← h.running]
    exact Dict.get?_eq_none.mpr hnew
  exact ⟨.add schema, hchange, ⟨hname, hfree⟩, rfl, h.served, h.permitted, h.builtins, h.registry,
    h.running, h.stored⟩

theorem underway_delete (h : CatalogueSettled env builtin start s) {name : String}
    (hcheck : checkDelete s.1 name = .ok ()) :
    Underway env builtin start ({ s.1.unregister name with locked := true }, s.2)
      ⟨.delete name, .deleting name⟩ := by
  obtain ⟨hname, hruntime⟩ := checkDelete_ok hcheck
  have hknown : SchemaChange.applyAll start s.2 name ≠ none := by
    rw [← h.running]
    intro hnone
    -- the registry has the names of the definitions
    have hregistry : s.1.registry.get? name = none := by rw [h.registry, hnone]; rfl
    rcases checkDelete_known hcheck with hmem | hmem
    · exact Dict.get?_eq_none.mp hregistry hmem
    · exact Dict.get?_eq_none.mp hnone hmem
  have hunregister := catalogue_unregister h name
  exact ⟨.remove name, rfl, ⟨hname, h.builtins ▸ hruntime, hknown⟩, rfl, hunregister.served,
    hunregister.permitted, hunregister.builtins, hunregister.registry, hunregister.running,
    hunregister.stored⟩

end Sections

section Recorded
variable (env : SchemaEnv) (s : SchemaWorld × List SchemaChange) {request : SchemaRequest}

/-- A handler of the pool that writes down the acknowledged changes. -/
abbrev recordChange : SchemaWorld × List SchemaChange → SchemaTask →
    (SchemaWorld × List SchemaChange) × SchemaTask :=
  Pool.recording (SchemaTask.advance env) SchemaTask.change

/-- `advance_waiting`, with nothing to write down. -/
theorem recording_waiting (request : SchemaRequest) :
    (∃ phase, (phase = .waiting ∨ ∃ e, phase = .answered (.error e)) ∧
        recordChange env s ⟨request, .waiting⟩ = (s, ⟨request, phase⟩)) ∨
      (∃ body schema, request = .create body ∧ s.1.locked = false ∧
        checkCreate env s.1 body = .ok schema ∧
        recordChange env s ⟨request, .waiting⟩ =
          (({ s.1 with locked := true }, s.2), ⟨request, .saving schema⟩)) ∨
      ∃ name, request = .delete name ∧ s.1.locked = false ∧ checkDelete s.1 name = .ok () ∧
        recordChange env s ⟨request, .waiting⟩ =
          (({ s.1.unregister name with locked := true }, s.2), ⟨request, .deleting name⟩) := by
  rcases advance_waiting env s.1 request with ⟨phase, hphase, heq⟩ |
    ⟨body, schema, hrequest, hfree, hcheck, heq⟩ | ⟨name, hrequest, hfree, hcheck, heq⟩
  · refine .inl ⟨phase, hphase, Pool.recording_same heq ?_⟩
    rcases hphase with rfl | ⟨e, rfl⟩
    · rfl
    · rfl
  · exact .inr (.inl ⟨body, schema, hrequest, hfree, hcheck, Pool.recording_same heq rfl⟩)
  · exact .inr (.inr ⟨name, hrequest, hfree, hcheck, Pool.recording_same heq rfl⟩)

theorem recording_saving (schema : TargetSchema) :
    recordChange env s ⟨request, .saving schema⟩ =
      (({ s.1 with store := RedisSchemaStore.save s.1.store schema }, s.2),
        ⟨request, .saved schema⟩) :=
  Pool.recording_same rfl rfl

theorem recording_deleting (name : String) :
    recordChange env s ⟨request, .deleting name⟩ =
      (({ s.1 with store := RedisSchemaStore.delete s.1.store name }, s.2),
        ⟨request, .deleted name⟩) :=
  Pool.recording_same rfl rfl

theorem recording_saved {schema : TargetSchema} (h : request.change = some (.add schema)) :
    recordChange env s ⟨request, .saved schema⟩ =
      (((s.1.register env schema).answer ((SchemaChange.add schema).answer env),
          s.2 ++ [.add schema]),
        ⟨request, .answered (.ok ((SchemaChange.add schema).answer env))⟩) :=
  Pool.recording_new rfl rfl h

theorem recording_deleted {name : String} (h : request.change = some (.remove name)) :
    recordChange env s ⟨request, .deleted name⟩ =
      ((s.1.answer ((SchemaChange.remove name).answer env), s.2 ++ [.remove name]),
        ⟨request, .answered (.ok ((SchemaChange.remove name).answer env))⟩) :=
  Pool.recording_new rfl rfl h

end Recorded

/-- **The lock of the schemas**, beside the acknowledged changes. -/
def catalogueLock (env : SchemaEnv) (builtin : Dict String TargetSchema) (start : Catalogue) :
    Pool.Monitor (recordChange env) where
  free s := s.1.locked = false
  inside := SchemaTask.holdsLock
  whenFree := CatalogueSettled env builtin start
  whenHeld := Underway env builtin start
  enter s t hout hin := by
    obtain ⟨request, phase⟩ := t
    cases phase with
    | waiting =>
        rcases recording_waiting env s request with ⟨phase, hphase, heq⟩ |
          ⟨body, schema, rfl, hfree, hcheck, heq⟩ | ⟨name, rfl, hfree, hcheck, heq⟩
        · rw [heq] at hin
          rcases hphase with rfl | ⟨e, rfl⟩
          · cases hin
          · cases hin
        · rw [heq]
          exact ⟨hfree, fun hsettled => ⟨by simp, underway_create hsettled hcheck⟩⟩
        · rw [heq]
          exact ⟨hfree, fun hsettled => ⟨by simp, underway_delete hsettled hcheck⟩⟩
    | answered answer => cases hin
    | _ => cases hout
  outside s t hout hout' := by
    obtain ⟨request, phase⟩ := t
    cases phase with
    | waiting =>
        rcases recording_waiting env s request with ⟨_, _, heq⟩ | ⟨_, _, _, _, _, heq⟩ |
          ⟨_, _, _, _, heq⟩
        · rw [heq]
        · rw [heq] at hout'
          cases hout'
        · rw [heq] at hout'
          cases hout'
    | answered answer =>
        have heq : recordChange env s ⟨request, .answered answer⟩ =
            (s, ⟨request, .answered answer⟩) := Pool.recording_same rfl rfl
        rw [heq]
    | _ => cases hout
  stay s t hin hin' hlocked hheld := by
    obtain ⟨request, phase⟩ := t
    obtain ⟨c, hchange, hpermitted, hphase⟩ := hheld
    cases phase with
    | saving schema =>
        obtain ⟨rfl, hconsistent⟩ := hphase
        have hfree : recovered builtin s.1.store schema.name = none := by
          rw [hconsistent.stored]
          exact hpermitted.2
        have hsaved := recovered_save hfree
        rw [hconsistent.stored] at hsaved
        rw [recording_saving]
        exact ⟨hlocked, .add schema, hchange, hpermitted, rfl,
          { hconsistent with stored := hsaved }⟩
    | deleting name =>
        obtain ⟨rfl, hconsistent⟩ := hphase
        have hdeleted : recovered builtin (RedisSchemaStore.delete s.1.store name) =
            SchemaChange.apply (recovered builtin s.1.store) (.remove name) :=
          recovered_delete hpermitted.2.1
        rw [hconsistent.stored] at hdeleted
        rw [recording_deleting]
        exact ⟨hlocked, .remove name, hchange, hpermitted, rfl,
          { hconsistent with stored := hdeleted }⟩
    | saved schema => cases hin'
    | deleted name => cases hin'
    | _ => cases hphase
  leave s t hin hout hheld := by
    obtain ⟨request, phase⟩ := t
    obtain ⟨c, hchange, hpermitted, hphase⟩ := hheld
    cases phase with
    | saved schema =>
        obtain ⟨rfl, hconsistent⟩ := hphase
        rw [recording_saved env s hchange]
        have hregistered := catalogue_register hconsistent schema
        exact ⟨rfl, settled_answer (s := (s.1.register env schema, s.2)) hpermitted hregistered⟩
    | deleted name =>
        obtain ⟨rfl, hconsistent⟩ := hphase
        rw [recording_deleted env s hchange]
        exact ⟨rfl, settled_answer hpermitted hconsistent⟩
    | saving schema => cases hout
    | deleting name => cases hout
    | _ => cases hphase

/-! ## One process -/

/-- What a process leaves when it stops: the changes it acknowledged, in the
order of its answers, and the one its store has besides. -/
structure Kept where
  acknowledged : List SchemaChange
  pending : Option SchemaChange

def Kept.changes (k : Kept) : List SchemaChange := k.acknowledged ++ k.pending.toList

/-- The acknowledged changes are those of the handlers that answered with
success; the other one is of the handler inside the lock. -/
structure Kept.By (k : Kept) (env : SchemaEnv) (p : Pool SchemaWorld SchemaTask) : Prop where
  served : k.acknowledged.map (SchemaChange.answer env) = p.shared.served
  handlers : k.acknowledged.Perm (p.collect SchemaTask.change)
  free : p.shared.locked = false → k.pending = none
  held : ∀ c, k.pending = some c → ∃ t ∈ p.tasks, t.holdsLock = true ∧ t.request.change = some c

/-- Without the change under way. -/
theorem Kept.By.settled {k : Kept} {env : SchemaEnv} {p : Pool SchemaWorld SchemaTask}
    (h : k.By env p) : Kept.By ⟨k.acknowledged, none⟩ env p :=
  ⟨h.served, h.handlers, fun _ => rfl, fun c hc => by cases hc⟩

/-- The catalogue is the one before the change under way, or the one after it. -/
def Kept.Shows (k : Kept) (start catalogue : Catalogue) : Prop :=
  catalogue = SchemaChange.applyAll start k.acknowledged ∨
    catalogue = SchemaChange.applyAll start k.changes

section Process
variable {env : SchemaEnv} {builtin : Dict String TargetSchema} {start : Catalogue}

theorem Underway.kept {p : Pool SchemaWorld SchemaTask} {history : List SchemaChange}
    {t : SchemaTask} (h : Underway env builtin start (p.shared, history) t)
    (hmem : t ∈ p.tasks) (hinside : t.holdsLock = true) (hlocked : ¬ p.shared.locked = false)
    (hperm : history.Perm (p.collect SchemaTask.change)) :
    ∃ k : Kept, k.By env p ∧
      AllSteps SchemaChange.apply (SchemaChange.Permitted builtin) start k.changes ∧
      k.Shows start p.shared.definitions.get? ∧ k.Shows start (recovered builtin p.shared.store) ∧
      ∀ n, p.shared.registry.get? n = (p.shared.definitions.get? n).map env.makeService := by
  obtain ⟨c, hchange, hpermitted, hphase⟩ := h
  have hafter : SchemaChange.applyAll start (Kept.changes ⟨history, some c⟩) =
      SchemaChange.apply (SchemaChange.applyAll start history) c :=
    SchemaChange.applyAll_concat start history c
  -- whichever of the two catalogues the phase says that process and store show
  have hconsistent : ∃ running stored,
      CatalogueConsistent env builtin start (p.shared, history) running stored ∧
      Kept.Shows ⟨history, some c⟩ start running ∧
      Kept.Shows ⟨history, some c⟩ start stored := by
    unfold Kept.Shows
    rw [hafter]
    split at hphase
    · exact ⟨_, _, hphase.2, .inl rfl, .inl rfl⟩
    · exact ⟨_, _, hphase.2, .inl rfl, .inr rfl⟩
    · exact ⟨_, _, hphase.2, .inr rfl, .inl rfl⟩
    · exact ⟨_, _, hphase.2, .inr rfl, .inr rfl⟩
    · exact hphase.elim
  obtain ⟨running, stored, hconsistent, hrunning, hstored⟩ := hconsistent
  refine ⟨⟨history, some c⟩, ⟨hconsistent.served, hperm, fun hfree => absurd hfree hlocked, ?_⟩,
    allSteps_append.mpr ⟨hconsistent.permitted, hpermitted, trivial⟩,
    hconsistent.running ▸ hrunning, hconsistent.stored ▸ hstored, hconsistent.registry⟩
  intro c' hc'
  cases hc'
  exact ⟨t, hmem, hinside, hchange⟩

/-- **At every moment** the catalogues of process and store each come from
the acknowledged changes and at most the one under way. -/
theorem catalogues_run {s : SchemaWorld} (h : CatalogueSettled env builtin start (s, []))
    (hfree : s.locked = false) (requests : List SchemaRequest) (schedule : List Nat) :
    ∃ k : Kept, k.By env (serveSchemas env s requests schedule) ∧
      AllSteps SchemaChange.apply (SchemaChange.Permitted builtin) start k.changes ∧
      k.Shows start (serveSchemas env s requests schedule).shared.definitions.get? ∧
      k.Shows start
        (recovered builtin (serveSchemas env s requests schedule).shared.store) ∧
      ∀ n, (serveSchemas env s requests schedule).shared.registry.get? n =
        ((serveSchemas env s requests schedule).shared.definitions.get? n).map
          env.makeService := by
  have hstart : (catalogueLock env builtin start).Invariant
      (Pool.unrecorded ⟨s, requests.map SchemaTask.begin⟩) :=
    .inl ⟨hfree, h, Pool.collect_start _ fun _ _ => rfl⟩
  have hkeep : ∀ s t c, SchemaTask.change t = some c →
      (SchemaTask.advance env s t).2.change = some c := by
    intro s t c hc
    obtain ⟨request, phase⟩ := t
    cases phase with
    | answered answer => exact hc
    | _ => cases hc
  obtain ⟨history, hperm, hinvariant⟩ := (catalogueLock env builtin start).recorded_run
    (SchemaTask.advance env) hkeep (Pool.collect_start s fun _ _ => rfl) hstart schedule
  rcases hinvariant with ⟨hopen, hsettled, _⟩ | ⟨t, hlocked, hunderway, hholder⟩
  · have hnone : Kept.changes ⟨history, none⟩ = history := List.append_nil history
    refine ⟨⟨history, none⟩, ⟨hsettled.served, hperm, fun _ => rfl, fun c hc => by cases hc⟩, ?_,
      .inl hsettled.running, .inl hsettled.stored, hsettled.registry⟩
    rw [hnone]
    exact hsettled.permitted
  · obtain ⟨hmem, hinside⟩ := (catalogueLock env builtin start).mem_of_holder hholder
    exact hunderway.kept hmem hinside hlocked hperm

end Process

/-! ## Restarts -/

/-- A process: the pages of the scan it started with, the requests it got
and the steps its handlers took until it stopped. -/
structure Incarnation where
  pages : List (List String)
  requests : List SchemaRequest
  schedule : List Nat

/-- The process at the moment it stops. -/
def Incarnation.process (env : SchemaEnv) (files : SchemaFiles) (store : Dict String Json)
    (i : Incarnation) : Pool SchemaWorld SchemaTask :=
  serveSchemas env (createApp env files store i.pages) i.requests i.schedule

/-- Only the store survives. -/
def Incarnation.leaves (env : SchemaEnv) (files : SchemaFiles) (store : Dict String Json)
    (i : Incarnation) : Dict String Json :=
  (i.process env files store).shared.store

/-- The processes, each on the store of the one before. -/
def processes (env : SchemaEnv) (files : SchemaFiles) :
    Dict String Json → List Incarnation → List (Pool SchemaWorld SchemaTask)
  | _, [] => []
  | store, i :: rest =>
      i.process env files store :: processes env files (i.leaves env files store) rest

theorem settled_createApp (env : SchemaEnv) (files : SchemaFiles) {store : Dict String Json}
    {pages : List (List String)} (h : RedisSchemaStore.IsScan store pages) :
    CatalogueSettled env (loadAllSchemas files) (recovered (loadAllSchemas files) store)
      (createApp env files store pages, []) where
  served := rfl
  permitted := trivial
  builtins := rfl
  registry := createApp_served env files store pages
  running := funext fun n => (createApp_schemas env files h n).1
  stored := rfl

/-- What one process leaves in the store. -/
theorem left_by (env : SchemaEnv) (files : SchemaFiles) {store : Dict String Json}
    {pages : List (List String)} (h : RedisSchemaStore.IsScan store pages)
    (requests : List SchemaRequest) (schedule : List Nat) :
    ∃ k : Kept, k.By env (serveSchemas env (createApp env files store pages) requests schedule) ∧
      AllSteps SchemaChange.apply (SchemaChange.Permitted (loadAllSchemas files))
        (recovered (loadAllSchemas files) store) k.changes ∧
      recovered (loadAllSchemas files)
          (serveSchemas env (createApp env files store pages) requests schedule).shared.store =
        SchemaChange.applyAll (recovered (loadAllSchemas files) store) k.changes := by
  obtain ⟨k, hby, hsteps, _, hstored, _⟩ :=
    catalogues_run (settled_createApp env files h) rfl requests schedule
  rcases hstored with hbefore | hafter
  · -- the change under way has not reached the store
    have hnone : Kept.changes ⟨k.acknowledged, none⟩ = k.acknowledged := List.append_nil _
    refine ⟨⟨k.acknowledged, none⟩, hby.settled, ?_, ?_⟩
    · rw [hnone]
      exact (allSteps_append.mp hsteps).1
    · rw [hnone]
      exact hbefore
  · exact ⟨k, hby, hsteps, hafter⟩

def createHull : SchemaRequest := .create [("name", .str "hull"), ("fields", .obj [])]

/-- A process that stops between the save and the registration, and the one
after it, which refuses the same schema and deletes it. -/
def stoppedAfterSave : List Incarnation :=
  [⟨[], [createHull], [0, 0]⟩,
    ⟨[["riskflow:schema:hull"]], [createHull, .delete "hull"], [0, 1, 1, 1]⟩]

example : (processes plainSchemaEnv standardFiles ∅ stoppedAfterSave).map (·.shared.served) =
    [[], [.deleted "hull"]] := rfl

end RiskFlow
