import RiskFlow.Http.SchemaCreation

/-!
# SchemaNames — which names the schema handlers let in

The documented alphabet of schema names against the pattern the handlers
match. `$` also matches before a final line break, so a name of the
alphabet with one line break at its end passes. Every name that a handler
adds has passed the pattern, whatever the handlers' steps do in between.
-/

namespace RiskFlow

open Lib

/-! ## The alphabet and the pattern -/

/-- The names the reference promises: ASCII letters, digits, hyphens and
underscores, at least one. -/
def InAlphabet (name : String) : Prop :=
  name ≠ "" ∧ ∀ c ∈ name.toList, c.isAlphanum = true ∨ c = '-' ∨ c = '_'

/-- A name of the alphabet with a line break at its end. -/
def IsBrokenWord (name : String) : Prop := ∃ word, InAlphabet word ∧ name = word ++ "\n"

theorem isNameChar_iff {c : Char} :
    isNameChar c = true ↔ c.isAlphanum = true ∨ c = '-' ∨ c = '_' := by
  simp only [isNameChar, Char.isAlphanum, Char.isAlpha, Char.isUpper, Char.isLower, Char.isDigit,
    Bool.or_eq_true, Bool.and_eq_true, decide_eq_true_eq, beq_iff_eq, Char.le_def, ge_iff_le]
  constructor
  · rintro ((((h | h) | h) | h) | h)
    · exact .inl (.inl (.inr h))
    · exact .inl (.inl (.inl h))
    · exact .inl (.inr h)
    · exact .inr (.inr h)
    · exact .inr (.inl h)
  · rintro (((h | h) | h) | h | h)
    · exact .inl (.inl (.inl (.inr h)))
    · exact .inl (.inl (.inl (.inl h)))
    · exact .inl (.inl (.inr h))
    · exact .inr h
    · exact .inl (.inr h)

/-- The alphabet, read character by character. -/
theorem inAlphabet_iff {name : String} :
    InAlphabet name ↔ name.toList ≠ [] ∧ name.toList.all isNameChar = true := by
  simp only [InAlphabet, List.all_eq_true, isNameChar_iff, ne_eq, String.toList_eq_nil_iff]

/-- **What the pattern matches**: from the start one or more characters of
the class, then the end or a line break at the end. -/
theorem isSchemaName_iff_match {name : String} :
    isSchemaName name = true ↔ ∃ word rest, name.toList = word ++ rest ∧ word ≠ [] ∧
      word.all isNameChar = true ∧ (rest = [] ∨ rest = [Char.ofNat 10]) := by
  simp only [isSchemaName, Bool.and_eq_true, Bool.not_eq_true', List.isEmpty_eq_false_iff]
  constructor
  · rintro ⟨hne, hall⟩
    split at hne
    · rename_i hlast
      rw [if_pos hlast] at hall
      refine ⟨_, [Char.ofNat 10], (List.dropLast_append_getLast? _ hlast).symm, hne, hall, .inr rfl⟩
    · rename_i hlast
      rw [if_neg hlast] at hall
      exact ⟨_, [], (List.append_nil _).symm, hne, hall, .inl rfl⟩
  · rintro ⟨word, rest, hname, hne, hall, rfl | rfl⟩
    · rw [List.append_nil] at hname
      -- the last character is one of the class, so it is no line break
      have hlast : name.toList.getLast? ≠ some (Char.ofNat 10) := by
        intro hbreak
        rw [hname] at hbreak
        have hchar := List.all_eq_true.mp hall _ (List.mem_of_getLast? hbreak)
        exact absurd hchar (by decide)
      rw [if_neg hlast, hname]
      exact ⟨hne, hall⟩
    · have hlast : name.toList.getLast? = some (Char.ofNat 10) := by
        rw [hname, List.getLast?_concat]
      rw [if_pos hlast, hname, List.dropLast_concat]
      exact ⟨hne, hall⟩

/-- **The validator lets in the alphabet and its broken words**, nothing else. -/
theorem isSchemaName_iff {name : String} :
    isSchemaName name = true ↔ InAlphabet name ∨ IsBrokenWord name := by
  rw [isSchemaName_iff_match]
  constructor
  · rintro ⟨word, rest, hname, hne, hall, rfl | rfl⟩
    · refine .inl (inAlphabet_iff.mpr ?_)
      rw [hname, List.append_nil]
      exact ⟨hne, hall⟩
    · refine .inr ⟨String.ofList word, inAlphabet_iff.mpr ?_, ?_⟩
      · rw [String.toList_ofList]
        exact ⟨hne, hall⟩
      · refine String.toList_injective ?_
        rw [hname, String.toList_append, String.toList_ofList]
        rfl
  · rintro (h | ⟨word, h, rfl⟩)
    · obtain ⟨hne, hall⟩ := inAlphabet_iff.mp h
      exact ⟨name.toList, [], (List.append_nil _).symm, hne, hall, .inl rfl⟩
    · obtain ⟨hne, hall⟩ := inAlphabet_iff.mp h
      exact ⟨word.toList, [Char.ofNat 10], String.toList_append, hne, hall, .inr rfl⟩

theorem validateSchemaName_iff {name : String} :
    validateSchemaName name = .ok () ↔ isSchemaName name = true := by
  refine ⟨validateSchemaName_ok, fun h => ?_⟩
  rw [validateSchemaName, if_pos h]

theorem not_inAlphabet_of_isBrokenWord {name : String} (h : IsBrokenWord name) :
    ¬InAlphabet name := by
  obtain ⟨word, _, rfl⟩ := h
  intro hall
  have hbreak := hall.2 (Char.ofNat 10) (by simp [String.toList_append])
  exact absurd hbreak (by decide)

/-! ## The names a step adds -/

/-- `name` is in the registry, the definitions or the store of `s'` and was
not there in `s`. -/
def SchemaWorld.Adds (s s' : SchemaWorld) (name : String) : Prop :=
  (name ∈ s'.registry.keys ∧ name ∉ s.registry.keys) ∨
    (name ∈ s'.definitions.keys ∧ name ∉ s.definitions.keys) ∨
    (RedisSchemaStore.Holds s'.store name ∧ ¬RedisSchemaStore.Holds s.store name)

/-- The request is a body whose member `name` is that text. -/
def SchemaRequest.Names (request : SchemaRequest) (name : String) : Prop :=
  ∃ body, request = .create body ∧ (Json.obj body).field "name" = some (.str name)

/-- The name a handler may still add, if it adds one, is the one its body
gives and has passed the pattern. -/
def SchemaTask.Carries (t : SchemaTask) : Prop :=
  match t.phase with
  | .saving schema | .saved schema =>
      isSchemaName schema.name = true ∧ t.request.Names schema.name
  | _ => True

/-- The schema a body is read into has the name the body gives. -/
theorem modelValidate_name {j : Json} {schema : TargetSchema}
    (h : TargetSchema.modelValidate j = .ok schema) :
    j.field "name" = some (.str schema.name) := by
  obtain ⟨data, hdata, hvalid⟩ := bind_eq_ok.mp h
  obtain ⟨name, hname, hdata⟩ := bind_eq_ok.mp hdata
  obtain ⟨members, _, hdata⟩ := bind_eq_ok.mp hdata
  obtain ⟨fields, _, hdata⟩ := bind_eq_ok.mp hdata
  obtain ⟨rules, _, hdata⟩ := bind_eq_ok.mp hdata
  obtain ⟨hints, _, hdata⟩ := bind_eq_ok.mp hdata
  cases hdata
  have hschema : schema.name = name := by
    unfold TargetSchema.validate at hvalid
    split at hvalid
    · cases hvalid
    · split at hvalid
      · cases hvalid
      · cases hvalid
        rfl
  rw [hschema]
  cases hfield : j.field "name" with
  | none =>
      rw [hfield] at hname
      cases hname
  | some v =>
      rw [hfield] at hname
      cases v <;> cases hname
      rfl

theorem checkCreate_name {env : SchemaEnv} {s : SchemaWorld} {body : List (String × Json)}
    {schema : TargetSchema} (h : checkCreate env s body = .ok schema) :
    (Json.obj body).field "name" = some (.str schema.name) := by
  unfold checkCreate at h
  split at h
  · cases h
  · split at h
    · cases h
    · rename_i hread
      obtain ⟨_, _, h⟩ := bind_eq_ok.mp h
      split at h
      · cases h
      · cases h
        exact modelValidate_name hread

section Steps
variable {env : FactoryEnv} {s : SchemaWorld} {name : String}

theorem adds_save {schema : TargetSchema}
    (h : s.Adds { s with store := RedisSchemaStore.save s.store schema } name) :
    name = schema.name := by
  rcases h with ⟨hmem, hnew⟩ | ⟨hmem, hnew⟩ | ⟨hmem, hnew⟩
  · exact absurd hmem hnew
  · exact absurd hmem hnew
  · exact (RedisSchemaStore.holds_save.mp hmem).resolve_right hnew

theorem adds_register {schema : TargetSchema} {answer : SchemaAnswer}
    (h : s.Adds ((s.register env.toSchemaEnv schema).answer answer) name) :
    name = schema.name := by
  rcases h with ⟨hmem, hnew⟩ | ⟨hmem, hnew⟩ | ⟨hmem, hnew⟩
  · exact (Dict.mem_keys_set.mp hmem).resolve_right hnew
  · exact (Dict.mem_keys_set.mp hmem).resolve_right hnew
  · exact absurd hmem hnew

/-- A step after which each of the three holds no more than before. -/
theorem not_adds {s' : SchemaWorld} (hregistry : s'.registry.keys ⊆ s.registry.keys)
    (hdefinitions : s'.definitions.keys ⊆ s.definitions.keys)
    (hstore : s'.store.keys ⊆ s.store.keys) : ¬s.Adds s' name := by
  rintro (⟨hmem, hnew⟩ | ⟨hmem, hnew⟩ | ⟨hmem, hnew⟩)
  · exact hnew (hregistry hmem)
  · exact hnew (hdefinitions hmem)
  · exact hnew (hstore hmem)

theorem not_adds_self : ¬s.Adds s name :=
  not_adds (List.Subset.refl _) (List.Subset.refl _) (List.Subset.refl _)

/-- **What one step of a handler adds** is the name its body gives, and that
name has passed the pattern. -/
theorem advanceFactory_adds (env : FactoryEnv) (s : SchemaWorld) {t : SchemaTask}
    (ht : t.Carries) :
    (t.advanceFactory env s).2.Carries ∧ ∀ name, s.Adds (t.advanceFactory env s).1 name →
      isSchemaName name = true ∧ t.request.Names name := by
  -- a step that leaves the three as they are, or takes a name away, adds none
  have hsame : ∀ {name}, s.Adds s name → isSchemaName name = true ∧ t.request.Names name :=
    fun hadds => absurd hadds not_adds_self
  have hrefl : ∀ {l : List String}, l ⊆ l := fun {l} => List.Subset.refl l
  obtain ⟨request, phase⟩ := t
  cases phase with
  | waiting =>
      rcases advance_waiting env.toSchemaEnv s request with ⟨phase, hphase, heq⟩ |
        ⟨body, schema, hbody, _, hcheck, heq⟩ | ⟨name, _, _, _, heq⟩
      · rw [SchemaTask.advanceFactory, heq]
        rcases hphase with rfl | ⟨e, rfl⟩
        · exact ⟨trivial, fun _ => hsame⟩
        · exact ⟨trivial, fun _ => hsame⟩
      · rw [SchemaTask.advanceFactory, heq]
        exact ⟨⟨(checkCreate_ok hcheck).1, body, hbody, checkCreate_name hcheck⟩, fun _ => hsame⟩
      · rw [SchemaTask.advanceFactory, heq]
        exact ⟨trivial, fun _ hadds => absurd hadds
          (not_adds Dict.keys_erase_subset Dict.keys_erase_subset hrefl)⟩
  | saving schema =>
      refine ⟨ht, fun name hadds => ?_⟩
      cases adds_save hadds
      exact ht
  | saved schema =>
      simp only [SchemaTask.advanceFactory]
      cases env.factory schema with
      | error e => exact ⟨trivial, fun _ => hsame⟩
      | ok service =>
          refine ⟨trivial, fun name hadds => ?_⟩
          cases adds_register hadds
          exact ht
  | deleting name => exact ⟨trivial, fun _ hadds => absurd hadds
      (not_adds hrefl hrefl Dict.keys_erase_subset)⟩
  | deleted name => exact ⟨trivial, fun _ => hsame⟩
  | answered answer => exact ⟨trivial, fun _ => hsame⟩

/-- A handler keeps its request. -/
theorem advanceFactory_request (env : FactoryEnv) (s : SchemaWorld) (t : SchemaTask) :
    (t.advanceFactory env s).2.request = t.request := by
  obtain ⟨request, phase⟩ := t
  cases phase with
  | waiting =>
      rcases advance_waiting env.toSchemaEnv s request with ⟨_, _, heq⟩ | ⟨_, _, _, _, _, heq⟩ |
        ⟨_, _, _, _, heq⟩
      · rw [SchemaTask.advanceFactory, heq]
      · rw [SchemaTask.advanceFactory, heq]
      · rw [SchemaTask.advanceFactory, heq]
  | saved schema =>
      simp only [SchemaTask.advanceFactory]
      split <;> rfl
  | _ => rfl

end Steps

/-! ## Runs -/

/-- An exception where a handler waits: the store raises, or the request is
cancelled. It leaves `async with`. -/
def SchemaTask.interrupt (s : SchemaWorld) (t : SchemaTask) : SchemaWorld × SchemaTask :=
  match t.phase with
  | .answered _ => (s, t)
  | .waiting => (s, { t with phase := .answered (.error unhandled) })
  | _ => ({ s with locked := false }, { t with phase := .answered (.error unhandled) })

/-- A handler takes its next step, or is interrupted. -/
structure SchemaEvent where
  task : Nat
  interrupted : Bool := false

def SchemaEvent.act (env : FactoryEnv) (e : SchemaEvent) :
    SchemaWorld → SchemaTask → SchemaWorld × SchemaTask :=
  if e.interrupted then SchemaTask.interrupt else SchemaTask.advanceFactory env

def SchemaEvent.apply (env : FactoryEnv) (p : Pool SchemaWorld SchemaTask) (e : SchemaEvent) :
    Pool SchemaWorld SchemaTask :=
  p.step (e.act env) e.task

/-- The handlers of `requests` after a run of events. -/
def FactoryEnv.serve (env : FactoryEnv) (s : SchemaWorld) (requests : List SchemaRequest)
    (events : List SchemaEvent) : Pool SchemaWorld SchemaTask :=
  events.foldl (SchemaEvent.apply env) ⟨s, requests.map SchemaTask.begin⟩

/-- An event of a handler, step or interruption. -/
theorem act_adds (env : FactoryEnv) (e : SchemaEvent) (s : SchemaWorld) {t : SchemaTask}
    (ht : t.Carries) :
    (e.act env s t).2.Carries ∧ (e.act env s t).2.request = t.request ∧
      ∀ name, s.Adds (e.act env s t).1 name →
        isSchemaName name = true ∧ t.request.Names name := by
  unfold SchemaEvent.act
  split
  · obtain ⟨request, phase⟩ := t
    cases phase with
    | answered answer => exact ⟨ht, rfl, fun _ hadds => absurd hadds not_adds_self⟩
    | _ => exact ⟨trivial, rfl, fun _ hadds => absurd hadds not_adds_self⟩
  · obtain ⟨hcarries, hadds⟩ := advanceFactory_adds env s ht
    exact ⟨hcarries, advanceFactory_request env s t, hadds⟩

section Runs
variable (env : FactoryEnv) (s : SchemaWorld) (requests : List SchemaRequest)

/-- The requests of the run are the ones at work in every state of it. -/
theorem serve_carries (events : List SchemaEvent) :
    ∀ t ∈ (env.serve s requests events).tasks, t.Carries ∧ t.request ∈ requests := by
  have hstart : Pool.Holds (fun _ => True) (fun _ t => t.Carries ∧ t.request ∈ requests)
      (⟨s, requests.map SchemaTask.begin⟩ : Pool SchemaWorld SchemaTask) := by
    refine ⟨trivial, fun t ht => ?_⟩
    obtain ⟨request, hrequest, rfl⟩ := List.mem_map.mp ht
    exact ⟨trivial, hrequest⟩
  have hsteps : AllSteps (SchemaEvent.apply env) (fun _ _ => True)
      ⟨s, requests.map SchemaTask.begin⟩ events := allSteps_of_forall fun _ _ _ => trivial
  refine (run_preserves (fun p e hp _ => ?_) hsteps hstart).2
  refine Pool.step_holds _ hp fun t ht => ?_
  obtain ⟨hcarries, hmem⟩ := hp.2 t (List.mem_of_getElem? ht)
  obtain ⟨hstays, hrequest, _⟩ := act_adds env e p.shared hcarries
  exact ⟨trivial, ⟨hstays, hrequest ▸ hmem⟩, fun _ _ h => h⟩

/-- **Every name a run adds** is given by one of its bodies and has passed
the pattern. -/
theorem serve_adds {events : List SchemaEvent} {e : SchemaEvent} {name : String}
    (h : (env.serve s requests events).shared.Adds
      (env.serve s requests (events ++ [e])).shared name) :
    isSchemaName name = true ∧ ∃ request ∈ requests, request.Names name := by
  have hnext : env.serve s requests (events ++ [e]) =
      (env.serve s requests events).step (e.act env) e.task := List.foldl_concat ..
  rw [hnext] at h
  cases ht : (env.serve s requests events).tasks[e.task]? with
  | none =>
      rw [Pool.step_none _ ht] at h
      exact absurd h not_adds_self
  | some t =>
      rw [Pool.step_some _ ht] at h
      obtain ⟨hcarries, hmem⟩ := serve_carries env s requests events t (List.mem_of_getElem? ht)
      obtain ⟨_, _, hadds⟩ := act_adds env e _ hcarries
      obtain ⟨hname, hnames⟩ := hadds name h
      exact ⟨hname, t.request, hmem, hnames⟩

end Runs

/-- **When schema names stay in the alphabet.** The validator answers for a
name as the alphabet does exactly if the name is no broken word, and a run
in which no body gives a broken word adds names of the alphabet only. -/
theorem schema_names_in_alphabet (env : FactoryEnv) (s : SchemaWorld)
    (requests : List SchemaRequest)
    (hnames : ∀ request ∈ requests, ∀ name, request.Names name → ¬IsBrokenWord name) :
    (∀ name, (validateSchemaName name = .ok () ↔ InAlphabet name) ↔ ¬IsBrokenWord name) ∧
      ∀ events e name, (env.serve s requests events).shared.Adds
        (env.serve s requests (events ++ [e])).shared name → InAlphabet name := by
  constructor
  · intro name
    rw [validateSchemaName_iff, isSchemaName_iff]
    constructor
    · intro hsame hbroken
      exact not_inAlphabet_of_isBrokenWord hbroken (hsame.mp (.inr hbroken))
    · intro hwhole
      exact ⟨fun h => h.resolve_right hwhole, .inl⟩
  · intro events e name hadds
    obtain ⟨hname, request, hmem, hgiven⟩ := serve_adds env s requests hadds
    exact (isSchemaName_iff.mp hname).resolve_right (hnames request hmem name hgiven)

/-- A body that creates a schema of this name, with one field. -/
def schemaBody (name : String) : List (String × Json) :=
  [("name", .str name), ("fields", .obj [("Policy", .obj [("type", .str "string")])])]

/-- The schema march is saved in the second step of its handler. -/
theorem march_in_alphabet :
    (buildingEnv.serve bareWorld [.create (schemaBody "march")] [⟨0, false⟩]).shared.Adds
        (buildingEnv.serve bareWorld [.create (schemaBody "march")]
          [⟨0, false⟩, ⟨0, false⟩]).shared "march" ∧
      ∀ events e name,
        (buildingEnv.serve bareWorld [.create (schemaBody "march")] events).shared.Adds
          (buildingEnv.serve bareWorld [.create (schemaBody "march")] (events ++ [e])).shared
          name → InAlphabet name := by
  constructor
  · exact .inr (.inr ⟨by decide, by decide⟩)
  · refine (schema_names_in_alphabet buildingEnv bareWorld [.create (schemaBody "march")] ?_).2
    intro request hmem name hgiven hbroken
    obtain ⟨body, hbody, hname⟩ := hgiven
    cases List.mem_singleton.mp hmem
    cases hbody
    cases hname
    exact not_inAlphabet_of_isBrokenWord hbroken (inAlphabet_iff.mpr (by decide))

/-- The name march with a line break at its end passes the validator, and
its schema is saved. -/
theorem broken_march_added :
    ¬(validateSchemaName "march\n" = .ok () ↔ InAlphabet "march\n") ∧
      ¬∀ events e name,
        (buildingEnv.serve bareWorld [.create (schemaBody "march\n")] events).shared.Adds
          (buildingEnv.serve bareWorld [.create (schemaBody "march\n")] (events ++ [e])).shared
          name → InAlphabet name := by
  have hword : InAlphabet "march" := inAlphabet_iff.mpr (by decide)
  have hbroken : ¬InAlphabet "march\n" := not_inAlphabet_of_isBrokenWord ⟨"march", hword, rfl⟩
  constructor
  · intro hsame
    exact hbroken (hsame.mp rfl)
  · intro hall
    have hadds : (buildingEnv.serve bareWorld [.create (schemaBody "march\n")]
        [⟨0, false⟩]).shared.Adds
        (buildingEnv.serve bareWorld [.create (schemaBody "march\n")]
          [⟨0, false⟩, ⟨0, false⟩]).shared "march\n" :=
      .inr (.inr ⟨by decide, by decide⟩)
    exact hbroken (hall [⟨0, false⟩] ⟨0, false⟩ "march\n" hadds)

end RiskFlow
