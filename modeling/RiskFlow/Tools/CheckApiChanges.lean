import RiskFlow.Lib.Dict
import RiskFlow.Lib.Extension

/-!
# CheckApiChanges — `tools/check_api_changes.py`

The classifier of changes between two OpenAPI specs, on specs of the shape
it reads: paths, their methods, an operation's parameters and response
codes. Over it stand the two relations it decides, `Spec.Compatible` and
`Spec.Same`, each built level by level.
-/

namespace RiskFlow

open Lib

/-! ## Specs -/

/-- A parameter of an operation. Its `location` is what the spec calls `in`,
which the comparison never reads. -/
structure Parameter where
  name : String
  location : String
  required : Option Bool

/-- `p.get("required", False)`. -/
def Parameter.isRequired (p : Parameter) : Bool := p.required.getD false

/-- An operation; of a response only its code is read. -/
structure Operation where
  parameters : Option (List Parameter)
  responses : Option (Dict String Unit)

/-- `HTTP_METHODS`. -/
def httpMethods : List String :=
  ["get", "post", "put", "patch", "delete", "head", "options", "trace"]

/-- What a path item holds under a name. -/
inductive PathMember where
  | operation (op : Operation)
  /-- A summary, shared parameters, servers and the like. -/
  | other

def PathMember.operation? : PathMember → Option Operation
  | .operation op => some op
  | .other => none

/-- A path item: what stands under the name of a method is an operation. -/
structure PathItem where
  members : Dict String PathMember
  methods_operations : ∀ m ∈ httpMethods, members.get? m ≠ some .other

/-- A spec; without `paths` it is read as one with no path. -/
structure Spec where
  paths : Option (Dict String PathItem)

/-! ## The classifier -/

inductive ChangeKind where
  | none
  | nonBreaking
  | breaking
  deriving DecidableEq, Repr

/-- An entry appended to one of the lists `breaking` and `non_breaking`. -/
inductive Change where
  | breaking (text : String)
  | nonBreaking (text : String)
  deriving DecidableEq, Repr

def Change.isBreaking : Change → Bool
  | .breaking _ => true
  | .nonBreaking _ => false

def Change.text : Change → String
  | .breaking text => text
  | .nonBreaking text => text

structure ChangeResult where
  kind : ChangeKind
  changes : List String
  deriving DecidableEq, Repr

/-- The three loops that compare two keyed collections: over the keys that
went, the keys that came, and the keys of both. -/
def compareKeyed {ν : Type} (removed added : String → ν → List Change)
    (shared : String → ν → ν → List Change) (old new : Dict String ν) : List Change :=
  (old.entries.flatMap fun kv => if kv.1 ∈ new.keys then [] else removed kv.1 kv.2) ++
  (new.entries.flatMap fun kv => if kv.1 ∈ old.keys then [] else added kv.1 kv.2) ++
  old.entries.flatMap fun kv =>
    match new.get? kv.1 with
    | none => []
    | some w => shared kv.1 kv.2 w

/-- `{p["name"]: p for p in op.get("parameters", [])}`. -/
def Operation.params (op : Operation) : Dict String Parameter :=
  Dict.ofList ((op.parameters.getD []).map fun p => (p.name, p))

def compareParameters (label : String) (oldOp newOp : Operation) : List Change :=
  compareKeyed
    (fun name p =>
      if p.isRequired then [.breaking s!"removed required parameter '{name}' from {label}"]
      else [.nonBreaking s!"removed optional parameter '{name}' from {label}"])
    (fun name p =>
      if p.isRequired then [.breaking s!"added required parameter '{name}' to {label}"]
      else [.nonBreaking s!"added optional parameter '{name}' to {label}"])
    (fun name oldP newP =>
      (if oldP.isRequired && !newP.isRequired then
        [.breaking s!"parameter '{name}' changed from required to optional in {label}"] else []) ++
      (if !oldP.isRequired && newP.isRequired then
        [.breaking s!"parameter '{name}' changed from optional to required in {label}"] else []))
    oldOp.params newOp.params

/-- `op.get("responses", {})`. -/
def Operation.codes (op : Operation) : Dict String Unit := op.responses.getD ∅

def compareResponses (label : String) (oldOp newOp : Operation) : List Change :=
  compareKeyed
    (fun code _ => [.breaking s!"removed response status {code} from {label}"])
    (fun code _ => [.nonBreaking s!"added response status {code} to {label}"])
    (fun _ _ _ => [])
    oldOp.codes newOp.codes

def compareOperation (path method : String) (oldOp newOp : Operation) : List Change :=
  let upper := method.toUpper
  let label := s!"{upper} {path}"
  compareParameters label oldOp newOp ++ compareResponses label oldOp newOp

/-- The members of a path item whose name is a method. -/
def PathItem.operations (item : PathItem) : Dict String Operation :=
  item.members.filterMap fun m x => if m ∈ httpMethods then x.operation? else none

def comparePathItem (path : String) (oldItem newItem : PathItem) : List Change :=
  compareKeyed
    (fun method _ =>
      let upper := method.toUpper
      [.breaking s!"removed method: {upper} {path}"])
    (fun method _ =>
      let upper := method.toUpper
      [.nonBreaking s!"added method: {upper} {path}"])
    (fun method oldOp newOp => compareOperation path method oldOp newOp)
    oldItem.operations newItem.operations

/-- `spec.get("paths", {})`. -/
def Spec.pathItems (spec : Spec) : Dict String PathItem := spec.paths.getD ∅

/-- All entries of `breaking` and `non_breaking`, in the order of the calls
that append them. -/
def compareSpecs (old new : Spec) : List Change :=
  compareKeyed
    (fun path _ => [.breaking s!"removed path: {path}"])
    (fun path _ => [.nonBreaking s!"added path: {path}"])
    (fun path oldItem newItem => comparePathItem path oldItem newItem)
    old.pathItems new.pathItems

def detectChanges (old new : Spec) : ChangeResult :=
  let changes := compareSpecs old new
  let breaking := (changes.filter fun c => c.isBreaking).map Change.text
  let nonBreaking := (changes.filter fun c => !c.isBreaking).map Change.text
  if !breaking.isEmpty then ⟨.breaking, breaking ++ nonBreaking⟩
  else if !nonBreaking.isEmpty then ⟨.nonBreaking, breaking ++ nonBreaking⟩
  else ⟨.none, []⟩

/-! ## What the classifier decides -/

/-- The parameter is there, and required. -/
def Operation.Requires (op : Operation) (name : String) : Prop :=
  ∃ p, op.params.get? name = some p ∧ p.isRequired = true

/-- The new operation requires the parameters the old one does and answers
with every code of the old one. -/
structure Operation.Compatible (old new : Operation) : Prop where
  requires : ∀ name, old.Requires name ↔ new.Requires name
  codes : Extends (fun _ _ => True) old.codes.get? new.codes.get?

/-- The same parameters, required by both or none, and the same codes. -/
structure Operation.Same (old new : Operation) : Prop where
  params : Matches (fun p q => p.isRequired = q.isRequired) old.params.get? new.params.get?
  codes : Matches (fun _ _ => True) old.codes.get? new.codes.get?

def PathItem.Compatible (old new : PathItem) : Prop :=
  Extends Operation.Compatible old.operations.get? new.operations.get?

def PathItem.Same (old new : PathItem) : Prop :=
  Matches Operation.Same old.operations.get? new.operations.get?

/-- Every path of the old spec is in the new one, with compatible operations. -/
def Spec.Compatible (old new : Spec) : Prop :=
  Extends PathItem.Compatible old.pathItems.get? new.pathItems.get?

/-- The same paths, with the same operations. -/
def Spec.Same (old new : Spec) : Prop :=
  Matches PathItem.Same old.pathItems.get? new.pathItems.get?

section Compared
variable {ν : Type} {removed added : String → ν → List Change}
  {shared : String → ν → ν → List Change} {old new : Dict String ν} {P : Change → Prop}
  {r : ν → ν → Prop}

/-- What holds of every entry of a comparison. -/
theorem forall_compareKeyed :
    (∀ c ∈ compareKeyed removed added shared old new, P c) ↔
      (∀ k v, old.get? k = some v → new.get? k = none → ∀ c ∈ removed k v, P c) ∧
      (∀ k v, new.get? k = some v → old.get? k = none → ∀ c ∈ added k v, P c) ∧
      ∀ k v w, old.get? k = some v → new.get? k = some w → ∀ c ∈ shared k v w, P c := by
  have hgone : ∀ (d e : Dict String ν) (entries : String → ν → List Change),
      (∀ c ∈ d.entries.flatMap fun kv => if kv.1 ∈ e.keys then [] else entries kv.1 kv.2, P c) ↔
        ∀ k v, d.get? k = some v → e.get? k = none → ∀ c ∈ entries k v, P c := by
    intro d e entries
    simp only [List.forall_mem_flatMap, Dict.get?_eq_none, Dict.get?_eq_some]
    constructor
    · intro h k v hkv hk
      simpa [hk] using h (k, v) hkv
    · rintro h ⟨k, v⟩ hkv c hc
      split at hc
      · cases hc
      · rename_i hk
        exact h k v hkv hk c hc
  have hboth : (∀ c ∈ old.entries.flatMap fun kv =>
        match new.get? kv.1 with
        | none => []
        | some w => shared kv.1 kv.2 w, P c) ↔
      ∀ k v w, old.get? k = some v → new.get? k = some w → ∀ c ∈ shared k v w, P c := by
    simp only [List.forall_mem_flatMap, Dict.get?_eq_some (d := old)]
    constructor
    · intro h k v w hkv hw
      simpa [hw] using h (k, v) hkv
    · rintro h ⟨k, v⟩ hkv c hc
      split at hc
      · cases hc
      · rename_i w hw
        exact h k v w hkv hw c hc
  simp only [compareKeyed, List.forall_mem_append, hgone, hboth, and_assoc]

/-- A comparison that refuses every removed key and no added one. -/
theorem forall_compareKeyed_extends (hremoved : ∀ k v, ¬ ∀ c ∈ removed k v, P c)
    (hadded : ∀ k v, ∀ c ∈ added k v, P c)
    (hshared : ∀ k v w, (∀ c ∈ shared k v w, P c) ↔ r v w) :
    (∀ c ∈ compareKeyed removed added shared old new, P c) ↔ Extends r old.get? new.get? := by
  rw [forall_compareKeyed, extends_iff]
  constructor
  · intro h
    obtain ⟨hgone, _, hboth⟩ := h
    exact ⟨fun k v hv hnone => hremoved k v (hgone k v hv hnone),
      fun k v w hv hw => (hshared k v w).mp (hboth k v w hv hw)⟩
  · intro h
    obtain ⟨hthere, hboth⟩ := h
    exact ⟨fun k v hv hnone => absurd hnone (hthere k v hv), fun k v _ _ => hadded k v,
      fun k v w hv hw => (hshared k v w).mpr (hboth k v w hv hw)⟩

/-- A comparison that refuses every removed key and every added one. -/
theorem forall_compareKeyed_matches (hremoved : ∀ k v, ¬ ∀ c ∈ removed k v, P c)
    (hadded : ∀ k v, ¬ ∀ c ∈ added k v, P c)
    (hshared : ∀ k v w, (∀ c ∈ shared k v w, P c) ↔ r v w) :
    (∀ c ∈ compareKeyed removed added shared old new, P c) ↔ Matches r old.get? new.get? := by
  rw [forall_compareKeyed, matches_iff, extends_iff]
  constructor
  · intro h
    obtain ⟨hgone, hcame, hboth⟩ := h
    exact ⟨⟨fun k v hv hnone => hremoved k v (hgone k v hv hnone),
      fun k v w hv hw => (hshared k v w).mp (hboth k v w hv hw)⟩,
      fun k v hv hnone => hadded k v (hcame k v hv hnone)⟩
  · intro h
    obtain ⟨⟨hthere, hboth⟩, hback⟩ := h
    exact ⟨fun k v hv hnone => absurd hnone (hthere k v hv),
      fun k v hv hnone => absurd hnone (hback k v hv),
      fun k v w hv hw => (hshared k v w).mpr (hboth k v w hv hw)⟩

end Compared

/-! ## Level by level -/

section Levels
variable {path method label : String}

/-- The entry does not go to `breaking`. -/
def Change.Harmless (c : Change) : Prop := c.isBreaking = false

@[simp] theorem harmless_breaking (text : String) : ¬ (Change.breaking text).Harmless := by
  simp [Change.Harmless, Change.isBreaking]

@[simp] theorem harmless_nonBreaking (text : String) : (Change.nonBreaking text).Harmless := rfl

/-- A parameter that both operations have breaks exactly when its
requirement changes. -/
theorem compareParameters_harmless {old new : Operation} :
    (∀ c ∈ compareParameters label old new, c.Harmless) ↔
      ∀ name, old.Requires name ↔ new.Requires name := by
  rw [compareParameters, forall_compareKeyed]
  unfold Operation.Requires
  constructor
  · intro h name
    obtain ⟨hgone, hcame, hboth⟩ := h
    have hgone := hgone name
    have hcame := hcame name
    have hboth := hboth name
    cases hp : old.params.get? name with
    | none =>
        cases hq : new.params.get? name with
        | none => simp
        | some q =>
            cases hreq : q.isRequired with
            | false => simp [hreq]
            | true => simp [hp, hq, hreq] at hcame
    | some p =>
        cases hq : new.params.get? name with
        | none =>
            cases hreq : p.isRequired with
            | false => simp [hreq]
            | true => simp [hp, hq, hreq] at hgone
        | some q =>
            cases hp' : p.isRequired <;> cases hq' : q.isRequired <;>
              simp [hp, hq, hp', hq'] at hboth ⊢
  · intro h
    refine ⟨?_, ?_, ?_⟩
    · intro name p hp hnone
      have hname := h name
      cases hreq : p.isRequired <;> simp [hp, hnone, hreq] at hname ⊢
    · intro name q hq hnone
      have hname := h name
      cases hreq : q.isRequired <;> simp [hq, hnone, hreq] at hname ⊢
    · intro name p q hp hq
      have hname := h name
      cases hp' : p.isRequired <;> cases hq' : q.isRequired <;>
        simp [hp, hq, hp', hq'] at hname ⊢

theorem compareParameters_none {old new : Operation} :
    (∀ c ∈ compareParameters label old new, False) ↔
      Matches (fun p q => p.isRequired = q.isRequired) old.params.get? new.params.get? := by
  refine forall_compareKeyed_matches ?_ ?_ ?_
  · intro name p
    cases p.isRequired <;> simp
  · intro name p
    cases p.isRequired <;> simp
  · intro name p q
    cases p.isRequired <;> cases q.isRequired <;> simp

theorem compareResponses_harmless {old new : Operation} :
    (∀ c ∈ compareResponses label old new, c.Harmless) ↔
      Extends (fun _ _ => True) old.codes.get? new.codes.get? :=
  forall_compareKeyed_extends (by simp) (by simp) (by simp)

theorem compareResponses_none {old new : Operation} :
    (∀ c ∈ compareResponses label old new, False) ↔
      Matches (fun _ _ => True) old.codes.get? new.codes.get? :=
  forall_compareKeyed_matches (by simp) (by simp) (by simp)

theorem compareOperation_harmless {old new : Operation} :
    (∀ c ∈ compareOperation path method old new, c.Harmless) ↔ old.Compatible new := by
  rw [compareOperation, List.forall_mem_append, compareParameters_harmless,
    compareResponses_harmless]
  exact ⟨fun h => ⟨h.1, h.2⟩, fun h => ⟨h.requires, h.codes⟩⟩

theorem compareOperation_none {old new : Operation} :
    (∀ c ∈ compareOperation path method old new, False) ↔ old.Same new := by
  rw [compareOperation, List.forall_mem_append, compareParameters_none, compareResponses_none]
  exact ⟨fun h => ⟨h.1, h.2⟩, fun h => ⟨h.params, h.codes⟩⟩

theorem comparePathItem_harmless {old new : PathItem} :
    (∀ c ∈ comparePathItem path old new, c.Harmless) ↔ old.Compatible new :=
  forall_compareKeyed_extends (by simp) (by simp) fun _ _ _ => compareOperation_harmless

theorem comparePathItem_none {old new : PathItem} :
    (∀ c ∈ comparePathItem path old new, False) ↔ old.Same new :=
  forall_compareKeyed_matches (by simp) (by simp) fun _ _ _ => compareOperation_none

theorem compareSpecs_harmless {old new : Spec} :
    (∀ c ∈ compareSpecs old new, c.Harmless) ↔ old.Compatible new :=
  forall_compareKeyed_extends (by simp) (by simp) fun _ _ _ => comparePathItem_harmless

theorem compareSpecs_none {old new : Spec} :
    (∀ c ∈ compareSpecs old new, False) ↔ old.Same new :=
  forall_compareKeyed_matches (by simp) (by simp) fun _ _ _ => comparePathItem_none

theorem kind_ne_breaking {old new : Spec} :
    (detectChanges old new).kind ≠ .breaking ↔ old.Compatible new := by
  rw [← compareSpecs_harmless]
  simp only [detectChanges, Change.Harmless]
  cases hbreaking : (compareSpecs old new).filter fun c => c.isBreaking with
  | nil =>
      have hall := List.filter_eq_nil_iff.mp hbreaking
      simp only [Bool.not_eq_true] at hall
      refine iff_of_true ?_ hall
      simp only [List.map_nil, List.isEmpty_nil, Bool.not_true, Bool.false_eq_true, if_false]
      split <;> simp
  | cons c rest =>
      have hmem : c ∈ (compareSpecs old new).filter fun c => c.isBreaking := by simp [hbreaking]
      obtain ⟨hc, hbreaks⟩ := List.mem_filter.mp hmem
      refine iff_of_false (by simp) fun hall => ?_
      rw [hall c hc] at hbreaks
      cases hbreaks

theorem kind_eq_none {old new : Spec} :
    (detectChanges old new).kind = .none ↔ old.Same new := by
  rw [← compareSpecs_none]
  simp only [detectChanges]
  cases hchanges : compareSpecs old new with
  | nil => simp
  | cons c rest =>
      refine iff_of_false ?_ fun hnone => hnone c (by simp)
      cases hbreaks : c.isBreaking with
      | true => simp [hbreaks]
      | false =>
          by_cases hsome : ∃ d ∈ rest, d.isBreaking = true
          · simp [hbreaks, hsome]
          · simp [hbreaks, hsome]

end Levels

/-! ## The relations are orders -/

theorem Operation.Compatible.refl (a : Operation) : a.Compatible a :=
  ⟨fun _ => Iff.rfl, .refl (fun _ => trivial) _⟩

theorem Operation.Compatible.trans (a b c : Operation) (hab : a.Compatible b)
    (hbc : b.Compatible c) : a.Compatible c :=
  ⟨fun name => (hab.requires name).trans (hbc.requires name),
    hab.codes.trans (fun _ _ _ _ _ => trivial) hbc.codes⟩

theorem Operation.Same.refl (a : Operation) : a.Same a :=
  ⟨.refl (fun p => Eq.refl p.isRequired) _, .refl (fun _ => trivial) _⟩

theorem Operation.Same.symm (a b : Operation) (hab : a.Same b) : b.Same a :=
  ⟨hab.params.symm fun _ _ h => h.symm, hab.codes.symm fun _ _ _ => trivial⟩

theorem Operation.Same.trans (a b c : Operation) (hab : a.Same b) (hbc : b.Same c) : a.Same c :=
  ⟨hab.params.trans (fun _ _ _ h h' => h.trans h') hbc.params,
    hab.codes.trans (fun _ _ _ _ _ => trivial) hbc.codes⟩

namespace Spec

theorem compatible_refl (a : Spec) : a.Compatible a :=
  .refl (fun item => .refl Operation.Compatible.refl item.operations.get?) _

theorem compatible_trans (a b c : Spec) (hab : a.Compatible b) (hbc : b.Compatible c) :
    a.Compatible c :=
  hab.trans (fun _ _ _ h h' => h.trans Operation.Compatible.trans h') hbc

theorem same_refl (a : Spec) : a.Same a :=
  .refl (fun item => .refl Operation.Same.refl item.operations.get?) _

theorem same_symm (a b : Spec) (hab : a.Same b) : b.Same a :=
  hab.symm fun _ _ h => h.symm Operation.Same.symm

theorem same_trans (a b c : Spec) (hab : a.Same b) (hbc : b.Same c) : a.Same c :=
  hab.trans (fun _ _ _ h h' => h.trans Operation.Same.trans h') hbc

end Spec

section Kinds
variable {a b : Spec}

/-- Without an entry there is none in `breaking`. -/
theorem compatible_of_same (a b : Spec) (h : a.Same b) : a.Compatible b := by
  rw [← kind_ne_breaking]
  rw [← kind_eq_none] at h
  rw [h]
  exact nofun

/-- The kind is fixed by the two relations. -/
theorem kind_congr {a' b' : Spec} (hcompatible : a.Compatible b ↔ a'.Compatible b')
    (hsame : a.Same b ↔ a'.Same b') : (detectChanges a b).kind = (detectChanges a' b').kind := by
  rw [← kind_ne_breaking, ← kind_ne_breaking, not_iff_not] at hcompatible
  rw [← kind_eq_none, ← kind_eq_none] at hsame
  cases hkind : (detectChanges a b).kind with
  | breaking => exact (hcompatible.mp hkind).symm
  | none => exact (hsame.mp hkind).symm
  | nonBreaking =>
      cases hkind' : (detectChanges a' b').kind with
      | nonBreaking => rfl
      | breaking => rw [hcompatible.mpr hkind'] at hkind; cases hkind
      | none => rw [hsame.mpr hkind'] at hkind; cases hkind

/-- Specs without a difference compare alike with every third spec. -/
theorem kind_congr_of_same (h : a.Same b) (c : Spec) :
    (detectChanges a c).kind = (detectChanges b c).kind ∧
      (detectChanges c a).kind = (detectChanges c b).kind := by
  constructor
  · exact kind_congr
      (le_congr_left Spec.compatible_trans Spec.same_symm compatible_of_same h c)
      (le_congr_left Spec.same_trans Spec.same_symm (fun _ _ h => h) h c)
  · exact kind_congr
      (le_congr_right Spec.compatible_trans Spec.same_symm compatible_of_same h c)
      (le_congr_right Spec.same_trans Spec.same_symm (fun _ _ h => h) h c)

end Kinds

/-- `detect_changes(old, new)` is not BREAKING. -/
def NotBreaking (old new : Spec) : Prop := (detectChanges old new).kind ≠ .breaking

/-- `detect_changes(old, new)` is NONE. -/
def Unchanged (old new : Spec) : Prop := (detectChanges old new).kind = .none

/-- **Non-breaking changes compose**: not breaking is a preorder, no change
is an equivalence that every comparison respects, and a chain of releases
without a breaking step does not break between its ends. -/
theorem non_breaking_changes_compose :
    (∀ a, NotBreaking a a) ∧
    (∀ a b c, NotBreaking a b → NotBreaking b c → NotBreaking a c) ∧
    Equivalence Unchanged ∧
    (∀ a b, Unchanged a b → ∀ c,
      (detectChanges a c).kind = (detectChanges b c).kind ∧
        (detectChanges c a).kind = (detectChanges c b).kind) ∧
    ∀ first releases, List.IsChain NotBreaking (first :: releases) →
      NotBreaking first ((first :: releases).getLast (List.cons_ne_nil _ _)) := by
  have hrefl : ∀ a, NotBreaking a a := fun a => kind_ne_breaking.mpr a.compatible_refl
  have htrans : ∀ a b c, NotBreaking a b → NotBreaking b c → NotBreaking a c :=
    fun a b c hab hbc => kind_ne_breaking.mpr
      (Spec.compatible_trans a b c (kind_ne_breaking.mp hab) (kind_ne_breaking.mp hbc))
  refine ⟨hrefl, htrans, ⟨?_, ?_, ?_⟩, ?_, ?_⟩
  · exact fun a => kind_eq_none.mpr a.same_refl
  · intro a b hab
    exact kind_eq_none.mpr (Spec.same_symm a b (kind_eq_none.mp hab))
  · intro a b c hab hbc
    exact kind_eq_none.mpr (Spec.same_trans a b c (kind_eq_none.mp hab) (kind_eq_none.mp hbc))
  · intro a b hab c
    exact kind_congr_of_same (kind_eq_none.mp hab) c
  · intro first releases hchain
    induction releases generalizing first with
    | nil => exact hrefl first
    | cons second rest ih =>
        obtain ⟨hstep, hrest⟩ := List.isChain_cons_cons.mp hchain
        exact htrans first second _ hstep (ih second hrest)

end RiskFlow
