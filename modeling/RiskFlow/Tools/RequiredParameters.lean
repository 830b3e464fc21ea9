import RiskFlow.Tools.CheckApiChanges

/-!
# RequiredParameters — which changes of a requirement the classifier finds

A parameter of an operation is known by its name and its location, but the
classifier keys the parameters by name alone, so of several parameters of
one name it compares the last. A requirement that another of them gains or
loses, or that moves to another location, goes by unseen.
-/

namespace RiskFlow

open Lib

/-! ## Parameters by name and location -/

/-- `op.get("parameters", [])`. -/
def Operation.parameterList (op : Operation) : List Parameter := op.parameters.getD []

/-- No two parameters share name and location, as OpenAPI asks. -/
def Operation.UniqueParameters (op : Operation) : Prop :=
  (op.parameterList.map fun p => (p.name, p.location)).Nodup

/-- The operation has that parameter, and it is required. -/
def Operation.RequiresAt (op : Operation) (name location : String) : Prop :=
  ∃ p ∈ op.parameterList, p.name = name ∧ p.location = location ∧ p.isRequired = true

/-- Some parameter is required in one operation, and absent or optional in the other. -/
def Operation.RequirementChanges (old new : Operation) : Prop :=
  ∃ name location, ¬(old.RequiresAt name location ↔ new.RequiresAt name location)

/-- The parameter the operation lists last under a name. -/
def Operation.lastNamed (op : Operation) (name : String) : Option Parameter :=
  op.parameterList.reverse.find? fun p => p.name = name

/-- Of the parameters listed last under some name, one is required in one
operation and absent or optional in the other. -/
def Operation.LastRequirementChanges (old new : Operation) : Prop :=
  ∃ name, ((old.lastNamed name).any fun p => p.isRequired) ≠
    (new.lastNamed name).any fun p => p.isRequired

/-- The dictionary of an operation's parameters holds the last of each name. -/
theorem get?_params (op : Operation) (name : String) :
    op.params.get? name = op.lastNamed name := by
  have hcomp : ((fun kv : String × Parameter => decide (kv.1 = name)) ∘
      fun p : Parameter => (p.name, p)) = fun p => decide (p.name = name) := rfl
  rw [Operation.params, Dict.get?_ofList, ← List.map_reverse, List.find?_map, hcomp,
    Option.map_map]
  exact congrFun Option.map_id _

theorem requires_iff_lastNamed {op : Operation} {name : String} :
    op.Requires name ↔ ((op.lastNamed name).any fun p => p.isRequired) = true := by
  rw [Operation.Requires, get?_params, Option.any_eq_true]

theorem lastRequirementChanges_iff {old new : Operation} :
    old.LastRequirementChanges new ↔ ¬∀ name, old.Requires name ↔ new.Requires name := by
  simp only [Operation.LastRequirementChanges, requires_iff_lastNamed, ← Bool.eq_iff_iff,
    not_forall]

/-! ## Two specs -/

/-- Each operation of the spec has unique parameters. -/
def Spec.UniqueParameters (spec : Spec) : Prop :=
  ∀ path item method op, spec.pathItems.get? path = some item →
    item.operations.get? method = some op → op.UniqueParameters

/-- The operation of one path and method, in either spec. -/
def Spec.Shares (old new : Spec) (op op' : Operation) : Prop :=
  ∃ path item item', old.pathItems.get? path = some item ∧ new.pathItems.get? path = some item' ∧
    ∃ method, item.operations.get? method = some op ∧ item'.operations.get? method = some op'

/-- A path of the old spec is gone, or a method of a path, or a response
code of an operation. -/
inductive Spec.Loses (old new : Spec) : Prop
  | path {path : String} {item : PathItem} (hold : old.pathItems.get? path = some item)
      (hgone : new.pathItems.get? path = none)
  | method {path method : String} {item item' : PathItem} {op : Operation}
      (hold : old.pathItems.get? path = some item) (hnew : new.pathItems.get? path = some item')
      (hop : item.operations.get? method = some op) (hgone : item'.operations.get? method = none)
  | code {op op' : Operation} {code : String} {u : Unit} (hshared : old.Shares new op op')
      (hold : op.codes.get? code = some u) (hgone : op'.codes.get? code = none)

/-- Some operation that both specs have changes the requirement of a parameter. -/
def Spec.RequirementChanges (old new : Spec) : Prop :=
  ∃ op op', old.Shares new op op' ∧ op.RequirementChanges op'

/-- The same, of the parameters listed last under their names. -/
def Spec.LastRequirementChanges (old new : Spec) : Prop :=
  ∃ op op', old.Shares new op op' ∧ op.LastRequirementChanges op'

section Specs
variable {old new : Spec}

/-- Compatible specs lose nothing, and shared operations are compatible. -/
theorem Spec.Compatible.operation (h : old.Compatible new) {op op' : Operation}
    (hshared : old.Shares new op op') : op.Compatible op' := by
  obtain ⟨path, item, item', hitem, hitem', method, hop, hop'⟩ := hshared
  exact (extends_iff.mp ((extends_iff.mp h).2 path item item' hitem hitem')).2 method op op' hop
    hop'

theorem Spec.Compatible.not_loses (h : old.Compatible new) : ¬old.Loses new := by
  intro hloses
  obtain ⟨hpaths, hitems⟩ := extends_iff.mp h
  cases hloses with
  | path hold hgone => exact hpaths _ _ hold hgone
  | method hold hnew hop hgone =>
      exact (extends_iff.mp (hitems _ _ _ hold hnew)).1 _ _ hop hgone
  | code hshared hold hgone => exact (extends_iff.mp (h.operation hshared).codes).1 _ _ hold hgone

/-- **What the classifier calls breaking**: something is gone, or in a shared
operation the last parameter of some name changes its requirement. -/
theorem kind_eq_breaking : (detectChanges old new).kind = .breaking ↔
    old.Loses new ∨ old.LastRequirementChanges new := by
  rw [← not_iff_not]
  refine kind_ne_breaking.trans ⟨?_, ?_⟩
  · rintro h (hloses | ⟨op, op', hshared, hchanges⟩)
    · exact h.not_loses hloses
    · exact lastRequirementChanges_iff.mp hchanges (h.operation hshared).requires
  · intro h
    obtain ⟨hkept, hsame⟩ := not_or.mp h
    intro path item hitem
    cases hitem' : new.pathItems.get? path with
    | none => exact absurd (.path hitem hitem') hkept
    | some item' =>
        refine ⟨item', rfl, fun method op hop => ?_⟩
        cases hop' : item'.operations.get? method with
        | none => exact absurd (.method hitem hitem' hop hop') hkept
        | some op' =>
            have hshared : old.Shares new op op' :=
              ⟨path, item, item', hitem, hitem', method, hop, hop'⟩
            refine ⟨op', rfl, ?_, fun code u hcode => ?_⟩
            · by_contra hchanges
              exact hsame ⟨op, op', hshared, lastRequirementChanges_iff.mpr hchanges⟩
            · cases hcode' : op'.codes.get? code with
              | none => exact absurd (.code hshared hcode hcode') hkept
              | some u' => exact ⟨u', rfl, trivial⟩

end Specs

/-! ## Names that stand in one place -/

/-- Under one name the two operations have one location. -/
def Operation.OneLocation (old new : Operation) : Prop :=
  ∀ p ∈ old.parameterList ++ new.parameterList, ∀ q ∈ old.parameterList ++ new.parameterList,
    p.name = q.name → p.location = q.location

section OneLocation
variable {op old new : Operation}

/-- A parameter without a namesake is the last of its name. -/
theorem lastNamed_eq_some (hunique : op.UniqueParameters) {p : Parameter}
    (hp : p ∈ op.parameterList)
    (hone : ∀ q ∈ op.parameterList, q.name = p.name → q.location = p.location) :
    op.lastNamed p.name = some p := by
  cases hlast : op.lastNamed p.name with
  | none =>
      have hnone := List.find?_eq_none.mp hlast p (List.mem_reverse.mpr hp)
      simp at hnone
  | some q =>
      have hname : q.name = p.name := by simpa using List.find?_some hlast
      have hq : q ∈ op.parameterList := List.mem_reverse.mp (List.mem_of_find?_eq_some hlast)
      have heq := List.inj_on_of_nodup_map hunique hq hp (Prod.ext hname (hone q hq hname))
      rw [heq]

/-- With one location for each name, a requirement at a name and location is
the requirement of the last of that name. -/
theorem requiresAt_iff_of_oneLocation (hunique : op.UniqueParameters) {name location : String}
    (hone : ∀ q ∈ op.parameterList, q.name = name → q.location = location) :
    op.RequiresAt name location ↔ ((op.lastNamed name).any fun p => p.isRequired) = true := by
  rw [Option.any_eq_true]
  constructor
  · rintro ⟨p, hp, rfl, rfl, hrequired⟩
    exact ⟨p, lastNamed_eq_some hunique hp hone, hrequired⟩
  · rintro ⟨p, hlast, hrequired⟩
    have hname : p.name = name := by simpa using List.find?_some hlast
    have hp := List.mem_reverse.mp (List.mem_of_find?_eq_some hlast)
    exact ⟨p, hp, hname, hone p hp hname, hrequired⟩

/-- A change at some name and location is one of the last of that name. -/
theorem lastRequirementChanges_of_oneLocation (hold : old.UniqueParameters)
    (hnew : new.UniqueParameters) (hone : old.OneLocation new)
    (h : old.RequirementChanges new) : old.LastRequirementChanges new := by
  obtain ⟨name, location, hchanges⟩ := h
  refine ⟨name, fun hsame => hchanges ?_⟩
  -- one of the two lists has the parameter, and with it the location of the name
  have hlocation : ∀ q ∈ old.parameterList ++ new.parameterList, q.name = name →
      q.location = location := by
    have hfound : ∃ p ∈ old.parameterList ++ new.parameterList,
        p.name = name ∧ p.location = location := by
      by_contra hnone
      refine hchanges (iff_of_false ?_ ?_)
      · rintro ⟨p, hp, hname, hloc, _⟩
        exact hnone ⟨p, List.mem_append_left _ hp, hname, hloc⟩
      · rintro ⟨p, hp, hname, hloc, _⟩
        exact hnone ⟨p, List.mem_append_right _ hp, hname, hloc⟩
    obtain ⟨p, hp, hname, hloc⟩ := hfound
    intro q hq hqname
    rw [← hloc]
    exact hone q hq p hp (hqname.trans hname.symm)
  rw [requiresAt_iff_of_oneLocation hold fun q hq => hlocation q (List.mem_append_left _ hq),
    requiresAt_iff_of_oneLocation hnew fun q hq => hlocation q (List.mem_append_right _ hq), hsame]

/-- No change goes unseen while every name stands in one place, in every
operation that both specs have. -/
theorem breaking_of_oneLocation {old new : Spec} (hold : old.UniqueParameters)
    (hnew : new.UniqueParameters)
    (hone : ∀ op op', old.Shares new op op' → op.OneLocation op')
    (h : old.RequirementChanges new) : (detectChanges old new).kind = .breaking := by
  obtain ⟨op, op', hshared, hchanges⟩ := h
  have hlocation := hone op op' hshared
  obtain ⟨path, item, item', hitem, hitem', method, hop, hop'⟩ := hshared
  refine kind_eq_breaking.mpr (.inr ⟨op, op', ⟨path, item, item', hitem, hitem', method, hop,
    hop'⟩, ?_⟩)
  exact lastRequirementChanges_of_oneLocation (hold path item method op hitem hop)
    (hnew path item' method op' hitem' hop') hlocation hchanges

end OneLocation

/-- **When a change of a requirement is found**: exactly if with it the last
parameter of some name changes its requirement, or something is gone. So it
is between specs with unique parameters in which every name stands in one
place of an operation. -/
theorem required_changes_found_iff (old new : Spec) :
    ((old.RequirementChanges new → (detectChanges old new).kind = .breaking) ↔
      (old.RequirementChanges new → old.Loses new ∨ old.LastRequirementChanges new)) ∧
    (old.UniqueParameters → new.UniqueParameters →
      (∀ op op', old.Shares new op op' → op.OneLocation op') →
      old.RequirementChanges new → (detectChanges old new).kind = .breaking) := by
  refine ⟨by rw [kind_eq_breaking], fun hold hnew hone hchanges => ?_⟩
  exact breaking_of_oneLocation hold hnew hone hchanges

/-! ## One name in two places -/

/-- An operation with `id` in the query and in the path. -/
def policyOperation (queryRequired : Bool) : Operation where
  parameters := some [⟨"id", "query", some queryRequired⟩, ⟨"id", "path", some true⟩]
  responses := none

theorem policyOperation_unique (queryRequired : Bool) :
    (policyOperation queryRequired).UniqueParameters := by
  show [("id", "query"), ("id", "path")].Nodup
  decide

/-- A path with one operation. -/
def PathItem.get (op : Operation) : PathItem where
  members := .ofList [("get", .operation op)]
  methods_operations := by
    intro m _ hother
    have hmem := Dict.mem_of_mem_ofList (Dict.get?_eq_some.mp hother)
    cases List.mem_singleton.mp hmem

def policySpec (queryRequired : Bool) : Spec :=
  ⟨some (.ofList [("/policies", .get (policyOperation queryRequired))])⟩

theorem policySpec_unique (queryRequired : Bool) : (policySpec queryRequired).UniqueParameters := by
  intro path item method op hitem hop
  have hmem := Dict.mem_of_mem_ofList (Dict.get?_eq_some.mp hitem)
  cases List.mem_singleton.mp hmem
  rw [PathItem.operations, Dict.get?_filterMap] at hop
  obtain ⟨member, hmember, hop⟩ := Option.bind_eq_some_iff.mp hop
  cases List.mem_singleton.mp (Dict.mem_of_mem_ofList (Dict.get?_eq_some.mp hmember))
  have heq : policyOperation queryRequired = op := Option.some.inj hop
  rw [← heq]
  exact policyOperation_unique queryRequired

/-- The query parameter becomes optional, and nothing is found: the
dictionary keeps the path parameter in both specs. -/
theorem query_requirement_missed :
    (policySpec true).UniqueParameters ∧ (policySpec false).UniqueParameters ∧
      (policySpec true).RequirementChanges (policySpec false) ∧
      (detectChanges (policySpec true) (policySpec false)).kind ≠ .breaking := by
  refine ⟨policySpec_unique true, policySpec_unique false, ?_, ?_⟩
  · refine ⟨_, _, ⟨"/policies", _, _, rfl, rfl, "get", rfl, rfl⟩, "id", "query", fun hsame => ?_⟩
    obtain ⟨p, hp, -, hlocation, hrequired⟩ :=
      hsame.mp ⟨⟨"id", "query", some true⟩, by simp [Operation.parameterList, policyOperation],
        rfl, rfl, rfl⟩
    rcases List.mem_pair.mp hp with rfl | rfl
    · cases hrequired
    · exact absurd hlocation (by decide)
  · have hkind : (detectChanges (policySpec true) (policySpec false)).kind = .none := rfl
    rw [hkind]
    decide

end RiskFlow
