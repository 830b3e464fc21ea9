import RiskFlow.Domain.RecordModel

/-!
# DateOrdering — which date rules a generated model enforces

The closures made in the loop over the rules share its variables, so all
of them compare the fields of the LAST rule. The results here say so for
every rule list, and from it when a row is accepted. Of a field whose name
starts with an underscore the comparison does not see the date either.
-/

namespace RiskFlow

open Lib

/-- The date of a validated value, if it is one. -/
def dateOf : PyVal → Option Date
  | .date d => some d
  | _ => none

/-- The date the row gives the field `name`; `none` when its cell is null,
missing, or checks to no date. -/
def fieldDate (rt : Runtime) (schema : TargetSchema) (row : Row) (name : String) : Option Date :=
  match schema.fields.get? name, row.get? name with
  | some defn, some v =>
      match checkCell rt ⟨name, defn.type, defn.required⟩ v with
      | .ok w => dateOf w
      | .error _ => none
  | _, _ => none

/-- Both dates of the rule are present and the later one is strictly first. -/
def Violates (rt : Runtime) (schema : TargetSchema) (row : Row) (rule : DateOrderingRule) : Prop :=
  ∃ e l, fieldDate rt schema row rule.earlier = some e ∧
    fieldDate rt schema row rule.later = some l ∧ l.before e = true

/-- What hides the field of this name, if something does. -/
def hiddenName (rt : Runtime) (schema : TargetSchema) (name : String) : Option PyVal :=
  (schema.fields.get? name).bind (hiddenBy rt name)

/-- What stands under the name instead of the date of the field: what hides it,
or what the class gives a field that the row has not. -/
def hiddenDate (rt : Runtime) (schema : TargetSchema) (row : Row) (name : String) :
    Option PyVal :=
  (hiddenName rt schema name).or
    (if row.get? name = none then inheritedDefault rt schema name else none)

/-- What an instance shows under the name of a DATE field. -/
def shownDate (rt : Runtime) (schema : TargetSchema) (row : Row) (name : String) : PyVal :=
  match hiddenDate rt schema row name with
  | some v => v
  | none => ((fieldDate rt schema row name).map .date).getD .none

/-- The check of the rule has two values to compare, with this outcome. -/
def Compares (rt : Runtime) (schema : TargetSchema) (row : Row) (rule : DateOrderingRule)
    (outcome : Except PyErr Bool) : Prop :=
  shownDate rt schema row rule.earlier ≠ .none ∧ shownDate rt schema row rule.later ≠ .none ∧
    pyLess rt (shownDate rt schema row rule.later) (shownDate rt schema row rule.earlier) = outcome

/-- The check of the rule fails on the row: what it compares is in the wrong
order, or cannot be compared. -/
def RuleFails (rt : Runtime) (schema : TargetSchema) (row : Row) (rule : DateOrderingRule) :
    Prop :=
  Compares rt schema row rule (.ok true) ∨ ∃ e, Compares rt schema row rule (.error e)

/-- Each field of the row passes its own type and constraint checks. -/
def FieldsPass (rt : Runtime) (model : RecordModel) (row : Row) : Prop :=
  ∀ spec ∈ model.fields, ∃ v, validateField rt model row spec = .value v

/-- The model accepts the row. -/
def Accepts (rt : Runtime) (model : RecordModel) (row : Row) : Prop :=
  ∃ record, modelValidate rt model row = .ok record

/-! ## The loop -/

/-- After the loop the shared variables hold the last rule. -/
theorem foldl_attachRule (rules : List (DateOrderingRule × Nat)) :
    ∀ (scope : Option OrderScope) (keys : List String),
    rules.foldl attachRule (scope, keys) =
      (match rules.getLast? with
        | none => scope
        | some r => some { earlier := r.1.earlier, later := r.1.later },
       keys ++ rules.map fun r => "validate_date_order_" ++ toString r.2) := by
  induction rules with
  | nil => intro scope keys; simp
  | cons r rest ih =>
      intro scope keys
      rw [List.foldl_cons, attachRule, ih]
      cases hrest : rest.getLast? with
      | none =>
          have hnil : rest = [] := List.getLast?_eq_none_iff.mp hrest
          simp [hnil]
      | some r' =>
          have hlast : (r :: rest).getLast? = some r' := by
            rw [List.getLast?_cons, hrest]
            rfl
          simp [hlast]

theorem getLast?_zipIdx (rules : List DateOrderingRule) :
    (rules.zipIdx.getLast?).map Prod.fst = rules.getLast? := by
  rw [← List.getLast?_map, List.zipIdx_map_fst]

/-- **Every attached validator is the check of the last rule.** -/
theorem attached_check_last {rt : Runtime} {rules : List DateOrderingRule}
    {last : DateOrderingRule}
    (h : rules.getLast? = some last) :
    (∀ v ∈ attachCrossFieldValidators rt rules,
      v.check = checkDateOrder rt { earlier := last.earlier, later := last.later }) ∧
    attachCrossFieldValidators rt rules ≠ [] := by
  have hz := getLast?_zipIdx rules
  rw [h] at hz
  obtain ⟨r, hr, rfl⟩ := Option.map_eq_some_iff.mp hz
  have hne : rules.zipIdx ≠ [] := by
    intro hnil
    rw [hnil] at hr
    cases hr
  unfold attachCrossFieldValidators
  rw [foldl_attachRule, hr]
  constructor
  · intro v hv
    obtain ⟨key, _, rfl⟩ := List.mem_map.mp hv
    rfl
  · simpa using hne

/-- Validators that all run the same check are one. -/
theorem runModelValidators_const {check : RecordInstance → Except PyErr Unit} {input : Row}
    {self : RecordInstance} {vs : List ModelValidator} (h : ∀ v ∈ vs, v.check = check)
    (hne : vs ≠ []) :
    runModelValidators input self vs = runModelValidators input self [{ key := "", check }] := by
  induction vs with
  | nil => exact absurd rfl hne
  | cons v rest ih =>
      have hv : v.check = check := h v (by simp)
      by_cases hr : rest = []
      · simp [hr, runModelValidators, hv]
      · have hrest := ih (fun w hw => h w (by simp [hw])) hr
        simp only [runModelValidators, hv] at hrest ⊢
        cases hc : check self with
        | error e => rfl
        | ok u => simpa [hc] using hrest

/-- The model validators pass an instance when each of them does. -/
theorem runModelValidators_ok_iff {input : Row} {self : RecordInstance}
    {vs : List ModelValidator} :
    runModelValidators input self vs = .ok () ↔ ∀ v ∈ vs, v.check self = .ok () := by
  induction vs with
  | nil => simp [runModelValidators]
  | cons v rest ih =>
      cases hc : v.check self with
      | ok u => simpa [runModelValidators, hc] using ih
      | error e => cases he : e.collected <;> simp [runModelValidators, hc, he]

/-! ## One check on an instance -/

section Check
variable {rt : Runtime} {scope : OrderScope} {self : RecordInstance} {e : PyErr}

theorem pyLess_error {v w : PyVal} (h : pyLess rt v w = .error e) : ∃ msg, e = .typeError msg := by
  unfold pyLess at h
  split at h
  · cases h
  · split at h <;> cases h
    exact ⟨_, rfl⟩

/-- A check that has a null to compare passes. -/
theorem checkDateOrder_null
    (h : getAttr self scope.earlier = .none ∨ getAttr self scope.later = .none) :
    checkDateOrder rt scope self = .ok () := by
  unfold checkDateOrder
  rcases h with h | h <;> simp [h, PyVal.isNone, pure, Except.pure]

/-- Otherwise the comparison decides. -/
theorem checkDateOrder_compares (he : getAttr self scope.earlier ≠ .none)
    (hl : getAttr self scope.later ≠ .none) :
    checkDateOrder rt scope self =
      match pyLess rt (getAttr self scope.later) (getAttr self scope.earlier) with
      | .ok true => .error (.valueError (scope.later ++ " must not be before " ++ scope.earlier))
      | .ok false => .ok ()
      | .error e => .error e := by
  have hnone : ∀ {v : PyVal}, v ≠ .none → v.isNone = false := fun hv =>
    Bool.eq_false_iff.mpr fun hn => hv (PyVal.isNone_iff.mp hn)
  unfold checkDateOrder
  cases hless : pyLess rt (getAttr self scope.later) (getAttr self scope.earlier) with
  | error e => simp [hnone he, hnone hl, hless, bind, Except.bind]
  | ok b => cases b <;> simp [hnone he, hnone hl, hless, bind, Except.bind, pure, Except.pure]

end Check

/-! ## The accepted rows -/

/-- The record of a row whose fields validate to `value`. -/
def recordOf (schema : TargetSchema) (value : FieldSpec → PyVal) : Row :=
  Dict.ofList ((fieldSpecs schema).map fun s => (s.name, value s))

/-- The instance with this record. -/
def instanceOf (rt : Runtime) (schema : TargetSchema) (value : FieldSpec → PyVal) :
    RecordInstance :=
  ⟨recordOf schema value, (recordClass rt schema).attributes⟩

section Accepted
variable {rt : Runtime} {schema : TargetSchema} {row : Row} {value : FieldSpec → PyVal}

theorem fieldSpecs_nodup (schema : TargetSchema) :
    ((fieldSpecs schema).map FieldSpec.name).Nodup :=
  fieldSpecs_names schema ▸ (modelFields schema).nodup

theorem recordOf_get? {spec : FieldSpec} (hmem : spec ∈ fieldSpecs schema) :
    (recordOf schema value).get? spec.name = some (value spec) := by
  have hkeys : ((fieldSpecs schema).map fun s => (s.name, value s)).map Prod.fst =
      (fieldSpecs schema).map FieldSpec.name := by
    simp [Function.comp_def]
  apply Dict.get?_eq_some.mpr
  rw [recordOf, Dict.ofList_entries (hkeys ▸ fieldSpecs_nodup schema)]
  exact List.mem_map.mpr ⟨spec, hmem, rfl⟩

/-- What the instance shows under a name: what hides the value there, or the
value of the record. -/
theorem getAttr_instance (rt : Runtime) (schema : TargetSchema) (value : FieldSpec → PyVal)
    (name : String) :
    getAttr (instanceOf rt schema value) name =
      (hiddenName rt schema name).getD (((recordOf schema value).get? name).getD .none) := by
  have hattr : (instanceOf rt schema value).attributes.get? name = hiddenName rt schema name :=
    Dict.get?_filterMap ..
  rw [getAttr, hattr]
  cases hiddenName rt schema name <;> rfl

/-- A name that nothing hides is one of a field. -/
theorem isFieldName_of_hiddenName {name : String} {defn : FieldDefinition}
    (hget : schema.fields.get? name = some defn) (h : hiddenName rt schema name = none) :
    isFieldName name = true := by
  rw [hiddenName, hget, Option.bind_some, hiddenBy] at h
  by_contra hprivate
  rw [if_neg hprivate] at h
  cases h

/-- **What the instance shows** under the name of a DATE field, if the fields
of the row pass. -/
theorem getAttr_instanceOf
    (hv : ∀ spec ∈ fieldSpecs schema,
      validateField rt (recordClass rt schema) row spec = .value (value spec))
    {name : String} {defn : FieldDefinition} (hget : schema.fields.get? name = some defn)
    (ht : defn.type = .date) :
    getAttr (instanceOf rt schema value) name = shownDate rt schema row name := by
  rw [getAttr_instance, shownDate, hiddenDate]
  cases hhidden : hiddenName rt schema name with
  | some v => rfl
  | none =>
      let spec : FieldSpec := { name := name, type := defn.type, required := defn.required }
      have hfield : (modelFields schema).get? name = some defn :=
        modelFields_get?.mpr ⟨isFieldName_of_hiddenName hget hhidden, hget⟩
      have hmem : spec ∈ fieldSpecs schema := mem_fieldSpecs.mpr ⟨defn, hfield, rfl, rfl⟩
      have hrecord : (recordOf schema value).get? name = some (value spec) := recordOf_get? hmem
      rw [hrecord, Option.getD_none, Option.getD_some, Option.none_or]
      rcases validateField_value_iff.mp (hv spec hmem) with
        ⟨habsent, hdefault⟩ | ⟨v, hcell, hchecked, _⟩
      · -- the default: an attribute of the class, or `None`
        rw [if_pos habsent]
        rw [fieldDefault_recordClass hfield] at hdefault
        cases hinherited : inheritedDefault rt schema name with
        | some w =>
            rw [hinherited] at hdefault
            exact (Option.some.inj hdefault).symm
        | none =>
            rw [hinherited, Option.none_or, Option.ite_none_left_eq_some] at hdefault
            rw [← Option.some.inj hdefault.2, fieldDate, habsent, hget]
            rfl
      · rw [if_neg (by simp [show row.get? name = some v from hcell]), fieldDate, hget,
          show row.get? name = some v from hcell]
        dsimp only
        rw [show checkCell rt ⟨name, defn.type, defn.required⟩ v = _ from hchecked]
        rcases checkCell_ok hchecked with ⟨_, _, hnone⟩ | htyped
        · rw [hnone]
          rfl
        · rw [show spec.type = .date from ht] at htyped
          obtain ⟨d, hd⟩ := checkType_date htyped
          rw [hd]
          rfl

/-- What the check of a rule says on the instance of a row. -/
theorem checkDateOrder_instance
    (hv : ∀ spec ∈ fieldSpecs schema,
      validateField rt (recordClass rt schema) row spec = .value (value spec))
    {rule : DateOrderingRule} (hrule : rule ∈ schema.crossFieldRules) :
    (checkDateOrder rt ⟨rule.earlier, rule.later⟩ (instanceOf rt schema value) = .ok () ∧
        ¬ RuleFails rt schema row rule) ∨
      ((∃ msg, checkDateOrder rt ⟨rule.earlier, rule.later⟩ (instanceOf rt schema value) =
          .error (.valueError msg)) ∧ Compares rt schema row rule (.ok true)) ∨
      ∃ e, checkDateOrder rt ⟨rule.earlier, rule.later⟩ (instanceOf rt schema value) = .error e ∧
        Compares rt schema row rule (.error e) := by
  obtain ⟨_, ⟨de, hde, hte⟩, dl, hdl, htl⟩ := schema.rule_fields hrule
  have hearlier := getAttr_instanceOf hv hde hte
  have hlater := getAttr_instanceOf hv hdl htl
  unfold RuleFails Compares
  by_cases hnull : shownDate rt schema row rule.earlier = .none ∨
      shownDate rt schema row rule.later = .none
  · refine .inl ⟨checkDateOrder_null (hearlier ▸ hlater ▸ hnull), ?_⟩
    rintro (⟨he, hl, _⟩ | ⟨e, he, hl, _⟩)
    · exact hnull.elim he hl
    · exact hnull.elim he hl
  · obtain ⟨he, hl⟩ := not_or.mp hnull
    have hcheck := @checkDateOrder_compares rt ⟨rule.earlier, rule.later⟩
      (instanceOf rt schema value) (hearlier ▸ he) (hlater ▸ hl)
    rw [hcheck]
    dsimp only
    rw [hearlier, hlater]
    cases pyLess rt (shownDate rt schema row rule.later) (shownDate rt schema row rule.earlier) with
    | error e => exact .inr (.inr ⟨e, rfl, he, hl, rfl⟩)
    | ok b =>
        cases b with
        | true => exact .inr (.inl ⟨⟨_, rfl⟩, he, hl, rfl⟩)
        | false =>
            refine .inl ⟨rfl, ?_⟩
            rintro (⟨_, _, ⟨⟩⟩ | ⟨e, _, _, ⟨⟩⟩)

/-- With the fields passed the model validators decide. -/
theorem accepts_iff_validators
    (hv : ∀ spec ∈ fieldSpecs schema,
      validateField rt (recordClass rt schema) row spec = .value (value spec)) :
    Accepts rt (recordClass rt schema) row ↔
      runModelValidators row (instanceOf rt schema value)
        (attachCrossFieldValidators rt schema.crossFieldRules) = .ok () := by
  have hfields : validateFields rt (recordClass rt schema) row
      (recordClass rt schema).fields =
        .ok ((fieldSpecs schema).map fun s => (s.name, value s), []) :=
    validateFields_of_values hv
  have hdef : modelValidate rt (recordClass rt schema) row =
      (runModelValidators row (instanceOf rt schema value)
        (attachCrossFieldValidators rt schema.crossFieldRules)).bind
          fun _ => .ok (recordOf schema value) := by
    rw [modelValidate, hfields]
    rfl
  rw [Accepts, hdef]
  cases runModelValidators row (instanceOf rt schema value)
      (attachCrossFieldValidators rt schema.crossFieldRules) with
  | error e => simp [Except.bind]
  | ok u => simp [Except.bind]

/-- **A row whose fields pass is accepted when the last rule's check passes.** -/
theorem accepts_iff_last (hpass : FieldsPass rt (recordClass rt schema) row) :
    Accepts rt (recordClass rt schema) row ↔
      ∀ last, schema.crossFieldRules.getLast? = some last → ¬ RuleFails rt schema row last := by
  choose! value hv using hpass
  rw [accepts_iff_validators hv]
  cases hlast : schema.crossFieldRules.getLast? with
  | none =>
      have hnil := List.getLast?_eq_none_iff.mp hlast
      simp [hnil, attachCrossFieldValidators, runModelValidators]
  | some last =>
      obtain ⟨hchecks, hne⟩ := attached_check_last hlast
      rw [runModelValidators_const hchecks hne, runModelValidators_ok_iff,
        List.forall_mem_singleton]
      have hfails : ∀ e, checkDateOrder rt ⟨last.earlier, last.later⟩ (instanceOf rt schema value) =
          .error e → RuleFails rt schema row last → (checkDateOrder rt ⟨last.earlier, last.later⟩
            (instanceOf rt schema value) = .ok () ↔
              ∀ l, some last = some l → ¬ RuleFails rt schema row l) := by
        intro e he hfail
        rw [he]
        exact ⟨by rintro ⟨⟩, fun hno => absurd hfail (hno last rfl)⟩
      rcases checkDateOrder_instance hv (List.mem_of_getLast? hlast) with
        ⟨hok, hholds⟩ | ⟨⟨msg, herr⟩, hwrong⟩ | ⟨e, herr, hraised⟩
      · refine ⟨fun _ l hl => ?_, fun _ => hok⟩
        cases hl
        exact hholds
      · exact hfails _ herr (.inl hwrong)
      · exact hfails e herr (.inr ⟨e, hraised⟩)

end Accepted

/-! ## All the rules -/

/-- Where nothing hides the two dates, the check fails on a violation. -/
theorem ruleFails_iff_violates {rt : Runtime} {schema : TargetSchema} {row : Row}
    {rule : DateOrderingRule} (he : hiddenDate rt schema row rule.earlier = none)
    (hl : hiddenDate rt schema row rule.later = none) :
    RuleFails rt schema row rule ↔ Violates rt schema row rule := by
  simp only [RuleFails, Compares, Violates, shownDate, he, hl]
  cases fieldDate rt schema row rule.earlier with
  | none => simp
  | some e => cases fieldDate rt schema row rule.later <;> simp [pyLess]

/-- Three dates in a chain: `Created`, then `Start`, then `End`. -/
def chainSchema : TargetSchema where
  name := "test"
  fields := .ofList [("Created", .plain .date), ("Start", .plain .date), ("End", .plain .date)]
  crossFieldRules := [{ earlier := "Created", later := "Start" },
    { earlier := "Start", later := "End" }]

/-- A row of the chain schema. -/
def chainRow (created start stop : Date) : Row :=
  .ofList [("Created", .date created), ("Start", .date start), ("End", .date stop)]

theorem chainRow_fieldsPass (created start stop : Date) :
    FieldsPass .plain (recordClass .plain chainSchema) (chainRow created start stop) := by
  intro spec hspec
  have hfields : (recordClass .plain chainSchema).fields =
      [⟨"Created", .date, true⟩, ⟨"Start", .date, true⟩, ⟨"End", .date, true⟩] := rfl
  simp only [hfields, List.mem_cons, List.not_mem_nil, or_false] at hspec
  rcases hspec with rfl | rfl | rfl
  · exact ⟨.date created, rfl⟩
  · exact ⟨.date start, rfl⟩
  · exact ⟨.date stop, rfl⟩

def mar1 : Date := ⟨2024, 3, 1, by decide⟩
def jun1 : Date := ⟨2024, 6, 1, by decide⟩
def dec31 : Date := ⟨2024, 12, 31, by decide⟩

end RiskFlow
