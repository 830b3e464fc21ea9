import RiskFlow.Domain.DateOrdering

/-!
# RecordErrors — which exceptions leave a record model

A caller of the model catches `ValueError`, and a `ValidationError` is
one. What else can leave it comes from a constraint of an optional field
on an explicit null, where the comparison with `0` and the call of `strip`
are made on `None`; from a date text on which dateutil raises what it does
not document; or from a date rule that finds something else than a date
under a name. The results here say that there is no other source, for
every schema and every row.
-/

namespace RiskFlow

open Lib

/-- Validating the row raises something a `ValueError` handler lets through. -/
def Escapes (rt : Runtime) (model : RecordModel) (row : Row) : Prop :=
  ∃ e, modelValidate rt model row = .error e ∧ e.isValueError = false

/-- The row has an explicit null under an optional field whose constraint
does not expect one. -/
def HasBareNull (schema : TargetSchema) (row : Row) : Prop :=
  ∃ name defn, (modelFields schema).get? name = some defn ∧ defn.required = false ∧
    (defn.nonNegative = true ∨ defn.notEmpty = true) ∧ row.get? name = some .none

/-- The row has a text under a DATE field on which `coerce_date` comes to a
dateutil that raises what pydantic lets through. -/
def HasDateFault (rt : Runtime) (schema : TargetSchema) (row : Row) : Prop :=
  ∃ name defn v e, (modelFields schema).get? name = some defn ∧ defn.type = .date ∧
    row.get? name = some v ∧ CoerceFault rt v e

/-- The rule in force compares two values of the row that have no order. -/
def RuleRaises (rt : Runtime) (schema : TargetSchema) (row : Row) : Prop :=
  ∃ last e, schema.crossFieldRules.getLast? = some last ∧ Compares rt schema row last (.error e)

/-- What leaves a model besides a `ValueError`: what Python raises on a value
of a wrong type, and what dateutil raises. -/
def PyErr.leavesModel : PyErr → Bool
  | .typeError _ => true
  | .attributeError _ => true
  | .otherException _ _ => true
  | _ => false

theorem PyErr.not_valueError {e : PyErr} (h : e.leavesModel = true) : e.isValueError = false := by
  cases e with
  | typeError msg => rfl
  | attributeError msg => rfl
  | otherException cls msg => rfl
  | _ => cases h

/-! ## One field -/

section Field
variable {rt : Runtime} {name : String} {defn : FieldDefinition} {input : PyVal}

/-- The check passes or raises a `ValueError`. -/
def Checks (r : Except PyErr Unit) : Prop := r = .ok () ∨ ∃ msg, r = .error (.valueError msg)

theorem checkNonNegative_float (x : XRat) : Checks (checkNonNegative rt name (.float x)) := by
  simp only [checkNonNegative]
  split
  · exact .inr ⟨_, rfl⟩
  · exact .inl rfl

theorem checkNotEmpty_str (s : String) : Checks (checkNotEmpty name (.str s)) := by
  simp only [checkNotEmpty]
  split
  · exact .inr ⟨_, rfl⟩
  · exact .inl rfl

theorem checkAllowed_any (allowed : List String) (v : PyVal) :
    Checks (checkAllowed rt name allowed v) := by
  cases v with
  | str s =>
      simp only [checkAllowed]
      split
      · exact .inl rfl
      · exact .inr ⟨_, rfl⟩
  | _ => exact .inr ⟨_, rfl⟩

/-- On a value of the field's type every attached validator checks: each
constraint stands on fields of the type its check reads. -/
theorem attached_checks {v w : PyVal} (hw : checkType rt defn.type v = .ok w) :
    ∀ fv ∈ attachFieldValidators rt name defn, Checks (fv.check w) := by
  obtain ⟨hnn, hne, _⟩ := defn.constraints
  intro fv hfv
  simp only [attachFieldValidators, List.mem_append] at hfv
  rcases hfv with (hfv | hfv) | hfv
  · split at hfv
    · rename_i hn
      obtain ⟨x, rfl⟩ := checkType_float (hnn hn ▸ hw)
      rw [List.mem_singleton.mp hfv]
      exact checkNonNegative_float x
    · cases hfv
  · split at hfv
    · rename_i hn
      obtain ⟨s, rfl⟩ := checkType_str (.inl (hne hn)) hw
      rw [List.mem_singleton.mp hfv]
      dsimp only
      exact checkNotEmpty_str s
    · cases hfv
  · split at hfv
    · rename_i allowed _
      rw [List.mem_singleton.mp hfv]
      exact checkAllowed_any allowed w
    · cases hfv

theorem runFieldValidators_checked {w : PyVal} {vs : List FieldValidator}
    (h : ∀ fv ∈ vs, Checks (fv.check w)) (e : PyErr) :
    runFieldValidators name input w vs ≠ .raised e := by
  induction vs with
  | nil => simp [runFieldValidators]
  | cons fv rest ih =>
      rw [runFieldValidators]
      rcases h fv (by simp) with hok | ⟨msg, herr⟩
      · rw [hok]
        exact ih fun u hu => h u (by simp [hu])
      · rw [herr]
        simp [PyErr.collected]

/-- On a value of the field's type no attached validator raises anything
but a `ValueError`. -/
theorem checked_not_raised {v w : PyVal} (hw : checkType rt defn.type v = .ok w) (e : PyErr) :
    runFieldValidators name input w (attachFieldValidators rt name defn) ≠ .raised e :=
  runFieldValidators_checked (attached_checks hw) e

/-- On null the first constraint that reads the value raises. -/
theorem null_raised_iff :
    (∃ e, runFieldValidators name input .none (attachFieldValidators rt name defn) = .raised e) ↔
      defn.nonNegative = true ∨ defn.notEmpty = true := by
  unfold attachFieldValidators
  cases hnn : defn.nonNegative with
  | true => simp [runFieldValidators, checkNonNegative, PyErr.collected]
  | false =>
      cases hne : defn.notEmpty with
      | true => simp [runFieldValidators, checkNotEmpty, PyErr.collected]
      | false =>
          cases defn.allowedValues with
          | none => simp [runFieldValidators]
          | some allowed => simp [runFieldValidators, checkAllowed, PyErr.collected]

/-- What a constraint raises on null is a `TypeError` or an `AttributeError`. -/
theorem null_raised_kind {e : PyErr}
    (h : runFieldValidators name input .none (attachFieldValidators rt name defn) = .raised e) :
    e.leavesModel = true := by
  revert h
  unfold attachFieldValidators
  cases hnn : defn.nonNegative with
  | true =>
      simp only [if_true, List.cons_append, runFieldValidators, checkNonNegative, PyErr.collected]
      rintro ⟨⟩
      rfl
  | false =>
      cases hne : defn.notEmpty with
      | true =>
          simp only [Bool.false_eq_true, if_false, if_true, List.nil_append, List.singleton_append,
            runFieldValidators, checkNotEmpty, PyErr.collected]
          rintro ⟨⟩
          rfl
      | false =>
          cases defn.allowedValues with
          | none => simp [runFieldValidators]
          | some allowed => simp [runFieldValidators, checkAllowed, PyErr.collected]

end Field

section Model
variable {rt : Runtime} {schema : TargetSchema} {row : Row}

/-- **A field raises exactly on a bare null**, or on a date text that dateutil
raises on. -/
theorem validateField_raised_iff {spec : FieldSpec} {defn : FieldDefinition}
    (hget : (modelFields schema).get? spec.name = some defn) (ht : spec.type = defn.type)
    (hr : spec.required = defn.required) :
    (∃ e, validateField rt (recordClass rt schema) row spec = .raised e) ↔
      (defn.required = false ∧ (defn.nonNegative = true ∨ defn.notEmpty = true) ∧
        row.get? spec.name = some .none) ∨
      (defn.type = .date ∧ ∃ v e, row.get? spec.name = some v ∧ CoerceFault rt v e) := by
  simp only [validateField_raised, recordClass_validators hget, checkCell_raised_iff, ht]
  constructor
  · rintro ⟨e, v, hcell, ⟨hdate, hfault⟩ | ⟨w, hchecked, hraised⟩⟩
    · exact .inr ⟨hdate, v, e, hcell, hfault⟩
    · rcases checkCell_ok hchecked with ⟨rfl, hopt, rfl⟩ | htyped
      · exact .inl ⟨hr ▸ hopt, null_raised_iff.mp ⟨e, hraised⟩, hcell⟩
      · exact absurd hraised (checked_not_raised (ht ▸ htyped) e)
  · rintro (⟨hopt, hcons, hcell⟩ | ⟨hdate, v, e, hcell, hfault⟩)
    · obtain ⟨e, hraised⟩ := null_raised_iff.mpr hcons
      exact ⟨e, .none, hcell, .inr ⟨.none, checkCell_none (hr.trans hopt), hraised⟩⟩
    · exact ⟨e, v, hcell, .inl ⟨hdate, hfault⟩⟩

theorem validateField_raised_kind {spec : FieldSpec} {defn : FieldDefinition} {e : PyErr}
    (hget : (modelFields schema).get? spec.name = some defn) (ht : spec.type = defn.type)
    (h : validateField rt (recordClass rt schema) row spec = .raised e) :
    e.leavesModel = true := by
  obtain ⟨v, _, hcheck | ⟨w, hchecked, hraised⟩⟩ := validateField_raised.mp h
  · obtain ⟨_, s, _, ⟨_, _, cls, msg, _, rfl⟩, _⟩ := checkCell_raised_iff.mp hcheck
    rfl
  · rw [recordClass_validators hget] at hraised
    rcases checkCell_ok hchecked with ⟨rfl, _, rfl⟩ | htyped
    · exact null_raised_kind hraised
    · exact absurd hraised (checked_not_raised (ht ▸ htyped) e)

/-! ## The whole row -/

/-- The exception that ends the validation of the fields is one field's. -/
theorem validateFields_error {model : RecordModel} {specs : List FieldSpec} {e : PyErr}
    (h : validateFields rt model row specs = .error e) :
    ∃ spec ∈ specs, validateField rt model row spec = .raised e := by
  induction specs with
  | nil => cases h
  | cons spec rest ih =>
      have hrest : validateFields rt model row rest = .error e →
          ∃ s ∈ spec :: rest, validateField rt model row s = .raised e := fun hr =>
        let ⟨s, hs, hraised⟩ := ih hr
        ⟨s, by simp [hs], hraised⟩
      rw [validateFields] at h
      cases hs : validateField rt model row spec with
      | raised e' =>
          rw [hs] at h
          cases h
          exact ⟨spec, by simp, hs⟩
      | value v =>
          rw [hs] at h
          exact hrest (map_eq_error.mp h)
      | invalid d =>
          rw [hs] at h
          exact hrest (map_eq_error.mp h)

/-- Without collected errors every field passed. -/
theorem validateFields_no_errors {model : RecordModel} {specs : List FieldSpec}
    {values : List (String × PyVal)} (h : validateFields rt model row specs = .ok (values, [])) :
    ∀ spec ∈ specs, ∃ v, validateField rt model row spec = .value v := by
  induction specs generalizing values with
  | nil => simp
  | cons spec rest ih =>
      rw [validateFields] at h
      cases hs : validateField rt model row spec with
      | raised e => simp [hs] at h
      | value v =>
          rw [hs] at h
          obtain ⟨⟨vals, errs⟩, hr, heq⟩ := map_eq_ok.mp h
          cases heq
          intro s hmem
          rcases List.mem_cons.mp hmem with rfl | hmem
          · exact ⟨v, hs⟩
          · exact ih hr s hmem
      | invalid d =>
          rw [hs] at h
          obtain ⟨r, _, heq⟩ := map_eq_ok.mp h
          cases heq

theorem validateFields_values {model : RecordModel} {specs : List FieldSpec}
    {values : List (String × PyVal)} (h : validateFields rt model row specs = .ok (values, [])) :
    ∃ value : FieldSpec → PyVal,
      (∀ spec ∈ specs, validateField rt model row spec = .value (value spec)) ∧
      values = specs.map fun spec => (spec.name, value spec) := by
  have hpass := validateFields_no_errors h
  choose! value hvalue using hpass
  refine ⟨value, hvalue, ?_⟩
  have hok := validateFields_of_values hvalue
  rw [h] at hok
  simp only [Except.ok.injEq, Prod.mk.injEq, and_true] at hok
  exact hok

/-- On an instance whose fields passed the model validators raise a
`ValidationError`, or what the comparison of the rule in force raised. -/
theorem modelValidators_error {value : FieldSpec → PyVal} {e : PyErr}
    (hv : ∀ spec ∈ fieldSpecs schema,
      validateField rt (recordClass rt schema) row spec = .value (value spec))
    (h : runModelValidators row (instanceOf rt schema value)
      (recordClass rt schema).modelValidators = .error e) :
    (∃ errors, e = .validationError errors) ∨ ∃ last,
      schema.crossFieldRules.getLast? = some last ∧ Compares rt schema row last (.error e) := by
  replace h : runModelValidators row (instanceOf rt schema value)
    (attachCrossFieldValidators rt schema.crossFieldRules) = .error e := h
  cases hlast : schema.crossFieldRules.getLast? with
  | none =>
      rw [List.getLast?_eq_none_iff.mp hlast] at h
      cases h
  | some last =>
      obtain ⟨hchecks, hne⟩ := attached_check_last hlast
      rw [runModelValidators_const hchecks hne] at h
      rcases checkDateOrder_instance hv (List.mem_of_getLast? hlast) with
        ⟨hok, _⟩ | ⟨⟨msg, herr⟩, _⟩ | ⟨e', herr, hraised⟩
      · simp [runModelValidators, hok] at h
      · simp only [runModelValidators, herr, PyErr.collected] at h
        cases h
        exact .inl ⟨_, rfl⟩
      · obtain ⟨msg, rfl⟩ := pyLess_error hraised.2.2
        simp only [runModelValidators, herr, PyErr.collected] at h
        cases h
        exact .inr ⟨last, rfl, hraised⟩

/-- A comparison that raises ends the validation of a row whose fields pass. -/
theorem modelValidate_ruleRaises (hpass : FieldsPass rt (recordClass rt schema) row)
    (h : RuleRaises rt schema row) : Escapes rt (recordClass rt schema) row := by
  choose! value hv using hpass
  obtain ⟨last, e, hlast, hraised⟩ := h
  obtain ⟨hchecks, hne⟩ := attached_check_last hlast
  obtain ⟨msg, rfl⟩ := pyLess_error hraised.2.2
  have hcheck : checkDateOrder rt ⟨last.earlier, last.later⟩ (instanceOf rt schema value) =
      .error (.typeError msg) := by
    rcases checkDateOrder_instance hv (List.mem_of_getLast? hlast) with
      ⟨_, hholds⟩ | ⟨_, _, _, hless⟩ | ⟨e, herr, _, _, hless⟩
    · exact absurd (.inr ⟨_, hraised⟩) hholds
    · cases hraised.2.2.symm.trans hless
    · cases hraised.2.2.symm.trans hless
      exact herr
  have hfields : validateFields rt (recordClass rt schema) row
      (recordClass rt schema).fields =
        .ok ((fieldSpecs schema).map fun s => (s.name, value s), []) :=
    validateFields_of_values hv
  have hrules : runModelValidators row (instanceOf rt schema value)
      (recordClass rt schema).modelValidators = .error (.typeError msg) := by
    show runModelValidators row (instanceOf rt schema value)
      (attachCrossFieldValidators rt schema.crossFieldRules) = _
    rw [runModelValidators_const hchecks hne]
    simp [runModelValidators, hcheck, PyErr.collected]
  refine ⟨.typeError msg, ?_, rfl⟩
  exact bind_eq_error.mpr (.inr ⟨_, hfields, bind_eq_error.mpr (.inl hrules)⟩)

/-- The record of an accepted row holds the values of its fields. -/
theorem modelValidate_record {record : Row}
    (h : modelValidate rt (recordClass rt schema) row = .ok record) :
    ∃ value, (∀ spec ∈ fieldSpecs schema,
        validateField rt (recordClass rt schema) row spec = .value (value spec)) ∧
      record = recordOf schema value := by
  obtain ⟨⟨values, errors⟩, hfields, hrest⟩ := bind_eq_ok.mp h
  dsimp only at hrest
  split at hrest
  · rename_i hempty
    rw [List.isEmpty_iff.mp hempty] at hfields
    obtain ⟨value, hvalue, rfl⟩ := validateFields_values hfields
    obtain ⟨_, _, hrecord⟩ := bind_eq_ok.mp hrest
    cases hrecord
    exact ⟨value, hvalue, rfl⟩
  · cases hrest

/-- A row is refused with a `ValidationError`, with what one of its fields
raised, or with what the rule in force raised once they had passed. -/
theorem modelValidate_error {e : PyErr}
    (h : modelValidate rt (recordClass rt schema) row = .error e) :
    (∃ errors, e = .validationError errors) ∨
      (∃ spec ∈ fieldSpecs schema,
        validateField rt (recordClass rt schema) row spec = .raised e) ∨
      FieldsPass rt (recordClass rt schema) row ∧ ∃ last,
        schema.crossFieldRules.getLast? = some last ∧ Compares rt schema row last (.error e) := by
  rcases bind_eq_error.mp h with hfields | ⟨⟨values, errors⟩, hfields, h⟩
  · exact .inr (.inl (validateFields_error hfields))
  dsimp only at h
  cases errors with
  | cons d rest =>
      cases h
      exact .inl ⟨_, rfl⟩
  | nil =>
      obtain ⟨value, hvalue, rfl⟩ := validateFields_values hfields
      rcases bind_eq_error.mp h with hraised | ⟨_, _, h⟩
      · exact (modelValidators_error hvalue hraised).imp_right fun hrule =>
          .inr ⟨fun spec hspec => ⟨value spec, hvalue spec hspec⟩, hrule⟩
      · cases h

/-- What a row is refused with. -/
theorem modelValidate_error_kind {e : PyErr}
    (h : modelValidate rt (recordClass rt schema) row = .error e) :
    e.isValueError = true ∨ e.leavesModel = true := by
  rcases modelValidate_error h with ⟨errors, rfl⟩ | ⟨spec, hmem, hraised⟩ | ⟨_, last, _, hraised⟩
  · exact .inl rfl
  · obtain ⟨defn, hget, ht, _⟩ := mem_fieldSpecs.mp hmem
    exact .inr (validateField_raised_kind hget ht hraised)
  · obtain ⟨msg, rfl⟩ := pyLess_error hraised.2.2
    exact .inr rfl

/-- A row on which some field raises escapes the model. -/
theorem escapes_of_raised {spec : FieldSpec} (hmem : spec ∈ fieldSpecs schema)
    (h : ∃ e, validateField rt (recordClass rt schema) row spec = .raised e) :
    Escapes rt (recordClass rt schema) row := by
  obtain ⟨e, he⟩ := validateFields_error_iff.mpr ⟨spec, hmem, h⟩
  obtain ⟨spec', hmem', he'⟩ := validateFields_error he
  obtain ⟨defn', hget', ht', _⟩ := mem_fieldSpecs.mp hmem'
  have hfields : validateFields rt (recordClass rt schema) row
      (recordClass rt schema).fields = .error e := he
  refine ⟨e, ?_, PyErr.not_valueError (validateField_raised_kind hget' ht' he')⟩
  simp [modelValidate, hfields, bind, Except.bind]

/-- **When a row escapes the model**: it has a bare null, or a date text that
dateutil raises on, or its fields pass and the rule in force raises. -/
theorem escapes_iff :
    Escapes rt (recordClass rt schema) row ↔
      HasBareNull schema row ∨ HasDateFault rt schema row ∨
        FieldsPass rt (recordClass rt schema) row ∧ RuleRaises rt schema row := by
  constructor
  · rintro ⟨e, he, hkind⟩
    rcases modelValidate_error he with ⟨errors, rfl⟩ | ⟨spec, hmem, hraised⟩ |
      ⟨hpass, last, hlast, hraised⟩
    · cases hkind
    · obtain ⟨defn, hget, ht, hr⟩ := mem_fieldSpecs.mp hmem
      rcases (validateField_raised_iff hget ht hr).mp ⟨e, hraised⟩ with
        ⟨hopt, hcons, hnull⟩ | ⟨hdate, v, e', hcell, hfault⟩
      · exact .inl ⟨spec.name, defn, hget, hopt, hcons, hnull⟩
      · exact .inr (.inl ⟨spec.name, defn, v, e', hget, hdate, hcell, hfault⟩)
    · exact .inr (.inr ⟨hpass, last, e, hlast, hraised⟩)
  · rintro (⟨name, defn, hget, hnull⟩ | ⟨name, defn, v, e, hget, hdate, hfault⟩ | ⟨hpass, hrule⟩)
    · have hspec : ⟨name, defn.type, defn.required⟩ ∈ fieldSpecs schema :=
        mem_fieldSpecs.mpr ⟨defn, hget, rfl, rfl⟩
      exact escapes_of_raised hspec ((validateField_raised_iff hget rfl rfl).mpr (.inl hnull))
    · have hspec : ⟨name, defn.type, defn.required⟩ ∈ fieldSpecs schema :=
        mem_fieldSpecs.mpr ⟨defn, hget, rfl, rfl⟩
      exact escapes_of_raised hspec
        ((validateField_raised_iff hget rfl rfl).mpr (.inr ⟨hdate, v, e, hfault⟩))
    · exact modelValidate_ruleRaises hpass hrule

end Model

end RiskFlow
