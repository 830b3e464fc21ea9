import RiskFlow.Domain.RecordFactory

/-!
# RecordModel — what validating a row can do

Spec lemmas of the generated model, one per function of its validation,
so that no later proof unfolds it: when a field yields a value, what that
value is, which fields can raise, and how the outcomes of the fields
determine the outcome of the row.
-/

namespace RiskFlow

open Lib

/-! ## One field -/

/-- A checked value has the type of its field. -/
theorem checkType_date {rt : Runtime} {v w : PyVal} (h : checkType rt .date v = .ok w) :
    ∃ d, w = .date d := by
  simp only [checkType] at h
  split at h
  · cases h
  · obtain ⟨d, _, rfl⟩ := map_eq_ok.mp (mapError_eq_ok.mp h)
    exact ⟨d, rfl⟩

theorem checkType_float {rt : Runtime} {v w : PyVal} (h : checkType rt .float v = .ok w) :
    ∃ x, w = .float x := by
  obtain ⟨x, _, rfl⟩ := map_eq_ok.mp (mapError_eq_ok.mp h)
  exact ⟨x, rfl⟩

theorem checkType_str {rt : Runtime} {t : FieldType} {v w : PyVal}
    (ht : t = .string ∨ t = .currency) (h : checkType rt t v = .ok w) : ∃ s, w = .str s := by
  have hs : (rt.pydanticStr v).map PyVal.str = .ok w := by
    rcases ht with rfl | rfl <;> exact mapError_eq_ok.mp h
  obtain ⟨s, _, rfl⟩ := map_eq_ok.mp hs
  exact ⟨s, rfl⟩

/-- A text on which `coerce_date` comes to dateutil, which raises there what
pydantic lets through. -/
def CoerceFault (rt : Runtime) (v : PyVal) (e : PyErr) : Prop :=
  ∃ s, v = .str s ∧ DateutilFault rt s none e ∧ e.collected = none

/-- `coerce_date` raises a `ValueError`, or what dateutil raised. -/
theorem coerceDate_error {rt : Runtime} {v : PyVal} {e : PyErr}
    (h : coerceDate rt v = .error e) :
    (∃ msg, e = .valueError msg) ∨ ∃ s, v = .str s ∧ DateutilFault rt s none e := by
  cases v with
  | str s =>
      simp only [coerceDate] at h
      split at h
      · cases h
        exact .inl ⟨_, rfl⟩
      · rename_i hne
        split at h
        · cases h
        · rename_i hiso
          split at h
          · cases h
          · rename_i hslash
            rcases dayfirstDate_error (map_eq_error.mp h) with ⟨_, rfl⟩ | hother
            · exact .inl ⟨_, rfl⟩
            · exact .inr ⟨s, rfl, Bool.eq_false_iff.mpr hne, ⟨hiso, hslash⟩, hother⟩
  | _ => cases h

theorem coerceDate_fault {rt : Runtime} {s : String} {e : PyErr}
    (h : DateutilFault rt s none e) : coerceDate rt (.str s) = .error e := by
  obtain ⟨hblank, ⟨hiso, hslash⟩, cls, msg, hraised, rfl⟩ := h
  have hne : (Py.strip s).isEmpty = false := hblank
  simp [coerceDate, hne, hiso, hslash, dayfirstDate, hraised, Except.map]

theorem CheckFailure.ofRaised_eq_raised {e e' : PyErr} :
    CheckFailure.ofRaised e = .raised e' ↔ e = e' ∧ e.collected = none := by
  unfold CheckFailure.ofRaised
  cases h : e.collected with
  | some msg => simp
  | none => simp

/-- **A check raises** on the texts of a date that dateutil raises on. -/
theorem checkType_raised_iff {rt : Runtime} {t : FieldType} {v : PyVal} {e : PyErr} :
    checkType rt t v = .error (.raised e) ↔ t = .date ∧ CoerceFault rt v e := by
  have hinvalid : ∀ {α : Type} (x : Except String α) (f : α → PyVal),
      (x.map f).mapError CheckFailure.invalid ≠ .error (.raised e) := by
    intro α x f
    cases x <;> simp [Except.map, Except.mapError]
  cases t with
  | date =>
      simp only [checkType, true_and]
      cases hread : coerceDate rt v with
      | ok w =>
          refine iff_of_false (hinvalid _ _) ?_
          rintro ⟨s, rfl, hfault, _⟩
          cases hread.symm.trans (coerceDate_fault hfault)
      | error e' =>
          simp only [Except.error.injEq, CheckFailure.ofRaised_eq_raised]
          constructor
          · rintro ⟨rfl, hcollected⟩
            rcases coerceDate_error hread with ⟨msg, rfl⟩ | ⟨s, rfl, hfault⟩
            · cases hcollected
            · exact ⟨s, rfl, hfault, hcollected⟩
          · rintro ⟨s, rfl, hfault, hcollected⟩
            cases hread.symm.trans (coerceDate_fault hfault)
            exact ⟨rfl, hcollected⟩
  | float => simpa [checkType] using hinvalid _ _
  | string => simpa [checkType] using hinvalid _ _
  | currency => simpa [checkType] using hinvalid _ _

/-- What the annotation of a field makes of a cell: `T | None` lets a null
through, and everything else is checked against `T`. -/
def checkCell (rt : Runtime) (spec : FieldSpec) (v : PyVal) : Except CheckFailure PyVal :=
  if v.isNone && !spec.required then .ok .none else checkType rt spec.type v

section Field
variable {rt : Runtime} {name : String} {vs : List FieldValidator} {model : RecordModel} {row : Row}

/-- A null passes the annotation of an optional field. -/
theorem checkCell_none {spec : FieldSpec} (h : spec.required = false) :
    checkCell rt spec .none = .ok .none := by
  simp [checkCell, PyVal.isNone, h]

theorem checkCell_of_ne_none {spec : FieldSpec} {v : PyVal} (h : v ≠ .none) :
    checkCell rt spec v = checkType rt spec.type v := by
  have hnone : v.isNone = false := by
    rw [Bool.eq_false_iff, ne_eq, PyVal.isNone_iff]
    exact h
  simp [checkCell, hnone]

/-- The null an annotation lets through, or a checked value. -/
theorem checkCell_ok {spec : FieldSpec} {v w : PyVal} (h : checkCell rt spec v = .ok w) :
    (v = .none ∧ spec.required = false ∧ w = .none) ∨ checkType rt spec.type v = .ok w := by
  unfold checkCell at h
  split at h
  · rename_i hnull
    obtain ⟨hnone, hopt⟩ := Bool.and_eq_true_iff.mp hnull
    cases h
    exact .inl ⟨PyVal.isNone_iff.mp hnone, by simpa using hopt, rfl⟩
  · exact .inr h

/-- The validators pass a value when each of them does. -/
theorem runFieldValidators_value_iff {input w v : PyVal} :
    runFieldValidators name input w vs = .value v ↔ v = w ∧ ∀ fv ∈ vs, fv.check w = .ok () := by
  induction vs with
  | nil => simp [runFieldValidators, eq_comm]
  | cons fv rest ih =>
      cases hc : fv.check w with
      | ok u => simpa [runFieldValidators, hc] using ih
      | error e => cases he : e.collected <;> simp [runFieldValidators, hc, he]

/-- A cell that fits the annotation goes on to the validators. -/
theorem validateField_fits {spec : FieldSpec} {v w : PyVal} (hcell : row.get? spec.name = some v)
    (h : checkCell rt spec v = .ok w) :
    validateField rt model row spec =
      runFieldValidators spec.name v w (model.fieldValidators.filter (·.field == spec.name)) := by
  unfold checkCell at h
  simp only [validateField, hcell, h]

/-- A cell that does not is reported. -/
theorem validateField_unfit {spec : FieldSpec} {v : PyVal} {msg : String}
    (hcell : row.get? spec.name = some v) (h : checkCell rt spec v = .error (.invalid msg)) :
    validateField rt model row spec = .invalid { loc := [spec.name], msg, input := v } := by
  unfold checkCell at h
  simp only [validateField, hcell, h]

theorem validateField_check_raised {spec : FieldSpec} {v : PyVal} {e : PyErr}
    (hcell : row.get? spec.name = some v) (h : checkCell rt spec v = .error (.raised e)) :
    validateField rt model row spec = .raised e := by
  unfold checkCell at h
  simp only [validateField, hcell, h]

/-- **When a field passes**: it is absent and has a default, or its cell fits
the annotation and every validator passes the value. -/
theorem validateField_value_iff {spec : FieldSpec} {w : PyVal} :
    validateField rt model row spec = .value w ↔
      (row.get? spec.name = none ∧ fieldDefault model spec = some w) ∨
      ∃ v, row.get? spec.name = some v ∧ checkCell rt spec v = .ok w ∧
        ∀ fv ∈ model.fieldValidators.filter (·.field == spec.name), fv.check w = .ok () := by
  cases hcell : row.get? spec.name with
  | none =>
      cases hdefault : fieldDefault model spec with
      | none => simp [validateField, hcell, hdefault]
      | some v => simp [validateField, hcell, hdefault]
  | some v =>
      cases hc : checkCell rt spec v with
      | error failure =>
          cases failure with
          | invalid msg => simp [validateField_unfit hcell hc, hc]
          | raised e => simp [validateField_check_raised hcell hc, hc]
      | ok u =>
          rw [validateField_fits hcell hc, runFieldValidators_value_iff]
          simp only [reduceCtorEq, false_and, false_or, Option.some.injEq, exists_eq_left', hc,
            Except.ok.injEq]
          constructor
          · rintro ⟨rfl, hvs⟩
            exact ⟨rfl, hvs⟩
          · rintro ⟨rfl, hvs⟩
            exact ⟨rfl, hvs⟩

/-- A field raises what its annotation raises on the cell, or a validator on a
cell that fits. -/
theorem validateField_raised {spec : FieldSpec} {e : PyErr} :
    validateField rt model row spec = .raised e ↔
      ∃ v, row.get? spec.name = some v ∧ (checkCell rt spec v = .error (.raised e) ∨
        ∃ w, checkCell rt spec v = .ok w ∧
          runFieldValidators spec.name v w
            (model.fieldValidators.filter (·.field == spec.name)) = .raised e) := by
  cases hcell : row.get? spec.name with
  | none => cases hd : fieldDefault model spec <;> simp [validateField, hcell, hd]
  | some v =>
      cases hc : checkCell rt spec v with
      | error failure =>
          cases failure with
          | invalid msg => simp [validateField_unfit hcell hc, hc]
          | raised e' => simp [validateField_check_raised hcell hc, hc]
      | ok u => simp [validateField_fits hcell hc, hc]

/-- A null fits or is reported; an annotation raises on a date text only. -/
theorem checkCell_raised_iff {spec : FieldSpec} {v : PyVal} {e : PyErr} :
    checkCell rt spec v = .error (.raised e) ↔ spec.type = .date ∧ CoerceFault rt v e := by
  by_cases hnull : v = .none
  · subst hnull
    have hno : ¬ (spec.type = .date ∧ CoerceFault rt .none e) := by
      rintro ⟨_, s, hs, _⟩
      cases hs
    refine iff_of_false ?_ hno
    cases hr : spec.required with
    | false => simp [checkCell_none hr]
    | true =>
        simp only [checkCell, hr, Bool.not_true, Bool.and_false, Bool.false_eq_true, if_false]
        exact fun hraised => hno (checkType_raised_iff.mp hraised)
  · rw [checkCell_of_ne_none hnull, checkType_raised_iff]

/-- A field with a cell that is not null. -/
theorem validateField_of_cell {spec : FieldSpec} {v w : PyVal}
    (hcell : row.get? spec.name = some v) (hne : v ≠ .none) :
    validateField rt model row spec = .value w ↔
      checkType rt spec.type v = .ok w ∧
        ∀ fv ∈ model.fieldValidators.filter (·.field == spec.name), fv.check w = .ok () := by
  rw [validateField_value_iff, hcell]
  simp [checkCell_of_ne_none hne]

/-- Setting one name of a row leaves the other fields. -/
theorem validateField_set_other {spec : FieldSpec} {v w : PyVal}
    (h : name ≠ spec.name) :
    validateField rt model (row.set name v) spec = .value w ↔
      validateField rt model row spec = .value w := by
  rw [validateField_value_iff, validateField_value_iff, Dict.get?_set_ne _ _ h]

end Field

/-! ## All fields -/

theorem validateFields_of_values {rt : Runtime} {model : RecordModel} {row : Row}
    {value : FieldSpec → PyVal} {specs : List FieldSpec}
    (h : ∀ spec ∈ specs, validateField rt model row spec = .value (value spec)) :
    validateFields rt model row specs =
      .ok (specs.map fun spec => (spec.name, value spec), []) := by
  induction specs with
  | nil => rfl
  | cons spec rest ih =>
      have hrest := ih (fun s hs => h s (by simp [hs]))
      simp [validateFields, h spec (by simp), hrest, Except.map]

/-- The fields raise together exactly when one of them does, whatever
errors the others have collected. -/
theorem validateFields_error_iff {rt : Runtime} {model : RecordModel} {row : Row}
    {specs : List FieldSpec} :
    (∃ e, validateFields rt model row specs = .error e) ↔
      ∃ spec ∈ specs, ∃ e, validateField rt model row spec = .raised e := by
  induction specs with
  | nil => simp [validateFields]
  | cons spec rest ih =>
      cases hs : validateField rt model row spec with
      | raised e => simp [validateFields, hs]
      | value v => simpa [validateFields, hs, map_eq_error] using ih
      | invalid e => simpa [validateFields, hs, map_eq_error] using ih

/-! ## The model of a schema -/

theorem modelFields_get? {schema : TargetSchema} {name : String} {defn : FieldDefinition} :
    (modelFields schema).get? name = some defn ↔
      isFieldName name = true ∧ schema.fields.get? name = some defn := by
  rw [modelFields, Dict.get?_filterKeys]
  cases isFieldName name <;> simp

theorem mem_fieldSpecs {schema : TargetSchema} {spec : FieldSpec} :
    spec ∈ fieldSpecs schema ↔ ∃ defn, (modelFields schema).get? spec.name = some defn ∧
      spec.type = defn.type ∧ spec.required = defn.required := by
  simp only [fieldSpecs, List.mem_map]
  constructor
  · rintro ⟨⟨name, defn⟩, hmem, rfl⟩
    exact ⟨defn, Dict.get?_eq_some.mpr hmem, rfl, rfl⟩
  · rintro ⟨defn, hget, ht, hr⟩
    refine ⟨(spec.name, defn), Dict.get?_eq_some.mp hget, ?_⟩
    cases spec
    simp_all

theorem fieldSpecs_names (schema : TargetSchema) :
    (fieldSpecs schema).map FieldSpec.name = (modelFields schema).keys := by
  simp [fieldSpecs, Dict.keys]

theorem attachFieldValidators_field {rt : Runtime} {name : String} {defn : FieldDefinition}
    {fv : FieldValidator} (h : fv ∈ attachFieldValidators rt name defn) : fv.field = name := by
  simp only [attachFieldValidators, List.mem_append] at h
  rcases h with (h | h) | h
  · split at h
    · simp only [List.mem_singleton] at h
      rw [h]
    · cases h
  · split at h
    · simp only [List.mem_singleton] at h
      rw [h]
    · cases h
  · split at h
    · simp only [List.mem_singleton] at h
      rw [h]
    · cases h

/-- Of the whole namespace a field runs the validators attached for it. -/
theorem validators_of_field {rt : Runtime} {entries : List (String × FieldDefinition)}
    (hnd : (entries.map Prod.fst).Nodup) {name : String} {defn : FieldDefinition}
    (h : (name, defn) ∈ entries) :
    (entries.flatMap fun kv => attachFieldValidators rt kv.1 kv.2).filter (·.field == name) =
      attachFieldValidators rt name defn := by
  induction entries with
  | nil => cases h
  | cons kv rest ih =>
      simp only [List.map_cons, List.nodup_cons] at hnd
      rw [List.flatMap_cons, List.filter_append]
      rcases List.mem_cons.mp h with rfl | hmem
      · have hself : (attachFieldValidators rt name defn).filter (·.field == name) =
            attachFieldValidators rt name defn :=
          List.filter_eq_self.mpr fun fv hfv => by simp [attachFieldValidators_field hfv]
        have hother : (rest.flatMap fun kv => attachFieldValidators rt kv.1 kv.2).filter
            (·.field == name) = [] := by
          apply List.filter_eq_nil_iff.mpr
          intro fv hfv
          obtain ⟨kv', hkv', hfv'⟩ := List.mem_flatMap.mp hfv
          have hne : kv'.1 ≠ name := fun he => hnd.1 (he ▸ List.mem_map.mpr ⟨kv', hkv', rfl⟩)
          simpa [attachFieldValidators_field hfv'] using hne
        rw [hself, hother, List.append_nil]
      · have hne : kv.1 ≠ name := fun he => hnd.1 (he ▸ List.mem_map.mpr ⟨(name, defn), hmem, rfl⟩)
        have hhead : (attachFieldValidators rt kv.1 kv.2).filter (·.field == name) = [] := by
          apply List.filter_eq_nil_iff.mpr
          intro fv hfv
          simpa [attachFieldValidators_field hfv] using hne
        rw [hhead, List.nil_append, ih hnd.2 hmem]

/-- The default of a field of the schema. -/
theorem fieldDefault_recordClass {rt : Runtime} {schema : TargetSchema} {spec : FieldSpec}
    {defn : FieldDefinition} (h : (modelFields schema).get? spec.name = some defn) :
    fieldDefault (recordClass rt schema) spec =
      (inheritedDefault rt schema spec.name).or (if spec.required then none else some .none) := by
  have hinherited : (recordClass rt schema).inherited.get? spec.name =
      inheritedDefault rt schema spec.name := by
    rw [recordClass, Dict.get?_filterMap, (modelFields_get?.mp h).2]
    rfl
  rw [fieldDefault, hinherited]
  cases inheritedDefault rt schema spec.name <;> rfl

theorem recordClass_validators {rt : Runtime} {schema : TargetSchema} {name : String}
    {defn : FieldDefinition} (h : (modelFields schema).get? name = some defn) :
    (recordClass rt schema).fieldValidators.filter (·.field == name) =
      attachFieldValidators rt name defn :=
  validators_of_field schema.fields.nodup (Dict.get?_eq_some.mp (modelFields_get?.mp h).2)

end RiskFlow
