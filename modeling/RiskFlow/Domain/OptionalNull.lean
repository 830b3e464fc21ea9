import RiskFlow.Domain.AcceptedRecords

/-!
# OptionalNull — a null and an absent value of an optional field

An unmapped column leaves its field out of the row, an empty cell puts a
null there. The default of an absent field is not validated; a null passes
the annotation and goes on to the constraints of the field. A name with a
leading underscore has no field, and no null in the record either.
-/

namespace RiskFlow

open Lib

/-- No constraint on the values of the field. -/
def FieldDefinition.Unconstrained (defn : FieldDefinition) : Prop :=
  defn.nonNegative = false ∧ defn.notEmpty = false ∧ defn.allowedValues = none

/-- The default of an optional field of this name is null: it takes no
attribute of its class. -/
def DefaultsToNull (rt : Runtime) (schema : TargetSchema) (name : String) : Prop :=
  (inheritedDefault rt schema name).getD .none = .none

/-- The model makes of both rows one record, with a null under the name, or
refuses both. -/
def SameOutcome (rt : Runtime) (model : RecordModel) (row row' : Row) (name : String) : Prop :=
  (∃ record, modelValidate rt model row = .ok record ∧ modelValidate rt model row' = .ok record ∧
      record.get? name = some .none) ∨
    ((∃ e, modelValidate rt model row = .error e) ∧ ∃ e, modelValidate rt model row' = .error e)

section Null
variable {rt : Runtime} {schema : TargetSchema} {name : String} {defn : FieldDefinition}
  {row : Row}

/-- Null passes the constraints of a field that has none. -/
theorem attached_pass_none :
    (∀ fv ∈ attachFieldValidators rt name defn, fv.check .none = .ok ()) ↔
      defn.Unconstrained := by
  rw [attached_pass_iff, FieldDefinition.Unconstrained, Option.eq_none_iff_forall_ne_some]
  simp

/-- An explicit null passes the field with the value null. -/
theorem validateField_null {spec : FieldSpec} {w : PyVal}
    (hget : (modelFields schema).get? spec.name = some defn) (hopt : spec.required = false) :
    validateField rt (recordClass rt schema) (row.set spec.name .none) spec = .value w ↔
      w = .none ∧ defn.Unconstrained := by
  rw [validateField_value_iff, recordClass_validators hget, Dict.get?_set_self]
  constructor
  · rintro (⟨habsent, _⟩ | ⟨v, hv, hchecked, hpass⟩)
    · cases habsent
    · cases hv
      cases (checkCell_none hopt).symm.trans hchecked
      exact ⟨rfl, attached_pass_none.mp hpass⟩
  · rintro ⟨rfl, hnone⟩
    exact .inr ⟨.none, rfl, checkCell_none hopt, attached_pass_none.mpr hnone⟩

/-- What an absent optional field is given. -/
theorem optional_default (hopt : defn.required = false) :
    (inheritedDefault rt schema name).or (if defn.required then none else some .none) =
      some ((inheritedDefault rt schema name).getD .none) := by
  cases inheritedDefault rt schema name <;> simp [hopt]

/-- Without constraints, or without a field, the row with the null has the
record of the row without the name. -/
theorem modelValidate_null {record : Row} (hget : schema.fields.get? name = some defn)
    (hopt : defn.required = false) (habsent : row.get? name = none)
    (hnull : DefaultsToNull rt schema name)
    (hnone : isFieldName name = true → defn.Unconstrained) :
    modelValidate rt (recordClass rt schema) (row.set name .none) = .ok record ↔
      modelValidate rt (recordClass rt schema) row = .ok record := by
  refine modelValidate_ok_congr fun spec hspec w => ?_
  by_cases hname : name = spec.name
  · subst hname
    obtain ⟨defn', hget', _, hreq⟩ := mem_fieldSpecs.mp hspec
    obtain ⟨hfield, hsame⟩ := modelFields_get?.mp hget'
    cases hget.symm.trans hsame
    have hdefault : fieldDefault (recordClass rt schema) spec = some .none := by
      rw [fieldDefault_recordClass hget', hreq, optional_default hopt, hnull]
    rw [validateField_null hget' (hreq.trans hopt), validateField_value_iff]
    simp [habsent, hdefault, hnone hfield, @eq_comm _ PyVal.none w]
  · exact validateField_set_other hname

/-- With a constraint the null is refused. -/
theorem null_refused (hget : (modelFields schema).get? name = some defn)
    (hopt : defn.required = false) (hcons : ¬ defn.Unconstrained) :
    ∃ e, modelValidate rt (recordClass rt schema) (row.set name .none) = .error e := by
  rw [← not_accepts_iff]
  rintro ⟨record, hrecord⟩
  obtain ⟨w, _, hchecked, hpass⟩ := modelValidate_cell hrecord hget (Dict.get?_set_self ..)
  cases (checkCell_none hopt).symm.trans hchecked
  exact hcons (attached_pass_none.mp hpass)

/-- An absent optional field has its default in the record. -/
theorem absent_recorded {record : Row} (hget : (modelFields schema).get? name = some defn)
    (hopt : defn.required = false) (habsent : row.get? name = none)
    (h : modelValidate rt (recordClass rt schema) row = .ok record) :
    record.get? name = some ((inheritedDefault rt schema name).getD .none) := by
  obtain ⟨w, hw, ⟨_, hdefault⟩ | ⟨v, hv, _⟩⟩ := modelValidate_field h hget
  · rw [hw, ← hdefault, optional_default hopt]
  · rw [habsent] at hv
    cases hv

/-- A private name is not in the record. -/
theorem private_unrecorded {record : Row} (hprivate : isFieldName name = false)
    (h : modelValidate rt (recordClass rt schema) row = .ok record) :
    record.get? name ≠ some .none := by
  intro hnull
  obtain ⟨value, _, rfl⟩ := modelValidate_record h
  have hmem : name ∈ (recordOf schema value).keys := Dict.mem_keys.mpr ⟨_, hnull⟩
  rw [recordOf_keys] at hmem
  obtain ⟨defn, hget⟩ := Dict.mem_keys.mp hmem
  rw [(modelFields_get?.mp hget).1] at hprivate
  cases hprivate

theorem refused_iff_failsCheck {row : Row} :
    (∃ e, modelValidate rt (recordClass rt schema) row = .error e) ↔ FailsCheck rt schema row := by
  rw [← not_accepts_iff, accepts_iff_no_failure, not_not]

/-- The outcomes of the two rows where the absent field becomes null. -/
theorem sameOutcome_of_null (hget : schema.fields.get? name = some defn)
    (hopt : defn.required = false) (habsent : row.get? name = none)
    (hnull : DefaultsToNull rt schema name) :
    SameOutcome rt (recordClass rt schema) row (row.set name .none) name ↔
      (isFieldName name = true ∧ defn.Unconstrained) ∨ FailsCheck rt schema row := by
  by_cases hnone : isFieldName name = true → defn.Unconstrained
  · -- both rows are accepted with one record, or both refused
    have hsame := fun record => @modelValidate_null rt schema name defn row record hget hopt
      habsent hnull hnone
    constructor
    · rintro (⟨record, hrow, _, hrecorded⟩ | ⟨hrow, _⟩)
      · left
        by_contra hplain
        refine private_unrecorded ?_ hrow hrecorded
        exact Bool.eq_false_iff.mpr fun hfield => hplain ⟨hfield, hnone hfield⟩
      · exact .inr (refused_iff_failsCheck.mp hrow)
    · intro hcond
      cases hrow : modelValidate rt (recordClass rt schema) row with
      | ok record =>
          rcases hcond with ⟨hfield, _⟩ | hfails
          · have hdefault := absent_recorded (modelFields_get?.mpr ⟨hfield, hget⟩) hopt habsent hrow
            rw [hnull] at hdefault
            exact .inl ⟨record, hrow, (hsame record).mpr hrow, hdefault⟩
          · obtain ⟨e, he⟩ := refused_iff_failsCheck.mpr hfails
            cases hrow.symm.trans he
      | error e =>
          refine .inr ⟨⟨e, hrow⟩, not_accepts_iff.mp ?_⟩
          rintro ⟨record, hrecord⟩
          rw [hsame, hrow] at hrecord
          cases hrecord
  · obtain ⟨hfield, hcons⟩ := Classical.not_imp.mp hnone
    have hrefused := @null_refused rt schema name defn row
      (modelFields_get?.mpr ⟨hfield, hget⟩) hopt hcons
    rw [or_iff_right fun h => hcons h.2, ← refused_iff_failsCheck]
    constructor
    · rintro (⟨record, _, hset, _⟩ | ⟨hrow, _⟩)
      · exact absurd ⟨record, hset⟩ (not_accepts_iff.mpr hrefused)
      · exact hrow
    · exact fun hrow => .inr ⟨hrow, hrefused⟩

end Null

/-- An optional note, and an optional currency out of a list. -/
def noteSchema : TargetSchema where
  name := "notes"
  fields := .ofList [("Note", { type := .string, required := false }),
    ("Currency", { type := .currency, required := false, allowedValues := some ["EUR"] })]

end RiskFlow
