import RiskFlow.Domain.RecordErrors

/-!
# AcceptedRecords — what the record of an accepted row satisfies

When a row is accepted and with which record, as an equivalence; and from it
which constraints of the schema hold of the record.
-/

namespace RiskFlow

open Lib

/-! ## The whole row -/

section Row
variable {rt : Runtime} {schema : TargetSchema} {row : Row}

theorem recordOf_congr {value value' : FieldSpec → PyVal}
    (h : ∀ spec ∈ fieldSpecs schema, value spec = value' spec) :
    recordOf schema value = recordOf schema value' := by
  unfold recordOf
  rw [List.map_congr_left fun spec hspec => by rw [h spec hspec]]

/-- **When a row is accepted, and its record.** -/
theorem modelValidate_ok_iff {record : Row} :
    modelValidate rt (recordClass rt schema) row = .ok record ↔
      ∃ value, (∀ spec ∈ fieldSpecs schema,
          validateField rt (recordClass rt schema) row spec =
            .value (value spec)) ∧
        record = recordOf schema value ∧
        ∀ v ∈ attachCrossFieldValidators rt schema.crossFieldRules,
          v.check (instanceOf rt schema value) = .ok () := by
  constructor
  · intro h
    obtain ⟨value, hvalue, rfl⟩ := modelValidate_record h
    have hrules := (accepts_iff_validators hvalue).mp ⟨_, h⟩
    exact ⟨value, hvalue, rfl, runModelValidators_ok_iff.mp hrules⟩
  · rintro ⟨value, hvalue, rfl, hrules⟩
    have haccepts := (accepts_iff_validators hvalue).mpr (runModelValidators_ok_iff.mpr hrules)
    obtain ⟨record, hrecord⟩ := haccepts
    obtain ⟨value', hvalue', rfl⟩ := modelValidate_record hrecord
    rw [hrecord, recordOf_congr fun spec hspec => ?_]
    have hsame := (hvalue spec hspec).symm.trans (hvalue' spec hspec)
    exact (FieldOutcome.value.inj hsame).symm

/-- Rows whose fields pass with the same values have the same record. -/
theorem modelValidate_ok_congr {row' record : Row}
    (h : ∀ spec ∈ fieldSpecs schema, ∀ w,
      validateField rt (recordClass rt schema) row spec = .value w ↔
        validateField rt (recordClass rt schema) row' spec = .value w) :
    modelValidate rt (recordClass rt schema) row = .ok record ↔
      modelValidate rt (recordClass rt schema) row' = .ok record := by
  rw [modelValidate_ok_iff, modelValidate_ok_iff]
  refine exists_congr fun value => and_congr_left fun _ => ?_
  exact forall₂_congr fun spec hspec => h spec hspec (value spec)

/-- Some check refuses the row: one of its fields, or the date rule in force. -/
def FailsCheck (rt : Runtime) (schema : TargetSchema) (row : Row) : Prop :=
  ¬ FieldsPass rt (recordClass rt schema) row ∨
    ∃ last, schema.crossFieldRules.getLast? = some last ∧ RuleFails rt schema row last

/-- A row is accepted when no check refuses it. -/
theorem accepts_iff_no_failure :
    Accepts rt (recordClass rt schema) row ↔ ¬ FailsCheck rt schema row := by
  rw [FailsCheck, not_or, not_not]
  constructor
  · intro haccepts
    obtain ⟨record, hrecord⟩ := haccepts
    obtain ⟨value, hvalue, _⟩ := modelValidate_record hrecord
    have hpass : FieldsPass rt (recordClass rt schema) row :=
      fun spec hspec => ⟨value spec, hvalue spec hspec⟩
    refine ⟨hpass, ?_⟩
    rintro ⟨last, hlast, hfails⟩
    exact (accepts_iff_last hpass).mp ⟨record, hrecord⟩ last hlast hfails
  · rintro ⟨hpass, hrule⟩
    exact (accepts_iff_last hpass).mpr fun last hlast hfails => hrule ⟨last, hlast, hfails⟩

theorem not_accepts_iff {model : RecordModel} :
    ¬ Accepts rt model row ↔ ∃ e, modelValidate rt model row = .error e := by
  unfold Accepts
  cases modelValidate rt model row <;> simp

end Row

/-! ## The constraints of a field -/

section Constraints
variable {rt : Runtime} {name : String} {w : PyVal}

theorem checkNonNegative_ok_iff :
    checkNonNegative rt name w = .ok () ↔ ∃ x, w = .float x ∧ x.lt 0 = false := by
  cases w with
  | float x =>
      cases hlt : x.lt 0 with
      | true => simp [checkNonNegative, hlt]
      | false => simp [checkNonNegative, hlt]
  | _ => simp [checkNonNegative]

theorem checkNotEmpty_ok_iff :
    checkNotEmpty name w = .ok () ↔ ∃ s, w = .str s ∧ Py.isBlank s = false := by
  cases w with
  | str s =>
      cases hblank : Py.isBlank s with
      | true => simp [checkNotEmpty, hblank]
      | false => simp [checkNotEmpty, hblank]
  | _ => simp [checkNotEmpty]

theorem checkAllowed_ok_iff {allowed : List String} :
    checkAllowed rt name allowed w = .ok () ↔ ∃ s ∈ allowed, w = .str s := by
  cases w with
  | str s =>
      by_cases hmem : s ∈ allowed
      · simp [checkAllowed, hmem]
      · simp [checkAllowed, hmem]
  | _ => simp [checkAllowed]

/-- The validators attached for a field pass a value when it meets each
constraint the field has. -/
theorem attached_pass_iff {defn : FieldDefinition} :
    (∀ fv ∈ attachFieldValidators rt name defn, fv.check w = .ok ()) ↔
      (defn.nonNegative = true → ∃ x, w = .float x ∧ x.lt 0 = false) ∧
      (defn.notEmpty = true → ∃ s, w = .str s ∧ Py.isBlank s = false) ∧
      ∀ allowed, defn.allowedValues = some allowed → ∃ s ∈ allowed, w = .str s := by
  simp only [attachFieldValidators, List.forall_mem_append, and_assoc]
  refine and_congr ?_ (and_congr ?_ ?_)
  · cases defn.nonNegative with
    | true => simp [checkNonNegative_ok_iff]
    | false => simp
  · cases defn.notEmpty with
    | true => simp [checkNotEmpty_ok_iff]
    | false => simp
  · cases defn.allowedValues with
    | none => simp
    | some allowed => simp [checkAllowed_ok_iff]

/-- A checked value is never null. -/
theorem checkType_ne_none {t : FieldType} {v : PyVal} (h : checkType rt t v = .ok w) :
    w ≠ .none := by
  cases t with
  | date =>
      obtain ⟨d, rfl⟩ := checkType_date h
      simp
  | float =>
      obtain ⟨x, rfl⟩ := checkType_float h
      simp
  | string =>
      obtain ⟨s, rfl⟩ := checkType_str (.inl rfl) h
      simp
  | currency =>
      obtain ⟨s, rfl⟩ := checkType_str (.inr rfl) h
      simp

theorem checkType_float_iff {v : PyVal} {x : XRat} :
    checkType rt .float v = .ok (.float x) ↔ rt.pydanticFloat v = .ok x := by
  simp only [checkType, mapError_eq_ok, map_eq_ok, PyVal.float.injEq, exists_eq_right]

end Constraints

/-! ## The constraints of a schema -/

/-- What a field asks of the value recorded for it, where `given` is what
the row holds under its name. -/
structure FieldDefinition.SatisfiedBy (defn : FieldDefinition) (given : Option PyVal)
    (v : PyVal) : Prop where
  required : defn.required = true → v ≠ .none
  notEmpty : defn.notEmpty = true → ∀ s, v = .str s → ∃ c ∈ s.toList, Py.isSpace c = false
  /-- Only a row that gives no value leaves the field without an allowed one. -/
  allowed : ∀ allowed, defn.allowedValues = some allowed →
    (∃ s ∈ allowed, v = .str s) ∨ (v = .none ∧ given = none)
  nonNegative : defn.nonNegative = true → v ≠ .none → ∃ x, v = .float x ∧ x.ge 0 = true

/-- The record has the fields of the schema, and each has a value that
satisfies it. -/
def MeetsConstraints (schema : TargetSchema) (row record : Row) : Prop :=
  record.keys = schema.fieldNames ∧
    ∀ name defn, schema.fields.get? name = some defn →
      ∃ v, record.get? name = some v ∧ defn.SatisfiedBy (row.get? name) v

/-- A cell under a `non_negative` field that is read as NaN. -/
def HasNaN (rt : Runtime) (schema : TargetSchema) (row : Row) : Prop :=
  ∃ name defn v, schema.fields.get? name = some defn ∧ defn.nonNegative = true ∧
    row.get? name = some v ∧ rt.pydanticFloat v = .ok .nan

/-- A field that the row lacks takes an attribute of its class for its default,
which does not satisfy it. -/
def InheritsUnfit (rt : Runtime) (schema : TargetSchema) (row : Row) : Prop :=
  ∃ name defn v, schema.fields.get? name = some defn ∧ row.get? name = none ∧
    inheritedDefault rt schema name = some v ∧ ¬ defn.SatisfiedBy none v

section Schema
variable {rt : Runtime} {schema : TargetSchema} {row record : Row}

theorem recordOf_keys (schema : TargetSchema) (value : FieldSpec → PyVal) :
    (recordOf schema value).keys = (modelFields schema).keys := by
  have hnames : ((fieldSpecs schema).map fun s => (s.name, value s)).map Prod.fst =
      (modelFields schema).keys := by
    rw [← fieldSpecs_names, List.map_map]
    rfl
  rw [Dict.keys, recordOf, Dict.ofList_entries (hnames ▸ (modelFields schema).nodup), hnames]

/-- A field's value in the record of an accepted row. -/
theorem modelValidate_field {name : String} {defn : FieldDefinition}
    (h : modelValidate rt (recordClass rt schema) row = .ok record)
    (hget : (modelFields schema).get? name = some defn) :
    ∃ w, record.get? name = some w ∧
      ((row.get? name = none ∧ (inheritedDefault rt schema name).or
          (if defn.required then none else some .none) = some w) ∨
        ∃ v, row.get? name = some v ∧ checkCell rt ⟨name, defn.type, defn.required⟩ v = .ok w ∧
          ∀ fv ∈ attachFieldValidators rt name defn, fv.check w = .ok ()) := by
  obtain ⟨value, hvalue, rfl, _⟩ := modelValidate_ok_iff.mp h
  have hspec : (⟨name, defn.type, defn.required⟩ : FieldSpec) ∈ fieldSpecs schema :=
    mem_fieldSpecs.mpr ⟨defn, hget, rfl, rfl⟩
  refine ⟨_, recordOf_get? hspec, ?_⟩
  have hpassed := validateField_value_iff.mp (hvalue _ hspec)
  rw [recordClass_validators hget, fieldDefault_recordClass hget] at hpassed
  exact hpassed

/-- What an accepted row has under a field is checked and recorded. -/
theorem modelValidate_cell {name : String} {defn : FieldDefinition} {v : PyVal}
    (h : modelValidate rt (recordClass rt schema) row = .ok record)
    (hget : (modelFields schema).get? name = some defn) (hcell : row.get? name = some v) :
    ∃ w, record.get? name = some w ∧
      checkCell rt ⟨name, defn.type, defn.required⟩ v = .ok w ∧
      ∀ fv ∈ attachFieldValidators rt name defn, fv.check w = .ok () := by
  obtain ⟨w, hw, hfield⟩ := modelValidate_field h hget
  rcases hfield with ⟨habsent, _⟩ | ⟨v', hcell', hchecked, hpass⟩
  · rw [hcell] at habsent
    cases habsent
  · cases hcell.symm.trans hcell'
    exact ⟨w, hw, hchecked, hpass⟩

/-- What a `non_negative` field records is what its cell is read as, and not
below zero. -/
theorem nonNegative_read {name : String} {defn : FieldDefinition} {v w : PyVal}
    (hnn : defn.nonNegative = true)
    (hchecked : checkCell rt ⟨name, defn.type, defn.required⟩ v = .ok w)
    (hpass : ∀ fv ∈ attachFieldValidators rt name defn, fv.check w = .ok ()) :
    ∃ x, w = .float x ∧ x.lt 0 = false ∧ rt.pydanticFloat v = .ok x := by
  obtain ⟨x, rfl, hlt⟩ := (attached_pass_iff.mp hpass).1 hnn
  refine ⟨x, rfl, hlt, ?_⟩
  rcases checkCell_ok hchecked with ⟨_, _, hnull⟩ | htyped
  · cases hnull
  · have hfloat : defn.type = .float := defn.constraints.1 hnn
    dsimp only at htyped
    rw [hfloat] at htyped
    exact checkType_float_iff.mp htyped

/-- A default that is no attribute of the class satisfies its field. -/
theorem satisfiedBy_default {defn : FieldDefinition} {w : PyVal}
    (h : (if defn.required then none else some .none) = some w) : defn.SatisfiedBy none w := by
  obtain ⟨hopt, hw⟩ := Option.ite_none_left_eq_some.mp h
  cases hw
  refine ⟨fun hreq => absurd hreq hopt, ?_, fun _ _ => .inr ⟨rfl, rfl⟩, fun _ hne => absurd rfl hne⟩
  rintro _ s ⟨⟩

/-- The value of a field satisfies it, unless it is a NaN that must not be
negative or an attribute of the class. -/
theorem satisfiedBy_of_modelValidate {name : String} {defn : FieldDefinition}
    (h : modelValidate rt (recordClass rt schema) row = .ok record)
    (hget : (modelFields schema).get? name = some defn)
    (hnan : defn.nonNegative = true → ∀ v, row.get? name = some v →
      rt.pydanticFloat v ≠ .ok .nan)
    (hinherited : row.get? name = none → ∀ v, inheritedDefault rt schema name = some v →
      defn.SatisfiedBy none v) :
    ∃ v, record.get? name = some v ∧ defn.SatisfiedBy (row.get? name) v := by
  obtain ⟨w, hw, hfield⟩ := modelValidate_field h hget
  refine ⟨w, hw, ?_⟩
  rcases hfield with ⟨habsent, hdefault⟩ | ⟨v, hcell, hchecked, hpass⟩
  · rw [habsent]
    cases hattr : inheritedDefault rt schema name with
    | none =>
        rw [hattr, Option.none_or] at hdefault
        exact satisfiedBy_default hdefault
    | some v =>
        rw [hattr] at hdefault
        cases hdefault
        exact hinherited habsent _ hattr
  · obtain ⟨_, hnotEmpty, hallowed⟩ := attached_pass_iff.mp hpass
    refine ⟨?_, ?_, fun allowed ha => .inl (hallowed allowed ha), ?_⟩
    · intro hreq
      rcases checkCell_ok hchecked with ⟨_, hopt, _⟩ | htyped
      · rw [hreq] at hopt
        cases hopt
      · exact checkType_ne_none htyped
    · intro hne s hs
      obtain ⟨s', hs', hblank⟩ := hnotEmpty hne
      cases hs.symm.trans hs'
      exact Py.exists_not_isSpace hblank
    · intro hnn hne
      obtain ⟨x, rfl, hlt, hread⟩ := nonNegative_read hnn hchecked hpass
      refine ⟨x, rfl, XRat.ge_iff_not_lt.mpr ⟨hlt, ?_, by decide⟩⟩
      rintro rfl
      exact hnan hnn v hcell hread

/-- The class has every field of its schema exactly if no name is private. -/
theorem modelFields_keys_iff :
    (modelFields schema).keys = schema.fieldNames ↔
      ∀ name ∈ schema.fieldNames, isFieldName name = true := by
  constructor
  · intro hkeys name hname
    rw [← hkeys] at hname
    obtain ⟨defn, hget⟩ := Dict.mem_keys.mp hname
    exact (modelFields_get?.mp hget).1
  · intro hall
    rw [modelFields, Dict.filterKeys_eq_self hall]
    rfl

end Schema

/-- **When an accepted record meets its constraints**: exactly if no name of
the schema starts with an underscore, no cell under a `non_negative` field is
read as NaN, and no field takes an unfit attribute of its class. -/
theorem accepted_constraints_iff (rt : Runtime) (schema : TargetSchema) (model : RecordModel)
    (hbuild : buildModel rt schema = .ok model) (row record : Row)
    (h : modelValidate rt model row = .ok record) :
    MeetsConstraints schema row record ↔
      (∀ name ∈ schema.fieldNames, isFieldName name = true) ∧ ¬ HasNaN rt schema row ∧
        ¬ InheritsUnfit rt schema row := by
  obtain rfl := buildModel_ok hbuild
  have hkeys : record.keys = (modelFields schema).keys := by
    obtain ⟨value, _, rfl⟩ := modelValidate_record h
    exact recordOf_keys schema value
  rw [← modelFields_keys_iff, ← hkeys]
  refine and_congr_right fun hnames => ?_
  have hfield : ∀ {name defn}, schema.fields.get? name = some defn →
      (modelFields schema).get? name = some defn := by
    intro name defn hget
    have hmem : name ∈ schema.fieldNames := Dict.mem_keys.mpr ⟨defn, hget⟩
    exact modelFields_get?.mpr ⟨modelFields_keys_iff.mp (hkeys ▸ hnames) name hmem, hget⟩
  constructor
  · intro hfields
    constructor
    · rintro ⟨name, defn, v, hget, hnn, hcell, hnan⟩
      obtain ⟨w, hw, hsat⟩ := hfields name defn hget
      obtain ⟨w', hw', hchecked, hpass⟩ := modelValidate_cell h (hfield hget) hcell
      cases hw.symm.trans hw'
      obtain ⟨x, rfl, _, hread⟩ := nonNegative_read hnn hchecked hpass
      cases hnan.symm.trans hread
      -- the recorded NaN is not `>= 0`
      obtain ⟨y, hy, hge⟩ := hsat.nonNegative hnn (by simp)
      cases hy
      cases hge
    · rintro ⟨name, defn, v, hget, habsent, hattr, hunfit⟩
      obtain ⟨w, hw, hsat⟩ := hfields name defn hget
      rw [habsent] at hsat
      -- the attribute is what the record holds
      obtain ⟨w', hw', ⟨_, hdefault⟩ | ⟨v', hcell, _⟩⟩ := modelValidate_field h (hfield hget)
      · rw [hattr] at hdefault
        cases hdefault
        cases hw.symm.trans hw'
        exact hunfit hsat
      · cases habsent.symm.trans hcell
  · rintro ⟨hno, hfit⟩ name defn hget
    refine satisfiedBy_of_modelValidate h (hfield hget) ?_ ?_
    · intro hnn v hcell hnan
      exact hno ⟨name, defn, v, hget, hnn, hcell, hnan⟩
    · intro habsent v hattr
      by_contra hunfit
      exact hfit ⟨name, defn, v, hget, habsent, hattr, hunfit⟩

/-- A row of the built-in schema. -/
def standardRow (amount : XRat) : Row :=
  .ofList [("Policy_ID", .str "P1"), ("Inception_Date", .date mar1), ("Expiry_Date", .date dec31),
    ("Sum_Insured", .float amount), ("Gross_Premium", .float amount), ("Currency", .str "EUR")]

/-- Its record meets the constraints for an infinite amount. -/
theorem infinite_amount_meets :
    MeetsConstraints defaultTargetSchema (standardRow .posInf) (standardRow .posInf) := by
  refine (accepted_constraints_iff .plain defaultTargetSchema _ rfl (standardRow .posInf)
    (standardRow .posInf) rfl).mpr ⟨by decide, ?_, ?_⟩
  swap
  · rintro ⟨_, _, _, _, _, hattr, _⟩
    cases hattr
  rintro ⟨name, defn, v, _, _, hcell, hnan⟩
  have hmem := Dict.get?_eq_some.mp hcell
  rw [standardRow, Dict.ofList_entries (by decide)] at hmem
  simp only [List.mem_cons, Prod.mk.injEq, List.not_mem_nil, or_false] at hmem
  rcases hmem with ⟨_, rfl⟩ | ⟨_, rfl⟩ | ⟨_, rfl⟩ | ⟨_, rfl⟩ | ⟨_, rfl⟩ | ⟨_, rfl⟩ <;> cases hnan

/-- The row with NaN amounts is accepted, and they are not `>= 0`. -/
theorem nan_amount_accepted :
    ∃ model, buildModel .plain defaultTargetSchema = .ok model ∧
      modelValidate .plain model (standardRow .nan) = .ok (standardRow .nan) ∧
      ¬ MeetsConstraints defaultTargetSchema (standardRow .nan) (standardRow .nan) := by
  refine ⟨_, rfl, rfl, fun hmeets => ?_⟩
  obtain ⟨v, hv, hsat⟩ := hmeets.2 "Sum_Insured" { type := .float, nonNegative := true } rfl
  cases hv
  obtain ⟨x, hx, hge⟩ := hsat.nonNegative rfl (by simp)
  cases hx
  cases hge

end RiskFlow
