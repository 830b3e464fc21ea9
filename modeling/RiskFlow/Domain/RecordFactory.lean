import RiskFlow.Domain.TargetSchema
import RiskFlow.Domain.DateFormat

/-!
# RecordFactory — the generated record model

`buildModel` gives the pydantic class `_build_model` generates, as data: its
typed fields, the field validators and the model validators with what
their closures see. A name with a leading underscore declares a private
attribute and no field, and a name that pydantic's own classes use may give
its field another default. `modelValidate` is pydantic's validation of a row
against such a class: every field is checked and its errors collected,
an exception that pydantic does not collect propagates at once, and the
model validators run when all fields passed.
-/

namespace RiskFlow

open Lib

/-! ## Type checks -/

/-- `coerce_date`. -/
def coerceDate (rt : Runtime) : PyVal → Except PyErr PyVal
  | .date d => .ok (.date d)
  | .datetime t => .ok (.date t.date)
  | .str value =>
      let stripped := Py.strip value
      if stripped.isEmpty then .error (.valueError "Date string must not be empty")
      -- three attempts: ISO, then `YYYY/M/D`, then dateutil with the day first
      else match rt.fromisoformat stripped with
        | some d => .ok (.date d)
        | none =>
            match (yyyySlashPattern stripped).bind dateOfGroups with
            | some d => .ok (.date d)
            | none =>
                (dayfirstDate rt stripped ("Could not parse date: '" ++ value ++ "'")).map .date
  | v => .ok v

/-- How a check fails: with a message that pydantic collects, or with an
exception that ends the validation. -/
inductive CheckFailure where
  | invalid (msg : String)
  | raised (e : PyErr)

/-- What pydantic makes of an exception of a validator. -/
def CheckFailure.ofRaised (e : PyErr) : CheckFailure :=
  match e.collected with
  | some msg => .invalid msg
  | none => .raised e

/-- The annotation `_build_model` gives a field of this type, applied to
a value: `FlexibleDate`, `float` or `str`. -/
def checkType (rt : Runtime) (type : FieldType) (v : PyVal) : Except CheckFailure PyVal :=
  match type with
  | .date =>
      match coerceDate rt v with
      | .error e => .error (.ofRaised e)
      | .ok w => ((rt.pydanticDate w).map .date).mapError .invalid
  | .float => ((rt.pydanticFloat v).map .float).mapError .invalid
  | .string | .currency => ((rt.pydanticStr v).map .str).mapError .invalid

/-! ## Field validators -/

/-- A `@field_validator(field, mode="after")` in the class namespace; it
returns its argument or raises. -/
structure FieldValidator where
  key : String
  field : String
  check : PyVal → Except PyErr Unit

/-- `_check_non_negative`. -/
def checkNonNegative (rt : Runtime) (name : String) : PyVal → Except PyErr Unit
  | .float x =>
      if x.lt 0 then
        .error (.valueError (name ++ " must be non-negative, got " ++ rt.reprFloat x))
      else .ok ()
  | v => .error (.typeError ("'<' not supported between instances of '" ++ v.typeName ++
      "' and 'int'"))

/-- `_check_not_empty`. -/
def checkNotEmpty (name : String) : PyVal → Except PyErr Unit
  | .str s =>
      if Py.isBlank s then .error (.valueError (name ++ " must not be empty")) else .ok ()
  | v => .error (.attributeError ("'" ++ v.typeName ++ "' object has no attribute 'strip'"))

/-- `_check_allowed`: membership is decided by `==`, so it raises nothing
but its own error. -/
def checkAllowed (rt : Runtime) (name : String) (allowed : List String) :
    PyVal → Except PyErr Unit
  | .str s =>
      if s ∈ allowed then .ok ()
      else .error (.valueError (name ++ " must be one of " ++ Py.reprStrs allowed ++ ", got '" ++
        s ++ "'"))
  | v => .error (.valueError (name ++ " must be one of " ++ Py.reprStrs allowed ++ ", got '" ++
      rt.str v ++ "'"))

/-- `_attach_field_validators`. Each call has a scope of its own, so what
a closure captures is this call's `field_name`. -/
def attachFieldValidators (rt : Runtime) (fieldName : String) (defn : FieldDefinition) :
    List FieldValidator :=
  (if defn.nonNegative then
    [{ key := "validate_" ++ fieldName ++ "_non_negative", field := fieldName
       check := checkNonNegative rt fieldName }]
  else []) ++
  (if defn.notEmpty then
    [{ key := "validate_" ++ fieldName ++ "_not_empty", field := fieldName
       check := checkNotEmpty fieldName }]
  else []) ++
  (match defn.allowedValues with
    | some allowed =>
        [{ key := "validate_" ++ fieldName ++ "_allowed", field := fieldName
           check := checkAllowed rt fieldName allowed }]
    | none => [])

/-! ## Cross-field validators -/

/-- An instance of a generated class: the values of its fields, and what
`getattr` finds on it under a name instead of such a value. -/
structure RecordInstance where
  values : Row
  attributes : Row

/-- `getattr(self, name, None)`. -/
def getAttr (self : RecordInstance) (name : String) : PyVal :=
  match self.attributes.get? name with
  | some v => v
  | none => (self.values.get? name).getD .none

/-- A `@model_validator(mode="after")` in the class namespace. -/
structure ModelValidator where
  key : String
  check : RecordInstance → Except PyErr Unit

/-- The variables `earlier` and `later` of `_attach_cross_field_validators`.
They belong to that function's scope, so all closures made in its loop
share them. -/
structure OrderScope where
  earlier : String
  later : String

/-- `later_val < earlier_val`. -/
def pyLess (rt : Runtime) : PyVal → PyVal → Except PyErr Bool
  | .date a, .date b => .ok (a.before b)
  | v, w =>
      match rt.less v w with
      | some less => .ok less
      | none => .error (.typeError ("'<' not supported between instances of '" ++ v.typeName ++
          "' and '" ++ w.typeName ++ "'"))

/-- The body of `_check_date_order`, which reads the scope when it runs. -/
def checkDateOrder (rt : Runtime) (scope : OrderScope) (self : RecordInstance) :
    Except PyErr Unit := do
  let earlierVal := getAttr self scope.earlier
  let laterVal := getAttr self scope.later
  if earlierVal.isNone || laterVal.isNone then pure ()
  else if ← pyLess rt laterVal earlierVal then
    .error (.valueError (scope.later ++ " must not be before " ++ scope.earlier))
  else pure ()

/-- One round of the loop: the shared variables are assigned, and one more
closure is put into the namespace. -/
def attachRule (state : Option OrderScope × List String) (rule : DateOrderingRule × Nat) :
    Option OrderScope × List String :=
  -- the scope is overwritten, so closures made in earlier rounds see this rule too
  (some { earlier := rule.1.earlier, later := rule.1.later },
    state.2 ++ ["validate_date_order_" ++ toString rule.2])

/-- `_attach_cross_field_validators`: the validators run after the loop, so
each sees the values its variables have then. -/
def attachCrossFieldValidators (rt : Runtime) (rules : List DateOrderingRule) :
    List ModelValidator :=
  match rules.zipIdx.foldl attachRule (none, []) with
  | (none, _) => []
  | (some scope, keys) => keys.map fun key => { key, check := checkDateOrder rt scope }

/-! ## The model -/

/-- A field of the generated class: `(T, ...)` or `(T | None, None)`. -/
structure FieldSpec where
  name : String
  type : FieldType
  required : Bool
  deriving DecidableEq

/-- The generated class. -/
structure RecordModel where
  name : String
  fields : List FieldSpec
  /-- The attributes of its base classes that stand for a field's default. -/
  inherited : Row
  /-- What `getattr` finds on an instance in place of a field's value. -/
  attributes : Row
  fieldValidators : List FieldValidator
  modelValidators : List ModelValidator

/-- pydantic's `is_valid_field_name`. -/
def isFieldName (name : String) : Bool := !Py.startsWith name "_"

/-- The declarations that become fields. -/
def modelFields (schema : TargetSchema) : Dict String FieldDefinition :=
  schema.fields.filterKeys isFieldName

def fieldSpecs (schema : TargetSchema) : List FieldSpec :=
  (modelFields schema).entries.map fun kv =>
    { name := kv.1, type := kv.2.type, required := kv.2.required }

/-- What hides the value of a field, or stands for the private attribute that
its name makes of it: the default `None` of an optional one. -/
def hiddenBy (rt : Runtime) (name : String) (defn : FieldDefinition) : Option PyVal :=
  if isFieldName name then rt.baseProperty name
  else some (if defn.required then rt.privateAttribute name else .none)

/-- Some field has a constraint, or there is a date rule: the class with the
validators is then made as a subclass of the one without. -/
def hasValidators (schema : TargetSchema) : Bool :=
  !schema.crossFieldRules.isEmpty || schema.fields.entries.any fun kv =>
    kv.2.nonNegative || kv.2.notEmpty || kv.2.allowedValues.isSome

/-- What the field takes from the base classes for its default. A subclass
finds the attributes of its base classes as if they were assigned to the
names of its fields. -/
def inheritedDefault (rt : Runtime) (schema : TargetSchema) (name : String) : Option PyVal :=
  if hasValidators schema then rt.classAttribute name else none

/-- The class of a schema, if pydantic makes one. The keys of the namespace
are pairwise distinct: the suffix tells the constraint, the middle the field. -/
def recordClass (rt : Runtime) (schema : TargetSchema) : RecordModel where
  name := "DynamicRecord_" ++ schema.name
  fields := fieldSpecs schema
  inherited := schema.fields.filterMap fun name _ => inheritedDefault rt schema name
  attributes := schema.fields.filterMap (hiddenBy rt)
  fieldValidators := schema.fields.entries.flatMap fun kv => attachFieldValidators rt kv.1 kv.2
  modelValidators := attachCrossFieldValidators rt schema.crossFieldRules

/-- `_build_model`. -/
def buildModel (rt : Runtime) (schema : TargetSchema) : Except PyErr RecordModel :=
  -- `create_model`
  match schema.fieldNames.findSome? rt.reservedField with
  | some e => .error e
  | none =>
      -- the class with the validators: each has to name a field
      match (recordClass rt schema).fieldValidators.find? fun v => !isFieldName v.field with
      | some v => .error (.otherException "PydanticUserError"
          ("Decorators defined with incorrect fields: " ++ v.key))
      | none => .ok (recordClass rt schema)

/-- A class that was built is the class of the schema. -/
theorem buildModel_ok {rt : Runtime} {schema : TargetSchema} {model : RecordModel}
    (h : buildModel rt schema = .ok model) : model = recordClass rt schema := by
  unfold buildModel at h
  split at h
  · cases h
  · split at h <;> cases h
    rfl

/-- Why `_build_cached` fails: the JSON is no schema, or the schema has no class. -/
inductive BuildFailure where
  | schema (e : ValidationFailure)
  | model (e : PyErr)

/-- `_build_cached`: the class is built from the JSON it is given. The LRU
cache in front of it returns what this function returned before. -/
def buildCached (rt : Runtime) (schemaJson : Json) : Except BuildFailure RecordModel :=
  match TargetSchema.modelValidate schemaJson with
  | .error e => .error (.schema e)
  | .ok schema => (buildModel rt schema).mapError .model

/-- `build_record_model`. -/
def buildRecordModel (rt : Runtime) (schema : TargetSchema) : Except BuildFailure RecordModel :=
  buildCached rt schema.modelDumpJson

/-- The detour through JSON builds the model of the schema itself. -/
theorem buildRecordModel_eq (rt : Runtime) (schema : TargetSchema) :
    buildRecordModel rt schema = (buildModel rt schema).mapError .model := by
  simp [buildRecordModel, buildCached, TargetSchema.modelValidate_dump]

theorem buildRecordModel_ok {rt : Runtime} {schema : TargetSchema} {model : RecordModel} :
    buildRecordModel rt schema = .ok model ↔ buildModel rt schema = .ok model := by
  rw [buildRecordModel_eq, mapError_eq_ok]

/-! ## Validation of a row -/

/-- What one field contributes: a value, a collected error, or an
exception that ends the validation. -/
inductive FieldOutcome where
  | value (v : PyVal)
  | invalid (e : ErrorDetails)
  | raised (e : PyErr)

/-- The field's after-validators in order; the first one to raise decides. -/
def runFieldValidators (name : String) (input w : PyVal) : List FieldValidator → FieldOutcome
  | [] => .value w
  | v :: rest =>
      match v.check w with
      | .ok () => runFieldValidators name input w rest
      | .error e =>
          match e.collected with
          | some msg => .invalid { loc := [name], msg, input }
          -- pydantic lets any other exception type through
          | none => .raised e

/-- The default of a field, if it has one. -/
def fieldDefault (model : RecordModel) (spec : FieldSpec) : Option PyVal :=
  match model.inherited.get? spec.name with
  | some v => some v
  | none => if spec.required then none else some .none

/-- One field of the row. An absent field takes its default, on which no
validator runs; an explicit null of an optional field passes the type check
as it is, and the validators do run on it. -/
def validateField (rt : Runtime) (model : RecordModel) (row : Row) (spec : FieldSpec) :
    FieldOutcome :=
  match row.get? spec.name with
  | none =>
      match fieldDefault model spec with
      | some v => .value v
      | none =>
          .invalid { loc := [spec.name], msg := "Field required", input := .dict row.entries }
  | some v =>
      -- the annotation is `T | None`: a null skips the type check but not the validators
      let checked := if v.isNone && !spec.required then .ok .none else checkType rt spec.type v
      match checked with
      | .error (.invalid msg) => .invalid { loc := [spec.name], msg, input := v }
      | .error (.raised e) => .raised e
      | .ok w =>
          runFieldValidators spec.name v w (model.fieldValidators.filter (·.field == spec.name))

/-- All fields in order: the values of those that passed, and the errors
of the others. -/
def validateFields (rt : Runtime) (model : RecordModel) (row : Row) :
    List FieldSpec → Except PyErr (List (String × PyVal) × List ErrorDetails)
  | [] => .ok ([], [])
  | spec :: rest =>
      match validateField rt model row spec with
      | .raised e => .error e
      | .value v =>
          (validateFields rt model row rest).map fun r => ((spec.name, v) :: r.1, r.2)
      | .invalid e => (validateFields rt model row rest).map fun r => (r.1, e :: r.2)

/-- The model validators in order, each on the instance. -/
def runModelValidators (input : Row) (self : RecordInstance) :
    List ModelValidator → Except PyErr Unit
  | [] => .ok ()
  | v :: rest =>
      match v.check self with
      | .ok () => runModelValidators input self rest
      | .error e =>
          match e.collected with
          | some msg =>
              .error (.validationError [{ loc := [], msg, input := .dict input.entries }])
          | none => .error e

/-- `Model.model_validate(row)` followed by `model_dump()`. -/
def modelValidate (rt : Runtime) (model : RecordModel) (row : Row) : Except PyErr Row := do
  let (values, errors) ← validateFields rt model row model.fields
  if errors.isEmpty then
    let record := Dict.ofList values
    runModelValidators row ⟨record, model.attributes⟩ model.modelValidators
    pure record
  else .error (.validationError errors)

end RiskFlow
