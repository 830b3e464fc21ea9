import RiskFlow.Domain.Schema
import RiskFlow.Lib.Control

/-!
# TargetSchema — the self-validating target schema

Field definitions with type-safe constraints, date-ordering rules and SLM
hints. The `Data` structures are what pydantic reads from a document; the
validators of the source run on them and are kept as proof fields, so
every `FieldDefinition` and every `TargetSchema` has passed its own.

`modelDumpJson` and `modelValidateJson` are the two directions of the
stored form; `TargetSchema.codec` is their round trip.
-/

namespace RiskFlow

open Lib

inductive FieldType where
  | string
  | date
  | float
  | currency
  deriving DecidableEq

namespace FieldType

def value : FieldType → String
  | .string => "string"
  | .date => "date"
  | .float => "float"
  | .currency => "currency"

def ofValue? : String → Option FieldType
  | "string" => some .string
  | "date" => some .date
  | "float" => some .float
  | "currency" => some .currency
  | _ => none

@[simp] theorem ofValue?_value (t : FieldType) : ofValue? t.value = some t := by
  cases t <;> rfl

end FieldType

/-! ## Field definitions -/

structure FieldDefinitionData where
  type : FieldType
  required : Bool := true
  notEmpty : Bool := false
  nonNegative : Bool := false
  allowedValues : Option (List String) := none
  deriving DecidableEq

/-- `constraints_match_type`; an error is the message of the `ValueError`. -/
def FieldDefinitionData.constraintsMatchType (self : FieldDefinitionData) :
    Except String Unit :=
  if self.nonNegative ∧ self.type ≠ .float then
    .error ("non_negative constraint only applies to FLOAT fields, got " ++ self.type.value)
  else if self.notEmpty ∧ self.type ≠ .string then
    .error ("not_empty constraint only applies to STRING fields, got " ++ self.type.value)
  else if self.allowedValues.isSome ∧ self.type ≠ .currency then
    .error ("allowed_values constraint only applies to CURRENCY fields, got " ++ self.type.value)
  else .ok ()

/-- Definition of a single target field. -/
structure FieldDefinition extends FieldDefinitionData where
  valid : toFieldDefinitionData.constraintsMatchType = .ok () := by decide
  deriving DecidableEq

namespace FieldDefinition

/-- A required field without constraints. -/
def plain (type : FieldType) : FieldDefinition where
  type
  valid := by cases type <;> rfl

/-- A text that may not be blank. -/
def filled (required : Bool) : FieldDefinition where
  type := .string
  required
  notEmpty := true
  valid := rfl

/-- A number that may not be negative. -/
def amount (required : Bool) : FieldDefinition where
  type := .float
  required
  nonNegative := true
  valid := rfl

/-- What `constraints_match_type` leaves possible. -/
theorem constraints (d : FieldDefinition) :
    (d.nonNegative = true → d.type = .float) ∧ (d.notEmpty = true → d.type = .string) ∧
      (d.allowedValues ≠ none → d.type = .currency) := by
  have h := d.valid
  unfold FieldDefinitionData.constraintsMatchType at h
  split at h
  · cases h
  · rename_i h1
    split at h
    · cases h
    · rename_i h2
      split at h
      · cases h
      · rename_i h3
        refine ⟨?_, ?_, ?_⟩
        · intro hn
          by_contra hc
          exact h1 ⟨hn, hc⟩
        · intro hn
          by_contra hc
          exact h2 ⟨hn, hc⟩
        · intro hn
          by_contra hc
          exact h3 ⟨Option.isSome_iff_ne_none.mpr hn, hc⟩

end FieldDefinition

/-! ## Schemas -/

/-- Cross-field rule: one date must not precede another. -/
structure DateOrderingRule where
  earlier : String
  later : String
  deriving DecidableEq

/-- Maps a common source header alias to a target field. -/
structure SLMHint where
  sourceAlias : String
  target : String
  deriving DecidableEq

structure TargetSchemaData where
  name : String
  fields : Dict String FieldDefinition
  crossFieldRules : List DateOrderingRule := []
  slmHints : List SLMHint := []
  deriving DecidableEq

namespace TargetSchemaData

/-- The two checks on one field a rule refers to. -/
def checkRuleRef (self : TargetSchemaData) (fieldRef : String) : Except String Unit :=
  match self.fields.get? fieldRef with
  | none => .error ("Cross-field rule references '" ++ fieldRef ++
      "' but schema only has fields: " ++ Py.reprStrs (Py.sorted self.fields.keys))
  | some defn =>
      if defn.type ≠ .date then
        .error ("Cross-field rule references '" ++ fieldRef ++ "' which is " ++ defn.type.value ++
          ", not DATE")
      else .ok ()

/-- `cross_field_rules_reference_valid_date_fields`. -/
def crossFieldRulesReferenceValidDateFields (self : TargetSchemaData) : Except String Unit :=
  self.crossFieldRules.forM fun rule =>
    if rule.earlier = rule.later then
      .error ("Cross-field rule has same field '" ++ rule.earlier ++ "' as both earlier and later")
    else do
      self.checkRuleRef rule.earlier
      self.checkRuleRef rule.later

/-- `slm_hints_valid_and_unique`. -/
def slmHintsValidAndUnique (self : TargetSchemaData) : Except String Unit := do
  self.slmHints.forM fun hint =>
    if hint.target ∉ self.fields.keys then
      .error ("SLM hint target '" ++ hint.target ++ "' not in schema fields: " ++
        Py.reprStrs (Py.sorted self.fields.keys))
    else pure ()
  let aliases := self.slmHints.map SLMHint.sourceAlias
  if aliases.length ≠ aliases.dedup.length then
    .error ("SLM hints contain duplicate source aliases: " ++
      Py.reprStrs (Py.sorted (aliases.filter fun a => 1 < aliases.count a).dedup))
  else pure ()

end TargetSchemaData

/-- A complete target schema definition. -/
structure TargetSchema extends TargetSchemaData where
  rulesValid : toTargetSchemaData.crossFieldRulesReferenceValidDateFields = .ok () := by decide
  hintsValid : toTargetSchemaData.slmHintsValidAndUnique = .ok () := by decide
  deriving DecidableEq

namespace TargetSchema

/-- `field_names`. -/
def fieldNames (s : TargetSchema) : List String := s.fields.keys

theorem checkRuleRef_ok {s : TargetSchemaData} {r : String} (h : s.checkRuleRef r = .ok ()) :
    ∃ defn, s.fields.get? r = some defn ∧ defn.type = .date := by
  unfold TargetSchemaData.checkRuleRef at h
  split at h
  · cases h
  · rename_i defn hd
    split at h
    · cases h
    · rename_i ht
      exact ⟨defn, hd, not_not.mp ht⟩

/-- **A rule of an accepted schema orders two distinct DATE fields.** -/
theorem rule_fields (s : TargetSchema) {rule : DateOrderingRule} (h : rule ∈ s.crossFieldRules) :
    rule.earlier ≠ rule.later ∧
      (∃ defn, s.fields.get? rule.earlier = some defn ∧ defn.type = .date) ∧
      ∃ defn, s.fields.get? rule.later = some defn ∧ defn.type = .date := by
  have hr := forM_eq_ok.mp s.rulesValid rule h
  split at hr
  · cases hr
  · rename_i hne
    cases he : s.checkRuleRef rule.earlier with
    | error e => simp [he, bind, Except.bind] at hr
    | ok u =>
        simp only [he, bind, Except.bind] at hr
        exact ⟨hne, checkRuleRef_ok he, checkRuleRef_ok hr⟩

/-! ## The fingerprint -/

/-- One field definition as `json.dumps(…, sort_keys=True)` writes it. -/
def sortedFieldJson (d : FieldDefinition) : Json :=
  .obj [("allowed_values", match d.allowedValues with
      | none => .null
      | some vs => .arr (vs.map .str)),
    ("non_negative", .bool d.nonNegative), ("not_empty", .bool d.notEmpty),
    ("required", .bool d.required), ("type", .str d.type.value)]

/-- The payload of `fingerprint`: everything but the name, every object's
keys sorted. -/
def fingerprintPayload (s : TargetSchema) : Json :=
  .obj [("cross_field_rules", .arr (s.crossFieldRules.map fun r =>
      .obj [("earlier", .str r.earlier), ("later", .str r.later)])),
    ("fields", .obj ((s.fields.entries.insertionSort fun a b => a.1 ≤ b.1).map fun kv =>
      (kv.1, sortedFieldJson kv.2))),
    ("slm_hints", .arr (s.slmHints.map fun h =>
      .obj [("source_alias", .str h.sourceAlias), ("target", .str h.target)]))]

/-- `fingerprint`. -/
def fingerprint (rt : Runtime) (s : TargetSchema) : String := rt.blake2b s.fingerprintPayload

end TargetSchema

/-! ## The stored form -/

/-- Why a document is no schema: pydantic's own checks on its shape
refuse it, or a validator raises with a message. -/
inductive ValidationFailure where
  | shape
  | message (msg : String)
  deriving DecidableEq

/-- The shape checks: `none` is a failed one. -/
def needShape {α : Type} : Option α → Except ValidationFailure α
  | some a => .ok a
  | none => .error .shape

/-- pydantic's lax `bool`: JSON booleans, 0 and 1, and the usual words. -/
def laxBool : Json → Option Bool
  | .bool b => some b
  | .int 0 => some false
  | .int 1 => some true
  | .float (.finite q) => if q = 0 then some false else if q = 1 then some true else none
  | .str s =>
      let word := String.ofList (s.toList.map Char.toLower)
      if word ∈ ["0", "off", "f", "false", "n", "no"] then some false
      else if word ∈ ["1", "on", "t", "true", "y", "yes"] then some true
      else none
  | _ => none

/-- A boolean member with its default. -/
def boolMember (j : Json) (name : String) (default : Bool) : Option Bool :=
  match j.field name with
  | none => some default
  | some v => laxBool v

namespace FieldDefinition

def allowedValuesCodec : Codec (Option (List String)) :=
  Codec.option (Codec.list Codec.str) (fun _ h => by cases h)

def modelDumpJson (d : FieldDefinition) : Json :=
  .obj [("type", .str d.type.value), ("required", .bool d.required),
    ("not_empty", .bool d.notEmpty), ("non_negative", .bool d.nonNegative),
    ("allowed_values", allowedValuesCodec.encode d.allowedValues)]

/-- The members of a field definition, with the defaults of the absent ones. -/
def dataOfJson (j : Json) : Option FieldDefinitionData := do
  let type ← FieldType.ofValue? (← (← j.field "type").asStr)
  let required ← boolMember j "required" true
  let notEmpty ← boolMember j "not_empty" false
  let nonNegative ← boolMember j "non_negative" false
  let allowedValues ← match j.field "allowed_values" with
    | none => some none
    | some v => allowedValuesCodec.decode v
  some { type, required, notEmpty, nonNegative, allowedValues }

def modelValidate (j : Json) : Except ValidationFailure FieldDefinition := do
  let data ← needShape (dataOfJson j)
  match h : data.constraintsMatchType with
  | .error msg => .error (.message msg)
  | .ok () => .ok { toFieldDefinitionData := data, valid := h }

theorem dataOfJson_dump (d : FieldDefinition) :
    dataOfJson d.modelDumpJson = some d.toFieldDefinitionData := by
  simp [dataOfJson, modelDumpJson, Json.field, Json.lookupLast, boolMember, laxBool,
    Codec.decode_encode]

theorem modelValidate_dump (d : FieldDefinition) :
    modelValidate d.modelDumpJson = .ok d := by
  have hd := d.valid
  simp only [modelValidate, dataOfJson_dump, needShape, bind, Except.bind]
  split
  · rename_i msg h
    rw [hd] at h
    cases h
  · rfl

def codec : Codec FieldDefinition where
  encode := modelDumpJson
  decode j := (modelValidate j).toOption
  decode_encode d := by simp [modelValidate_dump, Except.toOption]

end FieldDefinition

def DateOrderingRule.codec : Codec DateOrderingRule where
  encode r := .obj [("earlier", .str r.earlier), ("later", .str r.later)]
  decode j := do
    let earlier ← (← j.field "earlier").asStr
    let later ← (← j.field "later").asStr
    some { earlier, later }
  decode_encode r := by simp [Json.field, Json.lookupLast]

def SLMHint.codec : Codec SLMHint where
  encode h := .obj [("source_alias", .str h.sourceAlias), ("target", .str h.target)]
  decode j := do
    let sourceAlias ← (← j.field "source_alias").asStr
    let target ← (← j.field "target").asStr
    some { sourceAlias, target }
  decode_encode h := by simp [Json.field, Json.lookupLast]

namespace TargetSchema

/-- `model_dump_json`. -/
def modelDumpJson (s : TargetSchema) : Json :=
  .obj [("name", .str s.name),
    ("fields", (Codec.pairs FieldDefinition.codec).encode s.fields.entries),
    ("cross_field_rules", (Codec.list DateOrderingRule.codec).encode s.crossFieldRules),
    ("slm_hints", (Codec.list SLMHint.codec).encode s.slmHints)]

/-- A list member, empty when absent. -/
def listMember {α : Type} (c : Codec α) (j : Json) (name : String) : Option (List α) :=
  match j.field name with
  | none => some []
  | some v => (Codec.list c).decode v

/-- The members of a schema document. A field definition that fails its
own validator fails here. -/
def dataOfJson (j : Json) : Except ValidationFailure TargetSchemaData := do
  let name ← needShape ((j.field "name").bind Json.asStr)
  let members ← needShape ((j.field "fields").bind Json.asObj)
  let fields ← members.mapM fun kv => (FieldDefinition.modelValidate kv.2).map (Prod.mk kv.1)
  let crossFieldRules ← needShape (listMember DateOrderingRule.codec j "cross_field_rules")
  let slmHints ← needShape (listMember SLMHint.codec j "slm_hints")
  pure { name, fields := Dict.ofList fields, crossFieldRules, slmHints }

/-- The two `mode="after"` validators, in source order. -/
def validate (data : TargetSchemaData) : Except ValidationFailure TargetSchema :=
  match hr : data.crossFieldRulesReferenceValidDateFields with
  | .error msg => .error (.message msg)
  | .ok () =>
      match hh : data.slmHintsValidAndUnique with
      | .error msg => .error (.message msg)
      | .ok () => .ok { toTargetSchemaData := data, rulesValid := hr, hintsValid := hh }

/-- `TargetSchema.model_validate` on a JSON document. -/
def modelValidate (j : Json) : Except ValidationFailure TargetSchema :=
  (dataOfJson j).bind validate

theorem mapM_modelValidate_dump (l : List (String × FieldDefinition)) :
    (l.map fun kv => (kv.1, kv.2.modelDumpJson)).mapM
        (fun kv => (FieldDefinition.modelValidate kv.2).map (Prod.mk kv.1)) =
      (.ok l : Except ValidationFailure _) := by
  induction l with
  | nil => rfl
  | cons kv rest ih =>
      rw [List.map_cons, List.mapM_cons, ih, FieldDefinition.modelValidate_dump]
      rfl

theorem dataOfJson_dump (s : TargetSchema) :
    dataOfJson s.modelDumpJson = .ok s.toTargetSchemaData := by
  have hf := mapM_modelValidate_dump s.fields.entries
  have hpairs : (Codec.pairs FieldDefinition.codec).encode s.fields.entries =
      .obj (s.fields.entries.map fun kv => (kv.1, kv.2.modelDumpJson)) := rfl
  simp [dataOfJson, modelDumpJson, Json.field, Json.lookupLast, needShape, hpairs, hf,
    listMember, Codec.decode_encode, bind, Except.bind, pure, Except.pure]

theorem validate_self (s : TargetSchema) : validate s.toTargetSchemaData = .ok s := by
  have hr := s.rulesValid
  have hh := s.hintsValid
  unfold validate
  split
  · rename_i msg h
    rw [hr] at h
    cases h
  · split
    · rename_i msg h
      rw [hh] at h
      cases h
    · rfl

/-- **A dumped schema validates to itself.** -/
theorem modelValidate_dump (s : TargetSchema) : modelValidate s.modelDumpJson = .ok s := by
  simp [modelValidate, dataOfJson_dump, Except.bind, validate_self]

/-- The stored form of a schema; `decode` is `model_validate_json`, its
`ValueError` as `none`. -/
def codec : Codec TargetSchema where
  encode := modelDumpJson
  decode j := (modelValidate j).toOption
  decode_encode s := by simp [modelValidate_dump, Except.toOption]

end TargetSchema

/-! ## The built-in schema -/

/-- `DEFAULT_TARGET_SCHEMA`. -/
def defaultTargetSchema : TargetSchema where
  name := "standard_reinsurance"
  fields := .ofList [
    ("Policy_ID", { type := .string, notEmpty := true }),
    ("Inception_Date", { type := .date }),
    ("Expiry_Date", { type := .date }),
    ("Sum_Insured", { type := .float, nonNegative := true }),
    ("Gross_Premium", { type := .float, nonNegative := true }),
    ("Currency", { type := .currency, allowedValues := some ["USD", "GBP", "EUR", "JPY"] })]
  crossFieldRules := [{ earlier := "Inception_Date", later := "Expiry_Date" }]
  slmHints := [
    { sourceAlias := "GWP", target := "Gross_Premium" },
    { sourceAlias := "TSI", target := "Sum_Insured" },
    { sourceAlias := "Ccy", target := "Currency" },
    { sourceAlias := "Certificate", target := "Policy_ID" }]

end RiskFlow
