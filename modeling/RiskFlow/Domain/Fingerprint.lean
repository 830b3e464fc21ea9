import RiskFlow.Domain.AcceptedRecords
import RiskFlow.Lib.JsonText

/-!
# Fingerprint — which schemas share a fingerprint

A fingerprint is a hash of the text of the schema without its name, the
keys of every object sorted. So the order of the fields is gone, and the
order of their validation with it: for an accepted record and for the
errors of a refused row it makes no difference, for the exception that two
fields race to raise it does.
-/

namespace RiskFlow

open Lib

/-! ## The payload -/

/-- The same field definitions as finite maps, the same rules, the same hints. -/
def TargetSchema.SameContent (s t : TargetSchema) : Prop :=
  (∀ name, s.fields.get? name = t.fields.get? name) ∧
    s.crossFieldRules = t.crossFieldRules ∧ s.slmHints = t.slmHints

namespace TargetSchema

theorem sortedFieldJson_inj {d e : FieldDefinition} (h : sortedFieldJson d = sortedFieldJson e) :
    d = e := by
  have hstr : Function.Injective Json.str := fun _ _ => Json.str.inj
  obtain ⟨⟨dtype, dreq, dne, dnn, dallowed⟩, dvalid⟩ := d
  obtain ⟨⟨etype, ereq, ene, enn, eallowed⟩, evalid⟩ := e
  simp only [sortedFieldJson, Json.obj.injEq, List.cons.injEq, Prod.mk.injEq, true_and,
    Json.bool.injEq, Json.str.injEq, and_true] at h
  obtain ⟨hallowed, rfl, rfl, rfl, htype⟩ := h
  have htype : dtype = etype := by
    have hvalues := congrArg FieldType.ofValue? htype
    simpa using hvalues
  have hallowed : dallowed = eallowed := by
    cases dallowed with
    | none => cases eallowed with
        | none => rfl
        | some _ => simp at hallowed
    | some vs => cases eallowed with
        | none => simp at hallowed
        | some ws => simpa [hstr.eq_iff, List.map_inj_right hstr] using hallowed
  subst htype hallowed
  rfl

/-- **Payloads are equal for the same content.** -/
theorem fingerprintPayload_eq_iff {s t : TargetSchema} :
    s.fingerprintPayload = t.fingerprintPayload ↔ s.SameContent t := by
  have hrules : Function.Injective fun r : DateOrderingRule =>
      Json.obj [("earlier", .str r.earlier), ("later", .str r.later)] := by
    rintro ⟨a, b⟩ ⟨c, d⟩ h
    simpa using h
  have hhints : Function.Injective fun h : SLMHint =>
      Json.obj [("source_alias", .str h.sourceAlias), ("target", .str h.target)] := by
    rintro ⟨a, b⟩ ⟨c, d⟩ h
    simpa using h
  have hfields : Function.Injective fun kv : String × FieldDefinition =>
      (kv.1, sortedFieldJson kv.2) := by
    intro kv kv' h
    obtain ⟨hname, hjson⟩ := Prod.mk.inj h
    exact Prod.ext hname (sortedFieldJson_inj hjson)
  simp only [fingerprintPayload, Json.obj.injEq, List.cons.injEq, Prod.mk.injEq, true_and,
    Json.arr.injEq, List.map_inj_right hrules, List.map_inj_right hhints,
    List.map_inj_right hfields, and_true, Dict.sortedEntries_eq_iff, SameContent]
  tauto

theorem fingerprintPayload_numberFree (s : TargetSchema) :
    JsonText.NumberFree s.fingerprintPayload := by
  simp only [fingerprintPayload, JsonText.NumberFree, JsonText.MembersNumberFree,
    JsonText.allNumberFree_iff, JsonText.membersNumberFree_iff, List.forall_mem_map, and_true]
  refine ⟨by simp, fun kv _ => ?_, by simp⟩
  simp only [sortedFieldJson, JsonText.NumberFree, JsonText.MembersNumberFree, and_true]
  cases kv.2.allowedValues with
  | none => exact trivial
  | some vs => simp [JsonText.NumberFree, JsonText.allNumberFree_iff]

/-- BLAKE2b of the text of a document, as a hash function of texts. -/
def HashesText (rt : Runtime) (hash : String → String) : Prop :=
  ∀ s : TargetSchema,
    rt.blake2b s.fingerprintPayload =
      hash (String.ofList (JsonText.text rt.reprFloat s.fingerprintPayload))

/-- **Fingerprints are equal for the same content.** -/
theorem fingerprint_eq_iff {rt : Runtime} {hash : String → String}
    (htext : HashesText rt hash) (hinj : Function.Injective hash) {s t : TargetSchema} :
    s.fingerprint rt = t.fingerprint rt ↔ s.SameContent t := by
  rw [fingerprint, fingerprint, htext, htext, hinj.eq_iff, String.ofList_inj,
    ← fingerprintPayload_eq_iff]
  constructor
  · exact JsonText.text_inj s.fingerprintPayload_numberFree t.fingerprintPayload_numberFree
  · intro h
    rw [h]

end TargetSchema

/-! ## The outcome of a row -/

/-- The class of an exception. -/
def PyErr.className : PyErr → String
  | .validationError _ => "ValidationError"
  | .valueError _ => "ValueError"
  | .typeError _ => "TypeError"
  | .attributeError _ => "AttributeError"
  | .duplicateError _ => "DuplicateError"
  | .noDataError _ => "NoDataError"
  | .fileNotFoundError _ => "FileNotFoundError"
  | .mappingConfidenceLowError _ => "MappingConfidenceLowError"
  | .invalidCedentDataError _ => "InvalidCedentDataError"
  | .schemaValidationError _ => "SchemaValidationError"
  | .slmUnavailableError _ => "SLMUnavailableError"
  | .invalidSchemaError _ => "InvalidSchemaError"
  | .invalidCorrectionError _ => "InvalidCorrectionError"
  | .otherException cls _ => cls
  | .baseException cls => cls

/-- Both accept with the same values, or both raise the same class of
exception; a row that is rejected raises `ValidationError`. -/
def SameKind : Except PyErr Row → Except PyErr Row → Prop
  | .ok record, .ok record' => ∀ name, record.get? name = record'.get? name
  | .error e, .error e' => e.className = e'.className
  | _, _ => False

/-- The class of what dateutil raises on a date text, when `coerce_date` comes to
it and pydantic lets it through. -/
def dateFault (rt : Runtime) (s : String) : Option String :=
  if Py.isBlank s = false ∧ rt.fromisoformat (Py.strip s) = none ∧
      (yyyySlashPattern (Py.strip s)).bind dateOfGroups = none then
    match rt.dateutilParse (Py.strip s) with
    | .error (.other cls _) => if cls = "AssertionError" then none else some cls
    | _ => none
  else none

/-- The class of what a field raises on its cell: a constraint on an explicit
null, or dateutil on a text. -/
def fieldFault (rt : Runtime) (row : Row) (name : String) (defn : FieldDefinition) :
    Option String :=
  match row.get? name with
  | some .none =>
      if defn.required then none
      else if defn.nonNegative then some "TypeError"
      else if defn.notEmpty then some "AttributeError"
      else none
  | some (.str s) => if defn.type = .date then dateFault rt s else none
  | _ => none

/-- The first such class, in the order of the fields. -/
def firstFault (rt : Runtime) (schema : TargetSchema) (row : Row) : Option String :=
  (modelFields schema).entries.findSome? fun kv => fieldFault rt row kv.1 kv.2

section Fault
variable {rt : Runtime} {schema : TargetSchema} {name : String} {defn : FieldDefinition}
  {row : Row}

theorem dateFault_eq_some_iff {s cls : String} :
    dateFault rt s = some cls ↔ ∃ e, CoerceFault rt (.str s) e ∧ e.className = cls := by
  unfold dateFault CoerceFault
  constructor
  · intro h
    split at h
    · rename_i hasks
      split at h
      · rename_i cls' msg hraised
        split at h
        · cases h
        · rename_i hclass
          cases h
          refine ⟨.otherException cls msg, ⟨s, rfl, ⟨hasks.1, hasks.2, cls, msg, hraised, rfl⟩, ?_⟩,
            rfl⟩
          simp [PyErr.collected, hclass]
      · cases h
    · cases h
  · rintro ⟨e, ⟨s', hs, ⟨hblank, hasks, cls', msg, hraised, rfl⟩, hcollected⟩, rfl⟩
    cases hs
    rw [if_pos ⟨hblank, hasks⟩, hraised]
    dsimp only
    rw [if_neg]
    · rfl
    · intro hclass
      simp [PyErr.collected, hclass] at hcollected

/-- What a field raises has the class of its fault. -/
theorem fieldFault_of_raised {e : PyErr} (hget : (modelFields schema).get? name = some defn)
    (h : validateField rt (recordClass rt schema) row
      { name, type := defn.type, required := defn.required } = .raised e) :
    fieldFault rt row name defn = some e.className := by
  obtain ⟨v, hcell, hcheck | ⟨w, hchecked, hraised⟩⟩ := validateField_raised.mp h
  · obtain ⟨hdate, hfault⟩ := checkCell_raised_iff.mp hcheck
    obtain ⟨s, rfl, _⟩ := id hfault
    dsimp only at hcell hdate
    simp [fieldFault, hcell, hdate, dateFault_eq_some_iff.mpr ⟨e, hfault, rfl⟩]
  · rw [recordClass_validators hget] at hraised
    rcases checkCell_ok hchecked with ⟨rfl, hopt, rfl⟩ | htyped
    · dsimp only at hcell hopt
      have hcons := null_raised_iff.mp ⟨e, hraised⟩
      unfold attachFieldValidators at hraised
      cases hnn : defn.nonNegative with
      | true =>
          simp only [hnn, if_true, List.cons_append, runFieldValidators, checkNonNegative,
            PyErr.collected] at hraised
          cases hraised
          simp [fieldFault, hcell, hopt, hnn, PyErr.className]
      | false =>
          have hne : defn.notEmpty = true := by simpa [hnn] using hcons
          simp only [hnn, hne, Bool.false_eq_true, if_false, if_true, List.nil_append,
            List.singleton_append, runFieldValidators, checkNotEmpty, PyErr.collected] at hraised
          cases hraised
          simp [fieldFault, hcell, hopt, hnn, hne, PyErr.className]
    · exact absurd hraised (checked_not_raised htyped e)

/-- A field with a fault raises. -/
theorem raised_of_fieldFault {cls : String} (hget : (modelFields schema).get? name = some defn)
    (h : fieldFault rt row name defn = some cls) :
    ∃ e, validateField rt (recordClass rt schema) row
      { name, type := defn.type, required := defn.required } = .raised e := by
  rw [validateField_raised_iff hget rfl rfl]
  unfold fieldFault at h
  split at h
  · rename_i hcell
    cases hreq : defn.required with
    | true => simp [hreq] at h
    | false =>
        refine .inl ⟨rfl, ?_, hcell⟩
        cases hnn : defn.nonNegative with
        | true => exact .inl rfl
        | false =>
            cases hne : defn.notEmpty with
            | true => exact .inr rfl
            | false => simp [hreq, hnn, hne] at h
  · rename_i s hcell
    split at h
    · rename_i hdate
      obtain ⟨e, hfault, _⟩ := dateFault_eq_some_iff.mp h
      exact .inr ⟨hdate, _, e, hcell, hfault⟩
    · cases h
  · cases h

theorem fieldFault_eq_none (hget : (modelFields schema).get? name = some defn)
    (h : ∀ e, validateField rt (recordClass rt schema) row
      { name, type := defn.type, required := defn.required } ≠ .raised e) :
    fieldFault rt row name defn = none := by
  rw [Option.eq_none_iff_forall_ne_some]
  intro cls hcls
  obtain ⟨e, he⟩ := raised_of_fieldFault hget hcls
  exact h e he

/-- The fields raise what the first of them with a fault raises. -/
theorem validateFields_fault {entries : List (String × FieldDefinition)} {e : PyErr}
    (hentries : ∀ kv ∈ entries, (modelFields schema).get? kv.1 = some kv.2)
    (h : validateFields rt (recordClass rt schema) row
      (entries.map fun kv => { name := kv.1, type := kv.2.type, required := kv.2.required }) =
        .error e) :
    (entries.findSome? fun kv => fieldFault rt row kv.1 kv.2) = some e.className := by
  induction entries with
  | nil => cases h
  | cons kv rest ih =>
      have hget := hentries kv (by simp)
      have hrest : fieldFault rt row kv.1 kv.2 = none → validateFields rt
          (recordClass rt schema) row (rest.map fun kv =>
            { name := kv.1, type := kv.2.type, required := kv.2.required }) = .error e →
          ((kv :: rest).findSome? fun kv => fieldFault rt row kv.1 kv.2) = some e.className := by
        intro hnone htail
        rw [List.findSome?_cons, hnone]
        exact ih (fun kv' hkv' => hentries kv' (by simp [hkv'])) htail
      rw [List.map_cons, validateFields] at h
      cases hs : validateField rt (recordClass rt schema) row
          { name := kv.1, type := kv.2.type, required := kv.2.required } with
      | raised e' =>
          rw [hs] at h
          cases h
          rw [List.findSome?_cons, fieldFault_of_raised hget hs]
      | value v =>
          rw [hs] at h
          exact hrest (fieldFault_eq_none hget (by simp [hs])) (map_eq_error.mp h)
      | invalid d =>
          rw [hs] at h
          exact hrest (fieldFault_eq_none hget (by simp [hs])) (map_eq_error.mp h)

/-- No field has a fault when none raises. -/
theorem firstFault_eq_none_iff :
    firstFault rt schema row = none ↔ ∀ spec ∈ fieldSpecs schema, ∀ e,
      validateField rt (recordClass rt schema) row spec ≠ .raised e := by
  rw [firstFault, List.findSome?_eq_none_iff]
  constructor
  · intro hnone spec hmem e he
    obtain ⟨defn, hget, ht, hr⟩ := mem_fieldSpecs.mp hmem
    obtain ⟨name, type, required⟩ := spec
    dsimp only at hget ht hr
    subst ht hr
    have hfault := fieldFault_of_raised hget he
    rw [hnone _ (Dict.get?_eq_some.mp hget)] at hfault
    cases hfault
  · intro hno kv hkv
    have hget := Dict.get?_eq_some.mpr hkv
    exact fieldFault_eq_none hget (hno _ (mem_fieldSpecs.mpr ⟨kv.2, hget, rfl, rfl⟩))

/-- A row with a fault raises it. -/
theorem modelValidate_fault {cls : String} (h : firstFault rt schema row = some cls) :
    ∃ e, modelValidate rt (recordClass rt schema) row = .error e ∧ e.className = cls := by
  have hraised : ∃ spec ∈ fieldSpecs schema, ∃ e,
      validateField rt (recordClass rt schema) row spec = .raised e := by
    by_contra hno
    push Not at hno
    rw [firstFault_eq_none_iff.mpr hno] at h
    cases h
  obtain ⟨e, he⟩ := validateFields_error_iff.mpr hraised
  have hfirst := validateFields_fault (fun kv hkv => Dict.get?_eq_some.mpr hkv) he
  rw [← firstFault, h] at hfirst
  refine ⟨e, ?_, (Option.some.inj hfirst).symm⟩
  have hfields : validateFields rt (recordClass rt schema) row
      (recordClass rt schema).fields = .error e := he
  simp [modelValidate, hfields, bind, Except.bind]

/-- Without one a refused row is rejected, or the rule in force raises. -/
theorem modelValidate_no_fault {e : PyErr} (h : firstFault rt schema row = none)
    (he : modelValidate rt (recordClass rt schema) row = .error e) :
    (e.className = "TypeError" ∧ Escapes rt (recordClass rt schema) row) ∨
      (e.className = "ValidationError" ∧ ¬ Escapes rt (recordClass rt schema) row) := by
  rcases modelValidate_error he with ⟨errors, rfl⟩ | ⟨spec, hmem, hraised⟩ | ⟨_, last, _, hraised⟩
  · refine .inr ⟨rfl, ?_⟩
    rintro ⟨e, he', hkind⟩
    cases he.symm.trans he'
    cases hkind
  · exact absurd hraised (firstFault_eq_none_iff.mp h spec hmem e)
  · obtain ⟨msg, rfl⟩ := pyLess_error hraised.2.2
    exact .inl ⟨rfl, _, he, rfl⟩

end Fault

/-! ## Schemas of one content -/

section Content
variable {rt : Runtime} {s t : TargetSchema} {row : Row}

theorem TargetSchema.SameContent.symm (h : s.SameContent t) : t.SameContent s :=
  ⟨fun name => (h.1 name).symm, h.2.1.symm, h.2.2.symm⟩

theorem modelFields_sameContent (h : s.SameContent t) (name : String) :
    (modelFields s).get? name = (modelFields t).get? name := by
  rw [modelFields, modelFields, Dict.get?_filterKeys, Dict.get?_filterKeys, h.1]

theorem fieldSpecs_perm (h : s.SameContent t) : (fieldSpecs s).Perm (fieldSpecs t) :=
  (Dict.entries_perm_iff.mpr (modelFields_sameContent h)).map _

theorem inheritedDefault_sameContent (h : s.SameContent t) (name : String) :
    inheritedDefault rt s name = inheritedDefault rt t name := by
  have hentries : s.fields.entries.Perm t.fields.entries := Dict.entries_perm_iff.mpr h.1
  rw [inheritedDefault, inheritedDefault, hasValidators, hasValidators, h.2.1, hentries.any_eq]

/-- A field is validated alike under both. -/
theorem validateField_sameContent (h : s.SameContent t) {spec : FieldSpec}
    (hmem : spec ∈ fieldSpecs s) :
    validateField rt (recordClass rt s) row spec =
      validateField rt (recordClass rt t) row spec := by
  obtain ⟨defn, hget, _, _⟩ := mem_fieldSpecs.mp hmem
  have hget' := (modelFields_sameContent h spec.name).symm.trans hget
  unfold validateField
  rw [recordClass_validators hget, recordClass_validators hget', fieldDefault_recordClass hget,
    fieldDefault_recordClass hget', inheritedDefault_sameContent h]

theorem recordOf_sameContent (h : s.SameContent t) (value : FieldSpec → PyVal) (name : String) :
    (recordOf s value).get? name = (recordOf t value).get? name := by
  have hentries : ∀ schema : TargetSchema, (recordOf schema value).entries =
      (fieldSpecs schema).map fun spec => (spec.name, value spec) := by
    intro schema
    refine Dict.ofList_entries ?_
    rw [List.map_map]
    exact fieldSpecs_nodup schema
  refine Dict.entries_perm_iff.mp ?_ name
  rw [hentries, hentries]
  exact (fieldSpecs_perm h).map _

theorem hiddenName_sameContent (h : s.SameContent t) (name : String) :
    hiddenName rt s name = hiddenName rt t name := by
  rw [hiddenName, hiddenName, h.1]

theorem getAttr_sameContent (h : s.SameContent t) (value : FieldSpec → PyVal) (name : String) :
    getAttr (instanceOf rt s value) name = getAttr (instanceOf rt t value) name := by
  rw [getAttr_instance, getAttr_instance, hiddenName_sameContent h, recordOf_sameContent h]

/-- The date checks read an instance by its names. -/
theorem crossField_check_congr {rules : List DateOrderingRule} {v : ModelValidator}
    (hv : v ∈ attachCrossFieldValidators rt rules) {self self' : RecordInstance}
    (h : ∀ name, getAttr self name = getAttr self' name) : v.check self = v.check self' := by
  cases hlast : rules.getLast? with
  | none =>
      rw [List.getLast?_eq_none_iff.mp hlast] at hv
      cases hv
  | some last =>
      rw [(attached_check_last hlast).1 v hv]
      simp only [checkDateOrder, h]

/-- **What one of them accepts the other accepts with the same values.** -/
theorem modelValidate_sameContent (h : s.SameContent t) {record : Row}
    (hok : modelValidate rt (recordClass rt s) row = .ok record) :
    ∃ record', modelValidate rt (recordClass rt t) row = .ok record' ∧
      ∀ name, record.get? name = record'.get? name := by
  obtain ⟨value, hvalue, rfl, hrules⟩ := modelValidate_ok_iff.mp hok
  refine ⟨recordOf t value, modelValidate_ok_iff.mpr ⟨value, ?_, rfl, ?_⟩,
    recordOf_sameContent h value⟩
  · intro spec hspec
    have hmem := (fieldSpecs_perm h).mem_iff.mpr hspec
    rw [← validateField_sameContent h hmem, hvalue spec hmem]
  · rw [← h.2.1]
    intro v hv
    rw [← crossField_check_congr hv (getAttr_sameContent h value)]
    exact hrules v hv

theorem hasBareNull_sameContent (h : s.SameContent t) (hbare : HasBareNull s row) :
    HasBareNull t row := by
  obtain ⟨name, defn, hget, hrest⟩ := hbare
  exact ⟨name, defn, (modelFields_sameContent h name).symm.trans hget, hrest⟩

theorem shownDate_sameContent (h : s.SameContent t) (name : String) :
    shownDate rt s row name = shownDate rt t row name := by
  simp only [shownDate, fieldDate, hiddenDate, hiddenName_sameContent h,
    inheritedDefault_sameContent h, h.1]

/-- What escapes one of them escapes the other. -/
theorem escapes_sameContent (h : s.SameContent t)
    (hescapes : Escapes rt (recordClass rt s) row) : Escapes rt (recordClass rt t) row := by
  rw [escapes_iff] at hescapes ⊢
  rcases hescapes with hbare | ⟨name, defn, v, e, hget, hfault⟩ | ⟨hpass, last, e, hlast, hraised⟩
  · exact .inl (hasBareNull_sameContent h hbare)
  · exact .inr (.inl ⟨name, defn, v, e, (modelFields_sameContent h name).symm.trans hget, hfault⟩)
  · refine .inr (.inr ⟨fun spec hspec => ?_, last, e, h.2.1 ▸ hlast, ?_⟩)
    · have hmem : spec ∈ fieldSpecs s := (fieldSpecs_perm h).mem_iff.mpr hspec
      rw [← validateField_sameContent h hmem]
      exact hpass spec hmem
    · simpa only [Compares, shownDate_sameContent h] using hraised

theorem firstFault_none_sameContent (h : s.SameContent t) (hs : firstFault rt s row = none) :
    firstFault rt t row = none := by
  rw [firstFault_eq_none_iff] at hs ⊢
  intro spec hspec e
  have hmem : spec ∈ fieldSpecs s := (fieldSpecs_perm h).mem_iff.mpr hspec
  rw [← validateField_sameContent h hmem]
  exact hs spec hmem e

/-- **When the order of the fields shows in the outcome.** -/
theorem sameKind_iff (h : s.SameContent t) :
    SameKind (modelValidate rt (recordClass rt s) row) (modelValidate rt (recordClass rt t) row) ↔
      firstFault rt s row = firstFault rt t row := by
  cases hs : firstFault rt s row with
  | none =>
      have ht := firstFault_none_sameContent h hs
      refine iff_of_true ?_ ht.symm
      cases hms : modelValidate rt (recordClass rt s) row with
      | ok record =>
          obtain ⟨record', hmt, hrecord⟩ := modelValidate_sameContent h hms
          rw [hmt]
          exact hrecord
      | error e =>
          cases hmt : modelValidate rt (recordClass rt t) row with
          | ok record' =>
              obtain ⟨record, hok, _⟩ := modelValidate_sameContent h.symm hmt
              rw [hms] at hok
              cases hok
          | error e' =>
              rcases modelValidate_no_fault hs hms with ⟨hkind, hesc⟩ | ⟨hkind, hesc⟩ <;>
                rcases modelValidate_no_fault ht hmt with ⟨hkind', hesc'⟩ | ⟨hkind', hesc'⟩
              · exact hkind.trans hkind'.symm
              · exact absurd (escapes_sameContent h hesc) hesc'
              · exact absurd (escapes_sameContent h.symm hesc') hesc
              · exact hkind.trans hkind'.symm
  | some c =>
      have ht : firstFault rt t row ≠ none := by
        intro hnone
        rw [firstFault_none_sameContent h.symm hnone] at hs
        cases hs
      obtain ⟨d, hd⟩ := Option.ne_none_iff_exists'.mp ht
      obtain ⟨e, he, hclass⟩ := modelValidate_fault hs
      obtain ⟨e', he', hclass'⟩ := modelValidate_fault hd
      rw [he, he', hd, Option.some.injEq, ← hclass, ← hclass']
      exact Iff.rfl

end Content

/-- BLAKE2b as the text itself. -/
def textRuntime : Runtime :=
  { Runtime.plain with
    blake2b := fun j => String.ofList (JsonText.text Runtime.plain.reprFloat j) }

/-- An optional amount and an optional note, both constrained. -/
def amountThenNote : TargetSchema where
  name := "alpha"
  fields := .ofList [("Amount", .amount false), ("Note", .filled false)]

/-- The same fields the other way round. -/
def noteThenAmount : TargetSchema where
  name := "beta"
  fields := .ofList [("Note", .filled false), ("Amount", .amount false)]

theorem textRuntime_hashesText : TargetSchema.HashesText textRuntime id := fun _ => rfl

theorem reordered_sameContent : amountThenNote.SameContent noteThenAmount :=
  ⟨Dict.entries_perm_iff.mp (List.Perm.swap _ _ _), rfl, rfl⟩

end RiskFlow
