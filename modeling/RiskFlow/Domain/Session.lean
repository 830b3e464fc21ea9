import RiskFlow.Domain.Schema
import RiskFlow.Python.Json

/-!
# Session — interactive mapping sessions

A session is uploaded, edited and finalised: CREATED → FINALISED. The
three operations check that it is still CREATED. `encode` and `decode`
are the stored form, in which the rows keep their JSON image only.
-/

namespace RiskFlow

open Lib

inductive SessionStatus where
  | created
  | finalised
  deriving DecidableEq

namespace SessionStatus

def value : SessionStatus → String
  | .created => "created"
  | .finalised => "finalised"

def ofValue? : String → Option SessionStatus
  | "created" => some .created
  | "finalised" => some .finalised
  | _ => none

@[simp] theorem ofValue?_value (s : SessionStatus) : ofValue? s.value = some s := by
  cases s <;> rfl

end SessionStatus

/-- Tracks state for an interactive mapping workflow. -/
structure MappingSession where
  id : String
  status : SessionStatus
  schemaName : String
  filePath : String
  sheetName : Option String
  sourceHeaders : List String
  targetFields : List String
  mappings : List ColumnMapping
  unmappedHeaders : List String
  previewRows : List Row
  result : Option Row := none

namespace MappingSession

/-! ## Operations -/

/-- `update_mappings`. -/
def updateMappings (self : MappingSession) (mappings : List ColumnMapping)
    (unmappedHeaders : List String) : Except PyErr MappingSession :=
  if self.status = .finalised then
    .error (.valueError "Cannot update mappings on a FINALISED session")
  else
    match mappings.find? fun m => m.targetField ∉ self.targetFields with
    | some m =>
        .error (.valueError ("Target field '" ++ m.targetField ++ "' not in target fields: " ++
          Py.reprStrs (Py.sorted self.targetFields.dedup)))
    | none =>
        let dupes := (duplicateTargets mappings).dedup
        if dupes ≠ [] then
          .error (.valueError ("Duplicate target fields: " ++ Py.reprStrs (Py.sorted dupes)))
        else .ok { self with mappings, unmappedHeaders }

/-- One round of the loop over the new fields. -/
def appendField (targetFields : List String) (f : String) : List String :=
  if f ∈ targetFields then targetFields else targetFields ++ [f]

/-- The loop that appends the fields not there yet. -/
def appendFields (targetFields fields : List String) : List String :=
  fields.foldl appendField targetFields

/-- `extend_target_fields`. -/
def extendTargetFields (self : MappingSession) (fields : List String) :
    Except PyErr MappingSession :=
  if self.status = .finalised then
    .error (.valueError "Cannot extend target fields on a FINALISED session")
  else if fields.isEmpty then .error (.valueError "Must provide at least one field")
  else if fields.any Py.isBlank then .error (.valueError "Field names must not be empty")
  else .ok { self with targetFields := appendFields self.targetFields fields }

/-- `finalise`. -/
def finalise (self : MappingSession) (result : Row) : Except PyErr MappingSession :=
  if self.status = .finalised then
    .error (.valueError "Cannot finalise a FINALISED session")
  else .ok { self with status := .finalised, result := some result }

theorem mem_appendField {targetFields : List String} {f g : String} :
    f ∈ appendField targetFields g ↔ f ∈ targetFields ∨ f = g := by
  unfold appendField
  split
  · rename_i hg
    exact ⟨.inl, fun h => h.elim (fun hf => hf) fun hf => hf ▸ hg⟩
  · simp

/-- Extending keeps the fields and adds the new ones. -/
theorem mem_appendFields {targetFields fields : List String} {f : String} :
    f ∈ appendFields targetFields fields ↔ f ∈ targetFields ∨ f ∈ fields := by
  induction fields generalizing targetFields with
  | nil => simp [appendFields]
  | cons g rest ih =>
      rw [appendFields, List.foldl_cons, ← appendFields, ih, mem_appendField, List.mem_cons,
        or_assoc]

theorem appendField_nodup {fields : List String} (f : String) (h : fields.Nodup) :
    (appendField fields f).Nodup := by
  unfold appendField
  split
  · exact h
  · rename_i hf
    exact h.append (List.nodup_singleton f) (List.disjoint_singleton.mpr hf)

/-- Extending keeps the fields distinct, repeated requests included. -/
theorem appendFields_nodup {targetFields : List String} (fields : List String)
    (h : targetFields.Nodup) : (appendFields targetFields fields).Nodup := by
  induction fields generalizing targetFields with
  | nil => exact h
  | cons f rest ih => exact ih (appendField_nodup f h)

/-- Extending only appends. -/
theorem appendFields_starts (targetFields fields : List String) :
    targetFields <+: appendFields targetFields fields := by
  induction fields generalizing targetFields with
  | nil => exact List.prefix_refl _
  | cons f rest ih =>
      have hround : targetFields <+: appendField targetFields f := by
        unfold appendField
        split
        · exact List.prefix_refl _
        · exact List.prefix_append _ _
      exact hround.trans (ih _)

theorem status_created {s : MappingSession} (h : ¬ s.status = .finalised) :
    s.status = .created := by
  cases hstatus : s.status with
  | created => rfl
  | finalised => exact absurd hstatus h

/-- An accepted update has passed every check. -/
theorem updateMappings_passed {s s' : MappingSession} {mappings : List ColumnMapping}
    {unmapped : List String} (h : s.updateMappings mappings unmapped = .ok s') :
    s.status = .created ∧ (∀ m ∈ mappings, m.targetField ∈ s.targetFields) ∧
      (mappings.map ColumnMapping.targetField).Nodup ∧
      s' = { s with mappings, unmappedHeaders := unmapped } := by
  unfold updateMappings at h
  split at h
  · cases h
  · rename_i hs
    split at h
    · cases h
    · rename_i hfound
      dsimp only at h
      split at h
      · cases h
      · rename_i hdupes
        cases h
        have hdedup := not_not.mp hdupes
        rw [List.dedup_eq_nil] at hdedup
        refine ⟨status_created hs, fun m hm => ?_, duplicateTargets_eq_nil.mp hdedup, rfl⟩
        have hknown := List.find?_eq_none.mp hfound m hm
        simpa using hknown

/-- What an accepted update is. -/
theorem updateMappings_ok {s s' : MappingSession} {mappings : List ColumnMapping}
    {unmapped : List String} (h : s.updateMappings mappings unmapped = .ok s') :
    s.status = .created ∧ s' = { s with mappings, unmappedHeaders := unmapped } := by
  obtain ⟨hs, _, _, hs'⟩ := updateMappings_passed h
  exact ⟨hs, hs'⟩

/-- The sessions differ at most in their mappings and unmapped headers. -/
def SameButMappings (s t : MappingSession) : Prop :=
  { s with mappings := t.mappings, unmappedHeaders := t.unmappedHeaders } = t

/-- An update overwrites what it does not look at. -/
theorem updateMappings_congr {s t : MappingSession} {mappings : List ColumnMapping}
    {unmapped : List String} (h : SameButMappings s t) :
    s.updateMappings mappings unmapped = t.updateMappings mappings unmapped := by
  obtain ⟨⟩ := s
  obtain ⟨⟩ := t
  have heq : MappingSession.mk _ _ _ _ _ _ _ _ _ _ _ = _ := h
  cases heq
  rfl

theorem extendTargetFields_ok {s s' : MappingSession} {fields : List String}
    (h : s.extendTargetFields fields = .ok s') :
    s.status = .created ∧ s' = { s with targetFields := appendFields s.targetFields fields } := by
  unfold extendTargetFields at h
  split at h
  · cases h
  · rename_i hs
    split at h
    · cases h
    · split at h
      · cases h
      · cases h
        exact ⟨status_created hs, rfl⟩

theorem finalise_ok {s s' : MappingSession} {result : Row} (h : s.finalise result = .ok s') :
    s.status = .created ∧ s' = { s with status := .finalised, result := some result } := by
  unfold finalise at h
  split at h
  · cases h
  · rename_i hs
    cases h
    exact ⟨status_created hs, rfl⟩

/-! ## The stored form -/

def optStrJson : Option String → Json
  | none => .null
  | some s => .str s

def optStrOfJson : Json → Option (Option String)
  | .null => some none
  | .str s => some (some s)
  | _ => none

def optRowJson : Option Row → Json
  | none => .null
  | some row => encodeRow row

def optRowOfJson : Json → Option (Option Row)
  | .null => some none
  | j => (decodeRow j).map some

/-- `model_dump_json`. -/
def encode (s : MappingSession) : Json :=
  .obj [("id", .str s.id), ("status", .str s.status.value), ("schema_name", .str s.schemaName),
    ("file_path", .str s.filePath), ("sheet_name", optStrJson s.sheetName),
    ("source_headers", (Codec.list Codec.str).encode s.sourceHeaders),
    ("target_fields", (Codec.list Codec.str).encode s.targetFields),
    ("mappings", (Codec.list ColumnMapping.codec).encode s.mappings),
    ("unmapped_headers", (Codec.list Codec.str).encode s.unmappedHeaders),
    ("preview_rows", .arr (s.previewRows.map encodeRow)), ("result", optRowJson s.result)]

/-- `model_validate_json`, its `ValueError` as `none`. -/
def decode (j : Json) : Option MappingSession := do
  let id ← (← j.field "id").asStr
  let status ← SessionStatus.ofValue? (← (← j.field "status").asStr)
  let schemaName ← (← j.field "schema_name").asStr
  let filePath ← (← j.field "file_path").asStr
  let sheetName ← optStrOfJson (← j.field "sheet_name")
  let sourceHeaders ← (Codec.list Codec.str).decode (← j.field "source_headers")
  let targetFields ← (Codec.list Codec.str).decode (← j.field "target_fields")
  let mappings ← (Codec.list ColumnMapping.codec).decode (← j.field "mappings")
  let unmappedHeaders ← (Codec.list Codec.str).decode (← j.field "unmapped_headers")
  let previewRows ← (← (← j.field "preview_rows").asArr).mapM decodeRow
  let result ← optRowOfJson ((j.field "result").getD .null)
  pure (MappingSession.mk id status schemaName filePath sheetName sourceHeaders targetFields
    mappings unmappedHeaders previewRows result)

/-- A session after it has been written and read: its rows are what JSON keeps of them. -/
def stored (s : MappingSession) : MappingSession :=
  { s with previewRows := s.previewRows.map storedRow, result := s.result.map storedRow }

@[simp] theorem optStrOfJson_optStrJson (s : Option String) :
    optStrOfJson (optStrJson s) = some s := by
  cases s <;> rfl

@[simp] theorem optRowOfJson_optRowJson (row : Option Row) :
    optRowOfJson (optRowJson row) = some (row.map storedRow) := by
  cases row <;> rfl

/-- **A stored session reads back as its JSON image.** -/
theorem decode_encode (s : MappingSession) : decode s.encode = some s.stored := by
  have hrows : (s.previewRows.map encodeRow).mapM decodeRow = some (s.previewRows.map storedRow) :=
    mapM_map_eq_some fun row _ => decodeRow_encodeRow row
  simp [decode, encode, stored, Json.field, Json.lookupLast, Codec.decode_encode, hrows]

end MappingSession

end RiskFlow
