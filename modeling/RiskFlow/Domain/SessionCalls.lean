import RiskFlow.Domain.Session
import RiskFlow.Lib.Method

/-!
# SessionCalls — calls on a session object

The three operations as the source has them, statement by statement on one
object: what was assigned before an exception stays assigned. Each of them
checks everything first, so it does what the function of `Session` computes
or nothing; from that, what any sequence of calls does to a session.
-/

namespace RiskFlow

open Lib Method

namespace MappingSession

/-! ## The operations in place -/

namespace InPlace

/-- `update_mappings`. -/
def updateMappings (mappings : List ColumnMapping) (unmappedHeaders : List String) :
    Method PyErr MappingSession Unit := do
  let self ← get
  if self.status = .finalised then
    throw (.valueError "Cannot update mappings on a FINALISED session")
  mappings.forM fun m =>
    if m.targetField ∉ self.targetFields then
      throw (.valueError ("Target field '" ++ m.targetField ++ "' not in target fields: " ++
        Py.reprStrs (Py.sorted self.targetFields.dedup)))
    else pure ()
  let dupes := (duplicateTargets mappings).dedup
  if dupes ≠ [] then
    throw (.valueError ("Duplicate target fields: " ++ Py.reprStrs (Py.sorted dupes)))
  modify fun self => { self with mappings }
  modify fun self => { self with unmappedHeaders }

/-- One round of the second loop of `extend_target_fields`; the local set is a
list of its members. -/
def extendRound (existing : List String) (f : String) :
    Method PyErr MappingSession (List String) :=
  if f ∉ existing then do
    modify fun self => { self with targetFields := self.targetFields ++ [f] }
    pure (existing ++ [f])
  else pure existing

/-- `extend_target_fields`. -/
def extendTargetFields (fields : List String) : Method PyErr MappingSession Unit := do
  let self ← get
  if self.status = .finalised then
    throw (.valueError "Cannot extend target fields on a FINALISED session")
  if fields.isEmpty then throw (.valueError "Must provide at least one field")
  fields.forM fun f =>
    if f = "" ∨ Py.isBlank f = true then throw (.valueError "Field names must not be empty")
    else pure ()
  let _existing ← fields.foldlM extendRound self.targetFields
  pure ()

/-- `finalise`. -/
def finalise (result : Row) : Method PyErr MappingSession Unit := do
  let self ← get
  if self.status = .finalised then
    throw (.valueError "Cannot finalise a FINALISED session")
  modify fun self => { self with status := .finalised }
  modify fun self => { self with result := some result }

end InPlace

/-! ### Each checks before it assigns -/

theorem updateMappings_computes (mappings : List ColumnMapping) (unmapped : List String) :
    Computes (InPlace.updateMappings mappings unmapped)
      fun s => s.updateMappings mappings unmapped := by
  intro s
  unfold InPlace.updateMappings MappingSession.updateMappings
  simp only [call_bind, call_get]
  by_cases hfinal : s.status = .finalised
  · simp [hfinal]
  · simp only [hfinal, if_false, call_bind, call_forM_check]
    cases hfind : mappings.find? fun m => decide (m.targetField ∉ s.targetFields) with
    | some m => simp
    | none =>
        by_cases hdupes : (duplicateTargets mappings).dedup = []
        · simp [hdupes]
        · simp [hdupes]

/-- The second loop appends what is not there yet. -/
theorem extendRounds (fields : List String) (s : MappingSession) :
    call (fields.foldlM InPlace.extendRound s.targetFields) s =
      (.ok (appendFields s.targetFields fields),
        { s with targetFields := appendFields s.targetFields fields }) := by
  induction fields generalizing s with
  | nil => rfl
  | cons f rest ih =>
      rw [List.foldlM_cons, call_bind, InPlace.extendRound, appendFields, List.foldl_cons]
      by_cases hin : f ∈ s.targetFields
      · simp only [hin, not_true, if_false, call_pure, appendField, if_true]
        exact ih s
      · simp only [hin, not_false_eq_true, if_true, call_bind, call_modify, call_pure, appendField,
          if_false]
        exact ih { s with targetFields := s.targetFields ++ [f] }

theorem extendTargetFields_computes (fields : List String) :
    Computes (InPlace.extendTargetFields fields) fun s => s.extendTargetFields fields := by
  intro s
  unfold InPlace.extendTargetFields MappingSession.extendTargetFields
  simp only [call_bind, call_get]
  by_cases hfinal : s.status = .finalised
  · simp [hfinal]
  by_cases hempty : fields.isEmpty = true
  · simp [hfinal, hempty]
  have hblank : (fun f => decide (f = "" ∨ Py.isBlank f = true)) = Py.isBlank := by
    funext f
    by_cases hf : f = ""
    · subst hf
      rfl
    · simp [hf]
  simp only [hfinal, hempty, Bool.false_eq_true, if_false, call_bind, call_forM_check, hblank]
  cases hfind : fields.find? Py.isBlank with
  | some f =>
      have hany : fields.any Py.isBlank = true :=
        List.any_eq_true.mpr ⟨f, List.mem_of_find?_eq_some hfind, List.find?_some hfind⟩
      simp [hany]
  | none =>
      have hany : fields.any Py.isBlank = false := by
        rw [List.any_eq_false]
        exact fun f hf => List.find?_eq_none.mp hfind f hf
      simp [hany, extendRounds]

theorem finalise_computes (result : Row) :
    Computes (InPlace.finalise result) fun s => s.finalise result := by
  intro s
  unfold InPlace.finalise MappingSession.finalise
  by_cases hfinal : s.status = .finalised
  · simp [hfinal]
  · simp [hfinal]

/-! ## Calls -/

/-- A call of one of the operations, with its arguments. -/
inductive Call where
  | updateMappings (mappings : List ColumnMapping) (unmappedHeaders : List String)
  | extendTargetFields (fields : List String)
  | finalise (result : Row)

/-- The method a call runs. -/
def Call.method : Call → Method PyErr MappingSession Unit
  | .updateMappings mappings unmapped => InPlace.updateMappings mappings unmapped
  | .extendTargetFields fields => InPlace.extendTargetFields fields
  | .finalise result => InPlace.finalise result

/-- What it computes. -/
def Call.apply : Call → MappingSession → Except PyErr MappingSession
  | .updateMappings mappings unmapped, s => s.updateMappings mappings unmapped
  | .extendTargetFields fields, s => s.extendTargetFields fields
  | .finalise result, s => s.finalise result

theorem Call.computes (c : Call) : Computes c.method c.apply := by
  cases c with
  | updateMappings mappings unmapped => exact updateMappings_computes mappings unmapped
  | extendTargetFields fields => exact extendTargetFields_computes fields
  | finalise result => exact finalise_computes result

/-- Distinct target fields, distinct targets among them, no result before the end. -/
structure Fit (s : MappingSession) : Prop where
  fields_nodup : s.targetFields.Nodup
  targets_nodup : (s.mappings.map ColumnMapping.targetField).Nodup
  targets_known : ∀ m ∈ s.mappings, m.targetField ∈ s.targetFields
  result_none : s.status ≠ .finalised → s.result = none

/-- The target fields are continued, and what no operation assigns is the same. -/
structure Continues (s s' : MappingSession) : Prop where
  targetFields : s.targetFields <+: s'.targetFields
  id : s'.id = s.id
  schemaName : s'.schemaName = s.schemaName
  filePath : s'.filePath = s.filePath
  sheetName : s'.sheetName = s.sheetName
  sourceHeaders : s'.sourceHeaders = s.sourceHeaders
  previewRows : s'.previewRows = s.previewRows

section Steps
variable {s s' : MappingSession} {c : Call}

/-- **A successful call** keeps the shape and continues the session. -/
theorem Call.apply_ok (h : c.apply s = .ok s') (hs : s.Fit) : s'.Fit ∧ Continues s s' := by
  cases c with
  | updateMappings mappings unmapped =>
      obtain ⟨hcreated, hknown, hnodup, rfl⟩ := updateMappings_passed h
      refine ⟨⟨hs.fields_nodup, hnodup, hknown, hs.result_none⟩, ?_⟩
      exact ⟨List.prefix_refl _, rfl, rfl, rfl, rfl, rfl, rfl⟩
  | extendTargetFields fields =>
      obtain ⟨_, rfl⟩ := extendTargetFields_ok h
      refine ⟨⟨appendFields_nodup fields hs.fields_nodup, hs.targets_nodup, ?_, hs.result_none⟩, ?_⟩
      · exact fun m hm => mem_appendFields.mpr (.inl (hs.targets_known m hm))
      · exact ⟨appendFields_starts _ _, rfl, rfl, rfl, rfl, rfl, rfl⟩
  | finalise result =>
      obtain ⟨_, rfl⟩ := finalise_ok h
      refine ⟨⟨hs.fields_nodup, hs.targets_nodup, hs.targets_known, ?_⟩, ?_⟩
      · exact fun hopen => absurd rfl hopen
      · exact ⟨List.prefix_refl _, rfl, rfl, rfl, rfl, rfl, rfl⟩

/-- **On a finalised session every call raises.** -/
theorem Call.apply_finalised (h : s.status = .finalised) (c : Call) :
    ∃ e, c.apply s = .error e := by
  cases c with
  | updateMappings mappings unmapped => exact ⟨_, if_pos h⟩
  | extendTargetFields fields => exact ⟨_, if_pos h⟩
  | finalise result => exact ⟨_, if_pos h⟩

/-- Once a finalisation has succeeded, the session is final. -/
theorem afterCalls_finalised {before after : List Call} {result : Row}
    (h : (call (InPlace.finalise result) (afterCalls Call.method s before)).1 = .ok ()) :
    (afterCalls Call.method s (before ++ .finalise result :: after)).status = .finalised := by
  obtain ⟨session, hfinal, hafter⟩ := (finalise_computes result).ok_iff.mp h
  obtain ⟨_, rfl⟩ := finalise_ok hfinal
  have hmethod : (call (Call.method (.finalise result)) (afterCalls Call.method s before)).2 = _ :=
    hafter
  rw [afterCalls_append, afterCalls, List.foldl_cons, hmethod, ← afterCalls,
    afterCalls_of_raising Call.computes (Call.apply_finalised rfl)]

end Steps

/-- **Session operations are atomic and final.** From a session of the shape, in
every state that calls with any arguments lead to: the shape holds, a call that
raises changes nothing, a call that succeeds keeps the shape and continues the
session, and after a successful finalisation every call raises. -/
theorem calls_atomic_and_final (s : MappingSession) (hs : s.Fit) (calls : List Call) (c : Call) :
    (afterCalls Call.method s calls).Fit ∧
      (∀ e, (call c.method (afterCalls Call.method s calls)).1 = .error e →
        (call c.method (afterCalls Call.method s calls)).2 = afterCalls Call.method s calls) ∧
      ((call c.method (afterCalls Call.method s calls)).1 = .ok () →
        (call c.method (afterCalls Call.method s calls)).2.Fit ∧
          Continues (afterCalls Call.method s calls)
            (call c.method (afterCalls Call.method s calls)).2) ∧
      ((∃ before result after, calls = before ++ .finalise result :: after ∧
          (call (InPlace.finalise result) (afterCalls Call.method s before)).1 = .ok ()) →
        ∃ e, (call c.method (afterCalls Call.method s calls)).1 = .error e) := by
  have hfit : (afterCalls Call.method s calls).Fit :=
    afterCalls_preserves Call.computes (fun _ _ _ _ hs' happly => (Call.apply_ok happly hs').1) hs
  refine ⟨hfit, fun e hraised => (c.computes.raises hraised).1, fun hok => ?_, ?_⟩
  · obtain ⟨session, happly, hafter⟩ := c.computes.ok_iff.mp hok
    rw [hafter]
    exact Call.apply_ok happly hfit
  · rintro ⟨before, result, after, rfl, hfinal⟩
    obtain ⟨e, he⟩ := Call.apply_finalised (afterCalls_finalised hfinal) c
    exact ⟨e, c.computes.raises_of_error he⟩

/-- A session with one mapping. -/
def premiumSession : MappingSession where
  id := "s1"
  status := .created
  schemaName := "premiums"
  filePath := "/tmp/march.csv"
  sheetName := none
  sourceHeaders := ["GWP"]
  targetFields := ["Gross_Premium"]
  mappings := [⟨"GWP", "Gross_Premium", 1, ColumnMapping.certain⟩]
  unmappedHeaders := []
  previewRows := []

theorem premiumSession_fit : premiumSession.Fit where
  fields_nodup := List.nodup_singleton _
  targets_nodup := List.nodup_singleton _
  targets_known := by decide
  result_none _ := rfl

/-- Extended, refused an unknown target and finalised, it takes no further field. -/
theorem premium_session_final :
    (afterCalls Call.method premiumSession
        [.extendTargetFields ["Note"], .updateMappings
          [⟨"GWP", "Premium", 1, ColumnMapping.certain⟩] [], .finalise ∅]).Fit ∧
      ∃ e, (call (InPlace.extendTargetFields ["Late"]) (afterCalls Call.method premiumSession
        [.extendTargetFields ["Note"], .updateMappings
          [⟨"GWP", "Premium", 1, ColumnMapping.certain⟩] [], .finalise ∅])).1 = .error e := by
  obtain ⟨hfit, _, _, hfinal⟩ := calls_atomic_and_final premiumSession premiumSession_fit
    [.extendTargetFields ["Note"], .updateMappings
      [⟨"GWP", "Premium", 1, ColumnMapping.certain⟩] [], .finalise ∅] (.extendTargetFields ["Late"])
  exact ⟨hfit, hfinal ⟨[.extendTargetFields ["Note"], .updateMappings
    [⟨"GWP", "Premium", 1, ColumnMapping.certain⟩] []], ∅, [], rfl, rfl⟩⟩

end MappingSession

end RiskFlow
