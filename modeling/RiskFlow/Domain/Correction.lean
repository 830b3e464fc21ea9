import RiskFlow.Python.Value

/-!
# Correction — a human-verified mapping

A correction says that for one cedent a source header maps to a target
field. None of its three texts is blank, by construction.
-/

namespace RiskFlow

/-- A human-verified mapping: (cedent_id, source_header) → target_field. -/
structure Correction where
  cedentId : String
  sourceHeader : String
  targetField : String
  cedentIdNotEmpty : Py.isBlank cedentId = false := by decide
  sourceHeaderNotEmpty : Py.isBlank sourceHeader = false := by decide
  targetFieldNotEmpty : Py.isBlank targetField = false := by decide
  deriving DecidableEq

/-- One of the validators `cedent_id_not_empty`, `source_header_not_empty` and
`target_field_not_empty`. -/
def Correction.notEmpty (field value : String) : List ErrorDetails :=
  if Py.isBlank value then
    [{ loc := [field]
       msg := "Value error, " ++ field ++ " must not be empty"
       input := .str value }]
  else []

/-- The constructor: the errors of all three fields are raised together. -/
def Correction.build (cedentId sourceHeader targetField : String) : Except PyErr Correction :=
  if h : Py.isBlank cedentId = false ∧ Py.isBlank sourceHeader = false ∧
      Py.isBlank targetField = false then
    .ok ⟨cedentId, sourceHeader, targetField, h.1, h.2.1, h.2.2⟩
  else
    .error (.validationError (notEmpty "cedent_id" cedentId ++
      notEmpty "source_header" sourceHeader ++ notEmpty "target_field" targetField))

theorem Correction.build_ok {cedentId sourceHeader targetField : String} {k : Correction}
    (h : Correction.build cedentId sourceHeader targetField = .ok k) :
    k.cedentId = cedentId ∧ k.sourceHeader = sourceHeader ∧ k.targetField = targetField := by
  unfold Correction.build at h
  split at h
  · cases h
    exact ⟨rfl, rfl, rfl⟩
  · cases h

/-- The identifier of a correction's cedent is true in a Python condition. -/
theorem Correction.cedentId_ne_empty (k : Correction) : k.cedentId ≠ "" := by
  intro h
  have hblank := k.cedentIdNotEmpty
  rw [h] at hblank
  exact absurd hblank (by decide)

end RiskFlow
