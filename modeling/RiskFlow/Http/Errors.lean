import RiskFlow.Python.Value

/-!
# Errors — HTTP exceptions and schema names

What a handler raises instead of answering, and the check of schema names
that several routes share.
-/

namespace RiskFlow

/-- The `detail` of an `HTTPException`: a text, or `_error_detail`. -/
inductive ErrorBody where
  | text (s : String)
  | detail (errorCode message suggestion : String)
  deriving DecidableEq

structure HttpException where
  statusCode : Nat
  detail : ErrorBody
  deriving DecidableEq

/-- The answer to an exception no handler catches. -/
def unhandled : HttpException := ⟨500, .text "Internal Server Error"⟩

def isNameChar (c : Char) : Bool :=
  ('a' ≤ c && c ≤ 'z') || ('A' ≤ c && c ≤ 'Z') || ('0' ≤ c && c ≤ '9') || c == '_' || c == '-'

/-- `_SCHEMA_NAME_PATTERN.match`: `$` also matches before a final line break. -/
def isSchemaName (name : String) : Bool :=
  let cs := name.toList
  let body := if cs.getLast? = some (Char.ofNat 10) then cs.dropLast else cs
  !body.isEmpty && body.all isNameChar

/-- `_validate_schema_name`. -/
def validateSchemaName (name : String) : Except HttpException Unit :=
  if isSchemaName name then .ok ()
  else .error ⟨400, .detail "INVALID_SCHEMA_NAME"
    ("Invalid schema name '" ++ name ++ "'. Only alphanumeric, hyphens, and underscores allowed.")
    "Use a valid schema name from GET /schemas."⟩

theorem validateSchemaName_ok {name : String} {u : Unit} (h : validateSchemaName name = .ok u) :
    isSchemaName name = true := by
  unfold validateSchemaName at h
  split at h
  · assumption
  · cases h

theorem isSpace_of_isNameChar {c : Char} (h : isNameChar c = true) : Py.isSpace c = false := by
  by_contra hspace
  rw [Bool.not_eq_false] at hspace
  simp only [isNameChar, Py.isSpace, Bool.or_eq_true, Bool.and_eq_true, decide_eq_true_eq,
    beq_iff_eq, Char.le_def, UInt32.le_iff_toNat_le, Char.toNat] at h hspace
  rcases h with (((h | h) | h) | h) | h
  · have hlow : ('a').val.toNat = 97 := rfl
    have hhigh : ('z').val.toNat = 122 := rfl
    omega
  · have hlow : ('A').val.toNat = 65 := rfl
    have hhigh : ('Z').val.toNat = 90 := rfl
    omega
  · have hlow : ('0').val.toNat = 48 := rfl
    have hhigh : ('9').val.toNat = 57 := rfl
    omega
  · subst h
    exact absurd hspace (by decide)
  · subst h
    exact absurd hspace (by decide)

/-- A name that passes the check is not blank. -/
theorem isBlank_of_isSchemaName {name : String} (h : isSchemaName name = true) :
    Py.isBlank name = false := by
  by_contra hblank
  rw [Bool.not_eq_false] at hblank
  simp only [isSchemaName, Bool.and_eq_true, Bool.not_eq_true', List.isEmpty_eq_false_iff,
    List.all_eq_true] at h
  obtain ⟨hne, hall⟩ := h
  obtain ⟨c, hc⟩ := List.exists_mem_of_ne_nil _ hne
  have hmem : c ∈ name.toList := by
    split at hc
    · exact List.mem_of_mem_dropLast hc
    · exact hc
  have hspace := isSpace_of_isNameChar (hall c hc)
  rw [Py.isSpace_of_isBlank hblank hmem] at hspace
  cases hspace

end RiskFlow
