import RiskFlow.Domain.TargetSchema
import RiskFlow.Lib.JsonText
import RiskFlow.Python.Json

/-!
# GroqMapper — asking the SLM

The two messages of a call, the retry on rate limits, the exceptions a
caller sees and what is read out of the answer. What the API answers to
the attempts of a call is a parameter.
-/

namespace RiskFlow

open Lib

/-! ## The messages -/

/-- `_build_system_prompt`. -/
def buildSystemPrompt (schema : TargetSchema) : String :=
  let fieldsStr := ", ".intercalate (Py.sorted schema.fieldNames)
  let aliases :=
    if schema.slmHints.isEmpty then "\nNo known aliases for this schema.\n"
    else
      "\nKnown aliases:\n" ++ String.join (schema.slmHints.map fun hint =>
        "- \"" ++ hint.sourceAlias ++ "\" typically means " ++ hint.target ++ "\n")
  let brace := String.ofList [Char.ofNat 123]
  let close := String.ofList [Char.ofNat 125]
  "You are a reinsurance data specialist. Map spreadsheet column headers " ++
    "to the standard schema.\n\n" ++
    "Target schema fields: " ++ fieldsStr ++ ".\n" ++ aliases ++
    "\nRespond ONLY with valid JSON matching this structure:\n" ++
    brace ++ "\"mappings\": [" ++ brace ++
    "\"source_header\": \"...\", \"target_field\": \"...\", \"confidence\": <float>" ++ close ++
    "], \"unmapped_headers\": [\"...\"]" ++ close ++ "\n\n" ++
    "Rules:\n" ++
    "- target_field MUST be one of: " ++ fieldsStr ++ "\n" ++
    "- confidence is a float between 0.0 and 1.0 — estimate YOUR certainty:\n" ++
    "  - 0.9-1.0: exact or near-exact name match\n" ++
    "  - 0.7-0.9: strong match via known alias or clear context\n" ++
    "  - 0.4-0.7: uncertain, plausible but ambiguous\n" ++
    "  - below 0.4: guess, low certainty\n" ++
    "- Do NOT default all confidences to the same value — vary based on match quality\n" ++
    "- Headers that don't map to any target field go in unmapped_headers"

mutual

/-- `json.dumps(v, default=str)`. -/
def dumpsStr (rt : Runtime) : PyVal → Json
  | .none => .null
  | .bool b => .bool b
  | .int i => .int i
  | .float x => .float x
  | .str s => .str s
  | .list xs => .arr (dumpsStrList rt xs)
  | .dict kvs => .obj (dumpsStrEntries rt kvs)
  | v => .str (rt.str v)
termination_by structural v => v

def dumpsStrList (rt : Runtime) : List PyVal → List Json
  | [] => []
  | v :: rest => dumpsStr rt v :: dumpsStrList rt rest
termination_by structural vs => vs

def dumpsStrEntries (rt : Runtime) : List (String × PyVal) → List (String × Json)
  | [] => []
  | (k, v) :: rest => (k, dumpsStr rt v) :: dumpsStrEntries rt rest
termination_by structural kvs => kvs

end

/-- The text `json.dumps` makes of a document. -/
def jsonText (rt : Runtime) (j : Json) : String := String.ofList (JsonText.text rt.reprFloat j)

/-- `_build_user_message`. -/
def buildUserMessage (rt : Runtime) (sourceHeaders : List String) (previewRows : List Row) :
    String :=
  "Source headers: " ++ jsonText rt (.arr (sourceHeaders.map .str)) ++ "\n" ++
    "Sample rows: " ++
      jsonText rt (.arr (previewRows.map fun row => .obj (dumpsStrEntries rt row.entries)))

/-! ## Reading the answer -/

/-- A pydantic check of one value at one place. -/
abbrev Validation (α : Type) := Except (List ErrorDetails) α

def Validation.errors {α : Type} : Validation α → List ErrorDetails
  | .error errors => errors
  | .ok _ => []

/-- A `str` field. -/
def validateStr (rt : Runtime) (loc : List String) (v : PyVal) : Validation String :=
  match rt.pydanticStr v with
  | .ok s => .ok s
  | .error msg => .error [⟨loc, msg, v⟩]

/-- A `float` field with `confidence_in_range`. -/
def validateConfidence (rt : Runtime) (loc : List String) (v : PyVal) :
    Validation { q : ℚ // 0 ≤ q ∧ q ≤ 1 } :=
  let outOfRange := [⟨loc, "Value error, confidence must be between 0.0 and 1.0", v⟩]
  match rt.pydanticFloat v with
  | .error msg => .error [⟨loc, msg, v⟩]
  | .ok (.finite q) => if h : 0 ≤ q ∧ q ≤ 1 then .ok ⟨q, h⟩ else .error outOfRange
  | .ok _ => .error outOfRange

/-- A required member of an object. -/
def validateMember {α : Type} (check : List String → PyVal → Validation α) (loc : List String)
    (kvs : List (String × PyVal)) (name : String) : Validation α :=
  match kvs.lookup name with
  | some v => check (loc ++ [name]) v
  | none => .error [⟨loc ++ [name], "Field required", .dict kvs⟩]

/-- The items of a list, the errors of all of them collected. -/
def validateItems {α : Type} (check : List String → PyVal → Validation α) (loc : List String) :
    Nat → List PyVal → Validation (List α)
  | _, [] => .ok []
  | i, v :: rest =>
      match check (loc ++ [toString i]) v, validateItems check loc (i + 1) rest with
      | .ok a, .ok as => .ok (a :: as)
      | item, items => .error (item.errors ++ items.errors)

def validateList {α : Type} (check : List String → PyVal → Validation α) (loc : List String) :
    PyVal → Validation (List α)
  | .list xs => validateItems check loc 0 xs
  | v => .error [⟨loc, "Input should be a valid array", v⟩]

/-- A `ColumnMapping` in a document. -/
def ColumnMapping.modelValidate (rt : Runtime) (loc : List String) :
    PyVal → Validation ColumnMapping
  | .dict kvs =>
      match validateMember (validateStr rt) loc kvs "source_header",
        validateMember (validateStr rt) loc kvs "target_field",
        validateMember (validateConfidence rt) loc kvs "confidence" with
      | .ok sourceHeader, .ok targetField, .ok confidence =>
          .ok ⟨sourceHeader, targetField, confidence, confidence.2⟩
      | header, target, confidence =>
          .error (header.errors ++ target.errors ++ confidence.errors)
  | v => .error [⟨loc, "Input should be an object", v⟩]

/-- A `MappingResult` in a document; `no_duplicate_target_fields` runs when
the fields are valid. -/
def MappingResult.modelValidate (rt : Runtime) : PyVal → Except PyErr MappingResult
  | .dict kvs =>
      match validateMember (validateList (ColumnMapping.modelValidate rt)) [] kvs "mappings",
        validateMember (validateList (validateStr rt)) [] kvs "unmapped_headers" with
      | .ok mappings, .ok unmappedHeaders => MappingResult.build mappings unmappedHeaders
      | mappings, unmappedHeaders =>
          .error (.validationError (mappings.errors ++ unmappedHeaders.errors))
  | v => .error (.validationError [⟨[], "Input should be an object", v⟩])

/-- What the mapper uses of the libraries: the parser of JSON texts, an error
being its message. -/
structure SlmEnv where
  rt : Runtime
  parseJson : String → Except String Json

/-- `MappingResult.model_validate_json`. -/
def MappingResult.modelValidateJson (env : SlmEnv) (content : String) :
    Except PyErr MappingResult :=
  match env.parseJson content with
  | .ok j => MappingResult.modelValidate env.rt (loads j)
  | .error msg => .error (.validationError [⟨[], "Invalid JSON: " ++ msg, .str content⟩])

/-- `_parse_response` of the contents of the choices. -/
def parseResponse (env : SlmEnv) (choices : List (Option String)) : Except PyErr MappingResult :=
  match choices with
  | [] => .error (.slmUnavailableError "SLM returned empty response")
  | none :: _ => .error (.slmUnavailableError "SLM returned empty content")
  | some content :: _ =>
      match MappingResult.modelValidateJson env content with
      | .ok result => .ok result
      | .error e => .error (.slmUnavailableError ("Failed to parse SLM response: " ++
          env.rt.strErr e))

/-! ## The call -/

/-- What an attempt raises: `openai.RateLimitError`, or anything else. -/
inductive SlmError where
  | rateLimit (msg : String)
  | other (e : PyErr)

/-- What one attempt gives: the contents of the choices, or an exception. -/
abbrev SlmCall := Except SlmError (List (Option String))

/-- `stop_after_attempt`. -/
def maxAttempts : Nat := 3

/-- `_call_with_retry` from attempt `k` on, with `left` more after it: a rate
limit is tried again, the last one and every other exception go on. -/
def callWithRetry (attempts : Nat → SlmCall) : Nat → Nat → SlmCall
  | 0, k => attempts k
  | left + 1, k =>
      match attempts k with
      | .error (.rateLimit _) => callWithRetry attempts left (k + 1)
      | outcome => outcome

/-- The two `except` clauses of `map_headers`. -/
def slmUnavailable (rt : Runtime) : SlmError → PyErr
  | .rateLimit msg => .slmUnavailableError msg
  | .other e => if e.isException then .slmUnavailableError (rt.strErr e) else e

/-- What `map_headers` makes of the call. -/
def finishCall (env : SlmEnv) : SlmCall → Except PyErr MappingResult
  | .ok choices => parseResponse env choices
  | .error e => .error (slmUnavailable env.rt e)

/-- A request to `client.chat.completions.create`. -/
structure ChatRequest where
  model : String
  system : String
  user : String
  deriving DecidableEq

/-- `semaphore` says whether there is one. -/
structure GroqMapper where
  schema : TargetSchema
  model : String := "llama-3.3-70b-versatile"
  semaphore : Bool

def GroqMapper.request (rt : Runtime) (self : GroqMapper) (sourceHeaders : List String)
    (previewRows : List Row) : ChatRequest where
  model := self.model
  system := buildSystemPrompt self.schema
  user := buildUserMessage rt sourceHeaders previewRows

/-- `map_headers`, with what the API answers to each attempt of a request. -/
def GroqMapper.mapHeaders (env : SlmEnv) (self : GroqMapper) (api : ChatRequest → Nat → SlmCall)
    (sourceHeaders : List String) (previewRows : List Row) : Except PyErr MappingResult :=
  finishCall env
    (callWithRetry (api (self.request env.rt sourceHeaders previewRows)) (maxAttempts - 1) 0)

/-! ## What a call comes to -/

/-- The attempts before `k` met a rate limit. -/
def LimitedBefore (attempts : Nat → SlmCall) (k : Nat) : Prop :=
  ∀ j < k, ∃ msg, attempts j = .error (.rateLimit msg)

/-- **Which attempt decides**: the first one without a rate limit, or the last. -/
theorem callWithRetry_decides (attempts : Nat → SlmCall) (left k : Nat)
    (h : LimitedBefore attempts k) :
    ∃ j, k ≤ j ∧ j ≤ k + left ∧ LimitedBefore attempts j ∧
      callWithRetry attempts left k = attempts j ∧
      ((∃ msg, attempts j = .error (.rateLimit msg)) → j = k + left) := by
  induction left generalizing k with
  | zero => exact ⟨k, le_rfl, by omega, h, rfl, fun _ => rfl⟩
  | succ left ih =>
      by_cases hlimited : ∃ msg, attempts k = .error (.rateLimit msg)
      · obtain ⟨msg, hmsg⟩ := hlimited
        have hnext : LimitedBefore attempts (k + 1) := by
          intro j hj
          by_cases hjk : j = k
          · exact ⟨msg, hjk ▸ hmsg⟩
          · exact h j (by omega)
        obtain ⟨j, hlow, hhigh, hbefore, hdecides, hlast⟩ := ih (k + 1) hnext
        refine ⟨j, by omega, by omega, hbefore, ?_, fun hrate => ?_⟩
        · rw [callWithRetry, hmsg]
          exact hdecides
        · have hj := hlast hrate
          omega
      · refine ⟨k, le_rfl, by omega, h, ?_, fun hrate => absurd hrate hlimited⟩
        rw [callWithRetry]
        split
        · rename_i msg hmsg
          exact absurd ⟨msg, hmsg⟩ hlimited
        · rfl

/-- An attempt that is not rate-limited decides the call. -/
theorem callWithRetry_of_first {attempts : Nat → SlmCall} {left k j : Nat} (hlow : k ≤ j)
    (hhigh : j ≤ k + left) (hbefore : LimitedBefore attempts j)
    (hfirst : ∀ msg, attempts j ≠ .error (.rateLimit msg)) :
    callWithRetry attempts left k = attempts j := by
  induction left generalizing k with
  | zero =>
      have hjk : j = k := by omega
      rw [hjk]
      rfl
  | succ left ih =>
      by_cases hjk : j = k
      · subst hjk
        rw [callWithRetry]
        split
        · rename_i msg hmsg
          exact absurd hmsg (hfirst msg)
        · rfl
      · obtain ⟨msg, hmsg⟩ := hbefore k (by omega)
        rw [callWithRetry, hmsg]
        exact ih (by omega) (by omega)

theorem parseResponse_ok {env : SlmEnv} {choices : List (Option String)} {result : MappingResult} :
    parseResponse env choices = .ok result ↔
      ∃ content rest, choices = some content :: rest ∧
        MappingResult.modelValidateJson env content = .ok result := by
  unfold parseResponse
  cases choices with
  | nil => simp
  | cons first rest =>
      cases first with
      | none => simp
      | some content =>
          cases hvalid : MappingResult.modelValidateJson env content with
          | error e => simp [hvalid]
          | ok parsed => simp [hvalid]

theorem parseResponse_error {env : SlmEnv} {choices : List (Option String)} {e : PyErr}
    (h : parseResponse env choices = .error e) : ∃ msg, e = .slmUnavailableError msg := by
  unfold parseResponse at h
  split at h
  · cases h
    exact ⟨_, rfl⟩
  · cases h
    exact ⟨_, rfl⟩
  · split at h
    · cases h
    · cases h
      exact ⟨_, rfl⟩

theorem limitedBefore_zero (attempts : Nat → SlmCall) : LimitedBefore attempts 0 :=
  fun j hj => absurd hj (Nat.not_lt_zero j)

/-- A mapping is what the first attempt without a rate limit was answered with. -/
theorem mapHeaders_ok {env : SlmEnv} {mapper : GroqMapper} {api : ChatRequest → Nat → SlmCall}
    {sourceHeaders : List String} {previewRows : List Row} {result : MappingResult} :
    mapper.mapHeaders env api sourceHeaders previewRows = .ok result ↔
      ∃ k < 3, LimitedBefore (api (mapper.request env.rt sourceHeaders previewRows)) k ∧
        ∃ content rest, api (mapper.request env.rt sourceHeaders previewRows) k =
            .ok (some content :: rest) ∧
          MappingResult.modelValidateJson env content = .ok result := by
  unfold GroqMapper.mapHeaders
  generalize api (mapper.request env.rt sourceHeaders previewRows) = attempts
  have hmax : maxAttempts = 3 := rfl
  constructor
  · intro h
    obtain ⟨k, _, hhigh, hbefore, hdecides, _⟩ :=
      callWithRetry_decides attempts (maxAttempts - 1) 0 (limitedBefore_zero attempts)
    rw [hdecides] at h
    cases hattempt : attempts k with
    | error e =>
        rw [hattempt] at h
        cases h
    | ok choices =>
        rw [hattempt] at h
        obtain ⟨content, rest, rfl, hvalid⟩ := parseResponse_ok.mp h
        exact ⟨k, by omega, hbefore, content, rest, hattempt, hvalid⟩
  · intro ⟨j, hj, hlimited, content, rest, hattempt, hvalid⟩
    rw [callWithRetry_of_first (Nat.zero_le j) (by omega) hlimited
      (fun msg h => by rw [hattempt] at h; cases h), hattempt]
    exact parseResponse_ok.mpr ⟨content, rest, rfl, hvalid⟩

/-- **What `map_headers` returns and raises.** A mapping comes from the first
attempt without a rate limit, among three, whose first choice is the JSON
of a valid mapping; and everything raised is `SLMUnavailableError`, but an
exception that is none, like a cancellation, which passes. -/
theorem map_headers_outcome (env : SlmEnv) (mapper : GroqMapper)
    (api : ChatRequest → Nat → SlmCall) (sourceHeaders : List String) (previewRows : List Row) :
    (∀ result, mapper.mapHeaders env api sourceHeaders previewRows = .ok result ↔
      ∃ k < 3, LimitedBefore (api (mapper.request env.rt sourceHeaders previewRows)) k ∧
        ∃ content rest, api (mapper.request env.rt sourceHeaders previewRows) k =
            .ok (some content :: rest) ∧
          MappingResult.modelValidateJson env content = .ok result) ∧
      ∀ e, mapper.mapHeaders env api sourceHeaders previewRows = .error e →
        (∃ msg, e = .slmUnavailableError msg) ∨
          (e.isException = false ∧
            ∃ k < 3, LimitedBefore (api (mapper.request env.rt sourceHeaders previewRows)) k ∧
              api (mapper.request env.rt sourceHeaders previewRows) k = .error (.other e)) := by
  refine ⟨fun _ => mapHeaders_ok, ?_⟩
  unfold GroqMapper.mapHeaders
  generalize api (mapper.request env.rt sourceHeaders previewRows) = attempts
  obtain ⟨k, _, hhigh, hbefore, hdecides, _⟩ :=
    callWithRetry_decides attempts (maxAttempts - 1) 0 (limitedBefore_zero attempts)
  have hk : k < 3 := by
    have hmax : maxAttempts = 3 := rfl
    omega
  intro e h
  rw [hdecides] at h
  cases hattempt : attempts k with
  | ok choices =>
      rw [hattempt] at h
      exact .inl (parseResponse_error h)
  | error raised =>
      rw [hattempt] at h
      cases raised with
      | rateLimit msg =>
          cases h
          exact .inl ⟨msg, rfl⟩
      | other raised =>
          cases hexception : raised.isException with
          | true =>
              simp only [finishCall, slmUnavailable, hexception, if_true] at h
              cases h
              exact .inl ⟨_, rfl⟩
          | false =>
              simp only [finishCall, slmUnavailable, hexception] at h
              cases h
              exact .inr ⟨hexception, k, hk, hbefore, hattempt⟩

end RiskFlow
