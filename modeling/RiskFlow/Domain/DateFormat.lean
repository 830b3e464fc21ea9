import RiskFlow.Python.Value

/-!
# DateFormat — column-level date format detection and parsing

The four patterns run on stripped text. Their repetitions are followed by
a literal that is no digit, so the longest run of digits is the only way
a pattern can match and the matchers need no backtracking.
-/

namespace RiskFlow

open Lib

/-- A format identifier, the `str` the source returns. -/
inductive DateFormat where
  | iso
  | yyyySlash
  | namedMonth
  | dayfirst
  deriving DecidableEq

/-! ## Pattern pieces -/

/-- `\d{lo,hi}`: the digits read and the rest. -/
def takeDigits (lo hi : Nat) (cs : List Char) : Option (List Char × List Char) :=
  let ds := (cs.take hi).takeWhile Py.isDigit
  if lo ≤ ds.length then some (ds, cs.drop ds.length) else none

/-- `$` without flags: the end, or a final line break. -/
def atEnd : List Char → Bool
  | [] => true
  | [c] => c == Char.ofNat 10
  | _ => false

/-- Three runs of digits with a separator, up to the end. -/
def threeNumbers (sep : Char) (a b c : Nat × Nat) (s : String) :
    Option (List Char × List Char × List Char) := do
  let (x, r) ← takeDigits a.1 a.2 s.toList
  let r ← Py.literal sep r
  let (y, r) ← takeDigits b.1 b.2 r
  let r ← Py.literal sep r
  let (z, r) ← takeDigits c.1 c.2 r
  if atEnd r then some (x, y, z) else none

/-- `_ISO_PATTERN.match`. -/
def isoPattern (s : String) : Bool := (threeNumbers '-' (4, 4) (2, 2) (2, 2) s).isSome

/-- `_YYYY_SLASH_PATTERN.match`, with the three groups. -/
def yyyySlashPattern (s : String) : Option (List Char × List Char × List Char) :=
  threeNumbers '/' (4, 4) (1, 2) (1, 2) s

/-- `_DAYFIRST_SLASH_PATTERN.match`. -/
def dayfirstSlashPattern (s : String) : Bool :=
  (threeNumbers '/' (1, 2) (1, 2) (4, 4) s).isSome

def monthNames : List String :=
  ["Jan", "Feb", "Mar", "Apr", "May", "Jun", "Jul", "Aug", "Sep", "Oct", "Nov", "Dec",
    "January", "February", "March", "April", "June", "July", "August", "September", "October",
    "November", "December"]

/-- `re.IGNORECASE` on one letter of the pattern. Besides the other case,
`s` also matches U+017F, whose upper case is `S`. The further Unicode
equivalents (of `i` and `k`) only occur past the first three letters,
where the abbreviation has matched already. -/
def sameLetter (p c : Char) : Bool :=
  p.toLower == c.toLower || (p.toLower == 's' && c.toNat == 0x17F)

/-- The pattern at the start of the text. -/
def matchesHere : List Char → List Char → Bool
  | [], _ => true
  | _ :: _, [] => false
  | p :: ps, c :: cs => sameLetter p c && matchesHere ps cs

/-- The pattern anywhere in the text. -/
def occursIn (p : List Char) : List Char → Bool
  | [] => p.isEmpty
  | c :: cs => matchesHere p (c :: cs) || occursIn p cs

/-- `_MONTH_NAME_RE.search`. -/
def monthNamePattern (s : String) : Bool :=
  monthNames.any fun name => occursIn name.toList s.toList

/-! ## Detection and parsing -/

/-- `detect_date_format`. -/
def detectDateFormat (values : List String) : Option DateFormat :=
  let stripped := (values.filter fun v => !Py.isBlank v).map Py.strip
  if stripped.isEmpty then none
  else if stripped.all isoPattern then some .iso
  else if stripped.all fun v => (yyyySlashPattern v).isSome then some .yyyySlash
  else if stripped.all monthNamePattern then some .namedMonth
  else if stripped.all dayfirstSlashPattern then some .dayfirst
  else none

/-- `datetime.date(int(p[0]), int(p[1]), int(p[2]))` of a year-first match. -/
def dateOfGroups (m : List Char × List Char × List Char) : Option Date :=
  Date.mk? (Py.intOfDigits m.1) (Py.intOfDigits m.2.1) (Py.intOfDigits m.2.2)

/-- `dateutil_parser.parse(stripped, dayfirst=True).date()` under
`except (ValueError, OverflowError)`, which raises a `ValueError` of its own. -/
def dayfirstDate (rt : Runtime) (stripped msg : String) : Except PyErr Date :=
  match rt.dateutilParse stripped with
  | .ok d => .ok d
  | .error .documented => .error (.valueError msg)
  | .error (.other cls reason) => .error (.otherException cls reason)

/-- `parse_date`. -/
def parseDate (rt : Runtime) (value : String) (formatHint : Option DateFormat) :
    Except PyErr Date :=
  let stripped := Py.strip value
  let failed (reason : String) : Except PyErr Date :=
    .error (.valueError (reason ++ ": '" ++ value ++ "'"))
  if stripped.isEmpty then .error (.valueError "Date string must not be empty")
  else match formatHint with
    | some .iso =>
        match rt.fromisoformat stripped with
        | some d => .ok d
        | none => failed "Could not parse date as ISO"
    | some .yyyySlash =>
        match (yyyySlashPattern stripped).bind dateOfGroups with
        | some d => .ok d
        | none => failed "Could not parse date as YYYY/MM/DD"
    | some .namedMonth | some .dayfirst =>
        dayfirstDate rt stripped ("Could not parse date: '" ++ value ++ "'")
    | none =>
        -- ISO first, then year-first slashes, then dateutil
        match rt.fromisoformat stripped with
        | some d => .ok d
        | none =>
            match (yyyySlashPattern stripped).bind dateOfGroups with
            | some d => .ok d
            | none => dayfirstDate rt stripped ("Could not parse date: '" ++ value ++ "'")

/-- A format with which `parse_date` comes to dateutil on this text. -/
def AsksDateutil (rt : Runtime) (text : String) : Option DateFormat → Prop
  | some .iso | some .yyyySlash => False
  | some .namedMonth | some .dayfirst => True
  | none => rt.fromisoformat text = none ∧ (yyyySlashPattern text).bind dateOfGroups = none

/-- `parse_date` comes to dateutil with this text, which raises the exception
there. -/
def DateutilFault (rt : Runtime) (value : String) (hint : Option DateFormat) (e : PyErr) : Prop :=
  Py.isBlank value = false ∧ AsksDateutil rt (Py.strip value) hint ∧
    ∃ cls msg, rt.dateutilParse (Py.strip value) = .error (.other cls msg) ∧
      e = .otherException cls msg

section Parse
variable {rt : Runtime} {value : String} {hint : Option DateFormat} {e : PyErr}

theorem dayfirstDate_error {stripped msg : String}
    (h : dayfirstDate rt stripped msg = .error e) :
    (rt.dateutilParse stripped = .error .documented ∧ e = .valueError msg) ∨
      ∃ cls reason, rt.dateutilParse stripped = .error (.other cls reason) ∧
        e = .otherException cls reason := by
  unfold dayfirstDate at h
  split at h
  · cases h
  · cases h
    exact .inl ⟨‹_›, rfl⟩
  · cases h
    exact .inr ⟨_, _, ‹_›, rfl⟩

/-- **`parse_date` raises a `ValueError`**, or what dateutil raised on the text. -/
theorem parseDate_error (h : parseDate rt value hint = .error e) :
    e.isValueError = true ∨ DateutilFault rt value hint e := by
  unfold parseDate at h
  dsimp only at h
  split at h
  · cases h
    exact .inl rfl
  · rename_i hne
    have hblank : Py.isBlank value = false := Bool.eq_false_iff.mpr hne
    have hguess : ∀ {msg}, AsksDateutil rt (Py.strip value) hint →
        dayfirstDate rt (Py.strip value) msg = .error e →
          e.isValueError = true ∨ DateutilFault rt value hint e := fun hasks hraised =>
      (dayfirstDate_error hraised).elim (fun hdoc => .inl (hdoc.2 ▸ rfl))
        fun hother => .inr ⟨hblank, hasks, hother⟩
    split at h
    · split at h <;> cases h
      exact .inl rfl
    · split at h <;> cases h
      exact .inl rfl
    · exact hguess trivial h
    · exact hguess trivial h
    · split at h
      · cases h
      · rename_i hiso
        split at h
        · cases h
        · rename_i hslash
          exact hguess ⟨hiso, hslash⟩ h

/-- Where `parse_date` asks a dateutil that raises, so does it. -/
theorem parseDate_fault (hfault : DateutilFault rt value hint e) :
    parseDate rt value hint = .error e := by
  obtain ⟨hblank, hasks, cls, msg, h, rfl⟩ := hfault
  have hne : (Py.strip value).isEmpty = false := hblank
  unfold parseDate
  simp only [hne, Bool.false_eq_true, if_false]
  cases hint with
  | none => simp [hasks.1, hasks.2, dayfirstDate, h]
  | some format =>
      cases format with
      | iso => exact hasks.elim
      | yyyySlash => exact hasks.elim
      | namedMonth => simp [dayfirstDate, h]
      | dayfirst => simp [dayfirstDate, h]

end Parse

example : detectDateFormat ["2024/1/5", " ", "2024/12/31"] = some .yyyySlash := by decide

end RiskFlow
