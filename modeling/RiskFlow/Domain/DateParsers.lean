import RiskFlow.Lib.Separated
import RiskFlow.Python.Numbers
import RiskFlow.Domain.FormatDetection
import RiskFlow.Domain.RecordModel

/-!
# DateParsers — the two date parsers part by part

`parse_date` matches the year-first pattern, then cuts the text at its
slashes; `coerce_date` takes the groups of its own copy of the pattern.
Both are written out here with `int` on the parts they take. On every text
the parts are the groups, so the parsers are the ones of `DateFormat` and
`RecordFactory`, and they agree with each other.
-/

namespace RiskFlow

open Lib

/-! ## `datetime.date` of parts of a text -/

/-- `datetime.date(y, m, d)`; `none` is its `ValueError`. -/
def dateOfInts? (y m d : Int) : Option Date :=
  if 0 ≤ y ∧ 0 ≤ m ∧ 0 ≤ d then Date.mk? y.toNat m.toNat d.toNat else none

/-- `datetime.date(int(y), int(m), int(d))`. -/
def dateOfParts? (y m d : List Char) : Option Date := do
  let y ← intOfText? y
  let m ← intOfText? m
  let d ← intOfText? d
  dateOfInts? y m d

/-! ## The parsers -/

/-- `datetime.date(int(parts[0]), int(parts[1]), int(parts[2]))` with
`parts = stripped.split("/")`. -/
def dateOfSplit (stripped : String) : Except PyErr Date :=
  match stripped.toList.splitOn '/' with
  | y :: m :: d :: _ =>
      match dateOfParts? y m d with
      | some date => .ok date
      | none => .error (.valueError "invalid date")
  | _ => .error (.otherException "IndexError" "list index out of range")

/-- `parse_date`, its parts cut at the slashes. -/
def parseDateBySplit (rt : Runtime) (value : String) (formatHint : Option DateFormat) :
    Except PyErr Date :=
  let stripped := Py.strip value
  let failed (reason : String) : Except PyErr Date :=
    .error (.valueError (reason ++ ": '" ++ value ++ "'"))
  -- `except ValueError`: any other exception goes through
  let orElse (attempt next : Except PyErr Date) : Except PyErr Date :=
    match attempt with
    | .ok d => .ok d
    | .error e => if e.isValueError then next else .error e
  if stripped.isEmpty then .error (.valueError "Date string must not be empty")
  else match formatHint with
    | some .iso =>
        match rt.fromisoformat stripped with
        | some d => .ok d
        | none => failed "Could not parse date as ISO"
    | some .yyyySlash =>
        if (yyyySlashPattern stripped).isSome then
          orElse (dateOfSplit stripped) (failed "Could not parse date as YYYY/MM/DD")
        else failed "Could not parse date as YYYY/MM/DD"
    | some .namedMonth | some .dayfirst =>
        dayfirstDate rt stripped ("Could not parse date: '" ++ value ++ "'")
    | none =>
        let guess := dayfirstDate rt stripped ("Could not parse date: '" ++ value ++ "'")
        match rt.fromisoformat stripped with
        | some d => .ok d
        | none =>
            if (yyyySlashPattern stripped).isSome then orElse (dateOfSplit stripped) guess
            else guess

/-- `coerce_date`, its parts the groups of the match. -/
def coerceDateByGroups (rt : Runtime) : PyVal → Except PyErr PyVal
  | .date d => .ok (.date d)
  | .datetime t => .ok (.date t.date)
  | .str value =>
      let stripped := Py.strip value
      if stripped.isEmpty then .error (.valueError "Date string must not be empty")
      else
        let guess : Except PyErr PyVal :=
          (dayfirstDate rt stripped ("Could not parse date: '" ++ value ++ "'")).map .date
        match rt.fromisoformat stripped with
        | some d => .ok (.date d)
        | none =>
            match yyyySlashPattern stripped with
            | some (y, m, d) =>
                match dateOfParts? y m d with
                | some date => .ok (.date date)
                | none => guess
            | none => guess
  | v => .ok v

/-! ## Parts and groups -/

theorem DigitRun.intOfText? {width : Nat × Nat} {ds : List Char} (h : DigitRun width ds)
    (hlow : 0 < width.1) : intOfText? ds = some (Py.intOfDigits ds : Int) := by
  refine intOfText?_digits ?_ h.digits
  rintro rfl
  exact absurd h.low (by simp; omega)

/-- The date of the groups of a year-first match. -/
theorem dateOfParts?_groups {s : String} {y m d : List Char}
    (h : yyyySlashPattern s = some (y, m, d)) : dateOfParts? y m d = dateOfGroups (y, m, d) := by
  obtain ⟨_, hy, hm, hd⟩ := (threeNumbers_eq_some_iff (by decide)).mp h
  unfold dateOfParts?
  simp [hy.intOfText?, hm.intOfText?, hd.intOfText?, dateOfInts?, dateOfGroups]

/-- **The parts between the slashes** of a stripped text that matches are the
groups of the match. -/
theorem splitOn_yyyySlash {value : String} {y m d : List Char}
    (h : yyyySlashPattern (Py.strip value) = some (y, m, d)) :
    (Py.strip value).toList.splitOn '/' = [y, m, d] := by
  obtain ⟨⟨tail, htext, hend⟩, hy, hm, hd⟩ := (threeNumbers_eq_some_iff (by decide)).mp h
  have hclear : ∀ {width : Nat × Nat} {ds : List Char}, DigitRun width ds → '/' ∉ ds := by
    intro width ds hds hmem
    exact absurd (hds.digits '/' hmem) (by decide)
  -- `$` reads no line break here: a stripped text does not end in one
  have htail : tail = [] := by
    rcases hend with rfl | rfl
    · rfl
    · have hstrip : strip Py.isSpace value.toList =
          (y ++ '/' :: (m ++ '/' :: d)) ++ [Char.ofNat 10] := by
        have htext' : (Py.strip value).toList = strip Py.isSpace value.toList :=
          String.toList_ofList
        rw [← htext', htext]
        simp
      exact absurd (strip_last hstrip) (by decide)
  rw [htext, htail, List.append_nil]
  exact splitOn_three (hclear hy) (hclear hm) (hclear hd)

/-- The date cut at the slashes is the date of the groups. -/
theorem dateOfSplit_match {value : String} {y m d : List Char}
    (h : yyyySlashPattern (Py.strip value) = some (y, m, d)) :
    dateOfSplit (Py.strip value) =
      match dateOfGroups (y, m, d) with
      | some date => .ok date
      | none => .error (.valueError "invalid date") := by
  rw [dateOfSplit, splitOn_yyyySlash h]
  dsimp only
  rw [dateOfParts?_groups h]

/-! ## The parsers are those of the model -/

/-- `parse_date` written out is `parseDate`, with every hint. -/
theorem parseDateBySplit_eq (rt : Runtime) (value : String) (hint : Option DateFormat) :
    parseDateBySplit rt value hint = parseDate rt value hint := by
  unfold parseDateBySplit parseDate
  dsimp only
  split
  · rfl
  · cases hmatch : yyyySlashPattern (Py.strip value) with
    | none => rfl
    | some groups =>
        obtain ⟨y, m, d⟩ := groups
        simp only [dateOfSplit_match hmatch, Option.isSome_some, if_true, Option.bind_some]
        cases hdate : dateOfGroups (y, m, d) with
        | some date => rfl
        | none => rfl

/-- `coerce_date` written out is `coerceDate`. -/
theorem coerceDateByGroups_eq (rt : Runtime) (v : PyVal) :
    coerceDateByGroups rt v = coerceDate rt v := by
  cases v with
  | str value =>
      simp only [coerceDateByGroups, coerceDate]
      split
      · rfl
      · cases rt.fromisoformat (Py.strip value) with
        | some d => rfl
        | none =>
            cases hmatch : yyyySlashPattern (Py.strip value) with
            | none => rfl
            | some groups =>
                obtain ⟨y, m, d⟩ := groups
                cases hdate : dateOfGroups (y, m, d) with
                | some date => simp [dateOfParts?_groups hmatch, hdate]
                | none => simp [dateOfParts?_groups hmatch, hdate]
  | _ => rfl

/-- Without a hint the two have the same outcome, whatever dateutil does. -/
theorem coerceDate_eq_parseDate (rt : Runtime) (v : String) :
    coerceDate rt (.str v) = (parseDate rt v none).map .date := by
  simp only [parseDate, coerceDate]
  split
  · rfl
  · cases rt.fromisoformat (Py.strip v) with
    | some d => rfl
    | none =>
        cases (yyyySlashPattern (Py.strip v)).bind dateOfGroups with
        | some d => rfl
        | none => rfl

/-- **The two date parsers agree without a hint**: on every text on which
dateutil fails as documented, if it fails, they return the same date or raise
a `ValueError`, even with the same message. -/
theorem date_parsers_agree (rt : Runtime) (v : String)
    (hdocumented : ¬ rt.DateutilRaises (Py.strip v)) :
    (∃ d, parseDateBySplit rt v none = .ok d ∧ coerceDateByGroups rt (.str v) = .ok (.date d)) ∨
      ∃ msg, parseDateBySplit rt v none = .error (.valueError msg) ∧
        coerceDateByGroups rt (.str v) = .error (.valueError msg) := by
  rw [parseDateBySplit_eq, coerceDateByGroups_eq, coerceDate_eq_parseDate]
  cases hparse : parseDate rt v none with
  | ok d => exact .inl ⟨d, rfl, rfl⟩
  | error e =>
      have hcoerce : coerceDate rt (.str v) = .error e := by
        rw [coerceDate_eq_parseDate, hparse]
        rfl
      rcases coerceDate_error hcoerce with ⟨msg, rfl⟩ | ⟨s, hs, _, _, cls, msg, hraised, _⟩
      · exact .inr ⟨msg, rfl, rfl⟩
      · cases hs
        exact absurd ⟨cls, msg, hraised⟩ hdocumented

/-- Both read the year first. -/
theorem slash_date_agrees :
    (∃ d, parseDateBySplit .plain "2024/4/2" none = .ok d ∧
        coerceDateByGroups .plain (.str "2024/4/2") = .ok (.date d)) ∨
      ∃ msg, parseDateBySplit .plain "2024/4/2" none = .error (.valueError msg) ∧
        coerceDateByGroups .plain (.str "2024/4/2") = .error (.valueError msg) :=
  date_parsers_agree .plain "2024/4/2" (by rintro ⟨cls, msg, ⟨⟩⟩)

end RiskFlow
