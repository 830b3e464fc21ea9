import RiskFlow.Lib.Dict
import RiskFlow.Lib.Json
import RiskFlow.Python.Text

/-!
# Value — dates, cells, exceptions and the library parameters

The values a table cell, a record field or a dumped model can hold, the
exceptions the program raises and catches, and `Runtime`: the functions
of the standard library and of third parties that the repository calls
but does not contain.
-/

namespace RiskFlow

open Lib

/-! ## Dates -/

def isLeapYear (y : Nat) : Bool := y % 4 == 0 && (y % 100 != 0 || y % 400 == 0)

def daysInMonth (y m : Nat) : Nat :=
  if m = 2 then (if isLeapYear y then 29 else 28)
  else if m ∈ [4, 6, 9, 11] then 30 else 31

theorem daysInMonth_le (y m : Nat) : daysInMonth y m ≤ 31 := by
  unfold daysInMonth
  split <;> (try split) <;> omega

/-- `datetime.date`: a day of the calendar, by construction. -/
structure Date where
  year : Nat
  month : Nat
  day : Nat
  valid : 1 ≤ year ∧ year ≤ 9999 ∧ 1 ≤ month ∧ month ≤ 12 ∧ 1 ≤ day ∧ day ≤ daysInMonth year month
  deriving DecidableEq

namespace Date

/-- The constructor `datetime.date(y, m, d)`; `none` is its `ValueError`. -/
def mk? (y m d : Nat) : Option Date :=
  if h : 1 ≤ y ∧ y ≤ 9999 ∧ 1 ≤ m ∧ m ≤ 12 ∧ 1 ≤ d ∧ d ≤ daysInMonth y m then
    some ⟨y, m, d, h⟩
  else none

theorem mk?_self (d : Date) : mk? d.year d.month d.day = some d := by
  simp [mk?, d.valid]

/-- `a < b` on dates: by year, then month, then day. -/
def before (a b : Date) : Bool :=
  a.year < b.year ||
    (a.year == b.year && (a.month < b.month || (a.month == b.month && a.day < b.day)))

/-- `d.isoformat()`. -/
def isoformat (d : Date) : String :=
  Py.padded 4 d.year ++ "-" ++ Py.padded 2 d.month ++ "-" ++ Py.padded 2 d.day

end Date

/-- `datetime.datetime` without a time zone. -/
structure DateTime where
  date : Date
  hour : Fin 24
  minute : Fin 60
  second : Fin 60
  microsecond : Fin 1000000
  deriving DecidableEq

/-- The first instant of a day. -/
def DateTime.midnight (date : Date) : DateTime := ⟨date, 0, 0, 0, 0⟩

/-- `dt.isoformat()`: the fraction is written only when there is one. -/
def DateTime.isoformat (t : DateTime) : String :=
  t.date.isoformat ++ "T" ++ Py.padded 2 t.hour ++ ":" ++ Py.padded 2 t.minute ++ ":" ++
    Py.padded 2 t.second ++
    (if t.microsecond = 0 then "" else "." ++ Py.padded 6 t.microsecond)

namespace DateTime

/-- `isoformat` of a time stamp in UTC. -/
def isoformatUtc (t : DateTime) : String := t.isoformat ++ "+00:00"

/-- The optional fraction of a second, in microseconds. -/
def readFraction : List Char → Option (Nat × List Char)
  | '.' :: rest => Py.readDigits 6 rest
  | cs => some (0, cs)

/-- The date of an ISO text. -/
def readDate (cs : List Char) : Option (Date × List Char) := do
  let (year, cs) ← Py.readDigits 4 cs
  let (month, cs) ← Py.readDigits 2 (← Py.literal '-' cs)
  let (day, cs) ← Py.readDigits 2 (← Py.literal '-' cs)
  let date ← Date.mk? year month day
  some (date, cs)

/-- The two-digit fields of the time of day, below their bounds. -/
def readField (bound : Nat) (cs : List Char) : Option (Fin bound × List Char) := do
  let (n, cs) ← Py.readDigits 2 cs
  if h : n < bound then some (⟨n, h⟩, cs) else none

/-- `datetime.fromisoformat` on the form `isoformatUtc` writes; `none` is
its `ValueError`. -/
def fromisoformatUtc (s : String) : Option DateTime := do
  let (date, cs) ← readDate s.toList
  let (hour, cs) ← readField 24 (← Py.literal 'T' cs)
  let (minute, cs) ← readField 60 (← Py.literal ':' cs)
  let (second, cs) ← readField 60 (← Py.literal ':' cs)
  let (fraction, cs) ← readFraction cs
  if h : fraction < 1000000 then
    if cs = ['+', '0', '0', ':', '0', '0'] then
      some { date, hour, minute, second, microsecond := ⟨fraction, h⟩ }
    else none
  else none

theorem readDate_digits (d : Date) (rest : List Char) :
    readDate (Py.digits 4 d.year ++ '-' :: (Py.digits 2 d.month ++ '-' ::
      (Py.digits 2 d.day ++ rest))) = some (d, rest) := by
  obtain ⟨hy0, hy, hm0, hm, hd0, hd⟩ := d.valid
  have hdays := daysInMonth_le d.year d.month
  have hyear : d.year < 10 ^ 4 := by omega
  have hmonth : d.month < 10 ^ 2 := by omega
  have hday : d.day < 10 ^ 2 := by omega
  simp [readDate, Py.readDigits_digits hyear, Py.readDigits_digits hmonth,
    Py.readDigits_digits hday, Date.mk?_self]

theorem readField_digits {bound : Nat} (hb : bound ≤ 10 ^ 2) (n : Fin bound) (rest : List Char) :
    readField bound (Py.digits 2 n ++ rest) = some (n, rest) := by
  have hn : (n : Nat) < 10 ^ 2 := Nat.lt_of_lt_of_le n.isLt hb
  simp [readField, Py.readDigits_digits hn]

theorem readFraction_digits (n : Fin 1000000) (rest : List Char) :
    readFraction ((if n = 0 then [] else '.' :: Py.digits 6 n) ++ '+' :: rest) =
      some ((n : Nat), '+' :: rest) := by
  split
  · rename_i hzero
    rw [hzero]
    rfl
  · exact Py.readDigits_digits n.isLt _

/-- **A written time stamp reads back as itself.** -/
theorem fromisoformatUtc_isoformatUtc (t : DateTime) :
    fromisoformatUtc t.isoformatUtc = some t := by
  have htext : t.isoformatUtc.toList =
      Py.digits 4 t.date.year ++ '-' :: (Py.digits 2 t.date.month ++ '-' ::
        (Py.digits 2 t.date.day ++ 'T' :: (Py.digits 2 t.hour ++ ':' ::
          (Py.digits 2 t.minute ++ ':' :: (Py.digits 2 t.second ++
            ((if t.microsecond = 0 then [] else '.' :: Py.digits 6 t.microsecond) ++
              ['+', '0', '0', ':', '0', '0'])))))) := by
    simp only [isoformatUtc, isoformat, Date.isoformat, Py.padded]
    split <;> simp
  simp only [fromisoformatUtc, htext, readDate_digits, Py.literal_cons, Option.bind_eq_bind,
    Option.bind_some, readField_digits (show 24 ≤ 10 ^ 2 by decide),
    readField_digits (show 60 ≤ 10 ^ 2 by decide), readFraction_digits, Fin.isLt, dif_pos, if_true]

end DateTime

/-! ## Values -/

/-- A Python value as it occurs in a table, a record or a dumped model.
`other` stands for every further type (`time`, `timedelta`, `Decimal`, …),
known by its class and its text. -/
inductive PyVal where
  | none
  | bool (b : Bool)
  | int (i : Int)
  | float (x : XRat)
  | str (s : String)
  | date (d : Date)
  | datetime (t : DateTime)
  | list (xs : List PyVal)
  | dict (kvs : List (String × PyVal))
  | other (cls text : String)

instance : Inhabited PyVal := ⟨.none⟩

/-- A row of a table or a record: column name to value. -/
abbrev Row := Dict String PyVal

namespace PyVal

/-- `v is None`. -/
def isNone : PyVal → Bool
  | .none => true
  | _ => false

theorem isNone_iff {v : PyVal} : v.isNone = true ↔ v = .none := by
  cases v <;> simp [isNone]

/-- The name `type(v).__name__`. -/
def typeName : PyVal → String
  | .none => "NoneType"
  | .bool _ => "bool"
  | .int _ => "int"
  | .float _ => "float"
  | .str _ => "str"
  | .date _ => "date"
  | .datetime _ => "datetime"
  | .list _ => "list"
  | .dict _ => "dict"
  | .other cls _ => cls

end PyVal

/-! ## Exceptions -/

/-- One entry of `ValidationError.errors()`. -/
structure ErrorDetails where
  loc : List String
  msg : String
  input : PyVal

/-- A raised exception: its class, and what the program reads from it. -/
inductive PyErr where
  | validationError (errors : List ErrorDetails)
  | valueError (msg : String)
  | typeError (msg : String)
  | attributeError (msg : String)
  | duplicateError (column : String)
  | noDataError (msg : String)
  | fileNotFoundError (msg : String)
  | mappingConfidenceLowError (msg : String)
  | invalidCedentDataError (msg : String)
  | schemaValidationError (msg : String)
  | slmUnavailableError (msg : String)
  | invalidSchemaError (msg : String)
  | invalidCorrectionError (msg : String)
  | otherException (cls msg : String)
  /-- `CancelledError`, `KeyboardInterrupt`, `SystemExit`: a `BaseException`
  that is not an `Exception`. -/
  | baseException (cls : String)

namespace PyErr

/-- `isinstance(e, ValueError)`; pydantic's `ValidationError` is one. -/
def isValueError : PyErr → Bool
  | .validationError _ => true
  | .valueError _ => true
  | _ => false

/-- The message pydantic collects of an exception that a validator raised: of
a `ValueError` or an `AssertionError`. It lets any other exception through. -/
def collected : PyErr → Option String
  | .valueError msg => some ("Value error, " ++ msg)
  | .otherException cls msg =>
      if cls = "AssertionError" then some ("Assertion failed, " ++ msg) else none
  | _ => none

/-- `isinstance(e, Exception)`. -/
def isException : PyErr → Bool
  | .baseException _ => false
  | _ => true

end PyErr

/-! ## Library parameters -/

/-- How `dateutil_parser.parse` fails: with the `ValueError` or `OverflowError`
it documents, or with an exception of another class, as the
`decimal.InvalidOperation` of some texts with a huge number. -/
inductive DateutilFailure where
  | documented
  | other (cls msg : String)

/-- What the repository calls and does not contain. Every result about
the program holds for all of them unless it names a law it needs. -/
structure Runtime where
  /-- `str.lower`. -/
  lower : String → String
  /-- `str(v)` of a value that is not a string. -/
  strOf : PyVal → String
  /-- `repr` of a float. -/
  reprFloat : XRat → String
  /-- `hashlib.sha256(s.encode()).hexdigest()`. -/
  sha256 : String → String
  /-- `hashlib.blake2b(json.dumps(j).encode(), digest_size=16).hexdigest()`. -/
  blake2b : Json → String
  /-- `datetime.date.fromisoformat`; `none` is its `ValueError`. -/
  fromisoformat : String → Option Date
  /-- `dateutil_parser.parse(s, dayfirst=True).date()`. -/
  dateutilParse : String → Except DateutilFailure Date
  /-- pydantic's lax validation of a `str`, a `float` and a `date`; an error
  is the message of the failed type check. -/
  pydanticStr : PyVal → Except String String
  pydanticFloat : PyVal → Except String XRat
  pydanticDate : PyVal → Except String Date
  /-- What `create_model` raises for a field of this name, which its
  `BaseModel` reserves. -/
  reservedField : String → Option PyErr
  /-- What a class with a base class takes for the default of a field of this
  name: an attribute of `BaseModel` or of its metaclass, as `register`. -/
  classAttribute : String → Option PyVal
  /-- What `getattr` finds under this name in place of a field's value: a
  property of `BaseModel`. -/
  baseProperty : String → Option PyVal
  /-- What `getattr(self, name, None)` finds of a private attribute without a
  default: nothing, or the `...` of its declaration. -/
  privateAttribute : String → PyVal
  /-- `v < w` where one of the two is such a value; `none` is its `TypeError`. -/
  less : PyVal → PyVal → Option Bool
  /-- `str(ValidationError)`. -/
  strOfErrors : List ErrorDetails → String
  /-- `str` of any other exception. -/
  strOfException : PyErr → String

namespace Runtime

/-- `str(v)`. -/
def str (rt : Runtime) : PyVal → String
  | .str s => s
  | v => rt.strOf v

/-- `str(e)`. -/
def strErr (rt : Runtime) : PyErr → String
  | .validationError errors => rt.strOfErrors errors
  | .valueError msg => msg
  | e => rt.strOfException e

/-- On this text dateutil raises an exception that it does not document. -/
def DateutilRaises (rt : Runtime) (text : String) : Prop :=
  ∃ cls msg, rt.dateutilParse text = .error (.other cls msg)

/-- A runtime with the exact type checks and ASCII case folding: the one
concrete inputs are evaluated on. -/
def plain : Runtime where
  lower s := String.ofList (s.toList.map Char.toLower)
  strOf v := v.typeName
  reprFloat _ := "float"
  sha256 := id
  blake2b _ := "fingerprint"
  fromisoformat _ := none
  dateutilParse _ := .error .documented
  pydanticStr
    | .str s => .ok s
    | _ => .error "Input should be a valid string"
  pydanticFloat
    | .float x => .ok x
    | .int i => .ok (.finite i)
    | _ => .error "Input should be a valid number"
  pydanticDate
    | .date d => .ok d
    | _ => .error "Input should be a valid date"
  reservedField _ := none
  classAttribute _ := none
  baseProperty _ := none
  privateAttribute _ := .none
  less _ _ := none
  strOfErrors _ := "validation error"
  strOfException _ := "error"

end Runtime

end RiskFlow
