import RiskFlow.Lib.Control
import RiskFlow.Lib.Separated
import RiskFlow.Python.Numbers
import RiskFlow.Tools.BumpVersion
import RiskFlow.Tools.CheckApiChanges

/-!
# VersionBumps — the next version, and runs of bumps over one file

`compute_next_version` of a version `X.Y.Z` is again one, and a larger one
unless nothing changed. A file whose version line the writer rewrites as a
whole keeps that layout, so a run of bumps over it records every one.
-/

namespace RiskFlow

open Lib

/-! ## `compute_next_version` -/

/-- `major, minor, patch = version.split(".")`. -/
def unpackVersion (version : List Char) : Except PyErr (List Char × List Char × List Char) :=
  match version.splitOn '.' with
  | [major, minor, patch] => .ok (major, minor, patch)
  | parts =>
      if parts.length < 3 then
        .error (.valueError ("not enough values to unpack (expected 3, got " ++
          toString parts.length ++ ")"))
      else .error (.valueError "too many values to unpack (expected 3)")

/-- `int(part)`. -/
def intOfPart (part : List Char) : Except PyErr Int :=
  match intOfText? part with
  | some n => .ok n
  | none => .error (.valueError ("invalid literal for int() with base 10: " ++
      Py.reprStr (String.ofList part)))

def bumpMajor (version : List Char) : Except PyErr (List Char) := do
  let (major, _, _) ← unpackVersion version
  let n ← intOfPart major
  return strOfInt (n + 1) ++ ['.', '0', '.', '0']

def bumpMinor (version : List Char) : Except PyErr (List Char) := do
  let (major, minor, _) ← unpackVersion version
  let n ← intOfPart minor
  return major ++ '.' :: (strOfInt (n + 1) ++ ['.', '0'])

def bumpPatch (version : List Char) : Except PyErr (List Char) := do
  let (major, minor, patch) ← unpackVersion version
  let n ← intOfPart patch
  return major ++ '.' :: (minor ++ '.' :: strOfInt (n + 1))

/-- `compute_next_version`. -/
def computeNextVersion (current : List Char) (changeKind : ChangeKind) :
    Except PyErr (List Char) :=
  match changeKind with
  | .breaking => bumpMajor current
  | .nonBreaking => bumpMinor current
  | .none => .ok current

/-! ## The next version -/

/-- A number of a version, one larger. -/
def nextNumber (part : List Char) : List Char := Nat.toDigits 10 (Py.intOfDigits part + 1)

/-- A part of a version string. -/
def IsNumber (part : List Char) : Prop := part ≠ [] ∧ ∀ c ∈ part, Py.isDigit c = true

theorem nextNumber_isNumber (part : List Char) : IsNumber (nextNumber part) :=
  ⟨Nat.toDigits_ne_nil, toDigits_isDigit _⟩

theorem zero_isNumber : IsNumber ['0'] := ⟨by simp, toDigits_isDigit 0⟩

namespace Version
variable (v : Version)

theorem major_isNumber : IsNumber v.major := v.numbers v.major (by simp)
theorem minor_isNumber : IsNumber v.minor := v.numbers v.minor (by simp)
theorem patch_isNumber : IsNumber v.patch := v.numbers v.patch (by simp)

/-- A version of three numbers. -/
def ofParts {x y z : List Char} (hx : IsNumber x) (hy : IsNumber y) (hz : IsNumber z) :
    Version where
  major := x
  minor := y
  patch := z
  numbers := by
    intro ds hds
    simp only [List.mem_cons, List.not_mem_nil, or_false] at hds
    rcases hds with rfl | rfl | rfl
    · exact hx
    · exact hy
    · exact hz

/-- The version after a change. -/
def next : ChangeKind → Version
  | .breaking => ofParts (nextNumber_isNumber v.major) zero_isNumber zero_isNumber
  | .nonBreaking => ofParts v.major_isNumber (nextNumber_isNumber v.minor) zero_isNumber
  | .none => v

end Version

/-- The numbers of a version, compared from the left. -/
def Version.value (v : Version) : ℕ ×ₗ ℕ ×ₗ ℕ :=
  toLex (Py.intOfDigits v.major, toLex (Py.intOfDigits v.minor, Py.intOfDigits v.patch))

theorem unpackVersion_text (v : Version) :
    unpackVersion v.text = .ok (v.major, v.minor, v.patch) := by
  have hdot : ∀ {part : List Char}, IsNumber part → '.' ∉ part := by
    intro part h hmem
    exact absurd (h.2 '.' hmem) (by decide)
  rw [unpackVersion, Version.text, splitOn_three (hdot v.major_isNumber) (hdot v.minor_isNumber)
    (hdot v.patch_isNumber)]

theorem intOfPart_number {part : List Char} (h : IsNumber part) :
    intOfPart part = .ok (Py.intOfDigits part : Int) := by
  rw [intOfPart, intOfText?_digits h.1 h.2]

theorem strOfInt_next (part : List Char) :
    strOfInt ((Py.intOfDigits part : Int) + 1) = nextNumber part :=
  strOfInt_natCast (Py.intOfDigits part + 1)

theorem bumpMajor_text (v : Version) : bumpMajor v.text = .ok (v.next .breaking).text := by
  refine bind_eq_ok.mpr ⟨_, unpackVersion_text v, bind_eq_ok.mpr
    ⟨_, intOfPart_number v.major_isNumber, ?_⟩⟩
  rw [strOfInt_next]
  rfl

theorem bumpMinor_text (v : Version) : bumpMinor v.text = .ok (v.next .nonBreaking).text := by
  refine bind_eq_ok.mpr ⟨_, unpackVersion_text v, bind_eq_ok.mpr
    ⟨_, intOfPart_number v.minor_isNumber, ?_⟩⟩
  rw [strOfInt_next]
  rfl

/-- The patch number is bumped likewise; no kind of change asks for it. -/
theorem bumpPatch_text (v : Version) : bumpPatch v.text =
    .ok (Version.ofParts v.major_isNumber v.minor_isNumber (nextNumber_isNumber v.patch)).text := by
  refine bind_eq_ok.mpr ⟨_, unpackVersion_text v, bind_eq_ok.mpr
    ⟨_, intOfPart_number v.patch_isNumber, ?_⟩⟩
  rw [strOfInt_next]
  rfl

/-- **The next version of three numbers** is that of the next numbers. -/
theorem computeNextVersion_text (v : Version) (kind : ChangeKind) :
    computeNextVersion v.text kind = .ok (v.next kind).text := by
  cases kind with
  | none => rfl
  | nonBreaking => exact bumpMinor_text v
  | breaking => exact bumpMajor_text v

/-- A change makes the version larger. -/
theorem Version.value_lt_next (v : Version) {kind : ChangeKind} (h : kind ≠ .none) :
    v.value < (v.next kind).value := by
  cases kind with
  | none => exact absurd rfl h
  | nonBreaking =>
      simp [value, next, ofParts, nextNumber, intOfDigits_toDigits, Prod.Lex.toLex_lt_toLex]
  | breaking =>
      simp [value, next, ofParts, nextNumber, intOfDigits_toDigits, Prod.Lex.toLex_lt_toLex]

/-! ## Runs of bumps -/

/-- `main` without `--dry-run`, on a file that reads the version: the new
content of the file. -/
def bumpFile (kind : ChangeKind) (current : Version) (file : List Char) : List Char :=
  if (current.next kind).text = current.text then file else writeVersion (current.next kind) file

/-- The versions and contents of the file over a run of `main`, one kind of
change after the other. -/
def bumpAll : List ChangeKind → Version → List Char → Version × List Char
  | [], current, file => (current, file)
  | kind :: kinds, current, file => bumpAll kinds (current.next kind) (bumpFile kind current file)

/-- The file reads the version off a line that the writer rewrites, between
the given lines. -/
def Holds (before after : List Char) (version : Version) (file : List Char) : Prop :=
  ∃ line, VersionLine (readText file) before line after ∧ Rewrites before line after ∧
    lineValue line = some version.text

section Runs
variable {before after file : List Char} {current : Version}

theorem Holds.read (h : Holds before after current file) :
    readVersion file = .ok current.text := by
  obtain ⟨line, hline, -, hvalue⟩ := h
  rw [readVersion_eq rfl (carriageReturn_notMem false file) hline, hvalue]

/-- **Writing keeps the layout**: the file holds the new version between the
same lines. -/
theorem Holds.write (h : Holds before after current file) (v : Version) :
    Holds before after v (writeVersion v file) := by
  obtain ⟨line, hline, hrewrites, -⟩ := h
  obtain ⟨rest, hrest, hclear, hquote, hclean, hnew⟩ := hrewrites.writeVersion v hline
  have hread : readText (writeVersion v file) = writtenText v before (rest ++ after) := by
    rw [hnew]
    exact universalNewlines_clean hclean
  refine ⟨versionKey ++ (v.text ++ '"' :: rest), ?_, ⟨hrewrites.start, ⟨v.text, rest, rfl, hrest⟩,
    hrewrites.row⟩, (lineValue_written v hquote).mpr hrest⟩
  rw [hread]
  exact writtenText_line v hline hclear hline.stops

/-- A bump moves the file to the next version. -/
theorem Holds.bumpFile (h : Holds before after current file) (kind : ChangeKind) :
    Holds before after (current.next kind) (bumpFile kind current file) := by
  unfold RiskFlow.bumpFile
  split
  · rename_i hsame
    obtain ⟨line, hline, hrewrites, hvalue⟩ := h
    exact ⟨line, hline, hrewrites, hsame ▸ hvalue⟩
  · exact h.write (current.next kind)

/-- **A run of bumps records every one**: the file reads the version the run
has come to, and every other line is as it was. -/
theorem Holds.bumpAll (h : Holds before after current file) (kinds : List ChangeKind) :
    Holds before after (bumpAll kinds current file).1 (bumpAll kinds current file).2 := by
  induction kinds generalizing current file with
  | nil => exact h
  | cons kind kinds ih => exact ih (h.bumpFile kind)

end Runs

end RiskFlow
