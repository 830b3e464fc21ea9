import Mathlib

/-!
# Text — the string operations the program relies on

Python's `str` is Lean's `String`, both sequences of code points compared
lexicographically. The operations here work on the list of characters, so
they reduce in the kernel. `str.lower` is not here: it needs the Unicode
case tables and is a field of `Runtime`.
-/

namespace RiskFlow.Py

/-- `str.isspace` on one character (the characters `str.strip` removes). -/
def isSpace (c : Char) : Bool :=
  let n := c.toNat
  (9 ≤ n && n ≤ 13) || (28 ≤ n && n ≤ 32) || n == 0x85 || n == 0xA0 || n == 0x1680 ||
    (0x2000 ≤ n && n ≤ 0x200A) || n == 0x2028 || n == 0x2029 || n == 0x202F ||
    n == 0x205F || n == 0x3000

/-- `str.strip()`. -/
def strip (s : String) : String :=
  String.ofList (((s.toList.dropWhile isSpace).reverse.dropWhile isSpace).reverse)

/-- `not s.strip()`. -/
def isBlank (s : String) : Bool := (strip s).isEmpty

/-- A blank text has nothing but white space. -/
theorem isSpace_of_isBlank {s : String} (h : isBlank s = true) {c : Char} (hc : c ∈ s.toList) :
    isSpace c = true := by
  have hnil : (s.toList.dropWhile isSpace).reverse.dropWhile isSpace = [] := by
    simpa [isBlank, strip] using h
  rw [List.dropWhile_eq_nil_iff] at hnil
  by_contra hspace
  have hdrop : s.toList.dropWhile isSpace = [] := by
    cases hd : s.toList.dropWhile isSpace with
    | nil => rfl
    | cons x rest =>
        have hx := hnil x (by simp [hd])
        have hhead := List.head?_dropWhile_not isSpace s.toList
        rw [hd] at hhead
        simp [hx] at hhead
  exact hspace (List.dropWhile_eq_nil_iff.mp hdrop c hc)

/-- A text that is not blank has a character that is not white space. -/
theorem exists_not_isSpace {s : String} (h : isBlank s = false) :
    ∃ c ∈ s.toList, isSpace c = false := by
  by_contra hall
  push Not at hall
  have hdrop : s.toList.dropWhile isSpace = [] := by
    rw [List.dropWhile_eq_nil_iff]
    intro c hc
    simpa using hall c hc
  have hblank : isBlank s = true := by simp [isBlank, strip, hdrop]
  rw [h] at hblank
  cases hblank

/-- `s.endswith(suffix)`. -/
def endsWith (s suffix : String) : Bool := suffix.toList.isSuffixOf s.toList

/-- `s.startswith(front)`. -/
def startsWith (s front : String) : Bool := front.toList.isPrefixOf s.toList

/-- `s.removeprefix(front)`. -/
def removePrefix (s front : String) : String :=
  if startsWith s front then String.ofList (s.toList.drop front.toList.length) else s

@[simp] theorem startsWith_append (front s : String) : startsWith (front ++ s) front = true := by
  simp [startsWith, List.isPrefixOf_iff_prefix]

@[simp] theorem removePrefix_append (front s : String) :
    removePrefix (front ++ s) front = s := by
  simp [removePrefix]

/-- A string with the prefix is the prefix followed by what `removePrefix` leaves. -/
theorem append_removePrefix {s front : String} (h : startsWith s front = true) :
    front ++ removePrefix s front = s := by
  obtain ⟨rest, hrest⟩ := List.isPrefixOf_iff_prefix.mp h
  have hs : s = front ++ String.ofList rest := by
    apply String.toList_inj.mp
    simp [hrest]
  rw [hs, removePrefix_append]

/-- `os.path.splitext(p)`: the extension starts at the last dot of the last
component, unless only dots stand before it there. -/
def splitext (p : String) : String × String :=
  let base := (p.toList.reverse.takeWhile (· ≠ '/')).reverse
  let ext := (base.reverse.takeWhile (· ≠ '.')).reverse
  let stem := base.take (base.length - (ext.length + 1))
  if '.' ∈ base ∧ ¬ stem.all (· = '.') then
    (String.ofList (p.toList.take (p.toList.length - (ext.length + 1))), String.ofList ('.' :: ext))
  else (p, "")

example : splitext "/tmp/a.b/report.final.csv" = ("/tmp/a.b/report.final", ".csv") := by decide

/-- A suffix that starts with a character the middle lacks is one of the end. -/
theorem endsWith_append {c : Char} {front body ext suffix : String}
    (hsuffix : suffix.toList.head? = some c) (hbody : c ∉ body.toList)
    (hlength : suffix.toList.length ≤ body.toList.length) :
    endsWith (front ++ body ++ ext) suffix = endsWith ext suffix := by
  rw [Bool.eq_iff_iff]
  simp only [endsWith, List.isSuffixOf_iff_suffix, String.toList_append]
  constructor
  · intro h
    rcases List.suffix_or_suffix_of_suffix h (List.suffix_append _ _) with hshort | ⟨rest, hrest⟩
    · exact hshort
    · -- the suffix would begin in the body
      obtain ⟨p, hp⟩ := h
      rw [← hrest, ← List.append_assoc] at hp
      have hrest' : rest <:+ front.toList ++ body.toList := ⟨p, List.append_cancel_right hp⟩
      have hfits : rest.length ≤ body.toList.length := by
        have hle := congrArg List.length hrest
        rw [List.length_append] at hle
        omega
      have hin := List.suffix_of_suffix_length_le hrest' (List.suffix_append _ _) hfits
      cases rest with
      | nil => exact ⟨[], hrest.symm⟩
      | cons x xs =>
          rw [← hrest] at hsuffix
          cases hsuffix
          exact absurd (hin.subset List.mem_cons_self) hbody
  · exact fun h => h.trans (List.suffix_append _ _)

/-! ## Decimal digits -/

/-- The code points of the zeros of the Unicode decimal-digit blocks
(category Nd): `\d` matches a character up to nine places after one of
them, and `int` reads it as that distance. -/
def decimalZeros : List Nat :=
  [0x30, 0x660, 0x6F0, 0x7C0, 0x966, 0x9E6, 0xA66, 0xAE6, 0xB66, 0xBE6, 0xC66, 0xCE6, 0xD66,
    0xDE6, 0xE50, 0xED0, 0xF20, 0x1040, 0x1090, 0x17E0, 0x1810, 0x1946, 0x19D0, 0x1A80, 0x1A90,
    0x1B50, 0x1BB0, 0x1C40, 0x1C50, 0xA620, 0xA8D0, 0xA900, 0xA9D0, 0xA9F0, 0xAA50, 0xABF0,
    0xFF10, 0x104A0, 0x10D30, 0x11066, 0x110F0, 0x11136, 0x111D0, 0x112F0, 0x11450, 0x114D0,
    0x11650, 0x116C0, 0x11730, 0x118E0, 0x11950, 0x11C50, 0x11D50, 0x11DA0, 0x11F50, 0x16A60,
    0x16AC0, 0x16B50, 0x1D7CE, 0x1D7D8, 0x1D7E2, 0x1D7EC, 0x1D7F6, 0x1E140, 0x1E2F0, 0x1E4F0,
    0x1E950, 0x1FBF0]

/-- The decimal value of a digit character. -/
def digitValue? (c : Char) : Option Nat :=
  (decimalZeros.find? fun z => z ≤ c.toNat && c.toNat < z + 10).map fun z => c.toNat - z

/-- `\d`. -/
def isDigit (c : Char) : Bool := (digitValue? c).isSome

/-- A digit stands in one of the blocks. -/
theorem exists_zero_of_isDigit {c : Char} (h : isDigit c = true) :
    ∃ z ∈ decimalZeros, ∃ d < 10, c.toNat = z + d := by
  rw [isDigit, Option.isSome_iff_exists] at h
  obtain ⟨d, hd⟩ := h
  rw [digitValue?, Option.map_eq_some_iff] at hd
  obtain ⟨z, hfind, rfl⟩ := hd
  have hrange := List.find?_some hfind
  simp only [Bool.and_eq_true, decide_eq_true_eq] at hrange
  exact ⟨z, List.mem_of_find?_eq_some hfind, c.toNat - z, by omega, by omega⟩

/-- No digit is white space. -/
theorem isSpace_of_isDigit {c : Char} (h : isDigit c = true) : isSpace c = false := by
  have hplaces : ∀ z ∈ decimalZeros, ∀ d < 10, ((9 ≤ z + d && z + d ≤ 13) ||
      (28 ≤ z + d && z + d ≤ 32) || z + d == 0x85 || z + d == 0xA0 || z + d == 0x1680 ||
      (0x2000 ≤ z + d && z + d ≤ 0x200A) || z + d == 0x2028 || z + d == 0x2029 ||
      z + d == 0x202F || z + d == 0x205F || z + d == 0x3000) = false := by decide
  obtain ⟨z, hz, d, hd, hplace⟩ := exists_zero_of_isDigit h
  simp only [isSpace, hplace]
  exact hplaces z hz d hd

/-- `int(s)` on a string of digits. -/
def intOfDigits (cs : List Char) : Nat :=
  cs.foldl (fun n c => 10 * n + (digitValue? c).getD 0) 0

/-! ## Text of values in messages -/

private def hexDigit (n : Nat) : Char := "0123456789abcdef".toList.getD n '0'

private def reprChar (quote : Char) (c : Char) : List Char :=
  let backslash := Char.ofNat 92
  if c = quote ∨ c = backslash then [backslash, c]
  else if c = Char.ofNat 10 then [backslash, 'n']
  else if c = Char.ofNat 13 then [backslash, 'r']
  else if c = Char.ofNat 9 then [backslash, 't']
  else if c.toNat < 32 ∨ c.toNat = 127 then
    [backslash, 'x', hexDigit (c.toNat / 16), hexDigit (c.toNat % 16)]
  else [c]

/-- `repr(s)`: single quotes unless the text holds one and no double quote.
Non-ASCII text is taken as printable. -/
def reprStr (s : String) : String :=
  let single := Char.ofNat 39
  let double := Char.ofNat 34
  let quote := if single ∈ s.toList ∧ double ∉ s.toList then double else single
  String.ofList (quote :: s.toList.flatMap (reprChar quote) ++ [quote])

/-- `str(xs)` of a list of strings. -/
def reprStrs (xs : List String) : String :=
  "[" ++ ", ".intercalate (xs.map reprStr) ++ "]"

/-- `sorted(xs)` of strings. -/
def sorted (xs : List String) : List String := xs.insertionSort (· ≤ ·)

theorem sorted_perm (xs : List String) : (sorted xs).Perm xs :=
  List.perm_insertionSort _ xs

@[simp] theorem mem_sorted {x : String} {xs : List String} : x ∈ sorted xs ↔ x ∈ xs :=
  (sorted_perm xs).mem_iff

/-- Distinct texts are in strictly increasing order once sorted. -/
theorem sorted_pairwise_lt {xs : List String} (h : xs.Nodup) :
    (sorted xs).Pairwise (· < ·) := by
  have hle : (sorted xs).Pairwise (· ≤ ·) := List.pairwise_insertionSort (· ≤ ·) xs
  have hne : (sorted xs).Pairwise (· ≠ ·) := (sorted_perm xs).nodup_iff.mpr h
  exact (hle.and hne).imp fun hxy => lt_of_le_of_ne hxy.1 hxy.2

example : reprStrs (sorted ["b", "it's", "a"]) = "['a', 'b', \"it's\"]" := by decide

/-! ## Fixed-width numbers -/

/-- The last `width` decimal digits of a number. -/
def digits : Nat → Nat → List Char
  | 0, _ => []
  | width + 1, n => digits width (n / 10) ++ [Char.ofNat (48 + n % 10)]

/-- `f"{n:0{width}}"` of a number that fits the width. -/
def padded (width n : Nat) : String := String.ofList (digits width n)

@[simp] theorem length_digits (width n : Nat) : (digits width n).length = width := by
  induction width generalizing n with
  | zero => rfl
  | succ width ih => simp [digits, ih]

theorem digitValue?_digit {d : Nat} (h : d < 10) : digitValue? (Char.ofNat (48 + d)) = some d := by
  have hall : ∀ d < 10, digitValue? (Char.ofNat (48 + d)) = some d := by decide
  exact hall d h

theorem digits_isDigit (width n : Nat) : (digits width n).all isDigit = true := by
  induction width generalizing n with
  | zero => rfl
  | succ width ih =>
      have hlast : isDigit (Char.ofNat (48 + n % 10)) = true := by
        rw [isDigit, digitValue?_digit (by omega)]
        rfl
      rw [digits, List.all_append, ih]
      simp [hlast]

/-- Reading the digits of a number that fits the width gives it back. -/
theorem intOfDigits_digits (width n : Nat) (h : n < 10 ^ width) :
    intOfDigits (digits width n) = n := by
  induction width generalizing n with
  | zero =>
      have hn : n = 0 := by simpa using h
      rw [hn]
      rfl
  | succ width ih =>
      have hdiv : n / 10 < 10 ^ width := by
        rw [Nat.pow_succ] at h
        omega
      have hrest := ih (n / 10) hdiv
      unfold intOfDigits at hrest ⊢
      rw [digits, List.foldl_append, hrest]
      simp only [List.foldl_cons, List.foldl_nil, digitValue?_digit (Nat.mod_lt n (by omega)),
        Option.getD_some]
      omega

/-- One literal character of a pattern. -/
def literal (c : Char) : List Char → Option (List Char)
  | [] => none
  | x :: rest => if x = c then some rest else none

@[simp] theorem literal_cons (c : Char) (rest : List Char) : literal c (c :: rest) = some rest := by
  simp [literal]

/-- A number of exactly `width` digits, and the rest. -/
def readDigits (width : Nat) (cs : List Char) : Option (Nat × List Char) :=
  let ds := cs.take width
  if ds.length = width ∧ ds.all isDigit = true then some (intOfDigits ds, cs.drop width) else none

theorem readDigits_digits {width n : Nat} (h : n < 10 ^ width) (rest : List Char) :
    readDigits width (digits width n ++ rest) = some (n, rest) := by
  have htake : (digits width n ++ rest).take width = digits width n := by simp
  have hdrop : (digits width n ++ rest).drop width = rest := by simp
  simp only [readDigits, htake, hdrop, length_digits, digits_isDigit, and_self, if_true,
    intOfDigits_digits width n h]

end RiskFlow.Py
