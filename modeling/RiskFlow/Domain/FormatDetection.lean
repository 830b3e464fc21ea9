import RiskFlow.Lib.Classify
import RiskFlow.Domain.DateFormat

/-!
# FormatDetection — the four date patterns exclude each other

`threeNumbers_eq_some_iff` says which texts a numeric pattern accepts, and
with which groups. From it no text matches two of the four patterns, so
`detect_date_format` is the classification of a sample by exclusive tests:
it has a format exactly when both halves of the sample have it.
-/

namespace RiskFlow

open Lib

/-! ## The texts of a numeric pattern -/

/-- A text of the pattern piece `\d{lo,hi}`. -/
structure DigitRun (width : Nat × Nat) (ds : List Char) : Prop where
  low : width.1 ≤ ds.length
  high : ds.length ≤ width.2
  digits : ∀ c ∈ ds, Py.isDigit c = true

/-- What `$` leaves unread: nothing, or a final line break. -/
def LineEnd (cs : List Char) : Prop := cs = [] ∨ cs = [Char.ofNat 10]

@[simp] theorem atEnd_iff {cs : List Char} : atEnd cs = true ↔ LineEnd cs := by
  unfold LineEnd
  rcases cs with _ | ⟨c, _ | ⟨d, cs⟩⟩
  · simp [atEnd]
  · simp [atEnd]
  · simp [atEnd]

theorem literal_eq_some_iff {sep : Char} {cs rest : List Char} :
    Py.literal sep cs = some rest ↔ cs = sep :: rest := by
  cases cs with
  | nil => simp [Py.literal]
  | cons c cs =>
      by_cases hc : c = sep
      · simp [hc, eq_comm]
      · simp [Py.literal, hc]

/-- A run that is read is one of the pattern piece. -/
theorem DigitRun.of_takeDigits {lo hi : Nat} {cs ds rest : List Char}
    (h : takeDigits lo hi cs = some (ds, rest)) : DigitRun (lo, hi) ds ∧ cs = ds ++ rest := by
  simp only [takeDigits] at h
  split at h
  · rename_i hlow
    cases h
    have htaken : (cs.take hi).takeWhile Py.isDigit <+: cs.take hi := List.takeWhile_prefix _
    refine ⟨⟨hlow, ?_, fun c hc => List.mem_takeWhile_imp hc⟩, ?_⟩
    · have hle := htaken.length_le
      rw [List.length_take] at hle
      omega
    · exact (List.prefix_iff_eq_append.mp (htaken.trans (List.take_prefix _ _))).symm
  · cases h

/-- A run of the pattern piece is read where no digit follows it. -/
theorem DigitRun.takeDigits {width : Nat × Nat} {ds rest : List Char} (h : DigitRun width ds)
    (hrest : ∀ c ∈ rest.head?, Py.isDigit c = false) :
    takeDigits width.1 width.2 (ds ++ rest) = some (ds, rest) := by
  have hstop : (rest.take (width.2 - ds.length)).takeWhile Py.isDigit = [] := by
    cases rest with
    | nil => simp
    | cons c cs =>
        have hc : Py.isDigit c = false := hrest c rfl
        cases width.2 - ds.length with
        | zero => simp
        | succ k => simp [hc]
  have hrun : ((ds ++ rest).take width.2).takeWhile Py.isDigit = ds := by
    rw [List.take_append, List.take_of_length_le h.high, List.takeWhile_append_of_pos h.digits,
      hstop, List.append_nil]
  simp [RiskFlow.takeDigits, hrun, h.low]

/-- A text `x sep y sep z`, up to a final line break. -/
structure ThreeRuns (sep : Char) (a b c : Nat × Nat) (text x y z : List Char) : Prop where
  text_eq : ∃ tail, text = x ++ sep :: (y ++ sep :: (z ++ tail)) ∧ LineEnd tail
  first : DigitRun a x
  second : DigitRun b y
  third : DigitRun c z

/-- **The texts of a numeric pattern**, with their groups. -/
theorem threeNumbers_eq_some_iff {sep : Char} (hsep : Py.isDigit sep = false)
    {a b c : Nat × Nat} {s : String} {x y z : List Char} :
    threeNumbers sep a b c s = some (x, y, z) ↔ ThreeRuns sep a b c s.toList x y z := by
  simp only [threeNumbers, Option.bind_eq_bind, Option.bind_eq_some_iff]
  constructor
  · rintro ⟨⟨x', r₁⟩, hx, r₂, hsep₁, ⟨y', r₃⟩, hy, r₄, hsep₂, ⟨z', tail⟩, hz, h⟩
    split at h
    · rename_i hend
      cases h
      obtain ⟨hx, htext⟩ := DigitRun.of_takeDigits hx
      obtain ⟨hy, hr₂⟩ := DigitRun.of_takeDigits hy
      obtain ⟨hz, hr₄⟩ := DigitRun.of_takeDigits hz
      have hr₁ : r₁ = sep :: r₂ := literal_eq_some_iff.mp hsep₁
      have hr₃ : r₃ = sep :: r₄ := literal_eq_some_iff.mp hsep₂
      refine ⟨⟨tail, ?_, atEnd_iff.mp hend⟩, hx, hy, hz⟩
      rw [htext, hr₁, hr₂, hr₃, hr₄]
    · cases h
  · rintro ⟨⟨tail, htext, hend⟩, hx, hy, hz⟩
    have hsep : ∀ rest : List Char, ∀ d ∈ (sep :: rest).head?, Py.isDigit d = false := by
      intro rest d hd
      cases hd
      exact hsep
    have htail : ∀ d ∈ tail.head?, Py.isDigit d = false := by
      rcases hend with rfl | rfl
      · simp
      · intro d hd
        cases hd
        decide
    rw [htext]
    refine ⟨_, hx.takeDigits (hsep _), _, Py.literal_cons sep _, _, hy.takeDigits (hsep _), _,
      Py.literal_cons sep _, _, hz.takeDigits htail, ?_⟩
    rw [if_pos (atEnd_iff.mpr hend)]

/-- A numeric pattern matches a text that has its form. -/
theorem threeNumbers_isSome_iff {sep : Char} (hsep : Py.isDigit sep = false)
    {a b c : Nat × Nat} {s : String} :
    (threeNumbers sep a b c s).isSome = true ↔ ∃ x y z, ThreeRuns sep a b c s.toList x y z := by
  rw [Option.isSome_iff_exists]
  constructor
  · rintro ⟨⟨x, y, z⟩, h⟩
    exact ⟨x, y, z, (threeNumbers_eq_some_iff hsep).mp h⟩
  · rintro ⟨x, y, z, h⟩
    exact ⟨(x, y, z), (threeNumbers_eq_some_iff hsep).mpr h⟩

/-! ## No text matches two patterns -/

/-- Of a text with numbers in it, no character is anything but a digit, the
separator and a line break. -/
theorem ThreeRuns.chars {sep : Char} {a b c : Nat × Nat} {text x y z : List Char}
    (h : ThreeRuns sep a b c text x y z) :
    ∀ d ∈ text, Py.isDigit d = true ∨ d = sep ∨ d = Char.ofNat 10 := by
  obtain ⟨⟨tail, rfl, hend⟩, hx, hy, hz⟩ := h
  intro d hd
  simp only [List.mem_append, List.mem_cons] at hd
  rcases hd with hd | hd | hd | hd | hd | hd
  · exact .inl (hx.digits d hd)
  · exact .inr (.inl hd)
  · exact .inl (hy.digits d hd)
  · exact .inr (.inl hd)
  · exact .inl (hz.digits d hd)
  · rcases hend with rfl | rfl
    · cases hd
    · exact .inr (.inr (List.mem_singleton.mp hd))

theorem ThreeRuns.sep_mem {sep : Char} {a b c : Nat × Nat} {text x y z : List Char}
    (h : ThreeRuns sep a b c text x y z) : sep ∈ text := by
  obtain ⟨⟨tail, rfl, _⟩, _, _, _⟩ := h
  simp

/-- Texts with different separators are different. -/
theorem ThreeRuns.sep_eq {sep sep' : Char} {a b c a' b' c' : Nat × Nat}
    {text x y z x' y' z' : List Char} (h : ThreeRuns sep a b c text x y z)
    (h' : ThreeRuns sep' a' b' c' text x' y' z') (hsep : Py.isDigit sep = false)
    (hbreak : sep ≠ Char.ofNat 10) : sep = sep' := by
  rcases h'.chars sep h.sep_mem with hdigit | heq | heq
  · rw [hsep] at hdigit
    cases hdigit
  · exact heq
  · exact absurd heq hbreak

/-- The first number is the run of digits the text starts with. -/
theorem ThreeRuns.takeWhile {sep : Char} (hsep : Py.isDigit sep = false) {a b c : Nat × Nat}
    {text x y z : List Char} (h : ThreeRuns sep a b c text x y z) :
    text.takeWhile Py.isDigit = x := by
  obtain ⟨⟨tail, rfl, _⟩, hx, _, _⟩ := h
  rw [List.takeWhile_append_of_pos hx.digits, List.takeWhile_cons_of_neg (by simp [hsep]),
    List.append_nil]

/-- Digits stand in none of the places of the letters. -/
theorem digit_place {c : Char} (h : Py.isDigit c = true) :
    ¬ (65 ≤ c.toNat ∧ c.toNat ≤ 90) ∧ ¬ (97 ≤ c.toNat ∧ c.toNat ≤ 122) ∧ c.toNat ≠ 0x17F := by
  have hplaces : ∀ z ∈ Py.decimalZeros, ∀ d < 10, ¬ (65 ≤ z + d ∧ z + d ≤ 90) ∧
      ¬ (97 ≤ z + d ∧ z + d ≤ 122) ∧ z + d ≠ 0x17F := by decide
  obtain ⟨z, hz, d, hd, hplace⟩ := Py.exists_zero_of_isDigit h
  rw [hplace]
  exact hplaces z hz d hd

/-- The letters a month name starts with. -/
def monthInitials : List Char := ['J', 'F', 'M', 'A', 'S', 'O', 'N', 'D']

theorem exists_initial {name : String} (h : name ∈ monthNames) :
    ∃ p ∈ monthInitials, ∃ ps, name.toList = p :: ps := by
  have hall : ∀ name ∈ monthNames, ∃ p ∈ monthInitials, name.toList.head? = some p := by
    simp [monthNames, monthInitials]
  obtain ⟨p, hp, hhead⟩ := hall name h
  exact ⟨p, hp, List.head?_eq_some_iff.mp hhead⟩

/-- No digit and none of the other characters of a numeric text matches
the first letter of a month. -/
theorem sameLetter_initial {p c : Char} (hp : p ∈ monthInitials)
    (hc : Py.isDigit c = true ∨ c ∈ ['-', '/', Char.ofNat 10]) : sameLetter p c = false := by
  rcases hc with hdigit | hmark
  · obtain ⟨hupper, hlower, hlong⟩ := digit_place hdigit
    have hsame : c.toLower = c := by
      unfold Char.toLower
      rw [dif_neg]
      exact fun h => hupper ⟨h.1, h.2⟩
    have hletter : ∀ p ∈ monthInitials, 97 ≤ p.toLower.toNat ∧ p.toLower.toNat ≤ 122 := by
      simp [monthInitials]
    have hne : p.toLower ≠ c := by
      rintro rfl
      exact hlower (hletter p hp)
    simp [sameLetter, hsame, hne, hlong]
  · have hmarks : ∀ p ∈ monthInitials, ∀ c ∈ ['-', '/', Char.ofNat 10],
        sameLetter p c = false := by
      simp [monthInitials, sameLetter]
    exact hmarks p hp c hmark

/-- Where a name occurs, its first letter does. -/
theorem exists_of_occursIn {p : Char} {ps : List Char} {cs : List Char}
    (h : occursIn (p :: ps) cs = true) : ∃ c ∈ cs, sameLetter p c = true := by
  induction cs with
  | nil => cases h
  | cons c cs ih =>
      rw [occursIn, Bool.or_eq_true] at h
      rcases h with h | h
      · rw [matchesHere, Bool.and_eq_true] at h
        exact ⟨c, List.mem_cons_self, h.1⟩
      · obtain ⟨d, hd, hsame⟩ := ih h
        exact ⟨d, List.mem_cons_of_mem _ hd, hsame⟩

/-- A text of three numbers has no month name in it. -/
theorem ThreeRuns.no_month {sep : Char} {a b c : Nat × Nat} {s : String} {x y z : List Char}
    (h : ThreeRuns sep a b c s.toList x y z) (hsep : sep ∈ ['-', '/']) :
    monthNamePattern s = false := by
  rw [Bool.eq_false_iff]
  intro hmonth
  obtain ⟨name, hname, hocc⟩ := List.any_eq_true.mp hmonth
  obtain ⟨p, hp, ps, hcons⟩ := exists_initial hname
  rw [hcons] at hocc
  obtain ⟨d, hd, hsame⟩ := exists_of_occursIn hocc
  have hplain : Py.isDigit d = true ∨ d ∈ ['-', '/', Char.ofNat 10] := by
    rcases h.chars d hd with hdigit | rfl | rfl
    · exact .inl hdigit
    · exact .inr (List.mem_append_left [Char.ofNat 10] hsep)
    · exact .inr (by simp)
  rw [sameLetter_initial hp hplain] at hsame
  cases hsame

/-- Two numeric patterns with different separators accept no common text. -/
theorem threeNumbers_sep {sep sep' : Char} (hsep : Py.isDigit sep = false)
    (hsep' : Py.isDigit sep' = false) (hbreak : sep ≠ Char.ofNat 10) (hne : sep ≠ sep')
    {a b c a' b' c' : Nat × Nat} {s : String} (h : (threeNumbers sep a b c s).isSome = true) :
    (threeNumbers sep' a' b' c' s).isSome = false := by
  rw [Bool.eq_false_iff]
  intro h'
  obtain ⟨_, _, _, hruns⟩ := (threeNumbers_isSome_iff hsep).mp h
  obtain ⟨_, _, _, hruns'⟩ := (threeNumbers_isSome_iff hsep').mp h'
  exact hne (hruns.sep_eq hruns' hsep hbreak)

/-- Nor do two whose first numbers differ in length. -/
theorem threeNumbers_width {sep : Char} (hsep : Py.isDigit sep = false)
    {a b c a' b' c' : Nat × Nat} (hwidth : a'.2 < a.1) {s : String}
    (h : (threeNumbers sep a b c s).isSome = true) :
    (threeNumbers sep a' b' c' s).isSome = false := by
  rw [Bool.eq_false_iff]
  intro h'
  obtain ⟨x, _, _, hruns⟩ := (threeNumbers_isSome_iff hsep).mp h
  obtain ⟨x', _, _, hruns'⟩ := (threeNumbers_isSome_iff hsep).mp h'
  have hsame : x = x' := (hruns.takeWhile hsep).symm.trans (hruns'.takeWhile hsep)
  have hlow := hruns.first.low
  have hhigh := hruns'.first.high
  rw [hsame] at hlow
  omega

/-- A text of a numeric pattern has no month name in it. -/
theorem threeNumbers_month {sep : Char} (hmem : sep ∈ ['-', '/']) {a b c : Nat × Nat} {s : String}
    (h : (threeNumbers sep a b c s).isSome = true) : monthNamePattern s = false := by
  have hsep : Py.isDigit sep = false := by
    rw [List.mem_pair] at hmem
    rcases hmem with rfl | rfl
    · decide
    · decide
  obtain ⟨_, _, _, hruns⟩ := (threeNumbers_isSome_iff hsep).mp h
  exact hruns.no_month hmem

/-! ## Detection as a classification -/

/-- The four tests, in the order `detect_date_format` tries them. -/
def formatTests : List (DateFormat × (String → Bool)) :=
  [(.iso, isoPattern), (.yyyySlash, fun v => (yyyySlashPattern v).isSome),
    (.namedMonth, monthNamePattern), (.dayfirst, dayfirstSlashPattern)]

/-- The elements that are not blank, stripped. -/
def strippedValues (values : List String) : List String :=
  (values.filter fun v => !Py.isBlank v).map Py.strip

/-- `detect_date_format` with the tests tried in the order given. -/
def detectInOrder (order : List (DateFormat × (String → Bool))) (values : List String) :
    Option DateFormat :=
  if (strippedValues values).isEmpty then none else firstAll order (strippedValues values)

theorem detectInOrder_formatTests (values : List String) :
    detectInOrder formatTests values = detectDateFormat values := by
  unfold detectInOrder detectDateFormat strippedValues
  simp only [firstAll, formatTests, List.find?_cons, List.find?_nil]
  split
  · rfl
  · repeat' split
    all_goals simp_all

/-- **No text matches two of the four patterns.** -/
theorem formatTests_exclusive : Exclusive formatTests := by
  refine ⟨by decide, ?_⟩
  have hdash : Py.isDigit '-' = false := by decide
  have hslash : Py.isDigit '/' = false := by decide
  simp only [formatTests, List.pairwise_cons, List.mem_cons, List.not_mem_nil, or_false,
    forall_eq_or_imp, forall_eq]
  refine ⟨⟨fun s h => ?_, fun s h => ?_, fun s h => ?_⟩, ⟨fun s h => ?_, fun s h => ?_⟩,
    fun s h => ?_, ?_⟩
  · exact threeNumbers_sep hdash hslash (by decide) (by decide) h
  · exact threeNumbers_month (by simp) h
  · exact threeNumbers_sep hdash hslash (by decide) (by decide) h
  · exact threeNumbers_month (by simp) h
  · exact threeNumbers_width hslash (by decide) h
  · rw [Bool.eq_false_iff]
    intro hday
    rw [threeNumbers_month (by simp) hday] at h
    cases h
  · simp

@[simp] theorem strippedValues_append (xs ys : List String) :
    strippedValues (xs ++ ys) = strippedValues xs ++ strippedValues ys := by
  simp [strippedValues]

theorem strippedValues_ne_nil {xs : List String} (h : ∃ x ∈ xs, Py.isBlank x = false) :
    strippedValues xs ≠ [] := by
  obtain ⟨x, hx, htext⟩ := h
  have hmem : Py.strip x ∈ strippedValues xs :=
    List.mem_map_of_mem (List.mem_filter.mpr ⟨hx, by simp [htext]⟩)
  exact List.ne_nil_of_mem hmem

/-- A sample with some text in it is classified. -/
theorem detectInOrder_of_ne_nil {order : List (DateFormat × (String → Bool))} {xs : List String}
    (h : strippedValues xs ≠ []) : detectInOrder order xs = firstAll order (strippedValues xs) := by
  unfold detectInOrder
  rw [if_neg (by simpa using h)]

/-- A sample of two halves with text in both has a format exactly when both
halves have it. -/
theorem detect_append {xs ys : List String} (hx : ∃ x ∈ xs, Py.isBlank x = false)
    (hy : ∃ y ∈ ys, Py.isBlank y = false) (f : DateFormat) :
    detectDateFormat (xs ++ ys) = some f ↔
      detectDateFormat xs = some f ∧ detectDateFormat ys = some f := by
  have hxs := strippedValues_ne_nil hx
  have hys := strippedValues_ne_nil hy
  have hboth : strippedValues (xs ++ ys) ≠ [] := by simp [strippedValues_append, hxs]
  simp only [← detectInOrder_formatTests, detectInOrder_of_ne_nil hxs, detectInOrder_of_ne_nil hys,
    detectInOrder_of_ne_nil hboth, strippedValues_append]
  exact firstAll_append formatTests_exclusive hxs hys

/-- Blank elements do not matter. -/
theorem detect_filter (xs : List String) :
    detectDateFormat (xs.filter fun v => !Py.isBlank v) = detectDateFormat xs := by
  unfold detectDateFormat
  simp only [List.filter_filter, Bool.and_self]

/-- The order of the elements does not matter. -/
theorem detect_perm {xs ys : List String} (h : xs.Perm ys) :
    detectDateFormat xs = detectDateFormat ys := by
  have hstripped : (strippedValues xs).Perm (strippedValues ys) := (h.filter _).map _
  simp only [← detectInOrder_formatTests, detectInOrder]
  rw [hstripped.isEmpty_eq, firstAll_perm formatTests hstripped]

/-- The order in which the patterns are tried does not matter. -/
theorem detect_order {order : List (DateFormat × (String → Bool))}
    (h : order.Perm formatTests) (xs : List String) :
    detectInOrder order xs = detectDateFormat xs := by
  rw [← detectInOrder_formatTests]
  by_cases hxs : strippedValues xs = []
  · simp [detectInOrder, hxs]
  · rw [detectInOrder_of_ne_nil hxs, detectInOrder_of_ne_nil hxs]
    exact (firstAll_perm_tests formatTests_exclusive h.symm hxs).symm

/-- **Detection is compositional.** The halves decide the whole, and neither
blank elements nor the order of the elements or of the patterns matter. -/
theorem detect_compositional :
    (∀ xs ys : List String, (∃ x ∈ xs, Py.isBlank x = false) →
      (∃ y ∈ ys, Py.isBlank y = false) →
      (∀ f, detectDateFormat (xs ++ ys) = some f ↔
        detectDateFormat xs = some f ∧ detectDateFormat ys = some f) ∧
      ((¬ ∃ f, detectDateFormat xs = some f ∧ detectDateFormat ys = some f) →
        detectDateFormat (xs ++ ys) = none)) ∧
    (∀ xs, detectDateFormat (xs.filter fun v => !Py.isBlank v) = detectDateFormat xs) ∧
    (∀ xs ys : List String, xs.Perm ys → detectDateFormat xs = detectDateFormat ys) ∧
    (∀ order, order.Perm formatTests → ∀ xs, detectInOrder order xs = detectDateFormat xs) := by
  refine ⟨fun xs ys hx hy => ⟨detect_append hx hy, fun hnone => ?_⟩, detect_filter,
    fun xs ys h => detect_perm h, fun order h => detect_order h⟩
  cases hboth : detectDateFormat (xs ++ ys) with
  | none => rfl
  | some f => exact absurd ⟨f, (detect_append hx hy f).mp hboth⟩ hnone

/-- Two halves written year first, one with a blank cell. -/
theorem detect_compositional_slashes :
    detectDateFormat (["2024/1/5", " "] ++ ["2024/12/31"]) = some .yyyySlash ∧
      detectDateFormat ["2024/12/31", "2024/1/5", " "] = some .yyyySlash := by
  have hwhole := ((detect_compositional.1 ["2024/1/5", " "] ["2024/12/31"]
    ⟨"2024/1/5", by simp, by decide⟩ ⟨"2024/12/31", by simp, by decide⟩).1 .yyyySlash).mpr
    ⟨by decide, by decide⟩
  have hmoved := detect_compositional.2.2.1 ["2024/12/31", "2024/1/5", " "]
    (["2024/1/5", " "] ++ ["2024/12/31"]) (by decide)
  exact ⟨hwhole, hmoved.trans hwhole⟩

end RiskFlow
