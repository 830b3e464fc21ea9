import RiskFlow.Python.Value

/-!
# Calendar — the order of dates, as numbers and as texts

`Date.ordinal` counts the days from the first of January of the year 1.
Dates compare by year, month and day as their ordinals do, and so do the
texts that write them with fixed widths.
-/

namespace RiskFlow

/-! ## Counting days -/

/-- The days of the years before this one. -/
def daysBeforeYear (y : Nat) : Nat := 365 * (y - 1) + (y - 1) / 4 - (y - 1) / 100 + (y - 1) / 400

/-- The days of the months before this one. -/
def daysBeforeMonth (y m : Nat) : Nat := ((List.range' 1 (m - 1)).map (daysInMonth y)).sum

/-- `d.toordinal()`. -/
def Date.ordinal (d : Date) : Nat := daysBeforeYear d.year + daysBeforeMonth d.year d.month + d.day

theorem daysBeforeYear_succ {y : Nat} (hy : 1 ≤ y) :
    daysBeforeYear (y + 1) = daysBeforeYear y + if isLeapYear y then 366 else 365 := by
  obtain ⟨k, rfl⟩ : ∃ k, y = k + 1 := ⟨y - 1, by omega⟩
  have hle : k / 100 ≤ k / 4 := by omega
  have h400 : 400 ∣ k + 1 → 100 ∣ k + 1 := fun h => Nat.dvd_trans (by decide) h
  have h100 : 100 ∣ k + 1 → 4 ∣ k + 1 := fun h => Nat.dvd_trans (by decide) h
  simp only [daysBeforeYear, isLeapYear, Nat.add_sub_cancel, Nat.succ_div,
    ← Nat.dvd_iff_mod_eq_zero, Bool.and_eq_true, Bool.or_eq_true, beq_iff_eq, bne_iff_ne, ne_eq]
  split_ifs <;> omega

theorem daysBeforeYear_mono {y y' : Nat} (hy : 1 ≤ y) (h : y < y') :
    daysBeforeYear y + (if isLeapYear y then 366 else 365) ≤ daysBeforeYear y' := by
  induction y', h using Nat.le_induction with
  | base => exact (daysBeforeYear_succ hy).ge
  | succ n hn ih =>
      rw [daysBeforeYear_succ (by omega)]
      exact ih.trans (Nat.le_add_right _ _)

theorem daysBeforeMonth_succ {y m : Nat} (hm : 1 ≤ m) :
    daysBeforeMonth y (m + 1) = daysBeforeMonth y m + daysInMonth y m := by
  obtain ⟨k, rfl⟩ : ∃ k, m = k + 1 := ⟨m - 1, by omega⟩
  simp [daysBeforeMonth, List.range'_concat, Nat.add_comm]

theorem daysBeforeMonth_mono {y m m' : Nat} (hm : 1 ≤ m) (h : m < m') :
    daysBeforeMonth y m + daysInMonth y m ≤ daysBeforeMonth y m' := by
  induction m', h using Nat.le_induction with
  | base => exact (daysBeforeMonth_succ hm).ge
  | succ n hn ih =>
      rw [daysBeforeMonth_succ (by omega)]
      exact ih.trans (Nat.le_add_right _ _)

/-- The months of a year are its days. -/
theorem daysBeforeMonth_thirteen (y : Nat) :
    daysBeforeMonth y 13 = if isLeapYear y then 366 else 365 := by
  have hmonths : List.range' 1 12 = [1, 2, 3, 4, 5, 6, 7, 8, 9, 10, 11, 12] := by decide
  rw [daysBeforeMonth, hmonths]
  simp only [List.map_cons, List.map_nil, List.sum_cons, List.sum_nil]
  cases h : isLeapYear y with
  | false => simp [daysInMonth, h]
  | true => simp [daysInMonth, h]

namespace Date

theorem before_iff {a b : Date} :
    before a b = true ↔ a.year < b.year ∨ a.year = b.year ∧
      (a.month < b.month ∨ a.month = b.month ∧ a.day < b.day) := by
  simp [before]

/-- An earlier date has a smaller ordinal. -/
theorem ordinal_lt_of_before {a b : Date} (h : before a b = true) : a.ordinal < b.ordinal := by
  obtain ⟨hay, _, ham, ham', had, had'⟩ := a.valid
  obtain ⟨hby, _, hbm, _, hbd, _⟩ := b.valid
  unfold ordinal
  rcases before_iff.mp h with hyear | ⟨hyear, hmonth | ⟨hmonth, hday⟩⟩
  · have hrest := daysBeforeMonth_mono (y := a.year) ham (show a.month < 13 by omega)
    have hyears := daysBeforeYear_mono hay hyear
    rw [daysBeforeMonth_thirteen] at hrest
    omega
  · have hmonths := daysBeforeMonth_mono (y := a.year) ham hmonth
    rw [hyear] at hmonths ⊢
    rw [hyear] at had'
    omega
  · rw [hyear, hmonth]
    omega

theorem before_trichotomy (a b : Date) : before a b = true ∨ a = b ∨ before b a = true := by
  rw [before_iff, before_iff]
  rcases Nat.lt_trichotomy a.year b.year with hyear | hyear | hyear
  · exact .inl (.inl hyear)
  · rcases Nat.lt_trichotomy a.month b.month with hmonth | hmonth | hmonth
    · exact .inl (.inr ⟨hyear, .inl hmonth⟩)
    · rcases Nat.lt_trichotomy a.day b.day with hday | hday | hday
      · exact .inl (.inr ⟨hyear, .inr ⟨hmonth, hday⟩⟩)
      · refine .inr (.inl ?_)
        cases a
        cases b
        cases hyear
        cases hmonth
        cases hday
        rfl
      · exact .inr (.inr (.inr ⟨hyear.symm, .inr ⟨hmonth.symm, hday⟩⟩))
    · exact .inr (.inr (.inr ⟨hyear.symm, .inl hmonth⟩))
  · exact .inr (.inr (.inl hyear))

/-- **Dates are ordered as their ordinals.** -/
theorem before_iff_ordinal {a b : Date} : before a b = true ↔ a.ordinal < b.ordinal := by
  constructor
  · exact ordinal_lt_of_before
  · intro h
    rcases before_trichotomy a b with hlt | heq | hgt
    · exact hlt
    · exact absurd (heq ▸ h) (Nat.lt_irrefl _)
    · exact absurd (ordinal_lt_of_before hgt) (Nat.lt_asymm h)

theorem ordinal_inj {a b : Date} (h : a.ordinal = b.ordinal) : a = b := by
  rcases before_trichotomy a b with hlt | heq | hgt
  · exact absurd (ordinal_lt_of_before hlt) (by omega)
  · exact heq
  · exact absurd (ordinal_lt_of_before hgt) (by omega)

end Date

/-! ## Dates as texts -/

/-- Numbers of one width compare as the texts that write them do, then by
what follows. -/
theorem Py.digits_append_lt {width m n : Nat} (hm : m < 10 ^ width) (hn : n < 10 ^ width)
    (x y : List Char) :
    Py.digits width m ++ x < Py.digits width n ++ y ↔ m < n ∨ m = n ∧ x < y := by
  induction width generalizing m n x y with
  | zero =>
      have hm0 : m = 0 := by simpa using hm
      have hn0 : n = 0 := by simpa using hn
      simp [hm0, hn0, Py.digits]
  | succ width ih =>
      rw [Nat.pow_succ] at hm hn
      have hdigits : ∀ i < 10, ∀ j < 10,
          (Char.ofNat (48 + i) < Char.ofNat (48 + j) ↔ i < j) ∧
          (Char.ofNat (48 + i) = Char.ofNat (48 + j) ↔ i = j) := by decide
      obtain ⟨hlt, heq⟩ := hdigits (m % 10) (by omega) (n % 10) (by omega)
      simp only [Py.digits, List.append_assoc, List.singleton_append]
      rw [ih (by omega) (by omega), List.cons_lt_cons_iff, hlt, heq]
      by_cases hxy : x < y
      · simp only [hxy, and_true]
        omega
      · simp only [hxy, and_false, or_false]
        omega

namespace Date

/-- **Dates are ordered as their ISO texts**, then by what follows. -/
theorem isoformat_append_lt (a b : Date) (x y : List Char) :
    a.isoformat.toList ++ x < b.isoformat.toList ++ y ↔ before a b = true ∨ a = b ∧ x < y := by
  obtain ⟨_, hay, _, ham, _, had⟩ := a.valid
  obtain ⟨_, hby, _, hbm, _, hbd⟩ := b.valid
  have hda := daysInMonth_le a.year a.month
  have hdb := daysInMonth_le b.year b.month
  have htext : ∀ (d : Date) (rest : List Char), d.isoformat.toList ++ rest =
      Py.digits 4 d.year ++ '-' :: (Py.digits 2 d.month ++ '-' :: (Py.digits 2 d.day ++ rest)) := by
    intro d rest
    simp [isoformat, Py.padded]
  rw [htext, htext, Py.digits_append_lt (by omega) (by omega), List.cons_lt_cons_iff,
    Py.digits_append_lt (by omega) (by omega), List.cons_lt_cons_iff,
    Py.digits_append_lt (by omega) (by omega), before_iff]
  have hirrefl : ¬ '-' < '-' := lt_irrefl _
  have heq : a = b ↔ a.year = b.year ∧ a.month = b.month ∧ a.day = b.day := by
    cases a
    cases b
    simp
  simp only [hirrefl, heq, true_and, false_or]
  tauto

end Date

end RiskFlow
