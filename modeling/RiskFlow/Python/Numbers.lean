import RiskFlow.Lib.Lines
import RiskFlow.Python.Text

/-!
# Numbers — `int` of a text and `str` of a whole number

`int` reads more texts than `str` writes: padding, a sign, digits of other
scripts and single underscores between digits.
-/

namespace RiskFlow

open Lib

/-! ## Reading -/

/-- Digits with single underscores between them. -/
def natOfText? (cs : List Char) : Option Nat :=
  let groups := cs.splitOn '_'
  if groups.all fun g => !g.isEmpty && g.all Py.isDigit then some (Py.intOfDigits groups.flatten)
  else none

/-- `int(s)` of a text: white space around it, a sign, digits; `none` is its
`ValueError`. -/
def intOfText? (cs : List Char) : Option Int :=
  match strip Py.isSpace cs with
  | '+' :: ds => (natOfText? ds).map fun n => (n : Int)
  | '-' :: ds => (natOfText? ds).map fun n => -(n : Int)
  | ds => (natOfText? ds).map fun n => (n : Int)

theorem natOfText?_digits {ds : List Char} (hne : ds ≠ []) (h : ∀ c ∈ ds, Py.isDigit c = true) :
    natOfText? ds = some (Py.intOfDigits ds) := by
  have hmark : '_' ∉ ds := by
    intro hmem
    exact absurd (h '_' hmem) (by decide)
  have hall : ds.all Py.isDigit = true := List.all_eq_true.mpr h
  simp [natOfText?, List.splitOn_eq_singleton hmark, hne, hall]

/-- `int` of a run of digits. -/
theorem intOfText?_digits {ds : List Char} (hne : ds ≠ []) (h : ∀ c ∈ ds, Py.isDigit c = true) :
    intOfText? ds = some (Py.intOfDigits ds : Int) := by
  have hstrip : strip Py.isSpace ds = ds := by
    have hclear : Clear Py.isSpace ds := fun c hc => Py.isSpace_of_isDigit (h c hc)
    exact (strip_eq_iff (hclear.firm hne)).mpr ⟨[], [], by simp, by simp, by simp⟩
  rw [intOfText?, hstrip]
  split
  · exact absurd (h '+' List.mem_cons_self) (by decide)
  · exact absurd (h '-' List.mem_cons_self) (by decide)
  · rw [natOfText?_digits hne h]
    rfl

/-! ## Writing -/

/-- `str(n)`. -/
def strOfInt (n : Int) : List Char :=
  if n < 0 then '-' :: Nat.toDigits 10 n.natAbs else Nat.toDigits 10 n.natAbs

theorem strOfInt_natCast (n : Nat) : strOfInt n = Nat.toDigits 10 n := by
  simp [strOfInt]

theorem digitValue?_ascii {c : Char} (h : c.isDigit = true) :
    Py.digitValue? c = some (c.toNat - 48) := by
  have hrange : 48 ≤ c.toNat ∧ c.toNat < 48 + 10 := by
    simp only [Char.isDigit, Bool.and_eq_true, decide_eq_true_eq] at h
    exact ⟨h.1, Nat.lt_succ_of_le h.2⟩
  simp [Py.digitValue?, Py.decimalZeros, hrange]

theorem toDigits_isDigit (n : Nat) : ∀ c ∈ Nat.toDigits 10 n, Py.isDigit c = true := by
  intro c hc
  rw [Py.isDigit, digitValue?_ascii (Nat.isDigit_of_mem_toDigits (by omega) (by omega) hc)]
  rfl

/-- **A written number reads back as itself.** -/
theorem intOfDigits_toDigits (n : Nat) : Py.intOfDigits (Nat.toDigits 10 n) = n := by
  have hstep : ∀ (acc : Nat), ∀ c ∈ Nat.toDigits 10 n,
      10 * acc + (Py.digitValue? c).getD 0 = 10 * acc + (c.toNat - '0'.toNat) := by
    intro acc c hc
    rw [digitValue?_ascii (Nat.isDigit_of_mem_toDigits (by omega) (by omega) hc)]
    rfl
  calc Py.intOfDigits (Nat.toDigits 10 n)
      = Nat.ofDigitChars 10 (Nat.toDigits 10 n) 0 := List.foldl_ext _ _ _ hstep
    _ = n := Nat.ofDigitChars_ten_toDigits

theorem mem_strOfInt {n : Int} {c : Char} (h : c ∈ strOfInt n) : c = '-' ∨ Py.isDigit c = true := by
  unfold strOfInt at h
  split at h
  · rcases List.mem_cons.mp h with heq | hmem
    · exact .inl heq
    · exact .inr (toDigits_isDigit _ c hmem)
  · exact .inr (toDigits_isDigit _ c h)

/-- Two numbers are not written alike. -/
theorem strOfInt_injective : Function.Injective strOfInt := by
  have hdigits : ∀ {a b : Nat}, Nat.toDigits 10 a = Nat.toDigits 10 b → a = b := by
    intro a b h
    rw [← intOfDigits_toDigits a, h, intOfDigits_toDigits]
  have hsign : ∀ {a b : Nat}, '-' :: Nat.toDigits 10 a ≠ Nat.toDigits 10 b := by
    intro a b h
    have hminus := toDigits_isDigit b '-' (h ▸ List.mem_cons_self)
    exact absurd hminus (by decide)
  intro m n h
  unfold strOfInt at h
  split at h
  · split at h
    · have habs := hdigits (List.cons.inj h).2
      omega
    · exact absurd h hsign
  · split at h
    · exact absurd h.symm hsign
    · have habs := hdigits h
      omega

end RiskFlow
