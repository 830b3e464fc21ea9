import RiskFlow.Lib.Json

/-!
# JsonText — documents as text

The text of a document as an ASCII-only writer with the separators `", "`
and `": "` prints it. A string, a list and an object show where they end,
so the text of a document without numbers can be cut off the front of any
text, and two such documents with one text are one document.
-/

namespace Lib.JsonText

/-! ## Characters -/

/-- Four hexadecimal digits. -/
def hex4 (n : Nat) : List Char :=
  [Nat.digitChar (n / 4096 % 16), Nat.digitChar (n / 256 % 16), Nat.digitChar (n / 16 % 16),
    Nat.digitChar (n % 16)]

/-- `\uXXXX`. -/
def unicodeEscape (n : Nat) : List Char := '\\' :: 'u' :: hex4 n

/-- One character of a string: printable ASCII but the quote and the
backslash stands for itself, and a character beyond 16 bits is written as
its two surrogates. -/
def escape (c : Char) : List Char :=
  if c = '"' then ['\\', '"']
  else if c = '\\' then ['\\', '\\']
  else if c = '\n' then ['\\', 'n']
  else if c = '\r' then ['\\', 'r']
  else if c = '\t' then ['\\', 't']
  else if c = '\x08' then ['\\', 'b']
  else if c = '\x0c' then ['\\', 'f']
  else if 0x20 ≤ c.toNat ∧ c.toNat ≤ 0x7e then [c]
  else if c.toNat < 0x10000 then unicodeEscape c.toNat
  else
    unicodeEscape (0xd800 + (c.toNat - 0x10000) / 0x400) ++
      unicodeEscape (0xdc00 + (c.toNat - 0x10000) % 0x400)

def hexValue (c : Char) : Nat :=
  if c.toNat < 58 then c.toNat - 48 else c.toNat - 87

/-- The number of four hexadecimal digits. -/
def hexValue4 (a b c d : Char) : Nat :=
  4096 * hexValue a + 256 * hexValue b + 16 * hexValue c + hexValue d

/-- A character and what follows it; the quote ends a string. -/
def readEscape : List Char → Option (Char × List Char)
  | '\\' :: '"' :: r => some ('"', r)
  | '\\' :: '\\' :: r => some ('\\', r)
  | '\\' :: 'n' :: r => some ('\n', r)
  | '\\' :: 'r' :: r => some ('\r', r)
  | '\\' :: 't' :: r => some ('\t', r)
  | '\\' :: 'b' :: r => some ('\x08', r)
  | '\\' :: 'f' :: r => some ('\x0c', r)
  | '\\' :: 'u' :: a :: b :: c :: d :: r =>
      let high := hexValue4 a b c d
      if 0xd800 ≤ high ∧ high < 0xdc00 then
        match r with
        | '\\' :: 'u' :: e :: f :: g :: h :: r =>
            some (Char.ofNat
              (0x10000 + (high - 0xd800) * 0x400 + (hexValue4 e f g h - 0xdc00)), r)
        | _ => none
      else some (Char.ofNat high, r)
  | '"' :: _ => none
  | c :: r => some (c, r)
  | [] => none

theorem hexValue_digitChar : ∀ n < 16, hexValue (Nat.digitChar n) = n := by decide

theorem hexValue4_hex4 {n : Nat} (h : n < 0x10000) :
    hexValue4 (Nat.digitChar (n / 4096 % 16)) (Nat.digitChar (n / 256 % 16))
      (Nat.digitChar (n / 16 % 16)) (Nat.digitChar (n % 16)) = n := by
  have hdigit : ∀ m, hexValue (Nat.digitChar (m % 16)) = m % 16 := fun m =>
    hexValue_digitChar (m % 16) (by omega)
  rw [hexValue4, hdigit, hdigit, hdigit, hdigit]
  omega

theorem readEscape_plain {c : Char} (hquote : c ≠ '"') (hback : c ≠ '\\') (r : List Char) :
    readEscape (c :: r) = some (c, r) := by
  unfold readEscape
  split <;> simp_all

/-- No character is a surrogate, so the two ways to write one differ. -/
theorem not_surrogate (c : Char) : ¬ (0xd800 ≤ c.toNat ∧ c.toNat < 0xdc00) := by
  intro h
  rcases c.valid with hlow | hhigh
  · have hlow' : c.toNat < 0xd800 := hlow
    omega
  · have hhigh' : 0xdfff < c.toNat := hhigh.1
    omega

theorem toNat_lt (c : Char) : c.toNat < 0x110000 := by
  rcases c.valid with hlow | hhigh
  · have hlow' : c.toNat < 0xd800 := hlow
    omega
  · exact hhigh.2

/-- **A written character is read back.** -/
theorem readEscape_escape (c : Char) (r : List Char) :
    readEscape (escape c ++ r) = some (c, r) := by
  unfold escape
  split
  · subst_vars; rfl
  split
  · subst_vars; rfl
  split
  · subst_vars; rfl
  split
  · subst_vars; rfl
  split
  · subst_vars; rfl
  split
  · subst_vars; rfl
  split
  · subst_vars; rfl
  split
  · exact readEscape_plain ‹_› ‹_› r
  split
  · rename_i hsmall
    simp only [unicodeEscape, hex4, List.cons_append, List.nil_append, readEscape,
      hexValue4_hex4 hsmall, if_neg (not_surrogate c), Char.ofNat_toNat]
  · rename_i hbig
    have hmax := toNat_lt c
    have hhigh : 0xd800 + (c.toNat - 0x10000) / 0x400 < 0x10000 := by omega
    have hlow : 0xdc00 + (c.toNat - 0x10000) % 0x400 < 0x10000 := by omega
    have hpair : 0xd800 ≤ 0xd800 + (c.toNat - 0x10000) / 0x400 ∧
        0xd800 + (c.toNat - 0x10000) / 0x400 < 0xdc00 := by omega
    have hback : 0x10000 + (0xd800 + (c.toNat - 0x10000) / 0x400 - 0xd800) * 0x400 +
        (0xdc00 + (c.toNat - 0x10000) % 0x400 - 0xdc00) = c.toNat := by omega
    simp only [unicodeEscape, hex4, List.cons_append, List.nil_append, readEscape,
      hexValue4_hex4 hhigh, hexValue4_hex4 hlow, if_pos hpair, hback, Char.ofNat_toNat]

/-! ## Strings -/

/-- The characters of a string with the closing quote. -/
def body : List Char → List Char
  | [] => ['"']
  | c :: rest => escape c ++ body rest

def quote (s : String) : List Char := '"' :: body s.toList

theorem body_append_inj {cs ds r s : List Char} (h : body cs ++ r = body ds ++ s) :
    cs = ds ∧ r = s := by
  have hend : ∀ (c : Char) (cs r s : List Char), '"' :: s ≠ body (c :: cs) ++ r := by
    intro c cs r s heq
    have hread := congrArg readEscape heq
    rw [body, List.append_assoc, readEscape_escape] at hread
    cases hread
  induction cs generalizing ds with
  | nil =>
      cases ds with
      | nil => exact ⟨rfl, List.tail_eq_of_cons_eq h⟩
      | cons d ds => exact absurd h (hend d ds s r)
  | cons c cs ih =>
      cases ds with
      | nil => exact absurd h.symm (hend c cs r s)
      | cons d ds =>
          rw [body, body, List.append_assoc, List.append_assoc] at h
          have hread := congrArg readEscape h
          rw [readEscape_escape, readEscape_escape, Option.some.injEq, Prod.mk.injEq] at hread
          obtain ⟨hchar, hrest⟩ := ih hread.2
          exact ⟨by rw [hread.1, hchar], hrest⟩

theorem quote_append_inj {a b : String} {r s : List Char} (h : quote a ++ r = quote b ++ s) :
    a = b ∧ r = s := by
  obtain ⟨hchars, hrest⟩ := body_append_inj (List.tail_eq_of_cons_eq h)
  exact ⟨String.toList_inj.mp hchars, hrest⟩

/-! ## Documents -/

section Text
variable (floatText : XRat → String)

mutual

/-- The text of a document; how a float is written is a parameter. -/
def text : Json → List Char
  | .null => ['n', 'u', 'l', 'l']
  | .bool true => ['t', 'r', 'u', 'e']
  | .bool false => ['f', 'a', 'l', 's', 'e']
  | .int i => (toString i).toList
  | .float x => (floatText x).toList
  | .str s => quote s
  | .arr xs => '[' :: elements xs
  | .obj kvs => '{' :: members kvs
termination_by structural j => j

def elements : List Json → List Char
  | [] => [']']
  | x :: rest => text x ++ moreElements rest
termination_by structural xs => xs

def moreElements : List Json → List Char
  | [] => [']']
  | x :: rest => ',' :: ' ' :: (text x ++ moreElements rest)
termination_by structural xs => xs

def members : List (String × Json) → List Char
  | [] => ['}']
  | (k, x) :: rest => quote k ++ ':' :: ' ' :: (text x ++ moreMembers rest)
termination_by structural kvs => kvs

def moreMembers : List (String × Json) → List Char
  | [] => ['}']
  | (k, x) :: rest => ',' :: ' ' :: (quote k ++ ':' :: ' ' :: (text x ++ moreMembers rest))
termination_by structural kvs => kvs

end

end Text

mutual

/-- No number occurs in the document. -/
def NumberFree : Json → Prop
  | .int _ | .float _ => False
  | .null | .bool _ | .str _ => True
  | .arr xs => AllNumberFree xs
  | .obj kvs => MembersNumberFree kvs
termination_by structural j => j

def AllNumberFree : List Json → Prop
  | [] => True
  | x :: rest => NumberFree x ∧ AllNumberFree rest
termination_by structural xs => xs

def MembersNumberFree : List (String × Json) → Prop
  | [] => True
  | (_, x) :: rest => NumberFree x ∧ MembersNumberFree rest
termination_by structural kvs => kvs

end

theorem allNumberFree_iff {xs : List Json} : AllNumberFree xs ↔ ∀ x ∈ xs, NumberFree x := by
  induction xs with
  | nil => simp [AllNumberFree]
  | cons x rest ih => simp [AllNumberFree, ih]

theorem membersNumberFree_iff {kvs : List (String × Json)} :
    MembersNumberFree kvs ↔ ∀ kv ∈ kvs, NumberFree kv.2 := by
  induction kvs with
  | nil => simp [MembersNumberFree]
  | cons kv rest ih => simp [MembersNumberFree, ih]

section Injective
variable {floatText : XRat → String}

/-- No text of a value starts as the end of a list. -/
theorem text_ne_close {j : Json} (h : NumberFree j) (r s : List Char) :
    text floatText j ++ r ≠ ']' :: s := by
  cases j with
  | bool b => cases b <;> simp [text]
  | int i => exact h.elim
  | float x => exact h.elim
  | _ => simp [text, quote]

/-- The constructor of a document as a number. -/
def kind : Json → Nat
  | .null => 0
  | .bool _ => 1
  | .int _ => 2
  | .float _ => 3
  | .str _ => 4
  | .arr _ => 5
  | .obj _ => 6

/-- The constructor that a first character belongs to. -/
def kindOf : Char → Nat
  | 'n' => 0
  | 't' | 'f' => 1
  | '"' => 4
  | '[' => 5
  | _ => 6

theorem kindOf_head {j : Json} (h : NumberFree j) (r : List Char) :
    (text floatText j ++ r).head?.map kindOf = some (kind j) := by
  cases j with
  | bool b => cases b <;> rfl
  | int _ => exact h.elim
  | float _ => exact h.elim
  | _ => rfl

/-- **The first character tells the constructor.** -/
theorem kind_eq {j j' : Json} {r r' : List Char} (h : NumberFree j) (h' : NumberFree j')
    (heq : text floatText j ++ r = text floatText j' ++ r') : kind j = kind j' := by
  refine Option.some.inj ?_
  rw [← @kindOf_head floatText j h r, heq, kindOf_head h' r']

mutual

/-- **The text of a document can be cut off the front of any text.** -/
theorem text_append_inj : ∀ (j j' : Json) (r r' : List Char), NumberFree j → NumberFree j' →
    text floatText j ++ r = text floatText j' ++ r' → j = j' ∧ r = r'
  | .null, j', r, r', hfree, hfree', h => by
      have hkind := kind_eq hfree hfree' h
      cases j' with
      | null => exact ⟨rfl, List.append_cancel_left h⟩
      | _ => cases hkind
  | .bool b, j', r, r', hfree, hfree', h => by
      have hkind := kind_eq hfree hfree' h
      cases j' with
      | bool b' => cases b <;> cases b' <;> simp_all [text]
      | _ => cases hkind
  | .int _, _, _, _, hfree, _, _ => hfree.elim
  | .float _, _, _, _, hfree, _, _ => hfree.elim
  | .str s, j', r, r', hfree, hfree', h => by
      have hkind := kind_eq hfree hfree' h
      cases j' with
      | str s' =>
          obtain ⟨hs, hrest⟩ := quote_append_inj h
          exact ⟨by rw [hs], hrest⟩
      | _ => cases hkind
  | .arr xs, j', r, r', hfree, hfree', h => by
      have hkind := kind_eq hfree hfree' h
      cases j' with
      | arr xs' =>
          obtain ⟨hxs, hrest⟩ := elements_append_inj xs xs' r r' hfree hfree'
            (List.tail_eq_of_cons_eq h)
          exact ⟨by rw [hxs], hrest⟩
      | _ => cases hkind
  | .obj kvs, j', r, r', hfree, hfree', h => by
      have hkind := kind_eq hfree hfree' h
      cases j' with
      | obj kvs' =>
          obtain ⟨hkvs, hrest⟩ := members_append_inj kvs kvs' r r' hfree hfree'
            (List.tail_eq_of_cons_eq h)
          exact ⟨by rw [hkvs], hrest⟩
      | _ => cases hkind

theorem elements_append_inj : ∀ (xs xs' : List Json) (r r' : List Char), AllNumberFree xs →
    AllNumberFree xs' → elements floatText xs ++ r = elements floatText xs' ++ r' →
      xs = xs' ∧ r = r'
  | [], xs', r, r', _, hfree', h => by
      cases xs' with
      | nil => simpa [elements] using h
      | cons x' rest' =>
          rw [elements, elements, List.append_assoc] at h
          exact absurd h.symm (text_ne_close hfree'.1 _ _)
  | x :: rest, xs', r, r', hfree, hfree', h => by
      cases xs' with
      | nil =>
          rw [elements, elements, List.append_assoc] at h
          exact absurd h (text_ne_close hfree.1 _ _)
      | cons x' rest' =>
          rw [elements, elements, List.append_assoc, List.append_assoc] at h
          obtain ⟨rfl, hmore⟩ := text_append_inj x x' _ _ hfree.1 hfree'.1 h
          obtain ⟨rfl, hrest⟩ := moreElements_append_inj rest rest' r r' hfree.2 hfree'.2 hmore
          exact ⟨rfl, hrest⟩

theorem moreElements_append_inj : ∀ (xs xs' : List Json) (r r' : List Char), AllNumberFree xs →
    AllNumberFree xs' → moreElements floatText xs ++ r = moreElements floatText xs' ++ r' →
      xs = xs' ∧ r = r'
  | [], xs', r, r', _, _, h => by
      cases xs' with
      | nil => simpa [moreElements] using h
      | cons x' rest' => simp [moreElements] at h
  | x :: rest, xs', r, r', hfree, hfree', h => by
      cases xs' with
      | nil => simp [moreElements] at h
      | cons x' rest' =>
          simp only [moreElements, List.cons_append, List.append_assoc, List.cons.injEq,
            true_and] at h
          obtain ⟨rfl, hmore⟩ := text_append_inj x x' _ _ hfree.1 hfree'.1 h
          obtain ⟨rfl, hrest⟩ := moreElements_append_inj rest rest' r r' hfree.2 hfree'.2 hmore
          exact ⟨rfl, hrest⟩

theorem members_append_inj : ∀ (kvs kvs' : List (String × Json)) (r r' : List Char),
    MembersNumberFree kvs → MembersNumberFree kvs' →
      members floatText kvs ++ r = members floatText kvs' ++ r' → kvs = kvs' ∧ r = r'
  | [], kvs', r, r', _, _, h => by
      cases kvs' with
      | nil => simpa [members] using h
      | cons kv' rest' => simp [members, quote] at h
  | (k, x) :: rest, kvs', r, r', hfree, hfree', h => by
      cases kvs' with
      | nil => simp [members, quote] at h
      | cons kv' rest' =>
          obtain ⟨k', x'⟩ := kv'
          rw [members, members, List.append_assoc, List.append_assoc] at h
          obtain ⟨rfl, hvalue⟩ := quote_append_inj h
          simp only [List.cons_append, List.append_assoc, List.cons.injEq, true_and] at hvalue
          obtain ⟨rfl, hmore⟩ := text_append_inj x x' _ _ hfree.1 hfree'.1 hvalue
          obtain ⟨rfl, hrest⟩ := moreMembers_append_inj rest rest' r r' hfree.2 hfree'.2 hmore
          exact ⟨rfl, hrest⟩

theorem moreMembers_append_inj : ∀ (kvs kvs' : List (String × Json)) (r r' : List Char),
    MembersNumberFree kvs → MembersNumberFree kvs' →
      moreMembers floatText kvs ++ r = moreMembers floatText kvs' ++ r' → kvs = kvs' ∧ r = r'
  | [], kvs', r, r', _, _, h => by
      cases kvs' with
      | nil => simpa [moreMembers] using h
      | cons kv' rest' => simp [moreMembers] at h
  | (k, x) :: rest, kvs', r, r', hfree, hfree', h => by
      cases kvs' with
      | nil => simp [moreMembers] at h
      | cons kv' rest' =>
          obtain ⟨k', x'⟩ := kv'
          simp only [moreMembers, List.cons_append, List.append_assoc, List.cons.injEq,
            true_and] at h
          obtain ⟨rfl, hvalue⟩ := quote_append_inj h
          simp only [List.cons.injEq, true_and] at hvalue
          obtain ⟨rfl, hmore⟩ := text_append_inj x x' _ _ hfree.1 hfree'.1 hvalue
          obtain ⟨rfl, hrest⟩ := moreMembers_append_inj rest rest' r r' hfree.2 hfree'.2 hmore
          exact ⟨rfl, hrest⟩

end

/-- **Documents without numbers are told by their text.** -/
theorem text_inj {j j' : Json} (h : NumberFree j) (h' : NumberFree j')
    (heq : text floatText j = text floatText j') : j = j' :=
  (text_append_inj j j' [] [] h h' (by rw [heq])).1

end Injective

end Lib.JsonText
