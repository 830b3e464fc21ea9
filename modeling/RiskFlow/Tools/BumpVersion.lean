import RiskFlow.Lib.Lines
import RiskFlow.Python.Value

/-!
# BumpVersion — reading and writing the version in `pyproject.toml`

`read_version` takes the first line that begins with `version`, indented or
not, and what stands behind its first `=`. `write_version` searches the
whole text for `version = "…"` at the start of a row and rewrites up to the
last quote of the row. A text here is the list of its characters.
-/

namespace RiskFlow

open Lib

/-! ## Text files -/

def newline : Char := Char.ofNat 10

def carriageReturn : Char := Char.ofNat 13

/-- Reading in text mode: every line end is one line feed. The flag says
that a carriage return came just before. -/
def universalNewlines : Bool → List Char → List Char
  | _, [] => []
  | afterReturn, c :: cs =>
      if c = carriageReturn then newline :: universalNewlines true cs
      else if c = newline ∧ afterReturn = true then universalNewlines false cs
      else c :: universalNewlines false cs

/-- `PYPROJECT.read_text()`. -/
def readText (file : List Char) : List Char := universalNewlines false file

/-- The characters `str.splitlines` breaks at. -/
def isLineBreak (c : Char) : Bool :=
  let n := c.toNat
  (10 ≤ n && n ≤ 13) || (28 ≤ n && n ≤ 30) || n == 0x85 || n == 0x2028 || n == 0x2029

/-- `text.splitlines()`; a carriage return and the line feed behind it are
one break. -/
def splitlines (text : List Char) : List (List Char) :=
  lines isLineBreak (universalNewlines false text)

/-! ## The reader -/

/-- `line.strip().startswith("version")`. -/
def isVersionLine (line : List Char) : Bool := "version".toList.isPrefixOf (strip Py.isSpace line)

/-- `line.split("=", 1)[1].strip().strip('"')`; `none` is the `IndexError` of
a line without `=`. -/
def lineValue (line : List Char) : Option (List Char) :=
  match line.dropWhile (· != '=') with
  | [] => none
  | _ :: rest => some (strip (· == '"') (strip Py.isSpace rest))

/-- `read_version`. -/
def readVersion (file : List Char) : Except PyErr (List Char) :=
  match (splitlines (readText file)).find? isVersionLine with
  | none => .error (.valueError "Could not find version in pyproject.toml")
  | some line =>
      match lineValue line with
      | some version => .ok version
      | none => .error (.otherException "IndexError" "list index out of range")

/-! ## The writer -/

/-- A version string `X.Y.Z` of decimal numbers. -/
structure Version where
  major : List Char
  minor : List Char
  patch : List Char
  numbers : ∀ ds ∈ [major, minor, patch], ds ≠ [] ∧ ∀ c ∈ ds, Py.isDigit c = true

def Version.text (v : Version) : List Char := v.major ++ '.' :: (v.minor ++ '.' :: v.patch)

/-- `version = "`. -/
def versionKey : List Char := ['v', 'e', 'r', 's', 'i', 'o', 'n', ' ', '=', ' ', '"']

/-- `.*"`: what `.*` takes and what follows the quote. It takes as much of
the row as it can, then gives back up to a quote. -/
def closingQuote : List Char → Option (List Char × List Char)
  | [] => none
  | c :: cs =>
      if c = newline then none
      else
        match closingQuote cs with
        | some (quoted, rest) => some (c :: quoted, rest)
        | none => if c = '"' then some ([], cs) else none

/-- `version = ".*"` at the start of the text. -/
def matchVersion (cs : List Char) : Option (List Char × List Char) :=
  if versionKey.isPrefixOf cs then closingQuote (cs.drop versionKey.length) else none

/-- The first match of `^version = ".*"` in `re.MULTILINE`: what is before
it, between its quotes and behind it. The flag says that the text starts a
row. -/
def searchVersion : Bool → List Char → Option (List Char × List Char × List Char)
  | _, [] => none
  | atStart, c :: cs =>
      match if atStart then matchVersion (c :: cs) else none with
      | some (quoted, post) => some ([], quoted, post)
      | none => (searchVersion (c == newline) cs).map fun m => (c :: m.1, m.2)

/-- `write_version`: the new content of the file. The replacement has no
backslash in it, so it stands for itself. -/
def writeVersion (newVersion : Version) (file : List Char) : List Char :=
  let content := readText file
  match searchVersion true content with
  | some (pre, _, post) => pre ++ (versionKey ++ (newVersion.text ++ '"' :: post))
  | none => content

/-! ## Texts without carriage returns -/

theorem universalNewlines_clean {text : List Char} (h : carriageReturn ∉ text) :
    universalNewlines false text = text := by
  induction text with
  | nil => rfl
  | cons c cs ih =>
      rw [List.mem_cons, not_or] at h
      rw [universalNewlines, if_neg (Ne.symm h.1), if_neg (by simp), ih h.2]

theorem carriageReturn_notMem (afterReturn : Bool) (text : List Char) :
    carriageReturn ∉ universalNewlines afterReturn text := by
  induction text generalizing afterReturn with
  | nil => simp [universalNewlines]
  | cons c cs ih =>
      rw [universalNewlines]
      split
      · rw [List.mem_cons, not_or]
        exact ⟨by decide, ih true⟩
      · split
        · exact ih false
        · rename_i hc _
          rw [List.mem_cons, not_or]
          exact ⟨Ne.symm hc, ih false⟩

/-! ## The match of the writer -/

/-- `version = "…"` at the start of a row, up to the last quote of the row. -/
structure AssignmentAt (atStart : Bool) (text pre quoted post : List Char) : Prop where
  text_eq : text = pre ++ (versionKey ++ (quoted ++ '"' :: post))
  head : pre = [] → atStart = true
  start : ∀ c ∈ pre.getLast?, c = newline
  row : newline ∉ quoted
  last : '"' ∉ post.takeWhile (· != newline)

theorem closingQuote_eq_none {cs : List Char} (h : closingQuote cs = none) :
    '"' ∉ cs.takeWhile (· != newline) := by
  induction cs with
  | nil => simp
  | cons c cs ih =>
      rw [closingQuote] at h
      split at h
      · rename_i hc
        simp [hc]
      · rename_i hc
        split at h
        · cases h
        · rename_i hnone
          split at h
          · cases h
          · rename_i hquote
            rw [List.takeWhile_cons_of_pos (by simpa using hc), List.mem_cons, not_or]
            exact ⟨Ne.symm hquote, ih hnone⟩

/-- **`.*"` ends at the last quote of the row.** -/
theorem closingQuote_eq_some_iff {cs quoted post : List Char} :
    closingQuote cs = some (quoted, post) ↔ cs = quoted ++ '"' :: post ∧ newline ∉ quoted ∧
      '"' ∉ post.takeWhile (· != newline) := by
  induction cs generalizing quoted post with
  | nil => simp [closingQuote]
  | cons c cs ih =>
      have hquote : '"' ≠ newline := by decide
      rw [closingQuote]
      constructor
      · intro h
        split at h
        · cases h
        · rename_i hc
          split at h
          · rename_i hsome
            cases h
            obtain ⟨hcs, hrow, hlast⟩ := ih.mp hsome
            refine ⟨by rw [hcs, List.cons_append], ?_, hlast⟩
            rw [List.mem_cons, not_or]
            exact ⟨Ne.symm hc, hrow⟩
          · rename_i hnone
            split at h
            · rename_i hc
              cases h
              exact ⟨by rw [hc, List.nil_append], by simp, closingQuote_eq_none hnone⟩
            · cases h
      · rintro ⟨hcs, hrow, hlast⟩
        cases quoted with
        | nil =>
            cases hcs
            rw [if_neg hquote]
            cases hrest : closingQuote cs with
            | none => simp
            | some found =>
                obtain ⟨hpost, hrow', _⟩ := ih.mp hrest
                have hclear : ∀ c ∈ found.1, (c != newline) = true := by
                  intro c hc
                  have hne : c ≠ newline := fun heq => hrow' (heq ▸ hc)
                  simpa using hne
                rw [hpost, List.takeWhile_append_of_pos hclear,
                  List.takeWhile_cons_of_pos (by simpa using hquote)] at hlast
                simp at hlast
        | cons d quoted =>
            cases hcs
            rw [List.mem_cons, not_or] at hrow
            rw [if_neg (Ne.symm hrow.1), ih.mpr ⟨rfl, hrow.2, hlast⟩]

theorem matchVersion_eq_some_iff {cs quoted post : List Char} :
    matchVersion cs = some (quoted, post) ↔ cs = versionKey ++ (quoted ++ '"' :: post) ∧
      newline ∉ quoted ∧ '"' ∉ post.takeWhile (· != newline) := by
  unfold matchVersion
  constructor
  · intro h
    split at h
    · rename_i hkey
      obtain ⟨hrest, hrow, hlast⟩ := closingQuote_eq_some_iff.mp h
      refine ⟨?_, hrow, hlast⟩
      rw [← hrest]
      exact (List.prefix_iff_eq_append.mp (List.isPrefixOf_iff_prefix.mp hkey)).symm
    · cases h
  · rintro ⟨rfl, hrow, hlast⟩
    rw [if_pos (by simp [List.isPrefixOf_iff_prefix]), List.drop_left]
    exact closingQuote_eq_some_iff.mpr ⟨rfl, hrow, hlast⟩

/-- A match stands at the front of the text or behind its first character. -/
theorem assignmentAt_cons_iff {atStart : Bool} {c : Char} {cs pre quoted post : List Char} :
    AssignmentAt atStart (c :: cs) pre quoted post ↔
      (pre = [] ∧ atStart = true ∧ matchVersion (c :: cs) = some (quoted, post)) ∨
        ∃ pre', pre = c :: pre' ∧ AssignmentAt (c == newline) cs pre' quoted post := by
  constructor
  · rintro ⟨htext, hhead, hstart, hrow, hlast⟩
    cases pre with
    | nil => exact .inl ⟨rfl, hhead rfl, matchVersion_eq_some_iff.mpr ⟨htext, hrow, hlast⟩⟩
    | cons d pre =>
        cases htext
        refine .inr ⟨pre, rfl, rfl, ?_, ?_, hrow, hlast⟩
        · rintro rfl
          simpa using hstart c rfl
        · intro b hb
          refine hstart b ?_
          rw [List.getLast?_cons, hb]
          rfl
  · rintro (⟨rfl, hstart, hmatch⟩ | ⟨pre, rfl, htext, hhead, hstart, hrow, hlast⟩)
    · obtain ⟨htext, hrow, hlast⟩ := matchVersion_eq_some_iff.mp hmatch
      exact ⟨htext, fun _ => hstart, by simp, hrow, hlast⟩
    · refine ⟨by rw [htext, List.cons_append], by simp, ?_, hrow, hlast⟩
      intro b hb
      cases pre with
      | nil =>
          cases hb
          simpa using hhead rfl
      | cons d pre => exact hstart b (by simpa using hb)

/-- Where the search finds nothing there is no match. -/
theorem searchVersion_none {atStart : Bool} {text : List Char}
    (h : searchVersion atStart text = none) {pre quoted post : List Char} :
    ¬ AssignmentAt atStart text pre quoted post := by
  induction text generalizing atStart pre with
  | nil =>
      intro hat
      have hnil := hat.text_eq
      simp [versionKey] at hnil
  | cons c cs ih =>
      rw [searchVersion] at h
      rw [assignmentAt_cons_iff]
      split at h
      · cases h
      · rename_i hnone
        rintro (⟨_, hstart, hmatch⟩ | ⟨pre, _, hat⟩)
        · rw [if_pos hstart, hmatch] at hnone
          cases hnone
        · exact ih (Option.map_eq_none_iff.mp h) hat

/-- What the search finds is the first match. -/
theorem searchVersion_some {atStart : Bool} {text pre quoted post : List Char}
    (h : searchVersion atStart text = some (pre, quoted, post)) :
    AssignmentAt atStart text pre quoted post ∧ ∀ pre' quoted' post',
      AssignmentAt atStart text pre' quoted' post' → pre.length ≤ pre'.length := by
  induction text generalizing atStart pre with
  | nil => cases h
  | cons c cs ih =>
      rw [searchVersion] at h
      split at h
      · rename_i hfound
        cases h
        split at hfound
        · rename_i hstart
          exact ⟨assignmentAt_cons_iff.mpr (.inl ⟨rfl, hstart, hfound⟩), by simp⟩
        · cases hfound
      · rename_i hnone
        obtain ⟨⟨pre', quoted', post'⟩, hrest, heq⟩ := Option.map_eq_some_iff.mp h
        cases heq
        obtain ⟨hat, hfirst⟩ := ih hrest
        refine ⟨assignmentAt_cons_iff.mpr (.inr ⟨pre', rfl, hat⟩), fun pre quoted post hat' => ?_⟩
        rcases assignmentAt_cons_iff.mp hat' with ⟨_, hstart, hmatch⟩ |
            ⟨pre, rfl, hbehind⟩
        · rw [if_pos hstart, hmatch] at hnone
          cases hnone
        · exact Nat.succ_le_succ (hfirst pre quoted post hbehind)

/-! ## The line of the reader -/

/-- The line `read_version` reads, where it stands. -/
def VersionLine (text before line after : List Char) : Prop :=
  FirstLine isLineBreak isVersionLine text before line after

/-- A break of a line is white space. -/
theorem isLineBreak_of_isSpace {c : Char} (h : Py.isSpace c = false) : isLineBreak c = false := by
  simp only [Py.isSpace, isLineBreak, Bool.or_eq_false_iff, Bool.and_eq_false_iff,
    decide_eq_false_iff_not, beq_eq_false_iff_ne] at h ⊢
  omega

/-- Reading a text without carriage returns. -/
theorem readVersion_eq {file text before line after : List Char} (htext : readText file = text)
    (hclean : carriageReturn ∉ text) (hline : VersionLine text before line after) :
    readVersion file =
      match lineValue line with
      | some version => .ok version
      | none => .error (.otherException "IndexError" "list index out of range") := by
  rw [readVersion, htext, splitlines, universalNewlines_clean hclean, hline.find]

/-- What is read stands on the line of the reader. -/
theorem readVersion_ok {file cur : List Char} (h : readVersion file = .ok cur) :
    ∃ before line after, VersionLine (readText file) before line after ∧
      lineValue line = some cur := by
  have hclean : carriageReturn ∉ readText file := carriageReturn_notMem false file
  rw [readVersion, splitlines, universalNewlines_clean hclean] at h
  split at h
  · cases h
  · rename_i line hfind
    obtain ⟨before, after, hline⟩ := exists_firstLine hfind
    split at h
    · rename_i value hvalue
      cases h
      exact ⟨before, line, after, hline, hvalue⟩
    · cases h

/-- A version, white space and quotes away from the first `=` of the line. -/
def Carries (version line : List Char) : Prop :=
  ∃ name front left right back,
    line = name ++ '=' :: (front ++ (left ++ version ++ right) ++ back) ∧
    '=' ∉ name ∧ (∀ c ∈ front, Py.isSpace c = true) ∧ (∀ c ∈ left, c = '"') ∧
    (∀ c ∈ right, c = '"') ∧ ∀ c ∈ back, Py.isSpace c = true

namespace Version
variable (v : Version)

theorem isDigit_or_dot {c : Char} (hc : c ∈ v.text) : Py.isDigit c = true ∨ c = '.' := by
  have hdigits : ∀ ds ∈ [v.major, v.minor, v.patch], c ∈ ds → Py.isDigit c = true :=
    fun ds hds => (v.numbers ds hds).2 c
  simp only [text, List.mem_append, List.mem_cons] at hc
  rcases hc with hc | hc | hc | hc | hc
  · exact .inl (hdigits v.major (by simp) hc)
  · exact .inr hc
  · exact .inl (hdigits v.minor (by simp) hc)
  · exact .inr hc
  · exact .inl (hdigits v.patch (by simp) hc)

/-- A version string holds none of the characters the reader takes away. -/
theorem unspaced : Clear Py.isSpace v.text := by
  intro c hc
  rcases v.isDigit_or_dot hc with hdigit | rfl
  · exact Py.isSpace_of_isDigit hdigit
  · simp [Py.isSpace]

theorem unquoted : Clear (· == '"') v.text := by
  intro c hc
  rcases v.isDigit_or_dot hc with hdigit | rfl
  · have hne : c ≠ '"' := by
      rintro rfl
      exact absurd hdigit (by decide)
    simpa using hne
  · decide

theorem text_ne_nil : v.text ≠ [] := by simp [text]

theorem firm : Firm (· == '"') v.text := v.unquoted.firm v.text_ne_nil

/-- It is one line. -/
theorem text_clear : Clear isLineBreak v.text :=
  fun c hc => isLineBreak_of_isSpace (v.unspaced c hc)

/-- The line carries a version exactly when the version is read off it. -/
theorem lineValue_eq_some_iff {line : List Char} :
    lineValue line = some v.text ↔ Carries v.text line := by
  constructor
  · intro h
    have hsplit := List.takeWhile_append_dropWhile (p := (· != '=')) (l := line)
    have hhead := List.head?_dropWhile_not (· != '=') line
    have hname : '=' ∉ line.takeWhile (· != '=') := by
      intro hmem
      simpa using List.mem_takeWhile_imp hmem
    rw [lineValue] at h
    generalize line.takeWhile (· != '=') = name at hsplit hname
    split at h
    · cases h
    · rename_i d rest hdrop
      rw [hdrop] at hhead hsplit
      have hd : d = '=' := by simpa using hhead
      subst hd
      obtain ⟨left, right, hquotes, hleft, hright⟩ :=
        (strip_eq_iff v.firm).mp (Option.some.inj h)
      obtain ⟨front, back, hrest, hfront, hback⟩ := exists_strip Py.isSpace rest
      rw [hquotes] at hrest
      refine ⟨name, front, left, right, back, by rw [← hsplit, hrest], hname, hfront, ?_, ?_,
        hback⟩
      · exact fun c hc => by simpa using hleft c hc
      · exact fun c hc => by simpa using hright c hc
  · rintro ⟨name, front, left, right, back, rfl, hname, hfront, hleft, hright, hback⟩
    have hquotes : ∀ l : List Char, (∀ c ∈ l, c = '"') → Clear Py.isSpace l := by
      intro l hl c hc
      rw [hl c hc]
      simp [Py.isSpace]
    have hmiddle : Firm Py.isSpace (left ++ v.text ++ right) := by
      refine Clear.firm ?_ (by simp [v.text_ne_nil])
      rw [clear_append, clear_append]
      exact ⟨⟨hquotes left hleft, v.unspaced⟩, hquotes right hright⟩
    have hcut : (name ++ '=' :: (front ++ (left ++ v.text ++ right) ++ back)).dropWhile
        (· != '=') = '=' :: (front ++ (left ++ v.text ++ right) ++ back) := by
      refine dropWhile_append_of_firm (fun c hc => ?_) (by simp)
      have hne : c ≠ '=' := fun heq => hname (heq ▸ hc)
      simpa using hne
    rw [lineValue, hcut]
    dsimp only
    rw [strip_padded hmiddle hfront hback, strip_padded v.firm]
    · exact fun c hc => by simpa using hleft c hc
    · exact fun c hc => by simpa using hright c hc

end Version

/-! ## The line of the writer -/

theorem versionKey_firm : Firm Py.isSpace versionKey :=
  ⟨by simp [versionKey], by simp [versionKey, Py.isSpace], by simp [versionKey, Py.isSpace]⟩

theorem versionKey_clear : Clear isLineBreak versionKey := by
  simp [Clear, versionKey, isLineBreak]

/-- What begins with `version = "` is a line the reader takes. -/
theorem isVersionLine_key (rest : List Char) : isVersionLine (versionKey ++ rest) = true := by
  obtain ⟨core, _, _, _, hstrip⟩ := exists_strip_append versionKey_firm rest
  rw [isVersionLine, hstrip, List.isPrefixOf_iff_prefix]
  exact ⟨[' ', '=', ' ', '"'] ++ core, rfl⟩

/-- **The written version is read back** where only white space follows its
closing quote. -/
theorem lineValue_written (v : Version) {rest : List Char} (hrest : '"' ∉ rest) :
    lineValue (versionKey ++ (v.text ++ '"' :: rest)) = some v.text ↔
      ∀ c ∈ rest, Py.isSpace c = true := by
  have hquoted : Firm Py.isSpace ('"' :: (v.text ++ ['"'])) :=
    Clear.firm (by simp [v.unspaced, Py.isSpace]) (by simp)
  have hspace : ∀ c ∈ [' '], Py.isSpace c = true := by simp [Py.isSpace]
  obtain ⟨core, back, hsplit, hback, hstrip⟩ := exists_strip_append hquoted rest
  have hvalue : lineValue (versionKey ++ (v.text ++ '"' :: rest)) =
      some (strip (· == '"') ('"' :: (v.text ++ ['"']) ++ core)) := by
    rw [← hstrip, ← strip_append hspace]
    simp [lineValue, versionKey]
  rw [hvalue, Option.some.injEq]
  constructor
  · intro h
    obtain ⟨left, right, heq, hleft, hright⟩ := (strip_eq_iff v.firm).mp h
    -- two quotes stand on one side, so `left` and `right` hold them and `core` nothing
    have hcore : core.count '"' = 0 :=
      List.count_eq_zero.mpr fun hc => hrest (hsplit ▸ List.mem_append_left back hc)
    have hversion : v.text.count '"' = 0 :=
      List.count_eq_zero.mpr fun hc => absurd (v.unquoted '"' hc) (by decide)
    have hquotes : ∀ l : List Char, (∀ c ∈ l, (c == '"') = true) → l.count '"' = l.length :=
      fun l hl => List.count_eq_length.mpr fun c hc => (beq_iff_eq.mp (hl c hc)).symm
    have hcount := congrArg (List.count '"') heq
    have hlength := congrArg List.length heq
    simp only [List.count_append, List.count_cons_self, List.count_nil, List.length_append,
      List.length_cons, List.length_nil, hcore, hversion, hquotes left hleft,
      hquotes right hright] at hcount hlength
    have hnil : core = [] := List.length_eq_zero_iff.mp (by omega)
    rw [hsplit, hnil]
    exact hback
  · intro h
    have hnil : core = [] := by
      have hall := @strip_padded _ _ _ [] _ hquoted (by simp) h
      rw [List.nil_append, hstrip] at hall
      exact List.append_right_eq_self.mp hall
    have hpadded : '"' :: (v.text ++ ['"']) ++ core = ['"'] ++ v.text ++ ['"'] := by simp [hnil]
    rw [hpadded]
    exact strip_padded v.firm (by simp) (by simp)

/-! ## Reader and writer -/

/-- The new text is the old one but for the line that was read. -/
def OnlyLineChanged (text text' : List Char) : Prop :=
  ∃ before line after line', VersionLine text before line after ∧ Clear isLineBreak line' ∧
    text' = before ++ (line' ++ after)

/-- The writer rewrites the line: it stands at the start of a row, it is
`version = "…"` with nothing but white space behind its last quote, and no
other quote follows in its row. -/
structure Rewrites (before line after : List Char) : Prop where
  start : ∀ c ∈ before.getLast?, c = newline
  quotes : ∃ quoted rest, line = versionKey ++ (quoted ++ '"' :: rest) ∧
    ∀ c ∈ rest, Py.isSpace c = true
  row : '"' ∉ after.takeWhile (· != newline)

/-- There is nothing to write: the line carries the version, and so does
the first place the writer matches, if there is one. -/
structure Written (version text line : List Char) : Prop where
  read : Carries version line
  matched : ∀ pre quoted post, AssignmentAt true text pre quoted post →
    (∀ pre' quoted' post', AssignmentAt true text pre' quoted' post' →
      pre.length ≤ pre'.length) → quoted = version

/-- The reader and the writer agree about the version line of the text. -/
def Agree (version text : List Char) : Prop :=
  ∃ before line after, VersionLine text before line after ∧
    (Rewrites before line after ∨ Written version text line)

/-! ## Where the writer matches -/

theorem newline_isLineBreak : isLineBreak newline = true := by simp [newline, isLineBreak]

/-- Behind a clear text no row has ended yet. -/
theorem notMem_row_append {line rest : List Char} (hline : Clear isLineBreak line) :
    '"' ∉ (line ++ rest).takeWhile (· != newline) ↔
      '"' ∉ line ∧ '"' ∉ rest.takeWhile (· != newline) := by
  have hrow : ∀ c ∈ line, (c != newline) = true := by
    intro c hc
    have hne : c ≠ newline := by
      rintro rfl
      exact absurd (hline newline hc) (by simp [newline_isLineBreak])
    simpa using hne
  rw [List.takeWhile_append_of_pos hrow, List.mem_append, not_or]

section Match
variable {text before line after pre quoted post : List Char}

/-- One place has one match. -/
theorem AssignmentAt.unique {quoted' post' : List Char}
    (h : AssignmentAt true text pre quoted post) (h' : AssignmentAt true text pre quoted' post') :
    quoted = quoted' ∧ post = post' := by
  have hsame := List.append_cancel_left (h.text_eq.symm.trans h'.text_eq)
  have hfound := matchVersion_eq_some_iff.mpr ⟨rfl, h.row, h.last⟩
  have hfound' := matchVersion_eq_some_iff.mpr ⟨rfl, h'.row, h'.last⟩
  rw [hsame, hfound'] at hfound
  cases hfound
  exact ⟨rfl, rfl⟩

/-- The line of the reader stands where the writer matches, or before. -/
theorem AssignmentAt.place (h : AssignmentAt true text pre quoted post)
    (hline : VersionLine text before line after) :
    (before = pre ∧ ∃ rest, line = versionKey ++ rest ∧ quoted ++ '"' :: post = rest ++ after) ∨
      ∃ mid, mid ≠ [] ∧ Stops isLineBreak mid ∧ pre = before ++ (line ++ mid) ∧
        after = mid ++ (versionKey ++ (quoted ++ '"' :: post)) := by
  obtain ⟨rest, tail, hrest, hclear, hstops⟩ := exists_clear isLineBreak (quoted ++ '"' :: post)
  have hwhole : Whole isLineBreak pre := by
    intro b hb
    rw [h.start b hb]
    exact newline_isLineBreak
  have hkey : Clear isLineBreak (versionKey ++ rest) := clear_append.mpr ⟨versionKey_clear, hclear⟩
  have htext : text = pre ++ ((versionKey ++ rest) ++ tail) := by
    rw [h.text_eq, hrest, List.append_assoc]
  rcases hline.cases_at htext hwhole hkey hstops (isVersionLine_key rest) with
    ⟨hbefore, hsame, hafter⟩ | ⟨mid, hmid, hstops', hpre, hafter⟩
  · exact .inl ⟨hbefore, rest, hsame, hafter ▸ hrest⟩
  · refine .inr ⟨mid, hmid, hstops', hpre, ?_⟩
    rw [hafter, List.append_assoc, ← hrest]

/-- The line that is rewritten is where the writer matches. -/
theorem Rewrites.assignmentAt (h : Rewrites before line after)
    (hline : VersionLine text before line after) :
    ∃ quoted rest, AssignmentAt true text before quoted (rest ++ after) ∧
      line = versionKey ++ (quoted ++ '"' :: rest) ∧ ∀ c ∈ rest, Py.isSpace c = true := by
  obtain ⟨quoted, rest, hquotes, hrest⟩ := h.quotes
  have hclear : Clear isLineBreak (versionKey ++ (quoted ++ '"' :: rest)) := hquotes ▸ hline.clear
  obtain ⟨-, hquoted, -, hrest'⟩ : _ ∧ Clear isLineBreak quoted ∧ _ ∧ Clear isLineBreak rest := by
    simpa using hclear
  refine ⟨quoted, rest, ⟨?_, by simp, h.start, ?_, ?_⟩, hquotes, hrest⟩
  · rw [hline.text_eq, hquotes]
    simp
  · intro hmem
    have hfalse := hquoted newline hmem
    rw [newline_isLineBreak] at hfalse
    cases hfalse
  · rw [notMem_row_append hrest']
    refine ⟨fun hmem => ?_, h.row⟩
    have hspace := hrest '"' hmem
    revert hspace
    simp [Py.isSpace]

end Match

/-! ## Writing and reading back -/

/-- The version that is written is read back, and only the line that was
read before has changed. -/
structure RoundTrip (v : Version) (file : List Char) : Prop where
  read : readVersion (writeVersion v file) = .ok v.text
  kept : OnlyLineChanged (readText file) (readText (writeVersion v file))

section RoundTrip
variable (v : Version) {text before line after pre quoted post rest : List Char}

/-- What is read of a text, by the line it is read from. -/
theorem readVersion_eq_ok_iff (hclean : carriageReturn ∉ text)
    (hline : VersionLine text before line after) :
    readVersion text = .ok v.text ↔ lineValue line = some v.text := by
  rw [readVersion_eq (universalNewlines_clean hclean) hclean hline]
  cases lineValue line with
  | none => simp
  | some value => simp

/-- The written text, as the file holds it. -/
def writtenText (pre post : List Char) : List Char :=
  pre ++ (versionKey ++ (v.text ++ '"' :: post))

theorem writtenText_clean (hclean : carriageReturn ∉ text)
    (hat : AssignmentAt true text pre quoted post) :
    carriageReturn ∉ writtenText v pre post := by
  have hversion : carriageReturn ∉ v.text := by
    intro hmem
    have hspace := v.unspaced carriageReturn hmem
    revert hspace
    simp [carriageReturn, Py.isSpace]
  rw [hat.text_eq] at hclean
  simp only [writtenText, List.mem_append, List.mem_cons, not_or] at hclean ⊢
  exact ⟨hclean.1, hclean.2.1, hversion, hclean.2.2.2⟩

/-- The written line, where the text up to its break behaves as a line. -/
theorem writtenText_line (hline : VersionLine text before line after) {tail : List Char}
    (hclear : Clear isLineBreak rest) (hstops : Stops isLineBreak tail) :
    VersionLine (writtenText v before (rest ++ tail)) before
      (versionKey ++ (v.text ++ '"' :: rest)) tail := by
  have hwritten : Clear isLineBreak (versionKey ++ (v.text ++ '"' :: rest)) := by
    simp [versionKey_clear, v.text_clear, hclear, isLineBreak]
  have hplace := hline.replace hwritten hstops (by simp [versionKey]) (isVersionLine_key _)
  simpa [writtenText, VersionLine] using hplace

/-- **Where the writer matches the line of the reader**, what is written is
read back, and nothing else has changed, only if the line is rewritten as a
whole. -/
theorem rewrites_of_same_line (hclean : carriageReturn ∉ text)
    (hat : AssignmentAt true text before quoted post)
    (hline : VersionLine text before (versionKey ++ rest) after)
    (hsplit : quoted ++ '"' :: post = rest ++ after)
    (hread : readVersion (writtenText v before post) = .ok v.text)
    (hkept : OnlyLineChanged text (writtenText v before post)) :
    Rewrites before (versionKey ++ rest) after := by
  obtain ⟨behind, tail, rfl, hbehind, htail⟩ := exists_clear isLineBreak post
  obtain ⟨hquote, hrow⟩ := (notMem_row_append hbehind).mp hat.last
  have hwritten := writtenText_line v hline hbehind htail
  rw [readVersion_eq_ok_iff v (writtenText_clean v hclean hat) hwritten,
    lineValue_written v hquote] at hread
  obtain ⟨before', line', after', line'', hline', hclear, htext⟩ := hkept
  obtain ⟨rfl, -, rfl⟩ := hline.unique hline'
  have hsame : (versionKey ++ (v.text ++ '"' :: behind)) ++ tail = line'' ++ after := by
    rw [← List.append_cancel_left htext]
    simp
  obtain ⟨-, rfl⟩ := hwritten.clear.append_inj htail hclear hline.stops hsame
  have hcut : (quoted ++ '"' :: behind) ++ tail = rest ++ tail := by
    rw [← hsplit]
    simp
  have hrest : quoted ++ '"' :: behind = rest := List.append_cancel_right hcut
  exact ⟨hat.start, ⟨quoted, behind, by rw [hrest], hread⟩, hrow⟩

/-- A text in which that line carries the version already is one of these. -/
theorem Written.rewrites (hat : AssignmentAt true text before quoted post)
    (hline : VersionLine text before (versionKey ++ rest) after)
    (hsplit : quoted ++ '"' :: post = rest ++ after) (hquoted : quoted = v.text)
    (hread : Carries v.text (versionKey ++ rest)) : Rewrites before (versionKey ++ rest) after := by
  obtain ⟨behind, tail, rfl, hbehind, htail⟩ := exists_clear isLineBreak post
  obtain ⟨hquote, hrow⟩ := (notMem_row_append hbehind).mp hat.last
  have hclear : Clear isLineBreak (v.text ++ '"' :: behind) := by
    simp [v.text_clear, hbehind, isLineBreak]
  have hrest : Clear isLineBreak rest := (clear_append.mp hline.clear).2
  have hcut : (v.text ++ '"' :: behind) ++ tail = rest ++ after := by
    rw [← hsplit, hquoted]
    simp
  obtain ⟨rfl, rfl⟩ := hclear.append_inj htail hrest hline.stops hcut
  rw [← v.lineValue_eq_some_iff, lineValue_written v hquote] at hread
  exact ⟨hat.start, ⟨v.text, behind, rfl, hread⟩, hrow⟩

/-- **Where the writer matches behind the line of the reader**, the version
is read back and nothing else changes only if nothing changes at all. -/
theorem roundTrip_behind_iff (hclean : carriageReturn ∉ text)
    (hat : AssignmentAt true text pre quoted post) (hline : VersionLine text before line after)
    {mid : List Char} (hmid : mid ≠ []) (hstops : Stops isLineBreak mid)
    (hpre : pre = before ++ (line ++ mid))
    (hafter : after = mid ++ (versionKey ++ (quoted ++ '"' :: post))) :
    (readVersion (writtenText v pre post) = .ok v.text ∧
      OnlyLineChanged text (writtenText v pre post)) ↔
      Carries v.text line ∧ quoted = v.text := by
  subst hpre
  have hstops' : Stops isLineBreak (mid ++ (versionKey ++ (v.text ++ '"' :: post))) := by
    intro b hb
    rw [List.head?_append_of_ne_nil _ hmid] at hb
    exact hstops b hb
  have htext : writtenText v (before ++ (line ++ mid)) post =
      before ++ (line ++ (mid ++ (versionKey ++ (v.text ++ '"' :: post)))) := by
    simp [writtenText]
  have hwritten : VersionLine (writtenText v (before ++ (line ++ mid)) post) before line
      (mid ++ (versionKey ++ (v.text ++ '"' :: post))) := by
    rw [htext]
    exact hline.replace hline.clear hstops' (by simp [hmid]) hline.pass
  rw [readVersion_eq_ok_iff v (writtenText_clean v hclean hat) hwritten, v.lineValue_eq_some_iff]
  refine and_congr_right fun _ => ?_
  constructor
  · rintro ⟨before', line', after', line'', hline', hclear, hnew⟩
    obtain ⟨rfl, rfl, rfl⟩ := hline.unique hline'
    rw [htext] at hnew
    have hsame := List.append_cancel_left hnew
    obtain ⟨-, hkept⟩ := hline.clear.append_inj hstops' hclear hline.stops hsame
    rw [hafter] at hkept
    have hquoted := List.append_cancel_left (List.append_cancel_left hkept)
    exact (List.append_cancel_right hquoted).symm
  · rintro rfl
    refine ⟨before, line, after, line, hline, hline.clear, ?_⟩
    rw [htext, hafter]

/-- A line that is rewritten is the first the writer matches. -/
theorem Rewrites.writeVersion {file : List Char} (h : Rewrites before line after)
    (hline : VersionLine (readText file) before line after) :
    ∃ rest, (∀ c ∈ rest, Py.isSpace c = true) ∧ Clear isLineBreak rest ∧ '"' ∉ rest ∧
      carriageReturn ∉ writtenText v before (rest ++ after) ∧
      writeVersion v file = writtenText v before (rest ++ after) := by
  obtain ⟨quoted, rest, hat, hquotes, hrest⟩ := h.assignmentAt hline
  have hclear : Clear isLineBreak rest := by
    have hall := hline.clear
    rw [hquotes] at hall
    simp only [clear_append, clear_cons] at hall
    exact hall.2.2.2
  have hquote := ((notMem_row_append hclear).mp hat.last).1
  refine ⟨rest, hrest, hclear, hquote, writtenText_clean v (carriageReturn_notMem _ _) hat, ?_⟩
  cases hsearch : searchVersion true (readText file) with
  | none => exact absurd hat (searchVersion_none hsearch)
  | some found =>
      obtain ⟨pre, quoted', post⟩ := found
      obtain ⟨hat', hfirst⟩ := searchVersion_some hsearch
      have hle := hfirst _ _ _ hat
      rcases hat'.place hline with ⟨rfl, -, -, -⟩ | ⟨mid, hmid, -, hpre, -⟩
      · obtain ⟨-, rfl⟩ := hat.unique hat'
        simp [RiskFlow.writeVersion, hsearch, writtenText]
      · have hpos := List.length_pos_of_ne_nil hmid
        simp only [hpre, List.length_append] at hle
        omega

/-- A file whose new content has no carriage return. -/
theorem roundTrip_of_clean {file text' : List Char} (hnew : writeVersion v file = text')
    (hclean : carriageReturn ∉ text') :
    RoundTrip v file ↔ readVersion text' = .ok v.text ∧ OnlyLineChanged (readText file) text' := by
  have hread : readText text' = text' := universalNewlines_clean hclean
  constructor
  · rintro ⟨hversion, hkept⟩
    rw [hnew] at hversion hkept
    exact ⟨hversion, hread ▸ hkept⟩
  · rintro ⟨hversion, hkept⟩
    refine ⟨hnew ▸ hversion, ?_⟩
    rwa [hnew, hread]

/-- What is rewritten as a whole is read back. -/
theorem Rewrites.roundTrip {file : List Char} (h : Rewrites before line after)
    (hline : VersionLine (readText file) before line after) : RoundTrip v file := by
  obtain ⟨rest, hrest, hclear, hquote, hclean, hnew⟩ := h.writeVersion v hline
  have hwritten := writtenText_line v hline hclear hline.stops
  rw [roundTrip_of_clean v hnew hclean, readVersion_eq_ok_iff v hclean hwritten,
    lineValue_written v hquote]
  exact ⟨hrest, before, line, after, _, hline, hwritten.clear, hwritten.text_eq⟩

/-- **Writing a version is undone by reading it**, and leaves every other
line alone, exactly when the reader and the writer agree about the line. -/
theorem round_trip_iff {file cur : List Char} (hread : readVersion file = .ok cur) :
    RoundTrip v file ↔ Agree v.text (readText file) := by
  have hclean : carriageReturn ∉ readText file := carriageReturn_notMem false file
  obtain ⟨before, line, after, hline, -⟩ := readVersion_ok hread
  have hagree : Agree v.text (readText file) ↔
      Rewrites before line after ∨ Written v.text (readText file) line := by
    constructor
    · rintro ⟨_, _, _, hline', h⟩
      obtain ⟨rfl, rfl, rfl⟩ := hline.unique hline'
      exact h
    · exact fun h => ⟨before, line, after, hline, h⟩
  rw [hagree]
  cases hsearch : searchVersion true (readText file) with
  | none =>
      have hnew : writeVersion v file = readText file := by simp [writeVersion, hsearch]
      constructor
      · intro h
        rw [roundTrip_of_clean v hnew hclean, readVersion_eq_ok_iff v hclean hline,
          v.lineValue_eq_some_iff] at h
        exact .inr ⟨h.1, fun _ _ _ hat => absurd hat (searchVersion_none hsearch)⟩
      · rintro (h | h)
        · exact h.roundTrip v hline
        · rw [roundTrip_of_clean v hnew hclean, readVersion_eq_ok_iff v hclean hline,
            v.lineValue_eq_some_iff]
          exact ⟨h.read, before, line, after, line, hline, hline.clear, hline.text_eq⟩
  | some found =>
      obtain ⟨pre, quoted, post⟩ := found
      obtain ⟨hat, hfirst⟩ := searchVersion_some hsearch
      have hnew : writeVersion v file = writtenText v pre post := by
        simp [writeVersion, hsearch, writtenText]
      have htrip := roundTrip_of_clean v hnew (writtenText_clean v hclean hat)
      rcases hat.place hline with ⟨rfl, rest, rfl, hsplit⟩ | ⟨mid, hmid, hstops, hpre, hafter⟩
      · constructor
        · intro h
          obtain ⟨hversion, hkept⟩ := htrip.mp h
          exact .inl (rewrites_of_same_line v hclean hat hline hsplit hversion hkept)
        · rintro (h | h)
          · exact h.roundTrip v hline
          · have hquoted := h.matched _ _ _ hat hfirst
            exact (Written.rewrites v hat hline hsplit hquoted h.read).roundTrip v hline
      · have hbehind := roundTrip_behind_iff v hclean hat hline hmid hstops hpre hafter
        constructor
        · intro h
          obtain ⟨hcarries, hquoted⟩ := hbehind.mp (htrip.mp h)
          refine .inr ⟨hcarries, fun pre' quoted' post' hat' hfirst' => ?_⟩
          have hlength := Nat.le_antisymm (hfirst' _ _ _ hat) (hfirst _ _ _ hat')
          have hplace := List.append_inj_left (hat'.text_eq.symm.trans hat.text_eq) hlength
          subst hplace
          rw [← hquoted]
          exact (hat'.unique hat).1
        · rintro (h | h)
          · exact h.roundTrip v hline
          · exact htrip.mpr (hbehind.mpr ⟨h.read, h.matched _ _ _ hat hfirst⟩)

end RoundTrip

def version200 : Version where
  major := ['2']
  minor := ['0']
  patch := ['0']
  numbers := by
    have htwo : Py.isDigit '2' = true := by decide
    have hzero : Py.isDigit '0' = true := by decide
    simp [htwo, hzero]

/-- `version = "1.0.0"` in a file of one line. -/
def spacedFile : List Char := versionKey ++ ['1', '.', '0', '.', '0', '"', newline]

/-- The usual layout is written and read back. -/
theorem spaced_round_trip : RoundTrip version200 spacedFile := by
  have hread : readVersion spacedFile = .ok ['1', '.', '0', '.', '0'] := rfl
  have hline : VersionLine (readText spacedFile) [] (versionKey ++ ['1', '.', '0', '.', '0', '"'])
      [newline] :=
    ⟨rfl, by simp [Whole], by simp [versionKey, isLineBreak],
      by simp [Stops, newline_isLineBreak], by simp, isVersionLine_key _, by simp [lines]⟩
  have hrewrites : Rewrites [] (versionKey ++ ['1', '.', '0', '.', '0', '"']) [newline] :=
    ⟨by simp, ⟨['1', '.', '0', '.', '0'], [], rfl, by simp⟩, by simp⟩
  exact (round_trip_iff version200 hread).mpr ⟨_, _, _, hline, .inl hrewrites⟩

/-- `version="1.0.0"`, without the blanks around the sign. -/
def tightFile : List Char :=
  ['v', 'e', 'r', 's', 'i', 'o', 'n', '=', '"', '1', '.', '0', '.', '0', '"', newline]

/-- The version of the tight layout is read but not written. -/
theorem tight_version_kept :
    readVersion tightFile = .ok ['1', '.', '0', '.', '0'] ∧
      ¬ RoundTrip version200 tightFile := by
  refine ⟨rfl, fun h => ?_⟩
  have hread := h.read
  have hkept : readVersion (writeVersion version200 tightFile) =
      .ok ['1', '.', '0', '.', '0'] := rfl
  rw [hkept] at hread
  cases hread

end RiskFlow
