import RiskFlow.Python.Numbers
import RiskFlow.Tools.ReleaseNotes
import RiskFlow.Tools.VersionBumps

/-!
# FetchedPulls — the records `gh` prints, read back

`fetch_prs_since_tag` has `gh` print one row for each pull request, its
members between tabs, and cuts the rows and the members apart again. What
cuts a row is every line break of `str.splitlines`, so a title with one of
them, or with a tab, is not read back; every other title is.
-/

namespace RiskFlow

open Lib

def tab : Char := Char.ofNat 9

/-- A merged pull request. -/
structure PR where
  number : Int
  title : List Char
  mergedAt : List Char
  deriving DecidableEq

/-! ## What is printed -/

/-- A pull request as GitHub has it. -/
structure MergedPull where
  number : Nat
  title : List Char
  merged : ClockTime

/-- `"\(.number)\t\(.title)\t\(.mergedAt)"`. -/
def MergedPull.row (p : MergedPull) : List Char :=
  strOfInt p.number ++ tab :: (p.title ++ tab :: p.merged.textUtc.toList)

/-- The output of `gh pr list` for the pull requests that its filter selects. -/
def ghOutput (selected : List MergedPull) : List Char :=
  selected.flatMap fun p => p.row ++ [newline]

/-- What is to be read back. -/
def MergedPull.pr (p : MergedPull) : PR := ⟨p.number, p.title, p.merged.textUtc.toList⟩

/-! ## What is read -/

/-- The text before the first tab and the one behind it. -/
def cutAtTab (text : List Char) : Option (List Char × List Char) :=
  match text.dropWhile (· != tab) with
  | [] => none
  | _ :: rest => some (text.takeWhile (· != tab), rest)

/-- `line.split("\t", 2)`, if it has three parts. -/
def threeParts (line : List Char) : Option (List Char × List Char × List Char) := do
  let (first, rest) ← cutAtTab line
  let (second, third) ← cutAtTab rest
  return (first, second, third)

/-- One round of the loop over the lines. -/
def parsePr (line : List Char) : Except PyErr (Option PR) :=
  if strip Py.isSpace line = [] then .ok none
  else
    match threeParts line with
    | none => .ok none
    | some (number, title, mergedAt) => do
        let n ← intOfPart number
        return some ⟨n, title, mergedAt⟩

/-- `fetch_prs_since_tag`, from what `gh` printed. -/
def fetchPrs (stdout : List Char) : Except PyErr (List PR) := do
  let found ← (splitlines (strip Py.isSpace (readText stdout))).mapM parsePr
  return found.reduceOption

/-! ## Rows -/

/-- What a title must not have in it: a tab, or a break of lines. -/
def cutsRow (c : Char) : Bool := c == tab || isLineBreak c

theorem clear_cutsRow {text : List Char} :
    Clear cutsRow text ↔ tab ∉ text ∧ Clear isLineBreak text := by
  constructor
  · intro h
    refine ⟨fun hmem => ?_, fun c hc => (Bool.or_eq_false_iff.mp (h c hc)).2⟩
    have hcuts := h tab hmem
    simp [cutsRow] at hcuts
  · intro h c hc
    have hne : c ≠ tab := fun heq => h.1 (heq ▸ hc)
    simp [cutsRow, hne, h.2 c hc]

theorem cutAtTab_append {front rest : List Char} (h : tab ∉ front) :
    cutAtTab (front ++ tab :: rest) = some (front, rest) := by
  have hfront : ∀ c ∈ front, (c != tab) = true := by
    intro c hc
    have hne : c ≠ tab := fun heq => h (heq ▸ hc)
    simpa using hne
  unfold cutAtTab
  rw [List.dropWhile_append_of_pos hfront, List.takeWhile_append_of_pos hfront]
  simp

theorem cutAtTab_eq_some {text front rest : List Char} (h : cutAtTab text = some (front, rest)) :
    text = front ++ tab :: rest ∧ tab ∉ front := by
  unfold cutAtTab at h
  split at h
  · cases h
  · rename_i c more hdrop
    cases h
    have hhead : (c :: rest).head? = some c := rfl
    rw [← hdrop] at hhead
    have hc := List.head?_dropWhile_not (· != tab) text
    rw [hhead] at hc
    have hctab : c = tab := by simpa using hc
    refine ⟨?_, fun hmem => ?_⟩
    · have hsplit := List.takeWhile_append_dropWhile (p := (· != tab)) (l := text)
      rw [hdrop, hctab] at hsplit
      exact hsplit.symm
    · have hpass := List.mem_takeWhile_imp hmem
      simp at hpass

/-- A text without white space has neither in it. -/
theorem unspaced_uncut {text : List Char} (h : Clear Py.isSpace text) : Clear cutsRow text := by
  refine clear_cutsRow.mpr ⟨fun hmem => ?_, fun c hc => isLineBreak_of_isSpace (h c hc)⟩
  have hspace := h tab hmem
  simp [Py.isSpace, tab] at hspace

namespace MergedPull
variable (p : MergedPull)

theorem number_unspaced : Clear Py.isSpace (strOfInt p.number) := by
  intro c hc
  rw [strOfInt_natCast] at hc
  exact Py.isSpace_of_isDigit (toDigits_isDigit _ c hc)

theorem merged_unspaced : Clear Py.isSpace p.merged.textUtc.toList := by
  rw [ClockTime.textUtc, String.toList_append, clear_append]
  exact ⟨p.merged.unspaced, by simp [Py.isSpace]⟩

theorem threeParts_row (h : tab ∉ p.title) :
    threeParts p.row = some (strOfInt p.number, p.title, p.merged.textUtc.toList) := by
  have hnumber := (clear_cutsRow.mp (unspaced_uncut p.number_unspaced)).1
  unfold threeParts row
  rw [cutAtTab_append hnumber]
  show (cutAtTab (p.title ++ tab :: _)).bind _ = _
  rw [cutAtTab_append h]
  rfl

/-- A row begins with a digit and ends with the `Z` of its time. -/
theorem row_firm : Firm Py.isSpace p.row := by
  have hnumber : strOfInt p.number ≠ [] := by
    rw [strOfInt_natCast]
    exact Nat.toDigits_ne_nil
  have hmerged : p.merged.textUtc.toList ≠ [] := by
    rw [ClockTime.textUtc, String.toList_append]
    simp
  have hrow : p.row =
      strOfInt p.number ++ ((tab :: (p.title ++ [tab])) ++ p.merged.textUtc.toList) := by
    simp [row]
  rw [hrow]
  exact (p.number_unspaced.firm hnumber).surround (p.merged_unspaced.firm hmerged) _

theorem row_clear (h : Clear cutsRow p.title) : Clear isLineBreak p.row := by
  have htab : isLineBreak tab = false := by decide
  have hnumber := (clear_cutsRow.mp (unspaced_uncut p.number_unspaced)).2
  have hmerged := (clear_cutsRow.mp (unspaced_uncut p.merged_unspaced)).2
  simp [row, hnumber, hmerged, (clear_cutsRow.mp h).2, htab]

/-- **A row with an uncut title is read back.** -/
theorem parsePr_row (h : Clear cutsRow p.title) : parsePr p.row = .ok (some p.pr) := by
  have hstrip : strip Py.isSpace p.row = p.row :=
    (strip_eq_iff p.row_firm).mpr ⟨[], [], by simp, by simp, by simp⟩
  have hnumber : intOfPart (strOfInt p.number) = .ok (p.number : Int) := by
    rw [strOfInt_natCast, intOfPart_number ⟨Nat.toDigits_ne_nil, toDigits_isDigit _⟩,
      intOfDigits_toDigits]
  unfold parsePr
  rw [hstrip, if_neg p.row_firm.ne_nil, p.threeParts_row (clear_cutsRow.mp h).1]
  exact bind_eq_ok.mpr ⟨_, hnumber, rfl⟩

end MergedPull

/-! ## All rows -/

section Rows
variable {selected : List MergedPull}

/-- The rows with a line feed between each two. -/
def joinedRows : List MergedPull → List Char
  | [] => []
  | [p] => p.row
  | p :: rest => p.row ++ newline :: joinedRows rest

theorem joinedRows_cons (p q : MergedPull) (rest : List MergedPull) :
    joinedRows (p :: q :: rest) = p.row ++ newline :: joinedRows (q :: rest) := rfl

theorem ghOutput_eq (p : MergedPull) (rest : List MergedPull) :
    ghOutput (p :: rest) = joinedRows (p :: rest) ++ [newline] := by
  induction rest generalizing p with
  | nil => simp [ghOutput, joinedRows]
  | cons q rest ih =>
      have hcons : ghOutput (p :: q :: rest) = p.row ++ [newline] ++ ghOutput (q :: rest) := rfl
      rw [hcons, ih q, joinedRows_cons]
      simp

theorem joinedRows_firm (p : MergedPull) (rest : List MergedPull) :
    Firm Py.isSpace (joinedRows (p :: rest)) := by
  induction rest generalizing p with
  | nil => exact p.row_firm
  | cons q rest ih =>
      rw [joinedRows_cons]
      exact p.row_firm.surround (ih q) [newline]

theorem lines_joinedRows (h : ∀ p ∈ selected, Clear cutsRow p.title) :
    lines isLineBreak (joinedRows selected) = selected.map MergedPull.row := by
  induction selected with
  | nil => rfl
  | cons p rest ih =>
      rw [List.forall_mem_cons] at h
      have hp := p.row_clear h.1
      cases rest with
      | nil =>
          have hstops : Stops isLineBreak [] := by simp [Stops]
          have hline := lines_line hp hstops (by simp [p.row_firm.ne_nil])
          simpa [joinedRows, lines] using hline
      | cons q rest =>
          rw [joinedRows_cons, lines_line hp (by simp [Stops, newline_isLineBreak]) (by simp),
            List.tail_cons, ih h.2]
          rfl

theorem joinedRows_clean (h : ∀ p ∈ selected, Clear cutsRow p.title) :
    carriageReturn ∉ joinedRows selected := by
  induction selected with
  | nil => exact List.not_mem_nil
  | cons p rest ih =>
      rw [List.forall_mem_cons] at h
      have hp : carriageReturn ∉ p.row := by
        intro hmem
        have hbreak := p.row_clear h.1 _ hmem
        simp [isLineBreak, carriageReturn] at hbreak
      cases rest with
      | nil => exact hp
      | cons q rest =>
          rw [joinedRows_cons, List.mem_append, List.mem_cons, not_or, not_or]
          exact ⟨hp, by decide, ih h.2⟩

/-- Printed rows with uncut titles are the lines that are read. -/
theorem lines_read (h : ∀ p ∈ selected, Clear cutsRow p.title) :
    splitlines (strip Py.isSpace (readText (ghOutput selected))) =
      selected.map MergedPull.row := by
  cases selected with
  | nil => rfl
  | cons p rest =>
      have hclean := joinedRows_clean h
      have hprinted : carriageReturn ∉ joinedRows (p :: rest) ++ [newline] := by
        rw [List.mem_append, not_or]
        exact ⟨hclean, by decide⟩
      have hstrip : strip Py.isSpace (joinedRows (p :: rest) ++ [newline]) =
          joinedRows (p :: rest) :=
        (strip_eq_iff (joinedRows_firm p rest)).mpr
          ⟨[], [newline], by simp, by simp, by simp [Py.isSpace, newline]⟩
      rw [ghOutput_eq, readText, universalNewlines_clean hprinted, hstrip, splitlines,
        universalNewlines_clean hclean]
      exact lines_joinedRows h

/-- What is read has uncut titles, whatever was printed. -/
theorem fetchPrs_uncut {stdout : List Char} {prs : List PR} (h : fetchPrs stdout = .ok prs) :
    ∀ pr ∈ prs, Clear cutsRow pr.title := by
  obtain ⟨found, hfound, h⟩ := bind_eq_ok.mp h
  cases h
  intro pr hpr
  obtain ⟨line, hline, hparse⟩ :=
    exists_of_forall₂ (mapM_eq_ok.mp hfound).flip (List.reduceOption_mem_iff.mp hpr)
  have hclear : Clear isLineBreak line := clear_of_mem_lines hline
  unfold parsePr at hparse
  split at hparse
  · cases hparse
  · split at hparse
    · cases hparse
    · rename_i number title mergedAt hparts
      obtain ⟨n, _, hparse⟩ := bind_eq_ok.mp hparse
      cases hparse
      obtain ⟨⟨first, rest⟩, hfirst, hparts⟩ := Option.bind_eq_some_iff.mp hparts
      obtain ⟨⟨second, third⟩, hsecond, hparts⟩ := Option.bind_eq_some_iff.mp hparts
      cases hparts
      obtain ⟨rfl, _⟩ := cutAtTab_eq_some hfirst
      obtain ⟨rfl, htab⟩ := cutAtTab_eq_some hsecond
      refine clear_cutsRow.mpr ⟨htab, fun c hc => hclear c ?_⟩
      simp [hc]

/-- Rows with uncut titles are read back. -/
theorem fetchPrs_ghOutput (h : ∀ p ∈ selected, Clear cutsRow p.title) :
    fetchPrs (ghOutput selected) = .ok (selected.map MergedPull.pr) := by
  refine bind_eq_ok.mpr ⟨selected.map fun p => some p.pr, ?_, ?_⟩
  · rw [lines_read h, mapM_eq_ok, List.forall₂_map_left_iff, List.forall₂_map_right_iff,
      List.forall₂_same]
    exact fun p hp => p.parsePr_row (h p hp)
  · have hall : (selected.map fun p => some p.pr).reduceOption = selected.map MergedPull.pr := by
      induction selected with
      | nil => rfl
      | cons p rest ih =>
          rw [List.forall_mem_cons] at h
          rw [List.map_cons, List.reduceOption_cons_of_some, ih h.2, List.map_cons]
    rw [hall]
    rfl

end Rows

/-- **What is printed is read back exactly if no title is cut**, by a tab or by
a break of lines; otherwise the answer is another list, or an exception. -/
theorem pulls_read_back_iff (selected : List MergedPull) :
    fetchPrs (ghOutput selected) = .ok (selected.map MergedPull.pr) ↔
      ∀ p ∈ selected, Clear cutsRow p.title :=
  ⟨fun h p hp => fetchPrs_uncut h p.pr (List.mem_map_of_mem hp), fetchPrs_ghOutput⟩

end RiskFlow
