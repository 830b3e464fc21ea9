import Mathlib

/-!
# Lines — the lines of a text and the padding around it

A text is cut into lines at its break characters. `FirstLine` says where
the first line that passes a test stands: what is before it, the line, and
what is after it. That place is unique, and replacing what stands there, or
anything after it, leaves it in place.
-/

namespace Lib

universe u
variable {α : Type u}

/-- A text with none of the characters. -/
def Clear (p : α → Bool) (xs : List α) : Prop := ∀ c ∈ xs, p c = false

@[simp] theorem clear_append {p : α → Bool} {xs ys : List α} :
    Clear p (xs ++ ys) ↔ Clear p xs ∧ Clear p ys := by
  simp [Clear, or_imp, forall_and]

@[simp] theorem clear_cons {p : α → Bool} {c : α} {cs : List α} :
    Clear p (c :: cs) ↔ p c = false ∧ Clear p cs := by
  simp [Clear]

@[simp] theorem clear_nil (p : α → Bool) : Clear p [] := by simp [Clear]

/-! ## Padding -/

/-- The text without the padding at both ends. -/
def strip (p : α → Bool) (xs : List α) : List α := ((xs.dropWhile p).reverse.dropWhile p).reverse

/-- A text that neither starts nor ends with padding. -/
structure Firm (p : α → Bool) (xs : List α) : Prop where
  ne_nil : xs ≠ []
  head : ∀ c ∈ xs.head?, p c = false
  last : ∀ c ∈ xs.getLast?, p c = false

section Padding
variable {p : α → Bool} {xs ys front back : List α}

theorem Clear.firm (h : Clear p xs) (hne : xs ≠ []) : Firm p xs :=
  ⟨hne, fun c hc => h c (List.mem_of_mem_head? hc), fun c hc => h c (List.mem_of_mem_getLast? hc)⟩

/-- What starts and ends firm is firm, whatever is in between. -/
theorem Firm.surround (hxs : Firm p xs) (hys : Firm p ys) (mid : List α) :
    Firm p (xs ++ (mid ++ ys)) := by
  refine ⟨by simp [hxs.ne_nil], fun c hc => ?_, fun c hc => ?_⟩
  · rw [List.head?_append_of_ne_nil _ hxs.ne_nil] at hc
    exact hxs.head c hc
  · rw [List.getLast?_append_of_ne_nil _ (by simp [hys.ne_nil]),
      List.getLast?_append_of_ne_nil _ hys.ne_nil] at hc
    exact hys.last c hc

/-- Padding in front goes first. -/
theorem strip_append (hfront : ∀ c ∈ front, p c = true) : strip p (front ++ xs) = strip p xs := by
  rw [strip, List.dropWhile_append_of_pos hfront, strip]

theorem dropWhile_append_of_firm (hfront : ∀ c ∈ front, p c = true)
    (hhead : ∀ c ∈ ys.head?, p c = false) : (front ++ ys).dropWhile p = ys := by
  rw [List.dropWhile_append_of_pos hfront]
  cases ys with
  | nil => rfl
  | cons c cs => exact List.dropWhile_cons_of_neg (by simp [hhead c rfl])

/-- Stripping takes the padding away. -/
theorem strip_padded (hys : Firm p ys) (hfront : ∀ c ∈ front, p c = true)
    (hback : ∀ c ∈ back, p c = true) : strip p (front ++ ys ++ back) = ys := by
  have hhead : ∀ c ∈ (ys ++ back).head?, p c = false := by
    intro c hc
    rw [List.head?_append_of_ne_nil _ hys.ne_nil] at hc
    exact hys.head c hc
  have hlast : ∀ c ∈ ys.reverse.head?, p c = false := by
    rw [List.head?_reverse]
    exact hys.last
  have hback' : ∀ c ∈ back.reverse, p c = true := by simpa using hback
  rw [strip, List.append_assoc, dropWhile_append_of_firm hfront hhead, List.reverse_append,
    dropWhile_append_of_firm hback' hlast, List.reverse_reverse]

/-- What is taken away is padding. -/
theorem exists_strip (p : α → Bool) (xs : List α) :
    ∃ front back, xs = front ++ strip p xs ++ back ∧ (∀ c ∈ front, p c = true) ∧
      ∀ c ∈ back, p c = true := by
  have hsplit := List.takeWhile_append_dropWhile (p := p) (l := (xs.dropWhile p).reverse)
  refine ⟨xs.takeWhile p, ((xs.dropWhile p).reverse.takeWhile p).reverse, ?_,
    fun c hc => List.mem_takeWhile_imp hc, fun c hc => ?_⟩
  · rw [List.append_assoc, strip, ← List.reverse_append, hsplit, List.reverse_reverse,
      List.takeWhile_append_dropWhile]
  · exact List.mem_takeWhile_imp (List.mem_reverse.mp hc)

/-- **A firm text is what is left** of the texts that pad it. -/
theorem strip_eq_iff (hys : Firm p ys) :
    strip p xs = ys ↔ ∃ front back, xs = front ++ ys ++ back ∧ (∀ c ∈ front, p c = true) ∧
      ∀ c ∈ back, p c = true := by
  constructor
  · rintro rfl
    exact exists_strip p xs
  · rintro ⟨front, back, rfl, hfront, hback⟩
    exact strip_padded hys hfront hback

/-- Behind a firm text only the padding at the end is taken away. -/
theorem exists_strip_append (hxs : Firm p xs) (ys : List α) :
    ∃ core back, ys = core ++ back ∧ (∀ c ∈ back, p c = true) ∧
      strip p (xs ++ ys) = xs ++ core := by
  have hsplit := List.takeWhile_append_dropWhile (p := p) (l := ys.reverse)
  have hback : ∀ c ∈ (ys.reverse.takeWhile p).reverse, p c = true :=
    fun c hc => List.mem_takeWhile_imp (List.mem_reverse.mp hc)
  have hys : ys = (ys.reverse.dropWhile p).reverse ++ (ys.reverse.takeWhile p).reverse := by
    rw [← List.reverse_append, hsplit, List.reverse_reverse]
  have hfirm : Firm p (xs ++ (ys.reverse.dropWhile p).reverse) := by
    refine ⟨by simp [hxs.ne_nil], ?_, ?_⟩
    · rw [List.head?_append_of_ne_nil _ hxs.ne_nil]
      exact hxs.head
    · intro c hc
      rw [List.getLast?_append, List.getLast?_reverse] at hc
      cases hhead : (ys.reverse.dropWhile p).head? with
      | none =>
          rw [hhead] at hc
          exact hxs.last c hc
      | some d =>
          rw [hhead] at hc
          cases hc
          have hnot := List.head?_dropWhile_not p ys.reverse
          rw [hhead] at hnot
          simpa using hnot
  refine ⟨_, _, hys, hback, ?_⟩
  have hstrip := @strip_padded _ _ _ [] _ hfirm (by simp) hback
  rwa [List.nil_append, List.append_assoc, ← hys] at hstrip

/-- What is left ends in no padding. -/
theorem strip_last {c : α} (h : strip p xs = ys ++ [c]) : p c = false := by
  have hrev : (xs.dropWhile p).reverse.dropWhile p = c :: ys.reverse := by
    rw [strip] at h
    rw [← List.reverse_reverse (List.dropWhile _ _), h]
    simp
  have hhead := List.head?_dropWhile_not p (xs.dropWhile p).reverse
  rw [hrev] at hhead
  simpa using hhead

end Padding

/-! ## Lines -/

/-- The lines of a text, without their breaks. A break at the end does not
start another line. -/
def lines (brk : α → Bool) : List α → List (List α)
  | [] => []
  | c :: cs =>
      if brk c then [] :: lines brk cs
      else
        match lines brk cs with
        | [] => [[c]]
        | l :: ls => (c :: l) :: ls

/-- Whole lines: nothing, or a text that ends in a break. -/
def Whole (brk : α → Bool) (xs : List α) : Prop := ∀ b ∈ xs.getLast?, brk b = true

/-- The end of a line: nothing, or a text that starts with a break. -/
def Stops (brk : α → Bool) (xs : List α) : Prop := ∀ b ∈ xs.head?, brk b = true

section Lines
variable {brk : α → Bool} {before mid line after rest : List α}

theorem Whole.of_append (h : Whole brk (before ++ mid)) (hne : mid ≠ []) : Whole brk mid := by
  intro b hb
  refine h b ?_
  rwa [List.getLast?_append_of_ne_nil _ hne]

theorem Whole.append (h : Whole brk before) (hmid : Whole brk mid) : Whole brk (before ++ mid) := by
  intro b hb
  rw [List.getLast?_append] at hb
  cases hlast : mid.getLast? with
  | none =>
      rw [hlast] at hb
      exact h b hb
  | some c =>
      rw [hlast] at hb
      exact hmid b (hlast ▸ hb)

theorem lines_ne_nil (h : rest ≠ []) : lines brk rest ≠ [] := by
  cases rest with
  | nil => exact absurd rfl h
  | cons c cs =>
      rw [lines]
      split
      · exact List.cons_ne_nil _ _
      · split
        · exact List.cons_ne_nil _ _
        · exact List.cons_ne_nil _ _

/-- The lines of whole lines and of what follows them. -/
theorem lines_append (h : Whole brk before) :
    lines brk (before ++ rest) = lines brk before ++ lines brk rest := by
  induction before with
  | nil => rfl
  | cons c cs ih =>
      by_cases hcs : cs = []
      · subst hcs
        have hc : brk c = true := h c rfl
        simp [lines, hc]
      · have hrest := ih (@Whole.of_append _ _ [c] _ h hcs)
        rw [List.cons_append, lines, lines, hrest]
        by_cases hc : brk c = true
        · simp [hc]
        · obtain ⟨l, ls, hl⟩ := List.exists_cons_of_ne_nil (@lines_ne_nil _ brk _ hcs)
          simp [hc, hl]

/-- A line and what follows it. -/
theorem lines_line (hline : Clear brk line) (hafter : Stops brk after) (hne : line ++ after ≠ []) :
    lines brk (line ++ after) = line :: lines brk after.tail := by
  induction line with
  | nil =>
      cases after with
      | nil => exact absurd rfl hne
      | cons b bs =>
          have hb : brk b = true := hafter b rfl
          simp [lines, hb]
  | cons c cs ih =>
      have hc : brk c = false := (clear_cons.mp hline).1
      rw [List.cons_append, lines, if_neg (by simp [hc])]
      by_cases hcs : cs ++ after = []
      · obtain ⟨rfl, rfl⟩ := List.append_eq_nil_iff.mp hcs
        rfl
      · rw [ih (clear_cons.mp hline).2 hcs]

/-- No line has a break in it. -/
theorem clear_of_mem_lines {l : List α} (h : l ∈ lines brk rest) : Clear brk l := by
  induction rest generalizing l with
  | nil => cases h
  | cons c cs ih =>
      rw [lines] at h
      split at h
      · rcases List.mem_cons.mp h with rfl | h
        · exact fun d hd => by cases hd
        · exact ih h
      · rename_i hc
        have hc : brk c = false := by simpa using hc
        split at h
        · rw [List.mem_singleton.mp h]
          exact clear_cons.mpr ⟨hc, fun d hd => by cases hd⟩
        · rename_i l' ls hlines
          rw [hlines] at ih
          rcases List.mem_cons.mp h with rfl | h
          · exact clear_cons.mpr ⟨hc, ih List.mem_cons_self⟩
          · exact ih (List.mem_cons_of_mem _ h)

/-- Up to its first break a text is clear. -/
theorem exists_clear (brk : α → Bool) (xs : List α) :
    ∃ line after, xs = line ++ after ∧ Clear brk line ∧ Stops brk after := by
  refine ⟨xs.takeWhile fun c => !brk c, xs.dropWhile fun c => !brk c,
    List.takeWhile_append_dropWhile.symm, ?_, ?_⟩
  · intro c hc
    simpa using List.mem_takeWhile_imp hc
  · intro b hb
    have hhead := List.head?_dropWhile_not (fun c => !brk c) xs
    rw [hb] at hhead
    simpa using hhead

/-- A line ends where the next break stands. -/
theorem Clear.append_inj {line' after' : List α} (hline : Clear brk line) (hafter : Stops brk after)
    (hline' : Clear brk line') (hafter' : Stops brk after') (h : line ++ after = line' ++ after') :
    line = line' ∧ after = after' := by
  have htake : ∀ {l r : List α}, Clear brk l → Stops brk r →
      (l ++ r).takeWhile (fun c => !brk c) = l := by
    intro l r hl hr
    rw [List.takeWhile_append_of_pos fun c hc => by simp [hl c hc]]
    cases r with
    | nil => simp
    | cons b bs => simp [hr b rfl]
  have hsame : line = line' := by
    rw [← htake hline hafter, h, htake hline' hafter']
  subst hsame
  exact ⟨rfl, List.append_cancel_left h⟩

/-- Whole lines that begin with the characters of a line hold that line. -/
theorem Whole.exists_line (hmid : Whole brk mid) (hne : mid ≠ []) (hline : Clear brk line)
    (hafter : Stops brk after) (h : line ++ after = mid ++ rest) :
    ∃ tail, tail ≠ [] ∧ Stops brk tail ∧ mid = line ++ tail ∧ after = tail ++ rest := by
  have hlast : mid.getLast hne ∉ line := by
    intro hmem
    have hb := hmid _ (List.getLast?_eq_some_getLast hne)
    rw [hline _ hmem] at hb
    cases hb
  rcases List.append_eq_append_iff.mp h with ⟨tail, hmid', hafter'⟩ | ⟨tail, hline', _⟩
  · have htail : tail ≠ [] := by
      rintro rfl
      rw [List.append_nil] at hmid'
      exact hlast (hmid' ▸ List.getLast_mem hne)
    refine ⟨tail, htail, ?_, hmid', hafter'⟩
    intro b hb
    refine hafter b ?_
    rwa [hafter', List.head?_append_of_ne_nil _ htail]
  · exact absurd (hline' ▸ List.mem_append_left tail (List.getLast_mem hne)) hlast

end Lines

/-! ## The first line that passes -/

/-- The first line of the text that passes the test, where it stands. -/
structure FirstLine (brk : α → Bool) (p : List α → Bool) (text before line after : List α) :
    Prop where
  text_eq : text = before ++ (line ++ after)
  whole : Whole brk before
  clear : Clear brk line
  stops : Stops brk after
  ne_nil : line ++ after ≠ []
  pass : p line = true
  first : ∀ l ∈ lines brk before, p l = false

section FirstLine
variable {brk : α → Bool} {p : List α → Bool} {text before line after rest : List α}

/-- The line that stands first is the one that is found. -/
theorem FirstLine.find (h : FirstLine brk p text before line after) :
    (lines brk text).find? p = some line := by
  have hnone : (lines brk before).find? p = none := by
    rw [List.find?_eq_none]
    intro l hl
    simp [h.first l hl]
  rw [h.text_eq, lines_append h.whole, List.find?_append, hnone,
    lines_line h.clear h.stops h.ne_nil, List.find?_cons_of_pos h.pass]
  rfl

/-- The line that is found stands somewhere. -/
theorem exists_firstLine (h : (lines brk text).find? p = some line) :
    ∃ before after, FirstLine brk p text before line after := by
  induction hn : text.length using Nat.strong_induction_on generalizing text with
  | _ n ih =>
      have htext : text ≠ [] := by
        rintro rfl
        cases h
      obtain ⟨l, r, rfl, hclear, hstops⟩ := exists_clear brk text
      rw [lines_line hclear hstops htext, List.find?_cons] at h
      split at h
      · cases h
        rename_i hpass
        exact ⟨[], r, rfl, by simp [Whole], hclear, hstops, htext, hpass, by simp [lines]⟩
      · rename_i hfail
        cases r with
        | nil => cases h
        | cons b bs =>
            have hb : brk b = true := hstops b rfl
            rw [List.tail_cons] at h
            obtain ⟨before, after, hrest⟩ := ih bs.length (by simp at hn; omega) h rfl
            have hwhole : Whole brk (l ++ [b]) := by simpa [Whole] using hb
            have hline : lines brk (l ++ [b]) = [l] :=
              lines_line hclear (by simpa [Stops] using hb) (by simp)
            refine ⟨l ++ [b] ++ before, after, ?_, hwhole.append hrest.whole, hrest.clear,
              hrest.stops, hrest.ne_nil, hrest.pass, ?_⟩
            · rw [hrest.text_eq]
              simp
            · rw [lines_append hwhole, hline]
              intro l' hl'
              rcases List.mem_cons.mp hl' with rfl | hl'
              · exact hfail
              · exact hrest.first l' hl'

/-- Another line of its kind in its place, and another end of its kind after
it, leave the place as it is. -/
theorem FirstLine.replace (h : FirstLine brk p text before line after) {line' after' : List α}
    (hline : Clear brk line') (hafter : Stops brk after') (hne : line' ++ after' ≠ [])
    (hpass : p line' = true) :
    FirstLine brk p (before ++ (line' ++ after')) before line' after' :=
  ⟨rfl, h.whole, hline, hafter, hne, hpass, h.first⟩

/-- **A line that passes** stands at the first place or after it. -/
theorem FirstLine.cases_at (h : FirstLine brk p text before line after) {front l tail : List α}
    (htext : text = front ++ (l ++ tail)) (hfront : Whole brk front) (hl : Clear brk l)
    (htail : Stops brk tail) (hpass : p l = true) :
    (before = front ∧ line = l ∧ after = tail) ∨
      ∃ mid, mid ≠ [] ∧ Stops brk mid ∧ front = before ++ (line ++ mid) ∧
        after = mid ++ (l ++ tail) := by
  rw [h.text_eq] at htext
  rcases List.append_eq_append_iff.mp htext with ⟨mid, hmid, hrest⟩ | ⟨mid, hmid, hrest⟩
  · by_cases hnil : mid = []
    · subst hnil
      exact .inl ⟨by simpa using hmid.symm, h.clear.append_inj h.stops hl htail hrest⟩
    · have hwhole : Whole brk mid := Whole.of_append (hmid ▸ hfront) hnil
      obtain ⟨tail', htail', hstops, rfl, hafter⟩ :=
        hwhole.exists_line hnil h.clear h.stops hrest
      exact .inr ⟨tail', htail', hstops, hmid, hafter⟩
  · by_cases hnil : mid = []
    · subst hnil
      exact .inl ⟨by simpa using hmid, h.clear.append_inj h.stops hl htail hrest.symm⟩
    · -- the line would stand among those before the first
      have hwhole : Whole brk mid := Whole.of_append (hmid ▸ h.whole) hnil
      obtain ⟨tail', htail', hstops, rfl, _⟩ := hwhole.exists_line hnil hl htail hrest
      have hmem : l ∈ lines brk before := by
        rw [hmid, lines_append hfront, lines_line hl hstops (by simp [htail'])]
        simp
      rw [h.first l hmem] at hpass
      cases hpass

/-- The first line that passes stands in one place. -/
theorem FirstLine.unique {before' line' after' : List α}
    (h : FirstLine brk p text before line after)
    (h' : FirstLine brk p text before' line' after') :
    before = before' ∧ line = line' ∧ after = after' := by
  rcases h.cases_at h'.text_eq h'.whole h'.clear h'.stops h'.pass with hsame | ⟨mid, hmid, hstops,
    hbefore, _⟩
  · exact hsame
  · have hmem : line ∈ lines brk before' := by
      rw [hbefore, lines_append h.whole, lines_line h.clear hstops (by simp [hmid])]
      simp
    have hpass := h'.first line hmem
    rw [h.pass] at hpass
    cases hpass

end FirstLine

end Lib
