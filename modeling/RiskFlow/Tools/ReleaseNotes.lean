import RiskFlow.Lib.Lines
import RiskFlow.Python.Calendar

/-!
# ReleaseNotes — `fetch_prs_since_tag` of `tools/release_notes.py`

The filter handed to `jq` compares two texts: the time `git` prints for the
tag, on the clock of its author, and the time GitHub prints for the merge,
on the clock of UTC. Each clock is read to the second; the texts are ordered
as the readings are, whatever the offset between the clocks.
-/

namespace RiskFlow

open Lib

/-! ## Times and their texts -/

/-- What a clock shows, to the second. -/
structure ClockTime where
  date : Date
  hour : Fin 24
  minute : Fin 60
  second : Fin 60

/-- A time stamp to the second. -/
def ClockTime.ofDateTime (t : DateTime) : ClockTime := ⟨t.date, t.hour, t.minute, t.second⟩

/-- The seconds from the start of the calendar to the reading. -/
def ClockTime.seconds (t : ClockTime) : Nat :=
  86400 * t.date.ordinal + 3600 * t.hour + 60 * t.minute + t.second

/-- `YYYY-MM-DDThh:mm:ss`. -/
def ClockTime.text (t : ClockTime) : String :=
  t.date.isoformat ++ "T" ++ Py.padded 2 t.hour ++ ":" ++ Py.padded 2 t.minute ++ ":" ++
    Py.padded 2 t.second

/-- `mergedAt`: GitHub's clock is that of UTC. -/
def ClockTime.textUtc (t : ClockTime) : String := t.text ++ "Z"

/-- How far a clock is ahead of UTC. It is printed with two digits of hours. -/
structure UtcOffset where
  minutes : Int
  twoDigits : -6000 < minutes ∧ minutes < 6000

/-- `±hh:mm`. Whether an offset of zero is printed as `Z` or as `+00:00`
depends on the version of `git`. -/
def UtcOffset.text (zulu : Bool) (o : UtcOffset) : String :=
  if o.minutes = 0 then (if zulu then "Z" else "+00:00")
  else (if 0 < o.minutes then "+" else "-") ++ Py.padded 2 (o.minutes.natAbs / 60) ++ ":" ++
    Py.padded 2 (o.minutes.natAbs % 60)

/-- The author time of the tagged commit. -/
structure TagTime where
  clock : ClockTime
  offset : UtcOffset

/-- The instant of the tag, in seconds of the clock of UTC. -/
def TagTime.instant (t : TagTime) : Int := t.clock.seconds - 60 * t.offset.minutes

/-! ## The filter -/

/-- The output of `git log -1 --format=%aI`. -/
def gitLog (zulu : Bool) (t : TagTime) : String :=
  t.clock.text ++ t.offset.text zulu ++ String.ofList [Char.ofNat 10]

/-- `_tag_date`. -/
def tagDate (zulu : Bool) (t : TagTime) : String := Py.strip (gitLog zulu t)

/-- `select(.mergedAt > "<tag date>")`: `jq` compares by code points. -/
def selectMergedAt (tagDate mergedAt : String) : Bool := tagDate < mergedAt

/-! ## Texts of times -/

theorem ClockTime.toList_text (t : ClockTime) (rest : List Char) :
    t.text.toList ++ rest = t.date.isoformat.toList ++ 'T' :: (Py.digits 2 t.hour ++ ':' ::
      (Py.digits 2 t.minute ++ ':' :: (Py.digits 2 t.second ++ rest))) := by
  simp [text, Py.padded]

/-- **Readings are ordered as their texts**, then by what follows. -/
theorem ClockTime.text_append_lt (a b : ClockTime) (x y : List Char) :
    a.text.toList ++ x < b.text.toList ++ y ↔
      a.seconds < b.seconds ∨ a.seconds = b.seconds ∧ x < y := by
  have hirrefl : ∀ c : Char, ¬ c < c := fun c => lt_irrefl c
  have hdate : a.date = b.date ↔ a.date.ordinal = b.date.ordinal :=
    ⟨congrArg Date.ordinal, Date.ordinal_inj⟩
  have hha := a.hour.isLt
  have hhb := b.hour.isLt
  have hma := a.minute.isLt
  have hmb := b.minute.isLt
  have hsa := a.second.isLt
  have hsb := b.second.isLt
  rw [toList_text, toList_text, Date.isoformat_append_lt, List.cons_lt_cons_iff,
    Py.digits_append_lt (by omega) (by omega), List.cons_lt_cons_iff,
    Py.digits_append_lt (by omega) (by omega), List.cons_lt_cons_iff,
    Py.digits_append_lt (by omega) (by omega), Date.before_iff_ordinal]
  simp only [hirrefl, true_and, false_or, hdate, seconds]
  by_cases hxy : x < y
  · simp only [hxy, and_true]
    omega
  · simp only [hxy, and_false, or_false]
    omega

theorem unspaced_padded (width n : Nat) : Clear Py.isSpace (Py.padded width n).toList := by
  intro c hc
  rw [Py.padded, String.toList_ofList] at hc
  exact Py.isSpace_of_isDigit (List.all_eq_true.mp (Py.digits_isDigit width n) c hc)

/-- A printed reading has no white space in it. -/
theorem ClockTime.unspaced (t : ClockTime) : Clear Py.isSpace t.text.toList := by
  simp [text, Date.isoformat, unspaced_padded, Py.isSpace]

theorem UtcOffset.unspaced (zulu : Bool) (o : UtcOffset) :
    Clear Py.isSpace (o.text zulu).toList := by
  unfold text
  split
  · split
    · simp [Py.isSpace]
    · simp [Py.isSpace]
  · split
    · simp [unspaced_padded, Py.isSpace]
    · simp [unspaced_padded, Py.isSpace]

/-- Stripping a printed line gives the text on it. -/
theorem strip_line {s : String} (hs : Clear Py.isSpace s.toList) (hne : s.toList ≠ []) :
    Py.strip (s ++ String.ofList [Char.ofNat 10]) = s := by
  have hbreak : ∀ c ∈ [Char.ofNat 10], Py.isSpace c = true := by simp [Py.isSpace]
  have hstrip : strip Py.isSpace (s ++ String.ofList [Char.ofNat 10]).toList = s.toList :=
    (strip_eq_iff (hs.firm hne)).mpr ⟨[], [Char.ofNat 10], by simp, by simp, hbreak⟩
  apply String.toList_inj.mp
  rw [← hstrip]
  exact String.toList_ofList

/-- `_tag_date` is the time as `git` prints it. -/
theorem tagDate_eq (zulu : Bool) (t : TagTime) :
    tagDate zulu t = t.clock.text ++ t.offset.text zulu := by
  refine strip_line ?_ ?_
  · rw [String.toList_append, clear_append]
    exact ⟨t.clock.unspaced, t.offset.unspaced zulu⟩
  · rw [String.toList_append, ClockTime.toList_text]
    simp

/-- Only a zone printed as `Z` is not before `Z`. -/
theorem zone_lt_iff (zulu : Bool) (o : UtcOffset) :
    (o.text zulu).toList < ['Z'] ↔ ¬ (zulu = true ∧ o.minutes = 0) := by
  have hsign : ∀ c ∈ ['+', '-'], ∀ rest : List Char, c :: rest < ['Z'] := by
    intro c hc rest
    rw [List.cons_lt_cons_iff]
    left
    rcases List.mem_pair.mp hc with rfl | rfl
    · simp
    · simp
  unfold UtcOffset.text
  by_cases hzero : o.minutes = 0
  · cases zulu with
    | true => simp [hzero]
    | false => simpa [hzero] using hsign '+' (by simp) _
  · simp only [hzero, if_false, and_false, not_false_eq_true, iff_true, String.toList_append]
    split
    · exact hsign '+' (by simp) _
    · exact hsign '-' (by simp) _

/-! ## The merges that are kept -/

/-- **A merge is kept** when its reading is past the tag's, or the same with
the tag's offset not printed as `Z`. -/
theorem selectMergedAt_iff (zulu : Bool) (tag : TagTime) (merged : ClockTime) :
    selectMergedAt (tagDate zulu tag) merged.textUtc = true ↔
      tag.clock.seconds < merged.seconds ∨
        tag.clock.seconds = merged.seconds ∧ ¬ (zulu = true ∧ tag.offset.minutes = 0) := by
  rw [selectMergedAt, decide_eq_true_iff, tagDate_eq, ClockTime.textUtc, String.lt_iff,
    String.toList_append, String.toList_append]
  rw [ClockTime.text_append_lt, ← zone_lt_iff]
  rfl

/-- The merge lies where the clocks of the tag and of UTC disagree about it:
behind the reading of the tag by less than its offset, or not behind it
while the tag's clock is behind UTC by as much. -/
def Misjudged (zulu : Bool) (tag : TagTime) (merged : ClockTime) : Prop :=
  let ahead : Int := merged.seconds - tag.clock.seconds
  (-60 * tag.offset.minutes < ahead ∧ ahead < 0) ∨
    (0 ≤ ahead ∧ ahead ≤ -60 * tag.offset.minutes ∧ ¬ (zulu = true ∧ tag.offset.minutes = 0))

/-- **The filter keeps what was merged after the tag**, except in the gap
between the two clocks. -/
theorem filter_keeps_later_iff (zulu : Bool) (tag : TagTime) (merged : ClockTime) :
    (selectMergedAt (tagDate zulu tag) merged.textUtc = true ↔
      tag.instant < merged.seconds) ↔ ¬ Misjudged zulu tag merged := by
  rw [selectMergedAt_iff]
  simp only [Misjudged, TagTime.instant]
  by_cases hzulu : zulu = true ∧ tag.offset.minutes = 0
  · simp only [hzulu, and_self, not_true_eq_false, and_false, or_false]
    constructor
    · intro h
      omega
    · intro h
      omega
  · simp only [hzulu, not_false_eq_true, and_true]
    constructor
    · intro h
      omega
    · intro h
      omega

/-- Midnight on a clock two hours ahead of UTC. -/
def midnightTag : TagTime where
  clock := .ofDateTime (.midnight ⟨2024, 5, 1, by decide⟩)
  offset := ⟨120, by decide⟩

/-- An hour before midnight, UTC: an hour after the tag. -/
def eveningMerge : ClockTime :=
  { ClockTime.ofDateTime (.midnight ⟨2024, 4, 30, by decide⟩) with hour := Fin.last 23 }

/-- The merge an hour after the tag is dropped. -/
theorem later_merge_dropped :
    selectMergedAt (tagDate false midnightTag) eveningMerge.textUtc = false ∧
      midnightTag.instant < eveningMerge.seconds := by
  refine ⟨?_, by decide⟩
  rw [Bool.eq_false_iff, ne_eq, selectMergedAt_iff]
  decide

end RiskFlow
