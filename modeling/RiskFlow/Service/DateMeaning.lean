import RiskFlow.Service.RowPartition
import RiskFlow.Domain.AcceptedRecords
import RiskFlow.Domain.FormatDetection

/-!
# DateMeaning — year-first dates in a column of another format

A cell written year first names one date. The format found in the first
five cells of its column decides which parser reads it first; two of the
formats hand it to dateutil with the day first, and only what that parser
refuses comes to the ISO and slash readings of the model.
-/

namespace RiskFlow

open Lib

/-! ## Year-first texts -/

namespace Date

/-- `YYYY/MM/DD`. -/
def slashformat (d : Date) : String :=
  Py.padded 4 d.year ++ "/" ++ Py.padded 2 d.month ++ "/" ++ Py.padded 2 d.day

/-- The text writes the date year first. -/
def YearFirst (d : Date) (text : String) : Prop := text = d.isoformat ∨ text = d.slashformat

theorem toList_isoformat (d : Date) :
    d.isoformat.toList = Py.digits 4 d.year ++ '-' :: (Py.digits 2 d.month ++ '-' ::
      (Py.digits 2 d.day ++ [])) := by
  simp [isoformat, Py.padded]

theorem toList_slashformat (d : Date) :
    d.slashformat.toList = Py.digits 4 d.year ++ '/' :: (Py.digits 2 d.month ++ '/' ::
      (Py.digits 2 d.day ++ [])) := by
  simp [slashformat, Py.padded]

theorem YearFirst.not_empty {d : Date} {text : String} (h : d.YearFirst text) :
    text.isEmpty = false := by
  have hne : text.toList ≠ [] := by
    rcases h with rfl | rfl
    · simp [toList_isoformat]
    · simp [toList_slashformat]
  simpa [String.isEmpty_iff] using hne

end Date

/-- What the date libraries promise about year-first texts. The format
`fromisoformat` reads has no slash, and pydantic takes a date as it is. -/
structure DateLaws (rt : Runtime) : Prop where
  iso : ∀ d : Date, rt.fromisoformat d.isoformat = some d
  slash : ∀ s : String, '/' ∈ s.toList → rt.fromisoformat s = none
  date : ∀ d : Date, rt.pydanticDate (.date d) = .ok d

/-! ## The patterns on written dates -/

/-- The digits of a number that fits the width are a run of that width. -/
theorem digitRun_digits {lo hi width : Nat} (hlo : lo ≤ width) (hhi : width ≤ hi) (n : Nat) :
    DigitRun (lo, hi) (Py.digits width n) :=
  ⟨by simpa using hlo, by simpa using hhi, List.all_eq_true.mp (Py.digits_isDigit width n)⟩

/-- The slash pattern reads a date off its slash form. -/
theorem yyyySlash_slashformat (d : Date) :
    (yyyySlashPattern d.slashformat).bind dateOfGroups = some d := by
  obtain ⟨_, hy, _, hm, _, hd⟩ := d.valid
  have hdays := daysInMonth_le d.year d.month
  have hyear : Py.intOfDigits (Py.digits 4 d.year) = d.year :=
    Py.intOfDigits_digits 4 d.year (by omega)
  have hmonth : Py.intOfDigits (Py.digits 2 d.month) = d.month :=
    Py.intOfDigits_digits 2 d.month (by omega)
  have hday : Py.intOfDigits (Py.digits 2 d.day) = d.day :=
    Py.intOfDigits_digits 2 d.day (by omega)
  have hgroups : yyyySlashPattern d.slashformat =
      some (Py.digits 4 d.year, Py.digits 2 d.month, Py.digits 2 d.day) :=
    (threeNumbers_eq_some_iff (by decide)).mpr
      ⟨⟨[], d.toList_slashformat, .inl rfl⟩, digitRun_digits (by omega) (by omega) _,
        digitRun_digits (by omega) (by omega) _, digitRun_digits (by omega) (by omega) _⟩
  rw [hgroups, Option.bind_some, dateOfGroups, hyear, hmonth, hday, Date.mk?_self]

/-- The slash pattern does not match an ISO text. -/
theorem yyyySlash_isoformat (d : Date) : yyyySlashPattern d.isoformat = none := by
  have hiso : isoPattern d.isoformat = true :=
    (threeNumbers_isSome_iff (by decide)).mpr ⟨_, _, _, ⟨[], d.toList_isoformat, .inl rfl⟩,
      digitRun_digits (by omega) (by omega) _, digitRun_digits (by omega) (by omega) _,
      digitRun_digits (by omega) (by omega) _⟩
  have hslash : (yyyySlashPattern d.isoformat).isSome = false :=
    threeNumbers_sep (by decide) (by decide) (by decide) (by decide) hiso
  simpa using hslash

/-! ## One cell -/

/-- The formats that give a text to dateutil before anything else. -/
def DateFormat.GuessesFirst : Option DateFormat → Prop
  | some .namedMonth => True
  | some .dayfirst => True
  | _ => False

theorem DateFormat.guessesFirst_iff {format : Option DateFormat} :
    GuessesFirst format ↔ format = some .namedMonth ∨ format = some .dayfirst := by
  cases format with
  | none => simp [GuessesFirst]
  | some f => cases f <;> simp [GuessesFirst]

/-- What the conversion loop makes of a cell. -/
def convertCell (rt : Runtime) (format : Option DateFormat) : PyVal → PyVal
  | .str s =>
      if Py.isBlank s then .str s
      else match parseDate rt s format with
        | .ok d => .date d
        | .error _ => .str s
  | v => v

/-- A text becomes a date or stays a text. -/
theorem convertCell_str_ne_none {rt : Runtime} {format : Option DateFormat} {s : String} :
    convertCell rt format (.str s) ≠ .none := by
  unfold convertCell
  dsimp only
  split
  · simp
  · cases parseDate rt s format <;> simp

section Cell
variable {rt : Runtime} {d : Date} {s : String} {format : Option DateFormat}

theorem DateLaws.refuses_slashformat (laws : DateLaws rt) (d : Date) :
    rt.fromisoformat d.slashformat = none :=
  laws.slash _ (by simp [Date.toList_slashformat])

/-- The model reads a year-first text as its date. -/
theorem coerceDate_yearFirst (laws : DateLaws rt) (h : d.YearFirst (Py.strip s)) :
    coerceDate rt (.str s) = .ok (.date d) := by
  have hne := h.not_empty
  unfold coerceDate
  dsimp only
  rw [hne]
  rcases h with hiso | hslash
  · simp [hiso, laws.iso]
  · simp [hslash, laws.refuses_slashformat, yyyySlash_slashformat]

/-- The formats that do not guess read the date or leave the text. -/
theorem parseDate_yearFirst (laws : DateLaws rt) (h : d.YearFirst (Py.strip s))
    (hformat : ¬ DateFormat.GuessesFirst format) :
    parseDate rt s format = .ok d ∨ ∃ e, parseDate rt s format = .error e := by
  have hne := h.not_empty
  unfold parseDate
  dsimp only
  rw [hne]
  cases format with
  | none =>
      left
      rcases h with hs | hs
      · simp [hs, laws.iso]
      · simp [hs, laws.refuses_slashformat, yyyySlash_slashformat]
  | some f =>
      cases f with
      | iso =>
          rcases h with hs | hs
          · left
            simp [hs, laws.iso]
          · right
            simp [hs, laws.refuses_slashformat]
      | yyyySlash =>
          rcases h with hs | hs
          · right
            simp [hs, yyyySlash_isoformat]
          · left
            simp [hs, yyyySlash_slashformat]
      | namedMonth => exact absurd trivial hformat
      | dayfirst => exact absurd trivial hformat

/-- The guessing formats take what dateutil says. -/
theorem parseDate_guessed (rt : Runtime) (hne : (Py.strip s).isEmpty = false)
    (hformat : DateFormat.GuessesFirst format) :
    (∃ d', rt.dateutilParse (Py.strip s) = .ok d' ∧ parseDate rt s format = .ok d') ∨
      (∃ failure, rt.dateutilParse (Py.strip s) = .error failure) ∧
        ∃ e, parseDate rt s format = .error e := by
  have hparse : parseDate rt s format =
      dayfirstDate rt (Py.strip s) ("Could not parse date: '" ++ s ++ "'") := by
    unfold parseDate
    dsimp only
    rw [hne]
    rcases DateFormat.guessesFirst_iff.mp hformat with rfl | rfl <;> rfl
  rw [hparse, dayfirstDate]
  cases rt.dateutilParse (Py.strip s) with
  | ok d' => exact .inl ⟨d', rfl, rfl⟩
  | error failure => cases failure <;> exact .inr ⟨⟨_, rfl⟩, _, rfl⟩

/-- The condition for a text to keep its date: its column's format does not
guess, or dateutil refuses the text or agrees. -/
def KeepsMeaning (rt : Runtime) (format : Option DateFormat) (text : String) (d : Date) : Prop :=
  DateFormat.GuessesFirst format →
    (∃ failure, rt.dateutilParse text = .error failure) ∨ rt.dateutilParse text = .ok d

theorem checkType_ofDate (laws : DateLaws rt) (d' : Date) :
    checkType rt .date (.date d') = .ok (.date d') := by
  simp [checkType, coerceDate, laws.date, Except.map, Except.mapError]

/-- **One cell**: after conversion and the model's check it is its date
exactly if it keeps its meaning; it always passes the check. -/
theorem checkType_converted (format : Option DateFormat) (laws : DateLaws rt)
    (h : d.YearFirst (Py.strip s)) :
    ∃ d', checkType rt .date (convertCell rt format (.str s)) = .ok (.date d') ∧
      (d' = d ↔ KeepsMeaning rt format (Py.strip s) d) := by
  have hblank : Py.isBlank s = false := h.not_empty
  have hleft : checkType rt .date (.str s) = .ok (.date d) := by
    simp [checkType, coerceDate_yearFirst laws h, laws.date, Except.map, Except.mapError]
  simp only [convertCell, hblank, Bool.false_eq_true, if_false]
  by_cases hformat : DateFormat.GuessesFirst format
  · rcases parseDate_guessed rt h.not_empty hformat with
      ⟨d', hguess, hparse⟩ | ⟨⟨failure, hguess⟩, e, hparse⟩
    · refine ⟨d', ?_, ?_⟩
      · rw [hparse]
        exact checkType_ofDate laws d'
      · simp [KeepsMeaning, hformat, hguess]
    · refine ⟨d, ?_, ?_⟩
      · rw [hparse]
        exact hleft
      · simp [KeepsMeaning, hguess]
  · have hkeeps : KeepsMeaning rt format (Py.strip s) d := fun hg => absurd hg hformat
    refine ⟨d, ?_, by simp [hkeeps]⟩
    rcases parseDate_yearFirst laws h hformat with hparse | ⟨e, hparse⟩
    · rw [hparse]
      exact checkType_ofDate laws d
    · rw [hparse]
      exact hleft

end Cell

/-! ## One row -/

/-- The format found for a column. -/
def columnFormat (rt : Runtime) (table : DataFrame) (name : String) : Option DateFormat :=
  detectDateFormat ((((table.head 5).column name).filter fun v => !v.isNone).map rt.str)

section Row
variable {rt : Runtime} {row row' : Row}

theorem convertDate_get {format : String × Option DateFormat}
    (h : convertDate rt row format = .ok row') (name : String) :
    row'.get? name =
      if format.1 = name then (row.get? name).map (convertCell rt format.2) else row.get? name := by
  by_cases hname : format.1 = name
  · rw [if_pos hname]
    subst hname
    unfold convertDate at h
    split at h
    · rename_i s hs
      split at h
      · rename_i hblank
        cases h
        simp [hs, convertCell, hblank]
      · rename_i hblank
        split at h
        · rename_i d hparse
          cases h
          simp [hs, convertCell, hblank, hparse]
        · rename_i e hparse
          split at h
          · cases h
            simp [hs, convertCell, hblank, hparse]
          · cases h
    · rename_i hother
      cases h
      cases hcell : row.get? format.1 with
      | none => rfl
      | some v =>
          cases v with
          | str s => exact absurd hcell (hother s)
          | _ => rfl
  · rw [if_neg hname]
    exact convertDate_other h hname

theorem convertDates_get_other {formats : List (String × Option DateFormat)} {name : String}
    (hname : name ∉ formats.map Prod.fst) (h : convertDates rt formats row = .ok row') :
    row'.get? name = row.get? name := by
  induction formats generalizing row with
  | nil =>
      cases h
      rfl
  | cons format rest ih =>
      simp only [List.map_cons, List.mem_cons, not_or] at hname
      obtain ⟨middle, hfirst, hrest⟩ := bind_eq_ok.mp h
      rw [ih hname.2 hrest, convertDate_get hfirst, if_neg (Ne.symm hname.1)]

/-- Each cell is converted with the format of its own column. -/
theorem convertDates_get {formats : List (String × Option DateFormat)} {name : String}
    {format : Option DateFormat} (hnodup : (formats.map Prod.fst).Nodup)
    (hmem : (name, format) ∈ formats) (h : convertDates rt formats row = .ok row') :
    row'.get? name = (row.get? name).map (convertCell rt format) := by
  induction formats generalizing row with
  | nil => cases hmem
  | cons first rest ih =>
      simp only [List.map_cons, List.nodup_cons] at hnodup
      obtain ⟨hfresh, hrestNodup⟩ := hnodup
      obtain ⟨middle, hfirst, hrest⟩ := bind_eq_ok.mp h
      rcases List.mem_cons.mp hmem with heq | hrestMem
      · subst heq
        have hkeep : row'.get? name = middle.get? name := convertDates_get_other hfresh hrest
        rw [hkeep, convertDate_get hfirst, if_pos rfl]
      · have hother : first.1 ≠ name := by
          intro heq
          exact hfresh (heq ▸ List.mem_map.mpr ⟨(name, format), hrestMem, rfl⟩)
        rw [ih hrestNodup hrestMem hrest, convertDate_get hfirst, if_neg hother]

variable {schema : TargetSchema} {table : DataFrame} {name : String} {defn : FieldDefinition}

theorem mem_dateFormats (hfield : schema.fields.get? name = some defn) (hdate : defn.type = .date)
    (hcolumn : name ∈ table.columns) :
    (name, columnFormat rt table name) ∈ dateFormats rt schema table := by
  refine List.mem_map.mpr ⟨name, List.mem_filter.mpr ⟨?_, by simpa using hcolumn⟩, rfl⟩
  refine List.mem_map.mpr ⟨(name, defn), List.mem_filter.mpr ⟨?_, ?_⟩, rfl⟩
  · exact Dict.get?_eq_some.mp hfield
  · simp [hdate]

/-- A date column is converted with the format found for it. -/
theorem convertDates_date (hfield : schema.fields.get? name = some defn)
    (hdate : defn.type = .date) (hcolumn : name ∈ table.columns)
    (h : convertDates rt (dateFormats rt schema table) row = .ok row') :
    row'.get? name = (row.get? name).map (convertCell rt (columnFormat rt table name)) :=
  convertDates_get (dateFormats_nodup rt schema table) (mem_dateFormats hfield hdate hcolumn) h

/-- A row has cells under the columns of its table only. -/
theorem mem_columns {v : PyVal} (hrow : row ∈ table.toDicts) (hcell : row.get? name = some v) :
    name ∈ table.columns :=
  DataFrame.mem_keys_toDicts hrow (Dict.mem_keys.mpr ⟨v, hcell⟩)

end Row

/-! ## The records of a table -/

/-- The record that validation makes of a row of the renamed table. -/
def recordOfRow (rt : Runtime) (svc : MappingService) (table : DataFrame) (row : Row) :
    Except PyErr Row := do
  let row ← convertDates rt (dateFormats rt svc.schema table) row
  modelValidate rt (svc.recordModel rt) row

/-- The text of a field's cell is read as the date: by the conversion and the
model's check of the field, and in the record if the row has one. -/
structure ReadsAs (rt : Runtime) (svc : MappingService) (table : DataFrame) (row : Row)
    (name : String) (d : Date) : Prop where
  checked : isFieldName name = true → ∃ row' v,
    convertDates rt (dateFormats rt svc.schema table) row = .ok row' ∧
      row'.get? name = some v ∧ checkType rt .date v = .ok (.date d)
  recorded : isFieldName name = true → ∀ record,
    recordOfRow rt svc table row = .ok record → record.get? name = some (.date d)

/-- The valid records of a result are the records of the table's rows. -/
theorem validRecords_recordOfRow {rt : Runtime} {svc : MappingService} {mapping : MappingResult}
    {df table : DataFrame} {result : ProcessingResult}
    (hrename : renameTable df mapping = .ok table)
    (h : validateTable rt svc mapping df = .ok result) :
    result.validRecords =
      table.toDicts.filterMap fun row => (recordOfRow rt svc table row).toOption := by
  obtain ⟨table', rows, lists, htable, hrows, hloop, rfl⟩ := validateTable_ok h
  cases hrename.symm.trans htable
  rw [(rowLoop_ok hloop).valid]
  exact filterMap_mapM hrows

/-- **When a year-first date keeps its meaning.** A cell of a DATE column
that writes a date year first is read as that date exactly if the format
found for its column does not give it to dateutil first, or dateutil
refuses it or reads it so. A private name has no date in the record. -/
theorem year_first_kept_iff (rt : Runtime) (laws : DateLaws rt) (svc : MappingService)
    (table : DataFrame) {row : Row} (hrow : row ∈ table.toDicts)
    (hdocumented : ¬ HasConversionFault rt svc.schema table row) {name : String}
    {defn : FieldDefinition} (hfield : svc.schema.fields.get? name = some defn)
    (hdate : defn.type = .date) {s : String} {d : Date} (hcell : row.get? name = some (.str s))
    (hwritten : d.YearFirst (Py.strip s)) :
    ReadsAs rt svc table row name d ↔
      (isFieldName name = true → KeepsMeaning rt (columnFormat rt table name) (Py.strip s) d) := by
  obtain ⟨d', hcheck, hmeaning⟩ :=
    checkType_converted (columnFormat rt table name) laws hwritten
  obtain ⟨row', hconvert⟩ := convertDates_of_no_fault hdocumented
  have hcell' : row'.get? name =
      some (convertCell rt (columnFormat rt table name) (.str s)) := by
    rw [convertDates_date hfield hdate (mem_columns hrow hcell) hconvert, hcell]
    rfl
  rw [← hmeaning]
  constructor
  · intro hreads hname
    obtain ⟨row₁, v, hconvert₁, hget, hv⟩ := hreads.checked hname
    cases hconvert.symm.trans hconvert₁
    have hconverted : v = convertCell rt (columnFormat rt table name) (.str s) :=
      Option.some.inj (hget.symm.trans hcell')
    rw [hconverted, hcheck] at hv
    cases hv
    rfl
  · intro hd
    refine ⟨fun hname => ?_, fun hname record hrecord => ?_⟩
    · obtain rfl := hd hname
      exact ⟨row', _, hconvert, hcell', hcheck⟩
    · obtain rfl := hd hname
      obtain ⟨row₁, hconvert₁, hvalid⟩ := bind_eq_ok.mp hrecord
      cases hconvert.symm.trans hconvert₁
      obtain ⟨w, hw, hchecked, _⟩ :=
        modelValidate_cell hvalid (modelFields_get?.mpr ⟨hname, hfield⟩) hcell'
      rw [checkCell_of_ne_none convertCell_str_ne_none] at hchecked
      dsimp only at hchecked
      rw [hdate, hcheck] at hchecked
      cases hchecked
      exact hw

/-! ## A swapped day and month -/

def feb4 : Date := ⟨2024, 2, 4, by decide⟩
def apr2 : Date := ⟨2024, 4, 2, by decide⟩

/-- A `fromisoformat` that reads `YYYY-MM-DD`, and a dateutil that reads one
such text day first. -/
def dayfirstRuntime : Runtime :=
  { Runtime.plain with
    fromisoformat := fun s =>
      if '/' ∈ s.toList then none
      else (DateTime.readDate s.toList).bind fun r => if r.2 = [] then some r.1 else none
    dateutilParse := fun s => if s = "2024-04-02" then .ok feb4 else .error .documented }

theorem dayfirst_documented (text : String) : ¬ dayfirstRuntime.DateutilRaises text := by
  rintro ⟨cls, msg, hraised⟩
  simp only [dayfirstRuntime] at hraised
  split at hraised <;> cases hraised

theorem dayfirst_laws : DateLaws dayfirstRuntime where
  iso d := by
    have hdigits : ∀ width n, '/' ∉ Py.digits width n := by
      intro width n hmem
      have hslash := List.all_eq_true.mp (Py.digits_isDigit width n) '/' hmem
      exact absurd hslash (by decide)
    have hno : '/' ∉ d.isoformat.toList := by
      simp [Date.toList_isoformat, hdigits]
    simp only [dayfirstRuntime, hno, if_false]
    rw [Date.toList_isoformat, DateTime.readDate_digits]
    rfl
  slash s hs := by simp [dayfirstRuntime, hs]
  date d := rfl

/-- A service for the one DATE field `Start`. -/
def startService : MappingService where
  schema := { name := "dates", fields := .ofList [("Start", .plain .date)] }

/-- Five cells, and the ISO text below them. -/
def startTable (cell : String) : DataFrame where
  columns := ["Start"]
  rows := List.replicate 5 [.str cell] ++ [[.str "2024-04-02"]]
  nodup := List.nodup_singleton _
  width := by simp

/-- The row with the ISO text. -/
def startRow : Row := .ofList [("Start", .str "2024-04-02")]

/-- Below ISO texts the ISO text is 2 April. -/
theorem apr2_kept :
    ReadsAs dayfirstRuntime startService (startTable "2024-01-15") startRow "Start" apr2 := by
  have hrow : startRow ∈ (startTable "2024-01-15").toDicts := by
    simp [DataFrame.toDicts, startTable, startRow]
  have hfield : startService.schema.fields.get? "Start" = some (.plain .date) := rfl
  have hcell : startRow.get? "Start" = some (.str "2024-04-02") := rfl
  refine (year_first_kept_iff dayfirstRuntime dayfirst_laws startService (startTable "2024-01-15")
    hrow (noConversionFault fun _ _ => dayfirst_documented _) hfield rfl hcell
    (.inl rfl)).mpr ?_
  intro _ hguess
  have hformat : columnFormat dayfirstRuntime (startTable "2024-01-15") "Start" = some .iso := by
    decide
  rw [hformat] at hguess
  exact hguess.elim

/-- Below dates of the form DD/MM/YYYY the same text is 4 February. -/
theorem apr2_misread :
    DateLaws dayfirstRuntime ∧ startRow ∈ (startTable "15/01/2024").toDicts ∧
      (∀ text, ¬ dayfirstRuntime.DateutilRaises text) ∧ apr2.YearFirst (Py.strip "2024-04-02") ∧
      ¬ ReadsAs dayfirstRuntime startService (startTable "15/01/2024") startRow "Start" apr2 := by
  refine ⟨dayfirst_laws, by simp [DataFrame.toDicts, startTable, startRow], dayfirst_documented,
    .inl rfl, ?_⟩
  intro hreads
  have hrecord : recordOfRow dayfirstRuntime startService (startTable "15/01/2024") startRow =
      .ok (.ofList [("Start", .date feb4)]) := rfl
  have hdate := hreads.recorded (by decide) _ hrecord
  cases hdate

end RiskFlow
