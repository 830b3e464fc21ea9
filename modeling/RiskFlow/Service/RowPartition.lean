import RiskFlow.Service.RowValidation
import RiskFlow.Domain.RecordErrors

/-!
# RowPartition — every row is accounted for, or the file is lost

The row loop as a partition of the rows: valid records, and invalid rows
with one error each, in file order. The loop reaches its end exactly when
no row escapes the record model. The conversion of dates in front of it
turns texts into dates, and fails where dateutil raises what it does not
document.
-/

namespace RiskFlow

open Lib

/-! ## The loop -/

section Loop
variable (rt : Runtime) (model : RecordModel)

/-- The model refuses the row. -/
def refused (row : Row) : Bool := !(modelValidate rt model row).isOk

/-- The error reported for a numbered row, if the model refuses it. -/
def errorOf (row : Row × Nat) : Option RowError :=
  match modelValidate rt model row.1 with
  | .ok _ => none
  | .error e => some (rowErrorOf rt (row.2 + 1) e)

/-- One round on a row that does not escape. -/
def placeRow (lists : RowLists) (row : Row × Nat) : RowLists :=
  match modelValidate rt model row.1 with
  | .ok record => { lists with validRecords := lists.validRecords ++ [record] }
  | .error e =>
      { lists with
        invalidRecords := lists.invalidRecords ++ [row.1]
        errors := lists.errors ++ [rowErrorOf rt (row.2 + 1) e] }

/-- What the three lists hold after the rows: the dumped records of the
accepted ones, the refused ones themselves, and their errors. -/
structure Partitions (rows : List Row) (lists : RowLists) : Prop where
  valid : lists.validRecords = rows.filterMap fun row => (modelValidate rt model row).toOption
  invalid : lists.invalidRecords = rows.filter (refused rt model)
  errors : lists.errors = rows.zipIdx.filterMap (errorOf rt model)

variable {rt model}

theorem validateRow_of_not_escapes {row : Row × Nat} (h : ¬ Escapes rt model row.1)
    (lists : RowLists) : validateRow rt model lists row = .ok (placeRow rt model lists row) := by
  unfold validateRow placeRow
  cases hm : modelValidate rt model row.1 with
  | ok record => rfl
  | error e =>
      have hkind : e.isValueError = true := by
        by_contra hk
        exact h ⟨e, hm, by simpa using hk⟩
      simp [hkind]

theorem validateRow_of_escapes {row : Row × Nat} (h : Escapes rt model row.1)
    (lists : RowLists) : ∃ e, validateRow rt model lists row = .error e := by
  obtain ⟨e, he, hkind⟩ := h
  exact ⟨e, by simp [validateRow, he, hkind]⟩

/-- The run of the loop, from any row number and any lists. -/
theorem foldl_placeRow (rows : List Row) :
    ∀ (start : Nat) (lists : RowLists),
    (rows.zipIdx start).foldl (placeRow rt model) lists =
      { validRecords := lists.validRecords ++
          rows.filterMap fun row => (modelValidate rt model row).toOption
        invalidRecords := lists.invalidRecords ++ rows.filter (refused rt model)
        errors := lists.errors ++ (rows.zipIdx start).filterMap (errorOf rt model) } := by
  induction rows with
  | nil => intro start lists; simp
  | cons row rest ih =>
      intro start lists
      rw [List.zipIdx_cons, List.foldl_cons, ih]
      cases hm : modelValidate rt model row with
      | ok record =>
          have hplace : placeRow rt model lists (row, start) =
              { lists with validRecords := lists.validRecords ++ [record] } := by
            simp [placeRow, hm]
          simp [hplace, hm, refused, errorOf, Except.toOption, Except.isOk, Except.toBool]
      | error e =>
          have hplace : placeRow rt model lists (row, start) =
              { lists with
                invalidRecords := lists.invalidRecords ++ [row]
                errors := lists.errors ++ [rowErrorOf rt (start + 1) e] } := by
            simp [placeRow, hm]
          simp [hplace, hm, refused, errorOf, Except.toOption, Except.isOk, Except.toBool]

/-- **The loop partitions the rows**, unless one escapes. -/
theorem rowLoop_partitions {rows : List Row} (h : ∀ row ∈ rows, ¬ Escapes rt model row) :
    ∃ lists, rowLoop rt model rows = .ok lists ∧ Partitions rt model rows lists := by
  refine ⟨_, foldlM_eq_foldl (g := placeRow rt model) ?_ {}, ?_⟩
  · intro row hmem lists
    have hrow : row.1 ∈ rows := by
      have hfst := List.mem_map_of_mem (f := Prod.fst) hmem
      rwa [List.zipIdx_map_fst] at hfst
    exact validateRow_of_not_escapes (h row.1 hrow) lists
  · rw [foldl_placeRow]
    exact ⟨by simp, by simp, by simp⟩

/-- One escaping row ends the loop. -/
theorem rowLoop_of_escapes {rows : List Row} {row : Row} (hmem : row ∈ rows)
    (h : Escapes rt model row) : ∃ e, rowLoop rt model rows = .error e := by
  obtain ⟨i, hi⟩ : ∃ i, (row, i) ∈ rows.zipIdx := by
    rw [← List.zipIdx_map_fst 0 rows] at hmem
    obtain ⟨⟨r, i⟩, hr, rfl⟩ := List.mem_map.mp hmem
    exact ⟨i, hr⟩
  exact foldlM_error_of_mem hi (fun lists => validateRow_of_escapes h lists) {}

/-- A loop that reached its end has partitioned the rows. -/
theorem rowLoop_ok {rows : List Row} {lists : RowLists}
    (h : rowLoop rt model rows = .ok lists) : Partitions rt model rows lists := by
  have hsafe : ∀ row ∈ rows, ¬ Escapes rt model row := by
    intro row hmem hescapes
    obtain ⟨e, he⟩ := rowLoop_of_escapes hmem hescapes
    rw [h] at he
    cases he
  obtain ⟨lists', hloop, hparts⟩ := rowLoop_partitions hsafe
  cases h.symm.trans hloop
  exact hparts

end Loop

/-! ## Date conversion -/

/-- Nothing but texts that were read as dates has changed. -/
def ConvertedFrom (rt : Runtime) (row row' : Row) : Prop :=
  ∀ name, row'.get? name = row.get? name ∨ ∃ s hint d, row.get? name = some (.str s) ∧
    parseDate rt s hint = .ok d ∧ row'.get? name = some (.date d)

section Conversion
variable {rt : Runtime} {schema : TargetSchema} {row row' : Row} {e : PyErr}
  {format : String × Option DateFormat} {formats : List (String × Option DateFormat)}

theorem ConvertedFrom.trans {row'' : Row} (h : ConvertedFrom rt row row')
    (h' : ConvertedFrom rt row' row'') : ConvertedFrom rt row row'' := by
  intro name
  rcases h' name with hsame | ⟨s, hint, d, hs, hparse, hd⟩
  · rw [hsame]
    exact h name
  · rcases h name with hsame' | ⟨_, _, d', _, _, hd'⟩
    · exact .inr ⟨s, hint, d, hsame' ▸ hs, hparse, hd⟩
    · -- a date is not converted again
      rw [hd'] at hs
      cases hs

/-- **One cell** is left alone or turned from a text into a date. -/
theorem convertDate_ok (h : convertDate rt row format = .ok row') : ConvertedFrom rt row row' := by
  have hrefl : ConvertedFrom rt row row := fun _ => .inl rfl
  unfold convertDate at h
  split at h
  · rename_i s hs
    split at h
    · cases h
      exact hrefl
    · split at h
      · rename_i d hparse
        cases h
        intro name
        rw [Dict.get?_set]
        split
        · rename_i hname
          exact .inr ⟨s, format.2, d, hname ▸ hs, hparse, rfl⟩
        · exact .inl rfl
      · split at h
        · cases h
          exact hrefl
        · cases h
  · cases h
    exact hrefl

theorem convertDate_other {name : String} (h : convertDate rt row format = .ok row')
    (hname : format.1 ≠ name) : row'.get? name = row.get? name := by
  unfold convertDate at h
  repeat' split at h
  all_goals first
    | cases h; rfl
    | cases h; exact Dict.get?_set_ne _ _ hname
    | cases h

/-- It fails where `parse_date` comes to a dateutil that raises. -/
theorem convertDate_error_iff : convertDate rt row format = .error e ↔
    ∃ s, row.get? format.1 = some (.str s) ∧ DateutilFault rt s format.2 e := by
  constructor
  · intro h
    unfold convertDate at h
    split at h
    · rename_i s hs
      split at h
      · cases h
      · split at h
        · cases h
        · rename_i e' hparse
          split at h
          · cases h
          · rename_i hkind
            cases h
            exact ⟨s, hs, (parseDate_error hparse).resolve_left hkind⟩
    · cases h
  · rintro ⟨s, hs, hfault⟩
    have hparse := parseDate_fault hfault
    obtain ⟨hblank, _, cls, msg, _, rfl⟩ := hfault
    simp [convertDate, hs, hblank, hparse, PyErr.isValueError]

theorem convertDates_ok (h : convertDates rt formats row = .ok row') :
    ConvertedFrom rt row row' :=
  foldlM_keeps (r := ConvertedFrom rt) (fun _ _ => .inl rfl) (fun _ _ _ => .trans)
    (fun _ _ _ _ => convertDate_ok) h

theorem convertDates_error (h : convertDates rt formats row = .error e) :
    e.leavesModel = true := by
  obtain ⟨format, _, middle, hfail⟩ := foldlM_eq_error h
  obtain ⟨s, _, _, _, cls, msg, _, rfl⟩ := convertDate_error_iff.mp hfail
  rfl

/-- **The conversion of a row fails** exactly where one of its cells does. -/
theorem convertDates_error_iff (hnodup : (formats.map Prod.fst).Nodup) :
    (∃ e, convertDates rt formats row = .error e) ↔
      ∃ format ∈ formats, ∃ s e, row.get? format.1 = some (.str s) ∧
        DateutilFault rt s format.2 e := by
  induction formats generalizing row with
  | nil => simp [convertDates, pure, Except.pure]
  | cons first rest ih =>
      simp only [List.map_cons, List.nodup_cons] at hnodup
      have hsplit : convertDates rt (first :: rest) row =
          convertDate rt row first >>= convertDates rt rest := rfl
      rw [hsplit]
      cases hfirst : convertDate rt row first with
      | error e =>
          obtain ⟨s, hs, hfault⟩ := convertDate_error_iff.mp hfirst
          exact iff_of_true ⟨e, rfl⟩ ⟨first, by simp, s, e, hs, hfault⟩
      | ok middle =>
          have hrest := @ih middle hnodup.2
          refine hrest.trans ?_
          constructor
          · rintro ⟨format, hmem, s, e, hs, hfault⟩
            have hne : first.1 ≠ format.1 := fun heq =>
              hnodup.1 (heq ▸ List.mem_map_of_mem hmem)
            exact ⟨format, by simp [hmem], s, e, convertDate_other hfirst hne ▸ hs, hfault⟩
          · rintro ⟨format, hmem, s, e, hs, hfault⟩
            rcases List.mem_cons.mp hmem with rfl | hmem
            · rw [convertDate_error_iff.mpr ⟨s, hs, hfault⟩] at hfirst
              cases hfirst
            · have hne : first.1 ≠ format.1 := fun heq =>
                hnodup.1 (heq ▸ List.mem_map_of_mem hmem)
              exact ⟨format, hmem, s, e, (convertDate_other hfirst hne).trans hs, hfault⟩

/-- A text that was read as a date is none that dateutil raises on. -/
theorem parseDate_no_fault {s : String} {hint : Option DateFormat} {d : Date}
    (h : parseDate rt s hint = .ok d) : ¬ DateutilFault rt s none e := by
  intro hfault
  obtain ⟨hblank, ⟨hiso, hslash⟩, cls, msg, hraised, rfl⟩ := id hfault
  have hne : (Py.strip s).isEmpty = false := hblank
  unfold parseDate at h
  simp only [hne, Bool.false_eq_true, if_false] at h
  cases hint with
  | none => simp [hiso, hslash, dayfirstDate, hraised] at h
  | some format => cases format <;> simp [hiso, hslash, dayfirstDate, hraised] at h

/-- **A null** is there before and after the conversion. -/
theorem ConvertedFrom.bareNull (h : ConvertedFrom rt row row') :
    HasBareNull schema row' ↔ HasBareNull schema row := by
  have hnull : ∀ name, row'.get? name = some .none ↔ row.get? name = some .none := by
    intro name
    rcases h name with hsame | ⟨s, hint, d, hs, _, hd⟩
    · rw [hsame]
    · simp [hs, hd]
  simp only [HasBareNull, hnull]

/-- So is a date text on which dateutil raises. -/
theorem ConvertedFrom.dateFault (h : ConvertedFrom rt row row') :
    HasDateFault rt schema row' ↔ HasDateFault rt schema row := by
  constructor
  · rintro ⟨name, defn, v, e, hget, hdate, hcell, s, rfl, hfault⟩
    refine ⟨name, defn, _, e, hget, hdate, ?_, s, rfl, hfault⟩
    rcases h name with hsame | ⟨_, _, d, _, _, hd⟩
    · exact hsame ▸ hcell
    · rw [hd] at hcell
      cases hcell
  · rintro ⟨name, defn, v, e, hget, hdate, hcell, s, rfl, hfault, hkind⟩
    refine ⟨name, defn, _, e, hget, hdate, ?_, s, rfl, hfault, hkind⟩
    rcases h name with hsame | ⟨s', hint, d, hs', hparse, _⟩
    · exact hsame.trans hcell
    · cases hcell.symm.trans hs'
      exact absurd hfault (parseDate_no_fault hparse)

theorem dateFormats_names (rt : Runtime) (schema : TargetSchema) (table : DataFrame) :
    (dateFormats rt schema table).map Prod.fst =
      (dateFieldNames schema).filter (· ∈ table.columns) := by
  simp [dateFormats, Function.comp_def]

theorem dateFormats_nodup (rt : Runtime) (schema : TargetSchema) (table : DataFrame) :
    ((dateFormats rt schema table).map Prod.fst).Nodup := by
  rw [dateFormats_names]
  exact (schema.fields.nodup.sublist (List.filter_sublist.map Prod.fst)).sublist
    List.filter_sublist

end Conversion

/-! ## What loses a file -/

/-- The format of its column takes a text of the row to a dateutil that raises. -/
def HasConversionFault (rt : Runtime) (schema : TargetSchema) (table : DataFrame) (row : Row) :
    Prop :=
  ∃ format ∈ dateFormats rt schema table, ∃ s e, row.get? format.1 = some (.str s) ∧
    DateutilFault rt s format.2 e

/-- The row takes its file with it: a constraint is run on null, dateutil
raises on a text, or the rule in force compares what has no order. -/
def LosesFile (rt : Runtime) (schema : TargetSchema) (table : DataFrame) (row : Row) : Prop :=
  HasBareNull schema row ∨ HasConversionFault rt schema table row ∨ HasDateFault rt schema row ∨
    ∃ converted, convertDates rt (dateFormats rt schema table) row = .ok converted ∧
      FieldsPass rt (recordClass rt schema) converted ∧ RuleRaises rt schema converted

section Loss
variable {rt : Runtime} {schema : TargetSchema} {table : DataFrame} {row converted : Row}

/-- A row that is converted takes its file with it if it escapes the model then. -/
theorem losesFile_of_converted
    (h : convertDates rt (dateFormats rt schema table) row = .ok converted) :
    LosesFile rt schema table row ↔ Escapes rt (recordClass rt schema) converted := by
  have hfrom := convertDates_ok h
  have hno : ¬ HasConversionFault rt schema table row := by
    intro hfault
    obtain ⟨e, he⟩ := (convertDates_error_iff (dateFormats_nodup rt schema table)).mpr hfault
    rw [h] at he
    cases he
  rw [escapes_iff, hfrom.bareNull, hfrom.dateFault]
  constructor
  · rintro (hnull | hconversion | hdate | ⟨converted', hconvert, hrule⟩)
    · exact .inl hnull
    · exact absurd hconversion hno
    · exact .inr (.inl hdate)
    · cases h.symm.trans hconvert
      exact .inr (.inr hrule)
  · rintro (hnull | hdate | hrule)
    · exact .inl hnull
    · exact .inr (.inr (.inl hdate))
    · exact .inr (.inr (.inr ⟨converted, h, hrule⟩))

/-- A row without a conversion fault is converted. -/
theorem convertDates_of_no_fault (h : ¬ HasConversionFault rt schema table row) :
    ∃ converted, convertDates rt (dateFormats rt schema table) row = .ok converted := by
  cases hconvert : convertDates rt (dateFormats rt schema table) row with
  | ok converted => exact ⟨converted, rfl⟩
  | error e =>
      exact absurd ((convertDates_error_iff (dateFormats_nodup rt schema table)).mp
        ⟨e, hconvert⟩) h

/-- A dateutil that fails on the texts of the row as it documents causes none. -/
theorem noConversionFault
    (h : ∀ s, (∃ name, row.get? name = some (.str s)) → ¬ rt.DateutilRaises (Py.strip s)) :
    ¬ HasConversionFault rt schema table row := by
  rintro ⟨format, _, s, e, hs, _, _, cls, msg, hraised, _⟩
  exact h s ⟨_, hs⟩ ⟨cls, msg, hraised⟩

/-- A row that does not lose its file is converted, and escapes no model. -/
theorem converted_of_not_losesFile (h : ¬ LosesFile rt schema table row) :
    ∃ converted, convertDates rt (dateFormats rt schema table) row = .ok converted ∧
      ¬ Escapes rt (recordClass rt schema) converted := by
  obtain ⟨converted, hconvert⟩ := convertDates_of_no_fault fun hfault => h (.inr (.inl hfault))
  exact ⟨converted, hconvert, fun hesc => h ((losesFile_of_converted hconvert).mpr hesc)⟩

theorem noBareNull_of_cells {schema : TargetSchema} {row : Row}
    (h : ∀ cell ∈ row.entries, cell.2 ≠ .none) : ¬ HasBareNull schema row := by
  rintro ⟨name, defn, _, _, _, hnull⟩
  exact h (name, .none) (Dict.get?_eq_some.mp hnull) rfl

end Loss

/-! ## The table -/

/-- The result reports every row of the renamed table: `rows` are its rows
after date conversion, and the three lists partition them. -/
def AccountsFor (rt : Runtime) (svc : MappingService) (table : DataFrame)
    (result : ProcessingResult) : Prop :=
  ∃ rows, table.toDicts.mapM (convertDates rt (dateFormats rt svc.schema table)) = .ok rows ∧
    Partitions rt (svc.recordModel rt) rows
      ⟨result.validRecords, result.invalidRecords, result.errors⟩

/-- A rename changes the names of columns and nothing else. -/
theorem renameTable_parts {df table : DataFrame} {mapping : MappingResult}
    (h : renameTable df mapping = .ok table) :
    table.columns = df.columns.map (DataFrame.renamed
        ((renameMap mapping).filterKeys fun k => decide (k ∈ df.columns))) ∧
      table.rows = df.rows := by
  unfold renameTable DataFrame.rename at h
  dsimp only at h
  split at h
  · cases h
    exact ⟨rfl, rfl⟩
  · cases h

/-- A rename fails only when it makes two columns one. -/
theorem renameTable_ok {df : DataFrame} {mapping : MappingResult}
    (h : (df.columns.map (DataFrame.renamed
      ((renameMap mapping).filterKeys fun k => decide (k ∈ df.columns)))).Nodup) :
    ∃ table, renameTable df mapping = .ok table := by
  unfold renameTable DataFrame.rename
  rw [dif_pos h]
  exact ⟨_, rfl⟩

/-- What ends the loop left the record model. -/
theorem rowLoop_error {rt : Runtime} {svc : MappingService} {rows : List Row} {e : PyErr}
    (h : rowLoop rt (svc.recordModel rt) rows = .error e) : e.leavesModel = true := by
  obtain ⟨row, _, lists, hround⟩ := foldlM_eq_error h
  unfold validateRow at hround
  split at hround
  · cases hround
  · rename_i e' hrefused
    split at hround
    · cases hround
    · rename_i hkind
      cases hround
      exact (modelValidate_error_kind hrefused).resolve_left hkind

/-- What validating a table raises: equal columns after the rename, or what a
constraint, a comparison or dateutil raised. -/
theorem validateTable_error {rt : Runtime} {svc : MappingService} {mapping : MappingResult}
    {df : DataFrame} {e : PyErr} (h : validateTable rt svc mapping df = .error e) :
    (∃ column, e = .duplicateError column) ∨ e.leavesModel = true := by
  rcases bind_eq_error.mp h with htable | ⟨table, _, h⟩
  · unfold renameTable DataFrame.rename at htable
    dsimp only at htable
    split at htable
    · cases htable
    · cases htable
      exact .inl ⟨_, rfl⟩
  rcases bind_eq_error.mp h with hdates | ⟨rows, _, h⟩
  · obtain ⟨row, _, hrow⟩ := mapM_eq_error hdates
    exact .inr (convertDates_error hrow)
  rcases bind_eq_error.mp h with hloop | ⟨lists, _, h⟩
  · exact .inr (rowLoop_error hloop)
  · cases h

/-- Validation returns exactly when no row loses the file. -/
theorem validateTable_returns_iff {rt : Runtime} {svc : MappingService} {mapping : MappingResult}
    {df table : DataFrame} (hrename : renameTable df mapping = .ok table) :
    (∃ result, validateTable rt svc mapping df = .ok result) ↔
      ∀ row ∈ table.toDicts, ¬ LosesFile rt svc.schema table row := by
  constructor
  · -- one escaping row is enough: the loop stops with its exception
    rintro ⟨result, hresult⟩ row hrow hloses
    obtain ⟨table', rows, lists, htable, hrows, hloop, _⟩ := validateTable_ok hresult
    cases hrename.symm.trans htable
    obtain ⟨converted, hmem, hconvert⟩ := exists_of_forall₂ (mapM_eq_ok.mp hrows) hrow
    have hescapes : Escapes rt (svc.recordModel rt) converted :=
      (losesFile_of_converted hconvert).mp hloses
    obtain ⟨e, he⟩ := rowLoop_of_escapes hmem hescapes
    rw [hloop] at he
    cases he
  · intro hno
    obtain ⟨rows, hrows, hrel⟩ := mapM_total (l := table.toDicts)
      (t := fun _ converted => ¬ Escapes rt (svc.recordModel rt) converted)
      fun row hrow => converted_of_not_losesFile (hno row hrow)
    have hsafe : ∀ row ∈ rows, ¬ Escapes rt (svc.recordModel rt) row := by
      intro row hmem
      obtain ⟨_, _, hescapes⟩ := exists_of_forall₂ hrel.flip hmem
      exact hescapes
    obtain ⟨lists, hloop, _⟩ := rowLoop_partitions hsafe
    simp [validateTable, hrename, hrows, hloop, bind, Except.bind, pure, Except.pure]

/-- An optional amount that must not be negative, next to an identifier. -/
def amountSchema : TargetSchema where
  name := "amounts"
  fields := .ofList [("Policy_ID", .plain .string),
    ("Amount", { type := .float, required := false, nonNegative := true })]

def amountService : MappingService := { schema := amountSchema }

def amountMapping : MappingResult where
  mappings := [⟨"ID", "Policy_ID", 1, ColumnMapping.certain⟩]
  unmappedHeaders := []
  noDuplicateTargetFields := by decide

/-- Two policies and their amounts, under the cedent's headers. -/
def amountTable (first second : PyVal) : DataFrame where
  columns := ["ID", "Amount"]
  rows := [[.str "P1", first], [.str "P2", second]]
  nodup := by decide
  width := by simp

def renamedAmounts (first second : PyVal) : DataFrame where
  columns := ["Policy_ID", "Amount"]
  rows := [[.str "P1", first], [.str "P2", second]]
  nodup := by decide
  width := by simp

end RiskFlow
