import RiskFlow.Service.DateMeaning
import RiskFlow.Service.RowReport

/-!
# FailedParse — a date cell that its column's format does not read

`_validate_rows` leaves such a cell to the record model, whose own date
check tries ISO, then year-first slashes, then dateutil with the day
first. The row is reported only if that check fails as well, or the row
has another fault.
-/

namespace RiskFlow

open Lib

/-! ## The cell -/

/-- What `coerce_date` makes of a text that the format's own parser refuses:
the first of the two other readings that succeeds. -/
def otherReading (rt : Runtime) (format : DateFormat) (text : String) : Option Date :=
  match format with
  | .iso => (yyyySlashPattern text).bind dateOfGroups <|> (rt.dateutilParse text).toOption
  | .yyyySlash => rt.fromisoformat text <|> (rt.dateutilParse text).toOption
  | .namedMonth | .dayfirst =>
      rt.fromisoformat text <|> (yyyySlashPattern text).bind dateOfGroups

section Cell
variable {rt : Runtime} {format : DateFormat} {s : String} {e : PyErr}

/-- The three attempts of `coerce_date` on a text. -/
theorem coerceDate_str (hblank : Py.isBlank s = false) {w : PyVal} :
    coerceDate rt (.str s) = .ok w ↔
      ∃ d, (rt.fromisoformat (Py.strip s) <|>
          (yyyySlashPattern (Py.strip s)).bind dateOfGroups <|>
          (rt.dateutilParse (Py.strip s)).toOption) = some d ∧ w = .date d := by
  have hne : (Py.strip s).isEmpty = false := hblank
  have hread : ∀ d : Date, (Except.ok (.date d) : Except PyErr PyVal) = .ok w ↔
      ∃ d', some d = some d' ∧ w = .date d' := by
    intro d
    constructor
    · rintro ⟨⟩
      exact ⟨d, rfl, rfl⟩
    · rintro ⟨d', ⟨⟩, rfl⟩
      rfl
  unfold coerceDate
  simp only [hne, Bool.false_eq_true, if_false]
  cases rt.fromisoformat (Py.strip s) with
  | some d => exact hread d
  | none =>
      cases (yyyySlashPattern (Py.strip s)).bind dateOfGroups with
      | some d => exact hread d
      | none =>
          unfold dayfirstDate
          cases rt.dateutilParse (Py.strip s) with
          | ok d => exact hread d
          | error failure => cases failure <;> simp [Except.map, Except.toOption]

/-- The parser of a format that failed had nothing to read. -/
theorem parseDate_failed (hblank : Py.isBlank s = false)
    (hfail : parseDate rt s (some format) = .error e) :
    (rt.fromisoformat (Py.strip s) <|> (yyyySlashPattern (Py.strip s)).bind dateOfGroups <|>
      (rt.dateutilParse (Py.strip s)).toOption) = otherReading rt format (Py.strip s) := by
  have hne : (Py.strip s).isEmpty = false := hblank
  unfold parseDate at hfail
  simp only [hne, Bool.false_eq_true, if_false] at hfail
  cases format with
  | iso =>
      cases hiso : rt.fromisoformat (Py.strip s) with
      | some d => simp [hiso] at hfail
      | none => simp [otherReading]
  | yyyySlash =>
      cases hslash : (yyyySlashPattern (Py.strip s)).bind dateOfGroups with
      | some d => simp [hslash] at hfail
      | none => simp [otherReading]
  | namedMonth =>
      cases hguess : rt.dateutilParse (Py.strip s) with
      | ok d => simp [dayfirstDate, hguess] at hfail
      | error failure => simp [otherReading, Except.toOption]
  | dayfirst =>
      cases hguess : rt.dateutilParse (Py.strip s) with
      | ok d => simp [dayfirstDate, hguess] at hfail
      | error failure => simp [otherReading, Except.toOption]

/-- **The model's check** takes a text that its format refused as the date of
another reading, or refuses it too. -/
theorem checkType_failed (hblank : Py.isBlank s = false)
    (hfail : parseDate rt s (some format) = .error e) {w : PyVal} :
    checkType rt .date (.str s) = .ok w ↔
      ∃ d, otherReading rt format (Py.strip s) = some d ∧
        checkType rt .date (.date d) = .ok w := by
  have hcoerce := @coerceDate_str rt s hblank
  rw [parseDate_failed hblank hfail] at hcoerce
  unfold checkType
  cases hread : coerceDate rt (.str s) with
  | error msg =>
      have hnone : ∀ d, otherReading rt format (Py.strip s) ≠ some d := by
        intro d hd
        have hok := hcoerce.mpr ⟨d, hd, rfl⟩
        rw [hread] at hok
        cases hok
      simp [hnone]
  | ok v =>
      obtain ⟨d, hd, rfl⟩ := hcoerce.mp hread
      simp [hd, coerceDate]

end Cell

/-! ## The row -/

section Row
variable {rt : Runtime} {schema : TargetSchema} {name : String} {defn : FieldDefinition}
  {format : DateFormat} {s : String} {e : PyErr} {row : Row}

/-- The row is accepted with the text exactly if it is with another reading
of it in its place. -/
theorem accepts_failed (hfield : (modelFields schema).get? name = some defn)
    (hdate : defn.type = .date)
    (hcell : row.get? name = some (.str s)) (hblank : Py.isBlank s = false)
    (hfail : parseDate rt s (some format) = .error e) :
    Accepts rt (recordClass rt schema) row ↔
      ∃ d, otherReading rt format (Py.strip s) = some d ∧
        Accepts rt (recordClass rt schema) (row.set name (.date d)) := by
  cases hother : otherReading rt format (Py.strip s) with
  | none =>
      refine iff_of_false ?_ (by simp)
      rintro ⟨record, hrecord⟩
      obtain ⟨w, _, hchecked, _⟩ := modelValidate_cell hrecord hfield hcell
      rw [checkCell_of_ne_none (by simp)] at hchecked
      dsimp only at hchecked
      rw [hdate, checkType_failed hblank hfail, hother] at hchecked
      simp at hchecked
  | some d =>
      have hsame : ∀ spec ∈ fieldSpecs schema, ∀ w,
          validateField rt (recordClass rt schema) row spec = .value w ↔
            validateField rt (recordClass rt schema)
              (row.set name (.date d)) spec = .value w := by
        intro spec hspec w
        by_cases hname : name = spec.name
        · -- the two cells check to the same values
          subst hname
          obtain ⟨defn', hget', htype, _⟩ := mem_fieldSpecs.mp hspec
          cases hfield.symm.trans hget'
          rw [validateField_of_cell hcell (by simp),
            validateField_of_cell (Dict.get?_set_self _ _ _) (by simp), htype, hdate,
            checkType_failed hblank hfail, hother]
          simp
        · exact (validateField_set_other hname).symm
      simp only [Option.some.injEq, exists_eq_left', Accepts, modelValidate_ok_congr hsame]

/-- Whatever the model reads the text as, a check refuses the row: every date
that `coerce_date` finds instead fails one. Under a private name the model
reads nothing, and the rest of the row has to fail. -/
def FailsOtherwise (rt : Runtime) (schema : TargetSchema) (format : DateFormat) (name s : String)
    (row : Row) : Prop :=
  if isFieldName name then
    ∀ d, otherReading rt format (Py.strip s) = some d →
      FailsCheck rt schema (row.set name (.date d))
  else FailsCheck rt schema row

/-- **A row with the text** is refused exactly if it fails otherwise. -/
theorem refused_iff_failsOtherwise (hfield : schema.fields.get? name = some defn)
    (hdate : defn.type = .date) (hcell : row.get? name = some (.str s))
    (hblank : Py.isBlank s = false) (hfail : parseDate rt s (some format) = .error e) :
    ¬ Accepts rt (recordClass rt schema) row ↔ FailsOtherwise rt schema format name s row := by
  unfold FailsOtherwise
  split
  · rename_i hname
    rw [accepts_failed (modelFields_get?.mpr ⟨hname, hfield⟩) hdate hcell hblank hfail]
    simp only [accepts_iff_no_failure, not_exists, not_and, not_not]
  · rw [accepts_iff_no_failure, not_not]

end Row

/-! ## The file -/

/-- Each row of the renamed table stands converted at its place. -/
theorem convertedRows_at {rt : Runtime} {svc : MappingService} {mapping : MappingResult}
    {df table : DataFrame} {rows : List Row} (hrename : renameTable df mapping = .ok table)
    (hrows : convertedRows rt svc mapping df = .ok rows) {place : Nat} {row : Row}
    (hrow : table.toDicts[place]? = some row) :
    ∃ converted, rows[place]? = some converted ∧
      convertDates rt (dateFormats rt svc.schema table) row = .ok converted := by
  obtain ⟨table', hrename', hrows⟩ := bind_eq_ok.mp hrows
  cases hrename.symm.trans hrename'
  have hpairs := mapM_eq_ok.mp hrows
  obtain ⟨hlt, rfl⟩ := List.getElem?_eq_some_iff.mp hrow
  have hlt' : place < rows.length := hpairs.length_eq ▸ hlt
  exact ⟨rows[place], List.getElem?_eq_getElem hlt', hpairs.get hlt hlt'⟩

def may13 : Date := ⟨2025, 5, 13, by decide⟩

/-- A dateutil that reads one text with a month 13 day first. -/
def month13Runtime : Runtime :=
  { dayfirstRuntime with
    dateutilParse := fun s => if s = "2025-13-05" then .ok may13 else .error .documented }

/-- An ISO date and a text below it. -/
def monthTable (cell : String) : DataFrame where
  columns := ["Start"]
  rows := [[.str "2025-01-05"], [.str cell]]
  nodup := List.nodup_singleton _
  width := by simp

/-- No column is renamed. -/
def noMapping : MappingResult where
  mappings := []
  unmappedHeaders := []
  noDuplicateTargetFields := List.nodup_nil

theorem month13_documented (text : String) : ¬ month13Runtime.DateutilRaises text := by
  rintro ⟨cls, msg, hraised⟩
  simp only [month13Runtime] at hraised
  split at hraised <;> cases hraised

/-- No row of the table loses its file. -/
theorem monthTable_kept (cell : String) :
    ∀ row ∈ (monthTable cell).toDicts,
      ¬ LosesFile month13Runtime startService.schema (monthTable cell) row := by
  rintro row hrow (hnull | hconversion | hdate | ⟨_, _, _, last, _, hlast, _⟩)
  · refine noBareNull_of_cells ?_ hnull
    have hrows : (monthTable cell).toDicts =
        [.ofList [("Start", .str "2025-01-05")], .ofList [("Start", .str cell)]] := rfl
    rw [hrows] at hrow
    simp only [List.mem_cons, List.not_mem_nil, or_false] at hrow
    rcases hrow with rfl | rfl <;> rw [Dict.ofList_entries (by simp)] <;> simp
  · exact noConversionFault (fun _ _ => month13_documented _) hconversion
  · obtain ⟨_, _, _, _, _, _, _, s, _, ⟨_, _, cls, msg, hraised, _⟩, _⟩ := hdate
    exact month13_documented _ ⟨cls, msg, hraised⟩
  · cases hlast

end RiskFlow
