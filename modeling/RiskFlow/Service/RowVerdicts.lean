import RiskFlow.Service.RowPartition

/-!
# RowVerdicts — a row is judged alone, but for the first five

The formats of the date columns are read off the first five rows of a table.
Given those, what becomes of a row depends on no other row: the loop is a
map of verdicts, whose lists are the report. So appended rows only append
to a report, and rows left out behind the fifth only leave it. The table is
the one read from the file; the types its cells have there may depend on all
rows of a CSV file.
-/

namespace RiskFlow

open Lib

/-! ## Verdicts -/

/-- What becomes of a row, before it has a number. -/
inductive Verdict where
  | accepted (record : Row)
  | refused (row : Row) (e : PyErr)

namespace Verdict

def record? : Verdict → Option Row
  | .accepted record => some record
  | .refused _ _ => none

def row? : Verdict → Option Row
  | .accepted _ => none
  | .refused row _ => some row

/-- The report of a refusal, under the number of the row. -/
def error? (rt : Runtime) : Verdict × Nat → Option RowError
  | (.accepted _, _) => none
  | (.refused _ e, i) => some (rowErrorOf rt (i + 1) e)

end Verdict

/-- The verdict on a converted row; what is no `ValueError` passes through. -/
def verdictOf (rt : Runtime) (model : RecordModel) (row : Row) : Except PyErr Verdict :=
  match modelValidate rt model row with
  | .ok record => .ok (.accepted record)
  | .error e => if e.isValueError then .ok (.refused row e) else .error e

/-- The verdict on a row of cells, in a table whose first five rows are the sample. -/
def judgeCells (rt : Runtime) (svc : MappingService) (mapping : MappingResult)
    (sample : DataFrame) (cells : List PyVal) : Except PyErr Verdict := do
  let table ← renameTable sample mapping
  let row ← convertDates rt (dateFormats rt svc.schema table) (.ofList (table.columns.zip cells))
  verdictOf rt (svc.recordModel rt) row

/-- The lists of the verdicts on the rows from a number on. -/
def listsOf (rt : Runtime) (verdicts : List Verdict) (start : Nat) : RowLists where
  validRecords := verdicts.filterMap Verdict.record?
  invalidRecords := verdicts.filterMap Verdict.row?
  errors := (verdicts.zipIdx start).filterMap (Verdict.error? rt)

/-- What a table with these verdicts is answered with. -/
def resultOf (rt : Runtime) (svc : MappingService) (mapping : MappingResult)
    (verdicts : List Verdict) : ProcessingResult where
  mapping
  confidenceReport := .fromMappingResult mapping svc.confidenceThreshold svc.schema.fieldNames
  validRecords := (listsOf rt verdicts 0).validRecords
  invalidRecords := (listsOf rt verdicts 0).invalidRecords
  errors := (listsOf rt verdicts 0).errors

/-! ## The loop -/

section Loop
variable {rt : Runtime} {model : RecordModel}

def RowLists.append (lists more : RowLists) : RowLists where
  validRecords := lists.validRecords ++ more.validRecords
  invalidRecords := lists.invalidRecords ++ more.invalidRecords
  errors := lists.errors ++ more.errors

/-- One round appends what the verdict on its row says. -/
theorem validateRow_eq (lists : RowLists) (row : Row) (i : Nat) :
    validateRow rt model lists (row, i) =
      (verdictOf rt model row).map fun v => lists.append (listsOf rt [v] i) := by
  unfold validateRow verdictOf
  cases modelValidate rt model row with
  | ok record =>
      simp [Except.map, listsOf, RowLists.append, Verdict.record?, Verdict.row?, Verdict.error?]
  | error e =>
      by_cases hvalue : e.isValueError = true
      · simp [hvalue, Except.map, listsOf, RowLists.append, Verdict.record?, Verdict.row?,
          Verdict.error?]
      · simp [hvalue, Except.map]

theorem append_listsOf (lists : RowLists) (v : Verdict) (rest : List Verdict) (i : Nat) :
    (lists.append (listsOf rt [v] i)).append (listsOf rt rest (i + 1)) =
      lists.append (listsOf rt (v :: rest) i) := by
  have hcons : v :: rest = [v] ++ rest := rfl
  rw [hcons]
  simp only [RowLists.append, listsOf, List.filterMap_append, List.append_assoc,
    List.zipIdx_append, List.length_singleton]

/-- **The loop maps verdicts**: the rounds change nothing but their lists. -/
theorem foldlM_validateRow (rows : List Row) (start : Nat) (lists : RowLists) :
    (rows.zipIdx start).foldlM (validateRow rt model) lists =
      (rows.mapM (verdictOf rt model)).map fun vs => lists.append (listsOf rt vs start) := by
  induction rows generalizing start lists with
  | nil => simp [RowLists.append, listsOf, pure, Except.pure, Except.map]
  | cons row rest ih =>
      rw [List.zipIdx_cons, List.foldlM_cons, List.mapM_cons, validateRow_eq]
      cases hrow : verdictOf rt model row with
      | error e => rfl
      | ok v =>
          show List.foldlM (validateRow rt model) (lists.append (listsOf rt [v] start))
            (rest.zipIdx (start + 1)) = _
          rw [ih]
          cases hrest : rest.mapM (verdictOf rt model) with
          | error e => rfl
          | ok vs => exact congrArg Except.ok (append_listsOf lists v vs start)

theorem rowLoop_eq (rows : List Row) :
    rowLoop rt model rows = (rows.mapM (verdictOf rt model)).map fun vs => listsOf rt vs 0 := by
  rw [rowLoop, foldlM_validateRow]
  rfl

end Loop

/-! ## The sample -/

section Sample
variable {rt : Runtime} {svc : MappingService} {mapping : MappingResult} {df table : DataFrame}

/-- The formats are those of the sample. -/
theorem dateFormats_head (rt : Runtime) (schema : TargetSchema) (df : DataFrame) :
    dateFormats rt schema (df.head 5) = dateFormats rt schema df := by
  have hhead : (df.head 5).head 5 = df.head 5 := by
    unfold DataFrame.head
    simp only [List.take_take, Nat.min_self]
  unfold dateFormats
  rw [hhead]
  rfl

/-- A rename looks at the columns only. -/
theorem renameTable_head (df : DataFrame) (mapping : MappingResult) (n : Nat) :
    renameTable (df.head n) mapping = (renameTable df mapping).map fun table => table.head n := by
  unfold renameTable DataFrame.rename
  by_cases h : (df.columns.map (DataFrame.renamed
      ((renameMap mapping).filterKeys fun k => decide (k ∈ df.columns)))).Nodup
  · rw [dif_pos h]
    exact dif_pos h
  · rw [dif_neg h]
    exact dif_neg h

theorem judgeCells_eq (htable : renameTable df mapping = .ok table) :
    judgeCells rt svc mapping (df.head 5) = fun cells =>
      convertDates rt (dateFormats rt svc.schema table) (.ofList (table.columns.zip cells)) >>=
        verdictOf rt (svc.recordModel rt) := by
  have hhead : renameTable (df.head 5) mapping = .ok (table.head 5) := by
    rw [renameTable_head, htable]
    rfl
  funext cells
  unfold judgeCells
  rw [hhead]
  show convertDates rt (dateFormats rt svc.schema (table.head 5)) _ >>= _ = _
  rw [dateFormats_head]
  rfl

/-- **Validating a table maps the verdicts on its rows**, when it returns. -/
theorem validateTable_ok_iff {result : ProcessingResult} :
    validateTable rt svc mapping df = .ok result ↔ (do
      let _ ← renameTable (df.head 5) mapping
      let verdicts ← df.rows.mapM (judgeCells rt svc mapping (df.head 5))
      pure (resultOf rt svc mapping verdicts)) = .ok result := by
  cases htable : renameTable df mapping with
  | error e =>
      have hfail : validateTable rt svc mapping df = .error e := by
        unfold validateTable
        rw [htable]
        rfl
      rw [renameTable_head, htable, hfail]
      exact iff_of_false (by rintro ⟨⟩) (by rintro ⟨⟩)
  | ok table =>
      rw [renameTable_head, judgeCells_eq htable, htable]
      -- the two passes over the rows, then the lists of the second
      have hpasses : validateTable rt svc mapping df = .ok result ↔ ∃ verdicts,
          (table.toDicts.mapM (convertDates rt (dateFormats rt svc.schema table)) >>=
            fun rows => rows.mapM (verdictOf rt (svc.recordModel rt))) = .ok verdicts ∧
          resultOf rt svc mapping verdicts = result := by
        simp only [validateTable, htable, rowLoop_eq, bind_eq_ok, map_eq_ok, Except.ok.injEq,
          exists_eq_left', pure, Except.pure]
        constructor
        · rintro ⟨rows, hrows, _, ⟨verdicts, hverdicts, rfl⟩, rfl⟩
          exact ⟨verdicts, ⟨rows, hrows, hverdicts⟩, rfl⟩
        · rintro ⟨verdicts, ⟨rows, hrows, hverdicts⟩, rfl⟩
          exact ⟨rows, hrows, _, ⟨verdicts, hverdicts, rfl⟩, rfl⟩
      have hcells : table.toDicts.mapM (fun row =>
          convertDates rt (dateFormats rt svc.schema table) row >>=
            verdictOf rt (svc.recordModel rt)) = df.rows.mapM fun cells =>
              convertDates rt (dateFormats rt svc.schema table)
                (.ofList (table.columns.zip cells)) >>= verdictOf rt (svc.recordModel rt) := by
        rw [DataFrame.toDicts, List.mapM_map, (renameTable_parts htable).2]
        rfl
      simp only [hpasses, mapM_bind_eq_ok, hcells]
      constructor
      · rintro ⟨verdicts, hverdicts, rfl⟩
        exact bind_eq_ok.mpr ⟨_, rfl, bind_eq_ok.mpr ⟨verdicts, hverdicts, rfl⟩⟩
      · intro h
        obtain ⟨_, _, h⟩ := bind_eq_ok.mp h
        obtain ⟨verdicts, hverdicts, h⟩ := bind_eq_ok.mp h
        cases h
        exact ⟨verdicts, hverdicts, rfl⟩

end Sample

/-! ## Rows left out and rows appended -/

/-- What an error says, but for the number of its row. -/
def RowError.unnumbered (error : RowError) : String × List FieldError :=
  (error.error, error.fieldErrors)

/-- The lists of the part are left of those of the whole, when the rest is taken out. -/
structure LeavesOut (part whole : ProcessingResult) : Prop where
  valid : part.validRecords.Sublist whole.validRecords
  invalid : part.invalidRecords.Sublist whole.invalidRecords
  errors : (part.errors.map RowError.unnumbered).Sublist (whole.errors.map RowError.unnumbered)

/-- The whole begins as the part does. -/
structure Begins (part whole : ProcessingResult) : Prop where
  valid : part.validRecords <+: whole.validRecords
  invalid : part.invalidRecords <+: whole.invalidRecords
  errors : part.errors <+: whole.errors

section Parts
variable {rt : Runtime} {svc : MappingService} {mapping : MappingResult}

/-- The report of a refusal, without a number. -/
def Verdict.report? (rt : Runtime) : Verdict → Option (String × List FieldError)
  | .accepted _ => none
  | .refused _ e => some (rowErrorOf rt 0 e).unnumbered

theorem unnumbered_listsOf (verdicts : List Verdict) (start : Nat) :
    (listsOf rt verdicts start).errors.map RowError.unnumbered =
      verdicts.filterMap (Verdict.report? rt) := by
  show ((verdicts.zipIdx start).filterMap (Verdict.error? rt)).map RowError.unnumbered = _
  induction verdicts generalizing start with
  | nil => rfl
  | cons v rest ih =>
      rw [List.zipIdx_cons, List.filterMap_cons, List.filterMap_cons, ← ih (start + 1)]
      cases v with
      | accepted record => rfl
      | refused row e => rfl

theorem leavesOut_resultOf {part whole : List Verdict} (h : part.Sublist whole) :
    LeavesOut (resultOf rt svc mapping part) (resultOf rt svc mapping whole) where
  valid := h.filterMap _
  invalid := h.filterMap _
  errors := by
    show ((listsOf rt part 0).errors.map RowError.unnumbered).Sublist
      ((listsOf rt whole 0).errors.map RowError.unnumbered)
    rw [unnumbered_listsOf, unnumbered_listsOf]
    exact h.filterMap _

theorem begins_resultOf {part whole : List Verdict} (h : part <+: whole) :
    Begins (resultOf rt svc mapping part) (resultOf rt svc mapping whole) := by
  obtain ⟨more, rfl⟩ := h
  refine ⟨(List.prefix_append _ _).filterMap _, (List.prefix_append _ _).filterMap _, ?_⟩
  show (part.zipIdx.filterMap (Verdict.error? rt)) <+: _
  show _ <+: ((part ++ more).zipIdx.filterMap (Verdict.error? rt))
  rw [List.zipIdx_append, List.filterMap_append]
  exact List.prefix_append _ _

/-- What is left of a table whose first five rows stay is answered with what is
left of the verdicts. -/
theorem validateTable_part {df less : DataFrame} (hsample : less.head 5 = df.head 5)
    {whole : ProcessingResult} (h : validateTable rt svc mapping df = .ok whole)
    {r : List Verdict → List Verdict → Prop}
    (hless : ∀ vs, df.rows.mapM (judgeCells rt svc mapping (df.head 5)) = .ok vs →
      ∃ vs', less.rows.mapM (judgeCells rt svc mapping (df.head 5)) = .ok vs' ∧ r vs' vs) :
    ∃ vs vs', whole = resultOf rt svc mapping vs ∧ r vs' vs ∧
      validateTable rt svc mapping less = .ok (resultOf rt svc mapping vs') := by
  rw [validateTable_ok_iff] at h
  obtain ⟨table, htable, h⟩ := bind_eq_ok.mp h
  obtain ⟨vs, hvs, h⟩ := bind_eq_ok.mp h
  cases h
  obtain ⟨vs', hvs', hr⟩ := hless vs hvs
  refine ⟨vs, vs', rfl, hr, ?_⟩
  rw [validateTable_ok_iff, hsample]
  exact bind_eq_ok.mpr ⟨table, htable, bind_eq_ok.mpr ⟨vs', hvs', rfl⟩⟩

end Parts

/-- **Every row is judged alone.** Given the first five rows of a table, what
becomes of a row of cells is a function of the row itself. So a table that
keeps these five and leaves out other rows is answered with what is left of
the answer, and one that ends earlier with the beginning of it, row numbers
included. -/
theorem rows_judged_alone (rt : Runtime) (svc : MappingService) (mapping : MappingResult)
    (df : DataFrame) :
    (∀ result, validateTable rt svc mapping df = .ok result ↔ (do
      let _ ← renameTable (df.head 5) mapping
      let verdicts ← df.rows.mapM (judgeCells rt svc mapping (df.head 5))
      pure (resultOf rt svc mapping verdicts)) = .ok result) ∧
    ∀ less : DataFrame, less.head 5 = df.head 5 →
      ∀ whole, validateTable rt svc mapping df = .ok whole →
        (less.rows.Sublist df.rows →
          ∃ part, validateTable rt svc mapping less = .ok part ∧ LeavesOut part whole) ∧
        (less.rows <+: df.rows →
          ∃ part, validateTable rt svc mapping less = .ok part ∧ Begins part whole) := by
  refine ⟨fun _ => validateTable_ok_iff, fun less hsample whole hwhole => ⟨?_, ?_⟩⟩
  · intro hsub
    obtain ⟨vs, vs', rfl, hvs, hpart⟩ :=
      validateTable_part hsample hwhole fun _ => mapM_sublist hsub
    exact ⟨_, hpart, leavesOut_resultOf hvs⟩
  · intro hfront
    obtain ⟨vs, vs', rfl, hvs, hpart⟩ :=
      validateTable_part hsample hwhole fun _ => mapM_prefix hfront
    exact ⟨_, hpart, begins_resultOf hvs⟩

/-- Policies and amounts under the cedent's headers, row after row. -/
def amountRows (amounts : List PyVal) : DataFrame where
  columns := ["ID", "Amount"]
  rows := amounts.map fun amount => [.str "P", amount]
  nodup := (amountTable .none .none).nodup
  width row h := by
    obtain ⟨amount, _, rfl⟩ := List.mem_map.mp h
    rfl

/-- Five amounts, a negative one that is left out, and one more. -/
theorem negative_amount_left_out :
    ∃ part whole, validateTable .plain amountService amountMapping
        (amountRows [.int 1, .int 2, .str "x", .int 4, .int 5, .int 7]) = .ok part ∧
      validateTable .plain amountService amountMapping
        (amountRows [.int 1, .int 2, .str "x", .int 4, .int 5, .int (-6), .int 7]) = .ok whole ∧
      LeavesOut part whole := by
  obtain ⟨part, hpart, hleft⟩ := ((rows_judged_alone .plain amountService amountMapping
    (amountRows [.int 1, .int 2, .str "x", .int 4, .int 5, .int (-6), .int 7])).2
    (amountRows [.int 1, .int 2, .str "x", .int 4, .int 5, .int 7]) rfl _ rfl).1
    (by simp [amountRows])
  exact ⟨part, _, hpart, rfl, hleft⟩

end RiskFlow
