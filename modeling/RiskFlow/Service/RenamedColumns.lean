import RiskFlow.Lib.Renaming
import RiskFlow.Service.MergedMapping
import RiskFlow.Service.RowReport

/-!
# RenamedColumns — the columns of a file under the names of its mapping

The mapped columns are renamed at once and all others keep their names.
The targets of a mapping are distinct among themselves; what remains to be
compared are the targets with the names that are kept, when the table is
renamed and when the report lists the fields that were not mapped.
-/

namespace RiskFlow

open Lib MappingService

/-! ## Renaming at once -/

/-- The names the columns of a file get. -/
def renamedColumns (df : DataFrame) (mapping : MappingResult) : List String :=
  df.columns.map (DataFrame.renamed
    ((renameMap mapping).filterKeys fun k => decide (k ∈ df.columns)))

section Rename
variable {df table : DataFrame} {mapping : MappingResult}

/-- The rename map renames the columns at once. -/
theorem renamedColumns_eq (df : DataFrame) (mapping : MappingResult) :
    renamedColumns df mapping = renameAll (renameMap mapping).get? df.columns := by
  refine List.map_congr_left fun c hc => ?_
  simp [DataFrame.renamed, renameOne, Dict.get?_filterKeys, hc]

theorem renameTable_columns (h : renameTable df mapping = .ok table) :
    table.columns = renamedColumns df mapping :=
  (renameTable_parts h).1

/-- The rename fails exactly if it makes two columns one. -/
theorem renameTable_ok_iff :
    (∃ table, renameTable df mapping = .ok table) ↔ (renamedColumns df mapping).Nodup := by
  constructor
  · rintro ⟨table, h⟩
    rw [← renameTable_columns h]
    exact table.nodup
  · exact renameTable_ok

theorem renameMap_mem {c t : String} (h : (renameMap mapping).get? c = some t) :
    ∃ m ∈ mapping.mappings, m.sourceHeader = c ∧ m.targetField = t := by
  have hmem := Dict.mem_of_mem_ofList (Dict.get?_eq_some.mp h)
  obtain ⟨m, hm, heq⟩ := List.mem_map.mp hmem
  exact ⟨m, hm, congrArg Prod.fst heq, congrArg Prod.snd heq⟩

/-- Two mappings with one target are one mapping. -/
theorem mapping_of_target {m m' : ColumnMapping} (hm : m ∈ mapping.mappings)
    (hm' : m' ∈ mapping.mappings) (h : m.targetField = m'.targetField) : m = m' :=
  List.inj_on_of_nodup_map mapping.noDuplicateTargetFields hm hm' h

theorem renameMap_injective {x y t : String} (hx : (renameMap mapping).get? x = some t)
    (hy : (renameMap mapping).get? y = some t) : x = y := by
  obtain ⟨m, hm, rfl, ht⟩ := renameMap_mem hx
  obtain ⟨m', hm', rfl, ht'⟩ := renameMap_mem hy
  rw [mapping_of_target hm hm' (ht.trans ht'.symm)]

theorem renameMap_eq_none {c : String} :
    (renameMap mapping).get? c = none ↔
      c ∉ mapping.mappings.map ColumnMapping.sourceHeader := by
  rw [Dict.get?_eq_none, renameMap, Dict.mem_keys_ofList, List.map_map]
  rfl

/-- When no header is mapped twice, each mapping takes effect. -/
theorem renameMap_of_mem
    (hsources : (mapping.mappings.map ColumnMapping.sourceHeader).Nodup) {m : ColumnMapping}
    (hm : m ∈ mapping.mappings) : (renameMap mapping).get? m.sourceHeader = some m.targetField := by
  have hkeys : ((mapping.mappings.map fun m => (m.sourceHeader, m.targetField)).map
      Prod.fst).Nodup := by
    rw [List.map_map]
    exact hsources
  rw [Dict.get?_eq_some, renameMap, Dict.ofList_entries hkeys]
  exact List.mem_map.mpr ⟨m, hm, rfl⟩

end Rename

/-- **When the renamed columns are distinct.** With mapped headers that are
distinct columns of the file, the rename yields distinct columns, and does
not fail, exactly if every target that is itself a column of the file is
one of the mapped headers. -/
theorem rename_distinct_iff (df : DataFrame) (mapping : MappingResult)
    (hsources : (mapping.mappings.map ColumnMapping.sourceHeader).Nodup)
    (hin : ∀ m ∈ mapping.mappings, m.sourceHeader ∈ df.columns) :
    ((renamedColumns df mapping).Nodup ↔
        ∀ m ∈ mapping.mappings, m.targetField ∈ df.columns →
          m.targetField ∈ mapping.mappings.map ColumnMapping.sourceHeader) ∧
      ((∃ table, renameTable df mapping = .ok table) ↔
        ∀ m ∈ mapping.mappings, m.targetField ∈ df.columns →
          m.targetField ∈ mapping.mappings.map ColumnMapping.sourceHeader) := by
  have hdistinct : (renamedColumns df mapping).Nodup ↔
      ∀ m ∈ mapping.mappings, m.targetField ∈ df.columns →
        m.targetField ∈ mapping.mappings.map ColumnMapping.sourceHeader := by
    rw [renamedColumns_eq, nodup_renameAll_iff df.nodup fun _ _ _ => renameMap_injective]
    simp only [ne_eq, renameMap_eq_none, not_not]
    constructor
    · intro hclear m hm htarget
      exact hclear m.sourceHeader (hin m hm) m.targetField htarget (renameMap_of_mem hsources hm)
    · intro hclear c _ t ht hnew
      obtain ⟨m, hm, rfl, rfl⟩ := renameMap_mem hnew
      exact hclear m hm ht
  exact ⟨hdistinct, renameTable_ok_iff.trans hdistinct⟩

/-! ### A target that is a column -/

/-- A file with GWP and a column of the name GWP is renamed to. -/
def premiumTable : DataFrame where
  columns := ["GWP", "Gross_Premium"]
  rows := [[.float .posInf, .str "net of tax"]]
  nodup := by decide
  width := by simp

/-- GWP under a name that no column has. -/
def policyMapping : MappingResult where
  mappings := [{ gwpGuess with targetField := "Policy_ID" }]
  unmappedHeaders := ["Gross_Premium"]
  noDuplicateTargetFields := List.nodup_singleton _

/-- GWP under the name of the other column. -/
def grossMapping : MappingResult where
  mappings := [gwpGuess]
  unmappedHeaders := ["Gross_Premium"]
  noDuplicateTargetFields := List.nodup_singleton _

theorem renamed_to_policy :
    (renamedColumns premiumTable policyMapping).Nodup ∧
      ∃ table, renameTable premiumTable policyMapping = .ok table := by
  obtain ⟨hdistinct, hrenamed⟩ := rename_distinct_iff premiumTable policyMapping (by decide)
    (by decide)
  exact ⟨hdistinct.mpr (by decide), hrenamed.mpr (by decide)⟩

/-- The mapper maps one of two distinct headers to the name of the other, and
the upload fails in the rename. -/
theorem renamed_to_kept_column :
    (obtainMapping .plain premiumService (recallOne gwpGuess) .empty premiumTable.columns
        premiumTable.toDicts none).1 = .ok grossMapping ∧
      (grossMapping.mappings.map ColumnMapping.sourceHeader).Nodup ∧
      (∀ m ∈ grossMapping.mappings, m.sourceHeader ∈ premiumTable.columns) ∧
      ¬ (renamedColumns premiumTable grossMapping).Nodup ∧
      (processFile .plain premiumService (filesOf premiumTable) (recallOne gwpGuess) "march.csv"
        none none .empty).1 =
          .error (.duplicateError "['Gross_Premium', 'Gross_Premium']") :=
  ⟨rfl, by decide, by decide, by decide, rfl⟩

/-! ## The report -/

theorem missingFields_eq (mapping : MappingResult) (threshold : ℚ) (validFields : List String) :
    (ConfidenceReport.fromMappingResult mapping threshold validFields).missingFields =
      Py.sorted (validFields.filter fun f =>
        f ∉ mapping.mappings.map ColumnMapping.targetField) := by
  unfold ConfidenceReport.fromMappingResult
  split
  · rename_i hnone
    have hempty : mapping.mappings = [] := by simpa using hnone
    simp [hempty]
  · rfl

section Report
variable {rt : Runtime} {svc : MappingService} {df table : DataFrame} {mapping : MappingResult}

/-- The report of a result is made from its mapping. -/
theorem validateRows_report {files : Files} {filePath : String} {sheetName : Option String}
    {result : ProcessingResult}
    (h : validateRows rt svc files filePath mapping sheetName = .ok result) :
    result.confidenceReport =
      .fromMappingResult mapping svc.confidenceThreshold svc.schema.fieldNames := by
  obtain ⟨df, _, h⟩ := bind_eq_ok.mp h
  obtain ⟨_, _, _, _, _, _, rfl⟩ := validateTable_ok h
  rfl

/-- A column is a renamed one, or has kept its name. -/
theorem mem_renamed_columns (h : renameTable df mapping = .ok table) {f : String} :
    f ∈ table.columns ↔
      (∃ c ∈ df.columns, (renameMap mapping).get? c = some f) ∨
        (f ∈ df.columns ∧ (renameMap mapping).get? f = none) := by
  rw [renameTable_columns h, renamedColumns_eq, mem_renameAll]

/-- The columns of the file bear the mapping out: each mapping of a field is
the last one of a column, or the field has a column of its name already;
and a column that keeps the name of a field is mapped to. -/
structure ColumnsAgree (schema : TargetSchema) (df : DataFrame) (mapping : MappingResult) :
    Prop where
  mapped : ∀ m ∈ mapping.mappings, m.targetField ∈ schema.fieldNames →
    (m.sourceHeader ∈ df.columns ∧
        (renameMap mapping).get? m.sourceHeader = some m.targetField) ∨
      (m.targetField ∈ df.columns ∧
        m.targetField ∉ mapping.mappings.map ColumnMapping.sourceHeader)
  kept : ∀ c ∈ df.columns, c ∈ schema.fieldNames →
    c ∉ mapping.mappings.map ColumnMapping.sourceHeader →
    c ∈ mapping.mappings.map ColumnMapping.targetField

/-- The targets among the fields are the columns among the fields exactly
when the columns bear the mapping out. -/
theorem columnsAgree_iff {schema : TargetSchema} (h : renameTable df mapping = .ok table) :
    (∀ f ∈ schema.fieldNames,
        f ∈ mapping.mappings.map ColumnMapping.targetField ↔ f ∈ table.columns) ↔
      ColumnsAgree schema df mapping := by
  constructor
  · intro hsame
    refine ⟨fun m hm hfield => ?_, fun c hc hfield hkept => ?_⟩
    · have hcolumn := (hsame m.targetField hfield).mp (List.mem_map_of_mem hm)
      rcases (mem_renamed_columns h).mp hcolumn with ⟨c, hc, hget⟩ | ⟨hin, hget⟩
      · obtain ⟨m', hm', rfl, htarget⟩ := renameMap_mem hget
        rw [← mapping_of_target hm' hm htarget]
        exact .inl ⟨hc, htarget ▸ hget⟩
      · exact .inr ⟨hin, renameMap_eq_none.mp hget⟩
    · exact (hsame c hfield).mpr
        ((mem_renamed_columns h).mpr (.inr ⟨hc, renameMap_eq_none.mpr hkept⟩))
  · intro hagree f hfield
    rw [mem_renamed_columns h]
    constructor
    · intro htarget
      obtain ⟨m, hm, rfl⟩ := List.mem_map.mp htarget
      rcases hagree.mapped m hm hfield with ⟨hin, hget⟩ | ⟨hin, hkept⟩
      · exact .inl ⟨m.sourceHeader, hin, hget⟩
      · exact .inr ⟨hin, renameMap_eq_none.mpr hkept⟩
    · rintro (⟨c, _, hget⟩ | ⟨hin, hget⟩)
      · obtain ⟨m, hm, _, rfl⟩ := renameMap_mem hget
        exact List.mem_map_of_mem hm
      · exact hagree.kept f hin hfield (renameMap_eq_none.mp hget)

end Report

/-- **What the report calls missing**: in strictly increasing order the fields
that no mapping targets. These are the fields without a column in the
renamed table exactly when the columns bear the mapping out. -/
theorem missing_fields_report (rt : Runtime) (svc : MappingService) (files : Files)
    (filePath : String) (mapping : MappingResult) (sheetName : Option String)
    (result : ProcessingResult)
    (h : validateRows rt svc files filePath mapping sheetName = .ok result) :
    ∃ df table, readTable files filePath sheetName = .ok df ∧
      renameTable df mapping = .ok table ∧
      result.confidenceReport.missingFields.Pairwise (· < ·) ∧
      (∀ f, f ∈ result.confidenceReport.missingFields ↔
        f ∈ svc.schema.fieldNames ∧ f ∉ mapping.mappings.map ColumnMapping.targetField) ∧
      ((∀ f ∈ svc.schema.fieldNames,
          f ∈ result.confidenceReport.missingFields ↔ f ∉ table.columns) ↔
        ColumnsAgree svc.schema df mapping) := by
  have hreport := validateRows_report h
  obtain ⟨df, hread, h⟩ := bind_eq_ok.mp h
  obtain ⟨table, hrename, _⟩ := bind_eq_ok.mp h
  have hlisted : ∀ f, f ∈ result.confidenceReport.missingFields ↔
      f ∈ svc.schema.fieldNames ∧ f ∉ mapping.mappings.map ColumnMapping.targetField := by
    intro f
    rw [hreport, missingFields_eq, Py.mem_sorted, List.mem_filter, decide_eq_true_eq]
  refine ⟨df, table, hread, hrename, ?_, hlisted, ?_⟩
  · rw [hreport, missingFields_eq]
    exact Py.sorted_pairwise_lt (svc.schema.fields.nodup.filter _)
  · rw [← columnsAgree_iff hrename]
    refine forall₂_congr fun f hfield => ?_
    rw [hlisted f, and_iff_right hfield, not_iff_not]

/-- A file with the column `gwp`. -/
def lowerTable : DataFrame where
  columns := ["gwp"]
  rows := [[.float .posInf]]
  nodup := List.nodup_singleton _
  width := by simp

/-- GWP is not in a file that calls its column `gwp`; the report of a mapping
of GWP still does not call its field missing. -/
theorem lower_case_not_reported :
    ∃ result, validateRows .plain premiumService (filesOf lowerTable) "april.csv" grossMapping
        none = .ok result ∧
      renameTable lowerTable grossMapping = .ok lowerTable ∧
      ¬ ∀ f ∈ premiumSchema.fieldNames,
        f ∈ result.confidenceReport.missingFields ↔ f ∉ lowerTable.columns := by
  refine ⟨_, rfl, rfl, fun hsame => ?_⟩
  have hlisted := (hsame "Gross_Premium" (by decide)).mpr (by decide)
  exact absurd hlisted (by decide)

/-- The report of a result on the file of both columns. -/
theorem policy_reported :
    ∃ result, validateRows .plain premiumService (filesOf premiumTable) "march.csv" policyMapping
        none = .ok result ∧
      ∃ df table, readTable (filesOf premiumTable) "march.csv" none = .ok df ∧
        renameTable df policyMapping = .ok table ∧
        result.confidenceReport.missingFields.Pairwise (· < ·) ∧
        (∀ f, f ∈ result.confidenceReport.missingFields ↔
          f ∈ premiumSchema.fieldNames ∧
            f ∉ policyMapping.mappings.map ColumnMapping.targetField) ∧
        ((∀ f ∈ premiumSchema.fieldNames,
            f ∈ result.confidenceReport.missingFields ↔ f ∉ table.columns) ↔
          ColumnsAgree premiumSchema df policyMapping) :=
  ⟨_, rfl, missing_fields_report .plain premiumService (filesOf premiumTable) "march.csv"
    policyMapping none _ rfl⟩

end RiskFlow
