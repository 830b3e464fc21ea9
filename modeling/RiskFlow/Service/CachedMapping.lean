import RiskFlow.Service.History

/-!
# CachedMapping — what a result may take from the cache

An upload uses the cached mapping of its key as it stands, whoever wrote
it and whatever has been corrected since. The results here say when the
mapping of an upload honours the latest corrections, when it names schema
fields only, and when its headers are headers of the file.
-/

namespace RiskFlow

open Lib MappingService

section Uploads
variable {rt : Runtime} {svc : MappingService} {history : List Event} {u : Upload}
  {result : ProcessingResult}

/-- The mapping of a result was found in the cache, or made and cached. -/
theorem process_mapping {stores : Stores} (h : (u.process rt svc stores).1 = .ok result) :
    ∃ headers preview, u.ingested rt = .ok (headers, preview) ∧
      (svc.cached rt stores headers = some result.mapping ∨
        (svc.cached rt stores headers = none ∧
          mapWithCorrections rt svc u.mapper stores headers preview u.cedentId =
            .ok result.mapping)) := by
  obtain ⟨headers, preview, hin, hob⟩ := processFile_ok h
  refine ⟨headers, preview, hin, ?_⟩
  cases hc : svc.cached rt stores headers with
  | some m =>
      rw [obtainMapping_hit hc] at hob
      exact .inl (congrArg some (Except.ok.inj hob))
  | none =>
      rw [obtainMapping_miss hc] at hob
      exact .inr ⟨rfl, hob⟩

/-! ## Corrections -/

/-- The mapping sends `h` to `target` with confidence 1.0, and no other header there. -/
def MapsOnly (mapping : MappingResult) (h target : String) : Prop :=
  (∃ m ∈ mapping.mappings, m.sourceHeader = h ∧ m.targetField = target ∧ m.confidence = 1) ∧
    ∀ m ∈ mapping.mappings, m.targetField = target → m.sourceHeader = h

/-- The mapping carries out every correction the upload's cedent last stored
for a header of its file. -/
def Honours (rt : Runtime) (svc : MappingService) (history : List Event) (u : Upload)
    (mapping : MappingResult) : Prop :=
  ∀ c headers preview, u.cedentId = some c → u.ingested rt = .ok (headers, preview) →
    ∀ h ∈ headers, ∀ target, latestCorrection svc c h history = some target →
      MapsOnly mapping h target

/-- If the upload finds its mapping in the cache, the corrections its cedent
has for the file were applied when that mapping was made. -/
def FreshOnHit (rt : Runtime) (svc : MappingService) (t : Tracked) (u : Upload) : Prop :=
  ∀ headers preview mapping, u.ingested rt = .ok (headers, preview) →
    svc.cached rt t.stores headers = some mapping →
    ∀ origin, t.origins.get? (buildCacheKey rt svc headers) = some origin →
    ∀ h target, (correctionsFor t.stores headers u.cedentId).get? h = some target →
      origin.corrections.get? h = some target

theorem mapsOnly_of_made {headers : List String} {corrections : Dict String String}
    {answer : List ColumnMapping} {mapping : MappingResult}
    (hmade : MadeFrom svc headers corrections answer mapping) {h target : String}
    (hget : corrections.get? h = some target) : MapsOnly mapping h target := by
  have hmem := hmade.corrected hget
  refine ⟨⟨_, hmem, rfl, rfl, rfl⟩, fun m hm htarget => ?_⟩
  -- targets are distinct, so `m` is the correction itself
  have hsame : m = correctedMapping (h, target) :=
    List.inj_on_of_nodup_map mapping.noDuplicateTargetFields hm hmem htarget
  rw [hsame]
  rfl

/-- **When corrections take effect.** After every history, the result of an
upload honours the corrections of its cedent if a mapping it finds in the
cache was made with them. -/
theorem corrections_take_effect (rt : Runtime) (svc : MappingService) (history : List Event)
    (u : Upload) (result : ProcessingResult)
    (hresult : (u.process rt svc (run rt svc history)).1 = .ok result)
    (hfresh : FreshOnHit rt svc (trackedRun rt svc history) u) :
    Honours rt svc history u result.mapping := by
  intro c headers preview hc hin h hmem target hlatest
  obtain ⟨headers', preview', hin', hmapping⟩ := process_mapping hresult
  rw [hin] at hin'
  cases hin'
  have happlies :
      (correctionsFor (run rt svc history) headers u.cedentId).get? h = some target := by
    rw [hc, correctionsFor_run hmem, hlatest]
  rcases hmapping with hhit | ⟨_, hmake⟩
  · rw [← trackedRun_stores] at hhit happlies
    have hprov : Provenance svc (fun _ _ => True) (trackedRun rt svc history) := by
      apply provenance_run
      apply allSteps_of_forall
      intro t e _
      cases e with
      | upload u => exact fun _ _ _ _ _ _ => trivial
      | _ => trivial
    obtain ⟨origin, answer, horigin, hmade, _⟩ := hprov _ _ hhit
    exact mapsOnly_of_made hmade
      (hfresh headers preview _ hin hhit origin horigin h target happlies)
  · obtain ⟨answer, _, hmade⟩ := mapWithCorrections_ok hmake
    exact mapsOnly_of_made hmade happlies

/-- ACME-RE stores its correction, then sends the same file twice. -/
theorem second_upload_honours :
    ∃ result, (acmeUpload.process .plain premiumService (run .plain premiumService
        [.correction premiumCorrection, .upload acmeUpload])).1 = .ok result ∧
      Honours .plain premiumService [.correction premiumCorrection, .upload acmeUpload] acmeUpload
        result.mapping := by
  refine ⟨_, rfl, corrections_take_effect .plain premiumService
    [.correction premiumCorrection, .upload acmeUpload] acmeUpload _ rfl ?_⟩
  intro headers preview mapping hin _ origin horigin h target happlies
  have hfile : acmeUpload.ingested .plain = .ok (["Policy No", "PRMA"], []) := rfl
  rw [hfile] at hin
  cases hin
  have hwriter : (trackedRun .plain premiumService
      [.correction premiumCorrection, .upload acmeUpload]).origins.get?
        (buildCacheKey .plain premiumService ["Policy No", "PRMA"]) =
      some ⟨["Policy No", "PRMA"], .ofList [("PRMA", "Gross_Premium")]⟩ := rfl
  rw [hwriter] at horigin
  cases horigin
  exact happlies

/-- The file is uploaded once before the correction: its cached mapping
leaves `PRMA` unmapped, and the next upload still uses it. -/
theorem correction_after_upload_ignored :
    ∃ result, (acmeUpload.process .plain premiumService (run .plain premiumService
        [.upload acmeUpload, .correction premiumCorrection])).1 = .ok result ∧
      ¬ Honours .plain premiumService [.upload acmeUpload, .correction premiumCorrection] acmeUpload
        result.mapping := by
  refine ⟨_, rfl, fun hhonours => ?_⟩
  obtain ⟨⟨m, hm, hheader, _⟩, _⟩ :=
    hhonours "ACME-RE" ["Policy No", "PRMA"] [] rfl rfl "PRMA" (by decide) "Gross_Premium" rfl
  have hcached : m ∈ [policyGuess] := hm
  rw [List.mem_singleton.mp hcached] at hheader
  exact absurd hheader (by decide)

/-! ## Schema fields -/

/-- The mapper's accepted answer names schema fields only. -/
def NamesSchemaFields (svc : MappingService) (_ : Origin) (answer : List ColumnMapping) : Prop :=
  ∀ m ∈ answer, m.targetField ∈ svc.schema.fieldNames

/-- This is what `validate_against_schema` would check. -/
theorem validateAgainstSchema_ok {r : MappingResult} {validFields : List String} :
    r.validateAgainstSchema validFields = .ok () ↔
      ∀ m ∈ r.mappings, m.targetField ∈ validFields := by
  rw [MappingResult.validateAgainstSchema, forM_eq_ok]
  constructor
  · intro h m hm
    have hcheck := h m hm
    by_contra hnot
    simp [hnot] at hcheck
  · intro h m hm
    rw [if_pos (h m hm)]
    rfl

theorem targets_of_made {headers : List String} {corrections : Dict String String}
    {answer : List ColumnMapping} {mapping : MappingResult}
    (hmade : MadeFrom svc headers corrections answer mapping) :
    (∀ m ∈ mapping.mappings, m.targetField ∈ svc.schema.fieldNames) ↔
      ∀ m ∈ answer, m.targetField ∈ svc.schema.fieldNames := by
  constructor
  · intro h m hm
    by_cases hcorrected : m.targetField ∈ corrections.values
    · obtain ⟨kv, hkv, htarget⟩ := List.mem_map.mp hcorrected
      exact htarget ▸ hmade.valid kv hkv
    · apply h
      rw [hmade.split]
      exact List.mem_append_right _ (List.mem_filter.mpr ⟨hm, by simpa using hcorrected⟩)
  · intro h m hm
    rcases hmade.mem hm with ⟨kv, hkv, rfl⟩ | ⟨hmem, _⟩
    · exact hmade.valid kv hkv
    · exact h m hmem

/-- **When every target is a schema field.** After a history in which the
mapper's accepted answers named schema fields only, the result of an
upload does so exactly when the answer this upload gets does. -/
theorem targets_in_schema_iff (rt : Runtime) (svc : MappingService) (history : List Event)
    (u : Upload) (result : ProcessingResult)
    (hhistory :
      AllSteps (track rt svc) (AnswersOf rt svc (NamesSchemaFields svc)) ⟨.empty, ∅⟩ history)
    (hresult : (u.process rt svc (run rt svc history)).1 = .ok result) :
    (∀ m ∈ result.mapping.mappings, m.targetField ∈ svc.schema.fieldNames) ↔
      Answers rt svc (NamesSchemaFields svc) (trackedRun rt svc history) u := by
  obtain ⟨headers, preview, hin, hmapping⟩ := process_mapping hresult
  rw [← trackedRun_stores] at hmapping
  rcases hmapping with hhit | ⟨hmiss, hmake⟩
  · -- the entry came from an earlier upload, whose answer was checked there
    obtain ⟨origin, answer, _, hmade, hnames⟩ := provenance_run hhistory _ _ hhit
    constructor
    · intro _ headers' preview' answer' hin' hmiss' _
      rw [hin] at hin'
      cases hin'
      rw [hhit] at hmiss'
      cases hmiss'
    · exact fun _ => (targets_of_made hmade).mpr hnames
  · obtain ⟨answer, hanswer, hmade⟩ := mapWithCorrections_ok hmake
    rw [targets_of_made hmade]
    constructor
    · intro h headers' preview' answer' hin' _ hanswer'
      rw [hin] at hin'
      cases hin'
      rw [hanswer'.unique hanswer]
      exact h
    · exact fun h => h headers preview answer hin hmiss hanswer

theorem recallOne_answers {known : ColumnMapping}
    (hknown : known.targetField ∈ svc.schema.fieldNames)
    {columns : List String} {hc : columns.Nodup} {cedentId : Option String} (t : Tracked) :
    Answers rt svc (NamesSchemaFields svc) t (csvUpload columns hc (recallOne known) cedentId) := by
  intro headers preview answer _ _ hanswer m hm
  obtain ⟨asked, rows, r, _, hr, hmem⟩ := hanswer.returned hm
  have hrecall : recallOne known asked rows = .ok r := hr
  obtain ⟨rfl, _⟩ := recallOne_answer hrecall hmem
  exact hknown

/-- Two uploads of the book name schema fields only. -/
theorem second_upload_in_schema :
    ∃ result, (acmeUpload.process .plain premiumService
        (run .plain premiumService [.upload acmeUpload])).1 = .ok result ∧
      ∀ m ∈ result.mapping.mappings, m.targetField ∈ premiumSchema.fieldNames := by
  refine ⟨_, rfl, (targets_in_schema_iff .plain premiumService [.upload acmeUpload] acmeUpload _
    ⟨?_, trivial⟩ rfl).mpr ?_⟩
  · exact recallOne_answers (by decide) _
  · exact recallOne_answers (by decide) _

/-- A mapper that answers with a field the schema does not have. -/
def strayUpload : Upload :=
  csvUpload ["Excess"] (List.nodup_singleton _)
    (recallOne ⟨"Excess", "Deductible", 1, ColumnMapping.certain⟩) none

/-- Its answer becomes the mapping of the result. -/
theorem stray_target_reported :
    ∃ result, (strayUpload.process .plain premiumService (run .plain premiumService [])).1 =
        .ok result ∧
      ¬ ∀ m ∈ result.mapping.mappings, m.targetField ∈ premiumSchema.fieldNames := by
  refine ⟨_, rfl, fun htargets => ?_⟩
  exact absurd (htargets ⟨"Excess", "Deductible", 1, ColumnMapping.certain⟩
    (List.mem_singleton.mpr rfl)) (by decide)

/-! ## Headers -/

/-- The mapper only returns source headers it was given. -/
def OnlyGiven (mapper : Mapper) : Prop :=
  ∀ headers rows r, mapper headers rows = .ok r → ∀ m ∈ r.mappings, m.sourceHeader ∈ headers

/-- If the upload finds its mapping in the cache, every header of the upload
that wrote it is a header of this file, character for character. -/
def SameHeadersOnHit (rt : Runtime) (svc : MappingService) (t : Tracked) (headers : List String) :
    Prop :=
  ∀ origin, t.origins.get? (buildCacheKey rt svc headers) = some origin →
    ∀ h ∈ origin.headers, h ∈ headers

theorem answer_given {mapper : Mapper} (hmapper : OnlyGiven mapper) {stores : Stores}
    {headers : List String} {preview : List Row} {cedentId : Option String}
    {answer : List ColumnMapping}
    (h : AnswerOf rt svc mapper stores headers preview cedentId answer) :
    ∀ m ∈ answer, m.sourceHeader ∈ headers := by
  intro m hm
  obtain ⟨asked, rows, r, hasked, hr, hmem⟩ := h.returned hm
  exact hasked _ (hmapper asked rows r hr m hmem)

/-- **When a cached mapping fits the file.** After every history of mappers
that return given headers only, the mapping an upload finds in the cache
names headers of its file if the headers it was made for are among them. -/
theorem cached_mapping_fits (rt : Runtime) (svc : MappingService) (history : List Event)
    (headers : List String) (mapping : MappingResult)
    (hmappers : ∀ u, Event.upload u ∈ history → OnlyGiven u.mapper)
    (hhit : svc.cached rt (run rt svc history) headers = some mapping)
    (hsame : SameHeadersOnHit rt svc (trackedRun rt svc history) headers) :
    ∀ m ∈ mapping.mappings, m.sourceHeader ∈ headers := by
  have hprov : Provenance svc (fun origin answer => ∀ m ∈ answer, m.sourceHeader ∈ origin.headers)
      (trackedRun rt svc history) := by
    apply provenance_run
    apply allSteps_of_forall
    intro t e he
    cases e with
    | upload u => exact fun _ _ _ _ _ hanswer => answer_given (hmappers u he) hanswer
    | _ => trivial
  rw [← trackedRun_stores] at hhit
  obtain ⟨origin, answer, horigin, hmade, hgiven⟩ := hprov _ _ hhit
  intro m hm
  apply hsame origin horigin
  rcases hmade.mem hm with ⟨kv, hkv, rfl⟩ | ⟨hmem, _⟩
  · exact hmade.headers kv hkv
  · exact hgiven m hmem

theorem recallOne_onlyGiven (known : ColumnMapping) : OnlyGiven (recallOne known) := by
  intro headers rows r hr m hm
  obtain ⟨rfl, hmem⟩ := recallOne_answer hr hm
  exact hmem

/-- The second upload of the book finds a mapping for its own headers. -/
theorem second_upload_fits :
    ∃ mapping, premiumService.cached .plain (run .plain premiumService [.upload acmeUpload])
        ["Policy No", "PRMA"] = some mapping ∧
      ∀ m ∈ mapping.mappings, m.sourceHeader ∈ ["Policy No", "PRMA"] := by
  refine ⟨_, rfl, cached_mapping_fits .plain premiumService [.upload acmeUpload]
    ["Policy No", "PRMA"] _ ?_ rfl ?_⟩
  · intro u hu
    cases Event.upload.inj (List.mem_singleton.mp hu)
    exact recallOne_onlyGiven policyGuess
  · intro origin horigin
    have hwriter : (trackedRun .plain premiumService [.upload acmeUpload]).origins.get?
        (buildCacheKey .plain premiumService ["Policy No", "PRMA"]) =
        some ⟨["Policy No", "PRMA"], ∅⟩ := rfl
    rw [hwriter] at horigin
    cases horigin
    exact fun h hh => hh

/-- A file whose only column is `GWP`. -/
def upperUpload : Upload :=
  csvUpload ["GWP"] (List.nodup_singleton _)
    (recallOne ⟨"GWP", "Gross_Premium", 1, ColumnMapping.certain⟩) none

/-- A file with the column `gwp ` has the same key and gets a mapping of a
header it does not have. -/
theorem other_case_misfits :
    OnlyGiven upperUpload.mapper ∧
      ∃ mapping, premiumService.cached .plain (run .plain premiumService [.upload upperUpload])
          ["gwp "] = some mapping ∧
        ¬ ∀ m ∈ mapping.mappings, m.sourceHeader ∈ ["gwp "] := by
  refine ⟨recallOne_onlyGiven _, _, rfl, fun hfits => ?_⟩
  exact absurd (hfits ⟨"GWP", "Gross_Premium", 1, ColumnMapping.certain⟩
    (List.mem_singleton.mpr rfl)) (by decide)

end Uploads

end RiskFlow
