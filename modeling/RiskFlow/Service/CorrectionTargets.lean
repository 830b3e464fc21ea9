import RiskFlow.Service.History

/-!
# CorrectionTargets — when the corrections of a file can be merged

Corrections are taken one at a time, and each may send another header to
the same target. The mapping of a file takes the corrections of all its
headers, and its validator refuses a repeated target; of the mapper's
answer the targets taken are dropped, of the corrections none is.
-/

namespace RiskFlow

open Lib MappingService

section Merge
variable {rt : Runtime} {svc : MappingService} {mapper : Mapper} {stores : Stores}
  {headers : List String} {preview : List Row} {cedentId : Option String}

/-- The mapper answers what it is asked for this file, if it is asked, with
every confidence at the threshold or above. -/
def AnswersConfidently (svc : MappingService) (mapper : Mapper) (headers : List String)
    (preview : List Row) (corrections : Dict String String) : Prop :=
  let uncorrected := uncorrectedHeaders headers corrections
  uncorrected ≠ [] → ∃ answer,
    mapper uncorrected (uncorrectedPreview uncorrected preview) = .ok answer ∧
    ∀ m ∈ answer.mappings, svc.confidenceThreshold ≤ m.confidence

theorem targets_corrected (corrections : Dict String String) :
    (corrections.entries.map correctedMapping).map ColumnMapping.targetField =
      corrections.values := by
  simp [Dict.values, correctedMapping, Function.comp_def]

/-- What is left of an answer repeats no target and none of the corrections'. -/
theorem nodup_merged_iff (corrections : Dict String String) (answer : MappingResult) :
    ((corrections.entries.map correctedMapping ++
        answer.mappings.filter fun m => m.targetField ∉ corrections.values).map
          ColumnMapping.targetField).Nodup ↔ corrections.values.Nodup := by
  rw [List.map_append, targets_corrected]
  constructor
  · exact fun h => h.of_append_left
  · intro h
    refine h.append (answer.noDuplicateTargetFields.sublist (List.filter_sublist.map _)) ?_
    intro target hcorrected hanswered
    obtain ⟨m, hm, rfl⟩ := List.mem_map.mp hanswered
    have hfree := (List.mem_filter.mp hm).2
    simp only [decide_eq_true_eq] at hfree
    exact hfree hcorrected

/-- A file whose headers are all corrected is mapped without the mapper. -/
theorem mapWithCorrections_corrected
    (hfields : ∀ kv ∈ (correctionsFor stores headers cedentId).entries,
      kv.2 ∈ svc.schema.fieldNames)
    (hnone : uncorrectedHeaders headers (correctionsFor stores headers cedentId) = []) :
    mapWithCorrections rt svc mapper stores headers preview cedentId =
      MappingResult.build ((correctionsFor stores headers cedentId).entries.map correctedMapping)
        [] := by
  have hvalid := validateCorrections_ok.mpr hfields
  unfold mapWithCorrections
  simp only [hvalid, hnone, List.isEmpty_nil, if_true]
  rfl

/-- For any other file the mapper is asked, and its answer merged. -/
theorem mapWithCorrections_asked
    (hfields : ∀ kv ∈ (correctionsFor stores headers cedentId).entries,
      kv.2 ∈ svc.schema.fieldNames)
    (hsome : uncorrectedHeaders headers (correctionsFor stores headers cedentId) ≠ []) :
    mapWithCorrections rt svc mapper stores headers preview cedentId =
      mapUncorrected rt svc mapper (uncorrectedHeaders headers
        (correctionsFor stores headers cedentId)) preview >>= fun answer =>
          MappingResult.build ((correctionsFor stores headers cedentId).entries.map
            correctedMapping ++ answer.mappings.filter fun m => m.targetField ∉
              (correctionsFor stores headers cedentId).values) answer.unmappedHeaders := by
  have hvalid := validateCorrections_ok.mpr hfields
  have hasked : (uncorrectedHeaders headers
      (correctionsFor stores headers cedentId)).isEmpty = false := by simpa using hsome
  unfold mapWithCorrections
  simp only [hvalid, hasked, Bool.false_eq_true, if_false]
  rfl

/-- **Merging** corrections of the schema with a confident answer succeeds
exactly when no target is corrected twice. -/
theorem mapWithCorrections_isOk_iff
    (hfields : ∀ kv ∈ (correctionsFor stores headers cedentId).entries,
      kv.2 ∈ svc.schema.fieldNames)
    (hmapper : AnswersConfidently svc mapper headers preview
      (correctionsFor stores headers cedentId)) :
    (∃ mapping, mapWithCorrections rt svc mapper stores headers preview cedentId = .ok mapping) ↔
      (correctionsFor stores headers cedentId).values.Nodup := by
  by_cases hempty : uncorrectedHeaders headers (correctionsFor stores headers cedentId) = []
  · rw [mapWithCorrections_corrected hfields hempty, ← targets_corrected]
    exact MappingResult.build_isOk_iff
  · obtain ⟨answer, hanswer, hconfident⟩ := hmapper hempty
    have hslm : mapUncorrected rt svc mapper (uncorrectedHeaders headers
        (correctionsFor stores headers cedentId)) preview = .ok answer :=
      mapUncorrected_ok.mpr ⟨hanswer, hconfident⟩
    rw [mapWithCorrections_asked hfields hempty, hslm, ← nodup_merged_iff _ answer]
    exact MappingResult.build_isOk_iff

end Merge

/-- **When accepted corrections do not collide.** After every history, a
file that the mapper answers with confidence gets a mapping exactly if the
cedent's latest corrections send no two of its headers to one target. -/
theorem corrections_merge_iff (rt : Runtime) (svc : MappingService) (history : List Event)
    (c : String) (headers : List String) (preview : List Row) (mapper : Mapper)
    (hmapper : AnswersConfidently svc mapper headers preview
      (correctionsFor (run rt svc history) headers (some c))) :
    (∃ mapping, mapWithCorrections rt svc mapper (run rt svc history) headers preview (some c) =
        .ok mapping) ↔
      ∀ h ∈ headers, ∀ h' ∈ headers, ∀ target,
        latestCorrection svc c h history = some target →
        latestCorrection svc c h' history = some target → h = h' := by
  have hfields : ∀ kv ∈ (correctionsFor (run rt svc history) headers (some c)).entries,
      kv.2 ∈ svc.schema.fieldNames := by
    intro kv hkv
    have hget := Dict.get?_eq_some.mpr hkv
    rw [correctionsFor_run (correctionsFor_get? hget)] at hget
    exact latestCorrection_mem hget
  rw [mapWithCorrections_isOk_iff hfields hmapper, Dict.nodup_values]
  constructor
  · intro hinj h hh h' hh' target hlatest hlatest'
    refine hinj h h' target ?_ ?_
    · rw [correctionsFor_run hh, hlatest]
    · rw [correctionsFor_run hh', hlatest']
  · intro hinj h h' target hget hget'
    have hh := correctionsFor_get? hget
    have hh' := correctionsFor_get? hget'
    rw [correctionsFor_run hh] at hget
    rw [correctionsFor_run hh'] at hget'
    exact hinj h hh h' hh' target hget hget'

/-- ACME-RE calls the gross premium GWP as well. -/
def grossCorrection : Correction :=
  { premiumCorrection with sourceHeader := "GWP", sourceHeaderNotEmpty := by decide }

theorem recallOne_confident {headers : List String} {preview : List Row}
    {corrections : Dict String String} :
    AnswersConfidently premiumService (recallOne policyGuess) headers preview corrections := by
  intro _
  unfold recallOne
  split
  · refine ⟨_, rfl, ?_⟩
    intro m hm
    rw [List.mem_singleton.mp hm]
    exact le_refl (1 : ℚ)
  · refine ⟨_, rfl, ?_⟩
    intro m hm
    cases hm

/-- A file with one of the two names is mapped. -/
theorem one_name_merged :
    ∃ mapping, mapWithCorrections .plain premiumService (recallOne policyGuess)
      (run .plain premiumService [.correction premiumCorrection, .correction grossCorrection])
      ["Policy No", "GWP"] [] (some "ACME-RE") = .ok mapping := by
  refine (corrections_merge_iff .plain premiumService
    [.correction premiumCorrection, .correction grossCorrection] "ACME-RE" ["Policy No", "GWP"] []
    (recallOne policyGuess) recallOne_confident).mpr ?_
  intro h hh h' hh' target hlatest hlatest'
  simp only [List.mem_cons, List.not_mem_nil, or_false] at hh hh'
  rcases hh with rfl | rfl
  · cases hlatest
  · rcases hh' with rfl | rfl
    · cases hlatest'
    · rfl

/-- A file with both names is refused, although both corrections were taken. -/
theorem both_names_refused :
    AnswersConfidently premiumService (recallOne policyGuess) ["Policy No", "PRMA", "GWP"] []
        (correctionsFor (run .plain premiumService
          [.correction premiumCorrection, .correction grossCorrection])
          ["Policy No", "PRMA", "GWP"] (some "ACME-RE")) ∧
      ¬ ∃ mapping, mapWithCorrections .plain premiumService (recallOne policyGuess)
        (run .plain premiumService [.correction premiumCorrection, .correction grossCorrection])
        ["Policy No", "PRMA", "GWP"] [] (some "ACME-RE") = .ok mapping := by
  refine ⟨recallOne_confident, fun hmapped => ?_⟩
  obtain ⟨mapping, hmapping⟩ := hmapped
  have hrefused : mapWithCorrections .plain premiumService (recallOne policyGuess)
      (run .plain premiumService [.correction premiumCorrection, .correction grossCorrection])
      ["Policy No", "PRMA", "GWP"] [] (some "ACME-RE") = .error (.validationError [
        { loc := []
          msg := "Value error, MappingResult contains duplicate target fields: ['Gross_Premium']"
          input := .none }]) := rfl
  rw [hrefused] at hmapping
  cases hmapping

end RiskFlow
