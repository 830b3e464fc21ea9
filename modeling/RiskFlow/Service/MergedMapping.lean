import RiskFlow.Service.CorrectionTargets

/-!
# MergedMapping — corrections next to what the mapper answered

Which headers of a file a merged mapping speaks of, and which of the
mapper's suggestions can end an upload. A suggestion whose target a
correction has taken is dropped when the two are merged: after its
confidence was checked, and without its header going anywhere else.
-/

namespace RiskFlow

open Lib MappingService

/-- The headers a mapping speaks of. -/
def MappingResult.headers (r : MappingResult) : List String :=
  r.mappings.map ColumnMapping.sourceHeader ++ r.unmappedHeaders

/-- Each of the headers occurs exactly once in the mapping, and nothing else. -/
def HeadersOnce (headers : List String) (r : MappingResult) : Prop :=
  ∀ h, r.headers.count h = if h ∈ headers then 1 else 0

/-- The mapper is asked about the headers without a correction, and this is
its answer. -/
def Answered (mapper : Mapper) (headers : List String) (preview : List Row)
    (corrections : Dict String String) (answer : MappingResult) : Prop :=
  let asked := uncorrectedHeaders headers corrections
  asked ≠ [] ∧ mapper asked (uncorrectedPreview asked preview) = .ok answer

/-! ## Counting -/

/-- What a filter keeps and what it drops add up. -/
theorem count_map_filter {α : Type} (f : α → String) (p : α → Bool) (l : List α) (b : String) :
    ((l.filter p).map f).count b + ((l.filter fun x => !p x).map f).count b =
      (l.map f).count b := by
  rw [← List.count_append, ← List.map_append]
  exact ((List.filter_append_perm p l).map f).count_eq b

/-- A dropped element whose image occurs once is gone. -/
theorem count_filter_dropped {α : Type} {f : α → String} {p : α → Bool} {l : List α} {x : α}
    (hx : x ∈ l) (hdropped : p x = false) (honce : (l.map f).count (f x) ≤ 1) :
    ((l.filter p).map f).count (f x) = 0 := by
  have hsplit := count_map_filter f p l (f x)
  have hmem : f x ∈ (l.filter fun x => !p x).map f :=
    List.mem_map.mpr ⟨x, List.mem_filter.mpr ⟨hx, by simp [hdropped]⟩, rfl⟩
  have hpos := List.count_pos_iff.mpr hmem
  omega

section Merge
variable {rt : Runtime} {svc : MappingService} {mapper : Mapper} {stores : Stores}
  {headers : List String} {preview : List Row} {cedentId : Option String}

/-! ## Headers -/

/-- **What a merged mapping is made of**, its unmapped headers included. -/
theorem mapWithCorrections_parts {mapping : MappingResult}
    (h : mapWithCorrections rt svc mapper stores headers preview cedentId = .ok mapping) :
    let corrections := correctionsFor stores headers cedentId
    (uncorrectedHeaders headers corrections = [] ∧
        mapping.mappings = corrections.entries.map correctedMapping ∧
        mapping.unmappedHeaders = []) ∨
      ∃ answer, Answered mapper headers preview corrections answer ∧
        mapping.mappings = corrections.entries.map correctedMapping ++
          answer.mappings.filter (fun m => m.targetField ∉ corrections.values) ∧
        mapping.unmappedHeaders = answer.unmappedHeaders := by
  unfold mapWithCorrections at h
  obtain ⟨_, _, h⟩ := bind_eq_ok.mp h
  dsimp only at h ⊢
  split at h
  · rename_i hempty
    exact .inl ⟨List.isEmpty_iff.mp hempty, MappingResult.build_ok h⟩
  · rename_i hne
    obtain ⟨slmResult, hslm, h⟩ := bind_eq_ok.mp h
    obtain ⟨hanswer, _⟩ := mapUncorrected_ok.mp hslm
    exact .inr ⟨slmResult, ⟨by simpa using hne, hanswer⟩, MappingResult.build_ok h⟩

theorem corrected_sources (corrections : Dict String String) :
    (corrections.entries.map correctedMapping).map ColumnMapping.sourceHeader =
      corrections.keys := by
  simp [Dict.keys, correctedMapping, Function.comp_def]

/-- A header is corrected or asked about. -/
theorem mem_headers_iff (h : String) :
    h ∈ headers ↔ h ∈ (correctionsFor stores headers cedentId).keys ∨
      h ∈ uncorrectedHeaders headers (correctionsFor stores headers cedentId) := by
  constructor
  · intro hmem
    by_cases hkey : h ∈ (correctionsFor stores headers cedentId).keys
    · exact .inl hkey
    · exact .inr (by simp [uncorrectedHeaders, hmem, hkey])
  · rintro (hkey | hasked)
    · obtain ⟨t, ht⟩ := Dict.mem_keys.mp hkey
      exact correctionsFor_get? ht
    · exact (List.mem_filter.mp hasked).1

theorem not_corrected_of_asked {corrections : Dict String String} {h : String}
    (hasked : h ∈ uncorrectedHeaders headers corrections) : h ∉ corrections.keys := by
  simpa using (List.mem_filter.mp hasked).2

/-- Against an answer that keeps its headers, the merged mapping keeps those
of the file if the answer loses nothing in the merge. -/
theorem headersOnce_merged_iff {mapping answer : MappingResult}
    (honce : HeadersOnce (uncorrectedHeaders headers (correctionsFor stores headers cedentId))
      answer)
    (hmappings : mapping.mappings =
      (correctionsFor stores headers cedentId).entries.map correctedMapping ++
        answer.mappings.filter fun m => m.targetField ∉
          (correctionsFor stores headers cedentId).values)
    (hunmapped : mapping.unmappedHeaders = answer.unmappedHeaders) :
    HeadersOnce headers mapping ↔
      ∀ m ∈ answer.mappings, m.targetField ∉ (correctionsFor stores headers cedentId).values := by
  set corrections := correctionsFor stores headers cedentId
  set kept := answer.mappings.filter fun m => m.targetField ∉ corrections.values
  have hmerged : ∀ h, mapping.headers.count h = corrections.keys.count h +
      (kept.map ColumnMapping.sourceHeader).count h + answer.unmappedHeaders.count h := by
    intro h
    rw [MappingResult.headers, hmappings, hunmapped, List.map_append, corrected_sources,
      List.count_append, List.count_append]
  have hanswer : ∀ h, (answer.mappings.map ColumnMapping.sourceHeader).count h +
      answer.unmappedHeaders.count h = if h ∈ uncorrectedHeaders headers corrections then 1
        else 0 := by
    intro h
    rw [← List.count_append]
    exact honce h
  constructor
  · intro hfile m hm
    by_contra htaken
    -- the header of the dropped mapping was asked about, and is gone
    have hpos : 0 < (answer.mappings.map ColumnMapping.sourceHeader).count m.sourceHeader :=
      List.count_pos_iff.mpr (List.mem_map_of_mem hm)
    have hcount := hanswer m.sourceHeader
    have hasked : m.sourceHeader ∈ uncorrectedHeaders headers corrections := by
      by_contra hno
      rw [if_neg hno] at hcount
      omega
    rw [if_pos hasked] at hcount
    have hgone : (kept.map ColumnMapping.sourceHeader).count m.sourceHeader = 0 :=
      count_filter_dropped hm (by simpa using htaken) (by omega)
    have hkey : corrections.keys.count m.sourceHeader = 0 :=
      List.count_eq_zero_of_not_mem (not_corrected_of_asked hasked)
    have hin : m.sourceHeader ∈ headers := (List.mem_filter.mp hasked).1
    have hone := hfile m.sourceHeader
    rw [hmerged, if_pos hin] at hone
    omega
  · intro hfree h
    have hall : kept = answer.mappings :=
      List.filter_eq_self.mpr fun m hm => by simpa using hfree m hm
    have hkeys : corrections.keys.Nodup := corrections.nodup
    have hcases : h ∈ headers ↔
        h ∈ corrections.keys ∨ h ∈ uncorrectedHeaders headers corrections := mem_headers_iff h
    rw [hmerged, hall, Nat.add_assoc, hanswer, hkeys.count]
    by_cases hkey : h ∈ corrections.keys
    · have hnot : h ∉ uncorrectedHeaders headers corrections :=
        fun hasked => not_corrected_of_asked hasked hkey
      rw [if_pos hkey, if_neg hnot, if_pos (hcases.mpr (.inl hkey))]
    · rw [or_iff_right hkey] at hcases
      simp only [if_neg hkey, hcases, Nat.zero_add]

end Merge

/-- **When merging loses no header.** If the mapper keeps the headers it is
asked about, the merged mapping keeps those of the file exactly when no
suggestion of the mapper targets a field that a correction has taken. -/
theorem headers_kept_iff (rt : Runtime) (svc : MappingService) (mapper : Mapper)
    (stores : Stores) (headers : List String) (preview : List Row) (cedentId : Option String)
    (mapping : MappingResult)
    (hmapper : ∀ answer,
      Answered mapper headers preview (correctionsFor stores headers cedentId) answer →
        HeadersOnce (uncorrectedHeaders headers (correctionsFor stores headers cedentId)) answer)
    (h : mapWithCorrections rt svc mapper stores headers preview cedentId = .ok mapping) :
    HeadersOnce headers mapping ↔
      ∀ answer,
        Answered mapper headers preview (correctionsFor stores headers cedentId) answer →
        ∀ m ∈ answer.mappings,
          m.targetField ∉ (correctionsFor stores headers cedentId).values := by
  rcases mapWithCorrections_parts h with ⟨hnone, hmappings, hunmapped⟩ |
    ⟨answer, hanswer, hmappings, hunmapped⟩
  · -- every header is corrected, and the mapper was not asked
    refine iff_of_true ?_ fun answer hanswer => absurd hnone hanswer.1
    intro header
    have hkeys : (correctionsFor stores headers cedentId).keys.Nodup :=
      (correctionsFor stores headers cedentId).nodup
    have hcases : header ∈ headers ↔ header ∈ (correctionsFor stores headers cedentId).keys ∨
        header ∈ uncorrectedHeaders headers (correctionsFor stores headers cedentId) :=
      mem_headers_iff header
    rw [hnone, or_iff_left (List.not_mem_nil)] at hcases
    rw [MappingResult.headers, hmappings, hunmapped, corrected_sources, List.append_nil,
      hkeys.count]
    simp only [hcases]
  · rw [headersOnce_merged_iff (hmapper answer hanswer) hmappings hunmapped]
    constructor
    · intro hfree answer' hanswer'
      cases hanswer.2.symm.trans hanswer'.2
      exact hfree
    · exact fun hfree => hfree answer hanswer

def gwpGuess : ColumnMapping := ⟨"GWP", "Gross_Premium", 1, ColumnMapping.certain⟩

/-- The caches once ACME-RE has corrected PRMA. -/
def acmeStores : Stores := run .plain premiumService [.correction premiumCorrection]

theorem recallOne_headersOnce {known : ColumnMapping} {headers : List String} {rows : List Row}
    {answer : MappingResult} (hnodup : headers.Nodup)
    (h : recallOne known headers rows = .ok answer) : HeadersOnce headers answer := by
  intro header
  unfold recallOne at h
  split at h
  · rename_i hmem
    cases h
    have hperm : (known.sourceHeader :: headers.erase known.sourceHeader).Perm headers :=
      (List.perm_cons_erase hmem).symm
    rw [← hnodup.count]
    exact hperm.count_eq header
  · cases h
    exact hnodup.count

/-- The policies are not what ACME-RE corrected, and both headers are kept. -/
theorem policy_and_prma_kept :
    ∃ mapping, mapWithCorrections .plain premiumService (recallOne policyGuess) acmeStores
        ["Policy No", "PRMA"] [] (some "ACME-RE") = .ok mapping ∧
      HeadersOnce ["Policy No", "PRMA"] mapping := by
  refine ⟨⟨[correctedMapping ("PRMA", "Gross_Premium"), policyGuess], [], by decide⟩, rfl,
    (headers_kept_iff .plain premiumService (recallOne policyGuess) acmeStores
      ["Policy No", "PRMA"] [] (some "ACME-RE") _ ?_ rfl).mpr ?_⟩
  · intro answer hanswer
    exact recallOne_headersOnce (by decide) hanswer.2
  · intro answer hanswer m hm
    obtain ⟨rfl, _⟩ := recallOne_answer hanswer.2 hm
    decide

/-- GWP is suggested for the field that PRMA was corrected to: the suggestion
is dropped, and GWP is in neither list of the merged mapping. -/
theorem gwp_lost :
    (∀ answer, Answered (recallOne gwpGuess) ["PRMA", "GWP"] []
        (correctionsFor acmeStores ["PRMA", "GWP"] (some "ACME-RE")) answer →
      HeadersOnce (uncorrectedHeaders ["PRMA", "GWP"]
        (correctionsFor acmeStores ["PRMA", "GWP"] (some "ACME-RE"))) answer) ∧
      ∃ mapping, mapWithCorrections .plain premiumService (recallOne gwpGuess) acmeStores
          ["PRMA", "GWP"] [] (some "ACME-RE") = .ok mapping ∧
        ¬ HeadersOnce ["PRMA", "GWP"] mapping := by
  refine ⟨fun answer hanswer => recallOne_headersOnce (by decide) hanswer.2, _, rfl, ?_⟩
  intro honce
  have hgwp := honce "GWP"
  cases hgwp

/-! ## Confidence -/

/-- What the mapper suggests for the headers without a correction; nothing,
if there are none. -/
def suggestions (mapper : Mapper) (headers : List String) (preview : List Row)
    (corrections : Dict String String) : Except PyErr (List ColumnMapping) :=
  let asked := uncorrectedHeaders headers corrections
  if asked.isEmpty then .ok []
  else (mapper asked (uncorrectedPreview asked preview)).map MappingResult.mappings

/-- The upload ends with `MappingConfidenceLowError`. -/
def LowConfidence (outcome : Except PyErr MappingResult) : Prop :=
  ∃ msg, outcome = .error (.mappingConfidenceLowError msg)

section Confidence
variable {rt : Runtime} {svc : MappingService} {mapper : Mapper} {stores : Stores}
  {headers : List String} {preview : List Row} {cedentId : Option String}

/-- The check raises when one mapping is below the threshold. -/
theorem checkConfidence_low {r : MappingResult} :
    (∃ msg, checkConfidence rt svc r = .error (.mappingConfidenceLowError msg)) ↔
      ∃ m ∈ r.mappings, m.confidence < svc.confidenceThreshold := by
  constructor
  · rintro ⟨msg, hraised⟩
    by_contra hnone
    push Not at hnone
    rw [(checkConfidence_ok rt).mpr hnone] at hraised
    cases hraised
  · rintro ⟨m, hm, hlow⟩
    cases hcheck : checkConfidence rt svc r with
    | ok u => exact absurd ((checkConfidence_ok rt).mp hcheck m hm) (not_le.mpr hlow)
    | error e =>
        obtain ⟨m', _, hraised⟩ := forM_eq_error hcheck
        split at hraised
        · cases hraised
          exact ⟨_, rfl⟩
        · cases hraised

/-- **Every suggestion counts**: with corrections that can be applied, the
mapping fails for its confidence when some suggestion is below the
threshold, dropped or not. -/
theorem low_confidence_raised_iff {answer : List ColumnMapping}
    (hvalid : ∀ kv ∈ (correctionsFor stores headers cedentId).entries,
      kv.2 ∈ svc.schema.fieldNames)
    (hdistinct : (correctionsFor stores headers cedentId).values.Nodup)
    (hmapper : suggestions mapper headers preview (correctionsFor stores headers cedentId) =
      .ok answer) :
    LowConfidence (mapWithCorrections rt svc mapper stores headers preview cedentId) ↔
      ∃ m ∈ answer, m.confidence < svc.confidenceThreshold := by
  unfold suggestions at hmapper
  by_cases hempty : uncorrectedHeaders headers (correctionsFor stores headers cedentId) = []
  · simp only [hempty, List.isEmpty_nil, if_true] at hmapper
    cases hmapper
    rw [mapWithCorrections_corrected hvalid hempty]
    refine iff_of_false ?_ (by simp)
    rw [← targets_corrected] at hdistinct
    obtain ⟨mapping, hmapping⟩ := MappingResult.build_isOk_iff.mpr hdistinct
    rintro ⟨msg, hraised⟩
    cases hmapping.symm.trans hraised
  · have hasked : (uncorrectedHeaders headers
        (correctionsFor stores headers cedentId)).isEmpty = false := by simpa using hempty
    simp only [hasked, Bool.false_eq_true, if_false] at hmapper
    obtain ⟨slmResult, hslm, rfl⟩ := map_eq_ok.mp hmapper
    rw [mapWithCorrections_asked hvalid hempty, ← checkConfidence_low]
    obtain ⟨mapping, hmapping⟩ := MappingResult.build_isOk_iff.mpr
      ((nodup_merged_iff _ slmResult).mpr hdistinct)
    unfold mapUncorrected
    cases hcheck : checkConfidence rt svc slmResult with
    | ok u =>
        -- the merge of a checked answer cannot fail any more
        refine iff_of_false ?_ (by simp)
        rintro ⟨msg, hraised⟩
        rw [hslm] at hraised
        simp only [bind, Except.bind, hcheck, pure, Except.pure] at hraised
        cases hmapping.symm.trans hraised
    | error e =>
        rw [hslm]
        simp only [LowConfidence, bind, Except.bind, hcheck, Except.error.injEq]

end Confidence

/-- The mappings of the merged result. -/
def mergedMappings (corrections : Dict String String) (answer : List ColumnMapping) :
    List ColumnMapping :=
  corrections.entries.map correctedMapping ++
    answer.filter fun m => m.targetField ∉ corrections.values

/-- No suggestion is below the threshold only to be dropped; and a threshold
above every confidence finds a suggestion wherever it finds a correction. -/
def DiscardsSafely (threshold : ℚ) (corrections : Dict String String)
    (answer : List ColumnMapping) : Prop :=
  (threshold ≤ 1 → ∀ m ∈ answer, m.targetField ∈ corrections.values → m.confidence < threshold →
    ∃ m' ∈ answer, m'.targetField ∉ corrections.values ∧ m'.confidence < threshold) ∧
  (1 < threshold → corrections.entries ≠ [] → answer ≠ [])

/-- A merged mapping below the threshold is a kept suggestion, or a
correction when the threshold is above 1. -/
theorem merged_low_iff {threshold : ℚ} {corrections : Dict String String}
    {answer : List ColumnMapping} :
    (∃ m ∈ mergedMappings corrections answer, m.confidence < threshold) ↔
      (corrections.entries ≠ [] ∧ 1 < threshold) ∨
        ∃ m ∈ answer, m.targetField ∉ corrections.values ∧ m.confidence < threshold := by
  simp only [mergedMappings, List.mem_append, List.mem_map, List.mem_filter, decide_eq_true_eq]
  constructor
  · rintro ⟨m, ⟨kv, hkv, rfl⟩ | ⟨hm, hkept⟩, hlow⟩
    · exact .inl ⟨List.ne_nil_of_mem hkv, hlow⟩
    · exact .inr ⟨m, hm, hkept, hlow⟩
  · rintro (⟨hne, hlow⟩ | ⟨m, hm, hkept, hlow⟩)
    · obtain ⟨kv, hkv⟩ := List.exists_mem_of_ne_nil _ hne
      exact ⟨correctedMapping kv, .inl ⟨kv, hkv, rfl⟩, hlow⟩
    · exact ⟨m, .inr ⟨hm, hkept⟩, hlow⟩

/-- The suggestions and the merged mappings have one below the threshold
together exactly under that condition. -/
theorem discardsSafely_iff {threshold : ℚ} {corrections : Dict String String}
    {answer : List ColumnMapping} :
    ((∃ m ∈ answer, m.confidence < threshold) ↔
        ∃ m ∈ mergedMappings corrections answer, m.confidence < threshold) ↔
      DiscardsSafely threshold corrections answer := by
  rw [merged_low_iff]
  by_cases hlevel : threshold ≤ 1
  · have hcertain : ¬ 1 < threshold := not_lt.mpr hlevel
    simp only [DiscardsSafely, hlevel, hcertain, and_false, false_or, true_imp_iff, false_imp_iff,
      and_true]
    constructor
    · intro hsame m hm _ hlow
      exact hsame.mp ⟨m, hm, hlow⟩
    · intro hsafe
      constructor
      · rintro ⟨m, hm, hlow⟩
        by_cases htaken : m.targetField ∈ corrections.values
        · exact hsafe m hm htaken hlow
        · exact ⟨m, hm, htaken, hlow⟩
      · rintro ⟨m, hm, _, hlow⟩
        exact ⟨m, hm, hlow⟩
  · have hcertain : 1 < threshold := not_le.mp hlevel
    have hall : ∀ m : ColumnMapping, m.confidence < threshold :=
      fun m => lt_of_le_of_lt m.confidenceInRange.2 hcertain
    simp only [DiscardsSafely, hlevel, hcertain, hall, and_true, true_imp_iff, false_imp_iff,
      true_and]
    constructor
    · intro hsame hne
      obtain ⟨m, hm⟩ := hsame.mpr (.inl hne)
      exact List.ne_nil_of_mem hm
    · intro hsafe
      constructor
      · rintro ⟨m, hm⟩
        by_cases htaken : m.targetField ∈ corrections.values
        · obtain ⟨kv, hkv, _⟩ := List.mem_map.mp htaken
          exact .inl (List.ne_nil_of_mem hkv)
        · exact .inr ⟨m, hm, htaken⟩
      · rintro (hne | ⟨m, hm, _⟩)
        · exact List.exists_mem_of_ne_nil _ (hsafe hne)
        · exact ⟨m, hm⟩

/-- **When only the merged result can fail the upload.** On a cache miss, with
corrections of the schema to distinct fields, the upload is refused for its
confidence if and only if a merged mapping is below the threshold, exactly
when dropping suggestions is safe. -/
theorem low_confidence_iff (rt : Runtime) (svc : MappingService) (mapper : Mapper)
    (stores : Stores) (headers : List String) (preview : List Row) (cedentId : Option String)
    (answer : List ColumnMapping)
    (hmiss : RedisCache.getMapping stores (buildCacheKey rt svc headers) = none)
    (hvalid : ∀ kv ∈ (correctionsFor stores headers cedentId).entries,
      kv.2 ∈ svc.schema.fieldNames)
    (hdistinct : (correctionsFor stores headers cedentId).values.Nodup)
    (hmapper : suggestions mapper headers preview (correctionsFor stores headers cedentId) =
      .ok answer) :
    (LowConfidence (obtainMapping rt svc mapper stores headers preview cedentId).1 ↔
        ∃ m ∈ mergedMappings (correctionsFor stores headers cedentId) answer,
          m.confidence < svc.confidenceThreshold) ↔
      DiscardsSafely svc.confidenceThreshold (correctionsFor stores headers cedentId) answer := by
  rw [obtainMapping_miss hmiss, low_confidence_raised_iff hvalid hdistinct hmapper]
  exact discardsSafely_iff

theorem acme_valid {headers : List String} :
    ∀ kv ∈ (correctionsFor acmeStores headers (some "ACME-RE")).entries,
      kv.2 ∈ premiumService.schema.fieldNames := by
  intro kv hkv
  have hget := Dict.get?_eq_some.mpr hkv
  rw [acmeStores, correctionsFor_run (correctionsFor_get? hget)] at hget
  exact latestCorrection_mem hget

/-- A confident suggestion for another field cannot fail the upload. -/
theorem policy_cannot_fail :
    LowConfidence (obtainMapping .plain premiumService (recallOne policyGuess) acmeStores
        ["Policy No", "PRMA"] [] (some "ACME-RE")).1 ↔
      ∃ m ∈ mergedMappings (correctionsFor acmeStores ["Policy No", "PRMA"] (some "ACME-RE"))
          [policyGuess],
        m.confidence < premiumService.confidenceThreshold := by
  refine (low_confidence_iff .plain premiumService (recallOne policyGuess) acmeStores
    ["Policy No", "PRMA"] [] (some "ACME-RE") [policyGuess] rfl acme_valid (by decide) rfl).mpr ?_
  refine ⟨?_, fun hlevel => absurd hlevel (lt_irrefl (1 : ℚ))⟩
  intro _ m hm _ hlow
  rw [List.mem_singleton.mp hm] at hlow
  exact absurd hlow (lt_irrefl (1 : ℚ))

def gwpDoubt : ColumnMapping :=
  { gwpGuess with
    confidence := 1 / 2
    confidenceInRange := by norm_num }

/-- GWP is suggested, half sure, for the field that PRMA was corrected to: the
upload is refused, though the merged mapping would be the correction alone. -/
theorem gwp_fails_upload :
    LowConfidence (obtainMapping .plain premiumService (recallOne gwpDoubt) acmeStores
        ["PRMA", "GWP"] [] (some "ACME-RE")).1 ∧
      suggestions (recallOne gwpDoubt) ["PRMA", "GWP"] []
          (correctionsFor acmeStores ["PRMA", "GWP"] (some "ACME-RE")) = .ok [gwpDoubt] ∧
      ¬ ∃ m ∈ mergedMappings (correctionsFor acmeStores ["PRMA", "GWP"] (some "ACME-RE"))
          [gwpDoubt],
        m.confidence < premiumService.confidenceThreshold := by
  have hmapper : suggestions (recallOne gwpDoubt) ["PRMA", "GWP"] []
      (correctionsFor acmeStores ["PRMA", "GWP"] (some "ACME-RE")) = .ok [gwpDoubt] := rfl
  have hlow : (1 / 2 : ℚ) < 1 := by norm_num
  refine ⟨?_, hmapper, ?_⟩
  · rw [obtainMapping_miss rfl]
    exact (low_confidence_raised_iff acme_valid (by decide) hmapper).mpr
      ⟨gwpDoubt, List.mem_singleton_self _, hlow⟩
  · rw [merged_low_iff]
    rintro (⟨_, hlevel⟩ | ⟨m, hm, hkept, _⟩)
    · exact lt_irrefl (1 : ℚ) hlevel
    · rw [List.mem_singleton.mp hm] at hkept
      exact hkept (by decide)

end RiskFlow
