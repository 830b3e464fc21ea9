import RiskFlow.Service.ConcurrentUploads

/-!
# CorrectionsInForce — which corrections a running upload applies

Corrections of one cedent are fields of one hash, and storing one is one
write: the hash always holds, for each header, the last correction stored
for it. An upload whose cache lookup missed reads the hash once, so it
applies the corrections of one moment between that miss and its answer:
every correction acknowledged before is applied, unless a later one for
the same header was.
-/

namespace RiskFlow

open Lib MappingService

/-! ## The corrections stored -/

/-- The correction a task has stored. -/
def ServiceTask.stored : ServiceTask → Option Correction
  | .correction _ k outages (some (.ok ())) => if outages.write then none else some k
  | _ => none

/-- The target of the last correction stored for the cedent's header. -/
def latestStored (cedentId header : String) (stored : List Correction) : Option String :=
  stored.foldl
    (fun latest k =>
      if k.cedentId = cedentId ∧ k.sourceHeader = header then some k.targetField else latest)
    none

theorem latestStored_concat (cedentId header : String) (stored : List Correction)
    (k : Correction) :
    latestStored cedentId header (stored ++ [k]) =
      if k.cedentId = cedentId ∧ k.sourceHeader = header then some k.targetField
      else latestStored cedentId header stored := by
  simp [latestStored]

/-- The hashes hold the last corrections of the history. -/
def HashesHold (stores : Stores) (stored : List Correction) : Prop :=
  ∀ c h, (RedisCorrectionCache.hashOf stores c).get? h = latestStored c h stored

theorem hashesHold_set {stores : Stores} {stored : List Correction}
    (h : HashesHold stores stored) (k : Correction) :
    HashesHold (RedisCorrectionCache.setCorrection stores k) (stored ++ [k]) := by
  intro c header
  rw [RedisCorrectionCache.hashOf_setCorrection, latestStored_concat]
  by_cases hcedent : k.cedentId = c
  · rw [if_pos hcedent, Dict.get?_set, h c header]
    by_cases hheader : k.sourceHeader = header
    · rw [if_pos hheader, if_pos ⟨hcedent, hheader⟩]
    · rw [if_neg hheader, if_neg fun hk => hheader hk.2]
  · rw [if_neg hcedent, if_neg fun hk => hcedent hk.1]
    exact h c header

/-! ## Steps -/

section Steps
variable {rt : Runtime}

/-- A task of the pool that writes down the corrections stored. -/
abbrev recordStored (rt : Runtime) : Stores × List Correction → ServiceTask →
    (Stores × List Correction) × ServiceTask :=
  Pool.recording (ServiceTask.advance rt) ServiceTask.stored

theorem stored_keeps (s : Stores) (t : ServiceTask) (k : Correction) (h : t.stored = some k) :
    (t.advance rt s).2.stored = some k := by
  cases t with
  | correction svc k' outages outcome =>
      cases outcome with
      | none => cases h
      | some outcome => exact h
  | _ => cases h

/-- An upload stores no correction. -/
theorem upload_corrections (svc : MappingService) (u : Upload) (outages : Outages)
    (phase : UploadPhase) (s : Stores) :
    (phase.advance rt svc u outages s).1.corrections = s.corrections := by
  cases phase with
  | started =>
      simp only [UploadPhase.advance]
      split <;> rfl
  | looking headers preview =>
      simp only [UploadPhase.advance]
      split <;> rfl
  | missed headers preview => rfl
  | asking headers preview corrections =>
      simp only [UploadPhase.advance]
      split <;> rfl
  | caching headers mapping =>
      simp only [UploadPhase.advance]
      split <;> rfl
  | answered outcome => rfl

/-- **One step of a task** stores the correction it writes down, or none. -/
theorem hashesHold_step {s : Stores × List Correction} (h : HashesHold s.1 s.2)
    (t : ServiceTask) :
    HashesHold (recordStored rt s t).1.1 (recordStored rt s t).1.2 := by
  cases t with
  | upload svc u outages phase =>
      have heq : recordStored rt s (.upload svc u outages phase) =
          (((phase.advance rt svc u outages s.1).1, s.2),
            .upload svc u outages (phase.advance rt svc u outages s.1).2) :=
        Pool.recording_same rfl rfl
      rw [heq]
      intro c header
      rw [hashOf_congr (upload_corrections svc u outages phase s.1)]
      exact h c header
  | correction svc k outages outcome =>
      cases outcome with
      | some outcome =>
          rw [show recordStored rt s _ = (s, _) from Pool.recording_same rfl rfl]
          exact h
      | none =>
          by_cases hfield : k.targetField ∈ svc.schema.fieldNames
          · by_cases hfails : outages.write = true
            · have hstep : ServiceTask.advance rt s.1 (.correction svc k outages none) =
                  (s.1, .correction svc k outages (some (.ok ()))) := by
                simp only [ServiceTask.advance, storeCorrection_of_mem hfield, if_pos hfails]
              have hstored : ServiceTask.stored (.correction svc k outages (some (.ok ()))) =
                  none := if_pos hfails
              rw [show recordStored rt s _ = _ from Pool.recording_same hstep hstored]
              exact h
            · have hstep : ServiceTask.advance rt s.1 (.correction svc k outages none) =
                  (RedisCorrectionCache.setCorrection s.1 k,
                    .correction svc k outages (some (.ok ()))) := by
                simp only [ServiceTask.advance, storeCorrection_of_mem hfield, if_neg hfails]
              have hstored : ServiceTask.stored (.correction svc k outages (some (.ok ()))) =
                  some k := if_neg hfails
              rw [show recordStored rt s _ = _ from Pool.recording_new hstep rfl hstored]
              exact hashesHold_set h k
          · obtain ⟨e, he⟩ := storeCorrection_of_not_mem s.1 hfield
            have hstep : ServiceTask.advance rt s.1 (.correction svc k outages none) =
                (s.1, .correction svc k outages (some (.error e))) := by
              simp only [ServiceTask.advance, he]
            rw [show recordStored rt s _ = _ from Pool.recording_same hstep rfl]
            exact h
  | expiry cacheKey expired =>
      cases expired with
      | true =>
          rw [show recordStored rt s _ = (s, _) from Pool.recording_same rfl rfl]
          exact h
      | false =>
          have hstep : ServiceTask.advance rt s.1 (.expiry cacheKey false) =
              (RedisCache.expire s.1 cacheKey, .expiry cacheKey true) := rfl
          rw [show recordStored rt s _ = _ from Pool.recording_same hstep rfl]
          exact h

end Steps

/-! ## One upload among the others -/

/-- The hashes are those of a history between `before` and `now`. -/
def ReadBetween (before now : List Correction) (stores : Stores) : Prop :=
  ∃ seen, (before <+: seen ∧ seen <+: now) ∧ HashesHold stores seen

theorem ReadBetween.mono {before now later : List Correction} {stores : Stores}
    (h : ReadBetween before now stores) (hlater : now <+: later) :
    ReadBetween before later stores := by
  obtain ⟨seen, ⟨hbefore, hnow⟩, hhashes⟩ := h
  exact ⟨seen, ⟨hbefore, hnow.trans hlater⟩, hhashes⟩

section Followed
variable (rt : Runtime) (svc : MappingService) (u : Upload) (headers : List String)
  (before now : List Correction)

/-- What is known of an upload as it goes on after its lookup has missed. -/
def UploadPhase.AppliesFrom : UploadPhase → Prop
  | .started | .looking _ _ => False
  | .missed headers' _ => headers' = headers
  | .asking headers' _ corrections => headers' = headers ∧
      ∃ stores, ReadBetween before now stores ∧
        corrections = correctionsFor stores headers u.cedentId
  | .caching headers' mapping => headers' = headers ∧
      ∃ stores preview, ReadBetween before now stores ∧
        mapWithCorrections rt svc u.mapper stores headers preview u.cedentId = .ok mapping
  | .answered (.ok result) =>
      ∃ stores preview, ReadBetween before now stores ∧
        mapWithCorrections rt svc u.mapper stores headers preview u.cedentId =
          .ok result.mapping
  | .answered (.error _) => True

/-- The invariant of that upload's task, beside the corrections stored. -/
def FollowsFrom (outages : Outages) (s : Stores × List Correction) (t : ServiceTask) : Prop :=
  (HashesHold s.1 s.2 ∧ before <+: s.2) ∧ ∃ phase, t = .upload svc u outages phase ∧
    phase.AppliesFrom rt svc u headers before s.2

end Followed

section Following
variable {rt : Runtime} {svc : MappingService} {u : Upload} {headers : List String}
  {before now later : List Correction} {outages : Outages}

theorem appliesFrom_mono {phase : UploadPhase}
    (h : phase.AppliesFrom rt svc u headers before now) (hlater : now <+: later) :
    phase.AppliesFrom rt svc u headers before later := by
  cases phase with
  | started => exact h
  | looking headers' preview => exact h
  | missed headers' preview => exact h
  | asking headers' preview corrections =>
      obtain ⟨hheaders, stores, hread, hcorrections⟩ := h
      exact ⟨hheaders, stores, hread.mono hlater, hcorrections⟩
  | caching headers' mapping =>
      obtain ⟨hheaders, stores, preview, hread, hmade⟩ := h
      exact ⟨hheaders, stores, preview, hread.mono hlater, hmade⟩
  | answered outcome =>
      cases outcome with
      | error e => trivial
      | ok result =>
          obtain ⟨stores, preview, hread, hmade⟩ := h
          exact ⟨stores, preview, hread.mono hlater, hmade⟩

/-- A step of the upload itself: the corrections it reads are those of now. -/
theorem appliesFrom_step (hanswers : outages.getCorrections = false) {stores : Stores}
    (hhashes : HashesHold stores now) (hbefore : before <+: now) {phase : UploadPhase}
    (h : phase.AppliesFrom rt svc u headers before now) :
    (phase.advance rt svc u outages stores).2.AppliesFrom rt svc u headers before now := by
  cases phase with
  | started => exact h.elim
  | looking headers' preview => exact h.elim
  | missed headers' preview =>
      have hheaders : headers' = headers := h
      subst hheaders
      simp only [UploadPhase.advance, hanswers]
      exact ⟨rfl, stores, ⟨now, ⟨hbefore, List.prefix_refl now⟩, hhashes⟩, rfl⟩
  | asking headers' preview corrections =>
      obtain ⟨hheaders, seen, hread, hcorrections⟩ := h
      subst hheaders hcorrections
      simp only [UploadPhase.advance, ← mapWithCorrections_eq]
      cases hmade : mapWithCorrections rt svc u.mapper seen headers' preview u.cedentId with
      | error e => trivial
      | ok mapping => exact ⟨rfl, seen, preview, hread, hmade⟩
  | caching headers' mapping =>
      obtain ⟨_, seen, preview, hread, hmade⟩ := h
      show UploadPhase.AppliesFrom rt svc u headers before now
        (.answered (validateRows rt svc u.files u.filePath mapping u.sheetName))
      cases hvalid : validateRows rt svc u.files u.filePath mapping u.sheetName with
      | error e => trivial
      | ok result =>
          refine ⟨seen, preview, hread, ?_⟩
          rw [validateRows_mapping hvalid]
          exact hmade
  | answered outcome => exact h

theorem followsFrom_own (hanswers : outages.getCorrections = false)
    (s : Stores × List Correction) (t : ServiceTask)
    (h : FollowsFrom rt svc u headers before outages s t) :
    FollowsFrom rt svc u headers before outages (recordStored rt s t).1
      (recordStored rt s t).2 := by
  obtain ⟨⟨hhashes, hbefore⟩, phase, rfl, hphase⟩ := h
  have heq : recordStored rt s (.upload svc u outages phase) =
      (((phase.advance rt svc u outages s.1).1, s.2),
        .upload svc u outages (phase.advance rt svc u outages s.1).2) :=
    Pool.recording_same rfl rfl
  refine ⟨⟨hashesHold_step hhashes _, ?_⟩, _, rfl, ?_⟩
  · rw [heq]
    exact hbefore
  · rw [heq]
    exact appliesFrom_step hanswers hhashes hbefore hphase

theorem followsFrom_others (s : Stores × List Correction) (t other : ServiceTask)
    (h : FollowsFrom rt svc u headers before outages s t) :
    FollowsFrom rt svc u headers before outages (recordStored rt s other).1 t := by
  obtain ⟨⟨hhashes, hbefore⟩, phase, rfl, hphase⟩ := h
  have hgrows : s.2 <+: (recordStored rt s other).1.2 := List.prefix_append _ _
  exact ⟨⟨hashesHold_step hhashes other, hbefore.trans hgrows⟩, phase, rfl,
    appliesFrom_mono hphase hgrows⟩

end Following

/-! ## Runs -/

/-- The tasks before their first steps, with no correction stored. -/
abbrev recorderOf (tasks : List ServiceTask) : Pool (Stores × List Correction) ServiceTask :=
  Pool.unrecorded ⟨.empty, tasks⟩

theorem hashesHold_run {rt : Runtime} {p : Pool (Stores × List Correction) ServiceTask}
    (hp : HashesHold p.shared.1 p.shared.2) (schedule : List Nat) :
    HashesHold (p.run (recordStored rt) schedule).shared.1
      (p.run (recordStored rt) schedule).shared.2 := by
  induction schedule generalizing p with
  | nil => exact hp
  | cons i rest ih =>
      refine ih ?_
      cases ht : p.tasks[i]? with
      | none => rwa [Pool.step_none _ ht]
      | some t =>
          rw [Pool.step_some _ ht]
          exact hashesHold_step hp t

/-- **The recorder's history** is that of the corrections stored, and holds what
the hashes hold. -/
theorem history_run (rt : Runtime) {tasks : List ServiceTask} (hbegin : ∀ t ∈ tasks, t.Begins)
    (schedule : List Nat) :
    ((recorderOf tasks).run (recordStored rt) schedule).Recorded ServiceTask.stored ∧
      HashesHold ((recorderOf tasks).run (recordStored rt) schedule).shared.1
        ((recorderOf tasks).run (recordStored rt) schedule).shared.2 := by
  have hnone : Pool.collect ServiceTask.stored ⟨Stores.empty, tasks⟩ = [] := by
    refine List.filterMap_eq_nil_iff.mpr fun t ht => ?_
    cases t with
    | correction svc k outages outcome =>
        have houtcome : outcome = none := hbegin _ ht
        rw [houtcome]
        rfl
    | _ => rfl
  have hempty : HashesHold (recorderOf tasks).shared.1 (recorderOf tasks).shared.2 :=
    fun _ _ => rfl
  exact ⟨Pool.recorded_run _ stored_keeps hnone schedule, hashesHold_run hempty schedule⟩

/-- **A running upload applies the corrections in force.** After every
schedule the corrections held are the last ones of the stores recorded so
far. An upload whose lookup had missed by the one moment and that has a
result at the other applies, for every header of its file, the last
correction its cedent had stored at some moment between the two. -/
theorem stored_corrections_applied (rt : Runtime) (tasks : List ServiceTask)
    (hbegin : ∀ t ∈ tasks, t.Begins) :
    (∀ schedule, ∃ history : List Correction,
      history.Perm ((Pool.run (ServiceTask.advance rt) ⟨.empty, tasks⟩ schedule).collect
          ServiceTask.stored) ∧
        HashesHold (Pool.run (ServiceTask.advance rt) ⟨.empty, tasks⟩ schedule).shared history) ∧
    ∀ (earlier later : List Nat) (i : Nat) (svc : MappingService) (u : Upload)
      (outages : Outages) (headers : List String) (preview : List Row)
      (result : ProcessingResult) (c : String), outages.getCorrections = false →
      u.cedentId = some c → c ≠ "" →
      (Pool.run (ServiceTask.advance rt) ⟨.empty, tasks⟩ earlier).tasks[i]? =
        some (.upload svc u outages (.missed headers preview)) →
      (Pool.run (ServiceTask.advance rt) ⟨.empty, tasks⟩ (earlier ++ later)).tasks[i]? =
        some (.upload svc u outages (.answered (.ok result))) →
      ∃ before seen after : List Correction,
        (before.Perm ((Pool.run (ServiceTask.advance rt) ⟨.empty, tasks⟩ earlier).collect
            ServiceTask.stored) ∧
          HashesHold (Pool.run (ServiceTask.advance rt) ⟨.empty, tasks⟩ earlier).shared before) ∧
        (before <+: seen ∧ seen <+: after) ∧
        (after.Perm ((Pool.run (ServiceTask.advance rt) ⟨.empty, tasks⟩
            (earlier ++ later)).collect ServiceTask.stored) ∧
          HashesHold (Pool.run (ServiceTask.advance rt) ⟨.empty, tasks⟩
            (earlier ++ later)).shared after) ∧
        ∀ h ∈ headers, ∀ target, latestStored c h seen = some target →
          MapsOnly result.mapping h target := by
  have hforget : ∀ schedule, ((recorderOf tasks).run (recordStored rt) schedule).forget =
      Pool.run (ServiceTask.advance rt) ⟨.empty, tasks⟩ schedule := fun schedule =>
    Pool.forget_run _ (recorderOf tasks) schedule
  have hhistory := history_run rt hbegin
  refine ⟨fun schedule => ?_, ?_⟩
  · rw [← hforget]
    exact ⟨_, hhistory schedule⟩
  intro earlier later i svc u outages headers preview result c hanswers hcedent hnamed hmissed
    hresult
  rw [← hforget] at hmissed hresult ⊢
  rw [← hforget]
  -- the upload is followed from the one moment to the other
  have hfollows : FollowsFrom rt svc u headers
      ((recorderOf tasks).run (recordStored rt) earlier).shared.2 outages
      ((recorderOf tasks).run (recordStored rt) earlier).shared
      (.upload svc u outages (.missed headers preview)) :=
    ⟨⟨(hhistory earlier).2, List.prefix_refl _⟩, _, rfl, rfl⟩
  obtain ⟨t, ht, _, phase, rfl, hphase⟩ := Pool.followed_run (recordStored rt)
    (followsFrom_own hanswers) followsFrom_others hmissed hfollows later
  have happend : ((recorderOf tasks).run (recordStored rt) earlier).run (recordStored rt) later =
      (recorderOf tasks).run (recordStored rt) (earlier ++ later) :=
    List.foldl_append.symm
  rw [happend] at ht hphase
  have hanswered : phase = .answered (.ok result) := by
    have hsame := ht.symm.trans hresult
    simpa using hsame
  subst hanswered
  obtain ⟨stores, preview', ⟨seen, ⟨hbefore, hafter⟩, hseen⟩, hmade⟩ := hphase
  refine ⟨_, seen, _, hhistory earlier, ⟨hbefore, hafter⟩, hhistory (earlier ++ later),
    fun h hmem target hlatest => ?_⟩
  obtain ⟨answer, _, hmapping⟩ := mapWithCorrections_ok hmade
  refine mapsOnly_of_made hmapping ?_
  rw [hcedent, correctionsFor_some hnamed hmem, hseen c h, hlatest]

/-- The first upload of `crossingTasks` misses before the correction of its
header is stored, and applies it. -/
theorem crossing_correction_applied :
    ∃ result : ProcessingResult, ∃ before seen after : List Correction,
      (before.Perm ((Pool.run (ServiceTask.advance .plain) ⟨.empty, crossingTasks⟩
          [0, 1, 0]).collect ServiceTask.stored) ∧
        HashesHold (Pool.run (ServiceTask.advance .plain) ⟨.empty, crossingTasks⟩
          [0, 1, 0]).shared before) ∧
      (before <+: seen ∧ seen <+: after) ∧
      (after.Perm ((Pool.run (ServiceTask.advance .plain) ⟨.empty, crossingTasks⟩
          ([0, 1, 0] ++ [1, 2, 0, 1, 0, 1, 0, 1])).collect ServiceTask.stored) ∧
        HashesHold (Pool.run (ServiceTask.advance .plain) ⟨.empty, crossingTasks⟩
          ([0, 1, 0] ++ [1, 2, 0, 1, 0, 1, 0, 1])).shared after) ∧
      ∀ h ∈ ["Policy No", "PRMA"], ∀ target, latestStored "ACME-RE" h seen = some target →
        MapsOnly result.mapping h target := by
  have hbegin : ∀ t ∈ crossingTasks, t.Begins := by
    intro t ht
    simp only [crossingTasks, List.mem_cons, List.not_mem_nil, or_false] at ht
    rcases ht with rfl | rfl | rfl
    · rfl
    · rfl
    · rfl
  exact ⟨_, (stored_corrections_applied .plain crossingTasks hbegin).2 [0, 1, 0]
    [1, 2, 0, 1, 0, 1, 0, 1] 0 premiumService acmeUpload {} ["Policy No", "PRMA"] [] _ "ACME-RE"
    rfl rfl (by decide) rfl rfl⟩

end RiskFlow
