import RiskFlow.Http.Corrections

/-!
# CorrectionBatches — what a refused batch of corrections leaves stored

`submit_corrections` checks an item when its turn comes, after the items
before it have been stored. A batch without a bad item stores the last
target of each header; of a batch with one the items in front of it stay.
-/

namespace RiskFlow

open Lib MappingService RedisCorrectionCache

/-- The item is a correction to a field of the schema. -/
def CorrectionItem.Valid (svc : MappingService) (item : CorrectionItem) : Prop :=
  Py.isBlank item.sourceHeader = false ∧ Py.isBlank item.targetField = false ∧
    item.targetField ∈ svc.schema.fieldNames

instance (svc : MappingService) : DecidablePred (CorrectionItem.Valid svc) := fun _ =>
  inferInstanceAs (Decidable (_ ∧ _ ∧ _))

/-- The items in front of the first that is not valid. -/
def validPrefix (svc : MappingService) (items : List CorrectionItem) : List CorrectionItem :=
  items.takeWhile fun item => decide (item.Valid svc)

/-- The last target the items have for a header. -/
def lastTarget (items : List CorrectionItem) (header : String) : Option String :=
  (items.reverse.find? fun item => item.sourceHeader == header).map CorrectionItem.targetField

/-- The stored target of a header, the same for an absent hash and an empty one. -/
def storedTarget (stores : Stores) (cedentId header : String) : Option String :=
  (hashOf stores cedentId).get? header

/-! ## One request -/

theorem lastTarget_cons (item : CorrectionItem) (rest : List CorrectionItem) (header : String) :
    lastTarget (item :: rest) header = (lastTarget rest header).or
      (if item.sourceHeader = header then some item.targetField else none) := by
  simp only [lastTarget, List.reverse_cons, List.find?_append, Option.map_or]
  congr 1
  by_cases h : item.sourceHeader = header <;> simp [h]

/-- The headers of the items are those with a last target. -/
theorem lastTarget_isSome_iff {items : List CorrectionItem} {header : String} :
    (lastTarget items header).isSome ↔ ∃ item ∈ items, item.sourceHeader = header := by
  simp [lastTarget]

section Submit
variable {rt : Runtime} {svc : MappingService} {cedentId : String}

/-- A valid item is stored and the loop goes on. -/
theorem submitItems_valid (hcedent : Py.isBlank cedentId = false) {item : CorrectionItem}
    (h : item.Valid svc) (rest : List CorrectionItem) (stores : Stores) :
    ∃ k : Correction, k.cedentId = cedentId ∧ k.sourceHeader = item.sourceHeader ∧
      k.targetField = item.targetField ∧
      submitItems rt svc cedentId (item :: rest) stores =
        submitItems rt svc cedentId rest (setCorrection stores k) := by
  obtain ⟨hheader, htarget, hfield⟩ := h
  refine ⟨⟨cedentId, item.sourceHeader, item.targetField, hcedent, hheader, htarget⟩,
    rfl, rfl, rfl, ?_⟩
  have hbuild : Py.isBlank cedentId = false ∧ Py.isBlank item.sourceHeader = false ∧
      Py.isBlank item.targetField = false := ⟨hcedent, hheader, htarget⟩
  simp only [submitItems, Correction.build, dif_pos hbuild]
  rw [storeCorrection_of_mem hfield]

/-- An item that is not ends the loop with nothing more stored. -/
theorem submitItems_invalid {item : CorrectionItem} (h : ¬ item.Valid svc)
    (rest : List CorrectionItem) (stores : Stores) :
    ∃ e, submitItems rt svc cedentId (item :: rest) stores = (.error e, stores) := by
  rw [submitItems]
  cases hbuild : Correction.build cedentId item.sourceHeader item.targetField with
  | error e => exact ⟨_, rfl⟩
  | ok k =>
      obtain ⟨_, hheader, htarget⟩ := Correction.build_ok hbuild
      have hfield : k.targetField ∉ svc.schema.fieldNames := fun hmem =>
        h ⟨hheader ▸ k.sourceHeaderNotEmpty, htarget ▸ k.targetFieldNotEmpty, htarget ▸ hmem⟩
      obtain ⟨e, he⟩ := storeCorrection_of_not_mem stores hfield
      dsimp only
      rw [he]
      exact ⟨_, rfl⟩

/-- **What the loop stores**: the last targets of the valid items in front. -/
theorem submitItems_storedTarget (hcedent : Py.isBlank cedentId = false)
    (items : List CorrectionItem) (stores : Stores) (c header : String) :
    storedTarget (submitItems rt svc cedentId items stores).2 c header =
      (if c = cedentId then lastTarget (validPrefix svc items) header else none).or
        (storedTarget stores c header) := by
  induction items generalizing stores with
  | nil => simp [submitItems, validPrefix, lastTarget]
  | cons item rest ih =>
      by_cases hvalid : item.Valid svc
      · obtain ⟨k, hc, hh, ht, hstep⟩ := @submitItems_valid rt svc _ hcedent _ hvalid rest stores
        have hprefix : validPrefix svc (item :: rest) = item :: validPrefix svc rest := by
          simp [validPrefix, hvalid]
        have hset : storedTarget (setCorrection stores k) c header =
            if c = cedentId ∧ item.sourceHeader = header then some item.targetField
            else storedTarget stores c header := by
          rw [storedTarget, hashOf_setCorrection, hc, hh, ht]
          by_cases hcc : c = cedentId
          · simp [hcc, Dict.get?_set, storedTarget]
          · simp [hcc, Ne.symm hcc, storedTarget]
        rw [hstep, ih, hprefix, hset]
        by_cases hcc : c = cedentId
        · rw [if_pos hcc, if_pos hcc, lastTarget_cons, Option.or_assoc]
          by_cases hhead : item.sourceHeader = header <;> simp [hcc, hhead]
        · simp [hcc]
      · obtain ⟨e, he⟩ := @submitItems_invalid rt svc cedentId _ hvalid rest stores
        simp [he, validPrefix, hvalid, lastTarget]

theorem submitItems_ok_iff (hcedent : Py.isBlank cedentId = false) (items : List CorrectionItem)
    (stores : Stores) :
    (submitItems rt svc cedentId items stores).1 = .ok () ↔ ∀ item ∈ items, item.Valid svc := by
  induction items generalizing stores with
  | nil => simp [submitItems]
  | cons item rest ih =>
      by_cases hvalid : item.Valid svc
      · obtain ⟨k, _, _, _, hstep⟩ := @submitItems_valid rt svc _ hcedent _ hvalid rest stores
        rw [hstep, ih]
        simp [hvalid]
      · obtain ⟨e, he⟩ := @submitItems_invalid rt svc cedentId _ hvalid rest stores
        simp [he, hvalid]

end Submit

/-! ## All or nothing -/

/-- A refused request leaves every entry as it was; an accepted one stores the
last target of each header for its cedent and leaves the other entries. -/
def AllOrNothing (before : Stores) (request : CorrectionRequest)
    (answer : Except HttpException Nat × Stores) : Prop :=
  match answer.1 with
  | .error _ => ∀ c header, storedTarget answer.2 c header = storedTarget before c header
  | .ok _ => ∀ c header, storedTarget answer.2 c header =
      (if c = request.cedentId then lastTarget request.corrections header else none).or
        (storedTarget before c header)

/-- No item of the request is refused, or the entries that the items in front of
the refused one write are there already. -/
def WritesNothingPartial (svc : MappingService) (stores : Stores) (request : CorrectionRequest) :
    Prop :=
  (∀ item ∈ request.corrections, item.Valid svc) ∨
    ∀ item ∈ validPrefix svc request.corrections,
      storedTarget stores request.cedentId item.sourceHeader =
        lastTarget (validPrefix svc request.corrections) item.sourceHeader

/-- **When a batch of corrections is all or nothing.** -/
theorem corrections_all_or_nothing_iff (rt : Runtime) (svc : MappingService) (stores : Stores)
    (request : CorrectionRequest) :
    AllOrNothing stores request (submitCorrections rt svc stores request) ↔
      Py.isBlank request.cedentId = true ∨ WritesNothingPartial svc stores request := by
  unfold submitCorrections
  by_cases hblank : Py.isBlank request.cedentId = true
  · rw [if_pos hblank]
    exact iff_of_true (fun _ _ => rfl) (.inl hblank)
  rw [if_neg hblank, or_iff_right hblank]
  have hcedent : Py.isBlank request.cedentId = false := by simpa using hblank
  by_cases hempty : request.corrections.isEmpty = true
  · rw [if_pos hempty]
    refine iff_of_true (fun _ _ => rfl) (.inl ?_)
    simp [List.isEmpty_iff.mp hempty]
  rw [if_neg hempty]
  have hstored := @submitItems_storedTarget rt svc _ hcedent request.corrections stores
  have hok := @submitItems_ok_iff rt svc _ hcedent request.corrections stores
  cases hrun : submitItems rt svc request.cedentId request.corrections stores with
  | mk outcome after =>
      rw [hrun] at hstored hok
      cases outcome with
      | ok u =>
          have hvalid := hok.mp rfl
          have hall : validPrefix svc request.corrections = request.corrections :=
            List.takeWhile_eq_self_iff.mpr fun item hitem => by simpa using hvalid item hitem
          rw [hall] at hstored
          exact iff_of_true hstored (.inl hvalid)
      | error e =>
          have hinvalid : ¬ ∀ item ∈ request.corrections, item.Valid svc := fun hvalid => by
            cases hok.mpr hvalid
          rw [WritesNothingPartial, or_iff_right hinvalid]
          constructor
          · intro hsame item hitem
            obtain ⟨target, htarget⟩ := Option.isSome_iff_exists.mp
              (lastTarget_isSome_iff.mpr ⟨item, hitem, rfl⟩)
            rw [← hsame request.cedentId item.sourceHeader, hstored, if_pos rfl, htarget]
            rfl
          · intro hpresent c header
            refine (hstored c header).trans ?_
            by_cases hc : c = request.cedentId
            · rw [if_pos hc]
              cases hlast : lastTarget (validPrefix svc request.corrections) header with
              | none => rfl
              | some target =>
                  obtain ⟨item, hitem, rfl⟩ := lastTarget_isSome_iff.mp
                    (Option.isSome_iff_exists.mpr ⟨target, hlast⟩)
                  rw [hc, hpresent item hitem, hlast]
                  rfl
            · rw [if_neg hc]
              rfl

/-! ### A batch with a typing error -/

/-- ACME-RE corrects two headers; the second target is not spelled as the field. -/
def misspelledBatch : CorrectionRequest where
  cedentId := "ACME-RE"
  corrections := [⟨"GWP", "Gross_Premium"⟩, ⟨"Policy", "Policy_Id"⟩]

/-- The batch is answered with an error, and the first correction is stored. -/
theorem refused_batch_stored_in_part :
    (∃ e, (submitCorrections .plain premiumService .empty misspelledBatch).1 = .error e ∧
        e.statusCode = 422) ∧
      ¬ AllOrNothing .empty misspelledBatch
        (submitCorrections .plain premiumService .empty misspelledBatch) := by
  refine ⟨⟨_, rfl, rfl⟩, fun h => ?_⟩
  exact absurd (h "ACME-RE" "GWP") (by decide)

end RiskFlow
