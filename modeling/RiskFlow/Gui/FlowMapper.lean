import RiskFlow.Http.SessionEdits
import RiskFlow.Http.SessionShape

/-!
# FlowMapper — the dashboard's side of an interactive session

The Flow Mapper tab shows its own copy of a session: a select box for each
header, and buttons that send what the boxes show. Other clients may change
the session between two clicks, so the copy may be old; the fields it offers
are still there, and what a click saves or finalises is what was shown.
-/

namespace RiskFlow

open Lib

/-! ## The editor -/

/-- `UNMAPPED`. -/
def unmappedOption : String := "-- unmapped --"

/-- `options`. -/
def editorOptions (targetFields : List String) : List String :=
  unmappedOption :: Py.sorted targetFields

/-- `current_map`. -/
def currentMap (currentMappings : List ColumnMapping) : Dict String String :=
  .ofList (currentMappings.map fun m => (m.sourceHeader, m.targetField))

abbrev Confidence : Type := { q : ℚ // 0 ≤ q ∧ q ≤ 1 }

/-- `confidence_map`. -/
def confidenceMap (currentMappings : List ColumnMapping) : Dict String Confidence :=
  .ofList (currentMappings.map fun m => (m.sourceHeader, ⟨m.confidence, m.confidenceInRange⟩))

/-- `confidence_map.get(header, 1.0)`. -/
def currentConfidence (currentMappings : List ColumnMapping) (header : String) : Confidence :=
  ((confidenceMap currentMappings).get? header).getD ⟨1, ColumnMapping.certain⟩

/-- `options[default_idx]`, what a select box shows before it is touched. -/
def defaultOption (targetFields : List String) (currentMappings : List ColumnMapping)
    (header : String) : String :=
  let currentTarget := ((currentMap currentMappings).get? header).getD unmappedOption
  if currentTarget ∈ editorOptions targetFields then currentTarget else unmappedOption

/-- The option the user has picked in the select box of a header, if any. -/
abbrev Picks : Type := String → Option String

def untouched : Picks := fun _ => none

/-- `selected`; a select box offers nothing but its options. -/
def selected (targetFields : List String) (currentMappings : List ColumnMapping) (picks : Picks)
    (header : String) : String :=
  match picks header with
  | some option =>
      if option ∈ editorOptions targetFields then option
      else defaultOption targetFields currentMappings header
  | none => defaultOption targetFields currentMappings header

/-- The mapping that is sent for a header with this option. -/
def editedMapping (header option : String) (confidence : Confidence) : ColumnMapping :=
  ⟨header, option, confidence, confidence.2⟩

/-- One round of the loop over the headers. -/
def editorRound (targetFields : List String) (currentMappings : List ColumnMapping)
    (picks : Picks) (updated : List ColumnMapping × List String) (header : String) :
    List ColumnMapping × List String :=
  let option := selected targetFields currentMappings picks header
  if option = unmappedOption then (updated.1, updated.2 ++ [header])
  else
    (updated.1 ++ [editedMapping header option (currentConfidence currentMappings header)],
      updated.2)

/-- `_mapping_editor`. -/
def mappingEditor (sourceHeaders targetFields : List String)
    (currentMappings : List ColumnMapping) (picks : Picks) : List ColumnMapping × List String :=
  sourceHeaders.foldl (editorRound targetFields currentMappings picks) ([], [])

/-- What the editor makes of the session on the page. -/
def MappingSession.edited (data : MappingSession) (picks : Picks) :
    List ColumnMapping × List String :=
  mappingEditor data.sourceHeaders data.targetFields data.mappings picks

/-! ## What the editor returns -/

section Editor
variable {headers fields : List String} {current : List ColumnMapping} {picks : Picks}

theorem mappingEditor_eq (headers fields : List String) (current : List ColumnMapping)
    (picks : Picks) :
    mappingEditor headers fields current picks =
      ((headers.filter fun h => selected fields current picks h ≠ unmappedOption).map
          fun h => editedMapping h (selected fields current picks h) (currentConfidence current h),
        headers.filter fun h => selected fields current picks h = unmappedOption) := by
  have hrun : ∀ updated : List ColumnMapping × List String,
      headers.foldl (editorRound fields current picks) updated =
        (updated.1 ++
            (headers.filter fun h => selected fields current picks h ≠ unmappedOption).map fun h =>
              editedMapping h (selected fields current picks h) (currentConfidence current h),
          updated.2 ++
            headers.filter fun h => selected fields current picks h = unmappedOption) := by
    induction headers with
    | nil => simp
    | cons header rest ih =>
        intro updated
        rw [List.foldl_cons, ih, editorRound]
        by_cases hoption : selected fields current picks header = unmappedOption
        · simp [hoption]
        · simp [hoption]
  exact (hrun ([], [])).trans (by simp)

theorem defaultOption_offered (fields : List String) (current : List ColumnMapping)
    (header : String) : defaultOption fields current header ∈ editorOptions fields := by
  unfold defaultOption
  dsimp only
  split
  · rename_i hmem
    exact hmem
  · exact List.mem_cons_self

theorem selected_offered (fields : List String) (current : List ColumnMapping) (picks : Picks)
    (header : String) : selected fields current picks header ∈ editorOptions fields := by
  unfold selected
  split
  · split
    · rename_i hmem
      exact hmem
    · exact defaultOption_offered fields current header
  · exact defaultOption_offered fields current header

/-- Every header is in exactly one of the two lists, in the order of the file,
and every target is a field of the page. -/
structure EachHeaderOnce (headers fields : List String) (mappings : List ColumnMapping)
    (unmapped : List String) : Prop where
  mapped_order : (mappings.map ColumnMapping.sourceHeader).Sublist headers
  unmapped_order : unmapped.Sublist headers
  once : (mappings.map ColumnMapping.sourceHeader ++ unmapped).Perm headers
  known : ∀ m ∈ mappings, m.targetField ∈ fields

theorem mapped_headers (headers fields : List String) (current : List ColumnMapping)
    (picks : Picks) :
    (mappingEditor headers fields current picks).1.map ColumnMapping.sourceHeader =
      headers.filter fun h => selected fields current picks h ≠ unmappedOption := by
  rw [mappingEditor_eq]
  show List.map _ (List.map _ _) = _
  rw [List.map_map]
  exact List.map_id _

/-- **The editor accounts for every header.** -/
theorem mappingEditor_once (headers fields : List String) (current : List ColumnMapping)
    (picks : Picks) :
    EachHeaderOnce headers fields (mappingEditor headers fields current picks).1
      (mappingEditor headers fields current picks).2 := by
  refine ⟨?_, ?_, ?_, ?_⟩
  · rw [mapped_headers]
    exact List.filter_sublist
  · rw [mappingEditor_eq]
    exact List.filter_sublist
  · rw [mapped_headers, mappingEditor_eq]
    have hsplit := List.filter_append_perm
      (fun h => decide (selected fields current picks h ≠ unmappedOption)) headers
    simpa using hsplit
  · intro m hm
    rw [mappingEditor_eq] at hm
    obtain ⟨header, hheader, rfl⟩ := List.mem_map.mp hm
    have hoption := (List.mem_filter.mp hheader).2
    have hoffered := selected_offered fields current picks header
    rcases List.mem_cons.mp hoffered with hnone | hfield
    · simp [hnone] at hoption
    · exact Py.mem_sorted.mp hfield

/-- What is read back of mappings with a header each. -/
theorem get?_ofMappings {α : Type} {mappings : List ColumnMapping} (f : ColumnMapping → α)
    (hnodup : (mappings.map ColumnMapping.sourceHeader).Nodup) {m : ColumnMapping}
    (hm : m ∈ mappings) (header : String) (hheader : m.sourceHeader = header) :
    (Dict.ofList (mappings.map fun m => (m.sourceHeader, f m))).get? header = some (f m) := by
  subst hheader
  rw [Dict.get?_eq_some, Dict.ofList_entries (by rw [List.map_map]; exact hnodup)]
  exact List.mem_map_of_mem hm

/-- **The editor shows what it has saved**: on the saved mappings, with at
least the fields it had, untouched boxes give the same lists again. -/
theorem mappingEditor_saved (hnodup : headers.Nodup) {fields' : List String}
    (hfields : ∀ f ∈ fields, f ∈ fields') :
    mappingEditor headers fields' (mappingEditor headers fields current picks).1 untouched =
      mappingEditor headers fields current picks := by
  have honce := mappingEditor_once headers fields current picks
  have hkeys := honce.mapped_order.nodup hnodup
  generalize hsaved : (mappingEditor headers fields current picks).1 = saved at honce hkeys
  have hmem : ∀ header ∈ headers, selected fields current picks header ≠ unmappedOption →
      editedMapping header (selected fields current picks header)
        (currentConfidence current header) ∈ saved := by
    intro header hheader hoption
    rw [← hsaved, mappingEditor_eq]
    exact List.mem_map_of_mem (List.mem_filter.mpr ⟨hheader, by simpa using hoption⟩)
  -- an untouched box shows what was selected
  have hshown : ∀ header ∈ headers,
      selected fields' saved untouched header = selected fields current picks header := by
    intro header hheader
    show defaultOption fields' saved header = _
    unfold defaultOption currentMap
    by_cases hoption : selected fields current picks header = unmappedOption
    · have hfree : header ∉ saved.map ColumnMapping.sourceHeader := by
        rw [← hsaved, mapped_headers, List.mem_filter]
        simp [hoption]
      have hnone : (Dict.ofList (saved.map fun m => (m.sourceHeader, m.targetField))).get? header =
          none := by
        rw [Dict.get?_eq_none, Dict.mem_keys_ofList, List.map_map]
        exact hfree
      simp [hnone, hoption]
    · have hm := hmem header hheader hoption
      have hoffered : selected fields current picks header ∈ editorOptions fields' :=
        List.mem_cons_of_mem _ (Py.mem_sorted.mpr (hfields _ (honce.known _ hm)))
      have hget := get?_ofMappings ColumnMapping.targetField hkeys hm header rfl
      rw [hget]
      exact if_pos hoffered
  rw [mappingEditor_eq, mappingEditor_eq headers fields current picks]
  have hmapped : (headers.filter fun h => selected fields' saved untouched h ≠ unmappedOption) =
      headers.filter fun h => selected fields current picks h ≠ unmappedOption :=
    List.filter_congr fun h hh => by rw [hshown h hh]
  have hunmapped : (headers.filter fun h => selected fields' saved untouched h = unmappedOption) =
      headers.filter fun h => selected fields current picks h = unmappedOption :=
    List.filter_congr fun h hh => by rw [hshown h hh]
  rw [hmapped, hunmapped]
  refine Prod.ext (List.map_congr_left fun header hheader => ?_) rfl
  obtain ⟨hheader, hoption⟩ := List.mem_filter.mp hheader
  have hconfidence : currentConfidence saved header = currentConfidence current header := by
    have hm := hmem header hheader (by simpa using hoption)
    have hget := get?_ofMappings (fun m => (⟨m.confidence, m.confidenceInRange⟩ : Confidence))
      hkeys hm header rfl
    exact congrArg (fun found => Option.getD found ⟨1, ColumnMapping.certain⟩) hget
  rw [hshown header hheader, hconfidence]

end Editor

/-! ## The tab -/

inductive FlowStep where
  | upload
  | review
  | results
  deriving DecidableEq

/-- The members of `st.session_state` that the tab keeps, but for the id of its
session, a parameter below. -/
structure FlowState where
  step : FlowStep
  sessionData : Option MappingSession
  customFieldTypes : Dict String FieldType

/-- What `_reset_flow_session` sets. -/
def FlowState.reset : FlowState := ⟨.upload, none, ∅⟩

/-- The review page of a new session. -/
def FlowState.opened (session : MappingSession) : FlowState := ⟨.review, some session, ∅⟩

/-- What a request is answered with, and the world it leaves, when no other
handler runs at the same time. -/
def answerAlone (env : SessionEnv) (sessionId : String) (w : SessionWorld) (r : SessionRequest) :
    Except HttpException (Option MappingSession) × SessionWorld :=
  let served := serveAlone env sessionId w r
  match served.tasks with
  | [⟨_, .answered answer⟩] => (answer, served.shared)
  | _ => (.error unhandled, served.shared)

/-- What the user does on the page, or others do to the session meanwhile:
`between` are their requests between the two requests of one click. -/
inductive FlowEvent where
  | save (picks : Picks)
  | addField (name : String) (type : FieldType)
  | finalise (picks : Picks) (between : List SessionRequest)
  | startOver
  | others (request : SessionRequest)
  | expired

section Flow
variable (env : SessionEnv) (sessionId : String)

/-- `client.update_mappings` with what the editor returns. -/
def sendEdited (w : SessionWorld) (data : MappingSession) (picks : Picks) :
    Except HttpException (Option MappingSession) × SessionWorld :=
  answerAlone env sessionId w
    (.edit (.putMappings (data.edited picks).1 (data.edited picks).2))

/-- "Save Changes". An error is shown and changes nothing on the page. -/
def saveClick (w : SessionWorld) (flow : FlowState) (data : MappingSession) (picks : Picks) :
    SessionWorld × FlowState :=
  match sendEdited env sessionId w data picks with
  | (.ok updated, w') => (w', { flow with sessionData := updated })
  | (.error _, w') => (w', flow)

/-- "Add Field". The type is kept before the request is sent. -/
def addFieldClick (w : SessionWorld) (flow : FlowState) (data : MappingSession) (name : String)
    (type : FieldType) : SessionWorld × FlowState :=
  if Py.isBlank name ∨ name ∈ data.targetFields then (w, flow)
  else
    let flow := { flow with customFieldTypes := flow.customFieldTypes.set name type }
    match answerAlone env sessionId w (.edit (.patchTargetFields [name])) with
    | (.ok updated, w') => (w', { flow with sessionData := updated })
    | (.error _, w') => (w', flow)

/-- "Finalise": the edits are saved first, and only then is it finalised. -/
def finaliseClick (w : SessionWorld) (flow : FlowState) (data : MappingSession) (picks : Picks)
    (between : List SessionRequest) : SessionWorld × FlowState :=
  match sendEdited env sessionId w data picks with
  | (.error _, w') => (w', flow)
  | (.ok _, w') =>
      match answerAlone env sessionId (between.foldl (afterAlone env sessionId) w')
          (.edit .finalise) with
      | (.ok result, w'') => (w'', { flow with sessionData := result, step := .results })
      | (.error _, w'') => (w'', flow)

/-- One event, on the review page of this session or elsewhere. -/
def flowStep (s : SessionWorld × FlowState) (event : FlowEvent) : SessionWorld × FlowState :=
  match event, s.2.step, s.2.sessionData with
  | .others request, _, _ => (afterAlone env sessionId s.1 request, s.2)
  | .expired, _, _ =>
      ({ s.1 with store := RedisMappingSessionStore.delete s.1.store sessionId }, s.2)
  | .startOver, .upload, _ => s
  | .startOver, _, _ => ((answerAlone env sessionId s.1 .delete).2, .reset)
  | .save picks, .review, some data => saveClick env sessionId s.1 s.2 data picks
  | .addField name type, .review, some data => addFieldClick env sessionId s.1 s.2 data name type
  | .finalise picks between, .review, some data =>
      finaliseClick env sessionId s.1 s.2 data picks between
  | _, _, _ => s

def flowRun (s : SessionWorld × FlowState) (events : List FlowEvent) : SessionWorld × FlowState :=
  events.foldl (flowStep env sessionId) s

end Flow

/-! ## Requests served alone -/

section Alone
variable (env : SessionEnv) (sessionId : String) (w : SessionWorld)

theorem answerAlone_world (r : SessionRequest) :
    (answerAlone env sessionId w r).2 = afterAlone env sessionId w r := by
  unfold answerAlone afterAlone
  dsimp only
  split
  · rfl
  · rfl

/-- **An edit is answered with the session it saves**, or refused. -/
theorem answerAlone_edit (e : SessionEdit) :
    (∃ stored session, RedisMappingSessionStore.get w.store sessionId = some stored ∧
        e.apply env w.files stored = .ok session ∧
        answerAlone env sessionId w (.edit e) =
          (.ok (some session), { w with store := RedisMappingSessionStore.save w.store session })) ∨
      ∃ err, answerAlone env sessionId w (.edit e) = (.error err, w) ∧
        ∀ stored, RedisMappingSessionStore.get w.store sessionId = some stored →
          e.apply env w.files stored = .error err := by
  cases hget : RedisMappingSessionStore.get w.store sessionId with
  | none =>
      right
      refine ⟨sessionNotFound, ?_, fun stored h => by cases h⟩
      simp [answerAlone, serveAlone, SessionTask.begin, SessionTask.advance, hget]
  | some stored =>
      cases happly : e.apply env w.files stored with
      | error err =>
          right
          refine ⟨err, ?_, fun stored h => by cases h; exact happly⟩
          simp [answerAlone, serveAlone, SessionTask.begin, SessionTask.advance, hget, happly]
      | ok session =>
          left
          refine ⟨stored, session, rfl, happly, ?_⟩
          simp [answerAlone, serveAlone, SessionTask.begin, SessionTask.advance, hget, happly]

end Alone

end RiskFlow
