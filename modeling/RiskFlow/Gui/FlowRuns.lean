import RiskFlow.Gui.FlowMapper

/-!
# FlowRuns — what is shown is what is saved

From the creation of a session on, whatever the user clicks and other
clients send between the clicks: the page's headers are the session's and
the fields it offers are still there. So a click is refused for nothing the
page could not show, and what it saves or validates is what the page shows
from then on.
-/

namespace RiskFlow

open Lib

/-! ## One session -/

section Requests
variable {env : SessionEnv} {sessionId : String} {w : SessionWorld}

theorem apply_sourceHeaders {e : SessionEdit} {files : Files} {copy session : MappingSession}
    (h : e.apply env files copy = .ok session) : session.sourceHeaders = copy.sourceHeaders := by
  cases e with
  | putMappings mappings unmapped =>
      obtain ⟨_, rfl⟩ := MappingSession.updateMappings_ok (updateSessionMappings_ok h)
      rfl
  | patchTargetFields fields =>
      obtain ⟨_, rfl⟩ := MappingSession.extendTargetFields_ok (extendSessionFields_ok h)
      rfl
  | finalise =>
      obtain ⟨result, hf⟩ := finaliseSession_ok h
      obtain ⟨_, rfl⟩ := MappingSession.finalise_ok hf
      rfl

/-- The session in the store is one of this file with at least these fields. -/
def Offers (sessionId : String) (headers fields : List String) (w : SessionWorld) : Prop :=
  ∀ session, RedisMappingSessionStore.get w.store sessionId = some session →
    session.id = sessionId ∧ session.sourceHeaders = headers ∧
      ∀ f ∈ fields, f ∈ session.targetFields

theorem Offers.save {headers fields : List String} {session : MappingSession}
    (hid : session.id = sessionId) (hheaders : session.sourceHeaders = headers)
    (hfields : ∀ f ∈ fields, f ∈ session.targetFields) :
    Offers sessionId headers fields
      { w with store := RedisMappingSessionStore.save w.store session } := by
  intro s hs
  rw [get_save_keyed hid] at hs
  cases hs
  exact ⟨hid, hheaders, hfields⟩

theorem Offers.deleted {headers fields : List String} (h : Offers sessionId headers fields w)
    {w' : SessionWorld}
    (hw : w'.store = w.store ∨ w'.store = RedisMappingSessionStore.delete w.store sessionId) :
    Offers sessionId headers fields w' := by
  intro s hs
  rcases hw with hw | hw
  · rw [hw] at hs
    exact h s hs
  · rw [hw, RedisMappingSessionStore.get_delete] at hs
    cases hs

/-- **No request takes a field away**, or changes the headers. -/
theorem Offers.alone {headers fields : List String} (h : Offers sessionId headers fields w)
    (r : SessionRequest) : Offers sessionId headers fields (afterAlone env sessionId w r) := by
  cases r with
  | edit e =>
      rcases afterAlone_edit_cases env sessionId w e with
        hsame | ⟨stored, session, hget, happly, hsaved⟩
      · rw [hsame]
        exact h
      · rw [hsaved]
        obtain ⟨hid, hheaders, hfields⟩ := h stored hget
        exact .save ((SessionEdit.apply_ok happly).2.trans hid)
          ((apply_sourceHeaders happly).trans hheaders)
          fun f hf => (apply_targetFields happly).1 f (hfields f hf)
  | delete =>
      refine h.deleted ?_
      cases hget : RedisMappingSessionStore.get w.store sessionId with
      | none =>
          left
          simp [afterAlone, serveAlone, SessionTask.begin, SessionTask.advance, hget]
      | some stored => exact .inr (alone_delete hget).1

theorem Offers.requests {headers fields : List String} (h : Offers sessionId headers fields w)
    (rs : List SessionRequest) :
    Offers sessionId headers fields (rs.foldl (afterAlone env sessionId) w) := by
  induction rs generalizing w with
  | nil => exact h
  | cons r rest ih => exact ih (h.alone r)

end Requests

/-! ## The page and the session -/

/-- The page is about this file, and the session has every field it offers. -/
def PageFits (sessionId : String) (headers : List String) (s : SessionWorld × FlowState) : Prop :=
  Offers sessionId headers [] s.1 ∧
    ∀ data, s.2.sessionData = some data →
      data.sourceHeaders = headers ∧ Offers sessionId headers data.targetFields s.1

section Page
variable {env : SessionEnv} {sessionId : String} {headers : List String}
variable {w : SessionWorld} {flow : FlowState} {data : MappingSession}

/-- The page takes over what a request was answered with. -/
theorem pageFits_answered (h : Offers sessionId headers [] w) {e : SessionEdit}
    {updated : Option MappingSession} {w' : SessionWorld}
    (hanswer : answerAlone env sessionId w (.edit e) = (.ok updated, w'))
    (hflow : flow.sessionData = updated) : PageFits sessionId headers (w', flow) := by
  rcases answerAlone_edit env sessionId w e with
    ⟨stored, session, hget, happly, heq⟩ | ⟨err, heq, _⟩
  · rw [hanswer] at heq
    cases heq
    obtain ⟨hid, hheaders, _⟩ := h stored hget
    have hid' := (SessionEdit.apply_ok happly).2.trans hid
    have hheaders' := (apply_sourceHeaders happly).trans hheaders
    refine ⟨.save hid' hheaders' (by simp), fun data hdata => ?_⟩
    rw [hflow] at hdata
    cases hdata
    exact ⟨hheaders', .save hid' hheaders' fun f hf => hf⟩
  · rw [hanswer] at heq
    cases heq

theorem pageFits_world (h : PageFits sessionId headers (w, flow)) {w' : SessionWorld}
    {flow' : FlowState} (hdata : flow'.sessionData = flow.sessionData)
    (hworld : ∀ fields, Offers sessionId headers fields w →
      Offers sessionId headers fields w') : PageFits sessionId headers (w', flow') := by
  refine ⟨hworld _ h.1, fun data hpage => ?_⟩
  rw [hdata] at hpage
  obtain ⟨hheaders, hoffers⟩ := h.2 data hpage
  exact ⟨hheaders, hworld _ hoffers⟩

theorem offers_answerAlone {r : SessionRequest}
    {answer : Except HttpException (Option MappingSession)} {w' : SessionWorld}
    (h : answerAlone env sessionId w r = (answer, w')) (fields : List String)
    (ho : Offers sessionId headers fields w) : Offers sessionId headers fields w' := by
  have hworld := answerAlone_world env sessionId w r
  rw [h] at hworld
  dsimp only at hworld
  rw [hworld]
  exact ho.alone r

theorem pageFits_save (h : PageFits sessionId headers (w, flow)) (picks : Picks) :
    PageFits sessionId headers (saveClick env sessionId w flow data picks) := by
  unfold saveClick
  split
  · rename_i updated w' hanswer
    exact pageFits_answered h.1 hanswer rfl
  · rename_i err w' hanswer
    exact pageFits_world h rfl (offers_answerAlone hanswer)

theorem pageFits_addField (h : PageFits sessionId headers (w, flow)) (name : String)
    (type : FieldType) :
    PageFits sessionId headers (addFieldClick env sessionId w flow data name type) := by
  unfold addFieldClick
  split
  · exact h
  · dsimp only
    split
    · rename_i updated w' hanswer
      exact pageFits_answered h.1 hanswer rfl
    · rename_i err w' hanswer
      exact pageFits_world h rfl (offers_answerAlone hanswer)

theorem pageFits_finalise (h : PageFits sessionId headers (w, flow)) (picks : Picks)
    (between : List SessionRequest) :
    PageFits sessionId headers (finaliseClick env sessionId w flow data picks between) := by
  unfold finaliseClick
  split
  · rename_i err w' hanswer
    exact pageFits_world h rfl (offers_answerAlone hanswer)
  · rename_i body w' hanswer
    have hbetween : ∀ fields, Offers sessionId headers fields w →
        Offers sessionId headers fields (between.foldl (afterAlone env sessionId) w') :=
      fun fields ho => (offers_answerAlone hanswer fields ho).requests between
    split
    · rename_i result w'' hfinal
      exact pageFits_answered (hbetween [] h.1) hfinal rfl
    · rename_i err w'' hfinal
      exact pageFits_world h rfl fun fields ho =>
        offers_answerAlone hfinal fields (hbetween fields ho)

/-- **Every event keeps the page fit.** -/
theorem pageFits_step {s : SessionWorld × FlowState} (h : PageFits sessionId headers s)
    (event : FlowEvent) : PageFits sessionId headers (flowStep env sessionId s event) := by
  obtain ⟨w, flow⟩ := s
  unfold flowStep
  split
  · rename_i request
    exact pageFits_world h rfl fun fields ho => ho.alone request
  · exact pageFits_world h rfl fun fields ho => ho.deleted (.inr rfl)
  · exact h
  · refine ⟨?_, fun data hdata => by cases hdata⟩
    exact offers_answerAlone rfl [] h.1
  · rename_i picks data _ _
    exact pageFits_save h picks
  · rename_i name type data _ _
    exact pageFits_addField h name type
  · rename_i picks between data _ _
    exact pageFits_finalise h picks between
  · exact h

theorem pageFits_run {s : SessionWorld × FlowState} (h : PageFits sessionId headers s)
    (events : List FlowEvent) : PageFits sessionId headers (flowRun env sessionId s events) := by
  induction events generalizing s with
  | nil => exact h
  | cons event rest ih => exact ih (pageFits_step h event)

end Page

/-! ## Clicks -/

section Clicks
variable {env : SessionEnv} {sessionId : String} {headers : List String}
variable {w : SessionWorld} {flow : FlowState} {data : MappingSession}

/-- An update that passes its checks is made. -/
theorem updateMappings_of {s : MappingSession} {mappings : List ColumnMapping}
    (unmapped : List String) (hstatus : s.status = .created)
    (hknown : ∀ m ∈ mappings, m.targetField ∈ s.targetFields)
    (hnodup : (mappings.map ColumnMapping.targetField).Nodup) :
    s.updateMappings mappings unmapped = .ok { s with mappings, unmappedHeaders := unmapped } := by
  have hfound : (mappings.find? fun m => m.targetField ∉ s.targetFields) = none := by
    rw [List.find?_eq_none]
    intro m hm
    simpa using hknown m hm
  unfold MappingSession.updateMappings
  rw [if_neg (by rw [hstatus]; exact nofun), hfound]
  simp [duplicateTargets_eq_nil.mpr hnodup]

/-- **When a save is accepted.** The fields of an old page are still there, so
only a session that is gone or finalised refuses it, or a field chosen twice. -/
theorem sendEdited_ok_iff (hfit : Offers sessionId headers data.targetFields w) (picks : Picks) :
    (∃ body, (sendEdited env sessionId w data picks).1 = .ok body) ↔
      (∃ stored, RedisMappingSessionStore.get w.store sessionId = some stored ∧
        stored.status = .created) ∧
      ((data.edited picks).1.map ColumnMapping.targetField).Nodup := by
  have honce : EachHeaderOnce data.sourceHeaders data.targetFields (data.edited picks).1
      (data.edited picks).2 := mappingEditor_once _ _ _ _
  unfold sendEdited
  constructor
  · intro ⟨body, hbody⟩
    rcases answerAlone_edit env sessionId w
      (.putMappings (data.edited picks).1 (data.edited picks).2) with
      ⟨stored, session, hget, happly, _⟩ | ⟨err, heq, _⟩
    · obtain ⟨hstatus, _, hnodup, _⟩ :=
        MappingSession.updateMappings_passed (updateSessionMappings_ok happly)
      exact ⟨⟨stored, hget, hstatus⟩, hnodup⟩
    · rw [heq] at hbody
      cases hbody
  · intro ⟨⟨stored, hget, hstatus⟩, hnodup⟩
    obtain ⟨_, _, hfields⟩ := hfit stored hget
    have hupdate := updateMappings_of (data.edited picks).2 hstatus
      (fun m hm => hfields _ (honce.known m hm)) hnodup
    rcases answerAlone_edit env sessionId w
      (.putMappings (data.edited picks).1 (data.edited picks).2) with
      ⟨stored', session, _, _, heq⟩ | ⟨err, _, hrefused⟩
    · exact ⟨some session, by rw [heq]⟩
    · have happly := hrefused stored hget
      simp only [SessionEdit.apply, updateSessionMappings, hupdate] at happly
      cases happly

/-- What an accepted save leaves: the session with the edited mappings, in the
store and as the answer. -/
theorem sendEdited_ok {picks : Picks} {body : Option MappingSession} {w' : SessionWorld}
    (h : sendEdited env sessionId w data picks = (.ok body, w')) :
    ∃ stored saved, RedisMappingSessionStore.get w.store sessionId = some stored ∧
      saved = { stored with
        mappings := (data.edited picks).1, unmappedHeaders := (data.edited picks).2 } ∧
      body = some saved ∧
      w' = { w with store := RedisMappingSessionStore.save w.store saved } := by
  unfold sendEdited at h
  rcases answerAlone_edit env sessionId w
    (.putMappings (data.edited picks).1 (data.edited picks).2) with
    ⟨stored, session, hget, happly, heq⟩ | ⟨err, heq, _⟩
  · obtain ⟨_, rfl⟩ := MappingSession.updateMappings_ok (updateSessionMappings_ok happly)
    rw [h] at heq
    cases heq
    exact ⟨stored, _, hget, rfl, rfl, rfl⟩
  · rw [h] at heq
    cases heq

/-- **A saved page shows what it saved.** -/
theorem saveClick_shows (hfit : PageFits sessionId headers (w, flow))
    (hdata : flow.sessionData = some data) (hnodup : headers.Nodup) {picks : Picks}
    {body : Option MappingSession} (hok : (sendEdited env sessionId w data picks).1 = .ok body) :
    ∃ page, (saveClick env sessionId w flow data picks).2 = { flow with sessionData := some page } ∧
      RedisMappingSessionStore.get (saveClick env sessionId w flow data picks).1.store sessionId =
        some page.stored ∧
      (page.mappings, page.unmappedHeaders) = data.edited picks ∧
      page.edited untouched = data.edited picks := by
  obtain ⟨hheaders, hoffers⟩ := hfit.2 data hdata
  have hsent : sendEdited env sessionId w data picks =
      (.ok body, (sendEdited env sessionId w data picks).2) := Prod.ext hok rfl
  obtain ⟨stored, saved, hget, hsaved, rfl, hworld⟩ := sendEdited_ok hsent
  obtain ⟨hid, hstored, hfields⟩ := hoffers stored hget
  have hid' : saved.id = sessionId := by
    rw [hsaved]
    exact hid
  have hclick : saveClick env sessionId w flow data picks =
      ((sendEdited env sessionId w data picks).2, { flow with sessionData := some saved }) := by
    unfold saveClick
    rw [hsent]
  refine ⟨saved, by rw [hclick], ?_, by rw [hsaved], ?_⟩
  · rw [hclick, hworld]
    exact get_save_keyed hid'
  · rw [hsaved]
    unfold MappingSession.edited
    dsimp only
    rw [hstored, ← hheaders]
    exact mappingEditor_saved (hheaders ▸ hnodup) hfields

/-- **What is finalised is shown.** The rows are validated under the mappings
that the page has from then on; they are those it had when the button was
clicked, if no other client comes between the two requests of the click. -/
theorem finaliseClick_validates (hfit : PageFits sessionId headers (w, flow))
    (hdata : flow.sessionData = some data) {picks : Picks} {between : List SessionRequest}
    (hreview : flow.step = .review)
    (hresults : (finaliseClick env sessionId w flow data picks between).2.step = .results) :
    ∃ page service mappingResult result,
      (finaliseClick env sessionId w flow data picks between).2.sessionData = some page ∧
      env.resolveService page.schemaName = .ok service ∧
      (mappingResult.mappings, mappingResult.unmappedHeaders) =
        (page.mappings, page.unmappedHeaders) ∧
      validateRows env.rt service (between.foldl (afterAlone env sessionId)
        (sendEdited env sessionId w data picks).2).files page.filePath mappingResult
          page.sheetName = .ok result ∧
      page.result = some result.modelDump ∧
      (between = [] → (page.mappings, page.unmappedHeaders) = data.edited picks) := by
  unfold finaliseClick at hresults ⊢
  cases hsent : sendEdited env sessionId w data picks with
  | mk answer w' =>
      rw [hsent] at hresults
      cases answer with
      | error err =>
          dsimp only at hresults
          rw [hreview] at hresults
          cases hresults
      | ok body =>
          dsimp only at hresults ⊢
          rcases answerAlone_edit env sessionId (between.foldl (afterAlone env sessionId) w')
            .finalise with ⟨copy, session, hcopy, happly, heq⟩ | ⟨err, heq, _⟩
          · obtain ⟨service, mappingResult, result, hservice, hbuild, hrows, hfinal⟩ :=
              finaliseSession_runs happly
            obtain ⟨_, rfl⟩ := MappingSession.finalise_ok hfinal
            obtain ⟨hmappings, hunmapped⟩ := MappingResult.build_ok hbuild
            rw [heq]
            refine ⟨_, service, mappingResult, result, rfl, hservice, ?_, hrows, rfl, ?_⟩
            · rw [hmappings, hunmapped]
            · rintro rfl
              -- the copy that is finalised is the session just saved
              obtain ⟨stored, saved, hget, hsaved, rfl, hworld⟩ := sendEdited_ok hsent
              have hid : saved.id = sessionId := by
                rw [hsaved]
                exact ((hfit.2 data hdata).2 stored hget).1
              rw [List.foldl_nil, hworld, get_save_keyed hid] at hcopy
              cases hcopy
              rw [hsaved]
              rfl
          · rw [heq] at hresults
            dsimp only at hresults
            rw [hreview] at hresults
            cases hresults

end Clicks

/-! ## From the creation on -/

/-- What the two buttons do on this page with these picks. Other clients may
come between the two requests of a finalise; what is validated then is what
the page goes on to show, and undisturbed it is what was clicked. -/
structure ClicksShown (env : SessionEnv) (sessionId : String) (headers : List String)
    (s : SessionWorld × FlowState) (data : MappingSession) (picks : Picks) : Prop where
  once : EachHeaderOnce headers data.targetFields (data.edited picks).1 (data.edited picks).2
  accepted : (∃ body, (sendEdited env sessionId s.1 data picks).1 = .ok body) ↔
    (∃ stored, RedisMappingSessionStore.get s.1.store sessionId = some stored ∧
      stored.status = .created) ∧
    ((data.edited picks).1.map ColumnMapping.targetField).Nodup
  saved : ∀ body, (sendEdited env sessionId s.1 data picks).1 = .ok body →
    ∃ page, (flowStep env sessionId s (.save picks)).2 = { s.2 with sessionData := some page } ∧
      RedisMappingSessionStore.get (flowStep env sessionId s (.save picks)).1.store sessionId =
        some page.stored ∧
      (page.mappings, page.unmappedHeaders) = data.edited picks ∧
      page.edited untouched = data.edited picks
  finalised : ∀ between, (flowStep env sessionId s (.finalise picks between)).2.step = .results →
    ∃ page service mappingResult result,
      (flowStep env sessionId s (.finalise picks between)).2.sessionData = some page ∧
      env.resolveService page.schemaName = .ok service ∧
      (mappingResult.mappings, mappingResult.unmappedHeaders) =
        (page.mappings, page.unmappedHeaders) ∧
      validateRows env.rt service (between.foldl (afterAlone env sessionId)
        (sendEdited env sessionId s.1 data picks).2).files page.filePath mappingResult
          page.sheetName = .ok result ∧
      page.result = some result.modelDump ∧
      (between = [] → (page.mappings, page.unmappedHeaders) = data.edited picks)

theorem clicksShown_of_fits {env : SessionEnv} {sessionId : String} {headers : List String}
    {s : SessionWorld × FlowState} (hfit : PageFits sessionId headers s) (hnodup : headers.Nodup)
    {data : MappingSession} (hreview : s.2.step = .review) (hdata : s.2.sessionData = some data)
    (picks : Picks) : ClicksShown env sessionId headers s data picks := by
  obtain ⟨w, flow⟩ := s
  dsimp only at hreview hdata
  obtain ⟨hheaders, hoffers⟩ := hfit.2 data hdata
  have hsave : flowStep env sessionId (w, flow) (.save picks) =
      saveClick env sessionId w flow data picks := by
    unfold flowStep
    simp only [hreview, hdata]
  have hfinalise : ∀ between, flowStep env sessionId (w, flow) (.finalise picks between) =
      finaliseClick env sessionId w flow data picks between := by
    intro between
    unfold flowStep
    simp only [hreview, hdata]
  refine ⟨?_, sendEdited_ok_iff hoffers picks, fun body hbody => ?_, fun between hresults => ?_⟩
  · rw [← hheaders]
    exact mappingEditor_once _ _ _ _
  · rw [hsave]
    exact saveClick_shows hfit hdata hnodup hbody
  · rw [hfinalise] at hresults ⊢
    exact finaliseClick_validates hfit hdata hreview hresults

section Created
variable {σ : Type} [DecidableEq σ] {router : Router σ} {id : String} {w : SessionWorld}
  {u : SessionUpload σ} {session : MappingSession}

/-- The headers of a file are the columns of a frame. -/
theorem created_headers_nodup (h : (createSession router id w u).1 = .ok session) :
    session.sourceHeaders.Nodup := by
  obtain ⟨_, _, _, _, _, _, hsuggest, rfl, _⟩ := createSession_ok h
  obtain ⟨df, _, _, _, hheaders, _⟩ := ingest_saved.mp (suggest_ok hsuggest).1
  show List.Nodup _
  rw [newSession, hheaders]
  exact df.nodup

theorem created_pageFits (h : (createSession router id w u).1 = .ok session) :
    PageFits session.id session.sourceHeaders
      ((createSession router id w u).2, .opened session) := by
  have hoffers : ∀ fields, (∀ f ∈ fields, f ∈ session.targetFields) →
      Offers session.id session.sourceHeaders fields (createSession router id w u).2 := by
    intro fields hfields stored hget
    rw [createSession_get h] at hget
    cases hget
    exact ⟨rfl, rfl, hfields⟩
  refine ⟨hoffers [] (by simp), fun data hdata => ?_⟩
  cases hdata
  exact ⟨rfl, hoffers _ fun f hf => hf⟩

end Created

end RiskFlow
