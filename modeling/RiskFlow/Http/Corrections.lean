import RiskFlow.Service.Isolation
import RiskFlow.Service.RowPartition
import RiskFlow.Http.Uploads

/-!
# Corrections — `submit_corrections`, and uploads against other schemas

A correction is checked against the schema of the default service when it
is stored, and against the schema of the service that applies it when a
file of its cedent is mapped. The main result says which uploads the
second check refuses, after every run of the two routes.
-/

namespace RiskFlow

open Lib MappingService

/-! ## `POST /corrections` -/

/-- A single correction in a request. -/
structure CorrectionItem where
  sourceHeader : String
  targetField : String

structure CorrectionRequest where
  cedentId : String
  corrections : List CorrectionItem

/-- The loop over the items; what was stored before a failure stays. -/
def submitItems (rt : Runtime) (svc : MappingService) (cedentId : String) :
    List CorrectionItem → Stores → Except HttpException Unit × Stores
  | [], stores => (.ok (), stores)
  | item :: rest, stores =>
      match Correction.build cedentId item.sourceHeader item.targetField with
      -- built outside the `try`
      | .error _ => (.error unhandled, stores)
      | .ok correction =>
          match svc.storeCorrection stores correction with
          | .error e => (.error ⟨422, .detail "INVALID_CORRECTION" (rt.strErr e)
              "The correction references a target field not in the active schema."⟩, stores)
          | .ok stores => submitItems rt svc cedentId rest stores

/-- `submit_corrections`: the number of corrections stored. -/
def submitCorrections (rt : Runtime) (svc : MappingService) (stores : Stores)
    (request : CorrectionRequest) : Except HttpException Nat × Stores :=
  if Py.isBlank request.cedentId then
    (.error ⟨400, .detail "INVALID_DATA" "cedent_id must not be empty"
      "Provide a non-blank cedent_id string."⟩, stores)
  else if request.corrections.isEmpty then
    (.error ⟨400, .detail "INVALID_DATA" "corrections list must not be empty"
      "Provide at least one correction with source_header and target_field."⟩, stores)
  else
    match submitItems rt svc request.cedentId request.corrections stores with
    | (.error e, stores) => (.error e, stores)
    | (.ok (), stores) => (.ok request.corrections.length, stores)

/-! ## Runs of the two routes -/

inductive RouteEvent (σ : Type) where
  | corrections (request : CorrectionRequest)
  | upload (disk : Files) (request : UploadRequest σ)
  | expire (cacheKey : String)

section Routes
variable {σ : Type}

def serveRoute (router : Router σ) (stores : Stores) : RouteEvent σ → Stores
  | .corrections request =>
      (submitCorrections router.rt (router.service router.defaultService) stores request).2
  | .upload disk request => (uploadFile router disk stores request).2
  | .expire cacheKey => RedisCache.expire stores cacheKey

/-- The caches after a run that starts with nothing stored. -/
def runRoutes (router : Router σ) (events : List (RouteEvent σ)) : Stores :=
  events.foldl (serveRoute router) .empty

/-- The corrections the items store, up to the first that is refused. -/
def acceptedItems (svc : MappingService) (cedentId : String) : List CorrectionItem → List Correction
  | [] => []
  | item :: rest =>
      match Correction.build cedentId item.sourceHeader item.targetField with
      | .error _ => []
      | .ok k =>
          if k.targetField ∈ svc.schema.fieldNames then k :: acceptedItems svc cedentId rest
          else []

/-- The corrections an event stores. -/
def accepted (router : Router σ) : RouteEvent σ → List Correction
  | .corrections request =>
      if Py.isBlank request.cedentId then []
      else acceptedItems (router.service router.defaultService) request.cedentId request.corrections
  | _ => []

/-- The accepted corrections of a run, as calls of `store_correction`. -/
def acceptedCalls (router : Router σ) (events : List (RouteEvent σ)) : List Event :=
  (events.flatMap (accepted router)).map .correction

/-- The target of the last correction of header `h` that `POST /corrections`
accepted from cedent `c`. -/
def acceptedTarget (router : Router σ) (c h : String) (events : List (RouteEvent σ)) :
    Option String :=
  latestCorrection (router.service router.defaultService) c h (acceptedCalls router events)

/-! ### What the runs store -/

theorem submitItems_stores (rt : Runtime) (svc : MappingService) (cedentId : String)
    (items : List CorrectionItem) (stores : Stores) :
    (submitItems rt svc cedentId items stores).2 =
      ((acceptedItems svc cedentId items).map Event.correction).foldl (serve rt svc) stores := by
  induction items generalizing stores with
  | nil => rfl
  | cons item rest ih =>
      simp only [submitItems, acceptedItems]
      cases hbuild : Correction.build cedentId item.sourceHeader item.targetField with
      | error e => rfl
      | ok k =>
          dsimp only
          by_cases hfield : k.targetField ∈ svc.schema.fieldNames
          · have hserve : serve rt svc stores (.correction k) =
                RedisCorrectionCache.setCorrection stores k := by
              rw [serve, storeCorrection_of_mem hfield]
            rw [storeCorrection_of_mem hfield, if_pos hfield, List.map_cons, List.foldl_cons,
              hserve]
            exact ih _
          · obtain ⟨e, he⟩ := storeCorrection_of_not_mem stores hfield
            rw [he, if_neg hfield]
            rfl

theorem submitCorrections_stores (router : Router σ) (stores : Stores)
    (request : CorrectionRequest) :
    (submitCorrections router.rt (router.service router.defaultService) stores request).2 =
      ((accepted router (.corrections request)).map Event.correction).foldl
        (serve router.rt (router.service router.defaultService)) stores := by
  unfold submitCorrections accepted
  dsimp only
  by_cases hblank : Py.isBlank request.cedentId = true
  · rw [if_pos hblank, if_pos hblank]
    rfl
  · rw [if_neg hblank, if_neg hblank]
    by_cases hempty : request.corrections.isEmpty = true
    · rw [if_pos hempty, List.isEmpty_iff.mp hempty]
      rfl
    · rw [if_neg hempty, ← submitItems_stores]
      cases submitItems router.rt (router.service router.defaultService) request.cedentId
          request.corrections stores with
      | mk outcome stores => cases outcome <;> rfl

theorem uploadFile_corrections (router : Router σ) (disk : Files) (stores : Stores)
    (u : UploadRequest σ) :
    (uploadFile router disk stores u).2.corrections = stores.corrections := by
  by_cases hserved : ∃ activeService, validateFile router.rt u.file = .ok () ∧
      router.resolveService u.schema = .ok activeService
  · obtain ⟨activeService, hvalid, hresolved⟩ := hserved
    rw [uploadFile_resolved hvalid hresolved]
    exact serve_upload_corrections (u.call disk activeService) stores
  · obtain ⟨e, hrefused, _⟩ := uploadFile_unresolved disk stores hserved
    rw [hrefused]

/-- Storing a correction acts on the hashes alone. -/
theorem serve_correction_congr {rt : Runtime} {svc : MappingService} {stores stores' : Stores}
    (h : stores.corrections = stores'.corrections) (k : Correction) :
    (serve rt svc stores (.correction k)).corrections =
      (serve rt svc stores' (.correction k)).corrections := by
  dsimp only [serve]
  by_cases hfield : k.targetField ∈ svc.schema.fieldNames
  · rw [storeCorrection_of_mem hfield, storeCorrection_of_mem hfield]
    simp only [RedisCorrectionCache.setCorrection, hashOf_congr h.symm, h]
  · obtain ⟨e, he⟩ := storeCorrection_of_not_mem stores hfield
    obtain ⟨e', he'⟩ := storeCorrection_of_not_mem stores' hfield
    rw [he, he']
    exact h

theorem foldl_corrections_congr {rt : Runtime} {svc : MappingService} (ks : List Correction)
    {stores stores' : Stores} (h : stores.corrections = stores'.corrections) :
    ((ks.map Event.correction).foldl (serve rt svc) stores).corrections =
      ((ks.map Event.correction).foldl (serve rt svc) stores').corrections := by
  induction ks generalizing stores stores' with
  | nil => exact h
  | cons k rest ih => exact ih (serve_correction_congr h k)

/-- An event stores what it accepts. -/
theorem serveRoute_corrections (router : Router σ) (stores : Stores) (e : RouteEvent σ) :
    (serveRoute router stores e).corrections =
      (((accepted router e).map Event.correction).foldl
        (serve router.rt (router.service router.defaultService)) stores).corrections := by
  cases e with
  | corrections request => rw [serveRoute, submitCorrections_stores]
  | upload disk request => exact uploadFile_corrections router disk stores request
  | expire cacheKey => rfl

/-- The corrections stored by a run are those of the calls it accepted. -/
theorem runRoutes_corrections (router : Router σ) (events : List (RouteEvent σ)) :
    (runRoutes router events).corrections =
      (run router.rt (router.service router.defaultService)
        (acceptedCalls router events)).corrections := by
  induction events using List.reverseRecOn with
  | nil => rfl
  | append_singleton events e ih =>
      have hcalls : acceptedCalls router (events ++ [e]) =
          acceptedCalls router events ++ (accepted router e).map .correction := by
        simp [acceptedCalls]
      rw [runRoutes, List.foldl_append, hcalls, run, List.foldl_append]
      exact (serveRoute_corrections router _ e).trans (foldl_corrections_congr _ ih)

/-- What applies to a file after a run: the accepted corrections of its cedent. -/
theorem correctionsFor_runRoutes {router : Router σ} {events : List (RouteEvent σ)} {c h : String}
    {headers : List String} (hmem : h ∈ headers) :
    (correctionsFor (runRoutes router events) headers (some c)).get? h =
      acceptedTarget router c h events := by
  have hsame : correctionsFor (runRoutes router events) headers (some c) =
      correctionsFor (run router.rt (router.service router.defaultService)
        (acceptedCalls router events)) headers (some c) :=
    correctionsFor_congr fun c' _ => hashOf_congr (runRoutes_corrections router events) c'
  rw [hsame, correctionsFor_run hmem, acceptedTarget]

end Routes

/-! ## `InvalidCorrectionError` -/

/-- `isinstance(e, InvalidCorrectionError)`. -/
def PyErr.isInvalidCorrection : PyErr → Bool
  | .invalidCorrectionError _ => true
  | _ => false

/-- The answer `upload_file` gives to an `InvalidCorrectionError`. -/
def RefusedForCorrection (answer : Except HttpException ProcessingResult) : Prop :=
  ∃ message suggestion, answer = .error ⟨422, .detail "INVALID_CORRECTION" message suggestion⟩

/-- The parsers and the mappers raise exceptions of their own: none of them
knows of corrections. -/
structure UploadRequest.PortsNeverCorrect {σ : Type} (u : UploadRequest σ) : Prop where
  csv : ∀ n e, u.file.readCsv n = .error e → e.isInvalidCorrection = false
  excel : ∀ sheet e, u.file.readExcel sheet = .error e → e.isInvalidCorrection = false
  mapper : ∀ ref headers rows e, u.mappers ref headers rows = .error e →
    e.isInvalidCorrection = false

section Refused
variable {rt : Runtime} {svc : MappingService} {mapper : Mapper} {stores : Stores}
  {headers : List String} {preview : List Row} {cedentId : Option String}

theorem uploadError_refused {e : PyErr} :
    (∃ message suggestion,
        uploadError rt e = ⟨422, .detail "INVALID_CORRECTION" message suggestion⟩) ↔
      e.isInvalidCorrection = true := by
  cases e <;> simp [uploadError, PyErr.isInvalidCorrection, unhandled]

theorem refused_mapError {outcome : Except PyErr ProcessingResult} :
    RefusedForCorrection (outcome.mapError (uploadError rt)) ↔
      ∃ e, outcome = .error e ∧ e.isInvalidCorrection = true := by
  cases outcome with
  | ok result => simp [RefusedForCorrection, Except.mapError]
  | error e => simp [RefusedForCorrection, Except.mapError, uploadError_refused]

theorem validateCorrections_error {corrections : Dict String String} {e : PyErr}
    (h : svc.validateCorrections corrections = .error e) : e.isInvalidCorrection = true := by
  obtain ⟨kv, _, hcheck⟩ := forM_eq_error h
  dsimp only at hcheck
  split at hcheck
  · cases hcheck
    rfl
  · cases hcheck

theorem mapUncorrected_error
    (hmapper : ∀ asked rows e, mapper asked rows = .error e → e.isInvalidCorrection = false)
    {e : PyErr} (h : mapUncorrected rt svc mapper headers preview = .error e) :
    e.isInvalidCorrection = false := by
  rcases bind_eq_error.mp h with hanswer | ⟨slmResult, _, h⟩
  · exact hmapper _ _ _ hanswer
  rcases bind_eq_error.mp h with hcheck | ⟨_, _, h⟩
  · obtain ⟨m, _, hlow⟩ := forM_eq_error hcheck
    split at hlow
    · cases hlow
      rfl
    · cases hlow
  · cases h

theorem build_error {mappings : List ColumnMapping} {unmapped : List String} {e : PyErr}
    (h : MappingResult.build mappings unmapped = .error e) : e.isInvalidCorrection = false := by
  unfold MappingResult.build at h
  split at h
  · cases h
  · cases h
    rfl

/-- With valid corrections nothing raises the error. -/
theorem mapWithCorrections_not_refused
    (hmapper : ∀ asked rows e, mapper asked rows = .error e → e.isInvalidCorrection = false)
    (hvalid : svc.validateCorrections (correctionsFor stores headers cedentId) = .ok ()) {e : PyErr}
    (h : mapWithCorrections rt svc mapper stores headers preview cedentId = .error e) :
    e.isInvalidCorrection = false := by
  rcases bind_eq_error.mp h with hinvalid | ⟨_, _, h⟩
  · rw [hvalid] at hinvalid
    cases hinvalid
  dsimp only at h
  split at h
  · exact build_error h
  · rcases bind_eq_error.mp h with hslm | ⟨slmResult, _, hbuild⟩
    · exact mapUncorrected_error hmapper hslm
    · exact build_error hbuild

/-- **The check of the corrections** is what raises the error. -/
theorem mapWithCorrections_refused_iff
    (hmapper : ∀ asked rows e, mapper asked rows = .error e → e.isInvalidCorrection = false) :
    (∃ e, mapWithCorrections rt svc mapper stores headers preview cedentId = .error e ∧
        e.isInvalidCorrection = true) ↔
      ∃ h target, (correctionsFor stores headers cedentId).get? h = some target ∧
        target ∉ svc.schema.fieldNames := by
  cases hvalid : svc.validateCorrections (correctionsFor stores headers cedentId) with
  | error e =>
      have hraised :
          mapWithCorrections rt svc mapper stores headers preview cedentId = .error e := by
        simp only [mapWithCorrections, hvalid]
        rfl
      refine iff_of_true ⟨e, hraised, validateCorrections_error hvalid⟩ ?_
      have hnot : ¬ ∀ kv ∈ (correctionsFor stores headers cedentId).entries,
          kv.2 ∈ svc.schema.fieldNames := by
        rw [← validateCorrections_ok, hvalid]
        simp
      push Not at hnot
      obtain ⟨kv, hkv, hforeign⟩ := hnot
      exact ⟨kv.1, kv.2, Dict.get?_eq_some.mpr hkv, hforeign⟩
  | ok u =>
      refine iff_of_false ?_ ?_
      · intro hraised
        obtain ⟨e, he, hkind⟩ := hraised
        rw [mapWithCorrections_not_refused hmapper hvalid he] at hkind
        cases hkind
      · intro hforeign
        obtain ⟨h, target, hget, hout⟩ := hforeign
        exact hout (validateCorrections_ok.mp hvalid _ (Dict.get?_eq_some.mp hget))

end Refused

section Uploaded
variable {σ : Type} {router : Router σ} {disk : Files} {u : UploadRequest σ} {ref : σ}

theorem readExcel_error (h : u.PortsNeverCorrect) {e : PyErr}
    (hread : PolarsIngestor.readExcel router.rt (u.files disk) u.path u.sheetName = .error e) :
    e.isInvalidCorrection = false := by
  have hexcel : ∀ sheet, (u.files disk).readExcel u.path sheet = u.file.readExcel sheet :=
    fun sheet => if_pos rfl
  unfold PolarsIngestor.readExcel at hread
  cases hname : u.sheetName with
  | none =>
      rw [hname] at hread
      exact h.excel none e ((hexcel none).symm.trans hread)
  | some sheet =>
      simp only [hname, hexcel] at hread
      cases hr : u.file.readExcel (some sheet) with
      | ok df => simp [hr] at hread
      | error e' =>
          simp only [hr] at hread
          split at hread
          · cases hread
            rfl
          · cases hread
            exact h.excel _ _ hr

theorem readFrame_error (h : u.PortsNeverCorrect) {nRows : Nat} {e : PyErr}
    (hread : PolarsIngestor.readFrame router.rt (u.files disk) u.path u.sheetName nRows =
      .error e) :
    e.isInvalidCorrection = false := by
  have hexists : PolarsIngestor.checkFileExists (u.files disk) u.path = .ok () := by
    simp [PolarsIngestor.checkFileExists, UploadRequest.files, saveTempFile]
  have hframe : ∀ e, (if Py.endsWith u.path ".csv" then (u.files disk).readCsv u.path (some nRows)
      else PolarsIngestor.readExcel router.rt (u.files disk) u.path u.sheetName) = .error e →
      e.isInvalidCorrection = false := by
    intro e he
    split at he
    · exact h.csv _ e ((if_pos rfl).symm.trans he)
    · exact readExcel_error h he
  rcases bind_eq_error.mp hread with hmissing | ⟨_, _, hread⟩
  · rw [hexists] at hmissing
    cases hmissing
  dsimp only at hread
  split at hread
  · cases hread
    rfl
  · exact hframe e hread

theorem ingested_error (h : u.PortsNeverCorrect) {e : PyErr}
    (hin : (u.call disk ref).ingested router.rt = .error e) : e.isInvalidCorrection = false := by
  rcases bind_eq_error.mp hin with hheaders | ⟨headers, _, hin⟩
  · exact readFrame_error h (map_eq_error.mp hheaders)
  rcases bind_eq_error.mp hin with hpreview | ⟨preview, _, hin⟩
  · exact readFrame_error h (map_eq_error.mp hpreview)
  · cases hin

theorem validateRows_error (h : u.PortsNeverCorrect) {mapping : MappingResult} {e : PyErr}
    (hrows : validateRows router.rt (router.service ref) (u.files disk) u.path mapping u.sheetName =
      .error e) : e.isInvalidCorrection = false := by
  rcases bind_eq_error.mp hrows with htable | ⟨df, _, hcheck⟩
  · unfold readTable at htable
    split at htable
    · exact h.csv none e ((if_pos rfl).symm.trans htable)
    · exact h.excel _ e ((if_pos rfl).symm.trans htable)
  · rcases validateTable_error hcheck with ⟨column, rfl⟩ | hnull
    · rfl
    · cases e with
      | invalidCorrectionError msg => cases hnull
      | _ => rfl

/-- **When a service refuses a file for a correction**: it makes the mapping
anew, and a correction of the file has a target its schema lacks. -/
theorem process_refused_iff (h : u.PortsNeverCorrect) {stores : Stores} :
    (∃ e, ((u.call disk ref).process router.rt (router.service ref) stores).1 = .error e ∧
        e.isInvalidCorrection = true) ↔
      ∃ headers preview, (u.call disk ref).ingested router.rt = .ok (headers, preview) ∧
        (router.service ref).cached router.rt stores headers = none ∧
        ∃ header target, (correctionsFor stores headers u.cedentId).get? header = some target ∧
          target ∉ (router.service ref).schema.fieldNames := by
  rw [process_outcome]
  constructor
  · intro hraised
    obtain ⟨e, he, hkind⟩ := hraised
    rcases bind_eq_error.mp he with hin | ⟨⟨headers, preview⟩, hin, he⟩
    · rw [ingested_error h hin] at hkind
      cases hkind
    rcases bind_eq_error.mp he with hmap | ⟨mapping, _, hrows⟩
    · refine ⟨headers, preview, hin, ?_⟩
      cases hcached : (router.service ref).cached router.rt stores headers with
      | some mapping =>
          rw [obtainMapping_hit hcached] at hmap
          cases hmap
      | none =>
          rw [obtainMapping_miss hcached] at hmap
          exact ⟨rfl, (mapWithCorrections_refused_iff (h.mapper ref)).mp ⟨e, hmap, hkind⟩⟩
    · rw [validateRows_error h hrows] at hkind
      cases hkind
  · intro hmiss
    obtain ⟨headers, preview, hin, hcached, hforeign⟩ := hmiss
    obtain ⟨e, he, hkind⟩ := (mapWithCorrections_refused_iff (h.mapper ref)).mpr hforeign
    refine ⟨e, bind_eq_error.mpr (.inr ⟨_, hin, bind_eq_error.mpr (.inl ?_)⟩), hkind⟩
    rw [obtainMapping_miss hcached]
    exact he

end Uploaded

/-- The last correction accepted from the request's cedent for a header of its
file targets a field the schema of its service lacks. -/
def ForeignCorrection {σ : Type} (router : Router σ) (events : List (RouteEvent σ))
    (u : UploadRequest σ) (ref : σ) (headers : List String) : Prop :=
  ∃ c header target, u.cedentId = some c ∧ header ∈ headers ∧
    acceptedTarget router c header events = some target ∧
    target ∉ (router.service ref).schema.fieldNames

/-- **Which uploads an accepted correction refuses.** After every run of the
two routes, an upload fails with `InvalidCorrectionError` exactly if it
reaches a service that has no mapping cached for its file and lacks the
target of a correction accepted for it. -/
theorem upload_refused_iff {σ : Type} (router : Router σ) (events : List (RouteEvent σ))
    (disk : Files) (u : UploadRequest σ) (hports : u.PortsNeverCorrect) :
    RefusedForCorrection (uploadFile router disk (runRoutes router events) u).1 ↔
      ∃ ref headers preview, validateFile router.rt u.file = .ok () ∧
        router.resolveService u.schema = .ok ref ∧
        (u.call disk ref).ingested router.rt = .ok (headers, preview) ∧
        (router.service ref).cached router.rt (runRoutes router events) headers = none ∧
        ForeignCorrection router events u ref headers := by
  by_cases hserved : ∃ ref, validateFile router.rt u.file = .ok () ∧
      router.resolveService u.schema = .ok ref
  · obtain ⟨ref, hvalid, hresolved⟩ := hserved
    rw [uploadFile_resolved hvalid hresolved, refused_mapError, process_refused_iff hports]
    constructor
    · intro hmiss
      obtain ⟨headers, preview, hin, hcached, header, target, hget, hforeign⟩ := hmiss
      refine ⟨ref, headers, preview, hvalid, hresolved, hin, hcached, ?_⟩
      cases hcedent : u.cedentId with
      | none =>
          rw [hcedent] at hget
          cases hget
      | some c =>
          rw [hcedent] at hget
          have hmem := correctionsFor_get? hget
          rw [correctionsFor_runRoutes hmem] at hget
          exact ⟨c, header, target, hcedent, hmem, hget, hforeign⟩
    · intro hrefused
      obtain ⟨ref', headers, preview, _, hresolved', hin, hcached, c, header, target, hcedent, hmem,
        htarget, hforeign⟩ := hrefused
      cases hresolved.symm.trans hresolved'
      refine ⟨headers, preview, hin, hcached, header, target, ?_, hforeign⟩
      rw [hcedent, correctionsFor_runRoutes hmem, htarget]
  · obtain ⟨e, hrefused, herror⟩ :=
      uploadFile_unresolved disk (runRoutes router events) hserved
    rw [hrefused]
    refine iff_of_false ?_ ?_
    · intro hanswer
      obtain ⟨message, suggestion, heq⟩ := hanswer
      cases heq
      rcases herror with hstatus | hstatus <;> cases hstatus
    · intro h
      obtain ⟨ref, headers, preview, hvalid, hresolved, _⟩ := h
      exact hserved ⟨ref, hvalid, hresolved⟩

/-! ### A cedent between two schemas -/

/-- ACME-RE corrects GWP. -/
def grossRequest : CorrectionRequest where
  cedentId := "ACME-RE"
  corrections := [⟨"GWP", "Gross_Premium"⟩]

/-- The file of ACME-RE, for the schema named. -/
def grossUpload (schema : Option String) : UploadRequest String where
  file := grossFile
  cedentId := some "ACME-RE"
  schema := schema
  temp := someTemp
  mappers := fun _ headers _ => .ok ⟨[], headers, List.nodup_nil⟩

theorem grossUpload_ports (schema : Option String) : (grossUpload schema).PortsNeverCorrect where
  csv _ _ h := by cases h
  excel _ _ h := by cases h
  mapper _ _ _ _ h := by cases h

/-- Against the default schema the correction refuses nothing. -/
theorem default_upload_passes :
    ¬ RefusedForCorrection
      (uploadFile bookRouter noDisk (runRoutes bookRouter [.corrections grossRequest])
        (grossUpload none)).1 := by
  rw [upload_refused_iff bookRouter [.corrections grossRequest] noDisk (grossUpload none)
    (grossUpload_ports none)]
  intro hrefused
  obtain ⟨ref, headers, preview, _, hresolved, hin, _, c, header, target, hcedent, hmem, htarget,
    hforeign⟩ := hrefused
  cases hresolved
  cases hcedent
  have hfile : ((grossUpload none).call noDisk "premiums").ingested bookRouter.rt =
      .ok (["GWP"], []) := rfl
  cases hfile.symm.trans hin
  rw [List.mem_singleton.mp hmem] at htarget
  cases htarget
  exact hforeign (by decide)

/-- The correction is accepted, and the same file for the claims is refused. -/
theorem accepted_correction_refuses :
    (submitCorrections bookRouter.rt (bookRouter.service bookRouter.defaultService) .empty
        grossRequest).1 = .ok 1 ∧
      RefusedForCorrection
        (uploadFile bookRouter noDisk (runRoutes bookRouter [.corrections grossRequest])
          (grossUpload (some "claims"))).1 :=
  ⟨rfl, _, _, rfl⟩

end RiskFlow
