import RiskFlow.Adapters.GroqMapper
import RiskFlow.Domain.Fingerprint
import RiskFlow.Service.CacheKey
import RiskFlow.Service.ConcurrentUploads

/-!
# AskedMappings — where the answer of an upload was asked for

The cache is shared by the services of all schemas, and an upload may be
answered with what another upload has asked the SLM. The key of an entry
hashes the fingerprint of the writer's schema, the prompt is built from
the schema: so whatever the interleaving, an upload is never answered with
a reply to a prompt that its own service would not have sent.
-/

namespace RiskFlow

open Lib MappingService

/-! ## What a mapping is made of -/

/-- Every column is a correction of a header to a field of the service, or the
service had it from one of its mappers, asked about such headers. -/
def MadeFor (made : MappingService → Mapper → Prop) (svc : MappingService)
    (headers : List String) (mapping : MappingResult) : Prop :=
  ∀ m ∈ mapping.mappings,
    (∃ header ∈ headers, ∃ target ∈ svc.schema.fieldNames,
      m = correctedMapping (header, target)) ∨
    ∃ mapper, made svc mapper ∧ ∃ asked rows answer, (∀ h ∈ asked, h ∈ headers) ∧
      mapper asked rows = .ok answer ∧ m ∈ answer.mappings

section Made
variable {rt : Runtime} {made : MappingService → Mapper → Prop} {stores : Stores}

/-- Every cached mapping was made for headers with its key. -/
def AllMade (rt : Runtime) (made : MappingService → Mapper → Prop) (stores : Stores) : Prop :=
  ∀ cacheKey mapping, RedisCache.getMapping stores cacheKey = some mapping →
    ∃ writer written, cacheKey = buildCacheKey rt writer written ∧
      MadeFor made writer written mapping

/-- The mapping the upload has, if it has one, was made for headers with the
key of its own. -/
def UploadPhase.Made (rt : Runtime) (made : MappingService → Mapper → Prop) (svc : MappingService)
    (u : Upload) : UploadPhase → Prop
  | .started => True
  | .looking headers preview => u.ingested rt = .ok (headers, preview)
  | .missed headers preview => u.ingested rt = .ok (headers, preview)
  | .asking headers preview corrections => u.ingested rt = .ok (headers, preview) ∧
      ∃ stores, corrections = correctionsFor stores headers u.cedentId
  | .caching headers mapping => (∃ preview, u.ingested rt = .ok (headers, preview)) ∧
      MadeFor made svc headers mapping
  | .answered outcome => ∀ result, outcome = .ok result →
      ∃ headers preview, u.ingested rt = .ok (headers, preview) ∧
        ∃ writer written, buildCacheKey rt svc headers = buildCacheKey rt writer written ∧
          MadeFor made writer written result.mapping

/-- An upload is made with its own mapper. -/
def ServiceTask.Made (rt : Runtime) (made : MappingService → Mapper → Prop) : ServiceTask → Prop
  | .upload svc u _ phase => made svc u.mapper ∧ phase.Made rt made svc u
  | _ => True

theorem madeFor_of_mapWith {svc : MappingService} {mapper : Mapper} (hmade : made svc mapper)
    {headers : List String} {preview : List Row} {cedentId : Option String}
    {mapping : MappingResult}
    (h : mapWith rt svc mapper headers preview (correctionsFor stores headers cedentId) =
      .ok mapping) : MadeFor made svc headers mapping := by
  rw [← mapWithCorrections_eq] at h
  obtain ⟨answer, hanswer, hfrom⟩ := mapWithCorrections_ok h
  intro m hm
  rcases hfrom.mem hm with ⟨kv, hkv, rfl⟩ | ⟨hmem, _⟩
  · exact .inl ⟨kv.1, hfrom.headers kv hkv, kv.2, hfrom.valid kv hkv, rfl⟩
  · obtain ⟨asked, rows, r, hasked, hr, hmr⟩ := hanswer.returned hmem
    exact .inr ⟨mapper, hmade, asked, rows, r, hasked, hr, hmr⟩

theorem allMade_empty : AllMade rt made .empty := by
  intro cacheKey mapping hget
  cases hget

theorem allMade_mappings {other : Stores} (h : AllMade rt made stores)
    (hsame : other.mappings = stores.mappings) : AllMade rt made other := by
  intro cacheKey mapping hget
  rw [RedisCache.getMapping, hsame] at hget
  exact h cacheKey mapping hget

theorem allMade_set {svc : MappingService} {headers : List String} {mapping : MappingResult}
    (h : AllMade rt made stores) (hmapping : MadeFor made svc headers mapping) :
    AllMade rt made (RedisCache.setMapping stores (buildCacheKey rt svc headers) mapping) := by
  intro cacheKey other hget
  rw [RedisCache.getMapping_setMapping] at hget
  by_cases hkey : buildCacheKey rt svc headers = cacheKey
  · rw [if_pos hkey] at hget
    cases hget
    exact ⟨svc, headers, hkey.symm, hmapping⟩
  · rw [if_neg hkey] at hget
    exact h cacheKey other hget

/-- **One step of an upload.** -/
theorem upload_made {svc : MappingService} {u : Upload} (hmapper : made svc u.mapper)
    (outages : Outages) {phase : UploadPhase} (h : AllMade rt made stores)
    (hphase : phase.Made rt made svc u) :
    AllMade rt made (phase.advance rt svc u outages stores).1 ∧
      (phase.advance rt svc u outages stores).2.Made rt made svc u := by
  cases phase with
  | started =>
      cases hin : u.ingested rt with
      | error e =>
          simp only [UploadPhase.advance, hin]
          exact ⟨h, fun result hresult => by cases hresult⟩
      | ok r =>
          simp only [UploadPhase.advance, hin]
          exact ⟨h, hin⟩
  | looking headers preview =>
      by_cases hfails : outages.getMapping = true
      · simp only [UploadPhase.advance, if_pos hfails]
        exact ⟨h, hphase⟩
      · simp only [UploadPhase.advance, if_neg hfails]
        cases hcached : svc.cached rt stores headers with
        | none => exact ⟨h, hphase⟩
        | some mapping =>
            refine ⟨h, fun result hresult => ?_⟩
            obtain ⟨writer, written, hkey, hmade⟩ := h _ _ hcached
            rw [validateRows_mapping hresult]
            exact ⟨headers, preview, hphase, writer, written, hkey, hmade⟩
  | missed headers preview =>
      refine ⟨h, hphase, ?_⟩
      by_cases hfails : outages.getCorrections = true
      · rw [if_pos hfails]
        exact ⟨⟨stores.mappings, ∅⟩, (correctionsFor_nothing _ _ _).symm⟩
      · rw [if_neg hfails]
        exact ⟨stores, rfl⟩
  | asking headers preview corrections =>
      obtain ⟨hin, seen, rfl⟩ := hphase
      cases hmade : mapWith rt svc u.mapper headers preview
          (correctionsFor seen headers u.cedentId) with
      | error e =>
          simp only [UploadPhase.advance, hmade]
          exact ⟨h, fun result hresult => by cases hresult⟩
      | ok mapping =>
          simp only [UploadPhase.advance, hmade]
          exact ⟨h, ⟨preview, hin⟩, madeFor_of_mapWith hmapper hmade⟩
  | caching headers mapping =>
      obtain ⟨⟨preview, hin⟩, hmapping⟩ := hphase
      refine ⟨?_, fun result hresult => ?_⟩
      · by_cases hfails : outages.write = true
        · simp only [UploadPhase.advance, if_pos hfails]
          exact h
        · simp only [UploadPhase.advance, if_neg hfails]
          exact allMade_set h hmapping
      · rw [validateRows_mapping hresult]
        exact ⟨headers, preview, hin, svc, headers, rfl, hmapping⟩
  | answered outcome => exact ⟨h, hphase⟩

theorem task_made {t : ServiceTask} (h : AllMade rt made stores) (ht : t.Made rt made) :
    AllMade rt made (t.advance rt stores).1 ∧ (t.advance rt stores).2.Made rt made := by
  cases t with
  | upload svc u outages phase =>
      obtain ⟨hstores, hphase⟩ := upload_made ht.1 outages h ht.2
      exact ⟨hstores, ht.1, hphase⟩
  | correction svc k outages outcome =>
      cases outcome with
      | some outcome => exact ⟨h, trivial⟩
      | none =>
          by_cases hfield : k.targetField ∈ svc.schema.fieldNames
          · simp only [ServiceTask.advance, storeCorrection_of_mem hfield]
            refine ⟨?_, trivial⟩
            by_cases hfails : outages.write = true
            · rw [if_pos hfails]
              exact h
            · rw [if_neg hfails]
              exact allMade_mappings h rfl
          · obtain ⟨e, he⟩ := storeCorrection_of_not_mem stores hfield
            simp only [ServiceTask.advance, he]
            exact ⟨h, trivial⟩
  | expiry cacheKey expired =>
      cases expired with
      | true => exact ⟨h, trivial⟩
      | false =>
          refine ⟨?_, trivial⟩
          intro other mapping hget
          have hread : RedisCache.getMapping (RedisCache.expire stores cacheKey) other =
              some mapping := hget
          rw [RedisCache.getMapping_expire] at hread
          split at hread
          · cases hread
          · exact h other mapping hread

theorem made_run {p : Pool Stores ServiceTask}
    (hp : p.Holds (AllMade rt made) fun _ t => t.Made rt made) (schedule : List Nat) :
    (p.run (ServiceTask.advance rt) schedule).Holds (AllMade rt made)
      fun _ t => t.Made rt made := by
  induction schedule generalizing p with
  | nil => exact hp
  | cons i rest ih =>
      refine ih (Pool.step_holds _ hp fun t ht => ?_)
      obtain ⟨hstores, htask⟩ := task_made hp.1 (hp.2 t (List.mem_of_getElem? ht))
      exact ⟨hstores, htask, fun _ _ hu => hu⟩

end Made

/-! ## Keys and prompts -/

/-- Two texts with the same first colon are cut there alike. -/
theorem append_colon_inj {a b c d : List Char} (ha : ':' ∉ a) (hc : ':' ∉ c)
    (h : a ++ ':' :: b = c ++ ':' :: d) : a = c ∧ b = d := by
  induction a generalizing c with
  | nil =>
      cases c with
      | nil => exact ⟨rfl, (List.cons.inj h).2⟩
      | cons y c => exact absurd ((List.cons.inj h).1 ▸ List.mem_cons_self) hc
  | cons x a ih =>
      cases c with
      | nil => exact absurd ((List.cons.inj h).1 ▸ List.mem_cons_self) ha
      | cons y c =>
          obtain ⟨hxy, hrest⟩ := List.cons.inj h
          obtain ⟨hac, hbd⟩ := ih (fun hm => ha (List.mem_cons_of_mem _ hm))
            (fun hm => hc (List.mem_cons_of_mem _ hm)) hrest
          exact ⟨by rw [hxy, hac], hbd⟩

/-- SHA-256 and BLAKE2b without collisions, on the texts they are given; a hex
digest has no colon. -/
structure Digests (rt : Runtime) (hash : String → String) : Prop where
  text : TargetSchema.HashesText rt hash
  hash_inj : Function.Injective hash
  hash_hex : ∀ s, ':' ∉ (hash s).toList
  sha256_inj : Function.Injective rt.sha256

section Keys
variable {rt : Runtime} {hash : String → String}

/-- **A shared key means the same schema content and the same headers.** -/
theorem sameContent_of_key (hdigests : Digests rt hash) {reader writer : MappingService}
    {read written : List String}
    (h : buildCacheKey rt reader read = buildCacheKey rt writer written) :
    reader.schema.SameContent writer.schema ∧ headerPieces rt read = headerPieces rt written := by
  have hclear : ∀ s : TargetSchema, ':' ∉ (s.fingerprint rt).toList := by
    intro s
    rw [TargetSchema.fingerprint, hdigests.text s]
    exact hdigests.hash_hex _
  have htexts := congrArg String.toList (hdigests.sha256_inj h)
  simp only [String.toList_append, List.append_assoc] at htexts
  have hcolon : (":" : String).toList = [':'] := rfl
  rw [hcolon] at htexts
  obtain ⟨hprint, hheaders⟩ := append_colon_inj (hclear _) (hclear _) htexts
  exact ⟨(TargetSchema.fingerprint_eq_iff hdigests.text hdigests.hash_inj).mp
      (String.toList_inj.mp hprint),
    normalizedHeaders_eq_iff.mp (String.toList_inj.mp hheaders)⟩

theorem fieldNames_sameContent {s t : TargetSchema} (h : s.SameContent t) :
    s.fieldNames.Perm t.fieldNames := by
  have hnames : ∀ name, name ∈ s.fieldNames ↔ name ∈ t.fieldNames := by
    intro name
    show name ∈ s.fields.keys ↔ name ∈ t.fields.keys
    rw [Dict.mem_keys, Dict.mem_keys, h.1 name]
  exact (List.perm_ext_iff_of_nodup s.fields.nodup t.fields.nodup).mpr hnames

/-- The prompt says nothing a fingerprint leaves out. -/
theorem buildSystemPrompt_sameContent {s t : TargetSchema} (h : s.SameContent t) :
    buildSystemPrompt s = buildSystemPrompt t := by
  unfold buildSystemPrompt
  rw [sorted_eq_iff.mpr (fieldNames_sameContent h), h.2.2]

end Keys

/-! ## Every schedule -/

/-- The tasks have an upload on this service with this mapper. -/
def Uploading (tasks : List ServiceTask) (svc : MappingService) (mapper : Mapper) : Prop :=
  ∃ u outages phase, ServiceTask.upload svc u outages phase ∈ tasks ∧ u.mapper = mapper

/-- The API has answered one of the uploads, asked about these headers under
this system prompt, with a mapping that has the column. -/
def AnsweredTo (env : SlmEnv) (tasks : List ServiceTask) (system : String) (asked : List String)
    (m : ColumnMapping) : Prop :=
  ∃ (svc : MappingService) (slm : GroqMapper) (api : ChatRequest → Nat → SlmCall)
    (rows : List Row) (k : Nat) (content : String) (rest : List (Option String))
    (answer : MappingResult),
    Uploading tasks svc (slm.mapHeaders env api) ∧
      (slm.request env.rt asked rows).system = system ∧
      api (slm.request env.rt asked rows) k = .ok (some content :: rest) ∧
      MappingResult.modelValidateJson env content = .ok answer ∧ m ∈ answer.mappings

/-- **Every answer was asked for with the prompt of its reader.** Let every
upload's mapper ask the SLM for the schema of its service. After every
schedule, each column of a result is a correction to a field of the service's
schema, or comes from a reply to a request with the system prompt of this very
service, about headers of a file that has this one's key. -/
theorem answers_asked (env : SlmEnv) (hash : String → String) (hdigests : Digests env.rt hash)
    (tasks : List ServiceTask) (schedule : List Nat) (hbegin : ∀ t ∈ tasks, t.Begins)
    (hslm : ∀ svc mapper, Uploading tasks svc mapper →
      ∃ (slm : GroqMapper) (api : ChatRequest → Nat → SlmCall),
        slm.schema = svc.schema ∧ mapper = slm.mapHeaders env api) :
    ∀ svc u outages result, ServiceTask.upload svc u outages (.answered (.ok result)) ∈
        (Pool.run (ServiceTask.advance env.rt) ⟨.empty, tasks⟩ schedule).tasks →
      ∃ headers preview, u.ingested env.rt = .ok (headers, preview) ∧
        ∃ written, headerPieces env.rt headers = headerPieces env.rt written ∧
          ∀ m ∈ result.mapping.mappings,
            (∃ header ∈ written, ∃ target ∈ svc.schema.fieldNames,
              m = correctedMapping (header, target)) ∨
            ∃ asked, (∀ h ∈ asked, h ∈ written) ∧
              AnsweredTo env tasks (buildSystemPrompt svc.schema) asked m := by
  intro svc u outages result hmem
  have hstart : Pool.Holds (AllMade env.rt (Uploading tasks))
      (fun _ t => t.Made env.rt (Uploading tasks)) ⟨Stores.empty, tasks⟩ := by
    refine ⟨allMade_empty, fun t ht => ?_⟩
    cases t with
    | upload svc u outages phase =>
        have hphase : phase = .started := hbegin _ ht
        subst hphase
        exact ⟨⟨u, outages, _, ht, rfl⟩, trivial⟩
    | _ => trivial
  obtain ⟨_, hanswered⟩ := (made_run hstart schedule).2 _ hmem
  obtain ⟨headers, preview, hin, writer, written, hkey, hmade⟩ := hanswered result rfl
  obtain ⟨hcontent, hpieces⟩ := sameContent_of_key hdigests hkey
  refine ⟨headers, preview, hin, written, hpieces, fun m hm => ?_⟩
  rcases hmade m hm with ⟨header, hheader, target, htarget, rfl⟩ | ⟨mapper, huploading, asked,
    rows, answer, hasked, hanswer, hm'⟩
  · exact .inl ⟨header, hheader, target, (fieldNames_sameContent hcontent).mem_iff.mpr htarget, rfl⟩
  · right
    obtain ⟨slm, api, hschema, rfl⟩ := hslm writer mapper huploading
    obtain ⟨k, _, _, content, rest, hcall, hvalid⟩ :=
      mapHeaders_ok.mp hanswer
    have hprompt : (slm.request env.rt asked rows).system = buildSystemPrompt svc.schema := by
      show buildSystemPrompt slm.schema = _
      rw [hschema]
      exact (buildSystemPrompt_sameContent hcontent).symm
    exact ⟨asked, hasked, writer, slm, api, rows, k, content, rest, answer, huploading, hprompt,
      hcall, hvalid, hm'⟩

/-! ## A digest and an upload -/

/-- The eight hexadecimal digits of a character. -/
def hexChar (c : Char) : List Char :=
  JsonText.hex4 (c.toNat / 65536) ++ JsonText.hex4 (c.toNat % 65536)

/-- A digest that forgets nothing. -/
def hexText (s : String) : String := String.ofList (s.toList.flatMap hexChar)

theorem hex4_append_inj {m n : Nat} (hm : m < 0x10000) (hn : n < 0x10000) {r s : List Char}
    (h : JsonText.hex4 m ++ r = JsonText.hex4 n ++ s) : m = n ∧ r = s := by
  unfold JsonText.hex4 at h
  simp only [List.cons_append, List.nil_append, List.cons.injEq] at h
  obtain ⟨h₁, h₂, h₃, h₄, hrest⟩ := h
  have hvalue := JsonText.hexValue4_hex4 hm
  rw [h₁, h₂, h₃, h₄, JsonText.hexValue4_hex4 hn] at hvalue
  exact ⟨hvalue.symm, hrest⟩

theorem hexText_inj : Function.Injective hexText := by
  have hlists : ∀ cs ds : List Char, cs.flatMap hexChar = ds.flatMap hexChar → cs = ds := by
    intro cs
    induction cs with
    | nil =>
        intro ds h
        cases ds with
        | nil => rfl
        | cons d ds => cases h
    | cons c cs ih =>
        intro ds h
        cases ds with
        | nil => cases h
        | cons d ds =>
            have hc := JsonText.toNat_lt c
            have hd := JsonText.toNat_lt d
            rw [List.flatMap_cons, List.flatMap_cons, hexChar, hexChar, List.append_assoc,
              List.append_assoc] at h
            obtain ⟨hhigh, h⟩ := hex4_append_inj (by omega) (by omega) h
            obtain ⟨hlow, h⟩ := hex4_append_inj (by omega) (by omega) h
            have hsame : c.toNat = d.toNat := by omega
            rw [Char.toNat_inj.mp hsame, ih ds h]
  intro s t h
  exact String.toList_inj.mp (hlists _ _ (String.ofList_inj.mp h))

theorem digitChar_ne_colon : ∀ n < 16, Nat.digitChar n ≠ ':' := by decide

theorem hexText_hex (s : String) : ':' ∉ (hexText s).toList := by
  have hfour : ∀ n, ':' ∉ JsonText.hex4 n := by
    intro n
    unfold JsonText.hex4
    simp only [List.mem_cons, List.not_mem_nil, or_false, not_or]
    exact ⟨(digitChar_ne_colon _ (by omega)).symm, (digitChar_ne_colon _ (by omega)).symm,
      (digitChar_ne_colon _ (by omega)).symm, (digitChar_ne_colon _ (by omega)).symm⟩
  unfold hexText
  rw [String.toList_ofList, List.mem_flatMap]
  rintro ⟨c, _, hmem⟩
  rcases List.mem_append.mp hmem with hmem | hmem
  · exact hfour _ hmem
  · exact hfour _ hmem

/-- An API that takes PRMA for the gross premium. -/
def premiumEnv : SlmEnv where
  rt := { Runtime.plain with
    blake2b := fun j => hexText (String.ofList (JsonText.text Runtime.plain.reprFloat j)) }
  parseJson _ := .ok (MappingResult.encode
    ⟨[⟨"PRMA", "Gross_Premium", 1, ColumnMapping.certain⟩], ["Policy No"], by simp⟩)

theorem premiumEnv_digests : Digests premiumEnv.rt hexText where
  text _ := rfl
  hash_inj := hexText_inj
  hash_hex := hexText_hex
  sha256_inj := fun _ _ h => h

def premiumSlm : GroqMapper := { schema := premiumSchema, semaphore := true }

/-- An upload whose headers the SLM is asked about. -/
def askedUpload : Upload :=
  { acmeUpload with
    mapper := premiumSlm.mapHeaders premiumEnv fun _ _ => .ok [some "mapped"]
    cedentId := none }

theorem premium_answer_asked :
    ∃ (result : ProcessingResult) (headers : List String) (preview : List Row),
      askedUpload.ingested premiumEnv.rt = .ok (headers, preview) ∧
      ∃ written, headerPieces premiumEnv.rt headers = headerPieces premiumEnv.rt written ∧
        ∀ m ∈ result.mapping.mappings,
          (∃ header ∈ written, ∃ target ∈ premiumService.schema.fieldNames,
            m = correctedMapping (header, target)) ∨
          ∃ asked, (∀ h ∈ asked, h ∈ written) ∧
            AnsweredTo premiumEnv [.upload premiumService askedUpload {} .started]
              (buildSystemPrompt premiumService.schema) asked m := by
  have h := answers_asked premiumEnv hexText premiumEnv_digests
    [.upload premiumService askedUpload {} .started] [0, 0, 0, 0, 0] ?_ ?_ premiumService
    askedUpload {} _ (List.mem_of_getElem? (i := 0) rfl)
  · obtain ⟨headers, preview, hrest⟩ := h
    exact ⟨_, headers, preview, hrest⟩
  · intro t ht
    rw [List.mem_singleton.mp ht]
    rfl
  · intro svc mapper ⟨u, outages, phase, hmem, hmapper⟩
    cases List.mem_singleton.mp hmem
    exact ⟨premiumSlm, fun _ _ => .ok [some "mapped"], rfl, hmapper.symm⟩

end RiskFlow
