import RiskFlow.Lib.Sections
import RiskFlow.Lib.Separated
import RiskFlow.Tools.FetchedPulls

/-!
# NotesText — the release notes as a text

`format_release_notes` puts every pull request under the header of its
category, in the order of the numbers. The text is a release note of one
version and one set of pull requests only, in whatever order `gh` lists them.
-/

namespace RiskFlow

open Lib

/-! ## Categories -/

inductive Category
  | features
  | fixes
  | infrastructure
  | docs
  deriving DecidableEq

/-- `_CATEGORY_RULES`: the words between `\b` and `\b`. Of `docs?` and
`lessons?` both words are listed. -/
def categoryRules : List (Category × List String) :=
  [(.fixes, ["fix", "fixes", "fixed", "upgrade", "bump", "patch", "cve", "security"]),
    (.infrastructure, ["ci", "cd", "docker", "workflow", "hook", "pre-commit", "coverage",
      "release", "lint"]),
    (.docs, ["doc", "docs", "documentation", "readme", "presentation", "session", "lesson",
      "lessons"]),
    (.features, ["add", "implement", "new", "create", "support", "enable"])]

/-- `_SECTION_HEADERS`. -/
def Category.header : Category → List Char
  | .features => "**Features**".toList
  | .fixes => "**Bug fixes**".toList
  | .infrastructure => "**Infrastructure**".toList
  | .docs => "**Documentation**".toList

/-- `_SECTION_ORDER`. -/
def sectionOrder : List Category := [.features, .fixes, .infrastructure, .docs]

theorem mem_sectionOrder (cat : Category) : cat ∈ sectionOrder := by
  cases cat with
  | features => decide
  | fixes => decide
  | infrastructure => decide
  | docs => decide

section Notes
variable (rt : Runtime) (isWord : Char → Bool)

/-- `\b` between two neighbours, if there are two. -/
def boundary (before after : Option Char) : Bool := before.any isWord != after.any isWord

/-- `re.search(r"\b<word>\b", text)`, where `before` stands before the text. -/
def searchWord (word : List Char) (before : Option Char) : List Char → Bool
  | [] => word.isEmpty && boundary isWord before none
  | c :: cs =>
      (boundary isWord before (some c) && word.isPrefixOf (c :: cs) &&
        boundary isWord (word.getLast?.or before) ((c :: cs).drop word.length).head?) ||
      searchWord word (some c) cs

/-- `categorise_pr`; `isWord` is `\w`. -/
def categorisePr (title : List Char) : Category :=
  let titleLower := (rt.lower (String.ofList title)).toList
  let rule? := categoryRules.find? fun rule =>
    rule.2.any fun word => searchWord isWord word.toList none titleLower
  (rule?.map Prod.fst).getD .features

/-- `key=lambda p: p.number`. -/
def notAbove (p q : PR) : Prop := p.number ≤ q.number

instance : DecidableRel notAbove := fun _ _ => Int.decLe _ _

/-- The groups before they are sorted. -/
def appendPrs (prs : List PR) : Category → List PR :=
  prs.foldl
    (fun groups pr =>
      Function.update groups (categorisePr rt isWord pr.title)
        (groups (categorisePr rt isWord pr.title) ++ [pr]))
    fun _ => []

/-- `group_prs`. -/
def groupPrs (prs : List PR) (cat : Category) : List PR :=
  (appendPrs rt isWord prs cat).insertionSort notAbove

/-- `f"- {pr.title} (#{pr.number})"`. -/
def PR.bullet (pr : PR) : List Char :=
  "- ".toList ++ pr.title ++ " (#".toList ++ strOfInt pr.number ++ ")".toList

/-- The lines of the notes. -/
def notesLines (version : List Char) (prs : List PR) : List (List Char) :=
  ("### What's new in v".toList ++ version) :: [] ::
    if prs = [] then ["No merged PRs since the last release.".toList]
    else sections Category.header [] (fun cat => (groupPrs rt isWord prs cat).map PR.bullet)
      sectionOrder

/-- `format_release_notes`. -/
def formatReleaseNotes (version : List Char) (prs : List PR) : List Char :=
  List.intercalate [newline] (notesLines rt isWord version prs)

/-- `main`, from the version and from what `gh` printed. -/
def releaseNotes (version stdout : List Char) : Except PyErr (List Char) := do
  let prs ← fetchPrs stdout
  return formatReleaseNotes rt isWord version prs

/-! ## Groups -/

theorem appendPrs_eq (prs : List PR) (cat : Category) :
    appendPrs rt isWord prs cat =
      prs.filter fun pr => categorisePr rt isWord pr.title = cat := by
  have hfold : ∀ groups : Category → List PR,
      prs.foldl
        (fun groups pr =>
          Function.update groups (categorisePr rt isWord pr.title)
            (groups (categorisePr rt isWord pr.title) ++ [pr])) groups cat =
        groups cat ++ prs.filter fun pr => categorisePr rt isWord pr.title = cat := by
    induction prs with
    | nil => simp
    | cons pr rest ih =>
        intro groups
        rw [List.foldl_cons, ih, List.filter_cons]
        by_cases hcat : categorisePr rt isWord pr.title = cat
        · simp [hcat]
        · have hne : cat ≠ categorisePr rt isWord pr.title := fun heq => hcat heq.symm
          simp [hcat, Function.update_of_ne hne]
  exact hfold _

theorem groupPrs_perm (prs : List PR) (cat : Category) :
    (groupPrs rt isWord prs cat).Perm
      (prs.filter fun pr => categorisePr rt isWord pr.title = cat) := by
  rw [← appendPrs_eq]
  exact List.perm_insertionSort _ _

theorem groupPrs_pairwise (prs : List PR) (cat : Category) :
    (groupPrs rt isWord prs cat).Pairwise notAbove :=
  haveI : Std.Total notAbove := ⟨fun p q => Int.le_total p.number q.number⟩
  haveI : IsTrans PR notAbove := ⟨fun _ _ _ hpq hqr => Int.le_trans hpq hqr⟩
  List.pairwise_insertionSort _ _

/-- **Every pull request is in one group**, as often as it was fetched. -/
theorem groups_perm (prs : List PR) : (sectionOrder.flatMap (groupPrs rt isWord prs)).Perm prs := by
  have hgroups : (sectionOrder.flatMap (groupPrs rt isWord prs)).Perm
      (byClass (fun pr => categorisePr rt isWord pr.title) sectionOrder prs) :=
    List.Perm.flatMap_left _ fun cat _ => groupPrs_perm rt isWord prs cat
  exact hgroups.trans (byClass_perm (by decide) fun pr _ => mem_sectionOrder _)

/-- What the notes show of a pull request. -/
def PR.shown (pr : PR) : Int × List Char := (pr.number, pr.title)

section Listed
variable {prs prs' : List PR}

/-- The pull requests of a category are listed in the order of their numbers,
whatever the order they were fetched in. -/
theorem groupPrs_shown_eq (hone : (prs.map PR.number).Nodup)
    (h : (prs.map PR.shown).Perm (prs'.map PR.shown)) (cat : Category) :
    (groupPrs rt isWord prs cat).map PR.shown = (groupPrs rt isWord prs' cat).map PR.shown := by
  have hfilter : ∀ l : List PR,
      ((groupPrs rt isWord l cat).map PR.shown).Perm
        ((l.map PR.shown).filter fun s => categorisePr rt isWord s.2 = cat) := by
    intro l
    rw [List.filter_map]
    exact (groupPrs_perm rt isWord l cat).map _
  have hpairwise : ∀ l : List PR,
      ((groupPrs rt isWord l cat).map PR.shown).Pairwise fun s t => s.1 ≤ t.1 :=
    fun l => List.pairwise_map.mpr (groupPrs_pairwise rt isWord l cat)
  have hperm : ((groupPrs rt isWord prs cat).map PR.shown).Perm
      ((groupPrs rt isWord prs' cat).map PR.shown) :=
    (hfilter prs).trans ((h.filter _).trans (hfilter prs').symm)
  have hnumbers : ((prs.map PR.shown).map Prod.fst).Nodup := by
    rw [List.map_map]
    exact hone
  refine hperm.eq_of_pairwise (fun s t hs ht hst hts => ?_) (hpairwise prs) (hpairwise prs')
  have hmem : ∀ u ∈ (groupPrs rt isWord prs cat).map PR.shown, u ∈ prs.map PR.shown :=
    fun u hu => List.mem_of_mem_filter ((hfilter prs).mem_iff.mp hu)
  exact List.inj_on_of_nodup_map hnumbers (hmem s hs) (hmem t (hperm.mem_iff.mpr ht))
    (le_antisymm hst hts)

/-- The groups hold what was fetched. -/
theorem perm_of_groupPrs_shown
    (h : ∀ cat, (groupPrs rt isWord prs cat).map PR.shown =
      (groupPrs rt isWord prs' cat).map PR.shown) :
    (prs.map PR.shown).Perm (prs'.map PR.shown) := by
  have hsections : (sectionOrder.flatMap (groupPrs rt isWord prs)).map PR.shown =
      (sectionOrder.flatMap (groupPrs rt isWord prs')).map PR.shown := by
    rw [List.map_flatMap, List.map_flatMap]
    exact List.flatMap_congr fun cat _ => h cat
  have hprs := (groups_perm rt isWord prs).map PR.shown
  rw [hsections] at hprs
  exact hprs.symm.trans ((groups_perm rt isWord prs').map PR.shown)

end Listed

/-! ## Lines -/

theorem PR.bullet_ne_nil (pr : PR) : pr.bullet ≠ [] := by simp [bullet]

/-- **A bullet tells** the number and the title: the last `#` is the one in
front of the number. -/
theorem PR.bullet_inj {p q : PR} : p.bullet = q.bullet ↔ p.shown = q.shown := by
  have hclear : ∀ n : Int, Clear (fun c => c == '#') (strOfInt n).reverse := by
    intro n c hc
    rcases mem_strOfInt (List.mem_reverse.mp hc) with rfl | hdigit
    · decide
    · by_contra hhash
      have heq : c = '#' := by simpa using hhash
      rw [heq] at hdigit
      exact absurd hdigit (by decide)
  have hback : ∀ r : PR, r.bullet.reverse =
      ')' :: ((strOfInt r.number).reverse ++
        '#' :: '(' :: ' ' :: (r.title.reverse ++ [' ', '-'])) := by
    intro r
    simp [bullet]
  have hstops : ∀ r : PR, Stops (fun c => c == '#')
      ('#' :: '(' :: ' ' :: (r.title.reverse ++ [' ', '-'])) := by
    intro r b hb
    cases hb
    rfl
  constructor
  · intro h
    have hreverse := congrArg List.reverse h
    rw [hback, hback] at hreverse
    obtain ⟨hnumber, hrest⟩ := (hclear p.number).append_inj (hstops p) (hclear q.number)
      (hstops q) (List.cons.inj hreverse).2
    have htitle : p.title = q.title := by
      apply List.reverse_injective
      refine @List.append_cancel_right _ _ [' ', '-'] _ ?_
      simpa using hrest
    exact Prod.ext (strOfInt_injective (List.reverse_injective hnumber)) htitle
  · intro h
    obtain ⟨hnumber, htitle⟩ := Prod.mk.inj h
    rw [bullet, bullet, hnumber, htitle]

theorem map_bullet_inj {prs prs' : List PR} :
    prs.map PR.bullet = prs'.map PR.bullet ↔ prs.map PR.shown = prs'.map PR.shown := by
  have hmap : ∀ {β : Type} (f : PR → β), prs.map f = prs'.map f ↔
      List.Forall₂ (fun p q => f p = f q) prs prs' := by
    intro β f
    rw [← List.forall₂_eq_eq_eq, List.forall₂_map_left_iff, List.forall₂_map_right_iff]
  rw [hmap, hmap]
  simp only [PR.bullet_inj]

theorem Category.header_injective : Function.Injective Category.header := by
  intro c c' h
  cases c <;> cases c' <;> first | rfl | exact absurd h (by decide)

section Text
variable {version version' : List Char} {prs prs' : List PR}

theorem no_pulls_ne_sections (entries : Category → List (List Char)) :
    ["No merged PRs since the last release.".toList] ≠
      sections Category.header [] entries sectionOrder := by
  intro h
  have hhead : (sections Category.header [] entries sectionOrder).head? =
      some "No merged PRs since the last release.".toList := by
    rw [← h]
    rfl
  obtain ⟨cat, _, htitle⟩ := sections_head hhead
  cases cat with
  | features => exact absurd htitle (by decide)
  | fixes => exact absurd htitle (by decide)
  | infrastructure => exact absurd htitle (by decide)
  | docs => exact absurd htitle (by decide)

/-- The sections tell what is listed under each header. -/
theorem sections_bullets_eq_iff (groups groups' : Category → List PR) :
    sections Category.header [] (fun cat => (groups cat).map PR.bullet) sectionOrder =
        sections Category.header [] (fun cat => (groups' cat).map PR.bullet) sectionOrder ↔
      ∀ cat, (groups cat).map PR.shown = (groups' cat).map PR.shown := by
  have hmark : ∀ l : List PR, [] ∉ l.map PR.bullet := by
    intro l hmem
    obtain ⟨pr, _, hnil⟩ := List.mem_map.mp hmem
    exact pr.bullet_ne_nil hnil
  rw [sections_eq_iff Category.header_injective (by decide) (fun cat _ => hmark _)
    (fun cat _ => hmark _)]
  simp only [map_bullet_inj]
  exact ⟨fun h cat => h cat (mem_sectionOrder cat), fun h cat _ => h cat⟩

/-- The lines tell the version and what is listed under each header. -/
theorem notesLines_inj :
    notesLines rt isWord version prs = notesLines rt isWord version' prs' ↔
      version = version' ∧ ∀ cat, (groupPrs rt isWord prs cat).map PR.shown =
        (groupPrs rt isWord prs' cat).map PR.shown := by
  unfold notesLines
  rw [List.cons.injEq, List.cons.injEq, List.append_right_inj, eq_self, true_and]
  refine and_congr_right fun _ => ?_
  by_cases hprs : prs = []
  · by_cases hprs' : prs' = []
    · simp [hprs, hprs']
    · rw [if_pos hprs, if_neg hprs']
      refine iff_of_false (no_pulls_ne_sections _) fun h => hprs' ?_
      have hperm := perm_of_groupPrs_shown rt isWord h
      simpa [hprs] using hperm
  · by_cases hprs' : prs' = []
    · rw [if_neg hprs, if_pos hprs']
      refine iff_of_false (no_pulls_ne_sections _).symm fun h => hprs ?_
      have hperm := perm_of_groupPrs_shown rt isWord h
      simpa [hprs'] using hperm
    · rw [if_neg hprs, if_neg hprs']
      exact sections_bullets_eq_iff _ _

/-- No line of the notes is broken. -/
theorem notesLines_clear (hversion : newline ∉ version)
    (htitles : ∀ pr ∈ prs, newline ∉ pr.title) :
    ∀ l ∈ notesLines rt isWord version prs, newline ∉ l := by
  have hnumber : ∀ n : Int, newline ∉ strOfInt n := by
    intro n hmem
    rcases mem_strOfInt hmem with hminus | hdigit
    · exact absurd hminus (by decide)
    · exact absurd hdigit (by decide)
  have hbullet : ∀ pr ∈ prs, newline ∉ pr.bullet := by
    intro pr hpr
    simp only [PR.bullet, List.mem_append, not_or]
    exact ⟨⟨⟨⟨by decide, htitles pr hpr⟩, by decide⟩, hnumber _⟩, by decide⟩
  intro l hl
  unfold notesLines at hl
  rcases List.mem_cons.mp hl with rfl | hl
  · rw [List.mem_append, not_or]
    exact ⟨by decide, hversion⟩
  · rcases List.mem_cons.mp hl with rfl | hl
    · exact List.not_mem_nil
    · split at hl
      · rw [List.mem_singleton.mp hl]
        decide
      · rcases cases_of_mem_sections hl with ⟨cat, rfl⟩ | rfl | ⟨cat, hentry⟩
        · cases cat <;> decide
        · exact List.not_mem_nil
        · obtain ⟨pr, hpr, rfl⟩ := List.mem_map.mp hentry
          have hlisted := (groupPrs_perm rt isWord prs cat).mem_iff.mp hpr
          exact hbullet pr (List.mem_of_mem_filter hlisted)

/-- Notes with unbroken titles are told apart as their lines are. -/
theorem formatReleaseNotes_eq_iff (hversion : newline ∉ version) (hversion' : newline ∉ version')
    (htitles : ∀ pr ∈ prs, newline ∉ pr.title) (htitles' : ∀ pr ∈ prs', newline ∉ pr.title) :
    formatReleaseNotes rt isWord version prs = formatReleaseNotes rt isWord version' prs' ↔
      notesLines rt isWord version prs = notesLines rt isWord version' prs' := by
  have hne : ∀ v : List Char, ∀ l : List PR, notesLines rt isWord v l ≠ [] :=
    fun _ _ => List.cons_ne_nil _ _
  rw [formatReleaseNotes, formatReleaseNotes, intercalate_eq_iff,
    pieces_of_clear (notesLines_clear rt isWord hversion htitles) (hne _ _),
    pieces_of_clear (notesLines_clear rt isWord hversion' htitles') (hne _ _)]

end Text

/-- A title that was read is not broken. -/
theorem fetchPrs_newline {stdout : List Char} {prs : List PR} (h : fetchPrs stdout = .ok prs) :
    ∀ pr ∈ prs, newline ∉ pr.title := by
  intro pr hpr hmem
  have huncut := (clear_cutsRow.mp (fetchPrs_uncut h pr hpr)).2 newline hmem
  exact absurd huncut (by decide)

/-- **Release notes tell what was merged.** Two texts that `main` writes, from
whatever `gh` printed, are the same exactly for one version and the same pull
requests, in any order. -/
theorem notes_tell_pulls {version version' stdout stdout' : List Char} {prs prs' : List PR}
    (hversion : newline ∉ version) (hversion' : newline ∉ version')
    (hprs : fetchPrs stdout = .ok prs) (hprs' : fetchPrs stdout' = .ok prs')
    (hone : (prs.map PR.number).Nodup) :
    releaseNotes rt isWord version stdout = releaseNotes rt isWord version' stdout' ↔
      version = version' ∧ (prs.map PR.shown).Perm (prs'.map PR.shown) := by
  have hnotes : ∀ {v out : List Char} {l : List PR}, fetchPrs out = .ok l →
      releaseNotes rt isWord v out = .ok (formatReleaseNotes rt isWord v l) :=
    fun h => bind_eq_ok.mpr ⟨_, h, rfl⟩
  rw [hnotes hprs, hnotes hprs', Except.ok.injEq, formatReleaseNotes_eq_iff rt isWord hversion
    hversion' (fetchPrs_newline hprs) (fetchPrs_newline hprs'), notesLines_inj]
  refine and_congr_right fun _ => ?_
  exact ⟨perm_of_groupPrs_shown rt isWord, groupPrs_shown_eq rt isWord hone⟩

end Notes

/-- A day in May. -/
def mayMidnight : ClockTime := .ofDateTime (.midnight ⟨2024, 5, 6, by decide⟩)

/-- A fix and a change of the build. -/
def loginFix : MergedPull := ⟨7, "Fix the login".toList, mayMidnight⟩

def dockerCache : MergedPull := ⟨12, "Cache docker layers".toList, mayMidnight⟩

/-- The two in either order are one release note. -/
theorem notes_in_either_order :
    releaseNotes .plain Char.isAlphanum "1.2.0".toList (ghOutput [loginFix, dockerCache]) =
      releaseNotes .plain Char.isAlphanum "1.2.0".toList (ghOutput [dockerCache, loginFix]) := by
  have hversion : newline ∉ "1.2.0".toList := by decide
  have hfix : Clear cutsRow loginFix.title := by
    simp [loginFix, cutsRow, isLineBreak, tab]
  have hcache : Clear cutsRow dockerCache.title := by
    simp [dockerCache, cutsRow, isLineBreak, tab]
  have hprs := @fetchPrs_ghOutput [loginFix, dockerCache] (by simp [hfix, hcache])
  have hprs' := @fetchPrs_ghOutput [dockerCache, loginFix] (by simp [hfix, hcache])
  exact (notes_tell_pulls .plain Char.isAlphanum hversion hversion hprs hprs' (by decide)).mpr
    ⟨rfl, List.Perm.swap _ _ _⟩

end RiskFlow
