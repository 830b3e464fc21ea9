import RiskFlow.Tools.RequiredParameters
import RiskFlow.Tools.VersionBumps

/-!
# ReleaseRuns — the recorded version, bump after bump

`main` of `tools/bump_version.py` compares the committed spec with the one
of the app, and rewrites the version and the spec where they differ. A
change of no kind leaves the committed spec as it is, so the two files
follow the app only up to such changes. Runs of it, with dry runs and fresh
exports in between, record what an ideal release log records, and its major
number promises what the classifier checks.
-/

namespace RiskFlow

open Lib

/-! ## The two files and what changes them -/

/-- `pyproject.toml`, and `openapi.json` if it is there. -/
structure Release where
  pyproject : List Char
  openapi : Option Spec

/-- `write_version` of a text without a backslash, which stands for itself in
the replacement. -/
def writeVersionText (newVersion file : List Char) : List Char :=
  let content := readText file
  match searchVersion true content with
  | some (pre, _, post) => pre ++ (versionKey ++ (newVersion ++ '"' :: post))
  | none => content

theorem writeVersionText_text (v : Version) (file : List Char) :
    writeVersionText v.text file = writeVersion v file := rfl

/-- `main` of `tools/bump_version.py`, where the app's spec is `live`: what it
returns and the files it leaves. -/
def bumpMain (dryRun : Bool) (live : Spec) (r : Release) :
    Except PyErr (Option (List Char) × Release) :=
  match r.openapi with
  | none => .ok (none, r)
  | some committed => do
      let result := detectChanges committed live
      let currentVersion ← readVersion r.pyproject
      let nextVersion ← computeNextVersion currentVersion result.kind
      if nextVersion = currentVersion then return (none, r)
      if dryRun then return (some nextVersion, r)
      return (some nextVersion, ⟨writeVersionText nextVersion r.pyproject, some live⟩)

/-- `main` of `tools/export_openapi.py`, to `openapi.json`. -/
def exportMain (live : Spec) (r : Release) : Release := { r with openapi := some live }

/-- One of the two tools is run while the app has this spec. -/
inductive ReleaseStep where
  | bump (dryRun : Bool) (live : Spec)
  | exportSpec (live : Spec)

def ReleaseStep.isBump : ReleaseStep → Bool
  | .bump _ _ => true
  | .exportSpec _ => false

def ReleaseStep.run (r : Release) : ReleaseStep → Except PyErr (Option (List Char) × Release)
  | .bump dryRun live => bumpMain dryRun live r
  | .exportSpec live => .ok (none, exportMain live r)

/-- What the runs of the tools return, and the files they leave. -/
def releaseRun : List ReleaseStep → Release → Except PyErr (List (Option (List Char)) × Release)
  | [], r => .ok ([], r)
  | step :: rest, r => do
      let (answer, r') ← step.run r
      let (answers, last) ← releaseRun rest r'
      return (answer :: answers, last)

/-! ## The release log -/

/-- A version and the API it was given to. -/
structure Recorded where
  version : Version
  api : Spec

namespace Recorded

/-- The API of the last bump that was no dry run, or of a later export, is
the one the next change is judged by. -/
def step (log : Recorded) : ReleaseStep → Option (List Char) × Recorded
  | .bump dryRun live =>
      let kind := (detectChanges log.api live).kind
      (if kind = .none then none else some (log.version.next kind).text,
        if dryRun then log else ⟨log.version.next kind, live⟩)
  | .exportSpec live => (none, ⟨log.version, live⟩)

def run : List ReleaseStep → Recorded → List (Option (List Char)) × Recorded
  | [], log => ([], log)
  | step :: rest, log =>
      ((log.step step).1 :: (run rest (log.step step).2).1, (run rest (log.step step).2).2)

/-- What the numbers of the later version say about its API, in the terms in
which the classifier compares: paths, methods and response codes, and of the
parameters of one name the last. Locations and bodies it does not compare. -/
structure Promises (log later : Recorded) : Prop where
  grows : log.version.value ≤ later.version.value
  compatible : Py.intOfDigits log.version.major = Py.intOfDigits later.version.major →
    log.api.Compatible later.api
  same : log.version.value = later.version.value → log.api.Same later.api

end Recorded

/-- The files hold what the log records: the version on its line between the
given ones, and a spec without a difference. -/
structure Release.Holds (before after : List Char) (r : Release) (log : Recorded) : Prop where
  file : RiskFlow.Holds before after log.version r.pyproject
  spec : ∃ committed, r.openapi = some committed ∧ committed.Same log.api

/-! ## Versions in order -/

theorem Version.text_inj {v w : Version} (h : v.text = w.text) :
    v.major = w.major ∧ v.minor = w.minor ∧ v.patch = w.patch := by
  have hunpack := unpackVersion_text v
  rw [h, unpackVersion_text w] at hunpack
  simpa [eq_comm] using hunpack

/-- Only a change of no kind leaves the text. -/
theorem Version.next_text_eq_iff {v : Version} {kind : ChangeKind} :
    (v.next kind).text = v.text ↔ kind = .none := by
  constructor
  · intro h
    by_contra hkind
    obtain ⟨hmajor, hminor, hpatch⟩ := Version.text_inj h
    have hlt := v.value_lt_next hkind
    rw [Version.value, Version.value, hmajor, hminor, hpatch] at hlt
    exact lt_irrefl _ hlt
  · intro h
    rw [h]
    rfl

theorem Version.major_le {v w : Version} (h : v.value ≤ w.value) :
    Py.intOfDigits v.major ≤ Py.intOfDigits w.major := by
  rcases Prod.Lex.toLex_le_toLex.mp h with hlt | ⟨heq, _⟩
  · exact hlt.le
  · exact heq.le

/-! ## The promises of the log -/

namespace Recorded
variable {log later last : Recorded}

theorem Promises.refl (log : Recorded) : log.Promises log where
  grows := le_rfl
  compatible _ := log.api.compatible_refl
  same _ := log.api.same_refl

/-- Between equal numbers there are only equal ones. -/
theorem Promises.trans (h : log.Promises later) (h' : later.Promises last) :
    log.Promises last where
  grows := h.grows.trans h'.grows
  compatible hmajor := by
    have hlow := Version.major_le h.grows
    have hhigh := Version.major_le h'.grows
    exact Spec.compatible_trans _ _ _ (h.compatible (by omega)) (h'.compatible (by omega))
  same hvalue := by
    have hfirst : log.version.value = later.version.value :=
      le_antisymm h.grows (h'.grows.trans_eq hvalue.symm)
    exact Spec.same_trans _ _ _ (h.same hfirst) (h'.same (hfirst.symm.trans hvalue))

/-- **The kind of a change decides the number that moves.** -/
theorem promises_next (log : Recorded) (live : Spec) :
    log.Promises ⟨log.version.next (detectChanges log.api live).kind, live⟩ := by
  cases hkind : (detectChanges log.api live).kind with
  | none =>
      have hsame : log.api.Same live := kind_eq_none.mp hkind
      exact ⟨le_rfl, fun _ => compatible_of_same _ _ hsame, fun _ => hsame⟩
  | nonBreaking =>
      have hlt : log.version.value < (log.version.next .nonBreaking).value :=
        log.version.value_lt_next nofun
      refine ⟨hlt.le, fun _ => ?_, fun heq => absurd heq hlt.ne⟩
      rw [← kind_ne_breaking, hkind]
      exact nofun
  | breaking =>
      have hlt : log.version.value < (log.version.next .breaking).value :=
        log.version.value_lt_next nofun
      refine ⟨hlt.le, fun hmajor => ?_, fun heq => absurd heq hlt.ne⟩
      have hnext : Py.intOfDigits (log.version.next .breaking).major =
          Py.intOfDigits log.version.major + 1 := intOfDigits_toDigits _
      dsimp only at hmajor
      omega

theorem promises_step (log : Recorded) {step : ReleaseStep} (h : step.isBump = true) :
    log.Promises (log.step step).2 := by
  cases step with
  | exportSpec live => cases h
  | bump dryRun live =>
      cases dryRun with
      | true => exact .refl log
      | false => exact promises_next log live

theorem promises_run (log : Recorded) {steps : List ReleaseStep}
    (h : ∀ step ∈ steps, step.isBump = true) : log.Promises (run steps log).2 := by
  induction steps generalizing log with
  | nil => exact .refl log
  | cons step rest ih =>
      rw [List.forall_mem_cons] at h
      exact (promises_step log h.1).trans (ih _ h.2)

end Recorded

/-! ## The files follow the log -/

section Follow
variable {before after : List Char} {r : Release} {log : Recorded}

/-- **A bump answers and writes what the log says.** The committed spec may
be older than the log's, but compares alike with every third one. -/
theorem Release.Holds.bump (h : r.Holds before after log) (dryRun : Bool) (live : Spec) :
    ∃ r', bumpMain dryRun live r = .ok ((log.step (.bump dryRun live)).1, r') ∧
      r'.Holds before after (log.step (.bump dryRun live)).2 := by
  obtain ⟨hfile, committed, hspec, hsame⟩ := h
  have hkind : (detectChanges committed live).kind = (detectChanges log.api live).kind :=
    (kind_congr_of_same hsame live).1
  simp only [bumpMain, hspec, hfile.read, hkind, Recorded.step]
  generalize hk : (detectChanges log.api live).kind = kind
  have hnext := computeNextVersion_text log.version kind
  by_cases hnone : kind = .none
  · -- neither file is written, and the spec of the log moves to one without a difference
    subst hnone
    have hlive : log.api.Same live := kind_eq_none.mp hk
    refine ⟨r, ?_, ?_⟩
    · simp [hnext, Version.next, pure, Except.pure, bind, Except.bind]
    · cases dryRun with
      | true => exact ⟨hfile, committed, hspec, hsame⟩
      | false => exact ⟨hfile, committed, hspec, Spec.same_trans _ _ _ hsame hlive⟩
  · have hnew : (log.version.next kind).text ≠ log.version.text := fun heq =>
      hnone (Version.next_text_eq_iff.mp heq)
    cases dryRun with
    | true =>
        refine ⟨r, ?_, ⟨hfile, committed, hspec, hsame⟩⟩
        simp [hnext, hnew, hnone, pure, Except.pure, bind, Except.bind]
    | false =>
        refine ⟨⟨writeVersion (log.version.next kind) r.pyproject, some live⟩, ?_,
          ⟨hfile.write _, live, rfl, live.same_refl⟩⟩
        simp [hnext, hnew, hnone, pure, Except.pure, bind, Except.bind, writeVersionText_text]

theorem Release.Holds.step (h : r.Holds before after log) (step : ReleaseStep) :
    ∃ r', step.run r = .ok ((log.step step).1, r') ∧ r'.Holds before after (log.step step).2 := by
  cases step with
  | bump dryRun live => exact h.bump dryRun live
  | exportSpec live => exact ⟨exportMain live r, rfl, h.file, live, rfl, live.same_refl⟩

/-- Every run of the tools follows the log. -/
theorem Release.Holds.run (h : r.Holds before after log) (steps : List ReleaseStep) :
    ∃ r', releaseRun steps r = .ok ((Recorded.run steps log).1, r') ∧
      r'.Holds before after (Recorded.run steps log).2 := by
  induction steps generalizing r log with
  | nil => exact ⟨r, rfl, h⟩
  | cons step rest ih =>
      obtain ⟨r₁, hstep, h₁⟩ := h.step step
      obtain ⟨r₂, hrest, h₂⟩ := ih h₁
      refine ⟨r₂, ?_, h₂⟩
      exact bind_eq_ok.mpr ⟨_, hstep, bind_eq_ok.mpr ⟨_, hrest, rfl⟩⟩

end Follow

/-- **The recorded version keeps its promise.** From a `pyproject.toml` whose
version line the writer rewrites and a committed spec, every run of the tools
returns what the log returns and leaves the version of the log on that line,
every other line as it was, and a spec in which the classifier finds no
difference to the log's. And over bumps alone the version never falls, an
equal major number means that the later API is compatible with the earlier
one in what the classifier compares, and an equal version that it is the
same in that. -/
theorem recorded_versions_promise {before after : List Char} {r : Release} {version : Version}
    {committed : Spec} (hfile : Holds before after version r.pyproject)
    (hspec : r.openapi = some committed) (first second : List ReleaseStep) :
    ∃ r₁ r₂ : Release, ∃ log₁ log₂ : Recorded,
      log₁ = (Recorded.run first ⟨version, committed⟩).2 ∧ log₂ = (Recorded.run second log₁).2 ∧
      releaseRun first r = .ok ((Recorded.run first ⟨version, committed⟩).1, r₁) ∧
      releaseRun second r₁ = .ok ((Recorded.run second log₁).1, r₂) ∧
      r₁.Holds before after log₁ ∧ r₂.Holds before after log₂ ∧
      ((∀ step ∈ second, step.isBump = true) → log₁.Promises log₂) := by
  have hstart : r.Holds before after ⟨version, committed⟩ :=
    ⟨hfile, committed, hspec, committed.same_refl⟩
  obtain ⟨r₁, hfirst, h₁⟩ := hstart.run first
  obtain ⟨r₂, hsecond, h₂⟩ := h₁.run second
  exact ⟨r₁, r₂, _, _, rfl, rfl, hfirst, hsecond, h₁, h₂, Recorded.promises_run _⟩

/-- Version 1.0.0, with one path. -/
def spacedRelease : Release := ⟨spacedFile, some (policySpec true)⟩

def version100 : Version where
  major := ['1']
  minor := ['0']
  patch := ['0']
  numbers := by
    have hone : Py.isDigit '1' = true := by decide
    have hzero : Py.isDigit '0' = true := by decide
    simp [hone, hzero]

theorem spacedFile_holds : Holds [] [newline] version100 spacedFile := by
  refine ⟨versionKey ++ ['1', '.', '0', '.', '0', '"'], ?_, ?_, rfl⟩
  · exact ⟨rfl, by simp [Whole], by simp [versionKey, isLineBreak],
      by simp [Stops, newline_isLineBreak], by simp, isVersionLine_key _, by simp [lines]⟩
  · exact ⟨by simp, ⟨['1', '.', '0', '.', '0'], [], rfl, by simp⟩, by simp⟩

/-- The path goes, first in a dry run, and comes back. -/
theorem path_removed_promise :
    ∃ r₁ r₂ : Release, ∃ log₁ log₂ : Recorded,
      log₁ = (Recorded.run [.bump true ⟨none⟩, .bump false ⟨none⟩]
        ⟨version100, policySpec true⟩).2 ∧
      log₂ = (Recorded.run [.bump false (policySpec true)] log₁).2 ∧
      releaseRun [.bump true ⟨none⟩, .bump false ⟨none⟩] spacedRelease =
        .ok ([some ['2', '.', '0', '.', '0'], some ['2', '.', '0', '.', '0']], r₁) ∧
      releaseRun [.bump false (policySpec true)] r₁ = .ok ([some ['2', '.', '1', '.', '0']], r₂) ∧
      r₁.Holds [] [newline] log₁ ∧ r₂.Holds [] [newline] log₂ ∧
      ((∀ step ∈ [ReleaseStep.bump false (policySpec true)], step.isBump = true) →
        log₁.Promises log₂) := by
  obtain ⟨r₁, r₂, _, _, rfl, rfl, h⟩ := recorded_versions_promise spacedFile_holds
    (show spacedRelease.openapi = some (policySpec true) from rfl)
    [.bump true ⟨none⟩, .bump false ⟨none⟩] [.bump false (policySpec true)]
  exact ⟨r₁, r₂, _, _, rfl, rfl, h⟩

end RiskFlow
