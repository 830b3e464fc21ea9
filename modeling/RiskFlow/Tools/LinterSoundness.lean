import RiskFlow.Tools.HexagonalLinter

/-!
# LinterSoundness — which imports between layers the linter sees

What a statement imports, by the rules of the import system, against what
the linter reads off it. An import is missed where the layer stands in the
imported name, and a relative import is reported where the text after its
dots happens to begin like a module of a layer.
-/

namespace RiskFlow

open Lib

/-! ## What a statement imports -/

/-- The package `k` levels above the one the file is in, if there is one. -/
def PyFile.ancestor (file : PyFile) (k : Nat) : Option (List String) :=
  if k < file.package.length then some (file.package.take (file.package.length - k)) else none

/-- The module that `from` names: without dots the one spelled, with dots the
one spelled below the package that they lead to. -/
def PyFile.resolve (file : PyFile) (module : Option DottedName) : Nat → Option (List String)
  | 0 => module.map DottedName.parts
  | k + 1 => (file.ancestor k).map fun base => base ++ (module.map DottedName.parts).getD []

/-- The full names a statement imports. A name after `import` may be a
submodule of the module that `from` names. -/
def ImportForm.imported (file : PyFile) : ImportForm → List (List String)
  | .importModules names => names.map DottedName.parts
  | .importFrom module names level =>
      match file.resolve module level with
      | none => []
      | some target => target :: names.map fun c => target ++ [c]

/-- The layer that a module belongs to. Where the directory `src` is itself on
the path that modules are found on, its layers also go by their `bare` names. -/
def layerOf (bare : Bool) : List String → Option Layer
  | [] => none
  | first :: rest =>
      (if first = "src" then rest.head?.bind Layer.ofName? else none).or
        (if bare then Layer.ofName? first else none)

/-- The path lies in this layer and in no other. -/
def PyFile.InLayer (file : PyFile) (L : Layer) : Prop :=
  L.name ∈ file.parts ∧ ∀ M : Layer, M.name ∈ file.parts → M = L

/-- The statement is in the file, at whatever depth. -/
def PyFile.Has (file : PyFile) (s : ImportStmt) : Prop :=
  ∃ t, file.tree = some t ∧ Node.tree.Below t (.statement s)

section Meaning
variable (bare : Bool) (file : PyFile) (L : Layer)

/-- The statement imports a module of a layer that `L` may not import from. -/
def ImportForm.Crosses (form : ImportForm) : Prop :=
  ∃ name ∈ form.imported file, ∃ M, layerOf bare name = some M ∧ M ∉ L.rules

/-- The statement imports a package that is banned in `L`. -/
def ImportForm.NamesBanned (form : ImportForm) : Prop :=
  L ∈ infraBanLayers ∧ ∃ name ∈ form.imported file, ∃ p ∈ infraPackagesBannedInDomain,
    name.head? = some p

/-- **What the linter is for**: a line with an import across the layers is
reported, and a file without one and without a banned package is not. -/
def LintsSoundly (o : LayerOrder) : Prop :=
  (∀ s, file.Has s → s.form.Crosses bare file L → ∃ e ∈ checkFile o file, e.lineno = s.lineno) ∧
    ((∀ s, file.Has s → ¬s.form.Crosses bare file L ∧ ¬s.form.NamesBanned file L) →
      checkFile o file = [])

end Meaning

/-! ## What the linter reads -/

section Reading
variable (bare : Bool) (file : PyFile) (L : Layer)

/-- The text begins with the bare name of a layer that `L` may not import from. -/
def DottedName.BareForbidden (m : DottedName) : Prop := ∃ M, m.first = Layer.name M ∧ M ∉ L.rules

/-- The text is that of a forbidden layer or of a banned package. -/
def DottedName.Judged (m : DottedName) : Prop :=
  (∃ M, extractLocalLayer m = some M ∧ M ∉ L.rules) ∨
    extractLocalLayer m = none ∧ L ∈ infraBanLayers ∧ m.first ∈ infraPackagesBannedInDomain

/-- The linter reports the statement, going by what it spells. -/
def ImportForm.Reported (form : ImportForm) : Prop := ∃ m ∈ form.spelled, m.Judged L

/-- `from` names the package `src` itself, and a forbidden layer is imported by name. -/
def ImportForm.NamesLayerOfSrc : ImportForm → Prop
  | .importModules _ => False
  | .importFrom module names level =>
      file.resolve module level = some ["src"] ∧ ∃ M : Layer, M ∉ L.rules ∧ M.name ∈ names

/-- The text is that of a forbidden layer or of a banned package, the module
is not: the text stands after dots that do not lead to `src`, or it is a bare
layer where those are no modules. -/
def ImportForm.Misread : ImportForm → Prop
  | .importModules names => bare = false ∧ ∃ m ∈ names, m.BareForbidden L
  | .importFrom module _ level => ∃ m, module = some m ∧
      if level = 0 then bare = false ∧ m.BareForbidden L
      else m.Judged L ∧ ¬(file.resolve none level = some ["src"] ∧ m.BareForbidden L)

end Reading

/-! ## Layers of names -/

section Names
variable {bare : Bool} {L M : Layer} {m : DottedName} {base suffix : List String}

theorem name_ne_src (M : Layer) : M.name ≠ "src" := by
  cases M <;> decide

theorem layerOf_eq_some {name : List String} : layerOf bare name = some M ↔
    (∃ rest, name = "src" :: M.name :: rest) ∨ bare = true ∧ ∃ rest, name = M.name :: rest := by
  cases name with
  | nil => simp [layerOf]
  | cons first rest =>
      -- `src` is no layer, so at most one of the two readings gives one
      have hsrc : Layer.ofName? "src" = none := rfl
      simp only [layerOf]
      by_cases hfirst : first = "src"
      · subst hfirst
        cases rest with
        | nil => simp [hsrc, (name_ne_src M).symm]
        | cons second rest => simp [hsrc, Layer.ofName?_eq_some, (name_ne_src M).symm]
      · cases bare <;> simp [hfirst, Layer.ofName?_eq_some]

theorem extractLocalLayer_eq (m : DottedName) : extractLocalLayer m = layerOf true m.parts := rfl

theorem extractLocalLayer_eq_some : extractLocalLayer m = some M ↔
    (∃ rest, m.parts = "src" :: M.name :: rest) ∨ m.first = M.name := by
  rw [extractLocalLayer_eq, layerOf_eq_some]
  simp [DottedName.parts]

/-- Below a package of the own layer no other layer begins, unless the
package is `src` itself. -/
theorem layerOf_append (hbase : base ≠ []) (hown : ∀ N : Layer, N.name ∈ base → N = L)
    (hM : M ∉ L.rules) (h : layerOf bare (base ++ suffix) = some M) :
    base = ["src"] ∧ suffix.head? = some M.name := by
  have hother : M.name ∉ base := by
    intro hmem
    rw [hown M hmem] at hM
    exact hM L.self_mem_rules
  obtain ⟨b, bs, rfl⟩ := List.exists_cons_of_ne_nil hbase
  rcases layerOf_eq_some.mp h with ⟨rest, heq⟩ | ⟨_, rest, heq⟩
  · obtain ⟨rfl, htail⟩ := List.cons.inj heq
    cases bs with
    | nil =>
        have hsuffix : suffix = M.name :: rest := htail
        exact ⟨rfl, by rw [hsuffix, List.head?_cons]⟩
    | cons c cs =>
        obtain ⟨rfl, _⟩ := List.cons.inj htail
        exact absurd (by simp) hother
  · obtain ⟨rfl, _⟩ := List.cons.inj heq
    exact absurd List.mem_cons_self hother

/-- The module that an absolute import spells has the layer that the linter
reads off it; a name it imports from `src` may be a layer by itself. -/
theorem layerOf_parts_append (h : layerOf bare (m.parts ++ suffix) = some M) :
    extractLocalLayer m = some M ∨ m.parts = ["src"] ∧ suffix.head? = some M.name := by
  obtain ⟨first, rest⟩ := m
  rcases layerOf_eq_some.mp h with ⟨tail, heq⟩ | ⟨_, tail, heq⟩
  · obtain ⟨hfirst, htail⟩ := List.cons.inj heq
    cases rest with
    | nil =>
        have hsuffix : suffix = M.name :: tail := htail
        exact .inr ⟨congrArg (fun x => [x]) hfirst, by rw [hsuffix, List.head?_cons]⟩
    | cons second rest =>
        obtain ⟨hsecond, _⟩ := List.cons.inj htail
        refine .inl (extractLocalLayer_eq_some.mpr (.inl ⟨rest, ?_⟩))
        rw [DottedName.parts, hfirst, hsecond]
  · obtain ⟨hfirst, _⟩ := List.cons.inj heq
    exact .inl (extractLocalLayer_eq_some.mpr (.inr hfirst))

theorem judged_of_bareForbidden (h : m.BareForbidden L) : m.Judged L := by
  obtain ⟨M, hfirst, hM⟩ := h
  exact .inl ⟨M, extractLocalLayer_eq_some.mpr (.inr hfirst), hM⟩

end Names

/-! ## One statement -/

section Statement
variable {bare : Bool} {file : PyFile} {L : Layer} {form : ImportForm}

theorem ancestor_spec {k : Nat} {base : List String} (h : file.ancestor k = some base) :
    base ≠ [] ∧ ∀ x ∈ base, x ∈ file.parts := by
  unfold PyFile.ancestor at h
  split at h
  · rename_i hk
    obtain rfl := Option.some.inj h
    constructor
    · intro hnil
      have hlength := congrArg List.length hnil
      rw [List.length_take, List.length_nil] at hlength
      omega
    · intro x hx
      exact List.mem_append_left _ (List.mem_append_right _ (List.mem_of_mem_take hx))
  · cases h

/-- **What the linter overlooks**: an import across the layers is reported, or
the layer is a name imported from `src` itself. -/
theorem reported_or_namesLayerOfSrc (hL : file.InLayer L) (h : form.Crosses bare file L) :
    form.Reported L ∨ form.NamesLayerOfSrc file L := by
  obtain ⟨name, hname, M, hlayer, hM⟩ := h
  cases form with
  | importModules names =>
      obtain ⟨m, hm, rfl⟩ := List.mem_map.mp hname
      rw [← List.append_nil m.parts] at hlayer
      rcases layerOf_parts_append hlayer with hread | ⟨_, hnone⟩
      · exact .inl ⟨m, hm, .inl ⟨M, hread, hM⟩⟩
      · cases hnone
  | importFrom module names level =>
      simp only [ImportForm.imported] at hname
      cases htarget : file.resolve module level with
      | none =>
          rw [htarget] at hname
          cases hname
      | some target =>
          -- the module itself, or a name from it
          have hsuffix : ∃ suffix : List String, name = target ++ suffix ∧
              (suffix = [] ∨ ∃ c ∈ names, suffix = [c]) := by
            rw [htarget] at hname
            rcases List.mem_cons.mp hname with rfl | hname
            · exact ⟨[], (List.append_nil _).symm, .inl rfl⟩
            · obtain ⟨c, hc, rfl⟩ := List.mem_map.mp hname
              exact ⟨[c], rfl, .inr ⟨c, hc, rfl⟩⟩
          obtain ⟨suffix, rfl, hsuffix⟩ := hsuffix
          have hnamed : suffix.head? = some M.name → M.name ∈ names := by
            intro hhead
            rcases hsuffix with rfl | ⟨c, hc, rfl⟩
            · cases hhead
            · rwa [← Option.some.inj hhead]
          cases level with
          | zero =>
              obtain ⟨m, rfl, rfl⟩ := Option.map_eq_some_iff.mp htarget
              rcases layerOf_parts_append hlayer with hread | ⟨hsrc, hhead⟩
              · exact .inl ⟨m, List.mem_singleton_self m, .inl ⟨M, hread, hM⟩⟩
              · rw [hsrc] at htarget
                exact .inr ⟨htarget, M, hM, hnamed hhead⟩
          | succ k =>
              obtain ⟨base, hbase, rfl⟩ := Option.map_eq_some_iff.mp htarget
              obtain ⟨hne, hparts⟩ := ancestor_spec hbase
              rw [List.append_assoc] at hlayer
              obtain ⟨rfl, hhead⟩ := layerOf_append hne (fun N hN => hL.2 N (hparts _ hN)) hM hlayer
              cases module with
              | none => exact .inr ⟨htarget, M, hM, hnamed hhead⟩
              | some m =>
                  have hfirst : m.first = M.name := Option.some.inj hhead
                  exact .inl ⟨m, List.mem_singleton_self m, judged_of_bareForbidden ⟨M, hfirst, hM⟩⟩

theorem crosses_of_namesLayerOfSrc (h : form.NamesLayerOfSrc file L) :
    form.Crosses bare file L := by
  cases form with
  | importModules names => cases h
  | importFrom module names level =>
      obtain ⟨hsrc, M, hM, hnamed⟩ := h
      refine ⟨["src", M.name], ?_, M, layerOf_eq_some.mpr (.inl ⟨[], rfl⟩), hM⟩
      simp only [ImportForm.imported, hsrc]
      exact List.mem_cons_of_mem _ (List.mem_map.mpr ⟨M.name, hnamed, rfl⟩)

theorem resolve_below {k : Nat} {base : List String}
    (h : file.resolve none (k + 1) = some base) (m : DottedName) :
    file.resolve (some m) (k + 1) = some (base ++ m.parts) := by
  obtain ⟨ancestor, hancestor, heq⟩ := Option.map_eq_some_iff.mp h
  rw [Option.map_none, Option.getD_none, List.append_nil] at heq
  rw [PyFile.resolve, hancestor, heq]
  rfl

variable (bare) in
/-- Without dots the linter judges the module itself. -/
theorem crosses_or_banned_of_judged {m : DottedName} (hjudged : m.Judged L)
    (himported : m.parts ∈ form.imported file) :
    form.Crosses bare file L ∨ form.NamesBanned file L ∨ bare = false ∧ m.BareForbidden L := by
  rcases hjudged with ⟨M, hread, hM⟩ | ⟨_, hban, hpackage⟩
  · rcases extractLocalLayer_eq_some.mp hread with hprefixed | hfirst
    · exact .inl ⟨m.parts, himported, M, layerOf_eq_some.mpr (.inl hprefixed), hM⟩
    · cases bare with
      | false => exact .inr (.inr ⟨rfl, M, hfirst, hM⟩)
      | true =>
          have hlayer : layerOf true m.parts = some M := hread
          exact .inl ⟨m.parts, himported, M, hlayer, hM⟩
  · exact .inr (.inl ⟨hban, m.parts, himported, m.first, hpackage, rfl⟩)

/-- **What the linter reports by mistake** is misread. -/
theorem crosses_or_banned_or_misread (h : form.Reported L) :
    form.Crosses bare file L ∨ form.NamesBanned file L ∨ form.Misread bare file L := by
  obtain ⟨m, hm, hjudged⟩ := h
  cases form with
  | importModules names =>
      have himported : m.parts ∈ (ImportForm.importModules names).imported file :=
        List.mem_map.mpr ⟨m, hm, rfl⟩
      rcases crosses_or_banned_of_judged bare hjudged himported with h | h | ⟨hbare, h⟩
      · exact .inl h
      · exact .inr (.inl h)
      · exact .inr (.inr ⟨hbare, m, hm, h⟩)
  | importFrom module names level =>
      obtain rfl := Option.mem_toList.mp hm
      cases level with
      | zero =>
          have himported : m.parts ∈ (ImportForm.importFrom (some m) names 0).imported file :=
            List.mem_cons_self
          rcases crosses_or_banned_of_judged bare hjudged himported with h | h | h
          · exact .inl h
          · exact .inr (.inl h)
          · exact .inr (.inr ⟨m, rfl, h⟩)
      | succ k =>
          by_cases hsrc : file.resolve none (k + 1) = some ["src"] ∧ m.BareForbidden L
          · obtain ⟨hbase, M, hfirst, hM⟩ := hsrc
            have himported : ["src"] ++ m.parts ∈
                (ImportForm.importFrom (some m) names (k + 1)).imported file := by
              simp only [ImportForm.imported, resolve_below hbase m]
              exact List.mem_cons_self
            have hlayer : layerOf bare (["src"] ++ m.parts) = some M :=
              layerOf_eq_some.mpr (.inl ⟨m.rest, by rw [← hfirst]; rfl⟩)
            exact .inl ⟨_, himported, M, hlayer, hM⟩
          · exact .inr (.inr ⟨m, rfl, hjudged, hsrc⟩)

theorem reported_of_misread (h : form.Misread bare file L) : form.Reported L := by
  cases form with
  | importModules names =>
      obtain ⟨_, m, hm, hforbidden⟩ := h
      exact ⟨m, hm, judged_of_bareForbidden hforbidden⟩
  | importFrom module names level =>
      obtain ⟨m, rfl, h⟩ := h
      refine ⟨m, List.mem_singleton_self m, ?_⟩
      split at h
      · exact judged_of_bareForbidden h.2
      · exact h.1

end Statement

/-! ## One file -/

section File
variable {o : LayerOrder} {file : PyFile} {L : Layer}

theorem detectLayer_of_inLayer (hL : file.InLayer L) : detectLayer o file.parts = some L := by
  cases hfound : detectLayer o file.parts with
  | none =>
      have hnone := List.find?_eq_none.mp hfound L (o.complete L)
      exact absurd (decide_eq_true hL.1) hnone
  | some M =>
      unfold detectLayer at hfound
      have hM := List.find?_some hfound
      rw [decide_eq_true_eq] at hM
      rw [hL.2 M hM]

/-- The statements the walk finds are those of the file. -/
theorem mem_statements {s : ImportStmt} : s ∈ file.statements ↔ file.Has s := by
  rw [PyFile.statements, List.mem_filterMap]
  constructor
  · rintro ⟨n, hn, hs⟩
    cases n with
    | other cs => cases hs
    | statement s' =>
        obtain rfl := Option.some.inj hs
        obtain ⟨t, ht, hbelow⟩ := Branching.mem_walk.mp hn
        exact ⟨t, Option.mem_toList.mp ht, hbelow⟩
  · rintro ⟨t, ht, hbelow⟩
    exact ⟨.statement s, Branching.mem_walk.mpr ⟨t, Option.mem_toList.mpr ht, hbelow⟩, rfl⟩

theorem checkImport_lineno {m : DottedName} {path : String} {lineno : Nat} {e : LintError}
    (h : checkImport m L path lineno = some e) : m.Judged L ∧ e.lineno = lineno := by
  unfold checkImport at h
  split at h
  · rename_i M hread
    split at h <;> cases h
    exact ⟨.inl ⟨M, hread, ‹_›⟩, rfl⟩
  · rename_i hread
    split at h <;> cases h
    rename_i hban
    exact ⟨.inr ⟨hread, hban⟩, rfl⟩

theorem checkImport_of_judged {m : DottedName} {path : String} {lineno : Nat} (h : m.Judged L) :
    ∃ e, checkImport m L path lineno = some e := by
  unfold checkImport
  rcases h with ⟨M, hread, hM⟩ | ⟨hread, hban⟩
  · rw [hread]
    exact ⟨_, if_neg hM⟩
  · rw [hread]
    exact ⟨_, if_pos hban⟩

/-- **A line is reported** if a statement on it is. -/
theorem exists_error_iff (hL : file.InLayer L) {lineno : Nat} :
    (∃ e ∈ checkFile o file, e.lineno = lineno) ↔
      ∃ s, file.Has s ∧ s.lineno = lineno ∧ s.form.Reported L := by
  simp only [checkFile, detectLayer_of_inLayer hL, List.mem_flatMap, List.mem_filterMap,
    mem_statements]
  constructor
  · rintro ⟨e, ⟨s, hs, m, hm, he⟩, rfl⟩
    obtain ⟨hjudged, hlineno⟩ := checkImport_lineno he
    exact ⟨s, hs, hlineno.symm, m, hm, hjudged⟩
  · rintro ⟨s, hs, rfl, m, hm, hjudged⟩
    obtain ⟨e, he⟩ := checkImport_of_judged hjudged
    exact ⟨e, ⟨s, hs, m, hm, he⟩, (checkImport_lineno he).2⟩

theorem checkFile_eq_nil_iff (hL : file.InLayer L) :
    checkFile o file = [] ↔ ∀ s, file.Has s → ¬s.form.Reported L := by
  rw [List.eq_nil_iff_forall_not_mem]
  constructor
  · intro hnil s hs hreported
    obtain ⟨e, he, _⟩ := (exists_error_iff hL).mpr ⟨s, hs, rfl, hreported⟩
    exact hnil e he
  · intro hnone e he
    obtain ⟨s, hs, _, hreported⟩ := (exists_error_iff hL).mp ⟨e, he, rfl⟩
    exact hnone s hs hreported

end File

/-- The layers in the order the source lists them. -/
def declaredOrder : LayerOrder where
  order := [.domain, .ports, .adapters, .entrypoint]
  complete L := by cases L <;> simp

/-- A file of the domain model whose first line is this import. -/
def modelFile (form : ImportForm) : PyFile where
  root := []
  package := ["src", "domain", "model"]
  fileName := "bad.py"
  tree := some (.other [.statement ⟨form, 1⟩])

section ModelFile
variable {form : ImportForm}

theorem modelFile_inLayer : (modelFile form).InLayer .domain := by
  have hparts : (modelFile form).parts = ["src", "domain", "model", "bad.py"] := rfl
  rw [PyFile.InLayer, hparts]
  exact ⟨by decide, fun M => by cases M <;> decide⟩

theorem modelFile_has {s : ImportStmt} : (modelFile form).Has s ↔ s = ⟨form, 1⟩ := by
  rw [← mem_statements]
  simp [PyFile.statements, modelFile, Branching.walk, Node.tree, Node.children, Node.statement?,
    eq_comm]

end ModelFile

end RiskFlow
