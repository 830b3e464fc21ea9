import RiskFlow.Lib.Walk

/-!
# HexagonalLinter — `tools/hexagonal_linter.py`

The linter of the layers. It takes the import statements of a file off its
syntax tree, at any depth, and judges each by the module it spells: neither
the level of a relative import nor the imported names are read.
-/

namespace RiskFlow

open Lib

/-! ## Layers -/

/-- `LOCAL_LAYERS`. -/
inductive Layer where
  | domain
  | ports
  | adapters
  | entrypoint
  deriving DecidableEq, Repr

namespace Layer

def name : Layer → String
  | .domain => "domain"
  | .ports => "ports"
  | .adapters => "adapters"
  | .entrypoint => "entrypoint"

def ofName? : String → Option Layer
  | "domain" => some .domain
  | "ports" => some .ports
  | "adapters" => some .adapters
  | "entrypoint" => some .entrypoint
  | _ => none

/-- `LAYER_RULES`. -/
def rules : Layer → List Layer
  | .domain => [.domain, .ports]
  | .ports => [.domain, .ports]
  | .adapters => [.domain, .ports, .adapters]
  | .entrypoint => [.domain, .ports, .adapters, .entrypoint]

/-- `FIX_SUGGESTIONS.get(layer, "")`. -/
def fixSuggestion : Layer → String
  | .domain => "FIX: domain/ may only import from domain/ and ports/. " ++
      "Define a Protocol in src/ports/output/ and have the adapter implement it."
  | .ports => "FIX: ports/ may only import from domain/ and ports/. " ++
      "Ports define interfaces — they must not reference implementations."
  | .adapters => "FIX: adapters/ may only import from domain/, ports/, and adapters/. " ++
      "Adapters are wired by entrypoint/, not the other way around."
  | .entrypoint => ""

@[simp] theorem ofName?_name (L : Layer) : ofName? L.name = some L := by
  cases L <;> rfl

theorem ofName?_eq_some {s : String} {L : Layer} : ofName? s = some L ↔ s = L.name := by
  constructor
  · intro h
    unfold ofName? at h
    split at h <;> cases h <;> rfl
  · rintro rfl
    exact ofName?_name L

theorem self_mem_rules (L : Layer) : L ∈ L.rules := by
  cases L <;> decide

end Layer

/-- `INFRA_PACKAGES_BANNED_IN_DOMAIN`. -/
def infraPackagesBannedInDomain : List String :=
  ["structlog", "redis", "httpx", "fastapi", "uvicorn", "groq"]

/-- `INFRA_BAN_LAYERS`. -/
def infraBanLayers : List Layer := [.domain, .ports]

/-- `INFRA_FIX_SUGGESTION`. -/
def infraFixSuggestion : String :=
  "FIX: domain/ and ports/ must not import infrastructure packages directly. " ++
    "Accept the dependency via constructor injection from entrypoint/."

/-! ## Syntax trees -/

/-- A dotted name, split at its dots. -/
structure DottedName where
  first : String
  rest : List String
  deriving DecidableEq

def DottedName.parts (m : DottedName) : List String := m.first :: m.rest

def DottedName.text (m : DottedName) : String := ".".intercalate m.parts

/-- `ast.Import` with the names of its aliases, or `ast.ImportFrom`. -/
inductive ImportForm where
  | importModules (names : List DottedName)
  | importFrom (module : Option DottedName) (names : List String) (level : Nat)

structure ImportStmt where
  form : ImportForm
  lineno : Nat

/-- A node of the tree: an import statement, or anything else with the nodes
in it. -/
inductive Node where
  | statement (s : ImportStmt)
  | other (children : List Node)

namespace Node

def children : Node → List Node
  | .statement _ => []
  | .other cs => cs

def statement? : Node → Option ImportStmt
  | .statement s => some s
  | .other _ => none

private theorem sum_sizeOf_lt (cs : List Node) : (cs.map sizeOf).sum < sizeOf cs := by
  induction cs with
  | nil => simp
  | cons c cs ih =>
      simp only [List.map_cons, List.sum_cons, List.cons.sizeOf_spec]
      omega

/-- `ast.iter_child_nodes`. -/
def tree : Branching Node where
  children
  finite := by
    refine ⟨sizeOf, fun n => ?_⟩
    cases n with
    | statement s => simp [children]
    | other cs =>
        have hsum := sum_sizeOf_lt cs
        simp only [children, other.sizeOf_spec]
        omega

end Node

/-- A Python file: the directories down to an entry of the import path, the
packages from there, its name, and its syntax tree if it parses. -/
structure PyFile where
  root : List String
  package : List String
  fileName : String
  tree : Option Node

/-- `path.parts`. -/
def PyFile.parts (file : PyFile) : List String := file.root ++ file.package ++ [file.fileName]

/-- `str(path)`. -/
def PyFile.path (file : PyFile) : String :=
  match file.parts with
  | "/" :: rest => "/" ++ "/".intercalate rest
  | parts => "/".intercalate parts

/-! ## The linter -/

/-- An order in which `for layer in LOCAL_LAYERS` may run: the order of a set. -/
structure LayerOrder where
  order : List Layer
  complete : ∀ L, L ∈ order

/-- `_detect_layer`. -/
def detectLayer (o : LayerOrder) (parts : List String) : Option Layer :=
  o.order.find? fun L => L.name ∈ parts

/-- `_extract_local_layer`. -/
def extractLocalLayer (module : DottedName) : Option Layer :=
  -- the prefix `src` first, then a bare layer
  (if module.first = "src" then module.rest.head?.bind Layer.ofName? else none).or
    (Layer.ofName? module.first)

/-- An entry of `errors`. -/
inductive LintError where
  | violation (current imported : Layer) (module : DottedName) (path : String) (lineno : Nat)
  | infraImport (current : Layer) (module : DottedName) (path : String) (lineno : Nat)

def LintError.lineno : LintError → Nat
  | .violation _ _ _ _ lineno => lineno
  | .infraImport _ _ _ lineno => lineno

def LintError.text : LintError → String
  | .violation current imported module path lineno =>
      let (layer, other, name) := (current.name, imported.name, module.text)
      let fix := current.fixSuggestion
      s!"VIOLATION: Layer '{layer}' cannot import '{other}' " ++
        s!"(from '{name}') in {path}:{lineno}. {fix}"
  | .infraImport current module path lineno =>
      let (layer, top, name) := (current.name, module.first, module.text)
      let fix := infraFixSuggestion
      s!"INFRA_IMPORT: Layer '{layer}' cannot import infrastructure package '{top}' " ++
        s!"(from '{name}') in {path}:{lineno}. {fix}"

/-- `_check_import`: the entry it appends, if any. -/
def checkImport (module : DottedName) (current : Layer) (path : String) (lineno : Nat) :
    Option LintError :=
  match extractLocalLayer module with
  | some imported =>
      if imported ∈ current.rules then none
      else some (.violation current imported module path lineno)
  | none =>
      if current ∈ infraBanLayers ∧ module.first ∈ infraPackagesBannedInDomain then
        some (.infraImport current module path lineno)
      else none

/-- The modules a statement spells, as the loop of `check_file` reads them. -/
def ImportForm.spelled : ImportForm → List DottedName
  | .importModules names => names
  | .importFrom module _ _ => module.toList

/-- The import statements of a file in the order of `ast.walk`. -/
def PyFile.statements (file : PyFile) : List ImportStmt :=
  (Node.tree.walk file.tree.toList).filterMap Node.statement?

/-- `check_file`: outside the layers, and where the file does not parse,
there is nothing to report. -/
def checkFile (o : LayerOrder) (file : PyFile) : List LintError :=
  match detectLayer o file.parts with
  | none => []
  | some current => file.statements.flatMap fun s =>
      s.form.spelled.filterMap fun module => checkImport module current file.path s.lineno

end RiskFlow
