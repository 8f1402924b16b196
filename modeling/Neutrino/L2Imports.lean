import Mathlib
import Neutrino.Json
import Neutrino.Library.GuardedSearch
import Neutrino.Library.SortOn

/-! Resolving the imports of a domain against a versioned registry: the transitive edges are read
from the sidecar each registry entry pins. -/

namespace Neutrino.L2Imports

open Checked GuardedSearch

/-- A capability at a version. -/
abbrev Edge := String × String

structure ImportError where
  code : String
  message : String
  deriving DecidableEq, Repr

def importError {α : Type} (code message : String) : Except ImportError α :=
  .error ⟨code, message⟩

/-- The two joined by a unit separator. -/
def nodeKey (node : Edge) : String := node.1 ++ "\x1f" ++ node.2

structure Entry where
  l2v2Path : String := ""
  l2v2Hash : String := ""
  deriving DecidableEq, Repr

structure Fixture where
  node : Edge
  entry : Entry
  deriving DecidableEq, Repr

/-- The fixtures in order; the maps of the registry are read off them. -/
structure Registry where
  fixtures : List Fixture
  deriving DecidableEq, Repr

def Registry.capabilities (reg : Registry) : List String := reg.fixtures.map (·.node.1)

/-- The entries under one key, the first of which is kept. -/
def Registry.entriesAt (reg : Registry) (key : String) : List Entry :=
  (reg.fixtures.filter fun fixture => nodeKey fixture.node = key).map Fixture.entry

def parseFixture (value : Json) : Except ImportError Fixture :=
  match value.asObject with
  | none => importError "domain.import.dangling" "registry fixture is not an object"
  | some f =>
      match f.getString "capabilityId", f.getString "capabilityVersion" with
      | some cap, some ver => .ok ⟨(cap, ver), f.stringOr "l2v2", f.stringOr "l2v2Hash"⟩
      | _, _ => importError "domain.import.dangling"
          "registry fixture missing capabilityId/capabilityVersion"

def parseRegistry (registry : Json.Object) : Except ImportError Registry :=
  match registry.getArray "fixtures" with
  | none => importError "domain.import.dangling" "registry has no 'fixtures' array"
  | some fixtures => Registry.mk <$> collect parseFixture fixtures

def pathComponents (path : String) : List String :=
  (path.toList.splitOn '/').map String.ofList

def ungoverned {α : Type} (message : String) : Except ImportError α :=
  importError "domain.import.ungoverned" message

def ungovernedError (message : String) : ImportError := ⟨"domain.import.ungoverned", message⟩

def readImport (cap : String) (value : Json) : Except ImportError Edge :=
  let malformed := "governed v2 sidecar for '" ++ cap ++ "' has a malformed import edge"
  match value.asObject with
  | none => ungoverned malformed
  | some io =>
      match io.getString "capability", io.getString "version" with
      | some icap, some iver => .ok (icap, iver)
      | _, _ => ungoverned malformed

section Resolve

/-! What the files below the registry's root hold, how a file is read as JSON, and the validation
of a sidecar. -/

variable (readFile : String → Option String) (parseJson : String → Option Json)
  (validateSidecar : Json.Object → Except String Unit)

def loadSidecar (e : Entry) (cap : String) : Except ImportError Json.Object :=
  match readFile e.l2v2Path with
  | none => ungoverned ("cannot read governed v2 sidecar '" ++ e.l2v2Path ++ "' for import '" ++
      cap ++ "'")
  | some buf =>
      match (parseJson buf).bind Json.asObject with
      | none => ungoverned ("governed v2 sidecar '" ++ e.l2v2Path ++ "' is not a JSON object")
      | some sidecar => .ok sidecar

def governedEdges (e : Entry) (cap ver : String) : Except ImportError (List Edge) := do
  require (e.l2v2Path ≠ "" ∧ e.l2v2Hash ≠ "") (ungovernedError ("import '" ++ cap ++
    "' at version '" ++ ver ++ "' has no governed v2 sidecar (l2v2 + l2v2Hash) in the registry"))
  require (e.l2v2Path.toList.head? ≠ some '/') (ungovernedError ("governed v2 sidecar path '" ++
    e.l2v2Path ++ "' must be repository-root-relative, not absolute"))
  require (".." ∉ pathComponents e.l2v2Path) (ungovernedError ("governed v2 sidecar path '" ++
    e.l2v2Path ++ "' must not escape the repository root ('..')"))
  let sidecar ← loadSidecar readFile parseJson e cap
  (validateSidecar sidecar).mapError fun failure =>
    ungovernedError ("governed v2 sidecar for import '" ++ cap ++ "' is invalid: " ++ failure)
  require (sidecar.getString "domainSemanticsHash" = some e.l2v2Hash)
    (ungovernedError ("governed v2 sidecar for import '" ++ cap ++
      "' has hash that does not match the catalog pin l2v2Hash"))
  require (sidecar.getString "implements" = some cap ∧ sidecar.getString "version" = some ver)
    (ungovernedError ("governed v2 sidecar for import '" ++ cap ++ "@" ++ ver ++
      "' declares implements/version that do not match"))
  collect (readImport cap) ((sidecar.getArray "imports").getD [])

def resolveNode (reg : Registry) (node : Edge) : Except ImportError (List Edge) := do
  require (node.1 ∈ reg.capabilities) ⟨"domain.import.dangling",
    "import '" ++ node.1 ++ "' resolves to no capability in the registry"⟩
  match reg.entriesAt (nodeKey node) with
  | [] =>
      importError "domain.import.unknown"
        ("import '" ++ node.1 ++ "' at version '" ++ node.2 ++ "' is not published in the registry")
  | first :: others => do
      require (others = []) ⟨"domain.import.ambiguous", "import '" ++ node.1 ++ "' at version '" ++
        node.2 ++ "' resolves to " ++ toString (others.length + 1) ++ " registry entries"⟩
      governedEdges readFile parseJson validateSidecar first node.1 node.2

def atVersion (node : Edge) : String := node.1 ++ "@" ++ node.2

def cyclicError (path : List Edge) (target : Edge) : ImportError :=
  ⟨"domain.import.cyclic", "import graph contains a cycle: " ++
    String.join (path.reverse.map fun node => atVersion node ++ " -> ") ++ atVersion target⟩

structure DomainImports where
  domain : String
  imports : List Edge
  deriving DecidableEq, Repr

/-- Fuel bounds how deep the search goes. -/
def resolveDomainImports (fuel : Nat) (root : Edge) (directImports : List Edge)
    (registry : Json.Object) : Except (Stop ImportError) DomainImports := do
  let reg ← (parseRegistry registry).mapError .failed
  let rootEdges := SortOn.sortOn (toLex : Edge → String ×ₗ String) directImports
  let _ ← search nodeKey (resolveNode readFile parseJson validateSidecar reg) cyclicError fuel
    [] [] root rootEdges
  return ⟨root.1, rootEdges⟩

end Resolve

/-! What the resolution is of. -/

section Graph

variable (readFile : String → Option String) (parseJson : String → Option Json)
  (validateSidecar : Json.Object → Except String Unit)

/-- The registry publishes a node once, by this entry. -/
def Publishes (reg : Registry) (node : Edge) (entry : Entry) : Prop :=
  (reg.fixtures.filter fun fixture => fixture.node = node).map Fixture.entry = [entry]

/-- An entry pins a sidecar of the node's own that is valid and has these imports. -/
def Governs (entry : Entry) (node : Edge) (imports : List Edge) : Prop :=
  (entry.l2v2Path ≠ "" ∧ entry.l2v2Hash ≠ "") ∧ entry.l2v2Path.toList.head? ≠ some '/' ∧
    ".." ∉ pathComponents entry.l2v2Path ∧
    ∃ content, ∃ sidecar : Json.Object, readFile entry.l2v2Path = some content ∧
      parseJson content = some (.object sidecar) ∧ validateSidecar sidecar = .ok () ∧
      sidecar.getString "domainSemanticsHash" = some entry.l2v2Hash ∧
      (sidecar.getString "implements" = some node.1 ∧
        sidecar.getString "version" = some node.2) ∧
      List.Forall₂ (fun (value : Json) (edge : Edge) => ∃ io : Json.Object, value.asObject = some io ∧
        io.getString "capability" = some edge.1 ∧ io.getString "version" = some edge.2)
        ((sidecar.getArray "imports").getD []) imports

/-- One import: of the root, directly, and of any other node by its governed sidecar. -/
def Imports (reg : Registry) (root : Edge) (directImports : List Edge) (node target : Edge) : Prop :=
  node = root ∧ target ∈ directImports ∨ node ≠ root ∧ ∃ entry imports,
    Publishes reg node entry ∧
      Governs readFile parseJson validateSidecar entry node imports ∧ target ∈ imports

def Reaches (reg : Registry) (root : Edge) (directImports : List Edge) : Edge → Edge → Prop :=
  Relation.TransGen (Imports readFile parseJson validateSidecar reg root directImports)

/-- Whatever the root reaches is published once and governed, and does not reach itself. -/
def Resolvable (reg : Registry) (root : Edge) (directImports : List Edge) : Prop :=
  ∀ node, Reaches readFile parseJson validateSidecar reg root directImports root node →
    (∃ entry imports, Publishes reg node entry ∧
      Governs readFile parseJson validateSidecar entry node imports) ∧
    ¬Reaches readFile parseJson validateSidecar reg root directImports node node

def HasCycle (reg : Registry) (root : Edge) (directImports : List Edge) : Prop :=
  ∃ node, Reaches readFile parseJson validateSidecar reg root directImports root node ∧
    Reaches readFile parseJson validateSidecar reg root directImports node node

/-- The root, all it reaches and all that is published are told apart by their joined keys. -/
def KeysApart (reg : Registry) (root : Edge) (directImports : List Edge) : Prop :=
  Set.InjOn nodeKey fun node =>
    Relation.ReflTransGen (Imports readFile parseJson validateSidecar reg root directImports)
      root node ∨ node ∈ reg.fixtures.map Fixture.node

/-- Every fixture is an object that names a capability and its version. -/
def WellFormed (registry : Json.Object) : Prop :=
  ∃ fixtures, registry.getArray "fixtures" = some fixtures ∧ ∀ value ∈ fixtures,
    ∃ f, value.asObject = some f ∧ (∃ cap, f.getString "capabilityId" = some cap) ∧
      ∃ ver, f.getString "capabilityVersion" = some ver

end Graph

end Neutrino.L2Imports
