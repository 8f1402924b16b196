import Neutrino.L2Imports

/-! Import resolution against the graph of governed imports. -/

namespace Neutrino.L2Imports

open Checked GuardedSearch

section Registry

variable {registry : Json.Object} {reg : Registry}

theorem parseFixture_ok {value : Json} {fixture : Fixture} :
    parseFixture value = .ok fixture →
      ∃ f, value.asObject = some f ∧ (∃ cap, f.getString "capabilityId" = some cap) ∧
        ∃ ver, f.getString "capabilityVersion" = some ver := by
  unfold parseFixture
  split
  · intro failed
    contradiction
  · rename_i f object
    split
    · rename_i cap ver capability version
      exact fun _ => ⟨f, object, ⟨cap, capability⟩, ver, version⟩
    · intro failed
      contradiction

theorem parseRegistry_ok : (∃ reg, parseRegistry registry = .ok reg) ↔ WellFormed registry := by
  unfold parseRegistry WellFormed
  cases registry.getArray "fixtures" with
  | none => simp [importError]
  | some fixtures =>
      simp only [Option.some.injEq, exists_eq_left']
      constructor
      · rintro ⟨reg, read⟩
        obtain ⟨listed, collected, -⟩ := map_ok.mp read
        intro value there
        obtain ⟨fixture, -, parsed⟩ := collect_mem collected there
        exact parseFixture_ok parsed
      · intro formed
        have read : ∀ value ∈ fixtures, ∃ fixture, parseFixture value = .ok fixture := by
          intro value there
          obtain ⟨f, object, ⟨cap, capability⟩, ver, version⟩ := formed value there
          refine ⟨⟨(cap, ver), f.stringOr "l2v2", f.stringOr "l2v2Hash"⟩, ?_⟩
          simp only [parseFixture, object, capability, version]
        obtain ⟨listed, collected⟩ : ∃ listed, collect parseFixture fixtures = .ok listed := by
          cases collected : collect parseFixture fixtures with
          | ok listed => exact ⟨listed, rfl⟩
          | error failure =>
              obtain ⟨value, there, failed⟩ := collect_error collected
              obtain ⟨fixture, parsed⟩ := read value there
              rw [parsed] at failed
              contradiction
        exact ⟨⟨listed⟩, map_ok.mpr ⟨listed, collected, rfl⟩⟩

end Registry

theorem parseFixture_code {value : Json} {failure : ImportError}
    (failed : parseFixture value = .error failure) :
    failure.code = "domain.import.dangling" := by
  unfold parseFixture at failed
  split at failed
  · rw [← Except.error.inj failed]
  · split at failed
    · contradiction
    · rw [← Except.error.inj failed]

theorem parseRegistry_code {registry : Json.Object} {failure : ImportError}
    (failed : parseRegistry registry = .error failure) :
    failure.code ≠ "domain.import.cyclic" := by
  unfold parseRegistry at failed
  split at failed
  · rw [← Except.error.inj failed]
    decide
  · rename_i fixtures _
    cases collected : collect parseFixture fixtures with
    | ok listed => simp [collected] at failed
    | error cause =>
        rw [collected] at failed
        obtain rfl : cause = failure := Except.error.inj failed
        obtain ⟨value, -, malformed⟩ := collect_error collected
        rw [parseFixture_code malformed]
        decide

section Graph

variable {readFile : String → Option String} {parseJson : String → Option Json}
  {validateSidecar : Json.Object → Except String Unit} {reg : Registry} {root node : Edge}
  {directImports edges : List Edge}

theorem readImport_ok {cap : String} {value : Json} {edge : Edge} :
    readImport cap value = .ok edge ↔ ∃ io : Json.Object, value.asObject = some io ∧
      io.getString "capability" = some edge.1 ∧ io.getString "version" = some edge.2 := by
  unfold readImport
  cases value.asObject with
  | none => simp [ungoverned, importError]
  | some io =>
      obtain ⟨icap, iver⟩ := edge
      cases capability : io.getString "capability" <;> cases version : io.getString "version" <;>
        simp [ungoverned, importError, capability, version]

theorem loadSidecar_ok {e : Entry} {cap : String} {sidecar : Json.Object} :
    loadSidecar readFile parseJson e cap = .ok sidecar ↔
      ∃ content, readFile e.l2v2Path = some content ∧
        parseJson content = some (.object sidecar) := by
  unfold loadSidecar
  cases readFile e.l2v2Path with
  | none => simp [ungoverned, importError]
  | some content =>
      cases parsed : parseJson content with
      | none => simp [ungoverned, importError, parsed]
      | some json => cases json <;> simp [Json.asObject, ungoverned, importError, parsed]

theorem governedEdges_ok {e : Entry} {cap ver : String} :
    governedEdges readFile parseJson validateSidecar e cap ver = .ok edges ↔
      Governs readFile parseJson validateSidecar e (cap, ver) edges := by
  simp only [governedEdges, Governs, bind_ok, require_ok, exists_const, mapError_ok,
    loadSidecar_ok, collect_ok, readImport_ok]
  constructor
  · rintro ⟨named, relative, inside, sidecar, ⟨content, read, parsed⟩, _, valid, hash, own, imports⟩
    exact ⟨named, relative, inside, content, sidecar, read, parsed, valid, hash, own, imports⟩
  · rintro ⟨named, relative, inside, content, sidecar, read, parsed, valid, hash, own, imports⟩
    exact ⟨named, relative, inside, sidecar, ⟨content, read, parsed⟩, (), valid, hash, own, imports⟩

/-- Where its key is no other node's, a node resolves to the imports its one entry governs. -/
theorem resolveNode_ok (apart : ∀ other ∈ reg.fixtures.map Fixture.node,
      nodeKey other = nodeKey node → other = node) :
    resolveNode readFile parseJson validateSidecar reg node = .ok edges ↔
      ∃ entry, Publishes reg node entry ∧
        Governs readFile parseJson validateSidecar entry node edges := by
  have entries : reg.entriesAt (nodeKey node) =
      (reg.fixtures.filter fun fixture => fixture.node = node).map Fixture.entry := by
    rw [Registry.entriesAt]
    congr 1
    refine List.filter_congr fun fixture listed => ?_
    refine decide_eq_decide.mpr ⟨apart fixture.node (List.mem_map_of_mem listed), ?_⟩
    rintro rfl
    rfl
  have listed : ∀ entry ∈ reg.entriesAt (nodeKey node), node.1 ∈ reg.capabilities := by
    intro entry there
    rw [entries] at there
    obtain ⟨fixture, found, -⟩ := List.mem_map.mp there
    obtain ⟨inside, same⟩ := List.mem_filter.mp found
    have own : fixture.node = node := of_decide_eq_true same
    exact List.mem_map.mpr ⟨fixture, inside, by rw [own]⟩
  simp only [resolveNode, bind_ok, require_ok, exists_const, Publishes, ← entries]
  cases found : reg.entriesAt (nodeKey node) with
  | nil => simp [importError]
  | cons first others =>
      have known := listed first (by simp [found])
      simp only [bind_ok, require_ok, exists_const, governedEdges_ok, List.cons.injEq]
      constructor
      · rintro ⟨-, alone, governs⟩
        exact ⟨first, ⟨rfl, alone⟩, governs⟩
      · rintro ⟨entry, ⟨rfl, alone⟩, governs⟩
        exact ⟨known, alone, governs⟩

theorem transGen_congr {α : Type} {first second : α → α → Prop} {inside : Set α}
    (closed : ∀ node ∈ inside, ∀ target, first node target → target ∈ inside)
    (same : ∀ node ∈ inside, ∀ target, first node target ↔ second node target) {start : α}
    (there : start ∈ inside) (last : α) :
    Relation.TransGen first start last ↔ Relation.TransGen second start last := by
  have within {finish : α} (reached : Relation.TransGen first start finish) : finish ∈ inside := by
    induction reached with
    | single leads => exact closed start there _ leads
    | tail _ leads ih => exact closed _ ih _ leads
  constructor
  · intro reached
    induction reached with
    | single leads => exact .single ((same start there _).mp leads)
    | tail before leads ih => exact .tail ih ((same _ (within before) _).mp leads)
  · intro reached
    induction reached with
    | single leads => exact .single ((same start there _).mpr leads)
    | tail _ leads ih => exact .tail ih ((same _ (within ih) _).mpr leads)

/-! The edges that the search follows are the imports. -/

section Search

variable (apart : KeysApart readFile parseJson validateSidecar reg root directImports)
  (sorted : List Edge) (same : ∀ edge, edge ∈ sorted ↔ edge ∈ directImports)
include apart same

theorem edge_iff_imports (node : Edge)
    (reached : Relation.ReflTransGen
      (Imports readFile parseJson validateSidecar reg root directImports) root node)
    (target : Edge) :
    Imports readFile parseJson validateSidecar reg root directImports node target ↔
      GuardedSearch.Edge (resolveNode readFile parseJson validateSidecar reg) root sorted
        node target := by
  have own : ∀ other ∈ reg.fixtures.map Fixture.node, nodeKey other = nodeKey node →
      other = node := fun other listed keys => apart (.inr listed) (.inl reached) keys
  simp only [Imports, GuardedSearch.Edge, same, resolveNode_ok own]
  constructor
  · rintro (direct | ⟨below, entry, imports, publishes, governs, listed⟩)
    · exact .inl direct
    · exact .inr ⟨below, imports, ⟨entry, publishes, governs⟩, listed⟩
  · rintro (direct | ⟨below, imports, ⟨entry, publishes, governs⟩, listed⟩)
    · exact .inl direct
    · exact .inr ⟨below, entry, imports, publishes, governs, listed⟩

theorem transGen_iff_imports {start : Edge}
    (reached : Relation.ReflTransGen
      (Imports readFile parseJson validateSidecar reg root directImports) root start)
    (last : Edge) :
    Relation.TransGen (Imports readFile parseJson validateSidecar reg root directImports)
        start last ↔
      Relation.TransGen (GuardedSearch.Edge (resolveNode readFile parseJson validateSidecar reg)
        root sorted) start last :=
  transGen_congr (fun _ there _ leads => Relation.ReflTransGen.tail there leads)
    (edge_iff_imports apart sorted same) reached last

theorem searched_apart : Set.InjOn nodeKey
    (Reached (resolveNode readFile parseJson validateSidecar reg) root sorted) := by
  have reached {node : Edge}
      (there : node ∈ Reached (resolveNode readFile parseJson validateSidecar reg) root sorted) :
      Relation.ReflTransGen (Imports readFile parseJson validateSidecar reg root directImports)
        root node := by
    rcases Relation.reflTransGen_iff_eq_or_transGen.mp there with rfl | below
    · exact .refl
    · exact ((transGen_iff_imports apart sorted same .refl node).mpr below).to_reflTransGen
  exact fun first there second there' keys => apart (.inl (reached there)) (.inl (reached there')) keys

end Search

theorem resolveNode_published {node : Edge}
    (resolved : resolveNode readFile parseJson validateSidecar reg node = .ok edges) :
    nodeKey node ∈ reg.fixtures.map fun fixture => nodeKey fixture.node := by
  simp only [resolveNode, bind_ok] at resolved
  obtain ⟨_, -, found⟩ := resolved
  cases entries : reg.entriesAt (nodeKey node) with
  | nil => simp [entries, importError] at found
  | cons first others =>
      have listed : first ∈ reg.entriesAt (nodeKey node) := by simp [entries]
      obtain ⟨fixture, there, -⟩ := List.mem_map.mp listed
      obtain ⟨inside, same⟩ := List.mem_filter.mp there
      exact List.mem_map.mpr ⟨fixture, inside, of_decide_eq_true same⟩

theorem readImport_code {cap : String} {value : Json} {failure : ImportError}
    (failed : readImport cap value = .error failure) :
    failure.code = "domain.import.ungoverned" := by
  unfold readImport at failed
  split at failed
  · rw [← Except.error.inj failed]
  · split at failed
    · contradiction
    · rw [← Except.error.inj failed]

theorem loadSidecar_code {e : Entry} {cap : String} {failure : ImportError}
    (failed : loadSidecar readFile parseJson e cap = .error failure) :
    failure.code = "domain.import.ungoverned" := by
  unfold loadSidecar at failed
  split at failed
  · rw [← Except.error.inj failed]
  · split at failed
    · rw [← Except.error.inj failed]
    · contradiction

theorem governedEdges_code {e : Entry} {cap ver : String} {failure : ImportError}
    (failed : governedEdges readFile parseJson validateSidecar e cap ver = .error failure) :
    failure.code = "domain.import.ungoverned" := by
  simp only [governedEdges, bind_error, require_error, mapError_error] at failed
  rcases failed with ⟨-, rfl⟩ | ⟨_, -, ⟨-, rfl⟩ | ⟨_, -, ⟨-, rfl⟩ | ⟨_, -, unread | ⟨_, -,
    ⟨_, -, rfl⟩ | ⟨_, -, ⟨-, rfl⟩ | ⟨_, -, ⟨-, rfl⟩ | ⟨_, -, imports⟩⟩⟩⟩⟩⟩⟩
  · rfl
  · rfl
  · rfl
  · exact loadSidecar_code unread
  · rfl
  · rfl
  · rfl
  · obtain ⟨value, -, malformed⟩ := collect_error imports
    exact readImport_code malformed

theorem resolveNode_code {failure : ImportError}
    (failed : resolveNode readFile parseJson validateSidecar reg node = .error failure) :
    failure.code ≠ "domain.import.cyclic" := by
  simp only [resolveNode, bind_error, require_error] at failed
  rcases failed with ⟨-, rfl⟩ | ⟨_, -, found⟩
  · simp
  · split at found
    · rw [← Except.error.inj found]
      simp
    · rcases bind_error.mp found with several | ⟨_, -, ungoverned⟩
      · rw [← (require_error.mp several).2]
        simp
      · rw [governedEdges_code ungoverned]
        decide

end Graph

section Resolution

variable (readFile : String → Option String) (parseJson : String → Option Json)
  (validateSidecar : Json.Object → Except String Unit)

theorem map_error {ε α β : Type} {result : Except ε α} {next : α → β} {failure : ε} :
    result.map next = .error failure ↔ result = .error failure := by
  cases result <;> simp [Except.map]

theorem map_returns {ε α β : Type} {result : Except ε α} {next : α → β} :
    (∃ value, result.map next = .ok value) ↔ ∃ value, result = .ok value := by
  cases result <;> simp [Except.map]

theorem resolve_ended {registry : Json.Object} {reg : Registry}
    (parsed : parseRegistry registry = .ok reg) (root : Edge) (directImports : List Edge)
    (fuel : Nat) :
    resolveDomainImports readFile parseJson validateSidecar fuel root directImports registry =
      (search nodeKey (resolveNode readFile parseJson validateSidecar reg) cyclicError fuel [] []
        root (SortOn.sortOn (toLex : Edge → String ×ₗ String) directImports)).map fun _ =>
          ⟨root.1, SortOn.sortOn (toLex : Edge → String ×ₗ String) directImports⟩ := by
  rw [resolveDomainImports, parsed]
  rfl

/-- Resolution ends. Where the nodes are told apart by their keys it succeeds exactly when the
registry is well formed and all that the root reaches can be resolved, and it reports a cycle only
where there is one. -/
theorem imports_resolve_exactly (root : Edge) (directImports : List Edge)
    (registry : Json.Object) :
    (∃ enough, ∀ fuel, enough ≤ fuel →
      resolveDomainImports readFile parseJson validateSidecar fuel root directImports registry ≠
        .error .outOfFuel) ∧
      ((∀ reg, parseRegistry registry = .ok reg →
          KeysApart readFile parseJson validateSidecar reg root directImports) →
        ∀ fuel, resolveDomainImports readFile parseJson validateSidecar fuel root directImports
            registry ≠ .error .outOfFuel →
          ((∃ resolved, resolveDomainImports readFile parseJson validateSidecar fuel root
              directImports registry = .ok resolved) ↔
            WellFormed registry ∧ ∀ reg, parseRegistry registry = .ok reg →
              Resolvable readFile parseJson validateSidecar reg root directImports) ∧
          ∀ failure, resolveDomainImports readFile parseJson validateSidecar fuel root
              directImports registry = .error (.failed failure) →
            failure.code = "domain.import.cyclic" → ∃ reg, parseRegistry registry = .ok reg ∧
              HasCycle readFile parseJson validateSidecar reg root directImports) := by
  have sorted : ∀ edge, edge ∈ SortOn.sortOn (toLex : Edge → String ×ₗ String) directImports ↔
      edge ∈ directImports := fun _ => SortOn.mem_sortOn
  cases parsed : parseRegistry registry with
  | error failure =>
      have failed (fuel : Nat) : resolveDomainImports readFile parseJson validateSidecar fuel root
          directImports registry = .error (.failed failure) := by
        rw [resolveDomainImports, parsed]
        rfl
      have unformed : ¬WellFormed registry := fun formed => by
        obtain ⟨reg, read⟩ := parseRegistry_ok.mpr formed
        rw [parsed] at read
        contradiction
      refine ⟨⟨0, fun fuel _ => by simp [failed]⟩, fun _ fuel _ => ⟨by simp [failed, unformed], ?_⟩⟩
      intro found ended cyclic
      rw [failed] at ended
      obtain rfl := Stop.failed.inj (Except.error.inj ended)
      exact absurd cyclic (parseRegistry_code parsed)
  | ok reg =>
      have ended := resolve_ended readFile parseJson validateSidecar parsed root directImports
      have known : ∀ node edges, resolveNode readFile parseJson validateSidecar reg node =
          .ok edges → nodeKey node ∈ reg.fixtures.map fun fixture => nodeKey fixture.node :=
        fun _ _ => resolveNode_published
      constructor
      · refine ⟨reg.fixtures.length + 2, fun fuel enough stuck => ?_⟩
        have published : ∀ other ∈ [root], nodeKey other ∈
            nodeKey root :: reg.fixtures.map fun fixture => nodeKey fixture.node := by simp
        have within : search nodeKey (resolveNode readFile parseJson validateSidecar reg)
            cyclicError fuel [] [] root
            (SortOn.sortOn (toLex : Edge → String ×ₗ String) directImports) ≠ .error .outOfFuel :=
          search_within_fuel known fuel [] [] root _ (by simp) published
            (by simp only [List.length_map, List.length_cons, List.length_nil]; omega)
        rw [ended, map_error] at stuck
        exact within stuck
      · intro apart fuel complete
        have formed : WellFormed registry := parseRegistry_ok.mp ⟨reg, parsed⟩
        have keys := apart reg rfl
        have searched := searched_apart keys _ sorted
        have start : root ∈ Reached (resolveNode readFile parseJson validateSidecar reg) root
            (SortOn.sortOn (toLex : Edge → String ×ₗ String) directImports) :=
          Relation.ReflTransGen.refl
        rw [ended, Ne, map_error] at complete
        have reaches := transGen_iff_imports keys _ sorted .refl
        constructor
        · rw [ended, map_returns, search_iff searched complete]
          simp only [formed, true_and, Except.ok.injEq, forall_eq']
          refine forall_congr' fun node => ?_
          rw [Reaches, ← reaches node]
          refine forall_congr' fun below => ?_
          have there := below.to_reflTransGen
          rw [transGen_iff_imports keys _ sorted there]
          have own : ∀ other ∈ reg.fixtures.map Fixture.node, nodeKey other = nodeKey node →
              other = node := fun other listed same => keys (.inr listed) (.inl there) same
          simp only [resolveNode_ok own]
          refine and_congr_left fun _ => ?_
          exact ⟨fun ⟨edges, entry, found⟩ => ⟨entry, edges, found⟩,
            fun ⟨entry, edges, found⟩ => ⟨edges, entry, found⟩⟩
        · intro failure failed cyclic
          rw [ended, map_error] at failed
          obtain ⟨target, below, unloaded | ⟨-, cycle⟩⟩ := search_failed searched reached_closed
            fuel [] [] root _ (by simpa using start) List.mem_cons_self (List.isChain_singleton _)
            (fun target listed => .inl ⟨rfl, listed⟩) failed
          · exact absurd cyclic (resolveNode_code unloaded)
          · have below' := (reaches target).mpr below
            exact ⟨reg, rfl, target, below',
              (transGen_iff_imports keys _ sorted below'.to_reflTransGen target).mpr cycle⟩

end Resolution

/-! A registry that is no registry refuses a domain without imports, and a capability that holds
the separator is taken for another. -/

def noFile : String → Option String := fun _ => none

def noJson : String → Option Json := fun _ => none

def anySidecar : Json.Object → Except String Unit := fun _ => .ok ()

theorem imports_unpublished {root : Edge} {directImports : List Edge} {node target : Edge} :
    Imports noFile noJson anySidecar ⟨[]⟩ root directImports node target ↔
      node = root ∧ target ∈ directImports := by
  simp [Imports, Publishes]

theorem malformed_registry_refused :
    ((∀ fuel resolved, resolveDomainImports noFile noJson anySidecar fuel ("r", "1") [] [] ≠
        .ok resolved) ∧
      Resolvable noFile noJson anySidecar ⟨[]⟩ ("r", "1") []) ∧
      resolveDomainImports noFile noJson anySidecar 1 ("a\x1fb", "c") [("a", "b\x1fc")]
          [("fixtures", .array [])] =
        .error (.failed (cyclicError [("a\x1fb", "c")] ("a", "b\x1fc"))) ∧
      ¬HasCycle noFile noJson anySidecar ⟨[]⟩ ("a\x1fb", "c") [("a", "b\x1fc")] := by
  refine ⟨⟨fun fuel resolved => ?_, fun node below => ?_⟩, by decide +kernel, ?_⟩
  · simp [resolveDomainImports, parseRegistry, Json.Object.getArray, Json.Object.get, importError,
      Except.mapError, bind, Except.bind]
  · obtain ⟨first, leads, -⟩ := Relation.TransGen.head'_iff.mp below
    have listed := (imports_unpublished.mp leads).2
    contradiction
  · rintro ⟨node, -, cycle⟩
    obtain ⟨first, leads, back⟩ := Relation.TransGen.head'_iff.mp cycle
    obtain ⟨rfl, listed⟩ := imports_unpublished.mp leads
    obtain rfl := List.mem_singleton.mp listed
    rcases Relation.ReflTransGen.cases_head back with same | ⟨second, onward, -⟩
    · simp at same
    · have again := (imports_unpublished.mp onward).1
      simp at again

/-! One import, of a capability that imports nothing. -/

def sampleRegistry : Json.Object :=
  [("fixtures", .array [.object [("capabilityId", .string "a"), ("capabilityVersion", .string "1"),
    ("l2v2", .string "p"), ("l2v2Hash", .string "h")]])]

def sampleSidecar : Json.Object :=
  [("domainSemanticsHash", .string "h"), ("implements", .string "a"), ("version", .string "1")]

def sampleFile : String → Option String := fun path => if path = "p" then some "s" else none

def sampleJson : String → Option Json := fun content =>
  if content = "s" then some (.object sampleSidecar) else none

theorem sample_reaches {node : Edge} (reached : Relation.ReflTransGen (Imports sampleFile sampleJson
      anySidecar ⟨[⟨("a", "1"), ⟨"p", "h"⟩⟩]⟩ ("r", "1") [("a", "1")]) ("r", "1") node) :
    node ∈ [("r", "1"), ("a", "1")] := by
  induction reached with
  | refl => simp
  | tail _ leads ih =>
      rcases leads with ⟨rfl, listed⟩ | ⟨below, entry, imports, publishes, governs, listed⟩
      · simp [List.mem_singleton.mp listed]
      · obtain ⟨-, -, -, content, sidecar, read, parsed, -, -, -, imported⟩ := governs
        obtain rfl : content = "s" := by
          unfold sampleFile at read
          split at read
          · exact (Option.some.inj read).symm
          · contradiction
        obtain rfl : sampleSidecar = sidecar := Json.object.inj (Option.some.inj parsed)
        cases imported
        contradiction

theorem imports_resolve_exactly_sample :
    (∃ resolved, resolveDomainImports sampleFile sampleJson anySidecar 3 ("r", "1") [("a", "1")]
      sampleRegistry = .ok resolved) ∧
      ∀ reg, parseRegistry sampleRegistry = .ok reg →
        Resolvable sampleFile sampleJson anySidecar reg ("r", "1") [("a", "1")] := by
  have ran : resolveDomainImports sampleFile sampleJson anySidecar 3 ("r", "1") [("a", "1")]
      sampleRegistry = .ok ⟨"r", [("a", "1")]⟩ := by decide +kernel
  have apart : ∀ reg, parseRegistry sampleRegistry = .ok reg →
      KeysApart sampleFile sampleJson anySidecar reg ("r", "1") [("a", "1")] := by
    intro reg parsed
    obtain rfl : ⟨[⟨("a", "1"), ⟨"p", "h"⟩⟩]⟩ = reg := Except.ok.inj parsed
    have published {node : Edge} (listed : node ∈ [("a", "1")]) :
        node ∈ [("r", "1"), ("a", "1")] := List.mem_cons_of_mem _ listed
    have distinct : ∀ first ∈ [("r", "1"), ("a", "1")], ∀ second ∈ [("r", "1"), ("a", "1")],
        nodeKey first = nodeKey second → first = second := by decide +kernel
    exact fun first there second there' => distinct first (there.elim sample_reaches published)
      second (there'.elim sample_reaches published)
  have complete : resolveDomainImports sampleFile sampleJson anySidecar 3 ("r", "1") [("a", "1")]
      sampleRegistry ≠ .error .outOfFuel := by simp [ran]
  obtain ⟨-, exact⟩ := imports_resolve_exactly sampleFile sampleJson anySidecar ("r", "1")
    [("a", "1")] sampleRegistry
  exact ⟨⟨_, ran⟩, ((exact apart 3 complete).1.mp ⟨_, ran⟩).2⟩

end Neutrino.L2Imports
