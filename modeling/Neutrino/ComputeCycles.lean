import Neutrino.Library.MarkedSearch
import Neutrino.ProjectionVerified

/-! The check of a projection graph for computes that read themselves: the depth-first search with
its table of marks, and the operand paths it is about. -/

namespace Neutrino.Projection

open Checked

variable (text : JsonText) (graph : BackendProjectionGraph)

/-- Whether the search from the computes in turn meets one on the way down again; nothing when
its recursion is too deep. -/
def operandCycle (depth : Nat) : Option Bool :=
  MarkedSearch.search (computeOperands graph) depth (graph.computeNodes.map (·.id))

/-- An operand edge between computes. -/
def ReadsCompute (id next : String) : Prop :=
  id ∈ graph.computeNodes.map (·.id) ∧ next ∈ graph.computeNodes.map (·.id) ∧
    ∃ edge ∈ graph.edges, edge.name = "operandRefs" ∧ edge.from = id ∧ edge.to = next

/-- The checks made before the one for cycles. -/
def precedingChecks : Except String Unit := do
  checkIds [] graph.nodeIds
  each (fun identity => require (identity.invokedEvent ≠ "")
    "diag:ExecutionIdentity:invokedEvent-missing") graph.executionIdentities
  each checkReference graph.references
  checkBindings text graph
  each (fun state => require (state.terminal → state.terminalKind ≠ .none)
    "diag:LifecycleState:terminal-without-kind") graph.lifecycleStates
  each (checkEdge graph) graph.edges
  checkCardinalities text graph
  checkCoverage graph

variable {text graph}

theorem verifyAndOrder_split :
    verifyAndOrder text graph = (do
      precedingChecks text graph
      checkAcyclic graph
      checkRoles graph
      return graph.order) := by
  simp only [verifyAndOrder, precedingChecks, bind_assoc]

theorem computeOperands_inside (id : String) :
    computeOperands graph id ⊆ graph.computeNodes.map (·.id) := by
  intro next follows
  simpa using (List.mem_filter.mp follows).2

theorem operandCycle_eq {depth : Nat} (deep : graph.computeNodes.length < depth) :
    operandCycle graph depth = some (CycleSearch.hasCycle (computeOperands graph)
      (graph.computeNodes.map (·.id))) :=
  MarkedSearch.search_eq computeOperands_inside (by simpa using deep)

theorem mem_computeOperands {id next : String} :
    next ∈ computeOperands graph id ↔ next ∈ graph.computeNodes.map (·.id) ∧
      ∃ edge ∈ graph.edges, edge.name = "operandRefs" ∧ edge.from = id ∧ edge.to = next := by
  simp only [computeOperands, BackendProjectionGraph.edgesFrom, List.mem_filter, List.mem_map,
    decide_eq_true_eq]
  constructor
  · rintro ⟨⟨edge, ⟨listed, leaves, named⟩, reached⟩, compute⟩
    exact ⟨compute, edge, listed, named, leaves, reached⟩
  · rintro ⟨compute, edge, listed, named, leaves, reached⟩
    exact ⟨⟨edge, ⟨listed, leaves, named⟩, reached⟩, compute⟩

/-- A closed path of operand edges into computes leaves computes only. -/
theorem cycle_iff :
    (∃ id, Relation.TransGen (fun id next => next ∈ computeOperands graph id) id id) ↔
      ∃ compute ∈ graph.computeNodes,
        Relation.TransGen (ReadsCompute graph) compute.id compute.id := by
  constructor
  · rintro ⟨id, cycle⟩
    obtain ⟨before, _, last⟩ := Relation.TransGen.tail'_iff.mp cycle
    have start := (mem_computeOperands.mp last).1
    have within : ∀ {next}, Relation.TransGen (fun id next => next ∈ computeOperands graph id) id
        next → Relation.TransGen (ReadsCompute graph) id next := by
      intro next path
      induction path with
      | single first =>
          have edge := mem_computeOperands.mp first
          exact Relation.TransGen.single ⟨start, edge⟩
      | tail path follows ih =>
          obtain ⟨_, _, entered⟩ := Relation.TransGen.tail'_iff.mp path
          exact ih.tail ⟨(mem_computeOperands.mp entered).1, mem_computeOperands.mp follows⟩
    obtain ⟨compute, listed, rfl⟩ := List.mem_map.mp start
    exact ⟨compute, listed, within cycle⟩
  · rintro ⟨compute, _, cycle⟩
    have operands : ReadsCompute graph ≤ fun id next => next ∈ computeOperands graph id := by
      rintro id next ⟨_, edge⟩
      exact mem_computeOperands.mpr edge
    exact ⟨compute.id, Relation.TransGen.mono operands _ _ cycle⟩

theorem hasCycle_computes :
    CycleSearch.hasCycle (computeOperands graph) (graph.computeNodes.map (·.id)) = true ↔
      ∃ compute ∈ graph.computeNodes,
        Relation.TransGen (ReadsCompute graph) compute.id compute.id := by
  have clear : CycleSearch.hasCycle (computeOperands graph) (graph.computeNodes.map (·.id)) =
      false ↔ _ := CycleSearch.hasCycle_iff computeOperands_inside
  rw [← cycle_iff, ← Bool.not_eq_false, clear]
  simp only [not_forall, not_not]

/-- The checks of roles that follow speak of roles only. -/
theorem checkRoles_ne {message : String}
    (other : ∀ rest, message ≠ "diag:ProjectedLifecycleRole:" ++ rest) :
    checkRoles graph ≠ .error message := by
  have one : ∀ {role : ProjectedLifecycleRole} {seen : SeenRoles},
      checkRole graph seen role ≠ .error message := by
    intro role seen failed
    simp only [checkRole, checkOne, bind_error, require_error] at failed
    rcases failed with ⟨_, cardinality⟩ | ⟨_, _, anchor | ⟨_, _, ⟨_, mode⟩ | ⟨_, _, ⟨_, again⟩ |
      ⟨_, _, ended⟩⟩⟩⟩
    · exact other "stateRef-cardinality" cardinality.symm
    · obtain ⟨id, _, failed⟩ := each_error anchor
      unfold checkAnchor at failed
      split at failed
      · exact other "stateRef-not-success-terminal" (Except.error.inj failed).symm
      · simp only [bind_error, require_error] at failed
        rcases failed with ⟨_, kind⟩ | ⟨_, _, _, name⟩
        · exact other "stateRef-not-success-terminal" kind.symm
        · exact other "state-edge-disagreement" name.symm
    · exact other "mode-inconsistent" mode.symm
    · exact other "duplicate-role" again.symm
    · cases ended
  intro failed
  simp only [checkRoles, bind_error, require_error] at failed
  rcases failed with ⟨_, absent⟩ | ⟨_, _, later⟩
  · exact other "missing" absent.symm
  · split at later
    · cases later
    · simp only [checkRoleSet, bind_error, require_error] at later
      rcases later with threaded | ⟨_, _, ⟨_, set⟩ | ⟨_, _, _, mode⟩⟩
      · obtain ⟨role, _, seen, failed⟩ := thread_error threaded
        exact one failed
      · exact other "role-set" set.symm
      · exact other "mode-structure-mismatch" mode.symm

/-- Where the checks before it pass, the verifier reports a cycle exactly when the search meets
one. -/
theorem verifyAndOrder_cyclic (passed : precedingChecks text graph = .ok ()) :
    verifyAndOrder text graph = .error "diag:ComputeNode:operandRefs-cyclic" ↔
      CycleSearch.hasCycle (computeOperands graph) (graph.computeNodes.map (·.id)) = true := by
  have later : ∀ rest,
      "diag:ComputeNode:operandRefs-cyclic" ≠ "diag:ProjectedLifecycleRole:" ++ rest := by
    intro rest same
    have chars := congrArg (fun text : String => text.toList[5]?) same
    simp at chars
  rw [verifyAndOrder_split, passed, ok_bind, checkAcyclic, bind_error, require_error]
  constructor
  · rintro (⟨cyclic, _⟩ | ⟨_, _, failed⟩)
    · simpa using cyclic
    · rcases bind_error.mp failed with roles | ⟨_, _, ended⟩
      · exact absurd roles (checkRoles_ne later)
      · cases ended
  · intro cyclic
    exact .inl ⟨by simp [cyclic], rfl⟩

variable (text graph)

/-- The check for cycles ends on every graph, at a depth of recursion above the number of
computes, and meets a cycle exactly when some compute reads itself through computes; of a graph
that reaches it, the verifier then reports the cycle. -/
theorem operandCycle_exact : ∃ cyclic : Bool,
    (∀ depth > graph.computeNodes.length, operandCycle graph depth = some cyclic) ∧
    (cyclic = true ↔ ∃ compute ∈ graph.computeNodes,
      Relation.TransGen (ReadsCompute graph) compute.id compute.id) ∧
    (precedingChecks text graph = .ok () ∧
        verifyAndOrder text graph = .error "diag:ComputeNode:operandRefs-cyclic" ↔
      precedingChecks text graph = .ok () ∧ cyclic = true) := by
  refine ⟨_, fun depth deep => operandCycle_eq deep, hasCycle_computes, ?_⟩
  exact and_congr_right fun passed => verifyAndOrder_cyclic passed

end Neutrino.Projection
