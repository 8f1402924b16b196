import Mathlib
import Neutrino.Library.CycleSearch
import Neutrino.ProjectionConsume

/-! The verifier of projection graphs: unique ids, typed edges with their cardinalities, exact
coverage of groups, balances and commits, and one deterministic order. -/

namespace Neutrino.Projection

open Checked SortOn

/-! Ids, bindings and ordinals. -/

/-- Registers ids in turn; a repeated one is reported under its own family. -/
def checkIds : List String → List (String × ProjectionNodeKind) → Except String Unit
  | _, [] => .ok ()
  | registered, (id, kind) :: rest =>
      if id ∈ registered then .error ("diag:" ++ kind.name ++ ":duplicate-id")
      else checkIds (id :: registered) rest

def checkReference (reference : Reference) : Except String Unit := do
  require (reference.role = "observerSet" → reference.bindingValue ≠ "")
    "diag:Reference:observerSet-bindingValue-missing"
  require (reference.role ≠ "observerSet" → reference.bindingValue = "")
    "diag:Reference:non-observerSet-bindingValue-spurious"

structure SeenBindings where
  ordinals : List Int32 := []
  bindings : List String := []

def seeBinding (family : String) (seen : SeenBindings) (ordinal : Int32) (binding : String) :
    Except String SeenBindings := do
  require (0 ≤ ordinal.toInt ∧ ordinal ∉ seen.ordinals) ("diag:" ++ family ++ ":ordinal")
  require (binding ∉ seen.bindings) ("diag:" ++ family ++ ":bindingValue-duplicate")
  return ⟨ordinal :: seen.ordinals, binding :: seen.bindings⟩

/-- The ordinals seen are exactly those below their count. -/
def checkOrdinals (family : String) (seen : SeenBindings) : Except String Unit :=
  require (∀ index < seen.ordinals.length, (index : Int) ∈ seen.ordinals.map (·.toInt))
    ("diag:" ++ family ++ ":ordinal")

def checkParam (seen : SeenBindings) (param : TypedParam) : Except String SeenBindings := do
  require (param.bindingValue ≠ "") "diag:TypedParam:bindingValue-missing"
  require (param.type ≠ "") "diag:TypedParam:type-missing"
  seeBinding "TypedParam" seen param.ordinal param.bindingValue

def checkExpression (text : JsonText) (compute : ComputeNode) : Except String Unit :=
  match text.parseExpr compute.expression with
  | none => .error "diag:ComputeNode:expression-invalid"
  | some expression =>
      require (exprKindName expression = compute.exprKind ∧
          categoryName expression.dtype = compute.dtype)
        "diag:ComputeNode:expression-shape"

def checkCompute (text : JsonText) (seen : SeenBindings) (compute : ComputeNode) :
    Except String SeenBindings := do
  require (compute.bindingValue ≠ "") "diag:ComputeNode:bindingValue-missing"
  let seen ← seeBinding "ComputeNode" seen compute.ordinal compute.bindingValue
  checkExpression text compute
  return seen

/-- The closed edge vocabulary with the kinds each edge may leave and reach. -/
def edgeEndpointKinds : List (String × List ProjectionNodeKind × List ProjectionNodeKind) := [
  ("guardRef", [.balancedEffectGroup], [.guardObligation]),
  ("policyRef", [.guardObligation, .primitiveObligation], [.quorumPolicy]),
  ("inputRef", [.quorumPolicy], [.evidenceAcceptance]),
  ("observerSetRef", [.quorumPolicy], [.reference]),
  ("effectGroupRefs", [.transition], [.balancedEffectGroup]),
  ("fromRef", [.transition], [.lifecycleState]),
  ("toRef", [.transition], [.lifecycleState]),
  ("stateRef", [.projectedLifecycleRole], [.lifecycleState]),
  ("execRef", [.commitState], [.executionIdentity]),
  ("scopeRef", [.commitState], [.quorumPolicy]),
  ("requiredCommitRefs", [.lifecycleState], [.commitState]),
  ("groupRef", [.ledgerPosting], [.balancedEffectGroup]),
  ("effectRefs", [.balancedEffectGroup], [.ledgerPosting]),
  ("assertsRefs", [.balanceAssertion], [.balancedEffectGroup]),
  ("ledgerRef", [.ledgerPosting], [.typedOperand, .computeNode]),
  ("partyRef", [.ledgerPosting], [.typedOperand, .computeNode]),
  ("amountRef", [.ledgerPosting], [.typedOperand, .computeNode]),
  ("currencyRef", [.ledgerPosting], [.typedOperand, .computeNode]),
  ("memoRef", [.ledgerPosting], [.typedOperand, .computeNode]),
  ("operandRefs", [.computeNode], [.typedOperand, .computeNode]),
  ("compensates", [.compensationObligation], [.balancedEffectGroup, .transition])
]

section Verify

variable (text : JsonText) (graph : BackendProjectionGraph)

def checkInstanceKeyRole (param : TypedParam) : Except String Unit := do
  let shouldBeKey := param.bindingValue ≠ "" ∧
    param.bindingValue ∈ graph.executionIdentities.map (·.instanceKey)
  require (param.isInstanceKey → shouldBeKey) "diag:TypedParam:instance-key-role-unbound"
  require (shouldBeKey → param.isInstanceKey) "diag:TypedParam:instance-key-role-missing"

def checkBindings : Except String Unit := do
  let seenParams ← thread checkParam {} graph.typedParams
  checkOrdinals "TypedParam" seenParams
  each (checkInstanceKeyRole graph) graph.typedParams
  let seenComputes ← thread (checkCompute text) {} graph.computeNodes
  checkOrdinals "ComputeNode" seenComputes

/-! Edges and cardinalities. -/

def checkEdge (edge : ProjectionEdge) : Except String Unit :=
  match edgeEndpointKinds.lookup edge.name with
  | none => .error ("diag:edge:" ++ edge.name ++ "-unknown")
  | some kinds =>
      match graph.kindOf edge.from, graph.kindOf edge.to with
      | none, _ => .error ("diag:edge:" ++ edge.name ++ "-from-dangling")
      | some _, none => .error ("diag:edge:" ++ edge.name ++ "-dangling")
      | some fromKind, some toKind => do
          require (fromKind ∈ kinds.1) ("diag:edge:" ++ edge.name ++ "-from-kind")
          require (toKind ∈ kinds.2) ("diag:edge:" ++ edge.name ++ "-to-kind")

/-- Exactly one edge of a name leaves a node. -/
def checkOne (family id name : String) : Except String Unit :=
  require (graph.deg id name = 1) ("diag:" ++ family ++ ":" ++ name ++ "-cardinality")

def checkCommitState (commit : CommitState) : Except String Unit := do
  checkOne graph "CommitState" commit.id "execRef"
  checkOne graph "CommitState" commit.id "scopeRef"

def checkTransition (transition : Transition) : Except String Unit := do
  checkOne graph "Transition" transition.id "fromRef"
  checkOne graph "Transition" transition.id "toRef"

def checkQuorumPolicy (policy : QuorumPolicy) : Except String Unit := do
  checkOne graph "QuorumPolicy" policy.id "inputRef"
  checkOne graph "QuorumPolicy" policy.id "observerSetRef"

def checkGuardObligation (guard : GuardObligation) : Except String Unit := do
  require (graph.deg guard.id "policyRef" = if guard.guardKind = "attested" then 1 else 0)
    "diag:GuardObligation:policyRef-cardinality"
  require (¬(guard.guardKind = "attested" ∧ guard.applicationMode ≠ "atomic-refuse" ∧
      guard.applicationMode ≠ "temporal-suppress") ∧
      ¬(guard.guardKind = "comparison" ∧ guard.applicationMode ≠ "comparison"))
    "diag:GuardObligation:application-mode"

def checkGroupGuard (group : BalancedEffectGroup) : Except String Unit := do
  let _ ← consumeGroupGuardProjection text graph group.sourceRef

def checkPrimitive (primitive : PrimitiveObligation) : Except String Unit :=
  if primitive.finalizedKind = "QuorumAcceptance.Single" then
    require (graph.deg primitive.id "policyRef" = 1)
      "diag:PrimitiveObligation:single-policyRef-cardinality"
  else if primitive.finalizedKind = "QuorumAcceptance.PerPolicy" then
    require (1 ≤ graph.deg primitive.id "policyRef")
      "diag:PrimitiveObligation:policyRef-cardinality"
  else .error "diag:PrimitiveObligation:unknown-finalizedKind"

/-- The node a variable of a compute's expression names. -/
def resolveOperand (var : String) : Except String String :=
  match lastWith (·.bindingValue = var) graph.computeNodes with
  | some compute => .ok compute.id
  | none =>
      match lastWith (·.bindingValue = var) graph.typedParams with
      | none => .error "diag:ComputeNode:expression-reference-unresolved"
      | some param => do
          let operand ← sole "diag:ComputeNode:expression-reference-missing"
            "diag:ComputeNode:expression-reference-ambiguous"
            (graph.typedOperands.filter fun operand =>
              operand.operandKind = "value" ∧ operand.value = "ref:" ++ param.name)
          return operand.id

def checkComputeOperands (compute : ComputeNode) : Except String Unit :=
  match text.parseExpr compute.expression with
  | none => .error "diag:ComputeNode:expression-invalid"
  | some expression => do
      let expected ← collect (resolveOperand graph) (exprVars expression)
      require (expected.toFinset = graph.targets compute.id "operandRefs")
        "diag:ComputeNode:expression-operands"

def checkPosting (posting : LedgerPosting) : Except String Unit := do
  checkOne graph "LedgerPosting" posting.id "groupRef"
  checkOne graph "LedgerPosting" posting.id "ledgerRef"
  checkOne graph "LedgerPosting" posting.id "partyRef"
  checkOne graph "LedgerPosting" posting.id "amountRef"
  checkOne graph "LedgerPosting" posting.id "currencyRef"
  require (graph.deg posting.id "memoRef" ≤ 1) "diag:LedgerPosting:memoRef-cardinality"

def checkGroup (group : BalancedEffectGroup) : Except String Unit := do
  require (1 ≤ graph.deg group.id "effectRefs")
    "diag:BalancedEffectGroup:effectRefs-cardinality"
  require (graph.deg group.id "guardRef" ≤ 1) "diag:BalancedEffectGroup:guardRef-cardinality"

def checkCardinalities : Except String Unit := do
  each (checkCommitState graph) graph.commitStates
  each (checkTransition graph) graph.transitions
  each (checkQuorumPolicy graph) graph.quorumPolicies
  each (checkGuardObligation graph) graph.guardObligations
  each (checkGroupGuard text graph) graph.balancedEffectGroups
  each (fun evidence => require (evidence.bindingValue ≠ "")
    "diag:EvidenceAcceptance:bindingValue-missing") graph.evidenceAcceptances
  each (checkPrimitive graph) graph.primitiveObligations
  each (fun compute => require (1 ≤ graph.deg compute.id "operandRefs")
    "diag:ComputeNode:operandRefs-cardinality") graph.computeNodes
  each (checkComputeOperands text graph) graph.computeNodes
  each (checkPosting graph) graph.ledgerPostings
  each (checkGroup graph) graph.balancedEffectGroups
  each (fun compensation => checkOne graph "CompensationObligation" compensation.id "compensates")
    graph.compensationObligations

/-! Coverage. -/

/-- The groups that compensations reach, one entry an edge. -/
def compensatedGroups : List String :=
  (graph.edges.filter fun edge =>
    edge.name = "compensates" ∧ graph.kindOf edge.to = some .balancedEffectGroup).map (·.to)

def rollbackGroups : List String :=
  (graph.balancedEffectGroups.filter (·.rollbackRequired)).map (·.id)

def mustBalanceGroups : Finset String :=
  ((graph.balancedEffectGroups.filter (·.mustBalance)).map (·.id)).toFinset

def allCommits : Finset String := (graph.commitStates.map (·.id)).toFinset

def checkInverse : Except String Unit := do
  each (fun group : BalancedEffectGroup =>
      require (∀ posting ∈ graph.targets group.id "effectRefs",
        group.id ∈ graph.targets posting "groupRef")
      "diag:BalancedEffectGroup:effectRefs-not-inverse") graph.balancedEffectGroups
  each (fun posting : LedgerPosting =>
      require (∀ group ∈ graph.targets posting.id "groupRef",
        posting.id ∈ graph.targets group "effectRefs")
      "diag:LedgerPosting:groupRef-not-inverse") graph.ledgerPostings

def checkBalanceAssertion (assertion : BalanceAssertion) : Except String Unit := do
  require (graph.targets assertion.id "assertsRefs" = mustBalanceGroups graph)
    "diag:BalanceAssertion:coverage"
  require (graph.deg assertion.id "assertsRefs" = (mustBalanceGroups graph).card)
    "diag:BalanceAssertion:duplicate-coverage"

def checkRequiredCommits (state : LifecycleState) : Except String Unit :=
  if state.terminal then do
    require (graph.targets state.id "requiredCommitRefs" = allCommits graph)
      "diag:LifecycleState:requiredCommitRefs-coverage"
    require (graph.deg state.id "requiredCommitRefs" = (allCommits graph).card)
      "diag:LifecycleState:requiredCommitRefs-duplicate"
  else .ok ()

def checkCoverage : Except String Unit := do
  require (compensatedGroups graph).Nodup "diag:CompensationObligation:duplicate-coverage"
  require ((compensatedGroups graph).toFinset = (rollbackGroups graph).toFinset)
    "diag:CompensationObligation:coverage"
  checkInverse graph
  each (checkBalanceAssertion graph) graph.balanceAssertions
  require (mustBalanceGroups graph ≠ ∅ → graph.balanceAssertions.length = 1)
    "diag:BalanceAssertion:missing"
  require (mustBalanceGroups graph = ∅ → graph.balanceAssertions = [])
    "diag:BalanceAssertion:spurious"
  require (graph.commitStates ≠ [] ∨ graph.quorumPolicies ≠ [] ∨ graph.ledgerPostings ≠ [] →
    graph.executionIdentities.length = 1) "diag:ExecutionIdentity:missing"
  require (graph.commitStates ≠ [] → ∃ state ∈ graph.lifecycleStates, state.terminal)
    "diag:LifecycleState:missing-terminal"
  each (checkRequiredCommits graph) graph.lifecycleStates

/-! Acyclic computes and lifecycle roles. -/

/-- The computes a compute reads. -/
def computeOperands (id : String) : List String :=
  ((graph.edgesFrom id "operandRefs").map (·.to)).filter
    (· ∈ graph.computeNodes.map (·.id))

def checkAcyclic : Except String Unit :=
  require (CycleSearch.hasCycle (computeOperands graph) (graph.computeNodes.map (·.id)) = false)
    "diag:ComputeNode:operandRefs-cyclic"

structure SeenRoles where
  mode : Option ExecutionMode := none
  roles : List LifecycleRole := []

def checkAnchor (role : ProjectedLifecycleRole) (stateId : String) : Except String Unit :=
  match graph.lifecycleStates.find? (·.id = stateId) with
  | none => .error "diag:ProjectedLifecycleRole:stateRef-not-success-terminal"
  | some state => do
      require (state.terminalKind = .success)
        "diag:ProjectedLifecycleRole:stateRef-not-success-terminal"
      require (state.name = role.state) "diag:ProjectedLifecycleRole:state-edge-disagreement"

def checkRole (seen : SeenRoles) (role : ProjectedLifecycleRole) : Except String SeenRoles := do
  checkOne graph "ProjectedLifecycleRole" role.id "stateRef"
  each (checkAnchor graph role) ((graph.edgesFrom role.id "stateRef").map (·.to))
  require (∀ mode ∈ seen.mode, mode = role.mode) "diag:ProjectedLifecycleRole:mode-inconsistent"
  require (role.role ∉ seen.roles) "diag:ProjectedLifecycleRole:duplicate-role"
  return ⟨some (seen.mode.getD role.mode), role.role :: seen.roles⟩

def requiredRoles : ExecutionMode → Finset LifecycleRole
  | .effectful => {.initial, .success, .acceptedOrAttested}
  | _ => {.initial, .success}

/-- The execution mode the structure of the graph implies. -/
def expectedMode : ExecutionMode :=
  if ∃ evidence ∈ graph.evidenceAcceptances, evidence.style = "evidence-only" then .evidence
  else if ∃ group ∈ graph.balancedEffectGroups, group.mustBalance ∧ ¬group.rollbackRequired then
    .temporal
  else .effectful

def checkRoleSet : Except String Unit := do
  let seen ← thread (checkRole graph) {} graph.projectedLifecycleRoles
  let mode := seen.mode.getD .effectful
  require (seen.roles.toFinset = requiredRoles mode) "diag:ProjectedLifecycleRole:role-set"
  require (mode = expectedMode graph) "diag:ProjectedLifecycleRole:mode-structure-mismatch"

def checkRoles : Except String Unit := do
  require ((∃ state ∈ graph.lifecycleStates, state.terminalKind = .success) →
    graph.projectedLifecycleRoles ≠ []) "diag:ProjectedLifecycleRole:missing"
  if graph.projectedLifecycleRoles = [] then .ok () else checkRoleSet graph

/-! The order. -/

def ProjectionEdge.key (edge : ProjectionEdge) : String ×ₗ String ×ₗ String :=
  toLex (edge.from, toLex (edge.name, edge.to))

/-- Nodes by id, edges by their ends and name. -/
def BackendProjectionGraph.order : BackendProjectionGraph where
  schemaVersion := graph.schemaVersion
  executionIdentities := sortOn (·.id) graph.executionIdentities
  commitStates := sortOn (·.id) graph.commitStates
  lifecycleStates := sortOn (·.id) graph.lifecycleStates
  transitions := sortOn (·.id) graph.transitions
  projectedLifecycleRoles := sortOn (·.id) graph.projectedLifecycleRoles
  quorumPolicies := sortOn (·.id) graph.quorumPolicies
  guardObligations := sortOn (·.id) graph.guardObligations
  evidenceAcceptances := sortOn (·.id) graph.evidenceAcceptances
  primitiveObligations := sortOn (·.id) graph.primitiveObligations
  balancedEffectGroups := sortOn (·.id) graph.balancedEffectGroups
  ledgerPostings := sortOn (·.id) graph.ledgerPostings
  balanceAssertions := sortOn (·.id) graph.balanceAssertions
  compensationObligations := sortOn (·.id) graph.compensationObligations
  typedOperands := sortOn (·.id) graph.typedOperands
  typedParams := sortOn (·.id) graph.typedParams
  references := sortOn (·.id) graph.references
  computeNodes := sortOn (·.id) graph.computeNodes
  edges := sortOn ProjectionEdge.key graph.edges

def verifyAndOrder : Except String BackendProjectionGraph := do
  checkIds [] graph.nodeIds
  each (fun identity => require (identity.invokedEvent ≠ "")
    "diag:ExecutionIdentity:invokedEvent-missing") graph.executionIdentities
  each checkReference graph.references
  checkBindings text graph
  each (fun state => require (state.terminal → state.terminalKind ≠ .none)
    "diag:LifecycleState:terminal-without-kind") graph.lifecycleStates
  each (checkEdge graph) graph.edges
  checkCardinalities text graph
  checkCoverage graph
  checkAcyclic graph
  checkRoles graph
  return graph.order

end Verify

end Neutrino.Projection
