import Neutrino.CanonicalLabels
import Neutrino.CoordinationEnvelope
import Neutrino.Library.FirstBy
import Neutrino.Library.Reach
import Neutrino.PlanShape
import Neutrino.ProjectionVerify

/-! The projector: one coordination plan to its backend projection graph, in one pass over the
node families and their edges. -/

namespace Neutrino.Projection

open Checked SortOn FirstBy

/-- Where in the plan a node or an edge comes from. -/
def planRef (part : String) (index : Nat) : String :=
  "coordinationPlan." ++ part ++ "[" ++ toString index ++ "]"

section Projector

variable (sha256Hex : List UInt8 → String) (text : JsonText) (plan : CoordinationPlan)

/-! Identity. -/

def finalizedInvokedEvent : String :=
  if plan.invokedEvent = "" then "procedure_invoked" else plan.invokedEvent

def executionIdentity : ExecutionIdentity where
  id := projectionNodeId .executionIdentity [plan.procedure]
  procedureNamespace := plan.procedure
  instanceKey := plan.workflowKey
  replayKey := plan.workflowKey
  invokedEvent := finalizedInvokedEvent plan
  coordinationIdentity := coordinationIdentityHash sha256Hex plan
  claimInputs := plan.inputs.map fun input => ⟨input.name, input.type⟩
  sourceRef := "coordinationPlan.procedure"

/-! Attestation policies, and the primitive that ranges over them. -/

def admissibilityOf (policy : AttestationPolicy) : String :=
  if policy.canonicalization = "" then "exact" else policy.canonicalization

def evidenceAcceptance (indexed : AttestationPolicy × Nat) : EvidenceAcceptance where
  id := projectionNodeId .evidenceAcceptance [indexed.1.input]
  bindingValue := indexed.1.input
  style := if plan.evidenceOnly then "evidence-only" else "attested"
  chained := false
  admissibility := admissibilityOf indexed.1
  sourceRef :=
    if plan.evidenceOnly then "coordinationPlan.evidenceOnly"
    else planRef "attestations" indexed.2

def observerReference (indexed : AttestationPolicy × Nat) : Reference where
  id := projectionNodeId .reference [indexed.1.input, "observerSet"]
  ref := (establishProjectionLabels plan).observerSet indexed.1.observerSet
  role := "observerSet"
  bindingValue := indexed.1.observerSet
  sourceRef := planRef "attestations" indexed.2 ++ ".observerSet"

def quorumPolicy (indexed : AttestationPolicy × Nat) : QuorumPolicy where
  id := projectionNodeId .quorumPolicy [indexed.1.input]
  threshold := Int32.ofInt indexed.1.quorum
  canonicalization := indexed.1.canonicalization
  timeout := indexed.1.timeout
  fallback := indexed.1.fallback
  sourceRef := planRef "attestations" indexed.2

/-- The policy node of an input; an input without one reads as empty. -/
def policyIdByInput (input : String) : String :=
  if isDeclaredPolicy plan.attestations input then projectionNodeId .quorumPolicy [input] else ""

def policyEdges (indexed : AttestationPolicy × Nat) : List ProjectionEdge := [
  ⟨(quorumPolicy indexed).id, "inputRef", (evidenceAcceptance plan indexed).id,
    planRef "attestations" indexed.2⟩,
  ⟨(quorumPolicy indexed).id, "observerSetRef", (observerReference plan indexed).id,
    planRef "attestations" indexed.2 ++ ".observerSet"⟩
]

/-- Acceptance ranges over one policy, or over any number of them policy by policy. -/
def perPolicy : Bool := coordinationIsTemporal plan || decide (1 < plan.attestations.length)

def finalizedKindOf : String :=
  if perPolicy plan then "QuorumAcceptance.PerPolicy" else "QuorumAcceptance.Single"

def primitiveObligation : PrimitiveObligation where
  id := projectionNodeId .primitiveObligation [finalizedKindOf plan, plan.procedure]
  finalizedKind := finalizedKindOf plan
  typedOperands := plan.attestations.map fun policy => policyIdByInput plan policy.input
  sourceRef :=
    if perPolicy plan then "coordinationPlan.attestations" else "coordinationPlan.attestations[0]"

def primitiveObligations : List PrimitiveObligation :=
  if plan.attestations = [] then [] else [primitiveObligation plan]

def primitiveEdges : List ProjectionEdge :=
  plan.attestations.zipIdx.map fun indexed =>
    ⟨(primitiveObligation plan).id, "policyRef", policyIdByInput plan indexed.1.input,
      planRef "attestations" indexed.2⟩

/-! The guards of an evidence-only acceptance: one a policy. -/

def evidencePolicies : List (AttestationPolicy × Nat) :=
  if plan.evidenceOnly then plan.attestations.zipIdx else []

def evidenceGuard (indexed : AttestationPolicy × Nat) : GuardObligation where
  id := projectionNodeId .guardObligation ["a", indexed.1.input]
  guardKind := "attested"
  conditionKind := "quorum"
  applicationMode := "atomic-refuse"
  sourceRef := planRef "attestations" indexed.2

def evidenceGuardEdge (indexed : AttestationPolicy × Nat) : ProjectionEdge :=
  ⟨(evidenceGuard indexed).id, "policyRef", policyIdByInput plan indexed.1.input,
    planRef "attestations" indexed.2⟩

/-! Postings and their operands. -/

def operandNode (kind value sourceRef : String) : TypedOperand where
  id := projectionNodeId .typedOperand [kind, value]
  operandKind := kind
  value := value
  sourceRef := sourceRef

def postingNodeId (index : Nat) : String := projectionNodeId .ledgerPosting [toString index]

def ledgerPosting (indexed : PlanEffect × Nat) : LedgerPosting where
  id := postingNodeId indexed.1.index
  effectIndex := Int32.ofNat indexed.1.index
  direction := indexed.1.kind
  name := indexed.1.name
  ledger := indexed.1.ledger
  party := indexed.1.party
  amount := indexed.1.amount
  currency := indexed.1.currency
  memo := indexed.1.memo
  sourceRef := planRef "effects" indexed.2

/-- The operands of an effect with the edges that name them; an empty one has no edge. -/
def postingOperands (indexed : PlanEffect × Nat) : List (String × TypedOperand) :=
  let labels := establishProjectionLabels plan
  let effect := indexed.1
  let ref := planRef "effects" indexed.2
  (if effect.ledger = "" then [] else
    [("ledgerRef", operandNode "ledger" (labels.ledger effect.ledger) (ref ++ ".ledger"))]) ++
  (if effect.party = "" then [] else
    [("partyRef", operandNode "party" (labels.operand plan effect.party) (ref ++ ".party"))]) ++
  (if effect.amount = "" then [] else
    [("amountRef", operandNode "amount" (labels.operand plan effect.amount)
      (ref ++ ".amount"))]) ++
  (if effect.currency = "" then [] else
    [("currencyRef", operandNode "currency" (labels.operand plan effect.currency)
      (ref ++ ".currency"))]) ++
  (if effect.memo = "" then [] else
    [("memoRef", operandNode "memo" effect.memo (ref ++ ".memo"))])

def postingEdges (indexed : PlanEffect × Nat) : List ProjectionEdge :=
  (postingOperands plan indexed).map fun operand =>
    ⟨(ledgerPosting indexed).id, operand.1, operand.2.id, operand.2.sourceRef⟩

/-! Params and computes. -/

def typedParam (indexed : PlanInput × Nat) : TypedParam where
  id := projectionNodeId .typedParam
    [(establishProjectionLabels plan).value plan indexed.1.name]
  name := (establishProjectionLabels plan).value plan indexed.1.name
  bindingValue := indexed.1.name
  ordinal := Int32.ofNat indexed.2
  type := indexed.1.type
  sourceRef := planRef "inputs" indexed.2
  isInstanceKey := decide (plan.workflowKey ≠ "") && decide (indexed.1.name = plan.workflowKey)

def computeNodeId (name : String) : String :=
  projectionNodeId .computeNode [(establishProjectionLabels plan).value plan name]

def computeNode (indexed : PlanCompute × Nat) : ComputeNode where
  id := computeNodeId plan indexed.1.name
  bindingValue := indexed.1.name
  ordinal := Int32.ofNat indexed.2
  exprKind := indexed.1.expr.elim "value" exprKindName
  dtype := indexed.1.category
  expression := indexed.1.expr.elim "" fun expr => text.compactJson (exprToJson expr)
  sourceRef := planRef "computes" indexed.2

def isCompute (name : String) : Bool := plan.computes.any (·.name = name)

def dependencyOperand (name sourceRef : String) : TypedOperand :=
  operandNode "value" ("ref:" ++ (establishProjectionLabels plan).value plan name) sourceRef

/-- The dependencies that are no computes. -/
def dependencyOperands (indexed : PlanCompute × Nat) : List TypedOperand :=
  (indexed.1.deps.filter (!isCompute plan ·)).map fun name =>
    dependencyOperand plan name (planRef "computes" indexed.2)

def dependencyId (name sourceRef : String) : String :=
  if isCompute plan name then computeNodeId plan name
  else (dependencyOperand plan name sourceRef).id

def computeEdges (indexed : PlanCompute × Nat) : List ProjectionEdge :=
  indexed.1.deps.map fun name =>
    ⟨computeNodeId plan indexed.1.name, "operandRefs",
      dependencyId plan name (planRef "computes" indexed.2), planRef "computes" indexed.2⟩

/-- The operands, pooled by kind and value. -/
def typedOperands : List TypedOperand :=
  firstBy (fun operand => (operand.operandKind, operand.value))
    (plan.effects.zipIdx.flatMap (fun indexed => (postingOperands plan indexed).map (·.2)) ++
      plan.computes.zipIdx.flatMap (dependencyOperands plan))

/-! Groups and their guards. -/

def groupNodeId (group : PlanEffectGroup) : String :=
  projectionNodeId .balancedEffectGroup [toString group.firstIndex]

/-- The comparison an ungated group spells: that of its first effect. -/
def comparisonGuardExpression (group : PlanEffectGroup) : String :=
  if group.gateMode = .none then
    match (group.effectIndices.head?.bind fun index => plan.effects[index]?).bind (·.guard) with
    | some guard => text.compactJson (exprToJson guard)
    | none => ""
  else ""

def rollbackRequired (group : PlanEffectGroup) : Bool :=
  group.mustBalance && !coordinationIsTemporal plan

def balancedEffectGroup (indexed : PlanEffectGroup × Nat) : BalancedEffectGroup where
  id := groupNodeId indexed.1
  firstIndex := Int32.ofNat indexed.1.firstIndex
  pairing := "identical-guard"
  mustBalance := indexed.1.mustBalance
  gateMode := indexed.1.gateMode
  gatePolicy := indexed.1.gatePolicy
  comparisonGuardExpression := comparisonGuardExpression text plan indexed.1
  rollbackRequired := rollbackRequired plan indexed.1
  sourceRef := planRef "effectGroups" indexed.2

/-- A gate guards its group with the policy; without one the group's predicate does. -/
def groupGuardObligation (indexed : PlanEffectGroup × Nat) : Option GuardObligation :=
  let group := indexed.1
  let id := projectionNodeId .guardObligation ["g", toString group.firstIndex]
  let ref := planRef "effectGroups" indexed.2
  if group.gateMode ≠ .none ∧ group.gatePolicy ≠ "" then
    some ⟨id, "attested", "quorum",
      if group.gateMode = .temporalSuppress then "temporal-suppress" else "atomic-refuse", ref⟩
  else if group.gateMode = .none ∧ group.guardKey ≠ "" then
    some ⟨id, "comparison", "comparison", "comparison", ref⟩
  else none

def guardEdges (indexed : PlanEffectGroup × Nat) : List ProjectionEdge :=
  match groupGuardObligation indexed with
  | none => []
  | some guard =>
      (if guard.guardKind = "attested" then
        [⟨guard.id, "policyRef", policyIdByInput plan indexed.1.gatePolicy, guard.sourceRef⟩]
      else []) ++ [⟨groupNodeId indexed.1, "guardRef", guard.id, guard.sourceRef⟩]

def memberEdges (indexed : PlanEffectGroup × Nat) : List ProjectionEdge :=
  let ref := planRef "effectGroups" indexed.2
  indexed.1.effectIndices.zipIdx.flatMap fun member =>
    if plan.effects.any (·.index = member.1) then [
      ⟨postingNodeId member.1, "groupRef", groupNodeId indexed.1, ref⟩,
      ⟨groupNodeId indexed.1, "effectRefs", postingNodeId member.1,
        ref ++ ".effectIndices[" ++ toString member.2 ++ "]"⟩]
    else []

/-! Balance and compensation. -/

def balanceAssertion : BalanceAssertion where
  id := projectionNodeId .balanceAssertion [plan.procedure]
  scope := "coordination"
  sourceRef := "coordinationPlan.balanced"

def balancedGroups : List (PlanEffectGroup × Nat) :=
  plan.effectGroups.zipIdx.filter (·.1.mustBalance)

def balanceAssertions : List BalanceAssertion :=
  if balancedGroups plan = [] then [] else [balanceAssertion plan]

def balanceEdges : List ProjectionEdge :=
  (balancedGroups plan).map fun indexed =>
    ⟨(balanceAssertion plan).id, "assertsRefs", groupNodeId indexed.1, "coordinationPlan.balanced"⟩

/-- The groups a single transaction rolls back; a temporal plan has a commit ledger instead. -/
def compensatedPlanGroups : List (PlanEffectGroup × Nat) :=
  if coordinationIsTemporal plan then [] else balancedGroups plan

def compensationObligation (indexed : PlanEffectGroup × Nat) : CompensationObligation where
  id := projectionNodeId .compensationObligation [toString indexed.1.firstIndex]
  mode := "rollback"
  sourceRef := planRef "effectGroups" indexed.2

def compensationEdge (indexed : PlanEffectGroup × Nat) : ProjectionEdge :=
  ⟨(compensationObligation indexed).id, "compensates", groupNodeId indexed.1,
    planRef "effectGroups" indexed.2⟩

/-! Commit states: one a gated policy scope. -/

structure CommitScope where
  policyKey : String
  sourceRef : String
  deriving DecidableEq

def commitScopes : List CommitScope :=
  firstBy (·.policyKey)
    (if plan.evidenceOnly then
      plan.attestations.map fun policy => ⟨policy.input, "coordinationPlan.workflowKey"⟩
    else
      (plan.effectGroups.zipIdx.filter (·.1.gatePolicy ≠ "")).map fun indexed =>
        ⟨indexed.1.gatePolicy, planRef "effectGroups" indexed.2⟩)

/-- Whether a policy is in the table by the time commits are projected: a declared one is, and
so is any that the guard of a group has looked up. -/
def policyScoped (policyKey : String) : Bool :=
  isDeclaredPolicy plan.attestations policyKey ||
    plan.effectGroups.any fun group => group.gateMode ≠ .none && group.gatePolicy = policyKey

def commitState (scope : CommitScope) : CommitState where
  id := projectionNodeId .commitState [scope.policyKey]
  idempotencyKey := plan.workflowKey
  commitScope :=
    if policyScoped plan scope.policyKey then policyIdByInput plan scope.policyKey else scope.policyKey
  sourceRef := scope.sourceRef

def commitEdges (scope : CommitScope) : List ProjectionEdge :=
  ⟨(commitState plan scope).id, "execRef", (executionIdentity sha256Hex plan).id,
    "coordinationPlan.workflowKey"⟩ ::
  if policyScoped plan scope.policyKey then
    [⟨(commitState plan scope).id, "scopeRef", policyIdByInput plan scope.policyKey,
      scope.sourceRef⟩]
  else []

/-! Lifecycle. -/

def terminalKindOf (name : String) : TerminalKind :=
  if plan.terminal.success ≠ "" ∧ name = plan.terminal.success then .success
  else if plan.terminal.aborted ≠ "" ∧ name = plan.terminal.aborted then .aborted
  else if plan.terminal.contested ≠ "" ∧ name = plan.terminal.contested then .contested
  else .none

structure NotedState where
  name : String
  sourceRef : String
  deriving DecidableEq

/-- The terminals, then the ends of each transition. -/
def mentionedStates : List NotedState :=
  [⟨plan.terminal.success, "coordinationPlan.terminal.success"⟩,
    ⟨plan.terminal.aborted, "coordinationPlan.terminal.aborted"⟩,
    ⟨plan.terminal.contested, "coordinationPlan.terminal.contested"⟩] ++
  plan.lifecycleTransitions.zipIdx.flatMap fun indexed =>
    [⟨indexed.1.from, planRef "lifecycleTransitions" indexed.2 ++ ".from"⟩,
      ⟨indexed.1.«to», planRef "lifecycleTransitions" indexed.2 ++ ".to"⟩]

/-- Each named state once. -/
def notedStates : List NotedState :=
  firstBy (·.name) ((mentionedStates plan).filter (·.name ≠ ""))

def stateNodeId (name : String) : String := projectionNodeId .lifecycleState [name]

def lifecycleState (noted : NotedState) : LifecycleState where
  id := stateNodeId noted.name
  name := noted.name
  terminal := terminalKindOf plan noted.name ≠ .none
  terminalKind := terminalKindOf plan noted.name
  sourceRef := noted.sourceRef

/-- A terminal state requires the commit state of every scope. -/
def requiredCommitEdges (noted : NotedState) : List ProjectionEdge :=
  if (lifecycleState plan noted).terminal then
    (commitScopes plan).map fun scope =>
      ⟨stateNodeId noted.name, "requiredCommitRefs", (commitState plan scope).id, noted.sourceRef⟩
  else []

def posts (transition : LifecycleTransitionPolicy) : Bool := "post" ∈ transition.effects

def isNoted (name : String) : Bool := name ∈ (notedStates plan).map (·.name)

def transitionNode (indexed : LifecycleTransitionPolicy × Nat) : Transition where
  id := projectionNodeId .transition [indexed.1.name, indexed.1.from, indexed.1.«to»]
  name := indexed.1.name
  sourceRef := planRef "lifecycleTransitions" indexed.2

/-- A transition's ends, and the groups it commits when it posts. -/
def transitionEdges (indexed : LifecycleTransitionPolicy × Nat) : List ProjectionEdge :=
  let node := transitionNode indexed
  (if isNoted plan indexed.1.from then
    [⟨node.id, "fromRef", stateNodeId indexed.1.from, node.sourceRef⟩] else []) ++
  (if isNoted plan indexed.1.«to» then
    [⟨node.id, "toRef", stateNodeId indexed.1.«to», node.sourceRef⟩] else []) ++
  if posts indexed.1 then
    plan.effectGroups.zipIdx.map fun group =>
      ⟨node.id, "effectGroupRefs", groupNodeId group.1, planRef "effectGroups" group.2⟩
  else []

def ExecutionMode.ordinal : ExecutionMode → Nat
  | .evidence => 0
  | .effectful => 1
  | .temporal => 2

def LifecycleRole.ordinal : LifecycleRole → Nat
  | .initial => 0
  | .acceptedOrAttested => 1
  | .success => 2

def projectedMode : ExecutionMode :=
  if plan.evidenceOnly then .evidence
  else if coordinationIsTemporal plan then .temporal
  else .effectful

def projectedRole (role : LifecycleRole) : ProjectedLifecycleRole where
  id := projectionNodeId .projectedLifecycleRole
    [toString (projectedMode plan).ordinal, toString role.ordinal]
  mode := projectedMode plan
  role := role
  state := plan.terminal.success
  sourceRef := "coordinationPlan.terminal.success"

def addedRoles : List LifecycleRole :=
  if isNoted plan plan.terminal.success then
    [.initial] ++ (if projectedMode plan = .effectful then [.acceptedOrAttested] else []) ++
      [.success]
  else []

def roleEdge (role : LifecycleRole) : ProjectionEdge :=
  ⟨(projectedRole plan role).id, "stateRef", stateNodeId plan.terminal.success,
    "coordinationPlan.terminal.success"⟩

/-! The whole graph, before it is verified and ordered. -/

def projectedEdges : List ProjectionEdge :=
  plan.attestations.zipIdx.flatMap (policyEdges plan) ++ primitiveEdges plan ++
    (evidencePolicies plan).map (evidenceGuardEdge plan) ++
    plan.effects.zipIdx.flatMap (postingEdges plan) ++
    plan.computes.zipIdx.flatMap (computeEdges plan) ++
    plan.effectGroups.zipIdx.flatMap (fun indexed =>
      guardEdges plan indexed ++ memberEdges plan indexed) ++
    balanceEdges plan ++ (compensatedPlanGroups plan).map compensationEdge ++
    (commitScopes plan).flatMap (commitEdges sha256Hex plan) ++
    (notedStates plan).flatMap (requiredCommitEdges plan) ++
    plan.lifecycleTransitions.zipIdx.flatMap (transitionEdges plan) ++
    (addedRoles plan).map (roleEdge plan)

def projectedGraph : BackendProjectionGraph where
  schemaVersion := kProjectionSchemaVersion
  executionIdentities := [executionIdentity sha256Hex plan]
  commitStates := (commitScopes plan).map (commitState plan)
  lifecycleStates := (notedStates plan).map (lifecycleState plan)
  transitions := plan.lifecycleTransitions.zipIdx.map transitionNode
  projectedLifecycleRoles := (addedRoles plan).map (projectedRole plan)
  quorumPolicies := plan.attestations.zipIdx.map quorumPolicy
  guardObligations := (evidencePolicies plan).map evidenceGuard ++
    plan.effectGroups.zipIdx.filterMap groupGuardObligation
  evidenceAcceptances := plan.attestations.zipIdx.map (evidenceAcceptance plan)
  primitiveObligations := primitiveObligations plan
  balancedEffectGroups := plan.effectGroups.zipIdx.map (balancedEffectGroup text plan)
  ledgerPostings := plan.effects.zipIdx.map ledgerPosting
  balanceAssertions := balanceAssertions plan
  compensationObligations := (compensatedPlanGroups plan).map compensationObligation
  typedOperands := typedOperands plan
  typedParams := plan.inputs.zipIdx.map (typedParam plan)
  references := plan.attestations.zipIdx.map (observerReference plan)
  computeNodes := plan.computes.zipIdx.map (computeNode text plan)
  edges := projectedEdges sha256Hex plan

/-! Terminals: each is entered by a transition, and a posting reaches success alone. -/

def terminals : List (String × String) :=
  [("success", plan.terminal.success), ("aborted", plan.terminal.aborted),
    ("contested", plan.terminal.contested)]

def checkReachable (terminal : String × String) : Except String Unit :=
  require (terminal.2 = "" ∨ terminal.2 ∈ plan.lifecycleTransitions.map (·.to))
    ("BackendProjection:LifecycleState:unreachable-terminal:" ++ terminal.1 ++ ":" ++ terminal.2)

def terminalNames : List String := ((terminals plan).map (·.2)).filter (· ≠ "")

/-- The states one transition on; a terminal is a sink. -/
def stateSuccessors (name : String) : List String :=
  if name ∈ terminalNames plan then []
  else (plan.lifecycleTransitions.filter (·.from = name)).map (·.to)

/-- The terminals reachable from a state, in order of name. -/
def reachableTerminals (start : String) : List String :=
  let seen := Reach.reach (stateSuccessors plan) (plan.lifecycleTransitions.map (·.from)) start
  sortOn id (firstBy id ((terminalNames plan).filter (· ∈ seen)))

def checkPostingOutcome (transition : LifecycleTransitionPolicy) : Except String Unit :=
  if posts transition then
    let reached := reachableTerminals plan transition.«to»
    match reached.find? (· ≠ plan.terminal.success) with
    | some terminal =>
        .error ("BackendProjection:Transition:posting-reaches-non-success-terminal:" ++
          transition.name ++ ":" ++ terminal)
    | none =>
        require (plan.terminal.success ∈ reached)
          ("BackendProjection:Transition:posting-reaches-no-success-terminal:" ++ transition.name)
  else .ok ()

def checkPostingOutcomes : Except String Unit :=
  if plan.terminal.success = "" then .ok ()
  else each (checkPostingOutcome plan) plan.lifecycleTransitions

/-! Completeness of the graph against the plan. -/

def checkIdentityComplete (graph : BackendProjectionGraph) : Except String Unit :=
  match graph.executionIdentities with
  | [identity] => do
      require (identity.invokedEvent = finalizedInvokedEvent plan ∧
          identity.coordinationIdentity = coordinationIdentityHash sha256Hex plan ∧
          identity.claimInputs.length = plan.inputs.length)
        "diag:completeness:executionIdentity-lowering-payload"
      require (∀ pair ∈ identity.claimInputs.zip plan.inputs,
          pair.1.name = pair.2.name ∧ pair.1.type = pair.2.type)
        "diag:completeness:executionIdentity-claim-input"
  | _ => .error "diag:completeness:executionIdentity-count"

def checkPostingComplete (posting : LedgerPosting) : Except String Unit := do
  require (0 ≤ posting.effectIndex.toInt ∧ posting.effectIndex.toInt < plan.effects.length)
    "diag:completeness:ledgerPosting-index"
  require (∀ effect ∈ plan.effects[posting.effectIndex.toInt.toNat]?,
      posting.direction = effect.kind ∧ posting.name = effect.name ∧
        posting.ledger = effect.ledger ∧ posting.party = effect.party ∧
        posting.amount = effect.amount ∧ posting.currency = effect.currency ∧
        posting.memo = effect.memo)
    "diag:completeness:ledgerPosting-lowering-payload"

def checkGroupComplete (group : BalancedEffectGroup) : Except String Unit :=
  match plan.effectGroups.find? fun item => Int32.ofNat item.firstIndex = group.firstIndex with
  | none => .error "diag:completeness:balancedEffectGroup-index"
  | some found =>
      require (group.gateMode = found.gateMode ∧ group.gatePolicy = found.gatePolicy ∧
          group.comparisonGuardExpression = comparisonGuardExpression text plan found)
        "diag:completeness:balancedEffectGroup-lowering-payload"

def completenessAgainstCoordination (graph : BackendProjectionGraph) : Except String Unit := do
  checkIdentityComplete sha256Hex plan graph
  require (plan.terminal.success ≠ "") "diag:completeness:success-terminal"
  require (graph.ledgerPostings.length = plan.effects.length)
    "diag:completeness:ledgerPosting-count"
  each (checkPostingComplete plan) graph.ledgerPostings
  require (graph.quorumPolicies.length = plan.attestations.length)
    "diag:completeness:quorumPolicy-count"
  require (graph.evidenceAcceptances.length = plan.attestations.length)
    "diag:completeness:evidenceAcceptance-count"
  require (graph.references.length = plan.attestations.length)
    "diag:completeness:reference-count"
  require (graph.balancedEffectGroups.length = plan.effectGroups.length)
    "diag:completeness:balancedEffectGroup-count"
  each (checkGroupComplete text plan) graph.balancedEffectGroups
  require (graph.typedParams.length = plan.inputs.length) "diag:completeness:typedParam-count"
  require (graph.computeNodes.length = plan.computes.length)
    "diag:completeness:computeNode-count"

def projectBackendGraph : Except String BackendProjectionGraph := do
  each (checkReachable plan) (terminals plan)
  checkPostingOutcomes plan
  completenessAgainstCoordination sha256Hex text plan (projectedGraph sha256Hex text plan)
  verifyAndOrder text (projectedGraph sha256Hex text plan)

end Projector

end Neutrino.Projection
