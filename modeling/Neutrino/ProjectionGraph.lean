import Mathlib
import Neutrino.CoordinationPlan
import Neutrino.ExprJson

/-! The backend projection graph: a closed set of node families and typed edges, from which every
backend reads the obligations of one coordination. -/

namespace Neutrino.Projection

def kProjectionSchemaVersion : Int32 := 5

inductive ProjectionNodeKind
  | executionIdentity
  | commitState
  | lifecycleState
  | transition
  | quorumPolicy
  | guardObligation
  | evidenceAcceptance
  | primitiveObligation
  | balancedEffectGroup
  | ledgerPosting
  | balanceAssertion
  | compensationObligation
  | typedOperand
  | typedParam
  | reference
  | computeNode
  | projectedLifecycleRole
  deriving DecidableEq, Repr

/-- The ordinal of a kind, part of every id of a node of it. -/
def ProjectionNodeKind.ordinal : ProjectionNodeKind → Nat
  | executionIdentity => 0
  | commitState => 1
  | lifecycleState => 2
  | transition => 3
  | quorumPolicy => 4
  | guardObligation => 5
  | evidenceAcceptance => 6
  | primitiveObligation => 7
  | balancedEffectGroup => 8
  | ledgerPosting => 9
  | balanceAssertion => 10
  | compensationObligation => 11
  | typedOperand => 12
  | typedParam => 13
  | reference => 14
  | computeNode => 15
  | projectedLifecycleRole => 16

def ProjectionNodeKind.name : ProjectionNodeKind → String
  | executionIdentity => "ExecutionIdentity"
  | commitState => "CommitState"
  | lifecycleState => "LifecycleState"
  | transition => "Transition"
  | quorumPolicy => "QuorumPolicy"
  | guardObligation => "GuardObligation"
  | evidenceAcceptance => "EvidenceAcceptance"
  | primitiveObligation => "PrimitiveObligation"
  | balancedEffectGroup => "BalancedEffectGroup"
  | ledgerPosting => "LedgerPosting"
  | balanceAssertion => "BalanceAssertion"
  | compensationObligation => "CompensationObligation"
  | typedOperand => "TypedOperand"
  | typedParam => "TypedParam"
  | reference => "Reference"
  | computeNode => "ComputeNode"
  | projectedLifecycleRole => "ProjectedLifecycleRole"

/-- The order in which the verifier registers the families. -/
def registeredKinds : List ProjectionNodeKind := [
  .executionIdentity, .commitState, .lifecycleState, .transition, .quorumPolicy,
  .guardObligation, .evidenceAcceptance, .primitiveObligation, .balancedEffectGroup,
  .ledgerPosting, .balanceAssertion, .compensationObligation, .typedOperand, .typedParam,
  .reference, .computeNode, .projectedLifecycleRole
]

inductive TerminalKind
  | none
  | success
  | aborted
  | contested
  deriving DecidableEq, Repr

inductive ExecutionMode
  | evidence
  | effectful
  | temporal
  deriving DecidableEq, Repr

inductive LifecycleRole
  | initial
  | acceptedOrAttested
  | success
  deriving DecidableEq, Repr

/-! Identity, replay and lifecycle. -/

structure ExecutionClaimInput where
  name : String
  type : String
  deriving DecidableEq, Repr

structure ExecutionIdentity where
  id : String
  procedureNamespace : String
  instanceKey : String
  replayKey : String
  invokedEvent : String
  coordinationIdentity : String
  claimInputs : List ExecutionClaimInput
  sourceRef : String
  deriving DecidableEq, Repr

structure CommitState where
  id : String
  idempotencyKey : String
  commitScope : String
  sourceRef : String
  deriving DecidableEq, Repr

structure LifecycleState where
  id : String
  name : String
  terminal : Bool
  terminalKind : TerminalKind
  sourceRef : String
  deriving DecidableEq, Repr

structure Transition where
  id : String
  name : String
  sourceRef : String
  deriving DecidableEq, Repr

structure ProjectedLifecycleRole where
  id : String
  mode : ExecutionMode
  role : LifecycleRole
  state : String
  sourceRef : String
  deriving DecidableEq, Repr

/-! Attestation, guard and evidence. -/

structure QuorumPolicy where
  id : String
  threshold : Int32
  canonicalization : String
  timeout : String
  fallback : String
  sourceRef : String
  deriving DecidableEq, Repr

structure GuardObligation where
  id : String
  guardKind : String
  conditionKind : String
  applicationMode : String
  sourceRef : String
  deriving DecidableEq, Repr

structure EvidenceAcceptance where
  id : String
  bindingValue : String
  style : String
  chained : Bool
  admissibility : String
  sourceRef : String
  deriving DecidableEq, Repr

structure PrimitiveObligation where
  id : String
  finalizedKind : String
  typedOperands : List String
  sourceRef : String
  deriving DecidableEq, Repr

/-! Effect, balance and ledger. -/

structure BalancedEffectGroup where
  id : String
  firstIndex : Int32
  pairing : String
  mustBalance : Bool
  gateMode : PlanGateMode
  gatePolicy : String
  comparisonGuardExpression : String
  rollbackRequired : Bool
  sourceRef : String
  deriving DecidableEq, Repr

structure LedgerPosting where
  id : String
  effectIndex : Int32
  direction : String
  name : String
  ledger : String
  party : String
  amount : String
  currency : String
  memo : String
  sourceRef : String
  deriving DecidableEq, Repr

structure BalanceAssertion where
  id : String
  scope : String
  sourceRef : String
  deriving DecidableEq, Repr

structure CompensationObligation where
  id : String
  mode : String
  sourceRef : String
  deriving DecidableEq, Repr

/-! Typed value, reference and compute. -/

structure TypedOperand where
  id : String
  operandKind : String
  value : String
  sourceRef : String
  deriving DecidableEq, Repr

structure TypedParam where
  id : String
  name : String
  bindingValue : String
  ordinal : Int32
  type : String
  sourceRef : String
  isInstanceKey : Bool
  deriving DecidableEq, Repr

structure Reference where
  id : String
  ref : String
  role : String
  bindingValue : String
  sourceRef : String
  deriving DecidableEq, Repr

structure ComputeNode where
  id : String
  bindingValue : String
  ordinal : Int32
  exprKind : String
  dtype : String
  expression : String
  sourceRef : String
  deriving DecidableEq, Repr

structure ProjectionEdge where
  «from» : String
  name : String
  «to» : String
  sourceRef : String
  deriving DecidableEq, Repr

structure BackendProjectionGraph where
  schemaVersion : Int32
  executionIdentities : List ExecutionIdentity
  commitStates : List CommitState
  lifecycleStates : List LifecycleState
  transitions : List Transition
  projectedLifecycleRoles : List ProjectedLifecycleRole
  quorumPolicies : List QuorumPolicy
  guardObligations : List GuardObligation
  evidenceAcceptances : List EvidenceAcceptance
  primitiveObligations : List PrimitiveObligation
  balancedEffectGroups : List BalancedEffectGroup
  ledgerPostings : List LedgerPosting
  balanceAssertions : List BalanceAssertion
  compensationObligations : List CompensationObligation
  typedOperands : List TypedOperand
  typedParams : List TypedParam
  references : List Reference
  computeNodes : List ComputeNode
  edges : List ProjectionEdge
  deriving DecidableEq, Repr

/-- A node id: the ordinal of its kind, then each component behind its length. -/
def projectionNodeId (kind : ProjectionNodeKind) (components : List String) : String :=
  components.foldl (fun id component =>
    id ++ "|" ++ toString component.utf8ByteSize ++ ":" ++ component) (toString kind.ordinal)

def exprKindName : ExprNode → String
  | .num _ _ => "number"
  | .var _ _ => "value"
  | .bin _ _ _ _ => "binary"
  | .cmp _ _ _ _ => "compare"
  | .call _ _ _ => "call"

/-- The text form of JSON values, as the compiler's JSON library writes and reads it. -/
structure JsonText where
  compactJson : Json → String
  parse : String → Except String Json

/-- The library reads a value back from the text it wrote for it. -/
def JsonText.ReadsBack (text : JsonText) (json : Json) : Prop :=
  text.parse (text.compactJson json) = .ok json

/-- The typed expression a text holds. -/
def JsonText.parseExpr (text : JsonText) (expression : String) : Option ExprNode :=
  (text.parse expression).toOption.bind fun json => (exprFromJson json).toOption

namespace BackendProjectionGraph

variable (graph : BackendProjectionGraph)

/-- The ids of a node family. -/
def ids : ProjectionNodeKind → List String
  | .executionIdentity => graph.executionIdentities.map (·.id)
  | .commitState => graph.commitStates.map (·.id)
  | .lifecycleState => graph.lifecycleStates.map (·.id)
  | .transition => graph.transitions.map (·.id)
  | .quorumPolicy => graph.quorumPolicies.map (·.id)
  | .guardObligation => graph.guardObligations.map (·.id)
  | .evidenceAcceptance => graph.evidenceAcceptances.map (·.id)
  | .primitiveObligation => graph.primitiveObligations.map (·.id)
  | .balancedEffectGroup => graph.balancedEffectGroups.map (·.id)
  | .ledgerPosting => graph.ledgerPostings.map (·.id)
  | .balanceAssertion => graph.balanceAssertions.map (·.id)
  | .compensationObligation => graph.compensationObligations.map (·.id)
  | .typedOperand => graph.typedOperands.map (·.id)
  | .typedParam => graph.typedParams.map (·.id)
  | .reference => graph.references.map (·.id)
  | .computeNode => graph.computeNodes.map (·.id)
  | .projectedLifecycleRole => graph.projectedLifecycleRoles.map (·.id)

/-- The id and kind of every node, family by family as the verifier registers them. -/
def nodeIds : List (String × ProjectionNodeKind) :=
  registeredKinds.flatMap fun kind => (graph.ids kind).map fun id => (id, kind)

def kindOf (id : String) : Option ProjectionNodeKind :=
  (graph.nodeIds.find? fun node => node.1 = id).map (·.2)

/-- The edges of a name out of a node. -/
def edgesFrom (id name : String) : List ProjectionEdge :=
  graph.edges.filter fun edge => edge.from = id ∧ edge.name = name

def deg (id name : String) : Nat := (graph.edgesFrom id name).length

/-- The nodes that edges of a name lead to. -/
def targets (id name : String) : Finset String :=
  ((graph.edgesFrom id name).map (·.to)).toFinset

end BackendProjectionGraph

end Neutrino.Projection
