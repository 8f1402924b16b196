import Mathlib
import Neutrino.Library.Checked
import Neutrino.Library.SortOn
import Neutrino.ProjectionGraph

/-! What targets read of a projection graph: its attestation, the guard of a group, its typed
values and the finalized sequence of groups and postings. -/

namespace Neutrino.Projection

open Checked SortOn

/-- A scan that must meet exactly one element. -/
def sole {α : Type} (missing ambiguous : String) : List α → Except String α
  | [] => .error missing
  | [element] => .ok element
  | _ => .error ambiguous

/-- A scan that keeps the last element it meets. -/
def lastWith {α : Type} (found : α → Prop) [DecidablePred found] (elements : List α) : Option α :=
  (elements.filter (found ·)).getLast?

structure AttestationBinding where
  policyId : String
  inputBinding : String
  observerSetBinding : String
  threshold : Int32
  canonicalization : String
  timeout : String
  fallback : String
  evidenceStyle : String
  evidenceChained : Bool
  admissibility : String
  deriving DecidableEq

structure AttestationProjection where
  executionMode : ExecutionMode
  finalizedKind : String
  policies : List AttestationBinding
  deriving DecidableEq

structure GroupGuardProjection where
  present : Bool := false
  guardKind : String := ""
  conditionKind : String := ""
  applicationMode : String := ""
  policyInputBinding : String := ""
  comparisonGuard : Option ExprNode := none

structure TypedParamProjection where
  name : String
  type : String
  ordinal : UInt64
  deriving DecidableEq

structure ComputeProjection where
  name : String
  dtype : String
  expression : ExprNode
  ordinal : UInt64

structure PostingValueProjection where
  effectIndex : Int32
  memo : String
  deriving DecidableEq

structure TypedValueProjection where
  params : List TypedParamProjection
  instanceKeyParam : Option TypedParamProjection
  computes : List ComputeProjection
  postings : List PostingValueProjection

inductive FinalizedAttestationKind
  | none
  | single
  | perPolicy
  deriving DecidableEq

inductive FinalizedPostingDirection
  | debit
  | credit
  deriving DecidableEq

inductive FinalizedPostingGuardKind
  | direct
  | comparison
  deriving DecidableEq

inductive FinalizedPostingsSchemaKind
  | plain
  | withMemo
  deriving DecidableEq

inductive FinalizedPostingMemo
  | absent
  | present
  deriving DecidableEq

structure FinalizedPostingProjection where
  posting : LedgerPosting
  direction : FinalizedPostingDirection
  guardKind : FinalizedPostingGuardKind
  comparisonGuard : Option ExprNode
  memo : Option String
  memoPresence : FinalizedPostingMemo
  groupIndex : Nat
  ordinal : UInt64

structure FinalizedEffectGroupProjection where
  group : BalancedEffectGroup
  postings : List LedgerPosting
  finalizedPostings : List FinalizedPostingProjection
  guard : GroupGuardProjection
  ordinal : Nat

structure FinalizedExecutionClaimInput where
  name : String
  type : String
  category : String
  ordinal : Nat
  deriving DecidableEq

structure FinalizedTemporalPolicyProjection where
  targetIdentifier : String
  ordinal : Nat
  deriving DecidableEq

structure FinalizedProjectionSequence where
  executionIdentity : ExecutionIdentity
  lifecycleRoles : List ProjectedLifecycleRole
  initialLifecycleRole : ProjectedLifecycleRole
  successLifecycleRole : ProjectedLifecycleRole
  claimInputs : List FinalizedExecutionClaimInput
  executionMode : ExecutionMode
  attestationKind : FinalizedAttestationKind
  attestation : AttestationProjection
  temporalPolicies : List FinalizedTemporalPolicyProjection
  values : TypedValueProjection
  effectGroups : List FinalizedEffectGroupProjection
  postings : List FinalizedPostingProjection
  balanceAssertions : List BalanceAssertion
  postingsSchemaKind : FinalizedPostingsSchemaKind

/-! The attestation. -/

section Attestation

variable (graph : BackendProjectionGraph)

def edgeTo (id name : String) : Except String String := do
  let edge ← sole "diag:AttestationProjection:edge-missing"
    "diag:AttestationProjection:edge-ambiguous" (graph.edgesFrom id name)
  return edge.to

def observerBinding (evidence : Option EvidenceAcceptance) (observer : Option Reference) :
    Except String (EvidenceAcceptance × Reference) :=
  match evidence, observer with
  | some evidence, some observer =>
      if observer.role = "observerSet" then .ok (evidence, observer)
      else .error "diag:AttestationProjection:binding-missing"
  | _, _ => .error "diag:AttestationProjection:binding-missing"

def attestationBinding (policyId : String) : Except String AttestationBinding :=
  match lastWith (·.id = policyId) graph.quorumPolicies with
  | none => .error "diag:AttestationProjection:policy-missing"
  | some policy => do
      let inputId ← edgeTo graph policy.id "inputRef"
      let observerId ← edgeTo graph policy.id "observerSetRef"
      let bound ← observerBinding (lastWith (·.id = inputId) graph.evidenceAcceptances)
        (lastWith (·.id = observerId) graph.references)
      return {
        policyId := policy.id
        inputBinding := bound.1.bindingValue
        observerSetBinding := bound.2.bindingValue
        threshold := policy.threshold
        canonicalization := policy.canonicalization
        timeout := policy.timeout
        fallback := policy.fallback
        evidenceStyle := bound.1.style
        evidenceChained := bound.1.chained
        admissibility := bound.1.admissibility
      }

def executionModeOf : List ProjectedLifecycleRole → Except String ExecutionMode
  | [] => .error "diag:AttestationProjection:execution-mode-missing"
  | first :: roles =>
      if ∀ role ∈ first :: roles, role.mode = first.mode then .ok first.mode
      else .error "diag:AttestationProjection:execution-mode-ambiguous"

def consumeAttestationProjection : Except String AttestationProjection := do
  let executionMode ← executionModeOf graph.projectedLifecycleRoles
  match graph.primitiveObligations with
  | [] =>
      require (graph.quorumPolicies = [] ∧ graph.evidenceAcceptances = [])
        "diag:AttestationProjection:primitive-missing"
      return { executionMode, finalizedKind := "", policies := [] }
  | [primitive] =>
      let policies ← collect (attestationBinding graph) primitive.typedOperands
      return { executionMode, finalizedKind := primitive.finalizedKind, policies }
  | _ => .error "diag:AttestationProjection:primitive-ambiguous"

end Attestation

/-! The guard of a group. -/

section GroupGuard

variable (text : JsonText) (graph : BackendProjectionGraph)

/-- The categories a comparison is typed under; a compute's replaces a parameter's. -/
def guardEnv : CategoryEnv :=
  graph.computeNodes.foldl
    (fun env compute => env.insert compute.bindingValue (categoryFromName compute.dtype))
    (graph.typedParams.foldl
      (fun env param => env.insert param.bindingValue (classifyValueType param.type)) ∅)

/-- The comparison a group spells, typed again and spelled back. -/
def reconstructComparison (group : BalancedEffectGroup) : Except String ExprNode :=
  match text.parseExpr group.comparisonGuardExpression with
  | none => .error "diag:GroupGuardProjection:comparison-expression-invalid"
  | some expression =>
      match typeGuard (guardEnv graph) expression with
      | .error _ => .error "diag:GroupGuardProjection:comparison-expression-invalid"
      | .ok typed =>
          if text.compactJson (exprToJson typed) = group.comparisonGuardExpression then .ok typed
          else .error "diag:GroupGuardProjection:comparison-expression-invalid"

def policyInputBinding (guard : GuardObligation) : Except String String := do
  let policyEdge ← sole "diag:GroupGuardProjection:policy-missing"
    "diag:GroupGuardProjection:policy-ambiguous" (graph.edgesFrom guard.id "policyRef")
  let attestation ← consumeAttestationProjection graph
  match attestation.policies.find? (·.policyId = policyEdge.to) with
  | some binding => .ok binding.inputBinding
  | none => .error "diag:GroupGuardProjection:policy-binding-missing"

def guardOf (group : BalancedEffectGroup) (guard : GuardObligation) :
    Except String GroupGuardProjection :=
  let out : GroupGuardProjection := {
    present := true
    guardKind := guard.guardKind
    conditionKind := guard.conditionKind
    applicationMode := guard.applicationMode
  }
  if guard.guardKind = "comparison" then do
    require (group.comparisonGuardExpression ≠ "")
      "diag:GroupGuardProjection:comparison-expression-missing"
    let expression ← reconstructComparison text graph group
    return { out with comparisonGuard := some expression }
  else do
    require (group.comparisonGuardExpression = "")
      "diag:GroupGuardProjection:comparison-expression-spurious"
    if guard.guardKind = "attested" then do
      let policyInputBinding ← policyInputBinding graph guard
      return { out with policyInputBinding }
    else return out

def groupGuard (group : BalancedEffectGroup) : Except String GroupGuardProjection :=
  match graph.edgesFrom group.id "guardRef" with
  | [] => do
      require (group.comparisonGuardExpression = "")
        "diag:GroupGuardProjection:comparison-expression-spurious"
      return {}
  | [guardEdge] =>
      match lastWith (·.id = guardEdge.to) graph.guardObligations with
      | none => .error "diag:GroupGuardProjection:guard-missing"
      | some guard => guardOf text graph group guard
  | _ => .error "diag:GroupGuardProjection:guard-ambiguous"

def consumeGroupGuardProjection (groupSourceRef : String) :
    Except String GroupGuardProjection := do
  let group ← sole "diag:GroupGuardProjection:group-missing"
    "diag:GroupGuardProjection:group-ambiguous"
    (graph.balancedEffectGroups.filter (·.sourceRef = groupSourceRef))
  groupGuard text graph group

end GroupGuard

/-! Typed values. -/

section TypedValues

variable (text : JsonText) (graph : BackendProjectionGraph)

/-- A machine integer as a size. -/
def asSize (value : Int32) : UInt64 := value.toInt64.toUInt64

def typedParamProjection (param : TypedParam) : TypedParamProjection where
  name := param.bindingValue
  type := param.type
  ordinal := asSize param.ordinal

def instanceKeyParam : List TypedParam → Except String (Option TypedParamProjection)
  | [] => .ok none
  | [param] => .ok (some (typedParamProjection param))
  | _ => .error "diag:TypedValueProjection:instance-key-ambiguous"

def computeProjection (compute : ComputeNode) : Except String ComputeProjection :=
  match text.parseExpr compute.expression with
  | none => .error "diag:TypedValueProjection:compute-expression-invalid"
  | some expression => .ok {
      name := compute.bindingValue
      dtype := compute.dtype
      expression
      ordinal := asSize compute.ordinal
    }

def memoValue (posting : LedgerPosting) : Except String String :=
  match graph.edgesFrom posting.id "memoRef" with
  | [] => .ok ""
  | [edge] =>
      match graph.typedOperands.find? (·.id = edge.to) with
      | some operand => .ok operand.value
      | none => .error "diag:TypedValueProjection:posting-operand-missing"
  | _ => .error "diag:TypedValueProjection:posting-edge-ambiguous"

def postingValue (posting : LedgerPosting) : Except String PostingValueProjection := do
  let memo ← memoValue graph posting
  return { effectIndex := posting.effectIndex, memo }

def consumeTypedValueProjection : Except String TypedValueProjection := do
  let params := sortOn (·.ordinal.toInt) graph.typedParams
  let instanceKeyParam ← instanceKeyParam (params.filter (·.isInstanceKey))
  let computes ← collect (computeProjection text) (sortOn (·.ordinal.toInt) graph.computeNodes)
  let postings ← collect (postingValue graph) (sortOn (·.effectIndex.toInt) graph.ledgerPostings)
  return { params := params.map typedParamProjection, instanceKeyParam, computes, postings }

end TypedValues

/-! The finalized sequence. -/

section FinalizedSequence

variable (text : JsonText) (graph : BackendProjectionGraph)

abbrev AnchoredRoles := Option ProjectedLifecycleRole × Option ProjectedLifecycleRole

def anchorRole (roles : AnchoredRoles) (role : ProjectedLifecycleRole) :
    Except String AnchoredRoles :=
  match role.role with
  | .initial =>
      if roles.1.isSome then .error "diag:FinalizedProjectionSequence:initial-role"
      else .ok (some role, roles.2)
  | .success =>
      if roles.2.isSome then .error "diag:FinalizedProjectionSequence:success-role"
      else .ok (roles.1, some role)
  | .acceptedOrAttested => .ok roles

def anchorRoles (roles : List ProjectedLifecycleRole) :
    Except String (ProjectedLifecycleRole × ProjectedLifecycleRole) := do
  match ← thread anchorRole (none, none) roles with
  | (some initialRole, some successRole) => return (initialRole, successRole)
  | _ => .error "diag:FinalizedProjectionSequence:lifecycle-roles"

def finalizedClaimInputs (inputs : List ExecutionClaimInput) :
    List FinalizedExecutionClaimInput :=
  (sortOn (·.name) inputs).zipIdx.map fun input => {
    name := input.1.name
    type := input.1.type
    category := categoryName (classifyValueType input.1.type)
    ordinal := input.2
  }

def attestationKindOf (attestation : AttestationProjection) :
    Except String FinalizedAttestationKind :=
  if attestation.finalizedKind = "" ∧ attestation.policies = [] then .ok .none
  else if attestation.finalizedKind = "QuorumAcceptance.Single" ∧
      attestation.policies.length = 1 then .ok .single
  else if attestation.finalizedKind = "QuorumAcceptance.PerPolicy" ∧
      attestation.policies ≠ [] then .ok .perPolicy
  else .error "diag:FinalizedProjectionSequence:attestation-shape"

def validRail : ExecutionMode → FinalizedAttestationKind → Bool
  | .evidence, kind => kind = .single
  | .temporal, kind => kind = .perPolicy
  | .effectful, kind => kind ≠ .perPolicy

def isAlpha (c : Char) : Bool := ('A' ≤ c ∧ c ≤ 'Z') ∨ ('a' ≤ c ∧ c ≤ 'z')

def isTargetIdentifier (value : String) : Bool :=
  match value.toList with
  | [] => false
  | front :: rest =>
      (isAlpha front || front = '_') &&
        rest.all fun c => isAlpha c || ('0' ≤ c ∧ c ≤ '9') || c = '_'

def temporalPolicies (attestation : AttestationProjection) :
    Except String (List FinalizedTemporalPolicyProjection) :=
  if attestation.executionMode = .temporal then do
    require (∀ policy ∈ attestation.policies, isTargetIdentifier policy.inputBinding)
      "diag:FinalizedProjectionSequence:temporal-policy-identifier"
    return attestation.policies.zipIdx.map fun policy => ⟨policy.1.inputBinding, policy.2⟩
  else .ok []

def postingDirection (posting : LedgerPosting) : Except String FinalizedPostingDirection :=
  if posting.direction = "debit" then .ok .debit
  else if posting.direction = "credit" then .ok .credit
  else .error "diag:FinalizedProjectionSequence:posting-direction"

def postingGuard (guard : GroupGuardProjection) :
    Except String (FinalizedPostingGuardKind × Option ExprNode) :=
  if guard.present ∧ guard.guardKind = "comparison" ∧ guard.comparisonGuard.isSome then
    .ok (.comparison, guard.comparisonGuard)
  else if guard.present ∧ guard.guardKind ≠ "attested" then
    .error "diag:FinalizedProjectionSequence:posting-guard"
  else .ok (.direct, none)

def finalizePosting (values : TypedValueProjection) (guard : GroupGuardProjection)
    (groupIndex : Nat) (posting : LedgerPosting) : Except String FinalizedPostingProjection := do
  let direction ← postingDirection posting
  match values.postings.find? (·.effectIndex = posting.effectIndex) with
  | none => .error "diag:FinalizedProjectionSequence:posting-value"
  | some value =>
      let guarded ← postingGuard guard
      return {
        posting
        direction
        guardKind := guarded.1
        comparisonGuard := guarded.2
        memo := if value.memo = "" then none else some value.memo
        memoPresence := if value.memo = "" then .absent else .present
        groupIndex
        ordinal := asSize posting.effectIndex
      }

/-- The postings a group's edges lead to, in effect order. -/
def groupPostings (group : BalancedEffectGroup) : List LedgerPosting :=
  sortOn (·.effectIndex.toInt) ((graph.edgesFrom group.id "effectRefs").flatMap fun edge =>
    graph.ledgerPostings.filter (·.id = edge.to))

def finalizeGroup (values : TypedValueProjection) (indexed : BalancedEffectGroup × Nat) :
    Except String FinalizedEffectGroupProjection := do
  let guard ← consumeGroupGuardProjection text graph indexed.1.sourceRef
  let postings := groupPostings graph indexed.1
  require (postings ≠ []) "diag:FinalizedProjectionSequence:empty-effect-group"
  let finalizedPostings ← collect (finalizePosting values guard indexed.2) postings
  return { group := indexed.1, postings, finalizedPostings, guard, ordinal := indexed.2 }

def finalizedGroups (values : TypedValueProjection) :
    Except String (List FinalizedEffectGroupProjection) :=
  collect (finalizeGroup text graph values)
    (sortOn (·.firstIndex.toInt) graph.balancedEffectGroups).zipIdx

/-- The postings of all groups, in effect order. -/
def flattenedPostings (groups : List FinalizedEffectGroupProjection) :
    List FinalizedPostingProjection :=
  sortOn (·.posting.effectIndex.toInt) (groups.flatMap (·.finalizedPostings))

def isTemporalSuppress (guard : GroupGuardProjection) : Bool :=
  guard.present && guard.guardKind = "attested" && guard.applicationMode = "temporal-suppress"

def checkFinalized (attestation : AttestationProjection)
    (groups : List FinalizedEffectGroupProjection) : Except String Unit := do
  require (attestation.executionMode = .evidence ∨ flattenedPostings groups ≠ [])
    "diag:FinalizedProjectionSequence:postings-missing"
  require (attestation.executionMode = .evidence →
      ∀ policy ∈ attestation.policies.head?, policy.evidenceStyle = "evidence-only")
    "diag:FinalizedProjectionSequence:evidence-style"
  require (attestation.executionMode = .temporal → ∀ group ∈ groups, isTemporalSuppress group.guard)
    "diag:FinalizedProjectionSequence:temporal-group-guard"

def consumeFinalizedProjectionSequence : Except String FinalizedProjectionSequence := do
  let executionIdentity ← sole "diag:FinalizedProjectionSequence:execution-identity"
    "diag:FinalizedProjectionSequence:execution-identity" graph.executionIdentities
  let roles ← anchorRoles graph.projectedLifecycleRoles
  let attestation ← consumeAttestationProjection graph
  let attestationKind ← attestationKindOf attestation
  require (validRail attestation.executionMode attestationKind)
    "diag:FinalizedProjectionSequence:execution-rail"
  require (∀ policy ∈ attestation.policies, policy.canonicalization = "exact")
    "diag:FinalizedProjectionSequence:canonicalization-unsupported"
  let temporalPolicies ← temporalPolicies attestation
  let values ← consumeTypedValueProjection text graph
  let effectGroups ← finalizedGroups text graph values
  checkFinalized attestation effectGroups
  return {
    executionIdentity
    lifecycleRoles := graph.projectedLifecycleRoles
    initialLifecycleRole := roles.1
    successLifecycleRole := roles.2
    claimInputs := finalizedClaimInputs executionIdentity.claimInputs
    executionMode := attestation.executionMode
    attestationKind
    attestation
    temporalPolicies
    values
    effectGroups
    postings := flattenedPostings effectGroups
    balanceAssertions := graph.balanceAssertions
    postingsSchemaKind :=
      if values.postings.any (·.memo ≠ "") then .withMemo else .plain
  }

end FinalizedSequence

end Neutrino.Projection
