import Mathlib
import Neutrino.Attestation
import Neutrino.Expr
import Neutrino.Library.Checked

/-! The normalized coordination plan and the one seam, `assemblePlan`, that builds and
verifies it from the raw inputs either builder gathers. -/

namespace Neutrino

open Checked

def kMaxCanonicalAuthorizationParticipants : Nat := 8

def kObligationPlanVersion : Int := 1

/-- How an attestation policy gates an effect: not at all, by refusing the whole
transition, or by suppressing only the policy's own legs. -/
inductive PlanGateMode
  | none
  | atomicRefuse
  | temporalSuppress
  deriving DecidableEq, Repr

structure PlanEffect where
  index : Nat
  name : String
  kind : String
  participant : String
  canonicalGuard : String
  guardKey : String
  attestationInput : String
  gateMode : PlanGateMode
  gatePolicy : String
  ledger : String
  party : String
  amount : String
  currency : String
  memo : String
  guard : Option ExprNode

structure PlanEffectGroup where
  canonicalGuard : String
  guardKey : String
  attestationInput : String
  gateMode : PlanGateMode
  gatePolicy : String
  effectIndices : List Nat
  firstIndex : Nat
  mustBalance : Bool
  debitCount : Nat
  creditCount : Nat
  deriving DecidableEq, Repr

structure PlanCompute where
  name : String
  category : String
  deps : List String
  expr : Option ExprNode

structure PlanObligation where
  version : Int
  name : String
  obligor : String
  beneficiary : String
  authority : String
  canonicalGuard : String
  guardKey : String
  when : ExprNode
  effects : List String
  statuses : List String

structure ReplayObligation where
  key : String
  idempotent : Bool
  deriving DecidableEq, Inhabited, Repr

structure TerminalProjection where
  success : String
  aborted : String
  contested : String
  deriving DecidableEq, Inhabited, Repr

structure LifecycleTransitionGuardPolicy where
  kind : String
  detail : String
  deriving DecidableEq, Repr

structure LifecycleTransitionEvidencePolicy where
  style : String
  chained : Bool
  deriving DecidableEq, Repr

structure LifecycleTransitionPolicy where
  name : String
  «from» : String
  «to» : String
  effects : List String
  guards : List LifecycleTransitionGuardPolicy
  idempotency : String
  evidence : Option LifecycleTransitionEvidencePolicy
  deriving DecidableEq, Repr

structure PlanInput where
  name : String
  type : String
  deriving DecidableEq, Repr

structure PlanParticipant where
  name : String
  role : String
  org : String
  deriving DecidableEq, Repr

structure PlanOrgPolicy where
  orgA : String
  orgB : String
  roleA : String
  roleB : String
  deriving DecidableEq, Repr

structure CoordinationPlan where
  procedure : String
  invokedEvent : String
  inputs : List PlanInput
  participants : List PlanParticipant
  allowedOrgPairs : List PlanOrgPolicy
  workflowKey : String
  explicitInstanceKey : String
  evidenceOnly : Bool
  balanced : Bool
  effects : List PlanEffect
  effectGroups : List PlanEffectGroup
  computes : List PlanCompute
  attestations : List AttestationPolicy
  replay : ReplayObligation
  terminal : TerminalProjection
  lifecycleInitialState : String
  lifecycleStates : List String
  lifecycleTransitions : List LifecycleTransitionPolicy
  obligations : List PlanObligation
  deriving Inhabited

structure PlanEffectInput where
  name : String
  kind : String
  participant : String
  idempotencyKind : String
  idempotencyValue : String
  canonicalGuard : String
  guardAcceptedInput : String
  amount : String
  currency : String
  ledger : String
  party : String
  memo : String
  guard : Option ExprNode

structure PlanObligationInput where
  version : Int
  name : String
  obligor : String
  beneficiary : String
  authority : String
  canonicalGuard : String
  when : Option ExprNode
  effects : List String

/-- What a builder gathers before normalization. -/
structure PlanInputs where
  procedure : String
  invokedEvent : String
  inputs : List PlanInput
  participants : List PlanParticipant
  allowedOrgPairs : List PlanOrgPolicy
  effects : List PlanEffectInput
  computes : List PlanCompute
  attestations : List AttestationPolicy
  balanced : Bool
  terminal : TerminalProjection
  lifecycleInitialState : String
  lifecycleStates : List String
  lifecycleTransitions : List LifecycleTransitionPolicy
  obligations : List PlanObligationInput
  explicitInstanceKey : String

/-- The statuses an obligation of a representation version ranges over. -/
def obligationStatusVocabulary (version : Int) : List String :=
  if version = kObligationPlanVersion then ["eligible", "fired", "refused"] else []

def planErrorText (message : String) : String := "coordination plan: " ++ message

def planError {α : Type} (message : String) : Except String α :=
  .error (planErrorText message)

/-- A check of the plan, with the message it fails with. -/
def requirePlan (condition : Prop) [Decidable condition] (message : String) :
    Except String Unit :=
  require condition (planErrorText message)

def isInstanceKeyType (type : String) : Bool := classifyValueType type = .string

def isDeclaredPolicy (policies : List AttestationPolicy) (input : String) : Bool :=
  policies.any fun policy => policy.input = input

def isLifecycleEffect (effect : String) : Bool :=
  effect = "post" || effect = "compensate" || effect = "reserve" || effect = "consume" ||
    effect = "release"

def isLifecycleGuardKind (kind : String) : Bool :=
  kind = "participant" || kind = "deadline" || kind = "sequence"

def isLifecycleEvidenceStyle (style : String) : Bool :=
  style = "single_hash" || style = "batched_root"

mutual

/-- The structural key of a predicate: operators, operand order and shape, unfolded. -/
def structuralKey : ExprNode → String
  | .num value _ => "#" ++ toString value
  | .var name _ => "$" ++ name
  | .bin op lhs rhs _ =>
      "(" ++ op.toString ++ " " ++ structuralKey lhs ++ " " ++ structuralKey rhs ++ ")"
  | .cmp op lhs rhs _ =>
      "(" ++ op ++ " " ++ structuralKey lhs ++ " " ++ structuralKey rhs ++ ")"
  | .call name args _ => "(" ++ name ++ argumentKeys args ++ ")"

def argumentKeys : List ExprNode → String
  | [] => ""
  | arg :: rest => " " ++ structuralKey arg ++ argumentKeys rest

end

def canonicalGuardKey : Option ExprNode → String
  | none => ""
  | some guard => structuralKey guard

/-! Authorization actors and topology. -/

def checkParticipants (names : List String) (actors : List (String × String)) :
    List PlanParticipant → Except String Unit
  | [] => .ok ()
  | participant :: rest => do
      requirePlan (participant.name ≠ "") "authorization participant has an empty identity"
      requirePlan (participant.name ∉ names)
        ("duplicate authorization participant '" ++ participant.name ++ "'")
      requirePlan (participant.org = "" ∨ (participant.org, participant.role) ∉ actors)
        ("ambiguous authorization identity for organization '" ++ participant.org ++
          "' and role '" ++ participant.role ++ "'")
      checkParticipants (participant.name :: names)
        (if participant.org = "" then actors
          else (participant.org, participant.role) :: actors) rest

abbrev Endpoint := String × String

/-- The edge's endpoints in ascending order, so that its direction does not matter. -/
def orderedEdge (edge : PlanOrgPolicy) : Endpoint × Endpoint :=
  let a := (edge.orgA, edge.roleA)
  let b := (edge.orgB, edge.roleB)
  if b.1 < a.1 ∨ b.1 = a.1 ∧ b.2 < a.2 then (b, a) else (a, b)

def checkTopology (participants : List PlanParticipant) (edges : List (Endpoint × Endpoint)) :
    List PlanOrgPolicy → Except String Unit
  | [] => .ok ()
  | edge :: rest => do
      requirePlan (edge.orgA ≠ "" ∧ edge.orgB ≠ "")
        "allowed organization edge has an empty endpoint"
      requirePlan (participants.any fun participant => participant.org = edge.orgA)
        ("allowed organization edge endpoint '" ++ edge.orgA ++
          "' does not resolve to a declared authorization actor")
      requirePlan (participants.any fun participant => participant.org = edge.orgB)
        ("allowed organization edge endpoint '" ++ edge.orgB ++
          "' does not resolve to a declared authorization actor")
      requirePlan (orderedEdge edge ∉ edges)
        ("duplicate allowed organization edge between '" ++ edge.orgA ++ "' and '" ++
          edge.orgB ++ "'")
      checkTopology participants (orderedEdge edge :: edges) rest

/-! The workflow key: the declared instance key when there is one, else the input every
effect keys on. -/

def checkInstanceKey (workflowKey : String) (effect : PlanEffectInput × Nat) :
    Except String Unit :=
  requirePlan
    (effect.1.idempotencyKind = "ref" ∧ effect.1.idempotencyValue = workflowKey)
    ("ambiguous instance key — effect " ++ toString effect.2 ++
      " does not key on the declared instance key '" ++ workflowKey ++ "' (effect key: " ++
      (if effect.1.idempotencyKind = "ref" then "ref '" ++ effect.1.idempotencyValue ++ "'"
        else "literal") ++ ")")

def effectWorkflowKey (workflowKey : String) (effect : PlanEffectInput × Nat) :
    Except String String := do
  requirePlan (effect.1.idempotencyKind = "ref" ∧ effect.1.idempotencyValue ≠ "")
    ("effect " ++ toString effect.2 ++ " idempotencyKey must reference an input (kind='" ++
      effect.1.idempotencyKind ++ "')")
  requirePlan (workflowKey = "" ∨ workflowKey = effect.1.idempotencyValue)
    ("ambiguous workflow key — effect " ++ toString effect.2 ++ " keys on '" ++
      effect.1.idempotencyValue ++ "' but earlier effects key on '" ++ workflowKey ++ "'")
  return effect.1.idempotencyValue

def resolveWorkflowKey (raw : PlanInputs) : Except String String :=
  if raw.explicitInstanceKey ≠ "" then
    match raw.inputs.find? (·.name = raw.explicitInstanceKey) with
    | none => planError ("instance key '" ++ raw.explicitInstanceKey ++
        "' names no declared input")
    | some input => do
        requirePlan (isInstanceKeyType input.type) ("instance key '" ++
          raw.explicitInstanceKey ++ "' has non-string type '" ++ input.type ++ "'")
        each (checkInstanceKey raw.explicitInstanceKey) raw.effects.zipIdx
        return raw.explicitInstanceKey
  else thread effectWorkflowKey "" raw.effects.zipIdx

/-- An effectless plan is a coordination only as an evidence acceptance. -/
def checkEffectless (raw : PlanInputs) : Except String Unit :=
  if raw.effects = [] ∧ raw.attestations ≠ [] then do
    requirePlan (raw.explicitInstanceKey ≠ "")
      "evidence-only coordination requires an explicit instance key"
    requirePlan (raw.terminal.success ≠ "")
      "evidence-only coordination requires a success terminal"
  else
    requirePlan (raw.effects ≠ [] ∨ raw.explicitInstanceKey = "")
      "an effectless coordination must declare an attestation/evidence acceptance action"

/-! Each effect and the policy that gates it. -/

/-- The gate of one effect: its `attestationInput`, mode and policy. An `accepted` guard
suppresses the leg; without one a sole declared policy refuses the transition. -/
def bindGate (raw : PlanInputs) (effect : PlanEffectInput) : String × PlanGateMode × String :=
  if effect.guardAcceptedInput ≠ "" then ("", .temporalSuppress, effect.guardAcceptedInput)
  else
    match raw.attestations with
    | [policy] => (policy.input, .atomicRefuse, policy.input)
    | _ => ("", .none, "")

def bindEffect (raw : PlanInputs) (effect : PlanEffectInput × Nat) :
    Except String PlanEffect := do
  let label := "effect " ++ toString effect.2 ++ " (" ++ effect.1.name ++ ")"
  requirePlan (raw.participants = [] ∨ effect.1.participant ≠ "")
    (label ++ " is missing its authorization participant")
  requirePlan (effect.1.participant = "" ∨
      raw.participants.any fun participant => participant.name = effect.1.participant)
    (label ++ " references undeclared authorization participant '" ++
      effect.1.participant ++ "'")
  requirePlan (effect.1.guardAcceptedInput = "" ∨
      isDeclaredPolicy raw.attestations effect.1.guardAcceptedInput)
    (label ++ " gates on undeclared attestation policy '" ++
      effect.1.guardAcceptedInput ++ "'")
  let gate := bindGate raw effect.1
  return {
    index := effect.2
    name := effect.1.name
    kind := effect.1.kind
    participant := effect.1.participant
    canonicalGuard := effect.1.canonicalGuard
    guardKey := canonicalGuardKey effect.1.guard
    attestationInput := gate.1
    gateMode := gate.2.1
    gatePolicy := gate.2.2
    ledger := effect.1.ledger
    party := effect.1.party
    amount := effect.1.amount
    currency := effect.1.currency
    memo := effect.1.memo
    guard := effect.1.guard }

/-- The policies some `accepted` guard binds. -/
def acceptedBound (effects : List PlanEffect) : List String :=
  (effects.filter (·.gateMode = .temporalSuppress)).map (·.gatePolicy)

/-- Once one effect is gated per policy, every declared policy gates an effect and every
effect has such a gate. -/
def checkPolicyBinding (attestations : List AttestationPolicy) (effects : List PlanEffect) :
    Except String Unit :=
  if acceptedBound effects = [] then .ok ()
  else do
    each (fun (policy : AttestationPolicy) =>
      requirePlan (policy.input ∈ acceptedBound effects)
        ("[attest.policy.unbound] attestation policy '" ++ policy.input ++
          "' is declared but no effect gates on accepted(" ++ policy.input ++
          ") — a per-policy coordination must bind every declared quorum")) attestations
    each (fun (effect : PlanEffect) =>
      requirePlan (effect.gateMode = .temporalSuppress)
        ("[attest.temporal.mixed] effect '" ++ effect.name ++ "' is not gated on an " ++
          "accepted() policy, but the coordination has accepted() groups — a temporal " ++
          "per-policy coordination must gate every effect on accepted(); mixing " ++
          "per-policy and ordinary/unconditional effects is unsupported")) effects

/-! The partition of the effects by guard, and its balance. -/

def openGroup (balanced : Bool) (effect : PlanEffect) : PlanEffectGroup where
  canonicalGuard := effect.canonicalGuard
  guardKey := effect.guardKey
  attestationInput := effect.attestationInput
  gateMode := effect.gateMode
  gatePolicy := effect.gatePolicy
  effectIndices := []
  firstIndex := effect.index
  mustBalance := balanced
  debitCount := 0
  creditCount := 0

def joinGroup (group : PlanEffectGroup) (effect : PlanEffect) :
    Except String PlanEffectGroup := do
  requirePlan (group.attestationInput = effect.attestationInput)
    ("inconsistent guard group '" ++ effect.canonicalGuard ++ "' — effect '" ++
      effect.name ++ "' binds policy '" ++ effect.attestationInput ++
      "' but the group binds '" ++ group.attestationInput ++ "'")
  return { group with
    effectIndices := group.effectIndices ++ [effect.index]
    debitCount := group.debitCount + (if effect.kind = "debit" then 1 else 0)
    creditCount := group.creditCount + (if effect.kind = "credit" then 1 else 0) }

/-- The effect joins the group that has its key, or opens one at the end. -/
def addToGroups (balanced : Bool) (effect : PlanEffect) :
    List PlanEffectGroup → Except String (List PlanEffectGroup)
  | [] => do
      let group ← joinGroup (openGroup balanced effect) effect
      return [group]
  | group :: rest =>
      if group.guardKey = effect.guardKey then do
        let joined ← joinGroup group effect
        return joined :: rest
      else do
        let others ← addToGroups balanced effect rest
        return group :: others

def partitionEffects (balanced : Bool) (effects : List PlanEffect) :
    Except String (List PlanEffectGroup) :=
  thread (fun groups effect => addToGroups balanced effect groups) [] effects

/-- The (amount, currency) identities a group's legs of one side move. -/
def movedValues (effects : List PlanEffectInput) (indices : List Nat) (debit : Bool) :
    Multiset (String × String) :=
  ((indices.filterMap fun index => effects[index]?).filter fun effect =>
    (effect.kind == "debit") == debit).map fun effect => (effect.amount, effect.currency)

def checkBalance (effects : List PlanEffectInput) (group : PlanEffectGroup) :
    Except String Unit :=
  requirePlan (group.mustBalance = false ∨
      movedValues effects group.effectIndices true =
        movedValues effects group.effectIndices false)
    ("unbalanced guard group '" ++ group.canonicalGuard ++ "' — the debited " ++
      "(amount, currency) multiset does not equal the credited one; the group does not " ++
      "provably conserve value")

/-! The lifecycle vocabulary. -/

def checkTerminal (states : List String) (terminal : String × String) : Except String Unit :=
  requirePlan (terminal.2 = "" ∨ terminal.2 ∈ states)
    ("[spec.bad_transition] lifecycle " ++ terminal.1 ++ " terminal state '" ++ terminal.2 ++
      "' is undeclared")

def checkTransitionGuard (transition : String) (guard : LifecycleTransitionGuardPolicy) :
    Except String Unit := do
  requirePlan (guard.kind ≠ "")
    ("[spec.transition_guard] lifecycle transition '" ++ transition ++
      "' guard is missing kind")
  requirePlan (isLifecycleGuardKind guard.kind)
    ("[spec.transition_guard] lifecycle transition '" ++ transition ++
      "' declares unsupported guard kind '" ++ guard.kind ++ "'")

def checkEvidence (transition : String) :
    Option LifecycleTransitionEvidencePolicy → Except String Unit
  | none => .ok ()
  | some evidence =>
      requirePlan (isLifecycleEvidenceStyle evidence.style)
        ("[spec.transition_evidence] lifecycle transition '" ++ transition ++
          "' declares unsupported evidence style '" ++ evidence.style ++ "'")

def checkTransition (states : List String) (transition : LifecycleTransitionPolicy) :
    Except String Unit := do
  requirePlan (transition.name ≠ "" ∧ transition.from ≠ "" ∧ transition.«to» ≠ "")
    "[spec.bad_transition] lifecycle transition must declare non-empty name/from/to"
  requirePlan (transition.idempotency = "reject" ∨
      transition.idempotency = "noop_on_identical")
    ("[spec.transition_idempotency] lifecycle transition '" ++ transition.name ++
      "' declares unsupported idempotency '" ++ transition.idempotency ++ "'")
  each (fun effect => requirePlan (isLifecycleEffect effect)
    ("[spec.transition_effect] lifecycle transition '" ++ transition.name ++
      "' declares unsupported effect '" ++ effect ++ "'")) transition.effects
  each (checkTransitionGuard transition.name) transition.guards
  checkEvidence transition.name transition.evidence
  requirePlan (transition.from ∈ states)
    ("[spec.bad_transition] lifecycle transition '" ++ transition.name ++
      "' has undeclared from state '" ++ transition.from ++ "'")
  requirePlan (transition.«to» ∈ states)
    ("[spec.bad_transition] lifecycle transition '" ++ transition.name ++
      "' has undeclared to state '" ++ transition.«to» ++ "'")

def checkLifecycle (raw : PlanInputs) : Except String Unit := do
  requirePlan raw.lifecycleStates.Nodup
    "[spec.bad_transition] lifecycle states must be unique"
  requirePlan (raw.lifecycleTransitions = [] ∨ raw.lifecycleStates ≠ [])
    "[spec.bad_transition] lifecycle transitions require a non-empty lifecycle states set"
  requirePlan (raw.lifecycleTransitions = [] ∨ raw.lifecycleInitialState ≠ "")
    "[spec.bad_transition] lifecycle initial state is missing"
  requirePlan (raw.lifecycleInitialState = "" ∨
      raw.lifecycleInitialState ∈ raw.lifecycleStates)
    ("[spec.bad_transition] lifecycle initial state '" ++ raw.lifecycleInitialState ++
      "' is undeclared")
  each (checkTerminal raw.lifecycleStates)
    [("success", raw.terminal.success), ("aborted", raw.terminal.aborted),
      ("contested", raw.terminal.contested)]
  each (checkTransition raw.lifecycleStates) raw.lifecycleTransitions

/-! Obligations, resolved against the participants and the effects. -/

/-- The effect a name resolves to: of several with one name, the last. -/
def namedEffect (effects : List PlanEffect) (name : String) : Option PlanEffect :=
  effects.reverse.find? (·.name = name)

/-- The position of the last authorized effect checked, and the names checked so far. -/
abbrev AuthorizedSoFar := Option Nat × List String

/-- One authorized effect: named once, declared, gated by exactly the obligation's
predicate, and after the ones before it in the order that runs. -/
def authorizeEffect (effects : List PlanEffect) (obligation guardKey : String)
    (soFar : AuthorizedSoFar) (name : String) : Except String AuthorizedSoFar := do
  requirePlan (name ∉ soFar.2)
    ("[kernel.obligation.duplicate_effect] obligation '" ++ obligation ++
      "' declares effect '" ++ name ++ "' more than once")
  match namedEffect effects name with
  | none => planError ("[kernel.obligation.not_an_effect] obligation '" ++ obligation ++
      "' effect '" ++ name ++ "' does not resolve to a declared value effect")
  | some effect => do
      requirePlan (effect.guardKey = guardKey)
        ("obligation '" ++ obligation ++ "' predicate does not match the guard of " ++
          "authorized effect '" ++ name ++ "' (effect guardKey '" ++ effect.guardKey ++
          "' != obligation guardKey '" ++ guardKey ++
          "') — the obligation would not gate this effect")
      requirePlan (∀ last ∈ soFar.1, last < effect.index)
        ("obligation '" ++ obligation ++ "' authorizes effect '" ++ name ++
          "' out of executable coordination-plan order (the authorized order is not " ++
          "the order that runs)")
      return (some effect.index, name :: soFar.2)

def checkScope (participants : List PlanParticipant) (obligation : String)
    (scope : String × String) : Except String Unit :=
  requirePlan (scope.2 ≠ "" ∧
      participants.any fun participant => participant.name = scope.2)
    ("[kernel.obligation.scope] obligation '" ++ obligation ++ "' " ++ scope.1 ++ " '" ++
      scope.2 ++ "' does not resolve to a declared participant")

def resolveObligation (participants : List PlanParticipant) (effects : List PlanEffect)
    (names : List String) (raw : PlanObligationInput) : Except String PlanObligation := do
  requirePlan (raw.version = kObligationPlanVersion)
    ("obligation '" ++ raw.name ++ "' declares unknown version " ++ toString raw.version ++
      " (expected " ++ toString kObligationPlanVersion ++ ")")
  requirePlan (raw.name ≠ "")
    "[kernel.obligation.identity] obligation declares an empty identity"
  requirePlan (raw.name ∉ names)
    ("[kernel.obligation.identity] duplicate obligation '" ++ raw.name ++ "'")
  requirePlan (raw.obligor ≠ "" ∧
      participants.any fun participant => participant.name = raw.obligor)
    ("[kernel.obligation.obligor] obligation '" ++ raw.name ++ "' obligor '" ++
      raw.obligor ++ "' does not resolve to a declared participant")
  each (checkScope participants raw.name)
    [("beneficiary", raw.beneficiary), ("authority", raw.authority)]
  let missing := "[kernel.obligation.predicate] obligation '" ++ raw.name ++
    "' is missing its activation predicate"
  match raw.when with
  | none => planError missing
  | some predicate => do
      requirePlan (raw.canonicalGuard ≠ "") missing
      requirePlan (raw.effects ≠ [])
        ("[kernel.obligation.effects_empty] obligation '" ++ raw.name ++
          "' authorizes no value effects")
      let guardKey := structuralKey predicate
      let _ ← thread (authorizeEffect effects raw.name guardKey) (none, []) raw.effects
      return {
        version := raw.version
        name := raw.name
        obligor := raw.obligor
        beneficiary := raw.beneficiary
        authority := raw.authority
        canonicalGuard := raw.canonicalGuard
        guardKey
        when := predicate
        effects := raw.effects
        statuses := obligationStatusVocabulary raw.version }

def resolveObligations (participants : List PlanParticipant) (effects : List PlanEffect)
    (names : List String) : List PlanObligationInput → Except String (List PlanObligation)
  | [] => .ok []
  | raw :: rest => do
      let obligation ← resolveObligation participants effects names raw
      let others ← resolveObligations participants effects (raw.name :: names) rest
      return obligation :: others

def assemblePlan (raw : PlanInputs) : Except String CoordinationPlan := do
  requirePlan (raw.participants.length ≤ kMaxCanonicalAuthorizationParticipants)
    ("authorization participant count " ++ toString raw.participants.length ++
      " exceeds canonical topology limit " ++
      toString kMaxCanonicalAuthorizationParticipants)
  checkParticipants [] [] raw.participants
  checkTopology raw.participants [] raw.allowedOrgPairs
  let workflowKey ← resolveWorkflowKey raw
  checkEffectless raw
  let effects ← collect (bindEffect raw) raw.effects.zipIdx
  checkPolicyBinding raw.attestations effects
  let effectGroups ← partitionEffects raw.balanced effects
  each (checkBalance raw.effects) effectGroups
  checkLifecycle raw
  let obligations ← resolveObligations raw.participants effects [] raw.obligations
  return {
    procedure := raw.procedure
    invokedEvent := raw.invokedEvent
    inputs := raw.inputs
    participants := raw.participants
    allowedOrgPairs := raw.allowedOrgPairs
    workflowKey
    explicitInstanceKey := raw.explicitInstanceKey
    evidenceOnly := raw.effects.isEmpty && !raw.attestations.isEmpty
    balanced := raw.balanced
    effects
    effectGroups
    computes := raw.computes
    attestations := raw.attestations
    replay := { key := workflowKey, idempotent := true }
    terminal := raw.terminal
    lifecycleInitialState := raw.lifecycleInitialState
    lifecycleStates := raw.lifecycleStates
    lifecycleTransitions := raw.lifecycleTransitions
    obligations }

end Neutrino
