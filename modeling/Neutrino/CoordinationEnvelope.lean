import Mathlib
import Neutrino.CoordinationPlan
import Neutrino.Library.Framing

/-! The identity of a coordination and the execution claim of one invocation: hashes of
length-framed fields under two domains. The hash itself is a parameter. -/

namespace Neutrino

structure ExecutionInput where
  name : String
  category : String
  value : String
  deriving DecidableEq, Repr

def kCoordinationEnvelopeDomain : String := "neutrino.coordination-envelope.v1"

def kCoordinationIdentityDomain : String := "neutrino.coordination-identity.v1"

def utf8 (text : String) : List UInt8 := text.toByteArray.data.toList

theorem utf8_injective : Function.Injective utf8 := by
  intro left right same
  apply String.toByteArray_inj.mp
  exact ByteArray.ext (Array.toList_inj.mp same)

def framed (fields : List String) : List UInt8 := Framing.frames (fields.map utf8)

def flagField (flag : Bool) : String := if flag then "1" else "0"

def exprKindTag : ExprNode → String
  | .num _ _ => "num"
  | .var _ _ => "var"
  | .bin _ _ _ _ => "bin"
  | .call _ _ _ => "call"
  | .cmp _ _ _ _ => "cmp"

/-- The operator byte of a node that has no binary operator. -/
def noOperator : String := (Char.ofNat 0).toString

mutual

/-- Kind, literal, name, operator, category, both children, then the arguments. The field of
an absent child is empty: its one zero byte ends the string it is written as. -/
def exprFields : ExprNode → List String
  | .num value dtype =>
      ["num", toString value, "", noOperator, categoryName dtype, "", "", "0"]
  | .var name dtype => ["var", "0", name, noOperator, categoryName dtype, "", "", "0"]
  | .bin op lhs rhs dtype =>
      ["bin", "0", "", op.toString, categoryName dtype] ++ exprFields lhs ++
        exprFields rhs ++ ["0"]
  | .cmp op lhs rhs dtype =>
      ["cmp", "0", op, noOperator, categoryName dtype] ++ exprFields lhs ++
        exprFields rhs ++ ["0"]
  | .call name args dtype =>
      ["call", "0", name, noOperator, categoryName dtype, "", "", toString args.length] ++
        argumentFields args

def argumentFields : List ExprNode → List String
  | [] => []
  | arg :: rest => exprFields arg ++ argumentFields rest

end

def optionalExprFields : Option ExprNode → List String
  | none => [""]
  | some node => exprFields node

def countedFields (fields : List String) : List String := toString fields.length :: fields

def computeFields (compute : PlanCompute) : List String :=
  [compute.name, compute.category] ++ countedFields compute.deps ++
    optionalExprFields compute.expr

def effectFields (effect : PlanEffect) : List String :=
  [effect.name, effect.kind, effect.ledger, effect.party, effect.amount, effect.currency,
    effect.guardKey, effect.attestationInput] ++ optionalExprFields effect.guard

def groupFields (group : PlanEffectGroup) : List String :=
  [group.guardKey, group.attestationInput, flagField group.mustBalance,
    toString group.debitCount, toString group.creditCount]

def policyFields (policy : AttestationPolicy) : List String :=
  [policy.input, toString policy.quorum, policy.observerSet, policy.observerRole,
    policy.canonicalization, policy.tolerance, policy.timeout, policy.fallback,
    policy.assurance, policy.independence]

def obligationFields (obligation : PlanObligation) : List String :=
  [toString obligation.version, obligation.name, obligation.obligor, obligation.beneficiary,
    obligation.authority, obligation.guardKey] ++ exprFields obligation.when ++
    countedFields obligation.effects ++ countedFields obligation.statuses

/-- A plan without obligations has no obligation block at all. -/
def obligationBlock (obligations : List PlanObligation) : List String :=
  if obligations.isEmpty then []
  else toString obligations.length :: obligations.flatMap obligationFields

def identityFields (plan : CoordinationPlan) : List String :=
  [kCoordinationIdentityDomain, plan.procedure, plan.workflowKey, plan.explicitInstanceKey,
    flagField plan.evidenceOnly, flagField plan.balanced, plan.replay.key,
    flagField plan.replay.idempotent, plan.terminal.success, plan.terminal.aborted,
    plan.terminal.contested] ++
  toString plan.inputs.length :: plan.inputs.flatMap (fun input => [input.name, input.type]) ++
  toString plan.computes.length :: plan.computes.flatMap computeFields ++
  toString plan.effects.length :: plan.effects.flatMap effectFields ++
  toString plan.effectGroups.length :: plan.effectGroups.flatMap groupFields ++
  toString plan.attestations.length :: plan.attestations.flatMap policyFields ++
  obligationBlock plan.obligations

/-- The order of the claim's inputs: by name, then category, then value. -/
def inputPrecedes (a b : ExecutionInput) : Bool :=
  a.name < b.name || a.name = b.name && (a.category < b.category ||
    a.category = b.category && decide (a.value ≤ b.value))

def claimFields (coordinationIdentity workflowKey : String)
    (canonicalInputs : List ExecutionInput) : List String :=
  let sorted := canonicalInputs.insertionSort fun a b => inputPrecedes a b
  [kCoordinationEnvelopeDomain, coordinationIdentity, workflowKey,
    toString sorted.length] ++
    sorted.flatMap fun input => [input.name, input.category, input.value]

section Hash

variable (sha256Hex : List UInt8 → String)

def coordinationIdentityHash (plan : CoordinationPlan) : String :=
  sha256Hex (framed (identityFields plan))

def executionClaimHash (coordinationIdentity workflowKey : String)
    (canonicalInputs : List ExecutionInput) : String :=
  sha256Hex (framed (claimFields coordinationIdentity workflowKey canonicalInputs))

end Hash

end Neutrino
