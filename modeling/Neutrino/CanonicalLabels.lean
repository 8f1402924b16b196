import Mathlib
import Neutrino.CoordinationPlan
import Neutrino.Library.SortOn

/-! Canonical labels: every name of a plan stands for the order in which a fixed walk of the plan
first refers to it. -/

namespace Neutrino

open SortOn

structure SemanticLabels where
  inputOrder : List String := []
  computeOrder : List String := []
  ledgerOrder : List String := []
  observerSetOrder : List String := []
  observerRoleOrder : List String := []

/-- A reference the walk meets, by the kind of name it labels. -/
inductive LabelRef
  | value (name : String)
  | ledger (name : String)
  | observerSet (name : String)
  | observerRole (name : String)

/-- A name's number: its position, which for a new name is the next one. -/
def label (order : List String) (name : String) : String := toString (order.idxOf name)

/-- The order once a name has been referred to. -/
def noteName (order : List String) (name : String) : List String :=
  if name ∈ order then order else order ++ [name]

/-- The payload of an operand identity of kind `ref`. -/
def refPayload (encoded : String) : Option String :=
  match encoded.toList.span (· ≠ ':') with
  | (_, []) => none
  | (kind, _ :: payload) =>
      if String.ofList kind = "ref" then some (String.ofList payload) else none

namespace SemanticLabels

variable (plan : CoordinationPlan) (labels : SemanticLabels)

/-- The text of a value's label. -/
def value (name : String) : String :=
  if name = "" then ""
  else if name ∈ plan.inputs.map (·.name) then "input:" ++ label labels.inputOrder name
  else if name ∈ plan.computes.map (·.name) then "compute:" ++ label labels.computeOrder name
  else "unresolved:" ++ name

def operand (encoded : String) : String :=
  match refPayload encoded with
  | some payload => "ref:" ++ labels.value plan payload
  | none => encoded

def ledger (name : String) : String := label labels.ledgerOrder name

def observerSet (name : String) : String := label labels.observerSetOrder name

/-- The labels once a reference has been met. -/
def note : LabelRef → SemanticLabels
  | .value name =>
      if name = "" then labels
      else if name ∈ plan.inputs.map (·.name) then
        { labels with inputOrder := noteName labels.inputOrder name }
      else if name ∈ plan.computes.map (·.name) then
        { labels with computeOrder := noteName labels.computeOrder name }
      else labels
  | .ledger name => { labels with ledgerOrder := noteName labels.ledgerOrder name }
  | .observerSet name =>
      { labels with observerSetOrder := noteName labels.observerSetOrder name }
  | .observerRole name =>
      if name = "" then labels
      else { labels with observerRoleOrder := noteName labels.observerRoleOrder name }

def noteAll (refs : List LabelRef) : SemanticLabels := refs.foldl (note plan) labels

/-- The values no walk referred to: inputs by type and name, then computes. -/
def completeValues : SemanticLabels :=
  let remaining := plan.inputs.filter (·.name ∉ labels.inputOrder)
  let sorted := sortOn (fun input : PlanInput => toLex (input.type, input.name)) remaining
  labels.noteAll plan (sorted.map (fun input => .value input.name) ++
    plan.computes.map fun compute => .value compute.name)

end SemanticLabels

/-! The walk. -/

def namedValue (name : String) : List LabelRef := if name = "" then [] else [.value name]

def operandRefs (encoded : String) : List LabelRef :=
  ((refPayload encoded).map LabelRef.value).toList

mutual

def exprRefs : ExprNode → List LabelRef
  | .num _ _ => []
  | .var name _ => [.value name]
  | .bin _ lhs rhs _ => exprRefs lhs ++ exprRefs rhs
  | .cmp _ lhs rhs _ => exprRefs lhs ++ exprRefs rhs
  | .call _ args _ => argumentRefs args

def argumentRefs : List ExprNode → List LabelRef
  | [] => []
  | arg :: rest => exprRefs arg ++ argumentRefs rest

end

def guardRefs (guard : Option ExprNode) : List LabelRef := guard.elim [] exprRefs

def effectRefs (effect : PlanEffect) : List LabelRef :=
  .ledger effect.ledger :: operandRefs effect.party ++ operandRefs effect.amount ++
    operandRefs effect.currency ++ guardRefs effect.guard ++ namedValue effect.gatePolicy ++
    namedValue effect.attestationInput

def groupRefs (plan : CoordinationPlan) (group : PlanEffectGroup) : List LabelRef :=
  guardRefs (((group.effectIndices.head?).bind fun index => plan.effects[index]?).bind (·.guard)) ++
    namedValue group.gatePolicy ++ namedValue group.attestationInput

def policyRefs (policy : AttestationPolicy) : List LabelRef :=
  [.value policy.input, .observerSet policy.observerSet, .observerRole policy.observerRole]

/-- The references before those of the computes' dependencies. -/
def planRefs (plan : CoordinationPlan) : List LabelRef :=
  .value plan.workflowKey :: namedValue plan.explicitInstanceKey ++
    plan.effects.flatMap effectRefs ++ plan.effectGroups.flatMap (groupRefs plan) ++
    plan.attestations.flatMap policyRefs ++ plan.computes.map fun compute => .value compute.name

/-- The dependencies of the first compute of a name. -/
def dependencyRefs (plan : CoordinationPlan) (name : String) : List LabelRef :=
  ((plan.computes.find? (·.name = name)).elim [] (·.deps)).map LabelRef.value

def deadlineRefs (transition : LifecycleTransitionPolicy) : List LabelRef :=
  (transition.guards.filter fun guard => guard.kind = "deadline" ∧ guard.detail ≠ "").map
    fun guard => .value guard.detail

def establishProjectionLabels (plan : CoordinationPlan) : SemanticLabels :=
  let labels := SemanticLabels.noteAll plan {} (planRefs plan)
  let labels := labels.noteAll plan (labels.computeOrder.flatMap (dependencyRefs plan))
  let labels := labels.noteAll plan (plan.lifecycleTransitions.flatMap deadlineRefs)
  labels.completeValues plan

end Neutrino
