import Neutrino.CoordinationPlan
import Neutrino.ExprJson

/-! The consumer path: a capability spec's JSON becomes the raw plan inputs, with every
expression typed once, and `assemblePlan` verifies the result. -/

namespace Neutrino

open Checked

/-! Expressions. An ingested spec's trees, categories and dependencies are untrusted. -/

def exprErrorText (failure : ExprError) : String :=
  planErrorText ("[" ++ failure.code ++ "] " ++ failure.message)

def checkedExpr {α : Type} (result : Except ExprError α) : Except String α :=
  result.mapError exprErrorText

def specObjects (spec : Json.Object) (key : String) : List Json.Object :=
  ((spec.getArray key).getD []).filterMap Json.asObject

def inputCategories (spec : Json.Object) : CategoryEnv :=
  (specObjects spec "inputs").foldl (fun env input =>
    env.insert (input.stringOr "name") (classifyValueType (input.stringOr "type"))) ∅

/-- A compute's typed tree, when it has one, and the environment its name then joins. -/
def typeCompute (env : CategoryEnv) (element : Json) :
    Except ExprError (Option ExprNode × CategoryEnv) :=
  match element.asObject with
  | some compute =>
      match compute.get "ast" with
      | none => .ok (none, env)
      | some ast => do
          let node ← exprFromJson ast
          let node ← typeExpr env node
          return (some node, env.insert (compute.stringOr "name") node.dtype)
  | none => .ok (none, env)

def typeComputes (env : CategoryEnv) :
    List Json → Except ExprError (List (Option ExprNode) × CategoryEnv)
  | [] => .ok ([], env)
  | element :: rest => do
      let (tree, env) ← typeCompute env element
      let (trees, env) ← typeComputes env rest
      return (tree :: trees, env)

/-- The typed `when` predicate of an effect or an obligation, when it has one. -/
def typeWhen (env : CategoryEnv) (element : Json) : Except ExprError (Option ExprNode) :=
  match (element.asObject.bind (·.getObject "when")).bind (·.get "ast") with
  | none => .ok none
  | some ast => do
      let node ← exprFromJson ast
      let node ← typeGuard env node
      return some node

structure SpecExprs where
  computeTrees : List (Option ExprNode)
  guardTrees : List (Option ExprNode)
  obligationTrees : List (Option ExprNode)

def typeTrees (spec : Json.Object) : Except ExprError SpecExprs := do
  let (computeTrees, env) ←
    typeComputes (inputCategories spec) ((spec.getArray "computes").getD [])
  let guardTrees ← collect (typeWhen env) ((spec.getArray "effects").getD [])
  let obligationTrees ← collect (typeWhen env) ((spec.getArray "obligations").getD [])
  return { computeTrees, guardTrees, obligationTrees }

def stringElements (object : Json.Object) (key : String) : List String :=
  ((object.getArray key).getD []).filterMap Json.asString

/-- The declared category and dependency set are those of the inferred tree. -/
def checkCompute (compute : Json × Option ExprNode) : Except String Unit :=
  match compute.1.asObject, compute.2 with
  | some declared, some node => do
      requirePlan (declared.stringOr "category" = categoryName node.dtype)
        ("[expr.type] compute '" ++ declared.stringOr "name" ++ "' declares category '" ++
          declared.stringOr "category" ++ "' but its expression infers '" ++
          categoryName node.dtype ++ "'")
      requirePlan (stringElements declared "deps" ⊆ exprVars node ∧
          exprVars node ⊆ stringElements declared "deps")
        ("[expr.deps] compute '" ++ declared.stringOr "name" ++
          "' deps do not match its expression's variable set")
  | _, _ => .ok ()

def typeSpecExprs (spec : Json.Object) : Except String SpecExprs := do
  let trees ← checkedExpr (typeTrees spec)
  each checkCompute (((spec.getArray "computes").getD []).zip trees.computeTrees)
  return trees

/-- The input of a serialized `accepted` guard, or nothing for any other guard. -/
def acceptedInputFromAst (ast : Option Json.Object) : String :=
  match ast with
  | none => ""
  | some ast =>
      if ast.stringOr "kind" = "call" ∧ ast.stringOr "name" = "accepted" then
        match ast.getArray "args" with
        | some [arg] =>
            match arg.asObject with
            | some arg => if arg.stringOr "kind" = "var" then arg.stringOr "name" else ""
            | none => ""
        | _ => ""
      else ""

/-- The operand's identity, `kind:value`. -/
def operandKey : Option Json.Object → String
  | none => ""
  | some operand => operand.stringOr "kind" ++ ":" ++ operand.stringOr "value"

/-! Participants, topology and effects. -/

def participantOrg (participant : Json.Object) : Except String String :=
  match participant.get "org" with
  | none => .ok ""
  | some .null => .ok ""
  | some (.string org) => .ok org
  | some _ => planError "authorization participant organization must be a string or null"

def participantFromSpec (element : Json) : Except String PlanParticipant :=
  match element.asObject with
  | some participant => do
      let org ← participantOrg participant
      return { name := participant.stringOr "name", role := participant.stringOr "role", org }
  | none => planError "authorization participants must contain only objects"

def participantsFromSpec (spec : Json.Object) : Except String (List PlanParticipant) :=
  match spec.get "participants" with
  | none => planError "authorization participants array is missing"
  | some (.array participants) => collect participantFromSpec participants
  | some _ => planError "authorization participants must be an array"

def orgPairFromSpec (element : Json) : Except String PlanOrgPolicy :=
  match element.asObject with
  | some edge => .ok {
      orgA := edge.stringOr "orgA"
      orgB := edge.stringOr "orgB"
      roleA := edge.stringOr "roleA"
      roleB := edge.stringOr "roleB" }
  | none => planError "allowed organization edges must contain only objects"

def topologyFromSpec (spec : Json.Object) : Except String (List PlanOrgPolicy) :=
  match spec.getObject "topology" with
  | none => planError "authorization topology object is missing"
  | some topology =>
      match topology.get "allowedOrgPairs" with
      | none => planError "allowed organization edges array is missing"
      | some (.array pairs) => collect orgPairFromSpec pairs
      | some _ => planError "allowed organization edges must be an array"

def effectParticipant (index : Nat) (effect : Json.Object) : Except String String :=
  match effect.get "participant" with
  | none => planError ("effect " ++ toString index ++ " is missing its participant field")
  | some .null => .ok ""
  | some (.string participant) => .ok participant
  | some _ => planError ("effect " ++ toString index ++
      " participant must be a string or null")

/-- One element of `effects` at its position, with the tree already typed for it. -/
def effectFromSpec (element : (Json × Option ExprNode) × Nat) :
    Except String PlanEffectInput :=
  match element.1.1.asObject with
  | some effect => do
      let participant ← effectParticipant element.2 effect
      let idempotency := (effect.getObject "idempotencyKey").getD []
      let condition := (effect.getObject "when").getD []
      return {
        name := effect.stringOr "name"
        kind := effect.stringOr "kind"
        participant
        idempotencyKind := idempotency.stringOr "kind"
        idempotencyValue := idempotency.stringOr "value"
        canonicalGuard := condition.stringOr "expr"
        guardAcceptedInput := acceptedInputFromAst (condition.getObject "ast")
        amount := operandKey (effect.getObject "amount")
        currency := operandKey (effect.getObject "currency")
        ledger := effect.stringOr "ledger"
        party := operandKey (effect.getObject "party")
        memo := effect.stringOr "memo"
        guard := element.1.2 }
  | none => planError "an effect is not a JSON object"

def effectsFromSpec (spec : Json.Object) (guardTrees : List (Option ExprNode)) :
    Except String (List PlanEffectInput) :=
  match spec.getArray "effects" with
  | none => planError "spec declares no effects"
  | some effects => collect effectFromSpec (effects.zip guardTrees).zipIdx

def obligationFromSpec (element : Json × Option ExprNode) :
    Except String PlanObligationInput :=
  match element.1.asObject with
  | some obligation => .ok {
      version := int32OfInt64 ((obligation.getInteger "version").getD 0)
      name := obligation.stringOr "name"
      obligor := obligation.stringOr "obligor"
      beneficiary := obligation.stringOr "beneficiary"
      authority := obligation.stringOr "authority"
      canonicalGuard := Json.Object.stringOr ((obligation.getObject "when").getD []) "expr"
      when := element.2
      effects := stringElements obligation "effects" }
  | none => planError "an obligation is not a JSON object"

def obligationsFromSpec (spec : Json.Object) (obligationTrees : List (Option ExprNode)) :
    Except String (List PlanObligationInput) :=
  match spec.get "obligations" with
  | none => .ok []
  | some (.array obligations) => collect obligationFromSpec (obligations.zip obligationTrees)
  | some _ => planError
      "[kernel.obligation.identity] 'obligations' must be an array when present"

def computesFromSpec (spec : Json.Object) (computeTrees : List (Option ExprNode)) :
    List PlanCompute :=
  (((spec.getArray "computes").getD []).zip computeTrees).filterMap fun element =>
    element.1.asObject.map fun compute => {
      name := compute.stringOr "name"
      category := compute.stringOr "category"
      deps := stringElements compute "deps"
      expr := element.2 }

/-! The lifecycle. -/

def transitionEffectFromSpec (transition : String) (element : Json) : Except String String :=
  match element with
  | .string effect => .ok effect
  | _ => planError ("[spec.transition_effect] lifecycle transition '" ++ transition ++
      "' effects must be an array of strings")

def transitionEffectsFromSpec (name : String) (transition : Json.Object) :
    Except String (List String) :=
  let failed := "[spec.transition_effect] lifecycle transition '" ++ name
  match transition.get "effects" with
  | none => planError (failed ++ "' is missing effects array")
  | some (.array effects) => collect (transitionEffectFromSpec name) effects
  | some _ => planError (failed ++ "' effects must be an array")

def transitionGuardFromSpec (transition : String) (element : Json) :
    Except String LifecycleTransitionGuardPolicy :=
  let failed := "[spec.transition_guard] lifecycle transition '" ++ transition
  match element.asObject with
  | some guard =>
      match guard.getString "kind" with
      | none => planError (failed ++ "' guard kind must be a string")
      | some kind =>
          match guard.get "detail" with
          | none => .ok { kind, detail := "" }
          | some (.string detail) => .ok { kind, detail }
          | some _ => planError (failed ++ "' guard detail must be a string")
  | none => planError (failed ++ "' guards must contain only objects")

def transitionGuardsFromSpec (name : String) (transition : Json.Object) :
    Except String (List LifecycleTransitionGuardPolicy) :=
  let failed := "[spec.transition_guard] lifecycle transition '" ++ name
  match transition.get "guards" with
  | none => planError (failed ++ "' is missing guards array")
  | some (.array guards) => collect (transitionGuardFromSpec name) guards
  | some _ => planError (failed ++ "' guards must be an array")

def transitionEvidenceFromSpec (transition : String) (evidence : Option Json) :
    Except String (Option LifecycleTransitionEvidencePolicy) :=
  let failed := "[spec.transition_evidence] lifecycle transition '" ++ transition
  match evidence with
  | none => .ok none
  | some .null => .ok none
  | some evidence =>
      match evidence.asObject with
      | none => planError (failed ++ "' evidence must be null or an object")
      | some evidence =>
          match evidence.getString "style", evidence.getBoolean "chained" with
          | none, _ => planError (failed ++ "' evidence style must be a string")
          | some _, none => planError (failed ++ "' evidence chained must be a boolean")
          | some style, some chained => .ok (some { style, chained })

def transitionFromSpec (element : Json) : Except String LifecycleTransitionPolicy :=
  match element.asObject with
  | some transition => do
      let name := transition.stringOr "name"
      let effects ← transitionEffectsFromSpec name transition
      let guards ← transitionGuardsFromSpec name transition
      let evidence ← transitionEvidenceFromSpec name (transition.get "evidence")
      return {
        name
        «from» := transition.stringOr "from"
        «to» := transition.stringOr "to"
        effects
        guards
        idempotency := transition.stringOr "idempotency"
        evidence }
  | none => planError
      "[spec.bad_transition] lifecycle transitions must contain only objects"

def transitionsFromSpec (lifecycle : Json.Object) :
    Except String (List LifecycleTransitionPolicy) :=
  match lifecycle.get "transitions" with
  | none => planError "[spec.bad_transition] lifecycle transitions array is missing"
  | some (.array []) => planError
      "[spec.bad_transition] lifecycle transitions must be a non-empty array"
  | some (.array transitions) => collect transitionFromSpec transitions
  | some _ => planError "[spec.bad_transition] lifecycle transitions must be an array"

/-- A spec without a lifecycle object has no states, terminals or transitions. -/
def specTransitions (spec : Json.Object) : Except String (List LifecycleTransitionPolicy) :=
  match spec.getObject "lifecycle" with
  | none => .ok []
  | some lifecycle => transitionsFromSpec lifecycle

def inputsFromSpec (spec : Json.Object) : Except String PlanInputs := do
  let trees ← typeSpecExprs spec
  let participants ← participantsFromSpec spec
  let allowedOrgPairs ← topologyFromSpec spec
  let effects ← effectsFromSpec spec trees.guardTrees
  let obligations ← obligationsFromSpec spec trees.obligationTrees
  let lifecycle := (spec.getObject "lifecycle").getD []
  let terminalStates := (lifecycle.getObject "terminalStates").getD []
  let instanceKey := (lifecycle.getObject "instanceKey").getD []
  let lifecycleTransitions ← specTransitions spec
  return {
    procedure := spec.stringOr "procedure"
    invokedEvent := spec.stringOr "trigger"
    inputs := (specObjects spec "inputs").map fun input =>
      { name := input.stringOr "name", type := input.stringOr "type" }
    participants
    allowedOrgPairs
    effects
    computes := computesFromSpec spec trees.computeTrees
    attestations := attestationPoliciesFromSpec spec
    balanced := (specObjects spec "invariants").any fun invariant =>
      invariant.stringOr "kind" = "balanced"
    terminal := {
      success := terminalStates.stringOr "success"
      aborted := terminalStates.stringOr "aborted"
      contested := terminalStates.stringOr "contested" }
    lifecycleInitialState := lifecycle.stringOr "initialState"
    lifecycleStates := (specObjects lifecycle "states").map (·.stringOr "name")
    lifecycleTransitions
    obligations
    explicitInstanceKey := instanceKey.stringOr "declared" }

def planFromSpec (spec : Json.Object) : Except String CoordinationPlan := do
  let raw ← inputsFromSpec spec
  assemblePlan raw

end Neutrino
