import Neutrino.CoordinationEnvelope
import Neutrino.Library.Ledger
import Neutrino.Library.Traced
import Neutrino.StrCase

/-! The reference evaluator: one transition of a coordination plan against an explicit state
and input, as an ordered observation trace and a next state. -/

namespace Neutrino

open Checked Ledger Traced

/-- A posting identity: value is netted per ledger, party and currency. -/
structure Account where
  ledger : String
  party : String
  currency : String
  deriving DecidableEq, Repr

/-- By ledger, then party, then currency. -/
def Account.order : Account → Account → Ordering :=
  compareLex (compareLex (compareOn ledger) (compareOn party)) (compareOn currency)

instance : Ord Account := ⟨Account.order⟩

instance : Std.TransOrd Account :=
  inferInstanceAs (Std.TransCmp
    (compareLex (compareLex (compareOn Account.ledger) (compareOn Account.party))
      (compareOn Account.currency)))

instance : Std.LawfulEqOrd Account where
  eq_of_compare {a b} same := by
    obtain ⟨ledger, party, currency⟩ := a
    obtain ⟨ledger', party', currency'⟩ := b
    change Account.order _ _ = .eq at same
    simpa [Account.order, compareLex, compareOn, Ordering.then_eq_eq, and_assoc] using same

@[ext] structure EvalState where
  balances : Balances Account
  postedKeys : Std.ExtTreeSet String
  keyClaim : Std.ExtTreeMap String String
  committedGroups : Std.ExtTreeMap String (Std.ExtTreeSet String)
  keyStatus : Std.ExtTreeMap String String

def EvalState.empty : EvalState where
  balances := ∅
  postedKeys := ∅
  keyClaim := ∅
  committedGroups := ∅
  keyStatus := ∅

structure TransitionInput where
  numeric : Env
  symbols : Std.ExtTreeMap String String
  attestations : Std.ExtTreeMap String Bool
  authorized : Bool

inductive Outcome
  | progress
  | terminal
  | noProgress
  | replayed
  | refused
  deriving DecidableEq, Repr

inductive ObligationStatus
  | eligible
  | fired
  | refused
  deriving DecidableEq, Repr

inductive Observation
  | authorization (authorized : Bool)
  | compute (name : String) (value : Int64)
  | policyAttestation (policy : String) (accepted : Bool)
  | groupGuard (group : String) (held : Bool)
  | guard (effect : String) (held : Bool)
  | attestation (effect policy : String) (accepted : Bool)
  | refusal (code effect : String)
  | replay (key : String)
  | noProgress (key : String)
  | ledgerDelta (effect ledger party currency : String) (delta : Int64)
  | event (name : String)
  | obligation (name obligor : String) (eligible : Bool) (status : ObligationStatus)
  | terminal (state : String)
  deriving DecidableEq, Repr

structure TransitionResult where
  outcome : Outcome
  trace : List Observation
  next : EvalState
  refusalCode : String

/-- The code of a refusal and the effect it names, if any. -/
structure Refusal where
  code : String
  effect : String
  deriving DecidableEq, Repr

abbrev Evaluation := Traced Observation Refusal

/-! Operands. -/

inductive Operand
  | literal (value : String)
  | ref (name : String)
  deriving DecidableEq, Repr

/-- The operand of an identity `kind:value`, split at its first colon. -/
def splitOperand (id : String) : Option Operand :=
  match id.toList.span (· ≠ ':') with
  | (_, []) => none
  | (kind, _ :: value) =>
      if String.ofList kind = "ref" then some (.ref (String.ofList value))
      else if String.ofList kind = "literal" then some (.literal (String.ofList value))
      else none

def decimalDigits (digits : List Char) : Option Nat :=
  if digits ≠ [] ∧ digits.all Char.isDigit then
    some (digits.foldl (fun value digit => 10 * value + (digit.toNat - '0'.toNat)) 0)
  else none

/-- A base-ten signed integer that takes up the whole text and fits 64 bits. -/
def getAsInteger (text : String) : Option Int64 :=
  match text.toList with
  | '-' :: digits => (decimalDigits digits).bind fun value => MachineInt.checked (-value)
  | digits => (decimalDigits digits).bind fun value => MachineInt.checked value

def operandAmount (env : Env) : Operand → Except String Int64
  | .literal text =>
      match getAsInteger text with
      | none => .error "operand.malformed"
      | some value => .ok value
  | .ref name =>
      match env[name]? with
      | none => .error "operand.unresolved"
      | some value => .ok value

/-- A non-negative amount, or the code it is refused with. -/
def resolveAmount (id : String) (env : Env) : Except String Int64 :=
  match splitOperand id with
  | none => .error "operand.malformed"
  | some operand => do
      let value ← operandAmount env operand
      require (0 ≤ value.toInt) "amount.negative"
      return value

def operandSymbol (symbols : Std.ExtTreeMap String String) : Operand → Except String String
  | .literal text => .ok text
  | .ref name =>
      match symbols[name]? with
      | none => .error "operand.unresolved"
      | some token => .ok token

/-- A non-empty party or currency token, or the code it is refused with. -/
def resolveSymbol (id : String) (symbols : Std.ExtTreeMap String String) :
    Except String String :=
  match splitOperand id with
  | none => .error "operand.malformed"
  | some operand => do
      let token ← operandSymbol symbols operand
      require (token ≠ "") "operand.malformed"
      return token

def effectEvent (effect : PlanEffect) : String :=
  pascalCase effect.name ++ (if effect.kind = "debit" then "Debited" else "Credited")

def isAcceptedGuard : ExprNode → Bool
  | .call name _ _ => name = "accepted"
  | _ => false

/-- A plan with an `accepted` group commits group by group. -/
def isTemporal (plan : CoordinationPlan) : Bool :=
  plan.effects.any fun effect => effect.guard.any isAcceptedGuard

/-! Admission: authorization, the workflow key and the execution claim. -/

def workflowKeyValue (plan : CoordinationPlan) (input : TransitionInput) : String :=
  if plan.workflowKey = "" then ""
  else
    match input.symbols[plan.workflowKey]? with
    | some token => token
    | none =>
        match input.numeric[plan.workflowKey]? with
        | some value => toString value
        | none => ""

/-- A declared input with its value from the one map that carries it, which for a governed
category is the map of that category. -/
def typeInput (input : TransitionInput) (declared : PlanInput) :
    Except Refusal ExecutionInput :=
  let category := classifyValueType declared.type
  let typed value : ExecutionInput :=
    { name := declared.name, category := categoryName category, value }
  match input.numeric[declared.name]?, input.symbols[declared.name]? with
  | some number, none =>
      if isNumericCategory category || !isCanonicalCategory category then
        .ok (typed (toString number))
      else .error ⟨"claim.input", declared.name⟩
  | none, some token =>
      if isNumericCategory category then .error ⟨"claim.input", declared.name⟩
      else .ok (typed token)
  | _, _ => .error ⟨"claim.input", declared.name⟩

/-! The environment: computes folded over the numeric inputs, then acceptance flags. -/

def computeValue (env : Env) (compute : PlanCompute) : Except Refusal Int64 :=
  match compute.expr with
  | none => .error ⟨"expr.missing", ""⟩
  | some expr => (evalExpr expr env).mapError fun failure => ⟨failure.code, ""⟩

def foldComputes : List PlanCompute → Env → Evaluation Env
  | [], env => pure env
  | compute :: rest, env => do
      let value ← ofExcept (computeValue env compute)
      observe (.compute compute.name value)
      foldComputes rest (env.insert compute.name value)

def policyAccepted (input : TransitionInput) (policy : String) : Bool :=
  (input.attestations[policy]?).getD false

def seedAcceptance (plan : CoordinationPlan) (input : TransitionInput) (env : Env) : Env :=
  plan.attestations.foldl (fun env policy =>
    env.insert ("accepted:" ++ policy.input)
      (if policyAccepted input policy.input then 1 else 0)) env

def transitionEnv (plan : CoordinationPlan) (input : TransitionInput) : Evaluation Env := do
  let env ← foldComputes plan.computes input.numeric
  return seedAcceptance plan input env

/-! Staging: each firing leg is validated and added onto a copy of the balances. -/

/-- A leg that will post. -/
structure Pending where
  effect : PlanEffect
  posting : Posting Account

def isPostingKind (kind : String) : Bool := kind = "debit" || kind = "credit"

def resolvePosting (env : Env) (symbols : Std.ExtTreeMap String String)
    (effect : PlanEffect) : Except Refusal (Posting Account) := do
  let named code : Refusal := ⟨code, effect.name⟩
  require (effect.ledger ≠ "") (named "operand.malformed")
  let value ← (resolveAmount effect.amount env).mapError named
  let party ← (resolveSymbol effect.party symbols).mapError named
  let currency ← (resolveSymbol effect.currency symbols).mapError named
  return {
    account := { ledger := effect.ledger, party, currency }
    delta := if effect.kind = "credit" then value else -value }

def stagePosting (staged : Balances Account) (effect : PlanEffect)
    (posting : Posting Account) : Except Refusal (Balances Account) :=
  match post staged posting with
  | none => .error ⟨"balance.overflow", effect.name⟩
  | some posted => .ok posted

/-- The legs of a group that commits. -/
def stageEffects (env : Env) (symbols : Std.ExtTreeMap String String) :
    List PlanEffect → Balances Account → Except Refusal (List Pending × Balances Account)
  | [], staged => .ok ([], staged)
  | effect :: rest, staged => do
      require (isPostingKind effect.kind) ⟨"effect.kind", effect.name⟩
      let posting ← resolvePosting env symbols effect
      let staged ← stagePosting staged effect posting
      let (pending, staged) ← stageEffects env symbols rest staged
      return ({ effect, posting } :: pending, staged)

/-- Whether a conditional leg fires; an unconditional one always does. -/
def observeGuard (env : Env) (effect : PlanEffect) : Evaluation Bool :=
  match effect.guard with
  | none => pure true
  | some guard => do
      let held ← ofExcept
        ((evalGuard guard env).mapError fun failure => ⟨failure.code, effect.name⟩)
      observe (.guard effect.name held)
      return held

/-- A firing leg under a policy needs the policy accepted. -/
def observeGate (input : TransitionInput) (effect : PlanEffect) : Evaluation Unit :=
  if effect.attestationInput = "" then pure ()
  else do
    let accepted := policyAccepted input effect.attestationInput
    observe (.attestation effect.name effect.attestationInput accepted)
    ensure accepted ⟨"attestation.rejected", effect.name⟩

/-- Every leg of a single-shot transition under its own guard and gate. -/
def stageLegs (env : Env) (input : TransitionInput) :
    List PlanEffect → Balances Account → Evaluation (List Pending × Balances Account)
  | [], staged => pure ([], staged)
  | effect :: rest, staged => do
      ensure (isPostingKind effect.kind) ⟨"effect.kind", effect.name⟩
      let held ← observeGuard env effect
      if held then do
        observeGate input effect
        let posting ← ofExcept (resolvePosting env input.symbols effect)
        let staged ← ofExcept (stagePosting staged effect posting)
        let (pending, staged) ← stageLegs env input rest staged
        return ({ effect, posting } :: pending, staged)
      else stageLegs env input rest staged

/-! Publication. -/

def ledgerDelta (pending : Pending) : Observation :=
  .ledgerDelta pending.effect.name pending.posting.account.ledger
    pending.posting.account.party pending.posting.account.currency pending.posting.delta

def publishPending (pending : List Pending) : List Observation :=
  pending.map ledgerDelta ++ pending.map fun leg => .event (effectEvent leg.effect)

/-- An obligation is eligible when its predicate holds, and fired when it is eligible and
every effect it names posted. A predicate that cannot be evaluated does not hold. -/
def observeObligation (env : Env) (committed : List String) (obligation : PlanObligation) :
    Observation :=
  let eligible := match evalGuard obligation.when env with
    | .ok held => held
    | .error _ => false
  let allFired := eligible && obligation.effects.all fun name => name ∈ committed
  .obligation obligation.name obligation.obligor eligible
    (if !eligible then .refused else if allFired then .fired else .eligible)

def observeObligations (plan : CoordinationPlan) (env : Env) (committed : List String) :
    List Observation :=
  plan.obligations.map (observeObligation env committed)

/-- What a transition that was not refused comes to: the legs it posts, what it publishes
after validation, and the next state. -/
structure Settled where
  outcome : Outcome
  next : EvalState
  pending : List Pending
  published : List Observation

def EvalState.close (state : EvalState) (plan : CoordinationPlan) (key : String) :
    EvalState :=
  { state with
    postedKeys := state.postedKeys.insert key
    keyStatus := state.keyStatus.insert key plan.terminal.success }

def EvalState.pin (state : EvalState) (key claim : String) : EvalState :=
  { state with keyClaim := state.keyClaim.insert key claim }

def reconciled (plan : CoordinationPlan) : Observation :=
  .event (pascalCase plan.procedure ++ "Reconciled")

/-! Replay of a posted key. -/

def settleReplay (state : EvalState) (key claim : String) : Evaluation Settled := do
  ensure (state.keyClaim.contains key) ⟨"state.invalid", ""⟩
  ensure (state.keyClaim[key]? = some claim) ⟨"claim.mismatch", ""⟩
  let status := (state.keyStatus[key]?).getD ""
  ensure (status ≠ "") ⟨"state.invalid", ""⟩
  return {
    outcome := .replayed
    next := state
    pending := []
    published := [.replay key, .terminal status] }

/-! Evidence-only coordinations: every policy's evidence is presented and accepted. -/

def acceptEvidence (input : TransitionInput) : List AttestationPolicy → Evaluation Unit
  | [] => pure ()
  | policy :: rest =>
      match input.attestations[policy.input]? with
      | none => Traced.fail ⟨"evidence.malformed", ""⟩
      | some accepted => do
          observe (.policyAttestation policy.input accepted)
          ensure accepted ⟨"attestation.rejected", ""⟩
          acceptEvidence input rest

def settleEvidence (plan : CoordinationPlan) (state : EvalState) (input : TransitionInput)
    (key claim : String) : Evaluation Settled := do
  acceptEvidence input plan.attestations
  return {
    outcome := .terminal
    next := (state.pin key claim).close plan key
    pending := []
    published := [.event (pascalCase plan.procedure ++ "Accepted"),
      .terminal plan.terminal.success] }

/-! Temporal coordinations: each group commits at most once per key, when its guard holds. -/

def committedSoFar (state : EvalState) (key : String) : Std.ExtTreeSet String :=
  (state.committedGroups[key]?).getD ∅

/-- A key with committed groups carries its claim, and they are groups of the plan. -/
def ledgerConsistent (plan : CoordinationPlan) (state : EvalState) (key : String) : Bool :=
  (committedSoFar state key).isEmpty ||
    (state.keyClaim.contains key && (committedSoFar state key).toList.all fun group =>
      plan.effectGroups.any fun known => known.guardKey = group)

/-- The guard a group's effects share, read off its first effect. -/
def groupGuard (plan : CoordinationPlan) (group : PlanEffectGroup) : Option ExprNode :=
  (plan.effects[group.firstIndex]?).bind (·.guard)

def groupEffects (plan : CoordinationPlan) (group : PlanEffectGroup) : List PlanEffect :=
  group.effectIndices.filterMap fun index => plan.effects[index]?

structure GroupInfo where
  group : PlanEffectGroup
  guard : Option ExprNode
  holds : Bool
  committable : Bool

def groupHolds (env : Env) : Option ExprNode → Except Refusal Bool
  | none => .ok true
  | some guard => (evalGuard guard env).mapError fun failure => ⟨failure.code, ""⟩

def classifyGroup (plan : CoordinationPlan) (env : Env) (committed : Std.ExtTreeSet String)
    (group : PlanEffectGroup) : Except Refusal GroupInfo := do
  let guard := groupGuard plan group
  let holds ← groupHolds env guard
  return { group, guard, holds, committable := holds && !committed.contains group.guardKey }

/-- The groups a terminal waits for: all but comparison groups that do not hold. -/
def requiredGroups (infos : List GroupInfo) : List String :=
  (infos.filter fun info => info.guard.all isAcceptedGuard || info.holds).map
    (·.group.guardKey)

def committingGroups (infos : List GroupInfo) : List String :=
  (infos.filter (·.committable)).map (·.group.guardKey)

def observeGroupGuard (info : GroupInfo) : Evaluation Unit :=
  if info.guard.isSome then observe (.groupGuard info.group.guardKey info.holds) else pure ()

def stageGroups (plan : CoordinationPlan) (env : Env)
    (symbols : Std.ExtTreeMap String String) :
    List GroupInfo → Balances Account → Evaluation (List Pending × Balances Account)
  | [], staged => pure ([], staged)
  | info :: rest, staged => do
      observeGroupGuard info
      let effects := if info.committable then groupEffects plan info.group else []
      let (pending, staged) ← ofExcept (stageEffects env symbols effects staged)
      let (later, staged) ← stageGroups plan env symbols rest staged
      return (pending ++ later, staged)

/-- The state after the groups commit, before the key is closed. -/
def commitState (state : EvalState) (key claim : String) (staged : Balances Account)
    (committing : List String) : EvalState :=
  { state.pin key claim with
    balances := staged
    committedGroups := state.committedGroups.insert key
      ((committedSoFar state key).insertMany committing) }

/-- The disposition once every committable group is staged: nothing new, the last required
group, or some but not all of them. -/
def disposeGroups (plan : CoordinationPlan) (state : EvalState) (key claim : String)
    (infos : List GroupInfo) (pending : List Pending) (staged : Balances Account) : Settled :=
  let committing := committingGroups infos
  let committed := (committedSoFar state key).insertMany committing
  let next := commitState state key claim staged committing
  if committing = [] then {
    outcome := .noProgress
    next := state
    pending := []
    published := [.noProgress key] }
  else if (requiredGroups infos).all fun group => committed.contains group then {
    outcome := .terminal
    next := next.close plan key
    pending
    published := publishPending pending ++
      [reconciled plan, .terminal plan.terminal.success] }
  else {
    outcome := .progress
    next
    pending
    published := publishPending pending }

def settleGroups (plan : CoordinationPlan) (state : EvalState) (input : TransitionInput)
    (key claim : String) (env : Env) : Evaluation Settled := do
  ensure (ledgerConsistent plan state key) ⟨"state.invalid", ""⟩
  let infos ← ofExcept
    (collect (classifyGroup plan env (committedSoFar state key)) plan.effectGroups)
  let (pending, staged) ← stageGroups plan env input.symbols infos state.balances
  return disposeGroups plan state key claim infos pending staged

/-! Single-shot coordinations: every leg whose guard holds, in one commit. -/

def settleLegs (plan : CoordinationPlan) (state : EvalState) (input : TransitionInput)
    (key claim : String) (env : Env) : Evaluation Settled := do
  let (pending, staged) ← stageLegs env input plan.effects state.balances
  return {
    outcome := .terminal
    next := ({ state with balances := staged }.pin key claim).close plan key
    pending
    published := publishPending pending ++
      observeObligations plan env (pending.map (·.effect.name)) ++
      [reconciled plan, .terminal plan.terminal.success] }

section Hash

variable (sha256Hex : List UInt8 → String)

/-- The key and the claim of an authorized invocation that carries every declared input. -/
def admission (plan : CoordinationPlan) (input : TransitionInput) :
    Evaluation (String × String) := do
  observe (.authorization input.authorized)
  ensure input.authorized ⟨"auth.denied", ""⟩
  let key := workflowKeyValue plan input
  ensure (key ≠ "") ⟨"key.unresolved", ""⟩
  let typedInputs ← ofExcept (collect (typeInput input) plan.inputs)
  return (key,
    executionClaimHash sha256Hex (coordinationIdentityHash sha256Hex plan) key typedInputs)

def settle (plan : CoordinationPlan) (state : EvalState) (input : TransitionInput) :
    Evaluation Settled := do
  let (key, claim) ← admission sha256Hex plan input
  ensure ((state.keyClaim[key]?).all (· = claim)) ⟨"claim.mismatch", ""⟩
  if plan.replay.idempotent && state.postedKeys.contains key then
    settleReplay state key claim
  else do
    let env ← transitionEnv plan input
    if plan.effects.isEmpty && !plan.attestations.isEmpty then
      settleEvidence plan state input key claim
    else if isTemporal plan then settleGroups plan state input key claim env
    else settleLegs plan state input key claim env

/-- A refused transition ends its trace with the refusal and leaves the state alone. -/
def evaluateTransition (plan : CoordinationPlan) (state : EvalState)
    (input : TransitionInput) : TransitionResult :=
  let evaluation := settle sha256Hex plan state input
  match evaluation.value with
  | .error refusal => {
      outcome := .refused
      trace := evaluation.trace ++ [.refusal refusal.code refusal.effect]
      next := state
      refusalCode := refusal.code }
  | .ok settled => {
      outcome := settled.outcome
      trace := evaluation.trace ++ settled.published
      next := settled.next
      refusalCode := "" }

end Hash

end Neutrino
