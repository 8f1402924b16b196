import Mathlib
import Neutrino.ProjectionConsume
import Neutrino.QuorumGuard
import Neutrino.SolidityRendering

/-! The coordination contract of a finalized sequence, on the temporal rail and on the effectful
rail with one guard: what a call of `execute` does to the storage, or that it reverts. -/

namespace Neutrino.Solidity

open Checked Projection Quorum

inductive SolType
  | uint256
  | string
  deriving DecidableEq, Repr

def solType (type : String) : SolType :=
  if isTemporalType type then .uint256
  else
    match classifyValueType type with
    | .money | .decimal => .uint256
    | _ => .string

/-- A value of a parameter or a local; a string is any bytes. -/
inductive Argument
  | uint256 (value : Nat)
  | string (bytes : List UInt8)
  deriving DecidableEq, Repr

/-- The values of the names in scope, the latest first. -/
abbrev Locals := List (String × Argument)

def uintOf (locals : Locals) (name : String) : Option Nat :=
  match locals.lookup name with
  | some (.uint256 value) => some value
  | _ => none

def stringOf (locals : Locals) (name : String) : Option (List UInt8) :=
  match locals.lookup name with
  | some (.string bytes) => some bytes
  | _ => none

inductive Revert
  | required (message : String)
  | panic
  | illTyped
  deriving DecidableEq, Repr

/-- What only a contract that compiles has. -/
def compiled {α : Type} (value : Option α) : Except Revert α :=
  match value with
  | some value => .ok value
  | none => .error .illTyped

def checkedResult {α : Type} (value : Option α) : Except Revert α :=
  match value with
  | some value => .ok value
  | none => .error .panic

inductive Status
  | initial
  | success
  deriving DecidableEq, Repr

structure Storage where
  statusOf : Bytes32 → Status := fun _ => .initial
  keyClaim : Bytes32 → Bytes32 := fun _ => 0
  committedGroup : Bytes32 → Nat → Bool := fun _ _ => false
  net : Bytes32 → List UInt8 → Int := fun _ _ => 0
  debitTotal : Bytes32 → Nat := fun _ => 0
  creditTotal : Bytes32 → Nat := fun _ => 0

/-- An emitted event; that of a posting with the posting whose statement emits it. -/
inductive Event
  | trigger (event : String) (key : List UInt8)
  | computed (name : String) (value : Nat)
  | posted (posting : FinalizedPostingProjection) (party : List UInt8) (amount : Nat)
      (currency : List UInt8)
  | reconciled (name : String) (key : List UInt8)

/-! Parameters and operands. -/

def bindParam (type : SolType) (argument : Argument) : Option Argument :=
  match type, argument with
  | .uint256, .uint256 value => (fits256 value).map .uint256
  | .string, .string bytes => some (.string bytes)
  | _, _ => none

def bindParams : List TypedParamProjection → List Argument → Option Locals
  | [], [] => some []
  | param :: params, argument :: arguments => do
      let bound ← bindParam (solType param.type) argument
      let rest ← bindParams params arguments
      return (uref param.name, bound) :: rest
  | _, _ => none

/-- Whether an operand is a literal, and the text behind its first colon. -/
def operandParts (id : String) : Bool × String :=
  let kind := id.toList.takeWhile (· ≠ ':')
  (String.ofList kind = "literal", String.ofList (id.toList.drop (kind.length + 1)))

/-- A decimal literal that converts to both int256 and uint256. -/
def amountLiteral (text : String) : Option Nat :=
  match text.toList with
  | '0' :: _ :: _ => none
  | digits => (readDigits digits).filter (· < 2 ^ 255)

def uintOperand (locals : Locals) (id : String) : Option Nat :=
  match operandParts id with
  | (true, text) => amountLiteral text
  | (false, name) => uintOf locals (uref name)

def stringOperand (locals : Locals) (id : String) : Option (List UInt8) :=
  match operandParts id with
  | (true, text) => some (utf8 text)
  | (false, name) => stringOf locals (uref name)

/-! The execution claim. -/

section Claim

variable (sha256 : List UInt8 → Bytes32) (sequence : FinalizedProjectionSequence)
  (locals : Locals)

/-- A numeric input is written in decimal, every other one is its bytes. -/
def claimValue (input : FinalizedExecutionClaimInput) : Option (List UInt8) :=
  match solType input.type with
  | .uint256 => (uintOf locals (uref input.name)).map fun value => utf8 (toString value)
  | .string => stringOf locals (uref input.name)

def claimInput (input : FinalizedExecutionClaimInput) : Except Revert (List (List UInt8)) := do
  let value ← compiled (claimValue locals input)
  return [utf8 input.name, utf8 input.category, value]

def claimPreimage (coordinationIdentity workflowKey : List UInt8)
    (inputs : List (List (List UInt8))) : List UInt8 :=
  Framing.frames ([utf8 kCoordinationEnvelopeDomain, coordinationIdentity, workflowKey,
    utf8 (toString inputs.length)] ++ inputs.flatten)

def executionClaim : Except Revert Bytes32 := do
  let workflowKey ← compiled (stringOf locals (uref sequence.executionIdentity.instanceKey))
  let inputs ← collect (claimInput locals) sequence.claimInputs
  return sha256 (claimPreimage (utf8 sequence.executionIdentity.coordinationIdentity)
    workflowKey inputs)

end Claim

/-! The statements of a call. -/

section Statements

variable (sequence : FinalizedProjectionSequence) (key : Bytes32)

def computeStep (scope : Locals × List Event) (compute : ComputeProjection) :
    Except Revert (Locals × List Event) := do
  let value ← checkedResult (solidityValue (uintOf scope.1) compute.expression)
  return ((uref compute.name, .uint256 value) :: scope.1,
    scope.2 ++ [.computed compute.name value])

/-- The conversion of a uint256 to an int256 wraps around. -/
def int256 (value : Nat) : Int := (BitVec.ofNat 256 value).toInt

def checkedInt256 (value : Int) : Option Int :=
  if -(2 ^ 255) ≤ value ∧ value < 2 ^ 255 then some value else none

def netUpdate (storage : Storage) (posting : FinalizedPostingProjection) (amount : Nat) :
    Except Revert Storage := do
  let ledger := utf8 posting.posting.ledger
  let before := storage.net key ledger
  let after ← checkedResult (checkedInt256 (match posting.direction with
    | .debit => before - int256 amount
    | .credit => before + int256 amount))
  return { storage with
    net := Function.update storage.net key (Function.update (storage.net key) ledger after) }

def totalUpdate (storage : Storage) (posting : FinalizedPostingProjection) (amount : Nat) :
    Except Revert Storage :=
  match posting.direction with
  | .debit => do
      let total ← checkedResult (fits256 (storage.debitTotal key + amount))
      return { storage with debitTotal := Function.update storage.debitTotal key total }
  | .credit => do
      let total ← checkedResult (fits256 (storage.creditTotal key + amount))
      return { storage with creditTotal := Function.update storage.creditTotal key total }

def commitPosting (locals : Locals) (state : Storage × List Event)
    (posting : FinalizedPostingProjection) : Except Revert (Storage × List Event) := do
  let amount ← compiled (uintOperand locals posting.posting.amount)
  let storage ← netUpdate key state.1 posting amount
  let storage ← totalUpdate key storage posting amount
  let party ← compiled (stringOperand locals posting.posting.party)
  let currency ← compiled (stringOperand locals posting.posting.currency)
  return (storage, state.2 ++ [.posted posting party amount currency])

def balanceRequire (storage : Storage) (_assertion : BalanceAssertion) : Except Revert Unit :=
  require (storage.debitTotal key = storage.creditTotal key) (.required "not balanced")

/-- The balance, the transition and its event. -/
def reconcile (keyBytes : List UInt8) (state : Storage × List Event) :
    Except Revert (Storage × List Event) := do
  each (balanceRequire key state.1) sequence.balanceAssertions
  return ({ state.1 with statusOf := Function.update state.1.statusOf key .success },
    state.2 ++ [.reconciled sequence.executionIdentity.procedureNamespace keyBytes])

end Statements

/-! The rails. -/

section Rails

variable (keccak256 sha256 : List UInt8 → Bytes32) (sequence : FinalizedProjectionSequence)
  (guards : String → Acceptances)

structure Progress where
  storage : Storage
  events : List Event
  progress : Bool := false

/-- The postings of a group whose policy's guard has accepted the claim, once. -/
def commitGroup (key claim : Bytes32) (locals : Locals) (state : Progress)
    (group : FinalizedEffectGroupProjection) : Except Revert Progress :=
  if (guards group.guard.policyInputBinding).acceptedExecutionClaim key = claim ∧
      state.storage.committedGroup key group.ordinal = false then do
    let posted ← thread (commitPosting key locals) (state.storage, state.events)
      group.finalizedPostings
    return {
      storage := { posted.1 with
        committedGroup := Function.update posted.1.committedGroup key
          (Function.update (posted.1.committedGroup key) group.ordinal true) }
      events := posted.2
      progress := true }
  else .ok state

def pinClaim (key claim : Bytes32) (state : Progress) : Storage :=
  if state.progress = true ∧ state.storage.keyClaim key = 0 then
    { state.storage with keyClaim := Function.update state.storage.keyClaim key claim }
  else state.storage

def terminal (key : Bytes32) (keyBytes : List UInt8) (state : Storage × List Event) :
    Except Revert (Storage × List Event) :=
  if ∀ group ∈ sequence.effectGroups, state.1.committedGroup key group.ordinal = true then
    reconcile sequence key keyBytes state
  else .ok state

def executeTemporal (storage : Storage) (arguments : List Argument) :
    Except Revert (Storage × List Event) := do
  let params ← compiled (bindParams sequence.values.params arguments)
  let keyBytes ← compiled (stringOf params (uref sequence.executionIdentity.replayKey))
  let key := keccak256 keyBytes
  require (storage.statusOf key ≠ .success) (.required "replay")
  let claim ← executionClaim sha256 sequence params
  require (storage.keyClaim key = 0 ∨ storage.keyClaim key = claim) (.required "claim mismatch")
  let computed ← thread computeStep
    (params, [.trigger sequence.executionIdentity.invokedEvent keyBytes]) sequence.values.computes
  let committed ← thread (commitGroup guards key claim computed.1)
    { storage, events := computed.2 } sequence.effectGroups
  terminal sequence key keyBytes (pinClaim key claim committed, committed.events)

/-- A posting, under its comparison where it has one. -/
def commitGuarded (key : Bytes32) (locals : Locals) (state : Storage × List Event)
    (posting : FinalizedPostingProjection) : Except Revert (Storage × List Event) :=
  match posting.guardKind, posting.comparisonGuard with
  | .comparison, some guard => do
      let held ← compiled (solidityTruth (uintOf locals) guard)
      if held then commitPosting key locals state posting else .ok state
  | _, _ => commitPosting key locals state posting

/-- The guard of the contract, that of its one policy. -/
def singleGuard : Acceptances :=
  match sequence.attestation.policies with
  | policy :: _ => guards policy.inputBinding
  | [] => {}

def executeSingle (storage : Storage) (arguments : List Argument) :
    Except Revert (Storage × List Event) := do
  let params ← compiled (bindParams sequence.values.params arguments)
  let keyBytes ← compiled (stringOf params (uref sequence.executionIdentity.replayKey))
  let key := keccak256 keyBytes
  require (storage.statusOf key = .initial) (.required "replay")
  require (isAccepted (singleGuard sequence guards) key = true) (.required "quorum not accepted")
  let computed ← thread computeStep
    (params, [.trigger sequence.executionIdentity.invokedEvent keyBytes]) sequence.values.computes
  let committed ← thread (commitGuarded key computed.1) (storage, computed.2) sequence.postings
  reconcile sequence key keyBytes committed

/-- The call on the two rails that post what guards have accepted. -/
def execute (storage : Storage) (arguments : List Argument) :
    Except Revert (Storage × List Event) :=
  match sequence.executionMode, sequence.attestationKind with
  | .temporal, .perPolicy => executeTemporal keccak256 sha256 sequence guards storage arguments
  | .effectful, .single => executeSingle keccak256 sequence guards storage arguments
  | _, _ => .error .illTyped

end Rails

end Neutrino.Solidity
