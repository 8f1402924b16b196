import Neutrino.ClaimCalls
import Neutrino.CoordinationEval
import Neutrino.QuorumGates
import Neutrino.SolidityContract

/-! The two rails of an evidence-only coordination: the generated contract's `accept` and the
generated procedure's `execute_`, which record the success of a key that a quorum has accepted. -/

namespace Neutrino.Evidence

open Checked Projection Quorum QuorumGates Solidity

/-! The contract. -/

section Contract

variable (keccak256 : List UInt8 → Bytes32) (sequence : FinalizedProjectionSequence)

/-- Only the parameter of the instance key has a name in the contract. -/
def isKeyParam (param : TypedParamProjection) : Bool :=
  sequence.values.instanceKeyParam.any fun key => key.ordinal = param.ordinal

/-- The arguments of a call that is well typed, with their parameters. -/
def bindArguments : List TypedParamProjection → List Argument →
    Option (List (TypedParamProjection × Argument))
  | [], [] => some []
  | param :: params, argument :: arguments => do
      let bound ← bindParam (solType param.type) argument
      let rest ← bindArguments params arguments
      return (param, bound) :: rest
  | _, _ => none

def keyBytes (bound : List (TypedParamProjection × Argument)) : Option (List UInt8) :=
  match bound.find? fun pair => isKeyParam sequence pair.1 with
  | some (_, .string bytes) => some bytes
  | _ => none

/-- The event of an acceptance. -/
structure Accepted where
  name : String
  key : List UInt8
  deriving DecidableEq, Repr

abbrev Statuses := Bytes32 → Status

def accept (acceptances : Acceptances) (statusOf : Statuses) (arguments : List Argument) :
    Except Revert (Statuses × Accepted) := do
  let bound ← compiled (bindArguments sequence.values.params arguments)
  let keyBytes ← compiled (keyBytes sequence bound)
  let key := keccak256 keyBytes
  require (statusOf key = .initial) (.required "replay")
  require (isAccepted acceptances key = true) (.required "quorum not accepted")
  return (Function.update statusOf key .success,
    ⟨sequence.executionIdentity.procedureNamespace, keyBytes⟩)

end Contract

/-! The procedure. -/

inductive SqlValue
  | bigint (value : Int64)
  | text (value : String)
  deriving DecidableEq, Repr

def sqlArgument (type : Sql.ColumnType) (value : SqlValue) : Option SqlValue :=
  match type, value with
  | .bigint, .bigint value => some (.bigint value)
  | .text, .text value => some (.text value)
  | _, _ => none

structure CoordinationStatus where
  procedure : String
  idempotencyKey : String
  attested : Bool := false
  reconciled : Bool := false
  deriving DecidableEq, Repr

structure Tables where
  coordinationStatus : List CoordinationStatus := []
  quorumAcceptance : List QuorumAcceptance := []

section Procedure

variable (sequence : FinalizedProjectionSequence)

/-- The values of the parameters, by the names of the inputs. -/
def bindValues : List TypedParamProjection → List SqlValue → Option (List (String × SqlValue))
  | [], [] => some []
  | param :: params, value :: values => do
      let bound ← sqlArgument (Sql.sqlType param.type) value
      let rest ← bindValues params values
      return (param.name, bound) :: rest
  | _, _ => none

def keyText (bound : List (String × SqlValue)) : Option String :=
  match bound.lookup sequence.executionIdentity.replayKey with
  | some (.text value) => some value
  | _ => none

/-- What only a call of declared types has. -/
def declaredTypes {α : Type} (value : Option α) : Except String α :=
  match value with
  | some value => .ok value
  | none => .error "function does not exist"

def isRecorded (rows : List QuorumAcceptance) (procedure key : String) : Bool :=
  rows.any fun row => row.claimId = key && row.procedure = procedure

def execute (tables : Tables) (values : List SqlValue) : Except String Tables := do
  let bound ← declaredTypes (bindValues sequence.values.params values)
  let key ← declaredTypes (keyText sequence bound)
  let procedure := sequence.executionIdentity.procedureNamespace
  require (¬isRecorded tables.quorumAcceptance procedure key = false) "quorum not accepted"
  -- A row that is there already conflicts, and then none is inserted.
  require (¬tables.coordinationStatus.any fun row =>
    row.procedure = procedure && row.idempotencyKey = key) "replay"
  return { tables with
    coordinationStatus := tables.coordinationStatus ++
      [{ procedure, idempotencyKey := key, reconciled := true }] }

end Procedure

end Neutrino.Evidence
