import Neutrino.ProjectionShuffle
import Neutrino.WireCodec

/-! The wire codec of finalized projections: the bytes of a verified graph in its order, and a
reading that accepts only those bytes. -/

namespace Neutrino.Projection

open Checked SortOn

def kWireKind : String := "neutrino.finalized-projection/1"

/-! Enumerations. -/

def ExecutionMode.spelling : ExecutionMode → String
  | .evidence => "Evidence"
  | .effectful => "Effectful"
  | .temporal => "Temporal"

instance : Wire ExecutionMode where
  encodeValue value := .string value.spelling
  decodeValue := decodeEnum "ExecutionMode" ExecutionMode.spelling [.evidence, .effectful, .temporal]
  decode_encode value path := by cases value <;> rfl

def LifecycleRole.spelling : LifecycleRole → String
  | .initial => "Initial"
  | .acceptedOrAttested => "AcceptedOrAttested"
  | .success => "Success"

instance : Wire LifecycleRole where
  encodeValue value := .string value.spelling
  decodeValue := decodeEnum "LifecycleRole" LifecycleRole.spelling [.initial, .acceptedOrAttested, .success]
  decode_encode value path := by cases value <;> rfl

def gateModeSpelling : PlanGateMode → String
  | .none => "None"
  | .atomicRefuse => "AtomicRefuse"
  | .temporalSuppress => "TemporalSuppress"

instance : Wire PlanGateMode where
  encodeValue value := .string (gateModeSpelling value)
  decodeValue := decodeEnum "PlanGateMode" gateModeSpelling [.none, .atomicRefuse, .temporalSuppress]
  decode_encode value path := by cases value <;> rfl

def TerminalKind.spelling : TerminalKind → String
  | .none => "None"
  | .success => "Success"
  | .aborted => "Aborted"
  | .contested => "Contested"

instance : Wire TerminalKind where
  encodeValue value := .string value.spelling
  decodeValue := decodeEnum "TerminalKind" TerminalKind.spelling [.none, .success, .aborted, .contested]
  decode_encode value path := by cases value <;> rfl

/-! Nodes and edges, their members in the sorted order the JSON printer gives them. -/

instance : Wire BalanceAssertion where
  encodeValue value := .object [
    ("id", encodeValue value.id),
    ("scope", encodeValue value.scope),
    ("sourceRef", encodeValue value.sourceRef)]
  decodeValue path wire := do
    let object ← expectObject path wire
    let id ← requiredField object path "id"
    let scope ← requiredField object path "scope"
    let sourceRef ← requiredField object path "sourceRef"
    endObject object path 3
    return { id, scope, sourceRef }
  decode_encode value path := by
    simp [expectObject, Json.asObject, ok_bind, requiredField, Json.Object.get, Wire.decode_encode,
      endObject, require]

instance : Wire BalancedEffectGroup where
  encodeValue value := .object [
    ("comparisonGuardExpression", encodeValue value.comparisonGuardExpression),
    ("firstIndex", encodeValue value.firstIndex),
    ("gateMode", encodeValue value.gateMode),
    ("gatePolicy", encodeValue value.gatePolicy),
    ("id", encodeValue value.id),
    ("mustBalance", encodeValue value.mustBalance),
    ("pairing", encodeValue value.pairing),
    ("rollbackRequired", encodeValue value.rollbackRequired),
    ("sourceRef", encodeValue value.sourceRef)]
  decodeValue path wire := do
    let object ← expectObject path wire
    let id ← requiredField object path "id"
    let firstIndex ← requiredField object path "firstIndex"
    let pairing ← requiredField object path "pairing"
    let mustBalance ← requiredField object path "mustBalance"
    let gateMode ← requiredField object path "gateMode"
    let gatePolicy ← requiredField object path "gatePolicy"
    let comparisonGuardExpression ← requiredField object path "comparisonGuardExpression"
    let rollbackRequired ← requiredField object path "rollbackRequired"
    let sourceRef ← requiredField object path "sourceRef"
    endObject object path 9
    return {
      id, firstIndex, pairing, mustBalance, gateMode, gatePolicy, comparisonGuardExpression,
      rollbackRequired, sourceRef }
  decode_encode value path := by
    simp [expectObject, Json.asObject, ok_bind, requiredField, Json.Object.get, Wire.decode_encode,
      endObject, require]

instance : Wire CommitState where
  encodeValue value := .object [
    ("commitScope", encodeValue value.commitScope),
    ("id", encodeValue value.id),
    ("idempotencyKey", encodeValue value.idempotencyKey),
    ("sourceRef", encodeValue value.sourceRef)]
  decodeValue path wire := do
    let object ← expectObject path wire
    let id ← requiredField object path "id"
    let idempotencyKey ← requiredField object path "idempotencyKey"
    let commitScope ← requiredField object path "commitScope"
    let sourceRef ← requiredField object path "sourceRef"
    endObject object path 4
    return { id, idempotencyKey, commitScope, sourceRef }
  decode_encode value path := by
    simp [expectObject, Json.asObject, ok_bind, requiredField, Json.Object.get, Wire.decode_encode,
      endObject, require]

instance : Wire CompensationObligation where
  encodeValue value := .object [
    ("id", encodeValue value.id),
    ("mode", encodeValue value.mode),
    ("sourceRef", encodeValue value.sourceRef)]
  decodeValue path wire := do
    let object ← expectObject path wire
    let id ← requiredField object path "id"
    let mode ← requiredField object path "mode"
    let sourceRef ← requiredField object path "sourceRef"
    endObject object path 3
    return { id, mode, sourceRef }
  decode_encode value path := by
    simp [expectObject, Json.asObject, ok_bind, requiredField, Json.Object.get, Wire.decode_encode,
      endObject, require]

instance : Wire ComputeNode where
  encodeValue value := .object [
    ("bindingValue", encodeValue value.bindingValue),
    ("dtype", encodeValue value.dtype),
    ("exprKind", encodeValue value.exprKind),
    ("expression", encodeValue value.expression),
    ("id", encodeValue value.id),
    ("ordinal", encodeValue value.ordinal),
    ("sourceRef", encodeValue value.sourceRef)]
  decodeValue path wire := do
    let object ← expectObject path wire
    let id ← requiredField object path "id"
    let bindingValue ← requiredField object path "bindingValue"
    let ordinal ← requiredField object path "ordinal"
    let exprKind ← requiredField object path "exprKind"
    let dtype ← requiredField object path "dtype"
    let expression ← requiredField object path "expression"
    let sourceRef ← requiredField object path "sourceRef"
    endObject object path 7
    return { id, bindingValue, ordinal, exprKind, dtype, expression, sourceRef }
  decode_encode value path := by
    simp [expectObject, Json.asObject, ok_bind, requiredField, Json.Object.get, Wire.decode_encode,
      endObject, require]

instance : Wire EvidenceAcceptance where
  encodeValue value := .object [
    ("admissibility", encodeValue value.admissibility),
    ("bindingValue", encodeValue value.bindingValue),
    ("chained", encodeValue value.chained),
    ("id", encodeValue value.id),
    ("sourceRef", encodeValue value.sourceRef),
    ("style", encodeValue value.style)]
  decodeValue path wire := do
    let object ← expectObject path wire
    let id ← requiredField object path "id"
    let bindingValue ← requiredField object path "bindingValue"
    let style ← requiredField object path "style"
    let chained ← requiredField object path "chained"
    let admissibility ← requiredField object path "admissibility"
    let sourceRef ← requiredField object path "sourceRef"
    endObject object path 6
    return { id, bindingValue, style, chained, admissibility, sourceRef }
  decode_encode value path := by
    simp [expectObject, Json.asObject, ok_bind, requiredField, Json.Object.get, Wire.decode_encode,
      endObject, require]

instance : Wire ExecutionClaimInput where
  encodeValue value := .object [
    ("name", encodeValue value.name),
    ("type", encodeValue value.type)]
  decodeValue path wire := do
    let object ← expectObject path wire
    let name ← requiredField object path "name"
    let type ← requiredField object path "type"
    endObject object path 2
    return { name, type }
  decode_encode value path := by
    simp [expectObject, Json.asObject, ok_bind, requiredField, Json.Object.get, Wire.decode_encode,
      endObject, require]

instance : Wire ExecutionIdentity where
  encodeValue value := .object [
    ("claimInputs", encodeValue value.claimInputs),
    ("coordinationIdentity", encodeValue value.coordinationIdentity),
    ("id", encodeValue value.id),
    ("instanceKey", encodeValue value.instanceKey),
    ("invokedEvent", encodeValue value.invokedEvent),
    ("procedureNamespace", encodeValue value.procedureNamespace),
    ("replayKey", encodeValue value.replayKey),
    ("sourceRef", encodeValue value.sourceRef)]
  decodeValue path wire := do
    let object ← expectObject path wire
    let id ← requiredField object path "id"
    let procedureNamespace ← requiredField object path "procedureNamespace"
    let instanceKey ← requiredField object path "instanceKey"
    let replayKey ← requiredField object path "replayKey"
    let invokedEvent ← requiredField object path "invokedEvent"
    let coordinationIdentity ← requiredField object path "coordinationIdentity"
    let claimInputs ← requiredField object path "claimInputs"
    let sourceRef ← requiredField object path "sourceRef"
    endObject object path 8
    return {
      id, procedureNamespace, instanceKey, replayKey, invokedEvent, coordinationIdentity,
      claimInputs, sourceRef }
  decode_encode value path := by
    simp [expectObject, Json.asObject, ok_bind, requiredField, Json.Object.get, Wire.decode_encode,
      endObject, require]

instance : Wire GuardObligation where
  encodeValue value := .object [
    ("applicationMode", encodeValue value.applicationMode),
    ("conditionKind", encodeValue value.conditionKind),
    ("guardKind", encodeValue value.guardKind),
    ("id", encodeValue value.id),
    ("sourceRef", encodeValue value.sourceRef)]
  decodeValue path wire := do
    let object ← expectObject path wire
    let id ← requiredField object path "id"
    let guardKind ← requiredField object path "guardKind"
    let conditionKind ← requiredField object path "conditionKind"
    let applicationMode ← requiredField object path "applicationMode"
    let sourceRef ← requiredField object path "sourceRef"
    endObject object path 5
    return { id, guardKind, conditionKind, applicationMode, sourceRef }
  decode_encode value path := by
    simp [expectObject, Json.asObject, ok_bind, requiredField, Json.Object.get, Wire.decode_encode,
      endObject, require]

instance : Wire LedgerPosting where
  encodeValue value := .object [
    ("amount", encodeValue value.amount),
    ("currency", encodeValue value.currency),
    ("direction", encodeValue value.direction),
    ("effectIndex", encodeValue value.effectIndex),
    ("id", encodeValue value.id),
    ("ledger", encodeValue value.ledger),
    ("memo", encodeValue value.memo),
    ("name", encodeValue value.name),
    ("party", encodeValue value.party),
    ("sourceRef", encodeValue value.sourceRef)]
  decodeValue path wire := do
    let object ← expectObject path wire
    let id ← requiredField object path "id"
    let effectIndex ← requiredField object path "effectIndex"
    let direction ← requiredField object path "direction"
    let name ← requiredField object path "name"
    let ledger ← requiredField object path "ledger"
    let party ← requiredField object path "party"
    let amount ← requiredField object path "amount"
    let currency ← requiredField object path "currency"
    let memo ← requiredField object path "memo"
    let sourceRef ← requiredField object path "sourceRef"
    endObject object path 10
    return { id, effectIndex, direction, name, ledger, party, amount, currency, memo, sourceRef }
  decode_encode value path := by
    simp [expectObject, Json.asObject, ok_bind, requiredField, Json.Object.get, Wire.decode_encode,
      endObject, require]

instance : Wire LifecycleState where
  encodeValue value := .object [
    ("id", encodeValue value.id),
    ("name", encodeValue value.name),
    ("sourceRef", encodeValue value.sourceRef),
    ("terminal", encodeValue value.terminal),
    ("terminalKind", encodeValue value.terminalKind)]
  decodeValue path wire := do
    let object ← expectObject path wire
    let id ← requiredField object path "id"
    let name ← requiredField object path "name"
    let terminal ← requiredField object path "terminal"
    let terminalKind ← requiredField object path "terminalKind"
    let sourceRef ← requiredField object path "sourceRef"
    endObject object path 5
    return { id, name, terminal, terminalKind, sourceRef }
  decode_encode value path := by
    simp [expectObject, Json.asObject, ok_bind, requiredField, Json.Object.get, Wire.decode_encode,
      endObject, require]

instance : Wire PrimitiveObligation where
  encodeValue value := .object [
    ("finalizedKind", encodeValue value.finalizedKind),
    ("id", encodeValue value.id),
    ("sourceRef", encodeValue value.sourceRef),
    ("typedOperands", encodeValue value.typedOperands)]
  decodeValue path wire := do
    let object ← expectObject path wire
    let id ← requiredField object path "id"
    let finalizedKind ← requiredField object path "finalizedKind"
    let typedOperands ← requiredField object path "typedOperands"
    let sourceRef ← requiredField object path "sourceRef"
    endObject object path 4
    return { id, finalizedKind, typedOperands, sourceRef }
  decode_encode value path := by
    simp [expectObject, Json.asObject, ok_bind, requiredField, Json.Object.get, Wire.decode_encode,
      endObject, require]

instance : Wire ProjectedLifecycleRole where
  encodeValue value := .object [
    ("id", encodeValue value.id),
    ("mode", encodeValue value.mode),
    ("role", encodeValue value.role),
    ("sourceRef", encodeValue value.sourceRef),
    ("state", encodeValue value.state)]
  decodeValue path wire := do
    let object ← expectObject path wire
    let id ← requiredField object path "id"
    let mode ← requiredField object path "mode"
    let role ← requiredField object path "role"
    let state ← requiredField object path "state"
    let sourceRef ← requiredField object path "sourceRef"
    endObject object path 5
    return { id, mode, role, state, sourceRef }
  decode_encode value path := by
    simp [expectObject, Json.asObject, ok_bind, requiredField, Json.Object.get, Wire.decode_encode,
      endObject, require]

instance : Wire ProjectionEdge where
  encodeValue value := .object [
    ("from", encodeValue value.from),
    ("name", encodeValue value.name),
    ("sourceRef", encodeValue value.sourceRef),
    ("to", encodeValue value.to)]
  decodeValue path wire := do
    let object ← expectObject path wire
    let «from» ← requiredField object path "from"
    let name ← requiredField object path "name"
    let «to» ← requiredField object path "to"
    let sourceRef ← requiredField object path "sourceRef"
    endObject object path 4
    return { «from», name, «to», sourceRef }
  decode_encode value path := by
    simp [expectObject, Json.asObject, ok_bind, requiredField, Json.Object.get, Wire.decode_encode,
      endObject, require]

instance : Wire QuorumPolicy where
  encodeValue value := .object [
    ("canonicalization", encodeValue value.canonicalization),
    ("fallback", encodeValue value.fallback),
    ("id", encodeValue value.id),
    ("sourceRef", encodeValue value.sourceRef),
    ("threshold", encodeValue value.threshold),
    ("timeout", encodeValue value.timeout)]
  decodeValue path wire := do
    let object ← expectObject path wire
    let id ← requiredField object path "id"
    let threshold ← requiredField object path "threshold"
    let canonicalization ← requiredField object path "canonicalization"
    let timeout ← requiredField object path "timeout"
    let fallback ← requiredField object path "fallback"
    let sourceRef ← requiredField object path "sourceRef"
    endObject object path 6
    return { id, threshold, canonicalization, timeout, fallback, sourceRef }
  decode_encode value path := by
    simp [expectObject, Json.asObject, ok_bind, requiredField, Json.Object.get, Wire.decode_encode,
      endObject, require]

instance : Wire Reference where
  encodeValue value := .object [
    ("bindingValue", encodeValue value.bindingValue),
    ("id", encodeValue value.id),
    ("ref", encodeValue value.ref),
    ("role", encodeValue value.role),
    ("sourceRef", encodeValue value.sourceRef)]
  decodeValue path wire := do
    let object ← expectObject path wire
    let id ← requiredField object path "id"
    let ref ← requiredField object path "ref"
    let role ← requiredField object path "role"
    let bindingValue ← requiredField object path "bindingValue"
    let sourceRef ← requiredField object path "sourceRef"
    endObject object path 5
    return { id, ref, role, bindingValue, sourceRef }
  decode_encode value path := by
    simp [expectObject, Json.asObject, ok_bind, requiredField, Json.Object.get, Wire.decode_encode,
      endObject, require]

instance : Wire Transition where
  encodeValue value := .object [
    ("id", encodeValue value.id),
    ("name", encodeValue value.name),
    ("sourceRef", encodeValue value.sourceRef)]
  decodeValue path wire := do
    let object ← expectObject path wire
    let id ← requiredField object path "id"
    let name ← requiredField object path "name"
    let sourceRef ← requiredField object path "sourceRef"
    endObject object path 3
    return { id, name, sourceRef }
  decode_encode value path := by
    simp [expectObject, Json.asObject, ok_bind, requiredField, Json.Object.get, Wire.decode_encode,
      endObject, require]

instance : Wire TypedOperand where
  encodeValue value := .object [
    ("id", encodeValue value.id),
    ("operandKind", encodeValue value.operandKind),
    ("sourceRef", encodeValue value.sourceRef),
    ("value", encodeValue value.value)]
  decodeValue path wire := do
    let object ← expectObject path wire
    let id ← requiredField object path "id"
    let operandKind ← requiredField object path "operandKind"
    let value ← requiredField object path "value"
    let sourceRef ← requiredField object path "sourceRef"
    endObject object path 4
    return { id, operandKind, value, sourceRef }
  decode_encode value path := by
    simp [expectObject, Json.asObject, ok_bind, requiredField, Json.Object.get, Wire.decode_encode,
      endObject, require]

instance : Wire TypedParam where
  encodeValue value := .object [
    ("bindingValue", encodeValue value.bindingValue),
    ("id", encodeValue value.id),
    ("isInstanceKey", encodeValue value.isInstanceKey),
    ("name", encodeValue value.name),
    ("ordinal", encodeValue value.ordinal),
    ("sourceRef", encodeValue value.sourceRef),
    ("type", encodeValue value.type)]
  decodeValue path wire := do
    let object ← expectObject path wire
    let id ← requiredField object path "id"
    let name ← requiredField object path "name"
    let bindingValue ← requiredField object path "bindingValue"
    let ordinal ← requiredField object path "ordinal"
    let type ← requiredField object path "type"
    let sourceRef ← requiredField object path "sourceRef"
    let isInstanceKey ← requiredField object path "isInstanceKey"
    endObject object path 7
    return { id, name, bindingValue, ordinal, type, sourceRef, isInstanceKey }
  decode_encode value path := by
    simp [expectObject, Json.asObject, ok_bind, requiredField, Json.Object.get, Wire.decode_encode,
      endObject, require]

/-! The wire document. -/

def wireNodes (graph : BackendProjectionGraph) : Json.Object := [
  ("balanceAssertions", encodeValue graph.balanceAssertions),
  ("balancedEffectGroups", encodeValue graph.balancedEffectGroups),
  ("commitStates", encodeValue graph.commitStates),
  ("compensationObligations", encodeValue graph.compensationObligations),
  ("computeNodes", encodeValue graph.computeNodes),
  ("evidenceAcceptances", encodeValue graph.evidenceAcceptances),
  ("executionIdentities", encodeValue graph.executionIdentities),
  ("guardObligations", encodeValue graph.guardObligations),
  ("ledgerPostings", encodeValue graph.ledgerPostings),
  ("lifecycleStates", encodeValue graph.lifecycleStates),
  ("primitiveObligations", encodeValue graph.primitiveObligations),
  ("projectedLifecycleRoles", encodeValue graph.projectedLifecycleRoles),
  ("quorumPolicies", encodeValue graph.quorumPolicies),
  ("references", encodeValue graph.references),
  ("transitions", encodeValue graph.transitions),
  ("typedOperands", encodeValue graph.typedOperands),
  ("typedParams", encodeValue graph.typedParams)]

def wireGraph (graph : BackendProjectionGraph) : Json := .object [
  ("edges", encodeValue graph.edges),
  ("kind", encodeValue kWireKind),
  ("nodes", .object (wireNodes graph)),
  ("schemaVersion", encodeValue graph.schemaVersion)]

def requiredFamily {α : Type} [Wire α] (nodes : Json.Object) (name : String) :
    Except String (List α) :=
  match nodes.get name with
  | some wire => decodeValue ("$.nodes." ++ name) wire
  | none => .error ("$.nodes." ++ name ++ ": required family is omitted")

def requiredNodes (root : Json.Object) : Except String Json.Object :=
  match root.get "nodes" with
  | some wire => expectObject "$.nodes" wire
  | none => .error "$.nodes: required field is omitted"

def decodeGraph (wire : Json) : Except String BackendProjectionGraph :=
  match wire.asObject with
  | none => .error "finalized-projection: root must be an object"
  | some root => do
      let kind : String ← requiredField root "$" "kind"
      require (kind = kWireKind) "finalized-projection: unknown kind"
      let schemaVersion ← requiredField root "$" "schemaVersion"
      require (schemaVersion = kProjectionSchemaVersion)
        "finalized-projection: unsupported schemaVersion"
      let nodes ← requiredNodes root
      let executionIdentities ← requiredFamily nodes "executionIdentities"
      let commitStates ← requiredFamily nodes "commitStates"
      let lifecycleStates ← requiredFamily nodes "lifecycleStates"
      let transitions ← requiredFamily nodes "transitions"
      let projectedLifecycleRoles ← requiredFamily nodes "projectedLifecycleRoles"
      let quorumPolicies ← requiredFamily nodes "quorumPolicies"
      let guardObligations ← requiredFamily nodes "guardObligations"
      let evidenceAcceptances ← requiredFamily nodes "evidenceAcceptances"
      let primitiveObligations ← requiredFamily nodes "primitiveObligations"
      let balancedEffectGroups ← requiredFamily nodes "balancedEffectGroups"
      let ledgerPostings ← requiredFamily nodes "ledgerPostings"
      let balanceAssertions ← requiredFamily nodes "balanceAssertions"
      let compensationObligations ← requiredFamily nodes "compensationObligations"
      let typedOperands ← requiredFamily nodes "typedOperands"
      let typedParams ← requiredFamily nodes "typedParams"
      let references ← requiredFamily nodes "references"
      let computeNodes ← requiredFamily nodes "computeNodes"
      require (nodes.length = 17) "$.nodes: unknown family"
      let edges ← requiredField root "$" "edges"
      require (root.length = 4) "finalized-projection: unknown top-level field"
      return {
        schemaVersion, executionIdentities, commitStates, lifecycleStates, transitions,
        projectedLifecycleRoles, quorumPolicies, guardObligations, evidenceAcceptances,
        primitiveObligations, balancedEffectGroups, ledgerPostings, balanceAssertions,
        compensationObligations, typedOperands, typedParams, references, computeNodes, edges }

theorem decodeGraph_wireGraph {graph : BackendProjectionGraph}
    (current : graph.schemaVersion = kProjectionSchemaVersion) :
    decodeGraph (wireGraph graph) = .ok graph := by
  simp [decodeGraph, wireGraph, wireNodes, Json.asObject, ok_bind, requiredField, requiredFamily,
    requiredNodes, expectObject, Json.Object.get, Wire.decode_encode, require, current]
  rw [← current]

section Codec

variable (text : JsonText)

def encodeFinalizedProjection (graph : BackendProjectionGraph) : Except String String := do
  require (graph.schemaVersion = kProjectionSchemaVersion)
    "finalized-projection: unsupported schemaVersion"
  let ordered ← (verifyAndOrder text graph).mapError fun diagnostic =>
    "finalized-projection: invalid graph: " ++ diagnostic
  return text.compactJson (wireGraph ordered)

/-- Reads the bytes of a graph and accepts them only where encoding it again gives them back. -/
def decodeFinalizedProjection (bytes : String) : Except String BackendProjectionGraph := do
  let wire ← text.parse bytes
  let graph ← decodeGraph wire
  let ordered ← (verifyAndOrder text graph).mapError fun diagnostic =>
    "finalized-projection: invalid graph: " ++ diagnostic
  let canonical ← encodeFinalizedProjection text ordered
  require (bytes = canonical) "finalized-projection: non-canonical encoding"
  return ordered

end Codec

end Neutrino.Projection
