import Neutrino.ControlFrames
import Neutrino.JsonExact
import Neutrino.JsonSame

/-! Control messages from their values to their payloads and back. -/

namespace Neutrino.BackendProtocol

open Checked Projection

/-! Control payloads. -/

section Payloads

variable {text : JsonText} {frame : Frame} {object : Json.Object}

/-- A payload that is the canonical text of a value without doubles. -/
structure Canonical (text : JsonText) (payload : List UInt8) (json : Json) : Prop where
  parsed : ∃ bytes, payloadText payload = some bytes ∧ text.parse bytes = .ok json
  integers : rejectFloatingPoint "$" json = .ok ()
  canonical : utf8 (text.compactJson json) = payload

theorem owned_iff : decodeOwnedControlObject text frame = .ok object ↔
    Canonical text frame.payload (.object object) := by
  constructor
  · intro decoded
    unfold decodeOwnedControlObject at decoded
    cases read : payloadText frame.payload with
    | none => simp [read, bind, Except.bind] at decoded
    | some bytes =>
        cases parsed : text.parse bytes with
        | error failure => simp [read, parsed, Except.toOption, bind, Except.bind] at decoded
        | ok json =>
            simp only [read, Option.bind_some, parsed, Except.toOption, ok_bind, check_ok,
              require_ok] at decoded
            obtain ⟨integers, canonical, held⟩ := decoded
            cases json with
            | object members =>
                obtain rfl : members = object := by simpa [Json.asObject] using held
                exact ⟨⟨bytes, read, parsed⟩, integers, canonical⟩
            | _ => simp [Json.asObject] at held
  · rintro ⟨⟨bytes, read, parsed⟩, integers, canonical⟩
    simp only [decodeOwnedControlObject, read, Option.bind_some, parsed, Except.toOption, ok_bind,
      integers, canonical, require, if_true, Json.asObject]

/-- A written object is a canonical payload, of the object as the reader holds it. -/
theorem canonical_written (exact : text.Exact) (whole : Json.Whole (.object object))
    (ordered : Json.Ordered (.object object)) (type : MessageType) (trailingRaw : Bool) :
    Canonical text (writtenFrame text type object trailingRaw).payload
      (.object (Json.heldMembers object)) where
  parsed := ⟨_, payloadText_utf8 _, exact.reads _ whole ordered⟩
  integers := rejectFloatingPoint_whole _ (Json.whole_held whole) "$"
  canonical := congrArg utf8 (exact.prints (.object object))

end Payloads

/-! Required fields. -/

section Fields

variable {object : Json.Object} {name : String}

theorem required_iff {α : Type} {read : Json → Option α} {expected : String} {value : α} :
    required read expected object name = .ok value ↔
      ∃ wire, object.get name = some wire ∧ read wire = some value := by
  unfold required
  cases object.get name with
  | none => simp
  | some wire => cases found : read wire <;> simp [found]

/-- A 32-bit value reads back the same whether it was written signed or unsigned. -/
theorem held_wide (value : UInt32) :
    (uint64Value value.toUInt64).held = (uint32Value value).held := by
  have bound := value.toNat_lt
  have small : value.toNat < 9223372036854775808 := by omega
  simp [uint64Value, uint32Value, Json.held, Json.Number.held, small]

theorem value_of_held {first second : Json.Number} (same : first.held = second.held) :
    first.value = second.value := by
  refine number_compact_inj ?_
  rw [← first.compact_held, same, second.compact_held]

/-- The unsigned integer a number holds, whichever way it is held. -/
theorem asUnsigned_iff {wire : Json} {value : UInt64} :
    wire.asUnsigned = some value ↔ wire.held = (uint64Value value).held := by
  cases wire with
  | number number =>
      simp only [Json.asUnsigned, uint64Value, Json.held, Json.number.injEq]
      cases number with
      | integer signed =>
          simp only [Json.Number.asUnsigned, Option.ite_none_right_eq_some, Option.some.injEq]
          constructor
          · rintro ⟨nonneg, rfl⟩
            have small := signed.toNatClampNeg_lt
            simp only [Json.Number.held, Int64.toNat_toUInt64_of_le nonneg, small, if_true,
              Int64.ofNat_toNatClampNeg signed nonneg]
          · intro same
            have values : (signed.toInt : Rat) = value.toNat := value_of_held same
            have numbers : signed.toInt = value.toNat := by exact_mod_cast values
            have nonneg : 0 ≤ signed := by
              rw [Int64.le_iff_toInt_le, numbers]
              simp
            refine ⟨nonneg, UInt64.toNat_inj.mp ?_⟩
            rw [Int64.toNat_toUInt64_of_le nonneg, Int64.toNatClampNeg, numbers, Int.toNat_natCast]
      | unsigned other =>
          rw [Json.Number.asUnsigned, Option.some.injEq]
          constructor
          · rintro rfl
            rfl
          · intro same
            have values : (other.toNat : Rat) = value.toNat := value_of_held same
            have numbers : other.toNat = value.toNat := by exact_mod_cast values
            exact UInt64.toNat_inj.mp numbers
      | double other =>
          simp only [Json.Number.asUnsigned, Json.Number.held]
          split <;> simp
  | _ => simp [Json.asUnsigned, Json.held, uint64Value]

theorem requiredUInt64_iff {value : UInt64} : requiredUInt64 object name = .ok value ↔
    ∃ wire, object.get name = some wire ∧ (uint64Value value).Carries wire := by
  have within : value.toNat ≤ 18446744073709551615 := by
    have bound := value.toNat_lt
    omega
  rw [requiredUInt64, required_iff]
  refine exists_congr fun wire => and_congr_right fun _ => ?_
  rw [unsignedUpTo, Option.filter_eq_some_iff, asUnsigned_iff]
  simp [uint64Value, Json.Carries, within]

theorem requiredUInt32_iff {value : UInt32} : requiredUInt32 object name = .ok value ↔
    ∃ wire, object.get name = some wire ∧ (uint32Value value).Carries wire := by
  rw [requiredUInt32, required_iff]
  refine exists_congr fun wire => and_congr_right fun _ => ?_
  have carries : (uint32Value value).Carries wire ↔ wire.asUnsigned = some value.toUInt64 := by
    rw [asUnsigned_iff, held_wide]
    rfl
  rw [carries, Option.map_eq_some_iff]
  constructor
  · rintro ⟨wide, read, rfl⟩
    obtain ⟨found, within⟩ := Option.filter_eq_some_iff.mp read
    have bound := of_decide_eq_true within
    rw [found, Option.some.injEq]
    apply UInt64.toNat_inj.mp
    rw [UInt32.toNat_toUInt64, UInt64.toNat_toUInt32]
    omega
  · intro found
    have bound := value.toNat_lt
    refine ⟨value.toUInt64, Option.filter_eq_some_iff.mpr ⟨found, ?_⟩, ?_⟩
    · rw [decide_eq_true_eq, UInt32.toNat_toUInt64]
      omega
    · simp

theorem requiredString_iff {value : String} : requiredString object name = .ok value ↔
    ∃ wire, object.get name = some wire ∧ (Json.string value).Carries wire := by
  rw [requiredString, required_iff]
  refine exists_congr fun wire => and_congr_right fun _ => ?_
  cases wire <;> simp [Json.asString, Json.Carries, Json.held]

theorem requiredBoolean_iff {value : Bool} : requiredBoolean object name = .ok value ↔
    ∃ wire, object.get name = some wire ∧ (Json.boolean value).Carries wire := by
  rw [requiredBoolean, required_iff]
  refine exists_congr fun wire => and_congr_right fun _ => ?_
  cases wire <;> simp [Json.asBoolean, Json.Carries, Json.held]

theorem requiredArray_iff {value : List Json} : requiredArray object name = .ok value ↔
    object.get name = some (.array value) := by
  rw [requiredArray, required_iff]
  constructor
  · rintro ⟨wire, found, read⟩
    cases wire <;> simp_all [Json.asArray]
  · intro found
    exact ⟨_, found, rfl⟩

theorem requiredNestedObject_iff {value : Json.Object} :
    requiredNestedObject object name = .ok value ↔ object.get name = some (.object value) := by
  rw [requiredNestedObject, required_iff]
  constructor
  · rintro ⟨wire, found, read⟩
    cases wire <;> simp_all [Json.asObject]
  · intro found
    exact ⟨_, found, rfl⟩

end Fields

/-! Messages. -/

/-- What a control frame says. -/
inductive ControlMessage
  | hello (message : Hello)
  | capabilities (message : Capabilities)
  | emit (message : Emit)
  | artifactChunk (message : ArtifactChunk)
  | manifest (message : Manifest)
  | cancel (message : RequestControl)
  | cancelled (message : RequestControl)
  | error (message : ErrorMessage)
  | goodbye
  deriving DecidableEq, Repr

/-- The members of the object a message of each type is written as. -/
def MessageType.own : MessageType → List String
  | .hello => ["coreIdentity", "protocolMajor", "protocolMinorMax"]
  | .capabilities =>
      ["apiVersion", "features", "licenseIdentity", "manifestDigest", "projectionSchemaMax",
        "projectionSchemaMin", "protocolMajor", "protocolMinorSelected", "targetIdentity",
        "targetProfileIdentity"]
  | .emit =>
      ["artifactByteLen", "artifactDigest", "artifactEncoding", "outputSpec", "requestId",
        "targetProfileIdentity"]
  | .artifactChunk => ["byteLen", "final", "path", "requestId", "seq"]
  | .manifest => ["artifacts", "receiptDigest", "requestId"]
  | .cancel | .cancelled => ["requestId"]
  | .error => ["code", "diagnostic", "requestId", "retriable", "stage"]
  | .artifactBytes | .projectionBytes | .goodbye => []

namespace ControlMessage

def type : ControlMessage → MessageType
  | hello _ => .hello
  | capabilities _ => .capabilities
  | emit _ => .emit
  | artifactChunk _ => .artifactChunk
  | manifest _ => .manifest
  | cancel _ => .cancel
  | cancelled _ => .cancelled
  | error _ => .error
  | goodbye => .goodbye

/-- The frames of a message; those that announce raw bytes are followed by them. -/
def encode (sha256Hex : List UInt8 → String) (text : JsonText) (bytes : List UInt8) :
    ControlMessage → Except String (List Frame)
  | hello message => ([·]) <$> encodeHello text message
  | capabilities message => ([·]) <$> encodeCapabilities text message
  | emit message => encodeEmit text sha256Hex message bytes
  | artifactChunk message => encodeArtifactChunk text message bytes
  | manifest message => ([·]) <$> encodeManifest text message
  | cancel message => ([·]) <$> encodeCancel text message
  | cancelled message => ([·]) <$> encodeCancelled text message
  | error message => ([·]) <$> encodeError text message
  | goodbye => ([·]) <$> encodeGoodbye text

def decode (text : JsonText) (frame : Frame) : MessageType → Except String ControlMessage
  | .hello => hello <$> decodeHello text frame
  | .capabilities => capabilities <$> decodeCapabilities text frame
  | .emit => emit <$> decodeEmit text frame
  | .artifactChunk => artifactChunk <$> decodeArtifactChunk text frame
  | .manifest => manifest <$> decodeManifest text frame
  | .cancel => cancel <$> decodeRequestControl text frame
  | .cancelled => cancelled <$> decodeRequestControl text frame
  | .error => error <$> decodeErrorMessage text frame
  | .goodbye => (fun _ => goodbye) <$> decodeOwnedControlObject text frame
  | .artifactBytes | .projectionBytes => .error (protocolError "lone raw frame")

/-- The object a message is written as. -/
def object : ControlMessage → Json.Object
  | hello message =>
      [("coreIdentity", .string message.coreIdentity),
        ("protocolMajor", uint32Value message.protocolMajor),
        ("protocolMinorMax", uint32Value message.protocolMinorMax)]
  | capabilities message =>
      [("apiVersion", uint32Value message.apiVersion),
        ("features", .array (message.features.map .string)),
        ("licenseIdentity", .string message.licenseIdentity),
        ("manifestDigest", .string message.manifestDigest),
        ("projectionSchemaMax", uint32Value message.projectionSchemaMax),
        ("projectionSchemaMin", uint32Value message.projectionSchemaMin),
        ("protocolMajor", uint32Value message.protocolMajor),
        ("protocolMinorSelected", uint32Value message.protocolMinorSelected),
        ("targetIdentity", .string message.targetIdentity),
        ("targetProfileIdentity", .string message.targetProfileIdentity)]
  | emit message => emitObject message
  | artifactChunk message =>
      [("byteLen", uint32Value message.byteLen), ("final", .boolean message.final),
        ("path", .string message.path), ("requestId", uint64Value message.requestId),
        ("seq", uint32Value message.sequence)]
  | manifest message =>
      [("artifacts", .array (message.artifacts.map manifestEntry)),
        ("receiptDigest", .string message.receiptDigest),
        ("requestId", uint64Value message.requestId)]
  | cancel message => [("requestId", uint64Value message.requestId)]
  | cancelled message => [("requestId", uint64Value message.requestId)]
  | error message =>
      [("code", .string message.code), ("diagnostic", .string message.diagnostic),
        ("requestId", uint64Value message.requestId), ("retriable", .boolean message.retriable),
        ("stage", .string message.stage)]
  | goodbye => []

/-- What a decoder asks of the values of a message. -/
def Valid : ControlMessage → Prop
  | error message => message.code ≠ "" ∧ validStage message.stage = true
  | _ => True

/-- An object without members outside the message's own, in itself or in its parts. -/
def Owns (message : ControlMessage) (read : Json.Object) : Prop :=
  (Json.object message.object).Within (.object read)

def trailingRaw (message : ControlMessage) : Bool :=
  message.type = .emit || message.type = .artifactChunk

end ControlMessage

/-! What each decoder reads. -/

section Decoders

variable {text : JsonText} {frame : Frame}

theorem decodeHello_iff {message : Hello} : decodeHello text frame = .ok message ↔
    ∃ object, decodeOwnedControlObject text frame = .ok object ∧
      Json.MembersCarried (ControlMessage.hello message).object object := by
  simp only [decodeHello, bind_ok, requiredUInt32_iff, requiredString_iff, pure_ok,
    ControlMessage.object, Json.MembersCarried]
  constructor
  · rintro ⟨object, owned, major, hasMajor, minor, hasMinor, identity, hasIdentity, rfl⟩
    exact ⟨object, owned, hasIdentity, hasMajor, hasMinor, trivial⟩
  · rintro ⟨object, owned, hasIdentity, hasMajor, hasMinor, -⟩
    exact ⟨object, owned, _, hasMajor, _, hasMinor, _, hasIdentity, rfl⟩

theorem decodeFeature_ok {wire : Json} {feature : String} :
    decodeFeature wire = .ok feature ↔ (Json.string feature).Carries wire := by
  cases wire <;> simp [decodeFeature, Json.asString, Json.Carries, Json.held]

theorem carried_collect {α : Type} {read : Json → Except String α} {written : α → Json}
    (reads : ∀ wire value, read wire = .ok value ↔ (written value).Carries wire)
    {wires : List Json} {values : List α} :
    collect read wires = .ok values ↔ Json.AllCarried (values.map written) wires := by
  rw [collect_ok]
  induction wires generalizing values with
  | nil => cases values <;> simp [Json.AllCarried]
  | cons wire rest ih =>
      cases values with
      | nil => simp [Json.AllCarried]
      | cons value others =>
          rw [List.forall₂_cons, ih, reads, List.map_cons, Json.AllCarried]

theorem carries_array {elements : List Json} {wire : Json} : (Json.array elements).Carries wire ↔
    ∃ read, wire = .array read ∧ Json.AllCarried elements read := by
  cases wire <;> simp [Json.Carries, Json.held]

theorem carries_object {members : Json.Object} {wire : Json} :
    (Json.object members).Carries wire ↔
      ∃ read, wire = .object read ∧ Json.MembersCarried members read := by
  cases wire <;> simp [Json.Carries, Json.held]

theorem decodeCapabilities_iff {message : Capabilities} :
    decodeCapabilities text frame = .ok message ↔
      ∃ object, decodeOwnedControlObject text frame = .ok object ∧
        Json.MembersCarried (ControlMessage.capabilities message).object object := by
  simp only [decodeCapabilities, bind_ok, requiredUInt32_iff, requiredString_iff,
    requiredArray_iff, carried_collect fun wire feature => @decodeFeature_ok wire feature, pure_ok,
    ControlMessage.object, Json.MembersCarried, carries_array]
  constructor
  · rintro ⟨object, owned, major, hasMajor, minor, hasMinor, version, hasVersion, target, hasTarget,
      profile, hasProfile, low, hasLow, high, hasHigh, digest, hasDigest, license, hasLicense,
      wires, hasWires, features, hasFeatures, rfl⟩
    exact ⟨object, owned, hasVersion, ⟨_, hasWires, _, rfl, hasFeatures⟩, hasLicense, hasDigest,
      hasHigh, hasLow, hasMajor, hasMinor, hasTarget, hasProfile, trivial⟩
  · rintro ⟨object, owned, hasVersion, ⟨_, hasWires, wires, rfl, hasFeatures⟩, hasLicense, hasDigest,
      hasHigh, hasLow, hasMajor, hasMinor, hasTarget, hasProfile, -⟩
    exact ⟨object, owned, _, hasMajor, _, hasMinor, _, hasVersion, _, hasTarget, _, hasProfile, _,
      hasLow, _, hasHigh, _, hasDigest, _, hasLicense, _, hasWires, _, hasFeatures, rfl⟩

theorem decodeEmit_iff {message : Emit} : decodeEmit text frame = .ok message ↔
    ∃ object, decodeOwnedControlObject text frame = .ok object ∧
      Json.MembersCarried (ControlMessage.emit message).object object := by
  simp only [decodeEmit, bind_ok, requiredUInt32_iff, requiredUInt64_iff, requiredString_iff,
    requiredNestedObject_iff, pure_ok, ControlMessage.object, emitObject, Json.MembersCarried,
    carries_object]
  constructor
  · rintro ⟨object, owned, request, hasRequest, encoding, hasEncoding, byteLen, hasByteLen, digest,
      hasDigest, profile, hasProfile, output, hasOutput, artifacts, hasArtifacts, bytes, hasBytes,
      path, hasPath, rfl⟩
    exact ⟨object, owned, hasByteLen, hasDigest, hasEncoding,
      ⟨_, hasOutput, _, rfl, hasArtifacts, hasBytes, hasPath, trivial⟩, hasRequest, hasProfile,
      trivial⟩
  · rintro ⟨object, owned, hasByteLen, hasDigest, hasEncoding,
      ⟨_, hasOutput, output, rfl, hasArtifacts, hasBytes, hasPath, -⟩, hasRequest, hasProfile, -⟩
    exact ⟨object, owned, _, hasRequest, _, hasEncoding, _, hasByteLen, _, hasDigest, _, hasProfile,
      _, hasOutput, _, hasArtifacts, _, hasBytes, _, hasPath, rfl⟩

theorem decodeArtifactChunk_iff {message : ArtifactChunk} :
    decodeArtifactChunk text frame = .ok message ↔
      ∃ object, decodeOwnedControlObject text frame = .ok object ∧
        Json.MembersCarried (ControlMessage.artifactChunk message).object object := by
  simp only [decodeArtifactChunk, bind_ok, requiredUInt32_iff, requiredUInt64_iff,
    requiredString_iff, requiredBoolean_iff, pure_ok, ControlMessage.object, Json.MembersCarried]
  constructor
  · rintro ⟨object, owned, request, hasRequest, path, hasPath, sequence, hasSequence, final,
      hasFinal, byteLen, hasByteLen, rfl⟩
    exact ⟨object, owned, hasByteLen, hasFinal, hasPath, hasRequest, hasSequence, trivial⟩
  · rintro ⟨object, owned, hasByteLen, hasFinal, hasPath, hasRequest, hasSequence, -⟩
    exact ⟨object, owned, _, hasRequest, _, hasPath, _, hasSequence, _, hasFinal, _, hasByteLen,
      rfl⟩

theorem decodeManifestArtifact_ok {wire : Json} {artifact : ManifestArtifact} :
    decodeManifestArtifact wire = .ok artifact ↔ (manifestEntry artifact).Carries wire := by
  cases wire with
  | object entry =>
      simp only [decodeManifestArtifact, Json.asObject, bind_ok, requiredString_iff,
        requiredUInt64_iff, pure_ok, manifestEntry, Json.Carries, Json.MembersCarried]
      constructor
      · rintro ⟨path, hasPath, digest, hasDigest, byteLen, hasByteLen, rfl⟩
        exact ⟨hasByteLen, hasPath, hasDigest, trivial⟩
      · rintro ⟨hasByteLen, hasPath, hasDigest, -⟩
        exact ⟨_, hasPath, _, hasDigest, _, hasByteLen, rfl⟩
  | _ => simp [decodeManifestArtifact, Json.asObject, manifestEntry, Json.Carries, Json.held]

theorem decodeManifest_iff {message : Manifest} : decodeManifest text frame = .ok message ↔
    ∃ object, decodeOwnedControlObject text frame = .ok object ∧
      Json.MembersCarried (ControlMessage.manifest message).object object := by
  simp only [decodeManifest, bind_ok, requiredUInt64_iff, requiredString_iff, requiredArray_iff,
    carried_collect fun wire artifact => @decodeManifestArtifact_ok wire artifact, pure_ok,
    ControlMessage.object, Json.MembersCarried, carries_array]
  constructor
  · rintro ⟨object, owned, request, hasRequest, wires, hasWires, receipt, hasReceipt, artifacts,
      hasArtifacts, rfl⟩
    exact ⟨object, owned, ⟨_, hasWires, _, rfl, hasArtifacts⟩, hasReceipt, hasRequest, trivial⟩
  · rintro ⟨object, owned, ⟨_, hasWires, wires, rfl, hasArtifacts⟩, hasReceipt, hasRequest, -⟩
    exact ⟨object, owned, _, hasRequest, _, hasWires, _, hasReceipt, _, hasArtifacts, rfl⟩

theorem decodeRequestControl_iff {message : RequestControl} :
    decodeRequestControl text frame = .ok message ↔
      ∃ object, decodeOwnedControlObject text frame = .ok object ∧
        Json.MembersCarried (ControlMessage.cancel message).object object := by
  simp only [decodeRequestControl, bind_ok, requiredUInt64_iff, pure_ok, ControlMessage.object,
    Json.MembersCarried]
  constructor
  · rintro ⟨object, owned, request, hasRequest, rfl⟩
    exact ⟨object, owned, hasRequest, trivial⟩
  · rintro ⟨object, owned, hasRequest, -⟩
    exact ⟨object, owned, _, hasRequest, rfl⟩

theorem decodeErrorMessage_iff {message : ErrorMessage} :
    decodeErrorMessage text frame = .ok message ↔
      (message.code ≠ "" ∧ validStage message.stage) ∧
      ∃ object, decodeOwnedControlObject text frame = .ok object ∧
        Json.MembersCarried (ControlMessage.error message).object object := by
  simp only [decodeErrorMessage, bind_ok, requiredUInt64_iff, requiredString_iff,
    requiredBoolean_iff, require_ok, pure_ok, ControlMessage.object, Json.MembersCarried]
  constructor
  · rintro ⟨object, owned, request, hasRequest, code, hasCode, stage, hasStage, diagnostic,
      hasDiagnostic, retriable, hasRetriable, -, valid, rfl⟩
    exact ⟨valid, object, owned, hasCode, hasDiagnostic, hasRequest, hasRetriable, hasStage,
      trivial⟩
  · rintro ⟨valid, object, owned, hasCode, hasDiagnostic, hasRequest, hasRetriable, hasStage, -⟩
    exact ⟨object, owned, _, hasRequest, _, hasCode, _, hasStage, _, hasDiagnostic, _,
      hasRetriable, (), valid, rfl⟩

end Decoders

namespace ControlMessage

variable {sha256Hex : List UInt8 → String} {text : JsonText} {frame : Frame}
  {message : ControlMessage}

/-- A decoder accepts the canonical objects that have the message's own members, and no other
payload. -/
theorem decode_iff {type : MessageType} : decode text frame type = .ok message ↔
    message.type = type ∧ message.Valid ∧ ∃ object,
      Canonical text frame.payload (.object object) ∧
        (Json.object message.object).Carries (.object object) := by
  simp only [← owned_iff, Json.Carries]
  cases type <;> cases message <;>
    simp [decode, map_ok, ControlMessage.type, Valid, decodeHello_iff, decodeCapabilities_iff,
      decodeEmit_iff, decodeArtifactChunk_iff, decodeManifest_iff, decodeRequestControl_iff,
      decodeErrorMessage_iff, object, Json.MembersCarried]

theorem controlFrame_ok {type : MessageType} {object : Json.Object} {trailingRaw : Bool}
    (written : controlFrame text type object trailingRaw = .ok frame) :
    frame = writtenFrame text type object trailingRaw := by
  obtain ⟨_, _, same⟩ := bind_ok.mp written
  exact (pure_ok.mp same).symm

theorem controlFrame_short {object : Json.Object}
    (short : (text.compactJson (.object object)).utf8ByteSize ≤ kMaximumFramePayload)
    (type : MessageType) (trailingRaw : Bool) : controlFrame text type object trailingRaw =
      .ok (writtenFrame text type object trailingRaw) :=
  bind_ok.mpr ⟨(), frameError_written short type trailingRaw, rfl⟩

/-- An encoder that accepts a message writes its object in the first frame. -/
theorem encode_ok {bytes : List UInt8} {frames : List Frame}
    (encoded : message.encode sha256Hex text bytes = .ok frames) :
    message.Valid ∧ ∃ rest, frames =
      writtenFrame text message.type message.object message.trailingRaw :: rest := by
  have alone : ∀ {type : MessageType} {object : Json.Object},
      ([·]) <$> controlFrame text type object false = .ok frames →
      ∃ rest, frames = writtenFrame text type object false :: rest := by
    intro type object encoded
    obtain ⟨frame, written, same⟩ := map_ok.mp encoded
    exact ⟨[], by rw [← same, controlFrame_ok written]⟩
  cases message with
  | emit message =>
      simp only [encode, encodeEmit, bind_ok, pure_ok] at encoded
      obtain ⟨_, _, _, _, _, _, _, _, _, _, header, written, rfl⟩ := encoded
      exact ⟨trivial, _, by rw [controlFrame_ok written]; rfl⟩
  | artifactChunk message =>
      simp only [encode, encodeArtifactChunk, bind_ok, pure_ok] at encoded
      obtain ⟨_, _, _, _, _, _, header, written, rfl⟩ := encoded
      exact ⟨trivial, _, by rw [controlFrame_ok written]; rfl⟩
  | error message =>
      obtain ⟨frame, written, rfl⟩ := map_ok.mp encoded
      obtain ⟨known, written⟩ := check_ok.mp written
      obtain ⟨code, stage⟩ := require_ok.mp known
      refine ⟨⟨?_, stage⟩, [], by rw [controlFrame_ok written]; rfl⟩
      intro empty
      rw [empty] at code
      exact absurd code (by decide)
  | _ => exact ⟨trivial, alone encoded⟩

theorem whole_object (message : ControlMessage) : Json.Whole (.object message.object) := by
  have features : ∀ features : List String, Json.AllWhole (features.map .string) := by
    intro features
    induction features with
    | nil => trivial
    | cons feature rest ih => exact ⟨trivial, ih⟩
  have artifacts : ∀ artifacts : List ManifestArtifact,
      Json.AllWhole (artifacts.map manifestEntry) := by
    intro artifacts
    induction artifacts with
    | nil => trivial
    | cons artifact rest ih => exact ⟨⟨trivial, trivial, trivial, trivial⟩, ih⟩
  cases message <;>
    simp [object, emitObject, Json.Whole, Json.MembersWhole, uint32Value, uint64Value, features,
      artifacts]

theorem keys_object (message : ControlMessage) :
    message.object.map Prod.fst = message.type.own := by
  cases message <;> rfl

theorem sorted_own (type : MessageType) : type.own.Pairwise (· < ·) := by
  cases type <;> decide

theorem ordered_object (message : ControlMessage) : Json.Ordered (.object message.object) := by
  have features : ∀ features : List String, Json.AllOrdered (features.map .string) := by
    intro features
    induction features with
    | nil => trivial
    | cons feature rest ih => exact ⟨trivial, ih⟩
  have artifacts : ∀ artifacts : List ManifestArtifact,
      Json.AllOrdered (artifacts.map manifestEntry) := by
    have keys : (["byteLen", "path", "sha256"] : List String).Pairwise (· < ·) := by decide
    intro artifacts
    induction artifacts with
    | nil => trivial
    | cons artifact rest ih => exact ⟨⟨keys, trivial, trivial, trivial, trivial⟩, ih⟩
  have output : ∀ output : OutputSpec, Json.Ordered (.object
      [("maxArtifacts", uint32Value output.maxArtifacts),
        ("maxTotalBytes", uint64Value output.maxTotalBytes),
        ("pathPrefix", .string output.pathPrefix)]) := by
    have keys : (["maxArtifacts", "maxTotalBytes", "pathPrefix"] : List String).Pairwise (· < ·) :=
      by decide
    exact fun output => ⟨keys, trivial, trivial, trivial, trivial⟩
  refine And.intro (by rw [keys_object]; exact sorted_own message.type) ?_
  cases message with
  | emit message => exact ⟨trivial, trivial, trivial, output _, trivial, trivial, trivial⟩
  | capabilities message => simp [object, Json.MembersOrdered, Json.Ordered, uint32Value, features]
  | manifest message => exact ⟨artifacts _, trivial, trivial, trivial⟩
  | _ => simp [object, Json.MembersOrdered, Json.Ordered, uint32Value, uint64Value]

/-- The form of the round trip for the printer and reader of this development. -/
theorem decode_compact (valid : message.Valid) :
    decode compactText
      (writtenFrame compactText message.type message.object message.trailingRaw) message.type =
        .ok message := by
  have whole := message.whole_object
  have canonical : Canonical compactText
      (writtenFrame compactText message.type message.object message.trailingRaw).payload
      (.object (Json.heldMembers message.object)) :=
    ⟨⟨_, payloadText_utf8 _, readJson_whole whole⟩,
      rejectFloatingPoint_whole _ (Json.whole_held whole) "$",
      congrArg utf8 (Json.compact_held (.object message.object))⟩
  exact decode_iff.mpr ⟨rfl, valid, _, canonical, Json.carries_held _ message.ordered_object⟩

end ControlMessage

open ControlMessage in
/-- What an encoder writes is read back as the message written; what a decoder accepts is the
canonical text of an object, and that text is told by the message where the object has no
members but the message's own. -/
theorem control_round_trip (sha256Hex : List UInt8 → String) (text : JsonText)
    (exact : text.Exact) :
    (∀ (message : ControlMessage) (bytes : List UInt8) (frames : List Frame),
      message.encode sha256Hex text bytes = .ok frames →
      ∃ header rest, frames = header :: rest ∧ header.known = some message.type ∧
        decode text header message.type = .ok message ∧
        ∃ object, Canonical text header.payload (.object object)) ∧
    (∀ (type : MessageType) (frame : Frame) (message : ControlMessage),
      decode text frame type = .ok message →
      ∃ object, Canonical text frame.payload (.object object)) ∧
    (∀ (type : MessageType) (first second : Frame) (message : ControlMessage)
      (object other : Json.Object),
      decode text first type = .ok message → decode text second type = .ok message →
      Canonical text first.payload (.object object) →
      Canonical text second.payload (.object other) →
      message.Owns object → message.Owns other → first.payload = second.payload) := by
  refine ⟨?_, ?_, ?_⟩
  · intro message bytes frames encoded
    obtain ⟨valid, rest, rfl⟩ := encode_ok encoded
    have canonical := canonical_written exact message.whole_object message.ordered_object
      message.type message.trailingRaw
    have carries := Json.carries_held _ message.ordered_object
    exact ⟨_, rest, rfl, known_written _ _ _ _, decode_iff.mpr ⟨rfl, valid, _, canonical, carries⟩, _,
      canonical⟩
  · intro type frame message decoded
    obtain ⟨_, _, object, canonical, _⟩ := decode_iff.mp decoded
    exact ⟨object, canonical⟩
  · intro type first second message object other decoded decoded' canonical canonical' owns owns'
    have told : ∀ {frame : Frame} {object : Json.Object}, decode text frame type = .ok message →
        Canonical text frame.payload (.object object) → message.Owns object →
        frame.payload = utf8 (text.compactJson (.object message.object)) := by
      intro frame object decoded canonical owns
      obtain ⟨_, _, found, foundCanonical, carries⟩ := decode_iff.mp decoded
      have same : found = object := by
        have here := owned_iff.mpr foundCanonical
        rw [owned_iff.mpr canonical] at here
        exact (Except.ok.inj here).symm
      subst same
      obtain ⟨bytes, -, parsed⟩ := canonical.parsed
      have held := Json.held_of_carries _ _ message.ordered_object (exact.ordered _ _ parsed)
        carries owns
      rw [← canonical.canonical, ← exact.prints, held, exact.prints]
    rw [told decoded canonical owns, told decoded' canonical' owns']

/-- The largest request there is. -/
def lastRequest : RequestControl := ⟨18446744073709551615⟩

theorem encode_last (sha256Hex : List UInt8 → String) :
    (ControlMessage.cancel lastRequest).encode sha256Hex arrangedText [] =
      .ok [writtenFrame arrangedText .cancel (ControlMessage.cancel lastRequest).object false] := by
  have short : (arrangedText.compactJson
      (.object (ControlMessage.cancel lastRequest).object)).utf8ByteSize ≤
        kMaximumFramePayload := by decide +kernel
  have accepted : encodeCancel arrangedText lastRequest =
      .ok (writtenFrame arrangedText .cancel (ControlMessage.cancel lastRequest).object false) :=
    ControlMessage.controlFrame_short short .cancel false
  rw [ControlMessage.encode, accepted]
  rfl

theorem control_round_trip_last : ∃ header rest,
    [writtenFrame arrangedText .cancel (ControlMessage.cancel lastRequest).object false] =
      header :: rest ∧ header.known = some .cancel ∧
    ControlMessage.decode arrangedText header .cancel = .ok (.cancel lastRequest) ∧
    ∃ object, Canonical arrangedText header.payload (.object object) :=
  (control_round_trip (fun _ => "") arrangedText arrangedText_exact).1 (.cancel lastRequest) [] _
    (encode_last _)

end Neutrino.BackendProtocol
