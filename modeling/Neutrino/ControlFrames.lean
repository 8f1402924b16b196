import Neutrino.BackendProtocol
import Neutrino.JsonParse
import Neutrino.Library.HexText

/-! Control messages written: the frames of each message, and what a reader gets back. -/

namespace Neutrino.BackendProtocol

open Checked Projection

/-! Messages as frames. -/

section Encoders

variable (text : JsonText)

def writtenFrame (type : MessageType) (object : Json.Object) (trailingRaw : Bool) : Frame where
  messageType := type.number
  flags := kMustUnderstand ||| if trailingRaw then kHasTrailingRaw else 0
  payload := utf8 (text.compactJson (.object object))

def controlFrame (type : MessageType) (object : Json.Object) (trailingRaw : Bool) :
    Except String Frame := do
  let frame := writtenFrame text type object trailingRaw
  frameError frame
  return frame

def rawFrame (type : MessageType) (payload : List UInt8) : Frame :=
  { messageType := type.number, flags := kMustUnderstand, payload }

/-- A 32-bit value is written as a signed integer. -/
def uint32Value (value : UInt32) : Json := .number (.integer (Int64.ofNat value.toNat))

def uint64Value (value : UInt64) : Json := .number (.unsigned value)

def encodeHello (message : Hello) : Except String Frame :=
  controlFrame text .hello
    [("coreIdentity", .string message.coreIdentity),
      ("protocolMajor", uint32Value message.protocolMajor),
      ("protocolMinorMax", uint32Value message.protocolMinorMax)] false

def encodeCapabilities (message : Capabilities) : Except String Frame :=
  controlFrame text .capabilities
    [("apiVersion", uint32Value message.apiVersion),
      ("features", .array (message.features.map .string)),
      ("licenseIdentity", .string message.licenseIdentity),
      ("manifestDigest", .string message.manifestDigest),
      ("projectionSchemaMax", uint32Value message.projectionSchemaMax),
      ("projectionSchemaMin", uint32Value message.projectionSchemaMin),
      ("protocolMajor", uint32Value message.protocolMajor),
      ("protocolMinorSelected", uint32Value message.protocolMinorSelected),
      ("targetIdentity", .string message.targetIdentity),
      ("targetProfileIdentity", .string message.targetProfileIdentity)] false

def encodeCancel (message : RequestControl) : Except String Frame :=
  controlFrame text .cancel [("requestId", uint64Value message.requestId)] false

def encodeCancelled (message : RequestControl) : Except String Frame :=
  controlFrame text .cancelled [("requestId", uint64Value message.requestId)] false

def encodeGoodbye : Except String Frame := controlFrame text .goodbye [] false

def manifestEntry (artifact : ManifestArtifact) : Json :=
  .object
    [("byteLen", uint64Value artifact.byteLen), ("path", .string artifact.path),
      ("sha256", .string artifact.sha256)]

def encodeManifest (message : Manifest) : Except String Frame :=
  controlFrame text .manifest
    [("artifacts", .array (message.artifacts.map manifestEntry)),
      ("receiptDigest", .string message.receiptDigest),
      ("requestId", uint64Value message.requestId)] false

def localCodes : List String :=
  ["E_VERSION", "E_PROJECTION_SCHEMA", "E_ARTIFACT_DECODE", "E_ARTIFACT_DIGEST",
    "E_PROFILE_MISMATCH", "E_LEGALITY", "E_UNSUPPORTED", "E_RENDER", "E_OUTPUT_LIMIT", "E_PATH",
    "E_FRAME_LIMIT", "E_PROTOCOL"]

def validLocalCode (code : String) : Bool := localCodes.contains code

def encodeError (message : ErrorMessage) : Except String Frame := do
  require (validLocalCode message.code ∧ validStage message.stage)
    (protocolError "Error carries an unknown code or stage")
  controlFrame text .error
    [("code", .string message.code), ("diagnostic", .string message.diagnostic),
      ("requestId", uint64Value message.requestId), ("retriable", .boolean message.retriable),
      ("stage", .string message.stage)] false

def encodeArtifactChunk (message : ArtifactChunk) (bytes : List UInt8) :
    Except String (List Frame) := do
  require (bytes.length ≤ kMaximumFramePayload)
    (protocolFailure "E_FRAME_LIMIT" "write" "artifact payload exceeds 64 MiB")
  require (message.byteLen.toNat = bytes.length)
    (protocolFailure "E_PROTOCOL" "write" "artifact byte length does not match chunk header")
  validatePath message.path
  let header ← controlFrame text .artifactChunk
    [("byteLen", uint32Value message.byteLen), ("final", .boolean message.final),
      ("path", .string message.path), ("requestId", uint64Value message.requestId),
      ("seq", uint32Value message.sequence)] true
  return [header, rawFrame .artifactBytes bytes]

def emitObject (message : Emit) : Json.Object :=
  [("artifactByteLen", uint64Value message.artifactByteLen),
    ("artifactDigest", .string message.artifactDigest),
    ("artifactEncoding", .string message.artifactEncoding),
    ("outputSpec", .object
      [("maxArtifacts", uint32Value message.outputSpec.maxArtifacts),
        ("maxTotalBytes", uint64Value message.outputSpec.maxTotalBytes),
        ("pathPrefix", .string message.outputSpec.pathPrefix)]),
    ("requestId", uint64Value message.requestId),
    ("targetProfileIdentity", .string message.targetProfileIdentity)]

def encodeEmit (sha256Hex : List UInt8 → String) (message : Emit)
    (projectionBytes : List UInt8) : Except String (List Frame) := do
  require (projectionBytes.length ≤ kMaximumFramePayload)
    (protocolFailure "E_FRAME_LIMIT" "decode" "projection payload exceeds 64 MiB")
  require (message.artifactEncoding = kArtifactEncoding)
    (protocolFailure "E_ARTIFACT_DECODE" "decode" "unsupported projection artifact encoding")
  require (message.artifactByteLen.toNat = projectionBytes.length)
    (protocolFailure "E_ARTIFACT_DIGEST" "decode"
      "projection byte length does not match header")
  require (validDigest message.artifactDigest ∧
      message.artifactDigest = "sha256:" ++ sha256Hex projectionBytes)
    (protocolFailure "E_ARTIFACT_DIGEST" "decode" "projection digest does not match header")
  let _ ← (decodeProjectionPayload text projectionBytes).mapError
    (protocolFailure "E_ARTIFACT_DECODE" "decode")
  let header ← controlFrame text .emit (emitObject message) true
  return [header, rawFrame .projectionBytes projectionBytes]

end Encoders

/-! Reading a written control object back. -/

theorem payloadText_utf8 (text : String) : payloadText (utf8 text) = some text := by
  have bytes : (⟨(utf8 text).toArray⟩ : ByteArray) = text.toByteArray := by
    simp [utf8]
  rw [payloadText, bytes, String.fromUTF8?, dif_pos text.isValidUTF8]
  rfl

mutual

theorem rejectFloatingPoint_whole : (json : Json) → json.Whole → (path : String) →
    rejectFloatingPoint path json = .ok ()
  | .null, _, _ | .boolean _, _, _ | .string _, _, _ => rfl
  | .number (.integer value), _, path => by simp [rejectFloatingPoint, Json.Number.asInteger]
  | .number (.unsigned value), _, path => by simp [rejectFloatingPoint, Json.Number.asUnsigned]
  | .array elements, whole, path => by
      rw [rejectFloatingPoint]
      exact rejectFloatingElements_whole elements whole path 0
  | .object members, whole, path => by
      rw [rejectFloatingPoint]
      exact rejectFloatingMembers_whole members whole path

theorem rejectFloatingElements_whole : (elements : List Json) → Json.AllWhole elements →
    (path : String) → (index : Nat) → rejectFloatingElements path index elements = .ok ()
  | [], _, _, _ => rfl
  | element :: rest, whole, path, index => by
      rw [rejectFloatingElements, rejectFloatingPoint_whole element whole.1, ok_bind]
      exact rejectFloatingElements_whole rest whole.2 path (index + 1)

theorem rejectFloatingMembers_whole : (members : List (String × Json)) →
    Json.MembersWhole members → (path : String) → rejectFloatingMembers path members = .ok ()
  | [], _, _ => rfl
  | (name, value) :: rest, whole, path => by
      rw [rejectFloatingMembers, rejectFloatingPoint_whole value whole.1, ok_bind]
      exact rejectFloatingMembers_whole rest whole.2 path

end

/-- A canonical control payload yields the object that was written. -/
theorem decodeOwnedControlObject_written {text : JsonText} {object : Json.Object}
    (reads : text.ReadsBack (.object object)) (integral : Json.Integral (.object object))
    (type : MessageType) (trailingRaw : Bool) :
    decodeOwnedControlObject text (writtenFrame text type object trailingRaw) = .ok object := by
  have parsed : text.parse (text.compactJson (.object object)) = .ok (.object object) := reads
  simp [decodeOwnedControlObject, writtenFrame, payloadText_utf8, parsed, Except.toOption, ok_bind,
    rejectFloatingPoint_whole _ (Json.Integral.whole integral), require, Json.asObject]

theorem compactText_reads {json : Json} (integral : json.Integral) : compactText.ReadsBack json :=
  readJson_compact integral

/-- The form of the lemma above for the printer and reader of this development. -/
theorem decodeOwnedControlObject_compact {object : Json.Object}
    (integral : Json.Integral (.object object)) (type : MessageType) (trailingRaw : Bool) :
    decodeOwnedControlObject compactText (writtenFrame compactText type object trailingRaw) =
      .ok object :=
  decodeOwnedControlObject_written (compactText_reads integral) integral type trailingRaw

theorem known_written (text : JsonText) (type : MessageType) (object : Json.Object)
    (trailingRaw : Bool) : (writtenFrame text type object trailingRaw).known = some type := by
  cases type <;> rfl

theorem trailing_written (text : JsonText) (type : MessageType) (object : Json.Object)
    (trailingRaw : Bool) :
    (writtenFrame text type object trailingRaw).hasTrailingRaw = trailingRaw := by
  have bare : ((kMustUnderstand ||| 0) &&& kHasTrailingRaw != 0) = false := by decide
  have trailing :
      ((kMustUnderstand ||| kHasTrailingRaw) &&& kHasTrailingRaw != 0) = true := by decide
  cases trailingRaw with
  | false => simpa [Frame.hasTrailingRaw, writtenFrame] using bare
  | true => simpa [Frame.hasTrailingRaw, writtenFrame] using trailing

theorem length_utf8 (text : String) : (utf8 text).length = text.utf8ByteSize := rfl

theorem required_ok {α : Type} {read : Json → Option α} {expected name : String}
    {object : Json.Object} {wire : Json} {value : α} (found : object.get name = some wire)
    (reads : read wire = some value) : required read expected object name = .ok value := by
  simp [required, found, reads]

theorem asUnsigned_uint32Value (value : UInt32) :
    (uint32Value value).asUnsigned = some value.toUInt64 := by
  have bound := value.toNat_lt
  have signed : (Int64.ofNat value.toNat).toInt = value.toNat := Int64.toInt_ofNat_of_lt (by omega)
  have nonneg : (0 : Int64) ≤ Int64.ofNat value.toNat := by
    rw [Int64.le_iff_toInt_le, signed]
    simp
  simp only [uint32Value, Json.asUnsigned, Json.Number.asUnsigned, nonneg, if_true,
    Option.some.injEq]
  apply UInt64.toNat_inj.mp
  simp

theorem requiredUInt32_ok (value : UInt32) {object : Json.Object} {name : String}
    (found : object.get name = some (uint32Value value)) :
    requiredUInt32 object name = .ok value := by
  have bound := value.toNat_lt
  have fits : value.toNat ≤ 4294967295 := by omega
  refine required_ok found ?_
  simp [unsignedUpTo, asUnsigned_uint32Value, fits]

theorem requiredUInt64_ok (value : UInt32) {object : Json.Object} {name : String}
    (found : object.get name = some (uint32Value value)) :
    requiredUInt64 object name = .ok value.toUInt64 := by
  have bound := value.toNat_lt
  have fits : value.toNat ≤ 18446744073709551615 := by omega
  refine required_ok found ?_
  simp [unsignedUpTo, asUnsigned_uint32Value, fits]

theorem requiredString_ok (value : String) {object : Json.Object} {name : String}
    (found : object.get name = some (.string value)) : requiredString object name = .ok value :=
  required_ok found rfl

theorem requiredBoolean_ok (value : Bool) {object : Json.Object} {name : String}
    (found : object.get name = some (.boolean value)) : requiredBoolean object name = .ok value :=
  required_ok found rfl

theorem requiredArray_ok (value : List Json) {object : Json.Object} {name : String}
    (found : object.get name = some (.array value)) : requiredArray object name = .ok value :=
  required_ok found rfl

theorem requiredNestedObject_ok (value : Json.Object) {object : Json.Object} {name : String}
    (found : object.get name = some (.object value)) :
    requiredNestedObject object name = .ok value :=
  required_ok found rfl

/-- A written frame of a short object is within the limits of a frame. -/
theorem frameError_written {text : JsonText} {object : Json.Object}
    (short : (text.compactJson (.object object)).utf8ByteSize ≤ kMaximumFramePayload)
    (type : MessageType) (trailingRaw : Bool) :
    frameError (writtenFrame text type object trailingRaw) = .ok () := by
  have flags : ∀ trailing : Bool,
      (kMustUnderstand ||| if trailing then kHasTrailingRaw else 0) &&& ~~~kKnownFlags = 0 := by
    decide
  simp only [frameError, writtenFrame, length_utf8, require, short, if_true, flags trailingRaw]
  rfl

theorem frameError_raw {payload : List UInt8} (short : payload.length ≤ kMaximumFramePayload)
    (type : MessageType) : frameError (rawFrame type payload) = .ok () := by
  have flags : kMustUnderstand &&& ~~~kKnownFlags = 0 := by decide
  simp only [frameError, rawFrame, require, short, if_true, flags]
  rfl

theorem uint32_size (value : UInt32) : (uint32Value value).compact.utf8ByteSize ≤ 40 := by
  have bound := value.toNat_lt
  rw [uint32Value, Json.compact, Json.Number.compact, Int64.toInt_ofNat_of_lt (by omega),
    ← Int.ofNat_eq_natCast, ← String.ofList_toList (s := toString _), String.utf8ByteSize_ofList,
    toString_ofNat]
  have short : (Nat.toDigits 10 value.toNat).length ≤ 10 :=
    (Nat.length_toDigits_le_iff (by decide) (by decide)).mpr (by omega)
  have bytes := HexText.utf8Len_le (Nat.toDigits 10 value.toNat)
  omega

end Neutrino.BackendProtocol
