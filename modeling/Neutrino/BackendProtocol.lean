import Neutrino.ProjectionCodec
import Neutrino.CoordinationEnvelope

/-! The frames a core and a backend exchange and the control messages inside them: how each
is read from its payload, and the checks on digests and artifact paths. -/

namespace Neutrino.BackendProtocol

open Checked Projection

def kProtocolMajor : UInt32 := 1

def kProtocolMinor : UInt32 := 0

def kMaximumFramePayload : Nat := 64 * 1024 * 1024

def kMustUnderstand : UInt16 := 1

def kHasTrailingRaw : UInt16 := 2

def kKnownFlags : UInt16 := kMustUnderstand ||| kHasTrailingRaw

def kArtifactEncoding : String := "neutrino.finalized-projection/1"

inductive MessageType
  | hello
  | capabilities
  | emit
  | artifactChunk
  | artifactBytes
  | manifest
  | cancel
  | cancelled
  | error
  | goodbye
  | projectionBytes
  deriving DecidableEq, Repr

inductive Direction
  | coreToBackend
  | backendToCore
  deriving DecidableEq, Repr

def Direction.other : Direction → Direction
  | .coreToBackend => .backendToCore
  | .backendToCore => .coreToBackend

structure Frame where
  messageType : UInt16 := 0
  flags : UInt16 := 0
  payload : List UInt8
  deriving DecidableEq, Repr

structure Hello where
  protocolMajor : UInt32 := kProtocolMajor
  protocolMinorMax : UInt32 := kProtocolMinor
  coreIdentity : String := ""
  deriving DecidableEq, Repr

structure Capabilities where
  protocolMajor : UInt32 := kProtocolMajor
  protocolMinorSelected : UInt32 := kProtocolMinor
  apiVersion : UInt32 := 0
  targetIdentity : String := ""
  targetProfileIdentity : String := ""
  projectionSchemaMin : UInt32 := 0
  projectionSchemaMax : UInt32 := 0
  manifestDigest : String := ""
  features : List String := []
  licenseIdentity : String := ""
  deriving DecidableEq, Repr

structure OutputSpec where
  maxArtifacts : UInt32 := 0
  maxTotalBytes : UInt64 := 0
  pathPrefix : String := ""
  deriving DecidableEq, Repr

structure Emit where
  requestId : UInt64 := 0
  artifactEncoding : String := ""
  artifactByteLen : UInt64 := 0
  artifactDigest : String := ""
  targetProfileIdentity : String := ""
  outputSpec : OutputSpec := {}
  deriving DecidableEq, Repr

structure ArtifactChunk where
  requestId : UInt64 := 0
  path : String := ""
  sequence : UInt32 := 0
  final : Bool := false
  byteLen : UInt32 := 0
  deriving DecidableEq, Repr

structure ManifestArtifact where
  path : String
  sha256 : String
  byteLen : UInt64
  deriving DecidableEq, Repr

structure Manifest where
  requestId : UInt64
  artifacts : List ManifestArtifact
  receiptDigest : String
  deriving DecidableEq, Repr

structure RequestControl where
  requestId : UInt64
  deriving DecidableEq, Repr

structure ErrorMessage where
  requestId : UInt64
  code : String
  stage : String
  diagnostic : String
  retriable : Bool
  deriving DecidableEq, Repr

def protocolFailure (code stage diagnostic : String) : String :=
  code ++ ":" ++ stage ++ ":" ++ diagnostic

def protocolError (diagnostic : String) : String := protocolFailure "E_PROTOCOL" "decode" diagnostic

namespace MessageType

/-- The message types in the order of their numbers on the wire, which start at one. -/
def all : List MessageType :=
  [.hello, .capabilities, .emit, .artifactChunk, .artifactBytes, .manifest, .cancel, .cancelled,
    .error, .goodbye, .projectionBytes]

def number : MessageType → UInt16
  | .hello => 1
  | .capabilities => 2
  | .emit => 3
  | .artifactChunk => 4
  | .artifactBytes => 5
  | .manifest => 6
  | .cancel => 7
  | .cancelled => 8
  | .error => 9
  | .goodbye => 10
  | .projectionBytes => 11

def isRaw (type : MessageType) : Bool := type = .artifactBytes || type = .projectionBytes

end MessageType

namespace Frame

variable (frame : Frame)

/-- The known message type a frame carries. -/
def known : Option MessageType :=
  MessageType.all.find? fun type => type.number == frame.messageType

def mustUnderstand : Bool := frame.flags &&& kMustUnderstand != 0

def hasTrailingRaw : Bool := frame.flags &&& kHasTrailingRaw != 0

end Frame

def frameError (frame : Frame) : Except String Unit := do
  require (frame.payload.length ≤ kMaximumFramePayload)
    (protocolFailure "E_FRAME_LIMIT" "decode" "frame payload exceeds 64 MiB")
  require (frame.flags &&& ~~~kKnownFlags = 0) (protocolError "frame uses reserved flags")

/-! Control payloads. -/

/-- The text of a payload. The JSON reader refuses bytes that are not valid UTF-8. -/
def payloadText (payload : List UInt8) : Option String := String.fromUTF8? ⟨payload.toArray⟩

mutual

def rejectFloatingPoint (path : String) : Json → Except String Unit
  | .number value =>
      require (value.asInteger.isSome ∨ value.asUnsigned.isSome)
        (protocolError (path ++ ": floating-point values are forbidden"))
  | .array elements => rejectFloatingElements path 0 elements
  | .object members => rejectFloatingMembers path members
  | _ => .ok ()

def rejectFloatingElements (path : String) (index : Nat) : List Json → Except String Unit
  | [] => .ok ()
  | element :: rest => do
      rejectFloatingPoint (path ++ "[" ++ toString index ++ "]") element
      rejectFloatingElements path (index + 1) rest

def rejectFloatingMembers (path : String) : List (String × Json) → Except String Unit
  | [] => .ok ()
  | (name, value) :: rest => do
      rejectFloatingPoint (path ++ "." ++ name) value
      rejectFloatingMembers path rest

end

/-- What a required field yields, and how its absence and its wrong type are reported. -/
def required {α : Type} (read : Json → Option α) (expected : String) (object : Json.Object)
    (name : String) : Except String α :=
  match object.get name with
  | none => .error (protocolError ("$." ++ name ++ ": required field is omitted"))
  | some wire =>
      match read wire with
      | none => .error (protocolError ("$." ++ name ++ ": expected " ++ expected))
      | some value => .ok value

/-- A value above what the field's own width holds is not an unsigned integer of that width. -/
def unsignedUpTo (limit : Nat) (wire : Json) : Option UInt64 :=
  wire.asUnsigned.filter fun value => value.toNat ≤ limit

def requiredUInt64 : Json.Object → String → Except String UInt64 :=
  required (unsignedUpTo (2 ^ 64 - 1)) "unsigned integer"

def requiredUInt32 : Json.Object → String → Except String UInt32 :=
  required (fun wire => (unsignedUpTo (2 ^ 32 - 1) wire).map UInt64.toUInt32) "unsigned integer"

def requiredString : Json.Object → String → Except String String :=
  required Json.asString "string"

def requiredBoolean : Json.Object → String → Except String Bool :=
  required Json.asBoolean "bool"

def requiredNestedObject : Json.Object → String → Except String Json.Object :=
  required Json.asObject "object"

def requiredArray : Json.Object → String → Except String (List Json) :=
  required Json.asArray "array"

/-! Digests and paths. -/

def isHexDigit (c : Char) : Bool :=
  c.isDigit || ('a' ≤ c && c ≤ 'f') || ('A' ≤ c && c ≤ 'F')

/-- A digest is `sha256:` before 64 hexadecimal digits, of either letter case. -/
def validDigest (digest : String) : Bool :=
  "sha256:".toList.isPrefixOf digest.toList &&
    ((digest.toList.drop 7).length = 64 && (digest.toList.drop 7).all isHexDigit)

def pathSegments (path : String) : List String :=
  (path.toList.splitOn '/').map String.ofList

def validatePath (path : String) : Except String Unit := do
  require (path ≠ "") (protocolFailure "E_PATH" "write" "artifact path is empty")
  require (path.utf8ByteSize ≤ 4096)
    (protocolFailure "E_PATH" "write" "artifact path exceeds 4096 bytes")
  require (path.toList.head? ≠ some '/')
    (protocolFailure "E_PATH" "write" "artifact path is absolute")
  require (Char.ofNat 0 ∉ path.toList)
    (protocolFailure "E_PATH" "write" "artifact path contains NUL")
  require (path.toList.getLast? ≠ some '/' ∧ ¬['/', '/'] <:+: path.toList)
    (protocolFailure "E_PATH" "write" "artifact path contains an empty segment")
  require (∀ segment ∈ pathSegments path, segment ≠ "" ∧ segment ≠ "." ∧ segment ≠ "..")
    (protocolFailure "E_PATH" "write" "artifact path contains an invalid segment")

def validateArtifactPath (path : String) : Except String Unit := validatePath path

/-- The graph a projection payload holds. -/
def decodeProjectionPayload (text : JsonText) (payload : List UInt8) :
    Except String BackendProjectionGraph :=
  match payloadText payload with
  | none => .error "finalized-projection: payload is not valid UTF-8"
  | some bytes => decodeFinalizedProjection text bytes

/-! Messages. -/

section Messages

variable (text : JsonText) (frame : Frame)

def decodeOwnedControlObject : Except String Json.Object := do
  let parsed ←
    match (payloadText frame.payload).bind fun payload => (text.parse payload).toOption with
    | none => .error (protocolError "control payload is not valid JSON")
    | some parsed => .ok parsed
  rejectFloatingPoint "$" parsed
  require (utf8 (text.compactJson parsed) = frame.payload)
    (protocolError "control payload is not canonical JSON")
  match parsed.asObject with
  | none => .error (protocolError "control payload must be an object")
  | some object => .ok object

def decodeHello : Except String Hello := do
  let object ← decodeOwnedControlObject text frame
  let protocolMajor ← requiredUInt32 object "protocolMajor"
  let protocolMinorMax ← requiredUInt32 object "protocolMinorMax"
  let coreIdentity ← requiredString object "coreIdentity"
  return { protocolMajor, protocolMinorMax, coreIdentity }

def decodeFeature (wire : Json) : Except String String :=
  match wire.asString with
  | none => .error (protocolError "$.features: expected string entries")
  | some feature => .ok feature

def decodeCapabilities : Except String Capabilities := do
  let object ← decodeOwnedControlObject text frame
  let protocolMajor ← requiredUInt32 object "protocolMajor"
  let protocolMinorSelected ← requiredUInt32 object "protocolMinorSelected"
  let apiVersion ← requiredUInt32 object "apiVersion"
  let targetIdentity ← requiredString object "targetIdentity"
  let targetProfileIdentity ← requiredString object "targetProfileIdentity"
  let projectionSchemaMin ← requiredUInt32 object "projectionSchemaMin"
  let projectionSchemaMax ← requiredUInt32 object "projectionSchemaMax"
  let manifestDigest ← requiredString object "manifestDigest"
  let licenseIdentity ← requiredString object "licenseIdentity"
  let features ← collect decodeFeature (← requiredArray object "features")
  return ⟨protocolMajor, protocolMinorSelected, apiVersion, targetIdentity, targetProfileIdentity,
    projectionSchemaMin, projectionSchemaMax, manifestDigest, features, licenseIdentity⟩

def decodeEmit : Except String Emit := do
  let object ← decodeOwnedControlObject text frame
  let requestId ← requiredUInt64 object "requestId"
  let artifactEncoding ← requiredString object "artifactEncoding"
  let artifactByteLen ← requiredUInt64 object "artifactByteLen"
  let artifactDigest ← requiredString object "artifactDigest"
  let targetProfileIdentity ← requiredString object "targetProfileIdentity"
  let output ← requiredNestedObject object "outputSpec"
  let maxArtifacts ← requiredUInt32 output "maxArtifacts"
  let maxTotalBytes ← requiredUInt64 output "maxTotalBytes"
  let pathPrefix ← requiredString output "pathPrefix"
  return ⟨requestId, artifactEncoding, artifactByteLen, artifactDigest, targetProfileIdentity,
    ⟨maxArtifacts, maxTotalBytes, pathPrefix⟩⟩

def decodeArtifactChunk : Except String ArtifactChunk := do
  let object ← decodeOwnedControlObject text frame
  let requestId ← requiredUInt64 object "requestId"
  let path ← requiredString object "path"
  let sequence ← requiredUInt32 object "seq"
  let final ← requiredBoolean object "final"
  let byteLen ← requiredUInt32 object "byteLen"
  return { requestId, path, sequence, final, byteLen }

def decodeManifestArtifact (wire : Json) : Except String ManifestArtifact :=
  match wire.asObject with
  | none => .error (protocolError "$.artifacts: expected object entries")
  | some entry => do
      let path ← requiredString entry "path"
      let sha256 ← requiredString entry "sha256"
      let byteLen ← requiredUInt64 entry "byteLen"
      return { path, sha256, byteLen }

def decodeManifest : Except String Manifest := do
  let object ← decodeOwnedControlObject text frame
  let requestId ← requiredUInt64 object "requestId"
  let wires ← requiredArray object "artifacts"
  let receiptDigest ← requiredString object "receiptDigest"
  let artifacts ← collect decodeManifestArtifact wires
  return { requestId, artifacts, receiptDigest }

def decodeRequestControl : Except String RequestControl := do
  let object ← decodeOwnedControlObject text frame
  let requestId ← requiredUInt64 object "requestId"
  return { requestId }

def validStage (stage : String) : Bool :=
  ["handshake", "decode", "legalize", "render", "write"].contains stage

def decodeErrorMessage : Except String ErrorMessage := do
  let object ← decodeOwnedControlObject text frame
  let requestId ← requiredUInt64 object "requestId"
  let code ← requiredString object "code"
  let stage ← requiredString object "stage"
  let diagnostic ← requiredString object "diagnostic"
  let retriable ← requiredBoolean object "retriable"
  require (code ≠ "" ∧ validStage stage)
    (protocolError "Error carries an empty code or unknown stage")
  return { requestId, code, stage, diagnostic, retriable }

end Messages

end Neutrino.BackendProtocol
