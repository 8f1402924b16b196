import Mathlib
import Neutrino.BackendProtocol

/-! The session automaton both ends of the backend protocol run: one call of `consume` for
each frame that crosses the wire, in either direction. -/

namespace Neutrino.BackendProtocol

open Checked Projection

inductive SessionState
  | init
  | awaitingCapabilities
  | ready
  | emitting
  | cancelling
  | closed
  | failed
  deriving DecidableEq, Repr

/-- The raw frame the last header announced. -/
inductive PendingRaw
  | none
  | projection
  | artifact
  | skipped
  deriving DecidableEq, Repr

structure CompletedArtifact where
  path : String
  bytes : List UInt8
  sha256 : String
  deriving DecidableEq, Repr

structure CompletedEmission where
  requestId : UInt64
  artifacts : List CompletedArtifact
  receiptDigest : String
  deriving DecidableEq, Repr

structure AcceptedEmit where
  request : Emit
  graph : BackendProjectionGraph

/-- The completed artifacts by path, in the order of their paths. -/
abbrev Artifacts := List (String × CompletedArtifact)

def Artifacts.emplace (artifacts : Artifacts) (path : String) (artifact : CompletedArtifact) :
    Artifacts :=
  if artifacts.any fun entry => entry.1 = path then artifacts
  else artifacts.orderedInsert (fun left right => left.1 ≤ right.1) (path, artifact)

structure Session where
  state : SessionState := .init
  pending : PendingRaw := .none
  pendingDirection : Direction := .coreToBackend
  negotiationHello : Hello := {}
  negotiatedCapabilities : Capabilities := {}
  currentEmit : Emit := {}
  currentChunk : ArtifactChunk := {}
  currentPath : String := ""
  nextSequence : UInt32 := 0
  currentBytes : List UInt8 := []
  totalArtifactBytes : UInt64 := 0
  artifacts : Artifacts := []
  accepted : List AcceptedEmit := []
  completed : List CompletedEmission := []
  peerErrors : List ErrorMessage := []

def requireDirection (actual expected : Direction) (message : String) : Except String Unit :=
  require (actual = expected) (protocolError (message ++ " has the wrong direction"))

def requireNoTrailingRaw (frame : Frame) (message : String) : Except String Unit :=
  require (frame.hasTrailingRaw = false)
    (protocolError (message ++ " unexpectedly declares trailing raw bytes"))

def requireTrailingRaw (frame : Frame) (message : String) : Except String Unit :=
  require (frame.hasTrailingRaw = true)
    (protocolError (message ++ " must declare trailing raw bytes"))

namespace Session

def fail (session : Session) : Session := { session with state := .failed }

def resetRequest (session : Session) : Session :=
  { session with
    pending := .none
    currentEmit := {}
    currentChunk := {}
    currentPath := ""
    nextSequence := 0
    currentBytes := []
    totalArtifactBytes := 0
    artifacts := [] }

section Raw

variable (sha256Hex : List UInt8 → String) (text : JsonText) (session : Session) (frame : Frame)

def consumeProjection : Except String Session := do
  require (frame.payload.length = session.currentEmit.artifactByteLen.toNat)
    (protocolFailure "E_ARTIFACT_DIGEST" "decode"
      "projection byte length does not match header")
  require (validDigest session.currentEmit.artifactDigest ∧
      session.currentEmit.artifactDigest = "sha256:" ++ sha256Hex frame.payload)
    (protocolFailure "E_ARTIFACT_DIGEST" "decode" "projection digest does not match header")
  let graph ← (decodeProjectionPayload text frame.payload).mapError
    (protocolFailure "E_ARTIFACT_DECODE" "decode")
  let schemaVersion := graph.schemaVersion.toUInt32
  require (session.negotiatedCapabilities.projectionSchemaMin ≤ schemaVersion ∧
      schemaVersion ≤ session.negotiatedCapabilities.projectionSchemaMax)
    (protocolFailure "E_PROJECTION_SCHEMA" "decode"
      "projection schema is outside package bounds")
  return { session with
    accepted := session.accepted ++ [⟨session.currentEmit, graph⟩]
    pending := .none
    state := .emitting }

/-- The session with a chunk's bytes added. -/
def grow : Session :=
  { session with
    totalArtifactBytes := session.totalArtifactBytes + frame.payload.length.toUInt64
    currentBytes := session.currentBytes ++ frame.payload
    nextSequence := session.nextSequence + 1 }

/-- The session with the open run stored as an artifact. -/
def closeRun : Session :=
  { session with
    artifacts := session.artifacts.emplace session.currentPath
      ⟨session.currentPath, session.currentBytes, "sha256:" ++ sha256Hex session.currentBytes⟩
    currentPath := ""
    currentBytes := []
    nextSequence := 0
    pending := .none }

def exceedsTotalBytes : Bool :=
  frame.payload.length.toUInt64 > session.currentEmit.outputSpec.maxTotalBytes ||
    session.totalArtifactBytes >
      session.currentEmit.outputSpec.maxTotalBytes - frame.payload.length.toUInt64

/-- The bytes are added before the number of artifacts is checked. -/
def consumeArtifactBytes : Session × Option String :=
  if frame.payload.length ≠ session.currentChunk.byteLen.toNat then
    (session, some (protocolFailure "E_PROTOCOL" "write"
      "artifact byte length does not match chunk header"))
  else if session.exceedsTotalBytes frame then
    (session, some (protocolFailure "E_OUTPUT_LIMIT" "write"
      "artifact bytes exceed output limit"))
  else if session.currentChunk.final then
    if session.artifacts.length ≥ session.currentEmit.outputSpec.maxArtifacts.toNat then
      (session.grow frame, some (protocolFailure "E_OUTPUT_LIMIT" "write"
        "artifact count exceeds output limit"))
    else (closeRun sha256Hex (session.grow frame), none)
  else ({ session.grow frame with pending := .none }, none)

def consumePendingRaw (direction : Direction) : Session × Option String :=
  if direction ≠ session.pendingDirection then
    (session, some (protocolError "trailing raw frame has the wrong direction"))
  else if frame.hasTrailingRaw then
    (session, some (protocolError "trailing raw frame declares another raw frame"))
  else
    match session.pending with
    | .none => (session, none)
    | .skipped =>
        if frame.known.any fun type => !type.isRaw then
          (session, some (protocolError "unknown header is not followed by a raw frame"))
        else ({ session with pending := .none }, none)
    | .projection =>
        if frame.known ≠ some .projectionBytes then
          (session, some (protocolError "header is not followed by its required raw frame"))
        else
          match consumeProjection sha256Hex text session frame with
          | .error failure => (session, some failure)
          | .ok after => (after, none)
    | .artifact =>
        if frame.known ≠ some .artifactBytes then
          (session, some (protocolError "header is not followed by its required raw frame"))
        else consumeArtifactBytes sha256Hex session frame

end Raw

section Control

variable (text : JsonText) (session : Session) (direction : Direction) (frame : Frame)

def consumeHello : Except String Session := do
  require (session.state = .init)
    (protocolFailure "E_PROTOCOL" "handshake" "Hello is out of order")
  requireDirection direction .coreToBackend "Hello"
  let hello ← decodeHello text frame
  require (hello.protocolMajor = kProtocolMajor)
    (protocolFailure "E_VERSION" "handshake" "protocol major does not match")
  return { session with negotiationHello := hello, state := .awaitingCapabilities }

def consumeCapabilities : Except String Session := do
  require (session.state = .awaitingCapabilities)
    (protocolFailure "E_PROTOCOL" "handshake" "Capabilities is out of order")
  requireDirection direction .backendToCore "Capabilities"
  let capabilities ← decodeCapabilities text frame
  require (capabilities.protocolMajor = kProtocolMajor ∧
      capabilities.protocolMinorSelected ≤ session.negotiationHello.protocolMinorMax ∧
      capabilities.protocolMinorSelected ≤ kProtocolMinor)
    (protocolFailure "E_VERSION" "handshake" "protocol version cannot be negotiated")
  require (capabilities.projectionSchemaMin ≤ capabilities.projectionSchemaMax)
    (protocolFailure "E_VERSION" "handshake" "projection schema bounds are reversed")
  return { session with negotiatedCapabilities := capabilities, state := .ready }

def consumeEmit : Except String Session := do
  require (session.state = .ready) (protocolError "Emit is out of order")
  requireDirection direction .coreToBackend "Emit"
  let emit ← decodeEmit text frame
  require (emit.requestId ≠ 0) (protocolError "Emit requestId must be nonzero")
  require (emit.artifactEncoding = kArtifactEncoding)
    (protocolFailure "E_ARTIFACT_DECODE" "decode" "unsupported projection artifact encoding")
  require (validDigest emit.artifactDigest)
    (protocolFailure "E_ARTIFACT_DIGEST" "decode" "projection digest is malformed")
  require (emit.targetProfileIdentity = session.negotiatedCapabilities.targetProfileIdentity)
    (protocolFailure "E_PROFILE_MISMATCH" "decode" "target profile identity does not match")
  return { session with
    currentEmit := emit
    pending := .projection
    pendingDirection := direction }

/-- A chunk opens a run at sequence zero or goes on with the open one. -/
def requireContiguous (chunk : ArtifactChunk) : Except String Unit :=
  if session.currentPath = "" then
    require (chunk.sequence = 0)
      (protocolFailure "E_PROTOCOL" "write" "artifact sequence must start at zero")
  else do
    require (chunk.path = session.currentPath)
      (protocolFailure "E_PROTOCOL" "write" "artifact chunk runs are interleaved")
    require (chunk.sequence = session.nextSequence)
      (protocolFailure "E_PROTOCOL" "write" "artifact sequence is not contiguous")

def consumeArtifactChunk : Except String Session := do
  require (session.state = .emitting)
    (protocolFailure "E_PROTOCOL" "write" "ArtifactChunk is out of order")
  requireDirection direction .backendToCore "ArtifactChunk"
  let chunk ← decodeArtifactChunk text frame
  require (chunk.requestId = session.currentEmit.requestId)
    (protocolFailure "E_PROTOCOL" "write" "ArtifactChunk requestId does not match")
  validatePath chunk.path
  require ((session.artifacts.any fun entry => entry.1 = chunk.path) = false)
    (protocolFailure "E_PROTOCOL" "write" "artifact path has multiple chunk runs")
  requireContiguous session chunk
  return { session with
    currentPath := if session.currentPath = "" then chunk.path else session.currentPath
    currentChunk := chunk
    pending := .artifact
    pendingDirection := direction }

/-- Adds an entry's path to those already seen once it names an assembled artifact. -/
def checkManifestEntry (artifacts : Artifacts) (seen : List String) (entry : ManifestArtifact) :
    Except String (List String) := do
  validatePath entry.path
  require (entry.path ∉ seen)
    (protocolFailure "E_PROTOCOL" "write" "Manifest contains a duplicate path")
  match artifacts.lookup entry.path with
  | none =>
      .error (protocolFailure "E_PROTOCOL" "write" "Manifest path set does not match chunks")
  | some assembled => do
      require (validDigest entry.sha256 ∧ entry.sha256 = assembled.sha256)
        (protocolFailure "E_ARTIFACT_DIGEST" "write" "artifact digest does not match chunks")
      require (entry.byteLen.toNat = assembled.bytes.length)
        (protocolFailure "E_PROTOCOL" "write" "artifact length does not match chunks")
      return entry.path :: seen

def consumeManifest : Except String Session := do
  require (session.state = .emitting)
    (protocolFailure "E_PROTOCOL" "write" "Manifest is out of order")
  requireDirection direction .backendToCore "Manifest"
  require (session.currentPath = "")
    (protocolFailure "E_PROTOCOL" "write" "Manifest precedes final artifact chunk")
  let manifest ← decodeManifest text frame
  require (manifest.requestId = session.currentEmit.requestId)
    (protocolFailure "E_PROTOCOL" "write" "Manifest requestId does not match")
  require (validDigest manifest.receiptDigest)
    (protocolFailure "E_ARTIFACT_DIGEST" "write" "receipt digest is malformed")
  let manifestPaths ← thread (checkManifestEntry session.artifacts) [] manifest.artifacts
  require (manifestPaths.length = session.artifacts.length)
    (protocolFailure "E_PROTOCOL" "write" "Manifest path set does not match chunks")
  let emission : CompletedEmission :=
    ⟨manifest.requestId, session.artifacts.map Prod.snd, manifest.receiptDigest⟩
  return { session.resetRequest with
    completed := session.completed ++ [emission]
    state := .ready }

def consumeCancel : Except String Session := do
  require (session.state = .emitting)
    (protocolFailure "E_PROTOCOL" "render" "Cancel is out of order")
  requireDirection direction .coreToBackend "Cancel"
  let cancel ← decodeRequestControl text frame
  require (cancel.requestId = session.currentEmit.requestId)
    (protocolFailure "E_PROTOCOL" "render" "Cancel requestId does not match")
  return { session with state := .cancelling }

def consumeCancelled : Except String Session := do
  require (session.state = .cancelling)
    (protocolFailure "E_PROTOCOL" "render" "Cancelled is out of order")
  requireDirection direction .backendToCore "Cancelled"
  let cancelled ← decodeRequestControl text frame
  require (cancelled.requestId = session.currentEmit.requestId)
    (protocolFailure "E_PROTOCOL" "render" "Cancelled requestId does not match")
  return { session.resetRequest with state := .ready }

/-- An error that answers Hello fails the session, yet the frame itself is accepted. -/
def consumeError : Except String Session := do
  requireDirection direction .backendToCore "Error"
  let message ← decodeErrorMessage text frame
  if session.state = .awaitingCapabilities then
    require (message.requestId = 0)
      (protocolFailure "E_PROTOCOL" "handshake" "pre-request Error uses nonzero requestId")
    return { session with peerErrors := session.peerErrors ++ [message], state := .failed }
  else
    require (session.state = .emitting) (protocolError "Error is out of order")
    require (message.requestId = session.currentEmit.requestId)
      (protocolError "Error requestId does not match")
    return { session.resetRequest with
      peerErrors := session.peerErrors ++ [message]
      state := .ready }

def consumeGoodbye : Except String Session := do
  require (session.state = .ready) (protocolError "Goodbye is out of order")
  requireDirection direction .coreToBackend "Goodbye"
  let _ ← decodeOwnedControlObject text frame
  return { session with state := .closed }

def requireTrailing (type : MessageType) : Except String Unit :=
  match type with
  | .emit => requireTrailingRaw frame "Emit"
  | .artifactChunk => requireTrailingRaw frame "ArtifactChunk"
  | _ => requireNoTrailingRaw frame "control message"

def consumeKnown (type : MessageType) : Except String Session := do
  requireTrailing frame type
  match type with
  | .hello => consumeHello text session direction frame
  | .capabilities => consumeCapabilities text session direction frame
  | .emit => consumeEmit text session direction frame
  | .artifactChunk => consumeArtifactChunk text session direction frame
  | .manifest => consumeManifest text session direction frame
  | .cancel => consumeCancel text session direction frame
  | .cancelled => consumeCancelled text session direction frame
  | .error => consumeError text session direction frame
  | .goodbye => consumeGoodbye text session direction frame
  | .artifactBytes | .projectionBytes => .error (protocolError "lone raw frame")

end Control

section Consume

variable (sha256Hex : List UInt8 → String) (text : JsonText) (session : Session)
  (direction : Direction) (frame : Frame)

/-- The session after a frame, and the error where the frame is rejected. -/
def consume : Session × Option String :=
  if session.state = .failed then (session, some (protocolError "session is failed"))
  else if session.state = .closed then
    (session.fail, some (protocolError "frame follows Goodbye"))
  else
    match frameError frame with
    | .error failure => (session.fail, some failure)
    | .ok () =>
        if session.pending ≠ .none then
          match consumePendingRaw sha256Hex text session frame direction with
          | (after, some failure) => (after.fail, some failure)
          | (after, none) => (after, none)
        else
          match frame.known with
          | none =>
              if frame.mustUnderstand then
                (session.fail, some (protocolError "unknown required message type"))
              else if frame.hasTrailingRaw then
                ({ session with pending := .skipped, pendingDirection := direction }, none)
              else (session, none)
          | some type =>
              if type.isRaw then (session.fail, some (protocolError "lone raw frame"))
              else
                match consumeKnown text session direction frame type with
                | .error failure => (session.fail, some failure)
                | .ok after => (after, none)

def finish : Session × Option String :=
  if session.state = .closed then (session, none)
  else
    (session.fail, some (protocolError
      (if session.pending = .none then "stream ended before Goodbye"
       else "stream ended in a header/raw pair")))

def takeCompletedEmission : Session × Option CompletedEmission :=
  match session.completed with
  | [] => (session, none)
  | first :: rest => ({ session with completed := rest }, some first)

def takeAcceptedEmit : Session × Option AcceptedEmit :=
  match session.accepted with
  | [] => (session, none)
  | first :: rest => ({ session with accepted := rest }, some first)

def takePeerError : Session × Option ErrorMessage :=
  match session.peerErrors with
  | [] => (session, none)
  | first :: rest => ({ session with peerErrors := rest }, some first)

def negotiatedCapabilities? : Option Capabilities :=
  if session.state = .init ∨ session.state = .awaitingCapabilities then none
  else some session.negotiatedCapabilities

end Consume

end Session

end Neutrino.BackendProtocol
