import Neutrino.ControlFrames
import Neutrino.BackendSession

/-! One invocation of a backend: the handshake, the request and the loop that reads the answer,
over what the reads of the child's stream return one after the other. -/

namespace Neutrino.BackendInvocation

open Checked Projection BackendProtocol

structure ProjectionSchemaRange where
  min : UInt32 := 0
  max : UInt32 := 0
  deriving DecidableEq, Repr

/-- What of a package descriptor an invocation compares and records. -/
structure Descriptor where
  targetIdentity : String
  protocolMajor : UInt32 := 0
  protocolMinor : UInt32 := 0
  apiVersion : UInt32 := 0
  targetProfileIdentity : String
  projectionSchema : ProjectionSchemaRange := {}
  capabilities : List String := []
  licenseIdentity : String := ""
  manifestDigest : String
  deriving DecidableEq, Repr

/-- The deadlines are in milliseconds. -/
structure InvocationOptions where
  requestId : UInt64 := 1
  coreIdentity : String := "neutrino-core"
  outputSpec : OutputSpec := {}
  timeout : Int := 30000
  cancellationGrace : Int := 1000
  deriving DecidableEq, Repr

structure Artifact where
  path : String
  bytes : List UInt8
  sha256 : String
  deriving DecidableEq, Repr

structure Result where
  requestId : UInt64 := 0
  coreIdentity : String
  targetIdentity : String
  targetProfileIdentity : String
  packageManifestDigest : String
  projectionEncoding : String
  projectionByteLen : UInt64 := 0
  projectionDigest : String
  artifacts : List Artifact
  receiptDigest : String
  deriving DecidableEq, Repr

inductive ReadResult
  | frame (frame : Frame)
  | timeout
  | eof

inductive ExitStatus
  | exited (code : Nat)
  | signaled (signal : Nat)
  | other

/-- A child process as an invocation meets it: what its reads return up to the end of the
stream, how each write ends and how the process does. -/
structure ChildProcess where
  reads : List (Except String ReadResult) := []
  sendFrame : Frame → Except String Unit := fun _ => .ok ()
  shutdown : Except String Unit := .ok ()
  waitForExit : Except String ExitStatus := .ok (.exited 0)

def invocationError (code diagnostic : String) : String := code ++ ":invoke:" ++ diagnostic

def requireCleanExit : ExitStatus → Except String Unit
  | .exited code =>
      require (code = 0)
        (invocationError "E_PROCESS_EXIT" ("backend exited with status " ++ toString code))
  | .signaled signal =>
      .error (invocationError "E_PROCESS_EXIT"
        ("backend terminated by signal " ++ toString signal))
  | .other => .error (invocationError "E_PROCESS_EXIT" "backend exited without a terminal status")

def checkCapabilities (descriptor : Descriptor) (capabilities : Capabilities) :
    Except String Unit := do
  require (capabilities.protocolMajor = descriptor.protocolMajor ∧
      capabilities.protocolMinorSelected = descriptor.protocolMinor)
    (invocationError "E_VERSION" "negotiated protocol does not match descriptor")
  require (capabilities.apiVersion = descriptor.apiVersion)
    (invocationError "E_VERSION" "backend API version does not match descriptor")
  require (capabilities.targetIdentity = descriptor.targetIdentity ∧
      capabilities.targetProfileIdentity = descriptor.targetProfileIdentity)
    (invocationError "E_PACKAGE_BINDING" "backend identity does not match descriptor")
  require (capabilities.projectionSchemaMin = descriptor.projectionSchema.min ∧
      capabilities.projectionSchemaMax = descriptor.projectionSchema.max)
    (invocationError "E_VERSION" "backend projection schema range does not match descriptor")
  require (capabilities.manifestDigest = descriptor.manifestDigest)
    (invocationError "E_PACKAGE_BINDING" "backend manifest digest does not match descriptor")
  require (capabilities.features = descriptor.capabilities ∧
      capabilities.licenseIdentity = descriptor.licenseIdentity)
    (invocationError "E_PACKAGE_BINDING" "backend capabilities do not match descriptor")

def peerError (message : ErrorMessage) : String :=
  invocationError message.code (message.stage ++ ":" ++ message.diagnostic)

section Exchange

variable (sha256Hex : List UInt8 → String) (text : JsonText) (child : ChildProcess)
  (session : Session)

def consumeOutgoing (frame : Frame) : Except String Session :=
  match session.consume sha256Hex text .coreToBackend frame with
  | (after, none) => .ok after
  | (_, some failure) => .error failure

def sendOutgoing (frame : Frame) : Except String Session := do
  let after ← consumeOutgoing sha256Hex text session frame
  child.sendFrame frame
  return after

/-- Why no frame was received. -/
structure Unread where
  timedOut : Bool
  failure : String

/-- The error of an invocation whose child has closed its stream. -/
def endedEarly : String :=
  match child.waitForExit with
  | .error failure => failure
  | .ok status =>
      match requireCleanExit status with
      | .error failure => failure
      | .ok () =>
          invocationError "E_PROCESS_EXIT" "backend exited before completing the protocol"

def receiveFrame (read : Except String ReadResult) : Except Unread Session :=
  match read with
  | .error failure => .error ⟨false, failure⟩
  | .ok .timeout => .error ⟨true, invocationError "E_TIMEOUT" "backend response timed out"⟩
  | .ok .eof => .error ⟨false, endedEarly child⟩
  | .ok (.frame frame) =>
      match session.consume sha256Hex text .backendToCore frame with
      | (after, none) => .ok after
      | (_, some failure) => .error ⟨false, failure⟩

def sendGoodbye : Except String Unit := do
  let goodbye ← encodeGoodbye text
  let after ← sendOutgoing sha256Hex text child session goodbye
  child.shutdown
  match after.finish with
  | (_, none) => return ()
  | (_, some failure) => .error failure

/-- Says goodbye and waits for the child to end. -/
def leave : Except String Unit := do
  sendGoodbye sha256Hex text child session
  let status ← child.waitForExit
  requireCleanExit status

end Exchange

section Stages

variable (sha256Hex : List UInt8 → String) (text : JsonText) (child : ChildProcess)
  (options : InvocationOptions)

/-- What the first frame read must be: the one that answers Hello. -/
def handshake (session : Session) (read : Except String ReadResult) : Except String Session :=
  match receiveFrame sha256Hex text child session read with
  | .error unread => .error unread.failure
  | .ok after =>
      match after.takePeerError with
      | (_, some message) => .error (peerError message)
      | (after, none) =>
          if (after.negotiatedCapabilities?).isSome then .ok after
          else .error (invocationError "E_PROTOCOL" "backend did not complete the handshake")

/-- What the frame read after Cancel must be: the one that acknowledges it. -/
def acknowledgement (session : Session) (read : Except String ReadResult) : String :=
  match receiveFrame sha256Hex text child session read with
  | .error unread =>
      invocationError "E_TIMEOUT"
        (if unread.timedOut then "backend ignored cancellation after timeout"
         else "backend failed during cancellation")
  | .ok after =>
      if after.state ≠ .ready then
        invocationError "E_PROTOCOL" "backend did not acknowledge cancellation"
      else
        match leave sha256Hex text child after with
        | .error failure => failure
        | .ok () => invocationError "E_TIMEOUT" "backend invocation timed out and was cancelled"

def sendCancel (session : Session) : Except String Session := do
  let cancel ← encodeCancel text ⟨options.requestId⟩
  sendOutgoing sha256Hex text child session cancel

def reportPeerError (session : Session) (message : ErrorMessage) : String :=
  match leave sha256Hex text child session with
  | .error failure => failure
  | .ok () => peerError message

/-- Reads until the emission is complete; a deadline that passes while the backend still
emits is answered with Cancel. -/
def awaitEmission (session : Session) :
    List (Except String ReadResult) → Except String (Session × CompletedEmission)
  | [] => .error (endedEarly child)
  | read :: rest =>
      match receiveFrame sha256Hex text child session read with
      | .error unread =>
          if unread.timedOut = false ∨ session.state ≠ .emitting then .error unread.failure
          else
            match sendCancel sha256Hex text child options session with
            | .error failure => .error failure
            | .ok cancelling =>
                .error (acknowledgement sha256Hex text child cancelling
                  (rest.head?.getD (.ok .eof)))
      | .ok after =>
          match after.takePeerError with
          | (after, some message) => .error (reportPeerError sha256Hex text child after message)
          | (after, none) =>
              match after.takeCompletedEmission with
              | (after, some completed) => .ok (after, completed)
              | (after, none) => awaitEmission after rest

end Stages

section Invoke

variable (sha256Hex : List UInt8 → String) (text : JsonText) (descriptor : Descriptor)
  (options : InvocationOptions)

def emitMessage (projectionBytes : List UInt8) : Emit where
  requestId := options.requestId
  artifactEncoding := kArtifactEncoding
  artifactByteLen := projectionBytes.length.toUInt64
  artifactDigest := "sha256:" ++ sha256Hex projectionBytes
  targetProfileIdentity := descriptor.targetProfileIdentity
  outputSpec := options.outputSpec

def resultOf (emit : Emit) (completed : CompletedEmission) : Result where
  requestId := completed.requestId
  coreIdentity := options.coreIdentity
  targetIdentity := descriptor.targetIdentity
  targetProfileIdentity := descriptor.targetProfileIdentity
  packageManifestDigest := descriptor.manifestDigest
  projectionEncoding := emit.artifactEncoding
  projectionByteLen := emit.artifactByteLen
  projectionDigest := emit.artifactDigest
  artifacts := completed.artifacts.map fun artifact =>
    ⟨artifact.path, artifact.bytes, artifact.sha256⟩
  receiptDigest := completed.receiptDigest

def sendHello (child : ChildProcess) : Except String Session := do
  let helloFrame ← encodeHello text ⟨kProtocolMajor, kProtocolMinor, options.coreIdentity⟩
  sendOutgoing sha256Hex text child {} helloFrame

def sendEmit (child : ChildProcess) (session : Session) (projectionBytes : List UInt8) :
    Except String Session := do
  checkCapabilities descriptor session.negotiatedCapabilities
  let emitFrames ← encodeEmit text sha256Hex
    (emitMessage sha256Hex descriptor options projectionBytes) projectionBytes
  thread (sendOutgoing sha256Hex text child) session emitFrames

def invoke (launched : Except String ChildProcess) (graph : BackendProjectionGraph) :
    Except String Result := do
  require (options.requestId ≠ 0) (invocationError "E_PROTOCOL" "requestId must be nonzero")
  require (options.outputSpec.maxArtifacts ≠ 0 ∧ options.outputSpec.maxTotalBytes ≠ 0)
    (invocationError "E_OUTPUT_LIMIT" "output limits must be nonzero")
  require (0 < options.timeout ∧ 0 < options.cancellationGrace)
    (invocationError "E_TIMEOUT" "invocation deadlines must be positive")
  let projectionText ← encodeFinalizedProjection text graph
  let projectionBytes := utf8 projectionText
  let child ← launched
  let session ← sendHello sha256Hex text options child
  let session ← handshake sha256Hex text child session (child.reads.head?.getD (.ok .eof))
  let session ← sendEmit sha256Hex text descriptor options child session projectionBytes
  let (session, completed) ← awaitEmission sha256Hex text child options session child.reads.tail
  leave sha256Hex text child session
  return resultOf descriptor options
    (emitMessage sha256Hex descriptor options projectionBytes) completed

end Invoke

end Neutrino.BackendInvocation
