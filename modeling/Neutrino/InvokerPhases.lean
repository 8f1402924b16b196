import Neutrino.BackendInvoker
import Neutrino.FrameTransparency

/-! An invocation as a machine over the reads of the child's stream, and what its sessions have
come to between two reads. -/

namespace Neutrino.BackendInvocation

open Checked Projection BackendProtocol Session Run

abbrev Read := Except String ReadResult

/-- What an invocation does next with the stream: it reads the answer to Hello, the next frame
of the emission or the answer to Cancel, or it has ended. -/
inductive Phase
  | handshake (session : Session) (projectionBytes : List UInt8)
  | emission (session : Session) (projectionBytes : List UInt8)
  | acknowledgement (session : Session)
  | finished (result : Except String Result)

namespace Phase

def session? : Phase → Option Session
  | .handshake session _ | .emission session _ | .acknowledgement session => some session
  | .finished _ => none

/-- Whether the invocation goes on reading after a frame that settles nothing. -/
def Loops : Phase → Prop
  | .handshake _ _ | .acknowledgement _ => False
  | .emission _ _ | .finished _ => True

end Phase

section Machine

variable (sha256Hex : List UInt8 → String) (text : JsonText) (descriptor : Descriptor)
  (options : InvocationOptions) (child : ChildProcess)

def complete (session : Session) (projectionBytes : List UInt8) (completed : CompletedEmission) :
    Except String Result := do
  leave sha256Hex text child session
  return resultOf descriptor options
    (emitMessage sha256Hex descriptor options projectionBytes) completed

def advance : Phase → Read → Phase
  | .handshake session projectionBytes, read =>
      match handshake sha256Hex text child session read with
      | .error failure => .finished (.error failure)
      | .ok answered =>
          match sendEmit sha256Hex text descriptor options child answered projectionBytes with
          | .error failure => .finished (.error failure)
          | .ok emitting => .emission emitting projectionBytes
  | .emission session projectionBytes, read =>
      match receiveFrame sha256Hex text child session read with
      | .error unread =>
          if unread.timedOut = false ∨ session.state ≠ .emitting then
            .finished (.error unread.failure)
          else
            match sendCancel sha256Hex text child options session with
            | .error failure => .finished (.error failure)
            | .ok cancelling => .acknowledgement cancelling
      | .ok after =>
          match after.takePeerError with
          | (after, some message) =>
              .finished (.error (reportPeerError sha256Hex text child after message))
          | (after, none) =>
              match after.takeCompletedEmission with
              | (after, some completed) =>
                  .finished (complete sha256Hex text descriptor options child after
                    projectionBytes completed)
              | (after, none) => .emission after projectionBytes
  | .acknowledgement session, read =>
      .finished (.error (acknowledgement sha256Hex text child session read))
  | .finished result, _ => .finished result

/-- How the invocation ends where the stream ends. -/
def conclude : Phase → Except String Result
  | .handshake _ _ | .emission _ _ => .error (endedEarly child)
  | .acknowledgement session =>
      .error (acknowledgement sha256Hex text child session (.ok .eof))
  | .finished result => result

/-- What an invocation does before its first read. -/
def prepare (graph : BackendProjectionGraph) : Except String (Session × List UInt8) := do
  require (options.requestId ≠ 0) (invocationError "E_PROTOCOL" "requestId must be nonzero")
  require (options.outputSpec.maxArtifacts ≠ 0 ∧ options.outputSpec.maxTotalBytes ≠ 0)
    (invocationError "E_OUTPUT_LIMIT" "output limits must be nonzero")
  require (0 < options.timeout ∧ 0 < options.cancellationGrace)
    (invocationError "E_TIMEOUT" "invocation deadlines must be positive")
  let projectionText ← encodeFinalizedProjection text graph
  let session ← sendHello sha256Hex text options child
  return (session, utf8 projectionText)

def opening (graph : BackendProjectionGraph) : Phase :=
  match prepare sha256Hex text options child graph with
  | .error failure => .finished (.error failure)
  | .ok (session, projectionBytes) => .handshake session projectionBytes

/-- How far an invocation has come once it has read this much. -/
def phaseAfter (graph : BackendProjectionGraph) (reads : List Read) : Phase :=
  run (advance sha256Hex text descriptor options child)
    (opening sha256Hex text options child graph) reads

variable {sha256Hex text descriptor options child} {projectionBytes : List UInt8}

theorem run_finished (result : Except String Result) (reads : List Read) :
    run (advance sha256Hex text descriptor options child) (.finished result) reads =
      .finished result := by
  induction reads with
  | nil => rfl
  | cons read rest ih => exact ih

theorem conclude_acknowledgement (session : Session) (reads : List Read) :
    conclude sha256Hex text child
        (run (advance sha256Hex text descriptor options child) (.acknowledgement session) reads) =
      .error (acknowledgement sha256Hex text child session (reads.head?.getD (.ok .eof))) := by
  cases reads with
  | nil => rfl
  | cons read rest =>
      rw [run_cons, advance, run_finished]
      rfl

theorem conclude_emission (session : Session) (reads : List Read) :
    conclude sha256Hex text child
        (run (advance sha256Hex text descriptor options child)
          (.emission session projectionBytes) reads) =
      (do
        let (session, completed) ← awaitEmission sha256Hex text child options session reads
        complete sha256Hex text descriptor options child session projectionBytes completed) := by
  induction reads generalizing session with
  | nil => rfl
  | cons read rest ih =>
      rw [run_cons, advance, awaitEmission]
      cases receiveFrame sha256Hex text child session read with
      | error unread =>
          by_cases ends : unread.timedOut = false ∨ session.state ≠ .emitting
          · simp only [if_pos ends]
            rw [run_finished]
            rfl
          · simp only [if_neg ends]
            cases sendCancel sha256Hex text child options session with
            | error failure =>
                dsimp only
                rw [run_finished]
                rfl
            | ok cancelling => exact conclude_acknowledgement cancelling rest
      | ok after =>
          dsimp only
          rcases after.takePeerError with ⟨untroubled, _ | message⟩
          · dsimp only
            rcases untroubled.takeCompletedEmission with ⟨taken, _ | completed⟩
            · exact ih taken
            · dsimp only
              rw [run_finished]
              rfl
          · dsimp only
            rw [run_finished]
            rfl

/-- The invocation is the machine run over all the child's reads. -/
theorem invoke_phases (graph : BackendProjectionGraph) :
    invoke sha256Hex text descriptor options (.ok child) graph =
      conclude sha256Hex text child
        (phaseAfter sha256Hex text descriptor options child graph child.reads) := by
  have prepared : invoke sha256Hex text descriptor options (.ok child) graph =
      (do
        let (session, projectionBytes) ← prepare sha256Hex text options child graph
        let answered ←
          handshake sha256Hex text child session (child.reads.head?.getD (.ok .eof))
        let emitting ← sendEmit sha256Hex text descriptor options child answered projectionBytes
        let (session, completed) ←
          awaitEmission sha256Hex text child options emitting child.reads.tail
        complete sha256Hex text descriptor options child session projectionBytes completed) := by
    simp only [invoke, prepare, bind_assoc, pure_bind]
    rfl
  rw [prepared, phaseAfter, opening]
  cases prepare sha256Hex text options child graph with
  | error failure =>
      rw [run_finished]
      rfl
  | ok before =>
      obtain ⟨session, projectionBytes⟩ := before
      cases reads : child.reads with
      | nil => rfl
      | cons read rest =>
          rw [run_cons]
          show _ = conclude sha256Hex text child (run _
            (advance sha256Hex text descriptor options child
              (.handshake session projectionBytes) read) rest)
          rw [advance, ok_bind]
          dsimp only [List.head?_cons, Option.getD_some, List.tail_cons]
          cases handshake sha256Hex text child session read with
          | error failure =>
              rw [run_finished]
              rfl
          | ok answered =>
              rw [ok_bind]
              dsimp only
              cases sendEmit sha256Hex text descriptor options child answered projectionBytes with
              | error failure =>
                  rw [run_finished]
                  rfl
              | ok emitting => exact (conclude_emission emitting rest).symm

end Machine

end Neutrino.BackendInvocation
