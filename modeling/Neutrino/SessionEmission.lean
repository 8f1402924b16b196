import Neutrino.ControlFrames
import Neutrino.Library.Run
import Neutrino.SessionScratch
import Neutrino.WireBytes

/-! What a completed emission holds: the artifacts a session hands out are the chunks it
accepted since the emit they answer. -/

namespace Neutrino.BackendProtocol

open Checked Projection

/-! Whole runs. -/

/-- What a caller does with a session. -/
inductive Operation
  | consume (direction : Direction) (frame : Frame)
  | finish
  | takeAcceptedEmit
  | takeCompletedEmission
  | takePeerError

/-- A session with the frames it has accepted and all it has handed out. -/
structure Log where
  session : Session := {}
  frames : List Frame := []
  emits : List AcceptedEmit := []
  emissions : List CompletedEmission := []
  errors : List ErrorMessage := []

namespace Log

variable (sha256Hex : List UInt8 → String) (text : JsonText)

def step (log : Log) : Operation → Log
  | .consume direction frame =>
      match log.session.consume sha256Hex text direction frame with
      | (session, none) => { log with session, frames := log.frames ++ [frame] }
      | (session, some _) => { log with session }
  | .finish => { log with session := log.session.finish.1 }
  | .takeAcceptedEmit =>
      { log with
        session := log.session.takeAcceptedEmit.1
        emits := log.emits ++ log.session.takeAcceptedEmit.2.toList }
  | .takeCompletedEmission =>
      { log with
        session := log.session.takeCompletedEmission.1
        emissions := log.emissions ++ log.session.takeCompletedEmission.2.toList }
  | .takePeerError =>
      { log with
        session := log.session.takePeerError.1
        errors := log.errors ++ log.session.takePeerError.2.toList }

/-- All a session has produced, whether or not it has been taken. -/
def produced (log : Log) : List AcceptedEmit × List CompletedEmission × List ErrorMessage :=
  (log.emits ++ log.session.accepted, log.emissions ++ log.session.completed,
    log.errors ++ log.session.peerErrors)

def after (operations : List Operation) : Log := Run.run (step sha256Hex text) {} operations

/-- A log tracks its session and explains every emission. -/
structure Consistent (log : Log) : Prop where
  tracks : Tracks sha256Hex text log.frames log.session
  explained : ∀ emission ∈ log.produced.2.1, Explained sha256Hex text log.frames emission

variable {sha256Hex text} {log : Log}

/-- Only a frame that is accepted adds to what a session has produced. -/
theorem produced_consume {direction : Direction} {frame : Frame} {after : Session}
    {failure : String}
    (rejected : log.session.consume sha256Hex text direction frame = (after, some failure)) :
    (log.step sha256Hex text (.consume direction frame)).produced = log.produced := by
  obtain ⟨-, accepted, completed, peerErrors⟩ := Session.consume_rejected rejected
  simp [step, rejected, produced, accepted, completed, peerErrors]

/-- Taking from a queue moves its front from the session to the caller. -/
theorem produced_other (log : Log) {operation : Operation}
    (other : ∀ direction frame, operation ≠ .consume direction frame) :
    (log.step sha256Hex text operation).produced = log.produced := by
  cases operation with
  | consume direction frame => exact absurd rfl (other direction frame)
  | finish =>
      simp only [step, Session.finish]
      split <;> rfl
  | takeAcceptedEmit =>
      simp only [step, Session.takeAcceptedEmit, produced]
      split <;> rename_i queue <;> simp [queue]
  | takeCompletedEmission =>
      simp only [step, Session.takeCompletedEmission, produced]
      split <;> rename_i queue <;> simp [queue]
  | takePeerError =>
      simp only [step, Session.takePeerError, produced]
      split <;> rename_i queue <;> simp [queue]

theorem tracks_other (tracks : Tracks sha256Hex text log.frames log.session)
    {operation : Operation} (other : ∀ direction frame, operation ≠ .consume direction frame) :
    (log.step sha256Hex text operation).frames = log.frames ∧
      Tracks sha256Hex text log.frames (log.step sha256Hex text operation).session := by
  cases operation with
  | consume direction frame => exact absurd rfl (other direction frame)
  | finish =>
      refine ⟨rfl, ?_⟩
      simp only [step, Session.finish]
      split
      · exact tracks
      · exact .finished (.inl rfl)
  | takeAcceptedEmit =>
      refine ⟨rfl, ?_⟩
      simp only [step, Session.takeAcceptedEmit]
      split
      · exact tracks
      · exact tracks.queues _ _ _
  | takeCompletedEmission =>
      refine ⟨rfl, ?_⟩
      simp only [step, Session.takeCompletedEmission]
      split
      · exact tracks
      · exact tracks.queues _ _ _
  | takePeerError =>
      refine ⟨rfl, ?_⟩
      simp only [step, Session.takePeerError]
      split
      · exact tracks
      · exact tracks.queues _ _ _

theorem Consistent.start : Consistent sha256Hex text {} where
  tracks := .of_idle (by simp) ⟨rfl, rfl, rfl, rfl, rfl, by simp⟩ (by simp)
  explained := by simp [produced]

theorem Consistent.consume (consistent : Consistent sha256Hex text log) (direction : Direction)
    (frame : Frame) : Consistent sha256Hex text (log.step sha256Hex text (.consume direction frame)) := by
  cases consumed : log.session.consume sha256Hex text direction frame with
  | mk after failure =>
      cases failure with
      | some failure =>
          have same := produced_consume consumed
          refine ⟨?_, same ▸ ?_⟩
          · simp only [step, consumed]
            exact .finished (.inl (Session.consume_rejected consumed).1)
          · simpa only [step, consumed] using consistent.explained
      | none =>
          obtain ⟨reads, accepts⟩ := Session.consume_ok.mp consumed
          have earlier : ∀ emission ∈ log.produced.2.1,
              Explained sha256Hex text (log.frames ++ [frame]) emission :=
            fun emission listed => (consistent.explained emission listed).snoc frame
          constructor
          · simpa only [step, consumed] using consistent.tracks.step reads accepts
          · simp only [step, consumed, produced]
            rcases consistent.tracks.completed accepts with same | ⟨emission, grown, explained⟩
            · rw [same]
              exact earlier
            · rw [grown, ← List.append_assoc]
              intro other listed
              rcases List.mem_append.mp listed with listed | listed
              · exact earlier other listed
              · obtain rfl := List.mem_singleton.mp listed
                exact explained

theorem Consistent.step (consistent : Consistent sha256Hex text log) (operation : Operation) :
    Consistent sha256Hex text (log.step sha256Hex text operation) := by
  by_cases consumes : ∃ direction frame, operation = .consume direction frame
  · obtain ⟨direction, frame, rfl⟩ := consumes
    exact consistent.consume direction frame
  · have other : ∀ direction frame, operation ≠ .consume direction frame :=
      fun direction frame same => consumes ⟨direction, frame, same⟩
    obtain ⟨frames, tracks⟩ := tracks_other consistent.tracks other
    refine ⟨frames ▸ tracks, ?_⟩
    rw [produced_other log other, frames]
    exact consistent.explained

theorem consistent_after (operations : List Operation) :
    Consistent sha256Hex text (after sha256Hex text operations) :=
  Run.run_invariant (Consistent sha256Hex text) (fun _ operation consistent =>
    consistent.step operation) .start operations

/-- A session that has failed or closed stays so and produces nothing more. -/
theorem finished_step (finished : log.session.state = .failed ∨ log.session.state = .closed)
    (operation : Operation) :
    ((log.step sha256Hex text operation).session.state = .failed ∨
      (log.step sha256Hex text operation).session.state = .closed) ∧
    (log.step sha256Hex text operation).produced = log.produced := by
  cases operation with
  | consume direction frame =>
      obtain ⟨failure, rejected⟩ :=
        Session.consume_finished sha256Hex text direction frame finished
      refine ⟨?_, produced_consume rejected⟩
      simp [step, rejected, Session.fail]
  | finish =>
      refine ⟨?_, produced_other log (by simp)⟩
      simp only [step, Session.finish]
      split
      · exact finished
      · exact .inl rfl
  | takeAcceptedEmit =>
      refine ⟨?_, produced_other log (by simp)⟩
      simp only [step, Session.takeAcceptedEmit]
      split <;> exact finished
  | takeCompletedEmission =>
      refine ⟨?_, produced_other log (by simp)⟩
      simp only [step, Session.takeCompletedEmission]
      split <;> exact finished
  | takePeerError =>
      refine ⟨?_, produced_other log (by simp)⟩
      simp only [step, Session.takePeerError]
      split <;> exact finished

theorem finished_run (finished : log.session.state = .failed ∨ log.session.state = .closed)
    (later : List Operation) :
    (Run.run (step sha256Hex text) log later).produced = log.produced := by
  have kept := @Run.run_invariant _ _ (step sha256Hex text)
    (fun other : Log => (other.session.state = .failed ∨ other.session.state = .closed) ∧
      other.produced = log.produced)
    (fun other operation ⟨still, same⟩ =>
      (finished_step still operation).imp id fun produced => produced.trans same)
    log ⟨finished, rfl⟩ later
  exact kept.2

theorem run_runs {sha256Hex : List UInt8 → String} {text : JsonText} {s s' : Session}
    {frames : List (Direction × Frame)} (runs : Session.Runs sha256Hex text s frames s')
    (log : Log) (current : log.session = s) :
    Run.run (step sha256Hex text) log (frames.map fun entry => .consume entry.1 entry.2) =
      { log with session := s', frames := log.frames ++ frames.map Prod.snd } := by
  induction runs generalizing log with
  | nil =>
      subst current
      simp
  | cons reads accepts _ ih =>
      subst current
      rw [List.map_cons, Run.run_cons, step, Session.consume_ok.mpr ⟨reads, accepts⟩]
      simp only
      rw [ih _ rfl]
      simp

end Log

open Log in
/-- Over every run of a session: each emission it hands out answers the last emit accepted
before its manifest with exactly the chunks accepted since; a rejected frame produces nothing;
and after a failure or a Goodbye nothing is produced. -/
theorem emission_integrity (sha256Hex : List UInt8 → String) (text : JsonText)
    (operations : List Operation) :
    (∀ emission ∈ (after sha256Hex text operations).emissions,
      Explained sha256Hex text (after sha256Hex text operations).frames emission) ∧
    (∀ direction frame failed failure,
      (after sha256Hex text operations).session.consume sha256Hex text direction frame =
        (failed, some failure) →
      (after sha256Hex text (operations ++ [.consume direction frame])).produced =
        (after sha256Hex text operations).produced) ∧
    (((after sha256Hex text operations).session.state = .failed ∨
      (after sha256Hex text operations).session.state = .closed) →
      ∀ later, (after sha256Hex text (operations ++ later)).produced =
        (after sha256Hex text operations).produced) := by
  refine ⟨?_, ?_, ?_⟩
  · intro emission listed
    exact (consistent_after operations).explained emission (List.mem_append_left _ listed)
  · intro direction frame failed failure rejected
    rw [after, Run.run_append]
    exact produced_consume rejected
  · intro finished later
    rw [after, Run.run_append]
    exact finished_run finished later

/-! A session over one request, whose only artifact comes in empty chunks: more of them than
their numbers tell apart. -/

/-- Stands in for the hash: a digest of the right form. -/
def zeroDigest (_ : List UInt8) : String := String.ofList (List.replicate 64 '0')

def zeroSha : String := "sha256:" ++ zeroDigest []

def one : Json := uint32Value 1

def zero : Json := uint32Value 0

def helloObject : Json.Object :=
  [("coreIdentity", .string "core"), ("protocolMajor", one), ("protocolMinorMax", zero)]

def helloFrame : Frame := writtenFrame compactText .hello helloObject false

def capabilitiesObject : Json.Object :=
  [("apiVersion", one), ("features", .array []), ("licenseIdentity", .string "license"),
    ("manifestDigest", .string zeroSha), ("projectionSchemaMax", uint32Value 5),
    ("projectionSchemaMin", uint32Value 5), ("protocolMajor", one),
    ("protocolMinorSelected", zero), ("targetIdentity", .string "target"),
    ("targetProfileIdentity", .string "profile")]

def capabilitiesFrame : Frame := writtenFrame compactText .capabilities capabilitiesObject false

def outputObject : Json.Object :=
  [("maxArtifacts", one), ("maxTotalBytes", zero), ("pathPrefix", .string "")]

def requestObject : Json.Object :=
  [("artifactByteLen", uint32Value 2057), ("artifactDigest", .string zeroSha),
    ("artifactEncoding", .string kArtifactEncoding), ("outputSpec", .object outputObject),
    ("requestId", one), ("targetProfileIdentity", .string "profile")]

def requestFrame : Frame := writtenFrame compactText .emit requestObject true

def projectionBytes : List UInt8 := utf8 (wireGraph firstOrder).compact

def projectionFrame : Frame := rawFrame .projectionBytes projectionBytes

def chunkObject (sequence : UInt32) (final : Bool) : Json.Object :=
  [("byteLen", zero), ("final", .boolean final), ("path", .string "a"), ("requestId", one),
    ("seq", uint32Value sequence)]

def chunkFrame (sequence : UInt32) (final : Bool) : Frame :=
  writtenFrame compactText .artifactChunk (chunkObject sequence final) true

def bytesFrame : Frame := rawFrame .artifactBytes []

def entryObject : Json.Object :=
  [("byteLen", zero), ("path", .string "a"), ("sha256", .string zeroSha)]

def manifestObject : Json.Object :=
  [("artifacts", .array [.object entryObject]), ("receiptDigest", .string zeroSha),
    ("requestId", one)]

def manifestFrame : Frame := writtenFrame compactText .manifest manifestObject false

theorem decode_hello : decodeHello compactText helloFrame = .ok ⟨1, 0, "core"⟩ := by
  have integral : Json.Integral (.object helloObject) := by
    simp [helloObject, one, zero, Json.Integral, Json.MembersIntegral, uint32Value]
  have object := decodeOwnedControlObject_compact integral .hello false
  simp (disch := simp [helloObject, Json.Object.get, one, zero]) only [decodeHello, helloFrame,
    object, ok_bind, requiredUInt32_ok 1, requiredUInt32_ok 0, requiredString_ok "core"]
  rfl

def sampleCapabilities : Capabilities :=
  ⟨1, 0, 1, "target", "profile", 5, 5, zeroSha, [], "license"⟩

theorem decode_capabilities :
    decodeCapabilities compactText capabilitiesFrame = .ok sampleCapabilities := by
  have integral : Json.Integral (.object capabilitiesObject) := by
    simp [capabilitiesObject, one, zero, Json.Integral, Json.MembersIntegral, Json.AllIntegral,
      uint32Value]
  have object := decodeOwnedControlObject_compact integral .capabilities false
  simp (disch := simp [capabilitiesObject, Json.Object.get, one, zero]) only
    [decodeCapabilities, capabilitiesFrame, object, ok_bind, requiredUInt32_ok 1,
    requiredUInt32_ok 0, requiredUInt32_ok 5, requiredString_ok "target",
    requiredString_ok "profile", requiredString_ok "license", requiredString_ok zeroSha,
    requiredArray_ok []]
  rfl

def sampleEmit : Emit := ⟨1, kArtifactEncoding, 2057, zeroSha, "profile", ⟨1, 0, ""⟩⟩

theorem decode_request : decodeEmit compactText requestFrame = .ok sampleEmit := by
  have integral : Json.Integral (.object requestObject) := by
    simp [requestObject, outputObject, one, zero, Json.Integral, Json.MembersIntegral,
      uint32Value]
  have object := decodeOwnedControlObject_compact integral .emit true
  have output : outputObject.get "maxTotalBytes" = some (uint32Value 0) := by
    simp [outputObject, Json.Object.get, zero]
  simp (disch := simp [requestObject, Json.Object.get, one, zero]) only [decodeEmit,
    requestFrame, object, ok_bind, requiredUInt64_ok 1, requiredUInt64_ok 2057,
    requiredString_ok zeroSha, requiredString_ok kArtifactEncoding, requiredString_ok "profile",
    requiredNestedObject_ok outputObject, requiredUInt64_ok 0 output]
  rfl

theorem decode_chunk (sequence : UInt32) (final : Bool) :
    decodeArtifactChunk compactText (chunkFrame sequence final) =
      .ok ⟨1, "a", sequence, final, 0⟩ := by
  have integral : Json.Integral (.object (chunkObject sequence final)) := by
    simp [chunkObject, one, zero, Json.Integral, Json.MembersIntegral, uint32Value]
  have object := decodeOwnedControlObject_compact integral .artifactChunk true
  simp (disch := simp [chunkObject, Json.Object.get, one, zero]) only [decodeArtifactChunk,
    chunkFrame, object, ok_bind, requiredUInt64_ok 1, requiredUInt32_ok 0,
    requiredUInt32_ok sequence, requiredString_ok "a", requiredBoolean_ok final]
  rfl

theorem decode_manifest :
    decodeManifest compactText manifestFrame = .ok ⟨1, [⟨"a", zeroSha, 0⟩], zeroSha⟩ := by
  have integral : Json.Integral (.object manifestObject) := by
    simp [manifestObject, entryObject, one, zero, Json.Integral, Json.MembersIntegral,
      Json.AllIntegral, uint32Value]
  have object := decodeOwnedControlObject_compact integral .manifest false
  have entry : decodeManifestArtifact (.object entryObject) = .ok ⟨"a", zeroSha, 0⟩ := by
    simp (disch := simp [entryObject, Json.Object.get, zero]) only [decodeManifestArtifact,
      Json.asObject, ok_bind, requiredString_ok "a", requiredString_ok zeroSha,
      requiredUInt64_ok 0]
    rfl
  simp (disch := simp [manifestObject, Json.Object.get, one]) only [decodeManifest,
    manifestFrame, object, ok_bind, requiredUInt64_ok 1, requiredString_ok zeroSha,
    requiredArray_ok [.object entryObject], collect, entry]
  rfl

theorem wireGraph_integral : (wireGraph firstOrder).Integral := by
  simp [wireGraph, wireNodes, firstOrder, onePosting, encodeValue, Json.Integral, Json.MembersIntegral, Json.AllIntegral]

theorem decode_projection : decodeProjectionPayload compactText projectionBytes = .ok firstOrder := by
  have reads : compactText.ReadsBack (wireGraph firstOrder.order) := by
    rw [firstOrder_ordered]
    exact compactText_reads wireGraph_integral
  have encoded : encodeFinalizedProjection compactText firstOrder = .ok (wireGraph firstOrder).compact := rfl
  rw [decodeProjectionPayload, projectionBytes, payloadText_utf8]
  exact (decode_encode encoded reads).trans (congrArg _ firstOrder_ordered)

theorem size_join (texts : List String) :
    (String.join texts).utf8ByteSize = (texts.map String.utf8ByteSize).sum := by
  induction texts with
  | nil => rfl
  | cons text rest ih => simp [String.join_cons, ih]

theorem size_quote (text : String) : (quote text).utf8ByteSize =
    (text.toList.map fun c => (quoteChar c).utf8ByteSize).sum + 2 := by
  have mark : "\"".utf8ByteSize = 1 := by decide
  rw [quote, String.utf8ByteSize_append, String.utf8ByteSize_append, size_join, List.map_map, mark]
  simp only [Function.comp_def]
  omega

theorem projectionBytes_length : projectionBytes.length = 2057 := by
  rw [projectionBytes, length_utf8]
  -- The texts are spelled out first: the kernel is slow to take a literal apart.
  simp only [wireGraph, wireNodes, firstOrder, onePosting, effectEdge, otherEffectEdge, kWireKind,
    encodeValue, List.map_cons, List.map_nil, List.cons_append, List.nil_append, Json.compact,
    Json.compactElements, Json.compactMembers, String.utf8ByteSize_append, size_quote,
    String.reduceToList]
  decide +kernel

/-- The text of a chunk header up to its sequence number. -/
def chunkText (final : Bool) : String :=
  "\x7b" ++ (quote "byteLen" ++ (":" ++ (zero.compact ++ ("," ++ (quote "final" ++ (":" ++
    ((Json.boolean final).compact ++ ("," ++ (quote "path" ++ (":" ++ ((Json.string "a").compact ++
    ("," ++ (quote "requestId" ++ (":" ++ (one.compact ++ ("," ++ (quote "seq" ++ ":")))))))))))))))))

theorem compact_chunk (sequence : UInt32) (final : Bool) :
    Json.compact (.object (chunkObject sequence final)) =
      chunkText final ++ ((uint32Value sequence).compact ++ "\x7d") := by
  simp only [chunkObject, Json.compact, Json.compactMembers, chunkText, String.append_assoc]

theorem short_chunk (sequence : UInt32) (final : Bool) :
    (Json.compact (.object (chunkObject sequence final))).utf8ByteSize ≤ kMaximumFramePayload := by
  have front : (chunkText final).utf8ByteSize ≤ 100 := by
    cases final <;> decide +kernel
  have digits := uint32_size sequence
  have back : "\x7d".utf8ByteSize = 1 := by decide
  rw [compact_chunk, String.utf8ByteSize_append, String.utf8ByteSize_append, back,
    kMaximumFramePayload]
  omega

def openedSession : Session where
  state := .emitting
  negotiationHello := ⟨1, 0, "core"⟩
  negotiatedCapabilities := sampleCapabilities
  currentEmit := sampleEmit
  accepted := [⟨sampleEmit, firstOrder⟩]

theorem validDigest_zero : validDigest zeroSha = true := by decide +kernel

theorem validatePath_a : validatePath "a" = .ok () := by decide +kernel

def openingFrames : List (Direction × Frame) :=
  [(.coreToBackend, helloFrame), (.backendToCore, capabilitiesFrame),
    (.coreToBackend, requestFrame), (.coreToBackend, projectionFrame)]

theorem runs_opening : Session.Runs zeroDigest compactText {} openingFrames openedSession := by
  refine .cons ⟨by simp, by simp, frameError_written (by decide +kernel) _ _⟩
    (.hello rfl (known_written _ _ _ _) (trailing_written _ _ _ _) rfl rfl decode_hello rfl) ?_
  refine .cons ⟨by simp, by simp, frameError_written (by decide +kernel) _ _⟩
    (.capabilities rfl (known_written _ _ _ _) (trailing_written _ _ _ _) rfl rfl
      decode_capabilities (by decide) (by decide)) ?_
  refine .cons ⟨by simp, by simp, frameError_written (by decide +kernel) _ _⟩
    (.emit rfl (known_written _ _ _ _) (trailing_written _ _ _ _) rfl rfl decode_request
      (by decide) rfl validDigest_zero rfl) ?_
  refine .cons ⟨by simp, by simp, frameError_raw (by rw [projectionBytes_length]; decide) _⟩
    (.projection rfl rfl rfl rfl projectionBytes_length ⟨validDigest_zero, rfl⟩
      decode_projection (by decide)) ?_
  exact .nil _

/-- The open session after some chunks of its first run. -/
structure Advanced (count : Nat) (s : Session) : Prop where
  state : s.state = .emitting
  idle : s.pending = .none
  request : s.currentEmit = sampleEmit
  path : s.currentPath = if count = 0 then "" else "a"
  sequence : s.nextSequence = count.toUInt32
  bytes : s.currentBytes = []
  total : s.totalArtifactBytes = 0
  artifacts : s.artifacts = []
  completed : s.completed = []

theorem Advanced.chunk {count : Nat} {s : Session} (advanced : Advanced count s) (final : Bool) :
    Session.Accepts zeroDigest compactText s .backendToCore
      (chunkFrame count.toUInt32 final)
      { s with
        currentPath := "a"
        currentChunk := ⟨1, "a", count.toUInt32, final, 0⟩
        pending := .artifact
        pendingDirection := .backendToCore } := by
  have path : (if s.currentPath = "" then "a" else s.currentPath) = "a" := by
    rw [advanced.path]
    split <;> simp
  have contiguous : s.requireContiguous ⟨1, "a", count.toUInt32, final, 0⟩ = .ok () := by
    rw [Scratch.requireContiguous_ok, advanced.path, advanced.sequence]
    by_cases first : count = 0 <;> simp [first]
  have accepts : Session.Accepts zeroDigest compactText s .backendToCore
      (chunkFrame count.toUInt32 final) _ := .artifactChunk advanced.idle
    (known_written _ _ _ _) (trailing_written _ _ _ _) advanced.state rfl (decode_chunk _ _)
    (by rw [advanced.request]; rfl) validatePath_a (by rw [advanced.artifacts]; rfl) contiguous
  rwa [path] at accepts

theorem Advanced.next {count : Nat} {s : Session} (advanced : Advanced count s) :
    ∃ s', Session.Runs zeroDigest compactText s
      [(.backendToCore, chunkFrame count.toUInt32 false), (.backendToCore, bytesFrame)] s' ∧
      Advanced (count + 1) s' := by
  refine ⟨_, .cons ⟨by simp [advanced.state], by simp [advanced.state],
    frameError_written (short_chunk _ _) _ _⟩ (advanced.chunk false)
    (.cons ⟨by simp [advanced.state], by simp [advanced.state], frameError_raw (by decide) _⟩
      (.bytes rfl rfl rfl rfl rfl ?_ rfl) (.nil _)), ?_⟩
  · simp [Session.exceedsTotalBytes, advanced.request, advanced.total, sampleEmit, bytesFrame, rawFrame]
  · exact {
      state := advanced.state
      idle := rfl
      request := advanced.request
      path := rfl
      sequence := by simp [Session.grow, advanced.sequence]
      bytes := by simp [Session.grow, advanced.bytes, bytesFrame, rawFrame]
      total := by simp [Session.grow, advanced.total, bytesFrame, rawFrame]
      artifacts := advanced.artifacts
      completed := advanced.completed }

def chunkFrames (count : Nat) : List (Direction × Frame) :=
  (List.range count).flatMap fun index =>
    [(.backendToCore, chunkFrame index.toUInt32 false), (.backendToCore, bytesFrame)]

theorem runs_chunks (count : Nat) :
    ∃ s, Session.Runs zeroDigest compactText openedSession (chunkFrames count) s ∧
      Advanced count s := by
  induction count with
  | zero => exact ⟨_, .nil _, ⟨rfl, rfl, rfl, rfl, rfl, rfl, rfl, rfl, rfl⟩⟩
  | succ count ih =>
      obtain ⟨middle, runs, advanced⟩ := ih
      obtain ⟨s, more, next⟩ := advanced.next
      refine ⟨s, ?_, next⟩
      rw [chunkFrames, List.range_succ, List.flatMap_append]
      exact runs.append (by simpa using more)

/-- The last chunk and the manifest. -/
def closingFrames : List (Direction × Frame) :=
  [(.backendToCore, chunkFrame 0 true), (.backendToCore, bytesFrame),
    (.backendToCore, manifestFrame)]

def sampleEmission : CompletedEmission := ⟨1, [⟨"a", [], zeroSha⟩], zeroSha⟩

theorem Advanced.close {count : Nat} {s : Session} (advanced : Advanced count s)
    (wrapped : count.toUInt32 = 0) :
    ∃ s', Session.Runs zeroDigest compactText s closingFrames s' ∧
      s'.completed = [sampleEmission] := by
  have chunk := advanced.chunk true
  rw [wrapped] at chunk
  refine ⟨_, .cons ⟨by simp [advanced.state], by simp [advanced.state],
    frameError_written (short_chunk _ _) _ _⟩ chunk
    (.cons ⟨by simp [advanced.state], by simp [advanced.state], frameError_raw (by decide) _⟩
      (.finalBytes rfl rfl rfl rfl rfl ?_ rfl ?_)
      (.cons ⟨?_, ?_, frameError_written (by decide +kernel) _ _⟩
        (.manifest rfl (known_written _ _ _ _) (trailing_written _ _ _ _) ?_ rfl rfl
          decode_manifest ?_ validDigest_zero (show _ = Except.ok ["a"] from ?_) ?_) (.nil _))), ?_⟩
  · simp [Session.exceedsTotalBytes, advanced.request, advanced.total, sampleEmit, bytesFrame, rawFrame]
  · simp [advanced.artifacts, advanced.request, sampleEmit]
  · simp [Session.closeRun, Session.grow, advanced.state]
  · simp [Session.closeRun, Session.grow, advanced.state]
  · simp [Session.closeRun, Session.grow, advanced.state]
  · simp [Session.closeRun, Session.grow, advanced.request, sampleEmit]
  · simp [Session.closeRun, Session.grow, advanced.artifacts, advanced.bytes, bytesFrame, rawFrame]
    decide +kernel
  · simp [Session.closeRun, Session.grow, advanced.artifacts, advanced.bytes, bytesFrame, rawFrame, Artifacts.emplace]
  · simp [Session.closeRun, Session.grow, advanced.artifacts, advanced.bytes, bytesFrame, rawFrame, Artifacts.emplace, advanced.completed, sampleEmission, zeroSha]

theorem readChunks_pair {frames : List Frame} {chunks : List Chunk}
    (read : readChunks compactText frames = ⟨none, chunks⟩) (sequence : UInt32) (final : Bool) :
    readChunks compactText (frames ++ [chunkFrame sequence final, bytesFrame]) =
      ⟨none, chunks ++ [⟨⟨1, "a", sequence, final, 0⟩, []⟩]⟩ := by
  have typed : (chunkFrame sequence final).known = some .artifactChunk := known_written _ _ _ _
  rw [← List.singleton_append, ← List.append_assoc, readChunks_snoc, readChunks_snoc, read]
  simp [ChunkReader.read, chunkHeader, typed, decode_chunk, Except.toOption, bytesFrame, rawFrame]

theorem readChunks_chunks (count : Nat) :
    readChunks compactText ((chunkFrames count).map Prod.snd) =
      ⟨none, (List.range count).map fun index => ⟨⟨1, "a", index.toUInt32, false, 0⟩, []⟩⟩ := by
  induction count with
  | zero => rfl
  | succ count ih =>
      have pair := readChunks_pair ih count.toUInt32 false
      simpa [chunkFrames, List.range_succ] using pair

/-- Some chunks, then a last one with the first number again. -/
def duringFrames (count : Nat) : List (Direction × Frame) :=
  chunkFrames count ++ [(.backendToCore, chunkFrame 0 true), (.backendToCore, bytesFrame)]

def sessionFrames (count : Nat) : List (Direction × Frame) :=
  openingFrames ++ (duringFrames count ++ [(.backendToCore, manifestFrame)])

def sessionOperations (count : Nat) : List Operation :=
  (sessionFrames count).map (fun entry => .consume entry.1 entry.2) ++ [.takeCompletedEmission]

theorem during_no_emit (count : Nat) :
    ∀ frame ∈ (duringFrames count).map Prod.snd, frame.known ≠ some .emit := by
  have chunk (sequence : UInt32) (final : Bool) :
      (chunkFrame sequence final).known = some .artifactChunk := known_written _ _ _ _
  have raw : bytesFrame.known = some .artifactBytes := rfl
  intro frame listed
  simp only [duringFrames, chunkFrames, List.map_append, List.map_flatMap, List.mem_append,
    List.mem_flatMap, List.map_cons, List.map_nil, List.mem_cons, List.not_mem_nil,
    or_false] at listed
  rcases listed with ⟨index, -, rfl | rfl⟩ | rfl | rfl
  · simp [chunk]
  · simp [raw]
  · simp [chunk]
  · simp [raw]

section Restart

variable {count : Nat} (wrapped : count.toUInt32 = 0)

include wrapped

theorem after_session : ∃ s : Session, s.completed = [sampleEmission] ∧
    Log.after zeroDigest compactText (sessionOperations count) =
      Log.step zeroDigest compactText
        { session := s, frames := (sessionFrames count).map Prod.snd }
        .takeCompletedEmission := by
  obtain ⟨middle, chunks, advanced⟩ := runs_chunks count
  obtain ⟨s, closing, completed⟩ := advanced.close wrapped
  have runs : Session.Runs zeroDigest compactText {} (sessionFrames count) s := by
    refine runs_opening.append ?_
    rw [duringFrames, List.append_assoc]
    exact chunks.append closing
  have log := Log.run_runs runs {} rfl
  refine ⟨s, completed, ?_⟩
  rw [Log.after, sessionOperations, Run.run_append, log]
  rfl

theorem emissions_session :
    (Log.after zeroDigest compactText (sessionOperations count)).emissions = [sampleEmission] := by
  obtain ⟨s, completed, last⟩ := after_session wrapped
  simp [last, Log.step, Session.takeCompletedEmission, completed]

theorem frames_session :
    (Log.after zeroDigest compactText (sessionOperations count)).frames =
      openingFrames.map Prod.snd ++ (duringFrames count).map Prod.snd ++ [manifestFrame] := by
  obtain ⟨s, completed, last⟩ := after_session wrapped
  simp [last, Log.step, sessionFrames]

end Restart

theorem requested_session (count : Nat) :
    Requested compactText (openingFrames.map Prod.snd ++ (duringFrames count).map Prod.snd)
      sampleEmit ((duringFrames count).map Prod.snd) :=
  ⟨[helloFrame, capabilitiesFrame], requestFrame, projectionFrame, firstOrder, rfl,
    known_written _ _ _ _, decode_request, rfl, decode_projection, during_no_emit count⟩

/-- The numbers of the run's chunks do not grow to its length. -/
theorem sequence_session {count : Nat} (some : 0 < count) :
    (runOf (readChunks compactText ((duringFrames count).map Prod.snd)).chunks "a").map
        (·.header.sequence.toNat) ≠
      List.range (runOf (readChunks compactText ((duringFrames count).map Prod.snd)).chunks
        "a").length := by
  have read := readChunks_pair (readChunks_chunks count) 0 true
  have during : (duringFrames count).map Prod.snd =
      (chunkFrames count).map Prod.snd ++ [chunkFrame 0 true, bytesFrame] := by
    simp [duringFrames]
  have run : runOf ((List.range count).map fun index =>
        (⟨⟨1, "a", index.toUInt32, false, 0⟩, []⟩ : Chunk)) "a" =
      (List.range count).map fun index => ⟨⟨1, "a", index.toUInt32, false, 0⟩, []⟩ :=
    List.filter_eq_self.mpr (by simp)
  rw [during, read, runOf_snoc, run]
  intro same
  have last := congrArg List.getLast? same
  simp [List.range_succ] at last
  omega

/-- A completed emission whose artifact came in chunks that are not numbered 0, 1, 2 and so
on: after as many chunks as there are numbers, the last one is numbered as the first. -/
theorem sequence_restarts :
    (Log.after zeroDigest compactText (sessionOperations (2 ^ 32))).emissions =
      [sampleEmission] ∧
    (Log.after zeroDigest compactText (sessionOperations (2 ^ 32))).frames =
      openingFrames.map Prod.snd ++ (duringFrames (2 ^ 32)).map Prod.snd ++ [manifestFrame] ∧
    Requested compactText (openingFrames.map Prod.snd ++ (duringFrames (2 ^ 32)).map Prod.snd)
      sampleEmit ((duringFrames (2 ^ 32)).map Prod.snd) ∧
    ∃ artifact ∈ sampleEmission.artifacts,
      (runOf (readChunks compactText ((duringFrames (2 ^ 32)).map Prod.snd)).chunks
          artifact.path).map (·.header.sequence.toNat) ≠
        List.range (runOf (readChunks compactText ((duringFrames (2 ^ 32)).map Prod.snd)).chunks
          artifact.path).length :=
  ⟨emissions_session (by decide), frames_session (by decide), requested_session _,
    ⟨"a", [], zeroSha⟩, by simp [sampleEmission], sequence_session (by decide)⟩

end Neutrino.BackendProtocol
