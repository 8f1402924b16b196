import Neutrino.ControlCodec
import Neutrino.PublicationOutcome
import Neutrino.SessionEmission

/-! Emissions from the session to the output root: which of those a session completes can be
published. -/

namespace Neutrino.BackendProtocol

open Checked

/-! What a session checks of the emissions it completes. -/

/-- A request is in progress. -/
def Session.Busy (s : Session) : Prop :=
  s.pending = .projection ∨ s.state = .emitting ∨ s.state = .cancelling

/-- The request in progress has a number, and so has every emission completed. -/
structure Numbered (s : Session) : Prop where
  current : s.state ≠ .failed → s.Busy → s.currentEmit.requestId ≠ 0
  completed : ∀ emission ∈ s.completed,
    emission.requestId ≠ 0 ∧ validDigest emission.receiptDigest = true

section Numbered

variable {sha256Hex : List UInt8 → String} {text : Projection.JsonText} {s s' : Session}
  {d : Direction} {f : Frame}

theorem Numbered.keep (numbered : Numbered s) (request : s'.currentEmit = s.currentEmit)
    (completed : s'.completed = s.completed) (alive : s'.state ≠ .failed → s.state ≠ .failed)
    (busy : s'.Busy → s.Busy) : Numbered s' where
  current live working := by
    rw [request]
    exact numbered.current (alive live) (busy working)
  completed := completed ▸ numbered.completed

theorem Numbered.rest (numbered : Numbered s) (completed : s'.completed = s.completed)
    (resting : ¬s'.Busy) : Numbered s' :=
  ⟨fun _ busy => absurd busy resting, completed ▸ numbered.completed⟩

theorem Numbered.step (numbered : Numbered s) (alive : s.state ≠ .failed)
    (accepts : Session.Accepts sha256Hex text s d f s') : Numbered s' := by
  cases accepts with
  | plain => exact numbered
  | skipHeader idle =>
      exact numbered.keep rfl rfl id (by simp [Session.Busy, idle])
  | skipRaw awaited =>
      exact numbered.keep rfl rfl id (by simp [Session.Busy, awaited])
  | projection awaited =>
      exact numbered.keep rfl rfl (fun _ => alive) fun _ => .inl awaited
  | bytes awaited =>
      exact numbered.keep rfl rfl id (by simp [Session.Busy, Session.grow, awaited])
  | finalBytes awaited =>
      exact numbered.keep rfl rfl id (by simp [Session.Busy, Session.grow, Session.closeRun, awaited])
  | hello idle _ _ phase =>
      exact numbered.rest rfl (by simp [Session.Busy, idle])
  | capabilities idle =>
      exact numbered.rest rfl (by simp [Session.Busy, idle])
  | emit idle _ _ _ _ _ nonzero => exact ⟨fun _ _ => nonzero, numbered.completed⟩
  | artifactChunk idle _ _ phase =>
      exact numbered.keep rfl rfl id (by simp [Session.Busy, phase])
  | manifest idle _ _ phase _ _ _ request receipt =>
      have named : s.currentEmit.requestId ≠ 0 :=
        numbered.current (by simp [phase]) (.inr (.inl phase))
      refine ⟨fun _ busy => absurd busy (by simp [Session.Busy, Session.resetRequest]), ?_⟩
      intro emission listed
      rcases List.mem_append.mp listed with listed | listed
      · exact numbered.completed emission listed
      · obtain rfl := List.mem_singleton.mp listed
        exact ⟨request ▸ named, receipt⟩
  | cancel idle _ _ phase =>
      exact numbered.keep rfl rfl (by simp [phase]) (by simp [Session.Busy, phase])
  | cancelled => exact numbered.rest rfl (by simp [Session.Busy, Session.resetRequest])
  | refusal idle => exact numbered.rest rfl (by simp [Session.Busy, idle])
  | error => exact numbered.rest rfl (by simp [Session.Busy, Session.resetRequest])
  | goodbye idle => exact numbered.rest rfl (by simp [Session.Busy, idle])

end Numbered

theorem numbered_after (sha256Hex : List UInt8 → String) (text : Projection.JsonText)
    (operations : List Operation) :
    Numbered (Log.after sha256Hex text operations).session ∧
      ∀ emission ∈ (Log.after sha256Hex text operations).emissions,
        emission.requestId ≠ 0 ∧ validDigest emission.receiptDigest = true := by
  refine Run.run_invariant (fun log : Log => Numbered log.session ∧ ∀ emission ∈ log.emissions,
    emission.requestId ≠ 0 ∧ validDigest emission.receiptDigest = true) ?_ ?_ operations
  · rintro log operation ⟨numbered, emissions⟩
    cases operation with
    | consume direction frame =>
        simp only [Log.step]
        cases consumed : log.session.consume sha256Hex text direction frame with
        | mk after failure =>
            cases failure with
            | none =>
                obtain ⟨reads, accepts⟩ := Session.consume_ok.mp consumed
                exact ⟨numbered.step reads.alive accepts, emissions⟩
            | some failure =>
                obtain ⟨failed, -, completed, -⟩ := Session.consume_rejected consumed
                refine ⟨⟨fun alive => absurd failed alive, ?_⟩, emissions⟩
                rw [completed]
                exact numbered.completed
    | finish =>
        refine ⟨?_, emissions⟩
        simp only [Log.step, Session.finish]
        split
        · exact numbered
        · exact ⟨fun alive => absurd rfl alive, numbered.completed⟩
    | takeAcceptedEmit =>
        refine ⟨?_, emissions⟩
        simp only [Log.step, Session.takeAcceptedEmit]
        split
        · exact numbered
        · exact ⟨numbered.current, numbered.completed⟩
    | takePeerError =>
        refine ⟨?_, emissions⟩
        simp only [Log.step, Session.takePeerError]
        split
        · exact numbered
        · exact ⟨numbered.current, numbered.completed⟩
    | takeCompletedEmission =>
        simp only [Log.step, Session.takeCompletedEmission]
        cases queue : log.session.completed with
        | nil => simpa [queue] using And.intro numbered emissions
        | cons first others =>
            have listed := numbered.completed
            rw [queue, List.forall_mem_cons] at listed
            refine ⟨⟨numbered.current, listed.2⟩, ?_⟩
            intro emission taken
            rcases List.mem_append.mp taken with taken | taken
            · exact emissions emission taken
            · obtain rfl : emission = first := by simpa using taken
              exact listed.1
  · exact ⟨⟨fun _ busy => absurd busy (by simp [Session.Busy]), by simp⟩, by simp⟩

end Neutrino.BackendProtocol

namespace Neutrino.ArtifactPublication

open Durable BackendProtocol BackendInvocation

/-- No artifact's path leads through another's, and the receipt's digest is in small letters. -/
structure Publishable (emission : CompletedEmission) : Prop where
  apart : ∀ first ∈ emission.artifacts, ∀ second ∈ emission.artifacts,
    pathSegments first.path <+: pathSegments second.path → first.path = second.path
  receipt : validDigest emission.receiptDigest = true

/-- A publication into the empty root succeeds, and the artifacts are the files of the root. -/
def Published.Whole (system : System) (sha256Hex : List UInt8 → String) (manifest : Result)
    (outputRoot : String) (emission : CompletedEmission) : Prop :=
  ∃ result after, exec (publish system sha256Hex manifest outputRoot) ⟨Disk.empty, 0⟩ =
      (.ok result, after) ∧
    ∀ path bytes, (∃ identity, after.disk.node path = some (.file identity bytes)) ↔
      ∃ artifact ∈ emission.artifacts,
        path = pathSegments artifact.path ∧ bytes = artifact.bytes

/-- Where both are files of a root, no path leads through the other. -/
theorem apart_of_files {artifacts : List CompletedArtifact} {disk : Disk}
    (files : ∀ path bytes, (∃ identity, disk.node path = some (.file identity bytes)) ↔
      ∃ artifact ∈ artifacts, path = pathSegments artifact.path ∧ bytes = artifact.bytes) :
    ∀ first ∈ artifacts, ∀ second ∈ artifacts,
      pathSegments first.path <+: pathSegments second.path → first.path = second.path := by
  intro first firstIn second secondIn leads
  by_contra differ
  obtain ⟨_, stands⟩ := (files _ _).mpr ⟨first, firstIn, rfl, rfl⟩
  obtain ⟨_, beyond⟩ := (files _ _).mpr ⟨second, secondIn, rfl, rfl⟩
  have above := directory_above (by rw [beyond]; simp) leads
    fun same => differ (pathSegments_inj same)
  rw [stands] at above
  cases above

/-- An emission that a session completes is published whole exactly when its paths do not lead
through each other and its receipt's digest is in small letters; and no publication changes what
stood in the root before. -/
theorem publication_exact (sha256Hex : List UInt8 → String)
    (hex : ∀ bytes, validDigest ("sha256:" ++ sha256Hex bytes) = true)
    (text : Projection.JsonText) :
    (∀ (system : System) (operations : List Operation) (emission : CompletedEmission)
      (descriptor : Descriptor) (options : InvocationOptions) (emit : Emit) (outputRoot : String),
      system.Healthy → emission ∈ (Log.after sha256Hex text operations).emissions →
      descriptor.targetIdentity ≠ "" → outputRoot ≠ "" → Char.ofNat 0 ∉ outputRoot.toList →
      (Published.Whole system sha256Hex (resultOf descriptor options emit emission) outputRoot
        emission ↔ Publishable emission)) ∧
    (∀ (system : System) (manifest : Result) (outputRoot : String) (world : World)
      (path : List String) (node : Node), world.disk.node path = some node →
      (exec (publish system sha256Hex manifest outputRoot) world).2.disk.node path =
        some node) := by
  refine ⟨?_, ?_⟩
  · intro system operations emission descriptor options emit outputRoot healthy yielded named root
      plain
    obtain ⟨request, -⟩ := (numbered_after sha256Hex text operations).2 emission yielded
    obtain ⟨_, _, _, _, _, -, -, -, answers⟩ :=
      (emission_integrity sha256Hex text operations).1 emission yielded
    constructor
    · rintro ⟨result, after, ran, files⟩
      constructor
      · exact apart_of_files files
      · obtain ⟨pending, _, checked, _⟩ := exec_bind_ok.mp ran
        exact receipt_of_pendingOf (Prod.mk.inj checked).1
    · rintro ⟨apart, receipt⟩
      have paths : ((resultOf descriptor options emit emission).artifacts.map (·.path)) =
          emission.artifacts.map (·.path) := by
        rw [resultOf, List.map_map]
        rfl
      have sound : ∀ artifact ∈ (resultOf descriptor options emit emission).artifacts,
          Sound sha256Hex artifact := by
        intro artifact listed
        obtain ⟨completed, stands, rfl⟩ := List.mem_map.mp listed
        have assembled := answers.assembled completed stands
        exact ⟨assembled.path, assembled.digest, assembled.digest ▸ hex _⟩
      have targets : Apart ((resultOf descriptor options emit emission).artifacts.map
          fun artifact => pathSegments artifact.path) := by
        intro first firstIn second secondIn leads
        obtain ⟨_, firstArtifact, rfl⟩ := List.mem_map.mp firstIn
        obtain ⟨_, secondArtifact, rfl⟩ := List.mem_map.mp secondIn
        obtain ⟨one, oneIn, rfl⟩ := List.mem_map.mp firstArtifact
        obtain ⟨two, twoIn, rfl⟩ := List.mem_map.mp secondArtifact
        exact congrArg pathSegments (apart one oneIn two twoIn leads)
      obtain ⟨result, after, ran, files⟩ : Returns (publish system sha256Hex
          (resultOf descriptor options emit emission) outputRoot) ⟨Disk.empty, 0⟩ _ :=
        returns_publish healthy request named receipt sound (paths ▸ answers.distinct) targets root
          plain rfl
      refine ⟨result, after, ran, fun path bytes => (files path bytes).trans ?_⟩
      simp [resultOf]
  · intro system manifest outputRoot world path node stands
    exact (keeps_publish world (Kept.refl world.disk)).1.nodes path node stands

def workingSystem : System := ⟨fun _ => none, fun _ asked => asked, fun _ _ => le_rfl⟩

theorem workingSystem_healthy : workingSystem.Healthy := ⟨fun _ => rfl, fun _ _ some => some⟩

def sampleDescriptor : Descriptor :=
  { targetIdentity := "target", targetProfileIdentity := "profile", manifestDigest := zeroSha }

theorem lower_zeroSha : validDigest zeroSha = true := by decide +kernel

theorem lower_zeroDigest (bytes : List UInt8) :
    validDigest ("sha256:" ++ zeroDigest bytes) = true :=
  lower_zeroSha

theorem publication_exact_single : Published.Whole workingSystem zeroDigest
    (resultOf sampleDescriptor {} sampleEmit sampleEmission) "out" sampleEmission := by
  have listed : sampleEmission ∈
      (Log.after zeroDigest Projection.compactText (sessionOperations 0)).emissions := by
    rw [emissions_session rfl]
    exact List.mem_singleton_self _
  refine ((publication_exact zeroDigest lower_zeroDigest Projection.compactText).1 workingSystem
    (sessionOperations 0) sampleEmission sampleDescriptor {} sampleEmit "out"
    workingSystem_healthy listed (by decide) (by decide) (by decide +kernel)).mpr ⟨?_, ?_⟩
  · simp [sampleEmission]
  · exact lower_zeroSha

/-! A session over one request whose two artifacts are a file and a file inside it. -/

def conflictEmit : Emit := { sampleEmit with outputSpec := ⟨2, 0, ""⟩ }

def wholeChunk (path : String) : ArtifactChunk := ⟨1, path, 0, true, 0⟩

def conflictManifest : Manifest := ⟨1, [⟨"a", zeroSha, 0⟩, ⟨"a/b", zeroSha, 0⟩], zeroSha⟩

def conflictEmission : CompletedEmission :=
  ⟨1, [⟨"a", [], zeroSha⟩, ⟨"a/b", [], zeroSha⟩], zeroSha⟩

def messageFrame (message : ControlMessage) : Frame :=
  writtenFrame Projection.compactText message.type message.object message.trailingRaw

theorem decodeEmit_conflict : decodeEmit Projection.compactText (messageFrame (.emit conflictEmit)) =
    .ok conflictEmit := by
  have decoded := @ControlMessage.decode_compact (.emit conflictEmit) trivial
  obtain ⟨emit, read, same⟩ := Checked.map_ok.mp decoded
  obtain rfl := ControlMessage.emit.inj same
  exact read

theorem decodeArtifactChunk_whole (path : String) :
    decodeArtifactChunk Projection.compactText (messageFrame (.artifactChunk (wholeChunk path))) =
      .ok (wholeChunk path) := by
  have decoded := @ControlMessage.decode_compact (.artifactChunk (wholeChunk path)) trivial
  obtain ⟨chunk, read, same⟩ := Checked.map_ok.mp decoded
  obtain rfl := ControlMessage.artifactChunk.inj same
  exact read

theorem decodeManifest_conflict :
    decodeManifest Projection.compactText (messageFrame (.manifest conflictManifest)) =
      .ok conflictManifest := by
  have decoded := @ControlMessage.decode_compact (.manifest conflictManifest) trivial
  obtain ⟨manifest, read, same⟩ := Checked.map_ok.mp decoded
  obtain rfl := ControlMessage.manifest.inj same
  exact read

def conflictFrames : List (Direction × Frame) :=
  [(.coreToBackend, helloFrame), (.backendToCore, capabilitiesFrame),
    (.coreToBackend, messageFrame (.emit conflictEmit)), (.coreToBackend, projectionFrame),
    (.backendToCore, messageFrame (.artifactChunk (wholeChunk "a"))),
    (.backendToCore, bytesFrame),
    (.backendToCore, messageFrame (.artifactChunk (wholeChunk "a/b"))),
    (.backendToCore, bytesFrame), (.backendToCore, messageFrame (.manifest conflictManifest))]

theorem runs_conflict : ∃ s, Session.Runs zeroDigest Projection.compactText {} conflictFrames s ∧
    s.completed = [conflictEmission] := by
  refine ⟨_, .cons ⟨by simp, by simp, frameError_written (by decide +kernel) _ _⟩
    (.hello rfl (known_written _ _ _ _) (trailing_written _ _ _ _) rfl rfl decode_hello rfl) <|
    .cons ⟨by simp, by simp, frameError_written (by decide +kernel) _ _⟩
    (.capabilities rfl (known_written _ _ _ _) (trailing_written _ _ _ _) rfl rfl
      decode_capabilities (by decide) (by decide)) <|
    .cons ⟨by simp, by simp, frameError_written (by decide +kernel) _ _⟩
    (.emit rfl (known_written _ _ _ _) (trailing_written _ _ _ _) rfl rfl decodeEmit_conflict
      (by decide) rfl validDigest_zero rfl) <|
    .cons ⟨by simp, by simp, frameError_raw (by rw [projectionBytes_length]; decide) _⟩
    (.projection rfl rfl rfl rfl projectionBytes_length ⟨validDigest_zero, rfl⟩
      decode_projection (by decide)) <|
    .cons ⟨by simp, by simp, frameError_written (by decide +kernel) _ _⟩
    (.artifactChunk rfl (known_written _ _ _ _) (trailing_written _ _ _ _) rfl rfl
      (decodeArtifactChunk_whole "a") rfl validatePath_a rfl rfl) <|
    .cons ⟨by simp, by simp, frameError_raw (by decide) _⟩
    (.finalBytes rfl rfl rfl rfl rfl rfl rfl (by decide)) <|
    .cons ⟨?_, ?_, frameError_written (by decide +kernel) _ _⟩
    (.artifactChunk rfl (known_written _ _ _ _) (trailing_written _ _ _ _) ?_ rfl
      (decodeArtifactChunk_whole "a/b") rfl (by decide +kernel) ?_ rfl) <|
    .cons ⟨?_, ?_, frameError_raw (by decide) _⟩
    (.finalBytes rfl rfl rfl rfl rfl ?_ rfl ?_) <|
    .cons ⟨?_, ?_, frameError_written (by decide +kernel) _ _⟩
    (.manifest rfl (known_written _ _ _ _) (trailing_written _ _ _ _) ?_ rfl rfl
      decodeManifest_conflict rfl validDigest_zero (show _ = Except.ok ["a/b", "a"] from ?_) ?_) <|
    .nil _, ?_⟩
  · simp [Session.closeRun, Session.grow]
  · simp [Session.closeRun, Session.grow]
  · rfl
  · rfl
  · simp [Session.closeRun, Session.grow]
  · simp [Session.closeRun, Session.grow]
  · rfl
  · decide
  · simp [Session.closeRun, Session.grow]
  · simp [Session.closeRun, Session.grow]
  · rfl
  · decide +kernel
  · rfl
  · rfl

def conflictOperations : List Operation :=
  conflictFrames.map (fun entry => .consume entry.1 entry.2) ++ [.takeCompletedEmission]

/-- A session completes an emission that no publication into an empty root can hold. -/
theorem conflict_unpublished :
    conflictEmission ∈
      (Log.after zeroDigest Projection.compactText conflictOperations).emissions ∧
    ¬Published.Whole workingSystem zeroDigest
      (resultOf sampleDescriptor {} conflictEmit conflictEmission) "out" conflictEmission := by
  constructor
  · obtain ⟨s, runs, completed⟩ := runs_conflict
    have log := Log.run_runs runs {} rfl
    rw [Log.after, conflictOperations, Run.run_append, log]
    simp [Log.step, Session.takeCompletedEmission, completed]
  · rintro ⟨result, after, -, files⟩
    have leads : pathSegments "a" <+: pathSegments "a/b" := by decide +kernel
    have same := apart_of_files files ⟨"a", [], zeroSha⟩ (by simp [conflictEmission])
      ⟨"a/b", [], zeroSha⟩ (by simp [conflictEmission]) leads
    exact absurd same (by decide)

end Neutrino.ArtifactPublication
