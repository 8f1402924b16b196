import Neutrino.PublishedEmission
import Neutrino.ReceiptRoundTrip

/-! The stages of a dispatch one after the other: which of the emissions a session completes are
written into a receipt and pass the checks of the publication. -/

namespace Neutrino.DispatchStages

open Checked Projection BackendProtocol BackendInvocation
open DispatchReceipt hiding validDigest

/-- A manifest completed the emission out of the chunks accepted since the request. -/
def YieldedFor (sha256Hex : List UInt8 → String) (text : JsonText) (frames : List Frame)
    (request : Emit) (emission : CompletedEmission) : Prop :=
  ∃ earlier manifest later during,
    frames = earlier ++ manifest :: later ∧ manifest.known = some .manifest ∧
    Requested text earlier request during ∧
    Answers sha256Hex request (readChunks text during).chunks emission

/-- An emission of a session for the Emit that an invocation of a package builds. -/
structure Dispatched (sha256Hex : List UInt8 → String) (text : JsonText)
    (operations : List Operation) (descriptor : Descriptor) (options : InvocationOptions)
    (emit : Emit) (emission : CompletedEmission) : Prop where
  target : descriptor.targetIdentity ≠ ""
  profile : descriptor.targetProfileIdentity ≠ ""
  package : DispatchReceipt.validDigest descriptor.manifestDigest = true
  request : options.requestId ≠ 0
  core : options.coreIdentity ≠ ""
  built : ∃ graph projectionText frames,
    encodeFinalizedProjection text graph = .ok projectionText ∧
    emit = emitMessage sha256Hex descriptor options (utf8 projectionText) ∧
    encodeEmit text sha256Hex emit (utf8 projectionText) = .ok frames
  yielded : emission ∈ (Log.after sha256Hex text operations).emissions
  answers : YieldedFor sha256Hex text (Log.after sha256Hex text operations).frames emit emission

/-- What the later stages ask beyond the session: a receipt digest in small letters, and numbers
that are written as signed ones. -/
structure WithinStages (emission : CompletedEmission) : Prop where
  requestId : emission.requestId.toNat < 2 ^ 63
  receipt : DispatchReceipt.validDigest emission.receiptDigest = true
  sizes : ∀ artifact ∈ emission.artifacts, artifact.bytes.length < 2 ^ 63

theorem signed_iff {value : UInt64} : 0 ≤ value.toInt64 ↔ value.toNat < 2 ^ 63 := by
  rw [Int64.le_iff_toInt_le]
  change (0 : Int) ≤ value.toBitVec.toInt ↔ value.toBitVec.toNat < 2 ^ 63
  rw [BitVec.toInt_eq_toNat_cond]
  have bound := value.toBitVec.isLt
  split <;> omega

section Stages

variable {sha256Hex : List UInt8 → String} {text : JsonText} {operations : List Operation}
  {descriptor : Descriptor} {options : InvocationOptions} {emit : Emit}
  {emission : CompletedEmission}

theorem Dispatched.assembled
    (dispatched : Dispatched sha256Hex text operations descriptor options emit emission) :
    ∃ chunks, Answers sha256Hex emit chunks emission := by
  obtain ⟨_, _, _, _, -, -, -, answers⟩ := dispatched.answers
  exact ⟨_, answers⟩

theorem Dispatched.short
    (dispatched : Dispatched sha256Hex text operations descriptor options emit emission) :
    ∀ artifact ∈ emission.artifacts, artifact.bytes.length < 2 ^ 64 := by
  intro artifact listed
  obtain ⟨chunks, answers⟩ := dispatched.assembled
  have part : artifact.bytes.length ≤ (emission.artifacts.map (·.bytes.length)).sum :=
    List.single_le_sum (by simp) _ (List.mem_map_of_mem listed)
  have total := answers.total
  have small := emit.outputSpec.maxTotalBytes.toNat_lt
  omega

theorem Dispatched.size_iff
    (dispatched : Dispatched sha256Hex text operations descriptor options emit emission)
    {artifact : CompletedArtifact} (listed : artifact ∈ emission.artifacts) :
    0 ≤ artifact.bytes.length.toUInt64.toInt64 ↔ artifact.bytes.length < 2 ^ 63 := by
  have short := dispatched.short artifact listed
  have same : artifact.bytes.length.toUInt64.toNat = artifact.bytes.length :=
    Nat.mod_eq_of_lt short
  rw [signed_iff, same]

/-- The projection's length is a positive number of at most 64 MiB. -/
theorem Dispatched.projection (lawful : text.Lawful)
    (dispatched : Dispatched sha256Hex text operations descriptor options emit emission) :
    emit.artifactEncoding = kArtifactEncoding ∧ emit.artifactByteLen ≠ 0 ∧
      emit.artifactByteLen.toNat < 2 ^ 63 ∧
      ∃ bytes, emit.artifactDigest = "sha256:" ++ sha256Hex bytes := by
  obtain ⟨graph, projectionText, frames, encoded, rfl, sent⟩ := dispatched.built
  simp only [encodeEmit, bind_ok, require_ok] at sent
  obtain ⟨_, within, _, -, _, length, -⟩ := sent
  obtain ⟨-, -, written⟩ := Projection.encode_ok.mp encoded
  have filled : (utf8 projectionText).length ≠ 0 := by
    rw [length_utf8, written]
    exact fun empty => lawful.nonempty _ (String.utf8ByteSize_eq_zero_iff.mp empty)
  refine ⟨rfl, ?_, ?_, _, rfl⟩
  · intro zero
    rw [zero] at length
    exact filled length.symm
  · rw [length]
    have limit : kMaximumFramePayload = 67108864 := by decide
    omega

variable (hex : ∀ bytes, DispatchReceipt.validDigest ("sha256:" ++ sha256Hex bytes) = true)
  (lawful : text.Lawful)
  (dispatched : Dispatched sha256Hex text operations descriptor options emit emission)
include hex dispatched

/-- Where the emission is within the later stages, its result gets a receipt. -/
theorem Dispatched.writable (lawful : text.Lawful) (within : WithinStages emission) :
    DispatchReceipt.Writable sha256Hex (resultOf descriptor options emit emission) := by
  obtain ⟨chunks, answers⟩ := dispatched.assembled
  obtain ⟨encoding, length, short, bytes, digest⟩ := dispatched.projection lawful
  obtain ⟨request, -⟩ := (numbered_after sha256Hex text operations).2 emission dispatched.yielded
  exact {
    identified := ⟨request, dispatched.core, dispatched.target, dispatched.profile,
      dispatched.package, encoding, length, by rw [resultOf, digest]; exact hex bytes,
      within.receipt⟩
    requestId := signed_iff.mpr within.requestId
    projectionByteLen := signed_iff.mpr short
    distinct := by
      have paths : (resultOf descriptor options emit emission).artifacts.map Artifact.path =
          emission.artifacts.map (·.path) := by
        rw [resultOf, List.map_map]
        rfl
      exact paths ▸ answers.distinct
    artifacts := by
      intro artifact listed
      obtain ⟨completed, there, rfl⟩ := List.mem_map.mp listed
      have assembled := answers.assembled completed there
      exact ⟨assembled.path, assembled.digest ▸ hex _, assembled.digest,
        (dispatched.size_iff there).mpr (within.sizes completed there)⟩ }

theorem Dispatched.pending (receipt : DispatchReceipt.validDigest emission.receiptDigest = true) :
    ∃ pending, ArtifactPublication.pendingOf sha256Hex
      (resultOf descriptor options emit emission) = .ok pending := by
  obtain ⟨chunks, answers⟩ := dispatched.assembled
  obtain ⟨request, -⟩ := (numbered_after sha256Hex text operations).2 emission dispatched.yielded
  have paths : (resultOf descriptor options emit emission).artifacts.map Artifact.path =
      emission.artifacts.map (·.path) := by
    rw [resultOf, List.map_map]
    rfl
  refine ⟨_, ArtifactPublication.pendingOf_ok request dispatched.target receipt ?_
    (paths ▸ answers.distinct)⟩
  intro artifact listed
  obtain ⟨completed, there, rfl⟩ := List.mem_map.mp listed
  have assembled := answers.assembled completed there
  exact ⟨assembled.path, assembled.digest, assembled.digest ▸ hex _⟩

end Stages

/-! What a written receipt says of the numbers in it. -/

theorem lengths_of_read {listed : List Artifact} {state final : String × List ArtifactIdentity}
    (accepted : thread readArtifact state (listed.map artifactValue) = .ok final) :
    ∀ artifact ∈ listed, 0 ≤ artifact.bytes.length.toUInt64.toInt64 := by
  induction listed generalizing state with
  | nil => simp
  | cons artifact rest ih =>
      obtain ⟨next, first, continued⟩ := bind_ok.mp accepted
      refine List.forall_mem_cons.mpr ⟨?_, ih continued⟩
      simp only [readArtifact, artifactValue, Json.asObject, bind_ok, require_ok, pure_ok,
        stringField_ok, uintField_ok, digestField_ok, artifactObject] at first
      obtain ⟨_, -, _, -, _, -, _, -, _, ⟨read, found, ⟨positive, -⟩, -⟩, -⟩ := first
      obtain rfl : artifact.bytes.length.toUInt64.toInt64 = read := Option.some.inj found
      exact positive

theorem signed_of_created {sha256Hex : List UInt8 → String} {text : JsonText} {input : Result}
    {bytes : List UInt8} (lawful : text.Lawful)
    (created : createApproved sha256Hex text input = .ok bytes) :
    0 ≤ input.requestId.toInt64 ∧
      ∀ artifact ∈ input.artifacts, 0 ≤ artifact.bytes.length.toUInt64.toInt64 := by
  obtain ⟨receipt, -, -, holds⟩ := created_holds lawful created
  have requestId := holds.requestId
  have listed := holds.artifacts
  rw [receiptObject_eq] at requestId listed
  constructor
  · obtain ⟨read, found, ⟨positive, -⟩, -⟩ := uintField_ok.mp requestId
    obtain rfl : input.requestId.toInt64 = read := Option.some.inj found
    exact positive
  · obtain ⟨final, threaded, -⟩ := map_ok.mp listed
    intro artifact there
    exact lengths_of_read threaded artifact (SortOn.mem_sortOn.mpr there)

/-- The receipt and the publication accept the result of an emission exactly when its request id
and its artifacts' lengths are within the signed range and its receipt digest is in small
letters. -/
theorem dispatch_stages (sha256Hex : List UInt8 → String)
    (hex : ∀ bytes, DispatchReceipt.validDigest ("sha256:" ++ sha256Hex bytes) = true)
    (text : JsonText) (lawful : text.Lawful) {operations : List Operation}
    {descriptor : Descriptor} {options : InvocationOptions} {emit : Emit}
    {emission : CompletedEmission}
    (dispatched : Dispatched sha256Hex text operations descriptor options emit emission) :
    ((∃ bytes, createApproved sha256Hex text (resultOf descriptor options emit emission) =
          .ok bytes) ∧
        ∃ pending, ArtifactPublication.pendingOf sha256Hex
          (resultOf descriptor options emit emission) = .ok pending) ↔
      WithinStages emission := by
  constructor
  · rintro ⟨⟨bytes, created⟩, pending, passed⟩
    obtain ⟨requestId, sizes⟩ := signed_of_created lawful created
    refine ⟨signed_iff.mp requestId, ArtifactPublication.receipt_of_pendingOf passed, ?_⟩
    intro artifact listed
    rw [resultOf, List.forall_mem_map] at sizes
    exact (dispatched.size_iff listed).mp (sizes artifact listed)
  · intro within
    have writable := dispatched.writable hex lawful within
    exact ⟨⟨_, writable.createApproved_accepts (hex _) lawful⟩,
      dispatched.pending hex within.receipt⟩

/-! One artifact, and a manifest without artifacts whose receipt digest is in capital letters. -/

def sampleOptions : InvocationOptions := { outputSpec := ⟨1, 0, ""⟩ }

theorem sampleEmit_built : sampleEmit =
    emitMessage zeroDigest ArtifactPublication.sampleDescriptor sampleOptions projectionBytes := by
  rw [emitMessage, projectionBytes_length]
  rfl

theorem sampleEmit_sent :
    encodeEmit compactText zeroDigest sampleEmit projectionBytes =
      .ok [writtenFrame compactText .emit (emitObject sampleEmit) true, projectionFrame] := by
  have header : controlFrame compactText .emit (emitObject sampleEmit) true =
      .ok (writtenFrame compactText .emit (emitObject sampleEmit) true) :=
    ControlMessage.controlFrame_short (by decide +kernel) _ _
  simp only [encodeEmit, bind_ok, require_ok, pure_ok, mapError_ok]
  exact ⟨(), by rw [projectionBytes_length]; decide, (), rfl, (),
    by rw [projectionBytes_length]; rfl, (), ⟨validDigest_zero, rfl⟩, firstOrder,
    decode_projection, _, header, rfl⟩

theorem sample_dispatched {operations : List Operation} {emission : CompletedEmission}
    (yielded : emission ∈ (Log.after zeroDigest compactText operations).emissions)
    (answers : YieldedFor zeroDigest compactText (Log.after zeroDigest compactText operations).frames
      sampleEmit emission) :
    Dispatched zeroDigest compactText operations ArtifactPublication.sampleDescriptor sampleOptions
      sampleEmit emission where
  target := by decide
  profile := by decide
  package := ArtifactPublication.lower_zeroSha
  request := by decide
  core := by decide
  built := ⟨firstOrder, _, _, rfl, sampleEmit_built, sampleEmit_sent⟩
  yielded := yielded
  answers := answers

theorem sampleEmission_answers : Answers zeroDigest sampleEmit
    (readChunks compactText ((duringFrames 0).map Prod.snd)).chunks sampleEmission := by
  have read := readChunks_pair (readChunks_chunks 0) 0 true
  have during : (duringFrames 0).map Prod.snd =
      (chunkFrames 0).map Prod.snd ++ [chunkFrame 0 true, bytesFrame] := by
    simp [duringFrames]
  rw [during, read]
  exact {
    requestId := rfl
    distinct := by simp [sampleEmission]
    assembled := by
      intro artifact listed
      obtain rfl := List.mem_singleton.mp listed
      exact ⟨validatePath_a, ⟨rfl, rfl⟩, rfl, rfl⟩
    covered := by
      intro chunk listed
      obtain rfl := List.mem_singleton.mp listed
      exact ⟨rfl, List.mem_singleton_self _⟩
    count := by decide
    total := by decide }

theorem dispatch_stages_single :
    (∃ bytes, createApproved zeroDigest compactText (resultOf ArtifactPublication.sampleDescriptor
        sampleOptions sampleEmit sampleEmission) = .ok bytes) ∧
      ∃ pending, ArtifactPublication.pendingOf zeroDigest (resultOf
        ArtifactPublication.sampleDescriptor sampleOptions sampleEmit sampleEmission) =
          .ok pending := by
  have listed : sampleEmission ∈
      (Log.after zeroDigest compactText (sessionOperations 0)).emissions := by
    rw [emissions_session rfl]
    exact List.mem_singleton_self _
  have answers : YieldedFor zeroDigest compactText
      (Log.after zeroDigest compactText (sessionOperations 0)).frames sampleEmit sampleEmission :=
    ⟨_, manifestFrame, [], _, frames_session rfl, known_written _ _ _ _, requested_session 0,
      sampleEmission_answers⟩
  refine (dispatch_stages zeroDigest ArtifactPublication.lower_zeroDigest compactText
    compactText_lawful (sample_dispatched listed answers)).mpr ⟨by decide, ?_, ?_⟩
  · exact ArtifactPublication.lower_zeroSha
  · simp [sampleEmission]

def capitalSha : String := "sha256:" ++ String.ofList (List.replicate 64 'A')

def capitalManifest : Manifest := ⟨1, [], capitalSha⟩

def capitalEmission : CompletedEmission := ⟨1, [], capitalSha⟩

def capitalFrame : Frame := ArtifactPublication.messageFrame (.manifest capitalManifest)

theorem decodeManifest_capital : decodeManifest compactText capitalFrame = .ok capitalManifest := by
  have decoded := @ControlMessage.decode_compact (.manifest capitalManifest) trivial
  obtain ⟨manifest, read, same⟩ := map_ok.mp decoded
  obtain rfl := ControlMessage.manifest.inj same
  exact read

def capitalFrames : List (Direction × Frame) := openingFrames ++ [(.backendToCore, capitalFrame)]

theorem runs_capital : ∃ s, Session.Runs zeroDigest compactText {} capitalFrames s ∧
    s.completed = [capitalEmission] := by
  refine ⟨_, runs_opening.append (.cons ⟨by simp [openedSession], by simp [openedSession],
    frameError_written (by decide +kernel) _ _⟩
    (.manifest rfl (known_written _ _ _ _) (trailing_written _ _ _ _) rfl rfl rfl
      decodeManifest_capital rfl (by decide +kernel) (show _ = Except.ok [] from rfl) rfl)
    (.nil _)), rfl⟩

def capitalOperations : List Operation :=
  capitalFrames.map (fun entry => .consume entry.1 entry.2) ++ [.takeCompletedEmission]

/-- A session completes an emission that the receipt and the publication both refuse. -/
theorem capital_digest_refused :
    Dispatched zeroDigest compactText capitalOperations ArtifactPublication.sampleDescriptor
      sampleOptions sampleEmit capitalEmission ∧
    (∀ bytes, createApproved zeroDigest compactText (resultOf ArtifactPublication.sampleDescriptor
      sampleOptions sampleEmit capitalEmission) ≠ .ok bytes) ∧
    ∀ pending, ArtifactPublication.pendingOf zeroDigest (resultOf
      ArtifactPublication.sampleDescriptor sampleOptions sampleEmit capitalEmission) ≠
        .ok pending := by
  have capital : DispatchReceipt.validDigest capitalSha = false := by decide +kernel
  obtain ⟨s, runs, completed⟩ := runs_capital
  have log := Log.run_runs runs {} rfl
  have after : Log.after zeroDigest compactText capitalOperations = Log.step zeroDigest compactText
      { session := s, frames := capitalFrames.map Prod.snd }
      .takeCompletedEmission := by
    rw [Log.after, capitalOperations, Run.run_append, log]
    rfl
  refine ⟨sample_dispatched ?_ ⟨openingFrames.map Prod.snd, capitalFrame, [], [], ?_,
    known_written _ _ _ _, ?_, ?_⟩, ?_, ?_⟩
  · simp [after, Log.step, Session.takeCompletedEmission, completed]
  · simp [after, Log.step, capitalFrames]
  · exact ⟨[helloFrame, capabilitiesFrame], requestFrame, projectionFrame, firstOrder, rfl,
      known_written _ _ _ _, decode_request, rfl, decode_projection, by simp⟩
  · exact ⟨rfl, by simp [capitalEmission], by simp [capitalEmission],
      by simp [readChunks], by simp [capitalEmission], by simp [capitalEmission]⟩
  · intro bytes created
    simp only [createApproved, bind_ok, require_ok] at created
    obtain ⟨_, ⟨-, -, -, -, -, -, -, -, receipt⟩, -⟩ := created
    exact absurd (capital.symm.trans receipt) (by simp)
  · intro pending passed
    exact absurd (capital.symm.trans (ArtifactPublication.receipt_of_pendingOf passed)) (by simp)

end Neutrino.DispatchStages
