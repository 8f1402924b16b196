import Neutrino.BackendSession
import Neutrino.Library.Checked

/-! What an accepted frame does to a session: one case for each kind of frame, with the guards
it passed. -/

namespace Neutrino.BackendProtocol

open Checked Projection

namespace Session

variable (sha256Hex : List UInt8 → String) (text : JsonText)

/-- The guards and the effect of every frame a session accepts. -/
inductive Accepts (s : Session) (d : Direction) (f : Frame) : Session → Prop
  | plain (idle : s.pending = .none) (unknown : f.known = none)
      (optional : f.mustUnderstand = false) (bare : f.hasTrailingRaw = false) : Accepts s d f s
  | skipHeader (idle : s.pending = .none) (unknown : f.known = none)
      (optional : f.mustUnderstand = false) (trailing : f.hasTrailingRaw = true) :
      Accepts s d f { s with pending := .skipped, pendingDirection := d }
  | skipRaw (awaited : s.pending = .skipped) (same : d = s.pendingDirection)
      (bare : f.hasTrailingRaw = false) (raw : (f.known.any fun type => !type.isRaw) = false) :
      Accepts s d f { s with pending := .none }
  | projection {graph : BackendProjectionGraph} (awaited : s.pending = .projection)
      (same : d = s.pendingDirection) (bare : f.hasTrailingRaw = false)
      (typed : f.known = some .projectionBytes)
      (sized : f.payload.length = s.currentEmit.artifactByteLen.toNat)
      (digest : validDigest s.currentEmit.artifactDigest ∧
        s.currentEmit.artifactDigest = "sha256:" ++ sha256Hex f.payload)
      (decoded : decodeProjectionPayload text f.payload = .ok graph)
      (bounds : s.negotiatedCapabilities.projectionSchemaMin ≤ graph.schemaVersion.toUInt32 ∧
        graph.schemaVersion.toUInt32 ≤ s.negotiatedCapabilities.projectionSchemaMax) :
      Accepts s d f { s with
        accepted := s.accepted ++ [⟨s.currentEmit, graph⟩]
        pending := .none
        state := .emitting }
  | bytes (awaited : s.pending = .artifact) (same : d = s.pendingDirection)
      (bare : f.hasTrailingRaw = false) (typed : f.known = some .artifactBytes)
      (sized : f.payload.length = s.currentChunk.byteLen.toNat)
      (fits : s.exceedsTotalBytes f = false) (more : s.currentChunk.final = false) :
      Accepts s d f { s.grow f with pending := .none }
  | finalBytes (awaited : s.pending = .artifact) (same : d = s.pendingDirection)
      (bare : f.hasTrailingRaw = false) (typed : f.known = some .artifactBytes)
      (sized : f.payload.length = s.currentChunk.byteLen.toNat)
      (fits : s.exceedsTotalBytes f = false) (final : s.currentChunk.final = true)
      (room : s.artifacts.length < s.currentEmit.outputSpec.maxArtifacts.toNat) :
      Accepts s d f (closeRun sha256Hex (s.grow f))
  | hello {hello : Hello} (idle : s.pending = .none) (typed : f.known = some .hello)
      (bare : f.hasTrailingRaw = false) (phase : s.state = .init)
      (toward : d = .coreToBackend) (decoded : decodeHello text f = .ok hello)
      (major : hello.protocolMajor = kProtocolMajor) :
      Accepts s d f { s with negotiationHello := hello, state := .awaitingCapabilities }
  | capabilities {capabilities : Capabilities} (idle : s.pending = .none)
      (typed : f.known = some .capabilities) (bare : f.hasTrailingRaw = false)
      (phase : s.state = .awaitingCapabilities) (toward : d = .backendToCore)
      (decoded : decodeCapabilities text f = .ok capabilities)
      (version : capabilities.protocolMajor = kProtocolMajor ∧
        capabilities.protocolMinorSelected ≤ s.negotiationHello.protocolMinorMax ∧
        capabilities.protocolMinorSelected ≤ kProtocolMinor)
      (bounds : capabilities.projectionSchemaMin ≤ capabilities.projectionSchemaMax) :
      Accepts s d f { s with negotiatedCapabilities := capabilities, state := .ready }
  | emit {emit : Emit} (idle : s.pending = .none) (typed : f.known = some .emit)
      (trailing : f.hasTrailingRaw = true) (phase : s.state = .ready)
      (toward : d = .coreToBackend) (decoded : decodeEmit text f = .ok emit)
      (nonzero : emit.requestId ≠ 0) (encoding : emit.artifactEncoding = kArtifactEncoding)
      (digest : validDigest emit.artifactDigest)
      (profile : emit.targetProfileIdentity = s.negotiatedCapabilities.targetProfileIdentity) :
      Accepts s d f { s with currentEmit := emit, pending := .projection, pendingDirection := d }
  | artifactChunk {chunk : ArtifactChunk} (idle : s.pending = .none)
      (typed : f.known = some .artifactChunk) (trailing : f.hasTrailingRaw = true)
      (phase : s.state = .emitting) (toward : d = .backendToCore)
      (decoded : decodeArtifactChunk text f = .ok chunk)
      (request : chunk.requestId = s.currentEmit.requestId)
      (path : validatePath chunk.path = .ok ())
      (fresh : (s.artifacts.any fun entry => entry.1 = chunk.path) = false)
      (contiguous : s.requireContiguous chunk = .ok ()) :
      Accepts s d f { s with
        currentPath := if s.currentPath = "" then chunk.path else s.currentPath
        currentChunk := chunk
        pending := .artifact
        pendingDirection := d }
  | manifest {manifest : Manifest} {paths : List String} (idle : s.pending = .none)
      (typed : f.known = some .manifest) (bare : f.hasTrailingRaw = false)
      (phase : s.state = .emitting) (toward : d = .backendToCore) (closedRun : s.currentPath = "")
      (decoded : decodeManifest text f = .ok manifest)
      (request : manifest.requestId = s.currentEmit.requestId)
      (receipt : validDigest manifest.receiptDigest)
      (entries : thread (checkManifestEntry s.artifacts) [] manifest.artifacts = .ok paths)
      (complete : paths.length = s.artifacts.length) :
      Accepts s d f { s.resetRequest with
        completed := s.completed ++
          [⟨manifest.requestId, s.artifacts.map Prod.snd, manifest.receiptDigest⟩]
        state := .ready }
  | cancel {cancel : RequestControl} (idle : s.pending = .none) (typed : f.known = some .cancel)
      (bare : f.hasTrailingRaw = false) (phase : s.state = .emitting)
      (toward : d = .coreToBackend) (decoded : decodeRequestControl text f = .ok cancel)
      (request : cancel.requestId = s.currentEmit.requestId) :
      Accepts s d f { s with state := .cancelling }
  | cancelled {cancelled : RequestControl} (idle : s.pending = .none)
      (typed : f.known = some .cancelled) (bare : f.hasTrailingRaw = false)
      (phase : s.state = .cancelling) (toward : d = .backendToCore)
      (decoded : decodeRequestControl text f = .ok cancelled)
      (request : cancelled.requestId = s.currentEmit.requestId) :
      Accepts s d f { s.resetRequest with state := .ready }
  | refusal {message : ErrorMessage} (idle : s.pending = .none) (typed : f.known = some .error)
      (bare : f.hasTrailingRaw = false) (phase : s.state = .awaitingCapabilities)
      (toward : d = .backendToCore) (decoded : decodeErrorMessage text f = .ok message)
      (request : message.requestId = 0) :
      Accepts s d f { s with peerErrors := s.peerErrors ++ [message], state := .failed }
  | error {message : ErrorMessage} (idle : s.pending = .none) (typed : f.known = some .error)
      (bare : f.hasTrailingRaw = false) (phase : s.state = .emitting)
      (toward : d = .backendToCore) (decoded : decodeErrorMessage text f = .ok message)
      (request : message.requestId = s.currentEmit.requestId) :
      Accepts s d f { s.resetRequest with
        peerErrors := s.peerErrors ++ [message]
        state := .ready }
  | goodbye {object : Json.Object} (idle : s.pending = .none) (typed : f.known = some .goodbye)
      (bare : f.hasTrailingRaw = false) (phase : s.state = .ready)
      (toward : d = .coreToBackend) (decoded : decodeOwnedControlObject text f = .ok object) :
      Accepts s d f { s with state := .closed }

/-- A session still reads frames, and the frame is one the wire carries. -/
structure Reads (s : Session) (f : Frame) : Prop where
  alive : s.state ≠ .failed
  open_ : s.state ≠ .closed
  framed : frameError f = .ok ()

variable {sha256Hex text} {s s' : Session} {d : Direction} {f : Frame}

theorem consumeProjection_ok :
    consumeProjection sha256Hex text s f = .ok s' ↔ ∃ graph,
      f.payload.length = s.currentEmit.artifactByteLen.toNat ∧
      (validDigest s.currentEmit.artifactDigest ∧
        s.currentEmit.artifactDigest = "sha256:" ++ sha256Hex f.payload) ∧
      decodeProjectionPayload text f.payload = .ok graph ∧
      (s.negotiatedCapabilities.projectionSchemaMin ≤ graph.schemaVersion.toUInt32 ∧
        graph.schemaVersion.toUInt32 ≤ s.negotiatedCapabilities.projectionSchemaMax) ∧
      { s with
        accepted := s.accepted ++ [⟨s.currentEmit, graph⟩]
        pending := .none
        state := .emitting } = s' := by
  simp only [consumeProjection, bind_ok, require_ok, mapError_ok, pure_ok, exists_const]
  constructor
  · rintro ⟨sized, digest, graph, decoded, bounds, result⟩
    exact ⟨graph, sized, digest, decoded, bounds, result⟩
  · rintro ⟨graph, sized, digest, decoded, bounds, result⟩
    exact ⟨sized, digest, graph, decoded, bounds, result⟩

/-- Where a raw frame is awaited, the accepted ones are those that end the header/raw pair. -/
theorem consumePendingRaw_ok (awaited : s.pending ≠ .none) :
    consumePendingRaw sha256Hex text s f d = (s', none) ↔
      Accepts sha256Hex text s d f s' := by
  constructor
  · intro consumed
    unfold consumePendingRaw at consumed
    split at consumed
    · simp at consumed
    · rename_i same
      split at consumed
      · simp at consumed
      · rename_i bare
        rw [not_not] at same
        rw [Bool.not_eq_true] at bare
        split at consumed
        · rename_i idle
          exact absurd idle awaited
        · rename_i skipped
          split at consumed
          · simp at consumed
          · rename_i raw
            obtain rfl : _ = s' := by simpa using consumed
            exact .skipRaw skipped same bare (by simpa using raw)
        · rename_i projection
          split at consumed
          · simp at consumed
          · rename_i typed
            split at consumed
            · simp at consumed
            · rename_i after projected
              obtain rfl : after = s' := by simpa using consumed
              obtain ⟨graph, sized, digest, decoded, bounds, rfl⟩ :=
                consumeProjection_ok.mp projected
              exact .projection projection same bare (not_not.mp typed) sized digest decoded
                bounds
        · rename_i artifact
          split at consumed
          · simp at consumed
          · rename_i typed
            rw [not_not] at typed
            unfold consumeArtifactBytes at consumed
            split at consumed
            · simp at consumed
            · rename_i sized
              rw [not_not] at sized
              split at consumed
              · simp at consumed
              · rename_i fits
                rw [Bool.not_eq_true] at fits
                split at consumed
                · rename_i final
                  split at consumed
                  · simp at consumed
                  · rename_i room
                    obtain rfl : _ = s' := by simpa using consumed
                    exact .finalBytes artifact same bare typed sized fits final
                      (by simpa using room)
                · rename_i more
                  obtain rfl : _ = s' := by simpa using consumed
                  exact .bytes artifact same bare typed sized fits (by simpa using more)
  · intro accepts
    cases accepts with
    | skipRaw skipped same bare raw =>
        simp [consumePendingRaw, skipped, same, bare, raw]
    | projection projection same bare typed sized digest decoded bounds =>
        have projected : consumeProjection sha256Hex text s f = .ok _ :=
          consumeProjection_ok.mpr ⟨_, sized, digest, decoded, bounds, rfl⟩
        simp [consumePendingRaw, projection, same, bare, typed, projected]
    | bytes artifact same bare typed sized fits more =>
        simp [consumePendingRaw, artifact, same, bare, typed, consumeArtifactBytes, sized, fits,
          more]
    | finalBytes artifact same bare typed sized fits final room =>
        simp [consumePendingRaw, artifact, same, bare, typed, consumeArtifactBytes, sized, fits,
          final, room]
    | _ => exact absurd ‹s.pending = .none› awaited

/-- Where no raw frame is awaited, the accepted known frames are the control messages. -/
theorem consumeKnown_ok {type : MessageType} (idle : s.pending = .none)
    (typed : f.known = some type) :
    consumeKnown text s d f type = .ok s' ↔
      type.isRaw = false ∧ Accepts sha256Hex text s d f s' := by
  cases type <;>
    simp only [consumeKnown, requireTrailing, requireTrailingRaw, requireNoTrailingRaw,
      requireDirection, consumeHello, consumeCapabilities, consumeEmit, consumeArtifactChunk,
      consumeManifest, consumeCancel, consumeCancelled, consumeError, consumeGoodbye, bind_ok,
      require_ok, exists_const, pure_ok]
  case hello =>
    constructor
    · rintro ⟨bare, phase, toward, hello, decoded, major, rfl⟩
      exact ⟨rfl, .hello idle typed bare phase toward decoded major⟩
    · rintro ⟨-, accepts⟩
      cases accepts with
      | hello _ _ bare phase toward decoded major =>
          exact ⟨bare, phase, toward, _, decoded, major, rfl⟩
      | _ => simp_all
  case capabilities =>
    constructor
    · rintro ⟨bare, phase, toward, capabilities, decoded, version, bounds, rfl⟩
      exact ⟨rfl, .capabilities idle typed bare phase toward decoded version bounds⟩
    · rintro ⟨-, accepts⟩
      cases accepts with
      | capabilities _ _ bare phase toward decoded version bounds =>
          exact ⟨bare, phase, toward, _, decoded, version, bounds, rfl⟩
      | _ => simp_all
  case emit =>
    constructor
    · rintro ⟨trailing, phase, toward, emit, decoded, nonzero, encoding, digest, profile, rfl⟩
      exact ⟨rfl,
        .emit idle typed trailing phase toward decoded nonzero encoding digest profile⟩
    · rintro ⟨-, accepts⟩
      cases accepts with
      | emit _ _ trailing phase toward decoded nonzero encoding digest profile =>
          exact ⟨trailing, phase, toward, _, decoded, nonzero, encoding, digest, profile, rfl⟩
      | _ => simp_all
  case artifactChunk =>
    constructor
    · rintro ⟨trailing, phase, toward, chunk, decoded, request, _, path, fresh, _, contiguous,
        rfl⟩
      exact ⟨rfl,
        .artifactChunk idle typed trailing phase toward decoded request path fresh contiguous⟩
    · rintro ⟨-, accepts⟩
      cases accepts with
      | artifactChunk _ _ trailing phase toward decoded request path fresh contiguous =>
          exact ⟨trailing, phase, toward, _, decoded, request, (), path, fresh, (), contiguous,
            rfl⟩
      | _ => simp_all
  case manifest =>
    constructor
    · rintro ⟨bare, phase, toward, closedRun, manifest, decoded, request, receipt, paths, entries,
        complete, rfl⟩
      exact ⟨rfl, .manifest idle typed bare phase toward closedRun decoded request receipt entries
        complete⟩
    · rintro ⟨-, accepts⟩
      cases accepts with
      | manifest _ _ bare phase toward closedRun decoded request receipt entries complete =>
          exact ⟨bare, phase, toward, closedRun, _, decoded, request, receipt, _, entries, complete,
            rfl⟩
      | _ => simp_all
  case cancel =>
    constructor
    · rintro ⟨bare, phase, toward, cancel, decoded, request, rfl⟩
      exact ⟨rfl, .cancel idle typed bare phase toward decoded request⟩
    · rintro ⟨-, accepts⟩
      cases accepts with
      | cancel _ _ bare phase toward decoded request =>
          exact ⟨bare, phase, toward, _, decoded, request, rfl⟩
      | _ => simp_all
  case cancelled =>
    constructor
    · rintro ⟨bare, phase, toward, cancelled, decoded, request, rfl⟩
      exact ⟨rfl, .cancelled idle typed bare phase toward decoded request⟩
    · rintro ⟨-, accepts⟩
      cases accepts with
      | cancelled _ _ bare phase toward decoded request =>
          exact ⟨bare, phase, toward, _, decoded, request, rfl⟩
      | _ => simp_all
  case error =>
    constructor
    · rintro ⟨bare, toward, message, decoded, consumed⟩
      split at consumed
      · rename_i phase
        simp only [bind_ok, require_ok, exists_const, pure_ok] at consumed
        obtain ⟨request, rfl⟩ := consumed
        exact ⟨rfl, .refusal idle typed bare phase toward decoded request⟩
      · simp only [bind_ok, require_ok, exists_const, pure_ok] at consumed
        obtain ⟨phase, request, rfl⟩ := consumed
        exact ⟨rfl, .error idle typed bare phase toward decoded request⟩
    · rintro ⟨-, accepts⟩
      cases accepts with
      | refusal _ _ bare phase toward decoded request =>
          refine ⟨bare, toward, _, decoded, ?_⟩
          simp only [phase, if_true, bind_ok, require_ok, exists_const, pure_ok, and_true]
          exact request
      | error _ _ bare phase toward decoded request =>
          refine ⟨bare, toward, _, decoded, ?_⟩
          simp only [phase, reduceCtorEq, if_false, bind_ok, require_ok, exists_const, pure_ok,
            true_and, and_true]
          exact request
      | _ => simp_all
  case goodbye =>
    constructor
    · rintro ⟨bare, phase, toward, object, decoded, rfl⟩
      exact ⟨rfl, .goodbye idle typed bare phase toward decoded⟩
    · rintro ⟨-, accepts⟩
      cases accepts with
      | goodbye _ _ bare phase toward decoded =>
          exact ⟨bare, phase, toward, _, decoded, rfl⟩
      | _ => simp_all
  case artifactBytes | projectionBytes => simp [MessageType.isRaw]

/-- A raw frame is accepted only where one is awaited. -/
theorem Accepts.isRaw {type : MessageType} (accepts : Accepts sha256Hex text s d f s')
    (idle : s.pending = .none) (typed : f.known = some type) : type.isRaw = false := by
  cases type with
  | artifactBytes | projectionBytes => cases accepts <;> simp_all
  | _ => rfl

/-- The step of the session: a frame is accepted exactly when its case's guards hold. -/
theorem consume_ok :
    consume sha256Hex text s d f = (s', none) ↔
      Reads s f ∧ Accepts sha256Hex text s d f s' := by
  constructor
  · intro consumed
    unfold consume at consumed
    split at consumed
    · simp at consumed
    · rename_i alive
      split at consumed
      · simp at consumed
      · rename_i unclosed
        split at consumed
        · simp at consumed
        · rename_i framed
          refine ⟨⟨alive, unclosed, framed⟩, ?_⟩
          split at consumed
          · rename_i awaited
            split at consumed
            · simp at consumed
            · rename_i after raw
              obtain rfl : after = s' := by simpa using consumed
              exact (consumePendingRaw_ok awaited).mp raw
          · rename_i idle
            rw [not_not] at idle
            split at consumed
            · rename_i unknown
              split at consumed
              · simp at consumed
              · rename_i optional
                rw [Bool.not_eq_true] at optional
                split at consumed
                · rename_i trailing
                  obtain rfl : _ = s' := by simpa using consumed
                  exact .skipHeader idle unknown optional trailing
                · rename_i bare
                  obtain rfl : s = s' := by simpa using consumed
                  exact .plain idle unknown optional (by simpa using bare)
            · rename_i type typed
              split at consumed
              · simp at consumed
              · split at consumed
                · simp at consumed
                · rename_i after known
                  obtain rfl : after = s' := by simpa using consumed
                  exact ((consumeKnown_ok idle typed).mp known).2
  · rintro ⟨⟨alive, unclosed, framed⟩, accepts⟩
    by_cases idle : s.pending = .none
    · cases typed : f.known with
      | none => cases accepts <;> simp_all [consume]
      | some type =>
          have control := accepts.isRaw idle typed
          have known := (consumeKnown_ok idle typed).mpr
            ⟨control, accepts⟩
          simp [consume, alive, unclosed, framed, idle, typed, control, known]
    · have raw := (consumePendingRaw_ok idle).mpr accepts
      simp [consume, alive, unclosed, framed, idle, raw]

/-- A rejected raw frame leaves the session as it was, the bytes of an artifact too many apart. -/
theorem consumePendingRaw_error {failure : String}
    (consumed : consumePendingRaw sha256Hex text s f d = (s', some failure)) :
    s' = s ∨ s' = s.grow f := by
  unfold consumePendingRaw at consumed
  split at consumed
  · exact .inl (Prod.mk.inj consumed).1.symm
  · split at consumed
    · exact .inl (Prod.mk.inj consumed).1.symm
    · split at consumed
      · simp at consumed
      · split at consumed
        · exact .inl (Prod.mk.inj consumed).1.symm
        · simp at consumed
      · split at consumed
        · exact .inl (Prod.mk.inj consumed).1.symm
        · split at consumed
          · exact .inl (Prod.mk.inj consumed).1.symm
          · simp at consumed
      · split at consumed
        · exact .inl (Prod.mk.inj consumed).1.symm
        · unfold consumeArtifactBytes at consumed
          split at consumed
          · exact .inl (Prod.mk.inj consumed).1.symm
          · split at consumed
            · exact .inl (Prod.mk.inj consumed).1.symm
            · split at consumed
              · split at consumed
                · exact .inr (Prod.mk.inj consumed).1.symm
                · simp at consumed
              · simp at consumed

theorem fail_of_failed (failed : s.state = .failed) : s.fail = s := by
  cases s
  simp_all [fail]

theorem consume_error {failure : String}
    (consumed : consume sha256Hex text s d f = (s', some failure)) :
    s' = s.fail ∨ s' = (s.grow f).fail := by
  unfold consume at consumed
  split at consumed
  · rename_i failed
    rw [fail_of_failed failed]
    exact .inl (Prod.mk.inj consumed).1.symm
  · split at consumed
    · exact .inl (Prod.mk.inj consumed).1.symm
    · split at consumed
      · exact .inl (Prod.mk.inj consumed).1.symm
      · split at consumed
        · split at consumed
          · rename_i after _ raw
            obtain rfl : after.fail = s' := (Prod.mk.inj consumed).1
            rcases consumePendingRaw_error raw with rfl | rfl
            · exact .inl rfl
            · exact .inr rfl
          · simp at consumed
        · split at consumed
          · split at consumed
            · exact .inl (Prod.mk.inj consumed).1.symm
            · split at consumed <;> simp at consumed
          · split at consumed
            · exact .inl (Prod.mk.inj consumed).1.symm
            · split at consumed
              · exact .inl (Prod.mk.inj consumed).1.symm
              · simp at consumed

/-- A rejected frame fails the session and changes none of what it has produced. -/
theorem consume_rejected {failure : String}
    (consumed : consume sha256Hex text s d f = (s', some failure)) :
    s'.state = .failed ∧ s'.accepted = s.accepted ∧ s'.completed = s.completed ∧
      s'.peerErrors = s.peerErrors := by
  rcases consume_error consumed with rfl | rfl
  · exact ⟨rfl, rfl, rfl, rfl⟩
  · exact ⟨rfl, rfl, rfl, rfl⟩

/-- A session that has failed or closed rejects every frame. -/
theorem consume_finished (sha256Hex : List UInt8 → String) (text : JsonText) (d : Direction)
    (f : Frame) (finished : s.state = .failed ∨ s.state = .closed) :
    ∃ failure, consume sha256Hex text s d f = (s.fail, some failure) := by
  rcases finished with failed | closed
  · exact ⟨_, by rw [consume, if_pos failed, fail_of_failed failed]⟩
  · exact ⟨_, by rw [consume, if_neg (by simp [closed]), if_pos closed]⟩

/-- Frames accepted one after the other. -/
inductive Runs (sha256Hex : List UInt8 → String) (text : JsonText) :
    Session → List (Direction × Frame) → Session → Prop
  | nil (s : Session) : Runs sha256Hex text s [] s
  | cons {s middle s' : Session} {d : Direction} {f : Frame} {rest : List (Direction × Frame)}
      (reads : Reads s f) (accepts : Accepts sha256Hex text s d f middle)
      (runs : Runs sha256Hex text middle rest s') : Runs sha256Hex text s ((d, f) :: rest) s'

variable {sha256Hex : List UInt8 → String} {text : JsonText}

theorem Runs.append {s middle s' : Session} {first second : List (Direction × Frame)}
    (runs : Runs sha256Hex text s first middle) (others : Runs sha256Hex text middle second s') :
    Runs sha256Hex text s (first ++ second) s' := by
  induction runs with
  | nil => exact others
  | cons reads accepts _ ih => exact .cons reads accepts (ih others)

end Session

end Neutrino.BackendProtocol
