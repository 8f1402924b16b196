import Neutrino.SessionEmission
import Neutrino.SkippedFrames

/-! What a caller learns from a session, and that a frame of an unknown type that need not be
understood changes nothing of it. -/

namespace Neutrino.BackendProtocol

open Checked Projection Session

/-- A frame of an unknown type that need not be understood, with the raw frame it declares. -/
inductive Insertion : List Frame → Prop
  | bare {header : Frame} (unknown : header.known = none)
      (optional : header.mustUnderstand = false) (bare : header.hasTrailingRaw = false) :
      Insertion [header]
  | paired {header raw : Frame} (unknown : header.known = none)
      (optional : header.mustUnderstand = false) (trailing : header.hasTrailingRaw = true)
      (last : raw.hasTrailingRaw = false)
      (typed : (raw.known.any fun type => !type.isRaw) = false) : Insertion [header, raw]

/-- What an operation tells the caller. -/
inductive Reply
  | verdict (failure : Option String)
  | emit (accepted : Option AcceptedEmit)
  | emission (completed : Option CompletedEmission)
  | peerError (message : Option ErrorMessage)

namespace Session

section Replies

variable (sha256Hex : List UInt8 → String) (text : JsonText)

def perform (s : Session) : Operation → Session × Reply
  | .consume direction frame =>
      ((s.consume sha256Hex text direction frame).1,
        .verdict (s.consume sha256Hex text direction frame).2)
  | .finish => (s.finish.1, .verdict s.finish.2)
  | .takeAcceptedEmit => (s.takeAcceptedEmit.1, .emit s.takeAcceptedEmit.2)
  | .takeCompletedEmission => (s.takeCompletedEmission.1, .emission s.takeCompletedEmission.2)
  | .takePeerError => (s.takePeerError.1, .peerError s.takePeerError.2)

def replies (s : Session) : List Operation → List Reply
  | [] => []
  | operation :: rest =>
      (s.perform sha256Hex text operation).2 ::
        replies (s.perform sha256Hex text operation).1 rest

variable {sha256Hex text} {s t : Session}

theorem Alike.takeAcceptedEmit (alike : Alike s t) :
    t.takeAcceptedEmit.2 = s.takeAcceptedEmit.2 ∧
      Alike s.takeAcceptedEmit.1 t.takeAcceptedEmit.1 := by
  obtain ⟨fields, direction⟩ := alike
  generalize t.pendingDirection = e at fields direction
  subst fields
  unfold Session.takeAcceptedEmit
  dsimp only
  split
  · exact ⟨rfl, rfl, direction⟩
  · exact ⟨rfl, rfl, direction⟩

theorem Alike.takeCompletedEmission (alike : Alike s t) :
    t.takeCompletedEmission.2 = s.takeCompletedEmission.2 ∧
      Alike s.takeCompletedEmission.1 t.takeCompletedEmission.1 := by
  obtain ⟨fields, direction⟩ := alike
  generalize t.pendingDirection = e at fields direction
  subst fields
  unfold Session.takeCompletedEmission
  dsimp only
  split
  · exact ⟨rfl, rfl, direction⟩
  · exact ⟨rfl, rfl, direction⟩

theorem Alike.takePeerError (alike : Alike s t) :
    t.takePeerError.2 = s.takePeerError.2 ∧ Alike s.takePeerError.1 t.takePeerError.1 := by
  obtain ⟨fields, direction⟩ := alike
  generalize t.pendingDirection = e at fields direction
  subst fields
  unfold Session.takePeerError
  dsimp only
  split
  · exact ⟨rfl, rfl, direction⟩
  · exact ⟨rfl, rfl, direction⟩

theorem Alike.finish (alike : Alike s t) :
    t.finish.2 = s.finish.2 ∧ Alike s.finish.1 t.finish.1 := by
  obtain ⟨fields, direction⟩ := alike
  generalize t.pendingDirection = e at fields direction
  subst fields
  unfold Session.finish
  dsimp only
  split
  · exact ⟨rfl, rfl, direction⟩
  · exact ⟨rfl, rfl, direction⟩

theorem Alike.perform (alike : Alike s t) (sha256Hex : List UInt8 → String) (text : JsonText)
    (operation : Operation) :
    (t.perform sha256Hex text operation).2 = (s.perform sha256Hex text operation).2 ∧
      Alike (s.perform sha256Hex text operation).1 (t.perform sha256Hex text operation).1 := by
  cases operation with
  | consume direction frame =>
      obtain ⟨verdict, still⟩ := alike.consume sha256Hex text direction frame
      exact ⟨congrArg Reply.verdict verdict, still⟩
  | finish => exact ⟨congrArg Reply.verdict alike.finish.1, alike.finish.2⟩
  | takeAcceptedEmit =>
      exact ⟨congrArg Reply.emit alike.takeAcceptedEmit.1, alike.takeAcceptedEmit.2⟩
  | takeCompletedEmission =>
      exact ⟨congrArg Reply.emission alike.takeCompletedEmission.1,
        alike.takeCompletedEmission.2⟩
  | takePeerError =>
      exact ⟨congrArg Reply.peerError alike.takePeerError.1, alike.takePeerError.2⟩

/-- Alike sessions are told apart by no operations. -/
theorem Alike.replies (alike : Alike s t) (operations : List Operation) :
    Session.replies sha256Hex text t operations = Session.replies sha256Hex text s operations := by
  induction operations generalizing s t with
  | nil => rfl
  | cons operation rest ih =>
      obtain ⟨reply, still⟩ := alike.perform sha256Hex text operation
      rw [Session.replies, Session.replies, reply, ih still]

/-- Between two header/raw pairs such frames are accepted and leave the session alike. -/
theorem runs_insertion (sha256Hex : List UInt8 → String) (text : JsonText) {inserted : List Frame}
    (insertion : Insertion inserted) (idle : s.pending = .none) (alive : s.state ≠ .failed)
    (unclosed : s.state ≠ .closed) (framed : ∀ frame ∈ inserted, frameError frame = .ok ())
    (d : Direction) :
    ∃ t, Runs sha256Hex text s (inserted.map fun frame => (d, frame)) t ∧ Alike s t := by
  cases insertion with
  | bare unknown optional bare =>
      have reads := framed _ (List.mem_singleton_self _)
      exact ⟨s, .cons ⟨alive, unclosed, reads⟩ (.plain idle unknown optional bare) (.nil _),
        .refl s⟩
  | paired unknown optional trailing last typed =>
      refine ⟨_, .cons ⟨alive, unclosed, framed _ (by simp)⟩
        (.skipHeader idle unknown optional trailing)
        (.cons ⟨alive, unclosed, framed _ (by simp)⟩ (.skipRaw rfl rfl last typed) (.nil _)),
        ?_, fun awaited => absurd idle awaited⟩
      cases s
      simp_all

/-- A run of accepted frames is one of frames the wire carries. -/
theorem Runs.framed {frames : List (Direction × Frame)} (runs : Runs sha256Hex text s frames t) :
    ∀ frame ∈ frames, frameError frame.2 = .ok () := by
  induction runs with
  | nil => simp
  | cons reads _ _ ih =>
      intro frame listed
      rcases List.mem_cons.mp listed with rfl | later
      · exact reads.framed
      · exact ih frame later

end Replies

end Session

end Neutrino.BackendProtocol
