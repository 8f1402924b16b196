import Neutrino.SessionSteps

/-! Frames of types a session does not know: how the raw frame a header announces is told from
the frames alone, and that a skipped frame leaves all but that announcement as it was. -/

namespace Neutrino.BackendProtocol

open Checked Projection

@[simp] theorem Direction.other_other (d : Direction) : d.other.other = d := by cases d <;> rfl

theorem Direction.other_ne (d : Direction) : d.other ≠ d := by cases d <;> simp [other]

theorem Direction.eq_other {d e : Direction} (differ : d ≠ e) : d = e.other := by
  cases d <;> cases e <;> simp_all [other]

namespace PendingRaw

/-- What is awaited after a frame, from what was awaited before it. -/
def after (awaited : PendingRaw) (frame : Frame) : PendingRaw :=
  match awaited with
  | .none =>
      match frame.known with
      | .none => if frame.hasTrailingRaw then .skipped else .none
      | some .emit => .projection
      | some .artifactChunk => .artifact
      | some _ => .none
  | _ => .none

/-- A frame of an unknown type, or the raw frame its header announced. -/
def skips (awaited : PendingRaw) (frame : Frame) : Bool :=
  awaited = .skipped || (awaited = .none && frame.known.isNone)

/-- The frames that are not skipped. -/
def significant (awaited : PendingRaw) : List Frame → List Frame
  | [] => []
  | frame :: rest =>
      if awaited.skips frame then significant (awaited.after frame) rest
      else frame :: significant (awaited.after frame) rest

/-- The checks on a frame that no session state plays a part in. -/
structure Carries (awaited : PendingRaw) (frame : Frame) : Prop where
  framed : frameError frame = .ok ()
  raw : awaited = .skipped → frame.hasTrailingRaw = false ∧
    (frame.known.any fun type => !type.isRaw) = false
  optional : awaited = .none → frame.known = .none → frame.mustUnderstand = false

/-- A stream of frames each of which passes those checks, from one announcement to another. -/
def Stream (awaited : PendingRaw) : List Frame → PendingRaw → Prop
  | [], final => awaited = final
  | frame :: rest, final => awaited.Carries frame ∧ Stream (awaited.after frame) rest final

theorem Stream.snoc {frames : List Frame} {awaited final : PendingRaw} {frame : Frame}
    (stream : Stream awaited frames final) (carries : final.Carries frame) :
    Stream awaited (frames ++ [frame]) (final.after frame) := by
  induction frames generalizing awaited with
  | nil =>
      obtain rfl : awaited = final := stream
      exact ⟨carries, rfl⟩
  | cons first rest ih => exact ⟨stream.1, ih stream.2⟩

theorem significant_snoc {frames : List Frame} {awaited final : PendingRaw} {frame : Frame}
    (stream : Stream awaited frames final) :
    significant awaited (frames ++ [frame]) =
      significant awaited frames ++ if final.skips frame then [] else [frame] := by
  induction frames generalizing awaited with
  | nil =>
      obtain rfl : awaited = final := stream
      simp only [List.nil_append, significant]
  | cons first rest ih =>
      rw [List.cons_append, significant, significant, ih stream.2]
      split <;> rfl

end PendingRaw

namespace Session

/-- The raw frame a session awaits from one side. -/
def awaits (s : Session) (d : Direction) : PendingRaw :=
  if s.pendingDirection = d then s.pending else .none

/-- Two sessions that differ at most in the direction of a raw frame neither awaits. -/
structure Alike (s t : Session) : Prop where
  fields : t = { s with pendingDirection := t.pendingDirection }
  direction : s.pending ≠ .none → t.pendingDirection = s.pendingDirection

theorem Alike.refl (s : Session) : Alike s s := ⟨rfl, fun _ => rfl⟩

theorem Alike.pending {s t : Session} (alike : Alike s t) : t.pending = s.pending := by
  rw [alike.fields]

theorem Alike.state {s t : Session} (alike : Alike s t) : t.state = s.state := by
  rw [alike.fields]

theorem Alike.symm {s t : Session} (alike : Alike s t) : Alike t s where
  fields := by rw [alike.fields]
  direction awaited := (alike.direction (alike.pending ▸ awaited)).symm

/-- Without an awaited raw frame the direction is of no account. -/
theorem Alike.of_idle (s : Session) (d : Direction) (idle : s.pending = .none) :
    Alike s { s with pendingDirection := d } := ⟨rfl, fun awaited => absurd idle awaited⟩

section Congruence

variable {sha256Hex : List UInt8 → String} {text : JsonText} {s s' t : Session} {d : Direction}
  {f : Frame}

/-- Alike sessions accept the same frames and stay alike. -/
theorem Alike.accepts (alike : Alike s t) (accepts : Accepts sha256Hex text s d f s') :
    ∃ t', Accepts sha256Hex text t d f t' ∧ Alike s' t' := by
  obtain ⟨fields, direction⟩ := alike
  generalize t.pendingDirection = e at fields direction
  subst fields
  cases accepts with
  | plain idle unknown optional bare =>
      exact ⟨_, .plain idle unknown optional bare, rfl, fun awaited => absurd idle awaited⟩
  | skipHeader idle unknown optional trailing =>
      exact ⟨_, .skipHeader idle unknown optional trailing, .refl _⟩
  | skipRaw awaited same bare raw =>
      have still : e = s.pendingDirection := direction (by simp [awaited])
      exact ⟨_, .skipRaw awaited (same.trans still.symm) bare raw, rfl, by simp⟩
  | projection awaited same bare typed sized digest decoded bounds =>
      have still : e = s.pendingDirection := direction (by simp [awaited])
      exact ⟨_, .projection awaited (same.trans still.symm) bare typed sized digest decoded
        bounds, rfl, by simp⟩
  | bytes awaited same bare typed sized fits more =>
      have still : e = s.pendingDirection := direction (by simp [awaited])
      exact ⟨_, .bytes awaited (same.trans still.symm) bare typed sized fits more, rfl, by simp⟩
  | finalBytes awaited same bare typed sized fits final room =>
      have still : e = s.pendingDirection := direction (by simp [awaited])
      exact ⟨_, .finalBytes awaited (same.trans still.symm) bare typed sized fits final room, rfl,
        by simp [closeRun]⟩
  | hello idle typed bare phase toward decoded major =>
      exact ⟨_, .hello idle typed bare phase toward decoded major, rfl,
        fun awaited => absurd idle awaited⟩
  | capabilities idle typed bare phase toward decoded version bounds =>
      exact ⟨_, .capabilities idle typed bare phase toward decoded version bounds, rfl,
        fun awaited => absurd idle awaited⟩
  | emit idle typed trailing phase toward decoded nonzero encoding digest profile =>
      exact ⟨_, .emit idle typed trailing phase toward decoded nonzero encoding digest profile,
        .refl _⟩
  | artifactChunk idle typed trailing phase toward decoded request path fresh contiguous =>
      exact ⟨_, .artifactChunk idle typed trailing phase toward decoded request path fresh
        contiguous, .refl _⟩
  | manifest idle typed bare phase toward closedRun decoded request receipt entries complete =>
      exact ⟨_, .manifest idle typed bare phase toward closedRun decoded request receipt entries
        complete, rfl, by simp [resetRequest]⟩
  | cancel idle typed bare phase toward decoded request =>
      exact ⟨_, .cancel idle typed bare phase toward decoded request, rfl,
        fun awaited => absurd idle awaited⟩
  | cancelled idle typed bare phase toward decoded request =>
      exact ⟨_, .cancelled idle typed bare phase toward decoded request, rfl,
        by simp [resetRequest]⟩
  | refusal idle typed bare phase toward decoded request =>
      exact ⟨_, .refusal idle typed bare phase toward decoded request, rfl,
        fun awaited => absurd idle awaited⟩
  | error idle typed bare phase toward decoded request =>
      exact ⟨_, .error idle typed bare phase toward decoded request, rfl,
        by simp [resetRequest]⟩
  | goodbye idle typed bare phase toward decoded =>
      exact ⟨_, .goodbye idle typed bare phase toward decoded, rfl,
        fun awaited => absurd idle awaited⟩

/-- Alike sessions treat a control message alike, down to the error. -/
theorem consumeKnown_alike (text : JsonText) (d : Direction) (f : Frame) (idle : s.pending = .none) (e : Direction) (type : MessageType) :
    Agrees (fun _ => False) Alike (consumeKnown text s d f type)
      (consumeKnown text { s with pendingDirection := e } d f type) := by
  have still {u : Session} (same : u.pending = .none) :
      Alike u { u with pendingDirection := e } := .of_idle u e same
  unfold consumeKnown
  refine .bind_same fun _ _ => ?_
  cases type with
  | hello =>
      exact .bind_same fun _ _ => .bind_same fun _ _ => .bind_same fun _ _ =>
        .bind_same fun _ _ => .ok (still idle)
  | capabilities =>
      exact .bind_same fun _ _ => .bind_same fun _ _ => .bind_same fun _ _ =>
        .bind_same fun _ _ => .bind_same fun _ _ => .ok (still idle)
  | emit =>
      exact .bind_same fun _ _ => .bind_same fun _ _ => .bind_same fun _ _ =>
        .bind_same fun _ _ => .bind_same fun _ _ => .bind_same fun _ _ =>
        .bind_same fun _ _ => .ok (.refl _)
  | artifactChunk =>
      exact .bind_same fun _ _ => .bind_same fun _ _ => .bind_same fun _ _ =>
        .bind_same fun _ _ => .bind_same fun _ _ => .bind_same fun _ _ =>
        .bind_same fun _ _ => .ok (.refl _)
  | manifest =>
      exact .bind_same fun _ _ => .bind_same fun _ _ => .bind_same fun _ _ =>
        .bind_same fun _ _ => .bind_same fun _ _ => .bind_same fun _ _ =>
        .bind_same fun _ _ => .bind_same fun _ _ => .ok (still rfl)
  | cancel =>
      exact .bind_same fun _ _ => .bind_same fun _ _ => .bind_same fun _ _ =>
        .bind_same fun _ _ => .ok (still idle)
  | cancelled =>
      exact .bind_same fun _ _ => .bind_same fun _ _ => .bind_same fun _ _ =>
        .bind_same fun _ _ => .ok (still rfl)
  | error =>
      refine .bind_same fun _ _ => .bind_same fun _ _ => ?_
      dsimp only
      split
      · exact .bind_same fun _ _ => .ok (still idle)
      · exact .bind_same fun _ _ => .bind_same fun _ _ => .ok (still rfl)
  | goodbye =>
      exact .bind_same fun _ _ => .bind_same fun _ _ => .bind_same fun _ _ => .ok (still idle)
  | artifactBytes | projectionBytes => exact .error _

/-- Alike sessions consume a frame alike: with one verdict and into alike sessions. -/
theorem Alike.consume (alike : Alike s t) (sha256Hex : List UInt8 → String) (text : JsonText)
    (d : Direction) (f : Frame) :
    (t.consume sha256Hex text d f).2 = (s.consume sha256Hex text d f).2 ∧
      Alike (s.consume sha256Hex text d f).1 (t.consume sha256Hex text d f).1 := by
  obtain ⟨fields, direction⟩ := alike
  generalize t.pendingDirection = e at fields direction
  subst fields
  by_cases idle : s.pending = .none
  · have still {u : Session} (same : u.pending = .none) :
        Alike u { u with pendingDirection := e } := .of_idle u e same
    unfold Session.consume
    dsimp only
    split
    · exact ⟨rfl, still idle⟩
    · split
      · exact ⟨rfl, still idle⟩
      · split
        · exact ⟨rfl, still idle⟩
        · rw [if_neg (not_not.mpr idle), if_neg (not_not.mpr idle)]
          split
          · split
            · exact ⟨rfl, still idle⟩
            · split
              · exact ⟨rfl, .refl _⟩
              · exact ⟨rfl, still idle⟩
          · rename_i type typed
            split
            · exact ⟨rfl, still idle⟩
            · have agrees := consumeKnown_alike text d f idle e type
              revert agrees
              generalize consumeKnown text s d f type = first
              generalize consumeKnown text { s with pendingDirection := e } d f type = second
              intro agrees
              cases agrees with
              | ok alike => exact ⟨rfl, alike⟩
              | error failure => exact ⟨rfl, still idle⟩
              | left _ never => exact never.elim
              | right _ never => exact never.elim
  · obtain rfl : e = s.pendingDirection := direction idle
    exact ⟨rfl, .refl _⟩

/-- Nothing is awaited from either side. -/
theorem awaits_idle (idle : s.pending = .none) (e : Direction) : s.awaits e = .none := by
  simp [awaits, idle]

theorem awaits_own (s : Session) : s.awaits s.pendingDirection = s.pending := by
  simp [awaits]

theorem awaits_off {e : Direction} (off : s.pendingDirection ≠ e) : s.awaits e = .none := by
  simp [awaits, off]

theorem pending_of_awaits {e : Direction} (other : s.awaits e.other = .none) :
    s.pending = s.awaits e := by
  by_cases own : s.pendingDirection = e
  · simp [awaits, own]
  · have toward := Direction.eq_other own
    rw [← toward, awaits_own] at other
    rw [other, awaits_off own]

/-- An accepted frame comes from the side whose raw frame is awaited, passes the checks of the
wire, and leaves awaited what the frames of its side say. -/
structure Follows (s s' : Session) (d : Direction) (f : Frame) : Prop where
  other : s.awaits d.other = .none
  other' : s'.awaits d.other = .none
  own : s'.awaits d = (s.awaits d).after f
  carries : (s.awaits d).Carries f

theorem Follows.control {type : MessageType} (framed : frameError f = .ok ())
    (idle : s.pending = .none) (idle' : s'.pending = .none) (typed : f.known = some type)
    (emit : type ≠ .emit) (chunk : type ≠ .artifactChunk) : Follows s s' d f where
  other := awaits_idle idle d.other
  other' := awaits_idle idle' d.other
  own := by
    rw [awaits_idle idle, awaits_idle idle', PendingRaw.after, typed]
    cases type <;> simp_all
  carries := ⟨framed, by simp [awaits_idle idle], by simp [typed]⟩

theorem Follows.header {awaited : PendingRaw} (framed : frameError f = .ok ())
    (idle : s.pending = .none) (announced : s'.pending = awaited)
    (toward : s'.pendingDirection = d) (after : PendingRaw.none.after f = awaited)
    (optional : f.known = none → f.mustUnderstand = false) : Follows s s' d f where
  other := awaits_idle idle d.other
  other' := awaits_off (toward ▸ (d.other_ne).symm)
  own := by
    rw [← toward, awaits_own, announced, awaits_idle idle, after]
  carries := ⟨framed, by simp [awaits_idle idle], fun _ => optional⟩

theorem Follows.raw (framed : frameError f = .ok ()) (awaited : s.pending ≠ .none)
    (same : d = s.pendingDirection) (idle : s'.pending = .none)
    (skipped : s.pending = .skipped → f.hasTrailingRaw = false ∧
      (f.known.any fun type => !type.isRaw) = false) : Follows s s' d f where
  other := awaits_off (same ▸ (d.other_ne).symm)
  other' := awaits_idle idle d.other
  own := by
    subst same
    rw [awaits_own, awaits_idle idle]
    cases pending : s.pending <;> simp_all [PendingRaw.after]
  carries := by
    subst same
    rw [awaits_own]
    exact ⟨framed, skipped, fun none => absurd none awaited⟩

theorem Accepts.follows (reads : Reads s f) (accepts : Accepts sha256Hex text s d f s') :
    Follows s s' d f := by
  have framed := reads.framed
  cases accepts with
  | plain idle unknown optional bare =>
      exact ⟨awaits_idle idle _, awaits_idle idle _,
        by simp [awaits_idle idle, PendingRaw.after, unknown, bare],
        ⟨framed, by simp [awaits_idle idle], fun _ _ => optional⟩⟩
  | skipHeader idle unknown optional trailing =>
      exact .header framed idle rfl rfl (by simp [PendingRaw.after, unknown, trailing])
        fun _ => optional
  | skipRaw awaited same bare raw =>
      exact .raw framed (by simp [awaited]) same rfl fun _ => ⟨bare, raw⟩
  | projection awaited same bare typed sized digest decoded bounds =>
      exact .raw framed (by simp [awaited]) same rfl (by simp [awaited])
  | bytes awaited same bare typed sized fits more =>
      exact .raw framed (by simp [awaited]) same rfl (by simp [awaited])
  | finalBytes awaited same bare typed sized fits final room =>
      exact .raw framed (by simp [awaited]) same rfl (by simp [awaited])
  | hello idle typed bare phase toward decoded major =>
      exact .control framed idle idle typed (by simp) (by simp)
  | capabilities idle typed bare phase toward decoded version bounds =>
      exact .control framed idle idle typed (by simp) (by simp)
  | emit idle typed trailing phase toward decoded nonzero encoding digest profile =>
      exact .header framed idle rfl rfl (by simp [PendingRaw.after, typed]) (by simp [typed])
  | artifactChunk idle typed trailing phase toward decoded request path fresh contiguous =>
      exact .header framed idle rfl rfl (by simp [PendingRaw.after, typed]) (by simp [typed])
  | manifest idle typed bare phase toward closedRun decoded request receipt entries complete =>
      exact .control framed idle rfl typed (by simp) (by simp)
  | cancel idle typed bare phase toward decoded request =>
      exact .control framed idle idle typed (by simp) (by simp)
  | cancelled idle typed bare phase toward decoded request =>
      exact .control framed idle rfl typed (by simp) (by simp)
  | refusal idle typed bare phase toward decoded request =>
      exact .control framed idle idle typed (by simp) (by simp)
  | error idle typed bare phase toward decoded request =>
      exact .control framed idle rfl typed (by simp) (by simp)
  | goodbye idle typed bare phase toward decoded =>
      exact .control framed idle idle typed (by simp) (by simp)

/-! What is left of a session once skipped frames are set aside. -/

/-- The session as though no skipped header had come. -/
def settle (s : Session) : Session :=
  match s.pending with
  | .none | .skipped => { s with pending := .none, pendingDirection := .coreToBackend }
  | _ => s

theorem settle_state (s : Session) : s.settle.state = s.state := by
  unfold settle
  split <;> rfl

theorem settle_completed (s : Session) : s.settle.completed = s.completed := by
  unfold settle
  split <;> rfl

theorem settle_alike (unskipped : s.pending ≠ .skipped) : Alike s s.settle := by
  unfold settle
  split
  · rename_i idle
    exact ⟨by cases s; simp_all, fun awaited => absurd idle awaited⟩
  · rename_i skipped
    exact absurd skipped unskipped
  · exact .refl s

theorem Alike.settle (alike : Alike s t) : s.settle = t.settle := by
  obtain ⟨fields, direction⟩ := alike
  generalize t.pendingDirection = e at fields direction
  subst fields
  unfold Session.settle
  cases pending : s.pending with
  | none | skipped => rfl
  | projection | artifact =>
      have still : e = s.pendingDirection := direction (by simp [pending])
      cases s
      simp_all

/-- A skipped frame is set aside. -/
theorem Accepts.settle_skips (accepts : Accepts sha256Hex text s d f s')
    (skips : (s.awaits d).skips f = true) : s'.settle = s.settle := by
  cases accepts with
  | plain => rfl
  | skipHeader idle => simp [settle, idle]
  | skipRaw awaited => simp [settle, awaited]
  | projection awaited same =>
      subst same
      simp [awaits_own, awaited, PendingRaw.skips] at skips
  | bytes awaited same =>
      subst same
      simp [awaits_own, awaited, PendingRaw.skips] at skips
  | finalBytes awaited same =>
      subst same
      simp [awaits_own, awaited, PendingRaw.skips] at skips
  | hello idle typed | capabilities idle typed | emit idle typed | artifactChunk idle typed
  | manifest idle typed | cancel idle typed | cancelled idle typed | refusal idle typed
  | error idle typed | goodbye idle typed =>
      simp [awaits_idle idle, typed, PendingRaw.skips] at skips

/-- Any other frame is accepted by the settled session with the same effect. -/
theorem Accepts.settle (accepts : Accepts sha256Hex text s d f s')
    (unskipped : s.pending ≠ .skipped) :
    ∃ u, Accepts sha256Hex text s.settle d f u ∧ u.settle = s'.settle := by
  obtain ⟨u, accepted, alike⟩ := (settle_alike unskipped).accepts accepts
  exact ⟨u, accepted, alike.settle.symm⟩

theorem Accepts.of_settle (unskipped : s.pending ≠ .skipped)
    (accepts : Accepts sha256Hex text s.settle d f s') :
    ∃ u, Accepts sha256Hex text s d f u ∧ u.settle = s'.settle := by
  obtain ⟨u, accepted, alike⟩ := (settle_alike unskipped).symm.accepts accepts
  exact ⟨u, accepted, alike.settle.symm⟩

/-- A frame the wire carries is skipped whenever its side may speak. -/
theorem accepts_skips (sha256Hex : List UInt8 → String) (text : JsonText)
    (other : s.awaits d.other = .none) (carries : (s.awaits d).Carries f)
    (skips : (s.awaits d).skips f = true) : ∃ s', Accepts sha256Hex text s d f s' := by
  have pending := pending_of_awaits other
  simp only [PendingRaw.skips, Bool.or_eq_true, Bool.and_eq_true, decide_eq_true_eq] at skips
  rcases skips with skipped | ⟨idle, unknown⟩
  · have toward : d = s.pendingDirection := by
      by_contra off
      rw [awaits_off (Ne.symm off)] at skipped
      cases skipped
    obtain ⟨bare, raw⟩ := carries.raw skipped
    exact ⟨_, .skipRaw (pending.trans skipped) toward bare raw⟩
  · have unknown := Option.isNone_iff_eq_none.mp unknown
    have optional := carries.optional idle unknown
    cases trailing : f.hasTrailingRaw with
    | true => exact ⟨_, .skipHeader (pending.trans idle) unknown optional trailing⟩
    | false => exact ⟨_, .plain (pending.trans idle) unknown optional trailing⟩

end Congruence

end Session

end Neutrino.BackendProtocol
