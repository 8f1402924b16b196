import Neutrino.BackendInvoker
import Neutrino.FrameCodec

/-! Frames read one at a time from a backend's stream, whatever pieces it arrives in, against
the same bytes read as one buffer. -/

namespace Neutrino.BackendInvocation

open Checked BackendProtocol StreamCodec

/-- A stream that ends without a time limit being met: the bytes still to come, and how many
bytes beyond the first each later call finds ready. -/
structure Stream where
  bytes : List UInt8
  ready : List Nat := []

def Stream.recv (stream : Stream) (size : Nat) : List UInt8 × Stream :=
  let count :=
    match stream.ready with
    | [] => size
    | more :: _ => min size (more + 1)
  (stream.bytes.take count, ⟨stream.bytes.drop count, stream.ready.tail⟩)

/-- The filled buffer, or nothing where the stream ends before it is full. -/
def readExact (stream : Stream) (size : Nat) : Option (List UInt8) × Stream :=
  if size = 0 then (some [], stream)
  else
    match stream.recv size with
    | ([], after) => (none, after)
    | (first :: others, after) =>
        match readExact after (size - (first :: others).length) with
        | (none, ended) => (none, ended)
        | (some rest, ended) => (some (first :: others ++ rest), ended)
termination_by size
decreasing_by
  rw [List.length_cons]
  omega

def readFrame (stream : Stream) : Except String ReadResult × Stream :=
  match readExact stream 8 with
  | (none, after) => (.ok .eof, after)
  | (some wire, after) =>
      let payloadLength :=
        (readU32 (wire.getD 0 0) (wire.getD 1 0) (wire.getD 2 0) (wire.getD 3 0)).toNat
      if kMaximumFramePayload < payloadLength then
        (.error (invocationError "E_FRAME_LIMIT" "backend frame payload exceeds 64 MiB"), after)
      else
        match readExact after payloadLength with
        | (none, ended) =>
            (.error (invocationError "E_PROTOCOL" "backend stream ended inside a frame"), ended)
        | (some payload, ended) =>
            match decodeFrames (wire ++ payload) with
            | .error failure => (.error failure, ended)
            | .ok [frame] => (.ok (.frame frame), ended)
            | .ok _ =>
                (.error (invocationError "E_PROTOCOL" "one backend read decoded multiple frames"),
                  ended)

/-- Reading frame after frame: the frames, and the first result that is not a frame. -/
inductive Reads : Stream → List Frame → Except String ReadResult → Prop
  | last {stream} : (∀ frame, (readFrame stream).1 ≠ .ok (.frame frame)) →
      Reads stream [] (readFrame stream).1
  | next {stream frame frames result} : (readFrame stream).1 = .ok (.frame frame) →
      Reads (readFrame stream).2 frames result → Reads stream (frame :: frames) result

theorem recv_bytes (stream : Stream) (size : Nat) :
    (stream.recv size).1 ++ (stream.recv size).2.bytes = stream.bytes :=
  List.take_append_drop _ _

theorem recv_length (stream : Stream) (size : Nat) : (stream.recv size).1.length ≤ size := by
  simp only [Stream.recv, List.length_take]
  split <;> omega

theorem recv_some (stream : Stream) {size : Nat} (positive : size ≠ 0)
    (none : (stream.recv size).1 = []) : stream.bytes = [] := by
  rw [Stream.recv, List.take_eq_nil_iff] at none
  rcases none with zero | empty
  · split at zero <;> omega
  · exact empty

/-- However the stream arrives, a buffer is filled from its front. -/
theorem readExact_eq (stream : Stream) (size : Nat) :
    (readExact stream size).1 =
        (if size ≤ stream.bytes.length then some (stream.bytes.take size) else none) ∧
      (readExact stream size).2.bytes = stream.bytes.drop size := by
  induction size using Nat.strongRecOn generalizing stream with
  | ind size ih =>
      rw [readExact]
      by_cases zero : size = 0
      · subst zero
        simp
      · rw [if_neg zero]
        have whole := recv_bytes stream size
        have bound := recv_length stream size
        have stuck := recv_some stream zero
        generalize stream.recv size = received at whole bound stuck
        obtain ⟨piece, after⟩ := received
        cases piece with
        | nil =>
            rw [stuck rfl] at whole ⊢
            have ended : after.bytes = [] := whole
            simp [zero, ended]
        | cons first others =>
            obtain ⟨filled, left⟩ := ih (size - (first :: others).length) (by simp; omega) after
            dsimp only at whole bound ⊢
            have taken : stream.bytes.take size = first :: others ++
                after.bytes.take (size - (first :: others).length) := by
              rw [← whole, List.take_append, List.take_of_length_le bound]
            have dropped : stream.bytes.drop size =
                after.bytes.drop (size - (first :: others).length) := by
              rw [← whole, List.drop_append, List.drop_of_length_le bound, List.nil_append]
            have enough : size - (first :: others).length ≤ after.bytes.length ↔
                size ≤ stream.bytes.length := by
              rw [← whole, List.length_append]
              omega
            simp only [enough] at filled
            rw [taken, dropped, ← left]
            generalize readExact after (size - (first :: others).length) = rest at filled left ⊢
            obtain ⟨filling, ended⟩ := rest
            dsimp only at filled
            subst filled
            by_cases fits : size ≤ stream.bytes.length <;> simp [fits]

theorem readExact_some (stream : Stream) (size : Nat) (whole : size ≤ stream.bytes.length) :
    ∃ after, readExact stream size = (some (stream.bytes.take size), after) ∧
      after.bytes = stream.bytes.drop size := by
  obtain ⟨filled, left⟩ := readExact_eq stream size
  rw [if_pos whole] at filled
  exact ⟨_, Prod.ext filled rfl, left⟩

theorem readExact_none (stream : Stream) (size : Nat) (short : stream.bytes.length < size) :
    ∃ after, readExact stream size = (none, after) ∧ after.bytes = [] := by
  obtain ⟨filled, left⟩ := readExact_eq stream size
  rw [if_neg (by omega)] at filled
  rw [List.drop_of_length_le (by omega)] at left
  exact ⟨_, Prod.ext filled rfl, left⟩

theorem readExact_whole {stream after : Stream} {size : Nat} {bytes : List UInt8}
    (filled : readExact stream size = (some bytes, after)) : bytes ++ after.bytes = stream.bytes := by
  obtain ⟨taken, left⟩ := readExact_eq stream size
  rw [filled] at taken left
  dsimp only at taken left
  split at taken
  · cases taken
    rw [left, List.take_append_drop]
  · cases taken

theorem decodeFrames_single {bytes : List UInt8} {frame : Frame} :
    decodeFrames bytes = .ok [frame] ↔ encodeFrame frame = .ok bytes := by
  rw [decodeFrames_ok, encodeFrames_cons]
  constructor
  · rintro ⟨code, rest, coded, empty, rfl⟩
    cases empty
    rw [List.flatten_nil, List.append_nil]
    exact coded
  · intro coded
    exact ⟨bytes, [], coded, rfl, List.append_nil bytes⟩

theorem readFrame_ended {stream : Stream} (short : stream.bytes.length < 8) :
    (readFrame stream).1 = .ok .eof := by
  obtain ⟨after, header, _⟩ := readExact_none stream 8 short
  rw [readFrame, header]

theorem readFrame_decoded {stream : Stream} {frame : Frame} {rest : List UInt8}
    (decoded : decodeFrame stream.bytes = .ok (frame, rest)) :
    (readFrame stream).1 = .ok (.frame frame) ∧ (readFrame stream).2.bytes = rest := by
  obtain ⟨sound, header, held, bytes⟩ := decodeFrame_ok.mp decoded
  have encoded := encodeFrame_ok.mpr ⟨sound, header, held, rfl⟩
  have short := (frameError_ok.mp sound).1
  obtain ⟨length0, length1, length2, length3, type0, type1, flags0, flags1, rfl, length, _, _⟩ :=
    held.split
  obtain ⟨after, front, left⟩ := readExact_some stream 8 (by simp [bytes])
  have behind : after.bytes = frame.payload ++ rest := by rw [left, bytes]; rfl
  obtain ⟨ended, filled, tail⟩ := readExact_some after frame.payload.length
    (by simp [behind])
  rw [behind, List.take_left] at filled
  rw [behind, List.drop_left] at tail
  have single := decodeFrames_single.mpr encoded
  simp only [bytes, List.cons_append, List.nil_append, List.take_succ_cons, List.take_zero]
    at front single
  simp only [readFrame, front, List.getD_cons_zero, List.getD_cons_succ, length,
    if_neg (Nat.not_lt.mpr short), filled, List.cons_append, List.nil_append, single, tail,
    and_self]

theorem readFrame_refused {stream : Stream} {failure : String} (long : 8 ≤ stream.bytes.length)
    (refused : decodeFrame stream.bytes = .error failure) :
    ∃ reason, (readFrame stream).1 = .error reason := by
  obtain ⟨after, front, left⟩ := readExact_some stream 8 long
  simp only [readFrame, front]
  split
  · exact ⟨_, rfl⟩
  · split
    · exact ⟨_, rfl⟩
    · rename_i payload ended filled
      split
      · exact ⟨_, rfl⟩
      · rename_i frame single
        -- A frame found in the bytes read so far would be the one at the front of them all.
        have taken : payload ++ ended.bytes = after.bytes := readExact_whole filled
        have whole : stream.bytes = stream.bytes.take 8 ++ payload ++ ended.bytes := by
          rw [List.append_assoc, taken, left, List.take_append_drop]
        have decoded : decodeFrame stream.bytes = .ok (frame, ended.bytes) := by
          rw [whole]
          exact frameCodec.next_encode _ (decodeFrames_single.mp single)
        rw [refused] at decoded
        cases decoded
      · exact ⟨_, rfl⟩

/-- A frame is returned only where it stands at the front of the stream. -/
theorem readFrame_frame {stream : Stream} {frame : Frame}
    (found : (readFrame stream).1 = .ok (.frame frame)) :
    decodeFrame stream.bytes = .ok (frame, (readFrame stream).2.bytes) := by
  by_cases short : stream.bytes.length < 8
  · rw [readFrame_ended short] at found
    cases found
  · cases decoded : decodeFrame stream.bytes with
    | error failure =>
        obtain ⟨reason, refused⟩ := readFrame_refused (Nat.le_of_not_lt short) decoded
        rw [refused] at found
        cases found
    | ok unit =>
        obtain ⟨front, left⟩ := readFrame_decoded decoded
        cases front.symm.trans found
        rw [left]

/-! Whole streams. -/

/-- Reading frame by frame comes to an end. -/
theorem reads_total (stream : Stream) : ∃ frames result, Reads stream frames result := by
  generalize size : stream.bytes.length = length
  induction length using Nat.strongRecOn generalizing stream with
  | ind length ih =>
      by_cases short : stream.bytes.length < 8
      · exact ⟨[], _, .last fun frame found => by rw [readFrame_ended short] at found; cases found⟩
      · cases decoded : decodeFrame stream.bytes with
        | error failure =>
            obtain ⟨reason, refused⟩ := readFrame_refused (Nat.le_of_not_lt short) decoded
            exact ⟨[], _, .last fun frame found => by rw [refused] at found; cases found⟩
        | ok unit =>
            obtain ⟨frame, rest⟩ := unit
            obtain ⟨found, left⟩ := readFrame_decoded decoded
            have shorter := frameCodec.next_shorter decoded
            obtain ⟨frames, result, later⟩ := ih _ (by rw [← size, left]; exact shorter) _ rfl
            exact ⟨frame :: frames, result, .next found later⟩

/-- A clean end is reported behind whole frames and less than one more header. -/
theorem reads_eof {stream : Stream} {frames : List Frame} : Reads stream frames (.ok .eof) ↔
    ∃ whole tail, encodeFrames frames = .ok whole ∧ stream.bytes = whole ++ tail ∧
      tail.length < 8 := by
  constructor
  · generalize clean : (.ok .eof : Except String ReadResult) = result
    intro reads
    induction reads with
    | last ends =>
        rename_i stream
        refine ⟨[], stream.bytes, rfl, rfl, ?_⟩
        by_contra long
        cases decoded : decodeFrame stream.bytes with
        | error failure =>
            obtain ⟨reason, refused⟩ := readFrame_refused (Nat.le_of_not_lt long) decoded
            rw [refused] at clean
            cases clean
        | ok unit => exact ends unit.1 (readFrame_decoded decoded).1
    | next found _ ih =>
        rename_i stream frame frames result
        obtain ⟨whole, tail, encoded, left, short⟩ := ih clean
        obtain ⟨code, coded, bytes⟩ := frameCodec.encode_next (readFrame_frame found)
        refine ⟨code ++ whole, tail, ?_, ?_, short⟩
        · exact encodeFrames_cons.mpr ⟨code, whole, coded, encoded, rfl⟩
        · rw [bytes, left, List.append_assoc]
  · rintro ⟨whole, tail, encoded, bytes, short⟩
    induction frames generalizing stream whole with
    | nil =>
        cases encoded
        have ended : (readFrame stream).1 = .ok .eof :=
          readFrame_ended (by simpa [bytes] using short)
        rw [← ended]
        exact .last fun frame found => by rw [ended] at found; cases found
    | cons frame frames ih =>
        obtain ⟨code, rest, coded, others, rfl⟩ := encodeFrames_cons.mp encoded
        have decoded : decodeFrame stream.bytes = .ok (frame, rest ++ tail) := by
          rw [bytes, List.append_assoc]
          exact frameCodec.next_encode _ coded
        obtain ⟨found, left⟩ := readFrame_decoded decoded
        exact .next found (ih rest others left)

/-- The reader frames a stream as its bytes are framed in one buffer, and a clean end is reported
at a frame boundary only. -/
structure FramedAlike (stream : Stream) : Prop where
  accepted : ∀ frames, decodeFrames stream.bytes = .ok frames → Reads stream frames (.ok .eof)
  boundary : ∀ frames, Reads stream frames (.ok .eof) → encodeFrames frames = .ok stream.bytes

/-- Whole frames and then a part of one more header. -/
def EndsInHeader (bytes : List UInt8) : Prop :=
  ∃ frames whole tail, encodeFrames frames = .ok whole ∧ bytes = whole ++ tail ∧
    0 < tail.length ∧ tail.length < 8

theorem framedAlike_iff (stream : Stream) : FramedAlike stream ↔ ¬EndsInHeader stream.bytes := by
  constructor
  · rintro alike ⟨frames, whole, tail, encoded, bytes, some, short⟩
    have clean := alike.boundary frames (reads_eof.mpr ⟨whole, tail, encoded, bytes, short⟩)
    rw [encoded] at clean
    have same : whole = stream.bytes := Except.ok.inj clean
    have length := congrArg List.length bytes
    rw [← same, List.length_append] at length
    omega
  · intro aligned
    refine ⟨fun frames decoded => ?_, fun frames reads => ?_⟩
    · have encoded := decodeFrames_ok.mp decoded
      exact reads_eof.mpr ⟨stream.bytes, [], encoded, (List.append_nil _).symm, by decide⟩
    · obtain ⟨whole, tail, encoded, bytes, short⟩ := reads_eof.mp reads
      by_cases empty : tail = []
      · rw [bytes, empty, List.append_nil]
        exact encoded
      · have some := List.length_pos_iff.mpr empty
        exact absurd ⟨frames, whole, tail, encoded, bytes, some, short⟩ aligned

/-- Frames and their bytes determine each other, a cut buffer is refused unless it is cut between
two frames, and a stream read to its end is framed like a buffer exactly when it does not end
inside a header. -/
theorem frame_codec_exact (stream : Stream) :
    (∀ frames bytes, encodeFrames frames = .ok bytes → decodeFrames bytes = .ok frames) ∧
    (∀ bytes frames, decodeFrames bytes = .ok frames → encodeFrames frames = .ok bytes) ∧
    (∀ frames bytes rest, encodeFrames frames = .ok (bytes ++ rest) →
      (∀ count, encodeFrames (frames.take count) ≠ .ok bytes) →
        ∃ failure, decodeFrames bytes = .error failure) ∧
    (∃ frames result, Reads stream frames result) ∧
    (FramedAlike stream ↔ ¬EndsInHeader stream.bytes) := by
  refine ⟨fun _ _ => decodeFrames_ok.mpr, fun _ _ => decodeFrames_ok.mp, ?_,
    reads_total stream, framedAlike_iff stream⟩
  intro frames bytes rest encoded misaligned
  cases decoded : decodeFrames bytes with
  | error failure => exact ⟨failure, rfl⟩
  | ok read =>
      have written : frameCodec.encodeAll frames = .ok (bytes ++ rest) := encoded
      obtain ⟨count, cut⟩ := (Codec.readable_prefix written).mp ⟨read, decoded⟩
      exact absurd cut (misaligned count)

/-- One byte of a header: the buffer is refused, and the reader reports a clean end. -/
theorem header_cut_unreported : Reads ⟨[0], []⟩ [] (.ok .eof) ∧
    decodeFrames [0] = .error (protocolError "truncated frame header") ∧
    ¬FramedAlike ⟨[0], []⟩ := by
  have clean : Reads ⟨[0], []⟩ [] (.ok .eof) :=
    reads_eof.mpr ⟨[], [0], rfl, rfl, by decide⟩
  refine ⟨clean, ?_, fun alike => ?_⟩
  · rw [decodeFrames, Codec.decodeAll_next (by simp)]
    rfl
  · have impossible := alike.boundary [] clean
    cases impossible

end Neutrino.BackendInvocation
