import Neutrino.Library.Duplex
import Neutrino.SkippedFrames
import Neutrino.SessionEmission

/-! The core and a backend, each with a session of its own that consumes what its side sends and
what it receives, joined by two first-in first-out channels. -/

namespace Neutrino.BackendProtocol

open Checked Projection Session

namespace Peers

/-- A peer goes by the direction it sends in. -/
abbrev Net := Duplex.Net Direction Session Frame

abbrev Event := Duplex.Event Direction Frame

def opening : Net where
  peer _ := {}
  flight _ := []

/-- The frames in flight from a side that the session receiving them will not skip. -/
def crossing (net : Net) (d : Direction) : List Frame :=
  if (net.peer d.other).state = .failed then []
  else PendingRaw.significant ((net.peer d.other).awaits d) (net.flight d)

/-- No frame crosses another: a side sends a frame that is not skipped once it has received all
such frames of the other side, and reads neither between a header it sends and the raw frame
of that header nor after Goodbye. -/
def Orderly (net : Net) : Event → Prop
  | .sends d f => ((net.peer d).awaits d).skips f = true ∨ crossing net d.other = []
  | .receives d =>
      (net.peer d.other).awaits d.other = .none ∧ (net.peer d.other).state ≠ .closed

section Steps

variable (sha256Hex : List UInt8 → String) (text : JsonText)

/-- A side sends only what its own session accepts. -/
def send (d : Direction) (f : Frame) (s : Session) : Option Session :=
  match s.consume sha256Hex text d f with
  | (after, none) => some after
  | (_, some _) => none

def receive (d : Direction) (f : Frame) (s : Session) : Session :=
  (s.consume sha256Hex text d f).1

def step : Net → Event → Option Net :=
  Duplex.step Direction.other (send sha256Hex text) (receive sha256Hex text)

def Reached (guard : Net → Event → Prop) (net : Net) : Prop :=
  Duplex.Guarded Direction.other (send sha256Hex text) (receive sha256Hex text) guard opening net

/-- A settled session over frames of one side none of which it skips. -/
inductive Advances (d : Direction) : Session → List Frame → Session → Prop
  | nil (s : Session) : Advances d s [] s
  | cons {s u t : Session} {f : Frame} {rest : List Frame} (reads : Reads s f)
      (accepts : Accepts sha256Hex text s d f u) (advances : Advances d u.settle rest t) :
      Advances d s (f :: rest) t

/-- The side whose frames are in flight is ahead of the other by just these. -/
structure Joined (net : Net) : Prop where
  stream : ∀ d : Direction, (net.peer d.other).state ≠ .failed →
    PendingRaw.Stream ((net.peer d.other).awaits d) (net.flight d) ((net.peer d).awaits d)
  ahead : ∃ d : Direction, crossing net d.other = [] ∧
    Advances sha256Hex text d (net.peer d.other).settle (crossing net d) (net.peer d).settle

variable {sha256Hex text} {net next : Net} {s s' t u : Session} {d : Direction} {f : Frame}

theorem send_ok : send sha256Hex text d f s = some s' ↔
    Reads s f ∧ Accepts sha256Hex text s d f s' := by
  rw [← consume_ok, send]
  split <;> simp_all

theorem reads_settle : Reads s.settle f ↔ Reads s f := by
  constructor
  · rintro ⟨alive, open_, framed⟩
    rw [settle_state] at alive open_
    exact ⟨alive, open_, framed⟩
  · rintro ⟨alive, open_, framed⟩
    rw [← settle_state] at alive open_
    exact ⟨alive, open_, framed⟩

theorem Advances.snoc {frames : List Frame} (advances : Advances sha256Hex text d s frames t)
    (reads : Reads t f) (accepts : Accepts sha256Hex text t d f u) :
    Advances sha256Hex text d s (frames ++ [f]) u.settle := by
  induction advances with
  | nil => exact .cons reads accepts (.nil _)
  | cons first accepted _ ih => exact .cons first accepted (ih reads accepts)

/-- A failed session advances no further. -/
theorem Advances.stuck {frames : List Frame} (advances : Advances sha256Hex text d s frames t)
    (failed : s.state = .failed) : frames = [] := by
  cases advances with
  | nil => rfl
  | cons reads => exact absurd failed reads.alive

theorem Advances.same (advances : Advances sha256Hex text d s [] t) : s = t := by
  cases advances
  rfl

theorem own_or_other (d e : Direction) : d = e ∨ d.other = e := by
  by_cases same : d = e
  · exact .inl same
  · exact .inr (Direction.eq_other (Ne.symm same)).symm

/-- Who is ahead of whom depends on the settled peers and on what crosses alone. -/
theorem Joined.ahead_congr (joined : Joined sha256Hex text net)
    (crossings : ∀ e, crossing next e = crossing net e)
    (peers : ∀ e, (next.peer e).settle = (net.peer e).settle) :
    ∃ d : Direction, crossing next d.other = [] ∧ Advances sha256Hex text d
      (next.peer d.other).settle (crossing next d) (next.peer d).settle := by
  obtain ⟨d, quiet, advances⟩ := joined.ahead
  refine ⟨d, ?_, ?_⟩
  · rw [crossings, quiet]
  · rwa [crossings, peers, peers]

/-- A sender to whom nothing is in flight runs ahead of the other side. -/
theorem Joined.ahead_of_quiet (joined : Joined sha256Hex text net)
    (quiet : crossing net d.other = []) :
    Advances sha256Hex text d (net.peer d.other).settle (crossing net d) (net.peer d).settle := by
  obtain ⟨e, still, advances⟩ := joined.ahead
  obtain rfl | rfl := own_or_other d e
  · exact advances
  · rw [Direction.other_other] at still advances
    rw [quiet] at advances
    rw [still, advances.same]
    exact .nil _

theorem unskipped_of_awaits (other : s.awaits d.other = .none)
    (significant : (s.awaits d).skips f = false) : s.pending ≠ .skipped := by
  rw [pending_of_awaits other]
  intro skipped
  simp [skipped, PendingRaw.skips] at significant

theorem settle_skips_state (accepts : Accepts sha256Hex text s d f s')
    (skips : (s.awaits d).skips f = true) : s'.state = s.state := by
  rw [← settle_state s', accepts.settle_skips skips, settle_state]

section Sends

variable (joined : Joined sha256Hex text net)
  (reads : Reads (net.peer d) f) (accepts : Accepts sha256Hex text (net.peer d) d f s')

/-- The net after a side sends a frame. -/
def sent (net : Net) (d : Direction) (f : Frame) (after : Session) : Net where
  peer := Function.update net.peer d after
  flight := Function.update net.flight d (net.flight d ++ [f])

@[simp] theorem sent_peer : (sent net d f s').peer d = s' := by simp [sent]

@[simp] theorem sent_peer_other : (sent net d f s').peer d.other = net.peer d.other := by
  simp [sent, Direction.other_ne]

@[simp] theorem sent_flight : (sent net d f s').flight d = net.flight d ++ [f] := by simp [sent]

@[simp] theorem sent_flight_other : (sent net d f s').flight d.other = net.flight d.other := by
  simp [sent, Direction.other_ne]

include joined in
theorem crossing_sent (alive : (net.peer d.other).state ≠ .failed) :
    crossing (sent net d f s') d =
      crossing net d ++ if ((net.peer d).awaits d).skips f then [] else [f] := by
  rw [crossing, crossing, sent_peer_other, sent_flight, if_neg alive, if_neg alive,
    PendingRaw.significant_snoc (joined.stream d alive)]

include reads accepts

/-- What is in flight to the sender is as before, unless the sender fails. -/
theorem crossing_sent_other : crossing (sent net d f s') d.other =
    if s'.state = .failed then [] else crossing net d.other := by
  have follows := accepts.follows reads
  rw [crossing, crossing, Direction.other_other, sent_peer, sent_flight_other, follows.other,
    follows.other', if_neg reads.alive]

include joined

theorem stream_sent (e : Direction) (alive : ((sent net d f s').peer e.other).state ≠ .failed) :
    PendingRaw.Stream (((sent net d f s').peer e.other).awaits e) ((sent net d f s').flight e)
      (((sent net d f s').peer e).awaits e) := by
  have follows := accepts.follows reads
  obtain rfl | rfl := own_or_other d e
  · rw [sent_peer_other] at alive
    rw [sent_peer_other, sent_flight, sent_peer, follows.own]
    exact (joined.stream d alive).snoc follows.carries
  · have still := joined.stream d.other (by simpa using reads.alive)
    rw [Direction.other_other, follows.other] at still
    rw [Direction.other_other, sent_peer, sent_flight_other, sent_peer_other, follows.other']
    exact still

/-- A skipped frame changes nothing of what the peers agree on. -/
theorem joined_sent_skipped (skips : ((net.peer d).awaits d).skips f = true) :
    Joined sha256Hex text (sent net d f s') := by
  refine ⟨stream_sent joined reads accepts, ?_⟩
  have settled := accepts.settle_skips skips
  have alive : s'.state ≠ .failed := settle_skips_state accepts skips ▸ reads.alive
  refine joined.ahead_congr (fun e => ?_) fun e => ?_
  · obtain rfl | rfl := own_or_other d e
    · by_cases failed : (net.peer d.other).state = .failed
      · rw [crossing, crossing, sent_peer_other, if_pos failed, if_pos failed]
      · rw [crossing_sent joined failed, if_pos skips, List.append_nil]
    · rw [crossing_sent_other reads accepts, if_neg alive]
  · obtain rfl | rfl := own_or_other d e
    · rw [sent_peer, settled]
    · rw [sent_peer_other]

theorem joined_sent_significant (significant : ((net.peer d).awaits d).skips f = false)
    (quiet : crossing net d.other = []) : Joined sha256Hex text (sent net d f s') := by
  refine ⟨stream_sent joined reads accepts, d, ?_, ?_⟩
  · rw [crossing_sent_other reads accepts, quiet, ite_self]
  · have advances := joined.ahead_of_quiet quiet
    have unskipped := unskipped_of_awaits (accepts.follows reads).other significant
    obtain ⟨u, accepted, settled⟩ := accepts.settle unskipped
    by_cases failed : (net.peer d.other).state = .failed
    · have stuck := advances.stuck (by rw [settle_state, failed])
      rw [stuck] at advances
      have same := congrArg Session.state advances.same
      rw [settle_state, settle_state, failed] at same
      exact absurd same.symm reads.alive
    · rw [crossing_sent joined failed, if_neg (by simp [significant]), sent_peer,
        sent_peer_other, ← settled]
      exact advances.snoc (reads_settle.mpr reads) accepted

end Sends

section Receives

variable {rest : List Frame}

/-- The net after a side receives the oldest frame of the other. -/
def received (net : Net) (d : Direction) (rest : List Frame) (after : Session) : Net where
  peer := Function.update net.peer d.other after
  flight := Function.update net.flight d rest

@[simp] theorem received_peer : (received net d rest s').peer d = net.peer d := by
  simp [received, (Direction.other_ne d).symm]

@[simp] theorem received_peer_other : (received net d rest s').peer d.other = s' := by
  simp [received]

@[simp] theorem received_flight : (received net d rest s').flight d = rest := by simp [received]

@[simp] theorem received_flight_other :
    (received net d rest s').flight d.other = net.flight d.other := by
  simp [received, Direction.other_ne]

/-- What is in flight from the receiver is as before. -/
theorem crossing_received_other :
    crossing (received net d rest s') d.other = crossing net d.other := by
  rw [crossing, crossing, Direction.other_other, received_peer, received_flight_other]

/-- A failed session stays as it is whatever it receives. -/
theorem joined_received_failed (joined : Joined sha256Hex text net)
    (failed : (net.peer d.other).state = .failed) :
    Joined sha256Hex text (received net d rest (net.peer d.other)) := by
  have peers : (received net d rest (net.peer d.other)).peer = net.peer := by
    simp [received]
  constructor
  · intro e alive
    obtain rfl | rfl := own_or_other d e
    · rw [peers] at alive
      exact absurd failed alive
    · rw [peers] at alive ⊢
      rw [received_flight_other]
      exact joined.stream d.other alive
  · refine joined.ahead_congr (fun e => ?_) fun e => by rw [peers]
    obtain rfl | rfl := own_or_other d e
    · rw [crossing, crossing, peers, if_pos failed, if_pos failed]
    · exact crossing_received_other

variable (joined : Joined sha256Hex text net) (flight : net.flight d = f :: rest)
  (alive : (net.peer d.other).state ≠ .failed) (idle : (net.peer d.other).awaits d.other = .none)
  (unclosed : (net.peer d.other).state ≠ .closed)

include joined flight alive

theorem stream_received {final : PendingRaw}
    (own : final = (net.peer d).awaits d) : ((net.peer d.other).awaits d).Carries f ∧
      PendingRaw.Stream (((net.peer d.other).awaits d).after f) rest final := by
  have stream := joined.stream d alive
  rw [flight, ← own] at stream
  exact stream

include idle unclosed

/-- A frame in flight is accepted by the session it reaches; one that is not skipped is the
first of those its sender is ahead by. -/
theorem accepts_received : Reads (net.peer d.other) f ∧
    ∃ s', Accepts sha256Hex text (net.peer d.other) d f s' ∧
      Joined sha256Hex text (received net d rest s') := by
  have stream := stream_received joined flight alive rfl
  have reads : Reads (net.peer d.other) f := ⟨alive, unclosed, stream.1.framed⟩
  have front : crossing net d = PendingRaw.significant ((net.peer d.other).awaits d) (f :: rest) := by
    rw [crossing, if_neg alive, flight]
  have streams {s' : Session} (follows : Follows (net.peer d.other) s' d f) (e : Direction)
      (still : ((received net d rest s').peer e.other).state ≠ .failed) :
      PendingRaw.Stream (((received net d rest s').peer e.other).awaits e)
        ((received net d rest s').flight e) (((received net d rest s').peer e).awaits e) := by
    obtain rfl | rfl := own_or_other d e
    · rw [received_peer_other, received_flight, received_peer, follows.own]
      exact stream.2
    · rw [Direction.other_other, received_peer] at still
      have stream := joined.stream d.other (by rwa [Direction.other_other])
      rw [Direction.other_other, follows.other] at stream
      rw [Direction.other_other, received_peer, received_flight_other, received_peer_other,
        follows.other']
      exact stream
  refine ⟨reads, ?_⟩
  cases skips : ((net.peer d.other).awaits d).skips f with
  | true =>
      rw [PendingRaw.significant, if_pos skips] at front
      obtain ⟨s', accepts⟩ := accepts_skips sha256Hex text idle stream.1 skips
      have follows := accepts.follows reads
      have settled := accepts.settle_skips skips
      refine ⟨s', accepts, streams follows, joined.ahead_congr (fun e => ?_) fun e => ?_⟩
      · obtain rfl | rfl := own_or_other d e
        · rw [crossing, received_peer_other, received_flight, follows.own, front,
            if_neg (settle_skips_state accepts skips ▸ alive)]
        · exact crossing_received_other
      · obtain rfl | rfl := own_or_other d e
        · rw [received_peer]
        · rw [received_peer_other, settled]
  | false =>
      rw [PendingRaw.significant, if_neg (by simp [skips])] at front
      obtain ⟨e, quiet, advances⟩ := joined.ahead
      obtain rfl : e = d := by
        by_contra differ
        rw [Direction.eq_other differ, Direction.other_other, front] at quiet
        cases quiet
      rw [front] at advances
      cases advances with
      | cons settledReads accepted later =>
          have unskipped := unskipped_of_awaits idle skips
          obtain ⟨s', accepts, settled⟩ := Accepts.of_settle unskipped accepted
          have follows := accepts.follows reads
          refine ⟨s', accepts, streams follows, e, crossing_received_other.trans quiet, ?_⟩
          rw [received_peer, received_peer_other, crossing, received_peer_other, received_flight,
            follows.own, settled]
          split
          · rename_i failed
            have stuck := later.stuck (by rw [← settled, settle_state, failed])
            rw [stuck] at later
            exact later
          · exact later

end Receives

/-- Only an error that answers Hello is accepted and leaves a session failed. -/
theorem failed_of_accepts (accepts : Accepts sha256Hex text s d f s') (alive : s.state ≠ .failed)
    (failed : s'.state = .failed) : s.state = .awaitingCapabilities ∧ f.known = some .error := by
  cases accepts with
  | refusal idle typed bare phase => exact ⟨phase, typed⟩
  | _ => simp_all [closeRun, grow]

theorem joined_opening : Joined sha256Hex text opening :=
  ⟨fun _ _ => rfl, .coreToBackend, rfl, .nil _⟩

theorem joined_step {event : Event} (joined : Joined sha256Hex text net)
    (orderly : Orderly net event) (stepped : step sha256Hex text net event = some next) :
    Joined sha256Hex text next := by
  cases event with
  | sends d f =>
      obtain ⟨after, accepted, rfl⟩ := Duplex.step_sends.mp stepped
      obtain ⟨reads, accepts⟩ := send_ok.mp accepted
      cases skips : ((net.peer d).awaits d).skips f with
      | true => exact joined_sent_skipped joined reads accepts skips
      | false =>
          have quiet := orderly.resolve_left (by simp [skips])
          exact joined_sent_significant joined reads accepts skips quiet
  | receives d =>
      obtain ⟨f, rest, flight, rfl⟩ := Duplex.step_receives.mp stepped
      by_cases failed : (net.peer d.other).state = .failed
      · have same : receive sha256Hex text d f (net.peer d.other) = net.peer d.other := by
          obtain ⟨failure, rejected⟩ := consume_finished sha256Hex text d f (.inl failed)
          rw [receive, rejected, fail_of_failed failed]
        rw [same]
        exact joined_received_failed joined failed
      · obtain ⟨reads, after, accepts, still⟩ :=
          accepts_received joined flight failed orderly.1 orderly.2
        have accepted : receive sha256Hex text d f (net.peer d.other) = after := by
          rw [receive, consume_ok.mpr ⟨reads, accepts⟩]
        rw [accepted]
        exact still

theorem joined_reached (reached : Reached sha256Hex text Orderly net) :
    Joined sha256Hex text net :=
  reached.invariant (Joined sha256Hex text) joined_opening fun _ _ _ joined orderly stepped =>
    joined_step joined orderly stepped

/-- With nothing in flight both sides have come to the same. -/
theorem Joined.settled (joined : Joined sha256Hex text net) (quiet : ∀ d, net.flight d = []) :
    ∀ d e, (net.peer d).settle = (net.peer e).settle := by
  have none (d : Direction) : crossing net d = [] := by
    rw [crossing, quiet]
    exact ite_self _
  obtain ⟨d, -, advances⟩ := joined.ahead
  rw [none] at advances
  have each (e : Direction) : (net.peer e).settle = (net.peer d).settle := by
    obtain rfl | rfl := own_or_other d e
    · rfl
    · exact advances.same
  exact fun e other => (each e).trans (each other).symm

end Steps

/-- Where no frame crosses another, a frame that reaches a session that has not failed is
accepted, and fails it only if it is the error that answers Hello; once nothing is in flight
both sides are in one state and have produced the same emissions. -/
theorem peers_agree (sha256Hex : List UInt8 → String) (text : JsonText) (net : Net)
    (reached : Reached sha256Hex text Orderly net) :
    (∀ (d : Direction) (f : Frame) (rest : List Frame), net.flight d = f :: rest →
      Orderly net (.receives d) → (net.peer d.other).state ≠ .failed →
      ∃ after, (net.peer d.other).consume sha256Hex text d f = (after, none) ∧
        (after.state = .failed →
          (net.peer d.other).state = .awaitingCapabilities ∧ f.known = some .error)) ∧
    ((∀ d, net.flight d = []) → ∀ d e : Direction,
      (net.peer d).state = (net.peer e).state ∧
        (net.peer d).completed = (net.peer e).completed) := by
  have joined := joined_reached reached
  constructor
  · intro d f rest flight orderly alive
    obtain ⟨reads, after, accepts, -⟩ :=
      accepts_received joined flight alive orderly.1 orderly.2
    exact ⟨after, consume_ok.mpr ⟨reads, accepts⟩, failed_of_accepts accepts alive⟩
  · intro quiet d e
    have settled := joined.settled quiet d e
    constructor
    · rw [← settle_state, settled, settle_state]
    · rw [← settle_completed, settled, settle_completed]

section Lockstep

variable {sha256Hex : List UInt8 → String} {text : JsonText} {s s' : Session}

/-- Both sides in one state with nothing in flight. -/
def both (s : Session) : Net where
  peer _ := s
  flight _ := []

/-- What one session accepts, both sides accept in lockstep. -/
theorem reached_lockstep {guard : Net → Event → Prop} {frames : List (Direction × Frame)}
    (weaker : ∀ net event, Orderly net event → guard net event)
    (reached : Reached sha256Hex text guard (both s)) (runs : Runs sha256Hex text s frames s') :
    Reached sha256Hex text guard (both s') := by
  induction runs with
  | nil => exact reached
  | @cons s after _ d f rest reads accepts _ ih =>
      have sends : step sha256Hex text (both s) (.sends d f) = some (sent (both s) d f after) :=
        Duplex.step_sends.mpr ⟨after, send_ok.mpr ⟨reads, accepts⟩, rfl⟩
      have quiet : Orderly (both s) (.sends d f) := .inr (ite_self _)
      have ready : Orderly (sent (both s) d f after) (.receives d) := by
        rw [Orderly, sent_peer_other]
        exact ⟨(accepts.follows reads).other, reads.open_⟩
      have flight : (sent (both s) d f after).flight d = [f] := by
        rw [sent_flight]
        rfl
      have accepted : receive sha256Hex text d f ((sent (both s) d f after).peer d.other) =
          after := by
        rw [sent_peer_other, receive]
        exact congrArg Prod.fst (consume_ok.mpr ⟨reads, accepts⟩)
      have receives : step sha256Hex text (sent (both s) d f after) (.receives d) =
          some (received (sent (both s) d f after) d [] after) :=
        Duplex.step_receives.mpr ⟨f, [], flight, by rw [accepted]; rfl⟩
      have together : received (sent (both s) d f after) d [] after = both after := by
        rw [received, both]
        congr 1
        · funext e
          obtain rfl | rfl := own_or_other d e
          · rw [Function.update_of_ne (Direction.other_ne d).symm, sent_peer]
          · rw [Function.update_self]
        · funext e
          obtain rfl | rfl := own_or_other d e
          · rw [Function.update_self]
          · rw [Function.update_of_ne (Direction.other_ne d), sent_flight_other]
      have first := Duplex.Guarded.more reached (weaker _ _ quiet) sends
      have second := Duplex.Guarded.more first (weaker _ _ ready) receives
      rw [together] at second
      exact ih second

/-- A session that does not accept a frame it receives fails. -/
theorem receive_fails {d : Direction} {f : Frame}
    (refused : ∀ after, ¬ Accepts sha256Hex text s d f after) :
    (receive sha256Hex text d f s).state = .failed := by
  cases consumed : s.consume sha256Hex text d f with
  | mk after failure =>
      cases failure with
      | none => exact absurd (consume_ok.mp consumed).2 (refused after)
      | some failure =>
          rw [receive, consumed]
          exact (consume_rejected consumed).1

/-- A chunk is accepted only while its request is being answered. -/
theorem chunk_refused {d : Direction} {f : Frame} (idle : s.pending = .none)
    (typed : f.known = some .artifactChunk) (phase : s.state ≠ .emitting) (after : Session) :
    ¬ Accepts sha256Hex text s d f after := by
  intro accepts
  cases accepts <;> simp_all

end Lockstep

/-- Peers over the opened session. -/
theorem peers_agree_opened :
    Reached zeroDigest compactText Orderly (both openedSession) ∧
      (∀ d e : Direction, ((both openedSession).peer d).state =
        ((both openedSession).peer e).state) := by
  have reached : Reached zeroDigest compactText Orderly (both openedSession) :=
    reached_lockstep (fun _ _ orderly => orderly) .start runs_opening
  have agree := peers_agree zeroDigest compactText (both openedSession) reached
  exact ⟨reached, fun d e => (agree.2 (fun _ => rfl) d e).1⟩

def cancelObject : Json.Object := [("requestId", one)]

def cancelFrame : Frame := writtenFrame compactText .cancel cancelObject false

theorem decode_cancel : decodeRequestControl compactText cancelFrame = .ok ⟨1⟩ := by
  have integral : Json.Integral (.object cancelObject) := by
    simp [cancelObject, one, Json.Integral, Json.MembersIntegral, uint32Value]
  have object := decodeOwnedControlObject_compact integral .cancel false
  simp (disch := simp [cancelObject, Json.Object.get, one]) only [decodeRequestControl,
    cancelFrame, object, ok_bind, requiredUInt64_ok 1]
  rfl

/-- Cancel and a chunk that cross: the core takes the chunk for a failure of the protocol. -/
theorem cancel_crosses_chunk :
    ∃ net next, Reached zeroDigest compactText (fun _ _ => True) net ∧
      net.peer .coreToBackend = { openedSession with state := .cancelling } ∧
      net.flight .backendToCore = [chunkFrame 0 false] ∧
      step zeroDigest compactText net (.receives .backendToCore) = some next ∧
      (next.peer .coreToBackend).state = .failed := by
  have opened : Reached zeroDigest compactText (fun _ _ => True) (both openedSession) :=
    reached_lockstep (fun _ _ _ => trivial) .start runs_opening
  have cancel : send zeroDigest compactText .coreToBackend cancelFrame openedSession =
      some { openedSession with state := .cancelling } :=
    send_ok.mpr ⟨⟨by simp [openedSession], by simp [openedSession],
      frameError_written (by decide +kernel) _ _⟩, .cancel rfl (known_written _ _ _ _)
      (trailing_written _ _ _ _) rfl rfl decode_cancel rfl⟩
  have advanced : Advanced 0 openedSession := ⟨rfl, rfl, rfl, rfl, rfl, rfl, rfl, rfl, rfl⟩
  have chunk := send_ok.mpr ⟨⟨by simp [openedSession], by simp [openedSession],
    frameError_written (short_chunk _ _) _ _⟩, advanced.chunk false⟩
  have first := Duplex.Guarded.more opened trivial
    (Duplex.step_sends.mpr ⟨_, cancel, rfl⟩)
  have second := Duplex.Guarded.more first trivial
    (Duplex.step_sends.mpr ⟨_, chunk, rfl⟩)
  refine ⟨_, _, second, rfl, rfl, Duplex.step_receives.mpr ⟨_, _, rfl, rfl⟩, ?_⟩
  exact receive_fails (chunk_refused rfl (known_written _ _ _ _) (by decide))

end Peers

end Neutrino.BackendProtocol
