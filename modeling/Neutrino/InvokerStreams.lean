import Neutrino.InvokerPhases

/-! Frames put into a backend's stream that the session skips: an invocation does not notice
them while it reads in a loop, and fails on them where it reads a single frame. -/

namespace Neutrino.BackendInvocation

open Checked Projection BackendProtocol Session Run

section Steps

variable {sha256Hex : List UInt8 → String} {text : JsonText} {descriptor : Descriptor}
  {options : InvocationOptions} {child : ChildProcess} {s t s' : Session} {frame : Frame}

theorem consumeOutgoing_ok : consumeOutgoing sha256Hex text s frame = .ok s' ↔
    Session.Reads s frame ∧ Accepts sha256Hex text s .coreToBackend frame s' := by
  rw [← consume_ok, consumeOutgoing]
  split <;> simp_all

theorem sendOutgoing_ok : sendOutgoing sha256Hex text child s frame = .ok s' ↔
    (Session.Reads s frame ∧ Accepts sha256Hex text s .coreToBackend frame s') ∧
      child.sendFrame frame = .ok () := by
  simp only [sendOutgoing, bind_ok, consumeOutgoing_ok, pure_ok]
  constructor
  · rintro ⟨after, accepted, sent, sending, rfl⟩
    exact ⟨accepted, sending⟩
  · rintro ⟨accepted, sending⟩
    exact ⟨s', accepted, (), sending, rfl⟩

theorem receiveFrame_ok {read : Read} : receiveFrame sha256Hex text child s read = .ok s' ↔
    ∃ frame, read = .ok (.frame frame) ∧ Session.Reads s frame ∧
      Accepts sha256Hex text s .backendToCore frame s' := by
  match read with
  | .error failure => simp [receiveFrame]
  | .ok .timeout => simp [receiveFrame]
  | .ok .eof => simp [receiveFrame]
  | .ok (.frame frame) =>
      simp only [receiveFrame, Except.ok.injEq, ReadResult.frame.injEq, exists_eq_left']
      rw [← consume_ok]
      split <;> simp_all

theorem controlFrame_ok {type : MessageType} {object : Json.Object} {trailingRaw : Bool} :
    controlFrame text type object trailingRaw = .ok frame ↔
      frameError (writtenFrame text type object trailingRaw) = .ok () ∧
        frame = writtenFrame text type object trailingRaw := by
  simp only [controlFrame, bind_ok, pure_ok]
  constructor
  · rintro ⟨_, framed, rfl⟩
    exact ⟨framed, rfl⟩
  · rintro ⟨framed, rfl⟩
    exact ⟨(), framed, rfl⟩

theorem negotiated_iff : (s.negotiatedCapabilities?).isSome ↔
    s.state ≠ .init ∧ s.state ≠ .awaitingCapabilities := by
  unfold negotiatedCapabilities?
  split
  · rename_i early
    simpa using early.resolve_left
  · rename_i later
    simpa using later

/-- A session that has nothing to hand out. -/
structure Quiet (s : Session) : Prop where
  errors : s.peerErrors = []
  completed : s.completed = []

theorem Quiet.takePeerError (quiet : Quiet s) : s.takePeerError = (s, none) := by
  rw [Session.takePeerError, quiet.errors]

theorem Quiet.takeCompletedEmission (quiet : Quiet s) : s.takeCompletedEmission = (s, none) := by
  rw [Session.takeCompletedEmission, quiet.completed]

theorem takePeerError_none (none : s.takePeerError = (t, none)) : t = s ∧ s.peerErrors = [] := by
  unfold Session.takePeerError at none
  split at none
  · rename_i empty
    exact ⟨(Prod.mk.inj none).1.symm, empty⟩
  · cases none

theorem takeCompletedEmission_none (none : s.takeCompletedEmission = (t, none)) :
    t = s ∧ s.completed = [] := by
  unfold Session.takeCompletedEmission at none
  split at none
  · rename_i empty
    exact ⟨(Prod.mk.inj none).1.symm, empty⟩
  · cases none

/-! What the session has come to between two reads. -/

/-- What holds of the session in each phase. -/
def Phase.Steady : Phase → Prop
  | .handshake session _ =>
      session.state = .awaitingCapabilities ∧ session.pending = .none ∧ Quiet session
  | .emission session _ => session.state = .emitting ∧ Quiet session
  | .acknowledgement session => session.state = .cancelling ∧ session.pending = .none
  | .finished _ => True

theorem accepts_hello {d : Direction} (accepts : Accepts sha256Hex text s d frame s')
    (idle : s.pending = .none) (typed : frame.known = some .hello) (quiet : Quiet s) :
    s'.state = .awaitingCapabilities ∧ s'.pending = .none ∧ Quiet s' := by
  cases accepts with
  | hello => exact ⟨rfl, idle, quiet.errors, quiet.completed⟩
  | _ => simp_all

theorem accepts_emit {d : Direction} (accepts : Accepts sha256Hex text s d frame s')
    (idle : s.pending = .none) (typed : frame.known = some .emit) (quiet : Quiet s) :
    s'.pending = .projection ∧ Quiet s' := by
  cases accepts with
  | emit => exact ⟨rfl, quiet.errors, quiet.completed⟩
  | _ => simp_all

theorem accepts_projection {d : Direction} (accepts : Accepts sha256Hex text s d frame s')
    (awaited : s.pending = .projection) (quiet : Quiet s) : s'.state = .emitting ∧ Quiet s' := by
  cases accepts with
  | projection => exact ⟨rfl, quiet.errors, quiet.completed⟩
  | _ => simp_all

theorem accepts_cancel {d : Direction} (accepts : Accepts sha256Hex text s d frame s')
    (typed : frame.known = some .cancel) : s'.state = .cancelling ∧ s'.pending = .none := by
  cases accepts with
  | cancel idle => exact ⟨rfl, idle⟩
  | _ => simp_all [MessageType.isRaw]

theorem sendHello_ok (sent : sendHello sha256Hex text options child = .ok s) :
    s.state = .awaitingCapabilities ∧ s.pending = .none ∧ Quiet s := by
  simp only [sendHello, bind_ok, sendOutgoing_ok, encodeHello, controlFrame_ok] at sent
  obtain ⟨frame, ⟨framed, rfl⟩, ⟨reads, accepts⟩, -⟩ := sent
  exact accepts_hello accepts rfl (known_written _ _ _ _) ⟨rfl, rfl⟩

/-- The handshake is over once the session has taken Capabilities. -/
theorem handshake_ok {read : Read} (phase : s.state = .awaitingCapabilities)
    (idle : s.pending = .none) (quiet : Quiet s)
    (answered : handshake sha256Hex text child s read = .ok s') :
    s'.state = .ready ∧ s'.pending = .none ∧ Quiet s' := by
  unfold handshake at answered
  split at answered
  · cases answered
  · rename_i after received
    obtain ⟨frame, -, reads, accepts⟩ := receiveFrame_ok.mp received
    split at answered
    · cases answered
    · rename_i untroubled taken
      obtain ⟨rfl, errors⟩ := takePeerError_none taken
      split at answered
      · rename_i negotiated
        obtain rfl : untroubled = s' := by simpa using answered
        have answers := (negotiated_iff.mp negotiated).2
        cases accepts with
        | capabilities idle' => exact ⟨rfl, idle, quiet.errors, quiet.completed⟩
        | plain | skipHeader => exact absurd phase answers
        | refusal => simp at errors
        | _ => simp_all
      · cases answered

theorem sendEmit_ok {projectionBytes : List UInt8}
    (idle : s.pending = .none) (quiet : Quiet s)
    (sent : sendEmit sha256Hex text descriptor options child s projectionBytes = .ok s') :
    s'.state = .emitting ∧ Quiet s' := by
  simp only [sendEmit, encodeEmit, bind_ok, require_ok, exists_const, pure_ok,
    controlFrame_ok] at sent
  obtain ⟨_, -, frames, ⟨-, -, -, -, graph, -, header, ⟨-, rfl⟩, rfl⟩, threaded⟩ := sent
  simp only [thread, bind_ok, sendOutgoing_ok, Except.ok.injEq] at threaded
  obtain ⟨middle, ⟨⟨-, first⟩, -⟩, after, ⟨⟨-, second⟩, -⟩, rfl⟩ := threaded
  obtain ⟨awaited, quiet⟩ := accepts_emit first idle (known_written _ _ _ _) quiet
  exact accepts_projection second awaited quiet

theorem sendCancel_ok
    (sent : sendCancel sha256Hex text child options s = .ok s') :
    s'.state = .cancelling ∧ s'.pending = .none := by
  simp only [sendCancel, bind_ok, sendOutgoing_ok, encodeCancel, controlFrame_ok] at sent
  obtain ⟨frame, ⟨framed, rfl⟩, ⟨reads, accepts⟩, -⟩ := sent
  exact accepts_cancel accepts (known_written _ _ _ _)

/-- While nothing is handed out the session goes on emitting. -/
theorem emission_step (phase : s.state = .emitting)
    (accepts : Accepts sha256Hex text s .backendToCore frame s') (quiet : Quiet s') :
    s'.state = .emitting := by
  obtain ⟨errors, completed⟩ := quiet
  cases accepts <;> simp_all [closeRun, grow]

theorem steady_opening (graph : BackendProjectionGraph) :
    (opening sha256Hex text options child graph).Steady := by
  unfold opening
  split
  · trivial
  · rename_i session projectionBytes prepared
    simp only [prepare, bind_ok, require_ok, exists_const, pure_ok] at prepared
    obtain ⟨-, -, -, projectionText, -, greeted, sent, same⟩ := prepared
    obtain ⟨rfl, -⟩ := Prod.mk.inj same
    exact sendHello_ok sent

theorem steady_advance (phase : Phase) (read : Read) (steady : phase.Steady) :
    (advance sha256Hex text descriptor options child phase read).Steady := by
  cases phase with
  | handshake session projectionBytes =>
      obtain ⟨waiting, idle, quiet⟩ := steady
      rw [advance]
      split
      · trivial
      · rename_i answered shaken
        obtain ⟨ready, idle, quiet⟩ := handshake_ok waiting idle quiet shaken
        split
        · trivial
        · rename_i emitting sent
          exact sendEmit_ok idle quiet sent
  | emission session projectionBytes =>
      obtain ⟨emitting, quiet⟩ := steady
      rw [advance]
      split
      · split
        · trivial
        · split
          · trivial
          · rename_i cancelling sent
            exact sendCancel_ok sent
      · rename_i after received
        obtain ⟨frame, -, reads, accepts⟩ := receiveFrame_ok.mp received
        split
        · trivial
        · rename_i untroubled taken
          obtain ⟨rfl, errors⟩ := takePeerError_none taken
          split
          · trivial
          · rename_i still waiting
            obtain ⟨rfl, completed⟩ := takeCompletedEmission_none waiting
            exact ⟨emission_step emitting accepts ⟨errors, completed⟩, errors, completed⟩
  | acknowledgement session => trivial
  | finished result => trivial

theorem steady_after (graph : BackendProjectionGraph) (reads : List Read) :
    (phaseAfter sha256Hex text descriptor options child graph reads).Steady :=
  run_invariant Phase.Steady (fun phase read => steady_advance phase read)
    (steady_opening graph) reads

end Steps

/-! Sessions that differ at most in the direction of a raw frame neither awaits. -/

/-- Phases of one kind over alike sessions, or one result. -/
inductive Phase.Alike : Phase → Phase → Prop
  | emission {s t : Session} (alike : Session.Alike s t) (projectionBytes : List UInt8) :
      Alike (.emission s projectionBytes) (.emission t projectionBytes)
  | acknowledgement {s t : Session} (alike : Session.Alike s t) :
      Alike (.acknowledgement s) (.acknowledgement t)
  | finished (result : Except String Result) : Alike (.finished result) (.finished result)

section Congruence

variable {s t : Session} (alike : Session.Alike s t) (sha256Hex : List UInt8 → String)
  (text : JsonText) (child : ChildProcess)

include alike

theorem consumeOutgoing_alike (frame : Frame) :
    Agrees (fun _ => False) Session.Alike (consumeOutgoing sha256Hex text s frame)
      (consumeOutgoing sha256Hex text t frame) := by
  obtain ⟨verdict, still⟩ := alike.consume sha256Hex text .coreToBackend frame
  unfold consumeOutgoing
  generalize s.consume sha256Hex text .coreToBackend frame = first at verdict still
  generalize t.consume sha256Hex text .coreToBackend frame = second at verdict still
  obtain ⟨after, failure⟩ := first
  obtain ⟨after', failure'⟩ := second
  obtain rfl : failure' = failure := verdict
  cases failure' with
  | none => exact .ok still
  | some failure => exact .error failure

theorem sendOutgoing_alike (frame : Frame) :
    Agrees (fun _ => False) Session.Alike (sendOutgoing sha256Hex text child s frame)
      (sendOutgoing sha256Hex text child t frame) :=
  (consumeOutgoing_alike alike sha256Hex text frame).bind fun _ _ still =>
    .bind_same fun _ _ => .ok still

theorem receiveFrame_alike (read : Read) :
    Agrees (fun _ => False) Session.Alike (receiveFrame sha256Hex text child s read)
      (receiveFrame sha256Hex text child t read) := by
  match read with
  | .error failure => exact .error _
  | .ok .timeout => exact .error _
  | .ok .eof => exact .error _
  | .ok (.frame frame) =>
      obtain ⟨verdict, still⟩ := alike.consume sha256Hex text .backendToCore frame
      unfold receiveFrame
      dsimp only
      generalize s.consume sha256Hex text .backendToCore frame = first at verdict still
      generalize t.consume sha256Hex text .backendToCore frame = second at verdict still
      obtain ⟨after, failure⟩ := first
      obtain ⟨after', failure'⟩ := second
      obtain rfl : failure' = failure := verdict
      cases failure' with
      | none => exact .ok still
      | some failure => exact .error _

theorem leave_alike : leave sha256Hex text child t = leave sha256Hex text child s := by
  have goodbye : Agrees (fun _ => False) Eq (sendGoodbye sha256Hex text child s)
      (sendGoodbye sha256Hex text child t) := by
    refine .bind_same fun frame _ => ?_
    refine (sendOutgoing_alike alike sha256Hex text child frame).bind fun after after' still => ?_
    refine .bind_same fun _ _ => ?_
    have verdict := still.finish.1
    generalize after.finish = first at verdict
    generalize after'.finish = second at verdict
    obtain ⟨ended, failure⟩ := first
    obtain ⟨ended', failure'⟩ := second
    obtain rfl : failure' = failure := verdict
    cases failure' with
    | none => exact .ok rfl
    | some failure => exact .error _
  rw [leave, leave, goodbye.eq fun _ never => never]

theorem acknowledgement_alike (read : Read) :
    acknowledgement sha256Hex text child t read = acknowledgement sha256Hex text child s read := by
  have received := receiveFrame_alike alike sha256Hex text child read
  unfold acknowledgement
  generalize receiveFrame sha256Hex text child s read = first at received
  generalize receiveFrame sha256Hex text child t read = second at received
  cases received with
  | ok still =>
      dsimp only
      rw [still.state, leave_alike still sha256Hex text child]
  | error unread => rfl
  | left _ never => exact never.elim
  | right _ never => exact never.elim

variable (descriptor : Descriptor) (options : InvocationOptions)

theorem sendCancel_alike :
    Agrees (fun _ => False) Session.Alike (sendCancel sha256Hex text child options s)
      (sendCancel sha256Hex text child options t) :=
  .bind_same fun cancel _ => sendOutgoing_alike alike sha256Hex text child cancel

theorem advance_emission_alike (projectionBytes : List UInt8) (read : Read) :
    (advance sha256Hex text descriptor options child (.emission s projectionBytes) read).Alike
      (advance sha256Hex text descriptor options child (.emission t projectionBytes) read) := by
  have received := receiveFrame_alike alike sha256Hex text child read
  have cancel := sendCancel_alike alike sha256Hex text child options
  rw [advance, advance, alike.state]
  generalize receiveFrame sha256Hex text child s read = first at received
  generalize receiveFrame sha256Hex text child t read = second at received
  cases received with
  | ok still =>
      rename_i after after'
      have troubled := still.takePeerError
      dsimp only
      generalize after.takePeerError = first at troubled
      generalize after'.takePeerError = second at troubled
      obtain ⟨untroubled, message⟩ := first
      obtain ⟨untroubled', message'⟩ := second
      obtain ⟨rfl, still⟩ : message' = message ∧ Session.Alike untroubled untroubled' := troubled
      cases message' with
      | some message =>
          simp only [reportPeerError, leave_alike still sha256Hex text child]
          exact .finished _
      | none =>
          have handed := still.takeCompletedEmission
          dsimp only
          generalize untroubled.takeCompletedEmission = first at handed
          generalize untroubled'.takeCompletedEmission = second at handed
          obtain ⟨taken, completed⟩ := first
          obtain ⟨taken', completed'⟩ := second
          obtain ⟨rfl, still⟩ : completed' = completed ∧ Session.Alike taken taken' := handed
          cases completed' with
          | some completed =>
              simp only [complete, leave_alike still sha256Hex text child]
              exact .finished _
          | none => exact .emission still projectionBytes
  | error unread =>
      dsimp only
      split
      · exact .finished _
      · generalize sendCancel sha256Hex text child options s = first at cancel
        generalize sendCancel sha256Hex text child options t = second at cancel
        cases cancel with
        | ok still => exact .acknowledgement still
        | error failure => exact .finished _
        | left _ never => exact never.elim
        | right _ never => exact never.elim
  | left _ never => exact never.elim
  | right _ never => exact never.elim

end Congruence

section Transparency

variable {sha256Hex : List UInt8 → String} {text : JsonText} {descriptor : Descriptor}
  {options : InvocationOptions} {child : ChildProcess} {p q : Phase}

theorem advance_alike (alike : p.Alike q) (read : Read) :
    (advance sha256Hex text descriptor options child p read).Alike
      (advance sha256Hex text descriptor options child q read) := by
  cases alike with
  | emission alike projectionBytes =>
      exact advance_emission_alike alike sha256Hex text child descriptor options _ read
  | acknowledgement alike =>
      rw [advance, advance, acknowledgement_alike alike sha256Hex text child]
      exact .finished _
  | finished result => exact .finished result

theorem conclude_alike (alike : p.Alike q) :
    conclude sha256Hex text child p = conclude sha256Hex text child q := by
  cases alike with
  | emission => rfl
  | acknowledgement alike =>
      rw [conclude, conclude, acknowledgement_alike alike sha256Hex text child]
  | finished => rfl

/-- Alike phases come to one result, whatever is still read. -/
theorem conclude_run_alike (alike : p.Alike q) (reads : List Read) :
    conclude sha256Hex text child (run (advance sha256Hex text descriptor options child) p reads) =
      conclude sha256Hex text child
        (run (advance sha256Hex text descriptor options child) q reads) := by
  induction reads generalizing p q with
  | nil => exact conclude_alike alike
  | cons read rest ih => exact ih (advance_alike alike read)

/-- What a session has to hand out it keeps. -/
theorem quiet_of_accepts {s s' : Session} {d : Direction} {frame : Frame}
    (accepts : Accepts sha256Hex text s d frame s') (quiet : Quiet s') : Quiet s := by
  obtain ⟨errors, completed⟩ := quiet
  cases accepts <;>
    exact ⟨by simp_all [closeRun, grow, resetRequest], by simp_all [closeRun, grow, resetRequest]⟩

theorem quiet_of_runs {s t : Session} {frames : List (Direction × Frame)}
    (runs : Runs sha256Hex text s frames t) (quiet : Quiet t) : Quiet s := by
  induction runs with
  | nil => exact quiet
  | cons reads accepts _ ih => exact quiet_of_accepts accepts (ih quiet)

/-- The loop follows the session while nothing is handed out. -/
theorem run_emission {frames : List Frame} {s t : Session} (projectionBytes : List UInt8)
    (runs : Runs sha256Hex text s (frames.map fun frame => (.backendToCore, frame)) t)
    (quiet : Quiet t) :
    run (advance sha256Hex text descriptor options child) (.emission s projectionBytes)
        (frames.map fun frame => .ok (.frame frame)) = .emission t projectionBytes := by
  induction frames generalizing s with
  | nil =>
      cases runs
      rfl
  | cons frame rest ih =>
      cases runs with
      | @cons _ middle _ _ _ _ reads accepts runs =>
          have still := quiet_of_runs runs quiet
          have received : receiveFrame sha256Hex text child s (.ok (.frame frame)) = .ok middle :=
            receiveFrame_ok.mpr ⟨frame, rfl, reads, accepts⟩
          rw [List.map_cons, run_cons, advance, received]
          dsimp only
          rw [still.takePeerError]
          dsimp only
          rw [still.takeCompletedEmission]
          exact ih runs

/-- A child that reads other frames is otherwise the same child. -/
def reading (child : ChildProcess) (reads : List Read) : ChildProcess := { child with reads }

theorem invoke_reading (graph : BackendProjectionGraph) (reads : List Read) :
    invoke sha256Hex text descriptor options (.ok (reading child reads)) graph =
      conclude sha256Hex text child
        (phaseAfter sha256Hex text descriptor options child graph reads) :=
  invoke_phases graph

theorem phaseAfter_append (graph : BackendProjectionGraph) (before later : List Read) :
    phaseAfter sha256Hex text descriptor options child graph (before ++ later) =
      run (advance sha256Hex text descriptor options child)
        (phaseAfter sha256Hex text descriptor options child graph before) later :=
  run_append _ _ before later

theorem run_loops {inserted : List Frame} (insertion : Insertion inserted)
    (framed : ∀ frame ∈ inserted, frameError frame = .ok ()) (steady : p.Steady) (loops : p.Loops)
    (idle : ∀ s, p.session? = some s → s.pending = .none) :
    p.Alike (run (advance sha256Hex text descriptor options child) p
      (inserted.map fun frame => .ok (.frame frame))) := by
  cases p with
  | handshake | acknowledgement => exact loops.elim
  | finished result =>
      rw [run_finished]
      exact .finished result
  | emission session projectionBytes =>
      obtain ⟨emitting, quiet⟩ := steady
      obtain ⟨t, runs, alike⟩ := runs_insertion sha256Hex text insertion (idle session rfl)
        (by simp [emitting]) (by simp [emitting]) framed .backendToCore
      have still : Quiet t :=
        ⟨by rw [alike.fields, quiet.errors], by rw [alike.fields, quiet.completed]⟩
      rw [run_emission projectionBytes runs still]
      exact .emission alike projectionBytes

/-! A single read that meets such a frame. -/

def optionalFrame : Frame := ⟨99, 0, []⟩

theorem insertion_optionalFrame : Insertion [optionalFrame] := .bare rfl rfl rfl

def loneFrame : Frame := rawFrame .artifactBytes []

theorem receive_optionalFrame {s : Session} (alive : s.state ≠ .failed)
    (unclosed : s.state ≠ .closed) (idle : s.pending = .none) :
    receiveFrame sha256Hex text child s (.ok (.frame optionalFrame)) = .ok s :=
  receiveFrame_ok.mpr ⟨optionalFrame, rfl, ⟨alive, unclosed, rfl⟩, .plain idle rfl rfl rfl⟩

theorem receive_loneFrame {s : Session} (alive : s.state ≠ .failed)
    (unclosed : s.state ≠ .closed) (idle : s.pending = .none) :
    receiveFrame sha256Hex text child s (.ok (.frame loneFrame)) =
      .error ⟨false, protocolError "lone raw frame"⟩ := by
  have framed : frameError loneFrame = .ok () := rfl
  have typed : loneFrame.known = some .artifactBytes := rfl
  simp [receiveFrame, Session.consume, alive, unclosed, framed, idle, typed, MessageType.isRaw]

/-- A frame that settles nothing ends an invocation that reads a single frame. -/
theorem single_read_fails (steady : p.Steady) (single : ¬ p.Loops) :
    conclude sha256Hex text child (run (advance sha256Hex text descriptor options child) p
        [.ok (.frame optionalFrame), .ok (.frame loneFrame)]) ≠
      conclude sha256Hex text child (run (advance sha256Hex text descriptor options child) p
        [.ok (.frame loneFrame)]) := by
  cases p with
  | emission | finished => exact absurd trivial single
  | handshake session projectionBytes =>
      obtain ⟨waiting, idle, quiet⟩ := steady
      have skipped : handshake sha256Hex text child session (.ok (.frame optionalFrame)) =
          .error (invocationError "E_PROTOCOL" "backend did not complete the handshake") := by
        have early : (session.negotiatedCapabilities?).isSome = false := by
          rw [← Bool.not_eq_true, negotiated_iff]
          simp [waiting]
        rw [handshake, receive_optionalFrame (by simp [waiting]) (by simp [waiting]) idle]
        dsimp only
        rw [quiet.takePeerError]
        simp [early]
      have lone : handshake sha256Hex text child session (.ok (.frame loneFrame)) =
          .error (protocolError "lone raw frame") := by
        rw [handshake, receive_loneFrame (by simp [waiting]) (by simp [waiting]) idle]
      have left : advance sha256Hex text descriptor options child (.handshake session projectionBytes)
          (.ok (.frame optionalFrame)) = .finished (.error 
          (invocationError "E_PROTOCOL" "backend did not complete the handshake")) := by
        rw [advance, skipped]
      have right : advance sha256Hex text descriptor options child (.handshake session projectionBytes)
          (.ok (.frame loneFrame)) = .finished (.error (protocolError "lone raw frame")) := by
        rw [advance, lone]
      rw [run_cons, left, run_finished, run_cons, right, run_nil]
      simp only [conclude, ne_eq, Except.error.injEq]
      decide
  | acknowledgement session =>
      obtain ⟨cancelling, idle⟩ := steady
      have skipped : acknowledgement sha256Hex text child session (.ok (.frame optionalFrame)) =
          invocationError "E_PROTOCOL" "backend did not acknowledge cancellation" := by
        rw [acknowledgement, receive_optionalFrame (by simp [cancelling]) (by simp [cancelling]) idle]
        simp [cancelling]
      have lone : acknowledgement sha256Hex text child session (.ok (.frame loneFrame)) =
          invocationError "E_TIMEOUT" "backend failed during cancellation" := by
        rw [acknowledgement, receive_loneFrame (by simp [cancelling]) (by simp [cancelling]) idle]
        simp
      have left : advance sha256Hex text descriptor options child (.acknowledgement session)
          (.ok (.frame optionalFrame)) = .finished (.error 
          (invocationError "E_PROTOCOL" "backend did not acknowledge cancellation")) := by
        rw [advance, skipped]
      have right : advance sha256Hex text descriptor options child (.acknowledgement session)
          (.ok (.frame loneFrame)) = .finished (.error 
          (invocationError "E_TIMEOUT" "backend failed during cancellation")) := by
        rw [advance, lone]
      rw [run_cons, left, run_finished, run_cons, right, run_nil]
      simp only [conclude, ne_eq, Except.error.injEq]
      decide

/-- Put where no raw frame is awaited, such frames never change how an invocation ends exactly
where it reads in a loop or reads no more. -/
theorem insertion_iff (graph : BackendProjectionGraph) (before : List Read)
    (idle : ∀ s, (phaseAfter sha256Hex text descriptor options child graph before).session? =
      some s → s.pending = .none) :
    (∀ inserted, Insertion inserted → (∀ frame ∈ inserted, frameError frame = .ok ()) →
      ∀ later : List Read,
        invoke sha256Hex text descriptor options (.ok (reading child
            (before ++ ((inserted.map fun frame => .ok (.frame frame)) ++ later)))) graph =
          invoke sha256Hex text descriptor options (.ok (reading child (before ++ later))) graph) ↔
      (phaseAfter sha256Hex text descriptor options child graph before).Loops := by
  have steady : (phaseAfter sha256Hex text descriptor options child graph before).Steady :=
    steady_after graph before
  simp only [invoke_reading, phaseAfter_append, run_append]
  constructor
  · intro same
    by_contra single
    exact single_read_fails steady single
      (same [optionalFrame] insertion_optionalFrame (by simp; rfl) [.ok (.frame loneFrame)])
  · intro loops inserted insertion framed later
    exact (conclude_run_alike (run_loops insertion framed steady loops idle) later).symm

end Transparency

/-- A session accepts such frames between two header/raw pairs exactly when the wire carries
them, and then no caller can tell that they came; an invocation goes on as though they had not
come exactly where it reads in a loop or reads no more. -/
theorem optional_frames_transparent (sha256Hex : List UInt8 → String) (text : JsonText) :
    (∀ (s : Session) (inserted : List Frame) (d : Direction), Insertion inserted →
      s.pending = .none → s.state ≠ .failed → s.state ≠ .closed →
      ((∃ t, Runs sha256Hex text s (inserted.map fun frame => (d, frame)) t ∧
          ∀ operations, t.replies sha256Hex text operations =
            s.replies sha256Hex text operations) ↔
        ∀ frame ∈ inserted, frameError frame = .ok ())) ∧
    (∀ (descriptor : Descriptor) (options : InvocationOptions) (child : ChildProcess)
      (graph : BackendProjectionGraph) (before : List Read),
      (∀ s, (phaseAfter sha256Hex text descriptor options child graph before).session? = some s →
        s.pending = .none) →
      ((∀ inserted, Insertion inserted → (∀ frame ∈ inserted, frameError frame = .ok ()) →
          ∀ later : List Read,
            invoke sha256Hex text descriptor options (.ok (reading child
                (before ++ ((inserted.map fun frame => .ok (.frame frame)) ++ later)))) graph =
              invoke sha256Hex text descriptor options
                (.ok (reading child (before ++ later))) graph) ↔
        (phaseAfter sha256Hex text descriptor options child graph before).Loops)) := by
  constructor
  · intro s inserted d insertion idle alive unclosed
    constructor
    · rintro ⟨t, runs, -⟩ frame listed
      exact runs.framed (d, frame) (List.mem_map_of_mem listed)
    · intro framed
      obtain ⟨t, runs, alike⟩ :=
        runs_insertion sha256Hex text insertion idle alive unclosed framed d
      exact ⟨t, runs, alike.replies⟩
  · intro descriptor options child graph before idle
    exact insertion_iff graph before idle

/-- The opened session does not notice the frame. -/
theorem optional_frames_opened :
    ∃ t, Runs zeroDigest compactText openedSession [(.backendToCore, optionalFrame)] t ∧
      ∀ operations, t.replies zeroDigest compactText operations =
        openedSession.replies zeroDigest compactText operations :=
  ((optional_frames_transparent zeroDigest compactText).1 openedSession [optionalFrame]
    .backendToCore insertion_optionalFrame rfl (by decide) (by decide)).mpr (by simp; rfl)

/-! A backend whose identity is not the descriptor's, with and without such a frame before its
Capabilities. -/

def sampleDescriptor : Descriptor where
  targetIdentity := "other"
  protocolMajor := 1
  apiVersion := 1
  targetProfileIdentity := "profile"
  manifestDigest := zeroSha

def sampleOptions : InvocationOptions where
  coreIdentity := "core"
  outputSpec := ⟨1, 1, ""⟩

def greetedSession : Session where
  state := .awaitingCapabilities
  negotiationHello := ⟨1, 0, "core"⟩

theorem sample_opening : opening zeroDigest compactText sampleOptions {} firstOrder =
    .handshake greetedSession projectionBytes := by
  have framed : frameError helloFrame = .ok () := frameError_written (by decide +kernel) _ _
  have encoded : encodeFinalizedProjection compactText firstOrder =
      .ok (wireGraph firstOrder).compact := rfl
  have hello : encodeHello compactText ⟨kProtocolMajor, kProtocolMinor, "core"⟩ =
      .ok helloFrame := controlFrame_ok.mpr ⟨framed, rfl⟩
  have sent : sendOutgoing zeroDigest compactText {} {} helloFrame = .ok greetedSession :=
    sendOutgoing_ok.mpr ⟨⟨⟨by simp, by simp, framed⟩, .hello rfl (known_written _ _ _ _)
      (trailing_written _ _ _ _) rfl rfl decode_hello rfl⟩, rfl⟩
  have prepared : prepare zeroDigest compactText sampleOptions {} firstOrder =
      .ok (greetedSession, projectionBytes) := by
    simp only [prepare, bind_ok, require_ok, exists_const, pure_ok, sendHello]
    exact ⟨by decide, by decide, by decide, _, encoded, _, ⟨_, hello, sent⟩, rfl⟩
  rw [opening, prepared]

theorem sample_handshake :
    handshake zeroDigest compactText {} greetedSession (.ok (.frame capabilitiesFrame)) =
      .ok { greetedSession with
        negotiatedCapabilities := sampleCapabilities
        state := .ready } := by
  have framed : frameError capabilitiesFrame = .ok () :=
    frameError_written (by decide +kernel) _ _
  have received : receiveFrame zeroDigest compactText {} greetedSession
      (.ok (.frame capabilitiesFrame)) = .ok _ :=
    receiveFrame_ok.mpr ⟨capabilitiesFrame, rfl, ⟨by decide, by decide, framed⟩,
      .capabilities rfl (known_written _ _ _ _) (trailing_written _ _ _ _) rfl rfl
        decode_capabilities (by decide) (by decide)⟩
  rw [handshake, received]
  rfl

/-- The frame turns the answer to a foreign identity into a failed handshake. -/
theorem optional_frame_before_capabilities :
    Insertion [optionalFrame] ∧ frameError optionalFrame = .ok () ∧
    invoke zeroDigest compactText sampleDescriptor sampleOptions
        (.ok (reading {} [.ok (.frame capabilitiesFrame)])) firstOrder =
      .error "E_PACKAGE_BINDING:invoke:backend identity does not match descriptor" ∧
    invoke zeroDigest compactText sampleDescriptor sampleOptions
        (.ok (reading {} [.ok (.frame optionalFrame), .ok (.frame capabilitiesFrame)]))
        firstOrder =
      .error "E_PROTOCOL:invoke:backend did not complete the handshake" := by
  refine ⟨insertion_optionalFrame, rfl, ?_, ?_⟩
  · rw [invoke_reading, phaseAfter, sample_opening, run_cons, advance, sample_handshake]
    rfl
  · rw [invoke_reading, phaseAfter, sample_opening, run_cons, advance, handshake,
      receive_optionalFrame (by decide) (by decide) rfl]
    rfl

end Neutrino.BackendInvocation
