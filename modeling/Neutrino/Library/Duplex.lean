import Mathlib

/-! Peers joined by first-in first-out channels, one for each side that sends: a step either
sends a frame its sender accepts or hands the oldest frame in flight to the other side. -/

namespace Duplex

variable {ι σ α : Type} [DecidableEq ι]

structure Net (ι σ α : Type) where
  peer : ι → σ
  flight : ι → List α

inductive Event (ι α : Type)
  | sends (side : ι) (frame : α)
  | receives (side : ι)

section Steps

variable (other : ι → ι) (send : ι → α → σ → Option σ) (receive : ι → α → σ → σ)

/-- A side sends what it accepts itself; a frame sent by a side is received by the other. -/
def step (net : Net ι σ α) : Event ι α → Option (Net ι σ α)
  | .sends side frame =>
      (send side frame (net.peer side)).map fun after =>
        { peer := Function.update net.peer side after
          flight := Function.update net.flight side (net.flight side ++ [frame]) }
  | .receives side =>
      match net.flight side with
      | [] => none
      | frame :: rest =>
          some
            { peer := Function.update net.peer (other side)
                (receive side frame (net.peer (other side)))
              flight := Function.update net.flight side rest }

/-- What steps that all meet a condition lead to. -/
inductive Guarded (guard : Net ι σ α → Event ι α → Prop) (first : Net ι σ α) :
    Net ι σ α → Prop
  | start : Guarded guard first first
  | more {net next : Net ι σ α} {event : Event ι α} (reached : Guarded guard first net)
      (met : guard net event) (stepped : step other send receive net event = some next) :
      Guarded guard first next

variable {other send receive} {guard : Net ι σ α → Event ι α → Prop} {first net : Net ι σ α}

/-- What every step under the condition preserves holds wherever such steps lead. -/
theorem Guarded.invariant (invariant : Net ι σ α → Prop) (base : invariant first)
    (preserved : ∀ net next event, invariant net → guard net event →
      step other send receive net event = some next → invariant next)
    (reached : Guarded other send receive guard first net) : invariant net := by
  induction reached with
  | start => exact base
  | more _ met stepped ih => exact preserved _ _ _ ih met stepped

theorem step_sends {net next : Net ι σ α} {side : ι} {frame : α} :
    step other send receive net (.sends side frame) = some next ↔
      ∃ after, send side frame (net.peer side) = some after ∧
        next = { peer := Function.update net.peer side after
                 flight := Function.update net.flight side (net.flight side ++ [frame]) } := by
  rw [step, Option.map_eq_some_iff]
  exact exists_congr fun after => and_congr_right fun _ => eq_comm

theorem step_receives {net next : Net ι σ α} {side : ι} :
    step other send receive net (.receives side) = some next ↔
      ∃ frame rest, net.flight side = frame :: rest ∧
        next = { peer := Function.update net.peer (other side)
                   (receive side frame (net.peer (other side)))
                 flight := Function.update net.flight side rest } := by
  cases flight : net.flight side with
  | nil => simp [step, flight]
  | cons frame rest => simp [step, flight, eq_comm]

end Steps

end Duplex
