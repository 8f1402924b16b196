import Neutrino.CoordinationEval

/-! The bounded coordinator: one admitted coordination hosted for many instances, each run by the
reference evaluator on its own state under static step and storage bounds. -/

namespace Neutrino

open Checked

def kBoundedMaxEffects : Nat := 4

def kBoundedMaxComputes : Nat := 4

def kBoundedMaxAttestations : Nat := 1

def kBoundedMaxSteps : Int := 32

def kBoundedMaxStorageSlots : Int := 16

/-- At most so many observations a transition, and so many persistent slots an instance. -/
structure BoundedBounds where
  maxSteps : Int
  maxStorageSlots : Int
  deriving DecidableEq, Repr

/-- A check of admission, with the message it fails with. -/
def requireBounded (condition : Prop) [Decidable condition] (message : String) :
    Except String Unit :=
  require condition ("bounded admission: " ++ message)

def deriveBounds (plan : CoordinationPlan) : BoundedBounds where
  maxSteps := 3 + plan.computes.length + 4 * plan.effects.length
  maxStorageSlots := 2 + 2 * plan.effects.length

def admitBounded (plan : CoordinationPlan) : Except String BoundedBounds := do
  each (fun (effect : PlanEffect) => requireBounded (isPostingKind effect.kind)
    ("unsupported effect kind '" ++ effect.kind ++ "'")) plan.effects
  requireBounded (plan.effects.length ≤ kBoundedMaxEffects)
    "coordinationPlan exceeds the bounded effect cap"
  requireBounded (plan.computes.length ≤ kBoundedMaxComputes)
    "coordinationPlan exceeds the bounded compute cap"
  requireBounded (plan.attestations.length ≤ kBoundedMaxAttestations)
    "coordinationPlan exceeds the bounded attestation cap"
  requireBounded (plan.terminal.success ≠ "") "coordinationPlan has no success terminal"
  let bounds := deriveBounds plan
  requireBounded (bounds.maxSteps ≤ kBoundedMaxSteps)
    "derived step bound exceeds the coordinator cap"
  requireBounded (bounds.maxStorageSlots ≤ kBoundedMaxStorageSlots)
    "derived storage bound exceeds the coordinator cap"
  return bounds

structure SharedCoordinator where
  coordinationPlan : CoordinationPlan
  bounds : BoundedBounds
  instances : Std.ExtTreeMap String EvalState

/-- The persistent slots a state takes. -/
def EvalState.slots (state : EvalState) : Nat :=
  state.balances.size + state.postedKeys.size + state.keyStatus.size

/-- The refusal of a transition that overruns a bound, on the state it found. -/
def boundsRefusal (code : String) (state : EvalState) : TransitionResult where
  outcome := .refused
  trace := [.refusal code ""]
  next := state
  refusalCode := code

namespace SharedCoordinator

def create (plan : CoordinationPlan) : Except String SharedCoordinator := do
  let bounds ← admitBounded plan
  return { coordinationPlan := plan, bounds, instances := ∅ }

def stateOf (coordinator : SharedCoordinator) (instanceId : String) : Option EvalState :=
  coordinator.instances[instanceId]?

def instanceCount (coordinator : SharedCoordinator) : Nat := coordinator.instances.size

section Hash

variable (sha256Hex : List UInt8 → String)

/-- The result of a transition on one instance's state, under the bounds. -/
def runOn (plan : CoordinationPlan) (bounds : BoundedBounds) (state : EvalState)
    (input : TransitionInput) : TransitionResult :=
  let result := evaluateTransition sha256Hex plan state input
  if result.trace.length > bounds.maxSteps then boundsRefusal "bounds.step_exceeded" state
  else if result.next.slots > bounds.maxStorageSlots then
    boundsRefusal "bounds.storage_exceeded" state
  else result

/-- One transition of an instance. The instance has an entry from its first call on, whatever
comes of the call. -/
def run (coordinator : SharedCoordinator) (instanceId : String) (input : TransitionInput) :
    TransitionResult × SharedCoordinator :=
  let state := (coordinator.instances[instanceId]?).getD EvalState.empty
  let result := runOn sha256Hex coordinator.coordinationPlan coordinator.bounds state input
  (result, { coordinator with
    instances := coordinator.instances.insert instanceId result.next })

/-- A sequence of calls, with the result of each. -/
def runAll (coordinator : SharedCoordinator) :
    List (String × TransitionInput) → List (String × TransitionResult) × SharedCoordinator
  | [] => ([], coordinator)
  | call :: rest =>
      let (result, next) := coordinator.run sha256Hex call.1 call.2
      let (results, final) := next.runAll rest
      ((call.1, result) :: results, final)

end Hash

end SharedCoordinator

end Neutrino
