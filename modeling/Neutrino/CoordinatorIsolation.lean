import Neutrino.BoundedCoordinator
import Neutrino.Library.Tenants
import Neutrino.Conservation

/-! Instances of a shared coordinator: what an instance stores and is answered depends on its own
calls alone, and when a call that commits nothing leaves every stored state as it was. -/

namespace Neutrino

open Checked Tenants Run

namespace SharedCoordinator

section Hash

variable (sha256Hex : List UInt8 → String)

/-- The coordinator as a shared machine: an instance's stored state, if any, and one call. -/
def instanceStep (plan : CoordinationPlan) (bounds : BoundedBounds) (stored : Option EvalState)
    (input : TransitionInput) : TransitionResult × Option EvalState :=
  let result := runOn sha256Hex plan bounds (stored.getD EvalState.empty) input
  (result, some result.next)

/-- A call serves its own instance. -/
theorem run_serve (coordinator : SharedCoordinator) (instanceId : String)
    (input : TransitionInput) :
    let served := serve (instanceStep sha256Hex coordinator.coordinationPlan coordinator.bounds)
      coordinator.stateOf (instanceId, input)
    (coordinator.run sha256Hex instanceId input).1 = served.1 ∧
      (coordinator.run sha256Hex instanceId input).2.stateOf = served.2 := by
  refine ⟨rfl, ?_⟩
  funext other
  by_cases mine : other = instanceId
  · subst mine
    simp only [serve, Function.update_self, stateOf, run, Std.ExtTreeMap.getElem?_insert_self,
      instanceStep]
  · simp only [serve, Function.update_of_ne mine, stateOf, run]
    rw [Std.ExtTreeMap.getElem?_insert, if_neg]
    simpa using Ne.symm mine

/-- A sequence of calls serves the instances in turn. -/
theorem runAll_serveAll (coordinator : SharedCoordinator)
    (calls : List (String × TransitionInput)) :
    let served := serveAll
      (instanceStep sha256Hex coordinator.coordinationPlan coordinator.bounds)
      coordinator.stateOf calls
    (coordinator.runAll sha256Hex calls).1 = served.1 ∧
      (coordinator.runAll sha256Hex calls).2.stateOf = served.2 := by
  induction calls generalizing coordinator with
  | nil => exact ⟨rfl, rfl⟩
  | cons call rest ih =>
      obtain ⟨result, states⟩ := run_serve sha256Hex coordinator call.1 call.2
      obtain ⟨results, final⟩ := ih (coordinator.run sha256Hex call.1 call.2).2
      have plan : (coordinator.run sha256Hex call.1 call.2).2.coordinationPlan =
          coordinator.coordinationPlan := rfl
      have bounds : (coordinator.run sha256Hex call.1 call.2).2.bounds = coordinator.bounds := rfl
      rw [plan, bounds, states] at results final
      constructor
      · simp only [runAll, serveAll, results, result]
      · simp only [runAll, serveAll, final]

variable {sha256Hex}

/-- A transition that is refused, replayed or without progress leaves the state alone. -/
theorem idle_next {plan : CoordinationPlan} {state : EvalState} {input : TransitionInput}
    (idle : (evaluateTransition sha256Hex plan state input).commits = false) :
    (evaluateTransition sha256Hex plan state input).next = state := by
  cases decided : (settle sha256Hex plan state input).value with
  | error refusal => rw [evaluateTransition_refused decided]
  | ok settled =>
      rw [evaluateTransition_settled decided] at idle ⊢
      simp only [TransitionResult.commits] at idle
      cases settle_ok decided with
      | replay => rfl
      | evidence => simp at idle
      | groups =>
          simp only [disposeGroups] at idle ⊢
          split
          · rfl
          · rename_i some
            simp only [some, if_false] at idle
            split at idle <;> simp at idle
      | legs => simp at idle

theorem runOn_next {plan : CoordinationPlan} {bounds : BoundedBounds} {state : EvalState}
    {input : TransitionInput} (idle : (runOn sha256Hex plan bounds state input).commits = false) :
    (runOn sha256Hex plan bounds state input).next = state := by
  unfold runOn at idle ⊢
  dsimp only at idle ⊢
  split
  · rfl
  · split
    · rfl
    · rename_i steps slots
      simp only [steps, slots, if_false] at idle
      exact idle_next idle

/-- What an instance's next call starts from. -/
def stateFor (coordinator : SharedCoordinator) (instanceId : String) : EvalState :=
  (coordinator.stateOf instanceId).getD EvalState.empty

theorem stateOf_run_other (coordinator : SharedCoordinator) {instanceId other : String}
    (different : other ≠ instanceId) (input : TransitionInput) :
    (coordinator.run sha256Hex instanceId input).2.stateOf other =
      coordinator.stateOf other := by
  rw [(run_serve sha256Hex coordinator instanceId input).2]
  exact serve_other _ _ _ different

theorem stateOf_run_self (coordinator : SharedCoordinator) (instanceId : String)
    (input : TransitionInput) :
    (coordinator.run sha256Hex instanceId input).2.stateOf instanceId =
      some (coordinator.run sha256Hex instanceId input).1.next := by
  rw [(run_serve sha256Hex coordinator instanceId input).2]
  exact serve_own _ _ _

/-- Instance isolation: in any interleaving an instance stores and is answered what its own
calls alone would store and be answered, and a call that commits nothing leaves every stored
state unchanged exactly when its instance has called before. -/
theorem instance_isolation (sha256Hex : List UInt8 → String) (coordinator : SharedCoordinator) :
    (∀ calls instanceId,
      (coordinator.runAll sha256Hex calls).2.stateOf instanceId =
        (coordinator.runAll sha256Hex (own instanceId calls)).2.stateOf instanceId ∧
      own instanceId (coordinator.runAll sha256Hex calls).1 =
        (coordinator.runAll sha256Hex (own instanceId calls)).1) ∧
    ∀ instanceId input,
      (coordinator.run sha256Hex instanceId input).1.commits = false →
      ((∀ other, (coordinator.run sha256Hex instanceId input).2.stateOf other =
          coordinator.stateOf other) ↔
        (coordinator.stateOf instanceId).isSome = true) := by
  constructor
  · intro calls instanceId
    obtain ⟨results, states⟩ := runAll_serveAll sha256Hex coordinator calls
    obtain ⟨ownResults, ownStates⟩ :=
      runAll_serveAll sha256Hex coordinator (own instanceId calls)
    have alone := serveAll_own
      (instanceStep sha256Hex coordinator.coordinationPlan coordinator.bounds) instanceId
      (rfl : coordinator.stateOf instanceId = coordinator.stateOf instanceId) calls
    rw [results, states, ownResults, ownStates]
    exact ⟨alone.2, alone.1⟩
  · intro instanceId input idle
    constructor
    · intro unchanged
      rw [← unchanged instanceId, stateOf_run_self]
      rfl
    · intro hosted other
      obtain ⟨state, stored⟩ := Option.isSome_iff_exists.mp hosted
      by_cases mine : other = instanceId
      · subst mine
        have kept : (coordinator.run sha256Hex other input).1.next =
            coordinator.stateFor other := runOn_next idle
        rw [stateOf_run_self, kept, stateFor, stored]
        rfl
      · exact stateOf_run_other coordinator mine input

end Hash

/-- A coordinator for a payment between two parties. -/
def paymentCoordinator : SharedCoordinator where
  coordinationPlan := specPlan (paymentSpec [] none none)
  bounds := deriveBounds (specPlan (paymentSpec [] none none))
  instances := ∅

theorem paymentCoordinator_created :
    create (specPlan (paymentSpec [] none none)) = .ok paymentCoordinator := by
  have admitted : admitBounded (specPlan (paymentSpec [] none none)) =
      .ok (deriveBounds (specPlan (paymentSpec [] none none))) := by decide +kernel
  simp only [create, admitted]
  rfl

/-- The coordinator after one instance has paid. -/
def paidCoordinator : SharedCoordinator :=
  (paymentCoordinator.run sampleHash "A" (paymentInput [])).2

theorem instance_isolation_sample :
    (∀ other, (paidCoordinator.run sampleHash "A" (paymentInput [])).2.stateOf other =
        paidCoordinator.stateOf other) ↔ (paidCoordinator.stateOf "A").isSome = true :=
  (instance_isolation sampleHash paidCoordinator).2 "A" (paymentInput []) (by decide +kernel)

/-! A refused first call: nothing is committed, yet the instance is now hosted. -/

def deniedInput : TransitionInput := { paymentInput [] with authorized := false }

theorem refused_call_hosts :
    create (specPlan (paymentSpec [] none none)) = .ok paymentCoordinator ∧
    (paymentCoordinator.run sampleHash "A" deniedInput).1.outcome = .refused ∧
    paymentCoordinator.stateOf "A" = none ∧
    ((paymentCoordinator.run sampleHash "A" deniedInput).2.stateOf "A").isSome = true ∧
    (paymentCoordinator.run sampleHash "A" deniedInput).2.instanceCount = 1 := by
  refine ⟨paymentCoordinator_created, ?_, ?_, ?_, ?_⟩
  · decide +kernel
  · exact Std.ExtTreeMap.getElem?_empty
  · rw [stateOf_run_self]
    rfl
  · decide +kernel

end SharedCoordinator

end Neutrino
