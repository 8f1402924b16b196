import Neutrino.PlanShape

/-! What an accepted plan's lifecycle satisfies: states without repetition, and transitions,
initial and terminal states among them. -/

namespace Neutrino

open Checked

/-- A transition of declared vocabulary between declared states. -/
structure TransitionShape (states : List String) (transition : LifecycleTransitionPolicy) :
    Prop where
  named : transition.name ≠ ""
  source : transition.from ∈ states
  target : transition.«to» ∈ states
  sourceNamed : transition.from ≠ ""
  targetNamed : transition.«to» ≠ ""
  idempotency : transition.idempotency = "reject" ∨ transition.idempotency = "noop_on_identical"
  effects : ∀ effect ∈ transition.effects, isLifecycleEffect effect = true
  guards : ∀ guard ∈ transition.guards, isLifecycleGuardKind guard.kind = true
  evidence : ∀ evidence, transition.evidence = some evidence →
    isLifecycleEvidenceStyle evidence.style = true

/-- Everything `assemblePlan` establishes about the lifecycle of the plan it returns. -/
structure LifecycleShape (plan : CoordinationPlan) : Prop where
  nodup : plan.lifecycleStates.Nodup
  stated : plan.lifecycleTransitions = [] ∨ plan.lifecycleStates ≠ []
  started : plan.lifecycleTransitions = [] ∨ plan.lifecycleInitialState ≠ ""
  initial : plan.lifecycleInitialState = "" ∨ plan.lifecycleInitialState ∈ plan.lifecycleStates
  success : plan.terminal.success = "" ∨ plan.terminal.success ∈ plan.lifecycleStates
  aborted : plan.terminal.aborted = "" ∨ plan.terminal.aborted ∈ plan.lifecycleStates
  contested : plan.terminal.contested = "" ∨ plan.terminal.contested ∈ plan.lifecycleStates
  transitions : ∀ transition ∈ plan.lifecycleTransitions,
    TransitionShape plan.lifecycleStates transition

theorem checkEvidence_ok {transition : String}
    {evidence : Option LifecycleTransitionEvidencePolicy}
    (accepted : checkEvidence transition evidence = .ok ()) (policy : LifecycleTransitionEvidencePolicy)
    (declared : evidence = some policy) : isLifecycleEvidenceStyle policy.style = true := by
  subst declared
  exact requirePlan_ok.mp accepted

theorem checkTransition_ok {states : List String} {transition : LifecycleTransitionPolicy}
    (accepted : checkTransition states transition = .ok ()) :
    TransitionShape states transition := by
  simp only [checkTransition, bind_ok, requirePlan_ok, exists_const] at accepted
  obtain ⟨named, idempotency, _, effects, _, guards, _, evidence, source, target⟩ := accepted
  refine ⟨named.1, source, target, named.2.1, named.2.2, idempotency, ?_, ?_, ?_⟩
  · exact fun effect listed => requirePlan_ok.mp (each_ok.mp effects effect listed)
  · intro guard listed
    have checked := each_ok.mp guards guard listed
    simp only [checkTransitionGuard, bind_ok, requirePlan_ok, exists_const] at checked
    exact checked.2
  · exact checkEvidence_ok evidence

theorem lifecycleShape_of_accepted {raw : PlanInputs} {plan : CoordinationPlan}
    (accepted : assemblePlan raw = .ok plan) : LifecycleShape plan := by
  simp only [assemblePlan, bind_ok, pure_ok] at accepted
  obtain ⟨_, _, _, _, _, _, _, _, _, _, _, _, _, _, _, _, _, _, _, lifecycle, _, _, rfl⟩ := accepted
  simp only [checkLifecycle, bind_ok, requirePlan_ok, exists_const] at lifecycle
  obtain ⟨nodup, stated, started, initial, _, terminals, transitions⟩ := lifecycle
  have terminal := each_ok.mp terminals
  simp only [checkTerminal, requirePlan_ok, List.forall_mem_cons] at terminal
  exact {
    nodup := nodup
    stated := stated
    started := started
    initial := initial
    success := terminal.1
    aborted := terminal.2.1
    contested := terminal.2.2.1
    transitions := fun transition listed =>
      checkTransition_ok (each_ok.mp transitions transition listed) }

end Neutrino
