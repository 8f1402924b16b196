import Neutrino.GroupShape

/-! What the trace of a committing transition says about the plan's obligations. -/

namespace Neutrino

open Checked

/-- The effects an obligation's names resolve to. -/
def authorizedEffects (plan : CoordinationPlan) (obligation : PlanObligation) :
    List PlanEffect :=
  obligation.effects.filterMap (namedEffect plan.effects)

/-- Whether the predicate holds; one that cannot be evaluated does not. -/
def predicateHolds (env : Env) (obligation : PlanObligation) : Bool :=
  match evalGuard obligation.when env with
  | .ok held => held
  | .error _ => false

/-- The observation is the obligation's own, fired exactly when every effect it authorizes is
among the posted legs, and refused only when none is. -/
def Truthful (plan : CoordinationPlan) (legs : List Pending) (obligation : PlanObligation) :
    Observation → Prop
  | .obligation name obligor _ status =>
      name = obligation.name ∧ obligor = obligation.obligor ∧
      (status = .fired ↔ ∀ effect ∈ authorizedEffects plan obligation,
        effect ∈ legs.map (·.effect)) ∧
      (status = .refused → ∀ effect ∈ authorizedEffects plan obligation,
        effect ∉ legs.map (·.effect))
  | _ => False

/-- The trace has exactly one observation for each obligation of the plan, in order, and each
is truthful. -/
def ObligationsObserved (sha256Hex : List UInt8 → String) (plan : CoordinationPlan)
    (state : EvalState) (input : TransitionInput) : Prop :=
  List.Forall₂ (Truthful plan (postedLegs sha256Hex plan state input)) plan.obligations
    ((evaluateTransition sha256Hex plan state input).trace.filter Observation.isObligation)

/-- The predicate holds when the guard of an authorized effect does, and when it holds, effects
of all the authorized names do not fire without the authorized effects themselves. -/
structure PredicateAgrees (plan : CoordinationPlan) (env : Env) (obligation : PlanObligation) :
    Prop where
  covers : ∀ effect ∈ authorizedEffects plan obligation, fires env effect = true →
    predicateHolds env obligation = true
  unmistaken : predicateHolds env obligation = true →
    (∀ name ∈ obligation.effects, ∃ effect ∈ plan.effects, effect.name = name ∧
      fires env effect = true) →
    ∀ effect ∈ authorizedEffects plan obligation, fires env effect = true

theorem authorizedEffects_mem {plan : CoordinationPlan} {obligation : PlanObligation}
    {effect : PlanEffect} (authorized : effect ∈ authorizedEffects plan obligation) :
    effect ∈ plan.effects ∧ effect.name ∈ obligation.effects := by
  obtain ⟨name, listed, found⟩ := List.mem_filterMap.mp authorized
  obtain ⟨declared, rfl⟩ := namedEffect_some found
  exact ⟨declared, listed⟩

theorem ObligationOf.exists_authorized {plan : CoordinationPlan} {obligation : PlanObligation}
    (shape : ObligationOf plan.effects obligation) {name : String}
    (listed : name ∈ obligation.effects) :
    ∃ effect ∈ authorizedEffects plan obligation, effect.name = name := by
  obtain ⟨effect, found, _⟩ := shape.named name listed
  exact ⟨effect, List.mem_filterMap.mpr ⟨name, listed, found⟩, (namedEffect_some found).2⟩

/-- When a single-shot commit posts the effects that fire, what it observes of an obligation is
truthful exactly when the predicate agrees with the guards. -/
theorem truthful_iff {plan : CoordinationPlan} {env : Env} {legs : List Pending}
    (effects : legs.map (·.effect) = plan.effects.filter (fires env))
    {obligation : PlanObligation} (shape : ObligationOf plan.effects obligation) :
    Truthful plan legs obligation
        (observeObligation env (legs.map (·.effect.name)) obligation) ↔
      PredicateAgrees plan env obligation := by
  have posts : ∀ effect ∈ authorizedEffects plan obligation,
      (effect ∈ legs.map (·.effect) ↔ fires env effect = true) := by
    intro effect authorized
    rw [effects, List.mem_filter]
    exact and_iff_right (authorizedEffects_mem authorized).1
  have names : ∀ name, name ∈ legs.map (·.effect.name) ↔
      ∃ effect ∈ plan.effects, effect.name = name ∧ fires env effect = true := by
    intro name
    have mapped : legs.map (·.effect.name) = (legs.map (·.effect)).map (·.name) := by simp
    rw [mapped, effects]
    simp only [List.mem_map, List.mem_filter]
    constructor
    · rintro ⟨effect, ⟨declared, firing⟩, same⟩
      exact ⟨effect, declared, same, firing⟩
    · rintro ⟨effect, declared, same, firing⟩
      exact ⟨effect, ⟨declared, firing⟩, same⟩
  have observed : observeObligation env (legs.map (·.effect.name)) obligation =
      .obligation obligation.name obligation.obligor (predicateHolds env obligation)
        (if !predicateHolds env obligation then .refused
          else if predicateHolds env obligation && obligation.effects.all fun name =>
            name ∈ legs.map (·.effect.name) then .fired else .eligible) := rfl
  rw [observed]
  cases holds : predicateHolds env obligation with
  | false =>
      simp only [Truthful, Bool.not_false, if_true, true_and, forall_const, reduceCtorEq,
        false_iff]
      constructor
      · rintro ⟨_, none⟩
        refine ⟨fun effect authorized firing => ?_, by simp [holds]⟩
        exact absurd ((posts effect authorized).mpr firing) (none effect authorized)
      · intro agrees
        have silent : ∀ effect ∈ authorizedEffects plan obligation,
            effect ∉ legs.map (·.effect) := by
          intro effect authorized posted
          have firing := agrees.covers effect authorized ((posts effect authorized).mp posted)
          simp [holds] at firing
        obtain ⟨name, listed⟩ := List.exists_mem_of_ne_nil _ shape.nonempty
        obtain ⟨effect, authorized, _⟩ := shape.exists_authorized listed
        exact ⟨fun all => silent effect authorized (all effect authorized), silent⟩
  | true =>
      simp only [Truthful, Bool.not_true, Bool.false_eq_true, if_false, Bool.true_and, true_and]
      by_cases all : (obligation.effects.all fun name => name ∈ legs.map (·.effect.name)) = true
      · simp only [all, if_true, reduceCtorEq, false_implies, and_true, true_iff]
        have named : ∀ name ∈ obligation.effects, ∃ effect ∈ plan.effects,
            effect.name = name ∧ fires env effect = true := by
          intro name listed
          exact (names name).mp (by simpa using List.all_eq_true.mp all name listed)
        constructor
        · intro posted
          exact ⟨fun _ _ _ => holds, fun _ _ effect authorized =>
            (posts effect authorized).mp (posted effect authorized)⟩
        · intro agrees effect authorized
          exact (posts effect authorized).mpr (agrees.unmistaken holds named effect authorized)
      · simp only [all, if_false, reduceCtorEq, false_implies, and_true, false_iff]
        simp only [List.all_eq_true, decide_eq_true_eq, not_forall] at all
        obtain ⟨name, listed, missing⟩ := all
        constructor
        · intro _
          refine ⟨fun _ _ _ => holds, fun _ named => ?_⟩
          exact absurd ((names name).mpr (named name listed)) missing
        · intro _ posted
          obtain ⟨effect, authorized, same⟩ := shape.exists_authorized listed
          apply missing
          rw [names]
          exact ⟨effect, (authorizedEffects_mem authorized).1, same,
            (posts effect authorized).mp (posted effect authorized)⟩

/-- A committing transition observes every obligation of its plan truthfully exactly when the
plan has no obligations, or is single-shot and its predicates agree with the guards. -/
theorem obligations_observed_iff (sha256Hex : List UInt8 → String) {raw : PlanInputs}
    {plan : CoordinationPlan} (accepted : assemblePlan raw = .ok plan) {state : EvalState}
    {input : TransitionInput}
    (commits : (evaluateTransition sha256Hex plan state input).commits = true) :
    ObligationsObserved sha256Hex plan state input ↔
      plan.obligations = [] ∨ isTemporal plan = false ∧
        ∀ env, (transitionEnv plan input).value = .ok env →
          ∀ obligation ∈ plan.obligations, PredicateAgrees plan env obligation := by
  have assembled := assemblePlan_ok accepted
  unfold ObligationsObserved
  have commit := commit_cases commits
  generalize (evaluateTransition sha256Hex plan state input).trace.filter
    Observation.isObligation = observations at commit
  generalize postedLegs sha256Hex plan state input = legs at commit
  cases commit with
  | evidence opens effectless declared all silent unobserved =>
      subst unobserved
      have none : plan.obligations = [] := by
        by_contra some
        obtain ⟨obligation, listed⟩ := List.exists_mem_of_ne_nil _ some
        have shape := assembled.obligationOf listed
        obtain ⟨name, named⟩ := List.exists_mem_of_ne_nil _ shape.nonempty
        obtain ⟨effect, authorized, _⟩ := shape.exists_authorized named
        have declared := (authorizedEffects_mem authorized).1
        simp [effectless] at declared
      simp [none]
  | groups opens classified committing effects resolved unobserved =>
      subst unobserved
      simp [classified.temporal]
  | @legs claim env opens effectful single effects resolved gated observed =>
      subst observed
      rw [observeObligations, List.forall₂_map_right_iff, List.forall₂_same]
      constructor
      · intro truthful
        refine .inr ⟨single, fun other evaluated obligation listed => ?_⟩
        obtain rfl : env = other := Except.ok.inj (opens.evaluated.symm.trans evaluated)
        exact (truthful_iff effects (assembled.obligationOf listed)).mp
          (truthful obligation listed)
      · rintro (none | ⟨_, agrees⟩) obligation listed
        · simp [none] at listed
        · exact (truthful_iff effects (assembled.obligationOf listed)).mpr
            (agrees env opens.evaluated obligation listed)

/-! The buyer's undertaking to pay, in the temporal trade and in a single-shot purchase. -/

def undertaking (predicate : ExprNode) (effects : List String) : PlanObligationInput where
  version := 1
  name := "payment"
  obligor := "buyer"
  beneficiary := "buyer"
  authority := "buyer"
  canonicalGuard := "due"
  when := some predicate
  effects := effects

def undertakenInputs (raw : PlanInputs) (obligation : PlanObligationInput) : PlanInputs :=
  { raw with
    participants := [⟨"buyer", "purchaser", ""⟩]
    effects := raw.effects.map fun effect => { effect with participant := "buyer" }
    obligations := [obligation] }

def amountDue : ExprNode := .cmp ">" (.var "amount" .money) (.num 0 .decimal) .extension

def purchaseInputs : PlanInputs :=
  undertakenInputs
    { sampleInputs with
      inputs := [⟨"trade", "string"⟩, ⟨"amount", "money"⟩]
      effects := [{ sampleLeg "pay" "debit" "buyer" "" with guard := some amountDue }]
      attestations := []
      balanced := false }
    (undertaking amountDue ["pay"])

def purchasePlan : CoordinationPlan := ((assemblePlan purchaseInputs).toOption).getD default

theorem purchase_accepted : assemblePlan purchaseInputs = .ok purchasePlan := rfl

theorem obligations_observed_iff_sample :
    ObligationsObserved sampleHash purchasePlan EvalState.empty (sampleInput "t-1" false false) ↔
      purchasePlan.obligations = [] ∨ isTemporal purchasePlan = false ∧
        ∀ env, (transitionEnv purchasePlan (sampleInput "t-1" false false)).value = .ok env →
          ∀ obligation ∈ purchasePlan.obligations, PredicateAgrees purchasePlan env obligation :=
  obligations_observed_iff sampleHash purchase_accepted (by decide +kernel)

def undertakenTrade : PlanInputs :=
  undertakenInputs sampleInputs
    (undertaking (.call "accepted" [.var "alpha" .evidence] .extension) ["pay", "receive"])

def undertakenPlan : CoordinationPlan := ((assemblePlan undertakenTrade).toOption).getD default

/-- The temporal trade pays both legs and says nothing of the undertaking to pay. -/
theorem temporal_obligation_unobserved :
    assemblePlan undertakenTrade = .ok undertakenPlan ∧
    undertakenPlan.obligations.map (·.name) = ["payment"] ∧
    (evaluateTransition sampleHash undertakenPlan EvalState.empty
      (sampleInput "t-1" true false)).outcome = .progress ∧
    (evaluateTransition sampleHash undertakenPlan EvalState.empty
      (sampleInput "t-1" true false)).trace.filter Observation.isObligation = [] ∧
    ¬ObligationsObserved sampleHash undertakenPlan EvalState.empty
      (sampleInput "t-1" true false) := by
  have unobserved : (evaluateTransition sampleHash undertakenPlan EvalState.empty
      (sampleInput "t-1" true false)).trace.filter Observation.isObligation = [] := rfl
  refine ⟨rfl, rfl, rfl, unobserved, ?_⟩
  unfold ObligationsObserved
  rw [unobserved]
  intro observed
  have lengths := observed.length_eq
  revert lengths
  decide

end Neutrino
