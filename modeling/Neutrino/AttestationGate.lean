import Neutrino.Temporal

/-! Which transitions fail closed on the attestations they are given: everything they post is
authorized by an accepted policy, and without an accepted policy they change nothing. -/

namespace Neutrino

open Checked Ledger KeyedStore

/-! The gate of an effect. -/

/-- Outside per-policy plans the sole declared policy refuses every effect, and with no policy
or several no effect is gated. -/
theorem Assembled.unsuppressed_gate {raw : PlanInputs} {plan : CoordinationPlan}
    (assembled : Assembled raw plan) (unsuppressed : coordinationIsTemporal plan = false)
    {effect : PlanEffect} (declared : effect ∈ plan.effects) :
    (∃ policy, plan.attestations = [policy] ∧ effect.gateMode = .atomicRefuse ∧
      effect.gatePolicy = policy.input ∧ effect.attestationInput = policy.input) ∨
    ((∀ policy, plan.attestations ≠ [policy]) ∧ effect.gateMode = .none) := by
  have mode : effect.gateMode ≠ .temporalSuppress := by
    simp only [coordinationIsTemporal, List.any_eq_false, decide_eq_true_eq] at unsuppressed
    exact unsuppressed effect declared
  obtain ⟨rawEffect, _, same⟩ := assembled.exists_raw declared
  rw [same] at mode ⊢
  simp only [boundEffect, bindGate] at mode ⊢
  rw [assembled.attestations]
  split at mode
  · simp at mode
  · rename_i ungated
    simp only [ungated, if_false]
    split
    · rename_i policy sole
      exact .inl ⟨policy, sole, rfl, rfl, rfl⟩
    · rename_i several
      exact .inr ⟨several, rfl⟩

/-- The effect is gated by a declared policy that the input accepts. -/
structure Authorized (plan : CoordinationPlan) (input : TransitionInput) (effect : PlanEffect) :
    Prop where
  gated : effect.gateMode ≠ .none
  declared : isDeclaredPolicy plan.attestations effect.gatePolicy = true
  accepted : input.attestations[effect.gatePolicy]? = some true

theorem policyAccepted_iff {input : TransitionInput} {policy : String} :
    policyAccepted input policy = true ↔ input.attestations[policy]? = some true := by
  unfold policyAccepted
  cases input.attestations[policy]? <;> simp

section Hash

variable {sha256Hex : List UInt8 → String} {plan : CoordinationPlan} {state : EvalState}
  {input : TransitionInput}

theorem Classified.committing_fresh {record : KeyRecord} {env : Env} {infos : List GroupInfo}
    (classified : Classified plan env record infos) :
    ∀ group ∈ committingGroups infos, group ∉ record.groups := by
  intro committed listed
  obtain ⟨info, present, rfl⟩ := List.mem_map.mp listed
  obtain ⟨inInfos, committable⟩ := List.mem_filter.mp present
  obtain ⟨group, _, built⟩ := classified.info inInfos
  obtain ⟨same, _, _, fresh⟩ := classifyGroup_ok built
  rw [same]
  exact (fresh.mp committable).2

/-- A commit changes the record of its key. -/
theorem RecordStep.changes {record next : KeyRecord} {claim : String} {env : Env}
    (step : RecordStep plan env record claim next) (unposted : record.posted = false) :
    next ≠ record := by
  intro same
  have posted : next.posted = false := by rw [same, unposted]
  cases step with
  | single single => simp at posted
  | progress classified some pending =>
      obtain ⟨group, committing⟩ := List.exists_mem_of_ne_nil _ some
      apply classified.committing_fresh group committing
      rw [← same, KeyRecord.commit_groups, Std.ExtTreeSet.mem_insertMany_list]
      exact .inr (by simpa using committing)
  | terminal classified some done => simp at posted

theorem commits_changes (idempotent : plan.replay.idempotent = true)
    (commits : (evaluateTransition sha256Hex plan state input).commits = true) :
    nextState sha256Hex plan state input ≠ state := by
  rcases transition_cases sha256Hex idempotent state input with
    ⟨idle, _⟩ | ⟨settled, claim, env, record, _, _, next, _, committed⟩
  · simp [commits] at idle
  · intro same
    apply committed.step.changes (committed.opens.unposted idempotent)
    have self : settled.next.record (workflowKeyValue plan input) = record :=
      committed.store.record_self
    rw [← self, ← next, same]

/-! Failing closed. -/

/-- All a transition posts or accepts is authorized by accepted policies, and when no declared
policy is accepted the state stays as it is. -/
structure FailsClosed (sha256Hex : List UInt8 → String) (plan : CoordinationPlan)
    (state : EvalState) (input : TransitionInput) : Prop where
  deltas : (evaluateTransition sha256Hex plan state input).trace.filter
    Observation.isLedgerDelta = (postedLegs sha256Hex plan state input).map ledgerDelta
  legs : ∀ leg ∈ postedLegs sha256Hex plan state input,
    leg.effect ∈ plan.effects ∧ Authorized plan input leg.effect
  evidence : plan.effects = [] →
    (evaluateTransition sha256Hex plan state input).commits = true →
      ∀ policy ∈ plan.attestations, input.attestations[policy.input]? = some true
  unaccepted : (∀ policy ∈ plan.attestations, input.attestations[policy.input]? ≠ some true) →
    nextState sha256Hex plan state input = state

/-- Under the input's environment, if it has one, the effect's guard holds. -/
def FiresUnder (plan : CoordinationPlan) (input : TransitionInput) (effect : PlanEffect) : Prop :=
  ∀ env, (transitionEnv plan input).value = .ok env → fires env effect = true

/-- The inputs on which a plan's gates close. -/
inductive GateCloses (plan : CoordinationPlan) (input : TransitionInput) : Prop
  | evidence (effectless : plan.effects = [])
  | suppressed (temporal : coordinationIsTemporal plan = true)
  | accepted (policy : AttestationPolicy) (sole : plan.attestations = [policy])
      (accepted : input.attestations[policy.input]? = some true)
  | refused (policy : AttestationPolicy) (sole : plan.attestations = [policy])
      (named : policy.input ≠ "") (single : isTemporal plan = false) (effect : PlanEffect)
      (declared : effect ∈ plan.effects) (fires : FiresUnder plan input effect)
  | idle (policy : AttestationPolicy) (declared : policy ∈ plan.attestations)
      (accepted : input.attestations[policy.input]? = some true)
      (silent : ∀ effect ∈ plan.effects, ∀ env, (transitionEnv plan input).value = .ok env →
        fires env effect = false)

theorem FailsClosed.of_legs {raw : PlanInputs} (assembled : Assembled raw plan)
    (legs : ∀ leg ∈ postedLegs sha256Hex plan state input, Authorized plan input leg.effect)
    (evidence : plan.effects = [] →
      (evaluateTransition sha256Hex plan state input).commits = true →
        ∀ policy ∈ plan.attestations, input.attestations[policy.input]? = some true)
    (unaccepted : (∀ policy ∈ plan.attestations, input.attestations[policy.input]? ≠ some true) →
      nextState sha256Hex plan state input = state) :
    FailsClosed sha256Hex plan state input where
  deltas := trace_deltas sha256Hex plan state input
  legs := by
    intro leg listed
    refine ⟨?_, legs leg listed⟩
    unfold postedLegs at listed
    split at listed
    · simp at listed
    · rename_i settled decided
      exact ((settle_ok decided).posts assembled listed).1
  evidence := evidence
  unaccepted := unaccepted

/-- The sole policy, accepted, authorizes every effect it gates. -/
theorem Authorized.of_sole {raw : PlanInputs} (assembled : Assembled raw plan)
    (unsuppressed : coordinationIsTemporal plan = false) {policy : AttestationPolicy}
    (sole : plan.attestations = [policy])
    (accepted : input.attestations[policy.input]? = some true) {effect : PlanEffect}
    (declared : effect ∈ plan.effects) : Authorized plan input effect := by
  rcases assembled.unsuppressed_gate unsuppressed declared with
    ⟨gate, only, mode, bound, _⟩ | ⟨several, _⟩
  · obtain rfl : policy = gate := by simpa [sole] using only
    exact {
      gated := by simp [mode]
      declared := by simp [isDeclaredPolicy, sole, bound]
      accepted := by rw [bound, accepted] }
  · exact absurd sole (several policy)

theorem Authorized.contradicts {effect : PlanEffect}
    (authorized : Authorized plan input effect)
    (unaccepted : ∀ policy ∈ plan.attestations, input.attestations[policy.input]? ≠ some true) :
    False := by
  have declared := authorized.declared
  simp only [isDeclaredPolicy, List.any_eq_true, decide_eq_true_eq] at declared
  obtain ⟨policy, listed, same⟩ := declared
  exact unaccepted policy listed (by rw [same, authorized.accepted])

/-- A group that commits posts a leg, under a guard that holds. -/
theorem Classified.exists_leg {raw : PlanInputs} (assembled : Assembled raw plan)
    {record : KeyRecord} {env : Env} {infos : List GroupInfo}
    (classified : Classified plan env record infos) (some : committingGroups infos ≠ []) :
    ∃ effect ∈ (infos.filter (·.committable)).flatMap fun info => groupEffects plan info.group,
      fires env effect = true := by
  obtain ⟨committed, listed⟩ := List.exists_mem_of_ne_nil _ some
  obtain ⟨info, present, same⟩ := List.mem_map.mp listed
  obtain ⟨inInfos, committable⟩ := List.mem_filter.mp present
  obtain ⟨group, declared, built⟩ := classified.info inInfos
  obtain ⟨shared, _, holds, fresh⟩ := classifyGroup_ok built
  obtain ⟨first, _, firstDeclared, key, guard⟩ := assembled.groupGuard_first declared
  rw [guard] at holds
  refine ⟨first, (classified.mem_legs assembled).mpr ⟨firstDeclared, ?_⟩, ?_⟩
  · rw [key, ← shared, same]
    exact listed
  · rw [groupHolds_fires holds]
    exact (fresh.mp committable).1

/-- On the inputs whose gates close a commit posts authorized legs only, and some declared policy
is accepted. -/
theorem Commit.authorized {raw : PlanInputs} (assembled : Assembled raw plan)
    (builder : FromBuilder raw) (policies : plan.attestations ≠ []) {legs : List Pending}
    {obligations : List Observation}
    (commit : Commit sha256Hex plan state input legs obligations)
    (closes : GateCloses plan input) :
    (∀ leg ∈ legs, Authorized plan input leg.effect) ∧
      ∃ policy ∈ plan.attestations, input.attestations[policy.input]? = some true := by
  cases commit with
  | evidence opens effectless declared accepted silent unobserved =>
      subst silent
      obtain ⟨policy, listed⟩ := List.exists_mem_of_ne_nil _ declared
      exact ⟨by simp, policy, listed, policyAccepted_iff.mp (accepted policy listed)⟩
  | @groups claim env infos opens classified committing effects resolved unobserved =>
      have leg_declared : ∀ leg ∈ legs, leg.effect ∈ plan.effects := by
        intro leg listed
        have staged : leg.effect ∈ legs.map (·.effect) := List.mem_map_of_mem listed
        rw [effects] at staged
        exact (classified.leg assembled staged).1
      obtain ⟨first, firstStaged, firing⟩ := classified.exists_leg assembled committing
      have firstDeclared := (classified.leg assembled firstStaged).1
      by_cases suppressed : coordinationIsTemporal plan = true
      · have temporal : TemporalPlan raw plan := ⟨assembled, builder, suppressed⟩
        have authorized : ∀ effect ∈ (infos.filter (·.committable)).flatMap
            (fun info => groupEffects plan info.group), Authorized plan input effect := by
          intro effect staged
          have declared := (classified.leg assembled staged).1
          exact {
            gated := by simp [temporal.mode declared]
            declared := temporal.policy_declared declared
            accepted := policyAccepted_iff.mp
              (temporal.committing_accepted opens.evaluated classified staged) }
        constructor
        · intro leg listed
          apply authorized
          rw [← effects]
          exact List.mem_map_of_mem listed
        · by_contra unaccepted
          exact (authorized first firstStaged).contradicts (by simpa using unaccepted)
      · simp only [Bool.not_eq_true] at suppressed
        cases closes with
        | evidence effectless => exact absurd effectless classified.effectful
        | suppressed temporal => simp [suppressed] at temporal
        | accepted policy sole accepted =>
            exact ⟨fun leg listed => .of_sole assembled suppressed sole accepted
              (leg_declared leg listed), policy, by simp [sole], accepted⟩
        | refused policy sole named single => simp [classified.temporal] at single
        | idle policy declared accepted silent =>
            simp [silent first firstDeclared env opens.evaluated] at firing
  | @legs claim env opens effectful single effects resolved gated observed =>
      have unsuppressed : coordinationIsTemporal plan = false := by
        rw [← Bool.not_eq_true]
        intro suppressed
        simp [assembled.isTemporal_of_gate builder suppressed] at single
      have leg_declared : ∀ leg ∈ legs, leg.effect ∈ plan.effects := by
        intro leg listed
        have staged : leg.effect ∈ legs.map (·.effect) := List.mem_map_of_mem listed
        rw [effects] at staged
        exact (List.mem_filter.mp staged).1
      cases closes with
      | evidence effectless => exact absurd effectless (effectful.resolve_right policies)
      | suppressed temporal => simp [unsuppressed] at temporal
      | accepted policy sole accepted =>
          exact ⟨fun leg listed => .of_sole assembled unsuppressed sole accepted
            (leg_declared leg listed), policy, by simp [sole], accepted⟩
      | refused policy sole named _ effect declared firing =>
          have posted : effect ∈ legs.map (·.effect) := by
            rw [effects, List.mem_filter]
            exact ⟨declared, firing env opens.evaluated⟩
          obtain ⟨leg, listed, rfl⟩ := List.mem_map.mp posted
          have accepted : input.attestations[policy.input]? = some true := by
            rcases assembled.unsuppressed_gate unsuppressed declared with
              ⟨gate, only, _, _, bound⟩ | ⟨several, _⟩
            · obtain rfl : policy = gate := by simpa [sole] using only
              have gate := gated leg listed
              rw [bound] at gate
              exact policyAccepted_iff.mp (gate.resolve_left named)
            · exact absurd sole (several policy)
          exact ⟨fun leg listed => .of_sole assembled unsuppressed sole accepted
            (leg_declared leg listed), policy, by simp [sole], accepted⟩
      | idle policy declared accepted silent =>
          refine ⟨?_, policy, declared, accepted⟩
          intro leg listed
          have staged : leg.effect ∈ legs.map (·.effect) := List.mem_map_of_mem listed
          rw [effects] at staged
          have firing := (List.mem_filter.mp staged).2
          simp [silent leg.effect (leg_declared leg listed) env opens.evaluated] at firing

/-- A commit that fails closed was made on an input whose gates close. -/
theorem Commit.closes {raw : PlanInputs} (assembled : Assembled raw plan) {legs : List Pending}
    {obligations : List Observation}
    (commit : Commit sha256Hex plan state input legs obligations)
    (authorized : ∀ leg ∈ legs, Authorized plan input leg.effect)
    {policy : AttestationPolicy} (declared : policy ∈ plan.attestations)
    (accepted : input.attestations[policy.input]? = some true) : GateCloses plan input := by
  by_cases suppressed : coordinationIsTemporal plan = true
  · exact .suppressed suppressed
  · simp only [Bool.not_eq_true] at suppressed
    -- A leg that posts is gated, so there is a sole policy, which is the accepted one.
    have sole : ∀ effect ∈ plan.effects, effect ∈ legs.map (·.effect) → GateCloses plan input := by
      intro effect inPlan posted
      obtain ⟨leg, listed, rfl⟩ := List.mem_map.mp posted
      rcases assembled.unsuppressed_gate suppressed inPlan with
        ⟨gate, only, _⟩ | ⟨_, ungated⟩
      · obtain rfl : policy = gate := by simpa [only] using declared
        exact .accepted policy only accepted
      · exact absurd ungated (authorized leg listed).gated
    cases commit with
    | evidence opens effectless => exact .evidence effectless
    | @groups claim env infos opens classified committing effects resolved unobserved =>
        obtain ⟨first, firstStaged, _⟩ := classified.exists_leg assembled committing
        exact sole first (classified.leg assembled firstStaged).1 (effects ▸ firstStaged)
    | @legs claim env opens effectful single effects resolved gated observed =>
        by_cases some : ∃ effect ∈ plan.effects, fires env effect = true
        · obtain ⟨effect, inPlan, firing⟩ := some
          refine sole effect inPlan ?_
          rw [effects, List.mem_filter]
          exact ⟨inPlan, firing⟩
        · refine .idle policy declared accepted ?_
          intro effect inPlan other evaluated
          obtain rfl : env = other := Except.ok.inj (opens.evaluated.symm.trans evaluated)
          rw [← Bool.not_eq_true]
          exact fun firing => some ⟨effect, inPlan, firing⟩

/-- A transition fails closed on every input whose gates close, and a transition that commits
fails closed on no other. -/
theorem attestation_fails_closed (sha256Hex : List UInt8 → String) {raw : PlanInputs}
    {plan : CoordinationPlan} (accepted : assemblePlan raw = .ok plan)
    (builder : FromBuilder raw) (policies : plan.attestations ≠ []) (state : EvalState)
    (input : TransitionInput) :
    (GateCloses plan input → FailsClosed sha256Hex plan state input) ∧
    ((evaluateTransition sha256Hex plan state input).commits = true →
      FailsClosed sha256Hex plan state input → GateCloses plan input) := by
  have assembled := assemblePlan_ok accepted
  constructor
  · intro closes
    cases commits : (evaluateTransition sha256Hex plan state input).commits with
    | false =>
        rcases transition_cases sha256Hex assembled.idempotent state input with
          ⟨_, same, none⟩ | ⟨_, _, _, _, _, committed, _⟩
        · exact .of_legs assembled (by simp [none]) (by simp [commits]) fun _ => same
        · simp [commits] at committed
    | true =>
        have commit := commit_cases commits
        obtain ⟨legs, policy, declared, present⟩ :=
          commit.authorized assembled builder policies closes
        refine .of_legs assembled legs ?_ fun unaccepted => absurd present (unaccepted _ declared)
        intro effectless _
        cases commit with
        | evidence _ _ _ all =>
            exact fun policy listed => policyAccepted_iff.mp (all policy listed)
        | groups _ classified => exact absurd effectless classified.effectful
        | legs _ effectful => exact absurd effectless (effectful.resolve_right policies)
  · intro commits failsClosed
    have some : ∃ policy ∈ plan.attestations, input.attestations[policy.input]? = some true := by
      by_contra none
      exact commits_changes assembled.idempotent commits
        (failsClosed.unaccepted (by simpa using none))
    obtain ⟨policy, declared, present⟩ := some
    exact (commit_cases commits).closes assembled (fun leg listed => (failsClosed.legs leg listed).2)
      declared present

end Hash

theorem attestation_fails_closed_sample :
    FailsClosed sampleHash samplePlan samplePaid (sampleInput "t-1" true true) :=
  (attestation_fails_closed sampleHash samplePlan_accepted sampleInputs_fromBuilder (by decide)
    samplePaid (sampleInput "t-1" true true)).1 (.suppressed (by decide))

/-! Two declared policies that no `accepted` guard binds: the legs post although neither policy
is accepted. -/

def ungatedInputs : PlanInputs :=
  { sampleInputs with
    effects := sampleInputs.effects.map fun effect =>
      { effect with guardAcceptedInput := "", guard := none } }

def ungatedPlan : CoordinationPlan := ((assemblePlan ungatedInputs).toOption).getD default

theorem ungated_not_closed :
    assemblePlan ungatedInputs = .ok ungatedPlan ∧ ungatedPlan.attestations ≠ [] ∧
    (evaluateTransition sampleHash ungatedPlan EvalState.empty
      (sampleInput "t-1" false false)).outcome = .terminal ∧
    nextState sampleHash ungatedPlan EvalState.empty (sampleInput "t-1" false false) ≠
      EvalState.empty ∧
    ¬FailsClosed sampleHash ungatedPlan EvalState.empty (sampleInput "t-1" false false) := by
  have accepted : assemblePlan ungatedInputs = .ok ungatedPlan := rfl
  have terminal : (evaluateTransition sampleHash ungatedPlan EvalState.empty
      (sampleInput "t-1" false false)).outcome = .terminal := rfl
  have changed := commits_changes (assemblePlan_ok accepted).idempotent
    (show (evaluateTransition sampleHash ungatedPlan EvalState.empty
      (sampleInput "t-1" false false)).commits = true by rw [TransitionResult.commits, terminal]; rfl)
  refine ⟨accepted, by decide, terminal, changed, ?_⟩
  intro failsClosed
  apply changed
  apply failsClosed.unaccepted
  decide +kernel

end Neutrino
