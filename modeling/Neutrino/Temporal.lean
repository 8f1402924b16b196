import Neutrino.GroupShape

/-! Temporal plans: what the acceptance flags of a transition hold, and that a group commits
exactly when its own policy is accepted. -/

namespace Neutrino

open Checked Ledger KeyedStore

/-! Acceptance flags. -/

/-- The environment with a flag for every policy. -/
def flagPolicies (flag : String → Int64) (policies : List AttestationPolicy) (env : Env) : Env :=
  policies.foldl (fun env policy => env.insert ("accepted:" ++ policy.input)
    (flag policy.input)) env

theorem seedAcceptance_eq (plan : CoordinationPlan) (input : TransitionInput) (env : Env) :
    seedAcceptance plan input env =
      flagPolicies (fun policy => if policyAccepted input policy then 1 else 0)
        plan.attestations env := rfl

theorem flagPolicies_other (flag : String → Int64) {policies : List AttestationPolicy}
    {name : String} (other : ∀ policy ∈ policies, name ≠ "accepted:" ++ policy.input)
    (env : Env) : (flagPolicies flag policies env)[name]? = env[name]? := by
  induction policies generalizing env with
  | nil => rfl
  | cons policy rest ih =>
      simp only [List.forall_mem_cons] at other
      have here : (env.insert ("accepted:" ++ policy.input) (flag policy.input))[name]? =
          env[name]? := by
        rw [Std.ExtTreeMap.getElem?_insert, if_neg]
        simpa using Ne.symm other.1
      exact (ih other.2 _).trans here

theorem flagPolicies_declared (flag : String → Int64) {policies : List AttestationPolicy}
    {name : String} (declared : isDeclaredPolicy policies name = true) (env : Env) :
    (flagPolicies flag policies env)["accepted:" ++ name]? = some (flag name) := by
  induction policies generalizing env with
  | nil => simp [isDeclaredPolicy] at declared
  | cons policy rest ih =>
      simp only [flagPolicies, List.foldl_cons]
      by_cases later : isDeclaredPolicy rest name = true
      · exact ih later _
      · simp only [isDeclaredPolicy, List.any_cons, Bool.or_eq_true, decide_eq_true_eq]
          at declared later
        obtain rfl := declared.resolve_right later
        have other : ∀ policy' ∈ rest, "accepted:" ++ policy.input ≠
            "accepted:" ++ policy'.input := by
          intro policy' listed same
          apply later
          rw [List.any_eq_true]
          exact ⟨policy', listed, by simpa using ((String.append_right_inj _).mp same).symm⟩
        exact (flagPolicies_other flag other _).trans Std.ExtTreeMap.getElem?_insert_self

/-- Under the flags of a transition an `accepted` guard of a declared policy holds exactly when
the policy is accepted. -/
theorem evalGuard_accepted {plan : CoordinationPlan} {input : TransitionInput} {name : String}
    (declared : isDeclaredPolicy plan.attestations name = true) (env : Env)
    (category dtype : ValueCategory) :
    evalGuard (.call "accepted" [.var name category] dtype) (seedAcceptance plan input env) =
      .ok (policyAccepted input name) := by
  rw [seedAcceptance_eq]
  simp only [evalGuard, if_true, flagPolicies_declared _ declared, Option.any_some]
  cases policyAccepted input name <;> simp

/-- Effects under one `accepted` key are gated by one policy. -/
theorem AcceptedEffect.policy_unique {first second : PlanEffect}
    (accepted : AcceptedEffect first) (accepted' : AcceptedEffect second)
    (same : canonicalGuardKey first.guard = canonicalGuardKey second.guard) :
    first.gatePolicy = second.gatePolicy := by
  obtain ⟨input, dtype, category, guard, policy, _⟩ := accepted
  obtain ⟨input', dtype', category', guard', policy', _⟩ := accepted'
  rw [guard, guard'] at same
  simpa [canonicalGuardKey, structuralKey, argumentKeys, String.append_left_inj,
    String.append_right_inj, policy, policy'] using same

theorem transitionEnv_ok {plan : CoordinationPlan} {input : TransitionInput} {env : Env}
    (evaluated : (transitionEnv plan input).value = .ok env) :
    ∃ base, (foldComputes plan.computes input.numeric).value = .ok base ∧
      env = seedAcceptance plan input base := by
  simp only [transitionEnv, Traced.bind_ok, Traced.pure_value, Except.ok.injEq] at evaluated
  obtain ⟨base, folded, rfl⟩ := evaluated
  exact ⟨base, folded, rfl⟩

/-- A plan whose effects are suppressed per policy, from a builder. -/
structure TemporalPlan (raw : PlanInputs) (plan : CoordinationPlan) : Prop where
  assembled : Assembled raw plan
  builder : FromBuilder raw
  suppressed : coordinationIsTemporal plan = true

namespace TemporalPlan

variable {raw : PlanInputs} {plan : CoordinationPlan} (temporal : TemporalPlan raw plan)

include temporal

theorem accepted : ∀ effect ∈ plan.effects, AcceptedEffect effect :=
  temporal.assembled.accepted_effects temporal.builder temporal.suppressed

theorem isTemporal : isTemporal plan = true :=
  temporal.assembled.isTemporal_of_gate temporal.builder temporal.suppressed

theorem mode {effect : PlanEffect} (declared : effect ∈ plan.effects) :
    effect.gateMode = .temporalSuppress := by
  have suppressed := temporal.suppressed
  simp only [coordinationIsTemporal, List.any_eq_true, decide_eq_true_eq] at suppressed
  obtain ⟨first, firstDeclared, firstTemporal⟩ := suppressed
  exact temporal.assembled.temporal_all firstDeclared firstTemporal effect declared

theorem policy_declared {effect : PlanEffect} (declared : effect ∈ plan.effects) :
    isDeclaredPolicy plan.attestations effect.gatePolicy = true :=
  (temporal.assembled.temporal_gate declared (temporal.mode declared)).2.2

/-- Every effect of a group holds exactly when its own policy is accepted. -/
theorem groupHolds {input : TransitionInput} {env : Env}
    (evaluated : (transitionEnv plan input).value = .ok env) {group : PlanEffectGroup}
    (declared : group ∈ plan.effectGroups) {effect : PlanEffect}
    (member : effect ∈ keyed plan.effects group.guardKey) :
    Neutrino.groupHolds env (groupGuard plan group) =
      .ok (policyAccepted input effect.gatePolicy) := by
  obtain ⟨first, _, firstDeclared, firstKey, guard⟩ :=
    temporal.assembled.groupGuard_first declared
  obtain ⟨effectDeclared, effectKey⟩ := mem_keyed.mp member
  have keys : canonicalGuardKey first.guard = canonicalGuardKey effect.guard := by
    rw [← temporal.assembled.guardKey_eq firstDeclared,
      ← temporal.assembled.guardKey_eq effectDeclared, firstKey, effectKey]
  have same := (temporal.accepted first firstDeclared).policy_unique
    (temporal.accepted effect effectDeclared) keys
  obtain ⟨base, _, rfl⟩ := transitionEnv_ok evaluated
  obtain ⟨name, dtype, category, firstGuard, policy, _⟩ :=
    temporal.accepted first firstDeclared
  have known := temporal.policy_declared firstDeclared
  rw [policy] at known
  rw [guard, firstGuard, Neutrino.groupHolds, evalGuard_accepted known, ← same, policy]
  rfl

/-- The legs of a committing group are those whose own policy is accepted. -/
theorem committing_accepted {input : TransitionInput} {env : Env}
    (evaluated : (transitionEnv plan input).value = .ok env) {record : KeyRecord}
    {infos : List GroupInfo} (classified : Classified plan env record infos)
    {effect : PlanEffect} (listed : effect ∈ (infos.filter (·.committable)).flatMap
      fun info => groupEffects plan info.group) :
    policyAccepted input effect.gatePolicy = true := by
  obtain ⟨info, present, inGroup⟩ := List.mem_flatMap.mp listed
  obtain ⟨inInfos, committable⟩ := List.mem_filter.mp present
  obtain ⟨group, declared, built⟩ := classified.info inInfos
  obtain ⟨same, _, holds, fresh⟩ := classifyGroup_ok built
  rw [same, temporal.assembled.groupEffects_eq declared] at inGroup
  rw [temporal.groupHolds evaluated declared inGroup, Except.ok.injEq] at holds
  rw [holds]
  exact (fresh.mp committable).1

end TemporalPlan

/-! Commits. -/

theorem Classified.unique {plan : CoordinationPlan} {env : Env} {record : KeyRecord}
    {infos other : List GroupInfo} (classified : Classified plan env record infos)
    (again : Classified plan env record other) : infos = other :=
  Except.ok.inj (classified.classified.symm.trans again.classified)

/-- A commit of a temporal plan pins the claim and adds the committing groups. -/
theorem RecordStep.of_temporal {plan : CoordinationPlan} {env : Env} {record next : KeyRecord}
    {claim : String} {infos : List GroupInfo} (step : RecordStep plan env record claim next)
    (classified : Classified plan env record infos) :
    next.claim = some claim ∧
      next.groups = record.groups.insertMany (committingGroups infos) := by
  cases step with
  | single single => simp [classified.temporal] at single
  | progress again => rw [classified.unique again]; exact ⟨rfl, rfl⟩
  | terminal again => rw [classified.unique again]; exact ⟨rfl, rfl⟩

/-- A temporal transition that commits: its groups and legs, and the record of its key. -/
structure GroupCommit (sha256Hex : List UInt8 → String) (plan : CoordinationPlan)
    (state : EvalState) (input : TransitionInput) (next : EvalState) (claim : String) (env : Env)
    (infos : List GroupInfo) (pending : List Pending) (record : KeyRecord) : Prop where
  opens : Opens sha256Hex plan state input (workflowKeyValue plan input) claim env
  classified : Classified plan env (state.record (workflowKeyValue plan input)) infos
  effects : pending.map (·.effect) =
    (infos.filter (·.committable)).flatMap fun info => groupEffects plan info.group
  resolved : ∀ leg ∈ pending, Resolved env input.symbols leg
  store : Commits state.store
    ⟨workflowKeyValue plan input, record, pending.map (·.posting)⟩ next.store
  claim : record.claim = some claim
  groups : record.groups =
    (state.record (workflowKeyValue plan input)).groups.insertMany (committingGroups infos)

/-- A transition of a temporal plan leaves the state alone or commits groups. -/
theorem TemporalPlan.nextState_cases (sha256Hex : List UInt8 → String) {raw : PlanInputs}
    {plan : CoordinationPlan} (temporal : TemporalPlan raw plan) (state : EvalState)
    (input : TransitionInput) :
    nextState sha256Hex plan state input = state ∨
      ∃ claim env infos pending record, GroupCommit sha256Hex plan state input
        (nextState sha256Hex plan state input) claim env infos pending record := by
  rcases Neutrino.nextState_cases sha256Hex plan state input with
    same | ⟨settled, _, settles, next⟩
  · exact .inl same
  · rw [next]
    cases settles with
    | replay => exact .inl rfl
    | evidence opens effectless =>
        have isTemporal := temporal.isTemporal
        simp [Neutrino.isTemporal, effectless] at isTemporal
    | @groups key claim env infos pending staged opens effectful _ consistent classified legs =>
        obtain rfl := opens.key_eq
        obtain ⟨effects, resolved, posted⟩ := stageGroups_ok legs
        have shape : Classified plan env (state.record (workflowKeyValue plan input)) infos :=
          ⟨effectful, temporal.isTemporal, classified⟩
        rcases disposeGroups_cases opens temporal.assembled.idempotent shape posted with
          idle | ⟨record, commits⟩
        · exact .inl idle.next
        · obtain ⟨pinned, grown⟩ := commits.step.of_temporal shape
          have some : committingGroups infos ≠ [] := by
            intro none
            have outcome := commits.outcome
            simp only [disposeGroups, none, if_true] at outcome
            split at outcome <;> simp at outcome
          have store := commits.store
          rw [disposeGroups_pending some] at store
          exact .inr ⟨claim, env, infos, pending, record, opens, shape, effects, resolved, store,
            pinned, grown⟩
    | legs opens effectful single => simp [temporal.isTemporal] at single

end Neutrino
