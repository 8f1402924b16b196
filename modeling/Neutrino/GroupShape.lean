import Neutrino.OracleInvariant
import Neutrino.TraceShape

/-! The groups of an assembled plan as the evaluator reads them, and the legs a transition
posts. -/

namespace Neutrino

open Checked Ledger KeyedStore

section Plan

variable {raw : PlanInputs} {plan : CoordinationPlan} (assembled : Assembled raw plan)

include assembled

/-- A group's effects are the plan's effects under its key. -/
theorem Assembled.groupEffects_eq {group : PlanEffectGroup}
    (declared : group ∈ plan.effectGroups) :
    groupEffects plan group = keyed plan.effects group.guardKey := by
  have shape := assembled.partition.shapes group declared
  rw [groupEffects, shape.indices, List.filterMap_map]
  have found : ∀ effect ∈ keyed plan.effects group.guardKey,
      ((fun index => plan.effects[index]?) ∘ fun effect : PlanEffect => effect.index) effect =
        some effect := fun effect listed =>
    assembled.getElem?_index (mem_keyed.mp listed).1
  rw [List.filterMap_congr found, List.filterMap_some]

/-- A group's guard is that of its first effect. -/
theorem Assembled.groupGuard_first {group : PlanEffectGroup}
    (declared : group ∈ plan.effectGroups) : ∃ first,
      (keyed plan.effects group.guardKey).head? = some first ∧ first ∈ plan.effects ∧
        first.guardKey = group.guardKey ∧ groupGuard plan group = first.guard := by
  obtain ⟨first, head, position, _, _⟩ := (assembled.partition.shapes group declared).first
  have listed := mem_keyed.mp (List.mem_of_head? head)
  refine ⟨first, head, listed.1, listed.2, ?_⟩
  rw [groupGuard, position, assembled.getElem?_index listed.1]
  rfl

theorem Assembled.group_unique {first second : PlanEffectGroup}
    (firstDeclared : first ∈ plan.effectGroups) (secondDeclared : second ∈ plan.effectGroups)
    (same : first.guardKey = second.guardKey) : first = second :=
  List.inj_on_of_nodup_map assembled.partition.keys firstDeclared secondDeclared same

end Plan

section Hash

variable {sha256Hex : List UInt8 → String} {plan : CoordinationPlan} {state : EvalState}
  {input : TransitionInput}

theorem admission_ok {key claim : String}
    (admitted : (admission sha256Hex plan input).value = .ok (key, claim)) :
    input.authorized = true ∧ key = workflowKeyValue plan input ∧ key ≠ "" ∧
      ∃ typed, collect (typeInput input) plan.inputs = .ok typed ∧
        claim = executionClaimHash sha256Hex (coordinationIdentityHash sha256Hex plan) key
          typed := by
  simp only [admission, Traced.bind_ok, Traced.ensure_ok, Traced.ofExcept_value,
    Traced.pure_value, Except.ok.injEq, Prod.mk.injEq] at admitted
  obtain ⟨_, _, _, authorized, _, named, typed, collected, rfl, rfl⟩ := admitted
  exact ⟨authorized, rfl, named, typed, collected, rfl⟩

theorem Opens.key_eq {key claim : String} {env : Env}
    (opens : Opens sha256Hex plan state input key claim env) :
    key = workflowKeyValue plan input :=
  (admission_ok opens.admitted).2.1

/-- The legs of a temporal commit, with the group each belongs to. -/
theorem Classified.leg {record : KeyRecord} {env : Env} {infos : List GroupInfo}
    {raw : PlanInputs} (assembled : Assembled raw plan)
    (classified : Classified plan env record infos) {effect : PlanEffect}
    (listed : effect ∈ (infos.filter (·.committable)).flatMap
      fun info => groupEffects plan info.group) :
    effect ∈ plan.effects ∧ effect.guardKey ∈ committingGroups infos ∧
      effect.guardKey ∉ record.groups := by
  obtain ⟨info, present, inGroup⟩ := List.mem_flatMap.mp listed
  obtain ⟨inInfos, committable⟩ := List.mem_filter.mp present
  obtain ⟨group, declared, built⟩ := classified.info inInfos
  obtain ⟨same, _, _, fresh⟩ := classifyGroup_ok built
  rw [same, assembled.groupEffects_eq declared] at inGroup
  obtain ⟨inPlan, key⟩ := mem_keyed.mp inGroup
  refine ⟨inPlan, ?_, key ▸ (fresh.mp committable).2⟩
  rw [key, ← same]
  exact List.mem_map_of_mem present

def TransitionResult.commits (result : TransitionResult) : Bool :=
  result.outcome = .progress || result.outcome = .terminal

/-- A transition changes and posts nothing, or commits to the record of its key. -/
theorem transition_cases (sha256Hex : List UInt8 → String)
    (idempotent : plan.replay.idempotent = true) (state : EvalState)
    (input : TransitionInput) :
    ((evaluateTransition sha256Hex plan state input).commits = false ∧
      nextState sha256Hex plan state input = state ∧
      postedLegs sha256Hex plan state input = []) ∨
    ∃ settled claim env record,
      (settle sha256Hex plan state input).value = .ok settled ∧
      (evaluateTransition sha256Hex plan state input).commits = true ∧
      nextState sha256Hex plan state input = settled.next ∧
      postedLegs sha256Hex plan state input = settled.pending ∧
      CommitsTo sha256Hex plan state input (workflowKeyValue plan input) claim env record
        settled := by
  unfold nextState postedLegs
  cases decided : (settle sha256Hex plan state input).value with
  | error refusal =>
      left
      rw [evaluateTransition_refused decided]
      exact ⟨rfl, rfl, rfl⟩
  | ok settled =>
      rw [evaluateTransition_settled decided]
      rcases settles_cases idempotent (settle_ok decided) with
        idle | ⟨key, claim, env, record, commits⟩
      · left
        refine ⟨?_, idle.next, idle.pending⟩
        rcases idle.outcome with replayed | waiting
        · simp [TransitionResult.commits, replayed]
        · simp [TransitionResult.commits, waiting]
      · right
        obtain rfl := commits.opens.key_eq
        refine ⟨settled, claim, env, record, rfl, ?_, rfl, rfl, commits⟩
        simp only [TransitionResult.commits, commits.outcome]
        split <;> rfl

/-- One case for every way a transition commits, with the legs it posts and the obligations it
observes. -/
inductive Commit (sha256Hex : List UInt8 → String) (plan : CoordinationPlan)
    (state : EvalState) (input : TransitionInput) (legs : List Pending)
    (obligations : List Observation) : Prop
  | evidence {claim : String} {env : Env}
      (opens : Opens sha256Hex plan state input (workflowKeyValue plan input) claim env)
      (effectless : plan.effects = []) (declared : plan.attestations ≠ [])
      (accepted : ∀ policy ∈ plan.attestations, policyAccepted input policy.input = true)
      (silent : legs = []) (unobserved : obligations = [])
  | groups {claim : String} {env : Env} {infos : List GroupInfo}
      (opens : Opens sha256Hex plan state input (workflowKeyValue plan input) claim env)
      (classified : Classified plan env (state.record (workflowKeyValue plan input)) infos)
      (committing : committingGroups infos ≠ [])
      (effects : legs.map (·.effect) =
        (infos.filter (·.committable)).flatMap fun info => groupEffects plan info.group)
      (resolved : ∀ leg ∈ legs, Resolved env input.symbols leg)
      (unobserved : obligations = [])
  | legs {claim : String} {env : Env}
      (opens : Opens sha256Hex plan state input (workflowKeyValue plan input) claim env)
      (effectful : plan.effects ≠ [] ∨ plan.attestations = [])
      (single : isTemporal plan = false)
      (effects : legs.map (·.effect) = plan.effects.filter (fires env))
      (resolved : ∀ leg ∈ legs, Resolved env input.symbols leg)
      (gated : ∀ leg ∈ legs, leg.effect.attestationInput = "" ∨
        policyAccepted input leg.effect.attestationInput = true)
      (observed : obligations = observeObligations plan env (legs.map (·.effect.name)))

theorem filter_obligation_publishPending (pending : List Pending) :
    (publishPending pending).filter Observation.isObligation = [] := by
  rw [List.filter_eq_nil_iff]
  intro observation listed
  simp only [publishPending, List.mem_append, List.mem_map] at listed
  rcases listed with ⟨leg, _, rfl⟩ | ⟨leg, _, rfl⟩ <;> simp [ledgerDelta, Observation.isObligation]

theorem filter_obligation_observeObligations (plan : CoordinationPlan) (env : Env)
    (committed : List String) :
    (observeObligations plan env committed).filter Observation.isObligation =
      observeObligations plan env committed := by
  rw [List.filter_eq_self]
  intro observation listed
  obtain ⟨obligation, _, rfl⟩ := List.mem_map.mp listed
  rfl

theorem disposeGroups_pending {key claim : String}
    {infos : List GroupInfo} {pending : List Pending} {staged : Balances Account}
    (some : committingGroups infos ≠ []) :
    (disposeGroups plan state key claim infos pending staged).pending = pending := by
  simp only [disposeGroups, some, if_false]
  split <;> rfl

theorem commit_cases
    (commits : (evaluateTransition sha256Hex plan state input).commits = true) :
    Commit sha256Hex plan state input (postedLegs sha256Hex plan state input)
      ((evaluateTransition sha256Hex plan state input).trace.filter
        Observation.isObligation) := by
  unfold postedLegs
  cases decided : (settle sha256Hex plan state input).value with
  | error refusal =>
      rw [evaluateTransition_refused decided] at commits
      simp [TransitionResult.commits] at commits
  | ok settled =>
      rw [filter_trace_settled isObligation_apart decided]
      rw [evaluateTransition_settled decided] at commits
      simp only [TransitionResult.commits] at commits
      change Commit sha256Hex plan state input settled.pending _
      cases settle_ok decided with
      | replay => simp at commits
      | evidence opens effectless declared accepted =>
          obtain rfl := opens.key_eq
          exact .evidence opens effectless declared accepted rfl rfl
      | @groups key claim env infos pending staged opens effectful temporal consistent classified
          legs =>
          obtain rfl := opens.key_eq
          obtain ⟨effects, resolved, _⟩ := stageGroups_ok legs
          have some : committingGroups infos ≠ [] := by
            intro none
            simp [disposeGroups, none] at commits
          rw [disposeGroups_pending some]
          refine .groups opens ⟨effectful, temporal, classified⟩ some effects resolved ?_
          simp only [disposeGroups, some, if_false]
          split
          · simp [List.filter_append, filter_obligation_publishPending, reconciled,
              Observation.isObligation]
          · exact filter_obligation_publishPending pending
      | legs opens effectful single legs =>
          obtain rfl := opens.key_eq
          obtain ⟨effects, resolved, gated, _⟩ := stageLegs_ok legs
          refine .legs opens effectful single effects resolved gated ?_
          simp [List.filter_append, filter_obligation_publishPending,
            filter_obligation_observeObligations, reconciled, Observation.isObligation]

/-- A transition is terminal exactly when it posts its key. -/
theorem terminal_iff_posts (idempotent : plan.replay.idempotent = true) :
    (evaluateTransition sha256Hex plan state input).outcome = .terminal ↔
      (state.record (workflowKeyValue plan input)).posted = false ∧
        ((nextState sha256Hex plan state input).record
          (workflowKeyValue plan input)).posted = true := by
  unfold nextState
  cases decided : (settle sha256Hex plan state input).value with
  | error refusal => simp [evaluateTransition_refused decided]
  | ok settled =>
      rw [evaluateTransition_settled decided]
      rcases settles_cases idempotent (settle_ok decided) with
        idle | ⟨key, claim, env, record, commits⟩
      · rw [idle.next]
        rcases idle.outcome with replayed | waiting
        · simp [replayed]
        · simp [waiting]
      · obtain rfl := commits.opens.key_eq
        have self : settled.next.record (workflowKeyValue plan input) = record :=
          commits.store.record_self
        simp only [commits.outcome, commits.opens.unposted idempotent, self, true_and]
        cases record.posted <;> simp

section Legs

variable {raw : PlanInputs} {record : KeyRecord} {env : Env} {infos : List GroupInfo}
  (assembled : Assembled raw plan) (classified : Classified plan env record infos)

include classified in
theorem Classified.groups_eq : infos.map (·.group) = plan.effectGroups :=
  collect_project (fun _ _ built => (classifyGroup_ok built).1) classified.classified

include assembled classified

theorem Classified.mem_legs {effect : PlanEffect} :
    effect ∈ (infos.filter (·.committable)).flatMap (fun info => groupEffects plan info.group) ↔
      effect ∈ plan.effects ∧ effect.guardKey ∈ committingGroups infos := by
  constructor
  · intro listed
    obtain ⟨inPlan, committing, _⟩ := classified.leg assembled listed
    exact ⟨inPlan, committing⟩
  · rintro ⟨inPlan, committing⟩
    obtain ⟨info, present, same⟩ := List.mem_map.mp committing
    have declared : info.group ∈ plan.effectGroups := by
      rw [← classified.groups_eq]
      exact List.mem_map_of_mem (List.mem_filter.mp present).1
    rw [List.mem_flatMap]
    refine ⟨info, present, ?_⟩
    rw [assembled.groupEffects_eq declared]
    exact mem_keyed.mpr ⟨inPlan, same.symm⟩

/-- No effect is staged twice. -/
theorem Classified.legs_nodup :
    ((infos.filter (·.committable)).flatMap fun info => groupEffects plan info.group).Nodup := by
  have keys : (infos.map fun info => info.group.guardKey).Nodup := by
    have partition := assembled.partition.keys
    rwa [← classified.groups_eq, List.map_map] at partition
  have declared : ∀ info ∈ infos.filter (·.committable), info.group ∈ plan.effectGroups := by
    intro info present
    rw [← classified.groups_eq]
    exact List.mem_map_of_mem (List.mem_filter.mp present).1
  rw [List.nodup_flatMap]
  constructor
  · intro info present
    rw [assembled.groupEffects_eq (declared info present)]
    exact assembled.effects_nodup.filter _
  · have apart := ((List.pairwise_map.mp keys).filter (·.committable))
    refine apart.imp_of_mem ?_
    intro first second firstPresent secondPresent different effect inFirst inSecond
    simp only [assembled.groupEffects_eq (declared first firstPresent)] at inFirst
    simp only [assembled.groupEffects_eq (declared second secondPresent)] at inSecond
    exact different ((mem_keyed.mp inFirst).2.symm.trans (mem_keyed.mp inSecond).2)

end Legs

/-- An effect can no longer post under a key once the key is posted or, in a temporal plan, the
effect's group has committed. -/
def Spent (plan : CoordinationPlan) (record : KeyRecord) (effect : PlanEffect) : Prop :=
  record.posted = true ∨ isTemporal plan = true ∧ effect.guardKey ∈ record.groups

/-- A leg a settled transition posts is an effect of the plan that was not spent under the
transition's key before and is afterwards. -/
theorem Settles.posts {raw : PlanInputs} (assembled : Assembled raw plan) {settled : Settled}
    (settles : Settles sha256Hex plan state input settled) {leg : Pending}
    (listed : leg ∈ settled.pending) :
    leg.effect ∈ plan.effects ∧
      ¬Spent plan (state.record (workflowKeyValue plan input)) leg.effect ∧
      Spent plan (settled.next.record (workflowKeyValue plan input)) leg.effect := by
  cases settles with
  | replay => simp at listed
  | evidence => simp at listed
  | @groups key claim env infos pending staged opens effectful temporal consistent classified
      legs =>
      have shape : Classified plan env (state.record key) infos :=
        ⟨effectful, temporal, classified⟩
      obtain ⟨effects, _, posted⟩ := stageGroups_ok legs
      have unposted := opens.unposted assembled.idempotent
      rw [← opens.key_eq]
      simp only [disposeGroups] at listed ⊢
      split at listed
      · simp at listed
      · rename_i some
        have inLegs : leg ∈ pending := by
          split at listed <;> exact listed
        obtain ⟨inPlan, committing, fresh⟩ :=
          shape.leg assembled (effects ▸ List.mem_map_of_mem inLegs)
        refine ⟨inPlan, by simp [Spent, unposted, fresh], ?_⟩
        simp only [some, if_false]
        split
        · left
          simp [EvalState.record, EvalState.close]
        · refine .inr ⟨temporal, ?_⟩
          rw [EvalState.record_commitState, Function.update_self, KeyRecord.commit_groups,
            Std.ExtTreeSet.mem_insertMany_list]
          right
          simpa using committing
  | legs opens effectful single legs =>
      obtain ⟨effects, _⟩ := stageLegs_ok legs
      have unposted := opens.unposted assembled.idempotent
      have fired : leg.effect ∈ plan.effects.filter (fires _) :=
        effects ▸ List.mem_map_of_mem listed
      rw [← opens.key_eq]
      refine ⟨(List.mem_filter.mp fired).1, by simp [Spent, unposted, single], ?_⟩
      left
      simp [EvalState.record, EvalState.close]

end Hash

end Neutrino
