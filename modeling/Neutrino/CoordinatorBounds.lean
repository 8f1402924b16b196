import Neutrino.CoordinatorIsolation

/-! The static bounds of an admitted coordination against what a transition of a fresh instance
observes and stores. -/

namespace Neutrino

open Checked Ledger KeyedStore Run

/-! Observations of a validation. -/

theorem foldComputes_length {computes : List PlanCompute} {env final : Env}
    (folded : (foldComputes computes env).value = .ok final) :
    (foldComputes computes env).trace.length = computes.length := by
  induction computes generalizing env with
  | nil => rfl
  | cons compute rest ih =>
      obtain ⟨value, _, continued, first⟩ := Traced.bind_ok_trace folded
      obtain ⟨_, _, later, second⟩ := Traced.bind_ok_trace continued
      have counted := ih later
      rw [foldComputes, first, second]
      simp only [Traced.ofExcept_trace, Traced.observe_trace, List.nil_append,
        List.length_append, List.length_cons, List.length_nil, counted]
      omega

theorem foldComputes_length_le (computes : List PlanCompute) (env : Env) :
    (foldComputes computes env).trace.length ≤ computes.length := by
  induction computes generalizing env with
  | nil => exact Nat.le_refl _
  | cons compute rest ih =>
      have whole : (foldComputes (compute :: rest) env).trace.length ≤ 0 + (1 + rest.length) :=
        Traced.length_bind_le (Nat.le_refl _) fun value _ =>
          Traced.length_bind_le (Nat.le_refl _) fun _ _ => ih _
      simp only [List.length_cons]
      omega

theorem transitionEnv_length {plan : CoordinationPlan} {input : TransitionInput} {env : Env}
    (evaluated : (transitionEnv plan input).value = .ok env) :
    (transitionEnv plan input).trace.length = plan.computes.length := by
  obtain ⟨base, folded, _, trace⟩ := Traced.bind_ok_trace evaluated
  rw [transitionEnv, trace, Traced.pure_trace, List.append_nil, foldComputes_length folded]

theorem transitionEnv_length_le (plan : CoordinationPlan) (input : TransitionInput) :
    (transitionEnv plan input).trace.length ≤ plan.computes.length := by
  have whole : (transitionEnv plan input).trace.length ≤ plan.computes.length + 0 :=
    Traced.length_bind_le (foldComputes_length_le _ _) fun _ _ => Nat.le_refl 0
  exact whole

theorem acceptEvidence_length {input : TransitionInput} {policies : List AttestationPolicy}
    {passed : Unit} (accepted : (acceptEvidence input policies).value = .ok passed) :
    (acceptEvidence input policies).trace.length = policies.length := by
  induction policies with
  | nil => rfl
  | cons policy rest ih =>
      simp only [acceptEvidence] at accepted ⊢
      split at accepted
      · simp at accepted
      · obtain ⟨_, _, checked, first⟩ := Traced.bind_ok_trace accepted
        obtain ⟨_, _, later, second⟩ := Traced.bind_ok_trace checked
        rw [first, second, Traced.observe_trace, Traced.ensure_trace, List.nil_append,
          List.length_append, List.length_singleton, ih later, List.length_cons]
        omega

theorem acceptEvidence_length_le (input : TransitionInput) (policies : List AttestationPolicy) :
    (acceptEvidence input policies).trace.length ≤ policies.length := by
  induction policies with
  | nil => exact Nat.le_refl _
  | cons policy rest ih =>
      simp only [acceptEvidence, List.length_cons]
      split
      · exact Nat.zero_le _
      · refine (Traced.length_bind_le (Nat.le_refl 1) fun _ _ =>
          Traced.length_bind_le (Traced.ensure_length_le _ _) fun _ _ => ih).trans ?_
        omega

theorem stageGroups_length_le (plan : CoordinationPlan) (env : Env)
    (symbols : Std.ExtTreeMap String String) (infos : List GroupInfo)
    (staged : Balances Account) :
    (stageGroups plan env symbols infos staged).trace.length ≤ infos.length := by
  induction infos generalizing staged with
  | nil => exact Nat.le_refl _
  | cons info rest ih =>
      have guard : (observeGroupGuard info).trace.length ≤ 1 := by
        unfold observeGroupGuard
        split <;> simp
      have whole : (stageGroups plan env symbols (info :: rest) staged).trace.length ≤
          1 + (0 + (rest.length + 0)) :=
        Traced.length_bind_le guard fun _ _ => Traced.length_bind_le (Nat.le_refl _) fun _ _ =>
          Traced.length_bind_le (ih _) fun _ _ => Nat.le_refl _
      simp only [List.length_cons]
      omega

/-! The observations a leg makes in a commit. -/

/-- A guard, then for a leg that fires its policy's verdict, its delta and its event. -/
def legObservations (env : Env) (effect : PlanEffect) : Nat :=
  (if effect.guard.isSome then 1 else 0) +
    if fires env effect then (if effect.attestationInput = "" then 2 else 3) else 0

theorem observeGuard_length {env : Env} {effect : PlanEffect} {held : Bool}
    (observed : (observeGuard env effect).value = .ok held) :
    (observeGuard env effect).trace.length = if effect.guard.isSome then 1 else 0 := by
  unfold observeGuard at observed ⊢
  cases guarded : effect.guard with
  | none => simp
  | some guard =>
      simp only [guarded] at observed
      obtain ⟨_, _, continued, first⟩ := Traced.bind_ok_trace observed
      obtain ⟨_, _, _, second⟩ := Traced.bind_ok_trace continued
      simp [first, second]

theorem observeGuard_length_le (env : Env) (effect : PlanEffect) :
    (observeGuard env effect).trace.length ≤ 1 := by
  unfold observeGuard
  split
  · simp
  · change _ ≤ 0 + (1 + 0)
    exact Traced.length_bind_le (Nat.le_refl 0) fun _ _ =>
      Traced.length_bind_le (Nat.le_refl 1) fun _ _ => Nat.le_refl 0

theorem observeGate_length {input : TransitionInput} {effect : PlanEffect} {passed : Unit}
    (observed : (observeGate input effect).value = .ok passed) :
    (observeGate input effect).trace.length = if effect.attestationInput = "" then 0 else 1 := by
  unfold observeGate at observed ⊢
  split
  · simp
  · rename_i gated
    simp only [gated, if_false] at observed
    obtain ⟨_, _, _, trace⟩ := Traced.bind_ok_trace observed
    simp [trace]

theorem observeGate_length_le (input : TransitionInput) (effect : PlanEffect) :
    (observeGate input effect).trace.length ≤ 1 := by
  unfold observeGate
  split
  · simp
  · exact Traced.length_bind_le (Nat.le_refl 1) fun _ _ => Traced.ensure_length_le _ _

theorem stageLegs_length_le (env : Env) (input : TransitionInput) (effects : List PlanEffect)
    (staged : Balances Account) :
    (stageLegs env input effects staged).trace.length ≤ 2 * effects.length := by
  induction effects generalizing staged with
  | nil => exact Nat.le_refl _
  | cons effect rest ih =>
      have whole : (stageLegs env input (effect :: rest) staged).trace.length ≤
          0 + (1 + (1 + 2 * rest.length)) := by
        refine Traced.length_bind_le (Traced.ensure_length_le _ _) fun _ _ =>
          Traced.length_bind_le (observeGuard_length_le env effect) fun held _ => ?_
        split
        · refine Traced.length_bind_le (observeGate_length_le input effect) fun _ _ => ?_
          refine (Traced.length_bind_le (Nat.le_refl 0) fun posting _ =>
            Traced.length_bind_le (Nat.le_refl 0) fun staged _ =>
              Traced.length_bind_le (ih staged) fun _ _ => Nat.le_refl 0).trans ?_
          omega
        · exact (ih _).trans (by omega)
      simp only [List.length_cons]
      omega

/-- A commit of single legs observes each leg's own observations. -/
theorem stageLegs_length {env : Env} {input : TransitionInput} {effects : List PlanEffect}
    {staged final : Balances Account} {pending : List Pending}
    (accepted : (stageLegs env input effects staged).value = .ok (pending, final)) :
    (stageLegs env input effects staged).trace.length + 2 * pending.length =
      (effects.map (legObservations env)).sum := by
  induction effects generalizing staged pending with
  | nil =>
      simp only [stageLegs, Traced.pure_value, Except.ok.injEq, Prod.mk.injEq] at accepted
      obtain ⟨rfl, rfl⟩ := accepted
      rfl
  | cons effect rest ih =>
      obtain ⟨_, _, guarding, first⟩ := Traced.bind_ok_trace accepted
      obtain ⟨held, observed, continued, second⟩ := Traced.bind_ok_trace guarding
      have guard := observeGuard_length observed
      have firing := observeGuard_ok observed
      rw [stageLegs, first, second, List.map_cons, List.sum_cons, Traced.ensure_trace,
        List.nil_append, List.length_append, guard, legObservations, firing]
      cases held with
      | false =>
          simp only [Bool.false_eq_true, if_false] at continued ⊢
          have later := ih continued
          omega
      | true =>
          simp only [if_true] at continued ⊢
          obtain ⟨_, gated, posting, third⟩ := Traced.bind_ok_trace continued
          obtain ⟨_, _, staging, fourth⟩ := Traced.bind_ok_trace posting
          obtain ⟨_, _, others, fifth⟩ := Traced.bind_ok_trace staging
          obtain ⟨⟨later, balances⟩, rested, built, sixth⟩ := Traced.bind_ok_trace others
          simp only [Traced.pure_value, Except.ok.injEq, Prod.mk.injEq] at built
          obtain ⟨rfl, rfl⟩ := built
          have counted := ih rested
          rw [third, fourth, fifth, sixth, List.length_append, observeGate_length gated]
          simp only [Traced.ofExcept_trace, Traced.pure_trace, List.nil_append, List.append_nil,
            List.length_cons]
          by_cases gate : effect.attestationInput = ""
          · simp only [gate, if_true]
            omega
          · simp only [gate, if_false]
            omega

/-! A transition of a fresh instance. -/

section Fresh

variable {sha256Hex : List UInt8 → String} {plan : CoordinationPlan} {input : TransitionInput}

theorem admission_length_le :
    (admission sha256Hex plan input).trace.length ≤ 1 := by
  change _ ≤ 1 + (0 + (0 + (0 + 0)))
  exact Traced.length_bind_le (Nat.le_refl 1) fun _ _ =>
    Traced.length_bind_le (Traced.ensure_length_le _ _) fun _ _ =>
      Traced.length_bind_le (Traced.ensure_length_le _ _) fun _ _ =>
        Traced.length_bind_le (Nat.le_refl 0) fun _ _ => Nat.le_refl 0

theorem admission_length {admitted : String × String}
    (accepted : (admission sha256Hex plan input).value = .ok admitted) :
    (admission sha256Hex plan input).trace.length = 1 := by
  obtain ⟨_, _, authorized, first⟩ := Traced.bind_ok_trace accepted
  obtain ⟨_, _, named, second⟩ := Traced.bind_ok_trace authorized
  obtain ⟨_, _, typed, third⟩ := Traced.bind_ok_trace named
  obtain ⟨_, _, _, fourth⟩ := Traced.bind_ok_trace typed
  rw [admission, first, second, third, fourth]
  simp

/-- The observations a validation of a fresh instance can make at most. -/
theorem settle_length_le (sha256Hex : List UInt8 → String) (input : TransitionInput)
    (groups : plan.effectGroups.length ≤ plan.effects.length)
    (policies : plan.attestations.length ≤ 1) :
    (settle sha256Hex plan EvalState.empty input).trace.length ≤
      2 + plan.computes.length + 2 * plan.effects.length := by
  have whole : (settle sha256Hex plan EvalState.empty input).trace.length ≤
      1 + (0 + (plan.computes.length + (1 + 2 * plan.effects.length))) := by
    refine Traced.length_bind_le admission_length_le ?_
    rintro ⟨key, claim⟩ _
    refine Traced.length_bind_le (Traced.ensure_length_le _ _) fun _ _ => ?_
    split
    · rename_i posted
      simp [EvalState.empty] at posted
    · refine Traced.length_bind_le (transitionEnv_length_le plan input) fun env _ => ?_
      split
      · have evidence : (settleEvidence plan EvalState.empty input key claim).trace.length ≤
            plan.attestations.length + 0 :=
          Traced.length_bind_le (acceptEvidence_length_le _ _) fun _ _ => Nat.le_refl 0
        omega
      · split
        · have temporal : (settleGroups plan EvalState.empty input key claim env).trace.length ≤
              0 + (0 + (plan.effectGroups.length + 0)) := by
            refine Traced.length_bind_le (Traced.ensure_length_le _ _) fun _ _ =>
              Traced.length_bind_le (Nat.le_refl 0) fun infos classified => ?_
            have same := (collect_ok.mp classified).length_eq
            rw [same]
            exact Traced.length_bind_le (stageGroups_length_le _ _ _ _ _) fun _ _ =>
              Nat.le_refl 0
          omega
        · have single : (settleLegs plan EvalState.empty input key claim env).trace.length ≤
              2 * plan.effects.length + 0 :=
            Traced.length_bind_le (stageLegs_length_le _ _ _ _) fun _ _ => Nat.le_refl 0
          omega
  omega

/-- A coordination that accepts evidence and posts nothing. -/
def EvidenceOnly (plan : CoordinationPlan) : Prop := plan.effects = [] ∧ plan.attestations ≠ []

theorem publishPending_length (pending : List Pending) :
    (publishPending pending).length = 2 * pending.length := by
  simp only [publishPending, List.length_append, List.length_map]
  omega

theorem disposeGroups_length (plan : CoordinationPlan) (state : EvalState) (key claim : String) (infos : List GroupInfo)
    (pending : List Pending) (staged : Balances Account) :
    (disposeGroups plan state key claim infos pending staged).published.length ≤
      2 * pending.length + 2 := by
  simp only [disposeGroups]
  split
  · simp
  · split
    · simp [publishPending_length]
    · simp [publishPending_length]

/-- The legs a temporal commit stages are effects of the plan, each once. -/
theorem temporal_pending_le {raw : PlanInputs} (assembled : Assembled raw plan) {env : Env}
    {record : KeyRecord} {infos : List GroupInfo} (classified : Classified plan env record infos)
    {pending : List Pending} (effects : pending.map (·.effect) =
      (infos.filter (·.committable)).flatMap fun info => groupEffects plan info.group) :
    pending.length ≤ plan.effects.length := by
  have once := classified.legs_nodup assembled
  have listed : pending.map (·.effect) ⊆ plan.effects := by
    intro effect member
    rw [effects] at member
    exact (classified.leg assembled member).1
  rw [← effects] at once
  have shorter := (List.subperm_of_subset once listed).length_le
  rwa [List.length_map] at shorter

/-- What the trace of a settled first transition holds, by the kind of its coordination. -/
inductive FreshTrace (plan : CoordinationPlan) (input : TransitionInput)
    (result : TransitionResult) : Prop
  | evidence (only : EvidenceOnly plan)
      (length : result.trace.length = 3 + plan.computes.length + plan.attestations.length)
  | groups (effectful : ¬EvidenceOnly plan) (temporal : isTemporal plan = true)
      (length : result.trace.length ≤
        3 + plan.computes.length + plan.effectGroups.length + 2 * plan.effects.length)
  | legs {env : Env} (effectful : ¬EvidenceOnly plan) (single : isTemporal plan = false)
      (evaluated : (transitionEnv plan input).value = .ok env)
      (length : result.trace.length = 3 + plan.computes.length +
        (plan.effects.map (legObservations env)).sum + plan.obligations.length)

theorem freshTrace {raw : PlanInputs} (assembled : Assembled raw plan) {settled : Settled}
    (decided : (settle sha256Hex plan EvalState.empty input).value = .ok settled) :
    FreshTrace plan input (evaluateTransition sha256Hex plan EvalState.empty input) := by
  rw [evaluateTransition_settled decided]
  obtain ⟨⟨key, claim⟩, admitted, claimed, first⟩ := Traced.bind_ok_trace decided
  obtain ⟨_, _, continued, second⟩ := Traced.bind_ok_trace claimed
  have admission := admission_length admitted
  have start : (settle sha256Hex plan EvalState.empty input).trace =
      (Neutrino.admission sha256Hex plan input).trace ++ _ := first.trans (by rw [second])
  rw [start, Traced.ensure_trace, List.nil_append]
  clear start first second
  split at continued
  · rename_i posted
    simp [EvalState.empty] at posted
  · rename_i fresh
    rw [if_neg fresh]
    obtain ⟨env, evaluated, branch, third⟩ := Traced.bind_ok_trace continued
    have computes := transitionEnv_length evaluated
    rw [third]
    clear third
    split at branch
    · rename_i evidence
      rw [if_pos evidence]
      simp only [Bool.and_eq_true, List.isEmpty_iff, Bool.not_eq_true',
        List.isEmpty_eq_false_iff] at evidence
      obtain ⟨_, accepted, built, fourth⟩ := Traced.bind_ok_trace branch
      simp only [Traced.pure_value, Except.ok.injEq] at built
      subst built
      refine .evidence evidence ?_
      rw [settleEvidence, fourth]
      simp only [List.length_append, admission, computes, acceptEvidence_length accepted,
        Traced.pure_trace, List.length_nil, List.length_cons]
      omega
    · rename_i effectful
      rw [if_neg effectful]
      have kind : ¬EvidenceOnly plan := by
        intro evidence
        apply effectful
        simp [evidence.1, evidence.2]
      split at branch
      · rename_i temporal
        rw [if_pos temporal]
        obtain ⟨_, _, consistent, fourth⟩ := Traced.bind_ok_trace branch
        obtain ⟨infos, classified, staging, fifth⟩ := Traced.bind_ok_trace consistent
        obtain ⟨⟨pending, staged⟩, legs, built, sixth⟩ := Traced.bind_ok_trace staging
        simp only [Traced.pure_value, Except.ok.injEq] at built
        subst built
        have nonempty : plan.effects ≠ [] := by
          intro empty
          simp [isTemporal, empty] at temporal
        have shape : Classified plan env (EvalState.empty.record key) infos :=
          ⟨nonempty, temporal, classified⟩
        have few := temporal_pending_le assembled shape (stageGroups_ok legs).1
        have guards := stageGroups_length_le plan env input.symbols infos EvalState.empty.balances
        have groups := (collect_ok.mp classified).length_eq
        have published := disposeGroups_length plan EvalState.empty key claim infos
          pending staged
        refine .groups kind temporal ?_
        rw [settleGroups, fourth, fifth, sixth]
        simp only [List.length_append, admission, computes, Traced.pure_trace,
          Traced.ensure_trace, Traced.ofExcept_trace, List.nil_append, List.append_nil]
        omega
      · rename_i single
        rw [if_neg single]
        obtain ⟨⟨pending, staged⟩, legs, built, fourth⟩ := Traced.bind_ok_trace branch
        simp only [Traced.pure_value, Except.ok.injEq] at built
        subst built
        have counted := stageLegs_length legs
        refine .legs kind (by simpa using single) evaluated ?_
        rw [settleLegs, fourth]
        simp only [List.length_append, admission, computes, Traced.pure_trace, List.length_nil,
          publishPending_length, observeObligations, List.length_map, List.length_cons]
        omega

/-! Admission. -/

theorem Assembled.groups_length_le {raw : PlanInputs} (assembled : Assembled raw plan) :
    plan.effectGroups.length ≤ plan.effects.length := by
  have keys : plan.effectGroups.map (·.guardKey) ⊆ plan.effects.map (·.guardKey) := by
    intro key listed
    obtain ⟨group, declared, rfl⟩ := List.mem_map.mp listed
    obtain ⟨effect, head, _⟩ := (assembled.partition.shapes group declared).first
    obtain ⟨member, own⟩ := mem_keyed.mp (List.mem_of_head? head)
    rw [← own]
    exact List.mem_map_of_mem member
  have shorter := (List.subperm_of_subset assembled.partition.keys keys).length_le
  rwa [List.length_map, List.length_map] at shorter

theorem requireBounded_ok {condition : Prop} [Decidable condition] {message : String}
    {passed : Unit} : requireBounded condition message = .ok passed ↔ condition := by
  simp [requireBounded]

theorem admitBounded_ok {bounds : BoundedBounds} (admitted : admitBounded plan = .ok bounds) :
    bounds = deriveBounds plan ∧ plan.attestations.length ≤ 1 := by
  simp only [admitBounded, bind_ok, requireBounded_ok, pure_ok, exists_const] at admitted
  obtain ⟨_, _, _, _, policies, _, _, _, rfl⟩ := admitted
  exact ⟨rfl, policies⟩

/-! Storage. -/

theorem slots_close (plan : CoordinationPlan) (state : EvalState) (key claim : String) :
    ((state.pin key claim).close plan key).slots ≤ state.slots + 2 := by
  have keys := Std.ExtTreeSet.size_insert_le (t := state.postedKeys) (k := key)
  have statuses := Std.ExtTreeMap.size_insert_le (t := state.keyStatus) (k := key)
    (v := plan.terminal.success)
  simp only [EvalState.slots, EvalState.close, EvalState.pin]
  omega

theorem slots_empty : EvalState.empty.slots = 0 := by
  simp [EvalState.slots, EvalState.empty]

theorem slots_staged (staged : Balances Account) :
    ({ EvalState.empty with balances := staged } : EvalState).slots = staged.size := by
  simp [EvalState.slots, EvalState.empty]

theorem slots_commitState (key claim : String) (staged : Balances Account)
    (committing : List String) :
    (commitState EvalState.empty key claim staged committing).slots = staged.size := by
  simp [EvalState.slots, commitState, EvalState.pin, EvalState.empty]

theorem slots_close_commitState (plan : CoordinationPlan) (key claim : String)
    (staged : Balances Account) (committing : List String) :
    ((commitState EvalState.empty key claim staged committing).close plan key).slots ≤
      staged.size + 2 := by
  have committed := slots_commitState key claim staged committing
  have keys := Std.ExtTreeSet.size_insert_le
    (t := (commitState EvalState.empty key claim staged committing).postedKeys) (k := key)
  have statuses := Std.ExtTreeMap.size_insert_le
    (t := (commitState EvalState.empty key claim staged committing).keyStatus) (k := key)
    (v := plan.terminal.success)
  simp only [EvalState.slots, EvalState.close] at committed ⊢
  omega

theorem staged_size_le {pending : List Pending} {staged : Balances Account}
    (posted : postAll EvalState.empty.balances (pending.map (·.posting)) = some staged) :
    staged.size ≤ pending.length := by
  have size := postAll_size posted
  have none : EvalState.empty.balances.size = 0 := by
    simp only [EvalState.empty, Std.ExtTreeMap.size_empty]
  rwa [List.length_map, none, Nat.zero_add] at size

/-- A first transition stores its key, its status and at most one slot a leg. -/
theorem Settles.slots_le {raw : PlanInputs} (assembled : Assembled raw plan) {settled : Settled}
    (settles : Settles sha256Hex plan EvalState.empty input settled) :
    settled.next.slots ≤ 2 + plan.effects.length := by
  cases settles with
  | replay =>
      rw [slots_empty]
      exact Nat.zero_le _
  | @evidence key claim =>
      have closed := slots_close plan EvalState.empty key claim
      rw [slots_empty] at closed
      exact closed.trans (by omega)
  | @groups key claim env infos pending staged opens effectful temporal consistent classified
      legs =>
      obtain ⟨effects, _, posted⟩ := stageGroups_ok legs
      have shape : Classified plan env (EvalState.empty.record key) infos :=
        ⟨effectful, temporal, classified⟩
      have few := temporal_pending_le assembled shape effects
      have size := staged_size_le posted
      simp only [disposeGroups]
      split
      · rw [slots_empty]
        exact Nat.zero_le _
      · split
        · exact (slots_close_commitState plan key claim staged _).trans (by omega)
        · rw [slots_commitState]
          omega
  | @legs key claim env pending staged opens effectful single legs =>
      obtain ⟨effects, _, _, posted⟩ := stageLegs_ok legs
      have few : pending.length ≤ plan.effects.length := by
        have same := congrArg List.length effects
        rw [List.length_map] at same
        rw [same]
        exact List.length_filter_le _ _
      have size := staged_size_le posted
      have closed := slots_close plan { EvalState.empty with balances := staged } key claim
      rw [slots_staged] at closed
      exact closed.trans (by omega)

theorem slots_le {raw : PlanInputs} (assembled : Assembled raw plan) :
    (evaluateTransition sha256Hex plan EvalState.empty input).next.slots ≤
      2 + plan.effects.length := by
  rcases nextState_cases sha256Hex plan EvalState.empty input with
    same | ⟨settled, _, settles, next⟩
  · change (nextState sha256Hex plan EvalState.empty input).slots ≤ _
    rw [same, slots_empty]
    exact Nat.zero_le _
  · change (nextState sha256Hex plan EvalState.empty input).slots ≤ _
    rw [next]
    exact settles.slots_le assembled

/-! The conditions under which a first transition commits. -/

/-- A leg's guard evaluates, and if it holds its policy is accepted and its posting resolves. -/
structure LegStages (env : Env) (input : TransitionInput) (effect : PlanEffect) : Prop where
  posts : isPostingKind effect.kind = true
  guarded : ∀ guard, effect.guard = some guard → ∃ held, evalGuard guard env = .ok held
  gated : fires env effect = true →
    effect.attestationInput = "" ∨ policyAccepted input effect.attestationInput = true
  resolved : fires env effect = true →
    ∃ posting, resolvePosting env input.symbols effect = .ok posting

def firingPostings (env : Env) (input : TransitionInput) (effects : List PlanEffect) :
    List (Posting Account) :=
  (effects.filter (fires env)).filterMap fun effect =>
    (resolvePosting env input.symbols effect).toOption

/-- Every leg stages, and the balances stay in range. -/
structure LegsStage (env : Env) (input : TransitionInput) (effects : List PlanEffect)
    (staged : Balances Account) : Prop where
  legs : ∀ effect ∈ effects, LegStages env input effect
  posted : ∃ final, postAll staged (firingPostings env input effects) = some final

theorem observeGuard_of_guarded {env : Env} {effect : PlanEffect}
    (guarded : ∀ guard, effect.guard = some guard → ∃ held, evalGuard guard env = .ok held) :
    (observeGuard env effect).value = .ok (fires env effect) := by
  unfold observeGuard fires
  cases declared : effect.guard with
  | none => rfl
  | some guard =>
      obtain ⟨held, evaluated⟩ := guarded guard declared
      simp [Traced.bind_ok, evaluated, Except.mapError]

theorem guarded_of_observeGuard {env : Env} {effect : PlanEffect} {held : Bool}
    (observed : (observeGuard env effect).value = .ok held) (guard : ExprNode)
    (declared : effect.guard = some guard) : ∃ held, evalGuard guard env = .ok held := by
  simp only [observeGuard, declared, Traced.bind_ok, Traced.ofExcept_value] at observed
  obtain ⟨held, evaluated, _⟩ := observed
  cases result : evalGuard guard env with
  | error failure => simp [result, Except.mapError] at evaluated
  | ok value => exact ⟨value, rfl⟩

theorem observeGate_of_gated {input : TransitionInput} {effect : PlanEffect}
    (gated : effect.attestationInput = "" ∨
      policyAccepted input effect.attestationInput = true) :
    (observeGate input effect).value = .ok () := by
  unfold observeGate
  split
  · rfl
  · rename_i policy
    simp [Traced.bind_ok, Traced.ensure_ok, gated.resolve_left policy]

theorem LegsStage.stageLegs {env : Env} {input : TransitionInput} {effects : List PlanEffect}
    {staged : Balances Account} (stages : LegsStage env input effects staged) :
    ∃ pending final, (stageLegs env input effects staged).value = .ok (pending, final) := by
  obtain ⟨legs, posted⟩ := stages
  induction effects generalizing staged with
  | nil => exact ⟨[], staged, rfl⟩
  | cons effect rest ih =>
      have leg := legs effect (by simp)
      have others : ∀ other ∈ rest, LegStages env input other :=
        fun other listed => legs other (by simp [listed])
      have observed := observeGuard_of_guarded leg.guarded
      simp only [Neutrino.stageLegs, Traced.bind_ok, Traced.ensure_ok, observed]
      cases firing : fires env effect with
      | false =>
          have skipped : firingPostings env input (effect :: rest) =
              firingPostings env input rest := by simp [firingPostings, firing]
          rw [skipped] at posted
          obtain ⟨pending, final, staged⟩ := ih others posted
          exact ⟨pending, final, (), leg.posts, false, rfl, staged⟩
      | true =>
          obtain ⟨posting, resolved⟩ := leg.resolved firing
          have listed : firingPostings env input (effect :: rest) =
              posting :: firingPostings env input rest := by
            simp [firingPostings, firing, resolved, Except.toOption]
          rw [listed] at posted
          obtain ⟨final, posted⟩ := posted
          obtain ⟨booked, first, later⟩ := postAll_cons.mp posted
          obtain ⟨pending, balances, staged⟩ := ih others ⟨final, later⟩
          refine ⟨{ effect, posting } :: pending, balances, (), leg.posts, true, rfl, ?_⟩
          simp only [if_true, Traced.bind_ok, Traced.ofExcept_value, Traced.pure_value]
          exact ⟨(), observeGate_of_gated (leg.gated firing), posting, resolved, booked,
            stagePosting_ok.mpr first, (pending, balances), staged, rfl⟩

theorem legsStage_of_ok {env : Env} {input : TransitionInput} {effects : List PlanEffect}
    {staged final : Balances Account} {pending : List Pending}
    (accepted : (stageLegs env input effects staged).value = .ok (pending, final)) :
    LegsStage env input effects staged := by
  induction effects generalizing staged pending final with
  | nil => exact ⟨by simp, staged, rfl⟩
  | cons effect rest ih =>
      simp only [stageLegs, Traced.bind_ok, Traced.ensure_ok] at accepted
      obtain ⟨_, posts, held, observed, continued⟩ := accepted
      have firing := observeGuard_ok observed
      have guarded := guarded_of_observeGuard observed
      cases held with
      | false =>
          simp only [Bool.false_eq_true, if_false] at continued
          obtain ⟨legs, posted⟩ := ih continued
          refine ⟨fun other listed => ?_, by simpa [firingPostings, firing] using posted⟩
          rcases List.mem_cons.mp listed with rfl | inRest
          · exact ⟨posts, guarded, by simp [firing], by simp [firing]⟩
          · exact legs other inRest
      | true =>
          simp only [if_true, Traced.bind_ok, Traced.ofExcept_value, Traced.pure_value,
            stagePosting_ok, Except.ok.injEq, Prod.mk.injEq, Prod.exists] at continued
          obtain ⟨_, gate, posting, resolved, booked, first, later, balances, others, _, _⟩ :=
            continued
          obtain ⟨legs, total, posted⟩ := ih others
          refine ⟨fun other listed => ?_, total, ?_⟩
          · rcases List.mem_cons.mp listed with rfl | inRest
            · exact ⟨posts, guarded, fun _ => observeGate_ok gate, fun _ => ⟨posting, resolved⟩⟩
            · exact legs other inRest
          · have listed : firingPostings env input (effect :: rest) =
                posting :: firingPostings env input rest := by
              simp [firingPostings, firing, resolved, Except.toOption]
            rw [listed]
            exact postAll_cons.mpr ⟨booked, first, posted⟩

theorem acceptEvidence_of_accepted {input : TransitionInput} {policies : List AttestationPolicy}
    (accepted : ∀ policy ∈ policies, policyAccepted input policy.input = true) :
    (acceptEvidence input policies).value = .ok () := by
  induction policies with
  | nil => rfl
  | cons policy rest ih =>
      have verdict := accepted policy (by simp)
      have others := ih fun other listed => accepted other (by simp [listed])
      unfold acceptEvidence
      cases presented : input.attestations[policy.input]? with
      | none => simp [policyAccepted, presented] at verdict
      | some value =>
          simp only [policyAccepted, presented, Option.getD_some] at verdict
          simp [Traced.bind_ok, Traced.ensure_ok, verdict, others]

/-- A first transition that accepts evidence alone. -/
structure AcceptsEvidence (sha256Hex : List UInt8 → String) (plan : CoordinationPlan)
    (input : TransitionInput) : Prop where
  evidence : EvidenceOnly plan
  opens : ∃ key claim env, Opens sha256Hex plan EvalState.empty input key claim env
  accepted : ∀ policy ∈ plan.attestations, policyAccepted input policy.input = true

/-- A first transition that posts single legs. -/
structure PostsLegs (sha256Hex : List UInt8 → String) (plan : CoordinationPlan)
    (input : TransitionInput) (env : Env) : Prop where
  effectful : ¬EvidenceOnly plan
  single : isTemporal plan = false
  opens : ∃ key claim, Opens sha256Hex plan EvalState.empty input key claim env
  stages : LegsStage env input plan.effects EvalState.empty.balances

theorem Opens.settle {key claim : String} {env : Env}
    (opens : Opens sha256Hex plan EvalState.empty input key claim env) {settled : Settled}
    (continued : (if plan.effects.isEmpty && !plan.attestations.isEmpty then
        settleEvidence plan EvalState.empty input key claim
      else if isTemporal plan then settleGroups plan EvalState.empty input key claim env
      else settleLegs plan EvalState.empty input key claim env).value = .ok settled) :
    (settle sha256Hex plan EvalState.empty input).value = .ok settled := by
  have fresh : ¬(plan.replay.idempotent && EvalState.empty.postedKeys.contains key) = true := by
    simpa using opens.fresh
  simp only [Neutrino.settle, Traced.bind_ok, Traced.ensure_ok]
  refine ⟨(key, claim), opens.admitted, (), ?_, ?_⟩
  · simp only [Option.all_eq_true, decide_eq_true_eq]
    exact opens.agrees
  · rw [if_neg fresh]
    exact Traced.bind_ok.mpr ⟨env, opens.evaluated, continued⟩

theorem AcceptsEvidence.settle (accepts : AcceptsEvidence sha256Hex plan input) :
    ∃ settled, (settle sha256Hex plan EvalState.empty input).value = .ok settled := by
  obtain ⟨⟨effectless, declared⟩, ⟨key, claim, env, opens⟩, accepted⟩ := accepts
  have evidence : (plan.effects.isEmpty && !plan.attestations.isEmpty) = true := by
    simp [effectless, declared]
  cases settled : (settleEvidence plan EvalState.empty input key claim).value with
  | ok result =>
      refine ⟨result, opens.settle ?_⟩
      rw [if_pos evidence, settled]
  | error failure =>
      simp [settleEvidence, Traced.bind_error, acceptEvidence_of_accepted accepted] at settled

theorem PostsLegs.settle {env : Env} (postsLegs : PostsLegs sha256Hex plan input env) :
    ∃ settled, (settle sha256Hex plan EvalState.empty input).value = .ok settled := by
  obtain ⟨effectful, single, ⟨key, claim, opens⟩, stages⟩ := postsLegs
  obtain ⟨pending, staged, legs⟩ := stages.stageLegs
  have evidence : ¬(plan.effects.isEmpty && !plan.attestations.isEmpty) = true := by
    simpa [EvidenceOnly] using effectful
  cases posted : (settleLegs plan EvalState.empty input key claim env).value with
  | ok settled =>
      refine ⟨settled, opens.settle ?_⟩
      rw [if_neg evidence, if_neg (by simp [single]), posted]
  | error failure =>
      simp [settleLegs, Traced.bind_error, legs] at posted

theorem Settles.acceptsEvidence {settled : Settled}
    (settles : Settles sha256Hex plan EvalState.empty input settled)
    (evidence : EvidenceOnly plan) : AcceptsEvidence sha256Hex plan input := by
  cases settles with
  | replay _ posted => simp [EvalState.empty] at posted
  | evidence opens _ _ accepted => exact ⟨evidence, ⟨_, _, _, opens⟩, accepted⟩
  | groups _ effectful => exact absurd evidence.1 effectful
  | legs _ effectful => exact absurd (effectful.resolve_left (by simp [evidence.1])) evidence.2

theorem Settles.postsLegs {settled : Settled}
    (settles : Settles sha256Hex plan EvalState.empty input settled)
    (effectful : ¬EvidenceOnly plan) (single : isTemporal plan = false) :
    ∃ env, PostsLegs sha256Hex plan input env := by
  cases settles with
  | replay _ posted => simp [EvalState.empty] at posted
  | evidence _ effectless declared => exact absurd ⟨effectless, declared⟩ effectful
  | groups _ _ temporal => simp [single] at temporal
  | legs opens _ _ legs => exact ⟨_, effectful, single, ⟨_, _, opens⟩, legsStage_of_ok legs⟩

theorem PostsLegs.evaluated {env : Env} (postsLegs : PostsLegs sha256Hex plan input env) :
    (transitionEnv plan input).value = .ok env := by
  obtain ⟨_, _, opens⟩ := postsLegs.opens
  exact opens.evaluated

/-! Steps. -/

/-- A first transition stays within the derived steps unless it accepts evidence alone, or
posts single legs whose own observations leave its obligations no room. -/
structure StepsFit (sha256Hex : List UInt8 → String) (plan : CoordinationPlan)
    (input : TransitionInput) : Prop where
  evidence : ¬AcceptsEvidence sha256Hex plan input
  legs : ∀ env, PostsLegs sha256Hex plan input env →
    (plan.effects.map (legObservations env)).sum + plan.obligations.length ≤
      4 * plan.effects.length

theorem trace_length_iff {raw : PlanInputs} (assembled : Assembled raw plan)
    (policies : plan.attestations.length ≤ 1) :
    ((evaluateTransition sha256Hex plan EvalState.empty input).trace.length : Int) ≤
        (deriveBounds plan).maxSteps ↔ StepsFit sha256Hex plan input := by
  have groups := assembled.groups_length_le
  simp only [deriveBounds]
  cases decided : (settle sha256Hex plan EvalState.empty input).value with
  | error refusal =>
      have short := settle_length_le sha256Hex input groups policies
      rw [evaluateTransition_refused decided]
      simp only [List.length_append, List.length_cons, List.length_nil]
      constructor
      · intro _
        refine ⟨fun accepts => ?_, fun env postsLegs => ?_⟩
        · obtain ⟨settled, accepted⟩ := accepts.settle
          simp [decided] at accepted
        · obtain ⟨settled, accepted⟩ := postsLegs.settle
          simp [decided] at accepted
      · intro _
        omega
  | ok settled =>
      have settles := settle_ok decided
      cases freshTrace assembled decided with
      | evidence only length =>
          have some := List.length_pos_of_ne_nil only.2
          have none : plan.effects.length = 0 := by rw [only.1, List.length_nil]
          constructor
          · intro bounded
            omega
          · intro fit
            exact absurd (settles.acceptsEvidence only) fit.evidence
      | groups effectful temporal length =>
          constructor
          · intro _
            refine ⟨fun accepts => effectful accepts.evidence, fun env postsLegs => ?_⟩
            simp [postsLegs.single] at temporal
          · intro _
            omega
      | @legs env effectful single evaluated length =>
          constructor
          · intro bounded
            refine ⟨fun accepts => effectful accepts.evidence, fun other postsLegs => ?_⟩
            have same := postsLegs.evaluated
            rw [evaluated, Except.ok.injEq] at same
            subst same
            omega
          · intro fit
            obtain ⟨other, postsLegs⟩ := settles.postsLegs effectful single
            have same := postsLegs.evaluated
            rw [evaluated, Except.ok.injEq] at same
            subst same
            have room := fit.legs _ postsLegs
            omega

/-! The coordinator's answer. -/

/-- The evaluator refuses with none of the coordinator's codes. -/
theorem refusalCode_unbounded {code : String}
    (foreign : code ∉ "" :: "state.invalid" :: "claim.mismatch" :: admissionCodes ++ openCodes)
    (state : EvalState) :
    (evaluateTransition sha256Hex plan state input).refusalCode ≠ code := by
  intro same
  apply foreign
  rw [← same]
  cases decided : (settle sha256Hex plan state input).value with
  | ok settled =>
      rw [evaluateTransition_settled decided]
      simp
  | error refusal =>
      rw [evaluateTransition_refused decided]
      rcases settle_error decided with listed | ⟨invalid, _⟩
      · simp only [List.cons_append] at listed ⊢
        exact List.mem_cons_of_mem _ (List.mem_cons_of_mem _ listed)
      · simp [invalid]

theorem create_ok {coordinator : SharedCoordinator}
    (created : SharedCoordinator.create plan = .ok coordinator) :
    coordinator = ⟨plan, deriveBounds plan, ∅⟩ ∧ plan.attestations.length ≤ 1 := by
  simp only [SharedCoordinator.create, bind_ok, pure_ok] at created
  obtain ⟨bounds, admitted, rfl⟩ := created
  obtain ⟨rfl, policies⟩ := admitBounded_ok admitted
  exact ⟨rfl, policies⟩

end Fresh

/-- Derived bounds: the first call of an instance of a created coordinator is answered exactly
as the reference evaluator does on the empty state, and its trace fits the derived steps, exactly
when the steps fit; else it is refused as exceeding them. The derived storage is never
exceeded. -/
theorem derived_bounds (sha256Hex : List UInt8 → String) {raw : PlanInputs}
    {plan : CoordinationPlan} (accepted : assemblePlan raw = .ok plan)
    {coordinator : SharedCoordinator} (created : SharedCoordinator.create plan = .ok coordinator)
    (instanceId : String) (input : TransitionInput) :
    ((coordinator.run sha256Hex instanceId input).1 =
        evaluateTransition sha256Hex plan EvalState.empty input ↔
      StepsFit sha256Hex plan input) ∧
    ((coordinator.run sha256Hex instanceId input).1.refusalCode = "bounds.step_exceeded" ↔
      ¬StepsFit sha256Hex plan input) ∧
    (coordinator.run sha256Hex instanceId input).1.refusalCode ≠ "bounds.storage_exceeded" ∧
    ((evaluateTransition sha256Hex plan EvalState.empty input).trace.length ≤
        coordinator.bounds.maxSteps ↔ StepsFit sha256Hex plan input) ∧
    (evaluateTransition sha256Hex plan EvalState.empty input).next.slots ≤
      coordinator.bounds.maxStorageSlots := by
  have assembled := assemblePlan_ok accepted
  obtain ⟨rfl, policies⟩ := create_ok created
  have steps : _ ↔ StepsFit sha256Hex plan input := trace_length_iff assembled policies
  have slots : (evaluateTransition sha256Hex plan EvalState.empty input).next.slots ≤ _ :=
    slots_le assembled
  have stored : ((evaluateTransition sha256Hex plan EvalState.empty input).next.slots : Int) ≤
      (deriveBounds plan).maxStorageSlots := by
    simp only [deriveBounds]
    omega
  have answer : (SharedCoordinator.run sha256Hex ⟨plan, deriveBounds plan, ∅⟩ instanceId
      input).1 =
      if (deriveBounds plan).maxSteps <
          (evaluateTransition sha256Hex plan EvalState.empty input).trace.length then
        boundsRefusal "bounds.step_exceeded" EvalState.empty
      else evaluateTransition sha256Hex plan EvalState.empty input := by
    have room := Int.not_lt.mpr stored
    simp only [SharedCoordinator.run, SharedCoordinator.runOn, Std.ExtTreeMap.getElem?_empty,
      Option.getD_none, gt_iff_lt, room, if_false]
  have foreign : ∀ code ∈ ["bounds.step_exceeded", "bounds.storage_exceeded"],
      (evaluateTransition sha256Hex plan EvalState.empty input).refusalCode ≠ code := by
    intro code listed
    apply refusalCode_unbounded
    revert code
    decide
  have step := foreign "bounds.step_exceeded" (by simp)
  have storage := foreign "bounds.storage_exceeded" (by simp)
  by_cases fit : StepsFit sha256Hex plan input
  · have bounded := Int.not_lt.mpr (steps.mpr fit)
    rw [if_neg bounded] at answer
    refine ⟨iff_of_true answer fit, ?_, ?_, steps, stored⟩
    · rw [answer]
      exact iff_of_false step (not_not_intro fit)
    · rwa [answer]
  · have overrun := Int.not_le.mp fun bounded => fit (steps.mp bounded)
    rw [if_pos overrun] at answer
    refine ⟨iff_of_false ?_ fit, ?_, ?_, steps, stored⟩
    · intro same
      apply step
      rw [← same, answer]
      rfl
    · rw [answer]
      exact iff_of_true rfl fit
    · rw [answer]
      decide

/-- A payment under one attestation. -/
def attestedInputs : PlanInputs :=
  { sampleInputs with
    effects := [sampleLeg "pay" "debit" "buyer" "alpha",
      sampleLeg "receive" "credit" "seller" "alpha"]
    attestations := [samplePolicy "alpha"] }

def attestedPlan : CoordinationPlan := ((assemblePlan attestedInputs).toOption).getD default

theorem attestedPlan_accepted : assemblePlan attestedInputs = .ok attestedPlan := rfl

theorem attestedPlan_created :
    SharedCoordinator.create attestedPlan = .ok ⟨attestedPlan, deriveBounds attestedPlan, ∅⟩ := by
  have admitted : admitBounded attestedPlan = .ok (deriveBounds attestedPlan) := by
    decide +kernel
  simp only [SharedCoordinator.create, admitted]
  rfl

theorem derived_bounds_sample :
    (SharedCoordinator.run sampleHash ⟨attestedPlan, deriveBounds attestedPlan, ∅⟩ "A"
        (sampleInput "t-1" true true)).1 =
      evaluateTransition sampleHash attestedPlan EvalState.empty (sampleInput "t-1" true true) := by
  have bounds := derived_bounds sampleHash attestedPlan_accepted attestedPlan_created "A"
    (sampleInput "t-1" true true)
  exact bounds.1.mpr (bounds.2.2.2.1.mp (by decide +kernel))

/-! The acceptance of evidence alone: an authorization, the policy's verdict, the reconciled event
and the terminal are one observation more than the three a coordination without effects is
allowed. -/

def evidenceInputs : PlanInputs :=
  { sampleInputs with
    effects := []
    attestations := [samplePolicy "alpha"]
    explicitInstanceKey := "trade" }

def evidencePlan : CoordinationPlan := ((assemblePlan evidenceInputs).toOption).getD default

theorem evidencePlan_created :
    SharedCoordinator.create evidencePlan = .ok ⟨evidencePlan, deriveBounds evidencePlan, ∅⟩ := by
  have admitted : admitBounded evidencePlan = .ok (deriveBounds evidencePlan) := by
    decide +kernel
  simp only [SharedCoordinator.create, admitted]
  rfl

theorem accepted_evidence_exceeds_steps :
    assemblePlan evidenceInputs = .ok evidencePlan ∧
    SharedCoordinator.create evidencePlan = .ok ⟨evidencePlan, deriveBounds evidencePlan, ∅⟩ ∧
    (evaluateTransition sampleHash evidencePlan EvalState.empty
      (sampleInput "t-1" true true)).outcome = .terminal ∧
    (evaluateTransition sampleHash evidencePlan EvalState.empty
      (sampleInput "t-1" true true)).trace.length = 4 ∧
    (deriveBounds evidencePlan).maxSteps = 3 ∧
    (SharedCoordinator.run sampleHash ⟨evidencePlan, deriveBounds evidencePlan, ∅⟩ "A"
      (sampleInput "t-1" true true)).1.refusalCode = "bounds.step_exceeded" := by
  refine ⟨rfl, evidencePlan_created, ?_, ?_, ?_, ?_⟩ <;> decide +kernel

end Neutrino
