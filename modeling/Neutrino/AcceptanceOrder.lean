import Neutrino.Temporal

/-! The order in which the policies of a temporal plan are accepted does not matter: all
completed runs of one payload end in one state. -/

namespace Neutrino

open Checked Ledger KeyedStore Run

/-! Payloads. -/

/-- Invocations that differ at most in their attestations and authorization. -/
structure SamePayload (input payload : TransitionInput) : Prop where
  numeric : input.numeric = payload.numeric
  symbols : input.symbols = payload.symbols

namespace SamePayload

variable {input payload : TransitionInput} (same : SamePayload input payload)

include same

theorem key (plan : CoordinationPlan) :
    workflowKeyValue plan input = workflowKeyValue plan payload := by
  simp only [workflowKeyValue, same.numeric, same.symbols]

theorem typeInput (declared : PlanInput) :
    Neutrino.typeInput input declared = Neutrino.typeInput payload declared := by
  simp only [Neutrino.typeInput, same.numeric, same.symbols]

end SamePayload

/-- The claim a payload is admitted under. -/
def payloadClaim (sha256Hex : List UInt8 → String) (plan : CoordinationPlan)
    (payload : TransitionInput) : Except Refusal String := do
  let typed ← collect (typeInput payload) plan.inputs
  return executionClaimHash sha256Hex (coordinationIdentityHash sha256Hex plan)
    (workflowKeyValue plan payload) typed

theorem SamePayload.claim {sha256Hex : List UInt8 → String} {plan : CoordinationPlan}
    {input payload : TransitionInput} (same : SamePayload input payload) {key claim : String}
    (admitted : (admission sha256Hex plan input).value = .ok (key, claim)) :
    payloadClaim sha256Hex plan payload = .ok claim := by
  obtain ⟨_, rfl, _, typed, collected, rfl⟩ := admission_ok admitted
  have inputs : Neutrino.typeInput input = Neutrino.typeInput payload := funext same.typeInput
  rw [inputs] at collected
  simp only [payloadClaim, bind_ok, pure_ok, same.key plan]
  exact ⟨typed, collected, rfl⟩

/-! Prices. -/

/-- No effect takes its amount from the acceptance flag of a policy other than its own. -/
def OwnFlags (plan : CoordinationPlan) : Prop :=
  ∀ effect ∈ plan.effects, ∀ policy ∈ plan.attestations,
    splitOperand effect.amount = some (.ref ("accepted:" ++ policy.input)) →
      policy.input = effect.gatePolicy

instance (plan : CoordinationPlan) : Decidable (OwnFlags plan) :=
  inferInstanceAs (Decidable (∀ effect ∈ plan.effects, ∀ policy ∈ plan.attestations,
    splitOperand effect.amount = some (.ref ("accepted:" ++ policy.input)) →
      policy.input = effect.gatePolicy))

/-- The posting of an effect whose policies are all accepted. -/
def price (plan : CoordinationPlan) (payload : TransitionInput) (effect : PlanEffect) :
    Except Refusal (Posting Account) := do
  let base ← (foldComputes plan.computes payload.numeric).value
  resolvePosting (flagPolicies (fun _ => 1) plan.attestations base) payload.symbols effect

theorem resolveAmount_congr {id : String} {env other : Env}
    (same : ∀ name, splitOperand id = some (.ref name) → env[name]? = other[name]?) :
    resolveAmount id env = resolveAmount id other := by
  unfold resolveAmount
  cases split : splitOperand id with
  | none => rfl
  | some operand =>
      cases operand with
      | literal text => rfl
      | ref name => simp only [operandAmount, same name split]

/-- An accepted leg posts what it would with every policy accepted. -/
theorem resolvePosting_price {plan : CoordinationPlan} (ownFlags : OwnFlags plan)
    {input payload : TransitionInput} (same : SamePayload input payload) {env : Env}
    (evaluated : (transitionEnv plan input).value = .ok env) {effect : PlanEffect}
    (declared : effect ∈ plan.effects)
    (accepted : policyAccepted input effect.gatePolicy = true) :
    resolvePosting env input.symbols effect = price plan payload effect := by
  obtain ⟨base, folded, rfl⟩ := transitionEnv_ok evaluated
  rw [same.numeric] at folded
  have amount : resolveAmount effect.amount (seedAcceptance plan input base) =
      resolveAmount effect.amount (flagPolicies (fun _ => 1) plan.attestations base) := by
    apply resolveAmount_congr
    intro name reads
    rw [seedAcceptance_eq]
    by_cases flag : ∃ policy ∈ plan.attestations, name = "accepted:" ++ policy.input
    · obtain ⟨policy, listed, rfl⟩ := flag
      have known : isDeclaredPolicy plan.attestations policy.input = true := by
        rw [isDeclaredPolicy, List.any_eq_true]
        exact ⟨policy, listed, by simp⟩
      rw [flagPolicies_declared _ known, flagPolicies_declared _ known,
        ownFlags effect declared policy listed reads, accepted, if_pos rfl]
    · have other : ∀ policy ∈ plan.attestations, name ≠ "accepted:" ++ policy.input :=
        fun policy listed clash => flag ⟨policy, listed, clash⟩
      rw [flagPolicies_other _ other, flagPolicies_other _ other]
  simp only [price, folded, resolvePosting, amount, same.symbols]
  rfl

/-! Runs of one payload. -/

section Hash

variable {sha256Hex : List UInt8 → String} {raw : PlanInputs} {plan : CoordinationPlan}

/-- Where a run of a payload from `start` has come: the legs posted so far are those of the
committed groups at their prices, and the claim, if any, is the payload's. -/
structure Advanced (sha256Hex : List UInt8 → String) (plan : CoordinationPlan)
    (payload : TransitionInput) (start state : EvalState) (posted : List Pending) : Prop where
  others : ∀ key, key ≠ workflowKeyValue plan payload → state.record key = start.record key
  booked : postAll start.balances (posted.map (·.posting)) = some state.balances
  effects : (posted.map (·.effect)).Perm (plan.effects.filter fun effect =>
    effect.guardKey ∈ (state.record (workflowKeyValue plan payload)).groups)
  priced : ∀ leg ∈ posted, price plan payload leg.effect = .ok leg.posting
  claim : ∀ claim, (state.record (workflowKeyValue plan payload)).claim = some claim →
    payloadClaim sha256Hex plan payload = .ok claim

theorem Advanced.step (temporal : TemporalPlan raw plan) (ownFlags : OwnFlags plan)
    {payload input : TransitionInput} (same : SamePayload input payload)
    {start state : EvalState} {posted : List Pending}
    (advanced : Advanced sha256Hex plan payload start state posted) :
    ∃ more, Advanced sha256Hex plan payload start (nextState sha256Hex plan state input)
      (posted ++ more) := by
  rcases temporal.nextState_cases sha256Hex state input with
    idle | ⟨claim, env, infos, pending, record, commit⟩
  · rw [idle]
    exact ⟨[], by simpa using advanced⟩
  · have self : (nextState sha256Hex plan state input).record (workflowKeyValue plan payload) =
        record := by
      rw [← same.key plan]
      exact commit.store.record_self
    have legs : ∀ leg ∈ pending, leg.effect ∈ plan.effects ∧
        policyAccepted input leg.effect.gatePolicy = true := by
      intro leg listed
      have staged : leg.effect ∈ pending.map (·.effect) := List.mem_map_of_mem listed
      rw [commit.effects] at staged
      exact ⟨(commit.classified.leg temporal.assembled staged).1,
        temporal.committing_accepted commit.opens.evaluated commit.classified staged⟩
    refine ⟨pending, ?_, ?_, ?_, ?_, ?_⟩
    · intro key other
      rw [← advanced.others key other]
      exact commit.store.record_of_ne (by rwa [same.key plan])
    · rw [List.map_append]
      exact postAll_append.mpr ⟨_, advanced.booked, commit.store.posted⟩
    · rw [List.map_append, commit.effects]
      refine (advanced.effects.append_right _).trans ?_
      have disjoint : List.Disjoint (plan.effects.filter fun effect => effect.guardKey ∈
          (state.record (workflowKeyValue plan payload)).groups)
          ((infos.filter (·.committable)).flatMap fun info => groupEffects plan info.group) := by
        intro effect earlier now
        have fresh := (commit.classified.leg temporal.assembled now).2.2
        rw [same.key plan] at fresh
        exact fresh (by simpa using (List.mem_filter.mp earlier).2)
      rw [List.perm_ext_iff_of_nodup ((temporal.assembled.effects_nodup.filter _).append
        (commit.classified.legs_nodup temporal.assembled) disjoint)
        (temporal.assembled.effects_nodup.filter _)]
      intro effect
      rw [List.mem_append, commit.classified.mem_legs temporal.assembled, self, commit.groups,
        same.key plan]
      simp only [List.mem_filter, decide_eq_true_eq, Std.ExtTreeSet.mem_insertMany_list,
        List.contains_iff_mem]
      tauto
    · intro leg listed
      rcases List.mem_append.mp listed with earlier | now
      · exact advanced.priced leg earlier
      · obtain ⟨declared, accepted⟩ := legs leg now
        rw [← resolvePosting_price ownFlags same commit.opens.evaluated declared accepted]
        exact (commit.resolved leg now).2
    · intro established pinned
      rw [self, commit.claim] at pinned
      rw [← Option.some.inj pinned]
      exact same.claim commit.opens.admitted

theorem Advanced.start (sha256Hex : List UInt8 → String) {start : EvalState}
    (invariant : StateInvariant plan start)
    {payload : TransitionInput} (unseen : workflowKeyValue plan payload ∉ start.keyClaim) :
    Advanced sha256Hex plan payload start start [] := by
  have unclaimed : (start.record (workflowKeyValue plan payload)).claim = none := by
    simpa [EvalState.record] using unseen
  have none : (start.record (workflowKeyValue plan payload)).groups = ∅ := by
    by_contra some
    simpa [unclaimed] using (invariant _).partly some
  exact {
    others := fun _ _ => rfl
    booked := rfl
    effects := by simp [none]
    priced := by simp
    claim := by simp [unclaimed] }

theorem Advanced.run (temporal : TemporalPlan raw plan) (ownFlags : OwnFlags plan)
    {payload : TransitionInput} {start state : EvalState} {posted : List Pending}
    (advanced : Advanced sha256Hex plan payload start state posted)
    {inputs : List TransitionInput} (same : ∀ input ∈ inputs, SamePayload input payload) :
    ∃ posted, Advanced sha256Hex plan payload start
      (run (nextState sha256Hex plan) state inputs) posted := by
  refine run_preserves (fun state => ∃ posted, Advanced sha256Hex plan payload start state posted)
    ?_ ⟨posted, advanced⟩
  rintro state input listed ⟨posted, advanced⟩
  obtain ⟨more, further⟩ := advanced.step temporal ownFlags (same input listed)
  exact ⟨posted ++ more, further⟩

/-- A posted key of a temporal plan has the plan's groups committed. -/
theorem TemporalPlan.mem_groups (temporal : TemporalPlan raw plan) {record : KeyRecord}
    (invariant : KeyInvariant plan record) (posted : record.posted = true) (committed : String) :
    committed ∈ record.groups ↔ ∃ group ∈ plan.effectGroups, group.guardKey = committed := by
  constructor
  · exact invariant.known committed
  · rintro ⟨group, declared, rfl⟩
    exact (invariant.complete temporal.accepted temporal.isTemporal).mp posted group declared

/-- The record of a posted key is determined by its claim. -/
theorem TemporalPlan.record_unique (temporal : TemporalPlan raw plan) {first second : KeyRecord}
    (invariant : KeyInvariant plan first) (invariant' : KeyInvariant plan second)
    (posted : first.posted = true) (posted' : second.posted = true)
    (claims : first.claim = second.claim) : first = second := by
  have groups : first.groups = second.groups := by
    apply Std.ExtTreeSet.ext_mem
    intro committed
    rw [temporal.mem_groups invariant posted, temporal.mem_groups invariant' posted']
  have effectful : plan.effects ≠ [] := by
    intro none
    have isTemporal := temporal.isTemporal
    simp [Neutrino.isTemporal, none] at isTemporal
  obtain ⟨group, declared⟩ :=
    List.exists_mem_of_ne_nil _ (temporal.assembled.groups_nonempty effectful)
  have held : ∀ record : KeyRecord, KeyInvariant plan record → record.posted = true →
      record.committed = some record.groups := by
    intro record invariant posted
    have member := (temporal.mem_groups invariant posted _).mpr ⟨group, declared, rfl⟩
    unfold KeyRecord.groups at member ⊢
    cases found : record.committed with
    | none => simp [found] at member
    | some committed => rfl
  have statuses : ∀ record : KeyRecord, KeyInvariant plan record → record.posted = true →
      record.status = some plan.terminal.success := by
    intro record invariant posted
    have recorded := invariant.recorded
    rw [posted, eq_comm, Option.isSome_iff_exists] at recorded
    obtain ⟨status, found⟩ := recorded
    rw [found, invariant.status status found]
  have committed : first.committed = second.committed := by
    rw [held first invariant posted, held second invariant' posted', groups]
  have status : first.status = second.status := by
    rw [statuses first invariant posted, statuses second invariant' posted']
  cases first
  cases second
  simp_all

/-- Two completed runs of one payload end in one state. -/
theorem Advanced.unique (temporal : TemporalPlan raw plan) {payload : TransitionInput}
    {start left right : EvalState} {posted posted' : List Pending}
    (advanced : Advanced sha256Hex plan payload start left posted)
    (advanced' : Advanced sha256Hex plan payload start right posted')
    (invariant : StateInvariant plan left) (invariant' : StateInvariant plan right)
    (done : (left.record (workflowKeyValue plan payload)).posted = true)
    (done' : (right.record (workflowKeyValue plan payload)).posted = true) : left = right := by
  have claims : (left.record (workflowKeyValue plan payload)).claim =
      (right.record (workflowKeyValue plan payload)).claim := by
    obtain ⟨claim, found⟩ := Option.isSome_iff_exists.mp ((invariant _).posted done)
    obtain ⟨claim', found'⟩ := Option.isSome_iff_exists.mp ((invariant' _).posted done')
    have same := (advanced.claim claim found).symm.trans (advanced'.claim claim' found')
    rw [found, found', Except.ok.inj same]
  have own := temporal.record_unique (invariant _) (invariant' _) done done' claims
  have effects : (posted.map (·.effect)).Perm (posted'.map (·.effect)) := by
    have later := advanced'.effects.symm
    rw [← own] at later
    exact advanced.effects.trans later
  -- Both runs post each effect at its one price.
  have prices : ∀ legs : List Pending,
      (∀ leg ∈ legs, price plan payload leg.effect = .ok leg.posting) →
      (legs.map (·.effect)).map (price plan payload) = (legs.map (·.posting)).map .ok := by
    intro legs priced
    rw [List.map_map, List.map_map]
    exact List.map_congr_left priced
  have postings : (posted.map (·.posting)).Perm (posted'.map (·.posting)) := by
    have mapped := effects.map (price plan payload)
    rw [prices posted advanced.priced, prices posted' advanced'.priced] at mapped
    exact (List.map_perm_map_iff fun _ _ same => Except.ok.inj same).mp mapped
  apply EvalState.store_injective
  have balances : left.balances = right.balances :=
    postAll_perm postings advanced.booked advanced'.booked
  have records : left.record = right.record := by
    funext key
    by_cases same : key = workflowKeyValue plan payload
    · rw [same, own]
    · rw [advanced.others key same, advanced'.others key same]
  simp only [EvalState.store, balances, records]

/-- Every group of the plan has committed under the key. -/
def AllCommitted (plan : CoordinationPlan) (state : EvalState) (key : String) : Prop :=
  ∀ group ∈ plan.effectGroups, group.guardKey ∈ committedSoFar state key

theorem TemporalPlan.terminal_iff (temporal : TemporalPlan raw plan) {state : EvalState}
    (invariant : StateInvariant plan state) (input : TransitionInput) :
    (evaluateTransition sha256Hex plan state input).outcome = .terminal ↔
      ¬AllCommitted plan state (workflowKeyValue plan input) ∧
      AllCommitted plan (nextState sha256Hex plan state input) (workflowKeyValue plan input) := by
  have complete : ∀ state, StateInvariant plan state → ∀ key,
      (state.record key).posted = true ↔ AllCommitted plan state key := fun state invariant key =>
    (invariant key).complete temporal.accepted temporal.isTemporal
  have idempotent := temporal.assembled.idempotent
  rw [terminal_iff_posts idempotent, ← Bool.not_eq_true, complete state invariant,
    complete _ (stateInvariant_step idempotent state input invariant)]

/-- Acceptance-order independence: from a state that has not seen its key, a run of one payload
is terminal exactly at the transition that commits the last group, and, when no amount reads
another policy's flag, all runs that post the key end in one state. -/
theorem acceptance_order_independence (sha256Hex : List UInt8 → String) {raw : PlanInputs}
    {plan : CoordinationPlan} (accepted : assemblePlan raw = .ok plan)
    (builder : FromBuilder raw) (suppressed : coordinationIsTemporal plan = true)
    {start : EvalState} (reached : Reachable (nextState sha256Hex plan) EvalState.empty start)
    {payload : TransitionInput} (unseen : workflowKeyValue plan payload ∉ start.keyClaim) :
    (∀ inputs, (∀ input ∈ inputs, SamePayload input payload) →
      ∀ visit ∈ visits (nextState sha256Hex plan) start inputs,
        ((evaluateTransition sha256Hex plan visit.1 visit.2).outcome = .terminal ↔
          ¬AllCommitted plan visit.1 (workflowKeyValue plan payload) ∧
          AllCommitted plan (nextState sha256Hex plan visit.1 visit.2)
            (workflowKeyValue plan payload))) ∧
    (OwnFlags plan → ∀ left right,
      (∀ input ∈ left, SamePayload input payload) →
      (∀ input ∈ right, SamePayload input payload) →
      workflowKeyValue plan payload ∈ (run (nextState sha256Hex plan) start left).postedKeys →
      workflowKeyValue plan payload ∈ (run (nextState sha256Hex plan) start right).postedKeys →
      run (nextState sha256Hex plan) start left = run (nextState sha256Hex plan) start right) := by
  have temporal : TemporalPlan raw plan := ⟨assemblePlan_ok accepted, builder, suppressed⟩
  have idempotent := temporal.assembled.idempotent
  have invariant : StateInvariant plan start := reachable_stateInvariant temporal.assembled reached
  constructor
  · intro inputs same visit visited
    have here : StateInvariant plan visit.1 :=
      visits_invariant (StateInvariant plan) (stateInvariant_step idempotent) invariant visited
    have listed : visit.2 ∈ inputs := by
      rw [← visits_snd (nextState sha256Hex plan) start inputs]
      exact List.mem_map_of_mem visited
    rw [← (same visit.2 listed).key plan]
    exact temporal.terminal_iff here visit.2
  · intro ownFlags left right leftSame rightSame leftDone rightDone
    obtain ⟨posted, advanced⟩ :=
      (Advanced.start sha256Hex invariant unseen).run temporal ownFlags leftSame
    obtain ⟨posted', advanced'⟩ :=
      (Advanced.start sha256Hex invariant unseen).run temporal ownFlags rightSame
    have kept : ∀ inputs, StateInvariant plan (Run.run (nextState sha256Hex plan) start inputs) :=
      fun inputs => reachable_stateInvariant temporal.assembled (reachable_run _ reached inputs)
    exact advanced.unique temporal advanced' (kept left) (kept right)
      (Std.ExtTreeSet.contains_iff_mem.mpr leftDone)
      (Std.ExtTreeSet.contains_iff_mem.mpr rightDone)

end Hash

/-- The payment and the fee accepted one by one, and together. -/
theorem acceptance_order_independence_sample :
    run (nextState sampleHash samplePlan) EvalState.empty
        [sampleInput "t-1" false true, sampleInput "t-1" true false] =
      run (nextState sampleHash samplePlan) EvalState.empty [sampleInput "t-1" true true] :=
  (acceptance_order_independence sampleHash samplePlan_accepted sampleInputs_fromBuilder
      (by decide) (reachable_start _ _)
      (show workflowKeyValue samplePlan (sampleInput "t-1" true true) ∉
        EvalState.empty.keyClaim by simp [EvalState.empty])).2
    (by decide +kernel) _ _
    (by
      intro input listed
      simp only [List.mem_cons, List.not_mem_nil, or_false] at listed
      rcases listed with rfl | rfl <;> exact ⟨rfl, rfl⟩)
    (by
      intro input listed
      rw [List.mem_singleton.mp listed]
      exact ⟨rfl, rfl⟩)
    (by decide +kernel) (by decide +kernel)

/-! A payment whose amount is the flag of the fee's policy: what it moves depends on whether
that policy is accepted when the payment commits. -/

def flaggedInputs : PlanInputs :=
  { sampleInputs with
    effects := sampleInputs.effects.map fun effect =>
      if effect.guardAcceptedInput = "alpha" then
        { effect with amount := "ref:accepted:beta" }
      else effect }

def flaggedPlan : CoordinationPlan := ((assemblePlan flaggedInputs).toOption).getD default

/-- The seller's balance after a run. -/
def flaggedReceipt (inputs : List TransitionInput) : Int :=
  (balance (run (nextState sampleHash flaggedPlan) EvalState.empty inputs).balances
    ⟨"cash", "seller", "EUR"⟩).toInt

theorem acceptance_order_matters :
    assemblePlan flaggedInputs = .ok flaggedPlan ∧ FromBuilder flaggedInputs ∧
    coordinationIsTemporal flaggedPlan = true ∧
    "t-1" ∈ (run (nextState sampleHash flaggedPlan) EvalState.empty
      [sampleInput "t-1" true false, sampleInput "t-1" true true]).postedKeys ∧
    "t-1" ∈ (run (nextState sampleHash flaggedPlan) EvalState.empty
      [sampleInput "t-1" true true]).postedKeys ∧
    flaggedReceipt [sampleInput "t-1" true false, sampleInput "t-1" true true] = 0 ∧
    flaggedReceipt [sampleInput "t-1" true true] = 1 := by
  refine ⟨rfl, ?_, by decide, ?_, ?_, ?_, ?_⟩
  · intro effect declared
    obtain ⟨leg, listed, rfl⟩ := List.mem_map.mp declared
    have promised := sampleInputs_fromBuilder leg listed
    split <;> exact promised
  all_goals decide +kernel

end Neutrino
