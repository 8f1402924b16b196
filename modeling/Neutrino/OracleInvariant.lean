import Neutrino.KeyRecord
import Neutrino.Library.Run
import Neutrino.PlanShape
import Neutrino.RefusalCode

/-! What every state reachable from the empty one holds about each workflow key. -/

namespace Neutrino

open Checked Ledger KeyedStore Run

/-- The record of one key in a reachable state. -/
structure KeyInvariant (plan : CoordinationPlan) (record : KeyRecord) : Prop where
  recorded : record.posted = record.status.isSome
  status : ∀ status, record.status = some status → status = plan.terminal.success
  posted : record.posted = true → record.claim.isSome
  partly : record.groups ≠ ∅ → record.claim.isSome
  known : ∀ committed ∈ record.groups, ∃ group ∈ plan.effectGroups, group.guardKey = committed
  complete : (∀ effect ∈ plan.effects, AcceptedEffect effect) → isTemporal plan = true →
    (record.posted = true ↔ ∀ group ∈ plan.effectGroups, group.guardKey ∈ record.groups)

/-! One commit. -/

section Step

variable {plan : CoordinationPlan} {env : Env} {record : KeyRecord} {infos : List GroupInfo}

theorem Classified.info (classified : Classified plan env record infos) {info : GroupInfo}
    (listed : info ∈ infos) : ∃ group ∈ plan.effectGroups,
      classifyGroup plan env record.groups group = .ok info :=
  collect_mem_result classified.classified listed

theorem Classified.info_known (classified : Classified plan env record infos)
    {info : GroupInfo} (listed : info ∈ infos) :
    ∃ group ∈ plan.effectGroups, group.guardKey = info.group.guardKey := by
  obtain ⟨group, present, built⟩ := classified.info listed
  exact ⟨group, present, by rw [(classifyGroup_ok built).1]⟩

theorem Classified.committing_known (classified : Classified plan env record infos) :
    ∀ committed ∈ committingGroups infos,
      ∃ group ∈ plan.effectGroups, group.guardKey = committed := by
  intro committed listed
  simp only [committingGroups, List.mem_map, List.mem_filter] at listed
  obtain ⟨info, ⟨present, _⟩, rfl⟩ := listed
  exact classified.info_known present

theorem Classified.required_known (classified : Classified plan env record infos) :
    ∀ required ∈ requiredGroups infos,
      ∃ group ∈ plan.effectGroups, group.guardKey = required := by
  intro required listed
  simp only [requiredGroups, List.mem_map, List.mem_filter] at listed
  obtain ⟨info, ⟨present, _⟩, rfl⟩ := listed
  exact classified.info_known present

theorem groupGuard_accepted (accepted : ∀ effect ∈ plan.effects, AcceptedEffect effect)
    (group : PlanEffectGroup) : (groupGuard plan group).all isAcceptedGuard = true := by
  unfold groupGuard
  cases found : plan.effects[group.firstIndex]? with
  | none => rfl
  | some effect =>
      obtain ⟨input, dtype, category, guard, _⟩ := accepted effect (List.mem_of_getElem? found)
      simp [guard, isAcceptedGuard]

/-- When every effect has an `accepted` guard, a terminal waits for every group. -/
theorem Classified.all_required (classified : Classified plan env record infos)
    (accepted : ∀ effect ∈ plan.effects, AcceptedEffect effect) :
    ∀ group ∈ plan.effectGroups, group.guardKey ∈ requiredGroups infos := by
  intro group declared
  obtain ⟨info, listed, built⟩ := collect_mem classified.classified declared
  obtain ⟨same, guard, _⟩ := classifyGroup_ok built
  simp only [requiredGroups, List.mem_map, List.mem_filter]
  refine ⟨info, ⟨listed, ?_⟩, by rw [same]⟩
  rw [guard, groupGuard_accepted accepted group, Bool.true_or]

theorem commit_known (invariant : KeyInvariant plan record)
    (classified : Classified plan env record infos) :
    ∀ committed ∈ record.groups.insertMany (committingGroups infos),
      ∃ group ∈ plan.effectGroups, group.guardKey = committed := by
  intro committed listed
  rw [Std.ExtTreeSet.mem_insertMany_list] at listed
  rcases listed with earlier | now
  · exact invariant.known committed earlier
  · exact classified.committing_known committed (by simpa using now)

/-- A commit on an open key keeps the invariant of its record. -/
theorem RecordStep.invariant {claim : String} {next : KeyRecord}
    (step : RecordStep plan env record claim next) (invariant : KeyInvariant plan record)
    (unposted : record.posted = false) : KeyInvariant plan next := by
  cases step with
  | single single =>
      exact {
        recorded := rfl
        status := by simp
        posted := by simp
        partly := by simp
        known := invariant.known
        complete := by simp [single] }
  | progress classified some pending =>
      exact {
        recorded := invariant.recorded
        status := invariant.status
        posted := by simp
        partly := by simp
        known := fun committed listed => commit_known invariant classified committed listed
        complete := by
          intro _ _
          obtain ⟨required, listed, absent⟩ := pending
          obtain ⟨group, declared, same⟩ := classified.required_known required listed
          simp only [KeyRecord.commit_posted, KeyRecord.pin_posted, unposted,
            KeyRecord.commit_groups, KeyRecord.pin_groups, Bool.false_eq_true, false_iff]
          exact fun all => absent (same ▸ all group declared) }
  | terminal classified some done =>
      exact {
        recorded := rfl
        status := by simp
        posted := by simp
        partly := by simp
        known := fun committed listed => commit_known invariant classified committed listed
        complete := by
          intro accepted _
          simp only [KeyRecord.close_posted, KeyRecord.close_groups, KeyRecord.commit_groups,
            KeyRecord.pin_groups, true_iff]
          exact fun group declared =>
            done group.guardKey (classified.all_required accepted group declared) }

end Step

/-! Runs. -/

section Hash

variable {sha256Hex : List UInt8 → String}

def StateInvariant (plan : CoordinationPlan) (state : EvalState) : Prop :=
  ∀ key, KeyInvariant plan (state.record key)

theorem stateInvariant_empty {plan : CoordinationPlan}
    (covered : plan.effects ≠ [] → plan.effectGroups ≠ []) :
    StateInvariant plan EvalState.empty := by
  intro key
  have record : EvalState.empty.record key = ⟨false, none, none, none⟩ := by
    simp [EvalState.record, EvalState.empty]
  rw [record]
  exact {
    recorded := rfl
    status := by simp
    posted := by simp
    partly := by simp [KeyRecord.groups]
    known := by simp [KeyRecord.groups]
    complete := by
      intro _ temporal
      have effectful : plan.effects ≠ [] := by
        intro none
        simp [isTemporal, none] at temporal
      obtain ⟨group, declared⟩ := List.exists_mem_of_ne_nil _ (covered effectful)
      simp only [KeyRecord.groups, Option.getD_none, Bool.false_eq_true, false_iff]
      exact fun all => Std.ExtTreeSet.not_mem_empty (all group declared) }

/-- What a step does to the store: nothing, or one commit on an open key. -/
theorem nextState_commits (sha256Hex : List UInt8 → String) {plan : CoordinationPlan}
    (idempotent : plan.replay.idempotent = true) (state : EvalState)
    (input : TransitionInput) :
    nextState sha256Hex plan state input = state ∨ ∃ settled key claim env record,
      (settle sha256Hex plan state input).value = .ok settled ∧
      nextState sha256Hex plan state input = settled.next ∧
      CommitsTo sha256Hex plan state input key claim env record settled := by
  rcases nextState_cases sha256Hex plan state input with
    same | ⟨settled, decided, settles, next⟩
  · exact .inl same
  · rcases settles_cases idempotent settles with idle | ⟨key, claim, env, record, commits⟩
    · exact .inl (by rw [next, idle.next])
    · exact .inr ⟨settled, key, claim, env, record, decided, next, commits⟩

theorem stateInvariant_step {plan : CoordinationPlan}
    (idempotent : plan.replay.idempotent = true) (state : EvalState)
    (input : TransitionInput) (invariant : StateInvariant plan state) :
    StateInvariant plan (nextState sha256Hex plan state input) := by
  rcases nextState_commits sha256Hex idempotent state input with
    same | ⟨settled, key, claim, env, record, _, next, commits⟩
  · rw [same]
    exact invariant
  · rw [next]
    have new := commits.step.invariant (invariant key) (commits.opens.unposted idempotent)
    exact commits.store.forall_records (fun _ => KeyInvariant plan) invariant new

theorem Assembled.groups_nonempty {raw : PlanInputs} {plan : CoordinationPlan}
    (assembled : Assembled raw plan) (effectful : plan.effects ≠ []) :
    plan.effectGroups ≠ [] := by
  obtain ⟨effect, declared⟩ := List.exists_mem_of_ne_nil _ effectful
  obtain ⟨group, listed, _⟩ := assembled.partition.covers effect declared
  exact List.ne_nil_of_mem listed

/-- Every state reachable under an assembled plan satisfies the invariant. -/
theorem reachable_stateInvariant {raw : PlanInputs} {plan : CoordinationPlan}
    (assembled : Assembled raw plan) {state : EvalState}
    (reached : Reachable (nextState sha256Hex plan) EvalState.empty state) :
    StateInvariant plan state :=
  reachable_invariant (StateInvariant plan) (stateInvariant_step assembled.idempotent)
    (stateInvariant_empty assembled.groups_nonempty) reached

/-- A reachable state never looks inconsistent to the evaluator. -/
theorem StateInvariant.consistent {plan : CoordinationPlan} {state : EvalState}
    (invariant : StateInvariant plan state) (terminal : plan.terminal.success ≠ "")
    (key : String) : ¬InconsistentKey plan state key := by
  have here := invariant key
  rintro (⟨posted, unclaimed | open'⟩ | broken)
  · have claimed := here.posted (by simpa [EvalState.record] using posted)
    simp only [EvalState.record, ← Std.ExtTreeMap.mem_iff_isSome_getElem?] at claimed
    exact unclaimed claimed
  · have recorded := here.recorded
    have posted' : (state.record key).posted = true := by simpa [EvalState.record] using posted
    rw [posted', eq_comm, Option.isSome_iff_exists] at recorded
    obtain ⟨status, found⟩ := recorded
    have success := here.status status found
    simp only [EvalState.record] at found
    rw [found, Option.getD_some, success] at open'
    exact terminal open'
  · have groups : committedSoFar state key = (state.record key).groups := rfl
    simp only [ledgerConsistent, groups, Bool.or_eq_false_iff, Bool.and_eq_false_iff] at broken
    obtain ⟨nonempty, unclaimed | unknown⟩ := broken
    · have claimed := here.partly (by
        intro none
        simp [none] at nonempty)
      rw [← Std.ExtTreeMap.isSome_getElem?_eq_contains] at unclaimed
      rw [show (state.record key).claim = state.keyClaim[key]? from rfl, unclaimed] at claimed
      exact Bool.false_ne_true claimed
    · rw [List.all_eq_false] at unknown
      obtain ⟨committed, listed, missing⟩ := unknown
      obtain ⟨group, declared, same⟩ := here.known committed (by simpa using listed)
      apply missing
      rw [List.any_eq_true]
      exact ⟨group, declared, by simpa using same⟩

theorem consistent_refusalCode {plan : CoordinationPlan} {state : EvalState}
    {input : TransitionInput} (consistent : ∀ key, ¬InconsistentKey plan state key) :
    (evaluateTransition sha256Hex plan state input).refusalCode ≠ "state.invalid" := by
  cases decided : (settle sha256Hex plan state input).value with
  | ok settled =>
      rw [evaluateTransition_settled decided]
      simp
  | error refusal =>
      rw [evaluateTransition_refused decided]
      rcases settle_error decided with listed | ⟨_, key, broken⟩
      · intro invalid
        change refusal.code = "state.invalid" at invalid
        rw [invalid] at listed
        revert listed
        decide
      · exact absurd broken (consistent key)

theorem Assembled.isTemporal_of_gate {raw : PlanInputs} {plan : CoordinationPlan}
    (assembled : Assembled raw plan) (builder : FromBuilder raw)
    (temporal : coordinationIsTemporal plan = true) : isTemporal plan = true := by
  have accepted := assembled.accepted_effects builder temporal
  simp only [coordinationIsTemporal, List.any_eq_true] at temporal
  obtain ⟨effect, declared, _⟩ := temporal
  obtain ⟨input, dtype, category, guard, _⟩ := accepted effect declared
  simp only [isTemporal, List.any_eq_true]
  exact ⟨effect, declared, by simp [guard, isAcceptedGuard]⟩

end Hash

/-- The oracle's invariant: posted keys are those with a status, which is the success terminal;
a posted or partly committed key has its claim; committed groups are groups of the plan; a
temporal key is posted exactly when every group has committed; and no transition finds the
state invalid. -/
theorem reachable_oracle_invariant (sha256Hex : List UInt8 → String) {raw : PlanInputs}
    {plan : CoordinationPlan} (accepted : assemblePlan raw = .ok plan)
    (terminal : plan.terminal.success ≠ "") {state : EvalState}
    (reached : Reachable (nextState sha256Hex plan) EvalState.empty state) :
    (∀ key, key ∈ state.postedKeys ↔ key ∈ state.keyStatus) ∧
    (∀ key status : String, state.keyStatus[key]? = some status →
      status = plan.terminal.success) ∧
    (∀ key ∈ state.postedKeys, key ∈ state.keyClaim) ∧
    (∀ key, committedSoFar state key ≠ ∅ → key ∈ state.keyClaim) ∧
    (∀ key, ∀ committed ∈ committedSoFar state key,
      ∃ group ∈ plan.effectGroups, group.guardKey = committed) ∧
    (FromBuilder raw → coordinationIsTemporal plan = true → ∀ key,
      key ∈ state.postedKeys ↔
        ∀ group ∈ plan.effectGroups, group.guardKey ∈ committedSoFar state key) ∧
    ∀ input, (evaluateTransition sha256Hex plan state input).refusalCode ≠
      "state.invalid" := by
  have assembled := assemblePlan_ok accepted
  have invariant := reachable_stateInvariant assembled reached
  have posted : ∀ key, (state.record key).posted = true ↔ key ∈ state.postedKeys := fun key =>
    Std.ExtTreeSet.contains_iff_mem
  have claimed : ∀ key, (state.record key).claim.isSome = true ↔ key ∈ state.keyClaim :=
    fun key => Std.ExtTreeMap.mem_iff_isSome_getElem?.symm
  refine ⟨?_, ?_, ?_, ?_, ?_, ?_, ?_⟩
  · intro key
    rw [← posted, (invariant key).recorded]
    exact Std.ExtTreeMap.mem_iff_isSome_getElem?.symm
  · exact fun key => (invariant key).status
  · exact fun key listed => (claimed key).mp ((invariant key).posted ((posted key).mpr listed))
  · exact fun key some => (claimed key).mp ((invariant key).partly some)
  · exact fun key => (invariant key).known
  · intro builder temporal key
    rw [← posted]
    exact (invariant key).complete (assembled.accepted_effects builder temporal)
      (assembled.isTemporal_of_gate builder temporal)
  · exact fun input => consistent_refusalCode (invariant.consistent terminal)

/-! A trade settled in two temporal groups: payment once `alpha` accepts, a fee once `beta`
does. -/

def samplePolicy (input : String) : AttestationPolicy where
  input := input
  quorum := 2
  observerSet := "observers"
  observerRole := ""
  assurance := ""
  independence := ""
  canonicalization := "exact"
  tolerance := ""
  timeout := ""
  fallback := "abort"

def sampleLeg (name kind party policy : String) : PlanEffectInput where
  name := name
  kind := kind
  participant := ""
  idempotencyKind := "ref"
  idempotencyValue := "trade"
  canonicalGuard := "accepted(" ++ policy ++ ")"
  guardAcceptedInput := policy
  amount := "ref:amount"
  currency := "literal:EUR"
  ledger := "cash"
  party := "literal:" ++ party
  memo := ""
  guard := some (.call "accepted" [.var policy .evidence] .extension)

def sampleInputs : PlanInputs where
  procedure := "settle_trade"
  invokedEvent := ""
  inputs := [⟨"trade", "string"⟩, ⟨"amount", "money"⟩, ⟨"alpha", "evidence"⟩,
    ⟨"beta", "evidence"⟩]
  participants := []
  allowedOrgPairs := []
  effects := [sampleLeg "pay" "debit" "buyer" "alpha",
    sampleLeg "receive" "credit" "seller" "alpha", sampleLeg "fee_out" "debit" "buyer" "beta",
    sampleLeg "fee_in" "credit" "venue" "beta"]
  computes := []
  attestations := [samplePolicy "alpha", samplePolicy "beta"]
  balanced := true
  terminal := ⟨"settled", "", ""⟩
  lifecycleInitialState := "open"
  lifecycleStates := ["open", "settled"]
  lifecycleTransitions := []
  obligations := []
  explicitInstanceKey := ""

def samplePlan : CoordinationPlan := ((assemblePlan sampleInputs).toOption).getD default

def sampleInput (trade : String) (alpha beta : Bool) : TransitionInput where
  numeric := .ofList [("amount", (70 : Int64))]
  symbols := .ofList [("trade", trade), ("alpha", "a"), ("beta", "b")]
  attestations := .ofList [("alpha", alpha), ("beta", beta)]
  authorized := true

theorem samplePlan_accepted : assemblePlan sampleInputs = .ok samplePlan := rfl

theorem sampleInputs_fromBuilder : FromBuilder sampleInputs := by
  intro effect declared
  simp only [sampleInputs, List.mem_cons, List.not_mem_nil, or_false] at declared
  rcases declared with rfl | rfl | rfl | rfl <;> rfl

/-- A polynomial hash, for evaluation. -/
def sampleHash (bytes : List UInt8) : String :=
  toString (bytes.foldl (fun hash byte => (hash * 257 + byte.toNat + 1) % (2 ^ 61 - 1)) 0)

/-- The state after a payment whose fee is still pending. -/
def samplePaid : EvalState :=
  run (nextState sampleHash samplePlan) EvalState.empty [sampleInput "t-1" true false]

/-- The paid key is posted exactly when both groups have committed. -/
theorem reachable_oracle_invariant_sample :
    ("t-1" ∈ samplePaid.postedKeys ↔
      ∀ group ∈ samplePlan.effectGroups, group.guardKey ∈ committedSoFar samplePaid "t-1") ∧
    (evaluateTransition sampleHash samplePlan samplePaid
      (sampleInput "t-1" true true)).refusalCode ≠ "state.invalid" := by
  have invariant := reachable_oracle_invariant sampleHash samplePlan_accepted (by decide)
    (show Reachable _ EvalState.empty samplePaid from ⟨_, rfl⟩)
  exact ⟨invariant.2.2.2.2.2.1 sampleInputs_fromBuilder (by decide) "t-1",
    invariant.2.2.2.2.2.2 _⟩

end Neutrino
