import Neutrino.GroupShape

/-! Over any run, each effect posts at most once under each workflow key, and the balances are
the sum of the deltas the committing transitions emit. -/

namespace Neutrino

open Checked Ledger KeyedStore Run

/-- The delta a trace observation posts to an account. -/
def Observation.deltaTo (account : Account) : Observation → Int
  | .ledgerDelta _ ledger party currency delta =>
      if ⟨ledger, party, currency⟩ = account then delta.toInt else 0
  | _ => 0

/-- The sum of the deltas a trace posts to an account. -/
def traceDelta (account : Account) (trace : List Observation) : Int :=
  ((trace.filter Observation.isLedgerDelta).map (·.deltaTo account)).sum

theorem netWhere_pending (account : Account) (pending : List Pending) :
    netWhere (fun key => key = account) (pending.map (·.posting)) =
      ((pending.map ledgerDelta).map (·.deltaTo account)).sum := by
  induction pending with
  | nil => rfl
  | cons leg rest ih =>
      simp only [List.map_cons, List.sum_cons, netWhere_cons, ih, ledgerDelta,
        Observation.deltaTo, decide_eq_true_eq]

section Step

variable {sha256Hex : List UInt8 → String} {plan : CoordinationPlan}

theorem balance_nextState (idempotent : plan.replay.idempotent = true) (state : EvalState)
    (input : TransitionInput) (account : Account) :
    (balance (nextState sha256Hex plan state input).balances account).toInt =
      (balance state.balances account).toInt +
        traceDelta account (evaluateTransition sha256Hex plan state input).trace := by
  rw [traceDelta, trace_deltas, ← netWhere_pending]
  unfold postedLegs nextState
  cases decided : (settle sha256Hex plan state input).value with
  | error refusal => simp [evaluateTransition_refused decided]
  | ok settled =>
      rw [evaluateTransition_settled decided]
      rcases settles_cases idempotent (settle_ok decided) with
        idle | ⟨key, claim, env, record, commits⟩
      · simp [idle.next, idle.pending]
      · exact commits.store.balance account

/-- A spent effect stays spent. -/
theorem spent_nextState (idempotent : plan.replay.idempotent = true) {state : EvalState}
    {input : TransitionInput} {key : String} {effect : PlanEffect}
    (spent : Spent plan (state.record key) effect) :
    Spent plan ((nextState sha256Hex plan state input).record key) effect := by
  rcases nextState_commits sha256Hex idempotent state input with
    same | ⟨settled, own, claim, env, record, _, next, commits⟩
  · rwa [same]
  · rw [next]
    by_cases other : key = own
    · subst other
      have unposted := commits.opens.unposted idempotent
      have grouped : isTemporal plan = true ∧ effect.guardKey ∈ (state.record key).groups := by
        simpa [Spent, unposted] using spent
      have self : settled.next.record key = record := commits.store.record_self
      rw [self]
      cases commits.step with
      | single single => simp [grouped.1] at single
      | progress => exact .inr ⟨grouped.1, Std.ExtTreeSet.mem_insertMany_list.mpr
          (.inl grouped.2)⟩
      | terminal => exact .inl rfl
    · have same : settled.next.record key = state.record key :=
        commits.store.record_of_ne other
      rwa [same]

end Step

section Hash

variable (sha256Hex : List UInt8 → String)

/-- The transition has the key and posts a leg of the effect. -/
def EmitsDelta (plan : CoordinationPlan) (key : String) (effect : PlanEffect)
    (state : EvalState) (input : TransitionInput) : Prop :=
  workflowKeyValue plan input = key ∧
    ∃ leg ∈ postedLegs sha256Hex plan state input, leg.effect.index = effect.index

instance (plan : CoordinationPlan) (key : String) (effect : PlanEffect) (state : EvalState)
    (input : TransitionInput) : Decidable (EmitsDelta sha256Hex plan key effect state input) :=
  inferInstanceAs (Decidable (_ ∧ _))

variable {sha256Hex}

theorem EmitsDelta.spends {raw : PlanInputs} {plan : CoordinationPlan}
    (assembled : Assembled raw plan) {key : String} {effect : PlanEffect}
    (declared : effect ∈ plan.effects) {state : EvalState} {input : TransitionInput}
    (emits : EmitsDelta sha256Hex plan key effect state input) :
    ¬Spent plan (state.record key) effect ∧
      Spent plan ((nextState sha256Hex plan state input).record key) effect := by
  obtain ⟨rfl, leg, listed, index⟩ := emits
  unfold postedLegs at listed
  cases decided : (settle sha256Hex plan state input).value with
  | error refusal => simp [decided] at listed
  | ok settled =>
      rw [decided] at listed
      obtain ⟨inPlan, before, after⟩ := (settle_ok decided).posts assembled listed
      have same := assembled.index_injective inPlan declared index
      have next : nextState sha256Hex plan state input = settled.next := by
        rw [nextState, evaluateTransition_settled decided]
      rw [next, ← same]
      exact ⟨before, after⟩

/-- Exactly-once posting: a trace's deltas are those of the legs posted, no two transitions of
a run post the same effect under the same key, and every balance is the sum of the deltas that
the committing transitions emit. -/
theorem exactly_once_posting {raw : PlanInputs} {plan : CoordinationPlan}
    (accepted : assemblePlan raw = .ok plan) (inputs : List TransitionInput) :
    (∀ state input, (evaluateTransition sha256Hex plan state input).trace.filter
        Observation.isLedgerDelta = (postedLegs sha256Hex plan state input).map ledgerDelta) ∧
    (∀ key, ∀ effect ∈ plan.effects,
      ((visits (nextState sha256Hex plan) EvalState.empty inputs).filter fun visit =>
        EmitsDelta sha256Hex plan key effect visit.1 visit.2).length ≤ 1) ∧
    ∀ account,
      (balance (run (nextState sha256Hex plan) EvalState.empty inputs).balances account).toInt =
        (((visits (nextState sha256Hex plan) EvalState.empty inputs).filter fun visit =>
          (evaluateTransition sha256Hex plan visit.1 visit.2).commits).map fun visit =>
            traceDelta account (evaluateTransition sha256Hex plan visit.1 visit.2).trace).sum := by
  have assembled := assemblePlan_ok accepted
  refine ⟨trace_deltas sha256Hex plan, ?_, ?_⟩
  · intro key effect declared
    exact at_most_once (nextState sha256Hex plan) (EmitsDelta sha256Hex plan key effect)
      (fun state => Spent plan (state.record key) effect)
      (fun _ _ emits => (emits.spends assembled declared).1)
      (fun _ _ emits => (emits.spends assembled declared).2)
      (fun _ _ spent => spent_nextState assembled.idempotent spent) EvalState.empty inputs
  · intro account
    have total := run_total (nextState sha256Hex plan)
      (fun state => (balance state.balances account).toInt)
      (fun state input => traceDelta account (evaluateTransition sha256Hex plan state input).trace)
      (fun state input => (evaluateTransition sha256Hex plan state input).commits)
      (fun state input => balance_nextState assembled.idempotent state input account)
      (fun state input idle => by
        rcases transition_cases sha256Hex assembled.idempotent state input with
          ⟨_, _, none⟩ | ⟨_, _, _, _, _, commits, _⟩
        · simp [traceDelta, trace_deltas, none]
        · simp [commits] at idle)
      EvalState.empty inputs
    have start : balance EvalState.empty.balances account = 0 := balance_empty account
    rw [total, start, Int64.toInt_zero, Int.zero_add]

end Hash

/-- A payment, the fee, and a replay of the fee. -/
def sampleRun : List TransitionInput :=
  [sampleInput "t-1" true false, sampleInput "t-1" true true, sampleInput "t-1" true true]

theorem exactly_once_posting_sample :
    ((visits (nextState sampleHash samplePlan) EvalState.empty sampleRun).filter fun visit =>
      EmitsDelta sampleHash samplePlan "t-1" samplePlan.effects[0] visit.1 visit.2).length ≤ 1 ∧
    (balance (run (nextState sampleHash samplePlan) EvalState.empty sampleRun).balances
      ⟨"cash", "seller", "EUR"⟩).toInt =
      (((visits (nextState sampleHash samplePlan) EvalState.empty sampleRun).filter fun visit =>
        (evaluateTransition sampleHash samplePlan visit.1 visit.2).commits).map fun visit =>
          traceDelta ⟨"cash", "seller", "EUR"⟩
            (evaluateTransition sampleHash samplePlan visit.1 visit.2).trace).sum := by
  obtain ⟨_, once, total⟩ := exactly_once_posting samplePlan_accepted sampleRun
  exact ⟨once "t-1" _ (List.getElem_mem _), total _⟩

end Neutrino
