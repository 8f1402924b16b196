import Neutrino.GroupShape

/-! Transitions of different workflow keys: neither touches the other's record, and the two
commute. -/

namespace Neutrino

open Checked Ledger KeyedStore Run

/-! Staging on other balances: the legs are the same, unless a sum overflows. -/

def Overflows (refusal : Refusal) : Prop := refusal.code = "balance.overflow"

def SameLegs (first second : List Pending × Balances Account) : Prop := first.1 = second.1

theorem stagePosting_agrees (staged other : Balances Account) (effect : PlanEffect)
    (posting : Posting Account) :
    Agrees Overflows (fun _ _ => True) (stagePosting staged effect posting)
      (stagePosting other effect posting) := by
  unfold stagePosting
  cases post staged posting with
  | none => exact .left _ rfl
  | some posted =>
      cases post other posting with
      | none => exact .right _ rfl
      | some posted => exact .ok trivial

theorem stageEffects_agrees (env : Env) (symbols : Std.ExtTreeMap String String)
    (effects : List PlanEffect) (staged other : Balances Account) :
    Agrees Overflows SameLegs (stageEffects env symbols effects staged)
      (stageEffects env symbols effects other) := by
  induction effects generalizing staged other with
  | nil => exact .ok rfl
  | cons effect rest ih =>
      refine .bind_same fun _ _ => .bind_same fun posting _ => ?_
      refine .bind (stagePosting_agrees staged other effect posting) fun posted posted' _ => ?_
      refine .bind (ih posted posted') ?_
      rintro ⟨pending, final⟩ ⟨pending', final'⟩ same
      replace same : pending = pending' := same
      subst same
      exact .ok rfl

theorem stageGroups_agrees (plan : CoordinationPlan) (env : Env)
    (symbols : Std.ExtTreeMap String String) (infos : List GroupInfo)
    (staged other : Balances Account) :
    Agrees Overflows SameLegs (stageGroups plan env symbols infos staged).value
      (stageGroups plan env symbols infos other).value := by
  induction infos generalizing staged other with
  | nil => exact .ok rfl
  | cons info rest ih =>
      simp only [stageGroups, Traced.bind_value]
      refine .bind_same fun _ _ => .bind (stageEffects_agrees _ _ _ staged other) ?_
      rintro ⟨pending, posted⟩ ⟨pending', posted'⟩ same
      replace same : pending = pending' := same
      subst same
      refine .bind (ih posted posted') ?_
      rintro ⟨later, final⟩ ⟨later', final'⟩ same
      replace same : later = later' := same
      subst same
      exact .ok rfl

theorem stageLegs_agrees (env : Env) (input : TransitionInput) (effects : List PlanEffect)
    (staged other : Balances Account) :
    Agrees Overflows SameLegs (stageLegs env input effects staged).value
      (stageLegs env input effects other).value := by
  induction effects generalizing staged other with
  | nil => exact .ok rfl
  | cons effect rest ih =>
      simp only [stageLegs, Traced.bind_value]
      refine .bind_same fun _ _ => .bind_same fun held _ => ?_
      cases held with
      | false => exact ih staged other
      | true =>
          simp only [if_true, Traced.bind_value]
          refine .bind_same fun _ _ => .bind_same fun posting _ => ?_
          refine .bind (stagePosting_agrees staged other effect posting)
            fun posted posted' _ => ?_
          refine .bind (ih posted posted') ?_
          rintro ⟨pending, final⟩ ⟨pending', final'⟩ same
          replace same : pending = pending' := same
          subst same
          exact .ok rfl

/-! A transition reads only the record of its own key. -/

/-- Settled with one outcome, the same legs and the same record of the key. -/
structure SettledAlike (key : String) (first second : Settled) : Prop where
  outcome : first.outcome = second.outcome
  pending : first.pending = second.pending
  record : first.next.record key = second.next.record key

section Hash

variable {sha256Hex : List UInt8 → String} {plan : CoordinationPlan}

theorem disposeGroups_alike {state other : EvalState} {key : String}
    (same : state.record key = other.record key) (claim : String) (infos : List GroupInfo)
    (pending : List Pending) (staged staged' : Balances Account) :
    SettledAlike key (disposeGroups plan state key claim infos pending staged)
      (disposeGroups plan other key claim infos pending staged') := by
  have groups : committedSoFar state key = committedSoFar other key :=
    congrArg KeyRecord.groups same
  simp only [disposeGroups, groups]
  split
  · exact ⟨rfl, rfl, same⟩
  · split
    · refine ⟨rfl, rfl, ?_⟩
      simp only [EvalState.record_close, EvalState.record_commitState, Function.update_self,
        same]
    · refine ⟨rfl, rfl, ?_⟩
      simp only [EvalState.record_commitState, Function.update_self, same]

theorem settleReplay_agrees {state other : EvalState} {key : String}
    (same : state.record key = other.record key) (claim : String) :
    Agrees Overflows (SettledAlike key) (settleReplay state key claim).value
      (settleReplay other key claim).value := by
  have claims : state.keyClaim[key]? = other.keyClaim[key]? := congrArg KeyRecord.claim same
  have statuses : state.keyStatus[key]? = other.keyStatus[key]? :=
    congrArg KeyRecord.status same
  have contained : state.keyClaim.contains key = other.keyClaim.contains key := by
    simp only [← Std.ExtTreeMap.isSome_getElem?_eq_contains, claims]
  simp only [settleReplay, Traced.bind_value, claims, statuses, contained]
  exact .bind_same fun _ _ => .bind_same fun _ _ => .bind_same fun _ _ => .ok ⟨rfl, rfl, same⟩

theorem settleGroups_agrees {state other : EvalState} {key : String}
    (same : state.record key = other.record key) (input : TransitionInput) (claim : String)
    (env : Env) :
    Agrees Overflows (SettledAlike key) (settleGroups plan state input key claim env).value
      (settleGroups plan other input key claim env).value := by
  have groups : committedSoFar state key = committedSoFar other key :=
    congrArg KeyRecord.groups same
  have claims : state.keyClaim[key]? = other.keyClaim[key]? := congrArg KeyRecord.claim same
  have consistent : ledgerConsistent plan state key = ledgerConsistent plan other key := by
    simp only [ledgerConsistent, groups, ← Std.ExtTreeMap.isSome_getElem?_eq_contains, claims]
  simp only [settleGroups, Traced.bind_value, consistent, groups]
  refine .bind_same fun _ _ => .bind_same fun infos _ => ?_
  refine .bind (stageGroups_agrees _ _ _ _ _ _) ?_
  rintro ⟨pending, staged⟩ ⟨pending', staged'⟩ legs
  replace legs : pending = pending' := legs
  subst legs
  exact .ok (disposeGroups_alike same claim infos pending staged staged')

theorem settleLegs_agrees {state other : EvalState} {key : String}
    (same : state.record key = other.record key) (input : TransitionInput) (claim : String)
    (env : Env) :
    Agrees Overflows (SettledAlike key) (settleLegs plan state input key claim env).value
      (settleLegs plan other input key claim env).value := by
  simp only [settleLegs, Traced.bind_value]
  refine .bind (stageLegs_agrees _ _ _ _ _) ?_
  rintro ⟨pending, staged⟩ ⟨pending', staged'⟩ legs
  replace legs : pending = pending' := legs
  subst legs
  refine .ok ⟨rfl, rfl, ?_⟩
  simp only [EvalState.record_close, EvalState.record_pin, EvalState.record_balances,
    Function.update_self, same]

/-- On states with one record of its key a transition settles alike, up to overflow. -/
theorem settle_agrees (sha256Hex : List UInt8 → String) {state other : EvalState} {input : TransitionInput}
    (same : state.record (workflowKeyValue plan input) =
      other.record (workflowKeyValue plan input)) :
    Agrees Overflows (SettledAlike (workflowKeyValue plan input))
      (settle sha256Hex plan state input).value (settle sha256Hex plan other input).value := by
  simp only [settle, Traced.bind_value]
  refine .bind_same ?_
  rintro ⟨key, claim⟩ admitted
  obtain rfl := (admission_ok admitted).2.1
  have claims : state.keyClaim[workflowKeyValue plan input]? =
      other.keyClaim[workflowKeyValue plan input]? := congrArg KeyRecord.claim same
  have posted : state.postedKeys.contains (workflowKeyValue plan input) =
      other.postedKeys.contains (workflowKeyValue plan input) := congrArg KeyRecord.posted same
  simp only [claims, posted]
  refine .bind_same fun _ _ => ?_
  split
  · exact settleReplay_agrees same claim
  · simp only [Traced.bind_value]
    refine .bind_same fun env _ => ?_
    split
    · simp only [settleEvidence, Traced.bind_value]
      refine .bind_same fun _ _ => .ok ⟨rfl, rfl, ?_⟩
      simp only [EvalState.record_close, EvalState.record_pin, Function.update_self, same]
    · split
      · exact settleGroups_agrees same input claim env
      · exact settleLegs_agrees same input claim env

/-- A transition leaves the records of other keys alone. -/
theorem record_nextState_of_ne (sha256Hex : List UInt8 → String)
    (idempotent : plan.replay.idempotent = true)
    (state : EvalState) (input : TransitionInput) {key : String}
    (other : key ≠ workflowKeyValue plan input) :
    (nextState sha256Hex plan state input).record key = state.record key := by
  rcases nextState_commits sha256Hex idempotent state input with
    same | ⟨settled, own, claim, env, record, _, next, commits⟩
  · rw [same]
  · rw [next]
    rw [← commits.opens.key_eq] at other
    exact commits.store.record_of_ne other

/-- Both states go on to the next by the same commit, or both stay. -/
def SameCommit (state next other next' : EvalState) (key : String) : Prop :=
  (next = state ∧ next' = other) ∨ ∃ record postings,
    Commits state.store ⟨key, record, postings⟩ next.store ∧
      Commits other.store ⟨key, record, postings⟩ next'.store

/-- Neither transition of the order is refused for an overflowing balance. -/
def Fits (sha256Hex : List UInt8 → String) (plan : CoordinationPlan) (state : EvalState)
    (first second : TransitionInput) : Prop :=
  (evaluateTransition sha256Hex plan state first).refusalCode ≠ "balance.overflow" ∧
  (evaluateTransition sha256Hex plan (nextState sha256Hex plan state first) second).refusalCode ≠
    "balance.overflow"

theorem not_overflows {state : EvalState} {input : TransitionInput} {refusal : Refusal}
    (fits : (evaluateTransition sha256Hex plan state input).refusalCode ≠ "balance.overflow")
    (decided : (settle sha256Hex plan state input).value = .error refusal) :
    ¬Overflows refusal := by
  rwa [evaluateTransition_refused decided] at fits

theorem SettledAlike.sameCommit (idempotent : plan.replay.idempotent = true)
    {state other : EvalState} {input : TransitionInput} {first second : Settled}
    (alike : SettledAlike (workflowKeyValue plan input) first second)
    (settles : Settles sha256Hex plan state input first)
    (settles' : Settles sha256Hex plan other input second) :
    SameCommit state first.next other second.next (workflowKeyValue plan input) := by
  have outcome := alike.outcome
  rcases settles_cases idempotent settles with idle | ⟨key, claim, env, record, commits⟩ <;>
    rcases settles_cases idempotent settles' with idle' | ⟨key', claim', env', record', commits'⟩
  · exact .inl ⟨idle.next, idle'.next⟩
  · rw [commits'.outcome] at outcome
    rcases idle.outcome with stays | stays <;> rw [stays] at outcome <;> split at outcome <;>
      simp at outcome
  · rw [commits.outcome] at outcome
    rcases idle'.outcome with stays | stays <;> rw [stays] at outcome <;> split at outcome <;>
      simp at outcome
  · have one := commits.store
    have two := commits'.store
    rw [commits.opens.key_eq] at one
    rw [commits'.opens.key_eq] at two
    have self : first.next.record (workflowKeyValue plan input) = record := one.record_self
    have self' : second.next.record (workflowKeyValue plan input) = record' := two.record_self
    have records : record = record' := by rw [← self, ← self', alike.record]
    rw [← records, ← alike.pending] at two
    exact .inr ⟨record, _, one, two⟩

/-- On states with one record of its key a transition that fits both has one outcome, posts the
same legs and makes the same commit. -/
theorem transition_alike (idempotent : plan.replay.idempotent = true)
    {state other : EvalState} {input : TransitionInput}
    (same : state.record (workflowKeyValue plan input) =
      other.record (workflowKeyValue plan input))
    (fits : (evaluateTransition sha256Hex plan state input).refusalCode ≠ "balance.overflow")
    (fits' : (evaluateTransition sha256Hex plan other input).refusalCode ≠
      "balance.overflow") :
    (evaluateTransition sha256Hex plan state input).outcome =
        (evaluateTransition sha256Hex plan other input).outcome ∧
      postedLegs sha256Hex plan state input = postedLegs sha256Hex plan other input ∧
      SameCommit state (nextState sha256Hex plan state input) other
        (nextState sha256Hex plan other input) (workflowKeyValue plan input) := by
  have agrees := settle_agrees sha256Hex same
  unfold postedLegs nextState
  cases decided : (settle sha256Hex plan state input).value with
  | error refusal =>
      cases decided' : (settle sha256Hex plan other input).value with
      | error refusal' =>
          rw [evaluateTransition_refused decided, evaluateTransition_refused decided']
          exact ⟨rfl, rfl, .inl ⟨rfl, rfl⟩⟩
      | ok settled' =>
          rw [decided, decided'] at agrees
          cases agrees with
          | left _ allowed => exact absurd allowed (not_overflows fits decided)
  | ok settled =>
      cases decided' : (settle sha256Hex plan other input).value with
      | error refusal' =>
          rw [decided, decided'] at agrees
          cases agrees with
          | right _ allowed => exact absurd allowed (not_overflows fits' decided')
      | ok settled' =>
          rw [decided, decided'] at agrees
          cases agrees with
          | ok alike =>
              rw [evaluateTransition_settled decided, evaluateTransition_settled decided']
              exact ⟨alike.outcome, alike.pending,
                alike.sameCommit idempotent (settle_ok decided) (settle_ok decided')⟩

/-- Commits of different keys, made in either order, lead to the same state. -/
theorem SameCommit.comm {state one two final other : EvalState} {first second : String}
    (different : first ≠ second) (left : SameCommit state one two other first)
    (right : SameCommit state two one final second) : final = other := by
  apply EvalState.store_injective
  rcases left with ⟨stay, stay'⟩ | ⟨record, postings, firstFirst, thenFirst⟩
  · subst stay stay'
    rcases right with ⟨halt, halt'⟩ | ⟨record', postings', secondFirst, thenSecond⟩
    · rw [halt', halt]
    · exact thenSecond.unique secondFirst
  · rcases right with ⟨halt, halt'⟩ | ⟨record', postings', secondFirst, thenSecond⟩
    · subst halt halt'
      exact firstFirst.unique thenFirst
    · exact Commits.comm (by exact different) firstFirst thenSecond secondFirst thenFirst

/-- The transition has one outcome and emits the same deltas in both states. -/
def SameEffect (sha256Hex : List UInt8 → String) (plan : CoordinationPlan)
    (state other : EvalState) (input : TransitionInput) : Prop :=
  (evaluateTransition sha256Hex plan state input).outcome =
    (evaluateTransition sha256Hex plan other input).outcome ∧
  (evaluateTransition sha256Hex plan state input).trace.filter Observation.isLedgerDelta =
    (evaluateTransition sha256Hex plan other input).trace.filter Observation.isLedgerDelta

/-- Cross-key isolation and commutation: a transition leaves everything recorded about other
keys alone, and two transitions of different keys that fit in either order lead to the same
state, with the same outcomes and deltas, in both orders. -/
theorem cross_key_commutation (sha256Hex : List UInt8 → String) {raw : PlanInputs}
    {plan : CoordinationPlan} (accepted : assemblePlan raw = .ok plan) (state : EvalState)
    {first second : TransitionInput}
    (different : workflowKeyValue plan first ≠ workflowKeyValue plan second) :
    (∀ key, key ≠ workflowKeyValue plan first →
      (key ∈ (nextState sha256Hex plan state first).postedKeys ↔ key ∈ state.postedKeys) ∧
      (nextState sha256Hex plan state first).keyClaim[key]? = state.keyClaim[key]? ∧
      (nextState sha256Hex plan state first).committedGroups[key]? =
        state.committedGroups[key]? ∧
      (nextState sha256Hex plan state first).keyStatus[key]? = state.keyStatus[key]?) ∧
    (Fits sha256Hex plan state first second → Fits sha256Hex plan state second first →
      nextState sha256Hex plan (nextState sha256Hex plan state first) second =
        nextState sha256Hex plan (nextState sha256Hex plan state second) first ∧
      SameEffect sha256Hex plan state (nextState sha256Hex plan state second) first ∧
      SameEffect sha256Hex plan (nextState sha256Hex plan state first) state second) := by
  have idempotent := (assemblePlan_ok accepted).idempotent
  constructor
  · intro key other
    have same := record_nextState_of_ne sha256Hex idempotent state first other
    refine ⟨?_, congrArg KeyRecord.claim same, congrArg KeyRecord.committed same,
      congrArg KeyRecord.status same⟩
    rw [← Std.ExtTreeSet.contains_iff_mem, ← Std.ExtTreeSet.contains_iff_mem]
    exact Bool.eq_iff_iff.mp (congrArg KeyRecord.posted same)
  · rintro ⟨firstFits, thenSecondFits⟩ ⟨secondFits, thenFirstFits⟩
    have firstKey := record_nextState_of_ne sha256Hex idempotent state second different
    have secondKey := record_nextState_of_ne sha256Hex idempotent state first different.symm
    obtain ⟨outcome, legs, left⟩ :=
      transition_alike idempotent firstKey.symm firstFits thenFirstFits
    obtain ⟨outcome', legs', right⟩ :=
      transition_alike idempotent secondKey.symm secondFits thenSecondFits
    refine ⟨left.comm different right, ⟨outcome, ?_⟩, ⟨outcome'.symm, ?_⟩⟩
    · rw [trace_deltas, trace_deltas, legs]
    · rw [trace_deltas, trace_deltas, legs']

end Hash

/-- Two trades paid in either order. -/
theorem cross_key_commutation_sample :
    nextState sampleHash samplePlan
        (nextState sampleHash samplePlan EvalState.empty (sampleInput "t-1" true false))
        (sampleInput "t-2" true true) =
      nextState sampleHash samplePlan
        (nextState sampleHash samplePlan EvalState.empty (sampleInput "t-2" true true))
        (sampleInput "t-1" true false) :=
  ((cross_key_commutation sampleHash samplePlan_accepted EvalState.empty
    (show workflowKeyValue samplePlan (sampleInput "t-1" true false) ≠
      workflowKeyValue samplePlan (sampleInput "t-2" true true) by decide +kernel)).2
    (by unfold Fits; decide +kernel) (by unfold Fits; decide +kernel)).1

end Neutrino
