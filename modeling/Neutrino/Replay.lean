import Neutrino.GroupShape

/-! A terminal transition presented again: what closing a key pins down, that no later
transition touches it, and when the same input is replayed. -/

namespace Neutrino

open Checked Ledger KeyedStore Run

variable {sha256Hex : List UInt8 → String} {plan : CoordinationPlan}

/-- A key closed under a claim with a status. -/
structure ClosedKey (state : EvalState) (key claim status : String) : Prop where
  posted : key ∈ state.postedKeys
  claimed : state.keyClaim[key]? = some claim
  recorded : state.keyStatus[key]? = some status

theorem closedKey_of_record {state : EvalState} {key claim status : String}
    (posted : (state.record key).posted = true) (claimed : (state.record key).claim = some claim)
    (recorded : (state.record key).status = some status) : ClosedKey state key claim status where
  posted := by simpa [EvalState.record] using posted
  claimed := claimed
  recorded := recorded

/-- A terminal transition closes its key under its own claim, with the success terminal. -/
theorem terminal_closes (idempotent : plan.replay.idempotent = true) {state : EvalState}
    {input : TransitionInput}
    (terminal : (evaluateTransition sha256Hex plan state input).outcome = .terminal) :
    ∃ key claim, (admission sha256Hex plan input).value = .ok (key, claim) ∧
      ClosedKey (nextState sha256Hex plan state input) key claim plan.terminal.success := by
  cases decided : (settle sha256Hex plan state input).value with
  | error refusal =>
      rw [evaluateTransition_refused decided] at terminal
      simp at terminal
  | ok settled =>
      have next : nextState sha256Hex plan state input = settled.next := by
        rw [nextState, evaluateTransition_settled decided]
      rw [evaluateTransition_settled decided] at terminal
      replace terminal : settled.outcome = .terminal := terminal
      rw [next]
      rcases settles_cases idempotent (settle_ok decided) with
        idle | ⟨key, claim, env, record, commits⟩
      · rcases idle.outcome with replayed | waiting
        · simp [replayed] at terminal
        · simp [waiting] at terminal
      · have self : settled.next.record key = record := commits.store.record_self
        have outcome := commits.outcome
        refine ⟨key, claim, commits.opens.admitted, ?_⟩
        have open' := commits.opens.unposted idempotent
        cases commits.step with
        | single single =>
            exact closedKey_of_record (by rw [self]; rfl) (by rw [self]; rfl)
              (by rw [self]; rfl)
        | progress classified some pending =>
            simp [terminal, open'] at outcome
        | terminal classified some done =>
            exact closedKey_of_record (by rw [self]; rfl) (by rw [self]; rfl)
              (by rw [self]; rfl)

/-- No transition touches a closed key. -/
theorem ClosedKey.step (idempotent : plan.replay.idempotent = true) {state : EvalState}
    {key claim status : String} (closed : ClosedKey state key claim status)
    (input : TransitionInput) :
    ClosedKey (nextState sha256Hex plan state input) key claim status := by
  rcases nextState_commits sha256Hex idempotent state input with
    same | ⟨settled, own, ownClaim, env, record, _, next, commits⟩
  · rwa [same]
  · have other : key ≠ own := by
      rintro rfl
      exact commits.opens.fresh ⟨idempotent, closed.posted⟩
    have same : settled.next.record key = state.record key :=
      commits.store.record_of_ne other
    rw [next]
    exact closedKey_of_record (by rw [same]; simpa [EvalState.record] using closed.posted)
      (by rw [same]; exact closed.claimed) (by rw [same]; exact closed.recorded)

theorem ClosedKey.reachable (idempotent : plan.replay.idempotent = true)
    {state later : EvalState} {key claim status : String}
    (closed : ClosedKey state key claim status)
    (reached : Reachable (nextState sha256Hex plan) state later) :
    ClosedKey later key claim status :=
  reachable_invariant (ClosedKey · key claim status)
    (fun _ input closed => closed.step idempotent input) closed reached

/-- An invocation that meets its own claim on a closed key settles as a replay. -/
theorem settle_replay (idempotent : plan.replay.idempotent = true) {state : EvalState}
    {input : TransitionInput} {key claim status : String}
    (admitted : (admission sha256Hex plan input).value = .ok (key, claim))
    (closed : ClosedKey state key claim status) (named : status ≠ "") :
    (settle sha256Hex plan state input).value = .ok {
      outcome := .replayed
      next := state
      pending := []
      published := [.replay key, .terminal status] } := by
  have replayed : (settleReplay state key claim).value = .ok {
      outcome := .replayed
      next := state
      pending := []
      published := [.replay key, .terminal status] } := by
    simp only [settleReplay, Traced.bind_ok, Traced.ensure_ok, Traced.pure_value]
    have present : state.keyClaim.contains key = true := by
      rw [Std.ExtTreeMap.contains_iff_mem, Std.ExtTreeMap.mem_iff_isSome_getElem?,
        closed.claimed]
      rfl
    exact ⟨(), present, (), closed.claimed, (), by simpa [closed.recorded] using named,
      by simp [closed.recorded]⟩
  have branch : (plan.replay.idempotent && state.postedKeys.contains key) = true := by
    simp [idempotent, closed.posted]
  simp only [settle, Traced.bind_ok, Traced.ensure_ok, Prod.exists]
  refine ⟨key, claim, admitted, (), by simp [closed.claimed], ?_⟩
  rw [if_pos branch]
  exact replayed

/-- A replay needs a non-empty status on its key. -/
theorem replayed_status {state : EvalState} {input : TransitionInput}
    (replayed : (evaluateTransition sha256Hex plan state input).outcome = .replayed) :
    ∃ key claim status, (admission sha256Hex plan input).value = .ok (key, claim) ∧
      state.keyStatus[key]? = some status ∧ status ≠ "" := by
  cases decided : (settle sha256Hex plan state input).value with
  | error refusal =>
      rw [evaluateTransition_refused decided] at replayed
      simp at replayed
  | ok settled =>
      rw [evaluateTransition_settled decided] at replayed
      cases settle_ok decided with
      | replay admitted posted claimed recorded closed =>
          exact ⟨_, _, _, admitted, recorded, closed⟩
      | evidence => simp at replayed
      | groups =>
          simp only [disposeGroups] at replayed
          split at replayed
          · simp at replayed
          · split at replayed <;> simp at replayed
      | legs => simp at replayed

/-- The transition is a no-op that reports the status recorded for its key. -/
def Replays (sha256Hex : List UInt8 → String) (plan : CoordinationPlan) (state : EvalState)
    (input : TransitionInput) : Prop :=
  (evaluateTransition sha256Hex plan state input).outcome = .replayed ∧
  (evaluateTransition sha256Hex plan state input).next = state ∧
  ∃ status, state.keyStatus[workflowKeyValue plan input]? = some status ∧
    Observation.terminal status ∈ (evaluateTransition sha256Hex plan state input).trace

/-- After a terminal transition, from any state, the same input is replayed in every later
state exactly when the plan's success terminal has a name. -/
theorem terminal_replays_iff {raw : PlanInputs} (accepted : assemblePlan raw = .ok plan)
    {state : EvalState} {input : TransitionInput}
    (terminal : (evaluateTransition sha256Hex plan state input).outcome = .terminal) :
    (∀ later, Reachable (nextState sha256Hex plan)
        (evaluateTransition sha256Hex plan state input).next later →
      Replays sha256Hex plan later input) ↔ plan.terminal.success ≠ "" := by
  have idempotent := (assemblePlan_ok accepted).idempotent
  obtain ⟨key, claim, admitted, closed⟩ := terminal_closes idempotent terminal
  have keyed : key = workflowKeyValue plan input := (admission_ok admitted).2.1
  constructor
  · intro replays
    obtain ⟨replayed, _⟩ := replays _ (reachable_start _ _)
    obtain ⟨key', claim', status, admitted', recorded, named⟩ := replayed_status replayed
    simp only [admitted, Except.ok.injEq, Prod.mk.injEq] at admitted'
    obtain ⟨rfl, rfl⟩ := admitted'
    have same : some status = some plan.terminal.success := recorded.symm.trans closed.recorded
    rwa [← Option.some.inj same]
  · intro named later reached
    have closedLater := closed.reachable idempotent reached
    have decided := settle_replay idempotent admitted closedLater named
    unfold Replays
    rw [evaluateTransition_settled decided, ← keyed]
    exact ⟨rfl, rfl, _, closedLater.recorded, by simp⟩

theorem terminal_replays_iff_sample :
    (∀ later, Reachable (nextState sampleHash samplePlan)
        (evaluateTransition sampleHash samplePlan EvalState.empty
          (sampleInput "t-1" true true)).next later →
      Replays sampleHash samplePlan later (sampleInput "t-1" true true)) ↔
    samplePlan.terminal.success ≠ "" :=
  terminal_replays_iff samplePlan_accepted rfl

/-! A plan without a success terminal: accepted, committed once, and then refused as an
inconsistent state instead of replayed. -/

def openEndedLeg : PlanEffectInput where
  name := "pay"
  kind := "debit"
  participant := ""
  idempotencyKind := "ref"
  idempotencyValue := "trade"
  canonicalGuard := ""
  guardAcceptedInput := ""
  amount := "ref:amount"
  currency := "literal:EUR"
  ledger := "cash"
  party := "literal:buyer"
  memo := ""
  guard := none

def openEndedInputs : PlanInputs :=
  { sampleInputs with
    inputs := [⟨"trade", "string"⟩, ⟨"amount", "money"⟩]
    effects := [openEndedLeg]
    attestations := []
    balanced := false
    terminal := ⟨"", "", ""⟩ }

def openEndedPlan : CoordinationPlan :=
  ((assemblePlan openEndedInputs).toOption).getD default

/-- The state after the one payment. -/
def openEndedPaid : EvalState :=
  nextState sampleHash openEndedPlan EvalState.empty (sampleInput "t-1" false false)

theorem open_ended_not_replayed :
    assemblePlan openEndedInputs = .ok openEndedPlan ∧
    (evaluateTransition sampleHash openEndedPlan EvalState.empty
      (sampleInput "t-1" false false)).outcome = .terminal ∧
    (evaluateTransition sampleHash openEndedPlan openEndedPaid
      (sampleInput "t-1" false false)).refusalCode = "state.invalid" ∧
    ¬Replays sampleHash openEndedPlan openEndedPaid (sampleInput "t-1" false false) := by
  have refused : (evaluateTransition sampleHash openEndedPlan openEndedPaid
      (sampleInput "t-1" false false)).outcome = .refused := by decide +kernel
  refine ⟨rfl, rfl, by decide +kernel, ?_⟩
  rintro ⟨replayed, _⟩
  simp [refused] at replayed

end Neutrino
