import Neutrino.CoordinationEval

/-! What one transition can do: the legs each staging loop produces, and one case for every
way a transition that is not refused settles. -/

namespace Neutrino

open Checked Ledger

/-! Staging. -/

/-- A leg whose effect posts and whose operands resolve to its posting. -/
def Resolved (env : Env) (symbols : Std.ExtTreeMap String String) (leg : Pending) : Prop :=
  isPostingKind leg.effect.kind = true ∧
    resolvePosting env symbols leg.effect = .ok leg.posting

/-- Whether a leg's guard holds; a guard that cannot be evaluated does not. -/
def fires (env : Env) (effect : PlanEffect) : Bool :=
  match effect.guard with
  | none => true
  | some guard =>
      match evalGuard guard env with
      | .ok held => held
      | .error _ => false

theorem stagePosting_ok {staged posted : Balances Account} {effect : PlanEffect}
    {posting : Posting Account} :
    stagePosting staged effect posting = .ok posted ↔ post staged posting = some posted := by
  unfold stagePosting
  cases post staged posting <;> simp

theorem stageEffects_ok {env : Env} {symbols : Std.ExtTreeMap String String}
    {effects : List PlanEffect} {staged final : Balances Account} {pending : List Pending}
    (accepted : stageEffects env symbols effects staged = .ok (pending, final)) :
    pending.map (·.effect) = effects ∧ (∀ leg ∈ pending, Resolved env symbols leg) ∧
      postAll staged (pending.map (·.posting)) = some final := by
  induction effects generalizing staged pending with
  | nil =>
      simp only [stageEffects, Except.ok.injEq, Prod.mk.injEq] at accepted
      obtain ⟨rfl, rfl⟩ := accepted
      exact ⟨rfl, by simp, rfl⟩
  | cons effect rest ih =>
      simp only [stageEffects, bind_ok, require_ok, pure_ok, stagePosting_ok,
        Prod.mk.injEq, Prod.exists] at accepted
      obtain ⟨_, posts, posting, resolved, posted, stepped, later, balances, others, rfl,
        rfl⟩ := accepted
      obtain ⟨effects, legs, booked⟩ := ih others
      refine ⟨by simp [effects], ?_, ?_⟩
      · intro leg listed
        rcases List.mem_cons.mp listed with rfl | inRest
        · exact ⟨posts, resolved⟩
        · exact legs leg inRest
      · simp only [List.map_cons]
        exact postAll_cons.mpr ⟨posted, stepped, booked⟩

theorem observeGuard_ok {env : Env} {effect : PlanEffect} {held : Bool}
    (observed : (observeGuard env effect).value = .ok held) : fires env effect = held := by
  unfold observeGuard at observed
  unfold fires
  cases guarded : effect.guard with
  | none => simpa [guarded] using observed
  | some guard =>
      simp only [guarded, Traced.bind_ok, Traced.ofExcept_value, Traced.pure_value,
        Except.ok.injEq] at observed
      obtain ⟨value, evaluated, _, _, rfl⟩ := observed
      cases result : evalGuard guard env with
      | error failure => simp [result, Except.mapError] at evaluated
      | ok value => simpa [result, Except.mapError] using evaluated

theorem observeGate_ok {input : TransitionInput} {effect : PlanEffect} {passed : Unit}
    (observed : (observeGate input effect).value = .ok passed) :
    effect.attestationInput = "" ∨ policyAccepted input effect.attestationInput = true := by
  unfold observeGate at observed
  split at observed
  · exact .inl ‹_›
  · simp only [Traced.bind_ok, Traced.ensure_ok] at observed
    obtain ⟨_, _, accepted⟩ := observed
    exact .inr accepted

theorem stageLegs_ok {env : Env} {input : TransitionInput} {effects : List PlanEffect}
    {staged final : Balances Account} {pending : List Pending}
    (accepted : (stageLegs env input effects staged).value = .ok (pending, final)) :
    pending.map (·.effect) = effects.filter (fires env) ∧
      (∀ leg ∈ pending, Resolved env input.symbols leg) ∧
      (∀ leg ∈ pending, leg.effect.attestationInput = "" ∨
        policyAccepted input leg.effect.attestationInput = true) ∧
      postAll staged (pending.map (·.posting)) = some final := by
  induction effects generalizing staged pending with
  | nil =>
      simp only [stageLegs, Traced.pure_value, Except.ok.injEq, Prod.mk.injEq] at accepted
      obtain ⟨rfl, rfl⟩ := accepted
      exact ⟨rfl, by simp, by simp, rfl⟩
  | cons effect rest ih =>
      simp only [stageLegs, Traced.bind_ok, Traced.ensure_ok] at accepted
      obtain ⟨_, posts, held, observed, continued⟩ := accepted
      have firing := observeGuard_ok observed
      cases held with
      | false =>
          simp only [Bool.false_eq_true, if_false] at continued
          simpa [firing] using ih continued
      | true =>
          simp only [if_true, Traced.bind_ok, Traced.ofExcept_value, Traced.pure_value, stagePosting_ok,
            Except.ok.injEq, Prod.mk.injEq, Prod.exists] at continued
          obtain ⟨_, gate, posting, resolved, posted, stepped, later, balances, others, rfl,
            rfl⟩ := continued
          obtain ⟨effects, legs, gates, booked⟩ := ih others
          refine ⟨by simp [effects, firing], ?_, ?_, ?_⟩
          · intro leg listed
            rcases List.mem_cons.mp listed with rfl | inRest
            · exact ⟨posts, resolved⟩
            · exact legs leg inRest
          · intro leg listed
            rcases List.mem_cons.mp listed with rfl | inRest
            · exact observeGate_ok gate
            · exact gates leg inRest
          · simp only [List.map_cons]
            exact postAll_cons.mpr ⟨posted, stepped, booked⟩

theorem stageGroups_ok {plan : CoordinationPlan} {env : Env}
    {symbols : Std.ExtTreeMap String String} {infos : List GroupInfo}
    {staged final : Balances Account} {pending : List Pending}
    (accepted : (stageGroups plan env symbols infos staged).value = .ok (pending, final)) :
    pending.map (·.effect) =
        (infos.filter (·.committable)).flatMap (fun info => groupEffects plan info.group) ∧
      (∀ leg ∈ pending, Resolved env symbols leg) ∧
      postAll staged (pending.map (·.posting)) = some final := by
  induction infos generalizing staged pending with
  | nil =>
      simp only [stageGroups, Traced.pure_value, Except.ok.injEq, Prod.mk.injEq] at accepted
      obtain ⟨rfl, rfl⟩ := accepted
      exact ⟨rfl, by simp, rfl⟩
  | cons info rest ih =>
      simp only [stageGroups, Traced.bind_ok, Traced.ofExcept_value, Traced.pure_value, Except.ok.injEq,
        Prod.mk.injEq, Prod.exists] at accepted
      obtain ⟨_, _, here, posted, stepped, later, balances, others, rfl, rfl⟩ := accepted
      obtain ⟨hereEffects, hereLegs, hereBooked⟩ := stageEffects_ok stepped
      obtain ⟨effects, legs, booked⟩ := ih others
      refine ⟨?_, ?_, ?_⟩
      · rw [List.map_append, hereEffects, effects]
        cases committable : info.committable <;> simp [committable]
      · intro leg listed
        rcases List.mem_append.mp listed with first | second
        · exact hereLegs leg first
        · exact legs leg second
      · rw [List.map_append]
        exact postAll_append.mpr ⟨posted, hereBooked, booked⟩

theorem acceptEvidence_ok {input : TransitionInput} {policies : List AttestationPolicy}
    {passed : Unit} (accepted : (acceptEvidence input policies).value = .ok passed) :
    ∀ policy ∈ policies, policyAccepted input policy.input = true := by
  induction policies with
  | nil => simp
  | cons policy rest ih =>
      simp only [acceptEvidence] at accepted
      split at accepted
      · simp at accepted
      · rename_i verdict presented
        simp only [Traced.bind_ok, Traced.ensure_ok] at accepted
        obtain ⟨_, _, _, verdictTrue, later⟩ := accepted
        intro other listed
        rcases List.mem_cons.mp listed with rfl | inRest
        · simp [policyAccepted, presented, verdictTrue]
        · exact ih later other inRest

/-- A classified group keeps its guard and truth, and is committable when it holds and has not
committed under the key. -/
theorem classifyGroup_ok {plan : CoordinationPlan} {env : Env}
    {committed : Std.ExtTreeSet String} {group : PlanEffectGroup} {info : GroupInfo}
    (classified : classifyGroup plan env committed group = .ok info) :
    info.group = group ∧ info.guard = groupGuard plan group ∧
      groupHolds env (groupGuard plan group) = .ok info.holds ∧
      (info.committable = true ↔ info.holds = true ∧ group.guardKey ∉ committed) := by
  simp only [classifyGroup, bind_ok, pure_ok] at classified
  obtain ⟨holds, evaluated, rfl⟩ := classified
  refine ⟨rfl, rfl, evaluated, ?_⟩
  rw [Bool.and_eq_true, Bool.not_eq_true', ← Bool.not_eq_true,
    Std.ExtTreeSet.contains_iff_mem]

theorem groupHolds_fires {env : Env} {effect : PlanEffect} {holds : Bool}
    (evaluated : groupHolds env effect.guard = .ok holds) : fires env effect = holds := by
  unfold fires
  cases guarded : effect.guard with
  | none => simpa [guarded, groupHolds] using evaluated
  | some guard =>
      simp only [guarded, groupHolds] at evaluated
      cases result : evalGuard guard env with
      | error failure => simp [result, Except.mapError] at evaluated
      | ok value => simpa [result, Except.mapError] using evaluated

/-! The ways a transition settles. -/

section Hash

variable (sha256Hex : List UInt8 → String)

/-- An admitted invocation on a key that is still open and agrees with its claim, evaluated
to its environment. -/
structure Opens (plan : CoordinationPlan) (state : EvalState) (input : TransitionInput)
    (key claim : String) (env : Env) : Prop where
  admitted : (admission sha256Hex plan input).value = .ok (key, claim)
  agrees : ∀ established, state.keyClaim[key]? = some established → established = claim
  fresh : ¬(plan.replay.idempotent = true ∧ key ∈ state.postedKeys)
  evaluated : (transitionEnv plan input).value = .ok env

/-- One case for every way a transition that is not refused settles. -/
inductive Settles (plan : CoordinationPlan) (state : EvalState) (input : TransitionInput) :
    Settled → Prop
  | replay {key claim status : String}
      (admitted : (admission sha256Hex plan input).value = .ok (key, claim))
      (posted : key ∈ state.postedKeys) (claimed : state.keyClaim[key]? = some claim)
      (recorded : state.keyStatus[key]? = some status) (closed : status ≠ "") :
      Settles plan state input {
        outcome := .replayed
        next := state
        pending := []
        published := [.replay key, .terminal status] }
  | evidence {key claim : String} {env : Env}
      (opens : Opens sha256Hex plan state input key claim env)
      (effectless : plan.effects = []) (declared : plan.attestations ≠ [])
      (accepted : ∀ policy ∈ plan.attestations, policyAccepted input policy.input = true) :
      Settles plan state input {
        outcome := .terminal
        next := (state.pin key claim).close plan key
        pending := []
        published := [.event (pascalCase plan.procedure ++ "Accepted"),
          .terminal plan.terminal.success] }
  | groups {key claim : String} {env : Env} {infos : List GroupInfo} {pending : List Pending}
      {staged : Balances Account}
      (opens : Opens sha256Hex plan state input key claim env)
      (effectful : plan.effects ≠ []) (temporal : isTemporal plan = true)
      (consistent : ledgerConsistent plan state key = true)
      (classified : collect (classifyGroup plan env (committedSoFar state key))
        plan.effectGroups = .ok infos)
      (legs : (stageGroups plan env input.symbols infos state.balances).value =
        .ok (pending, staged)) :
      Settles plan state input (disposeGroups plan state key claim infos pending staged)
  | legs {key claim : String} {env : Env} {pending : List Pending} {staged : Balances Account}
      (opens : Opens sha256Hex plan state input key claim env)
      (effectful : plan.effects ≠ [] ∨ plan.attestations = [])
      (single : isTemporal plan = false)
      (legs : (stageLegs env input plan.effects state.balances).value = .ok (pending, staged)) :
      Settles plan state input {
        outcome := .terminal
        next := ({ state with balances := staged }.pin key claim).close plan key
        pending
        published := publishPending pending ++
          observeObligations plan env (pending.map (·.effect.name)) ++
          [reconciled plan, .terminal plan.terminal.success] }

variable {sha256Hex}

theorem settleReplay_ok {state : EvalState} {key claim : String} {settled : Settled}
    (replayed : (settleReplay state key claim).value = .ok settled) :
    state.keyClaim[key]? = some claim ∧ ∃ status, state.keyStatus[key]? = some status ∧
      status ≠ "" ∧ settled = {
        outcome := .replayed
        next := state
        pending := []
        published := [.replay key, .terminal status] } := by
  simp only [settleReplay, Traced.bind_ok, Traced.ensure_ok, Traced.pure_value,
    Except.ok.injEq] at replayed
  obtain ⟨_, _, _, claimed, _, closed, rfl⟩ := replayed
  refine ⟨claimed, ?_⟩
  cases recorded : state.keyStatus[key]? with
  | none => simp [recorded] at closed
  | some status =>
      simp only [recorded, Option.getD_some] at closed ⊢
      exact ⟨status, rfl, closed, rfl⟩

theorem settle_ok {plan : CoordinationPlan} {state : EvalState} {input : TransitionInput}
    {settled : Settled} (accepted : (settle sha256Hex plan state input).value = .ok settled) :
    Settles sha256Hex plan state input settled := by
  simp only [settle, Traced.bind_ok, Traced.ensure_ok, Option.all_eq_true,
    decide_eq_true_eq, Prod.exists] at accepted
  obtain ⟨key, claim, admitted, _, agrees, continued⟩ := accepted
  split at continued
  · rename_i posted
    obtain ⟨claimed, status, recorded, closed, rfl⟩ := settleReplay_ok continued
    simp only [Bool.and_eq_true, Std.ExtTreeSet.contains_iff_mem] at posted
    exact .replay admitted posted.2 claimed recorded closed
  · rename_i fresh
    simp only [Traced.bind_ok] at continued
    obtain ⟨env, evaluated, continued⟩ := continued
    have opens : Opens sha256Hex plan state input key claim env := {
      admitted := admitted
      agrees := agrees
      fresh := by simpa using fresh
      evaluated := evaluated }
    split at continued
    · rename_i evidence
      simp only [Bool.and_eq_true, List.isEmpty_iff, Bool.not_eq_true',
        List.isEmpty_eq_false_iff] at evidence
      simp only [settleEvidence, Traced.bind_ok, Traced.pure_value, Except.ok.injEq]
        at continued
      obtain ⟨_, accepted, rfl⟩ := continued
      exact .evidence opens evidence.1 evidence.2 (acceptEvidence_ok accepted)
    · rename_i effectful
      split at continued
      · rename_i temporal
        have nonempty : plan.effects ≠ [] := by
          intro empty
          simp [isTemporal, empty] at temporal
        simp only [settleGroups, Traced.bind_ok, Traced.ensure_ok, Traced.ofExcept_value,
          Traced.pure_value, Except.ok.injEq, Prod.exists] at continued
        obtain ⟨_, consistent, infos, classified, pending, staged, legs, rfl⟩ := continued
        exact .groups opens nonempty temporal consistent classified legs
      · rename_i single
        simp only [settleLegs, Traced.bind_ok, Traced.pure_value, Except.ok.injEq,
          Prod.exists] at continued
        obtain ⟨pending, staged, legs, rfl⟩ := continued
        refine .legs opens ?_ (by simpa using single) legs
        by_contra neither
        simp only [not_or, not_not] at neither
        apply effectful
        simp [neither.1, neither.2]

theorem evaluateTransition_refused {plan : CoordinationPlan} {state : EvalState}
    {input : TransitionInput} {refusal : Refusal}
    (refused : (settle sha256Hex plan state input).value = .error refusal) :
    evaluateTransition sha256Hex plan state input = {
      outcome := .refused
      trace := (settle sha256Hex plan state input).trace ++
        [.refusal refusal.code refusal.effect]
      next := state
      refusalCode := refusal.code } := by
  simp only [evaluateTransition, refused]

theorem evaluateTransition_settled {plan : CoordinationPlan} {state : EvalState}
    {input : TransitionInput} {settled : Settled}
    (accepted : (settle sha256Hex plan state input).value = .ok settled) :
    evaluateTransition sha256Hex plan state input = {
      outcome := settled.outcome
      trace := (settle sha256Hex plan state input).trace ++ settled.published
      next := settled.next
      refusalCode := "" } := by
  simp only [evaluateTransition, accepted]

/-- The next state of a transition, as a step of a machine. -/
def nextState (sha256Hex : List UInt8 → String) (plan : CoordinationPlan) (state : EvalState) (input : TransitionInput) :
    EvalState :=
  (evaluateTransition sha256Hex plan state input).next

/-- A transition leaves the state alone, or settles in one of the ways above. -/
theorem nextState_cases (sha256Hex : List UInt8 → String) (plan : CoordinationPlan) (state : EvalState)
    (input : TransitionInput) :
    nextState sha256Hex plan state input = state ∨
      ∃ settled, (settle sha256Hex plan state input).value = .ok settled ∧
        Settles sha256Hex plan state input settled ∧
        nextState sha256Hex plan state input = settled.next := by
  unfold nextState
  cases decided : (settle sha256Hex plan state input).value with
  | error refusal => exact .inl (by rw [evaluateTransition_refused decided])
  | ok settled =>
      exact .inr ⟨settled, rfl, settle_ok decided,
        by rw [evaluateTransition_settled decided]⟩

end Hash

end Neutrino
