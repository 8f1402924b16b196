import Neutrino.Transition

/-! The codes a transition can be refused with, stage by stage. -/

namespace Neutrino

open Checked Ledger

def exprCodes : List String :=
  ["expr.overflow", "expr.divide_by_zero", "expr.invalid", "expr.unbound",
    "expr.unsupported", "expr.type", "expr.internal"]

theorem checkedBin_code {op : Char} {a b : Int64} {failure : ExprError}
    (failed : checkedBin op a b = .error failure) : failure.code ∈ exprCodes := by
  have overflow : ∀ value message, checkedOr value message = .error failure →
      failure.code ∈ exprCodes := by
    intro value message failed
    unfold checkedOr at failed
    split at failed
    · simp at failed
    · simp only [Except.error.injEq] at failed
      subst failed
      simp [exprCodes]
  unfold checkedBin at failed
  repeat' split at failed
  all_goals first
    | exact overflow _ _ failed
    | simp only [Except.error.injEq] at failed
      subst failed
      simp [exprCodes]

theorem evalExpr_code {node : ExprNode} {env : Env} {failure : ExprError}
    (failed : evalExpr node env = .error failure) : failure.code ∈ exprCodes := by
  fun_induction evalExpr node env generalizing failure with
  | case1 => simp at failed
  | case2 => simp at failed
  | case4 _ _ _ _ _ _ inLeft ih =>
      simp only [Except.error.injEq] at failed
      exact failed ▸ ih inLeft
  | case5 _ _ _ _ _ _ _ _ inRight _ ih =>
      simp only [Except.error.injEq] at failed
      exact failed ▸ ih inRight
  | case6 => exact checkedBin_code failed
  | case8 _ _ _ _ ih => exact ih failed
  | case3 | case7 | case9 | case10 =>
      simp only [Except.error.injEq] at failed
      subst failed
      simp [exprCodes]

theorem evalGuard_code {node : ExprNode} {env : Env} {failure : ExprError}
    (failed : evalGuard node env = .error failure) : failure.code ∈ exprCodes := by
  unfold evalGuard at failed
  split at failed
  · repeat' split at failed
    all_goals
      simp only [reduceCtorEq, Except.error.injEq] at failed
      try subst failed
      try simp [exprCodes]
  · split at failed
    · rename_i inLeft
      simp only [Except.error.injEq] at failed
      exact failed ▸ evalExpr_code inLeft
    · split at failed
      · rename_i inRight
        simp only [Except.error.injEq] at failed
        exact failed ▸ evalExpr_code inRight
      · unfold compareWith at failed
        repeat' split at failed
        all_goals
          simp only [reduceCtorEq, Except.error.injEq] at failed
          try subst failed
          try simp [exprCodes]
  · simp only [Except.error.injEq] at failed
    subst failed
    simp [exprCodes]

/-! Stages that do not read the state. -/

def admissionCodes : List String := ["auth.denied", "key.unresolved", "claim.input"]

def openCodes : List String :=
  exprCodes ++ ["expr.missing", "evidence.malformed", "attestation.rejected",
    "effect.kind", "operand.malformed", "operand.unresolved", "amount.negative",
    "balance.overflow"]

theorem exprCodes_open {code : String} (listed : code ∈ exprCodes) : code ∈ openCodes :=
  List.mem_append_left _ listed

theorem typeInput_code {input : TransitionInput} {declared : PlanInput} {refusal : Refusal}
    (failed : typeInput input declared = .error refusal) : refusal.code = "claim.input" := by
  simp only [typeInput] at failed
  repeat' split at failed
  all_goals
    simp only [reduceCtorEq, Except.error.injEq] at failed
    try subst failed
    try rfl

theorem admission_code {sha256Hex : List UInt8 → String} {plan : CoordinationPlan}
    {input : TransitionInput} {refusal : Refusal}
    (failed : (admission sha256Hex plan input).value = .error refusal) :
    refusal.code ∈ admissionCodes := by
  simp only [admission, Traced.bind_error, Traced.observe_value, Traced.ensure_error,
    Traced.ofExcept_value, Traced.pure_value, reduceCtorEq, false_or, and_false,
    exists_false, or_false] at failed
  rcases failed with ⟨_, _, ⟨_, rfl⟩ | ⟨_, _, ⟨_, rfl⟩ | ⟨_, _, inputs⟩⟩⟩
  · simp [admissionCodes]
  · simp [admissionCodes]
  · obtain ⟨declared, _, failed⟩ := collect_error inputs
    simp [admissionCodes, typeInput_code failed]

theorem computeValue_code {env : Env} {compute : PlanCompute} {refusal : Refusal}
    (failed : computeValue env compute = .error refusal) : refusal.code ∈ openCodes := by
  unfold computeValue at failed
  split at failed
  · simp only [Except.error.injEq] at failed
    subst failed
    simp [openCodes]
  · obtain ⟨failure, inner, rfl⟩ := mapError_error.mp failed
    exact exprCodes_open (evalExpr_code inner)

theorem foldComputes_code {computes : List PlanCompute} {env : Env} {refusal : Refusal}
    (failed : (foldComputes computes env).value = .error refusal) :
    refusal.code ∈ openCodes := by
  induction computes generalizing env with
  | nil => simp [foldComputes] at failed
  | cons compute rest ih =>
      simp only [foldComputes, Traced.bind_error, Traced.ofExcept_value,
        Traced.observe_value, reduceCtorEq, false_or] at failed
      rcases failed with here | ⟨_, _, _, _, later⟩
      · exact computeValue_code here
      · exact ih later

theorem transitionEnv_code {plan : CoordinationPlan} {input : TransitionInput}
    {refusal : Refusal} (failed : (transitionEnv plan input).value = .error refusal) :
    refusal.code ∈ openCodes := by
  simp only [transitionEnv, Traced.bind_error, Traced.pure_value, reduceCtorEq, and_false,
    exists_false, or_false] at failed
  exact foldComputes_code failed

theorem acceptEvidence_code {input : TransitionInput} {policies : List AttestationPolicy}
    {refusal : Refusal} (failed : (acceptEvidence input policies).value = .error refusal) :
    refusal.code ∈ openCodes := by
  induction policies with
  | nil => simp [acceptEvidence] at failed
  | cons policy rest ih =>
      simp only [acceptEvidence] at failed
      split at failed
      · simp only [Traced.fail_value, Except.error.injEq] at failed
        subst failed
        simp [openCodes]
      · simp only [Traced.bind_error, Traced.observe_value, Traced.ensure_error,
          reduceCtorEq, false_or] at failed
        rcases failed with ⟨_, _, ⟨_, rfl⟩ | ⟨_, _, later⟩⟩
        · simp [openCodes]
        · exact ih later

theorem resolveAmount_code {id code : String} {env : Env}
    (failed : resolveAmount id env = .error code) : code ∈ openCodes := by
  unfold resolveAmount at failed
  split at failed
  · simp only [Except.error.injEq] at failed
    subst failed
    simp [openCodes]
  · simp only [bind_error, require_error] at failed
    rcases failed with unresolved | ⟨_, _, ⟨_, rfl⟩ | ⟨_, _, never⟩⟩
    · unfold operandAmount at unresolved
      repeat' split at unresolved
      all_goals
        simp only [reduceCtorEq, Except.error.injEq] at unresolved
        try subst unresolved
        try simp [openCodes]
    · simp [openCodes]
    · simp [pure, Except.pure] at never

theorem resolveSymbol_code {id code : String} {symbols : Std.ExtTreeMap String String}
    (failed : resolveSymbol id symbols = .error code) : code ∈ openCodes := by
  unfold resolveSymbol at failed
  split at failed
  · simp only [Except.error.injEq] at failed
    subst failed
    simp [openCodes]
  · simp only [bind_error, require_error] at failed
    rcases failed with unresolved | ⟨_, _, ⟨_, rfl⟩ | ⟨_, _, never⟩⟩
    · unfold operandSymbol at unresolved
      repeat' split at unresolved
      all_goals
        simp only [reduceCtorEq, Except.error.injEq] at unresolved
        try subst unresolved
        try simp [openCodes]
    · simp [openCodes]
    · simp [pure, Except.pure] at never

theorem resolvePosting_code {env : Env} {symbols : Std.ExtTreeMap String String}
    {effect : PlanEffect} {refusal : Refusal}
    (failed : resolvePosting env symbols effect = .error refusal) :
    refusal.code ∈ openCodes := by
  simp only [resolvePosting, bind_error, require_error, mapError_error] at failed
  rcases failed with ⟨_, rfl⟩ | ⟨_, _, ⟨code, amount, rfl⟩ | ⟨_, _, ⟨code, party, rfl⟩ |
    ⟨_, _, ⟨code, currency, rfl⟩ | ⟨_, _, never⟩⟩⟩⟩
  · simp [openCodes]
  · exact resolveAmount_code amount
  · exact resolveSymbol_code party
  · exact resolveSymbol_code currency
  · simp [pure, Except.pure] at never

theorem stagePosting_code {staged : Balances Account} {effect : PlanEffect}
    {posting : Posting Account} {refusal : Refusal}
    (failed : stagePosting staged effect posting = .error refusal) :
    refusal.code ∈ openCodes := by
  unfold stagePosting at failed
  split at failed
  · simp only [Except.error.injEq] at failed
    subst failed
    simp [openCodes]
  · simp at failed

theorem stageEffects_code {env : Env} {symbols : Std.ExtTreeMap String String}
    {effects : List PlanEffect} {staged : Balances Account} {refusal : Refusal}
    (failed : stageEffects env symbols effects staged = .error refusal) :
    refusal.code ∈ openCodes := by
  induction effects generalizing staged with
  | nil => simp [stageEffects] at failed
  | cons effect rest ih =>
      simp only [stageEffects, bind_error, require_error] at failed
      rcases failed with ⟨_, rfl⟩ | ⟨_, _, resolving | ⟨_, _, posting | ⟨_, _, later |
        ⟨_, _, never⟩⟩⟩⟩
      · simp [openCodes]
      · exact resolvePosting_code resolving
      · exact stagePosting_code posting
      · exact ih later
      · simp [pure, Except.pure] at never

theorem stageGroups_code {plan : CoordinationPlan} {env : Env}
    {symbols : Std.ExtTreeMap String String} {infos : List GroupInfo}
    {staged : Balances Account} {refusal : Refusal}
    (failed : (stageGroups plan env symbols infos staged).value = .error refusal) :
    refusal.code ∈ openCodes := by
  induction infos generalizing staged with
  | nil => simp [stageGroups] at failed
  | cons info rest ih =>
      have silent : (observeGroupGuard info).value = .ok () := by
        unfold observeGroupGuard
        split <;> rfl
      simp only [stageGroups, Traced.bind_error, silent, Traced.ofExcept_value,
        Traced.pure_value, reduceCtorEq, false_or, and_false, exists_false, or_false]
        at failed
      rcases failed with ⟨_, _, here | ⟨_, _, later⟩⟩
      · exact stageEffects_code here
      · exact ih later

theorem stageLegs_code {env : Env} {input : TransitionInput} {effects : List PlanEffect}
    {staged : Balances Account} {refusal : Refusal}
    (failed : (stageLegs env input effects staged).value = .error refusal) :
    refusal.code ∈ openCodes := by
  induction effects generalizing staged with
  | nil => simp [stageLegs] at failed
  | cons effect rest ih =>
      simp only [stageLegs, Traced.bind_error, Traced.ensure_error] at failed
      rcases failed with ⟨_, rfl⟩ | ⟨_, _, guard | ⟨held, _, continued⟩⟩
      · simp [openCodes]
      · unfold observeGuard at guard
        split at guard
        · simp at guard
        · simp only [Traced.bind_error, Traced.ofExcept_value, mapError_error,
            Traced.observe_value, Traced.pure_value, reduceCtorEq, and_false, exists_false,
            or_false] at guard
          obtain ⟨failure, inner, rfl⟩ := guard
          exact exprCodes_open (evalGuard_code inner)
      · split at continued
        · simp only [Traced.bind_error, Traced.ofExcept_value, Traced.pure_value,
            reduceCtorEq, and_false, exists_false, or_false] at continued
          rcases continued with gate | ⟨_, _, resolving | ⟨_, _, posting | ⟨_, _, later⟩⟩⟩
          · unfold observeGate at gate
            split at gate
            · simp at gate
            · simp only [Traced.bind_error, Traced.observe_value, Traced.ensure_error,
                reduceCtorEq, false_or] at gate
              obtain ⟨_, _, _, rfl⟩ := gate
              simp [openCodes]
          · exact resolvePosting_code resolving
          · exact stagePosting_code posting
          · exact ih later
        · exact ih continued

theorem classifyGroup_code {plan : CoordinationPlan} {env : Env}
    {committed : Std.ExtTreeSet String} {group : PlanEffectGroup} {refusal : Refusal}
    (failed : classifyGroup plan env committed group = .error refusal) :
    refusal.code ∈ openCodes := by
  simp only [classifyGroup, bind_error] at failed
  rcases failed with holds | ⟨_, _, never⟩
  · unfold groupHolds at holds
    split at holds
    · simp at holds
    · obtain ⟨failure, inner, rfl⟩ := mapError_error.mp holds
      exact exprCodes_open (evalGuard_code inner)
  · simp [pure, Except.pure] at never

/-! The whole transition. -/

/-- What `state.invalid` reports about a key: posted without a claim or a status, or with
committed groups but no claim or a group the plan does not have. -/
def InconsistentKey (plan : CoordinationPlan) (state : EvalState) (key : String) : Prop :=
  (key ∈ state.postedKeys ∧
    (key ∉ state.keyClaim ∨ (state.keyStatus[key]?).getD "" = "")) ∨
  ledgerConsistent plan state key = false

theorem settleReplay_error {state : EvalState} {key claim : String} {refusal : Refusal}
    (failed : (settleReplay state key claim).value = .error refusal) :
    refusal.code = "claim.mismatch" ∨ refusal.code = "state.invalid" ∧
      (key ∉ state.keyClaim ∨ (state.keyStatus[key]?).getD "" = "") := by
  simp only [settleReplay, Traced.bind_error, Traced.ensure_error, Traced.pure_value,
    reduceCtorEq, and_false, exists_false, or_false, not_not,
    Std.ExtTreeMap.contains_iff_mem] at failed
  rcases failed with ⟨absent, rfl⟩ | ⟨_, _, ⟨_, rfl⟩ | ⟨_, _, empty, rfl⟩⟩
  · exact .inr ⟨rfl, .inl absent⟩
  · exact .inl rfl
  · exact .inr ⟨rfl, .inr empty⟩

/-- Every refusal has a code of its stage; `state.invalid` is an inconsistent key. -/
theorem settle_error {sha256Hex : List UInt8 → String} {plan : CoordinationPlan}
    {state : EvalState} {input : TransitionInput} {refusal : Refusal}
    (failed : (settle sha256Hex plan state input).value = .error refusal) :
    refusal.code ∈ "claim.mismatch" :: admissionCodes ++ openCodes ∨
      refusal.code = "state.invalid" ∧ ∃ key, InconsistentKey plan state key := by
  have opened : ∀ code, code ∈ openCodes → code ∈ "claim.mismatch" :: admissionCodes ++ openCodes :=
    fun code listed => List.mem_append_right _ listed
  simp only [settle, Traced.bind_error, Traced.ensure_error, Prod.exists] at failed
  rcases failed with admitting | ⟨key, claim, _, ⟨_, rfl⟩ | ⟨_, _, continued⟩⟩
  · exact .inl (List.mem_append_left _ (List.mem_cons_of_mem _ (admission_code admitting)))
  · exact .inl (by simp)
  · split at continued
    · rename_i posted
      simp only [Bool.and_eq_true, Std.ExtTreeSet.contains_iff_mem] at posted
      rcases settleReplay_error continued with mismatch | ⟨invalid, broken⟩
      · exact .inl (by simp [mismatch])
      · exact .inr ⟨invalid, key, .inl ⟨posted.2, broken⟩⟩
    · simp only [Traced.bind_error] at continued
      rcases continued with computing | ⟨env, _, continued⟩
      · exact .inl (opened _ (transitionEnv_code computing))
      · split at continued
        · simp only [settleEvidence, Traced.bind_error, Traced.pure_value, reduceCtorEq,
            and_false, exists_false, or_false] at continued
          exact .inl (opened _ (acceptEvidence_code continued))
        · split at continued
          · simp only [settleGroups, Traced.bind_error, Traced.ensure_error,
              Traced.ofExcept_value, Traced.pure_value, reduceCtorEq, and_false,
              exists_false, or_false, Bool.not_eq_true] at continued
            rcases continued with ⟨broken, rfl⟩ | ⟨_, _, classifying | ⟨_, _, staging⟩⟩
            · exact .inr ⟨rfl, key, .inr broken⟩
            · obtain ⟨group, _, failed⟩ := collect_error classifying
              exact .inl (opened _ (classifyGroup_code failed))
            · exact .inl (opened _ (stageGroups_code staging))
          · simp only [settleLegs, Traced.bind_error, Traced.pure_value, reduceCtorEq,
              and_false, exists_false, or_false] at continued
            exact .inl (opened _ (stageLegs_code continued))

end Neutrino
