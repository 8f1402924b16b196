import Neutrino.Transition

/-! The semantic core of a plan: the fields the evaluator reads. The rest of a plan changes no
transition of it. -/

namespace Neutrino

open Checked Ledger

def PlanEffect.core (effect : PlanEffect) : PlanEffect :=
  { effect with
    participant := ""
    canonicalGuard := ""
    gateMode := .none
    gatePolicy := ""
    memo := "" }

def PlanEffectGroup.core (group : PlanEffectGroup) : PlanEffectGroup :=
  { group with
    canonicalGuard := ""
    gateMode := .none
    gatePolicy := "" }

def PlanObligation.core (obligation : PlanObligation) : PlanObligation :=
  { obligation with canonicalGuard := "" }

def CoordinationPlan.core (plan : CoordinationPlan) : CoordinationPlan :=
  { plan with
    invokedEvent := ""
    participants := []
    allowedOrgPairs := []
    effects := plan.effects.map PlanEffect.core
    effectGroups := plan.effectGroups.map PlanEffectGroup.core
    lifecycleInitialState := ""
    lifecycleStates := []
    lifecycleTransitions := []
    obligations := plan.obligations.map PlanObligation.core }

def Pending.core (leg : Pending) : Pending := { leg with effect := leg.effect.core }

def GroupInfo.core (info : GroupInfo) : GroupInfo := { info with group := info.group.core }

def Settled.core (settled : Settled) : Settled :=
  { settled with pending := settled.pending.map Pending.core }

/-- What legs come to, with the core of each. -/
def stagedCore (staged : List Pending × Balances Account) : List Pending × Balances Account :=
  (staged.1.map Pending.core, staged.2)

theorem identityFields_core (plan : CoordinationPlan) :
    identityFields plan.core = identityFields plan := by
  have block : obligationBlock (plan.obligations.map PlanObligation.core) =
      obligationBlock plan.obligations := by
    simp only [obligationBlock, List.isEmpty_map, List.length_map, List.flatMap_map]
    rfl
  simp only [identityFields, CoordinationPlan.core, List.length_map, List.flatMap_map, block]
  rfl

/-! Staging. -/

theorem stageEffects_core (env : Env) (symbols : Std.ExtTreeMap String String)
    (effects : List PlanEffect) (staged : Balances Account) :
    stageEffects env symbols (effects.map PlanEffect.core) staged =
      (stageEffects env symbols effects staged).map stagedCore := by
  induction effects generalizing staged with
  | nil => rfl
  | cons effect rest ih =>
      simp only [List.map_cons, stageEffects]
      refine bind_map_same fun _ => ?_
      refine bind_map_same fun posting => ?_
      refine bind_map_same fun balances => ?_
      exact bind_map (ih balances) fun later => rfl

theorem stageLegs_core (env : Env) (input : TransitionInput) (effects : List PlanEffect)
    (staged : Balances Account) :
    stageLegs env input (effects.map PlanEffect.core) staged =
      (stageLegs env input effects staged).mapValue stagedCore := by
  induction effects generalizing staged with
  | nil => rfl
  | cons effect rest ih =>
      simp only [List.map_cons, stageLegs]
      refine Traced.bind_mapValue_same fun _ => ?_
      refine Traced.bind_mapValue_same fun held => ?_
      split
      · refine Traced.bind_mapValue_same fun _ => ?_
        refine Traced.bind_mapValue_same fun posting => ?_
        refine Traced.bind_mapValue_same fun balances => ?_
        exact Traced.bind_mapValue (ih balances) fun later => rfl
      · exact ih staged

/-! Groups. -/

section Groups

variable (plan : CoordinationPlan)

theorem groupGuard_core (group : PlanEffectGroup) :
    groupGuard plan.core group.core = groupGuard plan group := by
  simp only [groupGuard, CoordinationPlan.core, List.getElem?_map]
  change (Option.map PlanEffect.core plan.effects[group.firstIndex]?).bind _ = _
  cases plan.effects[group.firstIndex]? <;> rfl

theorem groupEffects_core (group : PlanEffectGroup) :
    groupEffects plan.core group.core = (groupEffects plan group).map PlanEffect.core := by
  simp only [groupEffects, CoordinationPlan.core, List.getElem?_map, List.map_filterMap]
  rfl

theorem classifyGroup_core (env : Env) (committed : Std.ExtTreeSet String)
    (group : PlanEffectGroup) :
    classifyGroup plan.core env committed group.core =
      (classifyGroup plan env committed group).map GroupInfo.core := by
  simp only [classifyGroup, groupGuard_core]
  exact bind_map_same fun holds => rfl

theorem stageGroups_core (env : Env) (symbols : Std.ExtTreeMap String String)
    (infos : List GroupInfo) (staged : Balances Account) :
    stageGroups plan.core env symbols (infos.map GroupInfo.core) staged =
      (stageGroups plan env symbols infos staged).mapValue stagedCore := by
  induction infos generalizing staged with
  | nil => rfl
  | cons info rest ih =>
      have effects : (if info.core.committable then groupEffects plan.core info.core.group
          else []) = (if info.committable then groupEffects plan info.group else []).map
            PlanEffect.core := by
        have own := groupEffects_core plan info.group
        change (if info.committable then groupEffects plan.core info.group.core else []) = _
        split
        · exact own
        · rfl
      simp only [List.map_cons, stageGroups, effects]
      refine Traced.bind_mapValue_same fun _ => ?_
      refine Traced.bind_mapValue (f := stagedCore) ?_ fun posted => ?_
      · rw [stageEffects_core]
        rfl
      · refine Traced.bind_mapValue (ih posted.2) fun later => ?_
        simp only [stagedCore, ← List.map_append]
        rfl

theorem requiredGroups_core (infos : List GroupInfo) :
    requiredGroups (infos.map GroupInfo.core) = requiredGroups infos := by
  simp only [requiredGroups, List.filter_map, List.map_map]
  rfl

theorem committingGroups_core (infos : List GroupInfo) :
    committingGroups (infos.map GroupInfo.core) = committingGroups infos := by
  simp only [committingGroups, List.filter_map, List.map_map]
  rfl

theorem publishPending_core (pending : List Pending) :
    publishPending (pending.map Pending.core) = publishPending pending := by
  simp only [publishPending, List.map_map]
  rfl

theorem disposeGroups_core (state : EvalState) (key claim : String) (infos : List GroupInfo)
    (pending : List Pending) (staged : Balances Account) :
    disposeGroups plan.core state key claim (infos.map GroupInfo.core)
        (pending.map Pending.core) staged =
      (disposeGroups plan state key claim infos pending staged).core := by
  simp only [disposeGroups, committingGroups_core, requiredGroups_core, publishPending_core]
  split
  · rfl
  · split <;> rfl

theorem ledgerConsistent_core (state : EvalState) (key : String) :
    ledgerConsistent plan.core state key = ledgerConsistent plan state key := by
  simp only [ledgerConsistent, CoordinationPlan.core, List.any_map]
  rfl

theorem settleGroups_core (state : EvalState) (input : TransitionInput) (key claim : String)
    (env : Env) :
    settleGroups plan.core state input key claim env =
      (settleGroups plan state input key claim env).mapValue Settled.core := by
  have classified : collect (classifyGroup plan.core env (committedSoFar state key))
      plan.core.effectGroups =
      (collect (classifyGroup plan env (committedSoFar state key)) plan.effectGroups).map
        (List.map GroupInfo.core) :=
    collect_map fun group _ => classifyGroup_core plan env _ group
  simp only [settleGroups, ledgerConsistent_core, classified]
  refine Traced.bind_mapValue_same fun _ => ?_
  refine Traced.bind_mapValue (f := List.map GroupInfo.core) rfl fun infos => ?_
  refine Traced.bind_mapValue (stageGroups_core plan env input.symbols infos state.balances)
    fun posted => ?_
  simp only [stagedCore, disposeGroups_core]
  rfl

end Groups

/-! Transitions. -/

section Transition

variable (plan : CoordinationPlan)

theorem isTemporal_core : isTemporal plan.core = isTemporal plan := by
  simp only [isTemporal, CoordinationPlan.core, List.any_map]
  rfl

theorem observeObligations_core (env : Env) (committed : List String) :
    observeObligations plan.core env committed = observeObligations plan env committed := by
  simp only [observeObligations, CoordinationPlan.core, List.map_map]
  rfl

theorem settleLegs_core (state : EvalState) (input : TransitionInput) (key claim : String)
    (env : Env) :
    settleLegs plan.core state input key claim env =
      (settleLegs plan state input key claim env).mapValue Settled.core := by
  refine Traced.bind_mapValue (stageLegs_core env input plan.effects state.balances)
    fun posted => ?_
  have names : (posted.1.map Pending.core).map (·.effect.name) =
      posted.1.map (·.effect.name) := by
    rw [List.map_map]
    rfl
  simp only [stagedCore, publishPending_core, observeObligations_core, names]
  rfl

variable (sha256Hex : List UInt8 → String)

theorem admission_core (input : TransitionInput) :
    admission sha256Hex plan.core input = admission sha256Hex plan input := by
  have identity : coordinationIdentityHash sha256Hex plan.core =
      coordinationIdentityHash sha256Hex plan := by
    rw [coordinationIdentityHash, identityFields_core, coordinationIdentityHash]
  simp only [admission, identity]
  rfl

theorem settle_core (state : EvalState) (input : TransitionInput) :
    settle sha256Hex plan.core state input =
      (settle sha256Hex plan state input).mapValue Settled.core := by
  have effectless : plan.core.effects.isEmpty = plan.effects.isEmpty := by
    simp [CoordinationPlan.core]
  simp only [settle, admission_core, effectless, isTemporal_core]
  refine Traced.bind_mapValue_same fun admitted => ?_
  refine Traced.bind_mapValue_same fun _ => ?_
  change (if plan.replay.idempotent && state.postedKeys.contains admitted.1 then _ else _) = _
  split
  · exact Traced.bind_mapValue_same fun _ => Traced.bind_mapValue_same fun _ =>
      Traced.bind_mapValue_same fun _ => rfl
  · refine Traced.bind_mapValue_same fun env => ?_
    change (if plan.effects.isEmpty && !plan.attestations.isEmpty then _ else _) = _
    split
    · exact Traced.bind_mapValue_same fun _ => rfl
    · split
      · exact settleGroups_core plan state input _ _ env
      · exact settleLegs_core plan state input _ _ env

/-- The evaluator reads a plan's core alone. -/
theorem evaluateTransition_core (state : EvalState) (input : TransitionInput) :
    evaluateTransition sha256Hex plan.core state input =
      evaluateTransition sha256Hex plan state input := by
  simp only [evaluateTransition, settle_core, Traced.mapValue]
  cases (settle sha256Hex plan state input).value <;> rfl

end Transition

end Neutrino
