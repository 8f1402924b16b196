import Neutrino.CoordinationPlan

/-! What an assembled plan satisfies: its effects and their gates, the partition of the
effects into groups, and each group's balance. -/

namespace Neutrino

open Checked

theorem requirePlan_ok {condition : Prop} [Decidable condition] {message : String}
    {passed : Unit} : requirePlan condition message = .ok passed ↔ condition := by
  simp [requirePlan]

@[simp] theorem planError_ne_ok {α : Type} {message : String} {value : α} :
    planError message ≠ .ok value := by
  simp [planError]

/-- Everything `assemblePlan` establishes about the plan it returns. -/
structure Assembled (raw : PlanInputs) (plan : CoordinationPlan) : Prop where
  procedure : plan.procedure = raw.procedure
  inputs : plan.inputs = raw.inputs
  balanced : plan.balanced = raw.balanced
  computes : plan.computes = raw.computes
  attestations : plan.attestations = raw.attestations
  terminal : plan.terminal = raw.terminal
  idempotent : plan.replay.idempotent = true
  key : resolveWorkflowKey raw = .ok plan.workflowKey
  effectless : checkEffectless raw = .ok ()
  bound : collect (bindEffect raw) raw.effects.zipIdx = .ok plan.effects
  policies : checkPolicyBinding plan.attestations plan.effects = .ok ()
  grouped : partitionEffects plan.balanced plan.effects = .ok plan.effectGroups
  conserved : ∀ group ∈ plan.effectGroups, checkBalance raw.effects group = .ok ()
  obligations : resolveObligations raw.participants plan.effects [] raw.obligations =
    .ok plan.obligations

theorem assemblePlan_ok {raw : PlanInputs} {plan : CoordinationPlan}
    (accepted : assemblePlan raw = .ok plan) : Assembled raw plan := by
  simp only [assemblePlan, bind_ok, pure_ok] at accepted
  obtain ⟨_, _, _, _, _, _, workflowKey, key, _, effectless, effects, bound, _, policies,
    groups, grouped, _, conserved, _, _, obligations, resolved, rfl⟩ := accepted
  exact {
    procedure := rfl
    inputs := rfl
    balanced := rfl
    computes := rfl
    attestations := rfl
    terminal := rfl
    idempotent := rfl
    key := key
    effectless := effectless
    bound := bound
    policies := policies
    grouped := grouped
    conserved := each_ok.mp conserved
    obligations := resolved }

/-! Effects. -/

/-- The effect a raw effect becomes: its own fields, its key and its gate. -/
def boundEffect (raw : PlanInputs) (effect : PlanEffectInput × Nat) : PlanEffect :=
  let gate := bindGate raw effect.1
  { index := effect.2
    name := effect.1.name
    kind := effect.1.kind
    participant := effect.1.participant
    canonicalGuard := effect.1.canonicalGuard
    guardKey := canonicalGuardKey effect.1.guard
    attestationInput := gate.1
    gateMode := gate.2.1
    gatePolicy := gate.2.2
    ledger := effect.1.ledger
    party := effect.1.party
    amount := effect.1.amount
    currency := effect.1.currency
    memo := effect.1.memo
    guard := effect.1.guard }

theorem bindEffect_ok {raw : PlanInputs} {effect : PlanEffectInput × Nat}
    {result : PlanEffect} (bound : bindEffect raw effect = .ok result) :
    result = boundEffect raw effect ∧ (effect.1.guardAcceptedInput = "" ∨
      isDeclaredPolicy raw.attestations effect.1.guardAcceptedInput) := by
  simp only [bindEffect, bind_ok, requirePlan_ok, pure_ok] at bound
  obtain ⟨_, _, _, _, _, declared, rfl⟩ := bound
  exact ⟨rfl, declared⟩

namespace Assembled

variable {raw : PlanInputs} {plan : CoordinationPlan} (assembled : Assembled raw plan)

include assembled

theorem effects_eq : plan.effects = raw.effects.zipIdx.map (boundEffect raw) :=
  collect_eq_map (fun _ _ bound => (bindEffect_ok bound).1) assembled.bound

theorem effects_length : plan.effects.length = raw.effects.length := by
  simp [assembled.effects_eq]

/-- The effect at a position carries that position as its index. -/
theorem getElem?_effects (index : Nat) :
    plan.effects[index]? = (raw.effects[index]?).map fun effect =>
      boundEffect raw (effect, index) := by
  rw [assembled.effects_eq, List.getElem?_map, List.getElem?_zipIdx]
  cases raw.effects[index]? <;> simp

theorem exists_raw {effect : PlanEffect} (declared : effect ∈ plan.effects) :
    ∃ rawEffect, raw.effects[effect.index]? = some rawEffect ∧
      effect = boundEffect raw (rawEffect, effect.index) := by
  obtain ⟨index, found⟩ := List.getElem?_of_mem declared
  rw [assembled.getElem?_effects, Option.map_eq_some_iff] at found
  obtain ⟨rawEffect, atIndex, rfl⟩ := found
  exact ⟨rawEffect, atIndex, rfl⟩

theorem getElem?_index {effect : PlanEffect} (declared : effect ∈ plan.effects) :
    plan.effects[effect.index]? = some effect := by
  obtain ⟨rawEffect, atIndex, same⟩ := assembled.exists_raw declared
  rw [assembled.getElem?_effects, atIndex, Option.map_some, ← same]

/-- Effects of one plan are told apart by their index. -/
theorem index_injective {first second : PlanEffect} (firstDeclared : first ∈ plan.effects)
    (secondDeclared : second ∈ plan.effects) (same : first.index = second.index) :
    first = second := by
  have atFirst := assembled.getElem?_index firstDeclared
  rw [same, assembled.getElem?_index secondDeclared] at atFirst
  exact (Option.some.inj atFirst).symm

theorem effects_nodup : plan.effects.Nodup := by
  have indices : (plan.effects.map (·.index)).Nodup := by
    rw [assembled.effects_eq, List.map_map]
    have positions : raw.effects.zipIdx.map ((·.index) ∘ boundEffect raw) =
        raw.effects.zipIdx.map Prod.snd := rfl
    rw [positions, List.zipIdx_map_snd]
    exact List.nodup_range'
  exact indices.of_map _

theorem guardKey_eq {effect : PlanEffect} (declared : effect ∈ plan.effects) :
    effect.guardKey = canonicalGuardKey effect.guard := by
  obtain ⟨rawEffect, _, same⟩ := assembled.exists_raw declared
  rw [same]
  rfl

/-- A suppressing gate names a declared policy and leaves the refusing gate unset. -/
theorem temporal_gate {effect : PlanEffect} (declared : effect ∈ plan.effects)
    (temporal : effect.gateMode = .temporalSuppress) :
    effect.gatePolicy ≠ "" ∧ effect.attestationInput = "" ∧
      isDeclaredPolicy plan.attestations effect.gatePolicy = true := by
  obtain ⟨rawEffect, atIndex, same⟩ := assembled.exists_raw declared
  have declaredPolicy : rawEffect.guardAcceptedInput = "" ∨
      isDeclaredPolicy raw.attestations rawEffect.guardAcceptedInput := by
    have visited : (rawEffect, effect.index) ∈ raw.effects.zipIdx :=
      List.mem_zipIdx_iff_getElem?.mpr atIndex
    obtain ⟨result, _, bound⟩ := collect_mem assembled.bound visited
    exact (bindEffect_ok bound).2
  rw [same] at temporal ⊢
  simp only [boundEffect, bindGate] at temporal ⊢
  rw [assembled.attestations]
  split at temporal
  · rename_i gated
    simp only [gated, not_false_eq_true, ne_eq, if_true, true_and]
    exact declaredPolicy.resolve_left gated
  · split at temporal <;> simp at temporal

end Assembled

/-! Temporal plans. -/

/-- A plan whose effects are suppressed per policy. -/
def coordinationIsTemporal (plan : CoordinationPlan) : Bool :=
  plan.effects.any fun effect => effect.gateMode = .temporalSuppress

/-- The input of an `accepted` guard, or nothing for any other guard. -/
def acceptedInput : Option ExprNode → String
  | some (.call name [.var input _] _) => if name = "accepted" then input else ""
  | _ => ""

/-- What both builders promise about a raw effect's `guardAcceptedInput`: it is read off the
effect's own guard. -/
def FromBuilder (raw : PlanInputs) : Prop :=
  ∀ effect ∈ raw.effects, effect.guardAcceptedInput = acceptedInput effect.guard

/-- An effect whose guard is an `accepted` predicate. -/
def AcceptedEffect (effect : PlanEffect) : Prop :=
  ∃ input dtype category,
    effect.guard = some (.call "accepted" [.var input category] dtype) ∧
      effect.gatePolicy = input ∧ input ≠ ""

theorem gateMode_temporal {raw : PlanInputs} {rawEffect : PlanEffectInput} {index : Nat}
    (temporal : (boundEffect raw (rawEffect, index)).gateMode = .temporalSuppress) :
    rawEffect.guardAcceptedInput ≠ "" ∧
      (boundEffect raw (rawEffect, index)).gatePolicy = rawEffect.guardAcceptedInput := by
  simp only [boundEffect, bindGate] at temporal ⊢
  split at temporal
  · rename_i gated
    simp [gated]
  · split at temporal <;> simp at temporal

theorem acceptedInput_ne_empty {guard : Option ExprNode} (named : acceptedInput guard ≠ "") :
    ∃ dtype category,
      guard = some (.call "accepted" [.var (acceptedInput guard) category] dtype) := by
  unfold acceptedInput at named ⊢
  split at named
  · rename_i name input category dtype
    split at named
    · rename_i accepted
      subst accepted
      exact ⟨dtype, category, by simp⟩
    · simp at named
  · simp at named

/-! Groups. -/

/-- The effects under one guard key. -/
def keyed (effects : List PlanEffect) (key : String) : List PlanEffect :=
  effects.filter fun effect => effect.guardKey = key

theorem keyed_append (effects : List PlanEffect) (effect : PlanEffect) (key : String) :
    keyed (effects ++ [effect]) key =
      keyed effects key ++ (if effect.guardKey = key then [effect] else []) := by
  by_cases same : effect.guardKey = key <;> simp [keyed, same]

theorem mem_keyed {effects : List PlanEffect} {key : String} {effect : PlanEffect} :
    effect ∈ keyed effects key ↔ effect ∈ effects ∧ effect.guardKey = key := by
  simp [keyed]

/-- A group lists exactly the effects under its key, in order, and takes its first effect's
position and gate. -/
structure GroupOf (balanced : Bool) (effects : List PlanEffect) (group : PlanEffectGroup) :
    Prop where
  indices : group.effectIndices = (keyed effects group.guardKey).map (·.index)
  first : ∃ effect, (keyed effects group.guardKey).head? = some effect ∧
    group.firstIndex = effect.index ∧ group.gateMode = effect.gateMode ∧
    group.gatePolicy = effect.gatePolicy
  gate : ∀ effect ∈ keyed effects group.guardKey,
    effect.attestationInput = group.attestationInput
  mustBalance : group.mustBalance = balanced

/-- The groups have distinct keys and together hold every effect. -/
structure Partition (balanced : Bool) (effects : List PlanEffect)
    (groups : List PlanEffectGroup) : Prop where
  keys : (groups.map (·.guardKey)).Nodup
  shapes : ∀ group ∈ groups, GroupOf balanced effects group
  covers : ∀ effect ∈ effects, ∃ group ∈ groups, group.guardKey = effect.guardKey

theorem joinGroup_ok {group joined : PlanEffectGroup} {effect : PlanEffect}
    (accepted : joinGroup group effect = .ok joined) :
    group.attestationInput = effect.attestationInput ∧
      joined.guardKey = group.guardKey ∧ joined.attestationInput = group.attestationInput ∧
      joined.effectIndices = group.effectIndices ++ [effect.index] ∧
      joined.firstIndex = group.firstIndex ∧ joined.gateMode = group.gateMode ∧
      joined.gatePolicy = group.gatePolicy ∧ joined.mustBalance = group.mustBalance := by
  simp only [joinGroup, bind_ok, requirePlan_ok, pure_ok] at accepted
  obtain ⟨_, same, rfl⟩ := accepted
  exact ⟨same, rfl, rfl, rfl, rfl, rfl, rfl, rfl⟩

/-- An effect joins the group that has its key, or opens one at the end. -/
theorem addToGroups_ok {balanced : Bool} {effect : PlanEffect}
    {groups result : List PlanEffectGroup}
    (added : addToGroups balanced effect groups = .ok result) :
    (∃ before group joined after, groups = before ++ group :: after ∧
      result = before ++ joined :: after ∧ group.guardKey = effect.guardKey ∧
      joinGroup group effect = .ok joined) ∨
    ((∀ group ∈ groups, group.guardKey ≠ effect.guardKey) ∧
      ∃ joined, result = groups ++ [joined] ∧
        joinGroup (openGroup balanced effect) effect = .ok joined) := by
  induction groups generalizing result with
  | nil =>
      simp only [addToGroups, bind_ok, pure_ok] at added
      obtain ⟨joined, accepted, rfl⟩ := added
      exact .inr ⟨by simp, joined, rfl, accepted⟩
  | cons group rest ih =>
      simp only [addToGroups] at added
      split at added
      · rename_i same
        simp only [bind_ok, pure_ok] at added
        obtain ⟨joined, accepted, rfl⟩ := added
        exact .inl ⟨[], group, joined, rest, rfl, rfl, same, accepted⟩
      · rename_i different
        simp only [bind_ok, pure_ok] at added
        obtain ⟨others, later, rfl⟩ := added
        rcases ih later with ⟨before, hit, joined, after, rfl, rfl, same, accepted⟩ |
          ⟨absent, joined, rfl, accepted⟩
        · exact .inl ⟨group :: before, hit, joined, after, rfl, rfl, same, accepted⟩
        · refine .inr ⟨?_, joined, rfl, accepted⟩
          intro other listed
          rcases List.mem_cons.mp listed with rfl | inRest
          · exact different
          · exact absent other inRest

/-- A group keeps its shape when an effect of another key is added. -/
theorem GroupOf.of_other {balanced : Bool} {effects : List PlanEffect}
    {group : PlanEffectGroup} {effect : PlanEffect} (shape : GroupOf balanced effects group)
    (different : effect.guardKey ≠ group.guardKey) :
    GroupOf balanced (effects ++ [effect]) group := by
  have same : keyed (effects ++ [effect]) group.guardKey = keyed effects group.guardKey := by
    simp [keyed_append, different]
  exact {
    indices := by rw [same, shape.indices]
    first := by rw [same]; exact shape.first
    gate := by rw [same]; exact shape.gate
    mustBalance := shape.mustBalance }

theorem GroupOf.of_join {balanced : Bool} {effects : List PlanEffect}
    {group joined : PlanEffectGroup} {effect : PlanEffect}
    (shape : GroupOf balanced effects group) (same : group.guardKey = effect.guardKey)
    (accepted : joinGroup group effect = .ok joined) :
    GroupOf balanced (effects ++ [effect]) joined := by
  obtain ⟨gate, key, input, indices, firstIndex, mode, policy, mustBalance⟩ :=
    joinGroup_ok accepted
  have grown : keyed (effects ++ [effect]) joined.guardKey =
      keyed effects group.guardKey ++ [effect] := by
    rw [keyed_append, key, if_pos same.symm]
  obtain ⟨first, head, position, firstMode, firstPolicy⟩ := shape.first
  refine ⟨?_, ⟨first, ?_, ?_, ?_, ?_⟩, ?_, ?_⟩
  · rw [grown, indices, shape.indices, List.map_append]
    rfl
  · rw [grown, List.head?_append, head]
    rfl
  · rw [firstIndex, position]
  · rw [mode, firstMode]
  · rw [policy, firstPolicy]
  · intro other listed
    rw [grown] at listed
    rcases List.mem_append.mp listed with earlier | last
    · rw [input, shape.gate other earlier]
    · rw [List.mem_singleton.mp last, input, gate]
  · rw [mustBalance, shape.mustBalance]

theorem GroupOf.of_open {balanced : Bool} {effects : List PlanEffect}
    {joined : PlanEffectGroup} {effect : PlanEffect}
    (absent : keyed effects effect.guardKey = [])
    (accepted : joinGroup (openGroup balanced effect) effect = .ok joined) :
    GroupOf balanced (effects ++ [effect]) joined := by
  obtain ⟨_, key, input, indices, firstIndex, mode, policy, mustBalance⟩ :=
    joinGroup_ok accepted
  have grown : keyed (effects ++ [effect]) joined.guardKey = [effect] := by
    rw [keyed_append, key, show (openGroup balanced effect).guardKey = effect.guardKey from rfl,
      absent, if_pos rfl]
    rfl
  refine ⟨?_, ⟨effect, ?_, firstIndex, mode, policy⟩, ?_, mustBalance⟩
  · rw [grown, indices]
    rfl
  · rw [grown]
    rfl
  · intro other listed
    rw [grown, List.mem_singleton] at listed
    rw [listed, input]
    rfl

theorem addToGroups_partition {balanced : Bool} {effects : List PlanEffect}
    {groups result : List PlanEffectGroup} {effect : PlanEffect}
    (shape : Partition balanced effects groups)
    (added : addToGroups balanced effect groups = .ok result) :
    Partition balanced (effects ++ [effect]) result := by
  rcases addToGroups_ok added with ⟨before, group, joined, after, rfl, rfl, same, accepted⟩ |
    ⟨absent, joined, rfl, accepted⟩
  · have key := (joinGroup_ok accepted).2.1
    have keys := shape.keys
    simp only [List.map_append, List.map_cons] at keys
    have others : ∀ other, other ∈ before ∨ other ∈ after →
        effect.guardKey ≠ other.guardKey := by
      intro other listed clash
      rw [List.nodup_append, List.nodup_cons] at keys
      rcases listed with earlier | later
      · exact keys.2.2 _ (List.mem_map_of_mem earlier) _ List.mem_cons_self
          (by rw [same, clash])
      · exact keys.2.1.1 (by rw [same, clash]; exact List.mem_map_of_mem later)
    refine ⟨?_, ?_, ?_⟩
    · simpa only [List.map_append, List.map_cons, key] using keys
    · intro other listed
      have original : ∀ other, other ∈ before ∨ other ∈ after →
          GroupOf balanced (effects ++ [effect]) other := fun other listed =>
        (shape.shapes other (by simp; tauto)).of_other (others other listed)
      rcases List.mem_append.mp listed with earlier | later
      · exact original other (.inl earlier)
      · rcases List.mem_cons.mp later with rfl | later
        · exact (shape.shapes group (by simp)).of_join same accepted
        · exact original other (.inr later)
    · intro other listed
      have inGroups : ∀ hit ∈ before ++ group :: after,
          ∃ found ∈ before ++ joined :: after, found.guardKey = hit.guardKey := by
        intro hit listed
        simp only [List.mem_append, List.mem_cons] at listed
        rcases listed with earlier | rfl | later
        · exact ⟨hit, by simp [earlier], rfl⟩
        · exact ⟨joined, by simp, key⟩
        · exact ⟨hit, by simp [later], rfl⟩
      rcases List.mem_append.mp listed with old | new
      · obtain ⟨hit, present, hitKey⟩ := shape.covers other old
        obtain ⟨found, listed, foundKey⟩ := inGroups hit present
        exact ⟨found, listed, foundKey.trans hitKey⟩
      · rw [List.mem_singleton.mp new]
        exact ⟨joined, by simp, key.trans same⟩
  · have key : joined.guardKey = effect.guardKey := (joinGroup_ok accepted).2.1
    have empty : keyed effects effect.guardKey = [] := by
      simp only [keyed, List.filter_eq_nil_iff, decide_eq_true_eq]
      intro other listed clash
      obtain ⟨group, present, groupKey⟩ := shape.covers other listed
      exact absent group present (groupKey.trans clash)
    refine ⟨?_, ?_, ?_⟩
    · rw [List.map_append, List.nodup_append]
      refine ⟨shape.keys, by simp, ?_⟩
      intro _ old _ new
      obtain ⟨group, present, rfl⟩ := List.mem_map.mp old
      simp only [List.map_cons, List.map_nil, List.mem_singleton] at new
      rw [new, key]
      exact absent group present
    · intro other listed
      rcases List.mem_append.mp listed with old | new
      · exact (shape.shapes other old).of_other (absent other old).symm
      · rw [List.mem_singleton.mp new]
        exact .of_open empty accepted
    · intro other listed
      rcases List.mem_append.mp listed with old | new
      · obtain ⟨group, present, groupKey⟩ := shape.covers other old
        exact ⟨group, by simp [present], groupKey⟩
      · rw [List.mem_singleton.mp new]
        exact ⟨joined, by simp, key⟩

theorem partitionEffects_partition {balanced : Bool} {effects : List PlanEffect}
    {groups : List PlanEffectGroup} (accepted : partitionEffects balanced effects = .ok groups) :
    Partition balanced effects groups := by
  have base : Partition balanced [] [] := ⟨by simp, by simp, by simp⟩
  have whole := thread_invariant (Partition balanced)
    (fun _ _ _ _ shape added => addToGroups_partition shape added) base accepted
  simpa using whole

namespace Assembled

variable {raw : PlanInputs} {plan : CoordinationPlan} (assembled : Assembled raw plan)

include assembled

theorem partition : Partition plan.balanced plan.effects plan.effectGroups :=
  partitionEffects_partition assembled.grouped

/-- Every effect is suppressed per policy as soon as one is. -/
theorem temporal_all {effect : PlanEffect} (declared : effect ∈ plan.effects)
    (temporal : effect.gateMode = .temporalSuppress) :
    ∀ other ∈ plan.effects, other.gateMode = .temporalSuppress := by
  have bound := assembled.policies
  have nonempty : acceptedBound plan.effects ≠ [] := by
    have listed : effect.gatePolicy ∈ acceptedBound plan.effects :=
      List.mem_map_of_mem (List.mem_filter.mpr ⟨declared, by simpa using temporal⟩)
    exact List.ne_nil_of_mem listed
  simp only [checkPolicyBinding, nonempty, if_false, bind_ok, each_ok, requirePlan_ok]
    at bound
  obtain ⟨_, _, mixed⟩ := bound
  exact mixed

/-- In a temporal plan from a builder every effect is guarded by its policy's `accepted`. -/
theorem accepted_effects (builder : FromBuilder raw)
    (temporal : coordinationIsTemporal plan = true) :
    ∀ effect ∈ plan.effects, AcceptedEffect effect := by
  simp only [coordinationIsTemporal, List.any_eq_true, decide_eq_true_eq] at temporal
  obtain ⟨first, firstDeclared, firstTemporal⟩ := temporal
  intro effect declared
  have mode := assembled.temporal_all firstDeclared firstTemporal effect declared
  obtain ⟨rawEffect, atIndex, same⟩ := assembled.exists_raw declared
  rw [same] at mode
  obtain ⟨named, policy⟩ := gateMode_temporal mode
  have promised := builder rawEffect (List.mem_of_getElem? atIndex)
  rw [promised] at named policy
  obtain ⟨dtype, category, guard⟩ := acceptedInput_ne_empty named
  rw [same]
  exact ⟨_, dtype, category, guard, policy, named⟩

end Assembled

/-! Obligations. -/

/-- An obligation keys on its predicate and names effects of the plan under that key. -/
structure ObligationOf (effects : List PlanEffect) (obligation : PlanObligation) : Prop where
  key : obligation.guardKey = structuralKey obligation.when
  nonempty : obligation.effects ≠ []
  named : ∀ name ∈ obligation.effects, ∃ effect, namedEffect effects name = some effect ∧
    effect.guardKey = obligation.guardKey

theorem namedEffect_some {effects : List PlanEffect} {name : String} {effect : PlanEffect}
    (found : namedEffect effects name = some effect) : effect ∈ effects ∧ effect.name = name := by
  constructor
  · exact List.mem_reverse.mp (List.mem_of_find?_eq_some found)
  · simpa using List.find?_some found

theorem authorizeEffect_ok {effects : List PlanEffect} {obligation guardKey : String}
    {soFar next : AuthorizedSoFar} {name : String}
    (accepted : authorizeEffect effects obligation guardKey soFar name = .ok next) :
    ∃ effect, namedEffect effects name = some effect ∧ effect.guardKey = guardKey := by
  simp only [authorizeEffect, bind_ok] at accepted
  obtain ⟨_, _, accepted⟩ := accepted
  split at accepted
  · simp at accepted
  · rename_i effect found
    simp only [bind_ok, requirePlan_ok] at accepted
    obtain ⟨_, same, _⟩ := accepted
    exact ⟨effect, found, same⟩

theorem authorizeEffects_ok {effects : List PlanEffect} {obligation guardKey : String}
    {names : List String} {start final : AuthorizedSoFar}
    (accepted : thread (authorizeEffect effects obligation guardKey) start names = .ok final) :
    ∀ name ∈ names, ∃ effect, namedEffect effects name = some effect ∧
      effect.guardKey = guardKey := by
  induction names generalizing start with
  | nil => simp
  | cons name rest ih =>
      obtain ⟨next, stepped, later⟩ := bind_ok.mp accepted
      exact List.forall_mem_cons.mpr ⟨authorizeEffect_ok stepped, ih later⟩

theorem resolveObligation_ok {participants : List PlanParticipant} {effects : List PlanEffect}
    {names : List String} {raw : PlanObligationInput} {obligation : PlanObligation}
    (accepted : resolveObligation participants effects names raw = .ok obligation) :
    ObligationOf effects obligation := by
  simp only [resolveObligation, bind_ok] at accepted
  obtain ⟨_, _, _, _, _, _, _, _, _, _, accepted⟩ := accepted
  split at accepted
  · simp at accepted
  · simp only [bind_ok, requirePlan_ok, pure_ok] at accepted
    obtain ⟨_, _, _, nonempty, soFar, authorized, rfl⟩ := accepted
    refine ⟨rfl, nonempty, ?_⟩
    exact authorizeEffects_ok authorized

theorem resolveObligations_ok {participants : List PlanParticipant} {effects : List PlanEffect}
    {names : List String} {raws : List PlanObligationInput} {obligations : List PlanObligation}
    (accepted : resolveObligations participants effects names raws = .ok obligations) :
    ∀ obligation ∈ obligations, ObligationOf effects obligation := by
  induction raws generalizing names obligations with
  | nil =>
      simp only [resolveObligations, Except.ok.injEq] at accepted
      simp [← accepted]
  | cons raw rest ih =>
      simp only [resolveObligations, bind_ok, pure_ok] at accepted
      obtain ⟨first, resolved, others, later, rfl⟩ := accepted
      exact List.forall_mem_cons.mpr ⟨resolveObligation_ok resolved, ih later⟩

theorem Assembled.obligationOf {raw : PlanInputs} {plan : CoordinationPlan}
    (assembled : Assembled raw plan) {obligation : PlanObligation}
    (declared : obligation ∈ plan.obligations) : ObligationOf plan.effects obligation :=
  resolveObligations_ok assembled.obligations obligation declared

end Neutrino
