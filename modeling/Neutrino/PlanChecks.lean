import Neutrino.PlanShape

/-! Which inputs `assemblePlan` accepts: what each of its checks asks of them. -/

namespace Neutrino

open Checked

/-! Authorization actors and topology. -/

def actorOf (participant : PlanParticipant) : String × String :=
  (participant.org, participant.role)

theorem checkParticipants_iff {names : List String} {actors : List (String × String)}
    {participants : List PlanParticipant} :
    checkParticipants names actors participants = .ok () ↔
      (∀ participant ∈ participants, participant.name ≠ "" ∧ participant.name ∉ names ∧
        (participant.org = "" ∨ actorOf participant ∉ actors)) ∧
      (participants.map (·.name)).Nodup ∧
      ((participants.filter (·.org ≠ "")).map actorOf).Nodup := by
  induction participants generalizing names actors with
  | nil => simp [checkParticipants]
  | cons first rest ih =>
      simp only [checkParticipants, check_ok, requirePlan_ok, ih, List.forall_mem_cons,
        List.map_cons, List.nodup_cons]
      by_cases orgless : first.org = ""
      · simp only [orgless, if_true, true_or, decide_false, ne_eq, not_true_eq_false,
          Bool.false_eq_true, List.filter_cons, if_false, List.mem_cons, not_or, List.mem_map]
        grind
      · simp only [orgless, if_false, false_or, List.mem_cons, not_or, List.filter_cons, ne_eq,
          not_false_eq_true, decide_true, if_true, List.map_cons, List.nodup_cons, List.mem_map,
          List.mem_filter, actorOf]
        grind

/-- An edge between organizations of declared actors. -/
def Endpoints (participants : List PlanParticipant) (edge : PlanOrgPolicy) : Prop :=
  (edge.orgA ≠ "" ∧ edge.orgB ≠ "") ∧
    (∃ participant ∈ participants, participant.org = edge.orgA) ∧
    ∃ participant ∈ participants, participant.org = edge.orgB

theorem checkTopology_iff {participants : List PlanParticipant}
    {edges : List (Endpoint × Endpoint)} {pairs : List PlanOrgPolicy} :
    checkTopology participants edges pairs = .ok () ↔
      (∀ edge ∈ pairs, Endpoints participants edge ∧ orderedEdge edge ∉ edges) ∧
      (pairs.map orderedEdge).Nodup := by
  induction pairs generalizing edges with
  | nil => simp [checkTopology]
  | cons first rest ih =>
      simp only [checkTopology, check_ok, requirePlan_ok, ih, List.map_cons, List.nodup_cons,
        Endpoints, List.any_eq_true, decide_eq_true_eq, List.mem_cons, not_or, List.mem_map]
      grind

/-! The workflow key. -/

/-- An effect that keys on a reference. -/
def KeysOnRef (effect : PlanEffectInput) : Prop :=
  effect.idempotencyKind = "ref" ∧ effect.idempotencyValue ≠ ""

theorem thread_effectWorkflowKey {start : String} {effects : List (PlanEffectInput × Nat)} :
    (∃ key, thread effectWorkflowKey start effects = .ok key) ↔
      (∀ effect ∈ effects, KeysOnRef effect.1 ∧
        (start = "" ∨ start = effect.1.idempotencyValue)) ∧
      ∀ first ∈ effects, ∀ second ∈ effects,
        first.1.idempotencyValue = second.1.idempotencyValue := by
  induction effects generalizing start with
  | nil => simp [thread]
  | cons first rest ih =>
      have stepped : ∀ key, effectWorkflowKey start first = .ok key ↔
          KeysOnRef first.1 ∧ (start = "" ∨ start = first.1.idempotencyValue) ∧
            first.1.idempotencyValue = key := by
        intro key
        simp only [effectWorkflowKey, check_ok, requirePlan_ok, pure_ok, KeysOnRef]
      have unfolded : (∃ key, thread effectWorkflowKey start (first :: rest) = .ok key) ↔
          (KeysOnRef first.1 ∧ (start = "" ∨ start = first.1.idempotencyValue)) ∧
            ∃ key, thread effectWorkflowKey first.1.idempotencyValue rest = .ok key := by
        simp only [thread, bind_ok, stepped]
        grind
      rw [unfolded, ih]
      simp only [List.forall_mem_cons, KeysOnRef]
      grind

/-- The key resolves: a declared instance key that every effect keys on, or one reference that
all effects share. -/
def KeyResolves (raw : PlanInputs) : Prop :=
  if raw.explicitInstanceKey ≠ "" then
    (∃ input, raw.inputs.find? (·.name = raw.explicitInstanceKey) = some input ∧
      isInstanceKeyType input.type = true) ∧
    ∀ effect ∈ raw.effects, effect.idempotencyKind = "ref" ∧
      effect.idempotencyValue = raw.explicitInstanceKey
  else
    (∀ effect ∈ raw.effects, KeysOnRef effect) ∧ ∀ first ∈ raw.effects, ∀ second ∈ raw.effects,
      first.idempotencyValue = second.idempotencyValue

theorem forall_mem_zipIdx {α : Type} {elements : List α} (holds : α → Prop) :
    (∀ indexed ∈ elements.zipIdx, holds indexed.1) ↔ ∀ element ∈ elements, holds element := by
  conv_rhs => rw [← List.zipIdx_map_fst 0 elements]
  rw [List.forall_mem_map]

theorem resolveWorkflowKey_exists {raw : PlanInputs} :
    (∃ key, resolveWorkflowKey raw = .ok key) ↔ KeyResolves raw := by
  unfold resolveWorkflowKey KeyResolves
  split
  · cases found : raw.inputs.find? (·.name = raw.explicitInstanceKey) with
    | none => simp
    | some input =>
        simp only [check_ok, requirePlan_ok, each_ok, pure_ok, checkInstanceKey,
          Option.some.injEq, exists_eq_left']
        rw [forall_mem_zipIdx (fun effect : PlanEffectInput =>
          effect.idempotencyKind = "ref" ∧ effect.idempotencyValue = raw.explicitInstanceKey)]
        simp
  · rw [thread_effectWorkflowKey]
    simp only [true_or, and_true]
    rw [forall_mem_zipIdx (KeysOnRef)]
    refine and_congr_right fun _ => ?_
    rw [forall_mem_zipIdx (fun first : PlanEffectInput =>
      ∀ second ∈ raw.effects.zipIdx, first.idempotencyValue = second.1.idempotencyValue)]
    refine forall₂_congr fun first _ => ?_
    rw [forall_mem_zipIdx (fun second : PlanEffectInput =>
      first.idempotencyValue = second.idempotencyValue)]

/-! Effects and their gates. -/

/-- A leg of a declared participant, where there are any, gated on a declared policy. -/
structure Bindable (raw : PlanInputs) (effect : PlanEffectInput) : Prop where
  present : raw.participants = [] ∨ effect.participant ≠ ""
  declared : effect.participant = "" ∨
    ∃ participant ∈ raw.participants, participant.name = effect.participant
  policy : effect.guardAcceptedInput = "" ∨
    ∃ policy ∈ raw.attestations, policy.input = effect.guardAcceptedInput

theorem bindEffect_exists {raw : PlanInputs} {effect : PlanEffectInput × Nat} :
    (∃ bound, bindEffect raw effect = .ok bound) ↔ Bindable raw effect.1 := by
  simp only [bindEffect, check_ok, requirePlan_ok, pure_ok, isDeclaredPolicy, List.any_eq_true,
    decide_eq_true_eq]
  constructor
  · rintro ⟨bound, present, declared, policy, _⟩
    exact ⟨present, declared, policy⟩
  · rintro ⟨present, declared, policy⟩
    exact ⟨_, present, declared, policy, rfl⟩

def boundEffects (raw : PlanInputs) : List PlanEffect := raw.effects.zipIdx.map (boundEffect raw)

theorem collect_bindEffect_ok {raw : PlanInputs} {effects : List PlanEffect} :
    collect (bindEffect raw) raw.effects.zipIdx = .ok effects ↔
      effects = boundEffects raw ∧ ∀ effect ∈ raw.effects, Bindable raw effect := by
  rw [← forall_mem_zipIdx (Bindable raw)]
  constructor
  · intro bound
    refine ⟨collect_eq_map (fun _ _ bound => (bindEffect_ok bound).1) bound, fun effect listed => ?_⟩
    obtain ⟨result, _, built⟩ := collect_mem bound listed
    exact bindEffect_exists.mp ⟨result, built⟩
  · rintro ⟨rfl, bindable⟩
    obtain ⟨effects, bound⟩ := collect_exists fun effect listed =>
      bindEffect_exists.mpr (bindable effect listed)
    rw [bound, collect_eq_map (fun _ _ bound => (bindEffect_ok bound).1) bound, boundEffects]

/-- Once one effect is gated per policy, all are, and every policy gates one. -/
def PoliciesBound (raw : PlanInputs) : Prop :=
  (∃ effect ∈ raw.effects, effect.guardAcceptedInput ≠ "") →
    (∀ effect ∈ raw.effects, effect.guardAcceptedInput ≠ "") ∧
    ∀ policy ∈ raw.attestations, ∃ effect ∈ raw.effects, effect.guardAcceptedInput = policy.input

theorem boundEffect_temporal {raw : PlanInputs} {effect : PlanEffectInput × Nat} :
    (boundEffect raw effect).gateMode = .temporalSuppress ↔ effect.1.guardAcceptedInput ≠ "" := by
  simp only [boundEffect, bindGate]
  by_cases gated : effect.1.guardAcceptedInput = ""
  · simp only [gated, ne_eq, not_true_eq_false, if_false, iff_false]
    split <;> simp
  · simp [gated]

theorem forall_boundEffects {raw : PlanInputs} {holds : PlanEffect → Prop}
    {holdsRaw : PlanEffectInput → Prop}
    (same : ∀ effect, holds (boundEffect raw effect) ↔ holdsRaw effect.1) :
    (∀ effect ∈ boundEffects raw, holds effect) ↔ ∀ effect ∈ raw.effects, holdsRaw effect := by
  rw [boundEffects, List.forall_mem_map, ← forall_mem_zipIdx holdsRaw]
  exact forall₂_congr fun effect _ => same effect

theorem acceptedBound_bound {raw : PlanInputs} : acceptedBound (boundEffects raw) =
    (raw.effects.filter (·.guardAcceptedInput ≠ "")).map (·.guardAcceptedInput) := by
  rw [acceptedBound, boundEffects]
  conv_rhs => rw [← List.zipIdx_map_fst 0 raw.effects]
  simp only [List.filter_map, List.map_map]
  rw [List.filter_congr (q := fun effect => decide (effect.1.guardAcceptedInput ≠ ""))
    fun effect _ => by simp [boundEffect_temporal]]
  refine List.map_congr_left fun effect listed => ?_
  exact (gateMode_temporal (boundEffect_temporal.mpr
    (by simpa using (List.mem_filter.mp listed).2))).2

theorem checkPolicyBinding_iff {raw : PlanInputs} :
    checkPolicyBinding raw.attestations (boundEffects raw) = .ok () ↔ PoliciesBound raw := by
  have temporal : (∀ effect ∈ boundEffects raw, effect.gateMode = .temporalSuppress) ↔
      ∀ effect ∈ raw.effects, effect.guardAcceptedInput ≠ "" :=
    forall_boundEffects fun _ => boundEffect_temporal
  rw [checkPolicyBinding, PoliciesBound]
  split
  · rename_i unbound
    rw [acceptedBound_bound, List.map_eq_nil_iff, List.filter_eq_nil_iff] at unbound
    simp only [true_iff]
    rintro ⟨effect, listed, gated⟩
    exact absurd (by simpa using unbound effect listed) gated
  · rename_i bound
    simp only [check_ok, each_ok, requirePlan_ok, temporal]
    rw [acceptedBound_bound] at bound ⊢
    obtain ⟨input, listed⟩ := List.exists_mem_of_ne_nil _ bound
    obtain ⟨effect, kept, _⟩ := List.mem_map.mp listed
    obtain ⟨effectIn, gated⟩ := List.mem_filter.mp kept
    have some : ∃ effect ∈ raw.effects, effect.guardAcceptedInput ≠ "" :=
      ⟨effect, effectIn, by simpa using gated⟩
    simp only [some, true_imp_iff, List.mem_map, List.mem_filter, decide_eq_true_eq]
    grind

/-! Groups. -/

theorem addToGroups_exists {balanced : Bool} {effect : PlanEffect} {gate : String}
    (own : effect.attestationInput = gate) {groups : List PlanEffectGroup}
    (same : ∀ group ∈ groups, group.attestationInput = gate) :
    ∃ result, addToGroups balanced effect groups = .ok result ∧
      ∀ group ∈ result, group.attestationInput = gate := by
  have joins : ∀ group : PlanEffectGroup, group.attestationInput = gate →
      ∃ joined, joinGroup group effect = .ok joined ∧ joined.attestationInput = gate := by
    intro group agreed
    simp only [joinGroup, check_ok, requirePlan_ok, pure_ok, agreed, own, true_and]
    exact ⟨_, rfl, rfl⟩
  induction groups with
  | nil =>
      obtain ⟨joined, accepted, agreed⟩ := joins (openGroup balanced effect) own
      exact ⟨[joined], by simp [addToGroups, accepted], by simpa using agreed⟩
  | cons group rest ih =>
      obtain ⟨here, later⟩ := List.forall_mem_cons.mp same
      unfold addToGroups
      split
      · obtain ⟨joined, accepted, agreed⟩ := joins group here
        exact ⟨joined :: rest, by simp [accepted],
          List.forall_mem_cons.mpr ⟨agreed, later⟩⟩
      · obtain ⟨others, added, agreed⟩ := ih later
        exact ⟨group :: others, by simp [added], List.forall_mem_cons.mpr ⟨here, agreed⟩⟩

theorem partitionEffects_exists {balanced : Bool} {effects : List PlanEffect} {gate : String}
    (same : ∀ effect ∈ effects, effect.attestationInput = gate) :
    ∃ groups, partitionEffects balanced effects = .ok groups :=
  thread_exists
    (fun groups : List PlanEffectGroup => ∀ group ∈ groups, group.attestationInput = gate)
    (fun effect listed _ held => addToGroups_exists (same effect listed) held) (by simp)

/-- Effects whose policies are bound share one gate. -/
theorem PoliciesBound.gate {raw : PlanInputs} (bound : PoliciesBound raw) :
    ∃ gate, ∀ effect ∈ boundEffects raw, effect.attestationInput = gate := by
  have gates : ∀ gate, (∀ effect ∈ boundEffects raw, effect.attestationInput = gate) ↔
      ∀ effect ∈ raw.effects, (bindGate raw effect).1 = gate := fun gate =>
    forall_boundEffects fun _ => Iff.rfl
  simp only [gates]
  by_cases temporal : ∃ effect ∈ raw.effects, effect.guardAcceptedInput ≠ ""
  · exact ⟨"", fun effect listed => by simp [bindGate, (bound temporal).1 effect listed]⟩
  · have ungated : ∀ effect ∈ raw.effects, effect.guardAcceptedInput = "" := by
      simpa using temporal
    cases attestations : raw.attestations with
    | nil => exact ⟨"", fun effect listed => by simp [bindGate, ungated effect listed, attestations]⟩
    | cons policy rest =>
        cases rest with
        | nil =>
            exact ⟨policy.input, fun effect listed => by
              simp [bindGate, ungated effect listed, attestations]⟩
        | cons other more =>
            exact ⟨"", fun effect listed => by
              simp [bindGate, ungated effect listed, attestations]⟩

/-! Balance. -/

/-- What the effects of one side move under a guard key. -/
def movedUnder (raw : PlanInputs) (key : String) (debit : Bool) : Multiset (String × String) :=
  ((raw.effects.filter fun effect => canonicalGuardKey effect.guard = key).filter fun effect =>
    (effect.kind == "debit") == debit).map fun effect => (effect.amount, effect.currency)

theorem keyed_raw (raw : PlanInputs) (key : String) :
    ((keyed (boundEffects raw) key).map (·.index)).filterMap (fun index => raw.effects[index]?) =
      raw.effects.filter fun effect => canonicalGuardKey effect.guard = key := by
  conv_rhs => rw [← List.zipIdx_map_fst 0 raw.effects]
  rw [keyed, boundEffects, List.filter_map, List.filter_map, List.map_map, List.filterMap_map,
    ← List.filterMap_eq_map]
  refine List.filterMap_congr fun indexed listed => ?_
  have placed := List.mem_zipIdx_iff_getElem?.mp (List.mem_of_mem_filter listed)
  exact placed

theorem checkBalance_of_moved {raw : PlanInputs} {groups : List PlanEffectGroup}
    (partition : Partition raw.balanced (boundEffects raw) groups)
    (moved : raw.balanced = true → ∀ key, movedUnder raw key true = movedUnder raw key false) :
    each (checkBalance raw.effects) groups = .ok () := by
  rw [each_ok]
  intro group listed
  have shape := partition.shapes group listed
  rw [checkBalance, requirePlan_ok, shape.mustBalance, movedValues, movedValues, shape.indices,
    keyed_raw]
  cases balanced : raw.balanced with
  | false => exact .inl rfl
  | true => exact .inr (moved balanced group.guardKey)

/-! Obligations. -/

/-- Effects named once, under one guard key and in the order of the plan. -/
structure Authorizes (effects : List PlanEffect) (guardKey : String) (names : List String) :
    Prop where
  distinct : names.Nodup
  keyed : ∀ name ∈ names, ∃ effect, namedEffect effects name = some effect ∧
    effect.guardKey = guardKey
  ordered : names.Pairwise fun first second => ∀ earlier ∈ namedEffect effects first,
    ∀ later ∈ namedEffect effects second, earlier.index < later.index

theorem authorizeEffect_iff {effects : List PlanEffect} {obligation guardKey name : String}
    {soFar next : AuthorizedSoFar} :
    authorizeEffect effects obligation guardKey soFar name = .ok next ↔ name ∉ soFar.2 ∧
      ∃ effect, namedEffect effects name = some effect ∧ effect.guardKey = guardKey ∧
        (∀ last ∈ soFar.1, last < effect.index) ∧ next = (some effect.index, name :: soFar.2) := by
  rw [authorizeEffect, check_ok, requirePlan_ok]
  cases found : namedEffect effects name with
  | none => simp
  | some effect =>
      simp only [check_ok, requirePlan_ok, pure_ok, Option.some.injEq, exists_eq_left']
      grind

theorem thread_authorizeEffect {effects : List PlanEffect} {obligation guardKey : String}
    {soFar : AuthorizedSoFar} {names : List String} :
    (∃ final, thread (authorizeEffect effects obligation guardKey) soFar names = .ok final) ↔
      Authorizes effects guardKey names ∧ ∀ name ∈ names, name ∉ soFar.2 ∧
        ∀ effect ∈ namedEffect effects name, ∀ last ∈ soFar.1, last < effect.index := by
  induction names generalizing soFar with
  | nil => exact ⟨fun _ => ⟨⟨.nil, by simp, .nil⟩, by simp⟩, fun _ => ⟨soFar, rfl⟩⟩
  | cons name rest ih =>
      have unfolded : (∃ final, thread (authorizeEffect effects obligation guardKey) soFar
          (name :: rest) = .ok final) ↔ ∃ next,
            authorizeEffect effects obligation guardKey soFar name = .ok next ∧
              ∃ final,
                thread (authorizeEffect effects obligation guardKey) next rest = .ok final := by
        simp only [thread, bind_ok]
        grind
      rw [unfolded]
      simp only [ih, authorizeEffect_iff]
      constructor
      · rintro ⟨_, ⟨fresh, effect, found, key, after, rfl⟩, ⟨distinct, keyed, ordered⟩, later⟩
        refine ⟨⟨List.nodup_cons.mpr ⟨fun again => ?_, distinct⟩,
          List.forall_mem_cons.mpr ⟨⟨effect, found, key⟩, keyed⟩,
          List.pairwise_cons.mpr ⟨?_, ordered⟩⟩, ?_⟩
        · exact (later name again).1 List.mem_cons_self
        · intro other listed earlier own next their
          rw [found] at own
          cases own
          exact (later other listed).2 next their _ rfl
        · refine List.forall_mem_cons.mpr ⟨⟨fresh, fun own named last held => ?_⟩,
            fun other listed => ⟨fun seen => (later other listed).1 (List.mem_cons_of_mem _ seen),
              fun own named last held => ?_⟩⟩
          · rw [found] at named
            cases named
            exact after last held
          · exact (after last held).trans ((later other listed).2 own named _ rfl)
      · rintro ⟨⟨distinct, keyed, ordered⟩, after⟩
        obtain ⟨⟨effect, found, key⟩, keyed⟩ := List.forall_mem_cons.mp keyed
        obtain ⟨⟨fresh, here⟩, later⟩ := List.forall_mem_cons.mp after
        obtain ⟨absent, distinct⟩ := List.nodup_cons.mp distinct
        obtain ⟨follows, ordered⟩ := List.pairwise_cons.mp ordered
        refine ⟨_, ⟨fresh, effect, found, key, here effect found, rfl⟩,
          ⟨distinct, keyed, ordered⟩, fun other listed => ⟨?_, ?_⟩⟩
        · rw [List.mem_cons, not_or]
          exact ⟨fun same => absent (same ▸ listed), (later other listed).1⟩
        · intro own named last held
          cases held
          exact follows other listed effect found own named

def Declared (participants : List PlanParticipant) (name : String) : Prop :=
  name ≠ "" ∧ ∃ participant ∈ participants, participant.name = name

structure Resolvable (participants : List PlanParticipant) (effects : List PlanEffect)
    (raw : PlanObligationInput) : Prop where
  version : raw.version = kObligationPlanVersion
  named : raw.name ≠ ""
  obligor : Declared participants raw.obligor
  beneficiary : Declared participants raw.beneficiary
  authority : Declared participants raw.authority
  predicate : ∃ predicate, raw.when = some predicate ∧
    Authorizes effects (structuralKey predicate) raw.effects
  text : raw.canonicalGuard ≠ ""
  effects : raw.effects ≠ []

theorem resolveObligation_exists {participants : List PlanParticipant} {effects : List PlanEffect}
    {names : List String} {raw : PlanObligationInput} :
    (∃ obligation, resolveObligation participants effects names raw = .ok obligation) ↔
      Resolvable participants effects raw ∧ raw.name ∉ names := by
  have authorized : ∀ key, (∃ final, thread (authorizeEffect effects raw.name key) (none, [])
      raw.effects = .ok final) ↔ Authorizes effects key raw.effects := fun key => by
    rw [thread_authorizeEffect]
    simp
  simp only [resolveObligation, check_ok, requirePlan_ok, each_ok, List.forall_mem_cons,
    List.not_mem_nil, false_imp_iff, implies_true, and_true, checkScope, List.any_eq_true,
    decide_eq_true_eq]
  cases predicate : raw.when with
  | none =>
      simp only [planError_ne_ok, and_false, exists_false, false_iff, not_and]
      intro resolvable
      obtain ⟨held, present, _⟩ := resolvable.predicate
      rw [predicate] at present
      cases present
  | some held =>
      simp only [requirePlan_ok, bind_ok, pure_ok]
      constructor
      · rintro ⟨_, version, named, fresh, obligor, ⟨beneficiary, authority⟩, _, text, _, nonempty,
          final, threaded, _⟩
        exact ⟨⟨version, named, obligor, beneficiary, authority,
          ⟨held, predicate, (authorized _).mp ⟨final, threaded⟩⟩, text, nonempty⟩, fresh⟩
      · rintro ⟨resolvable, fresh⟩
        obtain ⟨same, present, authorizes⟩ := resolvable.predicate
        rw [predicate, Option.some.injEq] at present
        subst present
        obtain ⟨final, threaded⟩ := (authorized _).mpr authorizes
        exact ⟨_, resolvable.version, resolvable.named, fresh, resolvable.obligor,
          ⟨resolvable.beneficiary, resolvable.authority⟩, (), resolvable.text, (),
          resolvable.effects, final, threaded, rfl⟩

theorem resolveObligations_exists {participants : List PlanParticipant}
    {effects : List PlanEffect} {names : List String} {raws : List PlanObligationInput} :
    (∃ obligations, resolveObligations participants effects names raws = .ok obligations) ↔
      (∀ raw ∈ raws, Resolvable participants effects raw ∧ raw.name ∉ names) ∧
        (raws.map (·.name)).Nodup := by
  induction raws generalizing names with
  | nil => simp [resolveObligations]
  | cons first rest ih =>
      have unfolded : (∃ obligations, resolveObligations participants effects names (first :: rest) =
          .ok obligations) ↔
            (∃ obligation, resolveObligation participants effects names first = .ok obligation) ∧
              ∃ others, resolveObligations participants effects (first.name :: names) rest =
                .ok others := by
        simp only [resolveObligations, bind_ok, pure_ok]
        grind
      rw [unfolded, ih, resolveObligation_exists]
      simp only [List.map_cons, List.nodup_cons, List.mem_cons, not_or, List.mem_map]
      grind

/-! All checks. -/

/-- What makes a plan of inputs whose groups balance and whose lifecycle is a machine. -/
structure Assembles (raw : PlanInputs) : Prop where
  few : raw.participants.length ≤ kMaxCanonicalAuthorizationParticipants
  participants : checkParticipants [] [] raw.participants = .ok ()
  topology : checkTopology raw.participants [] raw.allowedOrgPairs = .ok ()
  key : KeyResolves raw
  effectless : checkEffectless raw = .ok ()
  bindable : ∀ effect ∈ raw.effects, Bindable raw effect
  policies : PoliciesBound raw
  lifecycle : checkLifecycle raw = .ok ()
  obligations : ∀ obligation ∈ raw.obligations,
    Resolvable raw.participants (boundEffects raw) obligation
  distinct : (raw.obligations.map (·.name)).Nodup

theorem assemblePlan_exists {raw : PlanInputs}
    (moved : raw.balanced = true → ∀ key, movedUnder raw key true = movedUnder raw key false) :
    (∃ plan, assemblePlan raw = .ok plan) ↔ Assembles raw := by
  have resolved := @resolveObligations_exists raw.participants (boundEffects raw) [] raw.obligations
  simp only [List.not_mem_nil, not_false_eq_true, and_true] at resolved
  constructor
  · rintro ⟨plan, accepted⟩
    simp only [assemblePlan, requirePlan_ok, bind_ok] at accepted
    obtain ⟨_, few, _, participants, _, topology, key, keyed, _, effectless, effects, bound, _,
      policies, groups, _, _, _, _, lifecycle, obligations, authorized, _⟩ := accepted
    obtain ⟨rfl, bindable⟩ := collect_bindEffect_ok.mp bound
    obtain ⟨each, distinct⟩ := resolved.mp ⟨obligations, authorized⟩
    exact ⟨few, participants, topology, resolveWorkflowKey_exists.mp ⟨key, keyed⟩, effectless,
      bindable, checkPolicyBinding_iff.mp policies, lifecycle, each, distinct⟩
  · intro assembles
    obtain ⟨key, keyed⟩ := resolveWorkflowKey_exists.mpr assembles.key
    obtain ⟨gate, same⟩ := assembles.policies.gate
    obtain ⟨groups, grouped⟩ := @partitionEffects_exists raw.balanced (boundEffects raw) gate same
    obtain ⟨obligations, authorized⟩ := resolved.mpr ⟨assembles.obligations, assembles.distinct⟩
    have balanced := checkBalance_of_moved (partitionEffects_partition grouped) moved
    simp only [assemblePlan, requirePlan_ok, bind_ok, pure_ok]
    exact ⟨_, (), assembles.few, (), assembles.participants, (), assembles.topology, key, keyed, (),
      assembles.effectless, boundEffects raw,
      collect_bindEffect_ok.mpr ⟨rfl, assembles.bindable⟩, (),
      checkPolicyBinding_iff.mpr assembles.policies, groups, grouped, (), balanced, (),
      assembles.lifecycle, obligations, authorized, rfl⟩

end Neutrino
