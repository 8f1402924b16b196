import Mathlib
import Neutrino.AttestationGate
import Neutrino.Conservation
import Neutrino.ExprPrinting
import Neutrino.SpecBuilder

/-! What becomes of an effect's `when` between a capability spec and its plan: which conditions
reach the evaluator, and which the optional lookups of the reader let go. -/

namespace Neutrino

open Checked

/-! Inference keeps the structure. -/

mutual

theorem typeExpr_structure {env : CategoryEnv} : (raw : ExprNode) → {typed : ExprNode} →
    typeExpr env raw = .ok typed → structureOf typed = structureOf raw
  | .num _ _, typed, accepted => by
      cases accepted
      rfl
  | .var _ _, typed, accepted => by
      cases accepted
      rfl
  | .bin _ lhs rhs _, typed, accepted => by
      simp only [typeExpr, bind_ok, pure_ok] at accepted
      obtain ⟨left, isLeft, right, isRight, _, _, _, _, rfl⟩ := accepted
      rw [structureOf, structureOf, typeExpr_structure lhs isLeft,
        typeExpr_structure rhs isRight]
  | .call _ args _, typed, accepted => by
      rw [typeExpr] at accepted
      split_ifs at accepted
      simp only [bind_ok, pure_ok] at accepted
      obtain ⟨args', areArgs, _, _, rfl⟩ := accepted
      rw [structureOf, structureOf, typeExprs_structure args areArgs]
  | .cmp _ _ _ _, typed, accepted => by
      simp [typeExpr] at accepted

theorem typeExprs_structure {env : CategoryEnv} : (args : List ExprNode) →
    {typed : List ExprNode} → typeExprs env args = .ok typed →
      structuresOf typed = structuresOf args
  | [], typed, accepted => by
      cases accepted
      rfl
  | arg :: rest, typed, accepted => by
      simp only [typeExprs, bind_ok, pure_ok] at accepted
      obtain ⟨first, isFirst, others, areOthers, rfl⟩ := accepted
      rw [structuresOf, structuresOf, typeExpr_structure arg isFirst,
        typeExprs_structure rest areOthers]

end

theorem typeGuard_structure {env : CategoryEnv} {node typed : ExprNode}
    (accepted : typeGuard env node = .ok typed) : structureOf typed = structureOf node := by
  cases node with
  | cmp op lhs rhs dtype =>
      simp only [typeGuard, bind_ok, pure_ok] at accepted
      obtain ⟨left, isLeft, right, isRight, _, _, _, _, _, _, rfl⟩ := accepted
      rw [structureOf, structureOf, typeExpr_structure lhs isLeft, typeExpr_structure rhs isRight]
  | call name args dtype =>
      simp only [typeGuard] at accepted
      split_ifs at accepted
      split at accepted
      · split at accepted
        · cases accepted
        · split_ifs at accepted
          cases accepted
          rfl
      · cases accepted
  | num => simp [typeGuard] at accepted
  | var => simp [typeGuard] at accepted
  | bin => simp [typeGuard] at accepted

theorem structuralKey_ne_empty (node : ExprNode) : structuralKey node ≠ "" := by
  intro empty
  have size := congrArg String.length empty
  cases node <;> simp [structuralKey, String.length_append] at size

/-! A declared condition. -/

/-- The serialized guard of an effect object: the `ast` of its `when`. -/
def guardAst (effect : Json.Object) : Option Json := (effect.getObject "when").bind (·.get "ast")

/-- The serialized guard is `accepted(input)`. -/
def AcceptsInput (ast : Json) (input : String) : Prop :=
  ∃ dtype category, exprFromJson ast = .ok (.call "accepted" [.var input category] dtype)

/-- The plan's effect carries the condition of the spec's effect. -/
structure GuardKept (effect : Json.Object) (planned : PlanEffect) : Prop where
  predicate : ∃ ast node guard, guardAst effect = some ast ∧ exprFromJson ast = .ok node ∧
    planned.guard = some guard ∧ structureOf guard = structureOf node
  keyed : planned.guardKey ≠ ""
  gated : ∀ ast ∈ guardAst effect, ∀ input, AcceptsInput ast input →
    planned.gateMode = .temporalSuppress ∧ planned.gatePolicy = input

/-- A condition the reader finds: `when` is an object with an `ast`, and an acceptance names its
input. -/
def Readable (effect : Json.Object) : Prop :=
  ∃ ast, guardAst effect = some ast ∧ ¬AcceptsInput ast ""

/-! Ingestion, effect by effect. -/

/-- The effect at a position of the spec, the raw effect read from it and its typed guard. -/
structure Ingested (raw : PlanInputs) (plan : CoordinationPlan) (index : Nat)
    (effect : Json.Object) (rawEffect : PlanEffectInput) : Prop where
  read : raw.effects[index]? = some rawEffect
  bound : plan.effects[index]? = some (boundEffect raw (rawEffect, index))
  typed : ∃ env, typeWhen env (.object effect) = .ok rawEffect.guard
  input : rawEffect.guardAcceptedInput = acceptedInput rawEffect.guard

theorem effectFromSpec_ok {element : (Json × Option ExprNode) × Nat} {rawEffect : PlanEffectInput}
    (built : effectFromSpec element = .ok rawEffect) :
    (∃ effect, element.1.1 = .object effect) ∧ rawEffect.guard = element.1.2 := by
  unfold effectFromSpec at built
  split at built
  · rename_i effect isObject
    simp only [bind_ok, pure_ok] at built
    obtain ⟨_, _, rfl⟩ := built
    refine ⟨⟨effect, ?_⟩, rfl⟩
    cases shape : element.1.1 <;> simp_all [Json.asObject]
  · cases built

/-- Every element of `effects` is an object that becomes the effect at its own position. -/
theorem planFromSpec_ingests {spec : Json.Object} {plan : CoordinationPlan}
    (accepted : planFromSpec spec = .ok plan) : ∃ raw, Assembled raw plan ∧ FromBuilder raw ∧
      plan.effects.length = ((spec.getArray "effects").getD []).length ∧
      ∀ index element, ((spec.getArray "effects").getD [])[index]? = some element →
        ∃ effect rawEffect, element = .object effect ∧
          Ingested raw plan index effect rawEffect := by
  obtain ⟨raw, gathered, assembly⟩ := bind_ok.mp accepted
  have assembled := assemblePlan_ok assembly
  have builder := inputsFromSpec_fromBuilder gathered
  refine ⟨raw, assembled, builder, ?_⟩
  simp only [inputsFromSpec, bind_ok, pure_ok] at gathered
  obtain ⟨trees, typed, _, _, _, _, effects, built, _, _, _, _, same⟩ := gathered
  simp only [typeSpecExprs, bind_ok, checkedExpr, mapError_ok, pure_ok] at typed
  obtain ⟨_, typed, _, _, rfl⟩ := typed
  simp only [typeTrees, bind_ok, pure_ok, Prod.exists] at typed
  obtain ⟨_, env, _, guardTrees, guards, _, _, rfl⟩ := typed
  have rawEffects : raw.effects = effects := by rw [← same]
  unfold effectsFromSpec at built
  split at built
  · cases built
  rename_i elements found
  rw [found, Option.getD_some] at guards ⊢
  have typings := collect_ok.mp guards
  have pairs := collect_ok.mp built
  have width : (elements.zip guardTrees).zipIdx.length = elements.length := by
    simp [typings.length_eq]
  refine ⟨by rw [assembled.effects_length, rawEffects, ← pairs.length_eq, width], ?_⟩
  intro index element atIndex
  obtain ⟨guard, atGuard, guardTyped⟩ := forall₂_getElem? typings atIndex
  have zipped : (elements.zip guardTrees)[index]? = some (element, guard) :=
    List.getElem?_zip_eq_some.mpr ⟨atIndex, atGuard⟩
  have visited : (elements.zip guardTrees).zipIdx[index]? = some ((element, guard), index) := by
    simp [List.getElem?_zipIdx, zipped]
  obtain ⟨rawEffect, atRaw, fromElement⟩ := forall₂_getElem? pairs visited
  obtain ⟨⟨effect, rfl⟩, same⟩ := effectFromSpec_ok fromElement
  rw [← rawEffects] at atRaw
  exact ⟨effect, rawEffect, rfl, atRaw, by rw [assembled.getElem?_effects, atRaw]; rfl,
    ⟨env, by rw [same]; exact guardTyped⟩, builder _ (List.mem_of_getElem? atRaw)⟩

namespace Ingested

variable {raw : PlanInputs} {plan : CoordinationPlan} {index : Nat} {effect : Json.Object}
  {rawEffect : PlanEffectInput} (ingested : Ingested raw plan index effect rawEffect)
include ingested

/-- Without an `ast` to read there is no guard. -/
theorem unread (absent : guardAst effect = none) : rawEffect.guard = none := by
  obtain ⟨env, typed⟩ := ingested.typed
  unfold typeWhen at typed
  rw [guardAst] at absent
  simp only [Json.asObject, Option.bind_some, absent] at typed
  exact (Except.ok.inj typed).symm

/-- The `ast` that is read is the guard. -/
theorem guarded {ast : Json} (present : guardAst effect = some ast) :
    ∃ env node guard, exprFromJson ast = .ok node ∧ typeGuard env node = .ok guard ∧
      rawEffect.guard = some guard := by
  obtain ⟨env, typed⟩ := ingested.typed
  unfold typeWhen at typed
  rw [guardAst] at present
  simp only [Json.asObject, Option.bind_some, present, bind_ok, pure_ok] at typed
  obtain ⟨node, read, guard, accepted, same⟩ := typed
  exact ⟨env, node, guard, read, accepted, same.symm⟩

theorem kept_iff : GuardKept effect (boundEffect raw (rawEffect, index)) ↔ Readable effect := by
  constructor
  · intro kept
    obtain ⟨ast, _, _, present, _, _, _⟩ := kept.predicate
    refine ⟨ast, present, fun accepts => ?_⟩
    obtain ⟨mode, policy⟩ := kept.gated ast present "" accepts
    have named := gateMode_temporal mode
    exact named.1 (by rw [← named.2, policy])
  · rintro ⟨ast, present, named⟩
    obtain ⟨env, node, guard, read, accepted, held⟩ := ingested.guarded present
    refine ⟨⟨ast, node, guard, present, read, held, typeGuard_structure accepted⟩, ?_, ?_⟩
    · rw [boundEffect, held]
      exact structuralKey_ne_empty guard
    · rintro ast' present' input ⟨dtype, category, accepts⟩
      cases present.symm.trans present'
      cases read.symm.trans accepts
      have policy : rawEffect.guardAcceptedInput = input := by
        rw [ingested.input, held]
        rcases typeGuard_ok accepted with ⟨_, _, _, _, other, _⟩ | ⟨_, _, _, same, policy⟩
        · cases other
        · cases same
          exact policy
      have input_named : input ≠ "" := by
        rintro rfl
        exact named ⟨dtype, category, accepts⟩
      simp [boundEffect, bindGate, policy, input_named]

end Ingested

/-- A leg that posts fires: its guard, if it has one, holds. -/
theorem posted_fires {sha256Hex : List UInt8 → String} {raw : PlanInputs}
    {plan : CoordinationPlan} (assembled : Assembled raw plan) (builder : FromBuilder raw)
    (temporal : isTemporal plan = true → coordinationIsTemporal plan = true)
    {state : EvalState} {input : TransitionInput} {env : Env}
    (commits : (evaluateTransition sha256Hex plan state input).commits = true)
    (evaluated : (transitionEnv plan input).value = .ok env) {effect : PlanEffect}
    (posted : effect ∈ (postedLegs sha256Hex plan state input).map (·.effect)) :
    fires env effect = true := by
  cases commit_cases commits with
  | evidence _ _ _ _ silent => simp [silent] at posted
  | @groups claim env' infos opens classified committing effects resolved unobserved =>
      obtain rfl : env = env' := Except.ok.inj (evaluated.symm.trans opens.evaluated)
      have suppressed : TemporalPlan raw plan := ⟨assembled, builder, temporal classified.temporal⟩
      rw [effects] at posted
      have accepted := suppressed.committing_accepted evaluated classified posted
      have declared := ((classified.mem_legs assembled).mp posted).1
      obtain ⟨policy, dtype, category, guard, named, _⟩ := suppressed.accepted effect declared
      have known := suppressed.policy_declared declared
      rw [named] at known accepted
      obtain ⟨base, _, rfl⟩ := transitionEnv_ok evaluated
      rw [fires, guard]
      simp only [evalGuard_accepted known, accepted]
  | @legs claim env' opens effectful single effects resolved gated observed =>
      obtain rfl : env = env' := Except.ok.inj (evaluated.symm.trans opens.evaluated)
      rw [effects] at posted
      exact (List.mem_filter.mp posted).2

/-- The effect object at a position of the spec. -/
def EffectAt (spec : Json.Object) (index : Nat) (effect : Json.Object) : Prop :=
  ((spec.getArray "effects").getD [])[index]? = some (.object effect)

/-- The effect object carries a `when` member, whatever its value. -/
def Conditional (effect : Json.Object) : Prop := (effect.get "when").isSome = true

theorem conditional_of_ast {effect : Json.Object} {ast : Json}
    (present : guardAst effect = some ast) : Conditional effect := by
  simp only [guardAst, Json.Object.getObject, Option.bind_eq_some_iff] at present
  obtain ⟨_, ⟨value, found, _⟩, _⟩ := present
  rw [Conditional, found]
  rfl

/-- With every condition readable, a plan the evaluator treats as temporal is gated as one. -/
theorem temporal_of_readable {raw : PlanInputs} {plan : CoordinationPlan}
    (ingests : ∀ index planned, plan.effects[index]? = some planned →
      ∃ effect rawEffect, Ingested raw plan index effect rawEffect ∧
        (Conditional effect → Readable effect))
    (temporal : isTemporal plan = true) : coordinationIsTemporal plan = true := by
  simp only [isTemporal, List.any_eq_true, Option.any_eq_true] at temporal
  obtain ⟨planned, declared, guard, held, accepts⟩ := temporal
  obtain ⟨index, atIndex⟩ := List.getElem?_of_mem declared
  obtain ⟨effect, rawEffect, ingested, readable⟩ := ingests index planned atIndex
  obtain rfl : planned = boundEffect raw (rawEffect, index) :=
    Option.some.inj (atIndex.symm.trans ingested.bound)
  cases present : guardAst effect with
  | none =>
      rw [boundEffect, ingested.unread present] at held
      cases held
  | some ast =>
      have kept := ingested.kept_iff.mpr (readable (conditional_of_ast present))
      obtain ⟨env, node, guard', read, accepted, held'⟩ := ingested.guarded present
      obtain rfl : guard' = guard := by
        rw [boundEffect] at held
        exact Option.some.inj (held'.symm.trans held)
      have same := typeGuard_structure accepted
      rcases typeGuard_ok accepted with ⟨op, lhs, rhs, dtype, rfl, _⟩ |
        ⟨input, category, dtype, rfl, _⟩
      · cases guard' <;> simp_all [structureOf, isAcceptedGuard]
      · have mode := (kept.gated ast present input ⟨dtype, category, read⟩).1
        simp only [coordinationIsTemporal, List.any_eq_true, decide_eq_true_eq]
        exact ⟨_, declared, mode⟩

/-- A condition reaches the plan exactly when the reader finds its `ast` and an acceptance names
its input; without an `ast` the effect fires in every environment, and when every declared
condition is readable, what posts has a guard that holds. -/
theorem guards_ingested_iff {spec : Json.Object} {plan : CoordinationPlan}
    (accepted : planFromSpec spec = .ok plan) :
    (∀ index effect, EffectAt spec index effect → ∃ planned, plan.effects[index]? = some planned ∧
      (GuardKept effect planned ↔ Readable effect) ∧
      (guardAst effect = none → ∀ env, fires env planned = true)) ∧
    ((∀ index effect, EffectAt spec index effect → Conditional effect → Readable effect) →
      ∀ (sha256Hex : List UInt8 → String) (state : EvalState) (input : TransitionInput)
        (env : Env), (evaluateTransition sha256Hex plan state input).commits = true →
        (transitionEnv plan input).value = .ok env → ∀ index effect planned,
          EffectAt spec index effect → Conditional effect →
          plan.effects[index]? = some planned →
          planned ∈ (postedLegs sha256Hex plan state input).map (·.effect) →
          ∃ guard, planned.guard = some guard ∧ evalGuard guard env = .ok true) := by
  obtain ⟨raw, assembled, builder, length, ingests⟩ := planFromSpec_ingests accepted
  have at_effect : ∀ index effect, EffectAt spec index effect →
      ∃ rawEffect, Ingested raw plan index effect rawEffect := by
    intro index effect found
    obtain ⟨_, rawEffect, same, ingested⟩ := ingests index _ found
    cases same
    exact ⟨rawEffect, ingested⟩
  constructor
  · intro index effect found
    obtain ⟨rawEffect, ingested⟩ := at_effect index effect found
    refine ⟨_, ingested.bound, ingested.kept_iff, fun absent env => ?_⟩
    rw [fires, boundEffect, ingested.unread absent]
  · intro readable sha256Hex state input env commits evaluated index effect planned found
      conditional atIndex posted
    have covered : ∀ index planned, plan.effects[index]? = some planned →
        ∃ effect rawEffect, Ingested raw plan index effect rawEffect ∧
          (Conditional effect → Readable effect) := by
      intro index planned atIndex
      obtain ⟨inside, _⟩ := List.getElem?_eq_some_iff.mp atIndex
      rw [length] at inside
      have here := List.getElem?_eq_getElem inside
      obtain ⟨effect, rawEffect, same, ingested⟩ := ingests index _ here
      exact ⟨effect, rawEffect, ingested, readable index effect (by rw [EffectAt, here, same])⟩
    have fired := posted_fires assembled builder (temporal_of_readable covered) commits evaluated
      posted
    obtain ⟨rawEffect, ingested⟩ := at_effect index effect found
    have kept := ingested.kept_iff.mpr (readable index effect found conditional)
    obtain ⟨_, _, guard, _, _, held, _⟩ := kept.predicate
    cases atIndex.symm.trans ingested.bound
    refine ⟨guard, held, ?_⟩
    rw [fires, held] at fired
    cases decided : evalGuard guard env with
    | ok verdict => simp_all
    | error failure => simp [decided] at fired

/-! A payment under one comparison, and the same payment with its condition as bare text. -/

def limit : ExprNode := .cmp "<" (.var "x" .decimal) (.var "y" .decimal) .extension

def limitedSpec : Json.Object := paymentSpec ["x", "y"] (some limit) (some limit)

def quotedLeg : Json → Json
  | .object members => .object (members ++ [("when", .string "x < y")])
  | other => other

def quotedSpec : Json.Object :=
  (paymentSpec ["x", "y"] none none).map fun member =>
    if member.1 = "effects" then
      (member.1, .array (((member.2.asArray).getD []).map quotedLeg)) else member

theorem limited_payment_guarded : ∃ effect planned, EffectAt limitedSpec 0 effect ∧
    (specPlan limitedSpec).effects[0]? = some planned ∧
      (GuardKept effect planned ↔ Readable effect) := by
  have ingested := (guards_ingested_iff (@specPlan_accepted limitedSpec (by decide +kernel))).1
  obtain ⟨planned, atIndex, kept, _⟩ := ingested 0 _ rfl
  exact ⟨_, planned, rfl, atIndex, kept⟩

def lateInput : TransitionInput := paymentInput [("x", 2), ("y", 1)]

theorem quoted_condition_dropped :
    (¬∀ spec plan, planFromSpec spec = .ok plan → ∀ index effect, EffectAt spec index effect →
      Conditional effect → ∃ planned, plan.effects[index]? = some planned ∧
        GuardKept effect planned) ∧
    (evaluateTransition sampleHash (specPlan quotedSpec) EvalState.empty lateInput).outcome =
      .terminal ∧
    (postedLegs sampleHash (specPlan quotedSpec) EvalState.empty lateInput).length = 2 := by
  refine ⟨fun kept => ?_, by decide +kernel, by decide +kernel⟩
  have accepted := @specPlan_accepted quotedSpec (by decide +kernel)
  have unguarded : (specPlan quotedSpec).effects.all (·.guard.isNone) = true := by
    decide +kernel
  obtain ⟨planned, atIndex, preserved⟩ := kept quotedSpec _ accepted 0 _ rfl rfl
  obtain ⟨_, _, guard, _, _, held, _⟩ := preserved.predicate
  have bare := List.all_eq_true.mp unguarded planned (List.mem_of_getElem? atIndex)
  simp [held] at bare

end Neutrino
