import Neutrino.ClaimPreimage
import Neutrino.Library.HexText
import Neutrino.Library.PrefixCode
import Neutrino.OracleInvariant
import Neutrino.SemanticCore

/-! What the identity of a coordination pins: under a hash without collisions on framed fields,
plans of one identity have one semantic core. -/

namespace Neutrino

open PrefixCode

theorem nat_toString_injective : Function.Injective (toString : Nat → String) := by
  intro left right same
  have whole : Int.repr left = Int.repr right := same
  exact Int.ofNat_inj.mp (Int.repr_inj.mp whole)

theorem int_toString_injective : Function.Injective (toString : Int → String) :=
  fun _ _ same => Int.repr_inj.mp same

theorem flagField_injective : Function.Injective flagField := by
  intro left right same
  cases left <;> cases right <;> first | rfl | exact absurd same (by decide)

theorem charField_injective {left right : Char} (same : left.toString = right.toString) :
    left = right := by
  have chars := congrArg String.toList same
  simpa [Char.toString] using chars

/-! Expressions. -/

mutual

theorem exprFields_reads : (first second : ExprNode) → {after after' : List String} →
    exprFields first ++ after = exprFields second ++ after' → first = second ∧ after = after'
  | .num value dtype, second => by
      intro same
      cases second with
      | num other category =>
          simp only [exprFields, List.cons_append, List.nil_append, List.cons.injEq, true_and]
            at same
          obtain ⟨values, categories, ends⟩ := same
          exact ⟨by rw [int64_toString_injective values, categoryName_injective categories], ends⟩
      | var | bin | cmp | call => simp [exprFields] at same
  | .var name dtype, second => by
      intro same
      cases second with
      | var other category =>
          simp only [exprFields, List.cons_append, List.nil_append, List.cons.injEq, true_and]
            at same
          obtain ⟨names, categories, ends⟩ := same
          exact ⟨by rw [names, categoryName_injective categories], ends⟩
      | num | bin | cmp | call => simp [exprFields] at same
  | .bin op lhs rhs dtype, second => by
      intro same
      cases second with
      | bin other lhs' rhs' category =>
          simp only [exprFields, List.cons_append, List.nil_append, List.append_assoc,
            List.cons.injEq, true_and] at same
          obtain ⟨ops, categories, children⟩ := same
          obtain ⟨left, rest⟩ := exprFields_reads lhs lhs' children
          obtain ⟨right, ends⟩ := exprFields_reads rhs rhs' rest
          simp only [List.cons.injEq, true_and] at ends
          exact ⟨by rw [charField_injective ops, categoryName_injective categories, left, right],
            ends⟩
      | num | var | cmp | call => simp [exprFields] at same
  | .cmp op lhs rhs dtype, second => by
      intro same
      cases second with
      | cmp other lhs' rhs' category =>
          simp only [exprFields, List.cons_append, List.nil_append, List.append_assoc,
            List.cons.injEq, true_and] at same
          obtain ⟨ops, categories, children⟩ := same
          obtain ⟨left, rest⟩ := exprFields_reads lhs lhs' children
          obtain ⟨right, ends⟩ := exprFields_reads rhs rhs' rest
          simp only [List.cons.injEq, true_and] at ends
          exact ⟨by rw [ops, categoryName_injective categories, left, right], ends⟩
      | num | var | bin | call => simp [exprFields] at same
  | .call name args dtype, second => by
      intro same
      cases second with
      | call other args' category =>
          simp only [exprFields, List.cons_append, List.nil_append, List.cons.injEq, true_and]
            at same
          obtain ⟨names, categories, counts, children⟩ := same
          obtain ⟨arguments, ends⟩ :=
            argumentFields_reads args args' (nat_toString_injective counts) children
          exact ⟨by rw [names, categoryName_injective categories, arguments], ends⟩
      | num | var | bin | cmp => simp [exprFields] at same

theorem argumentFields_reads : (first second : List ExprNode) → {after after' : List String} →
    first.length = second.length →
    argumentFields first ++ after = argumentFields second ++ after' →
    first = second ∧ after = after'
  | [], second => by
      intro length same
      have none : second = [] := List.eq_nil_of_length_eq_zero length.symm
      subst none
      exact ⟨rfl, by simpa [argumentFields] using same⟩
  | argument :: rest, second => by
      intro length same
      cases second with
      | nil => simp at length
      | cons other others =>
          simp only [argumentFields, List.append_assoc] at same
          obtain ⟨here, later⟩ := exprFields_reads argument other same
          obtain ⟨arguments, ends⟩ :=
            argumentFields_reads rest others (by simpa using length) later
          exact ⟨by rw [here, arguments], ends⟩

end

theorem reads_expr : Reads exprFields (fun node => node) :=
  fun first second _ _ same => exprFields_reads first second same

theorem reads_optionalExpr : Reads optionalExprFields (fun guard => guard) := by
  have present : ∀ node, ∃ token rest, exprFields node = token :: rest ∧ token ≠ "" := by
    intro node
    cases node <;> exact ⟨_, _, rfl, by decide⟩
  have fields : optionalExprFields = fun guard => guard.elim [""] exprFields := by
    funext guard
    cases guard <;> rfl
  rw [fields]
  intro first second after after' same
  obtain ⟨guards, ends⟩ := reads_expr.optional present same
  exact ⟨by simpa using guards, ends⟩

theorem reads_counted : Reads countedFields (fun names => names) := by
  intro first second after after' same
  simp only [countedFields, List.cons_append, List.cons.injEq] at same
  exact List.append_inj same.2 (nat_toString_injective same.1)

/-! The parts of a plan. -/

theorem reads_input : Reads (fun input : PlanInput => [input.name, input.type])
    (fun input => input) := by
  intro first second after after' same
  simp only [List.cons_append, List.nil_append, List.cons.injEq] at same
  obtain ⟨name, type, ends⟩ := same
  refine ⟨?_, ends⟩
  cases first
  cases second
  simp_all

theorem reads_compute : Reads computeFields (fun compute => compute) := by
  intro first second after after' same
  simp only [computeFields, List.cons_append, List.nil_append, List.append_assoc,
    List.cons.injEq] at same
  obtain ⟨name, category, parts⟩ := same
  obtain ⟨deps, rest⟩ := reads_counted parts
  obtain ⟨expr, ends⟩ := reads_optionalExpr rest
  refine ⟨?_, ends⟩
  cases first
  cases second
  simp_all

/-- What the identity frames of an effect. -/
def PlanEffect.framedView (effect : PlanEffect) : PlanEffect := { effect.core with index := 0 }

theorem reads_effect : Reads effectFields PlanEffect.framedView := by
  intro first second after after' same
  simp only [effectFields, List.cons_append, List.nil_append, List.cons.injEq] at same
  obtain ⟨name, kind, ledger, party, amount, currency, guardKey, gate, rest⟩ := same
  obtain ⟨guard, ends⟩ := reads_optionalExpr rest
  refine ⟨?_, ends⟩
  cases first
  cases second
  simp_all [PlanEffect.framedView, PlanEffect.core]

/-- What the identity frames of a group. -/
def PlanEffectGroup.framedView (group : PlanEffectGroup) : PlanEffectGroup :=
  { group.core with
    effectIndices := []
    firstIndex := 0 }

theorem reads_group : Reads groupFields PlanEffectGroup.framedView := by
  intro first second after after' same
  simp only [groupFields, List.cons_append, List.nil_append, List.cons.injEq] at same
  obtain ⟨guardKey, gate, balance, debits, credits, ends⟩ := same
  have mustBalance := flagField_injective balance
  have debitCount := nat_toString_injective debits
  have creditCount := nat_toString_injective credits
  refine ⟨?_, ends⟩
  cases first
  cases second
  simp_all [PlanEffectGroup.framedView, PlanEffectGroup.core]

theorem reads_policy : Reads policyFields (fun policy => policy) := by
  intro first second after after' same
  simp only [policyFields, List.cons_append, List.nil_append, List.cons.injEq] at same
  obtain ⟨input, threshold, same⟩ := same
  have quorum := int_toString_injective threshold
  refine ⟨?_, by simp_all⟩
  cases first
  cases second
  simp_all

theorem reads_obligation : Reads obligationFields PlanObligation.core := by
  intro first second after after' same
  simp only [obligationFields, List.cons_append, List.nil_append, List.append_assoc,
    List.cons.injEq] at same
  obtain ⟨number, name, obligor, beneficiary, authority, guardKey, parts⟩ := same
  have version := int_toString_injective number
  obtain ⟨condition, rest⟩ := reads_expr parts
  obtain ⟨effects, rest⟩ := reads_counted rest
  obtain ⟨statuses, ends⟩ := reads_counted rest
  refine ⟨?_, ends⟩
  cases first
  cases second
  simp_all [PlanObligation.core]

theorem obligationBlock_reads {first second : List PlanObligation}
    (same : obligationBlock first = obligationBlock second) :
    first.map PlanObligation.core = second.map PlanObligation.core := by
  cases first with
  | nil =>
      cases second with
      | nil => rfl
      | cons => simp [obligationBlock] at same
  | cons obligation rest =>
      cases second with
      | nil => simp [obligationBlock] at same
      | cons other others =>
          exact (reads_obligation.counted nat_toString_injective).eq same

/-! The plan. -/

/-- Plans that frame alike differ at most in what the identity does not frame. -/
theorem identityFields_reads {first second : CoordinationPlan}
    (same : identityFields first = identityFields second) :
    first.effects.map PlanEffect.framedView = second.effects.map PlanEffect.framedView ∧
    first.effectGroups.map PlanEffectGroup.framedView =
      second.effectGroups.map PlanEffectGroup.framedView ∧
    { first.core with
      effects := []
      effectGroups := [] } = { second.core with
        effects := []
        effectGroups := [] } := by
  simp only [identityFields, List.cons_append, List.nil_append, List.append_assoc,
    List.cons.injEq, true_and] at same
  obtain ⟨procedure, workflowKey, instanceKey, evidence, balance, replayKey, idempotence,
    success, aborted, contested, inputCount, same⟩ := same
  obtain ⟨inputs, same⟩ := reads_input.repeated (nat_toString_injective inputCount) same
  obtain ⟨computeCount, same⟩ := List.cons.inj same
  obtain ⟨computes, same⟩ := reads_compute.repeated (nat_toString_injective computeCount) same
  obtain ⟨effectCount, same⟩ := List.cons.inj same
  obtain ⟨effects, same⟩ := reads_effect.repeated (nat_toString_injective effectCount) same
  obtain ⟨groupCount, same⟩ := List.cons.inj same
  obtain ⟨groups, same⟩ := reads_group.repeated (nat_toString_injective groupCount) same
  obtain ⟨policyCount, same⟩ := List.cons.inj same
  obtain ⟨policies, same⟩ := reads_policy.repeated (nat_toString_injective policyCount) same
  have obligations := obligationBlock_reads same
  have evidenceOnly := flagField_injective evidence
  have balanced := flagField_injective balance
  have replay : first.replay = second.replay := by
    have idempotent := flagField_injective idempotence
    cases sameFirst : first.replay
    cases sameSecond : second.replay
    simp_all
  have terminal : first.terminal = second.terminal := by
    cases sameFirst : first.terminal
    cases sameSecond : second.terminal
    simp_all
  simp only [List.map_id'] at inputs computes policies
  refine ⟨effects, groups, ?_⟩
  simp only [CoordinationPlan.core, CoordinationPlan.mk.injEq, true_and]
  exact ⟨procedure, inputs, workflowKey, instanceKey, evidenceOnly, balanced, computes, policies,
    replay, terminal, obligations⟩

/-! Positions. -/

section Positions

variable {raw : PlanInputs} {plan : CoordinationPlan}

/-- The position of an effect is its index. -/
theorem Assembled.effects_core (assembled : Assembled raw plan) :
    plan.effects.map PlanEffect.core =
      (plan.effects.map PlanEffect.framedView).zipIdx.map fun entry =>
        { entry.1 with index := entry.2 } := by
  apply List.ext_getElem?
  intro index
  simp only [List.getElem?_map, List.getElem?_zipIdx, assembled.getElem?_effects]
  cases raw.effects[index]? with
  | none => rfl
  | some effect => simp [PlanEffect.framedView, PlanEffect.core, boundEffect]

/-- A group's effects are those under its key, which the effects determine. -/
theorem Assembled.groups_core (assembled : Assembled raw plan) :
    plan.effectGroups.map PlanEffectGroup.core =
      (plan.effectGroups.map PlanEffectGroup.framedView).map fun group =>
        let indices := (keyed (plan.effects.map PlanEffect.core) group.guardKey).map (·.index)
        { group with
          effectIndices := indices
          firstIndex := indices.headD 0 } := by
  rw [List.map_map]
  apply List.map_congr_left
  intro group declared
  have shape := assembled.partition.shapes group declared
  have indices : (keyed (plan.effects.map PlanEffect.core) group.guardKey).map (·.index) =
      group.effectIndices := by
    rw [shape.indices, keyed, keyed, List.filter_map, List.map_map]
    rfl
  obtain ⟨first, head, position, _⟩ := shape.first
  have headed : group.effectIndices.headD 0 = group.firstIndex := by
    rw [shape.indices, position, List.headD_eq_head?_getD, List.head?_map, head]
    rfl
  have key : group.framedView.guardKey = group.guardKey := rfl
  simp only [Function.comp, key, indices, headed]
  rfl

end Positions

section Hash

variable {sha256Hex : List UInt8 → String}

/-- Every string the plan's identity is framed from has a 64-bit length. -/
def IdentityFramable (plan : CoordinationPlan) : Prop :=
  ∀ field ∈ identityFields plan, Framing.Framable (utf8 field)

/-- Accepted plans of one identity have one semantic core. -/
theorem core_eq_of_identity (collisionFree : CollisionFree sha256Hex)
    {raw raw' : PlanInputs} {first second : CoordinationPlan}
    (assembled : Assembled raw first) (assembled' : Assembled raw' second)
    (fits : IdentityFramable first) (fits' : IdentityFramable second)
    (same : coordinationIdentityHash sha256Hex first =
      coordinationIdentityHash sha256Hex second) : first.core = second.core := by
  have fields := framed_injective fits fits' (collisionFree _ _ same)
  obtain ⟨views, groupViews, rest⟩ := identityFields_reads fields
  have effects : first.effects.map PlanEffect.core = second.effects.map PlanEffect.core := by
    rw [assembled.effects_core, assembled'.effects_core, views]
  have groups : first.effectGroups.map PlanEffectGroup.core =
      second.effectGroups.map PlanEffectGroup.core := by
    rw [assembled.groups_core, assembled'.groups_core, groupViews, effects]
  simp only [CoordinationPlan.core, CoordinationPlan.mk.injEq, true_and] at rest ⊢
  obtain ⟨procedure, inputs, workflowKey, instanceKey, evidenceOnly, balanced, computes, policies,
    replay, terminal, obligations⟩ := rest
  exact ⟨procedure, inputs, workflowKey, instanceKey, evidenceOnly, balanced, effects, groups,
    computes, policies, replay, terminal, obligations⟩

end Hash

/-- Coordination identity binds behaviour: accepted plans of one identity answer every transition
from every state alike. -/
theorem identity_binds_behaviour (sha256Hex : List UInt8 → String)
    (collisionFree : CollisionFree sha256Hex) {raw raw' : PlanInputs}
    {first second : CoordinationPlan} (accepted : assemblePlan raw = .ok first)
    (accepted' : assemblePlan raw' = .ok second) (fits : IdentityFramable first)
    (fits' : IdentityFramable second)
    (same : coordinationIdentityHash sha256Hex first = coordinationIdentityHash sha256Hex second)
    (state : EvalState) (input : TransitionInput) :
    (evaluateTransition sha256Hex first state input).outcome =
        (evaluateTransition sha256Hex second state input).outcome ∧
      (evaluateTransition sha256Hex first state input).trace =
        (evaluateTransition sha256Hex second state input).trace ∧
      (evaluateTransition sha256Hex first state input).refusalCode =
        (evaluateTransition sha256Hex second state input).refusalCode ∧
      (evaluateTransition sha256Hex first state input).next =
        (evaluateTransition sha256Hex second state input).next := by
  have cores := core_eq_of_identity collisionFree (assemblePlan_ok accepted)
    (assemblePlan_ok accepted') fits fits' same
  have results : evaluateTransition sha256Hex first state input =
      evaluateTransition sha256Hex second state input := by
    rw [← evaluateTransition_core, cores, evaluateTransition_core]
  rw [results]
  exact ⟨rfl, rfl, rfl, rfl⟩

/-- The sample coordination with a note on every leg, which the identity does not frame. -/
def notedInputs : PlanInputs :=
  { sampleInputs with
    effects := sampleInputs.effects.map fun effect => { effect with memo := "note" } }

def notedPlan : CoordinationPlan := ((assemblePlan notedInputs).toOption).getD default

theorem notedPlan_accepted : assemblePlan notedInputs = .ok notedPlan := rfl

theorem identity_binds_behaviour_sample :
    (evaluateTransition HexText.hexText samplePlan EvalState.empty
        (sampleInput "t-1" true true)).trace =
      (evaluateTransition HexText.hexText notedPlan EvalState.empty
        (sampleInput "t-1" true true)).trace := by
  have fields : identityFields samplePlan = identityFields notedPlan := by decide +kernel
  have fits : IdentityFramable samplePlan := by
    have short : ∀ field ∈ identityFields samplePlan, (utf8 field).length < 2 ^ 64 := by
      decide +kernel
    exact short
  have fits' : IdentityFramable notedPlan := by
    intro field listed
    rw [← fields] at listed
    exact fits field listed
  have same : coordinationIdentityHash HexText.hexText samplePlan =
      coordinationIdentityHash HexText.hexText notedPlan := by
    rw [coordinationIdentityHash, fields, coordinationIdentityHash]
  exact (identity_binds_behaviour HexText.hexText
    (fun _ _ hashed => HexText.hexText_injective hashed) samplePlan_accepted notedPlan_accepted
    fits fits' same EvalState.empty (sampleInput "t-1" true true)).2.1

end Neutrino
