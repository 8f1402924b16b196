import Neutrino.FinalizedPostings
import Neutrino.NodeIds
import Neutrino.ProjectedEdges

/-! The guard a target reads of each group of a projected graph: the group's gate, or the
comparison of its first effect. -/

namespace Neutrino.Projection

open Checked SortOn

/-! Expressions and their text. -/

mutual

theorem exprToJson_injective : (first second : ExprNode) → exprToJson first = exprToJson second →
    first = second
  | .num _ _, second, same => by
      cases second <;> simp [exprToJson] at same
      simp [categoryName_injective same.1, same.2]
  | .var _ _, second, same => by
      cases second <;> simp [exprToJson] at same
      simp [categoryName_injective same.1, same.2]
  | .bin op lhs rhs _, second, same => by
      cases second <;> simp [exprToJson] at same
      rename_i op' lhs' rhs' _
      obtain ⟨categories, left, operators, right⟩ := same
      rw [categoryName_injective categories, exprToJson_injective lhs lhs' left, operators,
        exprToJson_injective rhs rhs' right]
  | .call _ args _, second, same => by
      cases second <;> simp [exprToJson] at same
      rename_i args' _
      obtain ⟨arguments, categories, names⟩ := same
      rw [categoryName_injective categories, exprsToJson_injective args args' arguments, names]
  | .cmp _ lhs rhs _, second, same => by
      cases second <;> simp [exprToJson] at same
      rename_i lhs' rhs' _
      obtain ⟨categories, left, operators, right⟩ := same
      rw [categoryName_injective categories, exprToJson_injective lhs lhs' left, operators,
        exprToJson_injective rhs rhs' right]

theorem exprsToJson_injective : (first second : List ExprNode) →
    exprsToJson first = exprsToJson second → first = second
  | [], second, same => by
      cases second with
      | nil => rfl
      | cons => simp [exprsToJson] at same
  | arg :: rest, second, same => by
      cases second with
      | nil => simp [exprsToJson] at same
      | cons arg' rest' =>
          simp only [exprsToJson, List.cons.injEq] at same
          rw [exprToJson_injective arg arg' same.1, exprsToJson_injective rest rest' same.2]

end

/-- Expressions printed alike are equal. -/
theorem JsonText.ReadsExprs.inj {text : JsonText} (reads : text.ReadsExprs)
    {first second : ExprNode}
    (same : text.compactJson (exprToJson first) = text.compactJson (exprToJson second)) :
    first = second := by
  have read := reads first
  rw [JsonText.ReadsBack, same, reads second, Except.ok.injEq] at read
  exact exprToJson_injective first second read.symm

/-! Scans of lists without repeated keys. -/

theorem lastWith_some {α : Type} {found : α → Prop} [DecidablePred found] {elements : List α}
    {element : α} (last : lastWith found elements = some element) :
    element ∈ elements ∧ found element := by
  simpa using List.mem_of_getLast? last

theorem lastWith_key {α κ : Type} [DecidableEq κ] {key : α → κ} {elements : List α}
    (distinct : (elements.map key).Nodup) {element : α} (listed : element ∈ elements) :
    lastWith (fun other => key other = key element) elements = some element := by
  cases last : lastWith (fun other => key other = key element) elements with
  | none =>
      rw [lastWith, List.getLast?_eq_none_iff, List.filter_eq_nil_iff] at last
      exact absurd (last element listed) (by simp)
  | some other =>
      obtain ⟨otherIn, same⟩ := lastWith_some last
      rw [List.inj_on_of_nodup_map distinct otherIn listed same]

theorem sole_ok {α : Type} {missing ambiguous : String} {elements : List α} {element : α} :
    sole missing ambiguous elements = .ok element ↔ elements = [element] := by
  rcases elements with _ | ⟨first, _ | ⟨second, rest⟩⟩ <;> simp [sole]

theorem groupGuardObligation_id {indexed : PlanEffectGroup × Nat} {guard : GuardObligation}
    (obliged : groupGuardObligation indexed = some guard) :
    guard.id = projectionNodeId .guardObligation ["g", toString indexed.1.firstIndex] := by
  simp only [groupGuardObligation] at obliged
  split_ifs at obliged <;> cases obliged <;> rfl

theorem groupGuardObligation_gated {indexed : PlanEffectGroup × Nat}
    (gated : indexed.1.gateMode ≠ .none) (named : indexed.1.gatePolicy ≠ "") :
    ∃ guard, groupGuardObligation indexed = some guard ∧ guard.guardKind = "attested" ∧
      guard.conditionKind = "quorum" ∧ guard.applicationMode =
        if indexed.1.gateMode = .temporalSuppress then "temporal-suppress" else "atomic-refuse" := by
  simp only [groupGuardObligation]
  rw [if_pos ⟨gated, named⟩]
  exact ⟨_, rfl, rfl, rfl, rfl⟩

theorem groupGuardObligation_keyed {indexed : PlanEffectGroup × Nat}
    (ungated : indexed.1.gateMode = .none) (keyed : indexed.1.guardKey ≠ "") :
    ∃ guard, groupGuardObligation indexed = some guard ∧ guard.guardKind = "comparison" ∧
      guard.conditionKind = "comparison" ∧ guard.applicationMode = "comparison" := by
  simp only [groupGuardObligation]
  rw [if_neg (by simp [ungated]), if_pos ⟨ungated, keyed⟩]
  exact ⟨_, rfl, rfl, rfl, rfl⟩

section Projected

variable {sha256Hex : List UInt8 → String} {text : JsonText} {plan : CoordinationPlan}
  (verified : Verified text (projectedGraph sha256Hex text plan))

include verified

theorem Verified.groupIds_nodup :
    (plan.effectGroups.zipIdx.map fun indexed => groupNodeId indexed.1).Nodup := by
  have distinct := verified.family_nodup .balancedEffectGroup
  simpa [BackendProjectionGraph.ids, projectedGraph, balancedEffectGroup, Function.comp_def]
    using distinct

/-- A policy's evidence names an input. -/
theorem Verified.policy_named {policy : AttestationPolicy} (declared : policy ∈ plan.attestations) :
    policy.input ≠ "" := by
  obtain ⟨index, found⟩ := List.getElem?_of_mem declared
  exact verified.cardinalities.evidence (evidenceAcceptance plan (policy, index))
    (List.mem_map_of_mem (List.mem_zipIdx_iff_getElem?.mpr found))

theorem Verified.edges_guardRef {indexed : PlanEffectGroup × Nat}
    (listed : indexed ∈ plan.effectGroups.zipIdx) :
    (projectedGraph sha256Hex text plan).edgesFrom (groupNodeId indexed.1) "guardRef" =
      groupGuardEdges indexed := by
  rw [edgesFrom_projected, Projection.edges_guardRef]
  have sourced (other : PlanEffectGroup × Nat) (_ : other ∈ plan.effectGroups.zipIdx)
      (edge : ProjectionEdge) (held : edge ∈ groupGuardEdges other) :
      edge.«from» = groupNodeId other.1 := by
    obtain ⟨guard, _, rfl⟩ := List.mem_map.mp held
    rfl
  exact filter_flatMap_key sourced verified.groupIds_nodup listed

theorem Verified.guardObligation {indexed : PlanEffectGroup × Nat}
    (listed : indexed ∈ plan.effectGroups.zipIdx) {guard : GuardObligation}
    (obliged : groupGuardObligation indexed = some guard) :
    lastWith (·.id = guard.id) (projectedGraph sha256Hex text plan).guardObligations =
      some guard := by
  have distinct : ((projectedGraph sha256Hex text plan).guardObligations.map (·.id)).Nodup :=
    verified.family_nodup .guardObligation
  have declared : guard ∈ (projectedGraph sha256Hex text plan).guardObligations :=
    List.mem_append_right _ (List.mem_filterMap.mpr ⟨indexed, listed, obliged⟩)
  exact lastWith_key distinct declared

/-- Reading the guard of a group reads its obligation. -/
theorem Verified.groupGuard_eq {indexed : PlanEffectGroup × Nat}
    (listed : indexed ∈ plan.effectGroups.zipIdx) :
    groupGuard text (projectedGraph sha256Hex text plan) (balancedEffectGroup text plan indexed) =
      match groupGuardObligation indexed with
      | none => do
          require (comparisonGuardExpression text plan indexed.1 = "")
            "diag:GroupGuardProjection:comparison-expression-spurious"
          return {}
      | some guard => guardOf text (projectedGraph sha256Hex text plan)
          (balancedEffectGroup text plan indexed) guard := by
  have edges : (projectedGraph sha256Hex text plan).edgesFrom
      (balancedEffectGroup text plan indexed).id "guardRef" = groupGuardEdges indexed :=
    verified.edges_guardRef listed
  unfold groupGuard
  rw [edges, groupGuardEdges]
  cases obliged : groupGuardObligation indexed with
  | none => rfl
  | some guard =>
      have found := verified.guardObligation listed obliged
      simp only [Option.toList_some, List.map_cons, List.map_nil]
      rw [found]

/-- A group's source names it alone. -/
theorem Verified.consumeGroupGuardProjection_eq {indexed : PlanEffectGroup × Nat}
    (listed : indexed ∈ plan.effectGroups.zipIdx) :
    consumeGroupGuardProjection text (projectedGraph sha256Hex text plan)
        (planRef "effectGroups" indexed.2) =
      groupGuard text (projectedGraph sha256Hex text plan)
        (balancedEffectGroup text plan indexed) := by
  have declared : balancedEffectGroup text plan indexed ∈
      (projectedGraph sha256Hex text plan).balancedEffectGroups := List.mem_map_of_mem listed
  obtain ⟨guard, consumed⟩ := verified.cardinalities.groupGuards _ declared
  obtain ⟨group, found, _⟩ := bind_ok.mp consumed
  rw [sole_ok] at found
  have held : balancedEffectGroup text plan indexed ∈
      (projectedGraph sha256Hex text plan).balancedEffectGroups.filter
        (·.sourceRef = (balancedEffectGroup text plan indexed).sourceRef) :=
    List.mem_filter.mpr ⟨declared, by simp⟩
  rw [found, List.mem_singleton] at held
  subst held
  have alone : (projectedGraph sha256Hex text plan).balancedEffectGroups.filter
      (·.sourceRef = planRef "effectGroups" indexed.2) = [balancedEffectGroup text plan indexed] :=
    found
  rw [consumeGroupGuardProjection, alone]
  rfl

/-- The policy edge of a group's attested guard leads to the group's own policy. -/
theorem Verified.guard_policyRef {indexed : PlanEffectGroup × Nat}
    (listed : indexed ∈ plan.effectGroups.zipIdx) {guard : GuardObligation}
    (obliged : groupGuardObligation indexed = some guard) {edge : ProjectionEdge}
    (out : edge ∈ (projectedGraph sha256Hex text plan).edgesFrom guard.id "policyRef") :
    edge.to = policyIdByInput plan indexed.1.gatePolicy := by
  have source := groupGuardObligation_id obliged
  rw [edgesFrom_projected, edges_policyRef] at out
  obtain ⟨family, ends⟩ := List.mem_filter.mp out
  simp only [decide_eq_true_eq] at ends
  rw [source] at ends
  rcases List.mem_append.mp family with family | grouped
  · rcases List.mem_append.mp family with primitive | evidence
    · obtain ⟨_, _, rfl⟩ := List.mem_map.mp primitive
      cases (projectionNodeId_inj.mp ends).1
    · obtain ⟨_, _, rfl⟩ := List.mem_map.mp evidence
      have components := (projectionNodeId_inj.mp ends).2
      simp at components
  · obtain ⟨other, otherIn, held⟩ := List.mem_flatMap.mp grouped
    obtain ⟨own, ownIn, rfl⟩ := List.mem_map.mp held
    rw [List.mem_filter, Option.mem_toList] at ownIn
    rw [groupGuardObligation_id ownIn.1] at ends
    have components := (projectionNodeId_inj.mp ends).2
    simp only [List.cons.injEq, and_true, true_and] at components
    have same : groupNodeId other.1 = groupNodeId indexed.1 := by
      rw [groupNodeId, groupNodeId, components]
    rw [List.inj_on_of_nodup_map verified.groupIds_nodup otherIn listed same]

end Projected

/-! What a target reads of an attestation policy. -/

section Attestation

variable {sha256Hex : List UInt8 → String} {text : JsonText} {plan : CoordinationPlan}

theorem observerBinding_ok {evidence : Option EvidenceAcceptance} {observer : Option Reference}
    {bound : EvidenceAcceptance × Reference}
    (paired : observerBinding evidence observer = .ok bound) :
    evidence = some bound.1 ∧ observer = some bound.2 := by
  unfold observerBinding at paired
  split at paired
  · split at paired <;> cases paired
    exact ⟨rfl, rfl⟩
  · cases paired

/-- A binding names a declared policy, by its input. -/
theorem attestationBinding_projected {policyId : String} {binding : AttestationBinding}
    (bound : attestationBinding (projectedGraph sha256Hex text plan) policyId = .ok binding) :
    ∃ policy ∈ plan.attestations,
      binding.policyId = projectionNodeId .quorumPolicy [policy.input] ∧
        binding.inputBinding = policy.input := by
  unfold attestationBinding at bound
  split at bound
  · cases bound
  · rename_i policyNode found
    obtain ⟨policyIn, _⟩ := lastWith_some found
    obtain ⟨indexed, listed, rfl⟩ := List.mem_map.mp policyIn
    simp only [bind_ok, pure_ok] at bound
    obtain ⟨inputId, edgeFound, observerId, _, evidence, paired, rfl⟩ := bound
    obtain ⟨edge, alone, rfl⟩ := map_ok.mp edgeFound
    rw [sole_ok] at alone
    have out : edge ∈ (projectedGraph sha256Hex text plan).edgesFrom
        (quorumPolicy indexed).id "inputRef" := by simp [alone]
    rw [edgesFrom_projected, edges_inputRef] at out
    obtain ⟨family, sourced⟩ := List.mem_filter.mp out
    obtain ⟨other, otherIn, rfl⟩ := List.mem_map.mp family
    simp only [decide_eq_true_eq, quorumPolicy, projectionNodeId_inj, List.cons.injEq, and_true,
      true_and] at sourced
    have declared : indexed.1 ∈ plan.attestations :=
      List.mem_of_getElem? (List.mem_zipIdx_iff_getElem?.mp listed)
    refine ⟨indexed.1, declared, rfl, ?_⟩
    obtain ⟨evidenceFound, _⟩ := observerBinding_ok paired
    obtain ⟨evidenceIn, sameId⟩ := lastWith_some evidenceFound
    obtain ⟨third, _, same⟩ := List.mem_map.mp evidenceIn
    rw [← same] at sameId ⊢
    simp only [evidenceAcceptance, projectionNodeId_inj, List.cons.injEq, and_true, true_and]
      at sameId
    exact sameId.trans sourced

theorem consumeAttestation_projected {attestation : AttestationProjection}
    (consumed : consumeAttestationProjection (projectedGraph sha256Hex text plan) =
      .ok attestation) : ∀ binding ∈ attestation.policies, ∃ policy ∈ plan.attestations,
      binding.policyId = projectionNodeId .quorumPolicy [policy.input] ∧
        binding.inputBinding = policy.input := by
  intro binding listed
  simp only [consumeAttestationProjection, bind_ok] at consumed
  obtain ⟨mode, _, later⟩ := consumed
  split at later
  · obtain ⟨_, _, rfl⟩ := map_ok.mp later
    simp at listed
  · simp only [bind_ok, pure_ok] at later
    obtain ⟨policies, collected, rfl⟩ := later
    obtain ⟨policyId, _, bound⟩ := collect_mem_result collected listed
    exact attestationBinding_projected bound
  · cases later

theorem Verified.policyInputBinding_projected
    (verified : Verified text (projectedGraph sha256Hex text plan))
    {indexed : PlanEffectGroup × Nat} (listed : indexed ∈ plan.effectGroups.zipIdx)
    {guard : GuardObligation} (obliged : groupGuardObligation indexed = some guard)
    {policyInput : String}
    (bound : policyInputBinding (projectedGraph sha256Hex text plan) guard = .ok policyInput) :
    policyInput = indexed.1.gatePolicy := by
  simp only [policyInputBinding, bind_ok, sole_ok] at bound
  obtain ⟨edge, alone, attestation, consumed, later⟩ := bound
  split at later
  · rename_i binding found
    cases later
    have out : edge ∈ (projectedGraph sha256Hex text plan).edgesFrom guard.id "policyRef" := by
      simp [alone]
    have reached := verified.guard_policyRef listed obliged out
    obtain ⟨policy, _, policyId, input⟩ :=
      consumeAttestation_projected consumed binding (List.mem_of_find?_eq_some found)
    have same := List.find?_some found
    simp only [decide_eq_true_eq] at same
    rw [policyId, reached, policyIdByInput] at same
    split at same
    · simp only [projectionNodeId_inj, List.cons.injEq, and_true, true_and] at same
      rw [input, same]
    · exact absurd same (projectionNodeId_ne_empty _ _)
  · cases later

end Attestation

/-! The guard a target reads of a group. -/

section Guard

variable {sha256Hex : List UInt8 → String} {text : JsonText} {plan : CoordinationPlan}

/-- The guard of a group's first effect. -/
def firstGuard (plan : CoordinationPlan) (group : PlanEffectGroup) : Option ExprNode :=
  (group.effectIndices.head?.bind fun index => plan.effects[index]?).bind (·.guard)

theorem comparisonGuardExpression_ungated {group : PlanEffectGroup}
    (ungated : group.gateMode = .none) : comparisonGuardExpression text plan group =
      (firstGuard plan group).elim "" fun guard => text.compactJson (exprToJson guard) := by
  rw [comparisonGuardExpression, if_pos ungated, firstGuard]
  split <;> simp [*]

/-- What a target reads of a group: its gate, or without one the guard of its first effect. -/
def projectedGuard (plan : CoordinationPlan) (group : PlanEffectGroup) : GroupGuardProjection :=
  if group.gateMode ≠ .none then {
    present := true
    guardKind := "attested"
    conditionKind := "quorum"
    applicationMode :=
      if group.gateMode = .temporalSuppress then "temporal-suppress" else "atomic-refuse"
    policyInputBinding := group.gatePolicy
  } else if group.guardKey ≠ "" then {
    present := true
    guardKind := "comparison"
    conditionKind := "comparison"
    applicationMode := "comparison"
    comparisonGuard := firstGuard plan group
  } else {}

theorem reconstructComparison_ok {graph : BackendProjectionGraph} {group : BalancedEffectGroup}
    {expression : ExprNode} (rebuilt : reconstructComparison text graph group = .ok expression) :
    text.compactJson (exprToJson expression) = group.comparisonGuardExpression := by
  unfold reconstructComparison at rebuilt
  split at rebuilt
  · cases rebuilt
  · split at rebuilt
    · cases rebuilt
    · split at rebuilt
      · cases rebuilt
        assumption
      · cases rebuilt

/-- A target that reads a group's guard reads its gate, or the comparison its first effect has. -/
theorem Verified.consumed_guard (verified : Verified text (projectedGraph sha256Hex text plan))
    (reads : text.ReadsExprs) {indexed : PlanEffectGroup × Nat}
    (listed : indexed ∈ plan.effectGroups.zipIdx)
    (named : indexed.1.gateMode ≠ .none → indexed.1.gatePolicy ≠ "")
    {guard : GroupGuardProjection}
    (consumed : consumeGroupGuardProjection text (projectedGraph sha256Hex text plan)
      (planRef "effectGroups" indexed.2) = .ok guard) : guard = projectedGuard plan indexed.1 := by
  rw [verified.consumeGroupGuardProjection_eq listed, verified.groupGuard_eq listed] at consumed
  by_cases gated : indexed.1.gateMode = .none
  · by_cases keyed : indexed.1.guardKey = ""
    · have free : groupGuardObligation indexed = none := by simp [groupGuardObligation, gated, keyed]
      simp only [free, check_ok, pure_ok] at consumed
      simp [projectedGuard, gated, keyed, consumed.2]
    · obtain ⟨obligation, obliged, kind, condition, mode⟩ := groupGuardObligation_keyed gated keyed
      simp only [obliged, guardOf, kind, condition, mode, if_true, bind_ok, require_ok, pure_ok]
        at consumed
      obtain ⟨_, spelled, expression, rebuilt, rfl⟩ := consumed
      have same := reconstructComparison_ok rebuilt
      rw [balancedEffectGroup, comparisonGuardExpression_ungated gated] at same spelled
      cases first : firstGuard plan indexed.1 with
      | none => simp [first] at spelled
      | some guard =>
          rw [first] at same
          simp [projectedGuard, gated, keyed, first, reads.inj same]
  · obtain ⟨obligation, obliged, kind, condition, mode⟩ :=
      groupGuardObligation_gated gated (named gated)
    have attested : ("attested" = "comparison") = False := by decide
    simp only [obliged, guardOf, kind, condition, mode, attested, if_true, if_false, bind_ok,
      require_ok, pure_ok] at consumed
    obtain ⟨_, _, policyInput, bound, rfl⟩ := consumed
    rw [verified.policyInputBinding_projected listed obliged bound]
    simp [projectedGuard, gated]

end Guard

end Neutrino.Projection
