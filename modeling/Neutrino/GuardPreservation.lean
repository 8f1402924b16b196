import Neutrino.AttestationGate
import Neutrino.Conservation
import Neutrino.ProjectedGuards
import Neutrino.SpecBuilder

/-! Which plans keep their guards through the backend projection: every finalized posting carries
the comparison of its effect and the gate of its effect's group, and admits exactly what the
evaluator posts. -/

namespace Neutrino.Projection

open Checked SortOn

/-! What both builders promise about the guards they gather. -/

/-- The names a builder declares. -/
def rawNames (raw : PlanInputs) : List String :=
  raw.inputs.map (·.name) ++ raw.computes.map (·.name)

/-- Every guard has been typed under declared names. -/
def GuardsTyped (raw : PlanInputs) : Prop :=
  ∀ effect ∈ raw.effects, ∀ guard ∈ effect.guard, ∃ (env : CategoryEnv) (node : ExprNode),
    (∀ name, name ∈ env → name ∈ rawNames raw) ∧ typeGuard env node = .ok guard

def isComparison : ExprNode → Bool
  | .cmp _ _ _ _ => true
  | _ => false

/-- The comparison of an effect, if its guard is one. -/
def comparisonOf (effect : PlanEffect) : Option ExprNode := effect.guard.filter isComparison

theorem typeGuard_cases {env : CategoryEnv} {node guard : ExprNode}
    (typed : typeGuard env node = .ok guard) : isComparison guard = true ∨
      ∃ input dtype category, guard = .call "accepted" [.var input category] dtype ∧ input ∈ env := by
  unfold typeGuard at typed
  split at typed
  · split at typed
    · rename_i isAccepted
      subst isAccepted
      split at typed
      · rename_i input _
        split at typed
        · cases typed
        · rename_i category found
          split at typed
          · cases typed
            refine .inr ⟨input, _, category, rfl, ?_⟩
            rw [Std.ExtTreeMap.mem_iff_isSome_getElem?, found]
            rfl
          · cases typed
      · cases typed
    · cases typed
  · simp only [bind_ok, pure_ok] at typed
    obtain ⟨_, _, _, _, _, _, _, _, _, _, rfl⟩ := typed
    exact .inl rfl
  · cases typed

theorem inputCategories_names {spec : Json.Object} {name : String}
    (known : name ∈ inputCategories spec) :
    name ∈ (specObjects spec "inputs").map (·.stringOr "name") := by
  have grows : ∀ (objects : List Json.Object) (env : CategoryEnv),
      name ∈ objects.foldl (fun env input =>
        env.insert (input.stringOr "name") (classifyValueType (input.stringOr "type"))) env →
      name ∈ env ∨ name ∈ objects.map (·.stringOr "name") := by
    intro objects
    induction objects with
    | nil => exact fun env inside => .inl inside
    | cons object rest ih =>
        intro env inside
        rw [List.map_cons, List.mem_cons]
        rcases ih _ inside with earlier | later
        · rw [Std.ExtTreeMap.mem_insert, Std.LawfulEqOrd.compare_eq_iff_eq] at earlier
          rcases earlier with rfl | earlier
          · exact .inr (.inl rfl)
          · exact .inl earlier
        · exact .inr (.inr later)
  exact (grows _ _ known).resolve_left Std.ExtTreeMap.not_mem_empty

theorem typeComputes_names {env final : CategoryEnv} {elements : List Json}
    {trees : List (Option ExprNode)} (typed : typeComputes env elements = .ok (trees, final))
    {name : String} (known : name ∈ final) : name ∈ env ∨
      name ∈ (elements.zip trees).filterMap fun element =>
        element.1.asObject.map (·.stringOr "name") := by
  induction elements generalizing env trees with
  | nil =>
      simp only [typeComputes, Except.ok.injEq, Prod.mk.injEq] at typed
      exact .inl (typed.2 ▸ known)
  | cons element rest ih =>
      simp only [typeComputes, bind_ok, pure_ok, Prod.mk.injEq, Prod.exists] at typed
      obtain ⟨tree, next, here, others, last, later, rfl, rfl⟩ := typed
      rw [List.zip_cons_cons, List.filterMap_cons]
      rcases ih later with inNext | inRest
      · unfold typeCompute at here
        split at here
        · rename_i compute isObject
          simp only [isObject, Option.map_some, List.mem_cons]
          split at here
          · cases here
            exact .inl inNext
          · simp only [bind_ok, pure_ok, Prod.mk.injEq] at here
            obtain ⟨_, _, _, _, rfl, rfl⟩ := here
            rw [Std.ExtTreeMap.mem_insert, Std.LawfulEqOrd.compare_eq_iff_eq] at inNext
            rcases inNext with rfl | inEnv
            · exact .inr (.inl rfl)
            · exact .inl inEnv
        · cases here
          exact .inl inNext
      · right
        split
        · exact inRest
        · exact List.mem_cons_of_mem _ inRest

/-- A plan from a spec is assembled from inputs whose guards have been typed. -/
theorem inputsFromSpec_typed {spec : Json.Object} {raw : PlanInputs}
    (gathered : inputsFromSpec spec = .ok raw) : GuardsTyped raw := by
  simp only [inputsFromSpec, bind_ok, pure_ok] at gathered
  obtain ⟨trees, typed, _, _, _, _, effects, built, _, _, _, _, rfl⟩ := gathered
  simp only [typeSpecExprs, bind_ok, checkedExpr, mapError_ok, pure_ok] at typed
  obtain ⟨_, typed, _, _, rfl⟩ := typed
  simp only [typeTrees, bind_ok, pure_ok, Prod.exists] at typed
  obtain ⟨computeTrees, env, computes, guardTrees, guards, _, _, rfl⟩ := typed
  intro effect listed guard guarded
  unfold effectsFromSpec at built
  split at built
  · cases built
  · rename_i elements found
    obtain ⟨⟨⟨element, tree⟩, index⟩, visited, fromElement⟩ := collect_mem_result built listed
    have pair : (element, tree) ∈ elements.zip guardTrees :=
      List.mem_of_getElem? (List.mem_zipIdx_iff_getElem?.mp visited)
    rw [found, Option.getD_some] at guards
    have guardTyped : typeWhen env element = .ok tree :=
      (List.forall₂_iff_zip.mp (collect_ok.mp guards)).2 pair
    have own : effect.guard = tree := by
      unfold effectFromSpec at fromElement
      split at fromElement
      · simp only [bind_ok, pure_ok] at fromElement
        obtain ⟨_, _, rfl⟩ := fromElement
        rfl
      · cases fromElement
    rw [own, Option.mem_def] at guarded
    subst guarded
    unfold typeWhen at guardTyped
    split at guardTyped
    · cases guardTyped
    · simp only [bind_ok, pure_ok, Option.some.injEq] at guardTyped
      obtain ⟨node, _, checked, accepted, rfl⟩ := guardTyped
      refine ⟨env, node, fun name known => ?_, accepted⟩
      rw [rawNames, List.mem_append]
      rcases typeComputes_names computes known with inInputs | inComputes
      · left
        simpa using inputCategories_names inInputs
      · right
        obtain ⟨pair, pairIn, named⟩ := List.mem_filterMap.mp inComputes
        simp only [computesFromSpec, List.map_filterMap]
        exact List.mem_filterMap.mpr ⟨pair, pairIn, by simpa using named⟩

/-! What a finalized posting carries. -/

/-- A gate as targets name it: how it applies, and the input of its policy. -/
def gateOf (mode : PlanGateMode) (policy : String) : Option (String × String) :=
  match mode with
  | .none => none
  | .atomicRefuse => some ("atomic-refuse", policy)
  | .temporalSuppress => some ("temporal-suppress", policy)

/-- The gate a target reads of a group's guard. -/
def consumedGate (guard : GroupGuardProjection) : Option (String × String) :=
  if guard.guardKind = "attested" then some (guard.applicationMode, guard.policyInputBinding)
  else none

theorem consumedGate_projected {plan : CoordinationPlan} (group : PlanEffectGroup) :
    consumedGate (projectedGuard plan group) = gateOf group.gateMode group.gatePolicy := by
  cases mode : group.gateMode <;> simp only [consumedGate, projectedGuard, mode, gateOf]
  · by_cases keyed : group.guardKey = "" <;> simp [keyed]
  · simp
  · simp

def IsPostingOf (effect : PlanEffect) (posting : FinalizedPostingProjection) : Prop :=
  posting.posting.id = postingNodeId effect.index

/-- A finalized posting has the comparison of an effect, and its group the effect's gate. -/
structure Carries (sequence : FinalizedProjectionSequence) (effect : PlanEffect)
    (posting : FinalizedPostingProjection) : Prop where
  guard : posting.comparisonGuard = comparisonOf effect
  gate : ∃ entry, sequence.effectGroups[posting.groupIndex]? = some entry ∧
    posting ∈ entry.finalizedPostings ∧
    consumedGate entry.guard = gateOf effect.gateMode effect.gatePolicy

/-- The conditions a target puts on a posting hold: its comparison, and its group's policy. -/
def Admits (sequence : FinalizedProjectionSequence) (input : TransitionInput) (env : Env)
    (posting : FinalizedPostingProjection) : Prop :=
  (∀ guard ∈ posting.comparisonGuard, evalGuard guard env = .ok true) ∧
    ∀ entry, sequence.effectGroups[posting.groupIndex]? = some entry →
      ∀ gate ∈ consumedGate entry.guard, policyAccepted input gate.2 = true

theorem postingGuard_ok {plan : CoordinationPlan} {group : PlanEffectGroup}
    {guarded : FinalizedPostingGuardKind × Option ExprNode}
    (accepted : postingGuard (projectedGuard plan group) = .ok guarded) :
    guarded.2 = (projectedGuard plan group).comparisonGuard := by
  unfold postingGuard at accepted
  split at accepted
  · cases accepted
    rfl
  · split at accepted
    · cases accepted
    · rename_i direct
      cases accepted
      unfold projectedGuard at direct ⊢
      split
      · rfl
      · rename_i ungated
        rw [if_neg ungated] at direct
        split
        · rename_i keyed
          simp [keyed] at direct
        · rfl

section Finalized

variable {text : JsonText} {graph : BackendProjectionGraph}
  {sequence : FinalizedProjectionSequence}

theorem finalizePosting_guard {values : TypedValueProjection} {guard : GroupGuardProjection}
    {groupIndex : Nat} {posting : LedgerPosting} {finalized : FinalizedPostingProjection}
    (accepted : finalizePosting values guard groupIndex posting = .ok finalized) :
    finalized.groupIndex = groupIndex ∧
      ∃ kind, postingGuard guard = .ok (kind, finalized.comparisonGuard) := by
  obtain ⟨direction, _, later⟩ := bind_ok.mp accepted
  split at later
  · cases later
  · obtain ⟨guarded, read, built⟩ := bind_ok.mp later
    cases built
    exact ⟨rfl, guarded.1, read⟩

/-- Where a finalized posting comes from: its group, with the guard read of it. -/
theorem posting_entry (consumed : consumeFinalizedProjectionSequence text graph = .ok sequence)
    {posting : FinalizedPostingProjection} (listed : posting ∈ sequence.postings) :
    ∃ entry, sequence.effectGroups[posting.groupIndex]? = some entry ∧
      posting ∈ entry.finalizedPostings ∧ posting.posting ∈ groupPostings graph entry.group ∧
      consumeGroupGuardProjection text graph entry.group.sourceRef = .ok entry.guard ∧
      ∃ kind, postingGuard entry.guard = .ok (kind, posting.comparisonGuard) := by
  have joined := joined_of_consumed consumed
  simp only [consumeFinalizedProjectionSequence, bind_ok, pure_ok] at consumed
  obtain ⟨_, _, _, _, _, _, _, _, _, _, _, _, _, _, values, _, groups, grouped, _, _, rfl⟩ :=
    consumed
  simp only [flattenedPostings, mem_sortOn] at listed
  obtain ⟨entry, entryIn, inside⟩ := List.mem_flatMap.mp listed
  have held : posting.posting ∈ groupPostings graph entry.group := by
    rw [← joined.built entry entryIn]
    exact List.mem_map_of_mem inside
  obtain ⟨position, found⟩ := List.getElem?_of_mem entryIn
  have ordinal : entry.ordinal = position := by
    have indexed := collect_project (fun _ _ built => (finalizeGroup_ok built).1) grouped
    have here := congrArg (fun entries => entries[position]?) indexed
    simp only [List.getElem?_map, found, Option.map_some, List.getElem?_zipIdx, zero_add] at here
    obtain ⟨_, _, same⟩ := Option.map_eq_some_iff.mp here.symm
    exact (Prod.mk.inj same).2.symm
  obtain ⟨indexed, _, built⟩ := collect_mem_result grouped entryIn
  have same := (finalizeGroup_ok built).1
  simp only [finalizeGroup, bind_ok, pure_ok] at built
  obtain ⟨guard, read, _, _, postings, collected, rfl⟩ := built
  obtain ⟨node, _, finalized⟩ := collect_mem_result collected inside
  obtain ⟨groupIndex, kind, guarded⟩ := finalizePosting_guard finalized
  refine ⟨_, ?_, inside, held, read, kind, guarded⟩
  rw [groupIndex, ← found, ← ordinal]

end Finalized

/-! The projection of an assembled plan. -/

theorem projectBackendGraph_ok {sha256Hex : List UInt8 → String} {text : JsonText}
    {plan : CoordinationPlan} {graph : BackendProjectionGraph}
    (projected : projectBackendGraph sha256Hex text plan = .ok graph) :
    Verified text (projectedGraph sha256Hex text plan) ∧
      graph = (projectedGraph sha256Hex text plan).order := by
  simp only [projectBackendGraph, bind_ok] at projected
  obtain ⟨_, _, _, _, _, _, accepted⟩ := projected
  exact verifyAndOrder_ok.mp accepted

/-- A plan from a builder's typed inputs that a target projects and finalizes. -/
structure Projected (sha256Hex : List UInt8 → String) (text : JsonText) (raw : PlanInputs)
    (plan : CoordinationPlan) (sequence : FinalizedProjectionSequence) : Prop where
  assembled : Assembled raw plan
  builder : FromBuilder raw
  typed : GuardsTyped raw
  reads : text.ReadsExprs
  verified : Verified text (projectedGraph sha256Hex text plan)
  consumed : consumeFinalizedProjectionSequence text (projectedGraph sha256Hex text plan).order =
    .ok sequence

namespace Projected

variable {sha256Hex : List UInt8 → String} {text : JsonText} {raw : PlanInputs}
  {plan : CoordinationPlan} {sequence : FinalizedProjectionSequence}
  (projected : Projected sha256Hex text raw plan sequence)
include projected

/-- A gated effect names its policy. -/
theorem policy_named {effect : PlanEffect} (declared : effect ∈ plan.effects)
    (gated : effect.gateMode ≠ .none) : effect.gatePolicy ≠ "" := by
  by_cases temporal : coordinationIsTemporal plan = true
  · have mode := (TemporalPlan.mk projected.assembled projected.builder temporal).mode declared
    exact (projected.assembled.temporal_gate declared mode).1
  · rcases projected.assembled.unsuppressed_gate (Bool.not_eq_true _ ▸ temporal) declared with
      ⟨policy, sole, _, named, _⟩ | ⟨_, free⟩
    · rw [named]
      exact projected.verified.policy_named (by simp [sole])
    · exact absurd free gated

theorem group_policy_named {group : PlanEffectGroup} (declared : group ∈ plan.effectGroups)
    (gated : group.gateMode ≠ .none) : group.gatePolicy ≠ "" := by
  obtain ⟨first, head, _, mode, policy⟩ :=
    (projected.assembled.partition.shapes group declared).first
  rw [policy]
  exact projected.policy_named (mem_keyed.mp (List.mem_of_head? head)).1 (mode ▸ gated)

/-- A finalized posting of an effect is finalized in the effect's own group. -/
theorem posting_group {effect : PlanEffect} (declared : effect ∈ plan.effects)
    {posting : FinalizedPostingProjection} (listed : posting ∈ sequence.postings)
    (own : IsPostingOf effect posting) : ∃ group ∈ plan.effectGroups,
      group.guardKey = effect.guardKey ∧
      posting.comparisonGuard = (projectedGuard plan group).comparisonGuard ∧
      ∃ entry, sequence.effectGroups[posting.groupIndex]? = some entry ∧
        posting ∈ entry.finalizedPostings ∧ entry.guard = projectedGuard plan group := by
  have shuffle := order_shuffle (projectedGraph sha256Hex text plan)
  obtain ⟨entry, found, inside, held, read, kind, guarded⟩ := posting_entry projected.consumed listed
  have entryIn : entry.group ∈ (projectedGraph sha256Hex text plan).balancedEffectGroups := by
    rw [shuffle.balancedEffectGroups.mem_iff, ← (joined_of_consumed projected.consumed).mem_groups]
    exact List.mem_map_of_mem (List.mem_of_getElem? found)
  obtain ⟨indexed, indexedIn, same⟩ := List.mem_map.mp entryIn
  have inGroups : indexed.1 ∈ plan.effectGroups :=
    List.mem_of_getElem? (List.mem_zipIdx_iff_getElem?.mp indexedIn)
  rw [← shuffle.consumeGroupGuardProjection projected.verified, ← same] at read
  have guard : entry.guard = projectedGuard plan indexed.1 :=
    projected.verified.consumed_guard projected.reads indexedIn
      (projected.group_policy_named inGroups) read
  rw [guard] at guarded
  refine ⟨indexed.1, inGroups, ?_, postingGuard_ok guarded, entry, found, inside, guard⟩
  rw [groupPostings, mem_sortOn, ← same] at held
  obtain ⟨edge, out, node⟩ := List.mem_flatMap.mp held
  rw [← (shuffle.edgesFrom _ _).mem_iff, edgesFrom_projected, edges_effectRefs] at out
  obtain ⟨family, source⟩ := List.mem_filter.mp out
  obtain ⟨other, otherIn, member⟩ := List.mem_flatMap.mp family
  obtain ⟨place, placeIn, rfl⟩ := List.mem_map.mp member
  have target := (List.mem_filter.mp node).2
  simp only [decide_eq_true_eq] at target
  have alone := List.inj_on_of_nodup_map projected.verified.groupIds_nodup otherIn indexedIn
    (of_decide_eq_true source)
  subst alone
  have index : place.1 = effect.index := by
    rw [own, postingNodeId, postingNodeId, projectionNodeId_inj] at target
    have components := target.2
    simp only [List.cons.injEq, and_true] at components
    exact (toString_nat_inj.mp components).symm
  have indexIn : effect.index ∈ other.1.effectIndices := by
    rw [← index]
    exact List.fst_mem_of_mem_zipIdx (List.mem_filter.mp placeIn).1
  rw [(projected.assembled.partition.shapes _ inGroups).indices] at indexIn
  obtain ⟨keyedEffect, keyedIn, sameIndex⟩ := List.mem_map.mp indexIn
  obtain ⟨keyedDeclared, key⟩ := mem_keyed.mp keyedIn
  rw [← projected.assembled.index_injective keyedDeclared declared sameIndex, key]

/-- Every effect has a finalized posting. -/
theorem exists_posting {effect : PlanEffect} (declared : effect ∈ plan.effects) :
    ∃ posting ∈ sequence.postings, IsPostingOf effect posting := by
  have shuffle := order_shuffle (projectedGraph sha256Hex text plan)
  have verified := shuffle.verdict projected.verified
  have joined := joined_of_consumed projected.consumed
  obtain ⟨index, found⟩ := List.getElem?_of_mem declared
  have node : ledgerPosting (effect, index) ∈
      (projectedGraph sha256Hex text plan).order.ledgerPostings := by
    rw [← shuffle.ledgerPostings.mem_iff]
    exact List.mem_map_of_mem (List.mem_zipIdx_iff_getElem?.mpr found)
  obtain ⟨group, groupIn, _, reached, _⟩ := verified.posting_group node
  obtain ⟨entry, entryIn, rfl⟩ := List.mem_map.mp (joined.mem_groups.mpr groupIn)
  have held := (verified.groupPostings_mem node entry.group).mpr reached
  rw [← joined.built entry entryIn] at held
  obtain ⟨posting, inside, same⟩ := List.mem_map.mp held
  refine ⟨posting, ?_, ?_⟩
  · rw [joined.flattened, flattenedPostings, mem_sortOn]
    exact List.mem_flatMap.mpr ⟨entry, entryIn, inside⟩
  · rw [IsPostingOf, same]
    rfl

/-- A guard that is no comparison is an `accepted` predicate, and suppresses its effect. -/
theorem accepted_suppresses {effect : PlanEffect} (declared : effect ∈ plan.effects)
    {guard : ExprNode} (guarded : effect.guard = some guard) (other : isComparison guard = false) :
    effect.gateMode = .temporalSuppress ∧ isAcceptedGuard guard = true := by
  obtain ⟨rawEffect, atIndex, same⟩ := projected.assembled.exists_raw declared
  have rawIn := List.mem_of_getElem? atIndex
  have rawGuard : rawEffect.guard = some guard := by rw [← guarded, same]; rfl
  obtain ⟨env, node, names, typed⟩ := projected.typed rawEffect rawIn guard rawGuard
  rcases typeGuard_cases typed with comparison | ⟨input, dtype, category, rfl, known⟩
  · simp [comparison] at other
  · have named : input ≠ "" := by
      have listed := names input known
      rw [rawNames, ← projected.assembled.inputs, ← projected.assembled.computes,
        List.mem_append] at listed
      rcases listed with inInputs | inComputes
      · obtain ⟨declaredInput, inputIn, rfl⟩ := List.mem_map.mp inInputs
        obtain ⟨index, found⟩ := List.getElem?_of_mem inputIn
        exact (projected.verified.params (typedParam plan (declaredInput, index))
          (List.mem_map_of_mem (List.mem_zipIdx_iff_getElem?.mpr found))).1
      · obtain ⟨compute, computeIn, rfl⟩ := List.mem_map.mp inComputes
        obtain ⟨index, found⟩ := List.getElem?_of_mem computeIn
        exact (projected.verified.computes (computeNode text plan (compute, index))
          (List.mem_map_of_mem (List.mem_zipIdx_iff_getElem?.mpr found))).1
    have gate := projected.builder rawEffect rawIn
    rw [rawGuard, acceptedInput, if_pos rfl] at gate
    refine ⟨?_, by simp [isAcceptedGuard]⟩
    rw [same]
    simp [boundEffect, bindGate, gate, named]

/-- A group has the gate of each of its effects. -/
theorem gate_shared {effect : PlanEffect} (declared : effect ∈ plan.effects)
    {group : PlanEffectGroup} (groupIn : group ∈ plan.effectGroups)
    (key : group.guardKey = effect.guardKey) :
    gateOf group.gateMode group.gatePolicy = gateOf effect.gateMode effect.gatePolicy := by
  have assembled := projected.assembled
  obtain ⟨first, head, _, mode, policy⟩ := (assembled.partition.shapes group groupIn).first
  obtain ⟨firstIn, firstKey⟩ := mem_keyed.mp (List.mem_of_head? head)
  rw [mode, policy]
  by_cases suppressed : coordinationIsTemporal plan = true
  · have temporal : TemporalPlan raw plan := ⟨assembled, projected.builder, suppressed⟩
    have keys : canonicalGuardKey first.guard = canonicalGuardKey effect.guard := by
      rw [← assembled.guardKey_eq firstIn, ← assembled.guardKey_eq declared, firstKey, key]
    rw [temporal.mode firstIn, temporal.mode declared,
      (temporal.accepted first firstIn).policy_unique (temporal.accepted effect declared) keys]
  · rw [Bool.not_eq_true] at suppressed
    rcases assembled.unsuppressed_gate suppressed firstIn with
      ⟨sole, only, firstMode, firstPolicy, _⟩ | ⟨several, firstMode⟩ <;>
      rcases assembled.unsuppressed_gate suppressed declared with
        ⟨sole', only', ownMode, ownPolicy, _⟩ | ⟨several', ownMode⟩
    · obtain rfl : sole = sole' := by simpa [only] using only'
      rw [firstMode, ownMode, firstPolicy, ownPolicy]
    · exact absurd only (several' sole)
    · exact absurd only' (several sole')
    · rw [firstMode, ownMode]
      rfl

theorem firstGuard_eq {group : PlanEffectGroup} (groupIn : group ∈ plan.effectGroups) :
    ∃ first ∈ plan.effects, first.guardKey = group.guardKey ∧
      firstGuard plan group = first.guard := by
  have shape := projected.assembled.partition.shapes group groupIn
  obtain ⟨first, head, _⟩ := shape.first
  obtain ⟨firstIn, firstKey⟩ := mem_keyed.mp (List.mem_of_head? head)
  refine ⟨first, firstIn, firstKey, ?_⟩
  rw [firstGuard, shape.indices, List.head?_map, head]
  simp [projected.assembled.getElem?_index firstIn]

end Projected

/-! Which plans keep their guards. -/

/-- Comparisons stand on ungated effects, and effects of one key as a compared one have its
guard. -/
def GuardsKept (plan : CoordinationPlan) : Prop :=
  ∀ effect ∈ plan.effects, (comparisonOf effect).isSome →
    effect.gateMode = .none ∧ ∀ other ∈ plan.effects, other.guardKey = effect.guardKey →
      other.guard = effect.guard

theorem gateOf_none {mode : PlanGateMode} {policy : String} :
    gateOf mode policy = none ↔ mode = .none := by
  cases mode <;> simp [gateOf]

theorem projectedGuard_comparison {plan : CoordinationPlan} {group : PlanEffectGroup} :
    (projectedGuard plan group).comparisonGuard =
      if group.gateMode = .none ∧ group.guardKey ≠ "" then firstGuard plan group else none := by
  unfold projectedGuard
  by_cases gated : group.gateMode = .none <;> by_cases keyed : group.guardKey = "" <;>
    simp [gated, keyed]

theorem comparison_key {effect : PlanEffect} {guard : ExprNode}
    (compared : comparisonOf effect = some guard) :
    effect.guard = some guard ∧ canonicalGuardKey effect.guard ≠ "" := by
  obtain ⟨guarded, comparison⟩ := Option.filter_eq_some_iff.mp compared
  refine ⟨guarded, ?_⟩
  rw [guarded, canonicalGuardKey]
  cases guard <;> simp [isComparison] at comparison
  intro empty
  have size := congrArg String.length empty
  simp [structuralKey, String.length_append] at size

/-- Every posting carries the condition of its effect, and a commit posts what is admitted and not
yet spent. -/
structure GuardsPreserved (sha256Hex : List UInt8 → String) (plan : CoordinationPlan)
    (sequence : FinalizedProjectionSequence) : Prop where
  finalized : ∀ effect ∈ plan.effects, ∃ posting ∈ sequence.postings, IsPostingOf effect posting
  carried : ∀ effect ∈ plan.effects, ∀ posting ∈ sequence.postings, IsPostingOf effect posting →
    Carries sequence effect posting
  admitted : ∀ (state : EvalState) (input : TransitionInput) (env : Env),
    (evaluateTransition sha256Hex plan state input).commits = true →
    (transitionEnv plan input).value = .ok env → ∀ effect ∈ plan.effects,
      (effect ∈ (postedLegs sha256Hex plan state input).map (·.effect) ↔
        ¬Spent plan (state.record (workflowKeyValue plan input)) effect ∧
          ∃ posting ∈ sequence.postings, IsPostingOf effect posting ∧
            Admits sequence input env posting)

/-- The condition of an effect: its comparison holds, and its gate's policy is accepted. -/
def Conditioned (input : TransitionInput) (env : Env) (effect : PlanEffect) : Prop :=
  (∀ guard ∈ comparisonOf effect, evalGuard guard env = .ok true) ∧
    (effect.gateMode ≠ .none → policyAccepted input effect.gatePolicy = true)

theorem Carries.admits_iff {sequence : FinalizedProjectionSequence} {effect : PlanEffect}
    {posting : FinalizedPostingProjection} (carries : Carries sequence effect posting)
    (input : TransitionInput) (env : Env) :
    Admits sequence input env posting ↔ Conditioned input env effect := by
  obtain ⟨entry, found, _, gate⟩ := carries.gate
  unfold Admits Conditioned
  rw [carries.guard]
  refine and_congr_right fun _ => ?_
  simp only [found, Option.some.injEq, forall_eq', gate]
  cases effect.gateMode <;> simp [gateOf]

namespace Projected

variable {sha256Hex : List UInt8 → String} {text : JsonText} {raw : PlanInputs}
  {plan : CoordinationPlan} {sequence : FinalizedProjectionSequence}
  (projected : Projected sha256Hex text raw plan sequence)
include projected

theorem kept (carried : ∀ effect ∈ plan.effects, ∀ posting ∈ sequence.postings,
    IsPostingOf effect posting → Carries sequence effect posting) : GuardsKept plan := by
  intro effect declared compared
  obtain ⟨guard, compared⟩ := Option.isSome_iff_exists.mp compared
  obtain ⟨guarded, keyed⟩ := comparison_key compared
  have own : ∀ other ∈ plan.effects, ∃ group ∈ plan.effectGroups,
      group.guardKey = other.guardKey ∧
        comparisonOf other = (projectedGuard plan group).comparisonGuard := by
    intro other otherIn
    obtain ⟨posting, listed, posts⟩ := projected.exists_posting otherIn
    obtain ⟨group, groupIn, key, comparison, _⟩ := projected.posting_group otherIn listed posts
    exact ⟨group, groupIn, key, by rw [← (carried other otherIn posting listed posts).guard, comparison]⟩
  obtain ⟨group, groupIn, key, comparison⟩ := own effect declared
  rw [compared, projectedGuard_comparison] at comparison
  split at comparison
  · rename_i free
    have gate := projected.gate_shared declared groupIn key
    rw [free.1, gateOf, eq_comm, gateOf_none] at gate
    refine ⟨gate, fun other otherIn sameKey => ?_⟩
    obtain ⟨otherGroup, otherGroupIn, otherKey, otherComparison⟩ := own other otherIn
    obtain rfl := projected.assembled.group_unique otherGroupIn groupIn
      (by rw [otherKey, key, sameKey])
    rw [projectedGuard_comparison, if_pos free, ← comparison] at otherComparison
    rw [(comparison_key otherComparison).1, guarded]
  · cases comparison

theorem carries (kept : GuardsKept plan) {effect : PlanEffect} (declared : effect ∈ plan.effects)
    {posting : FinalizedPostingProjection} (listed : posting ∈ sequence.postings)
    (own : IsPostingOf effect posting) : Carries sequence effect posting := by
  obtain ⟨group, groupIn, key, comparison, entry, found, inside, guard⟩ :=
    projected.posting_group declared listed own
  have gate := projected.gate_shared declared groupIn key
  refine ⟨?_, entry, found, inside, by rw [guard, consumedGate_projected, gate]⟩
  rw [comparison, projectedGuard_comparison]
  cases compared : comparisonOf effect with
  | some compare =>
      obtain ⟨guarded, keyed⟩ := comparison_key compared
      obtain ⟨free, shared⟩ := kept effect declared (by simp [compared])
      rw [free, gateOf, gateOf_none] at gate
      obtain ⟨first, firstIn, firstKey, spelled⟩ := projected.firstGuard_eq groupIn
      have named : group.guardKey ≠ "" := by
        rw [key, projected.assembled.guardKey_eq declared]
        exact keyed
      rw [if_pos ⟨gate, named⟩, spelled, shared first firstIn (firstKey.trans key), guarded]
  | none =>
      rw [if_neg]
      rintro ⟨free, keyed⟩
      rw [key, projected.assembled.guardKey_eq declared] at keyed
      cases guarded : effect.guard with
      | none => simp [guarded, canonicalGuardKey] at keyed
      | some other =>
          have noComparison : isComparison other = false := by
            rw [comparisonOf, guarded, Option.filter_eq_none_iff] at compared
            simpa using compared other rfl
          rw [free, gateOf, eq_comm, gateOf_none,
            (projected.accepted_suppresses declared guarded noComparison).1] at gate
          cases gate

/-- What the evaluator posts on a commit: the conditioned effects not yet spent. -/
theorem posted_iff {state : EvalState} {input : TransitionInput}
    {env : Env} (commits : (evaluateTransition sha256Hex plan state input).commits = true)
    (evaluated : (transitionEnv plan input).value = .ok env) {effect : PlanEffect}
    (declared : effect ∈ plan.effects) :
    effect ∈ (postedLegs sha256Hex plan state input).map (·.effect) ↔
      ¬Spent plan (state.record (workflowKeyValue plan input)) effect ∧
        Conditioned input env effect := by
  have assembled := projected.assembled
  cases commit_cases commits with
  | evidence _ effectless => simp [effectless] at declared
  | @groups claim env' infos opens classified committing effects resolved unobserved =>
      obtain rfl : env = env' := Except.ok.inj (evaluated.symm.trans opens.evaluated)
      have suppressed : coordinationIsTemporal plan = true := by
        have temporal := classified.temporal
        simp only [isTemporal, List.any_eq_true, Option.any_eq_true] at temporal
        obtain ⟨other, otherIn, guard, guarded, accepts⟩ := temporal
        have noComparison : isComparison guard = false := by
          cases guard <;> simp_all [isAcceptedGuard, isComparison]
        simp only [coordinationIsTemporal, List.any_eq_true, decide_eq_true_eq]
        exact ⟨other, otherIn, (projected.accepted_suppresses otherIn guarded noComparison).1⟩
      have temporal : TemporalPlan raw plan := ⟨assembled, projected.builder, suppressed⟩
      have mode := temporal.mode declared
      have uncompared : comparisonOf effect = none := by
        obtain ⟨_, _, _, guard, _⟩ := temporal.accepted effect declared
        rw [comparisonOf, guard]
        rfl
      have conditioned : Conditioned input env effect ↔
          policyAccepted input effect.gatePolicy = true := by
        simp [Conditioned, uncompared, mode]
      have unspent : ¬Spent plan (state.record (workflowKeyValue plan input)) effect ↔
          effect.guardKey ∉ (state.record (workflowKeyValue plan input)).groups := by
        simp [Spent, opens.unposted assembled.idempotent, classified.temporal]
      rw [effects, classified.mem_legs assembled, conditioned, unspent]
      constructor
      · rintro ⟨_, commit⟩
        exact ⟨classified.committing_fresh _ commit, temporal.committing_accepted evaluated
          classified ((classified.mem_legs assembled).mpr ⟨declared, commit⟩)⟩
      · rintro ⟨fresh, accepted⟩
        refine ⟨declared, ?_⟩
        obtain ⟨group, groupIn, key⟩ := assembled.partition.covers effect declared
        have listed := groupIn
        rw [← classified.groups_eq] at listed
        obtain ⟨info, infoIn, rfl⟩ := List.mem_map.mp listed
        obtain ⟨other, otherIn, built⟩ := classified.info infoIn
        obtain ⟨same, _, holds, committable⟩ := classifyGroup_ok built
        rw [← same, temporal.groupHolds evaluated groupIn (mem_keyed.mpr ⟨declared, key.symm⟩),
          Except.ok.injEq] at holds
        rw [← key]
        refine List.mem_map_of_mem (List.mem_filter.mpr ⟨infoIn, committable.mpr ⟨?_, ?_⟩⟩)
        · rw [← holds, accepted]
        · rw [← same, key]
          exact fresh
  | @legs claim env' opens effectful single effects resolved gated observed =>
      obtain rfl : env = env' := Except.ok.inj (evaluated.symm.trans opens.evaluated)
      have unspent : ¬Spent plan (state.record (workflowKeyValue plan input)) effect := by
        simp [Spent, opens.unposted assembled.idempotent, single]
      have unsuppressed : coordinationIsTemporal plan = false := by
        rw [← Bool.not_eq_true]
        intro suppressed
        simp [assembled.isTemporal_of_gate projected.builder suppressed] at single
      have compares : fires env effect = true ↔
          ∀ guard ∈ comparisonOf effect, evalGuard guard env = .ok true := by
        unfold fires
        cases guarded : effect.guard with
        | none => simp [comparisonOf, guarded]
        | some guard =>
            cases comparison : isComparison guard with
            | false =>
                have mode := (projected.accepted_suppresses declared guarded comparison).1
                simp only [coordinationIsTemporal, List.any_eq_false, decide_eq_true_eq]
                  at unsuppressed
                exact absurd mode (unsuppressed effect declared)
            | true =>
                simp only [comparisonOf, guarded, Option.filter_some, comparison, if_true,
                  Option.mem_some, forall_eq']
                cases evalGuard guard env <;> simp
      rw [effects, List.mem_filter, Conditioned, ← compares]
      constructor
      · rintro ⟨_, firing⟩
        refine ⟨unspent, firing, fun gates => ?_⟩
        have posted : effect ∈ (postedLegs sha256Hex plan state input).map (·.effect) := by
          rw [effects, List.mem_filter]
          exact ⟨declared, firing⟩
        obtain ⟨leg, listed, rfl⟩ := List.mem_map.mp posted
        rcases assembled.unsuppressed_gate unsuppressed declared with
          ⟨policy, _, _, named, input⟩ | ⟨_, free⟩
        · have gate := gated leg listed
          rw [input, ← named] at gate
          exact gate.resolve_left (projected.policy_named declared gates)
        · exact absurd free gates
      · rintro ⟨_, firing, _⟩
        exact ⟨declared, firing⟩

theorem preserved_iff : GuardsPreserved sha256Hex plan sequence ↔ GuardsKept plan := by
  refine ⟨fun preserved => projected.kept preserved.carried, fun kept => ?_⟩
  refine ⟨fun _ => projected.exists_posting, fun _ declared _ => projected.carries kept declared,
    fun state input env commits evaluated effect declared => ?_⟩
  rw [projected.posted_iff commits evaluated declared]
  refine and_congr_right fun _ => ⟨fun conditioned => ?_, ?_⟩
  · obtain ⟨posting, listed, own⟩ := projected.exists_posting declared
    exact ⟨posting, listed, own,
      ((projected.carries kept declared listed own).admits_iff input env).mpr conditioned⟩
  · rintro ⟨posting, listed, own, admits⟩
    exact ((projected.carries kept declared listed own).admits_iff input env).mp admits

end Projected

/-- The projection of an assembled plan preserves its guards exactly when comparisons stand on
ungated effects and one key spells one guard. -/
theorem guards_preserved_iff (sha256Hex : List UInt8 → String) {text : JsonText}
    (reads : text.ReadsExprs) {raw : PlanInputs} (builder : FromBuilder raw)
    (typed : GuardsTyped raw) {plan : CoordinationPlan} (accepted : assemblePlan raw = .ok plan)
    {graph : BackendProjectionGraph} (projected : projectBackendGraph sha256Hex text plan = .ok graph)
    {sequence : FinalizedProjectionSequence}
    (consumed : consumeFinalizedProjectionSequence text graph = .ok sequence) :
    GuardsPreserved sha256Hex plan sequence ↔ GuardsKept plan := by
  obtain ⟨verified, rfl⟩ := projectBackendGraph_ok projected
  exact Projected.preserved_iff
    ⟨assemblePlan_ok accepted, builder, typed, reads, verified, consumed⟩

/-! A payment under one comparison, free and under a sole attestation policy. -/

def underLimit : ExprNode := .cmp "<" (.var "x" .decimal) (.var "y" .decimal) .extension

def isUnderLimit : ExprNode → Bool
  | .cmp "<" (.var "x" .decimal) (.var "y" .decimal) .extension => true
  | _ => false

theorem isUnderLimit_eq {guard : ExprNode} (same : isUnderLimit guard = true) :
    guard = underLimit := by
  unfold isUnderLimit at same
  split at same
  · rfl
  · cases same

def limitSpec : Json.Object := paymentSpec ["x", "y"] (some underLimit) (some underLimit)

def witnessedSpec : Json.Object :=
  limitSpec ++ [("attestations", .array [.object [("input", .string "proof"),
    ("quorum", .object [("threshold", .number (.integer 1))]),
    ("observerSet", specText [("ref", "witnesses")]),
    ("canonicalization", specText [("mode", "exact")])]])]

/-- What a spec's plan finalizes to. -/
def finalizedSpec (spec : Json.Object) : Except String FinalizedProjectionSequence := do
  let graph ← projectBackendGraph sampleHash compactText (specPlan spec)
  consumeFinalizedProjectionSequence compactText graph

theorem finalizedSpec_ok {spec : Json.Object}
    (finalized : (finalizedSpec spec).toOption.isSome = true) : ∃ graph sequence,
      projectBackendGraph sampleHash compactText (specPlan spec) = .ok graph ∧
        consumeFinalizedProjectionSequence compactText graph = .ok sequence := by
  cases result : finalizedSpec spec with
  | error failure => simp [result, Except.toOption] at finalized
  | ok sequence =>
      obtain ⟨graph, projected, consumed⟩ := bind_ok.mp result
      exact ⟨graph, sequence, projected, consumed⟩

theorem guards_preserved_limit : ∃ graph sequence,
    projectBackendGraph sampleHash compactText (specPlan limitSpec) = .ok graph ∧
      consumeFinalizedProjectionSequence compactText graph = .ok sequence ∧
      GuardsPreserved sampleHash (specPlan limitSpec) sequence := by
  obtain ⟨graph, sequence, projected, consumed⟩ :=
    @finalizedSpec_ok limitSpec (by decide +kernel)
  obtain ⟨raw, gathered, accepted⟩ := bind_ok.mp (@specPlan_accepted limitSpec (by decide +kernel))
  refine ⟨graph, sequence, projected, consumed, (guards_preserved_iff sampleHash
    compactText_readsExprs (inputsFromSpec_fromBuilder gathered) (inputsFromSpec_typed gathered)
    accepted projected consumed).mpr ?_⟩
  have limited : ∀ effect ∈ (specPlan limitSpec).effects,
      effect.gateMode = .none ∧ effect.guard.any isUnderLimit = true := by decide +kernel
  have guard : ∀ effect ∈ (specPlan limitSpec).effects, effect.guard = some underLimit := by
    intro effect declared
    obtain ⟨guard, guarded, same⟩ := (Option.any_eq_true ..).mp (limited effect declared).2
    rw [guarded, isUnderLimit_eq same]
  intro effect declared _
  exact ⟨(limited effect declared).1, fun other otherIn _ => by
    rw [guard effect declared, guard other otherIn]⟩

/-- Under a sole policy the projection drops the comparison. -/
theorem witnessed_comparison_dropped : ∃ graph sequence,
    planFromSpec witnessedSpec = .ok (specPlan witnessedSpec) ∧
      projectBackendGraph sampleHash compactText (specPlan witnessedSpec) = .ok graph ∧
      consumeFinalizedProjectionSequence compactText graph = .ok sequence ∧
      sequence.postings.all (·.comparisonGuard.isNone) = true ∧
      ¬GuardsPreserved sampleHash (specPlan witnessedSpec) sequence := by
  have dropped : (finalizedSpec witnessedSpec).toOption.any
      (·.postings.all (·.comparisonGuard.isNone)) = true := by decide +kernel
  have compared : (specPlan witnessedSpec).effects.any
      fun effect => (comparisonOf effect).isSome := by decide +kernel
  obtain ⟨sequence, finalized, none⟩ := (Option.any_eq_true ..).mp dropped
  obtain ⟨graph, projected, consumed⟩ := bind_ok.mp (toOption_eq_some.mp finalized)
  refine ⟨graph, sequence, @specPlan_accepted witnessedSpec (by decide +kernel), projected,
    consumed, none, fun preserved => ?_⟩
  obtain ⟨effect, declared, some⟩ := List.any_eq_true.mp compared
  obtain ⟨posting, listed, own⟩ := preserved.finalized effect declared
  have bare := List.all_eq_true.mp none posting listed
  rw [(preserved.carried effect declared posting listed own).guard] at bare
  simp [Option.isNone_iff_eq_none.mp bare] at some

end Neutrino.Projection
