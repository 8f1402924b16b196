import Neutrino.ProjectionVerify

/-! What the verifier's acceptance says of a graph, part by part. -/

namespace Neutrino.Projection

open Checked SortOn

/-! Ids, bindings and ordinals. -/

theorem mem_registeredKinds (kind : ProjectionNodeKind) : kind ∈ registeredKinds := by
  cases kind <;> decide

theorem mem_nodeIds {graph : BackendProjectionGraph} {id : String} {kind : ProjectionNodeKind} :
    (id, kind) ∈ graph.nodeIds ↔ id ∈ graph.ids kind := by
  simp [BackendProjectionGraph.nodeIds, mem_registeredKinds]

theorem nodeIds_map (graph : BackendProjectionGraph) :
    graph.nodeIds.map (·.1) = registeredKinds.flatMap graph.ids := by
  simp [BackendProjectionGraph.nodeIds, List.map_flatMap, Function.comp_def]

theorem kindOf_eq_some {graph : BackendProjectionGraph} (distinct : (graph.nodeIds.map (·.1)).Nodup)
    {id : String} {kind : ProjectionNodeKind} :
    graph.kindOf id = some kind ↔ id ∈ graph.ids kind := by
  rw [← mem_nodeIds, BackendProjectionGraph.kindOf, Option.map_eq_some_iff]
  constructor
  · rintro ⟨node, found, rfl⟩
    have same := List.find?_some found
    simp only [decide_eq_true_eq] at same
    rw [← same]
    exact List.mem_of_find?_eq_some found
  · intro listed
    cases found : graph.nodeIds.find? fun node => node.1 = id with
    | none => simpa using List.find?_eq_none.mp found _ listed
    | some node =>
        have same := List.find?_some found
        simp only [decide_eq_true_eq] at same
        have one := List.inj_on_of_nodup_map distinct (List.mem_of_find?_eq_some found) listed same
        exact ⟨node, rfl, congrArg (·.2) one⟩

theorem checkIds_ok {registered : List String} {ids : List (String × ProjectionNodeKind)} :
    checkIds registered ids = .ok () ↔
      (ids.map (·.1)).Nodup ∧ ∀ node ∈ ids, node.1 ∉ registered := by
  induction ids generalizing registered with
  | nil => simp [checkIds]
  | cons node rest ih =>
      simp only [checkIds]
      split
      · rename_i again
        simp [again]
      · rename_i fresh
        rw [ih, List.forall_mem_cons]
        simp only [List.map_cons, List.nodup_cons, List.mem_cons, not_or, List.mem_map, not_exists,
          not_and]
        constructor
        · rintro ⟨distinct, others⟩
          exact ⟨⟨fun other listed same => (others other listed).1 same, distinct⟩, fresh,
            fun other listed => (others other listed).2⟩
        · rintro ⟨⟨apart, distinct⟩, _, others⟩
          exact ⟨distinct, fun other listed => ⟨apart other listed, others other listed⟩⟩

/-- Ordinals count from zero without gaps, and each binding is met once. -/
structure Numbered (ordinals : List Int32) (bindings : List String) : Prop where
  nonnegative : ∀ ordinal ∈ ordinals, 0 ≤ ordinal.toInt
  ordinals_nodup : ordinals.Nodup
  complete : ∀ index < ordinals.length, (index : Int) ∈ ordinals.map (·.toInt)
  bindings_nodup : bindings.Nodup

theorem seeBinding_ok {family : String} {seen next : SeenBindings} {ordinal : Int32}
    {binding : String} :
    seeBinding family seen ordinal binding = .ok next ↔
      0 ≤ ordinal.toInt ∧ ordinal ∉ seen.ordinals ∧ binding ∉ seen.bindings ∧
        next = ⟨ordinal :: seen.ordinals, binding :: seen.bindings⟩ := by
  simp only [seeBinding, check_ok, require_ok, pure_ok, and_assoc]
  simp only [eq_comm]

theorem checkParam_ok {seen next : SeenBindings} {param : TypedParam} :
    checkParam seen param = .ok next ↔
      (param.bindingValue ≠ "" ∧ param.type ≠ "") ∧ 0 ≤ param.ordinal.toInt ∧
        param.ordinal ∉ seen.ordinals ∧ param.bindingValue ∉ seen.bindings ∧
        next = ⟨param.ordinal :: seen.ordinals, param.bindingValue :: seen.bindings⟩ := by
  simp only [checkParam, check_ok, require_ok, seeBinding_ok, and_assoc]

theorem checkCompute_ok {text : JsonText} {seen next : SeenBindings} {compute : ComputeNode} :
    checkCompute text seen compute = .ok next ↔
      (compute.bindingValue ≠ "" ∧ checkExpression text compute = .ok ()) ∧
        0 ≤ compute.ordinal.toInt ∧
        compute.ordinal ∉ seen.ordinals ∧ compute.bindingValue ∉ seen.bindings ∧
        next = ⟨compute.ordinal :: seen.ordinals, compute.bindingValue :: seen.bindings⟩ := by
  rw [checkCompute, check_ok, require_ok, bind_ok]
  simp only [check_ok, seeBinding_ok, pure_ok]
  constructor
  · rintro ⟨named, bound, ⟨nonnegative, freshOrdinal, freshBinding, rfl⟩, valid, rfl⟩
    exact ⟨⟨named, valid⟩, nonnegative, freshOrdinal, freshBinding, rfl⟩
  · rintro ⟨⟨named, valid⟩, nonnegative, freshOrdinal, freshBinding, rfl⟩
    exact ⟨named, _, ⟨nonnegative, freshOrdinal, freshBinding, rfl⟩, valid, rfl⟩

section Seen

variable {α : Type} {step : SeenBindings → α → Except String SeenBindings} {valid : α → Prop}
  {ordinal : α → Int32} {binding : α → String}

/-- A pass over nodes accepts valid ones whose ordinals and bindings it meets for the first
time. -/
theorem thread_seen
    (step_ok : ∀ seen element next, step seen element = .ok next ↔
      valid element ∧ 0 ≤ (ordinal element).toInt ∧ ordinal element ∉ seen.ordinals ∧
        binding element ∉ seen.bindings ∧
        next = ⟨ordinal element :: seen.ordinals, binding element :: seen.bindings⟩)
    {elements : List α} {seen final : SeenBindings} :
    thread step seen elements = .ok final ↔
      (∀ element ∈ elements, valid element ∧ 0 ≤ (ordinal element).toInt) ∧
        ((elements.map ordinal).Nodup ∧ ∀ element ∈ elements, ordinal element ∉ seen.ordinals) ∧
        ((elements.map binding).Nodup ∧ ∀ element ∈ elements, binding element ∉ seen.bindings) ∧
        final = ⟨(elements.map ordinal).reverse ++ seen.ordinals,
          (elements.map binding).reverse ++ seen.bindings⟩ := by
  induction elements generalizing seen with
  | nil => simp [thread, eq_comm]
  | cons element rest ih =>
      simp only [thread, bind_ok, step_ok]
      constructor
      · rintro ⟨next, ⟨holds, nonnegative, freshOrdinal, freshBinding, rfl⟩, later⟩
        obtain ⟨others, ⟨ordinals, ordinalsFresh⟩, ⟨bindings, bindingsFresh⟩, rfl⟩ := ih.mp later
        simp only [List.mem_cons, not_or] at ordinalsFresh bindingsFresh
        refine ⟨List.forall_mem_cons.mpr ⟨⟨holds, nonnegative⟩, others⟩, ⟨?_, ?_⟩, ⟨?_, ?_⟩, ?_⟩
        · simp only [List.map_cons, List.nodup_cons, List.mem_map, not_exists, not_and]
          exact ⟨fun other listed => (ordinalsFresh other listed).1, ordinals⟩
        · exact List.forall_mem_cons.mpr
            ⟨freshOrdinal, fun other listed => (ordinalsFresh other listed).2⟩
        · simp only [List.map_cons, List.nodup_cons, List.mem_map, not_exists, not_and]
          exact ⟨fun other listed => (bindingsFresh other listed).1, bindings⟩
        · exact List.forall_mem_cons.mpr
            ⟨freshBinding, fun other listed => (bindingsFresh other listed).2⟩
        · simp
      · rintro ⟨all, ⟨ordinals, ordinalsFresh⟩, ⟨bindings, bindingsFresh⟩, rfl⟩
        simp only [List.map_cons, List.nodup_cons, List.mem_map, not_exists, not_and]
          at ordinals bindings
        obtain ⟨⟨holds, nonnegative⟩, others⟩ := List.forall_mem_cons.mp all
        obtain ⟨freshOrdinal, laterOrdinals⟩ := List.forall_mem_cons.mp ordinalsFresh
        obtain ⟨freshBinding, laterBindings⟩ := List.forall_mem_cons.mp bindingsFresh
        refine ⟨_, ⟨holds, nonnegative, freshOrdinal, freshBinding, rfl⟩, ih.mpr ⟨others,
          ⟨ordinals.2, fun other listed => ?_⟩, ⟨bindings.2, fun other listed => ?_⟩, by simp⟩⟩
        · exact List.not_mem_cons_of_ne_of_not_mem (ordinals.1 other listed)
            (laterOrdinals other listed)
        · exact List.not_mem_cons_of_ne_of_not_mem (bindings.1 other listed)
            (laterBindings other listed)

theorem numbered_iff
    (step_ok : ∀ seen element next, step seen element = .ok next ↔
      valid element ∧ 0 ≤ (ordinal element).toInt ∧ ordinal element ∉ seen.ordinals ∧
        binding element ∉ seen.bindings ∧
        next = ⟨ordinal element :: seen.ordinals, binding element :: seen.bindings⟩)
    {elements : List α} {family : String} :
    (∃ seen, thread step {} elements = .ok seen ∧ checkOrdinals family seen = .ok ()) ↔
      (∀ element ∈ elements, valid element) ∧
        Numbered (elements.map ordinal) (elements.map binding) := by
  simp only [thread_seen step_ok, checkOrdinals, require_ok]
  constructor
  · rintro ⟨seen, ⟨all, ⟨ordinals, _⟩, ⟨bindings, _⟩, rfl⟩, complete⟩
    refine ⟨fun element listed => (all element listed).1, ?_, ordinals, ?_, bindings⟩
    · exact List.forall_mem_map.mpr fun element listed => (all element listed).2
    · simpa using complete
  · rintro ⟨holds, numbered⟩
    have nonnegative := List.forall_mem_map.mp numbered.nonnegative
    refine ⟨_, ⟨fun element listed => ⟨holds element listed, nonnegative element listed⟩,
      ⟨numbered.ordinals_nodup, by simp⟩, ⟨numbered.bindings_nodup, by simp⟩, rfl⟩, ?_⟩
    simpa using numbered.complete

end Seen

/-! Edges, cardinalities and coverage. -/

variable {text : JsonText} {graph : BackendProjectionGraph}

structure EdgeTyped (graph : BackendProjectionGraph) (edge : ProjectionEdge) : Prop where
  typed : ∃ kinds, edgeEndpointKinds.lookup edge.name = some kinds ∧
    (∃ kind ∈ kinds.1, graph.kindOf edge.from = some kind) ∧
    ∃ kind ∈ kinds.2, graph.kindOf edge.to = some kind

theorem checkEdge_ok {edge : ProjectionEdge} :
    checkEdge graph edge = .ok () ↔ EdgeTyped graph edge := by
  constructor
  · intro accepted
    unfold checkEdge at accepted
    split at accepted
    · cases accepted
    · rename_i kinds named
      split at accepted
      · cases accepted
      · cases accepted
      · rename_i fromKind toKind fromFound toFound
        rw [check_ok, require_ok, require_ok] at accepted
        exact ⟨kinds, named, ⟨fromKind, accepted.1, fromFound⟩, toKind, accepted.2, toFound⟩
  · rintro ⟨kinds, named, ⟨fromKind, leaves, fromFound⟩, toKind, reaches, toFound⟩
    simp only [checkEdge, named, fromFound, toFound, check_ok, require_ok]
    exact ⟨leaves, reaches⟩

structure Cardinalities (text : JsonText) (graph : BackendProjectionGraph) : Prop where
  commits : ∀ commit ∈ graph.commitStates,
    graph.deg commit.id "execRef" = 1 ∧ graph.deg commit.id "scopeRef" = 1
  transitions : ∀ transition ∈ graph.transitions,
    graph.deg transition.id "fromRef" = 1 ∧ graph.deg transition.id "toRef" = 1
  policies : ∀ policy ∈ graph.quorumPolicies,
    graph.deg policy.id "inputRef" = 1 ∧ graph.deg policy.id "observerSetRef" = 1
  guards : ∀ guard ∈ graph.guardObligations, checkGuardObligation graph guard = .ok ()
  groupGuards : ∀ group ∈ graph.balancedEffectGroups,
    ∃ guard, consumeGroupGuardProjection text graph group.sourceRef = .ok guard
  evidence : ∀ evidence ∈ graph.evidenceAcceptances, evidence.bindingValue ≠ ""
  primitives : ∀ primitive ∈ graph.primitiveObligations, checkPrimitive graph primitive = .ok ()
  computes : ∀ compute ∈ graph.computeNodes, 1 ≤ graph.deg compute.id "operandRefs"
  operands : ∀ compute ∈ graph.computeNodes, checkComputeOperands text graph compute = .ok ()
  postings : ∀ posting ∈ graph.ledgerPostings,
    (∀ name ∈ ["groupRef", "ledgerRef", "partyRef", "amountRef", "currencyRef"],
      graph.deg posting.id name = 1) ∧ graph.deg posting.id "memoRef" ≤ 1
  groups : ∀ group ∈ graph.balancedEffectGroups,
    1 ≤ graph.deg group.id "effectRefs" ∧ graph.deg group.id "guardRef" ≤ 1
  compensations : ∀ compensation ∈ graph.compensationObligations,
    graph.deg compensation.id "compensates" = 1

theorem checkPosting_ok {posting : LedgerPosting} :
    checkPosting graph posting = .ok () ↔
      (∀ name ∈ ["groupRef", "ledgerRef", "partyRef", "amountRef", "currencyRef"],
        graph.deg posting.id name = 1) ∧ graph.deg posting.id "memoRef" ≤ 1 := by
  simp only [checkPosting, checkOne, check_ok, require_ok, List.forall_mem_cons, List.not_mem_nil,
    false_implies, implies_true, and_true, and_assoc]

theorem checkGroupGuard_ok {group : BalancedEffectGroup} :
    checkGroupGuard text graph group = .ok () ↔
      ∃ guard, consumeGroupGuardProjection text graph group.sourceRef = .ok guard := by
  rw [checkGroupGuard, bind_ok]
  simp

theorem checkCardinalities_ok :
    checkCardinalities text graph = .ok () ↔ Cardinalities text graph := by
  simp only [checkCardinalities, check_ok, each_ok, checkCommitState, checkTransition,
    checkQuorumPolicy, checkOne, checkGroup, checkPosting_ok, checkGroupGuard_ok, require_ok]
  constructor
  · rintro ⟨commits, transitions, policies, guards, groupGuards, evidence, primitives, computes,
      operands, postings, groups, compensations⟩
    exact ⟨commits, transitions, policies, guards, groupGuards, evidence, primitives, computes,
      operands, postings, groups, compensations⟩
  · rintro ⟨commits, transitions, policies, guards, groupGuards, evidence, primitives, computes,
      operands, postings, groups, compensations⟩
    exact ⟨commits, transitions, policies, guards, groupGuards, evidence, primitives, computes,
      operands, postings, groups, compensations⟩

structure Coverage (graph : BackendProjectionGraph) : Prop where
  compensated_nodup : (compensatedGroups graph).Nodup
  compensated : (compensatedGroups graph).toFinset = (rollbackGroups graph).toFinset
  effects_inverse : ∀ group ∈ graph.balancedEffectGroups,
    ∀ posting ∈ graph.targets group.id "effectRefs", group.id ∈ graph.targets posting "groupRef"
  groups_inverse : ∀ posting ∈ graph.ledgerPostings,
    ∀ group ∈ graph.targets posting.id "groupRef", posting.id ∈ graph.targets group "effectRefs"
  assertions : ∀ assertion ∈ graph.balanceAssertions,
    graph.targets assertion.id "assertsRefs" = mustBalanceGroups graph ∧
      graph.deg assertion.id "assertsRefs" = (mustBalanceGroups graph).card
  asserted : mustBalanceGroups graph ≠ ∅ → graph.balanceAssertions.length = 1
  unasserted : mustBalanceGroups graph = ∅ → graph.balanceAssertions = []
  identity : graph.commitStates ≠ [] ∨ graph.quorumPolicies ≠ [] ∨ graph.ledgerPostings ≠ [] →
    graph.executionIdentities.length = 1
  terminal : graph.commitStates ≠ [] → ∃ state ∈ graph.lifecycleStates, state.terminal = true
  required : ∀ state ∈ graph.lifecycleStates, state.terminal = true →
    graph.targets state.id "requiredCommitRefs" = allCommits graph ∧
      graph.deg state.id "requiredCommitRefs" = (allCommits graph).card

theorem checkRequiredCommits_ok {state : LifecycleState} :
    checkRequiredCommits graph state = .ok () ↔ (state.terminal = true →
      graph.targets state.id "requiredCommitRefs" = allCommits graph ∧
        graph.deg state.id "requiredCommitRefs" = (allCommits graph).card) := by
  unfold checkRequiredCommits
  split <;> rename_i terminal <;> simp [terminal, check_ok]

theorem checkCoverage_ok : checkCoverage graph = .ok () ↔ Coverage graph := by
  simp only [checkCoverage, checkInverse, check_ok, each_ok, checkBalanceAssertion,
    checkRequiredCommits_ok, require_ok]
  constructor
  · rintro ⟨distinct, compensated, ⟨effects, groups⟩, assertions, asserted, unasserted, identity,
      terminal, required⟩
    exact ⟨distinct, compensated, effects, groups, assertions, asserted, unasserted, identity,
      terminal, required⟩
  · rintro ⟨distinct, compensated, effects, groups, assertions, asserted, unasserted, identity,
      terminal, required⟩
    exact ⟨distinct, compensated, ⟨effects, groups⟩, assertions, asserted, unasserted, identity,
      terminal, required⟩

/-! Lifecycle roles. -/

/-- A role stands on one edge to a success terminal that carries its state. -/
structure Anchored (graph : BackendProjectionGraph) (role : ProjectedLifecycleRole) : Prop where
  one : graph.deg role.id "stateRef" = 1
  anchored : ∀ edge ∈ graph.edgesFrom role.id "stateRef", ∃ state,
    graph.lifecycleStates.find? (·.id = edge.to) = some state ∧
      state.terminalKind = .success ∧ state.name = role.state

theorem checkAnchor_ok {role : ProjectedLifecycleRole} {stateId : String} :
    checkAnchor graph role stateId = .ok () ↔ ∃ state,
      graph.lifecycleStates.find? (·.id = stateId) = some state ∧
        state.terminalKind = .success ∧ state.name = role.state := by
  unfold checkAnchor
  split
  · rename_i missing
    simp [missing]
  · rename_i state found
    simp [found, check_ok]

theorem checkRole_ok {seen next : SeenRoles} {role : ProjectedLifecycleRole} :
    checkRole graph seen role = .ok next ↔
      Anchored graph role ∧ (∀ mode ∈ seen.mode, mode = role.mode) ∧ role.role ∉ seen.roles ∧
        next = ⟨some (seen.mode.getD role.mode), role.role :: seen.roles⟩ := by
  simp only [checkRole, checkOne, check_ok, require_ok, each_ok, List.forall_mem_map,
    checkAnchor_ok, pure_ok]
  constructor
  · rintro ⟨one, anchored, mode, fresh, rfl⟩
    exact ⟨⟨one, anchored⟩, mode, fresh, rfl⟩
  · rintro ⟨⟨one, anchored⟩, mode, fresh, rfl⟩
    exact ⟨one, anchored, mode, fresh, rfl⟩

theorem thread_checkRole {mode : ExecutionMode} {seen : List LifecycleRole}
    {roles : List ProjectedLifecycleRole} {final : SeenRoles} :
    thread (checkRole graph) ⟨some mode, seen⟩ roles = .ok final ↔
      (∀ role ∈ roles, Anchored graph role ∧ role.mode = mode) ∧
        ((roles.map (·.role)).Nodup ∧ ∀ role ∈ roles, role.role ∉ seen) ∧
        final = ⟨some mode, (roles.map (·.role)).reverse ++ seen⟩ := by
  induction roles generalizing seen with
  | nil => simp [thread, eq_comm]
  | cons role rest ih =>
      simp only [thread, bind_ok, checkRole_ok, Option.mem_some, forall_eq', Option.getD_some]
      constructor
      · rintro ⟨next, ⟨anchored, same, fresh, rfl⟩, later⟩
        obtain ⟨others, ⟨distinct, apart⟩, rfl⟩ := ih.mp later
        simp only [List.mem_cons, not_or] at apart
        refine ⟨List.forall_mem_cons.mpr ⟨⟨anchored, same.symm⟩, others⟩, ⟨?_, ?_⟩, by simp⟩
        · simp only [List.map_cons, List.nodup_cons, List.mem_map, not_exists, not_and]
          exact ⟨fun other listed => (apart other listed).1, distinct⟩
        · exact List.forall_mem_cons.mpr ⟨fresh, fun other listed => (apart other listed).2⟩
      · rintro ⟨all, ⟨distinct, apart⟩, rfl⟩
        simp only [List.map_cons, List.nodup_cons, List.mem_map, not_exists, not_and] at distinct
        obtain ⟨⟨anchored, same⟩, others⟩ := List.forall_mem_cons.mp all
        obtain ⟨fresh, later⟩ := List.forall_mem_cons.mp apart
        refine ⟨_, ⟨anchored, same.symm, fresh, rfl⟩,
          ih.mpr ⟨others, ⟨distinct.2, fun other listed => ?_⟩, by simp⟩⟩
        exact List.not_mem_cons_of_ne_of_not_mem (distinct.1 other listed) (later other listed)

/-- The roles of a graph are those its structure requires, each once and anchored. -/
structure RolesAnchored (graph : BackendProjectionGraph) : Prop where
  anchored : ∀ role ∈ graph.projectedLifecycleRoles, Anchored graph role
  mode : ∀ role ∈ graph.projectedLifecycleRoles, role.mode = expectedMode graph
  roles_nodup : (graph.projectedLifecycleRoles.map (·.role)).Nodup
  required : (graph.projectedLifecycleRoles.map (·.role)).toFinset =
    requiredRoles (expectedMode graph)

theorem checkRoleSet_ok (present : graph.projectedLifecycleRoles ≠ []) :
    checkRoleSet graph = .ok () ↔ RolesAnchored graph := by
  obtain ⟨first, rest, listed⟩ := List.exists_cons_of_ne_nil present
  have fresh : ∀ {final : SeenRoles}, thread (checkRole graph) {} (first :: rest) = .ok final ↔
      (∀ role ∈ first :: rest, Anchored graph role ∧ role.mode = first.mode) ∧
        ((first :: rest).map (·.role)).Nodup ∧
        final = ⟨some first.mode, ((first :: rest).map (·.role)).reverse⟩ := by
    intro final
    simp only [thread, bind_ok, checkRole_ok, Option.not_mem_none, false_implies, implies_true,
      List.not_mem_nil, not_false_eq_true, true_and, Option.getD_none]
    constructor
    · rintro ⟨next, ⟨anchored, rfl⟩, later⟩
      obtain ⟨others, ⟨distinct, apart⟩, rfl⟩ := thread_checkRole.mp later
      refine ⟨List.forall_mem_cons.mpr ⟨⟨anchored, rfl⟩, others⟩, ?_, by simp⟩
      simp only [List.map_cons, List.nodup_cons, List.mem_map, not_exists, not_and]
      exact ⟨fun other listed same => apart other listed (by simp [same]), distinct⟩
    · rintro ⟨all, distinct, rfl⟩
      simp only [List.map_cons, List.nodup_cons, List.mem_map, not_exists, not_and] at distinct
      obtain ⟨⟨anchored, _⟩, others⟩ := List.forall_mem_cons.mp all
      refine ⟨_, ⟨anchored, rfl⟩, thread_checkRole.mpr ⟨others, ⟨distinct.2, ?_⟩, by simp⟩⟩
      exact fun other listed => by simpa using distinct.1 other listed
  rw [checkRoleSet, bind_ok, listed]
  simp only [check_ok, require_ok]
  constructor
  · rintro ⟨seen, threaded, required, expected⟩
    obtain ⟨all, distinct, rfl⟩ := fresh.mp threaded
    simp only [Option.getD_some] at required expected
    refine ⟨?_, ?_, ?_, ?_⟩ <;> rw [listed]
    · exact fun role member => (all role member).1
    · exact fun role member => (all role member).2.trans expected
    · exact distinct
    · rw [← expected, ← required, List.toFinset_reverse]
  · rintro ⟨anchored, mode, distinct, required⟩
    rw [listed] at anchored mode distinct required
    have expected := mode first List.mem_cons_self
    refine ⟨_, fresh.mpr ⟨fun role member => ⟨anchored role member, ?_⟩, distinct, rfl⟩, ?_, ?_⟩
    · rw [mode role member, expected]
    · simp only [Option.getD_some]
      rw [expected, ← required, List.toFinset_reverse]
    · simpa using expected

/-! The whole verdict. -/

/-- No compute reads itself, through any number of computes. -/
def Acyclic (graph : BackendProjectionGraph) : Prop :=
  ∀ id, ¬Relation.TransGen (fun id next => next ∈ computeOperands graph id) id id

theorem checkAcyclic_ok : checkAcyclic graph = .ok () ↔ Acyclic graph := by
  rw [checkAcyclic, require_ok]
  refine CycleSearch.hasCycle_iff fun id next follows => ?_
  simpa using (List.mem_filter.mp follows).2

structure Verified (text : JsonText) (graph : BackendProjectionGraph) : Prop where
  ids_nodup : (graph.nodeIds.map (·.1)).Nodup
  invoked : ∀ identity ∈ graph.executionIdentities, identity.invokedEvent ≠ ""
  references : ∀ reference ∈ graph.references, checkReference reference = .ok ()
  params : ∀ param ∈ graph.typedParams, param.bindingValue ≠ "" ∧ param.type ≠ ""
  params_numbered : Numbered (graph.typedParams.map (·.ordinal))
    (graph.typedParams.map (·.bindingValue))
  instance_keys : ∀ param ∈ graph.typedParams, checkInstanceKeyRole graph param = .ok ()
  computes : ∀ compute ∈ graph.computeNodes,
    compute.bindingValue ≠ "" ∧ checkExpression text compute = .ok ()
  computes_numbered : Numbered (graph.computeNodes.map (·.ordinal))
    (graph.computeNodes.map (·.bindingValue))
  states : ∀ state ∈ graph.lifecycleStates, state.terminal = true → state.terminalKind ≠ .none
  edges : ∀ edge ∈ graph.edges, EdgeTyped graph edge
  cardinalities : Cardinalities text graph
  coverage : Coverage graph
  acyclic : Acyclic graph
  roles_present : (∃ state ∈ graph.lifecycleStates, state.terminalKind = .success) →
    graph.projectedLifecycleRoles ≠ []
  roles : graph.projectedLifecycleRoles ≠ [] → RolesAnchored graph

theorem Verified.family_nodup (verified : Verified text graph) (kind : ProjectionNodeKind) :
    (graph.ids kind).Nodup := by
  have distinct := verified.ids_nodup
  rw [nodeIds_map, List.nodup_flatMap] at distinct
  exact distinct.1 kind (mem_registeredKinds kind)

theorem Verified.kindOf (verified : Verified text graph) {id : String} {kind : ProjectionNodeKind} :
    graph.kindOf id = some kind ↔ id ∈ graph.ids kind :=
  kindOf_eq_some verified.ids_nodup

/-- An edge of a known name joins a node of a family it may leave to one it may reach. -/
theorem Verified.edge_ends (verified : Verified text graph) {edge : ProjectionEdge}
    (listed : edge ∈ graph.edges) {kinds : List ProjectionNodeKind × List ProjectionNodeKind}
    (named : edgeEndpointKinds.lookup edge.name = some kinds) :
    (∃ kind ∈ kinds.1, edge.from ∈ graph.ids kind) ∧ ∃ kind ∈ kinds.2, edge.to ∈ graph.ids kind := by
  obtain ⟨found, namedFound, ⟨fromKind, leaves, fromFound⟩, toKind, reaches, toFound⟩ :=
    (verified.edges edge listed).typed
  cases named.symm.trans namedFound
  exact ⟨⟨fromKind, leaves, verified.kindOf.mp fromFound⟩, toKind, reaches,
    verified.kindOf.mp toFound⟩

theorem checkBindings_ok :
    checkBindings text graph = .ok () ↔
      ((∀ param ∈ graph.typedParams, param.bindingValue ≠ "" ∧ param.type ≠ "") ∧
        Numbered (graph.typedParams.map (·.ordinal)) (graph.typedParams.map (·.bindingValue))) ∧
      (∀ param ∈ graph.typedParams, checkInstanceKeyRole graph param = .ok ()) ∧
      (∀ compute ∈ graph.computeNodes,
        compute.bindingValue ≠ "" ∧ checkExpression text compute = .ok ()) ∧
      Numbered (graph.computeNodes.map (·.ordinal)) (graph.computeNodes.map (·.bindingValue)) := by
  have params : (∃ seen, thread checkParam {} graph.typedParams = .ok seen ∧
        checkOrdinals "TypedParam" seen = .ok ()) ↔
      (∀ param ∈ graph.typedParams, param.bindingValue ≠ "" ∧ param.type ≠ "") ∧
        Numbered (graph.typedParams.map (·.ordinal)) (graph.typedParams.map (·.bindingValue)) :=
    numbered_iff fun seen param next => @checkParam_ok seen next param
  have computes : (∃ seen, thread (checkCompute text) {} graph.computeNodes = .ok seen ∧
        checkOrdinals "ComputeNode" seen = .ok ()) ↔
      (∀ compute ∈ graph.computeNodes,
        compute.bindingValue ≠ "" ∧ checkExpression text compute = .ok ()) ∧
        Numbered (graph.computeNodes.map (·.ordinal))
          (graph.computeNodes.map (·.bindingValue)) :=
    numbered_iff fun seen compute next => @checkCompute_ok text seen next compute
  rw [← params, ← computes, checkBindings, bind_ok]
  simp only [check_ok, each_ok]
  constructor
  · rintro ⟨seenParams, paramsSeen, paramOrdinals, keys, later⟩
    obtain ⟨seenComputes, computesSeen, ordinals⟩ := bind_ok.mp later
    exact ⟨⟨seenParams, paramsSeen, paramOrdinals⟩, keys, seenComputes, computesSeen, ordinals⟩
  · rintro ⟨⟨seenParams, paramsSeen, paramOrdinals⟩, keys, seenComputes, computesSeen, ordinals⟩
    exact ⟨seenParams, paramsSeen, paramOrdinals, keys,
      bind_ok.mpr ⟨seenComputes, computesSeen, ordinals⟩⟩

theorem checkRoles_ok :
    checkRoles graph = .ok () ↔
      ((∃ state ∈ graph.lifecycleStates, state.terminalKind = .success) →
        graph.projectedLifecycleRoles ≠ []) ∧
      (graph.projectedLifecycleRoles ≠ [] → RolesAnchored graph) := by
  rw [checkRoles, check_ok, require_ok]
  refine and_congr_right fun _ => ?_
  by_cases absent : graph.projectedLifecycleRoles = []
  · simp [absent]
  · simp only [absent, if_false, ne_eq, not_false_eq_true, true_implies]
    exact checkRoleSet_ok absent

/-- The verifier accepts exactly the verified graphs, and puts them in order. -/
theorem verifyAndOrder_ok {ordered : BackendProjectionGraph} :
    verifyAndOrder text graph = .ok ordered ↔ Verified text graph ∧ ordered = graph.order := by
  simp only [verifyAndOrder, check_ok, checkIds_ok, each_ok, require_ok, checkBindings_ok,
    checkEdge_ok, checkCardinalities_ok, checkCoverage_ok, checkAcyclic_ok, checkRoles_ok, pure_ok]
  constructor
  · rintro ⟨⟨ids, _⟩, invoked, references, ⟨⟨params, paramsNumbered⟩, keys, computes, numbered⟩,
      states, edges, cardinalities, coverage, acyclic, ⟨present, roles⟩, rfl⟩
    exact ⟨⟨ids, invoked, references, params, paramsNumbered, keys, computes, numbered, states,
      edges, cardinalities, coverage, acyclic, present, roles⟩, rfl⟩
  · rintro ⟨⟨ids, invoked, references, params, paramsNumbered, keys, computes, numbered, states,
      edges, cardinalities, coverage, acyclic, present, roles⟩, rfl⟩
    exact ⟨⟨ids, by simp⟩, invoked, references, ⟨⟨params, paramsNumbered⟩, keys, computes, numbered⟩,
      states, edges, cardinalities, coverage, acyclic, ⟨present, roles⟩, rfl⟩

end Neutrino.Projection
