import Neutrino.ProjectionVerified
import Neutrino.Library.Permuted

/-! What a graph's verdict and consumers owe to the order of its nodes and edges: nothing. -/

namespace Neutrino.Projection

open Checked SortOn Permuted

/-! Scans of permuted lists. -/

section Scans

variable {α : Type} {elements other : List α}

theorem sole_perm (missing ambiguous : String) (permuted : elements.Perm other) :
    sole missing ambiguous elements = sole missing ambiguous other := by
  rcases perm_cases permuted with ⟨rfl, rfl⟩ | ⟨_, rfl, rfl⟩ | ⟨_, _, _, _, _, _, rfl, rfl⟩ <;> rfl

/-- A list whose elements are all equal has one last element, wherever it stands. -/
theorem lastWith_perm {found : α → Prop} [DecidablePred found] (permuted : elements.Perm other)
    (unique : ∀ first ∈ elements, ∀ second ∈ elements, found first → found second →
      first = second) : lastWith found elements = lastWith found other := by
  unfold lastWith
  have filtered := permuted.filter (found ·)
  cases last : (elements.filter (found ·)).getLast? with
  | none =>
      rw [List.getLast?_eq_none_iff] at last
      rw [last] at filtered
      rw [← filtered.nil_eq]
      rfl
  | some element =>
      have held := List.mem_of_getLast? last
      cases last' : (other.filter (found ·)).getLast? with
      | none =>
          rw [List.getLast?_eq_none_iff] at last'
          rw [last'] at filtered
          rw [filtered.eq_nil] at held
          simp at held
      | some element' =>
          have held' := filtered.mem_iff.mpr (List.mem_of_getLast? last')
          simp only [List.mem_filter, decide_eq_true_eq] at held held'
          rw [unique element held.1 element' held'.1 held.2 held'.2]

theorem lastWith_key_perm {κ : Type} [DecidableEq κ] {key : α → κ} (permuted : elements.Perm other)
    (distinct : (elements.map key).Nodup) (value : κ) :
    lastWith (key · = value) elements = lastWith (key · = value) other :=
  lastWith_perm permuted fun _ firstIn _ secondIn first second =>
    List.inj_on_of_nodup_map distinct firstIn secondIn (first.trans second.symm)

/-- Entries of distinct names make one map in any order. -/
theorem insertAll_perm {β : Type} {name : α → String} {value : α → β}
    (permuted : elements.Perm other) (distinct : (elements.map name).Nodup)
    (start : Std.ExtTreeMap String β) :
    elements.foldl (fun map element => map.insert (name element) (value element)) start =
      other.foldl (fun map element => map.insert (name element) (value element)) start := by
  refine permuted.foldl_eq' (fun first firstIn second secondIn map => ?_) start
  by_cases same : first = second
  · rw [same]
  · have apart : name first ≠ name second := fun equal =>
      same (List.inj_on_of_nodup_map distinct firstIn secondIn equal)
    apply Std.ExtTreeMap.ext_getElem?
    intro key
    simp only [Std.ExtTreeMap.getElem?_insert, compare_eq_iff_eq]
    by_cases first' : name first = key
    · have second' : name second ≠ key := fun equal => apart (first'.trans equal.symm)
      simp [first', second']
    · simp [first']

end Scans

/-! A graph whose nodes and edges are those of another, in any order. -/

structure Shuffle (graph other : BackendProjectionGraph) : Prop where
  schemaVersion : graph.schemaVersion = other.schemaVersion
  executionIdentities : graph.executionIdentities.Perm other.executionIdentities
  commitStates : graph.commitStates.Perm other.commitStates
  lifecycleStates : graph.lifecycleStates.Perm other.lifecycleStates
  transitions : graph.transitions.Perm other.transitions
  projectedLifecycleRoles : graph.projectedLifecycleRoles.Perm other.projectedLifecycleRoles
  quorumPolicies : graph.quorumPolicies.Perm other.quorumPolicies
  guardObligations : graph.guardObligations.Perm other.guardObligations
  evidenceAcceptances : graph.evidenceAcceptances.Perm other.evidenceAcceptances
  primitiveObligations : graph.primitiveObligations.Perm other.primitiveObligations
  balancedEffectGroups : graph.balancedEffectGroups.Perm other.balancedEffectGroups
  ledgerPostings : graph.ledgerPostings.Perm other.ledgerPostings
  balanceAssertions : graph.balanceAssertions.Perm other.balanceAssertions
  compensationObligations : graph.compensationObligations.Perm other.compensationObligations
  typedOperands : graph.typedOperands.Perm other.typedOperands
  typedParams : graph.typedParams.Perm other.typedParams
  references : graph.references.Perm other.references
  computeNodes : graph.computeNodes.Perm other.computeNodes
  edges : graph.edges.Perm other.edges

theorem order_shuffle (graph : BackendProjectionGraph) : Shuffle graph graph.order where
  schemaVersion := rfl
  executionIdentities := (sortOn_perm _ _).symm
  commitStates := (sortOn_perm _ _).symm
  lifecycleStates := (sortOn_perm _ _).symm
  transitions := (sortOn_perm _ _).symm
  projectedLifecycleRoles := (sortOn_perm _ _).symm
  quorumPolicies := (sortOn_perm _ _).symm
  guardObligations := (sortOn_perm _ _).symm
  evidenceAcceptances := (sortOn_perm _ _).symm
  primitiveObligations := (sortOn_perm _ _).symm
  balancedEffectGroups := (sortOn_perm _ _).symm
  ledgerPostings := (sortOn_perm _ _).symm
  balanceAssertions := (sortOn_perm _ _).symm
  compensationObligations := (sortOn_perm _ _).symm
  typedOperands := (sortOn_perm _ _).symm
  typedParams := (sortOn_perm _ _).symm
  references := (sortOn_perm _ _).symm
  computeNodes := (sortOn_perm _ _).symm
  edges := (sortOn_perm _ _).symm

variable {text : JsonText} {graph other : BackendProjectionGraph}

theorem Numbered.perm {ordinals ordinals' : List Int32} {bindings bindings' : List String}
    (numbered : Numbered ordinals bindings) (permuted : ordinals.Perm ordinals')
    (bound : bindings.Perm bindings') : Numbered ordinals' bindings' where
  nonnegative ordinal listed := numbered.nonnegative ordinal (permuted.mem_iff.mpr listed)
  ordinals_nodup := permuted.nodup_iff.mp numbered.ordinals_nodup
  complete index below := by
    rw [← permuted.length_eq] at below
    exact (permuted.map _).mem_iff.mp (numbered.complete index below)
  bindings_nodup := bound.nodup_iff.mp numbered.bindings_nodup

namespace Shuffle

section Edges

variable (shuffle : Shuffle graph other)
include shuffle

theorem ids (kind : ProjectionNodeKind) : (graph.ids kind).Perm (other.ids kind) := by
  cases kind with
  | executionIdentity => exact shuffle.executionIdentities.map _
  | commitState => exact shuffle.commitStates.map _
  | lifecycleState => exact shuffle.lifecycleStates.map _
  | transition => exact shuffle.transitions.map _
  | quorumPolicy => exact shuffle.quorumPolicies.map _
  | guardObligation => exact shuffle.guardObligations.map _
  | evidenceAcceptance => exact shuffle.evidenceAcceptances.map _
  | primitiveObligation => exact shuffle.primitiveObligations.map _
  | balancedEffectGroup => exact shuffle.balancedEffectGroups.map _
  | ledgerPosting => exact shuffle.ledgerPostings.map _
  | balanceAssertion => exact shuffle.balanceAssertions.map _
  | compensationObligation => exact shuffle.compensationObligations.map _
  | typedOperand => exact shuffle.typedOperands.map _
  | typedParam => exact shuffle.typedParams.map _
  | reference => exact shuffle.references.map _
  | computeNode => exact shuffle.computeNodes.map _
  | projectedLifecycleRole => exact shuffle.projectedLifecycleRoles.map _

theorem nodeIds : (graph.nodeIds.map (·.1)).Perm (other.nodeIds.map (·.1)) := by
  rw [nodeIds_map, nodeIds_map]
  exact List.Perm.flatMap_left _ fun kind _ => shuffle.ids kind

theorem edgesFrom (id name : String) : (graph.edgesFrom id name).Perm (other.edgesFrom id name) :=
  shuffle.edges.filter _

theorem deg (id name : String) : graph.deg id name = other.deg id name :=
  (shuffle.edgesFrom id name).length_eq

theorem targets (id name : String) : graph.targets id name = other.targets id name :=
  List.toFinset_eq_of_perm _ _ ((shuffle.edgesFrom id name).map _)

theorem kindOf (distinct : (graph.nodeIds.map (·.1)).Nodup) (id : String) :
    graph.kindOf id = other.kindOf id := by
  have distinct' := shuffle.nodeIds.nodup_iff.mp distinct
  refine Option.ext fun kind => ?_
  rw [kindOf_eq_some distinct, kindOf_eq_some distinct']
  exact (shuffle.ids kind).mem_iff

end Edges

/-! The consumers. -/

theorem executionModeOf_perm {roles others : List ProjectedLifecycleRole}
    (permuted : roles.Perm others) : executionModeOf roles = executionModeOf others := by
  cases roles with
  | nil => rw [permuted.nil_eq]
  | cons first rest =>
      cases others with
      | nil => exact absurd permuted.eq_nil (List.cons_ne_nil _ _)
      | cons first' rest' =>
          simp only [executionModeOf]
          by_cases one : ∀ role ∈ first :: rest, role.mode = first.mode
          · have lead := one first' (permuted.mem_iff.mpr List.mem_cons_self)
            have one' : ∀ role ∈ first' :: rest', role.mode = first'.mode := fun role listed => by
              rw [one role (permuted.mem_iff.mpr listed), lead]
            rw [if_pos one, if_pos one', lead]
          · have many : ¬∀ role ∈ first' :: rest', role.mode = first'.mode := fun one' =>
              one fun role listed => by
                rw [one' role (permuted.mem_iff.mp listed),
                  one' first (permuted.mem_iff.mp List.mem_cons_self)]
            rw [if_neg one, if_neg many]

section Consumers

variable (shuffle : Shuffle graph other) (verified : Verified text graph)
include shuffle

theorem edgeTo : edgeTo graph = edgeTo other := by
  funext id name
  rw [Projection.edgeTo, Projection.edgeTo, sole_perm _ _ (shuffle.edgesFrom id name)]

include verified

theorem attestationBinding : attestationBinding graph = attestationBinding other := by
  have policies := lastWith_key_perm shuffle.quorumPolicies (verified.family_nodup .quorumPolicy)
  have evidence := lastWith_key_perm shuffle.evidenceAcceptances
    (verified.family_nodup .evidenceAcceptance)
  have references := lastWith_key_perm shuffle.references (verified.family_nodup .reference)
  funext policyId
  simp only [Projection.attestationBinding, policies, evidence, references, shuffle.edgeTo]

theorem consumeAttestationProjection :
    consumeAttestationProjection graph = consumeAttestationProjection other := by
  rw [Projection.consumeAttestationProjection, Projection.consumeAttestationProjection,
    executionModeOf_perm shuffle.projectedLifecycleRoles, shuffle.attestationBinding verified]
  rcases perm_cases shuffle.primitiveObligations with
    ⟨here, there⟩ | ⟨_, here, there⟩ | ⟨_, _, _, _, _, _, here, there⟩
  · have unattested : (graph.quorumPolicies = [] ∧ graph.evidenceAcceptances = []) ↔
        (other.quorumPolicies = [] ∧ other.evidenceAcceptances = []) := by
      rw [← List.length_eq_zero_iff, ← List.length_eq_zero_iff, shuffle.quorumPolicies.length_eq,
        shuffle.evidenceAcceptances.length_eq, List.length_eq_zero_iff, List.length_eq_zero_iff]
    simp only [here, there, require_congr unattested]
  · simp only [here, there]
  · simp only [here, there]

theorem guardEnv : guardEnv graph = guardEnv other := by
  rw [Projection.guardEnv, Projection.guardEnv,
    insertAll_perm shuffle.typedParams verified.params_numbered.bindings_nodup,
    insertAll_perm shuffle.computeNodes verified.computes_numbered.bindings_nodup]

theorem groupGuard : groupGuard text graph = groupGuard text other := by
  have guards := lastWith_key_perm shuffle.guardObligations (verified.family_nodup .guardObligation)
  have policyInput : policyInputBinding graph = policyInputBinding other := by
    funext guard
    simp only [policyInputBinding, sole_perm _ _ (shuffle.edgesFrom guard.id "policyRef"),
      shuffle.consumeAttestationProjection verified]
  funext group
  have comparison : reconstructComparison text graph group =
      reconstructComparison text other group := by
    simp only [reconstructComparison, shuffle.guardEnv verified]
  rw [Projection.groupGuard, Projection.groupGuard]
  rcases perm_cases (shuffle.edgesFrom group.id "guardRef") with
    ⟨here, there⟩ | ⟨_, here, there⟩ | ⟨_, _, _, _, _, _, here, there⟩
  · simp only [here, there]
  · simp only [here, there, guards, guardOf, comparison, policyInput]
  · simp only [here, there]

theorem consumeGroupGuardProjection :
    consumeGroupGuardProjection text graph = consumeGroupGuardProjection text other := by
  funext sourceRef
  rw [Projection.consumeGroupGuardProjection, Projection.consumeGroupGuardProjection,
    shuffle.groupGuard verified, sole_perm _ _ (shuffle.balancedEffectGroups.filter _)]

end Consumers

/-! The verdict. -/

section Verdict

variable (shuffle : Shuffle graph other) (verified : Verified text graph)
include shuffle

theorem checkInstanceKeyRole : checkInstanceKeyRole graph = checkInstanceKeyRole other := by
  funext param
  have keys := (shuffle.executionIdentities.map (·.instanceKey)).mem_iff (a := param.bindingValue)
  simp only [Projection.checkInstanceKeyRole, keys]

theorem checkGuardObligation : checkGuardObligation graph = checkGuardObligation other := by
  funext guard
  simp only [Projection.checkGuardObligation, shuffle.deg]

theorem checkPrimitive : checkPrimitive graph = checkPrimitive other := by
  funext primitive
  simp only [Projection.checkPrimitive, shuffle.deg]

theorem mustBalanceGroups : mustBalanceGroups graph = mustBalanceGroups other :=
  List.toFinset_eq_of_perm _ _ ((shuffle.balancedEffectGroups.filter _).map _)

theorem allCommits : allCommits graph = allCommits other :=
  List.toFinset_eq_of_perm _ _ (shuffle.commitStates.map _)

theorem rollbackGroups : (rollbackGroups graph).Perm (rollbackGroups other) :=
  (shuffle.balancedEffectGroups.filter _).map _

theorem mem_computeOperands {id next : String} :
    next ∈ computeOperands graph id ↔ next ∈ computeOperands other id := by
  have operands := ((shuffle.edgesFrom id "operandRefs").map (·.to)).mem_iff (a := next)
  have computes := (shuffle.computeNodes.map (·.id)).mem_iff (a := next)
  simp only [computeOperands, List.mem_filter, operands, decide_eq_true_eq, computes]

theorem acyclic (acyclic : Acyclic graph) : Acyclic other := by
  unfold Acyclic
  simp only [← shuffle.mem_computeOperands]
  exact acyclic

theorem expectedMode : expectedMode graph = expectedMode other := by
  simp only [Projection.expectedMode, shuffle.evidenceAcceptances.mem_iff,
    shuffle.balancedEffectGroups.mem_iff]

include verified

theorem compensatedGroups : (compensatedGroups graph).Perm (compensatedGroups other) := by
  simp only [Projection.compensatedGroups, shuffle.kindOf verified.ids_nodup]
  exact (shuffle.edges.filter _).map _

theorem edgeTyped {edge : ProjectionEdge} (typed : EdgeTyped graph edge) : EdgeTyped other edge := by
  obtain ⟨kinds, named, leaves, reaches⟩ := typed
  rw [shuffle.kindOf verified.ids_nodup] at leaves reaches
  exact ⟨kinds, named, leaves, reaches⟩

theorem resolveOperand : resolveOperand graph = resolveOperand other := by
  have computes := lastWith_key_perm shuffle.computeNodes verified.computes_numbered.bindings_nodup
  have params := lastWith_key_perm shuffle.typedParams verified.params_numbered.bindings_nodup
  funext var
  simp only [Projection.resolveOperand, computes, params,
    sole_perm _ _ (shuffle.typedOperands.filter _)]

theorem checkComputeOperands : checkComputeOperands text graph = checkComputeOperands text other := by
  funext compute
  simp only [Projection.checkComputeOperands, shuffle.resolveOperand verified, shuffle.targets]

theorem cardinalities : Cardinalities text other := by
  have held := verified.cardinalities
  constructor
  all_goals intro node listed
  · simpa only [shuffle.deg] using held.commits node (shuffle.commitStates.mem_iff.mpr listed)
  · simpa only [shuffle.deg] using held.transitions node (shuffle.transitions.mem_iff.mpr listed)
  · simpa only [shuffle.deg] using held.policies node (shuffle.quorumPolicies.mem_iff.mpr listed)
  · rw [← shuffle.checkGuardObligation]
    exact held.guards node (shuffle.guardObligations.mem_iff.mpr listed)
  · rw [← shuffle.consumeGroupGuardProjection verified]
    exact held.groupGuards node (shuffle.balancedEffectGroups.mem_iff.mpr listed)
  · exact held.evidence node (shuffle.evidenceAcceptances.mem_iff.mpr listed)
  · rw [← shuffle.checkPrimitive]
    exact held.primitives node (shuffle.primitiveObligations.mem_iff.mpr listed)
  · simpa only [shuffle.deg] using held.computes node (shuffle.computeNodes.mem_iff.mpr listed)
  · rw [← shuffle.checkComputeOperands verified]
    exact held.operands node (shuffle.computeNodes.mem_iff.mpr listed)
  · simpa only [shuffle.deg] using held.postings node (shuffle.ledgerPostings.mem_iff.mpr listed)
  · simpa only [shuffle.deg] using
      held.groups node (shuffle.balancedEffectGroups.mem_iff.mpr listed)
  · simpa only [shuffle.deg] using
      held.compensations node (shuffle.compensationObligations.mem_iff.mpr listed)

theorem coverage : Coverage other := by
  have held := verified.coverage
  have compensated := shuffle.compensatedGroups verified
  refine ⟨compensated.nodup_iff.mp held.compensated_nodup, ?_, ?_, ?_, ?_, ?_, ?_, ?_, ?_, ?_⟩
  · rw [← List.toFinset_eq_of_perm _ _ compensated,
      ← List.toFinset_eq_of_perm _ _ shuffle.rollbackGroups]
    exact held.compensated
  · intro group listed
    simpa only [shuffle.targets] using
      held.effects_inverse group (shuffle.balancedEffectGroups.mem_iff.mpr listed)
  · intro posting listed
    simpa only [shuffle.targets] using
      held.groups_inverse posting (shuffle.ledgerPostings.mem_iff.mpr listed)
  · intro assertion listed
    simpa only [shuffle.targets, shuffle.deg, shuffle.mustBalanceGroups] using
      held.assertions assertion (shuffle.balanceAssertions.mem_iff.mpr listed)
  · rw [← shuffle.mustBalanceGroups, ← shuffle.balanceAssertions.length_eq]
    exact held.asserted
  · intro unbalanced
    rw [← shuffle.mustBalanceGroups] at unbalanced
    have absent := shuffle.balanceAssertions
    rw [held.unasserted unbalanced] at absent
    exact absent.nil_eq.symm
  · rw [← perm_ne_nil shuffle.commitStates, ← perm_ne_nil shuffle.quorumPolicies,
      ← perm_ne_nil shuffle.ledgerPostings, ← shuffle.executionIdentities.length_eq]
    exact held.identity
  · rw [← perm_ne_nil shuffle.commitStates]
    simpa only [shuffle.lifecycleStates.mem_iff] using held.terminal
  · intro state listed
    simpa only [shuffle.targets, shuffle.deg, shuffle.allCommits] using
      held.required state (shuffle.lifecycleStates.mem_iff.mpr listed)

theorem anchored {role : ProjectedLifecycleRole} (anchored : Anchored graph role) :
    Anchored other role := by
  refine ⟨by rw [← shuffle.deg]; exact anchored.one, fun edge listed => ?_⟩
  obtain ⟨state, found, success, named⟩ :=
    anchored.anchored edge ((shuffle.edgesFrom role.id "stateRef").mem_iff.mpr listed)
  refine ⟨state, ?_, success, named⟩
  rw [← found]
  exact (find_perm shuffle.lifecycleStates fun first firstIn second secondIn here there =>
    List.inj_on_of_nodup_map (verified.family_nodup .lifecycleState) firstIn secondIn
      (here.trans there.symm)).symm

theorem rolesAnchored (roles : RolesAnchored graph) : RolesAnchored other where
  anchored role listed := shuffle.anchored verified
    (roles.anchored role (shuffle.projectedLifecycleRoles.mem_iff.mpr listed))
  mode role listed := by
    rw [← shuffle.expectedMode]
    exact roles.mode role (shuffle.projectedLifecycleRoles.mem_iff.mpr listed)
  roles_nodup := (shuffle.projectedLifecycleRoles.map _).nodup_iff.mp roles.roles_nodup
  required := by
    rw [← shuffle.expectedMode, ← roles.required]
    exact (List.toFinset_eq_of_perm _ _ (shuffle.projectedLifecycleRoles.map _)).symm

/-- A graph is verified in any order of its nodes and edges. -/
theorem verdict : Verified text other where
  ids_nodup := shuffle.nodeIds.nodup_iff.mp verified.ids_nodup
  invoked identity listed :=
    verified.invoked identity (shuffle.executionIdentities.mem_iff.mpr listed)
  references reference listed :=
    verified.references reference (shuffle.references.mem_iff.mpr listed)
  params param listed := verified.params param (shuffle.typedParams.mem_iff.mpr listed)
  params_numbered := verified.params_numbered.perm (shuffle.typedParams.map _)
    (shuffle.typedParams.map _)
  instance_keys param listed := by
    rw [← shuffle.checkInstanceKeyRole]
    exact verified.instance_keys param (shuffle.typedParams.mem_iff.mpr listed)
  computes compute listed := verified.computes compute (shuffle.computeNodes.mem_iff.mpr listed)
  computes_numbered := verified.computes_numbered.perm (shuffle.computeNodes.map _)
    (shuffle.computeNodes.map _)
  states state listed := verified.states state (shuffle.lifecycleStates.mem_iff.mpr listed)
  edges edge listed := shuffle.edgeTyped verified
    (verified.edges edge (shuffle.edges.mem_iff.mpr listed))
  cardinalities := shuffle.cardinalities verified
  coverage := shuffle.coverage verified
  acyclic := shuffle.acyclic verified.acyclic
  roles_present := by
    rw [← perm_ne_nil shuffle.projectedLifecycleRoles]
    simpa only [shuffle.lifecycleStates.mem_iff] using verified.roles_present
  roles present := shuffle.rolesAnchored verified
    (verified.roles ((perm_ne_nil shuffle.projectedLifecycleRoles).mpr present))

end Verdict

end Shuffle

/-- The verifier accepts what it has put in order. -/
theorem verifyAndOrder_order {ordered : BackendProjectionGraph}
    (accepted : verifyAndOrder text graph = .ok ordered) :
    verifyAndOrder text ordered = .ok ordered := by
  obtain ⟨verified, rfl⟩ := verifyAndOrder_ok.mp accepted
  refine verifyAndOrder_ok.mpr ⟨(order_shuffle graph).verdict verified, ?_⟩
  simp only [BackendProjectionGraph.order, sortOn_sortOn]

end Neutrino.Projection
