import Mathlib
import Neutrino.ProjectionShuffle

/-! The postings of a finalized sequence against the posting nodes of a verified graph. -/

namespace Neutrino.Projection

open Checked SortOn

variable {text : JsonText} {graph : BackendProjectionGraph}

/-! What the sequence is built from. -/

theorem finalizePosting_ok {values : TypedValueProjection} {guard : GroupGuardProjection}
    {groupIndex : Nat} {posting : LedgerPosting} {finalized : FinalizedPostingProjection}
    (accepted : finalizePosting values guard groupIndex posting = .ok finalized) :
    finalized.posting = posting := by
  obtain ⟨direction, _, later⟩ := bind_ok.mp accepted
  split at later
  · cases later
  · obtain ⟨guarded, _, built⟩ := bind_ok.mp later
    cases built
    rfl

theorem finalizeGroup_ok {values : TypedValueProjection} {indexed : BalancedEffectGroup × Nat}
    {finalized : FinalizedEffectGroupProjection}
    (accepted : finalizeGroup text graph values indexed = .ok finalized) :
    (finalized.group, finalized.ordinal) = indexed ∧
      finalized.finalizedPostings.map (·.posting) = groupPostings graph finalized.group := by
  simp only [finalizeGroup, bind_ok, pure_ok] at accepted
  obtain ⟨guard, _, _, _, postings, collected, rfl⟩ := accepted
  exact ⟨rfl, collect_project (fun _ _ => finalizePosting_ok) collected⟩

/-- The groups stand in order of their first effects, each with the postings its edges reach. -/
theorem finalizedGroups_ok {values : TypedValueProjection}
    {groups : List FinalizedEffectGroupProjection}
    (accepted : finalizedGroups text graph values = .ok groups) :
    groups.map (·.group) = sortOn (·.firstIndex.toInt) graph.balancedEffectGroups ∧
      ∀ group ∈ groups,
        group.finalizedPostings.map (·.posting) = groupPostings graph group.group := by
  constructor
  · have indexed := collect_project (fun _ _ built => (finalizeGroup_ok built).1) accepted
    have first := congrArg (List.map (·.1)) indexed
    rwa [List.map_map, List.zipIdx_map_fst] at first
  · intro group listed
    obtain ⟨indexed, _, built⟩ := collect_mem_result accepted listed
    exact (finalizeGroup_ok built).2

/-- A sequence joins the groups and postings of a graph. -/
structure Joined (graph : BackendProjectionGraph) (sequence : FinalizedProjectionSequence) :
    Prop where
  groups : sequence.effectGroups.map (·.group) =
    sortOn (·.firstIndex.toInt) graph.balancedEffectGroups
  built : ∀ group ∈ sequence.effectGroups,
    group.finalizedPostings.map (·.posting) = groupPostings graph group.group
  flattened : sequence.postings = flattenedPostings sequence.effectGroups

theorem joined_of_consumed {sequence : FinalizedProjectionSequence}
    (consumed : consumeFinalizedProjectionSequence text graph = .ok sequence) :
    Joined graph sequence := by
  simp only [consumeFinalizedProjectionSequence, bind_ok, pure_ok] at consumed
  obtain ⟨_, _, _, _, _, _, _, _, _, _, _, _, _, _, values, _, groups, grouped, _, _, rfl⟩ :=
    consumed
  obtain ⟨listed, built⟩ := finalizedGroups_ok grouped
  exact ⟨listed, built, rfl⟩

theorem flattenedPostings_perm {groups : List FinalizedEffectGroupProjection}
    (built : ∀ group ∈ groups,
      group.finalizedPostings.map (·.posting) = groupPostings graph group.group) :
    ((flattenedPostings groups).map (·.posting)).Perm
      ((groups.map (·.group)).flatMap (groupPostings graph)) := by
  refine ((sortOn_perm _ _).map _).trans (List.Perm.of_eq ?_)
  rw [List.map_flatMap, List.flatMap_map]
  exact List.flatMap_congr built

/-! The joins of a verified graph. -/

theorem mem_targets {id name target : String} :
    target ∈ graph.targets id name ↔ ∃ edge ∈ graph.edgesFrom id name, edge.to = target := by
  simp [BackendProjectionGraph.targets]

section Joins

variable (verified : Verified text graph)
include verified

theorem Verified.group_inj {first second : BalancedEffectGroup}
    (firstIn : first ∈ graph.balancedEffectGroups) (secondIn : second ∈ graph.balancedEffectGroups)
    (same : first.id = second.id) : first = second :=
  List.inj_on_of_nodup_map (verified.family_nodup .balancedEffectGroup) firstIn secondIn same

/-- An effect edge leads from a group to a posting. -/
theorem Verified.effectRefs_ends {edge : ProjectionEdge} (listed : edge ∈ graph.edges)
    (named : edge.name = "effectRefs") :
    (∃ group ∈ graph.balancedEffectGroups, group.id = edge.from) ∧
      ∃ posting ∈ graph.ledgerPostings, posting.id = edge.to := by
  have known : edgeEndpointKinds.lookup edge.name =
      some ([.balancedEffectGroup], [.ledgerPosting]) := by
    rw [named]
    rfl
  simpa [BackendProjectionGraph.ids] using verified.edge_ends listed known

theorem Verified.groupRef_ends {edge : ProjectionEdge} (listed : edge ∈ graph.edges)
    (named : edge.name = "groupRef") : ∃ group ∈ graph.balancedEffectGroups, group.id = edge.to := by
  have known : edgeEndpointKinds.lookup edge.name =
      some ([.ledgerPosting], [.balancedEffectGroup]) := by
    rw [named]
    rfl
  simpa [BackendProjectionGraph.ids] using (verified.edge_ends listed known).2

theorem Verified.postings_nodup : graph.ledgerPostings.Nodup :=
  (verified.family_nodup .ledgerPosting).of_map _

theorem Verified.groups_nodup : graph.balancedEffectGroups.Nodup :=
  (verified.family_nodup .balancedEffectGroup).of_map _

/-- A posting stands under a group as often as edges lead to it. -/
theorem Verified.count_groupPostings {posting : LedgerPosting}
    (declared : posting ∈ graph.ledgerPostings) (group : BalancedEffectGroup) :
    (groupPostings graph group).count posting =
      (graph.edgesFrom group.id "effectRefs").countP (·.to = posting.id) := by
  rw [groupPostings, (sortOn_perm _ _).count_eq]
  induction graph.edgesFrom group.id "effectRefs" with
  | nil => simp
  | cons edge rest ih =>
      rw [List.flatMap_cons, List.count_append, ih, List.countP_cons, Nat.add_comm]
      congr 1
      by_cases reached : edge.to = posting.id
      · rw [List.count_filter (by simp [reached]),
          List.count_eq_one_of_mem verified.postings_nodup declared]
        simp [reached]
      · have absent : posting ∉ graph.ledgerPostings.filter (·.id = edge.to) := by
          intro listed
          have same := List.of_mem_filter listed
          simp only [decide_eq_true_eq] at same
          exact reached same.symm
        rw [List.count_eq_zero_of_not_mem absent]
        simp [reached]

/-- Each posting names one group, which reaches it, and no other group does. -/
theorem Verified.posting_group {posting : LedgerPosting}
    (declared : posting ∈ graph.ledgerPostings) :
    ∃ group ∈ graph.balancedEffectGroups, graph.targets posting.id "groupRef" = {group.id} ∧
      posting.id ∈ graph.targets group.id "effectRefs" ∧
      ∀ other ∈ graph.balancedEffectGroups,
        posting.id ∈ graph.targets other.id "effectRefs" → other = group := by
  have one := (verified.cardinalities.postings posting declared).1 "groupRef" (by simp)
  obtain ⟨edge, single⟩ := List.length_eq_one_iff.mp one
  have listed : edge ∈ graph.edgesFrom posting.id "groupRef" := by simp [single]
  obtain ⟨inEdges, ends⟩ := List.mem_filter.mp listed
  simp only [decide_eq_true_eq] at ends
  obtain ⟨group, groupIn, reached⟩ := verified.groupRef_ends inEdges ends.2
  have named : graph.targets posting.id "groupRef" = {group.id} := by
    rw [BackendProjectionGraph.targets, single, reached]
    rfl
  refine ⟨group, groupIn, named, ?_, fun other otherIn reaches => ?_⟩
  · exact verified.coverage.groups_inverse posting declared group.id (by simp [named])
  · have back := verified.coverage.effects_inverse other otherIn posting.id reaches
    rw [named, Finset.mem_singleton] at back
    exact verified.group_inj otherIn groupIn back

theorem Verified.groupPostings_mem {posting : LedgerPosting}
    (declared : posting ∈ graph.ledgerPostings) (group : BalancedEffectGroup) :
    posting ∈ groupPostings graph group ↔ posting.id ∈ graph.targets group.id "effectRefs" := by
  rw [← List.count_pos_iff, verified.count_groupPostings declared, List.countP_pos_iff, mem_targets]
  simp

end Joins

/-! Each posting once. -/

/-- A posting occurs once in the sequence and once in one group of it, the one its edge names. -/
structure PostedOnce (graph : BackendProjectionGraph) (sequence : FinalizedProjectionSequence)
    (posting : LedgerPosting) : Prop where
  once : (sequence.postings.map (·.posting)).count posting = 1
  grouped : ∃ (index : Nat) (group : FinalizedEffectGroupProjection),
    sequence.effectGroups[index]? = some group ∧
    graph.targets posting.id "groupRef" = {group.group.id} ∧
    (group.finalizedPostings.map (·.posting)).count posting = 1 ∧
    ∀ (other : Nat) (otherGroup : FinalizedEffectGroupProjection),
      sequence.effectGroups[other]? = some otherGroup →
      posting ∈ otherGroup.finalizedPostings.map (·.posting) → other = index

/-- The sequence neither loses nor repeats a posting, in strict order. -/
structure ExactSequence (graph : BackendProjectionGraph)
    (sequence : FinalizedProjectionSequence) : Prop where
  posted : ∀ posting ∈ graph.ledgerPostings, PostedOnce graph sequence posting
  groups_ordered : sequence.effectGroups.Pairwise fun first second =>
    first.group.firstIndex < second.group.firstIndex
  postings_ordered : sequence.postings.Pairwise fun first second =>
    first.posting.effectIndex < second.posting.effectIndex

/-- No effect edge is repeated, and no two groups or postings share an index. -/
structure DistinctIndices (graph : BackendProjectionGraph) : Prop where
  effectRefs : ((graph.edges.filter (·.name = "effectRefs")).map fun edge =>
    (edge.from, edge.to)).Nodup
  firstIndex : (graph.balancedEffectGroups.map (·.firstIndex)).Nodup
  effectIndex : (graph.ledgerPostings.map (·.effectIndex)).Nodup

section Exact

variable {sequence : FinalizedProjectionSequence}

theorem Joined.mem_groups (joined : Joined graph sequence) {group : BalancedEffectGroup} :
    group ∈ sequence.effectGroups.map (·.group) ↔ group ∈ graph.balancedEffectGroups := by
  rw [joined.groups, mem_sortOn]

/-- In the whole sequence a posting occurs as often as in the one group that holds it. -/
theorem Joined.count_postings (joined : Joined graph sequence) (verified : Verified text graph)
    {posting : LedgerPosting} {group : BalancedEffectGroup}
    (groupIn : group ∈ graph.balancedEffectGroups)
    (only : ∀ other ∈ graph.balancedEffectGroups,
      posting.id ∈ graph.targets other.id "effectRefs" → other = group)
    (declared : posting ∈ graph.ledgerPostings) :
    (sequence.postings.map (·.posting)).count posting =
      (groupPostings graph group).count posting := by
  rw [joined.flattened, (flattenedPostings_perm joined.built).count_eq, joined.groups,
    List.count_flatMap]
  have elsewhere : ∀ other ≠ group, other ∈ sortOn (·.firstIndex.toInt) graph.balancedEffectGroups →
      (List.count posting ∘ groupPostings graph) other = 0 := by
    intro other differs listed
    refine List.count_eq_zero_of_not_mem fun there => differs (only other (mem_sortOn.mp listed) ?_)
    exact (verified.groupPostings_mem declared other).mp there
  have here : (sortOn (·.firstIndex.toInt) graph.balancedEffectGroups).count group = 1 := by
    rw [(sortOn_perm _ _).count_eq]
    exact List.count_eq_one_of_mem verified.groups_nodup groupIn
  rw [List.sum_map_eq_nsmul_single group _ elsewhere, here]
  simp

theorem Joined.postedOnce (joined : Joined graph sequence) (verified : Verified text graph)
    {posting : LedgerPosting} (declared : posting ∈ graph.ledgerPostings)
    (unrepeated : ∀ group ∈ graph.balancedEffectGroups,
      (groupPostings graph group).count posting ≤ 1) : PostedOnce graph sequence posting := by
  obtain ⟨group, groupIn, named, reached, only⟩ := verified.posting_group declared
  have held := (verified.groupPostings_mem declared group).mpr reached
  have once : (groupPostings graph group).count posting = 1 :=
    le_antisymm (unrepeated group groupIn) (List.count_pos_iff.mpr held)
  have distinct : (sequence.effectGroups.map (·.group)).Nodup := by
    rw [joined.groups, (sortOn_perm _ _).nodup_iff]
    exact verified.groups_nodup
  obtain ⟨entry, entryIn, rfl⟩ := List.mem_map.mp (joined.mem_groups.mpr groupIn)
  obtain ⟨index, found⟩ := List.getElem?_of_mem entryIn
  refine ⟨?_, index, entry, found, named, by rw [joined.built entry entryIn, once], ?_⟩
  · rw [joined.count_postings verified groupIn only declared, once]
  · intro other otherEntry otherFound holds
    have otherIn := List.mem_of_getElem? otherFound
    rw [joined.built otherEntry otherIn, verified.groupPostings_mem declared] at holds
    have otherGroupIn := joined.mem_groups.mp (List.mem_map_of_mem otherIn)
    have same := only otherEntry.group otherGroupIn holds
    obtain ⟨inside, _⟩ := List.getElem?_eq_some_iff.mp otherFound
    refine (List.getElem?_inj (by simpa using inside) distinct).mp ?_
    rw [List.getElem?_map, List.getElem?_map, otherFound, found]
    simp [same]

theorem toInt_nodup {α : Type} {index : α → Int32} {elements : List α} :
    (elements.map fun element => (index element).toInt).Nodup ↔ (elements.map index).Nodup := by
  rw [← List.nodup_map_iff fun _ _ same => Int32.toInt_inj.mp same, List.map_map]
  rfl

theorem Joined.groups_ordered (joined : Joined graph sequence) :
    (sequence.effectGroups.Pairwise fun first second =>
      first.group.firstIndex < second.group.firstIndex) ↔
      (graph.balancedEffectGroups.map (·.firstIndex)).Nodup := by
  rw [← toInt_nodup, ← sortOn_strict_iff, ← joined.groups, List.pairwise_map]
  simp only [Int32.lt_iff_toInt_lt]

theorem Joined.postings_ordered (joined : Joined graph sequence) :
    (sequence.postings.Pairwise fun first second =>
      first.posting.effectIndex < second.posting.effectIndex) ↔
      ((sequence.postings.map (·.posting)).map (·.effectIndex)).Nodup := by
  rw [joined.flattened, flattenedPostings, List.map_map, ← toInt_nodup]
  simp only [Int32.lt_iff_toInt_lt, sortOn_strict_iff, Function.comp_apply]
  exact ((sortOn_perm _ _).map _).nodup_iff.symm

/-- Where each posting occurs once, the postings of the sequence are those of the graph. -/
theorem Joined.postings_perm (joined : Joined graph sequence)
    (posted : ∀ posting ∈ graph.ledgerPostings, PostedOnce graph sequence posting)
    (nodup : graph.ledgerPostings.Nodup) :
    (sequence.postings.map (·.posting)).Perm graph.ledgerPostings := by
  refine List.perm_iff_count.mpr fun posting => ?_
  by_cases declared : posting ∈ graph.ledgerPostings
  · rw [(posted posting declared).once, List.count_eq_one_of_mem nodup declared]
  · rw [List.count_eq_zero_of_not_mem declared, List.count_eq_zero_of_not_mem]
    rw [joined.flattened, (flattenedPostings_perm joined.built).mem_iff]
    intro listed
    obtain ⟨group, _, grouped⟩ := List.mem_flatMap.mp listed
    obtain ⟨edge, _, held⟩ := List.mem_flatMap.mp (mem_sortOn.mp grouped)
    exact declared (List.mem_of_mem_filter held)

theorem count_effectRefs (group posting : String) :
    (graph.edgesFrom group "effectRefs").countP (·.to = posting) =
      ((graph.edges.filter (·.name = "effectRefs")).map fun edge => (edge.from, edge.to)).count
        (group, posting) := by
  rw [BackendProjectionGraph.edgesFrom, List.count, List.countP_map, List.countP_filter,
    List.countP_filter]
  refine List.countP_congr fun edge _ => ?_
  simp only [Function.comp_apply, Bool.and_eq_true, decide_eq_true_eq, beq_iff_eq, Prod.mk.injEq]
  tauto

/-- A sequence of a verified graph is exact exactly when no effect edge is repeated and no two
groups or postings share an index. -/
theorem Joined.exact_iff (joined : Joined graph sequence) (verified : Verified text graph) :
    ExactSequence graph sequence ↔ DistinctIndices graph := by
  constructor
  · intro exact
    refine ⟨List.nodup_iff_count_le_one.mpr fun pair => ?_,
      joined.groups_ordered.mp exact.groups_ordered, ?_⟩
    · by_cases listed :
        pair ∈ (graph.edges.filter (·.name = "effectRefs")).map fun edge => (edge.from, edge.to)
      · obtain ⟨edge, inEffects, rfl⟩ := List.mem_map.mp listed
        obtain ⟨inEdges, named⟩ := List.mem_filter.mp inEffects
        obtain ⟨⟨group, groupIn, fromGroup⟩, posting, declared, toPosting⟩ :=
          verified.effectRefs_ends inEdges (by simpa using named)
        obtain ⟨holder, holderIn, _, _, only⟩ := verified.posting_group declared
        have reached : posting.id ∈ graph.targets group.id "effectRefs" := by
          rw [mem_targets, fromGroup, toPosting]
          exact ⟨edge, List.mem_filter.mpr ⟨inEdges, by simpa using named⟩, rfl⟩
        have same := only group groupIn reached
        subst same
        have once := joined.count_postings verified groupIn only declared
        rw [(exact.posted posting declared).once, verified.count_groupPostings declared,
          count_effectRefs] at once
        rw [← fromGroup, ← toPosting, ← once]
      · rw [List.count_eq_zero_of_not_mem listed]
        exact Nat.zero_le 1
    · have permuted := joined.postings_perm exact.posted verified.postings_nodup
      exact (permuted.map _).nodup_iff.mp (joined.postings_ordered.mp exact.postings_ordered)
  · intro distinct
    have posted : ∀ posting ∈ graph.ledgerPostings, PostedOnce graph sequence posting := by
      intro posting declared
      refine joined.postedOnce verified declared fun group _ => ?_
      rw [verified.count_groupPostings declared, count_effectRefs]
      exact List.nodup_iff_count_le_one.mp distinct.effectRefs _
    have permuted := joined.postings_perm posted verified.postings_nodup
    exact ⟨posted, joined.groups_ordered.mpr distinct.firstIndex,
      joined.postings_ordered.mpr ((permuted.map _).nodup_iff.mpr distinct.effectIndex)⟩

end Exact

theorem DistinctIndices.shuffle {other : BackendProjectionGraph} (shuffle : Shuffle graph other) :
    DistinctIndices graph ↔ DistinctIndices other := by
  have effects := (((shuffle.edges.filter (·.name = "effectRefs")).map fun edge =>
    (edge.from, edge.to))).nodup_iff
  have groups := (shuffle.balancedEffectGroups.map (·.firstIndex)).nodup_iff
  have postings := (shuffle.ledgerPostings.map (·.effectIndex)).nodup_iff
  exact ⟨fun ⟨one, two, three⟩ => ⟨effects.mp one, groups.mp two, postings.mp three⟩,
    fun ⟨one, two, three⟩ => ⟨effects.mpr one, groups.mpr two, postings.mpr three⟩⟩

/-- What a verified graph finalizes to is exact exactly when no effect edge is repeated and no
two groups or postings share an index. -/
theorem finalized_sequence_exact_iff {ordered : BackendProjectionGraph}
    {sequence : FinalizedProjectionSequence} (accepted : verifyAndOrder text graph = .ok ordered)
    (consumed : consumeFinalizedProjectionSequence text ordered = .ok sequence) :
    ExactSequence ordered sequence ↔ DistinctIndices graph := by
  obtain ⟨verified, rfl⟩ := verifyAndOrder_ok.mp accepted
  have shuffle := order_shuffle graph
  rw [(joined_of_consumed consumed).exact_iff (shuffle.verdict verified),
    ← DistinctIndices.shuffle shuffle]

/-! One group with one posting, reached by the effect edges given. -/

def effectEdge : ProjectionEdge := ⟨"group", "effectRefs", "posting", "effect:0"⟩

def onePosting (effects : List ProjectionEdge) : BackendProjectionGraph where
  schemaVersion := kProjectionSchemaVersion
  executionIdentities := [⟨"execution", "trade", "", "", "TradeInvoked", "trade", [], ""⟩]
  commitStates := []
  lifecycleStates := [⟨"settled", "SETTLED", true, .success, ""⟩]
  transitions := []
  projectedLifecycleRoles := [
    ⟨"role0", .effectful, .initial, "SETTLED", ""⟩,
    ⟨"role1", .effectful, .acceptedOrAttested, "SETTLED", ""⟩,
    ⟨"role2", .effectful, .success, "SETTLED", ""⟩]
  quorumPolicies := []
  guardObligations := []
  evidenceAcceptances := []
  primitiveObligations := []
  balancedEffectGroups := [⟨"group", 0, "", false, .none, "", "", false, "group:0"⟩]
  ledgerPostings := [⟨"posting", 0, "debit", "pay", "cash", "buyer", "amount", "USD", "", ""⟩]
  balanceAssertions := []
  compensationObligations := []
  typedOperands := [⟨"operand", "ledger", "cash", ""⟩]
  typedParams := []
  references := []
  computeNodes := []
  edges := effects ++ [
    ⟨"posting", "amountRef", "operand", ""⟩, ⟨"posting", "currencyRef", "operand", ""⟩,
    ⟨"posting", "groupRef", "group", ""⟩, ⟨"posting", "ledgerRef", "operand", ""⟩,
    ⟨"posting", "partyRef", "operand", ""⟩, ⟨"role0", "stateRef", "settled", ""⟩,
    ⟨"role1", "stateRef", "settled", ""⟩, ⟨"role2", "stateRef", "settled", ""⟩]

/-- A text form that reads nothing; the graphs above hold no text to read. -/
def noText : JsonText := ⟨fun _ => "", fun _ => .error ""⟩

theorem finalized_sequence_exact_one :
    ∃ sequence, verifyAndOrder noText (onePosting [effectEdge]) = .ok (onePosting [effectEdge]) ∧
      consumeFinalizedProjectionSequence noText (onePosting [effectEdge]) = .ok sequence ∧
      ExactSequence (onePosting [effectEdge]) sequence := by
  have accepted : verifyAndOrder noText (onePosting [effectEdge]) =
    .ok (onePosting [effectEdge]) := by decide +kernel
  refine ⟨_, accepted, rfl, (finalized_sequence_exact_iff accepted rfl).mpr ?_⟩
  exact ⟨by decide, by decide, by decide⟩

/-- A repeated effect edge passes the verifier, and its posting is finalized twice. -/
theorem repeated_effect_not_exact :
    ∃ sequence, verifyAndOrder noText (onePosting [effectEdge, effectEdge]) =
        .ok (onePosting [effectEdge, effectEdge]) ∧
      consumeFinalizedProjectionSequence noText (onePosting [effectEdge, effectEdge]) =
        .ok sequence ∧
      sequence.postings.map (·.posting.id) = ["posting", "posting"] ∧
      ¬ExactSequence (onePosting [effectEdge, effectEdge]) sequence := by
  have accepted : verifyAndOrder noText (onePosting [effectEdge, effectEdge]) =
    .ok (onePosting [effectEdge, effectEdge]) := by decide +kernel
  refine ⟨_, accepted, rfl, rfl, fun exact => ?_⟩
  have verified := (verifyAndOrder_ok.mp accepted).1
  have distinct := ((@joined_of_consumed noText _ _ rfl).exact_iff verified).mp exact
  exact absurd distinct.effectRefs (by decide)

end Neutrino.Projection
