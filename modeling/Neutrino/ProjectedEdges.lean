import Neutrino.BackendProjection

/-! The edges of a projected graph, name by name. -/

namespace Neutrino.Projection

/-! Elements of one key in a list of parts that each have their own. -/

theorem filter_flatMap_key {α β κ : Type} [DecidableEq κ] {elements : List α} {parts : α → List β}
    {key : α → κ} {keyOf : β → κ} (own : ∀ element ∈ elements, ∀ part ∈ parts element,
      keyOf part = key element) (distinct : (elements.map key).Nodup) {element : α}
    (listed : element ∈ elements) :
    (elements.flatMap parts).filter (keyOf · = key element) = parts element := by
  induction elements with
  | nil => simp at listed
  | cons first rest ih =>
      obtain ⟨here, later⟩ := List.forall_mem_cons.mp own
      rw [List.map_cons, List.nodup_cons] at distinct
      rw [List.flatMap_cons, List.filter_append]
      rcases List.mem_cons.mp listed with rfl | inRest
      · have mine : (parts element).filter (keyOf · = key element) = parts element :=
          List.filter_eq_self.mpr fun part held => by simpa using here part held
        have others : (rest.flatMap parts).filter (keyOf · = key element) = [] := by
          rw [List.filter_eq_nil_iff]
          intro part held
          obtain ⟨other, otherIn, inside⟩ := List.mem_flatMap.mp held
          simp only [decide_eq_true_eq, later other otherIn part inside]
          exact fun same => distinct.1 (same ▸ List.mem_map_of_mem otherIn)
        rw [mine, others, List.append_nil]
      · have none : (parts first).filter (keyOf · = key element) = [] := by
          rw [List.filter_eq_nil_iff]
          intro part held
          simp only [decide_eq_true_eq, here part held]
          exact fun same => distinct.1 (same ▸ List.mem_map_of_mem inRest)
        rw [none, List.nil_append, ih later distinct.2 inRest]

/-! Families of edges whose names are known. -/

section Names

variable {edges : List ProjectionEdge} {names : List String}

/-- Every edge has one of the names. -/
def NamedIn (names : List String) (edges : List ProjectionEdge) : Prop :=
  ∀ edge ∈ edges, edge.name ∈ names

theorem NamedIn.apart (named : NamedIn names edges) {name : String} (other : name ∉ names) :
    edges.filter (·.name = name) = [] := by
  rw [List.filter_eq_nil_iff]
  intro edge listed
  have known := named edge listed
  simp only [decide_eq_true_eq]
  rintro rfl
  exact other known

theorem NamedIn.whole {name : String} (named : NamedIn [name] edges) :
    edges.filter (·.name = name) = edges := by
  rw [List.filter_eq_self]
  intro edge listed
  simpa using named edge listed

theorem namedIn_map {α : Type} {elements : List α} {edge : α → ProjectionEdge}
    (named : ∀ element, (edge element).name ∈ names) : NamedIn names (elements.map edge) := by
  intro _ listed
  obtain ⟨element, _, rfl⟩ := List.mem_map.mp listed
  exact named element

theorem namedIn_flatMap {α : Type} {elements : List α} {edges : α → List ProjectionEdge}
    (named : ∀ element, NamedIn names (edges element)) : NamedIn names (elements.flatMap edges) := by
  intro edge listed
  obtain ⟨element, _, inside⟩ := List.mem_flatMap.mp listed
  exact named element edge inside

end Names

section Families

variable {sha256Hex : List UInt8 → String} {plan : CoordinationPlan}

theorem policyEdges_named :
    NamedIn ["inputRef", "observerSetRef"] (plan.attestations.zipIdx.flatMap (policyEdges plan)) :=
  namedIn_flatMap fun _ => by simp [NamedIn, policyEdges]

theorem primitiveEdges_named : NamedIn ["policyRef"] (primitiveEdges plan) :=
  namedIn_map fun _ => by simp

theorem evidenceEdges_named :
    NamedIn ["policyRef"] ((evidencePolicies plan).map (evidenceGuardEdge plan)) :=
  namedIn_map fun _ => by simp [evidenceGuardEdge]

theorem postingEdges_named :
    NamedIn ["ledgerRef", "partyRef", "amountRef", "currencyRef", "memoRef"]
      (plan.effects.zipIdx.flatMap (postingEdges plan)) := by
  refine namedIn_flatMap fun indexed edge listed => ?_
  obtain ⟨operand, held, rfl⟩ := List.mem_map.mp listed
  simp only [postingOperands, List.mem_append] at held
  rcases held with (((held | held) | held) | held) | held <;> split at held <;>
    simp_all

theorem computeEdges_named :
    NamedIn ["operandRefs"] (plan.computes.zipIdx.flatMap (computeEdges plan)) :=
  namedIn_flatMap fun _ => namedIn_map fun _ => by simp

theorem guardEdges_named (indexed : PlanEffectGroup × Nat) :
    NamedIn ["policyRef", "guardRef"] (guardEdges plan indexed) := by
  intro edge listed
  unfold guardEdges at listed
  split at listed
  · simp at listed
  · split at listed <;> simp at listed <;> aesop

theorem memberEdges_named (indexed : PlanEffectGroup × Nat) :
    NamedIn ["groupRef", "effectRefs"] (memberEdges plan indexed) := by
  refine namedIn_flatMap fun member edge listed => ?_
  split at listed <;> simp at listed
  rcases listed with rfl | rfl <;> simp

theorem groupEdges_named :
    NamedIn ["policyRef", "guardRef", "groupRef", "effectRefs"]
      (plan.effectGroups.zipIdx.flatMap fun indexed =>
        guardEdges plan indexed ++ memberEdges plan indexed) := by
  refine namedIn_flatMap fun indexed edge listed => ?_
  rcases List.mem_append.mp listed with guard | member
  · have named := guardEdges_named indexed edge guard
    simp only [List.mem_cons, List.not_mem_nil, or_false] at named ⊢
    tauto
  · have named := memberEdges_named indexed edge member
    simp only [List.mem_cons, List.not_mem_nil, or_false] at named ⊢
    tauto

theorem balanceEdges_named : NamedIn ["assertsRefs"] (balanceEdges plan) :=
  namedIn_map fun _ => by simp

theorem compensationEdges_named :
    NamedIn ["compensates"] ((compensatedPlanGroups plan).map compensationEdge) :=
  namedIn_map fun _ => by simp [compensationEdge]

theorem commitEdges_named :
    NamedIn ["execRef", "scopeRef"] ((commitScopes plan).flatMap (commitEdges sha256Hex plan)) := by
  refine namedIn_flatMap fun scope edge listed => ?_
  simp only [commitEdges, List.mem_cons] at listed
  rcases listed with rfl | listed
  · simp
  · split at listed <;> simp at listed
    simp [listed]

theorem requiredCommitEdges_named :
    NamedIn ["requiredCommitRefs"] ((notedStates plan).flatMap (requiredCommitEdges plan)) := by
  refine namedIn_flatMap fun noted => ?_
  unfold requiredCommitEdges
  split
  · exact namedIn_map fun _ => by simp
  · simp [NamedIn]

theorem transitionEdges_named :
    NamedIn ["fromRef", "toRef", "effectGroupRefs"]
      (plan.lifecycleTransitions.zipIdx.flatMap (transitionEdges plan)) := by
  refine namedIn_flatMap fun indexed edge listed => ?_
  simp only [transitionEdges, List.mem_append] at listed
  rcases listed with (listed | listed) | listed <;> split at listed <;> simp at listed
  · simp [listed]
  · simp [listed]
  · obtain ⟨_, _, _, rfl⟩ := listed
    simp

theorem roleEdges_named : NamedIn ["stateRef"] ((addedRoles plan).map (roleEdge plan)) :=
  namedIn_map fun _ => by simp [roleEdge]

/-! The edges of one name, in the order the projector pushes them. -/

/-- The families with the names of their edges, in the order the projector pushes them. -/
def edgeFamilies (sha256Hex : List UInt8 → String) (plan : CoordinationPlan) :
    List (List String × List ProjectionEdge) := [
  (["inputRef", "observerSetRef"], plan.attestations.zipIdx.flatMap (policyEdges plan)),
  (["policyRef"], primitiveEdges plan),
  (["policyRef"], (evidencePolicies plan).map (evidenceGuardEdge plan)),
  (["ledgerRef", "partyRef", "amountRef", "currencyRef", "memoRef"],
    plan.effects.zipIdx.flatMap (postingEdges plan)),
  (["operandRefs"], plan.computes.zipIdx.flatMap (computeEdges plan)),
  (["policyRef", "guardRef", "groupRef", "effectRefs"],
    plan.effectGroups.zipIdx.flatMap fun indexed =>
      guardEdges plan indexed ++ memberEdges plan indexed),
  (["assertsRefs"], balanceEdges plan),
  (["compensates"], (compensatedPlanGroups plan).map compensationEdge),
  (["execRef", "scopeRef"], (commitScopes plan).flatMap (commitEdges sha256Hex plan)),
  (["requiredCommitRefs"], (notedStates plan).flatMap (requiredCommitEdges plan)),
  (["fromRef", "toRef", "effectGroupRefs"],
    plan.lifecycleTransitions.zipIdx.flatMap (transitionEdges plan)),
  (["stateRef"], (addedRoles plan).map (roleEdge plan))
]

theorem projectedEdges_eq :
    projectedEdges sha256Hex plan = (edgeFamilies sha256Hex plan).flatMap (·.2) := by
  simp [projectedEdges, edgeFamilies]

theorem edgeFamilies_named :
    ∀ family ∈ edgeFamilies sha256Hex plan, NamedIn family.1 family.2 := by
  simp only [edgeFamilies, List.forall_mem_cons]
  exact ⟨policyEdges_named, primitiveEdges_named, evidenceEdges_named, postingEdges_named,
    computeEdges_named, groupEdges_named, balanceEdges_named, compensationEdges_named,
    commitEdges_named, requiredCommitEdges_named, transitionEdges_named, roleEdges_named, by simp⟩

/-- Only the families that know a name have edges of it. -/
theorem edges_of_name (name : String) :
    (projectedEdges sha256Hex plan).filter (·.name = name) =
      ((edgeFamilies sha256Hex plan).filter (name ∈ ·.1)).flatMap fun family =>
        family.2.filter (·.name = name) := by
  rw [projectedEdges_eq, List.filter_flatMap]
  have named : ∀ family ∈ edgeFamilies sha256Hex plan, NamedIn family.1 family.2 :=
    edgeFamilies_named
  generalize edgeFamilies sha256Hex plan = families at named ⊢
  induction families with
  | nil => rfl
  | cons family rest ih =>
      obtain ⟨here, later⟩ := List.forall_mem_cons.mp named
      rw [List.flatMap_cons, ih later, List.filter_cons]
      split
      · rw [List.flatMap_cons]
      · rename_i absent
        rw [here.apart (by simpa using absent), List.nil_append]

theorem edges_inputRef :
    (projectedEdges sha256Hex plan).filter (·.name = "inputRef") =
      plan.attestations.zipIdx.map fun indexed =>
        ⟨(quorumPolicy indexed).id, "inputRef", (evidenceAcceptance plan indexed).id,
          planRef "attestations" indexed.2⟩ := by
  rw [edges_of_name]
  simp [edgeFamilies, policyEdges, List.filter_flatMap, List.map_eq_flatMap]

/-- The edge from a group's attested guard to its policy. -/
def guardPolicyEdges (plan : CoordinationPlan) (indexed : PlanEffectGroup × Nat) :
    List ProjectionEdge :=
  ((groupGuardObligation indexed).toList.filter (·.guardKind = "attested")).map fun guard =>
    ⟨guard.id, "policyRef", policyIdByInput plan indexed.1.gatePolicy, guard.sourceRef⟩

theorem edges_policyRef :
    (projectedEdges sha256Hex plan).filter (·.name = "policyRef") =
      primitiveEdges plan ++ (evidencePolicies plan).map (evidenceGuardEdge plan) ++
        plan.effectGroups.zipIdx.flatMap (guardPolicyEdges plan) := by
  have own : ∀ indexed : PlanEffectGroup × Nat,
      (guardEdges plan indexed ++ memberEdges plan indexed).filter (·.name = "policyRef") =
        guardPolicyEdges plan indexed := by
    intro indexed
    rw [List.filter_append, (memberEdges_named indexed).apart (by decide), List.append_nil]
    unfold guardEdges guardPolicyEdges
    cases groupGuardObligation indexed with
    | none => rfl
    | some guard => by_cases attested : guard.guardKind = "attested" <;> simp [attested]
  rw [edges_of_name]
  simp only [edgeFamilies, List.filter_cons]
  simp [primitiveEdges_named.whole, evidenceEdges_named.whole, List.filter_flatMap, own]

/-- The guard edge of a group. -/
def groupGuardEdges (indexed : PlanEffectGroup × Nat) : List ProjectionEdge :=
  (groupGuardObligation indexed).toList.map fun guard =>
    ⟨groupNodeId indexed.1, "guardRef", guard.id, guard.sourceRef⟩

theorem edges_guardRef :
    (projectedEdges sha256Hex plan).filter (·.name = "guardRef") =
      plan.effectGroups.zipIdx.flatMap groupGuardEdges := by
  have own : ∀ indexed : PlanEffectGroup × Nat,
      (guardEdges plan indexed ++ memberEdges plan indexed).filter (·.name = "guardRef") =
        groupGuardEdges indexed := by
    intro indexed
    rw [List.filter_append, (memberEdges_named indexed).apart (by decide), List.append_nil]
    unfold guardEdges groupGuardEdges
    cases groupGuardObligation indexed with
    | none => rfl
    | some guard => by_cases attested : guard.guardKind = "attested" <;> simp [attested]
  rw [edges_of_name]
  simp [edgeFamilies, List.filter_flatMap, own]

/-- The members of a group that are effects of the plan, with their places in the group. -/
def groupMembers (plan : CoordinationPlan) (group : PlanEffectGroup) : List (Nat × Nat) :=
  group.effectIndices.zipIdx.filter fun member => plan.effects.any (·.index = member.1)

theorem memberEdges_eq (indexed : PlanEffectGroup × Nat) :
    memberEdges plan indexed = (groupMembers plan indexed.1).flatMap fun member => [
      ⟨postingNodeId member.1, "groupRef", groupNodeId indexed.1,
        planRef "effectGroups" indexed.2⟩,
      ⟨groupNodeId indexed.1, "effectRefs", postingNodeId member.1,
        planRef "effectGroups" indexed.2 ++ ".effectIndices[" ++ toString member.2 ++ "]"⟩] := by
  unfold memberEdges groupMembers
  induction indexed.1.effectIndices.zipIdx with
  | nil => rfl
  | cons member rest ih =>
      rw [List.flatMap_cons, ih, List.filter_cons]
      split <;> simp

theorem edges_effectRefs :
    (projectedEdges sha256Hex plan).filter (·.name = "effectRefs") =
      plan.effectGroups.zipIdx.flatMap fun indexed =>
        (groupMembers plan indexed.1).map fun member =>
          ⟨groupNodeId indexed.1, "effectRefs", postingNodeId member.1,
            planRef "effectGroups" indexed.2 ++ ".effectIndices[" ++ toString member.2 ++ "]"⟩ := by
  have own : ∀ indexed : PlanEffectGroup × Nat,
      (guardEdges plan indexed ++ memberEdges plan indexed).filter (·.name = "effectRefs") =
        (groupMembers plan indexed.1).map fun member =>
          ⟨groupNodeId indexed.1, "effectRefs", postingNodeId member.1,
            planRef "effectGroups" indexed.2 ++ ".effectIndices[" ++ toString member.2 ++ "]"⟩ := by
    intro indexed
    rw [List.filter_append, (guardEdges_named indexed).apart (by decide), List.nil_append,
      memberEdges_eq, List.filter_flatMap, List.map_eq_flatMap]
    simp
  rw [edges_of_name]
  simp [edgeFamilies, List.filter_flatMap, own]

/-- The edges of one name out of a node are among the edges of that name. -/
theorem edgesFrom_projected (text : JsonText) (id name : String) :
    (projectedGraph sha256Hex text plan).edgesFrom id name =
      ((projectedEdges sha256Hex plan).filter (·.name = name)).filter (·.from = id) := by
  rw [BackendProjectionGraph.edgesFrom, List.filter_filter]
  simp [projectedGraph]

end Families

end Neutrino.Projection
