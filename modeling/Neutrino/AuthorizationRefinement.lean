import Neutrino.AuthorizationColors
import Neutrino.OracleInvariant

/-! The colour refinement of authorization topologies settles within as many rounds as there are
participants, on colours that no renaming or reordering of the plan changes. -/

namespace Neutrino.AuthorizationTopology

open Checked Colouring

variable {plan other : CoordinationPlan}

/-! Rounds. -/

theorem length_signatures {colors : List Nat} (length : colors.length = plan.participants.length) :
    (signatures plan colors).length = plan.participants.length := by
  simp [signatures, length]

theorem signatures_getElem {colors : List Nat} {i : Nat} (bound : i < plan.participants.length)
    (bound' : i < colors.length) (inside : i < (signatures plan colors).length) :
    (signatures plan colors)[i] =
      signature plan colors plan.participants[i] colors[i] := by
  simp [signatures]

/-- A signature begins with the colour it refines. -/
theorem signature_begins (plan : CoordinationPlan) (colors : List Nat) (participant : PlanParticipant) (color : Nat) :
    ∃ rest, signature plan colors participant color = "C" ++ toString color ++ "|E" ++ rest := by
  have grows : ∀ (added : List String) (start rest : String), ∃ rest',
      added.foldl (fun signature incident => signature ++ "|I" ++ incident) (start ++ rest) =
        start ++ rest' := by
    intro added
    induction added with
    | nil => exact fun start rest => ⟨rest, rfl⟩
    | cons first others ih =>
        intro start rest
        rw [List.foldl_cons, String.append_assoc, String.append_assoc]
        exact ih start _
  unfold signature
  rw [@String.append_assoc ("C" ++ toString color ++ "|E"),
    @String.append_assoc ("C" ++ toString color ++ "|E")]
  exact grows _ _ _

theorem digit_lt {lower upper : Nat} (below : lower < upper) (digit : upper < 10) :
    ∃ first second : Char, (toString lower).toList = [first] ∧ (toString upper).toList = [second] ∧
      first < second := by
  have small : lower < 10 := by omega
  interval_cases upper <;> interval_cases lower <;> exact ⟨_, _, rfl, rfl, by decide⟩

/-- Of colours of one digit the lower has the lower signatures. -/
theorem signature_lt (colors : List Nat) {participant participant' : PlanParticipant}
    {lower upper : Nat} (below : lower < upper) (digit : upper < 10) :
    signature plan colors participant lower < signature plan colors participant' upper := by
  obtain ⟨rest, first⟩ := signature_begins plan colors participant lower
  obtain ⟨rest', second⟩ := signature_begins plan colors participant' upper
  obtain ⟨low, high, lowText, highText, apart⟩ := digit_lt below digit
  rw [first, second, String.lt_iff_toList_lt]
  simp only [String.toList_append, lowText, highText, List.append_assoc, List.cons_append,
    List.nil_append]
  exact List.Lex.cons (List.Lex.rel apart)

theorem keeps_refined (few : plan.participants.length ≤ 10) {colors : List Nat}
    (length : colors.length = plan.participants.length) (compact : Compact colors) :
    Keeps colors (refined plan colors) := by
  intro i first j second below
  have sized := length_signatures length
  have ranked := rank_lt_iff (signatures plan colors) (i := i) (j := j) (by omega) (by omega)
  rw [refined, colorize, ranked, signatures_getElem (by omega) first,
    signatures_getElem (by omega) second]
  simp only [colour, List.getD_eq_getElem _ _ first, List.getD_eq_getElem _ _ second] at below
  have digit := compact.lt_length (List.getElem_mem second)
  exact signature_lt colors below (by omega)

theorem refineLoop_of_fixed {rounds round : Nat} {colors : List Nat}
    (fixed : refined plan ((refined plan)^[round] colors) = (refined plan)^[round] colors)
    (enough : round < rounds) :
    refineLoop plan rounds colors = some ((refined plan)^[round] colors) := by
  induction round generalizing rounds colors with
  | zero =>
      obtain ⟨more, rfl⟩ := Nat.exists_eq_add_of_lt enough
      exact if_pos fixed
  | succ round ih =>
      obtain ⟨more, rfl⟩ := Nat.exists_eq_add_of_lt enough
      rw [refineLoop]
      split
      · rename_i still
        rw [Function.iterate_fixed still]
      · exact ih fixed (by omega)

theorem length_rounds (plan : CoordinationPlan) (round : Nat) :
    ((refined plan)^[round] (initialColors plan)).length = plan.participants.length := by
  induction round with
  | zero => simp [initialColors, colorize, length_ranks, initialSignatures]
  | succ round ih =>
      rw [Function.iterate_succ_apply', refined, colorize, length_ranks, length_signatures ih]

/-- At most ten participants: colours of one digit, and a round that changes none within as many
rounds as there are participants. -/
theorem refinement_settles (few : plan.participants.length ≤ 10) :
    ∃ round ≤ plan.participants.length,
      refined plan ((refined plan)^[round] (initialColors plan)) =
        (refined plan)^[round] (initialColors plan) := by
  refine settles ⟨?_, ranks_compact _⟩ (fun colors length => ⟨?_, ranks_compact _⟩)
    fun colors length compact => keeps_refined few length compact
  · exact length_rounds plan 0
  · rw [refined, colorize, length_ranks, length_signatures length]

theorem zip_over {participants : List PlanParticipant} {colors : List Nat} (next : List Nat)
    (length : colors.length = participants.length) :
    ((participants.zip colors).zip next).map (fun triple => (triple.1.1, triple.2)) =
      participants.zip next := by
  have firsts : (participants.zip colors).map Prod.fst = participants :=
    List.map_fst_zip (by omega)
  conv_rhs => rw [← firsts, List.zip_map_left]
  rfl

/-! Plans alike up to names and order. -/

/-- New names of participants, organizations and roles. -/
structure Renaming where
  participant : String → String
  organization : String → String
  role : String → String

namespace Renaming

variable (relabel : Renaming)

def actor (participant : PlanParticipant) : PlanParticipant where
  name := relabel.participant participant.name
  role := relabel.role participant.role
  org := relabel.organization participant.org

def edge (edge : PlanOrgPolicy) : PlanOrgPolicy where
  orgA := relabel.organization edge.orgA
  orgB := relabel.organization edge.orgB
  roleA := relabel.role edge.roleA
  roleB := relabel.role edge.roleB

end Renaming

/-! The names a plan's authorization uses, the empty one of what is not named among them. -/

def participantNames (plan : CoordinationPlan) : Set String :=
  {name | name = "" ∨ name ∈ plan.participants.map (·.name) ∨
    name ∈ plan.effects.map (·.participant)}

def organizationNames (plan : CoordinationPlan) : Set String :=
  {name | name = "" ∨ name ∈ plan.participants.map (·.org) ∨
    ∃ edge ∈ plan.allowedOrgPairs, name = edge.orgA ∨ name = edge.orgB}

def roleNames (plan : CoordinationPlan) : Set String :=
  {name | name = "" ∨ name ∈ plan.participants.map (·.role) ∨
    ∃ edge ∈ plan.allowedOrgPairs, name = edge.roleA ∨ name = edge.roleB}

/-- The other plan has the participants and the allowed edges of the plan under their new names, in
any order and the edges in any direction, and the same participants at the same effects. -/
structure Isomorphic (relabel : Renaming) (plan other : CoordinationPlan) : Prop where
  participant_inj : (participantNames plan).InjOn relabel.participant
  organization_inj : (organizationNames plan).InjOn relabel.organization
  role_inj : (roleNames plan).InjOn relabel.role
  unnamed : relabel.participant "" = "" ∧ relabel.organization "" = "" ∧ relabel.role "" = ""
  participants : other.participants.Perm (plan.participants.map relabel.actor)
  effects : other.effects.map (·.participant) =
    plan.effects.map fun effect => relabel.participant effect.participant
  edges : (other.allowedOrgPairs.map orderedEdge).Perm
    ((plan.allowedOrgPairs.map relabel.edge).map orderedEdge)

/-- A label is an organization's or a role's. -/
def Renaming.label (relabel : Renaming) (organization : Bool) : String → String :=
  if organization then relabel.organization else relabel.role

def labelNames (plan : CoordinationPlan) (organization : Bool) : Set String :=
  if organization then organizationNames plan else roleNames plan

/-- The participants of the other plan with their colours are those of the plan renamed. -/
def Recolors (relabel : Renaming) (plan other : CoordinationPlan) (colors otherColors : List Nat) :
    Prop :=
  (other.participants.zip otherColors).Perm
    ((plan.participants.zip colors).map fun pair => (relabel.actor pair.1, pair.2))

section Alike

variable {relabel : Renaming} (alike : Isomorphic relabel plan other)

include alike

theorem Isomorphic.participant_iff {first second : String} (used : first ∈ participantNames plan)
    (used' : second ∈ participantNames plan) :
    relabel.participant first = relabel.participant second ↔ first = second :=
  alike.participant_inj.eq_iff used used'

theorem Isomorphic.label_iff {organization : Bool} {first second : String}
    (used : first ∈ labelNames plan organization) (used' : second ∈ labelNames plan organization) :
    relabel.label organization first = relabel.label organization second ↔ first = second := by
  cases organization with
  | true => exact alike.organization_inj.eq_iff used used'
  | false => exact alike.role_inj.eq_iff used used'

theorem Isomorphic.label_empty {organization : Bool} {label : String}
    (used : label ∈ labelNames plan organization) :
    relabel.label organization label = "" ↔ label = "" := by
  have unnamed : relabel.label organization "" = "" := by
    cases organization with
    | true => exact alike.unnamed.2.1
    | false => exact alike.unnamed.2.2
  have blank : "" ∈ labelNames plan organization := by
    cases organization with
    | true => exact .inl rfl
    | false => exact .inl rfl
  have same := alike.label_iff used blank
  rwa [unnamed] at same

theorem Isomorphic.length_participants :
    other.participants.length = plan.participants.length := by
  have length := alike.participants.length_eq
  rwa [List.length_map] at length

theorem Isomorphic.participantEffects_eq {participant : PlanParticipant}
    (listed : participant ∈ plan.participants) :
    participantEffects other (relabel.participant participant.name) =
      participantEffects plan participant.name := by
  have named : participant.name ∈ participantNames plan :=
    .inr (.inl (List.mem_map_of_mem listed))
  have blank : "" ∈ participantNames plan := .inl rfl
  have renamed : other.effects.map (·.participant) =
      (plan.effects.map (·.participant)).map relabel.participant := by
    rw [alike.effects, List.map_map]
    rfl
  unfold participantEffects
  rw [renamed, List.zipIdx_map, List.filter_map, List.map_map]
  have kept : (plan.effects.map (·.participant)).zipIdx.filter
      ((fun pair => decide (pair.1 ≠ "" ∧
        pair.1 = relabel.participant participant.name)) ∘ Prod.map relabel.participant id) =
      (plan.effects.map (·.participant)).zipIdx.filter fun pair =>
        decide (pair.1 ≠ "" ∧ pair.1 = participant.name) := by
    refine List.filter_congr fun pair present => ?_
    have used : pair.1 ∈ participantNames plan :=
      .inr (.inr (List.fst_mem_of_mem_zipIdx present))
    have empty := alike.participant_iff used blank
    rw [alike.unnamed.1] at empty
    simp only [Function.comp_apply, Prod.map_fst, ne_eq, empty, alike.participant_iff used named]
  refine (congrArg (List.map _) kept).trans ?_
  rfl

theorem Isomorphic.colorsFor_eq {colors otherColors : List Nat}
    (recolors : Recolors relabel plan other colors otherColors) {organization : Bool}
    {label : String} (used : label ∈ labelNames plan organization) :
    colorsFor other (relabel.label organization label) organization otherColors =
      colorsFor plan label organization colors := by
  unfold colorsFor
  by_cases empty : label = ""
  · rw [if_pos empty, if_pos ((alike.label_empty used).mpr empty)]
  · rw [if_neg empty, if_neg fun blank => empty ((alike.label_empty used).mp blank)]
    apply sorted_of_perm
    refine ((recolors.filter _).map _).trans ?_
    rw [List.filter_map, List.map_map]
    refine .of_eq ?_
    have kept : ∀ pair ∈ plan.participants.zip colors,
        ((if organization then (relabel.actor pair.1).org else (relabel.actor pair.1).role) =
          relabel.label organization label ↔
        (if organization then pair.1.org else pair.1.role) = label) := by
      intro pair present
      have listed := (List.of_mem_zip present).1
      cases organization with
      | true =>
          have org : pair.1.org ∈ labelNames plan true := .inr (.inl (List.mem_map_of_mem listed))
          exact alike.label_iff org used
      | false =>
          have role : pair.1.role ∈ labelNames plan false :=
            .inr (.inl (List.mem_map_of_mem listed))
          exact alike.label_iff role used
    have same : (plan.participants.zip colors).filter ((fun pair => decide
          ((if organization then pair.1.org else pair.1.role) = relabel.label organization label)) ∘
        fun pair => (relabel.actor pair.1, pair.2)) =
        (plan.participants.zip colors).filter fun pair => decide
          ((if organization then pair.1.org else pair.1.role) = label) :=
      List.filter_congr fun pair present => decide_eq_decide.mpr (kept pair present)
    exact congrArg (List.map (·.2)) same

/-! Edges. -/

theorem Isomorphic.incident_eq {colors otherColors : List Nat}
    (recolors : Recolors relabel plan other colors otherColors) {edge : PlanOrgPolicy}
    (listed : edge ∈ plan.allowedOrgPairs) (atA : Bool) :
    incident other otherColors (relabel.edge edge) atA = incident plan colors edge atA := by
  have orgs : ∀ org, org = edge.orgA ∨ org = edge.orgB →
      colorsFor other (relabel.organization org) true otherColors =
        colorsFor plan org true colors := fun org isEnd =>
    have used : org ∈ labelNames plan true := .inr (.inr ⟨edge, listed, isEnd⟩)
    alike.colorsFor_eq recolors used
  have roles : ∀ role, role = edge.roleA ∨ role = edge.roleB →
      (relabel.role role = "" ↔ role = "") ∧
      colorsFor other (relabel.role role) false otherColors =
        colorsFor plan role false colors := fun role isEnd =>
    have used : role ∈ labelNames plan false := .inr (.inr ⟨edge, listed, isEnd⟩)
    ⟨alike.label_empty used, alike.colorsFor_eq recolors used⟩
  cases atA with
  | true =>
      simp only [incident, Renaming.edge, if_true, orgs _ (.inr rfl), roles _ (.inl rfl),
        roles _ (.inr rfl)]
  | false =>
      simp only [incident, Renaming.edge, if_false, Bool.false_eq_true, orgs _ (.inl rfl),
        roles _ (.inl rfl), roles _ (.inr rfl)]

end Alike

/-- The ends at an organization of an edge, the edge being its two ends. -/
def endsAt (plan : CoordinationPlan) (colors : List Nat) (org : String)
    (edge : Endpoint × Endpoint) : List String :=
  let policy : PlanOrgPolicy := ⟨edge.1.1, edge.2.1, edge.1.2, edge.2.2⟩
  (if edge.1.1 = org then [incident plan colors policy true] else []) ++
    if edge.2.1 = org then [incident plan colors policy false] else []

/-- An edge has the ends it has in ascending order. -/
theorem endsAt_ordered (colors : List Nat) (org : String) (edge : PlanOrgPolicy) :
    (endsAt plan colors org (orderedEdge edge)).Perm
      (endsAt plan colors org ((edge.orgA, edge.roleA), (edge.orgB, edge.roleB))) := by
  unfold orderedEdge
  dsimp only
  split
  · exact List.perm_append_comm
  · exact .refl _

theorem incidents_perm (colors : List Nat) (org : String) :
    (incidents plan colors org).Perm
      ((plan.allowedOrgPairs.map orderedEdge).flatMap (endsAt plan colors org)) := by
  rw [List.flatMap_map]
  exact List.Perm.flatMap_left _ fun edge _ => (endsAt_ordered colors org edge).symm

section Alike

variable {relabel : Renaming} (alike : Isomorphic relabel plan other)

include alike

theorem Isomorphic.incidents_perm {colors otherColors : List Nat}
    (recolors : Recolors relabel plan other colors otherColors) {org : String}
    (used : org ∈ labelNames plan true) :
    (incidents other otherColors (relabel.organization org)).Perm
      (incidents plan colors org) := by
  refine (AuthorizationTopology.incidents_perm otherColors _).trans ?_
  refine (alike.edges.flatMap_right _).trans ?_
  rw [List.flatMap_map, List.flatMap_map]
  refine List.Perm.flatMap_left _ fun edge listed => ?_
  refine (endsAt_ordered otherColors _ (relabel.edge edge)).trans (.of_eq ?_)
  have ends : ∀ org', org' = edge.orgA ∨ org' = edge.orgB →
      (relabel.organization org' = relabel.organization org ↔ org' = org) := fun org' isEnd =>
    have used' : org' ∈ labelNames plan true := .inr (.inr ⟨edge, listed, isEnd⟩)
    alike.label_iff used' used
  have incident := alike.incident_eq recolors listed
  simp only [endsAt, Renaming.edge, ends _ (.inl rfl), ends _ (.inr rfl)] at incident ⊢
  rw [incident true, incident false]

theorem Isomorphic.signature_eq {colors otherColors : List Nat}
    (recolors : Recolors relabel plan other colors otherColors) {participant : PlanParticipant}
    (listed : participant ∈ plan.participants) (color : Nat) :
    signature other otherColors (relabel.actor participant) color =
      signature plan colors participant color := by
  have org : participant.org ∈ labelNames plan true := .inr (.inl (List.mem_map_of_mem listed))
  have role : participant.role ∈ labelNames plan false := .inr (.inl (List.mem_map_of_mem listed))
  have incidents := sorted_of_perm (alike.incidents_perm recolors org)
  have orgEmpty : relabel.organization participant.org = "" ↔ participant.org = "" :=
    alike.label_empty org
  have roleEmpty : relabel.role participant.role = "" ↔ participant.role = "" :=
    alike.label_empty role
  have orgColors : colorsFor other (relabel.organization participant.org) true otherColors =
      colorsFor plan participant.org true colors := alike.colorsFor_eq recolors org
  have roleColors : colorsFor other (relabel.role participant.role) false otherColors =
      colorsFor plan participant.role false colors := alike.colorsFor_eq recolors role
  simp only [signature, Renaming.actor, incidents, alike.participantEffects_eq listed, orgEmpty,
    roleEmpty, orgColors, roleColors]

/-! Colours of one plan are the other's. -/

theorem Isomorphic.initial : Recolors relabel plan other (initialColors plan)
    (initialColors other) := by
  unfold Recolors initialColors colorize initialSignatures
  refine zip_ranks_perm relabel.actor _ _ alike.participants fun participant listed => ?_
  simp only [Renaming.actor, alike.participantEffects_eq listed]

theorem Isomorphic.round {colors otherColors : List Nat}
    (length : colors.length = plan.participants.length)
    (length' : otherColors.length = other.participants.length)
    (recolors : Recolors relabel plan other colors otherColors) :
    Recolors relabel plan other (refined plan colors) (refined other otherColors) := by
  have colored := zip_ranks_perm
    (fun pair : PlanParticipant × Nat => (relabel.actor pair.1, pair.2))
    (fun pair => signature plan colors pair.1 pair.2)
    (fun pair => signature other otherColors pair.1 pair.2) recolors
    fun pair present => alike.signature_eq recolors (List.of_mem_zip present).1 pair.2
  have outer := colored.map fun triple => (triple.1.1, triple.2)
  rw [List.map_map] at outer
  rw [Recolors, ← zip_over (refined other otherColors) length',
    ← zip_over (refined plan colors) length, List.map_map]
  exact outer

theorem Isomorphic.rounds (round : Nat) :
    Recolors relabel plan other ((refined plan)^[round] (initialColors plan))
      ((refined other)^[round] (initialColors other)) := by
  induction round with
  | zero => exact alike.initial
  | succ round ih =>
      rw [Function.iterate_succ_apply', Function.iterate_succ_apply']
      exact alike.round (length_rounds plan round) (length_rounds other round) ih

end Alike

/-! Settled colours. -/

theorem few_of_accepted {raw : PlanInputs} (accepted : assemblePlan raw = .ok plan) :
    plan.participants.length ≤ 10 := by
  simp only [assemblePlan, requirePlan_ok, bind_ok, pure_ok] at accepted
  obtain ⟨_, few, _, _, _, _, _, _, _, _, _, _, _, _, _, _, _, _, _, _, _, _, rfl⟩ := accepted
  exact few.trans (by decide)

theorem settled (few : plan.participants.length ≤ 10) :
    ∃ colors, refined plan colors = colors ∧
      (∀ rounds > plan.participants.length, finalColors plan rounds = some colors) ∧
      ∀ round ≥ plan.participants.length, (refined plan)^[round] (initialColors plan) = colors := by
  obtain ⟨round, within, fixed⟩ := refinement_settles few
  refine ⟨_, fixed, fun rounds enough => refineLoop_of_fixed fixed (by omega), ?_⟩
  intro later enough
  obtain ⟨more, rfl⟩ := Nat.exists_eq_add_of_le' (within.trans enough)
  rw [Function.iterate_add_apply, Function.iterate_fixed fixed]

/-- The participants of a colour. -/
def cell (plan : CoordinationPlan) (colors : List Nat) (color : Nat) : Set PlanParticipant :=
  {participant | (participant, color) ∈ plan.participants.zip colors}

theorem image_cell {relabel : Renaming} {colors otherColors : List Nat}
    (recolors : Recolors relabel plan other colors otherColors) (color : Nat) :
    relabel.actor '' cell plan colors color = cell other otherColors color := by
  ext participant
  simp only [Set.mem_image, cell, Set.mem_ofPred_eq, recolors.mem_iff, List.mem_map,
    Prod.mk.injEq, Prod.exists]
  constructor
  · rintro ⟨before, listed, rfl⟩
    exact ⟨before, color, listed, rfl, rfl⟩
  · rintro ⟨before, _, listed, rfl, rfl⟩
    exact ⟨before, listed, rfl⟩

/-- The refinement of an accepted plan's topology ends within one round more than there are
participants, on stable colours; plans alike up to names and order get the same colours, and what
maps a plan to itself maps each cell of a colour onto itself. -/
theorem authorization_refinement {raw : PlanInputs} (accepted : assemblePlan raw = .ok plan) :
    ∃ colors, refined plan colors = colors ∧
      (∀ rounds > plan.participants.length, finalColors plan rounds = some colors) ∧
      (∀ relabel other, Isomorphic relabel plan other →
        ∃ otherColors, (∀ rounds > other.participants.length,
            finalColors other rounds = some otherColors) ∧
          Recolors relabel plan other colors otherColors) ∧
      ∀ relabel, Isomorphic relabel plan plan → ∀ color,
        relabel.actor '' cell plan colors color = cell plan colors color := by
  have few := few_of_accepted accepted
  obtain ⟨colors, stable, ends, settles⟩ := settled few
  have carried : ∀ {relabel other}, Isomorphic relabel plan other → ∀ {otherColors},
      (∀ round ≥ other.participants.length,
        (refined other)^[round] (initialColors other) = otherColors) →
      Recolors relabel plan other colors otherColors := by
    intro relabel other alike otherColors settles'
    have here := alike.rounds plan.participants.length
    rwa [settles _ (Nat.le_refl _), settles' _ (Nat.le_of_eq alike.length_participants)] at here
  refine ⟨colors, stable, ends, fun relabel other alike => ?_, fun relabel alike color => ?_⟩
  · obtain ⟨otherColors, -, ends', settles'⟩ :=
      settled (alike.length_participants.trans_le few)
    exact ⟨otherColors, ends', carried alike settles'⟩
  · exact image_cell (carried alike settles) color

/-! Two traders who may both deal with one venue, and may change places. -/

def tradersInputs : PlanInputs :=
  { sampleInputs with
    participants := [⟨"buyer", "trader", "north"⟩, ⟨"seller", "trader", "south"⟩,
      ⟨"venue", "", "exchange"⟩]
    allowedOrgPairs := [⟨"north", "exchange", "trader", ""⟩, ⟨"exchange", "south", "", "trader"⟩]
    effects := sampleInputs.effects.map fun effect => { effect with participant := "venue" } }

def tradersPlan : CoordinationPlan := ((assemblePlan tradersInputs).toOption).getD default

theorem tradersPlan_accepted : assemblePlan tradersInputs = .ok tradersPlan := rfl

def swapTraders : Renaming where
  participant := Equiv.swap "buyer" "seller"
  organization := Equiv.swap "north" "south"
  role := id

theorem swapTraders_automorphism : Isomorphic swapTraders tradersPlan tradersPlan where
  participant_inj := (Equiv.swap "buyer" "seller").injective.injOn
  organization_inj := (Equiv.swap "north" "south").injective.injOn
  role_inj := Function.injective_id.injOn
  unnamed := by decide +kernel
  participants := by decide +kernel
  effects := by decide +kernel
  edges := by decide +kernel

theorem authorization_refinement_traders :
    ∃ colors, refined tradersPlan colors = colors ∧
      (∀ rounds > 3, finalColors tradersPlan rounds = some colors) ∧
      ∀ color, swapTraders.actor '' cell tradersPlan colors color =
        cell tradersPlan colors color := by
  obtain ⟨colors, stable, ends, -, onto⟩ := authorization_refinement tradersPlan_accepted
  exact ⟨colors, stable, ends, onto swapTraders swapTraders_automorphism⟩

end Neutrino.AuthorizationTopology
