import Neutrino.JsonBuild
import Neutrino.SecurityReport
import Neutrino.Library.Permuted

/-! What a rearrangement of a spec's participants, effects and allowed pairs, and an exchange of
the two ends of a pair, can change about the security verdict. -/

namespace Neutrino.Security

open Json Permuted

/-! Verdicts. -/

/-- The leg that a finding holds against the spec. -/
def Finding.offender : Finding → Option Leg
  | .unboundLeg leg | .undeclaredParticipant leg | .boundaryUnknown leg | .roleMismatch leg _ _ _
  | .supplyUngated leg => some leg
  | _ => none

def Category.offenders (category : Category) : List Leg :=
  category.findings.filterMap Finding.offender

/-- One category with one status and the same offending legs, each as often. -/
structure Category.Alike (first second : Category) : Prop where
  category : first.category = second.category
  status : first.status = second.status
  offenders : first.offenders.Perm second.offenders

structure SameVerdict (spec other : Object) : Prop where
  categories : List.Forall₂ Category.Alike (buildCategories (projectSpec spec))
    (buildCategories (projectSpec other))
  overall : specHasSecurityViolations spec = specHasSecurityViolations other

/-! Rearranged specs. -/

def OrgPair.swap (pair : OrgPair) : OrgPair := ⟨pair.orgB, pair.orgA, pair.roleB, pair.roleA⟩

/-- The objects of the allowed pairs. -/
def pairObjects (spec : Object) : List Object :=
  objects ((spec.getObject "topology").getD []) "allowedOrgPairs"

/-- A pair as it stands or with its two ends exchanged. -/
def Turned (pair moved : Object) : Prop :=
  moved = pair ∨ orgPairFromSpec moved = (orgPairFromSpec pair).swap

/-- One spec with the participants, the effects and the allowed pairs of another in any order, and
the ends of any pair exchanged. -/
structure Rearranged (spec other : Object) : Prop where
  participants : (objects spec "participants").Perm (objects other "participants")
  effects : (objects spec "effects").Perm (objects other "effects")
  pairs : ∃ ordered, (pairObjects spec).Perm ordered ∧
    List.Forall₂ Turned ordered (pairObjects other)
  invariants : objects spec "invariants" = objects other "invariants"
  inputs : objects spec "inputs" = objects other "inputs"
  attestations : objects spec "attestations" = objects other "attestations"

/-- The same of what the pass reads. -/
structure Shuffled (view other : SpecSecurity) : Prop where
  participants : view.participants.Perm other.participants
  legs : view.legs.Perm other.legs
  pairs : ∃ ordered, view.allowedOrgPairs.Perm ordered ∧
    List.Forall₂ (fun pair moved => moved = pair ∨ moved = OrgPair.swap pair) ordered
      other.allowedOrgPairs
  attestations : view.attestations = other.attestations
  balanced : view.balanced = other.balanced
  evidenceInputs : view.evidenceInputs = other.evidenceInputs
  hasDebit : view.hasDebit = other.hasDebit
  hasCredit : view.hasCredit = other.hasCredit

theorem Rearranged.shuffled {spec other : Object} (moved : Rearranged spec other) :
    Shuffled (projectSpec spec) (projectSpec other) := by
  obtain ⟨ordered, permuted, turned⟩ := moved.pairs
  constructor
  · exact moved.participants.map _
  · exact moved.effects.map _
  · refine ⟨ordered.map orgPairFromSpec, permuted.map _, ?_⟩
    refine List.forall₂_map_left_iff.mpr (List.forall₂_map_right_iff.mpr (turned.imp ?_))
    rintro pair moved (rfl | swapped)
    · exact .inl rfl
    · exact .inr swapped
  · exact congrArg (List.map attestFromSpec) moved.attestations
  · exact congrArg (List.any · _) moved.invariants
  · exact congrArg (fun inputs => (List.filter _ inputs).length) moved.inputs
  · exact moved.effects.any_eq
  · exact moved.effects.any_eq

/-! What a shuffle keeps. -/

section Shuffle

variable {view other : SpecSecurity} (distinct : (view.participants.map Part.name).Nodup)
  (shuffled : Shuffled view other)

include distinct shuffled

theorem find_shuffled (name : String) : view.find name = other.find name :=
  find_key_perm shuffled.participants distinct name

theorem orgOf_shuffled (name : String) : view.orgOf name = other.orgOf name := by
  rw [SpecSecurity.orgOf, find_shuffled distinct shuffled, SpecSecurity.orgOf]

theorem roleOf_shuffled (name : String) : view.roleOf name = other.roleOf name := by
  rw [SpecSecurity.roleOf, find_shuffled distinct shuffled, SpecSecurity.roleOf]

theorem declared_shuffled (name : String) :
    view.isParticipantDeclared name = other.isParticipantDeclared name := by
  rw [SpecSecurity.isParticipantDeclared, find_shuffled distinct shuffled,
    SpecSecurity.isParticipantDeclared]

end Shuffle

theorem mem_namedOrgs {view : SpecSecurity} {org : String} : org ∈ view.orderedNamedOrgs ↔
    org ≠ "" ∧ ∃ part ∈ view.participants, part.org = org := by
  have kept := @FirstBy.mem_map_firstBy _ _ _ id
    ((view.participants.map Part.org).filter fun org => org ≠ "") org
  simp only [List.map_id] at kept
  rw [SpecSecurity.orderedNamedOrgs, kept, List.mem_filter, List.mem_map]
  simp [and_comm]

theorem namedOrgs_nodup (view : SpecSecurity) : view.orderedNamedOrgs.Nodup := by
  have distinct := @FirstBy.firstBy_nodup _ _ _ id
    ((view.participants.map Part.org).filter fun org => org ≠ "")
  rwa [List.map_id] at distinct

/-- A pair joins two organizations whichever end each of them stands at. -/
theorem joins_swap (pair : OrgPair) (a b : String) :
    ((pair.swap.orgA = a && pair.swap.orgB = b) || (pair.swap.orgA = b && pair.swap.orgB = a)) =
      ((pair.orgA = a && pair.orgB = b) || (pair.orgA = b && pair.orgB = a)) := by
  obtain ⟨orgA, orgB, _, _⟩ := pair
  show ((decide (orgB = a) && decide (orgA = b)) || (decide (orgB = b) && decide (orgA = a))) = _
  rw [Bool.eq_iff_iff]
  simp only [Bool.or_eq_true, Bool.and_eq_true, decide_eq_true_eq]
  tauto

section Shuffle

variable {view other : SpecSecurity} (shuffled : Shuffled view other)

include shuffled

theorem namedOrgs_shuffled : view.orderedNamedOrgs.Perm other.orderedNamedOrgs := by
  rw [List.perm_ext_iff_of_nodup (namedOrgs_nodup view) (namedOrgs_nodup other)]
  intro org
  simp only [mem_namedOrgs, shuffled.participants.mem_iff]

theorem pair_shuffled {pair : OrgPair} (listed : pair ∈ view.allowedOrgPairs) :
    ∃ moved ∈ other.allowedOrgPairs, moved = pair ∨ moved = pair.swap := by
  obtain ⟨ordered, permuted, turned⟩ := shuffled.pairs
  exact related_left turned (permuted.mem_iff.mp listed)

theorem shuffled_pair {moved : OrgPair} (listed : moved ∈ other.allowedOrgPairs) :
    ∃ pair ∈ view.allowedOrgPairs, moved = pair ∨ moved = pair.swap := by
  obtain ⟨ordered, permuted, turned⟩ := shuffled.pairs
  obtain ⟨pair, held, related⟩ := related_right turned listed
  exact ⟨pair, permuted.mem_iff.mpr held, related⟩

theorem allowed_shuffled (a b : String) : allowed view a b = allowed other a b := by
  rw [Bool.eq_iff_iff, allowed, allowed, List.any_eq_true, List.any_eq_true]
  constructor
  · rintro ⟨pair, listed, joins⟩
    obtain ⟨moved, held, rfl | rfl⟩ := pair_shuffled shuffled listed
    · exact ⟨moved, held, joins⟩
    · refine ⟨pair.swap, held, ?_⟩
      exact (joins_swap pair a b).trans joins
  · rintro ⟨moved, held, joins⟩
    obtain ⟨pair, listed, rfl | rfl⟩ := shuffled_pair shuffled held
    · exact ⟨moved, listed, joins⟩
    · refine ⟨pair, listed, ?_⟩
      exact (joins_swap pair a b).symm.trans joins

theorem valueMoving_shuffled : view.valueMoving = other.valueMoving := by
  rw [SpecSecurity.valueMoving, shuffled.hasDebit, shuffled.hasCredit, SpecSecurity.valueMoving]

theorem value_alike : (value view).Alike (value other) := by
  have same : value view = value other := by
    rw [value, value, valueMoving_shuffled shuffled, shuffled.balanced]
  rw [same]
  exact ⟨rfl, rfl, .rfl⟩

theorem trustBoundary_alike : (trustBoundary view).Alike (trustBoundary other) := by
  have owns : view.ownsLeg = other.ownsLeg := funext fun _ => shuffled.legs.any_eq
  have findings : (trustBoundary view).findings.Perm (trustBoundary other).findings := by
    simp only [trustBoundary, valueMoving_shuffled shuffled, shuffled.evidenceInputs,
      shuffled.attestations, owns]
    refine .append (.append (.append (.append (.append .rfl ?_) ?_) ?_) ?_) .rfl
    · exact (shuffled.legs.filter _).map _
    · exact shuffled.legs.filterMap _
    · split
      · exact (shuffled.participants.filter _).map _
      · exact .rfl
    · exact (shuffled.participants.filter _).map _
  refine ⟨rfl, ?_, findings.filterMap _⟩
  have noticed := @List.Perm.any_eq _ _ _ Finding.isTrustAdvisory findings
  simp only [trustBoundary] at noticed ⊢
  rw [noticed]

end Shuffle

section Shuffle

variable {view other : SpecSecurity} (distinct : (view.participants.map Part.name).Nodup)
  (shuffled : Shuffled view other)

include distinct shuffled

theorem authorization_alike : (authorization view).Alike (authorization other) := by
  have actors : refusedActor view = refusedActor other := by
    funext leg
    rw [refusedActor, declared_shuffled distinct shuffled, refusedActor]
  have refused := shuffled.legs.filterMap (refusedActor other)
  simp only [authorization, actors, valueMoving_shuffled shuffled]
  by_cases parts : view.participants ≠ []
  · rw [if_pos parts, if_pos ((perm_ne_nil shuffled.participants).mp parts)]
    by_cases bad : view.legs.filterMap (refusedActor other) ≠ []
    · rw [if_pos bad, if_pos ((perm_ne_nil refused).mp bad)]
      exact ⟨rfl, rfl, refused.filterMap _⟩
    · rw [if_neg bad, if_neg fun found => bad ((perm_ne_nil refused).mpr found)]
      refine ⟨rfl, rfl, ?_⟩
      simp [Category.offenders, Finding.offender, List.filterMap_cons, List.filterMap_map,
        Function.comp_def]
  · rw [if_neg parts, if_neg fun found => parts ((perm_ne_nil shuffled.participants).mpr found)]
    split <;> exact ⟨rfl, rfl, .rfl⟩

end Shuffle

/-! Roles. -/

/-- The leg's participant has none of the roles that the pairs require of its organization. -/
def RoleRefused (view : SpecSecurity) (leg : Leg) : Prop :=
  leg.participant ≠ "" ∧ wantedRoles view (view.orgOf leg.participant) ≠ [] ∧
    view.roleOf leg.participant ∉ wantedRoles view (view.orgOf leg.participant)

instance (view : SpecSecurity) (leg : Leg) : Decidable (RoleRefused view leg) := by
  unfold RoleRefused
  infer_instance

theorem mismatchedRole_offender (view : SpecSecurity) (leg : Leg) :
    (mismatchedRole view leg).bind Finding.offender =
      if RoleRefused view leg then some leg else none := by
  rw [mismatchedRole]
  by_cases refused : RoleRefused view leg
  · rw [if_pos refused]
    unfold RoleRefused at refused
    simp only [if_pos refused]
    rfl
  · rw [if_neg refused]
    unfold RoleRefused at refused
    simp only [if_neg refused]
    rfl

theorem mismatched_offenders (view : SpecSecurity) (legs : List Leg) :
    (legs.filterMap (mismatchedRole view)).filterMap Finding.offender =
      legs.filter fun leg => RoleRefused view leg := by
  rw [List.filterMap_filterMap, ← List.filterMap_eq_filter]
  refine List.filterMap_congr fun leg _ => ?_
  rw [mismatchedRole_offender]
  by_cases refused : RoleRefused view leg <;> simp [refused, Option.guard]

theorem mismatched_nil {view : SpecSecurity} {legs : List Leg} :
    legs.filterMap (mismatchedRole view) = [] ↔ (legs.filter fun leg => RoleRefused view leg) = [] := by
  rw [List.filterMap_eq_nil_iff, List.filter_eq_nil_iff]
  refine forall₂_congr fun leg _ => ?_
  rw [decide_eq_true_eq, mismatchedRole]
  simp only [ite_eq_right_iff, reduceCtorEq, imp_false]
  rfl

theorem mem_wantedRoles {view : SpecSecurity} {org role : String} :
    role ∈ wantedRoles view org ↔ role ≠ "" ∧
      ∃ pair ∈ view.allowedOrgPairs, requiredRole view.orderedNamedOrgs org pair = role := by
  have kept := @FirstBy.mem_map_firstBy _ _ _ id ((view.allowedOrgPairs.map
    (requiredRole view.orderedNamedOrgs org)).filter fun role => role ≠ "") role
  simp only [List.map_id] at kept
  rw [wantedRoles, kept, List.mem_filter, List.mem_map]
  simp [and_comm]

/-- A pair of an organization with itself that asks for two different roles: which of them is
required depends on the ends they stand at. -/
def Ambiguous (org : String) (pair : OrgPair) : Prop :=
  pair.orgA = org ∧ pair.orgB = org ∧ pair.roleA ≠ "" ∧ pair.roleB ≠ "" ∧ pair.roleA ≠ pair.roleB

instance (org : String) (pair : OrgPair) : Decidable (Ambiguous org pair) := by
  unfold Ambiguous
  infer_instance

theorem ambiguous_swap {org : String} {pair : OrgPair} :
    Ambiguous org pair.swap ↔ Ambiguous org pair := by
  simp only [Ambiguous, OrgPair.swap]
  constructor
  · rintro ⟨a, b, first, second, apart⟩
    exact ⟨b, a, second, first, apart.symm⟩
  · rintro ⟨a, b, first, second, apart⟩
    exact ⟨b, a, second, first, apart.symm⟩

theorem requiredRole_swap {orgs : List String} {org : String} {pair : OrgPair}
    (clear : ¬Ambiguous org pair) : requiredRole orgs org pair.swap = requiredRole orgs org pair := by
  simp only [requiredRole, OrgPair.swap]
  by_cases first : pair.orgA = org
  · by_cases second : pair.orgB = org
    · have roles : pair.roleA = "" ∨ pair.roleB = "" ∨ pair.roleA = pair.roleB := by
        by_contra none
        push Not at none
        exact clear ⟨first, second, none.1, none.2.1, none.2.2⟩
      rcases roles with none | none | same
      · simp [first, second, none]
      · simp [first, second, none]
      · simp [first, second, same]
    · simp [first, second]
  · simp [first]

theorem requiredRole_congr {orgs orgs' : List String} (same : ∀ org, org ∈ orgs ↔ org ∈ orgs')
    (org : String) (pair : OrgPair) : requiredRole orgs org pair = requiredRole orgs' org pair := by
  simp only [requiredRole, same]

/-- An ambiguous pair requires the role that stands first. -/
theorem requiredRole_ambiguous {orgs : List String} {org : String} {pair : OrgPair}
    (ambiguous : Ambiguous org pair) (present : org ∈ orgs) :
    requiredRole orgs org pair = pair.roleA := by
  obtain ⟨first, second, role, _, _⟩ := ambiguous
  rw [requiredRole, if_pos ⟨first, role, second ▸ present⟩]

/-- The pass comes to compare roles: two organizations are named and every leg's is known. -/
structure RolesChecked (view : SpecSecurity) : Prop where
  several : 2 ≤ view.orderedNamedOrgs.length
  known : ∀ leg ∈ view.legs, leg.participant ≠ "" → view.orgOf leg.participant ≠ ""

/-- Where roles are compared, a role that an ambiguous pair names for an organization, and that
one of its legs is authorized under, is required by another pair too. -/
def Settled (view : SpecSecurity) : Prop :=
  RolesChecked view → ∀ leg ∈ view.legs, leg.participant ≠ "" →
    ∀ pair ∈ view.allowedOrgPairs, Ambiguous (view.orgOf leg.participant) pair →
      (view.roleOf leg.participant = pair.roleA ∨ view.roleOf leg.participant = pair.roleB) →
        ∃ clear ∈ view.allowedOrgPairs, ¬Ambiguous (view.orgOf leg.participant) clear ∧
          requiredRole view.orderedNamedOrgs (view.orgOf leg.participant) clear =
            view.roleOf leg.participant

theorem unpermitted_iff {view : SpecSecurity} {orgs : List String} :
    unpermittedPairs view orgs = [] ↔ orgs.Pairwise fun a b => allowed view a b = true := by
  induction orgs with
  | nil => simp [unpermittedPairs]
  | cons org later ih =>
      rw [unpermittedPairs, List.append_eq_nil_iff, List.map_eq_nil_iff, List.filter_eq_nil_iff, ih,
        List.pairwise_cons]
      simp

theorem allowed_comm (view : SpecSecurity) (a b : String) : allowed view a b = allowed view b a := by
  rw [allowed, allowed]
  congr 1
  funext pair
  rw [Bool.or_comm]

theorem unpermitted_offenders (view : SpecSecurity) (orgs : List String) :
    (unpermittedPairs view orgs).filterMap Finding.offender = [] := by
  induction orgs with
  | nil => rfl
  | cons org later ih =>
      rw [unpermittedPairs, List.filterMap_append, ih, List.filterMap_map]
      simp [Finding.offender, Function.comp_def]

theorem unpermitted_shuffled {view other : SpecSecurity}
    (shuffled : Shuffled view other) : unpermittedPairs view view.orderedNamedOrgs = [] ↔
    unpermittedPairs other other.orderedNamedOrgs = [] := by
  have same : allowed view = allowed other :=
    funext fun a => funext fun b => allowed_shuffled shuffled a b
  rw [unpermitted_iff, unpermitted_iff, same]
  refine (namedOrgs_shuffled shuffled).pairwise_iff ?_
  intro a b permitted
  rwa [allowed_comm]

section Shuffle

variable {view other : SpecSecurity} (distinct : (view.participants.map Part.name).Nodup)
  (shuffled : Shuffled view other)

include distinct shuffled

theorem topology_alike (agree : RolesChecked view → ∀ leg ∈ view.legs,
    (RoleRefused view leg ↔ RoleRefused other leg)) : (topology view).Alike (topology other) := by
  have boundary : unknownBoundary view = unknownBoundary other := by
    funext leg
    rw [unknownBoundary, orgOf_shuffled distinct shuffled, unknownBoundary]
  have orgs := namedOrgs_shuffled shuffled
  have unknown := shuffled.legs.filterMap (unknownBoundary other)
  have pairs : view.allowedOrgPairs = [] ↔ other.allowedOrgPairs = [] := by
    obtain ⟨ordered, permuted, turned⟩ := shuffled.pairs
    rw [← List.length_eq_zero_iff, permuted.length_eq, turned.length_eq, List.length_eq_zero_iff]
  simp only [topology, boundary]
  by_cases none : view.orderedNamedOrgs = []
  · rw [if_pos none, if_pos ((perm_eq_nil orgs).mp none)]
    exact ⟨rfl, rfl, .rfl⟩
  rw [if_neg none, if_neg fun empty => none ((perm_eq_nil orgs).mpr empty)]
  by_cases bad : view.legs.filterMap (unknownBoundary other) ≠ []
  · rw [if_pos bad, if_pos ((perm_ne_nil unknown).mp bad)]
    exact ⟨rfl, rfl, (unknown.filterMap _)⟩
  rw [if_neg bad, if_neg fun found => bad ((perm_ne_nil unknown).mpr found), orgs.length_eq]
  by_cases single : other.orderedNamedOrgs.length < 2
  · rw [if_pos single, if_pos single]
    exact ⟨rfl, rfl, .rfl⟩
  rw [if_neg single, if_neg single]
  by_cases free : view.allowedOrgPairs = []
  · rw [if_pos free, if_pos (pairs.mp free)]
    exact ⟨rfl, rfl, .rfl⟩
  rw [if_neg free, if_neg fun empty => free (pairs.mpr empty)]
  have reached : RolesChecked view := by
    refine ⟨by rw [orgs.length_eq]; omega, fun leg listed bound unnamed => bad ?_⟩
    rw [← boundary]
    exact List.ne_nil_of_mem (List.mem_filterMap.mpr
      ⟨leg, listed, by rw [unknownBoundary, if_pos ⟨bound, unnamed⟩]⟩)
  have refused : (view.legs.filter fun leg => RoleRefused view leg).Perm
      (other.legs.filter fun leg => RoleRefused other leg) := by
    have same : (view.legs.filter fun leg => RoleRefused view leg) =
        view.legs.filter fun leg => RoleRefused other leg :=
      List.filter_congr fun leg listed => by simp only [agree reached leg listed]
    rw [same]
    exact shuffled.legs.filter _
  have mismatched : view.legs.filterMap (mismatchedRole view) = [] ↔
      other.legs.filterMap (mismatchedRole other) = [] := by
    rw [mismatched_nil, mismatched_nil]
    exact perm_eq_nil refused
  by_cases violated : unpermittedPairs view view.orderedNamedOrgs ++
      view.legs.filterMap (mismatchedRole view) ≠ []
  · have violated' : unpermittedPairs other other.orderedNamedOrgs ++
        other.legs.filterMap (mismatchedRole other) ≠ [] := by
      rw [ne_eq, List.append_eq_nil_iff] at violated ⊢
      rwa [← unpermitted_shuffled shuffled, ← mismatched]
    rw [if_pos violated, if_pos violated']
    refine ⟨rfl, rfl, ?_⟩
    simp only [Category.offenders, List.filterMap_cons, Finding.offender, List.filterMap_append,
      unpermitted_offenders, mismatched_offenders, List.nil_append]
    exact refused
  · have violated' : ¬unpermittedPairs other other.orderedNamedOrgs ++
        other.legs.filterMap (mismatchedRole other) ≠ [] := by
      rw [ne_eq, List.append_eq_nil_iff] at violated ⊢
      rwa [← unpermitted_shuffled shuffled, ← mismatched]
    rw [if_neg violated, if_neg violated']
    exact ⟨rfl, rfl, .rfl⟩

end Shuffle

/-- The role is required of the organization by a pair that is not ambiguous. -/
def ClearlyRequired (view : SpecSecurity) (org role : String) : Prop :=
  ∃ pair ∈ view.allowedOrgPairs, ¬Ambiguous org pair ∧
    requiredRole view.orderedNamedOrgs org pair = role

theorem mem_wanted_iff {view : SpecSecurity} {org role : String}
    (present : org ∈ view.orderedNamedOrgs) : role ∈ wantedRoles view org ↔ role ≠ "" ∧
      (ClearlyRequired view org role ∨
        ∃ pair ∈ view.allowedOrgPairs, Ambiguous org pair ∧ pair.roleA = role) := by
  rw [mem_wantedRoles]
  refine and_congr_right fun _ => ?_
  constructor
  · rintro ⟨pair, listed, required⟩
    by_cases ambiguous : Ambiguous org pair
    · rw [requiredRole_ambiguous ambiguous present] at required
      exact .inr ⟨pair, listed, ambiguous, required⟩
    · exact .inl ⟨pair, listed, ambiguous, required⟩
  · rintro (⟨pair, listed, _, required⟩ | ⟨pair, listed, ambiguous, required⟩)
    · exact ⟨pair, listed, required⟩
    · exact ⟨pair, listed, (requiredRole_ambiguous ambiguous present).trans required⟩

theorem wanted_nonempty {view : SpecSecurity} {org : String}
    (present : org ∈ view.orderedNamedOrgs) : wantedRoles view org ≠ [] ↔
      (∃ role ≠ "", ClearlyRequired view org role) ∨
        ∃ pair ∈ view.allowedOrgPairs, Ambiguous org pair := by
  constructor
  · intro some
    obtain ⟨role, wanted⟩ := List.exists_mem_of_ne_nil _ some
    obtain ⟨some, clear | ⟨pair, listed, ambiguous, _⟩⟩ := (mem_wanted_iff present).mp wanted
    · exact .inl ⟨role, some, clear⟩
    · exact .inr ⟨pair, listed, ambiguous⟩
  · rintro (⟨role, some, clear⟩ | ⟨pair, listed, ambiguous⟩)
    · exact List.ne_nil_of_mem ((mem_wanted_iff present).mpr ⟨some, .inl clear⟩)
    · exact List.ne_nil_of_mem ((mem_wanted_iff present).mpr
        ⟨ambiguous.2.2.1, .inr ⟨pair, listed, ambiguous, rfl⟩⟩)

section Shuffle

variable {view other : SpecSecurity} (shuffled : Shuffled view other)

include shuffled

theorem requiredRole_shuffled {org : String} {pair moved : OrgPair}
    (turned : moved = pair ∨ moved = pair.swap) (clear : ¬Ambiguous org pair) :
    ¬Ambiguous org moved ∧ requiredRole other.orderedNamedOrgs org moved =
      requiredRole view.orderedNamedOrgs org pair := by
  have orgs : ∀ org, org ∈ other.orderedNamedOrgs ↔ org ∈ view.orderedNamedOrgs :=
    fun _ => (namedOrgs_shuffled shuffled).mem_iff.symm
  rw [requiredRole_congr orgs]
  rcases turned with rfl | rfl
  · exact ⟨clear, rfl⟩
  · exact ⟨mt ambiguous_swap.mp clear, requiredRole_swap clear⟩

theorem clearlyRequired_shuffled {org role : String} :
    ClearlyRequired view org role ↔ ClearlyRequired other org role := by
  constructor
  · rintro ⟨pair, listed, clear, rfl⟩
    obtain ⟨moved, held, turned⟩ := pair_shuffled shuffled listed
    obtain ⟨clear', same⟩ := requiredRole_shuffled shuffled turned clear
    exact ⟨moved, held, clear', same⟩
  · rintro ⟨moved, held, clear, rfl⟩
    obtain ⟨pair, listed, turned⟩ := shuffled_pair shuffled held
    have clear' : ¬Ambiguous org pair := by
      rcases turned with rfl | rfl
      · exact clear
      · exact mt ambiguous_swap.mpr clear
    exact ⟨pair, listed, clear', (requiredRole_shuffled shuffled turned clear').2.symm⟩

theorem ambiguous_shuffled {org : String} : (∃ pair ∈ view.allowedOrgPairs, Ambiguous org pair) ↔
    ∃ pair ∈ other.allowedOrgPairs, Ambiguous org pair := by
  constructor
  · rintro ⟨pair, listed, ambiguous⟩
    obtain ⟨moved, held, rfl | rfl⟩ := pair_shuffled shuffled listed
    · exact ⟨moved, held, ambiguous⟩
    · exact ⟨_, held, ambiguous_swap.mpr ambiguous⟩
  · rintro ⟨moved, held, ambiguous⟩
    obtain ⟨pair, listed, rfl | rfl⟩ := shuffled_pair shuffled held
    · exact ⟨moved, listed, ambiguous⟩
    · exact ⟨pair, listed, ambiguous_swap.mp ambiguous⟩

end Shuffle

theorem orgOf_named {view : SpecSecurity} {name : String} (known : view.orgOf name ≠ "") :
    view.orgOf name ∈ view.orderedNamedOrgs := by
  rw [mem_namedOrgs]
  refine ⟨known, ?_⟩
  rw [SpecSecurity.orgOf] at known ⊢
  cases found : view.find name with
  | none => simp [found] at known
  | some part => exact ⟨part, List.mem_of_find?_eq_some found, rfl⟩

/-- Where the roles are settled, a leg is refused for its role in every rearrangement or in none. -/
theorem roleRefused_shuffled {view other : SpecSecurity}
    (distinct : (view.participants.map Part.name).Nodup) (shuffled : Shuffled view other)
    (settled : Settled view) (reached : RolesChecked view) {leg : Leg} (listed : leg ∈ view.legs) :
    RoleRefused view leg ↔ RoleRefused other leg := by
  refine and_congr_right fun bound => ?_
  rw [← orgOf_shuffled distinct shuffled, ← roleOf_shuffled distinct shuffled]
  have present := orgOf_named (reached.known leg listed bound)
  have present' := (namedOrgs_shuffled shuffled).mem_iff.mp present
  have some : wantedRoles view (view.orgOf leg.participant) ≠ [] ↔
      wantedRoles other (view.orgOf leg.participant) ≠ [] := by
    rw [wanted_nonempty present, wanted_nonempty present', ambiguous_shuffled shuffled]
    simp only [clearlyRequired_shuffled shuffled]
  have clear : ∀ pair ∈ view.allowedOrgPairs, Ambiguous (view.orgOf leg.participant) pair →
      (view.roleOf leg.participant = pair.roleA ∨ view.roleOf leg.participant = pair.roleB) →
        ClearlyRequired view (view.orgOf leg.participant) (view.roleOf leg.participant) :=
    settled reached leg listed bound
  rw [some, mem_wanted_iff present, mem_wanted_iff present', ← clearlyRequired_shuffled shuffled]
  refine and_congr_right fun _ => not_congr (and_congr_right fun _ => ?_)
  constructor
  · rintro (required | ⟨pair, held, ambiguous, role⟩)
    · exact .inl required
    · exact .inl (clear pair held ambiguous (.inl role.symm))
  · rintro (required | ⟨moved, held, ambiguous, role⟩)
    · exact .inl required
    · obtain ⟨pair, from', rfl | rfl⟩ := shuffled_pair shuffled held
      · exact .inl (clear moved from' ambiguous (.inl role.symm))
      · exact .inl (clear pair from' (ambiguous_swap.mp ambiguous) (.inr role.symm))

theorem sameVerdict_of_categories {spec other : Object}
    (alike : List.Forall₂ Category.Alike (buildCategories (projectSpec spec))
      (buildCategories (projectSpec other))) : SameVerdict spec other := by
  refine ⟨alike, ?_⟩
  rw [specHasSecurityViolations, specHasSecurityViolations]
  generalize buildCategories (projectSpec spec) = first at alike
  generalize buildCategories (projectSpec other) = second at alike
  induction alike with
  | nil => rfl
  | cons here _ ih =>
      rw [List.any_cons, List.any_cons, ih]
      simp only [here.status]

theorem sameVerdict_of_settled {spec other : Object}
    (distinct : ((projectSpec spec).participants.map Part.name).Nodup)
    (moved : Rearranged spec other) (settled : Settled (projectSpec spec)) :
    SameVerdict spec other := by
  have shuffled := moved.shuffled
  refine sameVerdict_of_categories (.cons ?_ (.cons ?_ (.cons ?_ (.cons ?_ (.cons ?_ .nil)))))
  · exact authorization_alike distinct shuffled
  · exact value_alike shuffled
  · exact topology_alike distinct shuffled fun reached leg listed =>
      roleRefused_shuffled distinct shuffled settled reached listed
  · exact trustBoundary_alike shuffled
  · exact ⟨rfl, rfl, .rfl⟩

/-! Turning pairs of a spec. -/

def pairObject (pair : OrgPair) : Object :=
  [("orgA", .string pair.orgA), ("orgB", .string pair.orgB), ("roleA", .string pair.roleA),
    ("roleB", .string pair.roleB)]

theorem orgPairFromSpec_pairObject (pair : OrgPair) : orgPairFromSpec (pairObject pair) = pair := by
  simp [orgPairFromSpec, pairObject, Object.stringOr, Object.getString, Object.get, asString]

def turn (chosen : OrgPair → Bool) (pair : Object) : Object :=
  if chosen (orgPairFromSpec pair) then pairObject (orgPairFromSpec pair).swap else pair

/-- The spec with the ends of the chosen pairs exchanged. -/
def turnPairs (chosen : OrgPair → Bool) (spec : Object) : Object :=
  spec.put "topology" (.object (((spec.getObject "topology").getD []).put "allowedOrgPairs"
    (.array ((pairObjects spec).map fun pair => .object (turn chosen pair)))))

theorem turned_turn (chosen : OrgPair → Bool) (pair : Object) : Turned pair (turn chosen pair) := by
  unfold turn
  split
  · exact .inr (orgPairFromSpec_pairObject _)
  · exact .inl rfl

theorem get_put_of_ne (object : Object) {key name : String} (value : Json) (other : key ≠ name) :
    (object.put key value).get name = object.get name := by
  rw [Object.put, Object.get_insert, if_neg other, Option.or_none, Object.get, Object.erase,
    List.find?_filter, Object.get]
  congr 2
  funext member
  by_cases here : member.1 = name
  · have apart : member.1 ≠ key := fun same => other (same.symm.trans here)
    simp [here, Ne.symm other]
  · simp [here]

theorem objects_turnPairs (chosen : OrgPair → Bool) (spec : Object) {key : String}
    (other : "topology" ≠ key) : objects (turnPairs chosen spec) key = objects spec key := by
  rw [objects, Object.getArray, turnPairs, get_put_of_ne _ _ other, objects, Object.getArray]

theorem pairObjects_turnPairs (chosen : OrgPair → Bool) (spec : Object) :
    pairObjects (turnPairs chosen spec) = (pairObjects spec).map (turn chosen) := by
  conv_lhs => rw [pairObjects, Object.getObject, turnPairs, Object.get_put]
  simp only [Option.bind_some, asObject, Option.getD_some, objects, Object.getArray,
    Object.get_put, asArray, List.filterMap_map]
  simp [Function.comp_def, asObject]

theorem turnPairs_rearranged (chosen : OrgPair → Bool) (spec : Object) :
    Rearranged spec (turnPairs chosen spec) := by
  constructor
  · rw [objects_turnPairs chosen spec (by decide)]
  · rw [objects_turnPairs chosen spec (by decide)]
  · refine ⟨pairObjects spec, .rfl, ?_⟩
    rw [pairObjects_turnPairs, List.forall₂_map_right_iff]
    exact List.forall₂_same.mpr fun pair _ => turned_turn chosen pair
  · rw [objects_turnPairs chosen spec (by decide)]
  · rw [objects_turnPairs chosen spec (by decide)]
  · rw [objects_turnPairs chosen spec (by decide)]

/-! Exactly the settled specs. -/

theorem topology_offenders {view : SpecSecurity} (reached : RolesChecked view)
    (policy : view.allowedOrgPairs ≠ []) :
    (topology view).offenders = view.legs.filter fun leg => RoleRefused view leg := by
  have several := reached.several
  have named : view.orderedNamedOrgs ≠ [] := List.ne_nil_of_length_pos (by omega)
  have known : view.legs.filterMap (unknownBoundary view) = [] := by
    refine List.filterMap_eq_nil_iff.mpr fun leg listed => ?_
    rw [unknownBoundary, if_neg fun unknown => reached.known leg listed unknown.1 unknown.2]
  simp only [topology]
  rw [if_neg named, known, if_neg (by simp), if_neg (by omega), if_neg policy]
  split
  · simp only [Category.offenders, List.filterMap_cons, Finding.offender, List.filterMap_append,
      unpermitted_offenders, mismatched_offenders, List.nil_append]
  · rename_i clean
    rw [not_not, List.append_eq_nil_iff, mismatched_nil] at clean
    rw [clean.2]
    rfl

theorem rolesChecked_shuffled {view other : SpecSecurity}
    (distinct : (view.participants.map Part.name).Nodup) (shuffled : Shuffled view other)
    (reached : RolesChecked view) : RolesChecked other := by
  constructor
  · rw [← (namedOrgs_shuffled shuffled).length_eq]
    exact reached.several
  · intro leg listed bound
    rw [← orgOf_shuffled distinct shuffled]
    exact reached.known leg (shuffled.legs.mem_iff.mpr listed) bound

theorem projected_turned (chosen : OrgPair → Bool) (spec : Object) {moved : OrgPair} :
    moved ∈ (projectSpec (turnPairs chosen spec)).allowedOrgPairs ↔
      ∃ pair ∈ (projectSpec spec).allowedOrgPairs,
        (if chosen pair then pair.swap else pair) = moved := by
  have pairs : (projectSpec (turnPairs chosen spec)).allowedOrgPairs =
      (projectSpec spec).allowedOrgPairs.map fun pair => if chosen pair then pair.swap else pair := by
    show (pairObjects (turnPairs chosen spec)).map orgPairFromSpec =
      ((pairObjects spec).map orgPairFromSpec).map _
    rw [pairObjects_turnPairs, List.map_map, List.map_map]
    refine List.map_congr_left fun pair _ => ?_
    simp only [Function.comp_apply, turn]
    split
    · exact orgPairFromSpec_pairObject _
    · rfl
  rw [pairs, List.mem_map]

theorem settled_of_sameVerdict {spec : Object}
    (distinct : ((projectSpec spec).participants.map Part.name).Nodup)
    (same : ∀ other, Rearranged spec other → SameVerdict spec other) :
    Settled (projectSpec spec) := by
  intro reached leg listed bound pair held ambiguous named
  by_contra unclear
  generalize org_eq : (projectSpec spec).orgOf leg.participant = org at ambiguous unclear
  generalize role_eq : (projectSpec spec).roleOf leg.participant = role at named unclear
  have present : org ∈ (projectSpec spec).orderedNamedOrgs :=
    org_eq ▸ orgOf_named (reached.known leg listed bound)
  -- Both turns of the ambiguous pairs: the leg's role stands first in them, or it never does.
  let towards := turnPairs (fun pair => Ambiguous org pair ∧ pair.roleB = role) spec
  let away := turnPairs (fun pair => Ambiguous org pair ∧ pair.roleA = role) spec
  have movedTowards : Rearranged spec towards := turnPairs_rearranged _ spec
  have movedAway : Rearranged spec away := turnPairs_rearranged _ spec
  have offenders : ∀ other, Rearranged spec other →
      ((topology (projectSpec spec)).offenders.Perm
        ((projectSpec other).legs.filter fun leg => RoleRefused (projectSpec other) leg)) := by
    intro other moved
    have reached' := rolesChecked_shuffled distinct moved.shuffled reached
    obtain ⟨turned, held', _⟩ := pair_shuffled moved.shuffled held
    rw [← topology_offenders reached' (List.ne_nil_of_mem held')]
    have categories := (same other moved).categories
    cases categories with
    | cons _ rest =>
        cases rest with
        | cons _ rest =>
            cases rest with
            | cons alike _ => exact alike.offenders
  have refused_iff : ∀ other, Rearranged spec other → (RoleRefused (projectSpec other) leg ↔
      ¬(role ≠ "" ∧ ∃ pair ∈ (projectSpec other).allowedOrgPairs,
        Ambiguous org pair ∧ pair.roleA = role)) := by
    intro other moved
    have shuffled := moved.shuffled
    have present' := (namedOrgs_shuffled shuffled).mem_iff.mp present
    rw [RoleRefused, ← orgOf_shuffled distinct shuffled, ← roleOf_shuffled distinct shuffled, org_eq,
      role_eq, wanted_nonempty present', mem_wanted_iff present',
      ← clearlyRequired_shuffled shuffled, ← ambiguous_shuffled shuffled]
    have clear : ¬ClearlyRequired (projectSpec spec) org role := unclear
    have some : ∃ pair ∈ (projectSpec spec).allowedOrgPairs, Ambiguous org pair :=
      ⟨pair, held, ambiguous⟩
    simp only [bound, clear, some, false_or, or_true, true_and, ne_eq, not_false_eq_true]
  have accepted : ¬RoleRefused (projectSpec towards) leg := by
    rw [refused_iff towards movedTowards, not_not]
    refine ⟨?_, ?_⟩
    · rcases named with first | second
      · exact first ▸ ambiguous.2.2.1
      · exact second ▸ ambiguous.2.2.2.1
    · rcases named with first | second
      · refine ⟨pair, (projected_turned _ spec).mpr ⟨pair, held, ?_⟩, ambiguous, first.symm⟩
        rw [if_neg]
        simp only [decide_eq_true_eq, not_and]
        intro _ second
        exact ambiguous.2.2.2.2 (first.symm.trans second.symm)
      · refine ⟨pair.swap, (projected_turned _ spec).mpr ⟨pair, held, ?_⟩,
          ambiguous_swap.mpr ambiguous, second.symm⟩
        rw [if_pos]
        exact decide_eq_true ⟨ambiguous, second.symm⟩
  have refused : RoleRefused (projectSpec away) leg := by
    rw [refused_iff away movedAway]
    rintro ⟨_, moved, held', ambiguous', first⟩
    obtain ⟨origin, _, turned⟩ := (projected_turned _ spec).mp held'
    by_cases chosen : Ambiguous org origin ∧ origin.roleA = role
    · rw [if_pos (decide_eq_true chosen)] at turned
      subst turned
      exact chosen.1.2.2.2.2 (chosen.2.trans first.symm)
    · rw [if_neg (by simpa using chosen)] at turned
      subst turned
      exact chosen ⟨ambiguous', first⟩
  have listed' := movedAway.shuffled.legs.mem_iff.mp listed
  have inAway := (offenders away movedAway).mem_iff.mpr
    (List.mem_filter.mpr ⟨listed', decide_eq_true refused⟩)
  have inTowards := (offenders towards movedTowards).mem_iff.mp inAway
  exact accepted (of_decide_eq_true (List.mem_filter.mp inTowards).2)

/-! One more allowed pair. -/

/-- One spec with another's participants and effects and one more allowed pair, without roles. -/
structure PairAdded (spec other : Object) : Prop where
  participants : objects other "participants" = objects spec "participants"
  effects : objects other "effects" = objects spec "effects"
  pairs : ∃ before after pair, pairObjects spec = before ++ after ∧
    pairObjects other = before ++ pair :: after ∧
      (orgPairFromSpec pair).roleA = "" ∧ (orgPairFromSpec pair).roleB = ""

theorem topology_added {spec other : Object} (added : PairAdded spec other)
    (passing : (topology (projectSpec spec)).status = .pass) :
    (topology (projectSpec other)).status = .pass := by
  obtain ⟨before, after, pair, pairs, pairs', roleA, roleB⟩ := added.pairs
  have participants : (projectSpec other).participants = (projectSpec spec).participants :=
    congrArg (List.map partFromSpec) added.participants
  have legs : (projectSpec other).legs = (projectSpec spec).legs :=
    congrArg (List.map legFromSpec) added.effects
  have allowed_pairs : (projectSpec spec).allowedOrgPairs =
      (before ++ after).map orgPairFromSpec := congrArg (List.map orgPairFromSpec) pairs
  have allowed_pairs' : (projectSpec other).allowedOrgPairs =
      (before ++ pair :: after).map orgPairFromSpec := congrArg (List.map orgPairFromSpec) pairs'
  generalize projectSpec spec = view at *
  generalize projectSpec other = grown at *
  have orgs : grown.orderedNamedOrgs = view.orderedNamedOrgs := by
    rw [SpecSecurity.orderedNamedOrgs, participants, SpecSecurity.orderedNamedOrgs]
  have orgOf : grown.orgOf = view.orgOf := by
    funext name
    rw [SpecSecurity.orgOf, SpecSecurity.find, participants]
    rfl
  have roleOf : grown.roleOf = view.roleOf := by
    funext name
    rw [SpecSecurity.roleOf, SpecSecurity.find, participants]
    rfl
  have wanted : wantedRoles grown = wantedRoles view := by
    funext org
    have none : requiredRole view.orderedNamedOrgs org (orgPairFromSpec pair) = "" := by
      simp [requiredRole, roleA, roleB]
    simp [wantedRoles, allowed_pairs, allowed_pairs', orgs, none]
  have boundary : unknownBoundary grown = unknownBoundary view := by
    funext leg
    simp only [unknownBoundary, orgOf]
  have mismatched : mismatchedRole grown = mismatchedRole view := by
    funext leg
    simp only [mismatchedRole, orgOf, roleOf, wanted]
  have permitted : unpermittedPairs view view.orderedNamedOrgs = [] →
      unpermittedPairs grown view.orderedNamedOrgs = [] := by
    rw [unpermitted_iff, unpermitted_iff]
    refine List.Pairwise.imp fun {a b} allows => ?_
    rw [allowed, List.any_eq_true] at allows ⊢
    obtain ⟨found, listed, joins⟩ := allows
    refine ⟨found, ?_, joins⟩
    rw [allowed_pairs, List.map_append, List.mem_append] at listed
    rw [allowed_pairs', List.map_append, List.mem_append, List.map_cons]
    exact listed.imp_right (List.mem_cons_of_mem _)
  have policy : grown.allowedOrgPairs ≠ [] := by simp [allowed_pairs']
  simp only [topology, orgs, legs, boundary, mismatched] at passing ⊢
  by_cases none : view.orderedNamedOrgs = []
  · rw [if_pos none]
  rw [if_neg none] at passing ⊢
  by_cases unknown : view.legs.filterMap (unknownBoundary view) ≠ []
  · rw [if_pos unknown] at passing
    cases passing
  rw [if_neg unknown] at passing ⊢
  by_cases single : view.orderedNamedOrgs.length < 2
  · rw [if_pos single]
  rw [if_neg single] at passing ⊢
  rw [if_neg policy]
  by_cases free : view.allowedOrgPairs = []
  · rw [if_pos free] at passing
    cases passing
  rw [if_neg free] at passing
  by_cases refused : unpermittedPairs view view.orderedNamedOrgs ++
      view.legs.filterMap (mismatchedRole view) ≠ []
  · rw [if_pos refused] at passing
    cases passing
  · rw [not_not, List.append_eq_nil_iff] at refused
    rw [permitted refused.1, refused.2, if_neg (by simp)]

/-- The verdict on a spec survives every rearrangement exactly where its roles are settled, and an
allowed pair without roles turns no passing topology into a violation. -/
theorem security_verdict_exact (spec : Object)
    (distinct : ((projectSpec spec).participants.map Part.name).Nodup) :
    ((∀ other, Rearranged spec other → SameVerdict spec other) ↔ Settled (projectSpec spec)) ∧
    ∀ other, PairAdded spec other → (topology (projectSpec spec)).status = .pass →
      (topology (projectSpec other)).status ≠ .violation := by
  refine ⟨⟨settled_of_sameVerdict distinct, fun settled other moved =>
    sameVerdict_of_settled distinct moved settled⟩, ?_⟩
  intro other added passing
  rw [topology_added added passing]
  decide

/-! A pair of an organization with itself. -/

def tradeSpec (roleA roleB : String) : Object :=
  [("effects", .array [.object [("kind", .string "debit"), ("ledger", .string "cash"),
      ("name", .string "pay"), ("participant", .string "ann")]]),
    ("invariants", .array [.object [("kind", .string "balanced")]]),
    ("participants", .array [
      .object [("name", .string "ann"), ("org", .string "north"), ("role", .string "buyer")],
      .object [("name", .string "bob"), ("org", .string "south"), ("role", .string "carrier")]]),
    ("topology", .object [("allowedOrgPairs", .array [
      .object [("orgA", .string "north"), ("orgB", .string "south")],
      .object [("orgA", .string "north"), ("orgB", .string "north"), ("roleA", .string roleA),
        ("roleB", .string roleB)]])])]

theorem security_verdict_exact_trade :
    ((projectSpec (tradeSpec "buyer" "")).participants.map Part.name).Nodup ∧
    ((∀ other, Rearranged (tradeSpec "buyer" "") other → SameVerdict (tradeSpec "buyer" "") other) ↔
      Settled (projectSpec (tradeSpec "buyer" ""))) :=
  ⟨by decide, (security_verdict_exact (tradeSpec "buyer" "") (by decide)).1⟩

/-- Exchanging the ends of the one pair turns an accepted spec into one with a violation. -/
theorem exchanged_ends_refused :
    Rearranged (tradeSpec "buyer" "seller") (tradeSpec "seller" "buyer") ∧
      specHasSecurityViolations (tradeSpec "buyer" "seller") = false ∧
      specHasSecurityViolations (tradeSpec "seller" "buyer") = true ∧
      ¬SameVerdict (tradeSpec "buyer" "seller") (tradeSpec "seller" "buyer") := by
  have accepted : specHasSecurityViolations (tradeSpec "buyer" "seller") = false := by decide
  have refused : specHasSecurityViolations (tradeSpec "seller" "buyer") = true := by decide
  refine ⟨?_, accepted, refused, fun same => ?_⟩
  · constructor
    · exact .rfl
    · exact .rfl
    · refine ⟨pairObjects (tradeSpec "buyer" "seller"), .rfl, .cons (.inl rfl) (.cons (.inr ?_) .nil)⟩
      decide
    · rfl
    · rfl
    · rfl
  · have overall := same.overall
    rw [accepted, refused] at overall
    cases overall

end Neutrino.Security
