import Neutrino.ParticipantViews
import Neutrino.SecurityVerdict

/-! Whom the views of two participants admit, beside the pairs that the policy allows and the
security pass over the same spec. -/

namespace Neutrino.Views

open Json Checked
open Security (OrgPair projectSpec topology SpecSecurity requiredRole wantedRoles
  mem_wantedRoles mem_namedOrgs)

/-- An entry of one view admits the participant of another. -/
def Admits (view other : View) : Prop :=
  ∃ entry ∈ view.permittedCounterparties, entry.org = other.org ∧
    (entry.role ≠ "" → entry.role = other.role)

/-- A pair names two organizations, in either orientation, and the role it names for the side of
the second is met. -/
def FitsSide (pair : OrgPair) (org : String) (other : View) : Prop :=
  pair.orgA = org ∧ pair.orgB = other.org ∧ (pair.roleB ≠ "" → pair.roleB = other.role) ∨
    pair.orgB = org ∧ pair.orgA = other.org ∧ (pair.roleA ≠ "" → pair.roleA = other.role)

/-- A pair names the organizations of two views, in either orientation, and the roles it names for
both sides are met. -/
def FitsBoth (pair : OrgPair) (view other : View) : Prop :=
  (pair.orgA = view.org ∧ pair.orgB = other.org ∧ (pair.roleA ≠ "" → pair.roleA = view.role) ∧
      (pair.roleB ≠ "" → pair.roleB = other.role)) ∨
    (pair.orgA = other.org ∧ pair.orgB = view.org ∧ (pair.roleA ≠ "" → pair.roleA = other.role) ∧
      (pair.roleB ≠ "" → pair.roleB = view.role))

/-! What a view is generated from. -/

/-- A view shows a participant of the spec, and its counterparties come from the allowed pairs. -/
structure Shows (spec : Object) (view : View) : Prop where
  participant : ∃ part ∈ (projectSpec spec).participants,
    part.name = view.name ∧ part.org = view.org ∧ part.role = view.role
  counterparties : view.permittedCounterparties =
    permittedCounterparties view.org (projectSpec spec).allowedOrgPairs
  legs : view.evidenceObligations ≠ [] →
    ∃ leg ∈ (projectSpec spec).legs, leg.participant = view.name

theorem obj_ok {value : Option Json} {what : String} {members : Object} :
    obj value what = .ok members ↔ value.bind asObject = some members := by
  unfold obj
  cases value.bind asObject <;> simp

/-- An array of objects is read as a whole. -/
theorem objects_ok {elements : List Json} {what : String} {members : List Object}
    (read : objects elements what = .ok members) : elements.filterMap asObject = members := by
  have each := collect_ok.mp read
  induction each with
  | nil => rfl
  | @cons element first rest more here _ ih =>
      have is : asObject element = some first := by simpa using obj_ok.mp here
      rw [List.filterMap_cons_some is]
      congr 1
      exact ih (collect_ok.mpr (by assumption))

theorem arrOf_ok {object : Object} {key : String} {elements : List Json} :
    arrOf object key = .ok elements ↔ object.getArray key = some elements := by
  unfold arrOf
  split <;> simp_all

section Generated

variable {spec : Object} {views : SpecViews}

theorem specViews_ok (read : specViews spec = .ok views) :
    spec.getArray "effects" = some views.effects ∧
      views.pairs = (spec.getObject "topology").bind fun topology =>
        topology.getArray "allowedOrgPairs" := by
  unfold specViews at read
  simp only [bind_ok, pure_ok] at read
  obtain ⟨_, -, _, -, _, -, _, -, _, -, _, -, effects, found, rfl⟩ := read
  exact ⟨arrOf_ok.mp found, rfl⟩

theorem policyOf_ok (read : specViews spec = .ok views) {org : String} (named : org ≠ "")
    {pairs : List OrgPair} (listed : policyOf views org = .ok pairs) :
    pairs = (projectSpec spec).allowedOrgPairs := by
  rw [policyOf, if_neg named] at listed
  cases found : objects (views.pairs.getD []) "allowedOrgPair" with
  | error failure => simp [found, Except.map] at listed
  | ok members =>
      obtain rfl : members.map Security.orgPairFromSpec = pairs := by
        simpa [found, Except.map] using listed
      have same := objects_ok found
      rw [(specViews_ok read).2] at same
      show _ = (Security.objects ((spec.getObject "topology").getD []) "allowedOrgPairs").map _
      rw [← same, Security.objects]
      cases spec.getObject "topology" with
      | none => simp [Object.getArray, Object.get]
      | some topology => rfl

/-- A leg of a participant is an effect of the spec that names it. -/
theorem ownLeg_listed (read : specViews spec = .ok views) {name : String}
    {found : List (Option ViewLeg)} (legs : collect (ownLeg name) views.effects.zipIdx = .ok found)
    {leg : ViewLeg} (listed : leg ∈ found.reduceOption) :
    ∃ effect ∈ (projectSpec spec).legs, effect.participant = name := by
  rw [List.reduceOption_mem_iff] at listed
  obtain ⟨element, member, here⟩ := collect_mem_result legs listed
  simp only [ownLeg, bind_ok] at here
  obtain ⟨effect, isEffect, here⟩ := here
  have known := obj_ok.mp isEffect
  split at here
  · rename_i own
    have elements := (specViews_ok read).1
    refine ⟨Security.legFromSpec effect, List.mem_map_of_mem ?_, ?_⟩
    · rw [Security.objects, elements]
      exact List.mem_filterMap.mpr ⟨element.1, (List.mem_zipIdx' member).2 ▸ List.getElem_mem _, known⟩
    · exact own
  · simp at here

end Generated

theorem participantView_shows {spec : Object} {views : SpecViews} {participant : Object}
    {view : View} (read : specViews spec = .ok views)
    (listed : participant ∈ Security.objects spec "participants")
    (shown : participantView views participant = .ok view) : Shows spec view := by
  unfold participantView at shown
  simp only [bind_ok, pure_ok] at shown
  obtain ⟨found, legs, pairs, pairsRead, rfl⟩ := shown
  constructor
  · exact ⟨Security.partFromSpec participant, List.mem_map_of_mem listed, rfl, rfl, rfl⟩
  · dsimp only
    by_cases org : participant.stringOr "org" = ""
    · simp [permittedCounterparties, org]
    · rw [policyOf_ok read org pairsRead]
  · intro some
    dsimp only at some ⊢
    obtain ⟨first, member⟩ := List.exists_mem_of_ne_nil _ some
    obtain ⟨leg, legMember, -⟩ := List.mem_map.mp member
    exact ownLeg_listed read legs legMember

theorem generated_shows {spec : Object} {all : List View}
    (generated : generateParticipantViewsFromSpec spec = .ok all) : ∀ view ∈ all, Shows spec view := by
  intro view listed
  simp only [generateParticipantViewsFromSpec, bind_ok] at generated
  obtain ⟨views, read, participants, array, each⟩ := generated
  obtain ⟨element, member, here⟩ := collect_mem_result each listed
  obtain ⟨participant, isObject, shown⟩ := bind_ok.mp here
  refine participantView_shows read ?_ shown
  rw [Security.objects, arrOf_ok.mp array]
  exact List.mem_filterMap.mpr ⟨element, member, obj_ok.mp isObject⟩

/-! Whom a view admits. -/

section Admission

variable {spec : Object} {view other : View}

theorem admits_iff (shows_ : Shows spec view) (named : view.org ≠ "") (apart : view.org ≠ other.org) :
    Admits view other ↔
      ∃ pair ∈ (projectSpec spec).allowedOrgPairs, FitsSide pair view.org other := by
  rw [Admits, shows_.counterparties, permittedCounterparties, if_neg named]
  simp only [List.mem_filterMap]
  constructor
  · rintro ⟨entry, ⟨pair, listed, side⟩, org, role⟩
    refine ⟨pair, listed, ?_⟩
    unfold counterparty at side
    split_ifs at side with first second
    · obtain rfl := Option.some.inj side
      exact .inl ⟨first, org, role⟩
    · obtain rfl := Option.some.inj side
      exact .inr ⟨second, org, role⟩
  · rintro ⟨pair, listed, ⟨first, second, role⟩ | ⟨second, first, role⟩⟩
    · exact ⟨⟨pair.orgB, pair.roleB⟩, ⟨pair, listed, by rw [counterparty, if_pos first]⟩, second, role⟩
    · have mine : pair.orgA ≠ view.org := fun same => apart (same.symm.trans first)
      exact ⟨⟨pair.orgA, pair.roleA⟩,
        ⟨pair, listed, by rw [counterparty, if_neg mine, if_pos second]⟩, first, role⟩

theorem fitsBoth_sides {pair : OrgPair} (fits : FitsBoth pair view other) :
    FitsSide pair view.org other ∧ FitsSide pair other.org view := by
  rcases fits with ⟨orgA, orgB, roleA, roleB⟩ | ⟨orgA, orgB, roleA, roleB⟩
  · exact ⟨.inl ⟨orgA, orgB, roleB⟩, .inr ⟨orgB, orgA, roleA⟩⟩
  · exact ⟨.inr ⟨orgB, orgA, roleA⟩, .inl ⟨orgA, orgB, roleB⟩⟩

end Admission

/-! What a passing topology leaves of the policy. -/

section Passing

variable {view : SpecSecurity} (passing : (topology view).status = .pass)
  (policy : view.allowedOrgPairs ≠ [])
include passing policy

theorem passing_findings (several : 2 ≤ view.orderedNamedOrgs.length) :
    Security.unpermittedPairs view view.orderedNamedOrgs = [] ∧
      view.legs.filterMap (Security.mismatchedRole view) = [] := by
  have named : view.orderedNamedOrgs ≠ [] := List.ne_nil_of_length_pos (by omega)
  simp only [topology] at passing
  rw [if_neg named] at passing
  by_cases unknown : view.legs.filterMap (Security.unknownBoundary view) ≠ []
  · rw [if_pos unknown] at passing
    cases passing
  rw [if_neg unknown, if_neg (by omega), if_neg policy] at passing
  by_cases refused : Security.unpermittedPairs view view.orderedNamedOrgs ++
      view.legs.filterMap (Security.mismatchedRole view) ≠ []
  · rw [if_pos refused] at passing
    cases passing
  · exact List.append_eq_nil_iff.mp (not_not.mp refused)

/-- Every two organizations that participants name are joined by an allowed pair. -/
theorem passing_allowed {org other : String} (named : org ∈ view.orderedNamedOrgs)
    (named' : other ∈ view.orderedNamedOrgs) (apart : org ≠ other) :
    ∃ pair ∈ view.allowedOrgPairs,
      pair.orgA = org ∧ pair.orgB = other ∨ pair.orgA = other ∧ pair.orgB = org := by
  have several : 2 ≤ view.orderedNamedOrgs.length := by
    by_contra few
    obtain ⟨place, bound, rfl⟩ := List.mem_iff_getElem.mp named
    obtain ⟨place', bound', rfl⟩ := List.mem_iff_getElem.mp named'
    have same : place = place' := by omega
    exact apart (by simp only [same])
  have joined := Security.unpermitted_iff.mp (passing_findings passing policy several).1
  have symmetric : Std.Symm fun a b => Security.allowed view a b = true :=
    ⟨fun a b joins => by rwa [Security.allowed_comm]⟩
  have here : Security.allowed view org other = true := joined.forall named named' apart
  rw [Security.allowed, List.any_eq_true] at here
  obtain ⟨pair, listed, joins⟩ := here
  exact ⟨pair, listed, by simpa using joins⟩

/-- The participant of a bound leg has a role that is wanted of its organization, if any is. -/
theorem passing_role (several : 2 ≤ view.orderedNamedOrgs.length) {leg : Security.Leg}
    (listed : leg ∈ view.legs) (bound : leg.participant ≠ "")
    (wanted : Security.wantedRoles view (view.orgOf leg.participant) ≠ []) :
    view.roleOf leg.participant ∈ Security.wantedRoles view (view.orgOf leg.participant) := by
  have clean := (passing_findings passing policy several).2
  have none := List.filterMap_eq_nil_iff.mp clean leg listed
  by_contra missing
  rw [Security.mismatchedRole, if_pos ⟨bound, wanted, missing⟩] at none
  cases none

end Passing

/-- The two organizations are the only ones that participants name, and no allowed pair joins one of
them to itself. -/
structure OnlyTwo (spec : Object) (org other : String) : Prop where
  named : ∀ part ∈ (projectSpec spec).participants, part.org = "" ∨ part.org = org ∨ part.org = other
  joined : ∀ pair ∈ (projectSpec spec).allowedOrgPairs,
    ¬(pair.orgA = org ∧ pair.orgB = org) ∧ ¬(pair.orgA = other ∧ pair.orgB = other)

section Two

variable {spec : Object} {view other : View}

theorem shows_org (shown : Shows spec view) (named : view.org ≠ "") :
    view.org ∈ (projectSpec spec).orderedNamedOrgs := by
  obtain ⟨part, listed, -, org, -⟩ := shown.participant
  exact Security.mem_namedOrgs.mpr ⟨named, part, listed, org⟩

theorem shows_find (distinct : ((projectSpec spec).participants.map Security.Part.name).Nodup)
    (shown : Shows spec view) : (projectSpec spec).orgOf view.name = view.org ∧
      (projectSpec spec).roleOf view.name = view.role := by
  obtain ⟨part, listed, name, org, role⟩ := shown.participant
  have found : (projectSpec spec).find view.name = some part := by
    rw [SpecSecurity.find]
    cases first : (projectSpec spec).participants.find? fun part => part.name = view.name with
    | none => simpa [name] using List.find?_eq_none.mp first part listed
    | some part' =>
        have name' : part'.name = view.name := by simpa using List.find?_some first
        rw [List.inj_on_of_nodup_map distinct (List.mem_of_find?_eq_some first) listed
          (name'.trans name.symm)]
  rw [SpecSecurity.orgOf, SpecSecurity.roleOf, found]
  exact ⟨org, role⟩

/-- Where only two organizations coordinate, the role that a leg passed with is one that a pair of
the two names for its side, or none of them names any. -/
theorem passing_admits (distinct : ((projectSpec spec).participants.map Security.Part.name).Nodup)
    (passing : (topology (projectSpec spec)).status = .pass)
    (policy : (projectSpec spec).allowedOrgPairs ≠ []) (shown : Shows spec view)
    (shown' : Shows spec other) (named : view.org ≠ "") (named' : other.org ≠ "")
    (apart : view.org ≠ other.org) (legs : view.evidenceObligations ≠ []) (name : view.name ≠ "")
    (two : OnlyTwo spec view.org other.org) : Admits other view := by
  rw [admits_iff shown' named' apart.symm]
  by_contra none
  push Not at none
  have here := shows_org shown named
  have there := shows_org shown' named'
  obtain ⟨org, role⟩ := shows_find distinct shown
  obtain ⟨leg, listed, bound⟩ := shown.legs legs
  obtain ⟨pair, held, joins⟩ := passing_allowed passing policy here there apart
  have asks : ∃ asked ≠ "", requiredRole (projectSpec spec).orderedNamedOrgs view.org pair = asked := by
    rcases joins with ⟨first, second⟩ | ⟨first, second⟩
    · have some : pair.roleA ≠ "" := fun empty =>
        none pair held (.inr ⟨second, first, fun some => absurd empty some⟩)
      exact ⟨pair.roleA, some, by rw [requiredRole, if_pos ⟨first, some, second ▸ there⟩]⟩
    · have some : pair.roleB ≠ "" := fun empty =>
        none pair held (.inl ⟨first, second, fun some => absurd empty some⟩)
      have mine : pair.orgA ≠ view.org := fun same => apart (same.symm.trans first)
      exact ⟨pair.roleB, some, by
        rw [requiredRole, if_neg fun all => mine all.1, if_pos ⟨second, some, first ▸ there⟩]⟩
  obtain ⟨asked, some, required⟩ := asks
  have several : 2 ≤ (projectSpec spec).orderedNamedOrgs.length := by
    by_contra few
    obtain ⟨place, bound, first⟩ := List.mem_iff_getElem.mp here
    obtain ⟨place', bound', second⟩ := List.mem_iff_getElem.mp there
    have same : place = place' := by omega
    subst same
    exact apart (first.symm.trans second)
  have wanted : wantedRoles (projectSpec spec) view.org ≠ [] :=
    List.ne_nil_of_mem (mem_wantedRoles.mpr ⟨some, pair, held, required⟩)
  have passed := passing_role passing policy several listed (bound ▸ name) (by rw [bound, org]; exact wanted)
  rw [bound, org, role, mem_wantedRoles] at passed
  obtain ⟨filled, pair', held', required'⟩ := passed
  have two_named {name : String} (known : name ∈ (projectSpec spec).orderedNamedOrgs) :
      name = view.org ∨ name = other.org := by
    obtain ⟨given, part, member, rfl⟩ := mem_namedOrgs.mp known
    exact (two.named part member).resolve_left given
  unfold requiredRole at required'
  split_ifs at required' with first second
  · have far : pair'.orgB = other.org :=
      (two_named first.2.2).resolve_left fun self => (two.joined pair' held').1 ⟨first.1, self⟩
    exact none pair' held' (.inr ⟨far, first.1, fun _ => required'⟩)
  · have far : pair'.orgA = other.org :=
      (two_named second.2.2).resolve_left fun self => (two.joined pair' held').1 ⟨self, second.1⟩
    exact none pair' held' (.inl ⟨far, second.1, fun _ => required'⟩)
  · exact filled required'.symm

theorem passing_entry (passing : (topology (projectSpec spec)).status = .pass)
    (policy : (projectSpec spec).allowedOrgPairs ≠ []) (shown : Shows spec view)
    (shown' : Shows spec other) (named : view.org ≠ "") (named' : other.org ≠ "")
    (apart : view.org ≠ other.org) :
    ∃ entry ∈ view.permittedCounterparties, entry.org = other.org := by
  obtain ⟨pair, held, joins⟩ := passing_allowed passing policy (shows_org shown named)
    (shows_org shown' named') apart
  rw [shown.counterparties, permittedCounterparties, if_neg named]
  simp only [List.mem_filterMap]
  rcases joins with ⟨first, second⟩ | ⟨first, second⟩
  · exact ⟨⟨pair.orgB, pair.roleB⟩, ⟨pair, held, by rw [counterparty, if_pos first]⟩, second⟩
  · have mine : pair.orgA ≠ view.org := fun same => apart (same.symm.trans first)
    exact ⟨⟨pair.orgA, pair.roleA⟩,
      ⟨pair, held, by rw [counterparty, if_neg mine, if_pos second]⟩, first⟩

end Two

/-- A view admits a participant of another organization by the roles that the pairs name for the
other side alone, and a passing topology leaves every two organizations an entry for each other. -/
theorem counterparties_exact (spec : Object) (all : List View)
    (generated : generateParticipantViewsFromSpec spec = .ok all) (view other : View)
    (listed : view ∈ all) (listed' : other ∈ all) (named : view.org ≠ "") (named' : other.org ≠ "")
    (apart : view.org ≠ other.org) :
    (Admits view other ↔
      ∃ pair ∈ (projectSpec spec).allowedOrgPairs, FitsSide pair view.org other) ∧
    ((∃ pair ∈ (projectSpec spec).allowedOrgPairs, FitsBoth pair view other) →
      Admits view other ∧ Admits other view) ∧
    ((topology (projectSpec spec)).status = .pass → (projectSpec spec).allowedOrgPairs ≠ [] →
      (∃ entry ∈ view.permittedCounterparties, entry.org = other.org) ∧
      (∃ entry ∈ other.permittedCounterparties, entry.org = view.org) ∧
      (((projectSpec spec).participants.map Security.Part.name).Nodup →
        view.evidenceObligations ≠ [] → other.evidenceObligations ≠ [] →
        view.name ≠ "" → other.name ≠ "" → OnlyTwo spec view.org other.org →
        Admits view other ∧ Admits other view)) := by
  have shown := generated_shows generated view listed
  have shown' := generated_shows generated other listed'
  refine ⟨admits_iff shown named apart, ?_, ?_⟩
  · rintro ⟨pair, held, fits⟩
    obtain ⟨here, there⟩ := fitsBoth_sides fits
    exact ⟨(admits_iff shown named apart).mpr ⟨pair, held, here⟩,
      (admits_iff shown' named' apart.symm).mpr ⟨pair, held, there⟩⟩
  · intro passing policy
    refine ⟨passing_entry passing policy shown shown' named named' apart,
      passing_entry passing policy shown' shown named' named apart.symm, ?_⟩
    intro distinct legs legs' name name' two
    have two' : OnlyTwo spec other.org view.org :=
      ⟨fun part member => (two.named part member).imp_right Or.symm,
        fun pair member => (two.joined pair member).symm⟩
    exact ⟨passing_admits distinct passing policy shown' shown named' named apart.symm legs' name' two',
      passing_admits distinct passing policy shown shown' named named' apart legs name two⟩

instance (view other : View) : Decidable (Admits view other) :=
  inferInstanceAs (Decidable (∃ entry ∈ view.permittedCounterparties, entry.org = other.org ∧
    (entry.role ≠ "" → entry.role = other.role)))

instance (pair : OrgPair) (view other : View) : Decidable (FitsBoth pair view other) := by
  unfold FitsBoth
  infer_instance

/-! Two or three organizations that trade. -/

def operand (kind value : String) : Json :=
  .object [("kind", .string kind), ("value", .string value)]

def movedLeg (kind name participant : String) : Json :=
  .object [("amount", operand "int" "5"), ("currency", operand "string" "EUR"),
    ("idempotencyKey", operand "string" name), ("kind", .string kind), ("ledger", .string "cash"),
    ("name", .string name), ("participant", .string participant), ("party", operand "string" "p")]

def tradingParty (name org role : String) : Json :=
  .object [("name", .string name), ("org", .string org), ("role", .string role)]

def orgPair (orgA orgB roleA : String) : Json :=
  .object [("orgA", .string orgA), ("orgB", .string orgB), ("roleA", .string roleA)]

def tradingSpec (parties pairs : List Json) : Object :=
  [("computes", .array []),
    ("effects", .array [movedLeg "debit" "pay" "ann", movedLeg "credit" "receive" "bob"]),
    ("identity", .object [("capabilityHash", .string "c0")]), ("inputs", .array []),
    ("lifecycle", .object [("transitions", .array [.object [("name", .string "settle")]])]),
    ("participants", .array parties), ("procedure", .string "trade"), ("specVersion", .string "1"),
    ("topology", .object [("allowedOrgPairs", .array pairs)])]

def tradingView (index : Nat) (name org role leg kind : String) (others : List Counterparty) : View :=
  { procedure := "trade", version := "1", capabilityHash := "c0", name, role, org
    slotId := "coordinate.trade#" ++ name, visibleOperations := ["settle"], requiredInputs := []
    permittedCounterparties := others, binding := none
    evidenceObligations := [⟨leg, kind, "cash", effectPath index, 0⟩], schemaVersion := 1 }

def pairedSpec : Object :=
  tradingSpec [tradingParty "ann" "north" "buyer", tradingParty "bob" "south" "seller"]
    [orgPair "north" "south" "buyer"]

def buyerView : View := tradingView 0 "ann" "north" "buyer" "pay" "debit" [⟨"south", ""⟩]

def sellerView (role : String) (others : List Counterparty) : View :=
  tradingView 1 "bob" "south" role "receive" "credit" others

theorem counterparties_exact_paired :
    generateParticipantViewsFromSpec pairedSpec =
        .ok [buyerView, sellerView "seller" [⟨"north", "buyer"⟩]] ∧
      Admits buyerView (sellerView "seller" [⟨"north", "buyer"⟩]) ∧
      Admits (sellerView "seller" [⟨"north", "buyer"⟩]) buyerView := by
  have generated : generateParticipantViewsFromSpec pairedSpec =
      .ok [buyerView, sellerView "seller" [⟨"north", "buyer"⟩]] := by rfl
  have exact_ := counterparties_exact pairedSpec _ generated buyerView _ (List.mem_cons_self ..)
    (List.mem_cons_of_mem _ (List.mem_cons_self ..)) (by decide) (by decide) (by decide)
  refine ⟨generated, (exact_.2.2 (by decide) (by decide)).2.2 (by decide) (by decide) (by decide)
    (by decide) (by decide) ⟨by decide, by decide⟩⟩

/-- The buyer's role is one that its other pair asks for, so the topology passes; the seller asks it
to be an auditor. -/
def auditedSpec : Object :=
  tradingSpec [tradingParty "ann" "north" "buyer", tradingParty "bob" "south" "seller",
      tradingParty "cas" "west" "carrier"]
    [orgPair "north" "south" "auditor", orgPair "north" "west" "buyer", orgPair "south" "west" ""]

theorem admission_one_sided :
    ∃ buyer seller carrier : View,
      generateParticipantViewsFromSpec auditedSpec = .ok [buyer, seller, carrier] ∧
      (topology (projectSpec auditedSpec)).status = .pass ∧
      (projectSpec auditedSpec).allowedOrgPairs ≠ [] ∧
      buyer.evidenceObligations ≠ [] ∧ seller.evidenceObligations ≠ [] ∧
      buyer.name ≠ seller.name ∧ buyer.org = "north" ∧ seller.org = "south" ∧
      Admits buyer seller ∧ ¬Admits seller buyer ∧
      ¬∃ pair ∈ (projectSpec auditedSpec).allowedOrgPairs, FitsBoth pair buyer seller := by
  refine ⟨{ buyerView with permittedCounterparties := [⟨"south", ""⟩, ⟨"west", ""⟩] },
    sellerView "seller" [⟨"north", "auditor"⟩, ⟨"west", ""⟩],
    { tradingView 2 "cas" "west" "carrier" "" "" [⟨"north", "buyer"⟩, ⟨"south", ""⟩] with
      evidenceObligations := [] }, by rfl, by decide, by decide, by decide, by decide, by decide,
    by decide, by decide, by decide, by decide, by decide⟩

end Neutrino.Views
