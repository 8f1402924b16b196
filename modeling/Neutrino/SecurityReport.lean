import Neutrino.Attestation
import Neutrino.Json
import Neutrino.Library.FirstBy

/-! The security pass over a capability spec: what it reads of the spec, its five categories and
what each of them finds. -/

namespace Neutrino.Security

open Json

/-! What the pass reads. -/

structure Part where
  name : String
  org : String
  role : String
  binding : String
  bindMinAssurance : String
  deriving DecidableEq, Repr

def Part.isFlexible (part : Part) : Bool := part.binding = "to_be_bound"

structure Leg where
  kind : String
  name : String
  participant : String
  guard : String
  ledger : String
  deriving DecidableEq, Repr

structure OrgPair where
  orgA : String
  orgB : String
  roleA : String
  roleB : String
  deriving DecidableEq, Repr

structure Attest where
  input : String
  observerRef : String
  assurance : String
  independence : String
  quorum : Int
  deriving DecidableEq, Repr

structure SpecSecurity where
  name : String
  version : String
  participants : List Part
  legs : List Leg
  allowedOrgPairs : List OrgPair
  attestations : List Attest
  balanced : Bool
  evidenceInputs : Nat
  hasDebit : Bool
  hasCredit : Bool
  deriving DecidableEq, Repr

def partFromSpec (object : Object) : Part where
  name := object.stringOr "name"
  org := object.stringOr "org"
  role := object.stringOr "role"
  binding := object.stringOr "binding"
  bindMinAssurance := object.stringOr "bindMinAssurance"

def legFromSpec (object : Object) : Leg where
  kind := object.stringOr "kind"
  name := object.stringOr "name"
  participant := object.stringOr "participant"
  guard := ((object.getObject "when").getD []).stringOr "expr"
  ledger := object.stringOr "ledger"

def orgPairFromSpec (object : Object) : OrgPair where
  orgA := object.stringOr "orgA"
  orgB := object.stringOr "orgB"
  roleA := object.stringOr "roleA"
  roleB := object.stringOr "roleB"

def attestFromSpec (object : Object) : Attest :=
  let observerSet := (object.getObject "observerSet").getD []
  { input := object.stringOr "input"
    observerRef := observerSet.stringOr "ref"
    assurance := observerSet.stringOr "assurance"
    independence := observerSet.stringOr "independence"
    quorum := int32OfInt64 ((((object.getObject "quorum").getD []).getInteger "threshold").getD 0) }

/-- The objects of an array member; none where there is no array. -/
def objects (object : Object) (key : String) : List Object :=
  ((object.getArray key).getD []).filterMap asObject

def projectSpec (spec : Object) : SpecSecurity where
  name := spec.stringOr "procedure"
  version := spec.stringOr "specVersion"
  participants := (objects spec "participants").map partFromSpec
  legs := (objects spec "effects").map legFromSpec
  allowedOrgPairs := (objects ((spec.getObject "topology").getD []) "allowedOrgPairs").map
    orgPairFromSpec
  attestations := (objects spec "attestations").map attestFromSpec
  balanced := (objects spec "invariants").any fun invariant => invariant.stringOr "kind" = "balanced"
  evidenceInputs := ((objects spec "inputs").filter fun input => input.stringOr "type" = "evidence").length
  hasDebit := (objects spec "effects").any fun effect => effect.stringOr "kind" = "debit"
  hasCredit := (objects spec "effects").any fun effect => effect.stringOr "kind" = "credit"

namespace SpecSecurity

variable (view : SpecSecurity)

def valueMoving : Bool := view.hasDebit || view.hasCredit

def find (name : String) : Option Part := view.participants.find? fun part => part.name = name

def orgOf (name : String) : String := ((view.find name).map Part.org).getD ""

def roleOf (name : String) : String := ((view.find name).map Part.role).getD ""

def isParticipantDeclared (name : String) : Bool := (view.find name).isSome

def ownsLeg (name : String) : Bool := view.legs.any fun leg => leg.participant = name

/-- The different organizations that are named, in the order of the participants. -/
def orderedNamedOrgs : List String :=
  FirstBy.firstBy id ((view.participants.map Part.org).filter fun org => org ≠ "")

end SpecSecurity

/-! Findings. -/

inductive Status
  | pass
  | advisory
  | violation
  | notApplicable
  deriving DecidableEq, Repr

def Status.text : Status → String
  | .pass => "pass"
  | .advisory => "advisory"
  | .violation => "violation"
  | .notApplicable => "n/a"

inductive Finding
  | unboundLeg (leg : Leg)
  | undeclaredParticipant (leg : Leg)
  | participantsDeclared (count : Nat)
  | legAuthorized (leg : Leg) (role : String)
  | actorsUnspecified
  | conservationAsserted
  | conservationUnasserted
  | trivialComposition
  | boundaryUnknown (leg : Leg)
  | crossesBoundaries (count : Nat)
  | pairNotPermitted (org other : String)
  | roleMismatch (leg : Leg) (org role : String) (wanted : List String)
  | coordinationPermitted (count : Nat)
  | replaySafe
  | evidenceDeclared (count : Nat)
  | guardedLeg (leg : Leg)
  | supplyGated (leg : Leg)
  | supplyUngated (leg : Leg)
  | governance (part : Part)
  | bindingAssurance (part : Part)
  | oracleCrossing (attest : Attest)
  | lowAssurance (attest : Attest)
  | notIndependent (attest : Attest)
  | noStateMachine
  deriving DecidableEq, Repr

structure Category where
  category : String
  status : Status
  findings : List Finding
  deriving DecidableEq, Repr

/-! Categories. -/

section Categories

variable (view : SpecSecurity)

def refusedActor (leg : Leg) : Option Finding :=
  if leg.participant = "" then some (.unboundLeg leg)
  else if view.isParticipantDeclared leg.participant then none
  else some (.undeclaredParticipant leg)

def authorization : Category :=
  if view.participants ≠ [] then
    let refused := view.legs.filterMap (refusedActor view)
    if refused ≠ [] then ⟨"authorization", .violation, refused⟩
    else ⟨"authorization", .pass, .participantsDeclared view.participants.length ::
      view.legs.map fun leg => .legAuthorized leg (view.roleOf leg.participant)⟩
  else if view.valueMoving then ⟨"authorization", .advisory, [.actorsUnspecified]⟩
  else ⟨"authorization", .notApplicable, []⟩

def value : Category :=
  if view.valueMoving then
    if view.balanced then ⟨"value", .pass, [.conservationAsserted]⟩
    else ⟨"value", .violation, [.conservationUnasserted]⟩
  else ⟨"value", .notApplicable, []⟩

def unknownBoundary (leg : Leg) : Option Finding :=
  if leg.participant ≠ "" ∧ view.orgOf leg.participant = "" then some (.boundaryUnknown leg)
  else none

/-- A policy allows its two organizations in either order. -/
def allowed (a b : String) : Bool :=
  view.allowedOrgPairs.any fun p => (p.orgA = a && p.orgB = b) || (p.orgA = b && p.orgB = a)

/-- The coordinating pairs, of one organization with a later one, that no policy allows. -/
def unpermittedPairs : List String → List Finding
  | [] => []
  | org :: later =>
      (later.filter fun other => !allowed view org other).map (.pairNotPermitted org) ++
        unpermittedPairs later

/-- The role a pair requires of an organization; empty for none. -/
def requiredRole (orgs : List String) (org : String) (pair : OrgPair) : String :=
  if pair.orgA = org ∧ pair.roleA ≠ "" ∧ pair.orgB ∈ orgs then pair.roleA
  else if pair.orgB = org ∧ pair.roleB ≠ "" ∧ pair.orgA ∈ orgs then pair.roleB
  else ""

def wantedRoles (org : String) : List String :=
  FirstBy.firstBy id ((view.allowedOrgPairs.map (requiredRole view.orderedNamedOrgs org)).filter
    fun role => role ≠ "")

def mismatchedRole (leg : Leg) : Option Finding :=
  let org := view.orgOf leg.participant
  let role := view.roleOf leg.participant
  let wanted := wantedRoles view org
  if leg.participant ≠ "" ∧ wanted ≠ [] ∧ role ∉ wanted then
    some (.roleMismatch leg org role wanted)
  else none

def topology : Category :=
  let orgs := view.orderedNamedOrgs
  let unknown := view.legs.filterMap (unknownBoundary view)
  if orgs = [] then ⟨"topology", .pass, [.trivialComposition]⟩
  else if unknown ≠ [] then ⟨"topology", .violation, .trivialComposition :: unknown⟩
  else if orgs.length < 2 then ⟨"topology", .pass, [.trivialComposition]⟩
  else if view.allowedOrgPairs = [] then
    ⟨"topology", .advisory, [.trivialComposition, .crossesBoundaries orgs.length]⟩
  else
    let refused := unpermittedPairs view orgs ++ view.legs.filterMap (mismatchedRole view)
    if refused ≠ [] then ⟨"topology", .violation, .trivialComposition :: refused⟩
    else ⟨"topology", .pass,
      [.trivialComposition, .coordinationPermitted view.allowedOrgPairs.length]⟩

def tierRank (tier : String) : Nat :=
  if tier = "A1" then 1 else if tier = "A2" then 2 else if tier = "A3" then 3
  else if tier = "A4" then 4 else 0

def supplySurface (leg : Leg) : Option Finding :=
  if leg.ledger = "token.supply" then
    if leg.guard ≠ "" then some (.supplyGated leg) else some (.supplyUngated leg)
  else none

def oracleFindings (attest : Attest) : List Finding :=
  [.oracleCrossing attest] ++
    (if attest.assurance = "" ∨ tierRank attest.assurance < 2 then [.lowAssurance attest] else []) ++
    (if attest.independence ≠ "independent" then [.notIndependent attest] else [])

/-- What makes a trust boundary one to take notice of. -/
def Finding.isTrustAdvisory : Finding → Bool
  | .supplyUngated _ | .bindingAssurance _ | .lowAssurance _ | .notIndependent _ => true
  | _ => false

def trustBoundary : Category :=
  let findings : List Finding :=
    (if view.valueMoving then [.replaySafe] else []) ++
    [.evidenceDeclared view.evidenceInputs] ++
    (view.legs.filter fun leg => leg.guard ≠ "").map .guardedLeg ++
    view.legs.filterMap supplySurface ++
    (if view.valueMoving then
      (view.participants.filter fun part => !view.ownsLeg part.name).map .governance else []) ++
    (view.participants.filter fun part =>
      part.isFlexible ∧ 1 < tierRank part.bindMinAssurance).map .bindingAssurance ++
    view.attestations.flatMap oracleFindings
  ⟨"trustBoundary", if findings.any Finding.isTrustAdvisory then .advisory else .pass, findings⟩

def state : Category := ⟨"state", .notApplicable, [.noStateMachine]⟩

def buildCategories : List Category :=
  [authorization view, value view, topology view, trustBoundary view, state]

end Categories

def specHasSecurityViolations (spec : Object) : Bool :=
  (buildCategories (projectSpec spec)).any fun category => category.status = .violation

end Neutrino.Security
