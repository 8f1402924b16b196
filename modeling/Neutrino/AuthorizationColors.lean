import Neutrino.CoordinationPlan
import Neutrino.Library.Colouring

/-! The colour refinement of a plan's authorization topology: participants are coloured by the
effects they perform and by whom they share organizations, roles and allowed edges with, round
after round, until no colour changes. -/

namespace Neutrino.AuthorizationTopology

open Colouring

/-- Numbers behind their count. -/
def encode (values : List Nat) : String :=
  values.foldl (fun out value => out ++ toString value ++ ",") (toString values.length ++ ":")

def colorize (signatures : List String) : List Nat := ranks signatures

section Plan

variable (plan : CoordinationPlan)

/-- The positions of the effects a participant performs. -/
def participantEffects (name : String) : List Nat :=
  ((plan.effects.map (·.participant)).zipIdx.filter fun (participant, _) =>
    participant ≠ "" ∧ participant = name).map (·.2)

def initialSignatures : List String :=
  plan.participants.map fun participant => encode (participantEffects plan participant.name)

/-- The colours of the participants of a label, an organization's or a role's. -/
def colorsFor (label : String) (organization : Bool) (colors : List Nat) : List Nat :=
  if label = "" then []
  else (((plan.participants.zip colors).filter fun (participant, _) =>
    (if organization then participant.org else participant.role) = label).map
      (·.2)).insertionSort (· ≤ ·)

/-- An allowed edge as one of its ends sees it. -/
def incident (colors : List Nat) (edge : PlanOrgPolicy) (atA : Bool) : String :=
  let otherOrg := if atA then edge.orgB else edge.orgA
  let ownRole := if atA then edge.roleA else edge.roleB
  let otherRole := if atA then edge.roleB else edge.roleA
  encode (colorsFor plan otherOrg true colors) ++ "/" ++
    (if ownRole = "" then "N" else encode (colorsFor plan ownRole false colors)) ++ "/" ++
    (if otherRole = "" then "N" else encode (colorsFor plan otherRole false colors))

/-- The ends of the allowed edges at an organization. -/
def incidents (colors : List Nat) (org : String) : List String :=
  plan.allowedOrgPairs.flatMap fun edge =>
    (if edge.orgA = org then [incident plan colors edge true] else []) ++
      if edge.orgB = org then [incident plan colors edge false] else []

/-- What a participant of a colour is coloured by in the next round. -/
def signature (colors : List Nat) (participant : PlanParticipant) (color : Nat) : String :=
  ((incidents plan colors participant.org).insertionSort (· ≤ ·)).foldl
    (fun signature incident => signature ++ "|I" ++ incident)
    ("C" ++ toString color ++ "|E" ++ encode (participantEffects plan participant.name) ++
      (if participant.org = "" then "|ON"
        else "|O" ++ encode (colorsFor plan participant.org true colors)) ++
      (if participant.role = "" then "|RN"
        else "|R" ++ encode (colorsFor plan participant.role false colors)))

def signatures (colors : List Nat) : List String :=
  (plan.participants.zip colors).map fun (participant, color) =>
    signature plan colors participant color

def refined (colors : List Nat) : List Nat := colorize (signatures plan colors)

def initialColors : List Nat := colorize (initialSignatures plan)

/-- Rounds until one changes nothing, or nothing when there are not so many. -/
def refineLoop : Nat → List Nat → Option (List Nat)
  | 0, _ => none
  | rounds + 1, colors =>
      let next := refined plan colors
      if next = colors then some colors else refineLoop rounds next

/-- The colours among which the canonical order of the participants is searched. -/
def finalColors (rounds : Nat) : Option (List Nat) := refineLoop plan rounds (initialColors plan)

end Plan

end Neutrino.AuthorizationTopology
