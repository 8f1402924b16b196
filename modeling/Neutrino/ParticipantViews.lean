import Neutrino.SecurityReport
import Neutrino.Library.Checked
import Neutrino.Library.Reach

/-! The participant views rendered from a capability spec: what each participant is shown of it. -/

namespace Neutrino.Views

open Json Checked
open Security (OrgPair)

/-! The document of a view. -/

structure RequiredInput where
  name : String
  type : String
  specPath : String
  line : Int
  deriving DecidableEq, Repr

/-- An empty role is none. -/
structure Counterparty where
  org : String
  role : String
  deriving DecidableEq, Repr

structure Binding where
  runtimes : List String
  minAssurance : String
  authorizedBinder : String
  deriving DecidableEq, Repr

structure Obligation where
  leg : String
  kind : String
  ledger : String
  specPath : String
  line : Int
  deriving DecidableEq, Repr

structure View where
  procedure : String
  version : String
  capabilityHash : String
  name : String
  role : String
  org : String
  slotId : String
  visibleOperations : List String
  requiredInputs : List RequiredInput
  permittedCounterparties : List Counterparty
  binding : Option Binding
  evidenceObligations : List Obligation
  schemaVersion : Int
  deriving DecidableEq, Repr

/-! Reading the spec. -/

def obj (value : Option Json) (what : String) : Except String Object :=
  match value.bind asObject with
  | some actual => .ok actual
  | none => .error ("views-from-spec: missing/invalid " ++ what)

def arrOf (object : Object) (key : String) : Except String (List Json) :=
  match object.getArray key with
  | some elements => .ok elements
  | none => .error ("views-from-spec: missing array " ++ key)

def objects (elements : List Json) (what : String) : Except String (List Object) :=
  collect (fun element => obj (some element) what) elements

/-- The name that an operand refers to; empty for a literal. -/
def refName (effect : Object) (field : String) : Except String String := do
  let operand ← obj (effect.get field) field
  return if operand.getString "kind" = some "ref" then operand.stringOr "value" else ""

mutual

/-- Every variable of an expression, in the order of its parts. -/
def collectAstVars (value : Json) : List String :=
  match value with
  | .object members => collectNodeVars members
  | _ => []
termination_by sizeOf value
decreasing_by simp

def collectNodeVars (node : Object) : List String :=
  if node.getString "kind" = some "var" then [node.stringOr "name"]
  else
    (match _lhs : node.get "lhs" with
      | some lhs => collectAstVars lhs
      | none => []) ++
    (match _rhs : node.get "rhs" with
      | some rhs => collectAstVars rhs
      | none => []) ++
    (match _args : node.getArray "args" with
      | some args => collectAllAstVars args
      | none => [])
termination_by sizeOf node
decreasing_by
  · exact Object.sizeOf_get _lhs
  · exact Object.sizeOf_get _rhs
  · exact Object.sizeOf_getArray _args

def collectAllAstVars (values : List Json) : List String :=
  match values with
  | [] => []
  | value :: rest => collectAstVars value ++ collectAllAstVars rest
termination_by sizeOf values

end

/-- The dependencies of a compute: the last entry of its name counts. -/
def depsOf (computes : List (String × List String)) (name : String) : List String :=
  ((computes.reverse.find? fun compute => compute.1 = name).map Prod.snd).getD []

/-- An input leads nowhere, a compute to its dependencies. -/
def leadsTo (inputNames : List String) (computes : List (String × List String)) (name : String) :
    List String :=
  if name ∈ inputNames then [] else depsOf computes name

def reachableInputs (inputNames : List String) (computes : List (String × List String))
    (seeds : List String) : List String :=
  (Reach.search (leadsTo inputNames computes)
    (seeds.length + Reach.unexplored (leadsTo inputNames computes) (computes.map Prod.fst).dedup [])
    seeds.reverse []).filter (· ∈ inputNames)

structure SourceEntry where
  specPath : String
  line : Option Int64

def sourceEntry (entry : Object) : SourceEntry where
  specPath := entry.stringOr "specPath"
  line := (entry.getObject "source").map fun source => (source.getInteger "line").getD 0

/-- The line of a path, zero where the source map has none; the last entry counts. -/
def sourceFor (sourceMap : List SourceEntry) (specPath : String) : Int :=
  ((sourceMap.reverse.find? fun entry => entry.specPath = specPath ∧ entry.line.isSome).bind
    fun entry => entry.line.map int32OfInt64).getD 0

/-- The other side of a pair that names an organization. -/
def counterparty (org : String) (pair : OrgPair) : Option Counterparty :=
  if pair.orgA = org then some ⟨pair.orgB, pair.roleB⟩
  else if pair.orgB = org then some ⟨pair.orgA, pair.roleA⟩
  else none

def permittedCounterparties (org : String) (pairs : List OrgPair) : List Counterparty :=
  if org = "" then [] else pairs.filterMap (counterparty org)

/-- What the views read once for all participants. -/
structure SpecViews where
  procedure : String
  version : String
  capabilityHash : String
  schemaVersion : Int
  visibleOperations : List String
  sourceMap : List SourceEntry
  inputs : List Object
  computes : List (String × List String)
  effects : List Json
  pairs : Option (List Json)

def computeDeps (compute : Object) : String × List String :=
  (compute.stringOr "name",
    ((compute.getArray "deps").getD []).map fun dep => dep.asString.getD "")

def specViews (spec : Object) : Except String SpecViews := do
  let identity ← obj (spec.get "identity") "identity"
  let lifecycle ← obj (spec.get "lifecycle") "lifecycle"
  let transitions ← arrOf lifecycle "transitions" >>= fun elements => objects elements "transition"
  let sourceMap ← objects ((spec.getArray "sourceMap").getD []) "sourceMap entry"
  let inputs ← arrOf spec "inputs" >>= fun elements => objects elements "input"
  let computes ← arrOf spec "computes" >>= fun elements => objects elements "compute"
  let effects ← arrOf spec "effects"
  return {
    procedure := spec.stringOr "procedure"
    version := spec.stringOr "specVersion"
    capabilityHash := identity.stringOr "capabilityHash"
    schemaVersion := int32OfInt64 ((spec.getInteger "schemaVersion").getD 1)
    visibleOperations := FirstBy.firstBy id (transitions.map fun t => t.stringOr "name")
    sourceMap := sourceMap.map sourceEntry
    inputs
    computes := computes.map computeDeps
    effects
    pairs := (spec.getObject "topology").bind fun topology => topology.getArray "allowedOrgPairs" }

/-- The names that one leg reads: its operands, then the variables of its guard. -/
def legRefs (effect : Object) : Except String (List String) := do
  let party ← refName effect "party"
  let amount ← refName effect "amount"
  let currency ← refName effect "currency"
  let key ← refName effect "idempotencyKey"
  let guardVars ←
    match effect.get "when" with
    | none => .ok []
    | some guarded => (obj (some guarded) "when").map fun guarded =>
        ((guarded.get "ast").map collectAstVars).getD []
  return [party, amount, currency, key] ++ guardVars

structure ViewLeg where
  index : Nat
  effect : Object
  refs : List String

/-- An effect with its place, if it is a leg of the participant. -/
def ownLeg (name : String) (element : Json × Nat) : Except String (Option ViewLeg) := do
  let effect ← obj (some element.1) "effect"
  if (effect.getString "participant").getD "" = name then
    let refs ← legRefs effect
    return some ⟨element.2, effect, refs⟩
  else return none

def inputPath (index : Nat) : String := "inputs[" ++ toString index ++ "]"

def effectPath (index : Nat) : String := "effects[" ++ toString index ++ "]"

def obligation (sourceMap : List SourceEntry) (leg : ViewLeg) : Obligation where
  leg := leg.effect.stringOr "name"
  kind := leg.effect.stringOr "kind"
  ledger := leg.effect.stringOr "ledger"
  specPath := effectPath leg.index
  line := sourceFor sourceMap (effectPath leg.index)

def requiredInputs (views : SpecViews) (needed : List String) : List RequiredInput :=
  (views.inputs.zipIdx.filter fun input => input.1.stringOr "name" ∈ needed).map fun input =>
    { name := input.1.stringOr "name"
      type := input.1.stringOr "type"
      specPath := inputPath input.2
      line := sourceFor views.sourceMap (inputPath input.2) }

def binding (participant : Object) (org : String) : Option Binding :=
  if (participant.getString "binding").getD "" = "to_be_bound" then
    some { runtimes := ((participant.getArray "bindRuntimes").getD []).map fun r => r.asString.getD ""
           minAssurance := participant.stringOr "bindMinAssurance"
           authorizedBinder := org }
  else none

/-- The policy is read for a participant with an organization only. -/
def policyOf (views : SpecViews) (org : String) : Except String (List OrgPair) :=
  if org = "" then .ok []
  else (objects (views.pairs.getD []) "allowedOrgPair").map (·.map Security.orgPairFromSpec)

def participantView (views : SpecViews) (participant : Object) : Except String View := do
  let name := participant.stringOr "name"
  let org := participant.stringOr "org"
  let found ← collect (ownLeg name) views.effects.zipIdx
  let legs := found.reduceOption
  let usedRefs := FirstBy.firstBy id ((legs.flatMap ViewLeg.refs).filter fun ref => ref ≠ "")
  let needed := reachableInputs (views.inputs.map fun input => input.stringOr "name")
    views.computes usedRefs
  let pairs ← policyOf views org
  return {
    procedure := views.procedure
    version := views.version
    capabilityHash := views.capabilityHash
    name
    role := participant.stringOr "role"
    org
    slotId := "coordinate." ++ views.procedure ++ "#" ++ name
    visibleOperations := views.visibleOperations
    requiredInputs := requiredInputs views needed
    permittedCounterparties := permittedCounterparties org pairs
    binding := binding participant org
    evidenceObligations := legs.map (obligation views.sourceMap)
    schemaVersion := views.schemaVersion }

/-- The views of all participants, in their order. -/
def generateParticipantViewsFromSpec (spec : Object) : Except String (List View) := do
  let views ← specViews spec
  let participants ← arrOf spec "participants"
  collect (fun participant =>
    obj (some participant) "participant" >>= participantView views) participants

end Neutrino.Views
