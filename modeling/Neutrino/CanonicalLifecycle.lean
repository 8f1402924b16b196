import Neutrino.CoordinationEnvelope
import Neutrino.Library.Colouring

/-! The colour refinement of a plan's lifecycle graph: states and operations are coloured by
their places in the graph, round after round, until no colour changes. -/

namespace Neutrino

open Colouring

/-- A value behind its size. -/
def appendKey (key value : String) : String :=
  key ++ toString value.utf8ByteSize ++ ":" ++ value

def inputType (plan : CoordinationPlan) (name : String) : String :=
  ((plan.inputs.find? (·.name = name)).map (·.type)).getD "<unresolved>"

/-- The detail of a guard in the order of the graph: of a deadline, the type of its input. -/
def guardDetailKey (plan : CoordinationPlan) (guard : LifecycleTransitionGuardPolicy) : String :=
  if guard.kind = "deadline" ∧ guard.detail ≠ "" then inputType plan guard.detail
  else guard.detail

def transitionPayloadKey (plan : CoordinationPlan) (transition : LifecycleTransitionPolicy) :
    String :=
  let effects := transition.effects.foldl appendKey ""
  let guards := transition.guards.foldl (fun key guard =>
    appendKey (appendKey key guard.kind) (guardDetailKey plan guard)) (effects ++ "|")
  let idempotency := appendKey (guards ++ "|") transition.idempotency ++ "|"
  match transition.evidence with
  | some evidence => appendKey idempotency evidence.style ++ flagField evidence.chained
  | none => idempotency ++ "-"

def canonicalColors (signatures : List String) : List Nat := ranks signatures

/-- The operations of a lifecycle, in the order they are first named. -/
def operationNames (plan : CoordinationPlan) : List String :=
  (plan.lifecycleTransitions.map (·.name)).eraseDups

structure LifecycleColors where
  states : List Nat
  operations : List Nat
  deriving DecidableEq, Repr

section Plan

variable (plan : CoordinationPlan)

def stateColor (colors : List Nat) (state : String) : Nat :=
  colour colors (plan.lifecycleStates.idxOf state)

def operationColor (colors : List Nat) (operation : String) : Nat :=
  colour colors ((operationNames plan).idxOf operation)

def baseStateSignature (state : String) : String :=
  flagField (state = plan.lifecycleInitialState) ++ flagField (state = plan.terminal.success) ++
    flagField (state = plan.terminal.aborted) ++ flagField (state = plan.terminal.contested)

def operationEdge (states : List Nat) (transition : LifecycleTransitionPolicy) : String :=
  transitionPayloadKey plan transition ++
    "|f" ++ toString (stateColor plan states transition.from) ++
    "|t" ++ toString (stateColor plan states transition.to)

/-- The edges of an operation, each behind its size, in order. -/
def operationSignature (states : List Nat) (operation : String) : String :=
  let edges := (plan.lifecycleTransitions.filter (·.name = operation)).map
    (operationEdge plan states)
  (edges.insertionSort (· ≤ ·)).foldl appendKey ""

def operationSignatures (states : List Nat) : List String :=
  (operationNames plan).map (operationSignature plan states)

/-- The edge a transition is for a state: one as its source, one as its target. -/
def stateEdges (colors : LifecycleColors) (state : String)
    (transition : LifecycleTransitionPolicy) : List String :=
  let operation := toString (operationColor plan colors.operations transition.name)
  let payload := transitionPayloadKey plan transition
  (if transition.from = state then
    ["o" ++ operation ++ ":" ++ toString (stateColor plan colors.states transition.to) ++ ":" ++
      payload] else []) ++
  if transition.to = state then
    ["i" ++ operation ++ ":" ++ toString (stateColor plan colors.states transition.from) ++ ":" ++
      payload] else []

def stateSignature (colors : LifecycleColors) (state : String) : String :=
  let edges := plan.lifecycleTransitions.flatMap (stateEdges plan colors state)
  (edges.insertionSort (· ≤ ·)).foldl appendKey (baseStateSignature plan state)

def stateSignatures (colors : LifecycleColors) : List String :=
  plan.lifecycleStates.map (stateSignature plan colors)

def initialColors : LifecycleColors where
  states := canonicalColors (plan.lifecycleStates.map (baseStateSignature plan))
  operations := (operationNames plan).map fun _ => 0

/-- One round: the operations by their edges, then the states by theirs. -/
def refineColors (colors : LifecycleColors) : LifecycleColors :=
  let operations := canonicalColors (operationSignatures plan colors.states)
  { operations
    states := canonicalColors (stateSignatures plan { states := colors.states, operations }) }

/-- Rounds until one changes nothing, or nothing within the fuel. -/
def refineLoop : Nat → LifecycleColors → Option LifecycleColors
  | 0, _ => none
  | fuel + 1, colors =>
      let next := refineColors plan colors
      if next = colors then some colors else refineLoop fuel next

def kMaxCanonicalLifecyclePermutations : Nat := 4096

/-- The states of each colour, by colour. -/
def orderedCells (colors : List Nat) : List (List Nat) :=
  ((colors.insertionSort (· ≤ ·)).dedup).map fun used =>
    (List.range colors.length).filter fun state => colour colors state = used

/-- How many orders of tied states there are, unless they exceed the bound. -/
def tiePermutations (cells : List (List Nat)) : Except String Nat :=
  (cells.flatMap fun cell => (List.range' 2 (cell.length - 1))).foldlM (fun count factor =>
    if count > kMaxCanonicalLifecyclePermutations / factor then
      .error "lifecycle graph requires more than 4096 canonical tie permutations"
    else .ok (count * factor)) 1

/-- The cells among which the canonical order of the states is searched. -/
def canonicalLifecycleCells (fuel : Nat) : Option (Except String (List (List Nat))) :=
  if plan.lifecycleStates = [] then some (.ok [])
  else (refineLoop plan fuel (initialColors plan)).map fun colors => do
    let cells := orderedCells colors.states
    let _ ← tiePermutations cells
    return cells

end Plan

end Neutrino
