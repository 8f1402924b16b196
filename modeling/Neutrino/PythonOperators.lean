import Neutrino.SpecValidator

/-! Operators of Python on parsed documents, with the exceptions they raise. -/

namespace Neutrino.PyJson

open SpecValidator (memberOf)

/-- What a number or a bool is worth. -/
def number : PyJson → Option Rat
  | .bool value => some (if value then 1 else 0)
  | .int value => some value
  | .float value => some value
  | _ => Option.none

mutual

/-- `first == second` -/
def same : PyJson → PyJson → Bool
  | .none, .none => true
  | .str first, .str second => first = second
  | .list first, .list second => sameElements first second
  | .dict first, .dict second => sameItems first second
  | first, second => (number first).isSome && number first = number second

def sameElements : List PyJson → List PyJson → Bool
  | [], [] => true
  | first :: rest, second :: others => same first second && sameElements rest others
  | _, _ => false

def sameItems : List (String × PyJson) → List (String × PyJson) → Bool
  | [], [] => true
  | (key, first) :: rest, (key', second) :: others =>
      key = key' && same first second && sameItems rest others
  | _, _ => false

end

@[simp] theorem same_str (first second : String) :
    same (.str first) (.str second) = decide (first = second) := rfl

@[simp] theorem same_none : same .none .none = true := rfl

/-- `hash(value)` -/
def hashed : PyJson → Except String Unit
  | .list _ => .error "TypeError: unhashable type: 'list'"
  | .dict _ => .error "TypeError: unhashable type: 'dict'"
  | _ => .ok ()

/-- `value or []` -/
def orEmpty (value : PyJson) : PyJson := if truthy value then value else .list []

/-- `value in container` -/
def isIn (value container : PyJson) : Except String Bool :=
  match container with
  | .list elements => .ok (elements.any (same value))
  | .dict items => memberOf value (items.map Prod.fst)
  | .str text =>
      match value with
      | .str part => .ok (part.toList <:+: text.toList)
      | _ => .error "TypeError: 'in <string>' requires string as left operand"
  | _ => .error "TypeError: argument is not iterable"

/-- What `for element in value` runs through. -/
def iterate : PyJson → Except String (List PyJson)
  | .list elements => .ok elements
  | .dict items => .ok (items.map fun item => .str item.1)
  | .str text => .ok (text.toList.map fun c => .str c.toString)
  | _ => .error "TypeError: object is not iterable"

/-- The elements of a set, each where it comes first. -/
def distinct (elements : List PyJson) : List PyJson :=
  elements.foldl (fun kept element => if kept.any (same element) then kept else kept ++ [element]) []

/-- Two strings, or two numbers, have an order. -/
def before : PyJson → PyJson → Option Bool
  | .str first, .str second => some (first ≤ second)
  | first, second => (number first).bind fun x => (number second).map fun y => x ≤ y

/-- `sorted(elements)`: elements without an order are compared at some point. -/
def sorted (elements : List PyJson) : Except String (List PyJson) :=
  if elements.all fun first => elements.all fun second => (before first second).isSome then
    .ok (elements.insertionSort fun first second => before first second = some true)
  else if elements.length ≤ 1 then .ok elements
  else .error "TypeError: '<' not supported between instances"

end Neutrino.PyJson
