import Mathlib

/-! JSON values as the compiler's JSON library holds them after parsing, with the typed
accessors a spec reader uses. -/

namespace Neutrino

/-- A number is held as a signed or unsigned machine integer when it fits one, else as a
double, here by its exact value. -/
inductive Json.Number
  | integer (value : Int64)
  | unsigned (value : UInt64)
  | double (value : Rat)
  deriving DecidableEq

inductive Json
  | null
  | boolean (value : Bool)
  | number (value : Json.Number)
  | string (value : String)
  | array (elements : List Json)
  | object (members : List (String × Json))

namespace Json

abbrev Object := List (String × Json)

def Number.asInteger : Number → Option Int64
  | .integer value => some value
  | .unsigned value =>
      if value.toNat < 2 ^ 63 then some (Int64.ofNat value.toNat) else none
  | .double value =>
      if value.den = 1 ∧ -(2 ^ 63) ≤ value.num ∧ value.num < 2 ^ 63 then
        some (Int64.ofInt value.num)
      else none

def Number.asUnsigned : Number → Option UInt64
  | .integer value => if 0 ≤ value then some value.toUInt64 else none
  | .unsigned value => some value
  | .double _ => none

def asObject : Json → Option Object
  | .object members => some members
  | _ => none

def asArray : Json → Option (List Json)
  | .array elements => some elements
  | _ => none

def asString : Json → Option String
  | .string value => some value
  | _ => none

def asBoolean : Json → Option Bool
  | .boolean value => some value
  | _ => none

def asInteger : Json → Option Int64
  | .number value => value.asInteger
  | _ => none

def asUnsigned : Json → Option UInt64
  | .number value => value.asUnsigned
  | _ => none

def isNull : Json → Bool
  | .null => true
  | _ => false

namespace Object

def get (object : Object) (key : String) : Option Json :=
  (object.find? fun member => member.1 == key).map (·.2)

def getString (object : Object) (key : String) : Option String :=
  (object.get key).bind asString

def getInteger (object : Object) (key : String) : Option Int64 :=
  (object.get key).bind asInteger

def getBoolean (object : Object) (key : String) : Option Bool :=
  (object.get key).bind asBoolean

def getObject (object : Object) (key : String) : Option Object :=
  (object.get key).bind asObject

def getArray (object : Object) (key : String) : Option (List Json) :=
  (object.get key).bind asArray

/-- The reader's `getString(key).value_or("")`. -/
def stringOr (object : Object) (key : String) : String :=
  (object.getString key).getD ""

def erase (object : Object) (key : String) : Object :=
  object.filter fun member => member.1 != key

/-- A present member is kept; a new one takes its place in the order of the keys. -/
def insert (object : Object) (key : String) (value : Json) : Object :=
  if object.any fun member => member.1 == key then object
  else object.takeWhile (fun member => member.1 < key) ++
    (key, value) :: object.dropWhile (fun member => member.1 < key)

theorem sizeOf_get {object : Object} {key : String} {value : Json}
    (found : object.get key = some value) : sizeOf value < sizeOf object := by
  simp only [get, Option.map_eq_some_iff] at found
  obtain ⟨member, member_found, rfl⟩ := found
  have smaller := List.sizeOf_lt_of_mem (List.mem_of_find?_eq_some member_found)
  have inner : sizeOf member.2 < sizeOf member := by
    cases member
    simp +arith
  omega

theorem sizeOf_getArray {object : Object} {key : String} {elements : List Json}
    (found : object.getArray key = some elements) : sizeOf elements < sizeOf object := by
  simp only [getArray, Option.bind_eq_some_iff] at found
  obtain ⟨value, got, isArray⟩ := found
  have smaller := sizeOf_get got
  cases value with
  | array values =>
      simp only [asArray, Option.some.injEq] at isArray
      subst isArray
      simp only [array.sizeOf_spec] at smaller
      omega
  | _ => simp [asArray] at isArray

end Object

end Json

end Neutrino
