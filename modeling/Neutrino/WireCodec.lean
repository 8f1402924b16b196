import Neutrino.Json
import Neutrino.Library.Checked

/-! The typed wire form of values: each type's encoding with the reading that inverts it. -/

namespace Neutrino.Projection

open Checked

/-- A wire form and a reading that names the path of what it rejects. -/
class Wire (α : Type) where
  encodeValue : α → Json
  decodeValue : String → Json → Except String α
  decode_encode : ∀ (value : α) (path : String), decodeValue path (encodeValue value) = .ok value

export Wire (encodeValue decodeValue)

def fieldPath (path field : String) : String := path ++ "." ++ field

def indexPath (path : String) (index : Nat) : String := path ++ "[" ++ toString index ++ "]"

instance : Wire String where
  encodeValue value := .string value
  decodeValue path wire :=
    match wire.asString with
    | some value => .ok value
    | none => .error (path ++ ": expected string")
  decode_encode _ _ := rfl

instance : Wire Bool where
  encodeValue value := .boolean value
  decodeValue path wire :=
    match wire.asBoolean with
    | some value => .ok value
    | none => .error (path ++ ": expected bool")
  decode_encode _ _ := rfl

def minInt : Int64 := Int32.minValue.toInt64

def maxInt : Int64 := Int32.maxValue.toInt64

instance : Wire Int32 where
  encodeValue value := .number (.integer value.toInt64)
  decodeValue path wire :=
    match wire.asInteger with
    | some value =>
        if minInt ≤ value ∧ value ≤ maxInt then .ok value.toInt32
        else .error (path ++ ": integer is out of range")
    | none => .error (path ++ ": expected integer")
  decode_encode value path := by
    have low : minInt ≤ value.toInt64 := by
      have bound := Int32.le_toInt value
      rw [Int64.le_iff_toInt_le, minInt]
      simpa using bound
    have high : value.toInt64 ≤ maxInt := by
      have bound := Int32.toInt_lt value
      rw [Int64.le_iff_toInt_le, maxInt]
      simp
      omega
    simp [Json.asInteger, Json.Number.asInteger, low, high]

/-! Arrays. -/

section Arrays

variable {α : Type} [Wire α]

def decodeElements (path : String) : Nat → List Json → Except String (List α)
  | _, [] => .ok []
  | index, wire :: rest => do
      let value ← decodeValue (indexPath path index) wire
      let values ← decodeElements path (index + 1) rest
      return value :: values

theorem decodeElements_map (path : String) (index : Nat) (values : List α) :
    decodeElements path index (values.map encodeValue) = .ok values := by
  induction values generalizing index with
  | nil => rfl
  | cons value rest ih =>
      rw [List.map_cons, decodeElements, Wire.decode_encode, ih]
      rfl

instance : Wire (List α) where
  encodeValue values := .array (values.map encodeValue)
  decodeValue path wire :=
    match wire.asArray with
    | some elements => decodeElements path 0 elements
    | none => .error (path ++ ": expected array")
  decode_encode values path := decodeElements_map path 0 values

end Arrays

/-! Enumerations. -/

section Enumerations

variable {α : Type}

def decodeEnum (type : String) (spelling : α → String) (values : List α) (path : String)
    (wire : Json) : Except String α :=
  match wire.asString with
  | none => .error (path ++ ": expected enum spelling")
  | some spelled =>
      match values.find? (spelling · = spelled) with
      | some value => .ok value
      | none => .error (path ++ ": unknown " ++ type ++ " spelling " ++ spelled)

end Enumerations

/-! Objects. -/

def expectObject (path : String) (wire : Json) : Except String Json.Object :=
  match wire.asObject with
  | some object => .ok object
  | none => .error (path ++ ": expected object")

def requiredField {α : Type} [Wire α] (object : Json.Object) (path field : String) :
    Except String α :=
  match object.get field with
  | some wire => decodeValue (fieldPath path field) wire
  | none => .error (fieldPath path field ++ ": required field is omitted")

/-- Every field of an object has been read. -/
def endObject (object : Json.Object) (path : String) (consumed : Nat) : Except String Unit :=
  require (object.length = consumed) (path ++ ": unknown field")

end Neutrino.Projection
