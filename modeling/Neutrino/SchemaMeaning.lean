import Neutrino.SchemaEvaluator

/-! The meaning of JSON schemas under draft 2020-12, for the keywords that the bundled evaluator
supports. -/

namespace Neutrino.JsonSchema

open PyJson
open SchemaEvaluator (supportedKeywords texts typeNames bound)

/-! Values. -/

mutual

/-- Two documents are one JSON value; a number is its value, in whatever way it is written. -/
def Equal : PyJson → PyJson → Prop
  | .none, .none => True
  | .bool first, .bool second => first = second
  | .int first, .int second => first = second
  | .int first, .float second => (first : Rat) = second
  | .float first, .int second => first = (second : Rat)
  | .float first, .float second => first = second
  | .str first, .str second => first = second
  | .list first, .list second => EqualElements first second
  | .dict first, .dict second =>
      (∀ key, has first key = has second key) ∧ EqualItems first second
  | _, _ => False

def EqualElements : List PyJson → List PyJson → Prop
  | [], [] => True
  | first :: rest, second :: others => Equal first second ∧ EqualElements rest others
  | _, _ => False

/-- Every item has an equal one of its key. -/
def EqualItems : List (String × PyJson) → List (String × PyJson) → Prop
  | [], _ => True
  | (key, value) :: rest, items =>
      (match items.lookup key with
        | some other => Equal value other
        | Option.none => False) ∧ EqualItems rest items

end

/-- A decimal without a fractional part. -/
def IntegralDecimal : PyJson → Prop
  | .float value => value.den = 1
  | _ => False

/-- An integer is a number without a fractional part. -/
def HasType (inst : PyJson) (name : String) : Prop :=
  match inst with
  | .none => name = "null"
  | .bool _ => name = "boolean"
  | .int _ => name = "integer" ∨ name = "number"
  | .float value => name = "number" ∨ name = "integer" ∧ value.den = 1
  | .str _ => name = "string"
  | .list _ => name = "array"
  | .dict _ => name = "object"

/-! References. -/

/-- The name that a token of a JSON pointer spells. -/
def tokenName : List Char → Option (List Char)
  | [] => some []
  | '~' :: '0' :: rest => (tokenName rest).map ('~' :: ·)
  | '~' :: '1' :: rest => (tokenName rest).map ('/' :: ·)
  | '~' :: _ => Option.none
  | c :: rest => (tokenName rest).map (c :: ·)

def hexValue (c : Char) : Option Nat :=
  if '0' ≤ c ∧ c ≤ '9' then some (c.toNat - '0'.toNat)
  else if 'a' ≤ c ∧ c ≤ 'f' then some (c.toNat - 'a'.toNat + 10)
  else if 'A' ≤ c ∧ c ≤ 'F' then some (c.toNat - 'A'.toNat + 10)
  else Option.none

/-- The bytes that the characters of a fragment spell, a percent sign with two digits for one. -/
def fragmentBytes : List Char → Option (List UInt8)
  | [] => some []
  | '%' :: high :: low :: rest => do
      let first ← hexValue high
      let second ← hexValue low
      let bytes ← fragmentBytes rest
      return UInt8.ofNat (16 * first + second) :: bytes
  | '%' :: _ => Option.none
  | c :: rest => (fragmentBytes rest).map (c.toString.toUTF8.data.toList ++ ·)

def decodedFragment (chars : List Char) : Option (List Char) :=
  if '%' ∈ chars then do
    let bytes ← fragmentBytes chars
    let decoded ← String.fromUTF8? ⟨bytes.toArray⟩
    return decoded.toList
  else some chars

/-- An entry of the definitions of a schema, of their definitions, and so on; not one of a schema
that is a document of its own. -/
def definition (schema : PyJson) : List String → Option PyJson
  | "$defs" :: name :: rest =>
      match schema with
      | .dict items =>
          match get items "$defs" with
          | .dict definitions =>
              (definitions.lookup name).bind fun entry =>
                match rest, entry with
                | [], _ => some entry
                | _, .dict members =>
                    if has members "$id" then Option.none else definition (.dict members) rest
                | _, _ => Option.none
          | _ => Option.none
      | _ => Option.none
  | _ => Option.none

/-- What a local reference refers to. -/
def target (root : PyJson) (ref : String) : Option PyJson :=
  match ref.toList with
  | '#' :: fragment => do
      let pointer ← decodedFragment fragment
      match pointer with
      | '/' :: path => do
          let names ← (path.splitOn '/').mapM tokenName
          definition root (names.map String.ofList)
      | _ => Option.none
  | _ => Option.none

/-! Meanings. -/

/-- Which instances a schema accepts, and on which ones it is clear of what the evaluator misreads:
an integral decimal under the type integer, a closed list of items, a percent-encoded reference. -/
structure Meaning where
  valid : PyJson → Prop
  clear : PyJson → Prop

def free : Meaning := ⟨fun _ => True, fun _ => True⟩

def condition (holds : PyJson → Prop) : Meaning := ⟨holds, fun _ => True⟩

/-- All of some meanings. -/
def join (meanings : List Meaning) : Meaning :=
  ⟨fun inst => ∀ meaning ∈ meanings, meaning.valid inst,
    fun inst => ∀ meaning ∈ meanings, meaning.clear inst⟩

/-- What is asked of one kind of instance only. -/
def only (concerned : PyJson → Bool) (meaning : Meaning) : Meaning :=
  ⟨fun inst => concerned inst = true → meaning.valid inst,
    fun inst => concerned inst = true → meaning.clear inst⟩

def ExactlyOne {α : Type} (holds : α → Prop) (elements : List α) : Prop :=
  ∃ before element after, elements = before ++ element :: after ∧ holds element ∧
    ∀ other ∈ before ++ after, ¬holds other

/-- The meaning of a keyword, where the schema has it. -/
def atKeyword (items : Dict) (key : String) (meaning : PyJson → Option Meaning) : Option Meaning :=
  match items.lookup key with
  | some value => meaning value
  | Option.none => some free

/-- A non-negative integer. -/
def size : PyJson → Option Nat
  | .int value => if 0 ≤ value then some value.toNat else Option.none
  | .float value => if value.den = 1 ∧ 0 ≤ value then some value.num.toNat else Option.none
  | _ => Option.none

def typeMeaning (value : PyJson) : Option Meaning := do
  let names ← typeNames value
  if names.all fun name => name ∈
      ["object", "array", "string", "integer", "number", "boolean", "null"] then
    return ⟨fun inst => ∃ name ∈ names, HasType inst name,
      fun inst => IntegralDecimal inst → "integer" ∈ names → "number" ∈ names⟩
  else Option.none

def constMeaning (value : PyJson) : Option Meaning := some (condition fun inst => Equal inst value)

def enumMeaning : PyJson → Option Meaning
  | .list values => some (condition fun inst => ∃ value ∈ values, Equal inst value)
  | _ => Option.none

def sizeMeaning (sized : PyJson → Nat → Prop) (value : PyJson) : Option Meaning :=
  (size value).map fun least => condition fun inst => ∀ count, sized inst count → least ≤ count

def lengthOf (inst : PyJson) (count : Nat) : Prop := ∃ text, inst = .str text ∧ count = text.length

def memberCount (inst : PyJson) (count : Nat) : Prop :=
  ∃ members, inst = .dict members ∧ count = members.length

def elementCount (inst : PyJson) (count : Nat) : Prop :=
  ∃ elements, inst = .list elements ∧ count = elements.length

def minimumMeaning (value : PyJson) : Option Meaning :=
  (bound value).map fun limit => condition fun inst => ∀ number, bound inst = some number →
    limit ≤ number

def maximumMeaning (value : PyJson) : Option Meaning :=
  (bound value).map fun limit => condition fun inst => ∀ number, bound inst = some number →
    number ≤ limit

def requiredMeaning : PyJson → Option Meaning
  | .list names => (texts names).map fun names => condition fun inst =>
      ∀ members, inst = .dict members → ∀ name ∈ names, has members name = true
  | _ => Option.none

def uniqueMeaning : PyJson → Option Meaning
  | .bool wanted => some (condition fun inst => ∀ elements, inst = .list elements →
      wanted = true → elements.Pairwise fun first second => ¬Equal first second)
  | _ => Option.none

section Within

variable (search : String → String → Bool) (validDatetime : String → Bool)
  (read : PyJson → Option Meaning)

def patternMeaning : PyJson → Option Meaning
  | .str pattern => some (condition fun inst => ∀ text, inst = .str text → search pattern text = true)
  | _ => Option.none

/-- Date and time are asserted, other formats are annotations. -/
def formatMeaning : PyJson → Option Meaning
  | .str format => some (condition fun inst => format = "date-time" → ∀ text, inst = .str text →
      validDatetime text = true)
  | _ => Option.none

/-- The meaning of each property's schema. -/
def propertyMeanings (items : Dict) : Option (List (String × Meaning)) :=
  match items.lookup "properties" with
  | Option.none => some []
  | some (.dict properties) => properties.mapM fun property =>
      (read property.2).map fun meaning => (property.1, meaning)
  | some _ => Option.none

def memberMeaning (properties : List (String × Meaning)) (additional : Meaning) (key : String) :
    Meaning := (properties.lookup key).getD additional

def propertiesMeaning (items : Dict) : Option Meaning := do
  let properties ← propertyMeanings read items
  let additional ← atKeyword items "additionalProperties" read
  return ⟨fun inst => ∀ members, inst = .dict members → ∀ member ∈ members,
      (memberMeaning properties additional member.1).valid member.2,
    fun inst => ∀ members, inst = .dict members → ∀ member ∈ members,
      (memberMeaning properties additional member.1).clear member.2⟩

def namesMeaning (value : PyJson) : Option Meaning :=
  (read value).map fun names =>
    ⟨fun inst => ∀ members, inst = .dict members → ∀ member ∈ members, names.valid (.str member.1),
      fun inst => ∀ members, inst = .dict members → ∀ member ∈ members, names.clear (.str member.1)⟩

def itemsMeaning (value : PyJson) : Option Meaning :=
  (read value).map fun element =>
    ⟨fun inst => ∀ elements, inst = .list elements → ∀ one ∈ elements, element.valid one,
      fun inst => ∀ elements, inst = .list elements →
        (value = .bool false → elements = []) ∧ ∀ one ∈ elements, element.clear one⟩

/-- The meaning of a keyword over the meanings of a list of schemas. -/
def listMeaning (combine : List Meaning → PyJson → Prop) : PyJson → Option Meaning
  | .list schemas => (schemas.mapM read).map fun meanings =>
      ⟨combine meanings, fun inst => ∀ meaning ∈ meanings, meaning.clear inst⟩
  | _ => Option.none

def notMeaning (value : PyJson) : Option Meaning :=
  (read value).map fun meaning => ⟨fun inst => ¬meaning.valid inst, meaning.clear⟩

def conditionalMeaning (items : Dict) (value : PyJson) : Option Meaning := do
  let test ← read value
  let accepted ← atKeyword items "then" read
  let refused ← atKeyword items "else" read
  return ⟨fun inst => (test.valid inst → accepted.valid inst) ∧
      (¬test.valid inst → refused.valid inst),
    fun inst => test.clear inst ∧ (test.valid inst → accepted.clear inst) ∧
      (¬test.valid inst → refused.clear inst)⟩

def stringMeaning (items : Dict) : Option Meaning := do
  let pattern ← atKeyword items "pattern" (patternMeaning search)
  let length ← atKeyword items "minLength" (sizeMeaning lengthOf)
  let format ← atKeyword items "format" (formatMeaning validDatetime)
  return only isStr (join [pattern, length, format])

def isNumber (inst : PyJson) : Bool := (bound inst).isSome

def numberMeaning (items : Dict) : Option Meaning := do
  let minimum ← atKeyword items "minimum" minimumMeaning
  let maximum ← atKeyword items "maximum" maximumMeaning
  return only isNumber (join [minimum, maximum])

def objectMeaning (items : Dict) : Option Meaning := do
  let required ← atKeyword items "required" requiredMeaning
  let least ← atKeyword items "minProperties" (sizeMeaning memberCount)
  let names ← atKeyword items "propertyNames" (namesMeaning read)
  let properties ← propertiesMeaning read items
  return only isDict (join [required, least, names, properties])

def arrayMeaning (items : Dict) : Option Meaning := do
  let least ← atKeyword items "minItems" (sizeMeaning elementCount)
  let unique ← atKeyword items "uniqueItems" uniqueMeaning
  let elements ← atKeyword items "items" (itemsMeaning read)
  return only isList (join [least, unique, elements])

def combinedMeaning (items : Dict) : Option Meaning := do
  let every ← atKeyword items "allOf" (listMeaning read fun meanings inst =>
    ∀ meaning ∈ meanings, meaning.valid inst)
  let one ← atKeyword items "oneOf" (listMeaning read fun meanings inst =>
    ExactlyOne (fun meaning => meaning.valid inst) meanings)
  let any ← atKeyword items "anyOf" (listMeaning read fun meanings inst =>
    ∃ meaning ∈ meanings, meaning.valid inst)
  let none ← atKeyword items "not" (notMeaning read)
  let branches ← atKeyword items "if" (conditionalMeaning read items)
  return join [every, one, any, none, branches]

/-- Where the type is wrong, nothing else is looked at. -/
def nodeMeaning (ref : PyJson → Option Meaning) (items : Dict) : Option Meaning := do
  if items.all fun item => item.1 ∈ supportedKeywords then
    let referred ← atKeyword items "$ref" ref
    let type ← atKeyword items "type" typeMeaning
    let const ← atKeyword items "const" constMeaning
    let enum ← atKeyword items "enum" enumMeaning
    let strings ← stringMeaning search validDatetime items
    let numbers ← numberMeaning items
    let objects ← objectMeaning read items
    let arrays ← arrayMeaning read items
    let combined ← combinedMeaning read items
    let others := join [const, enum, strings, numbers, objects, arrays, combined]
    return ⟨fun inst => referred.valid inst ∧ type.valid inst ∧ others.valid inst,
      fun inst => referred.clear inst ∧ type.clear inst ∧ (type.valid inst → others.clear inst)⟩
  else Option.none

end Within

/-- Where a schema stands: a document's own, inside it, or inside one with an identifier of its own,
whose references are not local to the document. -/
inductive Place
  | root
  | inside
  | embedded
  deriving DecidableEq, Repr

def Place.next (place : Place) (items : Dict) : Place :=
  match place with
  | .root => .inside
  | .inside => if has items "$id" then .embedded else .inside
  | .embedded => .embedded

def refMeaning (root : PyJson) (place : Place) (read : PyJson → Option Meaning) :
    PyJson → Option Meaning
  | .str ref =>
      if place = .embedded then Option.none
      else (target root ref).bind fun entry => (read entry).map fun meaning =>
        ⟨meaning.valid, fun inst => '%' ∉ ref.toList ∧ meaning.clear inst⟩
  | _ => Option.none

/-- The meaning of a schema of a document; none where it is not well-formed, or where its references
and subschemas go deeper. -/
def meaning (search : String → String → Bool) (validDatetime : String → Bool) (root : PyJson) :
    Nat → Place → PyJson → Option Meaning
  | 0, _, _ => Option.none
  | depth + 1, place, schema =>
      match schema with
      | .bool accepted => some ⟨fun _ => accepted = true, fun _ => True⟩
      | .dict items =>
          nodeMeaning search validDatetime (meaning search validDatetime root depth (place.next items))
            (refMeaning root (place.next items) (meaning search validDatetime root depth .inside))
            items
      | _ => Option.none

end Neutrino.JsonSchema
