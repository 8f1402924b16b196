import Neutrino.PythonOperators

/-! The bundled evaluator of JSON schemas: the violations that it reports of an instance under a
schema. Where a keyword of the schema is malformed, the evaluation ends. -/

namespace Neutrino.SchemaEvaluator

open PyJson Review

abbrev Check := Review String String

def supportedKeywords : List String :=
  ["$id", "$schema", "$ref", "$defs", "$comment", "title", "description", "type", "required",
    "properties", "additionalProperties", "propertyNames", "enum", "const", "pattern", "minLength",
    "format", "minimum", "maximum", "items", "minItems", "minProperties", "uniqueItems", "oneOf",
    "anyOf", "allOf", "not", "if", "then", "else"]

/-! Equality and types. -/

def kind : PyJson → String
  | .none => "NoneType"
  | .bool _ => "bool"
  | .int _ => "num"
  | .float _ => "num"
  | .str _ => "str"
  | .list _ => "list"
  | .dict _ => "dict"

mutual

def jsonEqual : PyJson → PyJson → Bool
  | .list first, .list second => jsonEqualElements first second
  | .dict first, .dict second =>
      first.all (fun item => has second item.1) && second.all (fun item => has first item.1) &&
        jsonEqualItems first second
  | first, second => kind first = kind second && same first second

def jsonEqualElements : List PyJson → List PyJson → Bool
  | [], [] => true
  | first :: rest, second :: others => jsonEqual first second && jsonEqualElements rest others
  | _, _ => false

/-- Every item has an equal one of its key. -/
def jsonEqualItems : List (String × PyJson) → List (String × PyJson) → Bool
  | [], _ => true
  | (key, value) :: rest, items =>
      (match items.lookup key with
        | some other => jsonEqual value other
        | Option.none => false) && jsonEqualItems rest items

end

def typeOk (inst : PyJson) (name : String) : Bool :=
  match name with
  | "object" => kind inst = "dict"
  | "array" => kind inst = "list"
  | "string" => kind inst = "str"
  | "integer" => match inst with
      | .int _ => true
      | _ => false
  | "number" => kind inst = "num"
  | "boolean" => kind inst = "bool"
  | "null" => kind inst = "NoneType"
  | _ => false

/-! References. -/

/-- `text.replace(first + second, replacement)` -/
def replacePair (first second replacement : Char) : List Char → List Char
  | [] => []
  | [c] => [c]
  | c :: d :: rest =>
      if c = first ∧ d = second then replacement :: replacePair first second replacement rest
      else c :: replacePair first second replacement (d :: rest)

def pointerPart (part : List Char) : String :=
  String.ofList (replacePair '~' '0' '~' (replacePair '~' '1' '/' part))

def follow (node : PyJson) : List String → Option PyJson
  | [] => some node
  | part :: rest =>
      match node with
      | .dict items => (items.lookup part).bind fun next => follow next rest
      | _ => Option.none

def resolveRef (ref : String) (root : PyJson) : Option PyJson :=
  match ref.toList with
  | '#' :: '/' :: path => follow root ((path.splitOn '/').map pointerPart)
  | _ => Option.none

/-! Violations. -/

section Evaluate

variable (repr : PyJson → String) (search : String → String → Bool)
  (validDatetime : String → Bool) (root : PyJson)

def fail (wrong : Bool) (message : String) : Check := note wrong message

/-- `path or 'value'` -/
def place (path : String) : String := if path = "" then "value" else path

def malformed : Check := .error "malformed schema"

/-- The check of a keyword, where the schema has it. -/
def keyword (items : Dict) (key : String) (check : PyJson → Check) : Check :=
  match items.lookup key with
  | some value => check value
  | Option.none => .ok []

/-- The value of a number. -/
def bound : PyJson → Option Rat
  | .int value => some value
  | .float value => some value
  | _ => Option.none

/-- The strings of a list of strings. -/
def texts (elements : List PyJson) : Option (List String) :=
  elements.mapM fun element =>
    match element with
    | .str text => some text
    | _ => Option.none

def shown : PyJson → String
  | .str text => text
  | value => repr value

def typeNames : PyJson → Option (List String)
  | .list elements => texts elements
  | value => texts [value]

/-- The type keyword; nothing else is checked where it fails. -/
def withType (items : Dict) (inst : PyJson) (path : String) (others : Check) : Check :=
  match items.lookup "type" with
  | Option.none => others
  | some type =>
      match typeNames type with
      | Option.none => malformed
      | some names =>
          if names.any (typeOk inst) then others
          else fail true (place path ++ " must be of type " ++ shown repr type)

def checkConst (inst : PyJson) (path : String) (value : PyJson) : Check :=
  fail (!jsonEqual inst value) (place path ++ " must equal " ++ repr value)

def checkEnum (inst : PyJson) (path : String) : PyJson → Check
  | .list values => fail (!values.any (jsonEqual inst))
      (place path ++ " " ++ repr inst ++ " is not one of " ++ repr (.list values))
  | _ => malformed

def checkPattern (inst path : String) : PyJson → Check
  | .str pattern => fail (!search pattern inst)
      (path ++ " does not match pattern " ++ repr (.str pattern))
  | _ => malformed

/-- A size below what a keyword asks for. -/
def checkSize (size : Nat) (message : PyJson → String) (least : PyJson) : Check :=
  match bound least with
  | some limit => fail ((size : Rat) < limit) (message least)
  | Option.none => malformed

def checkString (items : Dict) (inst path : String) : Check :=
  all [
    keyword items "pattern" (checkPattern repr search inst path),
    keyword items "minLength" (checkSize inst.length fun least =>
      path ++ " is shorter than " ++ shown repr least),
    fail (eqStr (get items "format") "date-time" && !validDatetime inst)
      (path ++ " is not an RFC 3339 date-time")]

def checkBound (outside : Rat → Bool) (message : PyJson → String) (limit : PyJson) : Check :=
  match bound limit with
  | some value => fail (outside value) (message limit)
  | Option.none => malformed

def checkNumber (items : Dict) (inst : Rat) (path : String) : Check :=
  all [
    keyword items "minimum" (checkBound (inst < ·) fun limit =>
      path ++ " is less than the minimum " ++ shown repr limit),
    keyword items "maximum" (checkBound (· < inst) fun limit =>
      path ++ " is greater than the maximum " ++ shown repr limit)]

def checkRequired (inst : Dict) (path : String) : PyJson → Check
  | .list names =>
      match texts names with
      | some names => overAll (fun name => fail (!has inst name)
          (place path ++ " is missing required " ++ repr (.str name))) names
      | Option.none => malformed
  | _ => malformed

section Within

variable (recurse : PyJson → PyJson → String → Check)

/-- One member, under its own subschema or else the one for additional members. -/
def checkMember (items : Dict) (path : String) (properties : Dict) (member : String × PyJson) :
    Check :=
  all [
    keyword items "propertyNames" fun names =>
      recurse (.str member.1) names (path ++ ".<key " ++ repr (.str member.1) ++ ">"),
    match properties.lookup member.1 with
    | some own => recurse member.2 own (path ++ "." ++ member.1)
    | Option.none =>
        keyword items "additionalProperties" fun additional =>
          match additional with
          | .bool false => fail true
              (place path ++ " has unknown property " ++ repr (.str member.1))
          | .dict schema => recurse member.2 (.dict schema) (path ++ "." ++ member.1)
          | _ => .ok []]

def checkObject (items inst : Dict) (path : String) : Check :=
  all [
    keyword items "required" (checkRequired repr inst path),
    keyword items "minProperties" (checkSize inst.length fun least =>
      place path ++ " has fewer than " ++ shown repr least ++ " properties"),
    match items.lookup "properties" with
    | some (.dict properties) => overAll (checkMember repr recurse items path properties) inst
    | some _ => malformed
    | Option.none => overAll (checkMember repr recurse items path []) inst]

/-- Whether two elements are equal. -/
def hasDuplicates : List PyJson → Bool
  | [] => false
  | first :: rest => rest.any (jsonEqual first) || hasDuplicates rest

def checkArray (items : Dict) (inst : List PyJson) (path : String) : Check :=
  all [
    keyword items "minItems" (checkSize inst.length fun least =>
      path ++ " has fewer than " ++ shown repr least ++ " items"),
    fail (truthy (get items "uniqueItems") && hasDuplicates inst)
      (path ++ " has duplicate items"),
    match items.lookup "items" with
    | some (.dict schema) => overAll (fun element =>
        recurse element.1 (.dict schema) (path ++ "[" ++ toString element.2 ++ "]")) inst.zipIdx
    | _ => .ok []]

def checkByType (items : Dict) (inst : PyJson) (path : String) : Check :=
  match inst with
  | .str inst => checkString repr search validDatetime items inst path
  | .int inst => checkNumber repr items inst path
  | .float inst => checkNumber repr items inst path
  | .dict inst => checkObject repr recurse items inst path
  | .list inst => checkArray repr recurse items inst path
  | _ => .ok []

def isValid (inst schema : PyJson) : Except String Bool :=
  (recurse inst schema "").map List.isEmpty

def anyValid (inst : PyJson) : List PyJson → Except String Bool
  | [] => .ok false
  | schema :: rest => do
      if ← isValid recurse inst schema then return true else anyValid inst rest

def countValid (inst : PyJson) : List PyJson → Except String Nat
  | [] => .ok 0
  | schema :: rest => do
      let valid ← isValid recurse inst schema
      let others ← countValid inst rest
      return (if valid then 1 else 0) + others

/-- The check of a list of subschemas. -/
def subschemas (check : List PyJson → Check) : PyJson → Check
  | .list schemas => check schemas
  | _ => malformed

def checkCombined (items : Dict) (inst : PyJson) (path : String) : Check :=
  all [
    keyword items "allOf" (subschemas fun schemas =>
      overAll (fun schema => recurse inst schema path) schemas),
    keyword items "oneOf" (subschemas fun schemas =>
      after (countValid recurse inst schemas) fun count =>
        fail (count ≠ 1) (place path ++ " must match exactly one of oneOf")),
    keyword items "anyOf" (subschemas fun schemas =>
      after (anyValid recurse inst schemas) fun found =>
        fail (!found) (place path ++ " must match at least one of anyOf")),
    keyword items "not" fun schema =>
      after (isValid recurse inst schema) fun valid =>
        fail valid (place path ++ " must not match the 'not' schema"),
    keyword items "if" fun schema =>
      after (isValid recurse inst schema) fun valid =>
        keyword items (if valid then "then" else "else") fun branch => recurse inst branch path]

def checkRef (inst : PyJson) (path : String) : PyJson → Check
  | .str ref =>
      match resolveRef ref root with
      | some target => recurse inst target path
      | Option.none => fail true (path ++ ": unresolvable $ref " ++ repr (.str ref))
  | _ => malformed

def validateWith (inst schema : PyJson) (path : String) : Check :=
  match schema with
  | .bool false => fail true (place path ++ " is not allowed")
  | .dict items => all [
      keyword items "$ref" (checkRef repr root recurse inst path),
      withType repr items inst path (all [
        keyword items "const" (checkConst repr inst path),
        keyword items "enum" (checkEnum repr inst path),
        checkByType repr search validDatetime recurse items inst path,
        checkCombined recurse items inst path])]
  | _ => .ok []

end Within

/-- The evaluation to a depth of nested calls. -/
def validate : Nat → PyJson → PyJson → String → Check
  | 0, _, _, _ => .error "RecursionError: maximum recursion depth exceeded"
  | depth + 1, inst, schema, path =>
      validateWith repr search validDatetime root (validate depth) inst schema path

end Evaluate

end Neutrino.SchemaEvaluator
