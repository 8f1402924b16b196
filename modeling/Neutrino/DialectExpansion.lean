import Neutrino.Json
import Neutrino.Library.Checked
import Neutrino.SourceLines

/-! The expansion of a domain dialect's template into `.neu` source. -/

namespace Neutrino

namespace Dialect

open Checked Json

/-- A failed expansion, or an exception of another kind. -/
inductive Failure
  | expansion (message : String)
  | raised (exception : String)
  deriving DecidableEq, Repr

/-- The texts a Python value has, in a format string and quoted. -/
structure PythonText where
  str : Json → String
  repr : Json → String

/-- A string is its own text. -/
def PythonText.Plain (py : PythonText) : Prop := ∀ text, py.str (.string text) = text

def expansionError {α : Type} (message : String) : Except Failure α := .error (.expansion message)

def asDict : Json → Except Failure Object
  | .object members => .ok members
  | _ => .error (.raised "AttributeError")

/-- A member of a dictionary, or the default. -/
def getOr (object : Object) (key : String) (default : Json) : Json := (object.get key).getD default

def subscript (object : Object) (key : String) : Except Failure Json :=
  match object.get key with
  | some value => .ok value
  | none => .error (.raised "KeyError")

def truthy : Json → Bool
  | .null => false
  | .boolean value => value
  | .number (.integer value) => value ≠ 0
  | .number (.unsigned value) => value ≠ 0
  | .number (.double value) => value ≠ 0
  | .string text => text ≠ ""
  | .array elements => !elements.isEmpty
  | .object members => !members.isEmpty

/-- What a `for` loop runs over, where its elements have members. -/
def iterate : Json → Except Failure (List Json)
  | .array elements => .ok elements
  | .object [] => .ok []
  | .object (_ :: _) => .error (.raised "AttributeError")
  | .string text => if text = "" then .ok [] else .error (.raised "AttributeError")
  | _ => .error (.raised "TypeError")

def isHashable : Json → Bool
  | .array _ => false
  | .object _ => false
  | _ => true

/-! The grammar gate. -/

def isLetter (c : Char) : Bool := ('a' ≤ c && c ≤ 'z') || ('A' ≤ c && c ≤ 'Z') || c = '_'

def isDigit (c : Char) : Bool := '0' ≤ c && c ≤ '9'

def isIdentChar (c : Char) : Bool := isLetter c || isDigit c

def isLedgerChar (c : Char) : Bool := isIdentChar c || c = '.'

def startsAs (rest : Char → Bool) : List Char → Bool
  | [] => false
  | c :: others => isLetter c && others.all rest

/-- `$` also matches before a line end that is the last character. -/
def matchesGrammar (rest : Char → Bool) (text : String) : Bool :=
  startsAs rest text.toList ||
    (text.toList.getLast? = some '\n' && startsAs rest text.toList.dropLast)

section Gate

variable (py : PythonText)

def gate (rest : Char → Bool) (complaint : String) (value : Json) (what : String) :
    Except Failure String :=
  match value with
  | .string text =>
      if matchesGrammar rest text then .ok text
      else expansionError (what ++ " " ++ py.repr value ++ complaint)
  | _ => expansionError (what ++ " " ++ py.repr value ++ complaint)

def ident (value : Json) (what : String) : Except Failure String :=
  gate py isIdentChar " is not a valid identifier (anti-injection gate)" value what

def ledger (value : Json) (what : String) : Except Failure String :=
  gate py isLedgerChar " is not a valid ledger path (anti-injection gate)" value what

def isString (value : Json) (text : String) : Bool :=
  match value with
  | .string other => other = text
  | _ => false

def uniqueInput (required : Object) (type what : String) : Except Failure String :=
  match (required.filter fun input => isString input.2 type).map Prod.fst with
  | [name] => .ok name
  | names => expansionError ("template needs exactly one '" ++ type ++ "' input for " ++ what ++
      ", found " ++ if names = [] then "none" else py.str (.array (names.map Json.string)))

def inputTypes : List String := ["string", "party", "money", "currency", "number", "evidence"]

/-- `definition or {}`. -/
def orEmpty (definition : Json) : Except Failure Object :=
  if truthy definition then asDict definition else .ok []

def checkParticipant (participant : String × Json) : Except Failure (String × String) := do
  let name ← ident py (.string participant.1) "participant name"
  let definition ← orEmpty participant.2
  let role ← ident py (getOr definition "role" (.string "")) "participant role"
  return (name, role)

def checkInput (input : String × Json) : Except Failure (String × String) := do
  let name ← ident py (.string input.1) "input name"
  match input.2 with
  | .string type =>
      if type ∈ inputTypes then return (name, type)
      else expansionError ("input " ++ py.repr (.string name) ++ " has unsupported type " ++
        py.repr input.2)
  | .array _ => .error (.raised "TypeError")
  | .object _ => .error (.raised "TypeError")
  | _ => expansionError ("input " ++ py.repr (.string name) ++ " has unsupported type " ++
      py.repr input.2)

structure Leg where
  kind : String
  name : String
  ledger : String
  participant : String
  role : String
  deriving DecidableEq, Repr

def checkKind (kind name : Json) : Except Failure String :=
  let invalid := expansionError ("obligation " ++ py.repr name ++ " has invalid kind " ++
    py.repr kind)
  match kind with
  | .string text => if text = "debit" ∨ text = "credit" then .ok text else invalid
  | _ => invalid

def checkObligation (participants : Object) (obligation : Json) : Except Failure Leg := do
  let ob ← asDict obligation
  let named := getOr ob "name" .null
  let kind ← checkKind py (getOr ob "kind" .null) named
  let name ← ident py (getOr ob "name" (.string "")) "obligation name"
  let path ← ledger py (getOr ob "ledger" (.string "")) "ledger"
  let party := getOr ob "participant" .null
  require (isHashable party) (.raised "TypeError")
  let unknown := "obligation " ++ py.repr named ++ " names unknown participant " ++ py.repr party
  match party with
  | .string participant =>
      match participants.get participant with
      | some (.object part) => do
          let role ← ident py (getOr part "role" (.string "")) "participant role"
          return { kind, name, ledger := path, participant, role }
      | _ => expansionError unknown
  | _ => expansionError unknown

end Gate

/-- What is rendered of a template, gated. -/
structure Template where
  participants : List (String × String)
  inputs : List (String × String)
  legs : List Leg
  amount : String
  currency : String
  idempotencyKey : String
  deriving DecidableEq, Repr

section Render

variable (py : PythonText)

def readTemplate (dialect : Object) (templateId procedure trigger : String) :
    Except Failure Template := do
  let templates ← asDict (getOr dialect "templates" (.object []))
  let found := (templates.get templateId).getD .null
  require (found.isNull = false)
    (.expansion ("template '" ++ templateId ++ "' not found in dialect"))
  let template ← asDict found
  require (isString (getOr template "expandsTo" .null) "procedure")
    (.expansion "only templates that expandsTo 'procedure' are supported")
  let required ← asDict (getOr template "requiredInputs" (.object []))
  let amount ← uniqueInput py required "money" "the leg amount"
  let currency ← uniqueInput py required "currency" "the leg currency"
  let idempotencyKey ← uniqueInput py required "string" "the idempotency key"
  let _ ← ident py (.string procedure) "procedure name"
  let _ ← ident py (.string trigger) "trigger"
  let participants ← asDict (getOr template "participants" (.object []))
  let checked ← collect (checkParticipant py) participants
  let inputs ← collect (checkInput py) required
  let obligations ← iterate (getOr template "obligations" (.array []))
  let legs ← collect (checkObligation py participants) obligations
  return { participants := checked, inputs, legs, amount, currency, idempotencyKey }

/-- A leg's party is the input named after its role. -/
def partyInput (inputs : List (String × String)) (role : String) : Except Failure String :=
  let name := role ++ "_id"
  if inputs.lookup name = some "party" then .ok name
  else expansionError ("expected a 'party' input named '" ++ name ++ "' for role '" ++ role ++ "'")

/-- Lines of the generated source, with the construct they belong to, if any. -/
abbrev Block := Option String × List String

def headerLine (domain version templateId : String) : String :=
  "// Generated from the " ++ domain ++ "@" ++ version ++ " domain dialect (template: " ++
    templateId ++ ")."

def participantLines (participant : String × String) : List String :=
  ["    participant " ++ participant.1 ++ " \x7b",
    "        role = \"" ++ participant.2 ++ "\"",
    "    \x7d"]

def legLines (template : Template) (leg : Leg) : List String :=
  ["    " ++ leg.kind ++ " " ++ leg.name ++ " \x7b",
    "        ledger = \"" ++ leg.ledger ++ "\"",
    "        owner = \"" ++ leg.role ++ "\"",
    "        participant = \"" ++ leg.participant ++ "\"",
    "        party = %" ++ leg.role ++ "_id",
    "        amount = %" ++ template.amount,
    "        currency = %" ++ template.currency,
    "        idempotency_key = %" ++ template.idempotencyKey,
    "    \x7d"]

/-- Both kinds of leg occur. -/
def Template.balances (template : Template) : Bool :=
  template.legs.any (·.kind = "debit") && template.legs.any (·.kind = "credit")

def sections (domain version templateId procedure trigger : String) (template : Template) :
    List Block :=
  [(none, [headerLine domain version templateId,
    "// DO NOT EDIT — regenerate with scripts/domain/expand_dialect.py. Every construct traces",
    "// to a domain term + mapping-graph edge in the .expansion.json sidecar.", ""]),
    (some ("procedure " ++ procedure), ["procedure " ++ procedure ++ " \x7b"]),
    (none, ["    trigger " ++ trigger, ""])] ++
  template.participants.map (fun participant =>
    (some ("participant " ++ participant.1), participantLines participant)) ++
  [(none, (if template.participants = [] then [] else [""]) ++
    template.inputs.map fun input => "    input " ++ input.1 ++ " : " ++ input.2)] ++
  template.legs.flatMap (fun leg =>
    [(none, [""]), (some (leg.kind ++ " " ++ leg.name), legLines template leg)]) ++
  [(none, (if template.balances then ["", "    assert balanced"] else []) ++ ["\x7d", ""])]

/-- The first and the last line of each construct, from a line on. -/
def spans (start : Nat) : List Block → List (String × Nat × Nat)
  | [] => []
  | (construct, lines) :: rest =>
      (construct.map fun name => (name, start, start + lines.length - 1)).toList ++
        spans (start + lines.length) rest

def renderNeu (dialect : Object) (templateId procedure trigger : String) :
    Except Failure (String × List (String × Nat × Nat)) := do
  let template ← readTemplate py dialect templateId procedure trigger
  let domain ← subscript dialect "domain"
  let version ← subscript dialect "version"
  let _ ← collect (fun leg : Leg => partyInput template.inputs leg.role) template.legs
  let rendered := sections (py.str domain) (py.str version) templateId procedure trigger template
  return (String.intercalate "\n" (rendered.flatMap Prod.snd), spans 1 rendered)

end Render

/-- The embedded hash is that of the dialect without it. -/
def HashMatches (sha256Hex : String → String) (canonicalJson : Object → String)
    (dialect : Object) : Prop :=
  dialect.get "domainDialectHash" =
    some (.string (sha256Hex (canonicalJson (dialect.erase "domainDialectHash"))))

end Dialect

end Neutrino
