import Neutrino.SpecValidator

/-! The published schema of capability specs: which parsed documents are valid under it. -/

namespace Neutrino.SpecSchema

open PyJson SpecValidator

abbrev Schema := PyJson → Bool

/-! The vocabulary. -/

def string (minLength : Nat) : Schema
  | .str text => minLength ≤ text.length
  | _ => false

/-- A string that matches a pattern. -/
def pattern (isMatch : List Char → Bool) : Schema
  | .str text => isMatch text.toList
  | _ => false

def enum (values : List String) : Schema
  | .str text => values.contains text
  | _ => false

/-- A number without a fractional part, however it is written. -/
def asInteger : PyJson → Option Int
  | .int value => some value
  | .float value => if value.den = 1 then some value.num else none
  | _ => none

def integer (allowed : Int → Bool) : Schema := fun value => (asInteger value).any allowed

def boolean : Schema
  | .bool _ => true
  | _ => false

def orNull (schema : Schema) : Schema
  | .none => true
  | value => schema value

def array (minItems : Nat) (schema : Schema) : Schema
  | .list elements => minItems ≤ elements.length && elements.all schema
  | _ => false

/-- An object of these properties and no others. -/
def object (required : List String) (properties : List (String × Schema)) : Schema
  | .dict items => required.all (has items) &&
      items.all (fun item => (properties.map (·.1)).contains item.1) &&
      properties.all fun property => !has items property.1 || property.2 (get items property.1)
  | _ => false

/-! The definitions. -/

def valueCategory : Schema :=
  enum ["money", "decimal", "party", "currency", "evidence", "string", "extension"]

def sourceSpan : Schema :=
  object ["line", "column"] [("line", integer (1 ≤ ·)), ("column", integer (1 ≤ ·))]

def targetRequirement : Schema :=
  object ["feature", "primitive", "source", "requirement", "fallback"] [("feature", string 1),
    ("primitive", string 1), ("source", orNull sourceSpan),
    ("requirement", enum ["required", "optional"]), ("fallback", orNull (string 0))]

def operand : Schema :=
  object ["kind", "value"] [("kind", enum ["ref", "literal"]), ("value", string 1)]

def exprNames : List String := ["kind", "num", "name", "op", "dtype", "lhs", "rhs", "args"]

def exprKinds : List String := ["num", "var", "bin", "call", "cmp"]

def exprOps : List String := ["+", "-", "*", "/", "<", "<=", ">", ">=", "==", "!="]

mutual

def exprNode (node : PyJson) : Bool :=
  match node with
  | .dict items => has items "kind" && has items "dtype" &&
      items.all (fun item => exprNames.contains item.1) &&
      exprNames.all fun key => !has items key || exprMember key (get items key)
  | _ => false
termination_by (sizeOf node, 0)
decreasing_by
  exact Prod.Lex.left _ _ (get_lt items key)

/-- The schema of one property of a node. -/
def exprMember (key : String) (value : PyJson) : Bool :=
  if key = "kind" then enum exprKinds value
  else if key = "num" then integer (fun _ => true) value
  else if key = "name" then string 1 value
  else if key = "op" then enum exprOps value
  else if key = "dtype" then valueCategory value
  else if key = "lhs" ∨ key = "rhs" then exprNode value
  else isList value && exprNodes (elementsOf value)
termination_by (sizeOf value, 1)
decreasing_by
  · exact Prod.Lex.right _ (by decide)
  · have := elementsOf_le value
    rcases this.lt_or_eq with less | same
    · exact Prod.Lex.left _ _ less
    · rw [same]
      exact Prod.Lex.right _ (by decide)

def exprNodes (nodes : List PyJson) : Bool :=
  match nodes with
  | [] => true
  | node :: rest => exprNode node && exprNodes rest
termination_by (sizeOf nodes, 0)

end

def state : Schema :=
  object ["name", "terminal"] [("name", string 1), ("terminal", boolean),
    ("terminalKind", enum ["success", "aborted", "contested"])]

def guard : Schema :=
  object ["kind"] [("kind", enum ["participant", "deadline", "sequence"]), ("detail", string 0)]

def evidence : Schema :=
  object ["style", "chained"]
    [("style", enum ["single_hash", "batched_root"]), ("chained", boolean)]

def transition : Schema :=
  object ["name", "from", "to", "effects", "guards", "idempotency"] [("name", string 1),
    ("from", string 1), ("to", string 1),
    ("effects", array 0 (enum ["post", "compensate", "reserve", "consume", "release"])),
    ("guards", array 0 guard), ("idempotency", enum ["reject", "noop_on_identical"]),
    ("evidence", orNull evidence)]

def observerSet : Schema :=
  object ["ref", "role"] [("ref", string 1), ("role", orNull (string 0)),
    ("assurance", enum ["A1", "A2", "A3", "A4"]),
    ("independence", enum ["independent", "correlated"])]

def attestationPolicy : Schema :=
  object ["input", "quorum", "observerSet", "canonicalization", "timeout", "fallback"]
    [("input", string 1),
      ("quorum", object ["threshold"] [("threshold", integer (1 ≤ ·))]),
      ("observerSet", observerSet),
      ("canonicalization", object ["mode", "tolerance"]
        [("mode", enum ["exact", "median"]), ("tolerance", orNull (string 0))]),
      ("timeout", orNull (string 0)), ("fallback", enum ["abort", "escalate"])]

/-! The sections. -/

/-- `^[0-9]+\.[0-9]+\.[0-9]+$`, with `$` at the end of the text. -/
def isSemverText (text : List Char) : Bool :=
  match text.splitOn '.' with
  | [major, minor, patch] => [major, minor, patch].all fun digits =>
      !digits.isEmpty && digits.all Char.isDigit
  | _ => false

/-- `^[0-9a-f]{64}$` -/
def isHexText (text : List Char) : Bool := text.length = 64 && text.all Agreement.isHexDigit

def schemaVersion : Schema := integer fun value => [1, 2, 3].contains value

def identity : Schema :=
  object ["capabilityHash", "specHash"]
    [("capabilityHash", pattern isHexText), ("specHash", pattern isHexText)]

def input : Schema :=
  object ["name", "type", "category"]
    [("name", string 1), ("type", string 1), ("category", valueCategory)]

def compute : Schema :=
  object ["name", "expr", "category", "deps", "ast"] [("name", string 1), ("expr", string 1),
    ("category", valueCategory), ("deps", array 0 (string 1)), ("ast", exprNode)]

def whenMember : Schema := object ["expr", "ast"] [("expr", string 1), ("ast", exprNode)]

def effect : Schema :=
  object ["kind", "name", "ledger", "owner", "participant", "party", "amount", "currency",
      "idempotencyKey"]
    [("kind", enum ["debit", "credit"]), ("name", string 1), ("ledger", string 1),
      ("owner", string 1), ("participant", orNull (string 0)), ("party", operand),
      ("amount", operand), ("currency", operand), ("idempotencyKey", operand), ("when", whenMember),
      ("memo", string 1)]

def invariant : Schema := object ["kind"] [("kind", enum ["balanced"])]

def participant : Schema :=
  object ["name", "role", "org", "capabilities", "binding", "bindRuntimes", "bindMinAssurance"]
    [("name", string 1), ("role", string 0), ("org", orNull (string 0)),
      ("capabilities", array 0 (string 0)), ("binding", enum ["fixed", "to_be_bound"]),
      ("bindRuntimes", array 0 (string 0)),
      ("bindMinAssurance", enum ["", "A1", "A2", "A3", "A4"])]

def orgPair : Schema :=
  object ["orgA", "orgB", "roleA", "roleB"] [("orgA", string 1), ("orgB", string 1),
    ("roleA", string 0), ("roleB", string 0)]

def topology : Schema := object ["allowedOrgPairs"] [("allowedOrgPairs", array 0 orgPair)]

def instanceKey : Schema :=
  object ["fields"] [("fields", array 0 (string 1)), ("declared", string 1)]

def terminalStates : Schema :=
  object ["success", "aborted", "contested"] [("success", orNull (string 0)),
    ("aborted", orNull (string 0)), ("contested", orNull (string 0))]

def lifecycle : Schema :=
  object ["instanceKey", "initialState", "states", "transitions", "terminalStates"]
    [("instanceKey", instanceKey), ("initialState", string 1), ("states", array 1 state),
      ("transitions", array 1 transition), ("terminalStates", terminalStates)]

def targetRequirements : Schema :=
  object ["requirements", "evidenceStyle", "unsupportedConstructs"]
    [("requirements", array 0 targetRequirement),
      ("evidenceStyle", enum ["single_hash", "batched_root"]),
      ("unsupportedConstructs", array 0 (string 0))]

def sourceEntry : Schema :=
  object ["specPath", "construct", "source"] [("specPath", string 1), ("construct", string 1),
    ("source", orNull sourceSpan)]

def capabilitySpec : Schema :=
  object ["schemaVersion", "kind", "specVersion", "procedure", "trigger", "identity", "inputs",
      "computes", "effects", "invariants", "participants", "topology", "lifecycle",
      "targetRequirements", "sourceMap"]
    [("schemaVersion", schemaVersion), ("kind", enum ["neutrino.capability-spec"]),
      ("specVersion", pattern isSemverText), ("procedure", string 1),
      ("trigger", orNull (string 0)), ("identity", identity), ("inputs", array 0 input),
      ("attestations", array 0 attestationPolicy), ("computes", array 0 compute),
      ("effects", array 0 effect), ("invariants", array 0 invariant),
      ("participants", array 0 participant), ("topology", topology), ("lifecycle", lifecycle),
      ("targetRequirements", targetRequirements), ("sourceMap", array 0 sourceEntry)]

end Neutrino.SpecSchema
