import Neutrino.AgreementChecks
import Neutrino.Library.Review

/-! The validator of capability specs: the diagnostics it reports of a parsed document, or the
exception that a value in an unforeseen position raises. -/

namespace Neutrino.SpecValidator

open PyJson Agreement Review

structure Diag where
  code : String
  severity : String
  message : String

def diag (code message : String) : Diag := ⟨code, "error", message⟩

abbrev Check := Review String Diag

def complainOf (wrong : Bool) (code message : String) : Check := note wrong (diag code message)

/-! Values. -/

def categories : List String :=
  ["money", "decimal", "party", "currency", "evidence", "string", "extension"]

/-- `value in names`: a list or dict cannot be looked up. -/
def memberOf (value : PyJson) (names : List String) : Except String Bool :=
  match value with
  | .str text => .ok (names.contains text)
  | .list _ => .error "TypeError: unhashable type: 'list'"
  | .dict _ => .error "TypeError: unhashable type: 'dict'"
  | _ => .ok false

def requireIn (value : PyJson) (names : List String) (code message : String) : Check :=
  after (memberOf value names) fun found => complainOf (!found) code message

/-- A non-empty string. -/
def isText : PyJson → Bool
  | .str text => text ≠ ""
  | _ => false

def isInt : PyJson → Bool
  | .int _ => true
  | _ => false

def isBool : PyJson → Bool
  | .bool _ => true
  | _ => false

def atLeastOne : PyJson → Bool
  | .int value => 1 ≤ value
  | _ => false

def isStrOrNull (value : PyJson) : Bool := isNone value || isStr value

def isTexts : PyJson → Bool
  | .list elements => elements.all isText
  | _ => false

/-- The elements of a list; anything else has none. -/
def elementsOf : PyJson → List PyJson
  | .list elements => elements
  | _ => []

/-- `set(items) == names` -/
def hasExactly (items : Dict) (names : List String) : Bool :=
  items.all (fun item => names.contains item.1) && names.all (has items)

def unknownIn (items : Dict) (allowed : List String) (code : String) (message : String → String) :
    Check :=
  overAll (fun item => complainOf (!allowed.contains item.1) code (message item.1)) items

def missingIn (items : Dict) (required : List String) (code : String)
    (message : String → String) : Check :=
  overAll (fun key => complainOf (!has items key) code (message key)) required

def unknownField (place key : String) : String := place ++ ": unknown field '" ++ key ++ "'"

def missingField (place key : String) : String := place ++ ": missing '" ++ key ++ "'"

/-- The fields of an object, or that it is none. -/
def withObject (value : PyJson) (place : String) (review : Dict → Check) : Check :=
  match value with
  | .dict items => review items
  | _ => complainOf true "spec.schema" (place ++ ": must be an object")

/-- An object of exactly these fields, whose values are looked at only then. -/
def exactObject (value : PyJson) (allowed : List String) (place : String) (review : Dict → Check) :
    Check :=
  withObject value place fun items => all [
    unknownIn items allowed "spec.schema" (unknownField place),
    missingIn items allowed "spec.schema" (missingField place),
    if hasExactly items allowed then review items else all []]

def strArray (items : Dict) (key place : String) : Check :=
  complainOf (!isTexts (get items key)) "spec.schema"
    (place ++ "." ++ key ++ " must be an array of non-empty strings")

def strOrNull (value : PyJson) (place : String) : Check :=
  complainOf (!isStrOrNull value) "spec.schema" (place ++ " must be a string or null")

def isSpan : PyJson → Bool
  | .dict items => hasExactly items ["line", "column"] && atLeastOne (get items "line") &&
      atLeastOne (get items "column")
  | _ => false

def validateSource (source : PyJson) (place : String) : Check :=
  complainOf (!isNone source && !isSpan source) "spec.schema"
    (place ++ ": source must be null or \x7bline, column\x7d (>=1)")

/-- `f"{section}[{index}]"` of each element. -/
def indexed (section' : String) (elements : List PyJson) : List (PyJson × String) :=
  elements.zipIdx.map fun element => (element.1, section' ++ "[" ++ toString element.2 ++ "]")

section Messages

/-! Python's `str` and `repr` of a value in a message. -/

variable (str repr : PyJson → String)

/-! Expressions. -/

theorem get_lt (items : Dict) (key : String) :
    sizeOf (get items key) < sizeOf (PyJson.dict items) := by
  induction items with
  | nil =>
      simp only [PyJson.get, List.lookup, Option.getD_none]
      decide
  | cons item rest ih =>
      simp only [PyJson.get, List.lookup] at ih ⊢
      obtain ⟨name, value⟩ := item
      cases key == name with
      | true =>
          simp only [Option.getD_some, PyJson.dict.sizeOf_spec, List.cons.sizeOf_spec,
            Prod.mk.sizeOf_spec]
          omega
      | false =>
          simp only [PyJson.dict.sizeOf_spec, List.cons.sizeOf_spec] at ih ⊢
          omega

theorem elementsOf_le (value : PyJson) : sizeOf (elementsOf value) ≤ sizeOf value := by
  cases value <;> simp [elementsOf]

mutual

def validateExpr (node : PyJson) (place : String) : Check :=
  match node with
  | .dict items => all [
      unknownIn items ["kind", "dtype", "num", "name", "op", "lhs", "rhs", "args"]
        "spec.unknown_field" (fun key => place ++ ": unknown ast field '" ++ key ++ "'"),
      requireIn (get items "dtype") categories "spec.bad_category"
        (place ++ ": ast dtype '" ++ str (get items "dtype") ++ "' not a value category"),
      if eqStr (get items "kind") "num" then
        complainOf (!isInt (get items "num")) "spec.schema"
          (place ++ ": num node needs integer 'num'")
      else if eqStr (get items "kind") "var" then
        complainOf (!isText (get items "name")) "spec.schema" (place ++ ": var node needs 'name'")
      else if eqStr (get items "kind") "bin" then all [
        requireIn (get items "op") ["+", "-", "*", "/"] "spec.schema"
          (place ++ ": bin node op '" ++ str (get items "op") ++ "' invalid"),
        validateExpr (get items "lhs") (place ++ ".lhs"),
        validateExpr (get items "rhs") (place ++ ".rhs")]
      else if eqStr (get items "kind") "call" then all [
        complainOf (!isText (get items "name")) "spec.schema" (place ++ ": call node needs 'name'"),
        complainOf (!isList (get items "args")) "spec.schema"
          (place ++ ": call node needs 'args' array"),
        validateArgs (elementsOf (get items "args")) place 0]
      else if eqStr (get items "kind") "cmp" then all [
        requireIn (get items "op") ["<", "<=", ">", ">=", "==", "!="] "spec.schema"
          (place ++ ": cmp node op '" ++ str (get items "op") ++ "' invalid"),
        validateExpr (get items "lhs") (place ++ ".lhs"),
        validateExpr (get items "rhs") (place ++ ".rhs")]
      else complainOf true "spec.schema"
        (place ++ ": ast kind '" ++ str (get items "kind") ++ "' invalid")]
  | _ => complainOf true "spec.schema" (place ++ ": ast node must be an object")
termination_by sizeOf node
decreasing_by
  all_goals
    have := get_lt items "lhs"
    have := get_lt items "rhs"
    have := get_lt items "args"
    have := elementsOf_le (get items "args")
    omega

def validateArgs (args : List PyJson) (place : String) (index : Nat) : Check :=
  match args with
  | [] => all []
  | arg :: rest => all [
      validateExpr arg (place ++ ".args[" ++ toString index ++ "]"),
      validateArgs rest place (index + 1)]
termination_by sizeOf args

end

mutual

/-- The names of the variables anywhere in a node. -/
def exprVars (node : PyJson) : List String :=
  match node with
  | .dict items =>
      if eqStr (get items "kind") "var" then
        match get items "name" with
        | .str name => [name]
        | _ => []
      else exprVars (get items "lhs") ++ exprVars (get items "rhs") ++
        argsVars (elementsOf (get items "args"))
  | _ => []
termination_by sizeOf node
decreasing_by
  all_goals
    have := get_lt items "lhs"
    have := get_lt items "rhs"
    have := get_lt items "args"
    have := elementsOf_le (get items "args")
    omega

def argsVars (args : List PyJson) : List String :=
  match args with
  | [] => []
  | arg :: rest => exprVars arg ++ argsVars rest
termination_by sizeOf args

end

/-! Policies and obligations. -/

def assuranceTiers : List String := ["A1", "A2", "A3", "A4"]

def validateObserverSet (observers : PyJson) (place : String) : Check :=
  withObject observers place fun items => all [
    unknownIn items ["ref", "role", "assurance", "independence"] "spec.schema"
      (unknownField place),
    missingIn items ["ref", "role"] "spec.schema" (missingField place),
    complainOf (!isText (get items "ref")) "spec.schema"
      (place ++ ".ref must be a non-empty reference"),
    if has items "role" then strOrNull (get items "role") (place ++ ".role") else all [],
    if has items "assurance" then
      requireIn (get items "assurance") assuranceTiers "kernel.attest.invalid_assurance"
        (place ++ ".assurance, when present, must be one of ['A1', 'A2', 'A3', 'A4']")
    else all [],
    if has items "independence" then
      requireIn (get items "independence") ["independent", "correlated"]
        "kernel.attest.invalid_independence"
        (place ++ ".independence, when present, must be one of ['correlated', 'independent']")
    else all []]

def validateAttestation (policy : PyJson) (place : String) : Check :=
  exactObject policy
    ["canonicalization", "fallback", "input", "observerSet", "quorum", "timeout"] place fun items =>
    all [
      complainOf (!isText (get items "input")) "spec.schema"
        (place ++ ".input must reference an evidence input"),
      exactObject (get items "quorum") ["threshold"] (place ++ ".quorum") fun quorum =>
        complainOf (!atLeastOne (get quorum "threshold")) "spec.schema"
          (place ++ ".quorum.threshold (M) must be a positive integer"),
      validateObserverSet (get items "observerSet") (place ++ ".observerSet"),
      exactObject (get items "canonicalization") ["mode", "tolerance"]
        (place ++ ".canonicalization") fun canonicalization => all [
          requireIn (get canonicalization "mode") ["exact", "median"] "spec.schema"
            (place ++ ".canonicalization.mode must be one of ['exact', 'median']"),
          strOrNull (get canonicalization "tolerance") (place ++ ".canonicalization.tolerance")],
      strOrNull (get items "timeout") (place ++ ".timeout"),
      requireIn (get items "fallback") ["abort", "escalate"] "spec.schema"
        (place ++ ".fallback must be one of ['abort', 'escalate']")]

/-- The activation predicate of an obligation. -/
def validatePredicate (when : PyJson) (place : String) : Check :=
  match when with
  | .dict items =>
      if hasExactly items ["expr", "ast"] then all [
        complainOf (!isText (get items "expr")) "spec.schema"
          (place ++ ".when.expr must be a non-empty string"),
        validateExpr str (get items "ast") (place ++ ".when.ast")]
      else complainOf true "spec.schema" (place ++ ".when must be \x7bexpr, ast\x7d")
  | _ => complainOf true "spec.schema" (place ++ ".when must be \x7bexpr, ast\x7d")

def validateObligation (obligation : PyJson) (place : String) : Check :=
  exactObject obligation
    ["authority", "beneficiary", "effects", "name", "obligor", "version", "when"] place fun items =>
    all [
      complainOf (!eqInt (get items "version") 1) "spec.schema_version"
        (place ++ ".version must be 1 (the  obligation representation)"),
      overAll (fun key => complainOf (!isText (get items key)) "spec.schema"
        (place ++ "." ++ key ++ " must be a non-empty string"))
        ["name", "obligor", "beneficiary", "authority"],
      strArray items "effects" place,
      complainOf (isList (get items "effects") && (elementsOf (get items "effects")).isEmpty)
        "spec.schema" (place ++ ".effects must be non-empty"),
      validatePredicate str (get items "when") place]

/-- An optional section of well-formed elements. -/
def validateSection (spec : Dict) (section' : String) (review : PyJson → String → Check) : Check :=
  if has spec section' then
    if isList (get spec section') then
      overAll (fun element => review element.1 element.2)
        (indexed section' (elementsOf (get spec section')))
    else complainOf true "spec.schema" (section' ++ " must be an array")
  else all []

/-! Inputs and computes. -/

def validateInput (input : PyJson) (place : String) : Check :=
  withObject input place fun items => all [
    unknownIn items ["name", "type", "category"] "spec.unknown_field" (unknownField place),
    complainOf (!isText (get items "name")) "spec.schema" (place ++ ": name required"),
    complainOf (!isText (get items "type")) "spec.schema" (place ++ ": type required"),
    requireIn (get items "category") categories "spec.bad_category"
      (place ++ ": category '" ++ str (get items "category") ++ "' invalid")]

/-- The non-empty names of the elements that have one. -/
def namesOf (elements : List PyJson) : List String :=
  elements.filterMap fun element =>
    match element with
    | .dict items =>
        match get items "name" with
        | .str name => if name ≠ "" then some name else none
        | _ => none
    | _ => none

/-- The declared inputs and computes. -/
def declaredNames (spec : Dict) : List String :=
  namesOf (elementsOf (get spec "inputs")) ++ namesOf (elementsOf (get spec "computes"))

def validateCompute (declared : List String) (compute : PyJson) (place : String) : Check :=
  withObject compute place fun items => all [
    unknownIn items ["name", "expr", "category", "deps", "ast"] "spec.unknown_field"
      (unknownField place),
    complainOf (!isText (get items "expr")) "spec.schema" (place ++ ": expr required"),
    requireIn (get items "category") categories "spec.bad_category"
      (place ++ ": category '" ++ str (get items "category") ++ "' invalid"),
    complainOf (!isList (get items "deps")) "spec.schema" (place ++ ": deps must be an array"),
    overAll (fun dep => requireIn dep declared "spec.unresolved_dep"
      (place ++ ": dep '" ++ str dep ++ "' is not a declared input/compute"))
      (elementsOf (get items "deps")),
    validateExpr str (get items "ast") (place ++ ".ast")]

/-! Effects. -/

def validateOperand (operand : PyJson) (place : String) : Check :=
  match operand with
  | .dict items => all [
      unknownIn items ["kind", "value"] "spec.unknown_field"
        (fun key => place ++ ": unknown operand field '" ++ key ++ "'"),
      requireIn (get items "kind") ["ref", "literal"] "spec.schema"
        (place ++ ": operand kind must be ref|literal"),
      complainOf (!isText (get items "value")) "spec.schema"
        (place ++ ": operand needs a non-empty value")]
  | _ => complainOf true "spec.schema" (place ++ ": operand must be an object")

/-- A reference names something declared. -/
def resolveOperand (declared : List String) (operand : PyJson) (place : String) : Check :=
  match operand with
  | .dict items =>
      if eqStr (get items "kind") "ref" then
        requireIn (get items "value") declared "spec.unresolved_ref"
          (place ++ ": ref '" ++ str (get items "value") ++ "' not a declared input/compute")
      else all []
  | _ => all []

/-- The ast of a guard is a comparison. -/
def requireCmp (ast : PyJson) (place : String) : Check :=
  match ast with
  | .dict items => complainOf (!eqStr (get items "kind") "cmp") "spec.schema"
      (place ++ ".when.ast: guard must be a cmp predicate")
  | _ => all []

def validateWhen (declared : List String) (when : PyJson) (place : String) : Check :=
  match when with
  | .none => all []
  | .dict items =>
      if items.all (fun item => ["expr", "ast"].contains item.1) then all [
        complainOf (!isText (get items "expr")) "spec.schema" (place ++ ".when: expr required"),
        validateExpr str (get items "ast") (place ++ ".when.ast"),
        requireCmp (get items "ast") place,
        overAll (fun name => complainOf (!declared.contains name) "spec.unresolved_ref"
          (place ++ ".when.ast: var '" ++ name ++ "' is not a declared input/compute"))
          (exprVars (get items "ast"))]
      else complainOf true "spec.schema" (place ++ ".when: must be an object \x7bexpr, ast\x7d")
  | _ => complainOf true "spec.schema" (place ++ ".when: must be an object \x7bexpr, ast\x7d")

def validateParticipantRef (participants : List String) (participant : PyJson) (place : String) :
    Check :=
  match participant with
  | .none => all []
  | .str name =>
      if name = "" then
        complainOf true "spec.schema" (place ++ ": participant must be string|null")
      else complainOf (!participants.contains name) "spec.unresolved_participant"
        (place ++ ": participant '" ++ name ++ "' not declared")
  | _ => complainOf true "spec.schema" (place ++ ": participant must be string|null")

def validateEffect (declared participants : List String) (effect : PyJson) (place : String) :
    Check :=
  withObject effect place fun items => all [
    unknownIn items ["kind", "name", "ledger", "owner", "participant", "party", "amount",
      "currency", "idempotencyKey", "when", "memo"] "spec.unknown_field" (unknownField place),
    complainOf (has items "memo" && !isText (get items "memo")) "spec.schema"
      (place ++ ".memo: must be a non-empty string"),
    validateWhen str declared (get items "when") place,
    requireIn (get items "kind") ["debit", "credit"] "spec.schema"
      (place ++ ": kind must be debit|credit"),
    overAll (fun key => complainOf (!isText (get items key)) "spec.schema"
      (place ++ ": " ++ key ++ " required")) ["name", "ledger", "owner"],
    validateParticipantRef participants (get items "participant") place,
    overAll (fun key => all [validateOperand (get items key) (place ++ "." ++ key),
      resolveOperand str declared (get items key) (place ++ "." ++ key)])
      ["party", "amount", "currency", "idempotencyKey"]]

def validateInvariant (invariant : PyJson) (place : String) : Check :=
  complainOf (match invariant with
    | .dict items => !(eqStr (get items "kind") "balanced" && hasExactly items ["kind"])
    | _ => true) "spec.schema" (place ++ ": must be \x7bkind: balanced\x7d")

/-! Participants and topology. -/

def validateParticipant (participant : PyJson) (place : String) : Check :=
  withObject participant place fun items => all [
    unknownIn items ["name", "role", "org", "capabilities", "binding", "bindRuntimes",
      "bindMinAssurance"] "spec.unknown_field" (unknownField place),
    complainOf (!isText (get items "name")) "spec.schema" (place ++ ": name required"),
    requireIn (get items "binding") ["fixed", "to_be_bound"] "kernel.binding.invalid_mode"
      (place ++ ": binding must be fixed|to_be_bound"),
    requireIn (get items "bindMinAssurance") ["", "A1", "A2", "A3", "A4"]
      "kernel.binding.invalid_assurance" (place ++ ": bindMinAssurance invalid"),
    strArray items "capabilities" place,
    strArray items "bindRuntimes" place]

def validatePair (pair : PyJson) (place : String) : Check :=
  withObject pair place fun items => all [
    unknownIn items ["orgA", "orgB", "roleA", "roleB"] "spec.unknown_field" (unknownField place),
    overAll (fun key => complainOf (!isText (get items key)) "spec.schema"
      (place ++ ": " ++ key ++ " required")) ["orgA", "orgB"],
    overAll (fun key => complainOf (!isStr (get items key)) "spec.schema"
      (place ++ ": " ++ key ++ " must be a string")) ["roleA", "roleB"]]

def validateTopology (topology : PyJson) : Check :=
  match topology with
  | .dict items => all [
      unknownIn items ["allowedOrgPairs"] "spec.unknown_field" (unknownField "topology"),
      complainOf (!isList (get items "allowedOrgPairs")) "spec.schema"
        "topology.allowedOrgPairs must be an array",
      overAll (fun pair => validatePair pair.1 pair.2)
        (indexed "topology.allowedOrgPairs" (elementsOf (get items "allowedOrgPairs")))]
  | _ => complainOf true "spec.schema" "topology must be an object"

/-! The projections. -/

def validateSourceEntry (entry : PyJson) (place : String) : Check :=
  withObject entry place fun items => all [
    unknownIn items ["specPath", "construct", "source"] "spec.unknown_field" (unknownField place),
    complainOf (!isText (get items "specPath")) "spec.schema" (place ++ ": specPath required"),
    complainOf (!isText (get items "construct")) "spec.schema" (place ++ ": construct required"),
    if has items "source" then validateSource (get items "source") place
    else complainOf true "spec.missing_field" (place ++ ": missing 'source' (use null if unset)")]

def validateRequirement (requirement : PyJson) (place : String) : Check :=
  withObject requirement place fun items => all [
    unknownIn items ["feature", "primitive", "source", "requirement", "fallback"]
      "spec.unknown_field" (unknownField place),
    overAll (fun key => complainOf (!isText (get items key)) "spec.schema"
      (place ++ ": " ++ key ++ " required")) ["feature", "primitive"],
    requireIn (get items "requirement") ["required", "optional"] "spec.schema"
      (place ++ ": requirement must be required|optional"),
    complainOf (!isNone (get items "fallback") && !isText (get items "fallback")) "spec.schema"
      (place ++ ": fallback must be a string or null"),
    validateSource (get items "source") place]

def validateTargetRequirements (requirements : PyJson) : Check :=
  match requirements with
  | .dict items => all [
      unknownIn items ["requirements", "evidenceStyle", "unsupportedConstructs"]
        "spec.unknown_field" (unknownField "targetRequirements"),
      missingIn items ["evidenceStyle", "requirements", "unsupportedConstructs"]
        "spec.missing_field" (missingField "targetRequirements"),
      complainOf (!isList (get items "requirements")) "spec.schema"
        "targetRequirements.requirements must be an array",
      overAll (fun requirement => validateRequirement requirement.1 requirement.2)
        (indexed "targetRequirements.requirements" (elementsOf (get items "requirements"))),
      requireIn (get items "evidenceStyle") ["single_hash", "batched_root"] "spec.schema"
        "targetRequirements.evidenceStyle must be single_hash|batched_root",
      strArray items "unsupportedConstructs" "targetRequirements"]
  | _ => complainOf true "spec.schema" "targetRequirements must be an object"

/-! The lifecycle. -/

def isState : PyJson → Bool
  | .dict items => isText (get items "name") && isBool (get items "terminal")
  | _ => false

def validateState (state : PyJson) (place : String) : Check :=
  match state with
  | .dict items =>
      if isText (get items "name") && isBool (get items "terminal") then all [
        unknownIn items ["name", "terminal", "terminalKind"] "spec.unknown_field"
          (unknownField place),
        if has items "terminalKind" then all [
          requireIn (get items "terminalKind") ["success", "aborted", "contested"]
            "spec.terminal_kind" (place ++ ": terminalKind invalid"),
          complainOf (!truthy (get items "terminal")) "spec.bad_terminal_state"
            (place ++ ": terminalKind on a non-terminal state")]
        else all []]
      else complainOf true "spec.schema" (place ++ ": needs name + terminal bool")
  | _ => complainOf true "spec.schema" (place ++ ": needs name + terminal bool")

/-- `states[name] = state` -/
def setState (name : String) (state : Dict) : List (String × Dict) → List (String × Dict)
  | [] => [(name, state)]
  | first :: rest =>
      if first.1 = name then (name, state) :: rest else first :: setState name state rest

def addState (states : List (String × Dict)) (state : PyJson) : List (String × Dict) :=
  match state with
  | .dict items =>
      match get items "name" with
      | .str name => if isState state then setState name items states else states
      | _ => states
  | _ => states

/-- The declared states, a later one of a name over an earlier one. -/
def declaredStates (lifecycle : Dict) : List (String × Dict) :=
  (elementsOf (get lifecycle "states")).foldl addState []

def isGuard : PyJson → Except String Bool
  | .dict items =>
      if items.all (fun item => ["kind", "detail"].contains item.1) then
        memberOf (get items "kind") ["participant", "deadline", "sequence"]
      else .ok false
  | _ => .ok false

def validateGuard (guard : PyJson) (place : String) : Check :=
  after (isGuard guard) fun shaped =>
    if !shaped then complainOf true "spec.schema"
      (place ++ ": must be \x7bkind: participant|deadline|sequence, detail?\x7d")
    else match guard with
      | .dict items => complainOf (has items "detail" && !isStr (get items "detail"))
          "spec.schema" (place ++ ": detail must be a string")
      | _ => all []

def isEvidence : PyJson → Except String Bool
  | .none => .ok true
  | .dict items =>
      if hasExactly items ["style", "chained"] then
        (memberOf (get items "style") ["single_hash", "batched_root"]).map fun found =>
          found && isBool (get items "chained")
      else .ok false
  | _ => .ok false

def validateTransition (states : List String) (transition : PyJson) (place : String) : Check :=
  withObject transition place fun items => all [
    unknownIn items ["name", "from", "to", "effects", "guards", "idempotency", "evidence"]
      "spec.unknown_field" (unknownField place),
    complainOf (!isText (get items "name")) "spec.schema" (place ++ ": name required"),
    overAll (fun key => requireIn (get items key) states "spec.bad_transition"
      (place ++ ": " ++ key ++ " '" ++ str (get items key) ++ "' is not a declared state"))
      ["from", "to"],
    requireIn (get items "idempotency") ["reject", "noop_on_identical"]
      "spec.transition_idempotency" (place ++ ": idempotency must be reject|noop_on_identical"),
    complainOf (!isList (get items "effects")) "spec.schema" (place ++ ": effects must be an array"),
    overAll (fun effect => requireIn effect ["post", "compensate", "reserve", "consume", "release"]
      "spec.transition_effect" (place ++ ": effect '" ++ str effect ++ "' invalid"))
      (elementsOf (get items "effects")),
    complainOf (!isList (get items "guards")) "spec.schema" (place ++ ": guards must be an array"),
    overAll (fun guard => validateGuard guard.1 guard.2)
      (indexed (place ++ ".guards") (elementsOf (get items "guards"))),
    after (isEvidence (get items "evidence")) fun shaped => complainOf (!shaped) "spec.schema"
      (place ++ ": evidence must be null or \x7bstyle, chained\x7d")]

/-- The states that a transition leaves. -/
def leftStates (transitions : List PyJson) : List String :=
  transitions.filterMap fun transition =>
    match transition with
    | .dict items =>
        match get items "from" with
        | .str name => some name
        | _ => none
    | _ => none

def validateDeadEnd (froms : List String) (state : String × Dict) : Check :=
  complainOf (!truthy (get state.2 "terminal") && !froms.contains state.1) "spec.dead_end_state"
    ("lifecycle: non-terminal state '" ++ state.1 ++ "' has no outgoing transition")

/-- A terminal of a kind is a declared terminal state of this kind. -/
def validateTerminal (states : List (String × Dict)) (terminal : String × PyJson) : Check :=
  let place := "lifecycle.terminalStates." ++ terminal.1 ++ " '" ++ str terminal.2
  match terminal.2 with
  | .none => all []
  | .str name =>
      match states.lookup name with
      | Option.none => complainOf true "spec.bad_terminal_state" (place ++ "' is not a declared state")
      | some state =>
          if !truthy (get state "terminal") then
            complainOf true "spec.bad_terminal_state" (place ++ "' is not terminal")
          else complainOf (!eqStr (get state "terminalKind") terminal.1) "spec.bad_terminal_state"
            (place ++ "' points to terminalKind " ++ repr (get state "terminalKind"))
  | value => after (memberOf value []) fun _ =>
      complainOf true "spec.bad_terminal_state" (place ++ "' is not a declared state")

def validateInstanceKey (instanceKey : PyJson) : Check :=
  match instanceKey with
  | .dict items =>
      if items.all (fun item => ["fields", "declared"].contains item.1) then all [
        strArray items "fields" "lifecycle.instanceKey",
        complainOf (has items "declared" && !isStr (get items "declared")) "spec.schema"
          "lifecycle.instanceKey.declared must be a string"]
      else complainOf true "spec.schema"
        "lifecycle.instanceKey must be \x7bfields: [...], declared?: str\x7d"
  | _ => complainOf true "spec.schema"
      "lifecycle.instanceKey must be \x7bfields: [...], declared?: str\x7d"

def lifecycleFields : List String :=
  ["initialState", "instanceKey", "states", "terminalStates", "transitions"]

def validateTerminalStates (states : List (String × Dict)) (terminals : PyJson) : Check :=
  match terminals with
  | .dict items =>
      if hasExactly items ["success", "aborted", "contested"] then
        overAll (validateTerminal str repr states) items
      else complainOf true "spec.schema"
        "lifecycle.terminalStates must be \x7bsuccess, aborted, contested\x7d"
  | _ => complainOf true "spec.schema"
      "lifecycle.terminalStates must be \x7bsuccess, aborted, contested\x7d"

def stateNames (lifecycle : Dict) : List String := (declaredStates lifecycle).map (·.1)

def validateLifecycle (lifecycle : PyJson) : Check :=
  match lifecycle with
  | .dict items => all [
      unknownIn items lifecycleFields "spec.unknown_field" (unknownField "lifecycle"),
      missingIn items lifecycleFields "spec.missing_field" (missingField "lifecycle"),
      validateInstanceKey (get items "instanceKey"),
      complainOf (!isList (get items "states")) "spec.schema" "lifecycle.states must be an array",
      complainOf (!isList (get items "transitions")) "spec.schema"
        "lifecycle.transitions must be an array",
      overAll (fun state => validateState state.1 state.2)
        (indexed "lifecycle.states" (elementsOf (get items "states"))),
      requireIn (get items "initialState") (stateNames items) "spec.bad_initial_state"
        ("lifecycle.initialState '" ++ str (get items "initialState") ++
          "' is not a declared state"),
      overAll (fun transition =>
        validateTransition str (stateNames items) transition.1 transition.2)
        (indexed "lifecycle.transitions" (elementsOf (get items "transitions"))),
      overAll (validateDeadEnd (leftStates (elementsOf (get items "transitions"))))
        (declaredStates items),
      validateTerminalStates str repr (declaredStates items) (get items "terminalStates")]
  | _ => complainOf true "spec.schema" "lifecycle must be an object"

/-! The document. -/

def topFields : List String :=
  ["computes", "effects", "identity", "inputs", "invariants", "kind", "lifecycle", "participants",
    "procedure", "schemaVersion", "sourceMap", "specVersion", "targetRequirements", "topology",
    "trigger"]

def optionalTopFields : List String := ["attestations", "obligations"]

def isGuarded : PyJson → Bool
  | .dict items => !isNone (get items "when")
  | _ => false

def expectedVersion (spec : Dict) : Int :=
  if truthy (get spec "obligations") then 4
  else if truthy (get spec "attestations") then 3
  else if (elementsOf (get spec "effects")).any isGuarded then 2
  else 1

def versionReason (version : Int) : String :=
  if version = 1 then "an unguarded spec is 1"
  else if version = 2 then "a guarded spec is 2"
  else if version = 3 then "an attested spec is 3"
  else "an obligation-bearing spec is 4"

def isSemver : PyJson → Bool
  | .str text => matchesSemver text
  | _ => false

def validateIdentity (identity : PyJson) : Check :=
  match identity with
  | .dict items =>
      if hasExactly items ["capabilityHash", "specHash"] then
        overAll (fun key => complainOf (!isHexDigest (get items key)) "spec.bad_hash"
          ("identity." ++ key ++ " must be 64-hex")) ["capabilityHash", "specHash"]
      else complainOf true "spec.schema" "identity must be \x7bcapabilityHash, specHash\x7d"
  | _ => complainOf true "spec.schema" "identity must be \x7bcapabilityHash, specHash\x7d"

def arraySections : List String :=
  ["inputs", "computes", "effects", "invariants", "participants", "sourceMap"]

/-- The elements of a section, wherever it is an array. -/
def validateElements (spec : Dict) (section' : String) (review : PyJson → String → Check) : Check :=
  overAll (fun element => review element.1 element.2)
    (indexed section' (elementsOf (get spec section')))

/-- Every check but those of the hashes. -/
def validateShape (spec : Dict) : Check :=
  let declared := declaredNames spec
  let participants := namesOf (elementsOf (get spec "participants"))
  all [
    overAll (fun item => complainOf (!(topFields ++ optionalTopFields).contains item.1)
      "spec.unknown_field" ("top-level: unknown field '" ++ item.1 ++ "'")) spec,
    missingIn spec topFields "spec.missing_field" (missingField "top-level"),
    validateSection spec "attestations" validateAttestation,
    validateSection spec "obligations" (validateObligation str),
    complainOf (!eqInt (get spec "schemaVersion") (expectedVersion spec)) "spec.schema_version"
      ("schemaVersion must be " ++ toString (expectedVersion spec) ++ " (" ++
        versionReason (expectedVersion spec) ++ ")"),
    complainOf (!eqStr (get spec "kind") "neutrino.capability-spec") "spec.schema"
      "kind must be 'neutrino.capability-spec'",
    complainOf (!isSemver (get spec "specVersion")) "spec.schema"
      "specVersion must be a semver string",
    complainOf (!isText (get spec "procedure")) "spec.schema"
      "procedure must be a non-empty string",
    complainOf (!isNone (get spec "trigger") && !isText (get spec "trigger")) "spec.schema"
      "trigger must be a string or null",
    validateIdentity (get spec "identity"),
    overAll (fun key => complainOf (has spec key && !isList (get spec key)) "spec.schema"
      (key ++ " must be an array")) arraySections,
    validateElements spec "inputs" (validateInput str),
    validateElements spec "computes" (validateCompute str declared),
    validateElements spec "effects" (validateEffect str declared participants),
    validateElements spec "invariants" validateInvariant,
    validateElements spec "participants" validateParticipant,
    validateTopology (get spec "topology"),
    validateElements spec "sourceMap" validateSourceEntry,
    validateLifecycle str repr (get spec "lifecycle"),
    validateTargetRequirements (get spec "targetRequirements")]

/-- What keeps the hashes from being recomputed. -/
def isStructural (found : Diag) : Bool :=
  ["spec.schema", "spec.missing_field", "spec.unknown_field"].any
    (fun stem => stem.toList.isPrefixOf found.code.toList) ||
  ["kernel.attest.invalid_assurance", "kernel.attest.invalid_independence",
    "kernel.binding.invalid_mode", "kernel.binding.invalid_assurance", "spec.terminal_kind",
    "spec.transition_idempotency", "spec.transition_effect"].contains found.code

section Hashes

variable (float : Rat → String) (sha256Hex : List UInt8 → String)

/-- The digest of a document in its compact form. -/
def digest (document : PyJson) : String := sha256Hex (utf8 (dumps float document))

/-- The document with its own digest left out of its identity. -/
def specItems (spec : Dict) (capabilityHash : PyJson) : Dict :=
  spec.map fun item =>
    if item.1 = "identity" then (item.1, .dict [("capabilityHash", capabilityHash)]) else item

def checkHashes (spec : Dict) : Check :=
  match get spec "identity" with
  | .dict identity =>
      let capability := digest float sha256Hex (.dict (semanticItems spec))
      let whole := digest float sha256Hex (.dict (specItems spec (get identity "capabilityHash")))
      all [
        complainOf (!eqStr (get identity "capabilityHash") capability) "spec.hash_mismatch"
          "identity.capabilityHash does not match the recomputed digest",
        complainOf (!eqStr (get identity "specHash") whole) "spec.hash_mismatch"
          "identity.specHash does not match the recomputed digest"]
  | _ => .error "AttributeError: object has no attribute 'get'"

def inOrder (first second : Diag) : Bool :=
  first.code < second.code || first.code = second.code && first.message ≤ second.message

/-- The hashes are recomputed only of a document that is structurally sound. -/
def hashesAfter (found : List Diag) (spec : Dict) : Check :=
  if found.any isStructural then all [] else checkHashes float sha256Hex spec

/-- The diagnostics of a document, in order of their codes and messages. -/
def validate (spec : PyJson) : Except String (List Diag) :=
  match spec with
  | .dict items => do
      let found ← validateShape str repr items
      let hashes ← hashesAfter float sha256Hex found items
      return (found ++ hashes).mergeSort inOrder
  | _ => .ok [diag "spec.schema" "top-level must be a JSON object"]

end Hashes

end Messages

end Neutrino.SpecValidator
