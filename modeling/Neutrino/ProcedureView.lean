import Neutrino.CoordinationPlan

/-! A procedure as the dialect holds it, the verifier of its expressions, and the view that every
renderer reads off it. -/

namespace Neutrino

open Checked

/-! Expressions as attributes: a variable is a slot of the operation's dependencies. -/

inductive ExprAttr
  | num (dtype : ValueCategory) (value : Int64)
  | var (dtype : ValueCategory) (slot : Nat)
  | bin (dtype : ValueCategory) (binop : Char) (lhs rhs : ExprAttr)
  | cmp (dtype : ValueCategory) (name : String) (lhs rhs : ExprAttr)
  | call (dtype : ValueCategory) (name : String) (args : List ExprAttr)

def ExprAttr.dtype : ExprAttr → ValueCategory
  | .num dtype _ => dtype
  | .var dtype _ => dtype
  | .bin dtype _ _ _ => dtype
  | .cmp dtype _ _ _ => dtype
  | .call dtype _ _ => dtype

mutual

/-- The grammar of an attribute, which holds of each of its children too. -/
def ExprAttr.verify : ExprAttr → Except String Unit
  | .num _ _ => .ok ()
  | .var _ _ => .ok ()
  | .bin _ binop lhs rhs => do
      lhs.verify
      rhs.verify
      require (binop ∈ ['+', '-', '*', '/'])
        "neutrino.expr bin needs a +-*/ operator and two children"
  | .cmp _ name lhs rhs => do
      lhs.verify
      rhs.verify
      require (name ∈ ["<", "<=", ">", ">=", "==", "!="])
        "neutrino.expr cmp needs a comparison operator and two children"
  | .call _ name args => do
      ExprAttr.verifyAll args
      require (args.length ≠ 0 ∧ name ≠ "") "neutrino.expr call needs a callee and >=1 arg"

def ExprAttr.verifyAll : List ExprAttr → Except String Unit
  | [] => .ok ()
  | arg :: rest => do
      arg.verify
      ExprAttr.verifyAll rest

end

mutual

/-- The expression of an attribute, each slot by the name of its dependency. -/
def toExprNode : ExprAttr → List String → ExprNode
  | .num dtype value, _ => .num value dtype
  | .var dtype slot, depSyms => .var (depSyms.getD slot "") dtype
  | .bin dtype binop lhs rhs, depSyms =>
      .bin binop (toExprNode lhs depSyms) (toExprNode rhs depSyms) dtype
  | .cmp dtype name lhs rhs, depSyms =>
      .cmp name (toExprNode lhs depSyms) (toExprNode rhs depSyms) dtype
  | .call dtype name args, depSyms => .call name (toExprNodes args depSyms) dtype

def toExprNodes : List ExprAttr → List String → List ExprNode
  | [], _ => []
  | arg :: rest, depSyms => toExprNode arg depSyms :: toExprNodes rest depSyms

end

mutual

def collectSlots : ExprAttr → List Nat
  | .num _ _ => []
  | .var _ slot => [slot]
  | .bin _ _ lhs rhs => collectSlots lhs ++ collectSlots rhs
  | .cmp _ _ lhs rhs => collectSlots lhs ++ collectSlots rhs
  | .call _ _ args => collectAllSlots args

def collectAllSlots : List ExprAttr → List Nat
  | [] => []
  | arg :: rest => collectSlots arg ++ collectAllSlots rest

end

/-! Operations. -/

/-- A value, by the operation that defines it. -/
inductive Value
  | const (value : String)
  | input (symName ty : String)
  | compute (symName : String) (deps : List Value)
  | other

structure EntryOp where
  party : Value
  amount : Value
  currency : Value
  idempotencyKey : Value
  guardDeps : List Value
  symName : String
  ledger : String
  owner : String
  participant : Option String
  guard : Option String
  guardAst : Option ExprAttr
  memo : Option String

structure ParticipantOp where
  symName : String
  role : String
  capabilities : List String
  org : Option String
  binding : Option String
  bindRuntimes : List String
  bindMinAssurance : Option String

structure AllowOrgsOp where
  orgA : String
  orgB : String
  roleA : Option String
  roleB : Option String

structure AttestOp where
  input : String
  quorum : Int64
  observerSet : String
  canonicalization : String
  fallback : String
  observerRole : Option String
  tolerance : Option String
  timeout : Option String
  assurance : Option String
  independence : Option String

structure ObligationOp where
  whenDeps : List Value
  symName : String
  obligor : String
  beneficiary : String
  authority : String
  when : Option String
  whenAst : Option ExprAttr
  effects : List String

inductive Op
  | const (value : String)
  | input (symName ty : String)
  | compute (deps : List Value) (symName expr : String) (ast : ExprAttr)
  | debit (entry : EntryOp)
  | credit (entry : EntryOp)
  | assertBalanced
  | participant (op : ParticipantOp)
  | allowOrgs (op : AllowOrgsOp)
  | attest (op : AttestOp)
  | obligation (op : ObligationOp)

/-- An operation and the source line it starts at; zero when unknown. -/
structure Located where
  op : Op
  line : Nat

structure ProcedureOp where
  symName : String
  trigger : Option String
  version : Option String
  instanceKey : Option String
  body : List Located

/-! The verifier of expressions. -/

/-- The category of every input and compute of the procedure; a later name hides an earlier one. -/
def procEnv (proc : ProcedureOp) : CategoryEnv :=
  proc.body.foldl (fun env located =>
    match located.op with
    | .input symName ty => env.insert symName (classifyValueType ty)
    | .compute _ symName _ ast => env.insert symName ast.dtype
    | _ => env) ∅

def depSymbol : Value → String
  | .input symName _ => symName
  | .compute symName _ => symName
  | _ => ""

def depSymbols (deps : List Value) : List String := deps.map depSymbol

/-- Every dependency is a declared value, and none is listed twice. -/
def verifyDeps (what : String) (seen : List String) : List (String × Nat) → Except String Unit
  | [] => .ok ()
  | (symbol, index) :: rest => do
      require (symbol ≠ "") ("[expr.slot] " ++ what ++ " dependency " ++ toString index ++
        " is not a declared input/compute value")
      require (symbol ∉ seen) ("[expr.slot] " ++ what ++ " declares dependency '" ++ symbol ++
        "' more than once")
      verifyDeps what (symbol :: seen) rest

/-- Slots and dependencies stand for each other. -/
def verifyDepBijection (ast : ExprAttr) (deps : List Value) (what : String) :
    Except String Unit := do
  verifyDeps what [] (depSymbols deps).zipIdx
  each (fun slot => require (slot < deps.length) ("[expr.slot] " ++ what ++
    " var leaf references dep slot " ++ toString slot ++ " but the op declares " ++
    toString deps.length ++ " dependenc" ++ (if deps.length = 1 then "y" else "ies")))
    (collectSlots ast)
  each (fun index => require (index ∈ collectSlots ast) ("[expr.slot] " ++ what ++
    " declares dependency " ++ toString index ++ " that no expression leaf uses"))
    (List.range deps.length)

mutual

/-- Every node carries the category that inference gives it. -/
def verifyCarriedDtypes (what : String) (attr : ExprAttr) (node : ExprNode) :
    Except String Unit := do
  require (attr.dtype = node.dtype) ("[expr.type] " ++ what ++ " node carries dtype '" ++
    categoryName attr.dtype ++ "' but its inferred category is '" ++ categoryName node.dtype ++ "'")
  match attr, node with
  | .bin _ _ lhs rhs, .bin _ left right _ => do
      verifyCarriedDtypes what lhs left
      verifyCarriedDtypes what rhs right
  | .cmp _ _ lhs rhs, .cmp _ left right _ => do
      verifyCarriedDtypes what lhs left
      verifyCarriedDtypes what rhs right
  | .call _ _ args, .call _ nodes _ => verifyAllCarriedDtypes what args nodes
  | _, _ => .ok ()

def verifyAllCarriedDtypes (what : String) : List ExprAttr → List ExprNode → Except String Unit
  | arg :: rest, node :: nodes => do
      verifyCarriedDtypes what arg node
      verifyAllCarriedDtypes what rest nodes
  | _, _ => .ok ()

end

/-- How a value counts as an operand: by a governed type, or not at all. -/
inductive Nature
  | numeric
  | governedNonNumeric
  | unconstrained
  deriving DecidableEq

/-- One non-numeric dependency makes a value non-numeric, else one numeric makes it numeric. -/
def joinNature (natures : List Nature) : Nature :=
  if .governedNonNumeric ∈ natures then .governedNonNumeric
  else if .numeric ∈ natures then .numeric
  else .unconstrained

mutual

def resolveNature : Value → Nature
  | .input _ ty =>
      if !isCanonicalCategory (classifyValueType ty) then .unconstrained
      else if isNumericCategory (classifyValueType ty) then .numeric
      else .governedNonNumeric
  | .compute _ deps => joinNature (resolveNatures deps)
  | _ => .unconstrained

def resolveNatures : List Value → List Nature
  | [] => []
  | dep :: rest => resolveNature dep :: resolveNatures rest

end

def describeOperand : Value → String
  | .input symName ty => "input '" ++ symName ++ "' typed '" ++ ty ++ "'"
  | .compute symName _ => "compute '" ++ symName ++ "'"
  | _ => "operand"

def verifyEntryOperand (value : Value) (role : String) (requireNumeric : Bool) :
    Except String Unit :=
  let numeric := resolveNature value == .numeric
  require (resolveNature value = .unconstrained ∨ numeric = requireNumeric)
    ("[value_type.mismatch] " ++ role ++ " operand must be " ++
      (if requireNumeric then "a numeric (money/decimal)"
        else "a non-numeric (party / currency / string)") ++ " value, but " ++
      describeOperand value ++ " is " ++ (if numeric then "numeric" else "governed non-numeric"))

def verifyEntry (party amount currency : Value) : Except String Unit := do
  verifyEntryOperand party "party" false
  verifyEntryOperand amount "amount" true
  verifyEntryOperand currency "currency" false

section Verifier

/-! The parser of the source text, which the verifier compares the attribute with. -/

variable (parse : Bool → String → Except ExprError ExprNode)

/-- The dependencies are the attribute's own, its text says the same, and inference accepts it with
the categories it carries. -/
def verifyTypedExpr (env : CategoryEnv) (ast : ExprAttr) (deps : List Value) (text : String)
    (guard : Bool) : Except String Unit := do
  let what := if guard then "guard" else "compute"
  ast.verify
  verifyDepBijection ast deps what
  let node := toExprNode ast (depSymbols deps)
  let fromText ← (parse guard text).mapError fun failure =>
    "[" ++ failure.code ++ "] " ++ what ++ " provenance text does not parse: " ++ failure.message
  require (structuralKey fromText = structuralKey node) ("[expr.provenance] " ++ what ++
    " text '" ++ text ++ "' does not match the structured ast")
  let typed ← (if guard then typeGuard env node else typeExpr env node).mapError fun failure =>
    "[" ++ failure.code ++ "] " ++ failure.message
  verifyCarriedDtypes what ast typed

def verifyEntryOp (env : CategoryEnv) (entry : EntryOp) : Except String Unit := do
  verifyEntry entry.party entry.amount entry.currency
  require (entry.guard.isSome = entry.guardAst.isSome)
    "[expr.provenance] guard text and guard ast must be both present or both absent"
  match entry.guardAst with
  | some ast => verifyTypedExpr parse env ast entry.guardDeps (entry.guard.getD "") true
  | none => .ok ()

/-- The checks on the computes and the entries of a verified procedure. -/
structure ProcedureOp.Verified (proc : ProcedureOp) : Prop where
  compute : ∀ deps symName expr ast line, ⟨.compute deps symName expr ast, line⟩ ∈ proc.body →
    verifyTypedExpr parse (procEnv proc) ast deps expr false = .ok ()
  debit : ∀ entry line, ⟨.debit entry, line⟩ ∈ proc.body →
    verifyEntryOp parse (procEnv proc) entry = .ok ()
  credit : ∀ entry line, ⟨.credit entry, line⟩ ∈ proc.body →
    verifyEntryOp parse (procEnv proc) entry = .ok ()

end Verifier

/-! The view. -/

/-- An operand: a literal, or the name of an input or compute. -/
structure Ref where
  isLit : Bool
  text : String
  deriving DecidableEq

structure EntryView where
  kind : String
  name : String
  ledger : String
  owner : String
  participant : String
  party : Ref
  amount : Ref
  currency : Ref
  idempotencyKey : Ref
  guard : String
  guardAst : Option ExprNode
  memo : String

structure ComputeView where
  name : String
  expr : String
  deps : List String
  ast : ExprNode

structure ObligationView where
  name : String
  obligor : String
  beneficiary : String
  authority : String
  when : String
  whenAst : Option ExprNode
  effects : List String

structure ParticipantView where
  name : String
  role : String
  org : String
  capabilities : List String
  binding : String
  bindRuntimes : List String
  bindMinAssurance : String

def ParticipantView.isFlexible (participant : ParticipantView) : Bool :=
  participant.binding = "to_be_bound"

structure OrgPolicy where
  orgA : String
  orgB : String
  roleA : String
  roleB : String

structure ProcedureView where
  name : String
  trigger : Option String
  version : String
  instanceKey : Option String
  inputs : List (String × String)
  participants : List ParticipantView
  allowedOrgPairs : List OrgPolicy
  computes : List ComputeView
  entries : List EntryView
  obligations : List ObligationView
  balanced : Bool
  attestations : List AttestationPolicy
  inputLines : List Nat
  computeLines : List Nat
  entryLines : List Nat
  participantLines : List Nat
  allowLines : List Nat
  attestationLines : List Nat
  assertLine : Nat

def refOf : Value → Ref
  | .const value => ⟨true, value⟩
  | .input symName _ => ⟨false, symName⟩
  | .compute symName _ => ⟨false, symName⟩
  | .other => ⟨false, "?"⟩

def buildEntry (kind : String) (entry : EntryOp) : EntryView where
  kind := kind
  name := entry.symName
  ledger := entry.ledger
  owner := entry.owner
  participant := entry.participant.getD ""
  party := refOf entry.party
  amount := refOf entry.amount
  currency := refOf entry.currency
  idempotencyKey := refOf entry.idempotencyKey
  guard := entry.guard.getD ""
  guardAst := entry.guard.bind fun _ => entry.guardAst.map fun ast =>
    toExprNode ast (entry.guardDeps.map fun dep => (refOf dep).text)
  memo := entry.memo.getD ""

def inputView : Op → Option (String × String)
  | .input symName ty => some (symName, ty)
  | _ => none

def computeView : Op → Option ComputeView
  | .compute deps symName expr ast =>
      let names := deps.map fun dep => (refOf dep).text
      some ⟨symName, expr, names, toExprNode ast names⟩
  | _ => none

def entryView : Op → Option EntryView
  | .debit entry => some (buildEntry "debit" entry)
  | .credit entry => some (buildEntry "credit" entry)
  | _ => none

def participantView : Op → Option ParticipantView
  | .participant op => some {
      name := op.symName
      role := op.role
      org := op.org.getD ""
      capabilities := op.capabilities
      binding := op.binding.getD ""
      bindRuntimes := op.bindRuntimes
      bindMinAssurance := op.bindMinAssurance.getD "" }
  | _ => none

def allowView : Op → Option OrgPolicy
  | .allowOrgs op => some ⟨op.orgA, op.orgB, op.roleA.getD "", op.roleB.getD ""⟩
  | _ => none

def attestView : Op → Option AttestationPolicy
  | .attest op => some {
      input := op.input
      quorum := int32OfInt64 op.quorum
      observerSet := op.observerSet
      observerRole := op.observerRole.getD ""
      assurance := op.assurance.getD ""
      independence := op.independence.getD ""
      canonicalization := op.canonicalization
      tolerance := op.tolerance.getD ""
      timeout := op.timeout.getD ""
      fallback := op.fallback }
  | _ => none

def obligationView : Op → Option ObligationView
  | .obligation op => some {
      name := op.symName
      obligor := op.obligor
      beneficiary := op.beneficiary
      authority := op.authority
      when := op.when.getD ""
      whenAst := op.when.bind fun _ => op.whenAst.map fun ast =>
        toExprNode ast (op.whenDeps.map fun dep => (refOf dep).text)
      effects := op.effects }
  | _ => none

def isAssertBalanced : Op → Bool
  | .assertBalanced => true
  | _ => false

/-- The operations that a view takes up, with the lines they start at. -/
def viewed {α : Type} (take : Op → Option α) (body : List Located) : List (α × Nat) :=
  body.filterMap fun located => (take located.op).map fun taken => (taken, located.line)

def viewOf (proc : ProcedureOp) : ProcedureView where
  name := proc.symName
  trigger := proc.trigger
  version := proc.version.getD "0.1.0"
  instanceKey := proc.instanceKey
  inputs := (viewed inputView proc.body).map (·.1)
  participants := (viewed participantView proc.body).map (·.1)
  allowedOrgPairs := (viewed allowView proc.body).map (·.1)
  computes := (viewed computeView proc.body).map (·.1)
  entries := (viewed entryView proc.body).map (·.1)
  obligations := (viewed obligationView proc.body).map (·.1)
  balanced := proc.body.any fun located => isAssertBalanced located.op
  attestations := (viewed attestView proc.body).map (·.1)
  inputLines := (viewed inputView proc.body).map (·.2)
  computeLines := (viewed computeView proc.body).map (·.2)
  entryLines := (viewed entryView proc.body).map (·.2)
  participantLines := (viewed participantView proc.body).map (·.2)
  allowLines := (viewed allowView proc.body).map (·.2)
  attestationLines := (viewed attestView proc.body).map (·.2)
  assertLine := ((proc.body.filter fun located => isAssertBalanced located.op).map
    (·.line)).getLast?.getD 0

theorem mem_viewed {α : Type} {take : Op → Option α} {body : List Located} {taken : α}
    (listed : taken ∈ (viewed take body).map (·.1)) :
    ∃ located ∈ body, take located.op = some taken := by
  obtain ⟨⟨found, line⟩, held, rfl⟩ := List.mem_map.mp listed
  obtain ⟨located, placed, kept⟩ := List.mem_filterMap.mp held
  obtain ⟨value, took, same⟩ := Option.map_eq_some_iff.mp kept
  cases same
  exact ⟨located, placed, took⟩

/-! What a verified expression is. -/

theorem verifyCarriedDtypes_ok {what : String} {attr : ExprAttr} {node : ExprNode}
    (carried : verifyCarriedDtypes what attr node = .ok ()) : attr.dtype = node.dtype := by
  rw [verifyCarriedDtypes.eq_def, check_ok, require_ok] at carried
  exact carried.1

mutual

/-- Inference leaves an attribute that carries its categories as it is. -/
theorem typed_carried {env : CategoryEnv} {what : String} {depSyms : List String} :
    (attr : ExprAttr) → {node : ExprNode} → typeExpr env (toExprNode attr depSyms) = .ok node →
      verifyCarriedDtypes what attr node = .ok () → toExprNode attr depSyms = node
  | .num dtype value, node, typed, carried => by
      have same := verifyCarriedDtypes_ok carried
      cases typed
      simp only [ExprAttr.dtype, ExprNode.dtype] at same
      rw [toExprNode, same]
  | .var dtype slot, node, typed, carried => by
      have same := verifyCarriedDtypes_ok carried
      cases typed
      simp only [ExprAttr.dtype, ExprNode.dtype] at same
      rw [toExprNode, same]
  | .bin dtype binop lhs rhs, node, typed, carried => by
      have same := verifyCarriedDtypes_ok carried
      simp only [toExprNode, typeExpr, bind_ok, pure_ok] at typed
      obtain ⟨left, leftTyped, right, rightTyped, _, _, _, _, rfl⟩ := typed
      simp only [verifyCarriedDtypes, check_ok] at carried
      simp only [ExprAttr.dtype, ExprNode.dtype] at same
      rw [toExprNode, typed_carried lhs leftTyped carried.2.1,
        typed_carried rhs rightTyped carried.2.2, same]
  | .cmp dtype name lhs rhs, node, typed, carried => by
      simp [toExprNode, typeExpr] at typed
  | .call dtype name args, node, typed, carried => by
      have same := verifyCarriedDtypes_ok carried
      simp only [toExprNode, typeExpr] at typed
      split_ifs at typed
      simp only [bind_ok, pure_ok] at typed
      obtain ⟨typedArgs, argsTyped, category, _, rfl⟩ := typed
      simp only [verifyCarriedDtypes, check_ok] at carried
      simp only [ExprAttr.dtype, ExprNode.dtype] at same
      rw [toExprNode, typedArgs_carried args argsTyped carried.2, same]

theorem typedArgs_carried {env : CategoryEnv} {what : String} {depSyms : List String} :
    (args : List ExprAttr) → {nodes : List ExprNode} →
      typeExprs env (toExprNodes args depSyms) = .ok nodes →
      verifyAllCarriedDtypes what args nodes = .ok () → toExprNodes args depSyms = nodes
  | [], nodes, typed, _ => by
      cases typed
      rfl
  | arg :: rest, nodes, typed, carried => by
      simp only [toExprNodes, typeExprs, bind_ok, pure_ok] at typed
      obtain ⟨first, firstTyped, others, othersTyped, rfl⟩ := typed
      rw [verifyAllCarriedDtypes, check_ok] at carried
      rw [toExprNodes, typed_carried arg firstTyped carried.1,
        typedArgs_carried rest othersTyped carried.2]

end

/-- The names of verified dependencies are their symbols. -/
theorem refOf_depSymbols {what : String} {deps : List Value} {seen : List String} {start : Nat}
    (verified : verifyDeps what seen ((depSymbols deps).zipIdx start) = .ok ()) :
    (deps.map fun dep => (refOf dep).text) = depSymbols deps := by
  induction deps generalizing seen start with
  | nil => rfl
  | cons dep rest ih =>
      simp only [depSymbols, List.map_cons, List.zipIdx_cons, verifyDeps, check_ok, require_ok]
        at verified
      obtain ⟨some, _, later⟩ := verified
      have same : (refOf dep).text = depSymbol dep := by
        cases dep <;> first | rfl | exact absurd rfl some
      simp only [depSymbols, List.map_cons, same, List.cons.injEq, true_and]
      exact ih later

section Verified

variable {parse : Bool → String → Except ExprError ExprNode} {proc : ProcedureOp}

/-- What the verifier establishes of an expression, under the names a view gives its slots. -/
theorem verifyTypedExpr_ok {env : CategoryEnv} {ast : ExprAttr} {deps : List Value} {text : String}
    {guard : Bool} (verified : verifyTypedExpr parse env ast deps text guard = .ok ()) :
    ast.verify = .ok () ∧ ∃ typed,
      (if guard then typeGuard env (toExprNode ast (deps.map fun dep => (refOf dep).text))
        else typeExpr env (toExprNode ast (deps.map fun dep => (refOf dep).text))) = .ok typed ∧
      verifyCarriedDtypes (if guard then "guard" else "compute") ast typed = .ok () := by
  simp only [verifyTypedExpr, bind_ok, mapError_ok] at verified
  obtain ⟨_, shaped, _, bijection, _, _, _, _, typed, inferred, carried⟩ := verified
  simp only [verifyDepBijection, check_ok] at bijection
  rw [refOf_depSymbols bijection.1]
  exact ⟨shaped, typed, inferred, carried⟩

/-- A compute of a verified procedure is an expression that inference leaves as it is. -/
theorem ProcedureOp.Verified.compute_typed (verified : proc.Verified parse) {compute : ComputeView}
    (listed : compute ∈ (viewOf proc).computes) :
    typeExpr (procEnv proc) compute.ast = .ok compute.ast ∧
      ∃ attr names, attr.verify = .ok () ∧ compute.ast = toExprNode attr names := by
  obtain ⟨⟨op, line⟩, placed, took⟩ := mem_viewed listed
  cases op with
  | compute deps symName expr ast =>
      cases took
      obtain ⟨shaped, typed, inferred, carried⟩ :=
        verifyTypedExpr_ok (verified.compute deps symName expr ast line placed)
      have same := typed_carried ast inferred carried
      exact ⟨by rw [← same] at inferred; exact inferred, ast, _, shaped, rfl⟩
  | _ => cases took

theorem verifyEntryOp_guard {env : CategoryEnv} {kind : String} {entry : EntryOp} {guard : ExprNode}
    (verified : verifyEntryOp parse env entry = .ok ())
    (guarded : (buildEntry kind entry).guardAst = some guard) :
    ∃ typed attr names, attr.verify = .ok () ∧ guard = toExprNode attr names ∧
      typeGuard env guard = .ok typed ∧ verifyCarriedDtypes "guard" attr typed = .ok () := by
  simp only [verifyEntryOp, check_ok] at verified
  obtain ⟨_, _, checked⟩ := verified
  simp only [buildEntry, Option.bind_eq_some_iff, Option.map_eq_some_iff] at guarded
  obtain ⟨text, _, ast, present, rfl⟩ := guarded
  rw [present] at checked
  obtain ⟨shaped, typed, inferred, carried⟩ := verifyTypedExpr_ok checked
  exact ⟨typed, ast, _, shaped, rfl, inferred, carried⟩

theorem ProcedureOp.Verified.guard_typed (verified : proc.Verified parse) {entry : EntryView}
    (listed : entry ∈ (viewOf proc).entries) {guard : ExprNode}
    (guarded : entry.guardAst = some guard) :
    ∃ typed attr names, attr.verify = .ok () ∧ guard = toExprNode attr names ∧
      typeGuard (procEnv proc) guard = .ok typed ∧
      verifyCarriedDtypes "guard" attr typed = .ok () := by
  obtain ⟨⟨op, line⟩, placed, took⟩ := mem_viewed listed
  cases op with
  | debit op =>
      cases took
      exact verifyEntryOp_guard (verified.debit op line placed) guarded
  | credit op =>
      cases took
      exact verifyEntryOp_guard (verified.credit op line placed) guarded
  | _ => cases took

end Verified

end Neutrino
