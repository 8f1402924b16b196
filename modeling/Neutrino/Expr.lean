import Neutrino.Library.MachineInt
import Neutrino.ValueModel

/-! Typed expressions: the tree every backend shares, its reference evaluation over
checked 64-bit integers, and the inference that attaches a value category to each node. -/

namespace Neutrino

inductive ExprNode
  | num (value : Int64) (dtype : ValueCategory)
  | var (name : String) (dtype : ValueCategory)
  | bin (op : Char) (lhs rhs : ExprNode) (dtype : ValueCategory)
  | call (name : String) (args : List ExprNode) (dtype : ValueCategory)
  | cmp (op : String) (lhs rhs : ExprNode) (dtype : ValueCategory)
  deriving Repr

def ExprNode.dtype : ExprNode → ValueCategory
  | .num _ dtype => dtype
  | .var _ dtype => dtype
  | .bin _ _ _ dtype => dtype
  | .call _ _ dtype => dtype
  | .cmp _ _ _ dtype => dtype

structure ExprError where
  code : String
  message : String
  deriving DecidableEq, Repr

/-- Numeric values by name. -/
abbrev Env := Std.ExtTreeMap String Int64

/-- The category of every declared name. -/
abbrev CategoryEnv := Std.ExtTreeMap String ValueCategory

def checkedOr (value : Int) (message : String) : Except ExprError Int64 :=
  match MachineInt.checked value with
  | some result => .ok result
  | none => .error ⟨"expr.overflow", message⟩

def checkedBin (op : Char) (a b : Int64) : Except ExprError Int64 :=
  if op = '+' then checkedOr (a.toInt + b.toInt) "addition overflow"
  else if op = '-' then checkedOr (a.toInt - b.toInt) "subtraction overflow"
  else if op = '*' then checkedOr (a.toInt * b.toInt) "multiplication overflow"
  else if op = '/' then
    if b = 0 then .error ⟨"expr.divide_by_zero", "division by zero"⟩
    else checkedOr (a.toInt.tdiv b.toInt) "division overflow"
  else .error ⟨"expr.invalid", "bad operator"⟩

def evalExpr : ExprNode → Env → Except ExprError Int64
  | .num value _, _ => .ok value
  | .var name _, env =>
      match env[name]? with
      | some value => .ok value
      | none => .error ⟨"expr.unbound", "unbound variable: " ++ name⟩
  | .bin op lhs rhs _, env =>
      match evalExpr lhs env with
      | .error failure => .error failure
      | .ok a =>
          match evalExpr rhs env with
          | .error failure => .error failure
          | .ok b => checkedBin op a b
  | .call name args _, env =>
      if name = "round" then
        match args with
        | [] => .error ⟨"expr.invalid", "round() needs at least one argument"⟩
        | first :: _ => evalExpr first env
      else .error ⟨"expr.unsupported", "unsupported function: " ++ name⟩
  | .cmp _ _ _ _, _ =>
      .error ⟨"expr.type", "a comparison predicate is not a value; use evalGuard"⟩

def compareWith (op : String) (a b : Int64) : Except ExprError Bool :=
  if op = "<" then .ok (a.toInt < b.toInt)
  else if op = "<=" then .ok (a.toInt ≤ b.toInt)
  else if op = ">" then .ok (a.toInt > b.toInt)
  else if op = ">=" then .ok (a.toInt ≥ b.toInt)
  else if op = "==" then .ok (a = b)
  else if op = "!=" then .ok (a ≠ b)
  else .error ⟨"expr.invalid", "bad comparison operator: " ++ op⟩

/-- The truth of a guard: a quorum acceptance read from the environment, or a single
comparison. An absent acceptance flag is not accepted. -/
def evalGuard : ExprNode → Env → Except ExprError Bool
  | .call name args _, env =>
      if name = "accepted" then
        match args with
        | [.var input _] => .ok ((env["accepted:" ++ input]?).any (· ≠ 0))
        | _ => .error ⟨"expr.invalid", "malformed accepted() guard"⟩
      else .error ⟨"expr.internal", "evalGuard on a non-comparison node"⟩
  | .cmp op lhs rhs _, env =>
      match evalExpr lhs env with
      | .error failure => .error failure
      | .ok a =>
          match evalExpr rhs env with
          | .error failure => .error failure
          | .ok b => compareWith op a b
  | _, _ => .error ⟨"expr.internal", "evalGuard on a non-comparison node"⟩

mutual

/-- The names already collected, then those a walk of the node meets for the first time. -/
def exprVarsFrom : ExprNode → List String → List String
  | .num _ _, seen => seen
  | .var name _, seen => if name ∈ seen then seen else seen ++ [name]
  | .bin _ lhs rhs _, seen => exprVarsFrom rhs (exprVarsFrom lhs seen)
  | .call _ args _, seen => exprVarsFromAll args seen
  | .cmp _ lhs rhs _, seen => exprVarsFrom rhs (exprVarsFrom lhs seen)

def exprVarsFromAll : List ExprNode → List String → List String
  | [], seen => seen
  | arg :: rest, seen => exprVarsFromAll rest (exprVarsFrom arg seen)

end

def exprVars (node : ExprNode) : List String := exprVarsFrom node []

/-! Inference. A governed name that is not numeric may not be an operand; an undeclared
name is an extension and constrains nothing. -/

def numericOperand (node : ExprNode) : Bool :=
  !isCanonicalCategory node.dtype || isNumericCategory node.dtype

def joinCategory (lhs rhs : ExprNode) : ValueCategory :=
  if lhs.dtype = .money ∨ rhs.dtype = .money then .money else .decimal

def checkOperand (what : String) (side : ExprNode) : Except ExprError Unit :=
  if numericOperand side then .ok ()
  else .error ⟨"expr.type", what ++ " must be a numeric (money/decimal) value, but a " ++
    categoryName side.dtype ++ " value is used"⟩

def isNumNode : ExprNode → Bool
  | .num _ _ => true
  | _ => false

def roundArity (count : Nat) : ExprError :=
  ⟨"expr.unsupported", "round expects 1 or 2 arguments (round(x) or round(x, k)), got " ++
    toString count ++ " (docs/language/EXPRESSION_MODEL.md)"⟩

/-- The checks on a `round` call whose arguments are typed, and the call's category. -/
def typeRound : List ExprNode → Except ExprError ValueCategory
  | [value] => do
      checkOperand "round argument" value
      return value.dtype
  | [value, scale] => do
      if !isNumNode scale then
        throw ⟨"expr.type", "round scale argument must be an integer literal (e.g. " ++
          "round(x, 2)), not a computed value"⟩
      checkOperand "round argument" value
      return value.dtype
  | args => .error (roundArity args.length)

mutual

def typeExpr (env : CategoryEnv) : ExprNode → Except ExprError ExprNode
  | .num value _ => .ok (.num value .decimal)
  | .var name _ => .ok (.var name ((env[name]?).getD .extension))
  | .bin op lhs rhs _ => do
      let lhs ← typeExpr env lhs
      let rhs ← typeExpr env rhs
      checkOperand "arithmetic operand" lhs
      checkOperand "arithmetic operand" rhs
      return .bin op lhs rhs (joinCategory lhs rhs)
  | .call name args _ =>
      if name = "accepted" then
        .error ⟨"expr.type", "accepted() is a quorum-acceptance predicate, valid only " ++
          "inside a `when` guard, not as a value"⟩
      else if name ≠ "round" then
        .error ⟨"expr.unsupported", "unsupported function '" ++ name ++
          "': a new expression construct must ship with Solidity, SQL, " ++
          "reference-evaluator, and equivalence-fixture support " ++
          "(docs/language/EXPRESSION_MODEL.md)"⟩
      else if args.length ≠ 1 ∧ args.length ≠ 2 then
        .error (roundArity args.length)
      else do
        let args ← typeExprs env args
        let dtype ← typeRound args
        return .call name args dtype
  | .cmp _ _ _ _ =>
      .error ⟨"expr.type", "a comparison predicate (<, <=, >, >=, ==, !=) is only " ++
        "valid inside a `when` guard, not as a value"⟩

def typeExprs (env : CategoryEnv) : List ExprNode → Except ExprError (List ExprNode)
  | [] => .ok []
  | arg :: rest => do
      let arg ← typeExpr env arg
      let rest ← typeExprs env rest
      return arg :: rest

end

def checkDeclared (env : CategoryEnv) : List String → Except ExprError Unit
  | [] => .ok ()
  | name :: rest =>
      if env.contains name then checkDeclared env rest
      else .error ⟨"expr.type", "guard references undeclared value '" ++ name ++
        "' (not a declared input or computed value)"⟩

/-- A guard is `accepted` of one declared evidence input, or a comparison of numeric
expressions over declared names. -/
def typeGuard (env : CategoryEnv) : ExprNode → Except ExprError ExprNode
  | .call name args dtype =>
      if name = "accepted" then
        match args with
        | [.var input _] =>
            match env[input]? with
            | none => .error ⟨"expr.type", "accepted() references undeclared input '" ++
                input ++ "'"⟩
            | some category =>
                if category = .evidence then .ok (.call name [.var input category] dtype)
                else .error ⟨"expr.type", "accepted() requires an `evidence` input, but '" ++
                  input ++ "' is a " ++ categoryName category ++ " value"⟩
        | _ => .error ⟨"expr.type", "accepted() takes a single evidence input, e.g. " ++
            "accepted(delivery_proof)"⟩
      else .error ⟨"expr.type", "a `when` guard must be a comparison predicate " ++
        "(<, <=, >, >=, ==, !=) or accepted(<evidence-input>)"⟩
  | .cmp op lhs rhs dtype => do
      let lhs ← typeExpr env lhs
      let rhs ← typeExpr env rhs
      checkOperand "a guard operand" lhs
      checkOperand "a guard operand" rhs
      checkDeclared env (exprVars (.cmp op lhs rhs dtype))
      return .cmp op lhs rhs dtype
  | _ => .error ⟨"expr.type", "a `when` guard must be a comparison predicate " ++
      "(<, <=, >, >=, ==, !=) or accepted(<evidence-input>)"⟩

end Neutrino
