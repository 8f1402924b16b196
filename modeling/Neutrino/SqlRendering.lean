import Mathlib
import Neutrino.Expr
import Neutrino.Library.Checked
import Neutrino.NamesRead
import Neutrino.SqlText

/-! The SQL rendering of expressions and guards: where the database computes the value of the
reference evaluator. -/

namespace Neutrino

open Checked Sql

/-! The renderers. -/

/-- The text of a value expression; every operation stands in parentheses. -/
def emit (resolver : String → String) : ExprNode → Except ExprError String
  | .num value _ => .ok (toString value.toInt)
  | .var name _ => .ok (resolver name)
  | .bin op lhs rhs _ => do
      let left ← emit resolver lhs
      let right ← emit resolver rhs
      return "(" ++ left ++ " " ++ op.toString ++ " " ++ right ++ ")"
  | .call name args _ =>
      if name = "round" then
        match args with
        | [] => .error ⟨"expr.invalid", "round() needs at least one argument"⟩
        | first :: _ => emit resolver first
      else .error ⟨"expr.invalid", "unsupported function: " ++ name⟩
  | .cmp _ _ _ _ =>
      .error ⟨"expr.type", "a comparison predicate is not a value expression"⟩

def toSql (node : ExprNode) (resolver : String → String) : Except ExprError String :=
  emit resolver node

/-- SQL spells equality and inequality its own way. -/
def sqlComparison (op : String) : String :=
  if op = "==" then "=" else if op = "!=" then "<>" else op

def guardToSql (node : ExprNode) (resolver : String → String) : Except ExprError String :=
  match node with
  | .cmp op lhs rhs _ => do
      let left ← emit resolver lhs
      let right ← emit resolver rhs
      return left ++ " " ++ sqlComparison op ++ " " ++ right
  | _ => .error ⟨"expr.invalid", "guardToSql on a non-comparison node"⟩

/-! The expressions inference accepts. -/

/-- A value: no comparison inside, and no call but `round`. -/
inductive ValueNode : ExprNode → Prop
  | num (value : Int64) (dtype : ValueCategory) : ValueNode (.num value dtype)
  | var (name : String) (dtype : ValueCategory) : ValueNode (.var name dtype)
  | bin {lhs rhs : ExprNode} (left : ValueNode lhs) (right : ValueNode rhs) (op : Char)
      (dtype : ValueCategory) : ValueNode (.bin op lhs rhs dtype)
  | round {first : ExprNode} (value : ValueNode first) (rest : List ExprNode)
      (dtype : ValueCategory) : ValueNode (.call "round" (first :: rest) dtype)

theorem typeExpr_value {env : CategoryEnv} : (raw : ExprNode) → {node : ExprNode} →
    typeExpr env raw = .ok node → ValueNode node
  | .num value _, node, typed => by
      cases typed
      exact .num ..
  | .var name _, node, typed => by
      cases typed
      exact .var ..
  | .bin op lhs rhs _, node, typed => by
      simp only [typeExpr, bind_ok, pure_ok] at typed
      obtain ⟨left, leftTyped, right, rightTyped, _, _, _, _, rfl⟩ := typed
      exact .bin (typeExpr_value lhs leftTyped) (typeExpr_value rhs rightTyped) ..
  | .call name args _, node, typed => by
      simp only [typeExpr] at typed
      split_ifs at typed with accepted other arity
      simp only [bind_ok, pure_ok] at typed
      obtain ⟨typedArgs, argsTyped, dtype, _, rfl⟩ := typed
      simp only [ne_eq, not_not] at other
      subst other
      cases args with
      | nil => simp at arity
      | cons first rest =>
          simp only [typeExprs, bind_ok, pure_ok] at argsTyped
          obtain ⟨typedFirst, firstTyped, typedRest, _, rfl⟩ := argsTyped
          exact .round (typeExpr_value first firstTyped) ..
  | .cmp _ _ _ _, node, typed => by
      simp [typeExpr] at typed

theorem typeGuard_values {env : CategoryEnv} {raw : ExprNode} {op : String} {lhs rhs : ExprNode}
    {dtype : ValueCategory} (typed : typeGuard env raw = .ok (.cmp op lhs rhs dtype)) :
    ValueNode lhs ∧ ValueNode rhs := by
  cases raw with
  | cmp op lhs' rhs' dtype =>
      simp only [typeGuard, bind_ok, pure_ok, ExprNode.cmp.injEq] at typed
      obtain ⟨left, leftTyped, right, rightTyped, _, _, _, _, _, _, _, rfl, rfl, _⟩ := typed
      exact ⟨typeExpr_value lhs' leftTyped, typeExpr_value rhs' rightTyped⟩
  | call name args dtype =>
      simp only [typeGuard] at typed
      split_ifs at typed
      split at typed
      · split at typed
        · cases typed
        · split_ifs at typed
          cases typed
      · cases typed
  | num => simp [typeGuard] at typed
  | var => simp [typeGuard] at typed
  | bin => simp [typeGuard] at typed

/-! What the database reads. -/

/-- The four operators of the language, and its six comparisons. -/
def KnownOperators : ExprNode → Prop
  | .num _ _ => True
  | .var _ _ => True
  | .bin op lhs rhs _ => op ∈ ['+', '-', '*', '/'] ∧ KnownOperators lhs ∧ KnownOperators rhs
  | .call _ args _ =>
      match args with
      | [] => True
      | first :: _ => KnownOperators first
  | .cmp op lhs rhs _ =>
      op ∈ ["<", "<=", ">", ">=", "==", "!="] ∧ KnownOperators lhs ∧ KnownOperators rhs

section Read

variable (resolver : String → String)

/-- The SQL expression a node is written as. -/
def sqlOf : ExprNode → Expression
  | .num value _ => .literal value.toInt
  | .var name _ => .variable (resolver name)
  | .bin op lhs rhs _ => .binary op.toString (sqlOf lhs) (sqlOf rhs)
  | .call _ args _ =>
      match args with
      | [] => .literal 0
      | first :: _ => sqlOf first
  | .cmp op lhs rhs _ => .binary (sqlComparison op) (sqlOf lhs) (sqlOf rhs)

/-- A text whose words read as one term, whatever follows. -/
def ReadsAs (text : String) (expression : Expression) : Prop :=
  ∀ fuel > (words text.toList).length, ∀ rest,
    readTerm fuel (words text.toList ++ rest) = some (expression, rest)

theorem words_space (first second : List Char) :
    words (first ++ ' ' :: second) = words first ++ words second := by
  rw [words_append fun c _ => joins_break (by decide) (by decide)]
  rfl

theorem words_parentheses (chars : List Char) :
    words ('(' :: (chars ++ [')'])) = ['('] :: (words chars ++ [[')']]) := by
  have opens : words (['('] ++ (chars ++ [')'])) = words ['('] ++ words (chars ++ [')']) := by
    refine words_append fun c listed => ?_
    cases listed
    cases chars ++ [')'] <;> simp [joins, isIdentChar, isOperatorChar]
  rw [List.singleton_append] at opens
  rw [opens, words_append fun c _ => joins_break (by decide) (by decide)]
  rfl

theorem words_operation (left operator right : String) :
    words ("(" ++ left ++ " " ++ operator ++ " " ++ right ++ ")").toList =
      ['('] :: (words left.toList ++ (words operator.toList ++ (words right.toList ++ [[')']]))) := by
  have chars : ("(" ++ left ++ " " ++ operator ++ " " ++ right ++ ")").toList =
      '(' :: ((left.toList ++ ' ' :: (operator.toList ++ ' ' :: right.toList)) ++ [')']) := by
    simp
  rw [chars, words_parentheses, words_space, words_space]
  simp only [List.append_assoc]

theorem joins_digits (value : Nat) : joins '-' (Nat.toDigits 10 value) = false := by
  cases digits : Nat.toDigits 10 value with
  | nil => rfl
  | cons c rest =>
      have digit : c.isDigit = true :=
        isDigit_toDigits (show c ∈ Nat.toDigits 10 value by simp [digits])
      have operator : isOperatorChar c = false := by
        rw [← Bool.not_eq_true]
        intro symbol
        simp only [isOperatorChar, List.mem_cons, List.not_mem_nil, or_false,
          decide_eq_true_eq] at symbol
        rcases symbol with rfl | rfl | rfl | rfl | rfl | rfl | rfl | rfl | rfl | rfl | rfl | rfl |
          rfl | rfl | rfl | rfl <;> simp at digit
      simp [joins, operator, isIdentChar]

theorem ReadsAs.number (value : Int64) :
    ReadsAs (toString value.toInt) (.literal value.toInt) := by
  intro fuel enough rest
  obtain ⟨fuel, rfl⟩ := Nat.exists_eq_add_of_lt (Nat.zero_lt_of_lt enough)
  cases sign : value.toInt with
  | ofNat number =>
      rw [toString_ofNat, words_run Nat.toDigits_ne_nil (.inl (digits_run number)),
        List.singleton_append, readTerm_atom Nat.toDigits_ne_nil (digits_run number),
        readAtom_digits]
      rfl
  | negSucc number =>
      have parts : words ('-' :: Nat.toDigits 10 (number + 1)) =
          [['-'], Nat.toDigits 10 (number + 1)] := by
        have apart : words (['-'] ++ Nat.toDigits 10 (number + 1)) =
            words ['-'] ++ words (Nat.toDigits 10 (number + 1)) := by
          refine words_append fun c listed => ?_
          cases listed
          exact joins_digits _
        rw [List.singleton_append] at apart
        rw [apart, words_run Nat.toDigits_ne_nil (.inl (digits_run _))]
        rfl
      rw [toString_negSucc, parts]
      simp [readTerm, readDigits_toDigits, Int.negSucc_eq]

theorem ReadsAs.name {name : String} (identifier : isIdentifier name.toList = true) :
    ReadsAs name (.variable name) := by
  have run : name.toList.all isIdentChar = true := (Bool.and_eq_true_iff.mp identifier).1
  have some : name.toList ≠ [] := by
    intro empty
    simp [isIdentifier, empty] at identifier
  intro fuel enough rest
  obtain ⟨fuel, rfl⟩ := Nat.exists_eq_add_of_lt (Nat.zero_lt_of_lt enough)
  rw [words_run some (.inl run), List.singleton_append, Nat.zero_add, readTerm_atom some run,
    readAtom_identifier identifier]
  rfl

/-- A symbol that is one operator word. -/
structure Symbol (operator : String) : Prop where
  some : operator.toList ≠ []
  run : operator.toList.all isOperatorChar = true

theorem Symbol.words {operator : String} (symbol : Symbol operator) :
    words operator.toList = [operator.toList] := words_run symbol.some (.inr symbol.run)

theorem Symbol.read {operator : String} (symbol : Symbol operator) :
    readOperator operator.toList = .some operator := by
  rw [readOperator, if_pos ⟨symbol.some, symbol.run⟩, String.ofList_toList]

theorem ReadsAs.operation {left right operator : String} {lhs rhs : Expression}
    (leftReads : ReadsAs left lhs) (rightReads : ReadsAs right rhs) (symbol : Symbol operator) :
    ReadsAs ("(" ++ left ++ " " ++ operator ++ " " ++ right ++ ")") (.binary operator lhs rhs) := by
  intro fuel enough rest
  rw [words_operation, symbol.words] at enough ⊢
  simp only [List.length_cons, List.length_append, List.length_nil] at enough
  obtain ⟨fuel, rfl⟩ := Nat.exists_eq_add_of_lt (Nat.zero_lt_of_lt enough)
  rw [Nat.zero_add] at enough ⊢
  have first := leftReads fuel (by omega) (operator.toList :: (words right.toList ++ [')'] :: rest))
  have second := rightReads fuel (by omega) ([')'] :: rest)
  simpa using readTerm_operation first symbol.read second

theorem symbol_operator {op : Char} (known : op ∈ ['+', '-', '*', '/']) : Symbol op.toString := by
  simp only [List.mem_cons, List.not_mem_nil, or_false] at known
  rcases known with rfl | rfl | rfl | rfl <;> exact ⟨by decide, by decide⟩

theorem symbol_comparison {op : String} (known : op ∈ ["<", "<=", ">", ">=", "==", "!="]) :
    Symbol (sqlComparison op) := by
  simp only [List.mem_cons, List.not_mem_nil, or_false] at known
  rcases known with rfl | rfl | rfl | rfl | rfl | rfl <;> exact ⟨by decide, by decide⟩

/-- The renderer writes a value whose text reads back as the node's own expression. -/
theorem emit_reads {node : ExprNode} (value : ValueNode node) (known : KnownOperators node)
    (identifiers : ∀ name ∈ exprReads node, isIdentifier (resolver name).toList = true) :
    ∃ text, emit resolver node = .ok text ∧ ReadsAs text (sqlOf resolver node) := by
  induction value with
  | num value dtype => exact ⟨_, rfl, .number value⟩
  | var name dtype => exact ⟨_, rfl, .name (identifiers name (by simp [exprReads]))⟩
  | @bin lhs rhs left right op dtype ihLeft ihRight =>
      obtain ⟨operator, knownLeft, knownRight⟩ := known
      obtain ⟨leftText, leftWritten, leftReads⟩ := ihLeft knownLeft fun name listed =>
        identifiers name (List.mem_append_left _ listed)
      obtain ⟨rightText, rightWritten, rightReads⟩ := ihRight knownRight fun name listed =>
        identifiers name (List.mem_append_right _ listed)
      refine ⟨_, ?_, leftReads.operation rightReads (symbol_operator operator)⟩
      rw [emit, leftWritten, rightWritten]
      rfl
  | @round first value rest dtype ih =>
      obtain ⟨text, written, reads⟩ := ih known identifiers
      refine ⟨text, ?_, reads⟩
      rw [emit, if_pos rfl]
      exact written

theorem ReadsAs.readExpression {text : String} {expression : Expression}
    (reads : ReadsAs text expression) : readExpression text = some expression := by
  have whole := reads _ (Nat.lt_succ_self _) []
  rw [List.append_nil] at whole
  simp [Sql.readExpression, whole]

theorem readExpression_comparison {left right operator : String} {lhs rhs : Expression}
    (leftReads : ReadsAs left lhs) (rightReads : ReadsAs right rhs) (symbol : Symbol operator) :
    Sql.readExpression (left ++ " " ++ operator ++ " " ++ right) =
      some (.binary operator lhs rhs) := by
  have chars : (left ++ " " ++ operator ++ " " ++ right).toList =
      left.toList ++ ' ' :: (operator.toList ++ ' ' :: right.toList) := by simp
  have parts : words (left ++ " " ++ operator ++ " " ++ right).toList =
      words left.toList ++ (operator.toList :: words right.toList) := by
    rw [chars, words_space, words_space, symbol.words]
    rfl
  have first := leftReads ((words left.toList ++ (operator.toList :: words right.toList)).length + 1)
    (by simp only [List.length_append, List.length_cons]; omega)
    (operator.toList :: words right.toList)
  have second := rightReads
    ((words left.toList ++ (operator.toList :: words right.toList)).length + 1) (by simp; omega) []
  rw [List.append_nil] at second
  simp only [Sql.readExpression, parts, first, Option.bind_eq_bind, Option.bind_some, symbol.read,
    second, if_true]
  rfl

end Read

/-! What the database computes. -/

/-- The type the database gives a value: the widest of its literals, and bigint for variables. -/
def sqlType : ExprNode → IntegerType
  | .num value _ => literalType value.toInt
  | .var _ _ => .int8
  | .bin _ lhs rhs _ => (sqlType lhs).join (sqlType rhs)
  | .call _ args _ =>
      match args with
      | [] => .int8
      | first :: _ => sqlType first
  | .cmp _ _ _ _ => .int8

/-- Every operation on nothing but 32-bit literals has a 32-bit value, if it has one. -/
def LiteralsNarrow : ExprNode → Prop
  | .num _ _ => True
  | .var _ _ => True
  | .bin op lhs rhs dtype => LiteralsNarrow lhs ∧ LiteralsNarrow rhs ∧
      (sqlType (.bin op lhs rhs dtype) = .int4 → ∀ value,
        evalExpr (.bin op lhs rhs dtype) ∅ = .ok value → fits4 value.toInt = true)
  | .call _ args _ =>
      match args with
      | [] => True
      | first :: _ => LiteralsNarrow first
  | .cmp _ lhs rhs _ => LiteralsNarrow lhs ∧ LiteralsNarrow rhs

theorem join_eq_int4 {first second : IntegerType} :
    first.join second = .int4 ↔ first = .int4 ∧ second = .int4 := by
  cases first <;> cases second <;> simp [IntegerType.join]

/-- A value of literals alone does not read the environment. -/
theorem evalExpr_literals {node : ExprNode} (value : ValueNode node) (narrow : sqlType node = .int4)
    (env : Env) : evalExpr node env = evalExpr node ∅ := by
  induction value with
  | num => rfl
  | var => cases narrow
  | @bin lhs rhs left right op dtype ihLeft ihRight =>
      obtain ⟨leftNarrow, rightNarrow⟩ := join_eq_int4.mp narrow
      rw [evalExpr_bin, evalExpr_bin, ihLeft leftNarrow, ihRight rightNarrow]
  | @round first value rest dtype ih => simpa [evalExpr] using ih narrow

theorem LiteralsNarrow.fits {node : ExprNode} (value : ValueNode node)
    (narrow : LiteralsNarrow node) {env : Env} {result : Int64}
    (evaluated : evalExpr node env = .ok result) (typed : sqlType node = .int4) :
    fits4 result.toInt = true := by
  induction value with
  | num value dtype =>
      cases evaluated
      rw [sqlType, literalType] at typed
      split at typed
      · assumption
      · cases typed
  | var => cases typed
  | bin left right op dtype =>
      rw [evalExpr_literals (.bin left right op dtype) typed] at evaluated
      exact narrow.2.2 typed result evaluated
  | @round first value rest dtype ih => exact ih narrow (by simpa [evalExpr] using evaluated) typed

/-- A value of a node, in the type the database gives it. -/
theorem LiteralsNarrow.checked {node : ExprNode} (value : ValueNode node)
    (narrow : LiteralsNarrow node) {env : Env} {result : Int64}
    (evaluated : evalExpr node env = .ok result) :
    ∃ integer, (sqlType node).checked result.toInt = some integer := by
  cases typed : sqlType node with
  | int4 =>
      exact ⟨_, by rw [IntegerType.checked, if_pos (narrow.fits value evaluated typed)]⟩
  | int8 => exact ⟨.int8 result, checked_eq_some.mpr ⟨rfl, rfl⟩⟩

theorem checkedOr_ok {value : Int} {message : String} {result : Int64} :
    checkedOr value message = .ok result ↔ value = result.toInt := by
  rw [checkedOr, @eq_comm _ value, ← MachineInt.checked_eq_some]
  cases MachineInt.checked value <;> simp

theorem toString_operator (op : Char) : isArithmetic op.toString = true ↔
    op ∈ ['+', '-', '*', '/'] := by
  have single : ∀ other : Char, op.toString = other.toString ↔ op = other := fun other =>
    ⟨fun same => by simpa using congrArg String.toList same, fun same => by rw [same]⟩
  have symbols : isArithmetic op.toString = true ↔ op.toString = '+'.toString ∨
      op.toString = '-'.toString ∨ op.toString = '*'.toString ∨ op.toString = '/'.toString := by
    simp [isArithmetic, or_assoc]
  rw [symbols, single, single, single, single]
  simp

/-- The checked operation is the exact one, in 64 bits. -/
theorem checkedBin_ok {op : Char} (known : op ∈ ['+', '-', '*', '/']) {a b result : Int64} :
    checkedBin op a b = .ok result ↔ exact op.toString a.toInt b.toInt = some result.toInt := by
  simp only [List.mem_cons, List.not_mem_nil, or_false] at known
  rcases known with rfl | rfl | rfl | rfl
  · simp [checkedBin, exact, checkedOr_ok]
  · simp [checkedBin, exact, checkedOr_ok]
  · simp [checkedBin, exact, checkedOr_ok]
  · have zero : b = 0 ↔ b.toInt = 0 := by
      rw [← Int64.toInt_zero, Int64.toInt_inj]
    by_cases none : b = 0
    · simp [checkedBin, exact, none]
    · have divides : ¬b.toInt = 0 := fun same => none (zero.mpr same)
      simp [checkedBin, exact, none, divides, checkedOr_ok]

theorem checkedBin_known {op : Char} {a b result : Int64}
    (computed : checkedBin op a b = .ok result) : op ∈ ['+', '-', '*', '/'] := by
  unfold checkedBin at computed
  split_ifs at computed <;> simp_all

/-- The reference computes no operator but the four. -/
theorem evalExpr_known {node : ExprNode} (value : ValueNode node) {env : Env} {result : Int64}
    (evaluated : evalExpr node env = .ok result) : KnownOperators node := by
  induction value generalizing result with
  | num => trivial
  | var => trivial
  | @bin lhs rhs left right op dtype ihLeft ihRight =>
      simp only [evalExpr_bin, bind_ok] at evaluated
      obtain ⟨a, leftValue, b, rightValue, computed⟩ := evaluated
      exact ⟨checkedBin_known computed, ihLeft leftValue, ihRight rightValue⟩
  | @round first value rest dtype ih => exact ih (by simpa [evalExpr] using evaluated)

section Compute

variable {beyond : String → Integer → Integer → Option Integer} {bigints : String → Option Int64}
  {resolver : String → String} {env : Env}

/-- The database has a value exactly when the reference has and no literal operation is too wide,
and it is the reference's, in the node's type. -/
theorem evaluate_sqlOf {node : ExprNode} (value : ValueNode node) (known : KnownOperators node)
    (bound : ∀ name ∈ exprReads node, bigints (resolver name) = env[name]?) {integer : Integer} :
    evaluate beyond bigints (sqlOf resolver node) = some integer ↔
      ∃ result, evalExpr node env = .ok result ∧ LiteralsNarrow node ∧
        (sqlType node).checked result.toInt = some integer := by
  induction value generalizing integer with
  | num value dtype => simp [sqlOf, evaluate, evalExpr, LiteralsNarrow, sqlType]
  | var name dtype =>
      have here := bound name (by simp [exprReads])
      rw [sqlOf, evaluate, here, evalExpr_var]
      cases env[name]? with
      | none => simp
      | some value =>
          have typed : IntegerType.int8.checked value.toInt = some (.int8 value) :=
            checked_eq_some.mpr ⟨rfl, rfl⟩
          simp [LiteralsNarrow, sqlType, typed]
  | @bin lhs rhs left right op dtype ihLeft ihRight =>
      obtain ⟨operator, knownLeft, knownRight⟩ := known
      have leftIff := @ihLeft knownLeft fun name listed =>
        bound name (List.mem_append_left _ listed)
      have rightIff := @ihRight knownRight fun name listed =>
        bound name (List.mem_append_right _ listed)
      have arithmetic := (toString_operator op).mpr operator
      constructor
      · intro computed
        simp only [sqlOf, evaluate, Option.bind_eq_bind, Option.bind_eq_some_iff, operate,
          arithmetic, if_true] at computed
        obtain ⟨leftInteger, leftComputed, rightInteger, rightComputed, whole, exactly, fitted⟩ :=
          computed
        obtain ⟨a, leftValue, leftNarrow, leftChecked⟩ := leftIff.mp leftComputed
        obtain ⟨b, rightValue, rightNarrow, rightChecked⟩ := rightIff.mp rightComputed
        obtain ⟨leftType, leftSame⟩ := checked_eq_some.mp leftChecked
        obtain ⟨rightType, rightSame⟩ := checked_eq_some.mp rightChecked
        rw [leftSame, rightSame] at exactly
        rw [leftType, rightType] at fitted
        obtain ⟨type, same⟩ := checked_eq_some.mp fitted
        obtain ⟨result, resultSame⟩ := integer.exists_bigint
        have resultWhole : result.toInt = whole := resultSame.trans same
        rw [← resultWhole] at exactly fitted
        have evaluated : evalExpr (.bin op lhs rhs dtype) env = .ok result := by
          simp only [evalExpr_bin, bind_ok]
          exact ⟨a, leftValue, b, rightValue, (checkedBin_ok operator).mpr exactly⟩
        refine ⟨result, evaluated, ⟨leftNarrow, rightNarrow, fun typed other closed => ?_⟩, fitted⟩
        rw [evalExpr_literals (.bin left right op dtype) typed, closed, Except.ok.injEq]
          at evaluated
        rw [evaluated]
        rw [sqlType] at typed
        rw [typed, IntegerType.checked] at fitted
        split at fitted
        · assumption
        · cases fitted
      · rintro ⟨result, evaluated, ⟨leftNarrow, rightNarrow, _⟩, fitted⟩
        simp only [evalExpr_bin, bind_ok] at evaluated
        obtain ⟨a, leftValue, b, rightValue, computed⟩ := evaluated
        obtain ⟨leftInteger, leftChecked⟩ := leftNarrow.checked left leftValue
        obtain ⟨rightInteger, rightChecked⟩ := rightNarrow.checked right rightValue
        have leftComputed := leftIff.mpr ⟨a, leftValue, leftNarrow, leftChecked⟩
        have rightComputed := rightIff.mpr ⟨b, rightValue, rightNarrow, rightChecked⟩
        obtain ⟨leftType, leftSame⟩ := checked_eq_some.mp leftChecked
        obtain ⟨rightType, rightSame⟩ := checked_eq_some.mp rightChecked
        rw [checkedBin_ok operator, ← leftSame, ← rightSame] at computed
        simp only [sqlOf, evaluate, leftComputed, rightComputed, Option.bind_eq_bind,
          Option.bind_some, operate, arithmetic, if_true, computed, leftType, rightType]
        exact fitted
  | @round first value rest dtype ih =>
      simpa [sqlOf, evalExpr, LiteralsNarrow, sqlType] using ih known bound

end Compute

/-! The renderings against the reference. -/

section Rendering

variable (beyond : String → Integer → Integer → Option Integer) (bigints : String → Option Int64)
  (resolver : String → String)

/-- What the database makes of a compute's text; nothing when it raises. -/
def sqlValue (node : ExprNode) : Option Int64 :=
  (toSql node resolver).toOption.bind (assign beyond bigints)

/-- What the database makes of a guard's text. -/
def sqlTruth (guard : ExprNode) : Option Bool :=
  (guardToSql guard resolver).toOption.bind (condition beyond bigints)

/-- Names rendered as bigint variables that hold the environment's values. -/
structure BigintVariables (env : Env) (names : List String) : Prop where
  identifier : ∀ name ∈ names, isIdentifier (resolver name).toList = true
  value : ∀ name ∈ names, bigints (resolver name) = env[name]?

variable {beyond bigints resolver} {env : Env}

theorem sqlValue_iff {node : ExprNode} (value : ValueNode node) (known : KnownOperators node)
    (bigint : BigintVariables bigints resolver env (exprReads node)) {result : Int64} :
    sqlValue beyond bigints resolver node = some result ↔
      evalExpr node env = .ok result ∧ LiteralsNarrow node := by
  obtain ⟨text, written, reads⟩ := emit_reads resolver value known bigint.identifier
  have computes := fun integer => @evaluate_sqlOf beyond bigints resolver env node value known
    bigint.value integer
  simp only [sqlValue, toSql, written, Except.toOption, Option.bind_some, assign,
    reads.readExpression, Option.bind_eq_bind, Option.bind_eq_some_iff, MachineInt.checked_eq_some,
    computes]
  constructor
  · rintro ⟨integer, ⟨other, evaluated, narrow, checked⟩, same⟩
    rw [(checked_eq_some.mp checked).2] at same
    exact ⟨by rw [evaluated, MachineInt.toInt_injective same], narrow⟩
  · rintro ⟨evaluated, narrow⟩
    obtain ⟨integer, checked⟩ := narrow.checked value evaluated
    exact ⟨integer, ⟨result, evaluated, narrow, checked⟩, (checked_eq_some.mp checked).2.symm⟩

theorem compare_sqlComparison {op : String} (known : op ∈ ["<", "<=", ">", ">=", "==", "!="])
    (a b : Int64) : compare (sqlComparison op) a.toInt b.toInt = (compareWith op a b).toOption := by
  simp only [List.mem_cons, List.not_mem_nil, or_false] at known
  rcases known with rfl | rfl | rfl | rfl | rfl | rfl <;>
    simp [Sql.compare, sqlComparison, compareWith, Except.toOption, Int64.toInt_inj]

theorem compareWith_known {op : String} {a b : Int64} {held : Bool}
    (compared : compareWith op a b = .ok held) : op ∈ ["<", "<=", ">", ">=", "==", "!="] := by
  unfold compareWith at compared
  split_ifs at compared <;> simp_all

theorem sqlTruth_iff {op : String} {lhs rhs : ExprNode} {dtype : ValueCategory}
    (left : ValueNode lhs) (right : ValueNode rhs)
    (known : KnownOperators (.cmp op lhs rhs dtype))
    (bigint : BigintVariables bigints resolver env (guardReads (.cmp op lhs rhs dtype)))
    {held : Bool} : sqlTruth beyond bigints resolver (.cmp op lhs rhs dtype) = some held ↔
      evalGuard (.cmp op lhs rhs dtype) env = .ok held ∧
        LiteralsNarrow (.cmp op lhs rhs dtype) := by
  obtain ⟨comparison, knownLeft, knownRight⟩ := known
  have leftNames : ∀ name ∈ exprReads lhs, name ∈ guardReads (.cmp op lhs rhs dtype) :=
    fun name listed => List.mem_append_left _ listed
  have rightNames : ∀ name ∈ exprReads rhs, name ∈ guardReads (.cmp op lhs rhs dtype) :=
    fun name listed => List.mem_append_right _ listed
  obtain ⟨leftText, leftWritten, leftReads⟩ := emit_reads resolver left knownLeft
    fun name listed => bigint.identifier name (leftNames name listed)
  obtain ⟨rightText, rightWritten, rightReads⟩ := emit_reads resolver right knownRight
    fun name listed => bigint.identifier name (rightNames name listed)
  have leftComputes := fun integer => @evaluate_sqlOf beyond bigints resolver env lhs left knownLeft
    (fun name listed => bigint.value name (leftNames name listed)) integer
  have rightComputes := fun integer => @evaluate_sqlOf beyond bigints resolver env rhs right
    knownRight (fun name listed => bigint.value name (rightNames name listed)) integer
  have written : guardToSql (.cmp op lhs rhs dtype) resolver =
      .ok (leftText ++ " " ++ sqlComparison op ++ " " ++ rightText) := by
    rw [guardToSql, leftWritten, rightWritten]
    rfl
  simp only [sqlTruth, written, Except.toOption, Option.bind_some, condition,
    readExpression_comparison leftReads rightReads (symbol_comparison comparison),
    Option.bind_eq_bind, holds, Option.bind_eq_some_iff, leftComputes, rightComputes, evalGuard_cmp,
    bind_ok]
  constructor
  · rintro ⟨leftInteger, ⟨a, leftValue, leftNarrow, leftChecked⟩, rightInteger,
      ⟨b, rightValue, rightNarrow, rightChecked⟩, compared⟩
    rw [(checked_eq_some.mp leftChecked).2, (checked_eq_some.mp rightChecked).2,
      compare_sqlComparison comparison] at compared
    refine ⟨⟨a, leftValue, b, rightValue, ?_⟩, leftNarrow, rightNarrow⟩
    cases result : compareWith op a b <;> simp_all [Except.toOption]
  · rintro ⟨⟨a, leftValue, b, rightValue, compared⟩, leftNarrow, rightNarrow⟩
    obtain ⟨leftInteger, leftChecked⟩ := leftNarrow.checked left leftValue
    obtain ⟨rightInteger, rightChecked⟩ := rightNarrow.checked right rightValue
    refine ⟨leftInteger, ⟨a, leftValue, leftNarrow, leftChecked⟩, rightInteger,
      ⟨b, rightValue, rightNarrow, rightChecked⟩, ?_⟩
    rw [(checked_eq_some.mp leftChecked).2, (checked_eq_some.mp rightChecked).2,
      compare_sqlComparison comparison, compared]
    rfl

/-- Two partial results agree when one of them is the other, under a condition. -/
theorem agree_iff {α ε : Type} {sql : Option α} {reference : Except ε α} {narrow : Prop}
    (same : ∀ value, sql = some value ↔ reference = .ok value ∧ narrow) :
    sql = reference.toOption ↔ ∀ value, reference = .ok value → narrow := by
  constructor
  · rintro agree value computed
    rw [computed] at agree
    exact ((same value).mp agree).2
  · intro covered
    cases computed : reference with
    | ok value => exact (same value).mpr ⟨computed, covered value computed⟩
    | error failure =>
        refine Option.eq_none_iff_forall_ne_some.mpr fun value found => ?_
        rw [((same value).mp found).1] at computed
        cases computed

/-- Where the database computes the reference's result of a node: with the language's own
operators, wherever the reference has a result, no literal operation is too wide; with any other
operator, the database raises, as the reference does. -/
def RendersFaithfully {α ε : Type} (node : ExprNode) (sql : Option α) (reference : Except ε α) :
    Prop :=
  (KnownOperators node → ∀ value, reference = .ok value → LiteralsNarrow node) ∧
    (¬KnownOperators node → sql = none)

/-- The SQL of a compute or a comparison guard has the reference's result exactly where it renders
faithfully. -/
theorem sql_rendering_iff (beyond : String → Integer → Integer → Option Integer)
    (bigints : String → Option Int64) (resolver : String → String) (categories : CategoryEnv)
    (env : Env) :
    (∀ raw node, typeExpr categories raw = .ok node →
      BigintVariables bigints resolver env (exprReads node) →
      (sqlValue beyond bigints resolver node = (evalExpr node env).toOption ↔
        RendersFaithfully node (sqlValue beyond bigints resolver node) (evalExpr node env))) ∧
    ∀ raw op lhs rhs dtype, typeGuard categories raw = .ok (.cmp op lhs rhs dtype) →
      BigintVariables bigints resolver env (guardReads (.cmp op lhs rhs dtype)) →
      (sqlTruth beyond bigints resolver (.cmp op lhs rhs dtype) =
          (evalGuard (.cmp op lhs rhs dtype) env).toOption ↔
        RendersFaithfully (.cmp op lhs rhs dtype)
          (sqlTruth beyond bigints resolver (.cmp op lhs rhs dtype))
          (evalGuard (.cmp op lhs rhs dtype) env)) := by
  constructor
  · intro raw node typed bigint
    have value := typeExpr_value raw typed
    by_cases known : KnownOperators node
    · rw [agree_iff fun result => sqlValue_iff value known bigint]
      simp [RendersFaithfully, known]
    · have refused : (evalExpr node env).toOption = none := by
        cases computed : evalExpr node env with
        | error failure => rfl
        | ok result => exact absurd (evalExpr_known value computed) known
      simp [RendersFaithfully, known, refused]
  · intro raw op lhs rhs dtype typed bigint
    obtain ⟨left, right⟩ := typeGuard_values typed
    by_cases known : KnownOperators (.cmp op lhs rhs dtype)
    · rw [agree_iff fun held => sqlTruth_iff left right known bigint]
      simp [RendersFaithfully, known]
    · have refused : (evalGuard (.cmp op lhs rhs dtype) env).toOption = none := by
        cases computed : evalGuard (.cmp op lhs rhs dtype) env with
        | error failure => rfl
        | ok held =>
            simp only [evalGuard_cmp, bind_ok] at computed
            obtain ⟨a, leftValue, b, rightValue, compared⟩ := computed
            exact absurd ⟨compareWith_known compared, evalExpr_known left leftValue,
              evalExpr_known right rightValue⟩ known
      simp [RendersFaithfully, known, refused]

/-! A sum of literals, and a compute over a variable, in a database with the four operators. -/

def fourOperators : String → Integer → Integer → Option Integer := fun _ _ _ => none

def noBigints : String → Option Int64 := fun _ => none

def wideSum : ExprNode := .bin '+' (.num 2147483647 .decimal) (.num 1 .decimal) .decimal

/-- Two 32-bit literals are added in 32 bits. -/
theorem wideSum_raises :
    typeExpr ∅ wideSum = .ok wideSum ∧ toSql wideSum id = .ok "(2147483647 + 1)" ∧
      evalExpr wideSum ∅ = .ok 2147483648 ∧ sqlValue fourOperators noBigints id wideSum = none := by
  refine ⟨rfl, by decide +kernel, rfl, ?_⟩
  have value : ValueNode wideSum := .bin (.num ..) (.num ..) ..
  have known : KnownOperators wideSum := ⟨by decide, trivial, trivial⟩
  have bigint : BigintVariables noBigints id ∅ (exprReads wideSum) :=
    ⟨by simp [wideSum, exprReads], by simp [wideSum, exprReads]⟩
  refine Option.eq_none_iff_forall_ne_some.mpr fun result computed => ?_
  obtain ⟨_, narrow⟩ := (sqlValue_iff value known bigint).mp computed
  exact absurd (narrow.2.2 (by decide) 2147483648 rfl) (by decide)

def ratePercent : ExprNode :=
  .bin '*' (.var "rate" .decimal) (.num 100 .decimal) .decimal

def rateEnv : Env := .ofList [("rate", (7 : Int64))]

/-- A compute over a variable has the reference's value. -/
theorem sql_rendering_percent :
    sqlValue fourOperators (fun _ => some 7) id ratePercent =
      (evalExpr ratePercent rateEnv).toOption := by
  have bigint : BigintVariables (fun _ => some 7) id rateEnv (exprReads ratePercent) := by
    refine ⟨?_, ?_⟩ <;> intro name listed <;> simp [exprReads, ratePercent] at listed <;>
      subst listed
    · decide
    · decide +kernel
  refine ((sql_rendering_iff fourOperators (fun _ => some 7) id
    (.ofList [("rate", ValueCategory.decimal)]) rateEnv).1 ratePercent ratePercent rfl bigint).mpr ⟨fun _ _ _ => ?_, fun unknown => ?_⟩
  · exact ⟨trivial, trivial, fun typed => by cases typed⟩
  · exact absurd ⟨by decide, trivial, trivial⟩ unknown

end Rendering

end Neutrino
