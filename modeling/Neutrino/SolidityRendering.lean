import Neutrino.SolidityText
import Neutrino.SqlRendering

/-! The Solidity rendering of expressions and guards: where the contract computes the value of the
reference evaluator. -/

namespace Neutrino

open Checked

/-! The renderers. -/

def toSolidity (node : ExprNode) (resolver : String → String) : Except ExprError String :=
  emit resolver node

def guardToSolidity (node : ExprNode) (resolver : String → String) : Except ExprError String :=
  match node with
  | .cmp op lhs rhs _ => do
      let left ← emit resolver lhs
      let right ← emit resolver rhs
      return left ++ " " ++ op ++ " " ++ right
  | _ => .error ⟨"expr.invalid", "guardToSolidity on a non-comparison node"⟩

/-- The name a contract gives a variable. -/
def uref (name : String) : String := "u_" ++ name

/-! Literals. -/

/-- No variable inside. -/
def LiteralOnly : ExprNode → Bool
  | .num _ _ => true
  | .bin _ lhs rhs _ => LiteralOnly lhs && LiteralOnly rhs
  | .call _ args _ =>
      match args with
      | [] => false
      | first :: _ => LiteralOnly first
  | _ => false

/-- The exact value of an expression of literals. -/
def literalValue : ExprNode → Option ℚ
  | .num value _ => some value.toInt
  | .bin op lhs rhs _ => do
      let a ← literalValue lhs
      let b ← literalValue rhs
      Solidity.exactly op.toString a b
  | .call _ args _ =>
      match args with
      | [] => none
      | first :: _ => literalValue first
  | _ => none

/-- Every operand of literals alone has exactly the value that the reference gives it. -/
def ExactLiterals (node : ExprNode) : Prop :=
  if LiteralOnly node then
    ∀ value, evalExpr node ∅ = .ok value → literalValue node = some (value.toInt : ℚ)
  else
    match node with
    | .bin _ lhs rhs _ => ExactLiterals lhs ∧ ExactLiterals rhs
    | .call _ (first :: _) _ => ExactLiterals first
    | .cmp _ lhs rhs _ => ExactLiterals lhs ∧ ExactLiterals rhs
    | _ => True

section Reference

variable (env : Env)

def NonNegative (node : ExprNode) : Prop := ∀ value, evalExpr node env = .ok value → 0 ≤ value.toInt

/-- No operand of an operation that holds a variable is negative. -/
def Unsigned (node : ExprNode) : Prop :=
  if LiteralOnly node then True
  else
    match node with
    | .bin _ lhs rhs _ =>
        (Unsigned lhs ∧ NonNegative env lhs) ∧ Unsigned rhs ∧ NonNegative env rhs
    | .call _ (first :: _) _ => Unsigned first
    | _ => True

/-- Nor are the sides of a comparison, unless both are of literals and of one sign. -/
def UnsignedGuard : ExprNode → Prop
  | .cmp _ lhs rhs _ =>
      if LiteralOnly lhs ∧ LiteralOnly rhs then NonNegative env lhs ↔ NonNegative env rhs
      else (Unsigned env lhs ∧ NonNegative env lhs) ∧ Unsigned env rhs ∧ NonNegative env rhs
  | _ => True

end Reference

/-- Names rendered as uint256 variables that hold the environment's values, none negative. -/
structure Uint256Variables (uints : String → Option Nat) (env : Env) (names : List String) :
    Prop where
  identifier : ∀ name ∈ names, Sql.isIdentifier (uref name).toList = true
  value : ∀ name ∈ names, ∃ value, env[name]? = some value ∧ 0 ≤ value.toInt ∧
    uints (uref name) = some value.toInt.toNat

theorem unsigned_literal {node : ExprNode} (literal : LiteralOnly node = true) (env : Env) :
    Unsigned env node := by
  rw [Unsigned.eq_def, if_pos literal]
  trivial

theorem exactLiterals_literal {node : ExprNode} (literal : LiteralOnly node = true) :
    ExactLiterals node ↔
      ∀ value, evalExpr node ∅ = .ok value → literalValue node = some (value.toInt : ℚ) := by
  rw [ExactLiterals.eq_def, if_pos literal]

theorem unsigned_bin {lhs rhs : ExprNode} {op : Char} {dtype : ValueCategory}
    (opened : ¬LiteralOnly (.bin op lhs rhs dtype) = true) (env : Env) :
    Unsigned env (.bin op lhs rhs dtype) ↔
      (Unsigned env lhs ∧ NonNegative env lhs) ∧ Unsigned env rhs ∧ NonNegative env rhs := by
  rw [Unsigned, if_neg opened]

theorem exactLiterals_bin {lhs rhs : ExprNode} {op : Char} {dtype : ValueCategory}
    (opened : ¬LiteralOnly (.bin op lhs rhs dtype) = true) :
    ExactLiterals (.bin op lhs rhs dtype) ↔ ExactLiterals lhs ∧ ExactLiterals rhs := by
  rw [ExactLiterals, if_neg opened]

theorem unsigned_round {first : ExprNode} {name : String} {rest : List ExprNode}
    {dtype : ValueCategory} (opened : ¬LiteralOnly (.call name (first :: rest) dtype) = true)
    (env : Env) : Unsigned env (.call name (first :: rest) dtype) ↔ Unsigned env first := by
  rw [Unsigned, if_neg opened]

theorem unsigned_var (name : String) (dtype : ValueCategory) (env : Env) :
    Unsigned env (.var name dtype) := by
  rw [Unsigned.eq_def]
  split <;> trivial

theorem exactLiterals_round {first : ExprNode} {name : String} {rest : List ExprNode}
    {dtype : ValueCategory} (opened : ¬LiteralOnly (.call name (first :: rest) dtype) = true) :
    ExactLiterals (.call name (first :: rest) dtype) ↔ ExactLiterals first := by
  rw [ExactLiterals, if_neg opened]

theorem nonNegative_iff {node : ExprNode} {env : Env} {value : Int64}
    (evaluated : evalExpr node env = .ok value) : NonNegative env node ↔ 0 ≤ value.toInt := by
  constructor
  · intro positive
    exact positive value evaluated
  · intro positive other otherEvaluated
    rw [evaluated] at otherEvaluated
    cases otherEvaluated
    exact positive

section Compute

variable {uints : String → Option Nat} {env : Env}

theorem literalOnly_literals {node : ExprNode} (value : ValueNode node)
    (literal : LiteralOnly node = true) (env : Env) : evalExpr node env = evalExpr node ∅ := by
  induction value with
  | num => rfl
  | var => cases literal
  | @bin lhs rhs left right op dtype ihLeft ihRight =>
      obtain ⟨leftLiteral, rightLiteral⟩ := Bool.and_eq_true_iff.mp literal
      rw [evalExpr_bin, evalExpr_bin, ihLeft leftLiteral, ihRight rightLiteral]
  | @round first value rest dtype ih => simpa [evalExpr] using ih literal

/-- Solidity takes literals at their exact value. -/
theorem evaluate_literals {node : ExprNode} (value : ValueNode node)
    (literal : LiteralOnly node = true) :
    Solidity.evaluate uints (sqlOf uref node) = (literalValue node).map .rational := by
  induction value with
  | num => rfl
  | var => cases literal
  | @bin lhs rhs left right op dtype ihLeft ihRight =>
      obtain ⟨leftLiteral, rightLiteral⟩ := Bool.and_eq_true_iff.mp literal
      rw [sqlOf, Solidity.evaluate, ihLeft leftLiteral, ihRight rightLiteral, literalValue]
      cases literalValue lhs <;> cases literalValue rhs <;> simp [Solidity.operate]
  | @round first value rest dtype ih => exact ih literal

theorem int64_small (value : Int64) : value.toInt < 2 ^ 256 := by
  have upper := value.toInt_lt
  omega

/-- Any other expression has a word. -/
theorem evaluate_word {node : ExprNode} (value : ValueNode node)
    (open' : LiteralOnly node = false) {result : Solidity.Value}
    (computed : Solidity.evaluate uints (sqlOf uref node) = some result) :
    ∃ word, result = .word word := by
  induction value generalizing result with
  | num => cases open'
  | var name dtype =>
      obtain ⟨word, _, rfl⟩ := Option.map_eq_some_iff.mp computed
      exact ⟨word, rfl⟩
  | @bin lhs rhs left right op dtype ihLeft ihRight =>
      simp only [sqlOf, Solidity.evaluate, Option.bind_eq_bind, Option.bind_eq_some_iff] at computed
      obtain ⟨a, leftComputed, b, rightComputed, operated⟩ := computed
      refine Solidity.operate_word operated ?_
      rcases Bool.and_eq_false_iff.mp open' with leftOpen | rightOpen
      · exact .inl (ihLeft leftOpen leftComputed)
      · exact .inr (ihRight rightOpen rightComputed)
  | @round first value rest dtype ih => exact ih open' computed

theorem toWord_literals {node : ExprNode} (value : ValueNode node)
    (literal : LiteralOnly node = true) (exact : ExactLiterals node) {result : Int64}
    (evaluated : evalExpr node env = .ok result) {word : Nat} :
    (Solidity.evaluate uints (sqlOf uref node)).bind Solidity.toWord = some word ↔
      Unsigned env node ∧ 0 ≤ result.toInt ∧ word = result.toInt.toNat := by
  have exactly := (exactLiterals_literal literal).mp exact result
    (by rw [← literalOnly_literals value literal env, evaluated])
  rw [evaluate_literals value literal, exactly, Option.map_some, Option.bind_some,
    Solidity.toWord_literal (int64_small result)]
  exact (and_iff_right (unsigned_literal literal env)).symm

/-- The contract has the reference's value of an expression whose literals are exact, where no
operand is negative. -/
theorem toWord_evaluate {node : ExprNode} (value : ValueNode node) (exact : ExactLiterals node)
    (uint256 : Uint256Variables uints env (exprReads node)) {result : Int64}
    (evaluated : evalExpr node env = .ok result) {word : Nat} :
    (Solidity.evaluate uints (sqlOf uref node)).bind Solidity.toWord = some word ↔
      Unsigned env node ∧ 0 ≤ result.toInt ∧ word = result.toInt.toNat := by
  induction value generalizing result word with
  | num value dtype => exact toWord_literals (.num value dtype) rfl exact evaluated
  | var name dtype =>
      obtain ⟨bound, found, positive, named⟩ := uint256.value name (by simp [exprReads])
      rw [evalExpr_var, found] at evaluated
      cases evaluated
      rw [sqlOf, Solidity.evaluate, named]
      constructor
      · intro same
        exact ⟨unsigned_var name dtype env, positive, (Option.some.inj same).symm⟩
      · rintro ⟨_, _, rfl⟩
        rfl
  | @round first value rest dtype ih =>
      by_cases literal : LiteralOnly (.call "round" (first :: rest) dtype) = true
      · exact toWord_literals (.round value rest dtype) literal exact evaluated
      rw [unsigned_round literal, ← @ih ((exactLiterals_round literal).mp exact) uint256 result
        (by simpa [evalExpr] using evaluated) word]
      rfl
  | @bin lhs rhs left right op dtype ihLeft ihRight =>
      by_cases literal : LiteralOnly (.bin op lhs rhs dtype) = true
      · exact toWord_literals (.bin left right op dtype) literal exact evaluated
      obtain ⟨operator, _, _⟩ := evalExpr_known (.bin left right op dtype) evaluated
      simp only [evalExpr_bin, bind_ok] at evaluated
      obtain ⟨a, leftValue, b, rightValue, computed⟩ := evaluated
      obtain ⟨leftExact, rightExact⟩ := (exactLiterals_bin literal).mp exact
      have leftIff := @ihLeft leftExact ⟨fun name listed => uint256.identifier name
        (List.mem_append_left _ listed), fun name listed => uint256.value name
        (List.mem_append_left _ listed)⟩ a leftValue
      have rightIff := @ihRight rightExact ⟨fun name listed => uint256.identifier name
        (List.mem_append_right _ listed), fun name listed => uint256.value name
        (List.mem_append_right _ listed)⟩ b rightValue
      have exactly := (checkedBin_ok operator).mp computed
      have asWords : (Solidity.evaluate uints (sqlOf uref (.bin op lhs rhs dtype))).bind
          Solidity.toWord = ((Solidity.evaluate uints (sqlOf uref lhs)).bind Solidity.toWord).bind
            fun x => ((Solidity.evaluate uints (sqlOf uref rhs)).bind Solidity.toWord).bind
              fun y => Solidity.checked op.toString x y := by
        refine Solidity.toWord_operate ?_
        rcases Bool.and_eq_false_iff.mp (Bool.eq_false_of_not_eq_true literal) with opened | opened
        · exact .inl fun value computed => evaluate_word left opened computed
        · exact .inr fun value computed => evaluate_word right opened computed
      rw [asWords, unsigned_bin literal, nonNegative_iff leftValue, nonNegative_iff rightValue,
        Option.bind_eq_some_iff]
      constructor
      · rintro ⟨x, leftWord, rest⟩
        obtain ⟨y, rightWord, total⟩ := Option.bind_eq_some_iff.mp rest
        obtain ⟨leftUnsigned, leftPositive, rfl⟩ := leftIff.mp leftWord
        obtain ⟨rightUnsigned, rightPositive, rfl⟩ := rightIff.mp rightWord
        exact ⟨⟨⟨leftUnsigned, leftPositive⟩, rightUnsigned, rightPositive⟩,
          (Solidity.checked_exact leftPositive rightPositive exactly (int64_small result)).mp total⟩
      · rintro ⟨⟨⟨leftUnsigned, leftPositive⟩, rightUnsigned, rightPositive⟩, whole⟩
        refine ⟨_, leftIff.mpr ⟨leftUnsigned, leftPositive, rfl⟩, Option.bind_eq_some_iff.mpr
          ⟨_, rightIff.mpr ⟨rightUnsigned, rightPositive, rfl⟩, ?_⟩⟩
        exact (Solidity.checked_exact leftPositive rightPositive exactly (int64_small result)).mpr
          whole

/-- The integer a side of a comparison is taken as. -/
theorem toInteger_evaluate {node : ExprNode} (value : ValueNode node) (exact : ExactLiterals node)
    (uint256 : Uint256Variables uints env (exprReads node)) {result : Int64}
    (evaluated : evalExpr node env = .ok result) (integer : Int) :
    (Solidity.evaluate uints (sqlOf uref node)).bind Solidity.toInteger = some integer ↔
      (LiteralOnly node = false → Unsigned env node ∧ NonNegative env node) ∧
        integer = result.toInt := by
  rw [nonNegative_iff evaluated]
  by_cases literal : LiteralOnly node = true
  · have exactly := (exactLiterals_literal literal).mp exact result
      (by rw [← literalOnly_literals value literal env, evaluated])
    have lower := result.le_toInt
    have upper := int64_small result
    have whole : -(2 ^ 255) ≤ result.toInt ∧ result.toInt < 2 ^ 256 := ⟨by omega, upper⟩
    rw [evaluate_literals value literal, exactly]
    simp only [Option.map_some, Option.bind_some, Solidity.toInteger, Rat.den_intCast,
      Rat.num_intCast, whole, and_self, if_true, Option.some.injEq, literal, Bool.true_eq_false,
      false_imp_iff, true_and]
    exact eq_comm
  · have opened := Bool.eq_false_of_not_eq_true literal
    have asWord : ∀ word, (Solidity.evaluate uints (sqlOf uref node)).bind Solidity.toWord =
        some word ↔ Unsigned env node ∧ 0 ≤ result.toInt ∧ word = result.toInt.toNat :=
      fun _ => toWord_evaluate value exact uint256 evaluated
    rw [opened]
    cases computed : Solidity.evaluate uints (sqlOf uref node) with
    | none =>
        rw [computed] at asWord
        simp only [Option.bind_none, reduceCtorEq, false_iff, not_and, true_imp_iff] at asWord ⊢
        rintro ⟨unsigned, positive⟩
        exact absurd rfl (asWord _ unsigned positive)
    | some found =>
        obtain ⟨word, rfl⟩ := evaluate_word value opened computed
        rw [computed] at asWord
        simp only [Option.bind_some, Solidity.toWord, Solidity.toInteger, Option.some.injEq,
          true_imp_iff] at asWord ⊢
        constructor
        · rintro rfl
          obtain ⟨unsigned, positive, same⟩ := (asWord word).mp rfl
          exact ⟨⟨unsigned, positive⟩, by omega⟩
        · rintro ⟨⟨unsigned, positive⟩, rfl⟩
          have same := (asWord _).mpr ⟨unsigned, positive, rfl⟩
          omega

theorem compareIntegers_compareWith {op : String} (a b : Int64) :
    Solidity.compareIntegers op a.toInt b.toInt = (compareWith op a b).toOption := by
  unfold Solidity.compareIntegers compareWith
  split_ifs <;> simp_all [Except.toOption, Int64.toInt_inj]

theorem compare_some {op : String} {first second : Option Solidity.Value} {held : Bool} :
    (first.bind fun a => second.bind fun b => Solidity.compare op a b) = some held ↔
      ∃ x y, first.bind Solidity.toInteger = some x ∧ second.bind Solidity.toInteger = some y ∧
        (0 ≤ x ↔ 0 ≤ y) ∧ Solidity.compareIntegers op x y = some held := by
  cases first with
  | none => simp
  | some a =>
      cases second with
      | none => simp
      | some b =>
          simp only [Option.bind_some, Solidity.compare, Option.bind_eq_bind,
            Option.bind_eq_some_iff]
          constructor
          · rintro ⟨x, left, y, right, compared⟩
            split_ifs at compared with sign
            exact ⟨x, y, left, right, sign, compared⟩
          · rintro ⟨x, y, left, right, sign, compared⟩
            exact ⟨x, left, y, right, by rw [if_pos sign, compared]⟩

end Compute

/-! The renderings against the reference. -/

section Rendering

variable (uints : String → Option Nat)

/-- What a contract makes of a compute's text; nothing when it does not compile or reverts. -/
def solidityValue (node : ExprNode) : Option Nat :=
  (toSolidity node uref).toOption.bind (Solidity.assign uints)

/-- What a contract makes of a guard's text. -/
def solidityTruth (guard : ExprNode) : Option Bool :=
  (guardToSolidity guard uref).toOption.bind (Solidity.condition uints)

variable {uints} {env : Env}

theorem solidityValue_evaluate {node : ExprNode} (value : ValueNode node)
    (uint256 : Uint256Variables uints env (exprReads node)) {result : Int64}
    (evaluated : evalExpr node env = .ok result) :
    solidityValue uints node =
      (Solidity.evaluate uints (sqlOf uref node)).bind Solidity.toWord := by
  obtain ⟨text, written, reads⟩ :=
    emit_reads uref value (evalExpr_known value evaluated) uint256.identifier
  simp only [solidityValue, toSolidity, written, Except.toOption, Option.bind_some,
    Solidity.assign, reads.readExpression, Option.bind_eq_bind]

theorem symbol_same {op : String} (known : op ∈ ["<", "<=", ">", ">=", "==", "!="]) :
    Symbol op := by
  simp only [List.mem_cons, List.not_mem_nil, or_false] at known
  rcases known with rfl | rfl | rfl | rfl | rfl | rfl <;> exact ⟨by decide, by decide⟩

theorem solidityTruth_evaluate {op : String} {lhs rhs : ExprNode} {dtype : ValueCategory}
    (left : ValueNode lhs) (right : ValueNode rhs)
    (uint256 : Uint256Variables uints env (guardReads (.cmp op lhs rhs dtype))) {held : Bool}
    (evaluated : evalGuard (.cmp op lhs rhs dtype) env = .ok held) :
    solidityTruth uints (.cmp op lhs rhs dtype) =
      (Solidity.evaluate uints (sqlOf uref lhs)).bind fun a =>
        (Solidity.evaluate uints (sqlOf uref rhs)).bind fun b => Solidity.compare op a b := by
  simp only [evalGuard_cmp, bind_ok] at evaluated
  obtain ⟨a, leftValue, b, rightValue, compared⟩ := evaluated
  obtain ⟨leftText, leftWritten, leftReads⟩ := emit_reads uref left (evalExpr_known left leftValue)
    fun name listed => uint256.identifier name (List.mem_append_left _ listed)
  obtain ⟨rightText, rightWritten, rightReads⟩ := emit_reads uref right
    (evalExpr_known right rightValue)
    fun name listed => uint256.identifier name (List.mem_append_right _ listed)
  have written : guardToSolidity (.cmp op lhs rhs dtype) uref =
      .ok (leftText ++ " " ++ op ++ " " ++ rightText) := by
    rw [guardToSolidity, leftWritten, rightWritten]
    rfl
  simp only [solidityTruth, written, Except.toOption, Option.bind_some, Solidity.condition,
    readExpression_comparison leftReads rightReads (symbol_same (compareWith_known compared)),
    Option.bind_eq_bind, Solidity.holds]

theorem solidityValue_iff {node : ExprNode} (value : ValueNode node) (exact : ExactLiterals node)
    (uint256 : Uint256Variables uints env (exprReads node)) {result : Int64}
    (evaluated : evalExpr node env = .ok result) (positive : 0 ≤ result.toInt) :
    solidityValue uints node = some result.toInt.toNat ↔ Unsigned env node := by
  rw [solidityValue_evaluate value uint256 evaluated,
    toWord_evaluate value exact uint256 evaluated]
  exact and_iff_left ⟨positive, rfl⟩

/-- A compute of literals alone has the reference's value only where it is exact. -/
theorem solidityValue_literals {node : ExprNode} (value : ValueNode node)
    (literal : LiteralOnly node = true)
    (uint256 : Uint256Variables uints env (exprReads node)) {result : Int64}
    (evaluated : evalExpr node env = .ok result) (positive : 0 ≤ result.toInt) :
    solidityValue uints node = some result.toInt.toNat ↔ ExactLiterals node := by
  constructor
  · intro same
    rw [solidityValue_evaluate value uint256 evaluated, evaluate_literals value literal] at same
    rw [exactLiterals_literal literal]
    intro other otherEvaluated
    rw [← literalOnly_literals value literal env, evaluated] at otherEvaluated
    cases otherEvaluated
    obtain ⟨_, exactly, word⟩ := Option.bind_eq_some_iff.mp same
    obtain ⟨exactValue, found, rfl⟩ := Option.map_eq_some_iff.mp exactly
    rw [found, Solidity.toWord_eq word, Option.some.injEq]
    exact_mod_cast Int.toNat_of_nonneg positive
  · intro exact
    exact (solidityValue_iff value exact uint256 evaluated positive).mpr
      (unsigned_literal literal env)

theorem solidityTruth_iff {op : String} {lhs rhs : ExprNode} {dtype : ValueCategory}
    (left : ValueNode lhs) (right : ValueNode rhs) (exact : ExactLiterals (.cmp op lhs rhs dtype))
    (uint256 : Uint256Variables uints env (guardReads (.cmp op lhs rhs dtype))) {held : Bool}
    (evaluated : evalGuard (.cmp op lhs rhs dtype) env = .ok held) :
    solidityTruth uints (.cmp op lhs rhs dtype) = some held ↔
      UnsignedGuard env (.cmp op lhs rhs dtype) := by
  rw [solidityTruth_evaluate left right uint256 evaluated, compare_some]
  simp only [evalGuard_cmp, bind_ok] at evaluated
  obtain ⟨a, leftValue, b, rightValue, compared⟩ := evaluated
  obtain ⟨leftExact, rightExact⟩ : ExactLiterals lhs ∧ ExactLiterals rhs := by
    rwa [ExactLiterals, if_neg (show ¬LiteralOnly (.cmp op lhs rhs dtype) = true from
      Bool.false_ne_true)] at exact
  have leftIff := fun integer => toInteger_evaluate left leftExact
    ⟨fun name listed => uint256.identifier name (List.mem_append_left _ listed),
      fun name listed => uint256.value name (List.mem_append_left _ listed)⟩ leftValue
    integer
  have rightIff := fun integer => toInteger_evaluate right rightExact
    ⟨fun name listed => uint256.identifier name (List.mem_append_right _ listed),
      fun name listed => uint256.value name (List.mem_append_right _ listed)⟩ rightValue
    integer
  have same : Solidity.compareIntegers op a.toInt b.toInt = some held := by
    rw [compareIntegers_compareWith, compared]
    rfl
  have sides : (∃ x y, (Solidity.evaluate uints (sqlOf uref lhs)).bind Solidity.toInteger = some x ∧
      (Solidity.evaluate uints (sqlOf uref rhs)).bind Solidity.toInteger = some y ∧
      (0 ≤ x ↔ 0 ≤ y) ∧ Solidity.compareIntegers op x y = some held) ↔
      (LiteralOnly lhs = false → Unsigned env lhs ∧ NonNegative env lhs) ∧
      (LiteralOnly rhs = false → Unsigned env rhs ∧ NonNegative env rhs) ∧
      (NonNegative env lhs ↔ NonNegative env rhs) := by
    rw [nonNegative_iff leftValue, nonNegative_iff rightValue]
    constructor
    · rintro ⟨x, y, leftInteger, rightInteger, sign, _⟩
      rw [leftIff, nonNegative_iff leftValue] at leftInteger
      rw [rightIff, nonNegative_iff rightValue] at rightInteger
      obtain ⟨leftUnsigned, rfl⟩ := leftInteger
      obtain ⟨rightUnsigned, rfl⟩ := rightInteger
      exact ⟨leftUnsigned, rightUnsigned, sign⟩
    · rintro ⟨leftUnsigned, rightUnsigned, sign⟩
      refine ⟨a.toInt, b.toInt, (leftIff _).mpr ⟨?_, rfl⟩, (rightIff _).mpr ⟨?_, rfl⟩, sign, same⟩
      · rwa [nonNegative_iff leftValue]
      · rwa [nonNegative_iff rightValue]
  rw [sides, UnsignedGuard]
  cases leftLiteral : LiteralOnly lhs <;> cases rightLiteral : LiteralOnly rhs
  · simp only [true_imp_iff, Bool.false_eq_true, and_self, if_false]
    tauto
  · have := unsigned_literal rightLiteral env
    simp only [true_imp_iff, Bool.false_eq_true, false_and, if_false, Bool.true_eq_false,
      false_imp_iff]
    tauto
  · have := unsigned_literal leftLiteral env
    simp only [true_imp_iff, Bool.false_eq_true, and_false, if_false, Bool.true_eq_false,
      false_imp_iff]
    tauto
  · simp

end Rendering

/-- A contract computes the reference's value of a compute whose parts of literals are exact, or
its verdict of such a guard, exactly where no operand is negative; a compute of literals alone
has the value exactly where it is exact. -/
theorem solidity_rendering_iff (uints : String → Option Nat) (categories : CategoryEnv)
    (env : Env) :
    (∀ raw node, typeExpr categories raw = .ok node →
      Uint256Variables uints env (exprReads node) →
      ∀ value, evalExpr node env = .ok value → 0 ≤ value.toInt →
        (ExactLiterals node →
          (solidityValue uints node = some value.toInt.toNat ↔ Unsigned env node)) ∧
        (LiteralOnly node = true →
          (solidityValue uints node = some value.toInt.toNat ↔ ExactLiterals node))) ∧
    ∀ raw op lhs rhs dtype, typeGuard categories raw = .ok (.cmp op lhs rhs dtype) →
      Uint256Variables uints env (guardReads (.cmp op lhs rhs dtype)) →
      ∀ held, evalGuard (.cmp op lhs rhs dtype) env = .ok held →
        ExactLiterals (.cmp op lhs rhs dtype) →
        (solidityTruth uints (.cmp op lhs rhs dtype) = some held ↔
          UnsignedGuard env (.cmp op lhs rhs dtype)) := by
  constructor
  · intro raw node typed uint256 value evaluated positive
    have shape := typeExpr_value raw typed
    exact ⟨fun exact => solidityValue_iff shape exact uint256 evaluated positive,
      fun literal => solidityValue_literals shape literal uint256 evaluated positive⟩
  · intro raw op lhs rhs dtype typed uint256 held evaluated exact
    obtain ⟨left, right⟩ := typeGuard_values typed
    exact solidityTruth_iff left right exact uint256 evaluated

/-! Half of three, doubled; and a variable that goes below zero and comes back. -/

def threeHalvesTwice : ExprNode :=
  .bin '*' (.bin '/' (.num 3 .decimal) (.num 2 .decimal) .decimal) (.num 2 .decimal) .decimal

def belowAndBack : ExprNode :=
  .bin '+' (.bin '-' (.var "x" .decimal) (.num 5 .decimal) .decimal) (.num 5 .decimal) .decimal

def xCategory : CategoryEnv := .ofList [("x", ValueCategory.decimal)]

def xValue (value : Int64) : Env := .ofList [("x", value)]

def xUint (value : Nat) (name : String) : Option Nat := if name = "u_x" then some value else none

/-- The literals are folded exactly, and the intermediate value reverts. -/
theorem threeHalvesTwice_differs :
    (typeExpr ∅ threeHalvesTwice = .ok threeHalvesTwice ∧
      toSolidity threeHalvesTwice uref = .ok "((3 / 2) * 2)" ∧
      evalExpr threeHalvesTwice ∅ = .ok 2 ∧
      solidityValue (xUint 0) threeHalvesTwice = some 3) ∧
    typeExpr xCategory belowAndBack = .ok belowAndBack ∧
      toSolidity belowAndBack uref = .ok "((u_x - 5) + 5)" ∧
      evalExpr belowAndBack (xValue 0) = .ok 0 ∧
      solidityValue (xUint 0) belowAndBack = none := by
  refine ⟨⟨rfl, by decide +kernel, rfl, by decide +kernel⟩, rfl, by decide +kernel, rfl,
    by decide +kernel⟩

/-- From five on the variable never goes below zero. -/
theorem belowAndBack_computes :
    solidityValue (xUint 7) belowAndBack = some (7 : Int64).toInt.toNat := by
  have uint256 : Uint256Variables (xUint 7) (xValue 7) (exprReads belowAndBack) := by
    refine ⟨?_, ?_⟩ <;> intro name listed <;> simp [exprReads, belowAndBack] at listed <;>
      subst listed
    · decide
    · exact ⟨7, rfl, by decide, by decide⟩
  have exact : ExactLiterals belowAndBack := by
    have five : ∀ value, evalExpr (.num 5 .decimal) ∅ = .ok value →
        literalValue (.num 5 .decimal) = some (value.toInt : ℚ) := by
      rintro value ⟨⟩
      rfl
    exact ⟨⟨trivial, five⟩, five⟩
  have unsigned : Unsigned (xValue 7) belowAndBack := by
    have positive : ∀ (node : ExprNode) (value : Int64), evalExpr node (xValue 7) = .ok value →
        0 ≤ value.toInt → NonNegative (xValue 7) node :=
      fun node value evaluated => (nonNegative_iff evaluated).mpr
    exact ⟨⟨⟨⟨trivial, positive _ 7 rfl (by decide)⟩, trivial, positive _ 5 rfl (by decide)⟩,
      positive _ 2 rfl (by decide)⟩, trivial, positive _ 5 rfl (by decide)⟩
  exact (((solidity_rendering_iff (xUint 7) xCategory (xValue 7)).1 belowAndBack belowAndBack rfl
    uint256 7 rfl (by decide)).1 exact).mpr unsigned

end Neutrino
