import Mathlib
import Neutrino.ExprJson
import Neutrino.Library.FirstFault
import Neutrino.NamesRead
import Neutrino.SqlRendering

/-! Checked evaluation of typed expressions against exact integer arithmetic. -/

namespace Neutrino

open Checked FirstFault

/-! Exact values. -/

/-- The integer result of an operator of the language; division truncates. -/
def exactResult (op : Char) (a b : Int) : Option Int :=
  if op = '+' then some (a + b)
  else if op = '-' then some (a - b)
  else if op = '*' then some (a * b)
  else if op = '/' then if b = 0 then none else some (a.tdiv b)
  else none

def exactValue (env : Env) : ExprNode → Option Int
  | .num value _ => some value.toInt
  | .var name _ => (env[name]?).map Int64.toInt
  | .bin op lhs rhs _ => do
      let a ← exactValue env lhs
      let b ← exactValue env rhs
      exactResult op a b
  | .call _ args _ =>
      match args with
      | [] => none
      | first :: _ => exactValue env first
  | .cmp _ _ _ _ => none

def exactComparison (op : String) (a b : Int) : Bool :=
  if op = "<" then a < b
  else if op = "<=" then a ≤ b
  else if op = ">" then a > b
  else if op = ">=" then a ≥ b
  else if op = "==" then a = b
  else a ≠ b

/-- The subexpressions in the order of their evaluation. The scale of a `round` is a literal that
is not evaluated. -/
def subexpressions : ExprNode → List ExprNode
  | .num value dtype => [.num value dtype]
  | .var name dtype => [.var name dtype]
  | .bin op lhs rhs dtype => subexpressions lhs ++ (subexpressions rhs ++ [.bin op lhs rhs dtype])
  | .call name args dtype =>
      match args with
      | [] => []
      | first :: rest => subexpressions first ++ [.call name (first :: rest) dtype]
  | .cmp _ lhs rhs _ => subexpressions lhs ++ subexpressions rhs

/-- The exact value leaves the signed 64-bit range, or the divisor is zero. -/
def Faulty (env : Env) (node : ExprNode) : Prop :=
  (∃ value, exactValue env node = some value ∧ ¬(-(2 ^ 63) ≤ value ∧ value < 2 ^ 63)) ∨
  ∃ lhs rhs dtype, node = .bin '/' lhs rhs dtype ∧ exactValue env rhs = some 0

/-- An operation whose operator is none of the language. -/
def UnknownOperation (node : ExprNode) : Prop :=
  ∃ op lhs rhs dtype, node = .bin op lhs rhs dtype ∧ op ∉ ['+', '-', '*', '/']

def isArithmeticFault (failure : ExprError) : Prop :=
  failure.code = "expr.overflow" ∨ failure.code = "expr.divide_by_zero"

def arithmetic (env : Env) : Kinds ExprNode ExprError := ⟨Faulty env, UnknownOperation, isArithmeticFault⟩

def RightValue (env : Env) (node : ExprNode) (value : Int64) : Prop :=
  exactValue env node = some value.toInt

/-- A comparison decides between exact values; an acceptance has none. -/
def RightVerdict (env : Env) (guard : ExprNode) (verdict : Bool) : Prop :=
  ∀ op lhs rhs dtype, guard = .cmp op lhs rhs dtype → ∃ a b, exactValue env lhs = some a ∧
    exactValue env rhs = some b ∧ verdict = exactComparison op a b

/-! Evaluation stops at the first fault. -/

theorem inRange (value : Int64) : -(2 ^ 63) ≤ value.toInt ∧ value.toInt < 2 ^ 63 :=
  ⟨value.le_toInt, value.toInt_lt⟩

section Evaluation

variable {env : Env}

theorem clear_of_right {node : ExprNode} {value : Int64} (right : RightValue env node value)
    (plain : ∀ op lhs rhs dtype, node ≠ .bin op lhs rhs dtype) : (arithmetic env).Clear node := by
  refine ⟨?_, ?_⟩
  · rintro (⟨found, exact, beyond⟩ | ⟨lhs, rhs, dtype, rfl, _⟩)
    · rw [RightValue, exact, Option.some.injEq] at right
      exact beyond (right ▸ inRange value)
    · exact plain _ _ _ _ rfl
  · rintro ⟨op, lhs, rhs, dtype, rfl, _⟩
    exact plain _ _ _ _ rfl

theorem bin_exact {lhs rhs : ExprNode} {a b : Int64} (left : RightValue env lhs a)
    (right : RightValue env rhs b) (op : Char) (dtype : ValueCategory) :
    exactValue env (.bin op lhs rhs dtype) = exactResult op a.toInt b.toInt := by
  rw [exactValue, left, right]
  rfl

/-- An operation on values is right, or at fault, or of no known operator. -/
theorem checkedBin_walks {op : Char} {lhs rhs : ExprNode} {a b : Int64} (dtype : ValueCategory)
    (left : RightValue env lhs a) (right : RightValue env rhs b) :
    Walk (arithmetic env) (RightValue env (.bin op lhs rhs dtype)) [.bin op lhs rhs dtype]
      (checkedBin op a b) := by
  have exact := bin_exact left right op dtype
  -- a known operator with a divisor that is not zero has an exact result
  have decided (message : String) (result : Int) (known : op ∈ ['+', '-', '*', '/'])
      (divides : op = '/' → b.toInt ≠ 0) (same : exactResult op a.toInt b.toInt = some result) :
      Walk (arithmetic env) (RightValue env (.bin op lhs rhs dtype)) [.bin op lhs rhs dtype]
        (checkedOr result message) := by
    have plain : ¬UnknownOperation (.bin op lhs rhs dtype) := by
      rintro ⟨op', _, _, _, named, unknown⟩
      cases named
      exact unknown known
    have noZero : ¬∃ lhs' rhs' dtype', ExprNode.bin op lhs rhs dtype = .bin '/' lhs' rhs' dtype' ∧
        exactValue env rhs' = some 0 := by
      rintro ⟨_, _, _, named, zero⟩
      cases named
      rw [right, Option.some.injEq] at zero
      exact divides rfl zero
    unfold checkedOr
    cases fits : MachineInt.checked result with
    | some value =>
        have toInt := MachineInt.checked_eq_some.mp fits
        have right' : RightValue env (.bin op lhs rhs dtype) value := by
          rw [RightValue, exact, same, toInt]
        refine .one right' ⟨?_, plain⟩
        rintro (⟨found, exact', beyond⟩ | zero)
        · rw [right', Option.some.injEq] at exact'
          exact beyond (exact' ▸ inRange value)
        · exact noZero zero
    | none =>
        refine .fault (.inl ⟨.inl ⟨result, by rw [exact, same], ?_⟩, plain, .inl rfl⟩)
        intro within
        rw [MachineInt.checked, if_pos within] at fits
        cases fits
  unfold checkedBin
  split_ifs with plus minus times divide zero
  · subst plus
    exact decided _ _ (by decide) (by simp) rfl
  · subst minus
    exact decided _ _ (by decide) (by simp) rfl
  · subst times
    exact decided _ _ (by decide) (by simp) rfl
  · subst divide
    refine .fault (.inl ⟨.inr ⟨lhs, rhs, dtype, rfl, ?_⟩, ?_, .inr rfl⟩)
    · rw [right, zero]
      rfl
    · rintro ⟨op', _, _, _, named, unknown⟩
      cases named
      exact absurd (by decide) unknown
  · subst divide
    have divisor : b.toInt ≠ 0 := fun none => zero (Int64.toInt_inj.mp none)
    exact decided _ _ (by decide) (fun _ => divisor) (by simp [exactResult, divisor])
  · refine .fault (.inr ⟨⟨op, lhs, rhs, dtype, rfl, by simp [plus, minus, times, divide]⟩, ?_⟩)
    rintro (code | code) <;> simp at code

/-- Where every name read is bound, a value expression evaluates exactly up to its first fault. -/
theorem evalExpr_walks {node : ExprNode} (value : ValueNode node)
    (binds : ∀ name ∈ exprReads node, name ∈ env) :
    Walk (arithmetic env) (RightValue env node) (subexpressions node) (evalExpr node env) := by
  induction value with
  | num value dtype => exact .one rfl (@clear_of_right _ _ value rfl (by simp))
  | var name dtype =>
      have bound := binds name (by simp [exprReads])
      obtain ⟨value, found⟩ := Option.isSome_iff_exists.mp
        (Std.ExtTreeMap.isSome_getElem?_iff_mem.mpr bound)
      have right : RightValue env (.var name dtype) value := by simp [RightValue, exactValue, found]
      rw [evalExpr_var, found]
      exact .one right (clear_of_right right (by simp))
  | @bin lhs rhs _ _ op dtype left right =>
      simp only [exprReads, List.mem_append] at binds
      rw [evalExpr_bin, subexpressions]
      refine (left fun name read => binds name (.inl read)).bind fun a exactLeft => ?_
      refine (right fun name read => binds name (.inr read)).bind fun b exactRight => ?_
      exact checkedBin_walks dtype exactLeft exactRight
  | @round first _ rest dtype inner =>
      have walked := inner (by simpa [exprReads] using binds)
      have closing : evalExpr (.call "round" (first :: rest) dtype) env =
          evalExpr first env >>= fun value => .ok value := by
        rw [evalExpr]
        cases evalExpr first env <;> rfl
      rw [closing, subexpressions]
      refine walked.bind fun value right => ?_
      have right' : RightValue env (.call "round" (first :: rest) dtype) value := right
      exact .one right' (clear_of_right right' (by simp))

theorem compareWith_exact {op : String} (known : isCmpOp op = true) (a b : Int64) :
    compareWith op a b = .ok (exactComparison op a.toInt b.toInt) := by
  have same : a = b ↔ a.toInt = b.toInt := Int64.toInt_inj.symm
  simp only [isCmpOp, Bool.or_eq_true, decide_eq_true_eq, or_assoc] at known
  rcases known with rfl | rfl | rfl | rfl | rfl | rfl <;>
    simp [compareWith, exactComparison, same]

theorem evalGuard_walks {op : String} {lhs rhs : ExprNode} (dtype : ValueCategory)
    (known : isCmpOp op = true) (left : ValueNode lhs) (right : ValueNode rhs)
    (binds : ∀ name, name ∈ exprReads lhs ∨ name ∈ exprReads rhs → name ∈ env) :
    Walk (arithmetic env) (RightVerdict env (.cmp op lhs rhs dtype))
      (subexpressions (.cmp op lhs rhs dtype)) (evalGuard (.cmp op lhs rhs dtype) env) := by
  rw [evalGuard_cmp, subexpressions]
  refine (evalExpr_walks left fun name read => binds name (.inl read)).bind fun a exactLeft => ?_
  rw [← List.append_nil (subexpressions rhs)]
  refine (evalExpr_walks right fun name read => binds name (.inr read)).bind fun b exactRight => ?_
  rw [compareWith_exact known]
  refine .ok ?_ (by simp)
  rintro _ _ _ _ ⟨⟩
  exact ⟨a.toInt, b.toInt, exactLeft, exactRight, rfl⟩

end Evaluation

/-! Names. -/

mutual

theorem subset_exprVarsFrom : (node : ExprNode) → (seen : List String) →
    seen ⊆ exprVarsFrom node seen
  | .num _ _, _ => List.Subset.refl _
  | .var name _, seen => by
      rw [exprVarsFrom]
      split
      · exact List.Subset.refl _
      · exact List.subset_append_left _ _
  | .bin _ lhs rhs _, seen =>
      List.Subset.trans (subset_exprVarsFrom lhs seen) (subset_exprVarsFrom rhs _)
  | .call _ args _, seen => subset_exprVarsFromAll args seen
  | .cmp _ lhs rhs _, seen =>
      List.Subset.trans (subset_exprVarsFrom lhs seen) (subset_exprVarsFrom rhs _)

theorem subset_exprVarsFromAll : (args : List ExprNode) → (seen : List String) →
    seen ⊆ exprVarsFromAll args seen
  | [], _ => List.Subset.refl _
  | arg :: rest, seen =>
      List.Subset.trans (subset_exprVarsFrom arg seen) (subset_exprVarsFromAll rest _)

end

/-- Every name an evaluation looks up is a variable of the expression. -/
theorem exprReads_subset (node : ExprNode) (seen : List String) :
    exprReads node ⊆ exprVarsFrom node seen := by
  fun_induction exprReads node generalizing seen with
  | case1 => simp
  | case2 name dtype =>
      rw [exprVarsFrom]
      split <;> simp_all
  | case3 op lhs rhs dtype left right =>
      rw [exprVarsFrom]
      exact List.append_subset.mpr
        ⟨List.Subset.trans (left seen) (subset_exprVarsFrom rhs _), right _⟩
  | case4 => simp
  | case5 name dtype first rest ih =>
      rw [exprVarsFrom, exprVarsFromAll]
      exact List.Subset.trans (ih seen) (subset_exprVarsFromAll rest _)
  | case6 => simp

/-! Decoded comparisons. -/

theorem exprFromJson_cmp {source : Json} {op : String} {lhs rhs : ExprNode} {dtype : ValueCategory}
    (decoded : exprFromJson source = .ok (.cmp op lhs rhs dtype)) : isCmpOp op = true := by
  cases source with
  | object members =>
      rw [exprFromJson, exprFromObject] at decoded
      dsimp only at decoded
      split_ifs at decoded with num var bin call cmp known
      · cases decoded
      · cases decoded
      · split at decoded
        · cases decoded
        · split at decoded
          · simp [bind_ok, map_ok] at decoded
          · cases decoded
      · split at decoded
        · cases decoded
        · simp [map_ok] at decoded
      · split at decoded
        · simp only [bind_ok, pure_ok, ExprNode.cmp.injEq] at decoded
          obtain ⟨_, _, _, _, rfl, _⟩ := decoded
          exact known
        · cases decoded
  | _ => simp [exprFromJson] at decoded

/-! Guards inference accepts. -/

theorem typeGuard_shape {env : CategoryEnv} {raw typed : ExprNode}
    (accepted : typeGuard env raw = .ok typed) :
    (∃ op lhs rhs lhs' rhs' dtype, raw = .cmp op lhs rhs dtype ∧ typed = .cmp op lhs' rhs' dtype) ∨
      ∃ input category dtype, typed = .call "accepted" [.var input category] dtype := by
  cases raw with
  | cmp op lhs rhs dtype =>
      simp only [typeGuard, bind_ok, pure_ok] at accepted
      obtain ⟨left, _, right, _, _, _, _, _, _, _, rfl⟩ := accepted
      exact .inl ⟨op, lhs, rhs, left, right, dtype, rfl, rfl⟩
  | call name args dtype =>
      simp only [typeGuard] at accepted
      split_ifs at accepted with named
      subst named
      split at accepted
      · split at accepted
        · cases accepted
        · split_ifs at accepted
          cases accepted
          exact .inr ⟨_, _, _, rfl⟩
      · cases accepted
  | num => simp [typeGuard] at accepted
  | var => simp [typeGuard] at accepted
  | bin => simp [typeGuard] at accepted

/-- A typed expression, or guard, evaluates to its exact result or fails on an overflow or a
division by zero that it holds, exactly where no unknown operator comes before every fault. -/
theorem typed_evaluation_iff {source : Json} {node typed : ExprNode} {categories : CategoryEnv}
    {env : Env} (decoded : exprFromJson source = .ok node)
    (binds : ∀ name ∈ exprVars typed, name ∈ env) :
    (typeExpr categories node = .ok typed →
      (Sound (arithmetic env) (RightValue env typed) (subexpressions typed) (evalExpr typed env) ↔
        Shielded (arithmetic env) (subexpressions typed))) ∧
    (typeGuard categories node = .ok typed →
      (Sound (arithmetic env) (RightVerdict env typed) (subexpressions typed)
          (evalGuard typed env) ↔
        Shielded (arithmetic env) (subexpressions typed))) := by
  constructor
  · intro accepted
    exact (evalExpr_walks (typeExpr_value node accepted)
      fun name read => binds name (exprReads_subset typed [] read)).sound_iff
  · intro accepted
    rcases typeGuard_shape accepted with
      ⟨op, lhs, rhs, lhs', rhs', dtype, rfl, rfl⟩ | ⟨input, category, dtype, rfl⟩
    · obtain ⟨left, right⟩ := typeGuard_values accepted
      refine (evalGuard_walks dtype (exprFromJson_cmp decoded) left right ?_).sound_iff
      rintro name (read | read)
      · exact binds name (subset_exprVarsFrom rhs' _ (exprReads_subset lhs' [] read))
      · exact binds name (exprReads_subset rhs' _ read)
    · have decides : evalGuard (.call "accepted" [.var input category] dtype) env =
          .ok ((env["accepted:" ++ input]?).any (· ≠ 0)) := by rw [evalGuard, if_pos rfl]
      rw [decides]
      refine Walk.sound_iff (.ok (by rintro _ _ _ _ ⟨⟩) ?_)
      intro place listed
      rw [subexpressions, List.mem_append, subexpressions, List.mem_singleton,
        List.mem_singleton] at listed
      refine ⟨?_, ?_⟩
      · rintro (⟨value, exact, beyond⟩ | ⟨_, _, _, rfl, _⟩)
        · have held : exactValue env (.var input category) = some value := by
            rcases listed with rfl | rfl <;> exact exact
          simp only [exactValue, Option.map_eq_some_iff] at held
          obtain ⟨stored, _, rfl⟩ := held
          exact beyond (inRange stored)
        · simp at listed
      · rintro ⟨_, _, _, _, rfl, _⟩
        simp at listed

theorem exprFromObject_bin {node : Json.Object} {op : Char} {lhs rhs : Json}
    (kind : node.stringOr "kind" = "bin") (single : singleByte (node.stringOr "op") = some op)
    (left : node.get "lhs" = some lhs) (right : node.get "rhs" = some rhs) :
    exprFromObject node = do
      let lhs ← exprFromJson lhs
      let rhs ← exprFromJson rhs
      return .bin op lhs rhs (classifyValueType ((node.getString "dtype").getD "extension")) := by
  rw [exprFromObject]
  simp only [kind, String.reduceEq, if_false, if_true, single]
  split
  · rename_i first second isLeft isRight
    cases left.symm.trans isLeft
    cases right.symm.trans isRight
    rfl
  · rename_i missing
    exact absurd right (missing _ _ left)

/-- An operation on the literals 7 and 2 as its wire form. -/
def sevenAndTwo (op : String) : Json.Object :=
  [("kind", .string "bin"),
    ("lhs", .object [("kind", .string "num"), ("num", .number (.integer 7))]),
    ("op", .string op),
    ("rhs", .object [("kind", .string "num"), ("num", .number (.integer 2))])]

theorem sevenAndTwo_decodes {op : String} {c : Char} (single : singleByte op = some c) :
    exprFromJson (.object (sevenAndTwo op)) =
      .ok (.bin c (.num 7 .extension) (.num 2 .extension) .extension) := by
  have number (value : Int64) :
      exprFromJson (.object [("kind", .string "num"), ("num", .number (.integer value))]) =
        .ok (.num value .extension) := by
    rw [exprFromJson, exprFromObject]
    rfl
  have read : (sevenAndTwo op).stringOr "op" = op := rfl
  rw [exprFromJson, exprFromObject_bin rfl (read.symm ▸ single) rfl rfl, number, number]
  rfl

theorem quotient_exact :
    Sound (arithmetic ∅) (RightValue ∅ (.bin '/' (.num 7 .decimal) (.num 2 .decimal) .decimal))
        (subexpressions (.bin '/' (.num 7 .decimal) (.num 2 .decimal) .decimal))
        (evalExpr (.bin '/' (.num 7 .decimal) (.num 2 .decimal) .decimal) ∅) ↔
      Shielded (arithmetic ∅)
        (subexpressions (.bin '/' (.num 7 .decimal) (.num 2 .decimal) .decimal)) :=
  (typed_evaluation_iff (sevenAndTwo_decodes (show singleByte "/" = some '/' from rfl))
    (by simp [exprVars, exprVarsFrom])).1 (show typeExpr ∅ _ = _ from rfl)

/-- An operator of no meaning passes decoding and inference and fails the evaluation. -/
theorem remainder_goes_wrong :
    ¬∀ source node typed categories env, exprFromJson source = .ok node →
      typeExpr categories node = .ok typed → (∀ name ∈ exprVars typed, name ∈ env) →
      Sound (arithmetic env) (RightValue env typed) (subexpressions typed) (evalExpr typed env) := by
  intro always
  have here := always (.object (sevenAndTwo "%")) _ (.bin '%' (.num 7 .decimal) (.num 2 .decimal) .decimal) ∅
    ∅ (sevenAndTwo_decodes (c := '%') rfl) rfl (by simp [exprVars, exprVarsFrom])
  have refused : evalExpr (.bin '%' (.num 7 .decimal) (.num 2 .decimal) .decimal) ∅ =
      .error ⟨"expr.invalid", "bad operator"⟩ := by
    simp [evalExpr, checkedBin]
  rw [refused] at here
  rcases here with _ | ⟨allowed, _⟩
  rcases allowed with code | code <;> simp at code

end Neutrino
