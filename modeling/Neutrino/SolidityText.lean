import Mathlib
import Neutrino.SqlText

/-! Integer expressions as Solidity types and runs them: an expression of literals alone is an
exact rational, every other one a uint256 whose operations are checked. -/

namespace Neutrino.Solidity

open Sql (Expression readExpression)

inductive Value
  | rational (value : ℚ)
  | word (value : Nat)
  deriving DecidableEq

/-- The exact result of an operator on literals. -/
def exactly (operator : String) (a b : ℚ) : Option ℚ :=
  if operator = "+" then some (a + b)
  else if operator = "-" then some (a - b)
  else if operator = "*" then some (a * b)
  else if operator = "/" then if b = 0 then none else some (a / b)
  else none

def fits256 (value : Nat) : Option Nat := if value < 2 ^ 256 then some value else none

/-- The checked result of an operator on words; nothing when the call reverts. -/
def checked (operator : String) (a b : Nat) : Option Nat :=
  if operator = "+" then fits256 (a + b)
  else if operator = "-" then if b ≤ a then some (a - b) else none
  else if operator = "*" then fits256 (a * b)
  else if operator = "/" then if b = 0 then none else some (a / b)
  else none

/-- A value as a uint256; only a natural number of 256 bits converts. -/
def toWord : Value → Option Nat
  | .rational value => if value.den = 1 ∧ 0 ≤ value.num then fits256 value.num.toNat else none
  | .word value => some value

def operate (operator : String) : Value → Value → Option Value
  | .rational a, .rational b => (exactly operator a b).map .rational
  | a, b => do
      let x ← toWord a
      let y ← toWord b
      (checked operator x y).map .word

/-- A literal's value at run time; a comparison has no type for both signs. -/
def toInteger : Value → Option Int
  | .rational value =>
      if value.den = 1 ∧ -(2 ^ 255) ≤ value.num ∧ value.num < 2 ^ 256 then some value.num else none
  | .word value => some value

def compareIntegers (operator : String) (a b : Int) : Option Bool :=
  if operator = "<" then some (a < b)
  else if operator = "<=" then some (a ≤ b)
  else if operator = ">" then some (a > b)
  else if operator = ">=" then some (a ≥ b)
  else if operator = "==" then some (a = b)
  else if operator = "!=" then some (a ≠ b)
  else none

def compare (operator : String) (a b : Value) : Option Bool := do
  let x ← toInteger a
  let y ← toInteger b
  if 0 ≤ x ↔ 0 ≤ y then compareIntegers operator x y else none

section Evaluate

variable (uints : String → Option Nat)

/-- The value of an expression over variables of type uint256; nothing when it is ill typed or the
call reverts. -/
def evaluate : Expression → Option Value
  | .literal value => some (.rational value)
  | .variable name => (uints name).map .word
  | .binary operator lhs rhs => do
      let a ← evaluate lhs
      let b ← evaluate rhs
      operate operator a b

def holds : Expression → Option Bool
  | .binary operator lhs rhs => do
      let a ← evaluate uints lhs
      let b ← evaluate uints rhs
      compare operator a b
  | _ => none

/-- An expression's text, assigned to a uint256. -/
def assign (text : String) : Option Nat := do
  let expression ← readExpression text
  let value ← evaluate uints expression
  toWord value

def condition (text : String) : Option Bool := do
  let expression ← readExpression text
  holds uints expression

end Evaluate

/-- A rational that converts is a natural number. -/
theorem toWord_eq {value : ℚ} {word : Nat} (converts : toWord (.rational value) = some word) :
    value = word := by
  simp only [toWord, fits256] at converts
  split_ifs at converts with whole
  cases converts
  have natural : ((value.num.toNat : Int) : ℚ) = value.num := by
    rw [Int.toNat_of_nonneg whole.2]
  rw [← Int.cast_natCast, natural]
  exact (Rat.coe_int_num_of_den_eq_one whole.1).symm

/-- An operation on a word makes a word. -/
theorem operate_word {operator : String} {a b result : Value}
    (operated : operate operator a b = some result)
    (word : (∃ x, a = .word x) ∨ ∃ y, b = .word y) : ∃ x, result = .word x := by
  rcases word with ⟨x, rfl⟩ | ⟨y, rfl⟩
  · simp only [operate, Option.bind_eq_bind, Option.bind_eq_some_iff, Option.map_eq_some_iff]
      at operated
    obtain ⟨_, _, _, _, word, _, rfl⟩ := operated
    exact ⟨word, rfl⟩
  · simp only [operate, Option.bind_eq_bind, Option.bind_eq_some_iff, Option.map_eq_some_iff]
      at operated
    obtain ⟨_, _, _, _, word, _, rfl⟩ := operated
    exact ⟨word, rfl⟩

/-- Where one operand can only be a word, both are operated on as words. -/
theorem toWord_operate {operator : String} {first second : Option Value}
    (word : (∀ a, first = some a → ∃ x, a = .word x) ∨ ∀ b, second = some b → ∃ y, b = .word y) :
    (first.bind fun a => second.bind fun b => operate operator a b).bind toWord =
      (first.bind toWord).bind fun x => (second.bind toWord).bind fun y =>
        checked operator x y := by
  have unpacked : ∀ result : Option Nat, (result.map Value.word).bind toWord = result := by
    intro result
    cases result <;> rfl
  cases first with
  | none => rfl
  | some a =>
      cases second with
      | none => cases toWord a <;> simp
      | some b =>
          have operated : operate operator a b = (toWord a).bind fun x => (toWord b).bind fun y =>
              (checked operator x y).map .word := by
            rcases word with isWord | isWord
            · obtain ⟨x, rfl⟩ := isWord a rfl
              cases b <;> rfl
            · obtain ⟨y, rfl⟩ := isWord b rfl
              cases a <;> rfl
          simp only [Option.bind_some, operated]
          cases toWord a with
          | none => rfl
          | some x =>
              cases toWord b with
              | none => rfl
              | some y => exact unpacked _

@[simp] theorem toWord_literal {value : Int} {word : Nat} (small : value < 2 ^ 256) :
    toWord (.rational value) = some word ↔ 0 ≤ value ∧ word = value.toNat := by
  by_cases sign : 0 ≤ value
  · have fits : value.toNat < 2 ^ 256 := by omega
    simp only [toWord, Rat.den_intCast, Rat.num_intCast, sign, fits256, fits, and_self, if_true,
      Option.some.injEq, true_and]
    exact eq_comm
  · simp [toWord, sign]

/-- On natural numbers the checked result is the exact one, where that is one. -/
theorem checked_exact {operator : String} {a b value : Int} (left : 0 ≤ a) (right : 0 ≤ b)
    (exact : Sql.exact operator a b = some value) (small : value < 2 ^ 256) {word : Nat} :
    checked operator a.toNat b.toNat = some word ↔ 0 ≤ value ∧ word = value.toNat := by
  obtain ⟨x, rfl⟩ := Int.eq_ofNat_of_zero_le left
  obtain ⟨y, rfl⟩ := Int.eq_ofNat_of_zero_le right
  rw [Int.toNat_natCast, Int.toNat_natCast]
  unfold Sql.exact at exact
  unfold checked fits256
  by_cases plus : operator = "+"
  · rw [if_pos plus] at exact ⊢
    have sum := Option.some.inj exact
    rw [if_pos (by omega), Option.some.injEq]
    omega
  rw [if_neg plus] at exact ⊢
  by_cases minus : operator = "-"
  · rw [if_pos minus] at exact ⊢
    have difference := Option.some.inj exact
    by_cases below : y ≤ x
    · rw [if_pos below, Option.some.injEq]
      omega
    · simp only [below, if_false, reduceCtorEq, false_iff, not_and]
      omega
  rw [if_neg minus] at exact ⊢
  by_cases times : operator = "*"
  · rw [if_pos times] at exact ⊢
    obtain rfl := Option.some.inj exact
    rw [← Int.natCast_mul] at small ⊢
    rw [if_pos (by exact_mod_cast small), Option.some.injEq, Int.toNat_natCast]
    exact ⟨fun same => ⟨Int.natCast_nonneg _, same.symm⟩, fun both => both.2.symm⟩
  rw [if_neg times] at exact ⊢
  by_cases divides : operator = "/"
  · rw [if_pos divides] at exact ⊢
    by_cases zero : y = 0
    · simp [zero] at exact
    · rw [if_neg (by exact_mod_cast zero)] at exact
      obtain rfl := Option.some.inj exact
      rw [if_neg zero, Option.some.injEq, Int.tdiv_eq_ediv_of_nonneg left, ← Int.natCast_ediv,
        Int.toNat_natCast]
      exact ⟨fun same => ⟨Int.natCast_nonneg _, same.symm⟩, fun both => both.2.symm⟩
  · simp [divides] at exact

end Neutrino.Solidity
