import Neutrino.JsonParse
import Neutrino.Library.MachineInt

/-! Integer expressions as PostgreSQL reads and types them: a literal takes the smallest integer
type it fits, an operation the wider type of its operands, and a result outside its type is an
error. -/

namespace Neutrino.Sql

/-! Words. -/

def isIdentChar (c : Char) : Bool := c.isAlphanum || c = '_'

def isOperatorChar (c : Char) : Bool :=
  c ∈ ['+', '-', '*', '/', '<', '>', '=', '~', '!', '@', '#', '%', '^', '&', '|', '?']

/-- Whether a character continues the word that the next one starts. -/
def joins (c : Char) : List Char → Bool
  | [] => false
  | next :: _ => (isIdentChar c && isIdentChar next) || (isOperatorChar c && isOperatorChar next)

def prepend (c : Char) : List (List Char) → List (List Char)
  | [] => [[c]]
  | word :: words => (c :: word) :: words

/-- The words of a text: runs of identifier or operator characters, every other character alone,
spaces dropped. -/
def words : List Char → List (List Char)
  | [] => []
  | c :: rest =>
      if c = ' ' then words rest
      else if joins c rest then prepend c (words rest)
      else [c] :: words rest

/-! Expressions. -/

inductive Expression
  | literal (value : Int)
  | variable (name : String)
  | binary (operator : String) (lhs rhs : Expression)
  deriving DecidableEq, Repr

def isIdentifier (word : List Char) : Bool :=
  word.all isIdentChar && word.head?.any fun c => !c.isDigit

/-- A number or a name. -/
def readAtom (word : List Char) : Option Expression :=
  match readDigits word with
  | some value => some (.literal value)
  | none => if isIdentifier word then some (.variable (String.ofList word)) else none

def readOperator (word : List Char) : Option String :=
  if word ≠ [] ∧ word.all isOperatorChar then some (String.ofList word) else none

/-- A term: an atom, a negated number, or one operation in parentheses. Operations that are not
in parentheses do not chain, so that precedence plays no part. -/
def readTerm : Nat → List (List Char) → Option (Expression × List (List Char))
  | 0, _ => none
  | fuel + 1, words =>
      match words with
      | ['('] :: rest => do
          let (lhs, rest) ← readTerm fuel rest
          match rest with
          | word :: rest => do
              let operator ← readOperator word
              let (rhs, rest) ← readTerm fuel rest
              match rest with
              | [')'] :: rest => return (.binary operator lhs rhs, rest)
              | _ => none
          | [] => none
      | ['-'] :: digits :: rest => (readDigits digits).map fun value => (.literal (-value), rest)
      | word :: rest => (readAtom word).map fun atom => (atom, rest)
      | [] => none

/-- A term, or one operation on two. -/
def readExpression (text : String) : Option Expression := do
  let words := words text.toList
  let (lhs, rest) ← readTerm (words.length + 1) words
  match rest with
  | [] => return lhs
  | word :: rest => do
      let operator ← readOperator word
      let (rhs, rest) ← readTerm (words.length + 1) rest
      if rest = [] then return .binary operator lhs rhs else none

/-! Typed evaluation. -/

inductive Integer
  | int4 (value : Int32)
  | int8 (value : Int64)
  deriving DecidableEq, Repr

def Integer.toInt : Integer → Int
  | .int4 value => value.toInt
  | .int8 value => value.toInt

inductive IntegerType
  | int4
  | int8
  deriving DecidableEq, Repr

def Integer.type : Integer → IntegerType
  | .int4 _ => .int4
  | .int8 _ => .int8

/-- The wider of two types. -/
def IntegerType.join : IntegerType → IntegerType → IntegerType
  | .int4, .int4 => .int4
  | _, _ => .int8

def fits4 (value : Int) : Bool := -(2 ^ 31) ≤ value ∧ value < 2 ^ 31

/-- A value of a type, or nothing when it is out of the type's range. -/
def IntegerType.checked : IntegerType → Int → Option Integer
  | .int4, value => if fits4 value then some (.int4 (Int32.ofInt value)) else none
  | .int8, value => (MachineInt.checked value).map .int8

def literalType (value : Int) : IntegerType := if fits4 value then .int4 else .int8

/-- The exact result of an arithmetic operator; division truncates. -/
def exact (operator : String) (a b : Int) : Option Int :=
  if operator = "+" then some (a + b)
  else if operator = "-" then some (a - b)
  else if operator = "*" then some (a * b)
  else if operator = "/" then if b = 0 then none else some (a.tdiv b)
  else none

def isArithmetic (operator : String) : Bool :=
  operator = "+" || operator = "-" || operator = "*" || operator = "/"

/-- The value of an operation. `beyond` is what the database makes of operators that are not the
four arithmetic ones. -/
def operate (beyond : String → Integer → Integer → Option Integer) (operator : String)
    (a b : Integer) : Option Integer :=
  if isArithmetic operator then
    (exact operator a.toInt b.toInt).bind (a.type.join b.type).checked
  else beyond operator a b

def compare (operator : String) (a b : Int) : Option Bool :=
  if operator = "<" then some (a < b)
  else if operator = "<=" then some (a ≤ b)
  else if operator = ">" then some (a > b)
  else if operator = ">=" then some (a ≥ b)
  else if operator = "=" then some (a = b)
  else if operator = "<>" then some (a ≠ b)
  else none

section Evaluate

variable (beyond : String → Integer → Integer → Option Integer) (bigints : String → Option Int64)

/-- The value of an expression over variables of type bigint; nothing when the database raises. -/
def evaluate : Expression → Option Integer
  | .literal value => (literalType value).checked value
  | .variable name => (bigints name).map .int8
  | .binary operator lhs rhs => do
      let a ← evaluate lhs
      let b ← evaluate rhs
      operate beyond operator a b

/-- The truth of a comparison. -/
def holds : Expression → Option Bool
  | .binary operator lhs rhs => do
      let a ← evaluate beyond bigints lhs
      let b ← evaluate beyond bigints rhs
      compare operator a.toInt b.toInt
  | _ => none

/-- An expression's text, assigned to a bigint. -/
def assign (text : String) : Option Int64 := do
  let expression ← readExpression text
  let value ← evaluate beyond bigints expression
  MachineInt.checked value.toInt

/-- A condition's text. -/
def condition (text : String) : Option Bool := do
  let expression ← readExpression text
  holds beyond bigints expression

end Evaluate

/-! Types and ranges. -/

theorem fits4_iff {value : Int} : fits4 value = true ↔ -(2 ^ 31) ≤ value ∧ value < 2 ^ 31 := by
  simp [fits4]

theorem checked_eq_some {type : IntegerType} {value : Int} {result : Integer} :
    type.checked value = some result ↔ result.type = type ∧ result.toInt = value := by
  cases type with
  | int4 =>
      simp only [IntegerType.checked, Option.ite_none_right_eq_some, Option.some.injEq, fits4_iff]
      constructor
      · rintro ⟨bounds, rfl⟩
        exact ⟨rfl, Int32.toInt_ofInt_of_le (by omega) (by omega)⟩
      · rintro ⟨typed, rfl⟩
        cases result with
        | int4 value =>
            have lower := value.le_toInt
            have upper := value.toInt_lt
            exact ⟨⟨by simpa [Integer.toInt] using lower, by simpa [Integer.toInt] using upper⟩,
              by simp [Integer.toInt]⟩
        | int8 value => cases typed
  | int8 =>
      simp only [IntegerType.checked, Option.map_eq_some_iff, MachineInt.checked_eq_some]
      constructor
      · rintro ⟨value, rfl, rfl⟩
        exact ⟨rfl, rfl⟩
      · rintro ⟨typed, rfl⟩
        cases result with
        | int4 value => cases typed
        | int8 value => exact ⟨value, rfl, rfl⟩

/-- A value of either type is a bigint. -/
theorem Integer.exists_bigint (value : Integer) : ∃ result : Int64, result.toInt = value.toInt := by
  cases value with
  | int8 value => exact ⟨value, rfl⟩
  | int4 value =>
      have lower := value.le_toInt
      have upper := value.toInt_lt
      refine ⟨Int64.ofInt value.toInt, ?_⟩
      exact Int64.toInt_ofInt_of_le (by omega) (by omega)

/-! Reading back what has been written. -/

theorem words_cons (c : Char) (rest : List Char) :
    words (c :: rest) = if c = ' ' then words rest
      else if joins c rest then prepend c (words rest) else [c] :: words rest := rfl

theorem not_space_of_joins {c next : Char} {rest : List Char}
    (joined : joins c (next :: rest) = true) : next ≠ ' ' := by
  rintro rfl
  simp [joins, isIdentChar, isOperatorChar] at joined

theorem words_ne_nil {c : Char} (printed : c ≠ ' ') (rest : List Char) : words (c :: rest) ≠ [] := by
  rw [words_cons, if_neg printed]
  split
  · cases words rest <;> simp [prepend]
  · simp

theorem prepend_append {c : Char} {first rest : List (List Char)} (some : first ≠ []) :
    prepend c (first ++ rest) = prepend c first ++ rest := by
  cases first with
  | nil => exact absurd rfl some
  | cons => rfl

/-- Texts that do not join are read word by word. -/
theorem words_append {chars rest : List Char}
    (apart : ∀ c ∈ chars.getLast?, joins c rest = false) :
    words (chars ++ rest) = words chars ++ words rest := by
  induction chars with
  | nil => rfl
  | cons c chars ih =>
      cases chars with
      | nil =>
          have alone : joins c rest = false := apart c rfl
          rw [List.singleton_append, words_cons, words_cons, alone]
          by_cases space : c = ' ' <;> simp [space, joins, words]
      | cons next chars =>
          have later := ih (by simpa [List.getLast?_cons_cons] using apart)
          have same : joins c (next :: chars ++ rest) = joins c (next :: chars) := rfl
          rw [List.cons_append, words_cons, words_cons c, later, same]
          by_cases space : c = ' '
          · rw [if_pos space, if_pos space]
          · rw [if_neg space, if_neg space]
            cases joined : joins c (next :: chars) with
            | false => rfl
            | true => exact prepend_append (words_ne_nil (not_space_of_joins joined) chars)

/-- A run of one kind is one word. -/
theorem words_run {chars : List Char} (some : chars ≠ [])
    (run : chars.all isIdentChar = true ∨ chars.all isOperatorChar = true) :
    words chars = [chars] := by
  induction chars with
  | nil => exact absurd rfl some
  | cons c chars ih =>
      have printed : c ≠ ' ' := by
        rintro rfl
        rcases run with run | run <;> simp [isIdentChar, isOperatorChar] at run
      rw [words_cons, if_neg printed]
      cases chars with
      | nil => rfl
      | cons next chars =>
          have joined : joins c (next :: chars) = true := by
            rcases run with run | run <;> simp only [List.all_cons, Bool.and_eq_true] at run <;>
              simp [joins, run]
          have later : (next :: chars).all isIdentChar = true ∨
              (next :: chars).all isOperatorChar = true := by
            rcases run with run | run <;> rw [List.all_cons, Bool.and_eq_true] at run
            · exact .inl run.2
            · exact .inr run.2
          rw [if_pos joined, ih (by simp) later]
          rfl

/-- A character of neither kind ends the word before it. -/
theorem joins_break {c next : Char} {rest : List Char} (ident : isIdentChar next = false)
    (operator : isOperatorChar next = false) : joins c (next :: rest) = false := by
  simp [joins, ident, operator]

theorem readTerm_atom {fuel : Nat} {word : List Char} {rest : List (List Char)}
    (some : word ≠ []) (run : word.all isIdentChar = true) :
    readTerm (fuel + 1) (word :: rest) = (readAtom word).map fun atom => (atom, rest) := by
  rw [readTerm]
  · rintro rfl
    simp [isIdentChar] at run
  · rintro _ _ rfl
    simp [isIdentChar] at run

theorem readTerm_operation {fuel : Nat} {lhs rhs : Expression} {operator : String}
    {opened later rest : List (List Char)} {word : List Char}
    (left : readTerm fuel opened = some (lhs, word :: later))
    (symbol : readOperator word = some operator)
    (right : readTerm fuel later = some (rhs, [')'] :: rest)) :
    readTerm (fuel + 1) (['('] :: opened) = some (.binary operator lhs rhs, rest) := by
  simp [readTerm, left, symbol, right]

theorem isIdentChar_digit {c : Char} (digit : c.isDigit = true) : isIdentChar c = true := by
  simp [isIdentChar, Char.isAlphanum, digit]

theorem digits_run (value : Nat) : (Nat.toDigits 10 value).all isIdentChar = true :=
  List.all_eq_true.mpr fun _ listed => isIdentChar_digit (isDigit_toDigits listed)

theorem readAtom_digits (value : Nat) :
    readAtom (Nat.toDigits 10 value) = some (.literal value) := by
  simp [readAtom, readDigits_toDigits]

theorem readAtom_identifier {name : String} (identifier : isIdentifier name.toList = true) :
    readAtom name.toList = some (.variable name) := by
  have letters : readDigits name.toList = none := by
    simp only [isIdentifier, Bool.and_eq_true, Option.any_eq_true] at identifier
    obtain ⟨_, c, head, letter⟩ := identifier
    have listed := List.mem_of_head? head
    rw [readDigits, if_neg]
    rintro ⟨_, digits⟩
    simp [List.all_eq_true.mp digits c listed] at letter
  simp [readAtom, letters, identifier]

end Neutrino.Sql
