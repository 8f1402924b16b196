import Neutrino.ExprJson
import Neutrino.Library.Checked

/-! Expressions as source text: the tokens, and the recursive-descent reading of them. A source
is its list of bytes; a character stands for the byte of its code. -/

namespace Neutrino

open Checked

/-! Tokens. -/

def isSpace (c : Char) : Bool := c ∈ [' ', '\t', '\n', '\x0b', '\x0c', '\r']

def isNameStart (c : Char) : Bool := c.isAlpha || c = '_'

def isNameChar (c : Char) : Bool := c.isAlphanum || c = '_'

def isPunctuation (c : Char) : Bool := c ∈ ['+', '-', '*', '/', '(', ')', ',']

def unexpectedCharacter (c : Char) : ExprError :=
  ⟨"expr.invalid", "unexpected character in expression: " ++ c.toString⟩

/-- The tokens of what follows the characters the last token has already taken. -/
def tokensAfter : Nat → List Char → Except ExprError (List String)
  | _, [] => .ok []
  | taken + 1, _ :: rest => tokensAfter taken rest
  | 0, c :: rest =>
      if isSpace c then tokensAfter 0 rest
      else if c.isDigit then
        let run := rest.takeWhile Char.isDigit
        (String.ofList (c :: run) :: ·) <$> tokensAfter run.length rest
      else if isNameStart c then
        let run := rest.takeWhile isNameChar
        (String.ofList (c :: run) :: ·) <$> tokensAfter run.length rest
      else if isPunctuation c then (c.toString :: ·) <$> tokensAfter 0 rest
      else if c ∈ ['<', '>', '=', '!'] then
        if rest.head? = some '=' then (String.ofList [c, '='] :: ·) <$> tokensAfter 1 rest
        else if c = '<' ∨ c = '>' then (c.toString :: ·) <$> tokensAfter 0 rest
        else .error (unexpectedCharacter c)
      else .error (unexpectedCharacter c)

def tokenize (source : String) : Except ExprError (List String) := tokensAfter 0 source.toList

/-- The first byte; an empty string has its terminator there. -/
def firstChar (token : String) : Char := token.toList.headD '\x00'

/-! The parser. -/

/-- A refusal of the parser, or what else can leave it: the exception of a numeral beyond
`long long`. The last one stands for a reading that has not ended. -/
inductive ParseFailure
  | refused (failure : ExprError)
  | outOfRange
  | exhausted
  deriving DecidableEq, Repr

namespace Parser

abbrev Parse := Except ParseFailure (ExprNode × List String)

def invalid (message : String) : ParseFailure := .refused ⟨"expr.invalid", message⟩

/-- The number the leading digits write. -/
def numeral (token : String) : Nat := Nat.ofDigitChars 10 (token.toList.takeWhile Char.isDigit) 0

def stoll (token : String) : Except ParseFailure Int64 :=
  if numeral token < 2 ^ 63 then .ok (Int64.ofNat (numeral token)) else .error .outOfRange

/-- Passes the closing parenthesis. -/
def close (message : String) : List String → Except ParseFailure (List String)
  | [] => .error (invalid message)
  | token :: rest => if token = ")" then .ok rest else .error (invalid message)

mutual

def expr : Nat → List String → Parse
  | 0, _ => .error .exhausted
  | fuel + 1, tokens => do
      let (node, rest) ← term fuel tokens
      sums fuel node rest

/-- The additions and subtractions that follow a term, grouped to the left. -/
def sums : Nat → ExprNode → List String → Parse
  | 0, _, _ => .error .exhausted
  | _ + 1, node, [] => .ok (node, [])
  | fuel + 1, node, op :: rest =>
      if op = "+" ∨ op = "-" then do
        let (rhs, rest) ← term fuel rest
        sums fuel (.bin (firstChar op) node rhs .extension) rest
      else .ok (node, op :: rest)

def term : Nat → List String → Parse
  | 0, _ => .error .exhausted
  | fuel + 1, tokens => do
      let (node, rest) ← factor fuel tokens
      products fuel node rest

def products : Nat → ExprNode → List String → Parse
  | 0, _, _ => .error .exhausted
  | _ + 1, node, [] => .ok (node, [])
  | fuel + 1, node, op :: rest =>
      if op = "*" ∨ op = "/" then do
        let (rhs, rest) ← factor fuel rest
        products fuel (.bin (firstChar op) node rhs .extension) rest
      else .ok (node, op :: rest)

def factor : Nat → List String → Parse
  | 0, _ => .error .exhausted
  | _ + 1, [] => .error (invalid "unexpected end of expression")
  | fuel + 1, token :: rest =>
      if token = "(" then do
        let (node, rest) ← expr fuel rest
        let rest ← close "missing ')'" rest
        return (node, rest)
      else if (firstChar token).isDigit then do
        let value ← stoll token
        return (.num value .extension, rest)
      else if isNameStart (firstChar token) then
        if rest.head? = some "(" then do
          let (args, rest) ← arguments fuel rest.tail
          let rest ← close "missing ')' in call" rest
          return (.call token args .extension, rest)
        else .ok (.var token .extension, rest)
      else .error (invalid ("unexpected token: " ++ token))

/-- The arguments up to the closing parenthesis, of which there may be none. -/
def arguments : Nat → List String → Except ParseFailure (List ExprNode × List String)
  | 0, _ => .error .exhausted
  | fuel + 1, tokens =>
      if tokens.head? = some ")" then .ok ([], tokens)
      else do
        let (arg, rest) ← expr fuel tokens
        let (args, rest) ← moreArguments fuel rest
        return (arg :: args, rest)

def moreArguments : Nat → List String → Except ParseFailure (List ExprNode × List String)
  | 0, _ => .error .exhausted
  | fuel + 1, tokens =>
      if tokens.head? = some "," then do
        let (arg, rest) ← expr fuel tokens.tail
        let (args, rest) ← moreArguments fuel rest
        return (arg :: args, rest)
      else .ok ([], tokens)

end

/-- As many steps as a reading of the tokens can take. -/
def steps (tokens : List String) : Nat := 3 * tokens.length + 3

def parse (tokens : List String) : Except ParseFailure ExprNode := do
  let (node, rest) ← expr (steps tokens) tokens
  if rest = [] then return node
  else throw (invalid "trailing tokens in expression")

def isAcceptedCall : ExprNode → Bool
  | .call name _ _ => name = "accepted"
  | _ => false

/-- A guard without a comparison. -/
def bareGuard (node : ExprNode) (rest : List String) : Except ParseFailure ExprNode :=
  if isAcceptedCall node then
    if rest = [] then .ok node else .error (invalid "trailing tokens in guard")
  else .error (invalid ("a `when` guard must be a comparison (<, <=, >, >=, ==, !=) or " ++
    "accepted(<evidence-input>)"))

/-- A single comparison of two values, or a bare `accepted` call. -/
def parseGuardTop (tokens : List String) : Except ParseFailure ExprNode := do
  let (lhs, rest) ← expr (steps tokens) tokens
  match rest with
  | [] => bareGuard lhs []
  | op :: later =>
      if isCmpOp op then do
        let (rhs, rest) ← expr (steps tokens) later
        if rest = [] then return .cmp op lhs rhs .extension
        else throw (invalid "trailing tokens in guard")
      else bareGuard lhs (op :: later)

end Parser

def parseExpr (source : String) : Except ParseFailure ExprNode := do
  let tokens ← (tokenize source).mapError .refused
  Parser.parse tokens

def parseGuard (source : String) : Except ParseFailure ExprNode := do
  let tokens ← (tokenize source).mapError .refused
  Parser.parseGuardTop tokens

/-! What the parser builds. -/

/-- A name as the tokens spell it. -/
def isName (token : String) : Bool := isNameStart (firstChar token) && token.toList.all isNameChar

/-- A value as the parser builds it: numerals without a sign, names of names, the four operators. -/
inductive Parsed : ExprNode → Prop
  | num {value : Int64} (sign : 0 ≤ value.toInt) : Parsed (.num value .extension)
  | var {name : String} (named : isName name = true) : Parsed (.var name .extension)
  | bin {op : Char} {lhs rhs : ExprNode} (known : op ∈ ['+', '-', '*', '/']) (left : Parsed lhs)
      (right : Parsed rhs) : Parsed (.bin op lhs rhs .extension)
  | call {name : String} {args : List ExprNode} (named : isName name = true)
      (each : ∀ arg ∈ args, Parsed arg) : Parsed (.call name args .extension)

inductive ParsedGuard : ExprNode → Prop
  | value {node : ExprNode} (parsed : Parsed node) : ParsedGuard node
  | cmp {op : String} {lhs rhs : ExprNode} (known : isCmpOp op = true) (left : Parsed lhs)
      (right : Parsed rhs) : ParsedGuard (.cmp op lhs rhs .extension)

mutual

/-- The numbers an expression holds, from left to right. -/
def literals : ExprNode → List Int
  | .num value _ => [value.toInt]
  | .var _ _ => []
  | .bin _ lhs rhs _ => literals lhs ++ literals rhs
  | .call _ args _ => literalsOf args
  | .cmp _ lhs rhs _ => literals lhs ++ literals rhs

def literalsOf : List ExprNode → List Int
  | [] => []
  | arg :: rest => literals arg ++ literalsOf rest

end

namespace Parser

def isNumeral (token : String) : Bool := (firstChar token).isDigit

/-- The numbers the numerals among the tokens write. -/
def numerals (tokens : List String) : List Int :=
  (tokens.filter isNumeral).map fun token => (numeral token : Int)

theorem numerals_cons (token : String) (rest : List String) :
    numerals (token :: rest) =
      if isNumeral token then (numeral token : Int) :: numerals rest else numerals rest := by
  unfold numerals
  rw [List.filter_cons]
  split <;> simp

/-- No token of the list stands first. -/
def NotFirst (excluded : List String) (tokens : List String) : Prop :=
  ∀ token ∈ tokens.head?, token ∉ excluded

/-- Tokens that start as names are names. -/
def Proper (tokens : List String) : Prop :=
  ∀ token ∈ tokens, isNameStart (firstChar token) = true → isName token = true

/-- Values read off the front of the tokens, with the numbers that stood before them. -/
structure Reads (before : List Int) (tokens : List String) (nodes : List ExprNode)
    (rest : List String) : Prop where
  parsed : ∀ node ∈ nodes, Parsed node
  suffix : rest <:+ tokens
  numbers : before ++ numerals tokens = literalsOf nodes ++ numerals rest

theorem stoll_ok {token : String} {value : Int64} (read : stoll token = .ok value) :
    value.toInt = numeral token := by
  unfold stoll at read
  split at read
  next fits =>
    cases read
    exact Int64.toInt_ofNat_of_lt fits
  next => cases read

theorem close_ok {message : String} {tokens rest : List String} :
    close message tokens = .ok rest ↔ tokens = ")" :: rest := by
  cases tokens with
  | nil => simp [close]
  | cons token later =>
      by_cases closes : token = ")" <;> simp [close, closes]

theorem Proper.suffix {tokens rest : List String} (proper : Proper tokens) (suffix : rest <:+ tokens) :
    Proper rest :=
  fun token listed => proper token (suffix.subset listed)

theorem literalsOf_append (first second : List ExprNode) :
    literalsOf (first ++ second) = literalsOf first ++ literalsOf second := by
  induction first with
  | nil => rfl
  | cons node first ih => simp only [List.cons_append, literalsOf, ih, List.append_assoc]

@[simp] theorem literalsOf_one (node : ExprNode) : literalsOf [node] = literals node := by
  simp [literalsOf]

theorem numerals_skip {token : String} (rest : List String) (plain : isNumeral token = false) :
    numerals (token :: rest) = numerals rest := by
  rw [numerals_cons, plain]
  rfl

namespace Reads

variable {before : List Int} {tokens rest : List String}

theorem here {node : ExprNode} (parsed : Parsed node) : Reads (literals node) rest [node] rest :=
  ⟨by simpa using parsed, List.suffix_refl _, by rw [literalsOf_one]⟩

/-- One token taken that writes no number. -/
theorem skip {token : String} {nodes : List ExprNode} (plain : isNumeral token = false)
    (reads : Reads before tokens nodes rest) : Reads before (token :: tokens) nodes rest :=
  ⟨reads.parsed, reads.suffix.trans (List.suffix_cons _ _), by
    rw [numerals_skip _ plain, reads.numbers]⟩

theorem dropped {token : String} {nodes : List ExprNode} (plain : isNumeral token = false)
    (reads : Reads before tokens nodes (token :: rest)) : Reads before tokens nodes rest :=
  ⟨reads.parsed, (List.suffix_cons _ _).trans reads.suffix, by
    rw [reads.numbers, numerals_skip _ plain]⟩

/-- A value carried on into a larger one. -/
theorem onward {node : ExprNode} {nodes : List ExprNode} {later : List String}
    (reads : Reads before tokens [node] later) (next : Reads (literals node) later nodes rest) :
    Reads before tokens nodes rest :=
  ⟨next.parsed, next.suffix.trans reads.suffix, by
    rw [reads.numbers, literalsOf_one, next.numbers]⟩

theorem append {first second : List ExprNode} {later : List String}
    (reads : Reads before tokens first later) (next : Reads [] later second rest) :
    Reads before tokens (first ++ second) rest :=
  ⟨by simpa [or_imp, forall_and] using ⟨reads.parsed, next.parsed⟩,
    next.suffix.trans reads.suffix, by
    rw [reads.numbers, literalsOf_append, List.append_assoc, ← next.numbers, List.nil_append]⟩

theorem one {node : ExprNode} (reads : Reads before tokens [node] rest) : Parsed node :=
  reads.parsed node List.mem_cons_self

end Reads

/-- What a reading of so many steps gives, for every part of the grammar. -/
structure Sound (fuel : Nat) : Prop where
  expr : ∀ {tokens node rest}, Proper tokens → expr fuel tokens = .ok (node, rest) →
    Reads [] tokens [node] rest
  sums : ∀ {start tokens node rest}, Proper tokens → Parsed start →
    sums fuel start tokens = .ok (node, rest) → Reads (literals start) tokens [node] rest
  term : ∀ {tokens node rest}, Proper tokens → term fuel tokens = .ok (node, rest) →
    Reads [] tokens [node] rest
  products : ∀ {start tokens node rest}, Proper tokens → Parsed start →
    products fuel start tokens = .ok (node, rest) → Reads (literals start) tokens [node] rest
  factor : ∀ {tokens node rest}, Proper tokens → factor fuel tokens = .ok (node, rest) →
    Reads [] tokens [node] rest
  arguments : ∀ {tokens args rest}, Proper tokens → arguments fuel tokens = .ok (args, rest) →
    Reads [] tokens args rest
  moreArguments : ∀ {tokens args rest}, Proper tokens →
    moreArguments fuel tokens = .ok (args, rest) → Reads [] tokens args rest

section Step

variable {fuel : Nat} {tokens rest : List String} {node : ExprNode}

theorem expr_reads (sound : Sound fuel) (proper : Proper tokens)
    (read : expr (fuel + 1) tokens = .ok (node, rest)) : Reads [] tokens [node] rest := by
  simp only [expr, bind_ok, Prod.exists] at read
  obtain ⟨first, later, firstRead, read⟩ := read
  have here := sound.term proper firstRead
  exact here.onward (sound.sums (proper.suffix here.suffix) here.one read)

theorem term_reads (sound : Sound fuel) (proper : Proper tokens)
    (read : term (fuel + 1) tokens = .ok (node, rest)) : Reads [] tokens [node] rest := by
  simp only [term, bind_ok, Prod.exists] at read
  obtain ⟨first, later, firstRead, read⟩ := read
  have here := sound.factor proper firstRead
  exact here.onward (sound.products (proper.suffix here.suffix) here.one read)

/-- An operation that grows to the left. -/
theorem operation_reads {start operand : ExprNode} {op : String} {later : List String}
    (known : firstChar op ∈ ['+', '-', '*', '/']) (plain : isNumeral op = false)
    (parsed : Parsed start) (here : Reads [] tokens [operand] later) :
    Reads (literals start) (op :: tokens) [.bin (firstChar op) start operand .extension] later := by
  refine .skip plain ⟨?_, here.suffix, ?_⟩
  · simpa using Parsed.bin known parsed here.one
  · have numbers := here.numbers
    rw [List.nil_append, literalsOf_one] at numbers
    rw [numbers, literalsOf_one, literals, List.append_assoc]

theorem sums_reads (sound : Sound fuel) {start : ExprNode} (proper : Proper tokens)
    (parsed : Parsed start) (read : sums (fuel + 1) start tokens = .ok (node, rest)) :
    Reads (literals start) tokens [node] rest := by
  cases tokens with
  | nil =>
      simp only [sums, Except.ok.injEq, Prod.mk.injEq] at read
      obtain ⟨rfl, rfl⟩ := read
      exact .here parsed
  | cons op tokens =>
      simp only [sums] at read
      split at read
      next operator =>
        simp only [bind_ok, Prod.exists] at read
        obtain ⟨operand, later, operandRead, read⟩ := read
        have here := sound.term (proper.suffix (List.suffix_cons _ _)) operandRead
        have grown := @operation_reads _ _ _ op _ (by rcases operator with rfl | rfl <;> decide)
          (by rcases operator with rfl | rfl <;> decide) parsed here
        exact grown.onward (sound.sums (proper.suffix grown.suffix) grown.one read)
      next =>
        simp only [Except.ok.injEq, Prod.mk.injEq] at read
        obtain ⟨rfl, rfl⟩ := read
        exact .here parsed

theorem products_reads (sound : Sound fuel) {start : ExprNode} (proper : Proper tokens)
    (parsed : Parsed start) (read : products (fuel + 1) start tokens = .ok (node, rest)) :
    Reads (literals start) tokens [node] rest := by
  cases tokens with
  | nil =>
      simp only [products, Except.ok.injEq, Prod.mk.injEq] at read
      obtain ⟨rfl, rfl⟩ := read
      exact .here parsed
  | cons op tokens =>
      simp only [products] at read
      split at read
      next operator =>
        simp only [bind_ok, Prod.exists] at read
        obtain ⟨operand, later, operandRead, read⟩ := read
        have here := sound.factor (proper.suffix (List.suffix_cons _ _)) operandRead
        have grown := @operation_reads _ _ _ op _ (by rcases operator with rfl | rfl <;> decide)
          (by rcases operator with rfl | rfl <;> decide) parsed here
        exact grown.onward (sound.products (proper.suffix grown.suffix) grown.one read)
      next =>
        simp only [Except.ok.injEq, Prod.mk.injEq] at read
        obtain ⟨rfl, rfl⟩ := read
        exact .here parsed

theorem not_digit_of_nameStart {c : Char} (start : isNameStart c = true) : c.isDigit = false := by
  rw [← Bool.not_eq_true]
  intro digit
  simp only [isNameStart, Bool.or_eq_true, decide_eq_true_eq] at start
  rcases start with letter | rfl
  · simp only [Char.isAlpha, Char.isUpper, Char.isLower, Char.isDigit, Bool.or_eq_true,
      Bool.and_eq_true, decide_eq_true_eq, ge_iff_le, UInt32.le_iff_toNat_le] at letter digit
    have upper : ('A' : Char).val.toNat = 65 := rfl
    have lower : ('a' : Char).val.toNat = 97 := rfl
    have nine : ('9' : Char).val.toNat = 57 := rfl
    omega
  · simp at digit

theorem factor_reads (sound : Sound fuel) (proper : Proper tokens)
    (read : factor (fuel + 1) tokens = .ok (node, rest)) : Reads [] tokens [node] rest := by
  cases tokens with
  | nil => simp [factor] at read
  | cons token tokens =>
      have later : Proper tokens := proper.suffix (List.suffix_cons _ _)
      simp only [factor] at read
      split_ifs at read with opens digit name call
      · simp only [bind_ok, Prod.exists, pure_ok, Prod.mk.injEq, close_ok] at read
        obtain ⟨inner, _, innerRead, _, rfl, rfl, rfl⟩ := read
        subst opens
        exact .skip rfl (.dropped rfl (sound.expr later innerRead))
      · simp only [bind_ok, pure_ok, Prod.mk.injEq] at read
        obtain ⟨value, valueRead, rfl, rfl⟩ := read
        have same := stoll_ok valueRead
        refine ⟨by simpa using Parsed.num (by omega), List.suffix_cons _ _, ?_⟩
        have numeric : isNumeral token = true := digit
        rw [numerals_cons, if_pos numeric, literalsOf_one, literals, same]
        rfl
      · obtain ⟨_, rfl⟩ := List.head?_eq_some_iff.mp call
        simp only [List.tail_cons, bind_ok, Prod.exists, pure_ok, Prod.mk.injEq, close_ok] at read
        obtain ⟨args, _, argsRead, _, rfl, rfl, rfl⟩ := read
        have inside := sound.arguments (later.suffix (List.suffix_cons _ _)) argsRead
        have opened := inside.dropped rfl |>.skip (show isNumeral "(" = false from rfl)
        have whole := opened.skip (not_digit_of_nameStart name)
        refine ⟨?_, whole.suffix, ?_⟩
        · simpa using Parsed.call (proper token List.mem_cons_self name) whole.parsed
        · rw [whole.numbers, literalsOf_one, literals]
      · simp only [Except.ok.injEq, Prod.mk.injEq] at read
        obtain ⟨rfl, rfl⟩ := read
        refine .skip (not_digit_of_nameStart name) ⟨?_, List.suffix_refl _, rfl⟩
        simpa using Parsed.var (proper token List.mem_cons_self name)

theorem arguments_reads (sound : Sound fuel) {args : List ExprNode} (proper : Proper tokens)
    (read : arguments (fuel + 1) tokens = .ok (args, rest)) : Reads [] tokens args rest := by
  simp only [arguments] at read
  split at read
  · simp only [Except.ok.injEq, Prod.mk.injEq] at read
    obtain ⟨rfl, rfl⟩ := read
    exact ⟨by simp, List.suffix_refl _, rfl⟩
  · simp only [bind_ok, Prod.exists, pure_ok, Prod.mk.injEq] at read
    obtain ⟨arg, _, argRead, others, _, othersRead, rfl, rfl⟩ := read
    have here := sound.expr proper argRead
    exact here.append (sound.moreArguments (proper.suffix here.suffix) othersRead)

theorem moreArguments_reads (sound : Sound fuel) {args : List ExprNode} (proper : Proper tokens)
    (read : moreArguments (fuel + 1) tokens = .ok (args, rest)) : Reads [] tokens args rest := by
  simp only [moreArguments] at read
  split at read
  next comma =>
    obtain ⟨later, rfl⟩ := List.head?_eq_some_iff.mp comma
    simp only [List.tail_cons, bind_ok, Prod.exists, pure_ok, Prod.mk.injEq] at read
    obtain ⟨arg, _, argRead, others, _, othersRead, rfl, rfl⟩ := read
    have here := sound.expr (proper.suffix (List.suffix_cons _ _)) argRead
    have all := here.append (sound.moreArguments
      ((proper.suffix (List.suffix_cons _ _)).suffix here.suffix) othersRead)
    exact .skip rfl all
  next =>
    simp only [Except.ok.injEq, Prod.mk.injEq] at read
    obtain ⟨rfl, rfl⟩ := read
    exact ⟨by simp, List.suffix_refl _, rfl⟩

end Step

theorem sound : (fuel : Nat) → Sound fuel
  | 0 => by constructor <;> simp [expr, sums, term, products, factor, arguments, moreArguments]
  | fuel + 1 =>
      { expr := expr_reads (sound fuel)
        sums := sums_reads (sound fuel)
        term := term_reads (sound fuel)
        products := products_reads (sound fuel)
        factor := factor_reads (sound fuel)
        arguments := arguments_reads (sound fuel)
        moreArguments := moreArguments_reads (sound fuel) }

theorem parse_reads {tokens : List String} {node : ExprNode} (proper : Proper tokens)
    (read : parse tokens = .ok node) : Parsed node ∧ literals node = numerals tokens := by
  simp only [parse, bind_ok, Prod.exists] at read
  obtain ⟨found, rest, foundRead, read⟩ := read
  have reads := (sound _).expr proper foundRead
  split_ifs at read with ended
  cases read
  subst ended
  have numbers := reads.numbers
  simp only [List.nil_append, literalsOf_one] at numbers
  exact ⟨reads.one, by simpa [numerals] using numbers.symm⟩

theorem bareGuard_ok {node guard : ExprNode} {rest : List String} :
    bareGuard node rest = .ok guard ↔ isAcceptedCall node = true ∧ rest = [] ∧ node = guard := by
  unfold bareGuard
  by_cases accepted : isAcceptedCall node = true <;> by_cases ended : rest = [] <;>
    simp [accepted, ended]

theorem parseGuardTop_reads {tokens : List String} {guard : ExprNode} (proper : Proper tokens)
    (read : parseGuardTop tokens = .ok guard) :
    ParsedGuard guard ∧ literals guard = numerals tokens := by
  simp only [parseGuardTop, bind_ok, Prod.exists] at read
  obtain ⟨lhs, rest, lhsRead, read⟩ := read
  have left := (sound _).expr proper lhsRead
  have numbers := left.numbers
  simp only [List.nil_append, literalsOf_one] at numbers
  have bare (bare : bareGuard lhs rest = .ok guard) :
      ParsedGuard guard ∧ literals guard = numerals tokens := by
    obtain ⟨_, rfl, rfl⟩ := bareGuard_ok.mp bare
    exact ⟨.value left.one, by simpa [numerals] using numbers.symm⟩
  cases rest with
  | nil => exact bare read
  | cons op later =>
      dsimp only at read
      split at read
      next known =>
        simp only [bind_ok, Prod.exists] at read
        obtain ⟨rhs, ended, rhsRead, read⟩ := read
        have right := (sound _).expr
          ((proper.suffix left.suffix).suffix (List.suffix_cons _ _)) rhsRead
        split_ifs at read with nothing
        cases read
        subst nothing
        have others := right.numbers
        simp only [List.nil_append, literalsOf_one] at others
        have plain : isNumeral op = false := by
          simp only [isCmpOp, Bool.or_eq_true, decide_eq_true_eq, or_assoc] at known
          rcases known with rfl | rfl | rfl | rfl | rfl | rfl <;> rfl
        refine ⟨.cmp known left.one right.one, ?_⟩
        rw [literals, numbers, numerals_skip _ plain, others]
        simp [numerals]
      next => exact bare read

/-! A reading ends. -/

/-- The step counts with which no part of the grammar runs out. -/
structure Ends (fuel : Nat) : Prop where
  expr : ∀ {tokens}, Proper tokens → 3 * tokens.length + 3 ≤ fuel →
    expr fuel tokens ≠ .error .exhausted
  sums : ∀ {start tokens}, Proper tokens → Parsed start → 3 * tokens.length + 1 ≤ fuel →
    sums fuel start tokens ≠ .error .exhausted
  term : ∀ {tokens}, Proper tokens → 3 * tokens.length + 2 ≤ fuel →
    term fuel tokens ≠ .error .exhausted
  products : ∀ {start tokens}, Proper tokens → Parsed start → 3 * tokens.length + 1 ≤ fuel →
    products fuel start tokens ≠ .error .exhausted
  factor : ∀ {tokens}, Proper tokens → 3 * tokens.length + 1 ≤ fuel →
    factor fuel tokens ≠ .error .exhausted
  arguments : ∀ {tokens}, Proper tokens → 3 * tokens.length + 4 ≤ fuel →
    arguments fuel tokens ≠ .error .exhausted
  moreArguments : ∀ {tokens}, Proper tokens → 3 * tokens.length + 1 ≤ fuel →
    moreArguments fuel tokens ≠ .error .exhausted

theorem close_ends (message : String) (tokens : List String) :
    close message tokens ≠ .error .exhausted := by
  cases tokens with
  | nil => simp [close, invalid]
  | cons token rest => by_cases closes : token = ")" <;> simp [close, closes, invalid]

theorem stoll_ends (token : String) : stoll token ≠ .error .exhausted := by
  unfold stoll
  split <;> simp

section Step

variable {fuel : Nat} {tokens : List String} {start : ExprNode}

theorem expr_ends (ends : Ends fuel) (proper : Proper tokens)
    (enough : 3 * tokens.length + 3 ≤ fuel + 1) : expr (fuel + 1) tokens ≠ .error .exhausted := by
  simp only [expr, ne_eq, bind_error, Prod.exists]
  rintro (spent | ⟨node, rest, read, spent⟩)
  · exact ends.term proper (by omega) spent
  · have here := (sound fuel).term proper read
    have shorter := here.suffix.length_le
    exact ends.sums (proper.suffix here.suffix) here.one (by omega) spent

theorem term_ends (ends : Ends fuel) (proper : Proper tokens)
    (enough : 3 * tokens.length + 2 ≤ fuel + 1) : term (fuel + 1) tokens ≠ .error .exhausted := by
  simp only [term, ne_eq, bind_error, Prod.exists]
  rintro (spent | ⟨node, rest, read, spent⟩)
  · exact ends.factor proper (by omega) spent
  · have here := (sound fuel).factor proper read
    have shorter := here.suffix.length_le
    exact ends.products (proper.suffix here.suffix) here.one (by omega) spent

theorem sums_ends (ends : Ends fuel) (proper : Proper tokens) (parsed : Parsed start)
    (enough : 3 * tokens.length + 1 ≤ fuel + 1) :
    sums (fuel + 1) start tokens ≠ .error .exhausted := by
  cases tokens with
  | nil => simp [sums]
  | cons op tokens =>
      have later : Proper tokens := proper.suffix (List.suffix_cons _ _)
      rw [List.length_cons] at enough
      simp only [sums]
      split
      next operator =>
        simp only [ne_eq, bind_error, Prod.exists]
        rintro (spent | ⟨operand, rest, read, spent⟩)
        · exact ends.term later (by omega) spent
        · have here := (sound fuel).term later read
          have shorter := here.suffix.length_le
          have grown := @operation_reads _ _ _ op _ (by rcases operator with rfl | rfl <;> decide)
            (by rcases operator with rfl | rfl <;> decide) parsed here
          exact ends.sums (later.suffix here.suffix) grown.one (by omega) spent
      next => simp

theorem products_ends (ends : Ends fuel) (proper : Proper tokens) (parsed : Parsed start)
    (enough : 3 * tokens.length + 1 ≤ fuel + 1) :
    products (fuel + 1) start tokens ≠ .error .exhausted := by
  cases tokens with
  | nil => simp [products]
  | cons op tokens =>
      have later : Proper tokens := proper.suffix (List.suffix_cons _ _)
      rw [List.length_cons] at enough
      simp only [products]
      split
      next operator =>
        simp only [ne_eq, bind_error, Prod.exists]
        rintro (spent | ⟨operand, rest, read, spent⟩)
        · exact ends.factor later (by omega) spent
        · have here := (sound fuel).factor later read
          have shorter := here.suffix.length_le
          have grown := @operation_reads _ _ _ op _ (by rcases operator with rfl | rfl <;> decide)
            (by rcases operator with rfl | rfl <;> decide) parsed here
          exact ends.products (later.suffix here.suffix) grown.one (by omega) spent
      next => simp

theorem factor_ends (ends : Ends fuel) (proper : Proper tokens)
    (enough : 3 * tokens.length + 1 ≤ fuel + 1) : factor (fuel + 1) tokens ≠ .error .exhausted := by
  cases tokens with
  | nil => simp [factor, invalid]
  | cons token tokens =>
      have later : Proper tokens := proper.suffix (List.suffix_cons _ _)
      rw [List.length_cons] at enough
      simp only [factor]
      split_ifs with opens digit name call
      · simp only [ne_eq, bind_error, Prod.exists]
        rintro (spent | ⟨node, rest, _, spent | ⟨_, _, never⟩⟩)
        · exact ends.expr later (by omega) spent
        · exact close_ends _ _ spent
        · cases never
      · simp only [ne_eq, bind_error]
        rintro (spent | ⟨_, _, never⟩)
        · exact stoll_ends _ spent
        · cases never
      · obtain ⟨inner, rfl⟩ := List.head?_eq_some_iff.mp call
        rw [List.length_cons] at enough
        simp only [List.tail_cons, ne_eq, bind_error, Prod.exists]
        rintro (spent | ⟨args, rest, _, spent | ⟨_, _, never⟩⟩)
        · exact ends.arguments (later.suffix (List.suffix_cons _ _)) (by omega) spent
        · exact close_ends _ _ spent
        · cases never
      · simp
      · simp [invalid]

theorem arguments_ends (ends : Ends fuel) (proper : Proper tokens)
    (enough : 3 * tokens.length + 4 ≤ fuel + 1) :
    arguments (fuel + 1) tokens ≠ .error .exhausted := by
  simp only [arguments]
  split
  · simp
  · simp only [ne_eq, bind_error, Prod.exists]
    rintro (spent | ⟨arg, rest, read, spent | ⟨_, _, _, never⟩⟩)
    · exact ends.expr proper (by omega) spent
    · have here := (sound fuel).expr proper read
      have shorter := here.suffix.length_le
      exact ends.moreArguments (proper.suffix here.suffix) (by omega) spent
    · cases never

theorem moreArguments_ends (ends : Ends fuel) (proper : Proper tokens)
    (enough : 3 * tokens.length + 1 ≤ fuel + 1) :
    moreArguments (fuel + 1) tokens ≠ .error .exhausted := by
  simp only [moreArguments]
  split
  next comma =>
    obtain ⟨inner, rfl⟩ := List.head?_eq_some_iff.mp comma
    have later : Proper inner := proper.suffix (List.suffix_cons _ _)
    rw [List.length_cons] at enough
    simp only [List.tail_cons, ne_eq, bind_error, Prod.exists]
    rintro (spent | ⟨arg, rest, read, spent | ⟨_, _, _, never⟩⟩)
    · exact ends.expr later (by omega) spent
    · have here := (sound fuel).expr later read
      have shorter := here.suffix.length_le
      exact ends.moreArguments (later.suffix here.suffix) (by omega) spent
    · cases never
  next => simp

end Step

theorem ends : (fuel : Nat) → Ends fuel
  | 0 => by constructor <;> (intros; omega)
  | fuel + 1 =>
      { expr := expr_ends (ends fuel)
        sums := sums_ends (ends fuel)
        term := term_ends (ends fuel)
        products := products_ends (ends fuel)
        factor := factor_ends (ends fuel)
        arguments := arguments_ends (ends fuel)
        moreArguments := moreArguments_ends (ends fuel) }

theorem parse_ends {tokens : List String} (proper : Proper tokens) :
    parse tokens ≠ .error .exhausted := by
  simp only [parse, ne_eq, bind_error, Prod.exists]
  rintro (spent | ⟨node, rest, _, spent⟩)
  · exact (ends _).expr proper le_rfl spent
  · split at spent <;> simp [throw, throwThe, MonadExceptOf.throw, pure, Except.pure, invalid] at spent

theorem bareGuard_ends (node : ExprNode) (rest : List String) :
    bareGuard node rest ≠ .error .exhausted := by
  unfold bareGuard
  split_ifs <;> simp [invalid]

theorem parseGuardTop_ends {tokens : List String} (proper : Proper tokens) :
    parseGuardTop tokens ≠ .error .exhausted := by
  simp only [parseGuardTop, ne_eq, bind_error, Prod.exists]
  rintro (spent | ⟨lhs, rest, read, spent⟩)
  · exact (ends _).expr proper le_rfl spent
  · have left := (sound _).expr proper read
    have shorter := left.suffix.length_le
    cases rest with
    | nil => exact bareGuard_ends _ _ spent
    | cons op later =>
        rw [List.length_cons] at shorter
        dsimp only at spent
        split at spent
        · simp only [bind_error, Prod.exists] at spent
          rcases spent with spent | ⟨rhs, ended, _, spent⟩
          · refine (ends _).expr ?_ (by simp only [steps]; omega) spent
            exact (proper.suffix left.suffix).suffix (List.suffix_cons _ _)
          · split at spent <;>
              simp [throw, throwThe, MonadExceptOf.throw, pure, Except.pure, invalid] at spent
        · exact bareGuard_ends _ _ spent

end Parser

/-! Every token is spelled as its kind is. -/

@[simp] theorem firstChar_ofList (c : Char) (rest : List Char) :
    firstChar (String.ofList (c :: rest)) = c := by
  simp [firstChar]

@[simp] theorem firstChar_toString (c : Char) : firstChar c.toString = c := by
  simp [firstChar]

theorem isNameChar_of_nameStart {c : Char} (start : isNameStart c = true) : isNameChar c = true := by
  simp only [isNameStart, isNameChar, Char.isAlphanum, Bool.or_eq_true, decide_eq_true_eq] at start ⊢
  tauto

theorem isName_run {c : Char} (start : isNameStart c = true) (rest : List Char) :
    isName (String.ofList (c :: rest.takeWhile isNameChar)) = true := by
  simp only [isName, firstChar_ofList, start, String.toList_ofList, List.all_cons,
    isNameChar_of_nameStart start, List.all_takeWhile, Bool.and_self]

theorem tokensAfter_proper {taken : Nat} {chars : List Char} {tokens : List String}
    (read : tokensAfter taken chars = .ok tokens) : Parser.Proper tokens := by
  induction chars generalizing taken tokens with
  | nil =>
      cases taken <;> (cases read; simp [Parser.Proper])
  | cons c rest ih =>
      cases taken with
      | succ taken => exact ih read
      | zero =>
          have others {token : String} {taken : Nat}
              (named : isNameStart (firstChar token) = true → isName token = true)
              (read : (token :: ·) <$> tokensAfter taken rest = .ok tokens) :
              Parser.Proper tokens := by
            obtain ⟨later, laterRead, rfl⟩ := map_ok.mp read
            exact List.forall_mem_cons.mpr ⟨named, ih laterRead⟩
          simp only [tokensAfter] at read
          split_ifs at read with space digit name punctuation comparison equals alone
          · exact ih read
          · refine others (fun start => ?_) read
            rw [firstChar_ofList] at start
            simp [Parser.not_digit_of_nameStart start] at digit
          · exact others (fun _ => isName_run name rest) read
          · refine others (fun start => ?_) read
            rw [firstChar_toString] at start
            exact absurd start name
          · refine others (fun start => ?_) read
            rw [firstChar_ofList] at start
            exact absurd start name
          · refine others (fun start => ?_) read
            rw [firstChar_toString] at start
            exact absurd start name

theorem tokenize_proper {source : String} {tokens : List String}
    (read : tokenize source = .ok tokens) : Parser.Proper tokens :=
  tokensAfter_proper read

/-- What a source that parses gives: a value of the grammar that holds the numbers written. -/
theorem parseExpr_reads {source : String} {node : ExprNode} (read : parseExpr source = .ok node) :
    ∃ tokens, tokenize source = .ok tokens ∧ Parsed node ∧ literals node = Parser.numerals tokens := by
  obtain ⟨tokens, split, read⟩ := bind_ok.mp read
  have tokenized := mapError_ok.mp split
  exact ⟨tokens, tokenized, Parser.parse_reads (tokenize_proper tokenized) read⟩

theorem parseGuard_reads {source : String} {guard : ExprNode}
    (read : parseGuard source = .ok guard) :
    ∃ tokens, tokenize source = .ok tokens ∧ ParsedGuard guard ∧
      literals guard = Parser.numerals tokens := by
  obtain ⟨tokens, split, read⟩ := bind_ok.mp read
  have tokenized := mapError_ok.mp split
  exact ⟨tokens, tokenized, Parser.parseGuardTop_reads (tokenize_proper tokenized) read⟩

end Neutrino
