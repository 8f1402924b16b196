import Neutrino.CoordinationPlan
import Neutrino.ExprParser
import Neutrino.SolidityRendering

/-! The texts an expression is written as: the structural key, which tells parsed expressions
apart, and the rendering, which parses back to the expression. -/

namespace Neutrino

open Checked

mutual

/-- The structure of an expression: the categories inference attached are forgotten. -/
def structureOf : ExprNode → ExprNode
  | .num value _ => .num value .extension
  | .var name _ => .var name .extension
  | .bin op lhs rhs _ => .bin op (structureOf lhs) (structureOf rhs) .extension
  | .call name args _ => .call name (structuresOf args) .extension
  | .cmp op lhs rhs _ => .cmp op (structureOf lhs) (structureOf rhs) .extension

def structuresOf : List ExprNode → List ExprNode
  | [] => []
  | arg :: rest => structureOf arg :: structuresOf rest

end

theorem Parsed.structure {node : ExprNode} (parsed : Parsed node) : structureOf node = node := by
  induction parsed with
  | num => rfl
  | var => rfl
  | bin _ _ _ left right => rw [structureOf, left, right]
  | @call name args _ _ each =>
      have all : structuresOf args = args := by
        clear * - each
        induction args with
        | nil => rfl
        | cons arg rest ih =>
            rw [List.forall_mem_cons] at each
            rw [structuresOf, each.1, ih each.2]
      rw [structureOf, all]

theorem ParsedGuard.structure {guard : ExprNode} (parsed : ParsedGuard guard) :
    structureOf guard = guard := by
  cases parsed with
  | value parsed => exact parsed.structure
  | cmp _ left right => rw [structureOf, left.structure, right.structure]

/-! The structural key. -/

mutual

theorem structuralKey_structureOf : (node : ExprNode) →
    structuralKey (structureOf node) = structuralKey node
  | .num _ _ => rfl
  | .var _ _ => rfl
  | .bin _ lhs rhs _ => by
      simp only [structureOf, structuralKey, structuralKey_structureOf lhs,
        structuralKey_structureOf rhs]
  | .call _ args _ => by
      simp only [structureOf, structuralKey, argumentKeys_structuresOf args]
  | .cmp _ lhs rhs _ => by
      simp only [structureOf, structuralKey, structuralKey_structureOf lhs,
        structuralKey_structureOf rhs]

theorem argumentKeys_structuresOf : (args : List ExprNode) →
    argumentKeys (structuresOf args) = argumentKeys args
  | [] => rfl
  | arg :: rest => by
      simp only [structuresOf, argumentKeys, structuralKey_structureOf arg,
        argumentKeys_structuresOf rest]

end

/-- A key ends where its list or the whole key ends. -/
def isDelimiter (c : Char) : Bool := c = ' ' || c = ')'

/-- What follows a word ends it. -/
def Ends (rest : List Char) : Prop := ∀ c ∈ rest.head?, isDelimiter c = true

/-- A word without delimiters. -/
def Word (word : List Char) : Prop := ∀ c ∈ word, isDelimiter c = false

/-- Words are told apart whatever follows them. -/
theorem word_eq {first second after after' : List Char} (word : Word first) (word' : Word second)
    (ends : Ends after) (ends' : Ends after') (same : first ++ after = second ++ after') :
    first = second ∧ after = after' := by
  induction first generalizing second with
  | nil =>
      cases second with
      | nil => exact ⟨rfl, same⟩
      | cons c second =>
          rw [List.nil_append] at same
          have delimiter := ends c (by rw [same]; rfl)
          have inside := word' c List.mem_cons_self
          simp [delimiter] at inside
  | cons c first ih =>
      cases second with
      | nil =>
          rw [List.nil_append] at same
          have delimiter := ends' c (by rw [← same]; rfl)
          have inside := word c List.mem_cons_self
          simp [delimiter] at inside
      | cons d second =>
          rw [List.cons_append, List.cons_append, List.cons.injEq] at same
          obtain ⟨rfl, same⟩ := same
          obtain ⟨rfl, rfl⟩ := ih (fun c listed => word c (List.mem_cons_of_mem _ listed))
            (fun c listed => word' c (List.mem_cons_of_mem _ listed)) same
          exact ⟨rfl, rfl⟩

theorem toString_digits {value : Int64} (sign : 0 ≤ value.toInt) :
    (toString value).toList = Nat.toDigits 10 value.toInt.toNat := by
  change (toString value.toInt).toList = _
  obtain ⟨number, same⟩ := Int.eq_ofNat_of_zero_le sign
  rw [same]
  exact toString_ofNat number

theorem toString_eq {value other : Int64} (sign : 0 ≤ value.toInt) (sign' : 0 ≤ other.toInt)
    (same : (toString value).toList = (toString other).toList) : value = other := by
  have digits := congrArg readDigits same
  rw [toString_digits sign, toString_digits sign', readDigits_toDigits, readDigits_toDigits,
    Option.some.injEq] at digits
  exact Int64.toInt_inj.mp (by omega)

theorem word_toString {value : Int64} (sign : 0 ≤ value.toInt) : Word (toString value).toList := by
  intro c listed
  rw [toString_digits sign] at listed
  have digit := isDigit_toDigits listed
  simp only [isDelimiter, Bool.or_eq_false_iff, decide_eq_false_iff_not]
  exact ⟨by rintro rfl; simp at digit, by rintro rfl; simp at digit⟩

theorem word_name {name : String} (named : isName name = true) : Word name.toList := by
  simp only [isName, Bool.and_eq_true, List.all_eq_true] at named
  intro c listed
  have letter := named.2 c listed
  simp only [isDelimiter, Bool.or_eq_false_iff, decide_eq_false_iff_not]
  exact ⟨by rintro rfl; simp [isNameChar] at letter, by rintro rfl; simp [isNameChar] at letter⟩

theorem isNameStart_name {name : String} (named : isName name = true) {c : Char} {rest : List Char}
    (spelled : name.toList = c :: rest) : isNameStart c = true := by
  simp only [isName, Bool.and_eq_true] at named
  simpa [firstChar, spelled] using named.1

theorem ends_space (rest : List Char) : Ends (' ' :: rest) := by simp [Ends, isDelimiter]

theorem ends_close (rest : List Char) : Ends (')' :: rest) := by simp [Ends, isDelimiter]

theorem ends_arguments (args : List ExprNode) (rest : List Char) :
    Ends ((argumentKeys args).toList ++ ')' :: rest) := by
  cases args with
  | nil => exact ends_close rest
  | cons arg args => simp [argumentKeys, Ends, isDelimiter]

section Keys

variable (after : List Char)

theorem key_num (value : Int64) (dtype : ValueCategory) :
    (structuralKey (.num value dtype)).toList ++ after = '#' :: ((toString value).toList ++ after) := by
  simp [structuralKey]

theorem key_var (name : String) (dtype : ValueCategory) :
    (structuralKey (.var name dtype)).toList ++ after = '$' :: (name.toList ++ after) := by
  simp [structuralKey]

theorem key_bin (op : Char) (lhs rhs : ExprNode) (dtype : ValueCategory) :
    (structuralKey (.bin op lhs rhs dtype)).toList ++ after =
      '(' :: ([op] ++ ' ' :: ((structuralKey lhs).toList ++
        ' ' :: ((structuralKey rhs).toList ++ ')' :: after))) := by
  simp [structuralKey]

theorem key_cmp (op : String) (lhs rhs : ExprNode) (dtype : ValueCategory) :
    (structuralKey (.cmp op lhs rhs dtype)).toList ++ after =
      '(' :: (op.toList ++ ' ' :: ((structuralKey lhs).toList ++
        ' ' :: ((structuralKey rhs).toList ++ ')' :: after))) := by
  simp [structuralKey]

theorem key_call (name : String) (args : List ExprNode) (dtype : ValueCategory) :
    (structuralKey (.call name args dtype)).toList ++ after =
      '(' :: (name.toList ++ ((argumentKeys args).toList ++ ')' :: after)) := by
  simp [structuralKey]

end Keys

/-- The key of a value can be told apart from that of any other, whatever follows them. -/
def KeyReads (first : ExprNode) : Prop :=
  ∀ second after after', Parsed second → Ends after → Ends after' →
    (structuralKey first).toList ++ after = (structuralKey second).toList ++ after' →
    first = second ∧ after = after'

theorem operands_eq {lhs rhs lhs' rhs' : ExprNode} {after after' : List Char} (left : KeyReads lhs)
    (right : KeyReads rhs) (parsed : Parsed lhs') (parsed' : Parsed rhs')
    (same : (structuralKey lhs).toList ++ ' ' :: ((structuralKey rhs).toList ++ ')' :: after) =
      (structuralKey lhs').toList ++ ' ' :: ((structuralKey rhs').toList ++ ')' :: after')) :
    lhs = lhs' ∧ rhs = rhs' ∧ after = after' := by
  obtain ⟨sameLeft, rest⟩ := left _ _ _ parsed (ends_space _) (ends_space _) same
  obtain ⟨sameRight, last⟩ :=
    right _ _ _ parsed' (ends_close _) (ends_close _) (List.cons.inj rest).2
  exact ⟨sameLeft, sameRight, (List.cons.inj last).2⟩

theorem arguments_eq {args args' : List ExprNode} {after after' : List Char}
    (each : ∀ arg ∈ args, KeyReads arg) (parsed : ∀ arg ∈ args', Parsed arg)
    (same : (argumentKeys args).toList ++ ')' :: after =
      (argumentKeys args').toList ++ ')' :: after') : args = args' ∧ after = after' := by
  induction args generalizing args' with
  | nil =>
      cases args' with
      | nil => simpa [argumentKeys] using same
      | cons => simp [argumentKeys] at same
  | cons arg args ih =>
      cases args' with
      | nil => simp [argumentKeys] at same
      | cons arg' args' =>
          rw [List.forall_mem_cons] at each parsed
          simp only [argumentKeys, String.toList_append, List.append_assoc] at same
          have tail : (structuralKey arg).toList ++ ((argumentKeys args).toList ++ ')' :: after) =
              (structuralKey arg').toList ++ ((argumentKeys args').toList ++ ')' :: after') := by
            simpa using same
          obtain ⟨sameArg, rest⟩ :=
            each.1 _ _ _ parsed.1 (ends_arguments _ _) (ends_arguments _ _) tail
          obtain ⟨sameArgs, last⟩ := ih each.2 parsed.2 rest
          exact ⟨by rw [sameArg, sameArgs], last⟩

/-- An operator is no name. -/
theorem operator_not_name {op name : String} {rest rest' : List Char}
    (known : isCmpOp op = true ∨ op ∈ ["+", "-", "*", "/"]) (named : isName name = true)
    (ends : Ends rest) (ends' : Ends rest') : op.toList ++ rest ≠ name.toList ++ rest' := by
  intro same
  have word : Word op.toList := by
    simp only [isCmpOp, Bool.or_eq_true, decide_eq_true_eq, or_assoc, List.mem_cons,
      List.not_mem_nil, or_false] at known
    rcases known with rfl | rfl | rfl | rfl | rfl | rfl | rfl | rfl | rfl | rfl <;>
      simp [Word, isDelimiter]
  obtain ⟨spelled, _⟩ := word_eq word (word_name named) ends ends' same
  obtain rfl := String.toList_inj.mp spelled
  simp only [isCmpOp, Bool.or_eq_true, decide_eq_true_eq, or_assoc, List.mem_cons,
    List.not_mem_nil, or_false] at known
  rcases known with rfl | rfl | rfl | rfl | rfl | rfl | rfl | rfl | rfl | rfl <;>
    simp [isName, isNameStart, firstChar] at named

theorem operator_text {op : Char} (known : op ∈ ['+', '-', '*', '/']) :
    op.toString ∈ ["+", "-", "*", "/"] := by
  simp only [List.mem_cons, List.not_mem_nil, or_false] at known
  rcases known with rfl | rfl | rfl | rfl <;> decide

theorem Parsed.keyReads {first : ExprNode} (parsed : Parsed first) : KeyReads first := by
  induction parsed with
  | @num value sign =>
      intro second after after' parsed' ends ends' same
      rw [key_num] at same
      cases parsed' with
      | @num other sign' =>
          rw [key_num, List.cons.injEq] at same
          obtain ⟨spelled, rest⟩ :=
            word_eq (word_toString sign) (word_toString sign') ends ends' same.2
          exact ⟨by rw [toString_eq sign sign' spelled], rest⟩
      | var => simp [key_var] at same
      | bin => simp [key_bin] at same
      | call => simp [key_call] at same
  | @var name named =>
      intro second after after' parsed' ends ends' same
      rw [key_var] at same
      cases parsed' with
      | num => simp [key_num] at same
      | @var other named' =>
          rw [key_var, List.cons.injEq] at same
          obtain ⟨spelled, rest⟩ := word_eq (word_name named) (word_name named') ends ends' same.2
          exact ⟨by rw [String.toList_inj.mp spelled], rest⟩
      | bin => simp [key_bin] at same
      | call => simp [key_call] at same
  | @bin op lhs rhs known _ _ left right =>
      intro second after after' parsed' ends ends' same
      rw [key_bin] at same
      cases parsed' with
      | num => simp [key_num] at same
      | var => simp [key_var] at same
      | @bin op' lhs' rhs' _ left' right' =>
          simp only [key_bin, List.cons_append, List.nil_append, List.cons.injEq, true_and] at same
          obtain ⟨rfl, operands⟩ := same
          obtain ⟨rfl, rfl, rest⟩ := operands_eq left right left' right' operands
          exact ⟨rfl, rest⟩
      | @call name args named _ =>
          rw [key_call, List.cons.injEq] at same
          refine absurd same.2 ?_
          have apart := operator_not_name (.inr (operator_text known)) named
            (ends_space ((structuralKey lhs).toList ++ ' ' :: ((structuralKey rhs).toList ++
              ')' :: after))) (ends_arguments args after')
          simpa using apart
  | @call name args named _ each =>
      intro second after after' parsed' ends ends' same
      rw [key_call] at same
      cases parsed' with
      | num => simp [key_num] at same
      | var => simp [key_var] at same
      | @bin op lhs rhs known _ _ =>
          rw [key_bin, List.cons.injEq] at same
          refine absurd same.2.symm ?_
          have apart := operator_not_name (.inr (operator_text known)) named
            (ends_space ((structuralKey lhs).toList ++ ' ' :: ((structuralKey rhs).toList ++
              ')' :: after'))) (ends_arguments args after)
          simpa using apart
      | @call other args' named' each' =>
          rw [key_call, List.cons.injEq] at same
          obtain ⟨spelled, rest⟩ := word_eq (word_name named) (word_name named')
            (ends_arguments _ _) (ends_arguments _ _) same.2
          obtain ⟨rfl, last⟩ := arguments_eq each each' rest
          exact ⟨by rw [String.toList_inj.mp spelled], last⟩

/-- A comparison has the key of no value. -/
theorem comparison_not_value {op : String} {lhs rhs node : ExprNode} {dtype : ValueCategory}
    (known : isCmpOp op = true) (parsed : Parsed node) :
    structuralKey (.cmp op lhs rhs dtype) ≠ structuralKey node := by
  intro keys
  have same : (structuralKey (.cmp op lhs rhs dtype)).toList ++ [] =
      (structuralKey node).toList ++ [] := by rw [keys]
  rw [key_cmp] at same
  cases parsed with
  | num =>
      rw [key_num] at same
      simp at same
  | var =>
      rw [key_var] at same
      simp at same
  | @bin op' lhs' rhs' known' _ _ =>
      rw [key_bin, List.cons.injEq] at same
      simp only [isCmpOp, Bool.or_eq_true, decide_eq_true_eq, or_assoc] at known
      simp only [List.mem_cons, List.not_mem_nil, or_false] at known'
      rcases known with rfl | rfl | rfl | rfl | rfl | rfl <;>
        rcases known' with rfl | rfl | rfl | rfl <;> simp at same
  | @call name args named _ =>
      rw [key_call, List.cons.injEq] at same
      exact operator_not_name (.inl known) named (ends_space _) (ends_arguments _ _) same.2

theorem word_comparison {op : String} (known : isCmpOp op = true) : Word op.toList := by
  simp only [isCmpOp, Bool.or_eq_true, decide_eq_true_eq, or_assoc] at known
  rcases known with rfl | rfl | rfl | rfl | rfl | rfl <;> simp [Word, isDelimiter]

theorem ParsedGuard.key_injective {first second : ExprNode} (parsed : ParsedGuard first)
    (parsed' : ParsedGuard second) (keys : structuralKey first = structuralKey second) :
    first = second := by
  cases parsed with
  | value value =>
      cases parsed' with
      | value value' =>
          have same : (structuralKey first).toList ++ [] = (structuralKey second).toList ++ [] := by
            rw [keys]
          exact (value.keyReads second [] [] value' (by simp [Ends]) (by simp [Ends]) same).1
      | cmp known _ _ => exact absurd keys.symm (comparison_not_value known value)
  | @cmp op lhs rhs known left right =>
      cases parsed' with
      | value value => exact absurd keys (comparison_not_value known value)
      | @cmp op' lhs' rhs' known' left' right' =>
          have same := congrArg (fun key : String => key.toList ++ []) keys
          simp only [key_cmp, List.cons.injEq, true_and] at same
          obtain ⟨spelled, rest⟩ := word_eq (word_comparison known) (word_comparison known')
            (ends_space _) (ends_space _) same
          obtain ⟨rfl, rfl, _⟩ :=
            operands_eq left.keyReads right.keyReads left' right' (List.cons.inj rest).2
          rw [String.toList_inj.mp spelled]

/-- The parser returned the tree, as a value or as a guard. -/
def Returned (source : String) (node : ExprNode) : Prop :=
  parseExpr source = .ok node ∨ parseGuard source = .ok node

theorem Returned.parsed {source : String} {node : ExprNode} (returned : Returned source node) :
    ParsedGuard node := by
  rcases returned with read | read
  · obtain ⟨_, _, parsed, _⟩ := parseExpr_reads read
    exact .value parsed
  · obtain ⟨_, _, parsed, _⟩ := parseGuard_reads read
    exact parsed

/-- The key tells source expressions apart exactly by their structure. -/
theorem canonicalGuardKey_exact {source source' : String} {first second : ExprNode}
    (returned : Returned source first) (returned' : Returned source' second) :
    canonicalGuardKey (some first) = canonicalGuardKey (some second) ↔
      structureOf first = structureOf second := by
  rw [returned.parsed.structure, returned'.parsed.structure]
  exact ⟨returned.parsed.key_injective returned'.parsed, fun same => by rw [same]⟩

open Neutrino.Parser in
theorem parse_sum : parseExpr "a + b" =
    .ok (.bin '+' (.var "a" .extension) (.var "b" .extension) .extension) := by
  have tokenized : tokenize "a + b" = .ok ["a", "+", "b"] := by decide +kernel
  simp [parseExpr, tokenized, Except.mapError, parse, steps, expr, term, factor, sums, products,
    firstChar, isNameStart, bind, Except.bind, pure, Except.pure]

open Neutrino.Parser in
theorem parse_comparison : parseGuard "a + b >= 10" =
    .ok (.cmp ">=" (.bin '+' (.var "a" .extension) (.var "b" .extension) .extension)
      (.num 10 .extension) .extension) := by
  have tokenized : tokenize "a + b >= 10" = .ok ["a", "+", "b", ">=", "10"] := by decide +kernel
  have ten : numeral "10" = 10 := by decide +kernel
  simp [parseGuard, tokenized, Except.mapError, parseGuardTop, steps, expr, term, factor, sums,
    products, firstChar, isNameStart, isCmpOp, stoll, ten, bind, Except.bind, pure, Except.pure]

theorem sum_guard_apart :
    canonicalGuardKey (some (.bin '+' (.var "a" .extension) (.var "b" .extension) .extension)) =
        canonicalGuardKey (some (.cmp ">=" (.bin '+' (.var "a" .extension) (.var "b" .extension)
          .extension) (.num 10 .extension) .extension)) ↔
      structureOf (.bin '+' (.var "a" .extension) (.var "b" .extension) .extension) =
        structureOf (.cmp ">=" (.bin '+' (.var "a" .extension) (.var "b" .extension) .extension)
          (.num 10 .extension) .extension) :=
  canonicalGuardKey_exact (.inl parse_sum) (.inr parse_comparison)

/-! The rendering read back. -/

/-- No call inside. -/
def CallFree : ExprNode → Bool
  | .num _ _ => true
  | .var _ _ => true
  | .bin _ lhs rhs _ => CallFree lhs && CallFree rhs
  | .call _ _ _ => false
  | .cmp _ lhs rhs _ => CallFree lhs && CallFree rhs

/-- The tokens of a rendered value. -/
def rendered : ExprNode → List String
  | .num value _ => [toString value]
  | .var name _ => [name]
  | .bin op lhs rhs _ => "(" :: rendered lhs ++ op.toString :: rendered rhs ++ [")"]
  | _ => []

theorem tokensAfter_taken (taken : Nat) (chars : List Char) :
    tokensAfter taken chars = tokensAfter 0 (chars.drop taken) := by
  induction chars generalizing taken with
  | nil => cases taken <;> rfl
  | cons c rest ih =>
      cases taken with
      | zero => rfl
      | succ taken => exact ih taken

/-- A text that ends a name splits into the tokens, whatever follows it. -/
def Spells (text : List Char) (tokens : List String) : Prop :=
  ∀ rest, (∀ c ∈ rest.head?, isNameChar c = false) →
    tokensAfter 0 (text ++ rest) = (tokens ++ ·) <$> tokensAfter 0 rest

theorem takeWhile_run {keep : Char → Bool} {run rest : List Char} (all : ∀ c ∈ run, keep c = true)
    (ends : ∀ c ∈ rest.head?, keep c = false) : (run ++ rest).takeWhile keep = run := by
  rw [List.takeWhile_append_of_pos all]
  cases rest with
  | nil => simp
  | cons c rest => rw [List.takeWhile_cons, ends c rfl]; simp

theorem isSpace_nameChar {c : Char} (inName : isNameChar c = true) : isSpace c = false := by
  rw [← Bool.not_eq_true]
  intro space
  simp only [isSpace, List.mem_cons, List.not_mem_nil, or_false, decide_eq_true_eq] at space
  rcases space with rfl | rfl | rfl | rfl | rfl | rfl <;> simp [isNameChar] at inName

theorem isNameChar_digit {c : Char} (digit : c.isDigit = true) : isNameChar c = true := by
  simp [isNameChar, Char.isAlphanum, digit]

/-- What ends a name ends a number too. -/
theorem stops_digits {rest : List Char} (ends : ∀ c ∈ rest.head?, isNameChar c = false) :
    ∀ c ∈ rest.head?, c.isDigit = false := by
  intro c first
  rw [← Bool.not_eq_true]
  intro digit
  have inName := isNameChar_digit digit
  simp [ends c first] at inName

theorem Spells.number {value : Int64} (sign : 0 ≤ value.toInt) :
    Spells (toString value).toList [toString value] := by
  intro rest ends
  have spelled := toString_digits sign
  cases digits : (toString value).toList with
  | nil => exact absurd (spelled.symm.trans digits) Nat.toDigits_ne_nil
  | cons c run =>
      have all : ∀ d ∈ c :: run, d.isDigit = true := fun d listed =>
        @isDigit_toDigits value.toInt.toNat d (by rw [← spelled, digits]; exact listed)
      rw [List.forall_mem_cons] at all
      have taken := takeWhile_run all.2 (stops_digits ends)
      have text : String.ofList (c :: run) = toString value := by rw [← digits, String.ofList_toList]
      simp only [List.cons_append, tokensAfter, isSpace_nameChar (isNameChar_digit all.1), all.1,
        Bool.false_eq_true, if_false, if_true, taken, text]
      rw [tokensAfter_taken, List.drop_left]
      rfl

theorem Spells.name {name : String} (named : isName name = true) : Spells name.toList [name] := by
  intro rest ends
  have letters := named
  simp only [isName, Bool.and_eq_true, List.all_eq_true] at letters
  cases spelled : name.toList with
  | nil => simp [firstChar, spelled, isNameStart] at letters
  | cons c run =>
      have start := isNameStart_name named spelled
      have all : ∀ d ∈ run, isNameChar d = true := fun d listed =>
        letters.2 d (by rw [spelled]; exact List.mem_cons_of_mem _ listed)
      have taken := takeWhile_run all ends
      have text : String.ofList (c :: run) = name := by rw [← spelled, String.ofList_toList]
      simp only [List.cons_append, tokensAfter, isSpace_nameChar (isNameChar_of_nameStart start),
        Parser.not_digit_of_nameStart start, start, Bool.false_eq_true, if_false, if_true, taken,
        text]
      rw [tokensAfter_taken, List.drop_left]
      rfl

theorem tokens_space (rest : List Char) : tokensAfter 0 (' ' :: rest) = tokensAfter 0 rest := by
  simp [tokensAfter, isSpace]

theorem tokens_punctuation {c : Char} (known : isPunctuation c = true) (rest : List Char) :
    tokensAfter 0 (c :: rest) = (c.toString :: ·) <$> tokensAfter 0 rest := by
  simp only [isPunctuation, List.mem_cons, List.not_mem_nil, or_false, decide_eq_true_eq] at known
  rcases known with rfl | rfl | rfl | rfl | rfl | rfl | rfl <;>
    simp [tokensAfter, isSpace, isNameStart, isPunctuation]

theorem Spells.operation {op : Char} {left right : List Char} {tokens tokens' : List String}
    (known : op ∈ ['+', '-', '*', '/']) (lhs : Spells left tokens) (rhs : Spells right tokens') :
    Spells ('(' :: (left ++ ' ' :: op :: ' ' :: (right ++ [')'])))
      ("(" :: tokens ++ op.toString :: tokens' ++ [")"]) := by
  intro rest _
  have punctuation : isPunctuation op = true := by
    simp only [List.mem_cons, List.not_mem_nil, or_false] at known
    rcases known with rfl | rfl | rfl | rfl <;> rfl
  have opened : tokensAfter 0 ('(' :: (left ++ ' ' :: op :: ' ' :: (right ++ [')'])) ++ rest) =
      ("(" :: ·) <$> tokensAfter 0 (left ++ ' ' :: op :: ' ' :: (right ++ ')' :: rest)) := by
    simpa using tokens_punctuation (c := '(') rfl (left ++ ' ' :: op :: ' ' :: (right ++ ')' :: rest))
  rw [opened, lhs _ (by simp [isNameChar]), tokens_space, tokens_punctuation punctuation,
    tokens_space, rhs _ (by simp [isNameChar]), tokens_punctuation rfl]
  simp only [Functor.map_map]
  congr 1
  funext later
  simp

theorem emit_spells {node : ExprNode} (parsed : Parsed node) (plain : CallFree node = true) :
    ∃ text, emit id node = .ok text ∧ Spells text.toList (rendered node) := by
  induction parsed with
  | num sign => exact ⟨_, rfl, .number sign⟩
  | var named => exact ⟨_, rfl, .name named⟩
  | @bin op lhs rhs known _ _ left right =>
      rw [CallFree, Bool.and_eq_true] at plain
      obtain ⟨text, emitted, spells⟩ := left plain.1
      obtain ⟨text', emitted', spells'⟩ := right plain.2
      refine ⟨"(" ++ text ++ " " ++ op.toString ++ " " ++ text' ++ ")", ?_, ?_⟩
      · rw [emit, emitted, emitted']
        rfl
      · have whole := Spells.operation known spells spells'
        simpa [rendered] using whole
  | call => cases plain

namespace Parser

theorem products_stop {fuel : Nat} {node : ExprNode} {rest : List String}
    (after : NotFirst ["*", "/"] rest) : products (fuel + 1) node rest = .ok (node, rest) := by
  cases rest with
  | nil => rfl
  | cons op rest =>
      have other : ¬(op = "*" ∨ op = "/") := by simpa using after op rfl
      rw [products, if_neg other]

theorem sums_stop {fuel : Nat} {node : ExprNode} {rest : List String}
    (after : NotFirst ["+", "-"] rest) : sums (fuel + 1) node rest = .ok (node, rest) := by
  cases rest with
  | nil => rfl
  | cons op rest =>
      have other : ¬(op = "+" ∨ op = "-") := by simpa using after op rfl
      rw [sums, if_neg other]

/-- A factor that no operator follows is a whole value. -/
theorem expr_factor {fuel : Nat} {tokens rest : List String} {node : ExprNode}
    (read : factor (fuel + 1) tokens = .ok (node, rest))
    (product : NotFirst ["*", "/"] rest) (sum : NotFirst ["+", "-"] rest) :
    expr (fuel + 3) tokens = .ok (node, rest) := by
  rw [expr, term, read, ok_bind]
  dsimp only
  rw [products_stop product, ok_bind]
  exact sums_stop sum

/-- Two factors and the operator between them, up to a closing parenthesis. -/
theorem expr_operation {fuel : Nat} {op : Char} {lhs rhs : ExprNode} {tokens later rest : List String}
    (known : op ∈ ['+', '-', '*', '/'])
    (left : factor (fuel + 2) tokens = .ok (lhs, op.toString :: later))
    (right : factor (fuel + 1) later = .ok (rhs, ")" :: rest)) :
    expr (fuel + 4) tokens = .ok (.bin op lhs rhs .extension, ")" :: rest) := by
  have product : NotFirst ["*", "/"] (")" :: rest) := by simp [NotFirst]
  have sum : NotFirst ["+", "-"] (")" :: rest) := by simp [NotFirst]
  rw [expr, term, left, ok_bind]
  dsimp only
  by_cases multiplies : op.toString = "*" ∨ op.toString = "/"
  · rw [products, if_pos multiplies, right, ok_bind]
    dsimp only
    rw [products_stop product, ok_bind, firstChar_toString]
    exact sums_stop sum
  · have adds : op.toString = "+" ∨ op.toString = "-" := by
      have text := operator_text known
      simp only [List.mem_cons, List.not_mem_nil, or_false] at text
      tauto
    rw [products_stop (by simpa [NotFirst] using multiplies), ok_bind]
    dsimp only
    rw [sums, if_pos adds, term, right, ok_bind]
    dsimp only
    rw [products_stop product, ok_bind, firstChar_toString]
    exact sums_stop sum

theorem numeral_toString {value : Int64} (sign : 0 ≤ value.toInt) :
    stoll (toString value) = .ok value := by
  have written : numeral (toString value) = value.toInt.toNat := by
    have digits := readDigits_toDigits value.toInt.toNat
    have all : ∀ c ∈ Nat.toDigits 10 value.toInt.toNat, c.isDigit = true := fun c listed =>
      isDigit_toDigits listed
    rw [readDigits, if_pos ⟨Nat.toDigits_ne_nil, List.all_eq_true.mpr all⟩,
      Option.some.injEq] at digits
    have whole := takeWhile_run all (show ∀ c ∈ ([] : List Char).head?, c.isDigit = false by simp)
    rw [List.append_nil] at whole
    rw [numeral, toString_digits sign, whole, digits]
  have upper := value.toInt_lt
  rw [stoll, written, if_pos (by omega)]
  congr 1
  refine Int64.toInt_inj.mp ?_
  rw [Int64.toInt_ofNat_of_lt (by omega)]
  omega

/-- A rendered value reads back as itself. -/
theorem factor_rendered {node : ExprNode} (parsed : Parsed node) (plain : CallFree node = true) :
    ∀ fuel rest, 3 * (rendered node).length ≤ fuel → rest.head? ≠ some "(" →
      factor (fuel + 1) (rendered node ++ rest) = .ok (node, rest) := by
  induction parsed with
  | @num value sign =>
      intro fuel rest _ _
      have spelled := toString_digits sign
      have digit : (firstChar (toString value)).isDigit = true := by
        unfold firstChar
        cases digits : (toString value).toList with
        | nil => exact absurd (spelled.symm.trans digits) Nat.toDigits_ne_nil
        | cons c run =>
            refine @isDigit_toDigits value.toInt.toNat _ ?_
            rw [← spelled, digits]
            exact List.mem_cons_self
      have closed : toString value ≠ "(" := by
        intro same
        rw [same] at digit
        simp [firstChar] at digit
      rw [rendered, List.singleton_append, factor, if_neg closed, if_pos digit,
        numeral_toString sign]
      rfl
  | @var name named =>
      intro fuel rest _ after
      have start : isNameStart (firstChar name) = true := by
        rw [isName, Bool.and_eq_true] at named
        exact named.1
      have closed : name ≠ "(" := by
        rintro rfl
        simp [firstChar, isNameStart] at start
      have digit : ¬(firstChar name).isDigit = true := by
        rw [not_digit_of_nameStart start]
        exact Bool.false_ne_true
      rw [rendered, List.singleton_append, factor, if_neg closed, if_neg digit, if_pos start,
        if_neg after]
  | @bin op lhs rhs known _ _ left right =>
      intro fuel rest enough _
      rw [CallFree, Bool.and_eq_true] at plain
      simp only [rendered, List.length_append, List.length_cons, List.length_nil] at enough
      obtain ⟨fuel, rfl⟩ : ∃ less, fuel = less + 4 := ⟨fuel - 4, by omega⟩
      have here := left plain.1 (fuel + 1) (op.toString :: (rendered rhs ++ ")" :: rest)) (by omega)
        (by
          rw [List.head?_cons, ne_eq, Option.some.injEq]
          intro same
          have text := operator_text known
          rw [same] at text
          exact absurd text (by decide))
      have there := right plain.2 fuel (")" :: rest) (by omega) (by simp)
      have inner := expr_operation known here there
      simp only [rendered, List.cons_append, List.append_assoc, List.nil_append]
      rw [factor, if_pos rfl, inner, ok_bind]
      rfl
  | call => cases plain

end Parser

theorem tokens_nil : tokensAfter 0 [] = .ok [] := rfl

/-- A rendered value parses as itself. -/
theorem parseExpr_emit {node : ExprNode} (parsed : Parsed node) (plain : CallFree node = true) :
    ∃ text, emit id node = .ok text ∧ parseExpr text = .ok node := by
  obtain ⟨text, emitted, spells⟩ := emit_spells parsed plain
  refine ⟨text, emitted, ?_⟩
  have tokenized : tokenize text = .ok (rendered node) := by
    have whole := spells [] (by simp)
    rw [List.append_nil, tokens_nil] at whole
    simpa [tokenize, Functor.map, Except.map] using whole
  have read := Parser.expr_factor (Parser.factor_rendered parsed plain
    (3 * (rendered node).length) [] le_rfl (by simp)) (by simp [Parser.NotFirst])
    (by simp [Parser.NotFirst])
  rw [List.append_nil] at read
  rw [parseExpr, tokenized]
  simp only [Except.mapError, ok_bind, Parser.parse, Parser.steps, read]
  rfl

/-- The tokens of a comparison between two texts. -/
theorem Spells.comparison {op : String} {left right : List Char} {tokens tokens' : List String}
    (known : isCmpOp op = true) (lhs : Spells left tokens) (rhs : Spells right tokens') :
    Spells (left ++ ' ' :: (op.toList ++ ' ' :: right)) (tokens ++ op :: tokens') := by
  intro rest ends
  have operator (later : List Char) : tokensAfter 0 (op.toList ++ ' ' :: later) =
      (op :: ·) <$> tokensAfter 0 later := by
    simp only [isCmpOp, Bool.or_eq_true, decide_eq_true_eq, or_assoc] at known
    rcases known with rfl | rfl | rfl | rfl | rfl | rfl <;>
      simp [tokensAfter, isSpace, isNameStart, isPunctuation]
  have split : left ++ ' ' :: (op.toList ++ ' ' :: right) ++ rest =
      left ++ ' ' :: (op.toList ++ ' ' :: (right ++ rest)) := by simp
  rw [split, lhs _ (by simp [isNameChar]), tokens_space, operator, rhs _ ends]
  simp only [Functor.map_map]
  congr 1
  funext later
  simp

/-- A rendered comparison parses as itself. -/
theorem parseGuard_guardToSolidity {op : String} {lhs rhs : ExprNode} (known : isCmpOp op = true)
    (left : Parsed lhs) (right : Parsed rhs) (plain : CallFree lhs = true)
    (plain' : CallFree rhs = true) :
    ∃ text, guardToSolidity (.cmp op lhs rhs .extension) id = .ok text ∧
      parseGuard text = .ok (.cmp op lhs rhs .extension) := by
  obtain ⟨text, emitted, spells⟩ := emit_spells left plain
  obtain ⟨text', emitted', spells'⟩ := emit_spells right plain'
  refine ⟨text ++ " " ++ op ++ " " ++ text', ?_, ?_⟩
  · rw [guardToSolidity, emitted, emitted']
    rfl
  · have tokenized : tokenize (text ++ " " ++ op ++ " " ++ text') =
        .ok (rendered lhs ++ op :: rendered rhs) := by
      have whole := Spells.comparison known spells spells' [] (by simp)
      rw [List.append_nil, tokens_nil] at whole
      simpa [tokenize, Functor.map, Except.map] using whole
    have apart (excluded : List String) (among : excluded ⊆ ["+", "-", "*", "/", "("]) :
        op ∉ excluded := by
      intro listed
      have symbol := among listed
      simp only [isCmpOp, Bool.or_eq_true, decide_eq_true_eq, or_assoc] at known
      rcases known with rfl | rfl | rfl | rfl | rfl | rfl <;> simp at symbol
    have opened : op ≠ "(" := by simpa using apart ["("] (by simp)
    have size : Parser.steps (rendered lhs ++ op :: rendered rhs) =
        3 * ((rendered lhs).length + (rendered rhs).length + 1) + 3 := by
      simp [Parser.steps, Nat.add_assoc]
    have first := Parser.expr_factor
      (Parser.factor_rendered left plain (3 * ((rendered lhs).length + (rendered rhs).length + 1))
        (op :: rendered rhs) (by omega) (by simpa using opened))
      (by simpa [Parser.NotFirst] using apart ["*", "/"] (by simp))
      (by simpa [Parser.NotFirst] using apart ["+", "-"] (by simp))
    have second := Parser.expr_factor
      (Parser.factor_rendered right plain' (3 * ((rendered lhs).length + (rendered rhs).length + 1))
        [] (by omega) (by simp)) (by simp [Parser.NotFirst]) (by simp [Parser.NotFirst])
    rw [List.append_nil] at second
    rw [parseGuard, tokenized]
    simp only [Except.mapError, ok_bind, Parser.parseGuardTop, size, first, second, known, if_true]
    rfl

/-- Reparsing a rendered expression gives one of the same structure, with the same value or
refusal everywhere. -/
def Reparses (text : String) (node : ExprNode) : Prop :=
  ∃ again, parseExpr text = .ok again ∧ structureOf again = structureOf node ∧
    ∀ env, evalExpr again env = evalExpr node env

/-- Lowering a source expression or comparison without calls, in place of names themselves,
keeps its structure. -/
theorem lowering_reparses :
    (∀ source node, parseExpr source = .ok node → CallFree node = true →
      (∃ text, toSql node id = .ok text ∧ Reparses text node) ∧
      (∃ text, toSolidity node id = .ok text ∧ Reparses text node)) ∧
    (∀ source op lhs rhs dtype, parseGuard source = .ok (.cmp op lhs rhs dtype) →
      CallFree (.cmp op lhs rhs dtype) = true →
      ∃ text, guardToSolidity (.cmp op lhs rhs dtype) id = .ok text ∧
        ∃ again, parseGuard text = .ok again ∧
          structureOf again = structureOf (.cmp op lhs rhs dtype)) := by
  constructor
  · intro source node read plain
    obtain ⟨_, _, parsed, _⟩ := parseExpr_reads read
    obtain ⟨text, emitted, again⟩ := parseExpr_emit parsed plain
    exact ⟨⟨text, emitted, node, again, rfl, fun _ => rfl⟩,
      ⟨text, emitted, node, again, rfl, fun _ => rfl⟩⟩
  · intro source op lhs rhs dtype read plain
    obtain ⟨_, _, parsed, _⟩ := parseGuard_reads read
    rw [CallFree, Bool.and_eq_true] at plain
    cases parsed with
    | value value => cases value
    | cmp known left right =>
        obtain ⟨text, emitted, again⟩ :=
          parseGuard_guardToSolidity known left right plain.1 plain.2
        exact ⟨text, emitted, _, again, rfl⟩

theorem sum_reparses :
    (∃ text, toSql (.bin '+' (.var "a" .extension) (.var "b" .extension) .extension) id = .ok text ∧
      Reparses text (.bin '+' (.var "a" .extension) (.var "b" .extension) .extension)) ∧
    ∃ text, guardToSolidity (.cmp ">=" (.bin '+' (.var "a" .extension) (.var "b" .extension)
        .extension) (.num 10 .extension) .extension) id = .ok text ∧
      ∃ again, parseGuard text = .ok again ∧ structureOf again = structureOf (.cmp ">="
        (.bin '+' (.var "a" .extension) (.var "b" .extension) .extension) (.num 10 .extension)
        .extension) :=
  ⟨(lowering_reparses.1 "a + b" _ parse_sum rfl).1,
    lowering_reparses.2 "a + b >= 10" _ _ _ _ parse_comparison rfl⟩

end Neutrino
