import Neutrino.ExprAttrText

/-! A lexer for the tokens of expression attributes, with the laws that their parser relies on. -/

namespace Neutrino

namespace ExprAttrText

def isBlank (c : Char) : Bool := c = ' ' || c = '\t' || c = '\n' || c = '\r'

def skip (text : List Char) : List Char := text.dropWhile isBlank

def readMark (c : Char) (text : List Char) : Option (List Char) :=
  match skip text with
  | first :: rest => if first = c then some rest else none
  | [] => none

/-- A character that stands for itself between quotes. -/
def isPlain (c : Char) : Bool := c ≠ '"' && c ≠ '\\' && c ≠ '\n' && c ≠ '\x0b' && c ≠ '\x0c'

def hexValue (c : Char) : Nat :=
  if c.isDigit then c.toNat - 48 else if 'a' ≤ c then c.toNat - 87 else c.toNat - 55

/-- What stands before the closing quote, and what follows it. -/
def readLiteral : List Char → Option (List Char × List Char)
  | [] => none
  | '"' :: rest => some ([], rest)
  | '\\' :: '"' :: rest => (readLiteral rest).map fun read => ('"' :: read.1, read.2)
  | '\\' :: '\\' :: rest => (readLiteral rest).map fun read => ('\\' :: read.1, read.2)
  | '\\' :: 'n' :: rest => (readLiteral rest).map fun read => ('\n' :: read.1, read.2)
  | '\\' :: 't' :: rest => (readLiteral rest).map fun read => ('\t' :: read.1, read.2)
  | '\\' :: high :: low :: rest =>
      if isHexDigit high ∧ isHexDigit low then
        (readLiteral rest).map fun read =>
          (Char.ofNat (16 * hexValue high + hexValue low) :: read.1, read.2)
      else none
  | c :: rest =>
      if isPlain c then (readLiteral rest).map fun read => (c :: read.1, read.2) else none

def readText (text : List Char) : Option (String × List Char) :=
  match skip text with
  | '"' :: rest => (readLiteral rest).map fun read => (String.ofList read.1, read.2)
  | _ => none

def isWordChar (c : Char) : Bool := c.isAlphanum || c = '_' || c = '$' || c = '.'

def readWord (text : List Char) : Option (String × List Char) :=
  match skip text with
  | [] => none
  | c :: rest =>
      if c.isAlpha || c = '_' then
        some (String.ofList ((c :: rest).takeWhile isWordChar), (c :: rest).dropWhile isWordChar)
      else readText (c :: rest)

def isIntegerChar (c : Char) : Bool := c.isDigit || c = '-'

def readInt64 (text : List Char) : Option (Int64 × List Char) := do
  let text := skip text
  let value ← readInteger (text.takeWhile isIntegerChar)
  if -(2 ^ 63) ≤ value ∧ value < 2 ^ 63 then
    some (Int64.ofInt value, text.dropWhile isIntegerChar)
  else none

def readHash (text : List Char) : Option (List Char) :=
  if attributeName.isPrefixOf (skip text) then
    match (skip text).drop attributeName.length with
    | [] => none
    | c :: rest => if isWordChar c then none else some (c :: rest)
  else none

theorem skip_blank (text : List Char) : skip (' ' :: text) = skip text := rfl

theorem skip_here {c : Char} (visible : isBlank c = false) (text : List Char) :
    skip (c :: text) = c :: text := by
  simp [skip, visible]

theorem readText_quote (text : List Char) : readText ('"' :: text) =
    (readLiteral text).map fun read => (String.ofList read.1, read.2) :=
  rfl

theorem readLiteral_spells {text value rest : List Char}
    (read : readLiteral text = some (value, rest)) :
    ∃ raw, text = raw ++ '"' :: rest ∧ Spells isPlain raw value := by
  induction text using readLiteral.induct generalizing value with
  | case1 => simp [readLiteral] at read
  | case2 tail =>
      obtain ⟨rfl, rfl⟩ : [] = value ∧ tail = rest := by simpa [readLiteral] using read
      exact ⟨[], rfl, .done⟩
  | case3 tail ih =>
      simp only [readLiteral, Option.map_eq_some_iff, Prod.mk.injEq] at read
      obtain ⟨⟨inner, after⟩, here, rfl, rfl⟩ := read
      obtain ⟨raw, rfl, spells⟩ := ih here
      exact ⟨'\\' :: '"' :: raw, rfl, .escape (by decide) spells⟩
  | case4 tail ih =>
      simp only [readLiteral, Option.map_eq_some_iff, Prod.mk.injEq] at read
      obtain ⟨⟨inner, after⟩, here, rfl, rfl⟩ := read
      obtain ⟨raw, rfl, spells⟩ := ih here
      exact ⟨'\\' :: '\\' :: raw, rfl, .escape (by decide) spells⟩
  | case5 tail ih =>
      simp only [readLiteral, Option.map_eq_some_iff, Prod.mk.injEq] at read
      obtain ⟨⟨inner, after⟩, here, rfl, rfl⟩ := read
      obtain ⟨raw, rfl, spells⟩ := ih here
      exact ⟨'\\' :: 'n' :: raw, rfl, .escape (by decide) spells⟩
  | case6 tail ih =>
      simp only [readLiteral, Option.map_eq_some_iff, Prod.mk.injEq] at read
      obtain ⟨⟨inner, after⟩, here, rfl, rfl⟩ := read
      obtain ⟨raw, rfl, spells⟩ := ih here
      exact ⟨'\\' :: 't' :: raw, rfl, .escape (by decide) spells⟩
  | case7 high low tail _ _ _ _ digits ih =>
      rw [readLiteral, if_pos digits] at read
      · simp only [Option.map_eq_some_iff, Prod.mk.injEq] at read
        obtain ⟨⟨inner, after⟩, here, rfl, rfl⟩ := read
        obtain ⟨raw, rfl, spells⟩ := ih here
        exact ⟨'\\' :: high :: low :: raw, rfl, .hex digits spells⟩
      all_goals assumption
  | case8 high low tail _ _ _ _ digits =>
      rw [readLiteral, if_neg digits] at read
      · contradiction
      all_goals assumption
  | case9 c tail _ _ _ _ _ _ plain ih =>
      rw [readLiteral, if_pos plain] at read
      · simp only [Option.map_eq_some_iff, Prod.mk.injEq] at read
        obtain ⟨⟨inner, after⟩, here, rfl, rfl⟩ := read
        obtain ⟨raw, rfl, spells⟩ := ih here
        exact ⟨c :: raw, rfl, .char plain spells⟩
      all_goals assumption
  | case10 c tail _ _ _ _ _ _ plain =>
      rw [readLiteral, if_neg plain] at read
      · contradiction
      all_goals assumption

theorem readLiteral_plain (value rest : List Char) (plain : value.all isPlain = true) :
    readLiteral (value ++ '"' :: rest) = some (value, rest) := by
  induction value with
  | nil => rfl
  | cons c value ih =>
      simp only [List.all_cons, Bool.and_eq_true] at plain
      have stands := plain.1
      simp only [isPlain, Bool.and_eq_true, decide_eq_true_eq, ne_eq] at stands
      rw [List.cons_append, readLiteral.eq_def]
      split <;> simp_all

theorem readWord_letters (w : String) (filled : w ≠ "") (letters : w.toList.all Char.isLower = true)
    (rest : List Char) : readWord (w.toList ++ ' ' :: rest) = some (w, ' ' :: rest) := by
  cases chars : w.toList with
  | nil => exact absurd (String.toList_eq_nil_iff.mp chars) filled
  | cons c more =>
      have lower := List.all_eq_true.mp (chars ▸ letters)
      have first := lower c List.mem_cons_self
      have visible : isBlank c = false := by
        simp only [isBlank, Bool.or_eq_false_iff, decide_eq_false_iff_not]
        refine ⟨⟨⟨?_, ?_⟩, ?_⟩, ?_⟩ <;> rintro rfl <;> simp at first
      have words : ∀ d ∈ c :: more, isWordChar d = true := by
        intro d listed
        simp [isWordChar, Char.isAlphanum, Char.isAlpha, lower d listed]
      have alpha : (c.isAlpha || c = '_') = true := by simp [Char.isAlpha, first]
      have stop : isWordChar ' ' = false := by decide
      rw [List.cons_append, readWord, skip_here visible]
      simp only [alpha, if_true, ← List.cons_append]
      rw [List.takeWhile_append_of_pos words, List.dropWhile_append_of_pos words,
        List.takeWhile_cons_of_neg (by simp [stop]), List.dropWhile_cons_of_neg (by simp [stop]),
        List.append_nil, ← chars, String.ofList_toList]

theorem integerChars (value : Int) : ∀ c ∈ (toString value).toList, isIntegerChar c = true := by
  intro c listed
  cases value with
  | ofNat value =>
      rw [toString_ofNat] at listed
      simp [isIntegerChar, isDigit_toDigits listed]
  | negSucc value =>
      rw [toString_negSucc] at listed
      rcases List.mem_cons.mp listed with rfl | digits
      · rfl
      · simp [isIntegerChar, isDigit_toDigits digits]

theorem readInt64_decimal (value : Int64) (rest : List Char) :
    readInt64 ((toString value).toList ++ ' ' :: rest) = some (value, ' ' :: rest) := by
  have spelled : (toString value).toList = (toString value.toInt).toList := rfl
  have chars := integerChars value.toInt
  have stop : isIntegerChar ' ' = false := by decide
  have start : skip ((toString value.toInt).toList ++ ' ' :: rest) =
      (toString value.toInt).toList ++ ' ' :: rest := by
    cases digits : (toString value.toInt).toList with
    | nil =>
        have read := readInteger_toString value.toInt
        rw [digits] at read
        simp [readInteger, readDigits] at read
    | cons c more =>
        have first := chars c (by rw [digits]; exact List.mem_cons_self)
        have visible : isBlank c = false := by
          simp only [isBlank, Bool.or_eq_false_iff, decide_eq_false_iff_not]
          refine ⟨⟨⟨?_, ?_⟩, ?_⟩, ?_⟩ <;> rintro rfl <;> exact absurd first (by decide)
        exact skip_here visible _
  have range : -(2 ^ 63) ≤ value.toInt ∧ value.toInt < 2 ^ 63 :=
    ⟨value.le_toInt, value.toInt_lt⟩
  rw [spelled, readInt64, start]
  simp only [List.takeWhile_append_of_pos chars, List.dropWhile_append_of_pos chars,
    List.takeWhile_cons_of_neg (show ¬isIntegerChar ' ' = true by simp [stop]),
    List.dropWhile_cons_of_neg (show ¬isIntegerChar ' ' = true by simp [stop]), List.append_nil,
    readInteger_toString, Option.bind_eq_bind, Option.bind_some, if_pos range, Int64.ofInt_toInt]

theorem readMark_here {c : Char} (visible : isBlank c = false) (text : List Char) :
    readMark c (c :: text) = some text := by
  simp [readMark, skip_here visible]

theorem readMark_other {c d : Char} (visible : isBlank d = false) (other : d ≠ c)
    (text : List Char) : readMark c (d :: text) = none := by
  simp [readMark, skip_here visible, other]

theorem marks_visible {c : Char} (listed : c ∈ '#' :: marks) : isBlank c = false := by
  simp only [marks, List.mem_cons, List.not_mem_nil, or_false] at listed
  rcases listed with rfl | rfl | rfl | rfl | rfl | rfl <;> decide

/-- The tokens as MLIR's lexer reads them. -/
def mlirLexing : Lexing where
  plain := isPlain
  mark := readMark
  word := readWord
  integer := readInt64
  string := readText
  hash := readHash
  quoted_plain := by decide
  escaped_plain := by decide
  printable c low high quote escape := by
    simp only [isPlain, Bool.and_eq_true, decide_eq_true_eq, ne_eq]
    refine ⟨⟨⟨⟨quote, escape⟩, ?_⟩, ?_⟩, ?_⟩ <;> rintro rfl <;> exact absurd low (by decide)
  mark_blank _ _ := rfl
  mark_here c listed text := readMark_here (marks_visible (.tail _ listed)) text
  mark_other c _ d other apart text := readMark_other (marks_visible other) apart text
  word_blank _ := rfl
  word_letters := readWord_letters
  integer_blank _ := rfl
  integer_decimal := readInt64_decimal
  string_blank _ := rfl
  string_plain value plain text := by
    rw [readText_quote, readLiteral_plain _ _ plain]
    simp
  string_spelled text value rest read := by
    rw [readText_quote, Option.map_eq_some_iff] at read
    obtain ⟨⟨inner, after⟩, here, same⟩ := read
    obtain ⟨rfl, rfl⟩ := Prod.mk.inj same
    rw [String.toList_ofList]
    exact readLiteral_spells here
  hash_blank _ := rfl
  hash_here text := by
    have start : skip (attributeName ++ '<' :: text) = attributeName ++ '<' :: text := rfl
    rw [readHash, start, if_pos (by simp), List.drop_left]
    rfl

end ExprAttrText

end Neutrino
