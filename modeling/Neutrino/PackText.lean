import Mathlib
import Neutrino.ExecutionClaim
import Neutrino.JsonSame

/-! Python strings as they come out of a JSON text, lone surrogates among them, and the canonical
text and bytes of a parsed document. -/

namespace Neutrino

namespace DomainPack

/-- A code point of a Python string: any but none beyond U+10FFFF, the surrogates included. -/
abbrev CodePoint := Fin 0x110000

abbrev Text := List CodePoint

def ofChar (c : Char) : CodePoint := ⟨c.toNat, by
  have valid := c.valid
  simp only [UInt32.isValidChar, Nat.isValidChar] at valid
  have same : c.toNat = c.val.toNat := rfl
  omega⟩

/-- A text of the source. -/
def text (literal : String) : Text := literal.toList.map ofChar

theorem ofChar_injective : Function.Injective ofChar := by
  intro c d same
  exact Char.toNat_inj.mp (Fin.mk.inj same)

theorem text_injective : Function.Injective text := by
  intro first second same
  exact String.toList_inj.mp (List.map_injective_iff.mpr ofChar_injective same)

/-! UTF-8. -/

def isSurrogate (c : CodePoint) : Bool := 0xd800 ≤ c.val && c.val < 0xe000

/-- No lone surrogate: what `encode("utf-8")` accepts. -/
def Encodable (chars : Text) : Prop := ∀ c ∈ chars, isSurrogate c = false

instance (chars : Text) : Decidable (Encodable chars) :=
  List.decidableBAll (fun c => isSurrogate c = false) chars

def utf8Bytes (chars : Text) : List UInt8 :=
  chars.flatMap fun c => String.utf8EncodeChar (Char.ofNat c.val)

theorem utf8Bytes_injective {first second : Text} (encodable : Encodable first)
    (encodable' : Encodable second) (same : utf8Bytes first = utf8Bytes second) :
    first = second := by
  have valid : ∀ c : CodePoint, isSurrogate c = false → c.val.isValidChar := by
    intro c apart
    have below := c.isLt
    simp only [isSurrogate, Bool.and_eq_false_iff, decide_eq_false_iff_not] at apart
    simp only [Nat.isValidChar]
    omega
  have chars : ∀ read : Text, utf8Bytes read =
      utf8 (String.ofList (read.map fun c => Char.ofNat c.val)) := by
    intro read
    rw [utf8_ofList, utf8Bytes, List.flatMap_map]
  rw [chars, chars] at same
  have texts := String.ofList_inj.mp (utf8_injective same)
  have codes : ∀ {read : Text}, Encodable read →
      (read.map fun c => Char.ofNat c.val).map Char.toNat = read.map Fin.val := by
    intro read free
    rw [List.map_map]
    refine List.map_congr_left fun c listed => ?_
    rw [Function.comp_apply, Char.toNat_ofNat, if_pos (valid c (free c listed))]
  refine List.map_injective_iff.mpr Fin.val_injective ?_
  rw [← codes encodable, ← codes encodable', texts]

/-! Documents. -/

inductive Scalar
  | null
  | bool (value : Bool)
  | int (value : Int)
  | float (value : Rat)
  | nan
  | infinity (negative : Bool)
  deriving DecidableEq

/-- A parsed document. The items of a dict stand in the order of their keys, in which the
canonical text has them. -/
inductive Value
  | scalar (value : Scalar)
  | str (value : Text)
  | list (elements : List Value)
  | dict (items : List (Text × Value))

abbrev Dict := List (Text × Value)

def hexDigit (digit : Nat) : CodePoint := ofChar (Nat.digitChar digit)

/-- How a code point stands inside quotes: as itself but for the quote, the backslash and the
control characters. -/
def escaped (c : CodePoint) : Text :=
  if c = ofChar '"' then text "\\\""
  else if c = ofChar '\\' then text "\\\\"
  else if c = ofChar '\x08' then text "\\b"
  else if c = ofChar '\x0c' then text "\\f"
  else if c = ofChar '\n' then text "\\n"
  else if c = ofChar '\r' then text "\\r"
  else if c = ofChar '\t' then text "\\t"
  else if c.val < 32 then text "\\u00" ++ [hexDigit (c.val / 16), hexDigit (c.val % 16)]
  else [c]

def quoted (chars : Text) : Text := ofChar '"' :: (chars.flatMap escaped ++ [ofChar '"'])

section Dumps

-- `repr` of a finite float.
variable (floatText : Rat → Text)

def scalarText : Scalar → Text
  | .null => text "null"
  | .bool value => text (if value then "true" else "false")
  | .int value => text (toString value)
  | .float value => floatText value
  | .nan => text "NaN"
  | .infinity negative => text (if negative then "-Infinity" else "Infinity")

mutual

/-- `json.dumps` with sorted keys, no blanks and no escapes for what is not ASCII. -/
def dumps : Value → Text
  | .scalar value => scalarText floatText value
  | .str value => quoted value
  | .list [] => text "[]"
  | .list (first :: rest) => ofChar '[' :: (dumps first ++ dumpsElements rest)
  | .dict [] => text "\x7b\x7d"
  | .dict ((key, value) :: rest) =>
      ofChar '\x7b' :: (quoted key ++ ofChar ':' :: (dumps value ++ dumpsItems rest))

def dumpsElements : List Value → Text
  | [] => text "]"
  | element :: rest => ofChar ',' :: (dumps element ++ dumpsElements rest)

def dumpsItems : List (Text × Value) → Text
  | [] => text "\x7d"
  | (key, value) :: rest =>
      ofChar ',' :: (quoted key ++ ofChar ':' :: (dumps value ++ dumpsItems rest))

end

/-- The texts of floats tell them apart, and are written in digits with a point or an exponent. -/
structure FloatTexts : Prop where
  injective : Function.Injective floatText
  numeric : ∀ value, ∀ c ∈ floatText value, c ∈ text "0123456789.e+-"
  marked : ∀ value, ofChar '.' ∈ floatText value ∨ ofChar 'e' ∈ floatText value

end Dumps

/-! What the text of a document tells. -/

def isSpecial (c : CodePoint) : Bool := c = ofChar '"' || c = ofChar '\\' || c.val < 32

theorem escaped_plain {c : CodePoint} (plain : isSpecial c = false) : escaped c = [c] := by
  simp only [isSpecial, Bool.or_eq_false_iff, decide_eq_false_iff_not] at plain
  obtain ⟨⟨quote, slash⟩, control⟩ := plain
  have apart : ∀ d : Char, d.toNat < 32 → c ≠ ofChar d := by
    rintro d small rfl
    exact control small
  rw [escaped, if_neg quote, if_neg slash, if_neg (apart _ (by decide)),
    if_neg (apart _ (by decide)), if_neg (apart _ (by decide)), if_neg (apart _ (by decide)),
    if_neg (apart _ (by decide)), if_neg control]

/-- The code points that are escaped, as a finite type. -/
def small (c : Fin 93) : CodePoint := ⟨c.val, by omega⟩

theorem escaped_special : ∀ c : Fin 93, isSpecial (small c) = true →
    (escaped (small c)).head? = some (ofChar '\\') ∧ 2 ≤ (escaped (small c)).length := by
  decide +kernel

/-- Two escapes that start alike are of one length, and one. -/
theorem escaped_pair : ∀ c d : Fin 93, isSpecial (small c) = true → isSpecial (small d) = true →
    ((escaped (small c)).take 2 = (escaped (small d)).take 2 →
      (escaped (small c)).length = (escaped (small d)).length) ∧
    (escaped (small c) = escaped (small d) → c = d) := by
  decide +kernel

theorem exists_small {c : CodePoint} (special : isSpecial c = true) :
    ∃ d : Fin 93, small d = c := by
  have bound : c.val < 93 := by
    simp only [isSpecial, Bool.or_eq_true, decide_eq_true_eq] at special
    rcases special with (rfl | rfl) | control
    · decide
    · decide
    · omega
  exact ⟨⟨c.val, bound⟩, rfl⟩

theorem escaped_reads {c d : CodePoint} {after after' : Text}
    (same : escaped c ++ after = escaped d ++ after') : c = d ∧ after = after' := by
  cases special : isSpecial c with
  | false =>
      rw [escaped_plain special, List.singleton_append] at same
      cases special' : isSpecial d with
      | false =>
          rw [escaped_plain special', List.singleton_append, List.cons.injEq] at same
          exact same
      | true =>
          obtain ⟨d, rfl⟩ := exists_small special'
          obtain ⟨head, _⟩ := escaped_special d special'
          have heads := congrArg List.head? same
          rw [List.head?_append, head, List.head?_cons, Option.some_or, Option.some.injEq] at heads
          simp [heads, isSpecial] at special
  | true =>
      obtain ⟨c, rfl⟩ := exists_small special
      obtain ⟨head, long⟩ := escaped_special c special
      cases special' : isSpecial d with
      | false =>
          rw [escaped_plain special', List.singleton_append] at same
          have heads := congrArg List.head? same
          rw [List.head?_append, head, List.head?_cons, Option.some_or, Option.some.injEq] at heads
          simp [← heads, isSpecial] at special'
      | true =>
          obtain ⟨d, rfl⟩ := exists_small special'
          obtain ⟨_, long'⟩ := escaped_special d special'
          obtain ⟨lengths, codes⟩ := escaped_pair c d special special'
          have starts := congrArg (List.take 2) same
          rw [List.take_append_of_le_length long, List.take_append_of_le_length long'] at starts
          obtain ⟨here, later⟩ := List.append_inj same (lengths starts)
          exact ⟨by rw [codes here], later⟩

theorem escaped_head (c : CodePoint) : ∃ first rest, escaped c = first :: rest ∧
    first ≠ ofChar '"' := by
  cases special : isSpecial c with
  | false =>
      refine ⟨c, [], escaped_plain special, ?_⟩
      rintro rfl
      cases special
  | true =>
      obtain ⟨c, rfl⟩ := exists_small special
      obtain ⟨head, _⟩ := escaped_special c special
      obtain ⟨rest, starts⟩ := List.head?_eq_some_iff.mp head
      exact ⟨_, rest, starts, fun same => absurd (ofChar_injective same) (by decide)⟩

theorem quoted_reads {first second after after' : Text}
    (same : quoted first ++ after = quoted second ++ after') : first = second ∧ after = after' := by
  simp only [quoted, List.cons_append, List.cons.injEq, true_and, List.append_assoc,
    List.nil_append] at same
  induction first generalizing second with
  | nil =>
      cases second with
      | nil => exact ⟨rfl, by simpa using same⟩
      | cons d others =>
          obtain ⟨head, rest, starts, apart⟩ := escaped_head d
          simp only [List.flatMap_nil, List.nil_append, List.flatMap_cons, starts,
            List.cons_append, List.cons.injEq] at same
          exact absurd same.1.symm apart
  | cons c rest ih =>
      cases second with
      | nil =>
          obtain ⟨head, rest, starts, apart⟩ := escaped_head c
          simp only [List.flatMap_nil, List.nil_append, List.flatMap_cons, starts,
            List.cons_append, List.cons.injEq] at same
          exact absurd same.1 apart
      | cons d others =>
          simp only [List.flatMap_cons, List.append_assoc] at same
          obtain ⟨rfl, later⟩ := escaped_reads same
          obtain ⟨rfl, ends⟩ := ih later
          exact ⟨rfl, ends⟩

/-- What may follow a value inside a document. -/
def Delimited (rest : Text) : Prop := ∀ c ∈ rest.head?, c ∈ text ",]\x7d"

/-- Code points of scalars: none of them delimits, opens a list or a dict, or quotes. -/
def IsToken (chars : Text) : Prop :=
  chars ≠ [] ∧ ∀ c ∈ chars, c ∉ text ",]\x7d" ∧ c ∉ text "[\x7b\""

theorem token_reads {first second after after' : Text} (token : IsToken first)
    (token' : IsToken second) (ends : Delimited after) (ends' : Delimited after')
    (same : first ++ after = second ++ after') : first = second ∧ after = after' := by
  have free := token.2
  have free' := token'.2
  clear token token'
  induction first generalizing second with
  | nil =>
      cases second with
      | nil => exact ⟨rfl, same⟩
      | cons c others =>
          have stops := ends c (by rw [List.nil_append] at same; simp [same])
          exact absurd stops (free' c List.mem_cons_self).1
  | cons c rest ih =>
      cases second with
      | nil =>
          have stops := ends' c (by rw [List.nil_append] at same; simp [← same])
          exact absurd stops (free c List.mem_cons_self).1
      | cons d others =>
          simp only [List.cons_append, List.cons.injEq] at same
          obtain ⟨rfl, later⟩ := same
          obtain ⟨rfl, rests⟩ := ih later (fun d listed => free d (List.mem_cons_of_mem _ listed))
            (fun d listed => free' d (List.mem_cons_of_mem _ listed))
          exact ⟨rfl, rests⟩

theorem mem_text {c : Char} {literal : String} : ofChar c ∈ text literal ↔ c ∈ literal.toList :=
  List.mem_map_of_injective ofChar_injective

theorem forall_mem_text {literal : String} {holds : CodePoint → Prop} :
    (∀ c ∈ text literal, holds c) ↔ ∀ c ∈ literal.toList, holds (ofChar c) := List.forall_mem_map

/-- A text whose characters neither delimit, open nor quote. -/
theorem token_text {literal : String} (filled : literal.toList ≠ [])
    (plain : ∀ c ∈ literal.toList, c ∉ ",]\x7d".toList ∧ c ∉ "[\x7b\"".toList) :
    IsToken (text literal) := by
  refine ⟨by simpa [text] using filled, forall_mem_text.mpr fun c listed => ?_⟩
  rw [mem_text, mem_text]
  exact plain c listed

/-- The code points of numbers. -/
def numeric : Text := text "0123456789.e+-"

theorem numeric_plain : ∀ c ∈ numeric, c ∉ text ",]\x7d" ∧ c ∉ text "[\x7b\"" := by
  simp [numeric, forall_mem_text, mem_text]

theorem int_numeric (value : Int) : ∀ c ∈ text (toString value),
    c ∈ numeric ∧ c ≠ ofChar '.' ∧ c ≠ ofChar 'e' := by
  have digits : ∀ c : Char, isNumeral c = true →
      c ∈ "0123456789.e+-".toList ∧ c ≠ '.' ∧ c ≠ 'e' := by
    intro c numeral
    have coded : c = Char.ofNat c.toNat := (Char.ofNat_toNat c).symm
    have range : c.toNat < 58 := by
      simp only [isNumeral, Char.isDigit, Bool.or_eq_true, Bool.and_eq_true, decide_eq_true_eq]
        at numeral
      rcases numeral with ⟨_, upper⟩ | rfl
      · have := UInt32.le_iff_toNat_le.mp upper
        simpa [Nat.lt_succ_iff] using this
      · decide
    have table : ∀ code < 58, isNumeral (Char.ofNat code) = true →
        Char.ofNat code ∈ "0123456789.e+-".toList ∧ Char.ofNat code ≠ '.' ∧
          Char.ofNat code ≠ 'e' := by
      simp only [String.toList]
      decide
    have here := table c.toNat range
    rw [← coded] at here
    exact here numeral
  rw [forall_mem_text]
  intro c listed
  obtain ⟨listed', point, exponent⟩ := digits c (int_toString_numeral value c listed)
  exact ⟨mem_text.mpr listed', ofChar_injective.ne point, ofChar_injective.ne exponent⟩

/-- How a scalar that is no number is written. -/
def word : Scalar → Option String
  | .null => some "null"
  | .bool value => some (if value then "true" else "false")
  | .nan => some "NaN"
  | .infinity negative => some (if negative then "-Infinity" else "Infinity")
  | _ => none

/-- The scalars that are no numbers. -/
def worded : List Scalar :=
  [.null, .bool true, .bool false, .nan, .infinity true, .infinity false]

theorem mem_worded {value : Scalar} {literal : String} (written : word value = some literal) :
    value ∈ worded := by
  cases value with
  | bool value => cases value <;> simp [worded]
  | infinity negative => cases negative <;> simp [worded]
  | _ => simp_all [word, worded]

theorem word_plain {value : Scalar} {literal : String} (written : word value = some literal) :
    IsToken (text literal) ∧ ∃ c ∈ text literal, c ∉ numeric := by
  have known : ∀ value ∈ worded, ∀ literal ∈ word value, literal.toList ≠ [] ∧
      (∀ c ∈ literal.toList, c ∉ ",]\x7d".toList ∧ c ∉ "[\x7b\"".toList) ∧
      ∃ c ∈ literal.toList, c ∉ "0123456789.e+-".toList := by simp [worded, word]
  obtain ⟨filled, plain, c, listed, apart⟩ := known value (mem_worded written) literal written
  exact ⟨token_text filled plain, ofChar c, mem_text.mpr listed, mt mem_text.mp apart⟩

theorem word_injective {first second : Scalar} {literal : String}
    (written : word first = some literal) (written' : word second = some literal) :
    first = second := by
  have known : ∀ first ∈ worded, ∀ second ∈ worded, word first = word second →
      first = second := by decide
  exact known first (mem_worded written) second (mem_worded written')
    (written.trans written'.symm)

section Dumps

variable {floatText : Rat → Text}

theorem scalarText_word {value : Scalar} {literal : String} (written : word value = some literal) :
    scalarText floatText value = text literal := by
  cases value <;> simp_all [word, scalarText]

/-- A number, or a word. -/
theorem scalar_cases (value : Scalar) : (∃ int, value = .int int) ∨
    (∃ float, value = .float float) ∨ ∃ literal, word value = some literal := by
  cases value <;> simp [word]

variable (floats : FloatTexts floatText)
include floats

theorem scalarText_token (value : Scalar) : IsToken (scalarText floatText value) := by
  rcases scalar_cases value with ⟨int, rfl⟩ | ⟨float, rfl⟩ | ⟨literal, written⟩
  · refine ⟨?_, fun c listed => numeric_plain c (int_numeric int c listed).1⟩
    have digits := (readInteger_toString int)
    intro empty
    rw [scalarText, text, List.map_eq_nil_iff] at empty
    rw [empty] at digits
    cases digits
  · refine ⟨fun empty => ?_, fun c listed => numeric_plain c (floats.numeric float c listed)⟩
    rw [scalarText] at empty
    rcases floats.marked float with marked | marked <;> simp [empty] at marked
  · rw [scalarText_word written]
    exact (word_plain written).1

theorem scalarText_injective : Function.Injective (scalarText floatText) := by
  have wordless : ∀ {value other : Scalar} {literal : String},
      (∀ c ∈ scalarText floatText value, c ∈ numeric) → word other = some literal →
      scalarText floatText value ≠ scalarText floatText other := by
    intro value other literal digits written same
    obtain ⟨c, listed, apart⟩ := (word_plain written).2
    rw [← (scalarText_word written : scalarText floatText other = _), ← same] at listed
    exact apart (digits c listed)
  have mixed : ∀ (int : Int) (float : Rat),
      scalarText floatText (.int int) ≠ scalarText floatText (.float float) := by
    intro int float same
    rcases floats.marked float with marked | marked
    · exact (int_numeric int _ (by rw [← scalarText, same]; exact marked)).2.1 rfl
    · exact (int_numeric int _ (by rw [← scalarText, same]; exact marked)).2.2 rfl
  have int_digits := fun int c listed => (int_numeric int c listed).1
  intro first second same
  rcases scalar_cases first with ⟨int, rfl⟩ | ⟨float, rfl⟩ | ⟨literal, written⟩ <;>
    rcases scalar_cases second with ⟨int', rfl⟩ | ⟨float', rfl⟩ | ⟨literal', written'⟩
  · rw [toString_inj (text_injective same)]
  · exact absurd same (mixed int float')
  · exact absurd same (wordless (int_digits int) written')
  · exact absurd same.symm (mixed int' float)
  · rw [floats.injective same]
  · exact absurd same (wordless (floats.numeric float) written')
  · exact absurd same.symm (wordless (int_digits int') written)
  · exact absurd same.symm (wordless (floats.numeric float') written)
  · rw [scalarText_word written, scalarText_word written'] at same
    rw [text_injective same] at written
    exact word_injective written written'

omit floats in
theorem dumpsElements_delimited (elements : List Value) (rest : Text) :
    Delimited (dumpsElements floatText elements ++ rest) := by
  cases elements <;> simp [dumpsElements, Delimited, text]

omit floats in
theorem dumpsItems_delimited (items : List (Text × Value)) (rest : Text) :
    Delimited (dumpsItems floatText items ++ rest) := by
  cases items with
  | nil => simp [dumpsItems, Delimited, text]
  | cons item others =>
      obtain ⟨key, value⟩ := item
      simp [dumpsItems, Delimited, text]

/-- What a value that is no scalar starts with. -/
def opening : Value → Option CodePoint
  | .scalar _ => none
  | .str _ => some (ofChar '"')
  | .list _ => some (ofChar '[')
  | .dict _ => some (ofChar '\x7b')

theorem dumps_head (value : Value) : ∃ first rest, dumps floatText value = first :: rest ∧
    first ∉ text ",]\x7d" ∧
    ((opening value = none ∧ first ∉ text "[\x7b\"") ∨ opening value = some first) := by
  have opens : ∀ c ∈ ['"', '[', '\x7b'], ofChar c ∉ text ",]\x7d" := by
    simp [mem_text]
  cases value with
  | scalar value =>
      obtain ⟨filled, plain⟩ := scalarText_token floats value
      obtain ⟨first, rest, starts⟩ := List.exists_cons_of_ne_nil filled
      have here := plain first (by rw [starts]; exact List.mem_cons_self)
      exact ⟨first, rest, by rw [dumps, starts], here.1, .inl ⟨rfl, here.2⟩⟩
  | str value => exact ⟨_, _, by rw [dumps, quoted], opens '"' (by simp), .inr rfl⟩
  | list elements =>
      cases elements with
      | nil => exact ⟨_, _, by rw [dumps]; rfl, opens '[' (by simp), .inr rfl⟩
      | cons => exact ⟨_, _, by rw [dumps], opens '[' (by simp), .inr rfl⟩
  | dict items =>
      cases items with
      | nil => exact ⟨_, _, by rw [dumps]; rfl, opens '\x7b' (by simp), .inr rfl⟩
      | cons item others =>
          obtain ⟨key, inner⟩ := item
          exact ⟨_, _, by rw [dumps], opens '\x7b' (by simp), .inr rfl⟩

/-- Texts that start alike are of values that open alike. -/
theorem opening_eq {first second : Value} {after after' : Text}
    (same : dumps floatText first ++ after = dumps floatText second ++ after') :
    opening first = opening second := by
  obtain ⟨c, _, starts, _, kind⟩ := dumps_head floats first
  obtain ⟨d, _, starts', _, kind'⟩ := dumps_head floats second
  rw [starts, starts', List.cons_append, List.cons_append, List.cons.injEq] at same
  obtain ⟨rfl, _⟩ := same
  have opener : ∀ {value : Value}, opening value = some c → c ∈ text "[\x7b\"" := by
    intro value opened
    cases value <;> simp only [opening, Option.some.injEq, reduceCtorEq] at opened <;>
      simp [← opened, mem_text]
  rcases kind with ⟨none, apart⟩ | opened <;> rcases kind' with ⟨none', apart'⟩ | opened'
  · rw [none, none']
  · exact absurd (opener opened') apart
  · exact absurd (opener opened) apart'
  · rw [opened, opened']

omit floats

mutual

/-- The text of a value tells the value and where it ends. -/
theorem dumps_reads (floats : FloatTexts floatText) : (first second : Value) →
    {after after' : Text} → Delimited after → Delimited after' → dumps floatText first ++ after = dumps floatText second ++ after' →
      first = second ∧ after = after'
  | .scalar a, second, after, after', ends, ends', same => by
      have opens := opening_eq floats same
      cases second with
      | scalar b =>
          simp only [dumps] at same
          obtain ⟨texts, rests⟩ := token_reads (scalarText_token floats a)
            (scalarText_token floats b) ends ends' same
          exact ⟨by rw [scalarText_injective floats texts], rests⟩
      | _ => simp [opening] at opens
  | .str a, second, after, after', ends, ends', same => by
      have opens := opening_eq floats same
      cases second with
      | str b =>
          simp only [dumps] at same
          obtain ⟨rfl, rests⟩ := quoted_reads same
          exact ⟨rfl, rests⟩
      | scalar => simp [opening] at opens
      | list => simp [opening, ofChar_injective.eq_iff] at opens
      | dict => simp [opening, ofChar_injective.eq_iff] at opens
  | .list elements, second, after, after', ends, ends', same => by
      have opens := opening_eq floats same
      cases second with
      | list others =>
          have closes : ∀ {value : Value} {rest rest' : Text},
              ofChar ']' :: rest ≠ dumps floatText value ++ rest' := by
            intro value rest rest' whole
            obtain ⟨first, _, starts, apart, _⟩ := dumps_head floats value
            rw [starts, List.cons_append, List.cons.injEq] at whole
            exact apart (by rw [← whole.1, mem_text]; simp)
          cases elements with
          | nil =>
              cases others with
              | nil => exact ⟨rfl, by simpa [dumps] using same⟩
              | cons other others =>
                  simp only [dumps, List.cons_append, List.append_assoc] at same
                  exact absurd (List.cons.inj same).2 closes
          | cons element rest =>
              cases others with
              | nil =>
                  simp only [dumps, List.cons_append, List.append_assoc] at same
                  exact absurd (List.cons.inj same).2.symm closes
              | cons other others =>
                  simp only [dumps, List.cons_append, List.append_assoc, List.cons.injEq,
                    true_and] at same
                  obtain ⟨rfl, later⟩ := dumps_reads floats element other
                    (dumpsElements_delimited rest after) (dumpsElements_delimited others after')
                    same
                  obtain ⟨rfl, rests⟩ := dumpsElements_reads floats rest others later
                  exact ⟨rfl, rests⟩
      | scalar => simp [opening] at opens
      | str => simp [opening, ofChar_injective.eq_iff] at opens
      | dict => simp [opening, ofChar_injective.eq_iff] at opens
  | .dict items, second, after, after', ends, ends', same => by
      have opens := opening_eq floats same
      cases second with
      | dict others =>
          cases items with
          | nil =>
              cases others with
              | nil => exact ⟨rfl, by simpa [dumps] using same⟩
              | cons other others =>
                  obtain ⟨key, value⟩ := other
                  simp [dumps, text, quoted, ofChar_injective.eq_iff] at same
          | cons item rest =>
              obtain ⟨key, value⟩ := item
              cases others with
              | nil => simp [dumps, text, quoted, ofChar_injective.eq_iff] at same
              | cons other others =>
                  obtain ⟨key', value'⟩ := other
                  simp only [dumps, List.cons_append, List.append_assoc, List.cons.injEq,
                    true_and] at same
                  obtain ⟨rfl, valued⟩ := quoted_reads same
                  simp only [List.cons.injEq, true_and] at valued
                  obtain ⟨rfl, later⟩ := dumps_reads floats value value'
                    (dumpsItems_delimited rest after) (dumpsItems_delimited others after') valued
                  obtain ⟨rfl, rests⟩ := dumpsItems_reads floats rest others later
                  exact ⟨rfl, rests⟩
      | scalar => simp [opening] at opens
      | str => simp [opening, ofChar_injective.eq_iff] at opens
      | list => simp [opening, ofChar_injective.eq_iff] at opens

theorem dumpsElements_reads (floats : FloatTexts floatText) : (first second : List Value) →
    {after after' : Text} →
    dumpsElements floatText first ++ after = dumpsElements floatText second ++ after' →
      first = second ∧ after = after'
  | [], second, after, after', same => by
      cases second with
      | nil => exact ⟨rfl, by simpa [dumpsElements] using same⟩
      | cons => simp [dumpsElements, text, ofChar_injective.eq_iff] at same
  | element :: rest, second, after, after', same => by
      cases second with
      | nil => simp [dumpsElements, text, ofChar_injective.eq_iff] at same
      | cons other others =>
          simp only [dumpsElements, List.cons_append, List.cons.injEq, true_and,
            List.append_assoc] at same
          obtain ⟨rfl, later⟩ := dumps_reads floats element other
            (dumpsElements_delimited rest after) (dumpsElements_delimited others after') same
          obtain ⟨rfl, rests⟩ := dumpsElements_reads floats rest others later
          exact ⟨rfl, rests⟩

theorem dumpsItems_reads (floats : FloatTexts floatText) : (first second : List (Text × Value)) →
    {after after' : Text} →
    dumpsItems floatText first ++ after = dumpsItems floatText second ++ after' →
      first = second ∧ after = after'
  | [], second, after, after', same => by
      cases second with
      | nil => exact ⟨rfl, by simpa [dumpsItems] using same⟩
      | cons other others =>
          obtain ⟨key, value⟩ := other
          simp [dumpsItems, text, ofChar_injective.eq_iff] at same
  | (key, value) :: rest, second, after, after', same => by
      cases second with
      | nil => simp [dumpsItems, text, ofChar_injective.eq_iff] at same
      | cons other others =>
          obtain ⟨key', value'⟩ := other
          simp only [dumpsItems, List.cons_append, List.cons.injEq, true_and,
            List.append_assoc] at same
          obtain ⟨rfl, valued⟩ := quoted_reads same
          simp only [List.cons.injEq, true_and] at valued
          obtain ⟨rfl, later⟩ := dumps_reads floats value value'
            (dumpsItems_delimited rest after) (dumpsItems_delimited others after') valued
          obtain ⟨rfl, rests⟩ := dumpsItems_reads floats rest others later
          exact ⟨rfl, rests⟩

end

theorem dumps_injective (floats : FloatTexts floatText) :
    Function.Injective (dumps floatText) := by
  intro first second same
  have ends : Delimited ([] : Text) := by simp [Delimited]
  refine (dumps_reads floats first second ends ends ?_).1
  rw [same]

end Dumps

/-! Documents without lone surrogates. -/

theorem encodable_text (literal : String) : Encodable (text literal) := by
  refine forall_mem_text.mpr fun c _ => ?_
  have valid := c.valid
  simp only [UInt32.isValidChar, Nat.isValidChar] at valid
  have same : (ofChar c).val = c.val.toNat := rfl
  simp only [isSurrogate, same, Bool.and_eq_false_iff, decide_eq_false_iff_not]
  omega

theorem encodable_append {first second : Text} :
    Encodable (first ++ second) ↔ Encodable first ∧ Encodable second := List.forall_mem_append

theorem encodable_cons {c : Char} {rest : Text} :
    Encodable (ofChar c :: rest) ↔ Encodable rest := by
  have here := encodable_text (String.singleton c)
  simp only [Encodable, text, String.toList_singleton, List.map_singleton, List.mem_singleton,
    forall_eq] at here
  simp [Encodable, here]

theorem encodable_nil : Encodable [] := by simp [Encodable]

theorem encodable_escaped {c : CodePoint} (plain : isSurrogate c = false) :
    Encodable (escaped c) := by
  unfold escaped
  split_ifs
  iterate 7 exact encodable_text _
  · exact encodable_append.mpr
      ⟨encodable_text _, encodable_cons.mpr (encodable_cons.mpr encodable_nil)⟩
  · simpa [Encodable] using plain

theorem encodable_quoted {chars : Text} (encodable : Encodable chars) :
    Encodable (quoted chars) := by
  rw [quoted, encodable_cons, encodable_append]
  refine ⟨?_, encodable_cons.mpr encodable_nil⟩
  intro c listed
  obtain ⟨d, present, here⟩ := List.mem_flatMap.mp listed
  exact encodable_escaped (encodable d present) c here

mutual

/-- The strings of a document, its keys among them. -/
def strings : Value → List Text
  | .scalar _ => []
  | .str chars => [chars]
  | .list elements => elementStrings elements
  | .dict items => itemStrings items

def elementStrings : List Value → List Text
  | [] => []
  | element :: rest => strings element ++ elementStrings rest

def itemStrings : List (Text × Value) → List Text
  | [] => []
  | (key, value) :: rest => key :: (strings value ++ itemStrings rest)

end

section Encodable

variable {floatText : Rat → Text}

theorem scalarText_encodable (floats : FloatTexts floatText) (value : Scalar) :
    Encodable (scalarText floatText value) := by
  cases value with
  | float value => exact fun c listed => encodable_text _ c (floats.numeric value c listed)
  | _ => exact encodable_text _

mutual

/-- A document without a lone surrogate in its strings has none in its canonical text. -/
theorem dumps_encodable (floats : FloatTexts floatText) : (value : Value) →
    (∀ chars ∈ strings value, Encodable chars) → Encodable (dumps floatText value)
  | .scalar value, _ => by
      rw [dumps]
      exact scalarText_encodable floats value
  | .str chars, plain => by
      rw [dumps]
      exact encodable_quoted (plain chars (by simp [strings]))
  | .list [], _ => by
      rw [dumps]
      exact encodable_text _
  | .list (first :: rest), plain => by
      simp only [strings, elementStrings, List.forall_mem_append] at plain
      rw [dumps, encodable_cons, encodable_append]
      exact ⟨dumps_encodable floats first plain.1, dumpsElements_encodable floats rest plain.2⟩
  | .dict [], _ => by
      rw [dumps]
      exact encodable_text _
  | .dict ((key, value) :: rest), plain => by
      simp only [strings, itemStrings, List.forall_mem_cons, List.forall_mem_append] at plain
      rw [dumps, encodable_cons, encodable_append, encodable_cons, encodable_append]
      exact ⟨encodable_quoted plain.1, dumps_encodable floats value plain.2.1,
        dumpsItems_encodable floats rest plain.2.2⟩

theorem dumpsElements_encodable (floats : FloatTexts floatText) : (elements : List Value) →
    (∀ chars ∈ elementStrings elements, Encodable chars) →
      Encodable (dumpsElements floatText elements)
  | [], _ => by
      rw [dumpsElements]
      exact encodable_text _
  | element :: rest, plain => by
      simp only [elementStrings, List.forall_mem_append] at plain
      rw [dumpsElements, encodable_cons, encodable_append]
      exact ⟨dumps_encodable floats element plain.1, dumpsElements_encodable floats rest plain.2⟩

theorem dumpsItems_encodable (floats : FloatTexts floatText) : (items : List (Text × Value)) →
    (∀ chars ∈ itemStrings items, Encodable chars) → Encodable (dumpsItems floatText items)
  | [], _ => by
      rw [dumpsItems]
      exact encodable_text _
  | (key, value) :: rest, plain => by
      simp only [itemStrings, List.forall_mem_cons, List.forall_mem_append] at plain
      rw [dumpsItems, encodable_cons, encodable_append, encodable_cons, encodable_append]
      exact ⟨encodable_quoted plain.1, dumps_encodable floats value plain.2.1,
        dumpsItems_encodable floats rest plain.2.2⟩

end

end Encodable

end DomainPack

end Neutrino
