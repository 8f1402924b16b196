import Neutrino.JsonCompact

/-! A reader of compact JSON text: what the printer writes for a value without doubles is read back
as that value. -/

namespace Neutrino

def hexDigit (c : Char) : Option Nat :=
  if '0' ≤ c ∧ c ≤ '9' then some (c.toNat - 48)
  else if 'a' ≤ c ∧ c ≤ 'f' then some (c.toNat - 87)
  else none

/-- The characters of a string literal up to its closing quote, and what follows it. -/
def readString : List Char → Option (List Char × List Char)
  | [] => none
  | '"' :: rest => some ([], rest)
  | '\\' :: '"' :: rest => (readString rest).map fun read => ('"' :: read.1, read.2)
  | '\\' :: '\\' :: rest => (readString rest).map fun read => ('\\' :: read.1, read.2)
  | '\\' :: 't' :: rest => (readString rest).map fun read => ('\t' :: read.1, read.2)
  | '\\' :: 'n' :: rest => (readString rest).map fun read => ('\n' :: read.1, read.2)
  | '\\' :: 'r' :: rest => (readString rest).map fun read => ('\r' :: read.1, read.2)
  | '\\' :: 'u' :: '0' :: '0' :: high :: low :: rest => do
      let high ← hexDigit high
      let low ← hexDigit low
      let read ← readString rest
      return (Char.ofNat (16 * high + low) :: read.1, read.2)
  | '\\' :: _ => none
  | c :: rest => (readString rest).map fun read => (c :: read.1, read.2)

def isNumeral (c : Char) : Bool := c.isDigit || c = '-'

def readDigits (digits : List Char) : Option Nat :=
  if digits ≠ [] ∧ digits.all Char.isDigit then some (Nat.ofDigitChars 10 digits 0) else none

def readInteger : List Char → Option Int
  | '-' :: digits => (readDigits digits).map fun value => -(value : Int)
  | digits => (readDigits digits).map fun value => (value : Int)

/-- A number read is held signed where that fits, else unsigned. -/
def heldNumber (value : Int) : Option Json.Number :=
  match MachineInt.checked value with
  | some value => some (.integer value)
  | none => if 0 ≤ value ∧ value < 2 ^ 64 then some (.unsigned (.ofNat value.toNat)) else none

def readNumber (chars : List Char) : Option (Json × List Char) := do
  let value ← readInteger (chars.takeWhile isNumeral)
  let value ← heldNumber value
  return (.number value, chars.dropWhile isNumeral)

mutual

def readValue : Nat → List Char → Option (Json × List Char)
  | 0, _ => none
  | fuel + 1, chars =>
      match chars with
      | 'n' :: 'u' :: 'l' :: 'l' :: rest => some (.null, rest)
      | 't' :: 'r' :: 'u' :: 'e' :: rest => some (.boolean true, rest)
      | 'f' :: 'a' :: 'l' :: 's' :: 'e' :: rest => some (.boolean false, rest)
      | '"' :: rest => (readString rest).map fun read => (.string (String.ofList read.1), read.2)
      | '[' :: ']' :: rest => some (.array [], rest)
      | '[' :: rest => do
          let first ← readValue fuel rest
          let others ← readElements fuel first.2
          return (.array (first.1 :: others.1), others.2)
      | '\x7b' :: '\x7d' :: rest => some (.object [], rest)
      | '\x7b' :: rest => do
          let first ← readMember fuel rest
          let others ← readMembers fuel first.2
          return (.object (first.1 :: others.1), others.2)
      | _ => readNumber chars

def readElements : Nat → List Char → Option (List Json × List Char)
  | 0, _ => none
  | fuel + 1, chars =>
      match chars with
      | ']' :: rest => some ([], rest)
      | ',' :: rest => do
          let first ← readValue fuel rest
          let others ← readElements fuel first.2
          return (first.1 :: others.1, others.2)
      | _ => none

def readMember : Nat → List Char → Option ((String × Json) × List Char)
  | 0, _ => none
  | fuel + 1, chars =>
      match chars with
      | '"' :: rest => do
          let key ← readString rest
          match key.2 with
          | ':' :: rest => do
              let value ← readValue fuel rest
              return ((String.ofList key.1, value.1), value.2)
          | _ => none
      | _ => none

def readMembers : Nat → List Char → Option (List (String × Json) × List Char)
  | 0, _ => none
  | fuel + 1, chars =>
      match chars with
      | '\x7d' :: rest => some ([], rest)
      | ',' :: rest => do
          let first ← readMember fuel rest
          let others ← readMembers fuel first.2
          return (first.1 :: others.1, others.2)
      | _ => none

end

def readJson (text : String) : Except String Json :=
  match readValue (text.toList.length + 1) text.toList with
  | some (json, []) => .ok json
  | _ => .error "invalid JSON"

/-! Strings and numbers. -/

theorem hexDigit_digitChar : ∀ digit < 16, hexDigit (Nat.digitChar digit) = some digit := by
  decide

theorem readString_quoteChar (c : Char) (rest : List Char) :
    readString ((quoteChar c).toList ++ rest) =
      (readString rest).map fun read => (c :: read.1, read.2) := by
  unfold quoteChar
  split_ifs with quotation backslash tab newline carriage control
  · subst quotation
    simp [readString]
  · subst backslash
    simp [readString]
  · subst tab
    simp [readString]
  · subst newline
    simp [readString]
  · subst carriage
    simp [readString]
  · have high := hexDigit_digitChar (c.toNat / 16) (by omega)
    have low := hexDigit_digitChar (c.toNat % 16) (by omega)
    have whole : Char.ofNat (16 * (c.toNat / 16) + c.toNat % 16) = c := by
      rw [Nat.div_add_mod]
      exact Char.ofNat_toNat c
    simp only [controlDigits, String.toList_append, String.toList_ofList, List.append_assoc]
    have prefixed : "\\u00".toList = ['\\', 'u', '0', '0'] := rfl
    rw [prefixed]
    simp only [List.cons_append, List.nil_append]
    rw [readString]
    simp only [high, low, whole, Option.bind_eq_bind, Option.bind_some]
    cases readString rest <;> rfl
  · simp only [Char.toString, String.toList_singleton, List.singleton_append]
    rw [readString.eq_def]
    split <;> simp_all

theorem readString_quote (text : String) (rest : List Char) :
    readString (((text.toList.map quoteChar).map String.toList).flatten ++ '"' :: rest) =
      some (text.toList, rest) := by
  induction text.toList with
  | nil => simp [readString]
  | cons c chars ih =>
      rw [List.map_cons, List.map_cons, List.flatten_cons, List.append_assoc, readString_quoteChar,
        ih]
      rfl

theorem quote_toList (text : String) :
    (quote text).toList =
      '"' :: (((text.toList.map quoteChar).map String.toList).flatten ++ ['"']) := by
  simp [quote, String.toList_join, List.flatMap_def]

/-- What follows a number does not continue it. -/
def EndsNumber (rest : List Char) : Prop := ∀ c ∈ rest.head?, isNumeral c = false

theorem toString_ofNat (value : Nat) :
    (toString (Int.ofNat value)).toList = Nat.toDigits 10 value := by
  simp [toString, Int.repr, Nat.repr]

theorem toString_negSucc (value : Nat) :
    (toString (Int.negSucc value)).toList = '-' :: Nat.toDigits 10 (value + 1) := by
  simp [toString, Int.repr, Nat.repr]

theorem isDigit_toDigits {value : Nat} {c : Char} (listed : c ∈ Nat.toDigits 10 value) :
    c.isDigit = true :=
  Nat.isDigit_of_mem_toDigits (by decide) (by decide) listed

theorem int_toString_numeral (value : Int) : ∀ c ∈ (toString value).toList, isNumeral c = true := by
  intro c listed
  cases value with
  | ofNat value =>
      rw [toString_ofNat] at listed
      simp [isNumeral, isDigit_toDigits listed]
  | negSucc value =>
      rw [toString_negSucc] at listed
      rcases List.mem_cons.mp listed with rfl | digits
      · rfl
      · simp [isNumeral, isDigit_toDigits digits]

theorem readDigits_toDigits (value : Nat) : readDigits (Nat.toDigits 10 value) = some value := by
  have digits : (Nat.toDigits 10 value).all Char.isDigit = true :=
    List.all_eq_true.mpr fun c listed => isDigit_toDigits listed
  simp [readDigits, digits]

theorem readInteger_toString (value : Int) : readInteger (toString value).toList = some value := by
  cases value with
  | negSucc value =>
      rw [toString_negSucc, readInteger, readDigits_toDigits]
      rfl
  | ofNat value =>
      rw [toString_ofNat, readInteger]
      · rw [readDigits_toDigits]
        rfl
      · intro digits negative
        have sign : '-' ∈ Nat.toDigits 10 value := negative ▸ List.mem_cons_self
        exact absurd (isDigit_toDigits sign) (by decide)

theorem readNumber_toString {value : Int} {number : Json.Number}
    (holds : heldNumber value = some number) {rest : List Char} (ends : EndsNumber rest) :
    readNumber ((toString value).toList ++ rest) = some (.number number, rest) := by
  have stops : rest.takeWhile isNumeral = [] ∧ rest.dropWhile isNumeral = rest := by
    cases rest with
    | nil => exact ⟨rfl, rfl⟩
    | cons c chars =>
        have other := ends c rfl
        simp [other]
  rw [readNumber, List.takeWhile_append_of_pos (int_toString_numeral value),
    List.dropWhile_append_of_pos (int_toString_numeral value), stops.1, stops.2]
  rw [List.append_nil, readInteger_toString]
  simp [holds]

theorem heldNumber_signed (value : Int64) : heldNumber value.toInt = some (.integer value) := by
  have fits : MachineInt.checked value.toInt = some value := MachineInt.checked_eq_some.mpr rfl
  rw [heldNumber, fits]

/-! Values. -/

mutual

/-- No number in the value is held as a double or as an unsigned one. -/
def Json.Integral : Json → Prop
  | .number (.integer _) => True
  | .number _ => False
  | .array elements => AllIntegral elements
  | .object members => MembersIntegral members
  | _ => True

def Json.AllIntegral : List Json → Prop
  | [] => True
  | element :: rest => element.Integral ∧ AllIntegral rest

def Json.MembersIntegral : List (String × Json) → Prop
  | [] => True
  | member :: rest => member.2.Integral ∧ MembersIntegral rest

end

/-- A number as the reader holds it: signed where that fits. -/
def Json.Number.held : Json.Number → Json.Number
  | .unsigned value =>
      if value.toNat < 2 ^ 63 then .integer (Int64.ofNat value.toNat) else .unsigned value
  | value => value

mutual

/-- A value as the reader holds it. -/
def Json.held : Json → Json
  | .number value => .number value.held
  | .array elements => .array (heldElements elements)
  | .object members => .object (heldMembers members)
  | json => json

def Json.heldElements : List Json → List Json
  | [] => []
  | element :: rest => element.held :: heldElements rest

def Json.heldMembers : List (String × Json) → List (String × Json)
  | [] => []
  | (key, value) :: rest => (key, value.held) :: heldMembers rest

end

mutual

/-- No number in the value is held as a double. -/
def Json.Whole : Json → Prop
  | .number (.double _) => False
  | .array elements => AllWhole elements
  | .object members => MembersWhole members
  | _ => True

def Json.AllWhole : List Json → Prop
  | [] => True
  | element :: rest => element.Whole ∧ AllWhole rest

def Json.MembersWhole : List (String × Json) → Prop
  | [] => True
  | member :: rest => member.2.Whole ∧ MembersWhole rest

end

mutual

theorem Json.Integral.whole : {json : Json} → json.Integral → json.Whole
  | .null, _ | .boolean _, _ | .string _, _ | .number (.integer _), _ => trivial
  | .array _, integral => Json.AllIntegral.whole integral
  | .object _, integral => Json.MembersIntegral.whole integral

theorem Json.AllIntegral.whole : {elements : List Json} → Json.AllIntegral elements →
    Json.AllWhole elements
  | [], _ => trivial
  | _ :: _, integral => And.intro integral.1.whole (Json.AllIntegral.whole integral.2)

theorem Json.MembersIntegral.whole : {members : List (String × Json)} →
    Json.MembersIntegral members → Json.MembersWhole members
  | [], _ => trivial
  | _ :: _, integral => And.intro integral.1.whole (Json.MembersIntegral.whole integral.2)

end

mutual

theorem Json.Integral.held : {json : Json} → json.Integral → json.held = json
  | .null, _ | .boolean _, _ | .string _, _ | .number (.integer _), _ => rfl
  | .array _, integral => congrArg Json.array (Json.AllIntegral.held integral)
  | .object _, integral => congrArg Json.object (Json.MembersIntegral.held integral)

theorem Json.AllIntegral.held : {elements : List Json} → Json.AllIntegral elements →
    Json.heldElements elements = elements
  | [], _ => rfl
  | _ :: _, integral => congrArg₂ List.cons integral.1.held (Json.AllIntegral.held integral.2)

theorem Json.MembersIntegral.held : {members : List (String × Json)} →
    Json.MembersIntegral members → Json.heldMembers members = members
  | [], _ => rfl
  | (key, _) :: _, integral =>
      congrArg₂ List.cons (congrArg (Prod.mk key) integral.1.held)
        (Json.MembersIntegral.held integral.2)

end

theorem heldNumber_unsigned (value : UInt64) :
    heldNumber value.toNat = some (Json.Number.unsigned value).held := by
  have bound := value.toNat_lt
  simp only [Json.Number.held]
  by_cases small : value.toNat < 2 ^ 63
  · have signed : (Int64.ofNat value.toNat).toInt = value.toNat :=
      Int64.toInt_ofNat_of_lt small
    rw [if_pos small, ← signed]
    exact heldNumber_signed _
  · have large : MachineInt.checked (value.toNat : Int) = none := by
      by_contra fits
      obtain ⟨found, checked⟩ := Option.ne_none_iff_exists'.mp fits
      have same := MachineInt.checked_eq_some.mp checked
      have below := found.toInt_lt
      omega
    have within : (0 : Int) ≤ value.toNat ∧ (value.toNat : Int) < 2 ^ 64 := by omega
    rw [heldNumber, large, if_neg small]
    simp only [within, and_self, if_true, Int.toNat_natCast, UInt64.ofNat_toNat]

/-- The digits written for a number that is no double, and the number read back from them. -/
theorem compact_digits : (value : Json.Number) → (Json.number value).Whole →
    ∃ digits : Int, value.compact = toString digits ∧ heldNumber digits = some value.held
  | .integer value, _ => ⟨value.toInt, rfl, heldNumber_signed value⟩
  | .unsigned value, _ => ⟨value.toNat, rfl, heldNumber_unsigned value⟩

theorem endsNumber_elements (elements : List Json) (rest : List Char) :
    EndsNumber ((Json.compactElements elements).toList ++ rest) := by
  cases elements <;> simp [Json.compactElements, EndsNumber, isNumeral]

theorem endsNumber_members (members : List (String × Json)) (rest : List Char) :
    EndsNumber ((Json.compactMembers members).toList ++ rest) := by
  cases members <;> simp [Json.compactMembers, EndsNumber, isNumeral]

theorem readValue_numeral {fuel : Nat} {c : Char} {chars : List Char}
    (numeral : isNumeral c = true) :
    readValue (fuel + 1) (c :: chars) = readNumber (c :: chars) := by
  simp only [readValue]
  split <;> first | rfl | simp_all [isNumeral]

/-- No value starts by closing an array. -/
theorem readValue_close (fuel : Nat) (rest : List Char) : readValue fuel (']' :: rest) = none := by
  cases fuel with
  | zero => rfl
  | succ fuel =>
      simp [readValue, readNumber, isNumeral, readInteger, readDigits]

theorem readMember_quote {fuel : Nat} {key : String} {value : Json} {after rest : List Char}
    (read : readValue fuel after = some (value, rest)) :
    readMember (fuel + 1) ((quote key).toList ++ ':' :: after) = some ((key, value), rest) := by
  rw [quote_toList, List.cons_append, List.append_assoc, readMember]
  simp only [List.singleton_append, readString_quote, Option.bind_eq_bind, Option.bind_some, read]
  simp

mutual

theorem readValue_compact : (json : Json) → json.Whole → (fuel : Nat) →
    json.compact.toList.length < fuel → {rest : List Char} → EndsNumber rest →
    readValue fuel (json.compact.toList ++ rest) = some (json.held, rest)
  | .null, _, fuel + 1, _, rest, _ => by simp [Json.compact, Json.held, readValue]
  | .boolean true, _, fuel + 1, _, rest, _ => by simp [Json.compact, Json.held, readValue]
  | .boolean false, _, fuel + 1, _, rest, _ => by simp [Json.compact, Json.held, readValue]
  | .number value, whole, fuel + 1, _, rest, ends => by
      obtain ⟨digits, written, holds⟩ := compact_digits value whole
      have read := readNumber_toString holds ends
      have numerals := int_toString_numeral digits
      have nonempty : (toString digits).toList ≠ [] := by
        intro empty
        have same := readInteger_toString digits
        rw [empty] at same
        simp [readInteger, readDigits] at same
      rw [Json.compact, written]
      cases chars : (toString digits).toList with
      | nil => exact absurd chars nonempty
      | cons c others =>
          rw [chars] at read numerals
          rw [List.cons_append, readValue_numeral (numerals c List.mem_cons_self)]
          exact read
  | .string text, _, fuel + 1, _, rest, _ => by
      rw [Json.compact, quote_toList, List.cons_append, List.append_assoc]
      simp only [readValue, List.singleton_append]
      rw [readString_quote]
      simp [Json.held]
  | .array [], _, fuel + 1, _, rest, _ => by
      simp [Json.compact, Json.held, Json.heldElements, readValue]
  | .array (first :: others), whole, fuel + 1, enough, rest, _ => by
      simp only [Json.Whole, Json.AllWhole] at whole
      simp only [Json.compact, String.toList_append, List.length_append] at enough ⊢
      have here := readValue_compact first whole.1 fuel (by simp at enough; omega)
        (endsNumber_elements others rest)
      have later := readElements_compact others whole.2 fuel (by simp at enough; omega) rest
      have opened : first.compact.toList ++ ((Json.compactElements others).toList ++ rest) ≠
          ']' :: (first.compact.toList ++ ((Json.compactElements others).toList ++ rest)).tail := by
        intro closes
        rw [closes, readValue_close] at here
        simp at here
      simp only [List.append_assoc]
      rw [show "[".toList = ['['] from rfl, List.singleton_append, readValue]
      · simp [here, later, Json.held, Json.heldElements]
      · intro after closes
        rw [closes] at opened
        exact opened rfl
  | .object [], _, fuel + 1, _, rest, _ => by
      simp [Json.compact, Json.held, Json.heldMembers, readValue]
  | .object ((_, _) :: _), _, 1, enough, _, _ => by simp [Json.compact] at enough
  | .object ((key, value) :: others), whole, fuel + 2, enough, rest, _ => by
      simp only [Json.Whole, Json.MembersWhole] at whole
      simp only [Json.compact, String.toList_append, List.length_append] at enough ⊢
      have here := readValue_compact value whole.1 fuel (by simp at enough; omega)
        (endsNumber_members others rest)
      have later := readMembers_compact others whole.2 (fuel + 1) (by simp at enough; omega) rest
      have member := @readMember_quote _ key _ _ _ here
      simp only [List.append_assoc]
      rw [show "\x7b".toList = ['\x7b'] from rfl, List.singleton_append, readValue]
      · simp only [show ":".toList = [':'] from rfl, List.singleton_append, member]
        simp [later, Json.held, Json.heldMembers]
      · intro after closes
        rw [quote_toList] at closes
        simp at closes

theorem readElements_compact : (elements : List Json) → Json.AllWhole elements →
    (fuel : Nat) → (Json.compactElements elements).toList.length < fuel → (rest : List Char) →
    readElements fuel ((Json.compactElements elements).toList ++ rest) = some (Json.heldElements elements, rest)
  | [], _, fuel + 1, _, rest => by
      simp [Json.compactElements, Json.heldElements, readElements]
  | element :: others, whole, fuel + 1, enough, rest => by
      simp only [Json.AllWhole] at whole
      simp only [Json.compactElements, String.toList_append, List.length_append] at enough ⊢
      have here := readValue_compact element whole.1 fuel (by simp at enough; omega)
        (endsNumber_elements others rest)
      have later := readElements_compact others whole.2 fuel (by simp at enough; omega) rest
      simp only [List.append_assoc]
      rw [show ",".toList = [','] from rfl, List.singleton_append, readElements]
      simp [here, later, Json.heldElements]

theorem readMembers_compact : (members : List (String × Json)) → Json.MembersWhole members →
    (fuel : Nat) → (Json.compactMembers members).toList.length < fuel → (rest : List Char) →
    readMembers fuel ((Json.compactMembers members).toList ++ rest) = some (Json.heldMembers members, rest)
  | [], _, fuel + 1, _, rest => by
      simp [Json.compactMembers, Json.heldMembers, readMembers]
  | (_, _) :: _, _, 1, enough, _ => by simp [Json.compactMembers] at enough
  | (key, value) :: others, whole, fuel + 2, enough, rest => by
      simp only [Json.MembersWhole] at whole
      simp only [Json.compactMembers, String.toList_append, List.length_append] at enough ⊢
      have here := readValue_compact value whole.1 fuel (by simp at enough; omega)
        (endsNumber_members others rest)
      have later := readMembers_compact others whole.2 (fuel + 1) (by simp at enough; omega) rest
      have member := @readMember_quote _ key _ _ _ here
      simp only [List.append_assoc]
      rw [show ",".toList = [','] from rfl, List.singleton_append, readMembers]
      simp only [show ":".toList = [':'] from rfl, List.singleton_append, member]
      simp [later, Json.heldMembers]

end

/-- A value without doubles is read back from its compact text. -/
theorem readJson_whole {json : Json} (whole : json.Whole) :
    readJson json.compact = .ok json.held := by
  have read := readValue_compact json whole (json.compact.toList.length + 1) (Nat.lt_succ_self _)
    (show EndsNumber [] by simp [EndsNumber])
  rw [List.append_nil] at read
  simp [readJson, read]

theorem readJson_compact {json : Json} (integral : json.Integral) :
    readJson json.compact = .ok json := by
  rw [readJson_whole integral.whole, integral.held]

mutual

theorem exprToJson_integral : (node : ExprNode) → (exprToJson node).Integral
  | .num _ _ => by simp [exprToJson, Json.Integral, Json.MembersIntegral]
  | .var _ _ => by simp [exprToJson, Json.Integral, Json.MembersIntegral]
  | .bin _ lhs rhs _ => by
      simp [exprToJson, Json.Integral, Json.MembersIntegral, exprToJson_integral lhs,
        exprToJson_integral rhs]
  | .call _ args _ => by
      simp [exprToJson, Json.Integral, Json.MembersIntegral, exprsToJson_integral args]
  | .cmp _ lhs rhs _ => by
      simp [exprToJson, Json.Integral, Json.MembersIntegral, exprToJson_integral lhs,
        exprToJson_integral rhs]

theorem exprsToJson_integral : (args : List ExprNode) → Json.AllIntegral (exprsToJson args)
  | [] => trivial
  | arg :: rest => ⟨exprToJson_integral arg, exprsToJson_integral rest⟩

end

namespace Projection

/-- A text form reads back every typed expression it prints. -/
def JsonText.ReadsExprs (text : JsonText) : Prop :=
  ∀ node : ExprNode, text.ReadsBack (exprToJson node)

/-- The text form of this printer and reader. -/
def compactText : JsonText := ⟨Json.compact, readJson⟩

theorem compactText_readsExprs : compactText.ReadsExprs :=
  fun node => readJson_compact (exprToJson_integral node)

end Projection

end Neutrino
