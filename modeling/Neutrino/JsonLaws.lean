import Mathlib
import Neutrino.JsonParse

/-! What the compiler's JSON library promises of the texts it writes, and that the compact text
keeps it: the text of a value ends where its brackets are closed. -/

namespace Neutrino

open Projection

mutual

/-- The members of every object stand in the order of their keys. -/
def Json.Ordered : Json → Prop
  | .array elements => AllOrdered elements
  | .object members => (members.map Prod.fst).Pairwise (· < ·) ∧ MembersOrdered members
  | _ => True

def Json.AllOrdered : List Json → Prop
  | [] => True
  | element :: rest => element.Ordered ∧ AllOrdered rest

def Json.MembersOrdered : List (String × Json) → Prop
  | [] => True
  | member :: rest => member.2.Ordered ∧ MembersOrdered rest

end

/-- A text form that reads values back, writes no empty text, and whose text of an object tells
the text with one member more. -/
structure Projection.JsonText.Lawful (text : JsonText) : Prop where
  reads : ∀ json : Json, json.Integral → json.Ordered → text.ReadsBack json
  nonempty : ∀ json : Json, text.compactJson json ≠ ""
  insert : ∀ (object other : Json.Object) (key : String) (value : Json),
    key ∉ object.map Prod.fst → key ∉ other.map Prod.fst →
    text.compactJson (.object object) = text.compactJson (.object other) →
    text.compactJson (.object (object.insert key value)) =
      text.compactJson (.object (other.insert key value))

/-! Where a value ends. -/

inductive Scan
  | plain
  | quoted
  | escaped

/-- How many characters stand before the first comma or closing bracket that belongs to none of
the values begun. -/
def cut (depth : Nat) : Scan → List Char → Nat
  | _, [] => 0
  | .escaped, _ :: rest => cut depth .quoted rest + 1
  | .quoted, c :: rest =>
      if c = '"' then cut depth .plain rest + 1
      else if c = '\\' then cut depth .escaped rest + 1
      else cut depth .quoted rest + 1
  | .plain, c :: rest =>
      if c = '"' then cut depth .quoted rest + 1
      else if c = '[' ∨ c = '\x7b' then cut (depth + 1) .plain rest + 1
      else if c = ']' ∨ c = '\x7d' then
        match depth with
        | 0 => 0
        | outer + 1 => cut outer .plain rest + 1
      else if c = ',' ∧ depth = 0 then 0
      else cut depth .plain rest + 1

/-- A text that is passed over whole, at any depth. -/
def Whole (chars : List Char) : Prop :=
  ∀ depth rest, cut depth .plain (chars ++ rest) = chars.length + cut depth .plain rest

theorem Whole.append {first second : List Char} (whole : Whole first) (other : Whole second) :
    Whole (first ++ second) := by
  intro depth rest
  rw [List.append_assoc, whole, other, List.length_append, Nat.add_assoc]

theorem whole_nil : Whole [] := by
  intro depth rest
  simp

/-- Characters that open and close nothing. -/
theorem whole_flat {chars : List Char}
    (flat : ∀ c ∈ chars, c ≠ '"' ∧ c ≠ '[' ∧ c ≠ '\x7b' ∧ c ≠ ']' ∧ c ≠ '\x7d' ∧ c ≠ ',') :
    Whole chars := by
  induction chars with
  | nil => exact whole_nil
  | cons c rest ih =>
      intro depth after
      obtain ⟨quote, bracket, brace, close, closeBrace, comma⟩ := flat c List.mem_cons_self
      have later := ih (fun other listed => flat other (List.mem_cons_of_mem _ listed)) depth after
      simp only [List.cons_append, cut, quote, bracket, brace, close, closeBrace, comma, or_self,
        false_and, if_false, later, List.length_cons]
      omega

theorem digitChar_unquoted : ∀ digit < 16,
    Nat.digitChar digit ≠ '"' ∧ Nat.digitChar digit ≠ '\\' := by decide

theorem cut_escape (c : Char) (depth : Nat) (rest : List Char) :
    cut depth .quoted ('\\' :: c :: rest) = 2 + cut depth .quoted rest := by
  simp [cut]
  omega

theorem cut_quoteChar (c : Char) (depth : Nat) (rest : List Char) :
    cut depth .quoted ((quoteChar c).toList ++ rest) =
      (quoteChar c).toList.length + cut depth .quoted rest := by
  unfold quoteChar
  split_ifs with quotation backslash tab newline carriage control
  · exact cut_escape '"' depth rest
  · exact cut_escape '\\' depth rest
  · exact cut_escape 't' depth rest
  · exact cut_escape 'n' depth rest
  · exact cut_escape 'r' depth rest
  · obtain ⟨high, highSlash⟩ := digitChar_unquoted (c.toNat / 16) (by omega)
    obtain ⟨low, lowSlash⟩ := digitChar_unquoted (c.toNat % 16) (by omega)
    have prefixed : "\\u00".toList = ['\\', 'u', '0', '0'] := rfl
    simp [cut, controlDigits, String.toList_append, prefixed, high, highSlash, low, lowSlash]
    omega
  · simp [cut, Char.toString, quotation, backslash, Nat.add_comm]

theorem whole_quote (text : String) : Whole (quote text).toList := by
  intro depth rest
  have inside (chars : List Char) :
      cut depth .quoted (((chars.map quoteChar).map String.toList).flatten ++ '"' :: rest) =
        ((chars.map quoteChar).map String.toList).flatten.length + 1 + cut depth .plain rest := by
    induction chars with
    | nil => simp [cut, Nat.add_comm]
    | cons c others ih =>
        rw [List.map_cons, List.map_cons, List.flatten_cons, List.append_assoc, cut_quoteChar, ih,
          List.length_append]
        omega
  rw [quote_toList]
  simp only [List.cons_append, List.append_assoc, List.nil_append, cut, if_true, inside, List.length_cons, List.length_append, List.length_nil]
  omega

theorem whole_digits (value : Int) : Whole (toString value).toList := by
  refine whole_flat fun c listed => ?_
  have numeral := int_toString_numeral value c listed
  refine ⟨?_, ?_, ?_, ?_, ?_, ?_⟩ <;> rintro rfl <;> simp [isNumeral] at numeral

theorem whole_number (value : Json.Number) : Whole value.compact.toList := by
  cases value with
  | integer value => exact whole_digits value.toInt
  | unsigned value => exact whole_digits value.toNat
  | double value =>
      rw [Json.Number.compact, String.toList_append, String.toList_append]
      exact ((whole_digits value.num).append (whole_flat (by simp))).append
        (whole_digits value.den)

/-! The brackets of a value close inside it. -/

theorem cut_open (depth : Nat) (c : Char) (opens : c = '[' ∨ c = '\x7b') (rest : List Char) :
    cut depth .plain (c :: rest) = cut (depth + 1) .plain rest + 1 := by
  rcases opens with rfl | rfl <;> simp [cut]

theorem cut_close (depth : Nat) (c : Char) (closes : c = ']' ∨ c = '\x7d') (rest : List Char) :
    cut (depth + 1) .plain (c :: rest) = cut depth .plain rest + 1 := by
  rcases closes with rfl | rfl <;> simp [cut]

theorem cut_inside (depth : Nat) (c : Char) (separates : c = ',' ∨ c = ':') (rest : List Char) :
    cut (depth + 1) .plain (c :: rest) = cut (depth + 1) .plain rest + 1 := by
  rcases separates with rfl | rfl <;> simp [cut]

mutual

theorem whole_compact : (json : Json) → Whole json.compact.toList
  | .null => whole_flat (by simp [Json.compact])
  | .boolean value => by
      refine whole_flat ?_
      cases value <;> simp [Json.compact]
  | .number value => whole_number value
  | .string value => whole_quote value
  | .array [] => by
      intro depth rest
      have chars : (Json.compact (.array [])).toList = ['[', ']'] := rfl
      rw [chars, List.cons_append, cut_open _ _ (.inl rfl), List.cons_append,
        cut_close _ _ (.inl rfl)]
      simp only [List.nil_append, List.length_cons, List.length_nil]
      omega
  | .array (first :: others) => by
      intro depth rest
      have chars : (Json.compact (.array (first :: others))).toList =
          '[' :: (first.compact.toList ++ (Json.compactElements others).toList) := by
        simp [Json.compact]
      rw [chars, List.cons_append, cut_open _ _ (.inl rfl), List.append_assoc,
        whole_compact first, cut_compactElements others]
      simp only [List.length_cons, List.length_append]
      omega
  | .object [] => by
      intro depth rest
      have chars : (Json.compact (.object [])).toList = ['\x7b', '\x7d'] := rfl
      rw [chars, List.cons_append, cut_open _ _ (.inr rfl), List.cons_append,
        cut_close _ _ (.inr rfl)]
      simp only [List.nil_append, List.length_cons, List.length_nil]
      omega
  | .object ((key, value) :: others) => by
      intro depth rest
      have chars : (Json.compact (.object ((key, value) :: others))).toList =
          '\x7b' :: ((quote key).toList ++ ':' :: (value.compact.toList ++
            (Json.compactMembers others).toList)) := by
        simp [Json.compact]
      rw [chars, List.cons_append, cut_open _ _ (.inr rfl), List.append_assoc, whole_quote key,
        List.cons_append, cut_inside _ _ (.inr rfl), List.append_assoc, whole_compact value,
        cut_compactMembers others]
      simp only [List.length_cons, List.length_append]
      omega

theorem cut_compactElements : (elements : List Json) → (depth : Nat) → (rest : List Char) →
    cut (depth + 1) .plain ((Json.compactElements elements).toList ++ rest) =
      (Json.compactElements elements).toList.length + cut depth .plain rest
  | [], depth, rest => by
      have chars : (Json.compactElements []).toList = [']'] := rfl
      rw [chars, List.singleton_append, cut_close _ _ (.inl rfl)]
      simp only [List.length_cons, List.length_nil]
      omega
  | element :: others, depth, rest => by
      have chars : (Json.compactElements (element :: others)).toList =
          ',' :: (element.compact.toList ++ (Json.compactElements others).toList) := by
        simp [Json.compactElements]
      rw [chars, List.cons_append, cut_inside _ _ (.inl rfl), List.append_assoc,
        whole_compact element, cut_compactElements others]
      simp only [List.length_cons, List.length_append]
      omega

theorem cut_compactMembers : (members : List (String × Json)) → (depth : Nat) →
    (rest : List Char) →
    cut (depth + 1) .plain ((Json.compactMembers members).toList ++ rest) =
      (Json.compactMembers members).toList.length + cut depth .plain rest
  | [], depth, rest => by
      have chars : (Json.compactMembers []).toList = ['\x7d'] := rfl
      rw [chars, List.singleton_append, cut_close _ _ (.inr rfl)]
      simp only [List.length_cons, List.length_nil]
      omega
  | (key, value) :: others, depth, rest => by
      have chars : (Json.compactMembers ((key, value) :: others)).toList =
          ',' :: ((quote key).toList ++ ':' :: (value.compact.toList ++
            (Json.compactMembers others).toList)) := by
        simp [Json.compactMembers]
      rw [chars, List.cons_append, cut_inside _ _ (.inl rfl), List.append_assoc, whole_quote key,
        List.cons_append, cut_inside _ _ (.inr rfl), List.append_assoc, whole_compact value,
        cut_compactMembers others]
      simp only [List.length_cons, List.length_append]
      omega

end

/-- Two whole texts that stand before delimiters are told apart where they end. -/
theorem Whole.unique {first second rest rest' : List Char} (whole : Whole first)
    (other : Whole second) (ends : cut 0 .plain rest = 0) (ends' : cut 0 .plain rest' = 0)
    (same : first ++ rest = second ++ rest') : first = second ∧ rest = rest' := by
  have lengths := congrArg (cut 0 .plain) same
  rw [whole, other, ends, ends'] at lengths
  exact List.append_inj same (by omega)

/-! Objects of one text. -/

/-- Two objects with the same keys over values of one text. -/
def SameMembers : Json.Object → Json.Object → Prop :=
  List.Forall₂ fun member other => member.1 = other.1 ∧ member.2.compact = other.2.compact

theorem compactMembers_toList (key : String) (value : Json) (others : Json.Object) :
    (Json.compactMembers ((key, value) :: others)).toList =
      ',' :: ((quote key).toList ++ (':' :: (value.compact.toList ++
        (Json.compactMembers others).toList))) := by
  simp [Json.compactMembers]

theorem compact_object_toList (key : String) (value : Json) (others : Json.Object) :
    (Json.compact (.object ((key, value) :: others))).toList =
      '\x7b' :: ((quote key).toList ++ (':' :: (value.compact.toList ++
        (Json.compactMembers others).toList))) := by
  simp [Json.compact]

theorem cut_members (members : Json.Object) :
    cut 0 .plain (Json.compactMembers members).toList = 0 := by
  cases members with
  | nil => rfl
  | cons member others =>
      rw [compactMembers_toList]
      simp [cut]

theorem quote_unique {key other : String} {rest rest' : List Char}
    (same : (quote key).toList ++ rest = (quote other).toList ++ rest') :
    key = other ∧ rest = rest' := by
  simp only [quote_toList, List.cons_append, List.append_assoc, List.nil_append,
    List.cons.injEq, true_and] at same
  have read := readString_quote key rest
  rw [same, readString_quote] at read
  obtain ⟨keys, rests⟩ := Prod.mk.inj (Option.some.inj read)
  exact ⟨String.toList_inj.mp keys.symm, rests.symm⟩

theorem members_unique {key other : String} {value value' : Json} {others others' : Json.Object}
    (same : (quote key).toList ++ (':' :: (value.compact.toList ++
        (Json.compactMembers others).toList)) =
      (quote other).toList ++ (':' :: (value'.compact.toList ++
        (Json.compactMembers others').toList))) :
    (key = other ∧ value.compact = value'.compact) ∧
      Json.compactMembers others = Json.compactMembers others' := by
  obtain ⟨keys, after⟩ := quote_unique same
  obtain ⟨values, rests⟩ := (whole_compact value).unique (whole_compact value')
    (cut_members others) (cut_members others') (List.cons.inj after).2
  exact ⟨⟨keys, String.toList_inj.mp values⟩, String.toList_inj.mp rests⟩

theorem sameMembers_of_compactMembers : {members others : Json.Object} →
    Json.compactMembers members = Json.compactMembers others → SameMembers members others
  | [], [], _ => .nil
  | [], (key, value) :: others, same => by
      have chars := congrArg String.toList same
      rw [compactMembers_toList] at chars
      cases chars
  | (key, value) :: members, [], same => by
      have chars := congrArg String.toList same
      rw [compactMembers_toList] at chars
      cases chars
  | (key, value) :: members, (key', value') :: others, same => by
      have chars := congrArg String.toList same
      rw [compactMembers_toList, compactMembers_toList] at chars
      obtain ⟨first, rests⟩ := members_unique (List.cons.inj chars).2
      exact .cons first (sameMembers_of_compactMembers rests)

theorem compactMembers_of_sameMembers {members others : Json.Object}
    (same : SameMembers members others) :
    Json.compactMembers members = Json.compactMembers others := by
  induction same with
  | nil => rfl
  | cons first _ ih =>
      rw [Json.compactMembers, Json.compactMembers, first.1, first.2, ih]

/-- The text of an object is told by its keys and the texts of its values. -/
theorem compact_object_iff {object other : Json.Object} :
    Json.compact (.object object) = Json.compact (.object other) ↔ SameMembers object other := by
  constructor
  · intro same
    match object, other with
    | [], [] => exact .nil
    | [], (key, value) :: others =>
        have chars := congrArg String.toList same
        rw [compact_object_toList, quote_toList] at chars
        simp [Json.compact] at chars
    | (key, value) :: members, [] =>
        have chars := congrArg String.toList same
        rw [compact_object_toList, quote_toList] at chars
        simp [Json.compact] at chars
    | (key, value) :: members, (key', value') :: others =>
        have chars := congrArg String.toList same
        rw [compact_object_toList, compact_object_toList] at chars
        obtain ⟨first, rests⟩ := members_unique (List.cons.inj chars).2
        exact .cons first (sameMembers_of_compactMembers rests)
  · intro same
    cases same with
    | nil => rfl
    | cons first rests =>
        rw [Json.compact, Json.compact, first.1, first.2, compactMembers_of_sameMembers rests]

theorem Json.Object.insert_fresh {object : Json.Object} {key : String}
    (fresh : key ∉ object.map Prod.fst) (value : Json) :
    object.insert key value = object.takeWhile (fun member => member.1 < key) ++
      (key, value) :: object.dropWhile (fun member => member.1 < key) := by
  rw [Json.Object.insert, if_neg]
  intro present
  obtain ⟨member, listed, same⟩ := List.any_eq_true.mp present
  exact fresh (List.mem_map.mpr ⟨member, listed, by simpa using same⟩)

/-- A member goes between those of smaller keys and the others. -/
theorem Json.Object.insert_between (front back : Json.Object) {key : String} (value : Json)
    (below : ∀ other ∈ front.map Prod.fst, other < key)
    (above : ∀ other ∈ (back.map Prod.fst).head?, ¬ other < key)
    (fresh : key ∉ back.map Prod.fst) :
    Json.Object.insert (front ++ back) key value = front ++ (key, value) :: back := by
  have before : ∀ member ∈ front, decide (member.1 < key) = true := fun member listed =>
    decide_eq_true (below member.1 (List.mem_map_of_mem listed))
  have absent : key ∉ (front ++ back).map Prod.fst := by
    rw [List.map_append, List.mem_append, not_or]
    exact ⟨fun listed => String.lt_irrefl key (below key listed), fresh⟩
  have taken : back.takeWhile (fun member => decide (member.1 < key)) = [] ∧
      back.dropWhile (fun member => decide (member.1 < key)) = back := by
    cases back with
    | nil => exact ⟨rfl, rfl⟩
    | cons member rest =>
        have past : decide (member.1 < key) = false := decide_eq_false (above member.1 rfl)
        rw [List.takeWhile_cons, List.dropWhile_cons, past]
        exact ⟨rfl, rfl⟩
  rw [Json.Object.insert_fresh absent, List.takeWhile_append_of_pos before,
    List.dropWhile_append_of_pos before, taken.1, taken.2, List.append_nil]

theorem SameMembers.placed {object other : Json.Object} (same : SameMembers object other)
    (key : String) (value : Json) :
    SameMembers (object.takeWhile (fun member => member.1 < key) ++
        (key, value) :: object.dropWhile (fun member => member.1 < key))
      (other.takeWhile (fun member => member.1 < key) ++
        (key, value) :: other.dropWhile (fun member => member.1 < key)) := by
  induction same with
  | nil => exact .cons ⟨rfl, rfl⟩ .nil
  | cons first rests ih =>
      rw [List.takeWhile_cons, List.takeWhile_cons, List.dropWhile_cons, List.dropWhile_cons,
        first.1]
      split
      · exact .cons first ih
      · exact .cons ⟨rfl, rfl⟩ (.cons first rests)

theorem toString_ne_empty (value : Int) : (toString value).toList ≠ [] := by
  intro empty
  have read := readInteger_toString value
  rw [empty] at read
  simp [readInteger, readDigits] at read

theorem compactText_lawful : compactText.Lawful where
  reads _ integral _ := readJson_compact integral
  nonempty json empty := by
    have whole := congrArg String.toList (show json.compact = "" from empty)
    cases json with
    | null => simp [Json.compact] at whole
    | boolean value => cases value <;> simp [Json.compact] at whole
    | number value =>
        cases value with
        | integer value => exact toString_ne_empty value.toInt whole
        | unsigned value => exact toString_ne_empty value.toNat whole
        | double value => simp [Json.compact, Json.Number.compact] at whole
    | string value => simp [Json.compact, quote_toList] at whole
    | array elements => cases elements <;> simp [Json.compact] at whole
    | object members => cases members <;> simp [Json.compact] at whole
  insert object other key value fresh fresh' same := by
    show Json.compact (.object _) = Json.compact (.object _)
    rw [object.insert_fresh fresh, other.insert_fresh fresh', compact_object_iff]
    exact (compact_object_iff.mp same).placed key value

end Neutrino
