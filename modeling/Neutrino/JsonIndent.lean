import Neutrino.JsonBuild
import Neutrino.JsonSame

/-! The indented text of a JSON value, and a reader that passes over its blanks. -/

namespace Neutrino

open Projection

def newline (depth : Nat) : String := String.ofList ('\n' :: List.replicate (2 * depth) ' ')

mutual

def Json.indentedAt (depth : Nat) : Json → String
  | .null => "null"
  | .boolean value => if value then "true" else "false"
  | .number value => value.compact
  | .string value => quote value
  | .array [] => "[]"
  | .array (first :: rest) => "[" ++ (newline (depth + 1) ++
      (indentedAt (depth + 1) first ++ indentedElements depth rest))
  | .object [] => "\x7b\x7d"
  | .object ((key, value) :: rest) => "\x7b" ++ (newline (depth + 1) ++ (quote key ++ (": " ++
      (indentedAt (depth + 1) value ++ indentedMembers depth rest))))

def Json.indentedElements (depth : Nat) : List Json → String
  | [] => newline depth ++ "]"
  | element :: rest => "," ++ (newline (depth + 1) ++
      (indentedAt (depth + 1) element ++ indentedElements depth rest))

def Json.indentedMembers (depth : Nat) : List (String × Json) → String
  | [] => newline depth ++ "\x7d"
  | (key, value) :: rest => "," ++ (newline (depth + 1) ++ (quote key ++ (": " ++
      (indentedAt (depth + 1) value ++ indentedMembers depth rest))))

end

def Json.indented (json : Json) : String := json.indentedAt 0

/-- The text without the blanks that stand outside of its strings. -/
def squeeze : Scan → List Char → List Char
  | _, [] => []
  | .escaped, c :: rest => c :: squeeze .quoted rest
  | .quoted, c :: rest =>
      c :: squeeze (if c = '"' then .plain else if c = '\\' then .escaped else .quoted) rest
  | .plain, c :: rest =>
      if c = ' ' ∨ c = '\n' then squeeze .plain rest
      else c :: squeeze (if c = '"' then .quoted else .plain) rest

def squeezedText : JsonText where
  compactJson := Json.compact
  parse text := readJson (String.ofList (squeeze .plain text.toList))

theorem squeeze_flat {chars : List Char} (flat : ∀ c ∈ chars, c ≠ ' ' ∧ c ≠ '\n' ∧ c ≠ '"')
    (rest : List Char) : squeeze .plain (chars ++ rest) = chars ++ squeeze .plain rest := by
  induction chars with
  | nil => rfl
  | cons c others ih =>
      obtain ⟨space, line, quoted⟩ := flat c (List.mem_cons_self ..)
      rw [List.cons_append, squeeze, if_neg (by simp [space, line]), if_neg quoted,
        ih fun d listed => flat d (List.mem_cons_of_mem _ listed), List.cons_append]

theorem squeeze_newline (depth : Nat) (rest : List Char) :
    squeeze .plain ((newline depth).toList ++ rest) = squeeze .plain rest := by
  have blanks : ∀ count, squeeze .plain (List.replicate count ' ' ++ rest) =
      squeeze .plain rest := by
    intro count
    induction count with
    | zero => rfl
    | succ count ih => simpa [List.replicate_succ, squeeze] using ih
  simpa [newline, squeeze] using blanks (2 * depth)

theorem squeeze_escape (c : Char) (rest : List Char) :
    squeeze .quoted ('\\' :: c :: rest) = '\\' :: c :: squeeze .quoted rest := by
  simp [squeeze]

theorem squeeze_quoteChar (c : Char) (rest : List Char) :
    squeeze .quoted ((quoteChar c).toList ++ rest) =
      (quoteChar c).toList ++ squeeze .quoted rest := by
  unfold quoteChar
  split_ifs with quotation backslash tab newline carriage control
  · exact squeeze_escape '"' rest
  · exact squeeze_escape '\\' rest
  · exact squeeze_escape 't' rest
  · exact squeeze_escape 'n' rest
  · exact squeeze_escape 'r' rest
  · obtain ⟨high, highSlash⟩ := digitChar_unquoted (c.toNat / 16) (by omega)
    obtain ⟨low, lowSlash⟩ := digitChar_unquoted (c.toNat % 16) (by omega)
    have prefixed : "\\u00".toList = ['\\', 'u', '0', '0'] := rfl
    simp [squeeze, controlDigits, String.toList_append, prefixed, high, highSlash, low, lowSlash]
  · simp [squeeze, Char.toString, quotation, backslash]

theorem squeeze_quote (text : String) (rest : List Char) :
    squeeze .plain ((quote text).toList ++ rest) = (quote text).toList ++ squeeze .plain rest := by
  have inside (chars : List Char) :
      squeeze .quoted (((chars.map quoteChar).map String.toList).flatten ++ '"' :: rest) =
        ((chars.map quoteChar).map String.toList).flatten ++ '"' :: squeeze .plain rest := by
    induction chars with
    | nil => simp [squeeze]
    | cons c others ih =>
        rw [List.map_cons, List.map_cons, List.flatten_cons, List.append_assoc, squeeze_quoteChar,
          ih, List.append_assoc]
  rw [quote_toList]
  simpa [squeeze] using inside text.toList

theorem flat_digits (value : Int) :
    ∀ c ∈ (toString value).toList, c ≠ ' ' ∧ c ≠ '\n' ∧ c ≠ '"' := by
  intro c listed
  have numeral := int_toString_numeral value c listed
  refine ⟨?_, ?_, ?_⟩ <;> rintro rfl <;> simp [isNumeral] at numeral

theorem squeeze_number (value : Json.Number) (rest : List Char) :
    squeeze .plain (value.compact.toList ++ rest) =
      value.compact.toList ++ squeeze .plain rest := by
  refine squeeze_flat ?_ rest
  cases value with
  | integer value => exact flat_digits value.toInt
  | unsigned value => exact flat_digits value.toNat
  | double value =>
      rw [Json.Number.compact, String.toList_append, String.toList_append]
      simp only [List.forall_mem_append]
      exact ⟨⟨flat_digits value.num, by simp⟩, flat_digits value.den⟩

mutual

/-- Without its blanks the indented text is the compact one. -/
theorem squeeze_indented : (json : Json) → (depth : Nat) → (rest : List Char) →
    squeeze .plain ((json.indentedAt depth).toList ++ rest) =
      json.compact.toList ++ squeeze .plain rest
  | .null, depth, rest => squeeze_flat (by simp [Json.indentedAt]) rest
  | .boolean value, depth, rest => by
      cases value
      · exact squeeze_flat (by simp [Json.indentedAt]) rest
      · exact squeeze_flat (by simp [Json.indentedAt]) rest
  | .number value, depth, rest => squeeze_number value rest
  | .string value, depth, rest => squeeze_quote value rest
  | .array [], depth, rest => squeeze_flat (by simp [Json.indentedAt]) rest
  | .array (first :: others), depth, rest => by
      rw [Json.indentedAt, Json.compact, String.toList_append, String.toList_append,
        String.toList_append, String.toList_append, List.append_assoc, List.append_assoc,
        List.append_assoc, squeeze_flat (by simp), squeeze_newline, squeeze_indented first,
        squeeze_indentedElements others, String.toList_append, List.append_assoc, List.append_assoc]
  | .object [], depth, rest => squeeze_flat (by simp [Json.indentedAt]) rest
  | .object ((key, value) :: others), depth, rest => by
      have colon : ∀ after, squeeze .plain (": ".toList ++ after) =
          ":".toList ++ squeeze .plain after := fun after => by simp [squeeze]
      simp only [Json.indentedAt, Json.compact, String.toList_append, List.append_assoc]
      rw [squeeze_flat (by simp), squeeze_newline, squeeze_quote, colon, squeeze_indented value,
        squeeze_indentedMembers others]

theorem squeeze_indentedElements : (elements : List Json) → (depth : Nat) → (rest : List Char) →
    squeeze .plain ((Json.indentedElements depth elements).toList ++ rest) =
      (Json.compactElements elements).toList ++ squeeze .plain rest
  | [], depth, rest => by
      rw [Json.indentedElements, Json.compactElements, String.toList_append, List.append_assoc,
        squeeze_newline, squeeze_flat (by simp)]
  | element :: others, depth, rest => by
      simp only [Json.indentedElements, Json.compactElements, String.toList_append,
        List.append_assoc]
      rw [squeeze_flat (by simp), squeeze_newline, squeeze_indented element,
        squeeze_indentedElements others]

theorem squeeze_indentedMembers : (members : List (String × Json)) → (depth : Nat) →
    (rest : List Char) →
    squeeze .plain ((Json.indentedMembers depth members).toList ++ rest) =
      (Json.compactMembers members).toList ++ squeeze .plain rest
  | [], depth, rest => by
      rw [Json.indentedMembers, Json.compactMembers, String.toList_append, List.append_assoc,
        squeeze_newline, squeeze_flat (by simp)]
  | (key, value) :: others, depth, rest => by
      have colon : ∀ after, squeeze .plain (": ".toList ++ after) =
          ":".toList ++ squeeze .plain after := fun after => by simp [squeeze]
      simp only [Json.indentedMembers, Json.compactMembers, String.toList_append,
        List.append_assoc]
      rw [squeeze_flat (by simp), squeeze_newline, squeeze_quote, colon, squeeze_indented value,
        squeeze_indentedMembers others]

end

theorem squeezedText_reads {json : Json} (printable : json.Printable) :
    squeezedText.parse (json.indented ++ "\n") = .ok json := by
  have blank : squeeze .plain "\n".toList = [] := by simp [squeeze]
  have squeezed : squeeze .plain (json.indented ++ "\n").toList = json.compact.toList := by
    rw [String.toList_append, Json.indented, squeeze_indented, blank, List.append_nil]
  show readJson _ = _
  rw [squeezed, String.ofList_toList]
  exact readJson_compact printable.integral

end Neutrino
