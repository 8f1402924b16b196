import Mathlib

/-! Bytes as lowercase hexadecimal text, two digits a byte. -/

namespace HexText

def digit (value : Nat) : Char :=
  if value < 10 then Char.ofNat ('0'.toNat + value) else Char.ofNat ('a'.toNat + (value - 10))

def hexText (bytes : List UInt8) : String :=
  String.ofList (bytes.flatMap fun byte => [digit (byte.toNat / 16), digit (byte.toNat % 16)])

theorem digit_injective : ∀ left < 16, ∀ right < 16, digit left = digit right → left = right := by
  decide

/-- Different bytes have different texts. -/
theorem hexText_injective : Function.Injective hexText := by
  intro left right same
  replace same := String.ofList_injective same
  induction left generalizing right with
  | nil =>
      cases right with
      | nil => rfl
      | cons => simp at same
  | cons first rest ih =>
      cases right with
      | nil => simp at same
      | cons head tail =>
          simp only [List.flatMap_cons, List.cons_append, List.nil_append,
            List.cons.injEq] at same
          obtain ⟨high, low, later⟩ := same
          have firstBound := first.toNat_lt
          have headBound := head.toNat_lt
          have highSame := digit_injective _ (by omega) _ (by omega) high
          have lowSame := digit_injective _ (by omega) _ (by omega) low
          have bytes : first = head := UInt8.toNat_inj.mp (by omega)
          rw [bytes, ih later]

/-- A character takes at most four bytes. -/
theorem utf8Len_le (chars : List Char) : String.utf8Len chars ≤ 4 * chars.length := by
  induction chars with
  | nil => simp
  | cons char rest ih =>
      have here := char.utf8Size_le_four
      simp only [String.utf8Len, List.length_cons]
      omega

theorem hexText_size (bytes : List UInt8) :
    (hexText bytes).utf8ByteSize ≤ 8 * bytes.length := by
  rw [hexText, String.utf8ByteSize_ofList]
  refine (utf8Len_le _).trans ?_
  simp
  omega

end HexText
