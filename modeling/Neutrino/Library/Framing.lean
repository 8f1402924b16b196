import Mathlib

/-! Length framing: a sequence of fields as one byte string, each field behind its length in
eight big-endian bytes, from which the fields can be read back. -/

namespace Framing

def lengthBytes (length : Nat) : List UInt8 :=
  [56, 48, 40, 32, 24, 16, 8, 0].map fun shift => UInt8.ofNat (length >>> shift)

def frame (field : List UInt8) : List UInt8 := lengthBytes field.length ++ field

def frames (fields : List (List UInt8)) : List UInt8 := fields.flatMap frame

/-- A field whose length fits the eight bytes. -/
def Framable (field : List UInt8) : Prop := field.length < 2 ^ 64

/-- Numbers agree above a byte if they agree above the next one and in the byte. -/
theorem shiftRight_of_byte {left right shift next : Nat} (above : left >>> next = right >>> next)
    (byte : UInt8.ofNat (left >>> shift) = UInt8.ofNat (right >>> shift))
    (step : next = shift + 8) : left >>> shift = right >>> shift := by
  have digit := congrArg UInt8.toNat byte
  rw [UInt8.toNat_ofNat', UInt8.toNat_ofNat'] at digit
  rw [step, Nat.shiftRight_add, Nat.shiftRight_add, Nat.shiftRight_eq_div_pow _ 8,
    Nat.shiftRight_eq_div_pow _ 8] at above
  omega

theorem lengthBytes_injective {left right : Nat} (leftBound : left < 2 ^ 64)
    (rightBound : right < 2 ^ 64) (same : lengthBytes left = lengthBytes right) :
    left = right := by
  have above : left >>> 64 = right >>> 64 := by
    rw [Nat.shiftRight_eq_div_pow, Nat.shiftRight_eq_div_pow, Nat.div_eq_of_lt leftBound,
      Nat.div_eq_of_lt rightBound]
  simp only [lengthBytes, List.map_cons, List.map_nil, List.cons.injEq, and_true] at same
  obtain ⟨b7, b6, b5, b4, b3, b2, b1, b0⟩ := same
  have bytes7 := shiftRight_of_byte above b7 rfl
  have bytes6 := shiftRight_of_byte bytes7 b6 rfl
  have bytes5 := shiftRight_of_byte bytes6 b5 rfl
  have bytes4 := shiftRight_of_byte bytes5 b4 rfl
  have bytes3 := shiftRight_of_byte bytes4 b3 rfl
  have bytes2 := shiftRight_of_byte bytes3 b2 rfl
  have bytes1 := shiftRight_of_byte bytes2 b1 rfl
  simpa using shiftRight_of_byte bytes1 b0 rfl

theorem frame_append_injective {left right leftRest rightRest : List UInt8}
    (leftFits : Framable left) (rightFits : Framable right)
    (same : frame left ++ leftRest = frame right ++ rightRest) :
    left = right ∧ leftRest = rightRest := by
  simp only [frame, List.append_assoc] at same
  have split := List.append_inj same (by simp [lengthBytes])
  have lengths := lengthBytes_injective leftFits rightFits split.1
  exact List.append_inj split.2 lengths

/-- Fields that fit their frames can be read back from the framed bytes. -/
theorem frames_injective {left right : List (List UInt8)}
    (leftFits : ∀ field ∈ left, Framable field) (rightFits : ∀ field ∈ right, Framable field)
    (same : frames left = frames right) : left = right := by
  induction left generalizing right with
  | nil =>
      cases right with
      | nil => rfl
      | cons first rest => simp [frames, frame, lengthBytes] at same
  | cons first rest ih =>
      cases right with
      | nil => simp [frames, frame, lengthBytes] at same
      | cons head tail =>
          simp only [frames, List.flatMap_cons] at same
          simp only [List.forall_mem_cons] at leftFits rightFits
          obtain ⟨headSame, tailSame⟩ :=
            frame_append_injective leftFits.1 rightFits.1 same
          rw [headSame, ih leftFits.2 rightFits.2 tailSame]

/-- Rows of one width can be read back from their fields in sequence. -/
theorem rows_injective {α β : Type} {fields : α → List β} (width : Nat) (positive : 0 < width)
    (wide : ∀ row, (fields row).length = width) (injective : Function.Injective fields) :
    Function.Injective fun rows : List α => rows.flatMap fields := by
  intro left right same
  have nonempty : ∀ row, fields row ≠ [] := by
    intro row empty
    have := wide row
    simp only [empty, List.length_nil] at this
    omega
  induction left generalizing right with
  | nil =>
      cases right with
      | nil => rfl
      | cons head tail => simp [eq_comm, nonempty] at same
  | cons row rest ih =>
      cases right with
      | nil => simp [nonempty] at same
      | cons head tail =>
          simp only [List.flatMap_cons] at same
          have split := List.append_inj same (by rw [wide, wide])
          rw [injective split.1, ih split.2]

end Framing
