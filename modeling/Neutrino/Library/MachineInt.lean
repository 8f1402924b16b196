import Mathlib

/-! Signed 64-bit arithmetic that refuses to overflow. -/

namespace MachineInt

/-- A mathematical result as a signed 64-bit value, or nothing when it is out of range. -/
def checked (value : Int) : Option Int64 :=
  if -(2 ^ 63) ≤ value ∧ value < 2 ^ 63 then some (Int64.ofInt value) else none

theorem checked_eq_some {value : Int} {result : Int64} :
    checked value = some result ↔ result.toInt = value := by
  unfold checked
  have lower := result.le_toInt
  have upper := result.toInt_lt
  constructor
  · intro fits
    split at fits
    · rename_i bounds
      simp only [Option.some.injEq] at fits
      subst fits
      exact Int64.toInt_ofInt_of_le (by omega) (by omega)
    · simp at fits
  · intro same
    rw [if_pos (by omega), ← same, Int64.ofInt_toInt]

/-- A value of the signed 64-bit range. -/
def Fits (value : Int) : Prop := -(2 ^ 63) ≤ value ∧ value < 2 ^ 63

theorem fits_toInt (value : Int64) : Fits value.toInt := ⟨value.le_toInt, value.toInt_lt⟩

theorem checked_of_fits {value : Int} (fits : Fits value) : checked value = some (Int64.ofInt value) :=
  if_pos fits

theorem toInt_injective {left right : Int64} (same : left.toInt = right.toInt) :
    left = right := Int64.toInt_inj.mp same

end MachineInt
