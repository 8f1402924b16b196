import Mathlib

/-! Prefix codes: values written as token sequences whose ends can be told whatever follows, so
that what a view keeps of each value can be read back. -/

namespace PrefixCode

variable {α β γ τ : Type}

/-- Equal sequences that start with two encodings encode equal views and continue equally. -/
def Reads (encode : α → List τ) (view : α → β) : Prop :=
  ∀ ⦃first second : α⦄ ⦃after after' : List τ⦄,
    encode first ++ after = encode second ++ after' → view first = view second ∧ after = after'

theorem Reads.eq {encode : α → List τ} {view : α → β} (reads : Reads encode view)
    {first second : α} (same : encode first = encode second) : view first = view second := by
  have padded : encode first ++ [] = encode second ++ [] := by rw [same]
  exact (reads padded).1

theorem Reads.repeated {encode : α → List τ} {view : α → β} (reads : Reads encode view)
    {first second : List α} {after after' : List τ} (length : first.length = second.length)
    (same : first.flatMap encode ++ after = second.flatMap encode ++ after') :
    first.map view = second.map view ∧ after = after' := by
  induction first generalizing second with
  | nil =>
      cases second with
      | nil => exact ⟨rfl, by simpa using same⟩
      | cons => simp at length
  | cons value rest ih =>
      cases second with
      | nil => simp at length
      | cons other others =>
          simp only [List.flatMap_cons, List.append_assoc] at same
          obtain ⟨here, later⟩ := reads same
          obtain ⟨views, ends⟩ := ih (by simpa using length) later
          exact ⟨by simp [here, views], ends⟩

/-- A list behind its length. -/
theorem Reads.counted {encode : α → List τ} {view : α → β} (reads : Reads encode view)
    {count : Nat → τ} (injective : Function.Injective count) :
    Reads (fun values : List α => count values.length :: values.flatMap encode)
      (List.map view) := by
  intro first second after after' same
  simp only [List.cons_append, List.cons.injEq] at same
  exact reads.repeated (injective same.1) same.2

/-- An absent value is one token that no encoding starts with. -/
theorem Reads.optional {encode : α → List τ} {view : α → β} (reads : Reads encode view)
    {absent : τ} (present : ∀ value, ∃ token rest, encode value = token :: rest ∧ token ≠ absent) :
    Reads (fun value : Option α => value.elim [absent] encode) (Option.map view) := by
  intro first second after after' same
  cases first with
  | none =>
      cases second with
      | none => exact ⟨rfl, by simpa using same⟩
      | some other =>
          obtain ⟨token, rest, starts, different⟩ := present other
          simp only [Option.elim, starts, List.cons_append, List.cons.injEq] at same
          exact absurd same.1.symm different
  | some value =>
      cases second with
      | none =>
          obtain ⟨token, rest, starts, different⟩ := present value
          simp only [Option.elim, starts, List.cons_append, List.cons.injEq] at same
          exact absurd same.1 different
      | some other =>
          obtain ⟨views, ends⟩ := reads same
          exact ⟨by simp [views], ends⟩

end PrefixCode
