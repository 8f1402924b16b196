import Mathlib

/-! Computations that record observations as they go and may stop with a failure. What was
observed before the failure stays observed. -/

structure Traced (ω ε α : Type) where
  trace : List ω
  value : Except ε α

namespace Traced

variable {ω ε α β : Type}

def observe (observation : ω) : Traced ω ε Unit := ⟨[observation], .ok ()⟩

def fail (failure : ε) : Traced ω ε α := ⟨[], .error failure⟩

def ofExcept (value : Except ε α) : Traced ω ε α := ⟨[], value⟩

/-- Passes in silence exactly when the condition holds. -/
def ensure (condition : Prop) [Decidable condition] (failure : ε) : Traced ω ε Unit :=
  if condition then ⟨[], .ok ()⟩ else fail failure

instance : Monad (Traced ω ε) where
  pure value := ⟨[], .ok value⟩
  bind first next :=
    match first.value with
    | .ok value => ⟨first.trace ++ (next value).trace, (next value).value⟩
    | .error failure => ⟨first.trace, .error failure⟩

@[simp] theorem pure_trace (value : α) : (pure value : Traced ω ε α).trace = [] := rfl

@[simp] theorem pure_value (value : α) : (pure value : Traced ω ε α).value = .ok value := rfl

@[simp] theorem observe_trace (observation : ω) :
    (observe observation : Traced ω ε Unit).trace = [observation] := rfl

@[simp] theorem observe_value (observation : ω) :
    (observe observation : Traced ω ε Unit).value = .ok () := rfl

@[simp] theorem fail_trace (failure : ε) : (fail failure : Traced ω ε α).trace = [] := rfl

@[simp] theorem fail_value (failure : ε) :
    (fail failure : Traced ω ε α).value = .error failure := rfl

@[simp] theorem ofExcept_trace (value : Except ε α) :
    (ofExcept value : Traced ω ε α).trace = [] := rfl

@[simp] theorem ofExcept_value (value : Except ε α) :
    (ofExcept value : Traced ω ε α).value = value := rfl

@[simp] theorem ensure_trace (condition : Prop) [Decidable condition] (failure : ε) :
    (ensure condition failure : Traced ω ε Unit).trace = [] := by
  unfold ensure
  split <;> rfl

theorem ensure_length_le (condition : Prop) [Decidable condition] (failure : ε) :
    (ensure condition failure : Traced ω ε Unit).trace.length ≤ 0 := by
  rw [ensure_trace]
  exact Nat.le_refl 0

theorem ensure_ok {condition : Prop} [Decidable condition] {failure : ε} {passed : Unit} :
    (ensure condition failure : Traced ω ε Unit).value = .ok passed ↔ condition := by
  unfold ensure
  split <;> rename_i decided <;> simp [decided]

theorem ensure_error {condition : Prop} [Decidable condition] {failure found : ε} :
    (ensure condition failure : Traced ω ε Unit).value = .error found ↔
      ¬condition ∧ failure = found := by
  unfold ensure
  split <;> rename_i decided <;> simp [decided]

theorem bind_ok {first : Traced ω ε α} {next : α → Traced ω ε β} {result : β} :
    (first >>= next).value = .ok result ↔
      ∃ value, first.value = .ok value ∧ (next value).value = .ok result := by
  simp only [bind]
  cases first.value <;> simp

theorem bind_error {first : Traced ω ε α} {next : α → Traced ω ε β} {failure : ε} :
    (first >>= next).value = .error failure ↔ first.value = .error failure ∨
      ∃ value, first.value = .ok value ∧ (next value).value = .error failure := by
  simp only [bind]
  cases first.value <;> simp

/-- What every observation of both parts satisfies, every observation of the whole does. -/
theorem forall_bind {first : Traced ω ε α} {next : α → Traced ω ε β} {property : ω → Prop}
    (before : ∀ observation ∈ first.trace, property observation)
    (after : ∀ value, first.value = .ok value →
      ∀ observation ∈ (next value).trace, property observation) :
    ∀ observation ∈ (first >>= next).trace, property observation := by
  simp only [bind]
  cases outcome : first.value with
  | error failure => exact before
  | ok value =>
      intro observation found
      rcases List.mem_append.mp found with early | late
      · exact before observation early
      · exact after value outcome observation late

/-- A sequence that succeeds observes what both of its parts do. -/
theorem bind_ok_trace {first : Traced ω ε α} {next : α → Traced ω ε β} {result : β}
    (succeeded : (first >>= next).value = .ok result) :
    ∃ value, first.value = .ok value ∧ (next value).value = .ok result ∧
      (first >>= next).trace = first.trace ++ (next value).trace := by
  obtain ⟨value, here, later⟩ := bind_ok.mp succeeded
  exact ⟨value, here, later, by simp only [bind, here]⟩

/-- A sequence observes at most what both of its parts can. -/
theorem length_bind_le {first : Traced ω ε α} {next : α → Traced ω ε β} {before after : Nat}
    (early : first.trace.length ≤ before)
    (late : ∀ value, first.value = .ok value → (next value).trace.length ≤ after) :
    (first >>= next).trace.length ≤ before + after := by
  simp only [bind]
  cases outcome : first.value with
  | error failure => exact Nat.le_add_right_of_le early
  | ok value =>
      have rest := late value outcome
      simp only [List.length_append]
      omega

/-- Past a step that succeeded, the rest runs with its result and adds to its trace. -/
theorem bind_of_ok {first : Traced ω ε α} (next : α → Traced ω ε β) {value : α}
    (succeeded : first.value = .ok value) :
    first >>= next = ⟨first.trace ++ (next value).trace, (next value).value⟩ := by
  simp only [bind, succeeded]

/-- The value of a sequence is the sequence of the values. -/
theorem bind_value (first : Traced ω ε α) (next : α → Traced ω ε β) :
    (first >>= next).value = first.value >>= fun value => (next value).value := by
  simp only [bind, Except.bind]
  cases first.value <;> rfl

/-- The same computation with its value seen through a function. -/
def mapValue (f : α → β) (computation : Traced ω ε α) : Traced ω ε β :=
  ⟨computation.trace, computation.value.map f⟩

/-- A sequence whose parts are seen through functions is itself seen through the last one. -/
theorem bind_mapValue {α' β' : Type} {first : Traced ω ε α} {first' : Traced ω ε α'}
    {next : α → Traced ω ε β} {next' : α' → Traced ω ε β'} {f : α → α'} {g : β → β'}
    (here : first' = first.mapValue f)
    (later : ∀ value, next' (f value) = (next value).mapValue g) :
    first' >>= next' = (first >>= next).mapValue g := by
  subst here
  simp only [bind, mapValue]
  cases first.value with
  | error failure => rfl
  | ok value => simp only [Except.map, later, mapValue]

/-- A common first part leaves only what follows it. -/
theorem bind_mapValue_same {β' : Type} {first : Traced ω ε α} {next : α → Traced ω ε β}
    {next' : α → Traced ω ε β'} {g : β → β'}
    (later : ∀ value, next' value = (next value).mapValue g) :
    first >>= next' = (first >>= next).mapValue g := by
  simp only [bind, mapValue]
  cases first.value with
  | error failure => rfl
  | ok value => simp only [later, mapValue]

end Traced
