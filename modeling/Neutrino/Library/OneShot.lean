import Neutrino.Library.Run

/-! Registers that are set at most once: each key takes the first record that is offered for it
and keeps it. -/

namespace OneShot

open Run

variable {σ ι κ ρ : Type} [DecidableEq κ]

/-- A step that sets the register of its input's key, where it is unset and the input offers a
record, and no other register. -/
def SetsOnce (step : σ → ι → σ) (recorded : σ → κ → Option ρ) (key : ι → κ)
    (offers : ι → Option ρ) : Prop :=
  ∀ state input k, recorded (step state input) k =
    (recorded state k).or (if key input = k then offers input else none)

variable {step : σ → ι → σ} {recorded : σ → κ → Option ρ} {key : ι → κ}
  {offers : ι → Option ρ} (once : SetsOnce step recorded key offers)

include once

/-- After a run a register that was unset holds the first record offered for its key. -/
theorem recorded_run (start : σ) (inputs : List ι) (k : κ) :
    recorded (run step start inputs) k =
      (recorded start k).or (inputs.findSome? fun input =>
        if key input = k then offers input else none) := by
  induction inputs generalizing start with
  | nil => simp
  | cons input rest ih =>
      rw [run_cons, ih, once, Option.or_assoc, List.findSome?_cons]
      cases (if key input = k then offers input else none) <;> simp

theorem isSome_recorded_run (start : σ) (unset : ∀ k, recorded start k = none) (inputs : List ι)
    (k : κ) : (recorded (run step start inputs) k).isSome = true ↔
      ∃ input ∈ inputs, key input = k ∧ (offers input).isSome = true := by
  rw [recorded_run once, unset, Option.none_or, List.findSome?_isSome_iff]
  constructor
  · rintro ⟨input, listed, offered⟩
    by_cases same : key input = k
    · rw [if_pos same] at offered
      exact ⟨input, listed, same, offered⟩
    · simp [same] at offered
  · rintro ⟨input, listed, same, offered⟩
    exact ⟨input, listed, by rwa [if_pos same]⟩

/-- What a register holds was offered for its key. -/
theorem recorded_run_offered (start : σ) (unset : ∀ k, recorded start k = none)
    {inputs : List ι} {k : κ} {value : ρ} (held : recorded (run step start inputs) k = some value) :
    ∃ input ∈ inputs, key input = k ∧ offers input = some value := by
  rw [recorded_run once, unset, Option.none_or, List.findSome?_eq_some_iff] at held
  obtain ⟨_, input, _, rfl, offered, _⟩ := held
  by_cases same : key input = k
  · rw [if_pos same] at offered
    exact ⟨input, by simp, same, offered⟩
  · simp [same] at offered

/-- A register that is set keeps its record in every later run. -/
theorem recorded_run_kept (start : σ) (inputs : List ι) {k : κ} {value : ρ}
    (held : recorded start k = some value) :
    recorded (run step start inputs) k = some value := by
  rw [recorded_run once, held, Option.some_or]

omit once

/-! Gates, which refuse an input or change the state. -/

variable {ε : Type}

/-- An input that a gate refuses leaves the state as it was. -/
def attempt (gate : σ → ι → Except ε σ) (state : σ) (input : ι) : σ :=
  match gate state input with
  | .ok next => next
  | .error _ => state

/-- A gate that lets an input pass exactly where its key's register is unset and it offers a
record, and then sets that register and no other. -/
structure Register (gate : σ → ι → Except ε σ) (recorded : σ → κ → Option ρ) (key : ι → κ)
    (offers : ι → Option ρ) : Prop where
  sets : ∀ state input next, gate state input = .ok next →
    recorded state (key input) = none ∧ ∃ value, offers input = some value ∧
      ∀ k, recorded next k = if key input = k then some value else recorded state k
  admits : ∀ state input value, recorded state (key input) = none → offers input = some value →
    ∃ next, gate state input = .ok next

variable {gate : σ → ι → Except ε σ} (register : Register gate recorded key offers)

include register

theorem Register.setsOnce : SetsOnce (attempt gate) recorded key offers := by
  intro state input k
  unfold attempt
  cases passed : gate state input with
  | ok next =>
      obtain ⟨unset, value, offered, written⟩ := register.sets state input next passed
      change recorded next k = _
      rw [written]
      split
      · rename_i same
        rw [← same, unset, offered, Option.none_or]
      · rw [Option.or_none]
  | error failure =>
      change recorded state k = _
      split
      · rename_i same
        subst same
        cases held : recorded state (key input) with
        | some value => rfl
        | none =>
            cases offered : offers input with
            | none => rfl
            | some value =>
                obtain ⟨next, accepted⟩ := register.admits state input value held offered
                rw [passed] at accepted
                cases accepted
      · rw [Option.or_none]

/-- An input whose register is set is refused and changes nothing. -/
theorem Register.refuses {state : σ} {input : ι} {value : ρ}
    (held : recorded state (key input) = some value) :
    (∃ failure, gate state input = .error failure) ∧ attempt gate state input = state := by
  unfold attempt
  cases passed : gate state input with
  | ok next =>
      obtain ⟨unset, _⟩ := register.sets state input next passed
      rw [held] at unset
      cases unset
  | error failure => exact ⟨⟨failure, rfl⟩, rfl⟩

end OneShot
