import Mathlib

/-! Computations that visit places in order and stop at the first one at fault. Some faults are
allowed for; a place of another kind ends the computation in a way that is not. -/

namespace FirstFault

variable {ν ε α β : Type}

/-- What is known of places and failures. -/
structure Kinds (ν ε : Type) where
  faulty : ν → Prop
  foreign : ν → Prop
  allowed : ε → Prop

variable {kinds : Kinds ν ε} {exact : α → Prop} {exact' : β → Prop} {places places' : List ν}

def Kinds.Clear (kinds : Kinds ν ε) (place : ν) : Prop :=
  ¬kinds.faulty place ∧ ¬kinds.foreign place

/-- The failure tells what is wrong with the place. -/
def Kinds.Explains (kinds : Kinds ν ε) (place : ν) (failure : ε) : Prop :=
  (kinds.faulty place ∧ ¬kinds.foreign place ∧ kinds.allowed failure) ∨
    (kinds.foreign place ∧ ¬kinds.allowed failure)

/-- A value where every place is clear, or the failure of the first place that is not. -/
inductive Walk (kinds : Kinds ν ε) (exact : α → Prop) (places : List ν) : Except ε α → Prop
  | ok {value : α} (right : exact value) (all : ∀ place ∈ places, kinds.Clear place) :
      Walk kinds exact places (.ok value)
  | error {failure : ε} {before : List ν} {place : ν} {after : List ν}
      (split : places = before ++ place :: after) (earlier : ∀ other ∈ before, kinds.Clear other)
      (why : kinds.Explains place failure) : Walk kinds exact places (.error failure)

theorem Walk.bind {first : Except ε α} {next : α → Except ε β}
    (here : Walk kinds exact places first)
    (later : ∀ value, exact value → Walk kinds exact' places' (next value)) :
    Walk kinds exact' (places ++ places') (first >>= next) := by
  cases here with
  | @ok value right all =>
      change Walk _ _ _ (next value)
      have walked := later value right
      generalize next value = outcome at walked ⊢
      cases walked with
      | ok right' all' =>
          exact .ok right' fun place listed =>
            (List.mem_append.mp listed).elim (all place) (all' place)
      | error split earlier why =>
          refine .error (by rw [split, ← List.append_assoc]) (fun other listed => ?_) why
          exact (List.mem_append.mp listed).elim (all other) (earlier other)
  | error split earlier why =>
      exact .error (by rw [split, List.append_assoc, List.cons_append]) earlier why

/-- One place, visited without a fault. -/
theorem Walk.one {place : ν} {value : α} (right : exact value) (here : kinds.Clear place) :
    Walk kinds exact [place] (.ok value) :=
  .ok right (by simpa using here)

/-- One place at fault. -/
theorem Walk.fault {place : ν} {failure : ε} (why : kinds.Explains place failure) :
    Walk kinds exact [place] (.error failure) :=
  .error (List.nil_append _).symm (by simp) why

/-- The exact result, without any fault; or a failure that is allowed for, with one. -/
inductive Sound (kinds : Kinds ν ε) (exact : α → Prop) (places : List ν) : Except ε α → Prop
  | ok {value : α} (right : exact value) (none : ∀ place ∈ places, ¬kinds.faulty place) :
      Sound kinds exact places (.ok value)
  | error {failure : ε} (allowed : kinds.allowed failure) (some : ∃ place ∈ places, kinds.faulty place) :
      Sound kinds exact places (.error failure)

/-- Every foreign place comes after a fault. -/
def Shielded (kinds : Kinds ν ε) (places : List ν) : Prop :=
  ∀ before place after, places = before ++ place :: after → kinds.foreign place →
    ∃ other ∈ before, kinds.faulty other

theorem Walk.sound_iff {outcome : Except ε α} (walk : Walk kinds exact places outcome) :
    Sound kinds exact places outcome ↔ Shielded kinds places := by
  cases walk with
  | ok right all =>
      refine iff_of_true (.ok right fun place listed => (all place listed).1) ?_
      intro before place after split foreign
      exact absurd foreign (all place (by simp [split])).2
  | @error failure before place after split earlier why =>
      rcases why with ⟨faulty, plain, allowed⟩ | ⟨foreign, refused⟩
      · refine iff_of_true (.error allowed ⟨place, by simp [split], faulty⟩) ?_
        intro before' place' after' split' foreign
        rcases List.append_eq_append_iff.mp (split.symm.trans split') with
          ⟨between, rfl, rest⟩ | ⟨between, rfl, rest⟩
        · cases between with
          | nil =>
              obtain ⟨rfl, _⟩ := List.cons.inj rest
              exact absurd foreign plain
          | cons other between =>
              obtain ⟨rfl, _⟩ := List.cons.inj rest
              exact ⟨place, by simp, faulty⟩
        · cases between with
          | nil =>
              obtain ⟨rfl, _⟩ := List.cons.inj rest
              exact absurd foreign plain
          | cons other between =>
              obtain ⟨rfl, _⟩ := List.cons.inj rest
              exact absurd foreign (earlier _ (by simp)).2
      · refine iff_of_false ?_ fun shielded => ?_
        · rintro ⟨⟩
          exact refused ‹_›
        · obtain ⟨other, listed, faulty⟩ := shielded before place after split foreign
          exact (earlier other listed).1 faulty

end FirstFault
