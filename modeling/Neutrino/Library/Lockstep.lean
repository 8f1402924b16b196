import Mathlib
import Neutrino.Library.Run

/-! Machines whose calls succeed at most once a key, and two such machines driven by the same
calls, each with events of its own in between. -/

namespace Lockstep

open Run

variable {σ σ' ο ο' ι ι' κ κ' τ : Type}

structure Machine (σ ο ι : Type) where
  observe : σ → ο → σ
  call : σ → ι → σ
  succeeds : σ → ι → Bool

/-- On sound states, a call that names its key succeeds exactly where it is admitted and the key
is not marked; it then marks the key, and otherwise changes nothing. -/
structure Gated (machine : Machine σ ο ι) (sound : σ → Prop) (marked : σ → κ → Prop)
    (names : ι → κ → Prop) (admits : σ → ι → Prop) : Prop where
  observes : ∀ state event, sound state → sound (machine.observe state event) ∧
    ∀ key, marked (machine.observe state event) key ↔ marked state key
  succeeds : ∀ state input key, sound state → names input key →
    (machine.succeeds state input = true ↔ ¬marked state key ∧ admits state input)
  marks : ∀ state input key, sound state → names input key →
    machine.succeeds state input = true → sound (machine.call state input) ∧
      ∀ other, marked (machine.call state input) other ↔ marked state other ∨ key = other
  refuses : ∀ state input key, sound state → names input key →
    ¬machine.succeeds state input = true → machine.call state input = state

inductive Joint (ο ο' ι ι' : Type)
  | first (event : ο)
  | second (event : ο')
  | both (input : ι) (input' : ι')

def jointStep (machine : Machine σ ο ι) (machine' : Machine σ' ο' ι') (state : σ × σ') :
    Joint ο ο' ι ι' → σ × σ'
  | .first event => (machine.observe state.1 event, state.2)
  | .second event => (state.1, machine'.observe state.2 event)
  | .both input input' => (machine.call state.1 input, machine'.call state.2 input')

section Matched

variable (slot : τ → κ) (slot' : τ → κ') (marked : σ → κ → Prop) (marked' : σ' → κ' → Prop)

/-- Both machines have marked the slots of the same keys. -/
def Matched (passed : Set τ) (state : σ × σ') : Prop :=
  (∀ key, marked state.1 key ↔ ∃ name ∈ passed, slot name = key) ∧
    ∀ key, marked' state.2 key ↔ ∃ name ∈ passed, slot' name = key

end Matched

section Run

variable {machine : Machine σ ο ι} {machine' : Machine σ' ο' ι'} {sound : σ → Prop}
  {sound' : σ' → Prop} {slot : τ → κ} {slot' : τ → κ'} {marked : σ → κ → Prop}
  {marked' : σ' → κ' → Prop} {names : ι → κ → Prop} {names' : ι' → κ' → Prop}
  {admits : σ → ι → Prop} {admits' : σ' → ι' → Prop} {keys : Set τ}

/-- Two calls that name one key of the run, and are both admitted or both not. -/
def SameCall (slot : τ → κ) (slot' : τ → κ') (names : ι → κ → Prop) (names' : ι' → κ' → Prop)
    (admits : σ → ι → Prop) (admits' : σ' → ι' → Prop) (keys : Set τ) (state : σ × σ')
    (input : ι) (input' : ι') : Prop :=
  ∃ name ∈ keys, names input (slot name) ∧ names' input' (slot' name) ∧
    (admits state.1 input ↔ admits' state.2 input')

/-- The invariant of a run: sound states that have marked the same keys of the run. -/
def Synchronized (sound : σ → Prop) (sound' : σ' → Prop) (slot : τ → κ) (slot' : τ → κ')
    (marked : σ → κ → Prop) (marked' : σ' → κ' → Prop) (keys : Set τ) (state : σ × σ') : Prop :=
  sound state.1 ∧ sound' state.2 ∧ ∃ passed ⊆ keys, Matched slot slot' marked marked' passed state

theorem marked_slot {passed : Set τ} (injective : Set.InjOn slot keys) (within : passed ⊆ keys)
    {name : τ} (known : name ∈ keys) :
    (∃ other ∈ passed, slot other = slot name) ↔ name ∈ passed := by
  constructor
  · rintro ⟨other, listed, same⟩
    rwa [← injective (within listed) known same]
  · intro listed
    exact ⟨name, listed, rfl⟩

variable (gated : Gated machine sound marked names admits)
  (gated' : Gated machine' sound' marked' names' admits')
  (injective : Set.InjOn slot keys) (injective' : Set.InjOn slot' keys)

include gated gated' injective injective'

/-- Synchronized machines agree on a call. -/
theorem succeeds_iff {state : σ × σ'}
    (held : Synchronized sound sound' slot slot' marked marked' keys state) {input : ι}
    {input' : ι'} (same : SameCall slot slot' names names' admits admits' keys state input input') :
    machine.succeeds state.1 input = true ↔ machine'.succeeds state.2 input' = true := by
  obtain ⟨good, good', passed, within, first, second⟩ := held
  obtain ⟨name, known, named, named', admitted⟩ := same
  rw [gated.succeeds _ _ _ good named, gated'.succeeds _ _ _ good' named', first, second,
    marked_slot injective within known, marked_slot injective' within known, admitted]

theorem jointStep_synchronized {state : σ × σ'} {event : Joint ο ο' ι ι'}
    (same : ∀ input input', event = .both input input' →
      SameCall slot slot' names names' admits admits' keys state input input')
    (held : Synchronized sound sound' slot slot' marked marked' keys state) :
    Synchronized sound sound' slot slot' marked marked' keys
      (jointStep machine machine' state event) := by
  have synchronized := held
  obtain ⟨good, good', passed, within, first, second⟩ := held
  cases event with
  | first event =>
      obtain ⟨kept, unmoved⟩ := gated.observes state.1 event good
      exact ⟨kept, good', passed, within, fun key => (unmoved key).trans (first key), second⟩
  | second event =>
      obtain ⟨kept, unmoved⟩ := gated'.observes state.2 event good'
      exact ⟨good, kept, passed, within, first, fun key => (unmoved key).trans (second key)⟩
  | both input input' =>
      have agree := succeeds_iff gated gated' injective injective' synchronized
        (same input input' rfl)
      obtain ⟨name, known, named, named', _⟩ := same input input' rfl
      by_cases success : machine.succeeds state.1 input = true
      · obtain ⟨kept, marks⟩ := gated.marks _ _ _ good named success
        obtain ⟨kept', marks'⟩ := gated'.marks _ _ _ good' named' (agree.mp success)
        refine ⟨kept, kept', insert name passed, Set.insert_subset known within, ?_, ?_⟩
        · intro key
          rw [Set.exists_mem_insert, or_comm, ← first key]
          exact marks key
        · intro key
          rw [Set.exists_mem_insert, or_comm, ← second key]
          exact marks' key
      · have still := gated.refuses _ _ _ good named success
        have still' := gated'.refuses _ _ _ good' named' (mt agree.mpr success)
        rw [jointStep, still, still']
        exact ⟨good, good', passed, within, first, second⟩

/-- Machines that start with nothing marked are synchronized at every event of a run of same calls
and after it, and agree on each of the calls. -/
theorem lockstep {start : σ × σ'} {events : List (Joint ο ο' ι ι')} (good : sound start.1)
    (good' : sound' start.2) (unmarked : ∀ key, ¬marked start.1 key)
    (unmarked' : ∀ key, ¬marked' start.2 key)
    (same : ∀ visit ∈ visits (jointStep machine machine') start events, ∀ input input',
      visit.2 = .both input input' →
        SameCall slot slot' names names' admits admits' keys visit.1 input input') :
    (∀ visit ∈ visits (jointStep machine machine') start events,
      Synchronized sound sound' slot slot' marked marked' keys visit.1) ∧
    (∀ visit ∈ visits (jointStep machine machine') start events, ∀ input input',
      visit.2 = .both input input' →
        (machine.succeeds visit.1.1 input = true ↔ machine'.succeeds visit.1.2 input' = true)) ∧
    Synchronized sound sound' slot slot' marked marked' keys
      (run (jointStep machine machine') start events) := by
  have base : Synchronized sound sound' slot slot' marked marked' keys start :=
    ⟨good, good', ∅, Set.empty_subset keys, fun key => by simp [unmarked],
      fun key => by simp [unmarked']⟩
  have stepped : ∀ visit ∈ visits (jointStep machine machine') start events,
      Synchronized sound sound' slot slot' marked marked' keys visit.1 →
        Synchronized sound sound' slot slot' marked marked' keys
          (jointStep machine machine' visit.1 visit.2) := fun visit visited =>
    jointStep_synchronized gated gated' injective injective' (same visit visited)
  have met := visits_where _ stepped base
  refine ⟨met, fun visit visited input input' both => ?_, run_visits _ stepped base⟩
  exact succeeds_iff gated gated' injective injective' (met visit visited)
    (same visit visited input input' both)

end Run

end Lockstep
