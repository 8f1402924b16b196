import Mathlib

/-! Runs of a deterministic machine: the state after a list of inputs, the state each input
meets, and how a fact about one step becomes a fact about every run. -/

namespace Run

variable {σ ι : Type} (step : σ → ι → σ)

/-- The state a list of inputs leads to. -/
def run (start : σ) (inputs : List ι) : σ := inputs.foldl step start

def Reachable (start state : σ) : Prop := ∃ inputs, run step start inputs = state

/-- Every input of a run with the state it met. -/
def visits (start : σ) : List ι → List (σ × ι)
  | [] => []
  | input :: rest => (start, input) :: visits (step start input) rest

@[simp] theorem run_nil (start : σ) : run step start [] = start := rfl

@[simp] theorem run_cons (start : σ) (input : ι) (rest : List ι) :
    run step start (input :: rest) = run step (step start input) rest := rfl

theorem run_append (start : σ) (first second : List ι) :
    run step start (first ++ second) = run step (run step start first) second := by
  simp [run]

theorem visits_snd (start : σ) (inputs : List ι) :
    (visits step start inputs).map Prod.snd = inputs := by
  induction inputs generalizing start with
  | nil => rfl
  | cons input rest ih => simp [visits, ih]

theorem mem_of_visit {step : σ → ι → σ} {start : σ} {inputs : List ι} {visit : σ × ι}
    (visited : visit ∈ visits step start inputs) : visit.2 ∈ inputs := by
  rw [← visits_snd step start inputs]
  exact List.mem_map_of_mem visited

theorem reachable_start (start : σ) : Reachable step start start := ⟨[], rfl⟩

theorem reachable_run {start state : σ} (reached : Reachable step start state)
    (inputs : List ι) : Reachable step start (run step state inputs) := by
  obtain ⟨earlier, rfl⟩ := reached
  exact ⟨earlier ++ inputs, run_append step start earlier inputs⟩

variable {step}

/-- What every input of a run preserves, the run preserves. -/
theorem run_preserves (invariant : σ → Prop) {inputs : List ι}
    (preserved : ∀ state, ∀ input ∈ inputs, invariant state → invariant (step state input))
    {start : σ} (base : invariant start) : invariant (run step start inputs) := by
  induction inputs generalizing start with
  | nil => exact base
  | cons input rest ih =>
      exact ih (fun state other listed => preserved state other (List.mem_cons_of_mem _ listed))
        (preserved start input List.mem_cons_self base)

/-- What each input preserves of the state it meets, the run preserves. -/
theorem run_visits (invariant : σ → Prop) {start : σ} {inputs : List ι}
    (preserved : ∀ visit ∈ visits step start inputs,
      invariant visit.1 → invariant (step visit.1 visit.2))
    (base : invariant start) : invariant (run step start inputs) := by
  induction inputs generalizing start with
  | nil => exact base
  | cons input rest ih =>
      exact ih (fun visit later => preserved visit (List.mem_cons_of_mem _ later))
        (preserved (start, input) List.mem_cons_self base)

/-- Every input meets a state of the invariant. -/
theorem visits_where (invariant : σ → Prop) {start : σ} {inputs : List ι}
    (preserved : ∀ visit ∈ visits step start inputs,
      invariant visit.1 → invariant (step visit.1 visit.2))
    (base : invariant start) : ∀ visit ∈ visits step start inputs, invariant visit.1 := by
  induction inputs generalizing start with
  | nil => simp [visits]
  | cons input rest ih =>
      rw [visits] at preserved ⊢
      obtain ⟨first, later⟩ := List.forall_mem_cons.mp preserved
      exact List.forall_mem_cons.mpr ⟨base, ih later (first base)⟩

section Invariant

variable (invariant : σ → Prop)
  (preserved : ∀ state input, invariant state → invariant (step state input))

include preserved

theorem run_invariant {start : σ} (base : invariant start) (inputs : List ι) :
    invariant (run step start inputs) :=
  run_preserves invariant (fun state input _ => preserved state input) base

theorem reachable_invariant {start state : σ} (base : invariant start)
    (reached : Reachable step start state) : invariant state := by
  obtain ⟨inputs, rfl⟩ := reached
  exact run_invariant invariant preserved base inputs

theorem visits_invariant {start : σ} (base : invariant start) {inputs : List ι}
    {visit : σ × ι} (visited : visit ∈ visits step start inputs) : invariant visit.1 := by
  induction inputs generalizing start with
  | nil => simp [visits] at visited
  | cons input rest ih =>
      rcases List.mem_cons.mp visited with rfl | later
      · exact base
      · exact ih (preserved start input base) later

end Invariant

variable (step)

/-- An event that needs an unset flag and sets it, on a flag that no step clears, happens at
most once in a run. -/
theorem at_most_once (event : σ → ι → Prop) [∀ state input, Decidable (event state input)]
    (done : σ → Prop) (fresh : ∀ state input, event state input → ¬done state)
    (marks : ∀ state input, event state input → done (step state input))
    (kept : ∀ state input, done state → done (step state input)) (start : σ)
    (inputs : List ι) :
    ((visits step start inputs).filter fun visit => event visit.1 visit.2).length ≤ 1 := by
  have silent : ∀ inputs start, done start →
      ((visits step start inputs).filter fun visit => event visit.1 visit.2) = [] := by
    intro inputs
    induction inputs with
    | nil => intro start _; rfl
    | cons input rest ih =>
        intro start finished
        have absent : ¬event start input := fun happened => fresh start input happened finished
        simp only [visits, List.filter_cons, absent, decide_false, Bool.false_eq_true,
          if_false]
        exact ih _ (kept start input finished)
  induction inputs generalizing start with
  | nil => simp [visits]
  | cons input rest ih =>
      by_cases happened : event start input
      · have later := silent rest _ (marks start input happened)
        simp [visits, happened, later]
      · simpa [visits, happened] using ih (step start input)

/-- Two visits of such an event are one and the same. -/
theorem visit_unique (event : σ → ι → Prop) [∀ state input, Decidable (event state input)]
    (done : σ → Prop) (fresh : ∀ state input, event state input → ¬done state)
    (marks : ∀ state input, event state input → done (step state input))
    (kept : ∀ state input, done state → done (step state input)) {start : σ}
    {inputs : List ι} {first second : σ × ι} (visited : first ∈ visits step start inputs)
    (visited' : second ∈ visits step start inputs) (happened : event first.1 first.2)
    (happened' : event second.1 second.2) : first = second := by
  have once := at_most_once step event done fresh marks kept start inputs
  have listed : first ∈ (visits step start inputs).filter fun visit => event visit.1 visit.2 :=
    List.mem_filter.mpr ⟨visited, decide_eq_true happened⟩
  have listed' : second ∈ (visits step start inputs).filter fun visit => event visit.1 visit.2 :=
    List.mem_filter.mpr ⟨visited', decide_eq_true happened'⟩
  obtain ⟨index, bound, rfl⟩ := List.getElem_of_mem listed
  obtain ⟨index', bound', rfl⟩ := List.getElem_of_mem listed'
  obtain rfl : index = index' := by omega
  rfl

/-- What every step adds to a measure, a whole run adds up; only the counted steps add. -/
theorem run_total (measure : σ → Int) (gain : σ → ι → Int) (counted : σ → ι → Bool)
    (stepped : ∀ state input, measure (step state input) = measure state + gain state input)
    (idle : ∀ state input, counted state input = false → gain state input = 0) (start : σ)
    (inputs : List ι) :
    measure (run step start inputs) = measure start +
      (((visits step start inputs).filter fun visit => counted visit.1 visit.2).map
        fun visit => gain visit.1 visit.2).sum := by
  induction inputs generalizing start with
  | nil => simp [visits]
  | cons input rest ih =>
      rw [run_cons, ih, stepped]
      cases counts : counted start input with
      | true =>
          simp only [visits, List.filter_cons, counts, if_true, List.map_cons, List.sum_cons]
          omega
      | false =>
          simp only [visits, List.filter_cons, counts, Bool.false_eq_true, if_false,
            idle start input counts]
          omega

end Run
