import Neutrino.BackendProjection
import Neutrino.Conservation

/-! The posting precondition of the backend projection: each posting leads to the success terminal
and meets no other terminal first. -/

namespace Neutrino.Projection

open Checked Relation SortOn

section Lifecycle

variable (plan : CoordinationPlan)

/-- A transition leads from one state to the next. -/
def Follows (state next : String) : Prop :=
  ∃ transition ∈ plan.lifecycleTransitions,
    transition.from = state ∧ transition.«to» = next

def FirstTerminal (path : List String) (terminal : String) : Prop :=
  path.find? (· ∈ terminalNames plan) = some terminal

/-- Success is reachable, and is the first terminal on every path that meets one. -/
def LeadsToSuccess (target : String) : Prop :=
  ReflTransGen (Follows plan) target plan.terminal.success ∧
  ∀ path, (target :: path).IsChain (Follows plan) → ∀ terminal,
    FirstTerminal plan (target :: path) terminal → terminal = plan.terminal.success

end Lifecycle

variable {plan : CoordinationPlan}

/-- A step of the search is a transition out of a state that is no terminal. -/
theorem mem_stateSuccessors {state next : String} :
    next ∈ stateSuccessors plan state ↔ state ∉ terminalNames plan ∧ Follows plan state next := by
  unfold stateSuccessors
  split
  next terminal => simp [terminal]
  next open_ =>
    simp only [List.mem_map, List.mem_filter, decide_eq_true_eq, open_, not_false_eq_true, true_and,
      Follows]
    exact ⟨fun ⟨transition, ⟨listed, source⟩, target⟩ => ⟨transition, listed, source, target⟩,
      fun ⟨transition, listed, source, target⟩ => ⟨transition, ⟨listed, source⟩, target⟩⟩

theorem stateSuccessors_inside (state : String) (some : stateSuccessors plan state ≠ []) :
    state ∈ plan.lifecycleTransitions.map (·.from) := by
  obtain ⟨next, listed⟩ := List.exists_mem_of_ne_nil _ some
  obtain ⟨_, transition, declared, source, _⟩ := mem_stateSuccessors.mp listed
  exact List.mem_map.mpr ⟨transition, declared, source⟩

theorem mem_reachableTerminals {start terminal : String} :
    terminal ∈ reachableTerminals plan start ↔ terminal ∈ terminalNames plan ∧
      ReflTransGen (fun state next => next ∈ stateSuccessors plan state) start terminal := by
  have names : ∀ names : List String, terminal ∈ FirstBy.firstBy id names ↔ terminal ∈ names := by
    intro names
    have mapped := @FirstBy.mem_map_firstBy _ _ _ id names terminal
    simpa using mapped
  rw [reachableTerminals, mem_sortOn, names, List.mem_filter, decide_eq_true_eq,
    Reach.mem_reach stateSuccessors_inside]

/-- A path up to its first terminal is one the search follows. -/
theorem searched_of_path {start terminal : String} {path : List String}
    (chain : (start :: path).IsChain (Follows plan))
    (first : FirstTerminal plan (start :: path) terminal) :
    ReflTransGen (fun state next => next ∈ stateSuccessors plan state) start terminal := by
  induction path generalizing start with
  | nil =>
      rw [FirstTerminal, List.find?_singleton] at first
      split at first
      · cases first
        exact .refl
      · cases first
  | cons next path ih =>
      rw [List.isChain_cons_cons] at chain
      rw [FirstTerminal, List.find?_cons] at first
      split at first
      next => cases first; exact .refl
      next notYet =>
        have step := mem_stateSuccessors.mpr ⟨by simpa using notYet, chain.1⟩
        exact .head step (ih chain.2 first)

/-- What the search follows to a terminal is a path whose first terminal it is. -/
theorem path_of_searched {start terminal : String} (declared : terminal ∈ terminalNames plan)
    (searched : ReflTransGen (fun state next => next ∈ stateSuccessors plan state) start terminal) :
    ∃ path, (start :: path).IsChain (Follows plan) ∧ FirstTerminal plan (start :: path) terminal := by
  induction searched using ReflTransGen.head_induction_on with
  | refl => exact ⟨[], List.isChain_singleton _, by simp [FirstTerminal, declared]⟩
  | @head start next step _ ih =>
      obtain ⟨path, chain, first⟩ := ih
      obtain ⟨open_, follows⟩ := mem_stateSuccessors.mp step
      refine ⟨next :: path, List.isChain_cons_cons.mpr ⟨follows, chain⟩, ?_⟩
      rw [FirstTerminal, List.find?_cons, decide_eq_false open_]
      exact first

/-- The terminals found are success alone exactly where every path leads to it first. -/
theorem leadsToSuccess_iff (named : plan.terminal.success ≠ "") {target : String} :
    LeadsToSuccess plan target ↔
      (∀ terminal ∈ reachableTerminals plan target, terminal = plan.terminal.success) ∧
        plan.terminal.success ∈ reachableTerminals plan target := by
  have declared : plan.terminal.success ∈ terminalNames plan := by
    simp [terminalNames, terminals, named]
  simp only [mem_reachableTerminals]
  constructor
  · rintro ⟨reachable, firsts⟩
    refine ⟨fun terminal ⟨known, searched⟩ => ?_, declared, ?_⟩
    · obtain ⟨path, chain, first⟩ := path_of_searched known searched
      exact firsts path chain terminal first
    · obtain ⟨path, chain, last⟩ := List.exists_isChain_cons_of_relationReflTransGen reachable
      have met : ((target :: path).find? (· ∈ terminalNames plan)).isSome = true := by
        rw [List.find?_isSome]
        refine ⟨plan.terminal.success, ?_, by simpa using declared⟩
        rw [← last]
        exact List.getLast_mem _
      obtain ⟨terminal, first⟩ := Option.isSome_iff_exists.mp met
      obtain rfl := firsts path chain terminal first
      exact searched_of_path chain first
  · rintro ⟨only, _, searched⟩
    refine ⟨?_, ?_⟩
    · refine Relation.ReflTransGen.mono ?_ _ _ searched
      exact fun state next step => (mem_stateSuccessors.mp step).2
    · intro path chain terminal first
      have known : terminal ∈ terminalNames plan := by
        simpa using List.find?_some first
      exact only terminal ⟨known, searched_of_path chain first⟩

theorem checkPostingOutcome_ok (named : plan.terminal.success ≠ "")
    (transition : LifecycleTransitionPolicy) :
    checkPostingOutcome plan transition = .ok () ↔
      ("post" ∈ transition.effects → LeadsToSuccess plan transition.«to») := by
  unfold checkPostingOutcome
  by_cases posting : "post" ∈ transition.effects
  · simp only [posts, posting, decide_true, if_true, forall_const]
    rw [leadsToSuccess_iff named]
    split
    next terminal other =>
      have reached := List.mem_of_find?_eq_some other
      have different : terminal ≠ plan.terminal.success := by simpa using List.find?_some other
      exact iff_of_false (by simp) fun ⟨only, _⟩ => different (only terminal reached)
    next none =>
      have only : ∀ terminal ∈ reachableTerminals plan transition.«to»,
          terminal = plan.terminal.success := by simpa using none
      rw [require_ok]
      exact ⟨fun found => ⟨only, found⟩, fun ⟨_, found⟩ => found⟩
  · simp [posts, posting]

/-- With a success terminal, the precondition accepts exactly the plans whose postings all lead to
success first; and the search behind it ends on every lifecycle graph. -/
theorem posting_precondition_exact (named : plan.terminal.success ≠ "") :
    (checkPostingOutcomes plan = .ok () ↔ ∀ transition ∈ plan.lifecycleTransitions,
      "post" ∈ transition.effects → LeadsToSuccess plan transition.«to») ∧
    ∀ start, ∃ rounds, (Reach.advance (stateSuccessors plan))^[rounds] ([start], []) =
      ([], Reach.reach (stateSuccessors plan) (plan.lifecycleTransitions.map (·.from)) start) := by
  constructor
  · rw [checkPostingOutcomes, if_neg named, each_ok]
    simp only [checkPostingOutcome_ok named]
  · intro start
    refine ⟨_, Prod.ext (Reach.rounds_end stateSuccessors_inside _ [start] [] le_rfl) ?_⟩
    exact (Reach.search_eq_rounds _ _ _).symm

def plainTransition (name source target : String) (effects : List String) :
    LifecycleTransitionPolicy :=
  ⟨name, source, target, effects, [], "reject", none⟩

/-- A lifecycle that may return to its start before it settles. -/
def retried : CoordinationPlan :=
  { specPlan (paymentSpec [] none none) with
    lifecycleTransitions := [plainTransition "settle" "open" "paid" ["post"],
      plainTransition "retry" "paid" "open" [], plainTransition "close" "paid" "settled" []] }

theorem retried_leads_to_success : LeadsToSuccess retried "paid" :=
  (posting_precondition_exact (show retried.terminal.success ≠ "" by decide +kernel)).1.mp
    (by decide +kernel) (plainTransition "settle" "open" "paid" ["post"]) (by simp [retried])
    (by simp [plainTransition])

end Neutrino.Projection
