import Mathlib

/-! Worklist search: the nodes seen are exactly those reachable from the start. -/

namespace Reach

variable {α : Type} [DecidableEq α]

/-- Takes nodes off the worklist; a node not seen before puts its successors on it. -/
def search (successors : α → List α) : Nat → List α → List α → List α
  | 0, _, seen => seen
  | _ + 1, [], seen => seen
  | fuel + 1, node :: stack, seen =>
      if node ∈ seen then search successors fuel stack seen
      else search successors fuel ((successors node).reverse ++ stack) (node :: seen)

/-- The successors of the nodes not yet seen. -/
def unexplored (successors : α → List α) (nodes seen : List α) : Nat :=
  ((nodes.filter (· ∉ seen)).map fun node => (successors node).length).sum

/-- What a search from one node sees, where `nodes` are all that have successors. -/
def reach (successors : α → List α) (nodes : List α) (start : α) : List α :=
  search successors (1 + unexplored successors nodes []) [start] []

variable {successors : α → List α} {nodes : List α}

theorem unexplored_le (seen : List α) (node : α) :
    unexplored successors nodes (node :: seen) ≤ unexplored successors nodes seen := by
  induction nodes with
  | nil => exact Nat.le_refl _
  | cons first rest ih =>
      simp only [unexplored, List.filter_cons, List.mem_cons] at ih ⊢
      by_cases met : first ∈ seen
      · simpa [met] using ih
      · by_cases same : first = node
        · subst same
          simp [met] at ih ⊢
          omega
        · simp [met, same] at ih ⊢
          omega

/-- Seeing a node for the first time takes its successors off what is left. -/
theorem unexplored_cons {seen : List α} {node : α} (listed : node ∈ nodes) (fresh : node ∉ seen) :
    unexplored successors nodes (node :: seen) + (successors node).length ≤
      unexplored successors nodes seen := by
  obtain ⟨before, after, rfl⟩ := List.append_of_mem listed
  have earlier : unexplored successors before (node :: seen) ≤ unexplored successors before seen :=
    unexplored_le seen node
  have later : unexplored successors after (node :: seen) ≤ unexplored successors after seen :=
    unexplored_le seen node
  simp only [unexplored] at earlier later ⊢
  simp only [List.filter_append, List.filter_cons, fresh, List.mem_cons_self, not_true,
    decide_false, decide_true, not_false_eq_true, Bool.false_eq_true, if_false, if_true,
    List.map_append, List.map_cons, List.sum_append, List.sum_cons]
  omega

/-- Seen nodes have their successors seen or on the worklist. -/
def Closed (successors : α → List α) (stack seen : List α) : Prop :=
  ∀ node ∈ seen, ∀ next ∈ successors node, next ∈ seen ∨ next ∈ stack

theorem search_spec (inside : ∀ node, successors node ≠ [] → node ∈ nodes) (fuel : Nat)
    (stack seen : List α) (closed : Closed successors stack seen)
    (enough : stack.length + unexplored successors nodes seen ≤ fuel) :
    Closed successors [] (search successors fuel stack seen) ∧
      (∀ node, node ∈ seen ∨ node ∈ stack → node ∈ search successors fuel stack seen) ∧
      ∀ node ∈ search successors fuel stack seen, node ∈ seen ∨
        ∃ start ∈ stack, Relation.ReflTransGen (fun node next => next ∈ successors node)
          start node := by
  induction fuel generalizing stack seen with
  | zero =>
      have empty : stack = [] := List.eq_nil_of_length_eq_zero (by omega)
      subst empty
      exact ⟨closed, fun node listed => by simpa [search] using listed, fun node listed => .inl listed⟩
  | succ fuel ih =>
      cases stack with
      | nil =>
          exact ⟨closed, fun node listed => by simpa [search] using listed,
            fun node listed => .inl listed⟩
      | cons node stack =>
          simp only [search]
          split
          · rename_i met
            have shut : Closed successors stack seen := by
              intro other otherSeen next follows
              rcases closed other otherSeen next follows with here | pending
              · exact .inl here
              · rcases List.mem_cons.mp pending with rfl | later
                · exact .inl met
                · exact .inr later
            simp only [List.length_cons] at enough
            obtain ⟨done, kept, sound⟩ := ih stack seen shut (by omega)
            refine ⟨done, fun other listed => kept other ?_, fun other listed => ?_⟩
            · rcases listed with here | pending
              · exact .inl here
              · rcases List.mem_cons.mp pending with rfl | later
                · exact .inl met
                · exact .inr later
            · exact (sound other listed).imp_right fun ⟨start, pending, path⟩ =>
                ⟨start, List.mem_cons_of_mem _ pending, path⟩
          · rename_i fresh
            have shut : Closed successors ((successors node).reverse ++ stack) (node :: seen) := by
              intro other otherSeen next follows
              rcases List.mem_cons.mp otherSeen with rfl | earlier
              · exact .inr (List.mem_append_left _ (List.mem_reverse.mpr follows))
              · rcases closed other earlier next follows with here | pending
                · exact .inl (List.mem_cons_of_mem _ here)
                · rcases List.mem_cons.mp pending with rfl | later
                  · exact .inl List.mem_cons_self
                  · exact .inr (List.mem_append_right _ later)
            have smaller : (successors node).length + unexplored successors nodes (node :: seen) ≤
                unexplored successors nodes seen := by
              by_cases none : successors node = []
              · simpa [none] using unexplored_le seen node
              · have less : unexplored successors nodes (node :: seen) + (successors node).length ≤
                    unexplored successors nodes seen := unexplored_cons (inside node none) fresh
                omega
            simp only [List.length_cons] at enough
            obtain ⟨done, kept, sound⟩ := ih ((successors node).reverse ++ stack) (node :: seen) shut
              (by simp only [List.length_append, List.length_reverse]; omega)
            refine ⟨done, fun other listed => kept other ?_, fun other listed => ?_⟩
            · rcases listed with here | pending
              · exact .inl (List.mem_cons_of_mem _ here)
              · rcases List.mem_cons.mp pending with rfl | later
                · exact .inl List.mem_cons_self
                · exact .inr (List.mem_append_right _ later)
            · rcases sound other listed with here | ⟨start, pending, path⟩
              · rcases List.mem_cons.mp here with rfl | earlier
                · exact .inr ⟨other, List.mem_cons_self, .refl⟩
                · exact .inl earlier
              · rcases List.mem_append.mp pending with follows | later
                · exact .inr ⟨node, List.mem_cons_self,
                    .head (List.mem_reverse.mp follows) path⟩
                · exact .inr ⟨start, List.mem_cons_of_mem _ later, path⟩

/-- One round of the search on its worklist and the nodes seen. -/
def advance (successors : α → List α) : List α × List α → List α × List α
  | ([], seen) => ([], seen)
  | (node :: stack, seen) =>
      if node ∈ seen then (stack, seen)
      else ((successors node).reverse ++ stack, node :: seen)

theorem search_eq_rounds (fuel : Nat) (stack seen : List α) :
    search successors fuel stack seen = ((advance successors)^[fuel] (stack, seen)).2 := by
  induction fuel generalizing stack seen with
  | zero => rfl
  | succ fuel ih =>
      rw [Function.iterate_succ_apply]
      cases stack with
      | nil =>
          rw [search, advance, ← ih]
          cases fuel <;> rfl
      | cons node stack =>
          rw [search, advance]
          split <;> exact ih _ _

/-- The rounds leave nothing on the worklist. -/
theorem rounds_end (inside : ∀ node, successors node ≠ [] → node ∈ nodes) (fuel : Nat)
    (stack seen : List α) (enough : stack.length + unexplored successors nodes seen ≤ fuel) :
    ((advance successors)^[fuel] (stack, seen)).1 = [] := by
  induction fuel generalizing stack seen with
  | zero =>
      have none : stack.length = 0 := by omega
      exact List.eq_nil_of_length_eq_zero none
  | succ fuel ih =>
      rw [Function.iterate_succ_apply]
      cases stack with
      | nil =>
          have done : ∀ rounds, (advance successors)^[rounds] ([], seen) = ([], seen) := fun rounds =>
            Function.iterate_fixed rfl rounds
          rw [advance, done]
      | cons node stack =>
          rw [List.length_cons] at enough
          rw [advance]
          split
          · exact ih _ _ (by omega)
          · rename_i fresh
            refine ih _ _ ?_
            rw [List.length_append, List.length_reverse]
            by_cases none : successors node = []
            · have shrinks : unexplored successors nodes (node :: seen) ≤
                  unexplored successors nodes seen := unexplored_le seen node
              simp only [none, List.length_nil]
              omega
            · have shrinks : unexplored successors nodes (node :: seen) + (successors node).length ≤
                  unexplored successors nodes seen := unexplored_cons (inside node none) fresh
              omega

/-- The search sees exactly the reachable nodes. -/
theorem mem_reach (inside : ∀ node, successors node ≠ [] → node ∈ nodes) {start node : α} :
    node ∈ reach successors nodes start ↔
      Relation.ReflTransGen (fun node next => next ∈ successors node) start node := by
  obtain ⟨done, kept, sound⟩ := search_spec inside (1 + unexplored successors nodes []) [start] []
    (by simp [Closed]) (by simp)
  constructor
  · intro listed
    simpa using sound node listed
  · intro path
    induction path with
    | refl => exact kept start (by simp)
    | tail _ follows ih => exact (done _ ih _ follows).resolve_right List.not_mem_nil

end Reach
