import Mathlib

/-! Depth-first search for a cycle: nodes on the current path are met again exactly when the
graph has a cycle. -/

namespace CycleSearch

variable {α : Type}

/-- Visits nodes in turn, with the nodes finished so far, until one visit meets a cycle. -/
def visitAll (visit : List α → α → Bool × List α) : List α → List α → Bool × List α
  | finished, [] => (false, finished)
  | finished, node :: rest =>
      let visited := visit finished node
      if visited.1 then (true, visited.2) else visitAll visit visited.2 rest

/-- Visits a node below the nodes on the path to it. -/
def visit [DecidableEq α] (successors : α → List α) : Nat → List α → List α → α → Bool × List α
  | 0, _, finished, _ => (true, finished)
  | fuel + 1, path, finished, node =>
      if node ∈ path then (true, finished)
      else if node ∈ finished then (false, finished)
      else
        let visited := visitAll (visit successors fuel (node :: path)) finished (successors node)
        if visited.1 then visited else (false, node :: visited.2)

/-- Whether the search from each node meets a cycle; no path is longer than there are nodes. -/
def hasCycle [DecidableEq α] (successors : α → List α) (nodes : List α) : Bool :=
  (visitAll (visit successors (nodes.length + 1) []) [] nodes).1

variable {successors : α → List α}

/-- Each finished node has all its successors finished before it. -/
def Finished (successors : α → List α) : List α → Prop
  | [] => True
  | node :: rest => (∀ next ∈ successors node, next ∈ rest) ∧ Finished successors rest

theorem Finished.acc {finished : List α} (ordered : Finished successors finished) :
    ∀ node ∈ finished, Acc (fun next node => next ∈ successors node) node := by
  induction finished with
  | nil => simp
  | cons first rest ih =>
      intro node listed
      rcases List.mem_cons.mp listed with rfl | inRest
      · exact Acc.intro _ fun next follows => ih ordered.2 next (ordered.1 next follows)
      · exact ih ordered.2 node inRest

theorem visitAll_false {visit : List α → α → Bool × List α}
    (visits : ∀ finished node, Finished successors finished →
      (visit finished node).1 = false → Finished successors (visit finished node).2 ∧
        finished ⊆ (visit finished node).2 ∧ node ∈ (visit finished node).2)
    {finished nodes : List α} (ordered : Finished successors finished)
    (clear : (visitAll visit finished nodes).1 = false) :
    Finished successors (visitAll visit finished nodes).2 ∧
      finished ⊆ (visitAll visit finished nodes).2 ∧ nodes ⊆ (visitAll visit finished nodes).2 := by
  induction nodes generalizing finished with
  | nil => exact ⟨ordered, fun _ listed => listed, by simp⟩
  | cons node rest ih =>
      simp only [visitAll] at clear ⊢
      split at clear
      · simp at clear
      · rename_i passed
        rw [if_neg passed]
        obtain ⟨next, kept, here⟩ := visits finished node ordered (by simpa using passed)
        obtain ⟨last, grown, others⟩ := ih next clear
        refine ⟨last, fun _ listed => grown (kept listed), fun other listed => ?_⟩
        rcases List.mem_cons.mp listed with rfl | inRest
        · exact grown here
        · exact others inRest

theorem visit_false [DecidableEq α] (fuel : Nat) (path finished : List α) (node : α)
    (ordered : Finished successors finished)
    (clear : (visit successors fuel path finished node).1 = false) :
    Finished successors (visit successors fuel path finished node).2 ∧
      finished ⊆ (visit successors fuel path finished node).2 ∧
      node ∈ (visit successors fuel path finished node).2 := by
  induction fuel generalizing path finished node with
  | zero => simp [visit] at clear
  | succ fuel ih =>
      simp only [visit] at clear ⊢
      split at clear
      · simp at clear
      · rename_i offPath
        rw [if_neg offPath]
        split at clear
        · rename_i done
          rw [if_pos done]
          exact ⟨ordered, fun _ listed => listed, done⟩
        · rename_i fresh
          rw [if_neg fresh]
          split at clear
          · rename_i cyclic
            simp [cyclic] at clear
          · rename_i passed
            rw [if_neg passed]
            obtain ⟨last, kept, below⟩ := visitAll_false
              (fun finished node => ih (_ :: path) finished node) ordered (by simpa using passed)
            exact ⟨⟨fun next follows => below follows, last⟩,
              fun _ listed => List.mem_cons_of_mem _ (kept listed), List.mem_cons_self⟩

theorem visitAll_true {visit : List α → α → Bool × List α} {finished nodes : List α}
    (met : (visitAll visit finished nodes).1 = true) :
    ∃ node ∈ nodes, ∃ earlier, (visit earlier node).1 = true := by
  induction nodes generalizing finished with
  | nil => simp [visitAll] at met
  | cons node rest ih =>
      simp only [visitAll] at met
      split at met
      · rename_i here
        exact ⟨node, List.mem_cons_self, finished, here⟩
      · obtain ⟨other, listed, earlier, there⟩ := ih met
        exact ⟨other, List.mem_cons_of_mem _ listed, earlier, there⟩

/-- A path read backwards: each node follows the next. -/
abbrev Path (successors : α → List α) (path : List α) : Prop :=
  path.IsChain fun next node => next ∈ successors node

theorem Path.reaches {path : List α} {node : α} (chain : Path successors (node :: path)) :
    ∀ earlier ∈ path, Relation.TransGen (fun node next => next ∈ successors node) earlier node := by
  have closed : (node :: path).IsChain fun next node =>
      Relation.TransGen (fun node next => next ∈ successors node) node next :=
    chain.imp fun _ _ follows => Relation.TransGen.single follows
  have ordered := List.isChain_iff_pairwise.mp closed
  exact (List.pairwise_cons.mp ordered).1

theorem visit_true [DecidableEq α] {nodes : List α} (inside : ∀ node ∈ nodes, successors node ⊆ nodes)
    (fuel : Nat) (path finished : List α) (node : α) (listed : node ∈ nodes)
    (chain : Path successors (node :: path)) (nodup : path.Nodup) (within : path ⊆ nodes)
    (enough : nodes.length < fuel + path.length)
    (met : (visit successors fuel path finished node).1 = true) :
    ∃ start, Relation.TransGen (fun node next => next ∈ successors node) start start := by
  induction fuel generalizing path finished node with
  | zero =>
      have short := (List.subperm_of_subset nodup within).length_le
      omega
  | succ fuel ih =>
      simp only [visit] at met
      split at met
      · rename_i again
        exact ⟨node, chain.reaches node again⟩
      · rename_i offPath
        split at met
        · simp at met
        · split at met
          · rename_i cyclic
            obtain ⟨next, follows, earlier, there⟩ := visitAll_true cyclic
            refine ih (node :: path) earlier next (inside node listed follows)
              (List.isChain_cons_cons.mpr ⟨follows, chain⟩) (List.nodup_cons.mpr ⟨offPath, nodup⟩)
              (List.cons_subset.mpr ⟨listed, within⟩) ?_ there
            simp only [List.length_cons]
            omega
          · simp at met

/-- The search meets a cycle exactly when some node follows itself. -/
theorem hasCycle_iff [DecidableEq α] {nodes : List α} (inside : ∀ node, successors node ⊆ nodes) :
    hasCycle successors nodes = false ↔
      ∀ node, ¬Relation.TransGen (fun node next => next ∈ successors node) node node := by
  constructor
  · intro clear node cycle
    obtain ⟨ordered, _, all⟩ := visitAll_false
      (fun finished node => visit_false (nodes.length + 1) [] finished node)
      (show Finished successors [] from trivial) clear
    have listed : node ∈ nodes := by
      obtain ⟨before, _, follows⟩ := Relation.TransGen.tail'_iff.mp cycle
      exact inside before follows
    have accessible := ordered.acc node (all listed)
    have backwards : Relation.TransGen (fun next node => next ∈ successors node) node node :=
      Relation.transGen_swap.mp cycle
    exact Acc.rec (fun _ _ ih again => ih _ again again) accessible.transGen backwards
  · intro acyclic
    by_contra found
    obtain ⟨node, listed, earlier, met⟩ := visitAll_true (by simpa [hasCycle] using found)
    obtain ⟨start, cycle⟩ := visit_true (fun node _ => inside node) _ [] earlier node listed
      (List.isChain_singleton _) List.nodup_nil (List.nil_subset _) (by simp) met
    exact acyclic start cycle

end CycleSearch
