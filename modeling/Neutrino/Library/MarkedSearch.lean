import Neutrino.Library.CycleSearch

/-! Depth-first search for a cycle with one table of marks, which every call reads and changes:
the marks stand for the path and the finished nodes of `CycleSearch`. -/

namespace MarkedSearch

/-- How far the search is with a node. -/
inductive Mark
  | unseen
  | onStack
  | done
  deriving DecidableEq, Repr

abbrev Marks (α : Type) := α → Mark

variable {α : Type}

/-- Visits nodes in turn, with the marks left so far, until one visit meets a cycle. -/
def visitAll (visit : Marks α → α → Option (Bool × Marks α)) :
    Marks α → List α → Option (Bool × Marks α)
  | marks, [] => some (false, marks)
  | marks, node :: rest => do
      let visited ← visit marks node
      if visited.1 then some visited else visitAll visit visited.2 rest

/-- Visits a node and what it leads to; nothing when the recursion is too deep. -/
def visit [DecidableEq α] (successors : α → List α) :
    Nat → Marks α → α → Option (Bool × Marks α)
  | 0, _, _ => none
  | depth + 1, marks, node =>
      match marks node with
      | .onStack => some (true, marks)
      | .done => some (false, marks)
      | .unseen => do
          let visited ← visitAll (visit successors depth) (Function.update marks node .onStack)
            (successors node)
          if visited.1 then some visited
          else some (false, Function.update visited.2 node .done)

def search [DecidableEq α] (successors : α → List α) (depth : Nat) (nodes : List α) :
    Option Bool :=
  (visitAll (visit successors depth) (fun _ => .unseen) nodes).map (·.1)

variable [DecidableEq α] {successors : α → List α}

/-- The marks of a path and the nodes finished so far. -/
def table (path finished : List α) : Marks α := fun node =>
  if node ∈ path then .onStack else if node ∈ finished then .done else .unseen

theorem table_enter {path finished : List α} (node : α) :
    Function.update (table path finished) node .onStack = table (node :: path) finished := by
  funext other
  by_cases same : other = node
  · subst same
    simp [table]
  · simp [table, same]

theorem table_leave {path finished : List α} {node : α} (offPath : node ∉ path) :
    Function.update (table (node :: path) finished) node .done = table path (node :: finished) := by
  funext other
  by_cases same : other = node
  · subst same
    simp [table, offPath]
  · simp [table, same]

/-- What a marked visit answers: the verdict of the search, and its table when it goes on. -/
def Answers (path : List α) (marked : Option (Bool × Marks α)) (found : Bool × List α) : Prop :=
  ∃ marks, marked = some (found.1, marks) ∧ (found.1 = false → marks = table path found.2)

theorem visitAll_answers {path : List α} (finished : List α) {marked : Marks α → α → Option (Bool × Marks α)}
    {plain : List α → α → Bool × List α} {nodes : List α}
    (visits : ∀ node ∈ nodes, ∀ finished,
      Answers path (marked (table path finished) node) (plain finished node)) :
    Answers path (visitAll marked (table path finished) nodes)
      (CycleSearch.visitAll plain finished nodes) := by
  induction nodes generalizing finished with
  | nil => exact ⟨_, rfl, fun _ => rfl⟩
  | cons node rest ih =>
      obtain ⟨marks, visited, kept⟩ := visits node List.mem_cons_self finished
      simp only [visitAll, visited, Option.bind_eq_bind, Option.bind_some, CycleSearch.visitAll]
      by_cases met : (plain finished node).1 = true
      · rw [if_pos met, if_pos met, met]
        exact ⟨marks, rfl, by simp⟩
      · rw [if_neg met, if_neg met, kept (by simpa using met)]
        exact ih _ fun other listed => visits other (List.mem_cons_of_mem _ listed)

/-- On a path of distinct nodes within the graph, deep enough searches answer alike. -/
theorem visit_answers {nodes : List α} (inside : ∀ node ∈ nodes, successors node ⊆ nodes)
    {fuel depth : Nat} {path finished : List α} {node : α} (listed : node ∈ nodes)
    (nodup : path.Nodup) (within : path ⊆ nodes) (enough : nodes.length < fuel + path.length)
    (deep : nodes.length < depth + path.length) :
    Answers path (visit successors depth (table path finished) node)
      (CycleSearch.visit successors fuel path finished node) := by
  have short := (List.subperm_of_subset nodup within).length_le
  induction fuel generalizing depth path finished node with
  | zero => omega
  | succ fuel ih =>
      cases depth with
      | zero => omega
      | succ depth =>
          simp only [visit, CycleSearch.visit]
          by_cases onPath : node ∈ path
          · have mark : table path finished node = .onStack := by simp [table, onPath]
            rw [mark, if_pos onPath]
            exact ⟨_, rfl, by simp⟩
          · rw [if_neg onPath]
            by_cases left : node ∈ finished
            · have mark : table path finished node = .done := by simp [table, onPath, left]
              rw [mark, if_pos left]
              exact ⟨_, rfl, fun _ => rfl⟩
            · have mark : table path finished node = .unseen := by simp [table, onPath, left]
              rw [mark, if_neg left, table_enter]
              have longer := List.nodup_cons.mpr ⟨onPath, nodup⟩
              have contained : node :: path ⊆ nodes := List.cons_subset.mpr ⟨listed, within⟩
              obtain ⟨marks, visited, kept⟩ := visitAll_answers finished
                fun next follows finished => @ih depth (node :: path) finished next
                  (inside node listed follows) longer contained
                  (by simp only [List.length_cons]; omega) (by simp only [List.length_cons]; omega)
                  (List.subperm_of_subset longer contained).length_le
              simp only [visited, Option.bind_eq_bind, Option.bind_some]
              split
              · rename_i met
                exact ⟨marks, by rw [met], fun clear => absurd met (by simp [clear])⟩
              · rename_i clear
                refine ⟨_, rfl, fun _ => ?_⟩
                rw [kept (by simpa using clear), table_leave onPath]

/-- The marked search of any depth above the number of nodes ends with the verdict of the plain
one. -/
theorem search_eq {nodes : List α} (inside : ∀ node, successors node ⊆ nodes) {depth : Nat}
    (deep : nodes.length < depth) :
    search successors depth nodes = some (CycleSearch.hasCycle successors nodes) := by
  have blank : (fun _ => .unseen : Marks α) = table [] [] := by
    funext node
    simp [table]
  have visits : ∀ node ∈ nodes, ∀ finished,
      Answers [] (visit successors depth (table [] finished) node)
        (CycleSearch.visit successors (nodes.length + 1) [] finished node) :=
    fun node listed finished => visit_answers (fun node _ => inside node) listed List.nodup_nil
      (List.nil_subset _) (by simp) (by simpa using deep)
  obtain ⟨marks, visited, _⟩ := visitAll_answers [] visits
  rw [search, blank, visited]
  rfl

end MarkedSearch
