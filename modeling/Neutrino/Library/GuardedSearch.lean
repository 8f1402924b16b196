import Mathlib
import Neutrino.Library.Checked

/-! Depth-first search over nodes whose successors have to be loaded, known by their keys: it
succeeds exactly when all that is reached loads and nothing reached is on a cycle. -/

namespace GuardedSearch

open Checked

variable {α κ ε : Type}

inductive Stop (ε : Type)
  | failed (failure : ε)
  | outOfFuel
  deriving DecidableEq, Repr

section Search

variable [DecidableEq κ] (key : α → κ) (load : α → Except ε (List α)) (cyclic : List α → α → ε)

/-- Follows an edge from the first node of the path: not back to the path, and not to a node that
is done. -/
def follow (search : List κ → α → List α → Except (Stop ε) (List κ)) (path : List α)
    (done : List κ) (target : α) : Except (Stop ε) (List κ) :=
  if key target ∈ path.map key then .error (.failed (cyclic path target))
  else if key target ∈ done then .ok done
  else do
    let edges ← (load target).mapError .failed
    search done target edges

/-- The keys done once a node below a path is. -/
def search : Nat → List α → List κ → α → List α → Except (Stop ε) (List κ)
  | 0, _, _, _, _ => .error .outOfFuel
  | fuel + 1, path, done, node, edges => do
      let finished ← thread
        (follow key load cyclic (search fuel (node :: path)) (node :: path)) done edges
      return key node :: finished

end Search

/-- The edges of a search from a root whose own edges are given. -/
def Edge (load : α → Except ε (List α)) (root : α) (direct : List α) (node target : α) : Prop :=
  node = root ∧ target ∈ direct ∨ node ≠ root ∧ ∃ edges, load node = .ok edges ∧ target ∈ edges

section Spec

variable [DecidableEq κ] {key : α → κ} {load : α → Except ε (List α)}
  {cyclic : List α → α → ε} {root : α} {direct : List α} {inside : Set α}

/-- Each node done is loaded, and all it leads to was done before it. -/
def Finished (load : α → Except ε (List α)) (root : α) (direct : List α) : List α → Prop
  | [] => True
  | node :: rest => (node = root ∨ ∃ edges, load node = .ok edges) ∧
      (∀ target, Edge load root direct node target → target ∈ rest) ∧ Finished load root direct rest

theorem Finished.loaded {finished : List α} (ordered : Finished load root direct finished) :
    ∀ node ∈ finished, node = root ∨ ∃ edges, load node = .ok edges := by
  induction finished with
  | nil => simp
  | cons first rest ih => exact List.forall_mem_cons.mpr ⟨ordered.1, ih ordered.2.2⟩

theorem Finished.closed {finished : List α} (ordered : Finished load root direct finished) :
    ∀ node ∈ finished, ∀ target, Edge load root direct node target → target ∈ finished := by
  induction finished with
  | nil => simp
  | cons first rest ih =>
      refine List.forall_mem_cons.mpr ⟨fun target leads => ?_, fun node listed target leads => ?_⟩
      · exact List.mem_cons_of_mem _ (ordered.2.1 target leads)
      · exact List.mem_cons_of_mem _ (ih ordered.2.2 node listed target leads)

theorem Finished.acc {finished : List α} (ordered : Finished load root direct finished) :
    ∀ node ∈ finished, Acc (fun target node => Edge load root direct node target) node := by
  induction finished with
  | nil => simp
  | cons first rest ih =>
      have before := ih ordered.2.2
      refine List.forall_mem_cons.mpr ⟨?_, before⟩
      exact Acc.intro _ fun target leads => before target (ordered.2.1 target leads)

/-- The nodes a set of done keys stands for. -/
def Done (key : α → κ) (load : α → Except ε (List α)) (root : α) (direct : List α)
    (inside : Set α) (done : List κ) (finished : List α) : Prop :=
  done = finished.map key ∧ Finished load root direct finished ∧ ∀ node ∈ finished, node ∈ inside

/-- What a search below a path owes where it ends: its node done, after all the node leads to. -/
def Finishes (key : α → κ) (load : α → Except ε (List α)) (root : α) (direct : List α)
    (inside : Set α) (path : List α)
    (run : List κ → α → List α → Except (Stop ε) (List κ)) : Prop :=
  ∀ done done' node edges finished, node ∈ inside → root ∈ node :: path →
    (node = root ∨ ∃ edges, load node = .ok edges) →
    (∀ target, Edge load root direct node target ↔ target ∈ edges) →
    Done key load root direct inside done finished → run done node edges = .ok done' →
    ∃ finished', Done key load root direct inside done' finished' ∧ finished ⊆ finished' ∧
      node ∈ finished'

section Sound

variable (apart : Set.InjOn key inside)
  (closed : ∀ node ∈ inside, ∀ target, Edge load root direct node target → target ∈ inside)

include apart in
theorem follow_ok {path : List α} {run : List κ → α → List α → Except (Stop ε) (List κ)}
    (finishes : Finishes key load root direct inside path run) (rooted : root ∈ path)
    {target : α} (here : target ∈ inside) {done done' : List κ} {finished : List α}
    (before : Done key load root direct inside done finished)
    (followed : follow key load cyclic run path done target = .ok done') :
    ∃ finished', Done key load root direct inside done' finished' ∧ finished ⊆ finished' ∧
      target ∈ finished' := by
  unfold follow at followed
  split at followed
  · contradiction
  · rename_i offPath
    have notRoot : target ≠ root := by
      rintro rfl
      exact offPath (List.mem_map_of_mem rooted)
    split at followed
    · rename_i met
      obtain rfl := Except.ok.inj followed
      rw [before.1] at met
      obtain ⟨other, listed, same⟩ := List.mem_map.mp met
      obtain rfl := apart (before.2.2 other listed) here same
      exact ⟨finished, before, fun _ listed => listed, listed⟩
    · obtain ⟨found, loads, searched⟩ := bind_ok.mp followed
      have read := mapError_ok.mp loads
      refine finishes done done' target found finished here (List.mem_cons_of_mem _ rooted)
        (.inr ⟨found, read⟩) (fun other => ?_) before searched
      constructor
      · rintro (⟨same, -⟩ | ⟨-, edges, again, listed⟩)
        · exact absurd same notRoot
        · rw [read] at again
          obtain rfl := Except.ok.inj again
          exact listed
      · exact fun listed => .inr ⟨notRoot, found, read, listed⟩

include apart in
theorem follows_ok {path : List α} {run : List κ → α → List α → Except (Stop ε) (List κ)}
    (finishes : Finishes key load root direct inside path run) (rooted : root ∈ path)
    {edges : List α} (targets : ∀ target ∈ edges, target ∈ inside) {done done' : List κ}
    {finished : List α} (before : Done key load root direct inside done finished)
    (threaded : thread (follow key load cyclic run path) done edges = .ok done') :
    ∃ finished', Done key load root direct inside done' finished' ∧ finished ⊆ finished' ∧
      edges ⊆ finished' := by
  induction edges generalizing done finished with
  | nil =>
      obtain rfl : done = done' := by simpa [thread] using threaded
      exact ⟨finished, before, fun _ listed => listed, by simp⟩
  | cons target rest ih =>
      obtain ⟨next, followed, continued⟩ := bind_ok.mp threaded
      obtain ⟨here, others⟩ := List.forall_mem_cons.mp targets
      obtain ⟨middle, reached, kept, first⟩ := follow_ok apart finishes rooted here before followed
      obtain ⟨last, ended, kept', all⟩ := ih others reached continued
      exact ⟨last, ended, fun _ listed => kept' (kept listed),
        List.cons_subset.mpr ⟨kept' first, all⟩⟩

include apart closed

/-- A search that ended has finished its node after all the node leads to. -/
theorem search_finishes (fuel : Nat) (path : List α) :
    Finishes key load root direct inside path (search key load cyclic fuel path) := by
  induction fuel generalizing path with
  | zero => exact fun _ _ _ _ _ _ _ _ _ _ ended => by contradiction
  | succ fuel ih =>
      intro done done' node edges finished there rooted loaded leads before ended
      obtain ⟨last, threaded, returned⟩ := bind_ok.mp ended
      obtain rfl := pure_ok.mp returned
      have targets : ∀ target ∈ edges, target ∈ inside := fun target listed =>
        closed node there target ((leads target).mpr listed)
      obtain ⟨after, ⟨rfl, ordered, within⟩, kept, all⟩ :=
        follows_ok apart (ih (node :: path)) rooted targets before threaded
      refine ⟨node :: after, ⟨rfl, ⟨loaded, fun target leading => all ((leads target).mp leading),
        ordered⟩, List.forall_mem_cons.mpr ⟨there, within⟩⟩, fun _ listed => ?_,
        List.mem_cons_self⟩
      exact List.mem_cons_of_mem _ (kept listed)

end Sound

/-! What a failure means. -/

/-- The edges that lead from the root down to the first node of a path. -/
abbrev Path (load : α → Except ε (List α)) (root : α) (direct : List α) (path : List α) : Prop :=
  path.IsChain fun target node => Edge load root direct node target

/-- A node that fails to load, or one on a cycle, below the root. -/
def Cause (load : α → Except ε (List α)) (cyclic : List α → α → ε) (root : α) (direct : List α)
    (failure : ε) : Prop :=
  ∃ target, Relation.TransGen (Edge load root direct) root target ∧
    (load target = .error failure ∨
      (∃ path, failure = cyclic path target) ∧
        Relation.TransGen (Edge load root direct) target target)

theorem Path.reaches {path : List α} {node : α} (chain : Path load root direct (node :: path)) :
    ∀ earlier ∈ path, Relation.TransGen (Edge load root direct) earlier node := by
  have closed : (node :: path).IsChain fun target node =>
      Relation.TransGen (Edge load root direct) node target :=
    chain.imp fun _ _ follows => Relation.TransGen.single follows
  exact (List.pairwise_cons.mp (List.isChain_iff_pairwise.mp closed)).1

section Failed

variable (apart : Set.InjOn key inside)
  (closed : ∀ node ∈ inside, ∀ target, Edge load root direct node target → target ∈ inside)
include apart closed

theorem search_failed (fuel : Nat) (path : List α) (done : List κ) (node : α) (edges : List α)
    (within : ∀ other ∈ node :: path, other ∈ inside) (rooted : root ∈ node :: path)
    (chain : Path load root direct (node :: path))
    (leads : ∀ target ∈ edges, Edge load root direct node target) {failure : ε}
    (failed : search key load cyclic fuel path done node edges = .error (.failed failure)) :
    Cause load cyclic root direct failure := by
  induction fuel generalizing path done node edges with
  | zero => simp [search] at failed
  | succ fuel ih =>
      have threaded : thread (follow key load cyclic (search key load cyclic fuel (node :: path))
          (node :: path)) done edges = .error (.failed failure) := by
        rcases bind_error.mp failed with threaded | ⟨_, -, returned⟩
        · exact threaded
        · simp [pure, Except.pure] at returned
      obtain ⟨target, listed, state, followed⟩ := thread_error threaded
      have leading := leads target listed
      have here := closed node (within node List.mem_cons_self) target leading
      have longer : Path load root direct (target :: node :: path) :=
        List.isChain_cons_cons.mpr ⟨leading, chain⟩
      have below := longer.reaches root rooted
      unfold follow at followed
      split at followed
      · rename_i onPath
        obtain ⟨other, listed', same⟩ := List.mem_map.mp onPath
        obtain rfl := apart (within other listed') here same
        refine ⟨other, below, .inr ⟨⟨node :: path, ?_⟩, longer.reaches other listed'⟩⟩
        exact (Stop.failed.inj (Except.error.inj followed)).symm
      · rename_i offPath
        have notRoot : target ≠ root := by
          rintro rfl
          exact offPath (List.mem_map_of_mem rooted)
        split at followed
        · contradiction
        · rcases bind_error.mp followed with unread | ⟨found, loads, searched⟩
          · obtain ⟨cause, unloaded, same⟩ := mapError_error.mp unread
            obtain rfl := Stop.failed.inj same
            exact ⟨target, below, .inl unloaded⟩
          · have read := mapError_ok.mp loads
            exact ih (node :: path) state target found (List.forall_mem_cons.mpr ⟨here, within⟩)
              (List.mem_cons_of_mem _ rooted) longer
              (fun other listed' => .inr ⟨notRoot, found, read, listed'⟩) searched

end Failed

/-- No path is longer than there are keys that load. -/
theorem search_within_fuel {known : List κ} (loads : ∀ node edges, load node = .ok edges →
      key node ∈ known) (fuel : Nat) (path : List α) (done : List κ) (node : α) (edges : List α)
    (distinct : ((node :: path).map key).Nodup)
    (within : ∀ other ∈ node :: path, key other ∈ key root :: known)
    (enough : known.length + 1 < fuel + (node :: path).length) :
    search key load cyclic fuel path done node edges ≠ .error .outOfFuel := by
  induction fuel generalizing path done node edges with
  | zero =>
      have inside : (node :: path).map key ⊆ key root :: known := fun listed there => by
        obtain ⟨other, listed', rfl⟩ := List.mem_map.mp there
        exact within other listed'
      have short := (List.subperm_of_subset distinct inside).length_le
      simp only [List.length_map, List.length_cons] at short enough
      omega
  | succ fuel ih =>
      intro ended
      have threaded : thread (follow key load cyclic (search key load cyclic fuel (node :: path))
          (node :: path)) done edges = .error .outOfFuel := by
        rcases bind_error.mp ended with threaded | ⟨_, -, returned⟩
        · exact threaded
        · simp [pure, Except.pure] at returned
      obtain ⟨target, listed, state, followed⟩ := thread_error threaded
      unfold follow at followed
      split at followed
      · simp at followed
      · rename_i offPath
        split at followed
        · contradiction
        · rcases bind_error.mp followed with unread | ⟨found, loaded, searched⟩
          · obtain ⟨cause, -, same⟩ := mapError_error.mp unread
            contradiction
          · refine ih (node :: path) state target found (List.nodup_cons.mpr ⟨offPath, distinct⟩)
              (List.forall_mem_cons.mpr ⟨?_, within⟩) ?_ searched
            · exact List.mem_cons_of_mem _ (loads target found (mapError_ok.mp loaded))
            · simp only [List.length_cons] at enough ⊢
              omega

/-- The nodes of a search: its root and all below it. -/
def Reached (load : α → Except ε (List α)) (root : α) (direct : List α) : Set α :=
  fun node => Relation.ReflTransGen (Edge load root direct) root node

theorem reached_closed : ∀ node ∈ Reached load root direct, ∀ target,
    Edge load root direct node target → target ∈ Reached load root direct :=
  fun _ there _ leads => Relation.ReflTransGen.tail there leads

/-- A search that is not cut short succeeds exactly when all below the root loads and nothing
below it is on a cycle. -/
theorem search_iff (apart : Set.InjOn key (Reached load root direct)) {fuel : Nat}
    (complete : search key load cyclic fuel [] [] root direct ≠ .error .outOfFuel) :
    (∃ done, search key load cyclic fuel [] [] root direct = .ok done) ↔
      ∀ node, Relation.TransGen (Edge load root direct) root node →
        (∃ edges, load node = .ok edges) ∧
          ¬Relation.TransGen (Edge load root direct) node node := by
  have leads : ∀ target, Edge load root direct root target ↔ target ∈ direct := fun target =>
    ⟨fun leading => leading.elim And.right fun other => absurd rfl other.1,
      fun listed => .inl ⟨rfl, listed⟩⟩
  constructor
  · rintro ⟨done, ended⟩ node below
    obtain ⟨finished, ⟨-, ordered, -⟩, -, listed⟩ :=
      search_finishes apart reached_closed fuel [] [] done root direct []
        Relation.ReflTransGen.refl List.mem_cons_self (.inl rfl) leads
        ⟨rfl, trivial, by simp⟩ ended
    have all : ∀ other, Relation.TransGen (Edge load root direct) root other →
        other ∈ finished := by
      intro other below'
      induction below' with
      | single leading => exact ordered.closed root listed _ leading
      | tail _ leading ih => exact ordered.closed _ ih _ leading
    have acyclic : ∀ other ∈ finished,
        ¬Relation.TransGen (Edge load root direct) other other := by
      intro other there cycle
      have backwards : Relation.TransGen
          (fun target node => Edge load root direct node target) other other :=
        Relation.transGen_swap.mp cycle
      have accessible := (ordered.acc other there).transGen
      exact Acc.rec (fun _ _ ih again => ih _ again again) accessible backwards
    refine ⟨(ordered.loaded node (all node below)).resolve_left ?_, acyclic node (all node below)⟩
    rintro rfl
    exact acyclic node listed below
  · intro holds
    cases ended : search key load cyclic fuel [] [] root direct with
    | ok done => exact ⟨done, rfl⟩
    | error stop =>
        cases stop with
        | outOfFuel => exact absurd ended complete
        | failed failure =>
            have start : root ∈ Reached load root direct := Relation.ReflTransGen.refl
            obtain ⟨target, below, cause⟩ := search_failed apart reached_closed fuel [] [] root
              direct (by simpa using start) List.mem_cons_self
              (List.isChain_singleton _) (fun target => (leads target).mpr) ended
            obtain ⟨⟨edges, loaded⟩, acyclic⟩ := holds target below
            rcases cause with unloaded | ⟨-, cycle⟩
            · rw [loaded] at unloaded
              contradiction
            · exact absurd cycle acyclic

end Spec

end GuardedSearch
