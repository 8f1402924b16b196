import Mathlib
import Neutrino.RecipeInterpreter

/-! What an interpretation has a provider build: an ordered forest, whatever the provider answers. -/

namespace Neutrino.Recipe

open Checked Stateful

/-- A node the provider built, with what it was built of. -/
structure Emission where
  bindings : List GeneratedFieldBinding
  ref : TargetNodeRef

def GeneratedFieldBinding.children : GeneratedFieldBinding → List TargetNodeRef
  | .nodes _ held => held
  | _ => []

def GeneratedFieldBinding.leaves : GeneratedFieldBinding → List OpaqueLeafValueRef
  | .leaf _ held => [held]
  | _ => []

def Emission.children (emission : Emission) : List TargetNodeRef :=
  emission.bindings.flatMap GeneratedFieldBinding.children

def Emission.leaves (emission : Emission) : List OpaqueLeafValueRef :=
  emission.bindings.flatMap GeneratedFieldBinding.leaves

def ProviderCall.emission : ProviderCall → Option Emission
  | .emit _ bindings _ ref => some ⟨bindings, ref⟩
  | _ => none

def ProviderCall.hookLeaf : ProviderCall → Option OpaqueLeafValueRef
  | .applyHook _ _ leaf => some leaf
  | _ => none

/-- The nodes built, in order. -/
def emissions (calls : History) : List Emission := calls.filterMap ProviderCall.emission

def hookLeaves (calls : History) : List OpaqueLeafValueRef :=
  calls.filterMap ProviderCall.hookLeaf

def emittedNodes (calls : History) : List TargetNodeRef := (emissions calls).map Emission.ref

/-- Where nodes stand in the nested bindings of other nodes. -/
def nestedNodes (calls : History) : List TargetNodeRef := (emissions calls).flatMap Emission.children

def boundLeaves (calls : History) : List OpaqueLeafValueRef :=
  (emissions calls).flatMap Emission.leaves

/-- The children of every node were built before it. -/
def ChildrenFirst (built : List Emission) : Prop :=
  ∀ before parent after, built = before ++ parent :: after →
    ∀ child ∈ parent.children, child ∈ before.map Emission.ref

/-- Calls that built nodes of which `free` stand in no other yet, from leaves of which `loose` are
in no node yet. -/
structure Grove (session : BuildSessionId) (calls : History) (free : List TargetNodeRef)
    (loose : List OpaqueLeafValueRef) : Prop where
  placed : (free ++ nestedNodes calls).Perm (emittedNodes calls)
  bound : (loose ++ boundLeaves calls).Perm (hookLeaves calls)
  ordered : ChildrenFirst (emissions calls)
  nodesConfined : ∀ node ∈ emittedNodes calls, node.session = session
  leavesConfined : ∀ leaf ∈ hookLeaves calls, leaf.session = session

section Grove

variable {session : BuildSessionId} {calls later : History} {free free' : List TargetNodeRef}
  {loose loose' : List OpaqueLeafValueRef}

@[simp] theorem emissions_append : emissions (calls ++ later) = emissions calls ++ emissions later :=
  List.filterMap_append

@[simp] theorem emittedNodes_append :
    emittedNodes (calls ++ later) = emittedNodes calls ++ emittedNodes later := by
  simp [emittedNodes]

@[simp] theorem nestedNodes_append :
    nestedNodes (calls ++ later) = nestedNodes calls ++ nestedNodes later := by
  simp [nestedNodes]

@[simp] theorem boundLeaves_append :
    boundLeaves (calls ++ later) = boundLeaves calls ++ boundLeaves later := by
  simp [boundLeaves]

@[simp] theorem hookLeaves_append :
    hookLeaves (calls ++ later) = hookLeaves calls ++ hookLeaves later :=
  List.filterMap_append

theorem ChildrenFirst.append {built more : List Emission} (first : ChildrenFirst built)
    (second : ChildrenFirst more) : ChildrenFirst (built ++ more) := by
  intro before parent after split child nested
  obtain ⟨middle, rfl, rest⟩ | ⟨middle, rfl, rest⟩ := List.append_eq_append_iff.mp split
  · have there := second middle parent after rest child nested
    rw [List.map_append]
    exact List.mem_append_right _ there
  · cases middle with
    | nil =>
        have there := second [] parent after rest.symm child nested
        simp at there
    | cons head tail =>
        obtain ⟨rfl, rfl⟩ := List.cons.inj rest
        exact first before parent tail rfl child nested

/-- A node over children that were all built before. -/
theorem ChildrenFirst.snoc {built : List Emission} {parent : Emission}
    (first : ChildrenFirst built) (below : ∀ child ∈ parent.children, child ∈ built.map Emission.ref) :
    ChildrenFirst (built ++ [parent]) := by
  intro before parent' after split child nested
  obtain ⟨middle, rfl, rest⟩ | ⟨middle, rfl, rest⟩ := List.append_eq_append_iff.mp split
  · cases middle with
    | nil =>
        obtain ⟨rfl, -⟩ := List.cons.inj rest
        simpa using below child nested
    | cons head tail => simp at rest
  · cases middle with
    | nil =>
        obtain ⟨rfl, -⟩ := List.cons.inj rest
        simpa using below child nested
    | cons head tail =>
        obtain ⟨rfl, rfl⟩ := List.cons.inj rest
        exact first before parent' tail rfl child nested

theorem Grove.append (first : Grove session calls free loose)
    (second : Grove session later free' loose') :
    Grove session (calls ++ later) (free ++ free') (loose ++ loose') where
  placed := by
    rw [nestedNodes_append, emittedNodes_append]
    refine List.Perm.trans ?_ (first.placed.append second.placed)
    simp only [List.append_assoc]
    refine List.Perm.append_left free ?_
    simp only [← List.append_assoc]
    exact List.Perm.append_right _ List.perm_append_comm
  bound := by
    rw [boundLeaves_append, hookLeaves_append]
    refine List.Perm.trans ?_ (first.bound.append second.bound)
    simp only [List.append_assoc]
    refine List.Perm.append_left loose ?_
    simp only [← List.append_assoc]
    exact List.Perm.append_right _ List.perm_append_comm
  ordered := by
    rw [emissions_append]
    exact first.ordered.append second.ordered
  nodesConfined := by
    rw [emittedNodes_append]
    exact List.forall_mem_append.mpr ⟨first.nodesConfined, second.nodesConfined⟩
  leavesConfined := by
    rw [hookLeaves_append]
    exact List.forall_mem_append.mpr ⟨first.leavesConfined, second.leavesConfined⟩

/-- A call that builds nothing. -/
theorem grove_silent {calls : History} (nodes : emissions calls = [])
    (leaves : hookLeaves calls = []) : Grove session calls [] [] where
  placed := by simp [nestedNodes, emittedNodes, nodes]
  bound := by simp [boundLeaves, nodes, leaves]
  ordered := by simp [ChildrenFirst, nodes]
  nodesConfined := by simp [emittedNodes, nodes]
  leavesConfined := by simp [leaves]

theorem grove_leaf {hook : RegisteredHookId} {input : TypedHookInput} {leaf : OpaqueLeafValueRef}
    (own : leaf.session = session) : Grove session [.applyHook hook input leaf] [] [leaf] where
  placed := .rfl
  bound := .rfl
  ordered := by
    intro before parent after split
    simp [emissions, List.filterMap_cons, ProviderCall.emission] at split
  nodesConfined := by simp [emittedNodes, emissions, ProviderCall.emission]
  leavesConfined := by simpa [hookLeaves, ProviderCall.hookLeaf] using own

/-- A node built of all that was free and all that was loose. -/
theorem Grove.emit (grove : Grove session calls free loose) {node : BackendNodeTypeId}
    {bindings : List GeneratedFieldBinding} {fields : List TargetFieldDescriptor}
    {ref : TargetNodeRef} (children : bindings.flatMap GeneratedFieldBinding.children = free)
    (leaves : bindings.flatMap GeneratedFieldBinding.leaves = loose)
    (own : ref.session = session) :
    Grove session (calls ++ [.emit node bindings fields ref]) [ref] [] where
  placed := by
    have nested : nestedNodes [.emit node bindings fields ref] = free := by
      simp [nestedNodes, emissions, ProviderCall.emission, Emission.children, children]
    rw [nestedNodes_append, emittedNodes_append, nested]
    refine List.perm_append_comm.trans (List.Perm.append_right [ref] ?_)
    exact List.perm_append_comm.trans grove.placed
  bound := by
    have nested : boundLeaves [.emit node bindings fields ref] = loose := by
      simp [boundLeaves, emissions, ProviderCall.emission, Emission.leaves, leaves]
    rw [boundLeaves_append, hookLeaves_append, nested, List.nil_append]
    refine (List.perm_append_comm.trans grove.bound).trans ?_
    simp [hookLeaves, List.filterMap_cons, ProviderCall.hookLeaf]
  ordered := by
    rw [emissions_append]
    refine grove.ordered.snoc fun child nested => ?_
    have there : child ∈ free := children ▸ nested
    exact grove.placed.subset (List.mem_append_left _ there)
  nodesConfined := by
    rw [emittedNodes_append, List.forall_mem_append]
    exact ⟨grove.nodesConfined, by simpa [emittedNodes, emissions, ProviderCall.emission] using own⟩
  leavesConfined := by
    rw [hookLeaves_append, List.forall_mem_append]
    exact ⟨grove.leavesConfined, by simp [hookLeaves, ProviderCall.hookLeaf]⟩

end Grove

/-! What is on record. -/

/-- All that was built and used is on record, each once. -/
structure Recorded (state : State) : Prop where
  nodes : ∀ node ∈ emittedNodes state.calls, node ∈ state.producedNodes
  nodesOnce : (emittedNodes state.calls).Nodup
  leaves : ∀ leaf ∈ hookLeaves state.calls, leaf ∈ state.producedLeaves
  leavesOnce : (hookLeaves state.calls).Nodup

/-- What a run has added to the calls before it. -/
def Built (session : BuildSessionId) (before : History) (free : List TargetNodeRef)
    (loose : List OpaqueLeafValueRef) (after : State) : Prop :=
  Recorded after ∧ ∃ calls, after.calls = before ++ calls ∧ Grove session calls free loose

section Built

variable {session : BuildSessionId} {before : History} {free free' : List TargetNodeRef}
  {loose loose' : List OpaqueLeafValueRef} {state after : State}

theorem Recorded.built (recorded : Recorded state) : Built session state.calls [] [] state :=
  ⟨recorded, [], by simp, grove_silent rfl rfl⟩

theorem Built.append (first : Built session before free loose state)
    (second : Built session state.calls free' loose' after) :
    Built session before (free ++ free') (loose ++ loose') after := by
  obtain ⟨-, calls, reached, grove⟩ := first
  obtain ⟨recorded, later, continued, grove'⟩ := second
  refine ⟨recorded, calls ++ later, ?_, grove.append grove'⟩
  rw [continued, reached, List.append_assoc]

/-- A call that builds nothing changes nothing that is on record. -/
theorem Built.silent (built : Built session before free loose state) (call : ProviderCall)
    (nodes : call.emission = none) (leaves : call.hookLeaf = none) :
    Built session before free loose { state with calls := state.calls ++ [call] } := by
  have noNodes : emissions [call] = [] := by simp [emissions, nodes]
  have noLeaves : hookLeaves [call] = [] := by simp [hookLeaves, leaves]
  obtain ⟨recorded, calls, reached, grove⟩ := built
  have emitted : emittedNodes (state.calls ++ [call]) = emittedNodes state.calls := by
    simp [emittedNodes, noNodes]
  have hooked : hookLeaves (state.calls ++ [call]) = hookLeaves state.calls := by simp [noLeaves]
  refine ⟨⟨?_, ?_, ?_, ?_⟩, calls ++ [call], ?_, ?_⟩
  · rw [emitted]
    exact recorded.nodes
  · rw [emitted]
    exact recorded.nodesOnce
  · rw [hooked]
    exact recorded.leaves
  · rw [hooked]
    exact recorded.leavesOnce
  · rw [← List.append_assoc, ← reached]
  · simpa using grove.append (grove_silent noNodes noLeaves)

theorem Built.consume (built : Built session before free loose state)
    (consumed : Finset TargetNodeRef) :
    Built session before free loose { state with consumedNodes := consumed } :=
  ⟨⟨built.1.nodes, built.1.nodesOnce, built.1.leaves, built.1.leavesOnce⟩, built.2⟩

/-- A node of its own, over all that was free and loose. -/
theorem Built.emit (built : Built session before free loose state) {node : BackendNodeTypeId}
    {bindings : List GeneratedFieldBinding} {fields : List TargetFieldDescriptor}
    {ref : TargetNodeRef} (children : bindings.flatMap GeneratedFieldBinding.children = free)
    (leaves : bindings.flatMap GeneratedFieldBinding.leaves = loose)
    (own : ref.session = session) (fresh : ref ∉ state.producedNodes) :
    Built session before [ref] [] { state with
      calls := state.calls ++ [.emit node bindings fields ref],
      producedNodes := insert ref state.producedNodes } := by
  obtain ⟨recorded, calls, reached, grove⟩ := built
  have emitted : emittedNodes (state.calls ++ [.emit node bindings fields ref]) =
      emittedNodes state.calls ++ [ref] := by
    simp [emittedNodes, emissions, ProviderCall.emission]
  have hooked : hookLeaves (state.calls ++ [.emit node bindings fields ref]) =
      hookLeaves state.calls := by
    simp [hookLeaves, List.filterMap_cons, ProviderCall.hookLeaf]
  refine ⟨⟨?_, ?_, ?_, ?_⟩, calls ++ [.emit node bindings fields ref], ?_, ?_⟩
  · rw [emitted, List.forall_mem_append]
    exact ⟨fun other listed => Finset.mem_insert_of_mem (recorded.nodes other listed), by simp⟩
  · rw [emitted, List.nodup_append]
    refine ⟨recorded.nodesOnce, List.nodup_singleton ref, fun other listed own' there => ?_⟩
    rw [List.mem_singleton.mp there]
    rintro rfl
    exact fresh (recorded.nodes other listed)
  · rw [hooked]
    exact recorded.leaves
  · rw [hooked]
    exact recorded.leavesOnce
  · rw [← List.append_assoc, ← reached]
  · exact grove.emit children leaves own

theorem Built.leaf (built : Built session before free loose state) {hook : RegisteredHookId}
    {input : TypedHookInput} {leaf : OpaqueLeafValueRef} (own : leaf.session = session)
    (fresh : leaf ∉ state.producedLeaves) (consumed : Finset OpaqueLeafValueRef) :
    Built session before free (loose ++ [leaf]) { state with
      calls := state.calls ++ [.applyHook hook input leaf],
      producedLeaves := insert leaf state.producedLeaves, consumedLeaves := consumed } := by
  obtain ⟨recorded, calls, reached, grove⟩ := built
  have emitted : emittedNodes (state.calls ++ [.applyHook hook input leaf]) =
      emittedNodes state.calls := by
    simp [emittedNodes, emissions, List.filterMap_cons, ProviderCall.emission]
  have hooked : hookLeaves (state.calls ++ [.applyHook hook input leaf]) =
      hookLeaves state.calls ++ [leaf] := by
    simp [hookLeaves, ProviderCall.hookLeaf]
  refine ⟨⟨?_, ?_, ?_, ?_⟩, calls ++ [.applyHook hook input leaf], ?_, ?_⟩
  · rw [emitted]
    exact recorded.nodes
  · rw [emitted]
    exact recorded.nodesOnce
  · rw [hooked, List.forall_mem_append]
    exact ⟨fun other listed => Finset.mem_insert_of_mem (recorded.leaves other listed), by simp⟩
  · rw [hooked, List.nodup_append]
    refine ⟨recorded.leavesOnce, List.nodup_singleton leaf, fun other listed own' there => ?_⟩
    rw [List.mem_singleton.mp there]
    rintro rfl
    exact fresh (recorded.leaves other listed)
  · rw [← List.append_assoc, ← reached]
  · simpa using grove.append (grove_leaf own)

end Built

/-! What each step of an interpretation builds. -/

section Steps

variable {m : RecipeModule} {provider : TargetRecipeProvider} {session : BuildSessionId}
  {eval : Int → Context → Alias → Interpreting (List TargetNodeRef)} {ctx : Context}
  {aliases : Alias} {state : State}

def anyFailure : Failure → Prop := fun _ => True

/-- An evaluation of bodies builds the nodes that it returns. -/
def BuildsNodes (session : BuildSessionId)
    (eval : Int → Context → Alias → Interpreting (List TargetNodeRef)) : Prop :=
  ∀ body ctx aliases state, Recorded state →
    Ensures anyFailure (eval body ctx aliases) state fun nodes after =>
      Built session state.calls nodes [] after

theorem ensures_checked {α : Type} {result : Except Failure α} {post : α → State → Prop}
    (passed : ∀ value, result = .ok value → post value state) :
    Ensures anyFailure (check result) state post :=
  ensures_check (fun _ _ => trivial) passed

theorem projectField_builds (session : BuildSessionId) (recorded : Recorded state)
    (field : FinalizedFieldId) :
    Ensures anyFailure (projectField m provider field ctx aliases) state fun _ after =>
      Built session state.calls [] [] after := by
  refine ensures_bind (ensures_checked fun row _ => ?_)
  refine ensures_bind (ensures_ask (fun _ _ => trivial) fun value _ => ?_)
  refine ensures_bind (ensures_checked fun _ _ => ?_)
  exact ensures_pure (recorded.built.silent _ rfl rfl)

theorem markNodesConsumed_builds {before : History} {free : List TargetNodeRef}
    {loose : List OpaqueLeafValueRef} (built : Built session before free loose state)
    (nodes : List TargetNodeRef) :
    Ensures anyFailure (markNodesConsumed nodes) state fun _ after =>
      Built session before free loose after ∧ after.calls = state.calls := by
  induction nodes generalizing state with
  | nil => exact ensures_pure ⟨built, rfl⟩
  | cons node rest ih =>
      refine ensures_bind ?_
      rw [Ensures, markNodeConsumed]
      split
      next value after marked =>
        split at marked
        · contradiction
        · obtain ⟨-, rfl⟩ := Prod.mk.inj (Except.ok.inj marked)
          exact ih (built.consume _)
      next => trivial

theorem buildBinding_builds (builds : BuildsNodes session eval) (recorded : Recorded state)
    (index : Int) :
    Ensures anyFailure (buildBinding m provider session eval ctx aliases index) state
      fun bindings after => Built session state.calls
        (bindings.flatMap GeneratedFieldBinding.children)
        (bindings.flatMap GeneratedFieldBinding.leaves) after := by
  refine ensures_bind (ensures_checked fun row _ => ?_)
  cases kind : row.kind with
  | direct =>
      refine ensures_bind ((projectField_builds session recorded _).imp fun value middle built => ?_)
      exact ensures_pure built
  | hook =>
      refine ensures_bind (ensures_checked fun hook _ => ?_)
      refine ensures_bind ((projectField_builds session recorded _).imp fun value middle built => ?_)
      refine ensures_bind (ensures_checked fun _ _ => ?_)
      refine ensures_bind (ensures_ask (fun _ _ => trivial) fun leaf _ => ?_)
      refine ensures_bind (ensures_checked fun _ own => ?_)
      refine ensures_bind (ensures_checked fun _ _ => ?_)
      refine ensures_bind ?_
      rw [Ensures, markLeafUsed]
      split
      next value after marked =>
        split at marked
        · contradiction
        · rename_i fresh
          obtain ⟨-, rfl⟩ := Prod.mk.inj (Except.ok.inj marked)
          exact ensures_pure (built.leaf (require_ok.mp own) (fun there => fresh (.inl there)) _)
      next => trivial
  | nested =>
      refine ensures_bind ((builds _ _ _ _ recorded).imp fun nodes middle built => ?_)
      refine ensures_bind (ensures_checked fun _ _ => ?_)
      refine ensures_bind ((markNodesConsumed_builds built nodes).imp fun _ after held => ?_)
      refine ensures_pure ?_
      simpa [GeneratedFieldBinding.children, GeneratedFieldBinding.leaves] using held.1

theorem evalEmit_builds (builds : BuildsNodes session eval) (recorded : Recorded state)
    (op : OpRow) :
    Ensures anyFailure (evalEmit m provider session eval op ctx aliases) state
      fun nodes after => Built session state.calls nodes [] after := by
  have bound : Ensures anyFailure (concat (buildBinding m provider session eval ctx aliases)
      (indexRange op.bindingsBegin op.bindingsEnd)) state fun bindings after =>
        Built session state.calls (bindings.flatMap GeneratedFieldBinding.children)
          (bindings.flatMap GeneratedFieldBinding.leaves) after :=
    ensures_concat _ (fun index _ before middle built =>
      (buildBinding_builds builds built.1 index).imp fun here after next => by
        rw [List.flatMap_append, List.flatMap_append]
        exact built.append next) recorded.built
  refine ensures_bind (bound.imp fun bindings middle built => ?_)
  refine ensures_bind (ensures_ask (fun _ _ => trivial) fun ref _ => ?_)
  refine ensures_bind (ensures_checked fun _ own => ?_)
  refine ensures_bind (ensures_checked fun _ _ => ?_)
  refine ensures_bind ?_
  rw [Ensures, markNodeProduced]
  split
  next value after marked =>
    split at marked
    · contradiction
    · rename_i fresh
      obtain ⟨-, rfl⟩ := Prod.mk.inj (Except.ok.inj marked)
      exact ensures_pure (built.emit rfl rfl (require_ok.mp own) fresh)
  next => trivial

theorem evalItems_builds (builds : BuildsNodes session eval) (op : OpRow) {before : History}
    {free : List TargetNodeRef} (built : Built session before free [] state)
    (prevOrder : Option UInt64) (items : List UInt32) :
    Ensures anyFailure (evalItems provider eval op ctx aliases prevOrder items) state
      fun nodes after => Built session before (free ++ nodes) [] after := by
  induction items generalizing state free prevOrder with
  | nil =>
      refine ensures_pure ?_
      rw [List.append_nil]
      exact built
  | cons item rest ih =>
      refine ensures_bind (ensures_ask (fun _ _ => trivial) fun ord _ => ?_)
      refine ensures_bind (ensures_checked fun _ _ => ?_)
      have asked := built.silent (.slotItemOrder op.slotId ctx item ord) rfl rfl
      refine ensures_bind ((builds _ _ _ _ asked.1).imp fun sub middle next => ?_)
      refine ensures_bind ((ih (asked.append next) (some ord)).imp fun later after done => ?_)
      refine ensures_pure ?_
      rw [← List.append_assoc]
      exact done

theorem evalOp_builds (builds : BuildsNodes session eval) (recorded : Recorded state)
    (index : Int) :
    Ensures anyFailure (evalOp m provider session eval ctx aliases index) state
      fun nodes after => Built session state.calls nodes [] after := by
  refine ensures_bind (ensures_checked fun op _ => ?_)
  cases op.kind with
  | emit => exact evalEmit_builds builds recorded op
  | forEach =>
      refine ensures_bind (ensures_ask (fun _ _ => trivial) fun n _ => ?_)
      refine ensures_bind (ensures_checked fun _ _ => ?_)
      exact evalItems_builds builds op (recorded.built.silent _ rfl rfl) none _
  | optionalOp =>
      refine ensures_bind (ensures_ask (fun _ _ => trivial) fun n _ => ?_)
      refine ensures_bind (ensures_checked fun _ _ => ?_)
      have asked := (recorded.built : Built session state.calls [] [] state).silent
        (.slotExtent op.slotId ctx n) rfl rfl
      split
      · exact (builds _ _ _ _ asked.1).imp fun nodes after built => asked.append built
      · exact ensures_pure asked
  | call =>
      refine ensures_bind (ensures_checked fun callee _ => ?_)
      refine ensures_bind (ensures_checked fun _ _ => ?_)
      refine ensures_bind (ensures_checked fun _ _ => ?_)
      refine ensures_bind (ensures_checked fun _ _ => ?_)
      refine ensures_bind (ensures_checked fun _ _ => ?_)
      refine ensures_bind ((builds _ _ _ _ recorded).imp fun nodes after built => ?_)
      refine ensures_bind (ensures_checked fun _ _ => ?_)
      exact ensures_pure built

theorem evalBody_builds (m : RecipeModule) (provider : TargetRecipeProvider)
    (session : BuildSessionId) (fuel : Nat) :
    BuildsNodes session (evalBody m provider session fuel) := by
  induction fuel with
  | zero => exact fun _ _ _ _ _ => trivial
  | succ fuel ih =>
      intro body ctx aliases state recorded
      refine ensures_bind (ensures_checked fun row _ => ?_)
      exact ensures_concat (fun nodes after => Built session state.calls nodes [] after)
        (fun index _ before middle built =>
          (evalOp_builds ih built.1 index).imp fun here after next => built.append next)
        recorded.built

end Steps

/-- Whatever a provider answers, the nodes of a finished interpretation form an ordered forest:
each is a root or stands once in a binding of a later node, each leaf in one binding, and all
belong to the session. -/
theorem interpreted_nodes_form_forest (m : RecipeModule) (provider : TargetRecipeProvider)
    (session : BuildSessionId) (fuel : Nat) (recipeIndex : Int) (roots : List TargetNodeRef)
    (final : State)
    (interpreted : interpretRecipe m provider session fuel recipeIndex = .ok (roots, final)) :
    (roots ++ nestedNodes final.calls).Perm (emittedNodes final.calls) ∧
      (emittedNodes final.calls).Nodup ∧ ChildrenFirst (emissions final.calls) ∧
      (boundLeaves final.calls).Perm (hookLeaves final.calls) ∧ (hookLeaves final.calls).Nodup ∧
      (∀ node ∈ emittedNodes final.calls, node.session = session) ∧
      ∀ leaf ∈ hookLeaves final.calls, leaf.session = session := by
  unfold interpretRecipe at interpreted
  split at interpreted
  next => contradiction
  next recipe _ =>
    have empty : Recorded {} := ⟨by simp [emittedNodes, emissions], by simp [emittedNodes, emissions],
      by simp [hookLeaves], by simp [hookLeaves]⟩
    have ran : Ensures anyFailure (interpretBody m provider session fuel recipe) {}
        fun nodes after => Built session [] nodes [] after := by
      refine ensures_bind (ensures_checked fun _ _ => ?_)
      refine ensures_bind ((evalBody_builds m provider session fuel _ _ _ _ empty).imp
        fun nodes middle built => ?_)
      refine ensures_bind (ensures_checked fun _ _ => ?_)
      refine ensures_bind ((markNodesConsumed_builds built nodes).imp fun _ after held => ?_)
      refine ensures_bind (?_ : Ensures anyFailure get after fun _ after' => _)
      refine ensures_bind (ensures_checked fun _ _ => ?_)
      exact ensures_pure held.1
    obtain ⟨recorded, calls, reached, grove⟩ := ran.of_ok interpreted
    rw [List.nil_append] at reached
    subst reached
    exact ⟨grove.placed, recorded.nodesOnce, grove.ordered, grove.bound, recorded.leavesOnce,
      grove.nodesConfined, grove.leavesConfined⟩

/-! Two nodes, each over one of its own, which holds a leaf. -/

def sampleModule : RecipeModule where
  recipes := [{ recipeId := "r", slotsEnd := 1, body := 2, result := ⟨.many, 0, kUnbounded⟩ }]
  slots := [{ name := "s", id := 1, min := 0, max := kUnbounded }]
  fields := [{ id := 1, slot := 1 }]
  bodies := [⟨0, 1⟩, ⟨1, 2⟩, ⟨2, 3⟩]
  ops := [{ nodeTypeId := 2, bindingsBegin := 0, bindingsEnd := 1 },
    { nodeTypeId := 1, bindingsBegin := 1, bindingsEnd := 2 },
    { kind := .forEach, slotId := 1, body := 1 }]
  bindings := [{ kind := .hook, fieldId := 1 }, { kind := .nested, nestedBody := 0 }]
  hooks := [{ hookId := "h" }]

/-- Answers every request, and numbers what it makes by the calls before. -/
def sampleProvider : TargetRecipeProvider where
  slotExtent _ _ _ := .ok 2
  slotItemOrder _ _ _ index := .ok index.toUInt64
  project _ _ _ owner := .ok ⟨0, owner.index.toUInt64⟩
  applyHook calls _ _ := .ok ⟨7, 0, calls.length.toUInt64⟩
  emit calls node _ _ := .ok ⟨7, node, calls.length.toUInt64⟩

theorem interpreted_nodes_form_forest_sample :
    ∃ roots final, interpretRecipe sampleModule sampleProvider 7 3 0 = .ok (roots, final) ∧
      roots.length = 2 ∧ (emittedNodes final.calls).length = 4 ∧
      (roots ++ nestedNodes final.calls).Perm (emittedNodes final.calls) := by
  have sizes : (interpretRecipe sampleModule sampleProvider 7 3 0).map (fun result =>
      (result.1.length, (emittedNodes result.2.calls).length)) = .ok (2, 4) := by decide +kernel
  obtain ⟨⟨roots, final⟩, ran, counted⟩ := map_ok.mp sizes
  obtain ⟨rootCount, nodeCount⟩ := Prod.mk.inj counted
  exact ⟨roots, final, ran, rootCount, nodeCount,
    (interpreted_nodes_form_forest sampleModule sampleProvider 7 3 0 roots final ran).1⟩

end Neutrino.Recipe
