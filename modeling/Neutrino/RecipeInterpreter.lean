import Mathlib
import Neutrino.Library.Stateful
import Neutrino.RecipeModule

/-! The traversal of a resolved recipe: its body's operations in order, each dispatched to a
provider that is asked and never believed. -/

namespace Neutrino.Recipe

open Checked Stateful

abbrev Context := List SlotIndex

/-- What each callee slot stands for. -/
abbrev Alias := List (SlotId × SlotIndex)

/-- A request the provider answered. -/
inductive ProviderCall
  | slotExtent (slot : SlotId) (ctx : Context) (extent : UInt32)
  | slotItemOrder (slot : SlotId) (ctx : Context) (index : UInt32) (order : UInt64)
  | project (field : FinalizedFieldId) (ctx : Context) (owner : SlotIndex) (value : TypedHookInput)
  | applyHook (hook : RegisteredHookId) (input : TypedHookInput) (leaf : OpaqueLeafValueRef)
  | emit (node : BackendNodeTypeId) (bindings : List GeneratedFieldBinding)
      (fields : List TargetFieldDescriptor) (ref : TargetNodeRef)
  deriving DecidableEq, Repr

abbrev History := List ProviderCall

/-- A provider answers by all it was asked before. -/
structure TargetRecipeProvider where
  slotExtent : History → SlotId → Context → Except String UInt32
  slotItemOrder : History → SlotId → Context → UInt32 → Except String UInt64
  project : History → FinalizedFieldId → Context → SlotIndex → Except String TypedHookInput
  applyHook : History → RegisteredHookId → TypedHookInput → Except String OpaqueLeafValueRef
  emit : History → BackendNodeTypeId → List GeneratedFieldBinding →
    List TargetFieldDescriptor → Except String TargetNodeRef

/-- What an interpretation has on record: the references produced and consumed, and the calls. -/
structure State where
  producedNodes : Finset TargetNodeRef := ∅
  consumedNodes : Finset TargetNodeRef := ∅
  producedLeaves : Finset OpaqueLeafValueRef := ∅
  consumedLeaves : Finset OpaqueLeafValueRef := ∅
  calls : History := []

abbrev Interpreting := StateT State (Except Failure)

/-- The row at an index of a table. -/
def rowAt {α : Type} (rows : List α) (index : Int) : Except Failure α :=
  match if index < 0 then none else rows[index.toNat]? with
  | some row => .ok row
  | none => .error .outOfRange

/-- The indices of the half-open range a loop runs over. -/
def indexRange (first last : Int) : List Int :=
  (List.range (last - first).toNat).map fun offset => first + offset

/-- The last of the rows of an id. -/
def lastRow {α κ : Type} [DecidableEq κ] (key : α → κ) (rows : List α) (id : κ) : Option α :=
  rows.reverse.find? fun row => key row = id

/-- Asks the provider and puts its answer on record. -/
def ask {α : Type} (answer : History → Except String α) (record : α → ProviderCall) :
    Interpreting α := fun state =>
  match answer state.calls with
  | .error message => .error (.provider message)
  | .ok value => .ok (value, { state with calls := state.calls ++ [record value] })

theorem ensures_ask {α : Type} {allowed : Failure → Prop} {state : State}
    {answer : History → Except String α} {record : α → ProviderCall} {post : α → State → Prop}
    (failed : ∀ message, answer state.calls = .error message → allowed (.provider message))
    (answered : ∀ value, answer state.calls = .ok value →
      post value { state with calls := state.calls ++ [record value] }) :
    Ensures allowed (ask answer record) state post := by
  cases given : answer state.calls with
  | error message =>
      have refused : ask answer record state = .error (.provider message) := by
        rw [ask, given]
      rw [Ensures, refused]
      exact failed message given
  | ok value =>
      have returned : ask answer record state =
          .ok (value, { state with calls := state.calls ++ [record value] }) := by
        rw [ask, given]
      rw [Ensures, returned]
      exact answered value given

def resolveSlotRef (slot : SlotId) (ctx : Context) (aliases : Alias) : SlotIndex :=
  match aliases.lookup slot with
  | some owner => owner
  | none => (ctx.find? fun item => item.slot = slot).getD ⟨slot, 0⟩

def bindSession (expectedSession session : BuildSessionId) (diagnostic : RecipeDiagnostic)
    (detail : String) : Except Failure Unit :=
  require (session = expectedSession) (recipeError diagnostic detail)

section Checks

variable (m : RecipeModule)

def categoryOf (node : BackendNodeTypeId) : Option BackendNodeCategoryId :=
  (lastRow NodeCategoryRow.node m.nodeCategories node).map NodeCategoryRow.category

def nodeFieldsOf (node : BackendNodeTypeId) : List TargetFieldDescriptor :=
  (m.nodeFields.filter fun row => row.node = node).map fun row =>
    ⟨row.id, row.kind, row.typeId, row.card⟩

/-- Whether a number of nodes is within a cardinality. -/
def ResultCardinality.admits (rc : ResultCardinality) (n : UInt32) : Prop :=
  match rc.kind with
  | .one => n = 1
  | .optional => n ≤ 1
  | .many => rc.min ≤ n ∧ (rc.max = kUnbounded ∨ n ≤ rc.max)

instance (rc : ResultCardinality) (n : UInt32) : Decidable (rc.admits n) := by
  unfold ResultCardinality.admits
  cases rc.kind <;> infer_instance

/-- The number of the nodes is their count modulo 2^32. -/
def checkResult (nodes : List TargetNodeRef) (rc : ResultCardinality)
    (category : BackendNodeCategoryId) (detail : String) : Except Failure Unit := do
  require (rc.admits nodes.length.toUInt32) (recipeError .resultCardinality detail)
  require (∀ node ∈ nodes, category = 0 ∨ categoryOf m node.type = some category)
    (recipeError .resultType detail)

def validateExtent (slot : SlotId) (n : UInt32) (optional : Bool) : Except Failure Unit :=
  match lastRow SlotRow.id m.slots slot with
  | none => .error (recipeError .inputUnbound "unknown slot id")
  | some row =>
      require (if optional then n ≤ 1 else row.min ≤ n ∧ (row.max = kUnbounded ∨ n ≤ row.max))
        (recipeError .cardinalityError row.name)

/-- What each slot of a callee stands for in a call's arguments. -/
def callAlias (ctx : Context) (aliases : Alias) :
    List (SlotRow × BindingRow) → Except Failure Alias
  | [] => .ok []
  | (slot, argument) :: rest => do
      require (argument.kind = .direct)
        (recipeError .operationForbidden "call argument must be a direct slot binding")
      let later ← callAlias ctx aliases rest
      return later ++ [(slot.id, resolveSlotRef argument.slotRef ctx aliases)]

end Checks

def markNodeProduced (node : TargetNodeRef) : Interpreting Unit := fun state =>
  if node ∈ state.producedNodes then
    .error (recipeError .resultConsumption "duplicate produced node")
  else .ok ((), { state with producedNodes := insert node state.producedNodes })

def markNodeConsumed (node : TargetNodeRef) : Interpreting Unit := fun state =>
  if node ∈ state.consumedNodes then
    .error (recipeError .resultConsumption "node consumed more than once")
  else .ok ((), { state with consumedNodes := insert node state.consumedNodes })

def markNodesConsumed : List TargetNodeRef → Interpreting Unit
  | [] => pure ()
  | node :: rest => do
      markNodeConsumed node
      markNodesConsumed rest

def markLeafUsed (hookId : String) (leaf : OpaqueLeafValueRef) : Interpreting Unit := fun state =>
  if leaf ∈ state.producedLeaves ∨ leaf ∈ state.consumedLeaves then
    .error (recipeError .resultConsumption ("leaf reused " ++ hookId))
  else .ok ((), { state with
    producedLeaves := insert leaf state.producedLeaves,
    consumedLeaves := insert leaf state.consumedLeaves })

section Interpreter

variable (m : RecipeModule) (provider : TargetRecipeProvider) (expectedSession : BuildSessionId)

def projectField (field : FinalizedFieldId) (ctx : Context) (aliases : Alias) :
    Interpreting TypedHookInput := do
  let row ← check <| match lastRow FieldRow.id m.fields field with
    | none => .error (recipeError .inputUnbound "unknown field id")
    | some row => .ok row
  let owner := resolveSlotRef row.slot ctx aliases
  let value ← ask (fun calls => provider.project calls field ctx owner)
    (.project field ctx owner)
  check (require (row.type = 0 ∨ value.type = row.type) (recipeError .inputType row.debugPath))
  return value

section Body

/-! The bodies inside an operation are evaluated by `eval`. -/

variable (eval : Int → Context → Alias → Interpreting (List TargetNodeRef))

def buildBinding (ctx : Context) (aliases : Alias) (index : Int) :
    Interpreting (List GeneratedFieldBinding) := do
  let b ← check (rowAt m.bindings index)
  match b.kind with
  | .direct => do
      let value ← projectField m provider b.fieldId ctx aliases
      return [.direct b.targetField value]
  | .hook => do
      let hook ← check <| match lastRow HookRow.id m.hooks b.hook with
        | none => .error (recipeError .hookMissing b.hookId)
        | some hook => .ok hook
      let value ← projectField m provider b.fieldId ctx aliases
      check (require (value.type = hook.inputType)
        (recipeError .hookType ("hook input " ++ b.hookId)))
      let leaf ← ask (fun calls => provider.applyHook calls hook.id value)
        (.applyHook hook.id value)
      check (bindSession expectedSession leaf.session .hookLifetime b.hookId)
      check (require (leaf.type = hook.outputType)
        (recipeError .hookType ("hook output " ++ b.hookId)))
      markLeafUsed b.hookId leaf
      return [.leaf b.targetField leaf]
  | .nested => do
      let sub ← eval b.nestedBody ctx aliases
      check (checkResult m sub b.nestedResult b.nestedCategory ("nested binding " ++ b.field))
      markNodesConsumed sub
      return [.nodes b.targetField sub]

def evalEmit (op : OpRow) (ctx : Context) (aliases : Alias) :
    Interpreting (List TargetNodeRef) := do
  let bindings ← concat (buildBinding m provider expectedSession eval ctx aliases)
    (indexRange op.bindingsBegin op.bindingsEnd)
  let fields := nodeFieldsOf m op.nodeTypeId
  let ref ← ask (fun calls => provider.emit calls op.nodeTypeId bindings fields)
    (.emit op.nodeTypeId bindings fields)
  check (bindSession expectedSession ref.session .session "emit foreign session")
  check (require (op.nodeTypeId = 0 ∨ ref.type = op.nodeTypeId)
    (recipeError .resultType "emit node type"))
  markNodeProduced ref
  return [ref]

/-- The items of a slot in order, after one of a lesser order. -/
def evalItems (op : OpRow) (ctx : Context) (aliases : Alias) :
    Option UInt64 → List UInt32 → Interpreting (List TargetNodeRef)
  | _, [] => pure []
  | prevOrder, i :: rest => do
      let ord ← ask (fun calls => provider.slotItemOrder calls op.slotId ctx i)
        (.slotItemOrder op.slotId ctx i)
      check (require (prevOrder.all (· < ord) = true) (recipeError .order "slot order ordinals"))
      let sub ← eval op.body (ctx ++ [⟨op.slotId, i⟩]) aliases
      let later ← evalItems op ctx aliases (some ord) rest
      return sub ++ later

def evalForEach (op : OpRow) (ctx : Context) (aliases : Alias) :
    Interpreting (List TargetNodeRef) := do
  let n ← ask (fun calls => provider.slotExtent calls op.slotId ctx) (.slotExtent op.slotId ctx)
  check (validateExtent m op.slotId n false)
  evalItems provider eval op ctx aliases none ((List.range n.toNat).map Nat.toUInt32)

def evalOptional (op : OpRow) (ctx : Context) (aliases : Alias) :
    Interpreting (List TargetNodeRef) := do
  let n ← ask (fun calls => provider.slotExtent calls op.slotId ctx) (.slotExtent op.slotId ctx)
  check (validateExtent m op.slotId n true)
  if n = 1 then eval op.body ctx aliases else return []

def evalCall (op : OpRow) (ctx : Context) (aliases : Alias) :
    Interpreting (List TargetNodeRef) := do
  let callee ← check <| match lastRow RecipeRow.recipeId m.recipes op.recipeId with
    | none => .error (recipeError .resolverZero ("call to unknown recipe " ++ op.recipeId))
    | some callee => .ok callee
  check (require (op.bindingsEnd - op.bindingsBegin = callee.slotsEnd - callee.slotsBegin)
    (recipeError .cardinalityError ("call argument count for " ++ op.recipeId)))
  let arguments ← check (collect (rowAt m.bindings) (indexRange op.bindingsBegin op.bindingsEnd))
  let slots ← check (collect (rowAt m.slots) (indexRange callee.slotsBegin callee.slotsEnd))
  let calleeAlias ← check (callAlias ctx aliases (slots.zip arguments))
  let sub ← eval callee.body ctx calleeAlias
  check (checkResult m sub callee.result callee.resultCategory ("callee result " ++ op.recipeId))
  return sub

def evalOp (ctx : Context) (aliases : Alias) (index : Int) : Interpreting (List TargetNodeRef) := do
  let op ← check (rowAt m.ops index)
  match op.kind with
  | .emit => evalEmit m provider expectedSession eval op ctx aliases
  | .forEach => evalForEach m provider eval op ctx aliases
  | .optionalOp => evalOptional m provider eval op ctx aliases
  | .call => evalCall m eval op ctx aliases

end Body

/-- Fuel bounds how deep bodies are nested. -/
def evalBody : Nat → Int → Context → Alias → Interpreting (List TargetNodeRef)
  | 0, _, _, _ => throw .outOfFuel
  | fuel + 1, bodyIdx, ctx, aliases => do
      let body ← check (rowAt m.bodies bodyIdx)
      concat (evalOp m provider expectedSession (evalBody fuel) ctx aliases)
        (indexRange body.opsBegin body.opsEnd)

/-- The roots of a recipe. -/
def interpretBody (fuel : Nat) (recipe : RecipeRow) : Interpreting (List TargetNodeRef) := do
  check (require (recipe.schemaVersion = kSupportedSchemaVersion)
    (recipeError .version recipe.recipeId))
  let roots ← evalBody m provider expectedSession fuel recipe.body [] []
  check (checkResult m roots recipe.result recipe.resultCategory
    ("top-level result " ++ recipe.recipeId))
  markNodesConsumed roots
  let state ← get
  check (require (state.consumedNodes.card = state.producedNodes.card)
    (recipeError .resultConsumption "unconsumed target node"))
  return roots

/-- The roots with what is on record at the end. -/
def interpretRecipe (fuel : Nat) (recipeIndex : Int) : Except Failure (List TargetNodeRef × State) :=
  match if recipeIndex < 0 then none else m.recipes[recipeIndex.toNat]? with
  | none => .error (recipeError .resolverZero "recipe index")
  | some recipe => interpretBody m provider expectedSession fuel recipe {}

end Interpreter

end Neutrino.Recipe
