import Neutrino.PythonJson
import Neutrino.RecipeModule
import Neutrino.Library.Stateful

/-! The generator's flattening of recipe body trees: the bodies, operations and bindings of
llvm-tblgen's records become the rows of three growing arrays. -/

namespace Neutrino

open PyJson (Dict)
open Recipe (OpKind BindKind)

namespace RecipeFlattening

/-- What ends the generator: a diagnostic of its own, or an exception. -/
inductive Stop
  | died (message : String)
  | raised
  deriving DecidableEq, Repr

/-! Reading the dump. -/

/-- `record[key]` -/
def item (record : Dict) (key : String) : Except Stop PyJson :=
  match record.lookup key with
  | some value => .ok value
  | none => .error .raised

/-- A lookup by key needs a dict. -/
def asRecord : PyJson → Except Stop Dict
  | .dict items => .ok items
  | _ => .error .raised

/-- What a loop over a value runs through. -/
def iterate : PyJson → Except Stop (List PyJson)
  | .list elements => .ok elements
  | .dict items => .ok (items.map fun entry => .str entry.1)
  | .str text => .ok (text.toList.map fun c => .str c.toString)
  | _ => .error .raised

/-- `record.get(key, [])` -/
def getList (record : Dict) (key : String) : PyJson := (record.lookup key).getD (.list [])

def deref (d : Dict) : PyJson → Except Stop PyJson
  | .dict items =>
      if (PyJson.get items "kind").eqStr "def" then
        match items.lookup "def" with
        | some (.str name) => item d name
        | _ => .error .raised
      else .ok (.dict items)
  | value => .ok value

def derefRecord (d : Dict) (ref : PyJson) : Except Stop Dict := deref d ref >>= asRecord

def opKinds : List (String × OpKind) :=
  [("Emit", .emit), ("ForEach", .forEach), ("Optional", .optionalOp), ("Call", .call)]

def bindKinds : List (String × BindKind) :=
  [("Direct", .direct), ("Hook", .hook), ("Nested", .nested)]

/-- A kind outside the table ends the generator; one that is no text cannot be put into its
message. -/
def kindOf {κ : Type} (table : List (String × κ)) (complaint : String) : PyJson → Except Stop κ
  | .str name =>
      match table.lookup name with
      | some kind => .ok kind
      | none => .error (.died (complaint ++ name))
  | _ => .error .raised

/-! The flat arrays. -/

structure OpRow where
  kind : OpKind
  node : PyJson := .str ""
  slot : PyJson := .str ""
  recipeId : PyJson := .str ""
  bb : Nat := 0
  be : Nat := 0
  body : Int := -1
  nodeTypeId : Nat := 0
  slotId : Nat := 0

structure BindingRow where
  kind : BindKind
  field : PyJson := .str ""
  hookId : PyJson := .str ""
  input : PyJson := .str ""
  nestedBody : Int := -1
  fieldId : Nat := 0
  hook : Nat := 0
  slotRef : Nat := 0
  targetField : Nat := 0
  nestedCategory : Nat := 0
  nestedResult : String × Nat × Nat := ("one", 1, 1)

structure Flattener where
  bodies : List (Nat × Nat) := []
  ops : List OpRow := []
  bindings : List BindingRow := []
  opRecipe : List Int := []
  bindingRecipe : List Int := []
  cur : Int := -1

abbrev Flatten := StateT Flattener (Except Stop)

def Flattener.pushOp (flat : Flattener) (row : OpRow) : Flattener :=
  { flat with ops := flat.ops ++ [row], opRecipe := flat.opRecipe ++ [flat.cur] }

def Flattener.pushBinding (flat : Flattener) (row : BindingRow) : Flattener :=
  { flat with bindings := flat.bindings ++ [row], bindingRecipe := flat.bindingRecipe ++ [flat.cur] }

def Flattener.setOp (flat : Flattener) (index : Nat) (change : OpRow → OpRow) : Flattener :=
  { flat with ops := flat.ops.modify index change }

def Flattener.setBinding (flat : Flattener) (index : Nat) (change : BindingRow → BindingRow) :
    Flattener :=
  { flat with bindings := flat.bindings.modify index change }

/-- Appends one row for each operation and keeps what is to be resolved. -/
def appendOps (d : Dict) : List PyJson → Flatten (List (Nat × OpKind × Dict))
  | [] => pure []
  | ref :: rest => do
      let o ← Stateful.check (derefRecord d ref)
      let kind ← Stateful.check (item o "OpKind" >>= kindOf opKinds "unknown op kind ")
      let oi := (← get).ops.length
      modify (·.pushOp { kind })
      let deferred ← appendOps d rest
      return (oi, kind, o) :: deferred

/-- The row of a binding before its nested body is known. -/
def bindingRow (b : Dict) (kind : BindKind) : Except Stop BindingRow := do
  let field ← item b "Field"
  match kind with
  | .direct =>
      let input ← item b "Input"
      return { kind, field, input }
  | .hook =>
      let hookId ← item b "HookId"
      let input ← item b "Input"
      return { kind, field, hookId, input }
  | .nested => return { kind, field }

def appendBindings (d : Dict) : List PyJson → Flatten (List (Nat × PyJson))
  | [] => pure []
  | ref :: rest => do
      let b ← Stateful.check (derefRecord d ref)
      let kind ← Stateful.check (item b "BindKind" >>= kindOf bindKinds "unknown binding kind ")
      let row ← Stateful.check (bindingRow b kind)
      let bi := (← get).bindings.length
      modify (·.pushBinding row)
      if kind = .nested then
        let body ← Stateful.check (item b "Body")
        let deferred ← appendBindings d rest
        return (bi, body) :: deferred
      else appendBindings d rest

section Resolution

variable (d : Dict) (body : PyJson → Flatten Nat)

def resolveBindings : List (Nat × PyJson) → Flatten Unit
  | [] => pure ()
  | (bi, ref) :: rest => do
      let nested ← body ref
      modify (·.setBinding bi fun row => { row with nestedBody := nested })
      resolveBindings rest

def bindingsOf (binds : PyJson) : Flatten (Nat × Nat) := do
  let begin := (← get).bindings.length
  let refs ← Stateful.check (iterate binds)
  let deferred ← appendBindings d refs
  let last := (← get).bindings.length
  resolveBindings body deferred
  return (begin, last)

/-- The bindings of an emit or a call, and their range in its row. -/
def resolveRange (oi : Nat) (o : Dict) : Flatten Unit := do
  let range ← bindingsOf d body (getList o "Bindings")
  modify (·.setOp oi fun row => { row with bb := range.1, be := range.2 })

def resolveOp (oi : Nat) (kind : OpKind) (o : Dict) : Flatten Unit := do
  match kind with
  | .emit =>
      let node ← Stateful.check (item o "Node")
      modify (·.setOp oi fun row => { row with node })
      resolveRange d body oi o
  | .call =>
      let recipeId ← Stateful.check (item o "RecipeId")
      modify (·.setOp oi fun row => { row with recipeId })
      resolveRange d body oi o
  | .forEach | .optionalOp =>
      let slot ← Stateful.check (item o "Slot")
      modify (·.setOp oi fun row => { row with slot })
      let ref ← Stateful.check (item o "Body")
      let nested ← body ref
      modify (·.setOp oi fun row => { row with body := nested })

def resolveOps : List (Nat × OpKind × Dict) → Flatten Unit
  | [] => pure ()
  | (oi, kind, o) :: rest => do
      resolveOp d body oi kind o
      resolveOps rest

end Resolution

def emptySequence : Stop := .died "empty Sequence body (§3.4 forbids an empty sequence)"

/-- Fuel is the depth of Python's calls. -/
def body (d : Dict) : Nat → PyJson → Flatten Nat
  | 0, _ => throw .raised
  | fuel + 1, ref => do
      let seq ← Stateful.check (derefRecord d ref)
      let ops := getList seq "Ops"
      if ops.truthy then
        let begin := (← get).ops.length
        let refs ← Stateful.check (iterate ops)
        let deferred ← appendOps d refs
        let last := (← get).ops.length
        resolveOps d (body d fuel) deferred
        modify fun flat => { flat with bodies := flat.bodies ++ [(begin, last)] }
        return (← get).bodies.length - 1
      else throw emptySequence

/-- The bodies of the package's recipes, each stamped with the recipe's index. -/
def flattenRecipes (d : Dict) (fuel : Nat) : Nat → List PyJson → Flatten (List Nat)
  | _, [] => pure []
  | recipe, ref :: rest => do
      modify fun flat => { flat with cur := recipe }
      let index ← body d fuel ref
      let others ← flattenRecipes d fuel (recipe + 1) rest
      return index :: others

end RecipeFlattening

end Neutrino
