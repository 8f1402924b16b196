import Mathlib

/-! The generated tables of a recipe package, what passes between the runtime and a provider, and
the diagnostics a recipe fails with. -/

namespace Neutrino.Recipe

abbrev RegisteredHookId := UInt32
abbrev FinalizedValueTypeId := UInt32
abbrev BackendLeafTypeId := UInt32
abbrev BackendNodeTypeId := UInt32
abbrev BackendNodeCategoryId := UInt32
abbrev SlotId := UInt32
abbrev FinalizedFieldId := UInt32
abbrev TargetFieldId := UInt32
abbrev BuildSessionId := UInt64

inductive Cardinality
  | one
  | optional
  | many
  deriving DecidableEq, Repr

def kUnbounded : UInt32 := 0xffffffff

structure ResultCardinality where
  kind : Cardinality := .one
  min : UInt32 := 1
  max : UInt32 := 1
  deriving DecidableEq, Repr

structure TypedHookInput where
  type : FinalizedValueTypeId := 0
  value : UInt64 := 0
  deriving DecidableEq, Repr

structure OpaqueLeafValueRef where
  session : BuildSessionId := 0
  type : BackendLeafTypeId := 0
  ordinal : UInt64 := 0
  deriving DecidableEq, Repr

structure TargetNodeRef where
  session : BuildSessionId := 0
  type : BackendNodeTypeId := 0
  ordinal : UInt64 := 0
  deriving DecidableEq, Repr

/-- One active item, by its slot and its ordinal in it. -/
structure SlotIndex where
  slot : SlotId := 0
  index : UInt32 := 0
  deriving DecidableEq, Repr

inductive TargetFieldKind
  | value
  | leaf
  | nodes
  deriving DecidableEq, Repr

structure TargetFieldDescriptor where
  id : TargetFieldId := 0
  kind : TargetFieldKind := .value
  typeId : UInt32 := 0
  card : ResultCardinality := {}
  deriving DecidableEq, Repr

inductive GeneratedFieldBinding
  | direct (targetField : TargetFieldId) (value : TypedHookInput)
  | leaf (targetField : TargetFieldId) (leaf : OpaqueLeafValueRef)
  | nodes (targetField : TargetFieldId) (nodes : List TargetNodeRef)
  deriving DecidableEq, Repr

inductive OpKind
  | emit
  | forEach
  | optionalOp
  | call
  deriving DecidableEq, Repr

inductive BindKind
  | direct
  | hook
  | nested
  deriving DecidableEq, Repr

structure BindingRow where
  kind : BindKind := .direct
  field : String := ""
  hookId : String := ""
  nestedBody : Int := -1
  fieldId : FinalizedFieldId := 0
  hook : RegisteredHookId := 0
  slotRef : SlotId := 0
  targetField : TargetFieldId := 0
  nestedCategory : BackendNodeCategoryId := 0
  nestedResult : ResultCardinality := {}
  deriving DecidableEq, Repr

structure OpRow where
  kind : OpKind := .emit
  node : String := ""
  slot : String := ""
  recipeId : String := ""
  bindingsBegin : Int := 0
  bindingsEnd : Int := 0
  body : Int := -1
  nodeTypeId : BackendNodeTypeId := 0
  slotId : SlotId := 0
  deriving DecidableEq, Repr

structure BodyRow where
  opsBegin : Int := 0
  opsEnd : Int := 0
  deriving DecidableEq, Repr

structure SlotRow where
  name : String := ""
  id : SlotId := 0
  finalizedTypeId : FinalizedValueTypeId := 0
  cardinality : Cardinality := .one
  min : UInt32 := 1
  max : UInt32 := 1
  parentSlot : UInt32 := 0
  deriving DecidableEq, Repr

structure FieldRow where
  id : FinalizedFieldId := 0
  type : FinalizedValueTypeId := 0
  slot : SlotId := 0
  debugPath : String := ""
  deriving DecidableEq, Repr

structure NodeFieldRow where
  node : BackendNodeTypeId := 0
  id : TargetFieldId := 0
  kind : TargetFieldKind := .value
  typeId : UInt32 := 0
  card : ResultCardinality := {}
  deriving DecidableEq, Repr

structure NodeCategoryRow where
  node : BackendNodeTypeId := 0
  category : BackendNodeCategoryId := 0
  deriving DecidableEq, Repr

structure RecipeRow where
  recipeId : String := ""
  schemaVersion : Int := 1
  slotsBegin : Int := 0
  slotsEnd : Int := 0
  result : ResultCardinality := {}
  body : Int := 0
  resultCategory : BackendNodeCategoryId := 0
  deriving DecidableEq, Repr

structure HookRow where
  hookId : String := ""
  id : RegisteredHookId := 0
  inputType : FinalizedValueTypeId := 0
  outputType : BackendLeafTypeId := 0
  deriving DecidableEq, Repr

def kSupportedSchemaVersion : Int := 1

structure RecipeModule where
  recipes : List RecipeRow := []
  slots : List SlotRow := []
  fields : List FieldRow := []
  nodeFields : List NodeFieldRow := []
  nodeCategories : List NodeCategoryRow := []
  bodies : List BodyRow := []
  ops : List OpRow := []
  bindings : List BindingRow := []
  hooks : List HookRow := []
  deriving DecidableEq, Repr

inductive RecipeDiagnostic
  | version
  | resolverZero
  | resolverMultiple
  | targetMismatch
  | inputUnbound
  | inputType
  | cardinalityError
  | resultType
  | resultCardinality
  | resultConsumption
  | order
  | cycle
  | session
  | finish
  | hookMissing
  | hookType
  | hookExecution
  | hookLifetime
  | operationForbidden
  | reachback
  deriving DecidableEq, Repr

def diagnosticCode : RecipeDiagnostic → String
  | .version => "idiom.recipe.version"
  | .resolverZero => "idiom.recipe.resolver_zero"
  | .resolverMultiple => "idiom.recipe.resolver_multiple"
  | .targetMismatch => "idiom.recipe.target_mismatch"
  | .inputUnbound => "idiom.recipe.input_unbound"
  | .inputType => "idiom.recipe.input_type"
  | .cardinalityError => "idiom.recipe.cardinality"
  | .resultType => "idiom.recipe.result_type"
  | .resultCardinality => "idiom.recipe.result_cardinality"
  | .resultConsumption => "idiom.recipe.result_consumption"
  | .order => "idiom.recipe.order"
  | .cycle => "idiom.recipe.cycle"
  | .session => "idiom.recipe.session"
  | .finish => "idiom.recipe.finish"
  | .hookMissing => "idiom.recipe.hook_missing"
  | .hookType => "idiom.recipe.hook_type"
  | .hookExecution => "idiom.recipe.hook_execution"
  | .hookLifetime => "idiom.recipe.hook_lifetime"
  | .operationForbidden => "idiom.recipe.operation_forbidden"
  | .reachback => "idiom.recipe.reachback"

/-- How an interpretation fails: with one of the runtime's diagnostics, with an error of the
provider, by a row that is not there, or not at all within the steps allowed. -/
inductive Failure
  | recipe (diagnostic : RecipeDiagnostic) (detail : String)
  | provider (message : String)
  | outOfRange
  | outOfFuel
  deriving DecidableEq, Repr

def recipeError (diagnostic : RecipeDiagnostic) (detail : String) : Failure :=
  .recipe diagnostic detail

/-- The text a failed recipe carries. -/
def recipeMessage (diagnostic : RecipeDiagnostic) (detail : String) : String :=
  diagnosticCode diagnostic ++ if detail = "" then "" else ": " ++ detail

end Neutrino.Recipe
