import Neutrino.Library.HexText
import Neutrino.SolidityContract

/-! The execution claim three times: as the reference hashes it, as the generated PostgreSQL
procedure computes it and as the generated Solidity contract does, each from the declared inputs
of one call. Constants and names are read from the text that the generator writes for them. -/

namespace Neutrino

/-- The value of a declared input: a non-negative number, or a token. -/
inductive InputValue
  | number (value : Nat)
  | token (text : String)
  deriving DecidableEq, Repr

structure DeclaredInput where
  name : String
  type : String
  value : InputValue
  deriving DecidableEq, Repr

def InputValue.text : InputValue → String
  | .number value => toString value
  | .token text => text

/-- A numeric category takes numbers, a governed one tokens, an extension either. -/
def DeclaredInput.Typed (input : DeclaredInput) : Prop :=
  match input.value with
  | .number value => (isNumericCategory (classifyValueType input.type) ∨
      ¬isCanonicalCategory (classifyValueType input.type)) ∧ value < 2 ^ 63
  | .token _ => ¬isNumericCategory (classifyValueType input.type)

instance (input : DeclaredInput) : Decidable input.Typed := by
  unfold DeclaredInput.Typed
  cases input.value <;> exact inferInstance

/-- The parameters of a call: the declared inputs, with the workflow key. -/
def callParams (key : DeclaredInput) (inputs : List DeclaredInput) : List DeclaredInput :=
  if key ∈ inputs then inputs else key :: inputs

def executionInput (input : DeclaredInput) : ExecutionInput :=
  { name := input.name
    category := categoryName (classifyValueType input.type)
    value := input.value.text }

def claimInputOf (input : DeclaredInput) : Projection.ExecutionClaimInput :=
  { name := input.name, type := input.type }

/-! PostgreSQL. -/

namespace Sql

inductive ColumnType
  | bigint
  | text
  deriving DecidableEq, Repr

def sqlType (type : String) : ColumnType :=
  match classifyValueType type with
  | .money | .decimal => .bigint
  | _ => .text

def sqlEsc (text : List Char) : List Char :=
  text.flatMap fun c => if c = '\'' then ['\'', '\''] else [c]

def sqlQuote (text : String) : String := String.ofList ('\'' :: (sqlEsc text.toList ++ ['\'']))

/-- A string constant from behind its opening quote. -/
def readConstant : List Char → Option (List Char)
  | ['\''] => some []
  | '\'' :: '\'' :: rest => (readConstant rest).map ('\'' :: ·)
  | [] => none
  | c :: rest => if c = '\'' ∨ c = '\x00' then none else (readConstant rest).map (c :: ·)

def constant (source : String) : Option String :=
  match source.toList with
  | '\'' :: rest => (readConstant rest).map String.ofList
  | _ => none

/-- The characters of an unquoted name. -/
def isNamePart (c : Char) : Bool := c.isAlphanum || c = '_' || c = '$' || 128 ≤ c.toNat

/-- A name keeps as many characters as fit its bytes. -/
def clip : Nat → List Char → List Char
  | _, [] => []
  | bytes, c :: rest => if c.utf8Size ≤ bytes then c :: clip (bytes - c.utf8Size) rest else []

/-- An unquoted name is folded to lower case and cut to 63 bytes. -/
def foldName (source : String) : String := String.ofList (clip 63 (source.toList.map Char.toLower))

def identifier (source : String) : Option String :=
  if source.toList.all isNamePart ∧ source.toList.head?.all (fun c => !c.isDigit && c ≠ '$') then
    some (foldName source)
  else none

inductive Datum
  | bigint (value : Nat)
  | text (value : String)
  deriving DecidableEq, Repr

def Datum.asText : Datum → String
  | .bigint value => toString value
  | .text value => value

def argument (type : ColumnType) (value : InputValue) : Option Datum :=
  match type, value with
  | .bigint, .number value => some (.bigint value)
  | .bigint, .token _ => none
  | .text, value => some (.text value.text)

abbrev Scope := List (String × Datum)

def paramName (name : String) : String := "p_" ++ name

/-- The name that a parameter goes by. -/
def declaredName (input : DeclaredInput) : String := foldName (paramName input.name)

/-- The parameters of the procedure with their values; two of one name are an error. -/
def declare : List DeclaredInput → Option Scope
  | [] => some []
  | input :: rest => do
      let name ← identifier (paramName input.name)
      let datum ← argument (sqlType input.type) input.value
      let scope ← declare rest
      if name ∈ scope.map Prod.fst then none else return (name, datum) :: scope

inductive Term
  | constant (source : String)
  | param (source : String)
  | asText (source : String)
  deriving DecidableEq, Repr

section Scope

variable (scope : Scope)

def resolve (source : String) : Option Datum := do
  let name ← identifier source
  scope.lookup name

/-- A term where a function takes text: a constant has no type yet, a bigint does not convert. -/
def textArgument : Term → Option String
  | .constant source => constant source
  | .param source =>
      match resolve scope source with
      | some (.text value) => some value
      | _ => none
  | .asText source => (resolve scope source).map Datum.asText

/-- A term in an array that is cast to text[], which casts each element. -/
def textElement : Term → Option String
  | .constant source => constant source
  | .param source | .asText source => (resolve scope source).map Datum.asText

end Scope

structure ClaimArrays where
  identity : String
  names : List Term
  cats : List Term
  vals : List Term
  deriving DecidableEq, Repr

def claimTerm (input : Projection.ExecutionClaimInput) : Term :=
  if isNumericCategory (classifyValueType input.type) then .asText (paramName input.name)
  else .param (paramName input.name)

/-- The declared inputs in the order of their names; every one needs its parameter. -/
def buildClaimArrays (coordinationIdentity : String)
    (claimInputs : List Projection.ExecutionClaimInput) (params : List String) :
    Option ClaimArrays :=
  let sorted := SortOn.sortOn Projection.ExecutionClaimInput.name claimInputs
  if ∀ input ∈ sorted, input.name ∈ params then
    some {
      identity := coordinationIdentity
      names := sorted.map fun input => .constant (sqlQuote input.name)
      cats := sorted.map fun input =>
        .constant (sqlQuote (categoryName (classifyValueType input.type)))
      vals := sorted.map claimTerm }
  else none

def lpad (text : List Char) (length : Nat) (fill : Char) : List Char :=
  if text.length < length then List.replicate (length - text.length) fill ++ text
  else text.take length

def hexValue (c : Char) : Option Nat :=
  if '0' ≤ c ∧ c ≤ '9' then some (c.toNat - '0'.toNat)
  else if 'a' ≤ c ∧ c ≤ 'f' then some (c.toNat - 'a'.toNat + 10)
  else if 'A' ≤ c ∧ c ≤ 'F' then some (c.toNat - 'A'.toNat + 10)
  else none

def decodeHex : List Char → Option (List UInt8)
  | [] => some []
  | high :: low :: rest => do
      let high ← hexValue high
      let low ← hexValue low
      let bytes ← decodeHex rest
      return UInt8.ofNat (high * 16 + low) :: bytes
  | _ => none

def neuFrame (x : String) : Option (List UInt8) := do
  let length ← decodeHex (lpad (Nat.toDigits 16 (utf8 x).length) 16 '0')
  return length ++ utf8 x

/-- The loop over the three arrays, which ends with the names. -/
def claimLoop : List String → List String → List String → List UInt8 → Option (List UInt8)
  | [], _, _, pre => some pre
  | name :: names, cat :: cats, val :: vals, pre => do
      let name ← neuFrame name
      let cat ← neuFrame cat
      let val ← neuFrame val
      claimLoop names cats vals (pre ++ name ++ cat ++ val)
  | _, _, _, _ => none

section Digest

variable (sha256 : List UInt8 → List UInt8)

def neuExecutionClaim (coordId key : String) (names cats vals : List String) : Option String := do
  let domain ← neuFrame "neutrino.coordination-envelope.v1"
  let coordId ← neuFrame coordId
  let key ← neuFrame key
  let count ← neuFrame (toString names.length)
  let pre ← claimLoop names cats vals (domain ++ coordId ++ key ++ count)
  return HexText.hexText (sha256 pre)

/-- The claim that a call of the procedure computes, or nothing when it raises. -/
def procedureClaim (coordinationIdentity : String) (key : DeclaredInput)
    (inputs : List DeclaredInput) : Option String := do
  let params := callParams key inputs
  let scope ← declare params
  let arrays ← buildClaimArrays coordinationIdentity (inputs.map claimInputOf)
    (params.map DeclaredInput.name)
  let identity ← textArgument scope (.constant (sqlQuote arrays.identity))
  let key ← textArgument scope (.param (paramName key.name))
  let names ← arrays.names.mapM (textElement scope)
  let cats ← arrays.cats.mapM (textElement scope)
  let vals ← arrays.vals.mapM (textElement scope)
  neuExecutionClaim sha256 identity key names cats vals

end Digest

end Sql

/-! Solidity. -/

namespace Solidity

def solEscape (c : Char) : List Char :=
  if c = '\\' then ['\\', '\\'] else if c = '"' then ['\\', '"'] else [c]

def solString (text : String) : String :=
  String.ofList ('"' :: (text.toList.flatMap solEscape ++ ['"']))

/-- What stands in a string literal without an escape. -/
def isPrintable (c : Char) : Bool := 32 ≤ c.toNat && c.toNat ≤ 126

/-- The character that an escape of one character stands for. -/
def escaped (c : Char) : Option Char :=
  if c = '\\' ∨ c = '"' ∨ c = '\'' then some c
  else if c = 'n' then some '\n'
  else if c = 'r' then some '\r'
  else if c = 't' then some '\t'
  else none

/-- A string literal from behind its opening quote. -/
def readLiteral : List Char → Option (List Char)
  | ['"'] => some []
  | '\\' :: c :: rest => do
      let c ← escaped c
      let text ← readLiteral rest
      return c :: text
  | [] => none
  | c :: rest =>
      if isPrintable c ∧ c ≠ '"' ∧ c ≠ '\\' then (readLiteral rest).map (c :: ·) else none

def literal (source : String) : Option (List UInt8) :=
  match source.toList with
  | '"' :: rest => (readLiteral rest).map fun text => utf8 (String.ofList text)
  | _ => none

def isNamePart (c : Char) : Bool := c.isAlphanum || c = '_' || c = '$'

def isSolidityIdentifier (name : String) : Bool :=
  name.toList.all isNamePart && name.toList.head?.any fun c => !c.isDigit

def argument (type : SolType) (value : InputValue) : Option Argument :=
  match type, value with
  | .uint256, .number value => (fits256 value).map .uint256
  | .uint256, .token _ => none
  | .string, value => some (.string (utf8 value.text))

/-- The parameters of `execute` with their values. -/
def declare : List DeclaredInput → Option Locals
  | [] => some []
  | input :: rest => do
      let value ← argument (solType input.type) input.value
      let locals ← declare rest
      if isSolidityIdentifier (uref input.name) then return (uref input.name, value) :: locals
      else none

inductive Term
  | literal (source : String)
  | param (source : String)
  | u2s (source : String)
  deriving DecidableEq, Repr

/-- The digits of a number, the last one first. -/
def u2sDigits (value : Nat) (digits : List UInt8) : List UInt8 :=
  if value = 0 then digits else u2sDigits (value / 10) (UInt8.ofNat (48 + value % 10) :: digits)

def u2s (value : Nat) : List UInt8 := if value = 0 then [48] else u2sDigits value []

def stringTerm (locals : Locals) : Term → Option (List UInt8)
  | .literal source => literal source
  | .param source => stringOf locals source
  | .u2s source => (uintOf locals source).map u2s

def claimTerm (input : Projection.FinalizedExecutionClaimInput) : Term :=
  match solType input.type with
  | .uint256 => .u2s (uref input.name)
  | .string => .param (uref input.name)

def claimLoop : List (List UInt8) → List (List UInt8) → List (List UInt8) → List UInt8 →
    List UInt8
  | name :: names, category :: categories, value :: values, p =>
      claimLoop names categories values
        (p ++ Framing.frame name ++ Framing.frame category ++ Framing.frame value)
  | _, _, _, p => p

section Digest

variable (sha256 : List UInt8 → List UInt8)

def envelopeClaim (coordinationIdentity workflowKey : List UInt8)
    (names categories values : List (List UInt8)) : Option (List UInt8) :=
  if names.length = categories.length ∧ names.length = values.length then
    some (sha256 (claimLoop names categories values
      (Framing.frame (utf8 "neutrino.coordination-envelope.v1") ++
        Framing.frame coordinationIdentity ++ Framing.frame workflowKey ++
        Framing.frame (u2s names.length))))
  else none

/-- The claim that a call of `execute` computes, or nothing when the contract is ill typed. -/
def contractClaim (coordinationIdentity : String) (key : DeclaredInput)
    (inputs : List DeclaredInput) : Option (List UInt8) := do
  let locals ← declare (callParams key inputs)
  let sorted := Projection.finalizedClaimInputs (inputs.map claimInputOf)
  let names ← sorted.mapM fun input => stringTerm locals (.literal (solString input.name))
  let categories ← sorted.mapM fun input => stringTerm locals (.literal (solString input.category))
  let values ← sorted.mapM fun input => stringTerm locals (claimTerm input)
  let identity ← stringTerm locals (.literal (solString coordinationIdentity))
  let key ← stringTerm locals (.param (uref key.name))
  envelopeClaim sha256 identity key names categories values

end Digest

end Solidity

end Neutrino
