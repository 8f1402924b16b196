import Mathlib

/-! The typed value model: every declared type name falls into one category, and
arithmetic, guards, operands and the execution claim read only the category. -/

namespace Neutrino

inductive ValueCategory
  | money
  | decimal
  | party
  | currency
  | evidence
  | string
  | extension
  deriving DecidableEq, Repr

/-- The numeric spellings fold into `decimal`; any name outside the governed set is an
extension type. -/
def classifyValueType (type : String) : ValueCategory :=
  if type = "money" then .money
  else if type = "decimal" then .decimal
  else if type = "number" then .decimal
  else if type = "int" then .decimal
  else if type = "integer" then .decimal
  else if type = "uint" then .decimal
  else if type = "party" then .party
  else if type = "currency" then .currency
  else if type = "evidence" then .evidence
  else if type = "string" then .string
  else .extension

def isTemporalType (type : String) : Bool :=
  type = "timestamp" || type = "instant" || type = "datetime" || type = "date" ||
    type = "time" || type = "duration"

def isCanonicalCategory (category : ValueCategory) : Bool :=
  category ≠ .extension

def isNumericCategory (category : ValueCategory) : Bool :=
  category = .money || category = .decimal

def categoryName : ValueCategory → String
  | .money => "money"
  | .decimal => "decimal"
  | .party => "party"
  | .currency => "currency"
  | .evidence => "evidence"
  | .string => "string"
  | .extension => "extension"

def categoryFromName (name : String) : ValueCategory :=
  if name = "money" then .money
  else if name = "decimal" then .decimal
  else if name = "party" then .party
  else if name = "currency" then .currency
  else if name = "evidence" then .evidence
  else if name = "string" then .string
  else .extension

@[simp] theorem categoryFromName_categoryName (category : ValueCategory) :
    categoryFromName (categoryName category) = category := by
  cases category <;> decide

@[simp] theorem classifyValueType_categoryName (category : ValueCategory) :
    classifyValueType (categoryName category) = category := by
  cases category <;> decide

/-- Distinct categories are tagged with distinct names on the wire. -/
theorem categoryName_injective : Function.Injective categoryName := by
  intro left right same
  have names := congrArg categoryFromName same
  simpa using names

end Neutrino
