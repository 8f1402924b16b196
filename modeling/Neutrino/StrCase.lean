import Mathlib

/-! String case for event names. -/

namespace Neutrino

def capitalize : List Char → List Char
  | [] => []
  | first :: rest => first.toUpper :: rest.map Char.toLower

/-- The words between underscores, each capitalized, run together. -/
def pascalCase (name : String) : String :=
  String.ofList ((name.toList.splitOn '_').flatMap capitalize)

example : pascalCase "settle_TRADE__fee" = "SettleTradeFee" := by decide

end Neutrino
