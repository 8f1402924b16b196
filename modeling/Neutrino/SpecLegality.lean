import Neutrino.BindingManifest
import Neutrino.PlanLegality
import Neutrino.Library.SortOn

/-! The two legality gates that match a spec's target requirements against a target profile: the
translator's own, and the script that runs before it. -/

namespace Neutrino.SpecLegality

open Json
open PlanLegality (Diagnostic diag)

/-! The translator's gate. -/

def isStrList (value : Option Json) : Bool :=
  match value.bind asArray with
  | some elements => elements.all fun element => element.asString.isSome
  | none => false

/-- An object of a line and a column, both integers. -/
def isSpan (value : Json) : Bool :=
  match value.asObject with
  | some span => span.length = 2 && (span.getInteger "line").isSome &&
      (span.getInteger "column").isSome
  | none => false

def srcLine (source : Json) : Int :=
  match source.asObject with
  | some span => int32OfInt64 ((span.getInteger "line").getD 0)
  | none => 0

structure Requirement where
  feature : String
  primitive : String
  level : String
  source : Option Json

def requirementFromJson (value : Json) : Option Requirement := do
  let r ← value.asObject
  let feature ← r.getString "feature"
  let primitive ← r.getString "primitive"
  let level ← r.getString "requirement"
  let source := r.get "source"
  if (level = "required" ∨ level = "optional") ∧
      source.all (fun source => source.isNull || isSpan source) then
    some { feature, primitive, level, source }
  else none

/-- What the profile says of features, once its shape is checked. -/
structure Features where
  supported : List String
  unsupported : List String
  advisory : Bool

/-- A feature is met, waived by an advisory fallback, or missing. -/
inductive Match
  | met
  | waived
  | missing
  deriving DecidableEq, Repr

def Features.matches (features : Features) (feature level : String) : Match :=
  if feature ∈ features.supported then .met
  else if level = "optional" ∧ features.advisory ∧ feature ∉ features.unsupported then .waived
  else .missing

def Features.reason (features : Features) (feature : String) : String :=
  if feature ∈ features.unsupported then "explicitly unsupported by" else "not supported by"

def srcText (source : Option Json) : String :=
  match source with
  | some source => if isSpan source then " [line " ++ toString (srcLine source) ++ "]" else ""
  | none => ""

def malformedRecord : Diagnostic :=
  diag "legality.bad_input" "a spec requirement record is malformed"

/-- The diagnostic of one requirement, if it has one. -/
def checkRequirement (features : Features) (profileId : String) (value : Json) :
    Option Diagnostic :=
  match requirementFromJson value with
  | none => some malformedRecord
  | some r =>
      match features.matches r.feature r.level with
      | .met => none
      | .waived => some ⟨"warning", "legality.advisory", "optional feature '" ++ r.feature ++ "' (" ++
          r.primitive ++ ") is unmet; allowed by advisory fallback" ++ srcText r.source⟩
      | .missing => some (diag "legality.unsupported_feature" (r.level ++ " feature '" ++ r.feature ++
          "' (" ++ r.primitive ++ ") is " ++ features.reason r.feature ++ " target profile '" ++
          profileId ++ "'" ++ srcText r.source))

def strings (value : Option Json) : List String :=
  ((value.bind asArray).getD []).filterMap asString

/-- The requirements and the features of a profile, or what is missing of them. -/
def readInputs (spec profile : Object) : Except Diagnostic (List Json × Features) :=
  match (spec.getObject "targetRequirements").bind fun tr => tr.getArray "requirements" with
  | none => .error (diag "legality.bad_input"
      "spec.targetRequirements.requirements is missing or not an array")
  | some reqs =>
      if !isStrList (profile.get "supportedFeatures") then
        .error (diag "legality.bad_input" "profile.supportedFeatures must be an array of strings")
      else if !isStrList (profile.get "unsupportedConstructs") then
        .error (diag "legality.bad_input"
          "profile.unsupportedConstructs must be an array of strings")
      else
        .ok (reqs, {
          supported := strings (profile.get "supportedFeatures")
          unsupported := strings (profile.get "unsupportedConstructs")
          advisory := profile.getString "fallbackPolicy" = some "advisory" })

/-- A profile of one target may not gate another. -/
def checkTarget (profile : Object) (expectedTarget : String) : List Diagnostic :=
  if expectedTarget ≠ "" ∧ profile.getString "target" ≠ some expectedTarget then
    [diag "legality.target_mismatch" ("profile governs target '" ++
      (profile.getString "target").getD "" ++ "', not '" ++ expectedTarget ++ "'")]
  else []

def checkSpecLegality (spec profile : Object) (expectedTarget : String) : List Diagnostic :=
  match readInputs spec profile with
  | .error refused => [refused]
  | .ok (reqs, features) =>
      SortOn.sortOn Diagnostic.code
        (reqs.filterMap (checkRequirement features (profile.stringOr "profileId")) ++
          checkTarget profile expectedTarget)

def specIsLegal (diags : List Diagnostic) : Bool :=
  diags.all fun d => d.severity ≠ "error"

/-- Which requirements are waived, in the order they stand in. -/
def waivedRequirements (spec profile : Object) : List Bool :=
  match readInputs spec profile with
  | .error _ => []
  | .ok (reqs, features) => reqs.map fun value =>
      (checkRequirement features (profile.stringOr "profileId") value).any
        fun d => d.code = "legality.advisory"

/-! The script. -/

namespace Script

open PyJson (isStr isNone isDict eqStr)

/-- A diagnostic of the script: of a requirement it also carries feature, primitive and source. -/
structure Diag where
  code : String
  severity : String := "error"
  message : String
  feature : Option String := none
  primitive : Option String := none
  source : PyJson := .none

def strList : PyJson → Bool
  | .list elements => elements.all isStr
  | _ => false

def isInt : PyJson → Bool
  | .int _ => true
  | _ => false

def isSpan : PyJson → Bool
  | .dict span => (span.all fun item => item.1 = "line" || item.1 = "column") &&
      isInt (PyJson.get span "line") && isInt (PyJson.get span "column")
  | _ => false

/-- The line of a span, zero without a source. -/
def srcLine : PyJson → Int
  | .dict span =>
      match PyJson.get span "line" with
      | .int line => line
      | _ => 0
  | _ => 0

structure Requirement where
  feature : String
  primitive : String
  level : String
  source : PyJson

def textOf : PyJson → Option String
  | .str text => some text
  | _ => none

def itemsOf : PyJson → Option PyJson.Dict
  | .dict items => some items
  | _ => none

def requirement (value : PyJson) : Option Requirement := do
  let r ← itemsOf value
  let feature ← textOf (PyJson.get r "feature")
  let primitive ← textOf (PyJson.get r "primitive")
  let level ← textOf (PyJson.get r "requirement")
  let source := PyJson.get r "source"
  if (level = "required" ∨ level = "optional") ∧ (isNone source || isSpan source) then
    some { feature, primitive, level, source }
  else none

section

variable (repr : PyJson → String)

def checkRequirement (features : Features) (profileId : PyJson) (value : PyJson) : Option Diag :=
  match requirement value with
  | none => some { code := "legality.bad_input", message := "a spec requirement record is malformed" }
  | some r =>
      match features.matches r.feature r.level with
      | .met => none
      | .waived => some {
          code := "legality.advisory"
          severity := "warning"
          message := "optional feature '" ++ r.feature ++ "' (" ++ r.primitive ++
            ") is unmet; allowed by advisory fallback"
          feature := r.feature
          primitive := r.primitive
          source := r.source }
      | .missing => some {
          code := "legality.unsupported_feature"
          message := r.level ++ " feature '" ++ r.feature ++ "' (" ++ r.primitive ++ ") is " ++
            features.reason r.feature ++ " target profile '" ++ BindingManifest.shown repr profileId ++
            "'"
          feature := r.feature
          primitive := r.primitive
          source := r.source }

def texts : PyJson → List String
  | .list elements => elements.filterMap textOf
  | _ => []

/-- `value.get(key) if isinstance(value, dict) else None` -/
def getIn (value : PyJson) (key : String) : PyJson :=
  match value with
  | .dict items => PyJson.get items key
  | _ => .none

def badInput (message : String) : Diag := { code := "legality.bad_input", message }

def readInputs (spec profile : PyJson) : Except Diag (List PyJson × Features) :=
  match getIn (getIn spec "targetRequirements") "requirements" with
  | .list reqs =>
      if !strList (getIn profile "supportedFeatures") then
        .error (badInput "profile.supportedFeatures must be an array of strings")
      else if !strList (getIn profile "unsupportedConstructs") then
        .error (badInput "profile.unsupportedConstructs must be an array of strings")
      else
        .ok (reqs, {
          supported := texts (getIn profile "supportedFeatures")
          unsupported := texts (getIn profile "unsupportedConstructs")
          advisory := eqStr (getIn profile "fallbackPolicy") "advisory" })
  | _ => .error (badInput "spec.targetRequirements.requirements is missing or not an array")

/-- By source line, then feature, then code. -/
def rootCause (d : Diag) : Int ×ₗ String ×ₗ String :=
  toLex (srcLine d.source, toLex (d.feature.getD "", d.code))

def check (spec profile : PyJson) : List Diag :=
  match readInputs spec profile with
  | .error refused => [refused]
  | .ok (reqs, features) => SortOn.sortOn rootCause
      (reqs.filterMap (checkRequirement repr features (getIn profile "profileId")))

/-- The diagnostics of a run on two documents that could be read. -/
def main (spec profile : PyJson) (target : String) : List Diag :=
  let diagnostics := check repr spec profile
  if target ≠ "" ∧ isDict profile ∧ !eqStr (getIn profile "target") target then
    SortOn.sortOn rootCause (diagnostics ++ [{
      code := "legality.target_mismatch"
      message := "profile governs target '" ++ BindingManifest.shown repr (getIn profile "target") ++
        "', not '" ++ target ++ "'" }])
  else diagnostics

def ok (diagnostics : List Diag) : Bool :=
  !diagnostics.any fun d => d.severity = "error"

def waivedRequirements (spec profile : PyJson) : List Bool :=
  match readInputs spec profile with
  | .error _ => []
  | .ok (reqs, features) => reqs.map fun value =>
      (checkRequirement repr features (getIn profile "profileId") value).any
        fun d => d.code = "legality.advisory"

end

end Script

end Neutrino.SpecLegality
