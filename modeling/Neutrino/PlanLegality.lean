import Neutrino.Json
import Neutrino.OracleInvariant

/-! The semantic realization-legality gate: the requirements and metrics a plan derives, matched
against a target's semantic profile before anything is lowered. -/

namespace Neutrino

namespace PlanLegality

open Json

def kSemanticProfileVersion : Int32 := 3

structure SemanticRequirement where
  feature : String
  primitive : String
  deriving DecidableEq, Repr

structure PlanMetrics where
  expressionDepth : Int32
  effectCount : Int32
  effectGroupCount : Int32
  attestationCount : Int32
  computeCount : Int32
  operationSteps : Int32
  deriving DecidableEq, Repr

structure PlanRequirements where
  features : List SemanticRequirement
  metrics : PlanMetrics

mutual

/-- A leaf is of depth 1. -/
def exprDepth : ExprNode → Int32
  | .num _ _ => 1
  | .var _ _ => 1
  | .bin _ lhs rhs _ => max (max 0 (exprDepth lhs)) (exprDepth rhs) + 1
  | .cmp _ lhs rhs _ => max (max 0 (exprDepth lhs)) (exprDepth rhs) + 1
  | .call _ args _ => argsDepth 0 args + 1

def argsDepth (child : Int32) : List ExprNode → Int32
  | [] => child
  | arg :: rest => argsDepth (max child (exprDepth arg)) rest

end

mutual

/-- One step for each operator, comparison and call. -/
def exprOps : ExprNode → Int32
  | .num _ _ => 0
  | .var _ _ => 0
  | .bin _ lhs rhs _ => 1 + (exprOps lhs + exprOps rhs)
  | .cmp _ lhs rhs _ => 1 + (exprOps lhs + exprOps rhs)
  | .call _ args _ => argsOps 1 args

def argsOps (ops : Int32) : List ExprNode → Int32
  | [] => ops
  | arg :: rest => argsOps (ops + exprOps arg) rest

end

def knownSemanticFeatures : List String :=
  ["authorization:explicit", "effect:credit", "effect:debit", "guard:conditional",
    "invariant:balanced", "attestation:quorum", "terminal:success", "terminal:aborted",
    "terminal:contested", "replay:idempotent", "time:explicit_input",
    "identity:explicit_instance_key", "coordination:evidence_acceptance"]

/-- One requirement for each kind of effect, where it first appears. -/
def effectRequirements (seenKinds : List String) : List PlanEffect → List SemanticRequirement
  | [] => []
  | effect :: rest =>
      if effect.kind ∈ seenKinds then effectRequirements seenKinds rest
      else ⟨"effect:" ++ effect.kind, "effect " ++ effect.name⟩ ::
        effectRequirements (effect.kind :: seenKinds) rest

def requiredWhen (condition : Bool) (feature primitive : String) : List SemanticRequirement :=
  if condition then [⟨feature, primitive⟩] else []

/-- The expressions a plan carries: of its computes, then of its guards. -/
def planExpressions (plan : CoordinationPlan) : List ExprNode :=
  plan.computes.filterMap PlanCompute.expr ++ plan.effects.filterMap PlanEffect.guard

def requiredFeatures (plan : CoordinationPlan) : List SemanticRequirement :=
  ⟨"authorization:explicit", "transition authorization"⟩ ::
    (effectRequirements [] plan.effects ++
    requiredWhen (plan.effects.any (·.guard.isSome)) "guard:conditional" "guarded effect" ++
    requiredWhen plan.balanced "invariant:balanced" "balance obligation" ++
    requiredWhen (!plan.attestations.isEmpty) "attestation:quorum" "attestation policy" ++
    [⟨"terminal:success", "terminal projection"⟩] ++
    requiredWhen (plan.terminal.aborted ≠ "") "terminal:aborted" "terminal projection" ++
    requiredWhen (plan.terminal.contested ≠ "") "terminal:contested" "terminal projection" ++
    requiredWhen plan.replay.idempotent "replay:idempotent" "replay obligation" ++
    requiredWhen (plan.explicitInstanceKey ≠ "") "identity:explicit_instance_key"
      "explicit instance key" ++
    requiredWhen plan.evidenceOnly "coordination:evidence_acceptance"
      "evidence acceptance action" ++
    ((plan.inputs.find? fun input => isTemporalType input.type).map fun input =>
      ⟨"time:explicit_input", "input " ++ input.name⟩).toList)

def planMetrics (plan : CoordinationPlan) : PlanMetrics where
  expressionDepth := argsDepth 0 (planExpressions plan)
  effectCount := Int32.ofNat plan.effects.length
  effectGroupCount := Int32.ofNat plan.effectGroups.length
  attestationCount := Int32.ofNat plan.attestations.length
  computeCount := Int32.ofNat plan.computes.length
  operationSteps := argsOps 0 (planExpressions plan)

def coordinationPlanRequirements (plan : CoordinationPlan) : PlanRequirements where
  features := requiredFeatures plan
  metrics := planMetrics plan

structure SemanticProfileLimits where
  maxExpressionDepth : Int32 := 0
  maxEffects : Int32 := 0
  maxEffectGroups : Int32 := 0
  maxAttestations : Int32 := 0
  maxComputes : Int32 := 0
  maxOperationSteps : Int32 := 0
  deriving DecidableEq, Repr

structure SemanticProfile where
  id : String := ""
  versionPresent : Bool := false
  version : Int32 := 0
  features : List String := []
  limits : SemanticProfileLimits := {}
  deriving DecidableEq, Repr

/-- A limit of 64 bits is cut down to an `int`. -/
def limitsFromJson (sp : Object) : SemanticProfileLimits :=
  match sp.getObject "limits" with
  | none => {}
  | some lim =>
      let cap := fun key => ((lim.getInteger key).getD 0).toInt32
      { maxExpressionDepth := cap "maxExpressionDepth"
        maxEffects := cap "maxEffects"
        maxEffectGroups := cap "maxEffectGroups"
        maxAttestations := cap "maxAttestations"
        maxComputes := cap "maxComputes"
        maxOperationSteps := cap "maxOperationSteps" }

/-- So is the version. -/
def semanticProfileFromJson (targetProfile : Object) : SemanticProfile :=
  let id := targetProfile.stringOr "profileId"
  match targetProfile.getObject "semanticProfile" with
  | none => { id }
  | some sp =>
      { id
        versionPresent := (sp.getInteger "version").isSome
        version := ((sp.getInteger "version").map Int64.toInt32).getD 0
        features := ((sp.getArray "features").getD []).filterMap asString
        limits := limitsFromJson sp }

structure Diagnostic where
  severity : String
  code : String
  message : String
  deriving DecidableEq, Repr

def diag (code message : String) : Diagnostic := ⟨"error", code, message⟩

def matchFeature (profile : SemanticProfile) (requirement : SemanticRequirement) :
    List Diagnostic :=
  if requirement.feature ∉ knownSemanticFeatures then
    [diag "legality.unknown_requirement" ("requirement '" ++ requirement.feature ++ "' (" ++
      requirement.primitive ++ ") is outside the closed semantic registry")]
  else if requirement.feature ∉ profile.features then
    [diag "legality.unsupported_feature" ("required feature '" ++ requirement.feature ++ "' (" ++
      requirement.primitive ++ ") is not supported by target '" ++ profile.id ++ "'")]
  else []

def limit (id : String) (usage cap : Int32) (what : String) : List Diagnostic :=
  if cap < usage then
    [diag "legality.limit_exceeded" (what ++ " " ++ toString usage.toInt ++
      " exceeds target '" ++ id ++ "' limit " ++ toString cap.toInt)]
  else []

def matchLimits (id : String) (metrics : PlanMetrics) (limits : SemanticProfileLimits) :
    List Diagnostic :=
  limit id metrics.expressionDepth limits.maxExpressionDepth "expression depth" ++
  limit id metrics.effectCount limits.maxEffects "effect count" ++
  limit id metrics.effectGroupCount limits.maxEffectGroups "effect group count" ++
  limit id metrics.attestationCount limits.maxAttestations "attestation count" ++
  limit id metrics.computeCount limits.maxComputes "compute count" ++
  limit id metrics.operationSteps limits.maxOperationSteps "operation steps"

/-- By code, then by message. -/
def notAfter (a b : Diagnostic) : Bool :=
  if a.code ≠ b.code then a.code < b.code else !(b.message < a.message)

def checkPlanLegality (plan : CoordinationPlan) (profile : SemanticProfile) : List Diagnostic :=
  if !profile.versionPresent then
    [diag "legality.unknown_profile_version" ("target '" ++ profile.id ++
      "' declares no semanticProfile.version")]
  else if profile.version ≠ kSemanticProfileVersion then
    [diag "legality.unknown_profile_version" ("target '" ++ profile.id ++
      "' pins semantic profile version " ++ toString profile.version.toInt ++
      ", not the supported version " ++ toString kSemanticProfileVersion.toInt)]
  else
    let reqs := coordinationPlanRequirements plan
    (reqs.features.flatMap (matchFeature profile) ++
      matchLimits profile.id reqs.metrics profile.limits).mergeSort notAfter

def planIsLegal (diags : List Diagnostic) : Bool :=
  diags.all fun d => d.severity ≠ "error"

/-! The matcher's verdict, requirement by requirement. -/

theorem matchFeature_nil {profile : SemanticProfile} {requirement : SemanticRequirement} :
    matchFeature profile requirement = [] ↔
      requirement.feature ∈ knownSemanticFeatures ∧ requirement.feature ∈ profile.features := by
  unfold matchFeature
  split
  · rename_i unknown
    simp [unknown]
  · rename_i known
    split <;> simp_all

theorem limit_nil {id what : String} {usage cap : Int32} :
    limit id usage cap what = [] ↔ usage.toInt ≤ cap.toInt := by
  unfold limit
  split
  · rename_i above
    rw [Int32.lt_iff_toInt_lt] at above
    simp [Int.not_le.mpr above]
  · rename_i within
    rw [Int32.lt_iff_toInt_lt] at within
    simpa using within

theorem severity_matchFeature {profile : SemanticProfile} {requirement : SemanticRequirement}
    {d : Diagnostic} (listed : d ∈ matchFeature profile requirement) : d.severity = "error" := by
  unfold matchFeature at listed
  split at listed
  · simp_all [diag]
  · split at listed <;> simp_all [diag]

theorem severity_limit {id what : String} {usage cap : Int32} {d : Diagnostic}
    (listed : d ∈ limit id usage cap what) : d.severity = "error" := by
  unfold limit at listed
  split at listed <;> simp_all [diag]

theorem severity_matchLimits {id : String} {metrics : PlanMetrics}
    {limits : SemanticProfileLimits} {d : Diagnostic}
    (listed : d ∈ matchLimits id metrics limits) : d.severity = "error" := by
  simp only [matchLimits, List.mem_append] at listed
  rcases listed with ((((depth | effects) | groups) | attestations) | computes) | steps
  · exact severity_limit depth
  · exact severity_limit effects
  · exact severity_limit groups
  · exact severity_limit attestations
  · exact severity_limit computes
  · exact severity_limit steps

/-- Where everything reported is an error, legal means that nothing is. -/
theorem planIsLegal_of_errors {diags : List Diagnostic}
    (errors : ∀ d ∈ diags, d.severity = "error") : planIsLegal diags = true ↔ diags = [] := by
  cases diags with
  | nil => simp [planIsLegal]
  | cons d rest =>
      have first := errors d (by simp)
      simp [planIsLegal, first]

/-- Every metric is at most the limit it is bounded by. -/
def PlanMetrics.Within (metrics : PlanMetrics) (limits : SemanticProfileLimits) : Prop :=
  metrics.expressionDepth.toInt ≤ limits.maxExpressionDepth.toInt ∧
  metrics.effectCount.toInt ≤ limits.maxEffects.toInt ∧
  metrics.effectGroupCount.toInt ≤ limits.maxEffectGroups.toInt ∧
  metrics.attestationCount.toInt ≤ limits.maxAttestations.toInt ∧
  metrics.computeCount.toInt ≤ limits.maxComputes.toInt ∧
  metrics.operationSteps.toInt ≤ limits.maxOperationSteps.toInt

theorem matchLimits_nil {id : String} {metrics : PlanMetrics} {limits : SemanticProfileLimits} :
    matchLimits id metrics limits = [] ↔ metrics.Within limits := by
  simp only [matchLimits, List.append_eq_nil_iff, limit_nil, PlanMetrics.Within, and_assoc]

theorem planIsLegal_iff {plan : CoordinationPlan} {profile : SemanticProfile} :
    planIsLegal (checkPlanLegality plan profile) = true ↔
      (profile.versionPresent = true ∧ profile.version = kSemanticProfileVersion) ∧
      (∀ requirement ∈ requiredFeatures plan, requirement.feature ∈ knownSemanticFeatures ∧
        requirement.feature ∈ profile.features) ∧
      (planMetrics plan).Within profile.limits := by
  unfold checkPlanLegality
  split
  · rename_i absent
    have missing : profile.versionPresent = false := by simpa using absent
    simp [planIsLegal, diag, missing]
  · rename_i present
    have versioned : profile.versionPresent = true := by simpa using present
    split
    · rename_i other
      simp [planIsLegal, diag, other]
    · rename_i same
      have pinned : profile.version = kSemanticProfileVersion := by simpa using same
      have sorted := List.mergeSort_perm ((coordinationPlanRequirements plan).features.flatMap
        (matchFeature profile) ++ matchLimits profile.id (coordinationPlanRequirements plan).metrics
          profile.limits) notAfter
      have errors : ∀ d ∈ ((coordinationPlanRequirements plan).features.flatMap
          (matchFeature profile) ++ matchLimits profile.id
            (coordinationPlanRequirements plan).metrics profile.limits).mergeSort notAfter,
          d.severity = "error" := by
        intro d listed
        rw [sorted.mem_iff, List.mem_append, List.mem_flatMap] at listed
        rcases listed with ⟨requirement, _, reported⟩ | reported
        · exact severity_matchFeature reported
        · exact severity_matchLimits reported
      rw [planIsLegal_of_errors errors, ← List.length_eq_zero_iff, sorted.length_eq,
        List.length_eq_zero_iff, List.append_eq_nil_iff, List.flatMap_eq_nil_iff, matchLimits_nil]
      simp only [versioned, pinned, true_and, matchFeature_nil, coordinationPlanRequirements]

/-! What the profile writes and what the plan measures, with no machine integer. -/

/-- The integer a JSON number is written as. -/
def writtenInteger : Json → Option Int
  | .number (.integer value) => some value.toInt
  | .number (.unsigned value) => some value.toNat
  | .number (.double value) => if value.den = 1 then some value.num else none
  | _ => none

/-- The integer written under a limit's key; a limit that is not written is zero. -/
def writtenLimit (sp : Object) (key : String) : Int :=
  (((sp.getObject "limits").bind fun lim => lim.get key).bind writtenInteger).getD 0

mutual

def exactDepth : ExprNode → Nat
  | .num _ _ => 1
  | .var _ _ => 1
  | .bin _ lhs rhs _ => max (exactDepth lhs) (exactDepth rhs) + 1
  | .cmp _ lhs rhs _ => max (exactDepth lhs) (exactDepth rhs) + 1
  | .call _ args _ => exactArgsDepth args + 1

def exactArgsDepth : List ExprNode → Nat
  | [] => 0
  | arg :: rest => max (exactDepth arg) (exactArgsDepth rest)

end

mutual

def exactOps : ExprNode → Nat
  | .num _ _ => 0
  | .var _ _ => 0
  | .bin _ lhs rhs _ => exactOps lhs + exactOps rhs + 1
  | .cmp _ lhs rhs _ => exactOps lhs + exactOps rhs + 1
  | .call _ args _ => exactArgsOps args + 1

def exactArgsOps : List ExprNode → Nat
  | [] => 0
  | arg :: rest => exactOps arg + exactArgsOps rest

end

/-- Each metric of a plan, under the key of the limit that bounds it. -/
def exactMetrics (plan : CoordinationPlan) : List (String × Nat) :=
  [("maxExpressionDepth", exactArgsDepth (planExpressions plan)),
    ("maxEffects", plan.effects.length), ("maxEffectGroups", plan.effectGroups.length),
    ("maxAttestations", plan.attestations.length), ("maxComputes", plan.computes.length),
    ("maxOperationSteps", exactArgsOps (planExpressions plan))]

def limitKeys : List String :=
  ["maxExpressionDepth", "maxEffects", "maxEffectGroups", "maxAttestations", "maxComputes",
    "maxOperationSteps"]

/-- Whether a target of this profile realizes the plan, by what is written. -/
def Legal (plan : CoordinationPlan) (targetProfile : Object) : Prop :=
  ∃ sp, targetProfile.getObject "semanticProfile" = some sp ∧
    (sp.get "version").bind writtenInteger = some 3 ∧
    (∀ requirement ∈ requiredFeatures plan,
      .string requirement.feature ∈ (sp.getArray "features").getD []) ∧
    ∀ metric ∈ exactMetrics plan, (metric.2 : Int) ≤ writtenLimit sp metric.1

/-- Every requirement is in the closed registry. -/
def Registered (plan : CoordinationPlan) : Prop :=
  ∀ requirement ∈ requiredFeatures plan, requirement.feature ∈ knownSemanticFeatures

/-- An integer written here is one of 32 bits. -/
def Fits32 (value : Option Json) : Prop :=
  ∀ written, value.bind writtenInteger = some written → -2 ^ 31 ≤ written ∧ written < 2 ^ 31

/-- The profile's version and limits are integers of 32 bits, where they are integers. -/
def NumbersFit (targetProfile : Object) : Prop :=
  ∀ sp, targetProfile.getObject "semanticProfile" = some sp → Fits32 (sp.get "version") ∧
    ∀ key ∈ limitKeys, Fits32 ((sp.getObject "limits").bind fun lim => lim.get key)

/-- The second profile has the first one's version, its features and no lower limit. -/
def Extends (first second : Object) : Prop :=
  ∀ sp, first.getObject "semanticProfile" = some sp →
    ∃ more, second.getObject "semanticProfile" = some more ∧
      (more.get "version").bind writtenInteger = (sp.get "version").bind writtenInteger ∧
      (∀ feature ∈ (sp.getArray "features").getD [],
        feature ∈ (more.getArray "features").getD []) ∧
      ∀ key ∈ limitKeys, writtenLimit sp key ≤ writtenLimit more key

theorem mem_limitKeys {plan : CoordinationPlan} {metric : String × Nat}
    (measured : metric ∈ exactMetrics plan) : metric.1 ∈ limitKeys := by
  simp only [exactMetrics, List.mem_cons, List.not_mem_nil, or_false] at measured
  rcases measured with rfl | rfl | rfl | rfl | rfl | rfl <;> simp [limitKeys]

theorem Legal.mono {plan : CoordinationPlan} {first second : Object}
    (extended : Extends first second) (legal : Legal plan first) : Legal plan second := by
  obtain ⟨sp, block, version, features, limits⟩ := legal
  obtain ⟨more, found, versions, added, raised⟩ := extended sp block
  refine ⟨more, found, versions.trans version, ?_, ?_⟩
  · intro requirement required
    exact added _ (features requirement required)
  · intro metric measured
    exact (limits metric measured).trans (raised metric.1 (mem_limitKeys measured))

/-! Integers of 32 bits are read as they are written. -/

theorem int32_toInt_toInt32 {value : Int64} (low : -2 ^ 31 ≤ value.toInt)
    (high : value.toInt < 2 ^ 31) : value.toInt32.toInt = value.toInt := by
  rw [Int64.toInt_toInt32, Int.bmod_eq_of_le] <;> omega

theorem asInteger_written {value : Json} {read : Int64} (accepted : value.asInteger = some read) :
    writtenInteger value = some read.toInt := by
  cases value with
  | number written =>
      cases written with
      | integer value =>
          simp only [asInteger, Number.asInteger, Option.some.injEq] at accepted
          simp [writtenInteger, accepted]
      | unsigned value =>
          simp only [asInteger, Number.asInteger] at accepted
          split at accepted
          · rename_i below
            rw [Option.some.injEq] at accepted
            rw [← accepted, writtenInteger, Int64.toInt_ofNat_of_lt below]
          · simp at accepted
      | double value =>
          simp only [asInteger, Number.asInteger] at accepted
          split at accepted
          · rename_i whole
            rw [Option.some.injEq] at accepted
            rw [← accepted, writtenInteger, if_pos whole.1,
              Int64.toInt_ofInt_of_le whole.2.1 whole.2.2]
          · simp at accepted
  | _ => simp [asInteger] at accepted

theorem asInteger_of_written {value : Json} {written : Int}
    (found : writtenInteger value = some written) (low : -2 ^ 31 ≤ written)
    (high : written < 2 ^ 31) : ∃ read, value.asInteger = some read ∧ read.toInt = written := by
  cases value with
  | number number =>
      cases number with
      | integer value =>
          simp only [writtenInteger, Option.some.injEq] at found
          exact ⟨value, rfl, found⟩
      | unsigned value =>
          simp only [writtenInteger, Option.some.injEq] at found
          have below : value.toNat < 2 ^ 63 := by omega
          refine ⟨Int64.ofNat value.toNat, ?_, ?_⟩
          · simp only [asInteger, Number.asInteger, below, if_true]
          · rw [Int64.toInt_ofNat_of_lt below, found]
      | double value =>
          simp only [writtenInteger] at found
          split at found
          · rename_i whole
            rw [Option.some.injEq] at found
            have lower : -(2 ^ 63) ≤ value.num := by omega
            have upper : value.num < 2 ^ 63 := by omega
            refine ⟨Int64.ofInt value.num, ?_, ?_⟩
            · simp only [asInteger, Number.asInteger, whole, lower, upper, and_self, if_true]
            · rw [Int64.toInt_ofInt_of_le lower upper, found]
          · simp at found
  | _ => simp [writtenInteger] at found

/-- A 32-bit integer is cut down to itself; what is no integer is read as none. -/
theorem narrowed_toInt {value : Option Json} (fits : Fits32 value) :
    ((value.bind asInteger).map fun read => read.toInt32.toInt) = value.bind writtenInteger := by
  cases value with
  | none => rfl
  | some value =>
      simp only [Option.bind_some]
      cases parsed : value.asInteger with
      | some read =>
          have written := asInteger_written parsed
          have range := fits read.toInt (by simpa using written)
          rw [written, Option.map_some, int32_toInt_toInt32 range.1 range.2]
      | none =>
          cases written : writtenInteger value with
          | none => rfl
          | some integer =>
              have range := fits integer (by simpa using written)
              obtain ⟨found, accepted, _⟩ := asInteger_of_written written range.1 range.2
              rw [parsed] at accepted
              simp at accepted

theorem cap_toInt {limits : Option Object} {key : String}
    (fits : Fits32 (limits.bind fun lim => lim.get key)) :
    (match limits with
      | none => (0 : Int32)
      | some lim => ((lim.getInteger key).getD 0).toInt32).toInt =
      ((limits.bind fun lim => lim.get key).bind writtenInteger).getD 0 := by
  have same := narrowed_toInt fits
  cases limits with
  | none => rfl
  | some lim =>
      simp only [Option.bind_some] at same ⊢
      rw [← same, Object.getInteger]
      cases (lim.get key).bind asInteger with
      | none => rfl
      | some read => rfl

/-! Metrics below 2^31 are counted exactly. -/

theorem int32_toInt_max (a b : Int32) : (max a b).toInt = max a.toInt b.toInt := by
  rw [show max a b = if a ≤ b then b else a from rfl]
  split
  · rename_i below
    rw [Int32.le_iff_toInt_le] at below
    rw [max_eq_right below]
  · rename_i above
    rw [Int32.le_iff_toInt_le] at above
    rw [max_eq_left (by omega)]

theorem int32_toInt_succ {value : Int32} (exact : Nat) (counted : value.toInt = exact)
    (small : exact + 1 < 2 ^ 31) : (value + 1).toInt = exact + 1 := by
  rw [Int32.toInt_add, counted, show Int32.toInt 1 = 1 from rfl, Int.bmod_eq_of_le] <;> omega

theorem int32_toInt_ofNat {exact : Nat} (small : exact < 2 ^ 31) :
    (Int32.ofNat exact).toInt = exact :=
  Int32.toInt_ofNat_of_lt small

mutual

theorem exprDepth_toInt (expr : ExprNode) (small : exactDepth expr < 2 ^ 31) :
    (exprDepth expr).toInt = exactDepth expr := by
  cases expr with
  | num value dtype => rfl
  | var name dtype => rfl
  | bin op lhs rhs dtype =>
      simp only [exactDepth] at small ⊢
      have left := exprDepth_toInt lhs (by omega)
      have right := exprDepth_toInt rhs (by omega)
      rw [exprDepth, int32_toInt_succ (max (exactDepth lhs) (exactDepth rhs)) _ small]
      · push_cast
        rfl
      · rw [int32_toInt_max, int32_toInt_max, left, right, show Int32.toInt 0 = 0 from rfl]
        omega
  | cmp op lhs rhs dtype =>
      simp only [exactDepth] at small ⊢
      have left := exprDepth_toInt lhs (by omega)
      have right := exprDepth_toInt rhs (by omega)
      rw [exprDepth, int32_toInt_succ (max (exactDepth lhs) (exactDepth rhs)) _ small]
      · push_cast
        rfl
      · rw [int32_toInt_max, int32_toInt_max, left, right, show Int32.toInt 0 = 0 from rfl]
        omega
  | call name args dtype =>
      simp only [exactDepth] at small ⊢
      have counted := argsDepth_toInt args 0 (by decide) (by omega)
      rw [show Int32.toInt 0 = 0 from rfl] at counted
      rw [exprDepth, int32_toInt_succ _ _ small]
      · push_cast
        rfl
      · rw [counted]
        simp

theorem argsDepth_toInt (args : List ExprNode) (child : Int32) (natural : 0 ≤ child.toInt)
    (small : exactArgsDepth args < 2 ^ 31) :
    (argsDepth child args).toInt = max child.toInt (exactArgsDepth args) := by
  cases args with
  | nil =>
      rw [argsDepth, exactArgsDepth]
      omega
  | cons arg rest =>
      simp only [exactArgsDepth] at small ⊢
      have first := exprDepth_toInt arg (by omega)
      have deepest := int32_toInt_max child (exprDepth arg)
      have later := argsDepth_toInt rest (max child (exprDepth arg)) (by omega) (by omega)
      rw [argsDepth, later, deepest, first]
      omega

end

mutual

theorem exprOps_exact (expr : ExprNode) : exprOps expr = Int32.ofNat (exactOps expr) := by
  cases expr with
  | num value dtype => rfl
  | var name dtype => rfl
  | bin op lhs rhs dtype =>
      rw [exprOps, exactOps, exprOps_exact lhs, exprOps_exact rhs, Int32.ofNat_add,
        Int32.ofNat_add]
      exact Int32.add_comm _ _
  | cmp op lhs rhs dtype =>
      rw [exprOps, exactOps, exprOps_exact lhs, exprOps_exact rhs, Int32.ofNat_add,
        Int32.ofNat_add]
      exact Int32.add_comm _ _
  | call name args dtype =>
      rw [exprOps, exactOps, argsOps_exact args, Int32.ofNat_add]
      exact Int32.add_comm _ _

theorem argsOps_exact (args : List ExprNode) (ops : Int32) :
    argsOps ops args = ops + Int32.ofNat (exactArgsOps args) := by
  cases args with
  | nil => simp [argsOps, exactArgsOps]
  | cons arg rest =>
      rw [argsOps, exactArgsOps, argsOps_exact rest, exprOps_exact arg, Int32.ofNat_add,
        Int32.add_assoc]

end

/-- The metrics counted are the exact ones. -/
structure PlanMetrics.Exact (metrics : PlanMetrics) (plan : CoordinationPlan) : Prop where
  depth : metrics.expressionDepth.toInt = exactArgsDepth (planExpressions plan)
  effects : metrics.effectCount.toInt = plan.effects.length
  groups : metrics.effectGroupCount.toInt = plan.effectGroups.length
  attestations : metrics.attestationCount.toInt = plan.attestations.length
  computes : metrics.computeCount.toInt = plan.computes.length
  steps : metrics.operationSteps.toInt = exactArgsOps (planExpressions plan)

theorem planMetrics_exact {plan : CoordinationPlan}
    (small : ∀ metric ∈ exactMetrics plan, metric.2 < 2 ^ 31) :
    (planMetrics plan).Exact plan := by
  simp only [exactMetrics, List.forall_mem_cons, List.not_mem_nil, false_imp_iff,
    implies_true, and_true] at small
  obtain ⟨depth, effects, groups, attestations, computes, steps⟩ := small
  constructor
  case depth =>
    rw [planMetrics, argsDepth_toInt _ 0 (by decide) depth, show Int32.toInt 0 = 0 from rfl]
    omega
  case steps => rw [planMetrics, argsOps_exact, Int32.zero_add, int32_toInt_ofNat steps]
  case effects => exact int32_toInt_ofNat effects
  case groups => exact int32_toInt_ofNat groups
  case attestations => exact int32_toInt_ofNat attestations
  case computes => exact int32_toInt_ofNat computes

/-- A limit is compared as it is written. -/
theorem within_iff {plan : CoordinationPlan} {sp : Object}
    (exact : (planMetrics plan).Exact plan)
    (caps : ∀ key ∈ limitKeys, Fits32 ((sp.getObject "limits").bind fun lim => lim.get key)) :
    (planMetrics plan).Within (limitsFromJson sp) ↔
      ∀ metric ∈ exactMetrics plan, (metric.2 : Int) ≤ writtenLimit sp metric.1 := by
  have capped := fun key (listed : key ∈ limitKeys) => cap_toInt (caps key listed)
  simp only [limitKeys, List.forall_mem_cons, List.not_mem_nil, false_imp_iff, implies_true,
    and_true] at capped
  obtain ⟨depth, effects, groups, attestations, computes, steps⟩ := capped
  simp only [exactMetrics, List.forall_mem_cons, List.not_mem_nil, false_imp_iff,
    implies_true, and_true, writtenLimit, PlanMetrics.Within, exact.depth, exact.effects,
    exact.groups, exact.attestations, exact.computes, exact.steps, limitsFromJson,
    ← depth, ← effects, ← groups, ← attestations, ← computes, ← steps]
  cases sp.getObject "limits" <;> rfl

theorem version_iff {sp : Object} (fits : Fits32 (sp.get "version")) :
    ((sp.getInteger "version").isSome = true ∧
      ((sp.getInteger "version").map Int64.toInt32).getD 0 = kSemanticProfileVersion) ↔
      (sp.get "version").bind writtenInteger = some 3 := by
  have same := narrowed_toInt fits
  rw [← same, Object.getInteger]
  cases (sp.get "version").bind asInteger with
  | none => simp
  | some read =>
      simp only [Option.isSome_some, Option.map_some, Option.getD_some, true_and,
        Option.some.injEq, kSemanticProfileVersion]
      rw [← Int32.toInt_inj]
      rfl

theorem mem_filterMap_asString {feature : String} {values : List Json} :
    feature ∈ values.filterMap asString ↔ .string feature ∈ values := by
  rw [List.mem_filterMap]
  constructor
  · rintro ⟨value, listed, text⟩
    cases value with
    | string text' =>
        simp only [asString, Option.some.injEq] at text
        exact text ▸ listed
    | _ => simp [asString] at text
  · intro listed
    exact ⟨_, listed, rfl⟩

/-- Where the profile's numbers and the plan's metrics fit, the matcher decides what is written. -/
theorem planIsLegal_exact {plan : CoordinationPlan} {targetProfile : Object}
    (small : ∀ metric ∈ exactMetrics plan, metric.2 < 2 ^ 31) (fits : NumbersFit targetProfile) :
    planIsLegal (checkPlanLegality plan (semanticProfileFromJson targetProfile)) = true ↔
      Legal plan targetProfile ∧ Registered plan := by
  rw [planIsLegal_iff]
  cases block : targetProfile.getObject "semanticProfile" with
  | none => simp [semanticProfileFromJson, block, Legal]
  | some sp =>
      have numbers := fits sp block
      simp only [semanticProfileFromJson, block, version_iff numbers.1, mem_filterMap_asString,
        within_iff (planMetrics_exact small) numbers.2]
      simp only [Legal, Registered, block, Option.some.injEq, exists_eq_left']
      constructor
      · rintro ⟨version, features, limits⟩
        exact ⟨⟨version, fun requirement required => (features requirement required).2, limits⟩,
          fun requirement required => (features requirement required).1⟩
      · rintro ⟨⟨version, features, limits⟩, known⟩
        exact ⟨version, fun requirement required =>
          ⟨known requirement required, features requirement required⟩, limits⟩

/-- A profile that adds features to a profile and raises limits of it realizes every plan that
the profile does. -/
theorem plan_legality_exact {plan : CoordinationPlan}
    (small : ∀ metric ∈ exactMetrics plan, metric.2 < 2 ^ 31) {targetProfile : Object}
    (fits : NumbersFit targetProfile) :
    (planIsLegal (checkPlanLegality plan (semanticProfileFromJson targetProfile)) = true ↔
      Legal plan targetProfile ∧ Registered plan) ∧
    ∀ more, NumbersFit more → Extends targetProfile more →
      planIsLegal (checkPlanLegality plan (semanticProfileFromJson targetProfile)) = true →
      planIsLegal (checkPlanLegality plan (semanticProfileFromJson more)) = true := by
  refine ⟨planIsLegal_exact small fits, ?_⟩
  intro more moreFits extended legal
  have before := (planIsLegal_exact small fits).mp legal
  exact (planIsLegal_exact small moreFits).mpr ⟨before.1.mono extended, before.2⟩

/-! A target that realizes settlement between two parties, and one that claims an effect the
registry does not have. -/

def sampleProfile (features : List String) : Object :=
  [("profileId", .string "target.sample"),
    ("semanticProfile", .object [("version", .number (.integer 3)),
      ("features", .array (features.map Json.string)),
      ("limits", .object (limitKeys.map fun key => (key, .number (.integer 64))))])]

theorem sampleProfile_fits (features : List String) : NumbersFit (sampleProfile features) := by
  intro sp block
  obtain rfl := Option.some.inj block
  constructor
  · intro written version
    obtain rfl := Option.some.inj version
    decide
  · intro key listed written limit
    simp only [limitKeys, List.mem_cons, List.not_mem_nil, or_false] at listed
    rcases listed with rfl | rfl | rfl | rfl | rfl | rfl <;>
    · obtain rfl := Option.some.inj limit
      decide

theorem samplePlan_small : ∀ metric ∈ exactMetrics samplePlan, metric.2 < 2 ^ 31 := by
  decide

def settlementFeatures : List String :=
  ["authorization:explicit", "attestation:quorum", "effect:credit", "effect:debit",
    "guard:conditional", "invariant:balanced", "replay:idempotent", "terminal:success"]

theorem plan_legality_exact_sample :
    planIsLegal (checkPlanLegality samplePlan
      (semanticProfileFromJson (sampleProfile settlementFeatures))) = true ↔
      Legal samplePlan (sampleProfile settlementFeatures) ∧ Registered samplePlan :=
  (plan_legality_exact samplePlan_small (sampleProfile_fits settlementFeatures)).1

def transferInputs : PlanInputs :=
  { sampleInputs with
    effects := sampleInputs.effects.map fun effect =>
      if effect.kind = "credit" then { effect with kind := "transfer" } else effect }

def transferPlan : CoordinationPlan := ((assemblePlan transferInputs).toOption).getD default

/-- The profile advertises all that the plan requires, and the plan is refused. -/
theorem advertised_not_legal :
    assemblePlan transferInputs = .ok transferPlan ∧
    Legal transferPlan (sampleProfile ("effect:transfer" :: settlementFeatures)) ∧
    planIsLegal (checkPlanLegality transferPlan
      (semanticProfileFromJson (sampleProfile ("effect:transfer" :: settlementFeatures)))) =
      false := by
  have advertised : ∀ requirement ∈ requiredFeatures transferPlan,
      requirement.feature ∈ "effect:transfer" :: settlementFeatures := by decide
  refine ⟨rfl, ⟨_, rfl, rfl, ?_, ?_⟩, ?_⟩
  · intro requirement required
    exact List.mem_map_of_mem (advertised requirement required)
  · decide
  · rw [← Bool.not_eq_true, planIsLegal_iff]
    rintro ⟨_, features, _⟩
    have known : ∀ requirement ∈ requiredFeatures transferPlan,
        requirement.feature ∈ knownSemanticFeatures := fun requirement required =>
      (features requirement required).1
    revert known
    decide

end PlanLegality

end Neutrino
