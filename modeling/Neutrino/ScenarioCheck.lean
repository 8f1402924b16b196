import Neutrino.ProcedureView
import Neutrino.SqlRendering

/-! The check of a scenario against the procedure it targets, and when a scenario that passes it
evaluates. -/

namespace Neutrino

open Checked

inductive ScenarioInput
  | int (i : Int64)
  | string (s : String)
  deriving DecidableEq

structure Scenario where
  inputs : Std.ExtTreeMap String ScenarioInput
  computed : Std.ExtTreeMap String Int64
  accepted : Std.ExtTreeMap String Bool

def isNumericType (ty : String) : Bool := isNumericCategory (classifyValueType ty)

/-! The declared types. -/

/-- Three capital letters. -/
def isCurrencyCode (s : String) : Bool := s.toList.length = 3 && s.toList.all Char.isUpper

/-- A colon with something on both sides. -/
def isEvidenceRef (s : String) : Bool :=
  (s.toList.takeWhile (· ≠ ':')).length ≠ 0 && 1 < (s.toList.dropWhile (· ≠ ':')).length

def wantInteger (name ty what : String) : ScenarioInput → List String
  | .int _ => []
  | .string _ => ["input '" ++ name ++ "' must be an integer (" ++ ty ++ " " ++ what ++
      "), got a string"]

def wantString (name ty what : String) : ScenarioInput → List String
  | .int _ => ["input '" ++ name ++ "' must be a string (" ++ ty ++ " " ++ what ++
      "), got an integer"]
  | .string _ => []

/-- A condition on the text of a string value. -/
def wantText (ok : String → Bool) (message : String → String) : ScenarioInput → List String
  | .int _ => []
  | .string s => if ok s then [] else [message s]

def checkTypedInput (name ty : String) (v : ScenarioInput) : List String :=
  if ty = "money" then wantInteger name ty "is integer minor units" v
  else if ty = "decimal" then wantInteger name ty "is carried as a scaled integer" v
  else if ty = "number" ∨ ty = "int" ∨ ty = "integer" ∨ ty = "uint" then
    wantInteger name ty "is an integer" v
  else if ty = "string" then wantString name ty "" v
  else if ty = "party" then
    wantString name ty "a party id" v ++
      wantText (· ≠ "") (fun _ => "input '" ++ name ++ "' party id must be non-empty") v
  else if ty = "currency" then
    wantString name ty "a currency code" v ++
      wantText isCurrencyCode (fun s => "input '" ++ name ++
        "' must be a 3-letter ISO currency code (e.g. EUR), got '" ++ s ++ "'") v
  else if ty = "timestamp" ∨ ty = "time" then []
  else if ty = "evidence" then
    wantString name ty "a hashable reference" v ++
      wantText isEvidenceRef (fun s => "input '" ++ name ++
        "' evidence must be a hashable reference like 'sha256:<hex>' or '<scheme>:<id>', got '" ++
        s ++ "'") v
  else
    match isNumericType ty, v with
    | true, .string _ => ["input '" ++ name ++ "' should be an integer (" ++ ty ++
        "), got a string"]
    | false, .int _ => ["input '" ++ name ++ "' should be a string (" ++ ty ++
        "), got an integer"]
    | _, _ => []

/-! The checks. -/

section Checks

variable (view : ProcedureView) (scenario : Scenario)

def checkInput (input : String × String) : List String :=
  match scenario.inputs[input.1]? with
  | none => ["missing scenario input '" ++ input.1 ++ "' (declared as " ++ input.2 ++ ")"]
  | some v => checkTypedInput input.1 input.2 v

/-- A key of a section of the scenario that is not among the names it may have. -/
def checkNamed {α : Type} (names : List String) (message : String → String) (entry : String × α) :
    List String :=
  if entry.1 ∈ names then [] else [message entry.1]

def checkMoneyInput (input : String × String) : List String :=
  if classifyValueType input.2 = .money then
    match scenario.inputs[input.1]? with
    | some (.int i) =>
        if i < 0 then ["money input '" ++ input.1 ++ "' is negative (" ++ toString i ++
          "); a money amount is unsigned minor units and cannot be negative"]
        else []
    | _ => []
  else []

def bindInput (env : Env) (input : String × String) : Env :=
  match scenario.inputs[input.1]? with
  | some (.int i) => env.insert input.1 i
  | _ => env

/-- The integers of the scenario's declared inputs. -/
def numericInputs : Env := view.inputs.foldl (bindInput scenario) ∅

def checkResult (compute : ComputeView) (val : Int64) : List String :=
  (if compute.ast.dtype = .money ∧ val < 0 then
    ["computed money value '" ++ compute.name ++ "' evaluates to " ++ toString val ++
      " for these inputs; a money result cannot be negative before rendering — guard the " ++
      "compute so it cannot underflow, or model a signed balance explicitly"]
  else []) ++
  match scenario.computed[compute.name]? with
  | some declared =>
      if declared ≠ val then ["declared computed value '" ++ compute.name ++ "' = " ++
        toString declared ++ " does not match the value " ++ toString val ++
        " evaluated from the scenario inputs"]
      else []
  | none => []

/-- A compute that does not evaluate is passed over. -/
def checkComputes : List ComputeView → Env → List String
  | [], _ => []
  | compute :: rest, env =>
      match evalExpr compute.ast env with
      | .error _ => checkComputes rest env
      | .ok val => checkResult scenario compute val ++
          checkComputes rest (env.insert compute.name val)

def checkKey (entry : EntryView) : List String :=
  let key := entry.idempotencyKey
  if key.isLit then
    ["leg '" ++ entry.name ++
      "' idempotency_key must reference a string-like input, not a literal"]
  else if view.computes.any (·.name = key.text) then
    ["leg '" ++ entry.name ++ "' idempotency_key references computed value '" ++ key.text ++
      "', which is numeric; it must be a string-like input"]
  else
    match view.inputs.find? (·.1 = key.text) with
    | none => ["leg '" ++ entry.name ++ "' idempotency_key references unknown name '" ++
        key.text ++ "'"]
    | some input =>
        if isNumericType input.2 then
          ["leg '" ++ entry.name ++ "' idempotency_key must reference a string-like input " ++
            "(e.g. string/party), but '" ++ key.text ++ "' is declared " ++ input.2]
        else []

def checkSharedKey : List String :=
  match view.entries with
  | [] => []
  | first :: _ => view.entries.flatMap fun entry =>
      if entry.idempotencyKey ≠ first.idempotencyKey then
        ["leg '" ++ entry.name ++ "' idempotency_key '" ++ entry.idempotencyKey.text ++
          "' differs from leg '" ++ first.name ++ "' key '" ++ first.idempotencyKey.text ++
          "'; all legs must share one workflow idempotency_key (the backends key all " ++
          "coordination on it)"]
      else []

def validateScenario : List String :=
  view.inputs.flatMap (checkInput scenario) ++
  scenario.inputs.toList.flatMap (checkNamed (view.inputs.map (·.1)) fun name =>
    "scenario input '" ++ name ++ "' is not declared by procedure '" ++ view.name ++ "'") ++
  scenario.computed.toList.flatMap (checkNamed (view.computes.map (·.name)) fun name =>
    "expected computed value '" ++ name ++ "' is not a declared compute in '" ++ view.name ++
      "'") ++
  scenario.accepted.toList.flatMap (checkNamed (view.attestations.map (·.input)) fun name =>
    "scenario 'accepted' key '" ++ name ++
      "' is not a declared attestation policy input in '" ++ view.name ++ "'") ++
  view.inputs.flatMap (checkMoneyInput scenario) ++
  checkComputes scenario view.computes (numericInputs view scenario) ++
  view.entries.flatMap (checkKey view) ++
  checkSharedKey view

end Checks

/-! The evaluation of a scenario. -/

/-- The values of the computes in order, and the environment they end in. -/
def foldView : List ComputeView → Env → Except ExprError (List Int64 × Env)
  | [], env => .ok ([], env)
  | compute :: rest, env => do
      let value ← evalExpr compute.ast env
      let (values, last) ← foldView rest (env.insert compute.name value)
      return (value :: values, last)

/-- Every compute has a value, the expected ones their expected value; no money is negative, and
every guard has a verdict. -/
def Evaluates (view : ProcedureView) (scenario : Scenario) : Prop :=
  ∃ values last, foldView view.computes (numericInputs view scenario) = .ok (values, last) ∧
    (∀ name declared, scenario.computed[name]? = some declared →
      (∃ compute ∈ view.computes, compute.name = name) ∧
        ∀ result ∈ view.computes.zip values, result.1.name = name → result.2 = declared) ∧
    (∀ input ∈ view.inputs, classifyValueType input.2 = .money →
      ∃ amount, scenario.inputs[input.1]? = some (.int amount) ∧ 0 ≤ amount) ∧
    (∀ result ∈ view.computes.zip values, result.1.ast.dtype = .money → 0 ≤ result.2) ∧
    ∀ entry ∈ view.entries, ∀ guard, entry.guardAst = some guard →
      ∃ verdict, evalGuard guard last = .ok verdict

/-! When an expression has a value. -/

/-- An operator's exact result is a 64-bit integer. -/
def FitsInt64 (op : Char) (a b : Int64) : Prop :=
  ∃ result : Int64, Sql.exact op.toString a.toInt b.toInt = some result.toInt

/-- No operation divides by zero or leaves the 64-bit integers. -/
def OperationsFit (env : Env) : ExprNode → Prop
  | .bin op lhs rhs _ => OperationsFit env lhs ∧ OperationsFit env rhs ∧
      ∀ a b, evalExpr lhs env = .ok a → evalExpr rhs env = .ok b → FitsInt64 op a b
  | .call _ args _ =>
      match args with
      | [] => True
      | first :: _ => OperationsFit env first
  | .cmp _ lhs rhs _ => OperationsFit env lhs ∧ OperationsFit env rhs
  | _ => True

/-- The names a comparison reads. -/
def comparisonReads : ExprNode → List String
  | .cmp _ lhs rhs _ => exprReads lhs ++ exprReads rhs
  | _ => []

def ReadsKnown (known : String → Prop) : List ComputeView → Prop
  | [] => True
  | compute :: rest => (∀ name ∈ exprReads compute.ast, known name) ∧
      ReadsKnown (fun name => known name ∨ name = compute.name) rest

def FoldFits : List ComputeView → Env → Prop
  | [], _ => True
  | compute :: rest, env => OperationsFit env compute.ast ∧
      ∀ value, evalExpr compute.ast env = .ok value →
        FoldFits rest (env.insert compute.name value)

def GivenAsInteger (scenario : Scenario) (name : String) : Prop :=
  ∃ i, scenario.inputs[name]? = some (.int i)

/-- Every name that a compute or a comparison guard reads is an integer of the scenario or a
compute before it, and no operation of theirs divides by zero or leaves the 64-bit integers. -/
structure Evaluable (view : ProcedureView) (scenario : Scenario) : Prop where
  computeReads : ReadsKnown (GivenAsInteger scenario) view.computes
  computes : FoldFits view.computes (numericInputs view scenario)
  guardReads : ∀ entry ∈ view.entries, ∀ guard, entry.guardAst = some guard →
    ∀ name ∈ comparisonReads guard,
      GivenAsInteger scenario name ∨ ∃ compute ∈ view.computes, compute.name = name
  guards : ∀ values last,
    foldView view.computes (numericInputs view scenario) = .ok (values, last) →
    ∀ entry ∈ view.entries, ∀ guard, entry.guardAst = some guard → OperationsFit last guard

theorem evalExpr_defined {node : ExprNode} (value : ValueNode node) (known : KnownOperators node)
    (env : Env) : (∃ result, evalExpr node env = .ok result) ↔
      (∀ name ∈ exprReads node, ∃ bound, env[name]? = some bound) ∧ OperationsFit env node := by
  induction value with
  | num value dtype => simp [evalExpr, exprReads, OperationsFit]
  | var name dtype =>
      rw [evalExpr_var]
      cases bound : env[name]? <;> simp [exprReads, OperationsFit, bound]
  | @round first value rest dtype ih => simpa [evalExpr, exprReads, OperationsFit] using ih known
  | @bin lhs rhs left right op dtype ihLeft ihRight =>
      obtain ⟨operator, knownLeft, knownRight⟩ := known
      simp only [evalExpr_bin, bind_ok, exprReads, List.mem_append, or_imp, forall_and,
        OperationsFit]
      constructor
      · rintro ⟨result, a, leftValue, b, rightValue, computed⟩
        obtain ⟨leftBound, leftFits⟩ := (ihLeft knownLeft).mp ⟨a, leftValue⟩
        obtain ⟨rightBound, rightFits⟩ := (ihRight knownRight).mp ⟨b, rightValue⟩
        refine ⟨⟨leftBound, rightBound⟩, leftFits, rightFits, fun x y leftSame rightSame => ?_⟩
        rw [leftValue] at leftSame
        rw [rightValue] at rightSame
        cases leftSame
        cases rightSame
        exact ⟨result, (checkedBin_ok operator).mp computed⟩
      · rintro ⟨⟨leftBound, rightBound⟩, leftFits, rightFits, fits⟩
        obtain ⟨a, leftValue⟩ := (ihLeft knownLeft).mpr ⟨leftBound, leftFits⟩
        obtain ⟨b, rightValue⟩ := (ihRight knownRight).mpr ⟨rightBound, rightFits⟩
        obtain ⟨result, exactly⟩ := fits a b leftValue rightValue
        exact ⟨result, a, leftValue, b, rightValue, (checkedBin_ok operator).mpr exactly⟩

/-! What a fold binds. -/

def IsBound (env : Env) (name : String) : Prop := ∃ bound, env[name]? = some bound

theorem isBound_insert {env : Env} {key name : String} {value : Int64} :
    IsBound (env.insert key value) name ↔ IsBound env name ∨ name = key := by
  unfold IsBound
  rw [Std.ExtTreeMap.getElem?_insert]
  by_cases same : key = name
  · simp [same]
  · simp [Std.LawfulEqCmp.compare_eq_iff_eq, same, Ne.symm same]

theorem isBound_inputs {scenario : Scenario} {inputs : List (String × String)} {env : Env}
    {name : String} : IsBound (inputs.foldl (bindInput scenario) env) name ↔
      IsBound env name ∨ name ∈ inputs.map (·.1) ∧ GivenAsInteger scenario name := by
  induction inputs generalizing env with
  | nil => simp
  | cons input rest ih =>
      rw [List.foldl_cons, ih, List.map_cons, List.mem_cons]
      have step : IsBound (bindInput scenario env input) name ↔
          IsBound env name ∨ name = input.1 ∧ GivenAsInteger scenario name := by
        unfold bindInput
        split
        · next given =>
            rw [isBound_insert]
            refine or_congr_right ⟨?_, fun both => both.1⟩
            rintro rfl
            exact ⟨rfl, _, given⟩
        · next absent =>
            refine ⟨.inl, ?_⟩
            rintro (bound | ⟨rfl, i, given⟩)
            · exact bound
            · exact absurd given (absent i)
      rw [step]
      tauto

theorem readsKnown_congr {known other : String → Prop} (same : ∀ name, known name ↔ other name)
    (computes : List ComputeView) : ReadsKnown known computes ↔ ReadsKnown other computes := by
  rw [funext fun name => propext (same name)]

/-- A compute that a fold can evaluate. -/
structure Typed (node : ExprNode) : Prop where
  value : ValueNode node
  known : KnownOperators node

theorem foldView_defined {computes : List ComputeView}
    (typed : ∀ compute ∈ computes, Typed compute.ast) {env : Env} :
    (∃ values last, foldView computes env = .ok (values, last)) ↔
      ReadsKnown (IsBound env) computes ∧ FoldFits computes env := by
  induction computes generalizing env with
  | nil => simp [foldView, ReadsKnown, FoldFits]
  | cons compute rest ih =>
      have here := typed compute (List.mem_cons_self ..)
      have later := @ih fun other listed => typed other (List.mem_cons_of_mem _ listed)
      have defined := evalExpr_defined here.value here.known env
      simp only [foldView, bind_ok, pure_ok, ReadsKnown, FoldFits]
      constructor
      · rintro ⟨values, last, value, evaluated, ⟨restValues, restLast⟩, folded, same⟩
        obtain ⟨reads, fits⟩ := defined.mp ⟨value, evaluated⟩
        obtain ⟨restReads, restFits⟩ := later.mp ⟨restValues, restLast, folded⟩
        refine ⟨⟨reads, (readsKnown_congr (fun name => isBound_insert) rest).mp restReads⟩, fits,
          fun other otherEvaluated => ?_⟩
        rw [evaluated] at otherEvaluated
        cases otherEvaluated
        exact restFits
      · rintro ⟨⟨reads, restReads⟩, fits, restFits⟩
        obtain ⟨value, evaluated⟩ := defined.mpr ⟨reads, fits⟩
        obtain ⟨values, last, folded⟩ := later.mpr
          ⟨(readsKnown_congr (fun name => isBound_insert) rest).mpr restReads,
            restFits value evaluated⟩
        exact ⟨value :: values, last, value, evaluated, (values, last), folded, rfl⟩

theorem foldView_last {computes : List ComputeView} {env last : Env} {values : List Int64}
    (folded : foldView computes env = .ok (values, last)) {name : String} :
    IsBound last name ↔ IsBound env name ∨ ∃ compute ∈ computes, compute.name = name := by
  induction computes generalizing env values with
  | nil =>
      cases folded
      simp
  | cons compute rest ih =>
      simp only [foldView, bind_ok, pure_ok] at folded
      obtain ⟨value, _, ⟨restValues, restLast⟩, restFolded, same⟩ := folded
      cases same
      rw [ih restFolded, isBound_insert, List.exists_mem_cons_iff, or_assoc, eq_comm (a := name)]

/-- The validator checks each value that a fold reaches. -/
theorem checkComputes_fold {scenario : Scenario} {computes : List ComputeView} {env last : Env}
    {values : List Int64} (folded : foldView computes env = .ok (values, last))
    (checked : checkComputes scenario computes env = []) :
    ∀ result ∈ computes.zip values, checkResult scenario result.1 result.2 = [] := by
  induction computes generalizing env values with
  | nil => simp
  | cons compute rest ih =>
      simp only [foldView, bind_ok, pure_ok] at folded
      obtain ⟨value, evaluated, ⟨restValues, restLast⟩, restFolded, same⟩ := folded
      cases same
      simp only [checkComputes, evaluated, List.append_eq_nil_iff] at checked
      rw [List.zip_cons_cons, List.forall_mem_cons]
      exact ⟨checked.1, ih restFolded checked.2⟩

theorem checkResult_nil {scenario : Scenario} {compute : ComputeView} {val : Int64}
    (checked : checkResult scenario compute val = []) :
    (compute.ast.dtype = .money → 0 ≤ val) ∧
      ∀ declared, scenario.computed[compute.name]? = some declared → val = declared := by
  rw [checkResult, List.append_eq_nil_iff] at checked
  obtain ⟨money, expected⟩ := checked
  constructor
  · intro isMoney
    by_contra negative
    rw [if_pos ⟨isMoney, Int64.not_le.mp negative⟩] at money
    cases money
  · intro declared found
    rw [found] at expected
    dsimp only at expected
    by_contra different
    rw [if_pos (Ne.symm different)] at expected
    cases expected

theorem numeric_names {ty : String} (numeric : isNumericType ty = true) :
    ty = "money" ∨ ty = "decimal" ∨ ty = "number" ∨ ty = "int" ∨ ty = "integer" ∨ ty = "uint" := by
  unfold isNumericType classifyValueType at numeric
  split_ifs at numeric <;> simp_all [isNumericCategory]

/-- A numeric input that passes is an integer. -/
theorem checkTypedInput_numeric {name ty : String} {v : ScenarioInput}
    (numeric : isNumericType ty = true) (checked : checkTypedInput name ty v = []) :
    ∃ i, v = .int i := by
  cases v with
  | int i => exact ⟨i, rfl⟩
  | string s =>
      rcases numeric_names numeric with rfl | rfl | rfl | rfl | rfl | rfl <;>
        simp [checkTypedInput, wantInteger] at checked

section Validated

variable {view : ProcedureView} {scenario : Scenario}

/-- What a scenario without errors has passed. -/
structure Validated (view : ProcedureView) (scenario : Scenario) : Prop where
  typed : ∀ input ∈ view.inputs, checkInput scenario input = []
  declared : ∀ name, GivenAsInteger scenario name → name ∈ view.inputs.map (·.1)
  computed : ∀ name declared, scenario.computed[name]? = some declared →
    ∃ compute ∈ view.computes, compute.name = name
  money : ∀ input ∈ view.inputs, checkMoneyInput scenario input = []
  results : checkComputes scenario view.computes (numericInputs view scenario) = []

theorem checkNamed_nil {α : Type} {names : List String} {message : String → String}
    {entry : String × α} : checkNamed names message entry = [] ↔ entry.1 ∈ names := by
  unfold checkNamed
  split <;> simp [*]

theorem validated_of_nil (passed : validateScenario view scenario = []) :
    Validated view scenario := by
  simp only [validateScenario, List.append_eq_nil_iff, List.flatMap_eq_nil_iff,
    checkNamed_nil] at passed
  obtain ⟨⟨⟨⟨⟨⟨⟨typed, declared⟩, computed⟩, _⟩, money⟩, results⟩, _⟩, _⟩ := passed
  refine ⟨typed, ?_, ?_, money, results⟩
  · rintro name ⟨i, given⟩
    exact declared (name, .int i) (Std.ExtTreeMap.mem_toList_iff_getElem?_eq_some.mpr given)
  · intro name value found
    have listed := computed (name, value) (Std.ExtTreeMap.mem_toList_iff_getElem?_eq_some.mpr found)
    obtain ⟨compute, placed, same⟩ := List.mem_map.mp listed
    exact ⟨compute, placed, same⟩

theorem Validated.integer (validated : Validated view scenario) {input : String × String}
    (listed : input ∈ view.inputs) (numeric : isNumericType input.2 = true) :
    GivenAsInteger scenario input.1 := by
  have checked := validated.typed input listed
  unfold checkInput at checked
  cases found : scenario.inputs[input.1]? with
  | none => simp [found] at checked
  | some v =>
      rw [found] at checked
      obtain ⟨i, rfl⟩ := checkTypedInput_numeric numeric checked
      exact ⟨i, found⟩

theorem Validated.nonnegative (validated : Validated view scenario) {input : String × String}
    (listed : input ∈ view.inputs) (money : classifyValueType input.2 = .money) :
    ∃ amount, scenario.inputs[input.1]? = some (.int amount) ∧ 0 ≤ amount := by
  obtain ⟨amount, given⟩ := validated.integer listed (by simp [isNumericType, money,
    isNumericCategory])
  refine ⟨amount, given, ?_⟩
  have checked := validated.money input listed
  rw [checkMoneyInput, if_pos money, given] at checked
  dsimp only at checked
  by_contra negative
  rw [if_pos (Int64.not_le.mp negative)] at checked
  cases checked

theorem Validated.bound (validated : Validated view scenario) (name : String) :
    IsBound (numericInputs view scenario) name ↔ GivenAsInteger scenario name := by
  rw [numericInputs, isBound_inputs]
  constructor
  · rintro (⟨bound, found⟩ | ⟨_, given⟩)
    · simp at found
    · exact given
  · intro given
    exact .inr ⟨validated.declared name given, given⟩

end Validated

/-! The expressions of a verified procedure. -/

theorem knownOperators_of_verify {names : List String} : (attr : ExprAttr) →
    attr.verify = .ok () → KnownOperators (toExprNode attr names)
  | .num _ _, _ => trivial
  | .var _ _, _ => trivial
  | .bin _ binop lhs rhs, verified => by
      simp only [ExprAttr.verify, check_ok, require_ok] at verified
      exact ⟨verified.2.2, knownOperators_of_verify lhs verified.1,
        knownOperators_of_verify rhs verified.2.1⟩
  | .cmp _ name lhs rhs, verified => by
      simp only [ExprAttr.verify, check_ok, require_ok] at verified
      exact ⟨verified.2.2, knownOperators_of_verify lhs verified.1,
        knownOperators_of_verify rhs verified.2.1⟩
  | .call _ name [], _ => trivial
  | .call _ name (first :: rest), verified => by
      simp only [ExprAttr.verify, ExprAttr.verifyAll, check_ok] at verified
      exact knownOperators_of_verify first verified.1.1

section Procedure

variable {parse : Bool → String → Except ExprError ExprNode} {proc : ProcedureOp}
  {scenario : Scenario}

theorem compute_typed (verified : proc.Verified parse) :
    ∀ compute ∈ (viewOf proc).computes, Typed compute.ast := by
  intro compute listed
  obtain ⟨typed, attr, names, shaped, same⟩ := verified.compute_typed listed
  refine ⟨typeExpr_value _ typed, ?_⟩
  rw [same]
  exact knownOperators_of_verify attr shaped

/-- A guard reads a flag that may be absent, or compares two values. -/
inductive GuardShape : ExprNode → Prop
  | accepted (name : String) (category dtype : ValueCategory) :
      GuardShape (.call "accepted" [.var name category] dtype)
  | compares {op : String} {lhs rhs : ExprNode} (left : Typed lhs) (right : Typed rhs)
      (known : op ∈ ["<", "<=", ">", ">=", "==", "!="]) (dtype : ValueCategory) :
      GuardShape (.cmp op lhs rhs dtype)

theorem guard_shape (verified : proc.Verified parse) {entry : EntryView}
    (listed : entry ∈ (viewOf proc).entries) {guard : ExprNode}
    (guarded : entry.guardAst = some guard) : GuardShape guard := by
  obtain ⟨typed, attr, names, shaped, rfl, inferred, carried⟩ := verified.guard_typed listed guarded
  have known : KnownOperators (toExprNode attr names) := knownOperators_of_verify attr shaped
  cases attr with
  | cmp dtype op lhs rhs =>
      simp only [toExprNode, typeGuard, bind_ok, pure_ok] at inferred
      obtain ⟨left, leftTyped, right, rightTyped, _, _, _, _, _, _, rfl⟩ := inferred
      simp only [verifyCarriedDtypes, check_ok] at carried
      obtain ⟨operator, knownLeft, knownRight⟩ := known
      have leftSame := typed_carried lhs leftTyped carried.2.1
      have rightSame := typed_carried rhs rightTyped carried.2.2
      refine .compares ⟨?_, knownLeft⟩ ⟨?_, knownRight⟩ operator dtype
      · rw [leftSame]
        exact typeExpr_value _ leftTyped
      · rw [rightSame]
        exact typeExpr_value _ rightTyped
  | call dtype name args =>
      simp only [toExprNode, typeGuard] at inferred
      split_ifs at inferred with accepts
      split at inferred
      · next input category isVar =>
          rw [toExprNode, accepts, isVar]
          exact .accepted input category dtype
      · cases inferred
  | num => simp [toExprNode, typeGuard] at inferred
  | var => simp [toExprNode, typeGuard] at inferred
  | bin => simp [toExprNode, typeGuard] at inferred

theorem compareWith_defined {op : String} (known : op ∈ ["<", "<=", ">", ">=", "==", "!="])
    (a b : Int64) : ∃ held, compareWith op a b = .ok held := by
  simp only [List.mem_cons, List.not_mem_nil, or_false] at known
  rcases known with rfl | rfl | rfl | rfl | rfl | rfl <;> exact ⟨_, rfl⟩

theorem evalGuard_defined {guard : ExprNode} (shape : GuardShape guard) {env : Env} :
    (∃ verdict, evalGuard guard env = .ok verdict) ↔
      (∀ name ∈ comparisonReads guard, IsBound env name) ∧ OperationsFit env guard := by
  cases shape with
  | accepted name category dtype => simp [evalGuard, comparisonReads, OperationsFit]
  | @compares op lhs rhs left right known dtype =>
      have leftDefined := evalExpr_defined left.value left.known env
      have rightDefined := evalExpr_defined right.value right.known env
      simp only [evalGuard_cmp, bind_ok, comparisonReads, List.mem_append, or_imp, forall_and,
        OperationsFit]
      constructor
      · rintro ⟨verdict, a, leftValue, b, rightValue, _⟩
        obtain ⟨leftBound, leftFits⟩ := leftDefined.mp ⟨a, leftValue⟩
        obtain ⟨rightBound, rightFits⟩ := rightDefined.mp ⟨b, rightValue⟩
        exact ⟨⟨leftBound, rightBound⟩, leftFits, rightFits⟩
      · rintro ⟨⟨leftBound, rightBound⟩, leftFits, rightFits⟩
        obtain ⟨a, leftValue⟩ := leftDefined.mpr ⟨leftBound, leftFits⟩
        obtain ⟨b, rightValue⟩ := rightDefined.mpr ⟨rightBound, rightFits⟩
        obtain ⟨verdict, compared⟩ := compareWith_defined known a b
        exact ⟨verdict, a, leftValue, b, rightValue, compared⟩

/-- A scenario without errors evaluates exactly where its reads are bound to integers and every
operation fits; of a numeric input that passes, the scenario gives an integer. -/
theorem validated_scenario_evaluates (parse : Bool → String → Except ExprError ExprNode)
    (proc : ProcedureOp) (scenario : Scenario) (verified : proc.Verified parse)
    (passed : validateScenario (viewOf proc) scenario = []) :
    (Evaluates (viewOf proc) scenario ↔ Evaluable (viewOf proc) scenario) ∧
      ∀ input ∈ (viewOf proc).inputs, isNumericType input.2 = true →
        GivenAsInteger scenario input.1 := by
  have validated := validated_of_nil passed
  have typed := compute_typed verified
  have reads := readsKnown_congr validated.bound (viewOf proc).computes
  have bound : ∀ {values last}, foldView (viewOf proc).computes (numericInputs (viewOf proc)
      scenario) = .ok (values, last) → ∀ name, IsBound last name ↔ GivenAsInteger scenario name ∨
        ∃ compute ∈ (viewOf proc).computes, compute.name = name := by
    intro values last folded name
    rw [foldView_last folded, validated.bound]
  refine ⟨⟨?_, ?_⟩, fun input listed numeric => validated.integer listed numeric⟩
  · rintro ⟨values, last, folded, _, _, _, guards⟩
    obtain ⟨known, fits⟩ := (foldView_defined typed).mp ⟨values, last, folded⟩
    refine ⟨reads.mp known, fits, ?_, ?_⟩
    · intro entry listed guard guarded name named
      have defined := (evalGuard_defined (guard_shape verified listed guarded)).mp
        (guards entry listed guard guarded)
      exact (bound folded name).mp (defined.1 name named)
    · intro otherValues otherLast otherFolded entry listed guard guarded
      rw [folded] at otherFolded
      cases otherFolded
      exact ((evalGuard_defined (guard_shape verified listed guarded)).mp
        (guards entry listed guard guarded)).2
  · intro evaluable
    obtain ⟨values, last, folded⟩ := (foldView_defined typed).mpr
      ⟨reads.mpr evaluable.computeReads, evaluable.computes⟩
    have checked := fun result listed =>
      checkResult_nil (checkComputes_fold folded validated.results result listed)
    refine ⟨values, last, folded, ?_, ?_, fun result listed => (checked result listed).1, ?_⟩
    · intro name declared found
      refine ⟨validated.computed name declared found, fun result listed same => ?_⟩
      exact (checked result listed).2 declared (by rw [same, found])
    · exact fun input listed money => validated.nonnegative listed money
    · intro entry listed guard guarded
      refine (evalGuard_defined (guard_shape verified listed guarded)).mpr ⟨fun name named => ?_,
        evaluable.guards values last folded entry listed guard guarded⟩
      exact (bound folded name).mpr (evaluable.guardReads entry listed guard guarded name named)

end Procedure

/-! A procedure that divides two inputs. -/

def ratioAst : ExprAttr := .bin .decimal '/' (.var .decimal 0) (.var .decimal 1)

def ratioNode : ExprNode := .bin '/' (.var "x" .decimal) (.var "y" .decimal) .decimal

def ratioProcedure : ProcedureOp where
  symName := "ratio"
  trigger := none
  version := none
  instanceKey := none
  body := [⟨.input "x" "decimal", 1⟩, ⟨.input "y" "decimal", 2⟩,
    ⟨.compute [.input "x" "decimal", .input "y" "decimal"] "q" "x / y" ratioAst, 3⟩]

/-- A parser that knows the text of the procedure. -/
def ratioParse : Bool → String → Except ExprError ExprNode := fun _ text =>
  if text = "x / y" then .ok ratioNode else .error ⟨"expr.parse", "unexpected token"⟩

def ratioScenario (x y : Int64) : Scenario where
  inputs := .ofList [("x", ScenarioInput.int x), ("y", ScenarioInput.int y)]
  computed := ∅
  accepted := ∅

theorem ratioProcedure_verified : ratioProcedure.Verified ratioParse := by
  refine ⟨?_, ?_, ?_⟩
  · intro deps symName expr ast line listed
    simp only [ratioProcedure, List.mem_cons, Located.mk.injEq, reduceCtorEq, Op.compute.injEq,
      false_and, false_or, List.not_mem_nil, or_false] at listed
    obtain ⟨⟨rfl, rfl, rfl, rfl⟩, rfl⟩ := listed
    rfl
  · intro entry line listed
    simp [ratioProcedure] at listed
  · intro entry line listed
    simp [ratioProcedure] at listed

/-- Division by zero passes the check and does not evaluate. -/
theorem ratio_by_zero : ratioProcedure.Verified ratioParse ∧
    validateScenario (viewOf ratioProcedure) (ratioScenario 1 0) = [] ∧
    ¬Evaluates (viewOf ratioProcedure) (ratioScenario 1 0) := by
  refine ⟨ratioProcedure_verified, by decide +kernel, ?_⟩
  rintro ⟨values, last, folded, _⟩
  cases folded

/-- Any other division of these has a value. -/
theorem ratio_by_two : Evaluates (viewOf ratioProcedure) (ratioScenario 7 2) := by
  refine (validated_scenario_evaluates ratioParse ratioProcedure (ratioScenario 7 2)
    ratioProcedure_verified (by decide +kernel)).1.mpr ⟨?_, ?_, ?_, ?_⟩
  · refine ⟨fun name listed => ?_, trivial⟩
    have named : name ∈ ["x", "y"] := listed
    simp only [List.mem_cons, List.not_mem_nil, or_false] at named
    rcases named with rfl | rfl
    · exact ⟨7, by decide +kernel⟩
    · exact ⟨2, by decide +kernel⟩
  · refine ⟨⟨trivial, trivial, fun a b left right => ?_⟩, fun _ _ => trivial⟩
    cases left
    cases right
    exact ⟨3, by decide⟩
  · intro entry listed
    cases listed
  · intro values last _ entry listed
    cases listed

end Neutrino
