import Neutrino.Library.Lookup
import Neutrino.Temporal

/-! The names a plan reads from the maps of an invocation, and that environments agreeing on
those names evaluate alike. -/

namespace Neutrino

open Checked Lookup Ledger

/-! Expressions. -/

/-- The names `evalExpr` can look up. -/
def exprReads : ExprNode → List String
  | .num _ _ => []
  | .var name _ => [name]
  | .bin _ lhs rhs _ => exprReads lhs ++ exprReads rhs
  | .call _ args _ =>
      match args with
      | [] => []
      | first :: _ => exprReads first
  | .cmp _ _ _ _ => []

/-- The names `evalGuard` can look up. -/
def guardReads : ExprNode → List String
  | .call _ [.var input _] _ => ["accepted:" ++ input]
  | .cmp _ lhs rhs _ => exprReads lhs ++ exprReads rhs
  | _ => []

/-- The name an operand refers to. -/
def operandReads (id : String) : List String :=
  match splitOperand id with
  | some (.ref name) => [name]
  | _ => []

section Evaluation

variable {excused : Prop} {env other : Env}

theorem evalExpr_var (name : String) (dtype : ValueCategory) (env : Env) :
    evalExpr (.var name dtype) env =
      env[name]?.elim (.error ⟨"expr.unbound", "unbound variable: " ++ name⟩) .ok := by
  rw [evalExpr]
  cases env[name]? <;> rfl

theorem evalExpr_bin (op : Char) (lhs rhs : ExprNode) (dtype : ValueCategory) (env : Env) :
    evalExpr (.bin op lhs rhs dtype) env =
      evalExpr lhs env >>= fun a => evalExpr rhs env >>= fun b => checkedBin op a b := by
  rw [evalExpr]
  cases evalExpr lhs env with
  | error failure => rfl
  | ok a => cases evalExpr rhs env <;> rfl

theorem evalGuard_cmp (op : String) (lhs rhs : ExprNode) (dtype : ValueCategory) (env : Env) :
    evalGuard (.cmp op lhs rhs dtype) env =
      evalExpr lhs env >>= fun a => evalExpr rhs env >>= fun b => compareWith op a b := by
  rw [evalGuard]
  cases evalExpr lhs env with
  | error failure => rfl
  | ok a => cases evalExpr rhs env <;> rfl

theorem evalExpr_agrees {node : ExprNode}
    (reads : ∀ name ∈ exprReads node, Alike excused env[name]? other[name]?) :
    Agrees (fun _ => excused) Eq (evalExpr node env) (evalExpr node other) := by
  fun_induction exprReads node with
  | case1 => exact .ok rfl
  | case2 name dtype =>
      rw [evalExpr_var, evalExpr_var]
      exact (reads name (by simp)).agrees _
  | case3 op lhs rhs dtype ihLeft ihRight =>
      simp only [List.mem_append] at reads
      rw [evalExpr_bin, evalExpr_bin]
      refine .bind (ihLeft fun name listed => reads name (.inl listed)) ?_
      rintro a _ rfl
      refine .bind (ihRight fun name listed => reads name (.inr listed)) ?_
      rintro b _ rfl
      exact .refl _ fun _ => rfl
  | case4 name dtype =>
      simp only [evalExpr]
      exact .refl _ fun _ => rfl
  | case5 name dtype first rest ih =>
      simp only [evalExpr]
      split
      · exact ih reads
      · exact .error _
  | case6 => exact .error _

theorem comparison_agrees {op : String} {lhs rhs : ExprNode} {dtype : ValueCategory}
    (reads : ∀ name ∈ guardReads (.cmp op lhs rhs dtype), Alike excused env[name]? other[name]?) :
    Agrees (fun _ => excused) Eq (evalGuard (.cmp op lhs rhs dtype) env)
      (evalGuard (.cmp op lhs rhs dtype) other) := by
  simp only [guardReads, List.mem_append] at reads
  rw [evalGuard_cmp, evalGuard_cmp]
  refine .bind (evalExpr_agrees fun name listed => reads name (.inl listed)) ?_
  rintro a _ rfl
  refine .bind (evalExpr_agrees fun name listed => reads name (.inr listed)) ?_
  rintro b _ rfl
  exact .refl _ fun _ => rfl

theorem evalGuard_congr {guard : ExprNode}
    (reads : ∀ name ∈ guardReads guard, env[name]? = other[name]?) :
    evalGuard guard env = evalGuard guard other := by
  cases guard with
  | num | var | bin => rfl
  | cmp op lhs rhs dtype =>
      have agrees := comparison_agrees fun name listed => Alike.strict (reads name listed)
      exact agrees.eq fun _ => id
  | call name args dtype =>
      simp only [evalGuard]
      split
      · split
        · rename_i input category
          rw [reads ("accepted:" ++ input) (by simp [guardReads])]
        · rfl
      · rfl

theorem operandAmount_ref (env : Env) (name : String) :
    operandAmount env (.ref name) = env[name]?.elim (.error "operand.unresolved") .ok := by
  simp only [operandAmount]
  cases env[name]? <;> rfl

theorem operandSymbol_ref (symbols : Std.ExtTreeMap String String) (name : String) :
    operandSymbol symbols (.ref name) =
      symbols[name]?.elim (.error "operand.unresolved") .ok := by
  simp only [operandSymbol]
  cases symbols[name]? <;> rfl

theorem mem_operandReads {id name : String} (split : splitOperand id = some (.ref name)) :
    name ∈ operandReads id := by
  simp [operandReads, split]

theorem resolveAmount_agrees {id : String}
    (reads : ∀ name ∈ operandReads id, Alike excused env[name]? other[name]?) :
    Agrees (fun _ => excused) Eq (resolveAmount id env) (resolveAmount id other) := by
  unfold resolveAmount
  cases split : splitOperand id with
  | none => exact .error _
  | some operand =>
      have found : Agrees (fun _ => excused) Eq (operandAmount env operand)
          (operandAmount other operand) := by
        cases operand with
        | literal text => exact .refl _ fun _ => rfl
        | ref name =>
            rw [operandAmount_ref, operandAmount_ref]
            exact (reads name (mem_operandReads split)).agrees _
      refine .bind found ?_
      rintro value _ rfl
      exact .refl _ fun _ => rfl

theorem resolveSymbol_agrees {id : String} {symbols tokens : Std.ExtTreeMap String String}
    (reads : ∀ name ∈ operandReads id, Alike excused symbols[name]? tokens[name]?) :
    Agrees (fun _ => excused) Eq (resolveSymbol id symbols) (resolveSymbol id tokens) := by
  unfold resolveSymbol
  cases split : splitOperand id with
  | none => exact .error _
  | some operand =>
      have found : Agrees (fun _ => excused) Eq (operandSymbol symbols operand)
          (operandSymbol tokens operand) := by
        cases operand with
        | literal text => exact .refl _ fun _ => rfl
        | ref name =>
            rw [operandSymbol_ref, operandSymbol_ref]
            exact (reads name (mem_operandReads split)).agrees _
      refine .bind found ?_
      rintro token _ rfl
      exact .refl _ fun _ => rfl

end Evaluation

/-! Computes. -/

/-- Every name a compute reads is known, or computed before it. -/
def ComputesRead (known : String → Prop) : List PlanCompute → Prop
  | [] => True
  | compute :: rest => (∀ expr ∈ compute.expr, ∀ name ∈ exprReads expr, known name) ∧
      ComputesRead (fun name => known name ∨ name = compute.name) rest

section Computes

variable {excused : Prop} {known : String → Prop} {env other : Env}

theorem computeValue_agrees {compute : PlanCompute}
    (reads : ∀ expr ∈ compute.expr, ∀ name ∈ exprReads expr, known name)
    (alike : ∀ name, known name → Alike excused env[name]? other[name]?) :
    Agrees (fun _ => excused) Eq (computeValue env compute) (computeValue other compute) := by
  unfold computeValue
  split
  · exact .error _
  · rename_i expr given
    exact (evalExpr_agrees fun name listed =>
      alike name (reads expr given name listed)).mapError _

theorem alike_insert (alike : ∀ name, known name → Alike excused env[name]? other[name]?)
    (key : String) (value : Int64) (name : String) (listed : known name ∨ name = key) :
    Alike excused (env.insert key value)[name]? (other.insert key value)[name]? := by
  rcases listed with earlier | rfl
  · exact (alike name earlier).insert key value
  · exact .of_eq (by simp)

/-- The fold agrees on the known names and on what it computes. -/
theorem foldComputes_agrees {computes : List PlanCompute} (reads : ComputesRead known computes)
    (alike : ∀ name, known name → Alike excused env[name]? other[name]?) :
    Agrees (fun _ => excused) (fun final final' => ∀ name,
        known name ∨ name ∈ computes.map (·.name) → Alike excused final[name]? final'[name]?)
      (foldComputes computes env).value (foldComputes computes other).value := by
  induction computes generalizing known env other with
  | nil => exact .ok fun name listed => alike name (by simpa using listed)
  | cons compute rest ih =>
      obtain ⟨here, later⟩ := reads
      simp only [foldComputes, Traced.bind_value]
      refine .bind (computeValue_agrees here alike) ?_
      rintro value _ rfl
      refine .bind_same fun _ _ => ?_
      refine (ih later (alike_insert alike compute.name value)).imp fun final final' names => ?_
      intro name listed
      apply names
      simp only [List.map_cons, List.mem_cons] at listed
      tauto

/-- Folds that both succeed observe the same values. -/
theorem foldComputes_trace {computes : List PlanCompute} (reads : ComputesRead known computes)
    (alike : ∀ name, known name → Alike excused env[name]? other[name]?) {final final' : Env}
    (folded : (foldComputes computes env).value = .ok final)
    (folded' : (foldComputes computes other).value = .ok final') :
    (foldComputes computes env).trace = (foldComputes computes other).trace := by
  induction computes generalizing known env other with
  | nil => rfl
  | cons compute rest ih =>
      obtain ⟨here, later⟩ := reads
      simp only [foldComputes, Traced.bind_ok, Traced.ofExcept_value] at folded folded'
      obtain ⟨value, computed, _, _, continued⟩ := folded
      obtain ⟨value', computed', _, _, continued'⟩ := folded'
      have same := computeValue_agrees here alike
      rw [computed, computed'] at same
      obtain rfl := same.of_ok
      have rest := ih later (alike_insert alike compute.name value) continued continued'
      simp only [foldComputes, computed, computed', bind, Traced.ofExcept_value,
        Traced.observe_value, rest]

end Computes

/-! Plans. -/

def declaredNames (plan : CoordinationPlan) : List String := plan.inputs.map (·.name)

def computedNames (plan : CoordinationPlan) : List String := plan.computes.map (·.name)

/-- The name of a policy's acceptance flag. -/
def IsFlag (plan : CoordinationPlan) (name : String) : Prop :=
  ∃ policy ∈ plan.attestations, name = "accepted:" ++ policy.input

/-- A name the environment of a transition takes from a known input, a compute or a policy. -/
def Bound (plan : CoordinationPlan) (known : String → Prop) (name : String) : Prop :=
  IsFlag plan name ∨ known name ∨ name ∈ computedNames plan

/-- Every name the plan reads is bound. -/
structure PlanReads (plan : CoordinationPlan) (numeric symbols : String → Prop) : Prop where
  computes : ComputesRead numeric plan.computes
  guards : ∀ effect ∈ plan.effects, ∀ guard ∈ effect.guard, ∀ name ∈ guardReads guard,
    Bound plan numeric name
  amounts : ∀ effect ∈ plan.effects, ∀ name ∈ operandReads effect.amount,
    Bound plan numeric name
  parties : ∀ effect ∈ plan.effects, ∀ name ∈ operandReads effect.party, symbols name
  currencies : ∀ effect ∈ plan.effects, ∀ name ∈ operandReads effect.currency, symbols name

section Plan

variable {plan : CoordinationPlan}

theorem seedAcceptance_other (input : TransitionInput) (env : Env) {name : String}
    (other : ¬IsFlag plan name) : (seedAcceptance plan input env)[name]? = env[name]? := by
  rw [seedAcceptance_eq]
  exact flagPolicies_other _ (fun policy listed clash => other ⟨policy, listed, clash⟩) env

theorem seedAcceptance_flag (input : TransitionInput) (env : Env) {policy : AttestationPolicy}
    (listed : policy ∈ plan.attestations) :
    (seedAcceptance plan input env)["accepted:" ++ policy.input]? =
      some (if policyAccepted input policy.input then 1 else 0) := by
  have declared : isDeclaredPolicy plan.attestations policy.input = true := by
    rw [isDeclaredPolicy, List.any_eq_true]
    exact ⟨policy, listed, by simp⟩
  rw [seedAcceptance_eq]
  exact flagPolicies_declared _ declared env

/-- Inputs with the same attestations that agree on the known names have environments that agree
on the bound ones. -/
theorem transitionEnv_agrees {first second : TransitionInput} {numeric : String → Prop}
    (reads : ComputesRead numeric plan.computes)
    (alike : ∀ name, numeric name → first.numeric[name]? = second.numeric[name]?)
    (attestations : first.attestations = second.attestations) :
    Agrees (fun _ => False) (fun env env' => ∀ name, Bound plan numeric name →
        env[name]? = env'[name]?)
      (transitionEnv plan first).value (transitionEnv plan second).value := by
  simp only [transitionEnv, Traced.bind_value]
  have folded := foldComputes_agrees reads fun name listed =>
    Alike.strict (alike name listed)
  refine .bind folded fun base base' names => .ok ?_
  intro name bound
  by_cases flag : IsFlag plan name
  · obtain ⟨policy, listed, rfl⟩ := flag
    rw [seedAcceptance_flag _ _ listed, seedAcceptance_flag _ _ listed, policyAccepted,
      policyAccepted, attestations]
  · rw [seedAcceptance_other _ _ flag, seedAcceptance_other _ _ flag]
    exact (names name (bound.resolve_left flag)).eq id

theorem resolvePosting_congr {env other : Env} {symbols tokens : Std.ExtTreeMap String String}
    {effect : PlanEffect}
    (amount : ∀ name ∈ operandReads effect.amount, env[name]? = other[name]?)
    (party : ∀ name ∈ operandReads effect.party, symbols[name]? = tokens[name]?)
    (currency : ∀ name ∈ operandReads effect.currency, symbols[name]? = tokens[name]?) :
    resolvePosting env symbols effect = resolvePosting other tokens effect := by
  have amounts := resolveAmount_agrees fun name listed =>
    Alike.strict (amount name listed)
  have parties := resolveSymbol_agrees fun name listed =>
    Alike.strict (party name listed)
  have currencies := resolveSymbol_agrees fun name listed =>
    Alike.strict (currency name listed)
  simp only [resolvePosting, amounts.eq fun _ => id, parties.eq fun _ => id,
    currencies.eq fun _ => id]

end Plan

end Neutrino
