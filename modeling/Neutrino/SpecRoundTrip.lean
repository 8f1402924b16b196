import Neutrino.AgreementEnvelope
import Neutrino.PlanFromSpec
import Neutrino.PlanNormalization
import Neutrino.SpecBuilder
import Neutrino.TypedEvaluation

/-! The consumer path inverts the producer path: the spec written for a verified procedure is
planned as the procedure itself. -/

namespace Neutrino

open CapabilitySpec Checked Json

/-! Expressions on the wire. -/

theorem exprFromObject_cmp {node : Object} {lhs rhs : Json}
    (kind : node.stringOr "kind" = "cmp") (known : isCmpOp (node.stringOr "op") = true)
    (left : node.get "lhs" = some lhs) (right : node.get "rhs" = some rhs) :
    exprFromObject node = do
      let lhs ← exprFromJson lhs
      let rhs ← exprFromJson rhs
      return .cmp (node.stringOr "op") lhs rhs
        (classifyValueType ((node.getString "dtype").getD "extension")) := by
  rw [exprFromObject]
  simp only [kind, String.reduceEq, if_false, if_true, known]
  split
  · rename_i first second isLeft isRight
    cases left.symm.trans isLeft
    cases right.symm.trans isRight
    rfl
  · rename_i missing
    exact absurd right (missing _ _ left)

theorem exprFromObject_args {node : Object} {elements : List Json}
    (kind : node.stringOr "kind" = "call") (listed : node.getArray "args" = some elements) :
    exprFromObject node = do
      let args ← exprsFromJson elements
      return .call (node.stringOr "name") args
        (classifyValueType ((node.getString "dtype").getD "extension")) := by
  rw [exprFromObject]
  simp only [kind, String.reduceEq, if_false, if_true]
  split
  · rename_i missing
    cases listed.symm.trans missing
  · rename_i args present
    cases listed.symm.trans present
    rfl

theorem singleByte_ascii {op : Char} (ascii : op ∈ ['+', '-', '*', '/']) :
    singleByte (String.singleton op) = some op := by
  fin_cases ascii <;> rfl

mutual

/-- The wire form of an attribute that verifies is read back as its expression. -/
theorem exprFromJson_toExprNode (names : List String) : (attr : ExprAttr) →
    attr.verify = .ok () →
      exprFromJson (exprToJson (toExprNode attr names)) = .ok (toExprNode attr names)
  | .num dtype value, _ => by
      rw [toExprNode, exprToJson, exprFromJson, exprFromObject]
      simp [Object.stringOr, Object.getString, Object.getInteger,
        Object.get_cons, asString, asInteger, Number.asInteger]
  | .var dtype slot, _ => by
      rw [toExprNode, exprToJson, exprFromJson, exprFromObject]
      simp [Object.stringOr, Object.getString, Object.get_cons, asString]
  | .bin dtype binop lhs rhs, verified => by
      simp only [ExprAttr.verify, check_ok, require_ok] at verified
      obtain ⟨left, right, known⟩ := verified
      rw [toExprNode, exprToJson, exprFromJson, @exprFromObject_bin _ binop
        (exprToJson (toExprNode lhs names)) (exprToJson (toExprNode rhs names)),
        exprFromJson_toExprNode names lhs left, exprFromJson_toExprNode names rhs right]
      · simp [ok_bind, Object.getString, Object.get_cons, asString, pure, Except.pure]
      all_goals simp [Object.stringOr, Object.getString, Object.get_cons, asString,
        singleByte_ascii known]
  | .cmp dtype name lhs rhs, verified => by
      simp only [ExprAttr.verify, check_ok, require_ok] at verified
      obtain ⟨left, right, known⟩ := verified
      have operator : isCmpOp name = true := by
        simp only [List.mem_cons, List.not_mem_nil, or_false] at known
        simpa [isCmpOp, or_assoc] using known
      rw [toExprNode, exprToJson, exprFromJson, @exprFromObject_cmp _
        (exprToJson (toExprNode lhs names)) (exprToJson (toExprNode rhs names)),
        exprFromJson_toExprNode names lhs left, exprFromJson_toExprNode names rhs right]
      · simp [ok_bind, Object.stringOr, Object.getString, Object.get_cons, asString,
          pure, Except.pure]
      all_goals simp [Object.stringOr, Object.getString, Object.get_cons, asString,
        operator]
  | .call dtype name args, verified => by
      simp only [ExprAttr.verify, check_ok, require_ok] at verified
      rw [toExprNode, exprToJson, exprFromJson, @exprFromObject_args _
        (exprsToJson (toExprNodes args names)),
        exprsFromJson_toExprNodes names args verified.1]
      · simp [ok_bind, Object.stringOr, Object.getString, Object.get_cons, asString,
          pure, Except.pure]
      · simp [Object.stringOr, Object.getString, Object.get_cons, asString]
      · simp [Object.getArray, Object.get_cons, asArray]

theorem exprsFromJson_toExprNodes (names : List String) : (args : List ExprAttr) →
    ExprAttr.verifyAll args = .ok () →
      exprsFromJson (exprsToJson (toExprNodes args names)) = .ok (toExprNodes args names)
  | [], _ => by rw [toExprNodes, exprsToJson, exprsFromJson]
  | arg :: rest, verified => by
      simp only [ExprAttr.verifyAll, check_ok] at verified
      rw [toExprNodes, exprsToJson, exprsFromJson, exprFromJson_toExprNode names arg verified.1,
        exprsFromJson_toExprNodes names rest verified.2]
      rfl

end

/-! Variables. -/

mutual

theorem mem_exprVarsFrom : (node : ExprNode) → {seen : List String} → {name : String} →
    (name ∈ exprVarsFrom node seen ↔ name ∈ seen ∨ name ∈ exprVarsFrom node [])
  | .num value dtype, seen, name => by simp [exprVarsFrom]
  | .var symbol dtype, seen, name => by
      rw [exprVarsFrom, exprVarsFrom]
      split <;> grind
  | .bin op lhs rhs dtype, seen, name => by
      rw [exprVarsFrom, exprVarsFrom, mem_exprVarsFrom rhs, mem_exprVarsFrom lhs,
        @mem_exprVarsFrom rhs (exprVarsFrom lhs []), or_assoc]
  | .cmp op lhs rhs dtype, seen, name => by
      rw [exprVarsFrom, exprVarsFrom, mem_exprVarsFrom rhs, mem_exprVarsFrom lhs,
        @mem_exprVarsFrom rhs (exprVarsFrom lhs []), or_assoc]
  | .call callee args dtype, seen, name => by
      rw [exprVarsFrom, exprVarsFrom, mem_exprVarsFromAll args]

theorem mem_exprVarsFromAll : (args : List ExprNode) → {seen : List String} → {name : String} →
    (name ∈ exprVarsFromAll args seen ↔ name ∈ seen ∨ name ∈ exprVarsFromAll args [])
  | [], seen, name => by simp [exprVarsFromAll]
  | arg :: rest, seen, name => by
      rw [exprVarsFromAll, exprVarsFromAll, mem_exprVarsFromAll rest, mem_exprVarsFrom arg,
        @mem_exprVarsFromAll rest (exprVarsFrom arg []), or_assoc]

end

mutual

theorem mem_exprVars_toExprNode (names : List String) : (attr : ExprAttr) → {name : String} →
    (name ∈ exprVarsFrom (toExprNode attr names) [] ↔
      ∃ slot ∈ collectSlots attr, names.getD slot "" = name)
  | .num dtype value, name => by simp [toExprNode, exprVarsFrom, collectSlots]
  | .var dtype slot, name => by
      simp [toExprNode, exprVarsFrom, collectSlots, eq_comm]
  | .bin dtype binop lhs rhs, name => by
      rw [toExprNode, exprVarsFrom, collectSlots, mem_exprVarsFrom,
        mem_exprVars_toExprNode names lhs, mem_exprVars_toExprNode names rhs]
      simp [or_and_right, exists_or]
  | .cmp dtype op lhs rhs, name => by
      rw [toExprNode, exprVarsFrom, collectSlots, mem_exprVarsFrom,
        mem_exprVars_toExprNode names lhs, mem_exprVars_toExprNode names rhs]
      simp [or_and_right, exists_or]
  | .call dtype callee args, name => by
      rw [toExprNode, exprVarsFrom, collectSlots, mem_exprVars_toExprNodes names args]

theorem mem_exprVars_toExprNodes (names : List String) : (args : List ExprAttr) →
    {name : String} → (name ∈ exprVarsFromAll (toExprNodes args names) [] ↔
      ∃ slot ∈ collectAllSlots args, names.getD slot "" = name)
  | [], name => by simp [toExprNodes, exprVarsFromAll, collectAllSlots]
  | arg :: rest, name => by
      rw [toExprNodes, exprVarsFromAll, collectAllSlots, mem_exprVarsFromAll,
        mem_exprVars_toExprNode names arg, mem_exprVars_toExprNodes names rest]
      simp [or_and_right, exists_or]

end

/-- The dependencies of a verified expression are its variables. -/
theorem mem_exprVars_of_bijection {ast : ExprAttr} {deps : List Value} {what : String}
    (bijection : verifyDepBijection ast deps what = .ok ()) {name : String} :
    name ∈ exprVars (toExprNode ast (depSymbols deps)) ↔ name ∈ depSymbols deps := by
  simp only [verifyDepBijection, check_ok, each_ok, require_ok] at bijection
  obtain ⟨_, inside, used⟩ := bijection
  have length : (depSymbols deps).length = deps.length := List.length_map _
  rw [exprVars, mem_exprVars_toExprNode]
  constructor
  · rintro ⟨slot, listed, rfl⟩
    have bound : slot < (depSymbols deps).length := length ▸ inside slot listed
    rw [List.getD_eq_getElem _ _ bound]
    exact List.getElem_mem bound
  · intro listed
    obtain ⟨index, bound, rfl⟩ := List.mem_iff_getElem.mp listed
    exact ⟨index, used index (List.mem_range.mpr (length ▸ bound)),
      List.getD_eq_getElem _ _ bound⟩

/-! Inference. -/

mutual

/-- Inference reads the categories of the expression's own variables only. -/
theorem typeExpr_congr {env other : CategoryEnv} : (node : ExprNode) →
    (∀ name ∈ exprVarsFrom node [], env[name]? = other[name]?) →
      typeExpr env node = typeExpr other node
  | .num value dtype, _ => rfl
  | .var name dtype, agree => by
      rw [typeExpr, typeExpr, agree name (by simp [exprVarsFrom])]
  | .bin op lhs rhs dtype, agree => by
      rw [exprVarsFrom] at agree
      rw [typeExpr, typeExpr,
        typeExpr_congr lhs fun name listed => agree name ((mem_exprVarsFrom rhs).mpr (.inl listed)),
        typeExpr_congr rhs fun name listed => agree name ((mem_exprVarsFrom rhs).mpr (.inr listed))]
  | .cmp op lhs rhs dtype, _ => rfl
  | .call callee args dtype, agree => by
      rw [exprVarsFrom] at agree
      rw [typeExpr, typeExpr, typeExprs_congr args agree]

theorem typeExprs_congr {env other : CategoryEnv} : (args : List ExprNode) →
    (∀ name ∈ exprVarsFromAll args [], env[name]? = other[name]?) →
      typeExprs env args = typeExprs other args
  | [], _ => rfl
  | arg :: rest, agree => by
      rw [exprVarsFromAll] at agree
      have later := @mem_exprVarsFromAll rest (exprVarsFrom arg [])
      rw [typeExprs, typeExprs,
        typeExpr_congr arg fun name listed => agree name (later.mpr (.inl listed)),
        typeExprs_congr rest fun name listed => agree name (later.mpr (.inr listed))]

end

theorem toExprNodes_var {args : List ExprAttr} {names : List String} {input : String}
    {category : ValueCategory} (shape : toExprNodes args names = [.var input category]) :
    ∃ slot, args = [.var category slot] := by
  rcases args with _ | ⟨first, _ | ⟨second, rest⟩⟩
  · simp [toExprNodes] at shape
  · cases first <;> simp [toExprNodes, toExprNode] at shape
    exact ⟨_, by rw [shape.2]⟩
  · simp [toExprNodes] at shape

/-- Inference leaves a guard that carries its categories as it is. -/
theorem guard_carried {env : CategoryEnv} {what : String} {names : List String} {attr : ExprAttr}
    {node : ExprNode} (typed : typeGuard env (toExprNode attr names) = .ok node)
    (carried : verifyCarriedDtypes what attr node = .ok ()) : toExprNode attr names = node := by
  cases attr with
  | num dtype value => simp [toExprNode, typeGuard] at typed
  | var dtype slot => simp [toExprNode, typeGuard] at typed
  | bin dtype binop lhs rhs => simp [toExprNode, typeGuard] at typed
  | cmp dtype op lhs rhs =>
      simp only [toExprNode, typeGuard, bind_ok, pure_ok] at typed
      obtain ⟨left, leftTyped, right, rightTyped, _, _, _, _, _, _, rfl⟩ := typed
      simp only [verifyCarriedDtypes, check_ok] at carried
      rw [toExprNode, typed_carried lhs leftTyped carried.2.1,
        typed_carried rhs rightTyped carried.2.2]
  | call dtype callee args =>
      simp only [toExprNode, typeGuard] at typed
      split at typed
      · split at typed
        · rename_i input category shape
          split at typed
          · cases typed
          · split at typed
            · cases typed
              obtain ⟨slot, rfl⟩ := toExprNodes_var shape
              simp only [toExprNodes, toExprNode, List.cons.injEq, ExprNode.var.injEq] at shape
              simp only [verifyCarriedDtypes, verifyAllCarriedDtypes, check_ok, require_ok,
                ExprAttr.dtype, ExprNode.dtype] at carried
              rw [toExprNode, toExprNodes, toExprNodes, toExprNode, shape.1.1,
                require_ok.mp carried.2.1.1]
            · cases typed
        · cases typed
      · cases typed

/-! The view of a verified procedure. -/

/-- An expression that is read back from its wire form and that inference leaves as it is. -/
structure Inferred (infer : ExprNode → Except ExprError ExprNode) (node : ExprNode) : Prop where
  readable : exprFromJson (exprToJson node) = .ok node
  inferred : infer node = .ok node

/-- The expressions of a view under the categories of all its names. -/
structure ViewTyped (env : CategoryEnv) (view : ProcedureView) : Prop where
  computes : ∀ compute ∈ view.computes, Inferred (typeExpr env) compute.ast ∧
    ∀ name, name ∈ exprVars compute.ast ↔ name ∈ compute.deps
  guards : ∀ entry ∈ view.entries, ∀ guard, entry.guardAst = some guard →
    Inferred (typeGuard env) guard
  unguarded : ∀ entry ∈ view.entries, entry.guardAst = none → entry.guard = ""
  obligations : ∀ obligation ∈ view.obligations, ∃ predicate,
    obligation.whenAst = some predicate ∧ Inferred (typeGuard env) predicate
  quorums : ∀ policy ∈ view.attestations, int32OfInt64 (Int64.ofInt policy.quorum) = policy.quorum

section Verified

variable {parse : Bool → String → Except ExprError ExprNode} {proc : ProcedureOp}

theorem verifyTypedExpr_inferred {env : CategoryEnv} {ast : ExprAttr} {deps : List Value}
    {text : String} {guard : Bool}
    (verified : verifyTypedExpr parse env ast deps text guard = .ok ()) :
    Inferred (if guard then typeGuard env else typeExpr env)
        (toExprNode ast (deps.map fun dep => (refOf dep).text)) ∧
      ∀ name, name ∈ exprVars (toExprNode ast (deps.map fun dep => (refOf dep).text)) ↔
        name ∈ deps.map fun dep => (refOf dep).text := by
  obtain ⟨shaped, typed, inferred, carried⟩ := verifyTypedExpr_ok verified
  simp only [verifyTypedExpr, bind_ok] at verified
  obtain ⟨_, _, _, bijection, _⟩ := verified
  have names : (deps.map fun dep => (refOf dep).text) = depSymbols deps := by
    simp only [verifyDepBijection, check_ok] at bijection
    exact refOf_depSymbols bijection.1
  refine ⟨⟨exprFromJson_toExprNode _ ast shaped, ?_⟩, fun name => ?_⟩
  · cases guard with
    | false =>
        have same := typed_carried ast inferred carried
        exact same.symm ▸ inferred
    | true =>
        have same := guard_carried inferred carried
        exact same.symm ▸ inferred
  · rw [names]
    exact mem_exprVars_of_bijection bijection

theorem guarded_inferred {env : CategoryEnv} {kind : String} {entry : EntryOp}
    (verified : verifyEntryOp parse env entry = .ok ()) :
    (∀ guard, (buildEntry kind entry).guardAst = some guard → Inferred (typeGuard env) guard) ∧
      ((buildEntry kind entry).guardAst = none → (buildEntry kind entry).guard = "") := by
  simp only [verifyEntryOp, check_ok, require_ok] at verified
  obtain ⟨_, paired, checked⟩ := verified
  simp only [buildEntry]
  cases text : entry.guard with
  | none => simp
  | some text =>
      rw [text] at paired checked
      obtain ⟨ast, present⟩ := Option.isSome_iff_exists.mp paired.symm
      rw [present] at checked ⊢
      refine ⟨fun guard built => ?_, by simp⟩
      simp only [Option.bind_some, Option.map_some, Option.some.injEq] at built
      exact built ▸ (verifyTypedExpr_inferred checked).1

theorem int32_again (value : Int64) :
    int32OfInt64 (Int64.ofInt (int32OfInt64 value)) = int32OfInt64 value := by
  have lower : -(2 ^ 31) ≤ int32OfInt64 value := Int.le_bmod (by decide)
  have upper : int32OfInt64 value < 2 ^ 31 := Int.bmod_lt (by decide)
  rw [int32OfInt64, Int64.toInt_ofInt_of_le (by omega) (by omega), int32OfInt64, Int.bmod_bmod]

theorem entry_inferred (accepted : proc.Accepted parse) {entry : EntryView}
    (listed : entry ∈ (viewOf proc).entries) :
    (∀ guard, entry.guardAst = some guard → Inferred (typeGuard (procEnv proc)) guard) ∧
      (entry.guardAst = none → entry.guard = "") := by
  obtain ⟨⟨op, line⟩, placed, took⟩ := mem_viewed listed
  have verified := accepted.operations _ placed
  cases op with
  | debit op =>
      cases took
      exact guarded_inferred verified
  | credit op =>
      cases took
      exact guarded_inferred verified
  | _ => cases took

/-- What the verifiers say of the expressions of a view. -/
theorem viewTyped_of_accepted (accepted : proc.Accepted parse) :
    ViewTyped (procEnv proc) (viewOf proc) where
  computes compute listed := by
    obtain ⟨⟨op, line⟩, placed, took⟩ := mem_viewed listed
    have verified := accepted.operations _ placed
    cases op with
    | compute deps symName expr ast =>
        cases took
        exact verifyTypedExpr_inferred verified
    | _ => cases took
  guards entry listed := (entry_inferred accepted listed).1
  unguarded entry listed := (entry_inferred accepted listed).2
  obligations obligation listed := by
    obtain ⟨⟨op, line⟩, placed, took⟩ := mem_viewed listed
    have verified := accepted.operations _ placed
    cases op with
    | obligation op =>
        cases took
        simp only [Op.verify, ObligationOp.verify, check_ok] at verified
        obtain ⟨_, _, _, _, verified⟩ := verified
        split at verified
        · rename_i text ast present present'
          simp only [check_ok] at verified
          exact ⟨_, by rw [present, present']; rfl, (verifyTypedExpr_inferred verified.1).1⟩
        · cases verified
    | _ => cases took
  quorums policy listed := by
    obtain ⟨⟨op, line⟩, placed, took⟩ := mem_viewed listed
    cases op with
    | attest op =>
        cases took
        exact int32_again _
    | _ => cases took

end Verified

/-! The categories in scope. -/

/-- Every dependency of a compute is an input or a compute that stands before it. -/
def InScope (known : List String) : List ComputeView → Prop
  | [] => True
  | compute :: rest => (∀ name ∈ compute.deps, name ∈ known) ∧
      InScope (known ++ [compute.name]) rest

/-- A view whose names are told apart and whose computes read what stands before them. -/
structure Scoped (view : ProcedureView) : Prop where
  distinct : (view.inputs.map (·.1) ++ view.computes.map (·.name)).Nodup
  ordered : InScope (view.inputs.map (·.1)) view.computes

abbrev Categorized := String × ValueCategory

def declareAll (env : CategoryEnv) (names : List Categorized) : CategoryEnv :=
  names.foldl (fun env name => env.insert name.1 name.2) env

def inputCategory (input : String × String) : Categorized := (input.1, classifyValueType input.2)

def computeCategory (compute : ComputeView) : Categorized := (compute.name, compute.ast.dtype)

def specNames (view : ProcedureView) : List Categorized :=
  view.inputs.map inputCategory ++ view.computes.map computeCategory

theorem specNames_fst (view : ProcedureView) : (specNames view).map Prod.fst =
    view.inputs.map (·.1) ++ view.computes.map (·.name) := by
  simp [specNames, inputCategory, computeCategory, Function.comp_def]

theorem declareAll_append (env : CategoryEnv) (front back : List Categorized) :
    declareAll env (front ++ back) = declareAll (declareAll env front) back :=
  List.foldl_append

theorem declareAll_other {names : List Categorized} {name : String}
    (absent : name ∉ names.map Prod.fst) (env : CategoryEnv) :
    (declareAll env names)[name]? = env[name]? := by
  induction names generalizing env with
  | nil => rfl
  | cons first rest ih =>
      simp only [List.map_cons, List.mem_cons, not_or] at absent
      rw [declareAll, List.foldl_cons]
      refine (ih absent.2 _).trans ?_
      rw [Std.ExtTreeMap.getElem?_insert, if_neg (by simpa using Ne.symm absent.1)]

theorem declareAll_own {names : List Categorized} (distinct : (names.map Prod.fst).Nodup)
    {name : Categorized} (listed : name ∈ names) (env : CategoryEnv) :
    (declareAll env names)[name.1]? = some name.2 := by
  induction names generalizing env with
  | nil => simp at listed
  | cons first rest ih =>
      rw [List.map_cons, List.nodup_cons] at distinct
      rw [declareAll, List.foldl_cons]
      rcases List.mem_cons.mp listed with rfl | later
      · exact (declareAll_other distinct.1 _).trans Std.ExtTreeMap.getElem?_insert_self
      · exact ih distinct.2 later _

/-- The order in which distinct names are declared does not matter. -/
theorem declareAll_perm {names others : List Categorized} (shuffled : names.Perm others)
    (distinct : (names.map Prod.fst).Nodup) : declareAll ∅ names = declareAll ∅ others := by
  have distinct' : (others.map Prod.fst).Nodup := (shuffled.map _).nodup_iff.mp distinct
  refine Std.ExtTreeMap.ext_getElem? fun name => ?_
  by_cases listed : name ∈ names.map Prod.fst
  · obtain ⟨own, inNames, rfl⟩ := List.mem_map.mp listed
    rw [declareAll_own distinct inNames, declareAll_own distinct' (shuffled.subset inNames)]
  · have absent : name ∉ others.map Prod.fst := fun there =>
      listed ((shuffled.map _).symm.subset there)
    rw [declareAll_other listed, declareAll_other absent]

def categorizedName : Op → Option Categorized
  | .input symName ty => some (symName, classifyValueType ty)
  | .compute _ symName _ ast => some (symName, ast.dtype)
  | _ => none

theorem procEnv_declare (proc : ProcedureOp) :
    procEnv proc =
      declareAll ∅ (proc.body.filterMap fun located => categorizedName located.op) := by
  rw [procEnv, declareAll, List.foldl_filterMap]
  congr 1
  funext env located
  cases located.op <;> rfl

theorem specNames_perm (body : List Located) :
    (body.filterMap fun located => categorizedName located.op).Perm
      (((viewed inputView body).map (·.1)).map inputCategory ++
        ((viewed computeView body).map (·.1)).map computeCategory) := by
  induction body with
  | nil => exact .nil
  | cons located rest ih =>
      cases same : located.op with
      | input symName ty =>
          simpa [viewed, same, categorizedName, inputView, computeView, inputCategory] using ih
      | compute deps symName expr ast =>
          simp only [viewed, same, categorizedName, inputView, computeView, computeCategory,
            List.filterMap_cons, Option.map_some, Option.map_none, List.map_cons] at ih ⊢
          have dtype : (toExprNode ast (deps.map fun dep => (refOf dep).text)).dtype =
              ast.dtype := by
            cases ast <;> rw [toExprNode] <;> rfl
          rw [dtype]
          exact (ih.cons _).trans List.perm_middle.symm
      | _ => simpa [viewed, same, categorizedName, inputView, computeView] using ih

/-- The verifier's categories are those of the names in the order of a spec. -/
theorem procEnv_eq {proc : ProcedureOp} (inScope : Scoped (viewOf proc)) :
    procEnv proc = declareAll ∅ (specNames (viewOf proc)) := by
  rw [procEnv_declare]
  have shuffled := specNames_perm proc.body
  refine declareAll_perm shuffled ?_
  have distinct := inScope.distinct
  rw [← specNames_fst] at distinct
  exact (shuffled.map _).nodup_iff.mpr distinct

/-! The spec read back. -/

section Spec

variable {sha256Hex : List UInt8 → String} {text : Projection.JsonText} {view : ProcedureView}
  {plan : CoordinationPlan}

/-- A reader finds the members of the core in the document. -/
theorem get_specDocument {key : String} (inside : Agreement.isOutside key = false) :
    (specDocument sha256Hex text view plan).get key =
      Object.get (coreMembers view plan) key := by
  rw [← Agreement.get_semanticMembers inside, Agreement.semanticMembers_specDocument, semanticCore,
    Object.get_ofMembers]

theorem get_section {key : String} {value : Json} (inside : Agreement.isOutside key = false)
    (listed : Object.get (coreMembers view plan) key = some value) :
    (specDocument sha256Hex text view plan).get key = some value :=
  (get_specDocument inside).trans listed

@[simp] theorem asObject_objectOf (members : List (String × Json)) :
    (objectOf members).asObject = some (Object.ofMembers members) := rfl

@[simp] theorem stringOr_ofMembers (members : List (String × Json)) (key : String) :
    (Object.ofMembers members).stringOr key = Object.stringOr members key := by
  rw [Object.stringOr, Object.getString, Object.get_ofMembers]
  rfl

@[simp] theorem getObject_ofMembers (members : List (String × Json)) (key : String) :
    (Object.ofMembers members).getObject key = Object.getObject members key := by
  rw [Object.getObject, Object.get_ofMembers]
  rfl

@[simp] theorem getArray_ofMembers (members : List (String × Json)) (key : String) :
    (Object.ofMembers members).getArray key = Object.getArray members key := by
  rw [Object.getArray, Object.get_ofMembers]
  rfl

@[simp] theorem getInteger_ofMembers (members : List (String × Json)) (key : String) :
    (Object.ofMembers members).getInteger key = Object.getInteger members key := by
  rw [Object.getInteger, Object.get_ofMembers]
  rfl

theorem orNull_string (text : String) : ((orNull text).asString).getD "" = text := by
  unfold orNull
  split
  · rename_i empty
    rw [empty]
    rfl
  · rfl

theorem filterMap_strings (texts : List String) :
    ((strings texts).asArray.getD []).filterMap asString = texts := by
  simp [strings, asArray, List.filterMap_map, Function.comp_def, asString]

theorem getArray_section {key : String} {elements : List Json}
    (inside : Agreement.isOutside key = false)
    (listed : Object.get (coreMembers view plan) key = some (.array elements)) :
    (specDocument sha256Hex text view plan).getArray key = some elements := by
  rw [Object.getArray, get_specDocument inside, listed]
  rfl

theorem spec_inputs : specObjects (specDocument sha256Hex text view plan) "inputs" =
    view.inputs.map fun input => Object.ofMembers [("name", .string input.1),
      ("type", .string input.2), ("category", .string (categoryOf input.2))] := by
  rw [specObjects, getArray_section (by decide)
    (show _ = some (inputsArray view) by simp [coreMembers, Object.get_cons])]
  simp [List.filterMap_map, Function.comp_def]

theorem inputCategories_spec :
    inputCategories (specDocument sha256Hex text view plan) =
      declareAll ∅ (view.inputs.map inputCategory) := by
  rw [inputCategories, spec_inputs, declareAll, List.foldl_map, List.foldl_map]
  simp only [stringOr_ofMembers]
  simp [inputCategory, Object.stringOr, Object.getString, Object.get_cons, asString]

def computeObject (compute : ComputeView) : List (String × Json) :=
  [("name", .string compute.name), ("expr", .string compute.expr),
    ("category", .string (categoryName compute.ast.dtype)), ("deps", strings compute.deps),
    ("ast", exprToJson compute.ast)]

theorem spec_computes : (specDocument sha256Hex text view plan).getArray "computes" =
    some (view.computes.map fun compute => objectOf (computeObject compute)) :=
  getArray_section (by decide)
    (show _ = some (computesArray view) by simp [coreMembers, Object.get_cons])

theorem computeObject_deps (compute : ComputeView) :
    stringElements (Object.ofMembers (computeObject compute)) "deps" = compute.deps := by
  rw [stringElements, getArray_ofMembers, Object.getArray, computeObject]
  simpa [Object.get_cons] using filterMap_strings compute.deps

/-- Each compute is typed in turn under the names before it. -/
theorem typeComputes_view {final : CategoryEnv} : {computes : List ComputeView} →
    {known : List String} → {env : CategoryEnv} →
    (∀ name ∈ known, env[name]? = final[name]?) → InScope known computes →
    (∀ compute ∈ computes, Inferred (typeExpr final) compute.ast ∧
      (∀ name, name ∈ exprVars compute.ast ↔ name ∈ compute.deps) ∧
      final[compute.name]? = some compute.ast.dtype) →
    typeComputes env (computes.map fun compute => objectOf (computeObject compute)) =
      .ok (computes.map fun compute => some compute.ast,
        declareAll env (computes.map computeCategory))
  | [], _, _, _, _, _ => rfl
  | compute :: rest, known, env, agree, inScope, typed => by
      obtain ⟨⟨inferred, vars, own⟩, later⟩ := List.forall_mem_cons.mp typed
      have reads : typeExpr env compute.ast = .ok compute.ast := by
        rw [← inferred.inferred]
        exact typeExpr_congr _ fun name listed => agree name
          (inScope.1 name ((vars name).mp listed))
      have here : typeCompute env (objectOf (computeObject compute)) =
          .ok (some compute.ast, env.insert compute.name compute.ast.dtype) := by
        simp only [typeCompute, asObject_objectOf, Object.get_ofMembers, computeObject,
          Object.get_cons, String.reduceEq, if_false, if_true, inferred.readable, ok_bind,
          reads, stringOr_ofMembers]
        simp [Object.stringOr, Object.getString, Object.get_cons, asString, pure,
          Except.pure]
      have agree' : ∀ name ∈ known ++ [compute.name],
          (env.insert compute.name compute.ast.dtype)[name]? = final[name]? := by
        intro name listed
        rw [Std.ExtTreeMap.getElem?_insert]
        split
        · rename_i same
          rw [← compare_eq_iff_eq.mp same, own]
        · rename_i other
          rcases List.mem_append.mp listed with old | fresh
          · exact agree name old
          · exact absurd (compare_eq_iff_eq.mpr (List.mem_singleton.mp fresh).symm) other
      simp only [List.map_cons, typeComputes, here, ok_bind,
        typeComputes_view agree' inScope.2 later]
      rfl

theorem spec_effects : (specDocument sha256Hex text view plan).getArray "effects" =
    some (List.zipWith (effectObject plan.workflowKey) view.entries plan.effects) :=
  getArray_section (by decide)
    (show _ = some (effectsArray view plan) by simp [coreMembers, Object.get_cons])

theorem get_append (front back : List (String × Json)) (key : String) :
    Object.get (front ++ back) key =
      (Object.get front key).or (Object.get back key) := by
  rw [Object.get, List.find?_append]
  cases found : front.find? fun member => member.1 == key <;> simp [Object.get, found]

@[simp] theorem get_nil (key : String) : Object.get [] key = none := rfl

theorem spec_obligations : (specDocument sha256Hex text view plan).get "obligations" =
    if plan.obligations = [] then none else some (obligationsArray plan) := by
  rw [get_specDocument (by decide), coreMembers, get_append, get_append]
  by_cases some : plan.obligations = []
  · by_cases policies : view.attestations = [] <;>
      simp [some, policies, Object.get_cons]
  · by_cases policies : view.attestations = [] <;>
      simp [some, policies, Object.get_cons]

/-- A guard is read off an effect as it stands there. -/
theorem typeWhen_effect {env : CategoryEnv} {key : String} {entry : EntryView}
    {effect : PlanEffect}
    (typed : ∀ guard, entry.guardAst = some guard → Inferred (typeGuard env) guard) :
    typeWhen env (effectObject key entry effect) = .ok entry.guardAst := by
  rw [typeWhen, effectObject, asObject_objectOf, Option.bind_some, getObject_ofMembers,
    Object.getObject, get_append, get_append]
  cases guarded : entry.guardAst with
  | none =>
      by_cases memo : entry.memo = "" <;>
        simp [memo, Object.get_cons]
  | some guard =>
      obtain ⟨readable, inferred⟩ := typed guard guarded
      simp [Object.get_cons, Object.get_ofMembers, readable, inferred, ok_bind, pure,
        Except.pure]

theorem typeWhen_obligation {env : CategoryEnv} {obligation : PlanObligation}
    (typed : Inferred (typeGuard env) obligation.when) :
    typeWhen env (obligationObject obligation) = .ok (some obligation.when) := by
  obtain ⟨readable, inferred⟩ := typed
  rw [typeWhen, obligationObject, asObject_objectOf, Option.bind_some, getObject_ofMembers,
    Object.getObject]
  simp [Object.get_cons, Object.get_ofMembers, readable, inferred, ok_bind, pure,
    Except.pure]

/-- Elements that are each read back from what is written for them. -/
theorem collect_written {α β γ ε : Type} {read : β → Except ε γ} {write : α → β} {back : α → γ}
    {elements : List α} (reads : ∀ element ∈ elements, read (write element) = .ok (back element)) :
    collect read (elements.map write) = .ok (elements.map back) := by
  induction elements with
  | nil => rfl
  | cons first rest ih =>
      obtain ⟨here, later⟩ := List.forall_mem_cons.mp reads
      rw [List.map_cons, collect, here, ok_bind, ih later]
      rfl

theorem typeWhen_effects {env : CategoryEnv} {key : String} : {entries : List EntryView} →
    {effects : List PlanEffect} → entries.length = effects.length →
    (∀ entry ∈ entries, ∀ guard, entry.guardAst = some guard → Inferred (typeGuard env) guard) →
    collect (typeWhen env) (List.zipWith (effectObject key) entries effects) =
      .ok (entries.map EntryView.guardAst)
  | [], [], _, _ => rfl
  | entry :: entries, effect :: effects, same, typed => by
      obtain ⟨here, later⟩ := List.forall_mem_cons.mp typed
      rw [List.zipWith_cons_cons, collect, typeWhen_effect here, ok_bind,
        typeWhen_effects (by simpa using same) later]
      rfl

/-- The declared category and dependencies of a compute are those of its tree. -/
theorem checkCompute_view {compute : ComputeView}
    (vars : ∀ name, name ∈ exprVars compute.ast ↔ name ∈ compute.deps) :
    checkCompute (objectOf (computeObject compute), some compute.ast) = .ok () := by
  have category : (Object.ofMembers (computeObject compute)).stringOr "category" =
      categoryName compute.ast.dtype := by
    rw [stringOr_ofMembers, computeObject]
    simp [Object.stringOr, Object.getString, Object.get_cons, asString]
  simp only [checkCompute, asObject_objectOf, computeObject_deps, category, check_ok,
    requirePlan_ok, true_and]
  exact ⟨fun name listed => (vars name).mpr listed, fun name listed => (vars name).mp listed⟩

/-! The raw inputs. -/

theorem operandKey_operand (ref : Ref) : operandKey (operand ref).asObject = ref.operandKey := by
  rw [operand, asObject_objectOf, operandKey, stringOr_ofMembers, stringOr_ofMembers,
    Ref.operandKey]
  cases ref.isLit <;>
    simp [Object.stringOr, Object.getString, Object.get_cons, asString]

theorem participant_orNull (text : String) {members : Object}
    (listed : Object.get members "participant" = some (orNull text)) (index : Nat) :
    effectParticipant index members = .ok text := by
  rw [effectParticipant, listed]
  unfold orNull
  split_ifs with empty
  · rw [empty]
  · rfl

/-- The members that every effect has. -/
def fixedMembers (key : String) (entry : EntryView) (effect : PlanEffect) : List (String × Json) :=
  [("kind", .string entry.kind), ("name", .string entry.name), ("ledger", .string entry.ledger),
    ("owner", .string entry.owner), ("participant", orNull effect.participant),
    ("party", operand entry.party), ("amount", operand entry.amount),
    ("currency", operand entry.currency), ("idempotencyKey", operand ⟨false, key⟩)]

def effectMembers (key : String) (entry : EntryView) (effect : PlanEffect) :
    List (String × Json) :=
  fixedMembers key entry effect ++
    (match entry.guardAst with
      | some guard => [("when", objectOf [("expr", .string entry.guard),
          ("ast", exprToJson guard)])]
      | none => []) ++
    if entry.memo ≠ "" then [("memo", .string entry.memo)] else []

section Effect

variable {key : String} {entry : EntryView} {effect : PlanEffect}

theorem effectObject_members :
    effectObject key entry effect = objectOf (effectMembers key entry effect) := rfl

theorem get_fixed {name : String} {value : Json}
    (listed : Object.get (fixedMembers key entry effect) name = some value) :
    Object.get (effectMembers key entry effect) name = some value := by
  rw [effectMembers, get_append, get_append, listed]
  rfl

theorem stringOr_fixed {name value : String}
    (listed : Object.get (fixedMembers key entry effect) name = some (.string value)) :
    (Object.ofMembers (effectMembers key entry effect)).stringOr name = value := by
  rw [stringOr_ofMembers, Object.stringOr, Object.getString, get_fixed listed]
  rfl

theorem getObject_fixed {name : String} {value : Json}
    (listed : Object.get (fixedMembers key entry effect) name = some value) :
    (Object.ofMembers (effectMembers key entry effect)).getObject name = value.asObject := by
  rw [getObject_ofMembers, Object.getObject, get_fixed listed, Option.bind_some]

theorem read_condition (unguarded : entry.guardAst = none → entry.guard = "") :
    Object.stringOr (((Object.ofMembers (effectMembers key entry effect)).getObject
      "when").getD []) "expr" = entry.guard := by
  rw [getObject_ofMembers, Object.getObject, effectMembers, get_append, get_append]
  cases guarded : entry.guardAst with
  | none =>
      by_cases memo : entry.memo = "" <;> simp [memo, fixedMembers, Object.get_cons,
        unguarded guarded, Object.stringOr, Object.getString]
  | some guard =>
      simp [fixedMembers, Object.get_cons, Object.stringOr, Object.getString,
        Object.get_ofMembers, asString]

theorem read_memo :
    (Object.ofMembers (effectMembers key entry effect)).stringOr "memo" = entry.memo := by
  rw [stringOr_ofMembers, Object.stringOr, Object.getString, effectMembers, get_append,
    get_append]
  cases entry.guardAst <;> by_cases empty : entry.memo = "" <;>
    simp [fixedMembers, Object.get_cons, empty, asString]

/-- An effect is read back as the entry it was written for. -/
theorem effectFromSpec_effect {env : CategoryEnv} {index : Nat}
    (typed : ∀ guard, entry.guardAst = some guard → Inferred (typeGuard env) guard)
    (unguarded : entry.guardAst = none → entry.guard = "")
    (participant : effect.participant = entry.participant)
    (keyed : entry.idempotencyKey = ⟨false, key⟩) :
    effectFromSpec ((effectObject key entry effect, entry.guardAst), index) =
      .ok (effectInput entry) := by
  have guard := typeWhen_ok (@typeWhen_effect env key entry effect typed)
  have actor : effectParticipant index (Object.ofMembers (effectMembers key entry effect)) =
      .ok entry.participant :=
    participant_orNull entry.participant (by
      rw [Object.get_ofMembers, ← participant]
      exact get_fixed (by simp [fixedMembers, Object.get_cons])) index
  have kind : (((operand ⟨false, key⟩).asObject).getD []).stringOr "kind" = "ref" := by
    rw [operand, asObject_objectOf, Option.getD_some, stringOr_ofMembers]
    rfl
  have value : (((operand ⟨false, key⟩).asObject).getD []).stringOr "value" = key := by
    rw [operand, asObject_objectOf, Option.getD_some, stringOr_ofMembers]
    rfl
  rw [effectObject_members]
  simp only [effectFromSpec, asObject_objectOf, actor, ok_bind, read_condition unguarded, read_memo,
    @stringOr_fixed key entry effect "name" entry.name rfl,
    @stringOr_fixed key entry effect "kind" entry.kind rfl,
    @stringOr_fixed key entry effect "ledger" entry.ledger rfl,
    @getObject_fixed key entry effect "party" _ rfl,
    @getObject_fixed key entry effect "amount" _ rfl,
    @getObject_fixed key entry effect "currency" _ rfl,
    @getObject_fixed key entry effect "idempotencyKey" _ rfl, operandKey_operand, kind, value]
  rw [effectInput, keyed, ← guard]
  rfl

end Effect

theorem collect_effects {env : CategoryEnv} {key : String} :
    {entries : List EntryView} → {effects : List PlanEffect} → {start : Nat} →
    entries.map EntryView.participant = effects.map PlanEffect.participant →
    (∀ entry ∈ entries, (∀ guard, entry.guardAst = some guard → Inferred (typeGuard env) guard) ∧
      (entry.guardAst = none → entry.guard = "") ∧ entry.idempotencyKey = ⟨false, key⟩) →
    collect effectFromSpec (((List.zipWith (effectObject key) entries effects).zip
      (entries.map EntryView.guardAst)).zipIdx start) = .ok (entries.map effectInput)
  | [], [], _, _, _ => rfl
  | entry :: entries, effect :: effects, start, actors, typed => by
      obtain ⟨⟨guard, unguarded, keyed⟩, later⟩ := List.forall_mem_cons.mp typed
      simp only [List.map_cons, List.cons.injEq] at actors
      simp only [List.zipWith_cons_cons, List.map_cons, List.zip_cons_cons, List.zipIdx_cons,
        collect, effectFromSpec_effect guard unguarded actors.1.symm keyed, ok_bind,
        collect_effects actors.2 later]
      rfl

theorem obligationFromSpec_obligation {obligation : PlanObligation}
    (version : obligation.version = kObligationPlanVersion) :
    obligationFromSpec (obligationObject obligation, some obligation.when) = .ok {
      version := kObligationPlanVersion
      name := obligation.name
      obligor := obligation.obligor
      beneficiary := obligation.beneficiary
      authority := obligation.authority
      canonicalGuard := obligation.canonicalGuard
      when := some obligation.when
      effects := obligation.effects } := by
  have effects : stringElements (Object.ofMembers [("version", integer obligation.version),
      ("name", .string obligation.name), ("obligor", .string obligation.obligor),
      ("beneficiary", .string obligation.beneficiary), ("authority", .string obligation.authority),
      ("effects", strings obligation.effects), ("when", objectOf
        [("expr", .string obligation.canonicalGuard), ("ast", exprToJson obligation.when)])])
      "effects" = obligation.effects := by
    rw [stringElements, getArray_ofMembers, Object.getArray]
    simpa [Object.get_cons] using filterMap_strings obligation.effects
  simp only [obligationFromSpec, obligationObject, asObject_objectOf, effects, stringOr_ofMembers,
    getInteger_ofMembers, getObject_ofMembers]
  rw [version]
  simp only [Object.stringOr, Object.getString, Object.getInteger,
    Object.getObject, Object.get_cons, String.reduceEq, if_false, if_true,
    Option.bind_some, asString, Option.getD_some, asObject_objectOf, Object.get_ofMembers]
  rfl

def participantMembers (participant : PlanParticipant) (realization : ParticipantView) :
    List (String × Json) :=
  [("name", .string participant.name), ("role", .string participant.role),
    ("org", orNull participant.org), ("capabilities", strings realization.capabilities),
    ("binding", .string (if realization.isFlexible then "to_be_bound" else "fixed")),
    ("bindRuntimes", strings realization.bindRuntimes),
    ("bindMinAssurance", .string realization.bindMinAssurance)]

theorem participantFromSpec_participant (participant : PlanParticipant)
    (realization : ParticipantView) :
    participantFromSpec (objectOf (participantMembers participant realization)) =
      .ok participant := by
  have org : participantOrg (Object.ofMembers (participantMembers participant realization)) =
      .ok participant.org := by
    rw [participantOrg, Object.get_ofMembers, participantMembers]
    simp only [Object.get_cons, String.reduceEq, if_false, if_true]
    unfold orNull
    split_ifs with empty
    · rw [empty]
    · rfl
  simp only [participantFromSpec, asObject_objectOf, org, ok_bind, stringOr_ofMembers]
  simp [participantMembers, Object.stringOr, Object.getString, Object.get_cons,
    asString, pure, Except.pure]

theorem collect_participants : {participants : List PlanParticipant} →
    {realizations : List ParticipantView} → participants.length = realizations.length →
    collect participantFromSpec (List.zipWith (fun (participant : PlanParticipant)
        (realization : ParticipantView) => objectOf (participantMembers participant realization))
      participants realizations) = .ok participants
  | [], [], _ => rfl
  | participant :: participants, realization :: realizations, same => by
      rw [List.zipWith_cons_cons, collect, participantFromSpec_participant, ok_bind,
        collect_participants (by simpa using same)]
      rfl

theorem orgPairFromSpec_pair (pair : PlanOrgPolicy) :
    orgPairFromSpec (objectOf [("orgA", .string pair.orgA), ("orgB", .string pair.orgB),
      ("roleA", .string pair.roleA), ("roleB", .string pair.roleB)]) = .ok pair := by
  simp only [orgPairFromSpec, asObject_objectOf, stringOr_ofMembers]
  simp [Object.stringOr, Object.getString, Object.get_cons, asString]

@[simp] theorem asString_string (text : String) : (Json.string text).asString = some text := rfl

/-- The observer set of a policy; its tiers stand there only when it has them. -/
def observerMembers (policy : AttestationPolicy) : List (String × Json) :=
  [("ref", .string policy.observerSet), ("role", orNull policy.observerRole)] ++
    (if policy.assurance ≠ "" then [("assurance", .string policy.assurance)] else []) ++
    if policy.independence ≠ "" then [("independence", .string policy.independence)] else []

def policyMembers (policy : AttestationPolicy) : List (String × Json) :=
  [("input", .string policy.input), ("quorum", objectOf [("threshold", integer policy.quorum)]),
    ("observerSet", objectOf (observerMembers policy)),
    ("canonicalization", objectOf [("mode", .string policy.canonicalization),
      ("tolerance", orNull policy.tolerance)]),
    ("timeout", orNull policy.timeout), ("fallback", .string policy.fallback)]

theorem attestationPolicyJson_members (policy : AttestationPolicy) :
    attestationPolicyJson policy = objectOf (policyMembers policy) := rfl

theorem read_observers (policy : AttestationPolicy) :
    Object.stringOr (observerMembers policy) "ref" = policy.observerSet ∧
      Object.stringOr (observerMembers policy) "role" = policy.observerRole ∧
      Object.stringOr (observerMembers policy) "assurance" = policy.assurance ∧
      Object.stringOr (observerMembers policy) "independence" = policy.independence := by
  have role := orNull_string policy.observerRole
  refine ⟨?_, ?_, ?_, ?_⟩ <;>
    rw [Object.stringOr, Object.getString, observerMembers, get_append, get_append] <;>
    by_cases tier : policy.assurance = "" <;> by_cases known : policy.independence = "" <;>
    simp [tier, known, Object.get_cons, role]

/-- A policy is read back as it was written. -/
theorem attestationPolicyFromSpec_policy {policy : AttestationPolicy}
    (quorum : int32OfInt64 (Int64.ofInt policy.quorum) = policy.quorum) :
    attestationPolicyFromSpec (Object.ofMembers (policyMembers policy)) = policy := by
  obtain ⟨set, role, assurance, independence⟩ := read_observers policy
  have tolerance := orNull_string policy.tolerance
  have timeout := orNull_string policy.timeout
  simp only [Object.stringOr, Object.getString] at set role assurance independence
  simp only [attestationPolicyFromSpec, policyMembers,
    Object.getObject, Object.stringOr, Object.getString, Object.get_cons,
    String.reduceEq, if_false, if_true, Option.bind_some, asObject_objectOf, Option.getD_some,
    asString_string, tolerance, timeout, Object.get_ofMembers, set, role, assurance,
    independence, Object.getInteger, integer, asInteger, Number.asInteger, quorum]

theorem attestationPolicies_spec
    (quorums : ∀ policy ∈ view.attestations,
      int32OfInt64 (Int64.ofInt policy.quorum) = policy.quorum) :
    attestationPoliciesFromSpec (specDocument sha256Hex text view plan) = view.attestations := by
  have listed : (specDocument sha256Hex text view plan).get "attestations" =
      if view.attestations = [] then none else some (attestationsArray view) := by
    rw [get_specDocument (by decide), coreMembers, get_append, get_append]
    by_cases some : view.attestations = [] <;> by_cases owed : plan.obligations = [] <;>
      simp [some, owed, Object.get_cons]
  rw [attestationPoliciesFromSpec, Object.getArray, listed]
  by_cases some : view.attestations = []
  · simp [some]
  · rw [if_neg some, Option.bind_some, attestationsArray]
    simp only [asArray, Option.getD_some, List.filterMap_map, Function.comp_def,
      attestationPolicyJson_members, asObject_objectOf, List.filterMap_eq_map', List.map_map]
    exact (List.map_congr_left fun policy own =>
      attestationPolicyFromSpec_policy (quorums policy own)).trans (List.map_id' _)

/-! The lifecycle. -/

theorem transitionFromSpec_transition (transition : LifecycleTransition) :
    transitionFromSpec (transitionObject transition) = .ok (transitionPolicy transition) := by
  have effects : collect (transitionEffectFromSpec transition.name)
      (transition.effects.map Json.string) = .ok transition.effects := by
    rw [@collect_written _ _ _ _ (transitionEffectFromSpec transition.name) Json.string id
      transition.effects fun _ _ => rfl, List.map_id]
  simp only [transitionFromSpec, transitionObject, asObject_objectOf, transitionEffectsFromSpec,
    transitionGuardsFromSpec, transitionEvidenceFromSpec, strings,
    Object.get_ofMembers, Object.get_cons, Object.stringOr, Object.getString,
    String.reduceEq, if_false, if_true, Option.bind_some, asString_string, Option.getD_some,
    effects, ok_bind]
  rfl

def lifecycleMembers (view : ProcedureView) : List (String × Json) :=
  let model := lifecycleModel view
  [("instanceKey", objectOf ([("fields", strings model.instanceKeyFields)] ++
      match view.instanceKey with
      | some declared => [("declared", .string declared)]
      | none => [])),
    ("initialState", .string model.initialState),
    ("states", .array (model.states.map stateObject)),
    ("transitions", .array (model.transitions.map transitionObject)),
    ("terminalStates", objectOf [("success", .string model.successState),
      ("aborted", .string model.abortedState), ("contested", orNull model.contestedState)])]

theorem spec_lifecycle : (specDocument sha256Hex text view plan).getObject "lifecycle" =
    some (Object.ofMembers (lifecycleMembers view)) := by
  rw [Object.getObject, get_section (by decide)
    (show _ = some (lifecycleObj view) by simp [coreMembers, Object.get_cons])]
  rfl

theorem transitions_some (view : ProcedureView) : (lifecycleModel view).transitions ≠ [] := by
  rw [lifecycleModel]
  split <;> simp [quorumModel, openCloseModel]

theorem specTransitions_spec : specTransitions (specDocument sha256Hex text view plan) =
    .ok ((lifecycleModel view).transitions.map transitionPolicy) := by
  rw [specTransitions, spec_lifecycle]
  dsimp only
  have transitions : Object.get (lifecycleMembers view) "transitions" =
      some (.array ((lifecycleModel view).transitions.map transitionObject)) := by
    simp [lifecycleMembers, Object.get_cons]
  rw [transitionsFromSpec, Object.get_ofMembers, transitions]
  obtain ⟨first, rest, some⟩ := List.exists_cons_of_ne_nil (transitions_some view)
  rw [some]
  exact collect_written fun transition _ => transitionFromSpec_transition transition

theorem spec_states : (specObjects (Object.ofMembers (lifecycleMembers view)) "states").map
    (·.stringOr "name") = (lifecycleModel view).states.map (·.name) := by
  have states : Object.get (lifecycleMembers view) "states" =
      some (.array ((lifecycleModel view).states.map stateObject)) := by
    simp [lifecycleMembers, Object.get_cons]
  rw [specObjects, getArray_ofMembers, Object.getArray, states]
  simp only [asArray, Option.bind_some, Option.getD_some, List.filterMap_map, Function.comp_def,
    stateObject, asObject_objectOf, List.filterMap_eq_map', List.map_map]
  refine List.map_congr_left fun state _ => ?_
  rw [stringOr_ofMembers]
  simp [Object.stringOr, Object.getString, Object.get_cons]

theorem spec_declared : Object.stringOr
    (((Object.ofMembers (lifecycleMembers view)).getObject "instanceKey").getD []) "declared" =
      view.instanceKey.getD "" := by
  rw [getObject_ofMembers, Object.getObject, lifecycleMembers]
  cases view.instanceKey <;>
    simp [Object.get_cons, Object.get_ofMembers, Object.stringOr,
      Object.getString]

theorem spec_terminal : ((Object.ofMembers (lifecycleMembers view)).getObject
    "terminalStates").getD [] = Object.ofMembers
      [("success", .string (lifecycleModel view).successState),
        ("aborted", .string (lifecycleModel view).abortedState),
        ("contested", orNull (lifecycleModel view).contestedState)] := by
  rw [getObject_ofMembers, Object.getObject, lifecycleMembers]
  simp [Object.get_cons]

end Spec

/-! The plan. -/

theorem thread_keyed {key start : String} {effects : List (PlanEffectInput × Nat)}
    (threaded : thread effectWorkflowKey start effects = .ok key) :
    (start = "" ∨ start = key) ∧ ∀ effect ∈ effects,
      effect.1.idempotencyKind = "ref" ∧ effect.1.idempotencyValue = key := by
  induction effects generalizing start with
  | nil =>
      cases threaded
      simp
  | cons first rest ih =>
      obtain ⟨next, stepped, later⟩ := bind_ok.mp threaded
      simp only [effectWorkflowKey, check_ok, requirePlan_ok, pure_ok] at stepped
      obtain ⟨⟨kind, named⟩, same, rfl⟩ := stepped
      obtain ⟨carried, keyed⟩ := ih later
      have own : first.1.idempotencyValue = key := by
        rcases carried with none | same
        · exact absurd none named
        · exact same
      refine ⟨?_, List.forall_mem_cons.mpr ⟨⟨kind, own⟩, keyed⟩⟩
      exact same.imp_right fun same => same.trans own

/-- Every effect keys on the workflow key. -/
theorem Assembled.keyed {raw : PlanInputs} {plan : CoordinationPlan}
    (assembled : Assembled raw plan) : ∀ effect ∈ raw.effects,
      effect.idempotencyKind = "ref" ∧ effect.idempotencyValue = plan.workflowKey := by
  have key := assembled.key
  have keyed : ∀ effect ∈ raw.effects.zipIdx,
      effect.1.idempotencyKind = "ref" ∧ effect.1.idempotencyValue = plan.workflowKey := by
    unfold resolveWorkflowKey at key
    split at key
    · split at key
      · cases key
      · simp only [check_ok, requirePlan_ok, each_ok, pure_ok, checkInstanceKey] at key
        exact key.2.2 ▸ key.2.1
    · exact (thread_keyed key).2
  exact (forall_mem_zipIdx fun effect : PlanEffectInput =>
    effect.idempotencyKind = "ref" ∧ effect.idempotencyValue = plan.workflowKey).mp keyed

/-- What an obligation of the plan keeps of the raw one. -/
def rawObligation (obligation : PlanObligation) : PlanObligationInput where
  version := obligation.version
  name := obligation.name
  obligor := obligation.obligor
  beneficiary := obligation.beneficiary
  authority := obligation.authority
  canonicalGuard := obligation.canonicalGuard
  when := some obligation.when
  effects := obligation.effects

theorem resolveObligations_raw {participants : List PlanParticipant} {effects : List PlanEffect}
    {names : List String} {raws : List PlanObligationInput} {obligations : List PlanObligation}
    (resolved : resolveObligations participants effects names raws = .ok obligations) :
    obligations.map rawObligation = raws := by
  induction raws generalizing names obligations with
  | nil =>
      cases resolved
      rfl
  | cons raw rest ih =>
      simp only [resolveObligations, bind_ok, pure_ok] at resolved
      obtain ⟨first, here, others, later, rfl⟩ := resolved
      rw [List.map_cons, ih later]
      congr 1
      simp only [resolveObligation, bind_ok] at here
      obtain ⟨_, _, _, _, _, _, _, _, _, _, here⟩ := here
      split at here
      · cases here
      · rename_i predicate present
        simp only [bind_ok, pure_ok] at here
        obtain ⟨_, _, _, _, _, _, rfl⟩ := here
        simp [rawObligation, ← present]

/-- The sections of a plan that a spec takes from it, as its inputs have them. -/
structure Carried (view : ProcedureView) (plan : CoordinationPlan) : Prop where
  participants : plan.participants = (planInputs view).participants
  pairs : plan.allowedOrgPairs = (planInputs view).allowedOrgPairs
  balanced : plan.balanced = view.balanced
  actors : view.entries.map EntryView.participant = plan.effects.map PlanEffect.participant
  keys : ∀ entry ∈ view.entries, entry.idempotencyKey = ⟨false, plan.workflowKey⟩
  obligations : plan.obligations.map rawObligation = view.obligations.map obligationInput

theorem carried_of_normalized {view : ProcedureView} {plan : CoordinationPlan}
    (normalized : normalizePlan view = .ok plan) : Carried view plan := by
  have assembled := assemblePlan_ok normalized
  have raws := resolveObligations_raw assembled.obligations
  have keyed := assembled.keyed
  have effects : plan.effects.map PlanEffect.participant =
      (planInputs view).effects.map PlanEffectInput.participant := by
    rw [assembled.effects_eq, List.map_map]
    conv_rhs => rw [← List.zipIdx_map_fst 0 (planInputs view).effects, List.map_map]
    rfl
  have shared : plan.participants = (planInputs view).participants ∧
      plan.allowedOrgPairs = (planInputs view).allowedOrgPairs := by
    simp only [normalizePlan, assemblePlan, bind_ok, pure_ok] at normalized
    obtain ⟨_, _, _, _, _, _, _, _, _, _, _, _, _, _, _, _, _, _, _, _, _, _, rfl⟩ := normalized
    exact ⟨rfl, rfl⟩
  exact {
    participants := shared.1
    pairs := shared.2
    balanced := assembled.balanced
    actors := by
      rw [effects]
      simp [planInputs, effectInput]
    keys := fun entry listed => by
      have own := keyed (effectInput entry) (List.mem_map_of_mem listed)
      cases literal : entry.idempotencyKey.isLit with
      | true => simp [effectInput, literal] at own
      | false =>
          rw [← own.2, ← literal]
          rfl
    obligations := raws }

section Whole

variable {sha256Hex : List UInt8 → String} {text : Projection.JsonText} {view : ProcedureView}
  {plan : CoordinationPlan} {env : CategoryEnv}

/-- The categories after the computes are those of all the names. -/
theorem typeComputes_spec (inScope : Scoped view) (typed : ViewTyped env view)
    (categories : env = declareAll ∅ (specNames view)) :
    typeComputes (declareAll ∅ (view.inputs.map inputCategory))
        (view.computes.map fun compute => objectOf (computeObject compute)) =
      .ok (view.computes.map fun compute => some compute.ast, env) := by
  have distinct := inScope.distinct
  rw [← specNames_fst] at distinct
  have agree : ∀ name ∈ view.inputs.map (·.1),
      (declareAll ∅ (view.inputs.map inputCategory))[name]? = env[name]? := by
    intro name listed
    obtain ⟨input, own, rfl⟩ := List.mem_map.mp listed
    have here : inputCategory input ∈ view.inputs.map inputCategory := List.mem_map_of_mem own
    have alone : ((view.inputs.map inputCategory).map Prod.fst).Nodup := by
      rw [specNames, List.map_append] at distinct
      exact distinct.of_append_left
    rw [categories]
    exact (declareAll_own alone here _).trans
      (declareAll_own distinct (List.mem_append_left _ here) _).symm
  rw [typeComputes_view agree inScope.ordered]
  · rw [categories, specNames, declareAll_append]
  · intro compute listed
    obtain ⟨inferred, vars⟩ := typed.computes compute listed
    refine ⟨inferred, vars, ?_⟩
    rw [categories]
    exact declareAll_own distinct
      (List.mem_append_right _ (List.mem_map.mpr ⟨compute, listed, rfl⟩)) _

/-- The trees of a view, and of the obligations of its plan. -/
def viewTrees (view : ProcedureView) (plan : CoordinationPlan) : SpecExprs where
  computeTrees := view.computes.map fun compute => some compute.ast
  guardTrees := view.entries.map EntryView.guardAst
  obligationTrees := plan.obligations.map fun obligation => some obligation.when

theorem typeTrees_spec (inScope : Scoped view) (typed : ViewTyped env view)
    (categories : env = declareAll ∅ (specNames view)) (carried : Carried view plan) :
    typeTrees (specDocument sha256Hex text view plan) =
      .ok (viewTrees view plan) := by
  have same : view.entries.length = plan.effects.length := by
    simpa using congrArg List.length carried.actors
  have obligations : collect (typeWhen env)
      (((specDocument sha256Hex text view plan).getArray "obligations").getD []) =
        .ok (plan.obligations.map fun obligation => some obligation.when) := by
    have owed : ((specDocument sha256Hex text view plan).getArray "obligations").getD [] =
        plan.obligations.map obligationObject := by
      rw [Object.getArray, spec_obligations]
      by_cases none : plan.obligations = []
      · simp [none]
      · rw [if_neg none]
        rfl
    rw [owed]
    refine collect_written fun obligation listed => typeWhen_obligation ?_
    have raw : rawObligation obligation ∈ view.obligations.map obligationInput :=
      carried.obligations ▸ List.mem_map_of_mem listed
    obtain ⟨declared, inView, same⟩ := List.mem_map.mp raw
    obtain ⟨predicate, present, inferred⟩ := typed.obligations declared inView
    have whens : declared.whenAst = some obligation.when :=
      congrArg PlanObligationInput.when same
    cases present.symm.trans whens
    exact inferred
  rw [typeTrees, inputCategories_spec, spec_computes, Option.getD_some,
    typeComputes_spec inScope typed categories, ok_bind]
  dsimp only
  rw [spec_effects, Option.getD_some, typeWhen_effects same typed.guards, ok_bind, obligations,
    ok_bind]
  rfl

theorem typeSpecExprs_spec (inScope : Scoped view) (typed : ViewTyped env view)
    (categories : env = declareAll ∅ (specNames view)) (carried : Carried view plan) :
    typeSpecExprs (specDocument sha256Hex text view plan) =
      .ok (viewTrees view plan) := by
  have declared : each checkCompute ((view.computes.map fun compute =>
      objectOf (computeObject compute)).zip (view.computes.map fun compute =>
        some compute.ast)) = .ok () := by
    rw [List.zip_map']
    refine each_ok.mpr fun element listed => ?_
    obtain ⟨compute, own, rfl⟩ := List.mem_map.mp listed
    exact checkCompute_view (typed.computes compute own).2
  rw [typeSpecExprs, typeTrees_spec inScope typed categories carried, spec_computes]
  simp only [viewTrees, checkedExpr, Except.mapError, ok_bind, Option.getD_some, declared]
  rfl

theorem computesFromSpec_spec :
    computesFromSpec (specDocument sha256Hex text view plan)
      (view.computes.map fun (compute : ComputeView) => some compute.ast) =
        view.computes.map planCompute := by
  rw [computesFromSpec, spec_computes, Option.getD_some, List.zip_map', List.filterMap_map]
  simp only [Function.comp_def, asObject_objectOf, Option.map_some, List.filterMap_eq_map']
  refine List.map_congr_left fun compute _ => ?_
  rw [computeObject_deps, stringOr_ofMembers, stringOr_ofMembers, planCompute]
  simp [computeObject, Object.stringOr, Object.getString, Object.get_cons]

theorem obligationsFromSpec_spec (carried : Carried view plan) :
    obligationsFromSpec (specDocument sha256Hex text view plan)
      (plan.obligations.map fun obligation => some obligation.when) =
        .ok (view.obligations.map obligationInput) := by
  have versions : ∀ obligation ∈ plan.obligations,
      obligation.version = kObligationPlanVersion := by
    intro obligation listed
    have raw : rawObligation obligation ∈ view.obligations.map obligationInput :=
      carried.obligations ▸ List.mem_map_of_mem listed
    obtain ⟨declared, _, same⟩ := List.mem_map.mp raw
    exact (congrArg PlanObligationInput.version same).symm
  rw [obligationsFromSpec, spec_obligations]
  by_cases none : plan.obligations = []
  · rw [if_pos none, ← carried.obligations, none]
    rfl
  · rw [if_neg none]
    dsimp only [obligationsArray]
    rw [List.zip_map', ← carried.obligations]
    refine collect_written fun obligation listed => ?_
    rw [obligationFromSpec_obligation (versions obligation listed), rawObligation,
      versions obligation listed]

theorem effectsFromSpec_spec (typed : ViewTyped env view) (carried : Carried view plan) :
    effectsFromSpec (specDocument sha256Hex text view plan)
      (view.entries.map EntryView.guardAst) = .ok (view.entries.map effectInput) := by
  rw [effectsFromSpec, spec_effects]
  exact collect_effects carried.actors fun entry listed =>
    ⟨typed.guards entry listed, typed.unguarded entry listed, carried.keys entry listed⟩

theorem participantsFromSpec_spec (carried : Carried view plan) :
    participantsFromSpec (specDocument sha256Hex text view plan) = .ok plan.participants := by
  rw [participantsFromSpec, get_section (by decide)
    (show _ = some (participantsArray view plan) by simp [coreMembers, Object.get_cons])]
  refine collect_participants ?_
  rw [carried.participants]
  simp [planInputs]

theorem topologyFromSpec_spec :
    topologyFromSpec (specDocument sha256Hex text view plan) = .ok plan.allowedOrgPairs := by
  rw [topologyFromSpec, Object.getObject, get_section (by decide)
    (show _ = some (topologyObj plan) by simp [coreMembers, Object.get_cons])]
  simp only [Option.bind_some, topologyObj, asObject_objectOf, Object.get_ofMembers,
    Object.get_cons, if_true]
  rw [collect_written fun pair _ => orgPairFromSpec_pair pair, List.map_id']

theorem invariants_spec : ((specObjects (specDocument sha256Hex text view plan) "invariants").any
    fun invariant => invariant.stringOr "kind" = "balanced") = plan.balanced := by
  rw [specObjects, getArray_section (by decide)
    (show _ = some (invariantsArray plan) by simp [coreMembers, Object.get_cons])]
  cases plan.balanced <;>
    simp [Object.stringOr, Object.getString, Object.get_cons,
      Object.get_ofMembers]

/-- The raw inputs read off a spec are those of the procedure it was written for. -/
theorem inputsFromSpec_spec (inScope : Scoped view) (typed : ViewTyped env view)
    (categories : env = declareAll ∅ (specNames view)) (carried : Carried view plan) :
    inputsFromSpec (specDocument sha256Hex text view plan) = .ok (planInputs view) := by
  have inputs : (specObjects (specDocument sha256Hex text view plan) "inputs").map
      (fun input => (⟨input.stringOr "name", input.stringOr "type"⟩ : PlanInput)) =
        view.inputs.map fun input => ⟨input.1, input.2⟩ := by
    rw [spec_inputs, List.map_map]
    refine List.map_congr_left fun input _ => ?_
    simp [Object.stringOr, Object.getString, Object.get_cons,
      Object.get_ofMembers]
  have procedure : (specDocument sha256Hex text view plan).stringOr "procedure" = view.name := by
    rw [Object.stringOr, Object.getString, get_section (by decide)
      (show _ = some (.string view.name) by simp [coreMembers, Object.get_cons])]
    rfl
  have trigger : (specDocument sha256Hex text view plan).stringOr "trigger" =
      view.trigger.getD "" := by
    rw [Object.stringOr, Object.getString, get_section (by decide)
      (show _ = some ((view.trigger.map Json.string).getD .null) by
        simp [coreMembers, Object.get_cons])]
    cases view.trigger <;> rfl
  have initial : (Object.ofMembers (lifecycleMembers view)).stringOr "initialState" =
      (lifecycleModel view).initialState := by
    rw [stringOr_ofMembers]
    simp [lifecycleMembers, Object.stringOr, Object.getString, Object.get_cons]
  have contested := orNull_string (lifecycleModel view).contestedState
  have terminal : Object.stringOr [("success", .string (lifecycleModel view).successState),
      ("aborted", .string (lifecycleModel view).abortedState),
      ("contested", orNull (lifecycleModel view).contestedState)] "contested" =
        (lifecycleModel view).contestedState := by
    simp only [Object.stringOr, Object.getString, Object.get_cons]
    simpa using contested
  simp only [inputsFromSpec, typeSpecExprs_spec inScope typed categories carried, viewTrees,
    ok_bind, participantsFromSpec_spec carried, topologyFromSpec_spec, effectsFromSpec_spec typed carried,
    obligationsFromSpec_spec carried, specTransitions_spec, procedure, trigger, inputs,
    computesFromSpec_spec, attestationPolicies_spec typed.quorums, invariants_spec, spec_lifecycle,
    Option.getD_some, spec_terminal, initial, spec_states, spec_declared, stringOr_ofMembers,
    terminal, carried.participants, carried.pairs, carried.balanced]
  rfl

/-- A spec is planned as the procedure it was written for. -/
theorem planFromSpec_spec {parse : Bool → String → Except ExprError ExprNode} {proc : ProcedureOp}
    (accepted : proc.Accepted parse) (inScope : Scoped (viewOf proc))
    (normalized : normalizePlan (viewOf proc) = .ok plan) :
    planFromSpec (specDocument sha256Hex text (viewOf proc) plan) = .ok plan := by
  rw [planFromSpec, inputsFromSpec_spec inScope (viewTyped_of_accepted accepted)
    (procEnv_eq inScope) (carried_of_normalized normalized), ok_bind]
  exact normalized

end Whole

/-- The text of a verified procedure's spec is planned as the procedure itself. -/
theorem spec_round_trip (sha256Hex : List UInt8 → String) (text : Projection.JsonText)
    (indented : Json → String)
    (reads : ∀ json : Json, json.Printable → text.parse (indented json ++ "\n") = .ok json)
    {parse : Bool → String → Except ExprError ExprNode} {proc : ProcedureOp}
    {plan : CoordinationPlan} (accepted : proc.Accepted parse) (inScope : Scoped (viewOf proc))
    (normalized : normalizePlan (viewOf proc) = .ok plan) :
    ∃ spec, text.parse (capabilitySpecJson sha256Hex text indented (viewOf proc) plan) =
      .ok (.object spec) ∧ planFromSpec spec = .ok plan :=
  ⟨_, reads _ (printable_spec sha256Hex text (viewOf proc) plan),
    planFromSpec_spec accepted inScope normalized⟩

theorem transfer_scoped : Scoped (viewOf transfer) where
  distinct := by decide
  ordered := trivial

theorem transfer_round_trip : ∃ plan spec, normalizePlan (viewOf transfer) = .ok plan ∧
    squeezedText.parse (capabilitySpecJson HexText.hexText squeezedText Json.indented
      (viewOf transfer) plan) = .ok (.object spec) ∧ planFromSpec spec = .ok plan := by
  obtain ⟨plan, normalized⟩ := transfer_normalizes
  obtain ⟨spec, parsed, planned⟩ := spec_round_trip HexText.hexText squeezedText Json.indented
    (fun _ printable => squeezedText_reads printable) transfer_accepted transfer_scoped normalized
  exact ⟨plan, spec, normalized, parsed, planned⟩

end Neutrino
