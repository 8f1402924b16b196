import Neutrino.ParticipantViews
import Neutrino.SecurityVerdict
import Neutrino.TransitionProgress

/-! What a participant's view of an emitted spec lists is all that the participant's legs depend
on: invocations that agree on it resolve them alike. -/

namespace Neutrino.Views

open CapabilitySpec Checked Json

/-! The variables of a tree. -/

theorem mem_collectNodeVars {node : Object} (inner : node.getString "kind" ≠ some "var")
    {name : String} : name ∈ collectNodeVars node ↔
      (∃ lhs, node.get "lhs" = some lhs ∧ name ∈ collectAstVars lhs) ∨
      (∃ rhs, node.get "rhs" = some rhs ∧ name ∈ collectAstVars rhs) ∨
      ∃ args, node.getArray "args" = some args ∧ name ∈ collectAllAstVars args := by
  rw [collectNodeVars, if_neg inner, List.mem_append, List.mem_append, or_assoc]
  refine or_congr ?_ (or_congr ?_ ?_) <;> split <;> simp [*]

mutual

/-- The variables collected from a tree on the wire are the tree's own. -/
theorem mem_collectAstVars : (node : ExprNode) → {name : String} →
    (name ∈ collectAstVars (exprToJson node) ↔ name ∈ exprVarsFrom node [])
  | .num value dtype, name => by
      rw [exprToJson, collectAstVars, mem_collectNodeVars]
      · simp [Object.getArray, Object.get_cons, exprVarsFrom]
      · simp [Object.getString, Object.get_cons]
  | .var symbol dtype, name => by
      have inner : Object.getString [("dtype", .string (categoryName dtype)),
          ("kind", .string "var"), ("name", .string symbol)] "kind" = some "var" := by
        simp [Object.getString, Object.get_cons]
      rw [exprToJson, collectAstVars, collectNodeVars, if_pos inner]
      simp [Object.getString, Object.stringOr, Object.get_cons, exprVarsFrom]
  | .bin op lhs rhs dtype, name => by
      rw [exprToJson, collectAstVars, mem_collectNodeVars, exprVarsFrom, mem_exprVarsFrom,
        ← mem_collectAstVars lhs, ← mem_collectAstVars rhs]
      · simp [Object.getArray, Object.get_cons]
      · simp [Object.getString, Object.get_cons]
  | .cmp op lhs rhs dtype, name => by
      rw [exprToJson, collectAstVars, mem_collectNodeVars, exprVarsFrom, mem_exprVarsFrom,
        ← mem_collectAstVars lhs, ← mem_collectAstVars rhs]
      · simp [Object.getArray, Object.get_cons]
      · simp [Object.getString, Object.get_cons]
  | .call callee args dtype, name => by
      rw [exprToJson, collectAstVars, mem_collectNodeVars, exprVarsFrom,
        ← mem_collectAllAstVars args]
      · simp [Object.getArray, Object.get_cons, asArray]
      · simp [Object.getString, Object.get_cons]

theorem mem_collectAllAstVars : (args : List ExprNode) → {name : String} →
    (name ∈ collectAllAstVars (exprsToJson args) ↔ name ∈ exprVarsFromAll args [])
  | [], name => by
      rw [exprsToJson, collectAllAstVars]
      simp [exprVarsFromAll]
  | arg :: rest, name => by
      rw [exprsToJson, collectAllAstVars, exprVarsFromAll, mem_exprVarsFromAll, List.mem_append,
        mem_collectAstVars arg, mem_collectAllAstVars rest]

end

/-! Dependencies. -/

/-- The compute leads to its dependencies, an input nowhere. -/
def LeadsTo (view : ProcedureView) (name next : String) : Prop :=
  name ∉ view.inputs.map (·.1) ∧ ∃ compute ∈ view.computes, compute.name = name ∧
    next ∈ compute.deps

def Depends (view : ProcedureView) : String → String → Prop := Relation.ReflTransGen (LeadsTo view)

theorem depsOf_found {computes : List (String × List String)} {name next : String}
    (reached : next ∈ depsOf computes name) :
    ∃ compute ∈ computes, compute.1 = name ∧ next ∈ compute.2 := by
  rw [depsOf] at reached
  cases found : computes.reverse.find? fun compute => compute.1 = name with
  | none => simp [found] at reached
  | some compute =>
      exact ⟨compute, List.mem_reverse.mp (List.mem_of_find?_eq_some found),
        by simpa using List.find?_some found, by simpa [found] using reached⟩

theorem depsOf_own {computes : List (String × List String)}
    (distinct : (computes.map Prod.fst).Nodup) {compute : String × List String}
    (listed : compute ∈ computes) : depsOf computes compute.1 = compute.2 := by
  rw [depsOf]
  cases found : computes.reverse.find? fun other => other.1 = compute.1 with
  | none =>
      have absent := List.find?_eq_none.mp found compute (List.mem_reverse.mpr listed)
      simp at absent
  | some other =>
      have named : other.1 = compute.1 := by simpa using List.find?_some found
      have placed := List.mem_reverse.mp (List.mem_of_find?_eq_some found)
      rw [List.inj_on_of_nodup_map distinct placed listed named]
      rfl

theorem leadsTo_iff {view : ProcedureView} (distinct : (view.computes.map (·.name)).Nodup)
    {name next : String} :
    next ∈ leadsTo (view.inputs.map (·.1)) (view.computes.map fun compute =>
      (compute.name, compute.deps)) name ↔ LeadsTo view name next := by
  rw [leadsTo, LeadsTo]
  split_ifs with input
  · simp [input]
  · simp only [input, not_false_eq_true, true_and]
    constructor
    · intro reached
      obtain ⟨_, placed, named, follows⟩ := depsOf_found reached
      obtain ⟨compute, listed, rfl⟩ := List.mem_map.mp placed
      exact ⟨compute, listed, named, follows⟩
    · rintro ⟨compute, listed, rfl, follows⟩
      have own := @depsOf_own (view.computes.map fun compute => (compute.name, compute.deps))
        (by simpa [Function.comp_def] using distinct) (compute.name, compute.deps)
        (List.mem_map.mpr ⟨compute, listed, rfl⟩)
      exact own ▸ follows

theorem mem_reachableInputs {inputNames : List String} {computes : List (String × List String)}
    {seeds : List String} {name : String} : name ∈ reachableInputs inputNames computes seeds ↔
      name ∈ inputNames ∧ ∃ seed ∈ seeds, Relation.ReflTransGen
        (fun node next => next ∈ leadsTo inputNames computes node) seed name := by
  have inside : ∀ node, leadsTo inputNames computes node ≠ [] →
      node ∈ (computes.map Prod.fst).dedup := by
    intro node leads
    rw [leadsTo] at leads
    split_ifs at leads with input
    · exact absurd rfl leads
    · obtain ⟨next, reached⟩ := List.exists_mem_of_ne_nil _ leads
      obtain ⟨compute, listed, rfl, _⟩ := depsOf_found reached
      exact List.mem_dedup.mpr (List.mem_map_of_mem listed)
  obtain ⟨done, kept, sound⟩ := Reach.search_spec inside _ seeds.reverse []
    (by simp [Reach.Closed]) (Nat.le_of_eq (by rw [List.length_reverse]))
  rw [reachableInputs, List.mem_filter, and_comm, decide_eq_true_iff]
  refine and_congr Iff.rfl ⟨fun listed => ?_, ?_⟩
  · simpa using sound name listed
  · rintro ⟨seed, listed, path⟩
    induction path with
    | refl => exact kept seed (.inr (List.mem_reverse.mpr listed))
    | tail _ follows ih => exact (done _ ih _ follows).resolve_right List.not_mem_nil

/-! The emitted spec as the generator reads it. -/

section Spec

variable {sha256Hex : List UInt8 → String} {text : Projection.JsonText} {view : ProcedureView}
  {plan : CoordinationPlan}

theorem obj_objectOf (members : List (String × Json)) (what : String) :
    obj (some (objectOf members)) what = .ok (Object.ofMembers members) := rfl

/-- Objects that were written element by element are read element by element. -/
theorem objects_written {α : Type} (elements : List α) (members : α → List (String × Json))
    (what : String) : objects (elements.map fun element => objectOf (members element)) what =
      .ok (elements.map fun element => Object.ofMembers (members element)) := by
  rw [objects]
  exact collect_written fun element _ => obj_objectOf (members element) what

theorem mem_sourceEntries {α : Type} {section' : String} {describe : α → String}
    {constructs : List α} {lines : List Nat} {entry : Json}
    (listed : entry ∈ sourceEntries section' describe constructs lines) :
    ∃ path construct line, entry = CapabilitySpec.sourceEntry path construct line := by
  obtain ⟨construct, _, rfl⟩ := List.mem_map.mp listed
  exact ⟨_, _, _, rfl⟩

theorem mem_sourceMap {entry : Json}
    (listed : entry ∈ ((sourceMapArray view).asArray).getD []) :
    ∃ path construct line, entry = CapabilitySpec.sourceEntry path construct line := by
  simp only [sourceMapArray, asArray, Option.getD_some, List.mem_append] at listed
  rcases listed with ((((listed | listed) | listed) | listed) | listed) | listed
  · exact mem_sourceEntries listed
  · exact mem_sourceEntries listed
  · exact mem_sourceEntries listed
  · exact mem_sourceEntries listed
  · exact mem_sourceEntries listed
  · split at listed
    · exact ⟨_, _, _, List.mem_singleton.mp listed⟩
    · cases listed

theorem spec_identity : ∃ identity, obj ((specDocument sha256Hex text view plan).get "identity")
    "identity" = .ok identity := by
  rw [specDocument, Object.get_put]
  exact ⟨_, rfl⟩

theorem spec_sourceMap : ∃ entries, objects (((specDocument sha256Hex text view plan).getArray
    "sourceMap").getD []) "sourceMap entry" = .ok entries := by
  have placed : (specDocument sha256Hex text view plan).get "sourceMap" =
      some (sourceMapArray view) := by
    rw [specDocument, Security.get_put_of_ne _ _ (by decide), specBody,
      Security.get_put_of_ne _ _ (by decide), Object.get_put]
  rw [Object.getArray, placed]
  refine collect_exists fun entry listed => ?_
  obtain ⟨path, construct, line, rfl⟩ := mem_sourceMap listed
  exact ⟨_, rfl⟩

/-- What every view reads once, of a spec that was emitted. -/
theorem specViews_spec : ∃ views, specViews (specDocument sha256Hex text view plan) = .ok views ∧
    views.inputs.map (fun input => input.stringOr "name") = view.inputs.map (·.1) ∧
    views.computes = view.computes.map (fun compute => (compute.name, compute.deps)) ∧
    views.effects = List.zipWith (effectObject plan.workflowKey) view.entries plan.effects ∧
    views.pairs = some (plan.allowedOrgPairs.map fun pair =>
      objectOf [("orgA", .string pair.orgA), ("orgB", .string pair.orgB),
        ("roleA", .string pair.roleA), ("roleB", .string pair.roleB)]) := by
  obtain ⟨identity, isIdentity⟩ := @spec_identity sha256Hex text view plan
  obtain ⟨entries, isEntries⟩ := @spec_sourceMap sha256Hex text view plan
  have lifecycle : obj ((specDocument sha256Hex text view plan).get "lifecycle") "lifecycle" =
      .ok (Object.ofMembers (lifecycleMembers view)) := by
    have placed := @spec_lifecycle sha256Hex text view plan
    rw [Object.getObject] at placed
    rw [obj, placed]
  have transitions : arrOf (Object.ofMembers (lifecycleMembers view)) "transitions" =
      .ok ((lifecycleModel view).transitions.map transitionObject) := by
    rw [arrOf, getArray_ofMembers, Object.getArray]
    simp [lifecycleMembers, Object.get_cons, asArray]
  have operations : ∃ named, objects ((lifecycleModel view).transitions.map transitionObject)
      "transition" = .ok named := ⟨_, objects_written _ _ _⟩
  obtain ⟨operations, isOperations⟩ := operations
  have inputs : arrOf (specDocument sha256Hex text view plan) "inputs" =
      .ok (view.inputs.map fun input => objectOf [("name", .string input.1),
        ("type", .string input.2), ("category", .string (categoryOf input.2))]) := by
    rw [arrOf, getArray_section (by decide)
      (show _ = some (inputsArray view) by simp [coreMembers, Object.get_cons])]
  have computes : arrOf (specDocument sha256Hex text view plan) "computes" =
      .ok (view.computes.map fun compute => objectOf (computeObject compute)) := by
    rw [arrOf, spec_computes]
  have effects : arrOf (specDocument sha256Hex text view plan) "effects" =
      .ok (List.zipWith (effectObject plan.workflowKey) view.entries plan.effects) := by
    rw [arrOf, spec_effects]
  refine ⟨_, by
    simp only [specViews, isIdentity, lifecycle, transitions, isOperations, isEntries, inputs,
      computes, effects, objects_written, ok_bind]
    rfl, ?_, ?_, rfl, ?_⟩
  · simp only [List.map_map]
    refine List.map_congr_left fun input _ => ?_
    simp [Object.stringOr, Object.getString, Object.get_cons,
      Object.get_ofMembers]
  · simp only [List.map_map]
    refine List.map_congr_left fun compute _ => ?_
    simp only [Function.comp_apply, computeDeps, stringOr_ofMembers, getArray_ofMembers]
    simp [computeObject, Object.stringOr, Object.getString, Object.getArray,
      Object.get_cons, strings, asArray, Function.comp_def]
  · rw [Object.getObject, get_section (by decide)
      (show _ = some (topologyObj plan) by simp [coreMembers, Object.get_cons])]
    simp [topologyObj, Object.get_cons, Object.getArray, Object.get_ofMembers,
      asArray]

/-! Legs. -/

/-- The name a reference reads; none for a literal. -/
def refText (ref : Ref) : String := if ref.isLit then "" else ref.text

/-- What a leg reads: its operands, the workflow key, and the variables of its guard. -/
def entryRefs (key : String) (entry : EntryView) : List String :=
  [refText entry.party, refText entry.amount, refText entry.currency, key] ++
    (entry.guardAst.map fun guard => collectAstVars (exprToJson guard)).getD []

variable {key : String} {entry : EntryView} {effect : PlanEffect}

theorem refName_operand {field : String} {ref : Ref}
    (placed : Object.get (fixedMembers key entry effect) field =
      some (CapabilitySpec.operand ref)) :
    refName (Object.ofMembers (effectMembers key entry effect)) field = .ok (refText ref) := by
  rw [refName, Object.get_ofMembers, get_fixed placed, CapabilitySpec.operand, obj_objectOf,
    ok_bind, refText]
  cases ref.isLit <;>
    simp [Object.getString, Object.get_cons, Object.get_ofMembers,
      Object.stringOr, pure, Except.pure]

theorem legRefs_effect : legRefs (Object.ofMembers (effectMembers key entry effect)) =
    .ok (entryRefs key entry) := by
  have guarded : Object.get (effectMembers key entry effect) "when" =
      entry.guardAst.map fun guard => objectOf [("expr", .string entry.guard),
        ("ast", exprToJson guard)] := by
    rw [effectMembers, get_append, get_append]
    cases entry.guardAst <;> by_cases memo : entry.memo = "" <;>
      simp [fixedMembers, Object.get_cons, memo]
  simp only [legRefs, @refName_operand key entry effect "party" _ rfl,
    @refName_operand key entry effect "amount" _ rfl,
    @refName_operand key entry effect "currency" _ rfl,
    @refName_operand key entry effect "idempotencyKey" _ rfl, ok_bind, Object.get_ofMembers,
    guarded]
  cases guard : entry.guardAst with
  | none => simp [entryRefs, guard, refText, pure, Except.pure]
  | some ast =>
      simp [entryRefs, guard, refText, obj_objectOf, Except.map, ok_bind, pure, Except.pure,
        Object.get_ofMembers, Object.get_cons]

/-- An effect is a leg of its own participant only. -/
theorem ownLeg_effect (name : String) (index : Nat) :
    ownLeg name (effectObject key entry effect, index) = .ok (if effect.participant = name then
      some ⟨index, Object.ofMembers (effectMembers key entry effect), entryRefs key entry⟩
      else none) := by
  have actor : ((Object.ofMembers (effectMembers key entry effect)).getString
      "participant").getD "" = effect.participant := by
    rw [Object.getString, Object.get_ofMembers,
      @get_fixed key entry effect "participant" (orNull effect.participant)
        (by simp [fixedMembers, Object.get_cons])]
    exact orNull_string effect.participant
  rw [ownLeg, effectObject_members, obj_objectOf, ok_bind, actor]
  split_ifs
  · rw [legRefs_effect]
    rfl
  · rfl

/-- The input is one that a leg of the participant depends on. -/
def Needs (view : ProcedureView) (plan : CoordinationPlan) (name input : String) : Prop :=
  input ∈ view.inputs.map (·.1) ∧ ∃ (index : Nat) (entry : EntryView) (effect : PlanEffect),
    view.entries[index]? = some entry ∧ plan.effects[index]? = some effect ∧
      effect.participant = name ∧
      ∃ ref ∈ entryRefs plan.workflowKey entry, ref ≠ "" ∧ Depends view ref input

theorem mem_effects_written {element : Json × Nat} :
    element ∈ (List.zipWith (effectObject plan.workflowKey) view.entries plan.effects).zipIdx ↔
      ∃ entry effect, view.entries[element.2]? = some entry ∧
        plan.effects[element.2]? = some effect ∧
        element.1 = effectObject plan.workflowKey entry effect := by
  rw [List.mem_zipIdx_iff_getElem?, List.getElem?_zipWith]
  cases view.entries[element.2]? <;> cases plan.effects[element.2]? <;> simp [eq_comm]

/-- The legs of a participant, found in the effects of the spec. -/
theorem legs_spec (name : String) : ∃ found, collect (ownLeg name)
      (List.zipWith (effectObject plan.workflowKey) view.entries plan.effects).zipIdx = .ok found ∧
    ∀ ref, ref ∈ found.reduceOption.flatMap ViewLeg.refs ↔
      ∃ (index : Nat) (entry : EntryView) (effect : PlanEffect),
        view.entries[index]? = some entry ∧ plan.effects[index]? = some effect ∧
          effect.participant = name ∧ ref ∈ entryRefs plan.workflowKey entry := by
  obtain ⟨found, collected⟩ := @collect_exists _ _ _ (ownLeg name)
    (List.zipWith (effectObject plan.workflowKey) view.entries plan.effects).zipIdx (by
      rintro ⟨element, index⟩ listed
      obtain ⟨entry, effect, _, _, rfl⟩ := mem_effects_written.mp listed
      exact ⟨_, ownLeg_effect name index⟩)
  refine ⟨found, collected, fun ref => ?_⟩
  rw [List.mem_flatMap]
  constructor
  · rintro ⟨leg, kept, read⟩
    obtain ⟨⟨element, index⟩, listed, own⟩ :=
      collect_mem_result collected (List.reduceOption_mem_iff.mp kept)
    obtain ⟨entry, effect, isEntry, isEffect, rfl⟩ := mem_effects_written.mp listed
    rw [ownLeg_effect] at own
    split_ifs at own with actor
    · cases own
      exact ⟨index, entry, effect, isEntry, isEffect, actor, read⟩
    · cases own
  · rintro ⟨index, entry, effect, isEntry, isEffect, actor, read⟩
    obtain ⟨leg, kept, own⟩ := collect_mem collected
      (mem_effects_written.mpr ⟨entry, effect, isEntry, isEffect, rfl⟩ :
        (effectObject plan.workflowKey entry effect, index) ∈ _)
    rw [ownLeg_effect, if_pos actor] at own
    cases own
    exact ⟨_, List.reduceOption_mem_iff.mpr kept, read⟩

theorem mem_requiredInputs {views : SpecViews} {needed : List String} {name : String} :
    name ∈ (requiredInputs views needed).map RequiredInput.name ↔
      name ∈ views.inputs.map (fun input => input.stringOr "name") ∧ name ∈ needed := by
  simp only [requiredInputs, List.map_map, List.mem_map, List.mem_filter, decide_eq_true_iff,
    Function.comp_apply]
  constructor
  · rintro ⟨⟨input, index⟩, ⟨listed, own⟩, rfl⟩
    exact ⟨⟨input, List.fst_mem_of_mem_zipIdx listed, rfl⟩, own⟩
  · rintro ⟨⟨input, listed, rfl⟩, own⟩
    obtain ⟨index, placed⟩ := List.getElem?_of_mem listed
    exact ⟨(input, index), ⟨List.mem_zipIdx_iff_getElem?.mpr placed, own⟩, rfl⟩

/-- A participant's view lists the inputs that the participant's legs depend on. -/
theorem participantView_spec {views : SpecViews}
    (distinct : (view.computes.map (·.name)).Nodup)
    (inputs : views.inputs.map (fun input => input.stringOr "name") = view.inputs.map (·.1))
    (computes : views.computes = view.computes.map fun compute => (compute.name, compute.deps))
    (effects : views.effects =
      List.zipWith (effectObject plan.workflowKey) view.entries plan.effects)
    (pairs : views.pairs = some (plan.allowedOrgPairs.map fun pair =>
      objectOf [("orgA", .string pair.orgA), ("orgB", .string pair.orgB),
        ("roleA", .string pair.roleA), ("roleB", .string pair.roleB)]))
    (participant : Object) : ∃ shown, participantView views participant = .ok shown ∧
      shown.name = participant.stringOr "name" ∧
      ∀ name, name ∈ shown.requiredInputs.map RequiredInput.name ↔
        Needs view plan shown.name name := by
  obtain ⟨found, collected, legs⟩ := @legs_spec view plan (participant.stringOr "name")
  obtain ⟨policy, isPolicy⟩ : ∃ policy,
      policyOf views (participant.stringOr "org") = .ok policy := by
    unfold policyOf
    split_ifs
    · exact ⟨_, rfl⟩
    · rw [pairs, Option.getD_some, objects_written]
      exact ⟨_, rfl⟩
  refine ⟨_, by
    simp only [participantView, effects, collected, isPolicy, ok_bind]
    rfl, rfl, fun name => ?_⟩
  rw [mem_requiredInputs, inputs, computes, mem_reachableInputs]
  simp only [Needs, and_self_left, leadsTo_iff distinct]
  refine and_congr Iff.rfl ?_
  have seeds : ∀ ref, ref ∈ FirstBy.firstBy id
      ((found.reduceOption.flatMap ViewLeg.refs).filter fun ref => ref ≠ "") ↔
        ref ∈ found.reduceOption.flatMap ViewLeg.refs ∧ ref ≠ "" := by
    intro ref
    have kept := @FirstBy.mem_map_firstBy _ _ _ (id : String → String)
      ((found.reduceOption.flatMap ViewLeg.refs).filter fun ref => ref ≠ "") ref
    rw [List.map_id, List.map_id, List.mem_filter, decide_eq_true_iff] at kept
    exact kept
  simp only [seeds, legs]
  constructor
  · rintro ⟨seed, ⟨⟨index, entry, effect, isEntry, isEffect, actor, read⟩, some⟩, path⟩
    exact ⟨index, entry, effect, isEntry, isEffect, actor, seed, read, some, path⟩
  · rintro ⟨index, entry, effect, isEntry, isEffect, actor, seed, read, some, path⟩
    exact ⟨seed, ⟨⟨index, entry, effect, isEntry, isEffect, actor, read⟩, some⟩, path⟩

end Spec

/-! Two invocations. -/

/-- A fold over closed names agrees on them. -/
theorem foldComputes_closed {known : String → Prop} {computes : List ComputeView}
    {env other last last' : Env}
    (closed : ∀ compute ∈ computes, known compute.name → ∀ name ∈ exprReads compute.ast,
      known name)
    (agree : ∀ name, known name → env[name]? = other[name]?)
    (folded : (foldComputes (computes.map planCompute) env).value = .ok last)
    (folded' : (foldComputes (computes.map planCompute) other).value = .ok last') :
    ∀ name, known name → last[name]? = last'[name]? := by
  induction computes generalizing env other with
  | nil =>
      cases folded
      cases folded'
      exact agree
  | cons compute rest ih =>
      obtain ⟨here, later⟩ := List.forall_mem_cons.mp closed
      simp only [List.map_cons, foldComputes, Traced.bind_ok, Traced.ofExcept_value,
        Traced.observe_value] at folded folded'
      obtain ⟨value, computed, _, _, folded⟩ := folded
      obtain ⟨value', computed', _, _, folded'⟩ := folded'
      refine ih later (fun name listed => ?_) folded folded'
      rw [Std.ExtTreeMap.getElem?_insert, Std.ExtTreeMap.getElem?_insert]
      split
      · rename_i same
        have own : compute.name = name := compare_eq_iff_eq.mp same
        have alike : computeValue env (planCompute compute) =
            computeValue other (planCompute compute) := by
          have agrees := evalExpr_agrees fun read reads =>
            Lookup.Alike.strict (agree read (here (own ▸ listed) read reads))
          simp only [computeValue, planCompute, agrees.eq fun _ => id]
        rw [computed, computed'] at alike
        rw [Except.ok.inj alike]
      · exact agree name listed

/-- Invocations that the participant cannot tell apart by the inputs of its view. -/
structure Indistinct (shown : View) (view : ProcedureView) (input other : TransitionInput) :
    Prop where
  required : ∀ name ∈ shown.requiredInputs.map RequiredInput.name,
    input.numeric[name]? = other.numeric[name]? ∧ input.symbols[name]? = other.symbols[name]?
  undeclared : ∀ name ∉ view.inputs.map (·.1),
    input.numeric[name]? = other.numeric[name]? ∧ input.symbols[name]? = other.symbols[name]?
  verdicts : input.attestations = other.attestations

section Leg

variable {parse : Bool → String → Except ExprError ExprNode} {proc : ProcedureOp}
  {plan : CoordinationPlan} {shown : View} {input other : TransitionInput} {env env' : Env}

/-- An undeclared name, or one that the entry depends on. -/
def Followed (view : ProcedureView) (key : String) (entry : EntryView) (name : String) : Prop :=
  (name ∉ view.inputs.map (·.1) ∧ name ∉ view.computes.map (·.name)) ∨
    ∃ ref ∈ entryRefs key entry, ref ≠ "" ∧ Depends view ref name

theorem followed_ref {view : ProcedureView} {key ref : String} {entry : EntryView}
    (named : "" ∉ view.inputs.map (·.1) ++ view.computes.map (·.name))
    (read : ref ∈ entryRefs key entry) : Followed view key entry ref := by
  rw [List.mem_append, not_or] at named
  by_cases empty : ref = ""
  · exact .inl (empty ▸ named)
  · exact .inr ⟨ref, read, empty, .refl⟩

/-- The inputs of a view decide all that its participant's leg reads. -/
theorem followed_agree {index : Nat} {entry : EntryView} {effect : PlanEffect}
    (lists : ∀ name, name ∈ shown.requiredInputs.map RequiredInput.name ↔
      Needs (viewOf proc) plan shown.name name)
    (indistinct : Indistinct shown (viewOf proc) input other)
    (isEntry : (viewOf proc).entries[index]? = some entry)
    (isEffect : plan.effects[index]? = some effect) (actor : effect.participant = shown.name)
    {name : String} (followed : Followed (viewOf proc) plan.workflowKey entry name) :
    input.numeric[name]? = other.numeric[name]? ∧ input.symbols[name]? = other.symbols[name]? := by
  by_cases declared : name ∈ (viewOf proc).inputs.map (·.1)
  · rcases followed with undeclared | ⟨ref, read, some, path⟩
    · exact absurd declared undeclared.1
    · exact indistinct.required name ((lists name).mpr
        ⟨declared, index, entry, effect, isEntry, isEffect, actor, ref, read, some, path⟩)
  · exact indistinct.undeclared name declared

theorem followed_closed (typed : ViewTyped (procEnv proc) (viewOf proc))
    (inScope : Scoped (viewOf proc)) {key : String} {entry : EntryView} :
    ∀ compute ∈ (viewOf proc).computes, Followed (viewOf proc) key entry compute.name →
      ∀ name ∈ exprReads compute.ast, Followed (viewOf proc) key entry name := by
  intro compute listed followed name read
  have apart := List.nodup_append.mp inScope.distinct
  have named : compute.name ∈ (viewOf proc).computes.map (·.name) := List.mem_map_of_mem listed
  have follows : LeadsTo (viewOf proc) compute.name name :=
    ⟨fun input => apart.2.2 _ input _ named rfl, compute, listed, rfl,
      ((typed.computes compute listed).2 name).mp (exprReads_subset compute.ast [] read)⟩
  rcases followed with undeclared | ⟨ref, reads, some, path⟩
  · exact absurd named undeclared.2
  · exact .inr ⟨ref, reads, some, path.tail follows⟩

theorem evidence_declared {view : ProcedureView} {input : String} {category dtype : ValueCategory}
    {inferred : ExprNode}
    (typed : typeGuard (declareAll ∅ (specNames view))
      (.call "accepted" [.var input category] dtype) = .ok inferred) :
    input ∈ view.inputs.map (·.1) ++ view.computes.map (·.name) := by
  by_contra absent
  rw [← specNames_fst] at absent
  have unknown : (declareAll ∅ (specNames view))[input]? = none :=
    (declareAll_other absent ∅).trans (by simp)
  simp [typeGuard, unknown] at typed

variable (accepted : proc.Accepted parse) (inScope : Scoped (viewOf proc))
  (named : "" ∉ (viewOf proc).inputs.map (·.1) ++ (viewOf proc).computes.map (·.name))
  (assembled : Assembled (planInputs (viewOf proc)) plan)

include accepted inScope named assembled

/-- The flag that an `accepted` guard reads is the flag of a declared policy. -/
theorem accepted_flag {entry : EntryView} (listed : entry ∈ (viewOf proc).entries)
    {policy : String} {category dtype : ValueCategory}
    (guarded : entry.guardAst = some (.call "accepted" [.var policy category] dtype)) :
    IsFlag plan ("accepted:" ++ policy) := by
  have inferred := ((viewTyped_of_accepted accepted).guards entry listed _ guarded).inferred
  rw [procEnv_eq inScope] at inferred
  have some : policy ≠ "" := by
    rintro rfl
    exact named (evidence_declared inferred)
  have raw : effectInput entry ∈ (planInputs (viewOf proc)).effects := List.mem_map_of_mem listed
  have bindable := (collect_bindEffect_ok.mp assembled.bound).2 _ raw
  have gate : (effectInput entry).guardAcceptedInput = policy := by
    simp [effectInput, guarded, acceptedInput]
  obtain ⟨declared, own, same⟩ := bindable.policy.resolve_left (gate.symm ▸ some)
  have policies : plan.attestations = (planInputs (viewOf proc)).attestations :=
    assembled.attestations
  exact ⟨declared, policies ▸ own, by rw [same, gate]⟩

/-- Every name that a guard looks up is followed, or the flag of a policy. -/
theorem guard_followed {entry : EntryView} (listed : entry ∈ (viewOf proc).entries)
    {guard : ExprNode} (guarded : entry.guardAst = some guard) {name : String}
    (reads : name ∈ guardReads guard) :
    IsFlag plan name ∨ Followed (viewOf proc) plan.workflowKey entry name := by
  cases guard_shape accepted.verified listed guarded with
  | accepted policy category dtype =>
      cases List.mem_singleton.mp reads
      exact .inl (accepted_flag accepted inScope named assembled listed guarded)
  | @compares op lhs rhs left right known dtype =>
      refine .inr (followed_ref named ?_)
      have inner : name ∈ exprVarsFrom (.cmp op lhs rhs dtype) [] := by
        rw [exprVarsFrom]
        rcases List.mem_append.mp reads with here | here
        · exact subset_exprVarsFrom rhs _ (exprReads_subset lhs [] here)
        · exact exprReads_subset rhs _ here
      simp [entryRefs, guarded, mem_collectAstVars, inner]

theorem leg_agrees (lists : ∀ name, name ∈ shown.requiredInputs.map RequiredInput.name ↔
      Needs (viewOf proc) plan shown.name name)
    (indistinct : Indistinct shown (viewOf proc) input other)
    (opened : (transitionEnv plan input).value = .ok env)
    (opened' : (transitionEnv plan other).value = .ok env') {effect : PlanEffect}
    (listed : effect ∈ plan.effects) (actor : effect.participant = shown.name) :
    workflowKeyValue plan input = workflowKeyValue plan other ∧
      effect.guard.map (fun guard => evalGuard guard env) =
        effect.guard.map (fun guard => evalGuard guard env') ∧
      resolvePosting env input.symbols effect = resolvePosting env' other.symbols effect := by
  obtain ⟨raw, isRaw, same⟩ := assembled.exists_raw listed
  have isEffect := assembled.getElem?_index listed
  obtain ⟨entry, isEntry, rfl⟩ : ∃ entry, (viewOf proc).entries[effect.index]? = some entry ∧
      effectInput entry = raw := by
    rw [← Option.map_eq_some_iff, ← List.getElem?_map]
    exact isRaw
  have typed := viewTyped_of_accepted accepted
  have agree : ∀ name, Followed (viewOf proc) plan.workflowKey entry name →
      input.numeric[name]? = other.numeric[name]? ∧ input.symbols[name]? = other.symbols[name]? :=
    fun name => followed_agree lists indistinct isEntry isEffect actor
  have computes : plan.computes = (viewOf proc).computes.map planCompute := assembled.computes
  simp only [transitionEnv, computes, Traced.bind_ok, Traced.pure_value, Except.ok.injEq]
    at opened opened'
  obtain ⟨last, folded, rfl⟩ := opened
  obtain ⟨last', folded', rfl⟩ := opened'
  have computed := foldComputes_closed (followed_closed typed inScope)
    (fun name followed => (agree name followed).1) folded folded'
  have bound : ∀ name, IsFlag plan name ∨ Followed (viewOf proc) plan.workflowKey entry name →
      (seedAcceptance plan input last)[name]? = (seedAcceptance plan other last')[name]? := by
    intro name known
    by_cases flag : IsFlag plan name
    · obtain ⟨policy, declared, rfl⟩ := flag
      rw [seedAcceptance_flag _ _ declared, seedAcceptance_flag _ _ declared, policyAccepted,
        policyAccepted, indistinct.verdicts]
    · rw [seedAcceptance_other _ _ flag, seedAcceptance_other _ _ flag]
      exact computed name (known.resolve_left flag)
  have operands : ∀ ref : Ref, refText ref ∈ entryRefs plan.workflowKey entry →
      ∀ name ∈ operandReads ref.operandKey, Followed (viewOf proc) plan.workflowKey entry name := by
    intro ref read name reads
    rw [operandReads, splitOperand_ref] at reads
    obtain ⟨literal, text⟩ := ref
    cases literal with
    | true => cases reads
    | false =>
        have same : name = text := List.mem_singleton.mp reads
        exact same ▸ followed_ref named read
  refine ⟨?_, ?_, ?_⟩
  · have key := agree plan.workflowKey (followed_ref named (by simp [entryRefs]))
    rw [workflowKeyValue, workflowKeyValue, key.1, key.2]
  · have own : effect.guard = entry.guardAst := by
      rw [same]
      rfl
    rw [own]
    cases guarded : entry.guardAst with
    | none => rfl
    | some guard =>
        rw [Option.map_some, Option.map_some, evalGuard_congr fun name reads =>
          bound name (guard_followed accepted inScope named assembled
            (List.mem_of_getElem? isEntry) guarded reads)]
  · rw [same]
    refine resolvePosting_congr (fun name reads => ?_) (fun name reads => ?_) fun name reads => ?_
    · exact bound name (.inr (operands entry.amount (by simp [entryRefs]) name reads))
    · exact (agree name (operands entry.party (by simp [entryRefs]) name reads)).2
    · exact (agree name (operands entry.currency (by simp [entryRefs]) name reads)).2

end Leg

theorem arrOf_participants {sha256Hex : List UInt8 → String} {text : Projection.JsonText}
    {view : ProcedureView} {plan : CoordinationPlan} :
    arrOf (specDocument sha256Hex text view plan) "participants" =
      .ok (((participantsArray view plan).asArray).getD []) := by
  rw [arrOf, getArray_section (by decide)
    (show _ = some (participantsArray view plan) by simp [coreMembers, Object.get_cons])]
  rfl

/-- One view for each participant, of its name. -/
theorem collect_views {read : SpecViews} {holds : View → Prop}
    (shows : ∀ participant : Object, ∃ shown, participantView read participant = .ok shown ∧
      shown.name = participant.stringOr "name" ∧ holds shown) :
    {participants : List PlanParticipant} → {realizations : List ParticipantView} →
    participants.length = realizations.length → ∃ views,
      collect (fun participant => obj (some participant) "participant" >>= participantView read)
        (List.zipWith (fun (participant : PlanParticipant) (realization : ParticipantView) =>
          objectOf (participantMembers participant realization)) participants realizations) =
        .ok views ∧
      views.map View.name = participants.map PlanParticipant.name ∧ ∀ shown ∈ views, holds shown
  | [], [], _ => ⟨[], rfl, rfl, by simp⟩
  | participant :: participants, realization :: realizations, same => by
      obtain ⟨shown, isShown, own, held⟩ := shows (Object.ofMembers
        (participantMembers participant realization))
      obtain ⟨views, collected, names, all⟩ :=
        collect_views shows (show participants.length = realizations.length by simpa using same)
      refine ⟨shown :: views, ?_, ?_, List.forall_mem_cons.mpr ⟨held, all⟩⟩
      · rw [List.zipWith_cons_cons, collect, obj_objectOf, ok_bind, isShown, ok_bind, collected]
        rfl
      · rw [List.map_cons, List.map_cons, names, own, stringOr_ofMembers]
        rfl

/-- The views of an emitted spec: one for each participant, which lists exactly what the
participant's legs depend on, and decides how they resolve. -/
theorem participant_views_sufficient (sha256Hex : List UInt8 → String) (text : Projection.JsonText)
    (indented : Json → String)
    (reads : ∀ json : Json, json.Printable → text.parse (indented json ++ "\n") = .ok json)
    {parse : Bool → String → Except ExprError ExprNode} {proc : ProcedureOp}
    {plan : CoordinationPlan} (accepted : proc.Accepted parse) (inScope : Scoped (viewOf proc))
    (named : "" ∉ (viewOf proc).inputs.map (·.1) ++ (viewOf proc).computes.map (·.name))
    (normalized : normalizePlan (viewOf proc) = .ok plan) :
    ∃ spec views, text.parse (capabilitySpecJson sha256Hex text indented (viewOf proc) plan) =
        .ok (.object spec) ∧
      generateParticipantViewsFromSpec spec = .ok views ∧
      views.map View.name = plan.participants.map PlanParticipant.name ∧
      ∀ shown ∈ views,
        (∀ name, name ∈ shown.requiredInputs.map RequiredInput.name ↔
          Needs (viewOf proc) plan shown.name name) ∧
        ∀ input other env env', Indistinct shown (viewOf proc) input other →
          (transitionEnv plan input).value = .ok env →
          (transitionEnv plan other).value = .ok env' →
          ∀ effect ∈ plan.effects, effect.participant = shown.name →
            workflowKeyValue plan input = workflowKeyValue plan other ∧
            effect.guard.map (fun guard => evalGuard guard env) =
              effect.guard.map (fun guard => evalGuard guard env') ∧
            resolvePosting env input.symbols effect = resolvePosting env' other.symbols effect := by
  have assembled := assemblePlan_ok normalized
  have carried := carried_of_normalized normalized
  have distinct : ((viewOf proc).computes.map (·.name)).Nodup :=
    (List.nodup_append.mp inScope.distinct).2.1
  obtain ⟨read, isRead, inputs, computes, effects, pairs⟩ :=
    @specViews_spec sha256Hex text (viewOf proc) plan
  have shows := @participantView_spec (viewOf proc) plan read distinct inputs computes effects pairs
  obtain ⟨views, collected, names, all⟩ := @collect_views read _ shows plan.participants
    (viewOf proc).participants (by simp [carried.participants, planInputs])
  refine ⟨_, views, reads _ (printable_spec sha256Hex text (viewOf proc) plan), ?_, names,
    fun shown listed => ⟨all shown listed, ?_⟩⟩
  · rw [generateParticipantViewsFromSpec, isRead, ok_bind, arrOf_participants, ok_bind]
    exact collected
  · intro input other env env' indistinct opened opened' effect own actor
    exact leg_agrees accepted inScope named assembled (all shown listed) indistinct opened opened'
      own actor

theorem transfer_views : ∃ plan spec views, normalizePlan (viewOf transfer) = .ok plan ∧
    squeezedText.parse (capabilitySpecJson HexText.hexText squeezedText Json.indented
      (viewOf transfer) plan) = .ok (.object spec) ∧
    generateParticipantViewsFromSpec spec = .ok views ∧
    views.map View.name = plan.participants.map PlanParticipant.name ∧
    ∀ shown ∈ views, ∀ name, name ∈ shown.requiredInputs.map RequiredInput.name ↔
      Needs (viewOf transfer) plan shown.name name := by
  obtain ⟨plan, normalized⟩ := transfer_normalizes
  obtain ⟨spec, views, parsed, generated, names, all⟩ := participant_views_sufficient
    HexText.hexText squeezedText Json.indented (fun _ printable => squeezedText_reads printable)
    transfer_accepted transfer_scoped (by decide) normalized
  exact ⟨plan, spec, views, normalized, parsed, generated, names, fun shown listed =>
    (all shown listed).1⟩

end Neutrino.Views
