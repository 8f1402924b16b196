import Neutrino.CoordinationEnvelope
import Neutrino.PlanFromSpec
import Neutrino.PlanShape

/-! The consumer path keeps the builders' promise: the policy an effect is bound to is the one its
own typed guard names. -/

namespace Neutrino

open Checked

/-- A typed guard is a comparison, or the `accepted` predicate of one input. -/
theorem typeGuard_ok {env : CategoryEnv} {node typed : ExprNode}
    (accepted : typeGuard env node = .ok typed) :
    (∃ op lhs rhs dtype, node = .cmp op lhs rhs dtype ∧ acceptedInput (some typed) = "") ∨
    ∃ input category dtype, node = .call "accepted" [.var input category] dtype ∧
      acceptedInput (some typed) = input := by
  unfold typeGuard at accepted
  split at accepted
  · rename_i name args dtype
    split at accepted
    · rename_i isAccepted
      subst isAccepted
      split at accepted
      · rename_i input category
        split at accepted
        · simp at accepted
        · split at accepted
          · simp only [Except.ok.injEq] at accepted
            subst accepted
            exact .inr ⟨input, category, dtype, rfl, rfl⟩
          · simp at accepted
      · simp at accepted
    · simp at accepted
  · rename_i op lhs rhs dtype
    simp only [bind_ok, pure_ok] at accepted
    obtain ⟨_, _, _, _, _, _, _, _, _, _, rfl⟩ := accepted
    exact .inl ⟨op, lhs, rhs, dtype, rfl, rfl⟩
  · simp at accepted

/-- A serialized node is read back as a node of its own kind. -/
theorem exprFromObject_kind {object : Json.Object} {node : ExprNode}
    (read : exprFromObject object = .ok node) : object.stringOr "kind" = exprKindTag node := by
  rw [exprFromObject] at read
  simp only [] at read
  split at read
  · rename_i kind
    simp only [Except.ok.injEq] at read
    rw [kind, ← read, exprKindTag]
  split at read
  · rename_i kind
    simp only [Except.ok.injEq] at read
    rw [kind, ← read, exprKindTag]
  split at read
  · rename_i kind
    split at read
    · simp at read
    · split at read
      · simp only [bind_ok, pure_ok] at read
        obtain ⟨_, _, _, _, rfl⟩ := read
        rw [kind, exprKindTag]
      · simp at read
  split at read
  · rename_i kind
    split at read
    · simp only [Except.ok.injEq] at read
      rw [kind, ← read, exprKindTag]
    · simp only [bind_ok, pure_ok] at read
      obtain ⟨_, _, rfl⟩ := read
      rw [kind, exprKindTag]
  split at read
  · rename_i kind
    split at read
    · split at read
      · simp only [bind_ok, pure_ok] at read
        obtain ⟨_, _, _, _, rfl⟩ := read
        rw [kind, exprKindTag]
      · simp at read
    · simp at read
  · simp at read

theorem exprFromObject_call {object : Json.Object} {name : String} {args : List ExprNode}
    {dtype : ValueCategory} (read : exprFromObject object = .ok (.call name args dtype))
    (nonempty : args ≠ []) : object.stringOr "name" = name ∧
      ∃ elements, object.getArray "args" = some elements ∧ exprsFromJson elements = .ok args := by
  have kind := exprFromObject_kind read
  rw [exprFromObject] at read
  simp only [kind, exprKindTag, String.reduceEq, if_false, if_true] at read
  split at read
  · simp only [Except.ok.injEq, ExprNode.call.injEq] at read
    exact absurd read.2.1.symm nonempty
  · rename_i elements listed
    simp only [bind_ok, pure_ok, ExprNode.call.injEq] at read
    obtain ⟨built, converted, same, rfl, _⟩ := read
    exact ⟨same, elements, listed, converted⟩

theorem exprFromObject_var {object : Json.Object} {name : String} {dtype : ValueCategory}
    (read : exprFromObject object = .ok (.var name dtype)) : object.stringOr "name" = name := by
  have kind := exprFromObject_kind read
  rw [exprFromObject] at read
  simp only [kind, exprKindTag, String.reduceEq, if_false, if_true, Except.ok.injEq,
    ExprNode.var.injEq] at read
  exact read.1

theorem exprFromJson_object {value : Json} {node : ExprNode}
    (read : exprFromJson value = .ok node) :
    ∃ object, value = .object object ∧ exprFromObject object = .ok node := by
  cases value with
  | object object => exact ⟨object, rfl, by simpa [exprFromJson] using read⟩
  | _ => simp [exprFromJson] at read

/-- The policy read off a serialized guard is that of the guard it is typed as. -/
theorem acceptedInputFromAst_eq {env : CategoryEnv} {object : Json.Object} {node typed : ExprNode}
    (read : exprFromObject object = .ok node) (accepted : typeGuard env node = .ok typed) :
    acceptedInputFromAst (some object) = acceptedInput (some typed) := by
  have kind := exprFromObject_kind read
  rcases typeGuard_ok accepted with ⟨op, lhs, rhs, dtype, rfl, same⟩ |
    ⟨input, category, dtype, rfl, same⟩
  · rw [same]
    simp [acceptedInputFromAst, kind, exprKindTag]
  · obtain ⟨name, elements, listed, converted⟩ := exprFromObject_call read (by simp)
    rw [same]
    cases elements with
    | nil => simp [exprsFromJson] at converted
    | cons element rest =>
        rw [exprsFromJson] at converted
        simp only [bind_ok, pure_ok, List.cons.injEq] at converted
        obtain ⟨arg, argRead, args, restRead, rfl, rfl⟩ := converted
        cases rest with
        | nil =>
            obtain ⟨argObject, rfl, argObjectRead⟩ := exprFromJson_object argRead
            have argKind := exprFromObject_kind argObjectRead
            simp [acceptedInputFromAst, kind, exprKindTag, name, listed, Json.asObject, argKind,
              exprFromObject_var argObjectRead]
        | cons second others =>
            rw [exprsFromJson] at restRead
            simp [bind_ok, map_ok] at restRead

/-- The guard an element is typed with names the policy read off its serialized form. -/
theorem typeWhen_ok {env : CategoryEnv} {effect : Json.Object} {guard : Option ExprNode}
    (typed : typeWhen env (.object effect) = .ok guard) :
    acceptedInputFromAst (Json.Object.getObject ((effect.getObject "when").getD []) "ast") =
      acceptedInput guard := by
  unfold typeWhen at typed
  cases condition : effect.getObject "when" with
  | none =>
      simp only [Json.asObject, Option.bind_some, condition, Option.bind_none, Except.ok.injEq]
        at typed
      subst typed
      rfl
  | some condition' =>
      simp only [Json.asObject, Option.bind_some, condition] at typed
      simp only [Option.getD_some]
      cases ast : condition'.get "ast" with
      | none =>
          simp only [ast, Except.ok.injEq] at typed
          subst typed
          simp [Json.Object.getObject, ast, acceptedInputFromAst, acceptedInput]
      | some ast' =>
          simp only [ast, bind_ok, pure_ok] at typed
          obtain ⟨node, read, checked, accepted, rfl⟩ := typed
          obtain ⟨object, rfl, objectRead⟩ := exprFromJson_object read
          simp only [Json.Object.getObject, ast, Option.bind_some, Json.asObject]
          exact acceptedInputFromAst_eq objectRead accepted

theorem effectsFromSpec_fromBuilder {spec : Json.Object} {env : CategoryEnv}
    {guardTrees : List (Option ExprNode)} {effects : List PlanEffectInput}
    (typed : collect (typeWhen env) ((spec.getArray "effects").getD []) = .ok guardTrees)
    (built : effectsFromSpec spec guardTrees = .ok effects) :
    ∀ effect ∈ effects, effect.guardAcceptedInput = acceptedInput effect.guard := by
  intro effect listed
  unfold effectsFromSpec at built
  split at built
  · simp at built
  · rename_i elements found
    obtain ⟨⟨⟨element, guard⟩, index⟩, visited, fromElement⟩ := collect_mem_result built listed
    have pair : (element, guard) ∈ elements.zip guardTrees :=
      List.mem_of_getElem? (List.mem_zipIdx_iff_getElem?.mp visited)
    rw [found, Option.getD_some] at typed
    have guardTyped : typeWhen env element = .ok guard :=
      (List.forall₂_iff_zip.mp (collect_ok.mp typed)).2 pair
    unfold effectFromSpec at fromElement
    split at fromElement
    · rename_i object isObject
      simp only [bind_ok, pure_ok] at fromElement
      obtain ⟨participant, _, rfl⟩ := fromElement
      cases element with
      | object members =>
          simp only [Json.asObject, Option.some.injEq] at isObject
          subst isObject
          exact typeWhen_ok guardTyped
      | _ => simp [Json.asObject] at isObject
    · simp at fromElement

theorem inputsFromSpec_fromBuilder {spec : Json.Object} {raw : PlanInputs}
    (gathered : inputsFromSpec spec = .ok raw) : FromBuilder raw := by
  simp only [inputsFromSpec, bind_ok, pure_ok] at gathered
  obtain ⟨trees, typed, _, _, _, _, effects, built, _, _, _, _, rfl⟩ := gathered
  simp only [typeSpecExprs, bind_ok, checkedExpr, mapError_ok, pure_ok] at typed
  obtain ⟨_, typed, _, _, rfl⟩ := typed
  simp only [typeTrees, bind_ok, pure_ok, Prod.exists] at typed
  obtain ⟨_, env, _, guardTrees, guards, _, _, rfl⟩ := typed
  exact effectsFromSpec_fromBuilder guards built

/-- A plan from a spec is assembled from a builder's inputs. -/
theorem planFromSpec_ok {spec : Json.Object} {plan : CoordinationPlan}
    (accepted : planFromSpec spec = .ok plan) :
    ∃ raw, assemblePlan raw = .ok plan ∧ FromBuilder raw := by
  obtain ⟨raw, gathered, assembled⟩ := bind_ok.mp accepted
  exact ⟨raw, assembled, inputsFromSpec_fromBuilder gathered⟩

end Neutrino
