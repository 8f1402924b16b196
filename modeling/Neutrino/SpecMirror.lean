import Neutrino.SpecShapes

/-! How far the validator of capability specs mirrors their published schema: what a document
without diagnostics still needs to be valid, and a valid one to be without diagnostics. -/

namespace Neutrino.SpecMirror

open PyJson SpecValidator SpecShapes
open SpecSchema (Schema)

/-! Expressions. -/

mutual

/-- The nodes that the validator comes to. -/
def nodesOf (node : PyJson) : List Dict :=
  match node with
  | .dict items => items ::
      if eqStr (get items "kind") "bin" || eqStr (get items "kind") "cmp" then
        nodesOf (get items "lhs") ++ nodesOf (get items "rhs")
      else if eqStr (get items "kind") "call" then argNodes (elementsOf (get items "args"))
      else []
  | _ => []
termination_by sizeOf node
decreasing_by
  all_goals
    have := get_lt items "lhs"
    have := get_lt items "rhs"
    have := get_lt items "args"
    have := elementsOf_le (get items "args")
    omega

def argNodes (args : List PyJson) : List Dict :=
  match args with
  | [] => []
  | arg :: rest => nodesOf arg ++ argNodes rest
termination_by sizeOf args

end

/-- The members that a node of its kind has no use for. -/
def spareNames (items : Dict) : List String :=
  if eqStr (get items "kind") "num" then ["name", "op", "lhs", "rhs", "args"]
  else if eqStr (get items "kind") "var" then ["num", "op", "lhs", "rhs", "args"]
  else if eqStr (get items "kind") "call" then ["num", "op", "lhs", "rhs"]
  else ["num", "name", "args"]

/-- Spare members are well-formed. -/
def Tidy (items : Dict) : Prop :=
  ∀ key ∈ spareNames items, has items key = true →
    SpecSchema.exprMember key (get items key) = true

/-- A node has the members that its kind needs: an integer without a decimal point, an operator of
its kind. -/
def Complete (items : Dict) : Prop :=
  if eqStr (get items "kind") "num" then isInt (get items "num") = true
  else if eqStr (get items "kind") "var" then has items "name" = true
  else if eqStr (get items "kind") "call" then
    has items "name" = true ∧ has items "args" = true
  else OneOf (get items "op") (if eqStr (get items "kind") "bin" then ["+", "-", "*", "/"]
      else ["<", "<=", ">", ">=", "==", "!="]) ∧
    has items "lhs" = true ∧ has items "rhs" = true

theorem mem_argNodes {args : List PyJson} {holds : Dict → Prop} :
    (∀ items ∈ argNodes args, holds items) ↔ ∀ arg ∈ args, ∀ items ∈ nodesOf arg, holds items := by
  induction args with
  | nil => simp [argNodes]
  | cons arg rest ih => simp only [argNodes, List.forall_mem_append, ih, List.forall_mem_cons]

theorem exprNodes_iff {nodes : List PyJson} :
    SpecSchema.exprNodes nodes = true ↔ ∀ node ∈ nodes, SpecSchema.exprNode node = true := by
  induction nodes with
  | nil => simp [SpecSchema.exprNodes]
  | cons node rest ih =>
      rw [SpecSchema.exprNodes, Bool.and_eq_true, ih, List.forall_mem_cons]

section Members

variable {value : PyJson}

theorem member_kind : SpecSchema.exprMember "kind" value =
    SpecSchema.enum SpecSchema.exprKinds value := by
  rw [SpecSchema.exprMember, if_pos rfl]

theorem member_num : SpecSchema.exprMember "num" value =
    SpecSchema.integer (fun _ => true) value := by
  rw [SpecSchema.exprMember, if_neg (by decide), if_pos rfl]

theorem member_name : SpecSchema.exprMember "name" value = isText value := by
  simp [SpecSchema.exprMember, string_one]

theorem member_op : SpecSchema.exprMember "op" value =
    SpecSchema.enum SpecSchema.exprOps value := by
  simp [SpecSchema.exprMember]

theorem member_dtype : SpecSchema.exprMember "dtype" value =
    SpecSchema.enum categories value := by
  simp [SpecSchema.exprMember, valueCategory_eq]

theorem member_side {key : String} (side : key = "lhs" ∨ key = "rhs") :
    SpecSchema.exprMember key value = SpecSchema.exprNode value := by
  rcases side with rfl | rfl <;> simp [SpecSchema.exprMember]

theorem member_args : SpecSchema.exprMember "args" value = true ↔
    isList value = true ∧ ∀ arg ∈ elementsOf value, SpecSchema.exprNode arg = true := by
  simp [SpecSchema.exprMember, exprNodes_iff]

end Members

theorem exprNode_dict {items : Dict} : SpecSchema.exprNode (.dict items) = true ↔
    has items "kind" = true ∧ has items "dtype" = true ∧ Known items SpecSchema.exprNames ∧
      ∀ key ∈ SpecSchema.exprNames, has items key = true →
        SpecSchema.exprMember key (get items key) = true := by
  have optional : ∀ key, (!has items key || SpecSchema.exprMember key (get items key)) = true ↔
      (has items key = true → SpecSchema.exprMember key (get items key) = true) := fun key => by
    cases has items key <;> simp
  simp only [SpecSchema.exprNode, Bool.and_eq_true, List.all_eq_true, List.contains_iff_mem,
    optional, Known, and_assoc]

theorem exprNode_isDict {node : PyJson} (valid : SpecSchema.exprNode node = true) :
    ∃ items, node = .dict items := by
  cases node with
  | dict items => exact ⟨items, rfl⟩
  | _ => simp [SpecSchema.exprNode] at valid

theorem integer_isInt {value : PyJson} (held : isInt value = true) :
    SpecSchema.integer (fun _ => true) value = true := by
  cases value <;> simp_all [isInt, SpecSchema.integer, SpecSchema.asInteger]

theorem enum_mono {names more : List String} {value : PyJson} (held : OneOf value names)
    (weaker : ∀ name ∈ names, name ∈ more) : SpecSchema.enum more value = true := by
  cases value <;> simp_all [OneOf, SpecSchema.enum]

theorem has_side {items : Dict} {key : String} (shape : ExprShape (get items key)) :
    has items key = true := by
  cases present : has items key with
  | true => rfl
  | false =>
      rw [get_of_absent present] at shape
      cases shape

/-- The members that a node of its kind makes use of. -/
def usedNames (items : Dict) : List String :=
  if eqStr (get items "kind") "num" then ["kind", "dtype", "num"]
  else if eqStr (get items "kind") "var" then ["kind", "dtype", "name"]
  else if eqStr (get items "kind") "call" then ["kind", "dtype", "name", "args"]
  else ["kind", "dtype", "op", "lhs", "rhs"]

theorem exprNode_members {items : Dict} : SpecSchema.exprNode (.dict items) = true ↔
    (has items "kind" = true ∧ has items "dtype" = true ∧ Known items SpecSchema.exprNames ∧
      ∀ key ∈ usedNames items, has items key = true →
        SpecSchema.exprMember key (get items key) = true) ∧ Tidy items := by
  have split : ∀ holds : String → Prop, (∀ key ∈ SpecSchema.exprNames, holds key) ↔
      (∀ key ∈ usedNames items, holds key) ∧ ∀ key ∈ spareNames items, holds key := by
    intro holds
    simp only [usedNames, spareNames, SpecSchema.exprNames]
    split_ifs <;> simp only [List.forall_mem_cons, List.not_mem_nil, false_imp_iff, implies_true,
      and_true] <;> tauto
  rw [exprNode_dict, split, Tidy]
  tauto

/-- What the validator lets pass is a node of the schema where its spare members are. -/
theorem exprShape_schema {node : PyJson} (shape : ExprShape node) :
    SpecSchema.exprNode node = true ↔ ∀ items ∈ nodesOf node, Tidy items := by
  have kinds : ∀ {items : Dict} {kind : String}, eqStr (get items "kind") kind = true →
      kind ∈ SpecSchema.exprKinds → has items "kind" = true ∧
        SpecSchema.enum SpecSchema.exprKinds (get items "kind") = true := by
    intro items kind held listed
    have same := eqStr_iff.mp held
    have one : SpecSchema.enum SpecSchema.exprKinds (get items "kind") = true := by
      simpa [same, SpecSchema.enum] using listed
    exact ⟨has_enum one, one⟩
  have sides : ∀ {items : Dict}, eqStr (get items "kind") "bin" = true ∨
      eqStr (get items "kind") "cmp" = true → Known items SpecSchema.exprNames →
      OneOf (get items "dtype") categories →
      SpecSchema.enum SpecSchema.exprOps (get items "op") = true → has items "lhs" = true →
      has items "rhs" = true →
      (SpecSchema.exprNode (get items "lhs") = true ↔
        ∀ inner ∈ nodesOf (get items "lhs"), Tidy inner) →
      (SpecSchema.exprNode (get items "rhs") = true ↔
        ∀ inner ∈ nodesOf (get items "rhs"), Tidy inner) →
      (SpecSchema.exprNode (.dict items) = true ↔ ∀ inner ∈ nodesOf (.dict items), Tidy inner) := by
    intro items kind known dtype operator lhs rhs left right
    obtain ⟨present, kinded⟩ := kind.elim (kinds · (by decide)) (kinds · (by decide))
    have used : usedNames items = ["kind", "dtype", "op", "lhs", "rhs"] := by
      rcases kind with kind | kind <;> simp [usedNames, eqStr_iff.mp kind, eqStr]
    have nodes : nodesOf (.dict items) =
        items :: (nodesOf (get items "lhs") ++ nodesOf (get items "rhs")) := by
      rcases kind with kind | kind <;> simp [nodesOf, eqStr_iff.mp kind, eqStr]
    rw [exprNode_members, used, nodes]
    simp only [List.forall_mem_cons, List.forall_mem_append, ← left, ← right]
    simp [member_kind, member_dtype, member_op, member_side, present, kinded, has_enum dtype,
      known, show _ = _ from dtype, operator, lhs, rhs]
    tauto
  induction shape with
  | @num items known dtype kind num =>
      obtain ⟨present, kinded⟩ := kinds kind (by decide)
      have used : usedNames items = ["kind", "dtype", "num"] := by
        simp [usedNames, eqStr_iff.mp kind, eqStr]
      have nodes : nodesOf (.dict items) = [items] := by
        simp [nodesOf, eqStr_iff.mp kind, eqStr]
      rw [exprNode_members, used, nodes]
      simp [member_kind, member_dtype, member_num, present, kinded, has_enum dtype, known,
        show _ = _ from dtype, integer_isInt num]
  | @var items known dtype kind name =>
      obtain ⟨present, kinded⟩ := kinds kind (by decide)
      have used : usedNames items = ["kind", "dtype", "name"] := by
        simp [usedNames, eqStr_iff.mp kind, eqStr]
      have nodes : nodesOf (.dict items) = [items] := by
        simp [nodesOf, eqStr_iff.mp kind, eqStr]
      rw [exprNode_members, used, nodes]
      simp [member_kind, member_dtype, member_name, present, kinded, has_enum dtype, known,
        show _ = _ from dtype, name]
  | @bin items known dtype kind op lhs rhs left right =>
      exact sides (.inl kind) known dtype (enum_mono op (by decide)) (has_side lhs) (has_side rhs)
        left right
  | @cmp items known dtype kind op lhs rhs left right =>
      exact sides (.inr kind) known dtype (enum_mono op (by decide)) (has_side lhs) (has_side rhs)
        left right
  | @call items known dtype kind name array args each =>
      obtain ⟨present, kinded⟩ := kinds kind (by decide)
      have used : usedNames items = ["kind", "dtype", "name", "args"] := by
        simp [usedNames, eqStr_iff.mp kind, eqStr]
      have nodes : nodesOf (.dict items) = items :: argNodes (elementsOf (get items "args")) := by
        simp [nodesOf, eqStr_iff.mp kind, eqStr]
      have valid : (∀ arg ∈ elementsOf (get items "args"), SpecSchema.exprNode arg = true) ↔
          ∀ arg ∈ elementsOf (get items "args"), ∀ items ∈ nodesOf arg, Tidy items :=
        forall₂_congr each
      rw [exprNode_members, used, nodes]
      simp only [List.forall_mem_cons, mem_argNodes, ← valid]
      simp [member_kind, member_dtype, member_name, member_args, present, kinded, has_enum dtype,
        known, show _ = _ from dtype, name, array, has_list array]
      tauto

theorem sides_apart {op lhs inLhs rhs inRhs : Prop} : op ∧ (lhs ∧ inLhs) ∧ rhs ∧ inRhs ↔
    (op ∧ lhs ∧ rhs) ∧ inLhs ∧ inRhs := by
  tauto

/-- A node of the schema passes the validator where all its nodes are complete. -/
theorem schema_exprShape (node : PyJson) (valid : SpecSchema.exprNode node = true) :
    ExprShape node ↔ ∀ items ∈ nodesOf node, Complete items := by
  obtain ⟨items, rfl⟩ := exprNode_isDict valid
  obtain ⟨present, typed, known, members⟩ := exprNode_dict.mp valid
  have dtype : OneOf (get items "dtype") categories := by
    rw [OneOf, ← member_dtype]
    exact members "dtype" (by decide) typed
  have kinded : SpecSchema.enum SpecSchema.exprKinds (get items "kind") = true :=
    member_kind ▸ members "kind" (by decide) present
  have name : isText (get items "name") = true ↔ has items "name" = true :=
    ⟨has_text, fun present => member_name ▸ members "name" (by decide) present⟩
  have side : ∀ key, key = "lhs" ∨ key = "rhs" → sizeOf (get items key) < sizeOf (dict items) →
      (ExprShape (get items key) ↔ has items key = true ∧
        ∀ inner ∈ nodesOf (get items key), Complete inner) := by
    intro key isSide smaller
    by_cases present : has items key = true
    · have valid : SpecSchema.exprNode (get items key) = true := member_side isSide ▸
        members key (by rcases isSide with rfl | rfl <;> decide) present
      simp only [present, true_and]
      exact schema_exprShape (get items key) valid
    · exact iff_of_false (fun shape => present (has_side shape)) fun held => present held.1
  have left := side "lhs" (.inl rfl) (get_lt items "lhs")
  have right := side "rhs" (.inr rfl) (get_lt items "rhs")
  have args : (isList (get items "args") = true ∧
      ∀ arg ∈ elementsOf (get items "args"), ExprShape arg) ↔ has items "args" = true ∧
        ∀ arg ∈ elementsOf (get items "args"), ∀ inner ∈ nodesOf arg, Complete inner := by
    by_cases present : has items "args" = true
    · obtain ⟨array, each⟩ := member_args.mp (members "args" (by decide) present)
      simp only [present, array, true_and]
      refine forall₂_congr fun arg listed => ?_
      have smaller : sizeOf arg < sizeOf (dict items) := by
        have := List.sizeOf_lt_of_mem listed
        have := elementsOf_le (get items "args")
        have := get_lt items "args"
        omega
      exact schema_exprShape arg (each arg listed)
    · exact iff_of_false (fun held => present (has_list held.1)) fun held => present held.1
  cases kind : get items "kind" with
  | str text =>
      rw [kind] at kinded
      simp only [SpecSchema.enum, SpecSchema.exprKinds, List.contains_iff_mem, List.mem_cons,
        List.not_mem_nil, or_false] at kinded
      rw [exprShape_dict]
      have nodes : ∀ inner, nodesOf (.dict items) = items :: inner →
          ((∀ node ∈ nodesOf (.dict items), Complete node) ↔
            Complete items ∧ ∀ node ∈ inner, Complete node) := fun inner same => by
        rw [same, List.forall_mem_cons]
      rcases kinded with rfl | rfl | rfl | rfl | rfl
      · rw [nodes [] (by simp [nodesOf, kind, eqStr])]
        simp [Complete, kind, eqStr, known, dtype]
      · rw [nodes [] (by simp [nodesOf, kind, eqStr])]
        simp [Complete, kind, eqStr, known, dtype, name]
      · have here : Complete items ↔ OneOf (get items "op") ["+", "-", "*", "/"] ∧
            has items "lhs" = true ∧ has items "rhs" = true := by
          simp [Complete, kind, eqStr]
        rw [nodes (nodesOf (get items "lhs") ++ nodesOf (get items "rhs"))
          (by simp [nodesOf, kind, eqStr]), here, List.forall_mem_append, kind]
        simp only [eqStr, known, dtype, left, right, true_and]
        exact sides_apart
      · have here : Complete items ↔ has items "name" = true ∧ has items "args" = true := by
          simp [Complete, kind, eqStr]
        rw [nodes (argNodes (elementsOf (get items "args"))) (by simp [nodesOf, kind, eqStr]),
          here, mem_argNodes, kind]
        simp only [eqStr, known, dtype, name, args, true_and]
        exact and_assoc.symm
      · have here : Complete items ↔ OneOf (get items "op") ["<", "<=", ">", ">=", "==", "!="] ∧
            has items "lhs" = true ∧ has items "rhs" = true := by
          simp [Complete, kind, eqStr]
        rw [nodes (nodesOf (get items "lhs") ++ nodesOf (get items "rhs"))
          (by simp [nodesOf, kind, eqStr]), here, List.forall_mem_append, kind]
        simp only [eqStr, known, dtype, left, right, true_and]
        exact sides_apart
  | _ =>
      rw [kind] at kinded
      cases kinded
termination_by sizeOf node
decreasing_by all_goals subst_vars; assumption

/-- Of the trees that the validator lets pass the schema admits those without a malformed spare
member, and of the trees of the schema the validator lets those pass that have every member their
kinds need. -/
theorem expression_mirror (str : PyJson → String) (node : PyJson) (place : String) :
    (validateExpr str node place = .ok [] →
      (SpecSchema.exprNode node = true ↔ ∀ items ∈ nodesOf node, Tidy items)) ∧
    (SpecSchema.exprNode node = true →
      (validateExpr str node place = .ok [] ↔ ∀ items ∈ nodesOf node, Complete items)) := by
  have passes : validateExpr str node place = .ok [] ↔ ExprShape node := by
    rw [← @clean_expr str node place, clean_iff]
  constructor
  · intro passed
    exact exprShape_schema (passes.mp passed)
  · intro valid
    rw [passes]
    exact schema_exprShape node valid

end Neutrino.SpecMirror
