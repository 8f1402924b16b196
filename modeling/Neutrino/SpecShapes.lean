import Neutrino.SpecSchema

/-! What the validator of capability specs asks of each section: the shape of a document whose
review ends without a diagnostic. -/

namespace Neutrino.SpecShapes

open PyJson SpecValidator Review
open SpecSchema (Schema)
open Agreement (isHexDigest semanticItems)

/-! What a review without diagnostics says. -/

def Clean (review : Check) : Prop := Within (fun _ => False) review

theorem clean_iff {review : Check} : Clean review ↔ review = .ok [] := within_none

section Clean

@[simp] theorem clean_nil : Clean (all []) := within_nil

@[simp] theorem clean_cons {first : Check} {rest : List Check} :
    Clean (all (first :: rest)) ↔ Clean first ∧ Clean (all rest) :=
  within_cons

@[simp] theorem clean_overAll {α : Type} {review : α → Check} {elements : List α} :
    Clean (overAll review elements) ↔ ∀ element ∈ elements, Clean (review element) :=
  within_overAll

@[simp] theorem clean_complain {wrong : Bool} {code message : String} :
    Clean (complainOf wrong code message) ↔ wrong = false := by
  rw [Clean, complainOf, within_note]
  simp

@[simp] theorem clean_after {α : Type} {result : Except String α} {next : α → Check} :
    Clean (after result next) ↔ ∃ value, result = .ok value ∧ Clean (next value) :=
  within_after

@[simp] theorem clean_requireIn {value : PyJson} {names : List String} {code message : String} :
    Clean (requireIn value names code message) ↔ SpecSchema.enum names value = true := by
  rw [requireIn, clean_after]
  simp only [clean_complain]
  cases value <;> simp [memberOf, SpecSchema.enum]

@[simp] theorem clean_unknownIn {items : Dict} {allowed : List String} {code : String}
    {message : String → String} : Clean (unknownIn items allowed code message) ↔
      ∀ item ∈ items, item.1 ∈ allowed := by
  simp [unknownIn]

@[simp] theorem clean_missingIn {items : Dict} {required : List String} {code : String}
    {message : String → String} : Clean (missingIn items required code message) ↔
      ∀ key ∈ required, has items key = true := by
  simp [missingIn]

theorem clean_object {value : PyJson} {place : String} {review : Dict → Check} :
    Clean (withObject value place review) ↔
      ∃ items, value = .dict items ∧ Clean (review items) := by
  cases value <;> simp [withObject]

/-- Elements are reviewed one by one, wherever they stand. -/
theorem clean_indexed {review : PyJson → String → Check} {section' : String}
    {elements : List PyJson} {holds : PyJson → Prop}
    (same : ∀ element ∈ elements, ∀ place, Clean (review element place) ↔ holds element) :
    Clean (overAll (fun element => review element.1 element.2) (indexed section' elements)) ↔
      ∀ element ∈ elements, holds element := by
  simp only [clean_overAll, indexed, List.forall_mem_map]
  conv_rhs => rw [← List.zipIdx_map_fst 0 elements]
  rw [List.forall_mem_map]
  exact forall₂_congr fun element listed => same element.1 (List.fst_mem_of_mem_zipIdx listed) _

end Clean

/-! Vocabulary that both share. -/

@[simp] theorem string_one (value : PyJson) : SpecSchema.string 1 value = isText value := by
  cases value with
  | str text =>
      have length : 1 ≤ text.length ↔ text ≠ "" := by
        rw [Nat.one_le_iff_ne_zero, ne_eq, ne_eq, String.length_eq_zero_iff]
      simp [SpecSchema.string, isText, length]
  | _ => rfl

@[simp] theorem valueCategory_eq (value : PyJson) :
    SpecSchema.valueCategory value = SpecSchema.enum categories value := rfl

theorem get_of_absent {items : Dict} {key : String} (absent : has items key = false) :
    get items key = .none := by
  rw [has, Option.isSome_eq_false_iff, Option.isNone_iff_eq_none] at absent
  rw [PyJson.get, absent, Option.getD_none]

/-- A member that is not null is there. -/
theorem has_of {items : Dict} {key : String} {holds : PyJson → Bool}
    (held : holds (get items key) = true) (null : holds .none = false) :
    has items key = true := by
  cases present : has items key with
  | true => rfl
  | false => rw [get_of_absent present, null] at held; cases held

section Present

variable {items : Dict} {key : String}

theorem has_text (held : isText (get items key) = true) : has items key = true := has_of held rfl

theorem has_list (held : isList (get items key) = true) : has items key = true := has_of held rfl

theorem has_texts (held : isTexts (get items key) = true) : has items key = true := has_of held rfl

theorem has_enum {names : List String} (held : SpecSchema.enum names (get items key) = true) :
    has items key = true := has_of held rfl

end Present

/-! What each section has to be for its review to end well. -/

def Known (items : Dict) (names : List String) : Prop := ∀ item ∈ items, item.1 ∈ names

def OneOf (value : PyJson) (names : List String) : Prop := SpecSchema.enum names value = true

inductive ExprShape : PyJson → Prop
  | num {items : Dict} (known : Known items SpecSchema.exprNames)
      (dtype : OneOf (get items "dtype") categories)
      (kind : eqStr (get items "kind") "num" = true) (num : isInt (get items "num") = true) :
      ExprShape (.dict items)
  | var {items : Dict} (known : Known items SpecSchema.exprNames)
      (dtype : OneOf (get items "dtype") categories)
      (kind : eqStr (get items "kind") "var" = true) (name : isText (get items "name") = true) :
      ExprShape (.dict items)
  | bin {items : Dict} (known : Known items SpecSchema.exprNames)
      (dtype : OneOf (get items "dtype") categories)
      (kind : eqStr (get items "kind") "bin" = true)
      (op : OneOf (get items "op") ["+", "-", "*", "/"]) (lhs : ExprShape (get items "lhs"))
      (rhs : ExprShape (get items "rhs")) : ExprShape (.dict items)
  | call {items : Dict} (known : Known items SpecSchema.exprNames)
      (dtype : OneOf (get items "dtype") categories)
      (kind : eqStr (get items "kind") "call" = true) (name : isText (get items "name") = true)
      (list : isList (get items "args") = true)
      (args : ∀ arg ∈ elementsOf (get items "args"), ExprShape arg) : ExprShape (.dict items)
  | cmp {items : Dict} (known : Known items SpecSchema.exprNames)
      (dtype : OneOf (get items "dtype") categories)
      (kind : eqStr (get items "kind") "cmp" = true)
      (op : OneOf (get items "op") ["<", "<=", ">", ">=", "==", "!="])
      (lhs : ExprShape (get items "lhs")) (rhs : ExprShape (get items "rhs")) :
      ExprShape (.dict items)

theorem eqStr_iff {value : PyJson} {text : String} :
    eqStr value text = true ↔ value = .str text := Agreement.eqStr_iff

/-- What the shape of a node asks of its members, by its kind. -/
theorem exprShape_dict {items : Dict} : ExprShape (.dict items) ↔
    Known items SpecSchema.exprNames ∧ OneOf (get items "dtype") categories ∧
    (if eqStr (get items "kind") "num" then isInt (get items "num") = true
      else if eqStr (get items "kind") "var" then isText (get items "name") = true
      else if eqStr (get items "kind") "bin" then OneOf (get items "op") ["+", "-", "*", "/"] ∧
        ExprShape (get items "lhs") ∧ ExprShape (get items "rhs")
      else if eqStr (get items "kind") "call" then isText (get items "name") = true ∧
        isList (get items "args") = true ∧ ∀ arg ∈ elementsOf (get items "args"), ExprShape arg
      else if eqStr (get items "kind") "cmp" then
        OneOf (get items "op") ["<", "<=", ">", ">=", "==", "!="] ∧
        ExprShape (get items "lhs") ∧ ExprShape (get items "rhs")
      else False) := by
  constructor
  · rintro (⟨known, dtype, kind, _⟩ | ⟨known, dtype, kind, _⟩ | ⟨known, dtype, kind, _, _, _⟩ |
      ⟨known, dtype, kind, _, _, _⟩ | ⟨known, dtype, kind, _, _, _⟩) <;>
      refine ⟨known, dtype, ?_⟩ <;> rw [eqStr_iff.mp kind] <;> simp [eqStr, *]
    assumption
  · rintro ⟨known, dtype, members⟩
    split at members
    · exact .num known dtype ‹_› members
    · split at members
      · exact .var known dtype ‹_› members
      · split at members
        · exact .bin known dtype ‹_› members.1 members.2.1 members.2.2
        · split at members
          · exact .call known dtype ‹_› members.1 members.2.1 members.2.2
          · split at members
            · exact .cmp known dtype ‹_› members.1 members.2.1 members.2.2
            · exact members.elim

section Sections

variable {str repr : PyJson → String} {place : String}

mutual

theorem clean_expr (node : PyJson) (place : String) :
    Clean (validateExpr str node place) ↔ ExprShape node := by
  cases node with
  | dict items =>
      have left := clean_expr (get items "lhs") (place ++ ".lhs")
      have right := clean_expr (get items "rhs") (place ++ ".rhs")
      have args := clean_args (elementsOf (get items "args")) place 0
      rw [validateExpr, exprShape_dict]
      simp only [clean_cons, clean_unknownIn, clean_requireIn, clean_nil, and_true,
        OneOf]
      refine and_congr (by simp [Known, SpecSchema.exprNames]; grind) (and_congr_right fun _ => ?_)
      split_ifs <;> simp [left, right, args]
  | _ =>
      simp only [validateExpr, clean_complain, Bool.true_eq_false, false_iff]
      rintro ⟨⟩
termination_by sizeOf node
decreasing_by
  all_goals
    have := get_lt items "lhs"
    have := get_lt items "rhs"
    have := get_lt items "args"
    have := elementsOf_le (get items "args")
    omega

theorem clean_args (args : List PyJson) (place : String) (index : Nat) :
    Clean (validateArgs str args place index) ↔ ∀ arg ∈ args, ExprShape arg := by
  cases args with
  | nil => simp [validateArgs]
  | cons arg rest =>
      rw [validateArgs, clean_cons, clean_cons, clean_expr arg, clean_args rest]
      simp
termination_by sizeOf args

end

theorem clean_exact {value : PyJson} {allowed : List String} {review : Dict → Check} :
    Clean (exactObject value allowed place review) ↔
      ∃ items, value = .dict items ∧ hasExactly items allowed = true ∧ Clean (review items) := by
  rw [exactObject, clean_object]
  refine exists_congr fun items => and_congr_right fun _ => ?_
  simp only [clean_cons, clean_nil, clean_unknownIn, clean_missingIn, and_true, hasExactly,
    Bool.and_eq_true, List.all_eq_true, List.contains_iff_mem]
  by_cases exact : (∀ item ∈ items, item.1 ∈ allowed) ∧ ∀ key ∈ allowed, has items key = true
  · rw [if_pos exact]
    tauto
  · rw [if_neg exact]
    simp only [clean_nil, and_true]
    tauto

end Sections

structure ObserverShape (items : Dict) : Prop where
  known : Known items ["ref", "role", "assurance", "independence"]
  ref : isText (get items "ref") = true
  role : has items "role" = true ∧ isStrOrNull (get items "role") = true
  assurance : has items "assurance" = true → OneOf (get items "assurance") assuranceTiers
  independence : has items "independence" = true →
    OneOf (get items "independence") ["independent", "correlated"]

@[mk_iff] structure AttestationShape (items : Dict) : Prop where
  exact : hasExactly items
    ["canonicalization", "fallback", "input", "observerSet", "quorum", "timeout"] = true
  input : isText (get items "input") = true
  quorum : ∃ quorum, get items "quorum" = .dict quorum ∧ hasExactly quorum ["threshold"] = true ∧
    atLeastOne (get quorum "threshold") = true
  observers : ∃ observers, get items "observerSet" = .dict observers ∧ ObserverShape observers
  canonicalization : ∃ canonicalization, get items "canonicalization" = .dict canonicalization ∧
    hasExactly canonicalization ["mode", "tolerance"] = true ∧
    OneOf (get canonicalization "mode") ["exact", "median"] ∧
    isStrOrNull (get canonicalization "tolerance") = true
  timeout : isStrOrNull (get items "timeout") = true
  fallback : OneOf (get items "fallback") ["abort", "escalate"]

@[mk_iff] structure ObligationShape (items : Dict) : Prop where
  exact : hasExactly items
    ["authority", "beneficiary", "effects", "name", "obligor", "version", "when"] = true
  version : eqInt (get items "version") 1 = true
  name : isText (get items "name") = true
  obligor : isText (get items "obligor") = true
  beneficiary : isText (get items "beneficiary") = true
  authority : isText (get items "authority") = true
  effects : isTexts (get items "effects") = true ∧ elementsOf (get items "effects") ≠ []
  when : ∃ when, get items "when" = .dict when ∧ hasExactly when ["expr", "ast"] = true ∧
    isText (get when "expr") = true ∧ ExprShape (get when "ast")

@[mk_iff] structure InputShape (items : Dict) : Prop where
  known : Known items ["name", "type", "category"]
  name : isText (get items "name") = true
  type : isText (get items "type") = true
  category : OneOf (get items "category") categories

@[mk_iff] structure ComputeShape (declared : List String) (items : Dict) : Prop where
  known : Known items ["name", "expr", "category", "deps", "ast"]
  expr : isText (get items "expr") = true
  category : OneOf (get items "category") categories
  list : isList (get items "deps") = true
  deps : ∀ dep ∈ elementsOf (get items "deps"),
    OneOf dep declared
  ast : ExprShape (get items "ast")

/-- An operand, and where it is a reference a declared one. -/
@[mk_iff] structure OperandShape (declared : List String) (items : Dict) : Prop where
  known : Known items ["kind", "value"]
  kind : OneOf (get items "kind") ["ref", "literal"]
  value : isText (get items "value") = true
  resolved : eqStr (get items "kind") "ref" = true →
    OneOf (get items "value") declared

structure WhenShape (declared : List String) (items : Dict) : Prop where
  known : Known items ["expr", "ast"]
  expr : isText (get items "expr") = true
  ast : ∃ ast, get items "ast" = .dict ast ∧ ExprShape (.dict ast) ∧
    eqStr (get ast "kind") "cmp" = true
  resolved : (∀ name ∈ SpecValidator.exprVars (get items "ast"), name ∈ declared)

structure EffectShape (declared participants : List String) (items : Dict) : Prop where
  known : Known items ["kind", "name", "ledger", "owner", "participant", "party", "amount",
    "currency", "idempotencyKey", "when", "memo"]
  memo : has items "memo" = true → isText (get items "memo") = true
  when : get items "when" = .none ∨
    ∃ when, get items "when" = .dict when ∧ WhenShape declared when
  kind : OneOf (get items "kind") ["debit", "credit"]
  name : isText (get items "name") = true
  ledger : isText (get items "ledger") = true
  owner : isText (get items "owner") = true
  participant : get items "participant" = .none ∨ isText (get items "participant") = true ∧
    (OneOf (get items "participant") participants)
  operands : ∀ key ∈ ["party", "amount", "currency", "idempotencyKey"],
    ∃ operand, get items key = .dict operand ∧ OperandShape declared operand

@[mk_iff] structure ParticipantShape (items : Dict) : Prop where
  known : Known items
    ["name", "role", "org", "capabilities", "binding", "bindRuntimes", "bindMinAssurance"]
  name : isText (get items "name") = true
  binding : OneOf (get items "binding") ["fixed", "to_be_bound"]
  assurance : OneOf (get items "bindMinAssurance") ["", "A1", "A2", "A3", "A4"]
  capabilities : isTexts (get items "capabilities") = true
  runtimes : isTexts (get items "bindRuntimes") = true

@[mk_iff] structure PairShape (items : Dict) : Prop where
  known : Known items ["orgA", "orgB", "roleA", "roleB"]
  orgA : isText (get items "orgA") = true
  orgB : isText (get items "orgB") = true
  roleA : isStr (get items "roleA") = true
  roleB : isStr (get items "roleB") = true

@[mk_iff] structure TopologyShape (items : Dict) : Prop where
  known : Known items ["allowedOrgPairs"]
  list : isList (get items "allowedOrgPairs") = true
  pairs : ∀ pair ∈ elementsOf (get items "allowedOrgPairs"),
    ∃ members, pair = .dict members ∧ PairShape members

def SourceShape (source : PyJson) : Prop := isNone source = true ∨ isSpan source = true

@[mk_iff] structure SourceEntryShape (items : Dict) : Prop where
  known : Known items ["specPath", "construct", "source"]
  path : isText (get items "specPath") = true
  construct : isText (get items "construct") = true
  source : has items "source" = true ∧ SourceShape (get items "source")

@[mk_iff] structure RequirementShape (items : Dict) : Prop where
  known : Known items ["feature", "primitive", "source", "requirement", "fallback"]
  feature : isText (get items "feature") = true
  primitive : isText (get items "primitive") = true
  requirement : OneOf (get items "requirement") ["required", "optional"]
  fallback : isNone (get items "fallback") = true ∨ isText (get items "fallback") = true
  source : SourceShape (get items "source")

structure TargetShape (items : Dict) : Prop where
  known : Known items ["requirements", "evidenceStyle", "unsupportedConstructs"]
  list : isList (get items "requirements") = true
  requirements : ∀ requirement ∈ elementsOf (get items "requirements"),
    ∃ members, requirement = .dict members ∧ RequirementShape members
  style : OneOf (get items "evidenceStyle") ["single_hash", "batched_root"]
  unsupported : isTexts (get items "unsupportedConstructs") = true

section Sections

variable {str repr : PyJson → String} {place : String}

theorem clean_attestation {policy : PyJson} : Clean (validateAttestation policy place) ↔
    ∃ items, policy = .dict items ∧ AttestationShape items := by
  have optional : ∀ (wanted : Bool) (review : Check),
      Clean (if wanted = true then review else all []) ↔ (wanted = true → Clean review) :=
    fun wanted review => by cases wanted <;> simp
  have observers : ∀ place observers, Clean (validateObserverSet observers place) ↔
      ∃ items, observers = .dict items ∧ ObserverShape items := by
    intro place observers
    rw [validateObserverSet, clean_object]
    refine exists_congr fun items => and_congr_right fun _ => ?_
    simp only [clean_cons, clean_nil, clean_unknownIn, clean_missingIn, clean_complain,
      clean_requireIn, optional, strOrNull, and_true, Bool.not_eq_eq_eq_not, Bool.not_false,
      List.forall_mem_cons, List.not_mem_nil, false_imp_iff, implies_true]
    constructor
    · rintro ⟨known, ⟨_, role⟩, ref, nullable, tier, posture⟩
      exact ⟨known, ref, ⟨role, nullable role⟩, tier, posture⟩
    · rintro ⟨known, ref, ⟨role, nullable⟩, tier, posture⟩
      exact ⟨known, ⟨has_text ref, role⟩, ref, fun _ => nullable, tier, posture⟩
  rw [validateAttestation, clean_exact]
  simp only [clean_cons, clean_nil, clean_complain, clean_requireIn, clean_exact, observers,
    strOrNull, and_true, Bool.not_eq_eq_eq_not, Bool.not_false, attestationShape_iff, OneOf]

theorem clean_input {input : PyJson} : Clean (validateInput str input place) ↔
    ∃ items, input = .dict items ∧ InputShape items := by
  simp only [validateInput, clean_object, clean_cons, clean_nil, clean_unknownIn, clean_complain,
    clean_requireIn, and_true, Bool.not_eq_eq_eq_not, Bool.not_false, inputShape_iff, Known, OneOf]

theorem clean_compute {declared : List String} {compute : PyJson} :
    Clean (validateCompute str declared compute place) ↔
      ∃ items, compute = .dict items ∧ ComputeShape declared items := by
  simp only [validateCompute, clean_object, clean_cons, clean_nil, clean_unknownIn, clean_complain,
    clean_requireIn, clean_overAll, clean_expr, and_true, Bool.not_eq_eq_eq_not, Bool.not_false,
    computeShape_iff, Known, OneOf]

theorem clean_obligation {obligation : PyJson} :
    Clean (validateObligation str obligation place) ↔
      ∃ items, obligation = .dict items ∧ ObligationShape items := by
  have effects : ∀ items : Dict, (isTexts (get items "effects") = true ∧
      (isList (get items "effects") && (elementsOf (get items "effects")).isEmpty) = false) ↔
        isTexts (get items "effects") = true ∧ elementsOf (get items "effects") ≠ [] :=
    fun items => by cases get items "effects" <;> simp [isTexts, isList, elementsOf]
  have predicate : ∀ place when, Clean (validatePredicate str when place) ↔
      ∃ members, when = .dict members ∧ hasExactly members ["expr", "ast"] = true ∧
        isText (get members "expr") = true ∧ ExprShape (get members "ast") := by
    intro place when
    cases when with
    | dict members =>
        by_cases exact : hasExactly members ["expr", "ast"] = true <;>
          simp [validatePredicate, exact, clean_expr]
    | _ => simp [validatePredicate]
  simp only [validateObligation, clean_exact, clean_cons, clean_nil, clean_overAll, clean_complain,
    strArray, predicate, and_true, Bool.not_eq_eq_eq_not, Bool.not_false, List.forall_mem_cons,
    List.not_mem_nil, false_imp_iff, implies_true, obligationShape_iff, ← effects, and_assoc]

theorem clean_operand {declared : List String} {operand : PyJson} :
    (Clean (validateOperand operand place) ∧
      Clean (resolveOperand str declared operand place)) ↔
        ∃ items, operand = .dict items ∧ OperandShape declared items := by
  cases operand with
  | dict items =>
      have resolves : Clean (resolveOperand str declared (.dict items) place) ↔
          (eqStr (get items "kind") "ref" = true → OneOf (get items "value") declared) := by
        rw [resolveOperand]
        cases eqStr (get items "kind") "ref" <;> simp [OneOf]
      simp only [validateOperand, clean_cons, clean_nil, clean_unknownIn, clean_requireIn,
        clean_complain, and_true, Bool.not_eq_eq_eq_not, Bool.not_false, PyJson.dict.injEq,
        exists_eq_left', resolves, operandShape_iff, Known, OneOf, and_assoc]
  | _ => simp [validateOperand]

theorem clean_when {declared : List String} {when : PyJson} :
    Clean (validateWhen str declared when place) ↔
      when = .none ∨ ∃ items, when = .dict items ∧ WhenShape declared items := by
  cases when with
  | dict items =>
      have guard : ∀ ast, Clean (requireCmp ast place) ∧ ExprShape ast ↔
          ∃ members, ast = .dict members ∧ ExprShape (.dict members) ∧
            eqStr (get members "kind") "cmp" = true := by
        intro ast
        cases ast with
        | dict members =>
            simp [requireCmp]
            tauto
        | _ =>
            simp only [requireCmp, clean_nil, true_and, reduceCtorEq, false_and, exists_false,
              iff_false]
            rintro ⟨⟩
      by_cases known : ∀ item ∈ items, item.1 ∈ ["expr", "ast"]
      · have listed : items.all (fun item => ["expr", "ast"].contains item.1) = true := by
          simpa only [List.all_eq_true, List.contains_iff_mem] using known
        simp only [validateWhen, listed, if_true, clean_cons, clean_nil, clean_overAll,
          clean_complain, clean_expr, and_true, Bool.not_eq_eq_eq_not, Bool.not_false,
          List.contains_iff_mem, reduceCtorEq, false_or, PyJson.dict.injEq, exists_eq_left']
        constructor
        · rintro ⟨expr, ast, compared, resolved⟩
          exact ⟨known, expr, (guard _).mp ⟨compared, ast⟩, resolved⟩
        · rintro ⟨_, expr, shaped, resolved⟩
          obtain ⟨compared, ast⟩ := (guard _).mpr shaped
          exact ⟨expr, ast, compared, resolved⟩
      · have listed : ¬items.all (fun item => ["expr", "ast"].contains item.1) = true := by
          simpa only [List.all_eq_true, List.contains_iff_mem] using known
        simp only [validateWhen, if_neg listed, clean_complain, Bool.true_eq_false, reduceCtorEq,
          false_or, PyJson.dict.injEq, exists_eq_left', false_iff]
        exact fun shape => known shape.known
  | _ => simp [validateWhen]

theorem clean_participantRef {participants : List String} {participant : PyJson} :
    Clean (validateParticipantRef participants participant place) ↔
      participant = .none ∨ isText participant = true ∧
        (OneOf participant participants) := by
  cases participant with
  | str name =>
      by_cases empty : name = "" <;>
        simp [validateParticipantRef, empty, isText, OneOf, SpecSchema.enum]
  | _ => simp [validateParticipantRef, isText]

theorem clean_effect {declared participants : List String} {effect : PyJson} :
    Clean (validateEffect str declared participants effect place) ↔
      ∃ items, effect = .dict items ∧ EffectShape declared participants items := by
  have memo : ∀ items : Dict, ((has items "memo" && !isText (get items "memo")) = false) ↔
      (has items "memo" = true → isText (get items "memo") = true) := fun items => by
    cases has items "memo" <;> simp
  rw [validateEffect, clean_object]
  refine exists_congr fun items => and_congr_right fun _ => ?_
  simp only [clean_cons, clean_nil, clean_unknownIn, clean_overAll, clean_complain,
    clean_requireIn, clean_when, clean_participantRef, memo, and_true, Bool.not_eq_eq_eq_not,
    Bool.not_false, clean_operand]
  constructor
  · rintro ⟨known, memo, when, kind, texts, participant, operands⟩
    exact ⟨known, memo, when, kind, texts "name" (by simp), texts "ledger" (by simp),
      texts "owner" (by simp), participant, operands⟩
  · rintro ⟨known, memo, when, kind, name, ledger, owner, participant, operands⟩
    exact ⟨known, memo, when, kind, by simp [name, ledger, owner], participant, operands⟩

theorem clean_invariant {invariant : PyJson} : Clean (validateInvariant invariant place) ↔
    ∃ items, invariant = .dict items ∧ eqStr (get items "kind") "balanced" = true ∧
      hasExactly items ["kind"] = true := by
  cases invariant <;> simp [validateInvariant]

theorem clean_participant {participant : PyJson} :
    Clean (validateParticipant participant place) ↔
      ∃ items, participant = .dict items ∧ ParticipantShape items := by
  simp only [validateParticipant, clean_object, clean_cons, clean_nil, clean_unknownIn,
    clean_complain, clean_requireIn, strArray, and_true, Bool.not_eq_eq_eq_not, Bool.not_false,
    participantShape_iff, Known, OneOf]

theorem clean_topology {topology : PyJson} : Clean (validateTopology topology) ↔
    ∃ items, topology = .dict items ∧ TopologyShape items := by
  have pair : ∀ pair place, Clean (validatePair pair place) ↔
      ∃ members, pair = .dict members ∧ PairShape members := by
    intro pair place
    simp only [validatePair, clean_object, clean_cons, clean_nil, clean_unknownIn, clean_overAll,
      clean_complain, and_true, Bool.not_eq_eq_eq_not, Bool.not_false, List.forall_mem_cons,
      List.not_mem_nil, false_imp_iff, implies_true, pairShape_iff, Known, and_assoc]
  cases topology with
  | dict items =>
      simp only [validateTopology, clean_cons, clean_nil, clean_unknownIn, clean_complain, and_true,
        Bool.not_eq_eq_eq_not, Bool.not_false,
        clean_indexed fun element _ place => pair element place, PyJson.dict.injEq,
        exists_eq_left', topologyShape_iff, Known]
  | _ => simp [validateTopology]

theorem clean_source {source : PyJson} :
    Clean (validateSource source place) ↔ SourceShape source := by
  rw [validateSource, clean_complain, SourceShape]
  cases isNone source <;> simp

theorem clean_sourceEntry {entry : PyJson} : Clean (validateSourceEntry entry place) ↔
    ∃ items, entry = .dict items ∧ SourceEntryShape items := by
  have source : ∀ (items : Dict) place, Clean (if has items "source" = true then
      validateSource (get items "source") place else
        complainOf true "spec.missing_field" (place ++ ": missing 'source' (use null if unset)")) ↔
          has items "source" = true ∧ SourceShape (get items "source") := fun items place => by
    cases has items "source" <;> simp [clean_source]
  simp only [validateSourceEntry, clean_object, clean_cons, clean_nil, clean_unknownIn,
    clean_complain, source, and_true, Bool.not_eq_eq_eq_not, Bool.not_false, sourceEntryShape_iff,
    Known]

theorem clean_targetRequirements {requirements : PyJson} :
    Clean (validateTargetRequirements requirements) ↔
      ∃ items, requirements = .dict items ∧ TargetShape items := by
  have fallback : ∀ items : Dict,
      ((!isNone (get items "fallback") && !isText (get items "fallback")) = false) ↔
        isNone (get items "fallback") = true ∨ isText (get items "fallback") = true :=
    fun items => by cases isNone (get items "fallback") <;> simp
  have requirement : ∀ requirement place, Clean (validateRequirement requirement place) ↔
      ∃ members, requirement = .dict members ∧ RequirementShape members := by
    intro requirement place
    simp only [validateRequirement, clean_object, clean_cons, clean_nil, clean_unknownIn,
      clean_overAll, clean_complain, clean_requireIn, clean_source, fallback, and_true,
      Bool.not_eq_eq_eq_not, Bool.not_false, List.forall_mem_cons, List.not_mem_nil, false_imp_iff,
      implies_true, requirementShape_iff, Known, OneOf, and_assoc]
  cases requirements with
  | dict items =>
      simp only [validateTargetRequirements, clean_cons, clean_nil, clean_unknownIn,
        clean_missingIn, clean_complain, clean_requireIn, strArray, and_true,
        Bool.not_eq_eq_eq_not, Bool.not_false,
        clean_indexed fun element _ place => requirement element place, PyJson.dict.injEq,
        exists_eq_left']
      constructor
      · rintro ⟨known, _, array, requirements, style, unsupported⟩
        exact ⟨known, array, requirements, style, unsupported⟩
      · rintro ⟨known, array, requirements, style, unsupported⟩
        refine ⟨known, ?_, array, requirements, style, unsupported⟩
        simp [has_list array, has_enum style, has_texts unsupported]
  | _ => simp [validateTargetRequirements]

end Sections

/-! The lifecycle. -/

@[mk_iff] structure StateShape (items : Dict) : Prop where
  name : isText (get items "name") = true
  terminal : isBool (get items "terminal") = true
  known : Known items ["name", "terminal", "terminalKind"]
  kind : has items "terminalKind" = true →
    OneOf (get items "terminalKind") ["success", "aborted", "contested"] ∧
      truthy (get items "terminal") = true

@[mk_iff] structure GuardShape (items : Dict) : Prop where
  known : Known items ["kind", "detail"]
  kind : OneOf (get items "kind") ["participant", "deadline", "sequence"]
  detail : has items "detail" = true → isStr (get items "detail") = true

@[mk_iff] structure EvidenceShape (items : Dict) : Prop where
  exact : hasExactly items ["style", "chained"] = true
  style : OneOf (get items "style") ["single_hash", "batched_root"]
  chained : isBool (get items "chained") = true

@[mk_iff] structure TransitionShape (states : List String) (items : Dict) : Prop where
  known : Known items ["name", "from", "to", "effects", "guards", "idempotency", "evidence"]
  name : isText (get items "name") = true
  ends : ∀ key ∈ ["from", "to"], OneOf (get items key) states
  idempotency : OneOf (get items "idempotency") ["reject", "noop_on_identical"]
  effectList : isList (get items "effects") = true
  effects : ∀ effect ∈ elementsOf (get items "effects"),
    OneOf effect ["post", "compensate", "reserve", "consume", "release"]
  guardList : isList (get items "guards") = true
  guards : ∀ guard ∈ elementsOf (get items "guards"),
    ∃ members, guard = .dict members ∧ GuardShape members
  evidence : get items "evidence" = .none ∨
    ∃ members, get items "evidence" = .dict members ∧ EvidenceShape members

@[mk_iff] structure InstanceKeyShape (items : Dict) : Prop where
  known : Known items ["fields", "declared"]
  fields : isTexts (get items "fields") = true
  declared : has items "declared" = true → isStr (get items "declared") = true

/-- No terminal state, or a declared one of the kind. -/
def TerminalShape (states : List (String × Dict))
    (terminal : String × PyJson) : Prop :=
  terminal.2 = .none ∨ (∃ name state, terminal.2 = .str name ∧ states.lookup name = some state ∧
    truthy (get state "terminal") = true ∧
    eqStr (get state "terminalKind") terminal.1 = true)

@[mk_iff] structure LifecycleShape (items : Dict) : Prop where
  known : Known items lifecycleFields
  present : ∀ key ∈ lifecycleFields, has items key = true
  instanceKey : ∃ key, get items "instanceKey" = .dict key ∧ InstanceKeyShape key
  stateList : isList (get items "states") = true
  transitionList : isList (get items "transitions") = true
  states : ∀ state ∈ elementsOf (get items "states"),
    ∃ members, state = .dict members ∧ StateShape members
  initial : OneOf (get items "initialState") (stateNames items)
  transitions : ∀ transition ∈ elementsOf (get items "transitions"),
    ∃ members, transition = .dict members ∧
      TransitionShape (stateNames items) members
  deadEnds : ∀ state ∈ declaredStates items, truthy (get state.2 "terminal") = true ∨
    state.1 ∈ leftStates (elementsOf (get items "transitions"))
  terminals : ∃ terminals, get items "terminalStates" = .dict terminals ∧
    hasExactly terminals ["success", "aborted", "contested"] = true ∧
    ∀ terminal ∈ terminals, TerminalShape (declaredStates items) terminal

section Lifecycle

variable {str repr : PyJson → String} {place : String}

theorem clean_state {state : PyJson} : Clean (validateState state place) ↔
    ∃ items, state = .dict items ∧ StateShape items := by
  cases state with
  | dict items =>
      simp only [validateState, PyJson.dict.injEq, exists_eq_left']
      by_cases named : (isText (get items "name") && isBool (get items "terminal")) = true
      · have terminalKind : Clean (if has items "terminalKind" = true then all [
            requireIn (get items "terminalKind") ["success", "aborted", "contested"]
              "spec.terminal_kind" (place ++ ": terminalKind invalid"),
            complainOf (!truthy (get items "terminal")) "spec.bad_terminal_state"
              (place ++ ": terminalKind on a non-terminal state")] else all []) ↔
            (has items "terminalKind" = true →
              OneOf (get items "terminalKind") ["success", "aborted", "contested"] ∧
                truthy (get items "terminal") = true) := by
          cases has items "terminalKind" <;> simp [OneOf]
        rw [if_pos named]
        rw [Bool.and_eq_true] at named
        simp only [clean_cons, clean_nil, clean_unknownIn, terminalKind, and_true, stateShape_iff,
          named.1, named.2, true_and, Known]
      · rw [if_neg named]
        simp only [clean_complain, Bool.true_eq_false, false_iff]
        rintro ⟨name, terminal, _, _⟩
        simp [name, terminal] at named
  | _ => simp [validateState]

theorem clean_guard {guard : PyJson} : Clean (validateGuard guard place) ↔
    ∃ items, guard = .dict items ∧ GuardShape items := by
  cases guard with
  | dict items =>
      have shaped : isGuard (.dict items) = .ok true ↔ Known items ["kind", "detail"] ∧
          OneOf (get items "kind") ["participant", "deadline", "sequence"] := by
        simp only [isGuard, List.all_eq_true, List.contains_iff_mem, OneOf]
        by_cases known : ∀ item ∈ items, item.1 ∈ ["kind", "detail"]
        · have known' : Known items ["kind", "detail"] := known
          rw [if_pos known]
          simp only [known', true_and]
          cases get items "kind" <;> simp [memberOf, SpecSchema.enum]
        · rw [if_neg known]
          simp only [Known, known, false_and, Except.ok.injEq, Bool.false_eq_true]
      have detail : (has items "detail" && !isStr (get items "detail")) = false ↔
          (has items "detail" = true → isStr (get items "detail") = true) := by
        cases has items "detail" <;> simp
      simp [validateGuard, shaped, detail, guardShape_iff, and_assoc]
  | _ => simp [validateGuard, isGuard, after]

theorem clean_evidence {evidence : PyJson} :
    Clean (after (isEvidence evidence) fun shaped => complainOf (!shaped) "spec.schema"
      (place ++ ": evidence must be null or \x7bstyle, chained\x7d")) ↔
        evidence = .none ∨ ∃ items, evidence = .dict items ∧ EvidenceShape items := by
  have shaped : isEvidence evidence = .ok true ↔
      evidence = .none ∨ ∃ items, evidence = .dict items ∧ EvidenceShape items := by
    cases evidence with
    | dict items =>
        simp only [isEvidence, reduceCtorEq, false_or, PyJson.dict.injEq, exists_eq_left',
          evidenceShape_iff]
        by_cases exact : hasExactly items ["style", "chained"] = true
        · rw [if_pos exact]
          cases get items "style" <;>
            simp [exact, memberOf, SpecSchema.enum, OneOf, Except.map]
        · simp [exact]
    | _ => simp [isEvidence]
  simp [← shaped]

theorem clean_transition {states : List String} {transition : PyJson} :
    Clean (validateTransition str states transition place) ↔
      ∃ items, transition = .dict items ∧ TransitionShape states items := by
  rw [validateTransition, clean_object]
  refine exists_congr fun items => and_congr_right fun _ => ?_
  have guards := @clean_indexed validateGuard (place ++ ".guards")
    (elementsOf (get items "guards")) _ fun element _ place => clean_guard
  simp only [clean_cons, clean_nil, clean_unknownIn, clean_complain, clean_requireIn,
    clean_evidence, guards, and_true, Bool.not_eq_eq_eq_not, Bool.not_false, transitionShape_iff,
    Known, OneOf]
  simp only [clean_overAll, clean_requireIn]

theorem clean_terminal {states : List (String × Dict)} {terminal : String × PyJson} :
    Clean (validateTerminal str repr states terminal) ↔ TerminalShape states terminal := by
  obtain ⟨kind, value⟩ := terminal
  cases value with
  | str name =>
      simp only [validateTerminal, TerminalShape, reduceCtorEq, false_or, PyJson.str.injEq,
        exists_and_left, exists_eq_left']
      cases found : states.lookup name with
      | none => simp
      | some state => cases held : truthy (PyJson.get state "terminal") <;> simp [held]
  | none => simp [validateTerminal, TerminalShape]
  | list elements => simp [validateTerminal, TerminalShape, memberOf, after, Clean]
  | dict items => simp [validateTerminal, TerminalShape, memberOf, after, Clean]
  | _ => simp [validateTerminal, TerminalShape, memberOf, after]

theorem clean_instanceKey {instanceKey : PyJson} : Clean (validateInstanceKey instanceKey) ↔
    ∃ items, instanceKey = .dict items ∧ InstanceKeyShape items := by
  cases instanceKey with
  | dict items =>
      have declared : (has items "declared" && !isStr (get items "declared")) = false ↔
          (has items "declared" = true → isStr (get items "declared") = true) := by
        cases has items "declared" <;> simp
      have listed : items.all (fun item => ["fields", "declared"].contains item.1) = true ↔
          Known items ["fields", "declared"] := by
        simp only [List.all_eq_true, List.contains_iff_mem, Known]
      simp only [validateInstanceKey, PyJson.dict.injEq, exists_eq_left', instanceKeyShape_iff]
      by_cases known : Known items ["fields", "declared"]
      · rw [if_pos (listed.mpr known)]
        simp [known, strArray, declared]
      · rw [if_neg (mt listed.mp known)]
        simp [known]
  | _ => simp [validateInstanceKey]

theorem clean_lifecycle {lifecycle : PyJson} :
    Clean (validateLifecycle str repr lifecycle) ↔
      ∃ items, lifecycle = .dict items ∧ LifecycleShape items := by
  cases lifecycle with
  | dict items =>
      have terminals : Clean (validateTerminalStates str repr (declaredStates items)
          (get items "terminalStates")) ↔
            ∃ terminals, get items "terminalStates" = .dict terminals ∧
            hasExactly terminals ["success", "aborted", "contested"] = true ∧
            ∀ terminal ∈ terminals, TerminalShape (declaredStates items) terminal := by
        cases get items "terminalStates" with
        | dict terminals =>
            by_cases exact : hasExactly terminals ["success", "aborted", "contested"] = true <;>
              simp [validateTerminalStates, exact, clean_terminal]
        | _ => simp [validateTerminalStates]
      have states : Clean (overAll (fun state => validateState state.1 state.2)
          (indexed "lifecycle.states" (elementsOf (get items "states")))) ↔
            ∀ state ∈ elementsOf (get items "states"),
              ∃ members, state = .dict members ∧ StateShape members :=
        clean_indexed fun element _ place => clean_state
      have transitions : Clean (overAll (fun transition =>
          validateTransition str (stateNames items) transition.1 transition.2)
            (indexed "lifecycle.transitions" (elementsOf (get items "transitions")))) ↔
              ∀ transition ∈ elementsOf (get items "transitions"),
                ∃ members, transition = .dict members ∧
                  TransitionShape (stateNames items) members :=
        clean_indexed fun element _ place => clean_transition
      have deadEnd : ∀ state : String × Dict, Clean (validateDeadEnd
          (leftStates (elementsOf (get items "transitions"))) state) ↔
            truthy (get state.2 "terminal") = true ∨
              state.1 ∈ leftStates (elementsOf (get items "transitions")) := by
        intro state
        rw [validateDeadEnd, clean_complain]
        cases truthy (get state.2 "terminal") <;> simp
      simp only [validateLifecycle, clean_cons, clean_nil, clean_unknownIn, clean_missingIn,
        clean_complain, clean_requireIn, clean_instanceKey, terminals, states, transitions,
        and_true, Bool.not_eq_eq_eq_not, Bool.not_false, PyJson.dict.injEq, exists_eq_left',
        lifecycleShape_iff, Known, OneOf]
      simp only [clean_overAll, deadEnd]
  | _ => simp [validateLifecycle]

end Lifecycle

/-! The document. -/

@[mk_iff] structure IdentityShape (items : Dict) : Prop where
  exact : hasExactly items ["capabilityHash", "specHash"] = true
  capability : isHexDigest (get items "capabilityHash") = true
  whole : isHexDigest (get items "specHash") = true

@[mk_iff] structure SpecShape (spec : Dict) : Prop where
  known : Known spec (topFields ++ optionalTopFields)
  present : ∀ key ∈ topFields, has spec key = true
  attestations : has spec "attestations" = true → isList (get spec "attestations") = true ∧
    ∀ policy ∈ elementsOf (get spec "attestations"),
      ∃ items, policy = .dict items ∧ AttestationShape items
  obligations : has spec "obligations" = true → isList (get spec "obligations") = true ∧
    ∀ obligation ∈ elementsOf (get spec "obligations"),
      ∃ items, obligation = .dict items ∧ ObligationShape items
  version : eqInt (get spec "schemaVersion") (expectedVersion spec) = true
  kind : eqStr (get spec "kind") "neutrino.capability-spec" = true
  semver : isSemver (get spec "specVersion") = true
  procedure : isText (get spec "procedure") = true
  trigger : isNone (get spec "trigger") = true ∨ isText (get spec "trigger") = true
  identity : ∃ items, get spec "identity" = .dict items ∧ IdentityShape items
  arrays : ∀ key ∈ arraySections, has spec key = true → isList (get spec key) = true
  inputs : ∀ input ∈ elementsOf (get spec "inputs"), ∃ items, input = .dict items ∧ InputShape items
  computes : ∀ compute ∈ elementsOf (get spec "computes"),
    ∃ items, compute = .dict items ∧ ComputeShape (SpecValidator.declaredNames spec) items
  effects : ∀ effect ∈ elementsOf (get spec "effects"), ∃ items, effect = .dict items ∧
    EffectShape (SpecValidator.declaredNames spec)
      (namesOf (elementsOf (get spec "participants"))) items
  invariants : ∀ invariant ∈ elementsOf (get spec "invariants"), ∃ items,
    invariant = .dict items ∧ eqStr (get items "kind") "balanced" = true ∧
      hasExactly items ["kind"] = true
  participants : ∀ participant ∈ elementsOf (get spec "participants"),
    ∃ items, participant = .dict items ∧ ParticipantShape items
  topology : ∃ items, get spec "topology" = .dict items ∧ TopologyShape items
  sourceMap : ∀ entry ∈ elementsOf (get spec "sourceMap"),
    ∃ items, entry = .dict items ∧ SourceEntryShape items
  lifecycle : ∃ items, get spec "lifecycle" = .dict items ∧ LifecycleShape items
  target : ∃ items, get spec "targetRequirements" = .dict items ∧ TargetShape items

section Document

variable {str repr : PyJson → String}

theorem clean_identity {identity : PyJson} : Clean (validateIdentity identity) ↔
    ∃ items, identity = .dict items ∧ IdentityShape items := by
  cases identity with
  | dict items =>
      simp only [validateIdentity, PyJson.dict.injEq, exists_eq_left', identityShape_iff]
      split <;> simp [*]
  | _ => simp [validateIdentity]

/-- An optional section. -/
theorem clean_section {spec : Dict} {section' : String} {review : PyJson → String → Check}
    {shape : Dict → Prop} (same : ∀ element place,
      Clean (review element place) ↔ ∃ items, element = .dict items ∧ shape items) :
    Clean (validateSection spec section' review) ↔
      (has spec section' = true → isList (get spec section') = true ∧
        ∀ element ∈ elementsOf (get spec section'),
          ∃ items, element = .dict items ∧ shape items) := by
  have elements : Clean (overAll (fun element => review element.1 element.2)
      (indexed section' (elementsOf (get spec section')))) ↔
        ∀ element ∈ elementsOf (get spec section'), ∃ items, element = .dict items ∧ shape items :=
    clean_indexed fun element _ place => same element place
  rw [validateSection]
  by_cases present : has spec section' = true
  · rw [if_pos present]
    by_cases array : isList (get spec section') = true
    · rw [if_pos array, elements]
      simp [present, array]
    · rw [if_neg array]
      simp [present, array]
  · rw [if_neg present]
    simp [present]

theorem clean_shape {spec : Dict} :
    Clean (validateShape str repr spec) ↔ SpecShape spec := by
  have elements : ∀ (section' : String) (review : PyJson → String → Check)
      (shape : Dict → Prop), (∀ element place,
        Clean (review element place) ↔ ∃ items, element = .dict items ∧ shape items) →
      (Clean (validateElements spec section' review) ↔
        ∀ element ∈ elementsOf (get spec section'), ∃ items, element = .dict items ∧ shape items) :=
    fun section' review shape same => clean_indexed fun element _ place => same element place
  have known : Clean (overAll (fun item => complainOf
      (!(topFields ++ optionalTopFields).contains item.1) "spec.unknown_field"
        ("top-level: unknown field '" ++ item.1 ++ "'")) spec) ↔
          Known spec (topFields ++ optionalTopFields) := by
    simp only [clean_overAll, clean_complain, Bool.not_eq_eq_eq_not, Bool.not_false,
      List.contains_iff_mem, Known]
  have trigger : (!isNone (get spec "trigger") && !isText (get spec "trigger")) = false ↔
      isNone (get spec "trigger") = true ∨ isText (get spec "trigger") = true := by
    cases isNone (get spec "trigger") <;> simp
  have arrays : Clean (overAll (fun key => complainOf
      (has spec key && !isList (get spec key)) "spec.schema" (key ++ " must be an array"))
        arraySections) ↔
          ∀ key ∈ arraySections, has spec key = true → isList (get spec key) = true := by
    rw [clean_overAll]
    refine forall₂_congr fun key _ => ?_
    rw [clean_complain]
    cases has spec key <;> simp
  simp only [validateShape, clean_cons, clean_nil, known, clean_missingIn, clean_complain, trigger,
    clean_section fun element place => clean_attestation,
    clean_section fun element place => clean_obligation, clean_identity, arrays,
    elements "inputs" _ _ fun element place => clean_input,
    elements "computes" _ _ fun element place => clean_compute,
    elements "effects" _ _ fun element place => clean_effect,
    elements "invariants" _ _ fun element place => clean_invariant,
    elements "participants" _ _ fun element place => clean_participant, clean_topology,
    elements "sourceMap" _ _ fun element place => clean_sourceEntry, clean_lifecycle,
    clean_targetRequirements, and_true, Bool.not_eq_eq_eq_not, Bool.not_false, specShape_iff]

end Document

/-! The verdict. -/

section Verdict

variable {str repr : PyJson → String} {float : Rat → String} {sha256Hex : List UInt8 → String}

/-- The hashes of a document whose identity declares some. -/
theorem clean_hashes {spec identity : Dict} (identified : get spec "identity" = .dict identity) :
    Clean (checkHashes float sha256Hex spec) ↔
      get identity "capabilityHash" = .str (digest float sha256Hex (.dict (semanticItems spec))) ∧
        get identity "specHash" = .str (digest float sha256Hex
          (.dict (specItems spec (get identity "capabilityHash")))) := by
  simp only [checkHashes, identified, clean_cons, clean_nil, clean_complain, and_true,
    Bool.not_eq_eq_eq_not, Bool.not_false, eqStr_iff]

/-- A document without diagnostics has the shape and the hashes. -/
theorem validate_nil {spec : PyJson} : validate str repr float sha256Hex spec = .ok [] ↔
    ∃ items, spec = .dict items ∧ SpecShape items ∧
      Clean (checkHashes float sha256Hex items) := by
  cases spec with
  | dict items =>
      have shape := @clean_shape str repr items
      simp only [validate, PyJson.dict.injEq, exists_eq_left', ← shape, clean_iff, Checked.bind_ok,
        Checked.pure_ok]
      constructor
      · rintro ⟨found, reviewed, hashes, hashed, sorted⟩
        have nothing : found ++ hashes = [] := by
          rw [← List.length_eq_zero_iff, ← List.length_mergeSort, sorted, List.length_nil]
        obtain ⟨rfl, rfl⟩ := List.append_eq_nil_iff.mp nothing
        exact ⟨reviewed, hashed⟩
      · rintro ⟨reviewed, hashed⟩
        exact ⟨[], reviewed, [], hashed, by simp⟩
  | _ => simp [validate]

end Verdict

/-! Accepted documents. -/

/-- A transition of a lifecycle leads from one state to another. -/
def Moves (lifecycle : Dict) (state next : String) : Prop :=
  ∃ transition, .dict transition ∈ elementsOf (get lifecycle "transitions") ∧
    get transition "from" = .str state ∧ get transition "to" = .str next

def IsTerminal (lifecycle : Dict) (state : String) : Prop :=
  ∃ members, (state, members) ∈ declaredStates lifecycle ∧ truthy (get members "terminal") = true

/-- From the initial state transitions lead to declared states only, and out of each of them that is
not terminal. -/
def Closed (lifecycle : Dict) : Prop :=
  ∃ initial, get lifecycle "initialState" = .str initial ∧
    ∀ state, Relation.ReflTransGen (Moves lifecycle) initial state →
      state ∈ stateNames lifecycle ∧
        (IsTerminal lifecycle state ∨ ∃ next, Moves lifecycle state next)

/-- The hashes that a document declares are those of its contents. -/
def Sealed (float : Rat → String) (sha256Hex : List UInt8 → String) (spec : Dict) : Prop :=
  ∃ identity, get spec "identity" = .dict identity ∧
    get identity "capabilityHash" = .str (digest float sha256Hex (.dict (semanticItems spec))) ∧
    get identity "specHash" = .str (digest float sha256Hex
      (.dict (specItems spec (get identity "capabilityHash"))))

theorem oneOf_iff {value : PyJson} {names : List String} :
    OneOf value names ↔ ∃ name ∈ names, value = .str name := by
  cases value <;> simp [OneOf, SpecSchema.enum]

section Lifecycle

variable {lifecycle : Dict} (shape : LifecycleShape lifecycle)

include shape

theorem moves_declared {state next : String} (moved : Moves lifecycle state next) :
    next ∈ stateNames lifecycle := by
  obtain ⟨transition, listed, _, ending⟩ := moved
  obtain ⟨members, same, ends⟩ := shape.transitions _ listed
  cases same
  obtain ⟨name, declared, named⟩ := oneOf_iff.mp (ends.ends "to" (by decide))
  rw [ending, PyJson.str.injEq] at named
  rwa [named]

theorem leftState_moves {state : String}
    (left : state ∈ leftStates (elementsOf (get lifecycle "transitions"))) :
    ∃ next, Moves lifecycle state next := by
  obtain ⟨transition, listed, starts⟩ := List.mem_filterMap.mp left
  obtain ⟨members, rfl, ends⟩ := shape.transitions transition listed
  obtain ⟨next, _, ending⟩ := oneOf_iff.mp (ends.ends "to" (by decide))
  refine ⟨next, members, listed, ?_, ending⟩
  cases starting : get members "from" <;> simp_all

/-- A declared state is terminal or left by a transition. -/
theorem declared_moves {state : String} (declared : state ∈ stateNames lifecycle) :
    IsTerminal lifecycle state ∨ ∃ next, Moves lifecycle state next := by
  obtain ⟨entry, listed, rfl⟩ := List.mem_map.mp declared
  obtain terminal | left := shape.deadEnds entry listed
  · exact .inl ⟨entry.2, listed, terminal⟩
  · exact .inr (leftState_moves shape left)

theorem lifecycle_closed : Closed lifecycle := by
  obtain ⟨name, declared, named⟩ := oneOf_iff.mp shape.initial
  refine ⟨name, named, fun state reached => ?_⟩
  have stays : state ∈ stateNames lifecycle := by
    induction reached with
    | refl => exact declared
    | tail _ moved _ => exact moves_declared shape moved
  exact ⟨stays, declared_moves shape stays⟩

end Lifecycle

/-- A document has no diagnostic exactly where it has the shape of the contract and declares its own
hashes, and the runs of its lifecycle then neither leave the declared states nor get stuck. -/
theorem accepted_exactly {str repr : PyJson → String} {float : Rat → String}
    {sha256Hex : List UInt8 → String} {spec : PyJson} :
    validate str repr float sha256Hex spec = .ok [] ↔
      ∃ items lifecycle, spec = .dict items ∧ SpecShape items ∧ Sealed float sha256Hex items ∧
        get items "lifecycle" = .dict lifecycle ∧ Closed lifecycle := by
  have hashed : ∀ {items : Dict}, SpecShape items →
      (Clean (checkHashes float sha256Hex items) ↔ Sealed float sha256Hex items) := by
    intro items shape
    obtain ⟨identity, identified, _⟩ := shape.identity
    simp [clean_hashes identified, Sealed, identified]
  rw [validate_nil]
  constructor
  · rintro ⟨items, rfl, shape, hashes⟩
    obtain ⟨lifecycle, given, cycle⟩ := shape.lifecycle
    exact ⟨items, lifecycle, rfl, shape, (hashed shape).mp hashes, given, lifecycle_closed cycle⟩
  · rintro ⟨items, _, rfl, shape, sealed', _, _⟩
    exact ⟨items, rfl, shape, (hashed shape).mpr sealed'⟩

end Neutrino.SpecShapes
