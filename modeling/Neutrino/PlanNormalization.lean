import Neutrino.CapabilitySpec
import Neutrino.ModuleVerifier
import Neutrino.PlanChecks

/-! The normalization of a verified procedure: its plan inputs, and when a plan is assembled of
them. -/

namespace Neutrino

open CapabilitySpec Checked

/-! The plan inputs of a view. -/

def Ref.operandKey (ref : Ref) : String := (if ref.isLit then "literal:" else "ref:") ++ ref.text

def effectInput (entry : EntryView) : PlanEffectInput where
  name := entry.name
  kind := entry.kind
  participant := entry.participant
  idempotencyKind := if entry.idempotencyKey.isLit then "literal" else "ref"
  idempotencyValue := entry.idempotencyKey.text
  canonicalGuard := entry.guard
  guardAcceptedInput := acceptedInput entry.guardAst
  amount := entry.amount.operandKey
  currency := entry.currency.operandKey
  ledger := entry.ledger
  party := entry.party.operandKey
  memo := entry.memo
  guard := entry.guardAst

def planCompute (compute : ComputeView) : PlanCompute where
  name := compute.name
  category := categoryName compute.ast.dtype
  deps := compute.deps
  expr := some compute.ast

def obligationInput (obligation : ObligationView) : PlanObligationInput where
  version := kObligationPlanVersion
  name := obligation.name
  obligor := obligation.obligor
  beneficiary := obligation.beneficiary
  authority := obligation.authority
  canonicalGuard := obligation.when
  when := obligation.whenAst
  effects := obligation.effects

def transitionPolicy (transition : LifecycleTransition) : LifecycleTransitionPolicy where
  name := transition.name
  «from» := transition.source
  «to» := transition.target
  effects := transition.effects
  guards := []
  idempotency := transition.idempotency
  evidence := none

def planInputs (view : ProcedureView) : PlanInputs :=
  let model := lifecycleModel view
  { procedure := view.name
    invokedEvent := view.trigger.getD ""
    inputs := view.inputs.map fun input => ⟨input.1, input.2⟩
    participants := view.participants.map fun participant =>
      ⟨participant.name, participant.role, participant.org⟩
    allowedOrgPairs := view.allowedOrgPairs.map fun pair =>
      ⟨pair.orgA, pair.orgB, pair.roleA, pair.roleB⟩
    effects := view.entries.map effectInput
    computes := view.computes.map planCompute
    attestations := view.attestations
    balanced := view.balanced
    terminal := ⟨model.successState, model.abortedState, model.contestedState⟩
    lifecycleInitialState := model.initialState
    lifecycleStates := model.states.map (·.name)
    lifecycleTransitions := model.transitions.map transitionPolicy
    obligations := view.obligations.map obligationInput
    explicitInstanceKey := view.instanceKey.getD "" }

def normalizePlan (view : ProcedureView) : Except String CoordinationPlan :=
  assemblePlan (planInputs view)

/-- The lifecycle machine of any procedure is a lifecycle. -/
theorem lifecycle_checks (view : ProcedureView) : checkLifecycle (planInputs view) = .ok () := by
  have checks : ∀ model : LifecycleModel, (lifecycleModel view = model) →
      (∃ fields escalate, model = quorumModel fields escalate) ∨
        (∃ fields, model = openCloseModel fields) := by
    rintro model rfl
    unfold lifecycleModel
    split
    · exact .inl ⟨_, _, rfl⟩
    · exact .inr ⟨_, rfl⟩
  rcases checks _ rfl with ⟨fields, escalate, same⟩ | ⟨fields, same⟩
  · cases escalate <;>
      simp [checkLifecycle, planInputs, same, quorumModel, transitionPolicy, checkTransition,
        checkTerminal, requirePlan, each, check_ok, isLifecycleEffect, checkEvidence, require]
  · simp [checkLifecycle, planInputs, same, openCloseModel, transitionPolicy, checkTransition,
        checkTerminal, requirePlan, each, check_ok, isLifecycleEffect, checkEvidence, require]

/-! What the verifiers leave open. -/

/-- Every position of the first name comes before every position of the second. -/
def Precedes (entries : List EntryView) (first second : String) : Prop :=
  ∀ (index later : Nat) (entry other : EntryView), entries[index]? = some entry →
    entry.name = first → entries[later]? = some other → other.name = second → index < later

/-- What a verified procedure still needs for a plan. -/
structure Normal (view : ProcedureView) : Prop where
  few : view.participants.length ≤ kMaxCanonicalAuthorizationParticipants
  named : ∀ participant ∈ view.participants, participant.name ≠ ""
  distinct : (view.participants.map (·.name)).Nodup
  actors : ((view.participants.filter (·.org ≠ "")).map fun participant =>
    (participant.org, participant.role)).Nodup
  organizations : ∀ pair ∈ view.allowedOrgPairs, pair.orgA ≠ "" ∧ pair.orgB ≠ "" ∧
    (∃ participant ∈ view.participants, participant.org = pair.orgA) ∧
    ∃ participant ∈ view.participants, participant.org = pair.orgB
  pairs : (view.allowedOrgPairs.map fun pair =>
    orderedEdge ⟨pair.orgA, pair.orgB, pair.roleA, pair.roleB⟩).Nodup
  keyType : view.instanceKey.getD "" ≠ "" → ∀ input,
    view.inputs.find? (·.1 = view.instanceKey.getD "") = some input →
      classifyValueType input.2 = .string
  keys : view.instanceKey.getD "" = "" → ∀ first ∈ view.entries,
    first.idempotencyKey.isLit = false ∧ first.idempotencyKey.text ≠ "" ∧
      ∀ second ∈ view.entries, first.idempotencyKey.text = second.idempotencyKey.text
  legs : ∀ entry ∈ view.entries, (view.participants = [] ∧ entry.participant = "") ∨
    ∃ participant ∈ view.participants, participant.name = entry.participant
  declared : ∀ entry ∈ view.entries, acceptedInput entry.guardAst ≠ "" →
    ∃ policy ∈ view.attestations, policy.input = acceptedInput entry.guardAst
  gates : (∃ entry ∈ view.entries, acceptedInput entry.guardAst ≠ "") →
    (∀ entry ∈ view.entries, acceptedInput entry.guardAst ≠ "") ∧
    ∀ policy ∈ view.attestations, ∃ entry ∈ view.entries,
      acceptedInput entry.guardAst = policy.input
  obligations : (view.obligations.map (·.name)).Nodup
  text : ∀ obligation ∈ view.obligations, obligation.when ≠ ""
  guards : ∀ obligation ∈ view.obligations, ∀ entry ∈ view.entries,
    entry.name ∈ obligation.effects →
      canonicalGuardKey entry.guardAst = canonicalGuardKey obligation.whenAst
  order : ∀ obligation ∈ view.obligations,
    obligation.effects.Pairwise (Precedes view.entries)

/-! What the verifiers establish. -/

theorem hasText_ne_empty {text : String} (held : hasText text = true) : text ≠ "" := by
  rintro rfl
  simp [hasText, SourceLines.trim] at held

theorem viewed_fst {α : Type} (take : Op → Option α) (body : List Located) :
    (viewed take body).map (·.1) = body.filterMap fun located => take located.op := by
  rw [viewed, List.map_filterMap]
  refine List.filterMap_congr fun located _ => ?_
  cases take located.op <;> rfl

section Entries

variable (body : List Located)

def entryOps : List EntryView := body.filterMap fun located => entryView located.op

theorem debit_entries : (entryOps body).filter (fun entry => (entry.kind == "debit") == true) =
    (body.filterMap fun located => debitOf located.op).map (buildEntry "debit") := by
  induction body with
  | nil => rfl
  | cons first rest ih =>
      obtain ⟨op, line⟩ := first
      cases op <;> simpa [entryOps, entryView, debitOf, buildEntry] using ih

theorem credit_entries : (entryOps body).filter (fun entry => (entry.kind == "debit") == false) =
    (body.filterMap fun located => creditOf located.op).map (buildEntry "credit") := by
  induction body with
  | nil => rfl
  | cons first rest ih =>
      obtain ⟨op, line⟩ := first
      cases op <;> simpa [entryOps, entryView, creditOf, buildEntry] using ih

end Entries

theorem mem_entries {proc : ProcedureOp} {view : EntryView} :
    view ∈ (viewOf proc).entries ↔ (∃ entry ∈ proc.debits, view = buildEntry "debit" entry) ∨
      ∃ entry ∈ proc.credits, view = buildEntry "credit" entry := by
  change view ∈ (viewed entryView proc.body).map (·.1) ↔ _
  rw [viewed_fst]
  simp only [ProcedureOp.debits, ProcedureOp.credits, List.mem_filterMap]
  constructor
  · rintro ⟨⟨op, line⟩, placed, took⟩
    cases op <;> simp only [entryView, Option.some.injEq, reduceCtorEq] at took
    · exact .inl ⟨_, ⟨_, placed, rfl⟩, took.symm⟩
    · exact .inr ⟨_, ⟨_, placed, rfl⟩, took.symm⟩
  · rintro (⟨entry, ⟨⟨op, line⟩, placed, took⟩, rfl⟩ | ⟨entry, ⟨⟨op, line⟩, placed, took⟩, rfl⟩)
    · refine ⟨_, placed, ?_⟩
      cases op <;> simp only [debitOf, Option.some.injEq, reduceCtorEq] at took
      rw [took, entryView]
    · refine ⟨_, placed, ?_⟩
      cases op <;> simp only [creditOf, Option.some.injEq, reduceCtorEq] at took
      rw [took, entryView]

section Accepted

variable {parse : Bool → String → Except ExprError ExprNode} {proc : ProcedureOp}
  (accepted : proc.Accepted parse)

include accepted

/-- An entry's guard has the key that the balance check gives it. -/
theorem entry_guardKey {entry : EntryOp} (kind : String)
    (own : entry ∈ proc.debits ∨ entry ∈ proc.credits) :
    canonicalGuardKey (buildEntry kind entry).guardAst = guardOf entry := by
  have verified : verifyEntryOp parse (procEnv proc) entry = .ok () := by
    rcases own with listed | listed <;>
      obtain ⟨⟨op, line⟩, placed, took⟩ := List.mem_filterMap.mp listed <;>
      have verified := accepted.operations _ placed <;>
      cases op <;> simp only [debitOf, creditOf, Option.some.injEq, reduceCtorEq] at took <;>
      exact took ▸ verified
  simp only [verifyEntryOp, check_ok, require_ok] at verified
  obtain ⟨_, both, checked⟩ := verified
  cases ast : entry.guardAst with
  | none => cases text : entry.guard <;> simp [buildEntry, guardOf, ast, canonicalGuardKey]
  | some attr =>
      rw [ast] at checked both
      obtain ⟨text, present⟩ := Option.isSome_iff_exists.mp both
      simp only [verifyTypedExpr, bind_ok] at checked
      obtain ⟨_, _, _, bijection, _⟩ := checked
      rw [verifyDepBijection, check_ok] at bijection
      simp only [buildEntry, guardOf, ast, present, Option.bind_some, Option.map_some,
        canonicalGuardKey, refOf_depSymbols bijection.1]

end Accepted

/-! Balance. -/

/-- The plan's identity of an operand, of the one the verifier compares. -/
def planKey (key : String) : String :=
  match key.toList with
  | 'l' :: 'i' :: 't' :: ':' :: text => "literal:" ++ String.ofList text
  | ['s', 's', 'a'] => "ref:?"
  | _ => key

theorem planKey_operandKey (value : Value) :
    planKey value.operandKey = (refOf value).operandKey := by
  cases value <;> simp [planKey, Value.operandKey, refOf, Ref.operandKey]

theorem moved_side {kind key : String} {ops : List EntryOp}
    (own : ∀ entry ∈ ops, canonicalGuardKey (buildEntry kind entry).guardAst = guardOf entry) :
    (((ops.map (buildEntry kind)).map effectInput).filter fun effect =>
      canonicalGuardKey effect.guard = key).map (fun effect => (effect.amount, effect.currency)) =
      ((ops.map guardedFlow).filter fun moved => moved.1 = key).map fun moved =>
        (planKey moved.2.1, planKey moved.2.2) := by
  induction ops with
  | nil => rfl
  | cons entry rest ih =>
      obtain ⟨here, later⟩ := List.forall_mem_cons.mp own
      have guard : canonicalGuardKey (effectInput (buildEntry kind entry)).guard = guardOf entry :=
        here
      have identity : ((effectInput (buildEntry kind entry)).amount,
          (effectInput (buildEntry kind entry)).currency) =
            (planKey (guardedFlow entry).2.1, planKey (guardedFlow entry).2.2) := by
        simp only [guardedFlow, flow, planKey_operandKey]
        rfl
      have key' : (guardedFlow entry).1 = guardOf entry := rfl
      simp only [List.map_cons, List.filter_cons, guard, key']
      split
      · rw [List.map_cons, List.map_cons, identity, ih later]
      · exact ih later

/-- What one side of a verified procedure moves, in the plan's terms. -/
theorem movedUnder_side {proc : ProcedureOp} {debit : Bool} {kind key : String}
    {ops : List EntryOp}
    (side : (entryOps proc.body).filter (fun entry => (entry.kind == "debit") == debit) =
      ops.map (buildEntry kind))
    (own : ∀ entry ∈ ops, canonicalGuardKey (buildEntry kind entry).guardAst = guardOf entry) :
    movedUnder (planInputs (viewOf proc)) key debit =
      ((ops.map guardedFlow : Multiset (String × String × String)).filter fun moved =>
        moved.1 = key).map fun moved => (planKey moved.2.1, planKey moved.2.2) := by
  have entries : (planInputs (viewOf proc)).effects = (entryOps proc.body).map effectInput :=
    congrArg (List.map effectInput) (viewed_fst entryView proc.body)
  have kinds : ((entryOps proc.body).map effectInput).filter
      (fun effect => (effect.kind == "debit") == debit) =
        (ops.map (buildEntry kind)).map effectInput := by
    rw [List.filter_map, ← side]
    rfl
  rw [movedUnder, entries, List.filter_comm, kinds, moved_side own]
  rfl

theorem verified_moved {parse : Bool → String → Except ExprError ExprNode} {proc : ProcedureOp}
    (accepted : proc.Accepted parse) (key : String) :
    movedUnder (planInputs (viewOf proc)) key true =
      movedUnder (planInputs (viewOf proc)) key false := by
  rw [movedUnder_side (debit_entries proc.body) fun entry listed =>
      entry_guardKey accepted "debit" (.inl listed),
    movedUnder_side (credit_entries proc.body) fun entry listed =>
      entry_guardKey accepted "credit" (.inr listed)]
  have verified := accepted.procedure
  simp only [ProcedureOp.verify, check_ok] at verified
  obtain ⟨_, _, verified⟩ := verified
  split at verified
  · rename_i effectless
    have debits : (proc.body.filterMap fun located => debitOf located.op) = [] := effectless.1
    have credits : (proc.body.filterMap fun located => creditOf located.op) = [] := effectless.2
    rw [debits, credits]
  · simp only [verifyBalance, check_ok, require_ok] at verified
    have same := verified.2.2.2
    rw [ProcedureOp.debits, ProcedureOp.credits] at same
    rw [same]

/-! The key. -/

theorem idemRef_ref {entry : EntryOp} (keyed : idemRef entry ≠ "") :
    refOf entry.idempotencyKey = ⟨false, idemRef entry⟩ := by
  cases key : entry.idempotencyKey <;> simp_all [idemRef, refOf]

section Key

variable {parse : Bool → String → Except ExprError ExprNode} {proc : ProcedureOp}
  (accepted : proc.Accepted parse)

include accepted

/-- A declared key is a declared input that every entry keys on. -/
theorem verified_key (keyed : (viewOf proc).instanceKey.getD "" ≠ "") :
    (∃ input ∈ (viewOf proc).inputs, input.1 = (viewOf proc).instanceKey.getD "") ∧
      ∀ entry ∈ (viewOf proc).entries,
        entry.idempotencyKey = ⟨false, (viewOf proc).instanceKey.getD ""⟩ := by
  have verified := accepted.procedure
  simp only [ProcedureOp.verify, check_ok] at verified
  have key := verified.2.1
  change proc.declaredKey ≠ "" at keyed
  change (∃ input ∈ (viewed inputView proc.body).map (·.1), input.1 = proc.declaredKey) ∧
    ∀ entry ∈ (viewOf proc).entries, entry.idempotencyKey = ⟨false, proc.declaredKey⟩
  rw [verifyInstanceKey, if_neg keyed] at key
  cases type : proc.inputType proc.declaredKey with
  | none => simp [type] at key
  | some found =>
      simp only [type, check_ok, each_ok, verifyKey, require_ok] at key
      obtain ⟨_, debits, credits⟩ := key
      constructor
      · obtain ⟨before, after, listed, _⟩ := List.lookup_eq_some_iff.mp type
        have present : (proc.declaredKey, found) ∈
            (proc.body.filterMap fun located => inputView located.op).reverse := by
          rw [listed]
          exact List.mem_append_right _ List.mem_cons_self
        exact ⟨_, viewed_fst inputView proc.body ▸ List.mem_reverse.mp present, rfl⟩
      · intro entry listed
        have own : ∀ op, idemRef op = proc.declaredKey →
            refOf op.idempotencyKey = ⟨false, proc.declaredKey⟩ := fun op same =>
          same ▸ idemRef_ref (same ▸ keyed)
        rcases mem_entries.mp listed with ⟨op, inDebits, rfl⟩ | ⟨op, inCredits, rfl⟩
        · exact own op (debits op inDebits)
        · exact own op (credits op inCredits)

/-- The key resolves where what the verifiers leave open of it holds. -/
theorem keyResolves_iff : KeyResolves (planInputs (viewOf proc)) ↔
    ((viewOf proc).instanceKey.getD "" ≠ "" → ∀ input,
      (viewOf proc).inputs.find? (·.1 = (viewOf proc).instanceKey.getD "") = some input →
        classifyValueType input.2 = .string) ∧
    ((viewOf proc).instanceKey.getD "" = "" → ∀ first ∈ (viewOf proc).entries,
      first.idempotencyKey.isLit = false ∧ first.idempotencyKey.text ≠ "" ∧
        ∀ second ∈ (viewOf proc).entries,
          first.idempotencyKey.text = second.idempotencyKey.text) := by
  have explicit : (planInputs (viewOf proc)).explicitInstanceKey =
      (viewOf proc).instanceKey.getD "" := rfl
  have effects : (planInputs (viewOf proc)).effects = (viewOf proc).entries.map effectInput := rfl
  have inputs : (planInputs (viewOf proc)).inputs =
      (viewOf proc).inputs.map fun input => ⟨input.1, input.2⟩ := rfl
  have kinds : ∀ entry : EntryView, (effectInput entry).idempotencyKind = "ref" ↔
      entry.idempotencyKey.isLit = false := fun entry => by
    cases literal : entry.idempotencyKey.isLit <;> simp [effectInput, literal]
  have values : ∀ entry : EntryView,
      (effectInput entry).idempotencyValue = entry.idempotencyKey.text := fun _ => rfl
  rw [KeyResolves, explicit, effects, inputs]
  by_cases keyed : (viewOf proc).instanceKey.getD "" = ""
  · simp only [keyed, ne_eq, not_true_eq_false, if_false, false_imp_iff, true_imp_iff, true_and,
      List.forall_mem_map, KeysOnRef, kinds, values]
    grind
  · obtain ⟨⟨input, listed, named⟩, entries⟩ := verified_key accepted keyed
    simp only [keyed, ne_eq, not_false_eq_true, if_true, false_imp_iff, true_imp_iff, and_true,
      List.forall_mem_map, kinds, values, List.find?_map, Option.map_eq_some_iff]
    have found : ((viewOf proc).inputs.find?
        (·.1 = (viewOf proc).instanceKey.getD "")).isSome = true := by
      rw [List.find?_isSome]
      exact ⟨input, listed, by simpa using named⟩
    obtain ⟨first, isFirst⟩ := Option.isSome_iff_exists.mp found
    have same : List.find? ((fun x : PlanInput => decide (x.name =
        (viewOf proc).instanceKey.getD "")) ∘ fun input => ⟨input.1, input.2⟩)
          (viewOf proc).inputs = some first := isFirst
    rw [same, isFirst]
    have every : ∀ entry ∈ (viewOf proc).entries, entry.idempotencyKey.isLit = false ∧
        entry.idempotencyKey.text = (viewOf proc).instanceKey.getD "" := fun entry inEntries => by
      simp [entries entry inEntries]
    constructor
    · rintro ⟨⟨_, ⟨own, isOwn, rfl⟩, string⟩, _⟩ other isOther
      cases isOwn
      cases isOther
      simpa [isInstanceKeyType] using string
    · intro string
      refine ⟨⟨_, ⟨first, rfl, rfl⟩, ?_⟩, every⟩
      simpa [isInstanceKeyType] using string first rfl

omit accepted in
theorem entries_nil : (viewOf proc).entries = [] ↔ proc.debits = [] ∧ proc.credits = [] := by
  rw [List.eq_nil_iff_forall_not_mem, List.eq_nil_iff_forall_not_mem,
    List.eq_nil_iff_forall_not_mem]
  simp only [mem_entries, not_or, not_exists, not_and]
  constructor
  · exact fun none => ⟨fun op listed => (none (buildEntry "debit" op)).1 op listed rfl,
      fun op listed => (none (buildEntry "credit" op)).2 op listed rfl⟩
  · exact fun none view => ⟨fun op listed => absurd listed (none.1 op),
      fun op listed => absurd listed (none.2 op)⟩

omit accepted in
theorem attestations_nil : (viewOf proc).attestations = [] ↔ proc.hasAttest = false := by
  change (viewed attestView proc.body).map (·.1) = [] ↔ _
  rw [viewed_fst, List.filterMap_eq_nil_iff, ProcedureOp.hasAttest, List.any_eq_false]
  refine forall₂_congr fun located _ => ?_
  cases located.op <;> simp [attestView, isAttest]

theorem effectless_checks : checkEffectless (planInputs (viewOf proc)) = .ok () := by
  have effects : (planInputs (viewOf proc)).effects = [] ↔ (viewOf proc).entries = [] :=
    List.map_eq_nil_iff
  have attestations : (planInputs (viewOf proc)).attestations = (viewOf proc).attestations := rfl
  have explicit : (planInputs (viewOf proc)).explicitInstanceKey = proc.declaredKey := rfl
  have success : (planInputs (viewOf proc)).terminal.success ≠ "" := by
    simp only [planInputs, lifecycleModel]
    split <;> simp [quorumModel, openCloseModel]
  have verified := accepted.procedure
  simp only [ProcedureOp.verify, check_ok] at verified
  have checked := verified.2.2
  rw [checkEffectless, explicit]
  simp only [ne_eq, effects, attestations, entries_nil, attestations_nil]
  by_cases effectless : proc.debits = [] ∧ proc.credits = []
  · simp only [effectless, and_self, if_true, verifyEffectless, check_ok, require_ok] at checked
    by_cases attested : proc.hasAttest = false
    · have undeclared : proc.declaredKey = "" := by simpa [attested] using checked
      simp [effectless, attested, undeclared, requirePlan_ok]
    · have declared : proc.declaredKey ≠ "" := by simpa [attested] using checked
      simp [effectless, attested, declared, success, check_ok, requirePlan_ok]
  · simp [effectless, requirePlan_ok]

end Key

/-! Obligations. -/

/-- A name that exactly one entry has. -/
structure SoleEntry (entries : List EntryView) (name : String) : Prop where
  present : ∃ (index : Nat) (entry : EntryView), entries[index]? = some entry ∧ entry.name = name
  alone : ∀ (index later : Nat) (entry other : EntryView), entries[index]? = some entry →
    entry.name = name → entries[later]? = some other → other.name = name → index = later

theorem filter_alone {α : Type} {holds : α → Bool} {elements : List α}
    (few : (elements.filter holds).length ≤ 1) {index later : Nat} {element other : α}
    (found : elements[index]? = some element) (held : holds element = true)
    (found' : elements[later]? = some other) (held' : holds other = true) : index = later := by
  induction elements generalizing index later with
  | nil => simp at found
  | cons first rest ih =>
      by_cases own : holds first = true
      · have none : rest.filter holds = [] := by
          simpa [List.filter_cons, own] using few
        have absent : ∀ {place : Nat} {found : α}, rest[place]? = some found →
            ¬holds found = true := fun at_place =>
          List.filter_eq_nil_iff.mp none _ (List.mem_of_getElem? at_place)
        cases index with
        | zero =>
            cases later with
            | zero => rfl
            | succ later => exact absurd held' (absent found')
        | succ index => exact absurd held (absent found)
      · have fewer : (rest.filter holds).length ≤ 1 := by
          simpa [List.filter_cons, own] using few
        cases index with
        | zero =>
            cases (List.getElem?_cons_zero ▸ found : some first = some element)
            exact absurd held own
        | succ index =>
            cases later with
            | zero =>
                cases (List.getElem?_cons_zero ▸ found' : some first = some other)
                exact absurd held' own
            | succ later =>
                have found : rest[index]? = some element := by simpa using found
                have found' : rest[later]? = some other := by simpa using found'
                rw [ih fewer found found']

theorem entries_le_declarations (proc : ProcedureOp) (name : String) :
    ((viewOf proc).entries.filter (·.name = name)).length ≤ (declarations proc name).length := by
  change (((viewed entryView proc.body).map (·.1)).filter (·.name = name)).length ≤ _
  rw [viewed_fst, declarations, ← List.countP_eq_length_filter, ← List.countP_eq_length_filter,
    List.countP_filterMap, List.countP_map]
  refine List.countP_mono_left fun located _ held => ?_
  cases op : located.op <;> simp [op, entryView] at held <;>
    simpa [op, Op.symName?, buildEntry] using held

theorem mem_viewed_fst {α : Type} (take : Op → Option α) {body : List Located} {located : Located}
    {taken : α} (placed : located ∈ body) (took : take located.op = some taken) :
    taken ∈ (viewed take body).map (·.1) := by
  rw [viewed_fst]
  exact List.mem_filterMap.mpr ⟨located, placed, took⟩

theorem requireParticipant_declared {proc : ProcedureOp} {code role name : String}
    (required : requireParticipant proc code role name = .ok ()) :
    Declared (planInputs (viewOf proc)).participants name := by
  simp only [requireParticipant, check_ok, require_ok, List.any_eq_true] at required
  obtain ⟨text, _, op, listed, participant⟩ := required
  obtain ⟨opIn, named⟩ := List.mem_filter.mp listed
  obtain ⟨located, placed, rfl⟩ := List.mem_map.mp opIn
  refine ⟨hasText_ne_empty text, ?_⟩
  cases op : located.op <;> simp only [op, Op.isParticipant, Bool.false_eq_true] at participant
  simp only [op, Op.symName?, Option.some.injEq, decide_eq_true_eq] at named
  have viewedIn := mem_viewed_fst participantView placed (by rw [op, participantView])
  exact ⟨_, List.mem_map_of_mem viewedIn, named⟩

theorem requireEffect_sole {proc : ProcedureOp} {name : String}
    (required : requireEffect proc name = .ok ()) : SoleEntry (viewOf proc).entries name := by
  simp only [requireEffect, check_ok, requireUnambiguous, require_ok] at required
  obtain ⟨few, effect⟩ := required
  refine ⟨?_, fun index later entry other found named found' named' =>
    filter_alone ((entries_le_declarations proc name).trans few) found (by simpa using named)
      found' (by simpa using named')⟩
  cases decls : declarations proc name with
  | nil => simp [decls] at effect
  | cons op rest =>
      rw [decls] at effect
      have listed : op ∈ declarations proc name := decls ▸ List.mem_cons_self
      obtain ⟨opIn, named⟩ := List.mem_filter.mp listed
      obtain ⟨located, placed, rfl⟩ := List.mem_map.mp opIn
      simp only [require_ok] at effect
      have entry : ∃ view, entryView located.op = some view ∧ view.name = name := by
        cases op : located.op <;> simp [op, Op.isEntry] at effect <;>
          simpa [op, Op.symName?, entryView, buildEntry] using named
      obtain ⟨view, took, same⟩ := entry
      obtain ⟨index, found⟩ := List.getElem?_of_mem (mem_viewed_fst entryView placed took)
      exact ⟨index, view, found, same⟩

theorem verifyEffects_ok {proc : ProcedureOp} {seen names : List String}
    (verified : verifyEffects proc seen names = .ok ()) :
    names.Nodup ∧ ∀ name ∈ names, name ∉ seen ∧ SoleEntry (viewOf proc).entries name := by
  induction names generalizing seen with
  | nil => simp
  | cons name rest ih =>
      simp only [verifyEffects, check_ok, require_ok] at verified
      obtain ⟨fresh, effect, later⟩ := verified
      obtain ⟨distinct, others⟩ := ih later
      refine ⟨List.nodup_cons.mpr ⟨fun again => (others name again).1 List.mem_cons_self, distinct⟩,
        List.forall_mem_cons.mpr ⟨⟨fresh, requireEffect_sole effect⟩, fun other listed =>
          ⟨fun old => (others other listed).1 (List.mem_cons_of_mem _ old), (others other listed).2⟩⟩⟩

/-- What the verifier establishes of an obligation. -/
structure ObligationVerified (view : ProcedureView) (obligation : ObligationView) : Prop where
  named : obligation.name ≠ ""
  obligor : Declared (planInputs view).participants obligation.obligor
  beneficiary : Declared (planInputs view).participants obligation.beneficiary
  authority : Declared (planInputs view).participants obligation.authority
  predicate : ∃ predicate, obligation.whenAst = some predicate
  effects : obligation.effects ≠ []
  distinct : obligation.effects.Nodup
  sole : ∀ name ∈ obligation.effects, SoleEntry view.entries name

theorem verified_obligation {parse : Bool → String → Except ExprError ExprNode}
    {proc : ProcedureOp} (accepted : proc.Accepted parse) {obligation : ObligationView}
    (listed : obligation ∈ (viewOf proc).obligations) :
    ObligationVerified (viewOf proc) obligation := by
  obtain ⟨located, placed, took⟩ := mem_viewed listed
  have verified := accepted.operations located placed
  cases same : located.op <;> simp only [same, obligationView, reduceCtorEq] at took
  rename_i op
  cases took
  simp only [same, Op.verify, ObligationOp.verify, check_ok, require_ok] at verified
  obtain ⟨named, obligor, beneficiary, authority, verified⟩ := verified
  split at verified
  · rename_i text ast present present'
    simp only [check_ok, require_ok] at verified
    obtain ⟨_, effects, each⟩ := verified
    obtain ⟨distinct, sole⟩ := verifyEffects_ok each
    refine ⟨hasText_ne_empty named, requireParticipant_declared obligor,
      requireParticipant_declared beneficiary, requireParticipant_declared authority, ?_, effects,
      distinct, fun name listed => (sole name listed).2⟩
    exact ⟨toExprNode ast (op.whenDeps.map fun dep => (refOf dep).text),
      by rw [present, present']; rfl⟩
  · cases verified

/-- An entry's place among the bound effects is its place among the entries. -/
theorem getElem?_boundEffects {view : ProcedureView} {index : Nat} {effect : PlanEffect} :
    (boundEffects (planInputs view))[index]? = some effect ↔ ∃ entry,
      view.entries[index]? = some entry ∧
        boundEffect (planInputs view) (effectInput entry, index) = effect := by
  have effects : (planInputs view).effects = view.entries.map effectInput := rfl
  simp [boundEffects, effects, List.getElem?_zipIdx]

theorem namedEffect_sole {view : ProcedureView} {name : String}
    (sole : SoleEntry view.entries name) {index : Nat} {entry : EntryView}
    (found : view.entries[index]? = some entry) (named : entry.name = name) :
    namedEffect (boundEffects (planInputs view)) name =
      some (boundEffect (planInputs view) (effectInput entry, index)) := by
  have placed := getElem?_boundEffects.mpr ⟨entry, found, rfl⟩
  cases resolved : namedEffect (boundEffects (planInputs view)) name with
  | none =>
      have absent := List.find?_eq_none.mp resolved _
        (List.mem_reverse.mpr (List.mem_of_getElem? placed))
      exact absurd (decide_eq_true named) absent
  | some effect =>
      obtain ⟨listed, same⟩ := namedEffect_some resolved
      obtain ⟨later, found'⟩ := List.getElem?_of_mem listed
      obtain ⟨other, place, rfl⟩ := getElem?_boundEffects.mp found'
      cases sole.alone index later entry other found named place same
      cases found.symm.trans place
      rfl

theorem authorizes_iff {view : ProcedureView} {names : List String} {key : String}
    (distinct : names.Nodup) (sole : ∀ name ∈ names, SoleEntry view.entries name) :
    Authorizes (boundEffects (planInputs view)) key names ↔
      (∀ entry ∈ view.entries, entry.name ∈ names → canonicalGuardKey entry.guardAst = key) ∧
        names.Pairwise (Precedes view.entries) := by
  have keyed : (∀ name ∈ names, ∃ effect, namedEffect (boundEffects (planInputs view)) name =
      some effect ∧ effect.guardKey = key) ↔
        ∀ entry ∈ view.entries, entry.name ∈ names → canonicalGuardKey entry.guardAst = key := by
    constructor
    · intro keyed entry listed authorized
      obtain ⟨index, found⟩ := List.getElem?_of_mem listed
      obtain ⟨effect, resolved, same⟩ := keyed _ authorized
      rw [namedEffect_sole (sole _ authorized) found rfl] at resolved
      cases resolved
      exact same
    · intro keyed name authorized
      obtain ⟨index, entry, found, rfl⟩ := (sole name authorized).present
      exact ⟨_, namedEffect_sole (sole _ authorized) found rfl,
        keyed entry (List.mem_of_getElem? found) authorized⟩
  have ordered : ∀ {first second : String}, first ∈ names → second ∈ names →
      ((∀ earlier ∈ namedEffect (boundEffects (planInputs view)) first,
        ∀ later ∈ namedEffect (boundEffects (planInputs view)) second,
          earlier.index < later.index) ↔ Precedes view.entries first second) := by
    intro first second isFirst isSecond
    constructor
    · rintro before index later entry other found rfl found' rfl
      exact before _ (namedEffect_sole (sole _ isFirst) found rfl) _
        (namedEffect_sole (sole _ isSecond) found' rfl)
    · obtain ⟨index, entry, found, rfl⟩ := (sole first isFirst).present
      obtain ⟨later, other, found', rfl⟩ := (sole second isSecond).present
      intro precedes
      simp only [namedEffect_sole (sole _ isFirst) found rfl,
        namedEffect_sole (sole _ isSecond) found' rfl, Option.mem_def, Option.some.injEq,
        forall_eq']
      exact precedes index later entry other found rfl found' rfl
  rw [← keyed, ← List.Pairwise.iff_of_mem ordered]
  exact ⟨fun authorizes => ⟨authorizes.keyed, authorizes.ordered⟩,
    fun held => ⟨distinct, held.1, held.2⟩⟩

/-- What a verified obligation still needs to be resolved. -/
theorem resolvable_iff {view : ProcedureView} {obligation : ObligationView}
    (verified : ObligationVerified view obligation) :
    Resolvable (planInputs view).participants (boundEffects (planInputs view))
        (obligationInput obligation) ↔
      obligation.when ≠ "" ∧ (∀ entry ∈ view.entries, entry.name ∈ obligation.effects →
        canonicalGuardKey entry.guardAst = canonicalGuardKey obligation.whenAst) ∧
        obligation.effects.Pairwise (Precedes view.entries) := by
  obtain ⟨predicate, present⟩ := verified.predicate
  have key : canonicalGuardKey obligation.whenAst = structuralKey predicate := by
    rw [present]
    rfl
  rw [key, ← authorizes_iff verified.distinct verified.sole]
  constructor
  · intro resolvable
    obtain ⟨held, same, authorizes⟩ := resolvable.predicate
    cases present.symm.trans same
    exact ⟨resolvable.text, authorizes⟩
  · exact fun ⟨text, authorizes⟩ => ⟨rfl, verified.named, verified.obligor, verified.beneficiary,
      verified.authority, ⟨predicate, present, authorizes⟩, text, verified.effects⟩

/-! Actors, topology and policies. -/

section View

variable (view : ProcedureView)

theorem participants_iff : checkParticipants [] [] (planInputs view).participants = .ok () ↔
    (∀ participant ∈ view.participants, participant.name ≠ "") ∧
    (view.participants.map (·.name)).Nodup ∧
    ((view.participants.filter (·.org ≠ "")).map fun participant =>
      (participant.org, participant.role)).Nodup := by
  simp only [checkParticipants_iff, planInputs, List.forall_mem_map, List.not_mem_nil,
    not_false_eq_true, or_true, and_true, List.map_map, List.filter_map]
  exact Iff.rfl

theorem topology_iff :
    checkTopology (planInputs view).participants [] (planInputs view).allowedOrgPairs = .ok () ↔
      (∀ pair ∈ view.allowedOrgPairs, pair.orgA ≠ "" ∧ pair.orgB ≠ "" ∧
        (∃ participant ∈ view.participants, participant.org = pair.orgA) ∧
        ∃ participant ∈ view.participants, participant.org = pair.orgB) ∧
      (view.allowedOrgPairs.map fun pair =>
        orderedEdge ⟨pair.orgA, pair.orgB, pair.roleA, pair.roleB⟩).Nodup := by
  simp only [checkTopology_iff, planInputs, Endpoints, List.mem_map, exists_exists_and_eq_and,
    forall_exists_index, and_imp, forall_apply_eq_imp_iff₂, List.not_mem_nil, not_false_eq_true,
    and_true, List.map_map, and_assoc]
  exact Iff.rfl

theorem bindable_iff (named : ∀ participant ∈ view.participants, participant.name ≠ "") :
    (∀ effect ∈ (planInputs view).effects, Bindable (planInputs view) effect) ↔
      (∀ entry ∈ view.entries, (view.participants = [] ∧ entry.participant = "") ∨
        ∃ participant ∈ view.participants, participant.name = entry.participant) ∧
      ∀ entry ∈ view.entries, acceptedInput entry.guardAst ≠ "" →
        ∃ policy ∈ view.attestations, policy.input = acceptedInput entry.guardAst := by
  have participants : (planInputs view).participants = [] ↔ view.participants = [] :=
    List.map_eq_nil_iff
  have declared : ∀ name, (∃ participant ∈ (planInputs view).participants,
      participant.name = name) ↔ ∃ participant ∈ view.participants, participant.name = name :=
    fun name => by
      simp only [planInputs, List.mem_map, exists_exists_and_eq_and]
  have effects : (planInputs view).effects = view.entries.map effectInput := rfl
  rw [effects, List.forall_mem_map, ← forall₂_and]
  refine forall₂_congr fun entry _ => ?_
  have policy : (effectInput entry).guardAcceptedInput = acceptedInput entry.guardAst := rfl
  have leg : (effectInput entry).participant = entry.participant := rfl
  have unnamed : (∃ participant ∈ view.participants, participant.name = entry.participant) →
      entry.participant ≠ "" := by
    rintro ⟨participant, listed, same⟩
    exact same ▸ named participant listed
  constructor
  · rintro ⟨present, found, gated⟩
    rw [participants, leg] at present
    rw [declared, leg] at found
    rw [policy] at gated
    exact ⟨by tauto, gated.resolve_left⟩
  · rintro ⟨legs, gated⟩
    refine ⟨?_, ?_, ?_⟩
    · rw [participants, leg]
      exact legs.imp And.left unnamed
    · rw [declared, leg]
      exact legs.imp_left And.right
    · rw [policy]
      exact or_iff_not_imp_left.mpr gated

theorem policiesBound_iff : PoliciesBound (planInputs view) ↔
    ((∃ entry ∈ view.entries, acceptedInput entry.guardAst ≠ "") →
      (∀ entry ∈ view.entries, acceptedInput entry.guardAst ≠ "") ∧
      ∀ policy ∈ view.attestations, ∃ entry ∈ view.entries,
        acceptedInput entry.guardAst = policy.input) := by
  have effects : (planInputs view).effects = view.entries.map effectInput := rfl
  rw [PoliciesBound, effects]
  simp only [List.mem_map, exists_exists_and_eq_and, forall_exists_index, and_imp,
    forall_apply_eq_imp_iff₂]
  exact Iff.rfl

end View

/-- A verified procedure normalizes exactly when it has what the verifiers leave open. -/
theorem verified_normalizes_iff {parse : Bool → String → Except ExprError ExprNode}
    {proc : ProcedureOp} (accepted : proc.Accepted parse) :
    (∃ plan, normalizePlan (viewOf proc) = .ok plan) ↔ Normal (viewOf proc) := by
  have resolvable : (∀ obligation ∈ (planInputs (viewOf proc)).obligations,
      Resolvable (planInputs (viewOf proc)).participants (boundEffects (planInputs (viewOf proc)))
        obligation) ↔ ∀ obligation ∈ (viewOf proc).obligations, obligation.when ≠ "" ∧
          (∀ entry ∈ (viewOf proc).entries, entry.name ∈ obligation.effects →
            canonicalGuardKey entry.guardAst = canonicalGuardKey obligation.whenAst) ∧
          obligation.effects.Pairwise (Precedes (viewOf proc).entries) := by
    have listed : (planInputs (viewOf proc)).obligations =
        (viewOf proc).obligations.map obligationInput := rfl
    rw [listed, List.forall_mem_map]
    exact forall₂_congr fun obligation own =>
      resolvable_iff (verified_obligation accepted own)
  have names : (planInputs (viewOf proc)).obligations.map (·.name) =
      (viewOf proc).obligations.map (·.name) := by
    simp only [planInputs, List.map_map]
    rfl
  have count : (planInputs (viewOf proc)).participants.length =
      (viewOf proc).participants.length := List.length_map _
  rw [normalizePlan, assemblePlan_exists fun _ key => verified_moved accepted key]
  constructor
  · rintro ⟨few, participants, topology, key, _, bindable, policies, _, obligations, distinct⟩
    obtain ⟨named, distinctNames, actors⟩ := (participants_iff _).mp participants
    obtain ⟨organizations, pairs⟩ := (topology_iff _).mp topology
    obtain ⟨keyType, keys⟩ := (keyResolves_iff accepted).mp key
    obtain ⟨legs, declared⟩ := (bindable_iff _ named).mp bindable
    have each := resolvable.mp obligations
    exact ⟨count ▸ few, named, distinctNames, actors, organizations, pairs, keyType, keys, legs,
      declared, (policiesBound_iff _).mp policies, names ▸ distinct, fun own listed =>
        (each own listed).1, fun own listed => (each own listed).2.1, fun own listed =>
          (each own listed).2.2⟩
  · intro normal
    exact ⟨count ▸ normal.few,
      (participants_iff _).mpr ⟨normal.named, normal.distinct, normal.actors⟩,
      (topology_iff _).mpr ⟨normal.organizations, normal.pairs⟩,
      (keyResolves_iff accepted).mpr ⟨normal.keyType, normal.keys⟩,
      effectless_checks accepted,
      (bindable_iff _ normal.named).mpr ⟨normal.legs, normal.declared⟩,
      (policiesBound_iff _).mpr normal.gates, lifecycle_checks _,
      resolvable.mpr fun own listed =>
        ⟨normal.text own listed, normal.guards own listed, normal.order own listed⟩,
      names ▸ normal.obligations⟩

/-! Two modules that the verifiers accept. -/

/-- Two organizations that may transact, and no participant of either. -/
def strangers : ProcedureOp where
  symName := "strangers"
  trigger := none
  version := none
  instanceKey := none
  body := [⟨.allowOrgs ⟨"A", "B", none, none⟩, 1⟩]

/-- The verifiers accept it with any parser, and it has no plan. -/
theorem strangers_refused : (∀ parse, strangers.Accepted parse) ∧
    ¬∃ plan, normalizePlan (viewOf strangers) = .ok plan := by
  refine ⟨fun parse => ⟨by decide +kernel, fun located listed => ?_⟩, ?_⟩
  · cases List.mem_singleton.mp listed
    rfl
  · have refused : ∃ message, normalizePlan (viewOf strangers) = .error message := ⟨_, rfl⟩
    obtain ⟨message, refused⟩ := refused
    rintro ⟨plan, normalized⟩
    cases normalized.symm.trans refused

def unitPrice : ExprAttr := .cmp .extension ">" (.var .decimal 0) (.num .decimal 0)

/-- One leg of the transfer, under the guard. -/
def transferLeg (name participant : String) : EntryOp where
  party := .input participant "party"
  amount := .input "amount" "decimal"
  currency := .const "EUR"
  idempotencyKey := .input "key" "string"
  guardDeps := [.input "amount" "decimal"]
  symName := name
  ledger := "cash"
  owner := participant
  participant := some participant
  guard := some "amount > 0"
  guardAst := some unitPrice
  memo := none

def participantOp (name org : String) : ParticipantOp where
  symName := name
  role := "trader"
  capabilities := []
  org := some org
  binding := none
  bindRuntimes := []
  bindMinAssurance := none

/-- A guarded transfer that an obligation authorizes. -/
def transfer : ProcedureOp where
  symName := "transfer"
  trigger := none
  version := some "1.0.0"
  instanceKey := some "key"
  body := [⟨.participant (participantOp "payer" "A"), 1⟩,
    ⟨.participant (participantOp "payee" "B"), 2⟩,
    ⟨.allowOrgs ⟨"A", "B", none, none⟩, 3⟩, ⟨.input "key" "string", 4⟩,
    ⟨.input "amount" "decimal", 5⟩, ⟨.debit (transferLeg "take" "payer"), 6⟩,
    ⟨.credit (transferLeg "give" "payee"), 7⟩, ⟨.assertBalanced, 8⟩,
    ⟨.obligation {
      whenDeps := [.input "amount" "decimal"]
      symName := "settle"
      obligor := "payer"
      beneficiary := "payee"
      authority := "payee"
      when := some "amount > 0"
      whenAst := some unitPrice
      effects := ["take", "give"] }, 9⟩]

def transferParse : Bool → String → Except ExprError ExprNode := fun _ _ =>
  .ok (.cmp ">" (.var "amount" .decimal) (.num 0 .decimal) .extension)

theorem transfer_accepted : transfer.Accepted transferParse := by
  refine ⟨by decide +kernel, fun located listed => ?_⟩
  simp only [transfer, List.mem_cons, List.not_mem_nil, or_false] at listed
  rcases listed with rfl | rfl | rfl | rfl | rfl | rfl | rfl | rfl | rfl <;> decide +kernel

theorem transfer_precedes : Precedes (viewOf transfer).entries "take" "give" := by
  intro index later entry other found named found' named'
  have entries : (viewOf transfer).entries = [buildEntry "debit" (transferLeg "take" "payer"),
      buildEntry "credit" (transferLeg "give" "payee")] := rfl
  rw [entries] at found found'
  match index, later with
  | 0, 0 =>
      cases found'
      simp [buildEntry, transferLeg] at named'
  | 0, _ + 1 => exact Nat.succ_pos _
  | 1, _ =>
      cases found
      simp [buildEntry, transferLeg] at named
  | _ + 2, _ => simp at found

/-- It has what a plan needs besides. -/
theorem transfer_normalizes : ∃ plan, normalizePlan (viewOf transfer) = .ok plan :=
  (verified_normalizes_iff transfer_accepted).mpr {
    few := by decide +kernel
    named := by decide +kernel
    distinct := by decide +kernel
    actors := by decide +kernel
    organizations := by decide +kernel
    pairs := by decide +kernel
    keyType := fun _ input found => by
      cases (show some ("key", "string") = some input from found)
      rfl
    keys := by decide +kernel
    legs := fun entry listed => by
      refine .inr ?_
      revert entry
      decide +kernel
    declared := by decide +kernel
    gates := by decide +kernel
    obligations := by decide +kernel
    text := by decide +kernel
    guards := by decide +kernel
    order := fun obligation listed => by
      cases List.mem_singleton.mp listed
      simpa [viewed] using transfer_precedes }

end Neutrino
