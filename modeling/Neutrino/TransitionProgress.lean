import Neutrino.OracleInvariant
import Neutrino.ScenarioCheck
import Neutrino.SpecRoundTrip

/-! Progress of verified procedures: a transition that supplies what its procedure declares is
refused for what its values are, never for how the procedure is built. -/

namespace Neutrino

open CapabilitySpec Checked Ledger Run

/-! Refusals. -/

/-- An operation left the 64-bit integers or divided by zero. -/
def arithmeticCodes : List String := ["expr.overflow", "expr.divide_by_zero"]

/-- What may be wrong with an amount, or with a balance it is posted to. -/
def postingCodes : List String := ["amount.negative", "balance.overflow"]

/-- The refusals that depend on who invokes with what, and on no check of the procedure. -/
def valueCodes : List String :=
  arithmeticCodes ++ postingCodes ++ ["attestation.rejected", "auth.denied", "claim.mismatch"]

theorem arithmetic_value {code : String} (listed : code ∈ arithmeticCodes) : code ∈ valueCodes :=
  List.mem_append_left _ (List.mem_append_left _ listed)

theorem posting_value {code : String} (listed : code ∈ postingCodes) : code ∈ valueCodes :=
  List.mem_append_left _ (List.mem_append_right _ listed)

/-! Expressions. -/

theorem checkedBin_fails {op : Char} (known : op ∈ ['+', '-', '*', '/']) {a b : Int64}
    {failure : ExprError} (failed : checkedBin op a b = .error failure) :
    failure.code ∈ arithmeticCodes := by
  have overflow : ∀ value message, checkedOr value message = .error failure →
      failure.code ∈ arithmeticCodes := by
    intro value message failed
    unfold checkedOr at failed
    split at failed
    · cases failed
    · cases failed
      simp [arithmeticCodes]
  unfold checkedBin at failed
  split_ifs at failed with plus minus times divide zero
  · exact overflow _ _ failed
  · exact overflow _ _ failed
  · exact overflow _ _ failed
  · cases failed
    simp [arithmeticCodes]
  · exact overflow _ _ failed
  · simp [plus, minus, times, divide] at known

/-- Where its names are bound, a typed expression fails on its arithmetic only. -/
theorem evalExpr_fails {node : ExprNode} (typed : Typed node) {env : Env}
    (bound : ∀ name ∈ exprReads node, IsBound env name) {failure : ExprError}
    (failed : evalExpr node env = .error failure) : failure.code ∈ arithmeticCodes := by
  obtain ⟨value, known⟩ := typed
  induction value with
  | num value dtype => simp [evalExpr] at failed
  | var name dtype =>
      obtain ⟨value, found⟩ := bound name (by simp [exprReads])
      rw [evalExpr_var, found] at failed
      cases failed
  | @bin lhs rhs _ _ op dtype ihLeft ihRight =>
      obtain ⟨operator, knownLeft, knownRight⟩ := known
      simp only [exprReads, List.mem_append] at bound
      rw [evalExpr_bin, bind_error] at failed
      rcases failed with left | ⟨a, _, failed⟩
      · exact ihLeft (fun name read => bound name (.inl read)) left knownLeft
      · rcases bind_error.mp failed with right | ⟨b, _, operation⟩
        · exact ihRight (fun name read => bound name (.inr read)) right knownRight
        · exact checkedBin_fails operator operation
  | round value rest dtype ih =>
      simp only [evalExpr, if_true] at failed
      exact ih (by simpa [exprReads] using bound) failed known

theorem evalGuard_fails {guard : ExprNode} (shape : GuardShape guard) {env : Env}
    (bound : ∀ name ∈ comparisonReads guard, IsBound env name) {failure : ExprError}
    (failed : evalGuard guard env = .error failure) : failure.code ∈ arithmeticCodes := by
  cases shape with
  | accepted name category dtype => simp [evalGuard] at failed
  | @compares op lhs rhs left right known dtype =>
      simp only [comparisonReads, List.mem_append] at bound
      rw [evalGuard_cmp, bind_error] at failed
      rcases failed with failedLeft | ⟨a, _, failed⟩
      · exact evalExpr_fails left (fun name read => bound name (.inl read)) failedLeft
      · rcases bind_error.mp failed with failedRight | ⟨b, _, compared⟩
        · exact evalExpr_fails right (fun name read => bound name (.inr read)) failedRight
        · obtain ⟨held, defined⟩ := compareWith_defined known a b
          cases compared.symm.trans defined

/-! The environment. -/

theorem readsKnown_mono {known other : String → Prop} (more : ∀ name, known name → other name)
    {computes : List ComputeView} (reads : ReadsKnown known computes) :
    ReadsKnown other computes := by
  induction computes generalizing known other with
  | nil => trivial
  | cons compute rest ih =>
      exact ⟨fun name read => more name (reads.1 name read),
        ih (fun name => Or.imp_left (more name)) reads.2⟩

section Environment

variable {computes : List ComputeView} {env last : Env}

theorem foldComputes_fails (typed : ∀ compute ∈ computes, Typed compute.ast)
    (reads : ReadsKnown (IsBound env) computes) {refusal : Refusal}
    (failed : (foldComputes (computes.map planCompute) env).value = .error refusal) :
    refusal.code ∈ arithmeticCodes := by
  induction computes generalizing env with
  | nil => simp [foldComputes] at failed
  | cons compute rest ih =>
      obtain ⟨here, later⟩ := List.forall_mem_cons.mp typed
      simp only [List.map_cons, foldComputes, Traced.bind_error, Traced.ofExcept_value,
        Traced.observe_value, reduceCtorEq, false_or] at failed
      rcases failed with failed | ⟨value, _, _, _, failed⟩
      · simp only [computeValue, planCompute, mapError_error] at failed
        obtain ⟨failure, inner, rfl⟩ := failed
        exact evalExpr_fails here reads.1 inner
      · exact ih later ((readsKnown_congr (fun _ => isBound_insert) rest).mpr reads.2) failed

theorem foldComputes_bound
    (folded : (foldComputes (computes.map planCompute) env).value = .ok last) {name : String} :
    IsBound last name ↔ IsBound env name ∨ ∃ compute ∈ computes, compute.name = name := by
  induction computes generalizing env with
  | nil =>
      cases folded
      simp
  | cons compute rest ih =>
      simp only [List.map_cons, foldComputes, Traced.bind_ok, Traced.ofExcept_value,
        Traced.observe_value] at folded
      obtain ⟨value, _, _, _, folded⟩ := folded
      rw [ih folded, planCompute, isBound_insert, List.exists_mem_cons_iff, or_assoc,
        @eq_comm _ name]

theorem seedAcceptance_bound {plan : CoordinationPlan} {input : TransitionInput} {name : String}
    (bound : IsBound env name) : IsBound (seedAcceptance plan input env) name := by
  rw [seedAcceptance]
  induction plan.attestations generalizing env with
  | nil => exact bound
  | cons policy rest ih => exact ih (isBound_insert.mpr (.inl bound))

end Environment

/-! Grounded procedures. -/

/-- An input whose value stands among the numbers of an invocation. -/
def NumericInput (view : ProcedureView) (name : String) : Prop :=
  ∃ input ∈ view.inputs, input.1 = name ∧ isNumericType input.2 = true

def SymbolInput (view : ProcedureView) (name : String) : Prop :=
  ∃ input ∈ view.inputs, input.1 = name ∧ isNumericType input.2 = false

def NumericName (view : ProcedureView) (name : String) : Prop :=
  NumericInput view name ∨ ∃ compute ∈ view.computes, compute.name = name

/-- A literal that can be read, or a declared name. -/
def GroundedRef (declared : String → Prop) (readable : String → Prop) (ref : Ref) : Prop :=
  if ref.isLit then readable ref.text else declared ref.text

/-- An entry with a ledger, a number to move, and symbols for whom and in what. -/
structure GroundedEntry (view : ProcedureView) (entry : EntryView) : Prop where
  ledger : entry.ledger ≠ ""
  key : entry.idempotencyKey.text ∈ view.inputs.map (·.1)
  amount : GroundedRef (NumericName view) (fun text => (getAsInteger text).isSome = true)
    entry.amount
  party : GroundedRef (SymbolInput view) (· ≠ "") entry.party
  currency : GroundedRef (SymbolInput view) (· ≠ "") entry.currency
  guard : ∀ guard, entry.guardAst = some guard →
    ∀ name ∈ comparisonReads guard, NumericName view name

/-- A procedure that moves or accepts something; its expressions read numeric inputs and earlier
computes, and its entries declared values. -/
structure Grounded (view : ProcedureView) : Prop where
  acts : view.entries ≠ [] ∨ view.attestations ≠ []
  computes : ReadsKnown (NumericInput view) view.computes
  entries : ∀ entry ∈ view.entries, GroundedEntry view entry

/-- An invocation with a value for every input, in the map of its category, and a verdict for
every policy. -/
structure Supplies (input : TransitionInput) (view : ProcedureView) : Prop where
  numbers : ∀ declared ∈ view.inputs, isNumericType declared.2 = true →
    (∃ value, input.numeric[declared.1]? = some value) ∧ input.symbols[declared.1]? = none
  symbols : ∀ declared ∈ view.inputs, isNumericType declared.2 = false →
    (∃ token, input.symbols[declared.1]? = some token ∧ token ≠ "") ∧
      input.numeric[declared.1]? = none
  verdicts : ∀ policy ∈ view.attestations, ∃ accepted, input.attestations[policy.input]? =
    some accepted

/-! Operands. -/

theorem splitOperand_ref (ref : Ref) : splitOperand ref.operandKey =
    some (if ref.isLit then .literal ref.text else .ref ref.text) := by
  unfold splitOperand Ref.operandKey
  cases ref.isLit <;> simp [List.span_eq_takeWhile_dropWhile]

section Operands

variable {view : ProcedureView} {input : TransitionInput} {env : Env} {ref : Ref}

theorem resolveAmount_fails (bound : ∀ name, NumericName view name → IsBound env name)
    (grounded : GroundedRef (NumericName view) (fun text => (getAsInteger text).isSome = true) ref)
    {code : String} (failed : resolveAmount ref.operandKey env = .error code) :
    code = "amount.negative" := by
  obtain ⟨literal, text⟩ := ref
  obtain ⟨value, resolved⟩ : ∃ value, operandAmount env
      (if literal then .literal text else .ref text) = .ok value := by
    cases literal with
    | true =>
        obtain ⟨value, read⟩ := Option.isSome_iff_exists.mp grounded
        exact ⟨value, by simp [operandAmount, read]⟩
    | false =>
        obtain ⟨value, found⟩ := bound text grounded
        exact ⟨value, by simp [operandAmount, found]⟩
  rw [resolveAmount, splitOperand_ref] at failed
  simp only [resolved, ok_bind, bind_error, require_error] at failed
  rcases failed with ⟨_, rfl⟩ | ⟨_, _, never⟩
  · rfl
  · cases never

theorem resolveSymbol_ok (supplies : Supplies input view)
    (grounded : GroundedRef (SymbolInput view) (· ≠ "") ref) :
    ∃ token, resolveSymbol ref.operandKey input.symbols = .ok token := by
  obtain ⟨literal, text⟩ := ref
  obtain ⟨token, resolved, some⟩ : ∃ token, operandSymbol input.symbols
      (if literal then .literal text else .ref text) = .ok token ∧ token ≠ "" := by
    cases literal with
    | true => exact ⟨text, rfl, grounded⟩
    | false =>
        obtain ⟨declared, listed, rfl, symbolic⟩ := grounded
        obtain ⟨⟨token, found, some⟩, _⟩ := supplies.symbols declared listed symbolic
        exact ⟨token, by simp [operandSymbol, found], some⟩
  refine ⟨token, ?_⟩
  rw [resolveSymbol, splitOperand_ref]
  simp only [resolved, ok_bind, bind_ok, require_ok]
  exact ⟨(), some, rfl⟩

end Operands

/-! Effects. -/

/-- An effect of the plan, by the entry it is bound from. -/
structure PostableEffect (view : ProcedureView) (effect : PlanEffect) : Prop where
  kind : isPostingKind effect.kind = true
  entry : ∃ entry ∈ view.entries, GroundedEntry view entry ∧ effect.ledger = entry.ledger ∧
    effect.amount = entry.amount.operandKey ∧ effect.party = entry.party.operandKey ∧
    effect.currency = entry.currency.operandKey ∧ effect.guard = entry.guardAst
  shape : ∀ guard, effect.guard = some guard → GuardShape guard

section Staging

variable {view : ProcedureView} {input : TransitionInput} {env : Env} {refusal : Refusal}
  (supplies : Supplies input view) (bound : ∀ name, NumericName view name → IsBound env name)

include supplies bound

theorem resolvePosting_fails {effect : PlanEffect} (postable : PostableEffect view effect)
    (failed : resolvePosting env input.symbols effect = .error refusal) :
    refusal.code ∈ postingCodes := by
  obtain ⟨entry, _, grounded, ledger, amount, party, currency, _⟩ := postable.entry
  obtain ⟨_, isParty⟩ := resolveSymbol_ok supplies grounded.party
  obtain ⟨_, isCurrency⟩ := resolveSymbol_ok supplies grounded.currency
  simp only [resolvePosting, ledger, amount, party, currency, bind_error, require_error,
    mapError_error, isParty, isCurrency] at failed
  rcases failed with ⟨empty, _⟩ | ⟨_, _, ⟨code, negative, rfl⟩ | ⟨_, _, ⟨_, never, _⟩ | ⟨_, _,
    ⟨_, never, _⟩ | ⟨_, _, never⟩⟩⟩⟩
  · exact absurd grounded.ledger empty
  · rw [resolveAmount_fails bound grounded.amount negative]
    simp [postingCodes]
  · cases never
  · cases never
  · cases never

omit supplies bound in
theorem stagePosting_fails {staged : Balances Account} {effect : PlanEffect}
    {posting : Posting Account} (failed : stagePosting staged effect posting = .error refusal) :
    refusal.code ∈ postingCodes := by
  unfold stagePosting at failed
  split at failed
  · cases failed
    simp [postingCodes]
  · cases failed

theorem stageEffects_fails {effects : List PlanEffect} {staged : Balances Account}
    (postable : ∀ effect ∈ effects, PostableEffect view effect)
    (failed : stageEffects env input.symbols effects staged = .error refusal) :
    refusal.code ∈ postingCodes := by
  induction effects generalizing staged with
  | nil => cases failed
  | cons effect rest ih =>
      obtain ⟨here, later⟩ := List.forall_mem_cons.mp postable
      simp only [stageEffects, bind_error, require_error] at failed
      rcases failed with ⟨kind, _⟩ | ⟨_, _, resolving | ⟨_, _, posting | ⟨_, _, failed |
        ⟨_, _, never⟩⟩⟩⟩
      · exact absurd here.kind kind
      · exact resolvePosting_fails supplies bound here resolving
      · exact stagePosting_fails posting
      · exact ih later failed
      · cases never

omit supplies in
theorem guard_fails {effect : PlanEffect} (postable : PostableEffect view effect)
    {guard : ExprNode} (guarded : effect.guard = some guard) {failure : ExprError}
    (failed : evalGuard guard env = .error failure) : failure.code ∈ arithmeticCodes := by
  obtain ⟨entry, _, grounded, _, _, _, _, same⟩ := postable.entry
  exact evalGuard_fails (postable.shape guard guarded) (fun name read =>
    bound name (grounded.guard guard (same.symm.trans guarded) name read)) failed

omit supplies in
theorem observeGuard_fails {effect : PlanEffect} (postable : PostableEffect view effect)
    (failed : (observeGuard env effect).value = .error refusal) :
    refusal.code ∈ arithmeticCodes := by
  unfold observeGuard at failed
  split at failed
  · cases failed
  · rename_i guard guarded
    simp only [Traced.bind_error, Traced.ofExcept_value, mapError_error, Traced.observe_value,
      Traced.pure_value, reduceCtorEq, and_false, exists_false, or_false] at failed
    obtain ⟨failure, inner, rfl⟩ := failed
    exact guard_fails bound postable guarded inner

omit supplies bound in
theorem observeGate_fails {effect : PlanEffect}
    (failed : (observeGate input effect).value = .error refusal) :
    refusal.code = "attestation.rejected" := by
  unfold observeGate at failed
  split at failed
  · cases failed
  · simp only [Traced.bind_error, Traced.observe_value, Traced.ensure_error, reduceCtorEq,
      false_or] at failed
    obtain ⟨_, _, _, rfl⟩ := failed
    rfl

theorem stageLegs_fails {effects : List PlanEffect} {staged : Balances Account}
    (postable : ∀ effect ∈ effects, PostableEffect view effect)
    (failed : (stageLegs env input effects staged).value = .error refusal) :
    refusal.code ∈ valueCodes := by
  induction effects generalizing staged with
  | nil => cases failed
  | cons effect rest ih =>
      obtain ⟨here, later⟩ := List.forall_mem_cons.mp postable
      simp only [stageLegs, Traced.bind_error, Traced.ensure_error] at failed
      rcases failed with ⟨kind, _⟩ | ⟨_, _, guard | ⟨held, _, failed⟩⟩
      · exact absurd here.kind kind
      · exact arithmetic_value (observeGuard_fails bound here guard)
      · split at failed
        · simp only [Traced.bind_error, Traced.ofExcept_value, Traced.pure_value, reduceCtorEq,
            and_false, exists_false, or_false] at failed
          rcases failed with gate | ⟨_, _, resolving | ⟨_, _, posting | ⟨_, _, failed⟩⟩⟩
          · simp [observeGate_fails gate, valueCodes]
          · exact posting_value (resolvePosting_fails supplies bound here resolving)
          · exact posting_value (stagePosting_fails posting)
          · exact ih later failed
        · exact ih later failed

/-! Groups. -/

section Groups

variable {plan : CoordinationPlan} (postable : ∀ effect ∈ plan.effects, PostableEffect view effect)

include postable

omit supplies in
theorem classifyGroup_fails {committed : Std.ExtTreeSet String} {group : PlanEffectGroup}
    (failed : classifyGroup plan env committed group = .error refusal) :
    refusal.code ∈ arithmeticCodes := by
  simp only [classifyGroup, bind_error] at failed
  rcases failed with holds | ⟨_, _, never⟩
  · cases guarded : groupGuard plan group with
    | none => simp [guarded, groupHolds] at holds
    | some guard =>
        rw [guarded] at holds
        obtain ⟨failure, inner, rfl⟩ := mapError_error.mp holds
        obtain ⟨effect, placed, own⟩ := Option.bind_eq_some_iff.mp guarded
        exact guard_fails bound (postable effect (List.mem_of_getElem? placed)) own inner
  · cases never

theorem stageGroups_fails {infos : List GroupInfo} {staged : Balances Account}
    (failed : (stageGroups plan env input.symbols infos staged).value = .error refusal) :
    refusal.code ∈ postingCodes := by
  induction infos generalizing staged with
  | nil => cases failed
  | cons info rest ih =>
      have silent : (observeGroupGuard info).value = .ok () := by
        unfold observeGroupGuard
        split <;> rfl
      simp only [stageGroups, Traced.bind_error, silent, Traced.ofExcept_value,
        Traced.pure_value, reduceCtorEq, false_or, and_false, exists_false, or_false] at failed
      rcases failed with ⟨_, _, failed | ⟨_, _, failed⟩⟩
      · refine stageEffects_fails supplies bound (fun effect listed => ?_) failed
        split at listed
        · obtain ⟨index, _, placed⟩ := List.mem_filterMap.mp listed
          exact postable effect (List.mem_of_getElem? placed)
        · cases listed
      · exact ih failed

end Groups

end Staging

/-! Admission and evidence. -/

section Admission

variable {view : ProcedureView} {plan : CoordinationPlan} {input : TransitionInput}
  {refusal : Refusal} (supplies : Supplies input view)

include supplies

theorem typeInput_supplied {declared : String × String} (listed : declared ∈ view.inputs) :
    ∃ typed, typeInput input ⟨declared.1, declared.2⟩ = .ok typed := by
  by_cases numeric : isNumericType declared.2 = true
  · obtain ⟨⟨value, found⟩, absent⟩ := supplies.numbers declared listed numeric
    have category : isNumericCategory (classifyValueType declared.2) = true := numeric
    unfold typeInput
    rw [found, absent]
    simp [category]
  · obtain ⟨⟨token, found, _⟩, absent⟩ :=
      supplies.symbols declared listed (Bool.eq_false_iff.mpr numeric)
    have category : isNumericCategory (classifyValueType declared.2) = false :=
      Bool.eq_false_iff.mpr numeric
    unfold typeInput
    rw [found, absent]
    simp [category]

/-- The value of a declared key names an instance. -/
theorem workflowKeyValue_supplied (keyed : plan.workflowKey ∈ view.inputs.map (·.1))
    (named : plan.workflowKey ≠ "") : workflowKeyValue plan input ≠ "" := by
  obtain ⟨declared, listed, same⟩ := List.mem_map.mp keyed
  rw [workflowKeyValue, if_neg named, ← same]
  by_cases numeric : isNumericType declared.2 = true
  · obtain ⟨⟨value, found⟩, absent⟩ := supplies.numbers declared listed numeric
    rw [absent, found]
    intro empty
    exact toString_ne_empty value.toInt (congrArg String.toList empty)
  · obtain ⟨⟨token, found, some⟩, _⟩ :=
      supplies.symbols declared listed (Bool.eq_false_iff.mpr numeric)
    rw [found]
    exact some

theorem admission_fails {sha256Hex : List UInt8 → String}
    (inputs : plan.inputs = view.inputs.map fun input => ⟨input.1, input.2⟩)
    (keyed : plan.workflowKey ∈ view.inputs.map (·.1)) (named : plan.workflowKey ≠ "")
    (failed : (admission sha256Hex plan input).value = .error refusal) :
    refusal.code = "auth.denied" := by
  simp only [admission, Traced.bind_error, Traced.observe_value, Traced.ensure_error,
    Traced.ofExcept_value, Traced.pure_value, reduceCtorEq, false_or, and_false,
    exists_false, or_false] at failed
  rcases failed with ⟨_, _, ⟨_, rfl⟩ | ⟨_, _, ⟨empty, _⟩ | ⟨_, _, failed⟩⟩⟩
  · rfl
  · exact absurd (workflowKeyValue_supplied supplies keyed named) empty
  · obtain ⟨declared, listed, failed⟩ := collect_error failed
    rw [inputs] at listed
    obtain ⟨own, placed, rfl⟩ := List.mem_map.mp listed
    obtain ⟨typed, accepted⟩ := typeInput_supplied supplies placed
    cases failed.symm.trans accepted

theorem acceptEvidence_fails {policies : List AttestationPolicy}
    (declared : ∀ policy ∈ policies, policy ∈ view.attestations)
    (failed : (acceptEvidence input policies).value = .error refusal) :
    refusal.code = "attestation.rejected" := by
  induction policies with
  | nil => cases failed
  | cons policy rest ih =>
      obtain ⟨here, later⟩ := List.forall_mem_cons.mp declared
      obtain ⟨accepted, presented⟩ := supplies.verdicts policy here
      rw [acceptEvidence, presented] at failed
      simp only [Traced.bind_error, Traced.observe_value, Traced.ensure_error, reduceCtorEq,
        false_or] at failed
      rcases failed with ⟨_, _, ⟨_, rfl⟩ | ⟨_, _, failed⟩⟩
      · rfl
      · exact ih later failed

end Admission

/-! The plan of a verified procedure. -/

section Procedure

variable {parse : Bool → String → Except ExprError ExprNode} {proc : ProcedureOp}
  {plan : CoordinationPlan} {input : TransitionInput} {refusal : Refusal}

theorem ProcedureOp.Accepted.verified (accepted : proc.Accepted parse) : proc.Verified parse where
  compute _ _ _ _ _ listed := accepted.operations _ listed
  debit _ _ listed := accepted.operations _ listed
  credit _ _ listed := accepted.operations _ listed

theorem entry_kind {entry : EntryView} (listed : entry ∈ (viewOf proc).entries) :
    isPostingKind entry.kind = true := by
  rcases mem_entries.mp listed with ⟨op, _, rfl⟩ | ⟨op, _, rfl⟩ <;> rfl

theorem postable_effects (verified : proc.Verified parse) (grounded : Grounded (viewOf proc))
    (assembled : Assembled (planInputs (viewOf proc)) plan) :
    ∀ effect ∈ plan.effects, PostableEffect (viewOf proc) effect := by
  rw [assembled.effects_eq, List.forall_mem_map]
  rintro ⟨raw, index⟩ listed
  obtain ⟨entry, own, rfl⟩ := List.mem_map.mp
    (show raw ∈ (viewOf proc).entries.map effectInput from List.fst_mem_of_mem_zipIdx listed)
  exact {
    kind := entry_kind own
    entry := ⟨entry, own, grounded.entries entry own, rfl, rfl, rfl, rfl, rfl⟩
    shape := fun guard guarded => guard_shape verified own guarded }

/-- The workflow key is a declared input. -/
theorem workflowKey_declared (grounded : Grounded (viewOf proc))
    (assembled : Assembled (planInputs (viewOf proc)) plan) :
    plan.workflowKey ≠ "" ∧ plan.workflowKey ∈ (viewOf proc).inputs.map (·.1) := by
  have effects : (planInputs (viewOf proc)).effects = (viewOf proc).entries.map effectInput := rfl
  have key := assembled.key
  have resolves := resolveWorkflowKey_exists.mp ⟨_, key⟩
  unfold resolveWorkflowKey at key
  unfold KeyResolves at resolves
  by_cases explicit : (planInputs (viewOf proc)).explicitInstanceKey = ""
  · have acts : (viewOf proc).entries ≠ [] := by
      rcases grounded.acts with entries | policies
      · exact entries
      · intro none
        have effectless := assembled.effectless
        rw [checkEffectless, effects, none, if_pos ⟨rfl, policies⟩] at effectless
        simp [check_ok, requirePlan_ok, explicit] at effectless
    obtain ⟨entry, rest, entries⟩ := List.exists_cons_of_ne_nil acts
    have listed : entry ∈ (viewOf proc).entries := entries ▸ List.mem_cons_self
    have placed : effectInput entry ∈ (planInputs (viewOf proc)).effects :=
      List.mem_map_of_mem listed
    rw [if_neg (not_not.mpr explicit)] at resolves
    have own : entry.idempotencyKey.text = plan.workflowKey := (assembled.keyed _ placed).2
    exact ⟨own ▸ (resolves.1 _ placed).2, own ▸ (grounded.entries entry listed).key⟩
  · rw [if_pos explicit] at key
    cases found : (planInputs (viewOf proc)).inputs.find?
        (·.name = (planInputs (viewOf proc)).explicitInstanceKey) with
    | none => simp [found] at key
    | some declared =>
        simp only [found, check_ok, pure_ok] at key
        rw [← key.2.2]
        have named := List.find?_some found
        have listed := List.mem_of_find?_eq_some found
        obtain ⟨input, own, rfl⟩ := List.mem_map.mp
          (show declared ∈ (viewOf proc).inputs.map fun input => ⟨input.1, input.2⟩ from listed)
        exact ⟨explicit, List.mem_map.mpr ⟨input, own, by simpa using named⟩⟩

theorem settle_fails {sha256Hex : List UInt8 → String} {state : EvalState}
    (verified : proc.Verified parse) (grounded : Grounded (viewOf proc))
    (assembled : Assembled (planInputs (viewOf proc)) plan)
    (supplies : Supplies input (viewOf proc))
    (failed : (settle sha256Hex plan state input).value = .error refusal) :
    refusal.code ∈ valueCodes ∨ refusal.code = "state.invalid" := by
  have postable := postable_effects verified grounded assembled
  have computes : plan.computes = (viewOf proc).computes.map planCompute := assembled.computes
  have policies : plan.attestations = (viewOf proc).attestations := assembled.attestations
  obtain ⟨named, keyed⟩ := workflowKey_declared grounded assembled
  simp only [settle, Traced.bind_error, Traced.ensure_error, Prod.exists] at failed
  rcases failed with admitting | ⟨key, claim, _, ⟨_, rfl⟩ | ⟨_, _, failed⟩⟩
  · rw [admission_fails supplies assembled.inputs keyed named admitting]
    exact .inl (by simp [valueCodes])
  · exact .inl (by simp [valueCodes])
  · split at failed
    · rcases settleReplay_error failed with mismatch | ⟨invalid, _⟩
      · exact .inl (by simp [mismatch, valueCodes])
      · exact .inr invalid
    · have typed := compute_typed verified
      have numbers : ∀ name, NumericInput (viewOf proc) name → IsBound input.numeric name := by
        rintro name ⟨declared, listed, rfl, numeric⟩
        exact (supplies.numbers declared listed numeric).1
      simp only [Traced.bind_error] at failed
      rcases failed with computing | ⟨env, opened, failed⟩
      · simp only [transitionEnv, computes, Traced.bind_error, Traced.pure_value, reduceCtorEq,
          and_false, exists_false, or_false] at computing
        exact .inl (arithmetic_value
          (foldComputes_fails typed (readsKnown_mono numbers grounded.computes) computing))
      · have bound : ∀ name, NumericName (viewOf proc) name → IsBound env name := by
          simp only [transitionEnv, computes, Traced.bind_ok, Traced.pure_value,
            Except.ok.injEq] at opened
          obtain ⟨last, folded, rfl⟩ := opened
          intro name declared
          exact seedAcceptance_bound ((foldComputes_bound folded).mpr
            (declared.imp_left (numbers name)))
        split at failed
        · simp only [settleEvidence, Traced.bind_error, Traced.pure_value, reduceCtorEq,
            and_false, exists_false, or_false] at failed
          rw [acceptEvidence_fails supplies (fun policy listed => policies ▸ listed) failed]
          exact .inl (by simp [valueCodes])
        · split at failed
          · simp only [settleGroups, Traced.bind_error, Traced.ensure_error,
              Traced.ofExcept_value, Traced.pure_value, reduceCtorEq, and_false,
              exists_false, or_false] at failed
            rcases failed with ⟨_, rfl⟩ | ⟨_, _, classifying | ⟨_, _, staging⟩⟩
            · exact .inr rfl
            · obtain ⟨group, _, failed⟩ := collect_error classifying
              exact .inl (arithmetic_value (classifyGroup_fails bound postable failed))
            · exact .inl (posting_value (stageGroups_fails supplies bound postable staging))
          · simp only [settleLegs, Traced.bind_error, Traced.pure_value, reduceCtorEq,
              and_false, exists_false, or_false] at failed
            exact .inl (stageLegs_fails supplies bound postable failed)

end Procedure

theorem settles_outcome {sha256Hex : List UInt8 → String} {plan : CoordinationPlan}
    {state : EvalState} {input : TransitionInput} {settled : Settled}
    (settles : Settles sha256Hex plan state input settled) : settled.outcome ≠ .refused := by
  cases settles with
  | groups =>
      dsimp only [disposeGroups]
      split_ifs <;> simp
  | _ => simp

/-- In every reachable state, a transition of a verified procedure that supplies what it declares
is refused for its values only. -/
theorem verified_progress (sha256Hex : List UInt8 → String)
    {parse : Bool → String → Except ExprError ExprNode} {proc : ProcedureOp}
    {plan : CoordinationPlan} (accepted : proc.Accepted parse) (grounded : Grounded (viewOf proc))
    (normalized : normalizePlan (viewOf proc) = .ok plan) {state : EvalState}
    (reached : Reachable (nextState sha256Hex plan) EvalState.empty state)
    {input : TransitionInput} (supplies : Supplies input (viewOf proc))
    (refused : (evaluateTransition sha256Hex plan state input).outcome = .refused) :
    (evaluateTransition sha256Hex plan state input).refusalCode ∈ valueCodes := by
  have assembled := assemblePlan_ok normalized
  have closes : plan.terminal.success ≠ "" := by
    rw [assembled.terminal]
    simp only [planInputs, lifecycleModel]
    split <;> simp [quorumModel, openCloseModel]
  have sane := (reachable_oracle_invariant sha256Hex normalized closes reached).2.2.2.2.2.2 input
  cases settled : (settle sha256Hex plan state input).value with
  | ok outcome =>
      rw [evaluateTransition_settled settled] at refused
      exact absurd refused (settles_outcome (settle_ok settled))
  | error refusal =>
      rw [evaluateTransition_refused settled] at sane ⊢
      exact (settle_fails accepted.verified grounded assembled supplies settled).resolve_right sane

/-! A payment of a share. -/

def shareAst : ExprAttr := .bin .money '/' (.var .money 0) (.var .decimal 1)

def shareNode : ExprNode := .bin '/' (.var "total" .money) (.var "parts" .decimal) .money

def shareLeg (name party : String) : EntryOp where
  party := .input party "party"
  amount := .compute "share" [.input "total" "money", .input "parts" "decimal"]
  currency := .const "EUR"
  idempotencyKey := .input "key" "string"
  guardDeps := []
  symName := name
  ledger := "cash"
  owner := party
  participant := none
  guard := none
  guardAst := none
  memo := none

/-- One party pays another its share of a total. -/
def sharing : ProcedureOp where
  symName := "sharing"
  trigger := none
  version := some "1.0.0"
  instanceKey := some "key"
  body := [⟨.input "key" "string", 1⟩, ⟨.input "payer" "party", 2⟩, ⟨.input "payee" "party", 3⟩,
    ⟨.input "total" "money", 4⟩, ⟨.input "parts" "decimal", 5⟩,
    ⟨.compute [.input "total" "money", .input "parts" "decimal"] "share" "total / parts"
      shareAst, 6⟩,
    ⟨.debit (shareLeg "pay" "payer"), 7⟩, ⟨.credit (shareLeg "take" "payee"), 8⟩,
    ⟨.assertBalanced, 9⟩]

def sharingParse : Bool → String → Except ExprError ExprNode := fun _ _ => .ok shareNode

theorem sharing_accepted : sharing.Accepted sharingParse := by
  refine ⟨by decide +kernel, fun located listed => ?_⟩
  simp only [sharing, List.mem_cons, List.not_mem_nil, or_false] at listed
  rcases listed with rfl | rfl | rfl | rfl | rfl | rfl | rfl | rfl | rfl <;> decide +kernel

def sharingPlan : CoordinationPlan := ((normalizePlan (viewOf sharing)).toOption).getD default

theorem sharing_normalizes : normalizePlan (viewOf sharing) = .ok sharingPlan := rfl

theorem sharing_grounded : Grounded (viewOf sharing) where
  acts := .inl (List.cons_ne_nil _ _)
  computes := by
    refine ⟨fun name listed => ?_, trivial⟩
    have named : name ∈ ["total", "parts"] := listed
    simp only [List.mem_cons, List.not_mem_nil, or_false] at named
    rcases named with rfl | rfl
    · exact ⟨("total", "money"), by decide, rfl, rfl⟩
    · exact ⟨("parts", "decimal"), by decide, rfl, rfl⟩
  entries entry listed := by
    have moves : NumericName (viewOf sharing) "share" := .inr ⟨_, List.mem_cons_self, rfl⟩
    have placed : entry ∈ [buildEntry "debit" (shareLeg "pay" "payer"),
        buildEntry "credit" (shareLeg "take" "payee")] := listed
    simp only [List.mem_cons, List.not_mem_nil, or_false] at placed
    rcases placed with rfl | rfl
    · exact {
        ledger := by decide
        key := by decide
        amount := moves
        party := ⟨("payer", "party"), by decide, rfl, rfl⟩
        currency := show "EUR" ≠ "" by decide
        guard := by simp [buildEntry, shareLeg] }
    · exact {
        ledger := by decide
        key := by decide
        amount := moves
        party := ⟨("payee", "party"), by decide, rfl, rfl⟩
        currency := show "EUR" ≠ "" by decide
        guard := by simp [buildEntry, shareLeg] }

/-- A total to divide among no parts. -/
def partless : TransitionInput where
  numeric := .ofList [("total", (90 : Int64)), ("parts", 0)]
  symbols := .ofList [("key", "k"), ("payer", "a"), ("payee", "b")]
  attestations := ∅
  authorized := true

theorem partless_supplies : Supplies partless (viewOf sharing) where
  numbers declared listed numeric := by
    have inputs : declared ∈ [("key", "string"), ("payer", "party"), ("payee", "party"),
      ("total", "money"), ("parts", "decimal")] := listed
    simp only [List.mem_cons, List.not_mem_nil, or_false] at inputs
    rcases inputs with rfl | rfl | rfl | rfl | rfl
    · cases numeric
    · cases numeric
    · cases numeric
    · exact ⟨⟨90, by decide +kernel⟩, by decide +kernel⟩
    · exact ⟨⟨0, by decide +kernel⟩, by decide +kernel⟩
  symbols declared listed symbolic := by
    have inputs : declared ∈ [("key", "string"), ("payer", "party"), ("payee", "party"),
      ("total", "money"), ("parts", "decimal")] := listed
    simp only [List.mem_cons, List.not_mem_nil, or_false] at inputs
    rcases inputs with rfl | rfl | rfl | rfl | rfl
    · exact ⟨⟨"k", by decide +kernel, by decide⟩, by decide +kernel⟩
    · exact ⟨⟨"a", by decide +kernel, by decide⟩, by decide +kernel⟩
    · exact ⟨⟨"b", by decide +kernel, by decide⟩, by decide +kernel⟩
    · cases symbolic
    · cases symbolic
  verdicts policy listed := by cases listed

theorem sharing_progress :
    (evaluateTransition sampleHash sharingPlan EvalState.empty partless).refusalCode ∈
      valueCodes :=
  verified_progress sampleHash sharing_accepted sharing_grounded sharing_normalizes ⟨[], rfl⟩
    partless_supplies (by decide +kernel)

end Neutrino
