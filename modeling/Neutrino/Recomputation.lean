import Neutrino.EvidencePlan
import Neutrino.ExprPrinting
import Neutrino.TraceEquivalence
import Neutrino.TransitionProgress

/-! The trace that the equivalence harness recomputes from a procedure and a scenario, beside the
observation of the reference transition it is compared with. -/

namespace Neutrino

open Checked Ledger

/-! The reference. -/

def ScenarioInput.int? : ScenarioInput → Option Int64
  | .int i => some i
  | .string _ => none

def ScenarioInput.string? : ScenarioInput → Option String
  | .int _ => none
  | .string s => some s

/-- A policy that the scenario says nothing of is accepted. -/
def referenceInput (plan : CoordinationPlan) (scenario : Scenario) : TransitionInput where
  numeric := scenario.inputs.filterMap fun _ value => value.int?
  symbols := scenario.inputs.filterMap fun _ value => value.string?
  attestations := plan.attestations.foldl (fun verdicts policy =>
    verdicts.insert policy.input ((scenario.accepted[policy.input]?).getD true)) ∅
  authorized := true

def referenceTransition (sha256Hex : List UInt8 → String) (plan : CoordinationPlan)
    (scenario : Scenario) : TransitionResult :=
  evaluateTransition sha256Hex plan EvalState.empty (referenceInput plan scenario)

/-! The recomputation. Where the harness throws it has no result. -/

/-- `std::stoll`: blanks, a sign, and the digits that follow. -/
def stoll (text : String) : Option Int64 :=
  let rest := text.toList.dropWhile isSpace
  let digits := if rest.head? ∈ [some '-', some '+'] then rest.tail else rest
  (decimalDigits (digits.takeWhile Char.isDigit)).bind fun value =>
    MachineInt.checked (if rest.head? = some '-' then -value else value)

def refValue (ref : Ref) (env computed : Env) : Option Int64 :=
  if ref.isLit then stoll ref.text else (computed[ref.text]?).or env[ref.text]?

/-- The environment that the computes end in, and what they computed. -/
def recomputeComputes : List ComputeView → Env → Env → Option (Env × Env)
  | [], env, computed => some (env, computed)
  | compute :: rest, env, computed => do
      let val ← (evalExpr compute.ast env).toOption
      recomputeComputes rest (env.insert compute.name val) (computed.insert compute.name val)

/-- `e.guard.empty() || includeGuarded(e)` -/
def isIncluded (env : Env) (entry : EntryView) : Option Bool :=
  if entry.guard = "" then some true
  else
    match entry.guardAst with
    | none => some false
    | some guard => (evalGuard guard env).toOption

def entryEvents (env : Env) : List EntryView → Option (List String)
  | [] => some []
  | entry :: rest => do
      let included ← isIncluded env entry
      let later ← entryEvents env rest
      return if included then (pascalCase entry.name ++
        (if entry.kind = "debit" then "Debited" else "Credited")) :: later else later

def triggerEvent (view : ProcedureView) : String := view.trigger.elim "ProcedureInvoked" pascalCase

def eventChain (view : ProcedureView) (env : Env) : Option (List String) := do
  let legs ← entryEvents env view.entries
  return triggerEvent view ::
    (view.computes.map fun compute => pascalCase compute.name ++ "Computed") ++ legs ++
    if view.entries = [] then [] else [pascalCase view.name ++ "Reconciled"]

def guardHolds (env : Env) (entry : EntryView) : Option Bool :=
  match entry.guardAst with
  | none => some true
  | some guard => (evalGuard guard env).toOption

def entryPostings (env computed : Env) : List EntryView → Option (List (Posting String))
  | [] => some []
  | entry :: rest => do
      if ← guardHolds env entry then
        let amt ← refValue entry.amount env computed
        let later ← entryPostings env computed rest
        return ⟨entry.ledger, if entry.kind = "credit" then amt else -amt⟩ :: later
      else entryPostings env computed rest

structure Recomputation where
  computed : Env
  events : List String
  postings : List (Posting String)

def recomputation (view : ProcedureView) (scenario : Scenario) : Option Recomputation := do
  let (env, computed) ← recomputeComputes view.computes (numericInputs view scenario) ∅
  let events ← eventChain view env
  let postings ← entryPostings env computed view.entries
  return ⟨computed, events, postings⟩

/-- The endings of the events that the harness keeps of a chain. -/
def isMovement (event : String) : Bool :=
  ["Debited", "Credited", "Reconciled"].any fun ending =>
    ending.toList.isSuffixOf event.toList

/-- The nets, with a zero for each ledger that the comparison with the expected ones looks up in
vain. -/
def lookUpExpected (nets : Balances String) (expected : List String) : Balances String :=
  expected.foldl (fun nets ledger => nets.insertIfNew ledger 0) nets

/-- The key of the scenario. -/
def recomputedKeys (plan : CoordinationPlan) (scenario : Scenario) : Std.ExtTreeSet String :=
  (scenario.inputs[plan.workflowKey]?).elim ∅ fun value =>
    (∅ : Std.ExtTreeSet String).insert ((value.string?).getD ((value.int?).elim "" toString))

/-- The candidate, unless the net of a ledger leaves `long long` on the way. -/
def candidateTrace (plan : CoordinationPlan) (scenario : Scenario) (expected : List String)
    (found : Recomputation) : Option ObservedTrace :=
  (postAll ∅ found.postings).map fun nets => {
    outcome := "committed"
    computed := found.computed
    events := if plan.evidenceOnly then [pascalCase plan.procedure ++ "Accepted"]
      else found.events.filter isMovement
    ledger := lookUpExpected nets expected
    terminal := plan.terminal.success
    postedKeys := recomputedKeys plan scenario
    refusalCode := "" }

/-! The environments. -/

section Environments

variable {view : ProcedureView} {scenario : Scenario} {plan : CoordinationPlan}

theorem numericInputs_given {name : String} {value : Int64}
    (found : (numericInputs view scenario)[name]? = some value) :
    scenario.inputs[name]? = some (.int value) := by
  unfold numericInputs at found
  generalize view.inputs = inputs at found
  have given : ∀ own : Int64, (∅ : Env)[name]? = some own →
      scenario.inputs[name]? = some (.int own) := by simp
  revert found given
  generalize (∅ : Env) = env
  intro found given
  induction inputs generalizing env with
  | nil => exact given value found
  | cons input rest ih =>
      refine ih _ found fun own bound => ?_
      unfold bindInput at bound
      split at bound
      · rw [Std.ExtTreeMap.getElem?_insert] at bound
        split at bound <;> simp_all
      · exact given own bound

/-- Both evaluations start from the same numbers. -/
theorem referenceInput_numeric (validated : Validated view scenario) :
    (referenceInput plan scenario).numeric = numericInputs view scenario := by
  refine Std.ExtTreeMap.ext_getElem? fun name => ?_
  rw [referenceInput, Std.ExtTreeMap.getElem?_filterMap']
  cases found : (numericInputs view scenario)[name]? with
  | some value => simp [numericInputs_given found, ScenarioInput.int?]
  | none =>
      have absent : ¬GivenAsInteger scenario name := fun given => by
        obtain ⟨value, bound⟩ := (validated.bound name).mpr given
        cases found.symm.trans bound
      rw [Option.bind_eq_none_iff]
      intro value given
      cases value with
      | int i => exact absurd ⟨i, given⟩ absent
      | string s => rfl

end Environments

/-- What an observation adds to the computed values. -/
def recordCompute (computed : Env) : Observation → Env
  | .compute name value => computed.insert name value
  | _ => computed

theorem computedOf_eq (trace : List Observation) :
    computedOf trace = trace.foldl recordCompute ∅ := by
  unfold computedOf
  congr

def Known (computed env : Env) : Prop :=
  ∀ (name : String) (value : Int64), computed[name]? = some value → env[name]? = some value

theorem recompute_of_fold {computes : List ComputeView} {env last computed : Env}
    (known : Known computed env)
    (folded : (foldComputes (computes.map planCompute) env).value = .ok last) :
    ∃ found, recomputeComputes computes env computed = some (last, found) ∧
      found = (foldComputes (computes.map planCompute) env).trace.foldl recordCompute computed ∧
      Known found last := by
  induction computes generalizing env computed with
  | nil =>
      cases folded
      exact ⟨computed, rfl, rfl, known⟩
  | cons compute rest ih =>
      simp only [List.map_cons, foldComputes, Traced.bind_ok, Traced.ofExcept_value,
        Traced.observe_value] at folded
      obtain ⟨value, here, _, _, folded⟩ := folded
      have evaluated : evalExpr compute.ast env = .ok value := mapError_ok.mp here
      obtain ⟨found, recomputed, trace, kept⟩ := @ih (env.insert compute.name value)
        (computed.insert compute.name value) (fun name other => by
          rw [Std.ExtTreeMap.getElem?_insert, Std.ExtTreeMap.getElem?_insert]
          split
          · exact id
          · exact known name other) folded
      refine ⟨found, ?_, ?_, kept⟩
      · rw [recomputeComputes, evaluated]
        exact recomputed
      · rw [trace, List.map_cons, foldComputes, Traced.bind_of_ok _ here, Traced.bind_of_ok _ rfl]
        rfl

/-! The entries, beside the legs that the evaluator stages. -/

theorem stoll_of_integer {text : String} {value : Int64} (read : getAsInteger text = some value) :
    stoll text = some value := by
  have whole : ∀ {digits : List Char} {number : Nat}, decimalDigits digits = some number →
      digits.takeWhile Char.isDigit = digits ∧ ∃ first rest, digits = first :: rest ∧
        first.isDigit = true := by
    intro digits number read
    unfold decimalDigits at read
    split_ifs at read with proper
    obtain ⟨nonempty, all⟩ := proper
    refine ⟨List.takeWhile_eq_self_iff.mpr (List.all_eq_true.mp all), ?_⟩
    cases digits with
    | nil => exact absurd rfl nonempty
    | cons first rest => exact ⟨first, rest, rfl, List.all_eq_true.mp all first List.mem_cons_self⟩
  unfold getAsInteger at read
  split at read
  · rename_i digits negative
    obtain ⟨number, digital, fits⟩ := Option.bind_eq_some_iff.mp read
    simp [stoll, negative, isSpace, (whole digital).1, digital, fits]
  · obtain ⟨number, digital, fits⟩ := Option.bind_eq_some_iff.mp read
    obtain ⟨taken, first, rest, digits, isDigit⟩ := whole digital
    have other : ∀ c : Char, c.isDigit = false → first ≠ c := by
      rintro c isOther rfl
      cases isDigit.symm.trans isOther
    have blank : isSpace first = false := isSpace_nameChar (isNameChar_digit isDigit)
    have unsigned : ∀ sign : Char, sign.isDigit = false → text.toList.head? ≠ some sign := by
      intro sign isOther same
      rw [digits] at same
      exact other sign isOther (Option.some.inj same)
    have start : text.toList.dropWhile isSpace = text.toList := by
      rw [digits, List.dropWhile_cons_of_neg (by simp [blank])]
    simp only [stoll, start, List.mem_cons, List.not_mem_nil, or_false]
    rw [if_neg, taken, digital]
    · rw [Option.bind_some, if_neg (unsigned '-' (by decide))]
      exact fits
    · exact not_or.mpr ⟨unsigned '-' (by decide), unsigned '+' (by decide)⟩

/-- An entry that reads no flag of a policy. -/
structure Apart (plan : CoordinationPlan) (entry : EntryView) : Prop where
  guard : ∀ guard ∈ entry.guardAst, ∀ name ∈ guardReads guard, ¬IsFlag plan name
  amount : entry.amount.isLit = false → ¬IsFlag plan entry.amount.text

/-- The legs of the recomputed postings, with their accounts narrowed to ledgers. -/
def narrowed (pending : List Pending) : List (Posting String) :=
  pending.map fun leg => ⟨leg.posting.account.ledger, leg.posting.delta⟩

section Legs

variable {plan : CoordinationPlan} {raw : PlanInputs} {env own computed : Env}
  (shared : ∀ name, ¬IsFlag plan name → env[name]? = own[name]?) (known : Known computed own)

include shared

theorem guard_recomputed {entry : EntryView} (apart : Apart plan entry)
    (text : entry.guard = "" ↔ entry.guardAst = none) {effect : PlanEffect}
    (same : effect.guard = entry.guardAst) {held : Bool}
    (observed : (observeGuard env effect).value = .ok held) :
    isIncluded own entry = some held ∧ guardHolds own entry = some held := by
  rw [observeGuard, same] at observed
  rw [isIncluded, guardHolds]
  cases guarded : entry.guardAst with
  | none =>
      rw [guarded] at observed
      cases observed
      exact ⟨if_pos (text.mpr guarded), rfl⟩
  | some guard =>
      simp only [guarded, Traced.bind_ok, Traced.ofExcept_value, Traced.pure_value, mapError_ok,
        Except.ok.injEq] at observed
      obtain ⟨value, evaluated, _, _, rfl⟩ := observed
      rw [evalGuard_congr fun name read =>
        shared name (apart.guard guard (by simp [guarded]) name read)] at evaluated
      rw [if_neg fun empty => by simp [text.mp empty] at guarded]
      simp only [evaluated]
      exact ⟨rfl, rfl⟩

include known

theorem amount_recomputed {entry : EntryView} (apart : Apart plan entry) {effect : PlanEffect}
    (same : effect.amount = entry.amount.operandKey) {symbols : Std.ExtTreeMap String String}
    {posting : Posting Account} (resolved : resolvePosting env symbols effect = .ok posting) :
    ∃ amt, refValue entry.amount own computed = some amt ∧
      posting.account.ledger = effect.ledger ∧
      posting.delta = if effect.kind = "credit" then amt else -amt := by
  simp only [resolvePosting, resolveAmount, same, splitOperand_ref, bind_ok, require_ok,
    mapError_ok, pure_ok] at resolved
  obtain ⟨_, _, _, ⟨amt, value, _, _, rfl⟩, _, _, _, _, rfl⟩ := resolved
  refine ⟨amt, ?_, rfl, rfl⟩
  rw [refValue]
  cases literal : entry.amount.isLit with
  | true =>
      simp only [literal, if_true, operandAmount] at value
      split at value
      · cases value
      · rename_i read
        cases value
        exact stoll_of_integer read
  | false =>
      simp only [literal, Bool.false_eq_true, if_false, operandAmount,
        shared _ (apart.amount literal)] at value ⊢
      split at value
      · cases value
      · rename_i found
        cases value
        cases early : computed[entry.amount.text]? with
        | none => exact found
        | some other => exact (known _ _ early).symm.trans found

/-- What the harness makes of the entries are the events and the postings of the staged legs. -/
theorem entries_recomputed {input : TransitionInput} {entries : List EntryView}
    (apart : ∀ entry ∈ entries, Apart plan entry)
    (texts : ∀ entry ∈ entries, entry.guard = "" ↔ entry.guardAst = none) {index : Nat}
    {staged final : Balances Account} {pending : List Pending}
    (accepted : (stageLegs env input
      (((entries.map effectInput).zipIdx index).map (boundEffect raw)) staged).value =
        .ok (pending, final)) :
    entryEvents own entries = some (pending.map fun leg => effectEvent leg.effect) ∧
      entryPostings own computed entries = some (narrowed pending) := by
  induction entries generalizing index staged pending with
  | nil =>
      cases accepted
      exact ⟨rfl, rfl⟩
  | cons entry rest ih =>
      obtain ⟨here, others⟩ := List.forall_mem_cons.mp apart
      obtain ⟨text, texts⟩ := List.forall_mem_cons.mp texts
      simp only [List.map_cons, List.zipIdx_cons, stageLegs, Traced.bind_ok, Traced.ensure_ok]
        at accepted
      obtain ⟨_, _, held, observed, continued⟩ := accepted
      obtain ⟨included, holds⟩ := guard_recomputed shared here text rfl observed
      simp only [entryEvents, entryPostings, included, holds]
      cases held with
      | false => simpa using ih others texts continued
      | true =>
          simp only [if_true, Traced.bind_ok, Traced.ofExcept_value, Traced.pure_value,
            Except.ok.injEq, Prod.mk.injEq, Prod.exists] at continued
          obtain ⟨_, _, posting, resolved, posted, _, later, _, continued, rfl, rfl⟩ := continued
          obtain ⟨amt, valued, ledger, delta⟩ :=
            amount_recomputed shared known here rfl resolved
          obtain ⟨events, postings⟩ := ih others texts continued
          simp only [events, postings, valued, narrowed, List.map_cons, ledger, delta]
          exact ⟨rfl, rfl⟩

end Legs

/-! The trace of the evaluator. -/

/-- An evaluation that observes no compute. -/
def Uncomputed {α : Type} (evaluation : Evaluation α) : Prop :=
  ∀ observation ∈ evaluation.trace, ∀ computed, recordCompute computed observation = computed

namespace Uncomputed

variable {α β : Type}

theorem bind {first : Evaluation α} {next : α → Evaluation β} (before : Uncomputed first)
    (after : ∀ value, Uncomputed (next value)) : Uncomputed (first >>= next) :=
  Traced.forall_bind before fun value _ => after value

theorem silent {evaluation : Evaluation α} (quiet : evaluation.trace = []) :
    Uncomputed evaluation := by
  simp [Uncomputed, quiet]

theorem observed {observation : Observation}
    (other : ∀ computed, recordCompute computed observation = computed) :
    Uncomputed (Traced.observe observation) := by
  simpa [Uncomputed] using other

theorem admission (sha256Hex : List UInt8 → String) (plan : CoordinationPlan)
    (input : TransitionInput) : Uncomputed (Neutrino.admission sha256Hex plan input) :=
  bind (observed fun _ => rfl) fun _ => bind (silent (Traced.ensure_trace _ _)) fun _ =>
    bind (silent (Traced.ensure_trace _ _)) fun _ => bind (silent rfl) fun _ => silent rfl

theorem acceptEvidence (input : TransitionInput) (policies : List AttestationPolicy) :
    Uncomputed (Neutrino.acceptEvidence input policies) := by
  induction policies with
  | nil => exact silent rfl
  | cons policy rest ih =>
      rw [Neutrino.acceptEvidence]
      split
      · exact silent rfl
      · exact bind (observed fun _ => rfl) fun _ =>
          bind (silent (Traced.ensure_trace _ _)) fun _ => ih

theorem stageLegs (env : Env) (input : TransitionInput) (effects : List PlanEffect)
    (staged : Balances Account) : Uncomputed (Neutrino.stageLegs env input effects staged) := by
  induction effects generalizing staged with
  | nil => exact silent rfl
  | cons effect rest ih =>
      have guard : Uncomputed (observeGuard env effect) := by
        unfold observeGuard
        split
        · exact silent rfl
        · exact bind (silent rfl) fun _ => bind (observed fun _ => rfl) fun _ => silent rfl
      have gate : Uncomputed (observeGate input effect) := by
        unfold observeGate
        split
        · exact silent rfl
        · exact bind (observed fun _ => rfl) fun _ => silent (Traced.ensure_trace _ _)
      refine bind (silent (Traced.ensure_trace _ _)) fun _ => bind guard fun held => ?_
      split
      · exact bind gate fun _ => bind (silent rfl) fun _ => bind (silent rfl) fun _ =>
          bind (ih _) fun _ => silent rfl
      · exact ih _

theorem fold {evaluation : Evaluation α} (uncomputed : Uncomputed evaluation) (computed : Env) :
    evaluation.trace.foldl recordCompute computed = computed := by
  rw [Uncomputed] at uncomputed
  generalize evaluation.trace = trace at uncomputed
  induction trace with
  | nil => rfl
  | cons observation rest ih =>
      obtain ⟨here, later⟩ := List.forall_mem_cons.mp uncomputed
      rw [List.foldl_cons, here, ih later]

end Uncomputed

/-- A transition on no state computes what its environment does. -/
theorem computedOf_settle {sha256Hex : List UInt8 → String} {plan : CoordinationPlan}
    {input : TransitionInput} {key claim : String} {env : Env} (single : isTemporal plan = false)
    (opens : Opens sha256Hex plan EvalState.empty input key claim env) :
    computedOf (settle sha256Hex plan EvalState.empty input).trace =
      computedOf (foldComputes plan.computes input.numeric).trace := by
  have agrees : (Traced.ensure True ⟨"claim.mismatch", ""⟩ : Evaluation Unit).value = .ok () :=
    Traced.ensure_ok.mpr trivial
  obtain ⟨last, folded, _⟩ := Traced.bind_ok.mp opens.evaluated
  have unposted : (EvalState.empty.postedKeys.contains key) = false := by simp [EvalState.empty]
  have unclaimed : EvalState.empty.keyClaim[key]? = none := by simp [EvalState.empty]
  rw [settle, Traced.bind_of_ok _ opens.admitted]
  simp only [unclaimed, unposted, Option.all_none, Bool.and_false, Bool.false_eq_true, if_false,
    single]
  rw [Traced.bind_of_ok _ agrees, Traced.bind_of_ok _ opens.evaluated, transitionEnv,
    Traced.bind_of_ok _ folded]
  simp only [computedOf_eq, Traced.ensure_trace, Traced.pure_trace, List.nil_append,
    List.append_nil, List.foldl_append, (Uncomputed.admission sha256Hex plan input).fold]
  split
  · exact (Uncomputed.bind (.acceptEvidence _ _) fun _ => .silent rfl).fold _
  · exact (Uncomputed.bind (.stageLegs _ _ _ _) fun _ => .silent rfl).fold _

/-! The nets. -/

/-- The nets of the accounts are the nets of the recomputed postings. -/
theorem nets_recomputed {pending : List Pending} {staged : Balances Account}
    {nets own : Balances String} (booked : postAll ∅ (pending.map (·.posting)) = some staged)
    (observed : postAll ∅ (ledgerPostings staged.toList) = some nets)
    (recomputed : postAll ∅ (narrowed pending) = some own) : nets = own := by
  refine balances_ext (fun ledger => ?_) fun ledger => ?_
  · rw [mem_postAll observed, mem_postAll recomputed]
    have held := mem_postAll booked
    simp only [List.mem_map, exists_exists_and_eq_and, Std.ExtTreeMap.not_mem_empty, or_false]
      at held
    simp only [ledgerPostings, narrowed, List.mem_map, exists_exists_and_eq_and,
      Std.ExtTreeMap.not_mem_empty, or_false]
    constructor
    · rintro ⟨entry, listed, rfl⟩
      obtain ⟨leg, own, same⟩ := (held entry.1).mp
        (Std.ExtTreeMap.mem_iff_isSome_getElem?.mpr (by
          rw [Std.ExtTreeMap.mem_toList_iff_getElem?_eq_some.mp listed]; rfl))
      exact ⟨leg, own, by rw [same]⟩
    · rintro ⟨leg, own, rfl⟩
      obtain ⟨value, found⟩ := Option.isSome_iff_exists.mp
        (Std.ExtTreeMap.mem_iff_isSome_getElem?.mp ((held _).mpr ⟨leg, own, rfl⟩))
      exact ⟨(_, value), Std.ExtTreeMap.mem_toList_iff_getElem?_eq_some.mpr found, rfl⟩
  · rw [balance_postAll observed, balance_postAll recomputed, netWhere_ledgerPostings,
      ← totalWhere_ledger, totalWhere_postAll _ booked, totalWhere_empty, Int.zero_add]
    simp only [narrowed, netWhere, List.filter_map, List.map_map]
    rfl

theorem lookUpExpected_same {nets : Balances String} {expected : List String} :
    nets = lookUpExpected nets expected ↔ ∀ ledger ∈ expected, ledger ∈ nets := by
  have held : ∀ {expected : List String} {nets : Balances String} {ledger : String},
      ledger ∈ lookUpExpected nets expected ↔ ledger ∈ expected ∨ ledger ∈ nets := by
    intro expected
    induction expected with
    | nil => simp [lookUpExpected]
    | cons first rest ih =>
        intro nets ledger
        rw [lookUpExpected, List.foldl_cons]
        refine ih.trans ?_
        simp [or_left_comm, or_assoc, eq_comm (a := first)]
  constructor
  · intro same ledger listed
    rw [same]
    exact held.mpr (.inl listed)
  · intro all
    induction expected with
    | nil => rfl
    | cons first rest ih =>
        obtain ⟨here, later⟩ := List.forall_mem_cons.mp all
        have kept : nets.insertIfNew first 0 = nets := by
          refine Std.ExtTreeMap.ext_getElem? fun ledger => ?_
          rw [Std.ExtTreeMap.getElem?_insertIfNew, if_neg fun absent => absent.2 here]
        rw [lookUpExpected, List.foldl_cons, kept]
        exact ih later

/-! The events. -/

theorem isMovement_ending (name : String) {ending : String}
    (listed : ending ∈ ["Debited", "Credited", "Reconciled"]) :
    isMovement (name ++ ending) = true :=
  List.any_eq_true.mpr ⟨ending, listed, by simp⟩

theorem isMovement_computed (name : String) : isMovement (name ++ "Computed") = false := by
  rw [isMovement, List.any_eq_false]
  intro ending listed suffix
  rw [List.isSuffixOf_iff_suffix, String.toList_append] at suffix
  have both := List.suffix_or_suffix_of_suffix suffix (List.suffix_append _ "Computed".toList)
  simp only [List.mem_cons, List.not_mem_nil, or_false] at listed
  rcases listed with rfl | rfl | rfl <;> revert both <;> decide

/-- The movements of a chain are those of its legs, and its trigger's if that looks like one. -/
theorem movements_recomputed {view : ProcedureView} {env : Env} {effects : List PlanEffect}
    (legs : entryEvents env view.entries = some (effects.map effectEvent)) :
    ∃ events, eventChain view env = some events ∧ events.filter isMovement =
      (if isMovement (triggerEvent view) then [triggerEvent view] else []) ++
        effects.map effectEvent ++
          if view.entries = [] then [] else [pascalCase view.name ++ "Reconciled"] := by
  have computed : (view.computes.map fun compute => pascalCase compute.name ++
      "Computed").filter isMovement = [] := by
    simp [List.filter_eq_nil_iff, isMovement_computed]
  have moved : (effects.map effectEvent).filter isMovement = effects.map effectEvent := by
    rw [List.filter_eq_self, List.forall_mem_map]
    intro effect _
    unfold effectEvent
    split <;> exact isMovement_ending _ (by decide)
  refine ⟨_, by rw [eventChain, legs]; rfl, ?_⟩
  have ended := isMovement_ending (pascalCase view.name)
    (by decide : "Reconciled" ∈ ["Debited", "Credited", "Reconciled"])
  rw [List.cons_append, List.cons_append, List.filter_cons, List.filter_append, List.filter_append,
    computed, moved]
  split <;> split <;> simp [ended]

/-! The agreement. -/

theorem verifyEntryOp_text {parse : Bool → String → Except ExprError ExprNode}
    (worded : ∀ node, parse true "" ≠ .ok node) {env : CategoryEnv} (kind : String)
    {entry : EntryOp} (verified : verifyEntryOp parse env entry = .ok ()) :
    (buildEntry kind entry).guard = "" ↔ (buildEntry kind entry).guardAst = none := by
  simp only [verifyEntryOp, check_ok, require_ok] at verified
  obtain ⟨_, both, checked⟩ := verified
  cases text : entry.guard with
  | none => simp [buildEntry, text]
  | some guard =>
      rw [text] at both
      obtain ⟨ast, present⟩ := Option.isSome_iff_exists.mp both.symm
      have filled : guard ≠ "" := by
        rintro rfl
        simp only [present, text, verifyTypedExpr, bind_ok, mapError_ok] at checked
        obtain ⟨_, _, _, _, node, parsed, _⟩ := checked
        exact worded node parsed
      simp [buildEntry, text, present, filled]

theorem guard_text {parse : Bool → String → Except ExprError ExprNode} {proc : ProcedureOp}
    (verified : proc.Verified parse) (worded : ∀ node, parse true "" ≠ .ok node) :
    ∀ entry ∈ (viewOf proc).entries, entry.guard = "" ↔ entry.guardAst = none := by
  intro entry listed
  obtain ⟨⟨op, line⟩, placed, took⟩ := mem_viewed listed
  cases op with
  | debit op =>
      cases took
      exact verifyEntryOp_text worded _ (verified.debit op line placed)
  | credit op =>
      cases took
      exact verifyEntryOp_text worded _ (verified.credit op line placed)
  | _ => cases took

section Agreement

variable {sha256Hex : List UInt8 → String} {view : ProcedureView} {scenario : Scenario}
  {plan : CoordinationPlan} {key claim : String} {env : Env}

/-- The recomputed environment lacks the flags of the policies only. -/
theorem environment_recomputed (assembled : Assembled (planInputs view) plan)
    (validated : Validated view scenario) (single : isTemporal plan = false)
    (opens : Opens sha256Hex plan EvalState.empty (referenceInput plan scenario) key claim env) :
    ∃ own computed, recomputeComputes view.computes (numericInputs view scenario) ∅ =
        some (own, computed) ∧ Known computed own ∧
      computed = computedOf (settle sha256Hex plan EvalState.empty
        (referenceInput plan scenario)).trace ∧
      ∀ name, ¬IsFlag plan name → env[name]? = own[name]? := by
  have computes : plan.computes = view.computes.map planCompute := assembled.computes
  obtain ⟨last, folded, rest⟩ := Traced.bind_ok.mp opens.evaluated
  cases rest
  have trace := computedOf_settle single opens
  rw [computes, referenceInput_numeric validated] at folded trace
  obtain ⟨computed, recomputed, same, known⟩ := @recompute_of_fold _ _ _ ∅ (by simp [Known]) folded
  exact ⟨last, computed, recomputed, known, same.trans ((computedOf_eq _).symm.trans trace.symm),
    fun name other => seedAcceptance_other _ _ other⟩

theorem key_recomputed (named : workflowKeyValue plan (referenceInput plan scenario) ≠ "") :
    recomputedKeys plan scenario = (∅ : Std.ExtTreeSet String).insert
      (workflowKeyValue plan (referenceInput plan scenario)) := by
  unfold workflowKeyValue at named ⊢
  split at named
  · exact absurd rfl named
  · rename_i keyed
    simp only [referenceInput, Std.ExtTreeMap.getElem?_filterMap', if_neg keyed] at named ⊢
    unfold recomputedKeys
    cases given : scenario.inputs[plan.workflowKey]? with
    | none => simp [given] at named
    | some value => cases value <;> simp [ScenarioInput.string?, ScenarioInput.int?]

/-- What a transition on no state posts, and what the harness makes of the same entries. -/
theorem settled_recomputed (assembled : Assembled (planInputs view) plan)
    (evidenceOnly : plan.evidenceOnly = true ↔ plan.effects = [] ∧ plan.attestations ≠ [])
    (validated : Validated view scenario) (single : isTemporal plan = false)
    (apart : ∀ entry ∈ view.entries, Apart plan entry)
    (texts : ∀ entry ∈ view.entries, entry.guard = "" ↔ entry.guardAst = none)
    {settled : Settled} (decided : (settle sha256Hex plan EvalState.empty
      (referenceInput plan scenario)).value = .ok settled) :
    ∃ found pending staged key claim, recomputation view scenario = some found ∧
      found.computed = computedOf (settle sha256Hex plan EvalState.empty
        (referenceInput plan scenario)).trace ∧
      found.postings = narrowed pending ∧
      postAll ∅ (pending.map (·.posting)) = some staged ∧
      settled.outcome = .terminal ∧
      settled.next =
        ({ EvalState.empty with balances := staged }.pin key claim).close plan key ∧
      recomputedKeys plan scenario = (∅ : Std.ExtTreeSet String).insert key ∧
      Uncomputed (⟨settled.published, .ok ()⟩ : Evaluation Unit) ∧
      ((if plan.evidenceOnly then [pascalCase plan.procedure ++ "Accepted"]
        else found.events.filter isMovement) = eventsOf settled.published ↔
        plan.evidenceOnly = true ∨ isMovement (triggerEvent view) = false) := by
  have length : plan.effects.length = (view.entries.map effectInput).length :=
    assembled.effects_length
  rw [List.length_map] at length
  cases settle_ok decided with
  | replay _ posted => simp [EvalState.empty] at posted
  | groups _ _ temporal => cases single.symm.trans temporal
  | @evidence key claim env opens effectless declared =>
      obtain ⟨own, computed, recomputed, _, same, _⟩ :=
        environment_recomputed assembled validated single opens
      have entries : view.entries = [] := by
        rw [← List.length_eq_zero_iff, ← length, effectless, List.length_nil]
      obtain ⟨events, chain, _⟩ := @movements_recomputed view own [] (by rw [entries]; rfl)
      obtain ⟨_, rfl, named, _⟩ := admission_ok opens.admitted
      refine ⟨⟨computed, events, []⟩, [], ∅, _, claim, ?_, same, rfl, rfl, rfl, rfl,
        key_recomputed named, by simp [Uncomputed, recordCompute], ?_⟩
      · simp [recomputation, recomputed, chain, entries, entryPostings]
      · simp [evidenceOnly, effectless, declared, eventsOf]
  | @legs key claim env pending staged opens effectful _ legs =>
      obtain ⟨own, computed, recomputed, known, same, shared⟩ :=
        environment_recomputed assembled validated single opens
      obtain ⟨_, _, _, booked⟩ := stageLegs_ok legs
      rw [assembled.effects_eq] at legs
      obtain ⟨fired, postings⟩ := entries_recomputed shared known apart texts legs
      obtain ⟨events, chain, movements⟩ := @movements_recomputed view own
        (pending.map (·.effect)) (by rw [fired, List.map_map]; rfl)
      obtain ⟨_, rfl, named, _⟩ := admission_ok opens.admitted
      have effects : plan.effects ≠ [] := by
        rcases effectful with effects | policies
        · exact effects
        · intro effectless
          have entries : view.entries = [] := by
            rw [← List.length_eq_zero_iff, ← length, effectless, List.length_nil]
          have check := assembled.effectless
          have keyed := assembled.key
          have raw : (planInputs view).effects = [] := by simp [planInputs, entries]
          rw [checkEffectless, if_neg fun both => both.2 (assembled.attestations ▸ policies),
            requirePlan_ok, raw] at check
          rw [resolveWorkflowKey, if_neg (not_not.mpr (check.resolve_left (absurd rfl))), raw]
            at keyed
          exact absurd (if_pos (Except.ok.inj keyed).symm) named
      have entries : view.entries ≠ [] := fun none => effects (by
        rw [← List.length_eq_zero_iff, length, none, List.length_nil])
      have published : eventsOf (publishPending pending ++
          observeObligations plan env (pending.map (·.effect.name)) ++
          [reconciled plan, .terminal plan.terminal.success]) =
          (pending.map (·.effect)).map effectEvent ++ [pascalCase view.name ++ "Reconciled"] := by
        have named : plan.procedure = view.name := assembled.procedure
        simp [eventsOf, publishPending, observeObligations, reconciled, named, ledgerDelta,
          observeObligation, Function.comp_def, List.filterMap_map]
      refine ⟨⟨computed, events, narrowed pending⟩, pending, staged, _, claim, ?_, same, rfl,
        booked, rfl, rfl, key_recomputed named, ?_, ?_⟩
      · simp [recomputation, recomputed, chain, postings]
      · simp [Uncomputed, publishPending, observeObligations, reconciled, ledgerDelta,
          observeObligation, recordCompute, or_imp, forall_and]
      · have only : plan.evidenceOnly = false := by simp [← Bool.not_eq_true, evidenceOnly, effects]
        simp only [only, Bool.false_eq_true, if_false, false_or, published, movements, entries]
        cases isMovement (triggerEvent view) <;> simp

end Agreement

/-- Where the reference commits, the harness recomputes the transition, and then reports no
divergence exactly where the procedure's trigger does not look like a movement and every ledger the
scenario expects is posted to. -/
theorem recomputation_agrees (sha256Hex : List UInt8 → String)
    {parse : Bool → String → Except ExprError ExprNode} {proc : ProcedureOp}
    {plan : CoordinationPlan} {scenario : Scenario} (verified : proc.Verified parse)
    (worded : ∀ node, parse true "" ≠ .ok node)
    (normalized : normalizePlan (viewOf proc) = .ok plan)
    (passed : validateScenario (viewOf proc) scenario = []) (single : isTemporal plan = false)
    (apart : ∀ entry ∈ (viewOf proc).entries, Apart plan entry)
    (commits : (referenceTransition sha256Hex plan scenario).outcome ≠ .refused) :
    ∃ found, recomputation (viewOf proc) scenario = some found ∧
      ∀ expected observed candidate,
        observedFromTransition (referenceTransition sha256Hex plan scenario) = some observed →
        candidateTrace plan scenario expected found = some candidate →
        ((compareTraces observed candidate).diverged = false ↔
          (plan.evidenceOnly = true ∨ isMovement (triggerEvent (viewOf proc)) = false) ∧
            ∀ ledger ∈ expected, ∃ posting ∈ found.postings, posting.account = ledger) := by
  have assembled := assemblePlan_ok normalized
  have evidenceOnly : plan.evidenceOnly = true ↔ plan.effects = [] ∧ plan.attestations ≠ [] := by
    rw [Evidence.evidenceOnly_iff normalized, assembled.attestations, ← List.length_eq_zero_iff,
      ← assembled.effects_length, List.length_eq_zero_iff]
  unfold referenceTransition at commits ⊢
  cases decided : (settle sha256Hex plan EvalState.empty (referenceInput plan scenario)).value with
  | error refusal =>
      rw [evaluateTransition_refused decided] at commits
      exact absurd rfl commits
  | ok settled =>
      obtain ⟨found, pending, staged, key, claim, recomputed, computed, postings, booked, outcome,
        next, keys, silent, events⟩ := settled_recomputed assembled evidenceOnly
          (validated_of_nil passed) single apart (guard_text verified worded) decided
      refine ⟨found, recomputed, fun expected observed candidate seen made => ?_⟩
      rw [evaluateTransition_settled decided, outcome, next] at seen
      obtain ⟨nets, summed, rfl⟩ := Option.map_eq_some_iff.mp seen
      obtain ⟨own, booked', rfl⟩ := Option.map_eq_some_iff.mp made
      obtain rfl := nets_recomputed booked summed (postings ▸ booked')
      have quiet : eventsOf (settle sha256Hex plan EvalState.empty
          (referenceInput plan scenario)).trace = [] := by
        refine List.filterMap_eq_nil_iff.mpr fun observation listed => ?_
        have staging := Staging.settle sha256Hex plan EvalState.empty _ observation listed
        cases observation <;> first | rfl | cases staging
      have whole : computedOf ((settle sha256Hex plan EvalState.empty
          (referenceInput plan scenario)).trace ++ settled.published) = found.computed := by
        rw [computedOf_eq, List.foldl_append, silent.fold, computed, computedOf_eq]
      have posted : ∀ ledger, ledger ∈ nets ↔
          ∃ posting ∈ found.postings, posting.account = ledger := fun ledger => by
        rw [mem_postAll booked']
        simp
      have shown : ∀ published, eventsOf ((settle sha256Hex plan EvalState.empty
          (referenceInput plan scenario)).trace ++ published) = eventsOf published := by
        intro published
        rw [eventsOf, List.filterMap_append]
        exact (congrArg (· ++ _) quiet).trans (List.nil_append _)
      simp only [compareTraces_agrees, ObservedTrace.mk.injEq, whole, shown, keys]
      rw [← events, lookUpExpected_same]
      simp only [posted]
      constructor
      · rintro ⟨_, _, same, held, _⟩
        exact ⟨same.symm, held⟩
      · rintro ⟨same, held⟩
        exact ⟨rfl, trivial, same.symm, held, rfl, rfl, trivial⟩

/-- The parser as the verifier calls it. -/
def sourceParse (guard : Bool) (text : String) : Except ExprError ExprNode :=
  (if guard then parseGuard text else parseExpr text).mapError fun _ =>
    ⟨"expr.invalid", "expression"⟩

theorem sharing_verified : sharing.Accepted sourceParse := by
  refine ⟨by decide +kernel, fun located listed => ?_⟩
  simp only [sharing, List.mem_cons, List.not_mem_nil, or_false] at listed
  rcases listed with rfl | rfl | rfl | rfl | rfl | rfl | rfl | rfl | rfl <;> decide +kernel

def thirds : Scenario where
  inputs := .ofList [("key", ScenarioInput.string "k"), ("payer", .string "a"),
    ("payee", .string "b"), ("total", .int 90), ("parts", .int 3)]
  computed := ∅
  accepted := ∅

theorem thirds_agree : ∃ found, recomputation (viewOf sharing) thirds = some found ∧
    ∀ expected observed candidate,
      observedFromTransition (referenceTransition sampleHash sharingPlan thirds) = some observed →
      candidateTrace sharingPlan thirds expected found = some candidate →
      ((compareTraces observed candidate).diverged = false ↔
        (sharingPlan.evidenceOnly = true ∨ isMovement (triggerEvent (viewOf sharing)) = false) ∧
          ∀ ledger ∈ expected, ∃ posting ∈ found.postings, posting.account = ledger) := by
  have flagless : ∀ name, ¬IsFlag sharingPlan name := by
    rintro name ⟨policy, listed, _⟩
    cases listed
  exact recomputation_agrees sampleHash sharing_verified.verified (fun node => by rintro ⟨⟩)
    sharing_normalizes (by decide +kernel) (by decide +kernel)
    (fun entry _ => ⟨fun _ _ name _ => flagless name, fun _ => flagless _⟩) (by decide +kernel)

end Neutrino
