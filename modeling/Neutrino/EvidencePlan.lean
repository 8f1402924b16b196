import Neutrino.AcceptanceBinding
import Neutrino.EvidenceRails

/-! The plan of an evidence rail: what its sequence carries of it, and what one transition of the
evaluator does with it. -/

namespace Neutrino.Evidence

open Checked Projection Solidity SortOn

/-- What a sequence on the evidence rail carries of its plan. -/
structure EvidencePlan (plan : CoordinationPlan) (sequence : FinalizedProjectionSequence) :
    Prop where
  effectless : plan.effects = []
  attested : plan.attestations ≠ []
  idempotent : plan.replay.idempotent = true
  named : plan.workflowKey ≠ ""
  replayKey : sequence.executionIdentity.replayKey = plan.workflowKey
  names : (sequence.values.params.map (·.name)).Nodup
  declared : ∀ input ∈ plan.inputs, ∃ param ∈ sequence.values.params,
    param.name = input.name ∧ param.type = input.type
  key : ∃ param ∈ sequence.values.params,
    param.name = plan.workflowKey ∧ classifyValueType param.type = .string
  isKey : ∀ param ∈ sequence.values.params,
    isKeyParam sequence param = true ↔ param.name = plan.workflowKey

section Plan

variable {sha256Hex : List UInt8 → String} {text : JsonText} {raw : PlanInputs}
  {plan : CoordinationPlan} {sequence : FinalizedProjectionSequence}

theorem asSize_injective {first second : Int32} (same : asSize first = asSize second) :
    first = second := by
  have wide : first.toInt64 = second.toInt64 := by
    simpa [asSize] using congrArg UInt64.toInt64 same
  exact Int32.toInt_inj.mp (by simpa using congrArg Int64.toInt wide)

theorem values_of_consumed {graph : BackendProjectionGraph}
    (consumed : consumeFinalizedProjectionSequence text graph = .ok sequence) :
    graph.executionIdentities = [sequence.executionIdentity] ∧
      (∃ attestation, consumeAttestationProjection graph = .ok attestation ∧
        sequence.executionMode = attestation.executionMode) ∧
      consumeTypedValueProjection text graph = .ok sequence.values := by
  simp only [consumeFinalizedProjectionSequence, bind_ok, pure_ok] at consumed
  obtain ⟨identity, alone, _, _, attestation, attested, _, _, _, _, _, _, _, _, values, valued, _, _,
    _, _, rfl⟩ := consumed
  exact ⟨sole_ok.mp alone, ⟨attestation, attested, rfl⟩, valued⟩

theorem params_of_values {graph : BackendProjectionGraph} {values : TypedValueProjection}
    (consumed : consumeTypedValueProjection text graph = .ok values) :
    values.params = (sortOn (·.ordinal.toInt) graph.typedParams).map typedParamProjection ∧
      instanceKeyParam ((sortOn (·.ordinal.toInt) graph.typedParams).filter (·.isInstanceKey)) =
        .ok values.instanceKeyParam := by
  simp only [consumeTypedValueProjection, bind_ok, pure_ok] at consumed
  obtain ⟨key, keyed, computes, _, postings, _, rfl⟩ := consumed
  exact ⟨rfl, keyed⟩

theorem instanceKeyParam_ok {params : List TypedParam} {key : Option TypedParamProjection}
    (keyed : instanceKeyParam params = .ok key) :
    key = (params.head?).map typedParamProjection := by
  rcases params with _ | ⟨first, _ | ⟨second, rest⟩⟩ <;> simp_all [instanceKeyParam, eq_comm]

/-- Of numbered parameters, the one with the key's role is the one of the key's name. -/
theorem keyParam_iff {nodes : List TypedParam} {key : Option TypedParamProjection} {name : String}
    (keyed : instanceKeyParam (nodes.filter (·.isInstanceKey)) = .ok key)
    (numbered : Numbered (nodes.map (·.ordinal)) (nodes.map (·.bindingValue)))
    (roles : ∀ node ∈ nodes, node.isInstanceKey = true ↔ node.bindingValue = name)
    {own : TypedParam} (ownIn : own ∈ nodes) (ownName : own.bindingValue = name)
    {node : TypedParam} (nodeIn : node ∈ nodes) :
    (key.any fun key => key.ordinal = (typedParamProjection node).ordinal) = true ↔
      node.bindingValue = name := by
  have only : ∀ other ∈ nodes, other.bindingValue = name → other = own := fun other otherIn same =>
    List.inj_on_of_nodup_map numbered.bindings_nodup otherIn ownIn (same.trans ownName.symm)
  have found : (nodes.filter (·.isInstanceKey)).head? = some own := by
    cases held : nodes.filter (·.isInstanceKey) with
    | nil =>
        have absent := List.filter_eq_nil_iff.mp held own ownIn
        exact absurd ((roles own ownIn).mpr ownName) absent
    | cons first rest =>
        obtain ⟨firstIn, role⟩ := List.mem_filter.mp (held ▸ List.mem_cons_self)
        rw [List.head?_cons, only first firstIn ((roles first firstIn).mp role)]
  rw [instanceKeyParam_ok keyed, found]
  simp only [Option.map_some, Option.any_some, decide_eq_true_eq]
  constructor
  · intro same
    have ordinals := asSize_injective same
    rw [← List.inj_on_of_nodup_map numbered.ordinals_nodup ownIn nodeIn ordinals, ownName]
  · intro same
    rw [only node nodeIn same]

theorem explicit_key (assembled : Assembled raw plan) (effectless : raw.effects = [])
    (attested : raw.attestations ≠ []) : plan.workflowKey ≠ "" ∧ ∃ input ∈ plan.inputs,
      input.name = plan.workflowKey ∧ classifyValueType input.type = .string := by
  have explicit := assembled.effectless
  rw [checkEffectless, if_pos ⟨effectless, attested⟩, check_ok, requirePlan_ok] at explicit
  have key := assembled.key
  rw [resolveWorkflowKey, if_pos explicit.1] at key
  split at key
  · cases key
  · rename_i input found
    simp only [check_ok, requirePlan_ok, pure_ok] at key
    obtain ⟨string, _, key⟩ := key
    rw [assembled.inputs, ← key]
    have named := List.find?_some found
    exact ⟨explicit.1, input, List.mem_of_find?_eq_some found, by simpa using named,
      by simpa [isInstanceKeyType] using string⟩

theorem evidenceOnly_iff (accepted : assemblePlan raw = .ok plan) :
    plan.evidenceOnly = true ↔ raw.effects = [] ∧ raw.attestations ≠ [] := by
  simp only [assemblePlan, bind_ok, pure_ok] at accepted
  obtain ⟨_, _, _, _, _, _, _, _, _, _, _, _, _, _, _, _, _, _, _, _, _, _, rfl⟩ := accepted
  simp

/-- A projected plan that its sequence runs as evidence is one. -/
theorem evidencePlan (accepted : assemblePlan raw = .ok plan)
    (verified : Verified text (projectedGraph sha256Hex text plan))
    (consumed : consumeFinalizedProjectionSequence text
      (projectedGraph sha256Hex text plan).order = .ok sequence)
    (evidence : sequence.executionMode = .evidence) : EvidencePlan plan sequence := by
  have assembled := assemblePlan_ok accepted
  have shuffle := order_shuffle (projectedGraph sha256Hex text plan)
  obtain ⟨identities, ⟨attestation, attested, mode⟩, values⟩ := values_of_consumed consumed
  obtain ⟨params, keyed⟩ := params_of_values values
  rw [← shuffle.consumeAttestationProjection verified] at attested
  have projectedEvidence :=
    (executionModeOf_projected attested).symm.trans (mode.symm.trans evidence)
  have only : plan.evidenceOnly = true := by
    unfold projectedMode at projectedEvidence
    split at projectedEvidence
    · assumption
    · split at projectedEvidence <;> cases projectedEvidence
  obtain ⟨effectless, policies⟩ := (evidenceOnly_iff accepted).mp only
  obtain ⟨named, input, inputIn, inputNamed, string⟩ :=
    explicit_key assembled effectless policies
  have listed : ∀ param : TypedParam, param ∈ sortOn (·.ordinal.toInt)
      (projectedGraph sha256Hex text plan).order.typedParams ↔
        param ∈ plan.inputs.zipIdx.map (typedParam plan) := fun param => by
    rw [mem_sortOn, ← shuffle.typedParams.mem_iff]
    rfl
  have sorted := sortOn_perm (fun param : TypedParam => param.ordinal.toInt)
    (projectedGraph sha256Hex text plan).order.typedParams
  have numbered := verified.params_numbered.perm
    ((shuffle.typedParams.trans sorted.symm).map _) ((shuffle.typedParams.trans sorted.symm).map _)
  have identity := shuffle.executionIdentities
  rw [identities, List.perm_singleton] at identity
  refine ⟨?_, ?_, assembled.idempotent, named, ?_, ?_, ?_, ?_, ?_⟩
  · have bound := assembled.bound
    rw [effectless] at bound
    exact (Except.ok.inj bound).symm
  · rw [assembled.attestations]
    exact policies
  · rw [← (List.cons.inj identity).1]
    rfl
  · rw [params, List.map_map]
    exact numbered.bindings_nodup
  · intro declared declaredIn
    obtain ⟨index, found⟩ := List.getElem?_of_mem declaredIn
    refine ⟨typedParamProjection (typedParam plan (declared, index)), ?_, rfl, rfl⟩
    rw [params]
    exact List.mem_map_of_mem ((listed _).mpr (List.mem_map_of_mem
      (List.mk_mem_zipIdx_iff_getElem?.mpr found)))
  · obtain ⟨index, found⟩ := List.getElem?_of_mem inputIn
    refine ⟨typedParamProjection (typedParam plan (input, index)), ?_, inputNamed, string⟩
    rw [params]
    exact List.mem_map_of_mem ((listed _).mpr (List.mem_map_of_mem
      (List.mk_mem_zipIdx_iff_getElem?.mpr found)))
  · intro param paramIn
    rw [params] at paramIn
    obtain ⟨node, nodeIn, rfl⟩ := List.mem_map.mp paramIn
    obtain ⟨index, found⟩ := List.getElem?_of_mem inputIn
    have keyIn := (listed _).mpr (List.mem_map_of_mem (f := typedParam plan)
      (List.mk_mem_zipIdx_iff_getElem?.mpr found))
    refine keyParam_iff keyed numbered ?_ keyIn inputNamed nodeIn
    intro other otherIn
    obtain ⟨indexed, _, rfl⟩ := List.mem_map.mp ((listed _).mp otherIn)
    simp [typedParam, named]

end Plan

/-! The evaluator. -/

/-- Every compute has an expression, which evaluates after those before it. -/
def Evaluates : List PlanCompute → Env → Prop
  | [], _ => True
  | compute :: rest, env => ∃ expr value, compute.expr = some expr ∧
      evalExpr expr env = .ok value ∧ Evaluates rest (env.insert compute.name value)

theorem foldComputes_of_evaluates {computes : List PlanCompute} {env : Env}
    (evaluates : Evaluates computes env) :
    ∃ final, (foldComputes computes env).value = .ok final := by
  induction computes generalizing env with
  | nil => exact ⟨env, rfl⟩
  | cons compute rest ih =>
      obtain ⟨expr, value, present, evaluated, later⟩ := evaluates
      obtain ⟨final, folded⟩ := ih later
      have here : computeValue env compute = .ok value := by
        simp [computeValue, present, evaluated, Except.mapError]
      refine ⟨final, Traced.bind_ok.mpr ⟨value, here, Traced.bind_ok.mpr ⟨(), rfl, folded⟩⟩⟩

/-- A payload that the evaluator admits and evaluates, with evidence presented for every policy. -/
structure Evaluable (plan : CoordinationPlan) (input : TransitionInput) : Prop where
  authorized : input.authorized = true
  keyed : workflowKeyValue plan input ≠ ""
  typed : ∀ declared ∈ plan.inputs, ∃ typed, typeInput input declared = .ok typed
  evaluates : Evaluates plan.computes input.numeric
  presented : ∀ policy ∈ plan.attestations, ∃ accepted,
    input.attestations[policy.input]? = some accepted

/-- Every claimed key is posted. -/
def Tied (state : EvalState) : Prop :=
  ∀ key, key ∈ state.keyClaim → key ∈ state.postedKeys

section Transition

variable {sha256Hex : List UInt8 → String} {plan : CoordinationPlan} {state : EvalState}
  {input : TransitionInput}

theorem admission_of_evaluable (evaluable : Evaluable plan input) :
    ∃ claim, (admission sha256Hex plan input).value = .ok (workflowKeyValue plan input, claim) := by
  obtain ⟨typed, collected⟩ := collect_exists evaluable.typed
  refine ⟨executionClaimHash sha256Hex (coordinationIdentityHash sha256Hex plan)
    (workflowKeyValue plan input) typed, ?_⟩
  rw [admission, Traced.bind_ok]
  refine ⟨(), rfl, Traced.bind_ok.mpr ⟨(), Traced.ensure_ok.mpr evaluable.authorized, ?_⟩⟩
  refine Traced.bind_ok.mpr ⟨(), Traced.ensure_ok.mpr evaluable.keyed, ?_⟩
  exact Traced.bind_ok.mpr ⟨typed, collected, rfl⟩

theorem acceptEvidence_iff {policies : List AttestationPolicy}
    (presented : ∀ policy ∈ policies, ∃ accepted,
      input.attestations[policy.input]? = some accepted) :
    (acceptEvidence input policies).value = .ok () ↔
      ∀ policy ∈ policies, policyAccepted input policy.input = true := by
  refine ⟨acceptEvidence_ok, fun accepted => ?_⟩
  induction policies with
  | nil => rfl
  | cons policy rest ih =>
      obtain ⟨verdict, shown⟩ := presented policy List.mem_cons_self
      have held := accepted policy List.mem_cons_self
      simp only [policyAccepted, shown, Option.getD_some] at held
      simp only [acceptEvidence, shown, Traced.bind_ok, Traced.ensure_ok]
      exact ⟨(), rfl, (), held,
        ih (fun other listed => presented other (List.mem_cons_of_mem _ listed))
          fun other listed => accepted other (List.mem_cons_of_mem _ listed)⟩

/-- On a key that is still open only the evidence decides. -/
theorem settle_open {sequence : FinalizedProjectionSequence} (evidence : EvidencePlan plan sequence)
    (tied : Tied state) (evaluable : Evaluable plan input) {claim : String}
    (admitted : (admission sha256Hex plan input).value = .ok (workflowKeyValue plan input, claim))
    (fresh : workflowKeyValue plan input ∉ state.postedKeys) :
    (settle sha256Hex plan state input).value =
      (settleEvidence plan state input (workflowKeyValue plan input) claim).value := by
  obtain ⟨env, folded⟩ := foldComputes_of_evaluates evaluable.evaluates
  have unclaimed : state.keyClaim[workflowKeyValue plan input]? = none :=
    Std.ExtTreeMap.getElem?_eq_none fun claimed => fresh (tied _ claimed)
  have opened : state.postedKeys.contains (workflowKeyValue plan input) = false := by
    rwa [← Bool.not_eq_true, Std.ExtTreeSet.contains_iff_mem]
  have policies : plan.attestations.isEmpty = false :=
    List.isEmpty_eq_false_iff.mpr evidence.attested
  have environment : (transitionEnv plan input).value = .ok (seedAcceptance plan input env) := by
    rw [transitionEnv, Traced.bind_value, folded]
    rfl
  rw [settle, Traced.bind_of_ok _ admitted]
  simp only [unclaimed, opened, evidence.effectless, policies, Option.all_none, Bool.and_false,
    Bool.false_eq_true, if_false, List.isEmpty_nil, Bool.not_false, Bool.and_self, if_true]
  have agrees : (Traced.ensure True ⟨"claim.mismatch", ""⟩ : Evaluation Unit).value = .ok () :=
    Traced.ensure_ok.mpr trivial
  rw [Traced.bind_of_ok _ agrees, Traced.bind_of_ok _ environment]

/-- On a posted key a transition is never terminal and leaves the state alone. -/
theorem settle_posted {claim : String} (idempotent : plan.replay.idempotent = true)
    (admitted : (admission sha256Hex plan input).value = .ok (workflowKeyValue plan input, claim))
    (posted : workflowKeyValue plan input ∈ state.postedKeys) {settled : Settled}
    (accepted : (settle sha256Hex plan state input).value = .ok settled) :
    settled.outcome = .replayed ∧ settled.next = state := by
  have same : ∀ {key other : String},
      (admission sha256Hex plan input).value = .ok (key, other) →
        key = workflowKeyValue plan input :=
    fun again => (Prod.ext_iff.mp (Except.ok.inj (again.symm.trans admitted))).1
  cases settle_ok accepted with
  | replay => exact ⟨rfl, rfl⟩
  | evidence opens => exact absurd ⟨idempotent, same opens.admitted ▸ posted⟩ opens.fresh
  | groups opens => exact absurd ⟨idempotent, same opens.admitted ▸ posted⟩ opens.fresh
  | legs opens => exact absurd ⟨idempotent, same opens.admitted ▸ posted⟩ opens.fresh

/-- What a transition does on an evidence plan: it is terminal exactly on an unposted key with
every policy accepted, where it posts the key, and otherwise it leaves the state alone. -/
theorem evidence_transition (sha256Hex : List UInt8 → String)
    {sequence : FinalizedProjectionSequence}
    (evidence : EvidencePlan plan sequence) (tied : Tied state) (evaluable : Evaluable plan input) :
    ((evaluateTransition sha256Hex plan state input).outcome = .terminal ↔
      workflowKeyValue plan input ∉ state.postedKeys ∧
        ∀ policy ∈ plan.attestations, policyAccepted input policy.input = true) ∧
    ((evaluateTransition sha256Hex plan state input).outcome = .terminal → ∃ claim,
      nextState sha256Hex plan state input =
        (state.pin (workflowKeyValue plan input) claim).close plan (workflowKeyValue plan input)) ∧
    ((evaluateTransition sha256Hex plan state input).outcome ≠ .terminal →
      nextState sha256Hex plan state input = state) := by
  obtain ⟨claim, admitted⟩ := @admission_of_evaluable sha256Hex _ _ evaluable
  unfold nextState
  by_cases posted : workflowKeyValue plan input ∈ state.postedKeys
  · cases decided : (settle sha256Hex plan state input).value with
    | error refusal => simp [evaluateTransition_refused decided, posted]
    | ok settled =>
        obtain ⟨replayed, still⟩ := settle_posted evidence.idempotent admitted posted decided
        simp [evaluateTransition_settled decided, posted, replayed, still]
  · have settled := settle_open evidence tied evaluable admitted posted
    have decides := acceptEvidence_iff evaluable.presented
    cases accepted : (acceptEvidence input plan.attestations).value with
    | error refusal =>
        have refused : (settle sha256Hex plan state input).value = .error refusal := by
          rw [settled, settleEvidence, Traced.bind_value, accepted]
          rfl
        rw [accepted] at decides
        simp [evaluateTransition_refused refused, posted, ← decides]
    | ok passed =>
        obtain ⟨closed, terminal, outcome, next⟩ : ∃ closed,
            (settle sha256Hex plan state input).value = .ok closed ∧ closed.outcome = .terminal ∧
              closed.next = (state.pin (workflowKeyValue plan input) claim).close plan
                (workflowKeyValue plan input) := by
          rw [settled, settleEvidence, Traced.bind_value, accepted]
          exact ⟨_, rfl, rfl, rfl⟩
        rw [accepted] at decides
        simp only [evaluateTransition_settled terminal, outcome, next, posted, not_false_eq_true,
          true_and, true_iff, ne_eq, not_true_eq_false, false_implies, and_true, true_implies]
        exact ⟨decides.mp rfl, claim, rfl⟩

end Transition

end Neutrino.Evidence
