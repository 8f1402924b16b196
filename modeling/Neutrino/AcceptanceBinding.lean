import Neutrino.GuardPreservation
import Neutrino.QuorumAdmission
import Neutrino.SolidityContract

/-! What the guards' acceptances bind on the Solidity rails: over any interleaving of calls, which
payloads the contract posts. -/

namespace Neutrino.Solidity

open Checked Projection Quorum Run SortOn

/-! The contract among its guards. -/

/-- The address of each policy's guard, and the guard at each address. -/
structure Deployment where
  guardAt : String → Address
  guards : Address → ThresholdQuorumAcceptance

/-- The storage of all contracts, with the arguments and events of the calls of `execute` that did
not revert. -/
structure World where
  storage : Storage := {}
  acceptances : Address → Acceptances := fun _ => {}
  receipts : List (List Argument × List Event) := []

inductive Call
  | accept (guard : Address) (call : AcceptCall)
  | execute (arguments : List Argument)

section Calls

variable (ecrecover : Bytes32 → UInt8 → Bytes32 → Bytes32 → Address)
  (keccak256 sha256 : List UInt8 → Bytes32) (deployment : Deployment)
  (sequence : FinalizedProjectionSequence)

def guardsOf (world : World) (policy : String) : Acceptances :=
  world.acceptances (deployment.guardAt policy)

/-- A call of `execute` that reverts leaves the world as it was. -/
def callStep (world : World) : Call → World
  | .accept guard call => { world with
      acceptances := Function.update world.acceptances guard
        (acceptStep ecrecover keccak256 (deployment.guards guard) (world.acceptances guard) call) }
  | .execute arguments =>
      match execute keccak256 sha256 sequence (guardsOf deployment world) world.storage
          arguments with
      | .ok (storage, events) =>
          { world with storage, receipts := world.receipts ++ [(arguments, events)] }
      | .error _ => world

/-! Payloads. -/

def payloadKey (arguments : List Argument) : Option Bytes32 := do
  let params ← bindParams sequence.values.params arguments
  let keyBytes ← stringOf params (uref sequence.executionIdentity.replayKey)
  return keccak256 keyBytes

def payloadClaim (arguments : List Argument) : Option Bytes32 := do
  let params ← bindParams sequence.values.params arguments
  (executionClaim sha256 sequence params).toOption

/-- A guard holds, for the key of a payload, an acceptance of the payload's claim. -/
def ClaimAccepted (acceptances : Acceptances) (arguments : List Argument) : Prop :=
  ∃ key claim canonical, payloadKey keccak256 sequence arguments = some key ∧
    payloadClaim sha256 sequence arguments = some claim ∧
    recordedClaim acceptances key = some (canonical, claim)

def postingsOf (events : List Event) : List FinalizedPostingProjection :=
  events.filterMap fun event =>
    match event with
    | .posted posting _ _ _ => some posting
    | _ => none

/-- Every posting that a policy authorizes was posted for a payload the policy's guard has
accepted. -/
def AcceptanceBinds (plan : CoordinationPlan) (world : World) : Prop :=
  ∀ receipt ∈ world.receipts, ∀ posting ∈ postingsOf receipt.2, ∀ effect ∈ plan.effects,
    IsPostingOf effect posting → effect.gateMode ≠ .none →
      ClaimAccepted keccak256 sha256 sequence (guardsOf deployment world effect.gatePolicy)
        receipt.1

/-- What a call of `execute` has to meet: on the temporal rail, a claim that is not the zero word
a guard without acceptance answers with; on the effectful rail, which asks for no claim, that any
acceptance of the key is one of the payload. -/
def PayloadMatches (world : World) (arguments : List Argument) : Prop :=
  match sequence.executionMode with
  | .temporal => ∀ key, payloadKey keccak256 sequence arguments = some key →
      payloadClaim sha256 sequence arguments = some 0 → ∀ group ∈ sequence.effectGroups,
        isAccepted (guardsOf deployment world group.guard.policyInputBinding) key = true
  | _ => ∀ key, payloadKey keccak256 sequence arguments = some key → ∀ recorded,
      recordedClaim (singleGuard sequence (guardsOf deployment world)) key = some recorded →
        payloadClaim sha256 sequence arguments = some recorded.2

end Calls

/-! The postings of one call. -/

section Postings

variable {keccak256 sha256 : List UInt8 → Bytes32} {sequence : FinalizedProjectionSequence}
  {guards : String → Acceptances} {key claim : Bytes32} {locals : Locals}

theorem compiled_ok {α : Type} {value : Option α} {result : α} :
    compiled value = .ok result ↔ value = some result := by
  cases value <;> simp [compiled]

theorem computeStep_postings {scope next : Locals × List Event} {compute : ComputeProjection}
    (computed : computeStep scope compute = .ok next) :
    postingsOf next.2 = postingsOf scope.2 := by
  simp only [computeStep, bind_ok, pure_ok] at computed
  obtain ⟨value, _, rfl⟩ := computed
  simp [postingsOf]

theorem computes_postings {scope next : Locals × List Event} {computes : List ComputeProjection}
    (computed : thread computeStep scope computes = .ok next) :
    postingsOf next.2 = postingsOf scope.2 :=
  thread_preserves (fun _ (scope' : Locals × List Event) => postingsOf scope'.2 = postingsOf scope.2)
    (fun _ _ _ _ same stepped => (computeStep_postings stepped).trans same) rfl
    computed

theorem commitPosting_postings {state next : Storage × List Event}
    {posting : FinalizedPostingProjection}
    (committed : commitPosting key locals state posting = .ok next) :
    postingsOf next.2 = postingsOf state.2 ++ [posting] := by
  simp only [commitPosting, bind_ok, pure_ok] at committed
  obtain ⟨_, _, _, _, _, _, _, _, _, _, rfl⟩ := committed
  simp [postingsOf]

theorem commitPostings_postings {state next : Storage × List Event}
    {postings : List FinalizedPostingProjection}
    (committed : thread (commitPosting key locals) state postings = .ok next) :
    postingsOf next.2 = postingsOf state.2 ++ postings :=
  thread_preserves
    (fun done (state' : Storage × List Event) => postingsOf state'.2 = postingsOf state.2 ++ done)
    (fun done _ element _ same stepped => by
      rw [commitPosting_postings stepped, same, List.append_assoc]) (by simp)
    committed

theorem reconcile_postings {keyBytes : List UInt8} {state next : Storage × List Event}
    (reconciled : reconcile sequence key keyBytes state = .ok next) :
    postingsOf next.2 = postingsOf state.2 := by
  simp only [reconcile, bind_ok, pure_ok] at reconciled
  obtain ⟨_, _, rfl⟩ := reconciled
  simp [postingsOf]

theorem terminal_postings {keyBytes : List UInt8} {state next : Storage × List Event}
    (ended : terminal sequence key keyBytes state = .ok next) :
    postingsOf next.2 = postingsOf state.2 := by
  unfold terminal at ended
  split at ended
  · exact reconcile_postings ended
  · cases ended
    rfl

/-- The postings so far are of groups whose guards have accepted the claim. -/
def GroupsAccepted (guards : String → Acceptances) (key claim : Bytes32)
    (groups : List FinalizedEffectGroupProjection) (events : List Event) : Prop :=
  ∀ posting ∈ postingsOf events, ∃ group ∈ groups, posting ∈ group.finalizedPostings ∧
    (guards group.guard.policyInputBinding).acceptedExecutionClaim key = claim

theorem commitGroup_accepted {done : List FinalizedEffectGroupProjection}
    {state next : Progress} {group : FinalizedEffectGroupProjection}
    (before : GroupsAccepted guards key claim done state.events)
    (committed : commitGroup guards key claim locals state group = .ok next) :
    GroupsAccepted guards key claim (done ++ [group]) next.events := by
  have kept : GroupsAccepted guards key claim (done ++ [group]) state.events := by
    intro posting listed
    obtain ⟨earlier, earlierIn, inside, accepted⟩ := before posting listed
    exact ⟨earlier, List.mem_append_left _ earlierIn, inside, accepted⟩
  unfold commitGroup at committed
  split at committed
  · rename_i accepted
    simp only [bind_ok, pure_ok] at committed
    obtain ⟨posted, threaded, rfl⟩ := committed
    intro posting listed
    rw [commitPostings_postings threaded] at listed
    rcases List.mem_append.mp listed with earlier | here
    · exact kept posting earlier
    · exact ⟨group, by simp, here, accepted.1⟩
  · cases committed
    exact kept

/-- What a call of the temporal contract posts. -/
theorem executeTemporal_accepted {storage : Storage} {arguments : List Argument}
    {result : Storage × List Event}
    (executed : executeTemporal keccak256 sha256 sequence guards storage arguments = .ok result) :
    ∃ key claim, payloadKey keccak256 sequence arguments = some key ∧
      payloadClaim sha256 sequence arguments = some claim ∧
      GroupsAccepted guards key claim sequence.effectGroups result.2 := by
  simp only [executeTemporal, bind_ok, compiled_ok, require_ok] at executed
  obtain ⟨params, bound, keyBytes, keyed, _, _, claim, claimed, _, _, computed, evaluated,
    committed, threaded, ended⟩ := executed
  refine ⟨keccak256 keyBytes, claim, by simp [payloadKey, bound, keyed],
    by simp [payloadClaim, bound, claimed, Except.toOption], ?_⟩
  have start : GroupsAccepted guards (keccak256 keyBytes) claim [] computed.2 := by
    intro posting listed
    rw [computes_postings evaluated] at listed
    simp [postingsOf] at listed
  have groups : GroupsAccepted guards (keccak256 keyBytes) claim sequence.effectGroups
      committed.events :=
    thread_preserves (fun done (state : Progress) =>
      GroupsAccepted guards (keccak256 keyBytes) claim done state.events)
      (fun _ _ _ _ before stepped => commitGroup_accepted before stepped) start threaded
  intro posting listed
  rw [terminal_postings ended] at listed
  exact groups posting listed

/-- A call of the contract with one guard passes on that guard's acceptance of the key. -/
theorem executeSingle_accepted {storage : Storage} {arguments : List Argument}
    {result : Storage × List Event}
    (executed : executeSingle keccak256 sequence guards storage arguments = .ok result) :
    ∃ key, payloadKey keccak256 sequence arguments = some key ∧
      isAccepted (singleGuard sequence guards) key = true := by
  simp only [executeSingle, bind_ok, compiled_ok, require_ok] at executed
  obtain ⟨params, bound, keyBytes, keyed, _, _, _, accepted, _⟩ := executed
  exact ⟨keccak256 keyBytes, by simp [payloadKey, bound, keyed], accepted⟩

end Postings

/-! The policy of a posting. -/

section Policies

variable {sha256Hex : List UInt8 → String} {text : JsonText}

/-- A posting of a group's entry is in the sequence, under the entry's own index. -/
theorem entry_posting {graph : BackendProjectionGraph} {sequence : FinalizedProjectionSequence}
    (consumed : consumeFinalizedProjectionSequence text graph = .ok sequence)
    {entry : FinalizedEffectGroupProjection} (entryIn : entry ∈ sequence.effectGroups)
    {posting : FinalizedPostingProjection} (inside : posting ∈ entry.finalizedPostings) :
    sequence.effectGroups[posting.groupIndex]? = some entry ∧ posting ∈ sequence.postings := by
  simp only [consumeFinalizedProjectionSequence, bind_ok, pure_ok] at consumed
  obtain ⟨_, _, _, _, _, _, _, _, _, _, _, _, _, _, values, _, groups, grouped, _, _, rfl⟩ :=
    consumed
  refine ⟨?_, by simpa only [flattenedPostings, mem_sortOn] using
    List.mem_flatMap.mpr ⟨entry, entryIn, inside⟩⟩
  obtain ⟨position, found⟩ := List.getElem?_of_mem entryIn
  have indexed := collect_project (fun _ _ built => (finalizeGroup_ok built).1) grouped
  have here := congrArg (fun entries => entries[position]?) indexed
  simp only [List.getElem?_map, found, Option.map_some, List.getElem?_zipIdx, zero_add] at here
  obtain ⟨_, _, same⟩ := Option.map_eq_some_iff.mp here.symm
  have ordinal : position = entry.ordinal := (Prod.mk.inj same).2
  obtain ⟨source, _, built⟩ := collect_mem_result grouped entryIn
  have shared := (finalizeGroup_ok built).1
  simp only [finalizeGroup, bind_ok, pure_ok] at built
  obtain ⟨_, _, _, _, postings, collected, rfl⟩ := built
  obtain ⟨node, _, finalized⟩ := collect_mem_result collected inside
  rw [(finalizePosting_guard finalized).1, ← found, ordinal]

theorem executionModeOf_projected {plan : CoordinationPlan} {attestation : AttestationProjection}
    (consumed : consumeAttestationProjection (projectedGraph sha256Hex text plan) =
      .ok attestation) : attestation.executionMode = projectedMode plan := by
  simp only [consumeAttestationProjection, bind_ok] at consumed
  obtain ⟨mode, found, later⟩ := consumed
  have own : mode = projectedMode plan := by
    unfold executionModeOf at found
    split at found
    · cases found
    · rename_i first roles listed
      split at found
      · cases found
        have roleIn : first ∈ (projectedGraph sha256Hex text plan).projectedLifecycleRoles := by
          simp [listed]
        obtain ⟨role, _, rfl⟩ := List.mem_map.mp roleIn
        rfl
      · cases found
  split at later
  · obtain ⟨_, _, rfl⟩ := map_ok.mp later
    exact own
  · simp only [bind_ok, pure_ok] at later
    obtain ⟨policies, _, rfl⟩ := later
    exact own
  · cases later

theorem attestationKindOf_single {attestation : AttestationProjection}
    (single : attestationKindOf attestation = .ok .single) :
    ∃ policy, attestation.policies = [policy] := by
  unfold attestationKindOf at single
  split at single
  · cases single
  · split at single
    · rename_i shape
      exact List.length_eq_one_iff.mp shape.2
    · split at single <;> cases single

variable {raw : PlanInputs} {plan : CoordinationPlan} {sequence : FinalizedProjectionSequence}
  (projected : Projected sha256Hex text raw plan sequence)
include projected

theorem group_policy {effect : PlanEffect} (declared : effect ∈ plan.effects)
    (gated : effect.gateMode ≠ .none) {entry : FinalizedEffectGroupProjection}
    (entryIn : entry ∈ sequence.effectGroups) {posting : FinalizedPostingProjection}
    (inside : posting ∈ entry.finalizedPostings) (own : IsPostingOf effect posting) :
    entry.guard.policyInputBinding = effect.gatePolicy := by
  obtain ⟨found, listed⟩ := entry_posting projected.consumed entryIn inside
  obtain ⟨group, groupIn, key, _, other, otherFound, _, guard⟩ :=
    projected.posting_group declared listed own
  obtain rfl : entry = other := by simpa [found] using otherFound
  have gate : consumedGate entry.guard = gateOf effect.gateMode effect.gatePolicy := by
    rw [guard, consumedGate_projected, projected.gate_shared declared groupIn key]
  unfold consumedGate at gate
  split at gate
  · cases mode : effect.gateMode <;> simp [mode, gateOf] at gate gated
    · exact gate.2
    · exact gate.2
  · exact absurd (gateOf_none.mp gate.symm) gated

/-- On the effectful rail a gated effect is under the sequence's only policy. -/
theorem single_policy (effectful : sequence.executionMode = .effectful)
    (single : sequence.attestationKind = .single) {effect : PlanEffect}
    (declared : effect ∈ plan.effects) (gated : effect.gateMode ≠ .none)
    (guards : String → Acceptances) : singleGuard sequence guards = guards effect.gatePolicy := by
  have shuffle := order_shuffle (projectedGraph sha256Hex text plan)
  have consumed := projected.consumed
  simp only [consumeFinalizedProjectionSequence, bind_ok, pure_ok] at consumed
  obtain ⟨_, _, _, _, attestation, attested, kind, kindRead, _, _, _, _, _, _, _, _, _, _, _, _,
    rfl⟩ := consumed
  change kind = .single at single
  subst single
  rw [← shuffle.consumeAttestationProjection projected.verified] at attested
  have unsuppressed : coordinationIsTemporal plan = false := by
    have mode := (executionModeOf_projected attested).symm.trans effectful
    by_contra suppressed
    rw [Bool.not_eq_false] at suppressed
    by_cases evidence : plan.evidenceOnly = true <;> simp [projectedMode, evidence, suppressed] at mode
  obtain ⟨binding, only⟩ := attestationKindOf_single kindRead
  obtain ⟨policy, policyIn, _, input⟩ :=
    consumeAttestation_projected attested binding (by simp [only])
  rcases projected.assembled.unsuppressed_gate unsuppressed declared with
    ⟨sole, alone, _, named, _⟩ | ⟨_, free⟩
  · obtain rfl : policy = sole := by simpa [alone] using policyIn
    simp only [singleGuard, only, input, named]
  · exact absurd free gated

end Policies

/-! Runs. -/

section Runs

variable {ecrecover : Bytes32 → UInt8 → Bytes32 → Bytes32 → Address}
  {keccak256 sha256 : List UInt8 → Bytes32} {deployment : Deployment}
  {sequence : FinalizedProjectionSequence}

/-- A guard answers with the zero word for a key it has no acceptance of. -/
def AnswersZero (acceptances : Acceptances) : Prop :=
  ∀ key, isAccepted acceptances key = false → acceptances.acceptedExecutionClaim key = 0

theorem acceptStep_answersZero {guard : ThresholdQuorumAcceptance} {acceptances : Acceptances}
    (answers : AnswersZero acceptances) (call : AcceptCall) :
    AnswersZero (acceptStep ecrecover keccak256 guard acceptances call) := by
  unfold acceptStep OneShot.attempt
  cases accepted : accept ecrecover keccak256 guard acceptances call with
  | error failure => exact answers
  | ok next =>
      simp only [accept, bind_ok, require_ok, pure_ok] at accepted
      obtain ⟨_, _, _, _, _, _, rfl⟩ := accepted
      intro key unaccepted
      by_cases same : key = call.claimId
      · simp [isAccepted, same] at unaccepted
      · simp only [isAccepted, Function.update_of_ne same] at unaccepted ⊢
        exact answers key unaccepted

theorem acceptStep_recorded {guard : ThresholdQuorumAcceptance} {acceptances : Acceptances}
    {key : Bytes32} {claims : Bytes32 × Bytes32}
    (held : recordedClaim acceptances key = some claims) (call : AcceptCall) :
    recordedClaim (acceptStep ecrecover keccak256 guard acceptances call) key = some claims := by
  rw [acceptStep, accept_register.setsOnce, held, Option.some_or]

theorem recordedClaim_of_accepted {acceptances : Acceptances} {key : Bytes32}
    (accepted : isAccepted acceptances key = true) : recordedClaim acceptances key =
      some (acceptances.acceptedClaim key, acceptances.acceptedExecutionClaim key) := by
  unfold isAccepted at accepted
  rw [recordedClaim, if_pos accepted]

/-- An acceptance is never lost. -/
theorem claimAccepted_step {world : World} {policy : String} {arguments : List Argument}
    (accepted : ClaimAccepted keccak256 sha256 sequence (guardsOf deployment world policy)
      arguments) (call : Call) :
    ClaimAccepted keccak256 sha256 sequence
      (guardsOf deployment
        (callStep ecrecover keccak256 sha256 deployment sequence world call) policy) arguments := by
  cases call with
  | accept guard call =>
      obtain ⟨key, claim, canonical, keyed, claimed, held⟩ := accepted
      refine ⟨key, claim, canonical, keyed, claimed, ?_⟩
      simp only [guardsOf, callStep] at held ⊢
      by_cases same : deployment.guardAt policy = guard
      · subst same
        rw [Function.update_self]
        exact acceptStep_recorded held call
      · rw [Function.update_of_ne same]
        exact held
  | execute others =>
      simp only [callStep]
      split <;> exact accepted

variable {sha256Hex : List UInt8 → String} {text : JsonText} {raw : PlanInputs}
  {plan : CoordinationPlan} (projected : Projected sha256Hex text raw plan sequence)
include projected

/-- What a call that meets the condition posts, its guards have accepted. -/
theorem execute_claimAccepted {world : World}
    (answers : ∀ guard, AnswersZero (world.acceptances guard)) {arguments : List Argument}
    (payload : PayloadMatches keccak256 sha256 deployment sequence world arguments)
    {result : Storage × List Event}
    (executed : execute keccak256 sha256 sequence (guardsOf deployment world) world.storage
      arguments = .ok result) {posting : FinalizedPostingProjection}
    (posted : posting ∈ postingsOf result.2) {effect : PlanEffect}
    (declared : effect ∈ plan.effects) (own : IsPostingOf effect posting)
    (gated : effect.gateMode ≠ .none) : ClaimAccepted keccak256 sha256 sequence
      (guardsOf deployment world effect.gatePolicy) arguments := by
  unfold execute at executed
  split at executed
  · rename_i temporal _
    obtain ⟨key, claim, keyed, claimed, groups⟩ := executeTemporal_accepted executed
    obtain ⟨entry, entryIn, inside, answer⟩ := groups posting posted
    have policy := group_policy projected declared gated entryIn inside own
    have accepted : isAccepted (guardsOf deployment world effect.gatePolicy) key = true := by
      simp only [PayloadMatches, temporal] at payload
      by_contra unaccepted
      rw [Bool.not_eq_true] at unaccepted
      have zero := answers (deployment.guardAt effect.gatePolicy) key unaccepted
      rw [policy] at answer
      have unset : claim = 0 := answer.symm.trans zero
      have holds := payload key keyed (by rw [claimed, unset]) entry entryIn
      rw [policy, unaccepted] at holds
      cases holds
    have recorded := recordedClaim_of_accepted accepted
    rw [policy] at answer
    rw [answer] at recorded
    exact ⟨key, claim, _, keyed, claimed, recorded⟩
  · rename_i effectful single
    obtain ⟨key, keyed, accepted⟩ := executeSingle_accepted executed
    simp only [PayloadMatches, effectful] at payload
    have recorded := recordedClaim_of_accepted accepted
    have claimed := payload key keyed _ recorded
    rw [single_policy projected effectful single declared gated] at recorded claimed
    exact ⟨key, _, _, keyed, claimed, recorded⟩
  · cases executed

/-- One call keeps the guards' answers and the binding of what has been posted. -/
theorem callStep_binds {world : World} (answers : ∀ guard, AnswersZero (world.acceptances guard))
    (binds : AcceptanceBinds keccak256 sha256 deployment sequence plan world) {call : Call}
    (payload : ∀ arguments, call = .execute arguments →
      PayloadMatches keccak256 sha256 deployment sequence world arguments) :
    (∀ guard, AnswersZero ((callStep ecrecover keccak256 sha256 deployment sequence world
      call).acceptances guard)) ∧
    AcceptanceBinds keccak256 sha256 deployment sequence plan
      (callStep ecrecover keccak256 sha256 deployment sequence world call) := by
  have kept : ∀ receipt ∈ world.receipts, ∀ posting ∈ postingsOf receipt.2,
      ∀ effect ∈ plan.effects, IsPostingOf effect posting → effect.gateMode ≠ .none →
      ClaimAccepted keccak256 sha256 sequence (guardsOf deployment
        (callStep ecrecover keccak256 sha256 deployment sequence world call) effect.gatePolicy)
        receipt.1 :=
    fun receipt listed posting posted effect declared own gated =>
      claimAccepted_step (binds receipt listed posting posted effect declared own gated) call
  cases call with
  | accept guard call =>
      refine ⟨fun other => ?_, kept⟩
      simp only [callStep]
      by_cases same : other = guard
      · subst same
        rw [Function.update_self]
        exact acceptStep_answersZero (answers other) call
      · rw [Function.update_of_ne same]
        exact answers other
  | execute arguments =>
      cases executed : execute keccak256 sha256 sequence (guardsOf deployment world) world.storage
          arguments with
      | error failure =>
          simp only [callStep, executed] at kept ⊢
          exact ⟨answers, kept⟩
      | ok result =>
          simp only [callStep, executed] at kept ⊢
          refine ⟨answers, ?_⟩
          intro receipt listed posting posted effect declared own gated
          rcases List.mem_append.mp listed with earlier | last
          · exact kept receipt earlier posting posted effect declared own gated
          · obtain rfl := List.mem_singleton.mp last
            exact execute_claimAccepted projected answers (payload arguments rfl) executed posted
              declared own gated

/-- What a run whose calls of `execute` all meet the condition keeps. -/
theorem run_binds {calls : List Call}
    (payloads : ∀ visit ∈ visits (callStep ecrecover keccak256 sha256 deployment sequence) {} calls,
      ∀ arguments, visit.2 = .execute arguments →
        PayloadMatches keccak256 sha256 deployment sequence visit.1 arguments) :
    AcceptanceBinds keccak256 sha256 deployment sequence plan
      (run (callStep ecrecover keccak256 sha256 deployment sequence) {} calls) := by
  have kept := @run_visits _ _ (callStep ecrecover keccak256 sha256 deployment sequence)
    (fun world : World => (∀ guard, AnswersZero (world.acceptances guard)) ∧
      AcceptanceBinds keccak256 sha256 deployment sequence plan world) {} calls
    (fun visit visited before =>
      callStep_binds projected before.1 before.2 (payloads visit visited))
    ⟨fun guard key unaccepted => rfl, by simp [AcceptanceBinds]⟩
  exact kept.2

end Runs

/-- Over any interleaving of acceptances and executions, where every call of `execute` meets the
condition, every posting that a policy authorizes is of a payload whose claim the policy's guard
has accepted for its key. -/
theorem acceptance_binds_payload (ecrecover : Bytes32 → UInt8 → Bytes32 → Bytes32 → Address)
    (keccak256 sha256 : List UInt8 → Bytes32) (sha256Hex : List UInt8 → String) {text : JsonText}
    (reads : text.ReadsExprs) {raw : PlanInputs} (builder : FromBuilder raw)
    (typed : GuardsTyped raw) {plan : CoordinationPlan} (accepted : assemblePlan raw = .ok plan)
    (_attested : plan.attestations ≠ []) {graph : BackendProjectionGraph}
    (projected : projectBackendGraph sha256Hex text plan = .ok graph)
    {sequence : FinalizedProjectionSequence}
    (consumed : consumeFinalizedProjectionSequence text graph = .ok sequence)
    (_posts : sequence.executionMode ≠ .evidence) (deployment : Deployment) (calls : List Call)
    (payloads : ∀ visit ∈ visits (callStep ecrecover keccak256 sha256 deployment sequence) {} calls,
      ∀ arguments, visit.2 = .execute arguments →
        PayloadMatches keccak256 sha256 deployment sequence visit.1 arguments) :
    AcceptanceBinds keccak256 sha256 deployment sequence plan
      (run (callStep ecrecover keccak256 sha256 deployment sequence) {} calls) := by
  obtain ⟨verified, rfl⟩ := projectBackendGraph_ok projected
  exact run_binds ⟨assemblePlan_ok accepted, builder, typed, reads, verified, consumed⟩ payloads

/-! A payment under one policy, on either rail. -/

def amountLeg (name kind party : String) (temporal : Bool) : Json :=
  .object ([("name", .string name), ("kind", .string kind), ("participant", .null),
    ("ledger", .string "cash"), ("memo", .string ""),
    ("idempotencyKey", specText [("kind", "ref"), ("value", "trade")]),
    ("amount", specText [("kind", "ref"), ("value", "amount")]),
    ("currency", specText [("kind", "literal"), ("value", "EUR")]),
    ("party", specText [("kind", "literal"), ("value", party)])] ++
    if temporal then [("when", .object [("expr", .string "accepted(proof)"),
      ("ast", exprToJson (.call "accepted" [.var "proof" .evidence] .extension))])]
    else [])

def witnessedPayment (temporal : Bool) : Json.Object :=
  [("procedure", .string "pay"), ("trigger", .string "PaymentDue"),
    ("inputs", .array [specText [("name", "trade"), ("type", "string")],
      specText [("name", "amount"), ("type", "money")],
      specText [("name", "proof"), ("type", "evidence")]]),
    ("participants", .array []), ("topology", .object [("allowedOrgPairs", .array [])]),
    ("invariants", .array [specText [("kind", "balanced")]]),
    ("attestations", .array [.object [("input", .string "proof"),
      ("quorum", .object [("threshold", .number (.integer 1))]),
      ("observerSet", specText [("ref", "witnesses")]),
      ("canonicalization", specText [("mode", "exact")])]]),
    ("effects", .array [amountLeg "pay" "debit" "buyer" temporal,
      amountLeg "receive" "credit" "seller" temporal]),
    ("lifecycle", specLifecycle)]


def soleGuard : ThresholdQuorumAcceptance where
  threshold := 1
  observerCount := 1
  isObserver := [1]
  cachedDomainSeparator := 128
  cachedChainId := 1
  cachedThis := 9
  capabilityHash := 5

def soleDeployment : Deployment := ⟨fun _ => 9, fun _ => soleGuard⟩

def payment (amount : Nat) : List Argument :=
  [.string (utf8 "t-1"), .uint256 amount, .string (utf8 "receipt")]

/-- The observer's acceptance of a claim. -/
def acceptance (claim : Bytes32) : Call :=
  .accept 9 {
    chainId := 1
    claimId := lengthHash (utf8 "t-1")
    canonicalClaimHash := 0
    executionClaim := claim
    signatures := [signatureOf 1] }

def finalizedPayment (temporal : Bool) : Except String FinalizedProjectionSequence :=
  finalizedSpec (witnessedPayment temporal)

theorem finalizedPayment_ok {temporal : Bool} {check : FinalizedProjectionSequence → Bool}
    (checked : (finalizedPayment temporal).toOption.any check = true) : ∃ graph sequence,
    projectBackendGraph sampleHash compactText (specPlan (witnessedPayment temporal)) = .ok graph ∧
      consumeFinalizedProjectionSequence compactText graph = .ok sequence ∧
      check sequence = true := by
  obtain ⟨sequence, finalized, holds⟩ := (Option.any_eq_true ..).mp checked
  obtain ⟨graph, projected, consumed⟩ := bind_ok.mp (toOption_eq_some.mp finalized)
  exact ⟨graph, sequence, projected, consumed, holds⟩

/-- The payment's accepted claim, then a call for another amount and one for its own. -/
def temporalCalls : List Call := [acceptance 205, .execute (payment 50), .execute (payment 5)]

def runOf (sequence : FinalizedProjectionSequence) (calls : List Call) : World :=
  run (callStep readAddress lengthHash lengthHash soleDeployment sequence) {} calls

/-- The number of postings of each call that did not revert. -/
def postedBy (world : World) : List Nat :=
  world.receipts.map fun receipt => (postingsOf receipt.2).length

theorem acceptance_binds_temporal : ∃ graph sequence,
    projectBackendGraph sampleHash compactText (specPlan (witnessedPayment true)) = .ok graph ∧
      consumeFinalizedProjectionSequence compactText graph = .ok sequence ∧
      postedBy (runOf sequence temporalCalls) = [0, 2] ∧
      AcceptanceBinds lengthHash lengthHash soleDeployment sequence
        (specPlan (witnessedPayment true)) (runOf sequence temporalCalls) := by
  obtain ⟨graph, sequence, projected, consumed, holds⟩ := @finalizedPayment_ok true
    (fun sequence => sequence.executionMode = .temporal &&
      postedBy (runOf sequence temporalCalls) = [0, 2] &&
      payloadClaim lengthHash sequence (payment 5) = some 205 &&
      payloadClaim lengthHash sequence (payment 50) = some 206) (by decide +kernel)
  simp only [Bool.and_eq_true, decide_eq_true_eq] at holds
  obtain ⟨⟨⟨temporal, posted⟩, five⟩, fifty⟩ := holds
  obtain ⟨raw, gathered, accepted⟩ :=
    bind_ok.mp (@specPlan_accepted (witnessedPayment true) (by decide +kernel))
  refine ⟨graph, sequence, projected, consumed, posted, acceptance_binds_payload readAddress
    lengthHash lengthHash sampleHash compactText_readsExprs (inputsFromSpec_fromBuilder gathered)
    (inputsFromSpec_typed gathered) accepted (by decide +kernel) projected consumed
    (by simp [temporal]) soleDeployment temporalCalls ?_⟩
  intro visit visited arguments call
  have listed : visit.2 ∈ temporalCalls := by
    rw [← visits_snd (callStep readAddress lengthHash lengthHash soleDeployment sequence) {}
      temporalCalls]
    exact List.mem_map_of_mem visited
  have nonzero : payloadClaim lengthHash sequence arguments ≠ some 0 := by
    rw [call] at listed
    simp only [temporalCalls, acceptance, List.mem_cons, reduceCtorEq, Call.execute.injEq,
      List.not_mem_nil, or_false, false_or] at listed
    rcases listed with rfl | rfl
    · rw [fifty]
      decide
    · rw [five]
      decide
  simp only [PayloadMatches, temporal]
  exact fun key _ zero => absurd zero nonzero

/-- On the effectful rail the acceptance of a payment of 5 lets one of 50 pass. -/
theorem effectful_acceptance_unbound : ∃ graph sequence,
    planFromSpec (witnessedPayment false) = .ok (specPlan (witnessedPayment false)) ∧
      (specPlan (witnessedPayment false)).attestations ≠ [] ∧
      projectBackendGraph sampleHash compactText (specPlan (witnessedPayment false)) = .ok graph ∧
      consumeFinalizedProjectionSequence compactText graph = .ok sequence ∧
      sequence.executionMode = .effectful ∧
      payloadClaim lengthHash sequence (payment 5) = some 206 ∧
      ¬AcceptanceBinds lengthHash lengthHash soleDeployment sequence
        (specPlan (witnessedPayment false))
        (runOf sequence [acceptance 206, .execute (payment 50)]) := by
  obtain ⟨graph, sequence, projected, consumed, holds⟩ := @finalizedPayment_ok false
    (fun sequence => sequence.executionMode = .effectful &&
      payloadClaim lengthHash sequence (payment 5) = some 206 &&
      payloadClaim lengthHash sequence (payment 50) = some 207 &&
      payloadKey lengthHash sequence (payment 50) = some 3 &&
      recordedClaim ((runOf sequence [acceptance 206, .execute (payment 50)]).acceptances 9) 3 =
        some (0, 206) &&
      (runOf sequence [acceptance 206, .execute (payment 50)]).receipts.any fun receipt =>
        receipt.1 = payment 50 && (postingsOf receipt.2).any fun posting =>
          (specPlan (witnessedPayment false)).effects.any fun effect =>
            posting.posting.id = postingNodeId effect.index && effect.gateMode ≠ .none)
    (by decide +kernel)
  simp only [Bool.and_eq_true, decide_eq_true_eq, List.any_eq_true] at holds
  obtain ⟨⟨⟨⟨⟨effectful, five⟩, fifty⟩, keyed⟩, held⟩, receipt, receiptIn, paid, posting,
    posted, effect, declared, own, gated⟩ := holds
  refine ⟨graph, sequence, @specPlan_accepted (witnessedPayment false) (by decide +kernel),
    by decide +kernel, projected, consumed, effectful, five, fun binds => ?_⟩
  obtain ⟨key, claim, canonical, ownKey, ownClaim, recorded⟩ :=
    binds receipt receiptIn posting posted effect declared own gated
  rw [paid, keyed, Option.some.injEq] at ownKey
  rw [paid, fifty, Option.some.injEq] at ownClaim
  subst ownKey ownClaim
  have same := held.symm.trans recorded
  simp at same

end Neutrino.Solidity
