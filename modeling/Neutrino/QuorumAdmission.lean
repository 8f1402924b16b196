import Neutrino.QuorumGates
import Neutrino.QuorumGuard

/-! Admission of a quorum: sound, complete and once for each claim, on chain and in the database. -/

namespace Neutrino

namespace Quorum

open Run OneShot

/-- What a gate has on record after any run: for each key the record of a call that carried a
quorum for it, and nothing else; it stays there, and no later call for that key has an effect. -/
structure GateLaw {σ ι κ ρ ε : Type} (gate : σ → ι → Except ε σ) (start : σ)
    (recorded : σ → κ → Option ρ) (key : ι → κ) (carries : ι → ρ → Prop) : Prop where
  recorded_iff : ∀ calls k, (recorded (run (attempt gate) start calls) k).isSome = true ↔
    ∃ call ∈ calls, key call = k ∧ ∃ value, carries call value ∧
      recorded (run (attempt gate) start calls) k = some value
  sound : ∀ calls call, call ∈ calls → (∃ value, carries call value) →
    (recorded (run (attempt gate) start calls) (key call)).isSome = true
  kept : ∀ calls more k value, recorded (run (attempt gate) start calls) k = some value →
    recorded (run (attempt gate) start (calls ++ more)) k = some value
  refuses : ∀ calls call value,
    recorded (run (attempt gate) start calls) (key call) = some value →
    (∃ failure, gate (run (attempt gate) start calls) call = .error failure) ∧
      attempt gate (run (attempt gate) start calls) call = run (attempt gate) start calls

theorem GateLaw.of_register {σ ι κ ρ ε : Type} [DecidableEq κ] {gate : σ → ι → Except ε σ}
    {start : σ} {recorded : σ → κ → Option ρ} {key : ι → κ} {offers : ι → Option ρ}
    {carries : ι → ρ → Prop} (register : Register gate recorded key offers)
    (unset : ∀ k, recorded start k = none)
    (offered : ∀ call value, offers call = some value ↔ carries call value) :
    GateLaw gate start recorded key carries := by
  have once := register.setsOnce
  constructor
  case recorded_iff =>
    intro calls k
    constructor
    · intro held
      obtain ⟨value, held⟩ := Option.isSome_iff_exists.mp held
      obtain ⟨call, listed, same, offer⟩ := recorded_run_offered once start unset held
      exact ⟨call, listed, same, value, (offered call value).mp offer, held⟩
    · rintro ⟨call, _, _, value, _, held⟩
      exact Option.isSome_iff_exists.mpr ⟨value, held⟩
  case sound =>
    rintro calls call listed ⟨value, carried⟩
    rw [isSome_recorded_run once start unset]
    exact ⟨call, listed, rfl, by rw [(offered call value).mpr carried]; rfl⟩
  case kept =>
    intro calls more k value held
    rw [run_append]
    exact recorded_run_kept once _ more held
  case refuses =>
    intro calls call value held
    exact register.refuses held

section Guard

variable (ecrecover : Bytes32 → UInt8 → Bytes32 → Bytes32 → Address)
  (keccak256 : List UInt8 → Bytes32) (guard : ThresholdQuorumAcceptance)

theorem guardLaw : GateLaw (accept ecrecover keccak256 guard) {} recordedClaim AcceptCall.claimId
    fun call value => Carries ecrecover keccak256 guard call ∧
      value = (call.canonicalClaimHash, call.executionClaim) := by
  apply GateLaw.of_register accept_register
  · intro claimId
    rfl
  · intro call value
    rw [offeredClaim]
    split
    · rename_i carried
      rw [carriesQuorum_iff] at carried
      simp only [carried, true_and, Option.some.injEq]
      exact eq_comm
    · rename_i bare
      rw [carriesQuorum_iff] at bare
      simp [bare]

/-- Signatures of distinct authorized observers, as many as needed and in any order. -/
def CarriesUnordered (call : AcceptCall) : Prop :=
  ∃ signers : List Address,
    call.signatures.map (signerOf ecrecover (callDigest keccak256 guard call)) =
      signers.map some ∧ signers.Nodup ∧
    (∀ signer ∈ signers, signer ∈ guard.isObserver) ∧ guard.threshold ≤ signers.length

theorem exists_order {call : AcceptCall}
    (unordered : CarriesUnordered ecrecover keccak256 guard call) :
    ∃ ordered, ordered.Perm call.signatures ∧
      Carries ecrecover keccak256 guard { call with signatures := ordered } := by
  obtain ⟨signers, recovered, distinct, authorized, enough⟩ := unordered
  obtain ⟨ordered, ascending, permuted, same, again, sorted⟩ := exists_ascending recovered distinct
  refine ⟨ordered, permuted, ascending, again, sorted, ?_, ?_⟩
  · intro signer listed
    exact authorized signer (same.mem_iff.mp listed)
  · rwa [same.length_eq]

end Guard

open QuorumGates

theorem quorumGateLaw (authorized : List AuthorizedObserver) :
    GateLaw (quorumAccept authorized) [] recordedQuorum QuorumAcceptCall.register
      fun call value => Admitted authorized call.observerSet call.quorum call.observers ∧
        call.key.isSome = true ∧ call.canonicalClaimHash = some value.1 ∧
        value.2 = countDistinct (unnest call.observers) := by
  apply GateLaw.of_register (quorumAccept_register authorized)
  · intro k
    rfl
  · intro call value
    rw [offeredQuorum_eq_some, checkVotes_ok]

/-- The policy a call names is declared, and the votes meet the quorum of its observer set. -/
def AdmittedBy (authorized : List AuthorizedObserver) (call : TemporalAcceptCall) : Prop :=
  ∃ declared, policyCaseSelect call.policies call.policy = .ok declared ∧
    Admitted authorized declared.observerSet declared.quorum call.observers

theorem temporalGateLaw (authorized : List AuthorizedObserver) :
    GateLaw (temporalAccept authorized) [] recordedTemporal TemporalAcceptCall.register
      fun call value => AdmittedBy authorized call ∧ call.key.isSome = true ∧
        call.canonicalClaimHash = some value.1 ∧ call.executionClaim = some value.2.1 ∧
        value.2.2 = countDistinct (unnest call.observers) := by
  apply GateLaw.of_register (temporalAccept_register authorized)
  · intro k
    rfl
  · intro call value
    rw [offeredTemporal_eq_some, admittedTemporal, Checked.bind_ok, AdmittedBy]
    simp only [checkVotes_ok]

/-- A quorum is admitted exactly when it is carried in the order its gate asks for; what is
admitted is on record once and for all, and some order of every quorum is admitted. -/
theorem quorum_admission (ecrecover : Bytes32 → UInt8 → Bytes32 → Bytes32 → Address)
    (keccak256 : List UInt8 → Bytes32) {chainId : Bytes32} {this : Address}
    {observers : List Address} {threshold : Nat} {capabilityHash : Bytes32}
    {guard : ThresholdQuorumAcceptance}
    (constructed : construct keccak256 chainId this observers threshold capabilityHash =
      .ok guard) (authorized : List AuthorizedObserver) :
    (guard.observerCount = (observers.toFinset.erase 0).card ∧ guard.threshold = threshold ∧
      1 ≤ guard.threshold ∧ guard.threshold ≤ guard.observerCount ∧
      ∀ signer, signer ∈ guard.isObserver ↔ signer ≠ 0 ∧ signer ∈ observers) ∧
    GateLaw (accept ecrecover keccak256 guard) {} recordedClaim AcceptCall.claimId
      (fun call value => Carries ecrecover keccak256 guard call ∧
        value = (call.canonicalClaimHash, call.executionClaim)) ∧
    (∀ call, CarriesUnordered ecrecover keccak256 guard call → ∃ ordered : List Signature,
      ordered.Perm call.signatures ∧
        Carries ecrecover keccak256 guard { call with signatures := ordered }) ∧
    GateLaw (quorumAccept authorized) [] recordedQuorum QuorumAcceptCall.register
      (fun call value => Admitted authorized call.observerSet call.quorum call.observers ∧
        call.key.isSome = true ∧ call.canonicalClaimHash = some value.1 ∧
        value.2 = countDistinct (unnest call.observers)) ∧
    GateLaw (temporalAccept authorized) [] recordedTemporal TemporalAcceptCall.register
      (fun call value => AdmittedBy authorized call ∧ call.key.isSome = true ∧
        call.canonicalClaimHash = some value.1 ∧ call.executionClaim = some value.2.1 ∧
        value.2.2 = countDistinct (unnest call.observers)) ∧
    ∀ observerSet quorum (votes others : List Text), votes.Perm others →
      Admitted authorized observerSet quorum (some votes) →
      Admitted authorized observerSet quorum (some others) := by
  have deployed := construct_ok constructed
  refine ⟨⟨deployed.count, deployed.needs, ?_, ?_, deployed.observer⟩,
    guardLaw ecrecover keccak256 guard, fun call => exists_order ecrecover keccak256 guard,
    quorumGateLaw authorized, temporalGateLaw authorized,
    fun observerSet quorum votes others => Admitted.perm⟩
  · rw [deployed.needs]
    exact deployed.positive
  · rw [deployed.needs]
    exact deployed.reachable

/-! Two observers, of addresses 1 and 2, both needed. -/

def lengthHash (bytes : List UInt8) : Bytes32 := BitVec.ofNat 256 bytes.length

/-- The address is read off the signature. -/
def readAddress (_ : Bytes32) (_ : UInt8) (r _ : Bytes32) : Address := r.setWidth 160

def signatureOf (address : UInt8) : Signature :=
  List.replicate 31 0 ++ address :: List.replicate 32 0 ++ [27]

def pairGuard : ThresholdQuorumAcceptance where
  threshold := 2
  observerCount := 2
  isObserver := [2, 1]
  cachedDomainSeparator := 128
  cachedChainId := 1
  cachedThis := 9
  capabilityHash := 5

def pairCall (first second : UInt8) : AcceptCall where
  chainId := 1
  claimId := 7
  canonicalClaimHash := 0
  executionClaim := 0
  signatures := [signatureOf first, signatureOf second]

theorem pairGuard_constructed : construct lengthHash 1 9 [1, 0, 2, 1] 2 5 = .ok pairGuard := by
  decide +kernel

theorem quorum_admission_pair :
    pairGuard.observerCount = (([1, 0, 2, 1] : List Address).toFinset.erase 0).card ∧
    GateLaw (accept readAddress lengthHash pairGuard) {} recordedClaim AcceptCall.claimId
      fun call value => Carries readAddress lengthHash pairGuard call ∧
        value = (call.canonicalClaimHash, call.executionClaim) :=
  have admission := quorum_admission readAddress lengthHash pairGuard_constructed []
  ⟨admission.1.1, admission.2.1⟩

/-- A claim is accepted exactly when signatures of a quorum over what is on record for it were
carried, in whatever order. -/
def AdmittedInAnyOrder (ecrecover : Bytes32 → UInt8 → Bytes32 → Bytes32 → Address)
    (keccak256 : List UInt8 → Bytes32) (guard : ThresholdQuorumAcceptance)
    (calls : List AcceptCall) (claimId : Bytes32) : Prop :=
  let state := run (acceptStep ecrecover keccak256 guard) {} calls
  isAccepted state claimId = true ↔ ∃ call ∈ calls, call.claimId = claimId ∧
    CarriesUnordered ecrecover keccak256 guard call ∧
    call.canonicalClaimHash = state.acceptedClaim claimId ∧
    call.executionClaim = state.acceptedExecutionClaim claimId

theorem descending_not_admitted :
    construct lengthHash 1 9 [1, 0, 2, 1] 2 5 = .ok pairGuard ∧
    ¬AdmittedInAnyOrder readAddress lengthHash pairGuard [pairCall 2 1] 7 := by
  refine ⟨pairGuard_constructed, ?_⟩
  have failed : (accept readAddress lengthHash pairGuard {} (pairCall 2 1)).isOk = false := by
    decide +kernel
  have kept : run (acceptStep readAddress lengthHash pairGuard) {} [pairCall 2 1] = {} := by
    rw [run_cons, run_nil, acceptStep, attempt]
    split
    · rename_i next passed
      rw [passed] at failed
      cases failed
    · rfl
  have recovered : (pairCall 2 1).signatures.map (signerOf readAddress
      (callDigest lengthHash pairGuard (pairCall 2 1))) = [2, 1].map some := by
    decide +kernel
  rw [AdmittedInAnyOrder, kept]
  intro admitted
  have promised := admitted.mpr ⟨pairCall 2 1, by simp, rfl,
    ⟨[2, 1], recovered, by simp, by simp [pairGuard], by simp [pairGuard]⟩, rfl, rfl⟩
  simp [isAccepted] at promised

end Quorum

end Neutrino
