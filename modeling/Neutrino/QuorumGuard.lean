import Mathlib
import Neutrino.CoordinationEnvelope
import Neutrino.Library.Checked
import Neutrino.Library.OneShot

/-! The on-chain acceptance guard: a claim is accepted once at least `threshold` authorized
observers have signed its digest. -/

namespace Neutrino

namespace Quorum

open Checked Run

abbrev Address := BitVec 160

abbrev Bytes32 := BitVec 256

abbrev Signature := List UInt8

inductive GuardError
  | emptyObserverSet
  | badThreshold (threshold observerCount : Nat)
  | alreadyAccepted (claimId : Bytes32)
  | quorumNotMet (got need : Nat)
  | unauthorizedSigner (recovered : Address)
  | signersNotStrictlyAscending (prev recovered : Address)
  | malformedSignature (index : Nat)
  | malleableSignature (index : Nat)
  deriving DecidableEq, Repr

/-- What is fixed at construction. -/
structure ThresholdQuorumAcceptance where
  threshold : Nat
  observerCount : Nat
  isObserver : List Address
  cachedDomainSeparator : Bytes32
  cachedChainId : Bytes32
  cachedThis : Address
  capabilityHash : Bytes32
  deriving DecidableEq, Repr

structure QuorumAccepted where
  claimId : Bytes32
  claimDigest : Bytes32
  signatures : Nat
  deriving DecidableEq, Repr

/-- The acceptances on record, with the events of recording them. -/
structure Acceptances where
  accepted : Bytes32 → Bool := fun _ => false
  acceptedClaim : Bytes32 → Bytes32 := fun _ => 0
  acceptedExecutionClaim : Bytes32 → Bytes32 := fun _ => 0
  events : List QuorumAccepted := []

/-- The bytes of a word, the high one first. -/
def wordBytes (word : Bytes32) : List UInt8 :=
  (List.range 32).map fun index => UInt8.ofNat (word.toNat / 256 ^ (31 - index))

/-- The word of at most 32 bytes, the high one first. -/
def bytesWord (bytes : List UInt8) : Bytes32 :=
  bytes.foldl (fun word byte => word * 256 + BitVec.ofNat 256 byte.toNat) 0

def domainType : String :=
  "NeutrinoThresholdQuorumAcceptance(uint256 chainId,address verifyingContract," ++
    "bytes32 capabilityHash)"

def claimType : String :=
  "QuorumClaim(bytes32 claimId,bytes32 canonicalClaimHash,bytes32 executionClaim)"

/-- The low half of the curve's order. -/
def halfOrder : Nat := 0x7FFFFFFFFFFFFFFFFFFFFFFFFFFFFFFF5D576E7357A4501DDFE92F46681B20A0

section Hashing

variable (keccak256 : List UInt8 → Bytes32)

def buildDomainSeparator (chainId : Bytes32) (this : Address) (capabilityHash : Bytes32) :
    Bytes32 :=
  keccak256 (wordBytes (keccak256 (utf8 domainType)) ++ wordBytes chainId ++
    wordBytes (this.setWidth 256) ++ wordBytes capabilityHash)

/-- One observer more of those given to the constructor. -/
def addObserver (observers : List Address × Nat) (observer : Address) : List Address × Nat :=
  if observer ≠ 0 ∧ observer ∉ observers.1 then (observer :: observers.1, observers.2 + 1)
  else observers

def construct (chainId : Bytes32) (this : Address) (observers : List Address) (threshold : Nat)
    (capabilityHash : Bytes32) : Except GuardError ThresholdQuorumAcceptance := do
  let counted := observers.foldl addObserver ([], 0)
  require (counted.2 ≠ 0) .emptyObserverSet
  require (¬(threshold = 0 ∨ counted.2 < threshold)) (.badThreshold threshold counted.2)
  return {
    threshold
    observerCount := counted.2
    isObserver := counted.1
    cachedDomainSeparator := buildDomainSeparator keccak256 chainId this capabilityHash
    cachedChainId := chainId
    cachedThis := this
    capabilityHash }

variable (guard : ThresholdQuorumAcceptance)

def domainSeparator (chainId : Bytes32) : Bytes32 :=
  if chainId = guard.cachedChainId then guard.cachedDomainSeparator
  else buildDomainSeparator keccak256 chainId guard.cachedThis guard.capabilityHash

def claimDigest (chainId claimId canonicalClaimHash executionClaim : Bytes32) : Bytes32 :=
  let structHash := keccak256 (wordBytes (keccak256 (utf8 claimType)) ++ wordBytes claimId ++
    wordBytes canonicalClaimHash ++ wordBytes executionClaim)
  keccak256 ([0x19, 0x01] ++ wordBytes (domainSeparator keccak256 guard chainId) ++
    wordBytes structHash)

end Hashing

section Accept

variable (ecrecover : Bytes32 → UInt8 → Bytes32 → Bytes32 → Address)

def recover (digest : Bytes32) (sig : Signature) (index : Nat) : Except GuardError Address := do
  require (sig.length = 65) (.malformedSignature index)
  let r := bytesWord (sig.take 32)
  let s := bytesWord ((sig.drop 32).take 32)
  let v := (sig[64]?).getD 0
  require (s.toNat ≤ halfOrder) (.malleableSignature index)
  return ecrecover digest (if v < 27 then v + 27 else v) r s

/-- The signatures from an index on, each after a signer of the address `prev`. -/
def checkSigners (guard : ThresholdQuorumAcceptance) (digest : Bytes32) :
    Address → Nat → List Signature → Except GuardError Unit
  | _, _, [] => .ok ()
  | prev, index, sig :: rest => do
      let signer ← recover ecrecover digest sig index
      require (signer ∈ guard.isObserver) (.unauthorizedSigner signer)
      require (prev < signer) (.signersNotStrictlyAscending prev signer)
      checkSigners guard digest signer (index + 1) rest

structure AcceptCall where
  chainId : Bytes32
  claimId : Bytes32
  canonicalClaimHash : Bytes32
  executionClaim : Bytes32
  signatures : List Signature
  deriving DecidableEq, Repr

variable (keccak256 : List UInt8 → Bytes32) (guard : ThresholdQuorumAcceptance)

def callDigest (call : AcceptCall) : Bytes32 :=
  claimDigest keccak256 guard call.chainId call.claimId call.canonicalClaimHash
    call.executionClaim

def accept (state : Acceptances) (call : AcceptCall) : Except GuardError Acceptances := do
  require (state.accepted call.claimId = false) (.alreadyAccepted call.claimId)
  require (guard.threshold ≤ call.signatures.length)
    (.quorumNotMet call.signatures.length guard.threshold)
  let digest := callDigest keccak256 guard call
  checkSigners ecrecover guard digest 0 0 call.signatures
  return {
    accepted := Function.update state.accepted call.claimId true
    acceptedClaim := Function.update state.acceptedClaim call.claimId call.canonicalClaimHash
    acceptedExecutionClaim :=
      Function.update state.acceptedExecutionClaim call.claimId call.executionClaim
    events := state.events ++ [⟨call.claimId, digest, call.signatures.length⟩] }

/-- A call that reverts leaves the state as it was. -/
def acceptStep (state : Acceptances) (call : AcceptCall) : Acceptances :=
  OneShot.attempt (accept ecrecover keccak256 guard) state call

def isAccepted (state : Acceptances) (claimId : Bytes32) : Bool := state.accepted claimId

end Accept

theorem address_lt {lower upper : Address} (below : lower ≤ upper) (apart : lower ≠ upper) :
    lower < upper := by
  rw [BitVec.le_def] at below
  rw [BitVec.lt_def]
  have values : lower.toNat ≠ upper.toNat := fun same => apart (BitVec.eq_of_toNat_eq same)
  omega

/-! The constructor's set of observers. -/

theorem addObserver_spec {counted : List Address × Nat} (observer : Address)
    (distinct : counted.1.Nodup ∧ counted.2 = counted.1.length ∧ (0 : Address) ∉ counted.1) :
    (addObserver counted observer).1.Nodup ∧
      (addObserver counted observer).2 = (addObserver counted observer).1.length ∧
      (0 : Address) ∉ (addObserver counted observer).1 := by
  unfold addObserver
  split
  · rename_i fresh
    simp only [List.nodup_cons, List.length_cons, List.mem_cons, not_or]
    exact ⟨⟨fresh.2, distinct.1⟩, by rw [distinct.2.1], Ne.symm fresh.1, distinct.2.2⟩
  · exact distinct

theorem mem_addObserver {counted : List Address × Nat} {observer other : Address} :
    other ∈ (addObserver counted observer).1 ↔
      other ∈ counted.1 ∨ other ≠ 0 ∧ other = observer := by
  unfold addObserver
  split
  · rename_i fresh
    rw [List.mem_cons]
    constructor
    · rintro (rfl | held)
      · exact .inr ⟨fresh.1, rfl⟩
      · exact .inl held
    · rintro (held | ⟨_, rfl⟩)
      · exact .inr held
      · exact .inl rfl
  · rename_i skipped
    constructor
    · exact .inl
    · rintro (held | ⟨nonzero, rfl⟩)
      · exact held
      · by_contra missing
        exact skipped ⟨nonzero, missing⟩

theorem foldl_addObserver (observers : List Address) {counted : List Address × Nat}
    (distinct : counted.1.Nodup ∧ counted.2 = counted.1.length ∧ (0 : Address) ∉ counted.1) :
    (observers.foldl addObserver counted).1.Nodup ∧
      (observers.foldl addObserver counted).2 = (observers.foldl addObserver counted).1.length ∧
      ∀ other, other ∈ (observers.foldl addObserver counted).1 ↔
        other ∈ counted.1 ∨ other ≠ 0 ∧ other ∈ observers := by
  induction observers generalizing counted with
  | nil => simp [distinct]
  | cons first rest ih =>
      have next := ih (addObserver_spec first distinct)
      refine ⟨next.1, next.2.1, ?_⟩
      intro other
      rw [List.foldl_cons, next.2.2, mem_addObserver, List.mem_cons]
      tauto

/-- What a guard that was constructed holds. -/
structure Deployed (keccak256 : List UInt8 → Bytes32) (chainId : Bytes32) (this : Address)
    (observers : List Address) (threshold : Nat) (capabilityHash : Bytes32)
    (guard : ThresholdQuorumAcceptance) : Prop where
  observer : ∀ other, other ∈ guard.isObserver ↔ other ≠ 0 ∧ other ∈ observers
  count : guard.observerCount = (observers.toFinset.erase 0).card
  needs : guard.threshold = threshold
  positive : 1 ≤ threshold
  reachable : threshold ≤ guard.observerCount
  separator : ∀ chain, domainSeparator keccak256 guard chain =
    buildDomainSeparator keccak256 chain this capabilityHash

theorem construct_ok {keccak256 : List UInt8 → Bytes32} {chainId : Bytes32} {this : Address}
    {observers : List Address} {threshold : Nat} {capabilityHash : Bytes32}
    {guard : ThresholdQuorumAcceptance}
    (constructed : construct keccak256 chainId this observers threshold capabilityHash =
      .ok guard) :
    Deployed keccak256 chainId this observers threshold capabilityHash guard := by
  simp only [construct, bind_ok, require_ok, pure_ok, not_or, Nat.not_lt] at constructed
  obtain ⟨_, _, _, within, rfl⟩ := constructed
  have counted := @foldl_addObserver observers ([], 0) (by simp)
  constructor
  case observer => simpa using counted.2.2
  case count =>
    have same : (observers.foldl addObserver ([], 0)).1.toFinset = observers.toFinset.erase 0 := by
      ext other
      simp [counted.2.2]
    rw [← same, List.toFinset_card_of_nodup counted.1]
    exact counted.2.1
  case needs => rfl
  case positive => omega
  case reachable => exact within.2
  case separator =>
    intro chain
    rw [domainSeparator]
    split
    · rename_i same
      rw [same]
    · rfl

/-! The signers of a call. -/

section Signers

variable (ecrecover : Bytes32 → UInt8 → Bytes32 → Bytes32 → Address)

/-- The address a signature recovers to, if it recovers to one. -/
def signerOf (digest : Bytes32) (sig : Signature) : Option Address :=
  match recover ecrecover digest sig 0 with
  | .ok signer => if signer = 0 then none else some signer
  | .error _ => none

variable {ecrecover}

theorem recover_index {digest : Bytes32} {sig : Signature} {index other : Nat} {signer : Address} :
    recover ecrecover digest sig index = .ok signer ↔
      recover ecrecover digest sig other = .ok signer := by
  simp only [recover, bind_ok, require_ok, pure_ok]

theorem signerOf_eq_some {digest : Bytes32} {sig : Signature} {signer : Address} (index : Nat) :
    signerOf ecrecover digest sig = some signer ↔
      recover ecrecover digest sig index = .ok signer ∧ signer ≠ 0 := by
  rw [@recover_index ecrecover digest sig index 0, signerOf]
  split
  · rename_i found recovered
    rw [recovered, Except.ok.injEq]
    by_cases zero : found = 0
    · subst zero
      simp only [if_true, reduceCtorEq, false_iff, not_and, not_not]
      exact Eq.symm
    · simp only [zero, if_false, Option.some.injEq]
      constructor
      · rintro rfl
        exact ⟨rfl, zero⟩
      · exact And.left
  · rename_i failure failed
    simp [failed]

/-- The signers are recovered one for each signature, authorized, and of strictly ascending
addresses. -/
theorem checkSigners_ok {guard : ThresholdQuorumAcceptance} {digest : Bytes32} {prev : Address}
    {index : Nat} {signatures : List Signature} :
    checkSigners ecrecover guard digest prev index signatures = .ok () ↔
      ∃ signers, signatures.map (signerOf ecrecover digest) = signers.map some ∧
        (prev :: signers).Pairwise (· < ·) ∧ ∀ signer ∈ signers, signer ∈ guard.isObserver := by
  induction signatures generalizing prev index with
  | nil =>
      simp only [checkSigners, true_iff]
      exact ⟨[], rfl, by simp, by simp⟩
  | cons sig rest ih =>
      simp only [checkSigners, bind_ok, require_ok, ih]
      constructor
      · rintro ⟨signer, recovered, _, authorized, _, above, signers, recoveredRest, ascending,
          authorizedRest⟩
        have nonzero : signer ≠ 0 := by
          rintro rfl
          simp at above
        refine ⟨signer :: signers, ?_, ?_, ?_⟩
        · rw [List.map_cons, List.map_cons, recoveredRest,
            (signerOf_eq_some index).mpr ⟨recovered, nonzero⟩]
        · rw [List.pairwise_cons] at ascending ⊢
          refine ⟨?_, List.pairwise_cons.mpr ascending⟩
          intro later listed
          rcases List.mem_cons.mp listed with rfl | listed
          · exact above
          · exact BitVec.lt_trans above (ascending.1 later listed)
        · simpa using ⟨authorized, authorizedRest⟩
      · rintro ⟨signers, recovered, ascending, authorized⟩
        cases signers with
        | nil => simp at recovered
        | cons signer signers =>
            simp only [List.map_cons, List.cons.injEq] at recovered
            simp only [List.forall_mem_cons] at authorized
            rw [List.pairwise_cons] at ascending
            exact ⟨signer, ((signerOf_eq_some index).mp recovered.1).1, (), authorized.1, (),
              ascending.1 signer List.mem_cons_self, signers, recovered.2, ascending.2,
              authorized.2⟩

end Signers

/-! The acceptances of a run of calls. -/

section Calls

variable (ecrecover : Bytes32 → UInt8 → Bytes32 → Bytes32 → Address)
  (keccak256 : List UInt8 → Bytes32) (guard : ThresholdQuorumAcceptance)

/-- A call carries a quorum: at least as many signatures of its digest as needed, by authorized
observers in strictly ascending order of their addresses, and no other. -/
def Carries (call : AcceptCall) : Prop :=
  ∃ signers : List Address, call.signatures.map (signerOf ecrecover (callDigest keccak256 guard call)) =
      signers.map some ∧ signers.Pairwise (· < ·) ∧
    (∀ signer ∈ signers, signer ∈ guard.isObserver) ∧ guard.threshold ≤ signers.length

/-- The canonical claim and the execution claim on record for a claim id. -/
def recordedClaim (state : Acceptances) (claimId : Bytes32) : Option (Bytes32 × Bytes32) :=
  if state.accepted claimId then
    some (state.acceptedClaim claimId, state.acceptedExecutionClaim claimId)
  else none

def carriesQuorum (call : AcceptCall) : Bool :=
  decide (guard.threshold ≤ call.signatures.length) &&
    (checkSigners ecrecover guard (callDigest keccak256 guard call) 0 0 call.signatures).isOk

def offeredClaim (call : AcceptCall) : Option (Bytes32 × Bytes32) :=
  if carriesQuorum ecrecover keccak256 guard call then
    some (call.canonicalClaimHash, call.executionClaim)
  else none

variable {ecrecover keccak256 guard}

theorem isOk_iff {result : Except GuardError Unit} : result.isOk = true ↔ result = .ok () := by
  cases result <;> simp [Except.isOk, Except.toBool]

theorem carriesQuorum_iff {call : AcceptCall} :
    carriesQuorum ecrecover keccak256 guard call = true ↔
      Carries ecrecover keccak256 guard call := by
  rw [carriesQuorum, Bool.and_eq_true, decide_eq_true_eq, isOk_iff, checkSigners_ok, Carries]
  constructor
  · rintro ⟨enough, signers, recovered, ascending, authorized⟩
    refine ⟨signers, recovered, (List.pairwise_cons.mp ascending).2, authorized, ?_⟩
    have same := congrArg List.length recovered
    simp only [List.length_map] at same
    omega
  · rintro ⟨signers, recovered, ascending, authorized, enough⟩
    have same := congrArg List.length recovered
    simp only [List.length_map] at same
    refine ⟨by omega, signers, recovered, List.pairwise_cons.mpr ⟨?_, ascending⟩, authorized⟩
    intro signer listed
    have recoveredSigner : some signer ∈ call.signatures.map
        (signerOf ecrecover (callDigest keccak256 guard call)) := by
      rw [recovered]
      exact List.mem_map_of_mem listed
    obtain ⟨sig, _, signed⟩ := List.mem_map.mp recoveredSigner
    have nonzero := ((signerOf_eq_some 0).mp signed).2
    exact address_lt (by simp [BitVec.le_def]) (Ne.symm nonzero)

theorem accept_register :
    OneShot.Register (accept ecrecover keccak256 guard) recordedClaim AcceptCall.claimId
      (offeredClaim ecrecover keccak256 guard) := by
  constructor
  · intro state call next accepted
    simp only [accept, bind_ok, require_ok, pure_ok] at accepted
    obtain ⟨_, fresh, _, enough, _, signed, rfl⟩ := accepted
    have carried : carriesQuorum ecrecover keccak256 guard call = true := by
      rw [carriesQuorum, Bool.and_eq_true, decide_eq_true_eq, isOk_iff]
      exact ⟨enough, signed⟩
    refine ⟨by simp [recordedClaim, fresh], _, by rw [offeredClaim, if_pos carried], ?_⟩
    intro claimId
    by_cases same : call.claimId = claimId
    · subst same
      simp [recordedClaim]
    · have other := Ne.symm same
      simp [recordedClaim, same, Function.update_of_ne other]
  · intro state call value unset offered
    have fresh : state.accepted call.claimId = false := by
      rw [recordedClaim] at unset
      split at unset
      · cases unset
      · rename_i open'
        simpa using open'
    have carried : carriesQuorum ecrecover keccak256 guard call = true := by
      rw [offeredClaim] at offered
      split at offered
      · assumption
      · cases offered
    rw [carriesQuorum, Bool.and_eq_true, decide_eq_true_eq, isOk_iff] at carried
    simp only [accept, bind_ok, require_ok, pure_ok]
    exact ⟨_, (), fresh, (), carried.1, (), carried.2, rfl⟩

/-- Strictly ascending order is within reach of every set of distinct signers. -/
theorem exists_ascending {digest : Bytes32} {signatures : List Signature} {signers : List Address}
    (recovered : signatures.map (signerOf ecrecover digest) = signers.map some)
    (distinct : signers.Nodup) :
    ∃ (ordered : List Signature) (ascending : List Address),
      ordered.Perm signatures ∧ ascending.Perm signers ∧
      ordered.map (signerOf ecrecover digest) = ascending.map some ∧
      ascending.Pairwise (· < ·) := by
  have lengths : signatures.length = signers.length := by
    simpa using congrArg List.length recovered
  have pairs : ∀ pair ∈ signatures.zip signers,
      signerOf ecrecover digest pair.1 = some pair.2 := by
    have zipped : List.Forall₂ (fun sig signer => signerOf ecrecover digest sig = some signer)
        signatures signers := by
      have mapped : List.Forall₂ Eq (signatures.map (signerOf ecrecover digest))
          (signers.map some) := by
        rw [recovered]
        exact List.forall₂_refl _
      simpa [List.forall₂_map_left_iff, List.forall₂_map_right_iff] using mapped
    exact fun pair listed => (List.forall₂_iff_zip.mp zipped).2 listed
  let below := fun left right : Signature × Address => decide (left.2 ≤ right.2)
  have sorted := List.mergeSort_perm (signatures.zip signers) below
  refine ⟨((signatures.zip signers).mergeSort below).map Prod.fst,
    ((signatures.zip signers).mergeSort below).map Prod.snd, ?_, ?_, ?_, ?_⟩
  · have first := sorted.map Prod.fst
    rwa [List.map_fst_zip (by omega)] at first
  · have second := sorted.map Prod.snd
    rwa [List.map_snd_zip (by omega)] at second
  · rw [List.map_map, List.map_map]
    apply List.map_congr_left
    intro pair listed
    exact pairs pair (sorted.mem_iff.mp listed)
  · have ordered : ((signatures.zip signers).mergeSort below).Pairwise
        fun left right => below left right = true := by
      apply List.pairwise_mergeSort
      · intro a b c
        simpa [below] using fun first second => BitVec.le_trans first second
      · intro a b
        simpa [below] using BitVec.le_total a.2 b.2
    have apart : (((signatures.zip signers).mergeSort below).map Prod.snd).Nodup := by
      have second := sorted.map Prod.snd
      rw [List.map_snd_zip (by omega)] at second
      exact second.nodup_iff.mpr distinct
    have weak : (((signatures.zip signers).mergeSort below).map Prod.snd).Pairwise (· ≤ ·) := by
      rw [List.pairwise_map]
      exact ordered.imp fun {left right} lower => by simpa [below] using lower
    exact (weak.and apart).imp fun {left right} both => address_lt both.1 both.2

end Calls

end Quorum

end Neutrino
