import Neutrino.Attestation
import Neutrino.Expr
import Neutrino.QuorumAdmission

/-! The oracle observer generator and the aggregator it renders, whose quorum is handed to the
on-chain guard. -/

namespace Neutrino

namespace Oracle

open Json Checked Quorum

/-- One observer set of the binding. -/
structure BoundSet where
  ref : String
  sourceType : String
  claimField : String
  members : List (String × String)
  chainId : String
  verifyingContract : String
  capabilityHash : String
  deriving DecidableEq, Repr

def BoundSet.hasDomain (set : BoundSet) : Bool := set.chainId ≠ ""

def fail {α : Type} (code message : String) : Except ExprError α := .error ⟨code, message⟩

def safeIdent (text what : String) : Except ExprError Unit :=
  require (text ≠ "" ∧ text ≠ "." ∧ text ≠ ".." ∧
      text.toList.all fun c => c.isAlphanum || c = '.' || c = '_' || c = '-')
    ⟨"binding.unsafe_ident", "oracle " ++ what ++ " '" ++ text ++
      "' is not a safe identifier (allow only non-empty [A-Za-z0-9._-], not '.'/'..') — " ++
      "refused so an untrusted spec/binding cannot escape the output directory or inject into " ++
      "the generated code"⟩

def boundMembers (set : Object) : List (String × String) :=
  (((set.getArray "members").getD []).filterMap asObject).map fun member =>
    (member.stringOr "id", member.stringOr "publicKey")

/-- The first set of the binding that the policy refers to. -/
def resolveSet (binding : Object) (p : AttestationPolicy) : Except ExprError BoundSet :=
  match binding.getArray "observerSets" with
  | none => fail "binding.schema" "observation-binding has no observerSets[]"
  | some sets =>
      match (sets.filterMap asObject).find? fun set => set.stringOr "ref" = p.observerSet with
      | none => fail "binding.unbound_observer_set" ("attestation observer-set '" ++
          p.observerSet ++ "' has no entry in the observation binding")
      | some set =>
          match set.getObject "source" with
          | none => fail "binding.schema" ("observer-set '" ++ p.observerSet ++
              "' has no source object")
          | some source =>
              let domain := (set.getObject "domain").getD []
              .ok {
                ref := p.observerSet
                sourceType := source.stringOr "type"
                claimField := source.stringOr "claimField"
                members := boundMembers set
                chainId := ((domain.getInteger "chainId").map fun id => toString id.toInt).getD ""
                verifyingContract := domain.stringOr "verifyingContract"
                capabilityHash := "" }

def checkMember (b : BoundSet) (seen : List String) (member : String × String) :
    Except ExprError (List String) := do
  require (member.2 ≠ "") ⟨"binding.missing_public_key", "observer-set '" ++ b.ref ++
    "' observer '" ++ member.1 ++ "' has no public key"⟩
  require (member.1 ∉ seen) ⟨"binding.duplicate_observer", "observer-set '" ++ b.ref ++
    "' binds observer id '" ++ member.1 ++ "' more than once"⟩
  return member.1 :: seen

/-- A guard domain needs the capability that the signed digest is separated by. -/
def bindDomain (spec : Object) (b : BoundSet) : Except ExprError BoundSet :=
  if b.hasDomain then do
    require (b.verifyingContract ≠ "") ⟨"binding.schema", "observer-set '" ++ b.ref ++
      "' guard domain has no verifyingContract"⟩
    let capabilityHash := ((spec.getObject "identity").getD []).stringOr "capabilityHash"
    require (capabilityHash ≠ "") ⟨"spec.ast", "observer-set '" ++ b.ref ++
      "' binds a guard domain but the capability-spec has no identity.capabilityHash to " ++
      "domain-separate the signed digest"⟩
    return { b with capabilityHash }
  else return b

/-- The set that the observers and the aggregator of a policy are rendered for. -/
def bindPolicy (spec binding : Object) (p : AttestationPolicy) :
    Except ExprError (AttestationPolicy × BoundSet) := do
  require (validateAttestationPolicy p = "") ⟨"spec.ast", validateAttestationPolicy p⟩
  let b ← resolveSet binding p
  require (¬(b.members.length : Int) < p.quorum) ⟨"binding.quorum_unreachable",
    "observer-set '" ++ b.ref ++ "' binds " ++ toString b.members.length ++
    " observers but the policy requires a quorum of " ++ toString p.quorum ++
    " — the M-of-N quorum could never be met"⟩
  require (b.claimField ≠ "") ⟨"binding.schema", "observer-set '" ++ b.ref ++
    "' binds no source.claimField to observe"⟩
  require (b.sourceType = "mock") ⟨"binding.unsupported_source", "observer-set '" ++ b.ref ++
    "' binds an unsupported source type '" ++ b.sourceType ++ "' (expected: mock)"⟩
  let _ ← thread (checkMember b) [] b.members
  let bound ← bindDomain spec b
  safeIdent p.input "attestation input"
  safeIdent b.ref "observer-set ref"
  each (fun member => safeIdent member.1 "observer id") b.members
  return (p, bound)

def generateOracleObserverFromSpec (spec binding : Object) :
    Except ExprError (List (AttestationPolicy × BoundSet)) := do
  require (attestationPoliciesFromSpec spec ≠ []) ⟨"spec.no_attestation",
    "capability-spec declares no attestation policy; the oracle observer backend renders from " ++
    "an `attest` policy ()"⟩
  require (binding.stringOr "kind" = "neutrino.observation-binding") ⟨"binding.schema",
    "observation-binding 'kind' must be 'neutrino.observation-binding'"⟩
  require ((binding.getInteger "schemaVersion").getD 0 = 1) ⟨"binding.schema",
    "observation-binding 'schemaVersion' must be 1"⟩
  let refs := (((binding.getArray "observerSets").getD []).filterMap asObject).map fun set =>
    set.stringOr "ref"
  let _ ← thread (fun (seen : List String) ref => do
    require (ref ∉ seen) (⟨"binding.duplicate_observer_set", "observer-set '" ++ ref ++
      "' is bound more than once"⟩ : ExprError)
    return ref :: seen) [] refs
  collect (bindPolicy spec binding) (attestationPoliciesFromSpec spec)

/-! The aggregator. -/

structure Claim where
  observerSet : String
  input : String
  field : String
  value : String
  deriving DecidableEq, Repr

structure Attestation where
  publicKey : String
  claim : Claim
  digest : String
  signature : Signature
  deriving DecidableEq, Repr

structure Aggregator where
  threshold : Int
  observers : List String
  authorized : List String
  deriving DecidableEq, Repr

def renderAggregator (p : AttestationPolicy) (b : BoundSet) : Aggregator where
  threshold := p.quorum
  observers := b.members.map Prod.fst
  authorized := b.members.map Prod.snd

/-- The attestations over one digest, by signer, in the order of their first arrival. -/
abbrev Signers := List (String × Attestation)

def addSigner (signers : Signers) (a : Attestation) : Signers :=
  if a.publicKey ∈ signers.map Prod.fst then signers else signers ++ [(a.publicKey, a)]

def addToDigest (a : Attestation) : List (String × Signers) → List (String × Signers)
  | [] => [(a.digest, addSigner [] a)]
  | group :: rest =>
      if group.1 = a.digest then (group.1, addSigner group.2 a) :: rest
      else group :: addToDigest a rest

inductive Aggregate
  | met (digest : String) (claim : Option Claim) (signatures : List Signature)
      (signers : List String)
  | unmet (threshold : Int) (observed : Nat)
  deriving DecidableEq, Repr

variable (aggregator : Aggregator)

def countSigner (byDigest : List (String × Signers)) (a : Attestation) : List (String × Signers) :=
  if a.publicKey ∈ aggregator.authorized then addToDigest a byDigest else byDigest

def aggregate (attestations : List Attestation) : Aggregate :=
  let byDigest := attestations.foldl (countSigner aggregator) []
  let digests := (byDigest.map Prod.fst).mergeSort fun a b => decide (a ≤ b)
  let groups := digests.filterMap fun digest => byDigest.find? fun group => group.1 = digest
  match groups.find? fun group => decide (aggregator.threshold ≤ group.2.length) with
  | some group => .met group.1 (group.2.head?.map fun signer => signer.2.claim)
      (group.2.map fun signer => signer.2.signature) (group.2.map Prod.fst)
  | none => .unmet aggregator.threshold attestations.length

/-! Attestations over one claim. -/

/-- The first attestation of each signer, in the order of arrival. -/
def firstArrivals (attestations : List Attestation) : Signers := attestations.foldl addSigner []

variable {aggregator}

theorem foldl_countSigner {digest : String} {attestations : List Attestation} {signers : Signers}
    (authorized : ∀ a ∈ attestations, a.publicKey ∈ aggregator.authorized)
    (same : ∀ a ∈ attestations, a.digest = digest) :
    attestations.foldl (countSigner aggregator) [(digest, signers)] =
      [(digest, attestations.foldl addSigner signers)] := by
  induction attestations generalizing signers with
  | nil => rfl
  | cons first rest ih =>
      simp only [List.forall_mem_cons] at authorized same
      rw [List.foldl_cons, List.foldl_cons, countSigner, if_pos authorized.1, addToDigest,
        if_pos same.1.symm]
      exact ih authorized.2 same.2

/-- Of attestations over one digest the first arrivals are handed on, where they are enough. -/
theorem aggregate_eq {digest : String} {first : Attestation} {rest : List Attestation}
    (authorized : ∀ a ∈ first :: rest, a.publicKey ∈ aggregator.authorized)
    (same : ∀ a ∈ first :: rest, a.digest = digest) :
    aggregate aggregator (first :: rest) =
      let group := firstArrivals (first :: rest)
      if aggregator.threshold ≤ group.length then
        .met digest (group.head?.map fun signer => signer.2.claim)
          (group.map fun signer => signer.2.signature) (group.map Prod.fst)
      else .unmet aggregator.threshold (first :: rest).length := by
  have grouped : (first :: rest).foldl (countSigner aggregator) [] =
      [(digest, firstArrivals (first :: rest))] := by
    simp only [List.forall_mem_cons] at authorized same
    rw [List.foldl_cons, countSigner, if_pos authorized.1, addToDigest, same.1]
    exact foldl_countSigner authorized.2 same.2
  rw [aggregate, grouped]
  simp only [List.map_cons, List.map_nil, List.mergeSort_singleton, List.filterMap_cons,
    List.find?_cons, decide_true, List.filterMap_nil, List.find?_nil]
  by_cases enough : aggregator.threshold ≤ (firstArrivals (first :: rest)).length
  · simp only [enough, decide_true, if_true]
  · simp only [enough, decide_false, if_false]

/-- The signatures of a quorum that is met are those of the first arrivals. -/
theorem aggregate_met {digest : String} {attestations : List Attestation}
    {found : String} {claim : Option Claim} {signatures : List Signature} {signers : List String}
    (authorized : ∀ a ∈ attestations, a.publicKey ∈ aggregator.authorized)
    (same : ∀ a ∈ attestations, a.digest = digest)
    (met : aggregate aggregator attestations = .met found claim signatures signers) :
    signatures = (firstArrivals attestations).map (fun signer => signer.2.signature) ∧
      aggregator.threshold ≤ (firstArrivals attestations).length := by
  cases attestations with
  | nil => simp [aggregate] at met
  | cons first rest =>
      rw [aggregate_eq authorized same] at met
      dsimp only at met
      split at met
      · rename_i enough
        simp only [Aggregate.met.injEq] at met
        exact ⟨met.2.2.1.symm, enough⟩
      · cases met

/-- Each signer is listed with an attestation of its own, which arrived. -/
theorem mem_foldl_addSigner {attestations : List Attestation} {signers : Signers}
    (own : ∀ signer ∈ signers, signer.2.publicKey = signer.1) :
    ∀ signer ∈ attestations.foldl addSigner signers,
      signer.2.publicKey = signer.1 ∧ (signer ∈ signers ∨ signer.2 ∈ attestations) := by
  induction attestations generalizing signers with
  | nil => exact fun signer listed => ⟨own signer listed, .inl listed⟩
  | cons first rest ih =>
      intro signer listed
      have grown : ∀ signer ∈ addSigner signers first,
          signer.2.publicKey = signer.1 ∧ (signer ∈ signers ∨ signer = (first.publicKey, first)) := by
        intro signer listed
        unfold addSigner at listed
        split at listed
        · exact ⟨own signer listed, .inl listed⟩
        · rcases List.mem_append.mp listed with held | added
          · exact ⟨own signer held, .inl held⟩
          · obtain rfl := List.mem_singleton.mp added
            exact ⟨rfl, .inr rfl⟩
      obtain ⟨named, from'⟩ := ih (fun signer listed => (grown signer listed).1) signer listed
      refine ⟨named, ?_⟩
      rcases from' with held | arrived
      · rcases (grown signer held).2 with held | rfl
        · exact .inl held
        · exact .inr List.mem_cons_self
      · exact .inr (List.mem_cons_of_mem _ arrived)

theorem mem_firstArrivals {attestations : List Attestation} {signer : String × Attestation}
    (listed : signer ∈ firstArrivals attestations) :
    signer.2.publicKey = signer.1 ∧ signer.2 ∈ attestations := by
  have none : ∀ signer ∈ ([] : Signers), signer.2.publicKey = signer.1 := by simp
  have arrived := mem_foldl_addSigner none signer listed
  exact ⟨arrived.1, by simpa using arrived.2⟩

section Handover

variable (ecrecover : Bytes32 → UInt8 → Bytes32 → Bytes32 → Address)
  (keccak256 : List UInt8 → Bytes32) (guard : ThresholdQuorumAcceptance) (b : BoundSet)
  (address : String → Address)

/-- A member's attestation of a claim: under the claim's digest, and signed so that the guard
recovers the member's address. -/
structure Honest (claim : AcceptCall) (digest : String) (a : Attestation) : Prop where
  member : a.publicKey ∈ b.members.map Prod.snd
  digest : a.digest = digest
  signed : recover ecrecover (callDigest keccak256 guard claim) a.signature 0 =
    .ok (address a.publicKey)

/-- The members' first attestations arrive in ascending order of their addresses. -/
def ArrivesAscending (attestations : List Attestation) : Prop :=
  ((0 : Address) :: (firstArrivals attestations).map fun signer => address signer.1).Pairwise
    (· < ·)

instance (attestations : List Attestation) : Decidable (ArrivesAscending address attestations) := by
  unfold ArrivesAscending
  infer_instance

variable {ecrecover keccak256 guard b address}

/-- A signature of a first arrival recovers to the address of its signer, if that is one. -/
theorem Honest.signerOf {claim : AcceptCall} {digest : String} {a : Attestation}
    (honest : Honest ecrecover keccak256 guard b address claim digest a) :
    Quorum.signerOf ecrecover (callDigest keccak256 guard claim) a.signature =
      if address a.publicKey = 0 then none else some (address a.publicKey) := by
  rw [Quorum.signerOf, honest.signed]

theorem eq_of_all_some {recovered signers : List Address}
    (same : (recovered.map fun signer => if signer = 0 then none else some signer) =
      signers.map some) : recovered = signers := by
  induction recovered generalizing signers with
  | nil =>
      cases signers with
      | nil => rfl
      | cons signer rest => simp at same
  | cons first rest ih =>
      cases signers with
      | nil => simp at same
      | cons signer others =>
          simp only [List.map_cons, List.cons.injEq] at same
          obtain ⟨here, later⟩ := same
          split at here
          · cases here
          · rw [Option.some.inj here, ih later]

theorem checkSigners_firstArrivals {claim : AcceptCall} {digest : String}
    {attestations : List Attestation}
    (honest : ∀ a ∈ attestations, Honest ecrecover keccak256 guard b address claim digest a)
    (observers : ∀ other, other ∈ guard.isObserver ↔
      other ≠ 0 ∧ other ∈ b.members.map fun member => address member.2) :
    checkSigners ecrecover guard (callDigest keccak256 guard claim) 0 0
        ((firstArrivals attestations).map fun signer => signer.2.signature) = .ok () ↔
      ArrivesAscending address attestations := by
  have recovered : ((firstArrivals attestations).map fun signer => signer.2.signature).map
      (Quorum.signerOf ecrecover (callDigest keccak256 guard claim)) =
      ((firstArrivals attestations).map fun signer => address signer.1).map fun signer =>
        if signer = 0 then none else some signer := by
    rw [List.map_map, List.map_map]
    apply List.map_congr_left
    intro signer listed
    obtain ⟨named, arrived⟩ := mem_firstArrivals listed
    simp only [Function.comp_apply, (honest signer.2 arrived).signerOf, named]
  rw [checkSigners_ok, recovered]
  constructor
  · rintro ⟨signers, same, ascending, _⟩
    rw [ArrivesAscending, eq_of_all_some same]
    exact ascending
  · intro ascending
    have nonzero : ∀ signer ∈ (firstArrivals attestations).map fun signer => address signer.1,
        signer ≠ 0 := by
      intro signer listed zero
      have above := (List.pairwise_cons.mp ascending).1 signer listed
      rw [zero] at above
      simp at above
    refine ⟨_, ?_, ascending, ?_⟩
    · apply List.map_congr_left
      intro signer listed
      rw [if_neg (nonzero signer listed)]
    · intro signer listed
      refine (observers signer).mpr ⟨nonzero signer listed, ?_⟩
      obtain ⟨first, present, rfl⟩ := List.mem_map.mp listed
      obtain ⟨named, arrived⟩ := mem_firstArrivals present
      have member := (honest first.2 arrived).member
      rw [named] at member
      obtain ⟨bound, declared, same⟩ := List.mem_map.mp member
      exact List.mem_map.mpr ⟨bound, declared, by rw [same]⟩

end Handover

def pairSpec : Object :=
  [("identity", .object [("capabilityHash", .string "05")]),
    ("attestations", .array [.object [("input", .string "delivered"),
      ("quorum", .object [("threshold", .number (.integer 2))]),
      ("observerSet", .object [("ref", .string "couriers")]),
      ("canonicalization", .object [("mode", .string "exact")]),
      ("fallback", .string "abort")]])]

def pairBinding : Object :=
  [("kind", .string "neutrino.observation-binding"), ("schemaVersion", .number (.integer 1)),
    ("observerSets", .array [.object [("ref", .string "couriers"),
      ("source", .object [("type", .string "mock"), ("claimField", .string "delivered")]),
      ("domain", .object [("chainId", .number (.integer 1)),
        ("verifyingContract", .string "0x0000000000000000000000000000000000000009")]),
      ("members", .array [
        .object [("id", .string "obs-alpha"), ("publicKey", .string "key-alpha")],
        .object [("id", .string "obs-beta"), ("publicKey", .string "key-beta")]])]])]

def pairPolicy : AttestationPolicy where
  input := "delivered"
  quorum := 2
  observerSet := "couriers"
  observerRole := ""
  assurance := ""
  independence := ""
  canonicalization := "exact"
  tolerance := ""
  timeout := ""
  fallback := "abort"

def pairSet : BoundSet where
  ref := "couriers"
  sourceType := "mock"
  claimField := "delivered"
  members := [("obs-alpha", "key-alpha"), ("obs-beta", "key-beta")]
  chainId := "1"
  verifyingContract := "0x0000000000000000000000000000000000000009"
  capabilityHash := "05"

theorem pair_generated :
    generateOracleObserverFromSpec pairSpec pairBinding = .ok [(pairPolicy, pairSet)] := by
  decide +kernel

def pairAddress (key : String) : Address :=
  if key = "key-alpha" then 1 else if key = "key-beta" then 2 else 3

def pairAttestation (key : String) (address : UInt8) : Attestation where
  publicKey := key
  claim := ⟨"couriers", "delivered", "delivered", "yes"⟩
  digest := "66"
  signature := signatureOf address

def alphaFirst : List Attestation := [pairAttestation "key-alpha" 1, pairAttestation "key-beta" 2]

def betaFirst : List Attestation := [pairAttestation "key-beta" 2, pairAttestation "key-alpha" 1]

theorem pairSet_constructed : construct lengthHash 1 9 (pairSet.members.map fun member =>
    pairAddress member.2) pairPolicy.quorum.toNat 5 = .ok pairGuard := by
  decide +kernel

theorem honest_pair {attestations : List Attestation}
    (arrived : attestations = alphaFirst ∨ attestations = betaFirst) :
    ∀ a ∈ attestations, Honest readAddress lengthHash pairGuard pairSet pairAddress
      (pairCall 1 2) "66" a := by
  have alpha : Honest readAddress lengthHash pairGuard pairSet pairAddress (pairCall 1 2) "66"
      (pairAttestation "key-alpha" 1) := ⟨by decide, rfl, by decide +kernel⟩
  have beta : Honest readAddress lengthHash pairGuard pairSet pairAddress (pairCall 1 2) "66"
      (pairAttestation "key-beta" 2) := ⟨by decide, rfl, by decide +kernel⟩
  rcases arrived with rfl | rfl
  · simpa [alphaFirst] using ⟨alpha, beta⟩
  · simpa [betaFirst] using ⟨beta, alpha⟩

theorem aggregate_pair {first second : Attestation}
    (arrived : [first, second] = alphaFirst ∨ [first, second] = betaFirst) :
    aggregate (renderAggregator pairPolicy pairSet) [first, second] =
      .met "66" (some first.claim) [first.signature, second.signature]
        [first.publicKey, second.publicKey] := by
  have authorized : ∀ a ∈ [first, second],
      a.publicKey ∈ (renderAggregator pairPolicy pairSet).authorized := by
    rcases arrived with same | same <;>
    · rw [same]
      decide
  have digests : ∀ a ∈ [first, second], a.digest = "66" := by
    rcases arrived with same | same <;>
    · rw [same]
      decide
  rw [aggregate_eq authorized digests]
  rcases arrived with same | same <;>
  · simp only [alphaFirst, betaFirst, List.cons.injEq, and_true] at same
    obtain ⟨rfl, rfl⟩ := same
    rfl

end Oracle

end Neutrino
