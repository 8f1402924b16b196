import Neutrino.Json

/-! The attestation-policy contract: the quorum a spec declares on an evidence input. -/

namespace Neutrino

structure AttestationPolicy where
  input : String
  quorum : Int
  observerSet : String
  observerRole : String
  assurance : String
  independence : String
  canonicalization : String
  tolerance : String
  timeout : String
  fallback : String
  deriving DecidableEq, Repr

/-- The low 32 bits of a machine integer, as a signed value. -/
def int32OfInt64 (value : Int64) : Int := value.toInt.bmod (2 ^ 32)

/-- One policy of the spec's `attestations`. A missing or mistyped field is empty. -/
def attestationPolicyFromSpec (object : Json.Object) : AttestationPolicy :=
  let quorum := (object.getObject "quorum").getD []
  let observerSet := (object.getObject "observerSet").getD []
  let canonicalization := (object.getObject "canonicalization").getD []
  { input := object.stringOr "input"
    quorum := int32OfInt64 ((quorum.getInteger "threshold").getD 0)
    observerSet := observerSet.stringOr "ref"
    observerRole := observerSet.stringOr "role"
    assurance := observerSet.stringOr "assurance"
    independence := observerSet.stringOr "independence"
    canonicalization := canonicalization.stringOr "mode"
    tolerance := canonicalization.stringOr "tolerance"
    timeout := object.stringOr "timeout"
    fallback := object.stringOr "fallback" }

def attestationPoliciesFromSpec (spec : Json.Object) : List AttestationPolicy :=
  (((spec.getArray "attestations").getD []).filterMap Json.asObject).map
    attestationPolicyFromSpec

/-- What is wrong with a policy; nothing for one that is well formed. -/
def validateAttestationPolicy (p : AttestationPolicy) : String :=
  if p.quorum ≤ 0 then
    "attestation quorum must be a positive integer (the M-of-N threshold), got " ++
      toString p.quorum
  else if p.observerSet = "" then "attestation policy requires an observer-set reference"
  else if p.canonicalization = "" then
    "attestation policy requires a canonicalization mode (one of: exact, median)"
  else if p.canonicalization ≠ "exact" ∧ p.canonicalization ≠ "median" then
    "unsupported attestation canonicalization mode '" ++ p.canonicalization ++
      "' (expected one of: exact, median)"
  else if p.fallback ≠ "abort" ∧ p.fallback ≠ "escalate" then
    "unsupported attestation fallback '" ++ p.fallback ++ "' (expected one of: abort, escalate)"
  else if p.assurance ≠ "" ∧ p.assurance ∉ ["A1", "A2", "A3", "A4"] then
    "unsupported observer-set assurance tier '" ++ p.assurance ++
      "' (expected one of: A1, A2, A3, A4)"
  else if p.independence ≠ "" ∧ p.independence ∉ ["independent", "correlated"] then
    "unsupported observer-set independence '" ++ p.independence ++
      "' (expected one of: independent, correlated)"
  else ""

end Neutrino
