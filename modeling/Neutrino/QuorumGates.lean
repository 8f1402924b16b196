import Mathlib
import Neutrino.Attestation
import Neutrino.Library.Checked
import Neutrino.Library.OneShot

/-! The acceptance gates a database has for its procedures: for one quorum a procedure, and for one
quorum a policy. A vote is an element of an array, and any value may be NULL. -/

namespace Neutrino

namespace QuorumGates

open Checked Run

/-- A text value, absent where it is NULL. -/
abbrev Text := Option String

/-- A comparison with NULL is not true. -/
def equal (left right : Text) : Bool :=
  match left, right with
  | some left, some right => left = right
  | _, _ => false

structure AuthorizedObserver where
  observerSet : String
  observerId : String
  deriving DecidableEq, Repr

/-- The rows an array is unnested to. -/
def unnest (array : Option (List Text)) : List Text := array.getD []

/-- NULL is counted among the rows but not among the distinct values. -/
def countDistinct (rows : List Text) : Nat := (rows.filterMap id).dedup.length

section Votes

variable (authorized : List AuthorizedObserver) (observerSet : String)

def isAuthorized (observer : Text) : Bool :=
  authorized.any fun row => row.observerSet = observerSet && equal (some row.observerId) observer

def checkVotes (quorum : Int) (observers : Option (List Text)) : Except String Unit := do
  require (¬(unnest observers).any fun observer => !isAuthorized authorized observerSet observer)
    "unauthorized observer"
  require (¬(unnest observers).length ≠ countDistinct (unnest observers)) "duplicate observer"
  require (¬(countDistinct (unnest observers) : Int) < quorum) "quorum not met"

end Votes

def notNull (column : String) : Text → Except String String
  | none => .error ("null value in column \"" ++ column ++ "\" violates not-null constraint")
  | some value => .ok value

/-! One quorum a procedure. -/

structure QuorumAcceptance where
  procedure : String
  claimId : String
  canonicalClaimHash : String
  observerCount : Nat
  deriving DecidableEq, Repr

structure QuorumAcceptCall where
  procedure : String
  observerSet : String
  quorum : Int
  key : Text
  canonicalClaimHash : Text
  observers : Option (List Text)
  deriving DecidableEq, Repr

def quorumAccept (authorized : List AuthorizedObserver) (table : List QuorumAcceptance)
    (call : QuorumAcceptCall) : Except String (List QuorumAcceptance) := do
  require (¬table.any fun row => equal (some row.claimId) call.key &&
    row.procedure = call.procedure) "already accepted"
  checkVotes authorized call.observerSet call.quorum call.observers
  let claimId ← notNull "claim_id" call.key
  let canonicalClaimHash ← notNull "canonical_claim_hash" call.canonicalClaimHash
  return table ++ [{
    procedure := call.procedure
    claimId
    canonicalClaimHash
    observerCount := countDistinct (unnest call.observers) }]

/-! One quorum a policy. -/

structure TemporalAcceptance where
  procedure : String
  claimId : String
  policy : String
  canonicalClaimHash : String
  executionClaim : String
  observerCount : Nat
  deriving DecidableEq, Repr

structure TemporalAcceptCall where
  procedure : String
  policies : List AttestationPolicy
  key : Text
  policy : Text
  canonicalClaimHash : Text
  executionClaim : Text
  observers : Option (List Text)
  deriving DecidableEq

/-- The first policy of the name is the one selected. -/
def policyCaseSelect (policies : List AttestationPolicy) (policy : Text) :
    Except String AttestationPolicy :=
  match policies.find? fun declared => equal policy (some declared.input) with
  | none => .error ("unknown attestation policy " ++ policy.getD "<NULL>")
  | some declared => .ok declared

def temporalAccept (authorized : List AuthorizedObserver) (table : List TemporalAcceptance)
    (call : TemporalAcceptCall) : Except String (List TemporalAcceptance) := do
  let declared ← policyCaseSelect call.policies call.policy
  require (¬table.any fun row => equal (some row.claimId) call.key &&
    row.procedure = call.procedure && equal (some row.policy) call.policy) "already accepted"
  checkVotes authorized declared.observerSet declared.quorum call.observers
  let claimId ← notNull "claim_id" call.key
  let policy ← notNull "policy" call.policy
  let canonicalClaimHash ← notNull "canonical_claim_hash" call.canonicalClaimHash
  let executionClaim ← notNull "execution_claim" call.executionClaim
  return table ++ [{
    procedure := call.procedure
    claimId
    policy
    canonicalClaimHash
    executionClaim
    observerCount := countDistinct (unnest call.observers) }]

/-! What the gates admit. -/

/-- The votes are those of distinct authorized observers, as many as the quorum needs, and no
other. -/
def Admitted (authorized : List AuthorizedObserver) (observerSet : String) (quorum : Int)
    (observers : Option (List Text)) : Prop :=
  ∃ ids : List String, unnest observers = ids.map some ∧ ids.Nodup ∧
    (∀ id ∈ ids, ⟨observerSet, id⟩ ∈ authorized) ∧ quorum ≤ ids.length

theorem equal_some {left : String} {right : Text} : equal (some left) right = true ↔
    right = some left := by
  cases right with
  | none => simp [equal]
  | some right =>
      simp only [equal, decide_eq_true_eq, Option.some.injEq]
      exact eq_comm

theorem isAuthorized_iff {authorized : List AuthorizedObserver} {observerSet : String}
    {observer : Text} : isAuthorized authorized observerSet observer = true ↔
      ∃ id, observer = some id ∧ ⟨observerSet, id⟩ ∈ authorized := by
  simp only [isAuthorized, List.any_eq_true, Bool.and_eq_true, decide_eq_true_eq, equal_some]
  constructor
  · rintro ⟨row, listed, rfl, rfl⟩
    exact ⟨row.observerId, rfl, listed⟩
  · rintro ⟨id, rfl, listed⟩
    exact ⟨_, listed, rfl, rfl⟩

theorem exists_ids {rows : List Text} (present : ∀ row ∈ rows, row.isSome = true) :
    ∃ ids : List String, rows = ids.map some := by
  induction rows with
  | nil => exact ⟨[], rfl⟩
  | cons first rest ih =>
      simp only [List.forall_mem_cons] at present
      obtain ⟨ids, rfl⟩ := ih present.2
      obtain ⟨id, rfl⟩ := Option.isSome_iff_exists.mp present.1
      exact ⟨id :: ids, rfl⟩

theorem countDistinct_some (ids : List String) :
    countDistinct (ids.map some) = ids.dedup.length := by
  rw [countDistinct, List.filterMap_map, Function.id_comp, List.filterMap_some]

theorem length_eq_dedup {ids : List String} : ids.length = ids.dedup.length ↔ ids.Nodup := by
  rw [← List.dedup_eq_self]
  constructor
  · intro same
    exact (List.dedup_sublist ids).eq_of_length same.symm
  · intro same
    rw [same]

theorem checkVotes_ok {authorized : List AuthorizedObserver} {observerSet : String}
    {quorum : Int} {observers : Option (List Text)} {passed : Unit} :
    checkVotes authorized observerSet quorum observers = .ok passed ↔
      Admitted authorized observerSet quorum observers := by
  simp only [checkVotes, bind_ok, require_ok, List.any_eq_true, Bool.not_eq_true', not_exists,
    not_and, Bool.not_eq_false, isAuthorized_iff, ne_eq, Decidable.not_not, Int.not_lt]
  constructor
  · rintro ⟨_, known, _, distinct, enough⟩
    obtain ⟨ids, votes⟩ := exists_ids fun row listed => by
      obtain ⟨id, rfl, _⟩ := known row listed
      rfl
    rw [votes, countDistinct_some, List.length_map] at distinct
    rw [votes, countDistinct_some, ← distinct] at enough
    refine ⟨ids, votes, length_eq_dedup.mp distinct, ?_, enough⟩
    intro id listed
    obtain ⟨other, same, authorizedId⟩ := known (some id) (by
      rw [votes]
      exact List.mem_map_of_mem listed)
    rw [Option.some.injEq] at same
    rwa [same]
  · rintro ⟨ids, votes, distinct, known, enough⟩
    rw [votes, countDistinct_some, List.length_map, ← length_eq_dedup.mpr distinct]
    refine ⟨(), ?_, (), rfl, enough⟩
    intro row listed
    obtain ⟨id, listedId, rfl⟩ := List.mem_map.mp listed
    exact ⟨id, rfl, known id listedId⟩

/-- The order of the votes does not matter. -/
theorem Admitted.perm {authorized : List AuthorizedObserver} {observerSet : String}
    {quorum : Int} {votes others : List Text} (permuted : votes.Perm others)
    (admitted : Admitted authorized observerSet quorum (some votes)) :
    Admitted authorized observerSet quorum (some others) := by
  obtain ⟨ids, rfl, distinct, known, enough⟩ := admitted
  have present : ∀ row ∈ others, row.isSome = true := fun row listed => by
    obtain ⟨id, _, rfl⟩ := List.mem_map.mp (permuted.mem_iff.mpr listed)
    rfl
  obtain ⟨ordered, rfl⟩ := exists_ids present
  have same : ids.Perm ordered := by
    simpa [List.filterMap_map] using permuted.filterMap id
  refine ⟨ordered, rfl, same.nodup_iff.mp distinct, ?_, by rwa [← same.length_eq]⟩
  intro id listed
  exact known id (same.mem_iff.mpr listed)

/-! One quorum a procedure, as a register for each procedure and key. -/

/-- The canonical claim and the number of observers on record. -/
def recordedQuorum (table : List QuorumAcceptance) (k : String × Text) : Option (String × Nat) :=
  (table.find? fun row => equal (some row.claimId) k.2 && row.procedure = k.1).map fun row =>
    (row.canonicalClaimHash, row.observerCount)

def QuorumAcceptCall.register (call : QuorumAcceptCall) : String × Text :=
  (call.procedure, call.key)

def offeredQuorum (authorized : List AuthorizedObserver) (call : QuorumAcceptCall) :
    Option (String × Nat) :=
  match checkVotes authorized call.observerSet call.quorum call.observers, call.key,
      call.canonicalClaimHash with
  | .ok _, some _, some hash => some (hash, countDistinct (unnest call.observers))
  | _, _, _ => none

theorem offeredQuorum_eq_some {authorized : List AuthorizedObserver} {call : QuorumAcceptCall}
    {value : String × Nat} : offeredQuorum authorized call = some value ↔
      checkVotes authorized call.observerSet call.quorum call.observers = .ok () ∧
      call.key.isSome = true ∧ call.canonicalClaimHash = some value.1 ∧
      value.2 = countDistinct (unnest call.observers) := by
  unfold offeredQuorum
  cases checkVotes authorized call.observerSet call.quorum call.observers with
  | error failure => simp
  | ok passed =>
      cases call.key with
      | none => simp
      | some key =>
          cases call.canonicalClaimHash with
          | none => simp
          | some hash =>
              simp only [Option.some.injEq, true_and, Option.isSome_some, Prod.ext_iff]
              exact and_congr_right' eq_comm

theorem notNull_ok {column value : String} {text : Text} :
    notNull column text = .ok value ↔ text = some value := by
  cases text <;> simp [notNull]

/-- Of a table with one row more, only the register of that row changes. -/
theorem find?_append_row {τ : Type} {table : List τ} {row : τ} {holds : τ → Bool} :
    (table ++ [row]).find? holds = (table.find? holds).or (if holds row then some row else none) := by
  rw [List.find?_append, List.find?_singleton]

theorem quorumAccept_register (authorized : List AuthorizedObserver) :
    OneShot.Register (quorumAccept authorized) recordedQuorum QuorumAcceptCall.register
      (offeredQuorum authorized) := by
  constructor
  · intro table call next accepted
    simp only [quorumAccept, bind_ok, require_ok, pure_ok, notNull_ok] at accepted
    obtain ⟨_, fresh, _, votes, claimId, key, hash, claim, rfl⟩ := accepted
    have unset : table.find? (fun row => equal (some row.claimId) call.key &&
        row.procedure = call.procedure) = none := by
      rw [List.find?_eq_none]
      exact fun row listed found => fresh (List.any_eq_true.mpr ⟨row, listed, found⟩)
    refine ⟨Option.map_eq_none_iff.mpr unset,
      (hash, countDistinct (unnest call.observers)),
      offeredQuorum_eq_some.mpr ⟨votes, by simp [key], claim, rfl⟩, ?_⟩
    rintro ⟨procedure, k⟩
    rw [recordedQuorum, find?_append_row]
    simp only [QuorumAcceptCall.register, Prod.mk.injEq]
    by_cases same : call.procedure = procedure ∧ call.key = k
    · obtain ⟨rfl, rfl⟩ := same
      rw [unset, Option.none_or]
      simp [key, equal]
    · have other : ¬(equal (some claimId) k = true ∧ call.procedure = procedure) := by
        rintro ⟨matched, rfl⟩
        rw [equal_some] at matched
        exact same ⟨rfl, by rw [key, matched]⟩
      rw [if_neg same]
      simp only [Bool.and_eq_true, decide_eq_true_eq, other, if_false, Option.or_none,
        recordedQuorum]
  · intro table call value unset offered
    obtain ⟨votes, key, claim, _⟩ := offeredQuorum_eq_some.mp offered
    obtain ⟨claimId, key⟩ := Option.isSome_iff_exists.mp key
    have fresh : ¬(table.any fun row => equal (some row.claimId) call.key &&
        row.procedure = call.procedure) = true := by
      simp only [recordedQuorum, QuorumAcceptCall.register, Option.map_eq_none_iff,
        List.find?_eq_none] at unset
      intro found
      obtain ⟨row, listed, matched⟩ := List.any_eq_true.mp found
      exact unset row listed matched
    simp only [quorumAccept, bind_ok, require_ok, pure_ok, notNull_ok]
    exact ⟨_, (), fresh, (), votes, claimId, key, value.1, claim, rfl⟩

/-! One quorum a policy, as a register for each procedure, key and policy. -/

/-- The canonical claim, the execution claim and the number of observers on record. -/
def recordedTemporal (table : List TemporalAcceptance) (k : String × Text × Text) :
    Option (String × String × Nat) :=
  (table.find? fun row => equal (some row.claimId) k.2.1 && row.procedure = k.1 &&
    equal (some row.policy) k.2.2).map fun row =>
      (row.canonicalClaimHash, row.executionClaim, row.observerCount)

def TemporalAcceptCall.register (call : TemporalAcceptCall) : String × Text × Text :=
  (call.procedure, call.key, call.policy)

/-- The policy a call names and the votes it carries. -/
def admittedTemporal (authorized : List AuthorizedObserver) (call : TemporalAcceptCall) :
    Except String Unit := do
  let declared ← policyCaseSelect call.policies call.policy
  checkVotes authorized declared.observerSet declared.quorum call.observers

def offeredTemporal (authorized : List AuthorizedObserver) (call : TemporalAcceptCall) :
    Option (String × String × Nat) :=
  match admittedTemporal authorized call, call.key, call.canonicalClaimHash,
      call.executionClaim with
  | .ok _, some _, some hash, some execution =>
      some (hash, execution, countDistinct (unnest call.observers))
  | _, _, _, _ => none

theorem offeredTemporal_eq_some {authorized : List AuthorizedObserver} {call : TemporalAcceptCall}
    {value : String × String × Nat} : offeredTemporal authorized call = some value ↔
      admittedTemporal authorized call = .ok () ∧ call.key.isSome = true ∧
      call.canonicalClaimHash = some value.1 ∧ call.executionClaim = some value.2.1 ∧
      value.2.2 = countDistinct (unnest call.observers) := by
  unfold offeredTemporal
  cases admittedTemporal authorized call with
  | error failure => simp
  | ok passed =>
      cases call.key with
      | none => simp
      | some key =>
          cases call.canonicalClaimHash with
          | none => simp
          | some hash =>
              cases call.executionClaim with
              | none => simp
              | some execution =>
                  simp only [Option.some.injEq, true_and, Option.isSome_some, Prod.ext_iff]
                  exact and_congr_right' (and_congr_right' eq_comm)

theorem policyCaseSelect_ok {policies : List AttestationPolicy} {policy : Text}
    {declared : AttestationPolicy} (selected : policyCaseSelect policies policy = .ok declared) :
    declared ∈ policies ∧ policy = some declared.input := by
  unfold policyCaseSelect at selected
  split at selected
  · cases selected
  · rename_i other found
    cases selected
    have matched := List.find?_some found
    refine ⟨List.mem_of_find?_eq_some found, ?_⟩
    cases policy with
    | none => simp [equal] at matched
    | some policy => simpa [equal] using matched

theorem temporalAccept_register (authorized : List AuthorizedObserver) :
    OneShot.Register (temporalAccept authorized) recordedTemporal TemporalAcceptCall.register
      (offeredTemporal authorized) := by
  constructor
  · intro table call next accepted
    simp only [temporalAccept, bind_ok, require_ok, pure_ok, notNull_ok] at accepted
    obtain ⟨declared, selected, _, fresh, _, votes, claimId, key, policy, named, hash, claim,
      execution, executed, rfl⟩ := accepted
    have unset : table.find? (fun row => equal (some row.claimId) call.key &&
        row.procedure = call.procedure && equal (some row.policy) call.policy) = none := by
      rw [List.find?_eq_none]
      exact fun row listed found => fresh (List.any_eq_true.mpr ⟨row, listed, found⟩)
    have admitted : admittedTemporal authorized call = .ok () :=
      bind_ok.mpr ⟨declared, selected, votes⟩
    refine ⟨Option.map_eq_none_iff.mpr unset,
      (hash, execution, countDistinct (unnest call.observers)),
      offeredTemporal_eq_some.mpr ⟨admitted, by simp [key], claim, executed, rfl⟩, ?_⟩
    rintro ⟨procedure, k, p⟩
    rw [recordedTemporal, find?_append_row]
    simp only [TemporalAcceptCall.register, Prod.mk.injEq]
    by_cases same : call.procedure = procedure ∧ call.key = k ∧ call.policy = p
    · obtain ⟨rfl, rfl, rfl⟩ := same
      rw [unset, Option.none_or]
      simp [key, named, equal]
    · have other : ¬((equal (some claimId) k = true ∧ call.procedure = procedure) ∧
          equal (some policy) p = true) := by
        rintro ⟨⟨matched, rfl⟩, matchedPolicy⟩
        rw [equal_some] at matched matchedPolicy
        exact same ⟨rfl, by rw [key, matched], by rw [named, matchedPolicy]⟩
      rw [if_neg same]
      simp only [Bool.and_eq_true, decide_eq_true_eq, other, if_false, Option.or_none,
        recordedTemporal]
  · intro table call value unset offered
    obtain ⟨admitted, key, claim, executed, _⟩ := offeredTemporal_eq_some.mp offered
    obtain ⟨claimId, key⟩ := Option.isSome_iff_exists.mp key
    obtain ⟨declared, selected, votes⟩ := bind_ok.mp admitted
    have fresh : ¬(table.any fun row => equal (some row.claimId) call.key &&
        row.procedure = call.procedure && equal (some row.policy) call.policy) = true := by
      simp only [recordedTemporal, TemporalAcceptCall.register, Option.map_eq_none_iff,
        List.find?_eq_none] at unset
      intro found
      obtain ⟨row, listed, matched⟩ := List.any_eq_true.mp found
      exact unset row listed matched
    simp only [temporalAccept, bind_ok, require_ok, pure_ok, notNull_ok]
    exact ⟨_, declared, selected, (), fresh, (), votes, claimId, key, declared.input,
      (policyCaseSelect_ok selected).2, value.1, claim, value.2.1, executed, rfl⟩

end QuorumGates

end Neutrino
