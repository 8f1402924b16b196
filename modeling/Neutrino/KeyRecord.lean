import Neutrino.Library.KeyedStore
import Neutrino.Transition

/-! The evaluator's state as shared balances and one record for each workflow key, and every
transition as at most one commit against that store. -/

namespace Neutrino

open Checked Ledger KeyedStore

/-- All the state holds about one workflow key. -/
structure KeyRecord where
  posted : Bool
  claim : Option String
  committed : Option (Std.ExtTreeSet String)
  status : Option String

namespace KeyRecord

/-- The groups committed so far. -/
def groups (record : KeyRecord) : Std.ExtTreeSet String := record.committed.getD ∅

def pin (record : KeyRecord) (claim : String) : KeyRecord :=
  { record with claim := some claim }

def close (record : KeyRecord) (status : String) : KeyRecord :=
  { record with posted := true, status := some status }

def commit (record : KeyRecord) (committing : List String) : KeyRecord :=
  { record with committed := some (record.groups.insertMany committing) }

@[simp] theorem pin_posted (record : KeyRecord) (claim : String) :
    (record.pin claim).posted = record.posted := rfl

@[simp] theorem pin_claim (record : KeyRecord) (claim : String) :
    (record.pin claim).claim = some claim := rfl

@[simp] theorem pin_groups (record : KeyRecord) (claim : String) :
    (record.pin claim).groups = record.groups := rfl

@[simp] theorem pin_status (record : KeyRecord) (claim : String) :
    (record.pin claim).status = record.status := rfl

@[simp] theorem close_posted (record : KeyRecord) (status : String) :
    (record.close status).posted = true := rfl

@[simp] theorem close_claim (record : KeyRecord) (status : String) :
    (record.close status).claim = record.claim := rfl

@[simp] theorem close_groups (record : KeyRecord) (status : String) :
    (record.close status).groups = record.groups := rfl

@[simp] theorem close_status (record : KeyRecord) (status : String) :
    (record.close status).status = some status := rfl

@[simp] theorem commit_posted (record : KeyRecord) (committing : List String) :
    (record.commit committing).posted = record.posted := rfl

@[simp] theorem commit_claim (record : KeyRecord) (committing : List String) :
    (record.commit committing).claim = record.claim := rfl

@[simp] theorem commit_groups (record : KeyRecord) (committing : List String) :
    (record.commit committing).groups = record.groups.insertMany committing := rfl

@[simp] theorem commit_status (record : KeyRecord) (committing : List String) :
    (record.commit committing).status = record.status := rfl

end KeyRecord

namespace EvalState

def record (state : EvalState) (key : String) : KeyRecord where
  posted := state.postedKeys.contains key
  claim := state.keyClaim[key]?
  committed := state.committedGroups[key]?
  status := state.keyStatus[key]?

def store (state : EvalState) : Store String KeyRecord Account where
  balances := state.balances
  records := state.record

/-- The store determines the state. -/
theorem store_injective {left right : EvalState} (same : left.store = right.store) :
    left = right := by
  simp only [store, Store.mk.injEq] at same
  obtain ⟨balances, records⟩ := same
  have fields : ∀ key, left.record key = right.record key := congrFun records
  simp only [record, KeyRecord.mk.injEq] at fields
  ext1
  · exact balances
  · exact Std.ExtTreeSet.ext_contains fun key => (fields key).1
  · exact Std.ExtTreeMap.ext_getElem? fun key => (fields key).2.1
  · exact Std.ExtTreeMap.ext_getElem? fun key => (fields key).2.2.1
  · exact Std.ExtTreeMap.ext_getElem? fun key => (fields key).2.2.2

@[simp] theorem record_balances (state : EvalState) (balances : Balances Account) :
    ({ state with balances } : EvalState).record = state.record := rfl

theorem record_pin (state : EvalState) (key claim : String) :
    (state.pin key claim).record =
      Function.update state.record key ((state.record key).pin claim) := by
  funext other
  by_cases same : other = key
  · subst same
    simp [record, pin, KeyRecord.pin]
  · simp [record, pin, Function.update_of_ne same, Std.ExtTreeMap.getElem?_insert,
      Ne.symm same]

theorem record_close (state : EvalState) (plan : CoordinationPlan) (key : String) :
    (state.close plan key).record =
      Function.update state.record key ((state.record key).close plan.terminal.success) := by
  funext other
  by_cases same : other = key
  · subst same
    simp [record, close, KeyRecord.close]
  · simp [record, close, Function.update_of_ne same, Std.ExtTreeMap.getElem?_insert,
      Std.ExtTreeSet.contains_insert, Ne.symm same]

theorem record_commitState (state : EvalState) (key claim : String)
    (staged : Balances Account) (committing : List String) :
    (commitState state key claim staged committing).record =
      Function.update state.record key
        (((state.record key).pin claim).commit committing) := by
  funext other
  by_cases same : other = key
  · subst same
    simp [record, commitState, pin, committedSoFar, KeyRecord.pin, KeyRecord.commit,
      KeyRecord.groups]
  · simp [record, commitState, pin, Function.update_of_ne same,
      Std.ExtTreeMap.getElem?_insert, Ne.symm same]

end EvalState

/-- The groups of a temporal plan as one transition classified them. -/
structure Classified (plan : CoordinationPlan) (env : Env) (record : KeyRecord)
    (infos : List GroupInfo) : Prop where
  effectful : plan.effects ≠ []
  temporal : isTemporal plan = true
  classified : collect (classifyGroup plan env record.groups) plan.effectGroups = .ok infos

/-- How a commit changes the record of its key. -/
inductive RecordStep (plan : CoordinationPlan) (env : Env) (record : KeyRecord)
    (claim : String) : KeyRecord → Prop
  | single (single : isTemporal plan = false) :
      RecordStep plan env record claim ((record.pin claim).close plan.terminal.success)
  | progress {infos : List GroupInfo} (classified : Classified plan env record infos)
      (some : committingGroups infos ≠ [])
      (pending : ∃ group ∈ requiredGroups infos,
        group ∉ record.groups.insertMany (committingGroups infos)) :
      RecordStep plan env record claim ((record.pin claim).commit (committingGroups infos))
  | terminal {infos : List GroupInfo} (classified : Classified plan env record infos)
      (some : committingGroups infos ≠ [])
      (done : ∀ group ∈ requiredGroups infos,
        group ∈ record.groups.insertMany (committingGroups infos)) :
      RecordStep plan env record claim
        (((record.pin claim).commit (committingGroups infos)).close plan.terminal.success)

section Hash

variable (sha256Hex : List UInt8 → String)

/-- A settled transition that commits: one record step of its own key, and its legs posted. -/
structure CommitsTo (plan : CoordinationPlan) (state : EvalState) (input : TransitionInput)
    (key claim : String) (env : Env) (record : KeyRecord) (settled : Settled) : Prop where
  opens : Opens sha256Hex plan state input key claim env
  step : RecordStep plan env (state.record key) claim record
  store : Commits state.store ⟨key, record, settled.pending.map (·.posting)⟩
    settled.next.store
  outcome : settled.outcome = if record.posted then .terminal else .progress

variable {sha256Hex}

/-- A transition that settles without a commit: a replay, or no progress. -/
structure Idle (state : EvalState) (settled : Settled) : Prop where
  next : settled.next = state
  pending : settled.pending = []
  outcome : settled.outcome = .replayed ∨ settled.outcome = .noProgress

theorem Opens.unposted {plan : CoordinationPlan} {state : EvalState} {input : TransitionInput}
    {key claim : String} {env : Env} (opens : Opens sha256Hex plan state input key claim env)
    (idempotent : plan.replay.idempotent = true) : (state.record key).posted = false := by
  have fresh := opens.fresh
  simp only [idempotent, true_and] at fresh
  simpa [EvalState.record, ← Bool.not_eq_true] using fresh

theorem commitsTo_close {plan : CoordinationPlan} {state : EvalState}
    {input : TransitionInput} {key claim : String} {env : Env} {settled : Settled}
    (opens : Opens sha256Hex plan state input key claim env)
    (single : isTemporal plan = false) (staged : Balances Account)
    (posted : postAll state.balances (settled.pending.map (·.posting)) = some staged)
    (outcome : settled.outcome = .terminal)
    (next : settled.next = ({ state with balances := staged }.pin key claim).close plan key) :
    CommitsTo sha256Hex plan state input key claim env
      (((state.record key).pin claim).close plan.terminal.success) settled where
  opens := opens
  step := .single single
  store := by
    rw [next]
    refine ⟨posted, ?_⟩
    simp only [EvalState.store, EvalState.record_close, EvalState.record_pin,
      EvalState.record_balances, Function.update_self, Function.update_idem]
  outcome := by rw [outcome]; rfl

/-- Staged groups leave the state alone when none commits, and else commit to the record of
their key. -/
theorem disposeGroups_cases {plan : CoordinationPlan} {state : EvalState}
    {input : TransitionInput} {key claim : String} {env : Env} {infos : List GroupInfo}
    {pending : List Pending} {staged : Balances Account}
    (opens : Opens sha256Hex plan state input key claim env)
    (idempotent : plan.replay.idempotent = true)
    (classified : Classified plan env (state.record key) infos)
    (posted : postAll state.balances (pending.map (·.posting)) = some staged) :
    Idle state (disposeGroups plan state key claim infos pending staged) ∨
      ∃ record, CommitsTo sha256Hex plan state input key claim env record
        (disposeGroups plan state key claim infos pending staged) := by
  have groups : committedSoFar state key = (state.record key).groups := rfl
  unfold disposeGroups
  by_cases none : committingGroups infos = []
  · simp only [none, if_true]
    exact .inl ⟨rfl, rfl, .inr rfl⟩
  · simp only [none, if_false]
    split
    · rename_i done
      refine .inr ⟨_, opens, .terminal classified none ?_, ⟨posted, ?_⟩, rfl⟩
      · intro group required
        have inLedger := List.all_eq_true.mp done group required
        rwa [Std.ExtTreeSet.contains_iff_mem, groups] at inLedger
      · simp only [EvalState.store, EvalState.record_close, EvalState.record_commitState,
          Function.update_self, Function.update_idem]
    · rename_i missing
      refine .inr ⟨_, opens, .progress classified none ?_, ⟨posted, ?_⟩, ?_⟩
      · simp only [List.all_eq_true, not_forall, Std.ExtTreeSet.contains_iff_mem, groups]
          at missing
        obtain ⟨group, required, absent⟩ := missing
        exact ⟨group, required, absent⟩
      · simp only [EvalState.store, EvalState.record_commitState]
      · simp [opens.unposted idempotent]

/-- Every transition that is not refused is idle or commits to the record of its own key. -/
theorem settles_cases {plan : CoordinationPlan} {state : EvalState}
    {input : TransitionInput} {settled : Settled}
    (idempotent : plan.replay.idempotent = true)
    (settles : Settles sha256Hex plan state input settled) :
    Idle state settled ∨ ∃ key claim env record,
      CommitsTo sha256Hex plan state input key claim env record settled := by
  cases settles with
  | replay admitted posted claimed recorded closed => exact .inl ⟨rfl, rfl, .inl rfl⟩
  | evidence opens effectless declared accepted =>
      have single : isTemporal plan = false := by simp [isTemporal, effectless]
      exact .inr ⟨_, _, _, _, commitsTo_close opens single state.balances rfl rfl
        rfl⟩
  | groups opens effectful temporal consistent classified legs =>
      obtain ⟨_, _, posted⟩ := stageGroups_ok legs
      rcases disposeGroups_cases opens idempotent ⟨effectful, temporal, classified⟩ posted with
        idle | ⟨record, commits⟩
      · exact .inl idle
      · exact .inr ⟨_, _, _, record, commits⟩
  | legs opens effectful single legs =>
      obtain ⟨_, _, _, posted⟩ := stageLegs_ok legs
      exact .inr ⟨_, _, _, _, commitsTo_close opens single _ posted rfl rfl⟩

end Hash

end Neutrino
