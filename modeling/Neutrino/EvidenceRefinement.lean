import Neutrino.AcceptanceBinding
import Neutrino.EvidencePlan
import Neutrino.EvidenceRails
import Neutrino.Library.Lockstep

/-! The evidence rails beside the reference evaluator and beside each other: over any interleaving
of quorum acceptances and calls they let the same calls succeed and record the same keys. -/

namespace Neutrino.Evidence

open Checked Lockstep Projection Quorum QuorumGates Run Solidity

/-! The contract as a machine. -/

structure ContractState where
  acceptances : Acceptances := {}
  statusOf : Statuses := fun _ => .initial

section Contract

variable (ecrecover : Bytes32 → UInt8 → Bytes32 → Bytes32 → Address)
  (keccak256 : List UInt8 → Bytes32) (guard : ThresholdQuorumAcceptance)
  (sequence : FinalizedProjectionSequence)

def contract : Machine ContractState AcceptCall (List Argument) where
  observe state call :=
    { state with acceptances := acceptStep ecrecover keccak256 guard state.acceptances call }
  call state arguments :=
    match accept keccak256 sequence state.acceptances state.statusOf arguments with
    | .ok (statusOf, _) => { state with statusOf }
    | .error _ => state
  succeeds state arguments :=
    (accept keccak256 sequence state.acceptances state.statusOf arguments).isOk

/-- The key of a call of declared types. -/
def callKey (arguments : List Argument) : Option (List UInt8) :=
  (bindArguments sequence.values.params arguments).bind (keyBytes sequence)

/-- Whether the guard has accepted the key of a call. -/
def guardAccepted (state : ContractState) (arguments : List Argument) : Bool :=
  (callKey sequence arguments).any fun key => isAccepted state.acceptances (keccak256 key)

def statusSuccess (state : ContractState) (key : Bytes32) : Prop := state.statusOf key = .success

variable {keccak256 sequence}

theorem compiled_ok {α : Type} {value : Option α} {result : α} :
    compiled value = .ok result ↔ value = some result := by
  cases value <;> simp [compiled]

theorem accept_ok {acceptances : Acceptances} {statusOf next : Statuses}
    {arguments : List Argument} {event : Accepted} :
    accept keccak256 sequence acceptances statusOf arguments = .ok (next, event) ↔
      ∃ key, callKey sequence arguments = some key ∧ statusOf (keccak256 key) = .initial ∧
        isAccepted acceptances (keccak256 key) = true ∧
        next = Function.update statusOf (keccak256 key) .success ∧
        event = ⟨sequence.executionIdentity.procedureNamespace, key⟩ := by
  simp only [accept, bind_ok, compiled_ok, require_ok, pure_ok, callKey, Option.bind_eq_some_iff,
    Prod.mk.injEq]
  constructor
  · rintro ⟨bound, bindings, key, named, _, fresh, _, accepted, rfl, rfl⟩
    exact ⟨key, ⟨bound, bindings, named⟩, fresh, accepted, rfl, rfl⟩
  · rintro ⟨key, ⟨bound, bindings, named⟩, fresh, accepted, rfl, rfl⟩
    exact ⟨bound, bindings, key, named, (), fresh, (), accepted, rfl, rfl⟩

theorem contract_gated : Gated (contract ecrecover keccak256 guard sequence) (fun _ => True)
    statusSuccess (fun arguments slot => (callKey sequence arguments).map keccak256 = some slot)
    (fun state arguments => guardAccepted keccak256 sequence state arguments = true) where
  observes _ _ _ := ⟨trivial, fun _ => Iff.rfl⟩
  succeeds state arguments slot _ named := by
    obtain ⟨key, keyed, rfl⟩ := Option.map_eq_some_iff.mp named
    have other : ¬state.statusOf (keccak256 key) = .success ↔
        state.statusOf (keccak256 key) = .initial := by
      cases state.statusOf (keccak256 key) <;> simp
    rw [statusSuccess, other, guardAccepted, keyed, Option.any_some]
    change (accept _ _ _ _ _).isOk = true ↔ _
    rw [isOk_exists]
    constructor
    · rintro ⟨⟨next, event⟩, accepted⟩
      obtain ⟨other, keyed', fresh, recorded, _⟩ := accept_ok.mp accepted
      obtain rfl := Option.some.inj (keyed'.symm.trans keyed)
      exact ⟨fresh, recorded⟩
    · rintro ⟨fresh, recorded⟩
      exact ⟨_, accept_ok.mpr ⟨key, keyed, fresh, recorded, rfl, rfl⟩⟩
  marks state arguments slot _ named success := by
    obtain ⟨key, keyed, rfl⟩ := Option.map_eq_some_iff.mp named
    refine ⟨trivial, fun other => ?_⟩
    obtain ⟨⟨next, event⟩, accepted⟩ := isOk_exists.mp success
    obtain ⟨own, keyed', _, _, rfl, _⟩ := accept_ok.mp accepted
    obtain rfl := Option.some.inj (keyed'.symm.trans keyed)
    simp only [statusSuccess, contract, accepted]
    by_cases same : keccak256 own = other
    · simp [same]
    · simp [Function.update_of_ne (Ne.symm same), same]
  refuses state arguments _ _ _ failed := by
    simp only [contract] at failed ⊢
    split
    · rename_i accepted
      simp [accepted, Except.isOk, Except.toBool] at failed
    · rfl

end Contract

/-! The procedure as a machine. -/

section Procedure

variable (authorized : List AuthorizedObserver) (sequence : FinalizedProjectionSequence)

def procedure : Machine Tables QuorumAcceptCall (List SqlValue) where
  observe tables call := { tables with
    quorumAcceptance := OneShot.attempt (quorumAccept authorized) tables.quorumAcceptance call }
  call := OneShot.attempt (execute sequence)
  succeeds tables values := (execute sequence tables values).isOk

def callKeyText (values : List SqlValue) : Option String :=
  (bindValues sequence.values.params values).bind (keyText sequence)

/-- Whether the key of a call has a quorum on record for this procedure. -/
def quorumRecorded (tables : Tables) (values : List SqlValue) : Bool :=
  (callKeyText sequence values).any fun key =>
    isRecorded tables.quorumAcceptance sequence.executionIdentity.procedureNamespace key

/-- A reconciled row of this procedure. -/
def rowReconciled (tables : Tables) (key : String) : Prop :=
  ∃ row ∈ tables.coordinationStatus, row.procedure = sequence.executionIdentity.procedureNamespace ∧
    row.idempotencyKey = key ∧ row.reconciled = true

def AllReconciled (tables : Tables) : Prop :=
  ∀ row ∈ tables.coordinationStatus, row.reconciled = true

variable {sequence}

theorem declaredTypes_ok {α : Type} {value : Option α} {result : α} :
    declaredTypes value = .ok result ↔ value = some result := by
  cases value <;> simp [declaredTypes]

theorem execute_ok {tables next : Tables} {values : List SqlValue} :
    execute sequence tables values = .ok next ↔ ∃ key, callKeyText sequence values = some key ∧
      isRecorded tables.quorumAcceptance sequence.executionIdentity.procedureNamespace key = true ∧
      (∀ row ∈ tables.coordinationStatus,
        row.procedure = sequence.executionIdentity.procedureNamespace → row.idempotencyKey ≠ key) ∧
      next = { tables with coordinationStatus := tables.coordinationStatus ++
        [{ procedure := sequence.executionIdentity.procedureNamespace, idempotencyKey := key
           reconciled := true }] } := by
  simp only [execute, bind_ok, declaredTypes_ok, require_ok, pure_ok, callKeyText,
    Option.bind_eq_some_iff, Bool.not_eq_false, Bool.not_eq_true, List.any_eq_false,
    Bool.and_eq_true, decide_eq_true_eq, not_and]
  constructor
  · rintro ⟨bound, bindings, key, named, _, recorded, _, fresh, rfl⟩
    exact ⟨key, ⟨bound, bindings, named⟩, recorded, fresh, rfl⟩
  · rintro ⟨key, ⟨bound, bindings, named⟩, recorded, fresh, rfl⟩
    exact ⟨bound, bindings, key, named, (), recorded, (), fresh, rfl⟩

theorem procedure_gated : Gated (procedure authorized sequence) AllReconciled
    (rowReconciled sequence) (fun values key => callKeyText sequence values = some key)
    (fun tables values => quorumRecorded sequence tables values = true) where
  observes _ _ sound := ⟨sound, fun _ => Iff.rfl⟩
  succeeds tables values key sound keyed := by
    rw [quorumRecorded, keyed, Option.any_some]
    change (execute _ _ _).isOk = true ↔ _
    rw [isOk_exists]
    constructor
    · rintro ⟨next, executed⟩
      obtain ⟨own, keyed', recorded, fresh, _⟩ := execute_ok.mp executed
      obtain rfl := Option.some.inj (keyed'.symm.trans keyed)
      exact ⟨fun ⟨row, listed, procedure, same, _⟩ => fresh row listed procedure same, recorded⟩
    · rintro ⟨absent, recorded⟩
      exact ⟨_, execute_ok.mpr ⟨key, keyed, recorded, fun row listed procedure same =>
        absent ⟨row, listed, procedure, same, sound row listed⟩, rfl⟩⟩
  marks tables values key sound keyed success := by
    obtain ⟨next, executed⟩ := isOk_exists.mp success
    have called : (procedure authorized sequence).call tables values = next := by
      simp only [procedure, OneShot.attempt, executed]
    obtain ⟨own, keyed', _, _, rfl⟩ := execute_ok.mp executed
    obtain rfl := Option.some.inj (keyed'.symm.trans keyed)
    rw [called]
    constructor
    · intro row listed
      rcases List.mem_append.mp listed with earlier | added
      · exact sound row earlier
      · rw [List.mem_singleton.mp added]
    · intro other
      simp only [rowReconciled, List.mem_append, List.mem_singleton, or_and_right, exists_or,
        exists_eq_left, true_and, and_true]
  refuses tables values _ _ _ failed := by
    simp only [procedure, OneShot.attempt] at failed ⊢
    split
    · rename_i executed
      simp [executed, Except.isOk, Except.toBool] at failed
    · rfl

end Procedure

/-! The evaluator as a machine. -/

section Reference

variable (sha256Hex : List UInt8 → String) (plan : CoordinationPlan)

def reference : Machine EvalState Empty TransitionInput where
  observe state _ := state
  call := nextState sha256Hex plan
  succeeds state input := (evaluateTransition sha256Hex plan state input).outcome = .terminal

theorem reference_gated {sequence : FinalizedProjectionSequence}
    (evidence : EvidencePlan plan sequence) : Gated (reference sha256Hex plan) Tied
    (fun state key => key ∈ state.postedKeys)
    (fun input key => Evaluable plan input ∧ workflowKeyValue plan input = key)
    (fun _ input => ∀ policy ∈ plan.attestations, policyAccepted input policy.input = true) where
  observes _ event := event.elim
  succeeds state input key tied named := by
    obtain ⟨evaluable, rfl⟩ := named
    simpa [reference] using (evidence_transition sha256Hex evidence tied evaluable).1
  marks state input key tied named success := by
    obtain ⟨evaluable, rfl⟩ := named
    obtain ⟨claim, closed⟩ := (evidence_transition sha256Hex evidence tied evaluable).2.1
      (of_decide_eq_true success)
    change Tied (nextState sha256Hex plan state input) ∧ ∀ other,
      other ∈ (nextState sha256Hex plan state input).postedKeys ↔ _
    rw [closed]
    constructor
    · intro other claimed
      simp only [EvalState.close, EvalState.pin, Std.ExtTreeMap.mem_insert,
        Std.ExtTreeSet.mem_insert] at claimed ⊢
      exact claimed.imp id (tied other)
    · intro other
      simp only [EvalState.close, EvalState.pin, Std.ExtTreeSet.mem_insert, compare_eq_iff_eq]
      exact or_comm
  refuses state input key tied named failed := by
    obtain ⟨evaluable, rfl⟩ := named
    exact (evidence_transition sha256Hex evidence tied evaluable).2.2
      fun terminal => failed (decide_eq_true terminal)

end Reference

/-! The payload a call presents. -/

inductive Value
  | number (value : Int64)
  | text (value : String)
  deriving DecidableEq, Repr

/-- A payload has the value of a name in the map of its kind, and none in the other. -/
def Carries (input : TransitionInput) (name : String) : Value → Prop
  | .number value => input.numeric[name]? = some value ∧ input.symbols[name]? = none
  | .text value => input.numeric[name]? = none ∧ input.symbols[name]? = some value

/-- An argument of a parameter's type, and the value it passes. -/
def IsArgument (type : String) : Argument → Value → Prop
  | .uint256 number, .number value => solType type = .uint256 ∧ value.toInt = number
  | .string bytes, .text value => solType type = .string ∧ bytes = utf8 value
  | _, _ => False

def IsSqlValue (type : String) : SqlValue → Value → Prop
  | .bigint number, .number value => Sql.sqlType type = .bigint ∧ number = value
  | .text token, .text value => Sql.sqlType type = .text ∧ token = value
  | _, _ => False

def Presents {α : Type} (isValue : String → α → Value → Prop) (params : List TypedParamProjection)
    (call : List α) (input : TransitionInput) : Prop :=
  List.Forall₂ (fun param argument => ∃ value,
    isValue param.type argument value ∧ Carries input param.name value) params call

/-- The values the evaluator takes for an input of a type. -/
def Fits (type : String) : Value → Prop
  | .number _ => isNumericCategory (classifyValueType type) = true ∨
      isCanonicalCategory (classifyValueType type) = false
  | .text _ => isNumericCategory (classifyValueType type) = false

theorem typeInput_fits {input : TransitionInput} {declared : PlanInput} {value : Value}
    (fits : Fits declared.type value) (carries : Carries input declared.name value) :
    ∃ typed, typeInput input declared = .ok typed := by
  cases value with
  | number value =>
      obtain ⟨number, symbol⟩ := carries
      have admitted : (isNumericCategory (classifyValueType declared.type) ||
          !isCanonicalCategory (classifyValueType declared.type)) = true := by
        simpa [Fits] using fits
      simp [typeInput, number, symbol, admitted]
  | text value =>
      obtain ⟨number, symbol⟩ := carries
      have other : isNumericCategory (classifyValueType declared.type) = false := fits
      simp [typeInput, number, symbol, other]

theorem temporal_extension {type : String} (temporal : isTemporalType type = true) :
    classifyValueType type = .extension := by
  simp only [isTemporalType, Bool.or_eq_true, decide_eq_true_eq] at temporal
  rcases temporal with ((((rfl | rfl) | rfl) | rfl) | rfl) | rfl <;> decide

theorem isArgument_fits {type : String} {argument : Argument} {value : Value}
    (own : IsArgument type argument value) : Fits type value := by
  cases argument with
  | uint256 number =>
      cases value with
      | text value => exact own.elim
      | number value =>
          have numeric := own.1
          unfold solType at numeric
          split at numeric
          · rename_i temporal
            exact .inr (by simp [temporal_extension temporal, isCanonicalCategory])
          · split at numeric <;> simp_all [Fits, isNumericCategory]
  | string bytes =>
      cases value with
      | number value => exact own.elim
      | text value =>
          have textual := own.1
          unfold solType at textual
          split at textual
          · cases textual
          · split at textual <;> simp_all [Fits, isNumericCategory]

theorem isSqlValue_fits {type : String} {argument : SqlValue} {value : Value}
    (own : IsSqlValue type argument value) : Fits type value := by
  cases argument with
  | bigint number =>
      cases value with
      | text value => exact own.elim
      | number value =>
          have numeric := own.1
          unfold Sql.sqlType at numeric
          split at numeric <;> simp_all [Fits, isNumericCategory]
  | text token =>
      cases value with
      | number value => exact own.elim
      | text value =>
          have textual := own.1
          unfold Sql.sqlType at textual
          split at textual <;> simp_all [Fits, isNumericCategory]

section Paired

variable {α β : Type} {related : α → β → Prop} {first : List α} {second : List β}
  (paired : List.Forall₂ related first second)

include paired

/-- The one element a test holds of is found with its partner. -/
theorem find_paired {holds : α → Bool} {element : α} (listed : element ∈ first)
    (own : holds element = true) (only : ∀ other ∈ first, holds other = true → other = element) :
    ∃ partner, (first.zip second).find? (fun pair => holds pair.1) = some (element, partner) ∧
      related element partner := by
  induction paired with
  | nil => simp at listed
  | @cons head partner rest others here _ ih =>
      by_cases held : holds head = true
      · obtain rfl := only head List.mem_cons_self held
        exact ⟨partner, by simp [held], here⟩
      · have later : element ∈ rest := (List.mem_cons.mp listed).resolve_left fun same =>
          held (same ▸ own)
        obtain ⟨found, seen, holds⟩ := ih later fun other inRest =>
          only other (List.mem_cons_of_mem _ inRest)
        exact ⟨found, by simp [held, seen], holds⟩

theorem lookup_paired (name : α → String) {element : α} (listed : element ∈ first)
    (only : ∀ other ∈ first, name other = name element → other = element) :
    ∃ partner, ((first.map name).zip second).lookup (name element) = some partner ∧
      related element partner := by
  induction paired with
  | nil => simp at listed
  | @cons head partner rest others here _ ih =>
      by_cases same : name head = name element
      · obtain rfl := only head List.mem_cons_self same
        exact ⟨partner, by simp, here⟩
      · have later : element ∈ rest := (List.mem_cons.mp listed).resolve_left fun equal =>
          same (equal ▸ rfl)
        obtain ⟨found, seen, holds⟩ := ih later fun other inRest =>
          only other (List.mem_cons_of_mem _ inRest)
        have apart : (name element == name head) = false := by simpa using Ne.symm same
        exact ⟨found, by simp [List.lookup, apart, seen], holds⟩

end Paired

section Presented

variable {plan : CoordinationPlan} {sequence : FinalizedProjectionSequence}
  (evidence : EvidencePlan plan sequence) {input : TransitionInput}

include evidence

theorem presents_typed {α : Type} {isValue : String → α → Value → Prop} {call : List α}
    (fits : ∀ {type argument value}, isValue type argument value → Fits type value)
    (presented : Presents isValue sequence.values.params call input) :
    ∀ declared ∈ plan.inputs, ∃ typed, typeInput input declared = .ok typed := by
  intro declared declaredIn
  obtain ⟨param, listed, named, typed⟩ := evidence.declared declared declaredIn
  obtain ⟨_, _, value, own, carries⟩ := lookup_paired presented (·.name) listed
    fun other otherIn same => List.inj_on_of_nodup_map evidence.names otherIn listed same
  exact typeInput_fits (typed ▸ fits own) (named ▸ carries)

theorem workflowKeyValue_text {value : String}
    (carries : Carries input plan.workflowKey (.text value)) :
    workflowKeyValue plan input = value := by
  simp [workflowKeyValue, evidence.named, carries.2]

omit evidence in
theorem bindArguments_presents {params : List TypedParamProjection} {arguments : List Argument}
    (presented : Presents IsArgument params arguments input) :
    bindArguments params arguments = some (params.zip arguments) := by
  induction presented with
  | nil => rfl
  | @cons param argument params arguments here _ ih =>
      obtain ⟨value, own, _⟩ := here
      have bound : bindParam (solType param.type) argument = some argument := by
        cases argument with
        | string bytes =>
            cases value with
            | number value => exact own.elim
            | text value => simp [bindParam, own.1]
        | uint256 number =>
            cases value with
            | text value => exact own.elim
            | number value =>
                obtain ⟨type, same⟩ := own
                have fits : number < 2 ^ 256 := by have := Int64.toInt_lt value; omega
                simp only [bindParam, type, fits256, fits, if_true, Option.map_some]
      simp [bindArguments, bound, ih]

theorem callKey_presents {arguments : List Argument}
    (presented : Presents IsArgument sequence.values.params arguments input) :
    callKey sequence arguments = some (utf8 (workflowKeyValue plan input)) := by
  obtain ⟨param, listed, named, string⟩ := evidence.key
  have only : ∀ other ∈ sequence.values.params, isKeyParam sequence other = true → other = param :=
    fun other otherIn key => List.inj_on_of_nodup_map evidence.names otherIn listed
      (((evidence.isKey other otherIn).mp key).trans named.symm)
  obtain ⟨argument, found, value, own, carries⟩ :=
    find_paired presented listed ((evidence.isKey param listed).mpr named) only
  rw [callKey, bindArguments_presents presented, Option.bind_some, keyBytes, found]
  have type : solType param.type = .string := by
    have ordinary : isTemporalType param.type = false := by
      rw [← Bool.not_eq_true]
      intro temporal
      rw [temporal_extension temporal] at string
      cases string
    simp [solType, ordinary, string]
  cases argument with
  | uint256 number => cases value <;> simp_all [IsArgument]
  | string bytes =>
      cases value with
      | number value => exact own.elim
      | text value =>
          rw [own.2, workflowKeyValue_text evidence (named ▸ carries)]

omit evidence in
theorem bindValues_presents {params : List TypedParamProjection} {values : List SqlValue}
    (presented : Presents IsSqlValue params values input) :
    bindValues params values = some ((params.map (·.name)).zip values) := by
  induction presented with
  | nil => rfl
  | @cons param argument params values here _ ih =>
      obtain ⟨value, own, _⟩ := here
      have bound : sqlArgument (Sql.sqlType param.type) argument = some argument := by
        cases argument <;> cases value <;> simp_all [IsSqlValue, sqlArgument]
      simp [bindValues, bound, ih]

theorem callKeyText_presents {values : List SqlValue}
    (presented : Presents IsSqlValue sequence.values.params values input) :
    callKeyText sequence values = some (workflowKeyValue plan input) := by
  obtain ⟨param, listed, named, string⟩ := evidence.key
  obtain ⟨argument, found, value, own, carries⟩ := lookup_paired presented (·.name) listed
    fun other otherIn same => List.inj_on_of_nodup_map evidence.names otherIn listed same
  rw [callKeyText, bindValues_presents presented, Option.bind_some, keyText, evidence.replayKey,
    ← named, found]
  have type : Sql.sqlType param.type = .text := by simp [Sql.sqlType, string]
  cases argument with
  | bigint number => cases value <;> simp_all [IsSqlValue]
  | text token =>
      cases value with
      | number value => exact own.elim
      | text value => rw [own.2, workflowKeyValue_text evidence (named ▸ carries)]

end Presented

/-! Runs. -/

/-- The evaluator sees the payload of a call, and its policies accepted exactly where the rail has
a quorum on record for the key. -/
structure Alongside {σ ι : Type} (plan : CoordinationPlan) (presents : ι → TransitionInput → Prop)
    (recorded : σ → ι → Bool) (state : σ) (call : ι) (input : TransitionInput) : Prop where
  presented : presents call input
  authorized : input.authorized = true
  policies : ∀ policy ∈ plan.attestations,
    input.attestations[policy.input]? = some (recorded state call)

/-- A payload with a key, on which every compute evaluates. -/
structure Determined (plan : CoordinationPlan) (input : TransitionInput) : Prop where
  keyed : workflowKeyValue plan input ≠ ""
  evaluates : Evaluates plan.computes input.numeric

/-- A run in which the evaluator takes a transition alongside every call. -/
def Accompanied {σ ο ι : Type} (sha256Hex : List UInt8 → String) (plan : CoordinationPlan)
    (rail : Machine σ ο ι) (presents : ι → TransitionInput → Prop) (recorded : σ → ι → Bool)
    (start : σ) (events : List (Joint ο Empty ι TransitionInput)) : Prop :=
  ∀ visit ∈ visits (jointStep rail (reference sha256Hex plan)) (start, .empty) events,
    ∀ call input, visit.2 = .both call input →
      Alongside plan presents recorded visit.1.1 call input

/-- Every call succeeds exactly where its transition is terminal, one that does not changes
nothing, and what the rail has on record are the posted keys. -/
structure Refines {σ ο ι κ : Type} (sha256Hex : List UInt8 → String) (plan : CoordinationPlan)
    (rail : Machine σ ο ι) (slot : String → κ) (onRecord : σ → κ → Prop) (start : σ)
    (events : List (Joint ο Empty ι TransitionInput)) : Prop where
  terminal : ∀ visit ∈ visits (jointStep rail (reference sha256Hex plan)) (start, .empty) events,
    ∀ call input, visit.2 = .both call input → (rail.succeeds visit.1.1 call = true ↔
      (evaluateTransition sha256Hex plan visit.1.2 input).outcome = .terminal)
  unchanged : ∀ visit ∈ visits (jointStep rail (reference sha256Hex plan)) (start, .empty) events,
    ∀ call input, visit.2 = .both call input →
      rail.succeeds visit.1.1 call = false → rail.call visit.1.1 call = visit.1.1
  posted :
    let final := run (jointStep rail (reference sha256Hex plan)) (start, .empty) events
    ∀ key, onRecord final.1 key ↔ ∃ name ∈ final.2.postedKeys, slot name = key

/-- The keys of the calls of a run. -/
def runKeys {ο ι : Type} (plan : CoordinationPlan)
    (events : List (Joint ο Empty ι TransitionInput)) : Set String :=
  {key | ∃ call input, Joint.both call input ∈ events ∧ workflowKeyValue plan input = key}

section Refinement

variable {sha256Hex : List UInt8 → String} {plan : CoordinationPlan}
  {sequence : FinalizedProjectionSequence} (evidence : EvidencePlan plan sequence)

include evidence

theorem evaluable_of_alongside {σ α : Type} {isValue : String → α → Value → Prop}
    (fits : ∀ {type argument value}, isValue type argument value → Fits type value)
    {recorded : σ → List α → Bool} {state : σ} {call : List α} {input : TransitionInput}
    (alongside : Alongside plan (Presents isValue sequence.values.params) recorded state call input)
    (determined : Determined plan input) : Evaluable plan input where
  authorized := alongside.authorized
  keyed := determined.keyed
  typed := presents_typed evidence fits alongside.presented
  evaluates := determined.evaluates
  presented policy listed := ⟨_, alongside.policies policy listed⟩

theorem policies_accepted {σ ι : Type} {presents : ι → TransitionInput → Prop}
    {recorded : σ → ι → Bool} {state : σ} {call : ι} {input : TransitionInput}
    (alongside : Alongside plan presents recorded state call input) : recorded state call = true ↔
      ∀ policy ∈ plan.attestations, policyAccepted input policy.input = true := by
  have verdict : ∀ policy ∈ plan.attestations,
      policyAccepted input policy.input = recorded state call := fun policy listed => by
    simp [policyAccepted, alongside.policies policy listed]
  constructor
  · intro record policy listed
    rw [verdict policy listed, record]
  · intro accepted
    obtain ⟨policy, listed⟩ := List.exists_mem_of_ne_nil _ evidence.attested
    rw [← verdict policy listed, accepted policy listed]

/-- A rail that lets a call succeed once a key, where it has a record of it, refines the
evaluator. -/
theorem refines_of_gated {σ ο α κ : Type} {rail : Machine σ ο (List α)} {sound : σ → Prop}
    {onRecord : σ → κ → Prop} {names : List α → κ → Prop} {recorded : σ → List α → Bool}
    (gated : Gated rail sound onRecord names fun state call => recorded state call = true)
    {isValue : String → α → Value → Prop}
    (fits : ∀ {type argument value}, isValue type argument value → Fits type value)
    {slot : String → κ}
    (named : ∀ {call input}, Presents isValue sequence.values.params call input →
      names call (slot (workflowKeyValue plan input)))
    {start : σ} (good : sound start) (blank : ∀ key, ¬onRecord start key)
    {events : List (Joint ο Empty (List α) TransitionInput)}
    (accompanied : Accompanied sha256Hex plan rail (Presents isValue sequence.values.params)
      recorded start events)
    (determined : ∀ call input, .both call input ∈ events → Determined plan input)
    (injective : Set.InjOn slot (runKeys plan events)) :
    Refines sha256Hex plan rail slot onRecord start events := by
  have same : ∀ visit ∈ visits (jointStep rail (reference sha256Hex plan)) (start, .empty) events,
      ∀ call input, visit.2 = .both call input → SameCall slot id names
        (fun input key => Evaluable plan input ∧ workflowKeyValue plan input = key)
        (fun state call => recorded state call = true)
        (fun _ input => ∀ policy ∈ plan.attestations, policyAccepted input policy.input = true)
        (runKeys plan events) visit.1 call input := by
    intro visit visited call input both
    have listed : .both call input ∈ events := both ▸ mem_of_visit visited
    have alongside := accompanied visit visited call input both
    exact ⟨workflowKeyValue plan input, ⟨call, input, listed, rfl⟩, named alongside.presented,
      ⟨evaluable_of_alongside evidence fits alongside (determined call input listed), rfl⟩,
      policies_accepted evidence alongside⟩
  have tied : Tied EvalState.empty := fun key claimed => by simp [EvalState.empty] at claimed
  have unposted : ∀ key, key ∉ EvalState.empty.postedKeys := fun key => by simp [EvalState.empty]
  obtain ⟨met, agree, _, _, passed, _, onRail, posted⟩ := lockstep gated
    (reference_gated sha256Hex plan evidence) injective (Set.injOn_id _)
    good tied blank unposted same
  refine ⟨fun visit visited call input both => ?_, fun visit visited call input both failed => ?_,
    fun key => ?_⟩
  · exact (agree visit visited call input both).trans decide_eq_true_iff
  · obtain ⟨name, _, called, _⟩ := same visit visited call input both
    exact gated.refuses _ _ _ (met visit visited).1 called (by simp [failed])
  · rw [onRail]
    simp only [posted, id, exists_eq_right]

end Refinement

/-- Calls of either rail that name one key, which both have a quorum on record for or neither
has. -/
structure Paired (keccak256 : List UInt8 → Bytes32) (sequence : FinalizedProjectionSequence)
    (contract : ContractState) (tables : Tables) (arguments : List Argument)
    (values : List SqlValue) : Prop where
  key : ∃ key, callKeyText sequence values = some key ∧ callKey sequence arguments = some (utf8 key)
  records : guardAccepted keccak256 sequence contract arguments =
    quorumRecorded sequence tables values

def pairedKeys (sequence : FinalizedProjectionSequence)
    (events : List (Joint AcceptCall QuorumAcceptCall (List Argument) (List SqlValue))) :
    Set String :=
  {key | ∃ arguments values, Joint.both arguments values ∈ events ∧
    callKeyText sequence values = some key}

def keySlot (keccak256 : List UInt8 → Bytes32) (key : String) : Bytes32 := keccak256 (utf8 key)

section Rails

variable (ecrecover : Bytes32 → UInt8 → Bytes32 → Bytes32 → Address)
  (keccak256 : List UInt8 → Bytes32) (guard : ThresholdQuorumAcceptance)
  (authorized : List AuthorizedObserver) (sequence : FinalizedProjectionSequence)
  (events : List (Joint AcceptCall QuorumAcceptCall (List Argument) (List SqlValue)))

abbrev bothRails := jointStep (contract ecrecover keccak256 guard sequence)
  (procedure authorized sequence)

/-- A run that drives both rails with the same calls. -/
def DrivenAlike : Prop :=
  ∀ visit ∈ visits (bothRails ecrecover keccak256 guard authorized sequence) ({}, {}) events,
    ∀ arguments values, visit.2 = .both arguments values →
      Paired keccak256 sequence visit.1.1 visit.1.2 arguments values

def AcceptAlike : Prop :=
  ∀ visit ∈ visits (bothRails ecrecover keccak256 guard authorized sequence) ({}, {}) events,
    ∀ arguments values, visit.2 = .both arguments values →
      ((contract ecrecover keccak256 guard sequence).succeeds visit.1.1 arguments = true ↔
        (procedure authorized sequence).succeeds visit.1.2 values = true)

variable {ecrecover keccak256 guard authorized sequence events}

theorem rails_agree (alike : DrivenAlike ecrecover keccak256 guard authorized sequence events)
    (injective : Set.InjOn (keySlot keccak256) (pairedKeys sequence events)) :
    AcceptAlike ecrecover keccak256 guard authorized sequence events := by
  refine (lockstep (contract_gated ecrecover guard) (procedure_gated authorized) injective
    (Set.injOn_id _) trivial ?_ ?_ ?_ ?_).2.1
  · exact fun row listed => by simp at listed
  · exact fun key => by simp [statusSuccess]
  · exact fun key => by simp [rowReconciled]
  · intro visit visited arguments values both
    obtain ⟨⟨key, keyed, keyed'⟩, records⟩ := alike visit visited arguments values both
    exact ⟨key, ⟨arguments, values, both ▸ mem_of_visit visited, keyed⟩, by simp [keyed', keySlot],
      keyed, by simp only [records]⟩

end Rails

/-- The evidence rails of an assembled plan refine the evaluator in every run whose payloads have a
key and evaluate, and let the same calls succeed. -/
theorem evidence_rails_refine (sha256Hex : List UInt8 → String) {text : JsonText} {raw : PlanInputs}
    {plan : CoordinationPlan} (accepted : assemblePlan raw = .ok plan)
    {graph : BackendProjectionGraph}
    (projected : projectBackendGraph sha256Hex text plan = .ok graph)
    {sequence : FinalizedProjectionSequence}
    (consumed : consumeFinalizedProjectionSequence text graph = .ok sequence)
    (evidence : sequence.executionMode = .evidence)
    (ecrecover : Bytes32 → UInt8 → Bytes32 → Bytes32 → Address) (keccak256 : List UInt8 → Bytes32)
    (guard : ThresholdQuorumAcceptance) (authorized : List AuthorizedObserver) :
    (∀ events, Accompanied sha256Hex plan (contract ecrecover keccak256 guard sequence)
        (Presents IsArgument sequence.values.params) (guardAccepted keccak256 sequence) {} events →
      (∀ call input, .both call input ∈ events → Determined plan input) →
      Set.InjOn (keySlot keccak256) (runKeys plan events) →
      Refines sha256Hex plan (contract ecrecover keccak256 guard sequence) (keySlot keccak256)
        statusSuccess {} events) ∧
    (∀ events, Accompanied sha256Hex plan (procedure authorized sequence)
        (Presents IsSqlValue sequence.values.params) (quorumRecorded sequence) {} events →
      (∀ call input, .both call input ∈ events → Determined plan input) →
      Refines sha256Hex plan (procedure authorized sequence) id (rowReconciled sequence) {}
        events) ∧
    ∀ events, DrivenAlike ecrecover keccak256 guard authorized sequence events →
      Set.InjOn (keySlot keccak256) (pairedKeys sequence events) →
      AcceptAlike ecrecover keccak256 guard authorized sequence events := by
  obtain ⟨verified, rfl⟩ := projectBackendGraph_ok projected
  have own := evidencePlan accepted verified consumed evidence
  refine ⟨fun events accompanied determined injective => ?_,
    fun events accompanied determined => ?_, fun events => rails_agree⟩
  · refine refines_of_gated own (contract_gated ecrecover guard) isArgument_fits
      (fun presented => ?_) trivial (fun key => by simp [statusSuccess]) accompanied determined
      injective
    rw [callKey_presents own presented, Option.map_some, keySlot]
  · exact refines_of_gated own (procedure_gated authorized) isSqlValue_fits
      (fun presented => callKeyText_presents own presented) (fun row listed => by simp at listed)
      (fun key => by simp [rowReconciled]) accompanied determined (Set.injOn_id _)

/-! Evidence of a receipt, on either rail. -/

def receiptSpec : Json.Object :=
  [("procedure", .string "attest"), ("trigger", .string "ReceiptDue"),
    ("inputs", .array [specText [("name", "trade"), ("type", "string")],
      specText [("name", "proof"), ("type", "evidence")]]),
    ("participants", .array []), ("topology", .object [("allowedOrgPairs", .array [])]),
    ("invariants", .array []),
    ("attestations", .array [.object [("input", .string "proof"),
      ("quorum", .object [("threshold", .number (.integer 1))]),
      ("observerSet", specText [("ref", "witnesses")]),
      ("canonicalization", specText [("mode", "exact")])]]),
    ("effects", .array []),
    ("lifecycle", .object [("initialState", .string "open"),
      ("states", .array [specText [("name", "open")], specText [("name", "settled")]]),
      ("terminalStates", specText [("success", "settled")]),
      ("transitions", .array [.object [("name", .string "settle"), ("from", .string "open"),
        ("to", .string "settled"), ("effects", .array []), ("guards", .array []),
        ("idempotency", .string "reject")]]),
      ("instanceKey", specText [("declared", "trade")])])]

def receiptPlan : CoordinationPlan := specPlan receiptSpec

def receiptCall (key : String) : List Argument := [.string (utf8 key), .string (utf8 "receipt")]

def receiptValues (key : String) : List SqlValue := [.text key, .text "receipt"]

def receiptInput (key : String) (accepted : Bool) : TransitionInput where
  numeric := ∅
  symbols := (∅ : Std.ExtTreeMap String String).insert "trade" key |>.insert "proof" "receipt"
  attestations := .ofList [("proof", accepted)]
  authorized := true

def guardCall (key : String) : AcceptCall where
  chainId := 1
  claimId := lengthHash (utf8 key)
  canonicalClaimHash := 0
  executionClaim := 0
  signatures := [signatureOf 1]

def quorumCall (key : String) : QuorumAcceptCall where
  procedure := "attest"
  observerSet := "witnesses"
  quorum := 1
  key := some key
  canonicalClaimHash := some "0"
  observers := some [some "ann"]

def receiptContract (sequence : FinalizedProjectionSequence) :
    Machine ContractState AcceptCall (List Argument) :=
  contract readAddress lengthHash soleGuard sequence

def receiptProcedure (sequence : FinalizedProjectionSequence) :
    Machine Tables QuorumAcceptCall (List SqlValue) :=
  procedure [⟨"witnesses", "ann"⟩] sequence

/-- A call before the quorum and one behind it. -/
def receiptEvents {ο α : Type} (quorum : ο) (call : List α) (key : String) :
    List (Joint ο Empty (List α) TransitionInput) :=
  [.both call (receiptInput key false), .first quorum, .both call (receiptInput key true)]

/-- What a rail makes of these calls. -/
def passesBehindQuorum {σ ο α : Type} (rail : Machine σ ο (List α)) (recorded : σ → List α → Bool)
    (start : σ) (quorum : ο) (call : List α) : Bool :=
  let met := rail.observe (rail.call start call) quorum
  !recorded start call && recorded met call && rail.succeeds met call

def receiptSequence (key : String) (sequence : FinalizedProjectionSequence) : Bool :=
  sequence.executionMode = .evidence &&
    sequence.values.params.map (fun param => (param.name, param.type)) =
      [("trade", "string"), ("proof", "evidence")] &&
    passesBehindQuorum (receiptContract sequence) (guardAccepted lengthHash sequence) {}
      (guardCall key) (receiptCall key) &&
    passesBehindQuorum (receiptProcedure sequence) (quorumRecorded sequence) {}
      (quorumCall key) (receiptValues key)

theorem receipt_finalized {key : String}
    (checked : (finalizedSpec receiptSpec).toOption.any (receiptSequence key) = true) :
    ∃ graph sequence, projectBackendGraph sampleHash compactText receiptPlan = .ok graph ∧
      consumeFinalizedProjectionSequence compactText graph = .ok sequence ∧
      receiptSequence key sequence = true := by
  obtain ⟨sequence, finalized, holds⟩ := (Option.any_eq_true ..).mp checked
  obtain ⟨graph, projected, consumed⟩ := bind_ok.mp (toOption_eq_some.mp finalized)
  exact ⟨graph, sequence, projected, consumed, holds⟩

theorem presents_receipt {α : Type} {isValue : String → α → Value → Prop}
    {params : List TypedParamProjection} {first second : α} {key : String} {accepted : Bool}
    (typed : params.map (fun param => (param.name, param.type)) =
      [("trade", "string"), ("proof", "evidence")])
    (own : isValue "string" first (.text key))
    (own' : isValue "evidence" second (.text "receipt")) :
    Presents isValue params [first, second] (receiptInput key accepted) := by
  simp only [List.map_eq_cons_iff, List.map_eq_nil_iff, Prod.mk.injEq] at typed
  obtain ⟨trade, _, rfl, ⟨name, type⟩, proof, _, rfl, ⟨name', type'⟩, rfl⟩ := typed
  refine .cons ⟨.text key, type ▸ own, ?_⟩ (.cons ⟨.text "receipt", type' ▸ own', ?_⟩ .nil)
  · simp [Carries, receiptInput, name, Std.ExtTreeMap.getElem_insert]
  · simp [Carries, receiptInput, name']

theorem accompanied_receipt {σ ο α : Type} {rail : Machine σ ο (List α)}
    {presents : List α → TransitionInput → Prop} {recorded : σ → List α → Bool} {start : σ}
    {quorum : ο} {call : List α} {key : String}
    (presented : ∀ accepted, presents call (receiptInput key accepted))
    (passes : passesBehindQuorum rail recorded start quorum call = true) :
    Accompanied sampleHash receiptPlan rail presents recorded start
      (receiptEvents quorum call key) := by
  simp only [passesBehindQuorum, Bool.and_eq_true, Bool.not_eq_true'] at passes
  have proof : ∀ policy ∈ receiptPlan.attestations, policy.input = "proof" := by decide +kernel
  have alongside : ∀ {state : σ} {accepted : Bool}, recorded state call = accepted →
      Alongside receiptPlan presents recorded state call (receiptInput key accepted) :=
    fun seen => ⟨presented _, rfl, fun policy listed => by
      simp [proof policy listed, receiptInput, seen]⟩
  intro visit visited other input both
  simp only [receiptEvents, visits, List.mem_cons, List.not_mem_nil, or_false] at visited
  rcases visited with rfl | rfl | rfl
  · cases both
    exact alongside passes.1.1
  · cases both
  · cases both
    exact alongside passes.1.2

theorem receipt_presented {sequence : FinalizedProjectionSequence} (key : String)
    (typed : sequence.values.params.map (fun param => (param.name, param.type)) =
      [("trade", "string"), ("proof", "evidence")]) (accepted : Bool) :
    Presents IsArgument sequence.values.params (receiptCall key) (receiptInput key accepted) ∧
      Presents IsSqlValue sequence.values.params (receiptValues key) (receiptInput key accepted) :=
  ⟨presents_receipt typed ⟨by decide, rfl⟩ ⟨by decide, rfl⟩,
    presents_receipt typed ⟨by decide, rfl⟩ ⟨by decide, rfl⟩⟩

theorem receiptKey (key : String) (accepted : Bool) :
    workflowKeyValue receiptPlan (receiptInput key accepted) = key := by
  have named : receiptPlan.workflowKey = "trade" := by decide +kernel
  simp [workflowKeyValue, named, receiptInput, Std.ExtTreeMap.getElem_insert]

theorem receipt_determined {key : String} (keyed : key ≠ "") (accepted : Bool) :
    Determined receiptPlan (receiptInput key accepted) := by
  have computes : receiptPlan.computes = [] := List.isEmpty_iff.mp (by decide +kernel)
  refine ⟨by rwa [receiptKey], ?_⟩
  rw [computes]
  trivial

theorem mem_receiptEvents {ο α : Type} {quorum : ο} {call other : List α} {key : String}
    {input : TransitionInput} (listed : .both other input ∈ receiptEvents quorum call key) :
    ∃ accepted, input = receiptInput key accepted := by
  simp only [receiptEvents, List.mem_cons, Joint.both.injEq, reduceCtorEq, List.not_mem_nil,
    or_false, false_or] at listed
  exact listed.elim (fun same => ⟨false, same.2⟩) fun same => ⟨true, same.2⟩

theorem receipt_injective {ο α κ : Type} {quorum : ο} {call : List α} {key : String}
    (slot : String → κ) : Set.InjOn slot (runKeys receiptPlan (receiptEvents quorum call key)) := by
  have alone : ∀ name ∈ runKeys receiptPlan (receiptEvents quorum call key), name = key := by
    rintro name ⟨other, input, listed, rfl⟩
    obtain ⟨accepted, rfl⟩ := mem_receiptEvents listed
    exact receiptKey key accepted
  intro first inRun second inRun' _
  rw [alone first inRun, alone second inRun']

/-- Both rails with a receipt's calls, each after a quorum of its own. -/
def receiptBoth (key : String) :
    List (Joint AcceptCall QuorumAcceptCall (List Argument) (List SqlValue)) :=
  [.both (receiptCall key) (receiptValues key), .first (guardCall key), .second (quorumCall key),
    .both (receiptCall key) (receiptValues key)]

section Alike

variable {sequence : FinalizedProjectionSequence} {key : String}
  (own : EvidencePlan receiptPlan sequence)
  (typed : sequence.values.params.map (fun param => (param.name, param.type)) =
    [("trade", "string"), ("proof", "evidence")])

include own typed

theorem receipt_keys : callKeyText sequence (receiptValues key) = some key ∧
    callKey sequence (receiptCall key) = some (utf8 key) := by
  have presented := receipt_presented key typed true
  have onChain := callKey_presents own presented.1
  have inDatabase := callKeyText_presents own presented.2
  rw [receiptKey] at onChain inDatabase
  exact ⟨inDatabase, onChain⟩

theorem receipt_driven
    (onChain : passesBehindQuorum (receiptContract sequence) (guardAccepted lengthHash sequence) {}
      (guardCall key) (receiptCall key) = true)
    (inDatabase : passesBehindQuorum (receiptProcedure sequence) (quorumRecorded sequence) {}
      (quorumCall key) (receiptValues key) = true) :
    DrivenAlike readAddress lengthHash soleGuard [⟨"witnesses", "ann"⟩] sequence
      (receiptBoth key) := by
  simp only [passesBehindQuorum, Bool.and_eq_true, Bool.not_eq_true'] at onChain inDatabase
  intro visit visited arguments values both
  simp only [receiptBoth, visits, List.mem_cons, List.not_mem_nil, or_false] at visited
  rcases visited with rfl | rfl | rfl | rfl
  · cases both
    exact ⟨⟨key, receipt_keys own typed⟩, onChain.1.1.trans inDatabase.1.1.symm⟩
  · cases both
  · cases both
  · cases both
    exact ⟨⟨key, receipt_keys own typed⟩, onChain.1.2.trans inDatabase.1.2.symm⟩

theorem receipt_paired_injective {κ : Type} (slot : String → κ) :
    Set.InjOn slot (pairedKeys sequence (receiptBoth key)) := by
  have alone : ∀ name ∈ pairedKeys sequence (receiptBoth key), name = key := by
    rintro name ⟨arguments, values, listed, keyed⟩
    have same : values = receiptValues key := by
      simp only [receiptBoth, List.mem_cons, Joint.both.injEq, reduceCtorEq, List.not_mem_nil,
        or_false, false_or] at listed
      exact listed.elim (·.2) (·.2)
    rw [same, (receipt_keys own typed).1] at keyed
    exact (Option.some.inj keyed).symm
  intro first inRun second inRun' _
  rw [alone first inRun, alone second inRun']

end Alike

theorem evidence_rails_refine_receipt : ∃ graph sequence,
    projectBackendGraph sampleHash compactText receiptPlan = .ok graph ∧
      consumeFinalizedProjectionSequence compactText graph = .ok sequence ∧
      Refines sampleHash receiptPlan (receiptContract sequence) (keySlot lengthHash) statusSuccess
        {} (receiptEvents (guardCall "t-1") (receiptCall "t-1") "t-1") ∧
      Refines sampleHash receiptPlan (receiptProcedure sequence) id (rowReconciled sequence) {}
        (receiptEvents (quorumCall "t-1") (receiptValues "t-1") "t-1") ∧
      AcceptAlike readAddress lengthHash soleGuard [⟨"witnesses", "ann"⟩] sequence
        (receiptBoth "t-1") := by
  obtain ⟨graph, sequence, projected, consumed, checked⟩ :=
    @receipt_finalized "t-1" (by decide +kernel)
  simp only [receiptSequence, Bool.and_eq_true, decide_eq_true_eq] at checked
  obtain ⟨⟨⟨evidence, typed⟩, onChain⟩, inDatabase⟩ := checked
  obtain ⟨raw, gathered, accepted⟩ := bind_ok.mp (@specPlan_accepted receiptSpec (by decide +kernel))
  have presented := receipt_presented "t-1" typed
  have own : EvidencePlan receiptPlan sequence := by
    obtain ⟨verified, rfl⟩ := projectBackendGraph_ok projected
    exact evidencePlan accepted verified consumed evidence
  have determined : ∀ {ο α : Type} (quorum : ο) (call : List α), ∀ other input,
      .both other input ∈ receiptEvents quorum call "t-1" → Determined receiptPlan input := by
    intro ο α quorum call other input listed
    obtain ⟨accepted, rfl⟩ := mem_receiptEvents listed
    exact receipt_determined (by decide) accepted
  obtain ⟨contract, procedure, alike⟩ := evidence_rails_refine sampleHash accepted projected
    consumed evidence readAddress lengthHash soleGuard [⟨"witnesses", "ann"⟩]
  refine ⟨graph, sequence, projected, consumed,
    contract _ (accompanied_receipt (fun accepted => (presented accepted).1) onChain)
      (determined _ _) (receipt_injective _),
    procedure _ (accompanied_receipt (fun accepted => (presented accepted).2) inDatabase)
      (determined _ _), alike _ ?_ ?_⟩
  · exact receipt_driven own typed onChain inDatabase
  · exact receipt_paired_injective own typed _

/-- A call of the empty key: both rails accept it behind its quorum, the evaluator refuses it. -/
theorem empty_key_accepted : ∃ graph sequence,
    planFromSpec receiptSpec = .ok receiptPlan ∧
      projectBackendGraph sampleHash compactText receiptPlan = .ok graph ∧
      consumeFinalizedProjectionSequence compactText graph = .ok sequence ∧
      sequence.executionMode = .evidence ∧
      (Accompanied sampleHash receiptPlan (receiptContract sequence)
          (Presents IsArgument sequence.values.params) (guardAccepted lengthHash sequence) {}
          (receiptEvents (guardCall "") (receiptCall "") "") ∧
        Set.InjOn (keySlot lengthHash)
          (runKeys receiptPlan (receiptEvents (guardCall "") (receiptCall "") "")) ∧
        ¬Refines sampleHash receiptPlan (receiptContract sequence) (keySlot lengthHash)
          statusSuccess {} (receiptEvents (guardCall "") (receiptCall "") "")) ∧
      Accompanied sampleHash receiptPlan (receiptProcedure sequence)
          (Presents IsSqlValue sequence.values.params) (quorumRecorded sequence) {}
          (receiptEvents (quorumCall "") (receiptValues "") "") ∧
        ¬Refines sampleHash receiptPlan (receiptProcedure sequence) id (rowReconciled sequence) {}
          (receiptEvents (quorumCall "") (receiptValues "") "") := by
  obtain ⟨graph, sequence, projected, consumed, checked⟩ :=
    @receipt_finalized "" (by decide +kernel)
  simp only [receiptSequence, Bool.and_eq_true, decide_eq_true_eq] at checked
  obtain ⟨⟨⟨evidence, typed⟩, onChain⟩, inDatabase⟩ := checked
  have presented := receipt_presented "" typed
  have refused : (evaluateTransition sampleHash receiptPlan
      (nextState sampleHash receiptPlan .empty (receiptInput "" false))
      (receiptInput "" true)).outcome = .refused := by decide +kernel
  have refuted : ∀ {σ ο α κ : Type} {rail : Machine σ ο (List α)} {recorded : σ → List α → Bool}
      {start : σ} {quorum : ο} {call : List α} (slot : String → κ) (onRecord : σ → κ → Prop),
      passesBehindQuorum rail recorded start quorum call = true →
        ¬Refines sampleHash receiptPlan rail slot onRecord start (receiptEvents quorum call "") := by
    intro σ ο α κ rail recorded start quorum call slot onRecord passes refines
    simp only [passesBehindQuorum, Bool.and_eq_true] at passes
    have terminal := (refines.terminal _ (List.mem_cons_of_mem _ (List.mem_cons_of_mem _
      List.mem_cons_self)) _ _ rfl).mp passes.2
    cases terminal.symm.trans refused
  exact ⟨graph, sequence, specPlan_accepted (by decide +kernel), projected, consumed, evidence,
    ⟨accompanied_receipt (fun accepted => (presented accepted).1) onChain, receipt_injective _,
      refuted _ _ onChain⟩,
    accompanied_receipt (fun accepted => (presented accepted).2) inDatabase, refuted _ _ inDatabase⟩

end Neutrino.Evidence
