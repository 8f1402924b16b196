import Neutrino.Transition

/-! What a trace holds: validation observes only inputs, computes, guards and gates, so the
deltas and obligations of a trace are those its transition publishes. -/

namespace Neutrino

/-- An observation made before a transition is sure to settle. -/
def Observation.isStaging : Observation → Bool
  | .authorization _ => true
  | .compute _ _ => true
  | .policyAttestation _ _ => true
  | .groupGuard _ _ => true
  | .guard _ _ => true
  | .attestation _ _ _ => true
  | _ => false

def Observation.isLedgerDelta : Observation → Bool
  | .ledgerDelta _ _ _ _ _ => true
  | _ => false

def Observation.isObligation : Observation → Bool
  | .obligation _ _ _ _ => true
  | _ => false

/-- Validation observes no deltas, events, obligations or terminals. -/
def Staging {α : Type} (evaluation : Evaluation α) : Prop :=
  ∀ observation ∈ evaluation.trace, observation.isStaging = true

namespace Staging

variable {α β : Type}

theorem bind {first : Evaluation α} {next : α → Evaluation β} (before : Staging first)
    (after : ∀ value, Staging (next value)) : Staging (first >>= next) :=
  Traced.forall_bind before fun value _ => after value

theorem silent {evaluation : Evaluation α} (quiet : evaluation.trace = []) :
    Staging evaluation := by
  simp [Staging, quiet]

theorem observed {observation : Observation} (staging : observation.isStaging = true) :
    Staging (Traced.observe observation) := by
  simp [Staging, staging]

theorem foldComputes (computes : List PlanCompute) (env : Env) :
    Staging (Neutrino.foldComputes computes env) := by
  induction computes generalizing env with
  | nil => exact silent rfl
  | cons compute rest ih =>
      exact bind (silent rfl) fun _ => bind (observed rfl) fun _ => ih _

theorem transitionEnv (plan : CoordinationPlan) (input : TransitionInput) :
    Staging (Neutrino.transitionEnv plan input) :=
  bind (foldComputes _ _) fun _ => silent rfl

theorem acceptEvidence (input : TransitionInput) (policies : List AttestationPolicy) :
    Staging (Neutrino.acceptEvidence input policies) := by
  induction policies with
  | nil => exact silent rfl
  | cons policy rest ih =>
      simp only [Neutrino.acceptEvidence]
      split
      · exact silent rfl
      · exact bind (observed rfl) fun _ => bind (silent (Traced.ensure_trace _ _)) fun _ => ih

theorem stageGroups (plan : CoordinationPlan) (env : Env)
    (symbols : Std.ExtTreeMap String String) (infos : List GroupInfo)
    (staged : Ledger.Balances Account) :
    Staging (Neutrino.stageGroups plan env symbols infos staged) := by
  induction infos generalizing staged with
  | nil => exact silent rfl
  | cons info rest ih =>
      have guard : Staging (observeGroupGuard info) := by
        unfold observeGroupGuard
        split
        · exact observed rfl
        · exact silent rfl
      exact bind guard fun _ => bind (silent rfl) fun _ => bind (ih _) fun _ => silent rfl

theorem stageLegs (env : Env) (input : TransitionInput) (effects : List PlanEffect)
    (staged : Ledger.Balances Account) :
    Staging (Neutrino.stageLegs env input effects staged) := by
  induction effects generalizing staged with
  | nil => exact silent rfl
  | cons effect rest ih =>
      have guard : Staging (observeGuard env effect) := by
        unfold observeGuard
        split
        · exact silent rfl
        · exact bind (silent rfl) fun _ => bind (observed rfl) fun _ => silent rfl
      have gate : Staging (observeGate input effect) := by
        unfold observeGate
        split
        · exact silent rfl
        · exact bind (observed rfl) fun _ => silent (Traced.ensure_trace _ _)
      refine bind (silent (Traced.ensure_trace _ _)) fun _ => bind guard fun held => ?_
      split
      · exact bind gate fun _ => bind (silent rfl) fun _ => bind (silent rfl) fun _ =>
          bind (ih _) fun _ => silent rfl
      · exact ih _

theorem settle (sha256Hex : List UInt8 → String) (plan : CoordinationPlan)
    (state : EvalState) (input : TransitionInput) :
    Staging (Neutrino.settle sha256Hex plan state input) := by
  have admitting : Staging (admission sha256Hex plan input) :=
    bind (observed rfl) fun _ => bind (silent (Traced.ensure_trace _ _)) fun _ =>
      bind (silent (Traced.ensure_trace _ _)) fun _ => bind (silent rfl) fun _ => silent rfl
  refine bind admitting fun admitted => bind (silent (Traced.ensure_trace _ _)) fun _ => ?_
  split
  · exact bind (silent (Traced.ensure_trace _ _)) fun _ =>
      bind (silent (Traced.ensure_trace _ _)) fun _ =>
        bind (silent (Traced.ensure_trace _ _)) fun _ => silent rfl
  · refine bind (transitionEnv _ _) fun env => ?_
    split
    · exact bind (acceptEvidence _ _) fun _ => silent rfl
    · split
      · exact bind (silent (Traced.ensure_trace _ _)) fun _ => bind (silent rfl) fun _ =>
          bind (stageGroups _ _ _ _ _) fun _ => silent rfl
      · exact bind (stageLegs _ _ _ _) fun _ => silent rfl

end Staging

section Hash

variable {sha256Hex : List UInt8 → String} {plan : CoordinationPlan} {state : EvalState}
  {input : TransitionInput}

theorem filter_staging {kind : Observation → Bool}
    (apart : ∀ observation, observation.isStaging = true → kind observation = false)
    {trace : List Observation} (staging : ∀ observation ∈ trace, observation.isStaging = true) :
    trace.filter kind = [] := by
  rw [List.filter_eq_nil_iff]
  intro observation listed
  simp [apart observation (staging observation listed)]

/-- The observations of a kind that validation never makes are those published. -/
theorem filter_trace_settled {kind : Observation → Bool}
    (apart : ∀ observation, observation.isStaging = true → kind observation = false)
    {settled : Settled} (decided : (settle sha256Hex plan state input).value = .ok settled) :
    (evaluateTransition sha256Hex plan state input).trace.filter kind =
      settled.published.filter kind := by
  rw [evaluateTransition_settled decided, List.filter_append,
    filter_staging apart (Staging.settle sha256Hex plan state input), List.nil_append]

theorem filter_trace_refused {kind : Observation → Bool}
    (apart : ∀ observation, observation.isStaging = true → kind observation = false)
    (other : ∀ code effect, kind (.refusal code effect) = false) {refusal : Refusal}
    (decided : (settle sha256Hex plan state input).value = .error refusal) :
    (evaluateTransition sha256Hex plan state input).trace.filter kind = [] := by
  rw [evaluateTransition_refused decided, List.filter_append,
    filter_staging apart (Staging.settle sha256Hex plan state input)]
  simp [other]

theorem isLedgerDelta_apart (observation : Observation)
    (staging : observation.isStaging = true) : observation.isLedgerDelta = false := by
  cases observation <;> simp_all [Observation.isStaging, Observation.isLedgerDelta]

theorem isObligation_apart (observation : Observation)
    (staging : observation.isStaging = true) : observation.isObligation = false := by
  cases observation <;> simp_all [Observation.isStaging, Observation.isObligation]

theorem filter_publishPending (pending : List Pending) :
    (publishPending pending).filter Observation.isLedgerDelta = pending.map ledgerDelta := by
  unfold publishPending
  rw [List.filter_append]
  have deltas : (pending.map ledgerDelta).filter Observation.isLedgerDelta =
      pending.map ledgerDelta := by
    rw [List.filter_eq_self]
    intro observation listed
    obtain ⟨leg, _, rfl⟩ := List.mem_map.mp listed
    rfl
  have events : (pending.map fun leg => Observation.event (effectEvent leg.effect)).filter
      Observation.isLedgerDelta = [] := by
    rw [List.filter_eq_nil_iff]
    intro observation listed
    obtain ⟨leg, _, rfl⟩ := List.mem_map.mp listed
    simp [Observation.isLedgerDelta]
  rw [deltas, events, List.append_nil]

theorem filter_observeObligations (plan : CoordinationPlan) (env : Env)
    (committed : List String) :
    (observeObligations plan env committed).filter Observation.isLedgerDelta = [] := by
  rw [List.filter_eq_nil_iff]
  intro observation listed
  obtain ⟨obligation, _, rfl⟩ := List.mem_map.mp listed
  simp [observeObligation, Observation.isLedgerDelta]

/-- What a transition publishes has the delta of each leg it posts, in order. -/
theorem Settles.deltas {settled : Settled}
    (settles : Settles sha256Hex plan state input settled) :
    settled.published.filter Observation.isLedgerDelta = settled.pending.map ledgerDelta := by
  cases settles with
  | replay => rfl
  | evidence => rfl
  | groups =>
      simp only [disposeGroups]
      split
      · rfl
      · split
        · simp [List.filter_append, filter_publishPending, reconciled,
            Observation.isLedgerDelta]
        · exact filter_publishPending _
  | legs =>
      simp [List.filter_append, filter_publishPending, filter_observeObligations, reconciled,
        Observation.isLedgerDelta]

variable (sha256Hex plan state input)

/-- The legs a transition posts: none when it is refused. -/
def postedLegs : List Pending :=
  match (settle sha256Hex plan state input).value with
  | .error _ => []
  | .ok settled => settled.pending

/-- The deltas of a trace are exactly those of the posted legs. -/
theorem trace_deltas :
    (evaluateTransition sha256Hex plan state input).trace.filter Observation.isLedgerDelta =
      (postedLegs sha256Hex plan state input).map ledgerDelta := by
  unfold postedLegs
  cases decided : (settle sha256Hex plan state input).value with
  | error refusal =>
      simpa using filter_trace_refused isLedgerDelta_apart (fun _ _ => rfl) decided
  | ok settled =>
      rw [filter_trace_settled isLedgerDelta_apart decided]
      exact (settle_ok decided).deltas

end Hash

end Neutrino
