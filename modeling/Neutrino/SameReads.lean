import Neutrino.NamesRead

/-! Invocations that agree on what a plan reads settle alike, whatever else they carry. -/

namespace Neutrino

open Checked Lookup Ledger

/-! Inputs. -/

/-- Invocations with one value for every declared input, the same attestations and the same
authorization. -/
structure SameDeclared (plan : CoordinationPlan) (first second : TransitionInput) : Prop where
  numeric : ∀ name ∈ declaredNames plan, first.numeric[name]? = second.numeric[name]?
  symbols : ∀ name ∈ declaredNames plan, first.symbols[name]? = second.symbols[name]?
  attestations : first.attestations = second.attestations
  authorized : first.authorized = second.authorized

/-- The name is declared, or the invocations agree on its number. -/
def NumberAgrees (plan : CoordinationPlan) (first second : TransitionInput) (name : String) :
    Prop :=
  name ∈ declaredNames plan ∨ first.numeric[name]? = second.numeric[name]?

/-- The name is declared, or the invocations agree on its token. -/
def TokenAgrees (plan : CoordinationPlan) (first second : TransitionInput) (name : String) :
    Prop :=
  name ∈ declaredNames plan ∨ first.symbols[name]? = second.symbols[name]?

/-- The plan reads no undeclared name on which the invocations differ. -/
def ReadsAgree (plan : CoordinationPlan) (first second : TransitionInput) : Prop :=
  PlanReads plan (NumberAgrees plan first second) (TokenAgrees plan first second)

/-- The workflow key is no undeclared name on which the invocations differ. -/
def KeyAgrees (plan : CoordinationPlan) (first second : TransitionInput) : Prop :=
  plan.workflowKey = "" ∨ NumberAgrees plan first second plan.workflowKey ∧
    TokenAgrees plan first second plan.workflowKey

namespace SameDeclared

variable {plan : CoordinationPlan} {first second : TransitionInput}
  (same : SameDeclared plan first second)

include same

theorem number {name : String} (agrees : NumberAgrees plan first second name) :
    first.numeric[name]? = second.numeric[name]? :=
  agrees.elim (same.numeric name) id

theorem token {name : String} (agrees : TokenAgrees plan first second name) :
    first.symbols[name]? = second.symbols[name]? :=
  agrees.elim (same.symbols name) id

theorem key (agrees : KeyAgrees plan first second) :
    workflowKeyValue plan first = workflowKeyValue plan second := by
  unfold workflowKeyValue
  rcases agrees with none | ⟨number, token⟩
  · rw [if_pos none, if_pos none]
  · rw [same.number number, same.token token]

theorem typeInput {declared : PlanInput} (listed : declared ∈ plan.inputs) :
    Neutrino.typeInput first declared = Neutrino.typeInput second declared := by
  have name : declared.name ∈ declaredNames plan := List.mem_map_of_mem listed
  simp only [Neutrino.typeInput, same.numeric _ name, same.symbols _ name]

theorem admission (sha256Hex : List UInt8 → String) (agrees : KeyAgrees plan first second) :
    Neutrino.admission sha256Hex plan first = Neutrino.admission sha256Hex plan second := by
  have typed : collect (Neutrino.typeInput first) plan.inputs =
      collect (Neutrino.typeInput second) plan.inputs :=
    collect_congr fun _ listed => same.typeInput listed
  simp only [Neutrino.admission, same.authorized, same.key agrees, typed]

theorem policyAccepted (policy : String) :
    Neutrino.policyAccepted first policy = Neutrino.policyAccepted second policy := by
  rw [Neutrino.policyAccepted, Neutrino.policyAccepted, same.attestations]

end SameDeclared

/-! Staging. -/

section Staging

variable {env other : Env} {symbols tokens : Std.ExtTreeMap String String}
  {effects : List PlanEffect}

theorem stageEffects_congr
    (postings : ∀ effect ∈ effects, resolvePosting env symbols effect =
      resolvePosting other tokens effect) (staged : Balances Account) :
    stageEffects env symbols effects staged = stageEffects other tokens effects staged := by
  induction effects generalizing staged with
  | nil => rfl
  | cons effect rest ih =>
      simp only [List.forall_mem_cons] at postings
      simp only [stageEffects, postings.1, ih postings.2]

theorem mem_groupEffects {plan : CoordinationPlan} {group : PlanEffectGroup}
    {effect : PlanEffect} (listed : effect ∈ groupEffects plan group) : effect ∈ plan.effects := by
  obtain ⟨index, _, found⟩ := List.mem_filterMap.mp listed
  exact List.mem_of_getElem? found

theorem stageGroups_congr {plan : CoordinationPlan}
    (postings : ∀ effect ∈ plan.effects, resolvePosting env symbols effect =
      resolvePosting other tokens effect) (infos : List GroupInfo) (staged : Balances Account) :
    stageGroups plan env symbols infos staged = stageGroups plan other tokens infos staged := by
  induction infos generalizing staged with
  | nil => rfl
  | cons info rest ih =>
      have group : ∀ staged, stageEffects env symbols
          (if info.committable then groupEffects plan info.group else []) staged =
          stageEffects other tokens
            (if info.committable then groupEffects plan info.group else []) staged := by
        refine stageEffects_congr fun effect listed => postings effect ?_
        split at listed
        · exact mem_groupEffects listed
        · simp at listed
      simp only [stageGroups, group, ih]

theorem classifyGroup_congr {plan : CoordinationPlan}
    (guards : ∀ effect ∈ plan.effects, ∀ guard ∈ effect.guard,
      evalGuard guard env = evalGuard guard other)
    (committed : Std.ExtTreeSet String) (group : PlanEffectGroup) :
    classifyGroup plan env committed group = classifyGroup plan other committed group := by
  have holds : groupHolds env (groupGuard plan group) =
      groupHolds other (groupGuard plan group) := by
    cases shared : groupGuard plan group with
    | none => rfl
    | some guard =>
        obtain ⟨effect, found, guarded⟩ := Option.bind_eq_some_iff.mp shared
        simp only [groupHolds, guards effect (List.mem_of_getElem? found) guard guarded]
  simp only [classifyGroup, holds]

theorem stageLegs_congr {first second : TransitionInput}
    (guards : ∀ effect ∈ effects, ∀ guard ∈ effect.guard,
      evalGuard guard env = evalGuard guard other)
    (postings : ∀ effect ∈ effects, resolvePosting env first.symbols effect =
      resolvePosting other second.symbols effect)
    (accepted : ∀ policy, policyAccepted first policy = policyAccepted second policy)
    (staged : Balances Account) :
    stageLegs env first effects staged = stageLegs other second effects staged := by
  induction effects generalizing staged with
  | nil => rfl
  | cons effect rest ih =>
      simp only [List.forall_mem_cons] at guards postings
      have guard : observeGuard env effect = observeGuard other effect := by
        unfold observeGuard
        cases guarded : effect.guard with
        | none => rfl
        | some guard => simp only [guards.1 guard guarded]
      have gate : observeGate first effect = observeGate second effect := by
        simp only [observeGate, accepted]
      simp only [stageLegs, guard, gate, postings.1, ih guards.2 postings.2]

theorem acceptEvidence_congr {first second : TransitionInput}
    (same : first.attestations = second.attestations) (policies : List AttestationPolicy) :
    acceptEvidence first policies = acceptEvidence second policies := by
  induction policies with
  | nil => rfl
  | cons policy rest ih => simp only [acceptEvidence, same, ih]

end Staging

/-! Transitions. -/

/-- Settled with one outcome and one next state. -/
structure SettledSame (first second : Settled) : Prop where
  outcome : first.outcome = second.outcome
  next : first.next = second.next

/-- One outcome, one refusal code and one next state. -/
structure SameResult (first second : TransitionResult) : Prop where
  outcome : first.outcome = second.outcome
  refusalCode : first.refusalCode = second.refusalCode
  next : first.next = second.next

section Settle

variable {plan : CoordinationPlan} {first second : TransitionInput}

theorem settle_sameReads (sha256Hex : List UInt8 → String)
    (same : SameDeclared plan first second) (key : KeyAgrees plan first second)
    (reads : ReadsAgree plan first second) (state : EvalState) :
    Agrees (fun _ => False) SettledSame (settle sha256Hex plan state first).value
      (settle sha256Hex plan state second).value := by
  simp only [settle, Traced.bind_value, same.admission sha256Hex key]
  refine .bind_same ?_
  rintro ⟨key, claim⟩ _
  refine .bind_same fun _ _ => ?_
  split
  · exact .refl _ fun _ => ⟨rfl, rfl⟩
  · have environments := transitionEnv_agrees reads.computes
      (fun _ => same.number) same.attestations
    rw [Traced.bind_value, Traced.bind_value]
    refine .bind environments ?_
    intro env other names
    have guards : ∀ effect ∈ plan.effects, ∀ guard ∈ effect.guard,
        evalGuard guard env = evalGuard guard other := fun effect declared guard guarded =>
      evalGuard_congr fun name listed =>
        names name (reads.guards effect declared guard guarded name listed)
    have postings : ∀ effect ∈ plan.effects, resolvePosting env first.symbols effect =
        resolvePosting other second.symbols effect := fun effect declared =>
      resolvePosting_congr
        (fun name listed => names name (reads.amounts effect declared name listed))
        (fun name listed => same.token (reads.parties effect declared name listed))
        (fun name listed => same.token (reads.currencies effect declared name listed))
    split
    · simp only [settleEvidence, acceptEvidence_congr same.attestations]
      exact .refl _ fun _ => ⟨rfl, rfl⟩
    · split
      · have classified : classifyGroup plan env (committedSoFar state key) =
            classifyGroup plan other (committedSoFar state key) :=
          funext fun group => classifyGroup_congr guards _ group
        simp only [settleGroups, classified, stageGroups_congr postings]
        exact .refl _ fun _ => ⟨rfl, rfl⟩
      · simp only [settleLegs, Traced.bind_value,
          stageLegs_congr guards postings same.policyAccepted]
        refine .bind_same ?_
        rintro ⟨pending, staged⟩ _
        exact .ok ⟨rfl, rfl⟩

/-- Invocations that agree on everything declared and on whatever else the plan reads have one
outcome, one refusal code and one next state. -/
theorem evaluateTransition_sameReads (sha256Hex : List UInt8 → String)
    (same : SameDeclared plan first second) (key : KeyAgrees plan first second)
    (reads : ReadsAgree plan first second) (state : EvalState) :
    SameResult (evaluateTransition sha256Hex plan state first)
      (evaluateTransition sha256Hex plan state second) := by
  have agrees := settle_sameReads sha256Hex same key reads state
  cases decided : (settle sha256Hex plan state first).value with
  | error refusal =>
      rw [evaluateTransition_refused decided]
      cases decided' : (settle sha256Hex plan state second).value with
      | error refusal' =>
          rw [evaluateTransition_refused decided']
          rw [decided, decided'] at agrees
          cases agrees with
          | error => exact ⟨rfl, rfl, rfl⟩
          | left _ never => exact never.elim
          | right _ never => exact never.elim
      | ok settled' =>
          rw [decided, decided'] at agrees
          cases agrees with
          | left _ never => exact never.elim
  | ok settled =>
      rw [evaluateTransition_settled decided]
      cases decided' : (settle sha256Hex plan state second).value with
      | error refusal' =>
          rw [decided, decided'] at agrees
          cases agrees with
          | right _ never => exact never.elim
      | ok settled' =>
          rw [evaluateTransition_settled decided']
          rw [decided, decided'] at agrees
          exact ⟨agrees.of_ok.outcome, rfl, agrees.of_ok.next⟩

end Settle

end Neutrino
