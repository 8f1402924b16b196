import Neutrino.ClaimPreimage
import Neutrino.Conservation
import Neutrino.Library.HexText
import Neutrino.SpecBuilder

/-! The payload of a workflow key: what a plan reads beyond its declared inputs decides whether
all transitions that commit under one key use the same values. -/

namespace Neutrino

open Checked Lookup Ledger KeyedStore Run

/-! Legs. -/

def legAmount (leg : Pending) : Int := (legMoved leg).1

theorem Resolved.operands {env : Env} {symbols : Std.ExtTreeMap String String} {leg : Pending}
    (resolved : Resolved env symbols leg) :
    (∃ value, resolveAmount leg.effect.amount env = .ok value ∧ legAmount leg = value.toInt) ∧
      resolveSymbol leg.effect.party symbols = .ok leg.posting.account.party ∧
      resolveSymbol leg.effect.currency symbols = .ok leg.posting.account.currency := by
  have moved := congrArg Prod.fst resolved.moved_eq
  obtain ⟨_, posted⟩ := resolved
  simp only [resolvePosting, bind_ok, require_ok, pure_ok, mapError_ok] at posted
  obtain ⟨_, _, value, amount, party, token, currency, symbol, posting⟩ := posted
  refine ⟨⟨value, amount, ?_⟩, ?_, ?_⟩
  · rw [legAmount, moved]
    simp only [worth, movedOperands, amount, Except.toOption, Option.getD_some]
  · rw [token, ← posting]
  · rw [symbol, ← posting]

section Hash

variable {sha256Hex : List UInt8 → String} {plan : CoordinationPlan}

/-! Two transitions that use the same values. -/

/-- The transitions observe the same computes, find every comparison to hold alike, and take the
same amount, party and currency from the same operand. -/
structure UsesAlike (sha256Hex : List UInt8 → String) (plan : CoordinationPlan)
    (first second : EvalState × TransitionInput) : Prop where
  computes : (transitionEnv plan first.2).trace = (transitionEnv plan second.2).trace
  comparisons : ∀ effect ∈ plan.effects, ∀ op lhs rhs dtype,
    effect.guard = some (.cmp op lhs rhs dtype) → ∀ env other,
    (transitionEnv plan first.2).value = .ok env →
    (transitionEnv plan second.2).value = .ok other → ∀ held held',
    evalGuard (.cmp op lhs rhs dtype) env = .ok held →
    evalGuard (.cmp op lhs rhs dtype) other = .ok held' → held = held'
  amounts : ∀ leg ∈ postedLegs sha256Hex plan first.1 first.2,
    ∀ leg' ∈ postedLegs sha256Hex plan second.1 second.2,
    leg.effect.amount = leg'.effect.amount → legAmount leg = legAmount leg'
  parties : ∀ leg ∈ postedLegs sha256Hex plan first.1 first.2,
    ∀ leg' ∈ postedLegs sha256Hex plan second.1 second.2,
    leg.effect.party = leg'.effect.party →
      leg.posting.account.party = leg'.posting.account.party
  currencies : ∀ leg ∈ postedLegs sha256Hex plan first.1 first.2,
    ∀ leg' ∈ postedLegs sha256Hex plan second.1 second.2,
    leg.effect.currency = leg'.effect.currency →
      leg.posting.account.currency = leg'.posting.account.currency

/-- A transition that commits: its admission, its environment and the legs it posts. -/
structure Uses (sha256Hex : List UInt8 → String) (plan : CoordinationPlan)
    (visit : EvalState × TransitionInput) (claim : String) (env : Env) : Prop where
  admitted : (admission sha256Hex plan visit.2).value =
    .ok (workflowKeyValue plan visit.2, claim)
  evaluated : (transitionEnv plan visit.2).value = .ok env
  legs : ∀ leg ∈ postedLegs sha256Hex plan visit.1 visit.2,
    leg.effect ∈ plan.effects ∧ Resolved env visit.2.symbols leg
  gated : ∀ leg ∈ postedLegs sha256Hex plan visit.1 visit.2,
    leg.effect.gateMode = .temporalSuppress →
      policyAccepted visit.2 leg.effect.gatePolicy = true

theorem commits_uses {raw : PlanInputs} (assembled : Assembled raw plan)
    (builder : FromBuilder raw) {visit : EvalState × TransitionInput}
    (commits : (evaluateTransition sha256Hex plan visit.1 visit.2).commits = true) :
    ∃ claim env, Uses sha256Hex plan visit claim env := by
  have suppressed : ∀ effect ∈ plan.effects, effect.gateMode = .temporalSuppress →
      TemporalPlan raw plan := by
    intro effect declared mode
    refine ⟨assembled, builder, ?_⟩
    rw [coordinationIsTemporal, List.any_eq_true]
    exact ⟨effect, declared, by simp [mode]⟩
  cases commit_cases commits with
  | @evidence claim env opens effectless declared accepted silent =>
      exact ⟨claim, env, opens.admitted, opens.evaluated, by simp [silent], by simp [silent]⟩
  | @groups claim env infos opens classified committing effects resolved =>
      have staged : ∀ leg ∈ postedLegs sha256Hex plan visit.1 visit.2,
          leg.effect ∈ (infos.filter (·.committable)).flatMap
            fun info => groupEffects plan info.group := fun leg listed =>
        effects ▸ List.mem_map_of_mem listed
      refine ⟨claim, env, opens.admitted, opens.evaluated, ?_, ?_⟩
      · intro leg listed
        exact ⟨(classified.leg assembled (staged leg listed)).1, resolved leg listed⟩
      · intro leg listed mode
        have declared := (classified.leg assembled (staged leg listed)).1
        exact (suppressed _ declared mode).committing_accepted opens.evaluated classified
          (staged leg listed)
  | @legs claim env opens effectful single effects resolved =>
      have declared : ∀ leg ∈ postedLegs sha256Hex plan visit.1 visit.2,
          leg.effect ∈ plan.effects := by
        intro leg listed
        have fired : leg.effect ∈ plan.effects.filter (fires env) :=
          effects ▸ List.mem_map_of_mem listed
        exact (List.mem_filter.mp fired).1
      refine ⟨claim, env, opens.admitted, opens.evaluated, ?_, ?_⟩
      · intro leg listed
        exact ⟨declared leg listed, resolved leg listed⟩
      · intro leg listed mode
        have temporal := (suppressed _ (declared leg listed) mode).isTemporal
        simp [single] at temporal

/-- Environments and tokens that agree on what the legs read make the transitions alike. -/
theorem Uses.alike {first second : EvalState × TransitionInput} {claim claim' : String}
    {env other : Env} (uses : Uses sha256Hex plan first claim env)
    (uses' : Uses sha256Hex plan second claim' other)
    (computes : (transitionEnv plan first.2).trace = (transitionEnv plan second.2).trace)
    (comparisons : ∀ effect ∈ plan.effects, ∀ op lhs rhs dtype,
      effect.guard = some (.cmp op lhs rhs dtype) →
      Agrees (fun _ => True) Eq (evalGuard (.cmp op lhs rhs dtype) env)
        (evalGuard (.cmp op lhs rhs dtype) other))
    (amounts : ∀ leg ∈ postedLegs sha256Hex plan first.1 first.2,
      ∀ leg' ∈ postedLegs sha256Hex plan second.1 second.2,
      leg.effect.amount = leg'.effect.amount → Agrees (fun _ => True) Eq
        (resolveAmount leg.effect.amount env) (resolveAmount leg.effect.amount other))
    (parties : ∀ effect ∈ plan.effects, Agrees (fun _ => True) Eq
      (resolveSymbol effect.party first.2.symbols) (resolveSymbol effect.party second.2.symbols))
    (currencies : ∀ effect ∈ plan.effects, Agrees (fun _ => True) Eq
      (resolveSymbol effect.currency first.2.symbols)
      (resolveSymbol effect.currency second.2.symbols)) :
    UsesAlike sha256Hex plan first second where
  computes := computes
  comparisons := by
    intro effect declared op lhs rhs dtype guarded env' other' evaluated evaluated' held held'
      holds holds'
    rw [uses.evaluated, Except.ok.injEq] at evaluated
    rw [uses'.evaluated, Except.ok.injEq] at evaluated'
    have agrees := comparisons effect declared op lhs rhs dtype guarded
    rw [evaluated, evaluated', holds, holds'] at agrees
    exact agrees.of_ok
  amounts := by
    intro leg listed leg' listed' operand
    obtain ⟨⟨value, amount, moved⟩, _⟩ := (uses.legs leg listed).2.operands
    obtain ⟨⟨value', amount', moved'⟩, _⟩ := (uses'.legs leg' listed').2.operands
    have agrees := amounts leg listed leg' listed' operand
    rw [amount, operand, amount'] at agrees
    rw [moved, moved', agrees.of_ok]
  parties := by
    intro leg listed leg' listed' operand
    obtain ⟨declared, resolved⟩ := uses.legs leg listed
    have agrees := parties leg.effect declared
    rw [resolved.operands.2.1, operand, (uses'.legs leg' listed').2.operands.2.1] at agrees
    exact agrees.of_ok
  currencies := by
    intro leg listed leg' listed' operand
    obtain ⟨declared, resolved⟩ := uses.legs leg listed
    have agrees := currencies leg.effect declared
    rw [resolved.operands.2.2, operand, (uses'.legs leg' listed').2.operands.2.2] at agrees
    exact agrees.of_ok

theorem Uses.refl {visit : EvalState × TransitionInput} {claim : String} {env : Env}
    (uses : Uses sha256Hex plan visit claim env) : UsesAlike sha256Hex plan visit visit :=
  uses.alike uses rfl (fun _ _ _ _ _ _ _ => .refl _ fun _ => rfl)
    (fun _ _ _ _ _ => .refl _ fun _ => rfl) (fun _ _ => .refl _ fun _ => rfl)
    (fun _ _ => .refl _ fun _ => rfl)

/-! Claims over a run. -/

theorem RecordStep.claim {env : Env} {record next : KeyRecord} {claim : String}
    (step : RecordStep plan env record claim next) : next.claim = some claim := by
  cases step <;> rfl

/-- A pinned claim is never changed. -/
theorem claim_kept (idempotent : plan.replay.idempotent = true) {state : EvalState}
    {key claim : String} (pinned : (state.record key).claim = some claim)
    (input : TransitionInput) :
    ((nextState sha256Hex plan state input).record key).claim = some claim := by
  rcases nextState_commits sha256Hex idempotent state input with
    same | ⟨settled, own, claim', env, record, _, next, commits⟩
  · rwa [same]
  · rw [next]
    by_cases mine : key = own
    · subst mine
      have self : settled.next.record key = record := commits.store.record_self
      rw [self, commits.step.claim, commits.opens.agrees claim pinned]
    · have other : settled.next.record key = state.record key := commits.store.record_of_ne mine
      rwa [other]

/-- The claim of every transition that commits is still that of its key at the end of the run. -/
theorem visit_claim (idempotent : plan.replay.idempotent = true) {start : EvalState}
    {inputs : List TransitionInput} {visit : EvalState × TransitionInput}
    (visited : visit ∈ visits (nextState sha256Hex plan) start inputs)
    (commits : (evaluateTransition sha256Hex plan visit.1 visit.2).commits = true)
    {claim : String} (admitted : (admission sha256Hex plan visit.2).value =
      .ok (workflowKeyValue plan visit.2, claim)) :
    ((run (nextState sha256Hex plan) start inputs).record
      (workflowKeyValue plan visit.2)).claim = some claim := by
  induction inputs generalizing start with
  | nil => simp [visits] at visited
  | cons input rest ih =>
      rcases List.mem_cons.mp visited with rfl | later
      · refine run_invariant (fun state : EvalState =>
          (state.record (workflowKeyValue plan input)).claim = some claim)
          (fun _ other pinned => claim_kept idempotent pinned other) ?_ rest
        rcases transition_cases sha256Hex idempotent start input with
          ⟨idle, _⟩ | ⟨settled, claim', env, record, _, _, next, _, committed⟩
        · simp [idle] at commits
        · have self : settled.next.record (workflowKeyValue plan input) = record :=
            committed.store.record_self
          have same := committed.opens.admitted
          rw [admitted, Except.ok.injEq, Prod.mk.injEq] at same
          rw [next, self, committed.step.claim, same.2]
      · exact ih later

/-- Outside temporal plans only one transition of a run commits under a key. -/
theorem single_commit (idempotent : plan.replay.idempotent = true)
    (single : isTemporal plan = false) {start : EvalState} {inputs : List TransitionInput}
    {first second : EvalState × TransitionInput}
    (visited : first ∈ visits (nextState sha256Hex plan) start inputs)
    (visited' : second ∈ visits (nextState sha256Hex plan) start inputs)
    (commits : (evaluateTransition sha256Hex plan first.1 first.2).commits = true)
    (commits' : (evaluateTransition sha256Hex plan second.1 second.2).commits = true)
    (key : workflowKeyValue plan first.2 = workflowKeyValue plan second.2) : first = second := by
  have committed : ∀ state input,
      (evaluateTransition sha256Hex plan state input).commits = true ∧
        workflowKeyValue plan input = workflowKeyValue plan second.2 →
      (state.record (workflowKeyValue plan second.2)).posted = false ∧
        ((nextState sha256Hex plan state input).record
          (workflowKeyValue plan second.2)).posted = true := by
    rintro state input ⟨commits, same⟩
    rw [← same]
    rcases transition_cases sha256Hex idempotent state input with
      ⟨idle, _⟩ | ⟨settled, claim, env, record, _, _, next, _, committed⟩
    · simp [idle] at commits
    · have self : settled.next.record (workflowKeyValue plan input) = record :=
        committed.store.record_self
      refine ⟨committed.opens.unposted idempotent, ?_⟩
      rw [next, self]
      cases committed.step with
      | single => rfl
      | progress classified => simp [classified.temporal] at single
      | terminal => rfl
  refine visit_unique (nextState sha256Hex plan)
    (fun state input => (evaluateTransition sha256Hex plan state input).commits = true ∧
      workflowKeyValue plan input = workflowKeyValue plan second.2)
    (fun state => (state.record (workflowKeyValue plan second.2)).posted = true) ?_ ?_ ?_ visited
    visited' ⟨commits, key⟩ ⟨commits', rfl⟩
  · intro state input happened posted
    simp [(committed state input happened).1] at posted
  · exact fun state input happened => (committed state input happened).2
  · intro state input posted
    rcases nextState_commits sha256Hex idempotent state input with
      same | ⟨settled, own, claim, env, record, _, next, commits⟩
    · rwa [same]
    · have other : workflowKeyValue plan second.2 ≠ own := by
        rintro rfl
        simp [commits.opens.unposted idempotent] at posted
      have kept : settled.next.record (workflowKeyValue plan second.2) =
          state.record (workflowKeyValue plan second.2) := commits.store.record_of_ne other
      rwa [next, kept]

/-! Temporal plans. -/

/-- In a temporal plan no amount reads the flag of a policy other than the one that gates its own
leg, and no comparison reads a flag. -/
structure FlagsApart (plan : CoordinationPlan) : Prop where
  amounts : ∀ effect ∈ plan.effects, ∀ policy ∈ plan.attestations,
    "accepted:" ++ policy.input ∈ operandReads effect.amount →
      effect.gateMode = .temporalSuppress ∧ policy.input = effect.gatePolicy
  comparisons : ∀ effect ∈ plan.effects, ∀ guard ∈ effect.guard,
    isAcceptedGuard guard = false → ∀ policy ∈ plan.attestations,
      "accepted:" ++ policy.input ∉ guardReads guard

/-- Environments of invocations whose numbers agree have one trace, and agree but for flags. -/
theorem environments_alike {first second : TransitionInput} {numeric : String → Prop}
    (reads : ComputesRead numeric plan.computes)
    (alike : ∀ name, numeric name → Alike True first.numeric[name]? second.numeric[name]?)
    {env other : Env} (evaluated : (transitionEnv plan first).value = .ok env)
    (evaluated' : (transitionEnv plan second).value = .ok other) :
    (transitionEnv plan first).trace = (transitionEnv plan second).trace ∧
      ∀ name, ¬IsFlag plan name → Bound plan numeric name →
        Alike True env[name]? other[name]? := by
  obtain ⟨base, folded, rfl⟩ := transitionEnv_ok evaluated
  obtain ⟨base', folded', rfl⟩ := transitionEnv_ok evaluated'
  constructor
  · simp only [transitionEnv, bind, folded, folded', Traced.pure_trace, List.append_nil]
    exact foldComputes_trace reads alike folded folded'
  · intro name steady bound
    have agrees := foldComputes_agrees reads alike
    rw [folded, folded'] at agrees
    rw [seedAcceptance_other _ _ steady, seedAcceptance_other _ _ steady]
    exact agrees.of_ok name (bound.resolve_left steady)

/-- An amount that reads no flag but its own gate's is the same wherever its leg posts. -/
theorem amount_alike (apart : FlagsApart plan) {numeric symbols : String → Prop}
    (reads : PlanReads plan numeric symbols) {first second : EvalState × TransitionInput}
    {claim claim' : String} {env other : Env} (uses : Uses sha256Hex plan first claim env)
    (uses' : Uses sha256Hex plan second claim' other)
    (steady : ∀ name, ¬IsFlag plan name → Bound plan numeric name →
      Alike True env[name]? other[name]?) {leg leg' : Pending}
    (listed : leg ∈ postedLegs sha256Hex plan first.1 first.2)
    (listed' : leg' ∈ postedLegs sha256Hex plan second.1 second.2)
    (operand : leg.effect.amount = leg'.effect.amount) :
    Agrees (fun _ => True) Eq (resolveAmount leg.effect.amount env)
      (resolveAmount leg.effect.amount other) := by
  have declared := (uses.legs leg listed).1
  have declared' := (uses'.legs leg' listed').1
  apply resolveAmount_agrees
  intro name read
  by_cases flag : IsFlag plan name
  · obtain ⟨policy, given, rfl⟩ := flag
    obtain ⟨mode, own⟩ := apart.amounts _ declared policy given read
    obtain ⟨mode', own'⟩ := apart.amounts _ declared' policy given (operand ▸ read)
    have accepted := uses.gated leg listed mode
    have accepted' := uses'.gated leg' listed' mode'
    obtain ⟨base, _, rfl⟩ := transitionEnv_ok uses.evaluated
    obtain ⟨base', _, rfl⟩ := transitionEnv_ok uses'.evaluated
    rw [← own] at accepted
    rw [← own'] at accepted'
    rw [seedAcceptance_flag _ _ given, seedAcceptance_flag _ _ given, accepted, accepted']
    exact .of_eq rfl
  · exact steady name flag (reads.amounts _ declared name read)

/-- Commits under one claim of a plan that reads nothing else use the same values. -/
theorem Uses.of_claim (apart : FlagsApart plan) (collisionFree : CollisionFree sha256Hex)
    {first second : EvalState × TransitionInput} {claim : String} {env other : Env}
    (uses : Uses sha256Hex plan first claim env)
    (uses' : Uses sha256Hex plan second claim other)
    (key : workflowKeyValue plan first.2 = workflowKeyValue plan second.2)
    (fits : Representable sha256Hex plan first.2)
    (fits' : Representable sha256Hex plan second.2)
    (reads : ReadsAgree plan first.2 second.2) : UsesAlike sha256Hex plan first second := by
  have admitted := uses'.admitted
  rw [← key] at admitted
  have declared : ∀ name ∈ declaredNames plan,
      Alike True first.2.numeric[name]? second.2.numeric[name]? ∧
        Alike True first.2.symbols[name]? second.2.symbols[name]? := fun name listed =>
    admission_alike collisionFree fits fits' uses.admitted admitted listed
  have numbers : ∀ name, NumberAgrees plan first.2 second.2 name →
      Alike True first.2.numeric[name]? second.2.numeric[name]? := fun name agrees =>
    agrees.elim (fun listed => (declared name listed).1) .of_eq
  have tokens : ∀ name, TokenAgrees plan first.2 second.2 name →
      Alike True first.2.symbols[name]? second.2.symbols[name]? := fun name agrees =>
    agrees.elim (fun listed => (declared name listed).2) .of_eq
  obtain ⟨computes, steady⟩ :=
    environments_alike reads.computes numbers uses.evaluated uses'.evaluated
  refine uses.alike uses' computes ?_ ?_ ?_ ?_
  · intro effect known op lhs rhs dtype guarded
    apply comparison_agrees
    intro name read
    apply steady name ?_ (reads.guards effect known _ guarded name read)
    rintro ⟨policy, given, rfl⟩
    exact apart.comparisons effect known _ guarded rfl policy given read
  · intro leg listed leg' listed' operand
    exact amount_alike apart reads uses uses' steady listed listed' operand
  · exact fun effect known => resolveSymbol_agrees fun name read =>
      tokens name (reads.parties effect known name read)
  · exact fun effect known => resolveSymbol_agrees fun name read =>
      tokens name (reads.currencies effect known name read)

end Hash

/-- Payload immutability. Invocations that agree on everything declared, and on whatever else
the plan reads, have one outcome, one refusal code and one next state. In a run in which, for a
temporal plan, invocations of one key agree so, all transitions that commit under one key use
the same values. -/
theorem payload_immutable (sha256Hex : List UInt8 → String) {spec : Json.Object}
    {plan : CoordinationPlan} (accepted : planFromSpec spec = .ok plan) :
    (∀ state first second, SameDeclared plan first second → KeyAgrees plan first second →
      ReadsAgree plan first second →
        SameResult (evaluateTransition sha256Hex plan state first)
          (evaluateTransition sha256Hex plan state second)) ∧
    (CollisionFree sha256Hex → ∀ start inputs,
      (∀ input ∈ inputs, Representable sha256Hex plan input) →
      (isTemporal plan = true → FlagsApart plan ∧ ∀ first ∈ inputs, ∀ second ∈ inputs,
        workflowKeyValue plan first = workflowKeyValue plan second →
          ReadsAgree plan first second) →
      ∀ first ∈ visits (nextState sha256Hex plan) start inputs,
      ∀ second ∈ visits (nextState sha256Hex plan) start inputs,
        (evaluateTransition sha256Hex plan first.1 first.2).commits = true →
        (evaluateTransition sha256Hex plan second.1 second.2).commits = true →
        workflowKeyValue plan first.2 = workflowKeyValue plan second.2 →
          UsesAlike sha256Hex plan first second) := by
  obtain ⟨raw, assembledPlan, builder⟩ := planFromSpec_ok accepted
  have assembled := assemblePlan_ok assembledPlan
  have idempotent := assembled.idempotent
  constructor
  · intro state first second same key reads
    exact evaluateTransition_sameReads sha256Hex same key reads state
  · intro collisionFree start inputs fits closed first visited second visited' commits commits' key
    obtain ⟨claim, env, uses⟩ := commits_uses assembled builder commits
    obtain ⟨claim', other, uses'⟩ := commits_uses assembled builder commits'
    have listed : ∀ visit ∈ visits (nextState sha256Hex plan) start inputs,
        visit.2 ∈ inputs := by
      intro visit visited
      rw [← visits_snd (nextState sha256Hex plan) start inputs]
      exact List.mem_map_of_mem visited
    cases temporal : isTemporal plan with
    | false =>
        have same := single_commit idempotent temporal visited visited' commits commits' key
        subst same
        exact uses.refl
    | true =>
        obtain ⟨apart, reads⟩ := closed temporal
        have pinned := visit_claim idempotent visited commits uses.admitted
        have pinned' := visit_claim idempotent visited' commits' uses'.admitted
        rw [key, pinned', Option.some.injEq] at pinned
        subst pinned
        exact uses.of_claim apart collisionFree uses' key (fits _ (listed first visited))
          (fits _ (listed second visited')) (reads _ (listed first visited) _
            (listed second visited') key)

/-! A payment and a fee, each due once its own policy is accepted, as a capability spec whose
amounts refer to one name. -/

def pricedLeg (name amount policy : String) : Json :=
  .object [("name", .string name), ("kind", .string "debit"), ("participant", .null),
    ("ledger", .string "cash"), ("memo", .string ""),
    ("idempotencyKey", specText [("kind", "ref"), ("value", "trade")]),
    ("amount", specText [("kind", "ref"), ("value", amount)]),
    ("currency", specText [("kind", "literal"), ("value", "EUR")]),
    ("party", specText [("kind", "literal"), ("value", "buyer")]),
    ("when", .object [("expr", .string ("accepted(" ++ policy ++ ")")),
      ("ast", exprToJson (.call "accepted" [.var policy .evidence] .extension))])]

def pricedSpec (amount : String) : Json.Object :=
  [("procedure", .string "pay"), ("trigger", .string "PaymentDue"),
    ("inputs", .array [specText [("name", "trade"), ("type", "string")],
      specText [("name", "amount"), ("type", "money")],
      specText [("name", "alpha"), ("type", "evidence")],
      specText [("name", "beta"), ("type", "evidence")]]),
    ("participants", .array []), ("topology", .object [("allowedOrgPairs", .array [])]),
    ("attestations", .array [specText [("input", "alpha")], specText [("input", "beta")]]),
    ("effects", .array [pricedLeg "pay" amount "alpha", pricedLeg "fee" amount "beta"]),
    ("lifecycle", specLifecycle)]

/-- The trade at 70, with one undeclared number. -/
def pricedInput (extra : Int64) (alpha beta : Bool) : TransitionInput where
  numeric := .ofList [("amount", 70), ("extra", extra)]
  symbols := .ofList [("trade", "t-1"), ("alpha", "a"), ("beta", "b")]
  attestations := .ofList [("alpha", alpha), ("beta", beta)]
  authorized := true

/-- The plan whose amounts are the declared one. -/
def declaredPlan : CoordinationPlan := specPlan (pricedSpec "amount")

theorem declaredPlan_accepted : planFromSpec (pricedSpec "amount") = .ok declaredPlan :=
  specPlan_accepted (by decide +kernel)

theorem declaredPlan_reads (first second : TransitionInput) :
    ReadsAgree declaredPlan first second where
  computes := by
    have none : declaredPlan.computes.isEmpty = true := by decide +kernel
    rw [List.isEmpty_iff.mp none]
    trivial
  guards := by
    have flags : ∀ effect ∈ declaredPlan.effects, ∀ guard ∈ effect.guard,
        ∀ name ∈ guardReads guard, ∃ policy ∈ declaredPlan.attestations,
          name = "accepted:" ++ policy.input := by decide +kernel
    exact fun effect listed guard guarded name read =>
      .inl (flags effect listed guard guarded name read)
  amounts := by
    have declared : ∀ effect ∈ declaredPlan.effects, ∀ name ∈ operandReads effect.amount,
        name ∈ declaredNames declaredPlan := by decide +kernel
    exact fun effect listed name read => .inr (.inl (.inl (declared effect listed name read)))
  parties := by
    have literal : ∀ effect ∈ declaredPlan.effects, operandReads effect.party = [] := by
      decide +kernel
    intro effect listed name read
    simp [literal effect listed] at read
  currencies := by
    have literal : ∀ effect ∈ declaredPlan.effects, operandReads effect.currency = [] := by
      decide +kernel
    intro effect listed name read
    simp [literal effect listed] at read

theorem declaredPlan_flagsApart : FlagsApart declaredPlan where
  amounts := by
    have unread : ∀ effect ∈ declaredPlan.effects, ∀ policy ∈ declaredPlan.attestations,
        "accepted:" ++ policy.input ∉ operandReads effect.amount := by decide +kernel
    exact fun effect listed policy given read =>
      absurd read (unread effect listed policy given)
  comparisons := by
    have accepted : ∀ effect ∈ declaredPlan.effects, ∀ guard ∈ effect.guard,
        isAcceptedGuard guard = true := by decide +kernel
    intro effect listed guard guarded comparison
    simp [accepted effect listed guard guarded] at comparison

theorem hexText_framable {bytes : List UInt8} (short : bytes.length < 2 ^ 61) :
    Framing.Framable (utf8 (HexText.hexText bytes)) := by
  have size := HexText.hexText_size bytes
  have length : (utf8 (HexText.hexText bytes)).length =
      (HexText.hexText bytes).utf8ByteSize := by simp [utf8]
  rw [Framing.Framable, length]
  omega

/-- The declared inputs of every such trade, typed. -/
def pricedTyped : List ExecutionInput :=
  [⟨"trade", "string", "t-1"⟩, ⟨"amount", "money", "70"⟩, ⟨"alpha", "evidence", "a"⟩,
    ⟨"beta", "evidence", "b"⟩]

theorem pricedInput_representable :
    Representable HexText.hexText declaredPlan (pricedInput 5 true false) := by
  have collected : collect (typeInput (pricedInput 5 true false)) declaredPlan.inputs =
      .ok pricedTyped := by decide +kernel
  have key : workflowKeyValue declaredPlan (pricedInput 5 true false) = "t-1" := by
    decide +kernel
  have identity : (framed (identityFields declaredPlan)).length < 2 ^ 61 := by decide +kernel
  have short : ∀ field ∈ claimFields "" "t-1" pricedTyped, (utf8 field).length < 2 ^ 64 := by
    decide +kernel
  intro typed collected' field listed
  rw [collected, Except.ok.injEq] at collected'
  rw [← collected', key] at listed
  simp only [claimFields, List.cons_append, List.mem_cons] at listed short
  rcases listed with domain | own | other
  · exact short field (.inl domain)
  · rw [own]
    exact hexText_framable identity
  · exact short field (.inr (.inr other))

theorem payload_immutable_sample :
    SameResult
      (evaluateTransition HexText.hexText declaredPlan EvalState.empty (pricedInput 5 true false))
      (evaluateTransition HexText.hexText declaredPlan EvalState.empty
        (pricedInput 7 true false)) ∧
    UsesAlike HexText.hexText declaredPlan (EvalState.empty, pricedInput 5 true false)
      (EvalState.empty, pricedInput 5 true false) := by
  obtain ⟨same, uses⟩ := payload_immutable HexText.hexText declaredPlan_accepted
  constructor
  · exact same _ _ _ ⟨by decide +kernel, by decide +kernel, rfl, rfl⟩
      (.inr ⟨.inl (by decide +kernel), .inl (by decide +kernel)⟩) (declaredPlan_reads _ _)
  · refine uses (fun _ _ hashed => HexText.hexText_injective hashed) EvalState.empty
      [pricedInput 5 true false] ?_
      (fun _ => ⟨declaredPlan_flagsApart, fun _ _ _ _ _ => declaredPlan_reads _ _⟩) _
      (by simp [visits]) _ (by simp [visits]) (by decide +kernel) (by decide +kernel) rfl
    intro input listed
    rw [List.mem_singleton.mp listed]
    exact pricedInput_representable

/-! Amounts that refer to a name the spec does not declare: the name is not part of the claim, so
the payment and the fee of one trade post at whatever each invocation gives it. -/

def undeclaredPlan : CoordinationPlan := specPlan (pricedSpec "extra")

/-- The amounts the two legs post in a run under one key. -/
def undeclaredAmounts (hash : List UInt8 → String) : List Int × List Int :=
  let paid := nextState hash undeclaredPlan EvalState.empty (pricedInput 5 true false)
  ((postedLegs hash undeclaredPlan EvalState.empty (pricedInput 5 true false)).map legAmount,
    (postedLegs hash undeclaredPlan paid (pricedInput 7 false true)).map legAmount)

theorem undeclared_amount_varies :
    planFromSpec (pricedSpec "extra") = .ok undeclaredPlan ∧
    SameDeclared undeclaredPlan (pricedInput 5 true false) (pricedInput 7 true false) ∧
    (balance (nextState sampleHash undeclaredPlan EvalState.empty
      (pricedInput 5 true false)).balances ⟨"cash", "buyer", "EUR"⟩).toInt = -5 ∧
    (balance (nextState sampleHash undeclaredPlan EvalState.empty
      (pricedInput 7 true false)).balances ⟨"cash", "buyer", "EUR"⟩).toInt = -7 ∧
    undeclaredAmounts sampleHash = ([5], [7]) := by
  refine ⟨specPlan_accepted (by decide +kernel), ⟨?_, ?_, rfl, rfl⟩, ?_, ?_, ?_⟩ <;>
    decide +kernel

end Neutrino
