import Neutrino.GroupShape
import Neutrino.Library.DoubleEntry
import Neutrino.PlanFromSpec

/-! Value conservation: a balanced plan whose groups post whole moves no value in any currency,
over any run. -/

namespace Neutrino

open Checked Ledger KeyedStore Run DoubleEntry

/-! The static balance of a group, as double entry. -/

def isCredit (effect : PlanEffect) : Bool := effect.kind = "credit"

/-- The operands that say what an effect moves. -/
def movedOperands (effect : PlanEffect) : String × String := (effect.amount, effect.currency)

section Plan

variable {raw : PlanInputs} {plan : CoordinationPlan} (assembled : Assembled raw plan)

include assembled

/-- The values moved by raw effects at the positions of declared effects are the effects'. -/
theorem Assembled.movedValues_eq {effects : List PlanEffect}
    (declared : ∀ effect ∈ effects, effect ∈ plan.effects) (debit : Bool) :
    movedValues raw.effects (effects.map (·.index)) debit =
      ((effects.filter fun effect => (effect.kind == "debit") == debit).map movedOperands :
        List (String × String)) := by
  induction effects with
  | nil => rfl
  | cons effect rest ih =>
      simp only [List.forall_mem_cons] at declared
      obtain ⟨rawEffect, atIndex, same⟩ := assembled.exists_raw declared.1
      have kind : rawEffect.kind = effect.kind := by rw [same]; rfl
      have operands : (rawEffect.amount, rawEffect.currency) = movedOperands effect := by
        rw [same]; rfl
      have later := ih declared.2
      simp only [movedValues] at later ⊢
      simp only [List.map_cons, List.filterMap_cons, atIndex, List.filter_cons, kind]
      split
      · simp only [List.map_cons, operands, ← Multiset.cons_coe, later]
      · exact later

theorem Assembled.matched_group (balanced : plan.balanced = true) {group : PlanEffectGroup}
    (declared : group ∈ plan.effectGroups)
    (posting : ∀ effect ∈ keyed plan.effects group.guardKey,
      isPostingKind effect.kind = true) :
    Matched isCredit movedOperands (keyed plan.effects group.guardKey) := by
  have shape := assembled.partition.shapes group declared
  have checked := assembled.conserved group declared
  simp only [checkBalance, requirePlan_ok, shape.mustBalance, balanced, Bool.true_eq_false,
    false_or, shape.indices] at checked
  have listed : ∀ effect ∈ keyed plan.effects group.guardKey, effect ∈ plan.effects :=
    fun effect member => (mem_keyed.mp member).1
  rw [assembled.movedValues_eq listed, assembled.movedValues_eq listed] at checked
  have sides : ∀ side, ((keyed plan.effects group.guardKey).filter fun effect =>
      (effect.kind == "debit") == !side) =
      (keyed plan.effects group.guardKey).filter fun effect => isCredit effect = side := by
    intro side
    apply List.filter_congr
    intro effect member
    have kind := posting effect member
    simp only [isPostingKind, Bool.or_eq_true, decide_eq_true_eq] at kind
    rcases kind with kind | kind <;> cases side <;> simp [isCredit, kind]
  have debits := sides false
  have credits := sides true
  simp only [Bool.not_false, Bool.not_true] at debits credits
  rw [debits, credits] at checked
  exact checked.symm

theorem Assembled.matched_keyed (balanced : plan.balanced = true) (key : String)
    (posting : ∀ effect ∈ keyed plan.effects key, isPostingKind effect.kind = true) :
    Matched isCredit movedOperands (keyed plan.effects key) := by
  cases shape : keyed plan.effects key with
  | nil => exact matched_nil isCredit movedOperands
  | cons effect rest =>
      have member : effect ∈ keyed plan.effects key := by simp [shape]
      obtain ⟨declared, own⟩ := mem_keyed.mp member
      obtain ⟨group, listed, same⟩ := assembled.partition.covers effect declared
      rw [← shape, ← own, ← same]
      exact assembled.matched_group balanced listed (by rwa [same, own])

end Plan

/-! What a posted leg moves. -/

def legCredit (leg : Pending) : Bool := isCredit leg.effect

/-- The amount a leg moves, on whichever side, and its currency. -/
def legMoved (leg : Pending) : Int × String :=
  (if legCredit leg then leg.posting.delta.toInt else -leg.posting.delta.toInt,
    leg.posting.account.currency)

/-- What operands are worth in one transition. -/
def worth (env : Env) (symbols : Std.ExtTreeMap String String) (operands : String × String) :
    Int × String :=
  (((resolveAmount operands.1 env).toOption.getD 0).toInt,
    ((resolveSymbol operands.2 symbols).toOption).getD "")

theorem resolveAmount_nonneg {id : String} {env : Env} {value : Int64}
    (resolved : resolveAmount id env = .ok value) : 0 ≤ value.toInt := by
  unfold resolveAmount at resolved
  split at resolved
  · simp at resolved
  · simp only [bind_ok, require_ok, pure_ok] at resolved
    obtain ⟨_, _, _, nonneg, rfl⟩ := resolved
    exact nonneg

/-- A leg moves what its operands are worth. -/
theorem Resolved.moved_eq {env : Env} {symbols : Std.ExtTreeMap String String} {leg : Pending}
    (resolved : Resolved env symbols leg) :
    legMoved leg = worth env symbols (movedOperands leg.effect) := by
  obtain ⟨_, resolved⟩ := resolved
  simp only [resolvePosting, bind_ok, require_ok, pure_ok, mapError_ok] at resolved
  obtain ⟨_, _, value, amount, party, _, currency, symbol, posting⟩ := resolved
  have nonneg := resolveAmount_nonneg amount
  have negated : -(-value).toInt = value.toInt := by
    have upper := value.toInt_lt
    rw [Int64.toInt_neg, Int.bmod_eq_of_le (by omega) (by omega), Int.neg_neg]
  rw [legMoved, ← posting]
  simp only [worth, movedOperands, amount, symbol, Except.toOption, Option.getD_some, legCredit,
    isCredit, decide_eq_true_eq, Prod.mk.injEq, and_true]
  split
  · rfl
  · exact negated

/-! Whole groups. -/

/-- The posted legs are effects of the plan, each at most once, and with one effect of a group
all of it. -/
structure WholeGroups (plan : CoordinationPlan) (legs : List Pending) : Prop where
  declared : ∀ effect ∈ legs.map (·.effect), effect ∈ plan.effects
  once : (legs.map (·.effect)).Nodup
  whole : ∀ first ∈ plan.effects, ∀ second ∈ plan.effects, first.guardKey = second.guardKey →
    first ∈ legs.map (·.effect) → second ∈ legs.map (·.effect)

/-- The legs of one group. -/
def groupLegs (legs : List Pending) (key : String) : List Pending :=
  legs.filter fun leg => leg.effect.guardKey = key

theorem groupLegs_effects (legs : List Pending) (key : String) :
    (groupLegs legs key).map (·.effect) = keyed (legs.map (·.effect)) key := by
  rw [groupLegs, keyed, List.filter_map]
  rfl

/-- A group posts nothing or exactly its effects. -/
theorem WholeGroups.group_cases {raw : PlanInputs} {plan : CoordinationPlan}
    (assembled : Assembled raw plan) {legs : List Pending} (whole : WholeGroups plan legs)
    (key : String) : groupLegs legs key = [] ∨
      ((groupLegs legs key).map (·.effect)).Perm (keyed plan.effects key) := by
  by_cases none : groupLegs legs key = []
  · exact .inl none
  · right
    obtain ⟨leg, listed⟩ := List.exists_mem_of_ne_nil _ none
    have member : leg.effect ∈ keyed (legs.map (·.effect)) key := by
      rw [← groupLegs_effects]
      exact List.mem_map_of_mem listed
    obtain ⟨posted, own⟩ := mem_keyed.mp member
    rw [groupLegs_effects]
    have once : (keyed (legs.map (·.effect)) key).Nodup := whole.once.filter _
    have declared : (keyed plan.effects key).Nodup := assembled.effects_nodup.filter _
    rw [List.perm_ext_iff_of_nodup once declared]
    intro effect
    rw [mem_keyed, mem_keyed]
    constructor
    · rintro ⟨here, same⟩
      exact ⟨whole.declared effect here, same⟩
    · rintro ⟨here, same⟩
      exact ⟨whole.whole leg.effect (whole.declared _ posted) effect here
        (own.trans same.symm) posted, same⟩

/-- In the environment of the input, if it has one, the guards of one group agree. -/
def GuardsAgree (plan : CoordinationPlan) (input : TransitionInput) : Prop :=
  isTemporal plan = true ∨ ∀ env, (transitionEnv plan input).value = .ok env →
    ∀ first ∈ plan.effects, ∀ second ∈ plan.effects, first.guardKey = second.guardKey →
      fires env first = fires env second

section Hash

variable {sha256Hex : List UInt8 → String} {raw : PlanInputs} {plan : CoordinationPlan}
  {state : EvalState} {input : TransitionInput} {legs : List Pending}
  {obligations : List Observation}

theorem Commit.wholeGroups (assembled : Assembled raw plan) (agree : GuardsAgree plan input)
    (commit : Commit sha256Hex plan state input legs obligations) : WholeGroups plan legs := by
  cases commit with
  | evidence opens effectless declared accepted silent =>
      subst silent
      exact ⟨by simp, by simp, by simp⟩
  | @groups claim env infos opens classified committing effects resolved unobserved =>
      have member : ∀ effect, effect ∈ legs.map (·.effect) ↔
          effect ∈ plan.effects ∧ effect.guardKey ∈ committingGroups infos := by
        intro effect
        rw [effects, classified.mem_legs assembled]
      refine ⟨fun effect listed => ((member effect).mp listed).1, ?_, ?_⟩
      · rw [effects]
        exact classified.legs_nodup assembled
      · intro first _ second declared same posted
        rw [member] at posted ⊢
        exact ⟨declared, same ▸ posted.2⟩
  | @legs claim env opens effectful single effects resolved gated observed =>
      have member : ∀ effect, effect ∈ legs.map (·.effect) ↔
          effect ∈ plan.effects ∧ fires env effect = true := by
        intro effect
        rw [effects, List.mem_filter]
      have agree := agree.resolve_left (by simp [single]) env opens.evaluated
      refine ⟨fun effect listed => ((member effect).mp listed).1, ?_, ?_⟩
      · rw [effects]
        exact assembled.effects_nodup.filter _
      · intro first firstDeclared second declared same posted
        rw [member] at posted ⊢
        exact ⟨declared, (agree first firstDeclared second declared same).symm.trans posted.2⟩

theorem Commit.resolved (commit : Commit sha256Hex plan state input legs obligations) :
    ∃ env, ∀ leg ∈ legs, Resolved env input.symbols leg := by
  cases commit with
  | @evidence claim env opens effectless declared accepted silent =>
      exact ⟨env, by simp [silent]⟩
  | @groups claim env infos opens classified committing effects resolved => exact ⟨env, resolved⟩
  | @legs claim env opens effectful single effects resolved => exact ⟨env, resolved⟩

/-- The legs of each group are matched: every value debited in a currency is credited. -/
theorem WholeGroups.matched (assembled : Assembled raw plan) (balanced : plan.balanced = true)
    (whole : WholeGroups plan legs) {env : Env} {symbols : Std.ExtTreeMap String String}
    (resolved : ∀ leg ∈ legs, Resolved env symbols leg) (key : String) :
    Matched legCredit legMoved (groupLegs legs key) := by
  have own : ∀ leg ∈ groupLegs legs key, Resolved env symbols leg := fun leg listed =>
    resolved leg (List.mem_filter.mp listed).1
  rcases whole.group_cases assembled key with none | posted
  · rw [none]
    exact matched_nil legCredit legMoved
  · have posting : ∀ effect ∈ keyed plan.effects key, isPostingKind effect.kind = true := by
      intro effect member
      obtain ⟨leg, listed, rfl⟩ := List.mem_map.mp (posted.mem_iff.mpr member)
      exact (own leg listed).1
    have balancedLegs := (assembled.matched_keyed balanced key posting).of_perm posted.symm
    exact balancedLegs.of_map (fun _ _ => rfl) fun leg listed => (own leg listed).moved_eq

theorem netWhere_currency (currency : String) (legs : List Pending) :
    netWhere (fun account : Account => account.currency = currency) (legs.map (·.posting)) =
      (legs.map (signed legCredit legMoved fun moved =>
        if moved.2 = currency then moved.1 else 0)).sum := by
  induction legs with
  | nil => rfl
  | cons leg rest ih =>
      simp only [List.map_cons, List.sum_cons, netWhere_cons, ih, signed, legMoved,
        decide_eq_true_eq]
      congr 1
      split <;> split <;> simp_all

/-- Legs that post whole groups of a balanced plan net to nothing in every currency. -/
theorem WholeGroups.net_zero (assembled : Assembled raw plan) (balanced : plan.balanced = true)
    (whole : WholeGroups plan legs) {env : Env} {symbols : Std.ExtTreeMap String String}
    (resolved : ∀ leg ∈ legs, Resolved env symbols leg) (currency : String) :
    netWhere (fun account : Account => account.currency = currency) (legs.map (·.posting)) = 0 := by
  rw [netWhere_currency]
  exact (matched_of_keys (fun leg : Pending => leg.effect.guardKey) legs fun key =>
    whole.matched assembled balanced resolved key).net_zero _

theorem postedLegs_matched (assembled : Assembled raw plan) (balanced : plan.balanced = true)
    (agree : GuardsAgree plan input) (key : String) :
    Matched legCredit legMoved (groupLegs (postedLegs sha256Hex plan state input) key) := by
  rcases transition_cases sha256Hex assembled.idempotent state input with
    ⟨_, _, none⟩ | ⟨_, _, _, _, _, commits, _⟩
  · rw [none]
    exact matched_nil legCredit legMoved
  · have commit := commit_cases commits
    obtain ⟨env, resolved⟩ := commit.resolved
    exact (commit.wholeGroups assembled agree).matched assembled balanced resolved key

/-- A transition whose guards agree moves no value in any currency. -/
theorem total_nextState (assembled : Assembled raw plan) (balanced : plan.balanced = true)
    (agree : GuardsAgree plan input) (currency : String) :
    totalWhere (fun account => account.currency = currency)
        (nextState sha256Hex plan state input).balances =
      totalWhere (fun account => account.currency = currency) state.balances := by
  rcases transition_cases sha256Hex assembled.idempotent state input with
    ⟨_, same, _⟩ | ⟨settled, claim, env, record, _, commits, next, legs, committed⟩
  · rw [same]
  · have commit := commit_cases commits
    obtain ⟨env, resolved⟩ := commit.resolved
    have zero := (commit.wholeGroups assembled agree).net_zero assembled balanced resolved currency
    rw [legs] at zero
    have total := committed.store.total fun account => account.currency = currency
    rw [next]
    refine total.trans ?_
    rw [zero, Int.add_zero]
    rfl

end Hash

/-- Value conservation: over any run of a balanced plan from a spec in whose transitions the
guards of each group agree, the balances of every currency sum to zero, and every transition
credits what it debits, group by group. -/
theorem value_conserved (sha256Hex : List UInt8 → String) {spec : Json.Object}
    {plan : CoordinationPlan} (accepted : planFromSpec spec = .ok plan)
    (balanced : plan.balanced = true) {inputs : List TransitionInput}
    (agree : ∀ input ∈ inputs, GuardsAgree plan input) :
    (∀ currency, totalWhere (fun account => account.currency = currency)
      (run (nextState sha256Hex plan) EvalState.empty inputs).balances = 0) ∧
    ∀ visit ∈ visits (nextState sha256Hex plan) EvalState.empty inputs, ∀ key,
      Matched legCredit legMoved (groupLegs (postedLegs sha256Hex plan visit.1 visit.2) key) := by
  obtain ⟨raw, _, assembledPlan⟩ := bind_ok.mp accepted
  have assembled := assemblePlan_ok assembledPlan
  constructor
  · intro currency
    refine run_preserves (fun state : EvalState =>
      totalWhere (fun account => account.currency = currency) state.balances = 0) ?_
      (totalWhere_empty _)
    intro state input listed zero
    rw [total_nextState assembled balanced (agree input listed), zero]
  · intro visit visited key
    have listed : visit.2 ∈ inputs := by
      rw [← visits_snd (nextState sha256Hex plan) EvalState.empty inputs]
      exact List.mem_map_of_mem visited
    exact postedLegs_matched assembled balanced (agree visit.2 listed) key

/-! A payment between two parties as a capability spec, with the guards of its two legs. -/

def specText (members : List (String × String)) : Json :=
  .object (members.map fun member => (member.1, .string member.2))

def specLeg (name kind party : String) (guard : Option ExprNode) : Json :=
  .object ([("name", .string name), ("kind", .string kind), ("participant", .null),
    ("ledger", .string "cash"), ("memo", .string ""),
    ("idempotencyKey", specText [("kind", "ref"), ("value", "trade")]),
    ("amount", specText [("kind", "literal"), ("value", "5")]),
    ("currency", specText [("kind", "literal"), ("value", "EUR")]),
    ("party", specText [("kind", "literal"), ("value", party)])] ++
    match guard with
    | none => []
    | some guard => [("when", .object [("expr", .string "limit"), ("ast", exprToJson guard)])])

def specLifecycle : Json :=
  .object [("initialState", .string "open"),
    ("states", .array [specText [("name", "open")], specText [("name", "settled")]]),
    ("terminalStates", specText [("success", "settled")]),
    ("transitions", .array [.object [("name", .string "settle"), ("from", .string "open"),
      ("to", .string "settled"), ("effects", .array [.string "post"]), ("guards", .array []),
      ("idempotency", .string "reject")]])]

/-- The spec of a balanced payment over decimal inputs. -/
def paymentSpec (numbers : List String) (debitGuard creditGuard : Option ExprNode) :
    Json.Object :=
  [("procedure", .string "pay"), ("trigger", .string "PaymentDue"),
    ("inputs", .array (specText [("name", "trade"), ("type", "string")] ::
      numbers.map fun name => specText [("name", name), ("type", "decimal")])),
    ("participants", .array []), ("topology", .object [("allowedOrgPairs", .array [])]),
    ("invariants", .array [specText [("kind", "balanced")]]),
    ("effects", .array [specLeg "pay" "debit" "buyer" debitGuard,
      specLeg "receive" "credit" "seller" creditGuard]),
    ("lifecycle", specLifecycle)]

def specPlan (spec : Json.Object) : CoordinationPlan :=
  ((planFromSpec spec).toOption).getD default

theorem specPlan_accepted {spec : Json.Object}
    (accepted : (planFromSpec spec).toOption.isSome = true) :
    planFromSpec spec = .ok (specPlan spec) := by
  unfold specPlan
  cases planned : planFromSpec spec with
  | error failure => simp [planned, Except.toOption] at accepted
  | ok plan => rfl

def paymentInput (numbers : List (String × Int64)) : TransitionInput where
  numeric := .ofList numbers
  symbols := .ofList [("trade", "t-1")]
  attestations := ∅
  authorized := true

theorem value_conserved_sample :
    totalWhere (fun account => account.currency = "EUR")
      (run (nextState sampleHash (specPlan (paymentSpec [] none none))) EvalState.empty
        [paymentInput []]).balances = 0 := by
  have unguarded : ∀ effect ∈ (specPlan (paymentSpec [] none none)).effects,
      effect.guard.isNone = true := by decide +kernel
  refine (value_conserved sampleHash (specPlan_accepted (by decide +kernel)) (by decide +kernel)
    ?_).1 "EUR"
  intro input _
  refine .inr fun env _ first firstDeclared second secondDeclared _ => ?_
  have none := Option.isNone_iff_eq_none.mp (unguarded first firstDeclared)
  have none' := Option.isNone_iff_eq_none.mp (unguarded second secondDeclared)
  simp only [fires, none, none']

/-! Structural keys do not delimit names: two different guards over names with spaces share a
key, so a debit and a credit that fire apart pass as one balanced group. -/

def ambiguousSpec : Json.Object :=
  paymentSpec ["x", "y $z", "x $y", "z"]
    (some (.cmp ">" (.var "x" .decimal) (.var "y $z" .decimal) .extension))
    (some (.cmp ">" (.var "x $y" .decimal) (.var "z" .decimal) .extension))

def ambiguousInput : TransitionInput :=
  paymentInput [("x", 2), ("y $z", 1), ("x $y", 0), ("z", 1)]

theorem ambiguous_guards_lose_value :
    planFromSpec ambiguousSpec = .ok (specPlan ambiguousSpec) ∧
    (specPlan ambiguousSpec).balanced = true ∧
    (specPlan ambiguousSpec).effectGroups.length = 1 ∧
    (evaluateTransition sampleHash (specPlan ambiguousSpec) EvalState.empty
      ambiguousInput).outcome = .terminal ∧
    totalWhere (fun account => account.currency = "EUR")
      (run (nextState sampleHash (specPlan ambiguousSpec)) EvalState.empty
        [ambiguousInput]).balances = -5 := by
  refine ⟨specPlan_accepted (by decide +kernel), ?_, ?_, ?_, ?_⟩ <;> decide +kernel

end Neutrino
