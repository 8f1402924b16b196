import Neutrino.Conservation

/-! Observable traces: what a transition shows, the comparison of two traces, and the tampers the
comparison is tested with. -/

namespace Neutrino

open Ledger Run

@[ext] structure ObservedTrace where
  outcome : String
  computed : Std.ExtTreeMap String Int64
  events : List String
  ledger : Balances String
  terminal : String
  postedKeys : Std.ExtTreeSet String
  refusalCode : String

/-! The observation of a transition. -/

def outcomeName : Outcome → String
  | .progress | .terminal => "committed"
  | .replayed | .noProgress => "replayed"
  | .refused => "refused"

/-- The status of the first key; no key, no terminal. -/
def terminalOf (state : EvalState) : String := (state.keyStatus.toList.head?.map (·.2)).getD ""

/-- The balances as postings to their ledgers, in the order of the accounts. -/
def ledgerPostings (balances : List (Account × Int64)) : List (Posting String) :=
  balances.map fun entry => ⟨entry.1.ledger, entry.2⟩

def computedOf (trace : List Observation) : Std.ExtTreeMap String Int64 :=
  trace.foldl (fun computed observation =>
    match observation with
    | .compute name value => computed.insert name value
    | _ => computed) ∅

def eventsOf (trace : List Observation) : List String :=
  trace.filterMap fun observation =>
    match observation with
    | .event name => some name
    | _ => none

/-- The observation, unless the net of a ledger leaves `long long` on the way, which no defined
execution survives. -/
def observedFromTransition (result : TransitionResult) : Option ObservedTrace :=
  (postAll ∅ (ledgerPostings result.next.balances.toList)).map fun ledger => {
    outcome := outcomeName result.outcome
    computed := computedOf result.trace
    events := eventsOf result.trace
    ledger
    terminal := terminalOf result.next
    postedKeys := result.next.postedKeys
    refusalCode := result.refusalCode }

/-! Comparison. -/

structure TraceDivergence where
  diverged : Bool
  field : String
  locator : String
  expected : String
  actual : String
  deriving DecidableEq, Repr

def diverge (field locator expected actual : String) : TraceDivergence :=
  ⟨true, field, locator, expected, actual⟩

def compareField (field reference candidate : String) : Option TraceDivergence :=
  if reference = candidate then none else some (diverge field "" reference candidate)

/-- Every entry of the reference is the candidate's too. -/
def compareEntries (field : String) (candidate : Std.ExtTreeMap String Int64) :
    List (String × Int64) → Option TraceDivergence
  | [] => none
  | (key, value) :: rest =>
      match candidate[key]? with
      | none => some (diverge field key (toString value) "<absent>")
      | some other =>
          if other = value then compareEntries field candidate rest
          else some (diverge field key (toString value) (toString other))

/-- The candidate has no key of its own. -/
def compareExtra (field : String) (reference : Std.ExtTreeMap String Int64) :
    List (String × Int64) → Option TraceDivergence
  | [] => none
  | (key, value) :: rest =>
      if key ∈ reference then compareExtra field reference rest
      else some (diverge field key "<absent>" (toString value))

def compareMaps (field : String) (reference candidate : Std.ExtTreeMap String Int64) :
    Option TraceDivergence :=
  (compareEntries field candidate reference.toList).or
    (compareExtra field reference candidate.toList)

def compareEventsFrom (index : Nat) : List String → List String → Option TraceDivergence
  | expected :: reference, actual :: candidate =>
      if expected = actual then compareEventsFrom (index + 1) reference candidate
      else some (diverge "events" (toString index) expected actual)
  | _, _ => none

def compareEvents (reference candidate : List String) : Option TraceDivergence :=
  if reference.length = candidate.length then compareEventsFrom 0 reference candidate
  else some (diverge "events" "count" (toString reference.length) (toString candidate.length))

/-- The first key of the list that the set does not hold. -/
def missingKey (expected actual : String) (keys : Std.ExtTreeSet String) :
    List String → Option TraceDivergence
  | [] => none
  | key :: rest =>
      if key ∈ keys then missingKey expected actual keys rest
      else some (diverge "postedKeys" key expected actual)

def compareKeys (reference candidate : Std.ExtTreeSet String) : Option TraceDivergence :=
  if reference.toList = candidate.toList then none
  else
    (missingKey "present" "<absent>" candidate reference.toList).or
      (missingKey "<absent>" "present" reference candidate.toList)

def agreement : TraceDivergence := ⟨false, "", "", "", ""⟩

/-- The first divergence, field by field. -/
def compareTraces (reference candidate : ObservedTrace) : TraceDivergence :=
  (((((((compareField "outcome" reference.outcome candidate.outcome).or
    (compareField "refusalCode" reference.refusalCode candidate.refusalCode)).or
    (compareMaps "computed" reference.computed candidate.computed)).or
    (compareEvents reference.events candidate.events)).or
    (compareMaps "ledger" reference.ledger candidate.ledger)).or
    (compareField "terminal" reference.terminal candidate.terminal)).or
    (compareKeys reference.postedKeys candidate.postedKeys)).getD agreement

/-! Tampers. -/

inductive TamperKind
  | dropEffect
  | alterAmount
  | reorderObs
  | wrongTerminal
  | replayOmission
  | partialCommit
  | alterComputed
  | alterOutcome
  deriving DecidableEq, Repr

def parseTamperKind (token : String) : Option TamperKind :=
  if token = "drop_effect" then some .dropEffect
  else if token = "alter_amount" then some .alterAmount
  else if token = "reorder_obs" then some .reorderObs
  else if token = "wrong_terminal" then some .wrongTerminal
  else if token = "replay_omission" then some .replayOmission
  else if token = "partial_commit" then some .partialCommit
  else if token = "alter_computed" then some .alterComputed
  else if token = "alter_outcome" then some .alterOutcome
  else none

/-- The first entry one more; the sum wraps where it leaves 64 bits. -/
def alterFirst (map : Std.ExtTreeMap String Int64) : Std.ExtTreeMap String Int64 :=
  match map.toList with
  | [] => map
  | (key, value) :: _ => map.insert key (value + 1)

def dropFirst (map : Std.ExtTreeMap String Int64) : Std.ExtTreeMap String Int64 :=
  match map.toList with
  | [] => map
  | (key, _) :: _ => map.erase key

def dropFirstKey (keys : Std.ExtTreeSet String) : Std.ExtTreeSet String :=
  match keys.toList with
  | [] => keys
  | key :: _ => keys.erase key

def swapFirst : List String → List String
  | first :: second :: rest => second :: first :: rest
  | events => events

def applyTamper (trace : ObservedTrace) : TamperKind → ObservedTrace
  | .dropEffect => { trace with events := trace.events.dropLast }
  | .alterAmount => { trace with ledger := alterFirst trace.ledger }
  | .reorderObs => { trace with events := swapFirst trace.events }
  | .wrongTerminal => { trace with terminal := trace.terminal ++ "_TAMPERED" }
  | .replayOmission => { trace with postedKeys := dropFirstKey trace.postedKeys }
  | .partialCommit => { trace with ledger := dropFirst trace.ledger }
  | .alterComputed => { trace with computed := alterFirst trace.computed }
  | .alterOutcome =>
      { trace with outcome := if trace.outcome = "committed" then "replayed" else "committed" }

/-- The trace holds what the tamper breaks. -/
def Breakable (trace : ObservedTrace) : TamperKind → Prop
  | .dropEffect => trace.events ≠ []
  | .alterAmount => trace.ledger ≠ ∅
  | .reorderObs => ∃ first second rest, trace.events = first :: second :: rest ∧ first ≠ second
  | .wrongTerminal => True
  | .replayOmission => trace.postedKeys ≠ ∅
  | .partialCommit => trace.ledger ≠ ∅
  | .alterComputed => trace.computed ≠ ∅
  | .alterOutcome => True

/-! Comparison is equality. -/

theorem compareField_none {field reference candidate : String} :
    compareField field reference candidate = none ↔ reference = candidate := by
  unfold compareField
  split <;> simp [*]

theorem compareEntries_none {field : String} {candidate : Std.ExtTreeMap String Int64}
    {entries : List (String × Int64)} : compareEntries field candidate entries = none ↔
      ∀ entry ∈ entries, candidate[entry.1]? = some entry.2 := by
  induction entries with
  | nil => simp [compareEntries]
  | cons entry rest ih =>
      rw [List.forall_mem_cons, ← ih, compareEntries]
      cases found : candidate[entry.1]? with
      | none => simp
      | some other => by_cases same : other = entry.2 <;> simp [same]

theorem compareExtra_none {field : String} {reference : Std.ExtTreeMap String Int64}
    {entries : List (String × Int64)} : compareExtra field reference entries = none ↔
      ∀ entry ∈ entries, entry.1 ∈ reference := by
  induction entries with
  | nil => simp [compareExtra]
  | cons entry rest ih =>
      rw [List.forall_mem_cons, ← ih, compareExtra]
      by_cases known : entry.1 ∈ reference <;> simp [known]

/-- Two loops, one each way, decide equality of maps. -/
theorem compareMaps_none {field : String} {reference candidate : Std.ExtTreeMap String Int64} :
    compareMaps field reference candidate = none ↔ reference = candidate := by
  rw [compareMaps, Option.or_eq_none_iff, compareEntries_none, compareExtra_none]
  constructor
  · rintro ⟨values, keys⟩
    refine Std.ExtTreeMap.ext_getElem? fun key => ?_
    cases held : reference[key]? with
    | some value =>
        have listed := Std.ExtTreeMap.mem_toList_iff_getElem?_eq_some.mpr held
        exact (values _ listed).symm
    | none =>
        cases other : candidate[key]? with
        | none => rfl
        | some value =>
            have listed := Std.ExtTreeMap.mem_toList_iff_getElem?_eq_some.mpr other
            have known := Std.ExtTreeMap.mem_iff_isSome_getElem?.mp (keys _ listed)
            simp [held] at known
  · rintro rfl
    refine ⟨fun entry listed => Std.ExtTreeMap.mem_toList_iff_getElem?_eq_some.mp listed,
      fun entry listed => ?_⟩
    rw [Std.ExtTreeMap.mem_iff_isSome_getElem?,
      Std.ExtTreeMap.mem_toList_iff_getElem?_eq_some.mp listed]
    rfl

theorem compareEventsFrom_none {index : Nat} {reference candidate : List String}
    (length : reference.length = candidate.length) :
    compareEventsFrom index reference candidate = none ↔ reference = candidate := by
  induction reference generalizing index candidate with
  | nil =>
      obtain rfl := List.length_eq_zero_iff.mp length.symm
      simp [compareEventsFrom]
  | cons expected reference ih =>
      cases candidate with
      | nil => simp at length
      | cons actual candidate =>
          rw [compareEventsFrom]
          by_cases same : expected = actual
          · rw [if_pos same, ih (by simpa using length), List.cons.injEq]
            simp [same]
          · simp [same]

theorem compareEvents_none {reference candidate : List String} :
    compareEvents reference candidate = none ↔ reference = candidate := by
  unfold compareEvents
  split
  next length => exact compareEventsFrom_none length
  next length => exact iff_of_false (by simp) fun same => length (by rw [same])

theorem missingKey_none {expected actual : String} {keys : Std.ExtTreeSet String}
    {listed : List String} :
    missingKey expected actual keys listed = none ↔ ∀ key ∈ listed, key ∈ keys := by
  induction listed with
  | nil => simp [missingKey]
  | cons key rest ih =>
      rw [List.forall_mem_cons, ← ih, missingKey]
      by_cases known : key ∈ keys <;> simp [known]

theorem compareKeys_none {reference candidate : Std.ExtTreeSet String} :
    compareKeys reference candidate = none ↔ reference = candidate := by
  unfold compareKeys
  split
  next same => exact iff_of_true rfl (Std.ExtTreeSet.ext_toList (by rw [same]))
  next other =>
    rw [Option.or_eq_none_iff, missingKey_none, missingKey_none]
    constructor
    · rintro ⟨forth, back⟩
      refine Std.ExtTreeSet.ext_mem fun key => ⟨fun held => ?_, fun held => ?_⟩
      · exact forth key (Std.ExtTreeSet.mem_toList.mpr held)
      · exact back key (Std.ExtTreeSet.mem_toList.mpr held)
    · rintro rfl
      exact absurd rfl other

/-- Whatever a comparison reports is a divergence. -/
def Reports (found : Option TraceDivergence) : Prop := ∀ divergence ∈ found, divergence.diverged = true

theorem Reports.or {first second : Option TraceDivergence} (reports : Reports first)
    (reports' : Reports second) : Reports (first.or second) := by
  cases first with
  | none => exact reports'
  | some divergence => exact reports

theorem reports_diverge (field locator expected actual : String) :
    Reports (some (diverge field locator expected actual)) := by
  rintro _ ⟨⟩
  rfl

theorem reports_none : Reports none := by simp [Reports]

theorem compareField_reports (field reference candidate : String) :
    Reports (compareField field reference candidate) := by
  unfold compareField
  split
  · exact reports_none
  · exact reports_diverge _ _ _ _

theorem compareEntries_reports (field : String) (candidate : Std.ExtTreeMap String Int64)
    (entries : List (String × Int64)) : Reports (compareEntries field candidate entries) := by
  induction entries with
  | nil => exact reports_none
  | cons entry rest ih =>
      rw [compareEntries]
      split
      · exact reports_diverge _ _ _ _
      · split
        · exact ih
        · exact reports_diverge _ _ _ _

theorem compareExtra_reports (field : String) (reference : Std.ExtTreeMap String Int64)
    (entries : List (String × Int64)) : Reports (compareExtra field reference entries) := by
  induction entries with
  | nil => exact reports_none
  | cons entry rest ih =>
      rw [compareExtra]
      split
      · exact ih
      · exact reports_diverge _ _ _ _

theorem compareMaps_reports (field : String) (reference candidate : Std.ExtTreeMap String Int64) :
    Reports (compareMaps field reference candidate) :=
  (compareEntries_reports _ _ _).or (compareExtra_reports _ _ _)

theorem compareEventsFrom_reports (index : Nat) (reference candidate : List String) :
    Reports (compareEventsFrom index reference candidate) := by
  fun_induction compareEventsFrom index reference candidate with
  | case1 _ _ _ _ ih => exact ih
  | case2 => exact reports_diverge _ _ _ _
  | case3 => exact reports_none

theorem compareEvents_reports (reference candidate : List String) :
    Reports (compareEvents reference candidate) := by
  unfold compareEvents
  split
  · exact compareEventsFrom_reports _ _ _
  · exact reports_diverge _ _ _ _

theorem missingKey_reports (expected actual : String) (keys : Std.ExtTreeSet String)
    (listed : List String) : Reports (missingKey expected actual keys listed) := by
  induction listed with
  | nil => exact reports_none
  | cons key rest ih =>
      rw [missingKey]
      split
      · exact ih
      · exact reports_diverge _ _ _ _

theorem compareKeys_reports (reference candidate : Std.ExtTreeSet String) :
    Reports (compareKeys reference candidate) := by
  unfold compareKeys
  split
  · exact reports_none
  · exact (missingKey_reports _ _ _ _).or (missingKey_reports _ _ _ _)

theorem Reports.agrees {found : Option TraceDivergence} (reports : Reports found) :
    (found.getD agreement).diverged = false ↔ found = none := by
  cases found with
  | none => simp [agreement]
  | some divergence => simp [reports divergence rfl]

theorem compareTraces_agrees {reference candidate : ObservedTrace} :
    (compareTraces reference candidate).diverged = false ↔ reference = candidate := by
  have reports := ((((((compareField_reports "outcome" reference.outcome candidate.outcome).or
    (compareField_reports "refusalCode" reference.refusalCode candidate.refusalCode)).or
    (compareMaps_reports "computed" reference.computed candidate.computed)).or
    (compareEvents_reports reference.events candidate.events)).or
    (compareMaps_reports "ledger" reference.ledger candidate.ledger)).or
    (compareField_reports "terminal" reference.terminal candidate.terminal)).or
    (compareKeys_reports reference.postedKeys candidate.postedKeys)
  rw [compareTraces, reports.agrees]
  simp only [Option.or_eq_none_iff, compareField_none, compareMaps_none, compareEvents_none,
    compareKeys_none, ObservedTrace.ext_iff]
  tauto

/-! Every tamper shows. -/

theorem alterFirst_ne {map : Std.ExtTreeMap String Int64} (filled : map ≠ ∅) :
    alterFirst map ≠ map := by
  intro same
  unfold alterFirst at same
  split at same
  next empty => exact filled (Std.ExtTreeMap.toList_eq_nil_iff.mp empty)
  next key value rest listed =>
    have held : map[key]? = some value :=
      Std.ExtTreeMap.mem_toList_iff_getElem?_eq_some.mp (by rw [listed]; exact List.mem_cons_self)
    have altered := congrArg (fun map : Std.ExtTreeMap String Int64 => map[key]?) same
    simp only [Std.ExtTreeMap.getElem?_insert_self, held, Option.some.injEq] at altered
    exact absurd altered (by simp)

theorem dropFirst_ne {map : Std.ExtTreeMap String Int64} (filled : map ≠ ∅) :
    dropFirst map ≠ map := by
  intro same
  unfold dropFirst at same
  split at same
  next empty => exact filled (Std.ExtTreeMap.toList_eq_nil_iff.mp empty)
  next key value rest listed =>
    have held : map[key]? = some value :=
      Std.ExtTreeMap.mem_toList_iff_getElem?_eq_some.mp (by rw [listed]; exact List.mem_cons_self)
    have dropped := congrArg (fun map : Std.ExtTreeMap String Int64 => map[key]?) same
    simp [held] at dropped

theorem dropFirstKey_ne {keys : Std.ExtTreeSet String} (filled : keys ≠ ∅) :
    dropFirstKey keys ≠ keys := by
  intro same
  unfold dropFirstKey at same
  split at same
  next empty => exact filled (Std.ExtTreeSet.toList_eq_nil_iff.mp empty)
  next key rest listed =>
    have held : key ∈ keys := Std.ExtTreeSet.mem_toList.mp (by rw [listed]; exact List.mem_cons_self)
    rw [← same] at held
    simp at held

theorem applyTamper_ne {trace : ObservedTrace} {kind : TamperKind}
    (breakable : Breakable trace kind) : trace ≠ applyTamper trace kind := by
  intro same
  cases kind with
  | dropEffect =>
      have events := congrArg (fun trace => trace.events.length) same
      have some := List.length_pos_iff.mpr breakable
      simp only [applyTamper, List.length_dropLast] at events
      omega
  | alterAmount => exact alterFirst_ne breakable (congrArg ObservedTrace.ledger same).symm
  | reorderObs =>
      obtain ⟨first, second, rest, listed, different⟩ := breakable
      have events := congrArg ObservedTrace.events same
      rw [applyTamper, listed] at events
      exact different (List.cons.inj events).1
  | wrongTerminal =>
      have terminal := congrArg (fun trace => trace.terminal.length) same
      have added : "_TAMPERED".length = 9 := by decide
      simp only [applyTamper, String.length_append, added] at terminal
      omega
  | replayOmission => exact dropFirstKey_ne breakable (congrArg ObservedTrace.postedKeys same).symm
  | partialCommit => exact dropFirst_ne breakable (congrArg ObservedTrace.ledger same).symm
  | alterComputed => exact alterFirst_ne breakable (congrArg ObservedTrace.computed same).symm
  | alterOutcome =>
      have outcome := congrArg ObservedTrace.outcome same
      simp only [applyTamper] at outcome
      split at outcome
      next committed => exact absurd (committed.symm.trans outcome) (by decide)
      next other => exact other outcome

/-- Traces agree exactly when they are equal, and every tamper that finds something to break
shows. -/
theorem trace_comparison_exact :
    (∀ reference candidate,
      (compareTraces reference candidate).diverged = false ↔ reference = candidate) ∧
    ∀ trace kind, Breakable trace kind →
      (compareTraces trace (applyTamper trace kind)).diverged = true := by
  refine ⟨fun reference candidate => compareTraces_agrees, fun trace kind breakable => ?_⟩
  rw [← Bool.not_eq_false, compareTraces_agrees]
  exact applyTamper_ne breakable

/-- Two events in a row, the trace of nothing else. -/
def twoEvents : ObservedTrace := ⟨"committed", ∅, ["PayDebited", "ReceiveCredited"], ∅, "settled", ∅, ""⟩

theorem reordering_shows :
    (compareTraces twoEvents (applyTamper twoEvents .reorderObs)).diverged = true :=
  trace_comparison_exact.2 twoEvents .reorderObs ⟨_, _, [], rfl, by decide⟩

/-! Netting by ledger. -/

/-- The sum over the entries of one ledger. -/
def ledgerSum (ledger : String) (entries : List (Account × Int64)) : Int :=
  ((entries.filter fun entry => entry.1.ledger = ledger).map (·.2.toInt)).sum

/-- Added up in the order of the accounts, the balances of no ledger leave 64 bits on the way. -/
def LedgersFit (balances : Balances Account) : Prop :=
  ∀ before, before <+: balances.toList → ∀ ledger, MachineInt.Fits (ledgerSum ledger before)

/-- The observation is defined, and shows for every ledger the sum of its accounts. -/
def NetsExactly (result : TransitionResult) : Prop :=
  ∃ observed, observedFromTransition result = some observed ∧ ∀ ledger,
    (balance observed.ledger ledger).toInt =
      totalWhere (fun account => account.ledger = ledger) result.next.balances

theorem netWhere_ledgerPostings (ledger : String) (entries : List (Account × Int64)) :
    netWhere (fun key => key = ledger) (ledgerPostings entries) = ledgerSum ledger entries := by
  simp only [netWhere, ledgerPostings, ledgerSum, List.filter_map, List.map_map]
  rfl

theorem totalWhere_ledger (ledger : String) (balances : Balances Account) :
    totalWhere (fun account => account.ledger = ledger) balances = ledgerSum ledger balances.toList :=
  rfl

theorem ledgersFit_iff {balances : Balances Account} : LedgersFit balances ↔
    ∃ nets, postAll (∅ : Balances String) (ledgerPostings balances.toList) = some nets := by
  rw [postAll_fits]
  simp only [balance_empty, Int64.toInt_zero, Int.zero_add]
  constructor
  · intro fits before starts ledger
    have same : before = ledgerPostings (balances.toList.take before.length) :=
      (List.prefix_iff_eq_take.mp starts).trans (List.map_take ..).symm
    rw [same, netWhere_ledgerPostings]
    exact fits _ (List.take_prefix _ _) ledger
  · intro fits before starts ledger
    rw [← netWhere_ledgerPostings]
    exact fits _ (starts.map _) ledger

theorem netsExactly_iff (result : TransitionResult) :
    NetsExactly result ↔ LedgersFit result.next.balances := by
  rw [ledgersFit_iff]
  constructor
  · rintro ⟨observed, seen, _⟩
    obtain ⟨nets, accepted, _⟩ := Option.map_eq_some_iff.mp seen
    exact ⟨nets, accepted⟩
  · rintro ⟨nets, accepted⟩
    refine ⟨_, Option.map_eq_some_iff.mpr ⟨nets, accepted, rfl⟩, fun ledger => ?_⟩
    rw [balance_postAll accepted, netWhere_ledgerPostings, totalWhere_ledger]
    simp

def specRef (value : String) : Json := specText [("kind", "ref"), ("value", value)]

def openLeg (name kind party : String) : Json :=
  .object [("name", .string name), ("kind", .string kind), ("participant", .null),
    ("ledger", .string "cash"), ("memo", .string ""), ("idempotencyKey", specRef "trade"),
    ("amount", specRef "amount"), ("currency", specText [("kind", "literal"), ("value", "EUR")]),
    ("party", specRef party)]

def openSpec : Json.Object :=
  [("procedure", .string "pay"), ("trigger", .string "PaymentDue"),
    ("inputs", .array [specText [("name", "trade"), ("type", "string")],
      specText [("name", "payer"), ("type", "string")],
      specText [("name", "payee"), ("type", "string")],
      specText [("name", "amount"), ("type", "decimal")]]),
    ("participants", .array []), ("topology", .object [("allowedOrgPairs", .array [])]),
    ("invariants", .array [specText [("kind", "balanced")]]),
    ("effects", .array [openLeg "pay" "debit" "payer", openLeg "receive" "credit" "payee"]),
    ("lifecycle", specLifecycle)]

def openPayment (trade payer payee : String) (amount : Int64) : TransitionInput where
  numeric := .ofList [("amount", amount)]
  symbols := .ofList [("trade", trade), ("payer", payer), ("payee", payee)]
  attestations := ∅
  authorized := true

def largestAmount : Int64 := Int64.ofInt (2 ^ 63 - 1)

end Neutrino
