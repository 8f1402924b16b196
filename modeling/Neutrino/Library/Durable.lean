import Mathlib

/-! Computations over a state that outlives their failures: what every run keeps, and when a run
returns. -/

namespace Durable

variable {ε σ α β : Type}

/-- A computation that leaves the state it reached behind, also where it fails. -/
abbrev Action (ε σ α : Type) := ExceptT ε (StateM σ) α

def act (run : σ → Except ε α × σ) : Action ε σ α := ExceptT.mk run

def exec (action : Action ε σ α) (state : σ) : Except ε α × σ := action.run state

def check (result : Except ε α) : Action ε σ α := act fun state => (result, state)

/-- The same computation with its failures reported another way. -/
def wrap {δ : Type} (report : ε → δ) (action : Action ε σ α) : Action δ σ α :=
  act fun state => ((exec action state).1.mapError report, (exec action state).2)

/-- Runs a step on each element and keeps what the steps return. -/
def collect (step : α → Action ε σ β) : List α → Action ε σ (List β)
  | [] => pure []
  | first :: rest => do
      let here ← step first
      let later ← collect step rest
      return here :: later

@[simp] theorem exec_act (run : σ → Except ε α × σ) (state : σ) : exec (act run) state = run state :=
  rfl

@[simp] theorem exec_pure (value : α) (state : σ) :
    exec (pure value : Action ε σ α) state = (.ok value, state) :=
  rfl

@[simp] theorem exec_throw (failure : ε) (state : σ) :
    exec (throw failure : Action ε σ α) state = (.error failure, state) :=
  rfl

theorem exec_bind (first : Action ε σ α) (next : α → Action ε σ β) (state : σ) :
    exec (first >>= next) state =
      match exec first state with
      | (.ok value, after) => exec (next value) after
      | (.error failure, after) => (.error failure, after) := by
  show exec (ExceptT.bind first next) state = _
  unfold exec ExceptT.bind
  simp only [ExceptT.run_mk]
  show (StateT.bind first (ExceptT.bindCont next)) state = _
  unfold StateT.bind
  cases ran : first state with
  | mk result after => cases result <;> simp_all [ExceptT.run, ExceptT.bindCont] <;> rfl

/-- A sequence that returned returned at each of its parts. -/
theorem exec_bind_ok {first : Action ε σ α} {next : α → Action ε σ β} {state last : σ} {result : β} :
    exec (first >>= next) state = (.ok result, last) ↔
      ∃ value middle, exec first state = (.ok value, middle) ∧
        exec (next value) middle = (.ok result, last) := by
  rw [exec_bind]
  cases exec first state with
  | mk result after => cases result <;> simp

/-! What every run keeps. -/

/-- Where an invariant holds before a run it holds after it, and what the run returns, if it
does, is as described. -/
def Maintains (invariant : σ → Prop) (action : Action ε σ α) (returned : α → Prop) : Prop :=
  ∀ state, invariant state → invariant (exec action state).2 ∧
    ∀ value, (exec action state).1 = .ok value → returned value

section Maintains

variable {invariant : σ → Prop} {returned : α → Prop} {first : Action ε σ α}

theorem maintains_pure {value : α} (holds : returned value) :
    Maintains invariant (pure value : Action ε σ α) returned := by
  intro state before
  refine ⟨before, fun other same => ?_⟩
  obtain rfl := Except.ok.inj same
  exact holds

theorem maintains_throw (failure : ε) :
    Maintains invariant (throw failure : Action ε σ α) returned := by
  intro state before
  exact ⟨before, fun other same => by cases same⟩

theorem Maintains.bind {next : α → Action ε σ β} {last : β → Prop}
    (here : Maintains invariant first returned)
    (later : ∀ value, returned value → Maintains invariant (next value) last) :
    Maintains invariant (first >>= next) last := by
  intro state before
  obtain ⟨kept, described⟩ := here state before
  rw [exec_bind]
  cases ran : exec first state with
  | mk result after =>
      rw [ran] at kept described
      cases result with
      | ok value => exact later value (described value rfl) after kept
      | error failure => exact ⟨kept, fun value same => by cases same⟩

theorem Maintains.wrap {δ : Type} {report : ε → δ} (holds : Maintains invariant first returned) :
    Maintains invariant (Durable.wrap report first) returned := by
  intro state before
  obtain ⟨kept, described⟩ := holds state before
  refine ⟨kept, fun value same => described value ?_⟩
  rw [Durable.wrap, exec_act] at same
  cases ran : (exec first state).1 with
  | ok other =>
      rw [ran] at same
      rw [Except.ok.inj same]
  | error failure =>
      rw [ran] at same
      cases same

theorem maintains_check {result : Except ε α}
    (holds : ∀ value, result = .ok value → returned value) :
    Maintains invariant (check result) returned := by
  intro state before
  exact ⟨before, holds⟩

theorem maintains_collect {step : β → Action ε σ α} {elements : List β}
    (each : ∀ element ∈ elements, Maintains invariant (step element) returned) :
    Maintains invariant (collect step elements) fun results => ∀ value ∈ results, returned value := by
  induction elements with
  | nil => exact maintains_pure (by simp)
  | cons element rest ih =>
      rw [List.forall_mem_cons] at each
      refine each.1.bind fun here held => (ih each.2).bind fun later holds => maintains_pure ?_
      exact List.forall_mem_cons.mpr ⟨held, holds⟩

end Maintains

/-! When a run returns. -/

/-- The run returns, and what then holds. -/
def Returns (action : Action ε σ α) (state : σ) (post : α → σ → Prop) : Prop :=
  ∃ value after, exec action state = (.ok value, after) ∧ post value after

section Returns

variable {state : σ} {post : α → σ → Prop} {first : Action ε σ α}

theorem returns_pure {value : α} (holds : post value state) :
    Returns (pure value : Action ε σ α) state post :=
  ⟨value, state, rfl, holds⟩

theorem Returns.bind {next : α → Action ε σ β} {last : β → σ → Prop}
    (here : Returns first state post)
    (later : ∀ value after, post value after → Returns (next value) after last) :
    Returns (first >>= next) state last := by
  obtain ⟨value, middle, ran, holds⟩ := here
  obtain ⟨result, after, ran', holds'⟩ := later value middle holds
  exact ⟨result, after, exec_bind_ok.mpr ⟨value, middle, ran, ran'⟩, holds'⟩

theorem Returns.imp {weaker : α → σ → Prop} (holds : Returns first state post)
    (implies : ∀ value after, post value after → weaker value after) :
    Returns first state weaker := by
  obtain ⟨value, after, ran, held⟩ := holds
  exact ⟨value, after, ran, implies value after held⟩

theorem Returns.wrap {δ : Type} {report : ε → δ} (holds : Returns first state post) :
    Returns (Durable.wrap report first) state post := by
  obtain ⟨value, after, ran, held⟩ := holds
  refine ⟨value, after, ?_, held⟩
  rw [Durable.wrap, exec_act, ran]
  rfl

theorem returns_check {result : Except ε α} {value : α} (returned : result = .ok value)
    (holds : post value state) : Returns (check result) state post :=
  ⟨value, state, by rw [check, exec_act, returned], holds⟩

theorem returns_collect_from {step : β → Action ε σ α} {elements : List β}
    (invariant : List β → List α → σ → Prop)
    (each : ∀ earlier element later results state, elements = earlier ++ element :: later →
      invariant earlier results state → Returns (step element) state fun here after =>
        invariant (earlier ++ [element]) (results ++ [here]) after)
    {earlier later : List β} {results : List α} (split : elements = earlier ++ later)
    (holds : invariant earlier results state) :
    Returns (collect step later) state fun more after =>
      invariant elements (results ++ more) after := by
  induction later generalizing earlier results state with
  | nil =>
      rw [List.append_nil] at split
      refine returns_pure ?_
      rw [List.append_nil, split]
      exact holds
  | cons element rest ih =>
      refine (each earlier element rest results state split holds).bind fun here middle held => ?_
      refine (@ih _ (earlier ++ [element]) _ ?_ held).bind fun more after done => ?_
      · rw [split, List.append_assoc, List.singleton_append]
      · refine returns_pure ?_
        rwa [List.append_assoc, List.singleton_append] at done

/-- A loop returns where each of its steps does from what the steps before it leave. -/
theorem returns_collect {step : β → Action ε σ α} {elements : List β}
    (invariant : List β → List α → σ → Prop)
    (each : ∀ earlier element later results state, elements = earlier ++ element :: later →
      invariant earlier results state → Returns (step element) state fun here after =>
        invariant (earlier ++ [element]) (results ++ [here]) after)
    (holds : invariant [] [] state) :
    Returns (collect step elements) state fun results after => invariant elements results after :=
  returns_collect_from invariant each (List.nil_append _).symm holds

end Returns

end Durable
