import Neutrino.Library.Checked

/-! Computations over a state that may fail, and the rules for what holds after them. -/

namespace Stateful

variable {σ ε α β : Type}

/-- What holds of a computation from one state: `post` where it returns and `allowed` where it
fails. -/
def Ensures (allowed : ε → Prop) (run : StateT σ (Except ε) α) (state : σ)
    (post : α → σ → Prop) : Prop :=
  match run state with
  | .ok (value, after) => post value after
  | .error failure => allowed failure

/-- Runs a step on each element and joins what the steps return. -/
def concat (step : α → StateT σ (Except ε) (List β)) : List α → StateT σ (Except ε) (List β)
  | [] => pure []
  | first :: rest => do
      let here ← step first
      let later ← concat step rest
      return here ++ later

/-- A check leaves the state alone. -/
def check (result : Except ε α) : StateT σ (Except ε) α := fun state =>
  result.map fun value => (value, state)

variable {allowed : ε → Prop} {state : σ} {post : α → σ → Prop}

theorem ensures_pure {value : α} (holds : post value state) :
    Ensures allowed (pure value : StateT σ (Except ε) α) state post :=
  holds

theorem ensures_throw {failure : ε} (permitted : allowed failure) :
    Ensures allowed (throw failure : StateT σ (Except ε) α) state post :=
  permitted

theorem ensures_bind {first : StateT σ (Except ε) α} {next : α → StateT σ (Except ε) β}
    {post : β → σ → Prop}
    (holds : Ensures allowed first state fun value after => Ensures allowed (next value) after post) :
    Ensures allowed (first >>= next) state post := by
  unfold Ensures at holds ⊢
  rw [show (first >>= next) state = (first state >>= fun result => next result.1 result.2) from rfl]
  cases ran : first state with
  | error failure =>
      rw [ran] at holds
      exact holds
  | ok result =>
      rw [ran] at holds
      exact holds

theorem Ensures.imp {run : StateT σ (Except ε) α} {post' : α → σ → Prop}
    (holds : Ensures allowed run state post)
    (weaker : ∀ value after, post value after → post' value after) :
    Ensures allowed run state post' := by
  unfold Ensures at holds ⊢
  cases ran : run state with
  | error failure =>
      rw [ran] at holds
      exact holds
  | ok result =>
      rw [ran] at holds
      exact weaker _ _ holds

theorem ensures_check {result : Except ε α}
    (failed : ∀ failure, result = .error failure → allowed failure)
    (passed : ∀ value, result = .ok value → post value state) :
    Ensures allowed (check result) state post := by
  cases result with
  | error failure => exact failed failure rfl
  | ok value => exact passed value rfl

theorem ensures_concat_from {step : α → StateT σ (Except ε) (List β)} {elements : List α}
    (invariant : List β → σ → Prop)
    (kept : ∀ element ∈ elements, ∀ before state, invariant before state →
      Ensures allowed (step element) state fun here after => invariant (before ++ here) after)
    {before : List β} (holds : invariant before state) :
    Ensures allowed (concat step elements) state fun out after =>
      invariant (before ++ out) after := by
  induction elements generalizing before state with
  | nil =>
      refine ensures_pure ?_
      rw [List.append_nil]
      exact holds
  | cons first rest ih =>
      rw [List.forall_mem_cons] at kept
      refine ensures_bind ((kept.1 before state holds).imp fun here middle held => ?_)
      refine ensures_bind ((ih kept.2 held).imp fun later after done => ?_)
      refine ensures_pure ?_
      rw [← List.append_assoc]
      exact done

/-- What each step keeps, with what it returns added, all of them keep. -/
theorem ensures_concat {step : α → StateT σ (Except ε) (List β)} {elements : List α}
    (invariant : List β → σ → Prop)
    (kept : ∀ element ∈ elements, ∀ before state, invariant before state →
      Ensures allowed (step element) state fun here after => invariant (before ++ here) after)
    (holds : invariant [] state) : Ensures allowed (concat step elements) state invariant :=
  ensures_concat_from invariant kept holds

theorem ensures_get {post : σ → σ → Prop} (holds : post state state) :
    Ensures allowed (get : StateT σ (Except ε) σ) state post :=
  holds

theorem ensures_modify {change : σ → σ} {post : PUnit → σ → Prop}
    (holds : post ⟨⟩ (change state)) :
    Ensures allowed (modify change : StateT σ (Except ε) PUnit) state post :=
  holds

/-- A run that returned did not fail. -/
theorem Ensures.of_ok {run : StateT σ (Except ε) α} (holds : Ensures allowed run state post)
    {value : α} {after : σ} (returned : run state = .ok (value, after)) : post value after := by
  rw [Ensures, returned] at holds
  exact holds

end Stateful
