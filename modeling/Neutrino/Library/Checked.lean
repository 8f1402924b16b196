import Mathlib

/-! Fallible checks in sequence: what a whole sequence accepted, read off step by step. -/

namespace Checked

variable {ε α β : Type}

/-- Passes exactly when the condition holds. -/
def require (condition : Prop) [Decidable condition] (failure : ε) : Except ε Unit :=
  if condition then .ok () else .error failure

theorem ok_bind (value : α) (next : α → Except ε β) :
    ((.ok value : Except ε α) >>= next) = next value :=
  rfl

theorem bind_ok {first : Except ε α} {next : α → Except ε β} {result : β} :
    (first >>= next) = .ok result ↔ ∃ value, first = .ok value ∧ next value = .ok result := by
  cases first with
  | error failure => simp [bind, Except.bind]
  | ok value => simp [bind, Except.bind]

/-- A check passes before what follows it. -/
theorem check_ok {first : Except ε Unit} {next : Unit → Except ε β} {result : β} :
    (first >>= next) = .ok result ↔ first = .ok () ∧ next () = .ok result := by
  rw [bind_ok]
  exact ⟨fun ⟨_, here, later⟩ => ⟨here, later⟩, fun ⟨here, later⟩ => ⟨(), here, later⟩⟩

theorem map_ok {first : Except ε α} {next : α → β} {result : β} :
    next <$> first = .ok result ↔ ∃ value, first = .ok value ∧ next value = result := by
  cases first with
  | error failure => simp [Functor.map, Except.map]
  | ok value => simp [Functor.map, Except.map]

theorem bind_error {first : Except ε α} {next : α → Except ε β} {failure : ε} :
    (first >>= next) = .error failure ↔
      first = .error failure ∨ ∃ value, first = .ok value ∧ next value = .error failure := by
  cases first with
  | error failure => simp [bind, Except.bind]
  | ok value => simp [bind, Except.bind]

@[simp] theorem pure_ok {value result : α} :
    (pure value : Except ε α) = .ok result ↔ value = result := by
  simp [pure, Except.pure]

@[simp] theorem require_ok {condition : Prop} [Decidable condition] {failure : ε} {passed : Unit} :
    require condition failure = .ok passed ↔ condition := by
  simp [require]

@[simp] theorem require_error {condition : Prop} [Decidable condition] {failure found : ε} :
    require condition failure = .error found ↔ ¬condition ∧ failure = found := by
  unfold require
  split <;> rename_i decided <;> simp [decided]

theorem require_congr {condition other : Prop} [Decidable condition] [Decidable other]
    {failure : ε} (same : condition ↔ other) : require condition failure = require other failure := by
  simp only [require, same]

theorem toOption_eq_some {result : Except ε α} {value : α} :
    result.toOption = some value ↔ result = .ok value := by
  cases result <;> simp [Except.toOption]

theorem mapError_ok {δ : Type} {result : Except ε α} {wrap : ε → δ} {value : α} :
    result.mapError wrap = .ok value ↔ result = .ok value := by
  cases result <;> simp [Except.mapError]

theorem mapError_error {δ : Type} {result : Except ε α} {wrap : ε → δ} {failure : δ} :
    result.mapError wrap = .error failure ↔
      ∃ inner, result = .error inner ∧ wrap inner = failure := by
  cases result <;> simp [Except.mapError]

theorem isOk_exists {value : Except ε α} :
    value.isOk = true ↔ ∃ result, value = .ok result := by
  cases value <;> simp [Except.isOk, Except.toBool]

/-- A sequence whose parts are seen through functions is itself seen through the last one. -/
theorem bind_map {α' β' : Type} {first : Except ε α} {first' : Except ε α'}
    {next : α → Except ε β} {next' : α' → Except ε β'} {f : α → α'} {g : β → β'}
    (here : first' = first.map f) (later : ∀ value, next' (f value) = (next value).map g) :
    first' >>= next' = (first >>= next).map g := by
  subst here
  cases first with
  | error failure => rfl
  | ok value => exact later value

/-- A common first part leaves only what follows it. -/
theorem bind_map_same {β' : Type} {first : Except ε α} {next : α → Except ε β}
    {next' : α → Except ε β'} {g : β → β'} (later : ∀ value, next' value = (next value).map g) :
    first >>= next' = (first >>= next).map g := by
  cases first with
  | error failure => rfl
  | ok value => exact later value

/-- Runs one check on every element and stops at the first failure. -/
def each (check : α → Except ε Unit) : List α → Except ε Unit
  | [] => .ok ()
  | first :: rest => do
      check first
      each check rest

theorem each_ok {check : α → Except ε Unit} {elements : List α} :
    each check elements = .ok () ↔ ∀ element ∈ elements, check element = .ok () := by
  induction elements with
  | nil => simp [each]
  | cons first rest ih =>
      simp only [each, bind_ok, ih, List.forall_mem_cons]
      exact ⟨fun ⟨_, here, later⟩ => ⟨here, later⟩, fun ⟨here, later⟩ => ⟨(), here, later⟩⟩

theorem each_error {check : α → Except ε Unit} {elements : List α} {failure : ε}
    (failed : each check elements = .error failure) :
    ∃ element ∈ elements, check element = .error failure := by
  induction elements with
  | nil => simp [each] at failed
  | cons first rest ih =>
      rcases bind_error.mp failed with here | ⟨_, -, later⟩
      · exact ⟨first, List.mem_cons_self, here⟩
      · obtain ⟨element, listed, there⟩ := ih later
        exact ⟨element, List.mem_cons_of_mem _ listed, there⟩

/-- Builds one result for every element and stops at the first failure. -/
def collect (build : α → Except ε β) : List α → Except ε (List β)
  | [] => .ok []
  | first :: rest => do
      let built ← build first
      let others ← collect build rest
      return built :: others

theorem collect_ok {build : α → Except ε β} {elements : List α} {results : List β} :
    collect build elements = .ok results ↔
      List.Forall₂ (fun element result => build element = .ok result) elements results := by
  induction elements generalizing results with
  | nil => cases results <;> simp [collect]
  | cons first rest ih =>
      cases results with
      | nil => simp [collect, bind_ok, map_ok]
      | cons head tail => simp [collect, bind_ok, map_ok, ih]

theorem forall₂_getElem? {related : α → β → Prop} {first : List α} {second : List β}
    (pairs : List.Forall₂ related first second) {index : Nat} {x : α}
    (found : first[index]? = some x) : ∃ y, second[index]? = some y ∧ related x y := by
  obtain ⟨inside, rfl⟩ := List.getElem?_eq_some_iff.mp found
  have other : index < second.length := pairs.length_eq ▸ inside
  exact ⟨second[index], List.getElem?_eq_getElem other, pairs.get inside other⟩

theorem collect_eq_map {build : α → Except ε β} {result : α → β} {elements : List α}
    {results : List β} (built : ∀ element value, build element = .ok value →
      value = result element) (accepted : collect build elements = .ok results) :
    results = elements.map result := by
  have pairs := collect_ok.mp accepted
  clear accepted
  induction pairs with
  | nil => rfl
  | cons here _ ih => rw [List.map_cons, ← ih, built _ _ here]

/-- Results from which the elements can be read back list them in order. -/
theorem collect_project {build : α → Except ε β} {project : β → α} {elements : List α}
    {results : List β} (built : ∀ element value, build element = .ok value →
      project value = element) (accepted : collect build elements = .ok results) :
    results.map project = elements := by
  have pairs := collect_ok.mp accepted
  clear accepted
  induction pairs with
  | nil => rfl
  | cons here _ ih => rw [List.map_cons, ih, built _ _ here]

theorem collect_mem {build : α → Except ε β} {elements : List α} {results : List β}
    (accepted : collect build elements = .ok results) {element : α}
    (listed : element ∈ elements) : ∃ value ∈ results, build element = .ok value := by
  have pairs := collect_ok.mp accepted
  clear accepted
  induction pairs with
  | nil => simp at listed
  | cons here _ ih =>
      rcases List.mem_cons.mp listed with rfl | later
      · exact ⟨_, List.mem_cons_self, here⟩
      · obtain ⟨value, present, built⟩ := ih later
        exact ⟨value, List.mem_cons_of_mem _ present, built⟩

theorem collect_mem_result {build : α → Except ε β} {elements : List α} {results : List β}
    (accepted : collect build elements = .ok results) {value : β}
    (listed : value ∈ results) : ∃ element ∈ elements, build element = .ok value := by
  have pairs := collect_ok.mp accepted
  clear accepted
  induction pairs with
  | nil => simp at listed
  | cons here _ ih =>
      rcases List.mem_cons.mp listed with rfl | later
      · exact ⟨_, List.mem_cons_self, here⟩
      · obtain ⟨element, present, built⟩ := ih later
        exact ⟨element, List.mem_cons_of_mem _ present, built⟩

theorem collect_perm {build : α → Except ε β} {elements others : List α} {results : List β}
    (permuted : elements.Perm others) (accepted : collect build elements = .ok results) :
    ∃ results', collect build others = .ok results' ∧ results.Perm results' := by
  induction permuted generalizing results with
  | nil => exact ⟨results, accepted, .refl _⟩
  | cons first _ ih =>
      obtain ⟨built, here, accepted⟩ := bind_ok.mp accepted
      obtain ⟨rest, later, accepted⟩ := bind_ok.mp accepted
      cases accepted
      obtain ⟨rest', later', same⟩ := ih later
      exact ⟨built :: rest', by simp [collect, bind_ok, here, later'], same.cons built⟩
  | swap first second rest =>
      obtain ⟨one, here, accepted⟩ := bind_ok.mp accepted
      obtain ⟨_, accepted', accepted⟩ := bind_ok.mp accepted
      cases accepted
      obtain ⟨two, there, accepted'⟩ := bind_ok.mp accepted'
      obtain ⟨others, later, accepted'⟩ := bind_ok.mp accepted'
      cases accepted'
      exact ⟨two :: one :: others, by simp [collect, bind_ok, here, there, later], .swap two one _⟩
  | trans _ _ first second =>
      obtain ⟨between, accepted', same⟩ := first accepted
      obtain ⟨results', accepted'', same'⟩ := second accepted'
      exact ⟨results', accepted'', same.trans same'⟩

theorem collect_error {build : α → Except ε β} {elements : List α} {failure : ε}
    (failed : collect build elements = .error failure) :
    ∃ element ∈ elements, build element = .error failure := by
  induction elements with
  | nil => simp [collect] at failed
  | cons first rest ih =>
      simp only [collect, bind_error] at failed
      rcases failed with here | ⟨_, _, later | ⟨_, _, never⟩⟩
      · exact ⟨first, List.mem_cons_self, here⟩
      · obtain ⟨element, listed, failed⟩ := ih later
        exact ⟨element, List.mem_cons_of_mem _ listed, failed⟩
      · simp [pure, Except.pure] at never

theorem collect_exists {build : α → Except ε β} {elements : List α}
    (each : ∀ element ∈ elements, ∃ value, build element = .ok value) :
    ∃ results, collect build elements = .ok results := by
  cases collected : collect build elements with
  | ok results => exact ⟨results, rfl⟩
  | error failure =>
      obtain ⟨element, listed, failed⟩ := collect_error collected
      obtain ⟨value, built⟩ := each element listed
      cases failed.symm.trans built

theorem collect_congr {build other : α → Except ε β} {elements : List α}
    (same : ∀ element ∈ elements, build element = other element) :
    collect build elements = collect other elements := by
  induction elements with
  | nil => rfl
  | cons first rest ih =>
      simp only [List.forall_mem_cons] at same
      simp only [collect, same.1, ih same.2]

theorem collect_map {α' β' : Type} {build : α → Except ε β} {build' : α' → Except ε β'}
    {f : α → α'} {g : β → β'} {elements : List α}
    (built : ∀ element ∈ elements, build' (f element) = (build element).map g) :
    collect build' (elements.map f) = (collect build elements).map (List.map g) := by
  induction elements with
  | nil => rfl
  | cons first rest ih =>
      simp only [List.forall_mem_cons] at built
      simp only [List.map_cons, collect]
      exact bind_map built.1 fun value => bind_map (ih built.2) fun others => rfl

/-- Threads an accumulator through the elements and stops at the first failure. -/
def thread (step : β → α → Except ε β) : β → List α → Except ε β
  | state, [] => .ok state
  | state, first :: rest => do
      let next ← step state first
      thread step next rest

theorem thread_error {step : β → α → Except ε β} {start : β} {elements : List α} {failure : ε}
    (failed : thread step start elements = .error failure) :
    ∃ element ∈ elements, ∃ state, step state element = .error failure := by
  induction elements generalizing start with
  | nil => simp [thread] at failed
  | cons first rest ih =>
      rcases bind_error.mp failed with here | ⟨next, -, later⟩
      · exact ⟨first, List.mem_cons_self, start, here⟩
      · obtain ⟨element, listed, state, there⟩ := ih later
        exact ⟨element, List.mem_cons_of_mem _ listed, state, there⟩

theorem thread_exists {step : β → α → Except ε β} (invariant : β → Prop) {elements : List α}
    (steps : ∀ element ∈ elements, ∀ state, invariant state →
      ∃ next, step state element = .ok next ∧ invariant next)
    {start : β} (base : invariant start) : ∃ final, thread step start elements = .ok final := by
  induction elements generalizing start with
  | nil => exact ⟨start, rfl⟩
  | cons element rest ih =>
      obtain ⟨next, stepped, held⟩ := steps element List.mem_cons_self start base
      obtain ⟨final, threaded⟩ :=
        ih (fun other listed => steps other (List.mem_cons_of_mem _ listed)) held
      exact ⟨final, bind_ok.mpr ⟨next, stepped, threaded⟩⟩

/-- What one accepted step preserves, a whole accepted sequence preserves. -/
theorem thread_invariant {step : β → α → Except ε β} (invariant : List α → β → Prop)
    (preserved : ∀ done state element next, invariant done state →
      step state element = .ok next → invariant (done ++ [element]) next)
    {done : List α} {start final : β} {elements : List α} (base : invariant done start)
    (accepted : thread step start elements = .ok final) : invariant (done ++ elements) final := by
  induction elements generalizing done start with
  | nil =>
      simp only [thread, Except.ok.injEq] at accepted
      subst accepted
      simpa using base
  | cons first rest ih =>
      obtain ⟨next, stepped, continued⟩ := bind_ok.mp accepted
      have grown := ih (preserved done start first next base stepped) continued
      simpa using grown

/-- What holds at the start and is preserved by each accepted step. -/
theorem thread_preserves {step : β → α → Except ε β} (invariant : List α → β → Prop)
    (preserved : ∀ done state element next, invariant done state →
      step state element = .ok next → invariant (done ++ [element]) next)
    {start final : β} {elements : List α} (base : invariant [] start)
    (accepted : thread step start elements = .ok final) : invariant elements final :=
  @thread_invariant _ _ _ step invariant preserved [] start final elements base accepted

/-- Two results agree: related values, one failure on both sides, or an excused failure on
either side. -/
inductive Agrees (excused : ε → Prop) (related : α → β → Prop) :
    Except ε α → Except ε β → Prop
  | ok {first : α} {second : β} (alike : related first second) :
      Agrees excused related (.ok first) (.ok second)
  | error (failure : ε) : Agrees excused related (.error failure) (.error failure)
  | left {failure : ε} (second : Except ε β) (allowed : excused failure) :
      Agrees excused related (.error failure) second
  | right (first : Except ε α) {failure : ε} (allowed : excused failure) :
      Agrees excused related first (.error failure)

namespace Agrees

variable {excused : ε → Prop} {related : α → β → Prop}

theorem refl {related : α → α → Prop} (result : Except ε α)
    (alike : ∀ value, related value value) : Agrees excused related result result := by
  cases result with
  | error failure => exact .error failure
  | ok value => exact .ok (alike value)

theorem imp {related' : α → β → Prop} {first : Except ε α} {second : Except ε β}
    (agrees : Agrees excused related first second)
    (weaker : ∀ value value', related value value' → related' value value') :
    Agrees excused related' first second := by
  cases agrees with
  | ok alike => exact .ok (weaker _ _ alike)
  | error failure => exact .error failure
  | left second allowed => exact .left _ allowed
  | right first allowed => exact .right _ allowed

/-- Agreeing results continue to agree when related values are continued alike. -/
theorem bind {α' β' : Type} {related' : α' → β' → Prop} {first : Except ε α}
    {second : Except ε β} {next : α → Except ε α'} {next' : β → Except ε β'}
    (here : Agrees excused related first second)
    (later : ∀ value value', related value value' →
      Agrees excused related' (next value) (next' value')) :
    Agrees excused related' (first >>= next) (second >>= next') := by
  cases here with
  | ok alike => exact later _ _ alike
  | error failure => exact .error failure
  | left second allowed => exact .left _ allowed
  | right first allowed => exact .right _ allowed

/-- A common first step leaves only its continuations to compare. -/
theorem bind_same {α' β' : Type} {related' : α' → β' → Prop} {first : Except ε α}
    {next : α → Except ε α'} {next' : α → Except ε β'}
    (later : ∀ value, first = .ok value → Agrees excused related' (next value) (next' value)) :
    Agrees excused related' (first >>= next) (first >>= next') := by
  cases first with
  | error failure => exact .error failure
  | ok value => exact later value rfl

theorem mapError {δ : Type} {allowed : Prop} {first : Except ε α} {second : Except ε β}
    (agrees : Agrees (fun _ => allowed) related first second) (wrap : ε → δ) :
    Agrees (fun _ => allowed) related (first.mapError wrap) (second.mapError wrap) := by
  cases agrees with
  | ok alike => exact .ok alike
  | error failure => exact .error _
  | left second excuse => exact .left _ excuse
  | right first excuse => exact .right _ excuse

/-- Results that agree and both succeed have related values. -/
theorem of_ok {first : α} {second : β}
    (agrees : Agrees excused related (.ok first) (.ok second)) : related first second := by
  cases agrees with
  | ok alike => exact alike

/-- Where no failure is excused, results with equal values are equal. -/
theorem eq {first second : Except ε α} (agrees : Agrees excused Eq first second)
    (strict : ∀ failure, ¬excused failure) : first = second := by
  cases agrees with
  | ok same => rw [same]
  | error failure => rfl
  | left second allowed => exact absurd allowed (strict _)
  | right first allowed => exact absurd allowed (strict _)

end Agrees

end Checked
