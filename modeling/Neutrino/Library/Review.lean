import Neutrino.Library.Checked

/-! Reviews that go on after what they find: a list of findings, or the exception that ended
them. -/

open Checked

/-- The findings of a review, or the exception it raised. -/
abbrev Review (ε δ : Type) := Except ε (List δ)

namespace Review

variable {ε δ α : Type}

/-- One finding, where the condition holds. -/
def note (wrong : Bool) (finding : δ) : Review ε δ := .ok (if wrong then [finding] else [])

/-- One review after the other. -/
def all : List (Review ε δ) → Except ε (List δ)
  | [] => .ok []
  | first :: rest => do
      let found ← first
      let others ← all rest
      return found ++ others

/-- A review of a computed value, unless computing it raises. -/
def after (result : Except ε α) (next : α → Review ε δ) : Review ε δ :=
  match result with
  | .ok value => next value
  | .error failure => .error failure

def overAll (review : α → Review ε δ) (elements : List α) : Review ε δ :=
  all (elements.map review)

/-- The review ends, and everything it finds is of the given kind. -/
def Within (kind : δ → Prop) (review : Review ε δ) : Prop :=
  ∃ found, review = .ok found ∧ ∀ finding ∈ found, kind finding

variable {kind : δ → Prop}

@[simp] theorem within_ok {found : List δ} :
    Within kind (.ok found : Review ε δ) ↔ ∀ finding ∈ found, kind finding := by
  simp [Within]

@[simp] theorem within_error {failure : ε} : ¬Within kind (.error failure : Review ε δ) := by
  simp [Within]

/-- It finds nothing at all. -/
theorem within_none {review : Review ε δ} : Within (fun _ => False) review ↔ review = .ok [] := by
  constructor
  · rintro ⟨found, rfl, nothing⟩
    rw [List.eq_nil_iff_forall_not_mem.mpr nothing]
  · rintro rfl
    simp

@[simp] theorem within_note {wrong : Bool} {finding : δ} :
    Within kind (note wrong finding : Review ε δ) ↔ (wrong = true → kind finding) := by
  cases wrong <;> simp [note]

@[simp] theorem within_after {result : Except ε α} {next : α → Review ε δ} :
    Within kind (after result next) ↔ ∃ value, result = .ok value ∧ Within kind (next value) := by
  cases result <;> simp [after]

@[simp] theorem within_nil : Within kind (all [] : Review ε δ) := by
  simp [all]

@[simp] theorem within_cons {first : Review ε δ} {rest : List (Review ε δ)} :
    Within kind (all (first :: rest)) ↔ Within kind first ∧ Within kind (all rest) := by
  simp only [Within, all, bind_ok, pure_ok]
  constructor
  · rintro ⟨_, ⟨found, here, others, later, rfl⟩, held⟩
    rw [List.forall_mem_append] at held
    exact ⟨⟨found, here, held.1⟩, others, later, held.2⟩
  · rintro ⟨⟨found, here, held⟩, others, later, held'⟩
    exact ⟨found ++ others, ⟨found, here, others, later, rfl⟩,
      List.forall_mem_append.mpr ⟨held, held'⟩⟩

@[simp] theorem within_overAll {review : α → Review ε δ} {elements : List α} :
    Within kind (overAll review elements) ↔ ∀ element ∈ elements, Within kind (review element) := by
  rw [overAll]
  induction elements with
  | nil => simp
  | cons element rest ih => simp [ih]

/-- The first element whose review raises ends the whole. -/
theorem overAll_error {review : α → Review ε δ} {elements : List α} {failure : ε} :
    overAll review elements = .error failure ↔ ∃ before element after,
      elements = before ++ element :: after ∧ review element = .error failure ∧
        ∀ earlier ∈ before, ∃ found, review earlier = .ok found := by
  induction elements with
  | nil => simp [overAll, all]
  | cons first rest ih =>
      rw [overAll, List.map_cons, all, bind_error]
      constructor
      · rintro (failed | ⟨found, passed, failed⟩)
        · exact ⟨[], first, rest, rfl, failed, by simp⟩
        · rcases bind_error.mp failed with failed | ⟨_, _, never⟩
          · obtain ⟨before, element, after, rfl, raised, earlier⟩ := ih.mp failed
            exact ⟨first :: before, element, after, rfl, raised,
              List.forall_mem_cons.mpr ⟨⟨found, passed⟩, earlier⟩⟩
          · cases never
      · rintro ⟨before, element, after, split, raised, earlier⟩
        cases before with
        | nil =>
            cases split
            exact .inl raised
        | cons head before =>
            cases split
            obtain ⟨⟨found, passed⟩, earlier⟩ := List.forall_mem_cons.mp earlier
            refine .inr ⟨found, passed, ?_⟩
            exact bind_error.mpr (.inl (ih.mpr ⟨before, element, after, rfl, raised, earlier⟩))

/-- Where one failure is the only one, any element that raises it makes the whole raise it. -/
theorem overAll_raises {review : α → Review ε δ} {elements : List α} {failure : ε}
    (only : ∀ element other, review element = .error other → other = failure) :
    overAll review elements = .error failure ↔
      ∃ element ∈ elements, review element = .error failure := by
  constructor
  · intro failed
    obtain ⟨before, element, after, rfl, raised, _⟩ := overAll_error.mp failed
    exact ⟨element, by simp, raised⟩
  · rintro ⟨element, listed, raised⟩
    cases outcome : overAll review elements with
    | error other =>
        obtain ⟨_, culprit, _, _, raised', _⟩ := overAll_error.mp outcome
        rw [only culprit other raised']
    | ok found =>
        have ended : Within (fun _ => True) (overAll review elements) := by simp [outcome]
        have here := within_overAll.mp ended element listed
        simp [raised] at here

end Review
