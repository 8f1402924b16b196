import Mathlib

/-! What does not depend on the order of a list, and lists related element by element. -/

namespace Permuted

variable {α β : Type} {elements other : List α}

/-- Permuted lists are both empty, both the same singleton, or both longer. -/
theorem perm_cases (permuted : elements.Perm other) :
    (elements = [] ∧ other = []) ∨ (∃ element, elements = [element] ∧ other = [element]) ∨
      ∃ first second rest first' second' rest',
        elements = first :: second :: rest ∧ other = first' :: second' :: rest' := by
  rcases elements with _ | ⟨first, _ | ⟨second, rest⟩⟩
  · exact .inl ⟨rfl, permuted.nil_eq.symm⟩
  · exact .inr (.inl ⟨first, rfl, List.singleton_perm.mp permuted |>.symm⟩)
  · have same := permuted.length_eq
    rcases other with _ | ⟨first', _ | ⟨second', rest'⟩⟩
    · simp at same
    · simp at same
    · exact .inr (.inr ⟨first, second, rest, first', second', rest', rfl, rfl⟩)

theorem perm_ne_nil (permuted : elements.Perm other) : elements ≠ [] ↔ other ≠ [] := by
  rw [← List.length_pos_iff, ← List.length_pos_iff, permuted.length_eq]

theorem perm_eq_nil (permuted : elements.Perm other) : elements = [] ↔ other = [] := by
  rw [← List.length_eq_zero_iff, ← List.length_eq_zero_iff, permuted.length_eq]

theorem find_perm {found : α → Prop} [DecidablePred found] (permuted : elements.Perm other)
    (unique : ∀ first ∈ elements, ∀ second ∈ elements, found first → found second →
      first = second) : elements.find? (found ·) = other.find? (found ·) := by
  cases here : elements.find? (found ·) with
  | none =>
      refine (List.find?_eq_none.mpr fun element listed => ?_).symm
      exact List.find?_eq_none.mp here element (permuted.mem_iff.mpr listed)
  | some element =>
      cases there : other.find? (found ·) with
      | none =>
          have absent := List.find?_eq_none.mp there element
            (permuted.mem_iff.mp (List.mem_of_find?_eq_some here))
          exact absurd (List.find?_some here) absent
      | some element' =>
          have holds := List.find?_some here
          have holds' := List.find?_some there
          simp only [decide_eq_true_eq] at holds holds'
          rw [unique element (List.mem_of_find?_eq_some here) element'
            (permuted.mem_iff.mpr (List.mem_of_find?_eq_some there)) holds holds']

/-- An element found by a key that no other element has is found in any order. -/
theorem find_key_perm {κ : Type} [DecidableEq κ] {key : α → κ} (permuted : elements.Perm other)
    (distinct : (elements.map key).Nodup) (wanted : κ) :
    elements.find? (fun element => key element = wanted) =
      other.find? (fun element => key element = wanted) :=
  find_perm permuted fun _ here _ there same same' =>
    List.inj_on_of_nodup_map distinct here there (same.trans same'.symm)

theorem related_left {related : α → β → Prop} {first : List α} {second : List β}
    (pairs : List.Forall₂ related first second) {element : α} (listed : element ∈ first) :
    ∃ partner ∈ second, related element partner := by
  induction pairs with
  | nil => cases listed
  | cons here _ ih =>
      rcases List.mem_cons.mp listed with rfl | later
      · exact ⟨_, List.mem_cons_self, here⟩
      · obtain ⟨partner, held, alike⟩ := ih later
        exact ⟨partner, List.mem_cons_of_mem _ held, alike⟩

theorem related_right {related : α → β → Prop} {first : List α} {second : List β}
    (pairs : List.Forall₂ related first second) {partner : β} (listed : partner ∈ second) :
    ∃ element ∈ first, related element partner :=
  related_left (List.Forall₂.flip pairs) listed

theorem exists_related {related : α → β → Prop} {first : List α}
    (each : ∀ element ∈ first, ∃ partner, related element partner) :
    ∃ second, List.Forall₂ related first second := by
  induction first with
  | nil => exact ⟨[], .nil⟩
  | cons element rest ih =>
      obtain ⟨partner, here⟩ := each element List.mem_cons_self
      obtain ⟨partners, later⟩ := ih fun other listed => each other (List.mem_cons_of_mem _ listed)
      exact ⟨partner :: partners, .cons here later⟩

/-- Reading every element of a list, each for its own. -/
theorem mapM_related {read : α → Option β} {first : List α} {second : List β}
    (known : first.mapM read = some second) :
    List.Forall₂ (fun element partner => read element = some partner) first second := by
  induction first generalizing second with
  | nil =>
      obtain rfl : [] = second := by simpa using known
      exact .nil
  | cons element rest ih =>
      rw [List.mapM_cons] at known
      obtain ⟨partner, here, known⟩ := Option.bind_eq_some_iff.mp known
      obtain ⟨partners, later, known⟩ := Option.bind_eq_some_iff.mp known
      obtain rfl := Option.some.inj known
      exact .cons here (ih later)

theorem map_related {κ : Type} {related : α → β → Prop} {first : List α} {second : List β}
    {key : α → κ} {key' : β → κ} (keyed : ∀ element partner, related element partner →
      key element = key' partner) (pairs : List.Forall₂ related first second) :
    first.map key = second.map key' := by
  induction pairs with
  | nil => rfl
  | cons here _ ih => rw [List.map_cons, List.map_cons, keyed _ _ here, ih]

theorem flatMap_perm {γ : Type} {expand : α → List γ} {expand' : β → List γ} {first : List α}
    {second : List β}
    (pairs : List.Forall₂ (fun element partner => (expand element).Perm (expand' partner))
      first second) : (first.flatMap expand).Perm (second.flatMap expand') := by
  induction pairs with
  | nil => exact .refl _
  | cons here _ ih => exact here.append ih

/-- Elements are in bijection with the wanted partners of their keys exactly where each has its
partner, no two have one key, and no wanted key is missing. -/
theorem matched_iff {κ : Type} {related : α → β → Prop} {first : List α} {wanted : List β}
    {key : α → κ} {key' : β → κ} (keyed : ∀ element partner, related element partner →
      key element = key' partner) (distinct : (wanted.map key').Nodup) :
    (∃ second, second.Perm wanted ∧ List.Forall₂ related first second) ↔
      (∀ element ∈ first, ∃ partner ∈ wanted, related element partner) ∧ (first.map key).Nodup ∧
        ∀ partner ∈ wanted, key' partner ∈ first.map key := by
  constructor
  · rintro ⟨second, permuted, pairs⟩
    have keys := map_related keyed pairs
    refine ⟨fun element listed => ?_, ?_, fun partner listed => ?_⟩
    · obtain ⟨partner, held, here⟩ := related_left pairs listed
      exact ⟨partner, permuted.mem_iff.mp held, here⟩
    · rw [keys]
      exact (permuted.map key').nodup_iff.mpr distinct
    · rw [keys]
      exact List.mem_map_of_mem (permuted.mem_iff.mpr listed)
  · rintro ⟨each, apart, covered⟩
    obtain ⟨second, pairs⟩ := @exists_related _ _
      (fun element partner => partner ∈ wanted ∧ related element partner) _ each
    have keys : first.map key = second.map key' :=
      map_related (fun element partner here => keyed element partner here.2) pairs
    have within : ∀ partner ∈ second, partner ∈ wanted := fun partner listed => by
      obtain ⟨_, _, held, _⟩ := related_right pairs listed
      exact held
    refine ⟨second, ?_, pairs.imp fun _ _ here => here.2⟩
    have apart' : second.Nodup := List.Nodup.of_map key' (keys ▸ apart)
    refine (List.perm_ext_iff_of_nodup apart' distinct.of_map).mpr fun partner => ?_
    refine ⟨within partner, fun listed => ?_⟩
    have found := covered partner listed
    rw [keys] at found
    obtain ⟨partner', held, same⟩ := List.mem_map.mp found
    rwa [← List.inj_on_of_nodup_map distinct (within partner' held) listed same]

end Permuted
