import Mathlib

/-! Stable sorting by a key: what it keeps, and when two orders of the same elements are sorted
alike. -/

namespace SortOn

variable {α κ : Type} [LinearOrder κ]

def sortOn (key : α → κ) (elements : List α) : List α :=
  elements.insertionSort fun first second => key first ≤ key second

variable {key : α → κ} {elements other : List α}

theorem sortOn_perm (key : α → κ) (elements : List α) : (sortOn key elements).Perm elements :=
  List.perm_insertionSort _ elements

@[simp] theorem mem_sortOn {element : α} : element ∈ sortOn key elements ↔ element ∈ elements :=
  (sortOn_perm key elements).mem_iff

theorem sortOn_ordered (key : α → κ) (elements : List α) :
    (sortOn key elements).Pairwise fun first second => key first ≤ key second := by
  have total : Std.Total fun first second : α => key first ≤ key second :=
    ⟨fun first second => le_total (key first) (key second)⟩
  have trans : IsTrans α fun first second : α => key first ≤ key second :=
    ⟨fun _ _ _ below above => le_trans below above⟩
  exact List.pairwise_insertionSort _ elements

/-- Distinct keys are sorted strictly. -/
theorem sortOn_strict (distinct : (elements.map key).Nodup) :
    (sortOn key elements).Pairwise fun first second => key first < key second := by
  have unique : ((sortOn key elements).map key).Nodup :=
    ((sortOn_perm key elements).map key).nodup_iff.mpr distinct
  have apart := List.pairwise_map.mp unique
  exact (sortOn_ordered key elements).imp₂ (fun _ _ below differ => lt_of_le_of_ne below differ)
    apart

theorem sortOn_strict_iff :
    ((sortOn key elements).Pairwise fun first second => key first < key second) ↔
      (elements.map key).Nodup := by
  refine ⟨fun strict => ?_, sortOn_strict⟩
  rw [← ((sortOn_perm key elements).map key).nodup_iff]
  exact List.pairwise_map.mpr (strict.imp fun below => ne_of_lt below)

/-- Elements of one key keep the order they stood in. -/
theorem filter_sortOn [DecidableEq κ] (key : α → κ) (elements : List α) (value : κ) :
    (sortOn key elements).filter (key · = value) = elements.filter (key · = value) := by
  have total : Std.Total fun first second : α => key first ≤ key second :=
    ⟨fun first second => le_total (key first) (key second)⟩
  have trans : IsTrans α fun first second : α => key first ≤ key second :=
    ⟨fun _ _ _ below above => le_trans below above⟩
  have equal : ∀ element ∈ elements.filter (key · = value), key element = value := by
    simp
  have ordered : (elements.filter (key · = value)).Pairwise
      fun first second => key first ≤ key second :=
    List.pairwise_of_forall_mem_list fun first firstIn second secondIn => by
      rw [equal first firstIn, equal second secondIn]
  have kept := List.sublist_insertionSort ordered List.filter_sublist
  have filtered := kept.filter (key · = value)
  rw [List.filter_filter] at filtered
  simp only [Bool.and_self] at filtered
  have sameLength := ((sortOn_perm key elements).filter (key · = value)).length_eq
  exact (filtered.eq_of_length sameLength.symm).symm

/-- A sorted list is fixed by what stands under each key. -/
theorem eq_of_filter_eq [DecidableEq κ] {first second : List α}
    (firstOrdered : first.Pairwise fun one two => key one ≤ key two)
    (secondOrdered : second.Pairwise fun one two => key one ≤ key two)
    (same : ∀ value, first.filter (key · = value) = second.filter (key · = value)) :
    first = second := by
  induction first generalizing second with
  | nil =>
      cases second with
      | nil => rfl
      | cons head tail => simpa using same (key head)
  | cons head tail ih =>
      cases second with
      | nil => simpa using same (key head)
      | cons next rest =>
          have headIn : head ∈ (next :: rest).filter (key · = key head) := by
            rw [← same]
            simp
          have nextIn : next ∈ (head :: tail).filter (key · = key next) := by
            rw [same]
            simp
          have below : key next ≤ key head := by
            rcases List.mem_cons.mp (List.mem_of_mem_filter headIn) with rfl | later
            · exact le_refl _
            · exact (List.pairwise_cons.mp secondOrdered).1 head later
          have above : key head ≤ key next := by
            rcases List.mem_cons.mp (List.mem_of_mem_filter nextIn) with rfl | later
            · exact le_refl _
            · exact (List.pairwise_cons.mp firstOrdered).1 next later
          have keys : key next = key head := le_antisymm below above
          have here := same (key head)
          simp only [List.filter_cons, keys, decide_true, if_true, List.cons.injEq] at here
          obtain ⟨rfl, tails⟩ := here
          congr 1
          refine ih (List.pairwise_cons.mp firstOrdered).2 (List.pairwise_cons.mp secondOrdered).2
            fun value => ?_
          have there := same value
          by_cases held : key head = value
          · subst held
            exact tails
          · simpa [List.filter_cons, held] using there

theorem sortOn_eq_iff [DecidableEq κ] :
    sortOn key elements = sortOn key other ↔
      ∀ value, elements.filter (key · = value) = other.filter (key · = value) := by
  constructor
  · intro same value
    rw [← filter_sortOn key elements, same, filter_sortOn]
  · intro same
    refine eq_of_filter_eq (sortOn_ordered key elements) (sortOn_ordered key other) fun value => ?_
    rw [filter_sortOn, filter_sortOn, same]

/-- Where keys are distinct, the order the elements stood in does not matter. -/
theorem sortOn_eq_of_perm (permuted : elements.Perm other) (distinct : (elements.map key).Nodup) :
    sortOn key elements = sortOn key other := by
  have sorted := sortOn_ordered key elements
  have sorted' := sortOn_ordered key other
  have between := ((sortOn_perm key elements).trans permuted).trans (sortOn_perm key other).symm
  refine between.eq_of_pairwise (fun first second firstIn secondIn below above => ?_) sorted sorted'
  have secondIn' := between.mem_iff.mpr secondIn
  exact List.inj_on_of_nodup_map distinct (mem_sortOn.mp firstIn) (mem_sortOn.mp secondIn')
    (le_antisymm below above)

/-- Where the key tells the elements apart, neither does it matter. -/
theorem sortOn_eq_of_injective (permuted : elements.Perm other)
    (injective : Function.Injective key) : sortOn key elements = sortOn key other := by
  have between := ((sortOn_perm key elements).trans permuted).trans (sortOn_perm key other).symm
  exact between.eq_of_pairwise (fun _ _ _ _ below above => injective (le_antisymm below above))
    (sortOn_ordered key elements) (sortOn_ordered key other)

theorem sortOn_sortOn [DecidableEq κ] : sortOn key (sortOn key elements) = sortOn key elements :=
  sortOn_eq_iff.mpr fun value => filter_sortOn key elements value

end SortOn
