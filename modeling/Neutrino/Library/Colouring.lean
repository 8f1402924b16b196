import Mathlib

/-! Colourings by rank: elements coloured with the rank of their keys in a linear order, and
recolouring until nothing changes. -/

namespace Colouring

variable {κ : Type} [LinearOrder κ]

/-- The rank of each key among the distinct keys. -/
def ranks (keys : List κ) : List Nat :=
  let ordered := (keys.insertionSort (· ≤ ·)).dedup
  keys.map fun key => ordered.findIdx fun other => ¬other < key

def colour (colours : List Nat) (element : Nat) : Nat := colours.getD element 0

/-- Every number below a colour is a colour. -/
def Compact (colours : List Nat) : Prop := ∀ used ∈ colours, ∀ below < used, below ∈ colours

/-- Elements told apart stay in order. -/
def Keeps (colours next : List Nat) : Prop :=
  ∀ i < colours.length, ∀ j < colours.length, colour colours i < colour colours j →
    colour next i < colour next j

theorem length_ranks (keys : List κ) : (ranks keys).length = keys.length := by
  simp [ranks]

theorem ordered_strictMono (keys : List κ) :
    ((keys.insertionSort (· ≤ ·)).dedup).Pairwise (· < ·) := by
  have sorted : ((keys.insertionSort (· ≤ ·)).dedup).Pairwise (· ≤ ·) :=
    (List.pairwise_insertionSort _ keys).sublist (List.dedup_sublist _)
  exact (sorted.and (List.nodup_dedup _)).imp fun both => lt_of_le_of_ne both.1 both.2

/-- In an increasing list, the first key not below a listed key is that key. -/
theorem findIdx_getElem {ordered : List κ} (increasing : ordered.Pairwise (· < ·))
    {position : Nat} (bound : position < ordered.length) :
    (ordered.findIdx fun other => ¬other < ordered[position]) = position := by
  rw [List.findIdx_eq bound]
  refine ⟨by simp, fun earlier before => ?_⟩
  simpa using List.pairwise_iff_getElem.mp increasing earlier position (by omega) bound before

theorem rank_spec (keys : List κ) {position : Nat} (bound : position < keys.length) :
    ∃ (inside : colour (ranks keys) position < ((keys.insertionSort (· ≤ ·)).dedup).length),
      ((keys.insertionSort (· ≤ ·)).dedup)[colour (ranks keys) position] = keys[position] := by
  have listed : keys[position] ∈ (keys.insertionSort (· ≤ ·)).dedup := by
    rw [List.mem_dedup, List.mem_insertionSort]
    exact List.getElem_mem bound
  obtain ⟨rank, inside, found⟩ := List.getElem_of_mem listed
  have value : colour (ranks keys) position = rank := by
    simp only [colour, ranks, List.getD_eq_getElem?_getD, List.getElem?_map,
      List.getElem?_eq_getElem bound, Option.map_some, Option.getD_some, ← found]
    exact findIdx_getElem (ordered_strictMono keys) inside
  exact ⟨value ▸ inside, by simp only [value, found]⟩

/-- Ranks are in the order of the keys. -/
theorem rank_lt_iff (keys : List κ) {i j : Nat} (first : i < keys.length)
    (second : j < keys.length) :
    colour (ranks keys) i < colour (ranks keys) j ↔ keys[i] < keys[j] := by
  obtain ⟨inside, here⟩ := rank_spec keys first
  obtain ⟨inside', there⟩ := rank_spec keys second
  have increasing := List.pairwise_iff_getElem.mp (ordered_strictMono keys)
  rw [← here, ← there]
  constructor
  · intro below
    exact increasing _ _ inside inside' below
  · intro below
    by_contra above
    rcases Nat.lt_or_eq_of_le (Nat.not_lt.mp above) with lower | same
    · exact absurd (increasing _ _ inside' inside lower) (not_lt_of_gt below)
    · simp [same] at below

theorem ranks_compact (keys : List κ) : Compact (ranks keys) := by
  intro used listed below lower
  obtain ⟨position, bound, found⟩ := List.getElem_of_mem listed
  rw [length_ranks] at bound
  obtain ⟨inside, _⟩ := rank_spec keys bound
  have value : colour (ranks keys) position = used := by
    rw [← found]
    exact List.getD_eq_getElem _ _ _
  have small : below < ((keys.insertionSort (· ≤ ·)).dedup).length := by omega
  have member : ((keys.insertionSort (· ≤ ·)).dedup)[below] ∈ keys := by
    have within := List.getElem_mem small
    rwa [List.mem_dedup, List.mem_insertionSort] at within
  obtain ⟨source, range, same⟩ := List.getElem_of_mem member
  have rank : (((keys.insertionSort (· ≤ ·)).dedup).findIdx fun other =>
      ¬other < ((keys.insertionSort (· ≤ ·)).dedup)[below]) = below :=
    findIdx_getElem (ordered_strictMono keys) small
  rw [← same] at rank
  exact List.mem_map.mpr ⟨keys[source], List.getElem_mem range, rank⟩

/-! Elements by name. -/

theorem ranks_map_lt_iff {α : Type} [DecidableEq α] {names : List α} (key : α → κ) {a b : α}
    (first : a ∈ names) (second : b ∈ names) :
    colour (ranks (names.map key)) (names.idxOf a) <
      colour (ranks (names.map key)) (names.idxOf b) ↔ key a < key b := by
  have ranked := rank_lt_iff (names.map key) (i := names.idxOf a) (j := names.idxOf b)
    (by simpa using List.idxOf_lt_length_iff.mpr first)
    (by simpa using List.idxOf_lt_length_iff.mpr second)
  rw [ranked]
  simp only [List.getElem_map, List.getElem_idxOf]

theorem keeps_ranks {α : Type} [DecidableEq α] {names : List α} {key : α → κ}
    {colours : List Nat} (nodup : names.Nodup) (length : colours.length = names.length)
    (ordered : ∀ a ∈ names, ∀ b ∈ names,
      colour colours (names.idxOf a) < colour colours (names.idxOf b) → key a < key b) :
    Keeps colours (ranks (names.map key)) := by
  intro i first j second below
  rw [length] at first second
  have named := ordered names[i] (List.getElem_mem first) names[j] (List.getElem_mem second)
  rw [nodup.idxOf_getElem i first, nodup.idxOf_getElem j second] at named
  have ranked := rank_lt_iff (names.map key) (i := i) (j := j) (by simpa using first)
    (by simpa using second)
  rw [ranked]
  simpa only [List.getElem_map] using named below

/-! Elements renamed and taken in another order. -/

theorem sorted_of_perm {elements others : List κ} (permuted : others.Perm elements) :
    others.insertionSort (· ≤ ·) = elements.insertionSort (· ≤ ·) :=
  (((List.perm_insertionSort _ others).trans permuted).trans
    (List.perm_insertionSort _ elements).symm).eq_of_pairwise'
    (List.pairwise_insertionSort _ others) (List.pairwise_insertionSort _ elements)

theorem zip_ranks {α : Type} (key : α → κ) (elements : List α) :
    elements.zip (ranks (elements.map key)) = elements.map fun element =>
      (element, (((elements.map key).insertionSort (· ≤ ·)).dedup).findIdx fun other =>
        ¬other < key element) := by
  simp only [ranks, List.map_map]
  conv_lhs => arg 1; rw [← List.map_id elements]
  rw [List.zip_map']
  rfl

/-- Elements of the same keys have the same ranks. -/
theorem zip_ranks_perm {α β : Type} (rename : α → β) (key : α → κ) (key' : β → κ)
    {elements : List α} {others : List β} (permuted : others.Perm (elements.map rename))
    (same : ∀ element ∈ elements, key' (rename element) = key element) :
    (others.zip (ranks (others.map key'))).Perm
      ((elements.zip (ranks (elements.map key))).map fun pair => (rename pair.1, pair.2)) := by
  have keys : (others.map key').Perm (elements.map key) := by
    refine (permuted.map key').trans ?_
    rw [List.map_map]
    exact .of_eq (List.map_congr_left same)
  rw [zip_ranks, zip_ranks, sorted_of_perm keys, List.map_map]
  refine (permuted.map _).trans ?_
  rw [List.map_map]
  refine .of_eq (List.map_congr_left fun element listed => ?_)
  simp only [Function.comp_apply, same element listed]

/-! Growth. -/

theorem Compact.le_of_keeps {colours next : List Nat} (compact : Compact colours)
    (keeps : Keeps colours next) {element : Nat} (bound : element < colours.length) :
    colour colours element ≤ colour next element := by
  generalize value : colour colours element = number
  induction number using Nat.strongRecOn generalizing element with
  | _ number ih =>
      rcases Nat.eq_zero_or_pos number with zero | positive
      · omega
      · have used : number ∈ colours := by
          rw [← value, colour, List.getD_eq_getElem _ _ bound]
          exact List.getElem_mem bound
        obtain ⟨other, range, found⟩ := List.getElem_of_mem (compact number used (number - 1)
          (by omega))
        have otherValue : colour colours other = number - 1 := by
          rw [colour, List.getD_eq_getElem _ _ range, found]
        have grown := ih (number - 1) (by omega) range otherValue
        have above := keeps other range element bound (by omega)
        omega

theorem Compact.lt_length {colours : List Nat} (compact : Compact colours) {used : Nat}
    (listed : used ∈ colours) : used < colours.length := by
  have covered : List.range (used + 1) ⊆ colours := by
    intro below range
    rcases Nat.lt_or_eq_of_le (Nat.lt_succ_iff.mp (List.mem_range.mp range)) with lower | same
    · exact compact used listed below lower
    · rwa [same]
  have length := (List.subperm_of_subset List.nodup_range covered).length_le
  rw [List.length_range] at length
  omega

theorem sum_le_of_pointwise {colours next : List Nat} (length : colours.length = next.length)
    (grown : ∀ element < colours.length, colour colours element ≤ colour next element) :
    colours.sum ≤ next.sum ∧ (colours.sum = next.sum → colours = next) := by
  induction colours generalizing next with
  | nil =>
      have none : next = [] := List.eq_nil_of_length_eq_zero length.symm
      simp [none]
  | cons first rest ih =>
      cases next with
      | nil => simp at length
      | cons head tail =>
          have here := grown 0 (by simp)
          obtain ⟨sum, same⟩ := ih (by simpa using length) fun element bound =>
            grown (element + 1) (by simpa using bound)
          simp only [colour, List.getD_cons_zero] at here
          simp only [List.sum_cons, List.cons.injEq]
          refine ⟨by omega, fun total => ⟨by omega, same (by omega)⟩⟩

theorem sum_le_square {colours : List Nat} (compact : Compact colours) :
    colours.sum ≤ colours.length * colours.length :=
  List.sum_le_card_nsmul colours _ fun _ listed => Nat.le_of_lt (compact.lt_length listed)

/-- The highest colour. -/
def top (colours : List Nat) : Nat := colours.foldr max 0

theorem le_top {colours : List Nat} {used : Nat} (listed : used ∈ colours) :
    used ≤ top colours := by
  induction colours with
  | nil => simp at listed
  | cons first rest ih =>
      rcases List.mem_cons.mp listed with rfl | later
      · exact Nat.le_max_left _ _
      · exact (ih later).trans (Nat.le_max_right _ _)

theorem top_mem {colours : List Nat} (used : colours ≠ []) : top colours ∈ colours := by
  induction colours with
  | nil => exact absurd rfl used
  | cons first rest ih =>
      by_cases alone : rest = []
      · simp [alone, top]
      · rcases Nat.le_total (top rest) first with above | above
        · have same : top (first :: rest) = first := Nat.max_eq_left above
          simp [same]
        · have same : top (first :: rest) = top rest := Nat.max_eq_right above
          rw [same]
          exact List.mem_cons_of_mem _ (ih alone)

theorem Compact.top_le_length {colours : List Nat} (compact : Compact colours) :
    top colours ≤ colours.length := by
  by_cases used : colours = []
  · simp [used, top]
  · exact Nat.le_of_lt (compact.lt_length (top_mem used))

/-- Where elements told apart stay in order and some colour changes, there are more colours. -/
theorem Compact.top_lt_of_keeps {colours next : List Nat} (compact : Compact colours)
    (keeps : Keeps colours next) (length : next.length = colours.length)
    (changed : next ≠ colours) : top colours < top next := by
  by_contra above
  have falls : ∀ gap, ∀ element < colours.length, colour colours element + gap = top colours →
      colour next element ≤ colour colours element := by
    intro gap
    induction gap with
    | zero =>
        intro element bound highest
        have listed : colour next element ∈ next := by
          rw [colour, List.getD_eq_getElem _ _ (by omega)]
          exact List.getElem_mem _
        have below := le_top listed
        omega
    | succ gap ih =>
        intro element bound lower
        have used : colours ≠ [] := List.ne_nil_of_length_pos (by omega)
        have following : colour colours element + 1 ∈ colours := by
          rcases Nat.lt_or_eq_of_le (show colour colours element + 1 ≤ top colours by omega) with
            less | same
          · exact compact _ (top_mem used) _ less
          · exact same ▸ top_mem used
        obtain ⟨other, range, found⟩ := List.getElem_of_mem following
        have value : colour colours other = colour colours element + 1 := by
          rw [colour, List.getD_eq_getElem _ _ range, found]
        have apart := keeps element bound other range (by omega)
        have held := ih other range (by omega)
        omega
  refine changed (List.ext_getElem length fun element bound bound' => ?_)
  have listed : colour colours element ∈ colours := by
    rw [colour, List.getD_eq_getElem _ _ bound']
    exact List.getElem_mem _
  have rises := compact.le_of_keeps keeps bound'
  have sinks := falls (top colours - colour colours element) element bound'
    (Nat.add_sub_cancel' (le_top listed))
  simp only [colour, List.getD_eq_getElem _ _ bound, List.getD_eq_getElem _ _ bound'] at rises sinks
  omega

/-! Fixed points. -/

/-- What a bounded measure forces: a step that raises it wherever it changes anything stops
changing within the bound. -/
theorem exists_fixed_within {α : Type} (step : α → α) (start : α) (measure : α → Nat) (bound : Nat)
    (bounded : ∀ round, measure (step^[round] start) ≤ bound)
    (raises : ∀ round, step (step^[round] start) ≠ step^[round] start →
      measure (step^[round] start) < measure (step (step^[round] start))) :
    ∃ round ≤ bound, step (step^[round] start) = step^[round] start := by
  by_contra never
  simp only [not_exists, not_and] at never
  have climbs : ∀ round ≤ bound + 1, round ≤ measure (step^[round] start) := by
    intro round
    induction round with
    | zero => exact fun _ => Nat.zero_le _
    | succ round ih =>
        intro within
        have here := ih (by omega)
        have higher := raises round (never round (by omega))
        rw [Function.iterate_succ_apply']
        omega
  have top := climbs (bound + 1) (Nat.le_refl _)
  have low := bounded (bound + 1)
  omega

theorem exists_fixed {α : Type} (step : α → α) (start : α) (measure : α → Nat) (bound : Nat)
    (bounded : ∀ round, measure (step^[round] start) ≤ bound)
    (raises : ∀ round, step (step^[round] start) ≠ step^[round] start →
      measure (step^[round] start) < measure (step (step^[round] start))) :
    ∃ round, step (step^[round] start) = step^[round] start := by
  obtain ⟨round, -, fixed⟩ := exists_fixed_within step start measure bound bounded raises
  exact ⟨round, fixed⟩

/-- Recolouring that keeps elements apart and in order settles in no more rounds than there are
elements. -/
theorem settles {step : List Nat → List Nat} {count : Nat} {start : List Nat}
    (sized : start.length = count ∧ Compact start)
    (next : ∀ colours : List Nat, colours.length = count →
      (step colours).length = count ∧ Compact (step colours))
    (keeps : ∀ colours : List Nat, colours.length = count → Compact colours →
      Keeps colours (step colours)) :
    ∃ round ≤ count, step (step^[round] start) = step^[round] start := by
  have each : ∀ round, (step^[round] start).length = count ∧ Compact (step^[round] start) := by
    intro round
    induction round with
    | zero => exact sized
    | succ round ih =>
        rw [Function.iterate_succ_apply']
        exact next _ ih.1
  refine exists_fixed_within step start top count (fun round => ?_) fun round changes => ?_
  · obtain ⟨length, compact⟩ := each round
    exact length ▸ compact.top_le_length
  · obtain ⟨length, compact⟩ := each round
    exact compact.top_lt_of_keeps (keeps _ length compact) ((next _ length).1.trans length.symm) changes

end Colouring
