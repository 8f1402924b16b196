import Neutrino.CanonicalLifecycle
import Neutrino.LifecycleShape
import Neutrino.OracleInvariant

/-! When the colour refinement of a lifecycle graph ends: exactly when its rounds reverse the
order of colours finitely often. -/

namespace Neutrino

open Colouring

section Plan

variable (plan : CoordinationPlan)

/-- The colours after so many rounds. -/
def colorsAfter (round : Nat) : LifecycleColors := (refineColors plan)^[round] (initialColors plan)

/-- The colours a round meets are in the order of the signatures they give rise to: no two states
and no two operations that are told apart change places. -/
structure KeepsOrder (colors : LifecycleColors) : Prop where
  operations : ∀ first ∈ operationNames plan, ∀ second ∈ operationNames plan,
    operationColor plan colors.operations first < operationColor plan colors.operations second →
      operationSignature plan colors.states first < operationSignature plan colors.states second
  states : ∀ first ∈ plan.lifecycleStates, ∀ second ∈ plan.lifecycleStates,
    stateColor plan colors.states first < stateColor plan colors.states second →
      stateSignature plan { colors with operations := (refineColors plan colors).operations }
          first <
        stateSignature plan { colors with operations := (refineColors plan colors).operations }
          second

/-- Colours a round can meet: as many as there are states and operations, without gaps. -/
structure WellColored (colors : LifecycleColors) : Prop where
  states : colors.states.length = plan.lifecycleStates.length ∧ Compact colors.states
  operations : colors.operations.length = (operationNames plan).length ∧
    Compact colors.operations

theorem initialColors_wellColored : WellColored plan (initialColors plan) where
  states := by
    refine ⟨?_, ranks_compact _⟩
    simp [initialColors, canonicalColors, length_ranks]
  operations := by
    refine ⟨by simp [initialColors], ?_⟩
    intro used listed below lower
    obtain ⟨_, _, rfl⟩ := List.mem_map.mp listed
    exact absurd lower (Nat.not_lt_zero below)

theorem refineColors_wellColored (colors : LifecycleColors) :
    WellColored plan (refineColors plan colors) where
  states := by
    refine ⟨?_, ranks_compact _⟩
    simp [refineColors, canonicalColors, length_ranks, stateSignatures]
  operations := by
    refine ⟨?_, ranks_compact _⟩
    simp [refineColors, canonicalColors, length_ranks, operationSignatures]

theorem colorsAfter_wellColored (round : Nat) : WellColored plan (colorsAfter plan round) := by
  cases round with
  | zero => exact initialColors_wellColored plan
  | succ round =>
      rw [colorsAfter, Function.iterate_succ_apply']
      exact refineColors_wellColored plan _

theorem operationNames_nodup : (operationNames plan).Nodup := by
  unfold operationNames
  generalize plan.lifecycleTransitions.map (·.name) = names
  induction length : names.length using Nat.strongRecOn generalizing names with
  | _ size ih =>
      cases names with
      | nil => simp
      | cons name rest =>
          rw [List.eraseDups_cons, List.nodup_cons]
          refine ⟨by simp, ih _ ?_ _ rfl⟩
          have shorter := List.length_filter_le (fun other => !other == name) rest
          simp only [List.length_cons] at length
          omega

variable {plan}

/-- Where the order is kept no colour falls. -/
theorem KeepsOrder.grows {colors : LifecycleColors} (nodup : plan.lifecycleStates.Nodup)
    (well : WellColored plan colors) (keeps : KeepsOrder plan colors) :
    colors.states.sum + colors.operations.sum ≤
        (refineColors plan colors).states.sum + (refineColors plan colors).operations.sum ∧
      (colors.states.sum + colors.operations.sum =
          (refineColors plan colors).states.sum + (refineColors plan colors).operations.sum →
        refineColors plan colors = colors) := by
  have next := refineColors_wellColored plan colors
  have states : Keeps colors.states (refineColors plan colors).states :=
    keeps_ranks nodup well.states.1 keeps.states
  have operations : Keeps colors.operations (refineColors plan colors).operations :=
    keeps_ranks (operationNames_nodup plan) well.operations.1 keeps.operations
  obtain ⟨stateSum, sameStates⟩ := sum_le_of_pointwise
    (well.states.1.trans next.states.1.symm) fun _ => well.states.2.le_of_keeps states
  obtain ⟨operationSum, sameOperations⟩ := sum_le_of_pointwise
    (well.operations.1.trans next.operations.1.symm) fun _ =>
      well.operations.2.le_of_keeps operations
  refine ⟨by omega, fun total => ?_⟩
  have first := sameStates (by omega)
  have second := sameOperations (by omega)
  cases colors
  simp only at first second
  rw [LifecycleColors.mk.injEq]
  exact ⟨first.symm, second.symm⟩

theorem keepsOrder_of_fixed {colors : LifecycleColors}
    (fixed : refineColors plan colors = colors) : KeepsOrder plan colors where
  operations := by
    intro first firstListed second secondListed below
    rw [← fixed] at below
    exact (ranks_map_lt_iff (operationSignature plan colors.states) firstListed
      secondListed).mp below
  states := by
    intro first firstListed second secondListed below
    rw [← fixed] at below
    exact (ranks_map_lt_iff (stateSignature plan _) firstListed secondListed).mp below

theorem refineLoop_isSome_iff (colors : LifecycleColors) :
    (∃ fuel, (refineLoop plan fuel colors).isSome = true) ↔
      ∃ round, refineColors plan ((refineColors plan)^[round] colors) =
        (refineColors plan)^[round] colors := by
  constructor
  · rintro ⟨fuel, ends⟩
    induction fuel generalizing colors with
    | zero => simp [refineLoop] at ends
    | succ fuel ih =>
        simp only [refineLoop] at ends
        split at ends
        · rename_i fixed
          exact ⟨0, fixed⟩
        · obtain ⟨round, fixed⟩ := ih _ ends
          exact ⟨round + 1, fixed⟩
  · rintro ⟨round, fixed⟩
    induction round generalizing colors with
    | zero => exact ⟨1, by simpa [refineLoop] using fixed⟩
    | succ round ih =>
        obtain ⟨fuel, ends⟩ := ih (refineColors plan colors) fixed
        refine ⟨fuel + 1, ?_⟩
        simp only [refineLoop]
        split
        · rfl
        · exact ends

/-- Once a round changes nothing, no later one does. -/
theorem iterate_of_fixed {colors : LifecycleColors} (fixed : refineColors plan colors = colors)
    (later : Nat) : (refineColors plan)^[later] colors = colors :=
  Function.iterate_fixed fixed later

theorem fixed_iff_keepsOrder (nodup : plan.lifecycleStates.Nodup) :
    (∃ round, refineColors plan (colorsAfter plan round) = colorsAfter plan round) ↔
      ∃ round, ∀ later ≥ round, KeepsOrder plan (colorsAfter plan later) := by
  constructor
  · rintro ⟨round, fixed⟩
    refine ⟨round, fun later after => ?_⟩
    obtain ⟨more, rfl⟩ := Nat.exists_eq_add_of_le' after
    rw [colorsAfter, Function.iterate_add_apply]
    apply keepsOrder_of_fixed
    change refineColors plan ((refineColors plan)^[more] (colorsAfter plan round)) =
      (refineColors plan)^[more] (colorsAfter plan round)
    rw [iterate_of_fixed fixed, fixed]
  · rintro ⟨round, keeps⟩
    have reached : ∀ more, (refineColors plan)^[more] (colorsAfter plan round) =
        colorsAfter plan (more + round) := fun more =>
      (Function.iterate_add_apply _ _ _ _).symm
    let measure (colors : LifecycleColors) := colors.states.sum + colors.operations.sum
    have bounded : ∀ more, measure ((refineColors plan)^[more] (colorsAfter plan round)) ≤
        plan.lifecycleStates.length * plan.lifecycleStates.length +
          (operationNames plan).length * (operationNames plan).length := by
      intro more
      rw [reached]
      have well := colorsAfter_wellColored plan (more + round)
      have states := sum_le_square well.states.2
      have operations := sum_le_square well.operations.2
      rw [well.states.1] at states
      rw [well.operations.1] at operations
      exact Nat.add_le_add states operations
    have raises : ∀ more, refineColors plan ((refineColors plan)^[more] (colorsAfter plan round)) ≠
        (refineColors plan)^[more] (colorsAfter plan round) →
        measure ((refineColors plan)^[more] (colorsAfter plan round)) <
          measure (refineColors plan ((refineColors plan)^[more] (colorsAfter plan round))) := by
      intro more changes
      rw [reached] at changes ⊢
      have grown := (keeps (more + round) (Nat.le_add_left _ _)).grows nodup
        (colorsAfter_wellColored plan (more + round))
      exact lt_of_le_of_ne grown.1 fun same => changes (grown.2 same)
    obtain ⟨more, fixed⟩ := exists_fixed (refineColors plan) (colorsAfter plan round) measure _
      bounded raises
    rw [reached] at fixed
    exact ⟨more + round, fixed⟩

end Plan

def swappingInputs : PlanInputs :=
  { sampleInputs with
    terminal := ⟨"open", "", ""⟩
    lifecycleStates := ["open", "left", "right"]
    lifecycleTransitions := [⟨"swap", "left", "right", ["reserve"], [], "reject", none⟩,
      ⟨"swap", "right", "left", ["consume"], [], "reject", none⟩] }

def swappingPlan : CoordinationPlan := ((assemblePlan swappingInputs).toOption).getD default

end Neutrino
