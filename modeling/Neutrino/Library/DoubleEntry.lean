import Mathlib

/-! Double entry: entries of which each is a credit or a debit of some value, matched when both
sides move the same values. Matched entries net to nothing under any weight. -/

namespace DoubleEntry

variable {α κ ν : Type} (credit : α → Bool) (value : α → ν)

/-- The values one side moves. -/
def moved (entries : List α) (side : Bool) : Multiset ν :=
  ((entries.filter fun entry => credit entry = side).map value : List ν)

def Matched (entries : List α) : Prop :=
  moved credit value entries true = moved credit value entries false

/-- An entry's contribution to the net: its weight as a credit, less its weight as a debit. -/
def signed (weight : ν → Int) (entry : α) : Int :=
  if credit entry then weight (value entry) else -weight (value entry)

theorem matched_nil : Matched credit value [] := rfl

variable {credit value}

theorem moved_perm {left right : List α} (same : left.Perm right) (side : Bool) :
    moved credit value left side = moved credit value right side :=
  Multiset.coe_eq_coe.mpr ((same.filter _).map _)

theorem Matched.of_perm {left right : List α} (matched : Matched credit value left)
    (same : left.Perm right) : Matched credit value right := by
  unfold Matched at *
  rw [← moved_perm same, ← moved_perm same, matched]

/-- Entries whose images are matched are matched, when value goes by the image's value. -/
theorem Matched.of_map {β μ : Type} {credit' : β → Bool} {value' : β → μ} {image : α → β}
    {worth : μ → ν} {entries : List α}
    (matched : Matched credit' value' (entries.map image))
    (credits : ∀ entry ∈ entries, credit entry = credit' (image entry))
    (values : ∀ entry ∈ entries, value entry = worth (value' (image entry))) :
    Matched credit value entries := by
  have sides : ∀ side, moved credit value entries side =
      (moved credit' value' (entries.map image) side).map worth := by
    intro side
    have kept : (entries.filter fun entry => credit entry = side) =
        entries.filter fun entry => credit' (image entry) = side :=
      List.filter_congr fun entry listed => by rw [credits entry listed]
    simp only [moved, List.filter_map, Multiset.map_coe, List.map_map, kept]
    congr 1
    exact List.map_congr_left fun entry listed =>
      values entry (List.mem_filter.mp listed).1
  unfold Matched at *
  rw [sides, sides, matched]

theorem moved_append (left right : List α) (side : Bool) :
    moved credit value (left ++ right) side =
      moved credit value left side + moved credit value right side := by
  simp [moved]

theorem Matched.append {left right : List α} (first : Matched credit value left)
    (second : Matched credit value right) : Matched credit value (left ++ right) := by
  unfold Matched at *
  rw [moved_append, moved_append, first, second]

/-- The net is the credits' weight less the debits'. -/
theorem sum_signed (weight : ν → Int) (entries : List α) :
    (entries.map (signed credit value weight)).sum =
      ((moved credit value entries true).map weight).sum -
        ((moved credit value entries false).map weight).sum := by
  induction entries with
  | nil => rfl
  | cons entry rest ih =>
      simp only [List.map_cons, List.sum_cons, ih, moved, signed, Multiset.map_coe,
        Multiset.sum_coe]
      cases side : credit entry <;> simp [side] <;> omega

theorem Matched.net_zero {entries : List α} (matched : Matched credit value entries)
    (weight : ν → Int) : (entries.map (signed credit value weight)).sum = 0 := by
  rw [sum_signed, matched, Int.sub_self]

/-- Entries matched key by key are matched. -/
theorem matched_of_keys [DecidableEq κ] (key : α → κ) (entries : List α)
    (groups : ∀ own, Matched credit value (entries.filter fun entry => key entry = own)) :
    Matched credit value entries := by
  induction size : entries.length using Nat.strong_induction_on generalizing entries with
  | _ length ih =>
    cases entries with
    | nil => exact matched_nil credit value
    | cons first rest =>
        -- The first entry's group is matched, and so is what is left without it.
        have split := List.filter_append_perm (fun entry => decide (key entry = key first))
          (first :: rest)
        refine ((groups (key first)).append ?_).of_perm split
        subst size
        refine ih _ ?_ _ ?_ rfl
        · have shorter := List.length_filter_le (fun entry => !decide (key entry = key first)) rest
          simp only [List.filter_cons, decide_true, Bool.not_true, Bool.false_eq_true, if_false,
            List.length_cons]
          omega
        · intro own
          rw [List.filter_filter]
          by_cases same : own = key first
          · subst same
            have none : ((first :: rest).filter fun entry =>
                decide (key entry = key first) && !decide (key entry = key first)) = [] := by
              rw [List.filter_eq_nil_iff]
              simp
            rw [none]
            exact matched_nil credit value
          · have kept : ((first :: rest).filter fun entry =>
                decide (key entry = own) && !decide (key entry = key first)) =
                (first :: rest).filter fun entry => key entry = own := by
              apply List.filter_congr
              intro entry _
              by_cases here : key entry = own
              · simp [here, same]
              · simp [here]
            rw [kept]
            exact groups own

end DoubleEntry
