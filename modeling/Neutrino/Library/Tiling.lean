import Mathlib

/-! Half-open ranges that tile an interval: together they hold every position once. -/

namespace Tiling

/-- The positions of a half-open range. -/
def span (range : Nat × Nat) : List Nat := List.range' range.1 (range.2 - range.1)

theorem mem_span {range : Nat × Nat} {position : Nat} :
    position ∈ span range ↔ range.1 ≤ position ∧ position < range.2 := by
  simp only [span, List.mem_range'_1]
  omega

structure Tiles (ranges : List (Nat × Nat)) (first last : Nat) : Prop where
  ordered : first ≤ last
  forward : ∀ range ∈ ranges, range.1 ≤ range.2
  covered : (ranges.flatMap span).Perm (span (first, last))

variable {ranges more : List (Nat × Nat)} {first middle last : Nat}

theorem tiles_nil (position : Nat) : Tiles [] position position where
  ordered := Nat.le_refl position
  forward := by simp
  covered := by simp [span]

theorem tiles_single (ordered : first ≤ last) : Tiles [(first, last)] first last where
  ordered := ordered
  forward := by simpa using ordered
  covered := by simp

theorem span_append (left : first ≤ middle) (right : middle ≤ last) :
    span (first, middle) ++ span (middle, last) = span (first, last) := by
  have split := List.range'_append_1 (s := first) (m := middle - first) (n := last - middle)
  have joint : first + (middle - first) = middle := by omega
  have whole : middle - first + (last - middle) = last - first := by omega
  rw [joint, whole] at split
  simpa [span] using split

theorem Tiles.append (left : Tiles ranges first middle) (right : Tiles more middle last) :
    Tiles (ranges ++ more) first last where
  ordered := Nat.le_trans left.ordered right.ordered
  forward range member := by
    rcases List.mem_append.mp member with here | there
    · exact left.forward range here
    · exact right.forward range there
  covered := by
    rw [List.flatMap_append, ← span_append left.ordered right.ordered]
    exact left.covered.append right.covered

theorem Tiles.perm (tiles : Tiles ranges first last) (same : more.Perm ranges) :
    Tiles more first last where
  ordered := tiles.ordered
  forward range member := tiles.forward range (same.mem_iff.mp member)
  covered := (same.flatMap_right span).trans tiles.covered

/-- An empty range takes no room. -/
theorem Tiles.cons_empty (tiles : Tiles ranges first last) (position : Nat) :
    Tiles ((position, position) :: ranges) first last where
  ordered := tiles.ordered
  forward range member := by
    rcases List.mem_cons.mp member with rfl | later
    · exact Nat.le_refl _
    · exact tiles.forward range later
  covered := by simpa [span] using tiles.covered

theorem Tiles.within (tiles : Tiles ranges first last) {range : Nat × Nat}
    (member : range ∈ ranges) {position : Nat} (inside : position ∈ span range) :
    first ≤ position ∧ position < last := by
  have found : position ∈ ranges.flatMap span := List.mem_flatMap.mpr ⟨range, member, inside⟩
  exact mem_span.mp (tiles.covered.mem_iff.mp found)

/-- A tiled position lies in one of the ranges. -/
theorem Tiles.exists_mem (tiles : Tiles ranges first last) {position : Nat}
    (lower : first ≤ position) (upper : position < last) :
    ∃ range ∈ ranges, position ∈ span range := by
  have found : position ∈ span (first, last) := mem_span.mpr ⟨lower, upper⟩
  exact List.mem_flatMap.mp (tiles.covered.mem_iff.mpr found)

end Tiling
