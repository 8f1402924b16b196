import Mathlib

/-! Keeping the first element of every key. -/

namespace FirstBy

variable {α κ : Type} [DecidableEq κ]

/-- Keeps an element unless one of its key is kept already. -/
def keep (key : α → κ) (kept : List α) (element : α) : List α :=
  if key element ∈ kept.map key then kept else kept ++ [element]

def firstBy (key : α → κ) (elements : List α) : List α := elements.foldl (keep key) []

variable {key : α → κ} {elements : List α}

theorem firstBy_append_singleton (element : α) :
    firstBy key (elements ++ [element]) = keep key (firstBy key elements) element := by
  simp [firstBy]

/-- The kept elements have the keys of all elements, each once. -/
theorem mem_map_firstBy {value : κ} :
    value ∈ (firstBy key elements).map key ↔ value ∈ elements.map key := by
  induction elements using List.reverseRecOn with
  | nil => simp [firstBy]
  | append_singleton rest last ih =>
      rw [firstBy_append_singleton, keep, List.map_append, List.mem_append, ← ih]
      split
      · rename_i present
        constructor
        · exact .inl
        · rintro (earlier | new)
          · exact earlier
          · rw [List.map_singleton, List.mem_singleton] at new
            rwa [new]
      · rw [List.map_append, List.mem_append]

theorem firstBy_nodup : ((firstBy key elements).map key).Nodup := by
  induction elements using List.reverseRecOn with
  | nil => simp [firstBy]
  | append_singleton rest last ih =>
      rw [firstBy_append_singleton, keep]
      split
      · exact ih
      · rename_i absent
        rw [List.map_append, List.nodup_append]
        refine ⟨ih, List.nodup_singleton _, fun one kept other new => ?_⟩
        rw [List.map_singleton, List.mem_singleton] at new
        subst new
        exact fun same => absent (same ▸ kept)

end FirstBy
