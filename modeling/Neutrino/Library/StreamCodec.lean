import Neutrino.Library.Checked

/-! Units coded one behind the other in a stream, and a reader that takes one unit off the
front: reading a whole stream undoes writing one, and a cut stream is read only when the cut
falls between two units. -/

namespace StreamCodec

open Checked

/-- A code of units as nonempty strings, with a reader for the unit at the front. -/
structure Codec (α β ε : Type) where
  encode : α → Except ε (List β)
  next : List β → Except ε (α × List β)
  next_encode : ∀ {value code} rest, encode value = .ok code →
    next (code ++ rest) = .ok (value, rest)
  encode_next : ∀ {bytes value rest}, next bytes = .ok (value, rest) →
    ∃ code, encode value = .ok code ∧ bytes = code ++ rest
  code_ne_nil : ∀ {value code}, encode value = .ok code → code ≠ []

namespace Codec

variable {α β ε : Type} (codec : Codec α β ε)

def encodeAll (values : List α) : Except ε (List β) := List.flatten <$> collect codec.encode values

theorem next_shorter {bytes rest : List β} {value : α}
    (taken : codec.next bytes = .ok (value, rest)) : rest.length < bytes.length := by
  obtain ⟨code, coded, rfl⟩ := codec.encode_next taken
  have some := List.length_pos_iff.mpr (codec.code_ne_nil coded)
  rw [List.length_append]
  omega

/-- Reads units until nothing is left, and stops at the first failure. -/
def decodeAll (bytes : List β) : Except ε (List α) :=
  match bytes with
  | [] => .ok []
  | first :: others =>
      match _taken : codec.next (first :: others) with
      | .error failure => .error failure
      | .ok (value, rest) => (value :: ·) <$> decodeAll rest
termination_by bytes.length
decreasing_by exact codec.next_shorter _taken

variable {codec}

theorem encodeAll_cons {value : α} {values : List α} {bytes : List β} :
    codec.encodeAll (value :: values) = .ok bytes ↔
      ∃ code rest, codec.encode value = .ok code ∧ codec.encodeAll values = .ok rest ∧
        code ++ rest = bytes := by
  simp only [encodeAll, collect, map_ok, bind_ok, pure_ok]
  constructor
  · rintro ⟨_, ⟨code, coded, codes, others, rfl⟩, rfl⟩
    exact ⟨code, codes.flatten, coded, ⟨codes, others, rfl⟩, rfl⟩
  · rintro ⟨code, _, coded, ⟨codes, others, rfl⟩, rfl⟩
    exact ⟨code :: codes, ⟨code, coded, codes, others, rfl⟩, rfl⟩

theorem next_nil : ∃ failure, codec.next [] = .error failure := by
  cases taken : codec.next [] with
  | error failure => exact ⟨failure, rfl⟩
  | ok unit =>
      obtain ⟨code, coded, nothing⟩ := codec.encode_next taken
      have empty : code = [] := (List.append_eq_nil_iff.mp nothing.symm).1
      exact absurd empty (codec.code_ne_nil coded)

/-- Any bytes but none are read by taking the first unit. -/
theorem decodeAll_next {bytes : List β} (some : bytes ≠ []) :
    codec.decodeAll bytes = match codec.next bytes with
      | .error failure => .error failure
      | .ok (value, rest) => (value :: ·) <$> codec.decodeAll rest := by
  obtain ⟨first, others, rfl⟩ := List.exists_cons_of_ne_nil some
  rw [decodeAll]
  split <;> rename_i taken <;> simp only [taken]

theorem decodeAll_cons {value : α} {values : List α} {bytes : List β} :
    codec.decodeAll bytes = .ok (value :: values) ↔
      ∃ rest, codec.next bytes = .ok (value, rest) ∧ codec.decodeAll rest = .ok values := by
  by_cases some : bytes = []
  · subst some
    obtain ⟨failure, refused⟩ := codec.next_nil
    simp [decodeAll, refused]
  · rw [decodeAll_next some]
    cases codec.next bytes with
    | error failure => simp
    | ok unit =>
        obtain ⟨front, rest⟩ := unit
        simp only [map_ok, List.cons.injEq, Except.ok.injEq, Prod.mk.injEq]
        constructor
        · rintro ⟨others, read, rfl, rfl⟩
          exact ⟨rest, ⟨rfl, rfl⟩, read⟩
        · rintro ⟨rest, ⟨rfl, rfl⟩, read⟩
          exact ⟨values, read, rfl, rfl⟩

theorem decodeAll_nil {bytes : List β} : codec.decodeAll bytes = .ok [] ↔ bytes = [] := by
  constructor
  · intro read
    by_contra some
    rw [decodeAll_next some] at read
    cases taken : codec.next bytes with
    | error failure =>
        rw [taken] at read
        cases read
    | ok unit =>
        rw [taken, map_ok] at read
        obtain ⟨_, _, impossible⟩ := read
        cases impossible
  · rintro rfl
    rw [decodeAll]

/-- Reading a whole stream and writing it undo each other. -/
theorem decodeAll_iff {values : List α} {bytes : List β} :
    codec.decodeAll bytes = .ok values ↔ codec.encodeAll values = .ok bytes := by
  induction values generalizing bytes with
  | nil =>
      rw [decodeAll_nil]
      simp [encodeAll, collect, Functor.map, Except.map, eq_comm]
  | cons value values ih =>
      rw [decodeAll_cons, encodeAll_cons]
      constructor
      · rintro ⟨rest, taken, read⟩
        obtain ⟨code, coded, rfl⟩ := codec.encode_next taken
        exact ⟨code, rest, coded, ih.mp read, rfl⟩
      · rintro ⟨code, rest, coded, written, rfl⟩
        exact ⟨rest, codec.next_encode rest coded, ih.mpr written⟩

/-- The part of a written stream that can be read ends between two of its units. -/
theorem readable_prefix {values : List α} {bytes rest : List β}
    (written : codec.encodeAll values = .ok (bytes ++ rest)) :
    (∃ read, codec.decodeAll bytes = .ok read) ↔
      ∃ count, codec.encodeAll (values.take count) = .ok bytes := by
  constructor
  · rintro ⟨read, accepted⟩
    induction read generalizing values bytes with
    | nil =>
        rw [decodeAll_nil.mp accepted]
        exact ⟨0, rfl⟩
    | cons value others ih =>
        obtain ⟨tail, taken, later⟩ := decodeAll_cons.mp accepted
        obtain ⟨code, coded, rfl⟩ := codec.encode_next taken
        have whole := decodeAll_iff.mpr written
        rw [List.append_assoc] at whole
        cases values with
        | nil =>
            have empty := decodeAll_nil.mp whole
            exact absurd (List.append_eq_nil_iff.mp empty).1 (codec.code_ne_nil coded)
        | cons first following =>
            obtain ⟨behind, front, read⟩ := decodeAll_cons.mp whole
            rw [codec.next_encode _ coded] at front
            cases front
            obtain ⟨count, cut⟩ := ih (decodeAll_iff.mp read) later
            exact ⟨count + 1, encodeAll_cons.mpr ⟨code, tail, coded, cut, rfl⟩⟩
  · rintro ⟨count, cut⟩
    exact ⟨_, decodeAll_iff.mpr cut⟩

end Codec

end StreamCodec
