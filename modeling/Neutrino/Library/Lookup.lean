import Neutrino.Library.Checked

/-! Lookups in two maps that agree, and the results read from them. -/

namespace Lookup

open Checked

variable {α ε : Type} {excused : Prop}

/-- One result on both sides, or, where that is excused, none on at least one. -/
def Alike (excused : Prop) (first second : Option α) : Prop :=
  first = second ∨ excused ∧ (first = none ∨ second = none)

namespace Alike

theorem of_eq {first second : Option α} (same : first = second) : Alike excused first second :=
  .inl same

theorem strict {first second : Option α} (same : first = second) : Alike False first second :=
  .inl same

/-- Where nothing is excused, lookups that agree are equal. -/
theorem eq {first second : Option α} (alike : Alike excused first second) (strict : ¬excused) :
    first = second :=
  alike.resolve_right fun missing => strict missing.1

/-- Reading both fails alike, or gives one value. -/
theorem agrees {first second : Option α} (alike : Alike excused first second) (failure : ε) :
    Agrees (fun _ => excused) Eq (first.elim (.error failure) .ok)
      (second.elim (.error failure) .ok) := by
  rcases alike with rfl | ⟨allowed, missing⟩
  · exact .refl _ fun _ => rfl
  · rcases missing with rfl | rfl
    · exact .left _ allowed
    · exact .right _ allowed

theorem insert {map other : Std.ExtTreeMap String α} {name : String}
    (alike : Alike excused map[name]? other[name]?) (key : String) (value : α) :
    Alike excused (map.insert key value)[name]? (other.insert key value)[name]? := by
  rw [Std.ExtTreeMap.getElem?_insert, Std.ExtTreeMap.getElem?_insert]
  split
  · exact .of_eq rfl
  · exact alike

end Alike

end Lookup
