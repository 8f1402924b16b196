import Neutrino.CanonicalLabels
import Neutrino.JsonParse

/-! Node ids: the kind and the components of a node can be read back from its id. -/

namespace Neutrino.Projection

/-- Numbers written alike are equal. -/
theorem toString_nat_inj {first second : Nat} : toString first = toString second ↔ first = second := by
  constructor
  · intro same
    have numbers := congrArg (fun text : String => readDigits text.toList) same
    simp only [show ∀ number : Nat, (toString number).toList = Nat.toDigits 10 number from
      toString_ofNat, readDigits_toDigits, Option.some.injEq] at numbers
    exact numbers
  · rintro rfl
    rfl

/-- A component behind its length. -/
def frameComponent (component : String) : String :=
  "|" ++ toString component.utf8ByteSize ++ ":" ++ component

theorem projectionNodeId_append (start : String) (components : List String) :
    (components.foldl (fun id component =>
        id ++ "|" ++ toString component.utf8ByteSize ++ ":" ++ component) start).toList =
      start.toList ++ components.flatMap fun component => (frameComponent component).toList := by
  induction components generalizing start with
  | nil => simp
  | cons component rest ih =>
      rw [List.foldl_cons, ih, List.flatMap_cons]
      simp only [frameComponent, String.toList_append, List.append_assoc]

theorem projectionNodeId_toList (kind : ProjectionNodeKind) (components : List String) :
    (projectionNodeId kind components).toList = Nat.toDigits 10 kind.ordinal ++
      components.flatMap fun component => (frameComponent component).toList := by
  rw [projectionNodeId, projectionNodeId_append]
  exact congrArg (· ++ _) (toString_ofNat kind.ordinal)

theorem frameComponent_toList (component : String) :
    (frameComponent component).toList =
      '|' :: (Nat.toDigits 10 component.utf8ByteSize ++ ':' :: component.toList) := by
  have digits : (toString component.utf8ByteSize).toList =
    Nat.toDigits 10 component.utf8ByteSize := toString_ofNat _
  simp only [frameComponent, String.toList_append, digits]
  simp

/-- The text does not start with a digit. -/
def StartsApart (chars : List Char) : Prop := ∀ c ∈ chars.head?, c.isDigit = false

theorem digits_append_inj {first second : Nat} {after after' : List Char}
    (apart : StartsApart after) (apart' : StartsApart after')
    (same : Nat.toDigits 10 first ++ after = Nat.toDigits 10 second ++ after') :
    first = second ∧ after = after' := by
  have ends : ∀ {number : Nat} {rest : List Char}, StartsApart rest →
      (Nat.toDigits 10 number ++ rest).takeWhile Char.isDigit = Nat.toDigits 10 number := by
    intro number rest apart
    have stops : rest.takeWhile Char.isDigit = [] := by
      cases rest with
      | nil => rfl
      | cons c chars => simp [apart c rfl]
    rw [List.takeWhile_append_of_pos fun c listed => isDigit_toDigits listed, stops,
      List.append_nil]
  have digits : Nat.toDigits 10 first = Nat.toDigits 10 second := by
    rw [← ends apart, same, ends apart']
  have numbers := congrArg readDigits digits
  rw [readDigits_toDigits, readDigits_toDigits, Option.some.injEq] at numbers
  rw [digits] at same
  exact ⟨numbers, List.append_cancel_left same⟩

/-- Texts of one size that start alike are equal. -/
theorem sized_append_inj {first second : String} {after after' : List Char}
    (sized : first.utf8ByteSize = second.utf8ByteSize)
    (same : first.toList ++ after = second.toList ++ after') : first = second ∧ after = after' := by
  have shorter : ∀ {short long : String} {rest : List Char},
      short.utf8ByteSize = long.utf8ByteSize → long.toList = short.toList ++ rest → rest = [] := by
    intro short long rest sized longer
    have text : long = short ++ String.ofList rest := by
      apply String.toList_injective
      rw [longer, String.toList_append, String.toList_ofList]
    rw [text, String.utf8ByteSize_append] at sized
    have empty : String.ofList rest = "" := String.utf8ByteSize_eq_zero_iff.mp (by omega)
    simpa using congrArg String.toList empty
  rcases List.append_eq_append_iff.mp same with ⟨rest, longer, later⟩ | ⟨rest, longer, later⟩
  · obtain rfl := shorter sized longer
    exact ⟨String.toList_injective (by simpa using longer.symm), by simpa using later⟩
  · obtain rfl := shorter sized.symm longer
    exact ⟨String.toList_injective (by simpa using longer), by simpa using later.symm⟩

theorem components_inj {first second : List String}
    (same : (first.flatMap fun component => (frameComponent component).toList) =
      second.flatMap fun component => (frameComponent component).toList) : first = second := by
  induction first generalizing second with
  | nil =>
      cases second with
      | nil => rfl
      | cons head tail => simp [frameComponent_toList] at same
  | cons component rest ih =>
      cases second with
      | nil => simp [frameComponent_toList] at same
      | cons head tail =>
          simp only [List.flatMap_cons, frameComponent_toList, List.cons_append, List.append_assoc,
            List.cons.injEq, true_and] at same
          obtain ⟨sizes, bodies⟩ := digits_append_inj (by simp [StartsApart]) (by simp [StartsApart])
            same
          rw [List.cons.injEq] at bodies
          obtain ⟨rfl, others⟩ := sized_append_inj sizes bodies.2
          rw [ih]
          simpa only [frameComponent_toList] using others

theorem ordinal_injective : Function.Injective ProjectionNodeKind.ordinal := by
  intro first second same
  cases first <;> cases second <;> first | rfl | exact absurd same (by decide)

/-- Nodes of one id are of one kind and have the same components. -/
theorem projectionNodeId_inj {kind other : ProjectionNodeKind} {components others : List String} :
    projectionNodeId kind components = projectionNodeId other others ↔
      kind = other ∧ components = others := by
  constructor
  · intro same
    have apart : ∀ components : List String, StartsApart
        (components.flatMap fun component => (frameComponent component).toList) := by
      intro components
      cases components <;> simp [StartsApart, frameComponent_toList]
    have chars := congrArg String.toList same
    rw [projectionNodeId_toList, projectionNodeId_toList] at chars
    obtain ⟨ordinals, bodies⟩ := digits_append_inj (apart _) (apart _) chars
    exact ⟨ordinal_injective ordinals, components_inj bodies⟩
  · rintro ⟨rfl, rfl⟩
    rfl

theorem projectionNodeId_ne_empty (kind : ProjectionNodeKind) (components : List String) :
    projectionNodeId kind components ≠ "" := by
  intro empty
  have chars := congrArg String.toList empty
  rw [projectionNodeId_toList] at chars
  exact Nat.toDigits_ne_nil (List.append_eq_nil_iff.mp chars).1

end Neutrino.Projection
