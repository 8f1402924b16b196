import Neutrino.JsonBuild

/-! What the JSON library promises of values without doubles: the value read back is the value
written, as the reader holds its numbers, with the members of every object in order. -/

namespace Neutrino

open Projection

/-- A text form that reads every value without doubles back as it holds it, prints it the same
however its numbers are held, and reads members into the order of their keys. -/
structure Projection.JsonText.Exact (text : JsonText) : Prop where
  reads : ∀ json : Json, json.Whole → json.Ordered →
    text.parse (text.compactJson json) = .ok json.held
  prints : ∀ json : Json, text.compactJson json.held = text.compactJson json
  ordered : ∀ bytes json, text.parse bytes = .ok json → json.Ordered

namespace Json

/-! Values as the reader holds them. -/

theorem Number.compact_held (value : Number) : value.held.compact = value.compact := by
  cases value with
  | integer value => rfl
  | double value => rfl
  | unsigned value =>
      simp only [Number.held]
      by_cases small : value.toNat < 2 ^ 63
      · have signed : (Int64.ofNat value.toNat).toInt = value.toNat :=
          Int64.toInt_ofNat_of_lt small
        rw [if_pos small, Number.compact, Number.compact, signed]
        rfl
      · rw [if_neg small]

theorem Number.held_held (value : Number) : value.held.held = value.held := by
  cases value with
  | integer value => rfl
  | double value => rfl
  | unsigned value =>
      simp only [Number.held]
      by_cases small : value.toNat < 2 ^ 63
      · rw [if_pos small]
      · simp only [if_neg small]

theorem heldMembers_eq (members : Object) :
    heldMembers members = members.map fun member => (member.1, member.2.held) := by
  induction members with
  | nil => rfl
  | cons member rest ih => rw [heldMembers, ih, List.map_cons]

theorem heldElements_eq (elements : List Json) : heldElements elements = elements.map held := by
  induction elements with
  | nil => rfl
  | cons element rest ih => rw [heldElements, ih, List.map_cons]

theorem keys_held (members : Object) :
    (heldMembers members).map Prod.fst = members.map Prod.fst := by
  rw [heldMembers_eq, List.map_map]
  rfl

theorem get_held (object : Object) (key : String) :
    Object.get (heldMembers object) key = (object.get key).map held := by
  induction object with
  | nil => rfl
  | cons member rest ih =>
      rw [heldMembers, Object.get_cons, Object.get_cons member.1 member.2, ih]
      split <;> rfl

mutual

theorem compact_held : (json : Json) → json.held.compact = json.compact
  | .null | .boolean _ | .string _ | .array [] | .object [] => rfl
  | .number value => value.compact_held
  | .array (first :: others) => by
      rw [held, heldElements, compact, compact_held first, compactElements_held others, compact]
  | .object ((key, value) :: others) => by
      rw [held, heldMembers, compact, compact_held value, compactMembers_held others, compact]

theorem compactElements_held : (elements : List Json) →
    compactElements (heldElements elements) = compactElements elements
  | [] => rfl
  | element :: others => by
      rw [heldElements, compactElements, compact_held element, compactElements_held others,
        compactElements]

theorem compactMembers_held : (members : List (String × Json)) →
    compactMembers (heldMembers members) = compactMembers members
  | [] => rfl
  | (key, value) :: others => by
      rw [heldMembers, compactMembers, compact_held value, compactMembers_held others,
        compactMembers]

end

mutual

theorem held_held : (json : Json) → json.held.held = json.held
  | .null | .boolean _ | .string _ => rfl
  | .number value => congrArg Json.number value.held_held
  | .array elements => congrArg Json.array (heldElements_held elements)
  | .object members => congrArg Json.object (heldMembers_held members)

theorem heldElements_held : (elements : List Json) →
    heldElements (heldElements elements) = heldElements elements
  | [] => rfl
  | element :: others => congrArg₂ List.cons (held_held element) (heldElements_held others)

theorem heldMembers_held : (members : List (String × Json)) →
    heldMembers (heldMembers members) = heldMembers members
  | [] => rfl
  | (key, value) :: others =>
      congrArg₂ List.cons (congrArg (Prod.mk key) (held_held value)) (heldMembers_held others)

end

mutual

theorem whole_held : {json : Json} → json.Whole → json.held.Whole
  | .null, _ | .boolean _, _ | .string _, _ | .number (.integer _), _ => trivial
  | .number (.unsigned value), _ => by
      simp only [held, Number.held]
      split <;> trivial
  | .array _, whole => allWhole_held whole
  | .object _, whole => membersWhole_held whole

theorem allWhole_held : {elements : List Json} → AllWhole elements →
    AllWhole (heldElements elements)
  | [], _ => trivial
  | _ :: _, whole => And.intro (whole_held whole.1) (allWhole_held whole.2)

theorem membersWhole_held : {members : List (String × Json)} → MembersWhole members →
    MembersWhole (heldMembers members)
  | [], _ => trivial
  | _ :: _, whole => And.intro (whole_held whole.1) (membersWhole_held whole.2)

end

mutual

theorem ordered_held : {json : Json} → json.Ordered → json.held.Ordered
  | .null, _ | .boolean _, _ | .string _, _ | .number _, _ => trivial
  | .array _, ordered => allOrdered_held ordered
  | .object members, ordered => by
      refine And.intro ?_ (membersOrdered_held ordered.2)
      rw [keys_held]
      exact ordered.1

theorem allOrdered_held : {elements : List Json} → AllOrdered elements →
    AllOrdered (heldElements elements)
  | [], _ => trivial
  | _ :: _, ordered => And.intro (ordered_held ordered.1) (allOrdered_held ordered.2)

theorem membersOrdered_held : {members : List (String × Json)} → MembersOrdered members →
    MembersOrdered (heldMembers members)
  | [], _ => trivial
  | _ :: _, ordered => And.intro (ordered_held ordered.1) (membersOrdered_held ordered.2)

end

/-! A reader that places the members of every object by their keys. -/

mutual

/-- The members of every object in the order of their keys; of two of one key the last stays. -/
def arranged : Json → Json
  | .array elements => .array (arrangedElements elements)
  | .object members => .object (arrangedMembers members)
  | json => json

def arrangedElements : List Json → List Json
  | [] => []
  | element :: rest => element.arranged :: arrangedElements rest

def arrangedMembers : List (String × Json) → Object
  | [] => []
  | (key, value) :: rest => Object.insert (arrangedMembers rest) key value.arranged

end

mutual

theorem ordered_arranged : (json : Json) → json.arranged.Ordered
  | .null | .boolean _ | .string _ | .number _ => trivial
  | .array elements => allOrdered_arranged elements
  | .object members => orderedMembers_arranged members

theorem allOrdered_arranged : (elements : List Json) → AllOrdered (arrangedElements elements)
  | [] => trivial
  | element :: rest => And.intro (ordered_arranged element) (allOrdered_arranged rest)

theorem orderedMembers_arranged : (members : List (String × Json)) →
    (Json.object (arrangedMembers members)).Ordered
  | [] => And.intro List.Pairwise.nil trivial
  | (key, value) :: rest => by
      obtain ⟨sorted, ordered⟩ := orderedMembers_arranged rest
      refine And.intro (Object.insert_sorted sorted key value.arranged) ?_
      rw [membersOrdered_iff] at ordered ⊢
      intro member listed
      rcases Object.mem_insert listed with old | rfl
      · exact ordered member old
      · exact ordered_arranged value

end

theorem insert_least {object : Object} {key : String}
    (least : ∀ name ∈ object.map Prod.fst, key < name) (value : Json) :
    object.insert key value = (key, value) :: object := by
  have fresh : key ∉ object.map Prod.fst := fun listed => lt_irrefl key (least key listed)
  rw [Object.insert_fresh fresh]
  cases object with
  | nil => rfl
  | cons member rest =>
      have after : ¬member.1 < key := lt_asymm (least member.1 (by simp))
      rw [List.takeWhile_cons_of_neg (by simpa using after),
        List.dropWhile_cons_of_neg (by simpa using after), List.nil_append]

mutual

theorem arranged_ordered : {json : Json} → json.Ordered → json.arranged = json
  | .null, _ | .boolean _, _ | .string _, _ | .number _, _ => rfl
  | .array _, ordered => congrArg Json.array (arrangedElements_ordered ordered)
  | .object _, ordered => congrArg Json.object (arrangedMembers_ordered ordered.1 ordered.2)

theorem arrangedElements_ordered : {elements : List Json} → AllOrdered elements →
    arrangedElements elements = elements
  | [], _ => rfl
  | _ :: _, ordered =>
      congrArg₂ List.cons (arranged_ordered ordered.1) (arrangedElements_ordered ordered.2)

theorem arrangedMembers_ordered : {members : List (String × Json)} →
    (members.map Prod.fst).Pairwise (· < ·) → MembersOrdered members →
    arrangedMembers members = members
  | [], _, _ => rfl
  | (key, value) :: rest, sorted, ordered => by
      obtain ⟨least, later⟩ := List.pairwise_cons.mp sorted
      rw [arrangedMembers, arrangedMembers_ordered later ordered.2, arranged_ordered ordered.1,
        insert_least least]

end

end Json

/-- The compact text with its reader, the members read placed by their keys. -/
def arrangedText : JsonText where
  compactJson := Json.compact
  parse bytes := (readJson bytes).map Json.arranged

theorem arrangedText_exact : arrangedText.Exact where
  reads json whole ordered := by
    show (readJson json.compact).map Json.arranged = .ok json.held
    rw [readJson_whole whole, Except.map, Json.arranged_ordered (Json.ordered_held ordered)]
  prints json := json.compact_held
  ordered bytes json parsed := by
    obtain ⟨read, -, rfl⟩ := Checked.map_ok.mp parsed
    exact Json.ordered_arranged read

/-! One value read where another was written. -/

namespace Json

mutual

/-- The value read has every member of the one written, at every depth, and its values. -/
def Carries : Json → Json → Prop
  | .array elements, .array read => AllCarried elements read
  | .object members, .object read => MembersCarried members read
  | written, read => read.held = written.held

def AllCarried : List Json → List Json → Prop
  | [], [] => True
  | written :: others, read :: rest => written.Carries read ∧ AllCarried others rest
  | _, _ => False

def MembersCarried : List (String × Json) → Object → Prop
  | [], _ => True
  | (key, written) :: others, actual =>
      (∃ read, actual.get key = some read ∧ written.Carries read) ∧ MembersCarried others actual

end

mutual

/-- The value read has no member, at any depth, that the one written does not have. -/
def Within : Json → Json → Prop
  | .array elements, .array read => AllWithin elements read
  | .object members, .object read =>
      (∀ key ∈ read.map Prod.fst, key ∈ members.map Prod.fst) ∧ MembersWithin members read
  | _, _ => True

def AllWithin : List Json → List Json → Prop
  | written :: others, read :: rest => written.Within read ∧ AllWithin others rest
  | _, _ => True

def MembersWithin : List (String × Json) → Object → Prop
  | [], _ => True
  | (key, written) :: others, actual =>
      (∀ read, actual.get key = some read → written.Within read) ∧ MembersWithin others actual

end

theorem Object.get_of_mem {object : Object} (sorted : (object.map Prod.fst).Pairwise (· < ·))
    {member : String × Json} (listed : member ∈ object) :
    object.get member.1 = some member.2 := by
  induction object with
  | nil => cases listed
  | cons first rest ih =>
      obtain ⟨least, later⟩ := List.pairwise_cons.mp sorted
      rw [Object.get_cons first.1 first.2]
      rcases List.mem_cons.mp listed with rfl | listed
      · rw [if_pos rfl]
      · have before := least member.1 (List.mem_map_of_mem listed)
        rw [if_neg before.ne]
        exact ih later listed

/-- Objects in the order of their keys are told by what they hold at each key. -/
theorem Object.ext_get {object other : Object} (sorted : (object.map Prod.fst).Pairwise (· < ·))
    (sorted' : (other.map Prod.fst).Pairwise (· < ·))
    (same : ∀ key, object.get key = other.get key) : object = other := by
  induction object generalizing other with
  | nil =>
      cases other with
      | nil => rfl
      | cons member rest =>
          have here := same member.1
          rw [Object.get_cons member.1 member.2, if_pos rfl] at here
          cases here
  | cons member rest ih =>
      obtain ⟨key, value⟩ := member
      obtain ⟨least, later⟩ := List.pairwise_cons.mp sorted
      cases other with
      | nil =>
          have here := same key
          rw [Object.get_cons, if_pos rfl] at here
          cases here
      | cons member' rest' =>
          obtain ⟨key', value'⟩ := member'
          obtain ⟨least', later'⟩ := List.pairwise_cons.mp sorted'
          have keys : key = key' := by
            by_contra differ
            have first := same key
            rw [Object.get_cons, Object.get_cons, if_pos rfl, if_neg (Ne.symm differ)] at first
            have second := same key'
            rw [Object.get_cons, Object.get_cons, if_neg differ, if_pos rfl] at second
            have after := least' key (List.mem_map_of_mem (Object.mem_of_get first.symm))
            have before := least key' (List.mem_map_of_mem (Object.mem_of_get second))
            exact lt_asymm after before
          subst keys
          have values := same key
          rw [Object.get_cons, Object.get_cons, if_pos rfl, if_pos rfl] at values
          obtain rfl := Option.some.inj values
          have tails : ∀ name, Object.get rest name = Object.get rest' name := by
            intro name
            by_cases here : key = name
            · subst here
              rw [Object.get_eq_none.mpr fun listed => lt_irrefl _ (least _ listed),
                Object.get_eq_none.mpr fun listed => lt_irrefl _ (least' _ listed)]
            · have whole := same name
              rwa [Object.get_cons, Object.get_cons, if_neg here, if_neg here] at whole
          rw [ih later later' tails]

mutual

/-- A value that has the members of the one written, and no other, is that value. -/
theorem held_of_carries : (written read : Json) → written.Ordered → read.Ordered →
    written.Carries read → written.Within read → read.held = written.held
  | .null, _, _, _, carries, _ | .boolean _, _, _, _, carries, _ | .string _, _, _, _, carries, _
  | .number _, _, _, _, carries, _ => by simpa [Carries] using carries
  | .array elements, .array read, ordered, ordered', carries, within =>
      congrArg Json.array (heldElements_of_carried elements read ordered ordered' carries within)
  | .object members, .object read, ordered, ordered', carries, within => by
      have same := heldMembers_of_carried members read ordered.2
        (membersOrdered_iff.mp ordered'.2) carries within.2
      refine congrArg Json.object (Object.ext_get ?_ ?_ fun key => ?_)
      · rw [keys_held]
        exact ordered'.1
      · rw [keys_held]
        exact ordered.1
      · rw [get_held, get_held]
        cases found : Object.get members key with
        | some value => exact same _ (Object.mem_of_get found)
        | none =>
            have absent := mt (within.1 key) (Object.get_eq_none.mp found)
            rw [Object.get_eq_none.mpr absent]
  | .array _, .null, _, _, carries, _ | .array _, .boolean _, _, _, carries, _
  | .array _, .string _, _, _, carries, _ | .array _, .number _, _, _, carries, _
  | .array _, .object _, _, _, carries, _ => by simpa [Carries] using carries
  | .object _, .null, _, _, carries, _ | .object _, .boolean _, _, _, carries, _
  | .object _, .string _, _, _, carries, _ | .object _, .number _, _, _, carries, _
  | .object _, .array _, _, _, carries, _ => by simpa [Carries] using carries

theorem heldElements_of_carried : (elements read : List Json) → AllOrdered elements →
    AllOrdered read → AllCarried elements read → AllWithin elements read →
    heldElements read = heldElements elements
  | [], [], _, _, _, _ => rfl
  | written :: others, read :: rest, ordered, ordered', carries, within =>
      congrArg₂ List.cons
        (held_of_carries written read ordered.1 ordered'.1 carries.1 within.1)
        (heldElements_of_carried others rest ordered.2 ordered'.2 carries.2 within.2)

theorem heldMembers_of_carried : (members : List (String × Json)) → (actual : Object) →
    MembersOrdered members → (∀ member ∈ actual, member.2.Ordered) →
    MembersCarried members actual → MembersWithin members actual →
    ∀ member ∈ members, (actual.get member.1).map held = some member.2.held
  | [], _, _, _, _, _ => by simp
  | (key, written) :: others, actual, ordered, ordered', carries, within => by
      obtain ⟨⟨read, found, carried⟩, rest⟩ := carries
      have here := held_of_carries written read ordered.1
        (ordered' _ (Object.mem_of_get found)) carried (within.1 read found)
      have later := heldMembers_of_carried others actual ordered.2 ordered' rest within.2
      intro member listed
      rcases List.mem_cons.mp listed with rfl | listed
      · rw [found, Option.map_some, here]
      · exact later member listed

end

mutual

/-- What is read back has the members of what was written. -/
theorem carries_held : (json : Json) → json.Ordered → json.Carries json.held
  | .null, _ | .boolean _, _ | .string _, _ => rfl
  | .number value, _ => congrArg Json.number value.held_held
  | .array elements, ordered => allCarried_held elements ordered
  | .object members, ordered =>
      membersCarried_of_get members _ ordered.2 fun member listed => by
        rw [get_held, Object.get_of_mem ordered.1 listed, Option.map_some]

theorem allCarried_held : (elements : List Json) → AllOrdered elements →
    AllCarried elements (heldElements elements)
  | [], _ => trivial
  | element :: rest, ordered =>
      And.intro (carries_held element ordered.1) (allCarried_held rest ordered.2)

theorem membersCarried_of_get : (members : List (String × Json)) → (actual : Object) →
    MembersOrdered members →
    (∀ member ∈ members, actual.get member.1 = some member.2.held) →
    MembersCarried members actual
  | [], _, _, _ => trivial
  | (_, value) :: rest, actual, ordered, found =>
      And.intro ⟨value.held, found _ (List.mem_cons_self ..), carries_held value ordered.1⟩
        (membersCarried_of_get rest actual ordered.2 fun member listed =>
          found member (List.mem_cons_of_mem _ listed))

end

end Json

end Neutrino
