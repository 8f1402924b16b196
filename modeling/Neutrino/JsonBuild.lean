import Neutrino.JsonLaws

/-! Objects as the emitters build them, member by member, and that the library can print and read
back what is built so. -/

namespace Neutrino

namespace Json

/-- An object made of a list of members; of two of one key the first stays. -/
def Object.ofMembers (members : List (String × Json)) : Object :=
  members.foldl (fun object member => object.insert member.1 member.2) []

/-- A member set, whether or not it was there. -/
def Object.put (object : Object) (key : String) (value : Json) : Object :=
  (object.erase key).insert key value

def objectOf (members : List (String × Json)) : Json := .object (Object.ofMembers members)

def strings (texts : List String) : Json := .array (texts.map .string)

def integer (value : Int) : Json := .number (.integer (Int64.ofInt value))

def orNull (text : String) : Json := if text = "" then .null else .string text

/-! Members. -/

namespace Object

variable {object : Object} {key other : String} {value : Json}

theorem get_eq_none : object.get key = none ↔ key ∉ object.map Prod.fst := by
  simp only [get, Option.map_eq_none_iff, List.find?_eq_none, List.mem_map, not_exists, not_and]
  constructor
  · intro absent member listed same
    exact absent member listed (by simp [same])
  · intro absent member listed same
    exact absent member listed (by simpa using same)

theorem get_cons (key : String) (value : Json) (rest : Object) (name : String) :
    Object.get ((key, value) :: rest) name =
      if key = name then some value else rest.get name := by
  by_cases same : key = name
  · simp [get, same]
  · simp [get, same]

theorem mem_of_get (found : object.get key = some value) : (key, value) ∈ object := by
  unfold get at found
  obtain ⟨member, located, rfl⟩ := Option.map_eq_some_iff.mp found
  have same : member.1 = key := by simpa using List.find?_some located
  rw [← same]
  exact List.mem_of_find?_eq_some located

theorem erase_fresh (object : Object) (key : String) : key ∉ (object.erase key).map Prod.fst := by
  simp [erase]

theorem put_eq (object : Object) (key : String) (value : Json) :
    object.put key value = (object.erase key).takeWhile (fun member => member.1 < key) ++
      (key, value) :: (object.erase key).dropWhile (fun member => member.1 < key) :=
  insert_fresh (erase_fresh object key) value

/-- A selection that leaves a key out does not see its member. -/
theorem filter_put {keep : String → Bool} (skipped : keep key = false) (object : Object)
    (value : Json) : (object.put key value).filter (fun member => keep member.1) =
      object.filter fun member => keep member.1 := by
  rw [put_eq, List.filter_append, List.filter_cons_of_neg (by simp [skipped]),
    ← List.filter_append, List.takeWhile_append_dropWhile, erase, List.filter_filter]
  refine List.filter_congr fun member _ => ?_
  by_cases same : member.1 = key
  · simp [same, skipped]
  · simp [same]

theorem get_append_of_absent {front back : Object} (absent : key ∉ front.map Prod.fst) :
    get (front ++ back) key = back.get key := by
  have missing : front.find? (fun member => member.1 == key) = none := by
    rw [List.find?_eq_none]
    intro member listed same
    exact absent (List.mem_map.mpr ⟨member, listed, by simpa using same⟩)
  simp [get, List.find?_append, missing]

theorem get_put (object : Object) (key : String) (value : Json) :
    (object.put key value).get key = some value := by
  rw [put_eq, get_append_of_absent]
  · simp [get]
  · intro listed
    obtain ⟨member, taken, same⟩ := List.mem_map.mp listed
    exact erase_fresh object key
      (List.mem_map.mpr ⟨member, (List.takeWhile_sublist _).subset taken, same⟩)

theorem get_insert (object : Object) (key : String) (value : Json) (name : String) :
    (object.insert key value).get name =
      (object.get name).or (if key = name then some value else none) := by
  by_cases present : key ∈ object.map Prod.fst
  · have kept : object.insert key value = object := by
      obtain ⟨member, listed, same⟩ := List.mem_map.mp present
      rw [insert, if_pos (List.any_eq_true.mpr ⟨member, listed, by simpa using same⟩)]
    rw [kept]
    by_cases same : key = name
    · subst same
      obtain ⟨found, got⟩ := Option.ne_none_iff_exists'.mp (mt get_eq_none.mp (not_not.mpr present))
      rw [got, Option.some_or]
    · rw [if_neg same, Option.or_none]
  · rw [insert_fresh present]
    by_cases same : key = name
    · subst same
      rw [get_eq_none.mpr present, if_pos rfl, get_append_of_absent, Option.none_or]
      · simp [get]
      · intro listed
        exact present (((List.takeWhile_sublist _).map Prod.fst).subset listed)
    · have skipped : get (object.takeWhile (fun member => member.1 < key) ++
          (key, value) :: object.dropWhile (fun member => member.1 < key)) name =
            object.get name := by
        rw [get, List.find?_append, List.find?_cons_of_neg (by simpa using same),
          ← List.find?_append, List.takeWhile_append_dropWhile, get]
      rw [skipped, if_neg same, Option.or_none]

/-- A member of a built object is the first of its key. -/
theorem get_ofMembers (members : List (String × Json)) (name : String) :
    (ofMembers members).get name = Object.get members name := by
  have folded : ∀ object : Object,
      Object.get (members.foldl (fun object member => object.insert member.1 member.2) object)
        name = (object.get name).or (Object.get members name) := by
    induction members with
    | nil => exact fun object => by simp [get]
    | cons member rest ih =>
        intro object
        rw [List.foldl_cons, ih, get_insert, Option.or_assoc]
        congr 1
        rw [get_cons member.1 member.2]
        by_cases same : member.1 = name
        · rw [if_pos same, if_pos same, Option.some_or]
        · rw [if_neg same, if_neg same, Option.none_or]
  rw [ofMembers, folded]
  simp [get]

end Object

/-! What the library reads back. -/

/-- A value that the library prints and reads back. -/
structure Printable (json : Json) : Prop where
  integral : json.Integral
  ordered : json.Ordered

theorem membersIntegral_iff {members : List (String × Json)} :
    MembersIntegral members ↔ ∀ member ∈ members, member.2.Integral := by
  induction members with
  | nil => simp [MembersIntegral]
  | cons member rest ih => simp [MembersIntegral, ih]

theorem membersOrdered_iff {members : List (String × Json)} :
    MembersOrdered members ↔ ∀ member ∈ members, member.2.Ordered := by
  induction members with
  | nil => simp [MembersOrdered]
  | cons member rest ih => simp [MembersOrdered, ih]

theorem allIntegral_iff {elements : List Json} :
    AllIntegral elements ↔ ∀ element ∈ elements, element.Integral := by
  induction elements with
  | nil => simp [AllIntegral]
  | cons element rest ih => simp [AllIntegral, ih]

theorem allOrdered_iff {elements : List Json} :
    AllOrdered elements ↔ ∀ element ∈ elements, element.Ordered := by
  induction elements with
  | nil => simp [AllOrdered]
  | cons element rest ih => simp [AllOrdered, ih]

theorem printable_array {elements : List Json} :
    Printable (.array elements) ↔ ∀ element ∈ elements, Printable element := by
  constructor
  · rintro ⟨isIntegral, isOrdered⟩ element listed
    exact ⟨allIntegral_iff.mp isIntegral element listed, allOrdered_iff.mp isOrdered element listed⟩
  · intro all
    exact ⟨allIntegral_iff.mpr fun element listed => (all element listed).integral,
      allOrdered_iff.mpr fun element listed => (all element listed).ordered⟩

theorem printable_object {members : Object} : Printable (.object members) ↔
    (members.map Prod.fst).Pairwise (· < ·) ∧ ∀ member ∈ members, Printable member.2 := by
  constructor
  · rintro ⟨integral, sorted, ordered⟩
    exact ⟨sorted, fun member listed => ⟨membersIntegral_iff.mp integral member listed,
      membersOrdered_iff.mp ordered member listed⟩⟩
  · rintro ⟨sorted, all⟩
    exact ⟨membersIntegral_iff.mpr fun member listed => (all member listed).integral, sorted,
      membersOrdered_iff.mpr fun member listed => (all member listed).ordered⟩

theorem Object.mem_insert {object : Object} {key : String} {value : Json}
    {member : String × Json} (listed : member ∈ object.insert key value) :
    member ∈ object ∨ member = (key, value) := by
  unfold Object.insert at listed
  split at listed
  · exact .inl listed
  · rw [List.mem_append, List.mem_cons] at listed
    rcases listed with early | same | late
    · exact .inl ((List.takeWhile_sublist _).subset early)
    · exact .inr same
    · exact .inl ((List.dropWhile_sublist _).subset late)

/-- An insertion keeps the order of the keys. -/
theorem Object.insert_sorted {object : Object} (sorted : (object.map Prod.fst).Pairwise (· < ·))
    (key : String) (value : Json) :
    ((object.insert key value).map Prod.fst).Pairwise (· < ·) := by
  unfold Object.insert
  split
  · exact sorted
  · next absent =>
      induction object with
      | nil => simp
      | cons member rest ih =>
          obtain ⟨below, later⟩ := List.pairwise_cons.mp sorted
          rw [List.any_cons, Bool.or_eq_true, not_or] at absent
          by_cases before : member.1 < key
          · have inner := ih later absent.2
            rw [List.takeWhile_cons_of_pos (by simpa using before),
              List.dropWhile_cons_of_pos (by simpa using before), List.cons_append, List.map_cons,
              List.pairwise_cons]
            refine ⟨fun other listed => ?_, inner⟩
            obtain ⟨found, place, rfl⟩ := List.mem_map.mp listed
            rw [List.mem_append, List.mem_cons] at place
            rcases place with early | rfl | late
            · exact below _ (List.mem_map_of_mem ((List.takeWhile_sublist _).subset early))
            · exact before
            · exact below _ (List.mem_map_of_mem ((List.dropWhile_sublist _).subset late))
          · have different : member.1 ≠ key := by simpa using absent.1
            have past : key < member.1 :=
              Std.lt_of_le_of_ne (Std.not_lt.mp before) (Ne.symm different)
            rw [List.takeWhile_cons_of_neg (by simpa using before),
              List.dropWhile_cons_of_neg (by simpa using before), List.nil_append, List.map_cons,
              List.pairwise_cons]
            refine ⟨fun other listed => ?_, sorted⟩
            rcases List.mem_cons.mp listed with rfl | placed
            · exact past
            · exact Std.lt_trans past (below other placed)

theorem Printable.insert {object : Object} (printable : Printable (.object object)) {key : String}
    {value : Json} (written : Printable value) : Printable (.object (Object.insert object key value)) := by
  obtain ⟨sorted, all⟩ := printable_object.mp printable
  refine printable_object.mpr ⟨Object.insert_sorted sorted key value, fun member listed => ?_⟩
  rcases Object.mem_insert listed with old | rfl
  · exact all member old
  · exact written

theorem Printable.put {object : Object} (printable : Printable (.object object)) {key : String}
    {value : Json} (written : Printable value) : Printable (.object (Object.put object key value)) := by
  obtain ⟨sorted, all⟩ := printable_object.mp printable
  have kept : Printable (.object (Object.erase object key)) := by
    refine printable_object.mpr ⟨?_, fun member listed => ?_⟩
    · exact sorted.sublist (List.filter_sublist.map _)
    · exact all member (List.mem_of_mem_filter listed)
  exact kept.insert written

theorem printable_objectOf {members : List (String × Json)}
    (all : ∀ member ∈ members, Printable member.2) : Printable (objectOf members) := by
  have folded : ∀ (object : Object), Printable (.object object) → Printable (.object
      (members.foldl (fun object member => Object.insert object member.1 member.2) object)) := by
    induction members with
    | nil => exact fun object printable => printable
    | cons member rest ih =>
        intro object printable
        exact ih (fun other listed => all other (List.mem_cons_of_mem _ listed)) _
          (printable.insert (all member (List.mem_cons_self ..)))
  exact folded [] (printable_object.mpr ⟨.nil, by simp⟩)

@[simp] theorem printable_null : Printable .null := ⟨trivial, trivial⟩

@[simp] theorem printable_boolean (value : Bool) : Printable (.boolean value) := ⟨trivial, trivial⟩

@[simp] theorem printable_string (value : String) : Printable (.string value) :=
  ⟨trivial, trivial⟩

@[simp] theorem printable_integer (value : Int) : Printable (integer value) := ⟨trivial, trivial⟩

@[simp] theorem printable_strings (texts : List String) : Printable (strings texts) := by
  rw [strings, printable_array]
  intro element listed
  obtain ⟨value, _, rfl⟩ := List.mem_map.mp listed
  exact printable_string value

@[simp] theorem printable_orNull (text : String) : Printable (orNull text) := by
  unfold orNull
  split <;> simp

end Json

end Neutrino
