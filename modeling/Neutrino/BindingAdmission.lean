import Neutrino.BindingManifest
import Neutrino.Library.Permuted
import Neutrino.Library.FirstBy

/-! Which binding manifests of the first version are admitted against a slot topology. -/

namespace Neutrino.BindingManifest

open PyJson Review Checked
open SpecValidator (memberOf isText elementsOf)

/-- A string, or nothing. -/
def Textual (value : PyJson) : Prop := value = .none ∨ ∃ text, value = .str text

theorem Textual.str (text : String) : Textual (.str text) := .inr ⟨text, rfl⟩

theorem same_textual {first second : PyJson} (known : Textual first) (known' : Textual second) :
    same first second = true ↔ first = second := by
  obtain rfl | ⟨text, rfl⟩ := known
  · obtain rfl | ⟨other, rfl⟩ := known'
    · simp
    · simp [same, number]
  · obtain rfl | ⟨other, rfl⟩ := known'
    · simp [same, number]
    · simp

theorem hashed_textual {value : PyJson} (known : Textual value) : hashed value = .ok () := by
  obtain rfl | ⟨text, rfl⟩ := known <;> rfl

theorem isText_iff {value : PyJson} : isText value = true ↔ ∃ text ≠ "", value = .str text := by
  cases value <;> simp [isText]

/-! Well-shaped documents. -/

def bindingFields : List String :=
  ["organizationId", "participantId", "slotId", "runtime", "assurance", "binder"]

structure ShapedBinding (binding : Dict) : Prop where
  fields : ∀ item ∈ binding, item.1 ∈ bindingFields
  textual : ∀ key ∈ bindingFields, Textual (get binding key)

/-- A manifest of the first version, of string fields and with at least one binding. -/
structure ShapedManifest (manifest : Dict) : Prop where
  fields : ∀ item ∈ manifest, item.1 ∈ ["kind", "schemaVersion", "capability", "bindings"]
  kind : get manifest "kind" = .str "neutrino.binding-manifest"
  version : eqInt (get manifest "schemaVersion") 1 = true
  capability : Textual (get manifest "capability")
  filled : bindingsOf manifest ≠ []
  bindings : ∀ binding ∈ bindingsOf manifest, ∃ items, binding = .dict items ∧ ShapedBinding items

/-- A slot of string fields, whose runtimes are strings. -/
structure ShapedSlot (row : SlotRow) : Prop where
  organization : Textual row.organizationId
  participant : Textual row.participantId
  slotId : ∃ text, get row.slot "slotId" = .str text
  textual : ∀ key ∈ ["lateBindingMode", "minAssurance", "authorizedBinder"],
    Textual (get row.slot key)
  runtimes : get row.slot "allowedRuntimes" = .none ∨
    ∃ texts : List String, get row.slot "allowedRuntimes" = .list (texts.map .str)

structure ShapedTopology (topology : Dict) : Prop where
  kind : get topology "kind" = .str "neutrino.slot-binding-topology"
  wellFormed : topologyMalformed topology = false
  capability : Textual (get topology "capability")
  slots : ∀ row ∈ slotRows topology, ShapedSlot row
  distinct : ((slotRows topology).map fun row => get row.slot "slotId").Nodup

/-! Admission. -/

def bindingItems (manifest : Dict) : List Dict :=
  (bindingsOf manifest).filterMap fun binding =>
    match binding with
    | .dict items => some items
    | _ => Option.none

def isLate (row : SlotRow) : Bool := eqStr (get row.slot "lateBindingMode") "to_be_bound"

def lateRows (topology : Dict) : List SlotRow := (slotRows topology).filter isLate

/-- A grade that a minimum allows: any for none, but none for a tier that is not recognized. -/
def Reaches (least : PyJson) (grade : Nat) : Prop :=
  least = .none ∨ least = .str "" ∨ ∃ tier, rank least = some tier ∧ tier ≤ grade

/-- A grade not below a recognized minimum, and any otherwise. -/
def Passes (least : PyJson) (grade : Nat) : Prop := ∀ tier, rank least = some tier → tier ≤ grade

structure Meets (allows : PyJson → Nat → Prop) (binding : Dict) (row : SlotRow) : Prop where
  slotId : get binding "slotId" = get row.slot "slotId"
  organization : get binding "organizationId" = row.organizationId
  participant : get binding "participantId" = row.participantId
  runtime : get binding "runtime" ∈ elementsOf (get row.slot "allowedRuntimes")
  assurance : ∃ grade, rank (get binding "assurance") = some grade ∧
    allows (get row.slot "minAssurance") grade
  binder : get binding "binder" = get row.slot "authorizedBinder"

/-- One non-empty capability, and a bijection between the bindings and the late-bound slots that they
meet. -/
structure Admissible (allows : PyJson → Nat → Prop) (manifest topology : Dict) : Prop where
  capability : ∃ name ≠ "", get manifest "capability" = .str name ∧
    get topology "capability" = .str name
  bijection : ∃ rows, rows.Perm (lateRows topology) ∧
    List.Forall₂ (Meets allows) (bindingItems manifest) rows

/-- No late-bound slot asks for a tier that is not recognized. -/
def Graded (topology : Dict) : Prop :=
  ∀ row ∈ lateRows topology, get row.slot "minAssurance" = .none ∨
    get row.slot "minAssurance" = .str "" ∨ (rank (get row.slot "minAssurance")).isSome

/-- The validator reports nothing. -/
def Silent (repr : PyJson → String) (manifest topology l2 profiles : PyJson) : Prop :=
  ∃ report, validate repr manifest topology l2 profiles = .ok report ∧ report.diags = []

abbrev Clean (check : Check) : Prop := Within (fun _ => False) check

@[simp] theorem clean_add {wrong : Bool} {code : Code} {message : String} {target : Target} :
    Clean (add wrong code message target) ↔ wrong = false := by
  cases wrong <;> simp [add]

/-! Sets of strings. -/

theorem any_same_strings {text : String} {texts : List String} :
    (texts.map PyJson.str).any (same (.str text)) = texts.contains text := by
  induction texts with
  | nil => rfl
  | cons first rest ih => rw [List.map_cons, List.any_cons, ih, same_str, List.contains_cons,
      beq_eq_decide]

theorem distinct_strings (texts : List String) :
    distinct (texts.map .str) = (FirstBy.firstBy id texts).map .str := by
  suffices grown : ∀ kept : List String, (texts.map PyJson.str).foldl (fun kept element =>
      if kept.any (same element) then kept else kept ++ [element]) (kept.map .str) =
        (texts.foldl (FirstBy.keep id) kept).map .str from grown []
  induction texts with
  | nil => exact fun kept => rfl
  | cons first rest ih =>
      intro kept
      rw [List.map_cons, List.foldl_cons, List.foldl_cons, any_same_strings, FirstBy.keep]
      by_cases known : first ∈ kept
      · rw [if_pos (by simpa using known), if_pos (by simpa using known)]
        exact ih kept
      · rw [if_neg (by simpa using known), if_neg (by simpa using known)]
        have grown := ih (kept ++ [first])
        rwa [List.map_append, List.map_singleton] at grown

theorem sorted_strings (texts : List String) :
    ∃ others : List String, others.Perm texts ∧ sorted (texts.map .str) = .ok (others.map .str) := by
  have ordered : (texts.map PyJson.str).all (fun first => (texts.map PyJson.str).all fun second =>
      (before first second).isSome) = true := by
    simp [before]
  rw [sorted, if_pos ordered]
  have strings : ∀ value ∈ (texts.map PyJson.str).insertionSort
      (fun first second => before first second = some true), ∃ text, value = .str text := by
    intro value listed
    rw [List.mem_insertionSort] at listed
    obtain ⟨text, -, rfl⟩ := List.mem_map.mp listed
    exact ⟨text, rfl⟩
  obtain ⟨others, pairs⟩ := Permuted.exists_related strings
  have same : (texts.map PyJson.str).insertionSort
      (fun first second => before first second = some true) = others.map .str := by
    have mapped := @Permuted.map_related _ _ _ _ _ _ id PyJson.str (fun _ _ here => here) pairs
    simpa using mapped
  refine ⟨others, ?_, by rw [same]⟩
  have permuted := List.perm_insertionSort
    (fun first second => before first second = some true) (texts.map PyJson.str)
  rw [same] at permuted
  exact (List.map_perm_map_iff (fun _ _ equal => PyJson.str.inj equal)).mp permuted

/-! Finding a slot. -/

section Slots

variable {topology : Dict}

def keyed (row : SlotRow) : PyJson × SlotRow := (get row.slot "slotId", row)

theorem setSlot_fresh {rows : List SlotRow} {row : SlotRow}
    (texts : ∀ other ∈ rows ++ [row], ∃ text, get other.slot "slotId" = .str text)
    (fresh : get row.slot "slotId" ∉ rows.map fun other => get other.slot "slotId") :
    setSlot (rows.map keyed) (get row.slot "slotId") row = (rows ++ [row]).map keyed := by
  have absent : ((rows.map keyed).any fun slot => same (get row.slot "slotId") slot.1) = false := by
    rw [List.any_eq_false]
    rintro slot listed found
    obtain ⟨other, held, rfl⟩ := List.mem_map.mp listed
    obtain ⟨text, own⟩ := texts row (by simp)
    obtain ⟨text', theirs⟩ := texts other (by simp [held])
    have equal := (same_textual (own ▸ .str text) (by rw [keyed, theirs]; exact .str text')).mp found
    exact fresh (List.mem_map.mpr ⟨other, held, equal.symm⟩)
  rw [setSlot, absent, if_neg (by simp), List.map_append]
  rfl

/-- Slots with distinct ids are all kept. -/
theorem indexSlots_ok (shaped : ShapedTopology topology) :
    indexSlots topology = .ok ((slotRows topology).map keyed) := by
  have kept : ∀ (done rest : List SlotRow), done ++ rest = slotRows topology →
      thread (fun slots row => do
        hashed (get row.slot "slotId")
        return setSlot slots (get row.slot "slotId") row) (done.map keyed) rest =
        .ok ((slotRows topology).map keyed) := by
    intro done rest
    induction rest generalizing done with
    | nil =>
        intro split
        rw [← split, List.append_nil]
        rfl
    | cons row rest ih =>
        intro split
        have listed : ∀ other ∈ done ++ [row], other ∈ slotRows topology := by
          intro other member
          rw [← split, List.append_cons]
          exact List.mem_append_left _ member
        have texts : ∀ other ∈ done ++ [row], ∃ text, get other.slot "slotId" = .str text :=
          fun other member => (shaped.slots other (listed other member)).slotId
        obtain ⟨text, own⟩ := texts row (by simp)
        have fresh : get row.slot "slotId" ∉ done.map fun other => get other.slot "slotId" := by
          have apart := shaped.distinct
          rw [← split, List.map_append, List.map_cons, List.nodup_append] at apart
          exact fun member => apart.2.2 _ member _ List.mem_cons_self rfl
        have next := ih (done ++ [row]) (by rw [← split, List.append_assoc]; rfl)
        rw [← setSlot_fresh texts fresh] at next
        rw [thread, hashed_textual (own ▸ .str text)]
        exact next
  exact kept [] (slotRows topology) rfl

/-- A slot is found by its id. -/
theorem findSlot_ok (shaped : ShapedTopology topology) {key : PyJson} (known : Textual key) :
    ∃ found, findSlot ((slotRows topology).map keyed) key = .ok found ∧
      ∀ row, found = some row ↔ row ∈ slotRows topology ∧ key = get row.slot "slotId" := by
  have found_iff : ∀ row ∈ slotRows topology,
      same key (keyed row).1 = true ↔ key = get row.slot "slotId" := by
    intro row listed
    obtain ⟨text, own⟩ := (shaped.slots row listed).slotId
    exact same_textual known (by rw [keyed, own]; exact .str text)
  refine ⟨_, by rw [findSlot, hashed_textual known]; rfl, fun row => ?_⟩
  rw [List.find?_map, Option.map_map]
  constructor
  · intro here
    obtain ⟨other, first, rfl⟩ := Option.map_eq_some_iff.mp here
    have listed := List.mem_of_find?_eq_some first
    have equal : same key (keyed other).1 = true := by simpa using List.find?_some first
    exact ⟨listed, (found_iff other listed).mp equal⟩
  · rintro ⟨listed, equal⟩
    rw [Option.map_eq_some_iff]
    cases first : (slotRows topology).find? ((fun slot => same key slot.1) ∘ keyed) with
    | none =>
        have absent := List.find?_eq_none.mp first row listed
        exact absurd ((found_iff row listed).mpr equal) absent
    | some other =>
        have listed' := List.mem_of_find?_eq_some first
        have here : same key (keyed other).1 = true := by simpa using List.find?_some first
        have equal' := (found_iff other listed').mp here
        refine ⟨other, rfl, ?_⟩
        exact List.inj_on_of_nodup_map shaped.distinct listed' listed (equal'.symm.trans equal)

end Slots

/-! The policy of a slot. -/

theorem memberOf_tiers {value : PyJson} (known : Textual value) :
    memberOf value tiers = .ok (rank value).isSome := by
  obtain rfl | ⟨tier, rfl⟩ := known
  · rfl
  · rw [memberOf, rank, assurance, tiers]
    congr 1
    by_cases first : tier = "A1"
    · simp [first]
    by_cases second : tier = "A2"
    · simp [second, List.lookup]
    by_cases third : tier = "A3"
    · simp [third, List.lookup]
    by_cases fourth : tier = "A4"
    · simp [fourth, List.lookup]
    · simp [List.lookup, first, second, third, fourth, beq_false_of_ne first,
        beq_false_of_ne second, beq_false_of_ne third, beq_false_of_ne fourth]

theorem rank_pos {value : PyJson} {grade : Nat} (known : rank value = some grade) : 1 ≤ grade := by
  cases value with
  | str tier =>
      obtain ⟨_, _, split, -⟩ := List.lookup_eq_some_iff.mp known
      have listed : (tier, grade) ∈ assurance := by
        rw [split]
        exact List.mem_append_right _ List.mem_cons_self
      simp only [assurance, List.mem_cons, Prod.mk.injEq, List.not_mem_nil, or_false] at listed
      omega
  | _ => cases known

theorem passes_iff {least : PyJson} {grade : Nat} (positive : 1 ≤ grade) :
    ¬grade < (rank least).getD 1 ↔ Passes least grade := by
  cases found : rank least with
  | none =>
      simp only [Passes, found, Option.getD_none]
      exact iff_of_true (by omega) (by simp)
  | some tier => simp [Passes, found]

section Policy

variable {repr : PyJson → String} {binding : Dict} {row : SlotRow} (own : ShapedBinding binding)
  (shaped : ShapedSlot row) (target : Target)
include own shaped

theorem checkAssurance_clean : Clean (checkAssurance repr binding row.slot target) ↔
    ∃ grade, rank (get binding "assurance") = some grade ∧
      Passes (get row.slot "minAssurance") grade := by
  have least := hashed_textual (shaped.textual "minAssurance" (by simp))
  rw [checkAssurance, memberOf_tiers (own.textual "assurance" (by simp [bindingFields]))]
  cases known : rank (get binding "assurance") with
  | none => simp
  | some grade =>
      have fits := @passes_iff (get row.slot "minAssurance") grade (rank_pos known)
      simp [floor, least, pure, Except.pure, bind, Except.bind, ← fits]

theorem runtime_allowed :
    isIn (get binding "runtime") (orEmpty (get row.slot "allowedRuntimes")) = .ok true ↔
      get binding "runtime" ∈ elementsOf (get row.slot "allowedRuntimes") := by
  have known := own.textual "runtime" (by simp [bindingFields])
  obtain none | ⟨texts, listed⟩ := shaped.runtimes
  · simp [none, orEmpty, truthy, isIn, elementsOf]
  · have value : orEmpty (.list (texts.map .str)) = .list (texts.map .str) := by
      cases texts <;> rfl
    simp only [listed, value, isIn, elementsOf, Except.ok.injEq, List.any_eq_true]
    constructor
    · rintro ⟨element, member, equal⟩
      obtain ⟨text, -, rfl⟩ := List.mem_map.mp member
      rwa [(same_textual known (.str text)).mp equal]
    · intro member
      obtain ⟨text, -, equal⟩ := List.mem_map.mp member
      exact ⟨_, member, (same_textual known known).mpr rfl⟩

omit own in
theorem isIn_runtimes :
    ∃ allowed, isIn (get binding "runtime") (orEmpty (get row.slot "allowedRuntimes")) =
      .ok allowed := by
  obtain none | ⟨texts, listed⟩ := shaped.runtimes
  · exact ⟨false, by simp [none, orEmpty, truthy, isIn]⟩
  · cases texts with
    | nil => exact ⟨false, by simp [listed, orEmpty, truthy, isIn]⟩
    | cons text rest => exact ⟨_, by rw [listed]; rfl⟩

theorem checkPolicy_clean : Clean (checkPolicy repr binding row.slot target) ↔
    get binding "runtime" ∈ elementsOf (get row.slot "allowedRuntimes") ∧
    (∃ grade, rank (get binding "assurance") = some grade ∧
      Passes (get row.slot "minAssurance") grade) ∧
    get binding "binder" = get row.slot "authorizedBinder" := by
  obtain ⟨allowed, found⟩ := isIn_runtimes shaped
  have runtime := runtime_allowed own shaped
  have binder := same_textual (own.textual "binder" (by simp [bindingFields]))
    (shaped.textual "authorizedBinder" (by simp))
  simp only [checkPolicy, Clean, within_cons, within_nil, and_true]
  rw [show Within _ (checkAssurance repr binding row.slot target) ↔ _ from
    checkAssurance_clean own shaped target, ← runtime, found]
  simp only [within_after, Except.ok.injEq, exists_eq_left', clean_add, Bool.not_eq_eq_eq_not,
    Bool.not_false, binder]

theorem checkSlot_clean (sameId : get binding "slotId" = get row.slot "slotId") :
    Clean (checkSlot repr binding row target) ↔ isLate row = true ∧ Meets Passes binding row := by
  have organization := same_textual (own.textual "organizationId" (by simp [bindingFields]))
    shaped.organization
  have participant := same_textual (own.textual "participantId" (by simp [bindingFields]))
    shaped.participant
  simp only [checkSlot, Clean, within_cons, within_nil, and_true, clean_add,
    Bool.not_eq_eq_eq_not, Bool.not_false, organization, participant]
  by_cases late : isLate row = true
  · have mode : eqStr (get row.slot "lateBindingMode") "to_be_bound" = true := late
    rw [if_pos mode, show Within _ (checkPolicy repr binding row.slot target) ↔ _ from
      checkPolicy_clean own shaped target]
    constructor
    · rintro ⟨org, part, runtime, tier, binder⟩
      exact ⟨late, sameId, org, part, runtime, tier, binder⟩
    · rintro ⟨-, meets⟩
      exact ⟨meets.organization, meets.participant, meets.runtime, meets.assurance, meets.binder⟩
  · have mode : ¬eqStr (get row.slot "lateBindingMode") "to_be_bound" = true := late
    rw [if_neg mode]
    simp [late]

end Policy

section Bindings

variable {repr : PyJson → String} {topology : Dict}

theorem noUnknown_clean {items : Dict} {allowed : List String} {target : Target} :
    Clean (noUnknown repr items allowed target) ↔ ∀ item ∈ items, item.1 ∈ allowed := by
  simp [noUnknown, Clean]

/-- A binding passes that meets a late-bound slot. -/
theorem checkBinding_clean (shaped : ShapedTopology topology) {items : Dict}
    (own : ShapedBinding items) {allowed : List String} (fields : bindingFields ⊆ allowed)
    (index : Nat) :
    Clean (checkBinding repr ((slotRows topology).map keyed) allowed (.dict items, index)) ↔
      ∃ row ∈ lateRows topology, Meets Passes items row := by
  obtain ⟨found, here, rows⟩ := findSlot_ok shaped (own.textual "slotId" (by simp [bindingFields]))
  have known : ∀ item ∈ items, item.1 ∈ allowed := fun item listed => fields (own.fields item listed)
  simp only [checkBinding, Clean, within_cons, within_nil, and_true, here, within_after,
    Except.ok.injEq, exists_eq_left']
  rw [show Within _ (noUnknown repr items allowed _) ↔ _ from noUnknown_clean]
  constructor
  · rintro ⟨-, passed⟩
    cases found with
    | none => simp at passed
    | some row =>
        obtain ⟨listed, sameId⟩ := (rows row).mp rfl
        obtain ⟨late, meets⟩ := (checkSlot_clean own (shaped.slots row listed) _ sameId).mp passed
        exact ⟨row, List.mem_filter.mpr ⟨listed, late⟩, meets⟩
  · rintro ⟨row, listed, meets⟩
    obtain ⟨listed, late⟩ := List.mem_filter.mp listed
    obtain rfl := (rows row).mpr ⟨listed, meets.slotId⟩
    exact ⟨known, (checkSlot_clean own (shaped.slots row listed) _ meets.slotId).mpr ⟨late, meets⟩⟩

end Bindings

/-! Coverage. -/

section Coverage

variable {repr : PyJson → String} {topology : Dict}

theorem countP_strings (text : String) (texts : List String) :
    (texts.map PyJson.str).countP (same (.str text)) = texts.count text := by
  rw [List.countP_map, List.count]
  refine List.countP_congr fun other _ => ?_
  rw [Function.comp_apply, same_str, decide_eq_true_iff, beq_iff_eq, eq_comm]

theorem lateSlotIds_keyed :
    lateSlotIds ((slotRows topology).map keyed) =
      (lateRows topology).map fun row => get row.slot "slotId" := by
  rw [lateSlotIds, List.filter_map, List.map_map]
  rfl

theorem lateSlotIds_strings (shaped : ShapedTopology topology) :
    ∃ late : List String, lateSlotIds ((slotRows topology).map keyed) = late.map .str := by
  have strings : ∀ value ∈ lateSlotIds ((slotRows topology).map keyed),
      ∃ text, value = .str text := by
    rw [lateSlotIds_keyed]
    intro value listed
    obtain ⟨row, held, rfl⟩ := List.mem_map.mp listed
    exact (shaped.slots row (List.mem_filter.mp held).1).slotId
  obtain ⟨late, pairs⟩ := Permuted.exists_related strings
  refine ⟨late, ?_⟩
  have mapped := @Permuted.map_related _ _ _ _ _ _ id PyJson.str (fun _ _ here => here) pairs
  simpa using mapped

/-- Every slot is bound once where no id is bound twice and no late-bound slot is left. -/
theorem checkCoverage_clean (shaped : ShapedTopology topology) (texts : List String) :
    Clean (checkCoverage repr ((slotRows topology).map keyed) (texts.map .str)) ↔
      (texts.map PyJson.str).Nodup ∧
        ∀ row ∈ lateRows topology, get row.slot "slotId" ∈ texts.map PyJson.str := by
  obtain ⟨late, slots⟩ := lateSlotIds_strings shaped
  obtain ⟨once, once_perm, bound⟩ := sorted_strings (FirstBy.firstBy id texts)
  obtain ⟨missing, missing_perm, unbound⟩ := sorted_strings (late.filter fun sid => sid ∉ texts)
  have left : (late.map PyJson.str).filter (fun sid => !(texts.map PyJson.str).any (same sid)) =
      (late.filter fun sid => sid ∉ texts).map .str := by
    rw [List.filter_map]
    congr 1
    refine List.filter_congr fun sid _ => ?_
    rw [Function.comp_apply, any_same_strings]
    simp
  have listed : ∀ text, text ∈ once ↔ text ∈ texts := by
    intro text
    rw [once_perm.mem_iff]
    simpa using @FirstBy.mem_map_firstBy _ _ _ id texts text
  rw [checkCoverage, distinct_strings, bound, slots, left, unbound, Clean, within_cons, within_cons]
  refine and_congr ?_ ((and_iff_left within_nil).trans ?_)
  · simp only [within_after, Except.ok.injEq, exists_eq_left', within_overAll, List.forall_mem_map]
    rw [List.nodup_map_iff (fun _ _ equal => PyJson.str.inj equal), List.nodup_iff_count_le_one]
    constructor
    · intro single text
      by_cases member : text ∈ texts
      · have here := clean_add.mp (single text ((listed text).mpr member))
        rw [countP_strings] at here
        simpa using here
      · rw [List.count_eq_zero_of_not_mem member]
        omega
    · intro single text member
      refine clean_add.mpr ?_
      rw [countP_strings]
      simpa using single text
  · have ids : ∀ row ∈ lateRows topology, ∃ sid ∈ late, get row.slot "slotId" = .str sid := by
      intro row held
      have member : get row.slot "slotId" ∈ late.map PyJson.str := by
        rw [← slots, lateSlotIds_keyed]
        exact List.mem_map_of_mem held
      obtain ⟨sid, known, equal⟩ := List.mem_map.mp member
      exact ⟨sid, known, equal.symm⟩
    simp only [within_after, Except.ok.injEq, exists_eq_left', within_overAll, List.forall_mem_map]
    constructor
    · intro none row held
      obtain ⟨sid, known, equal⟩ := ids row held
      rw [equal]
      by_contra absent
      have member : sid ∈ missing := by
        rw [missing_perm.mem_iff, List.mem_filter]
        exact ⟨known, by simpa using absent⟩
      exact absurd (clean_add.mp (none sid member)) (by simp)
    · intro covered sid member
      rw [missing_perm.mem_iff, List.mem_filter] at member
      have held : PyJson.str sid ∈ (lateRows topology).map fun row => get row.slot "slotId" := by
        rw [← lateSlotIds_keyed, slots]
        exact List.mem_map_of_mem member.1
      obtain ⟨row, here, equal⟩ := List.mem_map.mp held
      have found := covered row here
      rw [equal] at found
      obtain ⟨text, known, same⟩ := List.mem_map.mp found
      obtain rfl := PyJson.str.inj same
      exact absurd known (by simpa using member.2)

end Coverage

/-! The verdict. -/

section Verdict

variable {repr : PyJson → String} {manifest topology : Dict}

theorem eqInt_other {value : PyJson} (one : eqInt value 1 = true) : eqInt value 2 = false := by
  cases value with
  | bool held => cases held <;> simp [eqInt]
  | int held => simp_all [eqInt]
  | float held => simp_all [eqInt]
  | _ => cases one

theorem ShapedManifest.not_l3 (own : ShapedManifest manifest) : isL3 manifest = false :=
  eqInt_other own.version

theorem ShapedManifest.bindings_eq (own : ShapedManifest manifest) :
    bindingsOf manifest = (bindingItems manifest).map .dict := by
  have objects := own.bindings
  rw [bindingItems]
  generalize bindingsOf manifest = bindings at objects
  induction bindings with
  | nil => rfl
  | cons binding rest ih =>
      obtain ⟨items, rfl, -⟩ := objects binding List.mem_cons_self
      have later := ih fun other listed => objects other (List.mem_cons_of_mem _ listed)
      exact congrArg (PyJson.dict items :: ·) later

theorem ShapedManifest.binding (own : ShapedManifest manifest) {items : Dict}
    (listed : items ∈ bindingItems manifest) : ShapedBinding items := by
  have member : PyJson.dict items ∈ bindingsOf manifest := by
    rw [own.bindings_eq]
    exact List.mem_map_of_mem listed
  obtain ⟨other, equal, shaped⟩ := own.bindings _ member
  obtain rfl := PyJson.dict.inj equal
  exact shaped

theorem checkShape_clean (own : ShapedManifest manifest) (shaped : ShapedTopology topology) :
    Clean (checkShape repr manifest (.dict topology)) := by
  have fields : ∀ item ∈ manifest, item.1 ∈ topAllowed manifest := by
    intro item listed
    simpa [topAllowed, own.not_l3] using own.fields item listed
  simp only [checkShape, Clean, within_cons, within_nil, and_true]
  refine ⟨noUnknown_clean.mpr fields, ?_, ?_, ?_, ?_⟩
  · exact clean_add.mpr (by rw [own.kind]; rfl)
  · exact clean_add.mpr (by rw [own.version]; rfl)
  · exact clean_add.mpr (by rw [shaped.kind]; rfl)
  · exact clean_add.mpr shaped.wellFormed

theorem checkCapability_clean (own : ShapedManifest manifest) (shaped : ShapedTopology topology) :
    Clean (checkCapability repr manifest topology) ↔ ∃ name ≠ "",
      get manifest "capability" = .str name ∧ get topology "capability" = .str name := by
  have equal := same_textual own.capability shaped.capability
  simp only [checkCapability, Clean, within_cons, within_nil, and_true, clean_add,
    Bool.not_eq_eq_eq_not, Bool.not_false]
  constructor
  · rintro ⟨named, named', alike⟩
    obtain ⟨name, filled, found⟩ := isText_iff.mp named
    refine ⟨name, filled, found, ?_⟩
    rw [← found, eq_comm, ← equal]
    simpa [named, named'] using alike
  · rintro ⟨name, filled, found, found'⟩
    simp [found, found', isText, filled]

theorem boundSlotIds_eq (own : ShapedManifest manifest) :
    boundSlotIds (bindingsOf manifest) =
      (bindingItems manifest).map fun items => get items "slotId" := by
  rw [own.bindings_eq, boundSlotIds, List.filterMap_map]
  exact congrFun List.filterMap_eq_map' (bindingItems manifest)

theorem checkBindings_clean (own : ShapedManifest manifest) (shaped : ShapedTopology topology) :
    Clean (overAll (checkBinding repr ((slotRows topology).map keyed) (bindingAllowed manifest))
        (bindingsOf manifest).zipIdx) ↔
      ∀ items ∈ bindingItems manifest, ∃ row ∈ lateRows topology, Meets Passes items row := by
  have fields : bindingFields ⊆ bindingAllowed manifest := List.subset_append_left _ _
  rw [Clean, within_overAll]
  constructor
  · intro passed items listed
    have member : PyJson.dict items ∈ bindingsOf manifest := by
      rw [own.bindings_eq]
      exact List.mem_map_of_mem listed
    obtain ⟨index, bound, equal⟩ := List.mem_iff_getElem.mp member
    have here := passed (.dict items, index)
      (List.mem_zipIdx_iff_getElem?.mpr (by rw [List.getElem?_eq_getElem bound, equal]))
    exact (checkBinding_clean shaped (own.binding listed) fields index).mp here
  · rintro meets ⟨binding, index⟩ listed
    have member := List.fst_mem_of_mem_zipIdx listed
    rw [own.bindings_eq] at member
    obtain ⟨items, held, rfl⟩ := List.mem_map.mp member
    exact (checkBinding_clean shaped (own.binding held) fields index).mpr (meets items held)

/-- The bijection, as the loop over the bindings and the coverage check find it. -/
theorem bijection_iff (own : ShapedManifest manifest) (shaped : ShapedTopology topology) :
    (∃ rows, rows.Perm (lateRows topology) ∧
        List.Forall₂ (Meets Passes) (bindingItems manifest) rows) ↔
      Clean (overAll (checkBinding repr ((slotRows topology).map keyed) (bindingAllowed manifest))
        (bindingsOf manifest).zipIdx) ∧
      Clean (checkCoverage repr ((slotRows topology).map keyed)
        (boundSlotIds (bindingsOf manifest))) := by
  have distinct : ((lateRows topology).map fun row => get row.slot "slotId").Nodup :=
    shaped.distinct.sublist (List.filter_sublist.map _)
  rw [Permuted.matched_iff (fun _ _ meets => meets.slotId) distinct,
    checkBindings_clean own shaped, boundSlotIds_eq own]
  refine and_congr_right fun meets => ?_
  have strings : ∀ items ∈ bindingItems manifest, ∃ text, get items "slotId" = .str text := by
    intro items listed
    obtain ⟨row, held, here⟩ := meets items listed
    rw [here.slotId]
    exact (shaped.slots row (List.mem_filter.mp held).1).slotId
  obtain ⟨texts, pairs⟩ := Permuted.exists_related strings
  have bound : (bindingItems manifest).map (fun items => get items "slotId") = texts.map .str :=
    Permuted.map_related (fun _ _ here => here) pairs
  rw [bound, checkCoverage_clean shaped texts]

theorem silent_iff_core (own : ShapedManifest manifest) {l2 profiles : PyJson} :
    Silent repr (.dict manifest) (.dict topology) l2 profiles ↔
      Clean (validateCore repr manifest (.dict topology)) := by
  rw [Clean, within_none, Silent, validate, own.not_l3]
  constructor
  · rintro ⟨report, reported, silent⟩
    obtain ⟨found, here, rest⟩ := bind_ok.mp reported
    obtain rfl := pure_ok.mp rest
    rw [here, show found = [] from silent]
  · intro here
    exact ⟨_, by rw [here]; rfl, rfl⟩

/-- The validator is silent exactly on the admissible manifests, with every minimum that is not
recognized read as none. -/
theorem silent_iff (own : ShapedManifest manifest) (shaped : ShapedTopology topology)
    (l2 profiles : PyJson) :
    Silent repr (.dict manifest) (.dict topology) l2 profiles ↔
      Admissible Passes manifest topology := by
  have filled : (bindingsOf manifest).isEmpty = false := by simpa using own.filled
  rw [silent_iff_core own, validateCore, topologyItems, indexSlots_ok shaped]
  simp only [Clean, within_cons, within_nil, and_true, within_after, Except.ok.injEq,
    exists_eq_left']
  constructor
  · rintro ⟨-, capability, -, bindings, coverage⟩
    exact ⟨(checkCapability_clean own shaped).mp capability,
      (bijection_iff own shaped).mpr ⟨bindings, coverage⟩⟩
  · intro admissible
    exact ⟨checkShape_clean own shaped, (checkCapability_clean own shaped).mpr admissible.capability,
      clean_add.mpr filled, (bijection_iff own shaped).mp admissible.bijection⟩

end Verdict

/-! Documents in another order. -/

/-- A member that lists the same objects in another order, each again as `alike` allows. -/
structure Shuffled (key : String) (alike : Dict → Dict → Prop) (first second : Dict) : Prop where
  others : ∀ other ≠ key, get first other = get second other
  listed : ∃ elements moved partners : List Dict, get first key = .list (elements.map .dict) ∧
    elements.Perm moved ∧ List.Forall₂ alike moved partners ∧
    get second key = .list (partners.map .dict)

/-- The same topology, with its organizations, participants and slots in other orders. -/
def TopologyRearranged : Dict → Dict → Prop :=
  Shuffled "organizations" (Shuffled "participants" (Shuffled "slots" Eq))

/-- The same manifest, with its bindings in another order. -/
structure ManifestRearranged (first second : Dict) : Prop where
  keys : second.map Prod.fst = first.map Prod.fst
  others : ∀ key ≠ "bindings", get second key = get first key
  bindings : (bindingsOf first).Perm (bindingsOf second)

section Rearranged

variable {first second : Dict}

theorem Shuffled.flatMap_perm {γ : Type} {key : String} {alike : Dict → Dict → Prop}
    {expand expand' : PyJson → List γ} (moved : Shuffled key alike first second)
    (each : ∀ one other, alike one other → (expand (.dict one)).Perm (expand' (.dict other))) :
    ((elementsOf (get first key)).flatMap expand).Perm
      ((elementsOf (get second key)).flatMap expand') := by
  obtain ⟨elements, order, partners, here, permuted, pairs, there⟩ := moved.listed
  simp only [here, there, elementsOf, List.flatMap_map]
  exact (permuted.flatMap_right _).trans
    (Permuted.flatMap_perm (pairs.imp fun one other related => each one other related))

theorem participantRows_perm (organization : PyJson) (moved : Shuffled "slots" Eq first second) :
    (participantRows organization (.dict first)).Perm
      (participantRows organization (.dict second)) := by
  obtain ⟨elements, order, partners, here, permuted, pairs, there⟩ := moved.listed
  obtain rfl := List.forall₂_eq_eq_eq ▸ pairs
  rw [participantRows, participantRows, moved.others "participantId" (by decide), here, there]
  exact (permuted.map _).filterMap _

theorem organizationRows_perm
    (moved : Shuffled "participants" (Shuffled "slots" Eq) first second) :
    (organizationRows (.dict first)).Perm (organizationRows (.dict second)) := by
  rw [organizationRows, organizationRows, moved.others "organizationId" (by decide)]
  exact moved.flatMap_perm fun _ _ => participantRows_perm _

theorem slotRows_perm (moved : TopologyRearranged first second) :
    (slotRows first).Perm (slotRows second) :=
  moved.flatMap_perm fun _ _ => organizationRows_perm

theorem Shuffled.isObjects {key : String} {alike : Dict → Dict → Prop} {each : Dict → Bool}
    (moved : Shuffled key alike first second)
    (all : ∀ one other, alike one other → each other = true) :
    isObjects (get second key) each = true := by
  obtain ⟨elements, order, partners, -, -, pairs, there⟩ := moved.listed
  rw [there, BindingManifest.isObjects, List.all_eq_true]
  intro element listed
  obtain ⟨other, held, rfl⟩ := List.mem_map.mp listed
  obtain ⟨one, -, related⟩ := Permuted.related_right pairs held
  exact all one other related

theorem TopologyRearranged.wellFormed (moved : TopologyRearranged first second) :
    topologyMalformed second = false := by
  have listed := moved.isObjects fun _ _ (organization : Shuffled "participants" _ _ _) =>
    organization.isObjects fun _ _ (participant : Shuffled "slots" Eq _ _) =>
      participant.isObjects (fun _ _ _ => rfl : ∀ one other, one = other → (fun _ => true) other = true)
  rw [topologyMalformed, listed]
  rfl

theorem TopologyRearranged.shaped (moved : TopologyRearranged first second)
    (shaped : ShapedTopology first) : ShapedTopology second where
  kind := by rw [← moved.others "kind" (by decide), shaped.kind]
  wellFormed := moved.wellFormed
  capability := moved.others "capability" (by decide) ▸ shaped.capability
  slots row listed := shaped.slots row ((slotRows_perm moved).mem_iff.mpr listed)
  distinct := ((slotRows_perm moved).map _).nodup_iff.mp shaped.distinct

theorem ManifestRearranged.shaped (moved : ManifestRearranged first second)
    (own : ShapedManifest first) : ShapedManifest second where
  fields := by
    have fields := own.fields
    rw [← List.forall_mem_map (P := (· ∈ ["kind", "schemaVersion", "capability", "bindings"]))]
      at fields ⊢
    rwa [moved.keys]
  kind := by rw [moved.others "kind" (by decide), own.kind]
  version := by rw [moved.others "schemaVersion" (by decide), own.version]
  capability := moved.others "capability" (by decide) ▸ own.capability
  filled := (Permuted.perm_ne_nil moved.bindings).mp own.filled
  bindings binding listed := own.bindings binding (moved.bindings.mem_iff.mpr listed)

/-- Admission depends on the capabilities, the bindings and the slots, not on their order. -/
theorem Admissible.of_perm {allows : PyJson → Nat → Prop} {topology other : Dict}
    (admissible : Admissible allows first topology)
    (own : get first "capability" = get second "capability")
    (offered : get topology "capability" = get other "capability")
    (bindings : (bindingsOf first).Perm (bindingsOf second))
    (slots : (slotRows topology).Perm (slotRows other)) : Admissible allows second other := by
  obtain ⟨rows, permuted, pairs⟩ := admissible.bijection
  obtain ⟨order, pairs', same⟩ := List.perm_comp_forall₂ (bindings.filterMap _).symm pairs
  refine ⟨?_, order, same.trans (permuted.trans (slots.filter _)), pairs'⟩
  rw [← own, ← offered]
  exact admissible.capability

theorem admissible_rearranged {allows : PyJson → Nat → Prop} {topology other : Dict}
    (bindings : ManifestRearranged first second) (slots : TopologyRearranged topology other) :
    Admissible allows first topology ↔ Admissible allows second other := by
  have own := bindings.others "capability" (by decide)
  have offered := slots.others "capability" (by decide)
  have rows := slotRows_perm slots
  exact ⟨fun here => here.of_perm own.symm offered bindings.bindings rows,
    fun there => there.of_perm own offered.symm bindings.bindings.symm rows.symm⟩

end Rearranged

/-! Minimums. -/

theorem Reaches.passes {least : PyJson} {grade : Nat} (reaches : Reaches least grade) :
    Passes least grade := by
  intro tier known
  obtain rfl | rfl | ⟨tier', known', enough⟩ := reaches
  · cases known
  · cases known
  · rw [known] at known'
    cases known'
    exact enough

theorem Meets.imp {allows allows' : PyJson → Nat → Prop} {binding : Dict} {row : SlotRow}
    (meets : Meets allows binding row)
    (weaker : ∀ grade, allows (get row.slot "minAssurance") grade →
      allows' (get row.slot "minAssurance") grade) : Meets allows' binding row := by
  obtain ⟨grade, known, enough⟩ := meets.assurance
  exact ⟨meets.slotId, meets.organization, meets.participant, meets.runtime,
    ⟨grade, known, weaker grade enough⟩, meets.binder⟩

theorem Admissible.passes {manifest topology : Dict}
    (admissible : Admissible Reaches manifest topology) : Admissible Passes manifest topology := by
  obtain ⟨rows, permuted, pairs⟩ := admissible.bijection
  exact ⟨admissible.capability, rows, permuted,
    pairs.imp fun _ _ meets => meets.imp fun _ => Reaches.passes⟩

theorem Admissible.graded {manifest topology : Dict}
    (admissible : Admissible Reaches manifest topology) : Graded topology := by
  obtain ⟨rows, permuted, pairs⟩ := admissible.bijection
  intro row listed
  obtain ⟨_, -, meets⟩ := Permuted.related_right pairs (permuted.mem_iff.mpr listed)
  obtain ⟨grade, -, none | empty | ⟨tier, known, -⟩⟩ := meets.assurance
  · exact .inl none
  · exact .inr (.inl empty)
  · exact .inr (.inr (by rw [known]; rfl))

theorem Admissible.reaches {manifest topology : Dict}
    (distinct : ((slotRows topology).map fun row => get row.slot "slotId").Nodup)
    (admissible : Admissible Passes manifest topology) (graded : Graded topology) :
    Admissible Reaches manifest topology := by
  have distinct' : ((lateRows topology).map fun row => get row.slot "slotId").Nodup :=
    distinct.sublist (List.filter_sublist.map _)
  obtain ⟨each, once, covered⟩ :=
    (Permuted.matched_iff (fun _ _ meets => meets.slotId) distinct').mp admissible.bijection
  refine ⟨admissible.capability, (Permuted.matched_iff (fun _ _ meets => meets.slotId)
    distinct').mpr ⟨fun items listed => ?_, once, covered⟩⟩
  obtain ⟨row, held, meets⟩ := each items listed
  refine ⟨row, held, meets.imp fun grade passes => ?_⟩
  obtain none | empty | known := graded row held
  · exact .inl none
  · exact .inr (.inl empty)
  · obtain ⟨tier, known⟩ := Option.isSome_iff_exists.mp known
    exact .inr (.inr ⟨tier, known, passes tier known⟩)

/-- Admission is what it should be, in every order of the documents, exactly where no late-bound slot
asks for a tier that is not recognized or the manifest is refused for another reason. -/
theorem binding_admission_exact (repr : PyJson → String) (manifest topology : Dict)
    (l2 profiles : PyJson) (own : ShapedManifest manifest) (shaped : ShapedTopology topology) :
    ((Silent repr (.dict manifest) (.dict topology) l2 profiles ↔
        Admissible Reaches manifest topology) ∧
      ∀ manifest' topology', ManifestRearranged manifest manifest' →
        TopologyRearranged topology topology' →
        (Silent repr (.dict manifest) (.dict topology) l2 profiles ↔
          Silent repr (.dict manifest') (.dict topology') l2 profiles)) ↔
      Graded topology ∨ ¬Admissible Passes manifest topology := by
  have verdict := @silent_iff repr _ _ own shaped l2 profiles
  constructor
  · rintro ⟨exact_, -⟩
    by_cases passes : Admissible Passes manifest topology
    · exact .inl (exact_.mp (verdict.mpr passes)).graded
    · exact .inr passes
  · intro condition
    refine ⟨?_, fun manifest' topology' bindings slots => ?_⟩
    · rw [verdict]
      refine ⟨fun passes => ?_, Admissible.passes⟩
      exact passes.reaches shaped.distinct (condition.resolve_right (not_not.mpr passes))
    · rw [verdict, silent_iff (bindings.shaped own) (slots.shaped shaped) l2 profiles]
      exact admissible_rearranged bindings slots

/-! One late-bound slot. -/

def carrierBinding : Dict :=
  [("assurance", .str "A1"), ("binder", .str "north"), ("organizationId", .str "north"),
    ("participantId", .str "carrier"), ("runtime", .str "evm"), ("slotId", .str "trade#carrier")]

def carrierManifest : Dict :=
  [("bindings", .list [.dict carrierBinding]), ("capability", .str "trade"),
    ("kind", .str "neutrino.binding-manifest"), ("schemaVersion", .int 1)]

def carrierSlot (minAssurance : String) : Dict :=
  [("allowedRuntimes", .list [.str "evm", .str "jvm"]), ("authorizedBinder", .str "north"),
    ("lateBindingMode", .str "to_be_bound"), ("minAssurance", .str minAssurance),
    ("slotId", .str "trade#carrier")]

def carrierTopology (minAssurance : String) : Dict :=
  [("capability", .str "trade"), ("kind", .str "neutrino.slot-binding-topology"),
    ("organizations", .list [.dict [("organizationId", .str "north"),
      ("participants", .list [.dict [("participantId", .str "carrier"),
        ("slots", .list [.dict (carrierSlot minAssurance)])]])]])]

theorem carrierBinding_shaped : ShapedBinding carrierBinding where
  fields := by simp [carrierBinding, bindingFields]
  textual key listed := by
    simp only [bindingFields, List.mem_cons, List.not_mem_nil, or_false] at listed
    rcases listed with rfl | rfl | rfl | rfl | rfl | rfl <;> exact .str _

theorem carrierManifest_shaped : ShapedManifest carrierManifest where
  fields := by simp [carrierManifest]
  kind := rfl
  version := rfl
  capability := .str "trade"
  filled := List.cons_ne_nil (PyJson.dict carrierBinding) []
  bindings binding listed := by
    obtain rfl := List.mem_singleton.mp listed
    exact ⟨_, rfl, carrierBinding_shaped⟩

theorem carrierTopology_shaped (minAssurance : String) :
    ShapedTopology (carrierTopology minAssurance) where
  kind := rfl
  wellFormed := rfl
  capability := .str "trade"
  slots row listed := by
    obtain rfl := List.mem_singleton.mp listed
    refine ⟨.str _, .str _, ⟨_, rfl⟩, fun key known => ?_, .inr ⟨["evm", "jvm"], rfl⟩⟩
    simp only [List.mem_cons, List.not_mem_nil, or_false] at known
    rcases known with rfl | rfl | rfl <;> exact .str _
  distinct := List.nodup_singleton _

theorem carrier_admissible {allows : PyJson → Nat → Prop} {minAssurance : String}
    (enough : allows (.str minAssurance) 1) :
    Admissible allows carrierManifest (carrierTopology minAssurance) where
  capability := ⟨"trade", by decide, rfl, rfl⟩
  bijection := by
    refine ⟨_, .refl _, .cons ?_ .nil⟩
    exact ⟨rfl, rfl, rfl, List.mem_cons_self, ⟨1, rfl, enough⟩, rfl⟩

theorem binding_admission_exact_carrier :
    ((Silent (fun _ => "") (.dict carrierManifest) (.dict (carrierTopology "A1")) .none .none ↔
        Admissible Reaches carrierManifest (carrierTopology "A1")) ∧
      ∀ manifest' topology', ManifestRearranged carrierManifest manifest' →
        TopologyRearranged (carrierTopology "A1") topology' →
        (Silent (fun _ => "") (.dict carrierManifest) (.dict (carrierTopology "A1")) .none .none ↔
          Silent (fun _ => "") (.dict manifest') (.dict topology') .none .none)) := by
  refine (binding_admission_exact (fun _ => "") carrierManifest (carrierTopology "A1") .none .none
    carrierManifest_shaped (carrierTopology_shaped "A1")).mpr (.inl fun row listed => ?_)
  obtain rfl := List.mem_singleton.mp listed
  exact .inr (.inr rfl)

/-- A slot whose minimum is no tier is bound at the lowest one. -/
theorem unrecognized_minimum_bound :
    ShapedManifest carrierManifest ∧ ShapedTopology (carrierTopology "A5") ∧
      Silent (fun _ => "") (.dict carrierManifest) (.dict (carrierTopology "A5")) .none .none ∧
      ¬Admissible Reaches carrierManifest (carrierTopology "A5") := by
  refine ⟨carrierManifest_shaped, carrierTopology_shaped "A5", ?_, fun admissible => ?_⟩
  · refine (silent_iff carrierManifest_shaped (carrierTopology_shaped "A5") .none .none).mpr ?_
    exact carrier_admissible fun _ known => by cases known
  · have graded := admissible.graded _ (List.mem_cons_self ..)
    rcases graded with missing | empty | known
    · cases missing
    · have same : PyJson.str "A5" = .str "" := empty
      simp at same
    · cases known

end Neutrino.BindingManifest
