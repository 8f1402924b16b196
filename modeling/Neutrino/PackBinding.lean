import Mathlib
import Neutrino.DomainPack

/-! What an accepted domain pack is bound to: its tree, its bytes and the schemas of its payloads. -/

namespace Neutrino

namespace DomainPack

open Checked

/-! Places. -/

/-- A file or a link, which ends a walk of the tree. -/
def IsLeaf : Entry → Prop
  | .dir _ => False
  | _ => True

theorem Holds.mono {entries others : List (Name × Entry)} {place : Place} {entry : Entry}
    (holds : Holds entries place entry) (listed : ∀ item ∈ entries, item ∈ others) :
    Holds others place entry := by
  cases holds with
  | direct here => exact .direct (listed _ here)
  | inside here below => exact .inside (listed _ here) below

theorem Holds.nonempty {entries : List (Name × Entry)} {place : Place} {entry : Entry}
    (holds : Holds entries place entry) : place ≠ [] := by
  cases holds <;> simp

mutual

theorem mem_places : (entry : Entry) → (place : Place) → (place ∈ places entry ↔
    (place = [] ∧ IsLeaf entry) ∨
      ∃ inner leaf, entry = .dir inner ∧ Holds inner place leaf ∧ IsLeaf leaf)
  | .file _, place => by simp [places, IsLeaf]
  | .link, place => by simp [places, IsLeaf]
  | .dir entries, place => by
      rw [places, mem_placesBelow entries place]
      simp [IsLeaf]

theorem mem_placesBelow : (entries : List (Name × Entry)) → (place : Place) →
    (place ∈ placesBelow entries ↔ ∃ leaf, Holds entries place leaf ∧ IsLeaf leaf)
  | [], place => by
      simp only [placesBelow, List.not_mem_nil, false_iff, not_exists]
      rintro leaf ⟨holds, _⟩
      cases holds with
      | direct listed => cases listed
      | inside listed => cases listed
  | (name, entry) :: rest, place => by
      rw [placesBelow, List.mem_append, mem_placesBelow rest place, List.mem_map]
      simp only [mem_places entry]
      constructor
      · rintro (⟨below, ⟨rfl, ends⟩ | ⟨inner, leaf, rfl, holds, ends⟩, rfl⟩ | ⟨leaf, holds, ends⟩)
        · exact ⟨entry, .direct List.mem_cons_self, ends⟩
        · exact ⟨leaf, .inside List.mem_cons_self holds, ends⟩
        · exact ⟨leaf, holds.mono fun _ => List.mem_cons_of_mem _, ends⟩
      · rintro ⟨leaf, holds, ends⟩
        cases holds with
        | direct listed =>
            rcases List.mem_cons.mp listed with same | later
            · cases same
              exact .inl ⟨[], .inl ⟨rfl, ends⟩, rfl⟩
            · exact .inr ⟨leaf, .direct later, ends⟩
        | inside listed below =>
            rcases List.mem_cons.mp listed with same | later
            · cases same
              exact .inl ⟨_, .inr ⟨_, leaf, rfl, below, ends⟩, rfl⟩
            · exact .inr ⟨leaf, .inside later below, ends⟩

end

/-- The path of a place tells its names. -/
theorem splitPath_joined {place : Place} (filled : place ≠ []) :
    splitPath (joined (partsOf place)) = partsOf place := by
  refine List.splitOn_intercalate _ ?_ (by simpa [partsOf] using filled)
  simp only [partsOf, List.forall_mem_map]
  exact fun name _ => name.sound.2

section Pack

variable {runtime : Runtime} {bundle : Bundle runtime} {root : PackRoot}

/-! What the checks accept. -/

/-- A schema that the bundle publishes under the name, with the digest it pins. -/
def PinnedSchema (bundle : Bundle runtime) (name : Text) (schema : Value) : Prop :=
  ∃ contract bytes, bundle.contracts name = some contract ∧
    bundle.files contract.path = some bytes ∧ runtime.sha256 bytes = contract.sha256 ∧
    runtime.loads bytes = some schema

theorem PinnedSchema.unique {name : Text} {schema other : Value}
    (pinned : PinnedSchema bundle name schema) (pinned' : PinnedSchema bundle name other) :
    schema = other := by
  obtain ⟨contract, bytes, known, held, _, loaded⟩ := pinned
  obtain ⟨contract', bytes', known', held', _, loaded'⟩ := pinned'
  cases known.symm.trans known'
  cases held.symm.trans held'
  exact Option.some.inj (loaded.symm.trans loaded')

/-- A schema under its pin, or at least one finding. -/
theorem contractSchema_cases {name : Text} {contract : Contract}
    (known : bundle.contracts name = some contract) :
    (∃ schema, contractSchema runtime bundle contract = .ok schema ∧
      PinnedSchema bundle name schema) ∨
    ∃ found, contractSchema runtime bundle contract = .error found ∧ found ≠ [] := by
  unfold contractSchema
  split
  · exact .inr ⟨_, rfl, by simp⟩
  · split
    · exact .inr ⟨_, rfl, by simp⟩
    · rename_i bytes held
      split
      · exact .inr ⟨_, rfl, by simp⟩
      · rename_i pinned
        split
        · exact .inr ⟨_, rfl, by simp⟩
        · exact absurd ‹_› (bundle.schemas name contract bytes known held)
        · exact .inl ⟨_, rfl, contract, bytes, known, held, not_not.mp pinned, ‹_›⟩

/-- A file that passes under a contract is valid under the pinned schema, or holds a null. -/
theorem instanceFindings_none {content : Option (List UInt8)} {index : Nat} {name : Text}
    {contract : Contract} (known : bundle.contracts name = some contract)
    (passed : instanceFindings runtime bundle content index name contract = .ok []) :
    ∃ schema bytes value, PinnedSchema bundle name schema ∧ content = some bytes ∧
      runtime.loads bytes = some value ∧
      (value = .scalar .null ∨ runtime.violations value schema = []) := by
  unfold instanceFindings at passed
  rcases contractSchema_cases known with ⟨schema, loaded, pinned⟩ | ⟨found, failed, filled⟩
  · simp only [loaded] at passed
    split at passed
    · cases passed
    · rename_i bytes
      split at passed
      · cases passed
      · exact ⟨schema, bytes, _, pinned, rfl, ‹_›, .inl rfl⟩
      · rename_i value _ held
        obtain ⟨vocabulary, _, passed⟩ := bind_ok.mp passed
        rw [pure_ok, List.append_eq_nil_iff, List.map_eq_nil_iff] at passed
        exact ⟨schema, bytes, value, pinned, rfl, held, .inr passed.1⟩
  · simp only [failed, Except.ok.injEq] at passed
    exact absurd passed filled

/-! The stages of an inventory's verification. -/

theorem hasCode_nil (codes : List String) : hasCode codes [] = false := rfl

/-- A stage that may end the verification. -/
theorem stage_none {stops : Prop} [Decidable stops] {diags : List Finding}
    {next : Review Fault Finding} :
    (if stops then .ok diags else next) = .ok [] ↔
      (stops ∧ diags = []) ∨ (¬stops ∧ next = .ok []) := by
  split <;> rename_i decided <;> simp [decided]

theorem flag_none {wrong : Prop} [Decidable wrong] {finding : Finding} :
    (if wrong then [finding] else []) = [] ↔ ¬wrong := by
  split <;> rename_i decided <;> simp [decided]

/-- An inventory in which every stage finds nothing. -/
structure Stages (runtime : Runtime) (bundle : Bundle runtime) (root : PackRoot)
    (manifest : Manifest) : Prop where
  normalized : ∀ row ∈ manifest.payloads, normalizedPayloadPath row.path = some row.path
  ordered : manifest.payloads.map Row.path = sorted (manifest.payloads.map Row.path)
  single : duplicatePaths (manifest.payloads.map Row.path) = []
  unlinked : root.linked = false
  links : ∀ row ∈ manifest.payloads, linkFindings root row.path = []
  present : ∀ row ∈ manifest.payloads, row.path ∈ discoverPayloadPaths root
  listed : ∀ path ∈ discoverPayloadPaths root, path ∈ manifest.payloads.map Row.path
  digests : ∀ row ∈ manifest.payloads, digestFindings runtime root row = []
  semantic : ∀ row ∈ manifest.payloads.zipIdx, semanticFindings runtime bundle root row = .ok []

theorem mem_sorted {path : Text} {paths : List Text} : path ∈ sorted paths ↔ path ∈ paths :=
  List.mem_insertionSort _

theorem sorted_eq_nil {paths : List Text} : sorted paths = [] ↔ paths = [] := by
  rw [← List.length_eq_zero_iff, sorted, List.length_insertionSort, List.length_eq_zero_iff]

theorem verifyPayloads_none {manifest : Manifest} {diags : List Finding}
    (accepted : verifyPayloads runtime bundle root manifest diags = .ok []) :
    diags = [] ∧ Stages runtime bundle root manifest := by
  unfold verifyPayloads at accepted
  rcases stage_none.mp accepted with ⟨stops, none⟩ | ⟨_, accepted⟩
  · rw [none, hasCode_nil] at stops
    cases stops
  rcases stage_none.mp accepted with ⟨_, none⟩ | ⟨unlinked, accepted⟩
  · simp at none
  rcases stage_none.mp accepted with ⟨stops, none⟩ | ⟨_, accepted⟩
  · rw [none, hasCode_nil] at stops
    cases stops
  rcases stage_none.mp accepted with ⟨stops, none⟩ | ⟨goes, accepted⟩
  · simp only [List.append_eq_nil_iff, flag_none, not_not] at none
    tauto
  rcases stage_none.mp accepted with ⟨stops, none⟩ | ⟨_, accepted⟩
  · rw [none, hasCode_nil] at stops
    cases stops
  obtain ⟨semantic, reviewed, accepted⟩ := bind_ok.mp accepted
  simp only [pure_ok, List.append_eq_nil_iff, flag_none, not_not, List.map_eq_nil_iff,
    List.filter_eq_nil_iff, List.flatMap_eq_nil_iff, decide_eq_true_eq, sorted_eq_nil,
    mem_sorted, List.mem_dedup, List.forall_mem_map] at accepted
  obtain ⟨⟨⟨⟨⟨⟨⟨⟨⟨given, normalized⟩, ordered⟩, single⟩, links⟩, present⟩, listed⟩, digests⟩, _⟩,
    rfl⟩ := accepted
  have passed := Review.within_overAll.mp (Review.within_none.mpr reviewed)
  exact ⟨given, {
    normalized, ordered, single, links, present, listed, digests
    unlinked := Bool.eq_false_iff.mpr unlinked
    semantic := fun row here => Review.within_none.mp (passed row here) }⟩

/-! The tree of an accepted pack. -/

/-- The pack carries a file under the path, besides its manifest. -/
def Carries (root : PackRoot) (path : Text) (bytes : List UInt8) : Prop :=
  ∃ place, Holds root.entries place (.file bytes) ∧ root.manifest ≠ some place ∧
    path = joined (partsOf place)

theorem mem_discoverPayloadPaths {path : Text} : path ∈ discoverPayloadPaths root ↔
    ∃ place leaf, Holds root.entries place leaf ∧ IsLeaf leaf ∧ root.manifest ≠ some place ∧
      path = joined (partsOf place) := by
  simp only [discoverPayloadPaths, mem_sorted, List.mem_map, List.mem_filter, mem_placesBelow,
    decide_eq_true_eq]
  constructor
  · rintro ⟨place, ⟨⟨leaf, holds, ends⟩, other⟩, rfl⟩
    exact ⟨place, leaf, holds, ends, other, rfl⟩
  · rintro ⟨place, leaf, holds, ends, other, rfl⟩
    exact ⟨place, ⟨⟨leaf, holds, ends⟩, other⟩, rfl⟩

theorem linkFindings_none {path : Text} (nothing : linkFindings root path = []) :
    root.escapes (splitPath path) = false ∧ root.isLink (splitPath path) = false := by
  unfold linkFindings at nothing
  split_ifs at nothing with escapes linked
  exact ⟨Bool.eq_false_iff.mpr escapes, Bool.eq_false_iff.mpr linked⟩

theorem digestFindings_none {row : Row} (nothing : digestFindings runtime root row = []) :
    ∃ bytes, root.read (splitPath row.path) = some bytes ∧ runtime.sha256 bytes = row.sha256 := by
  unfold digestFindings at nothing
  split at nothing
  · cases nothing
  · split_ifs at nothing with same
    exact ⟨_, ‹_›, same⟩

/-- The files of the pack are its inventory: no file is left out or made up, none is a link or
leads outside, and each has the digest stated for it. -/
structure Inventoried (runtime : Runtime) (root : PackRoot) (manifest : Manifest) : Prop where
  exact : ∀ path, path ∈ manifest.payloads.map Row.path ↔ ∃ bytes, Carries root path bytes
  distinct : (manifest.payloads.map Row.path).Nodup
  unlinked : ∀ place, Holds root.entries place .link → root.manifest = some place
  inside : root.linked = false ∧
    ∀ row ∈ manifest.payloads, root.escapes (splitPath row.path) = false
  pinned : ∀ row ∈ manifest.payloads, ∀ bytes, Carries root row.path bytes →
    root.read (splitPath row.path) = some bytes ∧ runtime.sha256 bytes = row.sha256

theorem Stages.inventoried {manifest : Manifest}
    (stages : Stages runtime bundle root manifest) : Inventoried runtime root manifest := by
  have unlinked : ∀ place, Holds root.entries place .link → root.manifest = some place := by
    intro place holds
    by_contra other
    have found : joined (partsOf place) ∈ discoverPayloadPaths root :=
      mem_discoverPayloadPaths.mpr ⟨place, .link, holds, trivial, other, rfl⟩
    obtain ⟨row, listed, same⟩ := List.mem_map.mp (stages.listed _ found)
    have plain := (linkFindings_none (stages.links row listed)).2
    rw [same, splitPath_joined holds.nonempty] at plain
    rw [(root.isLink_iff place .link holds).mpr rfl] at plain
    cases plain
  refine {
    exact := fun path => ⟨fun listed => ?_, ?_⟩
    distinct := ?_
    unlinked := unlinked
    inside := ⟨stages.unlinked, fun row listed => (linkFindings_none (stages.links row listed)).1⟩
    pinned := ?_ }
  · obtain ⟨row, present, rfl⟩ := List.mem_map.mp listed
    obtain ⟨place, leaf, holds, ends, other, same⟩ :=
      mem_discoverPayloadPaths.mp (stages.present row present)
    cases leaf with
    | file bytes => exact ⟨bytes, place, holds, other, same⟩
    | link => exact absurd (unlinked place holds) other
    | dir => cases ends
  · rintro ⟨bytes, place, holds, other, rfl⟩
    exact stages.listed _ (mem_discoverPayloadPaths.mpr ⟨place, _, holds, trivial, other, rfl⟩)
  · have single := stages.single
    rw [duplicatePaths, sorted_eq_nil, List.filter_eq_nil_iff] at single
    refine List.nodup_iff_count_le_one.mpr fun path => ?_
    by_cases listed : path ∈ manifest.payloads.map Row.path
    · have once := single path (List.mem_dedup.mpr listed)
      simpa using once
    · rw [List.count_eq_zero.mpr listed]
      exact Nat.zero_le 1
  · rintro row listed bytes ⟨place, holds, _, same⟩
    obtain ⟨content, read, digest⟩ := digestFindings_none (stages.digests row listed)
    have known := read
    rw [same, splitPath_joined holds.nonempty] at known
    obtain rfl := root.read_eq place bytes content holds known
    exact ⟨read, digest⟩

/-- Every payload that names a contract is valid under the schema pinned for it. -/
def Valid (bundle : Bundle runtime) (root : PackRoot) (manifest : Manifest) : Prop :=
  ∀ row ∈ manifest.payloads, ∀ name, row.contract = some name →
    ∃ schema, PinnedSchema bundle name schema ∧ ∀ bytes, Carries root row.path bytes →
      ∃ value, runtime.loads bytes = some value ∧ runtime.violations value schema = []

/-- No payload holds a null that the schema pinned for it turns away. -/
def NullsAdmitted (bundle : Bundle runtime) (root : PackRoot) (manifest : Manifest) : Prop :=
  ∀ row ∈ manifest.payloads, ∀ name schema bytes, row.contract = some name →
    PinnedSchema bundle name schema → Carries root row.path bytes →
    runtime.loads bytes = some (.scalar .null) → runtime.violations (.scalar .null) schema = []

theorem Stages.valid_iff {manifest : Manifest} (stages : Stages runtime bundle root manifest) :
    Valid bundle root manifest ↔ NullsAdmitted bundle root manifest := by
  constructor
  · intro valid row listed name schema bytes named pinned carries null
    obtain ⟨schema', pinned', held⟩ := valid row listed name named
    obtain ⟨value, loaded, passes⟩ := held bytes carries
    cases null.symm.trans loaded
    rwa [pinned.unique pinned']
  · intro admitted row listed name named
    obtain ⟨index, bound, rfl⟩ := List.getElem_of_mem listed
    have passed := stages.semantic (manifest.payloads[index], index)
      (List.mk_mem_zipIdx_iff_getElem?.mpr (List.getElem?_eq_getElem bound))
    simp only [semanticFindings, named] at passed
    split at passed
    · cases passed
    · rename_i contract known
      obtain ⟨schema, content, value, pinned, read, loaded, kind⟩ :=
        instanceFindings_none known passed
      refine ⟨schema, pinned, fun bytes carries => ?_⟩
      have same := (stages.inventoried.pinned _ listed bytes carries).1
      cases read.symm.trans same
      refine ⟨value, loaded, ?_⟩
      rcases kind with rfl | passes
      · exact admitted _ listed name schema content named pinned carries loaded
      · exact passes

end Pack

end DomainPack

end Neutrino
