import Neutrino.BackendPackage
import Neutrino.JsonBuild
import Neutrino.ReceiptRoundTrip

/-! What discovery accepts: the order of the directories plays no part in it, and a discovered
package is bound to its bytes. -/

namespace Neutrino.BackendPackage

open Checked Projection BackendProtocol

/-- The members of an object that was read stand in the order of their keys. -/
def ListsByKey (text : JsonText) : Prop :=
  ∀ payload object, text.parse payload = .ok (.object object) →
    (object.map Prod.fst).Pairwise (· < ·)

section Digests

variable {sha256Hex : List UInt8 → String} {text : JsonText}

theorem fieldOf_ok {α : Type} {field context code : String} {read : Option α} {value : α} :
    fieldOf field context code read = .ok value ↔ read = some value := by
  unfold fieldOf
  cases read <;> simp

theorem requiredNonemptyString_ok {object : Json.Object} {field context value : String} :
    requiredNonemptyString object field context = .ok value ↔
      object.getString field = some value ∧ value ≠ "" := by
  rw [requiredNonemptyString, fieldOf_ok, Option.filter_eq_some_iff]
  simp

theorem objectOr_ok {complaint : String} {found : Option Json.Object} {object : Json.Object} :
    objectOr complaint found = .ok object ↔ found = some object := by
  unfold objectOr descriptorError
  cases found <;> simp

theorem asObject_some {json : Json} {object : Json.Object} (read : json.asObject = some object) :
    json = .object object := by
  cases json with
  | object members =>
      cases read
      rfl
  | _ => cases read

/-- What a descriptor's bytes hold. -/
def HoldsObject (text : JsonText) (bytes : List UInt8) (object : Json.Object) : Prop :=
  ∃ payload, payloadText bytes = some payload ∧ text.parse payload = .ok (.object object) ∧
    utf8 (text.compactJson (.object object)) = bytes

theorem parseObject_holds {bytes : List UInt8} {object : Json.Object}
    (parsed : parseObject text bytes = .ok object) : HoldsObject text bytes object := by
  obtain ⟨json, read, parsed⟩ := bind_ok.mp parsed
  obtain ⟨members, found, parsed⟩ := bind_ok.mp parsed
  obtain ⟨canonical, parsed⟩ := check_ok.mp parsed
  cases parsed
  cases asObject_some (objectOr_ok.mp found)
  unfold parseJson at read
  split at read
  · cases read
  · rename_i payload decoded
    exact ⟨payload, decoded, mapError_ok.mp read, require_ok.mp canonical⟩

/-- What the members say of their own digest. -/
structure Manifested (sha256Hex : List UInt8 → String) (text : JsonText) (object : Json.Object)
    (digest : String) : Prop where
  kind : object.getString "kind" = some kDescriptorKind
  named : object.getString "manifestDigest" = some digest
  lower : isLowerHexDigest digest = true
  computed : digestOf sha256Hex
    (utf8 (text.compactJson (.object (object.erase "manifestDigest")))) = digest

theorem checkManifest_manifested {object : Json.Object} {digest : String}
    (checked : checkManifest sha256Hex text object = .ok digest) :
    Manifested sha256Hex text object digest := by
  obtain ⟨kind, kindRead, checked⟩ := bind_ok.mp checked
  obtain ⟨known, checked⟩ := check_ok.mp checked
  obtain ⟨found, digestRead, checked⟩ := bind_ok.mp checked
  obtain ⟨lower, checked⟩ := check_ok.mp checked
  obtain ⟨computed, checked⟩ := check_ok.mp checked
  cases checked
  cases require_ok.mp known
  exact ⟨(requiredNonemptyString_ok.mp kindRead).1, (requiredNonemptyString_ok.mp digestRead).1,
    require_ok.mp lower, require_ok.mp computed⟩

theorem parseMembers_digest {object : Json.Object} {digest : String} {descriptor : Descriptor}
    (parsed : parseMembers sha256Hex text object digest = .ok descriptor) :
    descriptor.manifestDigest = digest := by
  unfold parseMembers at parsed
  iterate 16 obtain ⟨_, _, parsed⟩ := bind_ok.mp parsed
  cases parsed
  rfl

theorem parseDescriptor_holds {bytes : List UInt8} {descriptor : Descriptor}
    (parsed : parseDescriptor sha256Hex text bytes = .ok descriptor) :
    ∃ object, HoldsObject text bytes object ∧
      Manifested sha256Hex text object descriptor.manifestDigest := by
  obtain ⟨object, read, parsed⟩ := bind_ok.mp parsed
  obtain ⟨digest, checked, parsed⟩ := bind_ok.mp parsed
  rw [parseMembers_digest parsed]
  exact ⟨object, parseObject_holds read, checkManifest_manifested checked⟩

/-- Members in order are the others with the missing one put back. -/
theorem insert_erase {object : Json.Object} {key : String} {value : Json}
    (ordered : (object.map Prod.fst).Pairwise (· < ·)) (found : object.get key = some value) :
    (object.erase key).insert key value = object := by
  obtain ⟨front, back, rfl⟩ := List.append_of_mem (Json.Object.mem_of_get found)
  rw [List.map_append, List.map_cons, List.pairwise_append, List.pairwise_cons] at ordered
  obtain ⟨_, ⟨above, _⟩, below⟩ := ordered
  have before : ∀ name ∈ front.map Prod.fst, name < key := fun name listed =>
    below name listed key List.mem_cons_self
  have kept : Json.Object.erase (front ++ (key, value) :: back) key = front ++ back := by
    have differs : ∀ member ∈ front ++ back, (member.1 != key) = true := by
      intro member listed
      rw [bne_iff_ne]
      rcases List.mem_append.mp listed with early | late
      · exact (before _ (List.mem_map_of_mem early)).ne
      · exact (above _ (List.mem_map_of_mem late)).ne'
    rw [Json.Object.erase, List.filter_append, List.filter_cons, if_neg (by simp),
      ← List.filter_append, List.filter_eq_self.mpr differs]
  rw [kept]
  refine Json.Object.insert_between front back value before ?_ ?_
  · intro name first below
    exact absurd (above name (List.mem_of_mem_head? first)) (not_lt.mpr below.le)
  · intro listed
    exact lt_irrefl key (above key listed)

theorem get_of_getString {object : Json.Object} {key value : String}
    (found : object.getString key = some value) : object.get key = some (.string value) := by
  obtain ⟨json, got, read⟩ := Option.bind_eq_some_iff.mp found
  cases json with
  | string text =>
      cases read
      exact got
  | _ => cases read

/-- The digest of a descriptor tells its bytes. -/
theorem bytes_of_manifestDigest (lawful : text.Lawful) (byKey : ListsByKey text)
    (injective : Function.Injective sha256Hex) {bytes bytes' : List UInt8}
    {descriptor descriptor' : Descriptor}
    (parsed : parseDescriptor sha256Hex text bytes = .ok descriptor)
    (parsed' : parseDescriptor sha256Hex text bytes' = .ok descriptor')
    (same : descriptor.manifestDigest = descriptor'.manifestDigest) : bytes = bytes' := by
  obtain ⟨object, ⟨_, _, read, rfl⟩, manifested⟩ := parseDescriptor_holds parsed
  obtain ⟨other, ⟨_, _, read', rfl⟩, manifested'⟩ := parseDescriptor_holds parsed'
  have digests : digestOf sha256Hex
      (utf8 (text.compactJson (.object (object.erase "manifestDigest")))) = digestOf sha256Hex
      (utf8 (text.compactJson (.object (other.erase "manifestDigest")))) := by
    rw [manifested.computed, manifested'.computed, same]
  have payloads := utf8_injective
    (injective (DispatchReceipt.prefixed_injective digests))
  have whole := lawful.insert _ _ "manifestDigest" (.string descriptor.manifestDigest)
    (Json.Object.erase_fresh object _) (Json.Object.erase_fresh other _) payloads
  rw [insert_erase (byKey _ _ read) (get_of_getString manifested.named)] at whole
  rw [same, insert_erase (byKey _ _ read') (get_of_getString manifested'.named)] at whole
  rw [whole]

theorem verifiedPackageManifestDigest_descriptor {bytes : List UInt8} {descriptor : Descriptor}
    (parsed : parseDescriptor sha256Hex text bytes = .ok descriptor) :
    verifiedPackageManifestDigest sha256Hex text bytes = .ok descriptor.manifestDigest := by
  obtain ⟨object, ⟨payload, decoded, read, _⟩, manifested⟩ := parseDescriptor_holds parsed
  have kind : object.getString "kind" = some "neutrino.backend-package/1" := manifested.kind
  simp only [verifiedPackageManifestDigest, decoded, Option.bind_some, read, Except.toOption,
    Json.asObject, manifested.named, Option.filter_some, manifested.lower, if_true]
  rw [require, if_pos kind, ok_bind, require, if_pos manifested.computed]
  rfl

end Digests

section Verified

variable {sha256Hex : List UInt8 → String} {text : JsonText} {compatibility : Compatibility}
  {filesystem : PackageFilesystem}

/-- A file of the closure is regular and has the length and the digest the manifest gives it. -/
structure Pinned (sha256Hex : List UInt8 → String) (filesystem : PackageFilesystem)
    (directory : String) (held : VerifiedClosureEntry) : Prop where
  opened : filesystem directory held.manifest.path = .ok held.file
  regular : held.file.kind = .regular
  length : held.file.bytes.length = held.manifest.byteLen.toNat
  digest : digestOf sha256Hex held.file.bytes = held.manifest.sha256

/-- A package is what its directory holds: the descriptor of its bytes, the files of the
descriptor's closure, and the entry among them. -/
structure Verified (sha256Hex : List UInt8 → String) (text : JsonText)
    (filesystem : PackageFilesystem) (package : VerifiedPackage) : Prop where
  opened : filesystem package.packageDirectory kDescriptorFileName = .ok package.descriptorFile
  parsed : parseDescriptor sha256Hex text package.descriptorFile.bytes = .ok package.descriptor
  closure : package.closure.map VerifiedClosureEntry.manifest = package.descriptor.closure
  pinned : ∀ held ∈ package.closure, Pinned sha256Hex filesystem package.packageDirectory held
  entry : ∃ held, package.entry = some held ∧ held.manifest.path = package.descriptor.entry

theorem requireRegular_ok {file : PackageFileHandle} {path missingCode : String}
    (passed : requireRegular file path missingCode = .ok ()) : file.kind = .regular := by
  unfold requireRegular at passed
  split at passed
  · assumption
  all_goals cases passed

/-- What holds of the files verified so far. -/
structure SoFar (sha256Hex : List UInt8 → String) (filesystem : PackageFilesystem)
    (directory entry : String) (done : List ClosureEntry) (state : Verifying) : Prop where
  closure : state.closure.map VerifiedClosureEntry.manifest = done
  pinned : ∀ held ∈ state.closure, Pinned sha256Hex filesystem directory held
  entry : state.foundEntry = true → ∃ held, state.closure[state.entryIndex]? = some held ∧
    held.manifest.path = entry

theorem SoFar.step {directory entry : String} {done : List ClosureEntry}
    {state next : Verifying} {manifest : ClosureEntry}
    (soFar : SoFar sha256Hex filesystem directory entry done state)
    (verified : verifyEntry sha256Hex filesystem directory entry state manifest = .ok next) :
    SoFar sha256Hex filesystem directory entry (done ++ [manifest]) next := by
  obtain ⟨file, opened, verified⟩ := bind_ok.mp verified
  obtain ⟨regular, verified⟩ := check_ok.mp verified
  obtain ⟨matched, verified⟩ := check_ok.mp verified
  obtain ⟨length, digest⟩ := require_ok.mp matched
  cases verified
  refine ⟨by simp [soFar.closure], ?_, ?_⟩
  · intro held listed
    rcases List.mem_append.mp listed with before | here
    · exact soFar.pinned held before
    · cases List.mem_singleton.mp here
      exact ⟨opened, requireRegular_ok regular, length, digest⟩
  · intro found
    by_cases isEntry : manifest.path = entry
    · exact ⟨⟨manifest, file⟩, by simp [isEntry], isEntry⟩
    · simp only [isEntry, decide_false, Bool.false_or] at found
      obtain ⟨held, located, path⟩ := soFar.entry found
      refine ⟨held, ?_, path⟩
      simp only [isEntry, decide_false, Bool.false_eq_true, if_false]
      rw [List.getElem?_append_left (List.getElem?_eq_some_iff.mp located).1, located]

theorem verifyPackage_verified {directory : String} {package : VerifiedPackage}
    (verified : verifyPackage sha256Hex text compatibility filesystem directory = .ok package) :
    package.packageDirectory = directory ∧ Verified sha256Hex text filesystem package := by
  obtain ⟨descriptorFile, opened, verified⟩ := bind_ok.mp verified
  obtain ⟨_, verified⟩ := check_ok.mp verified
  obtain ⟨descriptor, parsed, verified⟩ := bind_ok.mp verified
  obtain ⟨_, verified⟩ := check_ok.mp verified
  obtain ⟨final, threaded, verified⟩ := bind_ok.mp verified
  obtain ⟨found, verified⟩ := check_ok.mp verified
  cases verified
  have start : SoFar sha256Hex filesystem directory descriptor.entry [] {} :=
    ⟨rfl, by simp, by simp⟩
  have soFar := thread_invariant (SoFar sha256Hex filesystem directory descriptor.entry)
    (fun _ _ _ _ held stepped => held.step stepped) start threaded
  exact ⟨rfl, opened, parsed, by simpa using soFar.closure, soFar.pinned,
    soFar.entry (require_ok.mp found)⟩

/-! Discovery. -/

/-- No two packages share a target, a profile or a manifest digest. -/
structure Distinct (packages : List VerifiedPackage) : Prop where
  targets : (packages.map (·.descriptor.targetIdentity)).Nodup
  profiles : (packages.map (·.descriptor.profileSummary.profileId)).Nodup
  manifestDigests : (packages.map (·.descriptor.manifestDigest)).Nodup

/-- What holds of the packages found so far. -/
structure FoundSoFar (sha256Hex : List UInt8 → String) (text : JsonText)
    (filesystem : PackageFilesystem) (done : List String) (state : Discovered) : Prop where
  directories : state.packages.map VerifiedPackage.packageDirectory = done
  verified : ∀ package ∈ state.packages, Verified sha256Hex text filesystem package
  distinct : Distinct state.packages
  manifestDigests : state.manifestDigests = state.packages.map (·.descriptor.manifestDigest)
  targets : state.targets.map Prod.fst = state.packages.map (·.descriptor.targetIdentity)
  profiles : state.profiles.map Prod.fst =
    state.packages.map (·.descriptor.profileSummary.profileId)

theorem claimName_ok {code what name directory : String} {owners next : List (String × String)}
    (claimed : claimName code what name directory owners = .ok next) :
    next = owners ++ [(name, directory)] ∧ name ∉ owners.map Prod.fst := by
  unfold claimName at claimed
  split at claimed
  · cases claimed
  · rename_i absent
    cases claimed
    refine ⟨rfl, ?_⟩
    intro listed
    obtain ⟨owner, present, rfl⟩ := List.mem_map.mp listed
    simpa using List.lookup_eq_none_iff.mp absent owner present

theorem nodup_concat {α : Type} {elements : List α} {element : α} (distinct : elements.Nodup)
    (fresh : element ∉ elements) : (elements ++ [element]).Nodup := by
  rw [List.nodup_append]
  refine ⟨distinct, by simp, ?_⟩
  intro first listed second here same
  cases List.mem_singleton.mp here
  exact fresh (same ▸ listed)

theorem FoundSoFar.step {done : List String} {state next : Discovered} {directory : String}
    (soFar : FoundSoFar sha256Hex text filesystem done state)
    (stepped : discoverPackage sha256Hex text compatibility filesystem state directory =
      .ok next) : FoundSoFar sha256Hex text filesystem (done ++ [directory]) next := by
  obtain ⟨package, verified, stepped⟩ := bind_ok.mp stepped
  obtain ⟨fresh, stepped⟩ := check_ok.mp stepped
  obtain ⟨targets, targetClaimed, stepped⟩ := bind_ok.mp stepped
  obtain ⟨profiles, profileClaimed, stepped⟩ := bind_ok.mp stepped
  cases stepped
  obtain ⟨rfl, newTarget⟩ := claimName_ok targetClaimed
  obtain ⟨rfl, newProfile⟩ := claimName_ok profileClaimed
  rw [soFar.targets] at newTarget
  rw [soFar.profiles] at newProfile
  have newDigest := require_ok.mp fresh
  rw [soFar.manifestDigests] at newDigest
  obtain ⟨located, holds⟩ := verifyPackage_verified verified
  refine ⟨by simp [soFar.directories, located], ?_, ⟨?_, ?_, ?_⟩, by simp [soFar.manifestDigests],
    by simp [soFar.targets], by simp [soFar.profiles]⟩
  · intro other listed
    rcases List.mem_append.mp listed with before | here
    · exact soFar.verified other before
    · cases List.mem_singleton.mp here
      exact holds
  · simpa using nodup_concat soFar.distinct.targets newTarget
  · simpa using nodup_concat soFar.distinct.profiles newProfile
  · simpa using nodup_concat soFar.distinct.manifestDigests newDigest

theorem discoverPackages_found {directories : List String} {packages : List VerifiedPackage}
    (discovered : discoverPackages sha256Hex text compatibility filesystem directories =
      .ok packages) :
    (packages.map VerifiedPackage.packageDirectory).Perm directories ∧ Distinct packages ∧
      ∀ package ∈ packages, Verified sha256Hex text filesystem package := by
  unfold discoverPackages at discovered
  dsimp only at discovered
  split at discovered
  · cases discovered
  · obtain ⟨final, threaded, discovered⟩ := bind_ok.mp discovered
    cases discovered
    have start : FoundSoFar sha256Hex text filesystem [] {} :=
      ⟨rfl, by simp, ⟨by simp, by simp, by simp⟩, rfl, rfl, rfl⟩
    have soFar := thread_invariant (FoundSoFar sha256Hex text filesystem)
      (fun _ _ _ _ held stepped => held.step stepped) start threaded
    have same := SortOn.sortOn_perm (fun package : VerifiedPackage =>
      package.descriptor.targetIdentity) final.packages
    refine ⟨?_, ⟨?_, ?_, ?_⟩, ?_⟩
    · have configured := (same.map VerifiedPackage.packageDirectory)
      rw [soFar.directories] at configured
      exact configured.trans (SortOn.sortOn_perm id directories)
    · exact (same.map _).nodup_iff.mpr soFar.distinct.targets
    · exact (same.map _).nodup_iff.mpr soFar.distinct.profiles
    · exact (same.map _).nodup_iff.mpr soFar.distinct.manifestDigests
    · intro package listed
      exact soFar.verified package (SortOn.mem_sortOn.mp listed)

/-! The order of the directories. -/

theorem discoverPackages_perm {directories directories' : List String}
    (same : directories.Perm directories') :
    discoverPackages sha256Hex text compatibility filesystem directories =
      discoverPackages sha256Hex text compatibility filesystem directories' := by
  unfold discoverPackages
  rw [SortOn.sortOn_eq_of_injective same Function.injective_id]

end Verified

theorem packageDirectory_error {entry : RootEntry} {failure : Failure}
    (failed : packageDirectory entry = .error failure) : failure.code = "E_PACKAGE_LOCATION" := by
  have rooted : ∀ {answer : Except String Bool}, answer.mapError rootFailure = .error failure →
      failure.code = "E_PACKAGE_LOCATION" := by
    intro answer asked
    obtain ⟨message, _, rfl⟩ := mapError_error.mp asked
    rfl
  rcases bind_error.mp failed with asked | ⟨isDirectory, _, failed⟩
  · exact rooted asked
  · split at failed
    · rcases bind_error.mp failed with asked | ⟨_, _, never⟩
      · exact rooted asked
      · cases never
    · cases failed

/-- A listing of the root in another order gives the same directories, or fails too. -/
theorem packageDirectories_perm {root root' : List RootEntry} (same : root.Perm root') :
    (packageDirectories root).mapError Failure.code =
      (packageDirectories root').mapError Failure.code := by
  have accepted : ∀ {first second : List RootEntry} {directories : List String},
      first.Perm second → packageDirectories first = .ok directories →
      packageDirectories second = .ok directories := by
    intro first second directories permuted listed
    obtain ⟨found, collected, listed⟩ := bind_ok.mp listed
    obtain ⟨found', collected', between⟩ := collect_perm permuted collected
    cases listed
    rw [packageDirectories, collected', ok_bind,
      SortOn.sortOn_eq_of_injective between.flatten Function.injective_id]
    rfl
  have failed : ∀ {first : List RootEntry} {failure : Failure},
      packageDirectories first = .error failure → failure.code = "E_PACKAGE_LOCATION" := by
    intro first failure failed
    rcases bind_error.mp failed with collected | ⟨_, _, never⟩
    · obtain ⟨entry, _, failed⟩ := collect_error collected
      exact packageDirectory_error failed
    · cases never
  cases first : packageDirectories root with
  | ok directories => rw [accepted same first]
  | error failure =>
      cases second : packageDirectories root' with
      | ok directories =>
          rw [accepted same.symm second] at first
          cases first
      | error failure' =>
          simp only [Except.mapError, failed first, failed second]

/-- The packages of the default root. -/
def discoverRoot (sha256Hex : List UInt8 → String) (text : JsonText) (compatibility : Compatibility)
    (filesystem : PackageFilesystem) (root : List RootEntry) :
    Except Failure (List VerifiedPackage) := do
  let directories ← packageDirectories root
  discoverPackages sha256Hex text compatibility filesystem directories

theorem discoverRoot_perm {sha256Hex : List UInt8 → String} {text : JsonText}
    {compatibility : Compatibility} {filesystem : PackageFilesystem} {root root' : List RootEntry}
    (same : root.Perm root') :
    (discoverRoot sha256Hex text compatibility filesystem root).mapError Failure.code =
      (discoverRoot sha256Hex text compatibility filesystem root').mapError Failure.code := by
  have listed := packageDirectories_perm same
  unfold discoverRoot
  cases first : packageDirectories root with
  | ok directories =>
      rw [first] at listed
      rw [mapError_ok.mp listed.symm]
  | error failure =>
      rw [first] at listed
      obtain ⟨failure', second, code⟩ := mapError_error.mp listed.symm
      rw [second]
      simp only [bind, Except.bind, Except.mapError, code]

/-- Discovery does not depend on the order in which the directories are listed; discovered
packages share no target, profile or digest; a package's files are those its descriptor pins, the
entry among them; and its manifest digest tells the descriptor's bytes and is what start-up
computes of them. -/
theorem package_discovery (sha256Hex : List UInt8 → String) (text : JsonText)
    (lawful : text.Lawful) (byKey : ListsByKey text) (injective : Function.Injective sha256Hex)
    (compatibility : Compatibility) (filesystem : PackageFilesystem) :
    (∀ directories directories' : List String, directories.Perm directories' →
      discoverPackages sha256Hex text compatibility filesystem directories =
        discoverPackages sha256Hex text compatibility filesystem directories') ∧
    (∀ root root' : List RootEntry, root.Perm root' →
      (discoverRoot sha256Hex text compatibility filesystem root).mapError Failure.code =
        (discoverRoot sha256Hex text compatibility filesystem root').mapError Failure.code) ∧
    (∀ (directories : List String) (packages : List VerifiedPackage),
      discoverPackages sha256Hex text compatibility filesystem directories = .ok packages →
      (packages.map VerifiedPackage.packageDirectory).Perm directories ∧ Distinct packages ∧
      ∀ package ∈ packages, Verified sha256Hex text filesystem package ∧
        (∀ held ∈ package.closure, ∀ bytes,
          digestOf sha256Hex bytes = held.manifest.sha256 → bytes = held.file.bytes) ∧
        verifiedPackageManifestDigest sha256Hex text package.descriptorFile.bytes =
          .ok package.descriptor.manifestDigest) ∧
    (∀ (compatibility' : Compatibility) (filesystem' : PackageFilesystem)
      (directory directory' : String) (package package' : VerifiedPackage),
      verifyPackage sha256Hex text compatibility filesystem directory = .ok package →
      verifyPackage sha256Hex text compatibility' filesystem' directory' = .ok package' →
      package.descriptor.manifestDigest = package'.descriptor.manifestDigest →
      package.descriptorFile.bytes = package'.descriptorFile.bytes) := by
  refine ⟨fun _ _ => discoverPackages_perm, fun _ _ => discoverRoot_perm, ?_, ?_⟩
  · intro directories packages discovered
    obtain ⟨configured, distinct, verified⟩ := discoverPackages_found discovered
    refine ⟨configured, distinct, fun package listed => ?_⟩
    have holds := verified package listed
    refine ⟨holds, ?_, verifiedPackageManifestDigest_descriptor holds.parsed⟩
    intro held member bytes digest
    rw [← (holds.pinned held member).digest] at digest
    exact injective (DispatchReceipt.prefixed_injective digest)
  · intro compatibility' filesystem' directory directory' package package' verified verified' same
    exact bytes_of_manifestDigest lawful byKey injective (verifyPackage_verified verified).2.parsed
      (verifyPackage_verified verified').2.parsed same

/-! A root of one package. -/

/-- The members of an object that are not in the order of their keys are not read. -/
def keepOrdered : Json → Except String Json
  | .object members =>
      if (members.map Prod.fst).Pairwise (· < ·) then .ok (.object members)
      else .error "members out of order"
  | json => .ok json

def orderedText : JsonText := ⟨Json.compact, fun payload => readJson payload >>= keepOrdered⟩

theorem orderedText_lawful : orderedText.Lawful where
  reads json integral ordered := by
    show readJson json.compact >>= keepOrdered = .ok json
    rw [readJson_compact integral, ok_bind]
    cases json with
    | object members => exact if_pos ordered.1
    | _ => rfl
  nonempty := compactText_lawful.nonempty
  insert := compactText_lawful.insert

theorem orderedText_listsByKey : ListsByKey orderedText := by
  intro payload object read
  obtain ⟨json, _, kept⟩ := bind_ok.mp read
  cases json with
  | object members =>
      simp only [keepOrdered] at kept
      split at kept
      · rename_i ordered
        cases kept
        exact ordered
      · cases kept
  | _ => cases kept

/-- A hash that is known of some texts, and names all others by themselves. -/
def tableHash (table : List (List UInt8 × String)) (bytes : List UInt8) : String :=
  (table.lookup bytes).getD ("raw " ++ DispatchReceipt.latin bytes)

theorem tableHash_injective {table : List (List UInt8 × String)}
    (distinct : (table.map Prod.snd).Nodup)
    (digests : ∀ digest ∈ table.map Prod.snd, digest.toList.head? ≠ some 'r') :
    Function.Injective (tableHash table) := by
  have known : ∀ {bytes digest}, table.lookup bytes = some digest → (bytes, digest) ∈ table :=
    fun found => by
      obtain ⟨before, after, rfl, _⟩ := List.lookup_eq_some_iff.mp found
      simp
  have raw : ∀ {bytes other : List UInt8} {digest : String}, table.lookup bytes = some digest →
      digest ≠ "raw " ++ DispatchReceipt.latin other := by
    rintro bytes other _ found rfl
    refine digests _ (List.mem_map_of_mem (known found)) ?_
    simp
  intro first second same
  unfold tableHash at same
  cases here : table.lookup first with
  | some digest =>
      cases there : table.lookup second with
      | some digest' =>
          rw [here, there] at same
          cases same
          exact congrArg Prod.fst
            (List.inj_on_of_nodup_map distinct (known here) (known there) rfl)
      | none =>
          rw [here, there] at same
          exact absurd same (raw here)
  | none =>
      cases there : table.lookup second with
      | some digest' =>
          rw [here, there] at same
          exact absurd same.symm (raw there)
      | none =>
          rw [here, there] at same
          have texts := congrArg String.toList same
          simp only [Option.getD_none, String.toList_append] at texts
          exact DispatchReceipt.latin_injective
            (String.toList_inj.mp (List.append_cancel_left texts))

def count (value : Int64) : Json := .number (.integer value)

def sampleProfile : Json :=
  .object [("capabilitySpecVersion", .string "v1"), ("executionMode", .string "simulated"),
    ("fallbackPolicy", .string "fail_closed"), ("kind", .string "neutrino.target-profile"),
    ("profileId", .string "sample.rail.v1"), ("profileVersion", count 1),
    ("runtimeFamily", .string "off_chain"), ("schemaVersion", count 1),
    ("semanticProfile", .object [("features", .array [.string "effect:debit"]),
      ("limits", .object [("maxAttestations", count 8), ("maxComputes", count 8),
        ("maxEffectGroups", count 8), ("maxEffects", count 8), ("maxExpressionDepth", count 8),
        ("maxOperationSteps", count 8)]),
      ("version", count 3)]),
    ("supportedFeatures", .array [.string "effect:debit"]), ("target", .string "sample"),
    ("unsupportedConstructs", .array [])]

def sampleFile : List UInt8 := utf8 "#!"

/-- The descriptor's members before and after the manifest digest. -/
def sampleFront : Json.Object :=
  [("apiVersion", count 1), ("capabilities", .array []),
    ("closure", .array [.object [("byteLen", count 2), ("path", .string "run"),
      ("sha256", .string
        "sha256:3612ddaf46e149a4f583faf0face846585148f59e0ce2645594df83b5dc807e8")]]),
    ("compatibilityBounds", .object [
      ("coreProtocol", .object [("max", .object [("major", count 1), ("minor", count 0)]),
        ("min", .object [("major", count 1), ("minor", count 0)])]),
      ("projectionSchema", .object [("max", count 5), ("min", count 5)])]),
    ("entry", .string "run"), ("kind", .string "neutrino.backend-package/1"),
    ("licenseIdentity", .string "open")]

def sampleBack : Json.Object :=
  [("profileSummary", sampleProfile), ("protocolMajor", count 1), ("protocolMinor", count 0),
    ("targetIdentity", .string "sample"), ("targetProfileIdentity", .string "sample.rail.v1")]

def sampleDigest : String := "e2c78e4c4259922bf7e8777db22eb36f2fc0d82134a2dde032a0aedbe5bc0db2"

def sampleObject : Json.Object :=
  sampleFront ++ ("manifestDigest", .string ("sha256:" ++ sampleDigest)) :: sampleBack

def sampleDescriptor : List UInt8 := utf8 (Json.object sampleObject).compact

def sampleHash : List UInt8 → String :=
  tableHash [(utf8 (Json.object (sampleFront ++ sampleBack)).compact, sampleDigest),
    (sampleFile, "3612ddaf46e149a4f583faf0face846585148f59e0ce2645594df83b5dc807e8"),
    (utf8 sampleProfile.compact,
      "4469cfb52e9b778ae6ae439ffdbaa77869a7d09b93f5aa51ac78bae19c119907")]

def sampleFilesystem : PackageFilesystem := fun directory path =>
  if directory = "/packages/sample" ∧ path = kDescriptorFileName then
    .ok ⟨.regular, sampleDescriptor, "1:1"⟩
  else if directory = "/packages/sample" ∧ path = "run" then .ok ⟨.regular, sampleFile, "1:2"⟩
  else .ok ⟨.missing, [], path⟩

theorem sampleHash_injective : Function.Injective sampleHash :=
  tableHash_injective (by decide +kernel) (by decide +kernel)

/-- The canonical bytes of an object hold it. -/
theorem parseObject_compact {object : Json.Object} (integral : (Json.object object).Integral)
    (ordered : (object.map Prod.fst).Pairwise (· < ·)) :
    parseObject orderedText (utf8 (Json.object object).compact) = .ok object := by
  have read : orderedText.parse (Json.object object).compact = .ok (.object object) := by
    show readJson (Json.object object).compact >>= keepOrdered = _
    rw [readJson_compact integral, ok_bind, keepOrdered, if_pos ordered]
  have parsed : parseJson orderedText (utf8 (Json.object object).compact) =
      .ok (.object object) := by
    simp only [parseJson, payloadText_utf8, read, Except.mapError]
  rw [parseObject, parsed, ok_bind]
  simp only [Json.asObject, objectOr, ok_bind]
  have canonical : utf8 (orderedText.compactJson (.object object)) =
      utf8 (Json.object object).compact := rfl
  rw [require, if_pos canonical]
  rfl

theorem sampleObject_parsed : parseObject orderedText sampleDescriptor = .ok sampleObject :=
  parseObject_compact (by
    simp [sampleObject, sampleFront, sampleBack, sampleProfile, count, Json.Integral,
      Json.MembersIntegral, Json.AllIntegral]) (by decide +kernel)

theorem tableHash_first (bytes : List UInt8) (digest : String)
    (rest : List (List UInt8 × String)) : tableHash ((bytes, digest) :: rest) bytes = digest := by
  simp [tableHash]

theorem tableHash_next {bytes other : List UInt8} (differ : bytes ≠ other) (digest : String)
    (rest : List (List UInt8 × String)) :
    tableHash ((other, digest) :: rest) bytes = tableHash rest bytes := by
  simp only [tableHash, List.lookup_cons, beq_false_of_ne differ]

theorem sampleObject_checked : checkManifest sampleHash orderedText sampleObject =
    .ok ("sha256:" ++ sampleDigest) := by
  have kind : requiredNonemptyString sampleObject "kind" "package descriptor" =
      .ok kDescriptorKind := by decide +kernel
  have named : requiredNonemptyString sampleObject "manifestDigest" "package descriptor" =
      .ok ("sha256:" ++ sampleDigest) := by decide +kernel
  have lower : isLowerHexDigest ("sha256:" ++ sampleDigest) = true := by decide +kernel
  have computed : digestOf sampleHash (utf8 (orderedText.compactJson
      (.object (sampleObject.erase "manifestDigest")))) = "sha256:" ++ sampleDigest :=
    congrArg ("sha256:" ++ ·) (tableHash_first _ sampleDigest _)
  rw [checkManifest, kind, ok_bind, require, if_pos rfl, ok_bind, named, ok_bind, require,
    if_pos lower, ok_bind, require, if_pos computed]
  rfl

theorem sampleFile_hashed : digestOf sampleHash sampleFile =
    "sha256:3612ddaf46e149a4f583faf0face846585148f59e0ce2645594df83b5dc807e8" := by
  have opened : (utf8 (Json.object (sampleFront ++ sampleBack)).compact).head? = some 123 := by
    decide +kernel
  have differ : sampleFile ≠ utf8 (Json.object (sampleFront ++ sampleBack)).compact := by
    intro same
    rw [← same] at opened
    revert opened
    decide
  rw [digestOf, sampleHash, tableHash_next differ, tableHash_first]
  decide +kernel

def sampleEntry : ClosureEntry :=
  ⟨"run", "sha256:3612ddaf46e149a4f583faf0face846585148f59e0ce2645594df83b5dc807e8", 2⟩

theorem sampleDescriptor_parsed : ∃ descriptor,
    parseDescriptor sampleHash orderedText sampleDescriptor = .ok descriptor ∧
      descriptor.entry = "run" ∧ descriptor.closure = [sampleEntry] ∧
      validateCompatibility descriptor {} = .ok () := by
  have members : (parseMembers sampleHash orderedText (sampleFront ++ sampleBack)
      ("sha256:" ++ sampleDigest)).toOption.map (fun descriptor => (descriptor.entry,
        descriptor.closure, (validateCompatibility descriptor {}).toOption)) =
      some ("run", [sampleEntry], some ()) := by
    decide +kernel
  obtain ⟨descriptor, read, held⟩ := Option.map_eq_some_iff.mp members
  obtain ⟨entry, held⟩ := Prod.mk.inj held
  obtain ⟨closure, compatible⟩ := Prod.mk.inj held
  refine ⟨descriptor, ?_, entry, closure, toOption_eq_some.mp compatible⟩
  rw [parseDescriptor, sampleObject_parsed, ok_bind, sampleObject_checked, ok_bind]
  exact toOption_eq_some.mp read

theorem sample_discovered : ∃ package, discoverPackages sampleHash orderedText {} sampleFilesystem
    ["/packages/sample"] = .ok [package] := by
  obtain ⟨descriptor, parsed, entry, closure, compatible⟩ := sampleDescriptor_parsed
  have opened : sampleFilesystem "/packages/sample" kDescriptorFileName =
      .ok ⟨.regular, sampleDescriptor, "1:1"⟩ := by simp [sampleFilesystem]
  have run : sampleFilesystem "/packages/sample" "run" = .ok ⟨.regular, sampleFile, "1:2"⟩ := by
    have other : "run" ≠ kDescriptorFileName := by decide
    simp [sampleFilesystem, other]
  have pinned : sampleFile.length = sampleEntry.byteLen.toNat ∧
      digestOf sampleHash sampleFile = sampleEntry.sha256 := ⟨by decide +kernel, sampleFile_hashed⟩
  have verified : verifyEntry sampleHash sampleFilesystem "/packages/sample" descriptor.entry {}
      sampleEntry = .ok ⟨[⟨sampleEntry, ⟨.regular, sampleFile, "1:2"⟩⟩], 0, true⟩ := by
    rw [verifyEntry, show sampleEntry.path = "run" from rfl, run, ok_bind, requireRegular, ok_bind,
      require, if_pos pinned, entry]
    rfl
  refine ⟨⟨"/packages/sample", descriptor, ⟨.regular, sampleDescriptor, "1:1"⟩,
    [⟨sampleEntry, ⟨.regular, sampleFile, "1:2"⟩⟩], 0⟩, ?_⟩
  have package : verifyPackage sampleHash orderedText {} sampleFilesystem "/packages/sample" =
      .ok ⟨"/packages/sample", descriptor, ⟨.regular, sampleDescriptor, "1:1"⟩,
        [⟨sampleEntry, ⟨.regular, sampleFile, "1:2"⟩⟩], 0⟩ := by
    rw [verifyPackage, opened, ok_bind, requireRegular, ok_bind, parsed, ok_bind, compatible,
      ok_bind, closure, thread, verified, ok_bind]
    rfl
  have found : discoverPackage sampleHash orderedText {} sampleFilesystem {} "/packages/sample" =
      .ok ⟨[⟨"/packages/sample", descriptor, ⟨.regular, sampleDescriptor, "1:1"⟩,
        [⟨sampleEntry, ⟨.regular, sampleFile, "1:2"⟩⟩], 0⟩], [descriptor.manifestDigest],
        [(descriptor.targetIdentity, "/packages/sample")],
        [(descriptor.profileSummary.profileId, "/packages/sample")]⟩ := by
    rw [discoverPackage, package, ok_bind]
    rfl
  have sorted : SortOn.sortOn id ["/packages/sample"] = ["/packages/sample"] := rfl
  rw [discoverPackages, sorted]
  simp only [repeated, thread, found, ok_bind]
  rfl

theorem package_discovery_sample :
    Function.Injective sampleHash ∧ ∃ package,
      discoverPackages sampleHash orderedText {} sampleFilesystem ["/packages/sample"] =
        .ok [package] ∧
      Verified sampleHash orderedText sampleFilesystem package ∧
      verifiedPackageManifestDigest sampleHash orderedText package.descriptorFile.bytes =
        .ok package.descriptor.manifestDigest := by
  obtain ⟨package, discovered⟩ := sample_discovered
  obtain ⟨_, _, found, _⟩ := package_discovery sampleHash orderedText orderedText_lawful
    orderedText_listsByKey sampleHash_injective {} sampleFilesystem
  obtain ⟨_, _, verified⟩ := found _ _ discovered
  obtain ⟨holds, _, started⟩ := verified package List.mem_cons_self
  exact ⟨sampleHash_injective, package, discovered, holds, started⟩
end Neutrino.BackendPackage
