import Mathlib
import Neutrino.PackBinding

/-! Whole verifications of domain packs: what an accepted pack is, which packs end a verification
with an exception, and what neither the listing order nor the second of two packs can change. -/

namespace Neutrino

namespace DomainPack

open Checked

section Pack

variable {runtime : Runtime} {bundle : Bundle runtime} {root : PackRoot}

/-! Manifests by their version. -/

/-- The pack's manifest is a dict with the items. -/
def HasManifest (runtime : Runtime) (root : PackRoot) (items : Dict) : Prop :=
  ∃ bytes, root.manifestBytes = some bytes ∧ runtime.loads bytes = some (.dict items)

def IsV1 (runtime : Runtime) (root : PackRoot) (items : Dict) : Prop :=
  HasManifest runtime root items ∧ (manifestVersion items).eqInt 1 = true

def IsV2 (runtime : Runtime) (root : PackRoot) (items : Dict) : Prop :=
  HasManifest runtime root items ∧ (manifestVersion items).eqInt 2 = true

theorem eqInt_unique {value : Value} {first second : Int} (here : value.eqInt first = true)
    (there : value.eqInt second = true) : first = second := by
  cases value with
  | scalar value =>
      simp only [Value.eqInt, decide_eq_true_eq] at here there
      exact Rat.intCast_inj.mp (Option.some.inj (here.symm.trans there))
  | _ => cases here

theorem verify_v1 {items : Dict} (version : IsV1 runtime root items) :
    verify runtime bundle root = verifyV1 runtime bundle root items := by
  obtain ⟨⟨bytes, held, loaded⟩, one⟩ := version
  simp only [verify, held, loaded, one, if_true]

theorem verify_v2 {items : Dict} (version : IsV2 runtime root items) :
    verify runtime bundle root = verifyV2 runtime bundle root items := by
  obtain ⟨⟨bytes, held, loaded⟩, two⟩ := version
  have apart : ¬(manifestVersion items).eqInt 1 = true :=
    fun one => absurd (eqInt_unique one two) (by decide)
  simp only [verify, held, loaded, if_neg apart, two, if_true]

theorem admitted_ok {name : Text} {items : Dict}
    (passed : admitted runtime bundle name items = .ok ()) : ∃ contract bytes schema,
      bundle.contracts name = some contract ∧ bundle.files contract.path = some bytes ∧
        runtime.loads bytes = some schema ∧ runtime.violations (.dict items) schema = [] := by
  unfold admitted at passed
  split at passed
  · cases passed
  · rename_i contract known
    obtain ⟨schema, loaded, passed⟩ := bind_ok.mp passed
    rcases contractSchema_cases known with ⟨schema', loaded', pinned⟩ | ⟨found, failed, _⟩
    · cases loaded.symm.trans loaded'
      dsimp only at passed
      split_ifs at passed with valid
      obtain ⟨contract', bytes, known', held, _, parsed⟩ := pinned
      exact ⟨contract', bytes, schema, known', held, parsed, valid⟩
    · cases loaded.symm.trans failed

/-- A manifest that its own contract admits can be read. -/
theorem admitted_v2 {items : Dict}
    (passed : admitted runtime bundle (text "domain-pack-v2") items = .ok ()) :
    ∃ manifest pinned, readManifest items = some manifest ∧
      items.lookup (text "packDigest") = some (.str pinned) := by
  obtain ⟨contract, bytes, schema, known, held, parsed, valid⟩ := admitted_ok passed
  obtain ⟨readable, digest, stated⟩ :=
    bundle.manifests contract bytes schema items known held parsed valid
  obtain ⟨manifest, read⟩ := Option.isSome_iff_exists.mp readable
  exact ⟨manifest, digest, read, stated⟩

theorem admitted_v1 {items : Dict}
    (passed : admitted runtime bundle (text "domain-pack") items = .ok ()) :
    ∃ manifest, readLegacyManifest items = some manifest := by
  obtain ⟨contract, bytes, schema, known, held, parsed, valid⟩ := admitted_ok passed
  exact Option.isSome_iff_exists.mp
    (bundle.legacyManifests contract bytes schema items known held parsed valid)

/-! An accepted pack. -/

/-- The canonical text of what a manifest's identity covers. -/
def canonicalText (runtime : Runtime) (items : Dict) : Text :=
  dumps runtime.floatText (manifestBody items)

/-- The manifest states the digest of its own canonical bytes. -/
def Sealed (runtime : Runtime) (items : Dict) : Prop :=
  Encodable (canonicalText runtime items) ∧ items.lookup (text "packDigest") =
    some (.str (runtime.sha256 (utf8Bytes (canonicalText runtime items))))

theorem canonicalPackDigest_ok {items : Dict} {digest : Text} :
    canonicalPackDigest runtime items = .ok digest ↔ Encodable (canonicalText runtime items) ∧
      runtime.sha256 (utf8Bytes (canonicalText runtime items)) = digest := by
  unfold canonicalPackDigest canonicalText
  dsimp only
  split <;> rename_i encodable <;> simp [encodable]

theorem admitted_error {name : Text} {items : Dict} {found : List Finding}
    (failed : admitted runtime bundle name items = .error found) : found ≠ [] := by
  unfold admitted at failed
  split at failed
  · cases failed
    simp
  · rename_i contract known
    rcases contractSchema_cases known with ⟨schema, loaded, _⟩ | ⟨found', failed', filled⟩
    · rw [loaded, ok_bind] at failed
      dsimp only at failed
      split_ifs at failed with valid
      cases failed
      simpa using valid
    · rw [failed'] at failed
      cases failed
      exact filled

/-- What follows the admission of a manifest. -/
theorem verifyV2_admitted {items : Dict} {manifest : Manifest} {pinned : Text}
    (passed : admitted runtime bundle (text "domain-pack-v2") items = .ok ())
    (read : readManifest items = some manifest)
    (stated : items.lookup (text "packDigest") = some (.str pinned)) :
    verifyV2 runtime bundle root items = canonicalPackDigest runtime items >>= fun digest =>
      if pinned = digest then
        negotiate runtime bundle manifest.toNegotiation >>= verifyPayloads runtime bundle root manifest
      else .ok (bundle.findings ++ [.packDigest digest]) := by
  simp only [verifyV2, passed, stated, read, Value.str?, ne_eq, Option.some.injEq, ite_not]

theorem accepted_v2 {items : Dict} (version : IsV2 runtime root items)
    (accepted : verify runtime bundle root = .ok []) :
    ∃ manifest, readManifest items = some manifest ∧ Sealed runtime items ∧
      Stages runtime bundle root manifest := by
  rw [verify_v2 version] at accepted
  cases passed : admitted runtime bundle (text "domain-pack-v2") items with
  | error found =>
      simp only [verifyV2, passed, Except.ok.injEq, List.append_eq_nil_iff] at accepted
      exact absurd accepted.2 (admitted_error passed)
  | ok =>
      obtain ⟨manifest, pinned, read, stated⟩ := admitted_v2 passed
      rw [verifyV2_admitted passed read stated] at accepted
      obtain ⟨digest, computed, accepted⟩ := bind_ok.mp accepted
      obtain ⟨encodable, computed⟩ := canonicalPackDigest_ok.mp computed
      split_ifs at accepted with same
      · obtain ⟨diags, _, accepted⟩ := bind_ok.mp accepted
        exact ⟨manifest, read, ⟨encodable, by rw [stated, same, computed]⟩,
          (verifyPayloads_none accepted).2⟩
      · simp at accepted

/-! Two packs of one digest. -/

theorem lookup_body {items : Dict} {key : Text} (other : key ≠ text "packDigest") :
    (items.filter fun item => item.1 ≠ text "packDigest").lookup key = items.lookup key := by
  induction items with
  | nil => rfl
  | cons item rest ih =>
      obtain ⟨name, value⟩ := item
      by_cases kept : name = text "packDigest"
      · have apart : (key == name) = false := by simpa [kept] using other
        rw [List.filter_cons_of_neg (by simpa using kept), ih, List.lookup_cons, apart]
      · rw [List.filter_cons_of_pos (by simpa using kept), List.lookup_cons, List.lookup_cons, ih]

/-- A manifest reads as what its identity covers. -/
theorem readManifest_body (items : Dict) :
    readManifest (items.filter fun item => item.1 ≠ text "packDigest") = readManifest items := by
  have apart : ∀ key ∈ ["targetsBundle", "translatorPins", "requiredContracts",
      "optionalContracts", "payloads"], text key ≠ text "packDigest" := by
    simp [text_injective.eq_iff]
  simp only [List.forall_mem_cons] at apart
  obtain ⟨targets, pins, required, optional, payloads, _⟩ := apart
  simp only [readManifest, readNegotiation, readNames, lookup_body targets, lookup_body pins,
    lookup_body required, lookup_body optional, lookup_body payloads]

theorem readManifest_congr {items others : Dict} (floats : FloatTexts runtime.floatText)
    (injective : Function.Injective runtime.sha256Hex) (here : Sealed runtime items)
    (there : Sealed runtime others)
    (same : items.lookup (text "packDigest") = others.lookup (text "packDigest")) :
    readManifest items = readManifest others := by
  rw [here.2, there.2, Option.some.injEq, Value.str.injEq] at same
  have hexes := String.append_right_inj _ |>.mp (text_injective same)
  have texts := utf8Bytes_injective here.1 there.1 (injective hexes)
  have bodies := Value.dict.inj (dumps_injective floats texts)
  rw [← readManifest_body items, bodies, readManifest_body others]

/-- What one pack carries, another accepted pack of the same manifest carries. -/
theorem Stages.carries {bundle' : Bundle runtime} {other : PackRoot} {manifest : Manifest}
    (injective : Function.Injective runtime.sha256Hex)
    (here : Stages runtime bundle root manifest) (there : Stages runtime bundle' other manifest)
    {path : Text} {bytes : List UInt8} (carried : Carries root path bytes) :
    Carries other path bytes := by
  have listed := (here.inventoried.exact path).mpr ⟨bytes, carried⟩
  obtain ⟨bytes', carried'⟩ := (there.inventoried.exact path).mp listed
  obtain ⟨row, present, rfl⟩ := List.mem_map.mp listed
  have digest := (here.inventoried.pinned row present bytes carried).2
  have digest' := (there.inventoried.pinned row present bytes' carried').2
  have hexes := String.append_right_inj _ |>.mp (text_injective (digest.trans digest'.symm))
  rwa [injective hexes]

/-! The order of a listing. -/

/-- One tree, its directories listed in another order. -/
inductive Rearranged : List (Name × Entry) → List (Name × Entry) → Prop
  | nil : Rearranged [] []
  | keep (item : Name × Entry) {rest others : List (Name × Entry)}
      (later : Rearranged rest others) : Rearranged (item :: rest) (item :: others)
  | inside (name : Name) {inner inner' rest others : List (Name × Entry)}
      (below : Rearranged inner inner') (later : Rearranged rest others) :
      Rearranged ((name, .dir inner) :: rest) ((name, .dir inner') :: others)
  | swap (first second : Name × Entry) (rest : List (Name × Entry)) :
      Rearranged (first :: second :: rest) (second :: first :: rest)
  | trans {first second third : List (Name × Entry)} (left : Rearranged first second)
      (right : Rearranged second third) : Rearranged first third

theorem Rearranged.places {entries others : List (Name × Entry)}
    (rearranged : Rearranged entries others) :
    (placesBelow entries).Perm (placesBelow others) := by
  induction rearranged with
  | nil => exact .refl _
  | keep item _ ih => exact ih.append_left _
  | inside name _ _ below later => exact (below.map _).append later
  | swap first second rest =>
      simp only [placesBelow, ← List.append_assoc]
      exact List.perm_append_comm.append_right _
  | trans _ _ left right => exact left.trans right

/-- A pack root with nothing changed but the order of its listings. -/
structure Relisted (root other : PackRoot) : Prop where
  entries : Rearranged root.entries other.entries
  manifest : other.manifest = root.manifest
  manifestBytes : other.manifestBytes = root.manifestBytes
  linked : other.linked = root.linked
  escapes : other.escapes = root.escapes
  isLink : other.isLink = root.isLink
  read : other.read = root.read
  unresolvable : other.unresolvable = root.unresolvable
  leaves : other.leaves = root.leaves
  readArtifact : other.readArtifact = root.readArtifact

theorem sorted_perm {paths others : List Text} (permuted : paths.Perm others) :
    sorted paths = sorted others :=
  ((List.perm_insertionSort _ paths).trans
    (permuted.trans (List.perm_insertionSort _ others).symm)).eq_of_pairwise'
    (List.pairwise_insertionSort _ paths) (List.pairwise_insertionSort _ others)

theorem Relisted.discover {other : PackRoot} (relisted : Relisted root other) :
    discoverPayloadPaths other = discoverPayloadPaths root := by
  rw [discoverPayloadPaths, discoverPayloadPaths, relisted.manifest]
  exact sorted_perm ((relisted.entries.places.symm.filter _).map _)

theorem Relisted.verify {other : PackRoot} (relisted : Relisted root other) :
    verify runtime bundle other = verify runtime bundle root := by
  have payloads : verifyPayloads runtime bundle other = verifyPayloads runtime bundle root := by
    have links : linkFindings other = linkFindings root := by
      funext path
      rw [linkFindings, linkFindings, relisted.escapes, relisted.isLink]
    have digests : digestFindings runtime other = digestFindings runtime root := by
      funext row
      rw [digestFindings, digestFindings, relisted.read]
    have semantic : semanticFindings runtime bundle other = semanticFindings runtime bundle root := by
      funext row
      rw [semanticFindings, semanticFindings, relisted.read]
    funext manifest diags
    rw [verifyPayloads, verifyPayloads, relisted.linked, relisted.discover, links, digests, semantic]
  have artifacts : artifactFindings runtime bundle other = artifactFindings runtime bundle root := by
    funext artifact
    rw [artifactFindings, artifactFindings, relisted.unresolvable, relisted.leaves,
      relisted.readArtifact]
  have first : verifyV1 runtime bundle other = verifyV1 runtime bundle root := by
    funext items
    rw [verifyV1, verifyV1, artifacts]
  have second : verifyV2 runtime bundle other = verifyV2 runtime bundle root := by
    funext items
    rw [verifyV2, verifyV2, payloads]
  rw [DomainPack.verify, DomainPack.verify, relisted.manifestBytes, first, second]

/-! Exceptions. -/

/-- A pin of the tool's version with too many digits to count, on either side. -/
def LongPin (bundle : Bundle runtime) (pin : Text × Value) : Prop :=
  pin.1 = text "toolVersion" ∧ ∃ offered wanted present,
    bundle.versions.lookup pin.1 = some offered ∧ semverParts pin.2 = some wanted ∧
      semverParts offered = some present ∧
      ∃ part ∈ wanted ++ present, runtime.maxDigits < part.length

theorem component_error {part : Text} {fault : Fault} :
    component runtime part = .error fault ↔ fault = .digits ∧ runtime.maxDigits < part.length := by
  unfold component
  split <;> rename_i short
  · simp [Nat.not_lt.mpr short]
  · simp [Nat.not_le.mp short, eq_comm]

theorem components_error {parts : Parts} {fault : Fault} :
    collect (component runtime) parts = .error fault ↔
      fault = .digits ∧ ∃ part ∈ parts, runtime.maxDigits < part.length := by
  constructor
  · intro failed
    obtain ⟨part, listed, raised⟩ := collect_error failed
    obtain ⟨rfl, long⟩ := component_error.mp raised
    exact ⟨rfl, part, listed, long⟩
  · rintro ⟨rfl, part, listed, long⟩
    cases outcome : collect (component runtime) parts with
    | error other =>
        obtain ⟨_, _, raised⟩ := collect_error outcome
        rw [(component_error.mp raised).1]
    | ok values =>
        obtain ⟨value, _, counted⟩ := collect_mem outcome listed
        rw [component_error.mpr ⟨rfl, long⟩] at counted
        cases counted

theorem pinFindings_error {pin : Text × Value} {fault : Fault} :
    pinFindings runtime bundle pin = .error fault ↔ fault = .digits ∧ LongPin bundle pin := by
  unfold pinFindings LongPin
  cases published : bundle.versions.lookup pin.1 with
  | none => simp
  | some offered =>
      dsimp only
      unfold compatiblePin
      split <;> rename_i axis
      · cases wants : semverParts pin.2 with
        | none => simp
        | some wanted =>
            cases offers : semverParts offered with
            | none => simp [offers]
            | some present =>
                simp only [bind_error, components_error, Review.note, reduceCtorEq, and_false,
                  exists_const, or_false, axis, true_and, Option.some.injEq, List.mem_append]
                constructor
                · rintro (⟨rfl, part, listed, long⟩ | ⟨_, _, rfl, part, listed, long⟩)
                  · exact ⟨rfl, _, _, _, rfl, rfl, offers, part, .inl listed, long⟩
                  · exact ⟨rfl, _, _, _, rfl, rfl, offers, part, .inr listed, long⟩
                · rintro ⟨rfl, _, _, _, rfl, rfl, offers', part, listed, long⟩
                  cases offers.symm.trans offers'
                  rcases listed with listed | listed
                  · exact .inl ⟨rfl, part, listed, long⟩
                  · cases counted : collect (component runtime) wanted with
                    | error other =>
                        obtain ⟨rfl, found⟩ := components_error.mp counted
                        exact .inl ⟨rfl, found⟩
                    | ok values => exact .inr ⟨values, rfl, rfl, part, listed, long⟩
      · simp [Review.note, axis]

theorem negotiate_error {manifest : Negotiation} {fault : Fault} :
    negotiate runtime bundle manifest = .error fault ↔
      fault = .digits ∧ ∃ pin ∈ manifest.translatorPins, LongPin bundle pin := by
  have only : ∀ pin other, pinFindings runtime bundle pin = .error other → other = .digits :=
    fun pin other raised => (pinFindings_error.mp raised).1
  have raises := @Review.overAll_raises _ _ _ _ manifest.translatorPins _ only
  simp only [pinFindings_error, true_and] at raises
  rw [negotiate, bind_error, ← raises]
  constructor
  · rintro (failed | ⟨_, _, never⟩)
    · obtain ⟨_, pin, _, _, raised, _⟩ := Review.overAll_error.mp failed
      obtain rfl := only pin fault raised
      exact ⟨rfl, failed⟩
    · cases never
  · rintro ⟨rfl, failed⟩
    exact .inl failed

theorem profileVocabulary_error {index : Nat} {profile : Dict} {fault : Fault}
    (raised : profileVocabulary runtime bundle index profile = .error fault) :
    fault = .malformed := by
  unfold profileVocabulary at raised
  split at raised
  · split at raised
    · split at raised
      · cases raised
      · cases raised
      · rename_i known version _
        rcases bind_error.mp raised with failed | ⟨_, _, never⟩
        · obtain ⟨_, feature, _, _, failed, _⟩ := Review.overAll_error.mp failed
          unfold featureFindings at failed
          split at failed
          · cases failed
          · cases failed
          · cases failed
            rfl
        · cases never
    · cases raised
  · cases raised

/-- Past the manifest, the files of a pack raise nothing but malformed structures. -/
theorem instanceFindings_error {content : Option (List UInt8)} {index : Nat} {name : Text}
    {contract : Contract} {fault : Fault}
    (raised : instanceFindings runtime bundle content index name contract = .error fault) :
    fault = .malformed := by
  have vocabulary : ∀ value, vocabularyFindings runtime bundle index name value = .error fault →
      fault = .malformed := by
    intro value failed
    unfold vocabularyFindings at failed
    split_ifs at failed
    split at failed
    · exact profileVocabulary_error failed
    · cases failed
  unfold instanceFindings at raised
  split at raised
  · cases raised
  · split at raised
    · cases raised
    · split at raised
      · cases raised
      · cases raised
      · rcases bind_error.mp raised with failed | ⟨_, _, never⟩
        · exact vocabulary _ failed
        · cases never

theorem verifyPayloads_error {manifest : Manifest} {diags : List Finding} {fault : Fault}
    (raised : verifyPayloads runtime bundle root manifest diags = .error fault) :
    fault = .malformed := by
  have semantic : ∀ row, semanticFindings runtime bundle root row = .error fault →
      fault = .malformed := by
    intro row failed
    unfold semanticFindings at failed
    split at failed
    · cases failed
    · split at failed
      · cases failed
      · exact instanceFindings_error failed
  have stage : ∀ {stops : Prop} [Decidable stops] {found : List Finding}
      {next : Review Fault Finding},
      (if stops then .ok found else next) = .error fault → next = .error fault := by
    intro stops _ found next failed
    split_ifs at failed
    exact failed
  unfold verifyPayloads at raised
  replace raised := stage (stage (stage (stage (stage raised))))
  rcases bind_error.mp raised with failed | ⟨_, _, never⟩
  · obtain ⟨_, row, _, _, failed, _⟩ := Review.overAll_error.mp failed
    exact semantic row failed
  · cases never

/-- The first version's artifact that cannot be looked up: its contract is known, and its path is
relative. -/
def Unresolvable (bundle : Bundle runtime) (root : PackRoot) (artifact : Artifact) : Prop :=
  (bundle.contracts artifact.contract).isSome ∧ relativePath artifact.path = true ∧
    root.unresolvable artifact.path = true

theorem artifactFindings_error {artifact : Artifact × Nat} {fault : Fault}
    (caught : fault ≠ .malformed) :
    artifactFindings runtime bundle root artifact = .error fault ↔
      fault = .encoding ∧ Unresolvable bundle root artifact.1 := by
  unfold artifactFindings Unresolvable
  cases bundle.contracts artifact.1.contract with
  | none => simp
  | some contract =>
      cases relativePath artifact.1.path with
      | false => simp
      | true =>
          cases root.unresolvable artifact.1.path with
          | true => simp [eq_comm]
          | false =>
              simp only [Bool.not_true, Bool.false_eq_true, if_false, and_false, iff_false]
              split_ifs
              · simp
              · exact mt instanceFindings_error caught

/-- A manifest of the second version that raises: its contract admits it, and its canonical text
cannot be encoded, or it is sealed and pins the tool's version with too many digits. -/
def Raises (bundle : Bundle runtime) (items : Dict) : Prop :=
  admitted runtime bundle (text "domain-pack-v2") items = .ok () ∧
    (¬Encodable (canonicalText runtime items) ∨ Sealed runtime items ∧
      ∃ manifest, readManifest items = some manifest ∧
        ∃ pin ∈ manifest.translatorPins, LongPin bundle pin)

/-- A manifest of the first version that raises: its contract admits it, and it pins the tool's
version with too many digits, or the first artifact to raise cannot be looked up. -/
def LegacyRaises (bundle : Bundle runtime) (root : PackRoot) (items : Dict) : Prop :=
  admitted runtime bundle (text "domain-pack") items = .ok () ∧
    ∃ manifest, readLegacyManifest items = some manifest ∧
      ((∃ pin ∈ manifest.translatorPins, LongPin bundle pin) ∨
        ∃ before artifact after, manifest.artifacts.zipIdx = before ++ artifact :: after ∧
          Unresolvable bundle root artifact.1 ∧ ∀ earlier ∈ before, ∃ found,
            artifactFindings runtime bundle root earlier = .ok found)

theorem verdict_uncaught {review : Review Fault Finding} {fault : Fault} :
    verdict review = .uncaught fault ↔ review = .error fault ∧ fault ≠ .malformed := by
  unfold verdict
  split <;> simp_all [eq_comm]

theorem uncaught_v2 {items : Dict} (version : IsV2 runtime root items) :
    (∃ fault, verdict (verify runtime bundle root) = .uncaught fault) ↔ Raises bundle items := by
  simp only [verdict_uncaught, verify_v2 version]
  cases passed : admitted runtime bundle (text "domain-pack-v2") items with
  | error found => simp [verifyV2, Raises, passed]
  | ok =>
      obtain ⟨manifest, pinned, read, stated⟩ := admitted_v2 passed
      simp only [Raises, passed, true_and, verifyV2_admitted passed read stated]
      by_cases encodable : Encodable (canonicalText runtime items)
      · have computed := canonicalPackDigest_ok.mpr ⟨encodable, rfl⟩
        simp only [computed, ok_bind, encodable, not_true_eq_false, false_or, Sealed, true_and,
          stated, read, Option.some.injEq, Value.str.injEq, exists_eq_left']
        split_ifs with same
        · simp only [bind_error, negotiate_error, same, true_and]
          constructor
          · rintro ⟨fault, ⟨rfl, long⟩ | ⟨diags, _, raised⟩, caught⟩
            · exact long
            · exact absurd (verifyPayloads_error raised) caught
          · exact fun long => ⟨.digits, .inl ⟨rfl, long⟩, by simp⟩
        · simp [same]
      · have failed : canonicalPackDigest runtime items = .error .encoding := by
          unfold canonicalPackDigest
          rw [← canonicalText, if_neg encodable]
        exact iff_of_true ⟨.encoding, by rw [failed]; rfl, by simp⟩ (.inl encodable)

theorem uncaught_v1 {items : Dict} (version : IsV1 runtime root items) :
    (∃ fault, verdict (verify runtime bundle root) = .uncaught fault) ↔
      LegacyRaises bundle root items := by
  simp only [verdict_uncaught, verify_v1 version]
  cases passed : admitted runtime bundle (text "domain-pack") items with
  | error found => simp [verifyV1, LegacyRaises, passed]
  | ok =>
      obtain ⟨manifest, read⟩ := admitted_v1 passed
      simp only [LegacyRaises, passed, true_and, verifyV1, read, Option.some.injEq,
        exists_eq_left', bind_error, negotiate_error, Review.overAll_error]
      constructor
      · rintro ⟨fault, ⟨rfl, long⟩ | ⟨_, _, ⟨before, artifact, after, split, raised, earlier⟩ |
          ⟨_, _, never⟩⟩, caught⟩
        · exact .inl long
        · exact .inr ⟨before, artifact, after, split,
            ((artifactFindings_error caught).mp raised).2, earlier⟩
        · cases never
      · rintro (long | ⟨before, artifact, after, split, failed, earlier⟩)
        · exact ⟨.digits, .inl ⟨rfl, long⟩, by simp⟩
        · cases negotiated : negotiate runtime bundle manifest.toNegotiation with
          | error fault =>
              obtain ⟨rfl, long⟩ := negotiate_error.mp negotiated
              exact ⟨.digits, .inl ⟨rfl, long⟩, by simp⟩
          | ok diags =>
              exact ⟨.encoding, .inr ⟨diags, rfl, .inl ⟨before, artifact, after, split,
                (artifactFindings_error (by simp)).mpr ⟨rfl, failed⟩, earlier⟩⟩, by simp⟩

/-- A verification raises for a manifest of either version, and for nothing else. -/
theorem uncaught_iff : (∃ fault, verdict (verify runtime bundle root) = .uncaught fault) ↔
    ∃ items, (IsV2 runtime root items ∧ Raises bundle items) ∨
      (IsV1 runtime root items ∧ LegacyRaises bundle root items) := by
  constructor
  · intro raised
    have versions : ∃ items, IsV2 runtime root items ∨ IsV1 runtime root items := by
      obtain ⟨fault, uncaught⟩ := raised
      obtain ⟨failed, _⟩ := verdict_uncaught.mp uncaught
      unfold verify at failed
      split at failed
      · cases failed
      · rename_i bytes held
        split at failed
        · cases failed
        · cases failed
        · rename_i items loaded
          split_ifs at failed with one two
          · exact ⟨items, .inr ⟨⟨bytes, held, loaded⟩, one⟩⟩
          · exact ⟨items, .inl ⟨⟨bytes, held, loaded⟩, two⟩⟩
        · cases failed
    obtain ⟨items, second | first⟩ := versions
    · exact ⟨items, .inl ⟨second, (uncaught_v2 second).mp raised⟩⟩
    · exact ⟨items, .inr ⟨first, (uncaught_v1 first).mp raised⟩⟩
  · rintro ⟨items, ⟨second, raises⟩ | ⟨first, raises⟩⟩
    · exact (uncaught_v2 second).mpr raises
    · exact (uncaught_v1 first).mpr raises

/-! Diagnostics. -/

/-- The codes that the verifier documents. -/
def packCodes : List String :=
  ["pack.shape", "pack.digest", "pack.bundle_mismatch", "pack.unknown_version",
   "pack.pin_mismatch", "pack.unknown_contract", "pack.missing_required", "pack.path",
   "pack.completeness", "pack.integrity", "pack.schema", "pack.unknown_semantic_feature",
   "pack.io"]

theorem code_mem (finding : Finding) : finding.code ∈ packCodes := by
  cases finding with
  | bundled code => cases code <;> simp [Finding.code, packCodes]
  | _ => simp [Finding.code, packCodes]

theorem rejected_findings {review : Review Fault Finding} {findings : List Finding}
    (rejected : verdict review = .rejected findings) : findings ≠ [] := by
  unfold verdict at rejected
  split at rejected
  · cases rejected
  · cases rejected
    assumption
  · cases rejected
    simp
  · cases rejected

/-! A whole verification. -/

/-- An accepted pack of the second version carries its inventory and nothing else, byte by byte,
and its payloads are valid under their contracts exactly when none holds a null that its schema
turns away. A pack that is not accepted is turned away under a code, unless its manifest raises.
Neither the order of a listing nor another accepted pack of the same digest makes a difference. -/
theorem verify_exact (runtime : Runtime) (bundle : Bundle runtime) (root : PackRoot) :
    (∀ items, IsV2 runtime root items → verify runtime bundle root = .ok [] →
      ∃ manifest, readManifest items = some manifest ∧ Inventoried runtime root manifest ∧
        (Valid bundle root manifest ↔ NullsAdmitted bundle root manifest) ∧
        ((∀ place, ¬Holds root.entries place .link) ↔
          ∀ place, root.manifest = some place → ¬Holds root.entries place .link)) ∧
    ((∃ fault, verdict (verify runtime bundle root) = .uncaught fault) ↔
      ∃ items, (IsV2 runtime root items ∧ Raises bundle items) ∨
        (IsV1 runtime root items ∧ LegacyRaises bundle root items)) ∧
    (∀ findings, verdict (verify runtime bundle root) = .rejected findings →
      findings ≠ [] ∧ ∀ finding ∈ findings, finding.code ∈ packCodes) ∧
    (∀ other, Relisted root other →
      verify runtime bundle other = verify runtime bundle root) ∧
    (Function.Injective runtime.sha256Hex → FloatTexts runtime.floatText →
      ∀ (published : Bundle runtime) (other : PackRoot) (items others : Dict),
        IsV2 runtime root items → IsV2 runtime other others →
        verify runtime bundle root = .ok [] → verify runtime published other = .ok [] →
        items.lookup (text "packDigest") = others.lookup (text "packDigest") →
        ∀ path bytes, Carries root path bytes ↔ Carries other path bytes) := by
  refine ⟨?_, uncaught_iff, ?_, fun other relisted => relisted.verify, ?_⟩
  · intro items version accepted
    obtain ⟨manifest, read, _, stages⟩ := accepted_v2 version accepted
    refine ⟨manifest, read, stages.inventoried, stages.valid_iff, ?_⟩
    exact ⟨fun free place _ => free place,
      fun free place holds => free place (stages.inventoried.unlinked place holds) holds⟩
  · exact fun findings rejected => ⟨rejected_findings rejected, fun finding _ => code_mem finding⟩
  · intro injective floats published other items others version version' accepted accepted' same
    obtain ⟨manifest, read, sealed, stages⟩ := accepted_v2 version accepted
    obtain ⟨manifest', read', sealed', stages'⟩ := accepted_v2 version' accepted'
    rw [readManifest_congr floats injective sealed sealed' same, read'] at read
    cases read
    exact fun path bytes => ⟨stages.carries injective stages', stages'.carries injective stages⟩

end Pack

/-! A pack whose payload holds a null. -/

namespace NullPayload

/-- Texts for floats: so many zeros before a point. -/
def floatText (value : Rat) : Text :=
  List.replicate (Encodable.encode value) (ofChar '0') ++ [ofChar '.']

theorem floats : FloatTexts floatText := by
  refine ⟨fun first second same => ?_, fun value c listed => ?_, fun value => .inl ?_⟩
  · have lengths := congrArg List.length same
    simp only [floatText, List.length_append, List.length_replicate, List.length_singleton,
      Nat.add_right_cancel_iff] at lengths
    exact Encodable.encode_injective lengths
  · rcases List.mem_append.mp listed with zeros | point
    · rw [List.eq_of_mem_replicate zeros, mem_text]
      simp
    · rw [List.mem_singleton.mp point, mem_text]
      simp
  · simp [floatText]

def bytesOf (value : Value) : List UInt8 := utf8Bytes (dumps floatText value)

def digestOf (bytes : List UInt8) : Text := text ("sha256:" ++ ClaimOfBytes.latin1 bytes)

/-- The schema of the payload's contract. -/
def schema : Value := .dict [(text "type", .str (text "object"))]

/-- The schema of the manifest, by its name. -/
def manifestSchema : Value :=
  .dict [(text "$id", .str (text "https://neutrino/contracts/domain-pack/v2"))]

def null : Value := .scalar .null

def body : Dict :=
  [(text "kind", .str (text "neutrino.domain-pack")),
   (text "packId", .str (text "sample")),
   (text "payloads", .list [.dict
    [(text "contract", .str (text "binding-manifest")),
     (text "mediaType", .str (text "application/json")),
     (text "path", .str (text "binding.json")),
     (text "role", .str (text "binding")),
     (text "sha256", .str (digestOf (bytesOf null)))]]),
   (text "schemaVersion", .scalar (.int 2)),
   (text "targetsBundle", .dict
    [(text "bundleDigest", .str (digestOf [])),
     (text "bundleId", .str (text "neutrino.core-contract-bundle")),
     (text "bundleVersion", .str (text "1.11.0"))])]

def items : Dict := (text "packDigest", .str (digestOf (bytesOf (.dict body)))) :: body

/-- The documents of the sample. -/
def documents : List Value := [null, .dict items, schema, manifestSchema]

def runtime : Runtime where
  floatText := floatText
  sha256Hex := ClaimOfBytes.latin1
  loads bytes := documents.find? fun value => bytesOf value = bytes
  maxDigits := 4300
  violations value under :=
    match under, value with
    | .dict [(key, _)], .dict items =>
        if key = text "$id" ∧ ¬((readManifest items).isSome ∧
          ((items.lookup (text "packDigest")).bind Value.str?).isSome) then [text "pack is malformed"]
        else []
    | .dict [(key, _)], _ => if key = text "type" then [text "value must be of type object"] else []
    | _, _ => []

theorem documents_plain : ∀ value ∈ documents, ∀ chars ∈ strings value, Encodable chars := by
  simp [documents, null, items, body, schema, manifestSchema, strings, elementStrings,
    itemStrings, digestOf, encodable_text]

theorem bytesOf_injective {value other : Value} (listed : value ∈ documents)
    (listed' : other ∈ documents) (same : bytesOf value = bytesOf other) : value = other :=
  dumps_injective floats (utf8Bytes_injective
    (dumps_encodable floats value (documents_plain value listed))
    (dumps_encodable floats other (documents_plain other listed')) same)

theorem loads_bytesOf {value : Value} (listed : value ∈ documents) :
    runtime.loads (bytesOf value) = some value := by
  cases found : runtime.loads (bytesOf value) with
  | none =>
      have missed := List.find?_eq_none.mp found value listed
      simp at missed
  | some other =>
      have same := List.find?_some found
      have member := List.mem_of_find?_eq_some found
      rw [bytesOf_injective member listed (by simpa using same)]

def manifestPath : Text := text "docs/schemas/domain-pack-v2.schema.json"

def schemaPath : Text := text "docs/schemas/binding-manifest.schema.json"

def contracts (name : Text) : Option Contract :=
  if name = text "domain-pack-v2" then some ⟨manifestPath, digestOf (bytesOf manifestSchema)⟩
  else if name = text "binding-manifest" then some ⟨schemaPath, digestOf (bytesOf schema)⟩
  else none

def files (path : Text) : Option (List UInt8) :=
  if path = manifestPath then some (bytesOf manifestSchema)
  else if path = schemaPath then some (bytesOf schema)
  else none

theorem apart : schemaPath ≠ manifestPath := text_injective.ne (by simp)

theorem files_loads {path : Text} {bytes : List UInt8} (held : files path = some bytes) :
    runtime.loads bytes = some manifestSchema ∨ runtime.loads bytes = some schema := by
  unfold files at held
  split_ifs at held <;> cases held
  · exact .inl (loads_bytesOf (by simp [documents]))
  · exact .inr (loads_bytesOf (by simp [documents]))

def bundle : Bundle runtime where
  bundleId := text "neutrino.core-contract-bundle"
  bundleVersion := text "1.11.0"
  bundleDigest := digestOf []
  versions := []
  contracts := contracts
  escapes _ := false
  files := files
  vocabulary := .absent
  findings := []
  schemas := by
    intro name contract bytes _ held null
    rcases files_loads held with loaded | loaded <;> cases loaded.symm.trans null
  manifests := by
    intro contract bytes schema items known held loaded valid
    rw [contracts, if_pos rfl, Option.some.injEq] at known
    subst known
    rw [files, if_pos rfl, Option.some.injEq] at held
    subst held
    cases (loads_bytesOf (show manifestSchema ∈ documents by simp [documents])).symm.trans loaded
    simp only [runtime, manifestSchema, true_and, ite_eq_right_iff, List.cons_ne_self, imp_false,
      not_not] at valid
    refine ⟨valid.1, ?_⟩
    cases stated : items.lookup (text "packDigest") with
    | none => simp [stated] at valid
    | some pinned =>
        cases pinned with
        | str pinned => exact ⟨pinned, rfl⟩
        | _ => simp [stated, Value.str?] at valid
  legacyManifests := by
    intro contract bytes schema items known
    simp [contracts, text_injective.eq_iff] at known

def payloadName : Name where
  chars := text "binding.json"
  sound := by simp [text, ofChar_injective.eq_iff]

def manifestName : Name where
  chars := text "pack.json"
  sound := by simp [text, ofChar_injective.eq_iff]

theorem names_apart : payloadName ≠ manifestName := by
  simp [payloadName, manifestName, text_injective.eq_iff]

def entries : List (Name × Entry) :=
  [(payloadName, .file (bytesOf null)), (manifestName, .file (bytesOf (.dict items)))]

theorem holds_entries {place : Place} {entry : Entry} (holds : Holds entries place entry) :
    (place = [payloadName] ∧ entry = .file (bytesOf null)) ∨
      (place = [manifestName] ∧ entry = .file (bytesOf (.dict items))) := by
  cases holds with
  | direct listed => simpa [entries] using listed
  | inside listed => simp [entries] at listed

def root : PackRoot where
  entries := entries
  manifest := some [manifestName]
  manifestBytes := some (bytesOf (.dict items))
  linked := false
  escapes _ := false
  isLink _ := false
  read parts := if parts = partsOf [payloadName] then some (bytesOf null) else none
  unresolvable _ := false
  leaves _ := false
  readArtifact _ := none
  isLink_iff := by
    intro place entry holds
    rcases holds_entries holds with ⟨rfl, rfl⟩ | ⟨rfl, rfl⟩ <;> simp
  read_eq := by
    intro place bytes content holds read
    rcases holds_entries holds with ⟨rfl, same⟩ | ⟨rfl, _⟩
    · cases same
      simpa using read.symm
    · simp [partsOf, payloadName, manifestName, text_injective.eq_iff] at read

/-- The manifest as it is read. -/
def manifest : Manifest where
  bundleId := text "neutrino.core-contract-bundle"
  bundleVersion := text "1.11.0"
  bundleDigest := digestOf []
  translatorPins := []
  requiredContracts := []
  optionalContracts := []
  payloads := [⟨text "binding.json", digestOf (bytesOf null), some (text "binding-manifest")⟩]

theorem text_beq (first second : String) : (text first == text second) = (first == second) := by
  rw [Bool.eq_iff_iff, beq_iff_eq, beq_iff_eq, text_injective.eq_iff]

theorem text_filled {literal : String} (filled : literal ≠ "") : text literal ≠ [] := by
  simpa [text] using filled

theorem read_items : readManifest items = some manifest := by
  simp [readManifest, readNegotiation, readNames, readRow, items, body, manifest, List.lookup,
    text_beq, Value.dict?, Value.list?, Value.str?, text_filled]

theorem version : IsV2 runtime root items := by
  refine ⟨⟨bytesOf (.dict items), rfl, loads_bytesOf (by simp [documents])⟩, ?_⟩
  simp [manifestVersion, items, body, List.lookup, text_beq, Value.eqInt, Scalar.number]

theorem contractSchema_sample {path : Text} {value : Value} (listed : value ∈ documents)
    (other : value ≠ null) (held : files path = some (bytesOf value)) :
    contractSchema runtime bundle ⟨path, digestOf (bytesOf value)⟩ = .ok value := by
  have loaded := loads_bytesOf listed
  have digest : runtime.sha256 (bytesOf value) = digestOf (bytesOf value) := rfl
  simp only [contractSchema, bundle, Bool.false_eq_true, if_false, held, digest, ne_eq,
    not_true_eq_false, loaded]
  split
  · simp_all
  · exact absurd (by simp_all [null]) other
  · simp_all

theorem stated : items.lookup (text "packDigest") =
    some (.str (digestOf (bytesOf (.dict body)))) := by
  simp [items]

theorem admitted_items : admitted runtime bundle (text "domain-pack-v2") items = .ok () := by
  have loaded : contractSchema runtime bundle
      ⟨manifestPath, digestOf (bytesOf manifestSchema)⟩ = .ok manifestSchema :=
    contractSchema_sample (by simp [documents]) (by simp [manifestSchema, null])
      (by rw [files, if_pos rfl])
  have known : bundle.contracts (text "domain-pack-v2") =
      some ⟨manifestPath, digestOf (bytesOf manifestSchema)⟩ := by
    simp [bundle, contracts]
  have valid : runtime.violations (.dict items) manifestSchema = [] := by
    simp [runtime, manifestSchema, read_items, stated, Value.str?]
  simp [admitted, known, loaded, valid, bind, Except.bind]

theorem digest_items :
    canonicalPackDigest runtime items = .ok (digestOf (bytesOf (.dict body))) := by
  have kept : manifestBody items = .dict body := by
    simp [manifestBody, items, body, text_injective.eq_iff]
  refine canonicalPackDigest_ok.mpr ⟨?_, ?_⟩
  · rw [canonicalText, kept]
    refine dumps_encodable floats _ fun chars listed => ?_
    exact documents_plain (.dict items) (by simp [documents]) chars
      (by simp [strings, items, itemStrings] at listed ⊢; tauto)
  · rw [canonicalText, kept]
    rfl

theorem negotiated : negotiate runtime bundle manifest.toNegotiation = .ok [] := by
  simp [negotiate, manifest, targetFindings, contractFindings, bundle, Review.overAll, Review.all,
    bind, Except.bind, pure, Except.pure]

def row : Row := ⟨text "binding.json", digestOf (bytesOf null), some (text "binding-manifest")⟩

theorem path_joined : joined (partsOf [payloadName]) = row.path := by
  simp [joined, partsOf, payloadName, row, List.intercalate]

theorem path_split : splitPath row.path = partsOf [payloadName] := by
  rw [← path_joined, splitPath_joined (by simp)]

theorem path_normal : normalizedPayloadPath row.path = some row.path := by
  decide +kernel

theorem discovered : discoverPayloadPaths root = [row.path] := by
  have listed : placesBelow root.entries = [[payloadName], [manifestName]] := by
    simp [root, entries, placesBelow, places]
  have kept : [[payloadName], [manifestName]].filter (fun place => root.manifest ≠ some place) =
      [[payloadName]] := by
    simp [root, names_apart.symm]
  rw [discoverPayloadPaths, listed, kept]
  simp [path_joined, sorted]

theorem read_row : root.read (splitPath row.path) = some (bytesOf null) := by
  rw [path_split]
  simp [root]

theorem semantic : semanticFindings runtime bundle root (row, 0) = .ok [] := by
  have known : bundle.contracts (text "binding-manifest") =
      some ⟨schemaPath, digestOf (bytesOf schema)⟩ := by
    simp [bundle, contracts, text_injective.eq_iff]
  have loaded : contractSchema runtime bundle ⟨schemaPath, digestOf (bytesOf schema)⟩ = .ok schema :=
    contractSchema_sample (by simp [documents]) (by simp [schema, null])
      (by rw [files, if_neg apart, if_pos rfl])
  have parsed := loads_bytesOf (show null ∈ documents by simp [documents])
  have named : row.contract = some (text "binding-manifest") := rfl
  simp only [semanticFindings, named, known, instanceFindings, loaded, read_row, parsed]
  rfl

theorem payloads_accepted : verifyPayloads runtime bundle root manifest [] = .ok [] := by
  have rows : manifest.payloads = [row] := rfl
  have sort : sorted [row.path] = [row.path] := rfl
  have sort_nil : sorted [] = [] := rfl
  have single : duplicatePaths [row.path] = [] := by
    simp [duplicatePaths, sort_nil]
  have unlinked : root.linked = false := rfl
  have links : linkFindings root row.path = [] := rfl
  have digests : digestFindings runtime root row = [] := by
    rw [digestFindings, read_row]
    exact if_pos rfl
  have uncovered : uncoveredFindings runtime bundle manifest = [] := rfl
  simp [verifyPayloads, rows, path_normal, sort, sort_nil, single, unlinked, links, digests,
    discovered, hasCode_nil, semantic, uncovered, Review.overAll, Review.all,
    bind, Except.bind, pure, Except.pure]

theorem accepted : verify runtime bundle root = .ok [] := by
  rw [verify_v2 version, verifyV2_admitted admitted_items read_items stated, digest_items,
    ok_bind, if_pos rfl, negotiated, ok_bind, payloads_accepted]

theorem invalid : ¬Valid bundle root manifest := by
  intro valid
  obtain ⟨schema', pinned, held⟩ := valid row (List.mem_singleton.mpr rfl) _ rfl
  have carried : Carries root row.path (bytesOf null) :=
    ⟨[payloadName], .direct (by simp [root, entries]), by simp [root, names_apart.symm],
      path_joined.symm⟩
  obtain ⟨value, loaded, passes⟩ := held _ carried
  cases (loads_bytesOf (show null ∈ documents by simp [documents])).symm.trans loaded
  have known : PinnedSchema bundle (text "binding-manifest") schema := by
    refine ⟨⟨schemaPath, digestOf (bytesOf schema)⟩, bytesOf schema, ?_, ?_, rfl,
      loads_bytesOf (by simp [documents])⟩
    · simp [bundle, contracts, text_injective.eq_iff]
    · change files schemaPath = _
      rw [files, if_neg apart, if_pos rfl]
  cases pinned.unique known
  simp [runtime, schema, null] at passes

end NullPayload

/-- An accepted pack with a payload that its contract's schema turns away: it holds a null. -/
theorem null_payload_accepted : IsV2 NullPayload.runtime NullPayload.root NullPayload.items ∧
    verify NullPayload.runtime NullPayload.bundle NullPayload.root = .ok [] ∧
    readManifest NullPayload.items = some NullPayload.manifest ∧
    ¬Valid NullPayload.bundle NullPayload.root NullPayload.manifest :=
  ⟨NullPayload.version, NullPayload.accepted, NullPayload.read_items, NullPayload.invalid⟩

end DomainPack

end Neutrino
