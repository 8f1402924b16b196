import Neutrino.Library.Review
import Neutrino.PackText

/-! The verification of a domain pack against a bundle of schemas: the manifest, its identity and
its pins, then the complete inventory of the pack's files. -/

namespace Neutrino

namespace DomainPack

open Checked

/-! The tree below a pack root. -/

structure Name where
  chars : Text
  sound : chars ≠ [] ∧ ofChar '/' ∉ chars
  deriving DecidableEq

inductive Entry
  | file (bytes : List UInt8)
  | link
  | dir (entries : List (Name × Entry))

abbrev Place := List Name

/-- The entry stands at the place, reached through directories alone. -/
inductive Holds : List (Name × Entry) → Place → Entry → Prop
  | direct {entries : List (Name × Entry)} {name : Name} {entry : Entry}
      (listed : (name, entry) ∈ entries) : Holds entries [name] entry
  | inside {entries inner : List (Name × Entry)} {name : Name} {place : Place} {entry : Entry}
      (listed : (name, .dir inner) ∈ entries) (holds : Holds inner place entry) :
      Holds entries (name :: place) entry

mutual

/-- The places of the files and links at or below an entry; a link is not followed. -/
def places : Entry → List Place
  | .file _ => [[]]
  | .link => [[]]
  | .dir entries => placesBelow entries

def placesBelow : List (Name × Entry) → List Place
  | [] => []
  | (name, entry) :: rest => (places entry).map (name :: ·) ++ placesBelow rest

end

/-- The parts of a path, each a name that the file system resolves. -/
abbrev Parts := List Text

def partsOf (place : Place) : Parts := place.map Name.chars

def joined (parts : Parts) : Text := [ofChar '/'].intercalate parts

def splitPath (path : Text) : Parts := path.splitOn (ofChar '/')

/-- A pack root as the verifier finds it: its tree, the manifest's place when that lies below the
root, and what the operating system answers of the paths below it. Looking up a path with a null
or a surrogate that stands for no byte raises. -/
structure PackRoot where
  entries : List (Name × Entry)
  manifest : Option Place
  manifestBytes : Option (List UInt8)
  linked : Bool
  escapes : Parts → Bool
  isLink : Parts → Bool
  read : Parts → Option (List UInt8)
  unresolvable : Text → Bool
  leaves : Text → Bool
  readArtifact : Text → Option (List UInt8)
  isLink_iff : ∀ place entry, Holds entries place entry →
    (isLink (partsOf place) = true ↔ entry = .link)
  read_eq : ∀ place bytes content, Holds entries place (.file bytes) →
    read (partsOf place) = some content → content = bytes

/-! Findings, each under its stable code. -/

/-- The codes of what is found of a bundle's vocabulary and capability registry. -/
inductive BundleCode
  | path
  | io
  | digest
  | shape
  | schema
  | pin
  deriving DecidableEq

inductive Finding
  | bundled (code : BundleCode)
  | unreadableManifest
  | invalidManifest
  | notObject
  | unsupportedVersion
  | noManifestContract
  | schemaPath (path : Text)
  | schemaMissing (path : Text)
  | schemaDigest (path : Text)
  | schemaInvalid (path : Text)
  | violation (message : Text)
  | packDigest (actual : Text)
  | bundleId (targeted : Text)
  | bundleVersion (targeted : Text)
  | bundleDigest (targeted : Text)
  | unknownAxis (axis : Text)
  | pin (axis : Text)
  | requiredAbsent (name : Text)
  | optionalUnknown (name : Text)
  | unnormalized (path : Text)
  | unordered
  | duplicates (paths : List Text)
  | rootLinked
  | escaping (path : Text)
  | payloadLinked (path : Text)
  | artifactPath (path : Text)
  | missing (paths : List Text)
  | extra (paths : List Text)
  | unreadable (path : Text)
  | digest (path actual : Text)
  | requiredUncovered (name : Text)
  | unknownContract (index : Nat) (name : Text)
  | unreadableInstance (index : Nat)
  | invalidInstance (index : Nat)
  | noVocabulary (index : Nat)
  | unknownFeature (index : Nat)
  | profileVersion (index : Nat)
  | malformed

def Finding.code : Finding → String
  | .bundled .path => "pack.path"
  | .bundled .io => "pack.io"
  | .bundled .digest => "pack.digest"
  | .bundled .shape => "pack.shape"
  | .bundled .schema => "pack.schema"
  | .bundled .pin => "pack.pin_mismatch"
  | .unreadableManifest | .unreadable _ | .unreadableInstance _ => "pack.io"
  | .invalidManifest | .notObject | .unsupportedVersion | .schemaInvalid _ | .malformed =>
      "pack.shape"
  | .noManifestContract | .optionalUnknown _ | .unknownContract _ _ => "pack.unknown_contract"
  | .schemaPath _ | .unnormalized _ | .rootLinked | .escaping _ | .payloadLinked _
  | .artifactPath _ => "pack.path"
  | .schemaMissing _ | .schemaDigest _ | .bundleDigest _ => "pack.digest"
  | .violation _ | .invalidInstance _ => "pack.schema"
  | .packDigest _ | .digest _ _ => "pack.integrity"
  | .bundleId _ | .bundleVersion _ => "pack.bundle_mismatch"
  | .unknownAxis _ => "pack.unknown_version"
  | .pin _ | .profileVersion _ => "pack.pin_mismatch"
  | .requiredAbsent _ | .requiredUncovered _ => "pack.missing_required"
  | .unordered | .duplicates _ | .missing _ | .extra _ => "pack.completeness"
  | .noVocabulary _ | .unknownFeature _ => "pack.unknown_semantic_feature"

def hasCode (codes : List String) (findings : List Finding) : Bool :=
  findings.any fun finding => finding.code ∈ codes

/-- The exceptions of a verification. The command reports a malformed structure as a finding, and
lets the other two through. -/
inductive Fault
  | malformed
  | encoding
  | digits
  deriving DecidableEq

/-! What the verifier runs on. -/

/-- Python's standard library and the validator of JSON schemas: the violations of an instance
under a schema. -/
structure Runtime where
  floatText : Rat → Text
  sha256Hex : List UInt8 → String
  loads : List UInt8 → Option Value
  maxDigits : Nat
  violations : Value → Value → List Text

def Runtime.sha256 (runtime : Runtime) (bytes : List UInt8) : Text :=
  text ("sha256:" ++ runtime.sha256Hex bytes)

/-! The manifest. -/

/-- What a manifest asks of the bundle. -/
structure Negotiation where
  bundleId : Text
  bundleVersion : Text
  bundleDigest : Text
  translatorPins : Dict
  requiredContracts : List Text
  optionalContracts : List Text

structure Row where
  path : Text
  sha256 : Text
  contract : Option Text
  deriving DecidableEq

structure Manifest extends Negotiation where
  payloads : List Row

structure Artifact where
  contract : Text
  path : Text

structure LegacyManifest extends Negotiation where
  artifacts : List Artifact

def Value.str? : Value → Option Text
  | .str chars => some chars
  | _ => none

def Value.dict? : Value → Option Dict
  | .dict items => some items
  | _ => none

def Value.list? : Value → Option (List Value)
  | .list elements => some elements
  | _ => none

/-- A row of the inventory. An empty contract names none. -/
def readRow (row : Value) : Option Row := do
  let items ← row.dict?
  let path ← (← items.lookup (text "path")).str?
  let sha256 ← (← items.lookup (text "sha256")).str?
  match items.lookup (text "contract") with
  | none => return { path, sha256, contract := none }
  | some contract =>
      let name ← contract.str?
      return { path, sha256, contract := if name = [] then none else some name }

/-- `manifest.get(key) or []`, a list of names. -/
def readNames (items : Dict) (key : String) : Option (List Text) :=
  match items.lookup (text key) with
  | none => some []
  | some names => do (← names.list?).mapM Value.str?

def readNegotiation (items : Dict) : Option Negotiation := do
  let targets ← (← items.lookup (text "targetsBundle")).dict?
  let bundleId ← (← targets.lookup (text "bundleId")).str?
  let bundleVersion ← (← targets.lookup (text "bundleVersion")).str?
  let bundleDigest ← (← targets.lookup (text "bundleDigest")).str?
  let translatorPins ← match items.lookup (text "translatorPins") with
    | none => some []
    | some pins => pins.dict?
  let requiredContracts ← readNames items "requiredContracts"
  let optionalContracts ← readNames items "optionalContracts"
  return { bundleId, bundleVersion, bundleDigest, translatorPins, requiredContracts,
           optionalContracts }

def readManifest (items : Dict) : Option Manifest := do
  let negotiation ← readNegotiation items
  let rows ← (← items.lookup (text "payloads")).list?
  return { negotiation with payloads := ← rows.mapM readRow }

def readArtifact (artifact : Value) : Option Artifact := do
  let items ← artifact.dict?
  let contract ← (← items.lookup (text "contract")).str?
  let path ← (← items.lookup (text "path")).str?
  return { contract, path }

def readLegacyManifest (items : Dict) : Option LegacyManifest := do
  let negotiation ← readNegotiation items
  let artifacts ← (← items.lookup (text "artifacts")).list?
  return { negotiation with artifacts := ← artifacts.mapM readArtifact }

/-! The bundle. -/

structure Contract where
  path : Text
  sha256 : Text

/-- The closed feature vocabulary that a bundle publishes, or that was rejected with findings. -/
inductive Vocabulary
  | absent
  | rejected
  | features (known : List Text) (version : Int)

/-- A bundle of schemas that passed its own digest check, with the findings on its vocabulary and
its capability registry. Its schemas are no nulls, and those of the two manifests ask for what is
read of a manifest. -/
structure Bundle (runtime : Runtime) where
  bundleId : Text
  bundleVersion : Text
  bundleDigest : Text
  versions : Dict
  contracts : Text → Option Contract
  escapes : Text → Bool
  files : Text → Option (List UInt8)
  vocabulary : Vocabulary
  findings : List Finding
  schemas : ∀ name contract bytes, contracts name = some contract →
    files contract.path = some bytes → runtime.loads bytes ≠ some (.scalar .null)
  manifests : ∀ contract bytes schema items, contracts (text "domain-pack-v2") = some contract →
    files contract.path = some bytes → runtime.loads bytes = some schema →
    runtime.violations (.dict items) schema = [] → (readManifest items).isSome ∧
      ∃ pinned, items.lookup (text "packDigest") = some (.str pinned)
  legacyManifests : ∀ contract bytes schema items, contracts (text "domain-pack") = some contract →
    files contract.path = some bytes → runtime.loads bytes = some schema →
    runtime.violations (.dict items) schema = [] → (readLegacyManifest items).isSome

/-! Comparisons. -/

/-- A scalar as a number: a bool counts one or zero. -/
def Scalar.number : Scalar → Option Rat
  | .bool value => some (if value then 1 else 0)
  | .int value => some value
  | .float value => some value
  | _ => none

/-- `value == number` -/
def Value.eqInt (value : Value) (number : Int) : Bool :=
  match value with
  | .scalar value => value.number = some (number : Rat)
  | _ => false

/-- JSON's equality of scalars: a bool is no number, and what is not a number equals nothing. -/
def scalarEqual : Scalar → Scalar → Bool
  | .null, .null => true
  | .bool a, .bool b => a = b
  | .bool _, _ => false
  | _, .bool _ => false
  | .infinity a, .infinity b => a = b
  | a, b => a.number.isSome && a.number = b.number

mutual

def jsonEqual : Value → Value → Bool
  | .scalar a, .scalar b => scalarEqual a b
  | .str a, .str b => a = b
  | .list a, .list b => elementsEqual a b
  | .dict a, .dict b => itemsEqual a b
  | _, _ => false

def elementsEqual : List Value → List Value → Bool
  | [], [] => true
  | a :: rest, b :: others => jsonEqual a b && elementsEqual rest others
  | _, _ => false

def itemsEqual : List (Text × Value) → List (Text × Value) → Bool
  | [], [] => true
  | (key, a) :: rest, (key', b) :: others =>
      key = key' && jsonEqual a b && itemsEqual rest others
  | _, _ => false

end

/-! Paths. -/

/-- The parts `os.path.normpath` keeps of a relative path. -/
def normalParts (parts : Parts) : Parts :=
  parts.foldl (fun kept part =>
    if part = [] ∨ part = text "." then kept
    else if part ≠ text ".." ∨ kept = [] ∨ kept.getLast? = some (text "..") then kept ++ [part]
    else kept.dropLast) []

def normpath (path : Text) : Text :=
  let parts := normalParts (splitPath path)
  if parts = [] then text "." else joined parts

/-- The canonical relative spelling of a payload's path, if it has one. -/
def normalizedPayloadPath (path : Text) : Option Text :=
  if path = [] ∨ ofChar '\x00' ∈ path ∨ ofChar '\\' ∈ path then none
  else if path.head? = some (ofChar '/') ∨ path.getLast? = some (ofChar '/') then none
  else if (splitPath path).any fun part => part = [] ∨ part = text "." ∨ part = text ".." then none
  else if normpath path = path then some path else none

/-! The identity. -/

/-- What the pack's identity covers. -/
def manifestBody (items : Dict) : Value :=
  .dict (items.filter fun item => item.1 ≠ text "packDigest")

section Verify

variable (runtime : Runtime) (bundle : Bundle runtime) (root : PackRoot)

/-- The identity of a manifest. The UTF-8 of its canonical text fails on a lone surrogate. -/
def canonicalPackDigest (items : Dict) : Except Fault Text :=
  let canonical := dumps runtime.floatText (manifestBody items)
  if Encodable canonical then .ok (runtime.sha256 (utf8Bytes canonical)) else .error .encoding

/-- A bundled schema under its digest pin, or what was found of it: nothing, where the file holds
a null. -/
def contractSchema (contract : Contract) : Except (List Finding) Value :=
  if bundle.escapes contract.path then .error [.schemaPath contract.path]
  else
    match bundle.files contract.path with
    | none => .error [.schemaMissing contract.path]
    | some bytes =>
        if runtime.sha256 bytes ≠ contract.sha256 then .error [.schemaDigest contract.path]
        else
          match runtime.loads bytes with
          | none => .error [.schemaInvalid contract.path]
          | some (.scalar .null) => .error []
          | some schema => .ok schema

/-! Pins. -/

def isDigit (c : CodePoint) : Bool := 48 ≤ c.val && c.val ≤ 57

/-- The three parts of a version. A line end may follow them. -/
def semverParts : Value → Option Parts
  | .str chars =>
      let version := if chars.getLast? = some (ofChar '\n') then chars.dropLast else chars
      let parts := version.splitOn (ofChar '.')
      if parts.length = 3 ∧ parts.all fun part => part ≠ [] && part.all isDigit then some parts
      else none
  | _ => none

/-- `int(part)`, which raises on too many digits. -/
def component (part : Text) : Except Fault Nat :=
  if part.length ≤ runtime.maxDigits then
    .ok (part.foldl (fun value c => value * 10 + (c.val - 48)) 0)
  else .error .digits

/-- A pin against the bundle's value: the tool's version by its major number and order, every
other axis exactly. -/
def compatiblePin (axis : Text) (want offered : Value) : Except Fault (List Finding) :=
  if axis = text "toolVersion" then
    match semverParts want, semverParts offered with
    | some wanted, some present => do
        let wanted ← collect (component runtime) wanted
        let present ← collect (component runtime) present
        Review.note (wanted.head? ≠ present.head? || present < wanted) (.pin axis)
    | _, _ => .ok [.pin axis]
  else Review.note (!jsonEqual want offered) (.pin axis)

def pinFindings (pin : Text × Value) : Review Fault Finding :=
  match bundle.versions.lookup pin.1 with
  | none => .ok [.unknownAxis pin.1]
  | some offered => compatiblePin runtime pin.1 pin.2 offered

/-! Target profiles. -/

/-- A feature outside the vocabulary; a list or a dict is in no set. -/
def featureFindings (known : List Text) (index : Nat) (feature : Value) : Review Fault Finding :=
  match feature with
  | .str name => Review.note (name ∉ known) (.unknownFeature index)
  | .scalar _ => .ok [.unknownFeature index]
  | _ => .error .malformed

def profileVocabulary (index : Nat) (profile : Dict) : Except Fault (List Finding) :=
  match profile.lookup (text "semanticProfile") with
  | some (.dict declared) =>
      match declared.lookup (text "features") with
      | some (.list features) =>
          match bundle.vocabulary with
          | .rejected => .ok []
          | .absent => .ok [.noVocabulary index]
          | .features known version => do
              let unknown ← Review.overAll (featureFindings known index) features
              let stated := (declared.lookup (text "version")).getD (.scalar .null)
              return unknown ++ if stated.eqInt version then [] else [.profileVersion index]
      | _ => .ok []
  | _ => .ok []

/-! The inventory. -/

def sorted (paths : List Text) : List Text := paths.insertionSort (· ≤ ·)

def duplicatePaths (paths : List Text) : List Text :=
  sorted (paths.dedup.filter fun path => 1 < paths.count path)

/-- Every file and link below the root but the manifest, by its path. -/
def discoverPayloadPaths : List Text :=
  sorted (((placesBelow root.entries).filter fun place => root.manifest ≠ some place).map
    fun place => joined (partsOf place))

def linkFindings (path : Text) : List Finding :=
  if root.escapes (splitPath path) then [.escaping path]
  else if root.isLink (splitPath path) then [.payloadLinked path]
  else []

def digestFindings (row : Row) : List Finding :=
  match root.read (splitPath row.path) with
  | none => [.unreadable row.path]
  | some bytes =>
      if runtime.sha256 bytes = row.sha256 then [] else [.digest row.path (runtime.sha256 bytes)]

def vocabularyFindings (index : Nat) (name : Text) (value : Value) :
    Except Fault (List Finding) :=
  if name = text "target-profile" then
    match value with
    | .dict profile => profileVocabulary runtime bundle index profile
    | _ => .ok []
  else .ok []

/-- The schema check of a file under a contract. A file that holds a null counts as unreadable,
and what is unreadable has its finding already. -/
def instanceFindings (content : Option (List UInt8)) (index : Nat) (name : Text)
    (contract : Contract) : Except Fault (List Finding) :=
  match contractSchema runtime bundle contract with
  | .error found => .ok found
  | .ok schema =>
      match content with
      | none => .ok [.unreadableInstance index]
      | some bytes =>
          match runtime.loads bytes with
          | none => .ok [.invalidInstance index]
          | some (.scalar .null) => .ok []
          | some value => do
              let vocabulary ← vocabularyFindings runtime bundle index name value
              return (runtime.violations value schema).map .violation ++ vocabulary

/-- The schema check of a payload that names a contract. -/
def semanticFindings (row : Row × Nat) : Review Fault Finding :=
  match row.1.contract with
  | none => .ok []
  | some name =>
      match bundle.contracts name with
      | none => .ok [.unknownContract row.2 name]
      | some contract =>
          instanceFindings runtime bundle (root.read (splitPath row.1.path)) row.2 name contract

def uncoveredFindings (manifest : Manifest) : List Finding :=
  (manifest.requiredContracts.filter fun name => (bundle.contracts name).isSome &&
    manifest.payloads.all fun row => row.contract ≠ some name).map .requiredUncovered

/-- The inventory against the tree, the bytes against their pins, then the schemas. Each stage
ends the verification when something it depends on was found wrong. -/
def verifyPayloads (manifest : Manifest) (diags : List Finding) : Except Fault (List Finding) :=
  let paths := manifest.payloads.map Row.path
  let diags := diags ++
    (paths.filter fun path => normalizedPayloadPath path ≠ some path).map .unnormalized
  if hasCode ["pack.path"] diags then .ok diags
  else
    let duplicated := duplicatePaths paths
    let diags := diags ++ (if paths ≠ sorted paths then [.unordered] else []) ++
      if duplicated ≠ [] then [.duplicates duplicated] else []
    if root.linked then .ok (diags ++ [.rootLinked])
    else
      let diags := diags ++ (sorted paths.dedup).flatMap (linkFindings root)
      if hasCode ["pack.path"] diags then .ok diags
      else
        let discovered := discoverPayloadPaths root
        let missing := sorted (paths.dedup.filter (· ∉ discovered))
        let extra := sorted (discovered.dedup.filter (· ∉ paths))
        let diags := diags ++ (if missing ≠ [] then [.missing missing] else []) ++
          if extra ≠ [] then [.extra extra] else []
        if duplicated ≠ [] ∨ missing ≠ [] ∨ extra ≠ [] ∨ paths ≠ sorted paths then .ok diags
        else
          let diags := diags ++ manifest.payloads.flatMap (digestFindings runtime root)
          if hasCode ["pack.integrity", "pack.io"] diags then .ok diags
          else do
            let semantic ← Review.overAll (semanticFindings runtime bundle root)
              manifest.payloads.zipIdx
            return diags ++ uncoveredFindings runtime bundle manifest ++ semantic

/-! The manifest against the bundle. -/

def targetFindings (manifest : Negotiation) : List Finding :=
  (if manifest.bundleId ≠ bundle.bundleId then [.bundleId manifest.bundleId] else []) ++
  (if manifest.bundleVersion ≠ bundle.bundleVersion then [.bundleVersion manifest.bundleVersion]
    else []) ++
  if manifest.bundleDigest ≠ bundle.bundleDigest then [.bundleDigest manifest.bundleDigest] else []

def contractFindings (manifest : Negotiation) : List Finding :=
  (manifest.requiredContracts.filter fun name => (bundle.contracts name).isNone).map
    .requiredAbsent ++
  (manifest.optionalContracts.filter fun name => (bundle.contracts name).isNone).map
    .optionalUnknown

def negotiate (manifest : Negotiation) : Except Fault (List Finding) := do
  let pins ← Review.overAll (pinFindings runtime bundle) manifest.translatorPins
  return bundle.findings ++ targetFindings runtime bundle manifest ++ pins ++
    contractFindings runtime bundle manifest

/-- A manifest passes the schema of its own contract. -/
def admitted (name : Text) (items : Dict) : Except (List Finding) Unit :=
  match bundle.contracts name with
  | none => .error [.noManifestContract]
  | some contract => do
      let schema ← contractSchema runtime bundle contract
      let shape := runtime.violations (.dict items) schema
      if shape = [] then .ok () else .error (shape.map .violation)

/-- A manifest of the second version: its schema, its identity, its pins and its inventory. -/
def verifyV2 (items : Dict) : Except Fault (List Finding) :=
  match admitted runtime bundle (text "domain-pack-v2") items with
  | .error found => .ok (bundle.findings ++ found)
  | .ok () => do
      let digest ← canonicalPackDigest runtime items
      match items.lookup (text "packDigest"), readManifest items with
      | some pinned, some manifest =>
          if pinned.str? ≠ some digest then .ok (bundle.findings ++ [.packDigest digest])
          else do
            let diags ← negotiate runtime bundle manifest.toNegotiation
            verifyPayloads runtime bundle root manifest diags
      | _, _ => .error .malformed

/-! Manifests of the first version. -/

def relativePath (path : Text) : Bool :=
  path.head? ≠ some (ofChar '/') &&
    text ".." ∉ splitPath (path.map fun c => if c = ofChar '\\' then ofChar '/' else c)

def artifactFindings (artifact : Artifact × Nat) : Review Fault Finding :=
  match bundle.contracts artifact.1.contract with
  | none => .ok [.unknownContract artifact.2 artifact.1.contract]
  | some contract =>
      if !relativePath artifact.1.path then .ok [.artifactPath artifact.1.path]
      else if root.unresolvable artifact.1.path then .error .encoding
      else if root.leaves artifact.1.path then .ok [.escaping artifact.1.path]
      else
        instanceFindings runtime bundle (root.readArtifact artifact.1.path) artifact.2
          artifact.1.contract contract

def verifyV1 (items : Dict) : Except Fault (List Finding) :=
  match admitted runtime bundle (text "domain-pack") items with
  | .error found => .ok (bundle.findings ++ found)
  | .ok () =>
      match readLegacyManifest items with
      | none => .error .malformed
      | some manifest => do
          let diags ← negotiate runtime bundle manifest.toNegotiation
          let found ← Review.overAll (artifactFindings runtime bundle root)
            manifest.artifacts.zipIdx
          return diags ++ found

/-- The manifest's version: one where it states none. -/
def manifestVersion (items : Dict) : Value :=
  (items.lookup (text "schemaVersion")).getD (.scalar (.int 1))

/-- The verification of the pack at a root. -/
def verify : Review Fault Finding :=
  match root.manifestBytes with
  | none => .ok [.unreadableManifest]
  | some bytes =>
      match runtime.loads bytes with
      | none => .ok [.invalidManifest]
      | some (.scalar .null) => .ok []
      | some (.dict items) =>
          if (manifestVersion items).eqInt 1 then verifyV1 runtime bundle root items
          else if (manifestVersion items).eqInt 2 then verifyV2 runtime bundle root items
          else .ok (bundle.findings ++ [.unsupportedVersion])
      | some _ => .ok [.notObject]

/-- What the command comes to: no finding, some findings, or an exception it does not catch. -/
inductive Verdict
  | accepted
  | rejected (findings : List Finding)
  | uncaught (fault : Fault)

def verdict : Review Fault Finding → Verdict
  | .ok [] => .accepted
  | .ok findings => .rejected findings
  | .error .malformed => .rejected [.malformed]
  | .error fault => .uncaught fault

end Verify

end DomainPack

end Neutrino
