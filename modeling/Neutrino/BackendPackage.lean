import Neutrino.BackendProtocol
import Neutrino.DispatchReceipt
import Neutrino.PlanLegality

/-! Backend packages: the descriptor of a package, the check of its files against the descriptor,
and the discovery of the packages of a set of directories. -/

namespace Neutrino.BackendPackage

open Checked Projection BackendProtocol PlanLegality

structure Failure where
  code : String
  message : String
  deriving DecidableEq, Repr

def kInvalidDescriptor : String := "E_PACKAGE_DESCRIPTOR"
def kManifestMismatch : String := "E_PACKAGE_MANIFEST_DIGEST"
def kClosureMismatch : String := "E_PACKAGE_CLOSURE"
def kInvalidPath : String := "E_PACKAGE_PATH"
def kNonRegularFile : String := "E_PACKAGE_FILE_TYPE"
def kEntryUnbound : String := "E_PACKAGE_ENTRY"
def kIncompatibleVersion : String := "E_VERSION"
def kProjectionSchema : String := "E_PROJECTION_SCHEMA"
def kDuplicatePackage : String := "E_PACKAGE_DUPLICATE"
def kDuplicateTarget : String := "E_TARGET_DUPLICATE"
def kInvalidProfile : String := "E_PACKAGE_PROFILE"
def kDuplicateProfile : String := "E_PROFILE_DUPLICATE"

def kDescriptorKind : String := "neutrino.backend-package/1"

def kDescriptorFileName : String := "backend-package.json"

def kCapabilitySpecVersion : String := "v1"

def kSemanticProfileVersion : UInt32 := 3

def isLowerHexDigest : String → Bool := DispatchReceipt.validDigest

/-! Fields. -/

def requireExactFields (object : Json.Object) (fields : List String) (context code : String) :
    Except Failure Unit := do
  match object.find? fun member => !fields.contains member.1 with
  | some member => .error ⟨code, context ++ ": unknown field " ++ member.1⟩
  | none =>
      match (SortOn.sortOn id (fields.filter fun field => (object.get field).isNone)).head? with
      | some field => .error ⟨code, context ++ ": missing field " ++ field⟩
      | none => return ()

section Fields

variable (object : Json.Object) (field context : String)

def fieldOf {α : Type} (code : String) (read : Option α) : Except Failure α :=
  match read with
  | none => .error ⟨code, context ++ ": missing/invalid " ++ field⟩
  | some value => .ok value

/-- An integer of 32 bits that is not below a bound. -/
def u32Of (least : Int64) (read : Option Int64) : Option UInt32 :=
  (read.filter fun value => least ≤ value && value.toUInt64 ≤ 4294967295).map fun value =>
    value.toUInt64.toUInt32

def u64Of (read : Option Int64) : Option UInt64 :=
  (read.filter fun value => 0 ≤ value).map Int64.toUInt64

def profileU32 (positive : Bool) : Except Failure UInt32 :=
  fieldOf field context kInvalidProfile
    (u32Of (if positive then 1 else 0) (object.getInteger field))

def profileU64 : Except Failure UInt64 :=
  fieldOf field context kInvalidProfile (u64Of (object.getInteger field))

def profileString : Except Failure String :=
  fieldOf field context kInvalidProfile ((object.getString field).filter (· ≠ ""))

def requiredU32 : Except Failure UInt32 :=
  fieldOf field context kInvalidDescriptor (u32Of 0 (object.getInteger field))

def requiredU64 : Except Failure UInt64 :=
  fieldOf field context kInvalidDescriptor (u64Of (object.getInteger field))

def requiredNonemptyString : Except Failure String :=
  fieldOf field context kInvalidDescriptor ((object.getString field).filter (· ≠ ""))

end Fields

/-! Words of the profile's grammars. -/

def isLower (c : Char) : Bool := 'a' ≤ c && c ≤ 'z'

def isLowerWord (c : Char) : Bool := isLower c || c.isDigit || c = '_'

/-- `[a-z]` and then letters, digits and underscores. -/
def isName : List Char → Bool
  | [] => false
  | first :: rest => isLower first && rest.all isLowerWord

/-- `[a-z][a-z_]*:[a-z][a-z0-9_]*`. -/
def isFeature (feature : String) : Bool :=
  match feature.toList.splitOn ':' with
  | [first :: rest, name] =>
      isLower first && rest.all (fun c => isLower c || c = '_') && isName name
  | _ => false

/-- The number `n` of `name(.name)+.vn`. -/
def profileIdVersion (profileId : String) : Option Nat :=
  match (profileId.toList.splitOn '.').reverse with
  | ('v' :: digits) :: second :: rest =>
      if rest ≠ [] && (second :: rest).all isName && digits ≠ [] && digits.all Char.isDigit then
        some (digits.foldl (fun total digit => 10 * total + (digit.toNat - 48)) 0)
      else none
  | _ => none

def profileStrings (object : Json.Object) (field context : String)
    (closedSemanticVocabulary : Bool) : Except Failure (List String) := do
  let array ← fieldOf field context kInvalidProfile (object.getArray field)
  let result ← collect (fun entry : Json =>
    match entry.asString.filter isFeature with
    | none => .error ⟨kInvalidProfile, context ++ ": invalid " ++ field⟩
    | some value =>
        if closedSemanticVocabulary && !knownSemanticFeatures.contains value then
          .error ⟨kInvalidProfile, context ++ ": unknown semantic feature " ++ value⟩
        else .ok value) array
  require (result.Pairwise (· < ·))
    ⟨kInvalidProfile, context ++ ": " ++ field ++ " must be unique and lexicographically ordered"⟩
  return result

structure TargetProfileLimits where
  maxExpressionDepth : UInt64
  maxEffects : UInt64
  maxEffectGroups : UInt64
  maxAttestations : UInt64
  maxComputes : UInt64
  maxOperationSteps : UInt64
  deriving DecidableEq, Repr

structure TargetProfile where
  schemaVersion : UInt32
  kind : String
  profileId : String
  profileVersion : UInt32
  target : String
  runtimeFamily : String
  executionMode : String
  supportedFeatures : List String
  unsupportedConstructs : List String
  fallbackPolicy : String
  capabilitySpecVersion : String
  semanticProfileVersion : UInt32
  semanticFeatures : List String
  limits : TargetProfileLimits
  canonicalBytes : String
  digest : String
  deriving DecidableEq, Repr

def profileError {α : Type} (message : String) : Except Failure α :=
  .error ⟨kInvalidProfile, message⟩

/-- A word out of a closed list. -/
def oneOf (object : Json.Object) (field : String) (words : List String) (complaint : String) :
    Except Failure String := do
  let value ← profileString object field "profileSummary"
  if value ∈ words then return value else profileError complaint

def parseLimits (limits : Json.Object) : Except Failure TargetProfileLimits := do
  requireExactFields limits ["maxExpressionDepth", "maxEffects", "maxEffectGroups",
    "maxAttestations", "maxComputes", "maxOperationSteps"] "semanticProfile limits" kInvalidProfile
  let limit := fun field => profileU64 limits field "semanticProfile limits"
  return {
    maxExpressionDepth := ← limit "maxExpressionDepth"
    maxEffects := ← limit "maxEffects"
    maxEffectGroups := ← limit "maxEffectGroups"
    maxAttestations := ← limit "maxAttestations"
    maxComputes := ← limit "maxComputes"
    maxOperationSteps := ← limit "maxOperationSteps" }

def profileObject (object : Json.Object) (field complaint : String) : Except Failure Json.Object :=
  match object.getObject field with
  | none => profileError complaint
  | some found => .ok found

section Documents

variable (sha256Hex : List UInt8 → String) (text : JsonText)

def digestOf (bytes : List UInt8) : String := "sha256:" ++ sha256Hex bytes

def parseTargetProfile (object : Json.Object) (targetIdentity targetProfileIdentity : String) :
    Except Failure TargetProfile := do
  requireExactFields object ["schemaVersion", "kind", "profileId", "profileVersion", "target",
    "runtimeFamily", "executionMode", "supportedFeatures", "unsupportedConstructs",
    "fallbackPolicy", "capabilitySpecVersion", "semanticProfile"] "profileSummary" kInvalidProfile
  let schemaVersion ← profileU32 object "schemaVersion" "profileSummary" true
  require (schemaVersion = 1) ⟨kInvalidProfile, "profileSummary schemaVersion must equal 1"⟩
  let kind ← oneOf object "kind" ["neutrino.target-profile"]
    "profileSummary kind is not neutrino.target-profile"
  let profileId ← profileString object "profileId" "profileSummary"
  let profileVersion ← profileU32 object "profileVersion" "profileSummary" true
  require (profileIdVersion profileId = some profileVersion.toNat) ⟨kInvalidProfile,
    "profileSummary profileId is invalid or disagrees with profileVersion"⟩
  require (profileId = targetProfileIdentity) ⟨kInvalidProfile,
    "profileSummary profileId does not match targetProfileIdentity"⟩
  let target ← oneOf object "target" [targetIdentity]
    "profileSummary target does not match targetIdentity"
  let runtimeFamily ← oneOf object "runtimeFamily" ["on_chain", "relational", "off_chain"]
    "profileSummary runtimeFamily is unknown"
  let executionMode ← oneOf object "executionMode" ["deterministic", "simulated", "real"]
    "profileSummary executionMode is unknown"
  let supportedFeatures ← profileStrings object "supportedFeatures" "profileSummary" false
  let unsupportedConstructs ← profileStrings object "unsupportedConstructs" "profileSummary" false
  require (∀ feature ∈ supportedFeatures, feature ∉ unsupportedConstructs) ⟨kInvalidProfile,
    "profileSummary supported and unsupported features overlap"⟩
  let fallbackPolicy ← oneOf object "fallbackPolicy" ["fail_closed", "advisory"]
    "profileSummary fallbackPolicy is unknown"
  let capabilitySpecVersion ← oneOf object "capabilitySpecVersion" [kCapabilitySpecVersion]
    "profileSummary capabilitySpecVersion is incompatible"
  let semantic ← profileObject object "semanticProfile"
    "profileSummary semanticProfile must be an object"
  requireExactFields semantic ["version", "features", "limits"] "semanticProfile" kInvalidProfile
  let semanticProfileVersion ← profileU32 semantic "version" "semanticProfile" true
  require (semanticProfileVersion = kSemanticProfileVersion)
    ⟨kInvalidProfile, "semanticProfile version is incompatible"⟩
  let semanticFeatures ← profileStrings semantic "features" "semanticProfile" true
  let limits ← profileObject semantic "limits" "semanticProfile limits must be an object"
  let limits ← parseLimits limits
  let canonicalBytes := text.compactJson (.object object)
  return {
    schemaVersion, kind, profileId, profileVersion, target, runtimeFamily, executionMode,
    supportedFeatures, unsupportedConstructs, fallbackPolicy, capabilitySpecVersion,
    semanticProfileVersion, semanticFeatures, limits, canonicalBytes,
    digest := digestOf sha256Hex (utf8 canonicalBytes) }

end Documents

/-! The descriptor. -/

structure ProtocolVersion where
  major : UInt32
  minor : UInt32
  deriving DecidableEq, Repr

structure ProtocolRange where
  min : ProtocolVersion
  max : ProtocolVersion
  deriving DecidableEq, Repr

structure ProjectionSchemaRange where
  min : UInt32
  max : UInt32
  deriving DecidableEq, Repr

structure CompatibilityBounds where
  coreProtocol : ProtocolRange
  projectionSchema : ProjectionSchemaRange
  deriving DecidableEq, Repr

structure ClosureEntry where
  path : String
  sha256 : String
  byteLen : UInt64
  deriving DecidableEq, Repr

structure Descriptor where
  targetIdentity : String
  protocolMajor : UInt32
  protocolMinor : UInt32
  apiVersion : UInt32
  targetProfileIdentity : String
  entry : String
  closure : List ClosureEntry
  compatibilityBounds : CompatibilityBounds
  capabilities : List String
  profileSummary : TargetProfile
  licenseIdentity : String
  manifestDigest : String
  deriving DecidableEq, Repr

structure Compatibility where
  coreProtocol : ProtocolVersion := ⟨kProtocolMajor, kProtocolMinor⟩
  apiVersion : UInt32 := 1
  projectionSchema : UInt32 := kProjectionSchemaVersion.toUInt32
  deriving DecidableEq, Repr

def descriptorError {α : Type} (message : String) : Except Failure α :=
  .error ⟨kInvalidDescriptor, message⟩

def validateRelativePath (path : String) : Except Failure Unit :=
  require (path ≠ "" ∧ path.utf8ByteSize ≤ 4096 ∧ path.toList.head? ≠ some '/' ∧
      path.toList.getLast? ≠ some '/' ∧ Char.ofNat 0 ∉ path.toList ∧ '\\' ∉ path.toList ∧
      ∀ segment ∈ pathSegments path, segment ≠ "" ∧ segment ≠ "." ∧ segment ≠ "..")
    ⟨kInvalidPath, "invalid relative package path"⟩

def parseProtocolVersion (object : Json.Object) (context : String) :
    Except Failure ProtocolVersion := do
  return { major := ← requiredU32 object "major" context,
           minor := ← requiredU32 object "minor" context }

def compareVersions (left right : ProtocolVersion) : Ordering :=
  (compare left.major right.major).then (compare left.minor right.minor)

def validateCompatibility (descriptor : Descriptor) (compatibility : Compatibility) :
    Except Failure Unit := do
  let bounds := descriptor.compatibilityBounds
  require (compareVersions bounds.coreProtocol.min bounds.coreProtocol.max ≠ .gt ∧
      bounds.projectionSchema.min ≤ bounds.projectionSchema.max)
    ⟨kInvalidDescriptor, "compatibility range has min greater than max"⟩
  require (descriptor.protocolMajor = compatibility.coreProtocol.major ∧
      compareVersions compatibility.coreProtocol bounds.coreProtocol.min ≠ .lt ∧
      compareVersions compatibility.coreProtocol bounds.coreProtocol.max ≠ .gt ∧
      descriptor.apiVersion = compatibility.apiVersion)
    ⟨kIncompatibleVersion, "package is incompatible with this core"⟩
  require (bounds.projectionSchema.min ≤ compatibility.projectionSchema ∧
      compatibility.projectionSchema ≤ bounds.projectionSchema.max)
    ⟨kProjectionSchema, "package does not accept this projection schema"⟩

def objectOr (complaint : String) (found : Option Json.Object) : Except Failure Json.Object :=
  match found with
  | none => descriptorError complaint
  | some object => .ok object

def arrayOr (complaint : String) (found : Option (List Json)) : Except Failure (List Json) :=
  match found with
  | none => descriptorError complaint
  | some elements => .ok elements

/-- The names so far, each nonempty and not seen before. -/
def addCapability (seen : List String) (value : Json) : Except Failure (List String) :=
  match value.asString with
  | some name =>
      if name = "" || seen.contains name then
        descriptorError "capabilities must be unique nonempty strings"
      else .ok (seen ++ [name])
  | none => descriptorError "capabilities must be unique nonempty strings"

def parseBounds (bounds : Json.Object) : Except Failure CompatibilityBounds := do
  let coreProtocol ← objectOr "compatibilityBounds is missing a required range"
    (bounds.getObject "coreProtocol")
  let projectionSchema ← objectOr "compatibilityBounds is missing a required range"
    (bounds.getObject "projectionSchema")
  let protocolMin ← objectOr "coreProtocol is missing min/max" (coreProtocol.getObject "min")
  let protocolMax ← objectOr "coreProtocol is missing min/max" (coreProtocol.getObject "max")
  return {
    coreProtocol := {
      min := ← parseProtocolVersion protocolMin "coreProtocol.min"
      max := ← parseProtocolVersion protocolMax "coreProtocol.max" }
    projectionSchema := {
      min := ← requiredU32 projectionSchema "min" "projectionSchema"
      max := ← requiredU32 projectionSchema "max" "projectionSchema" } }

/-- The path before is held against the next one. -/
def addClosureEntry (state : String × List ClosureEntry) (value : Json) :
    Except Failure (String × List ClosureEntry) := do
  let object ← objectOr "closure entry must be an object" value.asObject
  let path ← requiredNonemptyString object "path" "closure entry"
  validateRelativePath path
  require (state.1 = "" ∨ state.1 < path)
    ⟨kInvalidDescriptor, "closure paths must be unique and lexicographically ordered"⟩
  let sha256 ← requiredNonemptyString object "sha256" "closure entry"
  require (isLowerHexDigest sha256) ⟨kInvalidDescriptor, "closure sha256 must be lowercase"⟩
  let byteLen ← requiredU64 object "byteLen" "closure entry"
  return (path, state.2 ++ [⟨path, sha256, byteLen⟩])

section Documents

variable (sha256Hex : List UInt8 → String) (text : JsonText)

def parseJson (bytes : List UInt8) : Except Failure Json :=
  match payloadText bytes with
  | none => descriptorError "malformed JSON: Invalid UTF-8 sequence"
  | some payload =>
      (text.parse payload).mapError fun message =>
        ⟨kInvalidDescriptor, "malformed JSON: " ++ message⟩

/-- The members of a descriptor in its canonical encoding. -/
def parseObject (bytes : List UInt8) : Except Failure Json.Object := do
  let parsed ← parseJson text bytes
  let object ← objectOr "top level must be an object" parsed.asObject
  require (utf8 (text.compactJson parsed) = bytes)
    ⟨kInvalidDescriptor, "descriptor must use canonical JSON encoding"⟩
  return object

/-- The digest a descriptor names is that of its other members. -/
def checkManifest (object : Json.Object) : Except Failure String := do
  let kind ← requiredNonemptyString object "kind" "package descriptor"
  require (kind = kDescriptorKind)
    ⟨kIncompatibleVersion, "unsupported descriptor kind " ++ kind⟩
  let manifestDigest ← requiredNonemptyString object "manifestDigest" "package descriptor"
  require (isLowerHexDigest manifestDigest)
    ⟨kInvalidDescriptor, "manifestDigest must be lowercase sha256"⟩
  require (digestOf sha256Hex (utf8 (text.compactJson (.object (object.erase "manifestDigest")))) =
      manifestDigest)
    ⟨kManifestMismatch, "descriptor manifestDigest does not match"⟩
  return manifestDigest

def parseMembers (object : Json.Object) (manifestDigest : String) : Except Failure Descriptor := do
  let targetIdentity ← requiredNonemptyString object "targetIdentity" "package descriptor"
  let protocolMajor ← requiredU32 object "protocolMajor" "package descriptor"
  let protocolMinor ← requiredU32 object "protocolMinor" "package descriptor"
  let apiVersion ← requiredU32 object "apiVersion" "package descriptor"
  let targetProfileIdentity ←
    requiredNonemptyString object "targetProfileIdentity" "package descriptor"
  let entry ← requiredNonemptyString object "entry" "package descriptor"
  validateRelativePath entry
  let licenseIdentity ← requiredNonemptyString object "licenseIdentity" "package descriptor"
  let capabilities ← arrayOr "package descriptor: missing/invalid capabilities"
    (object.getArray "capabilities")
  let capabilities ← thread addCapability [] capabilities
  let profileSummary ← objectOr "package descriptor: missing/invalid profileSummary"
    (object.getObject "profileSummary")
  let profileSummary ←
    parseTargetProfile sha256Hex text profileSummary targetIdentity targetProfileIdentity
  let bounds ← objectOr "package descriptor: missing/invalid compatibilityBounds"
    (object.getObject "compatibilityBounds")
  let compatibilityBounds ← parseBounds bounds
  let closure ← arrayOr "package descriptor closure must be nonempty"
    ((object.getArray "closure").filter (· ≠ []))
  let closure ← thread addClosureEntry ("", []) closure
  return {
    targetIdentity, protocolMajor, protocolMinor, apiVersion, targetProfileIdentity, entry,
    closure := closure.2, compatibilityBounds, capabilities, profileSummary, licenseIdentity,
    manifestDigest }

def parseDescriptor (bytes : List UInt8) : Except Failure Descriptor := do
  let object ← parseObject text bytes
  let manifestDigest ← checkManifest sha256Hex text object
  parseMembers sha256Hex text (object.erase "manifestDigest") manifestDigest

end Documents

/-! Files. -/

inductive PackageFileKind
  | regular
  | symlink
  | other
  | missing
  deriving DecidableEq, Repr

structure PackageFileHandle where
  kind : PackageFileKind
  bytes : List UInt8
  identity : String
  deriving DecidableEq, Repr

/-- How a path below a package directory is opened, with no link followed. -/
abbrev PackageFilesystem := String → String → Except Failure PackageFileHandle

def requireRegular (file : PackageFileHandle) (path missingCode : String) : Except Failure Unit :=
  match file.kind with
  | .regular => .ok ()
  | .symlink => .error ⟨kNonRegularFile, path ++ " is a symlink"⟩
  | .other => .error ⟨kNonRegularFile, path ++ " is not a regular file"⟩
  | .missing => .error ⟨missingCode, path ++ " is missing"⟩

structure VerifiedClosureEntry where
  manifest : ClosureEntry
  file : PackageFileHandle
  deriving DecidableEq, Repr

structure VerifiedPackage where
  packageDirectory : String
  descriptor : Descriptor
  descriptorFile : PackageFileHandle
  closure : List VerifiedClosureEntry
  entryIndex : Nat
  deriving DecidableEq, Repr

def VerifiedPackage.entry (package : VerifiedPackage) : Option VerifiedClosureEntry :=
  package.closure[package.entryIndex]?

/-- The files verified so far, and where the entry stands among them. -/
structure Verifying where
  closure : List VerifiedClosureEntry := []
  entryIndex : Nat := 0
  foundEntry : Bool := false

section Discovery

variable (sha256Hex : List UInt8 → String) (text : JsonText) (compatibility : Compatibility)
  (filesystem : PackageFilesystem)

def verifyEntry (packageDirectory entry : String) (state : Verifying) (manifest : ClosureEntry) :
    Except Failure Verifying := do
  let file ← filesystem packageDirectory manifest.path
  requireRegular file manifest.path kClosureMismatch
  require (file.bytes.length = manifest.byteLen.toNat ∧
      digestOf sha256Hex file.bytes = manifest.sha256)
    ⟨kClosureMismatch, manifest.path ++ " length or digest does not match"⟩
  let isEntry := decide (manifest.path = entry)
  return {
    closure := state.closure ++ [⟨manifest, file⟩]
    entryIndex := if isEntry then state.closure.length else state.entryIndex
    foundEntry := isEntry || state.foundEntry }

def verifyPackage (packageDirectory : String) : Except Failure VerifiedPackage := do
  let descriptorFile ← filesystem packageDirectory kDescriptorFileName
  requireRegular descriptorFile kDescriptorFileName kInvalidDescriptor
  let descriptor ← parseDescriptor sha256Hex text descriptorFile.bytes
  validateCompatibility descriptor compatibility
  let verified ← thread (verifyEntry sha256Hex filesystem packageDirectory descriptor.entry) {}
    descriptor.closure
  require verified.foundEntry ⟨kEntryUnbound, "entry is not bound to an exact closure file"⟩
  return { packageDirectory, descriptor, descriptorFile, closure := verified.closure,
           entryIndex := verified.entryIndex }

/-- The packages found so far, and what they have taken. -/
structure Discovered where
  packages : List VerifiedPackage := []
  manifestDigests : List String := []
  targets : List (String × String) := []
  profiles : List (String × String) := []

def taken (what name : String) (first second : String) : String :=
  what ++ " " ++ name ++ " is provided by both " ++ first ++ " and " ++ second

/-- A name no directory before this one provides. -/
def claimName (code what name directory : String) (owners : List (String × String)) :
    Except Failure (List (String × String)) :=
  match owners.lookup name with
  | some first => .error ⟨code, taken what name first directory⟩
  | none => .ok (owners ++ [(name, directory)])

def discoverPackage (state : Discovered) (directory : String) : Except Failure Discovered := do
  let package ← verifyPackage sha256Hex text compatibility filesystem directory
  let manifestDigest := package.descriptor.manifestDigest
  require (manifestDigest ∉ state.manifestDigests)
    ⟨kDuplicatePackage, "duplicate package manifest " ++ manifestDigest⟩
  let targets ←
    claimName kDuplicateTarget "target" package.descriptor.targetIdentity directory state.targets
  let profiles ← claimName kDuplicateProfile "profile" package.descriptor.profileSummary.profileId
    directory state.profiles
  return {
    packages := state.packages ++ [package]
    manifestDigests := state.manifestDigests ++ [manifestDigest]
    targets, profiles }

/-- The first directory that is configured twice, in the order of the directories. -/
def repeated : List String → Option String
  | first :: second :: rest => if first = second then some second else repeated (second :: rest)
  | _ => none

def discoverPackages (configuredPackageDirectories : List String) :
    Except Failure (List VerifiedPackage) := do
  let directories := SortOn.sortOn id configuredPackageDirectories
  match repeated directories with
  | some directory =>
      .error ⟨kDuplicatePackage,
        "configured package directory " ++ directory ++ " appears more than once"⟩
  | none => do
      let discovered ←
        thread (discoverPackage sha256Hex text compatibility filesystem) {} directories
      return SortOn.sortOn (fun package => package.descriptor.targetIdentity) discovered.packages

end Discovery

/-! The default package root. -/

/-- What the listing of the root says of one entry: whether it is a directory, and whether it
holds a descriptor; either question can fail. -/
structure RootEntry where
  path : String
  isDirectory : Except String Bool
  hasDescriptor : Except String Bool

def rootFailure (message : String) : Failure :=
  ⟨"E_PACKAGE_LOCATION", "cannot enumerate default package root: " ++ message⟩

def packageDirectory (entry : RootEntry) : Except Failure (List String) := do
  let isDirectory ← entry.isDirectory.mapError rootFailure
  if isDirectory then
    let hasDescriptor ← entry.hasDescriptor.mapError rootFailure
    return if hasDescriptor then [entry.path] else []
  else return []

def packageDirectories (root : List RootEntry) : Except Failure (List String) := do
  let directories ← collect packageDirectory root
  return SortOn.sortOn id directories.flatten

/-! Start-up. -/

def startupError {α : Type} (diagnostic : String) : Except Failure α :=
  .error ⟨"E_STARTUP_CONTRACT", diagnostic⟩

def verifiedPackageManifestDigest (sha256Hex : List UInt8 → String) (text : JsonText)
    (descriptorBytes : List UInt8) : Except Failure String :=
  match (payloadText descriptorBytes).bind fun payload => (text.parse payload).toOption with
  | none => startupError "package descriptor is not valid JSON"
  | some parsed =>
      match parsed.asObject with
      | none => startupError "package descriptor must be an object"
      | some object => do
          require (object.getString "kind" = some "neutrino.backend-package/1")
            ⟨"E_STARTUP_CONTRACT", "unsupported package descriptor kind"⟩
          match (object.getString "manifestDigest").filter isLowerHexDigest with
          | none => startupError "package manifest digest is invalid"
          | some expected => do
              require (digestOf sha256Hex
                  (utf8 (text.compactJson (.object (object.erase "manifestDigest")))) = expected)
                ⟨"E_STARTUP_CONTRACT", "package manifest digest does not match descriptor"⟩
              return expected

end Neutrino.BackendPackage
