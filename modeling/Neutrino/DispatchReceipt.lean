import Neutrino.BackendInvoker
import Neutrino.Library.SortOn

/-! The receipt of a dispatch: how one is written for an approved invocation, and the checks that
a receipt's bytes pass before its fields are believed. -/

namespace Neutrino.DispatchReceipt

open Checked Projection BackendProtocol BackendInvocation

def kKind : String := "neutrino.backend-dispatch-receipt/1"

def kSchemaVersion : UInt64 := 1

structure ArtifactIdentity where
  path : String
  byteLen : UInt64 := 0
  sha256 : String
  deriving DecidableEq, Repr

structure VerifiedReceipt where
  requestId : UInt64 := 0
  coreIdentity : String
  targetIdentity : String
  targetProfileIdentity : String
  packageManifestDigest : String
  projectionEncoding : String
  projectionByteLen : UInt64 := 0
  projectionDigest : String
  backendReceiptDigest : String
  artifacts : List ArtifactIdentity
  receiptDigest : String
  deriving DecidableEq, Repr

def receiptError (diagnostic : String) : String := "E_RECEIPT:receipt:" ++ diagnostic

/-- A digest is `sha256:` before 64 digits. -/
def hexDigest (digit : Char → Bool) (digest : String) : Bool :=
  "sha256:".toList.isPrefixOf digest.toList &&
    ((digest.toList.drop 7).length = 64 && (digest.toList.drop 7).all digit)

def isLowerHexDigit (c : Char) : Bool := c.isDigit || ('a' ≤ c && c ≤ 'f')

def validDigest : String → Bool := hexDigest isLowerHexDigit

section Fields

variable (object : Json.Object) (field context : String)

def requireClosed (expectedFields : List String) : Except String Unit := do
  require (object.length = expectedFields.length)
    (receiptError (context ++ " has missing or unknown fields"))
  match object.find? fun member => !expectedFields.contains member.1 with
  | none => return ()
  | some member => .error (receiptError (context ++ " has unknown field '" ++ member.1 ++ "'"))

/-- A required field, and how its absence is reported. -/
def fieldOf {α : Type} (read : Option α) : Except String α :=
  match read with
  | none => .error (receiptError (context ++ " has missing/invalid " ++ field))
  | some value => .ok value

def stringField : Except String String :=
  fieldOf field context ((object.getString field).filter (· ≠ ""))

def uintField (allowZero : Bool) : Except String UInt64 :=
  fieldOf field context (((object.getInteger field).filter fun value =>
    0 ≤ value && (allowZero || value != 0)).map Int64.toUInt64)

def digestField : Except String String := do
  let value ← stringField object field context
  require (validDigest value) (receiptError (context ++ " has invalid " ++ field))
  return value

end Fields

/-- A length or an id is written as a signed 64-bit integer. -/
def signedValue (value : UInt64) : Json := .number (.integer value.toInt64)

def projectionObject (input : Result) : Json.Object :=
  [("byteLen", signedValue input.projectionByteLen), ("encoding", .string input.projectionEncoding),
    ("sha256", .string input.projectionDigest)]

def securityObject (input : Result) : Json.Object :=
  [("decision", .string "approved"), ("projectionDigest", .string input.projectionDigest),
    ("requestId", signedValue input.requestId)]

def artifactObject (artifact : Artifact) : Json.Object :=
  [("byteLen", signedValue artifact.bytes.length.toUInt64), ("path", .string artifact.path),
    ("sha256", .string artifact.sha256)]

section Create

variable (sha256Hex : List UInt8 → String)

/-- The path before is held against the next one. -/
def addArtifact (state : String × List Json) (artifact : Artifact) :
    Except String (String × List Json) := do
  require (artifact.path ≠ state.1) (receiptError "artifact path is duplicated")
  validateArtifactPath artifact.path
  require (validDigest artifact.sha256 ∧ artifact.sha256 = "sha256:" ++ sha256Hex artifact.bytes)
    (receiptError "artifact digest does not match bytes")
  return (artifact.path, state.2 ++ [.object (artifactObject artifact)])

def artifactArray (input : Result) : Except String (List Json) :=
  Prod.snd <$> thread (addArtifact sha256Hex) ("", [])
    (SortOn.sortOn Artifact.path input.artifacts)

end Create

/-- The receipt without its own digest. -/
def rootObject (input : Result) (artifacts : List Json) : Json.Object :=
  [("artifacts", .array artifacts), ("backendReceiptDigest", .string input.receiptDigest),
    ("coreIdentity", .string input.coreIdentity), ("kind", .string kKind),
    ("packageManifestDigest", .string input.packageManifestDigest),
    ("projection", .object (projectionObject input)), ("requestId", signedValue input.requestId),
    ("schemaVersion", signedValue kSchemaVersion), ("security", .object (securityObject input)),
    ("targetIdentity", .string input.targetIdentity),
    ("targetProfileIdentity", .string input.targetProfileIdentity)]

/-- An artifact's identity, after one of an earlier path. -/
def readArtifact (state : String × List ArtifactIdentity) (value : Json) :
    Except String (String × List ArtifactIdentity) :=
  match value.asObject with
  | none => .error (receiptError "artifact identity is not an object")
  | some artifact => do
      requireClosed artifact "artifact" ["byteLen", "path", "sha256"]
      let path ← stringField artifact "path" "artifact"
      validateArtifactPath path
      require (state.1 = "" ∨ state.1 < path)
        (receiptError "artifact identities are not uniquely path-sorted")
      let byteLen ← uintField artifact "byteLen" "artifact" true
      let sha256 ← digestField artifact "sha256" "artifact"
      return (path, state.2 ++ [⟨path, byteLen, sha256⟩])

structure ProjectionIdentity where
  byteLen : UInt64
  encoding : String
  sha256 : String

def readProjection (root : Json.Object) : Except String ProjectionIdentity :=
  match root.getObject "projection" with
  | none => .error (receiptError "receipt has missing/invalid projection")
  | some projection => do
      requireClosed projection "projection" ["byteLen", "encoding", "sha256"]
      let byteLen ← uintField projection "byteLen" "projection" false
      let encoding ← stringField projection "encoding" "projection"
      require (encoding = kArtifactEncoding) (receiptError "projection encoding is unsupported")
      let sha256 ← digestField projection "sha256" "projection"
      return ⟨byteLen, encoding, sha256⟩

def checkSecurity (root : Json.Object) (requestId : UInt64) (projectionDigest : String) :
    Except String Unit :=
  match root.getObject "security" with
  | none => .error (receiptError "receipt has missing/invalid security")
  | some security => do
      requireClosed security "security" ["decision", "projectionDigest", "requestId"]
      let decision ← stringField security "decision" "security"
      require (decision = "approved") (receiptError "security decision is not approved")
      let securityRequest ← uintField security "requestId" "security" false
      require (securityRequest = requestId)
        (receiptError "security requestId binding does not match")
      let securityProjection ← digestField security "projectionDigest" "security"
      require (securityProjection = projectionDigest)
        (receiptError "security projection binding does not match")

def readArtifacts (root : Json.Object) : Except String (List ArtifactIdentity) :=
  match root.getArray "artifacts" with
  | none => .error (receiptError "receipt has missing/invalid artifacts")
  | some artifacts => Prod.snd <$> thread readArtifact ("", []) artifacts

section Verify

variable (sha256Hex : List UInt8 → String) (text : JsonText)

/-- The digest a receipt names is that of the receipt without it, and the bytes are the
canonical ones. -/
def checkDigest (root : Json.Object) (bytes : List UInt8) : Except String String := do
  let receiptDigest ← digestField root "receiptDigest" "receipt"
  let bare := root.erase "receiptDigest"
  require (receiptDigest = "sha256:" ++ sha256Hex (utf8 (text.compactJson (.object bare))))
    (receiptError "receiptDigest does not match canonical payload")
  require (utf8 (text.compactJson
      (.object (bare.insert "receiptDigest" (.string receiptDigest)))) = bytes)
    (receiptError "receipt bytes are not canonical JSON")
  return receiptDigest

def verifyRoot (root : Json.Object) (bytes : List UInt8) : Except String VerifiedReceipt := do
  requireClosed root "receipt"
    ["artifacts", "backendReceiptDigest", "coreIdentity", "kind", "packageManifestDigest",
      "projection", "receiptDigest", "requestId", "schemaVersion", "security", "targetIdentity",
      "targetProfileIdentity"]
  let kind ← stringField root "kind" "receipt"
  require (kind = kKind) (receiptError "receipt kind is unsupported")
  let schema ← uintField root "schemaVersion" "receipt" false
  require (schema = kSchemaVersion) (receiptError "receipt schemaVersion is unsupported")
  let receiptDigest ← checkDigest sha256Hex text root bytes
  let requestId ← uintField root "requestId" "receipt" false
  let coreIdentity ← stringField root "coreIdentity" "receipt"
  let targetIdentity ← stringField root "targetIdentity" "receipt"
  let targetProfileIdentity ← stringField root "targetProfileIdentity" "receipt"
  let packageManifestDigest ← digestField root "packageManifestDigest" "receipt"
  let backendReceiptDigest ← digestField root "backendReceiptDigest" "receipt"
  let projection ← readProjection root
  checkSecurity root requestId projection.sha256
  let artifacts ← readArtifacts root
  return ⟨requestId, coreIdentity, targetIdentity, targetProfileIdentity, packageManifestDigest,
    projection.encoding, projection.byteLen, projection.sha256, backendReceiptDigest, artifacts,
    receiptDigest⟩

def verify (bytes : List UInt8) : Except String VerifiedReceipt :=
  match (payloadText bytes).bind fun payload => (text.parse payload).toOption with
  | none => .error (receiptError "receipt is not valid JSON")
  | some parsed =>
      match parsed.asObject with
      | none => .error (receiptError "receipt root is not an object")
      | some root => verifyRoot sha256Hex text root bytes

/-- The receipt of an approved invocation with its digest. -/
def receiptObject (input : Result) (artifacts : List Json) : Json.Object :=
  (rootObject input artifacts).insert "receiptDigest" (.string ("sha256:" ++
    sha256Hex (utf8 (text.compactJson (.object (rootObject input artifacts))))))

def createApproved (input : Result) : Except String (List UInt8) := do
  require (input.requestId ≠ 0 ∧ input.coreIdentity ≠ "" ∧ input.targetIdentity ≠ "" ∧
      input.targetProfileIdentity ≠ "" ∧ validDigest input.packageManifestDigest ∧
      input.projectionEncoding = kArtifactEncoding ∧ input.projectionByteLen ≠ 0 ∧
      validDigest input.projectionDigest ∧ validDigest input.receiptDigest)
    (receiptError "invocation identity is malformed")
  let artifacts ← artifactArray sha256Hex input
  let bytes := utf8 (text.compactJson (.object (receiptObject sha256Hex text input artifacts)))
  let _ ← verify sha256Hex text bytes
  return bytes

end Verify

end Neutrino.DispatchReceipt
