import Mathlib
import Neutrino.DispatchReceipt
import Neutrino.JsonBuild

/-! What a verified receipt says of its bytes, and that the receipt written for an invocation says
again what the invocation was. -/

namespace Neutrino.DispatchReceipt

open Checked Projection BackendProtocol BackendInvocation

/-! Fields. -/

section Fields

variable {object : Json.Object} {field context : String}

theorem fieldOf_ok {α : Type} {read : Option α} {value : α} :
    fieldOf field context read = .ok value ↔ read = some value := by
  cases read <;> simp [fieldOf]

theorem stringField_ok {value : String} :
    stringField object field context = .ok value ↔
      object.getString field = some value ∧ value ≠ "" := by
  simp [stringField, fieldOf_ok, Option.filter_eq_some_iff]

theorem uintField_ok {allowZero : Bool} {value : UInt64} :
    uintField object field context allowZero = .ok value ↔
      ∃ read, object.getInteger field = some read ∧
        (0 ≤ read ∧ (allowZero = true ∨ read ≠ 0)) ∧ read.toUInt64 = value := by
  simp [uintField, fieldOf_ok, Option.filter_eq_some_iff, and_assoc]

theorem digestField_ok {value : String} :
    digestField object field context = .ok value ↔
      object.getString field = some value ∧ value ≠ "" ∧ validDigest value = true := by
  simp only [digestField, bind_ok, stringField_ok, require_ok, exists_const, pure_ok]
  constructor
  · rintro ⟨read, ⟨found, filled⟩, valid, rfl⟩
    exact ⟨found, filled, valid⟩
  · rintro ⟨found, filled, valid⟩
    exact ⟨value, ⟨found, filled⟩, valid, rfl⟩

end Fields

/-! What the bytes of a verified receipt are. -/

section Verified

variable {sha256Hex : List UInt8 → String} {text : JsonText}

/-- All that the members of a receipt have been found to hold. -/
structure Holds (sha256Hex : List UInt8 → String) (text : JsonText) (root : Json.Object)
    (bytes : List UInt8) (receipt : VerifiedReceipt) : Prop where
  digest : checkDigest sha256Hex text root bytes = .ok receipt.receiptDigest
  requestId : uintField root "requestId" "receipt" false = .ok receipt.requestId
  coreIdentity : stringField root "coreIdentity" "receipt" = .ok receipt.coreIdentity
  targetIdentity : stringField root "targetIdentity" "receipt" = .ok receipt.targetIdentity
  targetProfileIdentity :
    stringField root "targetProfileIdentity" "receipt" = .ok receipt.targetProfileIdentity
  packageManifestDigest :
    digestField root "packageManifestDigest" "receipt" = .ok receipt.packageManifestDigest
  backendReceiptDigest :
    digestField root "backendReceiptDigest" "receipt" = .ok receipt.backendReceiptDigest
  projection : readProjection root =
    .ok ⟨receipt.projectionByteLen, receipt.projectionEncoding, receipt.projectionDigest⟩
  security : checkSecurity root receipt.requestId receipt.projectionDigest = .ok ()
  artifacts : readArtifacts root = .ok receipt.artifacts

theorem verifyRoot_holds {root : Json.Object} {bytes : List UInt8} {receipt : VerifiedReceipt}
    (verified : verifyRoot sha256Hex text root bytes = .ok receipt) :
    Holds sha256Hex text root bytes receipt := by
  simp only [verifyRoot, bind_ok, require_ok, exists_const, pure_ok] at verified
  obtain ⟨_, -, _, -, -, _, -, -, _, digest, _, requestId, _, core, _, target, _, profile, _,
    package, _, backend, ⟨byteLen, encoding, sha256⟩, projection, _, security, _, artifacts,
    rfl⟩ := verified
  exact ⟨digest, requestId, core, target, profile, package, backend, projection, security,
    artifacts⟩

theorem verify_ok {bytes : List UInt8} {receipt : VerifiedReceipt} :
    verify sha256Hex text bytes = .ok receipt ↔
      ∃ payload root, payloadText bytes = some payload ∧
        text.parse payload = .ok (.object root) ∧
        verifyRoot sha256Hex text root bytes = .ok receipt := by
  unfold verify
  cases found : payloadText bytes with
  | none => simp
  | some payload =>
      cases parsed : text.parse payload with
      | error failure => simp [parsed, Except.toOption]
      | ok json => cases json <;> simp [parsed, Except.toOption, Json.asObject]

theorem checkDigest_ok {root : Json.Object} {bytes : List UInt8} {digest : String} :
    checkDigest sha256Hex text root bytes = .ok digest ↔
      digestField root "receiptDigest" "receipt" = .ok digest ∧
        digest = "sha256:" ++
          sha256Hex (utf8 (text.compactJson (.object (root.erase "receiptDigest")))) ∧
        utf8 (text.compactJson (.object ((root.erase "receiptDigest").insert "receiptDigest"
          (.string digest)))) = bytes := by
  simp only [checkDigest, bind_ok, require_ok, exists_const, pure_ok]
  constructor
  · rintro ⟨read, found, self, canonical, rfl⟩
    exact ⟨found, self, canonical⟩
  · rintro ⟨found, self, canonical⟩
    exact ⟨digest, found, self, canonical, rfl⟩

theorem prefixed_injective {first second : String} (same : "sha256:" ++ first = "sha256:" ++ second) :
    first = second := by
  have chars := congrArg String.toList same
  rw [String.toList_append, String.toList_append] at chars
  exact String.toList_inj.mp (List.append_cancel_left chars)

/-- The digest a receipt names tells its bytes. -/
theorem bytes_of_digest (lawful : text.Lawful) (injective : Function.Injective sha256Hex)
    {root other : Json.Object} {bytes bytes' : List UInt8} {digest : String}
    (checked : checkDigest sha256Hex text root bytes = .ok digest)
    (checked' : checkDigest sha256Hex text other bytes' = .ok digest) : bytes = bytes' := by
  obtain ⟨-, self, rfl⟩ := checkDigest_ok.mp checked
  obtain ⟨-, self', rfl⟩ := checkDigest_ok.mp checked'
  have payloads := utf8_injective (injective (prefixed_injective (self.symm.trans self')))
  rw [lawful.insert _ _ _ _ (Json.Object.erase_fresh root _)
    (Json.Object.erase_fresh other _) payloads]

theorem verify_injective (lawful : text.Lawful) (injective : Function.Injective sha256Hex)
    {bytes bytes' : List UInt8} {receipt : VerifiedReceipt}
    (verified : verify sha256Hex text bytes = .ok receipt)
    (verified' : verify sha256Hex text bytes' = .ok receipt) : bytes = bytes' := by
  obtain ⟨_, root, -, -, holds⟩ := verify_ok.mp verified
  obtain ⟨_, other, -, -, holds'⟩ := verify_ok.mp verified'
  exact bytes_of_digest lawful injective (verifyRoot_holds holds).digest
    (verifyRoot_holds holds').digest

end Verified

/-! The receipt of an invocation. -/

section Created

variable {sha256Hex : List UInt8 → String} {text : JsonText} {input : Result}
  {artifacts : List Json}

def selfDigest (sha256Hex : List UInt8 → String) (text : JsonText) (input : Result)
    (artifacts : List Json) : String :=
  "sha256:" ++ sha256Hex (utf8 (text.compactJson (.object (rootObject input artifacts))))

theorem receiptObject_eq : receiptObject sha256Hex text input artifacts =
    [("artifacts", .array artifacts), ("backendReceiptDigest", .string input.receiptDigest),
      ("coreIdentity", .string input.coreIdentity), ("kind", .string kKind),
      ("packageManifestDigest", .string input.packageManifestDigest),
      ("projection", .object (projectionObject input)),
      ("receiptDigest", .string (selfDigest sha256Hex text input artifacts)),
      ("requestId", signedValue input.requestId), ("schemaVersion", signedValue kSchemaVersion),
      ("security", .object (securityObject input)),
      ("targetIdentity", .string input.targetIdentity),
      ("targetProfileIdentity", .string input.targetProfileIdentity)] := by
  have front : ∀ other ∈ ["artifacts", "backendReceiptDigest", "coreIdentity", "kind",
      "packageManifestDigest", "projection"], other < "receiptDigest" := by decide +kernel
  have next : ¬ "requestId" < "receiptDigest" := by decide +kernel
  have fresh : "receiptDigest" ∉ ["requestId", "schemaVersion", "security", "targetIdentity",
      "targetProfileIdentity"] := by decide
  exact Json.Object.insert_between ((rootObject input artifacts).take 6)
    ((rootObject input artifacts).drop 6) _ front (by simpa [rootObject] using next) fresh

theorem erase_receiptObject :
    (receiptObject sha256Hex text input artifacts).erase "receiptDigest" =
      rootObject input artifacts := by
  rw [receiptObject_eq]
  rfl

theorem receiptObject_integral (integral : Json.AllIntegral artifacts) :
    Json.Integral (.object (receiptObject sha256Hex text input artifacts)) := by
  simp [receiptObject_eq, projectionObject, securityObject, signedValue, Json.Integral,
    Json.MembersIntegral, integral]

theorem receiptObject_ordered (ordered : Json.AllOrdered artifacts) :
    Json.Ordered (.object (receiptObject sha256Hex text input artifacts)) := by
  have keys : ["artifacts", "backendReceiptDigest", "coreIdentity", "kind",
      "packageManifestDigest", "projection", "receiptDigest", "requestId", "schemaVersion",
      "security", "targetIdentity", "targetProfileIdentity"].Pairwise (· < ·) := by
    decide +kernel
  have projection : ["byteLen", "encoding", "sha256"].Pairwise (· < ·) := by decide +kernel
  have security : ["decision", "projectionDigest", "requestId"].Pairwise (· < ·) := by
    decide +kernel
  rw [receiptObject_eq]
  refine ⟨keys, ?_⟩
  simp only [Json.MembersOrdered, Json.Ordered, and_true, true_and, ordered]
  exact ⟨⟨projection, by simp [projectionObject, Json.MembersOrdered, Json.Ordered, signedValue]⟩,
    by simp [signedValue, Json.Ordered], by simp [signedValue, Json.Ordered], security,
    by simp [securityObject, Json.MembersOrdered, Json.Ordered, signedValue]⟩

/-! The artifacts of a receipt. -/

def artifactValue (artifact : Artifact) : Json := .object (artifactObject artifact)

/-- An artifact as a verified receipt names it. -/
def identityOf (artifact : Artifact) : ArtifactIdentity :=
  ⟨artifact.path, artifact.bytes.length.toUInt64, artifact.sha256⟩

theorem artifactValues_integral (listed : List Artifact) :
    Json.AllIntegral (listed.map artifactValue) := by
  induction listed with
  | nil => trivial
  | cons artifact rest ih =>
      exact ⟨by simp [artifactValue, artifactObject, signedValue, Json.Integral,
        Json.MembersIntegral], ih⟩

theorem artifactValues_ordered (listed : List Artifact) :
    Json.AllOrdered (listed.map artifactValue) := by
  have keys : ["byteLen", "path", "sha256"].Pairwise (· < ·) := by decide +kernel
  induction listed with
  | nil => trivial
  | cons artifact rest ih =>
      exact ⟨⟨keys, by simp [artifactObject, signedValue, Json.MembersOrdered, Json.Ordered]⟩, ih⟩

theorem artifactArray_ok {written : List Json}
    (accepted : artifactArray sha256Hex input = .ok written) :
    written = (SortOn.sortOn Artifact.path input.artifacts).map artifactValue := by
  obtain ⟨⟨last, listed⟩, threaded, rfl⟩ := map_ok.mp accepted
  have run := @thread_invariant _ _ _ (addArtifact sha256Hex)
    (fun done state => state.2 = done.map artifactValue) ?_ [] _ _ _ rfl threaded
  · exact run
  intro done state artifact next before added
  simp only [addArtifact, bind_ok, require_ok, pure_ok] at added
  obtain ⟨_, -, _, -, _, -, rfl⟩ := added
  rw [List.map_append, before]
  rfl

theorem signedValue_read (value : UInt64) : value.toInt64.toUInt64 = value :=
  UInt64.toUInt64_toInt64 value

theorem readArtifact_ok {state next : String × List ArtifactIdentity} {artifact : Artifact}
    (accepted : readArtifact state (artifactValue artifact) = .ok next) :
    next = (artifact.path, state.2 ++ [identityOf artifact]) ∧ artifact.path ≠ "" ∧
      (state.1 = "" ∨ state.1 < artifact.path) := by
  simp only [readArtifact, artifactValue, Json.asObject, bind_ok, require_ok, pure_ok,
    stringField_ok, uintField_ok, digestField_ok, artifactObject] at accepted
  obtain ⟨_, -, path, ⟨foundPath, filled⟩, _, -, _, above, byteLen, ⟨read, foundLen, -, rfl⟩,
    digest, ⟨foundDigest, -⟩, rfl⟩ := accepted
  obtain rfl : artifact.path = path := Option.some.inj foundPath
  obtain rfl : artifact.bytes.length.toUInt64.toInt64 = read := Option.some.inj foundLen
  obtain rfl : artifact.sha256 = digest := Option.some.inj foundDigest
  rw [signedValue_read]
  exact ⟨rfl, filled, above⟩

/-- Artifacts read one after the other stand in the order of their paths. -/
theorem thread_readArtifact {listed : List Artifact} {state final : String × List ArtifactIdentity}
    (accepted : thread readArtifact state (listed.map artifactValue) = .ok final) :
    final.2 = state.2 ++ listed.map identityOf ∧
      (listed.map Artifact.path).Pairwise (· < ·) ∧
      ∀ path ∈ listed.map Artifact.path, state.1 = "" ∨ state.1 < path := by
  induction listed generalizing state with
  | nil =>
      obtain rfl : state = final := by simpa [thread] using accepted
      simp
  | cons artifact rest ih =>
      obtain ⟨next, first, continued⟩ := bind_ok.mp accepted
      obtain ⟨rfl, filled, above⟩ := readArtifact_ok first
      obtain ⟨read, ordered, later⟩ := ih continued
      have after : ∀ path ∈ rest.map Artifact.path, artifact.path < path := fun path there =>
        (later path there).resolve_left filled
      refine ⟨by rw [read]; simp, List.pairwise_cons.mpr ⟨after, ordered⟩, ?_⟩
      rw [List.map_cons, List.forall_mem_cons]
      exact ⟨above, fun path there => above.imp id fun below => lt_trans below (after path there)⟩

/-! What is read of a written receipt. -/

/-- What an invocation's receipt says under a digest of its own. -/
def receiptOf (input : Result) (receiptDigest : String) : VerifiedReceipt where
  requestId := input.requestId
  coreIdentity := input.coreIdentity
  targetIdentity := input.targetIdentity
  targetProfileIdentity := input.targetProfileIdentity
  packageManifestDigest := input.packageManifestDigest
  projectionEncoding := input.projectionEncoding
  projectionByteLen := input.projectionByteLen
  projectionDigest := input.projectionDigest
  backendReceiptDigest := input.receiptDigest
  artifacts := (SortOn.sortOn Artifact.path input.artifacts).map identityOf
  receiptDigest := receiptDigest

theorem readProjection_ok {root : Json.Object} {identity : ProjectionIdentity}
    (present : root.getObject "projection" = some (projectionObject input))
    (accepted : readProjection root = .ok identity) :
    identity =
      ⟨input.projectionByteLen, input.projectionEncoding, input.projectionDigest⟩ := by
  simp only [readProjection, present, bind_ok, require_ok, pure_ok, uintField_ok, stringField_ok,
    digestField_ok] at accepted
  obtain ⟨_, -, byteLen, ⟨read, foundLen, -, rfl⟩, encoding, ⟨foundEncoding, -⟩, _, -, sha256,
    ⟨foundDigest, -⟩, rfl⟩ := accepted
  obtain rfl : input.projectionByteLen.toInt64 = read := Option.some.inj foundLen
  obtain rfl : input.projectionEncoding = encoding := Option.some.inj foundEncoding
  obtain rfl : input.projectionDigest = sha256 := Option.some.inj foundDigest
  rw [signedValue_read]

theorem readArtifacts_ok {root : Json.Object} {identities : List ArtifactIdentity}
    {listed : List Artifact} (present : root.getArray "artifacts" = some (listed.map artifactValue))
    (accepted : readArtifacts root = .ok identities) :
    identities = listed.map identityOf ∧ (listed.map Artifact.path).Pairwise (· < ·) := by
  simp only [readArtifacts, present] at accepted
  obtain ⟨final, threaded, rfl⟩ := map_ok.mp accepted
  obtain ⟨read, ordered, -⟩ := thread_readArtifact threaded
  exact ⟨read, ordered⟩

/-- Every field of a written receipt is read back. -/
theorem holds_receipt {receipt : VerifiedReceipt} {bytes : List UInt8}
    (written : artifactArray sha256Hex input = .ok artifacts)
    (holds : Holds sha256Hex text (receiptObject sha256Hex text input artifacts) bytes receipt) :
    receipt = receiptOf input receipt.receiptDigest ∧
      ((SortOn.sortOn Artifact.path input.artifacts).map Artifact.path).Pairwise (· < ·) := by
  obtain rfl := artifactArray_ok written
  obtain ⟨-, requestId, core, target, profile, package, backend, projection, -, listed⟩ := holds
  rw [receiptObject_eq] at requestId core target profile package backend projection listed
  obtain ⟨read, found, -, sameRequest⟩ := uintField_ok.mp requestId
  obtain rfl : input.requestId.toInt64 = read := Option.some.inj found
  rw [signedValue_read] at sameRequest
  have sameCore := Option.some.inj (stringField_ok.mp core).1
  have sameTarget := Option.some.inj (stringField_ok.mp target).1
  have sameProfile := Option.some.inj (stringField_ok.mp profile).1
  have samePackage := Option.some.inj (digestField_ok.mp package).1
  have sameBackend := Option.some.inj (digestField_ok.mp backend).1
  have sameProjection := readProjection_ok rfl projection
  obtain ⟨sameArtifacts, ordered⟩ := readArtifacts_ok rfl listed
  simp only [ProjectionIdentity.mk.injEq] at sameProjection
  obtain ⟨sameLen, sameEncoding, sameDigest⟩ := sameProjection
  refine ⟨?_, ordered⟩
  rw [receiptOf, sameRequest, sameCore, sameTarget, sameProfile, samePackage, sameBackend,
    ← sameLen, ← sameEncoding, ← sameDigest, ← sameArtifacts]

theorem createApproved_ok {bytes : List UInt8}
    (created : createApproved sha256Hex text input = .ok bytes) :
    ∃ artifacts receipt, artifactArray sha256Hex input = .ok artifacts ∧
      bytes = utf8 (text.compactJson (.object (receiptObject sha256Hex text input artifacts))) ∧
      verify sha256Hex text bytes = .ok receipt := by
  simp only [createApproved, bind_ok, pure_ok] at created
  obtain ⟨_, -, artifacts, written, receipt, verified, rfl⟩ := created
  exact ⟨artifacts, receipt, written, rfl, verified⟩

/-- The fields of a written receipt are checked on the receipt itself. -/
theorem created_holds (lawful : text.Lawful) {bytes : List UInt8}
    (created : createApproved sha256Hex text input = .ok bytes) :
    ∃ receipt, verify sha256Hex text bytes = .ok receipt ∧
      artifactArray sha256Hex input =
        .ok ((SortOn.sortOn Artifact.path input.artifacts).map artifactValue) ∧
      Holds sha256Hex text (receiptObject sha256Hex text input
        ((SortOn.sortOn Artifact.path input.artifacts).map artifactValue)) bytes receipt := by
  obtain ⟨artifacts, receipt, written, rfl, verified⟩ := createApproved_ok created
  obtain rfl := artifactArray_ok written
  obtain ⟨payload, root, decoded, parsed, holds⟩ := verify_ok.mp verified
  rw [payloadText_utf8] at decoded
  obtain rfl := Option.some.inj decoded
  have read : text.ReadsBack (.object (receiptObject sha256Hex text input
      ((SortOn.sortOn Artifact.path input.artifacts).map artifactValue))) :=
    lawful.reads _ (receiptObject_integral (artifactValues_integral _))
      (receiptObject_ordered (artifactValues_ordered _))
  rw [JsonText.ReadsBack, parsed] at read
  obtain rfl := Json.object.inj (Except.ok.inj read)
  exact ⟨receipt, verified, written, verifyRoot_holds holds⟩

/-- A written receipt is read back as what it was written of. -/
theorem verify_createApproved (lawful : text.Lawful) {bytes : List UInt8}
    (created : createApproved sha256Hex text input = .ok bytes) :
    (∃ receiptDigest, verify sha256Hex text bytes = .ok (receiptOf input receiptDigest)) ∧
      (input.artifacts.map Artifact.path).Nodup := by
  obtain ⟨receipt, verified, written, holds⟩ := created_holds lawful created
  obtain ⟨same, ordered⟩ := holds_receipt written holds
  refine ⟨⟨receipt.receiptDigest, same ▸ verified⟩, ?_⟩
  exact SortOn.sortOn_strict_iff.mp (List.pairwise_map.mp ordered)

/-- The artifacts of an accepted invocation may stand in any order. -/
theorem createApproved_perm (lawful : text.Lawful) {bytes : List UInt8}
    (created : createApproved sha256Hex text input = .ok bytes) {permuted : List Artifact}
    (same : input.artifacts.Perm permuted) :
    createApproved sha256Hex text { input with artifacts := permuted } = .ok bytes := by
  have sorted := SortOn.sortOn_eq_of_perm same (verify_createApproved lawful created).2
  have array : artifactArray sha256Hex { input with artifacts := permuted } =
      artifactArray sha256Hex input := by
    rw [artifactArray, ← sorted]
    rfl
  rw [← created, createApproved, array]
  rfl

/-! Which invocations get a receipt. -/

/-- What the parts of a receipt check of an invocation. -/
structure Writable (sha256Hex : List UInt8 → String) (input : Result) : Prop where
  identified : input.requestId ≠ 0 ∧ input.coreIdentity ≠ "" ∧ input.targetIdentity ≠ "" ∧
    input.targetProfileIdentity ≠ "" ∧ validDigest input.packageManifestDigest ∧
    input.projectionEncoding = kArtifactEncoding ∧ input.projectionByteLen ≠ 0 ∧
    validDigest input.projectionDigest ∧ validDigest input.receiptDigest
  requestId : 0 ≤ input.requestId.toInt64
  projectionByteLen : 0 ≤ input.projectionByteLen.toInt64
  distinct : (input.artifacts.map Artifact.path).Nodup
  artifacts : ∀ artifact ∈ input.artifacts, validateArtifactPath artifact.path = .ok () ∧
    validDigest artifact.sha256 ∧ artifact.sha256 = "sha256:" ++ sha256Hex artifact.bytes ∧
    0 ≤ artifact.bytes.length.toUInt64.toInt64

theorem path_ne_empty {path : String} (valid : validateArtifactPath path = .ok ()) : path ≠ "" := by
  simp only [validateArtifactPath, validatePath, bind_ok, require_ok] at valid
  obtain ⟨_, filled, -⟩ := valid
  exact filled

theorem validDigest_ne_empty {digest : String} (valid : validDigest digest = true) :
    digest ≠ "" := by
  rintro rfl
  simp [validDigest, hexDigest] at valid

theorem signed_ne_zero {value : UInt64} (differ : value ≠ 0) : value.toInt64 ≠ 0 := by
  intro zero
  have read := signedValue_read value
  rw [zero] at read
  exact differ read.symm

theorem thread_addArtifact {listed : List Artifact} {state : String × List Json}
    (checked : ∀ artifact ∈ listed, validateArtifactPath artifact.path = .ok () ∧
      validDigest artifact.sha256 ∧ artifact.sha256 = "sha256:" ++ sha256Hex artifact.bytes)
    (ordered : (listed.map Artifact.path).Pairwise (· < ·))
    (apart : ∀ path ∈ listed.map Artifact.path, path ≠ state.1) :
    ∃ final, thread (addArtifact sha256Hex) state listed = .ok final := by
  induction listed generalizing state with
  | nil => exact ⟨state, rfl⟩
  | cons artifact rest ih =>
      obtain ⟨path, digest, bytes⟩ := checked artifact List.mem_cons_self
      obtain ⟨after, later⟩ := List.pairwise_cons.mp ordered
      have added : addArtifact sha256Hex state artifact =
          .ok (artifact.path, state.2 ++ [.object (artifactObject artifact)]) := by
        simp only [addArtifact, bind_ok, require_ok, pure_ok]
        exact ⟨(), apart _ List.mem_cons_self, (), path, (), ⟨digest, bytes⟩, trivial⟩
      have apart' : ∀ other ∈ rest.map Artifact.path,
          other ≠ (artifact.path, state.2 ++ [Json.object (artifactObject artifact)]).1 :=
        fun other there same => String.lt_irrefl other (same ▸ after other there)
      obtain ⟨final, continued⟩ :=
        ih (fun other there => checked other (List.mem_cons_of_mem _ there)) later apart'
      exact ⟨final, bind_ok.mpr ⟨_, added, continued⟩⟩

theorem readArtifact_accepts {state : String × List ArtifactIdentity} {artifact : Artifact}
    (path : validateArtifactPath artifact.path = .ok ()) (digest : validDigest artifact.sha256)
    (length : 0 ≤ artifact.bytes.length.toUInt64.toInt64)
    (above : state.1 = "" ∨ state.1 < artifact.path) :
    readArtifact state (artifactValue artifact) =
      .ok (artifact.path, state.2 ++ [identityOf artifact]) := by
  simp only [readArtifact, artifactValue, Json.asObject, bind_ok, require_ok, pure_ok,
    stringField_ok, uintField_ok, digestField_ok]
  refine ⟨(), rfl, artifact.path, ⟨rfl, path_ne_empty path⟩, (), path, (), above,
    artifact.bytes.length.toUInt64, ⟨_, rfl, ⟨length, .inl trivial⟩, signedValue_read _⟩,
    artifact.sha256, ⟨rfl, validDigest_ne_empty digest, digest⟩, rfl⟩

theorem thread_readArtifact_accepts {listed : List Artifact}
    {state : String × List ArtifactIdentity}
    (checked : ∀ artifact ∈ listed, validateArtifactPath artifact.path = .ok () ∧
      validDigest artifact.sha256 ∧ 0 ≤ artifact.bytes.length.toUInt64.toInt64)
    (ordered : (listed.map Artifact.path).Pairwise (· < ·))
    (above : ∀ path ∈ listed.map Artifact.path, state.1 = "" ∨ state.1 < path) :
    ∃ final, thread readArtifact state (listed.map artifactValue) = .ok final := by
  induction listed generalizing state with
  | nil => exact ⟨state, rfl⟩
  | cons artifact rest ih =>
      obtain ⟨path, digest, length⟩ := checked artifact List.mem_cons_self
      obtain ⟨after, later⟩ := List.pairwise_cons.mp ordered
      have read := readArtifact_accepts path digest length (above _ List.mem_cons_self)
      have above' : ∀ other ∈ rest.map Artifact.path,
          (artifact.path, state.2 ++ [identityOf artifact]).1 = "" ∨
            (artifact.path, state.2 ++ [identityOf artifact]).1 < other :=
        fun other there => .inr (after other there)
      obtain ⟨final, continued⟩ :=
        ih (fun other there => checked other (List.mem_cons_of_mem _ there)) later above'
      exact ⟨final, bind_ok.mpr ⟨_, read, continued⟩⟩

/-- The artifacts of an invocation as its receipt holds them. -/
def artifactValues (input : Result) : List Json :=
  (SortOn.sortOn Artifact.path input.artifacts).map artifactValue

section Accepts

variable (writable : Writable sha256Hex input)
  (digested : validDigest (selfDigest sha256Hex text input (artifactValues input)))
include writable

theorem Writable.sorted : ((SortOn.sortOn Artifact.path input.artifacts).map
    Artifact.path).Pairwise (· < ·) :=
  List.pairwise_map.mpr (SortOn.sortOn_strict writable.distinct)

theorem Writable.artifactArray_accepts :
    artifactArray sha256Hex input = .ok (artifactValues input) := by
  have checked : ∀ artifact ∈ SortOn.sortOn Artifact.path input.artifacts,
      validateArtifactPath artifact.path = .ok () ∧ validDigest artifact.sha256 ∧
        artifact.sha256 = "sha256:" ++ sha256Hex artifact.bytes := fun artifact listed => by
    obtain ⟨path, digest, bytes, -⟩ := writable.artifacts artifact (SortOn.mem_sortOn.mp listed)
    exact ⟨path, digest, bytes⟩
  have apart : ∀ path ∈ (SortOn.sortOn Artifact.path input.artifacts).map Artifact.path,
      path ≠ ("", ([] : List Json)).1 := fun path listed => by
    obtain ⟨artifact, there, rfl⟩ := List.mem_map.mp listed
    exact path_ne_empty (checked artifact there).1
  obtain ⟨final, threaded⟩ := thread_addArtifact checked writable.sorted apart
  have accepted : artifactArray sha256Hex input = .ok final.2 := map_ok.mpr ⟨final, threaded, rfl⟩
  rw [accepted, artifactArray_ok accepted]
  rfl

theorem Writable.readArtifacts_accepts {root : Json.Object}
    (present : root.getArray "artifacts" = some (artifactValues input)) :
    readArtifacts root = .ok ((SortOn.sortOn Artifact.path input.artifacts).map identityOf) := by
  have checked : ∀ artifact ∈ SortOn.sortOn Artifact.path input.artifacts,
      validateArtifactPath artifact.path = .ok () ∧ validDigest artifact.sha256 ∧
        0 ≤ artifact.bytes.length.toUInt64.toInt64 := fun artifact listed => by
    obtain ⟨path, digest, -, length⟩ := writable.artifacts artifact (SortOn.mem_sortOn.mp listed)
    exact ⟨path, digest, length⟩
  obtain ⟨final, threaded⟩ : ∃ final, thread readArtifact ("", [])
      ((SortOn.sortOn Artifact.path input.artifacts).map artifactValue) = .ok final :=
    thread_readArtifact_accepts checked writable.sorted fun _ _ => .inl rfl
  have accepted : readArtifacts root = .ok final.2 := by
    rw [readArtifacts, present]
    exact map_ok.mpr ⟨final, threaded, rfl⟩
  rw [accepted, (readArtifacts_ok present accepted).1]

theorem Writable.readProjection_accepts {root : Json.Object}
    (present : root.getObject "projection" = some (projectionObject input)) :
    readProjection root =
      .ok ⟨input.projectionByteLen, input.projectionEncoding, input.projectionDigest⟩ := by
  obtain ⟨-, -, -, -, -, encoding, length, digest, -⟩ := writable.identified
  simp only [readProjection, present, bind_ok, require_ok, pure_ok, uintField_ok, stringField_ok,
    digestField_ok]
  exact ⟨(), rfl, input.projectionByteLen,
    ⟨_, rfl, ⟨writable.projectionByteLen, .inr (signed_ne_zero length)⟩, signedValue_read _⟩,
    input.projectionEncoding, ⟨rfl, by rw [encoding]; decide⟩, (), encoding,
    input.projectionDigest, ⟨rfl, validDigest_ne_empty digest, digest⟩, rfl⟩

theorem Writable.uintField_request {object : Json.Object} {context : String} {allowZero : Bool}
    (present : object.get "requestId" = some (signedValue input.requestId)) :
    uintField object "requestId" context allowZero = .ok input.requestId := by
  refine uintField_ok.mpr ⟨input.requestId.toInt64, by rw [Json.Object.getInteger, present]; rfl,
    ⟨writable.requestId, .inr (signed_ne_zero writable.identified.1)⟩, signedValue_read _⟩

theorem Writable.checkSecurity_accepts {root : Json.Object}
    (present : root.getObject "security" = some (securityObject input)) :
    checkSecurity root input.requestId input.projectionDigest = .ok () := by
  obtain ⟨-, -, -, -, -, -, -, digest, -⟩ := writable.identified
  simp only [checkSecurity, present, bind_ok, require_ok, stringField_ok, digestField_ok]
  exact ⟨(), rfl, "approved", ⟨rfl, by decide⟩, (), rfl, input.requestId,
    writable.uintField_request rfl, (), rfl, input.projectionDigest,
    ⟨rfl, validDigest_ne_empty digest, digest⟩, rfl⟩

omit writable in
include digested in
theorem checkDigest_accepts :
    checkDigest sha256Hex text (receiptObject sha256Hex text input (artifactValues input))
        (utf8 (text.compactJson
          (.object (receiptObject sha256Hex text input (artifactValues input))))) =
      .ok (selfDigest sha256Hex text input (artifactValues input)) := by
  refine checkDigest_ok.mpr ⟨digestField_ok.mpr ⟨?_, validDigest_ne_empty digested, digested⟩, ?_, ?_⟩
  · rw [receiptObject_eq]
    rfl
  · rw [erase_receiptObject]
    rfl
  · rw [erase_receiptObject]
    rfl

include digested

theorem Writable.verifyRoot_accepts :
    verifyRoot sha256Hex text (receiptObject sha256Hex text input (artifactValues input))
        (utf8 (text.compactJson
          (.object (receiptObject sha256Hex text input (artifactValues input))))) =
      .ok (receiptOf input (selfDigest sha256Hex text input (artifactValues input))) := by
  have sealed := checkDigest_accepts digested
  obtain ⟨-, core, target, profile, package, -, -, -, backend⟩ := writable.identified
  simp only [verifyRoot, bind_ok, require_ok, pure_ok, stringField_ok, digestField_ok]
  refine ⟨(), ?_, kKind, ⟨?_, by decide⟩, (), rfl, kSchemaVersion, ?_, (), rfl, _, sealed,
    input.requestId, ?_, input.coreIdentity, ⟨?_, core⟩, input.targetIdentity, ⟨?_, target⟩,
    input.targetProfileIdentity, ⟨?_, profile⟩, input.packageManifestDigest,
    ⟨?_, validDigest_ne_empty package, package⟩, input.receiptDigest,
    ⟨?_, validDigest_ne_empty backend, backend⟩, _, writable.readProjection_accepts ?_, (),
    writable.checkSecurity_accepts ?_, _, writable.readArtifacts_accepts ?_, rfl⟩
  case refine_3 =>
    rw [receiptObject_eq]
    exact uintField_ok.mpr ⟨kSchemaVersion.toInt64, rfl, by decide, signedValue_read _⟩
  case refine_4 =>
    exact writable.uintField_request (by rw [receiptObject_eq]; rfl)
  all_goals
    rw [receiptObject_eq]
    rfl

theorem Writable.createApproved_accepts (lawful : text.Lawful) :
    createApproved sha256Hex text input = .ok (utf8 (text.compactJson
      (.object (receiptObject sha256Hex text input (artifactValues input))))) := by
  have read : text.ReadsBack
      (.object (receiptObject sha256Hex text input (artifactValues input))) :=
    lawful.reads _ (receiptObject_integral (artifactValues_integral _))
      (receiptObject_ordered (artifactValues_ordered _))
  have verified := verify_ok.mpr ⟨_, _, payloadText_utf8 _, read,
    writable.verifyRoot_accepts digested⟩
  simp only [createApproved, bind_ok, require_ok, pure_ok]
  exact ⟨(), writable.identified, _, writable.artifactArray_accepts, _, verified, rfl⟩

end Accepts

end Created

/-- A receipt that was written says again what it was written of, in bytes that do not depend on
the order of the artifacts; and where no two payloads share a digest, what a verified receipt
says tells its bytes. -/
theorem receipt_binds_invocation (sha256Hex : List UInt8 → String) (text : JsonText)
    (lawful : text.Lawful) :
    (∀ (input : Result) (bytes : List UInt8),
      createApproved sha256Hex text input = .ok bytes →
        (∃ receiptDigest, verify sha256Hex text bytes = .ok (receiptOf input receiptDigest)) ∧
          ∀ permuted, input.artifacts.Perm permuted →
            createApproved sha256Hex text { input with artifacts := permuted } = .ok bytes) ∧
      (Function.Injective sha256Hex → ∀ (bytes bytes' : List UInt8) (receipt : VerifiedReceipt),
        verify sha256Hex text bytes = .ok receipt →
        verify sha256Hex text bytes' = .ok receipt → bytes = bytes') := by
  refine ⟨fun input bytes created => ⟨(verify_createApproved lawful created).1, ?_⟩, ?_⟩
  · intro permuted same
    exact createApproved_perm lawful created same
  · intro injective bytes bytes' receipt verified verified'
    exact verify_injective lawful injective verified verified'

/-! One receipt of two artifacts. -/

def filledBytes (byte : UInt8) : List UInt8 := List.replicate 64 byte

def filledDigest (c : Char) : String := "sha256:" ++ String.ofList (List.replicate 64 c)

def sampleResult : Result where
  requestId := 1
  coreIdentity := "core"
  targetIdentity := "target"
  targetProfileIdentity := "profile"
  packageManifestDigest := filledDigest '0'
  projectionEncoding := kArtifactEncoding
  projectionByteLen := 1
  projectionDigest := filledDigest '0'
  artifacts := [⟨"b", filledBytes 98, filledDigest 'b'⟩, ⟨"a", filledBytes 97, filledDigest 'a'⟩]
  receiptDigest := filledDigest '0'

def latin (bytes : List UInt8) : String :=
  String.ofList (bytes.map fun byte => Char.ofNat byte.toNat)

def samplePayload : List UInt8 :=
  utf8 (compactText.compactJson (.object (rootObject sampleResult (artifactValues sampleResult))))

/-- A hash that names the payload of the sample by zeros and other bytes by themselves. -/
def sampleSha (bytes : List UInt8) : String :=
  Equiv.swap (latin samplePayload) (String.ofList (List.replicate 64 '0')) (latin bytes)

theorem latin_injective : Function.Injective latin := by
  intro first second same
  have code (byte : UInt8) : (Char.ofNat byte.toNat).toNat = byte.toNat := by
    have small := byte.toNat_lt
    have valid : byte.toNat.isValidChar := .inl (by omega)
    rw [Char.ofNat, dif_pos valid]
    rfl
  refine List.map_injective_iff.mpr (fun byte byte' alike => ?_) (String.ofList_injective same)
  rw [← UInt8.toNat_inj, ← code byte, ← code byte', alike]

theorem sampleSha_injective : Function.Injective sampleSha :=
  (Equiv.injective _).comp latin_injective

theorem sampleSha_payload : sampleSha samplePayload = String.ofList (List.replicate 64 '0') :=
  Equiv.swap_apply_left _ _

theorem latin_filled (byte : UInt8) :
    latin (filledBytes byte) = String.ofList (List.replicate 64 (Char.ofNat byte.toNat)) := by
  simp [latin, filledBytes]

theorem sampleSha_filled (byte : UInt8) (differ : byte ≠ 123) (visible : byte ≠ 48) :
    sampleSha (filledBytes byte) =
      String.ofList (List.replicate 64 (Char.ofNat byte.toNat)) := by
  have opened : samplePayload.head? = some 123 := by decide +kernel
  have first (other : UInt8) : (filledBytes other).head? = some other := rfl
  rw [sampleSha, Equiv.swap_apply_of_ne_of_ne, latin_filled]
  · intro same
    have whole := congrArg List.head? (latin_injective same)
    rw [first, opened] at whole
    exact differ (Option.some.inj whole)
  · rw [show String.ofList (List.replicate 64 '0') = latin (filledBytes 48) from
      (latin_filled 48).symm]
    intro same
    have whole := congrArg List.head? (latin_injective same)
    rw [first, first] at whole
    exact visible (Option.some.inj whole)

theorem sampleResult_writable : Writable sampleSha sampleResult where
  identified := by decide +kernel
  requestId := by decide
  projectionByteLen := by decide
  distinct := by decide
  artifacts := by
    have valid : ∀ path ∈ ["a", "b"], validateArtifactPath path = .ok () := by decide +kernel
    have digestA : validDigest (filledDigest 'a') = true := by decide +kernel
    have digestB : validDigest (filledDigest 'b') = true := by decide +kernel
    simp only [sampleResult, List.forall_mem_cons]
    refine ⟨⟨valid "b" (by simp), digestB, ?_, by decide +kernel⟩,
      ⟨valid "a" (by simp), digestA, ?_, by decide +kernel⟩, by simp⟩
    · rw [sampleSha_filled 98 (by decide) (by decide)]
      rfl
    · rw [sampleSha_filled 97 (by decide) (by decide)]
      rfl

theorem receipt_binds_invocation_sample :
    Function.Injective sampleSha ∧
      ∃ bytes, createApproved sampleSha compactText sampleResult = .ok bytes ∧
        (∃ receiptDigest,
          verify sampleSha compactText bytes = .ok (receiptOf sampleResult receiptDigest)) ∧
        ∀ bytes' receipt, verify sampleSha compactText bytes = .ok receipt →
          verify sampleSha compactText bytes' = .ok receipt → bytes = bytes' := by
  have digested : validDigest (selfDigest sampleSha compactText sampleResult
      (artifactValues sampleResult)) := by
    rw [selfDigest, show sampleSha (utf8 _) = _ from sampleSha_payload]
    decide +kernel
  have created := sampleResult_writable.createApproved_accepts digested compactText_lawful
  obtain ⟨written, unforgeable⟩ :=
    receipt_binds_invocation sampleSha compactText compactText_lawful
  exact ⟨sampleSha_injective, _, created, (written _ _ created).1,
    unforgeable sampleSha_injective _⟩

end Neutrino.DispatchReceipt
