import Neutrino.CapabilitySpec
import Neutrino.ClaimPreimage
import Neutrino.JsonIndent
import Neutrino.Library.HexText

/-! The portable identity of an agreement: a hash over the semantic text of its capability spec and
the text of a versioned envelope, and its verification against a spec. -/

namespace Neutrino.Agreement

open Checked Json Projection

def kAgreementDomain : String := "neutrino.agreement.v1"

def kSemanticLanguageVersion : String := "0.1.0"

def kAgreementEnvelopeVersion : Int64 := 1

def agreementErrorText (message : String) : String := "agreement identity: " ++ message

/-- The members of a spec that its semantic text leaves out. -/
def isOutside (key : String) : Bool :=
  key = "kind" || key = "schemaVersion" || key = "identity" || key = "sourceMap" ||
    key = "targetRequirements"

def semanticMembers (spec : Json.Object) : Json.Object :=
  spec.filter fun member => !isOutside member.1

def agreementEnvelopeJson : Json.Object :=
  Json.Object.ofMembers [("schemaVersion", .number (.integer kAgreementEnvelopeVersion)),
    ("consentPolicy", .null), ("amendmentPolicy", .null), ("clauseSemanticIds", .array [])]

def agreementHashPreimage (domain semanticLanguageVersion canonicalCapabilitySpecBytes
    canonicalAgreementEnvelopeBytes : String) : List UInt8 :=
  framed [domain, semanticLanguageVersion, canonicalCapabilitySpecBytes,
    canonicalAgreementEnvelopeBytes]

section Identity

variable (sha256Hex : List UInt8 → String) (text : JsonText) (indented : Json → String)

def canonicalCapabilitySpecBytesFromSpec (spec : Json.Object) : Except String String := do
  let bytes := text.compactJson (.object (semanticMembers spec))
  match (spec.getObject "identity").bind fun identity => identity.getString "capabilityHash" with
  | none => throw (agreementErrorText "capability-spec has no identity.capabilityHash")
  | some declared => do
      require (sha256Hex (utf8 bytes) = declared) (agreementErrorText
        ("capability-spec capabilityHash mismatch — its semantic core does not hash to the " ++
          "declared identity (tampered or non-canonical spec)"))
      return bytes

def agreementHashOf (canonicalCapabilitySpecBytes canonicalAgreementEnvelopeBytes : String) :
    String :=
  sha256Hex (agreementHashPreimage kAgreementDomain kSemanticLanguageVersion
    canonicalCapabilitySpecBytes canonicalAgreementEnvelopeBytes)

def agreementIdentityObject (canonicalCapabilitySpecBytes : String) : Json.Object :=
  let envelopeBytes := text.compactJson (.object agreementEnvelopeJson)
  let agreementHash := agreementHashOf sha256Hex canonicalCapabilitySpecBytes envelopeBytes
  Json.Object.ofMembers [("kind", .string "neutrino.agreement-identity"),
    ("domain", .string kAgreementDomain),
    ("semanticLanguageVersion", .string kSemanticLanguageVersion),
    ("capabilityHash", .string (sha256Hex (utf8 canonicalCapabilitySpecBytes))),
    ("envelope", .object agreementEnvelopeJson),
    ("identity", objectOf [("agreementHash", .string agreementHash)])]

def agreementIdentityFromBytes (canonicalCapabilitySpecBytes : String) : String :=
  indented (.object (agreementIdentityObject sha256Hex text canonicalCapabilitySpecBytes)) ++ "\n"

def agreementIdentityFromSpec (spec : Json.Object) : Except String String := do
  let bytes ← canonicalCapabilitySpecBytesFromSpec sha256Hex text spec
  return agreementIdentityFromBytes sha256Hex text indented bytes

def agreementHashIn (artifact : Json.Object) : Option String :=
  (artifact.getObject "identity").map fun identity => identity.stringOr "agreementHash"

def verifyAgreementIdentity (artifact capabilitySpec : Json.Object) : Except String Unit := do
  require (artifact.stringOr "domain" = kAgreementDomain)
    (agreementErrorText "unknown agreement domain")
  require (artifact.stringOr "semanticLanguageVersion" = kSemanticLanguageVersion)
    (agreementErrorText "unknown semantic-language version")
  match artifact.getObject "envelope" with
  | none => throw (agreementErrorText "unknown agreement-envelope version")
  | some envelope => do
      require ((envelope.getInteger "schemaVersion").getD (-1) = kAgreementEnvelopeVersion)
        (agreementErrorText "unknown agreement-envelope version")
      let bytes ← canonicalCapabilitySpecBytesFromSpec sha256Hex text capabilitySpec
      require (artifact.stringOr "capabilityHash" = sha256Hex (utf8 bytes))
        (agreementErrorText "capabilityHash does not match the paired capability-spec")
      let envelopeBytes := text.compactJson (.object envelope)
      require (agreementHashIn artifact = some (agreementHashOf sha256Hex bytes envelopeBytes))
        (agreementErrorText ("agreementHash does not recompute — the identity is inauthentic " ++
          "(tampered)"))

end Identity

/-! The two routes to the semantic text. -/

theorem mem_foldl_insert {members : List (String × Json)} {object : Json.Object}
    {member : String × Json} (listed : member ∈
      members.foldl (fun object member => Json.Object.insert object member.1 member.2) object) :
    member ∈ object ∨ member ∈ members := by
  induction members generalizing object with
  | nil => exact .inl listed
  | cons first rest ih =>
      rcases ih listed with early | late
      · rcases Json.Object.mem_insert early with old | rfl
        · exact .inl old
        · exact .inr (List.mem_cons_self ..)
      · exact .inr (List.mem_cons_of_mem _ late)

theorem mem_ofMembers {members : List (String × Json)} {member : String × Json}
    (listed : member ∈ Json.Object.ofMembers members) : member ∈ members :=
  (mem_foldl_insert listed).resolve_left List.not_mem_nil

section Routes

variable {sha256Hex : List UInt8 → String} {text : JsonText} {indented : Json → String}
  (view : ProcedureView) (plan : CoordinationPlan)

theorem coreMembers_inside :
    ∀ member ∈ CapabilitySpec.coreMembers view plan, isOutside member.1 = false := by
  simp only [CapabilitySpec.coreMembers, List.forall_mem_append, List.forall_mem_cons]
  refine ⟨⟨⟨by decide, by decide, by decide, by decide, by decide, by decide, by decide,
    by decide, by decide, by decide, by simp⟩, ?_⟩, ?_⟩
  · split
    · simpa using (by decide : isOutside "attestations" = false)
    · simp
  · split
    · simpa using (by decide : isOutside "obligations" = false)
    · simp

theorem semanticMembers_put {object : Json.Object} {key : String} {value : Json}
    (outside : isOutside key = true) :
    semanticMembers (object.put key value) = semanticMembers object := by
  have skipped : (fun name => !isOutside name) key = false := by simp [outside]
  exact @Json.Object.filter_put key (fun name => !isOutside name) skipped object value

/-- What a spec adds to its semantic core, a reader leaves out again. -/
theorem semanticMembers_specDocument :
    semanticMembers (CapabilitySpec.specDocument sha256Hex text view plan) =
      CapabilitySpec.semanticCore view plan := by
  rw [CapabilitySpec.specDocument, CapabilitySpec.specBody, CapabilitySpec.specCore,
    semanticMembers_put (by decide), semanticMembers_put (by decide),
    semanticMembers_put (by decide), semanticMembers_put (by decide),
    semanticMembers_put (by decide), semanticMembers_put (by decide), semanticMembers,
    List.filter_eq_self]
  intro member listed
  simp [coreMembers_inside view plan member (mem_ofMembers listed)]

/-- The declared hash of a spec is that of its semantic text. -/
theorem bytes_specDocument : canonicalCapabilitySpecBytesFromSpec sha256Hex text
    (CapabilitySpec.specDocument sha256Hex text view plan) =
      .ok (CapabilitySpec.canonicalSemanticBytes text view plan) := by
  have declared : ((CapabilitySpec.specDocument sha256Hex text view plan).getObject
      "identity").bind (fun identity => identity.getString "capabilityHash") =
        some (CapabilitySpec.capabilityHashOf sha256Hex text view plan) := by
    rw [CapabilitySpec.specDocument, Json.Object.getObject, Json.Object.get_put]
    simp [objectOf, asObject, Json.Object.getString, Json.Object.get_ofMembers,
      Json.Object.get_cons, asString]
  simp only [canonicalCapabilitySpecBytesFromSpec, declared, semanticMembers_specDocument]
  rw [check_ok, require_ok]
  exact ⟨rfl, rfl⟩

theorem fromSpec_specDocument : agreementIdentityFromSpec sha256Hex text indented
    (CapabilitySpec.specDocument sha256Hex text view plan) =
      .ok (agreementIdentityFromBytes sha256Hex text indented
        (CapabilitySpec.canonicalSemanticBytes text view plan)) := by
  rw [agreementIdentityFromSpec, bytes_specDocument]
  rfl

/-- The members of an emitted identity that its verification reads. -/
theorem identity_members (bytes : String) :
    (agreementIdentityObject sha256Hex text bytes).stringOr "domain" = kAgreementDomain ∧
    (agreementIdentityObject sha256Hex text bytes).stringOr "semanticLanguageVersion" =
      kSemanticLanguageVersion ∧
    (agreementIdentityObject sha256Hex text bytes).stringOr "capabilityHash" =
      sha256Hex (utf8 bytes) ∧
    (agreementIdentityObject sha256Hex text bytes).getObject "envelope" =
      some agreementEnvelopeJson ∧
    agreementHashIn (agreementIdentityObject sha256Hex text bytes) = some (agreementHashOf
      sha256Hex bytes (text.compactJson (.object agreementEnvelopeJson))) := by
  have member : ∀ key, (agreementIdentityObject sha256Hex text bytes).get key = _ :=
    fun key => Json.Object.get_ofMembers _ key
  refine ⟨?_, ?_, ?_, ?_, ?_⟩
  · simp [Json.Object.stringOr, Json.Object.getString, member, Json.Object.get_cons, asString]
  · simp [Json.Object.stringOr, Json.Object.getString, member, Json.Object.get_cons, asString]
  · simp [Json.Object.stringOr, Json.Object.getString, member, Json.Object.get_cons, asString]
  · simp [Json.Object.getObject, member, Json.Object.get_cons, asObject]
  · simp [agreementHashIn, Json.Object.getObject, member, Json.Object.get_cons, asObject, objectOf,
      Json.Object.stringOr, Json.Object.getString, Json.Object.get_ofMembers, asString]

theorem envelope_version :
    agreementEnvelopeJson.getInteger "schemaVersion" = some kAgreementEnvelopeVersion := by
  simp [agreementEnvelopeJson, Json.Object.getInteger, Json.Object.get_ofMembers,
    Json.Object.get_cons, asInteger, Number.asInteger]

/-- The identity emitted from the semantic text is accepted against the spec. -/
theorem verify_specDocument : verifyAgreementIdentity sha256Hex text
    (agreementIdentityObject sha256Hex text (CapabilitySpec.canonicalSemanticBytes text view plan))
    (CapabilitySpec.specDocument sha256Hex text view plan) = .ok () := by
  obtain ⟨domain, language, hash, envelope, agreementHash⟩ := @identity_members sha256Hex text
    (CapabilitySpec.canonicalSemanticBytes text view plan)
  rw [verifyAgreementIdentity, check_ok, check_ok, require_ok, require_ok, envelope]
  refine ⟨domain, language, ?_⟩
  simp only [envelope_version, bytes_specDocument, check_ok, ok_bind, require_ok]
  exact ⟨rfl, hash, agreementHash⟩

theorem printable_identity (bytes : String) :
    Printable (.object (agreementIdentityObject sha256Hex text bytes)) := by
  refine printable_objectOf ?_
  simp only [List.forall_mem_cons]
  refine ⟨by simp, by simp, by simp, by simp, printable_objectOf ?_, printable_objectOf (by simp),
    by simp⟩
  simp only [List.forall_mem_cons]
  exact ⟨⟨trivial, trivial⟩, by simp, by simp, ⟨trivial, trivial⟩, by simp⟩

end Routes

/-! What an accepted identity binds. -/

/-- An object as the library holds it, its members in the order of their keys. -/
structure Document where
  object : Json.Object
  ordered : (Json.object object).Ordered

section Binding

variable (text : JsonText)

/-- The texts that an identity is hashed from have lengths of 64 bits. -/
structure FitsFrames (artifact spec : Document) : Prop where
  spec : Framing.Framable (utf8 (text.compactJson (.object (semanticMembers spec.object))))
  envelope : ∀ envelope, artifact.object.getObject "envelope" = some envelope →
    Framing.Framable (utf8 (text.compactJson (.object envelope)))

variable {text} {sha256Hex : List UInt8 → String}

theorem bytesFromSpec_ok {spec : Json.Object} {bytes : String}
    (read : canonicalCapabilitySpecBytesFromSpec sha256Hex text spec = .ok bytes) :
    bytes = text.compactJson (.object (semanticMembers spec)) := by
  simp only [canonicalCapabilitySpecBytesFromSpec] at read
  split at read
  · cases read
  · rw [check_ok] at read
    exact (Except.ok.inj read.2).symm

theorem verifyAgreementIdentity_ok {artifact spec : Json.Object}
    (verified : verifyAgreementIdentity sha256Hex text artifact spec = .ok ()) :
    ∃ envelope, artifact.getObject "envelope" = some envelope ∧ agreementHashIn artifact =
      some (agreementHashOf sha256Hex (text.compactJson (.object (semanticMembers spec)))
        (text.compactJson (.object envelope))) := by
  simp only [verifyAgreementIdentity, check_ok] at verified
  obtain ⟨_, _, checked⟩ := verified
  cases found : artifact.getObject "envelope" with
  | none =>
      rw [found] at checked
      cases checked
  | some envelope =>
      rw [found] at checked
      simp only [bind_ok, require_ok] at checked
      obtain ⟨_, _, bytes, read, _, _, hash⟩ := checked
      rw [bytesFromSpec_ok read] at hash
      exact ⟨envelope, rfl, hash⟩

theorem ordered_filter {object : Json.Object} (ordered : (Json.object object).Ordered)
    (keep : String × Json → Bool) : (Json.object (object.filter keep)).Ordered := by
  obtain ⟨sorted, values⟩ := ordered
  refine ⟨sorted.sublist (List.filter_sublist.map _), membersOrdered_iff.mpr ?_⟩
  exact fun member listed => membersOrdered_iff.mp values member (List.mem_of_mem_filter listed)

theorem ordered_getObject {object inner : Json.Object} {key : String}
    (ordered : (Json.object object).Ordered) (found : object.getObject key = some inner) :
    (Json.object inner).Ordered := by
  obtain ⟨value, got, held⟩ := Option.bind_eq_some_iff.mp found
  obtain ⟨member, listed, rfl⟩ := Option.map_eq_some_iff.mp got
  have inside := membersOrdered_iff.mp ordered.2 member (List.mem_of_find?_eq_some listed)
  cases member with
  | mk name value =>
      cases value with
      | object members =>
          cases held
          exact inside
      | _ => cases held

theorem get_semanticMembers {spec : Json.Object} {key : String} (inside : isOutside key = false) :
    (semanticMembers spec).get key = spec.get key := by
  rw [semanticMembers, Json.Object.get, Json.Object.get, List.find?_filter]
  congr 2
  funext member
  by_cases same : member.1 = key
  · simp [same, inside]
  · simp [same]

/-- Two accepted identities of one hash have equal specs, outside the five members, and equal
envelopes. -/
theorem verified_binds (tells : text.Tells) (injective : Function.Injective sha256Hex)
    {a b s t : Document} (fits : FitsFrames text a s) (fits' : FitsFrames text b t)
    (verified : verifyAgreementIdentity sha256Hex text a.object s.object = .ok ())
    (verified' : verifyAgreementIdentity sha256Hex text b.object t.object = .ok ())
    (hashes : agreementHashIn a.object = agreementHashIn b.object) :
    (∀ key, isOutside key = false → SameAt key s.object t.object) ∧
      ∃ envelope other, a.object.getObject "envelope" = some envelope ∧
        b.object.getObject "envelope" = some other ∧
        (Json.object envelope).Same (.object other) := by
  obtain ⟨envelope, found, hash⟩ := verifyAgreementIdentity_ok verified
  obtain ⟨other, found', hash'⟩ := verifyAgreementIdentity_ok verified'
  rw [hash, hash', Option.some.injEq] at hashes
  have frames := injective hashes
  have framable : ∀ {object : Json.Object} {envelope : Json.Object},
      Framing.Framable (utf8 (text.compactJson (.object object))) →
      Framing.Framable (utf8 (text.compactJson (.object envelope))) →
      ∀ field ∈ [kAgreementDomain, kSemanticLanguageVersion, text.compactJson (.object object),
        text.compactJson (.object envelope)], Framing.Framable (utf8 field) := by
    intro object envelope first second
    simp only [List.forall_mem_cons]
    refine ⟨?_, ?_, first, second, by simp⟩
    · unfold Framing.Framable
      decide +kernel
    · unfold Framing.Framable
      decide +kernel
  have fields := framed_injective (framable fits.spec (fits.envelope envelope found))
    (framable fits'.spec (fits'.envelope other found')) frames
  simp only [List.cons.injEq, true_and, and_true] at fields
  obtain ⟨cores, envelopes⟩ := fields
  have same := tells _ _ (ordered_filter s.ordered _) (ordered_filter t.ordered _) cores
  refine ⟨fun key inside => ?_, envelope, other, found, found', ?_⟩
  · have at' : SameAt key (semanticMembers s.object) (semanticMembers t.object) :=
      MembersSame.at same key
    unfold SameAt at at' ⊢
    rwa [get_semanticMembers inside, get_semanticMembers inside] at at'
  · exact tells _ _ (ordered_getObject a.ordered found) (ordered_getObject b.ordered found')
      envelopes

end Binding

/-- The identity of an agreement is the same by both routes and accepted against its spec; under a
hash without collisions, accepted identities of one hash have equal specs and equal envelopes. -/
theorem agreement_identity_binds (sha256Hex : List UInt8 → String) (text : JsonText)
    (indented : Json → String)
    (reads : ∀ json : Json, json.Printable → text.parse (indented json ++ "\n") = .ok json)
    (tells : text.Tells) :
    (∀ view plan, ∃ spec artifact,
      text.parse (CapabilitySpec.capabilitySpecJson sha256Hex text indented view plan) =
        .ok (.object spec) ∧
      text.parse (agreementIdentityFromBytes sha256Hex text indented
        (CapabilitySpec.canonicalSemanticBytes text view plan)) = .ok (.object artifact) ∧
      agreementIdentityFromSpec sha256Hex text indented spec =
        .ok (agreementIdentityFromBytes sha256Hex text indented
          (CapabilitySpec.canonicalSemanticBytes text view plan)) ∧
      verifyAgreementIdentity sha256Hex text artifact spec = .ok ()) ∧
    (Function.Injective sha256Hex → ∀ a b s t : Document, FitsFrames text a s →
      FitsFrames text b t → verifyAgreementIdentity sha256Hex text a.object s.object = .ok () →
      verifyAgreementIdentity sha256Hex text b.object t.object = .ok () →
      agreementHashIn a.object = agreementHashIn b.object →
      (∀ key, isOutside key = false → SameAt key s.object t.object) ∧
        ∃ envelope other, a.object.getObject "envelope" = some envelope ∧
          b.object.getObject "envelope" = some other ∧
          (Json.object envelope).Same (.object other)) := by
  constructor
  · intro view plan
    exact ⟨_, _, reads _ (CapabilitySpec.printable_spec sha256Hex text view plan),
      reads _ (printable_identity _), fromSpec_specDocument view plan,
      verify_specDocument view plan⟩
  · intro injective a b s t fits fits' verified verified' hashes
    exact verified_binds tells injective fits fits' verified verified' hashes

/-! The agreement of an empty procedure. -/

def anchorView : ProcedureView :=
  viewOf ⟨"anchor", some "anchored", none, none, [⟨.input "key" "string", 3⟩]⟩

def anchorSpec : Document :=
  ⟨CapabilitySpec.specDocument HexText.hexText squeezedText anchorView default,
    (CapabilitySpec.printable_spec ..).ordered⟩

def anchorIdentity : Document :=
  ⟨agreementIdentityObject HexText.hexText squeezedText
    (CapabilitySpec.canonicalSemanticBytes squeezedText anchorView default),
    (printable_identity _).ordered⟩

theorem anchor_fits : FitsFrames squeezedText anchorIdentity anchorSpec := by
  constructor
  · rw [anchorSpec, semanticMembers_specDocument]
    unfold Framing.Framable
    decide +kernel
  · intro envelope found
    obtain ⟨_, _, _, held, _⟩ := @identity_members HexText.hexText squeezedText
      (CapabilitySpec.canonicalSemanticBytes squeezedText anchorView default)
    rw [anchorIdentity, held] at found
    cases found
    unfold Framing.Framable
    decide +kernel

theorem agreement_identity_anchor :
    verifyAgreementIdentity HexText.hexText squeezedText anchorIdentity.object anchorSpec.object =
      .ok () ∧
    (∀ key, isOutside key = false → SameAt key anchorSpec.object anchorSpec.object) ∧
      ∃ envelope other, anchorIdentity.object.getObject "envelope" = some envelope ∧
        anchorIdentity.object.getObject "envelope" = some other ∧
        (Json.object envelope).Same (.object other) := by
  have verified : verifyAgreementIdentity HexText.hexText squeezedText anchorIdentity.object
      anchorSpec.object = .ok () := verify_specDocument anchorView default
  exact ⟨verified, (agreement_identity_binds HexText.hexText squeezedText Json.indented
    (fun _ printable => squeezedText_reads printable) compactText_tells).2
    HexText.hexText_injective anchorIdentity anchorIdentity anchorSpec anchorSpec anchor_fits
    anchor_fits verified verified rfl⟩

end Neutrino.Agreement
