import Mathlib
import Neutrino.AgreementEnvelope
import Neutrino.PythonJson

/-! The checks of an agreement identity that the Python tooling makes, beside the verification in
the compiler's library. -/

namespace Neutrino.Agreement

open Json PyJson

/-! Shape. -/

def complain (wrong : Bool) (message : String) : List String := if wrong then [message] else []

@[simp]
theorem complain_eq_nil {wrong : Bool} {message : String} :
    complain wrong message = [] ↔ wrong = false := by
  cases wrong <;> simp [complain]

/-- Where `$` stands in a pattern, a text may still hold one line end. -/
def beforeEnd (text : String) : List Char :=
  if text.toList.getLast? = some '\n' then text.toList.dropLast else text.toList

def isHexDigit (c : Char) : Bool := ('0' ≤ c ∧ c ≤ '9') ∨ ('a' ≤ c ∧ c ≤ 'f')

/-- `^[0-9a-f]{64}$` -/
def matchesHex64 (text : String) : Bool :=
  (beforeEnd text).length = 64 && (beforeEnd text).all isHexDigit

/-- `^[0-9]+\.[0-9]+\.[0-9]+$` -/
def matchesSemver (text : String) : Bool :=
  match (beforeEnd text).splitOn '.' with
  | [major, minor, patch] => [major, minor, patch].all fun digits =>
      !digits.isEmpty && digits.all Char.isDigit
  | _ => false

def isHexDigest : PyJson → Bool
  | .str text => matchesHex64 text
  | _ => false

def topFields : List String :=
  ["capabilityHash", "domain", "envelope", "identity", "kind", "semanticLanguageVersion"]

def envelopeFields : List String :=
  ["amendmentPolicy", "clauseSemanticIds", "consentPolicy", "schemaVersion"]

def identityFields : List String := ["agreementHash"]

def missingFields (items : Dict) (allowed : List String) (context : String) : List String :=
  (allowed.filter fun key => !has items key).map fun key => context ++ ": missing '" ++ key ++ "'"

def unknownFields (items : Dict) (allowed : List String) (context : String) : List String :=
  (items.filter fun item => !allowed.contains item.1).map fun item =>
    "unknown field " ++ context ++ "." ++ item.1

section Shape

variable (quoted : String → String)

def languageErrors (language : PyJson) : List String :=
  match language with
  | .str text =>
      if !matchesSemver text then
        ["semanticLanguageVersion must be a MAJOR.MINOR.PATCH string"]
      else complain (text ≠ kSemanticLanguageVersion)
        ("semanticLanguageVersion " ++ quoted text ++ " is not a known semantic-language version " ++
          "(unknown version — fail closed)")
  | _ => ["semanticLanguageVersion must be a MAJOR.MINOR.PATCH string"]

def policyErrors (envelope : Dict) (policy : String) : List String :=
  complain (!isNone (get envelope policy) && !isDict (get envelope policy))
    ("envelope." ++ policy ++ " must be an object or null")

def areClauseIds : PyJson → Bool
  | .list elements => elements.all fun element => isStr element && truthy element
  | _ => false

def envelopeErrors : PyJson → List String
  | .dict envelope =>
      missingFields envelope envelopeFields "envelope" ++
      unknownFields envelope envelopeFields "envelope" ++
      complain (!eqInt (get envelope "schemaVersion") 1)
        "envelope.schemaVersion must be 1 (unknown envelope version)" ++
      policyErrors envelope "consentPolicy" ++
      policyErrors envelope "amendmentPolicy" ++
      complain (!areClauseIds (get envelope "clauseSemanticIds"))
        "envelope.clauseSemanticIds must be an array of non-empty strings"
  | _ => ["envelope must be an object"]

def identityErrors : PyJson → List String
  | .dict identity =>
      missingFields identity identityFields "identity" ++
      unknownFields identity identityFields "identity" ++
      complain (!isHexDigest (get identity "agreementHash"))
        "identity.agreementHash must be a 64-char lowercase hex string"
  | _ => ["identity must be an object"]

/-- The messages that `validate_shape` collects. -/
def validateShape : PyJson → List String
  | .dict artifact =>
      missingFields artifact topFields "artifact" ++ unknownFields artifact topFields "artifact" ++
      complain (!eqStr (get artifact "kind") "neutrino.agreement-identity")
        "kind must be 'neutrino.agreement-identity'" ++
      complain (!eqStr (get artifact "domain") kAgreementDomain)
        "domain must be 'neutrino.agreement.v1' (unknown domain)" ++
      languageErrors quoted (get artifact "semanticLanguageVersion") ++
      complain (!isHexDigest (get artifact "capabilityHash"))
        "capabilityHash must be a 64-char lowercase hex string" ++
      envelopeErrors (get artifact "envelope") ++
      identityErrors (get artifact "identity")
  | _ => ["artifact is not a JSON object"]

end Shape

/-! Hashes. -/

/-- `value.get(key)`, which only a dict has. -/
def getOf (value : PyJson) (key : String) : Except String PyJson :=
  match value with
  | .dict items => .ok (get items key)
  | _ => .error "AttributeError: object has no attribute 'get'"

/-- `value[key]` of a dict. -/
def subscript (value : PyJson) (key : String) : Except String PyJson :=
  match value with
  | .dict items => (items.lookup key).elim (.error ("KeyError: '" ++ key ++ "'")) .ok
  | _ => .error "TypeError: object is not subscriptable"

/-- `value.encode()`, as the text it encodes. -/
def encode : PyJson → Except String String
  | .str text => .ok text
  | _ => .error "AttributeError: object has no attribute 'encode'"

def semanticItems (spec : Dict) : Dict := spec.filter fun item => !isOutside item.1

section Hashes

variable (repr : Rat → String) (sha256Hex : List UInt8 → String)

/-- The canonical bytes of a spec, or the message that takes their place; the outer error is an
exception. -/
def canonicalCapabilityBytes : PyJson → Except String (Except String String)
  | .dict spec =>
      let bytes := dumps repr (.dict (semanticItems spec))
      let identity := get spec "identity"
      let declared :=
        if truthy identity then getOf identity "capabilityHash" else .ok .none
      declared.map fun declared =>
        if !truthy declared then .error "capability-spec has no identity.capabilityHash"
        else if !eqStr declared (sha256Hex (utf8 bytes)) then
          .error ("capability-spec capabilityHash mismatch — its semantic core does not hash to " ++
            "the declared identity (tampered)")
        else .ok bytes
  | _ => .ok (.error "capability-spec is not a JSON object")

/-- The identity of an artifact, for which an empty dict stands in. -/
def identityOr (artifact : PyJson) : Except String PyJson :=
  match artifact with
  | .dict items => .ok ((items.lookup "identity").getD (.dict []))
  | _ => .error "AttributeError: object has no attribute 'get'"

def hashErrors (artifact : PyJson) (bytes : String) : Except String (List String) := do
  let declared ← getOf artifact "capabilityHash"
  let envelope ← subscript artifact "envelope"
  let language ← subscript artifact "semanticLanguageVersion"
  let language ← encode language
  let identity ← identityOr artifact
  let agreementHash ← getOf identity "agreementHash"
  let preimage := agreementHashPreimage kAgreementDomain language bytes (dumps repr envelope)
  return complain (!eqStr declared (sha256Hex (utf8 bytes)))
      "capabilityHash does not match the paired capability-spec" ++
    complain (!eqStr agreementHash (sha256Hex preimage))
      "agreementHash does not recompute — inauthentic identity"

/-- The messages that `verify_hashes` collects. -/
def verifyHashes (artifact spec : PyJson) : Except String (List String) := do
  match ← canonicalCapabilityBytes repr sha256Hex spec with
  | .error message => return [message]
  | .ok bytes => hashErrors repr sha256Hex artifact bytes

end Hashes

/-- Both Python checks report nothing. -/
def PythonAccepts (quoted : String → String) (repr : Rat → String)
    (sha256Hex : List UInt8 → String) (artifact spec : PyJson) : Prop :=
  validateShape quoted artifact = [] ∧ verifyHashes repr sha256Hex artifact spec = .ok []

/-- The library accepts the same documents. -/
def LibraryAccepts (nearest : Int → Rat) (sha256Hex : List UInt8 → String)
    (text : Projection.JsonText) (artifact spec : PyJson) : Prop :=
  ∃ identity specification, llvm nearest artifact = .object identity ∧
    llvm nearest spec = .object specification ∧
    verifyAgreementIdentity sha256Hex text identity specification = .ok ()

/-! What the Python checks read. -/

theorem eqStr_iff {value : PyJson} {text : String} : eqStr value text = true ↔ value = .str text := by
  cases value <;> simp [eqStr]

theorem languageErrors_nil {quoted : String → String} {language : PyJson}
    (valid : languageErrors quoted language = []) : language = .str kSemanticLanguageVersion := by
  cases language with
  | str held =>
      simp only [languageErrors] at valid
      split at valid
      · cases valid
      · simpa using valid
  | _ => cases valid

/-- The members of an artifact of the right shape that the verifications read. -/
structure Shaped (artifact envelope identity : Dict) : Prop where
  domain : get artifact "domain" = .str kAgreementDomain
  language : get artifact "semanticLanguageVersion" = .str kSemanticLanguageVersion
  enveloped : get artifact "envelope" = .dict envelope
  version : eqInt (get envelope "schemaVersion") 1 = true
  identified : get artifact "identity" = .dict identity

theorem validateShape_nil {quoted : String → String} {a : PyJson}
    (valid : validateShape quoted a = []) :
    ∃ artifact envelope identity, a = .dict artifact ∧ Shaped artifact envelope identity := by
  cases a with
  | dict artifact =>
      simp only [validateShape, List.append_eq_nil_iff, complain_eq_nil,
        Bool.not_eq_eq_eq_not, Bool.not_false] at valid
      obtain ⟨⟨⟨⟨⟨_, domain⟩, language⟩, _⟩, envelope⟩, identity⟩ := valid
      cases held : get artifact "envelope" with
      | dict items =>
          rw [held] at envelope
          simp only [envelopeErrors, List.append_eq_nil_iff, complain_eq_nil,
            Bool.not_eq_eq_eq_not, Bool.not_false] at envelope
          obtain ⟨⟨⟨⟨_, version⟩, _⟩, _⟩, _⟩ := envelope
          cases named : get artifact "identity" with
          | dict members =>
              exact ⟨artifact, items, members, rfl, eqStr_iff.mp domain,
                languageErrors_nil language, held, version, named⟩
          | _ =>
              rw [named] at identity
              cases identity
      | _ =>
          rw [held] at envelope
          cases envelope
  | _ => cases valid

theorem lookup_of_get {items : Dict} {key : String} {value : PyJson}
    (held : get items key = value) (present : isNone value = false) :
    items.lookup key = some value := by
  rw [PyJson.get] at held
  cases found : items.lookup key with
  | none =>
      rw [found] at held
      subst held
      cases present
  | some other =>
      rw [found] at held
      rw [← held, Option.getD_some]

section Hashes

variable {repr : Rat → String} {sha256Hex : List UInt8 → String}

/-- A spec whose declared hash is that of its canonical bytes. -/
structure Declares (repr : Rat → String) (sha256Hex : List UInt8 → String) (spec identity : Dict) :
    Prop where
  identified : get spec "identity" = .dict identity
  declared : get identity "capabilityHash" =
    .str (sha256Hex (utf8 (dumps repr (.dict (semanticItems spec)))))

theorem canonicalCapabilityBytes_ok {s : PyJson} {bytes : String}
    (read : canonicalCapabilityBytes repr sha256Hex s = .ok (.ok bytes)) :
    ∃ spec identity, s = .dict spec ∧ Declares repr sha256Hex spec identity ∧
      bytes = dumps repr (.dict (semanticItems spec)) := by
  cases s with
  | dict spec =>
      simp only [canonicalCapabilityBytes] at read
      cases held : get spec "identity" with
      | dict identity =>
          by_cases present : truthy (.dict identity) = true
          · rw [held, if_pos present, getOf] at read
            simp only [Except.map, Except.ok.injEq] at read
            split at read
            · cases read
            · split at read
              · cases read
              · rename_i _ same
                simp only [Bool.not_eq_true', Bool.not_eq_false] at same
                exact ⟨spec, identity, rfl, ⟨held, eqStr_iff.mp same⟩, (Except.ok.inj read).symm⟩
          · rw [held, if_neg present] at read
            cases read
      | _ =>
          rw [held] at read
          split at read <;> cases read
  | _ => cases read

/-- What an accepted pair of hashes says. -/
theorem verifyHashes_nil {artifact envelope identity : Dict} {s : PyJson}
    (shaped : Shaped artifact envelope identity)
    (valid : verifyHashes repr sha256Hex (.dict artifact) s = .ok []) :
    ∃ spec declaring, s = .dict spec ∧ Declares repr sha256Hex spec declaring ∧
      get artifact "capabilityHash" =
        .str (sha256Hex (utf8 (dumps repr (.dict (semanticItems spec))))) ∧
      get identity "agreementHash" = .str (agreementHashOf sha256Hex
        (dumps repr (.dict (semanticItems spec))) (dumps repr (.dict envelope))) := by
  rw [verifyHashes, Checked.bind_ok] at valid
  obtain ⟨read, found, rest⟩ := valid
  cases read with
  | error message => cases rest
  | ok bytes =>
      obtain ⟨spec, declaring, rfl, declares, rfl⟩ := canonicalCapabilityBytes_ok found
      have languageHeld := lookup_of_get shaped.language rfl
      have envelopeHeld := lookup_of_get shaped.enveloped rfl
      have identityHeld := lookup_of_get shaped.identified rfl
      simp only [hashErrors, getOf, subscript, encode, identityOr, languageHeld, envelopeHeld,
        identityHeld, Option.elim_some, Option.getD_some, Checked.ok_bind, Checked.pure_ok,
        List.append_eq_nil_iff, complain_eq_nil, Bool.not_eq_eq_eq_not, Bool.not_false,
        eqStr_iff] at rest
      exact ⟨spec, declaring, rfl, declares, rest.1, rest.2⟩

end Hashes

/-! What the library reads. -/

section Library

variable {repr printDouble : Rat → String} {nearest : Int → Rat} {sha256Hex : List UInt8 → String}
  {text : Projection.JsonText}

theorem get_llvmItems (items : Dict) (key : String) :
    Json.Object.get (llvmItems nearest items) key = (items.lookup key).map (llvm nearest) := by
  induction items with
  | nil => rfl
  | cons item rest ih =>
      obtain ⟨name, value⟩ := item
      rw [llvmItems, Json.Object.get_cons, List.lookup_cons, ih]
      by_cases same : name = key
      · simp [same]
      · have other : (key == name) = false := by simpa using Ne.symm same
        rw [if_neg same, other]

theorem semanticMembers_llvmItems (spec : Dict) :
    semanticMembers (llvmItems nearest spec) = llvmItems nearest (semanticItems spec) := by
  induction spec with
  | nil => rfl
  | cons item rest ih =>
      obtain ⟨name, value⟩ := item
      rw [semanticMembers] at ih ⊢
      rw [semanticItems] at ih ⊢
      rw [llvmItems, List.filter_cons, List.filter_cons]
      by_cases outside : isOutside name = true
      · simpa [outside] using ih
      · simp [outside, llvmItems, ih]

theorem getString_llvmItems {items : Dict} {key value : String}
    (held : get items key = .str value) :
    Json.Object.getString (llvmItems nearest items) key = some value := by
  rw [Json.Object.getString, get_llvmItems, lookup_of_get held rfl]
  rfl

theorem getObject_llvmItems {items inner : Dict} {key : String}
    (held : get items key = .dict inner) :
    Json.Object.getObject (llvmItems nearest items) key = some (llvmItems nearest inner) := by
  rw [Json.Object.getObject, get_llvmItems, lookup_of_get held rfl]
  rfl

/-- A bool that equals one is no integer to the library. -/
theorem version_llvmItems {envelope : Dict}
    (version : eqInt (get envelope "schemaVersion") 1 = true) :
    (Json.Object.getInteger (llvmItems nearest envelope) "schemaVersion").getD (-1) =
      kAgreementEnvelopeVersion ↔ ∀ value, get envelope "schemaVersion" ≠ .bool value := by
  have present : isNone (get envelope "schemaVersion") = false := by
    cases held : get envelope "schemaVersion" <;> rw [held] at version <;>
      first | rfl | cases version
  rw [Json.Object.getInteger, get_llvmItems, lookup_of_get rfl present]
  cases held : get envelope "schemaVersion" with
  | bool value =>
      constructor
      · intro same
        cases same
      · intro other
        exact absurd rfl (other value)
  | int value =>
      rw [held] at version
      simp only [eqInt, decide_eq_true_eq] at version
      subst version
      simp [llvm, llvmNumber, Json.asInteger, Json.Number.asInteger, kAgreementEnvelopeVersion]
  | float value =>
      rw [held] at version
      simp only [eqInt, decide_eq_true_eq] at version
      subst version
      simp [llvm, Json.asInteger, Json.Number.asInteger, kAgreementEnvelopeVersion]
  | _ =>
      rw [held] at version
      cases version

/-- The text that the library writes of a document. -/
def libraryText (printDouble : Rat → String) (nearest : Int → Rat) (document : PyJson) : String :=
  String.ofList (render (llvmPrinter printDouble nearest) document)

theorem dumps_eq_iff (texts : NumberTexts repr printDouble) {document : PyJson} :
    dumps repr document = libraryText printDouble nearest document ↔
      Plain repr printDouble nearest document := by
  rw [dumps, libraryText, ← alike_iff_plain, ← render_eq_iff (joint_printers texts)]
  exact ⟨fun same => String.ofList_injective same, congrArg String.ofList⟩

theorem compactJson_llvmItems
    (writes : ∀ json, text.compactJson json = String.ofList (written printDouble json))
    (items : Dict) : text.compactJson (.object (llvmItems nearest items)) =
      libraryText printDouble nearest (.dict items) := by
  have same : written printDouble (.object (llvmItems nearest items)) =
      render (llvmPrinter printDouble nearest) (.dict items) := written_llvm (.dict items)
  rw [writes, same, libraryText]

theorem frame_injective {left right : List UInt8} (same : Framing.frame left = Framing.frame right) :
    left = right := by
  simp only [Framing.frame] at same
  exact (List.append_inj same (by simp [Framing.lengthBytes])).2

theorem preimage_injective {domain language bytes envelope other : String}
    (same : agreementHashPreimage domain language bytes envelope =
      agreementHashPreimage domain language bytes other) : envelope = other := by
  simp only [agreementHashPreimage, framed, Framing.frames, List.map_cons, List.map_nil,
    List.flatMap_cons, List.flatMap_nil, List.append_nil] at same
  exact utf8_injective (frame_injective (List.append_cancel_left (List.append_cancel_left
    (List.append_cancel_left same))))

/-- The hash tells two byte strings apart. -/
def HashTells (sha256Hex : List UInt8 → String) (first second : List UInt8) : Prop :=
  sha256Hex first = sha256Hex second → first = second

/-- What the verification in the library comes down to, for members of the right types. -/
theorem verify_llvmItems
    (writes : ∀ json, text.compactJson json = String.ofList (written printDouble json))
    {artifact envelope identity spec declaring : Dict} {declared capabilityHash agreementHash : String}
    (shaped : Shaped artifact envelope identity)
    (identified : get spec "identity" = .dict declaring)
    (declares : get declaring "capabilityHash" = .str declared)
    (hash : get artifact "capabilityHash" = .str capabilityHash)
    (bound : get identity "agreementHash" = .str agreementHash) :
    verifyAgreementIdentity sha256Hex text (llvmItems nearest artifact) (llvmItems nearest spec) =
        .ok () ↔
      (∀ value, get envelope "schemaVersion" ≠ .bool value) ∧
      sha256Hex (utf8 (libraryText printDouble nearest (.dict (semanticItems spec)))) = declared ∧
      capabilityHash =
        sha256Hex (utf8 (libraryText printDouble nearest (.dict (semanticItems spec)))) ∧
      agreementHash = agreementHashOf sha256Hex
        (libraryText printDouble nearest (.dict (semanticItems spec)))
        (libraryText printDouble nearest (.dict envelope)) := by
  have declaredHash : ((Json.Object.getObject (llvmItems nearest spec) "identity").bind
      fun identity => identity.getString "capabilityHash") = some declared := by
    rw [getObject_llvmItems identified, Option.bind_some, getString_llvmItems declares]
  rw [verifyAgreementIdentity, Checked.check_ok, Checked.check_ok, Checked.require_ok,
    Checked.require_ok, getObject_llvmItems shaped.enveloped]
  simp only [canonicalCapabilitySpecBytesFromSpec, declaredHash, semanticMembers_llvmItems,
    compactJson_llvmItems writes, Checked.require_ok, Checked.bind_ok, Checked.pure_ok, version_llvmItems shaped.version, Json.Object.stringOr,
    getString_llvmItems shaped.domain, getString_llvmItems shaped.language,
    getString_llvmItems hash, agreementHashIn, getObject_llvmItems shaped.identified,
    getString_llvmItems bound, Option.getD_some, Option.map_some, Option.some.injEq, true_and]
  constructor
  · rintro ⟨_, version, bytes, ⟨_, core, rfl⟩, _, same, recomputed⟩
    exact ⟨version, core, same, recomputed⟩
  · rintro ⟨version, core, same, recomputed⟩
    exact ⟨(), version, _, ⟨(), core, rfl⟩, (), same, recomputed⟩

end Library

/-! The condition on a pair that Python accepts. -/

def envelopeOf : PyJson → PyJson
  | .dict artifact => get artifact "envelope"
  | _ => .none

def versionOf : PyJson → PyJson
  | .dict envelope => get envelope "schemaVersion"
  | _ => .none

def coreOf : PyJson → PyJson
  | .dict spec => .dict (semanticItems spec)
  | _ => .none

section Pair

variable (repr printDouble : Rat → String) (nearest : Int → Rat) (sha256Hex : List UInt8 → String)

/-- The envelope's version is written as a number, and both printers write the semantic core and
the envelope alike. -/
structure Portable (artifact spec : PyJson) : Prop where
  version : ∀ value, versionOf (envelopeOf artifact) ≠ .bool value
  core : Plain repr printDouble nearest (coreOf spec)
  envelope : Plain repr printDouble nearest (envelopeOf artifact)

/-- The hash tells the two printers' texts apart. -/
structure TellsTexts (artifact spec : PyJson) : Prop where
  core : HashTells sha256Hex (utf8 (libraryText printDouble nearest (coreOf spec)))
    (utf8 (dumps repr (coreOf spec)))
  identity : HashTells sha256Hex
    (agreementHashPreimage kAgreementDomain kSemanticLanguageVersion (dumps repr (coreOf spec))
      (dumps repr (envelopeOf artifact)))
    (agreementHashPreimage kAgreementDomain kSemanticLanguageVersion (dumps repr (coreOf spec))
      (libraryText printDouble nearest (envelopeOf artifact)))

variable {repr printDouble nearest sha256Hex} {text : Projection.JsonText}
  {quoted : String → String}

theorem libraryAccepts_iff (texts : NumberTexts repr printDouble)
    (writes : ∀ json, text.compactJson json = String.ofList (written printDouble json))
    {a s : PyJson} (accepted : PythonAccepts quoted repr sha256Hex a s)
    (tells : TellsTexts repr printDouble nearest sha256Hex a s) :
    LibraryAccepts nearest sha256Hex text a s ↔ Portable repr printDouble nearest a s := by
  obtain ⟨artifact, envelope, identity, rfl, shaped⟩ := validateShape_nil accepted.1
  obtain ⟨spec, declaring, rfl, declares, hash, bound⟩ := verifyHashes_nil shaped accepted.2
  obtain ⟨tellsCore, tellsIdentity⟩ := tells
  simp only [envelopeOf, shaped.enveloped, coreOf] at tellsCore tellsIdentity
  have library : LibraryAccepts nearest sha256Hex text (.dict artifact) (.dict spec) ↔
      verifyAgreementIdentity sha256Hex text (llvmItems nearest artifact) (llvmItems nearest spec) =
        .ok () := by
    simp [LibraryAccepts, llvm]
  rw [library, verify_llvmItems writes shaped declares.identified declares.declared hash bound]
  constructor
  · rintro ⟨version, core, _, recomputed⟩
    have cores := utf8_injective (tellsCore core)
    rw [cores] at recomputed
    have envelopes := preimage_injective (tellsIdentity recomputed)
    refine ⟨?_, ?_, ?_⟩
    · simpa only [envelopeOf, shaped.enveloped, versionOf] using version
    · exact (dumps_eq_iff texts).mp cores.symm
    · simpa only [envelopeOf, shaped.enveloped] using (dumps_eq_iff texts).mp envelopes
  · rintro ⟨version, core, enveloped⟩
    simp only [envelopeOf, shaped.enveloped, versionOf, coreOf] at version core enveloped
    rw [← (dumps_eq_iff texts).mpr core, ← (dumps_eq_iff texts).mpr enveloped]
    exact ⟨version, rfl, rfl, rfl⟩

end Pair

/-! Emitted documents. -/

section Emitted

variable {repr printDouble : Rat → String} {nearest : Int → Rat} {sha256Hex : List UInt8 → String}
  {text : Projection.JsonText} {quoted : String → String}

theorem lookup_ofMembers (members : Json.Object) (key : String) :
    (PyJson.ofMembers members).lookup key = (Json.Object.get members key).map ofJson := by
  induction members with
  | nil => rfl
  | cons member rest ih =>
      obtain ⟨name, value⟩ := member
      rw [PyJson.ofMembers, Json.Object.get_cons, List.lookup_cons, ih]
      by_cases same : name = key
      · simp [same]
      · have other : (key == name) = false := by simpa using Ne.symm same
        rw [if_neg same, other]

theorem lookup_ofMembers_ofMembers (members : List (String × Json)) (key : String) :
    (PyJson.ofMembers (Json.Object.ofMembers members)).lookup key =
      (Json.Object.get members key).map ofJson := by
  rw [lookup_ofMembers, Json.Object.get_ofMembers]

theorem semanticItems_ofMembers (members : Json.Object) :
    semanticItems (PyJson.ofMembers members) = PyJson.ofMembers (semanticMembers members) := by
  induction members with
  | nil => rfl
  | cons member rest ih =>
      obtain ⟨name, value⟩ := member
      rw [semanticItems] at ih ⊢
      rw [semanticMembers] at ih ⊢
      rw [PyJson.ofMembers, List.filter_cons, List.filter_cons]
      by_cases outside : isOutside name = true
      · simpa [outside] using ih
      · simp [outside, PyJson.ofMembers, ih]

/-- Every text inside is plain. -/
def PlainTexts (document : PyJson) : Prop :=
  Every PlainText (fun _ => True) (fun _ => True) document

mutual

/-- In a document without doubles only the texts can differ. -/
theorem plain_ofJson : (json : Json) → json.Integral →
    (Plain repr printDouble nearest (ofJson json) ↔ PlainTexts (ofJson json))
  | .null, _ | .boolean _, _ | .string _, _ => by simp [Plain, PlainTexts, ofJson, Every]
  | .number (.integer value), _ => by simp [Plain, PlainTexts, ofJson, Every, isLong_int64]
  | .number (.unsigned value), _ => by simp [Plain, PlainTexts, ofJson, Every, isLong_uint64]
  | .array elements, integral => by
      simpa [Plain, PlainTexts, ofJson, Every] using plain_ofElements elements integral
  | .object members, integral => by
      simpa [Plain, PlainTexts, ofJson, Every] using plain_ofMembers members integral

theorem plain_ofElements : (elements : List Json) → AllIntegral elements →
    (EveryElement PlainText (fun value => isLong value = true ∨
      printDouble (nearest value) = toString value) (fun value => repr value = printDouble value)
      (ofElements elements) ↔
    EveryElement PlainText (fun _ => True) (fun _ => True) (ofElements elements))
  | [], _ => by simp [ofElements, EveryElement]
  | element :: rest, integral => by
      simp only [ofElements, EveryElement, plain_ofElements rest integral.2]
      exact and_congr_left' (plain_ofJson element integral.1)

theorem plain_ofMembers : (members : Json.Object) → MembersIntegral members →
    (EveryItem PlainText (fun value => isLong value = true ∨
      printDouble (nearest value) = toString value) (fun value => repr value = printDouble value)
      (PyJson.ofMembers members) ↔
    EveryItem PlainText (fun _ => True) (fun _ => True) (PyJson.ofMembers members))
  | [], _ => by simp [PyJson.ofMembers, EveryItem]
  | (key, value) :: rest, integral => by
      simp only [PyJson.ofMembers, EveryItem, plain_ofMembers rest integral.2]
      exact and_congr_right' (and_congr_left' (plain_ofJson value integral.1))

end

theorem everyItem_ofMembers {str : String → Prop} {int : Int → Prop} {float : Rat → Prop}
    {members : Json.Object} : EveryItem str int float (PyJson.ofMembers members) ↔
      ∀ member ∈ members, str member.1 ∧ Every str int float (ofJson member.2) := by
  induction members with
  | nil => simp [PyJson.ofMembers, EveryItem]
  | cons member rest ih =>
      obtain ⟨key, value⟩ := member
      simp [PyJson.ofMembers, EveryItem, ih, and_assoc]

theorem plainTexts_envelope : PlainTexts (ofJson (.object agreementEnvelopeJson)) := by
  rw [PlainTexts, ofJson, Every, everyItem_ofMembers]
  intro member listed
  have written := mem_ofMembers listed
  simp only [List.mem_cons, List.not_mem_nil, or_false] at written
  rcases written with rfl | rfl | rfl | rfl
  · exact ⟨by decide, trivial⟩
  · exact ⟨by decide, trivial⟩
  · exact ⟨by decide, trivial⟩
  · exact ⟨by decide, trivial⟩

/-- A dict read from members that were put in the order of their keys. -/
theorem get_ofJson (members : List (String × Json)) (key : String) :
    get (PyJson.ofMembers (Json.Object.ofMembers members)) key =
      ((Json.Object.get members key).map ofJson).getD .none := by
  rw [PyJson.get, lookup_ofMembers_ofMembers]

theorem missingFields_ofMembers {members : List (String × Json)} {allowed : List String}
    {context : String} (present : ∀ key ∈ allowed, (Json.Object.get members key).isSome) :
    missingFields (PyJson.ofMembers (Json.Object.ofMembers members)) allowed context = [] := by
  rw [missingFields, List.map_eq_nil_iff, List.filter_eq_nil_iff]
  intro key listed
  have there := present key listed
  rw [has, lookup_ofMembers_ofMembers, Option.isSome_map, there]
  decide

theorem unknownFields_ofMembers {members : List (String × Json)} {allowed : List String}
    {context : String} (known : ∀ member ∈ members, member.1 ∈ allowed) :
    unknownFields (PyJson.ofMembers (Json.Object.ofMembers members)) allowed context = [] := by
  rw [unknownFields, List.map_eq_nil_iff, List.filter_eq_nil_iff]
  have keys : ∀ object : Json.Object, ∀ item ∈ PyJson.ofMembers object,
      ∃ member ∈ object, member.1 = item.1 := by
    intro object
    induction object with
    | nil => simp [PyJson.ofMembers]
    | cons member rest ih =>
        intro item listed
        rcases List.mem_cons.mp listed with rfl | later
        · exact ⟨member, List.mem_cons_self, rfl⟩
        · obtain ⟨other, inside, same⟩ := ih item later
          exact ⟨other, List.mem_cons_of_mem _ inside, same⟩
  intro item listed
  obtain ⟨member, inside, same⟩ := keys _ item listed
  simp [← same, known member (mem_ofMembers inside)]

theorem envelopeErrors_emitted :
    envelopeErrors (ofJson (.object agreementEnvelopeJson)) = [] := by
  simp only [ofJson, agreementEnvelopeJson, envelopeErrors, policyErrors, List.append_eq_nil_iff,
    complain_eq_nil, get_ofJson]
  refine ⟨⟨⟨⟨⟨missingFields_ofMembers ?_, unknownFields_ofMembers ?_⟩, ?_⟩, ?_⟩, ?_⟩, ?_⟩
  · simp [envelopeFields, Json.Object.get_cons]
  · simp [envelopeFields]
  · simp [Json.Object.get_cons, ofJson, eqInt, kAgreementEnvelopeVersion]
  · simp [Json.Object.get_cons, ofJson, isNone]
  · simp [Json.Object.get_cons, ofJson, isNone]
  · simp [Json.Object.get_cons, ofJson, ofElements, areClauseIds]

theorem isHexDigest_ofJson (hex : ∀ bytes, matchesHex64 (sha256Hex bytes) = true)
    (bytes : List UInt8) : isHexDigest (ofJson (.string (sha256Hex bytes))) = true := by
  rw [ofJson, isHexDigest, hex]

theorem validateShape_emitted (hex : ∀ bytes, matchesHex64 (sha256Hex bytes) = true)
    (bytes : String) :
    validateShape quoted (ofJson (.object (agreementIdentityObject sha256Hex text bytes))) = [] := by
  simp only [ofJson, agreementIdentityObject, validateShape, List.append_eq_nil_iff,
    complain_eq_nil, get_ofJson]
  refine ⟨⟨⟨⟨⟨⟨⟨missingFields_ofMembers ?_, unknownFields_ofMembers ?_⟩, ?_⟩, ?_⟩, ?_⟩, ?_⟩, ?_⟩,
    ?_⟩
  · simp [topFields, Json.Object.get_cons]
  · simp [topFields]
  · simp [Json.Object.get_cons, ofJson, eqStr]
  · simp [Json.Object.get_cons, ofJson, eqStr]
  · have known : matchesSemver kSemanticLanguageVersion = true := by decide +kernel
    simp [Json.Object.get_cons, ofJson, languageErrors, known]
  · simpa [Json.Object.get_cons] using isHexDigest_ofJson hex _
  · simpa [Json.Object.get_cons] using envelopeErrors_emitted
  · simp only [Json.Object.get_cons, objectOf, Option.map_some, Option.getD_some, ofJson,
      identityErrors, if_true, if_false, String.reduceEq, List.append_eq_nil_iff,
      complain_eq_nil, get_ofJson]
    refine ⟨⟨missingFields_ofMembers ?_, unknownFields_ofMembers ?_⟩, ?_⟩
    · simp [identityFields, Json.Object.get_cons]
    · simp [identityFields]
    · simp [isHexDigest, agreementHashOf, hex]

theorem ne_empty_of_hex {digest : String} (hex : matchesHex64 digest = true) : digest ≠ "" := by
  rintro rfl
  revert hex
  decide

theorem truthy_of_get {items : Dict} {key text : String} (held : get items key = .str text) :
    truthy (.dict items) = true := by
  cases items with
  | nil => cases held
  | cons => rfl

/-- The canonical bytes of a spec with a declared hash. -/
theorem canonicalCapabilityBytes_declared {spec declaring : Dict} {declared : String}
    (identified : get spec "identity" = .dict declaring)
    (declares : get declaring "capabilityHash" = .str declared) (nonempty : declared ≠ "") :
    canonicalCapabilityBytes repr sha256Hex (.dict spec) =
      .ok (if declared = sha256Hex (utf8 (dumps repr (.dict (semanticItems spec))))
        then .ok (dumps repr (.dict (semanticItems spec)))
        else .error ("capability-spec capabilityHash mismatch — its semantic core does not hash to " ++
          "the declared identity (tampered)")) := by
  have filled : truthy (.str declared) = true := by simpa [truthy] using nonempty
  simp only [canonicalCapabilityBytes, identified, truthy_of_get declares, if_true, getOf, declares,
    Except.map, filled, Bool.not_true, Bool.false_eq_true, if_false]
  by_cases same : declared = sha256Hex (utf8 (dumps repr (.dict (semanticItems spec))))
  · rw [if_pos same, if_neg (by simp [eqStr, same])]
  · rw [if_neg same, if_pos (by simp [eqStr, same])]

/-- The hash that Python reads in an emitted spec. -/
theorem identity_emitted (view : ProcedureView) (plan : CoordinationPlan) :
    ∃ declaring, get (PyJson.ofMembers (CapabilitySpec.specDocument sha256Hex text view plan))
        "identity" = .dict declaring ∧
      get declaring "capabilityHash" =
        .str (CapabilitySpec.capabilityHashOf sha256Hex text view plan) := by
  refine ⟨PyJson.ofMembers (Json.Object.ofMembers [("capabilityHash",
      .string (CapabilitySpec.capabilityHashOf sha256Hex text view plan)),
      ("specHash", .string (sha256Hex (utf8 (text.compactJson
        (.object (CapabilitySpec.specBody sha256Hex text view plan))))))]), ?_, ?_⟩
  · rw [PyJson.get, lookup_ofMembers, CapabilitySpec.specDocument, Json.Object.get_put]
    rfl
  · rw [get_ofJson]
    simp [Json.Object.get_cons, ofJson]

theorem compactJson_ofJson
    (writes : ∀ json, text.compactJson json = String.ofList (written printDouble json))
    (json : Json) : text.compactJson json = libraryText printDouble nearest (ofJson json) := by
  rw [writes, libraryText, render_ofJson]

theorem printable_envelope : Printable (.object agreementEnvelopeJson) := by
  refine printable_objectOf ?_
  simp only [List.forall_mem_cons]
  exact ⟨⟨trivial, trivial⟩, by simp, by simp, ⟨trivial, trivial⟩, by simp⟩

/-- An emitted identity recomputes from the text it was made of. -/
theorem hashErrors_emitted
    (envelope : dumps repr (ofJson (.object agreementEnvelopeJson)) =
      text.compactJson (.object agreementEnvelopeJson)) (bytes : String) :
    hashErrors repr sha256Hex
      (.dict (PyJson.ofMembers (agreementIdentityObject sha256Hex text bytes))) bytes = .ok [] := by
  have member : ∀ key, (PyJson.ofMembers (agreementIdentityObject sha256Hex text bytes)).lookup key =
      _ := fun key => lookup_ofMembers_ofMembers _ key
  have declared : (PyJson.ofMembers (agreementIdentityObject sha256Hex text bytes)).lookup
      "capabilityHash" = some (.str (sha256Hex (utf8 bytes))) := by
    simp [member, Json.Object.get_cons, ofJson]
  have enveloped : (PyJson.ofMembers (agreementIdentityObject sha256Hex text bytes)).lookup
      "envelope" = some (ofJson (.object agreementEnvelopeJson)) := by
    simp [member, Json.Object.get_cons]
  have language : (PyJson.ofMembers (agreementIdentityObject sha256Hex text bytes)).lookup
      "semanticLanguageVersion" = some (.str kSemanticLanguageVersion) := by
    simp [member, Json.Object.get_cons, ofJson]
  have identity : (PyJson.ofMembers (agreementIdentityObject sha256Hex text bytes)).lookup
      "identity" = some (.dict (PyJson.ofMembers (Json.Object.ofMembers [("agreementHash",
        .string (agreementHashOf sha256Hex bytes
          (text.compactJson (.object agreementEnvelopeJson))))]))) := by
    simp [member, Json.Object.get_cons, ofJson, objectOf]
  simp only [hashErrors, getOf, PyJson.get, declared, subscript, enveloped, language, encode,
    identityOr, identity, lookup_ofMembers_ofMembers, Json.Object.get_cons, if_true,
    Option.map_some, ofJson_string, Option.elim_some, Option.getD_some, Checked.ok_bind,
    Checked.pure_ok, List.append_eq_nil_iff, complain_eq_nil, envelope, eqStr, agreementHashOf,
    decide_true, Bool.not_true, and_self]

/-- An emitted spec whose identity Python accepts declares the hash of Python's own text. -/
theorem hash_of_accepts (hex : ∀ bytes, matchesHex64 (sha256Hex bytes) = true)
    (view : ProcedureView) (plan : CoordinationPlan) {artifact : PyJson}
    (accepted : PythonAccepts quoted repr sha256Hex artifact
      (ofJson (.object (CapabilitySpec.specDocument sha256Hex text view plan)))) :
    CapabilitySpec.capabilityHashOf sha256Hex text view plan =
      sha256Hex (utf8 (dumps repr (ofJson (.object (CapabilitySpec.semanticCore view plan))))) := by
  obtain ⟨declaring, identified, declares⟩ := @identity_emitted sha256Hex text view plan
  have read := @canonicalCapabilityBytes_declared repr sha256Hex _ _ _ identified declares
    (ne_empty_of_hex (hex _))
  rw [semanticItems_ofMembers, semanticMembers_specDocument] at read
  have valid := accepted.2
  rw [ofJson, verifyHashes, read, Checked.ok_bind] at valid
  rw [ofJson]
  by_contra other
  rw [if_neg other] at valid
  cases valid

theorem integral_core (view : ProcedureView) (plan : CoordinationPlan) :
    (Json.object (CapabilitySpec.semanticCore view plan)).Integral :=
  (CapabilitySpec.printable_core view plan).integral

/-- Both write the semantic core alike exactly when its texts are plain. -/
theorem dumps_core_iff (texts : NumberTexts repr printDouble)
    (writes : ∀ json, text.compactJson json = String.ofList (written printDouble json))
    (view : ProcedureView) (plan : CoordinationPlan) :
    dumps repr (ofJson (.object (CapabilitySpec.semanticCore view plan))) =
      CapabilitySpec.canonicalSemanticBytes text view plan ↔
        PlainTexts (ofJson (.object (CapabilitySpec.semanticCore view plan))) := by
  have written := @compactJson_ofJson printDouble (fun _ => 0) text writes
    (.object (CapabilitySpec.semanticCore view plan))
  rw [CapabilitySpec.canonicalSemanticBytes, written, dumps_eq_iff texts,
    plain_ofJson _ (integral_core view plan)]

theorem dumps_envelope (texts : NumberTexts repr printDouble)
    (writes : ∀ json, text.compactJson json = String.ofList (written printDouble json)) :
    dumps repr (ofJson (.object agreementEnvelopeJson)) =
      text.compactJson (.object agreementEnvelopeJson) := by
  have written := @compactJson_ofJson printDouble (fun _ => 0) text writes
    (.object agreementEnvelopeJson)
  rw [written, dumps_eq_iff texts, plain_ofJson _ printable_envelope.integral]
  exact plainTexts_envelope

/-- Python accepts an emitted identity against its spec when both write the semantic core alike. -/
theorem accepts_of_plain (texts : NumberTexts repr printDouble)
    (writes : ∀ json, text.compactJson json = String.ofList (written printDouble json))
    (hex : ∀ bytes, matchesHex64 (sha256Hex bytes) = true)
    (view : ProcedureView) (plan : CoordinationPlan)
    (plain : PlainTexts (ofJson (.object (CapabilitySpec.semanticCore view plan)))) :
    PythonAccepts quoted repr sha256Hex
      (ofJson (.object (agreementIdentityObject sha256Hex text
        (CapabilitySpec.canonicalSemanticBytes text view plan))))
      (ofJson (.object (CapabilitySpec.specDocument sha256Hex text view plan))) := by
  obtain ⟨declaring, identified, declares⟩ := @identity_emitted sha256Hex text view plan
  have read := @canonicalCapabilityBytes_declared repr sha256Hex _ _ _ identified declares
    (ne_empty_of_hex (hex _))
  rw [semanticItems_ofMembers, semanticMembers_specDocument] at read
  have same := (dumps_core_iff texts writes view plan).mpr plain
  rw [ofJson] at same
  have hash : CapabilitySpec.capabilityHashOf sha256Hex text view plan =
      sha256Hex (utf8 (CapabilitySpec.canonicalSemanticBytes text view plan)) := rfl
  refine ⟨validateShape_emitted hex _, ?_⟩
  rw [ofJson, ofJson, verifyHashes, read, Checked.ok_bind, same, if_pos hash]
  exact hashErrors_emitted (dumps_envelope texts writes) _

theorem coreOf_emitted (view : ProcedureView) (plan : CoordinationPlan) :
    coreOf (ofJson (.object (CapabilitySpec.specDocument sha256Hex text view plan))) =
      ofJson (.object (CapabilitySpec.semanticCore view plan)) := by
  rw [ofJson, coreOf, semanticItems_ofMembers, semanticMembers_specDocument, ofJson]

theorem envelopeOf_emitted (bytes : String) :
    envelopeOf (ofJson (.object (agreementIdentityObject sha256Hex text bytes))) =
      ofJson (.object agreementEnvelopeJson) := by
  rw [ofJson, envelopeOf, agreementIdentityObject, get_ofJson]
  simp [Json.Object.get_cons]

theorem versionOf_emitted : versionOf (ofJson (.object agreementEnvelopeJson)) = .int 1 := by
  rw [ofJson, versionOf, agreementEnvelopeJson, get_ofJson]
  simp [Json.Object.get_cons, ofJson, kAgreementEnvelopeVersion]

theorem portable_emitted (view : ProcedureView) (plan : CoordinationPlan)
    (plain : PlainTexts (ofJson (.object (CapabilitySpec.semanticCore view plan)))) :
    Portable repr printDouble nearest
      (ofJson (.object (agreementIdentityObject sha256Hex text
        (CapabilitySpec.canonicalSemanticBytes text view plan))))
      (ofJson (.object (CapabilitySpec.specDocument sha256Hex text view plan))) := by
  constructor
  · intro value
    rw [envelopeOf_emitted, versionOf_emitted]
    exact PyJson.noConfusion
  · rw [coreOf_emitted]
    exact (plain_ofJson _ (integral_core view plan)).mpr plain
  · rw [envelopeOf_emitted]
    exact (plain_ofJson _ printable_envelope.integral).mpr plainTexts_envelope

end Emitted

/-- A pair that Python accepts is accepted by the library exactly when it is portable; an emitted
identity is accepted by Python exactly when the texts of its semantic core are plain. -/
theorem identity_checks_agree (quoted : String → String) (repr printDouble : Rat → String)
    (nearest : Int → Rat) (sha256Hex : List UInt8 → String) (text : Projection.JsonText)
    (indented : Json → String) (load : String → Option PyJson)
    (texts : NumberTexts repr printDouble)
    (writes : ∀ json, text.compactJson json = String.ofList (written printDouble json))
    (hex : ∀ bytes, matchesHex64 (sha256Hex bytes) = true)
    (loads : ∀ json : Json, json.Printable → load (indented json ++ "\n") = some (ofJson json)) :
    (∀ artifact spec, PythonAccepts quoted repr sha256Hex artifact spec →
      TellsTexts repr printDouble nearest sha256Hex artifact spec →
      (LibraryAccepts nearest sha256Hex text artifact spec ↔
        Portable repr printDouble nearest artifact spec)) ∧
    ∀ view plan, ∃ artifactText artifact spec,
      agreementIdentityFromSpec sha256Hex text indented
        (CapabilitySpec.specDocument sha256Hex text view plan) = .ok artifactText ∧
      load artifactText = some artifact ∧
      load (CapabilitySpec.capabilitySpecJson sha256Hex text indented view plan) = some spec ∧
      (HashTells sha256Hex (utf8 (CapabilitySpec.canonicalSemanticBytes text view plan))
          (utf8 (dumps repr (coreOf spec))) →
        (PythonAccepts quoted repr sha256Hex artifact spec ↔ PlainTexts (coreOf spec))) := by
  refine ⟨fun artifact spec accepted tells => libraryAccepts_iff texts writes accepted tells, ?_⟩
  intro view plan
  refine ⟨_, _, _, fromSpec_specDocument view plan, loads _ (printable_identity _),
    loads _ (CapabilitySpec.printable_spec sha256Hex text view plan), ?_⟩
  rw [coreOf_emitted]
  intro tells
  constructor
  · intro accepted
    have same := utf8_injective (tells (hash_of_accepts hex view plan accepted))
    exact (dumps_core_iff texts writes view plan).mp same.symm
  · exact accepts_of_plain texts writes hex view plan

/-! A spec with a control character. -/

/-- Doubles as fractions. -/
def fraction (value : Rat) : String := toString value.num ++ "/" ++ toString value.den

theorem fraction_free (value : Rat) : ∀ c ∈ (fraction value).toList, isDelimiter c = false := by
  intro c listed
  rw [fraction, String.toList_append, String.toList_append] at listed
  rcases List.mem_append.mp listed with inside | inside
  · rcases List.mem_append.mp inside with inside | inside
    · exact toString_free value.num c inside
    · have slash : c = '/' := by simpa using inside
      subst slash
      rfl
  · exact toString_free value.den c inside

def fractionText : Projection.JsonText where
  compactJson json := String.ofList (written fraction json)
  parse := squeezedText.parse

def loadText (text : String) : Option PyJson := (squeezedText.parse text).toOption.map ofJson

theorem loadText_indented (json : Json) (printable : json.Printable) :
    loadText (json.indented ++ "\n") = some (ofJson json) := by
  rw [loadText, squeezedText_reads printable]
  rfl

/-- A digest of thirty-two bytes that tells byte strings of different lengths apart. -/
def lengthDigest (bytes : List UInt8) : String :=
  HexText.hexText ((List.range 32).map fun index => UInt8.ofNat (bytes.length / 256 ^ index))

theorem isHexDigit_digit : ∀ value < 16, isHexDigit (HexText.digit value) = true := by
  decide

theorem hexText_digits (bytes : List UInt8) :
    ∀ c ∈ (HexText.hexText bytes).toList, isHexDigit c = true := by
  intro c listed
  rw [HexText.hexText, String.toList_ofList] at listed
  obtain ⟨byte, _, inside⟩ := List.mem_flatMap.mp listed
  have bound := byte.toNat_lt
  simp only [List.mem_cons, List.not_mem_nil, or_false] at inside
  rcases inside with rfl | rfl
  · exact isHexDigit_digit _ (by omega)
  · exact isHexDigit_digit _ (by omega)

theorem hexText_length (bytes : List UInt8) :
    (HexText.hexText bytes).toList.length = 2 * bytes.length := by
  rw [HexText.hexText, String.toList_ofList]
  induction bytes with
  | nil => rfl
  | cons byte rest ih =>
      rw [List.flatMap_cons, List.length_append, ih]
      simp
      omega

theorem matchesHex64_lengthDigest (bytes : List UInt8) :
    matchesHex64 (lengthDigest bytes) = true := by
  have digits : ∀ c ∈ (lengthDigest bytes).toList, isHexDigit c = true := hexText_digits _
  have unended : (lengthDigest bytes).toList.getLast? ≠ some '\n' := by
    intro ended
    have last := digits '\n' (List.mem_of_getLast? ended)
    cases last
  have whole : beforeEnd (lengthDigest bytes) = (lengthDigest bytes).toList := if_neg unended
  have length : (lengthDigest bytes).toList.length = 64 := by
    rw [lengthDigest, hexText_length, List.length_map, List.length_range]
  rw [matchesHex64, whole, length, Bool.and_eq_true, List.all_eq_true]
  exact ⟨by decide, digits⟩

def controlView : ProcedureView :=
  viewOf ⟨"anchor", some "\x08", none, none, [⟨.input "key" "string", 3⟩]⟩

theorem utf8_length (text : String) : (utf8 text).length = text.utf8ByteSize := by
  rw [utf8, Array.length_toList]
  rfl

/-- The library writes the control character in six bytes, Python in two. -/
theorem control_hashes_differ : CapabilitySpec.capabilityHashOf lengthDigest fractionText
    controlView default ≠ lengthDigest (utf8 (dumps fraction
      (ofJson (.object (CapabilitySpec.semanticCore controlView default))))) := by
  have library : (utf8 (CapabilitySpec.canonicalSemanticBytes fractionText controlView
      default)).length = 1680 := by
    rw [utf8_length]
    refine (String.utf8ByteSize_ofList _).trans ?_
    decide +kernel
  have python : (utf8 (dumps fraction (ofJson (.object (CapabilitySpec.semanticCore controlView
      default))))).length = 1676 := by
    rw [utf8_length]
    refine (String.utf8ByteSize_ofList _).trans ?_
    decide +kernel
  rw [CapabilitySpec.capabilityHashOf, lengthDigest, lengthDigest, library, python]
  decide +kernel

/-- The identity derived from an emitted spec with a backspace is rejected by Python. -/
theorem control_identity_rejected : ∃ artifactText artifact spec,
    agreementIdentityFromSpec lengthDigest fractionText Json.indented
      (CapabilitySpec.specDocument lengthDigest fractionText controlView default) =
        .ok artifactText ∧
    loadText artifactText = some artifact ∧
    loadText (CapabilitySpec.capabilitySpecJson lengthDigest fractionText Json.indented controlView
      default) = some spec ∧
    ¬PythonAccepts quote fraction lengthDigest artifact spec := by
  refine ⟨_, _, _, fromSpec_specDocument controlView default,
    loadText_indented _ (printable_identity _),
    loadText_indented _ (CapabilitySpec.printable_spec _ _ controlView default), ?_⟩
  intro accepted
  exact control_hashes_differ (hash_of_accepts matchesHex64_lengthDigest controlView default accepted)

theorem numberTexts_fraction : NumberTexts fraction fraction := ⟨fraction_free, fraction_free⟩

theorem plainTexts_anchor :
    PlainTexts (ofJson (.object (CapabilitySpec.semanticCore anchorView default))) := by
  have same : dumps fraction (ofJson (.object (CapabilitySpec.semanticCore anchorView default))) =
      CapabilitySpec.canonicalSemanticBytes fractionText anchorView default := by
    refine congrArg String.ofList ?_
    decide +kernel
  exact (dumps_core_iff numberTexts_fraction (fun _ => rfl) anchorView default).mp same

def anchorArtifact : PyJson := ofJson (.object (agreementIdentityObject lengthDigest fractionText
  (CapabilitySpec.canonicalSemanticBytes fractionText anchorView default)))

def anchorDocument : PyJson :=
  ofJson (.object (CapabilitySpec.specDocument lengthDigest fractionText anchorView default))

theorem anchor_portable : Portable fraction fraction (fun _ => 0) anchorArtifact anchorDocument :=
  portable_emitted anchorView default plainTexts_anchor

/-- The identity of an empty procedure is accepted by both. -/
theorem anchor_identity_accepted :
    PythonAccepts quote fraction lengthDigest anchorArtifact anchorDocument ∧
      LibraryAccepts (fun _ => 0) lengthDigest fractionText anchorArtifact anchorDocument := by
  have accepted : PythonAccepts quote fraction lengthDigest anchorArtifact anchorDocument :=
    accepts_of_plain numberTexts_fraction (fun _ => rfl) matchesHex64_lengthDigest anchorView
      default plainTexts_anchor
  have core := (dumps_eq_iff numberTexts_fraction).mpr anchor_portable.core
  have envelope := (dumps_eq_iff numberTexts_fraction).mpr anchor_portable.envelope
  have tells : TellsTexts fraction fraction (fun _ => 0) lengthDigest anchorArtifact
      anchorDocument :=
    ⟨fun _ => by rw [core], fun _ => by rw [envelope]⟩
  have agree := identity_checks_agree quote fraction fraction (fun _ => 0) lengthDigest fractionText
    Json.indented loadText numberTexts_fraction (fun _ => rfl) matchesHex64_lengthDigest
    loadText_indented
  exact ⟨accepted, (agree.1 anchorArtifact anchorDocument accepted tells).mpr anchor_portable⟩

end Neutrino.Agreement
