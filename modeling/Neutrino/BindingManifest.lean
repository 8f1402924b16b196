import Neutrino.PythonOperators

/-! The validator of binding manifests: the diagnostics it reports of a manifest and a slot binding
topology, or the exception that a value in an unforeseen position raises. -/

namespace Neutrino.BindingManifest

open PyJson Review
open Agreement (getOf)
open SpecValidator (memberOf isText elementsOf)

/-! Diagnostics. -/

inductive Code
  | malformed
  | capabilityMismatch
  | slotOwnership
  | coverage
  | assuranceBelowMinimum
  | binderUnauthorized
  | assuranceInvalid
  | runtimeNotAllowed
  | slotNotBindable
  | profileUnsupported
  | paramNotDeclared
  | paramRequiredMissing
  | paramTypeMismatch
  | untraceableSemantics
  | l2CapabilityMismatch
  deriving DecidableEq, Repr

structure Taxon where
  code : String
  symbol : String
  category : String
  severity : String

def taxonomy : Code → Taxon
  | .malformed => ⟨"NEU-1001", "ERR_NEU_MANIFEST_MALFORMED", "topology", "error"⟩
  | .capabilityMismatch => ⟨"NEU-1002", "ERR_NEU_CAPABILITY_MISMATCH", "topology", "error"⟩
  | .slotOwnership => ⟨"NEU-1003", "ERR_NEU_SLOT_OWNERSHIP", "topology", "error"⟩
  | .coverage => ⟨"NEU-1004", "ERR_NEU_COVERAGE", "topology", "error"⟩
  | .assuranceBelowMinimum =>
      ⟨"NEU-2001", "ERR_NEU_ASSURANCE_BELOW_MINIMUM", "security", "error"⟩
  | .binderUnauthorized => ⟨"NEU-2002", "ERR_NEU_BINDER_UNAUTHORIZED", "security", "error"⟩
  | .assuranceInvalid => ⟨"NEU-2003", "ERR_NEU_ASSURANCE_INVALID", "security", "error"⟩
  | .runtimeNotAllowed => ⟨"NEU-3000", "ERR_NEU_RUNTIME_NOT_ALLOWED", "runtime", "error"⟩
  | .slotNotBindable => ⟨"NEU-3001", "ERR_NEU_SLOT_NOT_BINDABLE", "runtime", "error"⟩
  | .profileUnsupported => ⟨"NEU-3002", "ERR_NEU_PROFILE_UNSUPPORTED", "runtime", "error"⟩
  | .paramNotDeclared => ⟨"NEU-4001", "ERR_NEU_PARAM_NOT_DECLARED", "l2-binding", "error"⟩
  | .paramRequiredMissing =>
      ⟨"NEU-4002", "ERR_NEU_PARAM_REQUIRED_MISSING", "l2-binding", "error"⟩
  | .paramTypeMismatch => ⟨"NEU-4003", "ERR_NEU_PARAM_TYPE_MISMATCH", "l2-binding", "error"⟩
  | .untraceableSemantics => ⟨"NEU-4004", "ERR_NEU_UNTRACEABLE_SEMANTICS", "l2-binding", "error"⟩
  | .l2CapabilityMismatch =>
      ⟨"NEU-4005", "ERR_NEU_L2_CAPABILITY_MISMATCH", "l2-binding", "error"⟩

/-- Where a diagnostic points; a null is not reported. -/
structure Target where
  bindingIndex : Option Nat := Option.none
  capability : PyJson := .none
  organizationId : PyJson := .none
  participantId : PyJson := .none
  slotId : PyJson := .none

structure Diag where
  code : Code
  message : String
  target : Target

abbrev Check := Review String Diag

inductive BindingStatus
  | complete
  | simulationOnly
  | deferred
  | invalid
  deriving DecidableEq, Repr

structure Report where
  capability : Option String
  diags : List Diag
  status : Option BindingStatus

def Report.ok (report : Report) : Bool := report.diags.isEmpty

def hasErrors (diags : List Diag) : Bool :=
  diags.any fun diag => (taxonomy diag.code).severity = "error"

def add (wrong : Bool) (code : Code) (message : String) (target : Target := {}) : Check :=
  note wrong ⟨code, message, target⟩

/-! The slots of a topology. -/

/-- A slot with the organization and participant it stands under. -/
structure SlotRow where
  organizationId : PyJson
  participantId : PyJson
  slot : Dict

def participantRows (organizationId : PyJson) : PyJson → List SlotRow
  | .dict participant => (elementsOf (get participant "slots")).filterMap fun slot =>
      match slot with
      | .dict slot => some ⟨organizationId, get participant "participantId", slot⟩
      | _ => Option.none
  | _ => []

def organizationRows : PyJson → List SlotRow
  | .dict organization => (elementsOf (get organization "participants")).flatMap
      (participantRows (get organization "organizationId"))
  | _ => []

/-- The slots that stand in lists of objects, in the order of the document. -/
def slotRows (topology : Dict) : List SlotRow :=
  (elementsOf (get topology "organizations")).flatMap organizationRows

def isObjects (value : PyJson) (each : Dict → Bool) : Bool :=
  match value with
  | .list elements => elements.all fun element =>
      match element with
      | .dict items => each items
      | _ => false
  | _ => false

def topologyMalformed (topology : Dict) : Bool :=
  !isObjects (get topology "organizations") fun organization =>
    isObjects (get organization "participants") fun participant =>
      isObjects (get participant "slots") fun _ => true

abbrev Slots := List (PyJson × SlotRow)

/-- `slots[key] = row` -/
def setSlot (slots : Slots) (key : PyJson) (row : SlotRow) : Slots :=
  if slots.any fun slot => same key slot.1 then
    slots.map fun slot => if same key slot.1 then (slot.1, row) else slot
  else slots ++ [(key, row)]

def indexSlots (topology : Dict) : Except String Slots :=
  Checked.thread (fun slots row => do
    hashed (get row.slot "slotId")
    return setSlot slots (get row.slot "slotId") row) [] (slotRows topology)

def findSlot (slots : Slots) (key : PyJson) : Except String (Option SlotRow) := do
  hashed key
  return (slots.find? fun slot => same key slot.1).map Prod.snd

/-! Assurance. -/

def tiers : List String := ["A1", "A2", "A3", "A4"]

def assurance : List (String × Nat) := [("A1", 1), ("A2", 2), ("A3", 3), ("A4", 4)]

/-- The rank of a recognized tier. -/
def rank (value : PyJson) : Option Nat :=
  match value with
  | .str tier => assurance.lookup tier
  | _ => Option.none

/-- `ASSURANCE.get(value, 1)` -/
def floor (value : PyJson) : Except String Nat := do
  hashed value
  return (rank value).getD 1

section Validate

variable (repr : PyJson → String)

/-- A value in a message. -/
def shown : PyJson → String
  | .str text => text
  | value => repr value

def noUnknown (items : Dict) (allowed : List String) (target : Target) : Check :=
  overAll (fun item => add (!allowed.contains item.1) .malformed
    ("unknown field " ++ repr (.str item.1)) target) items

def isL3 (manifest : Dict) : Bool := eqInt (get manifest "schemaVersion") 2

def topAllowed (manifest : Dict) : List String :=
  ["kind", "schemaVersion", "capability", "bindings"] ++
    if isL3 manifest then ["l2Ref", "backendProfile"] else []

def hookFields : List String := ["compensation", "observability", "retryTimeout"]

def bindingAllowed (manifest : Dict) : List String :=
  ["organizationId", "participantId", "slotId", "runtime", "assurance", "binder"] ++
    if isL3 manifest then
      ["parameterBindings", "derivedConcepts", "evidenceRefs", "compensation", "observability",
        "retryTimeout", "deferred"]
    else []

/-- Shape of both documents. -/
def checkShape (manifest : Dict) (topology : PyJson) : Check :=
  all [
    noUnknown repr manifest (topAllowed manifest) {},
    add (!eqStr (get manifest "kind") "neutrino.binding-manifest") .malformed
      "kind must be 'neutrino.binding-manifest'",
    add (!eqInt (get manifest "schemaVersion") 1 && !eqInt (get manifest "schemaVersion") 2)
      .malformed "schemaVersion must be 1 or 2",
    match topology with
    | .dict topology => all [
        add (!eqStr (get topology "kind") "neutrino.slot-binding-topology") .malformed
          "binding-topology kind must be 'neutrino.slot-binding-topology'",
        add (topologyMalformed topology) .malformed
          ("binding-topology structure is malformed " ++
            "(organizations/participants/slots must be arrays of objects)")]
    | _ => add true .malformed "binding-topology kind must be 'neutrino.slot-binding-topology'"]

def checkCapability (manifest topology : Dict) : Check :=
  let own := get manifest "capability"
  let offered := get topology "capability"
  all [
    add (!isText own) .capabilityMismatch "manifest capability is required (non-empty string)",
    add (!isText offered) .capabilityMismatch
      "binding-topology capability is required (non-empty string)",
    add (isText own && isText offered && !same own offered) .capabilityMismatch
      ("manifest capability " ++ repr own ++ " != binding-topology capability " ++ repr offered)
      { capability := own }]

def checkAssurance (binding slot : Dict) (target : Target) : Check :=
  after (memberOf (get binding "assurance") tiers) fun known =>
    if known then
      after (floor (get slot "minAssurance")) fun least =>
        add ((rank (get binding "assurance")).getD 0 < least) .assuranceBelowMinimum
          ("assurance " ++ shown repr (get binding "assurance") ++
            " is below the slot's minAssurance " ++ shown repr (get slot "minAssurance")) target
    else
      add true .assuranceInvalid "assurance must be one of ['A1', 'A2', 'A3', 'A4']" target

/-- The policy of a late-bound slot. -/
def checkPolicy (binding slot : Dict) (target : Target) : Check :=
  all [
    after (isIn (get binding "runtime") (orEmpty (get slot "allowedRuntimes"))) fun allowed =>
      add (!allowed) .runtimeNotAllowed
        ("runtime " ++ repr (get binding "runtime") ++ " not in allowedRuntimes " ++
          shown repr (get slot "allowedRuntimes")) target,
    checkAssurance repr binding slot target,
    add (!same (get binding "binder") (get slot "authorizedBinder")) .binderUnauthorized
      ("binder " ++ repr (get binding "binder") ++ " != authorizedBinder " ++
        repr (get slot "authorizedBinder")) target]

def checkSlot (binding : Dict) (row : SlotRow) (target : Target) : Check :=
  let sid := get binding "slotId"
  all [
    add (!same (get binding "organizationId") row.organizationId) .slotOwnership
      ("organizationId " ++ repr (get binding "organizationId") ++ " != topology " ++
        repr row.organizationId ++ " for " ++ shown repr sid) target,
    add (!same (get binding "participantId") row.participantId) .slotOwnership
      ("participantId " ++ repr (get binding "participantId") ++ " != topology " ++
        repr row.participantId ++ " for " ++ shown repr sid) target,
    if eqStr (get row.slot "lateBindingMode") "to_be_bound" then
      checkPolicy repr binding row.slot target
    else
      add true .slotNotBindable ("slot " ++ shown repr sid ++ " is " ++
        repr (get row.slot "lateBindingMode") ++ ", not 'to_be_bound' — nothing to bind") target]

def checkBinding (slots : Slots) (allowed : List String) (binding : PyJson × Nat) : Check :=
  match binding.1 with
  | .dict items =>
      let target : Target := {
        bindingIndex := some binding.2
        organizationId := get items "organizationId"
        participantId := get items "participantId"
        slotId := get items "slotId" }
      all [
        noUnknown repr items allowed { bindingIndex := some binding.2 },
        after (findSlot slots (get items "slotId")) fun found =>
          match found with
          | Option.none => add true .slotOwnership
              ("slotId " ++ repr (get items "slotId") ++ " is not in the binding-topology") target
          | some row => checkSlot repr items row target]
  | _ => add true .malformed "binding must be an object" { bindingIndex := some binding.2 }

def boundSlotIds (bindings : List PyJson) : List PyJson :=
  bindings.filterMap fun binding =>
    match binding with
    | .dict items => some (get items "slotId")
    | _ => Option.none

def lateSlotIds (slots : Slots) : List PyJson :=
  (slots.filter fun slot => eqStr (get slot.2.slot "lateBindingMode") "to_be_bound").map Prod.fst

def checkCoverage (slots : Slots) (bound : List PyJson) : Check :=
  all [
    after (sorted (distinct bound)) fun ids => overAll (fun sid =>
      add (1 < bound.countP (same sid)) .coverage
        ("slot " ++ repr sid ++ " is bound " ++ toString (bound.countP (same sid)) ++
          " times (must be once)") { slotId := sid }) ids,
    after (sorted ((lateSlotIds slots).filter fun sid => !bound.any (same sid))) fun ids =>
      overAll (fun sid => add true .coverage
        ("to_be_bound slot " ++ repr sid ++ " is not bound by the manifest") { slotId := sid }) ids]

def bindingsOf (manifest : Dict) : List PyJson := elementsOf (get manifest "bindings")

/-- A topology that is no object counts as an empty one. -/
def topologyItems : PyJson → Dict
  | .dict topology => topology
  | _ => []

/-- The checks that both manifest versions share. -/
def validateCore (manifest : Dict) (topology : PyJson) : Check :=
  all [
    checkShape repr manifest topology,
    checkCapability repr manifest (topologyItems topology),
    after (indexSlots (topologyItems topology)) fun slots => all [
      add (bindingsOf manifest).isEmpty .malformed "bindings must be a non-empty array",
      overAll (checkBinding repr slots (bindingAllowed manifest)) (bindingsOf manifest).zipIdx,
      checkCoverage repr slots (boundSlotIds (bindingsOf manifest))]]

/-! The L3 layer. -/

/-- The declared types of parameters, a later one of a name in place of an earlier one, the names of
those that are required, and what derived concepts may trace to beside them. -/
structure L2Index where
  params : List (String × PyJson)
  required : List String
  concepts : List String

/-- An object with a name. -/
def named : PyJson → Option (String × Dict)
  | .dict items =>
      match get items "name" with
      | .str name => if name = "" then Option.none else some (name, items)
      | _ => Option.none
  | _ => Option.none

def conceptName : PyJson → Option String
  | .str name => some name
  | value => (named value).map Prod.fst

def isTrue : PyJson → Bool
  | .bool value => value
  | _ => false

def l2Index : PyJson → Except String L2Index
  | .dict l2 => do
      let parameters ← iterate (orEmpty (get l2 "parameters"))
      let concepts ← iterate (orEmpty (get l2 "concepts"))
      return {
        params := (parameters.filterMap named).map fun p => (p.1, get p.2 "type")
        required := ((parameters.filterMap named).filter fun p =>
          isTrue (get p.2 "required")).map Prod.fst
        concepts := concepts.filterMap conceptName }
  | _ => return ⟨[], [], []⟩

def L2Index.declared (index : L2Index) (name : String) : Option PyJson :=
  index.params.reverse.lookup name

def L2Index.traceable (index : L2Index) : List String :=
  index.params.map Prod.fst ++ index.concepts

def checkLinkage (manifest : Dict) (l2 : PyJson) : Check :=
  let cap := get manifest "capability"
  all [
    match get manifest "l2Ref" with
    | .dict ref => all [
        add (!isText (get ref "artifact")) .malformed
          "an L3 (schemaVersion 2) manifest must declare 'l2Ref.artifact'",
        if isText (get ref "capability") then
          add (isText cap && !same (get ref "capability") cap) .l2CapabilityMismatch
            ("l2Ref.capability " ++ repr (get ref "capability") ++ " != manifest capability " ++
              repr cap)
        else
          add true .l2CapabilityMismatch
            "l2Ref.capability is required and must equal the manifest capability"]
    | _ => add true .malformed "an L3 (schemaVersion 2) manifest must declare 'l2Ref.artifact'",
    match l2 with
    | .dict l2 =>
        add (isText (get l2 "capability") && isText cap && !same (get l2 "capability") cap)
          .l2CapabilityMismatch ("L2 interface capability " ++ repr (get l2 "capability") ++
            " != manifest capability " ++ repr cap)
    | .none => add true .untraceableSemantics
        ("the L2 interface could not be resolved — L3 parameter bindings are " ++
          "untraceable to L2 (declare a readable 'l2Ref.artifact')")
    | _ => all []]

/-- The profile of the catalog that the manifest names; none without a catalog. -/
def findProfile (manifest : Dict) (profiles : PyJson) : Except String (Option Dict) :=
  match profiles with
  | .none => return Option.none
  | _ => do
      let catalog ← getOf profiles "profiles"
      let listed ← iterate (orEmpty catalog)
      return listed.findSome? fun profile =>
        match profile with
        | .dict items => if same (get items "id") (get manifest "backendProfile") then some items
            else Option.none
        | _ => Option.none

def checkProfile (manifest : Dict) (profiles : PyJson) (profile : Option Dict) : Check :=
  match profiles with
  | .none => add true .profileUnsupported
      ("the backend-profile catalog could not be loaded — a schemaVersion-2 " ++
        "manifest's backendProfile cannot be validated")
  | _ => add profile.isNone .profileUnsupported
      ("backendProfile " ++ repr (get manifest "backendProfile") ++
        " is not in the backend-profile catalog")

def supportedFields (profile : Dict) : Except String (List PyJson) := do
  let fields ← iterate (orEmpty (get profile "supportedFields"))
  Checked.each hashed fields
  return fields

def checkParameter (index : L2Index) (target : Target) (parameter : String × PyJson) : Check :=
  let name := repr (.str parameter.1)
  let got := match parameter.2 with
    | .dict items => get items "type"
    | _ => .none
  match index.declared parameter.1 with
  | Option.none =>
      add true .paramNotDeclared ("parameter " ++ name ++ " is not declared by L2") target
  | some want =>
      add (!isNone want && !same got want) .paramTypeMismatch
        ("parameter " ++ name ++ " bound as type " ++ repr got ++ " != L2-declared " ++ repr want)
        target

/-- The parameters that a binding binds. -/
def parameterBindings (binding : Dict) : Dict :=
  match get binding "parameterBindings" with
  | .dict items => items
  | _ => []

def checkConcepts (index : L2Index) (binding : Dict) (target : Target) : Check :=
  after (iterate (orEmpty (get binding "derivedConcepts"))) fun concepts =>
    overAll (fun concept => after (memberOf concept index.traceable) fun traced =>
      add (!traced) .untraceableSemantics ("derivedConcept " ++ repr concept ++
        " does not trace to any L2 parameter or concept") target) concepts

def checkRealization (manifest : Dict) (profile : Option (Dict × List PyJson)) (binding : Dict)
    (target : Target) : Check :=
  match profile with
  | Option.none => all []
  | some (profile, supported) =>
      let family := get profile "runtimeFamily"
      let chosen := repr (get manifest "backendProfile")
      all [
        add (!isNone family && !isTrue (get binding "deferred") &&
            !same (get binding "runtime") family) .profileUnsupported
          ("runtime " ++ repr (get binding "runtime") ++ " does not match backend profile " ++
            chosen ++ " runtimeFamily " ++ repr family) target,
        overAll (fun field =>
          add (has binding field && !supported.any (same (.str field))) .profileUnsupported
            ("field " ++ repr (.str field) ++ " is not supported by backend profile " ++ chosen)
            target) hookFields]

def checkL3Binding (manifest : Dict) (index : L2Index) (profile : Option (Dict × List PyJson))
    (binding : PyJson × Nat) : Check :=
  match binding.1 with
  | .dict items =>
      let target : Target := { bindingIndex := some binding.2, slotId := get items "slotId" }
      all [
        overAll (checkParameter repr index target) (parameterBindings items),
        checkConcepts repr index items target,
        checkRealization repr manifest profile items target]
  | _ => all []

/-- The names that some binding binds. -/
def boundParams (manifest : Dict) : List String :=
  (bindingsOf manifest).flatMap fun binding =>
    match binding with
    | .dict items => (parameterBindings items).map Prod.fst
    | _ => []

def validateL3 (manifest : Dict) (l2 profiles : PyJson) : Check :=
  after (l2Index l2) fun index => after (findProfile manifest profiles) fun profile =>
    after (match profile with
      | some items => (supportedFields items).map fun fields => some (items, fields)
      | Option.none => .ok Option.none) fun supported => all [
        checkLinkage repr manifest l2,
        checkProfile repr manifest profiles profile,
        overAll (checkL3Binding repr manifest index supported) (bindingsOf manifest).zipIdx,
        overAll (fun name => add true .paramRequiredMissing
          ("required L2 parameter " ++ repr (.str name) ++ " is not bound by the manifest"))
          ((index.required.dedup.filter fun name => name ∉ boundParams manifest).insertionSort
            (· ≤ ·))]

def isDeferred : PyJson → Bool
  | .dict binding => isTrue (get binding "deferred")
  | _ => false

def statusOf (manifest : Dict) (profile : Option Dict) (diags : List Diag) : BindingStatus :=
  if hasErrors diags then .invalid
  else if (bindingsOf manifest).any isDeferred then .deferred
  else if profile.any fun profile => eqStr (get profile "maturity") "simulation-only" then
    .simulationOnly
  else .complete

/-- The report on a manifest against a topology; the L2 interface and the catalog of backend
profiles are read for a manifest of version 2 only, null where they could not be loaded. -/
def validate (manifest topology l2 profiles : PyJson) : Except String Report :=
  match manifest with
  | .dict manifest => do
      let capability := if isText (get manifest "capability") then
        some (shown repr (get manifest "capability")) else Option.none
      let core ← validateCore repr manifest topology
      if isL3 manifest then
        let layer ← validateL3 repr manifest l2 profiles
        let profile ← findProfile manifest profiles
        return ⟨capability, core ++ layer, some (statusOf manifest profile (core ++ layer))⟩
      else return ⟨capability, core, Option.none⟩
  | _ => return ⟨Option.none, [⟨.malformed, "manifest must be a JSON object", {}⟩], Option.none⟩

end Validate

end Neutrino.BindingManifest
