import Mathlib
import Neutrino.CoordinationEnvelope
import Neutrino.JsonBuild
import Neutrino.ProcedureView

/-! The compiled capability spec of a procedure: its semantic core, whose compact text is hashed, and
the envelope and projections around it. -/

namespace Neutrino

namespace CapabilitySpec

open Json Projection

/-! The lifecycle machine. -/

structure LifecycleState where
  name : String
  terminal : Bool
  terminalKind : String

structure LifecycleTransition where
  name : String
  source : String
  target : String
  effects : List String
  idempotency : String

structure LifecycleModel where
  instanceKeyFields : List String
  initialState : String
  states : List LifecycleState
  transitions : List LifecycleTransition
  successState : String
  abortedState : String
  contestedState : String

/-- The names that key the legs, in order and without repetition. -/
def instanceKeyFields (view : ProcedureView) : List String :=
  let keys := (view.entries.map EntryView.idempotencyKey).filter fun key =>
    !key.isLit && key.text ≠ ""
  ((keys.map Ref.text).insertionSort (· ≤ ·)).dedup

/-- The machine of a procedure whose posts wait for a quorum. -/
def quorumModel (fields : List String) (escalate : Bool) : LifecycleModel where
  instanceKeyFields := fields
  initialState := "INITIAL"
  states := [⟨"INITIAL", false, ""⟩, ⟨"NEW", false, ""⟩, ⟨"NEGOTIATED", false, ""⟩,
    ⟨"PROPOSED", false, ""⟩, ⟨"QUORUM_PENDING", false, ""⟩, ⟨"QUORUM_MET", false, ""⟩,
    ⟨"QUORUM_TIMEOUT", false, ""⟩, ⟨"COMMITTED", false, ""⟩, ⟨"REJECTED", true, "aborted"⟩,
    ⟨"COMPENSATED", false, ""⟩, ⟨"CLOSED", true, "success"⟩] ++
    (if escalate then [⟨"ESCALATED", true, "contested"⟩] else [])
  transitions := [⟨"OPEN", "INITIAL", "NEW", [], "reject"⟩,
    ⟨"NEGOTIATE", "NEW", "NEGOTIATED", [], "reject"⟩,
    ⟨"PROPOSE", "NEGOTIATED", "PROPOSED", [], "reject"⟩,
    ⟨"REJECT", "PROPOSED", "REJECTED", [], "reject"⟩,
    ⟨"AWAIT_QUORUM", "PROPOSED", "QUORUM_PENDING", [], "reject"⟩,
    ⟨"REACH_QUORUM", "QUORUM_PENDING", "QUORUM_MET", [], "reject"⟩,
    ⟨"TIMEOUT", "QUORUM_PENDING", "QUORUM_TIMEOUT", [], "reject"⟩,
    ⟨"COMMIT", "QUORUM_MET", "COMMITTED", ["post"], "reject"⟩,
    ⟨if escalate then "ESCALATE" else "ABORT", "QUORUM_TIMEOUT",
      if escalate then "ESCALATED" else "REJECTED", [], "reject"⟩,
    ⟨"COMPENSATE", "COMMITTED", "COMPENSATED", ["compensate"], "reject"⟩,
    ⟨"CLOSE", "COMMITTED", "CLOSED", [], "reject"⟩,
    ⟨"CLOSE", "COMPENSATED", "CLOSED", [], "reject"⟩]
  successState := "CLOSED"
  abortedState := "REJECTED"
  contestedState := if escalate then "ESCALATED" else ""

def openCloseModel (fields : List String) : LifecycleModel where
  instanceKeyFields := fields
  initialState := "INITIAL"
  states := [⟨"INITIAL", false, ""⟩, ⟨"NEW", false, ""⟩, ⟨"NEGOTIATED", false, ""⟩,
    ⟨"PROPOSED", false, ""⟩, ⟨"COMMITTED", false, ""⟩, ⟨"REJECTED", true, "aborted"⟩,
    ⟨"COMPENSATED", false, ""⟩, ⟨"CLOSED", true, "success"⟩]
  transitions := [⟨"OPEN", "INITIAL", "NEW", [], "reject"⟩,
    ⟨"NEGOTIATE", "NEW", "NEGOTIATED", [], "reject"⟩,
    ⟨"PROPOSE", "NEGOTIATED", "PROPOSED", [], "reject"⟩,
    ⟨"COMMIT", "PROPOSED", "COMMITTED", ["post"], "reject"⟩,
    ⟨"REJECT", "PROPOSED", "REJECTED", [], "reject"⟩,
    ⟨"COMPENSATE", "COMMITTED", "COMPENSATED", ["compensate"], "reject"⟩,
    ⟨"CLOSE", "COMMITTED", "CLOSED", [], "reject"⟩,
    ⟨"CLOSE", "COMPENSATED", "CLOSED", [], "reject"⟩]
  successState := "CLOSED"
  abortedState := "REJECTED"
  contestedState := ""

/-- Only when every policy escalates does a missed quorum escalate. -/
def lifecycleModel (view : ProcedureView) : LifecycleModel :=
  if view.attestations ≠ [] then
    quorumModel (instanceKeyFields view)
      (view.attestations.all fun policy => policy.fallback = "escalate")
  else openCloseModel (instanceKeyFields view)

/-! The sections. -/

def categoryOf (type : String) : String := categoryName (classifyValueType type)

def operand (ref : Ref) : Json :=
  objectOf [("kind", .string (if ref.isLit then "literal" else "ref")), ("value", .string ref.text)]

def inputsArray (view : ProcedureView) : Json :=
  .array (view.inputs.map fun input => objectOf [("name", .string input.1),
    ("type", .string input.2), ("category", .string (categoryOf input.2))])

def computesArray (view : ProcedureView) : Json :=
  .array (view.computes.map fun compute => objectOf [("name", .string compute.name),
    ("expr", .string compute.expr), ("category", .string (categoryName compute.ast.dtype)),
    ("deps", strings compute.deps), ("ast", exprToJson compute.ast)])

/-- An effect; its guard and its memo stand there only when it has one. -/
def effectObject (workflowKey : String) (entry : EntryView) (planEffect : PlanEffect) : Json :=
  objectOf ([("kind", .string entry.kind), ("name", .string entry.name),
    ("ledger", .string entry.ledger), ("owner", .string entry.owner),
    ("participant", orNull planEffect.participant), ("party", operand entry.party),
    ("amount", operand entry.amount), ("currency", operand entry.currency),
    ("idempotencyKey", operand ⟨false, workflowKey⟩)] ++
    (match entry.guardAst with
      | some guard => [("when", objectOf [("expr", .string entry.guard),
          ("ast", exprToJson guard)])]
      | none => []) ++
    if entry.memo ≠ "" then [("memo", .string entry.memo)] else [])

def effectsArray (view : ProcedureView) (plan : CoordinationPlan) : Json :=
  .array (List.zipWith (effectObject plan.workflowKey) view.entries plan.effects)

def participantsArray (view : ProcedureView) (plan : CoordinationPlan) : Json :=
  .array (List.zipWith (fun (participant : PlanParticipant) (realization : ParticipantView) =>
    objectOf [("name", .string participant.name), ("role", .string participant.role),
      ("org", orNull participant.org), ("capabilities", strings realization.capabilities),
      ("binding", .string (if realization.isFlexible then "to_be_bound" else "fixed")),
      ("bindRuntimes", strings realization.bindRuntimes),
      ("bindMinAssurance", .string realization.bindMinAssurance)])
    plan.participants view.participants)

def topologyObj (plan : CoordinationPlan) : Json :=
  objectOf [("allowedOrgPairs", .array (plan.allowedOrgPairs.map fun pair =>
    objectOf [("orgA", .string pair.orgA), ("orgB", .string pair.orgB),
      ("roleA", .string pair.roleA), ("roleB", .string pair.roleB)]))]

def invariantsArray (plan : CoordinationPlan) : Json :=
  .array (if plan.balanced then [objectOf [("kind", .string "balanced")]] else [])

def attestationPolicyJson (policy : AttestationPolicy) : Json :=
  objectOf [("input", .string policy.input),
    ("quorum", objectOf [("threshold", integer policy.quorum)]),
    ("observerSet", objectOf ([("ref", .string policy.observerSet),
      ("role", orNull policy.observerRole)] ++
      (if policy.assurance ≠ "" then [("assurance", .string policy.assurance)] else []) ++
      if policy.independence ≠ "" then [("independence", .string policy.independence)] else [])),
    ("canonicalization", objectOf [("mode", .string policy.canonicalization),
      ("tolerance", orNull policy.tolerance)]),
    ("timeout", orNull policy.timeout), ("fallback", .string policy.fallback)]

def attestationsArray (view : ProcedureView) : Json :=
  .array (view.attestations.map attestationPolicyJson)

def stateObject (state : LifecycleState) : Json :=
  objectOf ([("name", .string state.name), ("terminal", .boolean state.terminal)] ++
    if state.terminalKind ≠ "" then [("terminalKind", .string state.terminalKind)] else [])

def transitionObject (transition : LifecycleTransition) : Json :=
  objectOf [("name", .string transition.name), ("from", .string transition.source),
    ("to", .string transition.target), ("effects", strings transition.effects),
    ("guards", .array []), ("idempotency", .string transition.idempotency), ("evidence", .null)]

def lifecycleObj (view : ProcedureView) : Json :=
  let model := lifecycleModel view
  objectOf [("instanceKey", objectOf ([("fields", strings model.instanceKeyFields)] ++
      match view.instanceKey with
      | some declared => [("declared", .string declared)]
      | none => [])),
    ("initialState", .string model.initialState),
    ("states", .array (model.states.map stateObject)),
    ("transitions", .array (model.transitions.map transitionObject)),
    ("terminalStates", objectOf [("success", .string model.successState),
      ("aborted", .string model.abortedState), ("contested", orNull model.contestedState)])]

def obligationObject (obligation : PlanObligation) : Json :=
  objectOf [("version", integer obligation.version), ("name", .string obligation.name),
    ("obligor", .string obligation.obligor), ("beneficiary", .string obligation.beneficiary),
    ("authority", .string obligation.authority), ("effects", strings obligation.effects),
    ("when", objectOf [("expr", .string obligation.canonicalGuard),
      ("ast", exprToJson obligation.when)])]

def obligationsArray (plan : CoordinationPlan) : Json :=
  .array (plan.obligations.map obligationObject)

/-! The semantic core. -/

/-- The members that carry meaning; policies and obligations stand there only when there are
any. -/
def coreMembers (view : ProcedureView) (plan : CoordinationPlan) : List (String × Json) :=
  [("specVersion", .string view.version), ("procedure", .string view.name),
    ("trigger", (view.trigger.map Json.string).getD .null), ("inputs", inputsArray view),
    ("computes", computesArray view), ("effects", effectsArray view plan),
    ("invariants", invariantsArray plan), ("participants", participantsArray view plan),
    ("topology", topologyObj plan), ("lifecycle", lifecycleObj view)] ++
  (if view.attestations ≠ [] then [("attestations", attestationsArray view)] else []) ++
  if plan.obligations ≠ [] then [("obligations", obligationsArray plan)] else []

def semanticCore (view : ProcedureView) (plan : CoordinationPlan) : Json.Object :=
  Json.Object.ofMembers (coreMembers view plan)

def capabilitySpecSchemaVersion (view : ProcedureView) : Int :=
  if view.obligations ≠ [] then 4
  else if view.attestations ≠ [] then 3
  else if view.entries.any (·.guard ≠ "") then 2
  else 1

def specCore (view : ProcedureView) (plan : CoordinationPlan) : Json.Object :=
  ((semanticCore view plan).put "schemaVersion" (integer (capabilitySpecSchemaVersion view))).put
    "kind" (.string "neutrino.capability-spec")

/-! The projections with source lines. -/

def valueRequirementOf (type : String) : String :=
  if classifyValueType type = .extension ∧ isTemporalType type then "value_extension:temporal"
  else "value_category:" ++ categoryOf type

def sourceJson (line : Nat) : Json :=
  if 0 < line then objectOf [("line", integer line), ("column", integer 1)] else .null

/-- A feature that a target must support, what needs it, and where. -/
structure Requirement where
  feature : String
  primitive : String
  line : Nat

def Requirement.json (requirement : Requirement) : Json :=
  objectOf [("feature", .string requirement.feature), ("primitive", .string requirement.primitive),
    ("source", sourceJson requirement.line), ("requirement", .string "required"),
    ("fallback", .null)]

/-- The first requirement of each feature. -/
def firstFeatures (seen : List String) : List Requirement → List Requirement
  | [] => []
  | requirement :: rest =>
      if requirement.feature ∈ seen then firstFeatures seen rest
      else requirement :: firstFeatures (requirement.feature :: seen) rest

/-- Each construct with the source line it starts at. -/
def withLines {α : Type} (constructs : List α) (lines : List Nat) : List (α × Nat) :=
  constructs.zipIdx.map fun construct => (construct.1, lines.getD construct.2 0)

def requirements (view : ProcedureView) : List Requirement :=
  let entries := withLines view.entries view.entryLines
  let participants := withLines view.participants view.participantLines
  firstFeatures [] (
    ((withLines view.inputs view.inputLines).map fun (input, line) =>
      ⟨valueRequirementOf input.2, "input " ++ input.1, line⟩) ++
    (withLines view.computes view.computeLines).map fun (compute, line) =>
      ⟨"value_category:" ++ categoryName compute.ast.dtype, "compute " ++ compute.name, line⟩) ++
  firstFeatures [] (entries.map fun (entry, line) =>
    ⟨"effect:" ++ entry.kind, entry.kind ++ " " ++ entry.name, line⟩) ++
  ((entries.find? fun (entry, _) => entry.guard ≠ "").toList.map fun (entry, line) =>
    ⟨"guard:conditional", "when " ++ entry.name, line⟩) ++
  (if view.balanced then [⟨"invariant:balanced", "assert balanced", view.assertLine⟩] else []) ++
  ((withLines view.attestations view.attestationLines).map fun (policy, line) =>
    ⟨"attestation:quorum", "attest " ++ policy.input, line⟩) ++
  ((participants.find? fun (participant, _) => participant.isFlexible).toList.map
    fun (participant, line) => ⟨"binding:flexible", "participant " ++ participant.name, line⟩) ++
  (participants.head?.toList.map fun (participant, line) =>
    ⟨"topology:participants", "participant " ++ participant.name, line⟩) ++
  (withLines view.allowedOrgPairs view.allowLines).head?.toList.map fun (pair, line) =>
    ⟨"topology:org_coordination", "allow " ++ pair.orgA ++ " with " ++ pair.orgB, line⟩

def targetRequirementsObj (view : ProcedureView) : Json :=
  objectOf [("requirements", .array ((requirements view).map Requirement.json)),
    ("evidenceStyle", .string "single_hash"), ("unsupportedConstructs", .array [])]

def sourceEntry (path construct : String) (line : Nat) : Json :=
  objectOf [("specPath", .string path), ("construct", .string construct),
    ("source", sourceJson line)]

/-- The source of each construct of a section. -/
def sourceEntries {α : Type} (section' : String) (describe : α → String) (constructs : List α)
    (lines : List Nat) : List Json :=
  constructs.zipIdx.map fun construct => sourceEntry
    (section' ++ "[" ++ toString construct.2 ++ "]") (describe construct.1)
    (lines.getD construct.2 0)

def sourceMapArray (view : ProcedureView) : Json :=
  .array (sourceEntries "inputs" (fun input => "input " ++ input.1) view.inputs view.inputLines ++
    sourceEntries "computes" (fun compute => "compute " ++ compute.name) view.computes
      view.computeLines ++
    sourceEntries "effects" (fun entry => entry.kind ++ " " ++ entry.name) view.entries
      view.entryLines ++
    sourceEntries "participants" (fun participant => "participant " ++ participant.name)
      view.participants view.participantLines ++
    sourceEntries "topology.allowedOrgPairs" (fun pair => "allow " ++ pair.orgA ++ " with " ++
      pair.orgB) view.allowedOrgPairs view.allowLines ++
    if view.balanced then [sourceEntry "invariants[0]" "assert balanced" view.assertLine] else [])

/-! The text. -/

section Text

variable (sha256Hex : List UInt8 → String) (text : JsonText) (indented : Json → String)

def canonicalSemanticBytes (view : ProcedureView) (plan : CoordinationPlan) : String :=
  text.compactJson (.object (semanticCore view plan))

def capabilityHashOf (view : ProcedureView) (plan : CoordinationPlan) : String :=
  sha256Hex (utf8 (canonicalSemanticBytes text view plan))

/-- The spec before its own hash is known. -/
def specBody (view : ProcedureView) (plan : CoordinationPlan) : Json.Object :=
  (((specCore view plan).put "targetRequirements" (targetRequirementsObj view)).put
    "sourceMap" (sourceMapArray view)).put
    "identity" (objectOf [("capabilityHash", .string (capabilityHashOf sha256Hex text view plan))])

def specDocument (view : ProcedureView) (plan : CoordinationPlan) : Json.Object :=
  let body := specBody sha256Hex text view plan
  body.put "identity" (objectOf [
    ("capabilityHash", .string (capabilityHashOf sha256Hex text view plan)),
    ("specHash", .string (sha256Hex (utf8 (text.compactJson (.object body)))))])

def capabilitySpecJson (view : ProcedureView) (plan : CoordinationPlan) : String :=
  indented (.object (specDocument sha256Hex text view plan)) ++ "\n"

end Text

/-! The document is one the library reads back. -/

theorem ordered_keys {members : List (String × Json)} (keys : List String)
    (keyed : members.map Prod.fst = keys) (sorted : keys.Pairwise (· < ·)) :
    (members.map Prod.fst).Pairwise (· < ·) := by
  rwa [keyed]

mutual

theorem exprToJson_ordered : (node : ExprNode) → (exprToJson node).Ordered
  | .num value dtype => by
      rw [exprToJson]
      exact ⟨ordered_keys ["dtype", "kind", "num"] rfl (by decide),
        trivial, trivial, trivial, trivial⟩
  | .var name dtype => by
      rw [exprToJson]
      exact ⟨ordered_keys ["dtype", "kind", "name"] rfl (by decide),
        trivial, trivial, trivial, trivial⟩
  | .bin op lhs rhs dtype => by
      rw [exprToJson]
      exact ⟨ordered_keys ["dtype", "kind", "lhs", "op", "rhs"] rfl (by decide),
        trivial, trivial, exprToJson_ordered lhs, trivial,
        exprToJson_ordered rhs, trivial⟩
  | .call name args dtype => by
      rw [exprToJson]
      exact ⟨ordered_keys ["args", "dtype", "kind", "name"] rfl (by decide),
        exprsToJson_ordered args, trivial, trivial, trivial, trivial⟩
  | .cmp op lhs rhs dtype => by
      rw [exprToJson]
      exact ⟨ordered_keys ["dtype", "kind", "lhs", "op", "rhs"] rfl (by decide),
        trivial, trivial, exprToJson_ordered lhs, trivial,
        exprToJson_ordered rhs, trivial⟩

theorem exprsToJson_ordered : (args : List ExprNode) → Json.AllOrdered (exprsToJson args)
  | [] => trivial
  | arg :: rest => ⟨exprToJson_ordered arg, exprsToJson_ordered rest⟩

end

@[simp] theorem printable_expr (node : ExprNode) : Printable (exprToJson node) :=
  ⟨exprToJson_integral node, exprToJson_ordered node⟩

@[simp] theorem printable_operand (ref : Ref) : Printable (operand ref) := by
  simp [operand, printable_objectOf]

@[simp] theorem printable_source (line : Nat) : Printable (sourceJson line) := by
  unfold sourceJson
  split <;> simp [printable_objectOf]

theorem printable_inputs (view : ProcedureView) : Printable (inputsArray view) := by
  refine printable_array.mpr (List.forall_mem_map.mpr fun input _ => ?_)
  simp [printable_objectOf]

theorem printable_computes (view : ProcedureView) : Printable (computesArray view) := by
  simp [computesArray, printable_array, printable_objectOf]

theorem printable_effect (workflowKey : String) (entry : EntryView) (planEffect : PlanEffect) :
    Printable (effectObject workflowKey entry planEffect) := by
  refine printable_objectOf ?_
  simp only [List.forall_mem_append]
  refine ⟨⟨by simp, ?_⟩, ?_⟩
  · cases entry.guardAst <;> simp [printable_objectOf]
  · split <;> simp

theorem forall_mem_zipWith {α β γ : Type} {f : α → β → γ} {p : γ → Prop}
    (all : ∀ a b, p (f a b)) (first : List α) (second : List β) :
    ∀ c ∈ List.zipWith f first second, p c := by
  intro c listed
  obtain ⟨index, bound, rfl⟩ := List.mem_iff_getElem.mp listed
  rw [List.getElem_zipWith]
  exact all _ _

theorem printable_effects (view : ProcedureView) (plan : CoordinationPlan) :
    Printable (effectsArray view plan) :=
  printable_array.mpr (forall_mem_zipWith (printable_effect plan.workflowKey) _ _)

theorem printable_participants (view : ProcedureView) (plan : CoordinationPlan) :
    Printable (participantsArray view plan) :=
  printable_array.mpr (forall_mem_zipWith (fun _ _ => by simp [printable_objectOf]) _ _)

theorem printable_topology (plan : CoordinationPlan) : Printable (topologyObj plan) := by
  simp [topologyObj, printable_array, printable_objectOf]

theorem printable_invariants (plan : CoordinationPlan) : Printable (invariantsArray plan) := by
  unfold invariantsArray
  split <;> simp [printable_array, printable_objectOf]

theorem printable_policy (policy : AttestationPolicy) :
    Printable (attestationPolicyJson policy) := by
  refine printable_objectOf ?_
  simp only [List.forall_mem_cons]
  refine ⟨by simp, by simp [printable_objectOf], printable_objectOf ?_,
    by simp [printable_objectOf], by simp, by simp, by simp⟩
  simp only [List.forall_mem_append]
  refine ⟨⟨by simp, ?_⟩, ?_⟩
  · split <;> simp
  · split <;> simp

theorem printable_attestations (view : ProcedureView) : Printable (attestationsArray view) := by
  simp [attestationsArray, printable_array, printable_policy]

theorem printable_state (state : LifecycleState) : Printable (stateObject state) := by
  refine printable_objectOf ?_
  simp only [List.forall_mem_append]
  refine ⟨by simp, ?_⟩
  split <;> simp

theorem printable_lifecycle (view : ProcedureView) : Printable (lifecycleObj view) := by
  refine printable_objectOf ?_
  simp only [List.forall_mem_cons]
  refine ⟨printable_objectOf ?_, by simp, by simp [printable_array, printable_state],
    by simp [printable_array, transitionObject, printable_objectOf],
    by simp [printable_objectOf], by simp⟩
  simp only [List.forall_mem_append]
  refine ⟨by simp, ?_⟩
  cases view.instanceKey <;> simp

theorem printable_obligations (plan : CoordinationPlan) : Printable (obligationsArray plan) := by
  simp [obligationsArray, obligationObject, printable_array, printable_objectOf]

theorem printable_core (view : ProcedureView) (plan : CoordinationPlan) :
    Printable (.object (semanticCore view plan)) := by
  refine printable_objectOf ?_
  simp only [coreMembers, List.forall_mem_append, List.forall_mem_cons]
  refine ⟨⟨⟨by simp, by simp, ?_, printable_inputs view, printable_computes view,
    printable_effects view plan, printable_invariants plan, printable_participants view plan,
    printable_topology plan, printable_lifecycle view, by simp⟩, ?_⟩, ?_⟩
  · cases view.trigger <;> simp
  · split <;> simp [printable_attestations]
  · split <;> simp [printable_obligations]

theorem printable_requirements (view : ProcedureView) :
    Printable (targetRequirementsObj view) := by
  simp [targetRequirementsObj, Requirement.json, printable_array, printable_objectOf]

theorem printable_sourceEntries {α : Type} (section' : String) (describe : α → String)
    (constructs : List α) (lines : List Nat) :
    ∀ entry ∈ sourceEntries section' describe constructs lines, Printable entry := by
  intro entry listed
  obtain ⟨construct, _, rfl⟩ := List.mem_map.mp listed
  simp [sourceEntry, printable_objectOf]

theorem printable_sourceMap (view : ProcedureView) : Printable (sourceMapArray view) := by
  refine printable_array.mpr ?_
  simp only [List.forall_mem_append]
  refine ⟨⟨⟨⟨⟨?_, ?_⟩, ?_⟩, ?_⟩, ?_⟩, ?_⟩
  iterate 5 exact fun entry listed => printable_sourceEntries _ _ _ _ entry listed
  split <;> simp [sourceEntry, printable_objectOf]

theorem printable_spec (sha256Hex : List UInt8 → String) (text : JsonText) (view : ProcedureView)
    (plan : CoordinationPlan) : Printable (.object (specDocument sha256Hex text view plan)) := by
  refine Printable.put (Printable.put (Printable.put (Printable.put (Printable.put
    (Printable.put (printable_core view plan) ?_) ?_) ?_) ?_) ?_) ?_
  · exact printable_integer _
  · exact printable_string _
  · exact printable_requirements view
  · exact printable_sourceMap view
  · exact printable_objectOf (by simp)
  · exact printable_objectOf (by simp)

end CapabilitySpec

end Neutrino
