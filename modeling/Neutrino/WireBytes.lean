import Neutrino.FinalizedPostings
import Neutrino.JsonCompact
import Neutrino.ProjectionCodec

/-! Which graphs share their wire bytes, and what those bytes decode to. -/

namespace Neutrino.Projection

open Checked SortOn

variable {text : JsonText} {graph other : BackendProjectionGraph}

theorem encode_ok {bytes : String} :
    encodeFinalizedProjection text graph = .ok bytes ↔
      graph.schemaVersion = kProjectionSchemaVersion ∧ Verified text graph ∧
        bytes = text.compactJson (wireGraph graph.order) := by
  rw [encodeFinalizedProjection, check_ok, require_ok, bind_ok]
  simp only [mapError_ok, verifyAndOrder_ok, pure_ok]
  constructor
  · rintro ⟨current, ordered, ⟨verified, rfl⟩, rfl⟩
    exact ⟨current, verified, rfl⟩
  · rintro ⟨current, verified, rfl⟩
    exact ⟨current, graph.order, ⟨verified, rfl⟩, rfl⟩

/-- The bytes of an accepted graph decode to the graph in its order. -/
theorem decode_encode {bytes : String} (encoded : encodeFinalizedProjection text graph = .ok bytes)
    (reads : text.ReadsBack (wireGraph graph.order)) :
    decodeFinalizedProjection text bytes = .ok graph.order := by
  obtain ⟨current, verified, rfl⟩ := encode_ok.mp encoded
  have ordered := verifyAndOrder_order (verifyAndOrder_ok.mpr ⟨verified, rfl⟩)
  have again : encodeFinalizedProjection text graph.order =
      .ok (text.compactJson (wireGraph graph.order)) := by
    have fixed := (verifyAndOrder_ok.mp ordered).2
    exact encode_ok.mpr ⟨current, (verifyAndOrder_ok.mp ordered).1, by rw [← fixed]⟩
  have parsed : text.parse (text.compactJson (wireGraph graph.order)) =
    .ok (wireGraph graph.order) := reads
  have decoded : decodeGraph (wireGraph graph.order) = .ok graph.order :=
    decodeGraph_wireGraph current
  simp [decodeFinalizedProjection, parsed, decoded, ordered, again, ok_bind, Except.mapError,
    require]

/-- Two orders of the same nodes and edges are put in one order exactly when the edges with
equal ends and name stand in one order. -/
theorem order_eq_iff (shuffle : Shuffle graph other) (verified : Verified text graph) :
    graph.order = other.order ↔
      ∀ ends, graph.edges.filter (·.key = ends) = other.edges.filter (·.key = ends) := by
  rw [← sortOn_eq_iff]
  constructor
  · exact congrArg BackendProjectionGraph.edges
  · intro edges
    have family := verified.family_nodup
    simp only [BackendProjectionGraph.order, BackendProjectionGraph.mk.injEq]
    exact ⟨shuffle.schemaVersion,
      sortOn_eq_of_perm shuffle.executionIdentities (family .executionIdentity),
      sortOn_eq_of_perm shuffle.commitStates (family .commitState),
      sortOn_eq_of_perm shuffle.lifecycleStates (family .lifecycleState),
      sortOn_eq_of_perm shuffle.transitions (family .transition),
      sortOn_eq_of_perm shuffle.projectedLifecycleRoles (family .projectedLifecycleRole),
      sortOn_eq_of_perm shuffle.quorumPolicies (family .quorumPolicy),
      sortOn_eq_of_perm shuffle.guardObligations (family .guardObligation),
      sortOn_eq_of_perm shuffle.evidenceAcceptances (family .evidenceAcceptance),
      sortOn_eq_of_perm shuffle.primitiveObligations (family .primitiveObligation),
      sortOn_eq_of_perm shuffle.balancedEffectGroups (family .balancedEffectGroup),
      sortOn_eq_of_perm shuffle.ledgerPostings (family .ledgerPosting),
      sortOn_eq_of_perm shuffle.balanceAssertions (family .balanceAssertion),
      sortOn_eq_of_perm shuffle.compensationObligations (family .compensationObligation),
      sortOn_eq_of_perm shuffle.typedOperands (family .typedOperand),
      sortOn_eq_of_perm shuffle.typedParams (family .typedParam),
      sortOn_eq_of_perm shuffle.references (family .reference),
      sortOn_eq_of_perm shuffle.computeNodes (family .computeNode), edges⟩

/-- Distinct graphs in their order are spelled by distinct bytes. -/
theorem wire_injective {first second : BackendProjectionGraph}
    (current : first.schemaVersion = kProjectionSchemaVersion)
    (current' : second.schemaVersion = kProjectionSchemaVersion)
    (reads : text.ReadsBack (wireGraph first)) (reads' : text.ReadsBack (wireGraph second))
    (same : text.compactJson (wireGraph first) = text.compactJson (wireGraph second)) :
    first = second := by
  have wires : wireGraph first = wireGraph second := by
    have parsed := reads.symm.trans ((congrArg text.parse same).trans reads')
    exact Except.ok.inj parsed
  have decoded := decodeGraph_wireGraph current
  rw [wires, decodeGraph_wireGraph current'] at decoded
  exact (Except.ok.inj decoded).symm

/-- The bytes of an accepted graph decode to it in its order; two accepted orders of the same
nodes and edges share their bytes exactly when edges with equal ends and name stand in one
order. -/
theorem wire_bytes_canonical_iff {bytes otherBytes : String} (shuffle : Shuffle graph other)
    (encoded : encodeFinalizedProjection text graph = .ok bytes)
    (otherEncoded : encodeFinalizedProjection text other = .ok otherBytes)
    (reads : text.ReadsBack (wireGraph graph.order))
    (otherReads : text.ReadsBack (wireGraph other.order)) :
    decodeFinalizedProjection text bytes = verifyAndOrder text graph ∧
      (bytes = otherBytes ↔
        ∀ ends, graph.edges.filter (·.key = ends) = other.edges.filter (·.key = ends)) := by
  have decoded := decode_encode encoded reads
  obtain ⟨current, verified, rfl⟩ := encode_ok.mp encoded
  obtain ⟨otherCurrent, _, rfl⟩ := encode_ok.mp otherEncoded
  refine ⟨?_, ?_⟩
  · rw [decoded, verifyAndOrder_ok.mpr ⟨verified, rfl⟩]
  · rw [← order_eq_iff shuffle verified]
    exact ⟨wire_injective current otherCurrent reads otherReads, fun same => by rw [same]⟩

/-! Two effect edges that differ in their source only. -/

def otherEffectEdge : ProjectionEdge := ⟨"group", "effectRefs", "posting", "effect:1"⟩

def firstOrder : BackendProjectionGraph := onePosting [effectEdge, otherEffectEdge]

def secondOrder : BackendProjectionGraph := onePosting [otherEffectEdge, effectEdge]

theorem compact_effectEdge (tail tail' : String) :
    (encodeValue effectEdge).compact ++ tail ≠ (encodeValue otherEffectEdge).compact ++ tail' := by
  intro same
  simp only [effectEdge, otherEffectEdge, encodeValue, Json.compact, Json.compactMembers,
    String.append_assoc, String.append_right_inj] at same
  have first : quoteChar '0' = "0" := by decide
  have second : quoteChar '1' = "1" := by decide
  have chars := congrArg String.toList same
  simp [quote, first, second] at chars

theorem compact_first_edge {first second : Json} {rest rest' : List Json}
    {members members' : Json.Object}
    (differ : ∀ tail tail' : String, first.compact ++ tail ≠ second.compact ++ tail') :
    (Json.object (("edges", .array (first :: rest)) :: members)).compact ≠
      (Json.object (("edges", .array (second :: rest')) :: members')).compact := by
  intro same
  simp only [Json.compact, String.append_assoc, String.append_right_inj] at same
  exact differ _ _ same

theorem compact_orders :
    (wireGraph firstOrder).compact ≠ (wireGraph secondOrder).compact :=
  compact_first_edge compact_effectEdge

theorem orders_shuffle : Shuffle firstOrder secondOrder := by
  constructor
  case edges => exact List.Perm.swap _ _ _
  case schemaVersion => rfl
  all_goals exact List.Perm.refl _

theorem firstOrder_ordered : firstOrder.order = firstOrder := by decide +kernel

theorem verify_firstOrder (text : JsonText) : verifyAndOrder text firstOrder = .ok firstOrder := rfl

def ordersText : JsonText := knownText [wireGraph firstOrder, wireGraph secondOrder]

/-- Accepted orders of the same nodes and edges with different bytes, each read back. -/
theorem wire_bytes_differ :
    Shuffle firstOrder secondOrder ∧ ∃ bytes otherBytes,
      encodeFinalizedProjection ordersText firstOrder = .ok bytes ∧
      encodeFinalizedProjection ordersText secondOrder = .ok otherBytes ∧
      ordersText.ReadsBack (wireGraph firstOrder) ∧ ordersText.ReadsBack (wireGraph secondOrder) ∧
      bytes ≠ otherBytes :=
  ⟨orders_shuffle, (wireGraph firstOrder).compact, (wireGraph secondOrder).compact, rfl, rfl,
    knownText_first _ _, knownText_second _ compact_orders, compact_orders⟩

/-- The effect edges stand last, in the order they stood in before. -/
def movedOrder : BackendProjectionGraph :=
  { firstOrder with edges := firstOrder.edges.drop 2 ++ firstOrder.edges.take 2 }

theorem wire_bytes_canonical_moved :
    firstOrder.edges ≠ movedOrder.edges ∧
      encodeFinalizedProjection ordersText firstOrder =
        encodeFinalizedProjection ordersText movedOrder ∧
      decodeFinalizedProjection ordersText (wireGraph firstOrder).compact = .ok firstOrder := by
  have shuffle : Shuffle firstOrder movedOrder := by
    constructor
    case edges =>
      have parts : (firstOrder.edges.take 2 ++ firstOrder.edges.drop 2).Perm movedOrder.edges :=
        List.perm_append_comm
      rwa [List.take_append_drop] at parts
    case schemaVersion => rfl
    all_goals exact List.Perm.refl _
  have moved : movedOrder.order = firstOrder := by decide +kernel
  have encoded : encodeFinalizedProjection ordersText firstOrder =
    .ok (wireGraph firstOrder).compact := rfl
  have movedEncoded : encodeFinalizedProjection ordersText movedOrder =
    .ok (wireGraph movedOrder.order).compact := rfl
  obtain ⟨decoded, bytes⟩ := wire_bytes_canonical_iff shuffle encoded movedEncoded
    (by rw [firstOrder_ordered]; exact knownText_first _ _)
    (by rw [moved]; exact knownText_first _ _)
  have edges := sortOn_eq_iff.mp (congrArg BackendProjectionGraph.edges
    (firstOrder_ordered.trans moved.symm))
  exact ⟨by decide, by rw [encoded, movedEncoded, bytes.mpr edges],
    decoded.trans (verify_firstOrder _)⟩

end Neutrino.Projection
