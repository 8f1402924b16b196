import Mathlib
import Neutrino.DialectExpansion
import Neutrino.JsonBuild

/-! What the generated source is read as, for any values of the dialect's fields. -/

namespace Neutrino

namespace Dialect

open Checked Json SourceLines

/-! The constructs a template declares, line by line. -/

def participantTokens (participant : String × String) : List (List Token) :=
  [[.word "participant", .word participant.1, .word "\x7b"],
    [.word "role", .word "=", .literal participant.2],
    [.word "\x7d"]]

def inputTokens (input : String × String) : List Token :=
  [.word "input", .word input.1, .word ":", .word input.2]

def legTokens (template : Template) (leg : Leg) : List (List Token) :=
  [[.word leg.kind, .word leg.name, .word "\x7b"],
    [.word "ledger", .word "=", .literal leg.ledger],
    [.word "owner", .word "=", .literal leg.role],
    [.word "participant", .word "=", .literal leg.participant],
    [.word "party", .word "=", .word ("%" ++ (leg.role ++ "_id"))],
    [.word "amount", .word "=", .word ("%" ++ template.amount)],
    [.word "currency", .word "=", .word ("%" ++ template.currency)],
    [.word "idempotency_key", .word "=", .word ("%" ++ template.idempotencyKey)],
    [.word "\x7d"]]

/-- One procedure, with the trigger, a block for each participant, a line for each input, a block
for each leg, and the assertion where both kinds of leg occur. -/
def declared (procedure trigger : String) (template : Template) : List (List Token) :=
  [[.word "procedure", .word procedure, .word "\x7b"], [.word "trigger", .word trigger]] ++
  template.participants.flatMap participantTokens ++ template.inputs.map inputTokens ++
  template.legs.flatMap (legTokens template) ++
  (if template.balances then [[.word "assert", .word "balanced"]] else []) ++ [[.word "\x7d"]]

/-- The fields that are rendered as words or in literals. -/
def gatedFields (procedure trigger : String) (template : Template) : List String :=
  [procedure, trigger] ++ template.participants.flatMap (fun participant =>
    [participant.1, participant.2]) ++ template.inputs.map Prod.fst ++
  template.legs.flatMap fun leg => [leg.name, leg.ledger, leg.participant, leg.role]

/-! What the gate lets pass. -/

def Ident (rest : Char → Bool) (text : String) : Prop := startsAs rest text.toList = true

theorem gate_ok {py : PythonText} {rest : Char → Bool} {complaint what text : String}
    {value : Json} (passed : gate py rest complaint value what = .ok text) :
    value = .string text ∧ matchesGrammar rest text = true := by
  unfold gate at passed
  split at passed
  · split at passed
    · rename_i matched
      cases passed
      exact ⟨rfl, matched⟩
    · cases passed
  · cases passed

theorem Ident.of_matches {rest : Char → Bool} {text : String}
    (matched : matchesGrammar rest text = true) (clean : '\n' ∉ text.toList) : Ident rest text := by
  simp only [matchesGrammar, Bool.or_eq_true, Bool.and_eq_true, decide_eq_true_eq] at matched
  rcases matched with whole | ⟨ended, _⟩
  · exact whole
  · exact absurd (List.mem_of_getLast? ended) clean

theorem isPlain_of_isIdentChar {c : Char} (letter : isIdentChar c = true) : isPlain c = true := by
  by_contra other
  simp only [isPlain, SourceLines.isSpace, Bool.and_eq_true, Bool.not_eq_true', decide_eq_true_eq,
    Bool.or_eq_false_iff, decide_eq_false_iff_not] at other
  have blank : c = ' ' ∨ c = '\t' ∨ c = '\n' ∨ c = '\x0b' ∨ c = '\x0c' ∨ c = '\r' ∨ c = '"' ∨
      c = '#' ∨ c = '/' := by
    by_contra none'
    simp only [not_or] at none'
    exact other ⟨⟨⟨⟨⟨⟨⟨⟨none'.1, none'.2.1⟩, none'.2.2.1⟩, none'.2.2.2.1⟩, none'.2.2.2.2.1⟩,
      none'.2.2.2.2.2.1⟩, none'.2.2.2.2.2.2.1⟩, none'.2.2.2.2.2.2.2.1⟩, none'.2.2.2.2.2.2.2.2⟩
  revert letter
  rcases blank with rfl | rfl | rfl | rfl | rfl | rfl | rfl | rfl | rfl <;> decide

theorem isPlain_of_isLedgerChar {c : Char} (listed : isLedgerChar c = true) :
    isPlain c = true := by
  simp only [isLedgerChar, Bool.or_eq_true, decide_eq_true_eq] at listed
  rcases listed with letter | rfl
  · exact isPlain_of_isIdentChar letter
  · decide

theorem startsAs_forall {rest : Char → Bool} {text : List Char}
    (letters : ∀ c, isLetter c = true → rest c = true) (starts : startsAs rest text = true) :
    text ≠ [] ∧ ∀ c ∈ text, rest c = true := by
  cases text with
  | nil => simp [startsAs] at starts
  | cons c others =>
      simp only [startsAs, Bool.and_eq_true, List.all_eq_true] at starts
      refine ⟨by simp, ?_⟩
      intro d listed
      rcases List.mem_cons.mp listed with rfl | later
      · exact letters d starts.1
      · exact starts.2 d later

theorem Ident.plain {text : String} (ident : Ident isIdentChar text) :
    text ≠ "" ∧ ∀ c ∈ text.toList, isPlain c = true := by
  have chars := startsAs_forall (fun c letter => by simp [isIdentChar, letter]) ident
  refine ⟨?_, fun c listed => isPlain_of_isIdentChar (chars.2 c listed)⟩
  rintro rfl
  exact chars.1 rfl

theorem literal_spelt_of_plain {text : String} (plain : ∀ c ∈ text.toList, isPlain c = true) :
    (Token.literal text).Spelt := by
  intro c listed
  have here := plain c listed
  simp only [isPlain, SourceLines.isSpace, Bool.and_eq_true, Bool.not_eq_true', decide_eq_true_eq,
    Bool.or_eq_false_iff, decide_eq_false_iff_not] at here
  exact ⟨here.1.1.2, here.1.2, here.2, here.1.1.1.1.1.1.2⟩

theorem Ident.literal {text : String} (ident : Ident isIdentChar text) :
    (Token.literal text).Spelt :=
  literal_spelt_of_plain ident.plain.2

theorem Ident.ledgerLiteral {text : String} (ident : Ident isLedgerChar text) :
    (Token.literal text).Spelt := by
  have chars := startsAs_forall (fun c letter => by simp [isLedgerChar, isIdentChar, letter]) ident
  exact literal_spelt_of_plain fun c listed => isPlain_of_isLedgerChar (chars.2 c listed)

theorem word_append_spelt {first second : String} (plainFirst : ∀ c ∈ first.toList, isPlain c = true)
    (plainSecond : ∀ c ∈ second.toList, isPlain c = true) (some' : first ≠ "") :
    (Token.word (first ++ second)).Spelt := by
  refine ⟨?_, ?_⟩
  · intro empty
    have length := congrArg String.length empty
    rw [String.length_append] at length
    have none' : first.length = 0 := by
      have zero : ("" : String).length = 0 := rfl
      omega
    exact some' (String.length_eq_zero_iff.mp none')
  · intro c listed
    rw [String.toList_append, List.mem_append] at listed
    exact listed.elim (plainFirst c) (plainSecond c)

/-- What is rendered is of the grammar of its place, and the operands are inputs. -/
structure Template.Holds (accepts : (Char → Bool) → String → Prop) (procedure trigger : String)
    (template : Template) : Prop where
  procedure : accepts isIdentChar procedure
  trigger : accepts isIdentChar trigger
  participants : ∀ participant ∈ template.participants,
    accepts isIdentChar participant.1 ∧ accepts isIdentChar participant.2
  inputs : ∀ input ∈ template.inputs, accepts isIdentChar input.1 ∧ input.2 ∈ inputTypes
  legs : ∀ leg ∈ template.legs, leg.kind ∈ ["debit", "credit"] ∧
    accepts isIdentChar leg.name ∧ accepts isLedgerChar leg.ledger ∧
    accepts isIdentChar leg.participant ∧ accepts isIdentChar leg.role
  operands : ∀ name ∈ [template.amount, template.currency, template.idempotencyKey],
    name ∈ template.inputs.map Prod.fst

def Matches (rest : Char → Bool) (text : String) : Prop := matchesGrammar rest text = true

theorem Template.Holds.ident {procedure trigger : String} {template : Template}
    (gated : template.Holds Matches procedure trigger)
    (clean : ∀ field ∈ gatedFields procedure trigger template, '\n' ∉ field.toList) :
    template.Holds Ident procedure trigger := by
  have listed : ∀ {rest : Char → Bool} {field : String}, Matches rest field →
      field ∈ gatedFields procedure trigger template → Ident rest field :=
    fun matched present => .of_matches matched (clean _ present)
  refine ⟨listed gated.procedure (by simp [gatedFields]),
    listed gated.trigger (by simp [gatedFields]), ?_, ?_, ?_, gated.operands⟩
  · intro participant present
    have held : ∀ field ∈ [participant.1, participant.2],
        field ∈ gatedFields procedure trigger template := by
      intro field here
      simp only [gatedFields, List.mem_append, List.mem_flatMap]
      exact .inl (.inl (.inr ⟨participant, present, here⟩))
    have matched := gated.participants participant present
    exact ⟨listed matched.1 (held _ (by simp)), listed matched.2 (held _ (by simp))⟩
  · intro input present
    have matched := gated.inputs input present
    refine ⟨listed matched.1 ?_, matched.2⟩
    simp only [gatedFields, List.mem_append]
    exact .inl (.inr (List.mem_map_of_mem present))
  · intro leg present
    have held : ∀ field ∈ [leg.name, leg.ledger, leg.participant, leg.role],
        field ∈ gatedFields procedure trigger template := by
      intro field here
      simp only [gatedFields, List.mem_append, List.mem_flatMap]
      exact .inr ⟨leg, present, here⟩
    obtain ⟨kind, name, path, participant, role⟩ := gated.legs leg present
    exact ⟨kind, listed name (held _ (by simp)), listed path (held _ (by simp)),
      listed participant (held _ (by simp)), listed role (held _ (by simp))⟩

/-! The lines of a template whose fields are identifiers and ledger paths. -/

theorem spelt_three {first second third : Token} (one : first.Spelt) (two : second.Spelt)
    (three : third.Spelt) : ∀ token ∈ [first, second, third], token.Spelt := by
  intro token listed
  simp only [List.mem_cons, List.not_mem_nil, or_false] at listed
  rcases listed with rfl | rfl | rfl
  · exact one
  · exact two
  · exact three

theorem participantLines_tokens {participant : String × String}
    (name : Ident isIdentChar participant.1) (role : Ident isIdentChar participant.2) :
    (participantLines participant).flatMap lineTokens = participantTokens participant := by
  have opened : lineTokens ("    participant " ++ participant.1 ++ " \x7b") =
      [[.word "participant", .word participant.1, .word "\x7b"]] :=
    lineTokens_line 4 (by simp [spell, List.intercalate, Token.spell]) (by simp)
      (spelt_three (by decide) name.plain (by decide))
  have held : lineTokens ("        role = \"" ++ participant.2 ++ "\"") =
      [[.word "role", .word "=", .literal participant.2]] :=
    lineTokens_line 8 (by simp [spell, List.intercalate, Token.spell]) (by simp)
      (spelt_three (by decide) (by decide) role.literal)
  have closed : lineTokens "    \x7d" = [[.word "\x7d"]] := by decide
  simp only [participantLines, participantTokens, List.flatMap_cons, List.flatMap_nil, opened, held,
    closed, List.cons_append, List.nil_append]

theorem inputLine_tokens {input : String × String} (name : Ident isIdentChar input.1)
    (type : input.2 ∈ inputTypes) :
    lineTokens ("    input " ++ input.1 ++ " : " ++ input.2) = [inputTokens input] := by
  have spelt : ∀ word ∈ inputTypes, (Token.word word).Spelt := by decide
  refine lineTokens_line 4 (by simp [spell, List.intercalate, Token.spell, inputTokens])
    (by simp [inputTokens]) ?_
  simp only [inputTokens, List.forall_mem_cons, List.not_mem_nil, false_imp_iff, implies_true,
    and_true]
  exact ⟨by decide, name.plain, by decide, spelt _ type⟩

theorem operand_spelt {name : String} (ident : Ident isIdentChar name) :
    (Token.word ("%" ++ name)).Spelt :=
  word_append_spelt (List.all_eq_true.mp (by decide)) ident.plain.2 (by decide)

theorem legLines_tokens {procedure trigger : String} {template : Template}
    (holds : template.Holds Ident procedure trigger) {leg : Leg} (listed : leg ∈ template.legs) :
    (legLines template leg).flatMap lineTokens = legTokens template leg := by
  obtain ⟨kind, name, path, participant, role⟩ := holds.legs leg listed
  have kinds : ∀ word ∈ ["debit", "credit"], (Token.word word).Spelt := by decide
  have operand : ∀ name ∈ [template.amount, template.currency, template.idempotencyKey],
      (Token.word ("%" ++ name)).Spelt := by
    intro name read
    obtain ⟨input, present, rfl⟩ := List.mem_map.mp (holds.operands name read)
    exact operand_spelt (holds.inputs input present).1
  have party : (Token.word ("%" ++ (leg.role ++ "_id"))).Spelt := by
    refine word_append_spelt (List.all_eq_true.mp (by decide)) ?_ (by decide)
    intro c here
    rw [String.toList_append, List.mem_append] at here
    rcases here with inner | suffix
    · exact role.plain.2 c inner
    · exact List.all_eq_true.mp (show "_id".toList.all isPlain = true by decide) c suffix
  have opened : lineTokens ("    " ++ leg.kind ++ " " ++ leg.name ++ " \x7b") =
      [[.word leg.kind, .word leg.name, .word "\x7b"]] :=
    lineTokens_line 4 (by simp [spell, List.intercalate, Token.spell]) (by simp)
      (spelt_three (kinds _ kind) name.plain (by decide))
  have ledgerLine : lineTokens ("        ledger = \"" ++ leg.ledger ++ "\"") =
      [[.word "ledger", .word "=", .literal leg.ledger]] :=
    lineTokens_line 8 (by simp [spell, List.intercalate, Token.spell]) (by simp)
      (spelt_three (by decide) (by decide) path.ledgerLiteral)
  have owner : lineTokens ("        owner = \"" ++ leg.role ++ "\"") =
      [[.word "owner", .word "=", .literal leg.role]] :=
    lineTokens_line 8 (by simp [spell, List.intercalate, Token.spell]) (by simp)
      (spelt_three (by decide) (by decide) role.literal)
  have held : lineTokens ("        participant = \"" ++ leg.participant ++ "\"") =
      [[.word "participant", .word "=", .literal leg.participant]] :=
    lineTokens_line 8 (by simp [spell, List.intercalate, Token.spell]) (by simp)
      (spelt_three (by decide) (by decide) participant.literal)
  have partyLine : lineTokens ("        party = %" ++ leg.role ++ "_id") =
      [[.word "party", .word "=", .word ("%" ++ (leg.role ++ "_id"))]] :=
    lineTokens_line 8 (by simp [spell, List.intercalate, Token.spell]) (by simp)
      (spelt_three (by decide) (by decide) party)
  have amount : lineTokens ("        amount = %" ++ template.amount) =
      [[.word "amount", .word "=", .word ("%" ++ template.amount)]] :=
    lineTokens_line 8 (by simp [spell, List.intercalate, Token.spell]) (by simp)
      (spelt_three (by decide) (by decide) (operand _ (by simp)))
  have currency : lineTokens ("        currency = %" ++ template.currency) =
      [[.word "currency", .word "=", .word ("%" ++ template.currency)]] :=
    lineTokens_line 8 (by simp [spell, List.intercalate, Token.spell]) (by simp)
      (spelt_three (by decide) (by decide) (operand _ (by simp)))
  have key : lineTokens ("        idempotency_key = %" ++ template.idempotencyKey) =
      [[.word "idempotency_key", .word "=", .word ("%" ++ template.idempotencyKey)]] :=
    lineTokens_line 8 (by simp [spell, List.intercalate, Token.spell]) (by simp)
      (spelt_three (by decide) (by decide) (operand _ (by simp)))
  have closed : lineTokens "    \x7d" = [[.word "\x7d"]] := by decide
  simp only [legLines, legTokens, List.flatMap_cons, List.flatMap_nil, opened, ledgerLine, owner,
    held, partyLine, amount, currency, key, closed, List.cons_append, List.nil_append]

/-- The generated lines, in order. -/
theorem sections_lines (domain version templateId procedure trigger : String)
    (template : Template) :
    (sections domain version templateId procedure trigger template).flatMap Prod.snd =
      [headerLine domain version templateId] ++ [
        "// DO NOT EDIT — regenerate with scripts/domain/expand_dialect.py. Every construct traces",
        "// to a domain term + mapping-graph edge in the .expansion.json sidecar.", ""] ++
      ["procedure " ++ procedure ++ " \x7b"] ++ ["    trigger " ++ trigger] ++ [""] ++
      template.participants.flatMap participantLines ++
      (if template.participants = [] then [] else [""]) ++
      (template.inputs.map fun input => "    input " ++ input.1 ++ " : " ++ input.2) ++
      (template.legs.flatMap fun leg => "" :: legLines template leg) ++
      (if template.balances then ["", "    assert balanced"] else []) ++ ["\x7d", ""] := by
  simp [sections, List.flatMap_map, List.flatMap_assoc]

/-- The tokens of each construct: the header is the only line that is not gated. -/
theorem sections_tokens (domain version templateId : String) {procedure trigger : String}
    {template : Template} (holds : template.Holds Ident procedure trigger) :
    ((sections domain version templateId procedure trigger template).flatMap
      Prod.snd).flatMap lineTokens =
    lineTokens (headerLine domain version templateId) ++ declared procedure trigger template := by
  have opened : lineTokens ("procedure " ++ procedure ++ " \x7b") =
      [[.word "procedure", .word procedure, .word "\x7b"]] :=
    lineTokens_line 0 (by simp [spell, List.intercalate, Token.spell]) (by simp)
      (spelt_three (by decide) holds.procedure.plain (by decide))
  have triggered : lineTokens ("    trigger " ++ trigger) = [[.word "trigger", .word trigger]] := by
    refine lineTokens_line 4 (by simp [spell, List.intercalate, Token.spell]) (by simp) ?_
    simp only [List.forall_mem_cons, List.not_mem_nil, false_imp_iff, implies_true, and_true]
    exact ⟨by decide, holds.trigger.plain⟩
  have participants : (template.participants.flatMap participantLines).flatMap lineTokens =
      template.participants.flatMap participantTokens := by
    rw [List.flatMap_assoc]
    exact List.flatMap_congr fun participant listed =>
      participantLines_tokens (holds.participants _ listed).1 (holds.participants _ listed).2
  have inputs : (template.inputs.map fun input =>
      "    input " ++ input.1 ++ " : " ++ input.2).flatMap lineTokens =
      template.inputs.map inputTokens := by
    rw [List.flatMap_map, List.flatMap_congr fun input listed =>
      inputLine_tokens (holds.inputs input listed).1 (holds.inputs input listed).2,
      ← List.map_eq_flatMap]
  have legs : (template.legs.flatMap fun leg => "" :: legLines template leg).flatMap lineTokens =
      template.legs.flatMap (legTokens template) := by
    rw [List.flatMap_assoc]
    refine List.flatMap_congr fun leg listed => ?_
    rw [List.flatMap_cons, legLines_tokens holds listed]
    rfl
  have comments : [
      "// DO NOT EDIT — regenerate with scripts/domain/expand_dialect.py. Every construct traces",
      "// to a domain term + mapping-graph edge in the .expansion.json sidecar.", ""].flatMap
      lineTokens = [] := by
    rw [List.flatMap_eq_nil_iff]
    intro line listed
    rw [lineTokens_nil_iff]
    simp only [List.mem_cons, List.not_mem_nil, or_false] at listed
    rcases listed with rfl | rfl | rfl
    · rw [String.toList_ofList]
      decide +kernel
    · rw [String.toList_ofList]
      decide +kernel
    · decide
  have blank : [""].flatMap lineTokens = [] := by decide
  have gap : (if template.participants = [] then [] else [""]).flatMap lineTokens = [] := by
    split <;> decide
  have balanced : (if template.balances then ["", "    assert balanced"] else []).flatMap
      lineTokens = if template.balances then [[.word "assert", .word "balanced"]] else [] := by
    split <;> decide
  have closed : ["\x7d", ""].flatMap lineTokens = [[.word "\x7d"]] := by decide
  rw [sections_lines]
  simp only [List.flatMap_append, comments, blank, gap, balanced, closed, participants, inputs,
    legs, List.flatMap_singleton, opened, triggered]
  simp [declared]

/-! What the template is read from. -/

def ReadsParticipant (member : String × Json) (participant : String × String) : Prop :=
  member.1 = participant.1 ∧ ∃ definition : Object, member.2 = .object definition ∧
    definition.get "role" = some (.string participant.2)

def ReadsInput (member : String × Json) (input : String × String) : Prop :=
  member.1 = input.1 ∧ member.2 = .string input.2

def ReadsLeg (participants : Object) (obligation : Json) (leg : Leg) : Prop :=
  ∃ members : Object, obligation = .object members ∧
    members.get "kind" = some (.string leg.kind) ∧
    members.get "name" = some (.string leg.name) ∧
    members.get "ledger" = some (.string leg.ledger) ∧
    members.get "participant" = some (.string leg.participant) ∧
    ∃ part : Object, participants.get leg.participant = some (.object part) ∧
      part.get "role" = some (.string leg.role)

/-- The only input of a type. -/
def OnlyInput (template : Template) (type name : String) : Prop :=
  template.inputs.filter (fun input => input.2 = type) = [(name, type)]

/-- The template holds what the dialect's member of this id holds, in the same order. -/
structure Reads (dialect : Object) (templateId : String) (template : Template) : Prop where
  members : ∃ (templates body participants required : Object) (obligations : List Json),
    dialect.get "templates" = some (.object templates) ∧
    templates.get templateId = some (.object body) ∧
    getOr body "participants" (.object []) = .object participants ∧
    getOr body "requiredInputs" (.object []) = .object required ∧
    iterate (getOr body "obligations" (.array [])) = .ok obligations ∧
    List.Forall₂ ReadsParticipant participants template.participants ∧
    List.Forall₂ ReadsInput required template.inputs ∧
    List.Forall₂ (ReadsLeg participants) obligations template.legs
  amount : OnlyInput template "money" template.amount
  currency : OnlyInput template "currency" template.currency
  idempotencyKey : OnlyInput template "string" template.idempotencyKey

section Template

variable {py : PythonText}

theorem asDict_ok {value : Json} {members : Object} (read : asDict value = .ok members) :
    value = .object members := by
  cases value with
  | object found =>
      cases read
      rfl
  | _ => cases read

theorem not_matches_empty (rest : Char → Bool) : matchesGrammar rest "" = false := rfl

/-- A gated member that defaults to the empty text is present. -/
theorem gate_getOr {rest : Char → Bool} {complaint what text key : String} {object : Object}
    (passed : gate py rest complaint (getOr object key (.string "")) what = .ok text) :
    object.get key = some (.string text) ∧ Matches rest text := by
  obtain ⟨read, matched⟩ := gate_ok passed
  refine ⟨?_, matched⟩
  unfold getOr at read
  cases found : object.get key with
  | some value =>
      rw [found, Option.getD_some] at read
      rw [read]
  | none =>
      rw [found, Option.getD_none] at read
      cases read
      rw [not_matches_empty] at matched
      cases matched

theorem checkParticipant_ok {member : String × Json} {participant : String × String}
    (passed : checkParticipant py member = .ok participant) :
    ReadsParticipant member participant ∧ Matches isIdentChar participant.1 ∧
      Matches isIdentChar participant.2 := by
  obtain ⟨name, named, passed⟩ := bind_ok.mp passed
  obtain ⟨definition, defined, passed⟩ := bind_ok.mp passed
  obtain ⟨role, gated, passed⟩ := bind_ok.mp passed
  cases passed
  obtain ⟨read, matched⟩ := gate_ok named
  cases read
  obtain ⟨found, roleMatched⟩ := gate_getOr gated
  refine ⟨⟨rfl, definition, ?_, found⟩, matched, roleMatched⟩
  unfold orEmpty at defined
  split at defined
  · exact asDict_ok defined
  · cases defined
    cases found

theorem checkInput_ok {member : String × Json} {input : String × String}
    (passed : checkInput py member = .ok input) :
    ReadsInput member input ∧ Matches isIdentChar input.1 ∧ input.2 ∈ inputTypes := by
  obtain ⟨name, named, passed⟩ := bind_ok.mp passed
  obtain ⟨read, matched⟩ := gate_ok named
  cases read
  split at passed
  · rename_i type stored
    split at passed
    · rename_i listed
      cases passed
      exact ⟨⟨rfl, stored⟩, matched, listed⟩
    · cases passed
  all_goals cases passed

theorem checkKind_ok {value name : Json} {kind : String}
    (passed : checkKind py value name = .ok kind) :
    value = .string kind ∧ kind ∈ ["debit", "credit"] := by
  unfold checkKind at passed
  split at passed
  · split at passed
    · rename_i listed
      cases passed
      exact ⟨rfl, by simpa using listed⟩
    · cases passed
  · cases passed

theorem checkObligation_ok {participants : Object} {obligation : Json} {leg : Leg}
    (passed : checkObligation py participants obligation = .ok leg) :
    ReadsLeg participants obligation leg ∧ leg.kind ∈ ["debit", "credit"] ∧
      Matches isIdentChar leg.name ∧ Matches isLedgerChar leg.ledger ∧
      Matches isIdentChar leg.role := by
  unfold checkObligation at passed
  obtain ⟨members, read, passed⟩ := bind_ok.mp passed
  obtain ⟨kind, kinded, passed⟩ := bind_ok.mp passed
  obtain ⟨name, named, passed⟩ := bind_ok.mp passed
  obtain ⟨path, pathed, passed⟩ := bind_ok.mp passed
  obtain ⟨_, passed⟩ := check_ok.mp passed
  obtain ⟨nameFound, nameMatched⟩ := gate_getOr named
  obtain ⟨pathFound, pathMatched⟩ := gate_getOr pathed
  have present : ∀ {key text : String}, getOr members key .null = .string text →
      members.get key = some (.string text) := by
    intro key text stored
    unfold getOr at stored
    cases found : members.get key with
    | some value => rw [← stored, found, Option.getD_some]
    | none =>
        rw [found] at stored
        cases stored
  split at passed
  · rename_i participant party
    split at passed
    · rename_i part partFound
      obtain ⟨role, roled, passed⟩ := bind_ok.mp passed
      cases passed
      obtain ⟨roleFound, roleMatched⟩ := gate_getOr roled
      obtain ⟨kindStored, listed⟩ := checkKind_ok kinded
      exact ⟨⟨members, asDict_ok read, present kindStored, nameFound, pathFound, present party,
        part, partFound, roleFound⟩, listed, nameMatched, pathMatched, roleMatched⟩
    · cases passed
  · cases passed

theorem uniqueInput_ok {required : Object} {type what name : String}
    (passed : uniqueInput py required type what = .ok name) :
    (required.filter fun input => isString input.2 type).map Prod.fst = [name] := by
  unfold uniqueInput at passed
  split at passed
  · rename_i found
    cases passed
    exact found
  · cases passed

theorem uniqueInput_reads {required : Object} {inputs : List (String × String)}
    (reads : List.Forall₂ ReadsInput required inputs) (type : String) :
    (required.filter fun input => isString input.2 type).map Prod.fst =
      (inputs.filter fun input => input.2 = type).map Prod.fst := by
  induction reads with
  | nil => rfl
  | @cons member input _ _ here _ ih =>
      obtain ⟨named, typed⟩ := here
      have same : isString member.2 type = decide (input.2 = type) := by rw [typed]; rfl
      simp only [List.filter_cons, same]
      split
      · simp only [List.map_cons, ih, named]
      · exact ih

theorem onlyInput_of_names {template : Template} {type name : String}
    (names : (template.inputs.filter fun input => input.2 = type).map Prod.fst = [name]) :
    OnlyInput template type name := by
  obtain ⟨input, alone, rfl⟩ := List.map_eq_singleton_iff.mp names
  have kept : input ∈ template.inputs.filter fun input => input.2 = type := by simp [alone]
  have typed : input.2 = type := by simpa using (List.mem_filter.mp kept).2
  rw [OnlyInput, alone, ← typed]

theorem OnlyInput.mem {template : Template} {type name : String}
    (only : OnlyInput template type name) : name ∈ template.inputs.map Prod.fst := by
  have kept : (name, type) ∈ template.inputs.filter fun input => input.2 = type := by
    rw [OnlyInput] at only
    simp [only]
  exact List.mem_map_of_mem (List.mem_filter.mp kept).1

theorem readTemplate_reads {dialect : Object} {templateId procedure trigger : String}
    {template : Template}
    (read : readTemplate py dialect templateId procedure trigger = .ok template) :
    Reads dialect templateId template ∧ template.Holds Matches procedure trigger := by
  unfold readTemplate at read
  obtain ⟨templates, templatesRead, read⟩ := bind_ok.mp read
  obtain ⟨found, read⟩ := check_ok.mp read
  obtain ⟨body, bodyRead, read⟩ := bind_ok.mp read
  obtain ⟨_, read⟩ := check_ok.mp read
  obtain ⟨required, requiredRead, read⟩ := bind_ok.mp read
  obtain ⟨amount, amountRead, read⟩ := bind_ok.mp read
  obtain ⟨currency, currencyRead, read⟩ := bind_ok.mp read
  obtain ⟨idempotencyKey, keyRead, read⟩ := bind_ok.mp read
  obtain ⟨_, procedureGate, read⟩ := bind_ok.mp read
  obtain ⟨_, triggerGate, read⟩ := bind_ok.mp read
  obtain ⟨participants, participantsRead, read⟩ := bind_ok.mp read
  obtain ⟨checked, checkedRead, read⟩ := bind_ok.mp read
  obtain ⟨inputs, inputsRead, read⟩ := bind_ok.mp read
  obtain ⟨obligations, obligationsRead, read⟩ := bind_ok.mp read
  obtain ⟨legs, legsRead, read⟩ := bind_ok.mp read
  cases read
  have stored := asDict_ok templatesRead
  have body' := asDict_ok bodyRead
  have participantsReads : List.Forall₂ ReadsParticipant participants checked :=
    (collect_ok.mp checkedRead).imp fun _ _ passed => (checkParticipant_ok passed).1
  have inputsReads : List.Forall₂ ReadsInput required inputs :=
    (collect_ok.mp inputsRead).imp fun _ _ passed => (checkInput_ok passed).1
  have only : ∀ {type what name : String}, uniqueInput py required type what = .ok name →
      (inputs.filter fun input => input.2 = type).map Prod.fst = [name] := by
    intro type what name unique
    rw [← uniqueInput_reads inputsReads]
    exact uniqueInput_ok unique
  have bodyFound : templates.get templateId = some (.object body) := by
    cases located : templates.get templateId with
    | some value =>
        rw [located] at body'
        rw [← body', Option.getD_some]
    | none =>
        rw [located] at body'
        cases body'
  have templatesFound : Object.get dialect "templates" = some (.object templates) := by
    unfold getOr at stored
    cases located : Object.get dialect "templates" with
    | some value => rw [← stored, located, Option.getD_some]
    | none =>
        rw [located] at stored
        cases stored
        cases bodyFound
  refine ⟨⟨⟨templates, body, participants, required, obligations, templatesFound, bodyFound,
    asDict_ok participantsRead, asDict_ok requiredRead, obligationsRead, participantsReads,
    inputsReads, (collect_ok.mp legsRead).imp fun _ _ passed => (checkObligation_ok passed).1⟩,
    onlyInput_of_names (only amountRead), onlyInput_of_names (only currencyRead),
    onlyInput_of_names (only keyRead)⟩, ?_⟩
  obtain ⟨named, procedureMatched⟩ := gate_ok procedureGate
  obtain ⟨fired, triggerMatched⟩ := gate_ok triggerGate
  cases named
  cases fired
  have participantMatched : ∀ participant ∈ checked,
      Matches isIdentChar participant.1 ∧ Matches isIdentChar participant.2 := by
    intro participant listed
    obtain ⟨_, _, passed⟩ := collect_mem_result checkedRead listed
    exact (checkParticipant_ok passed).2
  refine ⟨procedureMatched, triggerMatched, participantMatched, ?_, ?_, ?_⟩
  · intro input listed
    obtain ⟨_, _, passed⟩ := collect_mem_result inputsRead listed
    exact (checkInput_ok passed).2
  · intro leg listed
    obtain ⟨obligation, _, passed⟩ := collect_mem_result legsRead listed
    obtain ⟨⟨_, _, _, _, _, _, _, partFound, _⟩, kind, name, path, role⟩ :=
      checkObligation_ok passed
    -- a leg's participant is a key of the participants, and these are gated
    obtain ⟨participant, present, passed⟩ := collect_mem checkedRead (Object.mem_of_get partFound)
    have same : leg.participant = participant.1 := (checkParticipant_ok passed).1.1
    exact ⟨kind, name, path, same ▸ (participantMatched _ present).1, role⟩
  · intro name listed
    simp only [List.mem_cons, List.not_mem_nil, or_false] at listed
    rcases listed with rfl | rfl | rfl
    · exact (onlyInput_of_names (only amountRead)).mem
    · exact (onlyInput_of_names (only currencyRead)).mem
    · exact (onlyInput_of_names (only keyRead)).mem

end Template

/-! The exact condition. -/

theorem gatedFields_clean {procedure trigger : String} {template : Template} {text : String}
    (same : lineTokens text = declared procedure trigger template) :
    ∀ field ∈ gatedFields procedure trigger template, '\n' ∉ field.toList := by
  have shown : ∀ {tokens : List Token}, tokens ∈ declared procedure trigger template →
      ∀ {token : Token}, token ∈ tokens → '\n' ∉ token.text.toList := by
    intro tokens listed token read
    rw [← same] at listed
    exact lineTokens_clean listed read
  have inParticipant : ∀ participant ∈ template.participants, ∀ {tokens : List Token},
      tokens ∈ participantTokens participant → tokens ∈ declared procedure trigger template := by
    intro participant present tokens here
    simp only [declared, List.mem_append, List.mem_flatMap]
    exact .inl (.inl (.inl (.inl (.inr ⟨participant, present, here⟩))))
  have inLeg : ∀ leg ∈ template.legs, ∀ {tokens : List Token},
      tokens ∈ legTokens template leg → tokens ∈ declared procedure trigger template := by
    intro leg present tokens here
    simp only [declared, List.mem_append, List.mem_flatMap]
    exact .inl (.inl (.inr ⟨leg, present, here⟩))
  intro field listed
  simp only [gatedFields, List.mem_append, List.mem_flatMap, List.mem_map, List.mem_cons,
    List.not_mem_nil, or_false] at listed
  rcases listed with ((((rfl | rfl) | ⟨participant, present, rfl | rfl⟩) | ⟨input, present, rfl⟩) |
    ⟨leg, present, rfl | rfl | rfl | rfl⟩)
  · exact @shown [.word "procedure", .word field, .word "\x7b"] (by simp [declared])
      (.word field) (by simp)
  · exact @shown [.word "trigger", .word field] (by simp [declared]) (.word field) (by simp)
  · exact @shown [.word "participant", .word participant.1, .word "\x7b"]
      (inParticipant _ present (by simp [participantTokens])) (.word participant.1) (by simp)
  · exact @shown [.word "role", .word "=", .literal participant.2]
      (inParticipant _ present (by simp [participantTokens])) (.literal participant.2) (by simp)
  · refine @shown (inputTokens input) ?_ (.word input.1) (by simp [inputTokens])
    simp only [declared, List.mem_append, List.mem_map]
    exact .inl (.inl (.inl (.inr ⟨input, present, rfl⟩)))
  · exact @shown [.word leg.kind, .word leg.name, .word "\x7b"]
      (inLeg _ present (by simp [legTokens])) (.word leg.name) (by simp)
  · exact @shown [.word "ledger", .word "=", .literal leg.ledger]
      (inLeg _ present (by simp [legTokens])) (.literal leg.ledger) (by simp)
  · exact @shown [.word "participant", .word "=", .literal leg.participant]
      (inLeg _ present (by simp [legTokens])) (.literal leg.participant) (by simp)
  · exact @shown [.word "owner", .word "=", .literal leg.role]
      (inLeg _ present (by simp [legTokens])) (.literal leg.role) (by simp)

theorem renderNeu_ok {py : PythonText} {dialect : Object}
    {templateId procedure trigger text : String} {spans : List (String × Nat × Nat)}
    (rendered : renderNeu py dialect templateId procedure trigger = .ok (text, spans)) :
    ∃ template domain version,
      readTemplate py dialect templateId procedure trigger = .ok template ∧
      dialect.get "domain" = some domain ∧ dialect.get "version" = some version ∧
      text = String.intercalate "\n" ((sections (py.str domain) (py.str version) templateId
        procedure trigger template).flatMap Prod.snd) := by
  obtain ⟨template, read, rendered⟩ := bind_ok.mp rendered
  obtain ⟨domain, domainRead, rendered⟩ := bind_ok.mp rendered
  obtain ⟨version, versionRead, rendered⟩ := bind_ok.mp rendered
  obtain ⟨_, _, rendered⟩ := bind_ok.mp rendered
  cases rendered
  have stored : ∀ {key : String} {value : Json}, subscript dialect key = .ok value →
      dialect.get key = some value := by
    intro key value held
    unfold subscript at held
    split at held
    · rename_i found
      cases held
      exact found
    · cases held
  exact ⟨template, domain, version, read, stored domainRead, stored versionRead, rfl⟩

/-- A text from the lines of its sections. -/
theorem renderNeu_of_lines {py : PythonText} {dialect : Object}
    {templateId procedure trigger : String} {template : Template} {domain version : Json}
    {lines : List String} {placed : List (String × Nat × Nat)}
    (read : readTemplate py dialect templateId procedure trigger = .ok template)
    (domainFound : subscript dialect "domain" = .ok domain)
    (versionFound : subscript dialect "version" = .ok version)
    (parties : (collect (fun leg : Leg => partyInput template.inputs leg.role)
      template.legs).isOk = true)
    (written : (sections (py.str domain) (py.str version) templateId procedure trigger
      template).flatMap Prod.snd = lines)
    (spanned : spans 1 (sections (py.str domain) (py.str version) templateId procedure trigger
      template) = placed) :
    renderNeu py dialect templateId procedure trigger =
      .ok (String.intercalate "\n" lines, placed) := by
  obtain ⟨_, collected⟩ := isOk_exists.mp parties
  rw [renderNeu, read, ok_bind, domainFound, ok_bind, versionFound, ok_bind, collected, ok_bind,
    ← written, ← spanned]
  rfl

/-- Nothing but the declared constructs is read from the generated text exactly when no gated
field ends its line and every line of the header is blank or a comment. -/
theorem expansion_exact (py : PythonText) (dialect : Object)
    (templateId procedure trigger text : String) (spans : List (String × Nat × Nat))
    (rendered : renderNeu py dialect templateId procedure trigger = .ok (text, spans)) :
    ∃ template domain version, Reads dialect templateId template ∧
      dialect.get "domain" = some domain ∧ dialect.get "version" = some version ∧
      (lineTokens text = declared procedure trigger template ↔
        (∀ field ∈ gatedFields procedure trigger template, '\n' ∉ field.toList) ∧
        ∀ line ∈ splitLines (headerLine (py.str domain) (py.str version) templateId).toList,
          Quiet line) := by
  obtain ⟨template, domain, version, read, domainFound, versionFound, rfl⟩ := renderNeu_ok rendered
  obtain ⟨reads, matched⟩ := readTemplate_reads read
  refine ⟨template, domain, version, reads, domainFound, versionFound, ?_⟩
  have tokens : ∀ clean : ∀ field ∈ gatedFields procedure trigger template,
      '\n' ∉ field.toList, lineTokens (String.intercalate "\n" ((sections (py.str domain)
        (py.str version) templateId procedure trigger template).flatMap Prod.snd)) =
      lineTokens (headerLine (py.str domain) (py.str version) templateId) ++
        declared procedure trigger template := by
    intro clean
    rw [lineTokens_intercalate (by rw [sections_lines]; simp),
      sections_tokens _ _ _ (matched.ident clean)]
  rw [← lineTokens_nil_iff]
  constructor
  · intro same
    have clean := gatedFields_clean same
    rw [tokens clean] at same
    exact ⟨clean, List.append_left_eq_self.mp same⟩
  · rintro ⟨clean, quiet⟩
    rw [tokens clean, quiet, List.nil_append]

/-! A dialect of a sale, and one whose domain closes the comment it is written in. -/

/-- The texts of strings; no other value is rendered below. -/
def samplePython : PythonText :=
  ⟨fun value => value.asString.getD "", fun value => value.asString.getD ""⟩

def sale : Json :=
  .object [("expandsTo", .string "procedure"),
    ("obligations", .array [
      .object [("kind", .string "debit"), ("name", .string "pay"),
        ("ledger", .string "buyer.cash"), ("participant", .string "buyer")],
      .object [("kind", .string "credit"), ("name", .string "receive"),
        ("ledger", .string "seller.cash"), ("participant", .string "seller")]]),
    ("participants", .object [("buyer", .object [("role", .string "payer")]),
      ("seller", .object [("role", .string "payee")])]),
    ("requiredInputs", .object [("amount", .string "money"), ("currency", .string "currency"),
      ("key", .string "string"), ("payee_id", .string "party"), ("payer_id", .string "party")])]

def saleDialect : Object :=
  [("domain", .string "trade"), ("templates", .object [("sale", sale)]),
    ("version", .string "1.0.0")]

def saleText : String :=
  String.intercalate "\n" [
    "// Generated from the trade@1.0.0 domain dialect (template: sale).",
    "// DO NOT EDIT — regenerate with scripts/domain/expand_dialect.py. Every construct traces",
    "// to a domain term + mapping-graph edge in the .expansion.json sidecar.", "",
    "procedure sell \x7b", "    trigger ordered", "",
    "    participant buyer \x7b", "        role = \"payer\"", "    \x7d",
    "    participant seller \x7b", "        role = \"payee\"", "    \x7d", "",
    "    input amount : money", "    input currency : currency", "    input key : string",
    "    input payee_id : party", "    input payer_id : party", "",
    "    debit pay \x7b", "        ledger = \"buyer.cash\"", "        owner = \"payer\"",
    "        participant = \"buyer\"", "        party = %payer_id", "        amount = %amount",
    "        currency = %currency", "        idempotency_key = %key", "    \x7d", "",
    "    credit receive \x7b", "        ledger = \"seller.cash\"", "        owner = \"payee\"",
    "        participant = \"seller\"", "        party = %payee_id", "        amount = %amount",
    "        currency = %currency", "        idempotency_key = %key", "    \x7d", "",
    "    assert balanced", "\x7d", ""]

def saleSpans : List (String × Nat × Nat) :=
  [("procedure sell", 5, 5), ("participant buyer", 8, 10), ("participant seller", 11, 13),
    ("debit pay", 21, 29), ("credit receive", 31, 39)]

def saleTemplate : Template where
  participants := [("buyer", "payer"), ("seller", "payee")]
  inputs := [("amount", "money"), ("currency", "currency"), ("key", "string"),
    ("payee_id", "party"), ("payer_id", "party")]
  legs := [⟨"debit", "pay", "buyer.cash", "buyer", "payer"⟩,
    ⟨"credit", "receive", "seller.cash", "seller", "payee"⟩]
  amount := "amount"
  currency := "currency"
  idempotencyKey := "key"

theorem readTemplate_sale :
    readTemplate samplePython saleDialect "sale" "sell" "ordered" = .ok saleTemplate := by
  decide +kernel

theorem renderNeu_sale : renderNeu samplePython saleDialect "sale" "sell" "ordered" =
    .ok (saleText, saleSpans) :=
  @renderNeu_of_lines samplePython _ _ _ _ _ (.string "trade") (.string "1.0.0") _ _
    readTemplate_sale rfl rfl (by decide) (by decide +kernel) (by decide +kernel)

theorem expansion_exact_sale :
    ∃ template domain version, Reads saleDialect "sale" template ∧
      saleDialect.get "domain" = some domain ∧ saleDialect.get "version" = some version ∧
      (lineTokens saleText = declared "sell" "ordered" template ↔
        (∀ field ∈ gatedFields "sell" "ordered" template, '\n' ∉ field.toList) ∧
        ∀ line ∈ splitLines (headerLine (samplePython.str domain) (samplePython.str version)
          "sale").toList, Quiet line) :=
  expansion_exact samplePython saleDialect "sale" "sell" "ordered" saleText saleSpans
    renderNeu_sale

def injectedBody : Object :=
  [("kind", .string "neutrino.domain-dialect"), ("mappingGraph", .object []),
    ("templates", .object [("sale", .object [("expandsTo", .string "procedure"),
      ("requiredInputs", .object [("amount", .string "money"), ("currency", .string "currency"),
        ("key", .string "string")])])]),
    ("version", .string "1.0.0")]

def injectedDomain : String := "trade\nprocedure evil \x7b\n    trigger go\n\x7d\n// trade"

/-- The digest of the one text hashed below. -/
def sampleHash (text : String) : String :=
  if text = "\x7b\"domain\":\"trade\\nprocedure evil \x7b\\n    trigger go\\n\x7d\\n// trade\"," ++
      "\"kind\":\"neutrino.domain-dialect\",\"mappingGraph\":\x7b\x7d," ++
      "\"templates\":\x7b\"sale\":\x7b\"expandsTo\":\"procedure\"," ++
      "\"requiredInputs\":\x7b\"amount\":\"money\",\"currency\":\"currency\"," ++
      "\"key\":\"string\"\x7d\x7d\x7d,\"version\":\"1.0.0\"\x7d" then
    "9aba7c0811821c63a57c724b0d6a5961766d94fc6265779b71ec9e4adb20e578"
  else ""

def injectedDialect : Object :=
  ("domain", .string injectedDomain) :: ("domainDialectHash", .string
    "9aba7c0811821c63a57c724b0d6a5961766d94fc6265779b71ec9e4adb20e578") ::
    injectedBody

def injectedText : String :=
  String.intercalate "\n" [
    "// Generated from the trade", "procedure evil \x7b", "    trigger go", "\x7d",
    "// trade@1.0.0 domain dialect (template: sale).",
    "// DO NOT EDIT — regenerate with scripts/domain/expand_dialect.py. Every construct traces",
    "// to a domain term + mapping-graph edge in the .expansion.json sidecar.", "",
    "procedure sell \x7b", "    trigger ordered", "",
    "    input amount : money", "    input currency : currency", "    input key : string",
    "\x7d", ""]

def injectedTemplate : Template where
  participants := []
  inputs := [("amount", "money"), ("currency", "currency"), ("key", "string")]
  legs := []
  amount := "amount"
  currency := "currency"
  idempotencyKey := "key"

theorem readTemplate_injected :
    readTemplate samplePython injectedDialect "sale" "sell" "ordered" = .ok injectedTemplate := by
  decide +kernel

/-- The lines that the header of the injected domain comes to. -/
def injectedHeader : List String :=
  ["// Generated from the trade", "procedure evil \x7b", "    trigger go", "\x7d",
    "// trade@1.0.0 domain dialect (template: sale)."]

def injectedRest : List String :=
  ["// DO NOT EDIT — regenerate with scripts/domain/expand_dialect.py. Every construct traces",
    "// to a domain term + mapping-graph edge in the .expansion.json sidecar.", "",
    "procedure sell \x7b", "    trigger ordered", "",
    "    input amount : money", "    input currency : currency", "    input key : string",
    "\x7d", ""]

theorem injectedText_lines :
    injectedText = String.intercalate "\n" (injectedHeader ++ injectedRest) := rfl

theorem renderNeu_injected : renderNeu samplePython injectedDialect "sale" "sell" "ordered" =
    .ok (injectedText, [("procedure sell", 5, 5)]) := by
  have rendered := @renderNeu_of_lines samplePython _ _ _ _ _ (.string injectedDomain)
    (.string "1.0.0") (String.intercalate "\n" injectedHeader :: injectedRest)
    [("procedure sell", 5, 5)] readTemplate_injected rfl rfl (by decide) (by decide +kernel)
    (by decide +kernel)
  rw [rendered, intercalate_intercalate (by decide) (by decide), injectedText_lines]

theorem injectedText_first : (lineTokens injectedText).head? =
    some [.word "procedure", .word "evil", .word "\x7b"] := by
  have comment : lineTokens "// Generated from the trade" = [] := by decide +kernel
  have evil : lineTokens "procedure evil \x7b" =
      [[.word "procedure", .word "evil", .word "\x7b"]] := by decide +kernel
  rw [injectedText_lines, lineTokens_intercalate (by decide), injectedHeader, List.cons_append,
    List.cons_append, List.flatMap_cons, comment, List.flatMap_cons, evil]
  rfl

/-- The domain of a dialect whose hash matches declares a procedure of its own. -/
theorem injected_domain_not_exact :
    ¬ ∀ (sha256Hex : String → String) (canonicalJson : Object → String) (py : PythonText)
      (dialect : Object) (templateId procedure trigger text : String)
      (spans : List (String × Nat × Nat)), py.Plain →
      HashMatches sha256Hex canonicalJson dialect →
      renderNeu py dialect templateId procedure trigger = .ok (text, spans) →
      ∃ template, Reads dialect templateId template ∧
        lineTokens text = declared procedure trigger template := by
  intro law
  have hashed : HashMatches sampleHash (fun object => (Json.object object).compact)
      injectedDialect := by
    have digest : sampleHash (Json.object (injectedDialect.erase "domainDialectHash")).compact =
        "9aba7c0811821c63a57c724b0d6a5961766d94fc6265779b71ec9e4adb20e578" := by
      decide +kernel
    exact congrArg (some ∘ Json.string) digest.symm
  obtain ⟨template, _, same⟩ := law sampleHash (fun object => (Json.object object).compact)
    samplePython injectedDialect "sale" "sell" "ordered" injectedText [("procedure sell", 5, 5)]
    (fun _ => rfl) hashed renderNeu_injected
  have first := congrArg List.head? same
  rw [injectedText_first] at first
  simp [declared] at first

end Dialect

end Neutrino
