import Neutrino.SpecLegality

/-! When the two legality gates agree on a spec and a profile: both accept or both reject, and the
same requirements are waived. -/

namespace Neutrino.SpecLegality

open Json
open PyJson (llvm llvmItems llvmElements isNone isDict eqStr)

section Gates

variable (nearest : Int → Rat)

/-- A requirement record, whatever its source is. -/
def record (value : PyJson) : Option Script.Requirement := do
  let r ← Script.itemsOf value
  let feature ← Script.textOf (PyJson.get r "feature")
  let primitive ← Script.textOf (PyJson.get r "primitive")
  let level ← Script.textOf (PyJson.get r "requirement")
  if level = "required" ∨ level = "optional" then
    some { feature, primitive, level, source := PyJson.get r "source" }
  else none

/-- The translator takes the value for a source. -/
def gateReads (source : PyJson) : Bool := isNone source || isSpan (llvm nearest source)

/-- The script takes the value for a source. -/
def scriptReads (source : PyJson) : Bool := isNone source || Script.isSpan source

variable (features : Features)

def Features.of (features : Features) (r : Script.Requirement) : Match :=
  features.matches r.feature r.level

/-- A requirement that is not missing, with a source for one reader and none for the other. -/
def ReadByOne (reads other : PyJson → Bool) (value : PyJson) : Prop :=
  ∃ r, record value = some r ∧ features.of r ≠ .missing ∧ reads r.source = true ∧
    other r.source = false

/-- Both gates reject the requirement. -/
def RejectedByBoth (value : PyJson) : Prop :=
  ∀ r, record value = some r →
    features.of r = .missing ∨ gateReads nearest r.source = false ∧ scriptReads r.source = false

/-- No source that only one gate can read makes a difference. -/
structure SourcesHarmless (reqs : List PyJson) (wrongTarget : Prop) : Prop where
  waived : ∀ value ∈ reqs, ∀ r, record value = some r → features.of r = .waived →
    gateReads nearest r.source = scriptReads r.source
  verdict : wrongTarget ∨ (∃ value ∈ reqs, RejectedByBoth nearest features value) ∨
    ((∃ value ∈ reqs, ReadByOne features (gateReads nearest) scriptReads value) ↔
      ∃ value ∈ reqs, ReadByOne features scriptReads (gateReads nearest) value)

/-- Both gates accept or both reject, and they waive the same requirements. -/
def GatesAgree (repr : PyJson → String) (spec profile : PyJson.Dict) (target : String) : Prop :=
  specIsLegal (checkSpecLegality (llvmItems nearest spec) (llvmItems nearest profile) target) =
      Script.ok (Script.main repr (.dict spec) (.dict profile) target) ∧
    waivedRequirements (llvmItems nearest spec) (llvmItems nearest profile) =
      Script.waivedRequirements repr (.dict spec) (.dict profile)

end Gates

/-! One requirement. -/

section Requirement

variable {nearest : Int → Rat} {repr : PyJson → String} {features : Features}

/-- What a reader of sources makes of a requirement. -/
def readWith (reads : PyJson → Bool) (value : PyJson) : Option Script.Requirement :=
  (record value).filter fun r => reads r.source

theorem requirement_eq (value : PyJson) : Script.requirement value = readWith scriptReads value := by
  cases value with
  | dict r =>
      simp only [Script.requirement, readWith, record, Script.itemsOf, Option.bind_eq_bind,
        Option.bind_some]
      cases Script.textOf (PyJson.get r "feature") with
      | none => rfl
      | some feature =>
          cases Script.textOf (PyJson.get r "primitive") with
          | none => rfl
          | some primitive =>
              cases Script.textOf (PyJson.get r "requirement") with
              | none => rfl
              | some level =>
                  simp only [Option.bind_some]
                  by_cases known : level = "required" ∨ level = "optional"
                  · simp [known, scriptReads, Option.filter]
                  · simp [known]
  | _ => rfl

theorem getString_llvmItems (r : PyJson.Dict) (key : String) :
    Object.getString (llvmItems nearest r) key = Script.textOf (PyJson.get r key) := by
  rw [Object.getString, Agreement.get_llvmItems, PyJson.get]
  cases r.lookup key with
  | none => rfl
  | some value => cases value <;> rfl

theorem source_llvmItems (r : PyJson.Dict) :
    (Object.get (llvmItems nearest r) "source").all (fun source => source.isNull || isSpan source) =
      gateReads nearest (PyJson.get r "source") := by
  rw [Agreement.get_llvmItems, PyJson.get, gateReads]
  cases r.lookup "source" with
  | none => rfl
  | some value => cases value <;> rfl

theorem requirementFromJson_eq (value : PyJson) :
    (requirementFromJson (llvm nearest value)).map (fun r => (r.feature, r.level)) =
      (readWith (gateReads nearest) value).map fun r => (r.feature, r.level) := by
  cases value with
  | dict r =>
      simp only [requirementFromJson, llvm, Json.asObject, readWith, record, Script.itemsOf,
        Option.bind_eq_bind, Option.bind_some, getString_llvmItems, source_llvmItems]
      cases Script.textOf (PyJson.get r "feature") with
      | none => rfl
      | some feature =>
          cases Script.textOf (PyJson.get r "primitive") with
          | none => rfl
          | some primitive =>
              cases Script.textOf (PyJson.get r "requirement") with
              | none => rfl
              | some level =>
                  simp only [Option.bind_some]
                  by_cases known : level = "required" ∨ level = "optional"
                  · by_cases reads : gateReads nearest (PyJson.get r "source") = true
                    · simp [known, reads, Option.filter]
                    · simp [known, reads, Option.filter]
                  · simp [known]
  | _ => rfl

/-- What the feature and the level of a read requirement come to. -/
def verdictOf (features : Features) : Option Script.Requirement → Match
  | some r => features.of r
  | none => .missing

theorem gate_error (profileId : String) (value : PyJson) :
    ((checkRequirement features profileId (llvm nearest value)).all
      fun d => d.severity ≠ "error") =
      decide (verdictOf features (readWith (gateReads nearest) value) ≠ .missing) := by
  have read := @requirementFromJson_eq nearest value
  rw [checkRequirement]
  cases found : requirementFromJson (llvm nearest value) with
  | none =>
      rw [found, Option.map_none] at read
      rw [Option.map_eq_none_iff.mp read.symm]
      rfl
  | some r =>
      rw [found, Option.map_some] at read
      obtain ⟨r', found', same⟩ := Option.map_eq_some_iff.mp read.symm
      obtain ⟨feature, level⟩ := Prod.mk.inj same
      rw [found', verdictOf, Features.of, feature, level]
      cases held : features.matches r.feature r.level <;> simp [held, PlanLegality.diag]

theorem gate_waived (profileId : String) (value : PyJson) :
    ((checkRequirement features profileId (llvm nearest value)).any
      fun d => d.code = "legality.advisory") =
      decide (verdictOf features (readWith (gateReads nearest) value) = .waived) := by
  have read := @requirementFromJson_eq nearest value
  rw [checkRequirement]
  cases found : requirementFromJson (llvm nearest value) with
  | none =>
      rw [found, Option.map_none] at read
      rw [Option.map_eq_none_iff.mp read.symm]
      rfl
  | some r =>
      rw [found, Option.map_some] at read
      obtain ⟨r', found', same⟩ := Option.map_eq_some_iff.mp read.symm
      obtain ⟨feature, level⟩ := Prod.mk.inj same
      rw [found', verdictOf, Features.of, feature, level]
      cases held : features.matches r.feature r.level <;> simp [held, PlanLegality.diag]

theorem script_error (profileId value : PyJson) :
    ((Script.checkRequirement repr features profileId value).all fun d => d.severity ≠ "error") =
      decide (verdictOf features (readWith scriptReads value) ≠ .missing) := by
  rw [Script.checkRequirement, requirement_eq]
  cases readWith scriptReads value with
  | none => rfl
  | some r =>
      rw [verdictOf, Features.of]
      cases held : features.matches r.feature r.level <;> simp [held]

theorem script_waived (profileId value : PyJson) :
    ((Script.checkRequirement repr features profileId value).any
      fun d => d.code = "legality.advisory") =
      decide (verdictOf features (readWith scriptReads value) = .waived) := by
  rw [Script.checkRequirement, requirement_eq]
  cases readWith scriptReads value with
  | none => rfl
  | some r =>
      rw [verdictOf, Features.of]
      cases held : features.matches r.feature r.level <;> simp [held]

theorem verdictOf_eq {reads : PyJson → Bool} {value : PyJson} {m : Match} (other : m ≠ .missing) :
    verdictOf features (readWith reads value) = m ↔
      ∃ r, record value = some r ∧ reads r.source = true ∧ features.of r = m := by
  rw [readWith]
  cases record value with
  | none => simpa [verdictOf] using Ne.symm other
  | some r =>
      by_cases read : reads r.source = true
      · simp [Option.filter, read, verdictOf]
      · simpa [Option.filter, read, verdictOf] using Ne.symm other

theorem verdictOf_missing {reads : PyJson → Bool} {value : PyJson} :
    verdictOf features (readWith reads value) = .missing ↔
      ∀ r, record value = some r → features.of r = .missing ∨ reads r.source = false := by
  rw [readWith]
  cases record value with
  | none => simp [verdictOf]
  | some r =>
      by_cases read : reads r.source = true
      · simp [Option.filter, read, verdictOf]
      · simp [Option.filter, read, verdictOf]

end Requirement

/-! The documents. -/

section Documents

variable {nearest : Int → Rat} {repr : PyJson → String}

theorem llvmElements_eq (elements : List PyJson) :
    llvmElements nearest elements = elements.map (llvm nearest) := by
  induction elements with
  | nil => rfl
  | cons element rest ih => rw [llvmElements, ih, List.map_cons]

/-- A key that is absent counts as null. -/
theorem get_bind {β : Type} (read : Json → Option β) (null : read .null = none)
    (items : PyJson.Dict) (key : String) :
    (Object.get (llvmItems nearest items) key).bind read =
      read (llvm nearest (PyJson.get items key)) := by
  rw [Agreement.get_llvmItems, PyJson.get]
  cases items.lookup key with
  | none => exact null.symm
  | some value => rfl

theorem asString_llvm (value : PyJson) : (llvm nearest value).asString = Script.textOf value := by
  cases value <;> rfl

theorem isStrList_llvmItems (items : PyJson.Dict) (key : String) :
    isStrList (Object.get (llvmItems nearest items) key) =
      Script.strList (PyJson.get items key) := by
  rw [isStrList, get_bind asArray rfl]
  cases PyJson.get items key with
  | list elements =>
      simp only [llvm, asArray, llvmElements_eq, Script.strList, List.all_map]
      refine List.all_congr rfl fun element => ?_
      cases element <;> rfl
  | _ => rfl

theorem strings_llvmItems (items : PyJson.Dict) (key : String) :
    strings (Object.get (llvmItems nearest items) key) = Script.texts (PyJson.get items key) := by
  rw [strings, get_bind asArray rfl]
  cases PyJson.get items key with
  | list elements =>
      simp only [llvm, asArray, llvmElements_eq, Script.texts, Option.getD_some, List.filterMap_map]
      exact List.filterMap_congr fun element _ => asString_llvm element
  | _ => rfl

theorem getString_eq (items : PyJson.Dict) (key text : String) :
    (Object.getString (llvmItems nearest items) key = some text) ↔
      eqStr (PyJson.get items key) text = true := by
  rw [getString_llvmItems]
  cases PyJson.get items key <;> simp [Script.textOf, eqStr]

@[simp] theorem getIn_dict (items : PyJson.Dict) (key : String) :
    Script.getIn (.dict items) key = PyJson.get items key := rfl

theorem requirements_llvmItems (spec : PyJson.Dict) :
    ((Object.getObject (llvmItems nearest spec) "targetRequirements").bind
      fun tr => tr.getArray "requirements") =
      match Script.getIn (PyJson.get spec "targetRequirements") "requirements" with
      | .list reqs => some (reqs.map (llvm nearest))
      | _ => none := by
  rw [Object.getObject, get_bind asObject rfl]
  cases PyJson.get spec "targetRequirements" with
  | dict tr =>
      simp only [llvm, asObject, Option.bind_some, Object.getArray, get_bind asArray rfl,
        getIn_dict]
      cases PyJson.get tr "requirements" with
      | list reqs => simp only [llvm, asArray, llvmElements_eq]
      | _ => rfl
  | _ => rfl

/-- Both gates find the same requirements and features, or both miss a piece. -/
theorem readInputs_llvmItems (spec profile : PyJson.Dict) :
    readInputs (llvmItems nearest spec) (llvmItems nearest profile) =
      match Script.readInputs (.dict spec) (.dict profile) with
      | .ok (reqs, features) => .ok (reqs.map (llvm nearest), features)
      | .error refused => .error (PlanLegality.diag refused.code refused.message) := by
  have advisory : decide (Object.getString (llvmItems nearest profile) "fallbackPolicy" =
      some "advisory") = eqStr (PyJson.get profile "fallbackPolicy") "advisory" := by
    rw [Bool.eq_iff_iff, decide_eq_true_eq, getString_eq]
  rw [readInputs, Script.readInputs, requirements_llvmItems]
  simp only [getIn_dict, isStrList_llvmItems, strings_llvmItems, advisory]
  cases Script.getIn (PyJson.get spec "targetRequirements") "requirements" with
  | list reqs =>
      by_cases supported : Script.strList (PyJson.get profile "supportedFeatures") = true
      · by_cases unsupported : Script.strList (PyJson.get profile "unsupportedConstructs") = true
        · simp [supported, unsupported]
        · simp [supported, unsupported, Script.badInput]
      · simp [supported, Script.badInput]
  | _ => rfl

def wrongTarget (profile : PyJson.Dict) (target : String) : Prop :=
  target ≠ "" ∧ eqStr (PyJson.get profile "target") target = false

theorem checkTarget_legal (profile : PyJson.Dict) (target : String) :
    (∀ d ∈ checkTarget (llvmItems nearest profile) target, d.severity ≠ "error") ↔
      ¬ wrongTarget profile target := by
  have wrong : target ≠ "" ∧ Object.getString (llvmItems nearest profile) "target" ≠ some target ↔
      wrongTarget profile target := by
    rw [wrongTarget, Ne, Ne, getString_eq, Bool.not_eq_true]
  rw [← wrong, checkTarget]
  by_cases differs : target ≠ "" ∧
      Object.getString (llvmItems nearest profile) "target" ≠ some target
  · rw [if_pos differs]
    simp [differs, PlanLegality.diag]
  · rw [if_neg differs]
    simp [differs]

theorem legal_iff {reqs : List PyJson} {features : Features} {spec profile : PyJson.Dict}
    (read : Script.readInputs (.dict spec) (.dict profile) = .ok (reqs, features))
    (target : String) :
    specIsLegal (checkSpecLegality (llvmItems nearest spec) (llvmItems nearest profile) target) =
        true ↔
      (∀ value ∈ reqs, verdictOf features (readWith (gateReads nearest) value) ≠ .missing) ∧
        ¬ wrongTarget profile target := by
  rw [specIsLegal, checkSpecLegality, readInputs_llvmItems, read, List.all_eq_true,
    ← @checkTarget_legal nearest]
  simp only [SortOn.mem_sortOn, List.mem_append, decide_eq_true_eq]
  constructor
  · intro legal
    refine ⟨fun value listed => ?_, fun d there => legal d (.inr there)⟩
    have clean := @gate_error nearest features
      (Object.stringOr (llvmItems nearest profile) "profileId") value
    rw [← decide_eq_true_eq (p := _ ≠ _), ← clean, Option.all_eq_true]
    intro d found
    exact decide_eq_true (legal d (.inl (List.mem_filterMap.mpr
      ⟨_, List.mem_map_of_mem listed, found⟩)))
  · rintro ⟨clean, right⟩ d (there | there)
    · obtain ⟨_, moved, found⟩ := List.mem_filterMap.mp there
      obtain ⟨value, listed, rfl⟩ := List.mem_map.mp moved
      have all := @gate_error nearest features
        (Object.stringOr (llvmItems nearest profile) "profileId") value
      rw [decide_eq_true (clean value listed), found] at all
      exact of_decide_eq_true all
    · exact right d there

theorem ok_iff {reqs : List PyJson} {features : Features} {spec profile : PyJson.Dict}
    (read : Script.readInputs (.dict spec) (.dict profile) = .ok (reqs, features))
    (target : String) :
    Script.ok (Script.main repr (.dict spec) (.dict profile) target) = true ↔
      (∀ value ∈ reqs, verdictOf features (readWith scriptReads value) ≠ .missing) ∧
        ¬ wrongTarget profile target := by
  have checked : (∀ d ∈ Script.check repr (.dict spec) (.dict profile), d.severity ≠ "error") ↔
      ∀ value ∈ reqs, verdictOf features (readWith scriptReads value) ≠ .missing := by
    rw [Script.check, read]
    simp only [SortOn.mem_sortOn, List.mem_filterMap]
    constructor
    · intro legal value listed
      have clean := @script_error repr features
        (Script.getIn (.dict profile) "profileId") value
      rw [← decide_eq_true_eq (p := _ ≠ _), ← clean, Option.all_eq_true]
      intro d found
      exact decide_eq_true (legal d ⟨value, listed, found⟩)
    · rintro clean d ⟨value, listed, found⟩
      have all := @script_error repr features
        (Script.getIn (.dict profile) "profileId") value
      rw [decide_eq_true (clean value listed), found] at all
      exact of_decide_eq_true all
  rw [← checked, Script.ok, Script.main, wrongTarget]
  by_cases named : target = ""
  · simp [named]
  · by_cases governs : eqStr (PyJson.get profile "target") target = true
    · simp [named, governs]
    · simp [named, governs, isDict, or_imp, forall_and]

/-- A missing piece is an error, whatever the target is. -/
theorem main_rejects {refused : Script.Diag} {spec profile : PyJson.Dict} {target : String}
    (read : Script.readInputs (.dict spec) (.dict profile) = .error refused) :
    Script.ok (Script.main repr (.dict spec) (.dict profile) target) = false := by
  have severity : refused.severity = "error" := by
    simp only [Script.readInputs, getIn_dict] at read
    split at read
    · by_cases supported : Script.strList (PyJson.get profile "supportedFeatures") = true
      · by_cases unsupported : Script.strList (PyJson.get profile "unsupportedConstructs") = true
        · simp [supported, unsupported] at read
        · simp only [supported, unsupported] at read
          cases read
          rfl
      · simp only [supported] at read
        cases read
        rfl
    · cases read
      rfl
  have listed : refused ∈ Script.main repr (.dict spec) (.dict profile) target := by
    rw [Script.main, Script.check, read]
    split
    · exact SortOn.mem_sortOn.mpr List.mem_cons_self
    · exact List.mem_cons_self
  rw [Script.ok, Bool.not_eq_false', List.any_eq_true]
  exact ⟨refused, listed, decide_eq_true severity⟩

end Documents

/-! Agreement. -/

/-- Two conditions are both free of faults, or neither is: unless one fault is common, each has a
fault that the other has not. -/
theorem clean_iff {α : Type} {elements : List α} {faulty faulty' : α → Prop} :
    ((∀ value ∈ elements, ¬ faulty value) ↔ ∀ value ∈ elements, ¬ faulty' value) ↔
      (∃ value ∈ elements, faulty value ∧ faulty' value) ∨
        ((∃ value ∈ elements, ¬ faulty value ∧ faulty' value) ↔
          ∃ value ∈ elements, ¬ faulty' value ∧ faulty value) := by
  by_cases common : ∃ value ∈ elements, faulty value ∧ faulty' value
  · obtain ⟨value, listed, first, second⟩ := common
    refine iff_of_true ⟨fun clean => absurd first (clean value listed),
      fun clean => absurd second (clean value listed)⟩ (.inl ⟨value, listed, first, second⟩)
  · have apart : ∀ value ∈ elements, faulty value → ¬ faulty' value :=
      fun value listed first second => common ⟨value, listed, first, second⟩
    have first : (∃ value ∈ elements, ¬ faulty' value ∧ faulty value) ↔
        ¬ ∀ value ∈ elements, ¬ faulty value := by
      push Not
      exact ⟨fun ⟨value, listed, _, found⟩ => ⟨value, listed, found⟩,
        fun ⟨value, listed, found⟩ => ⟨value, listed, apart value listed found, found⟩⟩
    have second : (∃ value ∈ elements, ¬ faulty value ∧ faulty' value) ↔
        ¬ ∀ value ∈ elements, ¬ faulty' value := by
      push Not
      exact ⟨fun ⟨value, listed, _, found⟩ => ⟨value, listed, found⟩,
        fun ⟨value, listed, found⟩ =>
          ⟨value, listed, fun held => apart value listed held found, found⟩⟩
    rw [first, second, not_iff_not, or_iff_right common]
    exact iff_comm

theorem readByOne_iff {features : Features} {reads other : PyJson → Bool} {value : PyJson} :
    ReadByOne features reads other value ↔
      verdictOf features (readWith reads value) ≠ .missing ∧
        verdictOf features (readWith other value) = .missing := by
  rw [Ne, verdictOf_missing, verdictOf_missing, ReadByOne]
  cases record value with
  | none => simp
  | some r => simp; tauto

theorem rejectedByBoth_iff {nearest : Int → Rat} {features : Features} {value : PyJson} :
    RejectedByBoth nearest features value ↔
      verdictOf features (readWith (gateReads nearest) value) = .missing ∧
        verdictOf features (readWith scriptReads value) = .missing := by
  rw [verdictOf_missing, verdictOf_missing, RejectedByBoth]
  cases record value with
  | none => simp
  | some r => simp; tauto

theorem waived_iff {nearest : Int → Rat} {features : Features} {value : PyJson} :
    (verdictOf features (readWith (gateReads nearest) value) = .waived ↔
      verdictOf features (readWith scriptReads value) = .waived) ↔
    ∀ r, record value = some r → features.of r = .waived →
      gateReads nearest r.source = scriptReads r.source := by
  rw [verdictOf_eq (by decide), verdictOf_eq (by decide)]
  cases record value with
  | none => simp
  | some r =>
      by_cases waived : features.of r = .waived
      · cases gateReads nearest r.source <;> cases scriptReads r.source <;> simp [waived]
      · simp [waived]

/-- The two gates agree exactly when no source that only one of them can read matters. -/
theorem legality_gates_agree (repr : PyJson → String) (nearest : Int → Rat)
    (spec profile : PyJson.Dict) (target : String) :
    GatesAgree nearest repr spec profile target ↔
      ∀ reqs features, Script.readInputs (.dict spec) (.dict profile) = .ok (reqs, features) →
        SourcesHarmless nearest features reqs (wrongTarget profile target) := by
  have documents := @readInputs_llvmItems nearest spec profile
  cases read : Script.readInputs (.dict spec) (.dict profile) with
  | error refused =>
      rw [read] at documents
      refine iff_of_true ⟨?_, ?_⟩ (fun _ _ other => nomatch other)
      · rw [main_rejects read, checkSpecLegality, documents]
        rfl
      · rw [waivedRequirements, documents, Script.waivedRequirements, read]
  | ok found =>
      obtain ⟨reqs, features⟩ := found
      rw [read] at documents
      have verdicts : (specIsLegal (checkSpecLegality (llvmItems nearest spec)
          (llvmItems nearest profile) target) =
            Script.ok (Script.main repr (.dict spec) (.dict profile) target)) ↔
          wrongTarget profile target ∨
            (∃ value ∈ reqs, RejectedByBoth nearest features value) ∨
            ((∃ value ∈ reqs, ReadByOne features (gateReads nearest) scriptReads value) ↔
              ∃ value ∈ reqs, ReadByOne features scriptReads (gateReads nearest) value) := by
        rw [Bool.eq_iff_iff, legal_iff read, ok_iff read]
        simp only [rejectedByBoth_iff, readByOne_iff, ← clean_iff]
        by_cases wrong : wrongTarget profile target
        · simp [wrong]
        · simp [wrong]
      have waived : waivedRequirements (llvmItems nearest spec) (llvmItems nearest profile) =
          Script.waivedRequirements repr (.dict spec) (.dict profile) ↔
          ∀ value ∈ reqs, ∀ r, record value = some r → features.of r = .waived →
            gateReads nearest r.source = scriptReads r.source := by
        rw [waivedRequirements, documents, Script.waivedRequirements, read]
        simp only [List.map_map, List.map_inj_left, Function.comp_apply, gate_waived, script_waived,
          decide_eq_decide, waived_iff]
      constructor
      · rintro ⟨legal, same⟩ _ _ ⟨⟩
        exact ⟨waived.mp same, verdicts.mp legal⟩
      · intro harmless
        have own := harmless reqs features rfl
        exact ⟨verdicts.mpr own.verdict, waived.mpr own.waived⟩

/-! A supported requirement whose source line is written as a decimal. -/

def decimalSource : PyJson := .dict [("column", .int 1), ("line", .float 4)]

def decimalSpec : PyJson.Dict :=
  [("targetRequirements", .dict [("requirements", .list [.dict [("feature", .str "effect:debit"),
    ("primitive", .str "effect"), ("requirement", .str "required"), ("source", decimalSource)]])])]

def debitProfile : PyJson.Dict :=
  [("supportedFeatures", .list [.str "effect:debit"]), ("target", .str "postgres"),
    ("unsupportedConstructs", .list [])]

/-- The translator renders it, the script rejects the record. -/
theorem decimal_source_disagrees :
    ¬ GatesAgree (fun value => value) (fun _ => "") decimalSpec debitProfile "postgres" := by
  rintro ⟨legal, -⟩
  exact absurd legal (by decide +kernel)

end Neutrino.SpecLegality
