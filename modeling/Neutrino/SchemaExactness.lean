import Neutrino.SchemaMeaning
import Neutrino.Library.Permuted

/-! The evaluator against the meaning of schemas. -/

namespace Neutrino.JsonSchema

open PyJson Review Checked SchemaEvaluator

/-- Where that is clear, the check ends and finds nothing exactly on what is valid. -/
def Exact (check : Check) (clear valid : Prop) : Prop :=
  clear → ∃ found, check = .ok found ∧ (found = [] ↔ valid)

theorem exact_ok {clear valid : Prop} (right : clear → valid) : Exact (.ok []) clear valid :=
  fun known => ⟨[], rfl, iff_of_true rfl (right known)⟩

theorem exact_fail {wrong : Bool} {message : String} {clear valid : Prop}
    (right : clear → (wrong = false ↔ valid)) : Exact (fail wrong message) clear valid := by
  intro known
  refine ⟨_, rfl, ?_⟩
  rw [← right known]
  cases wrong <;> simp

theorem Exact.imp {check : Check} {clear clear' valid valid' : Prop}
    (here : Exact check clear valid) (weaker : clear' → clear) (same : clear' → (valid ↔ valid')) :
    Exact check clear' valid' := by
  intro known
  obtain ⟨found, ended, right⟩ := here (weaker known)
  exact ⟨found, ended, right.trans (same known)⟩

theorem exact_append {check : Check} {checks : List Check} {clear clear' valid valid' : Prop}
    (here : Exact check clear valid) (later : Exact (all checks) clear' valid') :
    Exact (all (check :: checks)) (clear ∧ clear') (valid ∧ valid') := by
  rintro ⟨first, second⟩
  obtain ⟨found, ended, right⟩ := here first
  obtain ⟨others, ended', right'⟩ := later second
  refine ⟨found ++ others, by rw [all, ended, ended']; rfl, ?_⟩
  rw [List.append_eq_nil_iff, right, right']

theorem exact_single {check : Check} {clear valid : Prop} (here : Exact check clear valid) :
    Exact (all [check]) clear valid := by
  have nothing : Exact (all []) True True := exact_ok fun _ => trivial
  refine (exact_append here nothing).imp (fun known => ⟨known, trivial⟩) fun _ => ?_
  exact and_iff_left trivial

/-- Checks one by one, each for a meaning. -/
theorem exact_join {inst : PyJson} {checks : List Check} {meanings : List Meaning}
    (pairs : List.Forall₂ (fun check meaning => Exact check (meaning.clear inst)
      (meaning.valid inst)) checks meanings) :
    Exact (all checks) ((join meanings).clear inst) ((join meanings).valid inst) := by
  induction pairs with
  | nil => exact exact_ok fun _ => by simp [join]
  | cons here _ ih =>
      refine (exact_append here ih).imp (fun known => ?_) fun _ => ?_
      · simpa [join] using known
      · simp [join]

theorem exact_overAll {α : Type} {check : α → Check} {clear valid : α → Prop} {elements : List α}
    (each : ∀ element ∈ elements, Exact (check element) (clear element) (valid element)) :
    Exact (overAll check elements) (∀ element ∈ elements, clear element)
      (∀ element ∈ elements, valid element) := by
  induction elements with
  | nil => exact exact_ok fun _ => by simp
  | cons element rest ih =>
      have here := each element List.mem_cons_self
      have later := ih fun other listed => each other (List.mem_cons_of_mem _ listed)
      refine (exact_append here later).imp (fun known => ?_) fun _ => ?_
      · simpa using known
      · simp

theorem exact_keyword {items : Dict} {key : String} {check : PyJson → Check}
    {reading : PyJson → Option Meaning} {meant : Meaning} {inst : PyJson}
    (known : atKeyword items key reading = some meant)
    (right : ∀ value, items.lookup key = some value → reading value = some meant →
      Exact (check value) (meant.clear inst) (meant.valid inst)) :
    Exact (keyword items key check) (meant.clear inst) (meant.valid inst) := by
  unfold atKeyword at known
  unfold keyword
  cases found : items.lookup key with
  | none =>
      rw [found] at known
      obtain rfl := Option.some.inj known
      exact exact_ok fun _ => trivial
  | some value =>
      rw [found] at known
      exact right value found known

/-! Equality. -/

theorem has_iff {items : Dict} {key : String} : has items key = true ↔ ∃ item ∈ items, item.1 = key := by
  rw [has, List.lookup_isSome_iff]
  exact exists_congr fun item => and_congr_right fun _ => beq_iff_eq.trans eq_comm

theorem sameKeys_iff {first second : Dict} :
    ((∀ item ∈ first, has second item.1 = true) ∧ ∀ item ∈ second, has first item.1 = true) ↔
      ∀ key, has first key = has second key := by
  constructor
  · rintro ⟨forward, backward⟩ key
    rw [Bool.eq_iff_iff]
    constructor
    · intro held
      obtain ⟨item, listed, rfl⟩ := has_iff.mp held
      exact forward item listed
    · intro held
      obtain ⟨item, listed, rfl⟩ := has_iff.mp held
      exact backward item listed
  · intro alike
    refine ⟨fun item listed => ?_, fun item listed => ?_⟩
    · rw [← alike]
      exact has_iff.mpr ⟨item, listed, rfl⟩
    · rw [alike]
      exact has_iff.mpr ⟨item, listed, rfl⟩

mutual

theorem jsonEqual_iff : ∀ first second : PyJson, jsonEqual first second = true ↔ Equal first second
  | .none, second => by cases second <;> simp [jsonEqual, Equal, kind]
  | .bool value, second => by cases second <;> simp [jsonEqual, Equal, kind, same, number]; grind
  | .int value, second => by cases second <;> simp [jsonEqual, Equal, kind, same, number]
  | .float value, second => by cases second <;> simp [jsonEqual, Equal, kind, same, number]
  | .str value, second => by cases second <;> simp [jsonEqual, Equal, kind]
  | .list first, second => by
      cases second with
      | list second => simpa [jsonEqual, Equal] using jsonEqualElements_iff first second
      | _ => simp [jsonEqual, Equal, kind]
  | .dict first, second => by
      cases second with
      | dict second =>
          have items := jsonEqualItems_iff first second
          simp only [jsonEqual, Equal, Bool.and_eq_true, List.all_eq_true, items, sameKeys_iff]
      | _ => simp [jsonEqual, Equal, kind]

theorem jsonEqualElements_iff : ∀ first second : List PyJson,
    jsonEqualElements first second = true ↔ EqualElements first second
  | [], [] => by simp [jsonEqualElements, EqualElements]
  | [], _ :: _ => by simp [jsonEqualElements, EqualElements]
  | _ :: _, [] => by simp [jsonEqualElements, EqualElements]
  | first :: rest, second :: others => by
      rw [jsonEqualElements, EqualElements, Bool.and_eq_true, jsonEqual_iff first second,
        jsonEqualElements_iff rest others]

theorem jsonEqualItems_iff : ∀ first second : List (String × PyJson),
    jsonEqualItems first second = true ↔ EqualItems first second
  | [], _ => by simp [jsonEqualItems, EqualItems]
  | (key, value) :: rest, items => by
      rw [jsonEqualItems, EqualItems, Bool.and_eq_true, jsonEqualItems_iff rest items]
      refine and_congr_left fun _ => ?_
      cases items.lookup key with
      | none => simp
      | some other => exact jsonEqual_iff value other

end

/-! Types. -/

/-- The evaluator misreads an integral decimal under the type integer only. -/
theorem typeOk_iff {inst : PyJson} {name : String}
    (clear : ¬(IntegralDecimal inst ∧ name = "integer")) :
    typeOk inst name = true ↔ HasType inst name := by
  unfold typeOk
  split
  case h_8 =>
    refine iff_of_false (by simp) fun typed => ?_
    cases inst <;> simp_all [HasType]
  case h_4 => cases inst <;> simp_all [HasType, IntegralDecimal]
  all_goals cases inst <;> simp_all [HasType, kind]

theorem typeOk_any {inst : PyJson} {names : List String}
    (clear : IntegralDecimal inst → "integer" ∈ names → "number" ∈ names) :
    names.any (typeOk inst) = true ↔ ∃ name ∈ names, HasType inst name := by
  rw [List.any_eq_true]
  by_cases decimal : IntegralDecimal inst ∧ "integer" ∈ names
  · have listed := clear decimal.1 decimal.2
    have isNumber : typeOk inst "number" = true ∧ HasType inst "number" := by
      cases inst <;> simp_all [IntegralDecimal, typeOk, HasType, kind]
    exact iff_of_true ⟨_, listed, isNumber.1⟩ ⟨_, listed, isNumber.2⟩
  · refine exists_congr fun name => and_congr_right fun listed => typeOk_iff ?_
    rintro ⟨integral, rfl⟩
    exact decimal ⟨integral, listed⟩

/-! References. -/

theorem replacePair_cons_other {first second replacement c : Char} (other : c ≠ first)
    (rest : List Char) :
    replacePair first second replacement (c :: rest) =
      c :: replacePair first second replacement rest := by
  cases rest with
  | nil => rfl
  | cons d rest => rw [replacePair, if_neg fun both => other both.1]

/-- Undoing the two escapes one after the other reads the name that a token spells. -/
theorem pointerPart_name {token name : List Char} (spelled : tokenName token = some name) :
    replacePair '~' '0' '~' (replacePair '~' '1' '/' token) = name := by
  induction token using tokenName.induct generalizing name with
  | case1 =>
      cases spelled
      rfl
  | case2 rest ih =>
      obtain ⟨tail, known, rfl⟩ := Option.map_eq_some_iff.mp spelled
      have inner : replacePair '~' '1' '/' ('~' :: '0' :: rest) =
          '~' :: '0' :: replacePair '~' '1' '/' rest := by
        rw [replacePair, if_neg (by decide), replacePair_cons_other (by decide)]
      rw [inner, replacePair, if_pos (by decide), ih known]
  | case3 rest ih =>
      obtain ⟨tail, known, rfl⟩ := Option.map_eq_some_iff.mp spelled
      have inner : replacePair '~' '1' '/' ('~' :: '1' :: rest) =
          '/' :: replacePair '~' '1' '/' rest := by
        rw [replacePair, if_pos (by decide)]
      rw [inner, replacePair_cons_other (by decide), ih known]
  | case4 rest none zero => simp [tokenName] at spelled
  | case5 c rest zero one tilde ih =>
      have plain : c ≠ '~' := fun same => tilde same
      rw [tokenName.eq_5 c rest zero one tilde] at spelled
      obtain ⟨tail, known, rfl⟩ := Option.map_eq_some_iff.mp spelled
      rw [replacePair_cons_other plain, replacePair_cons_other plain, ih known]

theorem lookup_of_get {items : Dict} {key : String} {value : PyJson} (filled : value ≠ .none)
    (found : get items key = value) : items.lookup key = some value := by
  unfold PyJson.get at found
  cases here : items.lookup key with
  | none =>
      rw [here] at found
      exact absurd found.symm filled
  | some other =>
      rw [here] at found
      exact congrArg some found

theorem follow_definition {schema entry : PyJson} {names : List String}
    (defined : definition schema names = some entry) : follow schema names = some entry := by
  induction schema, names using definition.induct with
  | case1 name rest items definitions found ih =>
      rw [definition, found, Option.bind_eq_some_iff] at defined
      obtain ⟨next, here, deeper⟩ := defined
      have there := lookup_of_get (by simp) found
      rw [follow, there, Option.bind_some, follow, here, Option.bind_some]
      cases rest with
      | nil => exact deeper
      | cons first others =>
          cases next with
          | dict members =>
              dsimp only at deeper
              split_ifs at deeper
              exact ih members deeper
          | _ => cases deeper
  | _ => simp_all [definition]

/-- A local reference that is not percent-encoded is resolved. -/
theorem resolveRef_target {root entry : PyJson} {ref : String} (plain : '%' ∉ ref.toList)
    (found : target root ref = some entry) : resolveRef ref root = some entry := by
  unfold target at found
  unfold resolveRef
  split at found
  · rename_i fragment spelled
    have clean : '%' ∉ fragment := fun member => plain (by rw [spelled]; exact .tail _ member)
    rw [decodedFragment, if_neg clean] at found
    simp only [Option.bind_eq_bind, Option.bind_some] at found
    split at found
    · rename_i path
      obtain ⟨names, tokens, defined⟩ := Option.bind_eq_some_iff.mp found
      rw [spelled]
      have parts : (path.splitOn '/').map pointerPart = names.map String.ofList := by
        refine Permuted.map_related (fun token name known => ?_) (Permuted.mapM_related tokens)
        rw [pointerPart, pointerPart_name known]
      show follow root ((path.splitOn '/').map pointerPart) = some entry
      rw [parts]
      exact follow_definition defined
    · cases found
  · cases found

/-! Keywords. -/

section Keywords

variable {repr : PyJson → String} {search : String → String → Bool}
  {validDatetime : String → Bool} {path : String}

theorem withType_exact {items : Dict} {inst : PyJson} {type : Meaning}
    (known : atKeyword items "type" typeMeaning = some type) {others : Check} {clear valid : Prop}
    (rest : Exact others clear valid) :
    Exact (withType repr items inst path others) (type.clear inst ∧ (type.valid inst → clear))
      (type.valid inst ∧ valid) := by
  unfold atKeyword at known
  unfold withType
  split at known
  · rename_i value found
    rw [found]
    obtain ⟨names, read, known⟩ := Option.bind_eq_some_iff.mp known
    split_ifs at known
    obtain rfl := Option.some.inj known
    dsimp only
    rw [read]
    dsimp only
    split_ifs with passed
    · refine rest.imp (fun here => here.2 ((typeOk_any here.1).mp passed)) fun here => ?_
      exact (and_iff_right ((typeOk_any here.1).mp passed)).symm
    · refine exact_fail fun here => iff_of_false (by simp) fun typed => ?_
      exact passed ((typeOk_any here.1).mpr typed.1)
  · rename_i found
    rw [found]
    obtain rfl := Option.some.inj known
    exact rest.imp (fun here => here.2 trivial) fun _ => (and_iff_right trivial).symm

theorem checkConst_exact {inst value : PyJson} {meant : Meaning}
    (known : constMeaning value = some meant) :
    Exact (checkConst repr inst path value) (meant.clear inst) (meant.valid inst) := by
  obtain rfl := Option.some.inj known
  refine exact_fail fun _ => ?_
  rw [Bool.not_eq_eq_eq_not, Bool.not_false, jsonEqual_iff]
  rfl

theorem checkEnum_exact {inst value : PyJson} {meant : Meaning}
    (known : enumMeaning value = some meant) :
    Exact (checkEnum repr inst path value) (meant.clear inst) (meant.valid inst) := by
  cases value with
  | list values =>
      obtain rfl := Option.some.inj known
      refine exact_fail fun _ => ?_
      simp only [Bool.not_eq_eq_eq_not, Bool.not_false, List.any_eq_true, jsonEqual_iff]
      rfl
  | _ => cases known

theorem bound_size {value : PyJson} {least : Nat} (known : size value = some least) :
    bound value = some (least : Rat) := by
  cases value with
  | int held =>
      simp only [size, Option.ite_none_right_eq_some, Option.some.injEq] at known
      obtain ⟨positive, rfl⟩ := known
      rw [bound, ← Int.cast_natCast, Int.toNat_of_nonneg positive]
  | float held =>
      simp only [size, Option.ite_none_right_eq_some, Option.some.injEq] at known
      obtain ⟨⟨whole, positive⟩, rfl⟩ := known
      rw [bound, ← Int.cast_natCast, Int.toNat_of_nonneg (Rat.num_nonneg.mpr positive)]
      exact congrArg some (Rat.den_eq_one_iff held |>.mp whole).symm
  | _ => cases known

theorem checkSize_exact {sized : PyJson → Nat → Prop} {inst : PyJson} {count : Nat}
    (counted : ∀ other, sized inst other ↔ other = count) {message : PyJson → String}
    {value : PyJson} {meant : Meaning} (known : sizeMeaning sized value = some meant) :
    Exact (checkSize count message value) (meant.clear inst) (meant.valid inst) := by
  obtain ⟨least, read, rfl⟩ := Option.map_eq_some_iff.mp known
  rw [checkSize, bound_size read]
  refine exact_fail fun _ => ?_
  simp only [decide_eq_false_iff_not, not_lt, Nat.cast_le, condition, counted, forall_eq]

theorem checkPattern_exact {inst : String} {value : PyJson} {meant : Meaning}
    (known : patternMeaning search value = some meant) :
    Exact (checkPattern repr search inst path value) (meant.clear (.str inst))
      (meant.valid (.str inst)) := by
  cases value with
  | str pattern =>
      obtain rfl := Option.some.inj known
      refine exact_fail fun _ => ?_
      simp [condition]
  | _ => cases known

theorem checkBound_exact {inst : PyJson} {number : Rat} (held : bound inst = some number)
    {items : Dict} {least most : Meaning} (minimum : atKeyword items "minimum" minimumMeaning = some least)
    (maximum : atKeyword items "maximum" maximumMeaning = some most) :
    Exact (checkNumber repr items number path) ((join [least, most]).clear inst)
      ((join [least, most]).valid inst) := by
  refine exact_join (.cons ?_ (.cons ?_ .nil))
  · refine exact_keyword minimum fun value _ known => ?_
    obtain ⟨limit, read, rfl⟩ := Option.map_eq_some_iff.mp known
    rw [checkBound, read]
    refine exact_fail fun _ => ?_
    simp [condition, held]
  · refine exact_keyword maximum fun value _ known => ?_
    obtain ⟨limit, read, rfl⟩ := Option.map_eq_some_iff.mp known
    rw [checkBound, read]
    refine exact_fail fun _ => ?_
    simp [condition, held]

theorem checkString_exact {items : Dict} {inst : String} {pattern length format : Meaning}
    (patterned : atKeyword items "pattern" (patternMeaning search) = some pattern)
    (sized : atKeyword items "minLength" (sizeMeaning lengthOf) = some length)
    (formatted : atKeyword items "format" (formatMeaning validDatetime) = some format) :
    Exact (checkString repr search validDatetime items inst path)
      ((join [pattern, length, format]).clear (.str inst))
      ((join [pattern, length, format]).valid (.str inst)) := by
  refine exact_join (.cons ?_ (.cons ?_ (.cons ?_ .nil)))
  · exact exact_keyword patterned fun value _ known => checkPattern_exact known
  · refine exact_keyword sized fun value _ known => checkSize_exact (fun other => ?_) known
    simp [lengthOf]
  · refine exact_fail fun _ => ?_
    unfold atKeyword at formatted
    split at formatted
    · rename_i value found
      cases value with
      | str name =>
          obtain rfl := Option.some.inj formatted
          by_cases named : name = "date-time"
          · simp [PyJson.get, found, eqStr, condition, named]
          · simp [PyJson.get, found, eqStr, condition, named]
      | _ => cases formatted
    · rename_i found
      obtain rfl := Option.some.inj formatted
      simp [PyJson.get, found, eqStr, free]

end Keywords

/-! Subschemas. -/

section Subschemas

variable {repr : PyJson → String} {search : String → String → Bool}
  {validDatetime : String → Bool} {path : String} {recurse : PyJson → PyJson → String → Check}
  {read : PyJson → Option Meaning}

/-- Evaluating a subschema is exact for what it means. -/
def Sound (recurse : PyJson → PyJson → String → Check) (read : PyJson → Option Meaning) : Prop :=
  ∀ schema meant, read schema = some meant → ∀ inst path,
    Exact (recurse inst schema path) (meant.clear inst) (meant.valid inst)

theorem isValid_exact (sound : Sound recurse read) {schema : PyJson} {meant : Meaning}
    (known : read schema = some meant) {inst : PyJson} (clear : meant.clear inst) :
    ∃ valid, isValid recurse inst schema = .ok valid ∧ (valid = true ↔ meant.valid inst) := by
  obtain ⟨found, ended, right⟩ := sound schema meant known inst "" clear
  refine ⟨found.isEmpty, by rw [isValid, ended]; rfl, ?_⟩
  rw [← right, List.isEmpty_iff]

theorem anyValid_exact (sound : Sound recurse read) {schemas : List PyJson}
    {meanings : List Meaning}
    (known : List.Forall₂ (fun schema meant => read schema = some meant) schemas meanings)
    {inst : PyJson} (clear : ∀ meant ∈ meanings, meant.clear inst) :
    ∃ found, anyValid recurse inst schemas = .ok found ∧
      (found = true ↔ ∃ meant ∈ meanings, meant.valid inst) := by
  induction known with
  | nil => exact ⟨false, rfl, by simp⟩
  | cons here _ ih =>
      rw [List.forall_mem_cons] at clear
      obtain ⟨valid, ended, right⟩ := isValid_exact sound here clear.1
      rw [anyValid, ended]
      cases valid with
      | true => exact ⟨true, rfl, iff_of_true rfl ⟨_, List.mem_cons_self, right.mp rfl⟩⟩
      | false =>
          obtain ⟨found, ended', right'⟩ := ih clear.2
          refine ⟨found, ended', ?_⟩
          have first := right.not.mp (by simp)
          rw [right']
          simp [first]

theorem exactlyOne_cons {α : Type} {holds : α → Prop} {element : α} {rest : List α} :
    ExactlyOne holds (element :: rest) ↔
      (holds element ∧ ∀ other ∈ rest, ¬holds other) ∨ (¬holds element ∧ ExactlyOne holds rest) := by
  constructor
  · rintro ⟨before, one, after, split, here, others⟩
    cases before with
    | nil =>
        obtain ⟨rfl, rfl⟩ := List.cons.inj split
        exact .inl ⟨here, others⟩
    | cons first before =>
        obtain ⟨rfl, rfl⟩ := List.cons.inj split
        exact .inr ⟨others _ (by simp), before, one, after, rfl, here,
          fun other listed => others other (List.mem_cons_of_mem _ listed)⟩
  · rintro (⟨here, none⟩ | ⟨absent, before, one, after, rfl, here, others⟩)
    · exact ⟨[], element, rest, rfl, here, none⟩
    · refine ⟨element :: before, one, after, rfl, here, fun other listed => ?_⟩
      rcases List.mem_cons.mp listed with rfl | later
      · exact absent
      · exact others other later

theorem countValid_exact (sound : Sound recurse read) {schemas : List PyJson}
    {meanings : List Meaning}
    (known : List.Forall₂ (fun schema meant => read schema = some meant) schemas meanings)
    {inst : PyJson} (clear : ∀ meant ∈ meanings, meant.clear inst) :
    ∃ count, countValid recurse inst schemas = .ok count ∧
      (count = 0 ↔ ∀ meant ∈ meanings, ¬meant.valid inst) ∧
      (count = 1 ↔ ExactlyOne (fun meant => meant.valid inst) meanings) := by
  induction known with
  | nil => exact ⟨0, rfl, by simp, by simp [ExactlyOne]⟩
  | cons here _ ih =>
      rw [List.forall_mem_cons] at clear
      obtain ⟨valid, ended, right⟩ := isValid_exact sound here clear.1
      obtain ⟨count, ended', zero, one⟩ := ih clear.2
      refine ⟨(if valid then 1 else 0) + count, by rw [countValid, ended, ended']; rfl, ?_⟩
      rw [exactlyOne_cons, List.forall_mem_cons, ← right, ← zero, ← one]
      cases valid <;> simp

theorem exact_after {α : Type} {result : Except String α} {next : α → Check} {clear valid : Prop}
    (ended : clear → ∃ value, result = .ok value ∧ Exact (next value) clear valid) :
    Exact (after result next) clear valid := by
  intro known
  obtain ⟨value, rfl, right⟩ := ended known
  exact right known

theorem subschemas_exact {combine : List Meaning → PyJson → Prop} {check : List PyJson → Check}
    {value : PyJson} {inst : PyJson} {meant : Meaning}
    (known : listMeaning read combine value = some meant)
    (right : ∀ schemas meanings,
      List.Forall₂ (fun schema meant => read schema = some meant) schemas meanings →
      Exact (check schemas) (∀ meant ∈ meanings, meant.clear inst) (combine meanings inst)) :
    Exact (subschemas check value) (meant.clear inst) (meant.valid inst) := by
  cases value with
  | list schemas =>
      obtain ⟨meanings, read, rfl⟩ := Option.map_eq_some_iff.mp known
      exact right schemas meanings (Permuted.mapM_related read)
  | _ => cases known

theorem exact_schemas (sound : Sound recurse read) {schemas : List PyJson}
    {meanings : List Meaning}
    (known : List.Forall₂ (fun schema meant => read schema = some meant) schemas meanings)
    (inst : PyJson) :
    Exact (overAll (fun schema => recurse inst schema path) schemas)
      (∀ meant ∈ meanings, meant.clear inst) (∀ meant ∈ meanings, meant.valid inst) := by
  induction known with
  | nil => exact exact_ok fun _ => by simp
  | cons here _ ih =>
      refine (exact_append (sound _ _ here inst path) ih).imp (fun clear => ?_) fun _ => ?_
      · simpa using clear
      · simp

theorem checkCombined_exact (sound : Sound recurse read) {items : Dict} {combined : Meaning}
    (known : combinedMeaning read items = some combined) (inst : PyJson) :
    Exact (checkCombined recurse items inst path) (combined.clear inst) (combined.valid inst) := by
  simp only [combinedMeaning, Option.bind_eq_bind, Option.bind_eq_some_iff] at known
  obtain ⟨every, allOf, one, oneOf, any, anyOf, none, negated, branches, conditional, known⟩ := known
  obtain rfl := Option.some.inj known
  refine exact_join (.cons ?_ (.cons ?_ (.cons ?_ (.cons ?_ (.cons ?_ .nil)))))
  · exact exact_keyword allOf fun value _ known =>
      subschemas_exact known fun schemas meanings pairs => exact_schemas sound pairs inst
  · refine exact_keyword oneOf fun value _ known => subschemas_exact known fun schemas meanings pairs => ?_
    refine exact_after fun clear => ?_
    obtain ⟨count, ended, -, right⟩ := countValid_exact sound pairs clear
    refine ⟨count, ended, exact_fail fun _ => ?_⟩
    rw [← right]
    simp
  · refine exact_keyword anyOf fun value _ known => subschemas_exact known fun schemas meanings pairs => ?_
    refine exact_after fun clear => ?_
    obtain ⟨found, ended, right⟩ := anyValid_exact sound pairs clear
    refine ⟨found, ended, exact_fail fun _ => ?_⟩
    rw [← right]
    simp
  · refine exact_keyword negated fun value _ known => ?_
    obtain ⟨meant, reading, rfl⟩ := Option.map_eq_some_iff.mp known
    refine exact_after fun clear => ?_
    obtain ⟨valid, ended, right⟩ := isValid_exact sound reading clear
    refine ⟨valid, ended, exact_fail fun _ => ?_⟩
    rw [← Bool.not_eq_true, right]
  · refine exact_keyword conditional fun value _ known => ?_
    simp only [conditionalMeaning, Option.bind_eq_bind, Option.bind_eq_some_iff] at known
    obtain ⟨test, reading, accepted, first, refused, second, known⟩ := known
    obtain rfl := Option.some.inj known
    refine exact_after fun clear => ?_
    obtain ⟨valid, ended, right⟩ := isValid_exact sound reading clear.1
    refine ⟨valid, ended, ?_⟩
    cases valid with
    | true =>
        have passed := right.mp rfl
        have branch := exact_keyword first fun value _ known =>
          sound value accepted known inst path
        refine branch.imp (fun clear => clear.2.1 passed) fun _ => ?_
        exact ⟨fun valid => ⟨fun _ => valid, fun refuted => absurd passed refuted⟩,
          fun both => both.1 passed⟩
    | false =>
        have refuted := right.not.mp (by simp)
        have branch := exact_keyword second fun value _ known =>
          sound value refused known inst path
        refine branch.imp (fun clear => clear.2.2 refuted) fun _ => ?_
        exact ⟨fun valid => ⟨fun passed => absurd passed refuted, fun _ => valid⟩,
          fun both => both.2 refuted⟩

theorem checkRequired_exact {members : Dict} {value : PyJson} {meant : Meaning}
    (known : requiredMeaning value = some meant) :
    Exact (checkRequired repr members path value) (meant.clear (.dict members))
      (meant.valid (.dict members)) := by
  cases value with
  | list names =>
      obtain ⟨wanted, reading, rfl⟩ := Option.map_eq_some_iff.mp known
      rw [checkRequired, reading]
      have each : ∀ name ∈ wanted, Exact (fail (!has members name)
          (place path ++ " is missing required " ++ repr (.str name))) True
          (has members name = true) := fun name _ => exact_fail fun _ => by simp
      refine (exact_overAll each).imp (fun _ _ _ => trivial) fun _ => ?_
      simp [condition]
  | _ => cases known

theorem lookup_related {properties : Dict} {meanings : List (String × Meaning)}
    (known : List.Forall₂ (fun property meant =>
      ((read property.2).map fun meaning => (property.1, meaning)) = some meant)
      properties meanings) (key : String) :
    (properties.lookup key = Option.none ∧ meanings.lookup key = Option.none) ∨
      ∃ schema meant, properties.lookup key = some schema ∧ meanings.lookup key = some meant ∧
        read schema = some meant := by
  induction known with
  | nil => exact .inl ⟨rfl, rfl⟩
  | @cons property meant _ _ here _ ih =>
      obtain ⟨meaning, reading, rfl⟩ := Option.map_eq_some_iff.mp here
      obtain ⟨name, schema⟩ := property
      by_cases same : key = name
      · subst same
        exact .inr ⟨schema, meaning, by simp [List.lookup], by simp [List.lookup], reading⟩
      · simpa [List.lookup, beq_false_of_ne same] using ih

/-- A well-formed schema is a bool, of the plain meaning, or an object. -/
def Shaped (read : PyJson → Option Meaning) : Prop :=
  ∀ schema meant, read schema = some meant →
    (∃ accepted, schema = .bool accepted ∧ ∀ inst, meant.valid inst ↔ accepted = true) ∨
      ∃ members, schema = .dict members

theorem additional_exact (sound : Sound recurse read) (shaped : Shaped read) {items : Dict}
    {additional : Meaning}
    (known : atKeyword items "additionalProperties" read = some additional)
    (member : String × PyJson) :
    Exact (keyword items "additionalProperties" fun additional =>
        match additional with
        | .bool false => fail true
            (place path ++ " has unknown property " ++ repr (.str member.1))
        | .dict schema => recurse member.2 (.dict schema) (path ++ "." ++ member.1)
        | _ => .ok []) (additional.clear member.2) (additional.valid member.2) := by
  refine exact_keyword known fun value _ reading => ?_
  obtain ⟨accepted, rfl, plain⟩ | ⟨schema, rfl⟩ := shaped value additional reading
  · cases accepted with
    | true => exact exact_ok fun _ => (plain _).mpr rfl
    | false =>
        refine exact_fail fun _ => iff_of_false (by simp) fun valid => ?_
        cases (plain _).mp valid
  · exact sound _ _ reading member.2 _

theorem property_exact (sound : Sound recurse read) (shaped : Shaped read) {items properties : Dict}
    {meanings : List (String × Meaning)} {additional : Meaning}
    (own : List.Forall₂ (fun property meant =>
      ((read property.2).map fun meaning => (property.1, meaning)) = some meant)
      properties meanings)
    (known : atKeyword items "additionalProperties" read = some additional)
    (member : String × PyJson) :
    Exact (match properties.lookup member.1 with
        | some own => recurse member.2 own (path ++ "." ++ member.1)
        | Option.none =>
            keyword items "additionalProperties" fun additional =>
              match additional with
              | .bool false => fail true
                  (place path ++ " has unknown property " ++ repr (.str member.1))
              | .dict schema => recurse member.2 (.dict schema) (path ++ "." ++ member.1)
              | _ => .ok [])
      ((memberMeaning meanings additional member.1).clear member.2)
      ((memberMeaning meanings additional member.1).valid member.2) := by
  obtain ⟨absent, absent'⟩ | ⟨schema, meant, found, found', reading⟩ :=
    lookup_related own member.1
  · rw [absent, memberMeaning, absent']
    exact additional_exact sound shaped known member
  · rw [found, memberMeaning, found']
    exact sound schema meant reading member.2 _

/-- What is asked of every name of a member. -/
theorem names_each (sound : Sound recurse read) {items : Dict} {names : Meaning}
    (known : atKeyword items "propertyNames" (namesMeaning read) = some names) :
    ∃ each : Meaning,
      (∀ (key path : String), Exact (keyword items "propertyNames" fun names =>
        recurse (.str key) names path) (each.clear (.str key)) (each.valid (.str key))) ∧
      (∀ members : Dict, names.clear (.dict members) → ∀ member ∈ members,
        each.clear (.str member.1)) ∧
      ∀ members : Dict, names.valid (.dict members) ↔ ∀ member ∈ members,
        each.valid (.str member.1) := by
  unfold atKeyword at known
  split at known
  · rename_i value found
    obtain ⟨each, reading, rfl⟩ := Option.map_eq_some_iff.mp known
    refine ⟨each, fun key path => ?_, fun members clear => clear members rfl, fun members => ?_⟩
    · rw [keyword, found]
      exact sound value each reading _ path
    · simp
  · rename_i found
    obtain rfl := Option.some.inj known
    refine ⟨free, fun key path => ?_, fun _ _ _ _ => trivial, fun members => ?_⟩
    · rw [keyword, found]
      exact exact_ok fun _ => trivial
    · simp [free]

theorem checkMembers_exact (sound : Sound recurse read) (shaped : Shaped read) {items : Dict}
    {names properties : Meaning}
    (named : atKeyword items "propertyNames" (namesMeaning read) = some names)
    (known : propertiesMeaning read items = some properties) (members : Dict) :
    Exact (match items.lookup "properties" with
        | some (.dict properties) => overAll (checkMember repr recurse items path properties) members
        | some _ => malformed
        | Option.none => overAll (checkMember repr recurse items path []) members)
      (names.clear (.dict members) ∧ properties.clear (.dict members))
      (names.valid (.dict members) ∧ properties.valid (.dict members)) := by
  obtain ⟨each, exact_, clear_each, valid_each⟩ := names_each sound named
  simp only [propertiesMeaning, Option.bind_eq_bind, Option.bind_eq_some_iff] at known
  obtain ⟨meanings, own, additional, others, known⟩ := known
  obtain rfl := Option.some.inj known
  have whole : ∀ own : Dict, List.Forall₂ (fun property meant =>
      ((read property.2).map fun meaning => (property.1, meaning)) = some meant) own meanings →
      Exact (overAll (checkMember repr recurse items path own) members)
        (∀ member ∈ members, each.clear (.str member.1) ∧
          (memberMeaning meanings additional member.1).clear member.2)
        (∀ member ∈ members, each.valid (.str member.1) ∧
          (memberMeaning meanings additional member.1).valid member.2) := by
    intro own pairs
    refine exact_overAll fun member _ => ?_
    exact exact_append (exact_ member.1 _)
      (exact_single (property_exact sound shaped pairs others member))
  have found : Exact (match items.lookup "properties" with
        | some (.dict properties) => overAll (checkMember repr recurse items path properties) members
        | some _ => malformed
        | Option.none => overAll (checkMember repr recurse items path []) members)
      (∀ member ∈ members, each.clear (.str member.1) ∧
        (memberMeaning meanings additional member.1).clear member.2)
      (∀ member ∈ members, each.valid (.str member.1) ∧
        (memberMeaning meanings additional member.1).valid member.2) := by
    unfold propertyMeanings at own
    split at own
    · obtain rfl := Option.some.inj own
      rename_i absent
      rw [absent]
      exact whole [] .nil
    · rename_i schemas listed
      rw [listed]
      exact whole schemas (Permuted.mapM_related own)
    · cases own
  refine found.imp (fun clear member listed => ?_) fun _ => ?_
  · exact ⟨clear_each members clear.1 member listed, clear.2 members rfl member listed⟩
  · rw [valid_each]
    refine ⟨fun all => ⟨fun member listed => (all member listed).1, ?_⟩, fun both member listed =>
      ⟨both.1 member listed, both.2 members rfl member listed⟩⟩
    rintro _ ⟨⟩ member listed
    exact (all member listed).2

theorem checkObject_exact (sound : Sound recurse read) (shaped : Shaped read) {items : Dict}
    {objects : Meaning} (known : objectMeaning read items = some objects) (members : Dict) :
    Exact (checkObject repr recurse items members path) (objects.clear (.dict members))
      (objects.valid (.dict members)) := by
  simp only [objectMeaning, Option.bind_eq_bind, Option.bind_eq_some_iff] at known
  obtain ⟨required, requires, least, sized, names, named, properties, own, known⟩ := known
  obtain rfl := Option.some.inj known
  have wanted : Exact (keyword items "required" (checkRequired repr members path))
      (required.clear (.dict members)) (required.valid (.dict members)) :=
    exact_keyword requires fun value _ known => checkRequired_exact known
  have large : Exact (keyword items "minProperties" (checkSize members.length fun least =>
        place path ++ " has fewer than " ++ shown repr least ++ " properties"))
      (least.clear (.dict members)) (least.valid (.dict members)) :=
    exact_keyword sized fun value _ known => checkSize_exact (fun _ => by simp [memberCount]) known
  have each := @checkMembers_exact repr path recurse read sound shaped _ _ _ named own members
  refine (exact_append wanted (exact_append large (exact_single each))).imp (fun clear => ?_)
    fun _ => ?_
  · have all := clear rfl
    simp only [join, List.forall_mem_cons] at all
    exact ⟨all.1, all.2.1, all.2.2.1, all.2.2.2.1⟩
  · simp [only, join, isDict]

theorem hasDuplicates_iff {elements : List PyJson} :
    hasDuplicates elements = false ↔ elements.Pairwise fun first second => ¬Equal first second := by
  induction elements with
  | nil => simp [hasDuplicates]
  | cons first rest ih =>
      rw [hasDuplicates, Bool.or_eq_false_iff, ih, List.pairwise_cons, List.any_eq_false]
      simp only [jsonEqual_iff]

theorem forall_mem_zipIdx_fst {α : Type} {holds : α → Prop} {elements : List α} :
    (∀ element ∈ elements.zipIdx, holds element.1) ↔ ∀ element ∈ elements, holds element := by
  rw [← List.forall_mem_map, List.zipIdx_map_fst]

theorem checkItems_exact (sound : Sound recurse read) (shaped : Shaped read) {items : Dict}
    {element : Meaning} (known : atKeyword items "items" (itemsMeaning read) = some element)
    (elements : List PyJson) :
    Exact (match items.lookup "items" with
        | some (.dict schema) => overAll (fun element =>
            recurse element.1 (.dict schema) (path ++ "[" ++ toString element.2 ++ "]"))
            elements.zipIdx
        | _ => .ok []) (element.clear (.list elements)) (element.valid (.list elements)) := by
  unfold atKeyword at known
  split at known
  · rename_i value found
    obtain ⟨each, reading, rfl⟩ := Option.map_eq_some_iff.mp known
    rw [found]
    obtain ⟨accepted, rfl, plain⟩ | ⟨schema, rfl⟩ := shaped value each reading
    · refine exact_ok fun clear inst same one listed => ?_
      cases same
      cases accepted with
      | true => exact (plain one).mpr rfl
      | false =>
          rw [(clear elements rfl).1 rfl] at listed
          cases listed
    · have whole : Exact (overAll (fun element =>
            recurse element.1 (.dict schema) (path ++ "[" ++ toString element.2 ++ "]"))
          elements.zipIdx) (∀ element ∈ elements.zipIdx, each.clear element.1)
          (∀ element ∈ elements.zipIdx, each.valid element.1) :=
        exact_overAll fun element _ => sound _ _ reading element.1 _
      rw [forall_mem_zipIdx_fst, forall_mem_zipIdx_fst] at whole
      refine whole.imp (fun clear => (clear elements rfl).2) fun _ => ?_
      simp
  · rename_i found
    obtain rfl := Option.some.inj known
    rw [found]
    exact exact_ok fun _ => trivial

theorem checkUnique_exact {items : Dict} {unique : Meaning}
    (known : atKeyword items "uniqueItems" uniqueMeaning = some unique) (elements : List PyJson) :
    Exact (fail (truthy (get items "uniqueItems") && hasDuplicates elements)
        (path ++ " has duplicate items")) (unique.clear (.list elements))
      (unique.valid (.list elements)) := by
  refine exact_fail fun _ => ?_
  unfold atKeyword at known
  split at known
  · rename_i value found
    cases value with
    | bool wanted =>
        obtain rfl := Option.some.inj known
        rw [PyJson.get, found]
        cases wanted with
        | true => simpa [truthy, condition] using hasDuplicates_iff
        | false => simp [truthy, condition]
    | _ => cases known
  · rename_i found
    obtain rfl := Option.some.inj known
    simp [PyJson.get, found, truthy, free]

theorem checkArray_exact (sound : Sound recurse read) (shaped : Shaped read) {items : Dict}
    {arrays : Meaning} (known : arrayMeaning read items = some arrays) (elements : List PyJson) :
    Exact (checkArray repr recurse items elements path) (arrays.clear (.list elements))
      (arrays.valid (.list elements)) := by
  simp only [arrayMeaning, Option.bind_eq_bind, Option.bind_eq_some_iff] at known
  obtain ⟨least, sized, unique, uniqueRead, element, itemsRead, known⟩ := known
  obtain rfl := Option.some.inj known
  have large : Exact (keyword items "minItems" (checkSize elements.length fun least =>
        path ++ " has fewer than " ++ shown repr least ++ " items"))
      (least.clear (.list elements)) (least.valid (.list elements)) :=
    exact_keyword sized fun value _ known => checkSize_exact (fun _ => by simp [elementCount]) known
  refine (exact_append large (exact_append (checkUnique_exact uniqueRead elements)
    (exact_single (checkItems_exact sound shaped itemsRead elements)))).imp (fun clear => ?_)
    fun _ => ?_
  · have all := clear rfl
    simp only [join, List.forall_mem_cons] at all
    exact ⟨all.1, all.2.1, all.2.2.1⟩
  · simp [only, join, isList]

/-- The keywords for the type of the instance; those for other types ask nothing. -/
theorem checkByType_exact (sound : Sound recurse read) (shaped : Shaped read) {items : Dict}
    {strings numbers objects arrays : Meaning}
    (stringsRead : stringMeaning search validDatetime items = some strings)
    (numbersRead : numberMeaning items = some numbers)
    (objectsRead : objectMeaning read items = some objects)
    (arraysRead : arrayMeaning read items = some arrays) (inst : PyJson) :
    Exact (checkByType repr search validDatetime recurse items inst path)
      ((join [strings, numbers, objects, arrays]).clear inst)
      ((join [strings, numbers, objects, arrays]).valid inst) := by
  have texts := stringsRead
  simp only [stringMeaning, Option.bind_eq_bind, Option.bind_eq_some_iff] at texts
  obtain ⟨pattern, patterned, length, sized, format, formatted, known⟩ := texts
  obtain rfl := Option.some.inj known
  have values := numbersRead
  simp only [numberMeaning, Option.bind_eq_bind, Option.bind_eq_some_iff] at values
  obtain ⟨minimum, least, maximum, most, known⟩ := values
  obtain rfl := Option.some.inj known
  have members := objectsRead
  simp only [objectMeaning, Option.bind_eq_bind, Option.bind_eq_some_iff] at members
  obtain ⟨_, _, _, _, _, _, _, _, known⟩ := members
  obtain rfl := Option.some.inj known
  have elements := arraysRead
  simp only [arrayMeaning, Option.bind_eq_bind, Option.bind_eq_some_iff] at elements
  obtain ⟨_, _, _, _, _, _, known⟩ := elements
  obtain rfl := Option.some.inj known
  cases inst with
  | str text =>
      refine (checkString_exact patterned sized formatted).imp (fun clear => ?_) fun _ => ?_
      · exact clear (only isStr (join [pattern, length, format])) (by simp) rfl
      · simp [join, only, isStr, isNumber, bound, isDict, isList]
  | int value =>
      have held : bound (.int value) = some (value : Rat) := rfl
      refine (checkBound_exact held least most).imp (fun clear => ?_) fun _ => ?_
      · exact clear (only isNumber (join [minimum, maximum])) (by simp) rfl
      · simp [join, only, isStr, isNumber, bound, isDict, isList]
  | float value =>
      have held : bound (.float value) = some value := rfl
      refine (checkBound_exact held least most).imp (fun clear => ?_) fun _ => ?_
      · exact clear (only isNumber (join [minimum, maximum])) (by simp) rfl
      · simp [join, only, isStr, isNumber, bound, isDict, isList]
  | dict members =>
      refine (checkObject_exact sound shaped objectsRead members).imp (fun clear => ?_) fun _ => ?_
      · exact clear _ (by simp)
      · simp [join, only, isStr, isNumber, bound, isDict, isList]
  | list elements =>
      refine (checkArray_exact sound shaped arraysRead elements).imp (fun clear => ?_) fun _ => ?_
      · exact clear _ (by simp)
      · simp [join, only, isStr, isNumber, bound, isDict, isList]
  | _ =>
      refine exact_ok fun _ => ?_
      simp [join, only, isStr, isNumber, bound, isDict, isList]

/-- A schema object, where its subschemas are evaluated exactly. -/
theorem node_exact (sound : Sound recurse read) (shaped : Shaped read) {root : PyJson}
    {ref : PyJson → Option Meaning} {items : Dict} {meant : Meaning}
    (refs : ∀ value meant, ref value = some meant → ∀ inst, Exact
      (checkRef repr root recurse inst path value) (meant.clear inst) (meant.valid inst))
    (known : nodeMeaning search validDatetime read ref items = some meant) (inst : PyJson) :
    Exact (validateWith repr search validDatetime root recurse inst (.dict items) path)
      (meant.clear inst) (meant.valid inst) := by
  unfold nodeMeaning at known
  split_ifs at known
  simp only [Option.bind_eq_bind, Option.bind_eq_some_iff] at known
  obtain ⟨referred, refRead, type, typeRead, const, constRead, enum, enumRead, strings, stringsRead,
    numbers, numbersRead, objects, objectsRead, arrays, arraysRead, combined, combinedRead,
    known⟩ := known
  obtain rfl := Option.some.inj known
  have reference : Exact (keyword items "$ref" (checkRef repr root recurse inst path))
      (referred.clear inst) (referred.valid inst) :=
    exact_keyword refRead fun value _ known => refs value referred known inst
  have constant : Exact (keyword items "const" (checkConst repr inst path)) (const.clear inst)
      (const.valid inst) := exact_keyword constRead fun value _ known => checkConst_exact known
  have enumerated : Exact (keyword items "enum" (checkEnum repr inst path)) (enum.clear inst)
      (enum.valid inst) := exact_keyword enumRead fun value _ known => checkEnum_exact known
  have typed := @checkByType_exact repr search validDatetime path recurse read sound shaped items
    strings numbers objects arrays stringsRead numbersRead objectsRead arraysRead inst
  have combination := @checkCombined_exact path recurse read sound items combined combinedRead inst
  have others := @withType_exact repr path items inst type typeRead _ _ _
    (exact_append constant (exact_append enumerated (exact_append typed (exact_single combination))))
  refine (exact_append reference (exact_single others)).imp ?_ ?_
  · rintro ⟨first, second, rest⟩
    refine ⟨first, second, fun right => ?_⟩
    have all := rest right
    simpa [join, and_assoc] using all
  · intro _
    simp [join, and_assoc]

end Subschemas

/-! Whole documents. -/

section Documents

variable {repr : PyJson → String} {search : String → String → Bool}
  {validDatetime : String → Bool} {root : PyJson}

theorem meaning_shaped (depth : Nat) (place : Place) :
    Shaped (meaning search validDatetime root depth place) := by
  intro schema meant known
  cases depth with
  | zero => cases known
  | succ depth =>
      cases schema with
      | bool accepted =>
          obtain rfl := Option.some.inj known
          exact .inl ⟨accepted, rfl, fun _ => .rfl⟩
      | dict members => exact .inr ⟨members, rfl⟩
      | _ => cases known

/-- To the depth at which a schema has a meaning, and to every greater one. -/
theorem validate_exact {depth : Nat} {place : Place} {schema : PyJson} {meant : Meaning}
    (known : meaning search validDatetime root depth place schema = some meant) {more : Nat}
    (enough : depth ≤ more) (inst : PyJson) (path : String) :
    Exact (validate repr search validDatetime root more inst schema path) (meant.clear inst)
      (meant.valid inst) := by
  induction depth generalizing place schema meant more inst path with
  | zero => cases known
  | succ depth ih =>
      obtain ⟨more, rfl⟩ : ∃ less, more = less + 1 := ⟨more - 1, by omega⟩
      have deeper : depth ≤ more := by omega
      have sound : ∀ place, Sound (validate repr search validDatetime root more)
          (meaning search validDatetime root depth place) :=
        fun place schema meant known inst path => ih known deeper inst path
      cases schema with
      | bool accepted =>
          obtain rfl := Option.some.inj known
          cases accepted with
          | true => exact exact_ok fun _ => rfl
          | false => exact exact_fail fun _ => by simp
      | dict items =>
          refine node_exact (sound _) (meaning_shaped depth _) (fun value meant known inst => ?_)
            known inst
          cases value with
          | str ref =>
              unfold refMeaning at known
              split_ifs at known
              obtain ⟨entry, found, known⟩ := Option.bind_eq_some_iff.mp known
              obtain ⟨referred, reading, rfl⟩ := Option.map_eq_some_iff.mp known
              rintro ⟨plain, clear⟩
              rw [checkRef, resolveRef_target plain found]
              exact sound _ _ _ reading inst path clear
          | _ => cases known
      | _ => cases known

/-- The evaluator ends on a document's own schema, and reports nothing exactly on what is valid. -/
def Agrees (repr : PyJson → String) (search : String → String → Bool)
    (validDatetime : String → Bool) (depth : Nat) (schema : PyJson) (meant : Meaning)
    (inst : PyJson) : Prop :=
  ∃ found, validate repr search validDatetime schema depth inst schema "" = .ok found ∧
    (found = [] ↔ meant.valid inst)

/-- An integral decimal under the type integer is reported, whatever else the schema asks. -/
theorem decimal_reported {depth : Nat} {items : Dict} {types inst : PyJson} {names : List String}
    (noRef : items.lookup "$ref" = Option.none) (typed : items.lookup "type" = some types)
    (read : typeNames types = some names) (decimal : IntegralDecimal inst)
    (apart : "number" ∉ names) :
    ∃ message, validate repr search validDatetime root (depth + 1) inst (.dict items) "" =
      .ok [message] := by
  have refused : names.any (typeOk inst) = false := by
    rw [List.any_eq_false]
    intro name listed ok
    obtain ⟨value, rfl⟩ : ∃ value, inst = .float value := by
      cases inst with
      | float value => exact ⟨value, rfl⟩
      | _ => cases decimal
    unfold typeOk at ok
    split at ok <;> simp_all [kind]
  refine ⟨place "" ++ " must be of type " ++ shown repr types, ?_⟩
  rw [validate, validateWith, keyword, noRef, withType, typed]
  dsimp only
  rw [read]
  dsimp only
  rw [if_neg (by rw [refused]; simp)]
  rfl

/-- A closed list of items is empty. -/
theorem closed_items {depth : Nat} {meant : Meaning}
    (known : meaning search validDatetime root depth .root (.dict [("items", .bool false)]) =
      some meant) (elements : List PyJson) :
    meant.valid (.list elements) ↔ elements = [] := by
  match depth with
  | 0 => cases known
  | 1 => cases known
  | depth + 2 =>
      obtain rfl := Option.some.inj known
      simp [join, only, free, isStr, isNumber, bound, isDict, isList, List.eq_nil_iff_forall_not_mem]

end Documents

/-! A schema with a reference. -/

def anySearch (_ _ : String) : Bool := true

def anyDatetime (_ : String) : Bool := true

def orderSchema : PyJson :=
  .dict [("$defs", .dict [("size", .dict [("minimum", .int 1), ("type", .str "integer")])]),
    ("properties", .dict [("n", .dict [("$ref", .str "#/$defs/size")])]),
    ("required", .list [.str "n"]), ("type", .str "object")]

end Neutrino.JsonSchema
