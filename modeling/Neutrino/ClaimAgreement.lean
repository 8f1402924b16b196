import Neutrino.ClaimCalls
import Neutrino.ClaimPreimage

/-! Where the three execution claims of a call are one: the generated calls are well typed and
hash the reference's preimage. -/

namespace Neutrino

open SortOn Framing

/-! The PostgreSQL procedure. -/

namespace Sql

theorem readConstant_sqlEsc {chars : List Char} (text : ∀ c ∈ chars, c ≠ '\x00') :
    readConstant (sqlEsc chars ++ ['\'']) = some chars := by
  induction chars with
  | nil => rfl
  | cons c rest ih =>
      simp only [List.forall_mem_cons] at text
      have later := ih text.2
      by_cases quote : c = '\''
      · subst quote
        simpa [sqlEsc, readConstant] using later
      · have here : sqlEsc (c :: rest) = c :: sqlEsc rest := by simp [sqlEsc, quote]
        rw [here, List.cons_append, readConstant]
        · simpa [quote, text.1] using later
        · rintro rfl
          exact absurd rfl quote
        · rintro _ rfl
          exact absurd rfl quote

theorem constant_sqlQuote {text : String} (plain : ∀ c ∈ text.toList, c ≠ '\x00') :
    constant (sqlQuote text) = some text := by
  simp [constant, sqlQuote, readConstant_sqlEsc plain]

theorem hexValue_digitChar : ∀ value < 16, hexValue (Nat.digitChar value) = some value := by
  decide

/-- A number in hexadecimal at a fixed width. -/
def hexDigits : Nat → Nat → List Char
  | 0, _ => []
  | width + 1, value => hexDigits width (value / 16) ++ [Nat.digitChar (value % 16)]

theorem hexDigits_zero (width : Nat) : hexDigits width 0 = List.replicate width '0' := by
  induction width with
  | zero => rfl
  | succ width ih => simp [hexDigits, ih, List.replicate_succ']

theorem lpad_toDigits {width value : Nat} (fits : value < 16 ^ (width + 1)) :
    lpad (Nat.toDigits 16 value) (width + 1) '0' = hexDigits (width + 1) value := by
  have short : (Nat.toDigits 16 value).length ≤ width + 1 :=
    (Nat.length_toDigits_le_iff (by decide) (by omega)).mpr fits
  have padded : ∀ text : List Char, text.length ≤ width + 1 →
      lpad text (width + 1) '0' = List.replicate (width + 1 - text.length) '0' ++ text := by
    intro text within
    rw [lpad]
    split
    · rfl
    · rw [List.take_of_length_le within, show width + 1 - text.length = 0 by omega]
      rfl
  rw [padded _ short]
  clear padded short
  induction width generalizing value with
  | zero =>
      rw [Nat.toDigits_of_lt_base (by simpa using fits)]
      simp [hexDigits, Nat.mod_eq_of_lt (show value < 16 by simpa using fits)]
  | succ width ih =>
      rw [hexDigits]
      by_cases small : value < 16
      · rw [Nat.toDigits_of_lt_base small, Nat.div_eq_of_lt small, Nat.mod_eq_of_lt small,
          hexDigits_zero]
        rfl
      · have quotient : value / 16 < 16 ^ (width + 1) := by
          rw [Nat.div_lt_iff_lt_mul (by decide), ← pow_succ]
          exact fits
        rw [Nat.toDigits_of_base_le (by decide) (by omega), ← ih quotient, ← List.append_assoc,
          List.length_append, List.length_singleton, Nat.add_sub_add_right]

theorem decodeHex_hexDigits {length : Nat} (fits : length < 2 ^ 64) :
    decodeHex (hexDigits 16 length) = some (lengthBytes length) := by
  have read : ∀ value, hexValue (Nat.digitChar (value % 16)) = some (value % 16) :=
    fun value => hexValue_digitChar _ (Nat.mod_lt _ (by decide))
  simp only [hexDigits, List.nil_append, List.cons_append, decodeHex, read, Option.bind_eq_bind,
    Option.bind_some, Option.pure_def, lengthBytes, List.map_cons, List.map_nil,
    Option.some.injEq, List.cons.injEq, and_true, ← UInt8.toNat_inj, UInt8.toNat_ofNat',
    Nat.shiftRight_eq_div_pow, Nat.div_div_eq_div_mul]
  omega

theorem neuFrame_eq {x : String} (fits : Framable (utf8 x)) :
    neuFrame x = some (frame (utf8 x)) := by
  rw [neuFrame, lpad_toDigits (by simpa [Framable] using fits), decodeHex_hexDigits fits]
  rfl

theorem claimLoop_eq {α : Type} (name cat val : α → String) {inputs : List α}
    (fits : ∀ input ∈ inputs, Framable (utf8 (name input)) ∧ Framable (utf8 (cat input)) ∧
      Framable (utf8 (val input))) (pre : List UInt8) :
    claimLoop (inputs.map name) (inputs.map cat) (inputs.map val) pre =
      some (pre ++ framed (inputs.flatMap fun input => [name input, cat input, val input])) := by
  induction inputs generalizing pre with
  | nil => simp [claimLoop, framed, frames]
  | cons input rest ih =>
      simp only [List.forall_mem_cons] at fits
      obtain ⟨⟨nameFits, catFits, valFits⟩, later⟩ := fits
      simp only [List.map_cons, claimLoop, neuFrame_eq nameFits, neuFrame_eq catFits,
        neuFrame_eq valFits, Option.bind_eq_bind, Option.bind_some, ih later]
      simp [framed, frames]

theorem argument_asText {type : ColumnType} {value : InputValue} {datum : Datum}
    (passed : argument type value = some datum) : datum.asText = value.text := by
  cases type <;> cases value <;> simp only [argument, Option.some.injEq, reduceCtorEq] at passed <;>
    subst passed <;> rfl

theorem declare_spec {params : List DeclaredInput} {scope : Scope}
    (declared : declare params = some scope) :
    scope.map Prod.fst = params.map declaredName ∧ (params.map declaredName).Nodup ∧
      ∀ input ∈ params, ∃ datum, argument (sqlType input.type) input.value = some datum ∧
        scope.lookup (declaredName input) = some datum := by
  induction params generalizing scope with
  | nil =>
      cases declared
      simp
  | cons input rest ih =>
      simp only [declare, Option.bind_eq_bind, Option.bind_eq_some_iff] at declared
      obtain ⟨name, named, datum, passed, later, laterDeclared, declared⟩ := declared
      have folded : name = declaredName input := by
        rw [identifier] at named
        split at named <;> cases named
        rfl
      subst folded
      obtain ⟨names, distinct, bound⟩ := ih laterDeclared
      rw [names] at declared
      split at declared
      · cases declared
      · rename_i fresh
        cases declared
        refine ⟨by simp [names], by simpa using ⟨by simpa using fresh, distinct⟩, ?_⟩
        rw [List.forall_mem_cons]
        refine ⟨⟨datum, passed, by simp⟩, fun other listed => ?_⟩
        obtain ⟨held, otherPassed, found⟩ := bound other listed
        refine ⟨held, otherPassed, ?_⟩
        have differ : declaredName other ≠ declaredName input := fun same =>
          fresh (same ▸ List.mem_map_of_mem listed)
        rw [List.lookup_cons, beq_eq_false_iff_ne.mpr differ]
        exact found

theorem declare_total {params : List DeclaredInput} (distinct : (params.map declaredName).Nodup)
    (fit : ∀ input ∈ params, identifier (paramName input.name) = some (declaredName input) ∧
      ∃ datum, argument (sqlType input.type) input.value = some datum) :
    ∃ scope, declare params = some scope := by
  induction params with
  | nil => exact ⟨[], rfl⟩
  | cons input rest ih =>
      simp only [List.forall_mem_cons] at fit
      obtain ⟨⟨named, datum, passed⟩, later⟩ := fit
      simp only [List.map_cons, List.nodup_cons] at distinct
      obtain ⟨scope, declared⟩ := ih distinct.2 later
      refine ⟨(declaredName input, datum) :: scope, ?_⟩
      simp only [declare, named, passed, declared, Option.bind_eq_bind, Option.bind_some,
        (declare_spec declared).1, if_neg distinct.1, Option.pure_def]

end Sql

/-! The Solidity contract. -/

namespace Solidity

theorem readLiteral_escaped {c : Char} (special : c = '\\' ∨ c = '"') (rest : List Char) :
    readLiteral ('\\' :: c :: rest) = (readLiteral rest).map (c :: ·) := by
  have itself : escaped c = some c := by
    rw [escaped, if_pos (special.elim .inl fun quote => .inr (.inl quote))]
  simp only [readLiteral, itself, Option.bind_eq_bind, Option.bind_some]
  cases readLiteral rest <;> rfl

theorem readLiteral_plain {c : Char} (quote : c ≠ '"') (slash : c ≠ '\\') (rest : List Char) :
    readLiteral (c :: rest) =
      if isPrintable c = true then (readLiteral rest).map (c :: ·) else none := by
  rw [readLiteral]
  · simp [quote, slash]
  · rintro rfl
    exact absurd rfl quote
  · rintro _ _ rfl
    exact absurd rfl slash

theorem readLiteral_solEscape {chars : List Char} :
    readLiteral (chars.flatMap solEscape ++ ['"']) =
      if ∀ c ∈ chars, isPrintable c = true then some chars else none := by
  induction chars with
  | nil => simp [readLiteral]
  | cons c rest ih =>
      have first : readLiteral ((c :: rest).flatMap solEscape ++ ['"']) =
          if isPrintable c = true then
            (readLiteral (rest.flatMap solEscape ++ ['"'])).map (c :: ·) else none := by
        rw [List.flatMap_cons, List.append_assoc]
        by_cases slash : c = '\\'
        · subst slash
          exact readLiteral_escaped (.inl rfl) _
        by_cases quote : c = '"'
        · subst quote
          exact readLiteral_escaped (.inr rfl) _
        · rw [solEscape, if_neg slash, if_neg quote]
          exact readLiteral_plain quote slash _
      rw [first, ih]
      by_cases printed : isPrintable c = true <;> simp [printed]

theorem literal_solString {text : String} :
    literal (solString text) =
      if ∀ c ∈ text.toList, isPrintable c = true then some (utf8 text) else none := by
  simp only [literal, solString, String.toList_ofList, readLiteral_solEscape]
  split <;> simp

theorem utf8_append (first second : String) : utf8 (first ++ second) = utf8 first ++ utf8 second := by
  simp [utf8]

theorem u2sDigits_eq {value : Nat} (positive : value ≠ 0) (digits : List UInt8) :
    u2sDigits value digits = utf8 (String.ofList (Nat.toDigits 10 value)) ++ digits := by
  have one : ∀ digit < 10, utf8 (String.ofList [Nat.digitChar digit]) = [UInt8.ofNat (48 + digit)] := by
    decide
  induction value using Nat.strongRecOn generalizing digits with
  | ind value ih =>
      rw [u2sDigits, if_neg positive]
      by_cases small : value < 10
      · rw [Nat.toDigits_of_lt_base small, one value small, Nat.div_eq_of_lt small,
          Nat.mod_eq_of_lt small, u2sDigits]
        rfl
      · have split := Nat.toDigits_of_base_le (n := value) (show 1 < 10 by decide) (by omega)
        rw [ih (value / 10) (by omega) (by omega), split, String.ofList_append, utf8_append,
          one _ (Nat.mod_lt _ (by decide)), List.append_assoc]
        rfl

theorem u2s_eq (value : Nat) : u2s value = utf8 (toString value) := by
  rw [u2s]
  split
  · subst value
    decide
  · rename_i positive
    rw [u2sDigits_eq positive, List.append_nil, Nat.toString_eq_ofList_toDigits]

theorem claimLoop_eq {α : Type} (name category value : α → String) (inputs : List α)
    (p : List UInt8) :
    claimLoop (inputs.map fun input => utf8 (name input))
        (inputs.map fun input => utf8 (category input))
        (inputs.map fun input => utf8 (value input)) p =
      p ++ framed (inputs.flatMap fun input => [name input, category input, value input]) := by
  induction inputs generalizing p with
  | nil => simp [claimLoop, framed, frames]
  | cons input rest ih =>
      simp only [List.map_cons, claimLoop, ih]
      simp [framed, frames]

theorem isSolidityIdentifier_uref {name : String} :
    isSolidityIdentifier (uref name) = true ↔ ∀ c ∈ name.toList, isNamePart c = true := by
  simp [isSolidityIdentifier, uref, isNamePart]

theorem declare_spec {params : List DeclaredInput} {locals : Locals}
    (distinct : (params.map DeclaredInput.name).Nodup) (declared : declare params = some locals) :
    ∀ input ∈ params, (∀ c ∈ input.name.toList, isNamePart c = true) ∧
      ∃ value, argument (solType input.type) input.value = some value ∧
        locals.lookup (uref input.name) = some value := by
  induction params generalizing locals with
  | nil => simp
  | cons input rest ih =>
      simp only [declare, Option.bind_eq_bind, Option.bind_eq_some_iff] at declared
      obtain ⟨value, passed, later, laterDeclared, declared⟩ := declared
      simp only [List.map_cons, List.nodup_cons] at distinct
      split at declared
      · rename_i named
        cases declared
        rw [List.forall_mem_cons]
        refine ⟨⟨isSolidityIdentifier_uref.mp named, value, passed, by simp⟩,
          fun other listed => ?_⟩
        obtain ⟨otherNamed, held, otherPassed, found⟩ := ih distinct.2 laterDeclared other listed
        refine ⟨otherNamed, held, otherPassed, ?_⟩
        have differ : uref other.name ≠ uref input.name := fun same =>
          distinct.1 (List.mem_map.mpr ⟨other, listed, by simpa [uref] using same⟩)
        rw [List.lookup_cons, beq_eq_false_iff_ne.mpr differ]
        exact found
      · cases declared

theorem declare_total {params : List DeclaredInput}
    (fit : ∀ input ∈ params, (∀ c ∈ input.name.toList, isNamePart c = true) ∧
      ∃ value, argument (solType input.type) input.value = some value) :
    ∃ locals, declare params = some locals := by
  induction params with
  | nil => exact ⟨[], rfl⟩
  | cons input rest ih =>
      simp only [List.forall_mem_cons] at fit
      obtain ⟨⟨named, value, passed⟩, later⟩ := fit
      obtain ⟨locals, declared⟩ := ih later
      refine ⟨(uref input.name, value) :: locals, ?_⟩
      simp only [declare, passed, declared, Option.bind_eq_bind, Option.bind_some,
        isSolidityIdentifier_uref.mpr named, if_true, Option.pure_def]

theorem isNamePart_printable {c : Char} (part : isNamePart c = true) : isPrintable c = true := by
  simp only [isNamePart, Char.isAlphanum, Char.isAlpha, Char.isUpper, Char.isLower, Char.isDigit,
    Bool.or_eq_true, Bool.and_eq_true, decide_eq_true_eq, UInt32.le_iff_toNat_le, ge_iff_le] at part
  simp only [isPrintable, Bool.and_eq_true, decide_eq_true_eq]
  have value : c.val.toNat = c.toNat := rfl
  have bounds : 'A'.val.toNat = 65 ∧ 'Z'.val.toNat = 90 ∧ 'a'.val.toNat = 97 ∧
      'z'.val.toNat = 122 ∧ '0'.val.toNat = 48 ∧ '9'.val.toNat = 57 := by decide
  rcases part with (((⟨low, high⟩ | ⟨low, high⟩) | ⟨low, high⟩) | rfl) | rfl
  · exact ⟨by omega, by omega⟩
  · exact ⟨by omega, by omega⟩
  · exact ⟨by omega, by omega⟩
  · decide
  · decide

end Solidity

/-! Agreement. -/

theorem mapM_map_some {α β γ : Type} {read : β → Option γ} {written : α → β} {value : α → γ}
    {elements : List α} (reads : ∀ element ∈ elements, read (written element) = some (value element)) :
    (elements.map written).mapM read = some (elements.map value) := by
  induction elements with
  | nil => rfl
  | cons first rest ih =>
      simp only [List.forall_mem_cons] at reads
      simp [reads.1, ih reads.2]

/-- The claim of the reference, and the claims of both calls with it. -/
def ClaimsAgree (sha256 : List UInt8 → List UInt8) (coordinationIdentity : String)
    (key : DeclaredInput) (inputs : List DeclaredInput) : Prop :=
  ∃ digest, executionClaimHash (fun bytes => HexText.hexText (sha256 bytes)) coordinationIdentity
      key.value.text (inputs.map executionInput) = HexText.hexText digest ∧
    Sql.procedureClaim sha256 coordinationIdentity key inputs = some (HexText.hexText digest) ∧
    Solidity.contractClaim sha256 coordinationIdentity key inputs = some digest

/-- What both generators rely on: constants that can be written, names that are read back, apart
from one another, a key that is text on both rails and a number for every explicit time. -/
structure Writable (coordinationIdentity : String) (key : DeclaredInput)
    (inputs : List DeclaredInput) : Prop where
  identity : ∀ c ∈ coordinationIdentity.toList, Solidity.isPrintable c = true
  names : ∀ input ∈ callParams key inputs, ∀ c ∈ input.name.toList, Solidity.isNamePart c = true
  apart : ((callParams key inputs).map Sql.declaredName).Nodup
  keyType : Solidity.solType key.type = .string
  times : ∀ input ∈ callParams key inputs, isTemporalType input.type = true →
    ∃ value, input.value = .number value

section Agreement

variable {sha256 : List UInt8 → List UInt8} {coordinationIdentity : String} {key : DeclaredInput}
  {inputs : List DeclaredInput}

theorem mem_callParams : key ∈ callParams key inputs := by
  rw [callParams]
  split <;> simp [*]

theorem callParams_of_mem {input : DeclaredInput} (listed : input ∈ inputs) :
    input ∈ callParams key inputs := by
  rw [callParams]
  split <;> simp [listed]

theorem callParams_cases {input : DeclaredInput} (listed : input ∈ callParams key inputs) :
    input ∈ key :: inputs := by
  rw [callParams] at listed
  split at listed
  · exact List.mem_cons_of_mem _ listed
  · exact listed

theorem callParams_distinct (distinct : (inputs.map DeclaredInput.name).Nodup)
    (declared : key ∈ inputs ∨ key.name ∉ inputs.map DeclaredInput.name) :
    ((callParams key inputs).map DeclaredInput.name).Nodup := by
  rw [callParams]
  split
  · exact distinct
  · rename_i outside
    simpa using ⟨by simpa using declared.resolve_left outside, distinct⟩

/-- The reference's order of distinct names is that of the generators. -/
theorem claimFields_sorted (distinct : (inputs.map DeclaredInput.name).Nodup)
    (coordinationIdentity workflowKey : String) :
    claimFields coordinationIdentity workflowKey (inputs.map executionInput) =
      [kCoordinationEnvelopeDomain, coordinationIdentity, workflowKey,
        toString inputs.length] ++ (sortOn DeclaredInput.name inputs).flatMap fun input =>
          [input.name, categoryName (classifyValueType input.type), input.value.text] := by
  have sorted : (sortOn DeclaredInput.name inputs).map executionInput =
      (inputs.map executionInput).insertionSort fun a b => inputPrecedes a b := by
    apply List.map_insertionSort
    intro a left b right
    by_cases same : a.name = b.name
    · obtain rfl := List.inj_on_of_nodup_map distinct left right same
      simp [inputPrecedes]
    · simp [inputPrecedes, executionInput, same, le_iff_lt_or_eq]
  have length : (sortOn DeclaredInput.name inputs).length = inputs.length :=
    (sortOn_perm _ _).length_eq
  simp only [claimFields, ← sorted, List.length_map, length, List.flatMap_map]
  rfl

theorem sqlType_bigint {type : String} :
    Sql.sqlType type = .bigint ↔ isNumericCategory (classifyValueType type) = true := by
  rw [Sql.sqlType]
  cases classifyValueType type <;> decide

theorem solType_uint256 {type : String} : Solidity.solType type = .uint256 ↔
    isTemporalType type = true ∨ isNumericCategory (classifyValueType type) = true := by
  rw [Solidity.solType]
  cases isTemporalType type <;> cases classifyValueType type <;> decide

/-- A string on the Solidity rail is text on the PostgreSQL rail. -/
theorem sqlType_of_string {type : String} (string : Solidity.solType type = .string) :
    Sql.sqlType type = .text := by
  cases column : Sql.sqlType type with
  | text => rfl
  | bigint =>
      rw [solType_uint256.mpr (.inr (sqlType_bigint.mp column))] at string
      cases string

theorem DeclaredInput.Typed.numeric {input : DeclaredInput} (typed : input.Typed)
    (numeric : isNumericCategory (classifyValueType input.type) = true) :
    ∃ value, input.value = .number value := by
  cases held : input.value with
  | number value => exact ⟨value, rfl⟩
  | token text =>
      simp only [DeclaredInput.Typed, held] at typed
      exact absurd numeric typed

theorem DeclaredInput.Typed.procedure {input : DeclaredInput} (typed : input.Typed) :
    ∃ datum, Sql.argument (Sql.sqlType input.type) input.value = some datum := by
  cases column : Sql.sqlType input.type with
  | text => exact ⟨_, rfl⟩
  | bigint =>
      obtain ⟨value, held⟩ := typed.numeric (sqlType_bigint.mp column)
      exact ⟨.bigint value, by rw [held]; rfl⟩

theorem DeclaredInput.Typed.contract {input : DeclaredInput} (typed : input.Typed)
    (time : isTemporalType input.type = true → ∃ value, input.value = .number value) :
    ∃ argument, Solidity.argument (Solidity.solType input.type) input.value = some argument := by
  cases type : Solidity.solType input.type with
  | string => exact ⟨_, rfl⟩
  | uint256 =>
      obtain ⟨value, held⟩ := (solType_uint256.mp type).elim time typed.numeric
      refine ⟨.uint256 value, ?_⟩
      simp only [DeclaredInput.Typed, held] at typed
      have small : value < 2 ^ 256 := typed.2.trans (by decide)
      rw [held, Solidity.argument, Solidity.fits256, if_pos small]
      rfl

/-- A call of the contract runs only with values the generator can write. -/
theorem contract_writable (distinct : (inputs.map DeclaredInput.name).Nodup)
    (declared : key ∈ inputs ∨ key.name ∉ inputs.map DeclaredInput.name)
    {claim : String} (procedure : Sql.procedureClaim sha256 coordinationIdentity key inputs =
      some claim) {digest : List UInt8}
    (contract : Solidity.contractClaim sha256 coordinationIdentity key inputs = some digest) :
    Writable coordinationIdentity key inputs := by
  simp only [Sql.procedureClaim, Option.bind_eq_bind, Option.bind_eq_some_iff] at procedure
  obtain ⟨scope, scopeDeclared, _⟩ := procedure
  simp only [Solidity.contractClaim, Option.bind_eq_bind, Option.bind_eq_some_iff] at contract
  obtain ⟨locals, localsDeclared, _, _, _, _, _, _, identity, identityRead, keyBytes, keyRead, _⟩ :=
    contract
  have bound := Solidity.declare_spec (callParams_distinct distinct declared) localsDeclared
  refine ⟨?_, fun input listed => (bound input listed).1, (Sql.declare_spec scopeDeclared).2.1, ?_,
    fun input listed time => ?_⟩
  · rw [Solidity.stringTerm, Solidity.literal_solString] at identityRead
    split at identityRead
    · assumption
    · cases identityRead
  · obtain ⟨_, argument, passed, found⟩ := bound key mem_callParams
    cases type : Solidity.solType key.type with
    | string => rfl
    | uint256 =>
        rw [type] at passed
        rw [Solidity.stringTerm, Solidity.stringOf, found] at keyRead
        cases held : key.value with
        | number value =>
            rw [held, Solidity.argument, Option.map_eq_some_iff] at passed
            obtain ⟨word, _, rfl⟩ := passed
            cases keyRead
        | token text =>
            rw [held] at passed
            cases passed
  · obtain ⟨_, argument, passed, _⟩ := bound input listed
    rw [solType_uint256.mpr (.inl time)] at passed
    cases held : input.value with
    | number value => exact ⟨value, rfl⟩
    | token text =>
        rw [held] at passed
        cases passed

theorem sorted_claimInputs (inputs : List DeclaredInput) :
    sortOn Projection.ExecutionClaimInput.name (inputs.map claimInputOf) =
      (sortOn DeclaredInput.name inputs).map claimInputOf := by
  symm
  apply List.map_insertionSort
  exact fun _ _ _ _ => Iff.rfl

theorem identifier_paramName {name : String}
    (named : ∀ c ∈ name.toList, Solidity.isNamePart c = true) :
    Sql.identifier (Sql.paramName name) = some (Sql.foldName (Sql.paramName name)) := by
  rw [Sql.identifier, if_pos]
  have parts : ∀ c ∈ name.toList, Sql.isNamePart c = true := fun c listed => by
    have part := named c listed
    simp only [Solidity.isNamePart] at part
    simp [Sql.isNamePart, part]
  simpa [Sql.paramName, Sql.isNamePart] using parts

theorem printable_text {c : Char} (printed : Solidity.isPrintable c = true) : c ≠ '\x00' := by
  rintro rfl
  exact absurd printed (by decide)

theorem categoryName_printable (category : ValueCategory) :
    ∀ c ∈ (categoryName category).toList, Solidity.isPrintable c = true := by
  cases category <;> simp [categoryName, Solidity.isPrintable]

/-- What the procedure reads for the terms of one declared input. -/
theorem textElement_claimTerm {scope : Sql.Scope} {input : DeclaredInput} {datum : Sql.Datum}
    (named : ∀ c ∈ input.name.toList, Solidity.isNamePart c = true)
    (passed : Sql.argument (Sql.sqlType input.type) input.value = some datum)
    (found : scope.lookup (Sql.declaredName input) = some datum) :
    Sql.textElement scope (Sql.claimTerm (claimInputOf input)) = some input.value.text := by
  have resolved : Sql.resolve scope (Sql.paramName input.name) = some datum := by
    rw [Sql.resolve, identifier_paramName named]
    exact found
  rw [Sql.claimTerm]
  split <;> simp [Sql.textElement, claimInputOf, resolved, Sql.argument_asText passed]

theorem procedureClaim_eq (writable : Writable coordinationIdentity key inputs)
    (distinct : (inputs.map DeclaredInput.name).Nodup)
    (typed : ∀ input ∈ key :: inputs, input.Typed)
    (fits : ∀ field ∈ claimFields coordinationIdentity key.value.text (inputs.map executionInput),
      Framable (utf8 field)) :
    Sql.procedureClaim sha256 coordinationIdentity key inputs =
      some (executionClaimHash (fun bytes => HexText.hexText (sha256 bytes)) coordinationIdentity
        key.value.text (inputs.map executionInput)) := by
  obtain ⟨scope, declared⟩ := Sql.declare_total writable.apart fun input listed =>
    ⟨identifier_paramName (writable.names input listed),
      (typed input (callParams_cases listed)).procedure⟩
  obtain ⟨_, _, bound⟩ := Sql.declare_spec declared
  have listed : ∀ input ∈ sortOn DeclaredInput.name inputs, input ∈ callParams key inputs :=
    fun input sorted => callParams_of_mem (mem_sortOn.mp sorted)
  have arrays : Sql.buildClaimArrays coordinationIdentity (inputs.map claimInputOf)
      ((callParams key inputs).map DeclaredInput.name) = some {
        identity := coordinationIdentity
        names := (sortOn DeclaredInput.name inputs).map fun input =>
          .constant (Sql.sqlQuote input.name)
        cats := (sortOn DeclaredInput.name inputs).map fun input =>
          .constant (Sql.sqlQuote (categoryName (classifyValueType input.type)))
        vals := (sortOn DeclaredInput.name inputs).map fun input =>
          Sql.claimTerm (claimInputOf input) } := by
    rw [Sql.buildClaimArrays, sorted_claimInputs, if_pos]
    · simp only [List.map_map]
      rfl
    · rw [List.forall_mem_map]
      exact fun input sorted => List.mem_map_of_mem (listed input sorted)
  have names : ((sortOn DeclaredInput.name inputs).map fun input =>
      Sql.Term.constant (Sql.sqlQuote input.name)).mapM (Sql.textElement scope) =
        some ((sortOn DeclaredInput.name inputs).map DeclaredInput.name) :=
    mapM_map_some fun input sorted => Sql.constant_sqlQuote fun c char =>
      printable_text (Solidity.isNamePart_printable
        (writable.names input (listed input sorted) c char))
  have cats : ((sortOn DeclaredInput.name inputs).map fun input => Sql.Term.constant
      (Sql.sqlQuote (categoryName (classifyValueType input.type)))).mapM (Sql.textElement scope) =
        some ((sortOn DeclaredInput.name inputs).map fun input =>
          categoryName (classifyValueType input.type)) :=
    mapM_map_some fun input _ => Sql.constant_sqlQuote fun c char =>
      printable_text (categoryName_printable _ c char)
  have vals : ((sortOn DeclaredInput.name inputs).map fun input =>
      Sql.claimTerm (claimInputOf input)).mapM (Sql.textElement scope) =
        some ((sortOn DeclaredInput.name inputs).map fun input => input.value.text) :=
    mapM_map_some fun input sorted => by
      obtain ⟨datum, passed, found⟩ := bound input (listed input sorted)
      exact textElement_claimTerm (writable.names input (listed input sorted)) passed found
  have identity : Sql.textArgument scope (.constant (Sql.sqlQuote coordinationIdentity)) =
      some coordinationIdentity :=
    Sql.constant_sqlQuote fun c char => printable_text (writable.identity c char)
  have keyText : Sql.textArgument scope (.param (Sql.paramName key.name)) =
      some key.value.text := by
    obtain ⟨datum, passed, found⟩ := bound key mem_callParams
    rw [sqlType_of_string writable.keyType] at passed
    cases passed
    rw [Sql.textArgument, Sql.resolve, identifier_paramName (writable.names key mem_callParams)]
    simp only [Option.bind_eq_bind, Option.bind_some]
    rw [show Sql.foldName (Sql.paramName key.name) = Sql.declaredName key from rfl, found]
  rw [claimFields_sorted distinct] at fits
  simp only [List.cons_append, List.nil_append, List.forall_mem_cons, List.mem_flatMap,
    forall_exists_index, and_imp] at fits
  obtain ⟨domainFits, identityFits, keyFits, countFits, fieldsFit⟩ := fits
  have domain := Sql.neuFrame_eq domainFits
  rw [kCoordinationEnvelopeDomain] at domain
  have fieldsFit : ∀ input ∈ sortOn DeclaredInput.name inputs, Framable (utf8 input.name) ∧
      Framable (utf8 (categoryName (classifyValueType input.type))) ∧
        Framable (utf8 input.value.text) := fun input sorted =>
    ⟨fieldsFit _ input sorted (by simp), fieldsFit _ input sorted (by simp),
      fieldsFit _ input sorted (by simp)⟩
  have loop := Sql.claimLoop_eq DeclaredInput.name
    (fun input => categoryName (classifyValueType input.type)) (fun input => input.value.text)
    fieldsFit
  have length : (sortOn DeclaredInput.name inputs).length = inputs.length :=
    (sortOn_perm _ _).length_eq
  simp only [Sql.procedureClaim, declared, arrays, identity, keyText, names, cats, vals,
    Option.bind_eq_bind, Option.bind_some, Sql.neuExecutionClaim, List.length_map, length,
    domain, Sql.neuFrame_eq identityFits, Sql.neuFrame_eq keyFits,
    Sql.neuFrame_eq countFits, loop]
  rw [executionClaimHash, claimFields_sorted distinct]
  simp [framed, frames, kCoordinationEnvelopeDomain]

theorem stringTerm_claimTerm {locals : Solidity.Locals} {input : DeclaredInput}
    {argument : Solidity.Argument}
    (passed : Solidity.argument (Solidity.solType input.type) input.value = some argument)
    (found : locals.lookup (uref input.name) = some argument)
    (finalized : Projection.FinalizedExecutionClaimInput) (name : finalized.name = input.name)
    (type : finalized.type = input.type) :
    Solidity.stringTerm locals (Solidity.claimTerm finalized) = some (utf8 input.value.text) := by
  rw [Solidity.claimTerm, type, name]
  cases shape : Solidity.solType input.type with
  | string =>
      rw [shape] at passed
      cases passed
      simp only [Solidity.stringTerm, Solidity.stringOf, found]
  | uint256 =>
      rw [shape] at passed
      cases held : input.value with
      | token text =>
          rw [held] at passed
          cases passed
      | number value =>
          rw [held, Solidity.argument, Solidity.fits256] at passed
          split at passed
          · cases passed
            simp only [Solidity.stringTerm, Solidity.uintOf, found, Option.map_some,
              Solidity.u2s_eq, InputValue.text]
          · cases passed

/-- The finalized inputs are the declared ones in the order of their names. -/
theorem finalizedClaimInputs_map {α : Type} (inputs : List DeclaredInput)
    (read : Projection.FinalizedExecutionClaimInput → Option α) (value : DeclaredInput → α)
    (reads : ∀ input ∈ inputs, ∀ ordinal, read {
      name := input.name
      type := input.type
      category := categoryName (classifyValueType input.type)
      ordinal } = some (value input)) :
    (Projection.finalizedClaimInputs (inputs.map claimInputOf)).mapM read =
      some ((sortOn DeclaredInput.name inputs).map value) := by
  have listed : ∀ entry ∈ (sortOn DeclaredInput.name inputs).zipIdx, entry.1 ∈ inputs :=
    fun entry inside => mem_sortOn.mp (List.fst_mem_of_mem_zipIdx inside)
  have finalized : Projection.finalizedClaimInputs (inputs.map claimInputOf) =
      (sortOn DeclaredInput.name inputs).zipIdx.map fun entry => {
        name := entry.1.name
        type := entry.1.type
        category := categoryName (classifyValueType entry.1.type)
        ordinal := entry.2 } := by
    rw [Projection.finalizedClaimInputs, sorted_claimInputs, List.zipIdx_map, List.map_map]
    rfl
  have values : (sortOn DeclaredInput.name inputs).zipIdx.map (fun entry => value entry.1) =
      (sortOn DeclaredInput.name inputs).map value := by
    rw [show (fun entry : DeclaredInput × Nat => value entry.1) = value ∘ Prod.fst from rfl,
      ← List.map_map, List.zipIdx_map_fst]
  rw [finalized, ← values]
  exact mapM_map_some fun entry inside => reads entry.1 (listed entry inside) entry.2

theorem contractClaim_eq (writable : Writable coordinationIdentity key inputs)
    (distinct : (inputs.map DeclaredInput.name).Nodup)
    (declared : key ∈ inputs ∨ key.name ∉ inputs.map DeclaredInput.name)
    (typed : ∀ input ∈ key :: inputs, input.Typed) :
    Solidity.contractClaim sha256 coordinationIdentity key inputs =
      some (sha256 (framed (claimFields coordinationIdentity key.value.text
        (inputs.map executionInput)))) := by
  obtain ⟨locals, localsDeclared⟩ := Solidity.declare_total fun input listed =>
    ⟨writable.names input listed,
      (typed input (callParams_cases listed)).contract (writable.times input listed)⟩
  have bound := Solidity.declare_spec (callParams_distinct distinct declared) localsDeclared
  have literal : ∀ text : String, (∀ c ∈ text.toList, Solidity.isPrintable c = true) →
      Solidity.stringTerm locals (.literal (Solidity.solString text)) = some (utf8 text) :=
    fun text printed => by
      rw [Solidity.stringTerm, Solidity.literal_solString, if_pos printed]
  have names := finalizedClaimInputs_map inputs
    (fun input => Solidity.stringTerm locals (.literal (Solidity.solString input.name)))
    (fun input => utf8 input.name) fun input listed _ => literal input.name fun c char =>
      Solidity.isNamePart_printable (writable.names input (callParams_of_mem listed) c char)
  have categories := finalizedClaimInputs_map inputs
    (fun input => Solidity.stringTerm locals (.literal (Solidity.solString input.category)))
    (fun input => utf8 (categoryName (classifyValueType input.type))) fun input _ _ =>
      literal _ (categoryName_printable _)
  have values := finalizedClaimInputs_map inputs
    (fun input => Solidity.stringTerm locals (Solidity.claimTerm input))
    (fun input => utf8 input.value.text) fun input listed _ => by
      obtain ⟨_, argument, passed, found⟩ := bound input (callParams_of_mem listed)
      exact stringTerm_claimTerm passed found _ rfl rfl
  have keyText : Solidity.stringTerm locals (.param (uref key.name)) =
      some (utf8 key.value.text) := by
    obtain ⟨_, argument, passed, found⟩ := bound key mem_callParams
    rw [writable.keyType] at passed
    cases passed
    simp only [Solidity.stringTerm, Solidity.stringOf, found]
  have loop := Solidity.claimLoop_eq DeclaredInput.name
    (fun input => categoryName (classifyValueType input.type)) (fun input => input.value.text)
    (sortOn DeclaredInput.name inputs)
  have length : (sortOn DeclaredInput.name inputs).length = inputs.length :=
    (sortOn_perm _ _).length_eq
  simp only [Solidity.contractClaim, localsDeclared, names, categories, values, keyText,
    literal _ writable.identity, Option.bind_eq_bind, Option.bind_some, Solidity.envelopeClaim,
    List.length_map, and_self, if_true, loop, length, Solidity.u2s_eq]
  rw [claimFields_sorted distinct]
  simp [framed, frames, kCoordinationEnvelopeDomain]

/-- The three claims of a call are one, and both generated calls are well typed, exactly when the
generators can write what the call needs. -/
theorem claims_agree (sha256 : List UInt8 → List UInt8) {coordinationIdentity : String}
    {key : DeclaredInput} {inputs : List DeclaredInput}
    (distinct : (inputs.map DeclaredInput.name).Nodup)
    (declared : key ∈ inputs ∨ key.name ∉ inputs.map DeclaredInput.name)
    (typed : ∀ input ∈ key :: inputs, input.Typed)
    (fits : ∀ field ∈ claimFields coordinationIdentity key.value.text (inputs.map executionInput),
      Framable (utf8 field)) :
    ClaimsAgree sha256 coordinationIdentity key inputs ↔
      Writable coordinationIdentity key inputs := by
  constructor
  · rintro ⟨digest, _, procedure, contract⟩
    exact contract_writable distinct declared procedure contract
  · intro writable
    exact ⟨_, rfl, procedureClaim_eq writable distinct typed fits,
      contractClaim_eq writable distinct declared typed⟩

end Agreement

def orderKey : DeclaredInput := ⟨"order", "string", .token "t-1"⟩

def orderInputs : List DeclaredInput :=
  [orderKey, ⟨"amount", "money", .number 250⟩, ⟨"deadline", "timestamp", .number 1700000000⟩]

theorem orderInputs_writable : Writable "identity" orderKey orderInputs where
  identity := by simp [Solidity.isPrintable]
  names := by simp [callParams, orderKey, orderInputs, Solidity.isNamePart]
  apart := by decide +kernel
  keyType := by decide
  times := by simp [callParams, orderKey, orderInputs, isTemporalType]

theorem orderClaims_agree : ClaimsAgree (fun bytes => bytes) "identity" orderKey orderInputs :=
  (claims_agree (fun bytes => bytes) (by decide) (.inl (by decide)) (by decide)
    (show ∀ field ∈ _, (utf8 field).length < 2 ^ 64 by decide +kernel)).mpr orderInputs_writable

def numberedKey : DeclaredInput := ⟨"order", "number", .number 7⟩

/-- A numeric workflow key types neither call. -/
theorem numbered_claims_disagree : ¬∀ (sha256 : List UInt8 → List UInt8)
    (coordinationIdentity : String) (key : DeclaredInput) (inputs : List DeclaredInput),
    (inputs.map DeclaredInput.name).Nodup →
    (key ∈ inputs ∨ key.name ∉ inputs.map DeclaredInput.name) →
    (∀ input ∈ key :: inputs, input.Typed) →
    (∀ field ∈ claimFields coordinationIdentity key.value.text (inputs.map executionInput),
      Framable (utf8 field)) →
    ClaimsAgree sha256 coordinationIdentity key inputs := by
  intro agree
  obtain ⟨digest, _, procedure, _⟩ := agree (fun bytes => bytes) "identity" numberedKey [numberedKey]
    (by decide) (.inl (by decide)) (by decide)
    (show ∀ field ∈ _, (utf8 field).length < 2 ^ 64 by decide +kernel)
  have raised : Sql.procedureClaim (fun bytes => bytes) "identity" numberedKey [numberedKey] = none := by
    decide +kernel
  rw [raised] at procedure
  cases procedure

end Neutrino
