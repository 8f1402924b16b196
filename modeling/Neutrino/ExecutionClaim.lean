import Mathlib
import Neutrino.ClaimPreimage

/-! The execution claim over strings of arbitrary bytes: with an injective hash it names the
coordination, the workflow key and the inputs as a multiset, and nothing else. -/

namespace Neutrino

open Framing

/-- A string of the source: any bytes, as many as its size can count. -/
structure ByteString where
  bytes : List UInt8
  sized : Framable bytes

/-- The input array of a call, whose length its size can count as well. -/
structure InputArray (α : Type) where
  elements : List α
  sized : elements.length < 2 ^ 64

theorem utf8_ofList (chars : List Char) :
    utf8 (String.ofList chars) = chars.flatMap String.utf8EncodeChar := by
  simp [utf8, List.utf8Encode]

structure ExecutionBytes where
  name : ByteString
  category : ByteString
  value : ByteString

@[ext] theorem ByteString.ext {left right : ByteString} (same : left.bytes = right.bytes) :
    left = right := by
  cases left
  cases right
  simpa using same

/-- Bytes as the numbers they are compared by. -/
def ordered (bytes : List UInt8) : List Nat := bytes.map UInt8.toNat

theorem ordered_injective : Function.Injective ordered :=
  List.map_injective_iff.mpr fun _ _ => UInt8.toNat_inj.mp

namespace ExecutionBytes

@[ext] theorem ext {left right : ExecutionBytes} (name : left.name = right.name)
    (category : left.category = right.category) (value : left.value = right.value) :
    left = right := by
  cases left
  cases right
  simp_all

/-- What a tie of the three strings compares: unsigned bytes, the first string first. -/
def key (input : ExecutionBytes) : List Nat ×ₗ List Nat ×ₗ List Nat :=
  toLex (ordered input.name.bytes,
    toLex (ordered input.category.bytes, ordered input.value.bytes))

def fields (input : ExecutionBytes) : List (List UInt8) :=
  [input.name.bytes, input.category.bytes, input.value.bytes]

theorem key_injective : Function.Injective key := by
  intro left right same
  simp only [key, EmbeddingLike.apply_eq_iff_eq, Prod.mk.injEq, ordered_injective.eq_iff] at same
  exact ext (ByteString.ext same.1) (ByteString.ext same.2.1) (ByteString.ext same.2.2)

theorem fields_injective {left right : List ExecutionBytes}
    (same : left.flatMap fields = right.flatMap fields) : left = right := by
  refine rows_injective 3 (by decide) (fun _ => rfl) ?_ same
  intro input head alike
  simp only [fields, List.cons.injEq, and_true] at alike
  exact ext (ByteString.ext alike.1) (ByteString.ext alike.2.1) (ByteString.ext alike.2.2)

end ExecutionBytes

namespace ClaimOfBytes

def sorted (canonicalInputs : List ExecutionBytes) : List ExecutionBytes :=
  canonicalInputs.insertionSort fun a b => a.key ≤ b.key

def claimFields (coordinationIdentity workflowKey : ByteString)
    (canonicalInputs : List ExecutionBytes) : List (List UInt8) :=
  let sorted := sorted canonicalInputs
  [utf8 kCoordinationEnvelopeDomain, coordinationIdentity.bytes, workflowKey.bytes,
    utf8 (toString sorted.length)] ++ sorted.flatMap ExecutionBytes.fields

def executionClaimHash (sha256Hex : List UInt8 → String)
    (coordinationIdentity workflowKey : ByteString)
    (canonicalInputs : InputArray ExecutionBytes) : String :=
  sha256Hex (frames (claimFields coordinationIdentity workflowKey canonicalInputs.elements))

theorem sorted_perm (inputs : List ExecutionBytes) : (sorted inputs).Perm inputs :=
  List.perm_insertionSort _ inputs

/-- Sorting forgets the order and nothing else. -/
theorem sorted_eq_iff {left right : List ExecutionBytes} :
    sorted left = sorted right ↔ left.Perm right := by
  constructor
  · intro same
    have moved := sorted_perm left
    rw [same] at moved
    exact moved.symm.trans (sorted_perm right)
  · intro moved
    have ordered : ∀ inputs, (sorted inputs).Pairwise fun a b => a.key ≤ b.key := by
      intro inputs
      have total : Std.Total fun a b : ExecutionBytes => a.key ≤ b.key :=
        ⟨fun a b => le_total a.key b.key⟩
      have transitive : IsTrans ExecutionBytes fun a b => a.key ≤ b.key :=
        ⟨fun _ _ _ => le_trans⟩
      exact List.pairwise_insertionSort _ inputs
    have together := ((sorted_perm left).trans moved).trans (sorted_perm right).symm
    exact together.eq_of_pairwise
      (fun a b _ _ below above => ExecutionBytes.key_injective (le_antisymm below above))
      (ordered left) (ordered right)

/-- The decimal digits of an array's length fit a frame. -/
theorem digits_framable {length : Nat} (sized : length < 2 ^ 64) :
    Framable (utf8 (toString length)) := by
  have digits : (Nat.toDigits 10 length).length ≤ 20 :=
    (Nat.length_toDigits_le_iff (by decide) (by decide)).mpr (by omega)
  have bytes : ∀ chars : List Char,
      (chars.flatMap String.utf8EncodeChar).length ≤ 4 * chars.length := by
    intro chars
    induction chars with
    | nil => simp
    | cons c rest ih =>
        have := c.utf8Size_le_four
        simp only [List.flatMap_cons, List.length_append, String.length_utf8EncodeChar,
          List.length_cons]
        omega
  have short := bytes (Nat.toDigits 10 length)
  rw [Framable, Nat.toString_eq_ofList_toDigits, utf8_ofList]
  omega

theorem claimFields_framable (coordinationIdentity workflowKey : ByteString)
    (inputs : InputArray ExecutionBytes) :
    ∀ field ∈ claimFields coordinationIdentity workflowKey inputs.elements, Framable field := by
  have count : Framable (utf8 (toString (sorted inputs.elements).length)) :=
    digits_framable ((sorted_perm inputs.elements).length_eq ▸ inputs.sized)
  have domain : Framable (utf8 kCoordinationEnvelopeDomain) := by
    unfold Framable
    decide
  intro field listed
  simp only [claimFields, List.mem_append, List.mem_cons, List.mem_flatMap,
    ExecutionBytes.fields] at listed
  rcases listed with (rfl | rfl | rfl | rfl | none) | ⟨input, _, rfl | rfl | rfl | none⟩
  · exact domain
  · exact coordinationIdentity.sized
  · exact workflowKey.sized
  · exact count
  · cases none
  · exact input.name.sized
  · exact input.category.sized
  · exact input.value.sized
  · cases none

/-- Two claims agree exactly on one coordination, one workflow key and the same inputs in any
order. -/
theorem executionClaimHash_exact (sha256Hex : List UInt8 → String)
    (injective : Function.Injective sha256Hex) (C C' K K' : ByteString)
    (xs ys : InputArray ExecutionBytes) :
    executionClaimHash sha256Hex C K xs = executionClaimHash sha256Hex C' K' ys ↔
      C = C' ∧ K = K' ∧ xs.elements.Perm ys.elements := by
  rw [executionClaimHash, executionClaimHash, injective.eq_iff]
  constructor
  · intro same
    have fields := frames_injective (claimFields_framable C K xs) (claimFields_framable C' K' ys)
      same
    simp only [claimFields, List.cons_append, List.nil_append, List.cons.injEq,
      true_and] at fields
    obtain ⟨identity, key, _, inputs⟩ := fields
    exact ⟨ByteString.ext identity, ByteString.ext key,
      sorted_eq_iff.mp (ExecutionBytes.fields_injective inputs)⟩
  · rintro ⟨rfl, rfl, moved⟩
    rw [claimFields, claimFields, sorted_eq_iff.mpr moved]

/-- The bytes of a digest, one character a byte. -/
def latin1 (bytes : List UInt8) : String := String.ofList (bytes.map fun b => Char.ofNat b.toNat)

theorem latin1_injective : Function.Injective latin1 := by
  intro left right same
  have chars := String.ofList_inj.mp same
  refine List.map_injective_iff.mpr ?_ chars
  intro a b alike
  have code : ∀ c : UInt8, (Char.ofNat c.toNat).toNat = c.toNat := by
    intro c
    have small := c.toNat_lt
    rw [Char.toNat_ofNat, if_pos (by simp only [Nat.isValidChar]; omega)]
  exact UInt8.toNat_inj.mp (by simpa only [code] using congrArg Char.toNat alike)

def claimedAmount : ExecutionBytes where
  name := ⟨[0x61], by unfold Framable; decide⟩
  category := ⟨[0x6d], by unfold Framable; decide⟩
  value := ⟨[0xff, 0x00], by unfold Framable; decide⟩

def claimedPayer : ExecutionBytes :=
  { claimedAmount with name := ⟨[0x80], by unfold Framable; decide⟩ }

def claimKey : ByteString := ⟨[0x4b], by unfold Framable; decide⟩

theorem reordered_claim :
    executionClaimHash latin1 claimKey claimKey ⟨[claimedAmount, claimedPayer], by decide⟩ =
      executionClaimHash latin1 claimKey claimKey ⟨[claimedPayer, claimedAmount], by decide⟩ :=
  (executionClaimHash_exact latin1 latin1_injective claimKey claimKey claimKey claimKey
    ⟨[claimedAmount, claimedPayer], by decide⟩ ⟨[claimedPayer, claimedAmount], by decide⟩).mpr
    ⟨rfl, rfl, List.Perm.swap _ _ _⟩

/-! The claim of texts is the claim of their bytes: UTF-8 keeps the order of texts. -/

/-- An earlier character has earlier bytes, whatever follows. -/
theorem encoded_lt {c d : Char} (below : c < d) (rest later : List Nat) :
    ordered (String.utf8EncodeChar c) ++ rest < ordered (String.utf8EncodeChar d) ++ later := by
  have lt : c.val.toNat < d.val.toNat := below
  have bound : d.val.toNat < 0x110000 := by
    have := d.valid
    simp only [UInt32.isValidChar, Nat.isValidChar] at this
    omega
  -- The bytes of a character are the digits of its code.
  have digits : ∀ v < 0x110000, v = v / 262144 % 8 * 262144 + v / 4096 % 64 * 4096 +
      v / 64 % 64 * 64 + v % 64 := by
    intro v small
    omega
  have first := digits c.val.toNat (by omega)
  have second := digits d.val.toNat bound
  have lead : ∀ v, (v % 8 + 240) % 256 = v % 8 + 240 := by
    intro v
    omega
  have tail : ∀ v, (v % 64 + 128) % 256 = v % 64 + 128 := by
    intro v
    omega
  simp only [String.utf8EncodeChar, ordered]
  split_ifs <;>
    simp only [List.map_cons, List.map_nil, List.cons_append, List.nil_append,
      UInt8.toNat_ofNat', List.cons_lt_cons_iff, Nat.reducePow, tail, lead] <;> omega

theorem encodedText_lt {left right : List Char} (below : left < right) :
    ordered (left.flatMap String.utf8EncodeChar) <
      ordered (right.flatMap String.utf8EncodeChar) := by
  induction left generalizing right with
  | nil =>
      cases right with
      | nil => exact absurd below (lt_irrefl _)
      | cons d rest =>
          obtain ⟨byte, more, encoded⟩ := List.exists_cons_of_ne_nil (@String.utf8EncodeChar_ne_nil d)
          simp [ordered, encoded]
  | cons c more ih =>
      cases right with
      | nil => simp at below
      | cons d rest =>
          simp only [List.flatMap_cons, ordered, List.map_append]
          rcases List.cons_lt_cons_iff.mp below with first | ⟨rfl, later⟩
          · exact encoded_lt first _ _
          · simp only [ordered] at ih
            exact List.append_left_lt (ih later)

theorem ordered_utf8_lt {left right : String} :
    ordered (utf8 left) < ordered (utf8 right) ↔ left < right := by
  have forward : ∀ left right : String, left < right →
      ordered (utf8 left) < ordered (utf8 right) := by
    intro left right below
    rw [← String.ofList_toList (s := left), ← String.ofList_toList (s := right), utf8_ofList,
      utf8_ofList]
    exact encodedText_lt (String.lt_iff_toList_lt.mp below)
  refine ⟨fun below => ?_, forward left right⟩
  rcases lt_trichotomy left right with first | rfl | last
  · exact first
  · exact absurd below (lt_irrefl _)
  · exact absurd below (lt_asymm (forward right left last))

/-- The input's strings are the texts' bytes. -/
structure Spells (input : ExecutionBytes) (text : ExecutionInput) : Prop where
  name : input.name.bytes = utf8 text.name
  category : input.category.bytes = utf8 text.category
  value : input.value.bytes = utf8 text.value

theorem Spells.precedes {a b : ExecutionBytes} {first second : ExecutionInput}
    (left : Spells a first) (right : Spells b second) :
    a.key ≤ b.key ↔ inputPrecedes first second = true := by
  have last : ordered (utf8 first.value) ≤ ordered (utf8 second.value) ↔
      first.value ≤ second.value := by
    rw [← not_lt, ← not_lt, ordered_utf8_lt]
  simp only [ExecutionBytes.key, inputPrecedes, Prod.Lex.toLex_le_toLex, left.name,
    left.category, left.value, right.name, right.category, right.value, ordered_utf8_lt,
    ordered_injective.eq_iff, utf8_injective.eq_iff, last, Bool.or_eq_true, Bool.and_eq_true,
    decide_eq_true_eq]

theorem Spells.sorted {inputs : List ExecutionBytes} {texts : List ExecutionInput}
    (spelled : List.Forall₂ Spells inputs texts) :
    List.Forall₂ Spells (sorted inputs)
      (texts.insertionSort fun a b => inputPrecedes a b) := by
  have insert : ∀ {input text inputs texts}, Spells input text →
      List.Forall₂ Spells inputs texts →
      List.Forall₂ Spells (inputs.orderedInsert (fun a b => a.key ≤ b.key) input)
        (texts.orderedInsert (fun a b => inputPrecedes a b) text) := by
    intro input text inputs texts head rest
    induction rest with
    | nil => exact .cons head .nil
    | cons next more ih =>
        simp only [List.orderedInsert, ← head.precedes next]
        split
        · exact .cons head (.cons next more)
        · exact .cons next ih
  induction spelled with
  | nil => exact .nil
  | cons head _ ih => exact insert head ih

/-- On texts the claim is the one the evaluator computes. -/
theorem executionClaimHash_utf8 (sha256Hex : List UInt8 → String) {identity key : ByteString}
    {identityText keyText : String} {inputs : InputArray ExecutionBytes}
    {texts : List ExecutionInput} (identitySpelled : identity.bytes = utf8 identityText)
    (keySpelled : key.bytes = utf8 keyText)
    (spelled : List.Forall₂ Spells inputs.elements texts) :
    executionClaimHash sha256Hex identity key inputs =
      Neutrino.executionClaimHash sha256Hex identityText keyText texts := by
  have fields : ∀ {inputs texts}, List.Forall₂ Spells inputs texts →
      inputs.flatMap ExecutionBytes.fields = (texts.flatMap inputFields).map utf8 := by
    intro inputs texts each
    induction each with
    | nil => rfl
    | cons head _ ih =>
        simp [ExecutionBytes.fields, inputFields, head.name, head.category, head.value, ih]
  have alike := Spells.sorted spelled
  simp only [executionClaimHash, Neutrino.executionClaimHash, framed, claimFields,
    Neutrino.claimFields, identitySpelled, keySpelled, fields alike, alike.length_eq]
  simp only [List.map_append, List.map_cons, List.map_nil]
  rfl

end ClaimOfBytes

end Neutrino
