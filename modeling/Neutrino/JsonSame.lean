import Mathlib
import Neutrino.JsonLaws

/-! When two JSON values are equal, and that the compact text of a value tells it up to that. -/

namespace Neutrino

open Projection

/-- The number itself, however it is held. -/
def Json.Number.value : Json.Number → Rat
  | .integer value => value.toInt
  | .unsigned value => value.toNat
  | .double value => value

mutual

/-- Equal values: equal numbers, and members of the same keys with equal values. -/
def Json.Same : Json → Json → Prop
  | .null, .null => True
  | .boolean a, .boolean b => a = b
  | .number a, .number b => a.value = b.value
  | .string a, .string b => a = b
  | .array a, .array b => AllSame a b
  | .object a, .object b => MembersSame a b
  | _, _ => False

def Json.AllSame : List Json → List Json → Prop
  | [], [] => True
  | a :: rest, b :: others => a.Same b ∧ AllSame rest others
  | _, _ => False

def Json.MembersSame : List (String × Json) → List (String × Json) → Prop
  | [], [] => True
  | (key, a) :: rest, (key', b) :: others => key = key' ∧ a.Same b ∧ MembersSame rest others
  | _, _ => False

end

/-- A compact text that tells the value it was written for, among objects held in the order of
their keys. -/
def Projection.JsonText.Tells (text : JsonText) : Prop :=
  ∀ json other : Json, json.Ordered → other.Ordered →
    text.compactJson json = text.compactJson other → json.Same other

/-! The members of equal objects. -/

namespace Json

/-- Both absent, or equal. -/
def SameAt (key : String) (object other : Object) : Prop :=
  match object.get key, other.get key with
  | none, none => True
  | some value, some otherValue => value.Same otherValue
  | _, _ => False

theorem MembersSame.at {object other : Object} (same : MembersSame object other) (key : String) :
    SameAt key object other := by
  induction object generalizing other with
  | nil =>
      cases other with
      | nil => trivial
      | cons member rest => exact same.elim
  | cons member rest ih =>
      cases other with
      | nil => exact same.elim
      | cons member' rest' =>
          obtain ⟨name, value⟩ := member
          obtain ⟨name', value'⟩ := member'
          obtain ⟨rfl, values, rests⟩ := same
          have later := ih rests
          unfold SameAt at later ⊢
          by_cases here : name = key
          · simpa [Object.get, here] using values
          · simpa [Object.get, here] using later

end Json

/-! Numbers. -/

theorem slash_free (value : Int) : ∀ c ∈ (toString value).toList, c ≠ '/' := by
  intro c listed same
  have numeral := int_toString_numeral value c listed
  rw [same] at numeral
  exact absurd numeral (by decide)

theorem toString_inj {value other : Int} (same : toString value = toString other) :
    value = other := by
  have read := readInteger_toString value
  rw [same, readInteger_toString] at read
  exact (Option.some.inj read).symm

theorem digits_of_fraction {num num' : Int} {den den' : Nat}
    (same : toString num ++ "/" ++ toString den = toString num' ++ "/" ++ toString den') :
    num = num' ∧ den = den' := by
  have chars := congrArg String.toList same
  simp only [String.toList_append, List.append_assoc] at chars
  have split : ∀ {first second rest rest' : List Char}, (∀ c ∈ first, c ≠ '/') →
      (∀ c ∈ second, c ≠ '/') → first ++ ("/".toList ++ rest) = second ++ ("/".toList ++ rest') →
      first = second ∧ rest = rest' := by
    intro first second rest rest' free free' whole
    induction first generalizing second with
    | nil =>
        cases second with
        | nil => exact ⟨rfl, by simpa using whole⟩
        | cons c others =>
            exact absurd (List.cons.inj whole).1.symm (free' c (List.mem_cons_self ..))
    | cons c others ih =>
        cases second with
        | nil => exact absurd (List.cons.inj whole).1 (free c (List.mem_cons_self ..))
        | cons c' others' =>
            obtain ⟨rfl, tails⟩ := List.cons.inj whole
            obtain ⟨same, rests⟩ := ih (fun x listed => free x (List.mem_cons_of_mem _ listed))
              (fun x listed => free' x (List.mem_cons_of_mem _ listed)) tails
            exact ⟨by rw [same], rests⟩
  obtain ⟨nums, dens⟩ := split (slash_free num) (slash_free num') chars
  refine ⟨toString_inj (String.toList_inj.mp nums), ?_⟩
  have ints : toString (den : Int) = toString (den' : Int) := String.toList_inj.mp dens
  exact Int.ofNat_inj.mp (toString_inj ints)

theorem integer_ne_fraction {value num : Int} {den : Nat} :
    toString value ≠ toString num ++ "/" ++ toString den := by
  intro same
  refine slash_free value '/' ?_ rfl
  rw [same]
  simp

theorem number_compact_inj {a b : Json.Number} (same : a.compact = b.compact) :
    a.value = b.value := by
  have ints : ∀ {x y : Int}, toString x = toString y → (x : Rat) = y :=
    fun equal => by rw [toString_inj equal]
  cases a with
  | integer x =>
      cases b with
      | integer y => exact ints same
      | unsigned y => exact ints (y := (y.toNat : Int)) same
      | double y => exact absurd same integer_ne_fraction
  | unsigned x =>
      cases b with
      | integer y => exact ints (x := (x.toNat : Int)) same
      | unsigned y => exact ints (x := (x.toNat : Int)) (y := (y.toNat : Int)) same
      | double y => exact absurd same (@integer_ne_fraction (x.toNat : Int) _ _)
  | double x =>
      cases b with
      | integer y => exact absurd same.symm integer_ne_fraction
      | unsigned y => exact absurd same.symm (@integer_ne_fraction (y.toNat : Int) _ _)
      | double y =>
          obtain ⟨nums, dens⟩ := digits_of_fraction same
          exact Rat.ext nums dens

/-! Values. -/

inductive Kind
  | null
  | boolean
  | number
  | string
  | array
  | object
  deriving DecidableEq

def Json.kind : Json → Kind
  | .null => .null
  | .boolean _ => .boolean
  | .number _ => .number
  | .string _ => .string
  | .array _ => .array
  | .object _ => .object

/-- The kind of value that a text beginning so holds. -/
def kindOf : Option Char → Kind
  | some c =>
      if c = 'n' then .null
      else if c = 't' ∨ c = 'f' then .boolean
      else if c = '"' then .string
      else if c = '[' then .array
      else if c = '\x7b' then .object
      else .number
  | none => .number

theorem kindOf_numeral {c : Char} (numeral : isNumeral c = true) : kindOf (some c) = .number := by
  have other : ∀ d, isNumeral d = false → c ≠ d := by
    rintro d not rfl
    rw [numeral] at not
    cases not
  simp [kindOf, other 'n' (by decide), other 't' (by decide), other 'f' (by decide),
    other '"' (by decide), other '[' (by decide), other '\x7b' (by decide)]

theorem kindOf_digits (value : Int) (rest : List Char) :
    kindOf ((toString value).toList ++ rest).head? = .number := by
  cases digits : (toString value).toList with
  | nil => exact absurd digits (toString_ne_empty value)
  | cons c others =>
      exact kindOf_numeral (int_toString_numeral value c (by rw [digits]; exact .head _))

theorem kindOf_compact (json : Json) : kindOf json.compact.toList.head? = json.kind := by
  cases json with
  | null => rfl
  | boolean value => cases value <;> rfl
  | number value =>
      cases value with
      | integer value =>
          rw [← List.append_nil (Json.compact _).toList]
          exact kindOf_digits value.toInt []
      | unsigned value =>
          rw [← List.append_nil (Json.compact _).toList]
          exact kindOf_digits value.toNat []
      | double value =>
          rw [Json.compact, Json.Number.compact, String.append_assoc, String.toList_append]
          exact kindOf_digits value.num _
  | string value => rw [Json.compact, quote_toList]; rfl
  | array elements =>
      cases elements with
      | nil => rfl
      | cons first others => rw [Json.compact, String.toList_append]; rfl
  | object members =>
      cases members with
      | nil => rfl
      | cons member others => rw [Json.compact, String.toList_append]; rfl

theorem kind_of_compact {json other : Json} (same : json.compact = other.compact) :
    json.kind = other.kind := by
  rw [← kindOf_compact, same, kindOf_compact]

theorem compactElements_toList (element : Json) (others : List Json) :
    (Json.compactElements (element :: others)).toList =
      ',' :: (element.compact.toList ++ (Json.compactElements others).toList) := by
  simp [Json.compactElements]

theorem compact_array_toList (element : Json) (others : List Json) :
    (Json.compact (.array (element :: others))).toList =
      '[' :: (element.compact.toList ++ (Json.compactElements others).toList) := by
  simp [Json.compact]

theorem cut_elements (elements : List Json) :
    cut 0 .plain (Json.compactElements elements).toList = 0 := by
  cases elements with
  | nil => rfl
  | cons element others =>
      rw [compactElements_toList]
      simp [cut]

theorem elements_unique {element other : Json} {rest rest' : List Json}
    (same : element.compact.toList ++ (Json.compactElements rest).toList =
      other.compact.toList ++ (Json.compactElements rest').toList) :
    element.compact = other.compact ∧ Json.compactElements rest = Json.compactElements rest' := by
  obtain ⟨texts, rests⟩ := (whole_compact element).unique (whole_compact other)
    (cut_elements rest) (cut_elements rest') same
  exact ⟨String.toList_inj.mp texts, String.toList_inj.mp rests⟩

theorem text_ne_close (json : Json) (rest : List Char) : json.compact.toList ++ rest ≠ [']'] := by
  intro same
  have length := whole_compact json 0 rest
  have closed : cut 0 .plain [']'] = 0 := by simp [cut]
  rw [same, closed] at length
  have empty : json.compact.toList = [] := List.length_eq_zero_iff.mp (by omega)
  exact compactText_lawful.nonempty json (String.toList_inj.mp empty)

mutual

/-- The compact text of a value tells it. -/
theorem same_of_compact : (json other : Json) → json.compact = other.compact → json.Same other
  | .null, other, same => by
      have kinds := kind_of_compact same
      cases other <;> trivial
  | .boolean value, other, same => by
      have kinds := kind_of_compact same
      cases other with
      | boolean value' =>
          cases value <;> cases value' <;> first | rfl | exact absurd same (by decide)
      | _ => cases kinds
  | .number value, other, same => by
      have kinds := kind_of_compact same
      cases other with
      | number value' => exact number_compact_inj same
      | _ => cases kinds
  | .string value, other, same => by
      have kinds := kind_of_compact same
      cases other with
      | string value' =>
          have chars := congrArg String.toList same
          exact (@quote_unique value value' [] [] (by simpa [Json.compact] using chars)).1
      | _ => cases kinds
  | .array elements, other, same => by
      have kinds := kind_of_compact same
      cases other with
      | array elements' =>
          have chars := congrArg String.toList same
          match elements, elements' with
          | [], [] => trivial
          | [], first' :: others' =>
              rw [compact_array_toList] at chars
              exact absurd (List.cons.inj chars).2.symm (text_ne_close first' _)
          | first :: others, [] =>
              rw [compact_array_toList] at chars
              exact absurd (List.cons.inj chars).2 (text_ne_close first _)
          | first :: others, first' :: others' =>
              rw [compact_array_toList, compact_array_toList] at chars
              obtain ⟨texts, rests⟩ := elements_unique (List.cons.inj chars).2
              exact ⟨same_of_compact first first' texts,
                allSame_of_compactElements others others' rests⟩
      | _ => cases kinds
  | .object members, other, same => by
      have kinds := kind_of_compact same
      cases other with
      | object members' => exact membersSame_of_compact members members' (compact_object_iff.mp same)
      | _ => cases kinds

theorem allSame_of_compactElements : (elements others : List Json) →
    Json.compactElements elements = Json.compactElements others → Json.AllSame elements others
  | [], [], _ => trivial
  | [], other :: others, same => by
      have chars := congrArg String.toList same
      rw [compactElements_toList] at chars
      cases chars
  | element :: rest, [], same => by
      have chars := congrArg String.toList same
      rw [compactElements_toList] at chars
      cases chars
  | element :: rest, other :: others, same => by
      have chars := congrArg String.toList same
      rw [compactElements_toList, compactElements_toList] at chars
      obtain ⟨texts, rests⟩ := elements_unique (List.cons.inj chars).2
      exact ⟨same_of_compact element other texts, allSame_of_compactElements rest others rests⟩

theorem membersSame_of_compact : (members others : Json.Object) → SameMembers members others →
    Json.MembersSame members others
  | [], _, same => by
      cases same
      trivial
  | (key, value) :: rest, others, same => by
      cases same with
      | @cons _ member _ others' first rests =>
          obtain ⟨key', value'⟩ := member
          exact ⟨first.1, same_of_compact value value' first.2,
            membersSame_of_compact rest others' rests⟩

end

theorem compactText_tells : compactText.Tells :=
  fun json other _ _ same => same_of_compact json other same

end Neutrino
