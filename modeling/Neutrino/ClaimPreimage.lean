import Mathlib
import Neutrino.SameReads

/-! What an execution claim pins: under a hash without collisions on framed fields, invocations
admitted under one claim carry the same declared values. -/

namespace Neutrino

open Checked Lookup Framing

/-- No two framed field sequences have one hash. -/
def CollisionFree (sha256Hex : List UInt8 → String) : Prop :=
  ∀ left right, sha256Hex (framed left) = sha256Hex (framed right) → framed left = framed right

theorem framed_injective {left right : List String}
    (leftFits : ∀ field ∈ left, Framable (utf8 field))
    (rightFits : ∀ field ∈ right, Framable (utf8 field)) (same : framed left = framed right) :
    left = right := by
  apply List.map_injective_iff.mpr utf8_injective
  exact frames_injective (List.forall_mem_map.mpr leftFits) (List.forall_mem_map.mpr rightFits)
    same

/-! Claim fields. -/

def inputFields (input : ExecutionInput) : List String :=
  [input.name, input.category, input.value]

theorem inputFields_injective {left right : List ExecutionInput}
    (same : left.flatMap inputFields = right.flatMap inputFields) : left = right := by
  refine rows_injective 3 (by decide) (fun _ => rfl) ?_ same
  rintro ⟨⟩ ⟨⟩ alike
  simp_all [inputFields]

/-- The fields of a claim list its inputs, up to order. -/
theorem claimFields_perm {identity key : String} {left right : List ExecutionInput}
    (same : claimFields identity key left = claimFields identity key right) :
    left.Perm right := by
  simp only [claimFields, List.cons_append, List.nil_append, List.cons.injEq, true_and] at same
  have sorted := inputFields_injective same.2
  have leftPerm := List.perm_insertionSort (fun a b => inputPrecedes a b) left
  rw [sorted] at leftPerm
  exact leftPerm.symm.trans (List.perm_insertionSort _ right)

/-! Declared values. -/

/-- The invocation carries the name in one of its maps, with this text as its value. -/
inductive Carries (input : TransitionInput) (name : String) : String → Prop
  | number {value : Int64} (present : input.numeric[name]? = some value)
      (absent : input.symbols[name]? = none) : Carries input name (toString value)
  | token {value : String} (absent : input.numeric[name]? = none)
      (present : input.symbols[name]? = some value) : Carries input name value

theorem typeInput_ok {input : TransitionInput} {declared : PlanInput} {typed : ExecutionInput}
    (accepted : typeInput input declared = .ok typed) :
    typed.name = declared.name ∧ Carries input declared.name typed.value := by
  simp only [typeInput] at accepted
  split at accepted
  · rename_i number token
    split at accepted
    · simp only [Except.ok.injEq] at accepted
      subst accepted
      exact ⟨rfl, .number number token⟩
    · simp at accepted
  · rename_i number token
    split at accepted
    · simp at accepted
    · simp only [Except.ok.injEq] at accepted
      subst accepted
      exact ⟨rfl, .token number token⟩
  · simp at accepted

theorem int64_toString_injective {left right : Int64} (same : toString left = toString right) :
    left = right :=
  Int64.toInt_inj.mp (Int.repr_inj.mp same)

/-- Values of one text agree in both maps, unless one is a number and the other a token. -/
theorem Carries.alike {first second : TransitionInput} {name value : String}
    (carries : Carries first name value) (carries' : Carries second name value) :
    Alike True first.numeric[name]? second.numeric[name]? ∧
      Alike True first.symbols[name]? second.symbols[name]? := by
  generalize text : value = other at carries'
  cases carries with
  | @number number present absent =>
      refine ⟨?_, .inr ⟨trivial, .inl absent⟩⟩
      cases carries' with
      | number present' =>
          exact .of_eq (by rw [present, present', int64_toString_injective text])
      | token absent' => exact .inr ⟨trivial, .inr absent'⟩
  | token absent present =>
      refine ⟨.inr ⟨trivial, .inl absent⟩, ?_⟩
      cases carries' with
      | number _ absent' => exact .inr ⟨trivial, .inr absent'⟩
      | token _ present' => exact .of_eq (by rw [present, present', text])

section Hash

variable (sha256Hex : List UInt8 → String)

/-- Every string the invocation's claim is framed from has a 64-bit length. -/
def Representable (plan : CoordinationPlan) (input : TransitionInput) : Prop :=
  ∀ typed, collect (typeInput input) plan.inputs = .ok typed →
    ∀ field ∈ claimFields (coordinationIdentityHash sha256Hex plan) (workflowKeyValue plan input)
      typed, Framable (utf8 field)

variable {sha256Hex}

/-- Invocations admitted under one key and claim carry the same declared values. -/
theorem admission_alike {plan : CoordinationPlan} {first second : TransitionInput}
    (collisionFree : CollisionFree sha256Hex) (fits : Representable sha256Hex plan first)
    (fits' : Representable sha256Hex plan second) {key claim : String}
    (admitted : (admission sha256Hex plan first).value = .ok (key, claim))
    (admitted' : (admission sha256Hex plan second).value = .ok (key, claim)) {name : String}
    (declared : name ∈ declaredNames plan) :
    Alike True first.numeric[name]? second.numeric[name]? ∧
      Alike True first.symbols[name]? second.symbols[name]? := by
  obtain ⟨_, own, _, typed, collected, hashed⟩ := admission_ok admitted
  obtain ⟨_, own', _, typed', collected', hashed'⟩ := admission_ok admitted'
  have same : typed.Perm typed' := by
    apply claimFields_perm
    refine framed_injective ?_ ?_ (collisionFree _ _ (hashed.symm.trans hashed'))
    · rw [own]
      exact fits typed collected
    · rw [own']
      exact fits' typed' collected'
  obtain ⟨input, listed, rfl⟩ := List.mem_map.mp declared
  obtain ⟨value, present, built⟩ := collect_mem collected listed
  obtain ⟨other, _, built'⟩ := collect_mem_result collected' (same.mem_iff.mp present)
  obtain ⟨named, carries⟩ := typeInput_ok built
  obtain ⟨named', carries'⟩ := typeInput_ok built'
  rw [← named', named] at carries'
  exact carries.alike carries'

end Hash

end Neutrino
