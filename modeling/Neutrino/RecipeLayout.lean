import Neutrino.RecipeFlattening
import Neutrino.Library.Tiling

/-! Recipe body trees, the records that say them, and the rows that each tree is laid out as. -/

namespace Neutrino

open PyJson (Dict)
open Recipe (OpKind BindKind)
open Stateful

namespace RecipeFlattening

/-! Body trees. -/

mutual

inductive Body
  | sequence (ops : List Op)

inductive Op
  | emit (node : PyJson) (bindings : List Binding)
  | call (recipeId : PyJson) (bindings : List Binding)
  | forEach (slot : PyJson) (body : Body)
  | optionalOp (slot : PyJson) (body : Body)

inductive Binding
  | direct (field input : PyJson)
  | hook (field hookId input : PyJson)
  | nested (field : PyJson) (body : Body)

end

/-! What the records say. -/

section Says

variable (d : Dict)

mutual

/-- The record behind a reference says this body. -/
def Body.Said : Body → PyJson → Prop
  | .sequence ops, ref =>
      ∃ seq refs, derefRecord d ref = .ok seq ∧ iterate (getList seq "Ops") = .ok refs ∧
        opsSaid ops refs

def Op.Said : Op → Dict → Prop
  | .emit node bindings, o =>
      item o "OpKind" = .ok (.str "Emit") ∧ item o "Node" = .ok node ∧
        ∃ refs, iterate (getList o "Bindings") = .ok refs ∧ bindingsSaid bindings refs
  | .call recipeId bindings, o =>
      item o "OpKind" = .ok (.str "Call") ∧ item o "RecipeId" = .ok recipeId ∧
        ∃ refs, iterate (getList o "Bindings") = .ok refs ∧ bindingsSaid bindings refs
  | .forEach slot body, o =>
      item o "OpKind" = .ok (.str "ForEach") ∧ item o "Slot" = .ok slot ∧
        ∃ ref, item o "Body" = .ok ref ∧ body.Said ref
  | .optionalOp slot body, o =>
      item o "OpKind" = .ok (.str "Optional") ∧ item o "Slot" = .ok slot ∧
        ∃ ref, item o "Body" = .ok ref ∧ body.Said ref

def opsSaid : List Op → List PyJson → Prop
  | [], refs => refs = []
  | op :: rest, refs =>
      ∃ ref later o, refs = ref :: later ∧ derefRecord d ref = .ok o ∧ op.Said o ∧
        opsSaid rest later

def Binding.Said : Binding → Dict → Prop
  | .direct field input, b =>
      item b "BindKind" = .ok (.str "Direct") ∧ item b "Field" = .ok field ∧
        item b "Input" = .ok input
  | .hook field hookId input, b =>
      item b "BindKind" = .ok (.str "Hook") ∧ item b "Field" = .ok field ∧
        item b "HookId" = .ok hookId ∧ item b "Input" = .ok input
  | .nested field body, b =>
      item b "BindKind" = .ok (.str "Nested") ∧ item b "Field" = .ok field ∧
        ∃ ref, item b "Body" = .ok ref ∧ body.Said ref

def bindingsSaid : List Binding → List PyJson → Prop
  | [], refs => refs = []
  | binding :: rest, refs =>
      ∃ ref later b, refs = ref :: later ∧ derefRecord d ref = .ok b ∧ binding.Said b ∧
        bindingsSaid rest later

end

/-! The records say one tree at most. -/

theorem ok_unique {α : Type} {result : Except Stop α} {one other : α} (here : result = .ok one)
    (there : result = .ok other) : one = other :=
  Except.ok.inj (here.symm.trans there)

mutual

theorem Body.Said.unique : ∀ {tree other : Body} {ref : PyJson}, tree.Said d ref →
    other.Said d ref → tree = other
  | .sequence ops, .sequence others, ref, said, said' => by
      obtain ⟨_, _, here, listed, inner⟩ := said
      obtain ⟨_, _, here', listed', inner'⟩ := said'
      cases ok_unique here here'
      cases ok_unique listed listed'
      rw [opsSaid_unique inner inner']

theorem Op.Said.unique : ∀ {op other : Op} {o : Dict}, op.Said d o → other.Said d o → op = other
  | .emit .., other, o, said, said' => by
      obtain ⟨kind, named, refs, listed, inner⟩ := said
      cases other with
      | emit =>
          obtain ⟨-, named', refs', listed', inner'⟩ := said'
          cases ok_unique named named'
          cases ok_unique listed listed'
          rw [bindingsSaid_unique inner inner']
      | _ => exact absurd (ok_unique kind said'.1) (by simp)
  | .call .., other, o, said, said' => by
      obtain ⟨kind, named, refs, listed, inner⟩ := said
      cases other with
      | call =>
          obtain ⟨-, named', refs', listed', inner'⟩ := said'
          cases ok_unique named named'
          cases ok_unique listed listed'
          rw [bindingsSaid_unique inner inner']
      | _ => exact absurd (ok_unique kind said'.1) (by simp)
  | .forEach .., other, o, said, said' => by
      obtain ⟨kind, named, ref, found, inner⟩ := said
      cases other with
      | forEach =>
          obtain ⟨-, named', ref', found', inner'⟩ := said'
          cases ok_unique named named'
          cases ok_unique found found'
          rw [Body.Said.unique inner inner']
      | _ => exact absurd (ok_unique kind said'.1) (by simp)
  | .optionalOp .., other, o, said, said' => by
      obtain ⟨kind, named, ref, found, inner⟩ := said
      cases other with
      | optionalOp =>
          obtain ⟨-, named', ref', found', inner'⟩ := said'
          cases ok_unique named named'
          cases ok_unique found found'
          rw [Body.Said.unique inner inner']
      | _ => exact absurd (ok_unique kind said'.1) (by simp)

theorem opsSaid_unique : ∀ {ops others : List Op} {refs : List PyJson}, opsSaid d ops refs →
    opsSaid d others refs → ops = others
  | [], [], _, _, _ => rfl
  | [], other :: _, _, said, said' => by
      obtain ⟨_, _, _, split, -⟩ := said'
      simp [opsSaid, split] at said
  | op :: _, [], _, said, said' => by
      obtain ⟨_, _, _, split, -⟩ := said
      simp [opsSaid, split] at said'
  | op :: rest, other :: more, refs, said, said' => by
      obtain ⟨ref, later, o, rfl, here, inner, tail⟩ := said
      obtain ⟨ref', later', o', split, here', inner', tail'⟩ := said'
      obtain ⟨rfl, rfl⟩ := List.cons.inj split
      cases ok_unique here here'
      rw [Op.Said.unique inner inner', opsSaid_unique tail tail']

theorem Binding.Said.unique : ∀ {binding other : Binding} {b : Dict}, binding.Said d b →
    other.Said d b → binding = other
  | .direct .., other, b, said, said' => by
      obtain ⟨kind, named, input⟩ := said
      cases other with
      | direct =>
          obtain ⟨-, named', input'⟩ := said'
          cases ok_unique named named'
          cases ok_unique input input'
          rfl
      | _ => exact absurd (ok_unique kind said'.1) (by simp)
  | .hook .., other, b, said, said' => by
      obtain ⟨kind, named, id, input⟩ := said
      cases other with
      | hook =>
          obtain ⟨-, named', id', input'⟩ := said'
          cases ok_unique named named'
          cases ok_unique id id'
          cases ok_unique input input'
          rfl
      | _ => exact absurd (ok_unique kind said'.1) (by simp)
  | .nested .., other, b, said, said' => by
      obtain ⟨kind, named, ref, found, inner⟩ := said
      cases other with
      | nested =>
          obtain ⟨-, named', ref', found', inner'⟩ := said'
          cases ok_unique named named'
          cases ok_unique found found'
          rw [Body.Said.unique inner inner']
      | _ => exact absurd (ok_unique kind said'.1) (by simp)

theorem bindingsSaid_unique : ∀ {bindings others : List Binding} {refs : List PyJson},
    bindingsSaid d bindings refs → bindingsSaid d others refs → bindings = others
  | [], [], _, _, _ => rfl
  | [], other :: _, _, said, said' => by
      obtain ⟨_, _, _, split, -⟩ := said'
      simp [bindingsSaid, split] at said
  | binding :: _, [], _, said, said' => by
      obtain ⟨_, _, _, split, -⟩ := said
      simp [bindingsSaid, split] at said'
  | binding :: rest, other :: more, refs, said, said' => by
      obtain ⟨ref, later, b, rfl, here, inner, tail⟩ := said
      obtain ⟨ref', later', b', split, here', inner', tail'⟩ := said'
      obtain ⟨rfl, rfl⟩ := List.cons.inj split
      cases ok_unique here here'
      rw [Binding.Said.unique inner inner', bindingsSaid_unique tail tail']

end

end Says

/-! The layout of a tree: the rows it adds to arrays that already hold so many. -/

structure Counts where
  bodies : Nat
  ops : Nat
  bindings : Nat

structure Rows where
  bodies : List (Nat × Nat) := []
  ops : List OpRow := []
  bindings : List BindingRow := []

def Rows.append (rows more : Rows) : Rows where
  bodies := rows.bodies ++ more.bodies
  ops := rows.ops ++ more.ops
  bindings := rows.bindings ++ more.bindings

def Counts.past (counts : Counts) (rows : Rows) : Counts where
  bodies := counts.bodies + rows.bodies.length
  ops := counts.ops + rows.ops.length
  bindings := counts.bindings + rows.bindings.length

/-- The index of the body that such rows were appended for: the last one. -/
def Counts.root (counts : Counts) (rows : Rows) : Nat := counts.bodies + rows.bodies.length - 1

mutual

/-- A body's own operation rows stand first, then what its operations nest, then the body. -/
def Body.layout : Body → Counts → Rows
  | .sequence ops, counts =>
      let inner := opsLayout ops { counts with ops := counts.ops + ops.length }
      { bodies := inner.2.bodies ++ [(counts.ops, counts.ops + ops.length)]
        ops := inner.1 ++ inner.2.ops
        bindings := inner.2.bindings }

def Op.layout : Op → Counts → OpRow × Rows
  | .emit node bindings, counts =>
      let range := (counts.bindings, counts.bindings + bindings.length)
      let inner := bindingsLayout bindings { counts with bindings := range.2 }
      ({ kind := .emit, node, bb := range.1, be := range.2 },
        { inner.2 with bindings := inner.1 ++ inner.2.bindings })
  | .call recipeId bindings, counts =>
      let range := (counts.bindings, counts.bindings + bindings.length)
      let inner := bindingsLayout bindings { counts with bindings := range.2 }
      ({ kind := .call, recipeId, bb := range.1, be := range.2 },
        { inner.2 with bindings := inner.1 ++ inner.2.bindings })
  | .forEach slot body, counts =>
      let inner := body.layout counts
      ({ kind := .forEach, slot, body := counts.root inner }, inner)
  | .optionalOp slot body, counts =>
      let inner := body.layout counts
      ({ kind := .optionalOp, slot, body := counts.root inner }, inner)

def opsLayout : List Op → Counts → List OpRow × Rows
  | [], _ => ([], {})
  | op :: rest, counts =>
      let here := op.layout counts
      let later := opsLayout rest (counts.past here.2)
      (here.1 :: later.1, here.2.append later.2)

def Binding.layout : Binding → Counts → BindingRow × Rows
  | .direct field input, _ => ({ kind := .direct, field, input }, {})
  | .hook field hookId input, _ => ({ kind := .hook, field, hookId, input }, {})
  | .nested field body, counts =>
      let inner := body.layout counts
      ({ kind := .nested, field, nestedBody := counts.root inner }, inner)

def bindingsLayout : List Binding → Counts → List BindingRow × Rows
  | [], _ => ([], {})
  | binding :: rest, counts =>
      let here := binding.layout counts
      let later := bindingsLayout rest (counts.past here.2)
      (here.1 :: later.1, here.2.append later.2)

end

end RecipeFlattening

end Neutrino
