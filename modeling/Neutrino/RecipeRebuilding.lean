import Neutrino.FlattenedRecipes

/-! Reading the trees back from the flat arrays: every body is where its index says, the ranges
tile the arrays, and every row is stamped with the recipe that owns it. -/

namespace Neutrino

open PyJson (Dict)
open Recipe (OpKind BindKind)
open Stateful Tiling

namespace RecipeFlattening

/-! Rebuilding. -/

/-- `rows[first:last]` -/
def slice {α : Type} (rows : List α) (range : Nat × Nat) : List α :=
  (rows.take range.2).drop range.1

def OpRow.bindRange (row : OpRow) : Nat × Nat := (row.bb, row.be)

section Rebuild

variable (flat : Flattener) (rebuildBody : Nat → Option Body)

def rebuildBinding (row : BindingRow) : Option Binding :=
  match row.kind with
  | .direct => some (.direct row.field row.input)
  | .hook => some (.hook row.field row.hookId row.input)
  | .nested => do
      let index ← row.nestedBody.toNat?
      let body ← rebuildBody index
      return .nested row.field body

def rebuildOp (row : OpRow) : Option Op :=
  match row.kind with
  | .emit => do
      let bindings ← (slice flat.bindings row.bindRange).mapM (rebuildBinding rebuildBody)
      return .emit row.node bindings
  | .call => do
      let bindings ← (slice flat.bindings row.bindRange).mapM (rebuildBinding rebuildBody)
      return .call row.recipeId bindings
  | .forEach => do
      let index ← row.body.toNat?
      let body ← rebuildBody index
      return .forEach row.slot body
  | .optionalOp => do
      let index ← row.body.toNat?
      let body ← rebuildBody index
      return .optionalOp row.slot body

end Rebuild

def rebuildWith (flat : Flattener) : Nat → Nat → Option Body
  | 0, _ => none
  | fuel + 1, index => do
      let range ← flat.bodies[index]?
      let ops ← (slice flat.ops range).mapM (rebuildOp flat (rebuildWith flat fuel))
      return .sequence ops

/-- The tree that starts at a body index. A nested body stands before the one that nests it. -/
def Flattener.rebuild (flat : Flattener) (index : Nat) : Option Body :=
  rebuildWith flat (index + 1) index

/-! Rows that stand in the arrays where they were laid out. -/

structure Rows.Within (rows : Rows) (flat : Flattener) (counts : Counts) : Prop where
  bodies : rows.bodies <+: flat.bodies.drop counts.bodies
  ops : rows.ops <+: flat.ops.drop counts.ops
  bindings : rows.bindings <+: flat.bindings.drop counts.bindings

theorem prefix_drop_append {α : Type} {part more whole : List α} {start : Nat} :
    part ++ more <+: whole.drop start ↔
      part <+: whole.drop start ∧ more <+: whole.drop (start + part.length) := by
  constructor
  · rintro ⟨tail, joined⟩
    refine ⟨⟨more ++ tail, by rw [← List.append_assoc, joined]⟩, tail, ?_⟩
    rw [← List.drop_drop, ← joined, List.append_assoc, List.drop_left]
  · rintro ⟨⟨rest, split⟩, tail, joined⟩
    refine ⟨tail, ?_⟩
    rw [← List.drop_drop, ← split, List.drop_left] at joined
    rw [List.append_assoc, joined, split]

theorem slice_of_prefix {α : Type} {rows whole : List α} {start : Nat}
    (within : rows <+: whole.drop start) : slice whole (start, start + rows.length) = rows := by
  rw [slice, List.drop_take, Nat.add_sub_cancel_left]
  exact List.prefix_iff_eq_take.mp within |>.symm

theorem getElem?_of_within {α : Type} {rows whole : List α} {start index : Nat}
    (within : rows <+: whole.drop start) (bound : index < rows.length) :
    whole[start + index]? = rows[index]? := by
  obtain ⟨tail, joined⟩ := within
  rw [← List.getElem?_drop, ← joined, List.getElem?_append_left bound]

theorem within_append {rows more : Rows} {flat : Flattener} {counts : Counts} :
    (rows.append more).Within flat counts ↔
      rows.Within flat counts ∧ more.Within flat (counts.past rows) := by
  constructor
  · rintro ⟨bodies, ops, bindings⟩
    have bodies := prefix_drop_append.mp bodies
    have ops := prefix_drop_append.mp ops
    have bindings := prefix_drop_append.mp bindings
    exact ⟨⟨bodies.1, ops.1, bindings.1⟩, bodies.2, ops.2, bindings.2⟩
  · rintro ⟨here, later⟩
    exact ⟨prefix_drop_append.mpr ⟨here.bodies, later.bodies⟩,
      prefix_drop_append.mpr ⟨here.ops, later.ops⟩,
      prefix_drop_append.mpr ⟨here.bindings, later.bindings⟩⟩

theorem Rows.Within.grow {rows : Rows} {flat : Flattener} {counts : Counts}
    (within : rows.Within flat counts) (more : Rows) : rows.Within (flat.grow more) counts where
  bodies := within.bodies.trans (by simp [Flattener.grow, List.drop_append])
  ops := within.ops.trans (by simp [Flattener.grow, List.drop_append])
  bindings := within.bindings.trans (by simp [Flattener.grow, List.drop_append])

theorem within_grow (flat : Flattener) (rows : Rows) : rows.Within (flat.grow rows) flat.counts where
  bodies := by simp [Flattener.grow, Flattener.counts]
  ops := by simp [Flattener.grow, Flattener.counts]
  bindings := by simp [Flattener.grow, Flattener.counts]

/-! The parts of a layout within the arrays. -/

section Parts

variable {flat : Flattener} {counts : Counts}

theorem within_body {ops : List Op} (within : ((Body.sequence ops).layout counts).Within flat counts) :
    (opsLayout ops { counts with ops := counts.ops + ops.length }).1 <+: flat.ops.drop counts.ops ∧
      (opsLayout ops { counts with ops := counts.ops + ops.length }).2.Within flat
        { counts with ops := counts.ops + ops.length } ∧
      flat.bodies[counts.root ((Body.sequence ops).layout counts)]? =
        some (counts.ops, counts.ops + ops.length) := by
  have bodies := prefix_drop_append.mp within.bodies
  have ops := prefix_drop_append.mp within.ops
  rw [opsLayout_length] at ops
  refine ⟨ops.1, ⟨bodies.1, ops.2, within.bindings⟩, ?_⟩
  have last := getElem?_of_within bodies.2 (show 0 < _ by simp)
  simpa [Counts.root, Body.layout, Nat.add_assoc] using last

theorem within_bound {bindings : List Binding}
    (within : (boundLayout bindings counts).2.Within flat counts) :
    (bindingsLayout bindings { counts with bindings := counts.bindings + bindings.length }).1 <+:
        flat.bindings.drop counts.bindings ∧
      (bindingsLayout bindings { counts with bindings := counts.bindings + bindings.length }).2.Within
        flat { counts with bindings := counts.bindings + bindings.length } := by
  have rows := prefix_drop_append.mp within.bindings
  rw [bindingsLayout_length] at rows
  exact ⟨rows.1, within.bodies, within.ops, rows.2⟩

/-- A layout ends with the body it is for. -/
theorem layout_bodies_pos (tree : Body) (counts : Counts) :
    0 < (tree.layout counts).bodies.length := by
  cases tree
  simp [Body.layout]

end Parts

/-! The rebuilt tree is the one laid out. -/

@[simp] theorem toNat?_natCast (index : Nat) : (index : Int).toNat? = some index :=
  rfl

theorem past_bodies (counts : Counts) (rows : Rows) :
    (counts.past rows).bodies = counts.bodies + rows.bodies.length :=
  rfl

section Rebuilt

variable {flat : Flattener}

mutual

theorem Body.rebuilt : ∀ (tree : Body) {counts : Counts} {fuel : Nat},
    (tree.layout counts).Within flat counts →
    counts.bodies + (tree.layout counts).bodies.length ≤ fuel →
    rebuildWith flat fuel (counts.root (tree.layout counts)) = some tree
  | .sequence ops, counts, 0, _, enough => by simp [Body.layout] at enough
  | .sequence ops, counts, fuel + 1, within, enough => by
      obtain ⟨rows, inner, range⟩ := within_body within
      simp only [Body.layout, List.length_append, List.length_singleton] at enough
      have read : List.mapM (rebuildOp flat (rebuildWith flat fuel)) _ = some ops :=
        opsRebuilt ops inner (Nat.le_of_succ_le_succ enough)
      rw [rebuildWith, range]
      have sliced := slice_of_prefix rows
      rw [opsLayout_length] at sliced
      simp [sliced, read]

theorem Op.rebuilt : ∀ (op : Op) {counts : Counts} {fuel : Nat},
    (op.layout counts).2.Within flat counts →
    counts.bodies + (op.layout counts).2.bodies.length ≤ fuel →
    rebuildOp flat (rebuildWith flat fuel) (op.layout counts).1 = some op
  | .emit node bindings, counts, fuel, within, enough => by
      obtain ⟨rows, inner⟩ := within_bound within
      have read := bindingsRebuilt bindings inner enough
      have sliced := slice_of_prefix rows
      rw [bindingsLayout_length] at sliced
      simp [Op.layout, rebuildOp, OpRow.bindRange, sliced, read]
  | .call recipeId bindings, counts, fuel, within, enough => by
      obtain ⟨rows, inner⟩ := within_bound within
      have read := bindingsRebuilt bindings inner enough
      have sliced := slice_of_prefix rows
      rw [bindingsLayout_length] at sliced
      simp [Op.layout, rebuildOp, OpRow.bindRange, sliced, read]
  | .forEach slot body, counts, fuel, within, enough => by
      have read := body.rebuilt within enough
      simp [Op.layout, rebuildOp, read]
  | .optionalOp slot body, counts, fuel, within, enough => by
      have read := body.rebuilt within enough
      simp [Op.layout, rebuildOp, read]

theorem opsRebuilt : ∀ (ops : List Op) {counts : Counts} {fuel : Nat},
    (opsLayout ops counts).2.Within flat counts →
    counts.bodies + (opsLayout ops counts).2.bodies.length ≤ fuel →
    (opsLayout ops counts).1.mapM (rebuildOp flat (rebuildWith flat fuel)) = some ops
  | [], _, _, _, _ => rfl
  | op :: rest, counts, fuel, within, enough => by
      obtain ⟨here, later⟩ := within_append.mp within
      simp only [opsLayout, Rows.append, List.length_append] at enough
      have first : rebuildOp flat (rebuildWith flat fuel) _ = some op :=
        op.rebuilt here (by omega)
      have others : List.mapM (rebuildOp flat (rebuildWith flat fuel)) _ = some rest :=
        opsRebuilt rest later (by rw [past_bodies]; omega)
      simp [opsLayout, first, others]

theorem Binding.rebuilt : ∀ (binding : Binding) {counts : Counts} {fuel : Nat},
    (binding.layout counts).2.Within flat counts →
    counts.bodies + (binding.layout counts).2.bodies.length ≤ fuel →
    rebuildBinding (rebuildWith flat fuel) (binding.layout counts).1 = some binding
  | .direct .., _, _, _, _ => rfl
  | .hook .., _, _, _, _ => rfl
  | .nested field body, counts, fuel, within, enough => by
      have read := body.rebuilt within enough
      simp [Binding.layout, rebuildBinding, read]

theorem bindingsRebuilt : ∀ (bindings : List Binding) {counts : Counts} {fuel : Nat},
    (bindingsLayout bindings counts).2.Within flat counts →
    counts.bodies + (bindingsLayout bindings counts).2.bodies.length ≤ fuel →
    (bindingsLayout bindings counts).1.mapM (rebuildBinding (rebuildWith flat fuel)) = some bindings
  | [], _, _, _, _ => rfl
  | binding :: rest, counts, fuel, within, enough => by
      obtain ⟨here, later⟩ := within_append.mp within
      simp only [bindingsLayout, Rows.append, List.length_append] at enough
      have first : rebuildBinding (rebuildWith flat fuel) _ = some binding :=
        binding.rebuilt here (by omega)
      have others : List.mapM (rebuildBinding (rebuildWith flat fuel)) _ = some rest :=
        bindingsRebuilt rest later (by rw [past_bodies]; omega)
      simp [bindingsLayout, first, others]

end

end Rebuilt

/-! The ranges of a layout's rows tile what it adds to the arrays. -/

def Rows.opsTiled (rows : Rows) (counts : Counts) : Prop :=
  Tiles rows.bodies counts.ops (counts.ops + rows.ops.length)

theorem opsTiled_append {rows more : Rows} {counts : Counts} (here : rows.opsTiled counts)
    (later : more.opsTiled (counts.past rows)) : (rows.append more).opsTiled counts := by
  unfold Rows.opsTiled
  rw [show (rows.append more).ops = rows.ops ++ more.ops from rfl, List.length_append,
    ← Nat.add_assoc]
  exact Tiles.append here later

mutual

theorem Body.opsTiled : ∀ (tree : Body) (counts : Counts), (tree.layout counts).opsTiled counts
  | .sequence ops, counts => by
      have inner := opsInnerTiled ops { counts with ops := counts.ops + ops.length }
      have own : Tiles [(counts.ops, counts.ops + ops.length)] counts.ops (counts.ops + ops.length) :=
        tiles_single (Nat.le_add_right _ _)
      have joined := (own.append inner).perm List.perm_append_comm
      simpa [Rows.opsTiled, Body.layout, opsLayout_length, Nat.add_assoc] using joined

theorem Op.opsTiled : ∀ (op : Op) (counts : Counts), (op.layout counts).2.opsTiled counts
  | .emit _ bindings, counts =>
      bindingsInnerTiled bindings { counts with bindings := counts.bindings + bindings.length }
  | .call _ bindings, counts =>
      bindingsInnerTiled bindings { counts with bindings := counts.bindings + bindings.length }
  | .forEach _ body, counts => body.opsTiled counts
  | .optionalOp _ body, counts => body.opsTiled counts

theorem opsInnerTiled : ∀ (ops : List Op) (counts : Counts),
    (opsLayout ops counts).2.opsTiled counts
  | [], counts => tiles_nil counts.ops
  | op :: rest, counts => opsTiled_append (op.opsTiled counts) (opsInnerTiled rest _)

theorem Binding.opsTiled : ∀ (binding : Binding) (counts : Counts),
    (binding.layout counts).2.opsTiled counts
  | .direct .., counts => tiles_nil counts.ops
  | .hook .., counts => tiles_nil counts.ops
  | .nested _ body, counts => body.opsTiled counts

theorem bindingsInnerTiled : ∀ (bindings : List Binding) (counts : Counts),
    (bindingsLayout bindings counts).2.opsTiled counts
  | [], counts => tiles_nil counts.ops
  | binding :: rest, counts => opsTiled_append (binding.opsTiled counts) (bindingsInnerTiled rest _)

end

/-- The binding ranges of some operation rows, among them those of the rows given first. -/
def Rows.bindingsTiled (own : List OpRow) (rows : Rows) (counts : Counts) : Prop :=
  Tiles ((own ++ rows.ops).map OpRow.bindRange) counts.bindings
    (counts.bindings + rows.bindings.length)

theorem bindingsTiled_append {own others : List OpRow} {rows more : Rows} {counts : Counts}
    (here : rows.bindingsTiled own counts) (later : more.bindingsTiled others (counts.past rows)) :
    (rows.append more).bindingsTiled (own ++ others) counts := by
  have joined := Tiles.append here later
  have order : ((own ++ others) ++ (rows.ops ++ more.ops)).Perm
      ((own ++ rows.ops) ++ (others ++ more.ops)) := by
    simp only [List.append_assoc]
    exact List.Perm.append_left own (List.perm_append_comm_assoc ..)
  have tiles := joined.perm ((order.map OpRow.bindRange).trans (by rw [List.map_append]))
  simpa [Rows.bindingsTiled, Rows.append, Counts.past, Nat.add_assoc] using tiles

theorem boundTiled {bindings : List Binding} {counts : Counts} {row : OpRow}
    (range : row.bindRange = (counts.bindings, counts.bindings + bindings.length))
    (inner : (bindingsLayout bindings
        { counts with bindings := counts.bindings + bindings.length }).2.bindingsTiled []
      { counts with bindings := counts.bindings + bindings.length }) :
    (boundLayout bindings counts).2.bindingsTiled [row] counts := by
  have own : Tiles [row.bindRange] counts.bindings (counts.bindings + bindings.length) := by
    rw [range]
    exact tiles_single (Nat.le_add_right _ _)
  have joined := own.append inner
  simpa [Rows.bindingsTiled, boundLayout, bindingsLayout_length, Nat.add_assoc] using joined

mutual

theorem Body.bindingsTiled : ∀ (tree : Body) (counts : Counts),
    (tree.layout counts).bindingsTiled [] counts
  | .sequence ops, counts => opsBindingsTiled ops { counts with ops := counts.ops + ops.length }

theorem Op.bindingsTiled : ∀ (op : Op) (counts : Counts),
    (op.layout counts).2.bindingsTiled [(op.layout counts).1] counts
  | .emit _ bindings, _ => boundTiled rfl (nestedBindingsTiled bindings _)
  | .call _ bindings, _ => boundTiled rfl (nestedBindingsTiled bindings _)
  | .forEach _ body, counts => (body.bindingsTiled counts).cons_empty 0
  | .optionalOp _ body, counts => (body.bindingsTiled counts).cons_empty 0

theorem opsBindingsTiled : ∀ (ops : List Op) (counts : Counts),
    (opsLayout ops counts).2.bindingsTiled (opsLayout ops counts).1 counts
  | [], counts => tiles_nil counts.bindings
  | op :: rest, counts =>
      @bindingsTiled_append [(op.layout counts).1] _ _ _ _ (op.bindingsTiled counts)
        (opsBindingsTiled rest _)

theorem Binding.bindingsTiled : ∀ (binding : Binding) (counts : Counts),
    (binding.layout counts).2.bindingsTiled [] counts
  | .direct .., counts => tiles_nil counts.bindings
  | .hook .., counts => tiles_nil counts.bindings
  | .nested _ body, counts => body.bindingsTiled counts

theorem nestedBindingsTiled : ∀ (bindings : List Binding) (counts : Counts),
    (bindingsLayout bindings counts).2.bindingsTiled [] counts
  | [], counts => tiles_nil counts.bindings
  | binding :: rest, counts =>
      @bindingsTiled_append [] _ _ _ _ (binding.bindingsTiled counts) (nestedBindingsTiled rest _)

end

end RecipeFlattening

end Neutrino
