import Neutrino.RecipeRebuilding

/-! What a body reaches in the flat arrays, and the package whose every row is stamped with the
recipe that reaches it. -/

namespace Neutrino

open PyJson (Dict)
open Recipe (OpKind BindKind)
open Stateful Tiling

namespace RecipeFlattening

/-! The rows that a body reaches. -/

section Reach

variable (flat : Flattener)

/-- The bodies that the row of an operation nests, itself or through its bindings. -/
inductive Nests (row : OpRow) : Nat → Prop
  | own {index : Nat} (kind : row.kind = .forEach ∨ row.kind = .optionalOp)
      (nested : row.body = index) : Nests row index
  | bound {index position : Nat} {binding : BindingRow}
      (kind : row.kind = .emit ∨ row.kind = .call) (inside : position ∈ span row.bindRange)
      (found : flat.bindings[position]? = some binding) (nestedKind : binding.kind = .nested)
      (nested : binding.nestedBody = index) : Nests row index

/-- An operation of a body nests another body. -/
def Holds (outer inner : Nat) : Prop :=
  ∃ range position row, flat.bodies[outer]? = some range ∧ position ∈ span range ∧
    flat.ops[position]? = some row ∧ Nests flat row inner

def OwnsOp (root position : Nat) : Prop :=
  ∃ body range, Relation.ReflTransGen (Holds flat) root body ∧ flat.bodies[body]? = some range ∧
    position ∈ span range

def OwnsBinding (root position : Nat) : Prop :=
  ∃ op row, OwnsOp flat root op ∧ flat.ops[op]? = some row ∧ position ∈ span row.bindRange

end Reach

variable {flat : Flattener} {counts : Counts}

/-! Every body of a layout is reached from its last one. -/

def Counts.Holds (counts : Counts) (rows : Rows) (index : Nat) : Prop :=
  counts.bodies ≤ index ∧ index < counts.bodies + rows.bodies.length

theorem holds_append {rows more : Rows} {index : Nat} (inside : counts.Holds (rows.append more) index) :
    counts.Holds rows index ∨ (counts.past rows).Holds more index := by
  simp only [Counts.Holds, Rows.append, List.length_append, past_bodies] at inside ⊢
  omega

theorem bound_nests {bindings : List Binding} {row : OpRow} {index : Nat}
    (kind : row.kind = .emit ∨ row.kind = .call)
    (range : row.bindRange = (counts.bindings, counts.bindings + bindings.length))
    (within : (boundLayout bindings counts).2.Within flat counts)
    (reached : ∃ binding ∈ (bindingsLayout bindings
        { counts with bindings := counts.bindings + bindings.length }).1,
      binding.kind = .nested ∧ ∃ start : Nat, binding.nestedBody = start ∧
        Relation.ReflTransGen (Holds flat) start index) :
    ∃ start, Nests flat row start ∧ Relation.ReflTransGen (Holds flat) start index := by
  obtain ⟨binding, member, nestedKind, start, nested, path⟩ := reached
  obtain ⟨position, bound, rfl⟩ := List.mem_iff_getElem.mp member
  have found := getElem?_of_within (within_bound within).1 bound
  rw [List.getElem?_eq_getElem bound] at found
  rw [bindingsLayout_length] at bound
  exact ⟨start, .bound kind (by rw [range]; exact mem_span.mpr ⟨by simp, by simpa using bound⟩)
    found nestedKind nested, path⟩

mutual

theorem Body.reached : ∀ (tree : Body) {counts : Counts} {index : Nat},
    (tree.layout counts).Within flat counts → counts.Holds (tree.layout counts) index →
    Relation.ReflTransGen (Holds flat) (counts.root (tree.layout counts)) index
  | .sequence ops, counts, index, within, inside => by
      obtain ⟨rows, inner, range⟩ := within_body within
      by_cases own : index = counts.root ((Body.sequence ops).layout counts)
      · rw [own]
      · have below : ({ counts with ops := counts.ops + ops.length } : Counts).Holds
            (opsLayout ops { counts with ops := counts.ops + ops.length }).2 index := by
          simp only [Counts.Holds, Counts.root, Body.layout, List.length_append,
            List.length_singleton] at inside own ⊢
          omega
        obtain ⟨row, member, start, nests, path⟩ := opsReached ops inner below
        obtain ⟨position, bound, rfl⟩ := List.mem_iff_getElem.mp member
        have found := getElem?_of_within rows bound
        rw [List.getElem?_eq_getElem bound] at found
        rw [opsLayout_length] at bound
        refine .head ⟨_, _, _, range, ?_, found, nests⟩ path
        exact mem_span.mpr ⟨by simp, by simpa using bound⟩

theorem Op.reached : ∀ (op : Op) {counts : Counts} {index : Nat},
    (op.layout counts).2.Within flat counts → counts.Holds (op.layout counts).2 index →
    ∃ start, Nests flat (op.layout counts).1 start ∧
      Relation.ReflTransGen (Holds flat) start index
  | .emit _ bindings, _, _, within, inside =>
      bound_nests (.inl rfl) rfl within (bindingsReached bindings (within_bound within).2 inside)
  | .call _ bindings, _, _, within, inside =>
      bound_nests (.inr rfl) rfl within (bindingsReached bindings (within_bound within).2 inside)
  | .forEach _ body, _, _, within, inside =>
      ⟨_, .own (.inl rfl) rfl, body.reached within inside⟩
  | .optionalOp _ body, _, _, within, inside =>
      ⟨_, .own (.inr rfl) rfl, body.reached within inside⟩

theorem opsReached : ∀ (ops : List Op) {counts : Counts} {index : Nat},
    (opsLayout ops counts).2.Within flat counts → counts.Holds (opsLayout ops counts).2 index →
    ∃ row ∈ (opsLayout ops counts).1, ∃ start, Nests flat row start ∧
      Relation.ReflTransGen (Holds flat) start index
  | [], counts, index, _, inside => by
      simp only [Counts.Holds, opsLayout, List.length_nil] at inside
      omega
  | op :: rest, counts, index, within, inside => by
      obtain ⟨here, later⟩ := within_append.mp within
      rcases holds_append inside with first | others
      · exact ⟨_, List.mem_cons_self, op.reached here first⟩
      · obtain ⟨row, member, nests⟩ := opsReached rest later others
        exact ⟨row, List.mem_cons_of_mem _ member, nests⟩

theorem Binding.reached : ∀ (binding : Binding) {counts : Counts} {index : Nat},
    (binding.layout counts).2.Within flat counts → counts.Holds (binding.layout counts).2 index →
    (binding.layout counts).1.kind = .nested ∧
      ∃ start : Nat, (binding.layout counts).1.nestedBody = start ∧
        Relation.ReflTransGen (Holds flat) start index
  | .direct .., counts, index, _, inside => by
      simp only [Counts.Holds, Binding.layout, List.length_nil] at inside
      omega
  | .hook .., counts, index, _, inside => by
      simp only [Counts.Holds, Binding.layout, List.length_nil] at inside
      omega
  | .nested _ body, _, _, within, inside =>
      ⟨rfl, _, rfl, body.reached within inside⟩

theorem bindingsReached : ∀ (bindings : List Binding) {counts : Counts} {index : Nat},
    (bindingsLayout bindings counts).2.Within flat counts →
    counts.Holds (bindingsLayout bindings counts).2 index →
    ∃ binding ∈ (bindingsLayout bindings counts).1, binding.kind = .nested ∧
      ∃ start : Nat, binding.nestedBody = start ∧ Relation.ReflTransGen (Holds flat) start index
  | [], counts, index, _, inside => by
      simp only [Counts.Holds, bindingsLayout, List.length_nil] at inside
      omega
  | binding :: rest, counts, index, within, inside => by
      obtain ⟨here, later⟩ := within_append.mp within
      rcases holds_append inside with first | others
      · exact ⟨_, List.mem_cons_self, binding.reached here first⟩
      · obtain ⟨row, member, nested⟩ := bindingsReached rest later others
        exact ⟨row, List.mem_cons_of_mem _ member, nested⟩

end

/-! Nothing else is reached. -/

/-- The bodies that some rows nest stand among the bodies laid out with them. -/
structure Closed (own : List OpRow) (bound : List BindingRow) (rows : Rows) (counts : Counts) :
    Prop where
  ops : ∀ row ∈ own ++ rows.ops, row.kind = .forEach ∨ row.kind = .optionalOp →
    ∀ index : Nat, row.body = index → counts.Holds rows index
  bindings : ∀ binding ∈ bound ++ rows.bindings, binding.kind = .nested →
    ∀ index : Nat, binding.nestedBody = index → counts.Holds rows index

theorem Closed.append {own others : List OpRow} {bound more : List BindingRow} {rows later : Rows}
    (here : Closed own bound rows counts) (there : Closed others more later (counts.past rows)) :
    Closed (own ++ others) (bound ++ more) (rows.append later) counts := by
  have left {index : Nat} (holds : counts.Holds rows index) :
      counts.Holds (rows.append later) index := by
    simp only [Counts.Holds, Rows.append, List.length_append] at holds ⊢
    omega
  have right {index : Nat} (holds : (counts.past rows).Holds later index) :
      counts.Holds (rows.append later) index := by
    simp only [Counts.Holds, Rows.append, List.length_append, past_bodies] at holds ⊢
    omega
  constructor
  · intro row member kind index nested
    simp only [Rows.append, List.mem_append] at member
    rcases member with (member | member) | (member | member)
    · exact left (here.ops row (by simp [member]) kind index nested)
    · exact right (there.ops row (by simp [member]) kind index nested)
    · exact left (here.ops row (by simp [member]) kind index nested)
    · exact right (there.ops row (by simp [member]) kind index nested)
  · intro binding member kind index nested
    simp only [Rows.append, List.mem_append] at member
    rcases member with (member | member) | (member | member)
    · exact left (here.bindings binding (by simp [member]) kind index nested)
    · exact right (there.bindings binding (by simp [member]) kind index nested)
    · exact left (here.bindings binding (by simp [member]) kind index nested)
    · exact right (there.bindings binding (by simp [member]) kind index nested)

/-- Rows regrouped, with rows that nest nothing themselves. -/
theorem Closed.regroup {own own' : List OpRow} {bound bound' : List BindingRow} {rows rows' : Rows}
    {counts' : Counts} (closed : Closed own bound rows counts)
    (start : counts'.bodies = counts.bodies) (more : rows.bodies.length ≤ rows'.bodies.length)
    (ops : ∀ row ∈ own' ++ rows'.ops,
      row.kind = .forEach ∨ row.kind = .optionalOp → row ∈ own ++ rows.ops)
    (bindings : ∀ binding ∈ bound' ++ rows'.bindings, binding ∈ bound ++ rows.bindings) :
    Closed own' bound' rows' counts' := by
  constructor
  · intro row member kind index nested
    have holds := closed.ops row (ops row member kind) kind index nested
    simp only [Counts.Holds] at holds ⊢
    omega
  · intro binding member kind index nested
    have holds := closed.bindings binding (bindings binding member) kind index nested
    simp only [Counts.Holds] at holds ⊢
    omega

theorem root_holds (tree : Body) (counts : Counts) :
    counts.Holds (tree.layout counts) (counts.root (tree.layout counts)) := by
  have some := layout_bodies_pos tree counts
  simp only [Counts.Holds, Counts.root]
  omega

theorem loop_closed {tree : Body} (closed : Closed [] [] (tree.layout counts) counts) {row : OpRow}
    (nested : row.body = counts.root (tree.layout counts)) :
    Closed [row] [] (tree.layout counts) counts := by
  refine ⟨?_, closed.bindings⟩
  intro other member kind index here
  rcases List.mem_cons.mp member with rfl | member
  · have same : index = counts.root (tree.layout counts) := by
      rw [nested] at here
      exact (Int.ofNat.inj here).symm
    rw [same]
    exact root_holds tree counts
  · exact closed.ops other member kind index here

mutual

theorem Body.closed : ∀ (tree : Body) (counts : Counts), Closed [] [] (tree.layout counts) counts
  | .sequence ops, counts =>
      (opsClosed ops { counts with ops := counts.ops + ops.length }).regroup rfl
        (by simp [Body.layout]) (by simp +contextual [Body.layout]) (by simp [Body.layout])

theorem Op.closed : ∀ (op : Op) (counts : Counts),
    Closed [(op.layout counts).1] [] (op.layout counts).2 counts
  | .emit _ bindings, counts =>
      (bindingsClosed bindings { counts with bindings := counts.bindings + bindings.length }).regroup
        rfl (by simp [Op.layout]) (by simp +contextual [Op.layout]) (by simp [Op.layout])
  | .call _ bindings, counts =>
      (bindingsClosed bindings { counts with bindings := counts.bindings + bindings.length }).regroup
        rfl (by simp [Op.layout]) (by simp +contextual [Op.layout]) (by simp [Op.layout])
  | .forEach _ body, counts => loop_closed (body.closed counts) rfl
  | .optionalOp _ body, counts => loop_closed (body.closed counts) rfl

theorem opsClosed : ∀ (ops : List Op) (counts : Counts),
    Closed (opsLayout ops counts).1 [] (opsLayout ops counts).2 counts
  | [], _ => ⟨by simp [opsLayout], by simp [opsLayout]⟩
  | op :: rest, counts => (op.closed counts).append (opsClosed rest _)

theorem Binding.closed : ∀ (binding : Binding) (counts : Counts),
    Closed [] [(binding.layout counts).1] (binding.layout counts).2 counts
  | .direct .., _ => ⟨by simp [Binding.layout], by simp [Binding.layout]⟩
  | .hook .., _ => ⟨by simp [Binding.layout], by simp [Binding.layout]⟩
  | .nested _ body, counts => by
      refine ⟨(body.closed counts).ops, ?_⟩
      intro other member kind index here
      rcases List.mem_cons.mp member with rfl | member
      · have same : counts.root (body.layout counts) = index := Int.ofNat.inj here
        rw [← same]
        exact root_holds body counts
      · exact (body.closed counts).bindings other member kind index here

theorem bindingsClosed : ∀ (bindings : List Binding) (counts : Counts),
    Closed [] (bindingsLayout bindings counts).1 (bindingsLayout bindings counts).2 counts
  | [], _ => ⟨by simp [bindingsLayout], by simp [bindingsLayout]⟩
  | binding :: rest, counts => (binding.closed counts).append (bindingsClosed rest _)

end

/-! A body owns exactly the rows of its own layout. -/

theorem mem_of_within {α : Type} {rows whole : List α} {start position : Nat} {row : α}
    (within : rows <+: whole.drop start) (lower : start ≤ position)
    (upper : position < start + rows.length) (found : whole[position]? = some row) : row ∈ rows := by
  have here := getElem?_of_within within (show position - start < _ by omega)
  rw [Nat.add_sub_cancel' lower, found] at here
  exact List.mem_of_getElem? here.symm

theorem exists_of_within {α : Type} {rows whole : List α} {start : Nat} {row : α}
    (within : rows <+: whole.drop start) (member : row ∈ rows) :
    ∃ position, start ≤ position ∧ position < start + rows.length ∧
      whole[position]? = some row := by
  obtain ⟨index, bound, rfl⟩ := List.mem_iff_getElem.mp member
  refine ⟨start + index, by omega, by omega, ?_⟩
  rw [getElem?_of_within within bound, List.getElem?_eq_getElem bound]

section Owned

variable (tree : Body) (within : (tree.layout counts).Within flat counts)
include within

/-- The rows of a layout nest only bodies of the layout. -/
theorem holds_inside {outer inner : Nat} (inside : counts.Holds (tree.layout counts) outer)
    (holds : Holds flat outer inner) : counts.Holds (tree.layout counts) inner := by
  obtain ⟨range, position, row, isRange, at_, found, nests⟩ := holds
  have member := mem_of_within within.bodies inside.1 inside.2 isRange
  have place := (tree.opsTiled counts).within member at_
  have rowMember := mem_of_within within.ops place.1 place.2 found
  cases nests with
  | own kind nested => exact (tree.closed counts).ops row rowMember kind inner nested
  | bound kind inRange bindingFound nestedKind nested =>
      have bindPlace := (tree.bindingsTiled counts).within
        (List.mem_map_of_mem (f := OpRow.bindRange) rowMember) inRange
      have bindMember := mem_of_within within.bindings bindPlace.1 bindPlace.2 bindingFound
      exact (tree.closed counts).bindings _ bindMember nestedKind inner nested

theorem reached_inside {index : Nat}
    (path : Relation.ReflTransGen (Holds flat) (counts.root (tree.layout counts)) index) :
    counts.Holds (tree.layout counts) index := by
  induction path with
  | refl => exact root_holds tree counts
  | tail _ step ih => exact holds_inside tree within ih step

theorem ownsOp_iff {position : Nat} :
    OwnsOp flat (counts.root (tree.layout counts)) position ↔
      counts.ops ≤ position ∧ position < counts.ops + (tree.layout counts).ops.length := by
  constructor
  · rintro ⟨body, range, path, isRange, inside⟩
    have holds := reached_inside tree within path
    have member := mem_of_within within.bodies holds.1 holds.2 isRange
    exact (tree.opsTiled counts).within member inside
  · rintro ⟨lower, upper⟩
    obtain ⟨range, member, inside⟩ := (tree.opsTiled counts).exists_mem lower upper
    obtain ⟨body, low, high, found⟩ := exists_of_within within.bodies member
    exact ⟨body, range, tree.reached within ⟨low, high⟩, found, inside⟩

theorem ownsBinding_iff {position : Nat} :
    OwnsBinding flat (counts.root (tree.layout counts)) position ↔
      counts.bindings ≤ position ∧
        position < counts.bindings + (tree.layout counts).bindings.length := by
  constructor
  · rintro ⟨op, row, owned, found, inside⟩
    have place := (ownsOp_iff tree within).mp owned
    have member := mem_of_within within.ops place.1 place.2 found
    exact (tree.bindingsTiled counts).within (List.mem_map_of_mem (f := OpRow.bindRange) member) inside
  · rintro ⟨lower, upper⟩
    obtain ⟨range, member, inside⟩ := (tree.bindingsTiled counts).exists_mem lower upper
    obtain ⟨row, rowMember, rfl⟩ := List.mem_map.mp member
    obtain ⟨op, low, high, found⟩ := exists_of_within within.ops rowMember
    exact ⟨op, row, (ownsOp_iff tree within).mpr ⟨low, high⟩, found, inside⟩

end Owned

/-! The package. -/

/-- Each position holds the number of the segment that it lies in. -/
structure Stamped (stamps : List Int) (segments : List (Nat × Nat)) (total : Nat) : Prop where
  total : stamps.length = total
  stamped : ∀ position segment : Nat, stamps[position]? = some (segment : Int) ↔
    ∃ range, segments[segment]? = some range ∧ position ∈ span range
  known : ∀ stamp ∈ stamps, ∃ segment : Nat, stamp = segment

theorem getElem?_snoc {α : Type} {rows : List α} {last row : α} {index : Nat} :
    (rows ++ [last])[index]? = some row ↔
      rows[index]? = some row ∨ index = rows.length ∧ row = last := by
  by_cases old : index < rows.length
  · rw [List.getElem?_append_left old]
    simp [Nat.ne_of_lt old]
  · rw [List.getElem?_append_right (by omega), List.getElem?_eq_none (Nat.le_of_not_lt old)]
    by_cases new : index = rows.length
    · simp [new, eq_comm]
    · have past : ∃ more, index - rows.length = more + 1 := ⟨index - rows.length - 1, by omega⟩
      obtain ⟨more, isMore⟩ := past
      simp [isMore, new]

theorem Stamped.snoc {stamps : List Int} {segments : List (Nat × Nat)} {total : Nat}
    (stamped : Stamped stamps segments total) (more : Nat) :
    Stamped (stamps ++ List.replicate more (segments.length : Int))
      (segments ++ [(total, total + more)]) (total + more) where
  total := by simp [stamped.total]
  stamped position segment := by
    simp only [getElem?_snoc]
    by_cases before : position < total
    · rw [List.getElem?_append_left (by rw [stamped.total]; exact before),
        stamped.stamped position segment]
      constructor
      · rintro ⟨range, found, inside⟩
        exact ⟨range, .inl found, inside⟩
      · rintro ⟨range, found | ⟨-, rfl⟩, inside⟩
        · exact ⟨range, found, inside⟩
        · have := (mem_span.mp inside).1
          omega
    · rw [List.getElem?_append_right (by rw [stamped.total]; omega), stamped.total,
        List.getElem?_replicate]
      constructor
      · intro here
        by_cases inside : position - total < more
        · have same : segments.length = segment := by simpa [inside] using here
          exact ⟨_, .inr ⟨same.symm, rfl⟩, mem_span.mpr ⟨by omega, by omega⟩⟩
        · simp [inside] at here
      · rintro ⟨range, found | ⟨rfl, rfl⟩, inside⟩
        · have there := (stamped.stamped position segment).mpr ⟨range, found, inside⟩
          obtain ⟨bound, -⟩ := List.getElem?_eq_some_iff.mp there
          have := stamped.total
          omega
        · have upper := (mem_span.mp inside).2
          simp [show position - total < more by omega]
  known stamp member := by
    rcases List.mem_append.mp member with old | new
    · exact stamped.known stamp old
    · exact ⟨segments.length, List.eq_of_mem_replicate new⟩

abbrev Placed := Counts × Body

def Placed.rows (place : Placed) : Rows := place.2.layout place.1

def Placed.root (place : Placed) : Nat := place.1.root place.rows

def Placed.opSegment (place : Placed) : Nat × Nat :=
  (place.1.ops, place.1.ops + place.rows.ops.length)

def Placed.bindingSegment (place : Placed) : Nat × Nat :=
  (place.1.bindings, place.1.bindings + place.rows.bindings.length)

/-- The arrays after some recipes, each at the place where its rows were appended. -/
structure Sound (flat : Flattener) (placed : List Placed) : Prop where
  within : ∀ place ∈ placed, place.rows.Within flat place.1
  opsTiled : Tiles flat.bodies 0 flat.ops.length
  bindingsTiled : Tiles (flat.ops.map OpRow.bindRange) 0 flat.bindings.length
  opStamps : Stamped flat.opRecipe (placed.map Placed.opSegment) flat.ops.length
  bindingStamps : Stamped flat.bindingRecipe (placed.map Placed.bindingSegment) flat.bindings.length

theorem sound_empty : Sound {} [] where
  within := by simp
  opsTiled := tiles_nil 0
  bindingsTiled := tiles_nil 0
  opStamps := ⟨rfl, by simp, by simp⟩
  bindingStamps := ⟨rfl, by simp, by simp⟩

/-- The next recipe's rows keep the arrays sound. -/
theorem Sound.grow {flat : Flattener} {placed : List Placed} (sound : Sound flat placed)
    (tree : Body) : Sound ({ flat with cur := placed.length }.grow (tree.layout flat.counts))
      (placed ++ [(flat.counts, tree)]) where
  within place member := by
    rcases List.mem_append.mp member with old | new
    · have here := sound.within place old
      have moved : (place.2.layout place.1).Within { flat with cur := placed.length } place.1 :=
        ⟨here.bodies, here.ops, here.bindings⟩
      exact moved.grow _
    · obtain rfl := List.mem_singleton.mp new
      exact within_grow { flat with cur := placed.length } _
  opsTiled := by
    have joined := sound.opsTiled.append (tree.opsTiled flat.counts)
    simpa [Flattener.grow, Flattener.counts] using joined
  bindingsTiled := by
    have joined := sound.bindingsTiled.append (tree.bindingsTiled flat.counts)
    simpa [Flattener.grow, Flattener.counts] using joined
  opStamps := by
    have next := sound.opStamps.snoc (tree.layout flat.counts).ops.length
    simpa [Flattener.grow, Placed.opSegment, Placed.rows, Flattener.counts] using next
  bindingStamps := by
    have next := sound.bindingStamps.snoc (tree.layout flat.counts).bindings.length
    simpa [Flattener.grow, Placed.bindingSegment, Placed.rows, Flattener.counts] using next

theorem flattenRecipes_sound {d : Dict} {fuel : Nat} (recipes : List PyJson) {flat : Flattener}
    {placed : List Placed} (sound : Sound flat placed) :
    Ensures always (flattenRecipes d fuel placed.length recipes) flat fun indices after =>
      ∃ more : List Placed, Sound after (placed ++ more) ∧ indices = more.map Placed.root ∧
        List.Forall₂ (fun ref (place : Placed) => place.2.Said d ref) recipes more := by
  induction recipes generalizing flat placed with
  | nil => exact ensures_pure ⟨[], by simpa using sound, rfl, .nil⟩
  | cons ref rest ih =>
      refine ensures_bind (ensures_modify ?_)
      refine ensures_bind ((body_lays fuel ref _).imp fun index middle laid => ?_)
      obtain ⟨tree, said, rfl, rfl⟩ := laid
      have later := ih (sound.grow tree)
      rw [List.length_append] at later
      refine ensures_bind (later.imp fun indices after done => ?_)
      obtain ⟨more, whole, rfl, all⟩ := done
      refine ensures_pure ⟨(flat.counts, tree) :: more, by simpa using whole, rfl, .cons said all⟩

/-- What a package's flat arrays say of the recipes that they were flattened from. -/
structure Lossless (d : Dict) (recipes : List PyJson) (indices : List Nat) (flat : Flattener) :
    Prop where
  indexed : indices.length = recipes.length
  rebuilt : ∀ (recipe : Nat) ref index, recipes[recipe]? = some ref →
    indices[recipe]? = some index →
      ∃ tree : Body, tree.Said d ref ∧ (∀ other : Body, other.Said d ref → other = tree) ∧
        flat.rebuild index = some tree
  opRanges : Tiles flat.bodies 0 flat.ops.length
  bindingRanges : Tiles (flat.ops.map OpRow.bindRange) 0 flat.bindings.length
  opStamps : flat.opRecipe.length = flat.ops.length ∧
    ∀ position < flat.ops.length, ∃ recipe : Nat, flat.opRecipe[position]? = some (recipe : Int) ∧
      ∀ other : Nat, (∃ index, indices[other]? = some index ∧ OwnsOp flat index position) ↔
        other = recipe
  bindingStamps : flat.bindingRecipe.length = flat.bindings.length ∧
    ∀ position < flat.bindings.length, ∃ recipe : Nat,
      flat.bindingRecipe[position]? = some (recipe : Int) ∧
        ∀ other : Nat, (∃ index, indices[other]? = some index ∧ OwnsBinding flat index position) ↔
          other = recipe

theorem Stamped.owner {stamps : List Int} {placed : List Placed} {total : Nat}
    {segment : Placed → Nat × Nat} {owns : Nat → Nat → Prop}
    (stamped : Stamped stamps (placed.map segment) total)
    (owned : ∀ place ∈ placed, ∀ position, owns place.root position ↔ position ∈ span (segment place))
    {position : Nat} (bound : position < total) : ∃ recipe : Nat,
      stamps[position]? = some (recipe : Int) ∧
        ∀ other : Nat, (∃ index, (placed.map Placed.root)[other]? = some index ∧
          owns index position) ↔ other = recipe := by
  have inside : position < stamps.length := by rw [stamped.total]; exact bound
  obtain ⟨recipe, isRecipe⟩ := stamped.known _ (List.getElem_mem inside)
  have found : stamps[position]? = some (recipe : Int) := by
    rw [List.getElem?_eq_getElem inside, isRecipe]
  refine ⟨recipe, found, fun other => ?_⟩
  constructor
  · rintro ⟨index, isIndex, own⟩
    rw [List.getElem?_map, Option.map_eq_some_iff] at isIndex
    obtain ⟨place, isPlace, rfl⟩ := isIndex
    have there := (owned place (List.mem_of_getElem? isPlace) position).mp own
    have stamp := (stamped.stamped position other).mpr
      ⟨segment place, by rw [List.getElem?_map, isPlace]; rfl, there⟩
    rw [found] at stamp
    exact (Int.ofNat.inj (Option.some.inj stamp)).symm
  · rintro rfl
    obtain ⟨range, isRange, there⟩ := (stamped.stamped position other).mp found
    rw [List.getElem?_map, Option.map_eq_some_iff] at isRange
    obtain ⟨place, isPlace, rfl⟩ := isRange
    exact ⟨place.root, by rw [List.getElem?_map, isPlace]; rfl,
      (owned place (List.mem_of_getElem? isPlace) position).mpr there⟩

/-- Flattening loses nothing: every tree is rebuilt from its index, the ranges tile the arrays, and
each row carries the one recipe that reaches it. -/
theorem flattening_lossless (d : Dict) (fuel : Nat) (recipes : List PyJson) (indices : List Nat)
    (flat : Flattener) (accepted : flattenRecipes d fuel 0 recipes {} = .ok (indices, flat)) :
    Lossless d recipes indices flat := by
  obtain ⟨placed, sound, rfl, said⟩ := (flattenRecipes_sound recipes sound_empty).of_ok accepted
  rw [List.nil_append] at sound
  refine ⟨by rw [List.length_map, said.length_eq], ?_, sound.opsTiled, sound.bindingsTiled,
    ⟨sound.opStamps.total, fun position bound => sound.opStamps.owner ?_ bound⟩,
    sound.bindingStamps.total, fun position bound => sound.bindingStamps.owner ?_ bound⟩
  · intro recipe ref index isRef isIndex
    rw [List.getElem?_map, Option.map_eq_some_iff] at isIndex
    obtain ⟨place, isPlace, rfl⟩ := isIndex
    have here : place.2.Said d ref := by
      obtain ⟨bound, atRef⟩ := List.getElem?_eq_some_iff.mp isRef
      obtain ⟨bound', atPlace⟩ := List.getElem?_eq_some_iff.mp isPlace
      have both := said.get bound bound'
      simpa [atRef, atPlace] using both
    have member := List.mem_of_getElem? isPlace
    refine ⟨place.2, here, fun other there => there.unique d here, ?_⟩
    have some := layout_bodies_pos place.2 place.1
    exact place.2.rebuilt (sound.within place member)
      (by simp only [Placed.root, Placed.rows, Counts.root]; omega)
  · intro place member position
    rw [mem_span]
    exact ownsOp_iff place.2 (sound.within place member)
  · intro place member position
    rw [mem_span]
    exact ownsBinding_iff place.2 (sound.within place member)

def named (name : String) : PyJson := .dict [("kind", .str "def"), ("def", .str name)]

/-- A block that nests a loop over leaves, beside a recipe for the leaf alone. -/
def sampleRecords : Dict :=
  [("block", .dict [("OpKind", .str "Emit"), ("Node", .str "Block"),
      ("Bindings", .list [named "items", named "memo"])]),
    ("items", .dict [("BindKind", .str "Nested"), ("Field", .str "items"),
      ("Body", named "legs")]),
    ("leaf", .dict [("OpKind", .str "Emit"), ("Node", .str "Leaf"),
      ("Bindings", .list [named "memo"])]),
    ("leaves", .dict [("Ops", .list [named "leaf"])]),
    ("legs", .dict [("Ops", .list [named "loop", named "leaf"])]),
    ("loop", .dict [("OpKind", .str "ForEach"), ("Slot", .str "leg"), ("Body", named "leaves")]),
    ("memo", .dict [("BindKind", .str "Direct"), ("Field", .str "memo"),
      ("Input", .str "leg.memo")]),
    ("root", .dict [("Ops", .list [named "block"])])]

theorem flattening_lossless_sample : ∃ flat,
    flattenRecipes sampleRecords 3 0 [named "root", named "leaves"] {} = .ok ([2, 3], flat) ∧
      Lossless sampleRecords [named "root", named "leaves"] [2, 3] flat :=
  ⟨_, rfl, flattening_lossless _ 3 _ _ _ rfl⟩

end RecipeFlattening

end Neutrino
