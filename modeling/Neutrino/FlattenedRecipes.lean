import Neutrino.RecipeLayout

/-! The flattener appends the layout of the tree that the records say. -/

namespace Neutrino

open PyJson (Dict)
open Recipe (OpKind BindKind)
open Stateful

namespace RecipeFlattening

def Flattener.counts (flat : Flattener) : Counts where
  bodies := flat.bodies.length
  ops := flat.ops.length
  bindings := flat.bindings.length

/-- New rows at the ends, stamped with the current recipe. -/
def Flattener.grow (flat : Flattener) (rows : Rows) : Flattener where
  bodies := flat.bodies ++ rows.bodies
  ops := flat.ops ++ rows.ops
  bindings := flat.bindings ++ rows.bindings
  opRecipe := flat.opRecipe ++ List.replicate rows.ops.length flat.cur
  bindingRecipe := flat.bindingRecipe ++ List.replicate rows.bindings.length flat.cur
  cur := flat.cur

@[simp] theorem grow_none (flat : Flattener) : flat.grow {} = flat := by
  simp [Flattener.grow]

theorem counts_grow (flat : Flattener) (rows : Rows) :
    (flat.grow rows).counts = flat.counts.past rows := by
  simp [Flattener.counts, Flattener.grow, Counts.past]

theorem counts_setBinding (flat : Flattener) (index : Nat) (change : BindingRow → BindingRow) :
    (flat.setBinding index change).counts = flat.counts := by
  simp [Flattener.counts, Flattener.setBinding]

theorem counts_setOp (flat : Flattener) (index : Nat) (change : OpRow → OpRow) :
    (flat.setOp index change).counts = flat.counts := by
  simp [Flattener.counts, Flattener.setOp]

theorem modify_at {α : Type} (before rest : List α) (row : α) (change : α → α) :
    (before ++ row :: rest).modify before.length change = before ++ change row :: rest := by
  induction before with
  | nil => rfl
  | cons first before ih => simpa using ih

/-! The first phase: rows in place of the operations and bindings of one level. -/

def numbered {α : Type} : Nat → List α → List (Nat × α)
  | _, [] => []
  | index, entry :: rest => (index, entry) :: numbered (index + 1) rest

def placeholder (entry : OpKind × Dict) : OpRow := { kind := entry.1 }

structure OpEntry (d : Dict) (ref : PyJson) (entry : OpKind × Dict) : Prop where
  record : derefRecord d ref = .ok entry.2
  named : ∃ name, item entry.2 "OpKind" = .ok (.str name) ∧ opKinds.lookup name = some entry.1

/-- A binding's row before its body is known, and the reference to that body. -/
structure BindingEntry (d : Dict) (ref : PyJson) (entry : BindingRow × Option PyJson) : Prop where
  record : ∃ b kind name, derefRecord d ref = .ok b ∧ item b "BindKind" = .ok (.str name) ∧
    bindKinds.lookup name = some kind ∧ bindingRow b kind = .ok entry.1 ∧
    if kind = .nested then ∃ body, item b "Body" = .ok body ∧ entry.2 = some body
    else entry.2 = none

/-- The deferred bodies of a level's bindings, under the indices of their rows. -/
def pending : Nat → List (BindingRow × Option PyJson) → List (Nat × PyJson)
  | _, [] => []
  | index, (_, some ref) :: rest => (index, ref) :: pending (index + 1) rest
  | index, (_, none) :: rest => pending (index + 1) rest

variable {d : Dict}

def always : Stop → Prop := fun _ => True

theorem ensures_reading {α : Type} {flat : Flattener} {result : Except Stop α}
    {post : α → Flattener → Prop} (passed : ∀ value, result = .ok value → post value flat) :
    Ensures always (check result) flat post :=
  ensures_check (fun _ _ => trivial) passed

theorem kindOf_ok {κ : Type} {table : List (String × κ)} {complaint : String} {value : PyJson}
    {kind : κ} : kindOf table complaint value = .ok kind ↔
      ∃ name, value = .str name ∧ table.lookup name = some kind := by
  cases value with
  | str name =>
      cases found : table.lookup name <;> simp [kindOf, found]
  | _ => simp [kindOf]

theorem appendOps_appends (refs : List PyJson) (flat : Flattener) :
    Ensures always (appendOps d refs) flat fun deferred after =>
      ∃ entries, List.Forall₂ (OpEntry d) refs entries ∧
        deferred = numbered flat.ops.length entries ∧
        after = flat.grow { ops := entries.map placeholder } := by
  induction refs generalizing flat with
  | nil => exact ensures_pure ⟨[], .nil, rfl, by simp⟩
  | cons ref rest ih =>
      refine ensures_bind (ensures_reading fun o record => ?_)
      refine ensures_bind (ensures_reading fun kind named => ?_)
      refine ensures_bind (ensures_get ?_)
      refine ensures_bind (ensures_modify ?_)
      refine ensures_bind ((ih _).imp fun deferred after grown => ?_)
      obtain ⟨entries, listed, rfl, rfl⟩ := grown
      refine ensures_pure ⟨(kind, o) :: entries, .cons ⟨record, ?_⟩ listed, ?_, ?_⟩
      · obtain ⟨value, found, isKind⟩ := Checked.bind_ok.mp named
        obtain ⟨name, rfl, known⟩ := kindOf_ok.mp isKind
        exact ⟨name, found, known⟩
      · simp [numbered, Flattener.pushOp]
      · simp [Flattener.pushOp, Flattener.grow, placeholder, List.replicate_succ]

theorem appendBindings_appends (refs : List PyJson) (flat : Flattener) :
    Ensures always (appendBindings d refs) flat fun deferred after =>
      ∃ entries, List.Forall₂ (BindingEntry d) refs entries ∧
        deferred = pending flat.bindings.length entries ∧
        after = flat.grow { bindings := entries.map Prod.fst } := by
  induction refs generalizing flat with
  | nil => exact ensures_pure ⟨[], .nil, rfl, by simp⟩
  | cons ref rest ih =>
      refine ensures_bind (ensures_reading fun b record => ?_)
      refine ensures_bind (ensures_reading fun kind named => ?_)
      refine ensures_bind (ensures_reading fun row built => ?_)
      refine ensures_bind (ensures_get ?_)
      refine ensures_bind (ensures_modify ?_)
      obtain ⟨value, found, isKind⟩ := Checked.bind_ok.mp named
      obtain ⟨name, rfl, known⟩ := kindOf_ok.mp isKind
      by_cases nested : kind = .nested
      · rw [if_pos nested]
        refine ensures_bind (ensures_reading fun body bodyFound => ?_)
        refine ensures_bind ((ih _).imp fun deferred after grown => ?_)
        obtain ⟨entries, listed, rfl, rfl⟩ := grown
        refine ensures_pure ⟨(row, some body) :: entries, .cons ⟨b, kind, name, record, found, known,
          built, ?_⟩ listed, ?_, ?_⟩
        · rw [if_pos nested]
          exact ⟨body, bodyFound, rfl⟩
        · simp [pending, Flattener.pushBinding]
        · simp [Flattener.pushBinding, Flattener.grow, List.replicate_succ]
      · rw [if_neg nested]
        refine (ih _).imp fun deferred after grown => ?_
        obtain ⟨entries, listed, rfl, rfl⟩ := grown
        refine ⟨(row, none) :: entries, .cons ⟨b, kind, name, record, found, known,
          built, ?_⟩ listed, ?_, ?_⟩
        · rw [if_neg nested]
        · simp [pending, Flattener.pushBinding]
        · simp [Flattener.pushBinding, Flattener.grow, List.replicate_succ]

theorem lookup_bindKinds {name : String} {kind : BindKind} (known : bindKinds.lookup name = some kind) :
    name = "Direct" ∧ kind = .direct ∨ name = "Hook" ∧ kind = .hook ∨
      name = "Nested" ∧ kind = .nested := by
  obtain ⟨_, _, split, -⟩ := List.lookup_eq_some_iff.mp known
  have member : (name, kind) ∈ bindKinds := by
    rw [split]
    exact List.mem_append_right _ List.mem_cons_self
  simpa [bindKinds] using member

theorem BindingEntry.cases {ref : PyJson} {row : BindingRow} {deferred : Option PyJson}
    (entry : BindingEntry d ref (row, deferred)) : ∃ b, derefRecord d ref = .ok b ∧
      ((∃ binding : Binding, binding.Said d b ∧ (∀ counts, binding.layout counts = (row, {})) ∧
          deferred = none) ∨
        ∃ field nested, (∀ tree : Body, tree.Said d nested → (Binding.nested field tree).Said d b) ∧
          row = { kind := .nested, field } ∧ deferred = some nested) := by
  obtain ⟨b, kind, name, record, found, known, built, body⟩ := entry.record
  refine ⟨b, record, ?_⟩
  obtain ⟨field, named, built⟩ := Checked.bind_ok.mp built
  obtain ⟨rfl, rfl⟩ | ⟨rfl, rfl⟩ | ⟨rfl, rfl⟩ := lookup_bindKinds known
  · obtain ⟨input, read, done⟩ := Checked.bind_ok.mp built
    exact .inl ⟨.direct field input, ⟨found, named, read⟩,
      fun _ => congrArg (·, ({} : Rows)) (Checked.pure_ok.mp done), body⟩
  · obtain ⟨hookId, hooked, built⟩ := Checked.bind_ok.mp built
    obtain ⟨input, read, done⟩ := Checked.bind_ok.mp built
    exact .inl ⟨.hook field hookId input, ⟨found, named, hooked, read⟩,
      fun _ => congrArg (·, ({} : Rows)) (Checked.pure_ok.mp done), body⟩
  · obtain ⟨nested, read, deferred⟩ := body
    exact .inr ⟨field, nested, fun tree said => ⟨found, named, nested, read, said⟩,
      (Checked.pure_ok.mp built).symm, deferred⟩

/-! The second phase: the deferred bodies, each after all that is already there. -/

/-- The rows of the tree behind a reference were appended, and its own index returned. -/
def Laid (d : Dict) (ref : PyJson) (flat : Flattener) (index : Nat) (after : Flattener) : Prop :=
  ∃ tree : Body, tree.Said d ref ∧ after = flat.grow (tree.layout flat.counts) ∧
    index = flat.counts.root (tree.layout flat.counts)

variable {body : PyJson → Flatten Nat}

theorem bindingsSaid_length {bindings : List Binding} {refs : List PyJson}
    (said : bindingsSaid d bindings refs) : bindings.length = refs.length := by
  induction bindings generalizing refs with
  | nil => simp [show refs = [] from said]
  | cons binding rest ih =>
      obtain ⟨ref, later, b, rfl, -, -, inner⟩ := said
      simp [ih inner]

theorem opsSaid_length {ops : List Op} {refs : List PyJson}
    (said : opsSaid d ops refs) : ops.length = refs.length := by
  induction ops generalizing refs with
  | nil => simp [show refs = [] from said]
  | cons op rest ih =>
      obtain ⟨ref, later, o, rfl, -, -, inner⟩ := said
      simp [ih inner]

theorem bindingsLayout_length (bindings : List Binding) (counts : Counts) :
    (bindingsLayout bindings counts).1.length = bindings.length := by
  induction bindings generalizing counts with
  | nil => rfl
  | cons binding rest ih => simp [bindingsLayout, ih]

theorem opsLayout_length (ops : List Op) (counts : Counts) :
    (opsLayout ops counts).1.length = ops.length := by
  induction ops generalizing counts with
  | nil => rfl
  | cons op rest ih => simp [opsLayout, ih]

theorem resolveBindings_lays
    (lays : ∀ ref flat, Ensures always (body ref) flat (Laid d ref flat))
    {refs : List PyJson} {entries : List (BindingRow × Option PyJson)}
    (listed : List.Forall₂ (BindingEntry d) refs entries) (flat : Flattener)
    (before tail : List BindingRow)
    (shape : flat.bindings = before ++ entries.map Prod.fst ++ tail) :
    Ensures always (resolveBindings body (pending before.length entries)) flat fun _ after =>
      ∃ bindings, bindingsSaid d bindings refs ∧
        after = { flat.grow (bindingsLayout bindings flat.counts).2 with
          bindings := before ++ (bindingsLayout bindings flat.counts).1 ++ tail ++
            (bindingsLayout bindings flat.counts).2.bindings } := by
  induction listed generalizing flat before tail with
  | nil =>
      refine ensures_pure ⟨[], rfl, ?_⟩
      cases flat
      simp_all [bindingsLayout, Flattener.grow]
  | @cons ref entry rest entries known listed ih =>
      obtain ⟨row, deferred⟩ := entry
      obtain ⟨b, record, ⟨binding, said, laid, rfl⟩ | ⟨field, nested, said, rfl, rfl⟩⟩ := known.cases
      · have next := ih flat (before ++ [row]) tail (by simp [shape])
        rw [List.length_append] at next
        refine next.imp fun _ after grown => ?_
        obtain ⟨bindings, later, rfl⟩ := grown
        exact ⟨binding :: bindings, ⟨ref, rest, b, rfl, record, said, later⟩,
          by simp [bindingsLayout, laid, Rows.append, Counts.past]⟩
      · refine ensures_bind ((lays nested flat).imp fun index middle grown => ?_)
        obtain ⟨tree, meant, rfl, rfl⟩ := grown
        refine ensures_bind (ensures_modify ?_)
        have next := ih ((flat.grow (tree.layout flat.counts)).setBinding before.length
            fun row => { row with nestedBody := flat.counts.root (tree.layout flat.counts) })
          (before ++ [((Binding.nested field tree).layout flat.counts).1])
          (tail ++ (tree.layout flat.counts).bindings)
          (by simp [shape, Flattener.setBinding, Flattener.grow, modify_at, Binding.layout])
        rw [List.length_append] at next
        refine next.imp fun _ after grown => ?_
        obtain ⟨bindings, later, rfl⟩ := grown
        refine ⟨.nested field tree :: bindings, ⟨ref, rest, b, rfl, record, said tree meant, later⟩, ?_⟩
        simp only [counts_setBinding, counts_grow]
        simp [bindingsLayout, Rows.append, Binding.layout, Flattener.grow, Flattener.setBinding]

theorem bindingsOf_lays
    (lays : ∀ ref flat, Ensures always (body ref) flat (Laid d ref flat)) (binds : PyJson)
    (flat : Flattener) :
    Ensures always (bindingsOf d body binds) flat fun range after =>
      ∃ bindings refs, iterate binds = .ok refs ∧ bindingsSaid d bindings refs ∧
        range = (flat.bindings.length, flat.bindings.length + bindings.length) ∧
        after = flat.grow { (bindingsLayout bindings
            { flat.counts with bindings := flat.bindings.length + bindings.length }).2 with
          bindings := (bindingsLayout bindings
              { flat.counts with bindings := flat.bindings.length + bindings.length }).1 ++
            (bindingsLayout bindings
              { flat.counts with bindings := flat.bindings.length + bindings.length }).2.bindings } := by
  refine ensures_bind (ensures_get ?_)
  refine ensures_bind (ensures_reading fun refs iterated => ?_)
  refine ensures_bind ((appendBindings_appends refs flat).imp fun deferred middle grown => ?_)
  obtain ⟨entries, listed, rfl, rfl⟩ := grown
  refine ensures_bind (ensures_get ?_)
  refine ensures_bind ((resolveBindings_lays lays listed _ flat.bindings []
    (by simp [Flattener.grow])).imp fun _ after grown => ?_)
  obtain ⟨bindings, said, rfl⟩ := grown
  have same : bindings.length = entries.length :=
    (bindingsSaid_length said).trans listed.length_eq
  refine ensures_pure ⟨bindings, refs, iterated, said, ?_, ?_⟩
  · simp [Flattener.grow, same]
  · simp only [counts_grow]
    simp [Flattener.grow, Counts.past, Flattener.counts, same, bindingsLayout_length]

theorem lookup_opKinds {name : String} {kind : OpKind} (known : opKinds.lookup name = some kind) :
    name = "Emit" ∧ kind = .emit ∨ name = "ForEach" ∧ kind = .forEach ∨
      name = "Optional" ∧ kind = .optionalOp ∨ name = "Call" ∧ kind = .call := by
  obtain ⟨_, _, split, -⟩ := List.lookup_eq_some_iff.mp known
  have member : (name, kind) ∈ opKinds := by
    rw [split]
    exact List.mem_append_right _ List.mem_cons_self
  simpa [opKinds] using member

/-- The row of one operation is completed where it stands, what it nests is appended. -/
def Resolved (op : Op) (flat : Flattener) (before rest : List OpRow) (after : Flattener) : Prop :=
  after = { flat.grow (op.layout flat.counts).2 with
    ops := before ++ (op.layout flat.counts).1 :: (rest ++ (op.layout flat.counts).2.ops) }

/-- The rows of an operation's bindings, and where they stand. -/
def boundLayout (bindings : List Binding) (counts : Counts) : (Nat × Nat) × Rows :=
  let range := (counts.bindings, counts.bindings + bindings.length)
  let inner := bindingsLayout bindings { counts with bindings := range.2 }
  (range, { inner.2 with bindings := inner.1 ++ inner.2.bindings })

theorem resolveRange_lays
    (lays : ∀ ref flat, Ensures always (body ref) flat (Laid d ref flat)) (o : Dict)
    (flat : Flattener) (before rest : List OpRow) (row : OpRow)
    (shape : flat.ops = before ++ row :: rest) :
    Ensures always (resolveRange d body before.length o) flat fun _ after =>
      ∃ bindings refs, iterate (getList o "Bindings") = .ok refs ∧ bindingsSaid d bindings refs ∧
        after = { flat.grow (boundLayout bindings flat.counts).2 with
          ops := before ++ { row with
              bb := (boundLayout bindings flat.counts).1.1
              be := (boundLayout bindings flat.counts).1.2 } ::
            (rest ++ (boundLayout bindings flat.counts).2.ops) } := by
  refine ensures_bind ((bindingsOf_lays lays _ flat).imp fun range middle grown => ?_)
  obtain ⟨bindings, refs, iterated, said, rfl, rfl⟩ := grown
  refine ensures_modify ⟨bindings, refs, iterated, said, ?_⟩
  simp [boundLayout, Flattener.counts, Flattener.grow, Flattener.setOp, shape, modify_at]

theorem resolveOp_lays
    (lays : ∀ ref flat, Ensures always (body ref) flat (Laid d ref flat)) {ref : PyJson}
    {kind : OpKind} {o : Dict} (entry : OpEntry d ref (kind, o)) (flat : Flattener)
    (before rest : List OpRow) (shape : flat.ops = before ++ { kind } :: rest) :
    Ensures always (resolveOp d body before.length kind o) flat fun _ after =>
      ∃ op : Op, op.Said d o ∧ Resolved op flat before rest after := by
  obtain ⟨name, found, known⟩ := entry.named
  obtain ⟨rfl, rfl⟩ | ⟨rfl, rfl⟩ | ⟨rfl, rfl⟩ | ⟨rfl, rfl⟩ := lookup_opKinds known
  · refine ensures_bind (ensures_reading fun node nodeFound => ?_)
    refine ensures_bind (ensures_modify ?_)
    refine (resolveRange_lays lays o _ before rest { kind := .emit, node }
      (by simp [Flattener.setOp, shape, modify_at])).imp fun _ after grown => ?_
    obtain ⟨bindings, refs, iterated, said, rfl⟩ := grown
    refine ⟨.emit node bindings, ⟨found, nodeFound, refs, iterated, said⟩, ?_⟩
    rw [Resolved, counts_setOp]
    simp [Op.layout, boundLayout, Flattener.grow, Flattener.setOp]
  · refine ensures_bind (ensures_reading fun slot slotFound => ?_)
    refine ensures_bind (ensures_modify ?_)
    refine ensures_bind (ensures_reading fun ref bodyFound => ?_)
    refine ensures_bind ((lays ref _).imp fun index middle grown => ?_)
    obtain ⟨tree, said, rfl, rfl⟩ := grown
    refine ensures_modify ⟨.forEach slot tree, ⟨found, slotFound, ref, bodyFound, said⟩, ?_⟩
    rw [Resolved, counts_setOp]
    simp [Op.layout, Flattener.grow, Flattener.setOp, shape, modify_at]
  · refine ensures_bind (ensures_reading fun slot slotFound => ?_)
    refine ensures_bind (ensures_modify ?_)
    refine ensures_bind (ensures_reading fun ref bodyFound => ?_)
    refine ensures_bind ((lays ref _).imp fun index middle grown => ?_)
    obtain ⟨tree, said, rfl, rfl⟩ := grown
    refine ensures_modify ⟨.optionalOp slot tree, ⟨found, slotFound, ref, bodyFound, said⟩, ?_⟩
    rw [Resolved, counts_setOp]
    simp [Op.layout, Flattener.grow, Flattener.setOp, shape, modify_at]
  · refine ensures_bind (ensures_reading fun recipeId idFound => ?_)
    refine ensures_bind (ensures_modify ?_)
    refine (resolveRange_lays lays o _ before rest { kind := .call, recipeId }
      (by simp [Flattener.setOp, shape, modify_at])).imp fun _ after grown => ?_
    obtain ⟨bindings, refs, iterated, said, rfl⟩ := grown
    refine ⟨.call recipeId bindings, ⟨found, idFound, refs, iterated, said⟩, ?_⟩
    rw [Resolved, counts_setOp]
    simp [Op.layout, boundLayout, Flattener.grow, Flattener.setOp]

theorem resolveOps_lays
    (lays : ∀ ref flat, Ensures always (body ref) flat (Laid d ref flat))
    {refs : List PyJson} {entries : List (OpKind × Dict)}
    (listed : List.Forall₂ (OpEntry d) refs entries) (flat : Flattener) (before tail : List OpRow)
    (shape : flat.ops = before ++ entries.map placeholder ++ tail) :
    Ensures always (resolveOps d body (numbered before.length entries)) flat fun _ after =>
      ∃ ops, opsSaid d ops refs ∧
        after = { flat.grow (opsLayout ops flat.counts).2 with
          ops := before ++ (opsLayout ops flat.counts).1 ++ tail ++
            (opsLayout ops flat.counts).2.ops } := by
  induction listed generalizing flat before tail with
  | nil =>
      refine ensures_pure ⟨[], rfl, ?_⟩
      cases flat
      simp_all [opsLayout, Flattener.grow]
  | @cons ref entry rest entries known listed ih =>
      refine ensures_bind ((resolveOp_lays lays known _ before
        (entries.map placeholder ++ tail) (by simp [shape, placeholder])).imp
          fun _ middle grown => ?_)
      obtain ⟨op, said, rfl⟩ := grown
      have next := ih { flat.grow (op.layout flat.counts).2 with
          ops := before ++ (op.layout flat.counts).1 :: (entries.map placeholder ++ tail ++
            (op.layout flat.counts).2.ops) }
        (before ++ [(op.layout flat.counts).1]) (tail ++ (op.layout flat.counts).2.ops) (by simp)
      rw [List.length_append] at next
      refine next.imp fun _ after grown => ?_
      obtain ⟨ops, later, rfl⟩ := grown
      refine ⟨op :: ops, ⟨ref, rest, entry.2, rfl, known.record, said, later⟩, ?_⟩
      have past : ({ flat.grow (op.layout flat.counts).2 with
          ops := before ++ (op.layout flat.counts).1 :: (entries.map placeholder ++ tail ++
            (op.layout flat.counts).2.ops) } : Flattener).counts =
          flat.counts.past (op.layout flat.counts).2 := by
        simp [Flattener.counts, Flattener.grow, Counts.past, shape]
        omega
      rw [past]
      simp [opsLayout, Rows.append, Flattener.grow]

/-- A body that the flattener accepts is said by the records, and its layout is what it appends. -/
theorem body_lays (fuel : Nat) (ref : PyJson) (flat : Flattener) :
    Ensures always (RecipeFlattening.body d fuel ref) flat (Laid d ref flat) := by
  induction fuel generalizing ref flat with
  | zero => exact ensures_throw trivial
  | succ fuel ih =>
      refine ensures_bind (ensures_reading fun seq record => ?_)
      by_cases filled : (getList seq "Ops").truthy
      · dsimp only
        rw [if_pos filled]
        refine ensures_bind (ensures_get ?_)
        refine ensures_bind (ensures_reading fun refs iterated => ?_)
        refine ensures_bind ((appendOps_appends refs flat).imp fun deferred middle grown => ?_)
        obtain ⟨entries, listed, rfl, rfl⟩ := grown
        refine ensures_bind (ensures_get ?_)
        refine ensures_bind ((resolveOps_lays ih listed _ flat.ops []
          (by simp [Flattener.grow])).imp fun _ after grown => ?_)
        obtain ⟨ops, said, rfl⟩ := grown
        refine ensures_bind (ensures_modify (ensures_bind (ensures_get (ensures_pure ?_))))
        have same : ops.length = entries.length := (opsSaid_length said).trans listed.length_eq
        refine ⟨.sequence ops, ⟨seq, refs, record, iterated, said⟩, ?_, ?_⟩
        · simp only [counts_grow]
          simp [Flattener.grow, Body.layout, Counts.past, Flattener.counts, same, opsLayout_length]
        · simp only [counts_grow]
          simp [Flattener.grow, Body.layout, Counts.past, Counts.root, Flattener.counts, same]
      · dsimp only
        rw [if_neg filled]
        exact ensures_throw trivial

end RecipeFlattening

end Neutrino
