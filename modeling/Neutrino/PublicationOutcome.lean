import Neutrino.ArtifactPublication

/-! What a publication leaves in the output root: all that stood there before, and where it
succeeds the artifacts and no other file. -/

namespace Neutrino.ArtifactPublication

open Checked Durable BackendProtocol BackendInvocation

/-! What stood in the root before. -/

/-- All that stood in one tree stands in another, and new files have new identities. -/
structure Kept (before after : Disk) : Prop where
  later : before.fresh ≤ after.fresh
  nodes : ∀ path node, before.node path = some node → after.node path = some node

theorem Kept.refl (disk : Disk) : Kept disk disk := ⟨le_rfl, fun _ _ found => found⟩

section Kept

variable {before disk : Disk}

theorem Kept.add (kept : Kept before disk) {directory : List String} {name : String} {node : Node}
    {fresh : Nat} (parent : disk.node directory = some .directory)
    (absent : disk.node (directory ++ [name]) = none) (later : disk.fresh ≤ fresh)
    (numbered : ∀ identity bytes, node = .file identity bytes → identity < fresh) :
    Kept before (disk.add directory name node fresh parent absent later numbered) where
  later := kept.later.trans later
  nodes path found held := by
    have different : path ≠ directory ++ [name] := by
      rintro rfl
      rw [kept.nodes _ _ held] at absent
      cases absent
    show (if path = directory ++ [name] then some node else disk.node path) = some found
    rw [if_neg different]
    exact kept.nodes path found held

/-- A file that is new may be written to. -/
theorem Kept.rewrite (kept : Kept before disk) {path : List String} {identity : Nat}
    {old bytes : List UInt8} (held : disk.node path = some (.file identity old))
    (new : before.fresh ≤ identity) :
    Kept before (disk.rewrite path identity old bytes held) where
  later := kept.later
  nodes other found present := by
    have different : other ≠ path := by
      rintro rfl
      rw [kept.nodes _ _ present] at held
      obtain rfl := Option.some.inj held
      have below := before.numbered _ _ _ present
      omega
    show (if other = path then some (.file identity bytes) else disk.node other) = some found
    rw [if_neg different]
    exact kept.nodes other found present

end Kept

section Frame

variable {system : System} {before : Disk} {α : Type}

/-- What stood before still stands after a run, and what the run returns is as described. -/
abbrev Keeps (before : Disk) (action : Publishing α) (returned : α → Prop) : Prop :=
  Maintains (fun world : World => Kept before world.disk) action returned

theorem keeps_systemCall {effect : Nat → Disk → Except Errno α × Disk} {returned : α → Prop}
    (keeps : ∀ call disk, Kept before disk → Kept before (effect call disk).2 ∧
      ∀ value, (effect call disk).1 = .ok value → returned value) :
    Keeps before (systemCall system effect) fun result =>
      ∀ value, result = .ok value → returned value := by
  intro world kept
  rw [systemCall, exec_act]
  cases system.fault world.calls with
  | some error =>
      refine ⟨kept, ?_⟩
      rintro _ same value rfl
      cases same
  | none =>
      obtain ⟨after, described⟩ := keeps world.calls world.disk kept
      refine ⟨after, ?_⟩
      rintro _ same value rfl
      exact described value (Except.ok.inj same)

theorem keeps_asks {value : α} :
    Keeps before (asks system value) fun result => ∀ value, result = .ok value → True :=
  keeps_systemCall fun _ _ kept => ⟨kept, fun _ _ => trivial⟩

theorem keeps_orFail {call : Publishing (Except Errno α)} {returned : α → Prop}
    {operation path : String}
    (keeps : Keeps before call fun result => ∀ value, result = .ok value → returned value) :
    Keeps before (orFail operation path call) returned := by
  refine keeps.bind fun result described => ?_
  cases result with
  | ok value => exact maintains_pure (described value rfl)
  | error error => exact maintains_throw _

theorem keeps_asked {operation path : String} {value : α} :
    Keeps before (orFail operation path (asks system value)) fun _ => True :=
  keeps_orFail keeps_asks

theorem keeps_mkdirat {directory : List String} {name : String} :
    Keeps before (mkdirat system directory name) fun result =>
      ∀ value, result = .ok value → True := by
  refine keeps_systemCall ?_
  intro call disk kept
  split_ifs with absent parent
  · exact ⟨kept.add parent absent le_rfl (by simp), fun _ _ => trivial⟩
  · exact ⟨kept, fun _ _ => trivial⟩
  · exact ⟨kept, fun _ _ => trivial⟩

/-- A file that is created is new. -/
theorem keeps_createFile {directory : List String} {name : String} :
    Keeps before (createFile system directory name) fun result =>
      ∀ file, result = .ok file → before.fresh ≤ file.identity := by
  refine keeps_systemCall ?_
  intro call disk kept
  split_ifs with absent parent
  · refine ⟨kept.add parent absent (Nat.le_succ _) (by simp), ?_⟩
    rintro file same
    obtain rfl := Except.ok.inj same
    exact kept.later
  · exact ⟨kept, fun file same => by cases same⟩
  · exact ⟨kept, fun file same => by cases same⟩

theorem keeps_openDirectory {path : List String} :
    Keeps before (openDirectory system path) fun result => ∀ value, result = .ok value → True := by
  refine keeps_systemCall fun call disk kept => ?_
  split <;> exact ⟨kept, fun _ _ => trivial⟩

theorem keeps_openFile {path : List String} :
    Keeps before (openFile system path) fun result => ∀ value, result = .ok value → True := by
  refine keeps_systemCall fun call disk kept => ?_
  split <;> exact ⟨kept, fun _ _ => trivial⟩

theorem keeps_read {file : OpenFile} {offset asked : Nat} :
    Keeps before (read system file offset asked) fun result =>
      ∀ value, result = .ok value → True := by
  refine keeps_systemCall fun call disk kept => ?_
  split
  · split <;> exact ⟨kept, fun _ _ => trivial⟩
  · exact ⟨kept, fun _ _ => trivial⟩

theorem keeps_write {file : OpenFile} {bytes : List UInt8} (new : before.fresh ≤ file.identity) :
    Keeps before (write system file bytes) fun result => ∀ value, result = .ok value → True := by
  refine keeps_systemCall fun call disk kept => ?_
  split
  · next held =>
    split
    · next same => exact ⟨kept.rewrite held (same ▸ new), fun _ _ => trivial⟩
    · exact ⟨kept, fun _ _ => trivial⟩
  · exact ⟨kept, fun _ _ => trivial⟩

theorem keeps_walkFrom {create : Bool} {current components : List String} :
    Keeps before (walkFrom system create current components) fun _ => True := by
  have opens : ∀ (current : List String) (component : String) (rest : List String),
      (∀ next : List String, Keeps before (walkFrom system create next rest) fun _ => True) →
      Keeps before (do
        let next ← orFail "open output directory" component
          (openDirectory system (current ++ [component]))
        walkFrom system create next rest) fun _ => True :=
    fun _ _ _ rest => (keeps_orFail keeps_openDirectory).bind fun next _ => rest next
  induction components generalizing current with
  | nil => exact maintains_pure trivial
  | cons component rest ih =>
      have onward := opens current component rest fun next => ih
      cases create with
      | false => exact onward
      | true =>
          refine keeps_mkdirat.bind fun made _ => ?_
          rcases made with error | made
          · cases error with
            | exist => exact onward
            | _ => exact maintains_throw _
          · exact onward

theorem keeps_walkDirectories {components : List String} {create : Bool} :
    Keeps before (walkDirectories system components create) fun _ => True :=
  keeps_asked.bind fun _ _ => keeps_walkFrom

theorem keeps_writeAll {file : OpenFile} (new : before.fresh ≤ file.identity)
    (bytes : List UInt8) : Keeps before (writeAll system file bytes) fun _ => True := by
  induction length : bytes.length using Nat.strong_induction_on generalizing bytes with
  | _ size ih =>
      cases bytes with
      | nil =>
          rw [writeAll]
          exact maintains_pure trivial
      | cons first rest =>
          rw [writeAll]
          refine (keeps_orFail (keeps_write new)).bind fun written _ => ?_
          cases written with
          | zero => exact maintains_throw _
          | succ written =>
              have shorter : (rest.drop written).length < size := by
                rw [← length, List.length_drop, List.length_cons]
                omega
              exact ih _ shorter _ rfl

theorem keeps_readAll {file : OpenFile} {path : String} (offset asked : Nat) :
    Keeps before (readAll system file path offset asked) fun _ => True := by
  induction asked using Nat.strong_induction_on generalizing offset with
  | _ asked ih =>
      cases asked with
      | zero =>
          rw [readAll]
          exact maintains_pure trivial
      | succ asked =>
          rw [readAll]
          refine (keeps_orFail keeps_read).bind fun bytes _ => ?_
          cases bytes with
          | nil => exact maintains_pure trivial
          | cons first more =>
              exact (ih _ (by omega) _).bind fun _ _ => maintains_pure trivial

variable {sha256Hex : List UInt8 → String}

theorem keeps_verifyOpenArtifact {file : OpenFile} {artifact : Artifact} :
    Keeps before (verifyOpenArtifact system sha256Hex file artifact) fun _ => True := by
  refine keeps_asked.bind fun _ _ => (keeps_readAll _ _).bind fun bytes _ => ?_
  split
  · exact maintains_throw _
  · exact maintains_pure trivial

theorem keeps_publishArtifact {entry : Pending} :
    Keeps before (publishArtifact system sha256Hex entry) fun _ => True := by
  refine Maintains.wrap ?_
  refine keeps_walkDirectories.bind fun parent _ => ?_
  refine (keeps_orFail keeps_createFile).bind fun file new => ?_
  refine keeps_asked.bind fun _ _ => ?_
  refine (keeps_writeAll new _).bind fun _ _ => ?_
  refine keeps_asked.bind fun _ _ => keeps_asked.bind fun _ _ => ?_
  refine keeps_verifyOpenArtifact.bind fun _ _ => ?_
  exact keeps_asked.bind fun _ _ => maintains_pure trivial

theorem keeps_checkPublished {entry : Published} :
    Keeps before (checkPublished system sha256Hex entry) fun _ => True := by
  refine Maintains.wrap ?_
  refine keeps_walkDirectories.bind fun parent _ => ?_
  refine (keeps_orFail keeps_openFile).bind fun visible _ => ?_
  refine keeps_asked.bind fun _ _ => ?_
  split
  · exact maintains_throw _
  · exact keeps_verifyOpenArtifact

theorem keeps_openOutputRoot {path : String} :
    Keeps before (openOutputRoot system path) fun _ => True := by
  unfold openOutputRoot
  split
  · exact maintains_throw _
  · refine keeps_asks.bind fun result _ => ?_
    rcases result with error | value
    · cases error <;> exact maintains_throw _
    · exact maintains_pure trivial

/-- All that stood in the root before a publication stands there after it, also where the
publication fails and whatever calls of it fail. -/
theorem keeps_publish {manifest : Result} {outputRoot : String} :
    Keeps before (publish system sha256Hex manifest outputRoot) fun _ => True := by
  have pends : Keeps before (check (pendingOf sha256Hex manifest)) fun _ => True :=
    maintains_check fun _ _ => trivial
  refine pends.bind fun pending _ => ?_
  refine keeps_openOutputRoot.bind fun _ _ => ?_
  refine (maintains_collect fun _ _ => keeps_publishArtifact).bind fun published _ => ?_
  refine (maintains_collect fun _ _ => keeps_checkPublished).bind fun _ _ => ?_
  exact keeps_asked.wrap.bind fun _ _ => maintains_pure trivial

end Frame

/-! What a publication adds. -/

/-- A file of the root: its path, its identity and its bytes. -/
abbrev Entry := List String × Nat × List UInt8

/-- The root holds the files written and no other, in directories that lead to the files still to
come or written. -/
structure Holds (targets : List (List String)) (written : List Entry) (disk : Disk) : Prop where
  files : ∀ path identity bytes,
    disk.node path = some (.file identity bytes) ↔ (path, identity, bytes) ∈ written
  directories : ∀ path, disk.node path = some .directory →
    path = [] ∨ ∃ target ∈ targets, path <+: target ∧ path ≠ target
  plain : ∀ path, disk.node path ≠ some .other

/-- No path leads through another. -/
def Apart (targets : List (List String)) : Prop :=
  ∀ first ∈ targets, ∀ second ∈ targets, first <+: second → first = second

section Holds

variable {targets : List (List String)} {written : List Entry} {disk : Disk}
  {directory : List String} {name : String}

theorem holds_empty (targets : List (List String)) : Holds targets [] Disk.empty where
  files path identity bytes := by
    by_cases root : path = [] <;> simp [Disk.empty, root]
  directories path found := by
    by_cases root : path = []
    · exact .inl root
    · simp [Disk.empty, root] at found
  plain path := by
    by_cases root : path = [] <;> simp [Disk.empty, root]

/-- One path changed: the files written change at that path only. -/
theorem Holds.update (holds : Holds targets written disk) {after : Disk} {path : List String}
    {node : Node} {written' : List Entry}
    (updated : ∀ other, after.node other = if other = path then some node else disk.node other)
    (here : ∀ identity bytes, node = .file identity bytes ↔ (path, identity, bytes) ∈ written')
    (elsewhere : ∀ other ≠ path, ∀ identity bytes,
      (other, identity, bytes) ∈ written' ↔ (other, identity, bytes) ∈ written)
    (leads : node = .directory → ∃ target ∈ targets, path <+: target ∧ path ≠ target)
    (plain : node ≠ .other) : Holds targets written' after where
  files other identity bytes := by
    rw [updated]
    by_cases same : other = path
    · rw [if_pos same, Option.some.injEq, here, same]
    · rw [if_neg same, elsewhere other same]
      exact holds.files other identity bytes
  directories other found := by
    rw [updated] at found
    by_cases same : other = path
    · rw [if_pos same, Option.some.injEq] at found
      exact .inr (same ▸ leads found)
    · rw [if_neg same] at found
      exact holds.directories other found
  plain other := by
    rw [updated]
    by_cases same : other = path
    · rw [if_pos same]
      exact fun wrong => plain (Option.some.inj wrong)
    · rw [if_neg same]
      exact holds.plain other

/-- Nothing is written where nothing stands. -/
theorem Holds.unwritten (holds : Holds targets written disk) {path : List String}
    (absent : disk.node path = none) (identity : Nat) (bytes : List UInt8) :
    (path, identity, bytes) ∉ written := by
  rw [← holds.files, absent]
  simp

theorem Holds.addDirectory (holds : Holds targets written disk)
    {target : List String} (listed : target ∈ targets) (leads : directory ++ [name] <+: target)
    (inside : directory ++ [name] ≠ target) (parent : disk.node directory = some .directory)
    (absent : disk.node (directory ++ [name]) = none) :
    Holds targets written
      (disk.add directory name .directory disk.fresh parent absent le_rfl (by simp)) := by
  refine holds.update (fun _ => rfl) ?_ (fun _ _ _ _ => Iff.rfl) ?_ (by simp)
  · simp [holds.unwritten absent]
  · exact fun _ => ⟨target, listed, leads, inside⟩

theorem Holds.addFile (holds : Holds targets written disk)
    (parent : disk.node directory = some .directory)
    (absent : disk.node (directory ++ [name]) = none) :
    Holds targets (written ++ [(directory ++ [name], disk.fresh, [])])
      (disk.add directory name (.file disk.fresh []) (disk.fresh + 1) parent absent
        (Nat.le_succ _) (by simp)) := by
  refine holds.update (fun _ => rfl) ?_ ?_ (by simp) (by simp)
  · simp [holds.unwritten absent, eq_comm]
  · simp +contextual

theorem Holds.rewrite {path : List String} {identity : Nat} {old : List UInt8}
    (holds : Holds targets (written ++ [(path, identity, old)]) disk)
    (new : path ∉ written.map Prod.fst) (bytes : List UInt8)
    (held : disk.node path = some (.file identity old)) :
    Holds targets (written ++ [(path, identity, bytes)])
      (disk.rewrite path identity old bytes held) := by
  have unlisted : ∀ found content, (path, found, content) ∉ written :=
    fun found content listed => new (List.mem_map_of_mem listed)
  refine holds.update (fun _ => rfl) ?_ ?_ (by simp) (by simp)
  · simp [unlisted, eq_comm]
  · simp +contextual

end Holds

section Success

variable {system : System} (healthy : system.Healthy) {α : Type} {world : World}

theorem returns_orFail {call : Publishing (Except Errno α)} {operation path : String}
    {post : α → World → Prop}
    (returns : Returns call world fun result after => ∃ value, result = .ok value ∧ post value after) :
    Returns (orFail operation path call) world post := by
  refine returns.bind fun result after described => ?_
  obtain ⟨value, rfl, held⟩ := described
  exact returns_pure held

include healthy

theorem returns_systemCall {effect : Nat → Disk → Except Errno α × Disk}
    {post : Except Errno α → World → Prop}
    (holds : post (effect world.calls world.disk).1
      ⟨(effect world.calls world.disk).2, world.calls + 1⟩) :
    Returns (systemCall system effect) world post := by
  refine ⟨_, _, ?_, holds⟩
  rw [systemCall, exec_act, healthy.fault]

theorem returns_asked {operation path : String} {value : α} :
    Returns (orFail operation path (asks system value)) world fun _ after =>
      after.disk = world.disk :=
  returns_orFail (returns_systemCall healthy ⟨value, rfl, rfl⟩)

theorem returns_openDirectory {path : List String} {operation name : String}
    (directory : world.disk.node path = some .directory) :
    Returns (orFail operation name (openDirectory system path)) world fun opened after =>
      opened = path ∧ after.disk = world.disk := by
  refine returns_orFail (returns_systemCall healthy ?_)
  simp [directory]

variable {targets : List (List String)} {written : List Entry}

/-- A directory on the way to a target is made, or stands already. -/
theorem returns_mkdirat (holds : Holds targets written world.disk) {current target : List String}
    {component : String} (listed : target ∈ targets)
    (leads : current ++ [component] <+: target) (inside : current ++ [component] ≠ target)
    (free : ∀ entry ∈ written, entry.1 <+: target → entry.1 = target)
    (directory : world.disk.node current = some .directory) :
    Returns (mkdirat system current component) world fun result after =>
      (result = .ok () ∨ result = .error .exist) ∧ Holds targets written after.disk ∧
        after.disk.node (current ++ [component]) = some .directory := by
  refine returns_systemCall healthy ?_
  by_cases absent : world.disk.node (current ++ [component]) = none
  · rw [dif_pos absent, dif_pos directory]
    refine ⟨.inl rfl, holds.addDirectory listed leads inside directory absent, ?_⟩
    simp [Disk.add]
  · rw [dif_neg absent]
    refine ⟨.inr rfl, holds, ?_⟩
    obtain ⟨node, found⟩ := Option.ne_none_iff_exists'.mp absent
    show world.disk.node (current ++ [component]) = some .directory
    cases node with
    | directory => exact found
    | file identity bytes =>
        exact absurd (free _ ((holds.files _ _ _).mp found) leads) inside
    | other => exact absurd found (holds.plain _)

/-- The directories above a target can be walked, and made where they are missing. -/
theorem returns_walk_create (holds : Holds targets written world.disk)
    {current components target : List String} (listed : target ∈ targets)
    (leads : current ++ components <+: target) (inside : current ++ components ≠ target)
    (free : ∀ entry ∈ written, entry.1 <+: target → entry.1 = target)
    (directory : world.disk.node current = some .directory) :
    Returns (walkFrom system true current components) world fun parent after =>
      parent = current ++ components ∧ Holds targets written after.disk ∧
        after.disk.node parent = some .directory := by
  induction components generalizing current world with
  | nil =>
      rw [List.append_nil]
      exact returns_pure ⟨rfl, holds, directory⟩
  | cons component rest ih =>
      have split : current ++ component :: rest = current ++ [component] ++ rest := by simp
      rw [split] at leads inside ⊢
      have above : current ++ [component] <+: target := (List.prefix_append _ rest).trans leads
      have strict : current ++ [component] ≠ target := by
        intro same
        have short := leads.length_le
        have length := congrArg List.length same
        cases rest with
        | nil => exact inside (by simpa using same)
        | cons _ _ =>
            simp only [List.length_append, List.length_cons, List.length_nil] at short length
            omega
      refine (returns_mkdirat healthy holds listed above strict free directory).bind
        fun made after described => ?_
      obtain ⟨outcome, kept, opened⟩ := described
      have onward : Returns (do
          let next ← orFail "open output directory" component
            (openDirectory system (current ++ [component]))
          walkFrom system true next rest) after fun parent later =>
            parent = current ++ [component] ++ rest ∧ Holds targets written later.disk ∧
              later.disk.node parent = some .directory := by
        refine (returns_openDirectory healthy opened).bind fun next later described => ?_
        obtain ⟨rfl, same⟩ := described
        rw [← same] at kept opened
        exact ih kept leads inside opened
      rcases outcome with rfl | rfl
      · exact onward
      · exact onward

theorem returns_createFile (holds : Holds targets written world.disk) {directory : List String}
    {name operation path : String} (parent : world.disk.node directory = some .directory)
    (absent : world.disk.node (directory ++ [name]) = none) :
    Returns (orFail operation path (createFile system directory name)) world fun file after =>
      file.path = directory ++ [name] ∧
        Holds targets (written ++ [(file.path, file.identity, [])]) after.disk := by
  refine returns_orFail (returns_systemCall healthy ?_)
  rw [dif_pos absent, dif_pos parent]
  exact ⟨_, rfl, rfl, holds.addFile parent absent⟩

theorem returns_write {file : OpenFile} {old bytes : List UInt8} {operation path : String}
    (holds : Holds targets (written ++ [(file.path, file.identity, old)]) world.disk)
    (new : file.path ∉ written.map Prod.fst) (some : 0 < bytes.length) :
    Returns (orFail operation path (write system file bytes)) world fun count after =>
      0 < count ∧ count ≤ bytes.length ∧
        Holds targets (written ++ [(file.path, file.identity, old ++ bytes.take count)])
          after.disk := by
  have held : world.disk.node file.path = .some (.file file.identity old) :=
    (holds.files _ _ _).mpr (by simp)
  refine returns_orFail (returns_systemCall healthy ?_)
  split
  · next identity found stands =>
    obtain ⟨rfl, rfl⟩ := Node.file.inj (Option.some.inj (held.symm.trans stands))
    rw [if_pos rfl]
    exact ⟨_, rfl, healthy.count _ _ some, system.count_le _ _, holds.rewrite new _ stands⟩
  · next other => exact absurd held (other _ _)

theorem returns_writeAll {file : OpenFile} {old : List UInt8} (bytes : List UInt8)
    (holds : Holds targets (written ++ [(file.path, file.identity, old)]) world.disk)
    (new : file.path ∉ written.map Prod.fst) :
    Returns (writeAll system file bytes) world fun _ after =>
      Holds targets (written ++ [(file.path, file.identity, old ++ bytes)]) after.disk := by
  induction length : bytes.length using Nat.strong_induction_on
    generalizing bytes old world with
  | _ size ih =>
      cases bytes with
      | nil =>
          rw [writeAll, List.append_nil]
          exact returns_pure holds
      | cons first rest =>
          rw [writeAll]
          refine (returns_write healthy holds new (by simp)).bind fun count after described => ?_
          obtain ⟨some, within, held⟩ := described
          obtain ⟨count, rfl⟩ := Nat.exists_eq_succ_of_ne_zero (Nat.pos_iff_ne_zero.mp some)
          have shorter : (rest.drop count).length < size := by
            rw [← length, List.length_drop, List.length_cons]
            omega
          refine (ih _ shorter (rest.drop count) held rfl).imp fun _ later done => ?_
          have whole : old ++ (first :: rest).take (count + 1) ++ rest.drop count =
              old ++ first :: rest := by
            rw [List.take_succ_cons, List.append_assoc, List.cons_append, List.take_append_drop]
          rwa [Nat.succ_eq_add_one, whole] at done

theorem returns_read {file : OpenFile} {content : List UInt8} {operation path : String}
    {offset asked : Nat}
    (held : world.disk.node file.path = some (.file file.identity content)) (some : 0 < asked) :
    Returns (orFail operation path (read system file offset asked)) world fun bytes after =>
      after.disk = world.disk ∧ ∃ count, 0 < count ∧ count ≤ asked ∧
        bytes = (content.drop offset).take count := by
  refine returns_orFail (returns_systemCall healthy ?_)
  simp only [held, if_true]
  exact ⟨_, rfl, trivial, _, healthy.count _ _ some, system.count_le _ _, rfl⟩

theorem returns_readAll {file : OpenFile} {content : List UInt8} {path : String}
    (offset asked : Nat)
    (held : world.disk.node file.path = some (.file file.identity content)) :
    Returns (readAll system file path offset asked) world fun bytes after =>
      after.disk = world.disk ∧ bytes = (content.drop offset).take asked := by
  induction asked using Nat.strong_induction_on generalizing offset world with
  | _ asked ih =>
      cases asked with
      | zero =>
          rw [readAll]
          exact returns_pure ⟨rfl, by simp⟩
      | succ asked =>
          rw [readAll]
          refine (returns_read healthy held (by simp)).bind fun bytes after described => ?_
          obtain ⟨same, count, some, within, taken⟩ := described
          cases bytes with
          | nil =>
              have past : content.drop offset = [] := by
                rcases List.take_eq_nil_iff.mp taken.symm with none | past
                · omega
                · exact past
              exact returns_pure ⟨same, by rw [past, List.take_nil]⟩
          | cons first more =>
              have length := congrArg List.length taken
              rw [List.length_cons, List.length_take] at length
              rw [← same] at held
              refine (ih (asked - more.length) (by omega) (offset + (more.length + 1)) held).bind
                fun rest later described => ?_
              obtain ⟨unchanged, read⟩ := described
              refine returns_pure ⟨unchanged.trans same, ?_⟩
              have counted : (content.drop offset).take count =
                  (content.drop offset).take (more.length + 1) := by
                rw [length, ← List.take_eq_take_min]
              have split : asked + 1 = (more.length + 1) + (asked - more.length) := by omega
              rw [read, taken, counted, ← List.drop_drop, split]
              exact List.take_add.symm

variable {sha256Hex : List UInt8 → String}

/-- A file that holds an artifact's bytes is read back as that artifact. -/
theorem returns_verify {file : OpenFile} {artifact : Artifact}
    (held : world.disk.node file.path = some (.file file.identity artifact.bytes))
    (digest : artifact.sha256 = "sha256:" ++ sha256Hex artifact.bytes) :
    Returns (verifyOpenArtifact system sha256Hex file artifact) world fun _ after =>
      after.disk = world.disk := by
  refine (returns_asked healthy).bind fun _ sought same => ?_
  rw [← same] at held
  refine (returns_readAll healthy 0 artifact.bytes.length held).bind fun bytes after described => ?_
  obtain ⟨unchanged, read⟩ := described
  rw [List.drop_zero, List.take_length] at read
  rw [if_neg (by simp [read, digest])]
  exact returns_pure (unchanged.trans same)

/-- The directories above something can be walked. -/
theorem returns_walk_existing {current components : List String}
    (directory : ∀ path, path <+: current ++ components → world.disk.node path = some .directory) :
    Returns (walkFrom system false current components) world fun parent after =>
      parent = current ++ components ∧ after.disk = world.disk := by
  induction components generalizing current world with
  | nil =>
      rw [List.append_nil]
      exact returns_pure ⟨rfl, rfl⟩
  | cons component rest ih =>
      have split : current ++ component :: rest = current ++ [component] ++ rest := by simp
      rw [split] at directory ⊢
      refine (returns_openDirectory healthy (directory _ (List.prefix_append _ _))).bind
        fun next after described => ?_
      obtain ⟨rfl, same⟩ := described
      rw [← same] at directory ⊢
      exact ih directory

omit healthy in
theorem leaf_append {components : List String} (some : components ≠ []) :
    components.dropLast ++ [components.getLastD ""] = components := by
  rw [List.getLastD_eq_getLast?, List.getLast?_eq_some_getLast some, Option.getD_some]
  exact List.dropLast_append_getLast some

/-- The file a published artifact stands in. -/
def Published.entry (published : Published) : Entry :=
  (published.components, published.file.identity, published.artifact.bytes)

theorem returns_publishArtifact (apart : Apart targets) {entry : Pending}
    (listed : entry.components ∈ targets) (some : entry.components ≠ [])
    (digest : entry.artifact.sha256 = "sha256:" ++ sha256Hex entry.artifact.bytes)
    (holds : Holds targets written world.disk)
    (among : ∀ file ∈ written, file.1 ∈ targets)
    (new : entry.components ∉ written.map Prod.fst) :
    Returns (publishArtifact system sha256Hex entry) world fun published after =>
      (published.artifact = entry.artifact ∧ published.components = entry.components) ∧
      Holds targets (written ++ [published.entry]) after.disk := by
  have free : ∀ file ∈ written, file.1 <+: entry.components → file.1 = entry.components :=
    fun file stands => apart _ (among file stands) _ listed
  have walked : Returns (walkDirectories system entry.components.dropLast true) world
      fun parent after => parent = entry.components.dropLast ∧
        Holds targets written after.disk ∧ after.disk.node parent = .some .directory := by
    refine (returns_asked healthy).bind fun _ duplicated same => ?_
    rw [← same] at holds
    refine returns_walk_create healthy holds listed (List.dropLast_prefix _) ?_ free
      duplicated.disk.root
    intro whole
    have length := congrArg List.length whole
    have positive := List.length_pos_iff.mpr some
    rw [List.nil_append, List.length_dropLast] at length
    omega
  refine Returns.wrap (walked.bind ?_)
  rintro _ after ⟨rfl, held, parent⟩
  have absent : after.disk.node
      (entry.components.dropLast ++ [entry.components.getLastD ""]) = none := by
    rw [leaf_append some]
    by_contra present
    obtain ⟨node, found⟩ := Option.ne_none_iff_exists'.mp present
    cases node with
    | file identity bytes => exact new (List.mem_map_of_mem ((held.files _ _ _).mp found))
    | other => exact held.plain _ found
    | directory =>
        rcases held.directories _ found with root | ⟨target, place, leads, inside⟩
        · exact some root
        · exact inside (apart _ listed _ place leads)
  refine (returns_createFile healthy held parent absent).bind fun file created described => ?_
  obtain ⟨path, opened⟩ := described
  rw [leaf_append some] at path
  refine (returns_asked healthy).bind fun _ inspected same => ?_
  rw [← same] at opened
  refine (returns_writeAll healthy entry.artifact.bytes opened (path ▸ new)).bind
    fun _ filled complete => ?_
  rw [List.nil_append, path] at complete
  have stands : filled.disk.node file.path =
      .some (.file file.identity entry.artifact.bytes) := by
    rw [path]
    exact (complete.files _ _ _).mpr (by simp)
  refine (returns_asked healthy).bind fun _ changed same => ?_
  refine (returns_asked healthy).bind fun _ synced again => ?_
  rw [← same, ← again] at stands complete
  refine (returns_verify healthy stands digest).bind fun _ verified unchanged => ?_
  refine (returns_asked healthy).bind fun _ last still => returns_pure ⟨⟨rfl, rfl⟩, ?_⟩
  rw [← unchanged, ← still] at complete
  exact complete

omit healthy in
/-- All above something that stands is a directory. -/
theorem directory_above {disk : Disk} {path above : List String} (stands : disk.node path ≠ none)
    (leads : above <+: path) (inside : above ≠ path) : disk.node above = some .directory := by
  induction path using List.reverseRecOn with
  | nil => exact absurd (List.prefix_nil.mp leads) inside
  | append_singleton front name ih =>
      have parent := disk.closed front name stands
      rcases List.prefix_concat_iff.mp leads with whole | shorter
      · exact absurd whole inside
      · by_cases same : above = front
        · rw [same]
          exact parent
        · exact ih (by rw [parent]; simp) shorter same

theorem returns_checkPublished {entry : Published} (some : entry.components ≠ [])
    (digest : entry.artifact.sha256 = "sha256:" ++ sha256Hex entry.artifact.bytes)
    (stands : world.disk.node entry.components =
      .some (.file entry.file.identity entry.artifact.bytes)) :
    Returns (checkPublished system sha256Hex entry) world fun _ after =>
      after.disk = world.disk := by
  have above : ∀ path, path <+: [] ++ entry.components.dropLast →
      world.disk.node path = .some .directory := by
    intro path leads
    rw [List.nil_append] at leads
    have short := leads.length_le
    have positive := List.length_pos_iff.mpr some
    rw [List.length_dropLast] at short
    refine directory_above (by rw [stands]; simp) (leads.trans (List.dropLast_prefix _)) ?_
    rintro rfl
    omega
  have walked : Returns (walkDirectories system entry.components.dropLast false) world
      fun parent after => parent = entry.components.dropLast ∧ after.disk = world.disk := by
    refine (returns_asked healthy).bind fun _ duplicated same => ?_
    rw [← same] at above ⊢
    exact returns_walk_existing healthy above
  refine Returns.wrap (walked.bind ?_)
  rintro _ after ⟨rfl, same⟩
  rw [← same] at stands ⊢
  have opened : Returns (orFail "reopen published artifact" entry.artifact.path
      (openFile system (entry.components.dropLast ++ [entry.components.getLastD ""]))) after
      fun visible later => visible = ⟨entry.components, entry.file.identity⟩ ∧
        later.disk = after.disk := by
    refine returns_orFail (returns_systemCall healthy ?_)
    simp only [leaf_append some, stands]
    exact ⟨_, rfl, rfl, trivial⟩
  refine opened.bind ?_
  rintro _ reopened ⟨rfl, kept⟩
  refine (returns_asked healthy).bind fun _ inspected again => ?_
  rw [if_neg (by simp), ← kept, ← again]
  rw [← kept, ← again] at stands
  exact returns_verify healthy stands digest

theorem returns_openOutputRoot {path : String} (named : path ≠ "")
    (plain : Char.ofNat 0 ∉ path.toList) :
    Returns (openOutputRoot system path) world fun _ after => after.disk = world.disk := by
  rw [openOutputRoot, if_neg (by simp [named, plain])]
  have opened : Returns (asks system ()) world fun result after =>
      result = .ok () ∧ after.disk = world.disk := returns_systemCall healthy ⟨rfl, rfl⟩
  refine opened.bind ?_
  rintro _ after ⟨rfl, same⟩
  exact returns_pure same

end Success

/-! The checks before the root is opened. -/

section Pending

variable {sha256Hex : List UInt8 → String}

/-- An artifact as a session hands it out: its path is valid and its digest that of its bytes. -/
structure Sound (sha256Hex : List UInt8 → String) (artifact : Artifact) : Prop where
  path : validateArtifactPath artifact.path = .ok ()
  digest : artifact.sha256 = "sha256:" ++ sha256Hex artifact.bytes
  lower : validDigest artifact.sha256 = true

def pendingArtifact (artifact : Artifact) : Pending := ⟨artifact, pathSegments artifact.path⟩

theorem thread_pend {artifacts : List Artifact} {seen : List String} {pending : List Pending}
    (sound : ∀ artifact ∈ artifacts, Sound sha256Hex artifact)
    (distinct : (artifacts.map (·.path)).Nodup)
    (new : ∀ artifact ∈ artifacts, artifact.path ∉ seen) :
    ∃ seen', thread (pend sha256Hex) (seen, pending) artifacts =
      .ok (seen', pending ++ artifacts.map pendingArtifact) := by
  induction artifacts generalizing seen pending with
  | nil => exact ⟨seen, by simp [thread]⟩
  | cons artifact rest ih =>
      rw [List.forall_mem_cons] at sound new
      rw [List.map_cons, List.nodup_cons] at distinct
      have here : pend sha256Hex (seen, pending) artifact =
          .ok (artifact.path :: seen, pending ++ [pendingArtifact artifact]) := by
        have path := sound.1.path
        have lower := sound.1.lower
        simp [pend, splitRelativePath, path, ok_bind, require, new.1, lower, ← sound.1.digest,
          pendingArtifact, pure, Except.pure]
      have later : ∀ other ∈ rest, other.path ∉ artifact.path :: seen := by
        intro other listed
        rw [List.mem_cons, not_or]
        refine ⟨fun same => distinct.1 ?_, new.2 other listed⟩
        rw [← same]
        exact List.mem_map_of_mem listed
      obtain ⟨seen', threaded⟩ := @ih _ (pending ++ [pendingArtifact artifact]) sound.2 distinct.2
        later
      refine ⟨seen', ?_⟩
      rw [thread, here, ok_bind, threaded]
      simp

theorem pendingOf_ok {manifest : Result} (request : manifest.requestId ≠ 0)
    (named : manifest.targetIdentity ≠ "") (receipt : validDigest manifest.receiptDigest = true)
    (sound : ∀ artifact ∈ manifest.artifacts, Sound sha256Hex artifact)
    (distinct : (manifest.artifacts.map (·.path)).Nodup) :
    pendingOf sha256Hex manifest = .ok (SortOn.sortOn (fun entry => entry.artifact.path)
      (manifest.artifacts.map pendingArtifact)) := by
  obtain ⟨seen, threaded⟩ := @thread_pend _ _ [] [] sound distinct (by simp)
  simp [pendingOf, require, request, named, receipt, ok_bind, threaded, pure, Except.pure]

/-- A manifest that is published passed the checks on its metadata. -/
theorem receipt_of_pendingOf {manifest : Result} {pending : List Pending}
    (passed : pendingOf sha256Hex manifest = .ok pending) :
    validDigest manifest.receiptDigest = true :=
  (require_ok.mp (check_ok.mp passed).1).2.2

end Pending

theorem pathSegments_inj {first second : String} (same : pathSegments first = pathSegments second) :
    first = second := by
  have chars : first.toList.splitOn '/' = second.toList.splitOn '/' :=
    List.map_injective_iff.mpr (fun _ _ => String.ofList_inj.mp) same
  have whole := congrArg (List.intercalate ['/']) chars
  rw [List.intercalate_splitOn, List.intercalate_splitOn] at whole
  exact String.toList_inj.mp whole

theorem pathSegments_ne_nil (path : String) : pathSegments path ≠ [] := by
  rw [pathSegments, Ne, List.map_eq_nil_iff]
  exact List.splitOn_ne_nil _ _

section Passes

variable {system : System} (healthy : system.Healthy) {sha256Hex : List UInt8 → String}
  {world : World} {targets : List (List String)} {pending : List Pending}

include healthy

/-- The first pass writes every pending artifact and nothing else. -/
theorem returns_firstPass (apart : Apart targets)
    (among : ∀ entry ∈ pending, entry.components ∈ targets)
    (some : ∀ entry ∈ pending, entry.components ≠ [])
    (digest : ∀ entry ∈ pending,
      entry.artifact.sha256 = "sha256:" ++ sha256Hex entry.artifact.bytes)
    (unique : (pending.map (·.components)).Nodup) (empty : Holds targets [] world.disk) :
    Returns (collect (publishArtifact system sha256Hex) pending) world fun results after =>
      Holds targets (results.map Published.entry) after.disk ∧
        results.map (fun result => Pending.mk result.artifact result.components) = pending := by
  refine returns_collect (fun earlier results (after : World) =>
    Holds targets (results.map Published.entry) after.disk ∧
      results.map (fun result => Pending.mk result.artifact result.components) = earlier)
    ?_ ⟨empty, rfl⟩
  rintro earlier entry later results state split ⟨holds, rfl⟩
  have listed : entry ∈ pending := by
    rw [split]
    simp
  have paths : (results.map Published.entry).map Prod.fst =
      (results.map fun result => Pending.mk result.artifact result.components).map
        (·.components) := by
    rw [List.map_map, List.map_map]
    rfl
  have new : entry.components ∉ (results.map Published.entry).map Prod.fst := by
    rw [split, List.map_append, List.map_cons] at unique
    rw [paths]
    exact fun twice => (List.nodup_append.mp unique).2.2 _ twice _ (List.mem_cons_self ..) rfl
  have inside : ∀ file ∈ results.map Published.entry, file.1 ∈ targets := by
    intro file placed
    obtain ⟨result, published, rfl⟩ := List.mem_map.mp placed
    refine among ⟨result.artifact, result.components⟩ ?_
    rw [split]
    exact List.mem_append_left _ (List.mem_map.mpr ⟨result, published, rfl⟩)
  refine (returns_publishArtifact healthy apart (among _ listed) (some _ listed)
    (digest _ listed) holds inside new).imp fun published after described => ?_
  obtain ⟨⟨artifactSame, componentsSame⟩, held⟩ := described
  refine ⟨by rwa [List.map_append], ?_⟩
  rw [List.map_append, List.map_singleton, artifactSame, componentsSame]

/-- The second pass finds what the first has written. -/
theorem returns_secondPass {published : List Published}
    (some : ∀ entry ∈ published, entry.components ≠ [])
    (digest : ∀ entry ∈ published,
      entry.artifact.sha256 = "sha256:" ++ sha256Hex entry.artifact.bytes)
    (holds : Holds targets (published.map Published.entry) world.disk) :
    Returns (collect (checkPublished system sha256Hex) published) world fun _ after =>
      after.disk = world.disk := by
  refine returns_collect (fun _ _ (after : World) => after.disk = world.disk) ?_ rfl
  intro earlier entry later results state split same
  have listed : entry ∈ published := by
    rw [split]
    simp
  have stands : state.disk.node entry.components =
      .some (.file entry.file.identity entry.artifact.bytes) := by
    rw [same]
    exact (holds.files _ _ _).mpr (List.mem_map.mpr ⟨entry, listed, rfl⟩)
  exact (returns_checkPublished healthy (some _ listed) (digest _ listed) stands).imp
    fun _ _ kept => kept.trans same

end Passes

/-- A manifest whose paths do not lead through each other is published whole into an empty
root. -/
theorem returns_publish {system : System} (healthy : system.Healthy)
    {sha256Hex : List UInt8 → String} {manifest : Result} {outputRoot : String} {world : World}
    (request : manifest.requestId ≠ 0) (target : manifest.targetIdentity ≠ "")
    (receipt : validDigest manifest.receiptDigest = true)
    (sound : ∀ artifact ∈ manifest.artifacts, Sound sha256Hex artifact)
    (distinct : (manifest.artifacts.map (·.path)).Nodup)
    (apart : Apart (manifest.artifacts.map fun artifact => pathSegments artifact.path))
    (named : outputRoot ≠ "") (plain : Char.ofNat 0 ∉ outputRoot.toList)
    (fresh : world.disk = Disk.empty) :
    Returns (publish system sha256Hex manifest outputRoot) world fun _ after =>
      ∀ path bytes, (∃ identity, after.disk.node path = some (.file identity bytes)) ↔
        ∃ artifact ∈ manifest.artifacts,
          path = pathSegments artifact.path ∧ bytes = artifact.bytes := by
  let pending := SortOn.sortOn (fun entry : Pending => entry.artifact.path)
    (manifest.artifacts.map pendingArtifact)
  have listed_iff : ∀ entry, entry ∈ pending ↔
      ∃ artifact ∈ manifest.artifacts, pendingArtifact artifact = entry :=
    fun entry => SortOn.mem_sortOn.trans List.mem_map
  have unique : (pending.map (·.components)).Nodup := by
    rw [((SortOn.sortOn_perm _ _).map _).nodup_iff, List.map_map]
    have segments := distinct.map fun _ _ => pathSegments_inj
    rwa [List.map_map] at segments
  have ready : Returns (check (pendingOf sha256Hex manifest)) world fun value after =>
      value = pending ∧ after = world :=
    returns_check (pendingOf_ok request target receipt sound distinct) ⟨rfl, rfl⟩
  have some : ∀ entry ∈ pending, entry.components ≠ [] := by
    intro entry listed
    obtain ⟨artifact, -, rfl⟩ := (listed_iff entry).mp listed
    exact pathSegments_ne_nil _
  have digest : ∀ entry ∈ pending,
      entry.artifact.sha256 = "sha256:" ++ sha256Hex entry.artifact.bytes := by
    intro entry listed
    obtain ⟨artifact, stands, rfl⟩ := (listed_iff entry).mp listed
    exact (sound artifact stands).digest
  refine ready.bind ?_
  rintro _ _ ⟨rfl, rfl⟩
  refine (returns_openOutputRoot healthy named plain).bind fun _ opened same => ?_
  have empty : Holds (manifest.artifacts.map fun artifact => pathSegments artifact.path) []
      opened.disk := by
    rw [same, fresh]
    exact holds_empty _
  refine (returns_firstPass healthy apart ?_ some digest unique empty).bind ?_
  · intro entry listed
    obtain ⟨artifact, stands, rfl⟩ := (listed_iff entry).mp listed
    exact List.mem_map_of_mem stands
  rintro published written ⟨holds, origin⟩
  have pended : ∀ entry ∈ published, Pending.mk entry.artifact entry.components ∈ pending := by
    intro entry listed
    rw [← origin]
    exact List.mem_map.mpr ⟨entry, listed, rfl⟩
  refine (returns_secondPass healthy (fun entry listed => some _ (pended entry listed))
    (fun entry listed => digest _ (pended entry listed)) holds).bind fun _ checked kept => ?_
  refine (returns_asked healthy).wrap.bind fun _ synced still => returns_pure ?_
  intro path bytes
  rw [still, kept]
  constructor
  · rintro ⟨identity, found⟩
    obtain ⟨entry, listed, same⟩ := List.mem_map.mp ((holds.files _ _ _).mp found)
    obtain ⟨artifact, stands, whole⟩ := (listed_iff _).mp (pended entry listed)
    obtain ⟨rfl, -, rfl⟩ : entry.components = path ∧ _ ∧ entry.artifact.bytes = bytes := by
      simpa [Published.entry] using same
    obtain ⟨rfl, segments⟩ : artifact = entry.artifact ∧ pathSegments artifact.path = _ := by
      simpa [pendingArtifact] using whole
    exact ⟨entry.artifact, stands, segments.symm, rfl⟩
  · rintro ⟨artifact, stands, rfl, rfl⟩
    have listed := (listed_iff _).mpr ⟨artifact, stands, rfl⟩
    rw [← origin] at listed
    obtain ⟨entry, place, whole⟩ := List.mem_map.mp listed
    obtain ⟨rfl, segments⟩ : entry.artifact = artifact ∧ entry.components = _ := by
      simpa [pendingArtifact] using whole
    refine ⟨entry.file.identity, (holds.files _ _ _).mpr (List.mem_map.mpr ⟨entry, place, ?_⟩)⟩
    rw [Published.entry, segments]

end Neutrino.ArtifactPublication
