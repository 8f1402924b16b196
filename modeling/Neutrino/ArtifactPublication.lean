import Neutrino.BackendInvoker
import Neutrino.DispatchReceipt
import Neutrino.Library.Durable

/-! The publication of an emission into a directory: every system call it makes, on a tree of
files that outlives a failure. -/

namespace Neutrino.ArtifactPublication

open Checked Durable BackendProtocol BackendInvocation

/-! The output root. -/

/-- What stands at a path: a directory, a file with its identity and bytes, or anything else. -/
inductive Node
  | directory
  | file (identity : Nat) (bytes : List UInt8)
  | other
  deriving DecidableEq, Repr

/-- The tree below the output root. Only directories have entries, and the identity that the
next file gets is new. -/
structure Disk where
  node : List String → Option Node
  fresh : Nat
  root : node [] = some .directory
  closed : ∀ directory name, node (directory ++ [name]) ≠ none →
    node directory = some .directory
  numbered : ∀ path identity bytes, node path = some (.file identity bytes) → identity < fresh

namespace Disk

/-- The root with nothing in it. -/
def empty : Disk where
  node path := if path = [] then some .directory else none
  fresh := 0
  root := rfl
  closed directory name entry := by simp at entry
  numbered path identity bytes found := by
    by_cases root : path = [] <;> simp [root] at found

variable (disk : Disk)

/-- A new entry of a directory. -/
def add (directory : List String) (name : String) (node : Node) (fresh : Nat)
    (parent : disk.node directory = some .directory)
    (absent : disk.node (directory ++ [name]) = none) (later : disk.fresh ≤ fresh)
    (numbered : ∀ identity bytes, node = .file identity bytes → identity < fresh) : Disk where
  node path := if path = directory ++ [name] then some node else disk.node path
  fresh := fresh
  root := by
    rw [if_neg (by simp)]
    exact disk.root
  closed path entry present := by
    have self : directory ≠ directory ++ [name] := by simp
    by_cases same : path ++ [entry] = directory ++ [name]
    · obtain rfl : path = directory := by simpa using (List.append_inj' same rfl).1
      rw [if_neg self]
      exact parent
    · rw [if_neg same] at present
      have above := disk.closed path entry present
      have different : path ≠ directory ++ [name] := by
        rintro rfl
        rw [absent] at above
        cases above
      rw [if_neg different]
      exact above
  numbered path identity bytes found := by
    by_cases same : path = directory ++ [name]
    · rw [if_pos same] at found
      exact numbered identity bytes (Option.some.inj found)
    · rw [if_neg same] at found
      exact lt_of_lt_of_le (disk.numbered path identity bytes found) later

/-- A file with other bytes. -/
def rewrite (path : List String) (identity : Nat) (old bytes : List UInt8)
    (held : disk.node path = some (.file identity old)) : Disk where
  node other := if other = path then some (.file identity bytes) else disk.node other
  fresh := disk.fresh
  root := by
    have different : ([] : List String) ≠ path := by
      rintro rfl
      rw [disk.root] at held
      cases held
    rw [if_neg different]
    exact disk.root
  closed directory name present := by
    have parent : disk.node directory = some .directory := by
      by_cases same : directory ++ [name] = path
      · refine disk.closed directory name ?_
        rw [same, held]
        simp
      · rw [if_neg same] at present
        exact disk.closed directory name present
    have different : directory ≠ path := by
      rintro rfl
      rw [held] at parent
      cases parent
    rw [if_neg different]
    exact parent
  numbered other found content present := by
    by_cases same : other = path
    · rw [if_pos same] at present
      obtain ⟨rfl, -⟩ := Node.file.inj (Option.some.inj present)
      exact disk.numbered path _ old held
    · rw [if_neg same] at present
      exact disk.numbered other found content present

end Disk

/-! System calls. -/

inductive Errno
  | exist
  | noEntry
  | notDirectory
  | loop
  | badDescriptor
  | other (message : String)
  deriving DecidableEq, Repr

def strerror : Errno → String
  | .exist => "File exists"
  | .noEntry => "No such file or directory"
  | .notDirectory => "Not a directory"
  | .loop => "Too many levels of symbolic links"
  | .badDescriptor => "Bad file descriptor"
  | .other message => message

/-- What the system does beside the tree: which calls fail, and how many of the bytes asked for
a call transfers. A call that a signal interrupts is made again and is not counted. -/
structure System where
  fault : Nat → Option Errno
  count : Nat → Nat → Nat
  count_le : ∀ call asked, count call asked ≤ asked

/-- No call fails, and each transfer makes progress. -/
structure System.Healthy (system : System) : Prop where
  fault : ∀ call, system.fault call = none
  count : ∀ call asked, 0 < asked → 0 < system.count call asked

structure World where
  disk : Disk
  calls : Nat := 0

/-- An open file: the path it was opened at, and its identity. -/
structure OpenFile where
  path : List String
  identity : Nat
  deriving DecidableEq, Repr

abbrev Publishing (α : Type) := Action String World α

def publicationError (code diagnostic : String) : String := code ++ ":write:" ++ diagnostic

def systemError (operation path : String) (error : Errno) : String :=
  publicationError "E_PATH" (operation ++ " '" ++ path ++ "': " ++ strerror error)

section Calls

variable (system : System)

def systemCall {α : Type} (effect : Nat → Disk → Except Errno α × Disk) :
    Publishing (Except Errno α) := act fun world =>
  match system.fault world.calls with
  | some error => (.ok (.error error), { world with calls := world.calls + 1 })
  | none =>
      (.ok (effect world.calls world.disk).1,
        ⟨(effect world.calls world.disk).2, world.calls + 1⟩)

def orFail {α : Type} (operation path : String) (call : Publishing (Except Errno α)) :
    Publishing α := do
  match ← call with
  | .ok value => return value
  | .error error => throw (systemError operation path error)

/-- A call that only asks the system. -/
def asks {α : Type} (value : α) : Publishing (Except Errno α) :=
  systemCall system fun _ disk => (.ok value, disk)

def mkdirat (directory : List String) (name : String) : Publishing (Except Errno Unit) :=
  systemCall system fun _ disk =>
    if absent : disk.node (directory ++ [name]) = none then
      if parent : disk.node directory = some .directory then
        (.ok (), disk.add directory name .directory disk.fresh parent absent le_rfl (by simp))
      else (.error .noEntry, disk)
    else (.error .exist, disk)

/-- Opens a directory without following a link. -/
def openDirectory (path : List String) : Publishing (Except Errno (List String)) :=
  systemCall system fun _ disk =>
    match disk.node path with
    | none => (.error .noEntry, disk)
    | some .directory => (.ok path, disk)
    | some _ => (.error .notDirectory, disk)

/-- Opens a new file; one that exists already, whatever it is, stays as it is. -/
def createFile (directory : List String) (name : String) :
    Publishing (Except Errno OpenFile) :=
  systemCall system fun _ disk =>
    if absent : disk.node (directory ++ [name]) = none then
      if parent : disk.node directory = some .directory then
        (.ok ⟨directory ++ [name], disk.fresh⟩,
          disk.add directory name (.file disk.fresh []) (disk.fresh + 1) parent absent
            (Nat.le_succ _) (by simp))
      else (.error .noEntry, disk)
    else (.error .exist, disk)

def openFile (path : List String) : Publishing (Except Errno OpenFile) :=
  systemCall system fun _ disk =>
    match disk.node path with
    | none => (.error .noEntry, disk)
    | some (.file identity _) => (.ok ⟨path, identity⟩, disk)
    | some _ => (.error (.other "Is a directory"), disk)

/-- Writes at the end of an open file. -/
def write (descriptor : OpenFile) (bytes : List UInt8) : Publishing (Except Errno Nat) :=
  systemCall system fun call disk =>
    match held : disk.node descriptor.path with
    | some (.file identity old) =>
        if identity = descriptor.identity then
          (.ok (system.count call bytes.length), disk.rewrite descriptor.path identity old
            (old ++ bytes.take (system.count call bytes.length)) held)
        else (.error .badDescriptor, disk)
    | _ => (.error .badDescriptor, disk)

def read (descriptor : OpenFile) (offset asked : Nat) :
    Publishing (Except Errno (List UInt8)) :=
  systemCall system fun call disk =>
    match disk.node descriptor.path with
    | some (.file identity bytes) =>
        if identity = descriptor.identity then
          (.ok ((bytes.drop offset).take (system.count call asked)), disk)
        else (.error .badDescriptor, disk)
    | _ => (.error .badDescriptor, disk)

end Calls

/-! Publication. -/

def validDigest : String → Bool := DispatchReceipt.hexDigest DispatchReceipt.isLowerHexDigit

def splitRelativePath (path : String) : Except String (List String) := do
  validateArtifactPath path
  return pathSegments path

def visiblePathsRetained (failure : String) : String :=
  publicationError "E_PATH" ("publication stopped; visible paths are retained: " ++ failure)

structure Pending where
  artifact : Artifact
  components : List String
  deriving DecidableEq, Repr

structure Published where
  artifact : Artifact
  components : List String
  file : OpenFile
  deriving DecidableEq, Repr

structure PublishedArtifact where
  path : String
  sha256 : String
  byteLen : UInt64
  deriving DecidableEq, Repr

structure PublicationResult where
  requestId : UInt64
  targetIdentity : String
  receiptDigest : String
  artifacts : List PublishedArtifact
  deriving DecidableEq, Repr

section Walk

variable (system : System)

def openOutputRoot (path : String) : Publishing Unit := do
  if path = "" ∨ Char.ofNat 0 ∈ path.toList then
    throw (publicationError "E_PATH" "output root is empty or contains NUL")
  match ← asks system () with
  | .ok () => return ()
  | .error .loop => throw (publicationError "E_PATH" "output root is a symbolic link")
  | .error error => throw (systemError "open output root" path error)

def walkFrom (create : Bool) (current : List String) : List String → Publishing (List String)
  | [] => return current
  | component :: rest => do
      if create then
        match ← mkdirat system current component with
        | .ok () | .error .exist => pure ()
        | .error error => throw (systemError "create output directory" component error)
      let next ← orFail "open output directory" component
        (openDirectory system (current ++ [component]))
      walkFrom create next rest

def walkDirectories (components : List String) (create : Bool) : Publishing (List String) := do
  orFail "duplicate directory" "" (asks system ())
  walkFrom system create [] components

def writeAll (file : OpenFile) (bytes : List UInt8) : Publishing Unit :=
  match bytes with
  | [] => return ()
  | first :: rest => do
      match ← orFail "write published artifact" "" (write system file (first :: rest)) with
      | 0 => throw (publicationError "E_PATH" "published artifact write made no progress")
      | written + 1 => writeAll file (rest.drop written)
termination_by bytes.length

/-- The bytes from an offset on, as many as are asked for or as there are. -/
def readAll (file : OpenFile) (path : String) (offset asked : Nat) :
    Publishing (List UInt8) :=
  match asked with
  | 0 => return []
  | asked + 1 => do
      match ← orFail "read published artifact" path (read system file offset (asked + 1)) with
      | [] => return []
      | first :: more => do
          let rest ← readAll file path (offset + (more.length + 1)) (asked - more.length)
          return first :: more ++ rest
termination_by asked

end Walk

section Publish

variable (system : System) (sha256Hex : List UInt8 → String)

def verifyOpenArtifact (file : OpenFile) (artifact : Artifact) : Publishing Unit := do
  orFail "seek published artifact" artifact.path (asks system ())
  let bytes ← readAll system file artifact.path 0 artifact.bytes.length
  if bytes ≠ artifact.bytes ∨ "sha256:" ++ sha256Hex bytes ≠ artifact.sha256 then
    throw (publicationError "E_ARTIFACT_DIGEST" "published artifact bytes changed")

/-- An artifact whose path is new and whose digest is that of its bytes. -/
def pend (state : List String × List Pending) (artifact : Artifact) :
    Except String (List String × List Pending) := do
  let components ← splitRelativePath artifact.path
  require (artifact.path ∉ state.1) (publicationError "E_PATH" "artifact path is duplicated")
  require (validDigest artifact.sha256 ∧ artifact.sha256 = "sha256:" ++ sha256Hex artifact.bytes)
    (publicationError "E_ARTIFACT_DIGEST" "artifact digest does not match bytes")
  return (artifact.path :: state.1, state.2 ++ [⟨artifact, components⟩])

/-- The checks made before the output root is opened. -/
def pendingOf (manifest : Result) : Except String (List Pending) := do
  require (manifest.requestId ≠ 0 ∧ manifest.targetIdentity ≠ "" ∧
      validDigest manifest.receiptDigest)
    (publicationError "E_PROTOCOL" "verified manifest metadata is malformed")
  let checked ← thread (pend sha256Hex) ([], []) manifest.artifacts
  return SortOn.sortOn (fun entry => entry.artifact.path) checked.2

def publishArtifact (entry : Pending) : Publishing Published := wrap visiblePathsRetained do
  let parent ← walkDirectories system entry.components.dropLast true
  let file ← orFail "publish artifact" entry.artifact.path
    (createFile system parent (entry.components.getLastD ""))
  orFail "inspect descriptor" entry.artifact.path (asks system ())
  writeAll system file entry.artifact.bytes
  orFail "set artifact permissions" entry.artifact.path (asks system ())
  orFail "sync" entry.artifact.path (asks system ())
  verifyOpenArtifact system sha256Hex file entry.artifact
  orFail "sync" entry.artifact.path (asks system ())
  return ⟨entry.artifact, entry.components, file⟩

/-- A published artifact found again at its path. -/
def checkPublished (entry : Published) : Publishing Unit := wrap visiblePathsRetained do
  let parent ← walkDirectories system entry.components.dropLast false
  let visible ← orFail "reopen published artifact" entry.artifact.path
    (openFile system (parent ++ [entry.components.getLastD ""]))
  orFail "inspect descriptor" entry.artifact.path (asks system ())
  if visible.identity ≠ entry.file.identity then
    throw (publicationError "E_PATH" "published artifact identity changed")
  verifyOpenArtifact system sha256Hex visible entry.artifact

def publish (manifest : Result) (outputRoot : String) : Publishing PublicationResult := do
  let pending ← check (pendingOf sha256Hex manifest)
  openOutputRoot system outputRoot
  let published ← collect (publishArtifact system sha256Hex) pending
  let _ ← collect (checkPublished system sha256Hex) published
  wrap visiblePathsRetained (orFail "sync" outputRoot (asks system ()))
  return {
    requestId := manifest.requestId
    targetIdentity := manifest.targetIdentity
    receiptDigest := manifest.receiptDigest
    artifacts := pending.map fun entry =>
      ⟨entry.artifact.path, entry.artifact.sha256, entry.artifact.bytes.length.toUInt64⟩ }

end Publish

end Neutrino.ArtifactPublication
