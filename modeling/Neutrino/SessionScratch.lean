import Neutrino.SessionSteps

/-! The request in progress: the scratch fields of a session told from the chunks it accepted
since the last emit. -/

namespace Neutrino.BackendProtocol

open Checked Projection

/-- An artifact chunk: its header, and the payload of the raw frame that came with it. -/
structure Chunk where
  header : ArtifactChunk
  payload : List UInt8

/-- A header whose raw frame is still to come, and the chunks read so far. -/
structure ChunkReader where
  awaiting : Option ArtifactChunk := none
  chunks : List Chunk := []

section Chunks

variable (text : JsonText)

def chunkHeader (frame : Frame) : Option ArtifactChunk :=
  if frame.known = some .artifactChunk then (decodeArtifactChunk text frame).toOption else none

def ChunkReader.read (reader : ChunkReader) (frame : Frame) : ChunkReader :=
  match reader.awaiting with
  | some header => ⟨none, reader.chunks ++ [⟨header, frame.payload⟩]⟩
  | none => ⟨chunkHeader text frame, reader.chunks⟩

/-- The chunks among accepted frames: each header with the payload of the frame after it. -/
def readChunks (frames : List Frame) : ChunkReader := frames.foldl (ChunkReader.read text) {}

theorem readChunks_snoc (frames : List Frame) (frame : Frame) :
    readChunks text (frames ++ [frame]) = (readChunks text frames).read text frame := by
  simp [readChunks]

theorem ChunkReader.read_other {text : JsonText} {reader : ChunkReader} {frame : Frame}
    (idle : reader.awaiting = none) (other : frame.known ≠ some .artifactChunk) :
    reader.read text frame = reader := by
  obtain ⟨awaiting, chunks⟩ := reader
  obtain rfl : awaiting = none := idle
  simp [read, chunkHeader, other]

end Chunks

/-- The chunks of one path, in the order they came. -/
def runOf (chunks : List Chunk) (path : String) : List Chunk :=
  chunks.filter fun chunk => chunk.header.path = path

theorem runOf_snoc (chunks : List Chunk) (chunk : Chunk) (path : String) :
    runOf (chunks ++ [chunk]) path =
      runOf chunks path ++ if chunk.header.path = path then [chunk] else [] := by
  simp [runOf, List.filter_append, List.filter_singleton]

/-- The chunks of one artifact are numbered from zero and hold its bytes in order. The numbers
are machine words of 32 bits. -/
structure IsRun (chunks : List Chunk) (bytes : List UInt8) : Prop where
  bytes_eq : bytes = chunks.flatMap (·.payload)
  sequence : chunks.map (·.header.sequence) = (List.range chunks.length).map Nat.toUInt32

theorem IsRun.nil : IsRun [] [] := ⟨rfl, rfl⟩

theorem IsRun.snoc {chunks : List Chunk} {bytes : List UInt8} (run : IsRun chunks bytes)
    {chunk : Chunk} (next : chunk.header.sequence = chunks.length.toUInt32) :
    IsRun (chunks ++ [chunk]) (bytes ++ chunk.payload) where
  bytes_eq := by simp [run.bytes_eq]
  sequence := by simp [run.sequence, next, List.range_succ]

section Assembly

variable (sha256Hex : List UInt8 → String)

/-- A stored artifact is the run of its path, closed by one final chunk. -/
structure Assembles (chunks : List Chunk) (artifact : CompletedArtifact) : Prop where
  path : validateArtifactPath artifact.path = .ok ()
  run : IsRun (runOf chunks artifact.path) artifact.bytes
  final : (runOf chunks artifact.path).countP (·.header.final) = 1
  digest : artifact.sha256 = "sha256:" ++ sha256Hex artifact.bytes

/-- An emission answers a request with exactly the chunks accepted for it. -/
structure Answers (request : Emit) (chunks : List Chunk) (emission : CompletedEmission) :
    Prop where
  requestId : emission.requestId = request.requestId
  distinct : (emission.artifacts.map (·.path)).Nodup
  assembled : ∀ artifact ∈ emission.artifacts, Assembles sha256Hex chunks artifact
  covered : ∀ chunk ∈ chunks, chunk.header.requestId = request.requestId ∧
    chunk.header.path ∈ emission.artifacts.map (·.path)
  count : emission.artifacts.length ≤ request.outputSpec.maxArtifacts.toNat
  total : (emission.artifacts.map (·.bytes.length)).sum ≤ request.outputSpec.maxTotalBytes.toNat

end Assembly

section History

variable (sha256Hex : List UInt8 → String) (text : JsonText)

/-- The last emit among accepted frames is the request, accepted with its projection, and the
frames accepted since are those given. -/
def Requested (frames : List Frame) (request : Emit) (during : List Frame) : Prop :=
  ∃ before header projection graph,
    frames = before ++ header :: projection :: during ∧
    header.known = some .emit ∧ decodeEmit text header = .ok request ∧
    projection.known = some .projectionBytes ∧
    decodeProjectionPayload text projection.payload = .ok graph ∧
    ∀ frame ∈ during, frame.known ≠ some .emit

/-- An emission was completed by an accepted manifest, from the chunks since the last emit. -/
def Explained (frames : List Frame) (emission : CompletedEmission) : Prop :=
  ∃ earlier manifest later request during,
    frames = earlier ++ manifest :: later ∧ manifest.known = some .manifest ∧
    Requested text earlier request during ∧
    Answers sha256Hex request (readChunks text during).chunks emission

variable {sha256Hex text}

theorem Requested.snoc {frames during : List Frame} {request : Emit} {frame : Frame}
    (requested : Requested text frames request during) (other : frame.known ≠ some .emit) :
    Requested text (frames ++ [frame]) request (during ++ [frame]) := by
  obtain ⟨before, header, projection, graph, rfl, typed, decoded, raw, accepted, none⟩ := requested
  refine ⟨before, header, projection, graph, by simp, typed, decoded, raw, accepted, ?_⟩
  intro earlier listed
  rcases List.mem_append.mp listed with listed | listed
  · exact none earlier listed
  · obtain rfl := List.mem_singleton.mp listed
    exact other

theorem Explained.snoc {frames : List Frame} {emission : CompletedEmission}
    (explained : Explained sha256Hex text frames emission) (frame : Frame) :
    Explained sha256Hex text (frames ++ [frame]) emission := by
  obtain ⟨earlier, manifest, later, request, during, rfl, rest⟩ := explained
  exact ⟨earlier, manifest, later ++ [frame], request, during, by simp, rest⟩

end History

/-! The scratch fields of the request in progress. -/

namespace Artifacts

variable {artifacts : Artifacts} {path : String} {artifact : CompletedArtifact}

theorem emplace_perm (fresh : path ∉ artifacts.map Prod.fst) :
    (artifacts.emplace path artifact).Perm ((path, artifact) :: artifacts) := by
  have absent : (artifacts.any fun entry => entry.1 = path) = false := by
    simp only [List.any_eq_false, decide_eq_true_eq]
    intro entry listed same
    exact fresh (List.mem_map.mpr ⟨entry, listed, same⟩)
  rw [emplace, absent]
  exact List.perm_orderedInsert _ _ _

end Artifacts

/-- What the scratch fields of a session hold, told from the chunks accepted for the request. -/
structure Scratch (sha256Hex : List UInt8 → String) (request : Emit) (reader : ChunkReader)
    (s : Session) : Prop where
  current : s.currentEmit = request
  awaiting : reader.awaiting = if s.pending = .artifact then some s.currentChunk else none
  unprojected : s.pending ≠ .projection
  stored : ∀ entry ∈ s.artifacts,
    entry.1 = entry.2.path ∧ Assembles sha256Hex reader.chunks entry.2
  distinct : (s.artifacts.map Prod.fst).Nodup
  count : s.artifacts.length ≤ request.outputSpec.maxArtifacts.toNat
  openRun : IsRun (runOf reader.chunks s.currentPath) s.currentBytes
  unfinished : (runOf reader.chunks s.currentPath).countP (·.header.final) = 0
  next : s.nextSequence = (runOf reader.chunks s.currentPath).length.toUInt32
  openPath : s.currentPath ≠ "" →
    validatePath s.currentPath = .ok () ∧ s.currentPath ∉ s.artifacts.map Prod.fst
  covered : ∀ chunk ∈ reader.chunks, chunk.header.requestId = request.requestId ∧
    chunk.header.path ≠ "" ∧
    (chunk.header.path ∈ s.artifacts.map Prod.fst ∨ chunk.header.path = s.currentPath)
  awaited : s.pending = .artifact → s.currentPath ≠ "" ∧
    s.currentChunk.requestId = request.requestId ∧ s.currentChunk.path = s.currentPath ∧
    s.currentChunk.sequence = s.nextSequence
  total : (s.artifacts.map (·.2.bytes.length)).sum + s.currentBytes.length =
    s.totalArtifactBytes.toNat
  limit : s.totalArtifactBytes.toNat ≤ request.outputSpec.maxTotalBytes.toNat

namespace Scratch

variable {sha256Hex : List UInt8 → String} {text : JsonText} {request : Emit}
  {reader : ChunkReader} {s : Session} {f : Frame}

/-- Only the pending raw frame and its direction change, and no artifact bytes are awaited. -/
theorem skip (scratch : Scratch sha256Hex request reader s) {pending : PendingRaw}
    {direction : Direction} (before : s.pending ≠ .artifact) (after : pending ≠ .artifact)
    (unprojected : pending ≠ .projection) :
    Scratch sha256Hex request reader
      { s with pending := pending, pendingDirection := direction } :=
  { scratch with
    awaiting := by simpa [before, after] using scratch.awaiting
    unprojected := unprojected
    awaited := fun pended => absurd pended after }

theorem state (scratch : Scratch sha256Hex request reader s) (state : SessionState) :
    Scratch sha256Hex request reader { s with state := state } :=
  { scratch with }

theorem idle_reader (scratch : Scratch sha256Hex request reader s)
    (before : s.pending ≠ .artifact) : reader.awaiting = none := by
  rw [scratch.awaiting, if_neg before]

theorem validatePath_nonempty {path : String} (valid : validatePath path = .ok ()) :
    path ≠ "" := by
  simp only [validatePath, bind_ok, require_ok, exists_const] at valid
  exact valid.1

/-- A path no artifact and no open run has is the path of no chunk. -/
theorem runOf_fresh (scratch : Scratch sha256Hex request reader s) {path : String}
    (closedRun : s.currentPath = "") (fresh : path ∉ s.artifacts.map Prod.fst) :
    runOf reader.chunks path = [] := by
  simp only [runOf, List.filter_eq_nil_iff, decide_eq_true_eq]
  rintro chunk listed rfl
  obtain ⟨-, nonempty, stored | current⟩ := scratch.covered chunk listed
  · exact fresh stored
  · exact nonempty (current.trans closedRun)

theorem runOf_closed (scratch : Scratch sha256Hex request reader s)
    (closedRun : s.currentPath = "") : runOf reader.chunks s.currentPath = [] := by
  simp only [runOf, List.filter_eq_nil_iff, decide_eq_true_eq, closedRun]
  intro chunk listed
  exact (scratch.covered chunk listed).2.1

theorem requireContiguous_ok {chunk : ArtifactChunk} :
    s.requireContiguous chunk = .ok () ↔
      (s.currentPath = "" ∧ chunk.sequence = 0) ∨
      (s.currentPath ≠ "" ∧ chunk.path = s.currentPath ∧ chunk.sequence = s.nextSequence) := by
  unfold Session.requireContiguous
  split
  · rename_i closedRun
    simp [closedRun]
  · rename_i openRun
    simp [openRun, bind_ok]

/-- An accepted header opens the run of its path or goes on with the open one. -/
theorem openChunk (scratch : Scratch sha256Hex request reader s) {chunk : ArtifactChunk}
    (direction : Direction)
    (requestId : chunk.requestId = s.currentEmit.requestId)
    (path : validatePath chunk.path = .ok ())
    (fresh : (s.artifacts.any fun entry => entry.1 = chunk.path) = false)
    (contiguous : s.requireContiguous chunk = .ok ()) :
    Scratch sha256Hex request ⟨some chunk, reader.chunks⟩ { s with
      currentPath := if s.currentPath = "" then chunk.path else s.currentPath
      currentChunk := chunk
      pending := .artifact
      pendingDirection := direction } := by
  have absent : chunk.path ∉ s.artifacts.map Prod.fst := by
    simp only [List.any_eq_false, decide_eq_true_eq] at fresh
    rintro listed
    obtain ⟨entry, listed, same⟩ := List.mem_map.mp listed
    exact fresh entry listed same
  have requested : chunk.requestId = request.requestId := by rw [requestId, scratch.current]
  rcases requireContiguous_ok.mp contiguous with ⟨closedRun, first⟩ | ⟨opened, same, following⟩
  · have none := scratch.runOf_fresh closedRun absent
    have earlier := scratch.runOf_closed closedRun
    have bytes : s.currentBytes = [] := by
      rw [scratch.openRun.bytes_eq, earlier, List.flatMap_nil]
    have sequence : s.nextSequence = 0 := by
      rw [scratch.next, earlier]
      rfl
    exact {
      scratch with
      awaiting := rfl
      unprojected := by simp
      openRun := by simpa [closedRun, none, bytes] using IsRun.nil
      unfinished := by simp [closedRun, none]
      next := by simp [closedRun, none, sequence]
      openPath := fun _ => by
        rw [if_pos closedRun]
        exact ⟨path, absent⟩
      covered := by
        intro other listed
        obtain ⟨answers, nonempty, stored | current⟩ := scratch.covered other listed
        · exact ⟨answers, nonempty, .inl stored⟩
        · exact absurd (current.trans closedRun) nonempty
      awaited := fun _ => by
        simpa [closedRun, first, sequence] using ⟨validatePath_nonempty path, requested⟩ }
  · exact {
      scratch with
      awaiting := rfl
      unprojected := by simp
      openRun := by simpa [opened] using scratch.openRun
      unfinished := by simpa [opened] using scratch.unfinished
      next := by simpa [opened] using scratch.next
      openPath := by simpa [opened] using scratch.openPath opened
      covered := by simpa [opened] using scratch.covered
      awaited := fun _ => by simpa [opened, same, following] using requested }

/-- Accepted bytes stay within the limit of the request. -/
theorem exceeds_total (framed : frameError f = .ok ()) (fits : s.exceedsTotalBytes f = false) :
    (s.totalArtifactBytes + f.payload.length.toUInt64).toNat =
        s.totalArtifactBytes.toNat + f.payload.length ∧
      s.totalArtifactBytes.toNat + f.payload.length ≤
        s.currentEmit.outputSpec.maxTotalBytes.toNat := by
  obtain ⟨small, -⟩ := check_ok.mp framed
  rw [require_ok, kMaximumFramePayload] at small
  have size : f.payload.length.toUInt64.toNat = f.payload.length := by
    rw [Nat.toUInt64, UInt64.toNat_ofNat']
    omega
  simp only [Session.exceedsTotalBytes, Bool.or_eq_false_iff, decide_eq_false_iff_not, gt_iff_lt,
    UInt64.not_lt] at fits
  obtain ⟨room, total⟩ := fits
  have room' := UInt64.le_iff_toNat_le.mp room
  have total' := UInt64.le_iff_toNat_le.mp total
  rw [UInt64.toNat_sub_of_le _ _ room] at total'
  have bound := s.currentEmit.outputSpec.maxTotalBytes.toNat_lt
  rw [UInt64.toNat_add]
  omega

/-- The chunk of an accepted raw frame. -/
def arrived (s : Session) (f : Frame) : Chunk := ⟨s.currentChunk, f.payload⟩

section Bytes

variable (scratch : Scratch sha256Hex request reader s) (awaited : s.pending = .artifact)

include scratch awaited

theorem read_arrived :
    reader.read text f = ⟨none, reader.chunks ++ [arrived s f]⟩ := by
  have header : reader.awaiting = some s.currentChunk := by
    rw [scratch.awaiting, if_pos awaited]
  simp [ChunkReader.read, header, arrived]

theorem openRun_arrived :
    runOf (reader.chunks ++ [arrived s f]) s.currentPath =
      runOf reader.chunks s.currentPath ++ [arrived s f] := by
  have path : (arrived s f).header.path = s.currentPath := (scratch.awaited awaited).2.2.1
  rw [runOf_snoc, if_pos path]

theorem isRun_arrived :
    IsRun (runOf (reader.chunks ++ [arrived s f]) s.currentPath)
      (s.currentBytes ++ f.payload) := by
  rw [scratch.openRun_arrived awaited]
  exact scratch.openRun.snoc ((scratch.awaited awaited).2.2.2.trans scratch.next)

/-- The runs already stored keep their chunks. -/
theorem stored_arrived {entry : String × CompletedArtifact} (listed : entry ∈ s.artifacts) :
    entry.1 = entry.2.path ∧ Assembles sha256Hex (reader.chunks ++ [arrived s f]) entry.2 := by
  obtain ⟨key, assembles⟩ := scratch.stored entry listed
  have other : (arrived s f).header.path ≠ entry.2.path := by
    intro same
    obtain ⟨opened, -, path, -⟩ := scratch.awaited awaited
    refine (scratch.openPath opened).2 (List.mem_map.mpr ⟨entry, listed, ?_⟩)
    rw [key, ← same, ← path]
    rfl
  have kept : runOf (reader.chunks ++ [arrived s f]) entry.2.path =
      runOf reader.chunks entry.2.path := by
    rw [runOf_snoc, if_neg other, List.append_nil]
  exact ⟨key, { assembles with run := kept ▸ assembles.run, final := kept ▸ assembles.final }⟩

theorem covered_arrived {chunk : Chunk} (listed : chunk ∈ reader.chunks ++ [arrived s f]) :
    chunk.header.requestId = request.requestId ∧ chunk.header.path ≠ "" ∧
      (chunk.header.path ∈ s.artifacts.map Prod.fst ∨ chunk.header.path = s.currentPath) := by
  rcases List.mem_append.mp listed with listed | listed
  · exact scratch.covered chunk listed
  · obtain rfl := List.mem_singleton.mp listed
    obtain ⟨opened, requestId, path, -⟩ := scratch.awaited awaited
    exact ⟨requestId, path ▸ opened, .inr path⟩

/-- A chunk that is not the last adds to the open run. -/
theorem bytes (text : JsonText) (framed : frameError f = .ok ()) (fits : s.exceedsTotalBytes f = false)
    (more : s.currentChunk.final = false) :
    Scratch sha256Hex request (reader.read text f) { s.grow f with pending := .none } := by
  have run := scratch.openRun_arrived (f := f) awaited
  obtain ⟨total, limit⟩ := exceeds_total framed fits
  rw [scratch.read_arrived awaited]
  exact {
    current := scratch.current
    awaiting := rfl
    unprojected := by simp
    stored := fun entry listed => scratch.stored_arrived awaited listed
    distinct := scratch.distinct
    count := scratch.count
    openRun := scratch.isRun_arrived awaited
    unfinished := by
      change List.countP _ (runOf _ s.currentPath) = 0
      rw [run, List.countP_append, scratch.unfinished]
      simp [arrived, more]
    next := by
      change s.nextSequence + 1 = (runOf _ s.currentPath).length.toUInt32
      rw [run, scratch.next, List.length_append]
      simp
    openPath := scratch.openPath
    covered := fun chunk listed => scratch.covered_arrived awaited listed
    awaited := by simp
    total := by
      change (s.artifacts.map _).sum + (s.currentBytes ++ f.payload).length = _
      rw [List.length_append, ← Nat.add_assoc, scratch.total]
      exact total.symm
    limit := by
      rw [← scratch.current]
      exact total.trans_le limit }

/-- The last chunk of a run closes it into an artifact. -/
theorem finalBytes (text : JsonText) (framed : frameError f = .ok ()) (fits : s.exceedsTotalBytes f = false)
    (final : s.currentChunk.final = true)
    (room : s.artifacts.length < s.currentEmit.outputSpec.maxArtifacts.toNat) :
    Scratch sha256Hex request (reader.read text f)
      (Session.closeRun sha256Hex (s.grow f)) := by
  obtain ⟨opened, -, -, -⟩ := scratch.awaited awaited
  obtain ⟨path, fresh⟩ := scratch.openPath opened
  have run := scratch.openRun_arrived (f := f) awaited
  obtain ⟨total, limit⟩ := exceeds_total framed fits
  let artifact : CompletedArtifact := ⟨s.currentPath, s.currentBytes ++ f.payload,
    "sha256:" ++ sha256Hex (s.currentBytes ++ f.payload)⟩
  have perm : (s.artifacts.emplace s.currentPath artifact).Perm
      ((s.currentPath, artifact) :: s.artifacts) := Artifacts.emplace_perm fresh
  have assembles : Assembles sha256Hex (reader.chunks ++ [arrived s f]) artifact := {
    path := path
    run := scratch.isRun_arrived awaited
    final := by
      change List.countP _ (runOf _ s.currentPath) = 1
      rw [run, List.countP_append, scratch.unfinished]
      simp [arrived, final]
    digest := rfl }
  have keyed {chunk : Chunk} (listed : chunk ∈ reader.chunks ++ [arrived s f]) :=
    scratch.covered_arrived awaited listed
  have none : runOf (reader.chunks ++ [arrived s f]) "" = [] := by
    simp only [runOf, List.filter_eq_nil_iff, decide_eq_true_eq]
    exact fun chunk listed => (keyed listed).2.1
  rw [scratch.read_arrived awaited]
  exact {
    current := scratch.current
    awaiting := rfl
    unprojected := by simp [Session.closeRun]
    stored := by
      intro entry listed
      rcases List.mem_cons.mp (perm.mem_iff.mp listed) with rfl | earlier
      · exact ⟨rfl, assembles⟩
      · exact scratch.stored_arrived awaited earlier
    distinct := (perm.map Prod.fst).nodup_iff.mpr (List.nodup_cons.mpr ⟨fresh, scratch.distinct⟩)
    count := by
      rw [← scratch.current]
      exact perm.length_eq.trans_le room
    openRun := by
      change IsRun (runOf _ "") []
      rw [none]
      exact IsRun.nil
    unfinished := by
      change List.countP _ (runOf _ "") = 0
      rw [none]
      rfl
    next := by
      change 0 = (runOf _ "").length.toUInt32
      rw [none]
      rfl
    openPath := fun opened => absurd rfl opened
    covered := by
      intro chunk listed
      obtain ⟨requestId, nonempty, stored | current⟩ := keyed listed
      · exact ⟨requestId, nonempty,
          .inl ((perm.map Prod.fst).mem_iff.mpr (List.mem_cons_of_mem _ stored))⟩
      · exact ⟨requestId, nonempty,
          .inl ((perm.map Prod.fst).mem_iff.mpr (current ▸ List.mem_cons_self))⟩
    awaited := by simp [Session.closeRun]
    total := by
      change ((s.artifacts.emplace s.currentPath artifact).map (·.2.bytes.length)).sum + 0 =
        (s.totalArtifactBytes + f.payload.length.toUInt64).toNat
      rw [(perm.map _).sum_nat, total, List.map_cons, List.sum_cons, ← scratch.total]
      simp only [artifact, List.length_append]
      omega
    limit := by
      rw [← scratch.current]
      exact total.trans_le limit }

end Bytes

end Scratch

/-! The history of a session. -/

/-- No request is in progress, and the scratch fields are clear. -/
structure Idle (s : Session) : Prop where
  artifacts : s.artifacts = []
  currentPath : s.currentPath = ""
  currentBytes : s.currentBytes = []
  nextSequence : s.nextSequence = 0
  total : s.totalArtifactBytes = 0
  unawaited : s.pending ≠ .artifact

theorem Idle.reset (s : Session) : Idle s.resetRequest :=
  ⟨rfl, rfl, rfl, rfl, rfl, by simp [Session.resetRequest]⟩

theorem Scratch.start {sha256Hex : List UInt8 → String} {s : Session} (idle : Idle s)
    (unawaited : s.pending = .none) : Scratch sha256Hex s.currentEmit {} s where
  current := rfl
  awaiting := by simp [unawaited]
  unprojected := by simp [unawaited]
  stored := by simp [idle.artifacts]
  distinct := by simp [idle.artifacts]
  count := by simp [idle.artifacts]
  openRun := by simpa [runOf, idle.currentBytes] using IsRun.nil
  unfinished := by simp [runOf]
  next := by simp [runOf, idle.nextSequence]
  openPath := fun opened => absurd idle.currentPath opened
  covered := by simp
  awaited := by simp [unawaited]
  total := by simp [idle.artifacts, idle.currentBytes, idle.total]
  limit := by simp [idle.total]

/-- A session and the frames it has accepted. -/
structure Tracks (sha256Hex : List UInt8 → String) (text : JsonText) (frames : List Frame)
    (s : Session) : Prop where
  busy : s.state = .emitting ∨ s.state = .cancelling → ∃ request during,
    Requested text frames request during ∧
    Scratch sha256Hex request (readChunks text during) s
  idle : s.state = .init ∨ s.state = .awaitingCapabilities ∨ s.state = .ready →
    Idle s ∧ (s.pending = .projection → ∃ before header, frames = before ++ [header] ∧
      header.known = some .emit ∧ decodeEmit text header = .ok s.currentEmit)

section Steps

open Session

variable {sha256Hex : List UInt8 → String} {text : JsonText} {frames : List Frame}
  {s s' : Session} {d : Direction} {f : Frame}

/-- A finished session has nothing to track. -/
theorem Tracks.finished (state : s.state = .failed ∨ s.state = .closed) :
    Tracks sha256Hex text frames s := by
  constructor
  · rcases state with state | state <;> simp [state]
  · rcases state with state | state <;> simp [state]

theorem Tracks.of_idle (state : s.state ≠ .emitting ∧ s.state ≠ .cancelling) (idle : Idle s)
    (unannounced : s.pending ≠ .projection) : Tracks sha256Hex text frames s := by
  constructor
  · rintro (busy | busy)
    · exact absurd busy state.1
    · exact absurd busy state.2
  · exact fun _ => ⟨idle, fun announced => absurd announced unannounced⟩

/-- A frame of a type the session does not know, or the raw frame of one, leaves the request
in progress alone. -/
theorem Tracks.skip (tracks : Tracks sha256Hex text frames s) {pending : PendingRaw}
    {direction : Direction} (before : s.pending ≠ .artifact) (after : pending ≠ .artifact)
    (unannounced : pending ≠ .projection)
    (other : f.known ≠ some .emit ∧ f.known ≠ some .artifactChunk) :
    Tracks sha256Hex text (frames ++ [f])
      { s with pending := pending, pendingDirection := direction } := by
  constructor
  · intro busy
    obtain ⟨request, during, requested, scratch⟩ := tracks.busy busy
    refine ⟨request, during ++ [f], requested.snoc other.1, ?_⟩
    rw [readChunks_snoc, ChunkReader.read_other (scratch.idle_reader before) other.2]
    exact scratch.skip before after unannounced
  · intro state
    obtain ⟨idle, -⟩ := tracks.idle state
    exact ⟨{ idle with unawaited := after }, fun announced => absurd announced unannounced⟩

/-- Any other frame that keeps the request in progress is no chunk of it. -/
theorem Tracks.busy_snoc (tracks : Tracks sha256Hex text frames s)
    (state : s.state = .emitting ∨ s.state = .cancelling) (other : f.known ≠ some .emit) :
    ∃ request during reader, Requested text (frames ++ [f]) request (during ++ [f]) ∧
      readChunks text (during ++ [f]) = reader.read text f ∧
      Scratch sha256Hex request reader s := by
  obtain ⟨request, during, requested, scratch⟩ := tracks.busy state
  exact ⟨request, during, _, requested.snoc other, readChunks_snoc text during f, scratch⟩

theorem Session.Reads.phase (reads : Reads s f) :
    (s.state = .init ∨ s.state = .awaitingCapabilities ∨ s.state = .ready) ∨
      (s.state = .emitting ∨ s.state = .cancelling) := by
  have alive := reads.alive
  have unclosed := reads.open_
  cases state : s.state <;> simp_all

/-- Artifact bytes are awaited only while a request is in progress. -/
theorem Tracks.busy_of_awaited (tracks : Tracks sha256Hex text frames s) (reads : Reads s f)
    (awaited : s.pending = .artifact) : s.state = .emitting ∨ s.state = .cancelling := by
  rcases reads.phase with idle | busy
  · exact absurd awaited (tracks.idle idle).1.unawaited
  · exact busy

theorem Tracks.step (tracks : Tracks sha256Hex text frames s) (reads : Reads s f)
    (accepts : Accepts sha256Hex text s d f s') : Tracks sha256Hex text (frames ++ [f]) s' := by
  cases accepts with
  | plain idle unknown optional bare =>
      have kept : Tracks sha256Hex text (frames ++ [f])
          { s with pending := s.pending, pendingDirection := s.pendingDirection } :=
        tracks.skip (by simp [idle]) (by simp [idle]) (by simp [idle]) (by simp [unknown])
      exact kept
  | skipHeader idle unknown optional trailing =>
      exact tracks.skip (by simp [idle]) (by simp) (by simp) (by simp [unknown])
  | skipRaw awaited same bare raw =>
      have other : f.known ≠ some .emit ∧ f.known ≠ some .artifactChunk := by
        constructor <;> intro known <;> simp [known, MessageType.isRaw] at raw
      exact tracks.skip (by simp [awaited]) (by simp) (by simp) other
  | @projection graph awaited same bare typed sized digest decoded bounds =>
      rcases reads.phase with state | busy
      · obtain ⟨idle, announced⟩ := tracks.idle state
        obtain ⟨before, header, rfl, emit, request⟩ := announced awaited
        have started : Idle { s with
            accepted := s.accepted ++ [⟨s.currentEmit, graph⟩], pending := .none, state := .emitting } :=
          { idle with unawaited := by simp }
        refine ⟨fun _ => ⟨s.currentEmit, [], ?_, Scratch.start started rfl⟩, by simp⟩
        exact ⟨before, header, f, graph, by simp, emit, request, typed, decoded, by simp⟩
      · obtain ⟨request, during, -, scratch⟩ := tracks.busy busy
        exact absurd awaited scratch.unprojected
  | bytes awaited same bare typed sized fits more =>
      have busy := tracks.busy_of_awaited reads awaited
      obtain ⟨request, during, reader, requested, read, scratch⟩ :=
        tracks.busy_snoc (f := f) busy (by simp [typed])
      have grown := scratch.bytes awaited text reads.framed fits more
      refine ⟨fun _ => ⟨request, during ++ [f], requested, read ▸ grown⟩, fun idle => ?_⟩
      rcases busy with state | state <;> simp [grow, state] at idle
  | finalBytes awaited same bare typed sized fits final room =>
      have busy := tracks.busy_of_awaited reads awaited
      obtain ⟨request, during, reader, requested, read, scratch⟩ :=
        tracks.busy_snoc (f := f) busy (by simp [typed])
      have closed := scratch.finalBytes awaited text reads.framed fits final room
      refine ⟨fun _ => ⟨request, during ++ [f], requested, read ▸ closed⟩, fun idle => ?_⟩
      rcases busy with state | state <;> simp [closeRun, grow, state] at idle
  | hello idle typed bare phase toward decoded major =>
      exact .of_idle (by simp) { (tracks.idle (.inl phase)).1 with } (by simp [idle])
  | capabilities idle typed bare phase toward decoded version bounds =>
      exact .of_idle (by simp) { (tracks.idle (.inr (.inl phase))).1 with } (by simp [idle])
  | emit idle typed trailing phase toward decoded nonzero encoding digest profile =>
      refine ⟨by simp [phase], fun _ => ⟨?_, fun _ => ⟨frames, f, rfl, typed, decoded⟩⟩⟩
      exact { (tracks.idle (.inr (.inr phase))).1 with unawaited := by simp }
  | @artifactChunk chunk idle typed trailing phase toward decoded request path fresh contiguous =>
      obtain ⟨emit, during, reader, requested, read, scratch⟩ :=
        tracks.busy_snoc (f := f) (.inl phase) (by simp [typed])
      have opened := scratch.openChunk d request path fresh contiguous
      have header : reader.read text f = ⟨some chunk, reader.chunks⟩ := by
        simp only [ChunkReader.read, scratch.idle_reader (by simp [idle]), chunkHeader, typed,
          decoded, if_true]
        rfl
      refine ⟨fun _ => ⟨emit, during ++ [f], requested, ?_⟩, by simp [phase]⟩
      rw [read, header]
      exact opened
  | manifest idle typed bare phase toward closedRun decoded request receipt entries complete =>
      exact .of_idle (by simp) { Idle.reset s with } (by simp [resetRequest])
  | cancel idle typed bare phase toward decoded request =>
      obtain ⟨emit, during, reader, requested, read, scratch⟩ :=
        tracks.busy_snoc (f := f) (.inl phase) (by simp [typed])
      refine ⟨fun _ => ⟨emit, during ++ [f], requested, ?_⟩, by simp⟩
      rw [read, ChunkReader.read_other (scratch.idle_reader (by simp [idle])) (by simp [typed])]
      exact scratch.state .cancelling
  | cancelled idle typed bare phase toward decoded request =>
      exact .of_idle (by simp) { Idle.reset s with } (by simp [resetRequest])
  | refusal idle typed bare phase toward decoded request => exact .finished (.inl rfl)
  | error idle typed bare phase toward decoded request =>
      exact .of_idle (by simp) { Idle.reset s with } (by simp [resetRequest])
  | goodbye idle typed bare phase toward decoded => exact .finished (.inr rfl)

/-- The queues of what was produced play no part in what is tracked. -/
theorem Tracks.queues (tracks : Tracks sha256Hex text frames s) (accepted : List AcceptedEmit)
    (completed : List CompletedEmission) (peerErrors : List ErrorMessage) :
    Tracks sha256Hex text frames
      { s with accepted := accepted, completed := completed, peerErrors := peerErrors } := by
  constructor
  · intro busy
    obtain ⟨request, during, requested, scratch⟩ := tracks.busy busy
    exact ⟨request, during, requested, { scratch with }⟩
  · intro state
    obtain ⟨idle, announced⟩ := tracks.idle state
    exact ⟨{ idle with }, announced⟩

/-- The emission an accepted manifest completes. -/
theorem Scratch.answers {request : Emit} {reader : ChunkReader}
    (scratch : Scratch sha256Hex request reader s) {requestId : UInt64} {receiptDigest : String}
    (closedRun : s.currentPath = "") (same : requestId = s.currentEmit.requestId) :
    Answers sha256Hex request reader.chunks
      ⟨requestId, s.artifacts.map Prod.snd, receiptDigest⟩ := by
  have keys : (s.artifacts.map Prod.snd).map (·.path) = s.artifacts.map Prod.fst := by
    rw [List.map_map]
    exact List.map_congr_left fun entry listed => (scratch.stored entry listed).1.symm
  exact {
    requestId := same.trans (congrArg Emit.requestId scratch.current)
    distinct := by
      rw [keys]
      exact scratch.distinct
    assembled := by
      intro artifact listed
      obtain ⟨entry, member, rfl⟩ := List.mem_map.mp listed
      exact (scratch.stored entry member).2
    covered := by
      intro chunk listed
      obtain ⟨answers, nonempty, stored | current⟩ := scratch.covered chunk listed
      · exact ⟨answers, keys ▸ stored⟩
      · exact absurd (current.trans closedRun) nonempty
    count := by simpa using scratch.count
    total := by
      rw [List.map_map]
      have total := scratch.total
      have limit := scratch.limit
      simp only [Function.comp_def]
      omega }

/-- An accepted frame completes at most one emission, and that one answers the last emit. -/
theorem Tracks.completed (tracks : Tracks sha256Hex text frames s)
    (accepts : Accepts sha256Hex text s d f s') :
    s'.completed = s.completed ∨ ∃ emission, s'.completed = s.completed ++ [emission] ∧
      Explained sha256Hex text (frames ++ [f]) emission := by
  cases accepts with
  | manifest idle typed bare phase toward closedRun decoded request receipt entries complete =>
      obtain ⟨emit, during, requested, scratch⟩ := tracks.busy (.inl phase)
      exact .inr ⟨_, rfl, frames, f, [], emit, during, rfl, typed, requested,
        scratch.answers closedRun request⟩
  | _ => exact .inl rfl

end Steps

end Neutrino.BackendProtocol
