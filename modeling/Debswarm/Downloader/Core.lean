import Debswarm.File.Sparse
import Debswarm.Text.Bytes

/-!
# Resumable chunked downloads

A large package is downloaded in chunks that are written straight into one assembly
file.  A database row for the download and one for each of its chunks say which chunks
are already in the file, so that a later attempt can skip them.  An attempt can break off
between a write and the row that records it.

The model follows the attempts for one hash, which the caller serialises; a crash ends an
attempt and keeps rows and file as they are.  The receipts, which say what each attempt
received for which range, are not part of the program.
-/

namespace Debswarm.Downloader

open File List Text

/-! ## The state rows -/

/-- The status of a download or of a chunk. -/
inductive Status
  | pending
  | inProgress
  | completed
  | failed
  deriving DecidableEq, Repr

/-- The row of a chunk. -/
structure ChunkState where
  index : Nat
  start : Nat
  stop : Nat
  status : Status
  deriving DecidableEq, Repr

/-- The row of a download with those of its chunks. -/
structure DownloadState where
  url : Str
  expectedSize : Nat
  completedSize : Nat
  chunkSize : Nat
  totalChunks : Nat
  status : Status
  error : Option Str
  retryCount : Nat
  chunks : List ChunkState
  deriving DecidableEq, Repr

/-- How many chunks a file has. -/
def numChunks (expectedSize chunkSize : Nat) : Nat :=
  (expectedSize + chunkSize - 1) / chunkSize

def chunkStart (chunkSize index : Nat) : Nat :=
  index * chunkSize

/-- Where a chunk ends. -/
def chunkStop (expectedSize chunkSize index : Nat) : Nat :=
  min (chunkStart chunkSize index + chunkSize) expectedSize

/-- Insert the rows of a new download; fails when the download has a row. -/
def createDownload (url : Str) (expectedSize chunkSize : Nat) (saved : Option DownloadState) :
    Option DownloadState :=
  match saved with
  | some _ => none
  | none =>
    let totalChunks := numChunks expectedSize chunkSize
    some
      { url, expectedSize, chunkSize, totalChunks
        completedSize := 0
        status := .pending
        error := none
        retryCount := 0
        chunks := (range totalChunks).map fun index =>
          ⟨index, chunkStart chunkSize index, chunkStop expectedSize chunkSize index,
            .pending⟩ }

def updateDownloadStatus (status : Status) (saved : Option DownloadState) :
    Option DownloadState :=
  saved.map fun row => { row with status }

def setChunkStatus (index : Nat) (status : Status) (chunks : List ChunkState) :
    List ChunkState :=
  chunks.map fun chunk => if chunk.index = index then { chunk with status } else chunk

def completedBytes (chunks : List ChunkState) : Nat :=
  ((chunks.filter fun chunk => chunk.status = .completed).map fun chunk =>
    chunk.stop - chunk.start).sum

/-- Set the status of one chunk, and recount the completed bytes when it is completed. -/
def updateChunk (index : Nat) (status : Status) (saved : Option DownloadState) :
    Option DownloadState :=
  saved.map fun row =>
    let chunks := setChunkStatus index status row.chunks
    if status = .completed then
      { row with chunks, completedSize := completedBytes chunks }
    else
      { row with chunks }

/-- Mark a download as completed. -/
def completeDownload (saved : Option DownloadState) : Option DownloadState :=
  updateDownloadStatus .completed saved

def failDownload (message : Str) (saved : Option DownloadState) : Option DownloadState :=
  saved.map fun row => { row with status := .failed, error := some message }

/-- Return a failed download to the queue.  Completed chunks stay completed. -/
def markForRetry (saved : Option DownloadState) : Option DownloadState :=
  saved.map fun row =>
    if row.status = .failed then
      { row with
        status := .pending
        retryCount := row.retryCount + 1
        error := none
        chunks := row.chunks.map fun chunk =>
          if chunk.status = .completed then chunk else { chunk with status := .pending } }
    else
      row

/-! ## One attempt -/

/-- What an attempt keeps in memory.  `chunks` are the chunks it has not heard of yet. -/
structure Attempt where
  number : Nat
  expectedSize : Nat
  chunkSize : Nat
  resumeEnabled : Bool
  completedFromDisk : List Nat
  chunks : List Nat
  received : List Nat
  firstError : Option Str
  deriving DecidableEq, Repr

/-- How far an attempt is: opening the file, sizing it, waiting for chunks, recording one, removing
a file that does not match, deleting the rows, and returned. -/
inductive Phase
  | idle
  | opening (attempt : Attempt)
  | allocating (attempt : Attempt)
  | collecting (attempt : Attempt)
  | recording (attempt : Attempt) (index : Nat)
  | cleaning
  | deleting
  | returned
  deriving DecidableEq, Repr

/-- What an attempt received for a range. -/
structure Receipt where
  attempt : Nat
  start : Nat
  stop : Nat
  data : Str
  deriving DecidableEq, Repr

/-- The rows, the file and the running attempt, with the attempts so far and their receipts. -/
structure State where
  download : Option DownloadState
  file : Option (Sparse UInt8)
  phase : Phase
  attempts : Nat
  receipts : List Receipt
  deriving DecidableEq, Repr

/-- Nothing was downloaded yet. -/
def State.new : State :=
  ⟨none, none, .idle, 0, []⟩

/-- The calls at the start of an attempt that fail. -/
structure StartFaults where
  getDownload : Bool
  createDownload : Bool
  ensurePartialDir : Bool
  deriving DecidableEq, Repr

/-- Every call succeeds. -/
def StartFaults.none : StartFaults :=
  ⟨false, false, false⟩

/-- The completed chunks, if the file and the saved chunk size are as expected. -/
def completedFromDisk (expectedSize chunkSize : Nat) (existing : Option DownloadState)
    (file : Option (Sparse UInt8)) : List Nat :=
  match existing, file with
  | some row, some file =>
    if row.chunkSize = chunkSize ∧ file.length = expectedSize then
      (row.chunks.filter fun chunk => chunk.status = .completed ∧
        chunk.index < numChunks expectedSize chunkSize).map fun chunk => chunk.index
    else []
  | _, _ => []

/-- Begin an attempt: read the saved state or create it, and decide which chunks to
skip. -/
def beginAttempt (faults : StartFaults) (url : Str) (expectedSize chunkSize : Nat)
    (state : State) : State :=
  let existing := if faults.getDownload then none else state.download
  let created :=
    match existing with
    | some _ => state.download
    | none =>
      if faults.createDownload then none
      else createDownload url expectedSize chunkSize state.download
  let resumeEnabled := !faults.getDownload && created.isSome && !faults.ensurePartialDir
  let skipped :=
    if resumeEnabled then completedFromDisk expectedSize chunkSize existing state.file else []
  let number := state.attempts + 1
  { state with
    download := created.or state.download
    attempts := number
    phase := .opening
      { number, expectedSize, chunkSize, resumeEnabled
        completedFromDisk := skipped
        -- the source builds this list after sizing the file, from the same data
        chunks := (range (numChunks expectedSize chunkSize)).filter (· ∉ skipped)
        received := []
        firstError := none } }

/-- Open the assembly file, creating it if it is not there. -/
def openAssembly (fails : Bool) (attempt : Attempt) (state : State) : State :=
  if fails then { state with phase := .idle }
  else { state with file := some (state.file.getD []), phase := .allocating attempt }

/-- Size the assembly file and start the workers. -/
def allocate (fails : Bool) (attempt : Attempt) (state : State) : State :=
  if fails then
    { state with phase := .idle }
  else
    { state with
      file := state.file.map (Sparse.truncate attempt.expectedSize)
      download :=
        if attempt.resumeEnabled ∧ attempt.chunks ≠ [] then
          updateDownloadStatus .inProgress state.download
        else state.download
      phase := .collecting attempt }

/-- Keep the first error. -/
def Attempt.fail (attempt : Attempt) (message : Str) : Attempt :=
  { attempt with firstError := attempt.firstError.or (some message) }

/-- A worker gave up on a chunk. -/
def chunkFailed (index : Nat) (cause : Str) (attempt : Attempt) (state : State) : State :=
  let heard := { attempt with chunks := attempt.chunks.filter (· ≠ index) }
  { state with
    phase := .collecting (heard.fail (ofAscii s!"chunk {index} failed: " ++ cause)) }

/-- A worker delivered a chunk: write it into place, possibly only its first bytes. -/
def chunkArrived (index : Nat) (data : Str) (broken : Option (Nat × Str)) (attempt : Attempt)
    (state : State) : State :=
  let start := chunkStart attempt.chunkSize index
  let stop := chunkStop attempt.expectedSize attempt.chunkSize index
  let heard := { attempt with chunks := attempt.chunks.filter (· ≠ index) }
  let receipts := state.receipts ++ [⟨attempt.number, start, stop, data⟩]
  match broken with
  | some (written, cause) =>
    { state with
      receipts
      file := state.file.map (Sparse.writeAt start (data.take written))
      phase := .collecting
        (heard.fail (ofAscii s!"failed to write chunk {index}: " ++ cause)) }
  | none =>
    let landed := { heard with received := index :: heard.received }
    { state with
      receipts
      file := state.file.map (Sparse.writeAt start data)
      phase := if attempt.resumeEnabled then .recording landed index else .collecting landed }

def recordChunk (fails : Bool) (attempt : Attempt) (index : Nat) (state : State) : State :=
  { state with
    download := if fails then state.download else updateChunk index .completed state.download
    phase := .collecting attempt }

/-- Report the first error, or a chunk nobody delivered, or compare the hash of the file. -/
def finish (lib : Libraries) (expectedHash : Str) (unreadable : Bool) (attempt : Attempt)
    (state : State) : State :=
  match attempt.firstError with
  | some message =>
    { state with
      download :=
        if attempt.resumeEnabled then failDownload message state.download else state.download
      phase := .idle }
  | none =>
    let missing := (range (numChunks attempt.expectedSize attempt.chunkSize)).any
      fun index => index ∉ attempt.received ∧ index ∉ attempt.completedFromDisk
    if missing ∨ unreadable then
      { state with phase := .idle }
    else if lib.sha256 ((state.file.getD []).contents 0) ≠ expectedHash then
      { state with
        download :=
          if attempt.resumeEnabled then failDownload (ofAscii "hash mismatch") state.download
          else state.download
        phase := .cleaning }
    else if attempt.resumeEnabled then
      { state with download := completeDownload state.download, phase := .deleting }
    else
      { state with phase := .returned }

/-! ## Runs of attempts -/

/-- What happens to a download.  Every `fails` says that the call of the step fails. -/
inductive Event
  | beginAttempt (faults : StartFaults) (url : Str) (expectedSize chunkSize : Nat)
  | openAssembly (fails : Bool)
  | allocate (fails : Bool)
  | chunkFailed (index : Nat) (cause : Str)
  | chunkArrived (index : Nat) (data : Str) (broken : Option (Nat × Str))
  | recordChunk (fails : Bool)
  | finish (unreadable : Bool)
  | removeFile (fails : Bool)
  | deleteDownload (fails : Bool)
  | takeFile (fails : Bool)
  | markForRetry
  | crash
  deriving DecidableEq, Repr

/-- One step. A chunk arrives only if it was asked for and has the length of its range. -/
def next (lib : Libraries) (expectedHash : Str) (state : State) (event : Event) : State :=
  match event, state.phase with
  | .beginAttempt faults url expectedSize chunkSize, .idle =>
    if 0 < expectedSize ∧ 0 < chunkSize then
      beginAttempt faults url expectedSize chunkSize state
    else state
  | .openAssembly fails, .opening attempt => openAssembly fails attempt state
  | .allocate fails, .allocating attempt => allocate fails attempt state
  | .chunkFailed index cause, .collecting attempt =>
    if index ∈ attempt.chunks then chunkFailed index cause attempt state else state
  | .chunkArrived index data broken, .collecting attempt =>
    if index ∈ attempt.chunks ∧
        data.length = chunkStop attempt.expectedSize attempt.chunkSize index -
          chunkStart attempt.chunkSize index then
      chunkArrived index data broken attempt state
    else state
  | .recordChunk fails, .recording attempt index =>
    recordChunk fails attempt index state
  | .finish unreadable, .collecting attempt =>
    finish lib expectedHash unreadable attempt state
  | .removeFile fails, .cleaning =>
    { state with file := if fails then state.file else none, phase := .idle }
  | .deleteDownload fails, .deleting =>
    { state with download := if fails then state.download else none, phase := .returned }
  | .takeFile fails, .returned =>
    { state with file := if fails then state.file else none, phase := .idle }
  | .markForRetry, _ => { state with download := markForRetry state.download }
  | .crash, _ => { state with phase := .idle }
  | _, _ => state

/-- What a step can do: nothing, or what its event does in the phase that has a place for
it. -/
inductive Step (lib : Libraries) (expectedHash : Str) (state : State) : Event → State → Prop
  | stays (event : Event) : Step lib expectedHash state event state
  | beginAttempt (faults : StartFaults) (url : Str) (expectedSize chunkSize : Nat)
      (idle : state.phase = .idle) (positive : 0 < expectedSize ∧ 0 < chunkSize) :
      Step lib expectedHash state (.beginAttempt faults url expectedSize chunkSize)
        (beginAttempt faults url expectedSize chunkSize state)
  | openAssembly (fails : Bool) (attempt : Attempt) (opening : state.phase = .opening attempt) :
      Step lib expectedHash state (.openAssembly fails)
        (openAssembly fails attempt state)
  | allocate (fails : Bool) (attempt : Attempt) (allocating : state.phase = .allocating attempt) :
      Step lib expectedHash state (.allocate fails) (allocate fails attempt state)
  | chunkFailed (index : Nat) (cause : Str) (attempt : Attempt)
      (collecting : state.phase = .collecting attempt) (asked : index ∈ attempt.chunks) :
      Step lib expectedHash state (.chunkFailed index cause)
        (chunkFailed index cause attempt state)
  | chunkArrived (index : Nat) (data : Str) (broken : Option (Nat × Str)) (attempt : Attempt)
      (collecting : state.phase = .collecting attempt) (asked : index ∈ attempt.chunks)
      (whole : data.length = chunkStop attempt.expectedSize attempt.chunkSize index -
        chunkStart attempt.chunkSize index) :
      Step lib expectedHash state (.chunkArrived index data broken)
        (chunkArrived index data broken attempt state)
  | recordChunk (fails : Bool) (attempt : Attempt) (index : Nat)
      (recording : state.phase = .recording attempt index) :
      Step lib expectedHash state (.recordChunk fails)
        (recordChunk fails attempt index state)
  | finish (unreadable : Bool) (attempt : Attempt)
      (collecting : state.phase = .collecting attempt) :
      Step lib expectedHash state (.finish unreadable)
        (finish lib expectedHash unreadable attempt state)
  | removeFile (fails : Bool) (cleaning : state.phase = .cleaning) :
      Step lib expectedHash state (.removeFile fails)
        { state with file := if fails then state.file else none, phase := .idle }
  | deleteDownload (fails : Bool) (deleting : state.phase = .deleting) :
      Step lib expectedHash state (.deleteDownload fails)
        { state with download := if fails then state.download else none, phase := .returned }
  | takeFile (fails : Bool) (returned : state.phase = .returned) :
      Step lib expectedHash state (.takeFile fails)
        { state with file := if fails then state.file else none, phase := .idle }
  | markForRetry :
      Step lib expectedHash state .markForRetry
        { state with download := markForRetry state.download }
  | crash : Step lib expectedHash state .crash { state with phase := .idle }

theorem step_next (lib : Libraries) (expectedHash : Str) (state : State) (event : Event) :
    Step lib expectedHash state event (next lib expectedHash state event) := by
  unfold next
  split
  · rename_i idle
    split
    · rename_i positive
      exact .beginAttempt _ _ _ _ idle positive
    · exact .stays _
  · rename_i opening
    exact .openAssembly _ _ opening
  · rename_i allocating
    exact .allocate _ _ allocating
  · rename_i collecting
    split
    · rename_i asked
      exact .chunkFailed _ _ _ collecting asked
    · exact .stays _
  · rename_i collecting
    split
    · rename_i arrives
      exact .chunkArrived _ _ _ _ collecting arrives.1 arrives.2
    · exact .stays _
  · rename_i recording
    exact .recordChunk _ _ _ recording
  · rename_i collecting
    exact .finish _ _ collecting
  · rename_i cleaning
    exact .removeFile _ cleaning
  · rename_i deleting
    exact .deleteDownload _ deleting
  · rename_i returned
    exact .takeFile _ returned
  · exact .markForRetry
  · exact .crash
  · exact .stays _

theorem phase_openAssembly (fails : Bool) (attempt : Attempt) (state : State) :
    (openAssembly fails attempt state).phase = .idle ∨
      (openAssembly fails attempt state).phase = .allocating attempt := by
  cases fails with
  | true => exact .inl rfl
  | false => exact .inr rfl

theorem phase_allocate (fails : Bool) (attempt : Attempt) (state : State) :
    (allocate fails attempt state).phase = .idle ∨
      (allocate fails attempt state).phase = .collecting attempt := by
  cases fails with
  | true => exact .inl rfl
  | false => exact .inr rfl

theorem phase_chunkArrived (index : Nat) (data : Str) (broken : Option (Nat × Str))
    (attempt : Attempt) (state : State) :
    ∃ heard : Attempt, heard.resumeEnabled = attempt.resumeEnabled ∧
      ((chunkArrived index data broken attempt state).phase = .collecting heard ∨
        (chunkArrived index data broken attempt state).phase = .recording heard index) := by
  unfold chunkArrived
  cases broken with
  | some cause =>
    refine ⟨_, ?_, .inl rfl⟩
    rfl
  | none =>
    dsimp only
    split
    · refine ⟨_, ?_, .inr rfl⟩
      rfl
    · refine ⟨_, ?_, .inl rfl⟩
      rfl

end Debswarm.Downloader
