import Debswarm.Downloader.Chunking
import Debswarm.Downloader.Racing
import Debswarm.Sync.Pool

/-!
# The workers of a chunked download

Workers take chunks from a queue and ask one source after the other for them; a collector writes
what they send into the assembly file and counts the bytes.  The first failure cancels the
context, and a worker that finds it cancelled reports the chunk it has just taken as failed and
leaves.  When all workers are gone, the collector looks whether a chunk is missing, and compares
the hash.

The model takes up an attempt when the assembly file has been opened.  Which source the tracker
prefers, and what a source answers, is given with each step.
-/

namespace Debswarm.Downloader.Workers

open File Sync Text Transition

/-! ## The attempt -/

/-- A piece of a file to download. -/
structure Chunk where
  index : Nat
  start : Int64
  stop : Int64
  deriving DecidableEq, Repr

/-- What an attempt works with. `file` is the assembly file as it was opened. -/
structure Setup where
  lib : Libraries
  expectedHash : Str
  expectedSize : Int64
  chunkSize : Int64
  maxConc : Int
  peers : List Str
  mirror : Option Str
  completedFromDisk : List Nat
  file : Sparse UInt8

variable (setup : Setup)

/-- All sources, the peers before the mirror. -/
def Setup.allSources : List Source :=
  racing setup.peers setup.mirror.isSome

def Setup.sourceID : Source → Str
  | .peer id => id
  | .mirror => setup.mirror.getD []

/-- The chunks still to download. With a negative capacity the program stops. -/
def Setup.queuedChunks : Option (List Chunk) :=
  if totalChunks setup.expectedSize setup.chunkSize < 0 then none
  else
    some (((chunkIndices setup.expectedSize setup.chunkSize).filter
      (· ∉ setup.completedFromDisk)).map fun index =>
        let range := chunkRange setup.expectedSize setup.chunkSize index
        ⟨index, range.1, range.2⟩)

/-- How many workers share the chunks. -/
def workerCount (maxConc : Int) (chunks : Nat) : Nat :=
  let capped := if maxConc > chunks then (chunks : Int) else maxConc
  if capped ≤ 0 then 1 else capped.toNat

/-! ## A worker -/

/-- A worker with a chunk looks at the context and then makes attempts, keeping the errors. -/
inductive Work
  | checking
  | downloading (source : Source) (attempt : Nat) (allErrors : List Str)
  deriving DecidableEq, Repr

/-- What a worker reports of a chunk: an error, or the data with its source. -/
inductive Report
  | failed (error : Str)
  | arrived (source : Source) (data : Str)
  deriving DecidableEq, Repr

/-- How often a worker asks for a chunk. -/
def maxChunkRetries : Nat := 3

/-- A list of errors as it is printed. -/
def history (allErrors : List Str) : Str :=
  ofAscii "[" ++ (ofAscii " ").intercalate allErrors ++ ofAscii "]"

def attemptError (attempt : Nat) (sourceID cause : Str) : Str :=
  let number := attempt + 1
  ofAscii s!"attempt {number} (" ++ sourceID ++ ofAscii "): " ++ cause

/-- The error of the last attempt, with the history of all. -/
def lastError (expected : Int) (allErrors : List Str) : Except Str Str → Str
  | .error cause =>
    ofAscii "all retries failed: " ++ cause ++ ofAscii " (history: " ++ history allErrors ++
      ofAscii ")"
  | .ok data =>
    let got := data.length
    ofAscii s!"incomplete chunk: got {got}, expected {expected} (history: " ++
      history allErrors ++ ofAscii ")"

/-- The data of an answer that is as long as the chunk. -/
def wholeChunk? (chunk : Chunk) : Except Str Str → Option Str
  | .ok data => if (data.length : Int) = (chunk.stop - chunk.start).toInt then some data else none
  | .error _ => none

/-- One step of a worker with a chunk; `pick` is the source that the tracker selects. -/
def chunkWorker (ctxErr : Option Str) (pick : Source) (answer : Except Str Str)
    (chunk : Chunk) : Work → Action Work Report
  | .checking =>
    match ctxErr with
    | some cause => .quit (.failed cause)
    | none => .goOn (.downloading pick 0 [])
  | .downloading source attempt allErrors =>
    match wholeChunk? chunk answer with
    | some data => .report (.arrived source data)
    | none =>
      let cause :=
        match answer with
        | .error cause => cause
        | .ok _ => ofAscii "incomplete data"
      let errors := allErrors ++ [attemptError attempt (setup.sourceID source) cause]
      if attempt + 1 < maxChunkRetries then .goOn (.downloading pick (attempt + 1) errors)
      else .report (.failed (lastError (chunk.stop - chunk.start).toInt errors answer))

/-! ## The collector -/

/-- Why an attempt fails. -/
inductive ChunkedError
  | panic
  | noSources
  | firstError (message : Str)
  | missing (index : Nat)
  | unreadable (cause : Str)
  | hashMismatch
  deriving DecidableEq, Repr

/-- What an attempt returns when it succeeds. -/
structure ChunkedResult where
  size : Int64
  source : SourceType
  peerBytes : Int64
  mirrorBytes : Int64
  chunksTotal : Int64
  chunksFromP2P : Nat
  deriving DecidableEq, Repr

/-- An attempt collects what the workers send, is about to compare the hash, or has returned. -/
inductive Phase
  | collecting
  | verifying
  | failed (error : ChunkedError)
  | succeeded (result : ChunkedResult)
  deriving DecidableEq, Repr

/-- The workers and the collector, and the offsets and bytes of what was written. -/
structure State where
  pool : Pool Chunk Work Report
  ctxErr : Option Str
  firstError : Option Str
  received : List Nat
  peerBytes : Int64
  mirrorBytes : Int64
  chunksFromP2P : Nat
  writes : List (Nat × Str)
  phase : Phase
  deriving DecidableEq, Repr

/-- Queue the chunks and start the workers, or go on at once with nothing to download. -/
def State.start (setup : Setup) : State :=
  let idle : State := ⟨.start [] 0, none, none, [], 0, 0, 0, [], .verifying⟩
  match setup.queuedChunks with
  | none => { idle with phase := .failed .panic }
  | some [] => idle
  | some chunks =>
    if setup.allSources = [] then { idle with phase := .failed .noSources }
    else
      { idle with
        pool := .start chunks (workerCount setup.maxConc chunks.length)
        phase := .collecting }

/-- Keep the first error, and cancel the context with it. -/
def State.fail (message : Str) (state : State) : State :=
  match state.firstError with
  | some _ => state
  | none =>
    { state with
      firstError := some message
      ctxErr := state.ctxErr.or (some (ofAscii "context canceled")) }

/-- Where the data of a chunk belongs. -/
def Chunk.offset (chunk : Chunk) : Nat :=
  chunk.start.toInt.toNat

/-- A chunk was written: count its bytes. -/
def State.land (chunk : Chunk) (source : Source) (data : Str) (state : State) : State :=
  let chunkLen := Int64.ofNat data.length
  let counted :=
    if source.type = .peer then
      { state with
        peerBytes := state.peerBytes + chunkLen
        chunksFromP2P := state.chunksFromP2P + 1 }
    else { state with mirrorBytes := state.mirrorBytes + chunkLen }
  { counted with
    writes := state.writes ++ [(chunk.offset, data)]
    received := chunk.index :: state.received }

/-- Receive a report and write its data into place, possibly only its first bytes. -/
def collect (broken : Option (Nat × Str)) (state : State) : State :=
  match state.pool.receive? with
  | none => state
  | some ((⟨index, _, _⟩, .failed cause), pool) =>
    { state with pool }.fail (ofAscii s!"chunk {index} failed: " ++ cause)
  | some ((chunk, .arrived source data), pool) =>
    match broken with
    | some (written, cause) =>
      let index := chunk.index
      { state with
        pool
        writes := state.writes ++ [(chunk.offset, data.take written)] }.fail
          (ofAscii s!"failed to write chunk {index}: " ++ cause)
    | none => { state with pool }.land chunk source data

/-- The workers are gone: report the first error, or a chunk that is missing. -/
def finish (state : State) : State :=
  if state.pool.isDrained then
    match state.firstError with
    | some message => { state with phase := .failed (.firstError message) }
    | none =>
      match (chunkIndices setup.expectedSize setup.chunkSize).find? fun index =>
          index ∉ state.received ∧ index ∉ setup.completedFromDisk with
      | some index => { state with phase := .failed (.missing index) }
      | none => { state with phase := .verifying }
  else state

def State.assembled (state : State) : Sparse UInt8 :=
  state.writes.foldl (fun file write => file.writeAt write.1 write.2)
    (setup.file.truncate setup.expectedSize.toInt.toNat)

/-- What the bytes are attributed to. -/
def State.sourceType (state : State) : SourceType :=
  if setup.queuedChunks = some [] then .resumed
  else if state.peerBytes = 0 ∧ setup.completedFromDisk = [] then .mirror
  else if state.mirrorBytes = 0 then .peer
  else .mixed

/-- Compare the hash of the assembly file. -/
def verify (unreadable : Option Str) (state : State) : State :=
  match unreadable with
  | some cause => { state with phase := .failed (.unreadable cause) }
  | none =>
    if setup.lib.sha256 ((state.assembled setup).contents 0) ≠ setup.expectedHash then
      { state with phase := .failed .hashMismatch }
    else
      { state with
        phase := .succeeded
          { size := setup.expectedSize
            source := state.sourceType setup
            peerBytes := state.peerBytes
            mirrorBytes := state.mirrorBytes
            chunksTotal := totalChunks setup.expectedSize setup.chunkSize
            chunksFromP2P := state.chunksFromP2P } }

/-! ## Runs -/

/-- A worker or the collector goes on, the results are closed, or the context ends. -/
inductive Event
  | take (id : Nat)
  | work (id : Nat) (pick : Source) (answer : Except Str Str)
  | close
  | collect (broken : Option (Nat × Str))
  | finish
  | verify (unreadable : Option Str)
  | cancel (cause : Str)

/-- One step. The tracker selects only sources that there are. -/
def next (state : State) (event : Event) : State :=
  match event, state.phase with
  | .take id, _ => { state with pool := state.pool.take id .checking }
  | .work id pick answer, _ =>
    if pick ∈ setup.allSources then
      { state with pool := state.pool.act id (chunkWorker setup state.ctxErr pick answer) }
    else state
  | .close, _ => { state with pool := state.pool.close }
  | .collect broken, .collecting => Workers.collect broken state
  | .finish, .collecting => Workers.finish setup state
  | .verify unreadable, .verifying => Workers.verify setup unreadable state
  | .cancel cause, _ => { state with ctxErr := state.ctxErr.or (some cause) }
  | _, _ => state

end Debswarm.Downloader.Workers
