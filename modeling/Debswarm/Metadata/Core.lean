import Debswarm.Table.Core
import Debswarm.Text.Bytes
import Mathlib.Logic.Function.Basic

/-!
# The metadata cache

Repository metadata is cached by URL: a row of the `indices` table records the validators and
the size of a body, the body itself is a file, and `metadataSize` tracks the bytes held against
a budget of its own.  Bodies arrive through a writer that streams into a pending file and is
finished by `commit` or `abort`.

A body's file is named after the SHA-256 of its URL, so the model keys the files by URL.  Every
step that touches the disk or the database may fail; a `WriteFaults` record says which steps of
one cached write do.
-/

namespace Debswarm.Metadata

open Function Option Text

/-- A row of the `indices` table, without its key. -/
structure IndexRow where
  etag : Str
  lastModified : Str
  fetchedAt : Int
  size : Nat
  contentType : Str
  lastAccessed : Int
  accessCount : Nat
  lastValidated : Int
  deriving DecidableEq, Repr

/-- The size column, as the byte counts are summed. -/
def IndexRow.bytes (row : IndexRow) : Int :=
  row.size

/-- The metadata cache: budget, tracked size, `indices` table, installed and pending bodies. -/
structure State where
  metadataMaxSize : Int
  metadataSize : Int
  indices : Table Str IndexRow
  files : Str → Option Str
  pending : Nat → Option Str

/-- Open a cache on what an earlier process left behind: the tracked size is read
off the table. -/
def State.opened (budget : Int) (indices : Table Str IndexRow) (files : Str → Option Str) :
    State where
  metadataMaxSize := budget
  metadataSize := indices.total IndexRow.bytes
  indices := indices
  files := files
  pending := fun _ => none

/-- Sum of the sizes of all rows. -/
def State.rowBytes (state : State) : Int :=
  state.indices.total IndexRow.bytes

/-! ## By-hash URLs -/

/-- The marker that introduces the digest of a by-hash URL, in lower case. -/
def byHashMarker : Str :=
  ofAscii "/by-hash/sha256/"

/-- Cut a string at its first path or query separator. -/
def untilSeparator (text : Str) : Str :=
  text.takeWhile fun byte => !(ofAscii "/?#").contains byte

section

variable (lib : Libraries) (now : Int)

/-- The digest of a by-hash URL, sliced at the offset of the marker in the lower-cased URL. -/
def byHashSHA256 (rawURL : Str) : Except Panic (Option Str) :=
  match index byHashMarker (toLower lib.unicodeLower rawURL) with
  | none => .ok none
  | some offset =>
    match sliceFrom rawURL (offset + byHashMarker.length) with
    | .error fault => .error fault
    | .ok tail =>
      let rest := untilSeparator tail
      if rest.length ≠ 64 then
        .ok none
      else
        let digest := toLower lib.unicodeLower rest
        if digest.all isLowerHex then .ok (some digest) else .ok none

/-- Whether a URL is content-addressed and so never needs revalidation. -/
def isImmutableMetadataURL (rawURL : Str) : Except Panic Bool :=
  (byHashSHA256 lib rawURL).map isSome

/-! ## Reading -/

def metadataEnabled (state : State) : Bool :=
  0 < state.metadataMaxSize

/-- The stored validators of a cached URL. -/
def metadataValidators (url : Str) (state : State) : Option (Str × Str) :=
  if state.metadataMaxSize ≤ 0 then none
  else (state.indices.find? url).map fun row => (row.etag, row.lastModified)

/-- The URLs of all rows, in table order. -/
def listMetadataURLs (state : State) : List Str :=
  if state.metadataMaxSize ≤ 0 then [] else state.indices.rows.map Prod.fst

/-- Subtract a row's bytes from the tracked size, which never goes below zero. -/
def releaseBytes (size : Int) (state : State) : State :=
  { state with
    metadataSize := if state.metadataSize - size < 0 then 0 else state.metadataSize - size }

/-- Remove a row whose body is gone. -/
def dropMetadataRow (url : Str) (state : State) : State :=
  match state.indices.find? url with
  | none => state
  | some row => releaseBytes row.size { state with indices := state.indices.delete url }

/-- Record an access for the eviction order. -/
def touchMetadata (url : Str) (state : State) : State :=
  { state with
    indices := state.indices.update url fun row =>
      { row with lastAccessed := now, accessCount := row.accessCount + 1 } }

/-- Look a URL up under the read lock: its row and, when the file opens, the body
behind it. -/
def lookupMetadata (url : Str) (state : State) : Option (IndexRow × Option Str) :=
  if state.metadataMaxSize ≤ 0 then none
  else (state.indices.find? url).map fun row => (row, state.files url)

/-- Return a cached entry and its body, or drop a row whose file is gone. -/
def getMetadata (url : Str) (state : State) : Option (IndexRow × Str) × State :=
  match lookupMetadata url state with
  | none => (none, state)
  | some (_, none) => (none, dropMetadataRow url state)
  | some (row, some body) => (some (row, body), touchMetadata now url state)

/-- Refresh validators after upstream confirmed the body, each only by one that it sent. -/
def revalidateMetadata (url etag lastModified : Str) (state : State) : State :=
  if state.metadataMaxSize ≤ 0 then state
  else
    { state with
      indices := state.indices.update url fun row =>
        { row with
          etag := if etag ≠ [] then etag else row.etag
          lastModified := if lastModified ≠ [] then lastModified else row.lastModified
          lastValidated := now
          lastAccessed := now } }

/-! ## Eviction -/

end

/-- Which steps of one cached write fail. `withdraw` removes a file whose row failed. -/
structure WriteFaults where
  create : Bool := false
  write : Bool := false
  close : Bool := false
  lookup : Bool := false
  candidates : Bool := false
  remove : Str → Bool := fun _ => false
  deleteRow : Str → Bool := fun _ => false
  mkdir : Bool := false
  replace : Bool := false
  install : Bool := false
  record : Bool := false
  withdraw : Bool := false

/-- No step fails. -/
def WriteFaults.none : WriteFaults := {}

/-- The same failures, except that an installed file can be removed again. -/
def WriteFaults.withdrawable (faults : WriteFaults) : WriteFaults :=
  { faults with withdraw := false }

variable (lib : Libraries) (faults : WriteFaults) (now : Int)

/-- The errors a commit reports. -/
inductive CommitError
  | alreadyFinished
  | closeFailed
  | hashMismatch (got want : Str)
  | cacheFull
  | candidatesFailed
  | mkdirFailed
  | replaceFailed
  | installFailed
  | recordFailed
  deriving DecidableEq, Repr

/-- Remove a metadata file and then its row; the row stays when the file cannot be
removed. -/
def deleteMetadataUnlocked (url : Str) (size : Nat) (state : State) :
    State :=
  if faults.remove url then
    state
  else
    let removed := { state with files := update state.files url none }
    if faults.deleteRow url then
      removed
    else
      releaseBytes size { removed with indices := removed.indices.delete url }

/-- The order of eviction: least recently accessed first, then least often. -/
def IndexRow.EvictedBefore (first second : IndexRow) : Prop :=
  first.lastAccessed < second.lastAccessed ∨
    (first.lastAccessed = second.lastAccessed ∧ first.accessCount ≤ second.accessCount)

instance : DecidableRel IndexRow.EvictedBefore := fun _ _ =>
  inferInstanceAs (Decidable (_ ∨ _ ∧ _))

/-- The candidates for eviction with their sizes, in eviction order. -/
def victims (state : State) : List (Str × Nat) :=
  (state.indices.select (fun _ => true) IndexRow.EvictedBefore).map fun row =>
    (row.1, row.2.size)

/-- Whether a number of further bytes fits the budget. -/
def fits (needed : Int) (state : State) : Bool :=
  state.metadataSize + needed ≤ state.metadataMaxSize

/-- Delete candidates one by one until the needed bytes fit. -/
def evict (faults : WriteFaults) (needed : Int) : List (Str × Nat) → State → State
  | [], state => state
  | (url, size) :: rest, state =>
    if fits needed state then state
    else evict faults needed rest (deleteMetadataUnlocked faults url size state)

/-- Make room for a number of further bytes. -/
def ensureMetadataSpace (needed : Int) (state : State) :
    Option CommitError × State :=
  if fits needed state then
    (none, state)
  else if faults.candidates then
    (some .candidatesFailed, state)
  else
    let evicted := evict faults needed (victims state) state
    if fits needed evicted then (none, evicted) else (some .cacheFull, evicted)

/-! ## Writing -/

/-- A body on its way into the cache; `expectedHash` is empty unless the URL names a digest. -/
structure MetadataWriter where
  url : Str
  etag : Str
  lastModified : Str
  contentType : Str
  expectedHash : Str
  tmp : Nat
  written : Str
  done : Bool
  deriving DecidableEq, Repr

/-- The number of bytes written so far. -/
def MetadataWriter.size (writer : MetadataWriter) : Nat :=
  writer.written.length

/-- Remove a pending file. -/
def dropPending (tmp : Nat) (state : State) : State :=
  { state with pending := update state.pending tmp none }

/-- Begin a cached write into the fresh pending file `tmp`. -/
def newMetadataWriter (tmp : Nat) (url etag lastModified contentType : Str)
    (state : State) : Except Panic MetadataWriter × State :=
  ((byHashSHA256 lib url).map fun digest =>
      { url, etag, lastModified, contentType, tmp
        expectedHash := digest.getD []
        written := []
        done := false },
    { state with pending := update state.pending tmp (some []) })

/-- Append body bytes to the pending file. -/
def write (bytes : Str) (writer : MetadataWriter) (state : State) : MetadataWriter × State :=
  ({ writer with written := writer.written ++ bytes },
    { state with
      pending := update state.pending writer.tmp (some (writer.written ++ bytes)) })

/-- Discard a pending write. -/
def abort (writer : MetadataWriter) (state : State) : State :=
  if writer.done then state else dropPending writer.tmp state

/-- The row a commit writes for a URL that has none. -/
def MetadataWriter.freshRow (writer : MetadataWriter) (now : Int) : IndexRow where
  etag := writer.etag
  lastModified := writer.lastModified
  fetchedAt := now
  size := writer.size
  contentType := writer.contentType
  lastAccessed := now
  accessCount := 1
  lastValidated := now

/-- Bytes of the row being replaced, zero when there is none. -/
def oldSizeIf (old : Option IndexRow) : Int :=
  old.elim 0 IndexRow.bytes

/-- Account for an installed body: the replaced row's bytes go, the new ones come. -/
def accountInstalled (old : Option IndexRow) (size : Nat) (state : State) : State :=
  let tracked := state.metadataSize - oldSizeIf old + size
  { state with metadataSize := if tracked < 0 then 0 else tracked }

/-- Move the pending file into place, write the row and account for it. -/
def installBody (writer : MetadataWriter)
    (old : Option IndexRow) (state : State) : Option CommitError × State :=
  if faults.mkdir then
    (some .mkdirFailed, dropPending writer.tmp state)
  else if (state.files writer.url).isSome && faults.replace then
    (some .replaceFailed, dropPending writer.tmp state)
  else
    let replaced := { state with files := update state.files writer.url none }
    if faults.install then
      (some .installFailed, dropPending writer.tmp replaced)
    else
      let installed := dropPending writer.tmp
        { replaced with
          files := update replaced.files writer.url (some writer.written) }
      if faults.record then
        -- The error of this removal is ignored.
        (some .recordFailed,
          if faults.withdraw then installed
          else { installed with files := update installed.files writer.url none })
      else
        (none, accountInstalled old writer.size
          { installed with
            indices := installed.indices.insertOrUpdate writer.url (writer.freshRow now)
              fun row => { writer.freshRow now with accessCount := row.accessCount + 1 } })

/-- Finish a write: verify the digest, make room within the budget and install the body. -/
def commit (writer : MetadataWriter)
    (state : State) : Option CommitError × State :=
  if writer.done then
    (some .alreadyFinished, state)
  else if faults.close then
    (some .closeFailed, dropPending writer.tmp state)
  else if writer.expectedHash ≠ [] ∧ lib.sha256 writer.written ≠ writer.expectedHash then
    (some (.hashMismatch (lib.sha256 writer.written) writer.expectedHash),
      dropPending writer.tmp state)
  else if state.metadataMaxSize ≤ 0 then
    (none, dropPending writer.tmp state)
  else if state.metadataMaxSize < writer.size then
    (some .cacheFull, dropPending writer.tmp state)
  else
    let old := if faults.lookup then none else state.indices.find? writer.url
    match ensureMetadataSpace faults (writer.size - oldSizeIf old) state with
    | (some error, evicted) => (some error, dropPending writer.tmp evicted)
    | (none, evicted) => installBody faults now writer old evicted

/-- Cache a body in memory, or not if a step fails; a panic ends the request. -/
def storeMetadata (tmp : Nat)
    (url body etag lastModified contentType : Str) (state : State) : Option Panic × State :=
  if faults.create then
    (none, state)
  else
    match newMetadataWriter lib tmp url etag lastModified contentType state with
    | (.error fault, opened) => (some fault, opened)
    | (.ok writer, opened) =>
      if faults.write then
        (none, abort writer opened)
      else
        let (written, buffered) := write body writer opened
        (none, (commit lib faults now written buffered).2)

end Debswarm.Metadata
