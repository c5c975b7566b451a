import Debswarm.Table.Core
import Debswarm.Text.Bytes
import Mathlib.Logic.Function.Basic
import Mathlib.Tactic.Simps.Basic

/-!
# The package cache

Packages are stored by content hash: a row of the `packages` table records a package, its file
holds the content, and `currentSize` tracks the bytes held against `maxSize`.  Both are `int64`
numbers, so that sums of them wrap around.  Reads are counted so that a file in use is never
deleted, and access times are written to the table in batches.

Every operation but the batched write runs under the cache lock and is one step.  The background
flusher takes the collected records in one step and writes them in a later one.  Package files
are keyed by hash.  Reads of single rows succeed; a `Faults` record says which other disk and
database steps of one operation fail.
-/

namespace Debswarm.Cache

open Function Option Table Text

/-- A row of the `packages` table, without its key. -/
structure PackageRow where
  size : Nat
  filename : Str
  addedAt : Int
  lastAccessed : Int
  accessCount : Nat
  announced : Int
  packageName : Str
  packageVersion : Str
  architecture : Str
  pinned : Bool
  deriving DecidableEq, Repr

/-- The size column, as the byte counts are summed. -/
def PackageRow.bytes (row : PackageRow) : Int :=
  row.size

theorem PackageRow.bytes_nonneg (row : PackageRow) : 0 ≤ row.bytes :=
  Int.natCast_nonneg row.size

/-- Access-time updates of one package between two flushes. -/
structure AccessRecord where
  last : Int
  count : Nat
  deriving DecidableEq, Repr

/-- The package cache and its clock, with the files outside the package directory and the records
that the flusher has taken but not yet written. -/
structure State where
  clock : Int
  maxSize : Int64
  minFreeSpace : Int
  currentSize : Int64
  packages : Table Str PackageRow
  files : Str → Option Str
  outside : Str → Option Str
  activeReaders : Str → Nat
  pendingAccess : Table Str AccessRecord
  flushing : Option (Table Str AccessRecord)

/-- The sum of the sizes, which is an error and leaves zero beyond the range of `int64`. -/
def calculateSize (packages : Table Str PackageRow) : Int64 :=
  if packages.total PackageRow.bytes ≤ Int64.maxValue.toInt then
    .ofInt (packages.total PackageRow.bytes)
  else 0

/-- Open a cache on what an earlier process left behind: the tracked size is read
off the table. -/
def State.opened (clock : Int) (maxSize : Int64) (minFreeSpace : Int)
    (packages : Table Str PackageRow) (files outside : Str → Option Str) : State where
  clock := clock
  maxSize := maxSize
  minFreeSpace := minFreeSpace
  currentSize := calculateSize packages
  packages := packages
  files := files
  outside := outside
  activeReaders := fun _ => 0
  pendingAccess := empty
  flushing := none

/-- Sum of the sizes of all rows. -/
def State.rowBytes (state : State) : Int :=
  state.packages.total PackageRow.bytes

/-- The errors that cache operations report. -/
inductive CacheError
  | notFound
  | writeFailed
  | hashMismatch (expected got : Str)
  | insufficientDiskSpace
  | candidatesFailed
  | cacheFull
  | fileInUse
  | removeFailed
  | deleteFailed
  | mkdirFailed
  | moveFailed
  | recordFailed
  | pinFailed
  deriving DecidableEq, Repr

/-- How an operation ends. Log statements slice sixteen bytes of a hash and panic on fewer. -/
inductive Outcome
  | ok
  | error (reason : CacheError)
  | panic (fault : Panic)
  deriving DecidableEq, Repr

/-- Which disk and database steps of an operation fail, and the free space that is reported. -/
structure Faults where
  copy : Bool := false
  freeSpace : Option Int := none
  flush : Bool := false
  flushRow : Str → Bool := fun _ => false
  candidates : Bool := false
  remove : Str → Bool := fun _ => false
  deleteRow : Str → Bool := fun _ => false
  mkdir : Bool := false
  move : Bool := false
  removeSource : Bool := false
  record : Bool := false
  pin : Bool := false

/-- The log form of a hash exists only for hashes of sixteen bytes or more. -/
def logHash (hash : Str) : Except Panic Str :=
  if 16 ≤ hash.length then .ok (hash.take 16 ++ ofAscii "...") else .error .sliceOutOfRange

/-! ## Access records -/

/-- Note a cache hit for later batched persistence. -/
def recordAccess (hash : Str) (state : State) : State :=
  { state with
    pendingAccess := state.pendingAccess.insertOrUpdate hash ⟨state.clock, 1⟩ fun record =>
      ⟨state.clock, record.count + 1⟩ }

/-- Write one access record to its row. -/
def applyRecord (packages : Table Str PackageRow) (hash : Str) (record : AccessRecord) :
    Table Str PackageRow :=
  packages.update hash fun row =>
    { row with
      lastAccessed := max row.lastAccessed record.last
      accessCount := row.accessCount + record.count }

/-- Write access records in one transaction. A record that cannot be written is skipped. -/
def applyBatch (faults : Faults) (batch : Table Str AccessRecord)
    (packages : Table Str PackageRow) : Table Str PackageRow :=
  if faults.flush then packages
  else
    (batch.rows.filter fun entry => !faults.flushRow entry.1).foldl
      (fun table entry => applyRecord table entry.1 entry.2) packages

/-- Persist all pending access records. -/
def flushAccess (faults : Faults) (state : State) : State :=
  { state with
    packages := applyBatch faults state.pendingAccess state.packages
    pendingAccess := empty }

/-- The background flusher takes the pending records. -/
def flusherSwap (state : State) : State :=
  match state.flushing with
  | some _ => state
  | none =>
    if state.pendingAccess.rows = [] then state
    else
      { state with
        pendingAccess := empty
        flushing := some state.pendingAccess }

/-- The background flusher writes the records it has taken. -/
def flusherCommit (faults : Faults) (state : State) : State :=
  match state.flushing with
  | none => state
  | some batch =>
    { state with
      packages := applyBatch faults batch state.packages
      flushing := none }

/-! ## Reading -/

/-- Whether a package file exists. -/
def has (hash : Str) (state : State) : Bool :=
  (state.files hash).isSome

/-- One reader of a hash less; a count never goes below zero. -/
def closeReader (hash : Str) (state : State) : State :=
  { state with
    activeReaders := update state.activeReaders hash (state.activeReaders hash - 1) }

/-- Open a package for reading and count the reader, who is given back if there is no row. -/
def get (hash : Str) (state : State) : Except CacheError (Str × PackageRow) × State :=
  match state.files hash with
  | none => (.error .notFound, state)
  | some content =>
    let counted :=
      { state with
        activeReaders :=
          update state.activeReaders hash (state.activeReaders hash + 1) }
    let recorded := recordAccess hash counted
    match recorded.packages.find? hash with
    | none => (.error .notFound, closeReader hash recorded)
    | some row => (.ok (content, row), recorded)

/-! ## Deletion and eviction -/

/-- Remove a package of a size that may be known. A file that cannot be removed keeps its row. -/
def deleteUnlocked (faults : Faults) (hash : Str) (sizeHint : Option Nat) (state : State) :
    Outcome × State :=
  if 0 < state.activeReaders hash then
    (.error .fileInUse, state)
  else
    let size := sizeHint.getD (((state.packages.find? hash).map PackageRow.size).getD 0)
    if faults.remove hash then
      (.error .removeFailed, state)
    else
      let removed := { state with files := update state.files hash none }
      if faults.deleteRow hash then
        (.error .deleteFailed, removed)
      else
        (.ok,
          { removed with
            packages := removed.packages.delete hash
            currentSize := removed.currentSize - .ofNat size })

/-- Delete a package on request. -/
def delete (faults : Faults) (hash : Str) (state : State) : Outcome × State :=
  deleteUnlocked faults hash none state

/-- Seven days in seconds: a package accessed within them is not evicted. -/
def evictionWindow : Int :=
  7 * 24 * 3600

/-- The eviction score: each access protects a package for one more day. -/
def PackageRow.score (row : PackageRow) : Int :=
  row.lastAccessed + row.accessCount * 86400

/-- The order of eviction. -/
def PackageRow.EvictedBefore (first second : PackageRow) : Prop :=
  first.score ≤ second.score

instance : DecidableRel PackageRow.EvictedBefore := fun first second =>
  inferInstanceAs (Decidable (first.score ≤ second.score))

/-- Whether a row may be evicted: not accessed within the window, and not pinned. -/
def evictable (state : State) (row : PackageRow) : Bool :=
  row.lastAccessed < state.clock - evictionWindow && !row.pinned

/-- The candidates for eviction with their sizes, in eviction order. -/
def candidates (state : State) : List (Str × Nat) :=
  (state.packages.select (fun row => evictable state row.2) PackageRow.EvictedBefore).map
    fun row => (row.1, row.2.size)

/-- The hashes that a pass evicted, whether it ended in a panic, and the state it leaves. -/
structure Pass where
  evicted : List Str
  fault : Option Panic
  state : State

/-- The needed bytes fit. -/
def Fits (needed : Nat) (state : State) : Prop :=
  state.currentSize + .ofNat needed ≤ state.maxSize

instance (needed : Nat) : DecidablePred (Fits needed) := fun state =>
  inferInstanceAs (Decidable (state.currentSize + .ofNat needed ≤ state.maxSize))

/-- Delete candidates until the needed bytes fit, skipping those that cannot be deleted. -/
def evict (faults : Faults) (needed : Nat) : List (Str × Nat) → State → Pass
  | [], state => ⟨[], none, state⟩
  | (hash, size) :: rest, state =>
    if Fits needed state then
      ⟨[], none, state⟩
    else
      match logHash hash with
      | .error fault => ⟨[], some fault, state⟩
      | .ok _ =>
        match deleteUnlocked faults hash (some size) state with
        | (.ok, deleted) =>
          let pass := evict faults needed rest deleted
          { pass with evicted := hash :: pass.evicted }
        | (_, kept) => evict faults needed rest kept

/-- Whether the operating system reports too little free space. -/
def diskShort (faults : Faults) (needed : Nat) (state : State) : Bool :=
  0 < state.minFreeSpace &&
    (faults.freeSpace.any fun freeSpace => freeSpace - needed < state.minFreeSpace)

/-- The candidates that the database lists; none if the query fails. -/
def listed (faults : Faults) (state : State) : List (Str × Nat) :=
  if faults.candidates then [] else candidates state

/-- The eviction pass that a store of some size makes, if it comes to one. -/
def evictionPass (faults : Faults) (needed : Nat) (state : State) : Pass :=
  let flushed := flushAccess faults state
  if diskShort faults needed flushed then
    ⟨[], none, flushed⟩
  else if Fits needed flushed then
    ⟨[], none, flushed⟩
  else
    evict faults needed (listed faults flushed) flushed

/-- Make room for a number of bytes. -/
def ensureSpace (faults : Faults) (needed : Nat) (state : State) : Outcome × State :=
  let pass := evictionPass faults needed state
  if diskShort faults needed state then
    (.error .insufficientDiskSpace, pass.state)
  else
    match pass.fault with
    | some fault => (.panic fault, pass.state)
    | none =>
      if Fits needed pass.state then (.ok, pass.state)
      else (.error (if faults.candidates then .candidatesFailed else .cacheFull), pass.state)

/-! ## Storing -/

/-- Name, version and architecture of a package file name
`name_version_architecture.deb`. -/
def parseDebFilename (lib : Libraries) (filename : Str) : Option (Str × Str × Str) :=
  let base := pathBase filename
  if !hasSuffix (toLower lib.unicodeLower base) (ofAscii ".deb") then
    none
  else
    match (splitByte 95 (base.take (base.length - 4))).reverse with
    | architecture :: version :: front@(_ :: _) =>
      let name := List.intercalate [95] front.reverse
      if name = [] ∨ version = [] ∨ architecture = [] then none
      else some (name, version, architecture)
    | _ => none

/-- The row that a store writes for a hash that has none. -/
def freshRow (lib : Libraries) (filename : Str) (size : Nat) (now : Int) : PackageRow :=
  let parsed := (parseDebFilename lib filename).getD ([], [], [])
  { size, filename
    addedAt := now
    lastAccessed := now
    accessCount := 1
    announced := 0
    packageName := parsed.1
    packageVersion := parsed.2.1
    architecture := parsed.2.2
    pinned := false }

/-- The row that a store writes over an existing one. -/
def refreshRow (fresh old : PackageRow) : PackageRow :=
  { old with
    size := fresh.size
    filename := fresh.filename
    lastAccessed := fresh.lastAccessed
    accessCount := old.accessCount + 1
    packageName := if fresh.packageName ≠ [] then fresh.packageName else old.packageName
    packageVersion :=
      if fresh.packageVersion ≠ [] then fresh.packageVersion else old.packageVersion
    architecture := if fresh.architecture ≠ [] then fresh.architecture else old.architecture }

/-- Move a file to the place of its hash, or consume it if the place is taken. -/
def moveIntoPlace (faults : Faults) (filePath hash : Str) (state : State) : Option State :=
  match state.files hash with
  | some _ =>
    if faults.removeSource then some state
    else some { state with outside := update state.outside filePath none }
  | none =>
    match state.outside filePath with
    | none => none
    | some content =>
      if faults.move then none
      else
        some
          { state with
            files := update state.files hash (some content)
            outside := update state.outside filePath none }

/-- Write the row of a stored package and account for its bytes. -/
def recordPackage (lib : Libraries) (faults : Faults) (hash filename : Str) (size : Nat)
    (state : State) : Outcome × State :=
  let existing := state.packages.find? hash
  if faults.record then
    (.error .recordFailed, state)
  else
    let fresh := freshRow lib filename size state.clock
    let recorded :=
      { state with
        packages := state.packages.insertOrUpdate hash fresh (refreshRow fresh)
        currentSize :=
          match existing with
          | some old => state.currentSize + (.ofNat size - .ofNat old.size)
          | none => state.currentSize + .ofNat size }
    match logHash hash with
    | .error fault => (.panic fault, recorded)
    | .ok _ => (.ok, recorded)

/-- Move a verified file into the cache and record it. -/
def commitVerifiedFile (lib : Libraries) (faults : Faults) (filePath hash filename : Str)
    (size : Nat) (state : State) : Outcome × State :=
  match ensureSpace faults size state with
  | (.ok, roomy) =>
    if faults.mkdir then
      (.error .mkdirFailed, roomy)
    else
      match moveIntoPlace faults filePath hash roomy with
      | none => (.error .moveFailed, roomy)
      | some moved => recordPackage lib faults hash filename size moved
  | failed => failed

@[simps]
def removeOutside (path : Str) (state : State) : State :=
  { state with outside := update state.outside path none }

@[simps]
def writeOutside (path content : Str) (state : State) : State :=
  { state with outside := update state.outside path (some content) }

/-- Store a package from a byte stream: copy it to a pending file, verify and commit it. -/
def put (lib : Libraries) (faults : Faults) (pendingPath data expectedHash filename : Str)
    (state : State) : Outcome × State :=
  if faults.copy then
    (.error .writeFailed, state)
  else if lib.sha256 data ≠ expectedHash then
    (.error (.hashMismatch expectedHash (lib.sha256 data)), state)
  else
    match commitVerifiedFile lib faults pendingPath expectedHash filename data.length
        (writeOutside pendingPath data state) with
    | (.error reason, failed) => (.error reason, removeOutside pendingPath failed)
    | result => result

/-- Store a verified file by moving it. -/
def putFile (lib : Libraries) (faults : Faults) (filePath hash filename : Str) (size : Nat)
    (state : State) : Outcome × State :=
  commitVerifiedFile lib faults filePath hash filename size state

/-! ## Pinning -/

/-- Set the pin of a package. -/
def setPinned (pinned : Bool) (faults : Faults) (hash : Str) (state : State) :
    Outcome × State :=
  if faults.pin then
    (.error .pinFailed, state)
  else
    match state.packages.find? hash with
    | none => (.error .notFound, state)
    | some _ =>
      let updated :=
        { state with
          packages := state.packages.update hash fun row => { row with pinned } }
      match logHash hash with
      | .error fault => (.panic fault, updated)
      | .ok _ => (.ok, updated)

/-- Protect a package from eviction. -/
def pin : Faults → Str → State → Outcome × State :=
  setPinned true

/-- Give up the protection of a package. -/
def unpin : Faults → Str → State → Outcome × State :=
  setPinned false

/-! ## Listing -/

/-- The order of a listing: the most recently accessed first. -/
def PackageRow.ListedBefore (first second : PackageRow) : Prop :=
  second.lastAccessed ≤ first.lastAccessed

instance : DecidableRel PackageRow.ListedBefore := fun first second =>
  inferInstanceAs (Decidable (second.lastAccessed ≤ first.lastAccessed))

/-- List all packages, after writing the pending access records. -/
def list (faults : Faults) (state : State) : List (Str × PackageRow) × State :=
  let flushed := flushAccess faults state
  (flushed.packages.select (fun _ => true) PackageRow.ListedBefore, flushed)

/-! ## How the operations end -/

/-- What every record of a batch preserves, the batch preserves. -/
theorem applyBatch_invariant (inv : Table Str PackageRow → Prop)
    (written : ∀ packages hash record, inv packages → inv (applyRecord packages hash record))
    (faults : Faults) (batch : Table Str AccessRecord) {packages : Table Str PackageRow}
    (holds : inv packages) : inv (applyBatch faults batch packages) := by
  unfold applyBatch
  split
  · exact holds
  · generalize batch.rows.filter (fun entry => !faults.flushRow entry.1) = entries
    induction entries generalizing packages with
    | nil => exact holds
    | cons entry entries ih => exact ih (written packages entry.1 entry.2 holds)

theorem flusherSwap_eq (state : State) :
    ∃ pendingAccess flushing, flusherSwap state = { state with pendingAccess, flushing } := by
  unfold flusherSwap
  split
  · exact ⟨_, _, rfl⟩
  · split <;> exact ⟨_, _, rfl⟩

theorem flusherCommit_eq (faults : Faults) (state : State) :
    flusherCommit faults state =
      { state with
        packages := applyBatch faults (state.flushing.getD empty) state.packages
        flushing := none } := by
  unfold flusherCommit
  cases held : state.flushing with
  | some batch => rfl
  | none =>
    have unwritten : applyBatch faults empty state.packages = state.packages :=
      ite_self _
    simp only [getD_none, unwritten]
    rw [← held]

section

variable (lib : Libraries) (faults : Faults) (needed : Nat) (hash : Str) (sizeHint : Option Nat)
  (state : State)

theorem get_eq :
    ∃ activeReaders pendingAccess,
      (get hash state).2 = { state with activeReaders, pendingAccess } := by
  unfold get
  split
  · exact ⟨_, _, rfl⟩
  · dsimp only
    split <;> exact ⟨_, _, rfl⟩

theorem setPinned_cases (pinned : Bool) (faults : Faults) (hash : Str) (state : State) :
    (setPinned pinned faults hash state).2 = state ∨
      (setPinned pinned faults hash state).2 =
        { state with packages := state.packages.update hash fun row => { row with pinned } } := by
  unfold setPinned
  split
  · exact .inl rfl
  · split
    · exact .inl rfl
    · split <;> exact .inr rfl

/-- A deletion does nothing while the package is read or its file resists. Otherwise the file goes,
and the row unless it resists. -/
theorem deleteUnlocked_cases :
    (¬ (state.activeReaders hash = 0 ∧ faults.remove hash = false) ∧
        ∃ reason, deleteUnlocked faults hash sizeHint state = (.error reason, state)) ∨
      (state.activeReaders hash = 0 ∧ faults.remove hash = false) ∧
        ((faults.deleteRow hash = true ∧ deleteUnlocked faults hash sizeHint state =
            (.error .deleteFailed,
              { state with files := update state.files hash none })) ∨
          (faults.deleteRow hash = false ∧ deleteUnlocked faults hash sizeHint state =
            (.ok,
              { state with
                files := update state.files hash none
                packages := state.packages.delete hash
                currentSize := state.currentSize - .ofNat (sizeHint.getD
                  (((state.packages.find? hash).map PackageRow.size).getD 0)) }))) := by
  unfold deleteUnlocked
  split
  · rename_i inUse
    exact .inl ⟨fun free => by omega, _, rfl⟩
  · rename_i free
    have noReaders : state.activeReaders hash = 0 := by omega
    cases resists : faults.remove hash with
    | true => exact .inl ⟨by simp, _, rfl⟩
    | false =>
      refine .inr ⟨⟨noReaders, rfl⟩, ?_⟩
      cases rowResists : faults.deleteRow hash with
      | true => exact .inl ⟨rfl, rfl⟩
      | false => exact .inr ⟨rfl, rfl⟩

theorem deleteUnlocked_packages :
    (deleteUnlocked faults hash sizeHint state).2.packages =
      if (deleteUnlocked faults hash sizeHint state).1 = .ok then state.packages.delete hash
      else state.packages := by
  rcases deleteUnlocked_cases faults hash sizeHint state with
    ⟨-, reason, kept⟩ | ⟨-, ⟨-, gone⟩ | ⟨-, gone⟩⟩
  · simp [kept]
  · simp [gone]
  · simp [gone]

/-- A pass stops at a candidate because of a fault or a fit, or tries to delete it and goes on. -/
theorem evict_cons (size : Nat) (rest : List (Str × Nat)) (state : State) :
    (∃ fault, (fault = none → Fits needed state) ∧
        evict faults needed ((hash, size) :: rest) state = ⟨[], fault, state⟩) ∨
      ¬ Fits needed state ∧
      evict faults needed ((hash, size) :: rest) state =
        { evict faults needed rest (deleteUnlocked faults hash (some size) state).2 with
          evicted :=
            if (deleteUnlocked faults hash (some size) state).1 = .ok then
              hash :: (evict faults needed rest
                (deleteUnlocked faults hash (some size) state).2).evicted
            else
              (evict faults needed rest
                (deleteUnlocked faults hash (some size) state).2).evicted } := by
  simp only [evict]
  split
  · rename_i fits
    exact .inl ⟨none, fun _ => fits, rfl⟩
  · rename_i full
    split
    · rename_i fault _
      exact .inl ⟨some fault, nofun, rfl⟩
    · refine .inr ⟨full, ?_⟩
      split
      · rename_i deleteEq
        rw [deleteEq]
        rfl
      · rename_i outcome kept notOk deleteEq
        rw [deleteEq, if_neg notOk]

theorem ensureSpace_state :
    (ensureSpace faults needed state).2 = (evictionPass faults needed state).state := by
  simp only [ensureSpace]
  split
  · rfl
  · split
    · rfl
    · split <;> rfl

section

variable {faults : Faults} {filePath hash : Str} {state moved : State}
  (step : moveIntoPlace faults filePath hash state = some moved)

include step

/-- The place is taken, and the source stays or is consumed, or the source goes to the place. -/
theorem moveIntoPlace_cases :
    ((state.files hash).isSome ∧ (faults.removeSource = true ∧ moved = state ∨
        faults.removeSource = false ∧ moved = removeOutside filePath state)) ∨
      ∃ content, state.files hash = none ∧ state.outside filePath = some content ∧
        moved = { removeOutside filePath state with
          files := update state.files hash (some content) } := by
  unfold moveIntoPlace at step
  split at step
  · rename_i taken
    rw [taken]
    split at step
    · rename_i resists
      exact .inl ⟨rfl, .inl ⟨resists, (some.inj step).symm⟩⟩
    · rename_i consumed
      exact .inl ⟨rfl, .inr ⟨eq_false_of_ne_true consumed, (some.inj step).symm⟩⟩
  · rename_i free
    split at step
    · cases step
    · rename_i content source
      split at step
      · cases step
      · exact .inr ⟨content, free, source, (some.inj step).symm⟩

theorem moveIntoPlace_eq_some :
    ∃ files outside, moved = { state with files, outside } := by
  rcases moveIntoPlace_cases step with ⟨-, ⟨-, rfl⟩ | ⟨-, rfl⟩⟩ | ⟨content, -, -, rfl⟩ <;>
    exact ⟨_, _, rfl⟩

end

/-- The state after a package was recorded: its bytes replace those that the row had before. -/
def State.record (lib : Libraries) (hash filename : Str) (size : Nat) (state : State) : State :=
  let fresh := freshRow lib filename size state.clock
  { state with
    packages := state.packages.insertOrUpdate hash fresh (refreshRow fresh)
    currentSize :=
      state.currentSize + .ofInt (size - state.packages.columnAt hash PackageRow.bytes) }

theorem recordPackage_cases (filename : Str) (size : Nat) (state : State) :
    (faults.record = true ∧
        recordPackage lib faults hash filename size state = (.error .recordFailed, state)) ∨
      (faults.record = false ∧ recordPackage lib faults hash filename size state =
        (if 16 ≤ hash.length then .ok else .panic .sliceOutOfRange,
          state.record lib hash filename size)) := by
  have bytes : (match state.packages.find? hash with
      | some old => state.currentSize + (.ofNat size - .ofNat old.size)
      | none => state.currentSize + .ofNat size) =
        state.currentSize + .ofInt (size - state.packages.columnAt hash PackageRow.bytes) := by
    rw [columnAt]
    cases state.packages.find? hash with
    | some old => simp [PackageRow.bytes, Int64.ofInt_sub, Int64.ofInt_eq_ofNat]
    | none => simp [Int64.ofInt_eq_ofNat]
  unfold recordPackage logHash
  dsimp only
  rw [bytes]
  cases faults.record with
  | true => exact .inl ⟨rfl, rfl⟩
  | false =>
    by_cases long : 16 ≤ hash.length
    · exact .inr ⟨rfl, by simp only [if_pos long]; rfl⟩
    · exact .inr ⟨rfl, by simp only [if_neg long]; rfl⟩

/-- A commit fails before the table is written, or it records the package after room was made. -/
theorem commitVerifiedFile_cases (filePath hash filename : Str) (size : Nat) (state : State) :
    ((commitVerifiedFile lib faults filePath hash filename size state).1 ≠ .ok ∧
        (commitVerifiedFile lib faults filePath hash filename size state).2 =
          (ensureSpace faults size state).2) ∨
      ((ensureSpace faults size state).1 = .ok ∧
        ∃ files outside,
          moveIntoPlace faults filePath hash (ensureSpace faults size state).2 =
              some { (ensureSpace faults size state).2 with files, outside } ∧
            commitVerifiedFile lib faults filePath hash filename size state =
              recordPackage lib faults hash filename size
                { (ensureSpace faults size state).2 with files, outside }) := by
  cases spaceEq : ensureSpace faults size state with
  | mk outcome roomy =>
    cases outcome with
    | ok =>
      by_cases mkdirFails : faults.mkdir = true
      · left
        simp [commitVerifiedFile, spaceEq, mkdirFails]
      · cases moveEq : moveIntoPlace faults filePath hash roomy with
        | none =>
          left
          simp [commitVerifiedFile, spaceEq, mkdirFails, moveEq]
        | some moved =>
          right
          obtain ⟨files, outside, rfl⟩ := moveIntoPlace_eq_some moveEq
          refine ⟨rfl, files, outside, rfl, ?_⟩
          simp only [commitVerifiedFile, spaceEq, mkdirFails, moveEq]
          rfl
    | error reason | panic fault =>
      left
      simp [commitVerifiedFile, spaceEq]

/-- A put fails before it takes the lock, or it has verified its data and ends as its commit does,
up to files outside the package directory. -/
theorem put_cases (pendingPath data expectedHash filename : Str) (state : State) :
    (¬ (!faults.copy ∧ lib.sha256 data = expectedHash) ∧
        (put lib faults pendingPath data expectedHash filename state).1 ≠ .ok ∧
        (put lib faults pendingPath data expectedHash filename state).2 = state) ∨
      (!faults.copy ∧ lib.sha256 data = expectedHash) ∧ ∃ cleaned,
        (put lib faults pendingPath data expectedHash filename state).1 =
          (commitVerifiedFile lib faults pendingPath expectedHash filename data.length
            (writeOutside pendingPath data state)).1 ∧
        (put lib faults pendingPath data expectedHash filename state).2 =
          { (commitVerifiedFile lib faults pendingPath expectedHash filename data.length
              (writeOutside pendingPath data state)).2 with outside := cleaned } := by
  unfold put
  split
  · rename_i uncopied
    exact .inl ⟨by simp [uncopied], Outcome.noConfusion, rfl⟩
  · rename_i copied
    split
    · rename_i mismatch
      exact .inl ⟨fun verified => mismatch verified.2, Outcome.noConfusion, rfl⟩
    · rename_i verified
      refine .inr ⟨⟨by simpa using copied, not_not.mp verified⟩, ?_⟩
      split
      · rename_i reason failed commitEq
        rw [commitEq]
        exact ⟨_, rfl, rfl⟩
      · exact ⟨_, rfl, rfl⟩

end

/-! ## The machine -/

/-- One step on the cache. `flush` is the flush before a listing; `advance` lets time pass. -/
inductive Event
  | put (faults : Faults) (pendingPath data expectedHash filename : Str)
  | putFile (faults : Faults) (filePath hash filename : Str) (size : Nat)
  | get (hash : Str)
  | close (hash : Str)
  | delete (faults : Faults) (hash : Str)
  | pin (faults : Faults) (hash : Str)
  | unpin (faults : Faults) (hash : Str)
  | flush (faults : Faults)
  | flusherSwap
  | flusherCommit (faults : Faults)
  | advance (seconds : Nat)

/-- The state after one step. -/
def next (lib : Libraries) (state : State) : Event → State
  | .put faults pendingPath data expectedHash filename =>
    (put lib faults pendingPath data expectedHash filename state).2
  | .putFile faults filePath hash filename size =>
    (putFile lib faults filePath hash filename size state).2
  | .get hash => (get hash state).2
  | .close hash => closeReader hash state
  | .delete faults hash => (delete faults hash state).2
  | .pin faults hash => (pin faults hash state).2
  | .unpin faults hash => (unpin faults hash state).2
  | .flush faults => flushAccess faults state
  | .flusherSwap => flusherSwap state
  | .flusherCommit faults => flusherCommit faults state
  | .advance seconds => { state with clock := state.clock + seconds }

end Debswarm.Cache
