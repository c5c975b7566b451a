import Debswarm.Downloader.Chunking
import Debswarm.Table.Linked
import Debswarm.Transition.Run

/-!
# The rows of all downloads

The state manager keeps a row for every download in one table and a row for every chunk in
another.  The chunks belong to a download by a foreign key whose deletions cascade, and the
cleanup of stale downloads relies on that.  But a connection enforces foreign keys only if it
asks for it, and the connection to the cache database does not.  The chunks that a cleanup leaves
behind then stand in the way of the next download of the same hash.

Each operation is one statement or one transaction, so an operation that fails changes nothing.
-/

namespace Debswarm.Downloader.Records

open LinkedTables Option Table Text Transition

/-! ## The connection -/

/-- The pragmas of the connection to the cache database. -/
def cacheDBParams : List (Str × Str) :=
  [(ofAscii "journal_mode", ofAscii "WAL"), (ofAscii "busy_timeout", ofAscii "10000"),
    (ofAscii "synchronous", ofAscii "NORMAL")]

/-- The values that switch a pragma on. -/
def isOn (value : Str) : Bool :=
  value = ofAscii "1" || value = ofAscii "on" || value = ofAscii "yes" || value = ofAscii "true"

/-- Foreign keys are not enforced unless the connection switches them on. -/
def foreignKeys (pragmas : List (Str × Str)) : Bool :=
  pragmas.foldl
    (fun enforced pragma => if pragma.1 = ofAscii "foreign_keys" then isOn pragma.2 else enforced)
    false

/-! ## The tables -/

/-- The row of a download. -/
structure DownloadRow where
  url : Str
  expectedSize : Int64
  completedSize : Option Int
  chunkSize : Int64
  totalChunks : Int64
  status : Status
  createdAt : Int
  updatedAt : Int
  error : Option Str
  retryCount : Nat
  deriving DecidableEq, Repr

/-- The row of a chunk, which is stored under the hash of its download and its index. -/
structure ChunkRow where
  start : Int64
  stop : Int64
  status : Status
  completedAt : Option Int
  deriving DecidableEq, Repr

/-- Downloads under their hashes, and their chunks. -/
abbrev Database :=
  LinkedTables Str Nat DownloadRow ChunkRow

/-- An empty database, opened with pragmas. -/
def Database.opened (pragmas : List (Str × Str)) : Database :=
  .empty (foreignKeys pragmas)

/-! ## The operations of the state manager -/

/-- A division by zero, which stops the program, or a key that is taken. -/
inductive CreateError
  | divisionByZero
  | constraint
  deriving DecidableEq, Repr

/-- The rows of the chunks of a new download. -/
def chunkRows (size chunkSize : Int64) : List (Nat × ChunkRow) :=
  (chunkIndices size chunkSize).map fun index =>
    let range := chunkRange size chunkSize index
    (index, ⟨range.1, range.2, .pending, none⟩)

def newRow (now : Int) (url : Str) (size chunkSize : Int64) : DownloadRow where
  url := url
  expectedSize := size
  completedSize := some 0
  chunkSize := chunkSize
  totalChunks := totalChunks size chunkSize
  status := .pending
  createdAt := now
  updatedAt := now
  error := none
  retryCount := 0

/-- Insert a download and its chunks. -/
def createDownload (now : Int) (hash url : Str) (size chunkSize : Int64) (db : Database) :
    Except CreateError Database :=
  if chunkSize = 0 then .error .divisionByZero
  else
    match (db.insertParent hash (newRow now url size chunkSize)).bind
        (·.insertChildren hash (chunkRows size chunkSize)) with
    | some created => .ok created
    | none => .error .constraint

/-- Change the row of one download. -/
def updateDownload (hash : Str) (change : DownloadRow → DownloadRow) (db : Database) : Database :=
  db.updateParents fun key row => if key = hash then change row else row

def updateDownloadStatus (now : Int) (hash : Str) (status : Status) : Database → Database :=
  updateDownload hash fun row => { row with status, updatedAt := now }

/-- The rows of the chunks of a download. -/
def chunksOf (hash : Str) (db : Database) : List (Nat × ChunkRow) :=
  (db.children.rows.filter fun child => child.1.1 = hash).map fun child => (child.1.2, child.2)

/-- The bytes of the completed chunks of a download; none if no chunk is completed. -/
def completedSum (hash : Str) (db : Database) : Option Int :=
  match (chunksOf hash db).filter fun chunk => chunk.2.status = .completed with
  | [] => none
  | completed => some (completed.map fun chunk => chunk.2.stop.toInt - chunk.2.start.toInt).sum

def setChunk (now : Int) (hash : Str) (index : Int) (status : Status) (db : Database) :
    Database :=
  let completedAt := if status = .completed then some now else none
  db.updateChildren fun (key : Str × Nat) row =>
    if key.1 = hash ∧ (key.2 : Int) = index then { row with status, completedAt } else row

/-- Set the status of one chunk, and recount the completed bytes when it is completed. -/
def updateChunk (now : Int) (hash : Str) (index : Int) (status : Status) (db : Database) :
    Database :=
  let updated := setChunk now hash index status db
  if status = .completed then
    updateDownload hash
      (fun row => { row with completedSize := completedSum hash updated, updatedAt := now })
      updated
  else updated

def completeDownload (now : Int) (hash : Str) : Database → Database :=
  updateDownload hash fun row => { row with status := .completed, updatedAt := now }

def failDownload (now : Int) (hash message : Str) : Database → Database :=
  updateDownload hash fun row =>
    { row with status := .failed, error := some message, updatedAt := now }

def deleteDownload (hash : Str) (db : Database) : Database :=
  (db.deleteChildren hash).deleteParents fun key _ => key = hash

/-- The download is unfinished and was not changed since a time. -/
def isStale (cutoff : Int) (row : DownloadRow) : Bool :=
  (row.status = .pending || row.status = .inProgress || row.status = .failed) &&
    row.updatedAt < cutoff

/-- Delete the downloads that are unfinished and old. -/
def cleanupStale (cutoff : Int) (db : Database) : Database :=
  db.deleteParents fun _ => isStale cutoff

/-- Return a failed download to the queue; a download that has not failed is an error. -/
def markForRetry (now : Int) (hash : Str) (db : Database) : Database :=
  if (db.parents.find? hash).any fun row => row.status = .failed then
    (updateDownload hash
        (fun row => { row with
          status := .pending
          retryCount := row.retryCount + 1
          updatedAt := now
          error := none })
        db).updateChildren
      fun key row =>
        if key.1 = hash ∧ row.status ≠ .completed then
          { row with status := .pending, completedAt := none }
        else row
  else db

def incrementRetryCount (now : Int) (hash : Str) : Database → Database :=
  updateDownload hash fun row => { row with retryCount := row.retryCount + 1, updatedAt := now }

/-! ## Sequences of operations -/

/-- An operation that writes, with the time that it reads. -/
inductive Operation
  | createDownload (now : Int) (hash url : Str) (size chunkSize : Int64)
  | updateDownloadStatus (now : Int) (hash : Str) (status : Status)
  | updateChunk (now : Int) (hash : Str) (index : Int) (status : Status)
  | completeDownload (now : Int) (hash : Str)
  | failDownload (now : Int) (hash message : Str)
  | deleteDownload (hash : Str)
  | cleanupStale (cutoff : Int)
  | markForRetry (now : Int) (hash : Str)
  | incrementRetryCount (now : Int) (hash : Str)
  deriving DecidableEq, Repr

/-- A call of the state manager, and whether the database fails in it. -/
structure Call where
  operation : Operation
  fails : Bool
  deriving DecidableEq, Repr

/-- The database after an operation. -/
def Operation.apply (db : Database) : Operation → Database
  | .createDownload now hash url size chunkSize =>
    match Records.createDownload now hash url size chunkSize db with
    | .ok created => created
    | .error _ => db
  | .updateDownloadStatus now hash status => Records.updateDownloadStatus now hash status db
  | .updateChunk now hash index status => Records.updateChunk now hash index status db
  | .completeDownload now hash => Records.completeDownload now hash db
  | .failDownload now hash message => Records.failDownload now hash message db
  | .deleteDownload hash => Records.deleteDownload hash db
  | .cleanupStale cutoff => Records.cleanupStale cutoff db
  | .markForRetry now hash => Records.markForRetry now hash db
  | .incrementRetryCount now hash => Records.incrementRetryCount now hash db

/-- The database after a call. -/
def next (db : Database) (call : Call) : Database :=
  if call.fails then db else call.operation.apply db

def Call.creates (db : Database) (call : Call) : Option (Int × Str × Str × Int64 × Int64) :=
  match call.operation with
  | .createDownload now hash url size chunkSize =>
    if call.fails || (db.parents.find? hash).isSome then none
    else some (now, hash, url, size, chunkSize)
  | _ => none

/-- After the call every chunk has a download, and a missing download was created if asked. -/
def Upholds (db : Database) (call : Call) : Prop :=
  (next db call).Integral ∧ ∀ now hash url size chunkSize,
    call.creates db = some (now, hash, url, size, chunkSize) →
      ∃ created, createDownload now hash url size chunkSize db = .ok created

/-- No download is created with chunks of no size, and without foreign keys a cleanup deletes only
downloads without chunks. -/
def Careful (db : Database) (call : Call) : Prop :=
  (∀ now hash url size chunkSize,
    call.creates db = some (now, hash, url, size, chunkSize) → chunkSize ≠ 0) ∧
  ∀ cutoff, call = ⟨.cleanupStale cutoff, false⟩ → db.enforced = true ∨
    ∀ hash index, (db.children.find? (hash, index)).isSome = true →
      (db.parents.find? hash).any (isStale cutoff) = false

/-! ## One call -/

variable {db : Database}

theorem nodup_chunkRows (size chunkSize : Int64) :
    ((chunkRows size chunkSize).map Prod.fst).Nodup := by
  rw [chunkRows, List.map_map]
  exact List.Nodup.map Function.injective_id List.nodup_range

/-- Where there is no download, and no chunk without one, a download is created. -/
theorem createDownload_of_integral (integral : db.Integral) {hash : Str}
    (absent : db.parents.find? hash = none) (now : Int) (url : Str) (size : Int64)
    {chunkSize : Int64} (nonzero : chunkSize ≠ 0) :
    ∃ created, createDownload now hash url size chunkSize db = .ok created := by
  let inserted : Database :=
    { db with parents := db.parents.set hash (newRow now url size chunkSize) }
  have isParent : (inserted.parents.find? hash).isSome = true := by
    rw [find?_set, if_pos rfl]
    rfl
  obtain ⟨created, isCreated⟩ := insertChildren_of_absent isParent
    (nodup_chunkRows size chunkSize) fun index _ => integral.absent absent index
  refine ⟨created, ?_⟩
  simp only [createDownload, if_neg nonzero, insertParent_of_absent absent, bind_some]
  rw [isCreated]

/-- A created download was not there, and its rows are those of itself and its chunks. -/
theorem createDownload_eq_ok {now : Int} {hash url : Str} {size chunkSize : Int64}
    {created : Database} (isCreated : createDownload now hash url size chunkSize db = .ok created) :
    db.parents.find? hash = none ∧
      insertChildren hash (chunkRows size chunkSize)
        { db with parents := db.parents.set hash (newRow now url size chunkSize) } =
          some created := by
  unfold createDownload at isCreated
  split at isCreated
  · cases isCreated
  · split at isCreated
    · rename_i after inserted
      cases isCreated
      obtain ⟨parents, insertedParent, insertedChildren⟩ := bind_eq_some_iff.mp inserted
      obtain ⟨absent, rfl⟩ := insertParent_eq_some insertedParent
      exact ⟨absent, insertedChildren⟩
    · cases isCreated

theorem integral_updateDownload (integral : db.Integral) (hash : Str)
    (change : DownloadRow → DownloadRow) : (updateDownload hash change db).Integral :=
  integral.updateParents _

/-- A download is deleted with its chunks, whether or not foreign keys are enforced. -/
theorem integral_deleteDownload (integral : db.Integral) (hash : Str) :
    (deleteDownload hash db).Integral := by
  rw [deleteDownload, (integral.deleteChildren hash).deleteParents_iff]
  right
  intro key index isChild
  have other : key ≠ hash := by
    rintro rfl
    simp only [deleteChildren, find?_filter] at isChild
    cases found : db.children.find? (key, index) with
    | none | some row => simp [found] at isChild
  cases (db.deleteChildren hash).parents.find? key with
  | none => rfl
  | some row => simp [other]

theorem integral_markForRetry (integral : db.Integral) (now : Int) (hash : Str) :
    (markForRetry now hash db).Integral := by
  unfold markForRetry
  split
  · exact (integral_updateDownload integral _ _).updateChildren _
  · exact integral

/-- Nothing is asked of a call that neither creates a download nor cleans up. -/
theorem upholds_iff_careful_of_plain {call : Call} (integral : (next db call).Integral)
    (createsNone : call.creates db = none)
    (cleansNone : ∀ cutoff, call ≠ ⟨.cleanupStale cutoff, false⟩) :
    Upholds db call ↔ Careful db call := by
  refine iff_of_true ⟨integral, ?_⟩
    ⟨?_, fun cutoff isCleanup => absurd isCleanup (cleansNone cutoff)⟩
  · intro now hash url size chunkSize creates
    rw [createsNone] at creates
    cases creates
  · intro now hash url size chunkSize creates
    rw [createsNone] at creates
    cases creates

theorem integral_apply_createDownload (integral : db.Integral) (now : Int) (hash url : Str)
    (size chunkSize : Int64) :
    (Operation.apply db (.createDownload now hash url size chunkSize)).Integral := by
  simp only [Operation.apply]
  split
  · rename_i created isCreated
    refine (integral.setParent _ _).insertChildren ?_ (createDownload_eq_ok isCreated).2
    rw [find?_set, if_pos rfl]
    rfl
  · exact integral

theorem upholds_createDownload_iff (integral : db.Integral) (now : Int) (hash url : Str)
    (size chunkSize : Int64) :
    Upholds db ⟨.createDownload now hash url size chunkSize, false⟩ ↔
      Careful db ⟨.createDownload now hash url size chunkSize, false⟩ := by
  have after := integral_apply_createDownload integral now hash url size chunkSize
  cases isThere : db.parents.find? hash with
  | some row =>
    exact upholds_iff_careful_of_plain after (by simp [Call.creates, isThere]) (by simp)
  | none =>
    have creates : Call.creates db ⟨.createDownload now hash url size chunkSize, false⟩ =
        some (now, hash, url, size, chunkSize) := by
      simp [Call.creates, isThere]
    constructor
    · intro upholds
      refine ⟨fun _ _ _ _ _ isCreate => ?_, by simp⟩
      obtain ⟨created, isCreated⟩ := upholds.2 _ _ _ _ _ isCreate
      rintro rfl
      cases isCreated
    · intro careful
      refine ⟨after, fun _ _ _ _ _ isCreate => ?_⟩
      have nonzero := careful.1 _ _ _ _ _ isCreate
      rw [creates] at isCreate
      cases isCreate
      exact createDownload_of_integral integral isThere now url size nonzero

theorem upholds_cleanupStale_iff (integral : db.Integral) (cutoff : Int) :
    Upholds db ⟨.cleanupStale cutoff, false⟩ ↔ Careful db ⟨.cleanupStale cutoff, false⟩ := by
  have cleans : (next db ⟨.cleanupStale cutoff, false⟩).Integral ↔ db.enforced = true ∨
      ∀ hash index, (db.children.find? (hash, index)).isSome = true →
        (db.parents.find? hash).any (isStale cutoff) = false :=
    integral.deleteParents_iff fun _ => isStale cutoff
  constructor
  · rintro ⟨after, -⟩
    refine ⟨fun _ _ _ _ _ isCreate => (by cases isCreate), fun other isCleanup => ?_⟩
    cases isCleanup
    exact cleans.mp after
  · rintro ⟨-, spares⟩
    exact ⟨cleans.mpr (spares cutoff rfl), fun _ _ _ _ _ isCreate => by cases isCreate⟩

/-- A call upholds the links between the tables exactly when it is careful. -/
theorem upholds_iff_careful (integral : db.Integral) (call : Call) :
    Upholds db call ↔ Careful db call := by
  obtain ⟨operation, fails⟩ := call
  cases fails with
  | true =>
    refine upholds_iff_careful_of_plain integral ?_ (by simp)
    cases operation <;> rfl
  | false =>
    cases operation with
    | createDownload now hash url size chunkSize =>
      exact upholds_createDownload_iff integral now hash url size chunkSize
    | cleanupStale cutoff => exact upholds_cleanupStale_iff integral cutoff
    | updateDownloadStatus now hash status =>
      exact upholds_iff_careful_of_plain (integral_updateDownload integral _ _) rfl (by simp)
    | updateChunk now hash index status =>
      refine upholds_iff_careful_of_plain ?_ rfl (by simp)
      change (updateChunk now hash index status db).Integral
      unfold updateChunk
      dsimp only
      split
      · exact integral_updateDownload (integral.updateChildren _) _ _
      · exact integral.updateChildren _
    | completeDownload now hash | failDownload now hash message =>
      exact upholds_iff_careful_of_plain (integral_updateDownload integral _ _) rfl (by simp)
    | deleteDownload hash =>
      exact upholds_iff_careful_of_plain (integral_deleteDownload integral _) rfl (by simp)
    | markForRetry now hash =>
      exact upholds_iff_careful_of_plain (integral_markForRetry integral _ _) rfl (by simp)
    | incrementRetryCount now hash =>
      exact upholds_iff_careful_of_plain (integral_updateDownload integral _ _) rfl (by simp)

/-! ## Sequences of calls -/

/-- From an empty database, with whatever pragmas, after every call each chunk has a download and
every missing download could be created, exactly when the calls are careful. -/
theorem upheld_throughout_iff (pragmas : List (Str × Str)) (calls : List Call) :
    StepsMeet next Upholds (.opened pragmas) calls ↔
      StepsMeet next Careful (.opened pragmas) calls :=
  stepsMeet_iff_of_invariant LinkedTables.Integral (fun _ call integral =>
    upholds_iff_careful integral call) (fun _ _ _ upholds => upholds.1)
    (integral_empty _)

/-- A download of two chunks is created and cleaned up. -/
def cleanedUp : List Call :=
  [⟨.createDownload 0 [1] [2] 3 2, false⟩, ⟨.cleanupStale 1, false⟩]

/-- The chunks are still there, and the download cannot be created again. -/
theorem not_created_after_cleanedUp :
    let db := run next (.opened cacheDBParams) cleanedUp
    db.parents.find? [1] = none ∧ (db.children.find? ([1], 0)).isSome = true ∧
      ¬ ∃ created, createDownload 2 [1] [2] 3 2 db = .ok created := by
  intro db
  have refused : (createDownload 2 [1] [2] 3 2 db).isOk = false := by decide +kernel
  refine ⟨by decide +kernel, by decide +kernel, ?_⟩
  rintro ⟨created, isCreated⟩
  rw [isCreated] at refused
  cases refused

end Debswarm.Downloader.Records
