import Debswarm.Cache.Core
import Debswarm.Sync.Locks
import Debswarm.Transition.Run

/-!
# Calls on the cache, in parts

Gets, closes of readers, deletions and stores run at the same time.  A get holds the read lock, a
deletion or a commit the write lock, and a close neither; the readers of a package are counted
under a mutex of their own.  A call is taken apart here at the points where another one can run
in between.  What the mutex of the reader counts is held for is one part.  A failed step of a
`Faults` record is that of the whole call; whether a file cannot be opened or the database cannot
be read is decided part by part.
-/

namespace Debswarm.Cache.Calls

open Function Sync Text

/-- Why a call fails. -/
inductive Failure
  | cache (reason : CacheError)
  | panic (fault : Panic)
  | openFailed
  | readFailed
  deriving DecidableEq, Repr

/-- The result of a call that ends as an operation of the cache does. -/
def ofOutcome : Outcome → Except Failure Unit
  | .ok => .ok ()
  | .error reason => .error (.cache reason)
  | .panic fault => .error (.panic fault)

/-! ## Reader counts -/

/-- How far the close of a reader is. Only the first call gives the count back. -/
inductive Closing
  | open
  | begun
  | released
  deriving DecidableEq, Repr

/-- A reader that a get has returned. -/
structure Reader where
  hash : Str
  content : Str
  closing : Closing
  deriving DecidableEq, Repr

/-- One reader of a hash more. -/
def addReader (hash : Str) (activeReaders : Str → Int) : Str → Int :=
  update activeReaders hash (activeReaders hash + 1)

/-- One reader of a hash less. A count that is not positive is deleted from the map. -/
def dropReader (hash : Str) (activeReaders : Str → Int) : Str → Int :=
  let left := activeReaders hash - 1
  update activeReaders hash (if left ≤ 0 then 0 else left)

/-! ## Deletion in parts -/

/-- Where a deletion is: before it reads the count, removes the file, or drops the row. -/
inductive Removal
  | check (hash : Str) (sizeHint : Option Nat)
  | unlink (hash : Str) (size : Nat)
  | dropRow (hash : Str) (size : Nat)

/-- The next part of a deletion: where it goes on, or how it ends. -/
def Removal.step (faults : Faults) (fails : Bool) (activeReaders : Str → Int) (cache : State) :
    Removal → State × (Removal ⊕ Except Failure Unit)
  | .check hash sizeHint =>
    if 0 < activeReaders hash then
      (cache, .inr (.error (.cache .fileInUse)))
    else
      match sizeHint with
      | some size => (cache, .inl (.unlink hash size))
      | none =>
        if fails then (cache, .inr (.error .readFailed))
        else
          let size := ((cache.packages.find? hash).map PackageRow.size).getD 0
          (cache, .inl (.unlink hash size))
  | .unlink hash size =>
    if faults.remove hash then
      (cache, .inr (.error (.cache .removeFailed)))
    else
      ({ cache with files := update cache.files hash none }, .inl (.dropRow hash size))
  | .dropRow hash size =>
    if faults.deleteRow hash then
      (cache, .inr (.error (.cache .deleteFailed)))
    else
      ({ cache with
          packages := cache.packages.delete hash
          currentSize := cache.currentSize - .ofNat size },
        .inr (.ok ()))

/-! ## Commits in parts -/

/-- A store: the file to move, and whether it is a pending file, removed when the store fails. -/
structure Store where
  faults : Faults
  filePath : Str
  hash : Str
  filename : Str
  size : Nat
  isPending : Bool

/-- Where a commit is.  An eviction has the candidates that are left. -/
inductive Commit
  | flush
  | rank
  | evict (rest : List (Str × Nat))
  | removing (removal : Removal) (rest : List (Str × Nat))
  | place
  | record

/-- Whether the bytes of a store fit. -/
def Store.fits (store : Store) (cache : State) : Bool :=
  Fits store.size cache

/-- The next part of a commit. -/
def Commit.step (lib : Libraries) (store : Store) (fails : Bool) (activeReaders : Str → Int)
    (cache : State) : Commit → State × (Commit ⊕ Except Failure Unit)
  | .flush => (flushAccess store.faults cache, .inl .rank)
  | .rank =>
    if diskShort store.faults store.size cache then
      (cache, .inr (.error (.cache .insufficientDiskSpace)))
    else if store.fits cache then
      (cache, .inl .place)
    else if fails || store.faults.candidates then
      (cache, .inr (.error .readFailed))
    else
      (cache, .inl (.evict (candidates cache)))
  | .evict rest =>
    if fails then
      (cache, .inr (.error .readFailed))
    else
      match rest with
      | [] =>
        if store.fits cache then (cache, .inl .place)
        else (cache, .inr (.error (.cache .cacheFull)))
      | (hash, size) :: rest =>
        if store.fits cache then
          (cache, .inl .place)
        else
          match logHash hash with
          | .error fault => (cache, .inr (.error (.panic fault)))
          | .ok _ => (cache, .inl (.removing (.check hash (some size)) rest))
  | .removing removal rest =>
    match removal.step store.faults fails activeReaders cache with
    | (after, .inl further) => (after, .inl (.removing further rest))
    | (after, .inr _) => (after, .inl (.evict rest))
  | .place =>
    if store.faults.mkdir then
      (cache, .inr (.error (.cache .mkdirFailed)))
    else
      match moveIntoPlace store.faults store.filePath store.hash cache with
      | none => (cache, .inr (.error (.cache .moveFailed)))
      | some moved => (moved, .inl .record)
  | .record =>
    let recorded := recordPackage lib store.faults store.hash store.filename store.size cache
    (recorded.2, .inr (ofOutcome recorded.1))

/-- The pending file that a put removes after a commit that failed.  A panic passes over it. -/
def Store.leftover (store : Store) : Except Failure Unit → Option Str
  | .ok _ => none
  | .error (.panic _) => none
  | .error _ => if store.isPending then some store.filePath else none

/-! ## Calls -/

/-- What waits for the write lock. -/
inductive Job
  | delete (faults : Faults) (hash : Str)
  | store (request : Store)

/-- Where a call is. The first seven are those of a get, which may have to undo its count. -/
inductive Phase
  | entering (hash : Str)
  | inside (hash : Str)
  | counted (hash content : Str)
  | recorded (hash content : Str)
  | undoing (hash : Str) (failure : Failure)
  | leaving (hash : Str) (result : Except Failure (Str × PackageRow))
  | returning (hash : Str) (result : Except Failure (Str × PackageRow))
  | waiting (job : Job)
  | deleting (faults : Faults) (removal : Removal)
  | storing (store : Store) (commit : Commit)
  | unlocking (leftover : Option Str) (result : Except Failure Unit)
  | cleaning (path : Str)
  | returned

/-- The first part of a job, once it has the write lock. -/
def Job.first : Job → Phase
  | .delete faults hash => .deleting faults (.check hash none)
  | .store request => .storing request .flush

/-- The cache, its reader counts and its lock, the readers and the calls, by their places. -/
structure World where
  cache : State
  activeReaders : Str → Int
  mu : RWLock Nat
  readers : List Reader
  calls : List Phase

/-- A cache on which nobody has called yet. -/
def World.opened (cache : State) : World :=
  ⟨cache, fun _ => 0, RWLock.unlocked, [], []⟩

/-- A call goes on to another part. -/
def World.goOn (call : Nat) (phase : Phase) (world : World) : World :=
  { world with calls := world.calls.set call phase }

/-- A call is made. -/
def World.begin (phase : Phase) (world : World) : World :=
  { world with calls := world.calls ++ [phase] }

/-- The next part of a call, from where it is.  A call that waits for a lock stays where it is. -/
def act (lib : Libraries) (call : Nat) (fails : Bool) (world : World) : Phase → World
  | .entering hash =>
    match world.mu.rlock call with
    | none => world
    | some locked => { world.goOn call (.inside hash) with mu := locked }
  | .inside hash =>
    if fails then
      world.goOn call (.leaving hash (.error .openFailed))
    else
      match world.cache.files hash with
      | none => world.goOn call (.leaving hash (.error (.cache .notFound)))
      | some content =>
        { world.goOn call (.counted hash content) with
          activeReaders := addReader hash world.activeReaders }
  | .counted hash content =>
    { world.goOn call (.recorded hash content) with cache := recordAccess hash world.cache }
  | .recorded hash content =>
    if fails then
      world.goOn call (.undoing hash .readFailed)
    else
      match world.cache.packages.find? hash with
      | none => world.goOn call (.undoing hash (.cache .notFound))
      | some row => world.goOn call (.leaving hash (.ok (content, row)))
  | .undoing hash failure =>
    { world.goOn call (.leaving hash (.error failure)) with
      activeReaders := dropReader hash world.activeReaders }
  | .leaving hash result =>
    { world.goOn call (.returning hash result) with mu := world.mu.runlock call }
  | .returning _ (.error _) => world.goOn call .returned
  | .returning hash (.ok (content, _)) =>
    { world.goOn call .returned with
      readers := world.readers ++ [⟨hash, content, .open⟩] }
  | .waiting job =>
    match world.mu.lock call with
    | none => world
    | some locked => { world.goOn call job.first with mu := locked }
  | .deleting faults removal =>
    match removal.step faults fails world.activeReaders world.cache with
    | (after, .inl further) => { world.goOn call (.deleting faults further) with cache := after }
    | (after, .inr result) => { world.goOn call (.unlocking none result) with cache := after }
  | .storing store commit =>
    match commit.step lib store fails world.activeReaders world.cache with
    | (after, .inl further) => { world.goOn call (.storing store further) with cache := after }
    | (after, .inr result) =>
      { world.goOn call (.unlocking (store.leftover result) result) with cache := after }
  | .unlocking none _ => { world.goOn call .returned with mu := world.mu.unlock }
  | .unlocking (some path) _ => { world.goOn call (.cleaning path) with mu := world.mu.unlock }
  | .cleaning path =>
    { world.goOn call .returned with cache := removeOutside path world.cache }
  | .returned => world

/-- A call of the close of a reader. -/
def World.close (id : Nat) (world : World) : World :=
  match world.readers[id]? with
  | some ⟨hash, content, .open⟩ =>
    { world with readers := world.readers.set id ⟨hash, content, .begun⟩ }
  | _ => world

/-- The close of a reader that is under way gives the count back. -/
def World.release (id : Nat) (world : World) : World :=
  match world.readers[id]? with
  | some ⟨hash, content, .begun⟩ =>
    { world with
      activeReaders := dropReader hash world.activeReaders
      readers := world.readers.set id ⟨hash, content, .released⟩ }
  | _ => world

/-- A call is made or goes on, a reader is closed, the flusher works, or time passes. -/
inductive Event
  | get (hash : Str)
  | close (reader : Nat)
  | release (reader : Nat)
  | delete (faults : Faults) (hash : Str)
  | put (faults : Faults) (pendingPath data expectedHash filename : Str)
  | putFile (faults : Faults) (filePath hash filename : Str) (size : Nat)
  | goOn (call : Nat) (fails : Bool)
  | flusherSwap
  | flusherCommit (faults : Faults)
  | advance (seconds : Nat)

/-- The world after one event. A put has verified its data before it waits for the lock. -/
def next (lib : Libraries) (world : World) : Event → World
  | .get hash => world.begin (.entering hash)
  | .close id => world.close id
  | .release id => world.release id
  | .delete faults hash => world.begin (.waiting (.delete faults hash))
  | .put faults pendingPath data expectedHash filename =>
    if faults.copy || lib.sha256 data != expectedHash then world
    else
      { world.begin (.waiting (.store
          ⟨faults, pendingPath, expectedHash, filename, data.length, true⟩)) with
        cache := writeOutside pendingPath data world.cache }
  | .putFile faults filePath hash filename size =>
    world.begin (.waiting (.store ⟨faults, filePath, hash, filename, size, false⟩))
  | .goOn call fails =>
    match world.calls[call]? with
    | none => world
    | some phase => act lib call fails world phase
  | .flusherSwap => { world with cache := flusherSwap world.cache }
  | .flusherCommit faults => { world with cache := flusherCommit faults world.cache }
  | .advance seconds =>
    { world with cache := { world.cache with clock := world.cache.clock + seconds } }

end Debswarm.Cache.Calls
