import Debswarm.Cache.Core
import Debswarm.File.Tree

/-!
# Importing packages from files

`seed import` collects the `.deb` files of its arguments, imports each one into the cache
and, in sync mode, deletes the cached packages whose hash no import came across.  An
incremental import leaves out the files that did not change since the last one.

Imports run in parallel with each other and with a running daemon, so each import brings
along the cache as it finds it when it looks for the package and when it stores it.
Announcing, progress output and watch mode are left out.
-/

namespace Debswarm.Seed

open Cache File Text

/-- The flags of an import. -/
structure Options where
  recursive : Bool
  syncMode : Bool
  dryRun : Bool
  incremental : Bool
  deriving DecidableEq, Repr

/-- What an incremental import saves for the next one. -/
structure SyncState where
  lastSync : Int
  path : Str
  deriving DecidableEq, Repr

/-- The time of the last sync of a source, if the saved state is for that source. -/
def loadSyncState (saved : Option SyncState) (sourcePath : Str) : Option Int :=
  saved.bind fun state => if state.path = sourcePath then some state.lastSync else none

/-! ## Collecting -/

/-- Whether a path names a package file. -/
def isDeb (lib : Libraries) (path : Str) : Bool :=
  hasSuffix (toLower lib.unicodeLower path) (ofAscii ".deb")

/-- Whether a modification time is before the last sync. -/
def isOlder (modifiedAfter : Option Int) (modTime : Int) : Bool :=
  modifiedAfter.any fun time => modTime < time

/-- The directories that a walk enters: all, or the root only. -/
def entersDirectory (root : Str) (recursive : Bool) (path : Str) : Bool :=
  path = root || recursive

/-- What a walk collects from a file or link. -/
def collectLeaf (lib : Libraries) (modifiedAfter : Option Int) (path : Str) (node : Node Str) :
    List (Str × Node Str) :=
  if isDeb lib path && !isOlder modifiedAfter node.modTime then [(path, node)] else []

/-- The package files modified since the last sync. An error loses the whole argument. -/
def collectDebFiles (lib : Libraries) (recursive : Bool) (modifiedAfter : Option Int)
    (path : Str) (node : Node Str) : Option (List (Str × Node Str)) :=
  match node.resolve with
  | .missing => none
  | .directory _ _ =>
    let (signal, files) :=
      walk (collector (entersDirectory path recursive) (collectLeaf lib modifiedAfter)) path
        node []
    if signal = .stop then none else some files
  | info =>
    some (if isDeb lib path && !isOlder modifiedAfter info.modTime then [(path, node)] else [])

/-! ## Importing one file -/

/-- How the import of one file goes: the failing operations, the cache when it looks for the
package, the second reading, and the put. -/
structure ImportCall where
  openFails : Bool
  statFails : Bool
  readFails : Bool
  atCheck : Cache.State
  seekFails : Bool
  reread : Str
  atStore : Cache.State
  faults : Cache.Faults
  pendingPath : Str

/-- Why an import reports an error. -/
inductive ImportError
  | openFailed
  | statFailed
  | readFailed
  | alreadyCached
  | seekFailed
  | putFailed
  deriving DecidableEq, Repr

/-- The result of an import.  A failed one has no hash, unless the package is already
cached. -/
structure ImportResult where
  path : Str
  hash : Str
  size : Nat
  error : Option ImportError
  deriving DecidableEq, Repr

def ImportResult.failed (path : Str) (error : ImportError) : ImportResult :=
  ⟨path, [], 0, some error⟩

/-- Import one file. Rows are named by digests here, so that no put panics. -/
def processDebFile (lib : Libraries) (dryRun : Bool) (call : ImportCall) (path : Str)
    (node : Node Str) : ImportResult :=
  match node.resolve with
  | .file _ content =>
    let hash := lib.sha256 content
    if call.openFails then .failed path .openFailed
    else if call.statFails then .failed path .statFailed
    else if call.readFails then .failed path .readFailed
    else if dryRun then ⟨path, hash, content.length, none⟩
    else if has hash call.atCheck then ⟨path, hash, content.length, some .alreadyCached⟩
    else if call.seekFails then .failed path .seekFailed
    else if (put lib call.faults call.pendingPath call.reread hash (pathBase path)
        call.atStore).1 = .ok then ⟨path, hash, content.length, none⟩
    else .failed path .putFailed
  | .directory _ _ => .failed path .readFailed
  | _ => .failed path .openFailed

/-- The hash that an import adds to the hashes of the source. -/
def ImportResult.sourceHash (result : ImportResult) : Option Str :=
  match result.error with
  | none => some result.hash
  | some .alreadyCached => some result.hash
  | some _ => none

/-! ## Removing what is not in the source -/

/-- What a removal pass did, and the cache it leaves. -/
structure Removal where
  removed : Nat
  wouldRemove : Nat
  cache : Cache.State

/-- Delete the listed packages that are not among the hashes of the source. -/
def removeAbsent (faults : Cache.Faults) (dryRun : Bool) (sourceHashes : List Str) :
    List Str → Cache.State → Removal
  | [], cache => ⟨0, 0, cache⟩
  | hash :: rest, cache =>
    if hash ∈ sourceHashes then removeAbsent faults dryRun sourceHashes rest cache
    else if dryRun then
      let removal := removeAbsent faults dryRun sourceHashes rest cache
      { removal with wouldRemove := removal.wouldRemove + 1 }
    else
      match delete faults hash cache with
      | (.ok, deleted) =>
        let removal := removeAbsent faults dryRun sourceHashes rest deleted
        { removal with removed := removal.removed + 1 }
      | (_, kept) => removeAbsent faults dryRun sourceHashes rest kept

def runSyncRemoval (faults : Cache.Faults) (listFails dryRun : Bool) (sourceHashes : List Str)
    (cache : Cache.State) : Removal :=
  let (listed, flushed) := list faults cache
  if listFails then ⟨0, 0, flushed⟩
  else removeAbsent faults dryRun sourceHashes (listed.map Prod.fst) flushed

/-! ## An import run -/

/-- An argument: the path, what it names, and how the import of each file below it
goes. -/
structure SourceArg where
  path : Str
  node : Node Str
  calls : Str → ImportCall

/-- What decides how an import run goes. `cache` is the cache after the imports. -/
structure ImportRun where
  options : Options
  source : SourceArg
  others : List SourceArg
  saved : Option SyncState
  now : Int
  saveFails : Bool
  cache : Cache.State
  faults : Cache.Faults
  listFails : Bool

def ImportRun.args (run : ImportRun) : List SourceArg :=
  run.source :: run.others

/-- The time before which an import run leaves files out. -/
def ImportRun.lastSync (run : ImportRun) : Option Int :=
  if run.options.incremental then loadSyncState run.saved run.source.path else none

/-- The imports of one argument; an argument that cannot be walked has none. -/
def importArg (lib : Libraries) (options : Options) (lastSync : Option Int) (arg : SourceArg) :
    List ImportResult :=
  ((collectDebFiles lib options.recursive lastSync arg.path arg.node).getD []).map fun file =>
    processDebFile lib options.dryRun (arg.calls file.1) file.1 file.2

/-- How an import run ends. -/
inductive Ending
  | noNewFiles
  | noDebFiles
  | finished (imported skipped failed removed wouldRemove : Nat)
  deriving DecidableEq, Repr

/-- The end of an import run, with the cache and the sync state that it leaves. -/
structure Report where
  ending : Ending
  cache : Cache.State
  saved : Option SyncState

/-- Import the arguments and, in sync mode, delete what is not in the source. -/
def runSingleImport (lib : Libraries) (run : ImportRun) : Report :=
  let results := run.args.flatMap (importArg lib run.options run.lastSync)
  if results = [] then
    ⟨if run.options.incremental && run.lastSync.isSome then .noNewFiles else .noDebFiles,
      run.cache, run.saved⟩
  else
    let removal :=
      if run.options.syncMode then
        runSyncRemoval run.faults run.listFails run.options.dryRun
          (results.filterMap ImportResult.sourceHash) run.cache
      else ⟨0, 0, run.cache⟩
    { ending := .finished (results.countP fun result => result.error = none)
        (results.countP fun result => result.error = some .alreadyCached)
        (results.countP fun result => result.error ≠ none ∧ result.error ≠ some .alreadyCached)
        removal.removed removal.wouldRemove
      cache := removal.cache
      saved :=
        if run.options.incremental && !run.options.dryRun && !run.saveFails then
          some ⟨run.now, run.source.path⟩
        else run.saved }

end Debswarm.Seed
