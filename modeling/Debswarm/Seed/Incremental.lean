import Debswarm.Seed.Sync
import Debswarm.Transition.Run

/-!
# Repeated incremental imports

An incremental import loads the time of the last one, scans the source for package files that
were not modified before that time, imports them one by one, and saves the time at which it is
done.  Files may be written at any moment and with any modification time, and an import reads
a file as it is when its turn comes.

The model follows the imports of one source into one cache.  Whether the source has changed
since a run began is not part of the program.
-/

namespace Debswarm.Seed.Incremental

open File Text

/-- A source in which no path names two files. -/
structure Tree (source : Str) (recursive : Bool) where
  node : Node Str
  distinct : ((leaves (entersDirectory source recursive) source node).map Prod.fst).Nodup

variable {source : Str} {recursive : Bool}

/-- The files of a source by their paths. -/
def Tree.files (tree : Tree source recursive) : Table Str (Node Str) :=
  ⟨leaves (entersDirectory source recursive) source tree.node, tree.distinct⟩

/-- How far an import run is, whether an import failed, and whether the source is unchanged. -/
inductive Phase
  | idle
  | loaded (lastSync : Option Int) (stable : Bool)
  | importing (todo : List Str) (failed stable : Bool)
  deriving DecidableEq, Repr

/-- The source, the cache, what the last run saved, and the running import. -/
structure State (source : Str) (recursive : Bool) where
  tree : Tree source recursive
  cache : Cache.State
  saved : Option SyncState
  phase : Phase

/-- Nothing was imported yet. -/
def State.start (tree : Tree source recursive) (cache : Cache.State) : State source recursive :=
  ⟨tree, cache, none, .idle⟩

/-- What goes wrong with the import of a file, and what the file reads like the second time. -/
structure Trouble where
  openFails : Bool := false
  statFails : Bool := false
  readFails : Bool := false
  seekFails : Bool := false
  reread : Str
  faults : Cache.Faults := {}
  pendingPath : Str := []

/-- An import that finds one cache. -/
def Trouble.call (trouble : Trouble) (cache : Cache.State) : ImportCall where
  openFails := trouble.openFails
  statFails := trouble.statFails
  readFails := trouble.readFails
  atCheck := cache
  seekFails := trouble.seekFails
  reread := trouble.reread
  atStore := cache
  faults := trouble.faults
  pendingPath := trouble.pendingPath

/-- The source as an argument of an import. -/
def State.arg (state : State source recursive) : SourceArg :=
  ⟨source, state.tree.node, fun _ => Trouble.call { reread := [] } state.cache⟩

/-! ## The phases of a run -/

/-- The files that a run collects. -/
def collected (lib : Libraries) (lastSync : Option Int) (state : State source recursive) :
    List (Str × Node Str) :=
  (collectDebFiles lib recursive lastSync source state.tree.node).getD []

/-- Scan the source.  A run without files is over. -/
def scan (lib : Libraries) (lastSync : Option Int) (stable : Bool)
    (state : State source recursive) : State source recursive :=
  let files := collected lib lastSync state
  { state with
    phase := if files.isEmpty then .idle else .importing (files.map Prod.fst) false stable }

/-- The cache after the import of one file. -/
def cacheAfter (lib : Libraries) (call : ImportCall) (path : Str) (node : Node Str) :
    Cache.State :=
  match node.resolve with
  | .file _ content =>
    let hash := lib.sha256 content
    if call.openFails || call.statFails || call.readFails || Cache.has hash call.atCheck ||
        call.seekFails then call.atStore
    else
      (Cache.put lib call.faults call.pendingPath call.reread hash (pathBase path)
        call.atStore).2
  | _ => call.atStore

def importFile (lib : Libraries) (path : Str) (trouble : Trouble) (todo : List Str)
    (failed stable : Bool) (state : State source recursive) : State source recursive :=
  let node := (state.tree.files.find? path).getD .missing
  let call := trouble.call state.cache
  let result := processDebFile lib false call path node
  { state with
    cache := cacheAfter lib call path node
    phase := .importing (todo.erase path) (failed || result.sourceHash.isNone) stable }

/-- The sync state is written, left as it is, or cut short, so that it does not parse. -/
inductive Saving
  | written
  | failed
  | torn
  deriving DecidableEq, Repr

/-- Save the time at which a run is done. -/
def saveSyncState (now : Int) (saving : Saving) (state : State source recursive) :
    State source recursive :=
  { state with
    saved :=
      match saving with
      | .written => some ⟨now, source⟩
      | .failed => state.saved
      | .torn => none
    phase := .idle }

/-- A changed source is no longer what it was when a run began. -/
def Phase.disturb : Phase → Phase
  | .idle => .idle
  | .loaded lastSync _ => .loaded lastSync false
  | .importing todo failed _ => .importing todo failed false

/-! ## Steps -/

/-- What happens.  A run that is interrupted saves nothing. -/
inductive Event (source : Str) (recursive : Bool)
  | change (tree : Tree source recursive)
  | load
  | scan
  | importFile (path : Str) (trouble : Trouble)
  | save (now : Int) (saving : Saving)
  | interrupt

/-- One step.  An event that has no place changes nothing. -/
def next (lib : Libraries) (state : State source recursive) (event : Event source recursive) :
    State source recursive :=
  match event, state.phase with
  | .change tree, phase => { state with tree, phase := phase.disturb }
  | .load, .idle => { state with phase := .loaded (loadSyncState state.saved source) true }
  | .scan, .loaded lastSync stable => Incremental.scan lib lastSync stable state
  | .importFile path trouble, .importing todo failed stable =>
    if path ∈ todo then Incremental.importFile lib path trouble todo failed stable state
    else state
  | .save now saving, .importing [] _ _ => saveSyncState now saving state
  | .interrupt, _ => { state with phase := .idle }
  | _, _ => state

end Debswarm.Seed.Incremental
