import Debswarm.Downloader.Fetch

/-!
# Cleaning up after abandoned downloads

From time to time the rows of old downloads are deleted, and then the directories of partial
files that have not changed for long and have no row.  A download may be running all the while.
It refreshes its row only when it begins to fetch chunks, and the directory not at all once the
assembly file is there, so that an old download that is resumed can lose its directory.

The model follows one hash.  The cleaner takes its decision in the steps of the program, with
the steps of the download in between.  A file that is removed while it is open stays with the
attempt but is unlinked.
-/

namespace Debswarm.Downloader.Cleanup

open File Text Transition

/-! ## The partial directory -/

/-- The cleaner is not after the directory, has listed it, found it old, or found no row. -/
inductive Cleaner
  | resting
  | listed (cutoff : Int)
  | aged
  | doomed
  deriving DecidableEq, Repr

/-- A download, the times of its row and directory, the file at its path, and the cleaner. -/
structure State where
  attempt : Downloader.State
  updatedAt : Int
  directory : Option Int
  linked : Bool
  cleaner : Cleaner
  deriving DecidableEq, Repr

/-- No attempt is running and the cleaner rests. -/
def State.start (download : Option DownloadState) (updatedAt : Int)
    (file : Option (Sparse UInt8)) (directory : Option Int) : State :=
  ⟨⟨download, file, .idle, 0, []⟩, updatedAt, directory, true, .resting⟩

/-- The attempt has opened the assembly file. -/
def opened : Phase → Bool
  | .idle => false
  | .opening _ => false
  | _ => true

def fileAtPath (state : State) : Option (Sparse UInt8) :=
  if state.linked then state.attempt.file else none

/-- Remove the file from its path. -/
def unlink (state : State) : State :=
  if opened state.attempt.phase then { state with linked := false }
  else { state with attempt := { state.attempt with file := none } }

/-! ## Steps of the download -/

/-- The assembly file cannot be opened without its directory. -/
def needsDirectory (directory : Option Int) : Downloader.Event → Downloader.Event
  | .openAssembly fails => .openAssembly (fails || directory.isNone)
  | event => event

/-- The step sets the time of the row. -/
def touchesRow (event : Downloader.Event) (before after : Downloader.State) : Bool :=
  match event, before.phase with
  | .beginAttempt .., .idle => before.download.isNone && after.download.isSome
  | .allocate fails, .allocating attempt =>
    !fails && attempt.resumeEnabled && !attempt.chunks.isEmpty
  | .recordChunk fails, .recording _ _ => !fails
  | .finish _, .collecting attempt =>
    attempt.resumeEnabled && (attempt.firstError.isSome || decide (after.phase ≠ .idle))
  | .markForRetry, _ => before.download.any fun row => row.status = .failed
  | _, _ => false

/-- What a step leaves of the directory, whose time is that of the last file made in it. -/
def directoryAfter (event : Downloader.Event) (now : Int) (left : Option Int)
    (before after : Downloader.State) (directory : Option Int) : Option Int :=
  match event, before.phase with
  | .beginAttempt faults _ _ _, .idle =>
    if faults.ensurePartialDir = false ∧ after.phase ≠ .idle then some (directory.getD now)
    else directory
  | .openAssembly _, .opening _ =>
    if before.file.isNone ∧ after.file.isSome then some now else directory
  | .removeFile fails, .cleaning => if fails then directory else left
  | .takeFile fails, .returned => if fails then directory else left
  | _, _ => directory

/-- An unlinked file is gone when the attempt has closed it. -/
def settle (state : State) : State :=
  if opened state.attempt.phase = false ∧ state.linked = false then
    { state with attempt := { state.attempt with file := none }, linked := true }
  else state

/-- A step of the download.  A crash ends the cleaner as well. -/
def downloadStep (lib : Libraries) (expectedHash : Str) (event : Downloader.Event) (now : Int)
    (left : Option Int) (state : State) : State :=
  let event := needsDirectory state.directory event
  let after := Downloader.next lib expectedHash state.attempt event
  settle
    { state with
      attempt := after
      updatedAt := if touchesRow event state.attempt after then now else state.updatedAt
      directory := directoryAfter event now left state.attempt after state.directory
      cleaner := if event = .crash then .resting else state.cleaner }

/-! ## Steps of the cleaner -/

/-- Delete the row of an old download that has not been completed. -/
def cleanupStale (cutoff : Int) (state : State) : State :=
  { state with
    attempt :=
      { state.attempt with
        download := state.attempt.download.filter fun row =>
          !(decide (row.status ≠ .completed) && decide (state.updatedAt < cutoff)) } }

/-- Look at the time of the directory. -/
def inspect (fails : Bool) (cutoff : Int) (state : State) : State :=
  match state.directory with
  | none => { state with cleaner := .resting }
  | some modified =>
    { state with cleaner := if fails ∨ cutoff < modified then .resting else .aged }

/-- Look for the row of the download. If the database fails, it counts as having none. -/
def check (fails : Bool) (state : State) : State :=
  { state with
    cleaner := if fails = false ∧ state.attempt.download.isSome then .resting else .doomed }

/-- What a removal of the directory comes to. -/
inductive Removal
  | nothing
  | contents
  | directory
  deriving DecidableEq, Repr

def removeAll (removal : Removal) (now : Int) (state : State) : State :=
  match removal with
  | .nothing => { state with cleaner := .resting }
  | .contents =>
    { unlink state with directory := state.directory.map fun _ => now, cleaner := .resting }
  | .directory => { unlink state with directory := none, cleaner := .resting }

/-! ## Runs -/

/-- What happens to a download and its directory. -/
inductive Event
  | download (event : Downloader.Event) (now : Int) (left : Option Int)
  | cleanupStale (now maxAge : Int) (fails : Bool)
  | list (now maxAge : Int) (fails : Bool)
  | inspect (fails : Bool)
  | check (fails : Bool)
  | removeAll (removal : Removal) (now : Int)
  deriving DecidableEq, Repr

/-- One step.  An event that the cleaner has no place for changes nothing. -/
def next (lib : Libraries) (expectedHash : Str) (state : State) (event : Event) : State :=
  match event, state.cleaner with
  | .download event now left, _ => downloadStep lib expectedHash event now left state
  | .cleanupStale now maxAge fails, .resting =>
    if fails then state else Cleanup.cleanupStale (now - maxAge) state
  | .list now maxAge fails, .resting =>
    if fails = false ∧ state.directory.isSome then
      { state with cleaner := .listed (now - maxAge) }
    else state
  | .inspect fails, .listed cutoff => Cleanup.inspect fails cutoff state
  | .check fails, .aged => Cleanup.check fails state
  | .removeAll removal now, .doomed => Cleanup.removeAll removal now state
  | _, _ => state

end Debswarm.Downloader.Cleanup
