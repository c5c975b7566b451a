import Debswarm.Packages.Core
import Debswarm.Sync.Singleflight

/-!
# Package traffic

Clients ask for packages, and a worker retries downloads that failed.  Whoever wants a package
that is being downloaded shares that download, which runs under the context of the caller that
came first.

The model follows any number of callers.  A download is one step for each way to the package, in
the order of the program, so that requests, cancellations and retries may come in between.  What
the sources do in a step is up to the step: under a cancelled context they may do anything.
-/

namespace Debswarm.Traffic

open Function Packages Sync Text Transition
open Downloader (DownloadState)

/-! ## Callers -/

/-- A caller is about to share a download, waits for it, is handed its result, or answered, without
a reply if the download panics or the process dies. -/
inductive Phase
  | asking
  | waiting
  | handed (outcome : Except Stop PackageResult)
  | answered (reply : Option Reply)
  deriving DecidableEq

/-- A client's request or a retry. -/
structure Call where
  entry : Entry
  client : Bool
  cancelled : Bool
  phase : Phase

/-- The way to a package that comes next. -/
inductive Stage
  | fleet
  | downloader
  | peers
  | mirror
  deriving DecidableEq, Repr

/-- A download under way: the entry of its leader, and the way that comes next. -/
structure Progress where
  entry : Entry
  stage : Stage

/-- The server with its callers, shared downloads, row times, and rows still to be retried. -/
structure State where
  server : Server
  flights : Str → Option (Flight Nat Progress)
  calls : Nat → Option Call
  updatedAt : Str → Int
  worklist : List (Str × DownloadState)

/-- A server without callers. -/
def State.start (server : Server) (updatedAt : Str → Int) : State :=
  ⟨server, fun _ => none, fun _ => none, updatedAt, []⟩

/-- Which failed downloads are retried. -/
structure RetryLimits where
  maxAttempts : Int
  maxAge : Int
  deriving DecidableEq, Repr

/-- The libraries and the configuration. -/
structure Settings where
  lib : Libraries
  downloader : Downloader.Config
  retry : RetryLimits

def State.setCall (id : Nat) (call : Call) (state : State) : State :=
  { state with calls := update state.calls id (some call) }

def State.changeCall (id : Nat) (change : Call → Call) (state : State) : State :=
  { state with calls := update state.calls id ((state.calls id).map change) }

/-! ## Requests -/

/-- A client's request for a package: look into the cache, and give up if offline. -/
def request (id : Nat) (entry : Entry) (offline : Bool) (state : State) : State :=
  match serveFromCache entry.hash state.server.cache with
  | (some reply, cache) =>
    { state with server := { state.server with cache } }.setCall id
      ⟨entry, true, false, .answered (some reply)⟩
  | (none, cache) =>
    { state with server := { state.server with cache } }.setCall id
      ⟨entry, true, false,
        if offline then
          .answered (some (errorReply 503 "package not cached and node is offline"))
        else .asking⟩

/-- Share the download of the package, or start it. -/
def ask (id : Nat) (call : Call) (state : State) : State :=
  { state.setCall id { call with phase := .waiting } with
    flights := join call.entry.hash id ⟨call.entry, .fleet⟩ state.flights }

/-- What a caller answers with the result of a download. -/
def respond (outcome : Except Stop PackageResult) (cache : Cache.State) :
    Option Reply × Cache.State :=
  match outcome with
  | .ok result =>
    let served := servePackageResult result cache
    (some ⟨served.1, false⟩, served.2)
  | .error (.failed _) => (some (errorReply 502 "Failed to fetch package"), cache)
  | .error _ => (none, cache)

/-- Answer with the result that was handed out.  A retry has nobody to answer. -/
def answer (id : Nat) (call : Call) (outcome : Except Stop PackageResult) (state : State) :
    State :=
  if call.client then
    let served := respond outcome state.server.cache
    { state with server := { state.server with cache := served.2 } }.setCall id
      { call with phase := .answered served.1 }
  else state.setCall id { call with phase := .answered none }

/-! ## Downloads -/

def Stage.next : Stage → Stage
  | .fleet => .downloader
  | .downloader => .peers
  | .peers => .mirror
  | .mirror => .mirror

/-- Go one way to a package.  The mirror is the last one. -/
def tryStage (settings : Settings) (sources : Sources) (progress : Progress) (server : Server) :
    Option (Except Stop PackageResult) × Server :=
  match progress.stage with
  | .fleet => tryFleet settings.lib sources progress.entry server
  | .downloader =>
    tryDownloader settings.lib settings.downloader sources progress.entry server
  | .peers => tryPeers settings.lib progress.entry (sources.providers.take 3) server
  | .mirror =>
    let (outcome, after) := fetchMirror settings.lib sources progress.entry server
    (some outcome, after)

/-- Hand a result to those who share a download. -/
def hand (outcome : Except Stop PackageResult) (callers : List Nat)
    (calls : Nat → Option Call) : Nat → Option Call :=
  fun id =>
    if id ∈ callers then (calls id).map fun call => { call with phase := .handed outcome }
    else calls id

/-- Go on with a download. `touched` is the time of a change to its row, if there is one. -/
def advance (settings : Settings) (hash : Str) (flight : Flight Nat Progress)
    (sources : Sources) (touched : Option Int) (state : State) : State :=
  let tried := tryStage settings sources flight.progress state.server
  let moved : State :=
    { state with
      server := tried.2
      updatedAt := update state.updatedAt hash (touched.getD (state.updatedAt hash)) }
  match tried.1 with
  | none =>
    { moved with
      flights := proceed hash
        { flight.progress with stage := flight.progress.stage.next } state.flights }
  | some outcome =>
    { moved with
      flights := finish hash state.flights
      calls := hand outcome flight.callers state.calls }

/-! ## Retries -/

/-- The row of a failed download that can be retried. -/
def retryable (limits : RetryLimits) (now : Int) (state : State) (hash : Str) :
    Option DownloadState :=
  (state.server.downloads hash).download.filter fun row =>
    row.status = .failed ∧ (row.retryCount : Int) < limits.maxAttempts ∧
      now - limits.maxAge < state.updatedAt hash

/-- Look for failed downloads.  `listed` has the order in which the database returns rows. -/
def getRetryableDownloads (limits : RetryLimits) (now : Int) (listed : List Str)
    (state : State) : List (Str × DownloadState) :=
  listed.filterMap fun hash => (retryable limits now state hash).map fun row => (hash, row)

/-- The entry that a row is retried with.  Rows are made for entries, so their ids are hashes. -/
def retryEntry (hash : Str) (row : DownloadState) : Option Entry :=
  if valid : PackageIndex.isHex64 hash = true then
    some ⟨hash, row.expectedSize, PackageIndex.extractPathFromURL row.url, valid⟩
  else none

def markRow (hash : Str) (now : Int) (state : State) : State :=
  { state with
    server :=
      { state.server with
        downloads := update state.server.downloads hash
          { state.server.downloads hash with
            download := Downloader.markForRetry (state.server.downloads hash).download } }
    updatedAt := update state.updatedAt hash now }

/-- A download is marked as failed. -/
def FailedRow (hash : Str) (server : Server) : Prop :=
  (server.downloads hash).download.any (fun row => row.status = .failed) = true

instance decidableFailedRow (hash : Str) (server : Server) : Decidable (FailedRow hash server) :=
  inferInstanceAs (Decidable (_ = true))

/-- Visit one row, unless it has no URL or cannot be marked. -/
def retryRow (id : Nat) (now : Int) (fails : Bool) (hash : Str) (row : DownloadState)
    (state : State) : State :=
  if row.url = [] ∨ fails = true ∨ ¬ FailedRow hash state.server then state
  else
    match retryEntry hash row with
    | none => markRow hash now state
    | some entry => (markRow hash now state).setCall id ⟨entry, false, false, .asking⟩

/-! ## Steps -/

/-- What happens. -/
inductive Event
  | request (id : Nat) (entry : Entry) (offline : Bool)
  | ask (id : Nat)
  | cancel (id : Nat)
  | advance (hash : Str) (sources : Sources) (touched : Option Int)
  | answer (id : Nat)
  | list (now : Int) (fails : Bool) (listed : List Str)
  | retryRow (id : Nat) (now : Int) (fails : Bool)
  | stopRetries

/-- One step. A new caller has a new id, and the worker lists rows after the last ones. -/
def next (settings : Settings) (state : State) : Event → State
  | .request id entry offline =>
    match state.calls id with
    | none => Traffic.request id entry offline state
    | some _ => state
  | .ask id =>
    match state.calls id with
    | some ⟨entry, client, cancelled, .asking⟩ =>
      Traffic.ask id ⟨entry, client, cancelled, .asking⟩ state
    | _ => state
  | .cancel id => state.changeCall id fun call => { call with cancelled := true }
  | .advance hash sources touched =>
    match state.flights hash with
    | none => state
    | some flight => Traffic.advance settings hash flight sources touched state
  | .answer id =>
    match state.calls id with
    | some ⟨entry, client, cancelled, .handed outcome⟩ =>
      Traffic.answer id ⟨entry, client, cancelled, .handed outcome⟩ outcome state
    | _ => state
  | .list now fails listed =>
    match state.worklist, fails with
    | [], false =>
      { state with worklist := getRetryableDownloads settings.retry now listed state }
    | _, _ => state
  | .retryRow id now fails =>
    match state.worklist, state.calls id with
    | (hash, row) :: rest, none =>
      Traffic.retryRow id now fails hash row { state with worklist := rest }
    | _, _ => state
  | .stopRetries => { state with worklist := [] }

/-- What a step can do: nothing, or what its event does where it has a place. -/
inductive Step (settings : Settings) (state : State) : Event → State → Prop
  | stays (event : Event) : Step settings state event state
  | request (id : Nat) (entry : Entry) (offline : Bool) (isNew : state.calls id = none) :
      Step settings state (.request id entry offline) (Traffic.request id entry offline state)
  | ask (id : Nat) (call : Call) (found : state.calls id = some call)
      (asking : call.phase = .asking) :
      Step settings state (.ask id) (Traffic.ask id call state)
  | cancel (id : Nat) :
      Step settings state (.cancel id)
        (state.changeCall id fun call => { call with cancelled := true })
  | advance (hash : Str) (sources : Sources) (touched : Option Int)
      (flight : Flight Nat Progress) (found : state.flights hash = some flight) :
      Step settings state (.advance hash sources touched)
        (Traffic.advance settings hash flight sources touched state)
  | answer (id : Nat) (call : Call) (outcome : Except Stop PackageResult)
      (found : state.calls id = some call) (handed : call.phase = .handed outcome) :
      Step settings state (.answer id) (Traffic.answer id call outcome state)
  | list (now : Int) (listed : List Str) :
      Step settings state (.list now false listed)
        { state with worklist := getRetryableDownloads settings.retry now listed state }
  | retryRow (id : Nat) (now : Int) (fails : Bool) (hash : Str) (row : DownloadState)
      (rest : List (Str × DownloadState)) (listed : state.worklist = (hash, row) :: rest)
      (isNew : state.calls id = none) :
      Step settings state (.retryRow id now fails)
        (Traffic.retryRow id now fails hash row { state with worklist := rest })
  | stopRetries : Step settings state .stopRetries { state with worklist := [] }

theorem step_next (settings : Settings) (state : State) (event : Event) :
    Step settings state event (next settings state event) := by
  unfold next
  split
  · split
    · rename_i isNew
      exact .request _ _ _ isNew
    · exact .stays _
  · split
    · rename_i found
      exact .ask _ _ found rfl
    · exact .stays _
  · exact .cancel _
  · split
    · exact .stays _
    · rename_i found
      exact .advance _ _ _ _ found
  · split
    · rename_i found
      exact .answer _ _ _ found rfl
    · exact .stays _
  · split
    · exact .list _ _
    · exact .stays _
  · split
    · rename_i listed isNew
      exact .retryRow _ _ _ _ _ _ listed isNew
    · exact .stays _
  · exact .stopRetries

/-- Who is there after an outcome is handed out was there, and has it if they share it. -/
theorem hand_eq_some {outcome : Except Stop PackageResult} {callers : List Nat}
    {calls : Nat → Option Call} {id : Nat} {call : Call}
    (handed : hand outcome callers calls id = some call) :
    ∃ earlier, calls id = some earlier ∧
      (id ∈ callers ∧ call = { earlier with phase := .handed outcome } ∨ call = earlier) := by
  unfold hand at handed
  split at handed
  · rename_i shares
    obtain ⟨earlier, atId, rfl⟩ := Option.map_eq_some_iff.mp handed
    exact ⟨earlier, atId, .inl ⟨shares, rfl⟩⟩
  · exact ⟨call, handed, .inr rfl⟩

end Debswarm.Traffic
