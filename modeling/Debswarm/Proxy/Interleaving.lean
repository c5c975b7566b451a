import Debswarm.Proxy.Core
import Debswarm.Transition.Run

/-!
# Release requests and verifications side by side

Requests are served by goroutines that share the store of verified Releases, the metadata
cache and the fetches on demand.  This module models one base: requests for its Release files,
and verifications of index files that ask for its Release.  One event lets one goroutine pass
one point at which it reads or writes what is shared.

A request drops the verified Release, waits for the mirror, and commits the body to the cache
last.  A verification looks into the store, reads and verifies the cached files, and writes
the store last.  When it enforces and nothing is cached it joins a fetch on demand.

The cache can lose files: a commit evicts others to make room and drops the old copy when it
fails late, bodies from elsewhere evict too, and a file that is missing is a miss.
-/

namespace Debswarm.Proxy.Interleaving

open Release Text

/-- What does not change in a run.  Verification is on, and there is a key. -/
structure Setup where
  env : Environment
  config : Config
  caching : Bool
  enabled : verificationEnabled config = true
  keyed : config.keyringEmpty = false

/-- The files of a base that a Release request may name. -/
inductive ReleaseFile
  | inRelease
  | release
  | releaseGpg
  | other
  deriving DecidableEq, Repr

/-- The next thing that a goroutine does: drop the verified Release, receive an answer, commit it;
or look into the store, read the cached files, write the store, join a fetch. -/
inductive Phase
  | requested (file : ReleaseFile)
  | invalidated (file : ReleaseFile)
  | fetched (file : ReleaseFile) (body : Str)
  | returned
  | started
  | storeMissed
  | inReleaseMissed
  | releaseRead (body : Option Str)
  | cacheMissed
  | joined
  | obtained (release : Release)
  | verified (release : Option Release)

/-- The Release that a verification ended with. -/
def Phase.result : Phase → Option Release
  | .verified release => release
  | _ => none

/-- A goroutine, with a record of the Releases that had been committed when it began. -/
structure Task where
  phase : Phase
  known : List Release

/-- The next thing that a fetch on demand does. -/
inductive Fetch
  | entered
  | storeMissed
  | inReleaseMissed
  | releaseFetched (body : Option Str)
  | obtained (release : Release)

/-- What is shared, the goroutines, and a record of the signed InReleases committed. -/
structure State where
  store : Option Release
  cached : ReleaseFile → Option Str
  fetch : Option Fetch
  fetchFailed : Option Int
  tasks : List Task
  committed : List Release

/-- A process that starts on a metadata cache. -/
def State.start (cached : ReleaseFile → Option Str) : State :=
  ⟨none, cached, none, none, [], []⟩

/-- What a goroutine meets outside: the clock, the body that the mirror sends, whether the cache
takes a body, and which files it loses when given one. -/
structure Outside where
  clock : Int
  answer : Option Str
  stored : Bool
  lost : ReleaseFile → Bool

/-- A goroutine goes on to a phase. -/
def State.goTo (state : State) (id : Nat) (task : Task) (phase : Phase) : State :=
  { state with tasks := state.tasks.set id { task with phase } }

/-- A new goroutine. -/
def State.spawn (state : State) (phase : Phase) : State :=
  { state with tasks := state.tasks ++ [⟨phase, state.committed⟩] }

/-- Commit a body to the cache, which may not take it and may lose files. -/
def State.commit (env : Environment) (outside : Outside) (file : ReleaseFile) (body : Str)
    (state : State) : State :=
  { state with
    cached := fun slot =>
      if slot = file ∧ outside.stored then some body
      else if outside.lost slot then none
      else state.cached slot
    committed :=
      if file = .inRelease ∧ outside.stored then
        (verifiedInRelease env (some body)).toList ++ state.committed
      else state.committed }

/-- The cache loses a file without a commit to this base. -/
def State.lose (file : ReleaseFile) (state : State) : State :=
  { state with cached := fun slot => if slot = file then none else state.cached slot }

/-- Whether a fetch failed a moment ago. -/
def failedRecently (clock : Int) (failed : Option Int) : Bool :=
  failed.any fun failed => clock - failed < releaseFetchRetryTTL

/-- A goroutine passes its next point. -/
def advance (setup : Setup) (outside : Outside) (id : Nat) (task : Task) (state : State) : State :=
  match task.phase with
  | .requested file => { state with store := none }.goTo id task (.invalidated file)
  | .invalidated file =>
    match outside.answer with
    | none => state.goTo id task .returned
    | some body => state.goTo id task (.fetched file body)
  | .fetched file body =>
    if setup.caching then
      (state.commit setup.env outside file body).goTo id task .returned
    else
      state.goTo id task .returned
  | .started =>
    match state.store with
    | some release => state.goTo id task (.verified (some release))
    | none => state.goTo id task (if setup.caching then .storeMissed else .cacheMissed)
  | .storeMissed =>
    match verifiedInRelease setup.env (state.cached .inRelease) with
    | some release => state.goTo id task (.obtained release)
    | none => state.goTo id task .inReleaseMissed
  | .inReleaseMissed => state.goTo id task (.releaseRead (state.cached .release))
  | .releaseRead body =>
    match verifiedDetachedRelease setup.env body (state.cached .releaseGpg) with
    | some release => state.goTo id task (.obtained release)
    | none => state.goTo id task .cacheMissed
  | .obtained release =>
    { state with store := some release }.goTo id task (.verified (some release))
  | .cacheMissed =>
    if setup.config.verifyMode = .enforce then
      if failedRecently outside.clock state.fetchFailed then
        state.goTo id task (.verified none)
      else
        { state with fetch := state.fetch.or (some .entered) }.goTo id task .joined
    else
      state.goTo id task (.verified none)
  | .returned | .joined | .verified _ => state

/-- A fetch on demand ends, and every goroutine that joined it gets its result. -/
def State.deliver (state : State) (result : Option Release) : State :=
  { state with
    fetch := none
    tasks := state.tasks.map fun task =>
      match task.phase with
      | .joined => { task with phase := .verified result }
      | _ => task }

/-- The fetch on demand passes its next point. -/
def advanceFetch (setup : Setup) (outside : Outside) (state : State) : State :=
  match state.fetch with
  | none => state
  | some .entered =>
    match state.store with
    | some release => state.deliver (some release)
    | none => { state with fetch := some .storeMissed }
  | some .storeMissed =>
    match verifiedInRelease setup.env outside.answer with
    | some release => { state with fetch := some (.obtained release) }
    | none => { state with fetch := some .inReleaseMissed }
  | some .inReleaseMissed => { state with fetch := some (.releaseFetched outside.answer) }
  | some (.releaseFetched body) =>
    match verifiedDetachedRelease setup.env body outside.answer with
    | some release => { state with fetch := some (.obtained release) }
    | none => { state with fetchFailed := some outside.clock }.deliver none
  | some (.obtained release) =>
    { state with store := some release, fetchFailed := none }.deliver (some release)

/-- A request or a verification begins or goes on, the fetch goes on, or a file is lost. -/
inductive Event
  | request (file : ReleaseFile)
  | verify
  | advance (id : Nat) (outside : Outside)
  | advanceFetch (outside : Outside)
  | lose (file : ReleaseFile)

/-- One event.  Goroutines are numbered as they begin. -/
def next (setup : Setup) (state : State) : Event → State
  | .request file => state.spawn (.requested file)
  | .verify => state.spawn .started
  | .advance id outside =>
    match state.tasks[id]? with
    | none => state
    | some task => advance setup outside id task state
  | .advanceFetch outside => advanceFetch setup outside state
  | .lose file => state.lose file

end Debswarm.Proxy.Interleaving
