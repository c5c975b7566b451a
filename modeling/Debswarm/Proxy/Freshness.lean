import Debswarm.Proxy.Interleaving
import Debswarm.Proxy.Verification

/-!
# No verification uses an outdated Release

A Release request empties the store before it fetches.  A verification that has read the
cached Release by then, or reads it before the new one is committed, writes the old Release
into the store afterwards, where later verifications find it.  The store may be written only
while no request for an InRelease is on its way, with a Release that is not older than the
cached one, and a cached InRelease may be replaced only by one that is not older.  A committed
InRelease must not get lost either: a verification then turns to the cached Release and its
detached signature, which may be older.
-/

namespace Debswarm.Proxy.Interleaving

open List Option Release Text Transition

universe u

variable {Date : Type u} [LinearOrder Date] (issued : Release → Date)

/-- A Release is not older than any of a list. -/
def NotOlder (known : List Release) (release : Release) : Prop :=
  ∀ earlier ∈ known, issued earlier ≤ issued release

/-- No verification that ended used a Release older than one committed when it began. -/
def NoneOutdated (state : State) : Prop :=
  ∀ task ∈ state.tasks, ∀ release ∈ task.phase.result, NotOlder issued task.known release

/-! ## The condition -/

/-- The Release of the cached InRelease. -/
def State.cachedInRelease (env : Environment) (state : State) : Option Release :=
  verifiedInRelease env (state.cached .inRelease)

/-- A request for an InRelease that emptied the store and has not committed yet. -/
def Phase.Awaits : Phase → Prop
  | .invalidated .inRelease => True
  | .fetched .inRelease _ => True
  | _ => False

/-- No request for an InRelease is on its way, and a Release is not older than the cached
one. -/
def Settled (setup : Setup) (state : State) (release : Release) : Prop :=
  (∀ task ∈ state.tasks, ¬ task.phase.Awaits) ∧
    ∀ current ∈ state.cachedInRelease setup.env, issued current ≤ issued release

/-- The store is written in a settled state only, an InRelease is replaced only by one that verifies
and is not older, and none gets lost after one was committed. -/
def Orderly (setup : Setup) (state : State) : Event → Prop
  | .advance id outside =>
    match state.tasks[id]?.map Task.phase with
    | some (.obtained release) => Settled issued setup state release
    | some (.fetched file body) => setup.caching = true →
      if file = .inRelease ∧ outside.stored then
        ∀ current ∈ state.cachedInRelease setup.env,
          ∃ release ∈ verifiedInRelease setup.env (some body), issued current ≤ issued release
      else outside.lost .inRelease = true → state.committed = []
    | _ => True
  | .advanceFetch _ =>
    match state.fetch with
    | some (.obtained release) => Settled issued setup state release
    | _ => True
  | .lose file => file = .inRelease → state.committed = []
  | _ => True

instance (phase : Phase) : Decidable phase.Awaits := by
  unfold Phase.Awaits
  split <;> infer_instance

instance (setup : Setup) (state : State) (release : Release) :
    Decidable (Settled issued setup state release) :=
  inferInstanceAs (Decidable (_ ∧ _))

instance (setup : Setup) (state : State) (event : Event) :
    Decidable (Orderly issued setup state event) := by
  unfold Orderly
  repeat' split
  all_goals infer_instance

/-! ## The invariant -/

/-- Once an InRelease is committed the cached one verifies, so only goroutines that began before get
past it. -/
def Phase.Sound (known : List Release) : Phase → Prop
  | .inReleaseMissed | .releaseRead _ | .cacheMissed | .joined => known = []
  | .obtained release | .verified (some release) => NotOlder issued known release
  | _ => True

/-- The store and the cache hold nothing older than what was committed. -/
structure Fresh (setup : Setup) (state : State) : Prop where
  store : ∀ release ∈ state.store, NotOlder issued state.committed release
  cached : ∀ earlier ∈ state.committed,
    ∃ current, state.cachedInRelease setup.env = some current ∧ issued earlier ≤ issued current
  caching : setup.caching = false → state.committed = []
  tasks : ∀ task ∈ state.tasks, (task.phase.Awaits → state.store = none) ∧
    task.known ⊆ state.committed ∧ task.phase.Sound issued task.known

variable {issued} {setup : Setup} {state : State} {outside : Outside}

theorem NotOlder.mono {known fewer : List Release} {release : Release}
    (notOlder : NotOlder issued known release) (subset : fewer ⊆ known) :
    NotOlder issued fewer release :=
  fun earlier mem => notOlder earlier (subset mem)

section

variable (fresh : Fresh issued setup state)

include fresh

theorem Fresh.goTo {id : Nat} {task : Task} {phase : Phase} (known : task.known ⊆ state.committed)
    (waits : phase.Awaits → state.store = none) (sound : phase.Sound issued task.known) :
    Fresh issued setup (state.goTo id task phase) := by
  refine { fresh with tasks := fun other mem => ?_ }
  rcases mem_or_eq_of_mem_set mem with old | rfl
  · exact fresh.tasks other old
  · exact ⟨waits, known, sound⟩

theorem Fresh.spawn {phase : Phase} (waits : phase.Awaits → state.store = none)
    (sound : phase.Sound issued state.committed) : Fresh issued setup (state.spawn phase) := by
  refine { fresh with tasks := fun task mem => ?_ }
  rcases mem_append.mp mem with old | new
  · exact fresh.tasks task old
  · cases mem_singleton.mp new
    exact ⟨waits, List.Subset.refl _, sound⟩

theorem Fresh.emptyStore : Fresh issued setup { state with store := none } :=
  { fresh with store := nofun, tasks := fun task mem => ⟨fun _ => rfl, (fresh.tasks task mem).2⟩ }

theorem Fresh.setFetch (fetch : Option Fetch) (fetchFailed : Option Int) :
    Fresh issued setup { state with fetch, fetchFailed } :=
  { fresh with }

/-- A Release that is not older than the cached one is not older than what was committed. -/
theorem Fresh.notOlder_of_cached {release : Release}
    (current : ∀ cached ∈ state.cachedInRelease setup.env, issued cached ≤ issued release) :
    NotOlder issued state.committed release := by
  intro earlier mem
  obtain ⟨cached, isCached, notNewer⟩ := fresh.cached earlier mem
  exact notNewer.trans (current cached isCached)

theorem Fresh.notOlder_cached {release : Release}
    (isCached : state.cachedInRelease setup.env = some release) :
    NotOlder issued state.committed release := by
  apply fresh.notOlder_of_cached
  intro cached isAlso
  rw [isCached] at isAlso
  rw [mem_some.mp isAlso]

end

theorem notOlder_of_nil {known : List Release} (nothing : known = []) (release : Release) :
    NotOlder issued known release := by
  subst nothing
  nofun

theorem Fresh.put (fresh : Fresh issued setup state) {release : Release}
    (settled : Settled issued setup state release) :
    Fresh issued setup { state with store := some release } := by
  refine { fresh with store := ?_, tasks := ?_ }
  · rintro _ ⟨rfl⟩
    exact fresh.notOlder_of_cached settled.2
  · intro task mem
    exact ⟨fun awaits => absurd awaits (settled.1 task mem), (fresh.tasks task mem).2⟩

theorem Fresh.committed_eq_nil (fresh : Fresh issued setup state)
    (unsigned : state.cachedInRelease setup.env = none) : state.committed = [] := by
  rw [eq_nil_iff_forall_not_mem]
  intro earlier mem
  obtain ⟨current, isCurrent, _⟩ := fresh.cached earlier mem
  rw [unsigned] at isCurrent
  cases isCurrent

theorem committed_subset_commit (file : ReleaseFile) (body : Str) :
    state.committed ⊆ (state.commit setup.env outside file body).committed := by
  intro earlier mem
  unfold State.commit
  split
  · exact mem_append_right _ mem
  · exact mem

section

variable (fresh : Fresh issued setup state)

include fresh

/-- The cache may change as long as it keeps an InRelease once one was committed. -/
theorem Fresh.setCached {cached : ReleaseFile → Option Str}
    (keeps : cached .inRelease = state.cached .inRelease ∨ state.committed = []) :
    Fresh issued setup { state with cached } := by
  refine { fresh with cached := fun earlier mem => ?_ }
  rcases keeps with same | nothing
  · unfold State.cachedInRelease
    dsimp only
    rw [same]
    exact fresh.cached earlier mem
  · rw [show state.committed = [] from nothing] at mem
    cases mem

/-- An InRelease is committed into an empty store. -/
theorem Fresh.commitInRelease {body : Str} (caching : setup.caching = true)
    (takes : outside.stored = true) (emptied : state.store = none)
    (replaces : ∀ current ∈ state.cachedInRelease setup.env,
      ∃ release ∈ verifiedInRelease setup.env (some body), issued current ≤ issued release) :
    Fresh issued setup (state.commit setup.env outside .inRelease body) := by
  have nowCached : (state.commit setup.env outside .inRelease body).cachedInRelease setup.env =
      verifiedInRelease setup.env (some body) := by
    simp [State.cachedInRelease, State.commit, takes]
  have nowCommitted : (state.commit setup.env outside .inRelease body).committed =
      (verifiedInRelease setup.env (some body)).toList ++ state.committed :=
    if_pos ⟨rfl, takes⟩
  refine ⟨?_, ?_, ?_, ?_⟩
  · intro release isStored
    exact absurd isStored (by rw [State.commit, emptied]; nofun)
  · intro earlier mem
    rw [nowCommitted] at mem
    rw [nowCached]
    rcases mem_append.mp mem with new | old
    · exact ⟨earlier, mem_toList.mp new, le_rfl⟩
    · obtain ⟨current, isCurrent, notNewer⟩ := fresh.cached earlier old
      obtain ⟨release, isRelease, replaced⟩ := replaces current isCurrent
      exact ⟨release, isRelease, notNewer.trans replaced⟩
  · intro notCaching
    rw [caching] at notCaching
    cases notCaching
  · intro task mem
    obtain ⟨waits, known, sound⟩ := fresh.tasks task mem
    exact ⟨waits, List.Subset.trans known (committed_subset_commit .inRelease body), sound⟩

theorem Fresh.commitOther {file : ReleaseFile} {body : Str}
    (other : ¬ (file = .inRelease ∧ outside.stored = true))
    (keeps : outside.lost .inRelease = true → state.committed = []) :
    Fresh issued setup (state.commit setup.env outside file body) := by
  have notSlot : ¬ (ReleaseFile.inRelease = file ∧ outside.stored = true) :=
    fun isSlot => other ⟨isSlot.1.symm, isSlot.2⟩
  unfold State.commit
  rw [if_neg other]
  apply fresh.setCached
  rw [if_neg notSlot]
  cases lost : outside.lost .inRelease with
  | false => exact .inl rfl
  | true => exact .inr (keeps lost)

/-- A fetch that ends gives its result to goroutines that began before any commit. -/
theorem Fresh.deliver (result : Option Release) :
    Fresh issued setup (state.deliver result) := by
  refine { fresh with tasks := fun task mem => ?_ }
  obtain ⟨old, oldMem, rfl⟩ := mem_map.mp mem
  have held := fresh.tasks old oldMem
  split
  · rename_i isJoined
    rw [isJoined] at held
    refine ⟨nofun, held.2.1, ?_⟩
    cases result with
    | none => trivial
    | some release => exact notOlder_of_nil held.2.2 release
  · exact held

/-! ## Steps and runs -/

theorem fresh_advance {id : Nat} {task : Task}
    (isTask : state.tasks[id]? = some task)
    (orderly : Orderly issued setup state (.advance id outside)) :
    Fresh issued setup (advance setup outside id task state) := by
  have mem : task ∈ state.tasks := mem_of_getElem? isTask
  obtain ⟨waiting, known, sound⟩ := fresh.tasks task mem
  unfold Orderly at orderly
  dsimp only at orderly
  rw [isTask, map_some] at orderly
  unfold advance
  split
  -- A Release request empties the store first.
  · exact fresh.emptyStore.goTo known (fun _ => rfl) trivial
  · rename_i file isPhase
    rw [isPhase] at waiting
    split
    · exact fresh.goTo known nofun trivial
    · refine fresh.goTo known (fun awaits => waiting ?_) trivial
      cases file <;> exact awaits
  -- The commit: what was committed grows, so the store must not lag behind.
  · rename_i file body isPhase
    rw [isPhase] at waiting orderly
    split
    · rename_i caching
      have allowed := orderly caching
      have committed : Fresh issued setup (state.commit setup.env outside file body) := by
        split at allowed
        · rename_i installs
          obtain ⟨rfl, takes⟩ := installs
          exact fresh.commitInRelease caching takes (waiting trivial) allowed
        · rename_i other
          exact fresh.commitOther other allowed
      exact committed.goTo (List.Subset.trans known (committed_subset_commit file body))
        nofun trivial
    · exact fresh.goTo known nofun trivial
  -- A verification looks into the store, and then into the cache.
  · split
    · rename_i release isStored
      refine fresh.goTo known nofun ?_
      exact (fresh.store release isStored).mono known
    · split
      · exact fresh.goTo known nofun trivial
      · rename_i notCaching
        rw [fresh.caching (Bool.eq_false_iff.mpr notCaching)] at known
        exact fresh.goTo (fresh.tasks task mem).2.1 nofun
          (subset_nil.mp known)
  · split
    · rename_i release isCached
      refine fresh.goTo known nofun ?_
      exact (fresh.notOlder_cached isCached).mono known
    · rename_i unsigned
      rw [fresh.committed_eq_nil unsigned] at known
      exact fresh.goTo (fresh.tasks task mem).2.1 nofun
        (subset_nil.mp known)
  · rename_i isPhase
    rw [isPhase] at sound
    exact fresh.goTo known nofun sound
  · rename_i body isPhase
    rw [isPhase] at sound
    split
    · exact fresh.goTo known nofun (notOlder_of_nil sound _)
    · exact fresh.goTo known nofun sound
  -- The late write to the store, which has to be orderly.
  · rename_i release isPhase
    rw [isPhase] at sound orderly
    exact (fresh.put orderly).goTo known nofun sound
  · rename_i isPhase
    rw [isPhase] at sound
    split
    · split
      · exact fresh.goTo known nofun trivial
      · exact (fresh.setFetch _ _).goTo known nofun sound
    · exact fresh.goTo known nofun trivial
  all_goals exact fresh

theorem fresh_advanceFetch
    (orderly : Orderly issued setup state (.advanceFetch outside)) :
    Fresh issued setup (advanceFetch setup outside state) := by
  unfold Orderly at orderly
  unfold advanceFetch
  split
  · exact fresh
  · split
    · exact fresh.deliver _
    · exact fresh.setFetch _ _
  · split <;> exact fresh.setFetch _ _
  · exact fresh.setFetch _ _
  · split
    · exact fresh.setFetch _ _
    · exact (fresh.setFetch _ _).deliver _
  · rename_i release isFetch
    rw [isFetch] at orderly
    exact ((fresh.put orderly).setFetch _ _).deliver _

end

theorem fresh_next (state : State) (event : Event) (fresh : Fresh issued setup state)
    (orderly : Orderly issued setup state event) : Fresh issued setup (next setup state event) := by
  cases event with
  | request file | verify => exact fresh.spawn nofun trivial
  | advance id outside =>
    rw [next]
    split
    · exact fresh
    · rename_i task isTask
      exact fresh_advance fresh isTask orderly
  | advanceFetch outside => exact fresh_advanceFetch fresh orderly
  | lose file =>
    apply fresh.setCached
    split
    · rename_i isInRelease
      exact .inr (orderly isInRelease.symm)
    · exact .inl rfl

/-- If the store is written in settled states, a cached InRelease is replaced only by one that is
not older, and none gets lost after a commit, no verification uses a Release older than one
committed before it began. -/
theorem noneOutdated_throughout (issued : Release → Date) (setup : Setup)
    (cached : ReleaseFile → Option Str) (events : List Event)
    (meets : StepsMeet (next setup) (Orderly issued setup) (State.start cached) events) :
    ∀ before, before <+: events →
      NoneOutdated issued (run (next setup) (State.start cached) before) := by
  intro before isPrefix task mem release isResult
  have start : Fresh issued setup (State.start cached) :=
    ⟨nofun, nofun, fun _ => rfl, nofun⟩
  have fresh := run_invariant_of_stepsMeet (Fresh issued setup) fresh_next start
    (meets.of_isPrefix isPrefix)
  have sound := (fresh.tasks task mem).2.2
  cases isPhase : task.phase with
  | verified result =>
    rw [isPhase] at isResult sound
    cases isResult
    exact sound
  | _ =>
    rw [isPhase] at isResult
    cases isResult

/-- Warn, with a key and a cache. -/
def warning : Setup :=
  ⟨exampleEnvironment, ⟨.warn, [], false, false, 1000⟩, true, rfl, rfl⟩

/-- A signed InRelease with a number for its code name. -/
def numberedInRelease (number : String) : Str :=
  ofAscii "S:Codename: " ++ ofAscii number ++ ofAscii "\nSHA256:\n " ++ hexEncode64 [] ++
    ofAscii " 1 p\n"

def releaseNumber (release : Release) : Nat :=
  (release.codename.headD 0).toNat

def firstCached : ReleaseFile → Option Str
  | .inRelease => some (numberedInRelease "1")
  | _ => none

/-- A goroutine goes on, and the mirror sends the second InRelease if it is asked. -/
def goOn (id : Nat) : Event :=
  .advance id ⟨0, some (numberedInRelease "2"), true, fun _ => false⟩

/-- A verification uses what a request committed, although another file gets lost in between. -/
theorem noneOutdated_of_sequence :
    let events := [.request .inRelease, goOn 0, goOn 0, goOn 0, .lose .release, .verify, goOn 1,
      goOn 1, goOn 1]
    let state := run (next warning) (State.start firstCached) events
    (state.tasks.map fun task => (task.known.map releaseNumber,
        task.phase.result.map releaseNumber)) = [([], none), ([50], some 50)] ∧
      NoneOutdated releaseNumber state :=
  ⟨by decide +kernel, noneOutdated_throughout _ _ _ _ (by decide +kernel) _ (prefix_refl _)⟩

/-- A verification writes an old Release into the store after a newer one was committed, and the
next finds it. -/
theorem not_noneOutdated_of_late_put :
    ¬ NoneOutdated releaseNumber (run (next warning) (State.start firstCached)
      [.request .inRelease, goOn 0, .verify, goOn 1, goOn 1, goOn 0, goOn 0, goOn 1,
        .verify, goOn 2]) := by
  intro noneOutdated
  have outdated : ∃ task ∈ (run (next warning) (State.start firstCached)
      [.request .inRelease, goOn 0, .verify, goOn 1, goOn 1, goOn 0, goOn 0, goOn 1,
        .verify, goOn 2]).tasks, ∃ release ∈ task.phase.result, ∃ earlier ∈ task.known,
          releaseNumber release < releaseNumber earlier := by
    decide +kernel
  obtain ⟨task, mem, release, isResult, earlier, isKnown, older⟩ := outdated
  exact absurd (noneOutdated task mem release isResult earlier isKnown) (Nat.not_le.mpr older)

end Debswarm.Proxy.Interleaving
