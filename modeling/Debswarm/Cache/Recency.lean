import Debswarm.Cache.Eviction
import Debswarm.Transition.Run

/-!
# What eviction may remove

Eviction should spare pinned packages, packages with an open reader and packages
read within the last seven days.  Access times reach the table in batches, so the
last of these depends on where the record of a read is when a store ranks the
candidates: in the row, among the pending records that the store writes first, or
in the hands of the background flusher, where the ranking does not see it.
-/

namespace Debswarm.Cache

open Function Option Table Text Transition

/-- The cache with the last read of each package and the hash behind each open reader. -/
structure Traced where
  cache : State
  lastGet : Str → Option Int
  openReaders : List Str

/-- A freshly opened cache: nothing was read yet. -/
def Traced.opened (clock : Int) (maxSize : Int64) (minFreeSpace : Int)
    (packages : Table Str PackageRow) (files outside : Str → Option Str) : Traced where
  cache := State.opened clock maxSize minFreeSpace packages files outside
  lastGet := fun _ => none
  openReaders := []

/-- One step.  A reader's close takes effect once, while the reader is open. -/
def step (lib : Libraries) (traced : Traced) : Event → Traced
  | .get hash =>
    match get hash traced.cache with
    | (.ok _, cache) =>
      { cache
        lastGet := update traced.lastGet hash (some traced.cache.clock)
        openReaders := hash :: traced.openReaders }
    | (.error _, cache) => { traced with cache }
  | .close hash =>
    if hash ∈ traced.openReaders then
      { traced with
        cache := closeReader hash traced.cache
        openReaders := traced.openReaders.erase hash }
    else traced
  | event => { traced with cache := next lib traced.cache event }

/-- The size of the file that a step commits to the package directory. -/
def committedSize (lib : Libraries) : Event → Option Nat
  | .put faults _ data expectedHash _ =>
    if !faults.copy ∧ lib.sha256 data = expectedHash then some data.length else none
  | .putFile _ _ _ _ size => some size
  | _ => none

def Event.faults : Event → Faults
  | .put faults _ _ _ _ => faults
  | .putFile faults _ _ _ _ => faults
  | .delete faults _ => faults
  | .pin faults _ => faults
  | .unpin faults _ => faults
  | .flush faults => faults
  | .flusherCommit faults => faults
  | _ => {}

/-- The state in which a step enters the locked section that commits a file. -/
def atCommit (state : State) : Event → State
  | .put _ pendingPath data _ _ => writeOutside pendingPath data state
  | _ => state

/-- The packages that a step evicts. -/
def evictedBy (lib : Libraries) (state : State) (event : Event) : List Str :=
  match committedSize lib event with
  | some size => (evictionPass event.faults size (atCommit state event)).evicted
  | none => []

/-- No database step fails. -/
def Faults.SparesDatabase (faults : Faults) : Prop :=
  faults.flush = false ∧ (∀ hash, faults.flushRow hash = false) ∧
    (∀ hash, faults.deleteRow hash = false) ∧ faults.record = false ∧ faults.pin = false

/-- Each record that the flusher holds is no later than its row, or at least seven days old. -/
def NothingRecentInFlight (state : State) : Prop :=
  ∀ batch, state.flushing = some batch → ∀ hash record, batch.find? hash = some record →
    ∀ row, state.packages.find? hash = some row →
      record.last ≤ row.lastAccessed ∨ record.last ≤ state.clock - evictionWindow

/-- No database step fails, and no eviction comes while the flusher holds something recent. -/
def EvictsWithNothingRecentInFlight (lib : Libraries) (traced : Traced) (event : Event) : Prop :=
  event.faults.SparesDatabase ∧
    ∀ size, committedSize lib event = some size →
      Fits size traced.cache ∨
        NothingRecentInFlight traced.cache

/-- Every evicted package is unpinned, has no open reader and was not read for seven days. -/
def EvictsUnprotected (lib : Libraries) (traced : Traced) (event : Event) : Prop :=
  ∀ hash ∈ evictedBy lib traced.cache event,
    (∀ row, traced.cache.packages.find? hash = some row → row.pinned = false) ∧
      hash ∉ traced.openReaders ∧
      ∀ time, traced.lastGet hash = some time → ¬ traced.cache.clock - time < evictionWindow

/-! ## What the ranking sees -/

/-- A past read is in the row of the package, among the pending records, or with the flusher. -/
structure OnRecord (state : State) (hash : Str) (time : Int) : Prop where
  past : time ≤ state.clock
  seen : ∀ row, state.packages.find? hash = some row →
    time ≤ row.lastAccessed ∨
      (∃ record, state.pendingAccess.find? hash = some record ∧ time ≤ record.last) ∨
      ∃ batch record, state.flushing = some batch ∧ batch.find? hash = some record ∧
        time ≤ record.last

variable {faults : Faults} {hash : Str} {state after before : State} {time : Int} {lib : Libraries}
  {event : Event} {traced : Traced}

/-- Writing records only raises access times, as far as eviction looks at a row. -/
theorem find?_applyBatch (spared : faults.SparesDatabase) (batch : Table Str AccessRecord)
    {packages : Table Str PackageRow} {after : PackageRow}
    (found : (applyBatch faults batch packages).find? hash = some after) :
    ∃ row, packages.find? hash = some row ∧ row.lastAccessed ≤ after.lastAccessed ∧
      after.pinned = row.pinned ∧
      ∀ record, batch.find? hash = some record → record.last ≤ after.lastAccessed := by
  rw [find?_applyBatch_eq spared.1 spared.2.1] at found
  obtain ⟨row, rowFound, rfl⟩ := map_eq_some_iff.mp found
  refine ⟨row, rowFound, ?_, row.credit_pinned _, ?_⟩
  · cases batch.find? hash with
    | none => exact le_rfl
    | some record => exact le_max_left _ _
  · intro record inBatch
    rw [inBatch]
    exact le_max_right _ _

theorem onRecord_flushAccess (spared : faults.SparesDatabase)
    (onRecord : OnRecord state hash time) : OnRecord (flushAccess faults state) hash time := by
  refine ⟨onRecord.past, fun after found => ?_⟩
  obtain ⟨row, rowFound, raised, -, written⟩ :=
    find?_applyBatch spared state.pendingAccess found
  rcases onRecord.seen row rowFound with inRow | ⟨record, pending, inRecord⟩ | inFlight
  · exact .inl (inRow.trans raised)
  · exact .inl (inRecord.trans (written record pending))
  · exact .inr (.inr inFlight)

theorem onRecord_flusherSwap (onRecord : OnRecord state hash time) :
    OnRecord (flusherSwap state) hash time := by
  cases inFlight : state.flushing with
  | some batch =>
    simp only [flusherSwap, inFlight]
    exact onRecord
  | none =>
    simp only [flusherSwap, inFlight]
    split
    · exact onRecord
    · refine ⟨onRecord.past, fun row found => ?_⟩
      rcases onRecord.seen row found with inRow | ⟨record, pending, inRecord⟩ | ⟨batch, -, held, -⟩
      · exact .inl inRow
      · exact .inr (.inr ⟨state.pendingAccess, record, rfl, pending, inRecord⟩)
      · rw [inFlight] at held
        cases held

theorem onRecord_flusherCommit (spared : faults.SparesDatabase)
    (onRecord : OnRecord state hash time) : OnRecord (flusherCommit faults state) hash time := by
  rw [flusherCommit_eq]
  refine ⟨onRecord.past, fun after found => ?_⟩
  obtain ⟨row, rowFound, raised, -, written⟩ := find?_applyBatch spared _ found
  rcases onRecord.seen row rowFound with inRow | pending | ⟨batch, record, held, inBatch, inRecord⟩
  · exact .inl (inRow.trans raised)
  · exact .inr (.inl pending)
  · refine .inl (inRecord.trans (written record ?_))
    rw [held]
    exact inBatch

/-! ## Stores -/

/-- A state in which at most one more row was written, at the present time. -/
structure Stores (before after : State) : Prop where
  clock : after.clock = before.clock
  activeReaders : after.activeReaders = before.activeReaders
  pendingAccess : after.pendingAccess = before.pendingAccess
  flushing : after.flushing = before.flushing
  rows : ∀ hash row, after.packages.find? hash = some row →
    before.packages.find? hash = some row ∨ row.lastAccessed = before.clock

theorem Shrinks.stores (shrinks : Shrinks before after) :
    Stores before after where
  clock := shrinks.clock
  activeReaders := shrinks.activeReaders
  pendingAccess := shrinks.pendingAccess
  flushing := shrinks.flushing
  rows hash row found := .inl (shrinks.rows hash row found)

theorem Stores.onRecord (stores : Stores before after) (onRecord : OnRecord before hash time) :
    OnRecord after hash time := by
  refine ⟨stores.clock ▸ onRecord.past, fun row found => ?_⟩
  rw [stores.pendingAccess, stores.flushing]
  rcases stores.rows hash row found with kept | written
  · exact onRecord.seen row kept
  · exact .inl (written ▸ onRecord.past)

theorem stores_recordPackage (lib : Libraries) (faults : Faults) (hash filename : Str) (size : Nat)
    (state : State) : Stores state (recordPackage lib faults hash filename size state).2 := by
  rcases recordPackage_cases lib faults hash filename size state with ⟨-, failed⟩ | ⟨-, recorded⟩
  · rw [failed]
    exact (Shrinks.refl state).stores
  · rw [recorded]
    refine ⟨rfl, rfl, rfl, rfl, fun other row found => ?_⟩
    simp only [State.record, find?_insertOrUpdate] at found
    split at found
    · right
      cases found
      cases state.packages.find? hash <;> rfl
    · exact .inl found

theorem stores_commitVerifiedFile (lib : Libraries) (faults : Faults)
    (filePath hash filename : Str) (size : Nat) (state : State) :
    Stores (flushAccess faults state)
      (commitVerifiedFile lib faults filePath hash filename size state).2 := by
  have passed := shrinks_evictionPass faults size state
  rw [← ensureSpace_state] at passed
  rcases commitVerifiedFile_cases lib faults filePath hash filename size state with
    ⟨-, unrecorded⟩ | ⟨-, files, outside, -, recorded⟩
  · rw [unrecorded]
    exact passed.stores
  · rw [recorded]
    have stored := stores_recordPackage lib faults hash filename size
      { (ensureSpace faults size state).2 with files, outside }
    refine ⟨stored.clock.trans passed.clock, stored.activeReaders.trans passed.activeReaders,
      stored.pendingAccess.trans passed.pendingAccess, stored.flushing.trans passed.flushing, ?_⟩
    intro other row found
    rcases stored.rows other row found with kept | written
    · exact .inl (passed.rows other row kept)
    · exact .inr (written.trans passed.clock)

theorem put_stores (lib : Libraries) (faults : Faults)
    (pendingPath data expectedHash filename : Str) (state : State) :
    (put lib faults pendingPath data expectedHash filename state).2 = state ∨
      Stores (flushAccess faults state)
        (put lib faults pendingPath data expectedHash filename state).2 := by
  rcases put_cases lib faults pendingPath data expectedHash filename state with
    ⟨-, -, unchanged⟩ | ⟨-, cleaned, -, committed⟩
  · exact .inl unchanged
  · right
    have stored := stores_commitVerifiedFile lib faults pendingPath expectedHash filename
      data.length (writeOutside pendingPath data state)
    rw [committed]
    exact ⟨stored.clock, stored.activeReaders, stored.pendingAccess, stored.flushing, stored.rows⟩

theorem onRecord_setPinned (onRecord : OnRecord state hash time) (pinned : Bool) (faults : Faults)
    (target : Str) : OnRecord (setPinned pinned faults target state).2 hash time := by
  rcases setPinned_cases pinned faults target state with unchanged | updated
  · rw [unchanged]
    exact onRecord
  · rw [updated]
    refine ⟨onRecord.past, fun after found => ?_⟩
    rw [find?_update] at found
    split at found
    · rename_i same
      obtain ⟨row, rowFound, rfl⟩ := map_eq_some_iff.mp found
      exact onRecord.seen row (same ▸ rowFound)
    · exact onRecord.seen after found

/-! ## Reads -/

theorem find?_recordAccess_self (hash : Str) (state : State) :
    ∃ record, (recordAccess hash state).pendingAccess.find? hash = some record ∧
      record.last = state.clock := by
  refine ⟨_, find?_insertOrUpdate_self _ _ _ _, ?_⟩
  cases state.pendingAccess.find? hash <;> rfl

/-- A read, successful or not, leaves the rows alone and records the present time. -/
theorem get_cases (hash : Str) (state : State) :
    (get hash state).1 = .error .notFound ∧ (get hash state).2 = state ∨
      (get hash state).2.clock = state.clock ∧
      (get hash state).2.packages = state.packages ∧
      (get hash state).2.flushing = state.flushing ∧
      (get hash state).2.pendingAccess = (recordAccess hash state).pendingAccess ∧
      (get hash state).2.activeReaders = update state.activeReaders hash
        (state.activeReaders hash + if (get hash state).1.isOk then 1 else 0) := by
  cases file : state.files hash with
  | none => exact .inl ⟨by simp [get, file], by simp [get, file]⟩
  | some content =>
    right
    cases found : state.packages.find? hash with
    | none =>
      simp [get, file, recordAccess, found, closeReader, Except.isOk, Except.toBool]
    | some row =>
      simp [get, file, recordAccess, found, Except.isOk, Except.toBool]

theorem onRecord_get (onRecord : OnRecord state hash time) (target : Str) :
    OnRecord (get target state).2 hash time := by
  rcases get_cases target state with ⟨-, unchanged⟩ | ⟨clock, packages, flushing, pending, -⟩
  · rw [unchanged]
    exact onRecord
  · refine ⟨clock ▸ onRecord.past, fun row found => ?_⟩
    rw [packages] at found
    rw [flushing, pending]
    by_cases same : hash = target
    · subst same
      obtain ⟨record, recorded, present⟩ := find?_recordAccess_self hash state
      exact .inr (.inl ⟨record, recorded, present ▸ onRecord.past⟩)
    · rw [recordAccess, find?_insertOrUpdate_ne _ same]
      exact onRecord.seen row found

theorem onRecord_next (spared : event.faults.SparesDatabase) (onRecord : OnRecord state hash time) :
    OnRecord (next lib state event) hash time := by
  cases event with
  | put faults pendingPath data expectedHash filename =>
    rcases put_stores lib faults pendingPath data expectedHash filename state with
      unchanged | stored
    · rw [next, unchanged]
      exact onRecord
    · exact stored.onRecord (onRecord_flushAccess spared onRecord)
  | putFile faults filePath target filename size =>
    exact (stores_commitVerifiedFile lib faults filePath target filename size state).onRecord
      (onRecord_flushAccess spared onRecord)
  | get target => exact onRecord_get onRecord target
  | close target => exact { onRecord with }
  | delete faults target =>
    exact (shrinks_deleteUnlocked faults target none state).stores.onRecord onRecord
  | pin faults target => exact onRecord_setPinned onRecord true faults target
  | unpin faults target => exact onRecord_setPinned onRecord false faults target
  | flush faults => exact onRecord_flushAccess spared onRecord
  | flusherSwap => exact onRecord_flusherSwap onRecord
  | flusherCommit faults => exact onRecord_flusherCommit spared onRecord
  | advance seconds =>
    exact ⟨onRecord.past.trans (le_add_of_nonneg_right (Int.natCast_nonneg seconds)), onRecord.seen⟩

/-! ## Runs -/

theorem activeReaders_next (lib : Libraries) (state : State) (noGet : ∀ hash, event ≠ .get hash)
    (noClose : ∀ hash, event ≠ .close hash) :
    (next lib state event).activeReaders = state.activeReaders := by
  cases event with
  | put faults pendingPath data expectedHash filename =>
    rcases put_stores lib faults pendingPath data expectedHash filename state with
      unchanged | stored
    · rw [next, unchanged]
    · exact stored.activeReaders
  | putFile faults filePath target filename size =>
    exact (stores_commitVerifiedFile lib faults filePath target filename size state).activeReaders
  | get target => exact absurd rfl (noGet target)
  | close target => exact absurd rfl (noClose target)
  | delete faults target => exact (shrinks_deleteUnlocked faults target none state).activeReaders
  | pin faults target =>
    rcases setPinned_cases true faults target state with eq | eq <;> rw [next, pin, eq]
  | unpin faults target =>
    rcases setPinned_cases false faults target state with eq | eq <;> rw [next, unpin, eq]
  | flush faults => rfl
  | flusherSwap =>
    obtain ⟨pendingAccess, flushing, swapped⟩ := flusherSwap_eq state
    rw [next, swapped]
  | flusherCommit faults => rw [next, flusherCommit_eq]
  | advance seconds => rfl

/-- The reader counts are those of the open readers, and every successful read is on
record. -/
structure Followed (traced : Traced) : Prop where
  counted : ∀ hash, traced.cache.activeReaders hash = traced.openReaders.count hash
  onRecord : ∀ hash time, traced.lastGet hash = some time → OnRecord traced.cache hash time

theorem followed_get (followed : Followed traced) (target : Str) :
    Followed (step lib traced (.get target)) := by
  have kept : ∀ hash time, traced.lastGet hash = some time →
      OnRecord (get target traced.cache).2 hash time := fun hash time read =>
    onRecord_get (followed.onRecord hash time read) target
  rcases outcome : get target traced.cache with ⟨result, cache⟩
  have cases := get_cases target traced.cache
  rw [outcome] at cases kept
  cases result with
  | error reason =>
    simp only [step, outcome]
    refine ⟨fun hash => ?_, kept⟩
    rw [← followed.counted]
    rcases cases with ⟨-, unchanged⟩ | ⟨-, -, -, -, readers⟩
    · exact congrFun (congrArg State.activeReaders unchanged) hash
    · refine (congrFun readers hash).trans ?_
      simp [Except.isOk, Except.toBool]
  | ok found =>
    rcases cases with ⟨failed, -⟩ | ⟨clock, packages, flushing, pending, readers⟩
    · cases failed
    · simp only [step, outcome]
      refine ⟨fun hash => (congrFun readers hash).trans ?_, fun hash time read => ?_⟩
      · rw [List.count_cons]
        by_cases same : hash = target
        · subst same
          simp [Except.isOk, Except.toBool, followed.counted]
        · simp [same, Ne.symm same, followed.counted]
      · change Function.update traced.lastGet target _ hash = some time at read
        by_cases same : hash = target
        · subst same
          rw [Function.update_self] at read
          cases read
          obtain ⟨record, recorded, present⟩ := find?_recordAccess_self hash traced.cache
          refine ⟨clock.ge, fun row _ => .inr (.inl ⟨record, ?_, present.ge⟩)⟩
          rw [← recorded]
          exact congrArg (Table.find? · hash) pending
        · rw [Function.update_of_ne same] at read
          exact kept hash time read

theorem followed_step (followed : Followed traced) (spared : event.faults.SparesDatabase) :
    Followed (step lib traced event) := by
  have managed : (∀ hash, event ≠ .get hash) → (∀ hash, event ≠ .close hash) →
      Followed { traced with cache := next lib traced.cache event } := by
    intro noGet noClose
    refine ⟨fun hash => ?_, fun hash time read => ?_⟩
    · rw [← followed.counted]
      exact congrFun (activeReaders_next lib traced.cache noGet noClose) hash
    · exact onRecord_next spared (followed.onRecord hash time read)
  cases event with
  | get target => exact followed_get followed target
  | close target =>
    simp only [step]
    split
    · refine ⟨fun hash => ?_, fun hash time read => { followed.onRecord hash time read with }⟩
      simp only [closeReader, update_apply, List.count_erase, followed.counted]
      by_cases same : hash = target
      · simp [same]
      · simp [same, Ne.symm same]
    · exact followed
  | _ => exact managed (fun _ => nofun) fun _ => nofun

theorem evictsUnprotected_of_followed (followed : Followed traced)
    (allowed : EvictsWithNothingRecentInFlight lib traced event) :
    EvictsUnprotected lib traced event := by
  intro hash mem
  unfold evictedBy at mem
  split at mem
  · rename_i size committed
    obtain ⟨outside, atCommitEq⟩ :
        ∃ outside, atCommit traced.cache event = { traced.cache with outside } := by
      cases event <;> exact ⟨_, rfl⟩
    rw [atCommitEq] at mem
    obtain ⟨full, noReaders, after, afterFound, stale, unpinned⟩ := mem_evictionPass mem
    obtain ⟨row, found, raised, samePin, written⟩ :=
      find?_applyBatch allowed.1 traced.cache.pendingAccess afterFound
    refine ⟨?_, ?_, ?_⟩
    · intro stored storedFound
      rw [found] at storedFound
      cases storedFound
      exact samePin.symm.trans unpinned
    · rw [← List.count_eq_zero, ← followed.counted]
      exact noReaders
    · intro time read
      have quiet : NothingRecentInFlight traced.cache :=
        (allowed.2 size committed).resolve_left full
      have old : time ≤ traced.cache.clock - evictionWindow := by
        rcases (followed.onRecord hash time read).seen row found with
          inRow | ⟨record, pending, inRecord⟩ | ⟨batch, record, held, inBatch, inRecord⟩
        · exact (inRow.trans raised).trans stale.le
        · exact (inRecord.trans (written record pending)).trans stale.le
        · rcases quiet batch held hash record inBatch row found with inRow | recordOld
          · exact ((inRecord.trans inRow).trans raised).trans stale.le
          · exact inRecord.trans recordOld
      omega
  · cases mem

/-- If the flusher holds nothing recent whenever a store evicts, no step evicts a package that is
pinned, has an open reader, or was read in the last seven days. -/
theorem eviction_spares_protected (lib : Libraries) (clock : Int) (maxSize : Int64)
    (minFreeSpace : Int) (packages : Table Str PackageRow) (files outside : Str → Option Str)
    (before after : List Event) (event : Event)
    (quiet : StepsMeet (step lib) (EvictsWithNothingRecentInFlight lib)
      (Traced.opened clock maxSize minFreeSpace packages files outside)
      (before ++ event :: after)) :
    EvictsUnprotected lib
      (run (step lib) (Traced.opened clock maxSize minFreeSpace packages files outside) before)
      event := by
  have start : Followed (Traced.opened clock maxSize minFreeSpace packages files outside) :=
    ⟨fun _ => rfl, nofun⟩
  refine event_of_stepsMeet Followed ?_ (EvictsUnprotected lib) ?_ start quiet
  · intro traced event followed allowed
    exact followed_step followed allowed.1
  · intro traced event followed allowed
    exact evictsUnprotected_of_followed followed allowed

theorem sparesDatabase_none : ({} : Faults).SparesDatabase :=
  ⟨rfl, fun _ => rfl, fun _ => rfl, rfl, rfl⟩

/-- A package is read a week after its store, the read is flushed, and a week later it goes. -/
theorem eviction_after_flushed_read :
    let lib : Libraries := { sha256 := hexEncode64, unicodeLower := id }
    let old := hexEncode64 [1]
    let start := Traced.opened 0 2 0 empty (fun _ => none) fun _ => none
    let before : List Event :=
      [.put {} (ofAscii "a") [1] old (ofAscii "a_1_all.deb"), .advance 700000, .get old,
        .close old, .flusherSwap, .flusherCommit {}, .advance 700000]
    let event := Event.put {} (ofAscii "b") [2, 3] (hexEncode64 [2, 3]) (ofAscii "b_1_all.deb")
    evictedBy lib (run (step lib) start before).cache event = [old] ∧
      EvictsUnprotected lib (run (step lib) start before) event := by
  intro lib old start before event
  refine ⟨by decide, eviction_spares_protected lib 0 2 0 empty _ _ before [] event ?_⟩
  have idle : ∀ {traced : Traced} {event : Event}, event.faults = {} →
      traced.cache.flushing = none → EvictsWithNothingRecentInFlight lib traced event := by
    intro traced event noFaults idle
    refine ⟨noFaults ▸ sparesDatabase_none, fun size _ => .inr fun batch held => ?_⟩
    rw [idle] at held
    cases held
  refine ⟨idle rfl rfl, idle rfl rfl, idle rfl rfl, idle rfl rfl, idle rfl rfl, ?_, ?_, ?_, trivial⟩
  · exact ⟨sparesDatabase_none, fun size committed => nomatch committed⟩
  · exact idle rfl rfl
  · exact idle rfl rfl

/-- A store evicts between the steps of the flusher, in the second in which a package was read. -/
theorem not_evictsUnprotected_with_read_in_flight :
    let lib : Libraries := { sha256 := hexEncode64, unicodeLower := id }
    let old := hexEncode64 [1]
    ¬ EvictsUnprotected lib
      (run (step lib) (Traced.opened 0 2 0 empty (fun _ => none) fun _ => none)
        [.put {} (ofAscii "a") [1] old (ofAscii "a_1_all.deb"), .advance 700000, .get old,
          .close old, .flusherSwap])
      (.put {} (ofAscii "b") [2, 3] (hexEncode64 [2, 3]) (ofAscii "b_1_all.deb")) := by
  intro lib old unprotected
  obtain ⟨-, -, notRecent⟩ := unprotected old (by decide)
  exact notRecent 700000 (by decide) (by decide)

end Debswarm.Cache
