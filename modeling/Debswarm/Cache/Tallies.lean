import Debswarm.Cache.Contents
import Debswarm.Cache.Recency

/-!
# How often a package was used

A row counts the stores and the reads of its package.  Reads reach the row late: they are
collected in memory, taken by the flusher and written in a batch, and a store writes what is
pending before it looks at the row.  While no flush is interrupted and the database takes every
write, no use is lost, and none is carried over to a package that is stored again after it was
deleted.
-/

namespace Debswarm.Cache

open Function Option Table Text Transition

/-- The reads of a hash that are pending. -/
def pendingCount (state : State) (hash : Str) : Nat :=
  ((state.pendingAccess.find? hash).map AccessRecord.count).getD 0

/-- The reads of a hash that the flusher holds. -/
def heldCount (state : State) (hash : Str) : Nat :=
  ((state.flushing.bind fun batch => batch.find? hash).map AccessRecord.count).getD 0

/-! ## Tallies -/

/-- The state in which a store writes its row, if it comes to that. -/
def atRecord (faults : Faults) (filePath hash : Str) (size : Nat) (state : State) :
    Option State :=
  match ensureSpace faults size state with
  | (.ok, roomy) => if faults.mkdir then none else moveIntoPlace faults filePath hash roomy
  | _ => none

variable (lib : Libraries)

/-- The hash whose row a step writes, with the state in which it does. -/
def recordedBy (state : State) : Event → Option (Str × State)
  | .put faults pendingPath data expectedHash _ =>
    if !faults.copy ∧ lib.sha256 data = expectedHash then
      (atRecord faults pendingPath expectedHash data.length
        (writeOutside pendingPath data state)).map (expectedHash, ·)
    else none
  | .putFile faults filePath hash _ size =>
    (atRecord faults filePath hash size state).map (hash, ·)
  | _ => none

/-- The cache with the reads and stores of each package since its row was inserted. -/
structure Tallied where
  cache : State
  gets : Str → Nat
  rePuts : Str → Nat

/-- A cache that is opened without rows. -/
def Tallied.opened (clock : Int) (maxSize : Int64) (minFreeSpace : Int)
    (files outside : Str → Option Str) : Tallied where
  cache := State.opened clock maxSize minFreeSpace empty files outside
  gets := fun _ => 0
  rePuts := fun _ => 0

/-- One step. A store that finds no row inserts one, and the counts begin anew. -/
def tally (tallied : Tallied) (event : Event) : Tallied :=
  let cache := next lib tallied.cache event
  match event with
  | .get hash =>
    { tallied with cache, gets := update tallied.gets hash (tallied.gets hash + 1) }
  | _ =>
    match recordedBy lib tallied.cache event with
    | none => { tallied with cache }
    | some (hash, recording) =>
      if (recording.packages.find? hash).isSome then
        { tallied with
          cache
          rePuts := update tallied.rePuts hash (tallied.rePuts hash + 1) }
      else
        { cache
          gets := update tallied.gets hash 0
          rePuts := update tallied.rePuts hash 0 }

/-- The uses of each package with a row: its insertion, the stores that found it and the reads. -/
def Tallied.uses (tallied : Tallied) (hash : Str) : Nat :=
  1 + tallied.rePuts hash + tallied.gets hash

/-- Whether a step is the second half of a flush. -/
def Event.isFlusherCommit : Event → Bool
  | .flusherCommit _ => true
  | _ => false

/-- A step without a database failure that does not come between the two halves of a flush. -/
def LetsFlushesFinish (tallied : Tallied) (event : Event) : Prop :=
  event.faults.SparesDatabase ∧ (tallied.cache.flushing.isSome → event.isFlusherCommit)

/-! ## What each operation does to the counts -/

/-- Every row has its file, and counts the uses of its package up to reads not yet written. -/
structure Counted (uses : Str → Nat) (state : State) : Prop where
  files : ∀ hash, (state.packages.find? hash).isSome → (state.files hash).isSome
  counts : ∀ hash row, state.packages.find? hash = some row →
    row.accessCount + pendingCount state hash + heldCount state hash = uses hash

variable {uses : Str → Nat} {state : State} {faults : Faults}

theorem counted_flushAccess (spared : faults.SparesDatabase) (counted : Counted uses state) :
    Counted uses (flushAccess faults state) := by
  have rows : ∀ hash, (flushAccess faults state).packages.find? hash =
      (state.packages.find? hash).map (PackageRow.credit (state.pendingAccess.find? hash)) :=
    find?_applyBatch_eq spared.1 spared.2.1 state.pendingAccess state.packages
  constructor
  · intro hash isRow
    rw [rows, isSome_map] at isRow
    exact counted.files hash isRow
  · intro hash after found
    rw [rows] at found
    obtain ⟨row, isRow, rfl⟩ := map_eq_some_iff.mp found
    have nonePending : pendingCount (flushAccess faults state) hash = 0 := rfl
    have sameHeld : heldCount (flushAccess faults state) hash = heldCount state hash := rfl
    rw [PackageRow.credit_accessCount, nonePending, sameHeld, Nat.add_zero]
    exact counted.counts hash row isRow

theorem counted_flusherSwap (counted : Counted uses state) : Counted uses (flusherSwap state) := by
  cases inFlight : state.flushing with
  | some batch =>
    simp only [flusherSwap, inFlight]
    exact counted
  | none =>
    simp only [flusherSwap, inFlight]
    split
    · exact counted
    · refine ⟨counted.files, fun hash row found => ?_⟩
      have before := counted.counts hash row found
      have noneHeld : heldCount state hash = 0 := by
        rw [heldCount, inFlight]
        rfl
      rw [noneHeld] at before
      exact before

theorem counted_flusherCommit (spared : faults.SparesDatabase) (counted : Counted uses state) :
    Counted uses (flusherCommit faults state) := by
  have rows := find?_applyBatch_eq spared.1 spared.2.1 (state.flushing.getD empty)
    state.packages
  rw [flusherCommit_eq]
  constructor
  · intro hash isRow
    rw [rows, isSome_map] at isRow
    exact counted.files hash isRow
  · intro hash after found
    rw [rows] at found
    obtain ⟨row, isRow, rfl⟩ := map_eq_some_iff.mp found
    have before := counted.counts hash row isRow
    have isHeld : (((state.flushing.getD empty).find? hash).map AccessRecord.count).getD 0 =
        heldCount state hash := by
      rw [heldCount]
      cases state.flushing <;> rfl
    rw [PackageRow.credit_accessCount, isHeld]
    change row.accessCount + heldCount state hash + pendingCount state hash + 0 = uses hash
    omega

theorem counted_deleteUnlocked {hash : Str} (rowYields : faults.deleteRow hash = false)
    (counted : Counted uses state) (sizeHint : Option Nat) :
    Counted uses (deleteUnlocked faults hash sizeHint state).2 := by
  have shrinks := shrinks_deleteUnlocked faults hash sizeHint state
  rcases deleteUnlocked_cases faults hash sizeHint state with
    ⟨-, reason, kept⟩ | ⟨-, ⟨resists, -⟩ | ⟨-, gone⟩⟩
  · rw [kept]
    exact counted
  · rw [rowYields] at resists
    cases resists
  · rw [gone] at shrinks ⊢
    refine ⟨fun other isRow => ?_, fun other row found =>
      counted.counts other row (shrinks.rows other row found)⟩
    dsimp only at isRow ⊢
    have apart : other ≠ hash := by
      rintro rfl
      rw [find?_delete_self] at isRow
      cases isRow
    rw [find?_delete_ne _ apart] at isRow
    rw [update_of_ne apart]
    exact counted.files other isRow

theorem counted_ensureSpace (spared : faults.SparesDatabase) (counted : Counted uses state)
    (needed : Nat) : Counted uses (ensureSpace faults needed state).2 := by
  rw [ensureSpace_state]
  exact evictionPass_invariant (Counted uses) (counted_flushAccess spared counted)
    fun _ hash size before => counted_deleteUnlocked (spared.2.2.1 hash) before (some size)

theorem counted_setPinned (counted : Counted uses state) (pinned : Bool) (faults : Faults)
    (target : Str) : Counted uses (setPinned pinned faults target state).2 := by
  rcases setPinned_cases pinned faults target state with unchanged | updated
  · rw [unchanged]
    exact counted
  · rw [updated]
    constructor
    · intro hash isRow
      rw [find?_update] at isRow
      split at isRow
      · rename_i same
        rw [isSome_map] at isRow
        exact same ▸ counted.files target isRow
      · exact counted.files hash isRow
    · intro hash after found
      rw [find?_update] at found
      split at found
      · rename_i same
        obtain ⟨row, isRow, rfl⟩ := map_eq_some_iff.mp found
        exact counted.counts hash row (same ▸ isRow)
      · exact counted.counts hash after found

theorem get_of_file {hash content : Str} (file : state.files hash = some content) :
    ∃ activeReaders, (get hash state).2 =
      { state with activeReaders, pendingAccess := (recordAccess hash state).pendingAccess } := by
  unfold get
  rw [file]
  dsimp only
  cases (recordAccess hash _).packages.find? hash with
  | none | some row => exact ⟨_, rfl⟩

theorem pendingCount_recordAccess (hash other : Str) (state : State) :
    pendingCount (recordAccess hash state) other =
      if other = hash then pendingCount state hash + 1 else pendingCount state other := by
  unfold pendingCount recordAccess
  rw [find?_insertOrUpdate]
  split
  · cases state.pendingAccess.find? hash <;> rfl
  · rfl

theorem counted_get (counted : Counted uses state) (hash : Str) :
    Counted (update uses hash (uses hash + 1)) (get hash state).2 := by
  cases file : state.files hash with
  | none =>
    have unchanged : (get hash state).2 = state := by simp [get, file]
    rw [unchanged]
    refine ⟨counted.files, fun other row found => ?_⟩
    -- A hash without a file has no row.
    have different : other ≠ hash := by
      rintro rfl
      have isFile := counted.files other (isSome_of_eq_some found)
      rw [file] at isFile
      cases isFile
    rw [update_of_ne different]
    exact counted.counts other row found
  | some content =>
    obtain ⟨activeReaders, read⟩ := get_of_file file
    rw [read]
    refine ⟨counted.files, fun other row found => ?_⟩
    have before := counted.counts other row found
    have noted := pendingCount_recordAccess hash other state
    change row.accessCount + pendingCount (recordAccess hash state) other +
      heldCount state other = _
    rw [noted]
    by_cases same : other = hash
    · subst same
      rw [if_pos rfl, update_self]
      omega
    · rw [if_neg same, update_of_ne same]
      exact before

/-! ## Stores -/

/-- A commit makes room and stops there, or writes the row in the state it has reached. -/
theorem commitVerifiedFile_eq_atRecord (faults : Faults)
    (filePath hash filename : Str) (size : Nat) (state : State) :
    (commitVerifiedFile lib faults filePath hash filename size state).2 =
      match atRecord faults filePath hash size state with
      | none => (ensureSpace faults size state).2
      | some recording => (recordPackage lib faults hash filename size recording).2 := by
  unfold commitVerifiedFile atRecord
  rcases ensureSpace faults size state with ⟨outcome, roomy⟩
  cases outcome with
  | ok =>
    dsimp only
    by_cases mkdirFails : faults.mkdir = true
    · rw [if_pos mkdirFails, if_pos mkdirFails]
    · rw [if_neg mkdirFails, if_neg mkdirFails]
      cases moveIntoPlace faults filePath hash roomy <;> rfl
  | error reason | panic fault => rfl

/-- When a store writes its row nothing is pending, and the file of its hash is in place. -/
structure AtRecord (uses : Str → Nat) (hash : Str) (state : State) : Prop where
  counted : Counted uses state
  file : (state.files hash).isSome
  nonePending : pendingCount state hash = 0

theorem atRecord_of_eq_some {filePath hash : Str} {size : Nat} {recording : State}
    (spared : faults.SparesDatabase) (counted : Counted uses state)
    (reached : atRecord faults filePath hash size state = some recording) :
    AtRecord uses hash recording ∧ recording.flushing = state.flushing := by
  have roomy := counted_ensureSpace spared counted size
  have shrinks := shrinks_evictionPass faults size state
  rw [← ensureSpace_state] at shrinks
  unfold atRecord at reached
  split at reached
  · rename_i left roomyEq
    rw [roomyEq] at roomy shrinks
    split at reached
    · cases reached
    · have isFile := isSome_files_of_moveIntoPlace reached
      obtain ⟨files, outside, rfl⟩ := moveIntoPlace_eq_some reached
      refine ⟨⟨⟨fun other isRow => ?_, roomy.counts⟩, isFile, ?_⟩, shrinks.flushing⟩
      · have inRoom := roomy.files other isRow
        rcases files_moveIntoPlace reached with rfl | ⟨content, -, rfl⟩
        · exact inRoom
        · dsimp only
          by_cases same : other = hash
          · rw [same, update_self]
            rfl
          · rw [update_of_ne same]
            exact inRoom
      · change ((left.pendingAccess.find? hash).map AccessRecord.count).getD 0 = 0
        rw [shrinks.pendingAccess]
        rfl
  · cases reached

/-- The uses of a package after its row was written: one more, or one if the row is new. -/
def usesAfter (uses : Str → Nat) (hash : Str) (recording : State) : Str → Nat :=
  update uses hash
    (if (recording.packages.find? hash).isSome then uses hash + 1 else 1)

theorem counted_recordPackage (spared : faults.SparesDatabase) {hash : Str}
    (reached : AtRecord uses hash state) (noneHeld : state.flushing = none)
    (filename : Str) (size : Nat) :
    Counted (usesAfter uses hash state)
      (recordPackage lib faults hash filename size state).2 := by
  have recorded : (recordPackage lib faults hash filename size state).2 =
      state.record lib hash filename size := by
    rcases recordPackage_cases lib faults hash filename size state with ⟨fails, -⟩ | ⟨-, recorded⟩
    · rw [spared.2.2.2.1] at fails
      cases fails
    · rw [recorded]
  rw [recorded]
  constructor
  · intro other isRow
    by_cases same : other = hash
    · rw [same]
      exact reached.file
    · simp only [State.record, find?_insertOrUpdate_ne _ same] at isRow
      exact reached.counted.files other isRow
  · intro other row found
    simp only [State.record] at found
    change row.accessCount + pendingCount state other + heldCount state other = _
    unfold usesAfter
    by_cases same : other = hash
    · subst same
      have unheld : heldCount state other = 0 := by
        rw [heldCount, noneHeld]
        rfl
      rw [find?_insertOrUpdate_self, some.injEq] at found
      rw [update_self, reached.nonePending, unheld, ← found]
      cases isRow : state.packages.find? other with
      | none => rfl
      | some old =>
        have before := reached.counted.counts other old isRow
        rw [reached.nonePending, unheld] at before
        change old.accessCount + 1 = uses other + 1
        omega
    · rw [find?_insertOrUpdate_ne _ same] at found
      rw [update_of_ne same]
      exact reached.counted.counts other row found

/-- A store counts as a use of its package if it comes to writing the row. -/
theorem counted_commitVerifiedFile (spared : faults.SparesDatabase)
    (counted : Counted uses state) (noneHeld : state.flushing = none)
    (filePath hash filename : Str) (size : Nat) :
    Counted ((atRecord faults filePath hash size state).elim uses (usesAfter uses hash))
      (commitVerifiedFile lib faults filePath hash filename size state).2 := by
  rw [commitVerifiedFile_eq_atRecord]
  cases reached : atRecord faults filePath hash size state with
  | none => exact counted_ensureSpace spared counted size
  | some recording =>
    obtain ⟨ready, sameFlushing⟩ := atRecord_of_eq_some spared counted reached
    exact counted_recordPackage lib spared ready (sameFlushing.trans noneHeld) filename size

theorem Counted.of_outside {outside : Str → Option Str}
    (counted : Counted uses state) : Counted uses { state with outside } :=
  ⟨counted.files, counted.counts⟩

/-- Every step but a read counts as a use of the package whose row it writes. -/
theorem counted_next {event : Event} (counted : Counted uses state)
    (spared : event.faults.SparesDatabase)
    (finished : state.flushing.isSome → event.isFlusherCommit)
    (noRead : ∀ hash, event ≠ .get hash) :
    Counted ((recordedBy lib state event).elim uses fun recorded =>
      usesAfter uses recorded.1 recorded.2) (next lib state event) := by
  have noneHeld : event.isFlusherCommit = false → state.flushing = none := by
    intro isOther
    by_contra held
    exact Bool.false_ne_true (isOther.symm.trans (finished (isSome_iff_ne_none.mpr held)))
  cases event with
  | put faults pendingPath data expectedHash filename =>
    simp only [recordedBy, next]
    rcases put_cases lib faults pendingPath data expectedHash filename state with
      ⟨refused, -, unchanged⟩ | ⟨verified, cleaned, -, ends⟩
    · rw [if_neg refused, unchanged]
      exact counted
    · have written : Counted uses (writeOutside pendingPath data state) := counted.of_outside
      have stored := counted_commitVerifiedFile lib spared written
        (noneHeld rfl) pendingPath expectedHash filename data.length
      rw [if_pos verified, elim_map, ends]
      exact stored.of_outside
  | putFile faults filePath hash filename size =>
    have stored := counted_commitVerifiedFile lib spared counted
      (noneHeld rfl) filePath hash filename size
    simp only [recordedBy, elim_map]
    exact stored
  | get hash => exact absurd rfl (noRead hash)
  | close hash => exact ⟨counted.files, counted.counts⟩
  | delete faults hash => exact counted_deleteUnlocked (spared.2.2.1 hash) counted none
  | pin faults hash => exact counted_setPinned counted true faults hash
  | unpin faults hash => exact counted_setPinned counted false faults hash
  | flush faults => exact counted_flushAccess spared counted
  | flusherSwap => exact counted_flusherSwap counted
  | flusherCommit faults => exact counted_flusherCommit spared counted
  | advance seconds => exact ⟨counted.files, counted.counts⟩

/-! ## Runs -/

@[simp]
theorem tally_cache (tallied : Tallied) (event : Event) :
    (tally lib tallied event).cache = next lib tallied.cache event := by
  unfold tally
  split
  · rfl
  · split
    · rfl
    · split <;> rfl

theorem uses_tally_of_not_get (tallied : Tallied) {event : Event}
    (noRead : ∀ hash, event ≠ .get hash) :
    (tally lib tallied event).uses =
      (recordedBy lib tallied.cache event).elim tallied.uses fun recorded =>
        usesAfter tallied.uses recorded.1 recorded.2 := by
  funext other
  unfold tally
  split
  · rename_i hash
    exact absurd rfl (noRead hash)
  · split
    · rename_i unrecorded
      rw [unrecorded]
      rfl
    · rename_i hash recording recorded
      rw [recorded]
      simp only [elim_some, usesAfter]
      by_cases same : other = hash
      · subst same
        split
        · simp only [Tallied.uses, update_self]
          omega
        · simp only [Tallied.uses, update_self]
      · split <;> simp only [Tallied.uses, update_of_ne same]

theorem counted_tally {tallied : Tallied} {event : Event}
    (counted : Counted tallied.uses tallied.cache) (allowed : LetsFlushesFinish tallied event) :
    Counted (tally lib tallied event).uses (tally lib tallied event).cache := by
  by_cases isRead : ∃ hash, event = .get hash
  · obtain ⟨hash, rfl⟩ := isRead
    have read : (tally lib tallied (.get hash)).uses =
        update tallied.uses hash (tallied.uses hash + 1) := by
      funext other
      by_cases same : other = hash
      · subst same
        simp [tally, Tallied.uses, Nat.add_assoc]
      · simp [tally, Tallied.uses, same]
    rw [read]
    exact counted_get counted hash
  · have noRead := not_exists.mp isRead
    rw [tally_cache, uses_tally_of_not_get lib tallied noRead]
    exact counted_next lib counted allowed.1 allowed.2 noRead

/-- While no flush is half done and no write fails, the access count of a row and the pending reads
are one for its insertion and one for each store and read since. -/
theorem accessCount_conserved (lib : Libraries) (clock : Int) (maxSize : Int64)
    (minFreeSpace : Int) (files outside : Str → Option Str) {events : List Event}
    (allowed : StepsMeet (tally lib) LetsFlushesFinish
      (Tallied.opened clock maxSize minFreeSpace files outside) events) :
    let reached := run (tally lib) (Tallied.opened clock maxSize minFreeSpace files outside) events
    reached.cache.flushing = none →
      ∀ hash row, reached.cache.packages.find? hash = some row →
        row.accessCount + pendingCount reached.cache hash =
          1 + reached.rePuts hash + reached.gets hash := by
  intro reached finished hash row found
  have start : Counted (Tallied.opened clock maxSize minFreeSpace files outside).uses
      (Tallied.opened clock maxSize minFreeSpace files outside).cache :=
    ⟨nofun, nofun⟩
  have counted : Counted reached.uses reached.cache :=
    run_invariant_of_stepsMeet (fun tallied => Counted tallied.uses tallied.cache)
      (fun _ _ before steps => counted_tally lib before steps) start allowed
  have noneHeld : heldCount reached.cache hash = 0 := by
    rw [heldCount, finished]
    rfl
  have counts := counted.counts hash row found
  rw [noneHeld, Nat.add_zero] at counts
  exact counts

/-- A package is deleted and stored again: the read before the deletion does not count. -/
theorem accessCount_of_stored_again :
    let lib : Libraries := { sha256 := hexEncode64, unicodeLower := id }
    let own := hexEncode64 [7, 8]
    let store := Event.put {} (ofAscii "pending") [7, 8] own (ofAscii "a.deb")
    let events := [store, .get own, .close own, .delete {} own, store, store, .get own,
      .flusherSwap, .flusherCommit {}, .get own]
    let reached := run (tally lib) (Tallied.opened 0 9 0 (fun _ => none) fun _ => none) events
    ∃ row, reached.cache.packages.find? own = some row ∧ row.accessCount = 3 ∧
      row.accessCount + pendingCount reached.cache own =
        1 + reached.rePuts own + reached.gets own := by
  intro lib own store events reached
  have spared : ∀ event ∈ events, event.faults.SparesDatabase := by
    intro event mem
    have noFaults : event.faults = {} := by
      simp only [events, store, List.mem_cons, List.not_mem_nil, or_false] at mem
      rcases mem with rfl | rfl | rfl | rfl | rfl | rfl | rfl | rfl | rfl | rfl <;> rfl
    rw [noFaults]
    exact sparesDatabase_none
  have finishes : StepsMeet (tally lib)
      (fun tallied event => tallied.cache.flushing.isSome → event.isFlusherCommit)
      (Tallied.opened 0 9 0 (fun _ => none) fun _ => none) events := by
    decide +kernel
  have allowed : StepsMeet (tally lib) LetsFlushesFinish
      (Tallied.opened 0 9 0 (fun _ => none) fun _ => none) events :=
    (stepsMeet_of_forall spared _).and finishes
  have finished : reached.cache.flushing = none := by decide +kernel
  have isRow : (reached.cache.packages.find? own).map PackageRow.accessCount = some 3 := by
    decide +kernel
  obtain ⟨row, found, count⟩ := map_eq_some_iff.mp isRow
  exact ⟨row, found, count, accessCount_conserved lib 0 9 0 (fun _ => none) (fun _ => none) allowed
    finished own row found⟩

end Debswarm.Cache
