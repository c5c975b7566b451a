import Debswarm.Cache.Core
import Debswarm.Transition.Run
import Mathlib.Tactic.Linarith

/-!
# Size accounting of the package cache

Up to wrapping around, the tracked size is the sum of the row sizes after every operation,
whatever disk and database steps fail along the way: each step that changes the table changes
the tracked size with it, or not at all.  It is that sum itself as long as the sum is an
`int64` number.  A store whose bytes can be added without wrapping around leaves the tracked
size within the limit.
-/

namespace Debswarm.Cache

open Option PackageRow Table Text Transition

/-- The tracked size is the sum of the row sizes, up to wrapping around. -/
def Tracked (state : State) : Prop :=
  state.currentSize = .ofInt state.rowBytes

theorem State.rowBytes_nonneg (state : State) : 0 ≤ state.rowBytes :=
  state.packages.total_nonneg bytes_nonneg

/-- The tracked size is the sum of the row sizes if the sum fits. -/
theorem Tracked.toInt_eq_iff {state : State} (tracked : Tracked state) :
    state.currentSize.toInt = state.rowBytes ↔ state.rowBytes < 2 ^ 63 := by
  constructor
  · intro same
    rw [← same]
    exact state.currentSize.toInt_lt
  · intro fits
    have nonneg := state.rowBytes_nonneg
    rw [tracked, Int64.toInt_ofInt_of_le (by omega) fits]

/-! ## Access records -/

theorem total_applyBatch (faults : Faults) (batch : Table Str AccessRecord)
    (packages : Table Str PackageRow) :
    (applyBatch faults batch packages).total PackageRow.bytes =
      packages.total PackageRow.bytes :=
  applyBatch_invariant (fun table => table.total PackageRow.bytes = packages.total PackageRow.bytes)
    (fun table hash _ same => same ▸ table.total_update_of_column_eq hash fun _ => rfl)
    faults batch rfl

variable {state : State} {faults : Faults}

@[simp]
theorem rowBytes_flushAccess (faults : Faults) (state : State) :
    (flushAccess faults state).rowBytes = state.rowBytes :=
  total_applyBatch faults state.pendingAccess state.packages

theorem tracked_flushAccess (tracked : Tracked state) (faults : Faults) :
    Tracked (flushAccess faults state) :=
  tracked.trans (congrArg Int64.ofInt (rowBytes_flushAccess faults state).symm)

/-! ## Deletion and eviction -/

/-- A deletion is accounted for when the size that the caller passes is the size of
the row. -/
theorem tracked_deleteUnlocked (tracked : Tracked state) (faults : Faults) (hash : Str)
    {sizeHint : Option Nat}
    (hintEq : ∀ size ∈ sizeHint, (state.packages.find? hash).map PackageRow.size = some size) :
    Tracked (deleteUnlocked faults hash sizeHint state).2 := by
  have sizeEq : (sizeHint.getD (((state.packages.find? hash).map PackageRow.size).getD 0) : Int) =
      state.packages.columnAt hash PackageRow.bytes := by
    cases sizeHint with
    | none =>
      rw [columnAt]
      cases state.packages.find? hash <;> rfl
    | some size =>
      obtain ⟨row, found, rowSize⟩ := map_eq_some_iff.mp (hintEq size rfl)
      rw [columnAt_of_find? found, getD_some, ← rowSize]
      rfl
  rcases deleteUnlocked_cases faults hash sizeHint state with
    ⟨-, reason, kept⟩ | ⟨-, ⟨-, gone⟩ | ⟨-, gone⟩⟩
  · rw [kept]
    exact tracked
  · rw [gone]
    exact tracked
  · rw [gone]
    change state.currentSize - _ = Int64.ofInt ((state.packages.delete hash).total bytes)
    rw [total_delete, ← sizeEq, Int64.ofInt_sub, Int64.ofInt_eq_ofNat, tracked]
    rfl

theorem lists_after_deleteUnlocked {hash : Str} {size : Nat} {rest : List (Str × Nat)}
    (listed : state.packages.Lists PackageRow.size ((hash, size) :: rest)) :
    (deleteUnlocked faults hash (some size) state).2.packages.Lists PackageRow.size rest := by
  rw [deleteUnlocked_packages]
  split
  · exact listed.tail_delete
  · exact listed.tail

theorem tracked_evict (faults : Faults) (needed : Nat) (listedRows : List (Str × Nat))
    (tracked : Tracked state) (listed : state.packages.Lists PackageRow.size listedRows) :
    Tracked (evict faults needed listedRows state).state := by
  induction listedRows generalizing state with
  | nil => exact tracked
  | cons entry rest ih =>
    obtain ⟨hash, size⟩ := entry
    have deletedTracked : Tracked (deleteUnlocked faults hash (some size) state).2 := by
      apply tracked_deleteUnlocked tracked
      intro hint hintMem
      cases hintMem
      obtain ⟨row, found, rfl⟩ := listed.head
      rw [found]
      rfl
    rcases evict_cons faults needed hash size rest state with ⟨fault, -, stopped⟩ | ⟨-, wentOn⟩
    · rw [stopped]
      exact tracked
    · rw [wentOn]
      exact ih deletedTracked (lists_after_deleteUnlocked listed)

theorem rowBytes_deleteUnlocked_le (faults : Faults) (hash : Str) (sizeHint : Option Nat)
    (state : State) : (deleteUnlocked faults hash sizeHint state).2.rowBytes ≤ state.rowBytes := by
  rw [State.rowBytes, deleteUnlocked_packages]
  split
  · rw [total_delete]
    exact sub_le_self _ (state.packages.columnAt_nonneg hash bytes_nonneg)
  · exact le_rfl

theorem rowBytes_evict_le (faults : Faults) (needed : Nat) (listedRows : List (Str × Nat))
    (state : State) : (evict faults needed listedRows state).state.rowBytes ≤ state.rowBytes := by
  induction listedRows generalizing state with
  | nil => exact le_rfl
  | cons entry rest ih =>
    rcases evict_cons faults needed entry.1 entry.2 rest state with
      ⟨fault, -, stopped⟩ | ⟨-, wentOn⟩
    · rw [stopped]
    · rw [wentOn]
      exact (ih _).trans (rowBytes_deleteUnlocked_le faults entry.1 (some entry.2) state)

/-- Making room keeps the tracked size, and the rows take no more bytes than before. -/
theorem tracked_ensureSpace (tracked : Tracked state) (faults : Faults) (needed : Nat) :
    Tracked (ensureSpace faults needed state).2 ∧
      (ensureSpace faults needed state).2.rowBytes ≤ state.rowBytes := by
  have flushed := tracked_flushAccess tracked faults
  have lists : (flushAccess faults state).packages.Lists PackageRow.size
      (listed faults (flushAccess faults state)) := by
    unfold listed
    split
    · exact ⟨List.nodup_nil, nofun⟩
    · exact lists_select _ PackageRow.size _ _
  rw [ensureSpace_state, evictionPass, ← rowBytes_flushAccess faults state]
  split
  · exact ⟨flushed, le_rfl⟩
  · split
    · exact ⟨flushed, le_rfl⟩
    · exact ⟨tracked_evict faults needed _ flushed lists, rowBytes_evict_le faults needed _ _⟩

theorem room_of_ensureSpace_ok {needed : Nat}
    (succeeded : (ensureSpace faults needed state).1 = .ok) :
    Fits needed (ensureSpace faults needed state).2 := by
  rw [ensureSpace_state]
  simp only [ensureSpace] at succeeded
  split at succeeded
  · cases succeeded
  · split at succeeded
    · cases succeeded
    · split at succeeded
      · assumption
      · cases succeeded

/-! ## Storing -/

theorem tracked_recordPackage (tracked : Tracked state) (lib : Libraries) (faults : Faults)
    (hash filename : Str) (size : Nat) :
    Tracked (recordPackage lib faults hash filename size state).2 ∧
      (recordPackage lib faults hash filename size state).2.rowBytes ≤ state.rowBytes + size := by
  rcases recordPackage_cases lib faults hash filename size state with ⟨-, failed⟩ | ⟨-, recorded⟩
  · rw [failed]
    exact ⟨tracked, le_add_of_nonneg_right (Int.natCast_nonneg size)⟩
  · have written : ((state.packages.find? hash).elim (freshRow lib filename size state.clock)
        (refreshRow (freshRow lib filename size state.clock))).bytes = size := by
      cases state.packages.find? hash <;> rfl
    have total : (state.record lib hash filename size).rowBytes =
        state.rowBytes - state.packages.columnAt hash bytes + size := by
      simp only [State.record, State.rowBytes, total_insertOrUpdate, written]
    have nonneg := state.packages.columnAt_nonneg hash bytes_nonneg
    rw [recorded]
    dsimp only
    refine ⟨?_, by omega⟩
    change state.currentSize + .ofInt _ = Int64.ofInt (state.record lib hash filename size).rowBytes
    rw [total, tracked, ← Int64.ofInt_add]
    congr 1
    ring

theorem tracked_commitVerifiedFile (tracked : Tracked state) (lib : Libraries) (faults : Faults)
    (filePath hash filename : Str) (size : Nat) :
    Tracked (commitVerifiedFile lib faults filePath hash filename size state).2 := by
  have roomy := (tracked_ensureSpace tracked faults size).1
  rcases commitVerifiedFile_cases lib faults filePath hash filename size state with
    ⟨-, unrecorded⟩ | ⟨-, files, outside, -, recorded⟩
  · rw [unrecorded]
    exact roomy
  · have moved : Tracked { (ensureSpace faults size state).2 with files, outside } := roomy
    rw [recorded]
    exact (tracked_recordPackage moved lib faults hash filename size).1

@[simp]
theorem recordPackage_maxSize (lib : Libraries) (faults : Faults) (hash filename : Str)
    (size : Nat) (state : State) :
    (recordPackage lib faults hash filename size state).2.maxSize = state.maxSize := by
  rcases recordPackage_cases lib faults hash filename size state with ⟨-, failed⟩ | ⟨-, recorded⟩
  · rw [failed]
  · rw [recorded, State.record]

theorem rowBytes_add_le_of_fits {needed : Nat} (tracked : Tracked state)
    (bounded : state.rowBytes + needed < 2 ^ 63) (fits : Fits needed state) :
    state.rowBytes + needed ≤ state.maxSize.toInt := by
  have nonneg := state.rowBytes_nonneg
  have sum : state.currentSize + .ofNat needed = .ofInt (state.rowBytes + needed) := by
    rw [tracked, Int64.ofInt_add, Int64.ofInt_eq_ofNat]
  rw [Fits, sum, Int64.le_iff_toInt_le, Int64.toInt_ofInt_of_le (by omega) bounded] at fits
  exact fits

theorem currentSize_le_of_commitVerifiedFile_ok (tracked : Tracked state) {lib : Libraries}
    {filePath hash filename : Str} {size : Nat} (bounded : state.rowBytes + size < 2 ^ 63)
    (succeeded : (commitVerifiedFile lib faults filePath hash filename size state).1 = .ok) :
    (commitVerifiedFile lib faults filePath hash filename size state).2.currentSize ≤
      (commitVerifiedFile lib faults filePath hash filename size state).2.maxSize := by
  rcases commitVerifiedFile_cases lib faults filePath hash filename size state with
    ⟨failed, -⟩ | ⟨spaceOk, files, outside, -, recorded⟩
  · exact absurd succeeded failed
  · obtain ⟨roomTracked, fewer⟩ := tracked_ensureSpace tracked faults size
    have room := rowBytes_add_le_of_fits roomTracked
      (lt_of_le_of_lt (Int.add_le_add_right fewer _) bounded) (room_of_ensureSpace_ok spaceOk)
    have moved : Tracked { (ensureSpace faults size state).2 with files, outside } := roomTracked
    obtain ⟨after, most⟩ := tracked_recordPackage moved lib faults hash filename size
    have sameBytes : State.rowBytes { (ensureSpace faults size state).2 with files, outside } =
        (ensureSpace faults size state).2.rowBytes := rfl
    rw [sameBytes] at most
    have exactly := after.toInt_eq_iff.mpr (by omega)
    rw [recorded, Int64.le_iff_toInt_le, exactly, recordPackage_maxSize]
    exact most.trans room

theorem tracked_setPinned (tracked : Tracked state) (pinned : Bool) (faults : Faults) (hash : Str) :
    Tracked (setPinned pinned faults hash state).2 := by
  rcases setPinned_cases pinned faults hash state with unchanged | updated
  · rw [unchanged]
    exact tracked
  · rw [updated]
    refine Eq.trans tracked (congrArg Int64.ofInt (Eq.symm ?_))
    exact state.packages.total_update_of_column_eq hash fun _ => rfl

/-! ## Runs -/

/-- Every step keeps the tracked size equal to the sum of the row sizes, up to wrapping around. -/
theorem tracked_next (lib : Libraries) (tracked : Tracked state) (event : Event) :
    Tracked (next lib state event) := by
  cases event with
  | put faults pendingPath data expectedHash filename =>
    rcases put_cases lib faults pendingPath data expectedHash filename state with
      ⟨-, -, unchanged⟩ | ⟨-, cleaned, -, committed⟩
    · rw [next, unchanged]
      exact tracked
    · have copied : Tracked (writeOutside pendingPath data state) := tracked
      rw [next, committed]
      exact tracked_commitVerifiedFile copied lib faults pendingPath expectedHash filename _
  | putFile faults filePath hash filename size =>
    exact tracked_commitVerifiedFile tracked lib faults filePath hash filename size
  | get hash =>
    obtain ⟨activeReaders, pendingAccess, read⟩ := get_eq hash state
    rw [next, read]
    exact tracked
  | close hash => exact tracked
  | delete faults hash =>
    apply tracked_deleteUnlocked tracked faults hash
    intro size sizeMem
    cases sizeMem
  | pin faults hash => exact tracked_setPinned tracked true faults hash
  | unpin faults hash => exact tracked_setPinned tracked false faults hash
  | flush faults => exact tracked_flushAccess tracked faults
  | flusherSwap =>
    obtain ⟨pendingAccess, flushing, swapped⟩ := flusherSwap_eq state
    rw [next, swapped]
    exact tracked
  | flusherCommit faults =>
    rw [next, flusherCommit_eq]
    exact tracked.trans (congrArg Int64.ofInt (total_applyBatch faults _ state.packages).symm)
  | advance seconds => exact tracked

/-- How a step that stores a package ends; nothing for the other steps. -/
def storeOutcome (lib : Libraries) (state : State) : Event → Option Outcome
  | .put faults pendingPath data expectedHash filename =>
    some (put lib faults pendingPath data expectedHash filename state).1
  | .putFile faults filePath hash filename size =>
    some (putFile lib faults filePath hash filename size state).1
  | _ => none

def storedBytes : Event → Nat
  | .put _ _ data _ _ => data.length
  | .putFile _ _ _ _ size => size
  | _ => 0

theorem currentSize_le_of_store_ok {lib : Libraries} {event : Event} (tracked : Tracked state)
    (bounded : state.rowBytes + storedBytes event < 2 ^ 63)
    (succeeded : storeOutcome lib state event = some .ok) :
    (next lib state event).currentSize ≤ (next lib state event).maxSize := by
  cases event with
  | put faults pendingPath data expectedHash filename =>
    have putOk := some.inj succeeded
    rcases put_cases lib faults pendingPath data expectedHash filename state with
      ⟨-, failed, -⟩ | ⟨-, cleaned, sameOutcome, committed⟩
    · exact absurd putOk failed
    · have copied : Tracked (writeOutside pendingPath data state) := tracked
      simp only [next, committed]
      exact currentSize_le_of_commitVerifiedFile_ok copied bounded (sameOutcome.symm.trans putOk)
  | putFile faults filePath hash filename size =>
    exact currentSize_le_of_commitVerifiedFile_ok tracked bounded (some.inj succeeded)
  | _ => cases succeeded

/-- A state reached from a cache opened on a table whose sizes can be summed, whatever fails. -/
def Reachable (lib : Libraries) (state : State) : Prop :=
  ∃ clock maxSize minFreeSpace packages files outside events,
    packages.total PackageRow.bytes < 2 ^ 63 ∧
    run (next lib) (State.opened clock maxSize minFreeSpace packages files outside) events = state

theorem Reachable.tracked {lib : Libraries} (reachable : Reachable lib state) : Tracked state := by
  obtain ⟨clock, maxSize, minFreeSpace, packages, files, outside, events, summed, rfl⟩ := reachable
  apply run_invariant Tracked
  · intro state event tracked
    exact tracked_next lib tracked event
  · exact if_pos (Int.le_of_lt_add_one summed)

/-- The tracked size is the sum of the row sizes exactly as long as this sum fits, and a successful
store whose bytes can be added to the sum stays within the limit. -/
theorem currentSize_eq_rowBytes_and_store_within_limit {lib : Libraries} {state : State}
    (reachable : Reachable lib state) :
    (state.currentSize.toInt = state.rowBytes ↔ state.rowBytes < 2 ^ 63) ∧
      ∀ event, state.rowBytes + storedBytes event < 2 ^ 63 →
        storeOutcome lib state event = some .ok → state.currentSize ≤ state.maxSize →
        (next lib state event).currentSize ≤ (next lib state event).maxSize := by
  constructor
  · exact reachable.tracked.toInt_eq_iff
  · intro event bounded succeeded _
    exact currentSize_le_of_store_ok reachable.tracked bounded succeeded

/-- A store evicts one of two stale packages although the removal of the other fails. -/
theorem store_within_limit_after_eviction :
    let lib : Libraries := { sha256 := hexEncode64, unicodeLower := id }
    let stuck := hexEncode64 [1]
    let stale := hexEncode64 [2]
    let faults : Faults := { remove := fun hash => hash = stuck }
    let state := run (next lib) (State.opened 0 3 0 empty (fun _ => none) fun _ => none)
      [.put {} (ofAscii "a") [1] stuck (ofAscii "a_1_all.deb"),
        .put {} (ofAscii "b") [2] stale (ofAscii "b_1_all.deb"),
        .advance 700000]
    let event := Event.put faults (ofAscii "c") [3, 4] (hexEncode64 [3, 4]) (ofAscii "c_1_all.deb")
    state.currentSize = 2 ∧ state.currentSize.toInt = state.rowBytes ∧
      (next lib state event).currentSize ≤ (next lib state event).maxSize := by
  intro lib stuck stale faults state event
  have reachable : Reachable lib state := ⟨0, 3, 0, empty, _, _, _, by decide, rfl⟩
  have accounted := currentSize_eq_rowBytes_and_store_within_limit reachable
  exact ⟨by decide, accounted.1.mpr (by decide),
    accounted.2 event (by decide) (by decide) (by decide)⟩

/-- A store of the largest size next to one cached byte succeeds: the sum wraps around. -/
theorem currentSize_ne_rowBytes_of_largest :
    let lib : Libraries := { sha256 := hexEncode64, unicodeLower := id }
    let opened := State.opened 0 10 0 empty (fun _ => none) fun _ => some [2]
    let state := next lib opened
      (.put {} (ofAscii "a") [1] (hexEncode64 [1]) (ofAscii "a_1_all.deb"))
    let event := Event.putFile {} (ofAscii "b") (hexEncode64 [2]) (ofAscii "b_1_all.deb")
      (2 ^ 63 - 1)
    state.currentSize = 1 ∧ storeOutcome lib state event = some .ok ∧
      (next lib state event).currentSize = Int64.minValue ∧
      (next lib state event).rowBytes = 2 ^ 63 := by
  decide

end Debswarm.Cache
