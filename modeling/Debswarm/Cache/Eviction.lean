import Debswarm.Cache.Core

/-!
# What an eviction pass does

Deletions take away files and rows and leave the rest of the cache alone.  A pass over
the eviction candidates is a sequence of deletions, and it deletes candidates only.
-/

namespace Debswarm.Cache

open Function List Option Table Text

section

/-! ## Deletions -/

/-- A state with fewer rows and files, and otherwise the same. -/
structure Shrinks (before after : State) : Prop where
  clock : after.clock = before.clock
  outside : after.outside = before.outside
  activeReaders : after.activeReaders = before.activeReaders
  pendingAccess : after.pendingAccess = before.pendingAccess
  flushing : after.flushing = before.flushing
  rows : ∀ hash row, after.packages.find? hash = some row →
    before.packages.find? hash = some row
  files : ∀ hash content, after.files hash = some content →
    before.files hash = some content

section

variable (faults : Faults) (target hash : Str) (sizeHint : Option Nat) (state : State)

theorem Shrinks.refl : Shrinks state state :=
  ⟨rfl, rfl, rfl, rfl, rfl, fun _ _ found => found, fun _ _ found => found⟩

theorem Shrinks.trans {first second third : State} (earlier : Shrinks first second)
    (later : Shrinks second third) : Shrinks first third where
  clock := later.clock.trans earlier.clock
  outside := later.outside.trans earlier.outside
  activeReaders := later.activeReaders.trans earlier.activeReaders
  pendingAccess := later.pendingAccess.trans earlier.pendingAccess
  flushing := later.flushing.trans earlier.flushing
  rows hash row found := earlier.rows hash row (later.rows hash row found)
  files hash content found := earlier.files hash content (later.files hash content found)

theorem shrinks_deleteUnlocked : Shrinks state (deleteUnlocked faults hash sizeHint state).2 := by
  have removed : ∀ other content, update state.files hash none other = some content →
        state.files other = some content := by
    intro other content found
    by_cases same : other = hash
    · rw [same, update_self] at found
      cases found
    · rwa [update_of_ne same] at found
  rcases deleteUnlocked_cases faults hash sizeHint state with
    ⟨-, reason, kept⟩ | ⟨-, ⟨-, gone⟩ | ⟨-, gone⟩⟩
  · rw [kept]
    exact Shrinks.refl state
  · rw [gone]
    exact ⟨rfl, rfl, rfl, rfl, rfl, fun _ _ found => found, removed⟩
  · rw [gone]
    refine ⟨rfl, rfl, rfl, rfl, rfl, fun other row found => ?_, removed⟩
    rw [find?_eq_some_iff] at found ⊢
    exact (mem_delete_iff.mp found).2

/-- A deletion removes the file of its package if nobody reads it and it does not resist. -/
theorem deleteUnlocked_files :
    (deleteUnlocked faults target sizeHint state).2.files hash =
      if hash = target ∧ state.activeReaders hash = 0 ∧ faults.remove hash = false then none
      else state.files hash := by
  rcases deleteUnlocked_cases faults target sizeHint state with
    ⟨refused, reason, kept⟩ | ⟨free, ⟨-, gone⟩ | ⟨-, gone⟩⟩
  · rw [kept, if_neg]
    rintro ⟨rfl, free⟩
    exact refused free
  all_goals
    rw [gone]
    by_cases own : hash = target
    · simp [own, free]
    · simp [own]

/-- A deletion drops the row of its package if it does not resist either. -/
theorem deleteUnlocked_find? :
    (deleteUnlocked faults target sizeHint state).2.packages.find? hash =
      if hash = target ∧ (state.activeReaders hash = 0 ∧ faults.remove hash = false) ∧
          faults.deleteRow hash = false then none
      else state.packages.find? hash := by
  rcases deleteUnlocked_cases faults target sizeHint state with
    ⟨refused, reason, kept⟩ | ⟨free, ⟨resists, gone⟩ | ⟨yields, gone⟩⟩
  · rw [kept, if_neg]
    rintro ⟨rfl, free, -⟩
    exact refused free
  · rw [gone, if_neg]
    rintro ⟨rfl, -, yields⟩
    exact Bool.false_ne_true (yields.symm.trans resists)
  · rw [gone]
    by_cases own : hash = target
    · simp [own, free, yields]
    · simp [own, find?_delete_ne _ own]

end

variable {faults : Faults} {needed : Nat} {state : State} {hash : Str}

theorem evictionPass_invariant (inv : State → Prop) (flushed : inv (flushAccess faults state))
    (deleted : ∀ before hash size, inv before →
      inv (deleteUnlocked faults hash (some size) before).2) :
    inv (evictionPass faults needed state).state := by
  have evicted : ∀ listed before, inv before → inv (evict faults needed listed before).state := by
    intro listed
    induction listed with
    | nil => exact fun _ holds => holds
    | cons entry rest ih =>
      intro before holds
      obtain ⟨hash, size⟩ := entry
      rcases evict_cons faults needed hash size rest before with ⟨fault, -, stopped⟩ | ⟨-, wentOn⟩
      · rw [stopped]
        exact holds
      · rw [wentOn]
        exact ih _ (deleted before hash size holds)
  simp only [evictionPass]
  split
  · exact flushed
  · split
    · exact flushed
    · exact evicted _ _ flushed

theorem shrinks_evictionPass (faults : Faults) (needed : Nat) (state : State) :
    Shrinks (flushAccess faults state) (evictionPass faults needed state).state :=
  evictionPass_invariant (Shrinks (flushAccess faults state)) (Shrinks.refl _)
    fun before hash size shrinks =>
      shrinks.trans (shrinks_deleteUnlocked faults hash (some size) before)

theorem mem_evicted {listed : List (Str × Nat)}
    (mem : hash ∈ (evict faults needed listed state).evicted) :
    hash ∈ listed.map Prod.fst ∧ state.activeReaders hash = 0 := by
  induction listed generalizing state with
  | nil => cases mem
  | cons entry rest ih =>
    obtain ⟨first, size⟩ := entry
    have readers := (shrinks_deleteUnlocked faults first (some size) state).activeReaders
    rcases evict_cons faults needed first size rest state with ⟨fault, -, stopped⟩ | ⟨-, wentOn⟩
    · rw [stopped] at mem
      cases mem
    · have later : hash ∈ (evict faults needed rest
          (deleteUnlocked faults first (some size) state).2).evicted →
          hash ∈ ((first, size) :: rest).map Prod.fst ∧ state.activeReaders hash = 0 := by
        intro restMem
        obtain ⟨listedLater, noReaders⟩ := ih restMem
        exact ⟨mem_cons_of_mem _ listedLater, readers ▸ noReaders⟩
      rw [wentOn] at mem
      split at mem
      · rename_i deleted
        rcases mem_cons.mp mem with rfl | restMem
        · refine ⟨mem_cons_self, ?_⟩
          by_contra inUse
          simp [deleteUnlocked, Nat.pos_of_ne_zero inUse] at deleted
        · exact later restMem
      · exact later mem

/-! ## Candidates -/

theorem mem_candidates_of_mem_listed {entry : Str × Nat} (mem : entry ∈ listed faults state) :
    entry ∈ candidates state := by
  unfold listed at mem
  split at mem
  · cases mem
  · exact mem

theorem mem_listed (mem : hash ∈ (listed faults state).map Prod.fst) :
    ∃ row, state.packages.find? hash = some row ∧
      row.lastAccessed < state.clock - evictionWindow ∧ row.pinned = false := by
  obtain ⟨entry, entryMem, rfl⟩ := mem_map.mp mem
  obtain ⟨row, selected, rfl⟩ := mem_map.mp (mem_candidates_of_mem_listed entryMem)
  obtain ⟨stored, allowed⟩ := mem_select_iff.mp selected
  refine ⟨row.2, find?_eq_some_iff.mpr stored, ?_⟩
  simpa [evictable] using allowed

/-- An eviction pass was needed, and removes only candidates without readers. -/
theorem mem_evictionPass (mem : hash ∈ (evictionPass faults needed state).evicted) :
    ¬ Fits needed state ∧ state.activeReaders hash = 0 ∧
      ∃ row, (flushAccess faults state).packages.find? hash = some row ∧
        row.lastAccessed < state.clock - evictionWindow ∧ row.pinned = false := by
  simp only [evictionPass] at mem
  split at mem
  · cases mem
  · split at mem
    · cases mem
    · rename_i full
      obtain ⟨isListed, noReaders⟩ := mem_evicted mem
      exact ⟨full, noReaders, mem_listed isListed⟩

theorem keys_applyBatch (faults : Faults) (batch : Table Str AccessRecord)
    (packages : Table Str PackageRow) :
    (applyBatch faults batch packages).rows.map Prod.fst = packages.rows.map Prod.fst :=
  applyBatch_invariant (fun table => table.rows.map Prod.fst = packages.rows.map Prod.fst)
    (fun table hash _ same => (table.keys_update hash _).trans same) faults batch rfl

theorem isSome_find?_applyBatch (faults : Faults) (batch : Table Str AccessRecord)
    (packages : Table Str PackageRow) (hash : Str) :
    ((applyBatch faults batch packages).find? hash).isSome = (packages.find? hash).isSome := by
  rw [Bool.eq_iff_iff, ← not_iff_not, not_isSome_iff_eq_none,
    not_isSome_iff_eq_none, find?_eq_none_iff, find?_eq_none_iff,
    keys_applyBatch]

end

/-! ## What a flush writes -/

section

variable (record : Option AccessRecord) (row : PackageRow)

/-- A row with an access record written to it, if there is one. -/
def PackageRow.credit : PackageRow :=
  match record with
  | none => row
  | some record =>
    { row with
      lastAccessed := max row.lastAccessed record.last
      accessCount := row.accessCount + record.count }

@[simp]
theorem PackageRow.credit_size :
    (row.credit record).size = row.size := by
  cases record <;> rfl

@[simp]
theorem PackageRow.credit_pinned :
    (row.credit record).pinned = row.pinned := by
  cases record <;> rfl

theorem PackageRow.credit_accessCount :
    (row.credit record).accessCount =
      row.accessCount + (record.map AccessRecord.count).getD 0 := by
  cases record <;> rfl

end

/-- Writing records one by one credits each row with the record of its hash. -/
theorem find?_foldl_applyRecord {entries : List (Str × AccessRecord)}
    (keysNodup : (entries.map Prod.fst).Nodup) (packages : Table Str PackageRow) (hash : Str) :
    (entries.foldl (fun table entry => applyRecord table entry.1 entry.2) packages).find? hash =
      (packages.find? hash).map
        (PackageRow.credit ((entries.find? fun entry => entry.1 = hash).map Prod.snd)) := by
  induction entries generalizing packages with
  | nil => cases found : packages.find? hash <;> exact found
  | cons entry rest ih =>
    rw [map_cons, nodup_cons] at keysNodup
    rw [foldl_cons, ih keysNodup.2, applyRecord, Table.find?_update]
    by_cases own : hash = entry.1
    · subst own
      have noneLater : (rest.find? fun other => other.1 = entry.1) = none := by
        rw [find?_eq_none]
        intro other mem same
        exact keysNodup.1 (of_decide_eq_true same ▸ mem_map_of_mem mem)
      rw [if_pos rfl, noneLater, find?_cons, decide_eq_true rfl, Option.map_map]
      rfl
    · rw [if_neg own, find?_cons, decide_eq_false (Ne.symm own)]

/-- A batch that the database takes credits each row with the record of its hash. -/
theorem find?_applyBatch_eq {faults : Faults} (flushed : faults.flush = false)
    (each : ∀ hash, faults.flushRow hash = false) (batch : Table Str AccessRecord)
    (packages : Table Str PackageRow) (hash : Str) :
    (applyBatch faults batch packages).find? hash =
      (packages.find? hash).map (PackageRow.credit (batch.find? hash)) := by
  have noneSkipped : batch.rows.filter (fun entry => !faults.flushRow entry.1) = batch.rows := by
    simp [each]
  rw [applyBatch, flushed, if_neg Bool.false_ne_true, noneSkipped]
  exact find?_foldl_applyRecord batch.keysNodup packages hash

end Debswarm.Cache
