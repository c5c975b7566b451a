import Debswarm.Cache.Ranking

/-!
# Storing a package again

A store makes room for its bytes before it learns that the package is there already.  Storing
a package again is therefore harmless only while its bytes fit a second time, or if the
package itself is the first one to be evicted.  Otherwise it evicts another package, or fails
because the cache is full.
-/

namespace Debswarm.Cache

open Bool List Option Table Text Transition

/-- Nothing fails, and the operating system reports some free space. -/
def Faults.healthy (freeSpace : Option Int) : Faults :=
  .ofRemovals freeSpace fun _ => false

/-- Storing a package again succeeds and changes neither another package nor the tracked size. -/
structure Restores (lib : Libraries) (faults : Faults) (pendingPath data hash filename : Str)
    (state : State) : Prop where
  succeeds : (put lib faults pendingPath data hash filename state).1 = .ok
  rows : ∀ other, other ≠ hash → (state.packages.find? other).isSome →
    ((put lib faults pendingPath data hash filename state).2.packages.find? other).isSome
  files : ∀ other, other ≠ hash →
    (put lib faults pendingPath data hash filename state).2.files other = state.files other
  size : (put lib faults pendingPath data hash filename state).2.currentSize = state.currentSize

/-- The first package of the eviction ranking without readers. -/
def firstEvicted (faults : Faults) (state : State) : Option Str :=
  ((candidates (flushAccess faults state)).find? fun entry =>
    state.activeReaders entry.1 = 0).map Prod.fst

/-! ## A store with nothing failing -/

section Store

variable {lib : Libraries} {freeSpace : Option Int} {state : State}

theorem moveIntoPlace_of_source {filePath hash : Str} (source : state.outside filePath ≠ none) :
    ∃ files outside, moveIntoPlace (.healthy freeSpace) filePath hash state =
        some { state with files, outside } ∧
      ∀ other, other ≠ hash → files other = state.files other := by
  unfold moveIntoPlace
  cases taken : state.files hash with
  | some content => exact ⟨_, _, rfl, fun _ _ => rfl⟩
  | none =>
    cases isSource : state.outside filePath with
    | none => exact absurd isSource source
    | some content =>
      exact ⟨_, _, rfl, fun other different => Function.update_of_ne different ..⟩

/-- Where there is room, a commit succeeds and adds the bytes that the row did not have. -/
theorem commitVerifiedFile_of_room {filePath hash filename : Str} {size : Nat}
    (named : 16 ≤ hash.length) (source : state.outside filePath ≠ none) {room : State}
    (roomy : ensureSpace (.healthy freeSpace) size state = (.ok, room)) :
    ∃ after, commitVerifiedFile lib (.healthy freeSpace) filePath hash filename size state =
        (.ok, after) ∧
      (∀ other, other ≠ hash → after.packages.find? other = room.packages.find? other ∧
        after.files other = room.files other) ∧
      after.currentSize = room.currentSize +
        .ofInt (size - room.packages.columnAt hash PackageRow.bytes) := by
  have kept := ensureSpace_outside (.healthy freeSpace) size state
  rw [roomy] at kept
  rw [← kept] at source
  obtain ⟨files, outside, moved, otherFiles⟩ := @moveIntoPlace_of_source freeSpace room filePath
    hash source
  have committed : commitVerifiedFile lib (.healthy freeSpace) filePath hash filename size state =
      recordPackage lib (.healthy freeSpace) hash filename size { room with files, outside } := by
    unfold commitVerifiedFile
    rw [roomy]
    dsimp only
    rw [moved]
    rfl
  rcases recordPackage_cases lib (.healthy freeSpace) hash filename size
    { room with files, outside } with ⟨fails, -⟩ | ⟨-, recorded⟩
  · cases fails
  · rw [if_pos named] at recorded
    exact ⟨_, committed.trans recorded, fun other different =>
      ⟨find?_insertOrUpdate_ne _ different .., otherFiles other different⟩, rfl⟩

theorem put_of_room {pendingPath data hash filename : Str} (digest : lib.sha256 data = hash)
    (named : 16 ≤ hash.length) {room : State}
    (roomy : ensureSpace (.healthy freeSpace) data.length (writeOutside pendingPath data state) =
      (.ok, room)) :
    ∃ after, put lib (.healthy freeSpace) pendingPath data hash filename state = (.ok, after) ∧
      (∀ other, other ≠ hash → after.packages.find? other = room.packages.find? other ∧
        after.files other = room.files other) ∧
      after.currentSize = room.currentSize +
        .ofInt (data.length - room.packages.columnAt hash PackageRow.bytes) := by
  have source : (writeOutside pendingPath data state).outside pendingPath ≠ none := by
    simp [writeOutside]
  obtain ⟨after, committed, others, size⟩ :=
    @commitVerifiedFile_of_room lib freeSpace _ pendingPath hash filename data.length named source
      room roomy
  refine ⟨after, ?_, others, size⟩
  have copies : (Faults.healthy freeSpace).copy = false := rfl
  unfold put
  rw [copies, if_neg Bool.false_ne_true, if_neg (not_not.mpr digest), committed]

theorem ensureSpace_ok_of_put_ok {faults : Faults} {pendingPath data hash filename : Str}
    (succeeded : (put lib faults pendingPath data hash filename state).1 = .ok) :
    (ensureSpace faults data.length (writeOutside pendingPath data state)).1 = .ok := by
  rcases put_cases lib faults pendingPath data hash filename state with
    ⟨-, failed, -⟩ | ⟨-, cleaned, outcome, -⟩
  · exact absurd succeeded failed
  · rcases commitVerifiedFile_cases lib faults pendingPath hash filename data.length
      (writeOutside pendingPath data state) with ⟨failed, -⟩ | ⟨roomy, -⟩
    · exact absurd (outcome.symm.trans succeeded) failed
    · exact roomy

end Store

/-! ## The walk of a store that is made again -/

section Walk

variable {can : Str → Bool} {needed : Nat} {before after : State}
  {walked left : List (Str × PackageRow)} {evicted : List Str}

theorem WrappingWalk.currentSize_eq
    (walk : WrappingWalk can needed before after walked left evicted)
    (removed : (walked.filter fun row => can row.1) = []) :
    after.currentSize = before.currentSize := by
  rw [walk.bytes, removedBytes, removed, map_nil, sum_nil, ofInt_zero, Int64.sub_zero]

theorem WrappingWalk.walked_eq_nil
    (walk : WrappingWalk can needed before after walked left evicted)
    (fits : Fits needed before) : walked = [] := by
  cases walked with
  | nil => rfl
  | cons row rest =>
    have full := walk.full [] row rest rfl
    rw [removedBytes_nil, ofInt_zero, Int64.sub_zero] at full
    exact absurd fits (Int64.not_le.mpr full)

/-- If the first row that can be removed has just the bytes needed, it is the only one evicted. -/
theorem WrappingWalk.filter_eq_singleton
    (walk : WrappingWalk can needed before after walked left evicted)
    (within : before.currentSize ≤ before.maxSize)
    (full : ¬ Fits needed before) {row : Str × PackageRow}
    (isFirst : ((walked ++ left).filter fun row => can row.1).head? = some row)
    (size : row.2.bytes = needed) : (walked.filter fun row => can row.1) = [row] := by
  rw [filter_append, head?_append] at isFirst
  cases removed : walked.filter fun row => can row.1 with
  | nil =>
    -- The walk has removed nothing, so it went on to the end.
    exfalso
    rcases walk.stops with fits | ended
    · rw [walk.currentSize_eq removed] at fits
      exact full fits
    · rw [removed, ended] at isFirst
      cases isFirst
  | cons first rest =>
    rw [removed] at isFirst
    obtain rfl := some.inj isFirst
    cases rest with
    | nil => rfl
    | cons second rest =>
      -- After the first one the bytes fit, so there is no second one.
      exfalso
      have removedBoth : (walked.filter fun row => can row.1) = [first] ++ second :: rest :=
        removed
      obtain ⟨ahead, behind, rfl, aheadRemoved, secondRemoved⟩ :=
        filter_eq_append_iff.mp removedBoth
      obtain ⟨passed, later, rfl, unremovable, -, -⟩ :=
        filter_eq_cons_iff.mp secondRemoved
      have fullThen := walk.full (ahead ++ passed) second later (by simp)
      have nonePassed : (passed.filter fun row => can row.1) = [] :=
        filter_eq_nil_iff.mpr unremovable
      simp only [removedBytes, filter_append, aheadRemoved, nonePassed, append_nil,
        map_cons, map_nil, sum_cons, sum_nil, size, add_zero, Int64.ofInt_eq_ofNat,
        Int64.sub_add_cancel] at fullThen
      exact absurd within (Int64.not_le.mpr fullThen)

end Walk

section Again

variable {lib : Libraries} {freeSpace : Option Int} {state : State}
  {pendingPath data hash filename : Str} {row : PackageRow}

theorem find?_flushAccess_healthy (other : Str) :
    (flushAccess (.healthy freeSpace) state).packages.find? other =
      (state.packages.find? other).map (PackageRow.credit (state.pendingAccess.find? other)) :=
  find?_applyBatch_eq rfl (fun _ => rfl) state.pendingAccess state.packages other

theorem firstEvicted_eq_head? :
    firstEvicted (.healthy freeSpace) state =
      ((ranking (flushAccess (.healthy freeSpace) state)).filter fun row =>
        removable (fun _ => false) state row.1).head?.map Prod.fst := by
  rw [firstEvicted, candidates_eq, List.find?_map, List.head?_filter, Option.map_map]
  simp only [removable, Bool.not_false, Bool.and_true]
  rfl

/-- A ranked row stands in the table under its key, with the bytes it had before the flush. -/
theorem exists_of_mem_ranking {ranked : Str × PackageRow}
    (mem : ranked ∈ ranking (flushAccess (.healthy freeSpace) state)) :
    ∃ row, state.packages.find? ranked.1 = some row ∧ ranked.2.size = row.size := by
  have isRow := (mem_filter.mp ((ranking_perm _).mem_iff.mp mem)).1
  have found := find?_eq_some_iff.mpr isRow
  rw [find?_flushAccess_healthy, map_eq_some_iff] at found
  obtain ⟨row, isRow, credited⟩ := found
  exact ⟨row, isRow, by rw [← credited, PackageRow.credit_size]⟩

theorem ensureSpace_writeOutside_ok_iff (pendingPath : Str)
    (enoughDisk : diskShort (.healthy freeSpace) data.length state = false)
    (named : ∀ row ∈ state.packages.rows, 16 ≤ row.1.length) :
    let ended := ensureSpace (.healthy freeSpace) data.length (writeOutside pendingPath data state)
    ended.1 = .ok ↔ ended.2.currentSize + .ofNat data.length ≤ state.maxSize :=
  ensureSpace_ok_iff_within enoughDisk
    (@evictionPass_fault_eq_none (writeOutside pendingPath data state) (.healthy freeSpace)
      data.length named)

/-- A store that evicts at most its own package, and accounts for its bytes once, does no harm. -/
theorem restores_of_room (digest : lib.sha256 data = hash) (named : 16 ≤ hash.length)
    {room : State}
    (roomy : ensureSpace (.healthy freeSpace) data.length (writeOutside pendingPath data state) =
      (.ok, room))
    (others : ∀ other, other ≠ hash →
      room.packages.find? other = (flushAccess (.healthy freeSpace) state).packages.find? other ∧
        room.files other = state.files other)
    (accounted : room.currentSize +
      .ofInt (data.length - room.packages.columnAt hash PackageRow.bytes) = state.currentSize) :
    Restores lib (.healthy freeSpace) pendingPath data hash filename state := by
  obtain ⟨after, stored, untouched, size⟩ := @put_of_room lib freeSpace state pendingPath data hash
    filename digest named room roomy
  refine ⟨?_, fun other different => ?_, fun other different => ?_, ?_⟩ <;> rw [stored]
  · intro isRow
    rw [(untouched other different).1, (others other different).1, find?_flushAccess_healthy,
      isSome_map]
    exact isRow
  · exact (untouched other different).2.trans (others other different).2
  · exact size.trans accounted

/-- A store that is made again walks over the ranking as the state before it has it. -/
theorem exists_walk_of_put (pendingPath : Str)
    (enoughDisk : diskShort (.healthy freeSpace) data.length state = false)
    (named : ∀ row ∈ state.packages.rows, 16 ≤ row.1.length) :
    ∃ walked left evicted,
      walked ++ left = ranking (flushAccess (.healthy freeSpace) state) ∧
        WrappingWalk (removable (fun _ => false) state) data.length
          (flushAccess (.healthy freeSpace) state)
          (ensureSpace (.healthy freeSpace) data.length (writeOutside pendingPath data state)).2
          walked left evicted := by
  obtain ⟨walked, left, whole, walk⟩ := @exists_walk data.length
    (writeOutside pendingPath data state) freeSpace (fun _ => false) enoughDisk named
  exact ⟨walked, left, _, whole, { walk with }⟩

section Stored

variable (digest : lib.sha256 data = hash) (namedHash : 16 ≤ hash.length)
  (named : ∀ row ∈ state.packages.rows, 16 ≤ row.1.length)
  (enoughDisk : diskShort (.healthy freeSpace) data.length state = false)

include digest namedHash named enoughDisk

theorem firstEvicted_of_restores (full : ¬ Fits data.length state)
    (restores : Restores lib (.healthy freeSpace) pendingPath data hash filename state) :
    firstEvicted (.healthy freeSpace) state = some hash := by
  obtain ⟨walked, left, evicted, whole, walk⟩ := exists_walk_of_put pendingPath enoughDisk named
  have succeeded := ensureSpace_ok_of_put_ok restores.succeeds
  have fitted := (ensureSpace_writeOutside_ok_iff pendingPath enoughDisk named).mp succeeded
  have evicts := walk.evicts
  cases removed : walked.filter fun row => removable (fun _ => false) state row.1 with
  | nil =>
    -- Without an eviction the bytes fit no better than before.
    rw [walk.currentSize_eq removed] at fitted
    exact absurd fitted full
  | cons first rest =>
    rw [removed] at evicts
    have isFirst : firstEvicted (.healthy freeSpace) state = some first.1 := by
      rw [firstEvicted_eq_head?, ← whole, filter_append, removed]
      rfl
    have isWalked : first ∈ walked := mem_of_mem_filter (removed ▸ mem_cons_self)
    by_contra notOwn
    have different : first.1 ≠ hash := fun same => notOwn (isFirst.trans (congrArg some same))
    have gone := (walk.gone first.1 (evicts ▸ mem_cons_self)).1
    obtain ⟨row, isRow, -⟩ := exists_of_mem_ranking (whole ▸ mem_append_left left isWalked)
    obtain ⟨after, stored, untouched, -⟩ := @put_of_room lib freeSpace state pendingPath data
      hash filename digest namedHash _ (Prod.ext succeeded rfl)
    have kept := restores.rows first.1 different (isSome_of_eq_some isRow)
    rw [stored, (untouched first.1 different).1, gone] at kept
    exact false_ne_true kept

theorem restores_of_fits (recorded : state.packages.find? hash = some row)
    (size : row.size = data.length) (fits : Fits data.length state) :
    Restores lib (.healthy freeSpace) pendingPath data hash filename state := by
  obtain ⟨walked, left, evicted, whole, walk⟩ := exists_walk_of_put pendingPath enoughDisk named
  obtain rfl := walk.walked_eq_nil fits
  obtain rfl : evicted = [] := walk.evicts
  have bytes := walk.currentSize_eq rfl
  have succeeded := (ensureSpace_writeOutside_ok_iff pendingPath enoughDisk named).mpr
    (by rw [bytes]; exact fits)
  refine restores_of_room digest namedHash (Prod.ext succeeded rfl)
    (fun other _ => walk.kept other not_mem_nil) ?_
  rw [columnAt, (walk.kept hash not_mem_nil).1, find?_flushAccess_healthy, recorded, bytes]
  simp [PackageRow.bytes, size, flushAccess]

theorem restores_of_firstEvicted (within : state.currentSize ≤ state.maxSize)
    (recorded : state.packages.find? hash = some row) (size : row.size = data.length)
    (full : ¬ Fits data.length state)
    (isFirst : firstEvicted (.healthy freeSpace) state = some hash) :
    Restores lib (.healthy freeSpace) pendingPath data hash filename state := by
  obtain ⟨walked, left, evicted, whole, walk⟩ := exists_walk_of_put pendingPath enoughDisk named
  rw [firstEvicted_eq_head?, map_eq_some_iff] at isFirst
  obtain ⟨first, isHead, isOwn⟩ := isFirst
  have sameBytes : first.2.bytes = data.length := by
    obtain ⟨own, isRow, sameSize⟩ := exists_of_mem_ranking
      (mem_of_mem_filter (mem_of_head? isHead))
    rw [isOwn, recorded] at isRow
    rw [PackageRow.bytes, sameSize, ← some.inj isRow, size]
  rw [← whole] at isHead
  have removed := walk.filter_eq_singleton within full isHead sameBytes
  have bytes := walk.bytes
  rw [removedBytes, removed, map_singleton, sum_singleton, sameBytes] at bytes
  have evicts := walk.evicts
  rw [removed, map_singleton, isOwn] at evicts
  have succeeded := (ensureSpace_writeOutside_ok_iff pendingPath enoughDisk named).mpr
    (by rw [bytes, Int64.ofInt_eq_ofNat, Int64.sub_add_cancel]; exact within)
  refine restores_of_room digest namedHash (Prod.ext succeeded rfl)
    (fun other different => walk.kept other (by simpa [evicts] using different)) ?_
  rw [columnAt, (walk.gone hash (evicts ▸ mem_singleton_self hash)).1, bytes]
  simp [flushAccess]

end Stored

/-- A package is stored again without harm iff its bytes fit a second time, or it is itself the
first to be evicted, and the disk is not short. -/
theorem restores_iff (within : state.currentSize ≤ state.maxSize)
    (digest : lib.sha256 data = hash) (recorded : state.packages.find? hash = some row)
    (size : row.size = data.length) (named : ∀ row ∈ state.packages.rows, 16 ≤ row.1.length) :
    Restores lib (.healthy freeSpace) pendingPath data hash filename state ↔
      diskShort (.healthy freeSpace) data.length state = false ∧
        (state.currentSize + .ofNat data.length ≤ state.maxSize ∨
          firstEvicted (.healthy freeSpace) state = some hash) := by
  have namedHash : 16 ≤ hash.length := named (hash, row) (find?_eq_some_iff.mp recorded)
  constructor
  · intro restores
    have succeeded := ensureSpace_ok_of_put_ok restores.succeeds
    have enoughDisk : diskShort (.healthy freeSpace) data.length state = false := by
      by_contra short
      rw [not_eq_false] at short
      have shortThere : diskShort (.healthy freeSpace) data.length
          (writeOutside pendingPath data state) = true := short
      simp [ensureSpace, shortThere] at succeeded
    exact ⟨enoughDisk, or_iff_not_imp_left.mpr fun full =>
      firstEvicted_of_restores digest namedHash named enoughDisk full restores⟩
  · rintro ⟨enoughDisk, fitsOrFirst⟩
    by_cases fits : Fits data.length state
    · exact restores_of_fits digest namedHash named enoughDisk recorded size fits
    · exact restores_of_firstEvicted digest namedHash named enoughDisk within recorded size fits
        (fitsOrFirst.resolve_left fits)

end Again

/-- A cache of a recent package of two bytes and a stale one of one byte. -/
def recentAndStale (maxSize : Int64) (recent stale : Str) (distinct : recent ≠ stale) : State :=
  State.opened 700000 maxSize 0
    ⟨[(recent, { staleRow 2 with lastAccessed := 699999 }), (stale, staleRow 1)],
      by simp [distinct]⟩
    (fun hash => if hash = recent then some [7, 8] else if hash = stale then some [9] else none)
    fun _ => none

/-- In a cache with five bytes to spare the recent package is stored again without harm. -/
theorem restores_of_recentAndStale :
    let lib : Libraries := { sha256 := hexEncode64, unicodeLower := id }
    let state := recentAndStale 8 (hexEncode64 [7, 8]) (hexEncode64 [9]) (by decide)
    Restores lib (.healthy none) (ofAscii "pending") [7, 8] (hexEncode64 [7, 8])
      (ofAscii "a.deb") state := by
  intro lib state
  have within : state.currentSize ≤ state.maxSize := by decide
  have recorded : state.packages.find? (hexEncode64 [7, 8]) =
      some { staleRow 2 with lastAccessed := 699999 } := by decide
  have named : ∀ row ∈ state.packages.rows, 16 ≤ row.1.length := by decide
  have fits : Fits ([7, 8] : Str).length state := by decide
  exact (restores_iff within rfl recorded rfl named).mpr ⟨rfl, .inl fits⟩

/-- With one byte to spare, the store of the recent package evicts the stale one. -/
theorem not_restores_of_recentAndStale :
    let lib : Libraries := { sha256 := hexEncode64, unicodeLower := id }
    let own := hexEncode64 [7, 8]
    let state := recentAndStale 4 own (hexEncode64 [9]) (by decide)
    let stored := put lib (.healthy none) (ofAscii "pending") [7, 8] own (ofAscii "a.deb") state
    state.currentSize ≤ state.maxSize ∧ state.files own = some [7, 8] ∧
      state.packages.find? own = some { staleRow 2 with lastAccessed := 699999 } ∧
      (state.packages.find? (hexEncode64 [9])).isSome ∧ stored.1 = .ok ∧
      stored.2.packages.find? (hexEncode64 [9]) = none ∧ stored.2.currentSize = 2 ∧
      ¬ Restores lib (.healthy none) (ofAscii "pending") [7, 8] own (ofAscii "a.deb") state := by
  intro lib own state stored
  have isRow : (state.packages.find? (hexEncode64 [9])).isSome := by decide
  have gone : stored.2.packages.find? (hexEncode64 [9]) = none := by decide +kernel
  have different : hexEncode64 [9] ≠ own := by decide
  refine ⟨by decide, by decide, by decide, isRow, by decide +kernel, gone, by decide +kernel,
    fun restores => ?_⟩
  have kept := restores.rows (hexEncode64 [9]) different isRow
  rw [show put lib (.healthy none) (ofAscii "pending") [7, 8] own (ofAscii "a.deb") state = stored
    from rfl, gone] at kept
  exact false_ne_true kept

end Debswarm.Cache
