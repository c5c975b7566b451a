import Debswarm.Cache.Accounting
import Debswarm.Cache.Contents
import Debswarm.Cache.Room

/-!
# The walk over the eviction ranking

A store that needs room ranks the rows that may be evicted by their score and walks down the
ranking.  It evicts every package on its way that can be removed, and passes over those that
are read or whose file cannot be removed.  It stops as soon as the bytes fit, so the last
eviction was needed, and it fails if the end of the ranking comes first.  All of this is in
`int64` arithmetic, and true of the numbers themselves as long as the tracked size and the
needed bytes have a sum in its range.
-/

namespace Debswarm.Cache

open List Text Transition

/-- The rows that may be evicted, in eviction order. -/
def ranking (state : State) : List (Str × PackageRow) :=
  state.packages.select (fun row => evictable state row.2) PackageRow.EvictedBefore

/-- The size of a ranked row, as the eviction pass is told it. -/
def ranked (row : Str × PackageRow) : Str × Nat :=
  (row.1, row.2.size)

def removedBytes (removable : Str → Bool) (rows : List (Str × PackageRow)) : Int :=
  ((rows.filter fun row => removable row.1).map fun row => row.2.bytes).sum

@[simp]
theorem ofInt_zero : Int64.ofInt 0 = 0 :=
  rfl

@[simp]
theorem removedBytes_nil (removable : Str → Bool) : removedBytes removable [] = 0 :=
  rfl

@[simp]
theorem removedBytes_append (removable : Str → Bool) (front rest : List (Str × PackageRow)) :
    removedBytes removable (front ++ rest) =
      removedBytes removable front + removedBytes removable rest := by
  simp only [removedBytes, filter_append, map_append, sum_append]

/-- A walk over ranked rows evicts what can be removed, and nothing else. -/
structure Clears (removable : Str → Bool) (before after : State)
    (walked : List (Str × PackageRow)) (evicted : List Str) : Prop where
  evicts : evicted = (walked.filter fun row => removable row.1).map Prod.fst
  gone : ∀ hash ∈ evicted, after.packages.find? hash = none ∧ after.files hash = none
  kept : ∀ hash, hash ∉ evicted → after.packages.find? hash = before.packages.find? hash ∧
    after.files hash = before.files hash

/-- Such a walk goes on until the needed bytes fit, or the ranking ends. -/
structure Walk (removable : Str → Bool) (needed : Nat) (before after : State)
    (walked left : List (Str × PackageRow)) (evicted : List Str) : Prop
    extends Clears removable before after walked evicted where
  bytes : after.currentSize.toInt = before.currentSize.toInt - removedBytes removable walked
  full : ∀ front row rest, walked = front ++ row :: rest →
    before.maxSize.toInt < before.currentSize.toInt - removedBytes removable front + needed
  stops : after.currentSize.toInt + needed ≤ before.maxSize.toInt ∨ left = []
  last : ∀ front row, (walked.filter fun row => removable row.1) = front ++ [row] →
    before.maxSize.toInt < after.currentSize.toInt + row.2.bytes + needed

/-- The walk in the arithmetic of the code, where sums wrap around. -/
structure WrappingWalk (removable : Str → Bool) (needed : Nat) (before after : State)
    (walked left : List (Str × PackageRow)) (evicted : List Str) : Prop
    extends Clears removable before after walked evicted where
  bytes : after.currentSize = before.currentSize - .ofInt (removedBytes removable walked)
  full : ∀ front row rest, walked = front ++ row :: rest →
    before.maxSize < before.currentSize - .ofInt (removedBytes removable front) + .ofNat needed
  stops : after.currentSize + .ofNat needed ≤ before.maxSize ∨ left = []

/-! ## The ranking -/

theorem ranking_perm (state : State) :
    (ranking state).Perm (state.packages.rows.filter fun row => evictable state row.2) :=
  Table.select_perm _ _ _

theorem ranking_pairwise (state : State) :
    (ranking state).Pairwise fun first second => first.2.score ≤ second.2.score := by
  have total : Std.Total fun first second : Str × PackageRow =>
      first.2.EvictedBefore second.2 := ⟨fun first second => le_total first.2.score second.2.score⟩
  have trans : IsTrans (Str × PackageRow) fun first second =>
      first.2.EvictedBefore second.2 :=
    ⟨fun first second third => @le_trans Int _ first.2.score second.2.score third.2.score⟩
  exact pairwise_insertionSort _ _

theorem candidates_eq (state : State) : candidates state = (ranking state).map ranked :=
  rfl

/-! ## The walk -/

variable {needed : Nat} {state : State}

/-- Whether a package has no readers and its file can be removed. -/
def removable (fails : Str → Bool) (state : State) (hash : Str) : Bool :=
  state.activeReaders hash = 0 && !fails hash

/-- Only the removal of files fails, and the operating system reports some free space. -/
def Faults.ofRemovals (freeSpace : Option Int) (fails : Str → Bool) : Faults :=
  { freeSpace, remove := fails }

section Removals

variable {freeSpace : Option Int} {fails : Str → Bool}

theorem deletable_ofRemovals (hash : Str) :
    deletable (.ofRemovals freeSpace fails) state hash = removable fails state hash :=
  Bool.and_true _

theorem freeableBytes_ofRemovals (rows : List (Str × PackageRow)) :
    freeableBytes (.ofRemovals freeSpace fails) state (rows.map ranked) =
      removedBytes (removable fails state) rows := by
  unfold freeableBytes removedBytes
  simp only [deletable_ofRemovals, filter_map, map_map]
  rfl

theorem removedBytes_of_filter_eq {can : Str → Bool} {walked front : List (Str × PackageRow)}
    {row : Str × PackageRow} (removed : (walked.filter fun row => can row.1) = front ++ [row]) :
    ∃ ahead behind, walked = ahead ++ row :: behind ∧
      removedBytes can walked = removedBytes can ahead + row.2.bytes := by
  obtain ⟨ahead, rest, rfl, -, lastRemoved⟩ := filter_eq_append_iff.mp removed
  obtain ⟨passed, behind, rfl, unremovable, isRemovable, noneBehind⟩ :=
    filter_eq_cons_iff.mp lastRemoved
  refine ⟨ahead ++ passed, behind, by simp, ?_⟩
  simp only [removedBytes, filter_append, filter_cons, isRemovable, if_true, noneBehind,
    map_append, map_cons, map_nil, sum_append, sum_cons, sum_nil]
  ring

theorem mem_map_filter_iff {can : Str → Bool} {walked : List (Str × PackageRow)} {hash : Str} :
    hash ∈ (walked.filter fun row => can row.1).map Prod.fst ↔
      (walked.map ranked).any (fun entry => entry.1 = hash) = true ∧ can hash = true := by
  simp only [mem_map, mem_filter, any_map, any_eq_true, Function.comp_apply]
  constructor
  · rintro ⟨row, ⟨mem, isRemovable⟩, rfl⟩
    exact ⟨⟨row, mem, decide_eq_true rfl⟩, isRemovable⟩
  · rintro ⟨⟨row, mem, isHash⟩, isRemovable⟩
    obtain rfl : row.1 = hash := of_decide_eq_true isHash
    exact ⟨row, ⟨mem, isRemovable⟩, rfl⟩

theorem walk_of_drained {before : State} {walked left : List (Str × PackageRow)}
    (whole : walked ++ left = ranking before)
    (acted : drained (Fits needed) (attempt (.ofRemovals freeSpace fails)) (candidates before)
      before = walked.map ranked) :
    WrappingWalk (removable fails before) needed before
      (drain (Fits needed) (attempt (.ofRemovals freeSpace fails)) (candidates before) before)
      walked left ((walked.filter fun row => removable fails before row.1).map Prod.fst) := by
  have fitsIff : ∀ rows : List (Str × PackageRow),
      Fits needed ((rows.map ranked).foldl (attempt (.ofRemovals freeSpace fails)) before) ↔
        before.currentSize - .ofInt (removedBytes (removable fails before) rows) + .ofNat needed ≤
          before.maxSize := by
    intro rows
    rw [Fits, foldl_attempt_maxSize, foldl_attempt_currentSize, freeableBytes_ofRemovals]
  have full : ∀ front row rest, walked = front ++ row :: rest → before.maxSize <
      before.currentSize - .ofInt (removedBytes (removable fails before) front) +
        .ofNat needed := by
    intro front row rest split
    rw [split, map_append, map_cons] at acted
    have unmet := not_goal_of_drained_eq (Fits needed) _ acted
    rw [fitsIff] at unmet
    exact Int64.not_le.mp unmet
  have ended := goal_drain_or_drained_eq (Fits needed) (attempt (.ofRemovals freeSpace fails))
    (candidates before) before
  rw [drain_eq_foldl, acted] at ended ⊢
  have bytes : ((walked.map ranked).foldl (attempt (.ofRemovals freeSpace fails))
      before).currentSize =
        before.currentSize - .ofInt (removedBytes (removable fails before) walked) := by
    rw [foldl_attempt_currentSize, freeableBytes_ofRemovals]
  have canIff : ∀ hash, removable fails before hash = true ↔ before.activeReaders hash = 0 ∧
      (Faults.ofRemovals freeSpace fails).remove hash = false := by
    simp [removable, Faults.ofRemovals]
  refine ⟨⟨rfl, fun hash mem => ?_, fun hash notMem => ?_⟩, bytes, full, ?_⟩
  · obtain ⟨isActed, can⟩ := mem_map_filter_iff.mp mem
    rw [foldl_attempt_find?, foldl_attempt_files, deletable_ofRemovals, if_pos ⟨isActed, can⟩,
      if_pos ⟨isActed, (canIff hash).mp can⟩]
    exact ⟨rfl, rfl⟩
  · rw [mem_map_filter_iff] at notMem
    rw [foldl_attempt_find?, foldl_attempt_files, deletable_ofRemovals, if_neg notMem,
      if_neg fun isActed => notMem ⟨isActed.1, (canIff hash).mpr isActed.2⟩]
    exact ⟨rfl, rfl⟩
  · rcases ended with fits | all
    · rw [bytes]
      exact .inl ((fitsIff walked).mp fits)
    · right
      rw [candidates_eq, ← whole, map_append] at all
      exact map_eq_nil_iff.mp (self_eq_append_right.mp all)

/-- Making room is a walk over the ranking of the rows that may be evicted. -/
theorem exists_walk (enoughDisk : diskShort (.ofRemovals freeSpace fails) needed state = false)
    (named : ∀ row ∈ state.packages.rows, 16 ≤ row.1.length) :
    ∃ walked left, walked ++ left = ranking (flushAccess (.ofRemovals freeSpace fails) state) ∧
      WrappingWalk (removable fails state) needed (flushAccess (.ofRemovals freeSpace fails) state)
        (ensureSpace (.ofRemovals freeSpace fails) needed state).2 walked left
        (evictionPass (.ofRemovals freeSpace fails) needed state).evicted := by
  have quiet := @evictionPass_fault_eq_none state (.ofRemovals freeSpace fails) needed named
  have allListed : ∀ before, listed (.ofRemovals freeSpace fails) before = candidates before :=
    fun _ => rfl
  obtain ⟨left, isPrefix⟩ := drained_isPrefix (Fits needed)
    (attempt (.ofRemovals freeSpace fails))
    (candidates (flushAccess (.ofRemovals freeSpace fails) state))
    (flushAccess (.ofRemovals freeSpace fails) state)
  obtain ⟨walked, rest, whole, (acted : walked.map ranked = _), -⟩ :=
    map_eq_append_iff.mp isPrefix.symm
  have walk := walk_of_drained whole.symm acted.symm
  have evicted : ((walked.map ranked).filter fun entry =>
      deletable (.ofRemovals freeSpace fails) state entry.1).map Prod.fst =
        (walked.filter fun row => removable fails state row.1).map Prod.fst := by
    simp only [deletable_ofRemovals, filter_map, map_map]
    rfl
  refine ⟨walked, rest, whole.symm, ?_⟩
  rw [ensureSpace_state, evictionPass_eq_drain enoughDisk quiet, allListed, ← acted, evicted]
  exact walk

/-! ## The walk in exact numbers -/

theorem removedBytes_nonneg (can : Str → Bool) (rows : List (Str × PackageRow)) :
    0 ≤ removedBytes can rows := by
  apply sum_nonneg
  intro value mem
  obtain ⟨row, -, rfl⟩ := mem_map.mp mem
  exact row.2.bytes_nonneg

theorem removedBytes_le_rowBytes (can : Str → Bool) {rows : List (Str × PackageRow)}
    (isPrefix : rows <+: ranking state) : removedBytes can rows ≤ state.rowBytes := by
  have nonneg : ∀ value ∈ state.packages.rows.map (fun row => row.2.bytes), (0 : Int) ≤ value := by
    intro value mem
    obtain ⟨row, -, rfl⟩ := mem_map.mp mem
    exact row.2.bytes_nonneg
  have among : (rows.filter fun row => can row.1) <+ ranking state :=
    filter_sublist.trans isPrefix.sublist
  have ranked := (ranking_perm state).map fun row => row.2.bytes
  have selected := (filter_sublist (p := fun row => evictable state row.2)
    (l := state.packages.rows)).map fun row => row.2.bytes
  calc
    removedBytes can rows ≤ ((ranking state).map fun row => row.2.bytes).sum :=
      (among.map _).sum_le_sum fun value mem =>
        nonneg value (selected.subset (ranked.subset mem))
    _ = _ := ranked.sum_eq
    _ ≤ state.rowBytes := selected.sum_le_sum nonneg

section Exact

variable {before after : State} {can : Str → Bool} {walked left : List (Str × PackageRow)}
  {evicted : List Str}

/-- Without wrapping around, the bytes left after an eviction are what they should be. -/
theorem toInt_sub_add (tracked : before.currentSize.toInt = before.rowBytes)
    (bounded : before.currentSize.toInt + needed < 2 ^ 63) {rows : List (Str × PackageRow)}
    (isPrefix : rows <+: ranking before) :
    (before.currentSize - .ofInt (removedBytes can rows) + .ofNat needed).toInt =
      before.currentSize.toInt - removedBytes can rows + needed := by
  have nonneg := removedBytes_nonneg can rows
  have most := removedBytes_le_rowBytes can isPrefix
  have exactly : before.currentSize - .ofInt (removedBytes can rows) + .ofNat needed =
      .ofInt (before.currentSize.toInt - removedBytes can rows + needed) := by
    rw [Int64.ofInt_add, Int64.ofInt_sub, Int64.ofInt_toInt, Int64.ofInt_eq_ofNat]
  rw [exactly, Int64.toInt_ofInt_of_le (by omega) (by omega)]

/-- A walk that does not wrap around is one in exact numbers. -/
theorem WrappingWalk.exact (walk : WrappingWalk can needed before after walked left evicted)
    (whole : walked ++ left = ranking before)
    (tracked : before.currentSize.toInt = before.rowBytes)
    (bounded : before.currentSize.toInt + needed < 2 ^ 63) :
    Walk can needed before after walked left evicted := by
  have isPrefix : walked <+: ranking before := ⟨left, whole⟩
  have exactly : ∀ {rows}, rows <+: ranking before → _ :=
    @toInt_sub_add needed before can tracked bounded
  have bytes : after.currentSize.toInt =
      before.currentSize.toInt - removedBytes can walked := by
    have most := removedBytes_le_rowBytes can isPrefix
    have nonneg := removedBytes_nonneg can walked
    have exactly : before.currentSize - .ofInt (removedBytes can walked) =
        .ofInt (before.currentSize.toInt - removedBytes can walked) := by
      rw [Int64.ofInt_sub, Int64.ofInt_toInt]
    rw [walk.bytes, exactly, Int64.toInt_ofInt_of_le (by omega) (by omega)]
  have full : ∀ front row rest, walked = front ++ row :: rest →
      before.maxSize.toInt < before.currentSize.toInt - removedBytes can front + needed := by
    intro front row rest split
    rw [← exactly ((prefix_append front (row :: rest)).trans (split ▸ isPrefix)),
      ← Int64.lt_iff_toInt_lt]
    exact walk.full front row rest split
  refine ⟨walk.toClears, bytes, full, ?_, fun front row removed => ?_⟩
  · rw [bytes, ← exactly isPrefix, ← walk.bytes, ← Int64.le_iff_toInt_le]
    exact walk.stops
  · obtain ⟨ahead, behind, split, sum⟩ := removedBytes_of_filter_eq removed
    have fullThen := full ahead row behind split
    rw [bytes, sum]
    omega

end Exact

/-- Making room walks down the unpinned rows last accessed more than seven days ago by score, and
fails exactly when all that can be removed are not enough. -/
def WalksRanking (freeSpace : Option Int) (fails : Str → Bool) (needed : Nat) (state : State) :
    Prop :=
  let faults := Faults.ofRemovals freeSpace fails
  let flushed := flushAccess faults state
  ∃ walked left evicted,
    (walked ++ left).Perm (flushed.packages.rows.filter fun row =>
      row.2.lastAccessed < state.clock - 7 * 24 * 3600 && !row.2.pinned) ∧
    ((walked ++ left).Pairwise fun first second =>
      first.2.lastAccessed + (86400 * first.2.accessCount : Int) ≤
        second.2.lastAccessed + (86400 * second.2.accessCount : Int)) ∧
    Walk (removable fails state) needed flushed (ensureSpace faults needed state).2 walked left
      evicted ∧
    ((ensureSpace faults needed state).1 = .ok ∨
      (ensureSpace faults needed state).1 = .error .cacheFull) ∧
    ((ensureSpace faults needed state).1 = .error .cacheFull ↔
      state.maxSize.toInt < state.currentSize.toInt -
        removedBytes (removable fails state) (walked ++ left) + needed)

theorem fits_of_wraps (limit : 0 ≤ state.maxSize) (nonneg : 0 ≤ state.currentSize)
    (small : needed < 2 ^ 63) (wraps : 2 ^ 63 ≤ state.currentSize.toInt + needed) :
    Fits needed state := by
  rw [Int64.le_iff_toInt_le, Int64.toInt_zero] at limit nonneg
  have below := state.currentSize.toInt_lt
  have shifted : state.currentSize + .ofNat needed =
      .ofInt (state.currentSize.toInt + needed - 2 ^ 64) := by
    rw [Int64.ofInt_sub, Int64.ofInt_add, Int64.ofInt_toInt, Int64.ofInt_eq_ofNat,
      show Int64.ofInt (2 ^ 64) = 0 by decide]
    grind
  rw [Fits, Int64.le_iff_toInt_le, shifted, Int64.toInt_ofInt_of_le (by omega) (by omega)]
  omega

theorem ensureSpace_of_fits {faults : Faults}
    (enoughDisk : diskShort faults needed state = false) (fits : Fits needed state) :
    ensureSpace faults needed state = (.ok, flushAccess faults state) := by
  have fitsStill : Fits needed (flushAccess faults state) := fits
  have enoughStill : diskShort faults needed (flushAccess faults state) = false := enoughDisk
  simp [ensureSpace, evictionPass, enoughDisk, enoughStill, fitsStill]

section Claim

variable (enoughDisk : diskShort (.ofRemovals freeSpace fails) needed state = false)

include enoughDisk

theorem not_walksRanking_of_wraps (limit : 0 ≤ state.maxSize) (nonneg : 0 ≤ state.currentSize)
    (small : needed < 2 ^ 63) (wraps : 2 ^ 63 ≤ state.currentSize.toInt + needed) :
    ¬ WalksRanking freeSpace fails needed state := by
  rintro ⟨walked, left, evicted, -, -, walk, -, fullIff⟩
  have room := ensureSpace_of_fits enoughDisk (fits_of_wraps limit nonneg small wraps)
  have beyond := state.maxSize.toInt_lt
  have bytes := walk.bytes
  have stops := walk.stops
  rw [room] at bytes stops fullIff
  dsimp only [flushAccess] at bytes stops
  rcases stops with fits | rfl
  · omega
  · rw [append_nil] at fullIff
    have notFull := fullIff.not.mp Outcome.noConfusion
    omega

theorem walksRanking_of_bounded (named : ∀ row ∈ state.packages.rows, 16 ≤ row.1.length)
    (tracked : state.currentSize.toInt = state.rowBytes)
    (bounded : state.currentSize.toInt + needed < 2 ^ 63) :
    WalksRanking freeSpace fails needed state := by
  have quiet := @evictionPass_fault_eq_none state (.ofRemovals freeSpace fails) needed named
  have outcome := ensureSpace_outcome enoughDisk quiet
  obtain ⟨walked, left, whole, wrapping⟩ := exists_walk enoughDisk named
  have trackedStill : (flushAccess (.ofRemovals freeSpace fails) state).currentSize.toInt =
      (flushAccess (.ofRemovals freeSpace fails) state).rowBytes :=
    tracked.trans (rowBytes_flushAccess _ state).symm
  have walk := wrapping.exact whole trackedStill bounded
  have nonneg := removedBytes_nonneg (removable fails state) left
  refine ⟨walked, left, _, ?_, ?_, walk, ?_, ?_⟩
  · rw [whole]
    exact ranking_perm _
  · rw [whole]
    refine (ranking_pairwise _).imp fun {first second} ordered => ?_
    unfold PackageRow.score at ordered
    omega
  · rw [outcome]
    split
    · exact .inl rfl
    · exact .inr rfl
  · have ended := ensureSpace_ok_iff_within enoughDisk quiet
    rw [wrapping.bytes, Int64.le_iff_toInt_le,
      toInt_sub_add trackedStill bounded ⟨left, whole⟩] at ended
    have full : (ensureSpace (.ofRemovals freeSpace fails) needed state).1 = .error .cacheFull ↔
        ¬ (ensureSpace (.ofRemovals freeSpace fails) needed state).1 = .ok := by
      rw [outcome]
      split <;> simp [Faults.ofRemovals]
    dsimp only [flushAccess] at ended
    rw [full, ended, not_le, removedBytes_append]
    constructor
    · intro short
      have endReached := walk.stops.resolve_left fun fits => by
        rw [walk.bytes] at fits
        exact absurd fits (not_le.mpr short)
      rw [endReached, removedBytes_nil]
      omega
    · intro short
      omega

end Claim

/-- With enough disk and a limit that is not negative, making room walks down the ranking iff the
tracked size and the needed bytes have a sum in the range of `int64`. -/
theorem ensureSpace_walks_iff (state : State) (freeSpace : Option Int) (fails : Str → Bool)
    (needed : Nat) (small : needed < 2 ^ 63) (limit : 0 ≤ state.maxSize)
    (tracked : state.currentSize.toInt = state.rowBytes)
    (enoughDisk : diskShort (.ofRemovals freeSpace fails) needed state = false)
    (named : ∀ row ∈ state.packages.rows, 16 ≤ row.1.length) :
    WalksRanking freeSpace fails needed state ↔ state.currentSize.toInt + needed < 2 ^ 63 := by
  have nonneg : 0 ≤ state.currentSize := by
    rw [Int64.le_iff_toInt_le, tracked]
    exact state.rowBytes_nonneg
  constructor
  · intro walks
    by_contra wraps
    exact not_walksRanking_of_wraps enoughDisk limit nonneg small (not_lt.mp wraps) walks
  · exact walksRanking_of_bounded enoughDisk named tracked

end Removals

/-- A row of some bytes that was stored at the beginning of time and accessed once. -/
def staleRow (size : Nat) : PackageRow where
  size := size
  filename := []
  addedAt := 0
  lastAccessed := 0
  accessCount := 1
  announced := 0
  packageName := []
  packageVersion := []
  architecture := []
  pinned := false

/-- Of two stale packages the first one cannot be removed, and the walk goes on to the
second. -/
theorem ensureSpace_walks_past_stuck :
    let stuck := hexEncode64 [1]
    let state := State.opened 700000 4 0
      ⟨[(stuck, staleRow 2), (hexEncode64 [2], staleRow 2)], by decide⟩
      (fun _ => some [0, 0]) fun _ => none
    let fails := fun hash : Str => decide (hash = stuck)
    (ensureSpace (.ofRemovals none fails) 2 state).1 = .ok ∧ WalksRanking none fails 2 state := by
  intro stuck state fails
  have enoughDisk : diskShort (.ofRemovals none fails) 2 state = false := by decide
  have named : ∀ row ∈ state.packages.rows, 16 ≤ row.1.length := by decide
  exact ⟨by decide, (ensureSpace_walks_iff state none fails 2 (by decide) (by decide) (by decide)
    enoughDisk named).mpr (by decide)⟩

/-- A request of the largest size next to one stale byte is granted although nothing is evicted. -/
theorem not_walksRanking_of_largest :
    let state := State.opened 700000 4 0 ⟨[(hexEncode64 [1], staleRow 1)], by decide⟩
      (fun _ => some [0]) fun _ => none
    let fails := fun _ : Str => false
    (ensureSpace (.ofRemovals none fails) (2 ^ 63 - 1) state).1 = .ok ∧
      (evictionPass (.ofRemovals none fails) (2 ^ 63 - 1) state).evicted = [] ∧
      ¬ WalksRanking none fails (2 ^ 63 - 1) state := by
  intro state fails
  exact ⟨by decide, by decide, not_walksRanking_of_wraps (by decide) (by decide) (by decide)
    (by decide) (by decide)⟩

end Debswarm.Cache
