import Debswarm.Cache.Turns

/-!
# The readers of a package, counted

However gets, closes, deletions and stores interleave, the count of a hash is the number of its
returned readers that have not given the count back and of the gets that hold one.  A deletion
or an eviction that is about to remove a file has read a count of zero, and holds the write lock,
so no get can have counted since: a file is only removed while nobody reads it.
-/

namespace Debswarm.Cache.Calls

open Function List Sync Text Transition

/-! ## The counts are exact -/

section Counts

variable (activeReaders : Str → Int) (hash other : Str)

theorem addReader_apply :
    addReader hash activeReaders other = activeReaders other + (decide (hash = other)).toNat := by
  by_cases same : hash = other
  · subst same
    simp [addReader]
  · simp [addReader, update_of_ne (Ne.symm same), same]

theorem dropReader_apply (positive : 0 < activeReaders hash) :
    dropReader hash activeReaders other =
      activeReaders other - (decide (hash = other)).toNat := by
  by_cases same : hash = other
  · subst same
    simp only [dropReader, update_self, decide_true, Bool.toNat_true]
    split <;> omega
  · simp [dropReader, update_of_ne (Ne.symm same), same]

theorem dropReader_eq_zero (zero : activeReaders other = 0) :
    dropReader hash activeReaders other = 0 := by
  by_cases same : hash = other
  · subst same
    simp [dropReader, zero]
  · rw [dropReader, update_of_ne (Ne.symm same), zero]

end Counts

/-- The lock covers what calls hold, counts are exact, and what is to be removed is not read. -/
structure Sound (world : World) : Prop where
  covers : world.mu.Covers (modesOf Phase.mode world.calls)
  exact : ∀ hash, world.activeReaders hash = world.openReaders hash + world.countedGets hash
  clear : ∀ (call : Nat) (phase : Phase) (hash : Str), world.calls[call]? = some phase →
    phase.unlinks? = some hash → world.activeReaders hash = 0

section Steps

variable {world after : World}

section

variable (sound : Sound world)

include sound

theorem covers_set {call : Nat} {old new : Phase} {mu : RWLock Nat}
    (found : world.calls[call]? = some old) (moves : world.mu.Moves call old.mode new.mode mu) :
    mu.Covers (modesOf Phase.mode (world.calls.set call new)) := by
  rw [modesOf_set found]
  exact sound.covers.moves (modesOf_eq found) moves

theorem covers_turn (turn : Turn world after) :
    after.mu.Covers (modesOf Phase.mode after.calls) := by
  cases turn with
  | begins cache phase keeps isFree =>
    rw [modesOf_concat isFree]
    exact sound.covers
  | goesOn call old new cache mu found moves => exact covers_set sound found moves
  | counts call hash content found | undoes call hash failure found =>
    exact covers_set sound found (.stays .read)
  | returns call hash content row found => exact covers_set sound found (.stays .free)
  | _ => exact sound.covers

theorem positive_of_counted {call : Nat} {phase : Phase} {hash : Str}
    (found : world.calls[call]? = some phase) (counted : phase.counted? = some hash) :
    0 < world.activeReaders hash := by
  have holds : 0 < world.countedGets hash :=
    countP_pos_iff.mpr ⟨phase, mem_of_getElem? found, by
      simp [Phase.countsFor, counted]⟩
  have exact := sound.exact hash
  omega

theorem positive_of_open {id : Nat} {reader : Reader}
    (returned : world.readers[id]? = some reader) (isOpen : reader.closing ≠ .released) :
    0 < world.activeReaders reader.hash := by
  have holds : 0 < world.openReaders reader.hash :=
    countP_pos_iff.mpr ⟨reader, mem_of_getElem? returned, by
      simp [Reader.countsFor, isOpen]⟩
  have exact := sound.exact reader.hash
  omega

/-- Each count changes as the readers and the gets it counts do. -/
theorem exact_turn (turn : Turn world after) (other : Str) :
    after.activeReaders other = after.openReaders other + after.countedGets other := by
  have exact := sound.exact other
  simp only [World.openReaders, World.countedGets] at exact ⊢
  cases turn with
  | tends => exact exact
  | begins cache phase keeps isFree uncounted =>
    have calls := countP_concat (Phase.countsFor other) world.calls phase
    simp only [Phase.countsFor, uncounted, reduceCtorEq, decide_false, Bool.toNat_false] at calls
    dsimp only
    omega
  | goesOn call old new cache mu found moves sameCount =>
    have calls := countP_set_add found new (Phase.countsFor other)
    rw [Phase.countsFor, Phase.countsFor, sameCount] at calls
    dsimp only
    omega
  | counts call hash content found =>
    have calls := countP_set_add found (.counted hash content) (Phase.countsFor other)
    simp [Phase.countsFor, Phase.counted?] at calls
    dsimp only
    rw [addReader_apply]
    omega
  | undoes call hash failure found =>
    have calls := countP_set_add found (.leaving hash (.error failure)) (Phase.countsFor other)
    simp [Phase.countsFor, Phase.counted?] at calls
    dsimp only
    rw [dropReader_apply _ _ _ (positive_of_counted sound found rfl)]
    omega
  | returns call hash content row found =>
    -- the count goes from the get to the reader it returns
    have calls := countP_set_add found .returned (Phase.countsFor other)
    have readers := countP_concat (Reader.countsFor other) world.readers ⟨hash, content, .open⟩
    simp [Phase.countsFor, Phase.counted?] at calls
    simp only [Reader.countsFor, ne_eq, reduceCtorEq, not_false_eq_true, decide_true,
      Bool.and_true] at readers
    dsimp only
    omega
  | closes id hash content returned =>
    have readers := countP_set_add returned ⟨hash, content, .begun⟩ (Reader.countsFor other)
    simp [Reader.countsFor] at readers
    dsimp only
    omega
  | releases id hash content returned =>
    have readers := countP_set_add returned ⟨hash, content, .released⟩ (Reader.countsFor other)
    simp [Reader.countsFor] at readers
    have positive := positive_of_open sound returned (by simp)
    dsimp only at positive ⊢
    rw [dropReader_apply _ _ _ positive]
    omega

/-- What a call is about to remove stays unread: to count, a get would have to hold the lock. -/
theorem clear_turn (turn : Turn world after) {remover : Nat} {phase : Phase}
    {hash : Str} (found : after.calls[remover]? = some phase)
    (unlinks : phase.unlinks? = some hash) : after.activeReaders hash = 0 := by
  cases turn with
  | begins cache begun keeps isFree =>
    obtain rfl | found := getElem?_concat_cases found
    · rw [Phase.mode_of_unlinks? unlinks] at isFree
      cases isFree
    · exact sound.clear remover phase hash found unlinks
  | goesOn call old new cache mu was moves sameCount clear =>
    obtain ⟨_, rfl⟩ | ⟨_, found⟩ := getElem?_set_cases found
    · have exact := sound.exact hash
      have notPositive := clear hash unlinks
      dsimp only
      omega
    · exact sound.clear remover phase hash found unlinks
  | counts call counted content was =>
    obtain ⟨_, rfl⟩ | ⟨_, found⟩ := getElem?_set_cases found
    · cases unlinks
    · have writes : modesOf Phase.mode world.calls remover = .write :=
        (modesOf_eq found).trans (Phase.mode_of_unlinks? unlinks)
      exact absurd (modesOf_eq was) (sound.covers.not_read writes call)
  | undoes call dropped failure was =>
    obtain ⟨_, rfl⟩ | ⟨_, found⟩ := getElem?_set_cases found
    · cases unlinks
    · exact dropReader_eq_zero _ _ _ (sound.clear remover phase hash found unlinks)
  | returns call =>
    obtain ⟨_, rfl⟩ | ⟨_, found⟩ := getElem?_set_cases found
    · cases unlinks
    · exact sound.clear remover phase hash found unlinks
  | releases =>
    exact dropReader_eq_zero _ _ _ (sound.clear remover phase hash found unlinks)
  | _ => exact sound.clear remover phase hash found unlinks

end

/-- A file that is gone after an event was removed by a call that was about to do so. -/
theorem unlinks_of_turn (turn : Turn world after) {hash : Str}
    (present : (world.cache.files hash).isSome) (gone : after.cache.files hash = none) :
    ∃ (call : Nat) (phase : Phase), world.calls[call]? = some phase ∧
      phase.unlinks? = some hash := by
  have notKept : ∀ except cache, KeepsFiles except world.cache cache →
      cache.files hash = none → except = some hash := by
    intro except cache keeps gone
    by_contra differ
    have kept := keeps hash differ present
    rw [gone] at kept
    cases kept
  cases turn with
  | tends cache keeps | begins cache phase keeps => cases notKept _ _ keeps gone
  | goesOn call old new cache mu found moves sameCount clear keeps =>
    exact ⟨call, old, found, notKept _ _ keeps gone⟩
  | _ =>
    rw [gone] at present
    cases present

end Steps

/-! ## Runs -/

theorem sound_run (lib : Libraries) (cache : State) (events : List Event) :
    Sound (run (next lib) (World.opened cache) events) := by
  refine run_invariant Sound (fun world event sound => ?_) ?_ events
  · have turn := @turn_next world lib event
    exact ⟨covers_turn sound turn, exact_turn sound turn,
      fun _ _ _ found unlinks => clear_turn sound turn found unlinks⟩
  · exact ⟨RWLock.covers_unlocked, fun _ => rfl, fun _ _ _ found => by
      simp [World.opened] at found⟩

/-- An event removes a package file: it is there before, and gone afterwards. -/
def Unlinks (lib : Libraries) (hash : Str) (world : World) (event : Event) : Prop :=
  (world.cache.files hash).isSome ∧ (next lib world event).cache.files hash = none

/-- The count of a hash is the number of its open readers and of the gets that have counted
themselves, and no event removes the file while it is positive. -/
theorem activeReaders_exact (lib : Libraries) (cache : State) (events : List Event) (hash : Str) :
    (run (next lib) (World.opened cache) events).activeReaders hash =
        (run (next lib) (World.opened cache) events).openReaders hash +
          (run (next lib) (World.opened cache) events).countedGets hash ∧
      0 ≤ (run (next lib) (World.opened cache) events).activeReaders hash ∧
      ∀ event, Unlinks lib hash (run (next lib) (World.opened cache) events) event →
        ¬ 0 < (run (next lib) (World.opened cache) events).activeReaders hash := by
  have sound := sound_run lib cache events
  have exact := sound.exact hash
  refine ⟨exact, by omega, ?_⟩
  rintro event ⟨present, gone⟩ positive
  obtain ⟨call, phase, found, unlinks⟩ := unlinks_of_turn (turn_next lib event) present gone
  rw [sound.clear call phase hash found unlinks] at positive
  exact lt_irrefl 0 positive

/-- A deletion is refused while the reader is open, and another one succeeds after the close. -/
theorem activeReaders_exact_of_read_and_deleted :
    let lib : Libraries := { sha256 := hexEncode64, unicodeLower := id }
    let own := hexEncode64 [7, 8]
    let cache := State.opened 0 9 0 Table.empty (fun _ => none) fun _ => none
    let reading : List Event := [.put {} (ofAscii "pending") [7, 8] own (ofAscii "a.deb")] ++
      replicate 6 (Event.goOn 0 false) ++ [.get own] ++ replicate 6 (.goOn 1 false) ++
      [.delete {} own, .goOn 2 false, .goOn 2 false]
    let deleting : List Event := reading ++ [.goOn 2 false, .close 0, .release 0] ++
      [.delete {} own, .goOn 3 false, .goOn 3 false]
    (run (next lib) (World.opened cache) reading).activeReaders own = 1 ∧
      (run (next lib) (World.opened cache) reading).openReaders own = 1 ∧
      Unlinks lib own (run (next lib) (World.opened cache) deleting) (.goOn 3 false) ∧
      ¬ 0 < (run (next lib) (World.opened cache) deleting).activeReaders own := by
  intro lib own cache reading deleting
  have unlinks : Unlinks lib own (run (next lib) (World.opened cache) deleting)
      (.goOn 3 false) := by
    unfold Unlinks
    decide +kernel
  have clear := (activeReaders_exact lib cache deleting own).2.2 (.goOn 3 false) unlinks
  exact ⟨by decide +kernel, by decide +kernel, unlinks, clear⟩

end Debswarm.Cache.Calls
