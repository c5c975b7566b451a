import Debswarm.Cache.Contents
import Debswarm.Cache.Room

/-!
# Handing a file over

A caller that hands a verified file over keeps it when the store fails: the file is to
stay where it was, and nothing is to appear in the package directory without a row.  The
move of the file and the write of its row are two effects.  A store that fails at the
row has moved the file already, or has consumed it as a duplicate, and does not undo it.
-/

namespace Debswarm.Cache

open Option Table Text

variable {lib : Libraries} {state : State}

/-! ## Files without rows -/

/-- A file without a row. -/
def Stray (state : State) (hash : Str) : Prop :=
  state.files hash ≠ none ∧ state.packages.find? hash = none

/-- No file without a row has appeared. -/
def NoNewStrays (before after : State) : Prop :=
  ∀ hash, Stray after hash → Stray before hash

/-- A row is deleted with its file only, so deletions leave no file behind. -/
theorem noNewStrays_deleteUnlocked (faults : Faults) (target : Str) (sizeHint : Option Nat)
    (state : State) : NoNewStrays state (deleteUnlocked faults target sizeHint state).2 := by
  rintro hash ⟨present, unrecorded⟩
  rw [deleteUnlocked_files] at present
  rw [deleteUnlocked_find?] at unrecorded
  split at present
  · exact absurd rfl present
  · rename_i stays
    rw [if_neg fun gone => stays ⟨gone.1, gone.2.1⟩] at unrecorded
    exact ⟨present, unrecorded⟩

theorem NoNewStrays.trans {first second third : State} (earlier : NoNewStrays first second)
    (later : NoNewStrays second third) : NoNewStrays first third :=
  fun hash stray => earlier hash (later hash stray)

theorem noNewStrays_ensureSpace (faults : Faults) (needed : Nat) (state : State) :
    NoNewStrays state (ensureSpace faults needed state).2 := by
  rw [ensureSpace_state]
  refine evictionPass_invariant (NoNewStrays state) ?_ fun before hash size earlier =>
    earlier.trans (noNewStrays_deleteUnlocked faults hash (some size) before)
  rintro hash ⟨present, unrecorded⟩
  refine ⟨present, ?_⟩
  rw [find?_eq_none_iff] at unrecorded ⊢
  rwa [← keys_applyBatch faults state.pendingAccess]

/-! ## A failed store -/

/-- A failed store leaves its source: it did not come to the row, the source was not there or could
not be moved, or was no duplicate to consume. -/
def SourceStays (faults : Faults) (filePath hash : Str) (size : Nat) (state : State) : Prop :=
  faults.record = false ∨ state.outside filePath = none ∨ SpaceShort faults size state ∨
    faults.mkdir = true ∨
      ((state.files hash = none ∨ MakesWay faults size hash state) ∧ faults.move = true) ∨
        (state.files hash ≠ none ∧ ¬ MakesWay faults size hash state ∧
          faults.removeSource = true)

/-- What a failed store owes its caller. -/
def HandsBack (filePath : Str) (before after : State) : Prop :=
  after.outside filePath = before.outside filePath ∧ NoNewStrays before after

variable {faults : Faults} {hash filename filePath : Str} {size : Nat} {reason : CacheError}
  {moved : State}

theorem record_of_recordPackage_error
    (failed : (recordPackage lib faults hash filename size state).1 = .error reason) :
    faults.record = true ∧ (recordPackage lib faults hash filename size state).2 = state := by
  rcases recordPackage_cases lib faults hash filename size state with
    ⟨fails, result⟩ | ⟨-, recorded⟩
  · exact ⟨fails, congrArg Prod.snd result⟩
  · rw [recorded] at failed
    split at failed <;> cases failed

/-- A move fails where the place is free and there is nothing to move, or moving fails. -/
theorem moveIntoPlace_eq_none_iff (faults : Faults) (filePath hash : Str) (state : State) :
    moveIntoPlace faults filePath hash state = none ↔
      state.files hash = none ∧ (state.outside filePath = none ∨ faults.move = true) := by
  unfold moveIntoPlace
  cases state.files hash with
  | some content => cases faults.removeSource <;> simp
  | none =>
    cases state.outside filePath with
    | none | some content => simp

/-- A move leaves its source only where there was none, or the duplicate could not be removed. -/
theorem moveIntoPlace_outside_iff (step : moveIntoPlace faults filePath hash state = some moved) :
    moved.outside filePath = state.outside filePath ↔
      state.outside filePath = none ∨
        (state.files hash ≠ none ∧ faults.removeSource = true) := by
  rcases moveIntoPlace_cases step with
    ⟨taken, ⟨resists, rfl⟩ | ⟨resists, rfl⟩⟩ | ⟨content, free, source, rfl⟩
  · simp [resists, isSome_iff_ne_none.mp taken]
  · simp [resists, removeOutside, eq_comm]
  · simp [removeOutside, source, free]

theorem noNewStrays_moveIntoPlace (step : moveIntoPlace faults filePath hash state = some moved)
    (kept : moved.outside filePath = state.outside filePath) : NoNewStrays state moved := by
  rcases moveIntoPlace_cases step with ⟨-, ⟨-, rfl⟩ | ⟨-, rfl⟩⟩ | ⟨content, -, source, rfl⟩
  · exact fun _ stray => stray
  · exact fun _ stray => stray
  · simp [removeOutside, source] at kept

/-- A commit that fails has made room at most, or it fails at the row with the file in place. -/
theorem commitVerifiedFile_error_cases
    (failed : (commitVerifiedFile lib faults filePath hash filename size state).1 =
      .error reason) :
    ((commitVerifiedFile lib faults filePath hash filename size state).2 =
        (ensureSpace faults size state).2 ∧
      ((ensureSpace faults size state).1 ≠ .ok ∨ faults.mkdir = true ∨
        moveIntoPlace faults filePath hash (ensureSpace faults size state).2 = none)) ∨
    ((ensureSpace faults size state).1 = .ok ∧ faults.mkdir = false ∧
      faults.record = true ∧
        moveIntoPlace faults filePath hash (ensureSpace faults size state).2 =
          some (commitVerifiedFile lib faults filePath hash filename size state).2) := by
  unfold commitVerifiedFile at failed ⊢
  cases spaceEq : ensureSpace faults size state with
  | mk outcome roomy =>
    rw [spaceEq] at failed
    cases outcome with
    | error early | panic fault => exact .inl ⟨rfl, .inl Outcome.noConfusion⟩
    | ok =>
      cases mkdir : faults.mkdir with
      | true => exact .inl ⟨by simp, .inr (.inl rfl)⟩
      | false =>
        cases moveEq : moveIntoPlace faults filePath hash roomy with
        | none => exact .inl ⟨by simp [moveEq], .inr (.inr rfl)⟩
        | some moved =>
          simp only [mkdir, moveEq, Bool.false_eq_true, if_false] at failed
          obtain ⟨recordFails, left⟩ := record_of_recordPackage_error failed
          exact .inr ⟨rfl, rfl, recordFails, by simp [moveEq, left]⟩

theorem ensureSpace_ne_panic_of_error
    (failed : (commitVerifiedFile lib faults filePath hash filename size state).1 =
      .error reason) (fault : Panic) :
    (ensureSpace faults size state).1 ≠ .panic fault := by
  intro panicked
  cases spaceEq : ensureSpace faults size state with
  | mk outcome roomy =>
    rw [spaceEq] at panicked
    subst panicked
    simp [commitVerifiedFile, spaceEq] at failed

theorem sourceStays_of_unmoved
    (notPanicked : ∀ fault, (ensureSpace faults size state).1 ≠ .panic fault)
    (early : (ensureSpace faults size state).1 ≠ .ok ∨ faults.mkdir = true ∨
      moveIntoPlace faults filePath hash (ensureSpace faults size state).2 = none) :
    SourceStays faults filePath hash size state := by
  by_cases short : SpaceShort faults size state
  · exact .inr (.inr (.inl short))
  · have roomy := (ensureSpace_ok_iff notPanicked).mpr short
    rcases early with noRoom | mkdir | unmovable
    · exact absurd roomy noRoom
    · exact .inr (.inr (.inr (.inl mkdir)))
    · rw [moveIntoPlace_eq_none_iff, ensureSpace_files_eq_none_iff roomy,
        ensureSpace_outside] at unmovable
      rcases unmovable.2 with absent | moveFails
      · exact .inr (.inl absent)
      · exact .inr (.inr (.inr (.inr (.inl ⟨unmovable.1, moveFails⟩))))

/-- A store that moved a file hands back only none, or a duplicate it could not remove. -/
theorem handsBack_iff_of_moved (roomy : (ensureSpace faults size state).1 = .ok)
    (step : moveIntoPlace faults filePath hash (ensureSpace faults size state).2 = some moved) :
    HandsBack filePath state moved ↔
      state.outside filePath = none ∨
        (¬ (state.files hash = none ∨ MakesWay faults size hash state) ∧
          faults.removeSource = true) := by
  have source := ensureSpace_outside faults size state
  rw [← ensureSpace_files_eq_none_iff roomy, ← source, ← ne_eq,
    ← moveIntoPlace_outside_iff step, HandsBack, source]
  constructor
  · exact fun back => back.1
  · intro stays
    refine ⟨stays, (noNewStrays_ensureSpace faults size state).trans
      (noNewStrays_moveIntoPlace step ?_)⟩
    rw [stays, source]

theorem sourceStays_iff_of_moved
    (notPanicked : ∀ fault, (ensureSpace faults size state).1 ≠ .panic fault)
    (roomy : (ensureSpace faults size state).1 = .ok) (mkdir : faults.mkdir = false)
    (record : faults.record = true)
    (step : moveIntoPlace faults filePath hash (ensureSpace faults size state).2 = some moved) :
    SourceStays faults filePath hash size state ↔
      state.outside filePath = none ∨
        (¬ (state.files hash = none ∨ MakesWay faults size hash state) ∧
          faults.removeSource = true) := by
  have movable : ¬ ((state.files hash = none ∨ MakesWay faults size hash state) ∧
      (state.outside filePath = none ∨ faults.move = true)) := by
    rw [← ensureSpace_files_eq_none_iff roomy, ← ensureSpace_outside faults size state,
      ← moveIntoPlace_eq_none_iff, step]
    exact some_ne_none _
  constructor
  · rintro (recorded | absent | short | noDirectory | ⟨free, moveFails⟩ | ⟨taken, stays, resists⟩)
    · rw [record] at recorded
      cases recorded
    · exact .inl absent
    · exact absurd short ((ensureSpace_ok_iff notPanicked).mp roomy)
    · rw [mkdir] at noDirectory
      cases noDirectory
    · exact absurd ⟨free, .inr moveFails⟩ movable
    · exact .inr ⟨not_or.mpr ⟨taken, stays⟩, resists⟩
  · rintro (absent | ⟨stays, resists⟩)
    · exact .inr (.inl absent)
    · rw [not_or] at stays
      exact .inr (.inr (.inr (.inr (.inr ⟨stays.1, stays.2, resists⟩))))

/-- A failed store hands its file back unless it fails at the row with the file moved. -/
theorem putFile_handsBack_iff {faults : Faults} {filePath hash filename : Str} {size : Nat}
    {reason : CacheError}
    (failed : (putFile lib faults filePath hash filename size state).1 = .error reason) :
    HandsBack filePath state (putFile lib faults filePath hash filename size state).2 ↔
      SourceStays faults filePath hash size state := by
  have notPanicked := ensureSpace_ne_panic_of_error failed
  rcases commitVerifiedFile_error_cases failed with
    ⟨unmoved, early⟩ | ⟨roomy, mkdir, record, moved⟩
  · apply iff_of_true _ (sourceStays_of_unmoved notPanicked early)
    rw [putFile, unmoved]
    exact ⟨congrFun (ensureSpace_outside faults size state) filePath,
      noNewStrays_ensureSpace faults size state⟩
  · rw [putFile, handsBack_iff_of_moved roomy moved,
      sourceStays_iff_of_moved notPanicked roomy mkdir record moved]

/-- A file that cannot be moved is handed back, though the row could not be written
either. -/
theorem putFile_handsBack_of_unmovable :
    let lib : Libraries := { sha256 := hexEncode64, unicodeLower := id }
    let state := writeOutside (ofAscii "a") [1]
      (State.opened 0 10 0 empty (fun _ => none) fun _ => none)
    let stored := putFile lib { move := true, record := true } (ofAscii "a") (hexEncode64 [1])
      (ofAscii "a_1_all.deb") 1 state
    stored.1 = .error .moveFailed ∧ HandsBack (ofAscii "a") state stored.2 := by
  intro lib state stored
  have failed : stored.1 = .error .moveFailed := by decide
  exact ⟨failed, (putFile_handsBack_iff failed).mpr
    (.inr (.inr (.inr (.inr (.inl ⟨.inl rfl, rfl⟩)))))⟩

/-- The row cannot be written: the file lies in the package directory without a row. -/
theorem not_handsBack_of_unrecorded :
    let lib : Libraries := { sha256 := hexEncode64, unicodeLower := id }
    let state := writeOutside (ofAscii "a") [1]
      (State.opened 0 10 0 empty (fun _ => none) fun _ => none)
    let stored := putFile lib { record := true } (ofAscii "a") (hexEncode64 [1])
      (ofAscii "a_1_all.deb") 1 state
    stored.1 = .error .recordFailed ∧ stored.2.outside (ofAscii "a") = none ∧
      Stray stored.2 (hexEncode64 [1]) ∧ ¬ HandsBack (ofAscii "a") state stored.2 := by
  intro lib state stored
  have consumed : stored.2.outside (ofAscii "a") = none := by decide
  refine ⟨by decide, consumed, ⟨by decide, by decide⟩, fun back => ?_⟩
  have kept := back.1
  rw [consumed] at kept
  revert kept
  decide

end Debswarm.Cache
