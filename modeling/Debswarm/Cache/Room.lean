import Debswarm.Cache.Eviction
import Debswarm.Transition.Run

/-!
# How far making room gets

A store that needs room deletes the eviction candidates in turn until its bytes fit.
Which candidates it deletes, which files that takes away and whether it makes enough room
can be read off the state before: each deletion gives back the bytes of its row, unless
the package is being read or the disk or the database resists.
-/

namespace Debswarm.Cache

open List Text Transition

/-! ## Single deletions -/

/-- Whether a package can be deleted as a whole. -/
def deletable (faults : Faults) (state : State) (hash : Str) : Bool :=
  state.activeReaders hash = 0 && !faults.remove hash && !faults.deleteRow hash

/-- Bytes that deleting the listed packages gives back. -/
def freeableBytes (faults : Faults) (state : State) (listed : List (Str × Nat)) : Int :=
  ((listed.filter fun entry => deletable faults state entry.1).map fun entry =>
    (entry.2 : Int)).sum

/-- Try to delete one listed package. -/
def attempt (faults : Faults) (state : State) (entry : Str × Nat) : State :=
  (deleteUnlocked faults entry.1 (some entry.2) state).2

/-- The needed bytes do not fit when the listed packages have been deleted. -/
def StaysFull (faults : Faults) (needed : Nat) (state : State) (listed : List (Str × Nat)) : Prop :=
  state.maxSize <
    state.currentSize + .ofNat needed - .ofInt (freeableBytes faults state listed)

instance (faults : Faults) (needed : Nat) (state : State) :
    DecidablePred (StaysFull faults needed state) := fun _ =>
  inferInstanceAs (Decidable (_ < (_ : Int64)))

section

variable (faults : Faults) (listed : List (Str × Nat)) (needed : Nat) (state : State) (hash : Str)
  (entry : Str × Nat)

@[simp]
theorem attempt_maxSize : (attempt faults state entry).maxSize = state.maxSize := by
  unfold attempt
  rcases deleteUnlocked_cases faults entry.1 (some entry.2) state with
    ⟨-, reason, kept⟩ | ⟨-, ⟨-, gone⟩ | ⟨-, gone⟩⟩
  · rw [kept]
  · rw [gone]
  · rw [gone]

@[simp]
theorem attempt_activeReaders : (attempt faults state entry).activeReaders = state.activeReaders :=
  (shrinks_deleteUnlocked faults entry.1 (some entry.2) state).activeReaders

theorem deletable_iff {faults : Faults} {state : State} {hash : Str} :
    deletable faults state hash = true ↔
      (state.activeReaders hash = 0 ∧ faults.remove hash = false) ∧
        faults.deleteRow hash = false := by
  simp [deletable]

theorem attempt_currentSize :
    (attempt faults state entry).currentSize =
      if deletable faults state entry.1 then state.currentSize - .ofNat entry.2
      else state.currentSize := by
  unfold attempt
  rcases deleteUnlocked_cases faults entry.1 (some entry.2) state with
    ⟨refused, reason, kept⟩ | ⟨free, ⟨resists, gone⟩ | ⟨yields, gone⟩⟩
  · rw [kept, if_neg fun whole => refused (deletable_iff.mp whole).1]
  · rw [gone]
    simp [deletable, resists]
  · rw [gone, if_pos (deletable_iff.mpr ⟨free, yields⟩)]
    rfl

@[simp]
theorem foldl_attempt_maxSize : (listed.foldl (attempt faults) state).maxSize = state.maxSize := by
  induction listed generalizing state with
  | nil => rfl
  | cons entry rest ih => exact (ih _).trans (attempt_maxSize faults state entry)

theorem foldl_attempt_currentSize :
    (listed.foldl (attempt faults) state).currentSize =
      state.currentSize - .ofInt (freeableBytes faults state listed) := by
  induction listed generalizing state with
  | nil => simp [freeableBytes]
  | cons entry rest ih =>
    have sameReaders : freeableBytes faults (attempt faults state entry) rest =
        freeableBytes faults state rest := by
      simp only [freeableBytes, deletable, attempt_activeReaders]
    rw [foldl_cons, ih, sameReaders, attempt_currentSize]
    by_cases yields : deletable faults state entry.1 = true
    · simp only [freeableBytes, filter_cons, yields, if_true, map_cons, sum_cons, Int64.ofInt_add,
        Int64.ofInt_eq_ofNat]
      grind
    · simp [freeableBytes, yields]

/-- The needed bytes fit after deletions unless they stay full without what these give back. -/
theorem fits_foldl_attempt_iff (listed : List (Str × Nat)) (state : State) :
    Fits needed (listed.foldl (attempt faults) state) ↔
      ¬ StaysFull faults needed state listed := by
  have reordered : state.currentSize - .ofInt (freeableBytes faults state listed) + .ofNat needed =
      state.currentSize + .ofNat needed - .ofInt (freeableBytes faults state listed) := by
    grind
  rw [Fits, StaysFull, foldl_attempt_maxSize, foldl_attempt_currentSize, reordered, Int64.not_lt]

/-- A file is gone after deletions if it was listed, without readers and did not resist. -/
theorem foldl_attempt_files :
    (listed.foldl (attempt faults) state).files hash =
      if listed.any (fun entry => entry.1 = hash) = true ∧ state.activeReaders hash = 0 ∧
          faults.remove hash = false then none
      else state.files hash := by
  induction listed generalizing state with
  | nil => simp
  | cons entry rest ih =>
    rw [foldl_cons, ih, attempt_activeReaders, attempt, deleteUnlocked_files]
    grind

/-- A row is kept by deletions unless it was listed and could be deleted. -/
theorem foldl_attempt_find? :
    (listed.foldl (attempt faults) state).packages.find? hash =
      if listed.any (fun entry => entry.1 = hash) = true ∧ deletable faults state hash = true then
        none
      else state.packages.find? hash := by
  induction listed generalizing state with
  | nil => simp
  | cons entry rest ih =>
    have sameDeletable : deletable faults (attempt faults state entry) hash =
        deletable faults state hash := by
      rw [deletable, deletable, attempt_activeReaders]
    rw [foldl_cons, ih, sameDeletable, attempt, deleteUnlocked_find?]
    simp only [deletable_iff]
    grind

theorem foldl_attempt_row :
    ((listed.foldl (attempt faults) state).packages.find? hash).isSome ↔
      (state.packages.find? hash).isSome ∧
        ¬ (listed.any (fun entry => entry.1 = hash) = true ∧ state.activeReaders hash = 0 ∧
          faults.remove hash = false ∧ faults.deleteRow hash = false) := by
  rw [foldl_attempt_find?, ← and_assoc (a := state.activeReaders hash = 0), ← deletable_iff]
  split
  · rename_i deleted
    exact iff_of_false Bool.false_ne_true fun kept => kept.2 deleted
  · rename_i kept
    exact ⟨fun found => ⟨found, kept⟩, And.left⟩

end

variable {faults : Faults} {needed : Nat} {state : State}

theorem deleteUnlocked_ok_iff (faults : Faults) (hash : Str) (sizeHint : Option Nat)
    (state : State) :
    (deleteUnlocked faults hash sizeHint state).1 = .ok ↔ deletable faults state hash = true := by
  rw [deletable_iff]
  rcases deleteUnlocked_cases faults hash sizeHint state with
    ⟨refused, reason, kept⟩ | ⟨free, ⟨resists, gone⟩ | ⟨yields, gone⟩⟩
  · simp [kept, refused]
  · simp [gone, resists]
  · simp [gone, free, yields]

/-- A pass that does not panic deletes candidates until the needed bytes fit. -/
theorem evict_eq_drain {listed : List (Str × Nat)}
    (quiet : (evict faults needed listed state).fault = none) :
    evict faults needed listed state =
      ⟨((drained (Fits needed) (attempt faults) listed state).filter fun entry =>
          deletable faults state entry.1).map Prod.fst,
        none, drain (Fits needed) (attempt faults) listed state⟩ := by
  induction listed generalizing state with
  | nil => rfl
  | cons entry rest ih =>
    obtain ⟨hash, size⟩ := entry
    rcases evict_cons faults needed hash size rest state with
      ⟨fault, stops, stopped⟩ | ⟨full, wentOn⟩
    · rw [stopped] at quiet
      have fits : Fits needed state := stops quiet
      have noFault : fault = none := quiet
      rw [stopped, noFault]
      simp only [drained, drain, if_pos fits, filter_nil, map_nil]
    · have sameReaders : ∀ other, deletable faults (attempt faults state (hash, size)) other =
          deletable faults state other := fun other => by
        rw [deletable, deletable, attempt_activeReaders]
      have notYet : ¬ Fits needed state := full
      rw [wentOn] at quiet ⊢
      have later := @ih (attempt faults state (hash, size)) quiet
      simp only [sameReaders] at later
      rw [show (deleteUnlocked faults hash (some size) state).2 =
        attempt faults state (hash, size) from rfl, later]
      simp only [drained, drain, if_neg notYet, filter_cons, deleteUnlocked_ok_iff]
      split <;> rfl

/-! ## The whole pass -/

/-- The disk is short, or deleting candidates will not do, however many. One more deletion can undo
a fit where the sum wraps around. -/
def SpaceShort (faults : Faults) (needed : Nat) (state : State) : Prop :=
  diskShort faults needed state = true ∨
    ∀ front ∈ (listed faults (flushAccess faults state)).inits,
      StaysFull faults needed state front

/-- The hash is a candidate that can be removed, and deleting those ahead of it will not do. -/
def MakesWay (faults : Faults) (needed : Nat) (hash : Str) (state : State) : Prop :=
  let candidates := listed faults (flushAccess faults state)
  candidates.any (fun entry => entry.1 = hash) = true ∧ state.activeReaders hash = 0 ∧
    faults.remove hash = false ∧
      ∀ front ∈ (candidates.takeWhile fun entry => !decide (entry.1 = hash)).inits,
        StaysFull faults needed state front

section

variable (enoughDisk : diskShort faults needed state = false)

include enoughDisk

theorem evictionPass_fault_of_quiet
    (quiet : ∀ fault, (ensureSpace faults needed state).1 ≠ .panic fault) :
    (evictionPass faults needed state).fault = none := by
  cases faultEq : (evictionPass faults needed state).fault with
  | none => rfl
  | some fault => exact absurd (by simp [ensureSpace, enoughDisk, faultEq]) (quiet fault)

variable (quiet : (evictionPass faults needed state).fault = none)

include quiet

/-- With enough disk, a pass that does not panic works through the candidates. -/
theorem evictionPass_eq_drain :
    evictionPass faults needed state =
      ⟨((drained (Fits needed) (attempt faults) (listed faults (flushAccess faults state))
          (flushAccess faults state)).filter fun entry =>
            deletable faults state entry.1).map Prod.fst,
        none, drain (Fits needed) (attempt faults) (listed faults (flushAccess faults state))
          (flushAccess faults state)⟩ := by
  have sameDisk : diskShort faults needed (flushAccess faults state) = false := enoughDisk
  by_cases fits : Fits needed (flushAccess faults state)
  · simp only [evictionPass, sameDisk, if_pos fits]
    cases listed faults (flushAccess faults state) with
    | nil => rfl
    | cons entry rest => simp [drain, drained, fits]
  · simp only [evictionPass, sameDisk, if_neg fits] at quiet ⊢
    exact evict_eq_drain quiet

/-- With enough disk, making room succeeds if the bytes fit after the pass. Otherwise there was no
list of candidates, or the cache is full. -/
theorem ensureSpace_outcome :
    (ensureSpace faults needed state).1 =
      if Fits needed (evictionPass faults needed state).state then .ok
      else .error (if faults.candidates then .candidatesFailed else .cacheFull) := by
  simp only [ensureSpace, enoughDisk, quiet]
  split
  · contradiction
  · split <;> rfl

theorem ensureSpace_ok_iff_fits :
    (ensureSpace faults needed state).1 = .ok ↔
      Fits needed (evictionPass faults needed state).state := by
  rw [ensureSpace_outcome enoughDisk quiet]
  split
  · rename_i fits
    exact iff_of_true rfl fits
  · rename_i full
    exact iff_of_false Outcome.noConfusion full

theorem ensureSpace_ok_iff_within :
    (ensureSpace faults needed state).1 = .ok ↔
      (ensureSpace faults needed state).2.currentSize + .ofNat needed ≤ state.maxSize := by
  have sameLimit : (evictionPass faults needed state).state.maxSize = state.maxSize := by
    rw [evictionPass_eq_drain enoughDisk quiet, drain_eq_foldl, foldl_attempt_maxSize]
    rfl
  rw [ensureSpace_ok_iff_fits enoughDisk quiet, ensureSpace_state, Fits, sameLimit]

end

section

variable (quiet : ∀ fault, (ensureSpace faults needed state).1 ≠ .panic fault)

include quiet

/-- Where making room does not panic, it fails exactly when no room can be made. -/
theorem ensureSpace_ok_iff :
    (ensureSpace faults needed state).1 = .ok ↔ ¬ SpaceShort faults needed state := by
  cases short : diskShort faults needed state with
  | true => simp [ensureSpace, SpaceShort, short]
  | false =>
    have noFault := evictionPass_fault_of_quiet short quiet
    have sameFull : ∀ front, StaysFull faults needed (flushAccess faults state) front ↔
        StaysFull faults needed state front := fun _ => Iff.rfl
    rw [ensureSpace_ok_iff_fits short noFault, evictionPass_eq_drain short noFault,
      goal_drain_iff_exists (Fits needed), SpaceShort, short]
    simp only [fits_foldl_attempt_iff, sameFull, mem_inits, Bool.false_eq_true, false_or,
      not_forall, exists_prop]

/-- Making room deletes the file of a hash: the disk is not short, and the file has to make
way. -/
def Evicts (faults : Faults) (needed : Nat) (hash : Str) (state : State) : Prop :=
  diskShort faults needed state = false ∧ MakesWay faults needed hash state

/-- Making room without a panic is a sequence of attempts, which reach what is deleted. -/
theorem ensureSpace_eq_foldl :
    ∃ acted : List (Str × Nat), (ensureSpace faults needed state).2 =
        acted.foldl (attempt faults) (flushAccess faults state) ∧
      ∀ hash, (acted.any (fun entry => entry.1 = hash) = true ∧ state.activeReaders hash = 0 ∧
        faults.remove hash = false ↔ Evicts faults needed hash state) := by
  cases short : diskShort faults needed state with
  | true =>
    refine ⟨[], ?_, fun hash => ?_⟩
    · have shortStill : diskShort faults needed (flushAccess faults state) = true := short
      rw [ensureSpace_state]
      simp only [evictionPass, if_pos shortStill, foldl_nil]
    · simp [Evicts, short]
  | false =>
    have noFault := evictionPass_fault_of_quiet short quiet
    refine ⟨drained (Fits needed) (attempt faults) (listed faults (flushAccess faults state))
      (flushAccess faults state), ?_, fun hash => ?_⟩
    · rw [ensureSpace_state, evictionPass_eq_drain short noFault, drain_eq_foldl]
    · have reached := any_drained_iff_forall (Fits needed) (attempt faults)
        (fun entry : Str × Nat => decide (entry.1 = hash))
        (listed faults (flushAccess faults state)) (flushAccess faults state)
      simp only [fits_foldl_attempt_iff, not_not, ← mem_inits] at reached
      constructor
      · rintro ⟨acted, free, removable⟩
        obtain ⟨isListed, full⟩ := reached.mp acted
        exact ⟨short, isListed, free, removable, full⟩
      · rintro ⟨-, isListed, free, removable, full⟩
        exact ⟨reached.mpr ⟨isListed, full⟩, free, removable⟩

theorem ensureSpace_files_iff
    (hash : Str) :
    ((ensureSpace faults needed state).2.files hash).isSome ↔
      (state.files hash).isSome ∧ ¬ Evicts faults needed hash state := by
  obtain ⟨acted, passEq, reached⟩ := ensureSpace_eq_foldl quiet
  rw [passEq, foldl_attempt_files, ← reached hash]
  have sameReaders : (flushAccess faults state).activeReaders = state.activeReaders := rfl
  have sameFiles : (flushAccess faults state).files = state.files := rfl
  rw [sameReaders, sameFiles]
  split
  next gone => exact iff_of_false Bool.false_ne_true fun kept => kept.2 gone
  next stays => exact ⟨fun kept => ⟨kept, stays⟩, And.left⟩

theorem ensureSpace_row_iff
    (hash : Str) :
    ((ensureSpace faults needed state).2.packages.find? hash).isSome ↔
      (state.packages.find? hash).isSome ∧
        ¬ (Evicts faults needed hash state ∧ faults.deleteRow hash = false) := by
  obtain ⟨acted, passEq, reached⟩ := ensureSpace_eq_foldl quiet
  have flushed : ((flushAccess faults state).packages.find? hash).isSome =
      (state.packages.find? hash).isSome :=
    isSome_find?_applyBatch faults state.pendingAccess state.packages hash
  have sameReaders : (flushAccess faults state).activeReaders = state.activeReaders := rfl
  rw [passEq, foldl_attempt_row, ← reached hash, sameReaders, flushed, and_assoc, and_assoc]

end

theorem ensureSpace_files (roomy : (ensureSpace faults needed state).1 = .ok) (hash : Str) :
    (MakesWay faults needed hash state →
        (ensureSpace faults needed state).2.files hash = none) ∧
      (¬ MakesWay faults needed hash state →
        (ensureSpace faults needed state).2.files hash = state.files hash) := by
  have short : diskShort faults needed state = false := by
    by_contra diskFull
    rw [Bool.not_eq_false] at diskFull
    simp [ensureSpace, diskFull] at roomy
  have quiet : ∀ fault, (ensureSpace faults needed state).1 ≠ .panic fault := by
    intro fault
    rw [roomy]
    exact Outcome.noConfusion
  obtain ⟨acted, passEq, reached⟩ := ensureSpace_eq_foldl quiet
  rw [passEq, foldl_attempt_files]
  constructor
  · intro makesWay
    exact if_pos ((reached hash).mpr ⟨short, makesWay⟩)
  · intro stays
    exact if_neg fun acted => stays ((reached hash).mp acted).2

theorem ensureSpace_files_eq_none_iff (roomy : (ensureSpace faults needed state).1 = .ok)
    (hash : Str) :
    (ensureSpace faults needed state).2.files hash = none ↔
      state.files hash = none ∨ MakesWay faults needed hash state := by
  obtain ⟨gone, stays⟩ := ensureSpace_files roomy hash
  by_cases makesWay : MakesWay faults needed hash state
  · simp [makesWay, gone makesWay]
  · simp [makesWay, stays makesWay]

end Debswarm.Cache
