import Debswarm.Cache.Contents
import Mathlib.Data.Set.Function

/-!
# Rows, names and bytes

The rows and the files of the package directory are to name the same hashes, each file is
to hash to its name, and each row is to have the length of its file.  Every operation keeps
this as long as no row resists a write or a deletion.

A store whose place is taken trusts that the file there is the same.  That is so among
contents of which no two have the same hash.
-/

namespace Debswarm.Cache

open Function Option Table Text

/-- Rows name the files, files hash to their names, and rows have the lengths of their files. -/
structure Agrees (lib : Libraries) (state : State) : Prop where
  rows : ∀ hash, (state.packages.find? hash).isSome = (state.files hash).isSome
  hashed : ∀ hash content, state.files hash = some content → lib.sha256 content = hash
  sized : ∀ hash row content, state.packages.find? hash = some row →
    state.files hash = some content → row.size = content.length

def recordedSize (packages : Table Str PackageRow) (hash : Str) : Option Nat :=
  (packages.find? hash).map PackageRow.size

/-- Rows and files agree, and the files are among the given contents. -/
structure Matched (lib : Libraries) (contents : Set Str) (state : State) : Prop where
  lengths : ∀ hash, recordedSize state.packages hash = (state.files hash).map List.length
  hashed : ∀ hash content, state.files hash = some content → lib.sha256 content = hash
  known : ∀ hash content, state.files hash = some content → content ∈ contents

variable {lib : Libraries} {contents : Set Str} {state : State}

theorem Matched.agrees (matched : Matched lib contents state) : Agrees lib state where
  rows hash := by
    have lengths := congrArg isSome (matched.lengths hash)
    rwa [recordedSize, isSome_map, isSome_map] at lengths
  hashed := matched.hashed
  sized hash row content found file := by
    have lengths := matched.lengths hash
    rw [recordedSize, found, file] at lengths
    exact some.inj lengths

variable {after : State} {faults : Faults} {hash content filePath : Str}

theorem Matched.of_eq (matched : Matched lib contents state)
    (sizes : ∀ hash, recordedSize after.packages hash = recordedSize state.packages hash)
    (files : after.files = state.files) : Matched lib contents after := by
  constructor
  · intro hash
    rw [sizes, files]
    exact matched.lengths hash
  · rw [files]
    exact matched.hashed
  · rw [files]
    exact matched.known

/-! ## Rows that change without their sizes -/

theorem recordedSize_update (packages : Table Str PackageRow) (hash other : Str)
    {change : PackageRow → PackageRow} (sameSize : ∀ row, (change row).size = row.size) :
    recordedSize (packages.update hash change) other = recordedSize packages other := by
  unfold recordedSize
  rw [find?_update]
  split
  · rename_i same
    subst same
    cases packages.find? other with
    | none => rfl
    | some row => exact congrArg some (sameSize row)
  · rfl

theorem recordedSize_applyBatch (faults : Faults) (batch : Table Str AccessRecord)
    (packages : Table Str PackageRow) (hash : Str) :
    recordedSize (applyBatch faults batch packages) hash = recordedSize packages hash :=
  applyBatch_invariant (fun table => recordedSize table hash = recordedSize packages hash)
    (fun table other _ same => same ▸ recordedSize_update table other hash fun _ => rfl)
    faults batch rfl

section

variable (matched : Matched lib contents state)

include matched

theorem matched_flushAccess (faults : Faults) :
    Matched lib contents (flushAccess faults state) :=
  matched.of_eq (recordedSize_applyBatch faults state.pendingAccess state.packages) rfl

theorem matched_setPinned (pinned : Bool) (faults : Faults)
    (hash : Str) : Matched lib contents (setPinned pinned faults hash state).2 := by
  rcases setPinned_cases pinned faults hash state with unchanged | updated
  · rw [unchanged]
    exact matched
  · rw [updated]
    exact matched.of_eq
      (fun other => recordedSize_update state.packages hash other fun _ => rfl) rfl

/-! ## Deletions -/

theorem Matched.remove (hash : Str)
    (packages : after.packages = state.packages.delete hash)
    (files : after.files = update state.files hash none) : Matched lib contents after := by
  have remaining : ∀ other content, after.files other = some content →
      other ≠ hash ∧ state.files other = some content := by
    intro other content found
    rw [files] at found
    by_cases same : other = hash
    · rw [same, update_self] at found
      cases found
    · rw [update_of_ne same] at found
      exact ⟨same, found⟩
  refine ⟨fun other => ?_, fun other content found => ?_, fun other content found => ?_⟩
  · rw [recordedSize, packages, files, find?_delete]
    by_cases same : other = hash
    · rw [if_pos same, same, update_self]
      rfl
    · rw [if_neg same, update_of_ne same]
      exact matched.lengths other
  · exact matched.hashed other content (remaining other content found).2
  · exact matched.known other content (remaining other content found).2

theorem matched_deleteUnlocked
    (rowYields : faults.deleteRow hash = false) (sizeHint : Option Nat) :
    Matched lib contents (deleteUnlocked faults hash sizeHint state).2 := by
  rcases deleteUnlocked_cases faults hash sizeHint state with
    ⟨-, reason, kept⟩ | ⟨-, ⟨resists, -⟩ | ⟨-, gone⟩⟩
  · rw [kept]
    exact matched
  · rw [rowYields] at resists
    cases resists
  · rw [gone]
    exact matched.remove hash rfl rfl

/-! ## Stores -/

theorem Matched.store (verified : lib.sha256 content = hash)
    (known : content ∈ contents) (sizes : ∀ other, recordedSize after.packages other =
      if other = hash then some content.length else recordedSize state.packages other)
    (files : after.files = update state.files hash (some content)) :
    Matched lib contents after := by
  have origin : ∀ other stored, after.files other = some stored →
      (other = hash ∧ stored = content) ∨ state.files other = some stored := by
    intro other stored found
    rw [files] at found
    by_cases same : other = hash
    · rw [same, update_self, some.injEq] at found
      exact .inl ⟨same, found.symm⟩
    · rw [update_of_ne same] at found
      exact .inr found
  refine ⟨fun other => ?_, fun other stored found => ?_, fun other stored found => ?_⟩
  · rw [sizes, files]
    by_cases same : other = hash
    · rw [if_pos same, same, update_self]
      rfl
    · rw [if_neg same, update_of_ne same]
      exact matched.lengths other
  · rcases origin other stored found with ⟨rfl, rfl⟩ | before
    · exact verified
    · exact matched.hashed other stored before
  · rcases origin other stored found with ⟨rfl, rfl⟩ | before
    · exact known
    · exact matched.known other stored before

/-- After the move, the verified content is in place: a file there already has the same hash. -/
theorem moveIntoPlace_files
    (collisionFree : Set.InjOn lib.sha256 contents) {moved : State}
    (source : state.outside filePath = some content) (verified : lib.sha256 content = hash)
    (known : content ∈ contents) (step : moveIntoPlace faults filePath hash state = some moved) :
    moved.files = update state.files hash (some content) := by
  have unchanged : (state.files hash).isSome →
      state.files = update state.files hash (some content) := by
    intro taken
    obtain ⟨old, isFile⟩ := isSome_iff_exists.mp taken
    have same : old = content :=
      collisionFree (matched.known hash old isFile) known
        ((matched.hashed hash old isFile).trans verified.symm)
    rw [← same, ← isFile]
    exact (update_eq_self ..).symm
  rcases moveIntoPlace_cases step with ⟨taken, ⟨-, rfl⟩ | ⟨-, rfl⟩⟩ | ⟨moving, -, isMoving, rfl⟩
  · exact unchanged taken
  · exact unchanged taken
  · rw [source] at isMoving
    cases isMoving
    rfl

end

theorem recordedSize_recordPackage (lib : Libraries) (recorded : faults.record = false)
    (hash filename : Str) (size : Nat) (state : State) (other : Str) :
    recordedSize (recordPackage lib faults hash filename size state).2.packages other =
      if other = hash then some size else recordedSize state.packages other := by
  rcases recordPackage_cases lib faults hash filename size state with ⟨fails, -⟩ | ⟨-, result⟩
  · rw [recorded] at fails
    cases fails
  · simp only [result, recordedSize, State.record, find?_insertOrUpdate]
    split
    · cases state.packages.find? hash <;> rfl
    · rfl

/-- Committing a verified file under its true size keeps rows and files in agreement. -/
theorem matched_commitVerifiedFile (matched : Matched lib contents state)
    (collisionFree : Set.InjOn lib.sha256 contents) (faults : Faults)
    (rowsYield : ∀ hash, faults.deleteRow hash = false) (recorded : faults.record = false)
    (filename : Str) (source : state.outside filePath = some content)
    (verified : lib.sha256 content = hash) (known : content ∈ contents) :
    Matched lib contents
      (commitVerifiedFile lib faults filePath hash filename content.length state).2 := by
  have roomy : Matched lib contents (ensureSpace faults content.length state).2 := by
    rw [ensureSpace_state]
    exact evictionPass_invariant (Matched lib contents) (matched_flushAccess matched faults)
      fun _ hash size before => matched_deleteUnlocked before (rowsYield hash) (some size)
  rcases commitVerifiedFile_cases lib faults filePath hash filename content.length state with
    ⟨-, unmoved⟩ | ⟨-, files, outside, moved, committed⟩
  · rw [unmoved]
    exact roomy
  · rw [committed]
    have kept : (ensureSpace faults content.length state).2.outside filePath = some content := by
      rw [ensureSpace_state, (shrinks_evictionPass faults content.length state).outside]
      exact source
    have placed := moveIntoPlace_files roomy collisionFree kept verified known moved
    refine roomy.store verified known (fun other => ?_) ?_
    · rw [recordedSize_recordPackage lib recorded]
    · rw [(recordPackage_files ..).1]
      exact placed

theorem commitVerifiedFile_outside_ne (lib : Libraries) (faults : Faults) {other : Str}
    (hash filename : Str) (size : Nat) (state : State) (distinct : other ≠ filePath) :
    (commitVerifiedFile lib faults filePath hash filename size state).2.outside other =
      state.outside other := by
  have room := ensureSpace_outside faults size state
  rcases commitVerifiedFile_cases lib faults filePath hash filename size state with
    ⟨-, unmoved⟩ | ⟨-, files, outside, moved, committed⟩
  · rw [unmoved, room]
  · rw [committed, (recordPackage_files ..).2, ← room]
    rcases outside_moveIntoPlace moved with stays | gone
    · exact congrFun stays other
    · rw [gone]
      exact update_of_ne distinct ..

end Debswarm.Cache
