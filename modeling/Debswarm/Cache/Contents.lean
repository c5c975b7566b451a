import Debswarm.Cache.Eviction
import Debswarm.Transition.Run

/-!
# Content addressing

A package file is stored under the SHA-256 of its content.  A `put` checks this itself;
a `putFile` relies on its caller, who must have verified the file.  Under that condition
every operation keeps the store content addressed, whatever fails along the way, so
whatever is read under a hash has that hash.
-/

namespace Debswarm.Cache

open Function List Option Table Text Transition

/-- Every file hashes to its name, and every row is named by a digest. -/
structure ContentAddressed (lib : Libraries) (state : State) : Prop where
  files : ∀ hash content, state.files hash = some content → lib.sha256 content = hash
  rows : ∀ hash row, state.packages.find? hash = some row → hash.length = 64

variable {lib : Libraries} {state : State}

variable {after moved : State} {faults : Faults} {filePath hash expectedHash : Str}

theorem ContentAddressed.shrinks (addressed : ContentAddressed lib state)
    (shrinks : Shrinks state after) : ContentAddressed lib after where
  files hash content found := addressed.files hash content (shrinks.files hash content found)
  rows hash row found := addressed.rows hash row (shrinks.rows hash row found)

/-! ## Making room -/

theorem contentAddressed_applyBatch (addressed : ContentAddressed lib state) (faults : Faults)
    (batch : Table Str AccessRecord) (files : after.files = state.files)
    (packages : after.packages = applyBatch faults batch state.packages) :
    ContentAddressed lib after := by
  constructor
  · rw [files]
    exact addressed.files
  · intro hash row found
    have kept : (state.packages.find? hash).isSome := by
      rw [← isSome_find?_applyBatch faults batch, ← packages, found]
      rfl
    obtain ⟨old, oldFound⟩ := isSome_iff_exists.mp kept
    exact addressed.rows hash old oldFound

theorem contentAddressed_flushAccess (addressed : ContentAddressed lib state)
    (faults : Faults) : ContentAddressed lib (flushAccess faults state) :=
  contentAddressed_applyBatch addressed faults state.pendingAccess rfl rfl

@[simp]
theorem ensureSpace_outside (faults : Faults) (needed : Nat) (state : State) :
    (ensureSpace faults needed state).2.outside = state.outside := by
  rw [ensureSpace_state]
  exact (shrinks_evictionPass faults needed state).outside

theorem evict_fault_eq_none (faults : Faults) (needed : Nat) (listed : List (Str × Nat))
    (state : State) (named : ∀ entry ∈ listed, 16 ≤ entry.1.length) :
    (evict faults needed listed state).fault = none := by
  induction listed generalizing state with
  | nil => rfl
  | cons entry rest ih =>
    obtain ⟨hash, size⟩ := entry
    have logged : 16 ≤ hash.length := named (hash, size) mem_cons_self
    have later := fun state => ih state fun entry mem => named entry (mem_cons_of_mem _ mem)
    simp only [evict, logHash, if_pos logged]
    split
    · rfl
    · split <;> exact later _

theorem evictionPass_fault_eq_none (faults : Faults) (needed : Nat)
    (named : ∀ row ∈ state.packages.rows, 16 ≤ row.1.length) :
    (evictionPass faults needed state).fault = none := by
  have namedListed : ∀ entry ∈ listed faults (flushAccess faults state), 16 ≤ entry.1.length := by
    intro entry mem
    obtain ⟨row, found, -⟩ := mem_listed (mem_map_of_mem mem)
    have isKey : entry.1 ∈ (flushAccess faults state).packages.rows.map Prod.fst :=
      mem_map_of_mem (find?_eq_some_iff.mp found)
    rw [flushAccess, keys_applyBatch] at isKey
    obtain ⟨before, beforeMem, sameKey⟩ := mem_map.mp isKey
    rw [← sameKey]
    exact named before beforeMem
  simp only [evictionPass]
  split
  · rfl
  · split
    · rfl
    · exact evict_fault_eq_none faults needed _ _ namedListed

theorem ensureSpace_ne_panic (addressed : ContentAddressed lib state) (faults : Faults)
    (needed : Nat) (fault : Panic) : (ensureSpace faults needed state).1 ≠ .panic fault := by
  have noFault := @evictionPass_fault_eq_none state faults needed fun row mem => by
    rw [addressed.rows row.1 row.2 (find?_eq_some_iff.mpr mem)]
    decide
  simp only [ensureSpace, noFault]
  split
  · exact Outcome.noConfusion
  · split <;> exact Outcome.noConfusion

/-! ## Storing -/

theorem files_moveIntoPlace (step : moveIntoPlace faults filePath hash state = some moved) :
    moved.files = state.files ∨ ∃ content, state.outside filePath = some content ∧
      moved.files = update state.files hash (some content) := by
  rcases moveIntoPlace_cases step with ⟨-, ⟨-, rfl⟩ | ⟨-, rfl⟩⟩ | ⟨content, -, source, rfl⟩
  · exact .inl rfl
  · exact .inl rfl
  · exact .inr ⟨content, source, rfl⟩

theorem outside_moveIntoPlace (step : moveIntoPlace faults filePath hash state = some moved) :
    moved.outside = state.outside ∨ moved.outside = (removeOutside filePath state).outside := by
  rcases moveIntoPlace_cases step with ⟨-, ⟨-, rfl⟩ | ⟨-, rfl⟩⟩ | ⟨content, -, -, rfl⟩
  · exact .inl rfl
  · exact .inr rfl
  · exact .inr rfl

theorem contentAddressed_moveIntoPlace (addressed : ContentAddressed lib state)
    (step : moveIntoPlace faults filePath hash state = some moved)
    (verified : ∀ content, state.outside filePath = some content → lib.sha256 content = hash) :
    ContentAddressed lib moved := by
  obtain ⟨files, outside, rfl⟩ := moveIntoPlace_eq_some step
  refine ⟨?_, addressed.rows⟩
  rcases files_moveIntoPlace step with rfl | ⟨content, source, rfl⟩
  · exact addressed.files
  · intro other found atOther
    dsimp only at atOther
    by_cases same : other = hash
    · rw [same, update_self, some.injEq] at atOther
      rw [same, ← atOther]
      exact verified content source
    · rw [update_of_ne same] at atOther
      exact addressed.files other found atOther

theorem recordPackage_files (lib : Libraries) (faults : Faults) (hash filename : Str)
    (size : Nat) (state : State) :
    (recordPackage lib faults hash filename size state).2.files = state.files ∧
      (recordPackage lib faults hash filename size state).2.outside = state.outside := by
  rcases recordPackage_cases lib faults hash filename size state with ⟨-, failed⟩ | ⟨-, recorded⟩
  · rw [failed]
    exact ⟨rfl, rfl⟩
  · rw [recorded]
    exact ⟨rfl, rfl⟩

theorem find?_recordPackage_ne (lib : Libraries) (faults : Faults) (hash filename : Str)
    (size : Nat) (state : State) {other : Str} (distinct : other ≠ hash) :
    (recordPackage lib faults hash filename size state).2.packages.find? other =
      state.packages.find? other := by
  rcases recordPackage_cases lib faults hash filename size state with ⟨-, failed⟩ | ⟨-, recorded⟩
  · rw [failed]
  · rw [recorded]
    exact find?_insertOrUpdate_ne _ distinct ..

theorem contentAddressed_commitVerifiedFile (addressed : ContentAddressed lib state)
    (faults : Faults) (filename : Str) (size : Nat) (digest : hash.length = 64)
    (verified : ∀ content, state.outside filePath = some content → lib.sha256 content = hash) :
    ContentAddressed lib
      (commitVerifiedFile lib faults filePath hash filename size state).2 := by
  have roomy : ContentAddressed lib (ensureSpace faults size state).2 := by
    rw [ensureSpace_state]
    exact (contentAddressed_flushAccess addressed faults).shrinks
      (shrinks_evictionPass faults size state)
  rcases commitVerifiedFile_cases lib faults filePath hash filename size state with
    ⟨-, unrecorded⟩ | ⟨-, files, outside, moved, recorded⟩
  · rw [unrecorded]
    exact roomy
  · rw [← ensureSpace_outside faults size] at verified
    have placed := contentAddressed_moveIntoPlace roomy moved verified
    rw [recorded]
    refine ⟨?_, fun other row found => ?_⟩
    · rw [(recordPackage_files ..).1]
      exact placed.files
    · by_cases same : other = hash
      · rwa [same]
      · rw [find?_recordPackage_ne lib faults hash filename size _ same] at found
        exact placed.rows other row found

theorem commitVerifiedFile_outside (lib : Libraries) (faults : Faults)
    (filePath hash filename : Str) (size : Nat) (state : State) :
    (commitVerifiedFile lib faults filePath hash filename size state).2.outside filePath =
        state.outside filePath ∨
      (commitVerifiedFile lib faults filePath hash filename size state).2.outside filePath =
        none := by
  rcases commitVerifiedFile_cases lib faults filePath hash filename size state with
    ⟨-, unrecorded⟩ | ⟨-, files, outside, moved, recorded⟩
  · left
    rw [unrecorded, ensureSpace_outside]
  · rw [recorded, (recordPackage_files ..).2]
    rw [← ensureSpace_outside faults size state]
    rcases outside_moveIntoPlace moved with stays | gone
    · exact .inl (congrFun stays filePath)
    · rw [gone]
      exact .inr (update_self ..)

@[simp]
theorem writeOutside_outside_self (path content : Str) (state : State) :
    (writeOutside path content state).outside path = some content :=
  update_self ..

/-- A put stores only what hashes to its name, whatever it is given. -/
theorem contentAddressed_put (addressed : ContentAddressed lib state) (faults : Faults)
    (pendingPath data : Str) (filename : Str) (digest : expectedHash.length = 64) :
    ContentAddressed lib
      (put lib faults pendingPath data expectedHash filename state).2 := by
  rcases put_cases lib faults pendingPath data expectedHash filename state with
    ⟨-, -, unchanged⟩ | ⟨⟨-, verified⟩, cleaned, -, committed⟩
  · rw [unchanged]
    exact addressed
  · have copied : ContentAddressed lib (writeOutside pendingPath data state) :=
      { addressed with }
    rw [committed]
    refine { contentAddressed_commitVerifiedFile copied faults filename data.length digest
      ?_ with }
    intro content source
    rw [writeOutside_outside_self, some.injEq] at source
    rwa [← source]

/-! ## How a put ends -/

theorem commitVerifiedFile_ne_hashMismatch (lib : Libraries) (faults : Faults)
    (filePath hash filename : Str) (size : Nat) (state : State) (expected got : Str) :
    (commitVerifiedFile lib faults filePath hash filename size state).1 ≠
      .error (.hashMismatch expected got) := by
  have space : (ensureSpace faults size state).1 ≠ .error (.hashMismatch expected got) := by
    simp only [ensureSpace]
    split
    · simp
    · split
      · simp
      · split
        · simp
        · cases faults.candidates <;> simp
  unfold commitVerifiedFile
  split
  · split
    · simp
    · split
      · simp
      · unfold recordPackage
        split
        · simp
        · split <;> simp
  · exact space

/-- Whether a put reports a wrong hash depends on the data alone, unless the copy
failed. -/
theorem hashMismatch_of_put {faults : Faults} {pendingPath data expectedHash filename : Str}
    {expected got : Str}
    (reported : (put lib faults pendingPath data expectedHash filename state).1 =
      .error (.hashMismatch expected got)) : lib.sha256 data ≠ expectedHash := by
  intro same
  unfold put at reported
  split at reported
  · cases reported
  · rw [if_neg (not_not.mpr same)] at reported
    have never := commitVerifiedFile_ne_hashMismatch lib faults pendingPath expectedHash filename
      data.length (writeOutside pendingPath data state) expected got
    split at reported
    · rename_i reason failed commitEq
      rw [commitEq] at never
      exact never reported
    · exact never reported

section

variable (addressed : ContentAddressed lib state)

include addressed

/-- Where every name is a digest, no log statement of a commit panics. -/
theorem commitVerifiedFile_ne_panic (faults : Faults)
    (filePath : Str) (filename : Str) (size : Nat) (digest : hash.length = 64) (fault : Panic) :
    (commitVerifiedFile lib faults filePath hash filename size state).1 ≠ .panic fault := by
  have logged : 16 ≤ hash.length := by omega
  have space := ensureSpace_ne_panic addressed faults size fault
  unfold commitVerifiedFile
  split
  · split
    · simp
    · split
      · simp
      · simp only [recordPackage, logHash, if_pos logged]
        split <;> simp
  · exact space

theorem put_ne_panic (faults : Faults)
    (pendingPath data : Str) (filename : Str) (digest : expectedHash.length = 64) (fault : Panic) :
    (put lib faults pendingPath data expectedHash filename state).1 ≠ .panic fault := by
  have copied : ContentAddressed lib (writeOutside pendingPath data state) :=
    { addressed with }
  have commit := commitVerifiedFile_ne_panic copied faults pendingPath filename data.length
    digest fault
  unfold put
  split
  · simp
  · split
    · simp
    · split
      · simp
      · exact commit

/-! ## Reading -/

theorem sha256_eq_of_get {hash content : Str}
    {row : PackageRow} (found : (get hash state).1 = .ok (content, row)) :
    lib.sha256 content = hash := by
  unfold get at found
  split at found
  · cases found
  · rename_i stored fileEq
    dsimp only at found
    split at found
    · cases found
    · cases found
      exact addressed.files hash content fileEq

theorem contentAddressed_get (hash : Str) :
    ContentAddressed lib (get hash state).2 := by
  obtain ⟨activeReaders, pendingAccess, read⟩ := get_eq hash state
  rw [read]
  exact { addressed with }

end

/-- A package that a read will find: its file and its row are there. -/
def Readable (hash : Str) (state : State) : Prop :=
  (state.files hash).isSome ∧ (state.packages.find? hash).isSome

theorem exists_of_readable (readable : Readable hash state) :
    ∃ content row, (get hash state).1 = .ok (content, row) := by
  obtain ⟨content, isFile⟩ := isSome_iff_exists.mp readable.1
  obtain ⟨row, isRow⟩ := isSome_iff_exists.mp readable.2
  have recorded : ∀ counted : State, (recordAccess hash counted).packages = counted.packages :=
    fun _ => rfl
  refine ⟨content, row, ?_⟩
  unfold get
  rw [isFile]
  dsimp only
  rw [recorded]
  dsimp only
  rw [isRow]

theorem isSome_files_of_moveIntoPlace
    (step : moveIntoPlace faults filePath hash state = some moved) : (moved.files hash).isSome := by
  rcases moveIntoPlace_cases step with ⟨taken, ⟨-, rfl⟩ | ⟨-, rfl⟩⟩ | ⟨content, -, -, rfl⟩
  · exact taken
  · exact taken
  · simp only [update_self, isSome_some]

/-- A package in place is readable after the recording if its row is written or there. -/
theorem readable_recordPackage_iff (lib : Libraries) (faults : Faults) (hash filename : Str)
    (size : Nat) (inPlace : (state.files hash).isSome) :
    Readable hash (recordPackage lib faults hash filename size state).2 ↔
      faults.record = false ∨ (state.packages.find? hash).isSome := by
  rcases recordPackage_cases lib faults hash filename size state with
    ⟨fails, failed⟩ | ⟨records, recorded⟩
  · simp [failed, fails, Readable, inPlace]
  · simp [recorded, records, Readable, inPlace, State.record]

theorem readable_of_commitVerifiedFile {faults : Faults} {filePath hash filename : Str} {size : Nat}
    (succeeded : (commitVerifiedFile lib faults filePath hash filename size state).1 = .ok) :
    Readable hash (commitVerifiedFile lib faults filePath hash filename size state).2 := by
  rcases commitVerifiedFile_cases lib faults filePath hash filename size state with
    ⟨failed, -⟩ | ⟨-, files, outside, moved, recorded⟩
  · exact absurd succeeded failed
  · rw [recorded] at succeeded ⊢
    refine (readable_recordPackage_iff lib faults hash filename size
      (isSome_files_of_moveIntoPlace moved)).mpr (.inl ?_)
    rcases recordPackage_cases lib faults hash filename size _ with ⟨-, failed⟩ | ⟨records, -⟩
    · rw [failed] at succeeded
      cases succeeded
    · exact records

theorem readable_of_put {faults : Faults} {pendingPath data expectedHash filename : Str}
    (succeeded : (put lib faults pendingPath data expectedHash filename state).1 = .ok) :
    Readable expectedHash (put lib faults pendingPath data expectedHash filename state).2 := by
  rcases put_cases lib faults pendingPath data expectedHash filename state with
    ⟨-, failed, -⟩ | ⟨-, cleaned, outcome, committed⟩
  · exact absurd succeeded failed
  · rw [committed]
    exact readable_of_commitVerifiedFile (outcome.symm.trans succeeded)

/-! ## Runs -/

/-- Names are digests, and a file that is handed over was verified. -/
def HandsOverVerified (lib : Libraries) (state : State) : Event → Prop
  | .put _ _ _ expectedHash _ => expectedHash.length = 64
  | .putFile _ filePath hash _ _ =>
    hash.length = 64 ∧
      ∀ content, state.outside filePath = some content → lib.sha256 content = hash
  | _ => True

theorem contentAddressed_setPinned (addressed : ContentAddressed lib state) (pinned : Bool)
    (faults : Faults) (hash : Str) :
    ContentAddressed lib (setPinned pinned faults hash state).2 := by
  rcases setPinned_cases pinned faults hash state with unchanged | updated
  · rw [unchanged]
    exact addressed
  · rw [updated]
    refine ⟨addressed.files, fun other row found => ?_⟩
    by_cases same : other = hash
    · rw [same, find?_update_self, map_eq_some_iff] at found
      obtain ⟨old, oldFound, -⟩ := found
      rw [same]
      exact addressed.rows hash old oldFound
    · rw [find?_update_ne _ same] at found
      exact addressed.rows other row found

theorem contentAddressed_next (event : Event) (addressed : ContentAddressed lib state)
    (verified : HandsOverVerified lib state event) :
    ContentAddressed lib (next lib state event) := by
  cases event with
  | put faults pendingPath data expectedHash filename =>
    exact contentAddressed_put addressed faults pendingPath data filename verified
  | putFile faults filePath hash filename size =>
    exact contentAddressed_commitVerifiedFile addressed faults filename size verified.1
      verified.2
  | get hash => exact contentAddressed_get addressed hash
  | close hash => exact { addressed with }
  | delete faults hash => exact addressed.shrinks (shrinks_deleteUnlocked faults hash none state)
  | pin faults hash => exact contentAddressed_setPinned addressed true faults hash
  | unpin faults hash => exact contentAddressed_setPinned addressed false faults hash
  | flush faults => exact contentAddressed_flushAccess addressed faults
  | flusherSwap =>
    obtain ⟨pendingAccess, flushing, swapped⟩ := flusherSwap_eq state
    rw [next, swapped]
    exact { addressed with }
  | flusherCommit faults =>
    rw [next, flusherCommit_eq]
    exact contentAddressed_applyBatch addressed faults _ rfl rfl
  | advance seconds => exact { addressed with }

/-- While callers hand over verified files only, the store stays content addressed. -/
theorem contentAddressed_run (addressed : ContentAddressed lib state) (events : List Event)
    (verified : StepsMeet (next lib) (HandsOverVerified lib) state events) :
    ContentAddressed lib (run (next lib) state events) :=
  run_invariant_of_stepsMeet (ContentAddressed lib)
    (fun _ event addressed verified => contentAddressed_next event addressed verified)
    addressed verified

end Debswarm.Cache
