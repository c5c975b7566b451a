import Debswarm.Cache.Handover

/-!
# What can be read back

A store verifies the bytes it is given and moves them to the place of their hash.  When the
place is taken it looks at nothing there: the bytes it verified are thrown away, and what
was at the place before is recorded under the hash.  A reader thus gets the stored bytes
exactly when the place was free, held these bytes already or was emptied to make room.
-/

namespace Debswarm.Cache

open Function Option Text

section

variable {lib : Libraries} {state : State}

/-- A store leaves the package readable: it ends before the move and evicts no readable copy, or the
file is in place and the row is written or there. -/
def LeavesReadable (faults : Faults) (hash : Str) (size : Nat) (state : State) : Prop :=
  ((SpaceShort faults size state ∨ faults.mkdir = true) ∧ Readable hash state ∧
      ¬ Evicts faults size hash state) ∨
    (¬ SpaceShort faults size state ∧ faults.mkdir = false ∧
      (faults.move = false ∨
        ((state.files hash).isSome ∧ ¬ Evicts faults size hash state)) ∧
      (faults.record = false ∨
        ((state.packages.find? hash).isSome ∧
          ¬ (Evicts faults size hash state ∧ faults.deleteRow hash = false))))

/-- The same for a store that copies the bytes first. -/
def PutLeavesReadable (faults : Faults) (hash : Str) (size : Nat) (state : State) : Prop :=
  if faults.copy then Readable hash state else LeavesReadable faults hash size state

variable {faults : Faults} {size : Nat} {filePath hash filename data expectedHash other : Str}

theorem readable_ensureSpace_iff (quiet : ∀ fault, (ensureSpace faults size state).1 ≠ .panic fault)
    (hash : Str) :
    Readable hash (ensureSpace faults size state).2 ↔
      Readable hash state ∧ ¬ Evicts faults size hash state := by
  rw [Readable, ensureSpace_files_iff quiet, ensureSpace_row_iff quiet]
  constructor
  · rintro ⟨⟨file, stays⟩, row, -⟩
    exact ⟨⟨file, row⟩, stays⟩
  · rintro ⟨⟨file, row⟩, stays⟩
    exact ⟨⟨file, stays⟩, row, fun gone => stays gone.1⟩

theorem commitVerifiedFile_of_roomy (roomy : (ensureSpace faults size state).1 = .ok) :
    commitVerifiedFile lib faults filePath hash filename size state =
      if faults.mkdir then (.error .mkdirFailed, (ensureSpace faults size state).2)
      else
        match moveIntoPlace faults filePath hash (ensureSpace faults size state).2 with
        | none => (.error .moveFailed, (ensureSpace faults size state).2)
        | some moved => recordPackage lib faults hash filename size moved := by
  unfold commitVerifiedFile
  rcases spaceEq : ensureSpace faults size state with ⟨outcome, left⟩
  rw [spaceEq] at roomy
  cases roomy
  rfl

theorem readable_commitVerifiedFile_iff (addressed : ContentAddressed lib state) (faults : Faults)
    (hash filename : Str) (size : Nat) (source : (state.outside filePath).isSome) :
    Readable hash (commitVerifiedFile lib faults filePath hash filename size state).2 ↔
      LeavesReadable faults hash size state := by
  have quiet := ensureSpace_ne_panic addressed faults size
  have made := readable_ensureSpace_iff quiet hash
  have room := ensureSpace_ok_iff quiet
  by_cases short : SpaceShort faults size state
  · have noRoom : (ensureSpace faults size state).1 ≠ .ok := fun roomy => room.mp roomy short
    have unmoved : (commitVerifiedFile lib faults filePath hash filename size state).2 =
        (ensureSpace faults size state).2 := by
      unfold commitVerifiedFile
      split
      next roomy spaceEq => exact absurd (congrArg Prod.fst spaceEq) noRoom
      next => rfl
    rw [unmoved, made, LeavesReadable]
    simp [short]
  · have roomy := room.mpr short
    rw [commitVerifiedFile_of_roomy roomy]
    cases mkdir : faults.mkdir with
    | true =>
      rw [if_pos rfl, made, LeavesReadable]
      simp [mkdir]
    | false =>
      have files := ensureSpace_files_iff quiet hash
      have row := ensureSpace_row_iff quiet hash
      have movable : faults.move = false ∨
          ((state.files hash).isSome ∧ ¬ Evicts faults size hash state) ↔
            moveIntoPlace faults filePath hash (ensureSpace faults size state).2 ≠ none := by
        rw [ne_eq, moveIntoPlace_eq_none_iff, ensureSpace_outside, ← files]
        cases faults.move <;> simp [isSome_iff_ne_none.mp source, isSome_iff_ne_none]
      simp only [LeavesReadable, short, mkdir, false_or, Bool.false_eq_true, false_and,
        not_false_eq_true, true_and, if_false]
      rw [movable]
      cases moveEq : moveIntoPlace faults filePath hash (ensureSpace faults size state).2 with
      | none =>
        have absent := ((moveIntoPlace_eq_none_iff ..).mp moveEq).1
        simp [Readable, absent]
      | some moved =>
        simp only [ne_eq, reduceCtorEq, not_false_eq_true, true_and]
        rw [readable_recordPackage_iff lib faults hash filename size
          (isSome_files_of_moveIntoPlace moveEq)]
        obtain ⟨files, outside, rfl⟩ := moveIntoPlace_eq_some moveEq
        rw [row]

/-- A put that does not refuse its bytes makes the package readable iff it leaves it readable. -/
theorem readable_put_iff (addressed : ContentAddressed lib state) (faults : Faults)
    (pendingPath filename : Str) (verified : faults.copy = false → lib.sha256 data = expectedHash) :
    Readable expectedHash (put lib faults pendingPath data expectedHash filename state).2 ↔
      PutLeavesReadable faults expectedHash data.length state := by
  unfold put PutLeavesReadable
  split
  · rfl
  next copies =>
    have same := verified (eq_false_of_ne_true copies)
    rw [if_neg (not_not_intro same)]
    have copied : ContentAddressed lib (writeOutside pendingPath data state) :=
      { addressed with }
    have written : ((writeOutside pendingPath data state).outside pendingPath).isSome := by
      rw [writeOutside_outside_self, isSome_some]
    have committed := readable_commitVerifiedFile_iff copied faults expectedHash filename
      data.length written
    split
    next reason failed commitEq =>
      rw [commitEq] at committed
      exact committed
    next => exact committed

/-- A put that could not copy, or was given the right bytes, does not report another hash. -/
theorem put_ne_hashMismatch {faults : Faults} {data expectedHash : Str}
    (verified : faults.copy = false → lib.sha256 data = expectedHash)
    (pendingPath filename expected got : Str) :
    (put lib faults pendingPath data expectedHash filename state).1 ≠
      .error (.hashMismatch expected got) := by
  intro reported
  cases copy : faults.copy with
  | false => exact hashMismatch_of_put reported (verified copy)
  | true => simp [put, copy] at reported

theorem put_eq_of_refused (copies : faults.copy = false)
    (different : lib.sha256 data ≠ expectedHash) (pendingPath filename : Str) :
    put lib faults pendingPath data expectedHash filename state =
      (.error (.hashMismatch expectedHash (lib.sha256 data)), state) := by
  rw [put, if_neg (by simp [copies]), if_pos different]

/-! ## Other packages -/

theorem readable_of_ensureSpace {faults : Faults} {needed : Nat} {hash : Str}
    (readable : Readable hash (ensureSpace faults needed state).2) : Readable hash state := by
  rw [ensureSpace_state] at readable
  have shrinks := shrinks_evictionPass faults needed state
  obtain ⟨content, file⟩ := isSome_iff_exists.mp readable.1
  obtain ⟨row, found⟩ := isSome_iff_exists.mp readable.2
  refine ⟨isSome_of_eq_some (shrinks.files _ _ file), ?_⟩
  rw [← isSome_find?_applyBatch faults state.pendingAccess]
  exact isSome_of_eq_some (shrinks.rows _ _ found)

theorem readable_of_commitVerifiedFile_other {faults : Faults}
    {filePath hash filename other : Str} {size : Nat} (distinct : other ≠ hash)
    (readable : Readable other
      (commitVerifiedFile lib faults filePath hash filename size state).2) :
    Readable other state := by
  apply @readable_of_ensureSpace state faults size
  rcases commitVerifiedFile_cases lib faults filePath hash filename size state with
    ⟨-, unrecorded⟩ | ⟨-, files, outside, moved, recorded⟩
  · rwa [unrecorded] at readable
  · rw [recorded] at readable
    refine ⟨?_, ?_⟩
    · have file := readable.1
      rw [(recordPackage_files ..).1] at file
      rcases files_moveIntoPlace moved with same | ⟨content, -, same⟩
      · rwa [same] at file
      · rwa [same, update_of_ne distinct] at file
    · have row := readable.2
      rwa [find?_recordPackage_ne lib faults hash filename size _ distinct] at row

/-- A put makes no other package readable, and its own only with the right bytes. -/
theorem readable_of_put_cases {pendingPath : Str} (readable : Readable other
      (put lib faults pendingPath data expectedHash filename state).2) :
    Readable other state ∨ (other = expectedHash ∧ lib.sha256 data = expectedHash) := by
  rcases put_cases lib faults pendingPath data expectedHash filename state with
    ⟨-, -, unchanged⟩ | ⟨⟨-, verified⟩, cleaned, -, committed⟩
  · rw [unchanged] at readable
    exact .inl readable
  · by_cases same : other = expectedHash
    · exact .inr ⟨same, verified⟩
    · rw [committed] at readable
      have copied := @readable_of_commitVerifiedFile_other lib
        (writeOutside pendingPath data state) _ _ _ _ _ _ same readable
      exact .inl copied

/-! ## Stores with room -/

theorem files_ensureSpace_of_roomy {needed : Nat}
    (roomy : Fits needed state) :
    (ensureSpace faults needed state).2.files = state.files := by
  rw [ensureSpace_state]
  unfold evictionPass
  dsimp only
  split
  · rfl
  · rw [if_pos]
    · rfl
    · exact roomy

theorem has_commitVerifiedFile_of_roomy (roomy : Fits size state)
    (cached : has other state = true) :
    has other (commitVerifiedFile lib faults filePath hash filename size state).2 = true := by
  have spared : has other (ensureSpace faults size state).2 = true := by
    rwa [has, files_ensureSpace_of_roomy roomy]
  unfold commitVerifiedFile
  generalize ensureSpace faults size state = space at spared ⊢
  split
  · split
    · exact spared
    · split
      · exact spared
      · rename_i moveEq
        rw [has, (recordPackage_files ..).1]
        rcases files_moveIntoPlace moveEq with same | ⟨content, -, filled⟩
        · rwa [same]
        · rw [filled, update_apply]
          split
          · rfl
          · exact spared
  · exact spared

theorem has_put_of_roomy {pendingPath : Str}
    (roomy : Fits data.length state) (cached : has other state = true) :
    has other (put lib faults pendingPath data expectedHash filename state).2 = true := by
  rcases put_cases lib faults pendingPath data expectedHash filename state with
    ⟨-, -, unchanged⟩ | ⟨-, cleaned, -, committed⟩
  · rwa [unchanged]
  · rw [committed]
    exact has_commitVerifiedFile_of_roomy roomy cached

end

/-! ## Reading back what was stored -/

variable {lib : Libraries} {state : State}

theorem files_of_moveIntoPlace {faults : Faults} {filePath hash : Str} {moved : State}
    (step : moveIntoPlace faults filePath hash state = some moved) :
    moved.files hash = (state.files hash).or (state.outside filePath) := by
  rcases moveIntoPlace_cases step with
    ⟨taken, ⟨-, rfl⟩ | ⟨-, rfl⟩⟩ | ⟨content, free, source, rfl⟩
  · exact (or_of_isSome taken).symm
  · exact (or_of_isSome taken).symm
  · simp [free, source]

theorem files_of_commitVerifiedFile {faults : Faults} {filePath hash filename : Str} {size : Nat}
    (succeeded : (commitVerifiedFile lib faults filePath hash filename size state).1 = .ok) :
    (ensureSpace faults size state).1 = .ok ∧
      (commitVerifiedFile lib faults filePath hash filename size state).2.files hash =
        ((ensureSpace faults size state).2.files hash).or (state.outside filePath) := by
  rcases commitVerifiedFile_cases lib faults filePath hash filename size state with
    ⟨failed, -⟩ | ⟨roomy, files, outside, moved, recorded⟩
  · exact absurd succeeded failed
  · refine ⟨roomy, ?_⟩
    rw [recorded, (recordPackage_files ..).1, files_of_moveIntoPlace moved, ensureSpace_outside]

/-- A successful put leaves what was at the place and did not have to make way, else its bytes. -/
theorem files_of_put {faults : Faults} {pendingPath data expectedHash filename : Str}
    (succeeded : (put lib faults pendingPath data expectedHash filename state).1 = .ok) :
    (MakesWay faults data.length expectedHash state →
        (put lib faults pendingPath data expectedHash filename state).2.files expectedHash =
          some data) ∧
      (¬ MakesWay faults data.length expectedHash state →
        (put lib faults pendingPath data expectedHash filename state).2.files expectedHash =
          some ((state.files expectedHash).getD data)) := by
  rcases put_cases lib faults pendingPath data expectedHash filename state with
    ⟨-, failed, -⟩ | ⟨-, cleaned, outcome, committed⟩
  · exact absurd succeeded failed
  · obtain ⟨roomy, filesEq⟩ := files_of_commitVerifiedFile (outcome.symm.trans succeeded)
    obtain ⟨gone, stays⟩ := ensureSpace_files roomy expectedHash
    have source : (writeOutside pendingPath data state).outside pendingPath = some data :=
      writeOutside_outside_self ..
    rw [committed]
    dsimp only
    rw [filesEq, source]
    constructor
    · intro makesWay
      rw [gone makesWay, none_or]
    · intro keeps
      rw [stays keeps]
      change (state.files expectedHash).or (some data) = _
      cases state.files expectedHash with
      | none | some content => rfl

theorem get_eq_ok_iff {hash : Str} (readable : Readable hash state) (data : Str) :
    (∃ row, (get hash state).1 = .ok (data, row)) ↔ state.files hash = some data := by
  obtain ⟨content, row, got⟩ := exists_of_readable readable
  have stored : state.files hash = some content := by
    unfold get at got
    split at got
    · cases got
    · dsimp only at got
      split at got
      · cases got
      · cases got
        assumption
  rw [got, stored]
  simp

/-- After a successful put, a read returns its bytes iff the place of their hash was free, held
these bytes, or is emptied to make room. -/
theorem get_put_iff {faults : Faults} {pendingPath data expectedHash filename : Str}
    (succeeded : (put lib faults pendingPath data expectedHash filename state).1 = .ok) :
    (∃ row, (get expectedHash
        (put lib faults pendingPath data expectedHash filename state).2).1 = .ok (data, row)) ↔
      state.files expectedHash = none ∨ state.files expectedHash = some data ∨
        MakesWay faults data.length expectedHash state := by
  obtain ⟨emptied, kept⟩ := files_of_put succeeded
  rw [get_eq_ok_iff (readable_of_put succeeded) data]
  by_cases makesWay : MakesWay faults data.length expectedHash state
  · exact iff_of_true (emptied makesWay) (.inr (.inr makesWay))
  · rw [kept makesWay]
    cases state.files expectedHash with
    | none => simp
    | some content => simp [makesWay]

/-- A first store is read back. -/
theorem get_put_of_free :
    let lib : Libraries := { sha256 := hexEncode64, unicodeLower := id }
    let state := State.opened 0 10 0 Table.empty (fun _ => none) fun _ => none
    let stored := put lib {} (ofAscii "p") [1] (hexEncode64 [1]) (ofAscii "a_1_all.deb") state
    stored.1 = .ok ∧ ∃ row, (get (hexEncode64 [1]) stored.2).1 = .ok ([1], row) := by
  intro lib state stored
  have succeeded : stored.1 = .ok := by decide
  exact ⟨succeeded, (get_put_iff succeeded).mpr (.inl rfl)⟩

/-- After a crash left an empty file, storing succeeds, and the empty file is what is read. -/
theorem get_put_of_truncated :
    let lib : Libraries := { sha256 := hexEncode64, unicodeLower := id }
    let state := State.opened 0 10 0 Table.empty
      (Function.update (fun _ => none) (hexEncode64 [1]) (some [])) fun _ => none
    let stored := put lib {} (ofAscii "p") [1] (hexEncode64 [1]) (ofAscii "a_1_all.deb") state
    stored.1 = .ok ∧ (∃ row, (get (hexEncode64 [1]) stored.2).1 = .ok ([], row)) ∧
      ¬ ∃ row, (get (hexEncode64 [1]) stored.2).1 = .ok ([1], row) := by
  intro lib state stored
  have succeeded : stored.1 = .ok := by decide
  have leftover : stored.2.files (hexEncode64 [1]) = some [] := by decide
  have readable : Readable (hexEncode64 [1]) stored.2 := readable_of_put succeeded
  refine ⟨succeeded, (get_eq_ok_iff readable []).mpr leftover, fun returned => ?_⟩
  have asStored := (get_eq_ok_iff readable [1]).mp returned
  rw [leftover] at asStored
  cases asStored

end Debswarm.Cache
