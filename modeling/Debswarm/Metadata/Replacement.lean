import Debswarm.Metadata.Room

/-!
# Replacing a cached body

A commit that fails is to leave what was cached for its URL untouched, and no pending file
behind.  It does so as long as it fails before it touches the cached copy.  But making room
may evict the very copy that the body was to replace, and the copy's file is removed before
the pending file takes its place and before the row is written.  If the row cannot be written
and the new file then cannot be removed, the new body stays with the old row.
-/

namespace Debswarm.Metadata

open Text

/-! ## A failed commit -/

/-- What was returned for the URL before is still returned, and the pending file is gone. -/
def LeavesPrevious (writer : MetadataWriter) (before after : State) : Prop :=
  (∀ now later entry, (getMetadata now writer.url before).1 = some entry →
      (getMetadata later writer.url after).1 = some entry) ∧
    after.pending writer.tmp = none

/-- The body could not be closed, has another digest than its URL names, or is too large. -/
def Refused (lib : Libraries) (faults : WriteFaults) (writer : MetadataWriter)
    (state : State) : Prop :=
  faults.close = true ∨
    (writer.expectedHash ≠ [] ∧ lib.sha256 writer.written ≠ writer.expectedHash) ∨
      state.metadataMaxSize < writer.size

instance decidableRefused (lib : Libraries) (faults : WriteFaults) (writer : MetadataWriter)
    (state : State) : Decidable (Refused lib faults writer state) :=
  inferInstanceAs (Decidable (_ ∨ _ ∨ _))

/-- The bytes that a body adds to the row it replaces. -/
def growth (faults : WriteFaults) (writer : MetadataWriter) (state : State) : Int :=
  writer.size -
    oldSizeIf (if faults.lookup then Option.none else state.indices.find? writer.url)

/-- The row fails and the new file stays, but it is the cached body with its old row. -/
def StrandsCopy (faults : WriteFaults) (writer : MetadataWriter) (state : State) : Prop :=
  ¬ NoRoom faults (growth faults writer state) state ∧ faults.mkdir = false ∧
    faults.install = false ∧ faults.withdraw = true ∧
    state.files writer.url = some writer.written ∧
    (MakesWay faults (growth faults writer state) writer.url state →
      faults.deleteRow writer.url = true) ∧
    (¬ MakesWay faults (growth faults writer state) writer.url state → faults.replace = false)

/-- A failed commit leaves the cached copy: it was finished before, is refused, finds no copy, fails
before it removes the file, or strands the same body. -/
def FailsEarly (lib : Libraries) (faults : WriteFaults) (writer : MetadataWriter)
    (state : State) : Prop :=
  if writer.done then state.pending writer.tmp = none
  else
    Refused lib faults writer state ∨ state.files writer.url = none ∨
      state.indices.find? writer.url = none ∨
        (¬ MakesWay faults (growth faults writer state) writer.url state ∧
          (NoRoom faults (growth faults writer state) state ∨ faults.mkdir = true ∨
            faults.replace = true)) ∨
          StrandsCopy faults writer state

@[simp]
theorem dropPending_pending (tmp : Nat) (state : State) :
    (dropPending tmp state).pending tmp = none :=
  Function.update_self ..

/-- A failed installation has touched only the pending file, has removed the copy's file, or has
replaced it and cannot remove the new one. -/
theorem installBody_error_cases {faults : WriteFaults} {now : Int} {writer : MetadataWriter}
    {old : Option IndexRow} {state : State} {error : CommitError}
    (failed : (installBody faults now writer old state).1 = some error) :
    ((faults.mkdir = true ∨ (state.files writer.url ≠ none ∧ faults.replace = true)) ∧
        (installBody faults now writer old state).2 = dropPending writer.tmp state) ∨
      (faults.mkdir = false ∧ ¬ (state.files writer.url ≠ none ∧ faults.replace = true) ∧
        (installBody faults now writer old state).2.indices = state.indices ∧
        (installBody faults now writer old state).2.files writer.url =
          if faults.install = false ∧ faults.withdraw = true then some writer.written
          else none) := by
  unfold installBody at failed ⊢
  cases mkdir : faults.mkdir with
  | true => exact .inl ⟨.inl rfl, rfl⟩
  | false =>
    rw [mkdir] at failed
    by_cases irreplaceable : ((state.files writer.url).isSome && faults.replace) = true
    · left
      simp only [Bool.false_eq_true, if_false, if_pos irreplaceable]
      rw [Bool.and_eq_true, Option.isSome_iff_ne_none] at irreplaceable
      exact ⟨.inr irreplaceable, trivial⟩
    · right
      simp only [Bool.false_eq_true, if_false, if_neg irreplaceable] at failed ⊢
      rw [Bool.and_eq_true, Option.isSome_iff_ne_none] at irreplaceable
      refine ⟨trivial, irreplaceable, ?_⟩
      split at failed
      · rename_i installFails
        rw [if_pos installFails]
        simp [installFails, dropPending]
      · rename_i installs
        rw [if_neg installs]
        split at failed
        · rename_i recordFails
          rw [if_pos recordFails]
          cases faults.withdraw <;> simp [installs, dropPending]
        · cases failed

/-! ### The parts of a commit -/

section Commit

variable {lib : Libraries} {faults : WriteFaults} {now : Int} {writer : MetadataWriter}
variable {state : State}

theorem commit_of_refused (fresh : writer.done = false)
    (refused : Refused lib faults writer state) :
    (commit lib faults now writer state).2 = dropPending writer.tmp state := by
  unfold commit
  rw [if_neg (by simp [fresh])]
  rcases refused with unclosed | mismatch | oversize
  · rw [if_pos unclosed]
  · split <;> rfl
  · split
    · rfl
    · split
      · rfl
      · split <;> rfl

theorem commit_of_accepted (fresh : writer.done = false)
    (accepted : ¬ Refused lib faults writer state) (enabled : 0 < state.metadataMaxSize) :
    commit lib faults now writer state =
      match ensureMetadataSpace faults (growth faults writer state) state with
      | (some error, evicted) => (some error, dropPending writer.tmp evicted)
      | (none, evicted) =>
        installBody faults now writer
          (if faults.lookup then Option.none else state.indices.find? writer.url) evicted := by
  rw [Refused, not_or, not_or] at accepted
  obtain ⟨closed, verified, small⟩ := accepted
  rw [commit, if_neg (by simp [fresh]), if_neg closed, if_neg verified,
    if_neg (not_le.mpr enabled), if_neg small]
  rfl

theorem commit_of_disabled (fresh : writer.done = false)
    (accepted : ¬ Refused lib faults writer state) (disabled : state.metadataMaxSize ≤ 0) :
    commit lib faults now writer state = (none, dropPending writer.tmp state) := by
  rw [Refused, not_or, not_or] at accepted
  obtain ⟨closed, verified, small⟩ := accepted
  rw [commit, if_neg (by simp [fresh]), if_neg closed, if_neg verified, if_pos disabled]

@[simp]
theorem installBody_pending (old : Option IndexRow) :
    (installBody faults now writer old state).2.pending writer.tmp = none :=
  @installBody_invariant _ _ _ _ (fun after => after.pending writer.tmp = none) _
    (dropPending_pending ..) (dropPending_pending ..) (fun _ _ => dropPending_pending ..)
    (dropPending_pending ..)

theorem commit_pending (fresh : writer.done = false) :
    (commit lib faults now writer state).2.pending writer.tmp = none := by
  by_cases refused : Refused lib faults writer state
  · rw [commit_of_refused fresh refused]
    exact dropPending_pending ..
  · by_cases enabled : 0 < state.metadataMaxSize
    · rw [commit_of_accepted fresh refused enabled]
      split
      · exact dropPending_pending ..
      · exact installBody_pending _
    · rw [commit_of_disabled fresh refused (not_lt.mp enabled)]
      exact dropPending_pending ..

/-- What is cached for a URL is still returned if its row and its body are still there. -/
theorem leavesPrevious_iff_of_cached {after : State} {row : IndexRow} {body : Str}
    (enabled : 0 < state.metadataMaxSize) (found : state.indices.find? writer.url = some row)
    (file : state.files writer.url = some body) (dropped : after.pending writer.tmp = none)
    (budget : after.metadataMaxSize = state.metadataMaxSize) :
    LeavesPrevious writer state after ↔
      after.indices.find? writer.url = some row ∧ after.files writer.url = some body := by
  constructor
  · intro leaves
    exact (getMetadata_eq_some_iff.mp (leaves.1 0 0 (row, body)
      (getMetadata_eq_some_iff.mpr ⟨enabled, found, file⟩))).2
  · rintro ⟨foundAfter, fileAfter⟩
    refine ⟨fun now later entry returned => ?_, dropped⟩
    obtain ⟨-, foundBefore, fileBefore⟩ := getMetadata_eq_some_iff.mp returned
    rw [found, Option.some.injEq] at foundBefore
    rw [file, Option.some.injEq] at fileBefore
    rw [getMetadata_eq_some_iff, budget, foundAfter, fileAfter, foundBefore, fileBefore]
    exact ⟨enabled, rfl, rfl⟩

@[simp]
theorem commit_metadataMaxSize :
    (commit lib faults now writer state).2.metadataMaxSize = state.metadataMaxSize :=
  @commit_invariant _ _ _ _ _ (fun after => after.metadataMaxSize = state.metadataMaxSize) rfl
    (fun _ kept => kept)
    (fun before url size kept =>
      (deleteVictim_metadataMaxSize faults before (url, size)).trans kept)
    fun _ _ _ kept =>
      @installBody_invariant _ _ _ _ (fun after => after.metadataMaxSize = _) _ kept kept
        (fun _ _ => kept) kept

/-- Making room leaves a cached copy exactly where the copy does not make way. -/
theorem intact_ensureMetadataSpace_iff (faults : WriteFaults) (needed : Int) {url : Str}
    {row : IndexRow} {body : Str} (found : state.indices.find? url = some row)
    (file : state.files url = some body) :
    ((ensureMetadataSpace faults needed state).2.indices.find? url = some row ∧
        (ensureMetadataSpace faults needed state).2.files url = some body) ↔
      ¬ MakesWay faults needed url state := by
  obtain ⟨gone, kept⟩ := ensureMetadataSpace_url faults needed state url
  rw [found, Option.isSome_some, and_iff_right rfl] at gone kept
  constructor
  · rintro ⟨-, present⟩ makesWay
    rw [(gone makesWay).1] at present
    cases present
  · intro spared
    obtain ⟨sameFile, sameRow⟩ := kept spared
    exact ⟨sameRow, sameFile.trans file⟩

/-- With room and a directory, whether the copy is stranded depends on the later steps. -/
theorem strandsCopy_iff {body : Str}
    (roomy : ¬ NoRoom faults (growth faults writer state) state) (mkdir : faults.mkdir = false)
    (file : state.files writer.url = some body) :
    StrandsCopy faults writer state ↔
      (faults.install = false ∧ faults.withdraw = true) ∧ writer.written = body ∧
        (MakesWay faults (growth faults writer state) writer.url state →
          faults.deleteRow writer.url = true) ∧
        (¬ MakesWay faults (growth faults writer state) writer.url state →
          faults.replace = false) := by
  rw [StrandsCopy, and_iff_right roomy, and_iff_right mkdir, file, Option.some.injEq, and_assoc,
    eq_comm (b := writer.written)]

/-- A cached copy survives an accepted body that fails iff it does not make way and its file is not
removed, or the same body is stranded. -/
theorem survives_commit_iff {error : CommitError} {row : IndexRow} {body : Str}
    (fresh : writer.done = false) (accepted : ¬ Refused lib faults writer state)
    (enabled : 0 < state.metadataMaxSize) (found : state.indices.find? writer.url = some row)
    (file : state.files writer.url = some body)
    (failed : (commit lib faults now writer state).1 = some error) :
    ((commit lib faults now writer state).2.indices.find? writer.url = some row ∧
        (commit lib faults now writer state).2.files writer.url = some body) ↔
      (¬ MakesWay faults (growth faults writer state) writer.url state ∧
        (NoRoom faults (growth faults writer state) state ∨ faults.mkdir = true ∨
          faults.replace = true)) ∨ StrandsCopy faults writer state := by
  have room := ensureMetadataSpace_eq_none_iff faults (growth faults writer state) state
  have intact := intact_ensureMetadataSpace_iff faults (growth faults writer state) found file
  rw [commit_of_accepted fresh accepted enabled] at failed ⊢
  split at failed
  · rename_i early evicted roomEq
    rw [roomEq] at room intact
    have noRoom : NoRoom faults (growth faults writer state) state := by
      by_contra roomy
      cases room.mpr roomy
    have notStranded : ¬ StrandsCopy faults writer state := fun strands => strands.1 noRoom
    rw [or_iff_left notStranded]
    exact intact.trans (and_iff_left (.inl noRoom)).symm
  · rename_i evicted roomEq
    rw [roomEq] at room intact
    have roomy : ¬ NoRoom faults (growth faults writer state) state := room.mp rfl
    have copy := ensureMetadataSpace_url faults (growth faults writer state) state writer.url
    rw [roomEq, found, Option.isSome_some, and_iff_right rfl] at copy
    obtain ⟨gone, kept⟩ := copy
    rcases installBody_error_cases failed with
      ⟨cause, untouched⟩ | ⟨mkdir, replaced, sameRows, fileAfter⟩
    · have notStranded : ¬ StrandsCopy faults writer state := by
        rintro ⟨-, mkdir, -, -, -, -, replaces⟩
        rcases cause with noDirectory | ⟨isThere, irreplaceable⟩
        · rw [mkdir] at noDirectory
          cases noDirectory
        · have spared := fun makesWay => isThere (gone makesWay).1
          rw [replaces spared] at irreplaceable
          cases irreplaceable
      rw [untouched, or_iff_left notStranded]
      refine intact.trans (and_iff_left (.inr ?_)).symm
      exact cause.imp_right And.right
    · rw [sameRows, fileAfter, Option.ite_none_right_eq_some, Option.some.injEq]
      by_cases makesWay : MakesWay faults (growth faults writer state) writer.url state
      · rw [(gone makesWay).2, Option.ite_none_right_eq_some, and_iff_left rfl]
        simp only [strandsCopy_iff roomy mkdir file, makesWay, not_true_eq_false, false_and,
          false_or, true_imp_iff, false_imp_iff, and_true]
        rw [and_comm, and_assoc]
      · obtain ⟨sameFile, sameRow⟩ := kept makesWay
        have replaces : faults.replace = false := by
          rw [Bool.eq_false_iff]
          intro irreplaceable
          exact replaced ⟨by rw [sameFile, file]; exact Option.some_ne_none body, irreplaceable⟩
        rw [sameRow, and_iff_right rfl, strandsCopy_iff roomy mkdir file]
        simp [makesWay, roomy, mkdir, replaces]

/-- A commit with its time and what fails in it. -/
structure CommitCall where
  faults : WriteFaults
  now : Int
  writer : MetadataWriter

/-- A row is the one that a commit writes, up to its access count. -/
def CommitCall.WroteRow (call : CommitCall) (url : Str) (row : IndexRow) : Prop :=
  url = call.writer.url ∧ ∃ accessCount, row = { call.writer.freshRow call.now with accessCount }

def afterCommits (lib : Libraries) (budget : Int) (calls : List CommitCall) : State :=
  calls.foldl (fun state call => (commit lib call.faults call.now call.writer state).2)
    (State.opened budget Table.empty fun _ => none)

theorem wroteRow_of_afterCommits {budget : Int} {calls : List CommitCall} {url : Str}
    {row : IndexRow} (found : (afterCommits lib budget calls).indices.find? url = some row) :
    ∃ call ∈ calls, call.WroteRow url row := by
  let Written (state : State) : Prop := ∀ url row, state.indices.find? url = some row →
    ∃ call ∈ calls, call.WroteRow url row
  suffices written : Written (afterCommits lib budget calls) from written url row found
  refine List.foldlRecOn (motive := Written) calls _ nofun fun state written call mem => ?_
  refine @commit_invariant _ _ _ _ _ Written written (fun _ written => written)
    (fun before url size written => ?_) fun _ old before written => ?_
  · unfold deleteMetadataUnlocked
    split
    · exact written
    · split
      · exact written
      · intro other row found
        simp only [releaseBytes, Table.find?_delete] at found
        split at found
        · cases found
        · exact written other row found
  · refine installBody_invariant written written (fun _ _ => written) fun other row found => ?_
    simp only [accountInstalled, dropPending, Table.find?_insertOrUpdate] at found
    split at found
    · rename_i own
      refine ⟨call, mem, own, ?_⟩
      rw [← Option.some.inj found]
      cases before.indices.find? call.writer.url with
      | none => exact ⟨1, rfl⟩
      | some row => exact ⟨row.accessCount + 1, rfl⟩
    · exact written other row found

/-- Whatever fails, an entry that is read has its body and its row from commits for its URL, and
from one commit, unless the one that wrote the body could neither write its row nor remove its file.
-/
theorem getMetadata_commits (lib : Libraries) (budget : Int) (calls : List CommitCall)
    {later : Int} {url : Str} {entry : IndexRow × Str}
    (read : (getMetadata later url (afterCommits lib budget calls)).1 = some entry) :
    (∃ call ∈ calls, call.WroteRow url entry.1) ∧
      ∃ call ∈ calls, url = call.writer.url ∧ entry.2 = call.writer.written ∧
        (call.WroteRow url entry.1 ∨
          call.faults.record = true ∧ call.faults.withdraw = true) := by
  have attested : Attested (fun url row body => ∃ call ∈ calls, url = call.writer.url ∧
      body = call.writer.written ∧ ∀ found, row = some found → call.WroteRow url found ∨
        call.faults.record = true ∧ call.faults.withdraw = true)
      (afterCommits lib budget calls) := by
    refine List.foldlRecOn (motive := Attested _) calls _ nofun fun state attested call mem => ?_
    refine attested.commit_of_verified ?_ lib call.faults call.now (fun record withdraw _ row => ?_)
      fun _ accessCount => ?_
    · rintro _ _ _ ⟨call, mem, own, same, -⟩
      exact ⟨call, mem, own, same, nofun⟩
    · exact ⟨call, mem, rfl, rfl, fun _ _ => .inr ⟨record, withdraw⟩⟩
    · refine ⟨call, mem, rfl, rfl, ?_⟩
      rintro _ ⟨rfl⟩
      exact .inl ⟨rfl, accessCount, rfl⟩
  obtain ⟨-, found, file⟩ := getMetadata_eq_some_iff.mp read
  obtain ⟨call, mem, own, same, paired⟩ := attested url entry.2 file
  exact ⟨wroteRow_of_afterCommits found, call, mem, own, same, paired entry.1 found⟩

/-- The second commit neither writes its row nor removes its file: its body has the first row. -/
theorem getMetadata_of_stranded_body :
    let calls : List CommitCall := [⟨.none, 2, ⟨[97], [5], [], [], [], 0, [1], false⟩⟩,
      ⟨{ record := true, withdraw := true }, 3, ⟨[97], [6], [], [], [], 1, [4], false⟩⟩]
    let entry : IndexRow × Str := (⟨[5], [], 2, 1, [], 2, 1, 2⟩, [4])
    (getMetadata 4 [97] (afterCommits ⟨hexEncode64, id⟩ 10 calls)).1 = some entry ∧
      (∃ call ∈ calls, call.WroteRow [97] entry.1) ∧
      ∃ call ∈ calls, [97] = call.writer.url ∧ entry.2 = call.writer.written ∧
        (call.WroteRow [97] entry.1 ∨
          call.faults.record = true ∧ call.faults.withdraw = true) := by
  intro calls entry
  have read : (getMetadata 4 [97] (afterCommits ⟨hexEncode64, id⟩ 10 calls)).1 = some entry := by
    decide
  exact ⟨read, getMetadata_commits ⟨hexEncode64, id⟩ 10 calls read⟩

end Commit

/-- A cache that holds one body for one URL. -/
def holdingOne (url body : Str) : State :=
  State.opened 10 (Table.empty.set url ⟨[], [], 1, body.length, [], 1, 1, 1⟩)
    (Function.update (fun _ => none) url (some body))

end Debswarm.Metadata
