import Debswarm.Metadata.Core

/-!
# What the cached bodies are

A cached body is one that was stored for its URL, and its row has its length.  The
files change only by an installation, which writes the row too, and by removals, and
the rows keep their sizes otherwise.  The exception is an installation whose row cannot be
written and whose file then cannot be removed: the new body stays with the old row.
-/

namespace Debswarm.Metadata

open Function Table Text

/-! ## Reading -/

variable {url body : Str} {writer : MetadataWriter}

/-- What a reader gets is the row with its body, if both are there. -/
theorem getMetadata_eq_some_iff {now : Int} {state : State} {row : IndexRow} :
    (getMetadata now url state).1 = some (row, body) ↔
      0 < state.metadataMaxSize ∧ state.indices.find? url = some row ∧
        state.files url = some body := by
  unfold getMetadata lookupMetadata
  by_cases disabled : state.metadataMaxSize ≤ 0
  · simp [disabled, not_lt.mpr disabled]
  · rw [if_neg disabled]
    cases found : state.indices.find? url with
    | none => simp
    | some stored =>
      cases file : state.files url with
      | none => simp
      | some content => simp [not_le.mp disabled]

@[simp]
theorem files_dropMetadataRow (url : Str) (state : State) :
    (dropMetadataRow url state).files = state.files := by
  unfold dropMetadataRow
  split <;> rfl

@[simp]
theorem files_revalidateMetadata (now : Int) (url etag lastModified : Str) (state : State) :
    (revalidateMetadata now url etag lastModified state).files = state.files := by
  unfold revalidateMetadata
  split <;> rfl

@[simp]
theorem files_getMetadata (now : Int) (url : Str) (state : State) :
    (getMetadata now url state).2.files = state.files := by
  unfold getMetadata
  split
  · rfl
  · exact files_dropMetadataRow url state
  · rfl

/-! ## What a commit preserves -/

section Invariant

variable {lib : Libraries} {faults : WriteFaults} {now : Int} {state : State}
  {invariant : State → Prop}

theorem ensureMetadataSpace_invariant (needed : Int) (holds : invariant state)
    (deleted : ∀ before url size, invariant before →
      invariant (deleteMetadataUnlocked faults url size before)) :
    invariant (ensureMetadataSpace faults needed state).2 := by
  have evicted : ∀ listed before, invariant before →
      invariant (evict faults needed listed before) := by
    intro listed
    induction listed with
    | nil => exact fun _ kept => kept
    | cons victim rest ih =>
      intro before kept
      unfold evict
      split
      · exact kept
      · exact ih _ (deleted before victim.1 victim.2 kept)
  unfold ensureMetadataSpace
  split
  · exact holds
  · split
    · exact holds
    · dsimp only
      split <;> exact evicted (victims state) state holds

/-- An installation drops the pending file, and leaves the cached file, removes it, replaces it with
its row, or without it if it cannot withdraw the file. -/
theorem installBody_invariant {old : Option IndexRow}
    (kept : invariant (dropPending writer.tmp state))
    (removed : invariant (dropPending writer.tmp
      { state with files := update state.files writer.url none }))
    (stranded : faults.record = true → faults.withdraw = true → invariant (dropPending writer.tmp
      { state with files := update state.files writer.url (some writer.written) }))
    (installed : invariant (accountInstalled old writer.size (dropPending writer.tmp
      { state with
        files := update state.files writer.url (some writer.written)
        indices := state.indices.insertOrUpdate writer.url (writer.freshRow now)
          fun row => { writer.freshRow now with accessCount := row.accessCount + 1 } }))) :
    invariant (installBody faults now writer old state).2 := by
  unfold installBody
  split
  · exact kept
  split
  · exact kept
  split
  · exact removed
  split
  · rename_i record
    dsimp only
    split
    · rename_i withdraw
      simpa only [dropPending, update_idem] using stranded record withdraw
    · simpa only [dropPending, update_idem] using removed
  · simpa only [dropPending, update_idem] using installed

/-- A commit installs a body only after it has compared its digest with any expected one. -/
theorem commit_invariant (holds : invariant state)
    (dropped : ∀ before, invariant before → invariant (dropPending writer.tmp before))
    (deleted : ∀ before url size, invariant before →
      invariant (deleteMetadataUnlocked faults url size before))
    (installed : (writer.expectedHash ≠ [] → lib.sha256 writer.written = writer.expectedHash) →
      ∀ old before, invariant before → invariant (installBody faults now writer old before).2) :
    invariant (commit lib faults now writer state).2 := by
  unfold commit
  split
  · exact holds
  split
  · exact dropped state holds
  split
  · exact dropped state holds
  rename_i verified
  split
  · exact dropped state holds
  split
  · exact dropped state holds
  dsimp only
  have room := ensureMetadataSpace_invariant
    (writer.size - oldSizeIf (if faults.lookup then none else state.indices.find? writer.url))
    holds deleted
  split
  · rename_i evictedEq
    rw [evictedEq] at room
    exact dropped _ room
  · rename_i evictedEq
    rw [evictedEq] at room
    refine installed (fun expected => ?_) _ _ room
    by_contra different
    exact verified ⟨expected, different⟩

end Invariant

/-! ## Bodies with their rows -/

section Attested

variable {suits : Str → Option IndexRow → Str → Prop} {state : State}

/-- Every cached body suits its URL and its row. -/
def Attested (suits : Str → Option IndexRow → Str → Prop) (state : State) : Prop :=
  ∀ url body, state.files url = some body → suits url (state.indices.find? url) body

/-- Without its row, a body suits its URL no less. -/
def Rowless (suits : Str → Option IndexRow → Str → Prop) : Prop :=
  ∀ url row body, suits url row body → suits url none body

section

variable (attested : Attested suits state)

include attested

theorem Attested.deleteRow (rowless : Rowless suits) (url : Str) :
    Attested suits { state with indices := state.indices.delete url } := by
  intro other body file
  have suited := attested other body file
  simp only [find?_delete]
  split
  · exact rowless other _ body suited
  · exact suited

theorem Attested.updateRow (url : Str) (change : IndexRow → IndexRow)
    (stillSuits : ∀ row body, state.indices.find? url = some row → state.files url = some body →
      suits url (some row) body → suits url (some (change row)) body) :
    Attested suits { state with indices := state.indices.update url change } := by
  intro other body file
  have suited := attested other body file
  simp only [find?_update]
  split
  · rename_i same
    subst same
    cases found : state.indices.find? other with
    | none =>
      rw [found] at suited
      exact suited
    | some row =>
      rw [found] at suited
      exact stillSuits row body found file suited
  · exact suited

theorem Attested.removeFile (url : Str) :
    Attested suits { state with files := update state.files url none } := by
  intro other body file
  by_cases same : other = url
  · subst same
    simp at file
  · exact attested other body ((update_of_ne same none state.files).symm.trans file)

theorem Attested.dropMetadataRow (rowless : Rowless suits) (url : Str) :
    Attested suits (dropMetadataRow url state) := by
  unfold Metadata.dropMetadataRow
  split
  · exact attested
  · exact attested.deleteRow rowless url

theorem Attested.deleteMetadataUnlocked (rowless : Rowless suits) (faults : WriteFaults) (url : Str)
    (size : Nat) : Attested suits (deleteMetadataUnlocked faults url size state) := by
  unfold Metadata.deleteMetadataUnlocked
  split
  · exact attested
  · split
    · exact attested.removeFile url
    · exact (attested.removeFile url).deleteRow rowless url

/-- Installing a body that suits its row, and any row if the file cannot be withdrawn. -/
theorem Attested.installBody (faults : WriteFaults) (now : Int) (old : Option IndexRow)
    (stranded : faults.record = true → faults.withdraw = true →
      ∀ row, suits writer.url row writer.written)
    (suited : ∀ accessCount, suits writer.url
      (some { writer.freshRow now with accessCount }) writer.written) :
    Attested suits (installBody faults now writer old state).2 := by
  refine installBody_invariant attested (attested.removeFile writer.url)
    (fun record withdraw other body file => ?_) fun other body file => ?_
  · by_cases same : other = writer.url
    · subst same
      simp only [dropPending, update_self, Option.some.injEq] at file
      subst file
      exact stranded record withdraw _
    · simp only [dropPending, update_of_ne same] at file
      exact attested other body file
  by_cases same : other = writer.url
  · subst same
    simp only [accountInstalled, dropPending, update_self, Option.some.injEq] at file
    subst file
    simp only [accountInstalled, dropPending, find?_insertOrUpdate, if_true]
    cases state.indices.find? writer.url with
    | none => exact suited 1
    | some row => exact suited (row.accessCount + 1)
  · simp only [accountInstalled, dropPending, update_of_ne same] at file
    simp only [accountInstalled, dropPending, find?_insertOrUpdate, same, if_false]
    exact attested other body file

theorem Attested.commit_of_verified (rowless : Rowless suits) (lib : Libraries)
    (faults : WriteFaults) (now : Int)
    (stranded : faults.record = true → faults.withdraw = true →
      (writer.expectedHash ≠ [] → lib.sha256 writer.written = writer.expectedHash) →
        ∀ row, suits writer.url row writer.written)
    (suited : (writer.expectedHash ≠ [] → lib.sha256 writer.written = writer.expectedHash) →
      ∀ accessCount, suits writer.url
        (some { writer.freshRow now with accessCount }) writer.written) :
    Attested suits (commit lib faults now writer state).2 :=
  commit_invariant attested (fun _ attested => attested)
    (fun _ url size attested => attested.deleteMetadataUnlocked rowless faults url size)
    fun verified old _ attested => attested.installBody faults now old
      (fun record withdraw => stranded record withdraw verified) (suited verified)

theorem Attested.commit (rowless : Rowless suits) (lib : Libraries) {faults : WriteFaults}
    (withdrawable : faults.withdraw = false) (now : Int)
    (suited : ∀ accessCount, suits writer.url
      (some { writer.freshRow now with accessCount }) writer.written) :
    Attested suits (commit lib faults now writer state).2 :=
  attested.commit_of_verified rowless lib faults now
    (fun _ withdraw => absurd (withdrawable.symm.trans withdraw) Bool.false_ne_true) fun _ => suited

end

def storedRow (now : Int) (body etag lastModified contentType : Str) (accessCount : Nat) :
    IndexRow :=
  ⟨etag, lastModified, now, body.length, contentType, now, accessCount, now⟩

/-- Storing a body adds at most that body with its row. -/
theorem Attested.storeMetadata (attested : Attested suits state) (rowless : Rowless suits)
    (lib : Libraries) {faults : WriteFaults} (withdrawable : faults.withdraw = false) (now : Int)
    (tmp : Nat) {etag lastModified contentType : Str} (suited : ∀ accessCount, suits url
      (some (storedRow now body etag lastModified contentType accessCount)) body) :
    Attested suits
      (storeMetadata lib faults now tmp url body etag lastModified contentType state).2 := by
  unfold Metadata.storeMetadata
  split
  · exact attested
  · split
    · rename_i openedEq
      obtain ⟨_, rfl⟩ := Prod.mk.inj openedEq
      exact attested
    · rename_i writer opened openedEq
      obtain ⟨writerEq, rfl⟩ := Prod.mk.inj openedEq
      have pendingOnly : ∀ pending, Attested suits { state with pending } := fun _ => attested
      split
      · unfold abort
        split <;> exact pendingOnly _
      · refine (pendingOnly _).commit rowless lib withdrawable now ?_
        cases digestEq : byHashSHA256 lib url with
        | error fault =>
          rw [digestEq] at writerEq
          cases writerEq
        | ok digest =>
          rw [digestEq] at writerEq
          cases writerEq
          exact suited

end Attested

/-! ## Stored bodies -/

variable {stored : Str → Str → Prop} {state : State}

/-- Every cached body was stored for its URL, and the row of the URL has its length. -/
def Kept (stored : Str → Str → Prop) (state : State) : Prop :=
  ∀ url body, state.files url = some body →
    stored url body ∧ ∀ row, state.indices.find? url = some row → row.size = body.length

/-- The body was stored for the URL, and the row has its length. -/
def StoredWithSize (stored : Str → Str → Prop) (url : Str) (row : Option IndexRow) (body : Str) :
    Prop :=
  stored url body ∧ ∀ found, row = some found → found.size = body.length

theorem kept_iff_attested : Kept stored state ↔ Attested (StoredWithSize stored) state :=
  Iff.rfl

theorem rowless_storedWithSize : Rowless (StoredWithSize stored) := by
  intro url row body suited
  refine ⟨suited.1, fun found isFound => ?_⟩
  cases isFound

section

variable (kept : Kept stored state)

include kept

theorem kept_updateRow (url : Str) {change : IndexRow → IndexRow}
    (sameSize : ∀ row, (change row).size = row.size) :
    Kept stored { state with indices := state.indices.update url change } := by
  refine (kept_iff_attested.mp kept).updateRow url change fun row body _ _ suited =>
    ⟨suited.1, ?_⟩
  rintro _ ⟨rfl⟩
  rw [sameSize]
  exact suited.2 row rfl

theorem Kept.mono {more : Str → Str → Prop}
    (imp : ∀ url body, stored url body → more url body) : Kept more state := by
  intro url body file
  obtain ⟨isStored, size⟩ := kept url body file
  exact ⟨imp url body isStored, size⟩

theorem kept_getMetadata (now : Int) (url : Str) :
    Kept stored (getMetadata now url state).2 := by
  unfold getMetadata
  split
  · exact kept
  · exact (kept_iff_attested.mp kept).dropMetadataRow rowless_storedWithSize url
  · exact kept_updateRow kept url fun _ => rfl

/-- A cached entry has the body that was stored for the URL, with its size. -/
theorem stored_of_getMetadata {now : Int} {row : IndexRow}
    (found : (getMetadata now url state).1 = some (row, body)) :
    stored url body ∧ row.size = body.length := by
  obtain ⟨-, isRow, isFile⟩ := getMetadata_eq_some_iff.mp found
  obtain ⟨isStored, size⟩ := kept url body isFile
  exact ⟨isStored, size row isRow⟩

theorem kept_revalidateMetadata (now : Int)
    (url etag lastModified : Str) :
    Kept stored (revalidateMetadata now url etag lastModified state) := by
  unfold revalidateMetadata
  split
  · exact kept
  · exact kept_updateRow kept url fun _ => rfl

end

theorem kept_storeMetadata (lib : Libraries) (kept : Kept stored state) {faults : WriteFaults}
    (withdrawable : faults.withdraw = false) (now : Int) (tmp : Nat)
    (etag lastModified contentType : Str) (isStored : stored url body) :
    Kept stored
      (storeMetadata lib faults now tmp url body etag lastModified contentType state).2 := by
  refine (kept_iff_attested.mp kept).storeMetadata rowless_storedWithSize lib withdrawable now tmp
    fun accessCount => ⟨isStored, ?_⟩
  rintro _ ⟨rfl⟩
  rfl

end Debswarm.Metadata
