import Debswarm.Metadata.Replacement
import Mathlib.Tactic.Linarith

/-!
# Size accounting of the metadata cache

The tracked size should be the sum of the row sizes and stay within the budget.
Reads, revalidations and row drops keep both.  A commit keeps both unless making
room for the new body evicts the very row that the body replaces: the bytes of
that row are then subtracted twice.
-/

namespace Debswarm.Metadata

open Function List Option Table Text Transition

/-- The tracked size is the sum of the row sizes. -/
def Tracked (state : State) : Prop :=
  state.metadataSize = state.rowBytes

/-- The tracked size is the sum of the row sizes, and the sum is within the budget. -/
def Accounted (state : State) : Prop :=
  state.metadataSize = state.rowBytes ∧ state.rowBytes ≤ state.metadataMaxSize

instance (state : State) : Decidable (Accounted state) :=
  inferInstanceAs (Decidable (_ ∧ _))

theorem bytes_nonneg (row : IndexRow) : 0 ≤ row.bytes :=
  Int.natCast_nonneg row.size

/-- Bytes of a list of eviction candidates. -/
def victimBytes (candidates : List (Str × Nat)) : Int :=
  (candidates.map fun victim => (victim.2 : Int)).sum

theorem victimBytes_nonneg (candidates : List (Str × Nat)) : 0 ≤ victimBytes candidates := by
  apply sum_nonneg
  intro value mem
  obtain ⟨victim, -, rfl⟩ := mem_map.mp mem
  exact Int.natCast_nonneg victim.2

/-! ## Row drops and reads -/

theorem releaseBytes_metadataSize (size : Int) (state : State)
    (covered : size ≤ state.metadataSize) :
    (releaseBytes size state).metadataSize = state.metadataSize - size := by
  have nonneg : ¬ state.metadataSize - size < 0 := by omega
  simp only [releaseBytes, nonneg, if_false]

variable {state evicted : State} {url : Str} {row : IndexRow} {needed now : Int} {lib : Libraries}
  {writer : MetadataWriter}

theorem tracked_releaseBytes_delete (tracked : Tracked state)
    (found : state.indices.find? url = some row) :
    Tracked (releaseBytes row.size { state with indices := state.indices.delete url }) ∧
      (releaseBytes row.size
        { state with indices := state.indices.delete url }).metadataSize =
          state.metadataSize - row.size := by
  have rowEq : state.indices.columnAt url IndexRow.bytes = row.size :=
    columnAt_of_find? found
  have covered : (row.size : Int) ≤ state.metadataSize := by
    have atMost := state.indices.columnAt_le_total url bytes_nonneg
    rw [rowEq] at atMost
    rw [tracked]
    exact atMost
  have released := releaseBytes_metadataSize row.size
    { state with indices := state.indices.delete url } covered
  refine ⟨?_, released⟩
  rw [Tracked, released]
  change state.metadataSize - row.size = (state.indices.delete url).total IndexRow.bytes
  rw [total_delete, rowEq, tracked]
  rfl

theorem accounted_dropMetadataRow (accounted : Accounted state) (url : Str) :
    Accounted (dropMetadataRow url state) := by
  cases found : state.indices.find? url with
  | none =>
    simp only [dropMetadataRow, found]
    exact accounted
  | some row =>
    simp only [dropMetadataRow, found]
    obtain ⟨tracked, size⟩ := tracked_releaseBytes_delete accounted.1 found
    refine ⟨tracked, ?_⟩
    rw [← tracked, size]
    exact (sub_le_self _ (Int.natCast_nonneg row.size)).trans (accounted.1.le.trans accounted.2)

/-- Rewriting columns other than the size leaves the accounting alone. -/
theorem accounted_update (accounted : Accounted state) (url : Str) {change : IndexRow → IndexRow}
    (sizeEq : ∀ row, (change row).bytes = row.bytes) :
    Accounted { state with indices := state.indices.update url change } := by
  have total := state.indices.total_update_of_column_eq url sizeEq
  constructor
  · change state.metadataSize = (state.indices.update url change).total IndexRow.bytes
    rw [total]
    exact accounted.1
  · change (state.indices.update url change).total IndexRow.bytes ≤ state.metadataMaxSize
    rw [total]
    exact accounted.2

/-! ## Eviction -/

/-- Deleting the first candidates gives exactly their bytes back. -/
theorem tracked_foldl_deleteVictim {gone : List (Str × Nat)} (tracked : Tracked state)
    (first : gone <+: victims state) :
    Tracked (gone.foldl (deleteVictim .none) state) ∧
      trackedAfter .none gone state.metadataSize = state.metadataSize - victimBytes gone := by
  have listed : state.indices.Lists IndexRow.size (victims state) :=
    state.indices.lists_select IndexRow.size _ _
  rw [← foldl_deleteVictim_metadataSize]
  generalize victims state = candidates at first listed
  obtain ⟨kept, rfl⟩ := first
  induction gone generalizing state with
  | nil => exact ⟨tracked, (sub_zero _).symm⟩
  | cons victim rest ih =>
    obtain ⟨url, size⟩ := victim
    obtain ⟨row, found, rfl⟩ := listed.head
    obtain ⟨deleted, released⟩ := tracked_releaseBytes_delete tracked found
    obtain ⟨last, freed⟩ := @ih (deleteVictim .none state (url, row.size)) deleted
      listed.tail_delete
    refine ⟨last, freed.trans ?_⟩
    rw [show (deleteVictim .none state (url, row.size)).metadataSize = _ from released]
    exact sub_sub _ _ _

theorem victimBytes_victims (state : State) : victimBytes (victims state) = state.rowBytes := by
  have permuted := (state.indices.select_perm (fun _ => true) IndexRow.EvictedBefore).map
    fun row => row.2.bytes
  simp only [List.filter_true] at permuted
  simp only [victimBytes, victims, List.map_map]
  exact permuted.sum_eq

/-- A commit always finds room for a body within the budget. -/
theorem ensureMetadataSpace_spec (needed : Int) (tracked : Tracked state)
    (atMost : needed ≤ state.metadataMaxSize) :
    ∃ evicted, ensureMetadataSpace .none needed state = (none, evicted) ∧ Tracked evicted ∧
      evicted.metadataMaxSize = state.metadataMaxSize ∧
      evicted.metadataSize + needed ≤ evicted.metadataMaxSize := by
  have roomy : (ensureMetadataSpace .none needed state).1 = none := by
    rw [ensureMetadataSpace_eq_none_iff]
    rintro ⟨-, unlisted | short⟩
    · cases unlisted
    · rw [(tracked_foldl_deleteVictim tracked prefix_rfl).2, victimBytes_victims, tracked] at short
      omega
  have evicted := (tracked_foldl_deleteVictim tracked (drained_isPrefix
    (fun state => fits needed state = true) (deleteVictim .none) (victims state) state)).1
  rw [← drain_eq_foldl, ← evict_eq_drain] at evicted
  have budget := ensureMetadataSpace_metadataMaxSize .none needed state
  have whole : ensureMetadataSpace .none needed state =
      if fits needed state then (none, state)
      else if fits needed (evict .none needed (victims state) state) then
        (none, evict .none needed (victims state) state)
      else (some .cacheFull, evict .none needed (victims state) state) := rfl
  rw [whole] at roomy budget ⊢
  split at roomy
  · rename_i fit
    rw [if_pos fit]
    exact ⟨state, rfl, tracked, rfl, (fits_iff needed state).mp fit⟩
  · rename_i unfit
    rw [if_neg unfit] at budget ⊢
    split at roomy
    · rename_i room
      rw [if_pos room] at budget ⊢
      exact ⟨_, rfl, evicted, budget, (fits_iff needed _).mp room⟩
    · cases roomy

/-- Bytes of the rows that are evicted before the row of a URL. -/
def bytesAhead (url : Str) (state : State) : Int :=
  victimBytes ((victims state).takeWhile fun victim => victim.1 ≠ url)

/-- A row is evicted exactly when the rows ahead of it do not free enough room. -/
theorem makesWay_iff (needed : Int) (tracked : Tracked state) (url : Str) :
    MakesWay .none needed url state ↔
      state.metadataMaxSize < state.metadataSize - bytesAhead url state + needed := by
  have freed := (tracked_foldl_deleteVictim tracked
    (List.takeWhile_prefix fun victim => !decide (victim.1 = url))).2
  have ahead := victimBytes_nonneg
    ((victims state).takeWhile fun victim => !decide (victim.1 = url))
  unfold MakesWay bytesAhead
  simp only [ne_eq, decide_not]
  rw [freed]
  constructor
  · rintro ⟨-, -, -, short⟩
    exact short
  · intro short
    exact ⟨by omega, rfl, rfl, short⟩

/-! ## Commits -/

theorem installBody_none (now : Int) (writer : MetadataWriter) (old : Option IndexRow)
    (state : State) :
    (installBody .none now writer old state).1 = none ∧
      (installBody .none now writer old state).2.metadataMaxSize = state.metadataMaxSize ∧
      (installBody .none now writer old state).2.metadataSize =
        max 0 (state.metadataSize - oldSizeIf old + writer.size) ∧
      (installBody .none now writer old state).2.rowBytes =
        state.rowBytes - state.indices.columnAt writer.url IndexRow.bytes + writer.size := by
  have noReplace : ((state.files writer.url).isSome && WriteFaults.none.replace) = false := by
    simp [WriteFaults.none]
  have outcome : installBody .none now writer old state = (none, accountInstalled old writer.size
      { state with
        files := update (update state.files writer.url none)
          writer.url (some writer.written)
        pending := update state.pending writer.tmp none
        indices := state.indices.insertOrUpdate writer.url (writer.freshRow now)
          fun row => { writer.freshRow now with accessCount := row.accessCount + 1 } }) := by
    simp only [installBody, noReplace]
    rfl
  rw [outcome]
  refine ⟨rfl, rfl, ?_, ?_⟩
  · simp only [accountInstalled]
    split <;> omega
  · change (state.indices.insertOrUpdate writer.url (writer.freshRow now) _).total
        IndexRow.bytes = _
    rw [total_insertOrUpdate]
    cases state.indices.find? writer.url <;> rfl

theorem columnAt_eq_oldSizeIf (url : Str) (state : State) :
    state.indices.columnAt url IndexRow.bytes = oldSizeIf (state.indices.find? url) :=
  rfl

theorem oldSizeIf_nonneg (old : Option IndexRow) : 0 ≤ oldSizeIf old := by
  cases old with
  | none => exact le_refl 0
  | some row => exact bytes_nonneg row

/-- The rows ahead of the replaced row free the room that a larger body needs. -/
def RoomAhead (url : Str) (size : Nat) (state : State) : Prop :=
  ∀ row, state.indices.find? url = some row → 0 < row.size →
    state.rowBytes + (size - row.size) ≤ state.metadataMaxSize + bytesAhead url state

theorem accounted_commit_iff (accounted : Accounted state) (fresh : writer.done = false) :
    Accounted (commit lib .none now writer state).2 ↔
      (¬ Refused lib .none writer state → RoomAhead writer.url writer.size state) := by
  by_cases refused : Refused lib .none writer state
  · rw [commit_of_refused fresh refused]
    exact iff_of_true accounted fun accepted => absurd refused accepted
  obtain ⟨tracked, within⟩ := accounted
  have countedRow : ∀ {other : State} {row : IndexRow}, Tracked other →
      other.indices.find? writer.url = some row → (row.size : Int) ≤ other.metadataSize := by
    intro other row tracked found
    have atMost := other.indices.columnAt_le_total writer.url bytes_nonneg
    rw [columnAt_of_find? found] at atMost
    rw [tracked]
    exact atMost
  rw [forall_prop_of_true refused]
  rcases lt_or_ge 0 state.metadataMaxSize with enabled | disabled
  · have oldNonneg := oldSizeIf_nonneg (state.indices.find? writer.url)
    have growthEq : growth .none writer state =
        writer.size - oldSizeIf (state.indices.find? writer.url) := rfl
    have small : ¬ state.metadataMaxSize < writer.size := fun oversize =>
      refused (.inr (.inr oversize))
    obtain ⟨evicted, roomEq, stillTracked, budget, room⟩ :=
      ensureMetadataSpace_spec (growth .none writer state) tracked (by omega)
    have evictedNonneg : 0 ≤ evicted.metadataSize :=
      stillTracked ▸ evicted.indices.total_nonneg bytes_nonneg
    have way := makesWay_iff (growth .none writer state) tracked writer.url
    have ahead : 0 ≤ bytesAhead writer.url state := victimBytes_nonneg _
    obtain ⟨gone, kept⟩ := ensureMetadataSpace_url .none (growth .none writer state) state
      writer.url
    rw [roomEq] at gone kept
    rw [commit_of_accepted fresh refused enabled, roomEq]
    obtain ⟨-, sameBudget, size, rowBytes⟩ :=
      installBody_none now writer (state.indices.find? writer.url) evicted
    change Accounted (installBody .none now writer (state.indices.find? writer.url) evicted).2 ↔ _
    rw [Accounted, sameBudget, size, rowBytes, columnAt_eq_oldSizeIf, ← stillTracked]
    generalize growth .none writer state = needed at growthEq room way gone kept
    rw [tracked] at way
    unfold RoomAhead
    cases found : state.indices.find? writer.url with
    | none =>
      rw [found] at kept growthEq
      rw [(kept nofun).2]
      simp only [oldSizeIf, elim_none] at growthEq ⊢
      exact iff_of_true ⟨by omega, by omega⟩ nofun
    | some row =>
      rw [found, isSome_some, and_iff_right rfl] at gone kept
      simp only [found, oldSizeIf, elim_some, IndexRow.bytes, some.injEq, forall_eq'] at growthEq ⊢
      by_cases makes : MakesWay .none needed writer.url state
      · -- the bytes of the evicted row are subtracted a second time
        have short := way.mp makes
        have lost : evicted.indices.find? writer.url = none := (gone makes).2
        rw [lost]
        simp only [elim_none]
        constructor
        · rintro ⟨sizeEq, -⟩ positive
          omega
        · intro roomAhead
          have noBytes : row.size = 0 := by omega
          constructor <;> omega
      · have enough := mt way.mpr makes
        have sameRow := (kept makes).2
        have counted := countedRow stillTracked sameRow
        rw [sameRow]
        simp only [elim_some, IndexRow.bytes]
        exact iff_of_true ⟨by omega, by omega⟩ fun _ => by omega
  · rw [commit_of_disabled fresh refused disabled]
    refine iff_of_true ⟨tracked, within⟩ fun row found positive => ?_
    have counted := countedRow tracked found
    rw [tracked] at counted
    omega

/-! ## Runs -/

/-- One operation without failures. `lose` is a body that disappears from the disk. -/
inductive Event
  | store (now : Int) (tmp : Nat) (url body etag lastModified contentType : Str)
  | get (now : Int) (url : Str)
  | drop (url : Str)
  | revalidate (now : Int) (url etag lastModified : Str)
  | lose (url : Str)

/-- The state after one operation. -/
def next (lib : Libraries) (state : State) : Event → State
  | .store now tmp url body etag lastModified contentType =>
    (storeMetadata lib .none now tmp url body etag lastModified contentType state).2
  | .get now url => (getMetadata now url state).2
  | .drop url => dropMetadataRow url state
  | .revalidate now url etag lastModified =>
    revalidateMetadata now url etag lastModified state
  | .lose url => { state with files := update state.files url none }

/-- The URL names no digest or that of the body, and the body is within the budget. -/
def Storable (lib : Libraries) (url body : Str) (state : State) : Prop :=
  ∃ digest, byHashSHA256 lib url = .ok digest ∧
    (digest.getD [] = [] ∨ lib.sha256 body = digest.getD []) ∧
    (body.length : Int) ≤ state.metadataMaxSize

/-- Everything but a commit that has to evict the row that it replaces. -/
def KeepsReplacedRow (lib : Libraries) (state : State) : Event → Prop
  | .store _ _ url body _ _ _ => Storable lib url body state → RoomAhead url body.length state
  | _ => True

theorem storeMetadata_none {digest : Option Str} (digestEq : byHashSHA256 lib url = .ok digest)
    (now : Int) (tmp : Nat) (body etag lastModified contentType : Str) (state : State) :
    (storeMetadata lib .none now tmp url body etag lastModified contentType state).2 =
      (commit lib .none now
        { url, etag, lastModified, contentType, tmp
          expectedHash := digest.getD []
          written := body
          done := false }
        { state with
          pending := update (update state.pending tmp (some [])) tmp
            (some body) }).2 := by
  have noFaults : WriteFaults.none.create = false ∧ WriteFaults.none.write = false :=
    ⟨rfl, rfl⟩
  simp only [storeMetadata, noFaults, newMetadataWriter, digestEq, Except.map, write, nil_append]
  rfl

theorem accounted_store_iff (accounted : Accounted state) (now : Int) (tmp : Nat)
    (url body etag lastModified contentType : Str) :
    Accounted (storeMetadata lib .none now tmp url body etag lastModified contentType state).2 ↔
      (Storable lib url body state → RoomAhead url body.length state) := by
  cases digestEq : byHashSHA256 lib url with
  | error fault =>
    have notStorable : ¬ Storable lib url body state := by
      rintro ⟨digest, ok, -⟩
      rw [digestEq] at ok
      cases ok
    have noFaults : WriteFaults.none.create = false := rfl
    simp only [storeMetadata, noFaults, newMetadataWriter, digestEq, Except.map,
      notStorable, false_implies, iff_true]
    exact accounted
  | ok digest =>
    have buffered : Accounted { state with
        pending := update (update state.pending tmp (some [])) tmp
          (some body) } := accounted
    rw [storeMetadata_none digestEq, accounted_commit_iff buffered rfl]
    refine imp_congr ?_ Iff.rfl
    simp only [Storable, digestEq, Except.ok.injEq, exists_eq_left', Refused, WriteFaults.none,
      Bool.false_eq_true, false_or, not_or, not_and_or, not_not, not_lt, MetadataWriter.size]

theorem accounted_next_iff (lib : Libraries) (accounted : Accounted state) (event : Event) :
    Accounted (next lib state event) ↔ KeepsReplacedRow lib state event := by
  cases event with
  | store now tmp url body etag lastModified contentType =>
    exact accounted_store_iff accounted now tmp url body etag lastModified contentType
  | get now url =>
    refine iff_of_true ?_ trivial
    rw [next, getMetadata]
    split
    · exact accounted
    · exact accounted_dropMetadataRow accounted url
    · exact accounted_update accounted url fun _ => rfl
  | drop url => exact iff_of_true (accounted_dropMetadataRow accounted url) trivial
  | revalidate now url etag lastModified =>
    refine iff_of_true ?_ trivial
    simp only [next, revalidateMetadata]
    split
    · exact accounted
    · exact accounted_update accounted url fun _ => rfl
  | lose url => exact iff_of_true accounted trivial

theorem accounted_opened_iff (budget : Int) (indices : Table Str IndexRow)
    (files : Str → Option Str) :
    Accounted (State.opened budget indices files) ↔ indices.total IndexRow.bytes ≤ budget :=
  and_iff_right rfl

end Debswarm.Metadata
