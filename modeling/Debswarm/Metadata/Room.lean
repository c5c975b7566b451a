import Debswarm.Metadata.Bodies
import Debswarm.Transition.Run

/-!
# How far making room for a body gets

A commit that needs room deletes the cached bodies in eviction order until the new body
fits.  Which bodies that takes away, and whether it makes enough room, can be read off the
state before: a deletion gives the bytes of its row back, unless the file or the row
resists.
-/

namespace Debswarm.Metadata

open Function Text Transition

/-! ## Single deletions -/

/-- Delete one eviction candidate. -/
def deleteVictim (faults : WriteFaults) (state : State) (victim : Str × Nat) : State :=
  deleteMetadataUnlocked faults victim.1 victim.2 state

/-- The tracked size after some candidates were deleted; it never goes below zero. -/
def trackedAfter (faults : WriteFaults) (listed : List (Str × Nat)) (tracked : Int) : Int :=
  listed.foldl
    (fun tracked victim =>
      if faults.remove victim.1 = true ∨ faults.deleteRow victim.1 = true then tracked
      else max 0 (tracked - victim.2))
    tracked

variable (faults : WriteFaults) (needed : Int) (listed : List (Str × Nat)) (state : State)
  (victim : Str × Nat)

theorem evict_eq_drain :
    evict faults needed listed state =
      drain (fun state => fits needed state = true) (deleteVictim faults) listed state := by
  induction listed generalizing state with
  | nil => rfl
  | cons victim rest ih =>
    simp only [evict, drain, deleteVictim]
    split
    · rfl
    · exact ih _

theorem fits_iff :
    fits needed state = true ↔ state.metadataSize + needed ≤ state.metadataMaxSize := by
  simp [fits]

theorem not_fits_iff :
    ¬ fits needed state = true ↔ state.metadataMaxSize < state.metadataSize + needed := by
  rw [fits_iff, not_le]

/-- A candidate whose file resists stays; else the file goes, and the row unless it resists. -/
theorem deleteVictim_cases :
    (faults.remove victim.1 = true ∧ deleteVictim faults state victim = state) ∨
      (faults.remove victim.1 = false ∧
        ((faults.deleteRow victim.1 = true ∧
            deleteVictim faults state victim =
              { state with files := update state.files victim.1 none }) ∨
          (faults.deleteRow victim.1 = false ∧
            deleteVictim faults state victim =
              { state with
                files := update state.files victim.1 none
                indices := state.indices.delete victim.1
                metadataSize := max 0 (state.metadataSize - victim.2) }))) := by
  unfold deleteVictim deleteMetadataUnlocked
  cases resists : faults.remove victim.1 with
  | true => exact .inl ⟨rfl, by simp⟩
  | false =>
    right
    refine ⟨rfl, ?_⟩
    cases rowResists : faults.deleteRow victim.1 with
    | true => exact .inl ⟨rfl, by simp⟩
    | false =>
      refine .inr ⟨rfl, ?_⟩
      have clamped : (if state.metadataSize - (victim.2 : Int) < 0 then 0
          else state.metadataSize - victim.2) = max 0 (state.metadataSize - victim.2) := by
        split <;> omega
      simp only [releaseBytes, clamped, Bool.false_eq_true, if_false]

theorem deleteVictim_metadataSize :
    (deleteVictim faults state victim).metadataSize =
      trackedAfter faults [victim] state.metadataSize := by
  rcases deleteVictim_cases faults state victim with
    ⟨resists, same⟩ | ⟨yields, ⟨resists, gone⟩ | ⟨rowYields, gone⟩⟩
  · simp [same, trackedAfter, resists]
  · simp [gone, trackedAfter, resists]
  · simp [gone, trackedAfter, yields, rowYields]

@[simp]
theorem deleteVictim_metadataMaxSize :
    (deleteVictim faults state victim).metadataMaxSize = state.metadataMaxSize := by
  rcases deleteVictim_cases faults state victim with ⟨-, same⟩ | ⟨-, ⟨-, gone⟩ | ⟨-, gone⟩⟩
  · rw [same]
  · rw [gone]
  · rw [gone]

theorem foldl_deleteVictim_metadataSize :
    (listed.foldl (deleteVictim faults) state).metadataSize =
      trackedAfter faults listed state.metadataSize := by
  induction listed generalizing state with
  | nil => rfl
  | cons victim rest ih =>
    rw [List.foldl_cons, ih, deleteVictim_metadataSize]
    rfl

@[simp]
theorem foldl_deleteVictim_metadataMaxSize :
    (listed.foldl (deleteVictim faults) state).metadataMaxSize = state.metadataMaxSize := by
  induction listed generalizing state with
  | nil => rfl
  | cons victim rest ih => exact (ih _).trans (deleteVictim_metadataMaxSize faults state victim)

/-- A row that cannot be deleted stays, whichever candidate is deleted. -/
theorem find?_deleteVictim_of_deleteRow {url : Str} (resists : faults.deleteRow url = true) :
    (deleteVictim faults state victim).indices.find? url = state.indices.find? url := by
  rcases deleteVictim_cases faults state victim with ⟨-, same⟩ | ⟨-, ⟨-, gone⟩ | ⟨yields, gone⟩⟩
  · rw [same]
  · rw [gone]
  · have different : url ≠ victim.1 := by
      rintro rfl
      rw [resists] at yields
      cases yields
    rw [gone]
    exact Table.find?_delete_ne _ different

/-- A candidate whose file can be removed goes, with its row if that can be deleted; the rest stays
as it was. -/
theorem foldl_deleteVictim_url (url : Str) :
    (listed.any (fun victim => victim.1 = url) = true ∧ faults.remove url = false →
        (listed.foldl (deleteVictim faults) state).files url = none ∧
          (listed.foldl (deleteVictim faults) state).indices.find? url =
            if faults.deleteRow url then state.indices.find? url else none) ∧
      (¬ (listed.any (fun victim => victim.1 = url) = true ∧ faults.remove url = false) →
        (listed.foldl (deleteVictim faults) state).files url = state.files url ∧
          (listed.foldl (deleteVictim faults) state).indices.find? url =
            state.indices.find? url) := by
  induction listed generalizing state with
  | nil => simp
  | cons victim rest ih =>
    obtain ⟨gone, kept⟩ := ih (deleteVictim faults state victim)
    rw [List.foldl_cons]
    by_cases inRest : rest.any (fun victim => victim.1 = url) = true ∧ faults.remove url = false
    · refine ⟨fun _ => ?_, fun spared => absurd ⟨?_, inRest.2⟩ spared⟩
      · obtain ⟨noFile, row⟩ := gone inRest
        refine ⟨noFile, row.trans (ite_congr rfl (fun resists => ?_) fun _ => rfl)⟩
        exact find?_deleteVictim_of_deleteRow faults state victim resists
      · rw [List.any_cons, inRest.1, Bool.or_true]
    · obtain ⟨sameFile, sameRow⟩ := kept inRest
      rw [sameFile, sameRow]
      by_cases own : victim.1 = url
      · subst own
        rcases deleteVictim_cases faults state victim with
          ⟨resists, same⟩ | ⟨yields, ⟨rowResists, deleted⟩ | ⟨rowYields, deleted⟩⟩
        · simp [same, resists]
        · simp [deleted, yields, rowResists]
        · simp [deleted, yields, rowYields]
      · have elsewhere : (deleteVictim faults state victim).files url = state.files url ∧
            (deleteVictim faults state victim).indices.find? url = state.indices.find? url := by
          rcases deleteVictim_cases faults state victim with
            ⟨-, same⟩ | ⟨-, ⟨-, deleted⟩ | ⟨-, deleted⟩⟩
          · rw [same]
            exact ⟨rfl, rfl⟩
          · rw [deleted]
            exact ⟨Function.update_of_ne (Ne.symm own) .., rfl⟩
          · rw [deleted]
            exact ⟨Function.update_of_ne (Ne.symm own) .., Table.find?_delete_ne _ (Ne.symm own)⟩
        refine ⟨fun listed => absurd ⟨?_, listed.2⟩ inRest, fun _ => elsewhere⟩
        simpa [own] using listed.1

/-- Deleting more never makes the bytes fit worse. -/
def Sinking (needed : Int) (state : State) : Prop :=
  fits needed state = true → 0 ≤ state.metadataSize

theorem sinking_deleteVictim (sinking : Sinking needed state) :
    Sinking needed (deleteVictim faults state victim) := by
  unfold Sinking at sinking ⊢
  rw [fits_iff] at sinking ⊢
  rcases deleteVictim_cases faults state victim with ⟨-, same⟩ | ⟨-, ⟨-, gone⟩ | ⟨-, gone⟩⟩
  · rwa [same]
  · rwa [gone]
  · rw [gone]
    intro fit
    exact le_max_left ..

theorem fits_deleteVictim (sinking : Sinking needed state) (fit : fits needed state = true) :
    fits needed (deleteVictim faults state victim) = true := by
  have nonneg := sinking fit
  rw [fits_iff] at fit ⊢
  rcases deleteVictim_cases faults state victim with ⟨-, same⟩ | ⟨-, ⟨-, gone⟩ | ⟨-, gone⟩⟩
  · rwa [same]
  · rwa [gone]
  · rw [gone]
    dsimp only
    omega

/-! ## The whole pass -/

/-- No room can be made: the candidates cannot be listed, or deleting all of them would
not do. -/
def NoRoom (faults : WriteFaults) (needed : Int) (state : State) : Prop :=
  state.metadataMaxSize < state.metadataSize + needed ∧
    (faults.candidates = true ∨
      state.metadataMaxSize < trackedAfter faults (victims state) state.metadataSize + needed)

/-- The body can be removed, and deleting the candidates ahead of it would not do. -/
def MakesWay (faults : WriteFaults) (needed : Int) (url : Str) (state : State) : Prop :=
  state.metadataMaxSize < state.metadataSize + needed ∧ faults.candidates = false ∧
    faults.remove url = false ∧
      state.metadataMaxSize <
        trackedAfter faults ((victims state).takeWhile fun victim => !decide (victim.1 = url))
          state.metadataSize + needed

theorem any_victims_iff (url : Str) :
    (victims state).any (fun victim => victim.1 = url) = true ↔
      (state.indices.find? url).isSome := by
  simp only [List.any_eq_true, decide_eq_true_iff, victims, List.mem_map]
  constructor
  · rintro ⟨_, ⟨⟨other, row⟩, selected, rfl⟩, rfl⟩
    have stored := (Table.mem_select_iff.mp selected).1
    exact Option.isSome_of_eq_some (Table.find?_eq_some_iff.mpr stored)
  · intro isSome
    obtain ⟨row, found⟩ := Option.isSome_iff_exists.mp isSome
    exact ⟨(url, row.size), ⟨(url, row),
      Table.mem_select_iff.mpr ⟨Table.find?_eq_some_iff.mp found, rfl⟩, rfl⟩, rfl⟩

theorem fits_foldl_deleteVictim_iff :
    fits needed (listed.foldl (deleteVictim faults) state) = true ↔
      trackedAfter faults listed state.metadataSize + needed ≤ state.metadataMaxSize := by
  rw [fits_iff, foldl_deleteVictim_metadataSize, foldl_deleteVictim_metadataMaxSize]

theorem ensureMetadataSpace_eq_none_iff :
    (ensureMetadataSpace faults needed state).1 = none ↔ ¬ NoRoom faults needed state := by
  unfold ensureMetadataSpace NoRoom
  by_cases fit : fits needed state = true
  · simp [fit, not_lt.mpr ((fits_iff needed state).mp fit)]
  · have full := (not_fits_iff needed state).mp fit
    cases unlisted : faults.candidates with
    | true => simp [fit, full]
    | false =>
      have enough := (goal_drain_iff (Sinking needed) (sinking_deleteVictim faults needed)
        (fits_deleteVictim faults needed) (victims state) state
        (fun fits => absurd fits fit)).trans
        (fits_foldl_deleteVictim_iff faults needed (victims state) state)
      rw [← evict_eq_drain] at enough
      by_cases roomy : fits needed (evict faults needed (victims state) state) = true
      · simp [fit, full, roomy, enough.mp roomy]
      · have short : ¬ trackedAfter faults (victims state) state.metadataSize + needed ≤
            state.metadataMaxSize := fun fits => roomy (enough.mpr fits)
        simp [fit, full, roomy, not_le.mp short]

/-- Making room removes the body of a cached URL iff it has to make way; else it is left. -/
theorem ensureMetadataSpace_url (url : Str) :
    ((state.indices.find? url).isSome ∧ MakesWay faults needed url state →
        (ensureMetadataSpace faults needed state).2.files url = none ∧
          (ensureMetadataSpace faults needed state).2.indices.find? url =
            if faults.deleteRow url then state.indices.find? url else none) ∧
      (¬ ((state.indices.find? url).isSome ∧ MakesWay faults needed url state) →
        (ensureMetadataSpace faults needed state).2.files url = state.files url ∧
          (ensureMetadataSpace faults needed state).2.indices.find? url =
            state.indices.find? url) := by
  unfold ensureMetadataSpace MakesWay
  by_cases fit : fits needed state = true
  · simp [fit, not_lt.mpr ((fits_iff needed state).mp fit)]
  · have full := (not_fits_iff needed state).mp fit
    cases unlisted : faults.candidates with
    | true => simp [fit]
    | false =>
      have pass : (if fits needed (evict faults needed (victims state) state) = true then
            (none, evict faults needed (victims state) state)
          else (some CommitError.cacheFull, evict faults needed (victims state) state)).2 =
          evict faults needed (victims state) state := by
        split <;> rfl
      have reached := any_drained_iff (Sinking needed) (sinking_deleteVictim faults needed)
        (fits_deleteVictim faults needed) (victims state) state (fun fits => absurd fits fit)
        fun victim : Str × Nat => decide (victim.1 = url)
      rw [fits_foldl_deleteVictim_iff, not_le, any_victims_iff] at reached
      have deleted := foldl_deleteVictim_url faults
        (drained (fun state => fits needed state = true) (deleteVictim faults) (victims state)
          state) state url
      rw [← drain_eq_foldl, ← evict_eq_drain, reached] at deleted
      simp only [fit, Bool.false_eq_true, if_false, pass]
      obtain ⟨gone, kept⟩ := deleted
      constructor
      · rintro ⟨isSome, -, -, removable, short⟩
        exact gone ⟨⟨isSome, short⟩, removable⟩
      · intro spared
        exact kept fun ⟨⟨isSome, short⟩, removable⟩ =>
          spared ⟨isSome, full, trivial, removable, short⟩

@[simp]
theorem ensureMetadataSpace_metadataMaxSize :
    (ensureMetadataSpace faults needed state).2.metadataMaxSize = state.metadataMaxSize :=
  @ensureMetadataSpace_invariant _ _ (fun after => after.metadataMaxSize = state.metadataMaxSize)
    needed rfl fun before url size kept =>
      (deleteVictim_metadataMaxSize faults before (url, size)).trans kept

end Debswarm.Metadata
