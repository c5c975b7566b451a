import Debswarm.Downloader.Workers

/-!
# What the collector of a chunked download has heard

However the workers of an attempt interleave, and whatever the sources answer, the collector hears
of every chunk that was queued, once: a worker leaves chunks in the queue only after it has
reported a failure.  As long as nothing has failed, it has written and counted what it heard of.
-/

namespace Debswarm.Downloader.Workers

open File List Sync Text Transition

/-! ## What the collector has heard -/

/-- Data that arrives is as long as its chunk. -/
def Whole (chunk : Chunk) : Report → Prop
  | .arrived _ data => (data.length : Int) = (chunk.stop - chunk.start).toInt
  | .failed _ => True

def Report.IsFailed : Report → Prop
  | .failed _ => True
  | .arrived _ _ => False

/-- What the collector writes for a report. -/
def written : Chunk × Report → List (Nat × Str)
  | (chunk, .arrived _ data) => [(chunk.offset, data)]
  | (_, .failed _) => []

def Report.peerLength : Report → Nat
  | .arrived source data => if source.type = .peer then data.length else 0
  | .failed _ => 0

def Report.mirrorLength : Report → Nat
  | .arrived source data => if source.type = .peer then 0 else data.length
  | .failed _ => 0

/-- The collector has written and counted everything that it heard of. -/
structure Tallied (heard : List (Chunk × Report)) (state : State) : Prop where
  arrived : ∀ result ∈ heard, ¬ result.2.IsFailed
  writes : state.writes = heard.flatMap written
  received : ∀ result ∈ heard, result.1.index ∈ state.received
  peerBytes : state.peerBytes = Int64.ofNat (heard.map fun result => result.2.peerLength).sum
  mirrorBytes : state.mirrorBytes =
    Int64.ofNat (heard.map fun result => result.2.mirrorLength).sum

/-- The workers still owe what the collector has not heard of. -/
def Collecting (setup : Setup) (state : State) : Prop :=
  ∃ chunks heard, setup.queuedChunks = some chunks ∧
    state.pool.Serves Whole Report.IsFailed chunks heard ∧
    (state.firstError = none → Tallied heard state)

/-- The collector has heard of every chunk. -/
def Gathered (setup : Setup) (state : State) : Prop :=
  ∃ chunks heard, setup.queuedChunks = some chunks ∧ (heard.map Prod.fst).Perm chunks ∧
    (∀ result ∈ heard, Whole result.1 result.2) ∧ Tallied heard state ∧ state.firstError = none

/-- What holds of an attempt in each of its phases. -/
def Orderly (setup : Setup) (state : State) : Prop :=
  match state.phase with
  | .collecting => Collecting setup state
  | .verifying => Gathered setup state
  | .failed error => ∀ index, error ≠ .missing index
  | .succeeded result => Gathered setup state ∧ result.peerBytes = state.peerBytes ∧
      result.mirrorBytes = state.mirrorBytes

/-! ## One step -/

variable {setup : Setup} {state : State}

theorem length_of_wholeChunk? {chunk : Chunk} {answer : Except Str Str} {data : Str}
    (whole : wholeChunk? chunk answer = some data) :
    (data.length : Int) = (chunk.stop - chunk.start).toInt := by
  unfold wholeChunk? at whole
  split at whole
  · split at whole
    · rename_i length
      cases whole
      exact length
    · cases whole
  · cases whole

/-- A worker reports whole chunks, and quits with a failure only. -/
theorem turn_chunkWorker {pool : Pool Chunk Work Report} (id : Nat) (ctxErr : Option Str)
    (pick : Source) (answer : Except Str Str) :
    pool.Turn Whole Report.IsFailed (pool.act id (chunkWorker setup ctxErr pick answer)) := by
  refine Pool.turn_act (fun chunk work report acts => ?_) fun chunk work report acts => ?_
  · cases work with
    | checking =>
      unfold chunkWorker at acts
      cases ctxErr <;> cases acts
    | downloading source attempt allErrors =>
      simp only [chunkWorker] at acts
      split at acts
      · rename_i data whole
        cases acts
        exact length_of_wholeChunk? whole
      · split at acts
        · cases acts
        · cases acts
          trivial
  · cases work with
    | checking =>
      unfold chunkWorker at acts
      cases ctxErr with
      | none => cases acts
      | some cause =>
        cases acts
        exact ⟨trivial, trivial⟩
    | downloading source attempt allErrors =>
      simp only [chunkWorker] at acts
      split at acts
      · cases acts
      · split at acts <;> cases acts

theorem Gathered.reframe (gathered : Gathered setup state) (pool : Pool Chunk Work Report)
    (ctxErr : Option Str) (phase : Phase) : Gathered setup { state with pool, ctxErr, phase } := by
  obtain ⟨chunks, heard, queued, perm, whole, tallied, noError⟩ := gathered
  exact ⟨chunks, heard, queued, perm, whole, { tallied with }, noError⟩

/-- The workers take their turns, the results are closed, and the context ends. -/
theorem Orderly.repool (orderly : Orderly setup state) {pool : Pool Chunk Work Report}
    (serves : ∀ {chunks heard}, state.pool.Serves Whole Report.IsFailed chunks heard →
      pool.Serves Whole Report.IsFailed chunks heard) (ctxErr : Option Str) :
    Orderly setup { state with pool, ctxErr } := by
  unfold Orderly at orderly ⊢
  cases phase : state.phase with
  | collecting =>
    rw [phase] at orderly
    obtain ⟨chunks, heard, queued, owes, tallied⟩ := orderly
    exact ⟨chunks, heard, queued, serves owes, fun noError => { tallied noError with }⟩
  | verifying =>
    rw [phase] at orderly
    exact orderly.reframe pool ctxErr .verifying
  | failed error =>
    rw [phase] at orderly
    exact orderly
  | succeeded result =>
    rw [phase] at orderly
    exact ⟨orderly.1.reframe pool ctxErr (.succeeded result), orderly.2⟩

theorem orderly_iff_collecting (isCollecting : state.phase = .collecting) :
    Orderly setup state ↔ Collecting setup state := by
  rw [Orderly, isCollecting]

theorem fail_eq (message : Str) :
    ∃ ctxErr, state.fail message =
      { state with firstError := state.firstError.or (some message), ctxErr } := by
  rcases state with ⟨_, _, _ | _⟩ <;> exact ⟨_, rfl⟩

theorem frame_land (chunk : Chunk) (source : Source) (data : Str) :
    (state.land chunk source data).phase = state.phase ∧
      (state.land chunk source data).pool = state.pool ∧
      (state.land chunk source data).firstError = state.firstError := by
  unfold State.land
  split <;> exact ⟨rfl, rfl, rfl⟩

theorem Tallied.land {heard : List (Chunk × Report)} (tallied : Tallied heard state)
    (chunk : Chunk) (source : Source) (data : Str) :
    Tallied (heard ++ [(chunk, .arrived source data)]) (state.land chunk source data) where
  arrived := by
    intro result mem
    rcases mem_append.mp mem with old | new
    · exact tallied.arrived result old
    · cases mem_singleton.mp new
      exact id
  writes := by
    simp only [State.land, flatMap_append, ← tallied.writes]
    rfl
  received := by
    intro result mem
    rcases mem_append.mp mem with old | new
    · exact mem_cons_of_mem _ (tallied.received result old)
    · cases mem_singleton.mp new
      exact mem_cons_self
  peerBytes := by
    simp only [State.land, map_append, sum_append, Int64.ofNat_add, ← tallied.peerBytes]
    split <;> simp [Report.peerLength, *]
  mirrorBytes := by
    simp only [State.land, map_append, sum_append, Int64.ofNat_add, ← tallied.mirrorBytes]
    split <;> simp [Report.mirrorLength, *]

/-- What the collector hears of was owed. -/
theorem orderly_collect (collecting : Collecting setup state)
    (isCollecting : state.phase = .collecting) (broken : Option (Nat × Str)) :
    Orderly setup (collect broken state) := by
  obtain ⟨chunks, heard, queued, serves, tallied⟩ := collecting
  -- A failure keeps what the workers owe; the tally is given up with the first error.
  have failing (pool : Pool Chunk Work Report) (writes : List (Nat × Str)) (message : Str)
      {result : Chunk × Report} (received : state.pool.receive? = some (result, pool)) :
      Orderly setup ({ state with pool, writes }.fail message) := by
    obtain ⟨ctxErr, failed⟩ := @fail_eq { state with pool, writes } message
    rw [failed]
    refine (orderly_iff_collecting (by exact isCollecting)).mpr
      ⟨chunks, heard ++ [result], queued, serves.receive received, fun noError => ?_⟩
    simp at noError
  unfold collect
  split
  · exact (orderly_iff_collecting isCollecting).mpr ⟨chunks, heard, queued, serves, tallied⟩
  · rename_i received
    exact failing _ _ _ received
  · rename_i chunk source data pool received
    cases broken with
    | some failure => exact failing _ _ _ received
    | none =>
      obtain ⟨samePhase, samePool, sameError⟩ :=
        @frame_land { state with pool } chunk source data
      refine (orderly_iff_collecting (samePhase.trans isCollecting)).mpr
        ⟨chunks, heard ++ [(chunk, .arrived source data)], queued, ?_, fun noError => ?_⟩
      · rw [samePool]
        exact serves.receive received
      · rw [sameError] at noError
        have before : Tallied heard { state with pool } := { tallied noError with }
        exact before.land chunk source data

theorem queuedChunks_eq {chunks : List Chunk} (queued : setup.queuedChunks = some chunks) :
    chunks = ((chunkIndices setup.expectedSize setup.chunkSize).filter
      (· ∉ setup.completedFromDisk)).map fun index =>
        ⟨index, (chunkRange setup.expectedSize setup.chunkSize index).1,
          (chunkRange setup.expectedSize setup.chunkSize index).2⟩ := by
  unfold Setup.queuedChunks at queued
  split at queued
  · cases queued
  · exact (Option.some.inj queued).symm

/-- The collector has heard of every chunk when the workers are gone and none has failed. -/
theorem Collecting.gathered (collecting : Collecting setup state)
    (drained : state.pool.isDrained = true) (noError : state.firstError = none) :
    Gathered setup state := by
  obtain ⟨chunks, heard, queued, serves, tallied⟩ := collecting
  have tally := tallied noError
  exact ⟨chunks, heard, queued, serves.perm_of_isDrained drained tally.arrived,
    fun result mem => serves.reported result (mem_append_left _ mem), tally, noError⟩

/-- A chunk that was not on disk was queued, heard of and received. -/
theorem Gathered.received (gathered : Gathered setup state) {index : Nat}
    (isIndex : index ∈ chunkIndices setup.expectedSize setup.chunkSize)
    (notOnDisk : index ∉ setup.completedFromDisk) : index ∈ state.received := by
  obtain ⟨chunks, heard, queued, perm, -, tallied, -⟩ := gathered
  obtain ⟨chunk, mem, rfl⟩ : ∃ chunk ∈ chunks, chunk.index = index := by
    rw [queuedChunks_eq queued]
    refine ⟨_, mem_map_of_mem (mem_filter.mpr ⟨isIndex, ?_⟩), rfl⟩
    simpa using notOnDisk
  obtain ⟨result, heardOf, rfl⟩ := mem_map.mp (perm.mem_iff.mpr mem)
  exact tallied.received result heardOf

theorem finish_of_isDrained (collecting : Collecting setup state)
    (drained : state.pool.isDrained = true) :
    (∃ message, state.firstError = some message ∧
      finish setup state = { state with phase := .failed (.firstError message) }) ∨
    Gathered setup state ∧ finish setup state = { state with phase := .verifying } := by
  rw [finish, if_pos drained]
  cases first : state.firstError with
  | some message => exact .inl ⟨message, rfl, rfl⟩
  | none =>
    have gathered := collecting.gathered drained first
    have noneMissing : (chunkIndices setup.expectedSize setup.chunkSize).find? (fun index =>
        index ∉ state.received ∧ index ∉ setup.completedFromDisk) = none := by
      refine find?_eq_none.mpr fun index isIndex isMissing => ?_
      rw [decide_eq_true_iff] at isMissing
      exact isMissing.1 (gathered.received isIndex isMissing.2)
    exact .inr ⟨gathered, by rw [noneMissing]⟩

theorem orderly_finish (collecting : Collecting setup state)
    (isCollecting : state.phase = .collecting) : Orderly setup (finish setup state) := by
  by_cases drained : state.pool.isDrained = true
  · rcases finish_of_isDrained collecting drained with ⟨message, -, failed⟩ | ⟨gathered, goesOn⟩
    · rw [failed]
      intro index isMissing
      cases isMissing
    · rw [goesOn]
      exact gathered.reframe _ _ .verifying
  · rw [finish, if_neg drained]
    exact (orderly_iff_collecting isCollecting).mpr collecting

theorem orderly_verify (gathered : Gathered setup state) (unreadable : Option Str) :
    Orderly setup (verify setup unreadable state) := by
  unfold verify
  cases unreadable with
  | some cause =>
    intro index isMissing
    cases isMissing
  | none =>
    dsimp only
    split
    · intro index isMissing
      cases isMissing
    · exact ⟨gathered.reframe _ _ _, rfl, rfl⟩

theorem orderly_next (orderly : Orderly setup state) (event : Event) :
    Orderly setup (next setup state event) := by
  unfold next
  split
  · exact orderly.repool (fun serves => serves.turn (Pool.turn_take _ _)) _
  · split
    · exact orderly.repool (fun serves => serves.turn (turn_chunkWorker _ _ _ _)) _
    · exact orderly
  · exact orderly.repool (fun serves => serves.close) _
  · rename_i isCollecting
    exact orderly_collect ((orderly_iff_collecting isCollecting).mp orderly) isCollecting _
  · rename_i isCollecting
    exact orderly_finish ((orderly_iff_collecting isCollecting).mp orderly) isCollecting
  · rename_i isVerifying
    rw [Orderly, isVerifying] at orderly
    exact orderly_verify orderly _
  · exact orderly.repool (fun serves => serves) _
  · exact orderly

theorem workerCount_pos (maxConc : Int) (chunks : Nat) : 0 < workerCount maxConc chunks := by
  unfold workerCount
  generalize (if maxConc > chunks then (chunks : Int) else maxConc) = capped
  dsimp only
  split <;> omega

theorem tallied_nil (pool : Pool Chunk Work Report) (phase : Phase) :
    Tallied [] ⟨pool, none, none, [], 0, 0, 0, [], phase⟩ where
  arrived := by simp
  writes := rfl
  received := by simp
  peerBytes := rfl
  mirrorBytes := rfl

theorem orderly_start (setup : Setup) : Orderly setup (.start setup) := by
  unfold State.start
  cases queued : setup.queuedChunks with
  | none =>
    intro index isMissing
    cases isMissing
  | some chunks =>
    cases chunks with
    | nil => exact ⟨[], [], queued, .refl _, by simp, tallied_nil _ _, rfl⟩
    | cons chunk rest =>
      dsimp only
      split
      · intro index isMissing
        cases isMissing
      · exact ⟨_, [], queued, Pool.serves_start (workerCount_pos _ _), fun _ => tallied_nil _ _⟩

theorem orderly_run (setup : Setup) (events : List Event) :
    Orderly setup (run (next setup) (.start setup) events) :=
  run_invariant (Orderly setup) (fun _ event orderly => orderly_next orderly event)
    (orderly_start setup) events

end Debswarm.Downloader.Workers
