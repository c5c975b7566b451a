import Debswarm.Downloader.Delivery
import Debswarm.Downloader.Records

/-!
# What a chunked download delivers

The chunks that are queued and those found on disk are the rows of the download, and they tile the
file.  An attempt that succeeds has written every byte that was not on disk exactly once and has
counted it, and no chunk is ever missing.

All of that rests on the number of chunks, which is computed with a sum that can wrap around.
-/

namespace Debswarm.Downloader.Workers

open File List Text Transition

/-! ## The guarantee -/

/-- The row that a chunk has when its download is created. -/
def Chunk.row (chunk : Chunk) : Nat × Records.ChunkRow :=
  (chunk.index, ⟨chunk.start, chunk.stop, .pending, none⟩)

/-- The range of the row of a chunk. -/
def rowSpan (row : Nat × Records.ChunkRow) : Int × Int :=
  (row.2.start.toInt, row.2.stop.toInt)

/-- The rows of the chunks of the file. -/
def Setup.rows (setup : Setup) : List (Nat × Records.ChunkRow) :=
  Records.chunkRows setup.expectedSize setup.chunkSize

/-- The rows of the chunks that were found on disk. -/
def Setup.resumedRows (setup : Setup) : List (Nat × Records.ChunkRow) :=
  setup.rows.filter (·.1 ∈ setup.completedFromDisk)

/-- How many bytes were found on disk. -/
def Setup.resumedBytes (setup : Setup) : Int :=
  (setup.resumedRows.map fun row => (rowSpan row).2 - (rowSpan row).1).sum

/-- How often a byte was written. -/
def timesWritten (writes : List (Nat × Str)) (position : Nat) : Nat :=
  writes.countP fun write => write.1 ≤ position ∧ position < write.1 + write.2.length

/-- The queued chunks and those on disk tile the file; a success has written and counted every other
byte once. -/
structure Complete (setup : Setup) : Prop where
  partitions : ∃ chunks, setup.queuedChunks = some chunks ∧
    chunks.map Chunk.row = setup.rows.filter (·.1 ∉ setup.completedFromDisk) ∧
    Tiles 0 (setup.rows.map rowSpan) setup.expectedSize.toInt
  written_once : ∀ events result,
    (run (next setup) (.start setup) events).phase = .succeeded result →
      ∀ position : Nat, (position : Int) < setup.expectedSize.toInt →
        (∀ row ∈ setup.resumedRows, covers (position : Int) (rowSpan row) = false) →
          timesWritten (run (next setup) (.start setup) events).writes position = 1
  counted : ∀ events result,
    (run (next setup) (.start setup) events).phase = .succeeded result →
      result.peerBytes.toInt + result.mirrorBytes.toInt =
        setup.expectedSize.toInt - setup.resumedBytes
  never_missing : ∀ events index,
    (run (next setup) (.start setup) events).phase ≠ .failed (.missing index)

variable {setup : Setup} {state : State}

/-! ## The queue and the rows -/

theorem map_rowSpan_rows (setup : Setup) :
    setup.rows.map rowSpan = (chunkIndices setup.expectedSize setup.chunkSize).map
      (chunkSpan setup.expectedSize setup.chunkSize) := by
  rw [Setup.rows, Records.chunkRows, map_map]
  rfl

/-- The queued chunks are the rows that were not found on disk. -/
theorem map_row_queuedChunks {chunks : List Chunk} (queued : setup.queuedChunks = some chunks) :
    chunks.map Chunk.row = setup.rows.filter (·.1 ∉ setup.completedFromDisk) := by
  rw [queuedChunks_eq queued, Setup.rows, Records.chunkRows, map_map, filter_map]
  rfl

/-! ## Writes and counts -/

/-- The data of a chunk has arrived, and it is as long as its place in the file. -/
def Landed : Chunk × Report → Prop
  | (chunk, .arrived _ data) =>
    0 ≤ chunk.start.toInt ∧ (data.length : Int) = chunk.stop.toInt - chunk.start.toInt
  | (_, .failed _) => False

/-- What was heard of are the rows that were not found on disk, and all of it has landed. -/
theorem Gathered.landed (gathered : Gathered setup state)
    (tiles : Tiles 0 (setup.rows.map rowSpan) setup.expectedSize.toInt) :
    ∃ heard, ((heard.map Prod.fst).map Chunk.row).Perm
        (setup.rows.filter (·.1 ∉ setup.completedFromDisk)) ∧
      (∀ result ∈ heard, Landed result) ∧ Tallied heard state := by
  obtain ⟨chunks, heard, queued, perm, whole, tallied, -⟩ := gathered
  refine ⟨heard, map_row_queuedChunks queued ▸ perm.map Chunk.row, fun result mem => ?_, tallied⟩
  have isRow : result.1.row ∈ setup.rows := by
    have isChunk := mem_map_of_mem (f := Chunk.row)
      (perm.mem_iff.mp (mem_map_of_mem mem))
    rw [map_row_queuedChunks queued] at isChunk
    exact mem_of_mem_filter isChunk
  obtain ⟨start, rises, -⟩ := tiles.bounds (mem_map_of_mem isRow)
  have arrived := tallied.arrived result mem
  have length := whole result mem
  obtain ⟨chunk, error | ⟨source, data⟩⟩ := result
  · exact absurd trivial arrived
  · dsimp only [rowSpan, Chunk.row] at start rises
    have bound := chunk.stop.toInt_lt
    simp only [Whole] at length
    rw [Int64.toInt_sub, Int.bmod_eq_of_le (by omega) (by omega)] at length
    exact ⟨start, length⟩

/-- What was written covers the ranges of the chunks that were heard of. -/
theorem timesWritten_flatMap {heard : List (Chunk × Report)}
    (landed : ∀ result ∈ heard, Landed result) (position : Nat) :
    timesWritten (heard.flatMap written) position =
      ((heard.map Prod.fst).map Chunk.row).countP fun row =>
        covers (position : Int) (rowSpan row) := by
  induction heard with
  | nil => rfl
  | cons result rest ih =>
    obtain ⟨first, others⟩ := forall_mem_cons.mp landed
    have later := ih others
    obtain ⟨chunk, error | ⟨source, data⟩⟩ := result
    · exact first.elim
    · obtain ⟨start, length⟩ := first
      rw [flatMap_cons, timesWritten, countP_append]
      rw [timesWritten] at later
      rw [later, map_cons, map_cons, countP_cons, written, countP_singleton, Nat.add_comm]
      congr 1
      refine if_congr ?_ rfl rfl
      rw [decide_eq_true_iff, covers_iff]
      dsimp only [rowSpan, Chunk.row, Chunk.offset]
      omega

/-- The bytes that were counted are those of the chunks that were heard of. -/
theorem sum_lengths {heard : List (Chunk × Report)} (landed : ∀ result ∈ heard, Landed result) :
    (((heard.map fun result => result.2.peerLength).sum : Nat) : Int) +
        ((heard.map fun result => result.2.mirrorLength).sum : Nat) =
      (((heard.map Prod.fst).map Chunk.row).map fun row =>
        (rowSpan row).2 - (rowSpan row).1).sum := by
  induction heard with
  | nil => rfl
  | cons result rest ih =>
    obtain ⟨first, others⟩ := forall_mem_cons.mp landed
    have later := ih others
    obtain ⟨chunk, error | ⟨source, data⟩⟩ := result
    · exact first.elim
    · have length : ((Report.arrived source data).peerLength : Int) +
          (Report.arrived source data).mirrorLength = chunk.stop.toInt - chunk.start.toInt := by
        simp only [Report.peerLength, Report.mirrorLength]
        split <;> simpa using first.2
      simp only [map_cons, sum_cons, Nat.cast_add]
      dsimp only [rowSpan, Chunk.row] at later ⊢
      omega

/-- Everything outside of the chunks on disk was written once. -/
theorem Gathered.timesWritten_eq_one (gathered : Gathered setup state)
    (tiles : Tiles 0 (setup.rows.map rowSpan) setup.expectedSize.toInt) {position : Nat}
    (inside : (position : Int) < setup.expectedSize.toInt)
    (notResumed : ∀ row ∈ setup.resumedRows, covers (position : Int) (rowSpan row) = false) :
    timesWritten state.writes position = 1 := by
  obtain ⟨heard, perm, landed, tallied⟩ := gathered.landed tiles
  have notOnDisk : ∀ row ∈ setup.rows, covers (position : Int) (rowSpan row) = true →
      row.1 ∉ setup.completedFromDisk := by
    intro row mem covered onDisk
    have free := notResumed row (mem_filter.mpr ⟨mem, by simpa using onDisk⟩)
    rw [free] at covered
    cases covered
  calc timesWritten state.writes position
      = ((heard.map Prod.fst).map Chunk.row).countP
          fun row => covers (position : Int) (rowSpan row) := by
        rw [tallied.writes, timesWritten_flatMap landed]
    _ = setup.rows.countP fun row => covers (position : Int) (rowSpan row) := by
        rw [perm.countP_eq, countP_filter]
        refine countP_congr fun row mem => ?_
        have free := notOnDisk row mem
        simpa using free
    _ = (setup.rows.map rowSpan).countP (covers (position : Int)) := by
        rw [countP_map]
        rfl
    _ = 1 := tiles.countP_covers (by omega) inside

/-- The bytes of all rows are those of the chunks on disk and those of the others. -/
theorem sum_rows (tiles : Tiles 0 (setup.rows.map rowSpan) setup.expectedSize.toInt) :
    ((setup.rows.filter (·.1 ∉ setup.completedFromDisk)).map fun row =>
        (rowSpan row).2 - (rowSpan row).1).sum =
      setup.expectedSize.toInt - setup.resumedBytes := by
  have total := tiles.sum_lengths
  rw [map_map, sub_zero] at total
  have parts := ((filter_append_perm (fun row : Nat × Records.ChunkRow =>
    decide (row.1 ∈ setup.completedFromDisk)) setup.rows).map fun row =>
      (rowSpan row).2 - (rowSpan row).1).sum_eq
  rw [map_append, sum_append] at parts
  simp only [← decide_not] at parts
  rw [← total, Setup.resumedBytes, Setup.resumedRows]
  exact eq_sub_of_add_eq' parts

/-- Everything outside of the chunks on disk was counted once. -/
theorem Gathered.bytes_eq (gathered : Gathered setup state)
    (tiles : Tiles 0 (setup.rows.map rowSpan) setup.expectedSize.toInt) :
    state.peerBytes.toInt + state.mirrorBytes.toInt =
      setup.expectedSize.toInt - setup.resumedBytes := by
  obtain ⟨heard, perm, landed, tallied⟩ := gathered.landed tiles
  have sum := sum_lengths landed
  rw [(perm.map _).sum_eq, sum_rows tiles] at sum
  -- Neither count exceeds the size of the file, so neither wraps around.
  have nonneg : 0 ≤ setup.resumedBytes := by
    refine sum_nonneg fun length mem => ?_
    obtain ⟨row, isRow, rfl⟩ := mem_map.mp mem
    have bounds := tiles.bounds (mem_map_of_mem (mem_of_mem_filter isRow))
    omega
  have bound := setup.expectedSize.toInt_lt
  rw [tallied.peerBytes, tallied.mirrorBytes, Int64.toInt_ofNat_of_lt (by omega),
    Int64.toInt_ofNat_of_lt (by omega), sum]

/-! ## The guarantee holds exactly where the sum does not wrap around -/

theorem complete_of_tiles {chunks : List Chunk} (queued : setup.queuedChunks = some chunks)
    (tiles : Tiles 0 (setup.rows.map rowSpan) setup.expectedSize.toInt) : Complete setup where
  partitions := ⟨chunks, queued, map_row_queuedChunks queued, tiles⟩
  written_once := by
    intro events result succeeded position inside notResumed
    have orderly := orderly_run setup events
    rw [Orderly, succeeded] at orderly
    exact orderly.1.timesWritten_eq_one tiles inside notResumed
  counted := by
    intro events result succeeded
    have orderly := orderly_run setup events
    rw [Orderly, succeeded] at orderly
    rw [orderly.2.1, orderly.2.2]
    exact orderly.1.bytes_eq tiles
  never_missing := by
    intro events index isMissing
    have orderly := orderly_run setup events
    rw [Orderly, isMissing] at orderly
    exact orderly index rfl

/-- An attempt keeps the guarantee iff the sum that gives the number of chunks does not wrap. -/
theorem complete_iff_fits (setup : Setup) (sizePositive : 0 < setup.expectedSize)
    (positive : 0 < setup.chunkSize) :
    Complete setup ↔ Fits setup.expectedSize setup.chunkSize := by
  have size : 0 < setup.expectedSize.toInt := Int64.lt_iff_toInt_lt.mp sizePositive
  have chunk : 0 < setup.chunkSize.toInt := Int64.lt_iff_toInt_lt.mp positive
  constructor
  · intro complete
    obtain ⟨chunks, queued, -, tiles⟩ := complete.partitions
    rw [map_rowSpan_rows] at tiles
    by_contra wraps
    exact not_tiles_of_not_fits size chunk wraps tiles
  · intro fits
    have notNegative : ¬ totalChunks setup.expectedSize setup.chunkSize < 0 := by
      rw [Int64.lt_iff_toInt_lt, totalChunks_of_fits size chunk fits]
      exact Int.not_lt.mpr (Int.natCast_nonneg _)
    refine complete_of_tiles (if_neg notNegative) ?_
    rw [map_rowSpan_rows]
    exact tiles_of_fits size chunk fits

/-- Two chunks of a file of three bytes. -/
def smallSetup : Setup where
  lib := { sha256 := id, unicodeLower := id }
  expectedHash := [1, 2, 3]
  expectedSize := 3
  chunkSize := 2
  maxConc := 8
  peers := [[7]]
  mirror := some (ofAscii "mirror")
  completedFromDisk := []
  file := []

/-- The peer is asked twice for the first chunk, and the second one comes from the mirror. -/
def smallRun : List Event :=
  [.take 0, .take 1, .work 0 (.peer [7]) (.ok []), .work 1 .mirror (.ok []),
    .work 0 (.peer [7]) (.ok [1]), .work 1 .mirror (.ok [3]), .collect none, .take 1,
    .work 0 .mirror (.ok [1, 2]), .take 0, .close, .collect none, .finish, .verify none]

theorem complete_smallSetup :
    Complete smallSetup ∧ (run (next smallSetup) (.start smallSetup) smallRun).phase =
      .succeeded ⟨3, .mixed, 2, 1, 2, 1⟩ := by
  have sizePositive : 0 < smallSetup.expectedSize := by decide
  have positive : 0 < smallSetup.chunkSize := by decide
  have fits : Fits smallSetup.expectedSize smallSetup.chunkSize := by decide
  exact ⟨(complete_iff_fits smallSetup sizePositive positive).mpr fits, by decide +kernel⟩

/-- A file of the largest size there is, in chunks of the default size. -/
def largestSetup : Setup :=
  { smallSetup with expectedSize := 9223372036854775807, chunkSize := 4194304 }

/-- The number of its chunks is negative, and the program stops. -/
theorem not_complete_largestSetup :
    (State.start largestSetup).phase = .failed .panic ∧ ¬ Complete largestSetup := by
  have none : largestSetup.queuedChunks = none := by decide +kernel
  refine ⟨by decide +kernel, fun complete => ?_⟩
  obtain ⟨chunks, queued, -⟩ := complete.partitions
  rw [none] at queued
  cases queued

end Debswarm.Downloader.Workers
