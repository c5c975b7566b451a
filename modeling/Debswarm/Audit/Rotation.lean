import Debswarm.File.Numbered
import Debswarm.Text.Search
import Debswarm.Transition.Run

/-!
# Rotation of the audit log

Audit events are written to a file, one line of JSON each.  A file that has reached its size
limit is renamed to the first backup before the next event is written, after every backup has
been renamed to the one after it.  The file itself is place 0, the backup with the suffix `.i`
is place `i`.

Seen from above, a log is a list of files, the newest first: an event goes to the newest file,
or begins a new one when that is full.  The writer keeps the newest files of that list at the
places from 0 on, and what it loses are the files after them.
-/

namespace Debswarm.Audit

open File List Option Text Transition

universe u

variable {Event : Type u}

/-- The JSON encoder.  Newlines in strings are escaped, so the encoding of an event is one
line. -/
structure Encoder (Event : Type u) where
  encode : Event → Str
  oneLine : ∀ event, 10 ∉ encode event

/-- The configuration of the writer. -/
structure JSONWriterConfig where
  path : Str
  maxSizeMB : Int
  maxBackups : Int
  deriving DecidableEq, Repr

/-- The writer and its files. An encoder that has failed writes no more. -/
structure JSONWriter where
  maxBytes : Int64
  maxBackups : Nat
  files : NumberedFiles Str
  written : Nat
  closed : Bool
  fileOpen : Bool
  encoderFailed : Bool

/-- What fails while an event is logged. A failing write has written some bytes before. -/
structure Faults where
  close : Bool := false
  shift : Nat → Bool := fun _ => false
  move : Bool := false
  openFile : Bool := false
  write : Option Nat := none

/-- Nothing fails. -/
def Faults.none : Faults :=
  {}

/-- Open the log file for appending, creating it if it is not there. -/
def openFile (fails : Bool) (writer : JSONWriter) : Bool × JSONWriter :=
  if fails then (false, writer)
  else
    let content := (writer.files.file 0).getD []
    (true,
      { writer with
        files := writer.files.write 0 content
        written := content.length
        fileOpen := true
        encoderFailed := false })

/-- Why a writer cannot be created. -/
inductive CreateError
  | pathRequired
  | directoryFailed
  | openFailed
  deriving DecidableEq, Repr

/-- Create a writer.  A size or a number of backups that is not positive gets its default. -/
def newJSONWriter (cfg : JSONWriterConfig) (mkdirFails openFails : Bool)
    (files : NumberedFiles Str) : Except CreateError JSONWriter :=
  if cfg.path = [] then .error .pathRequired
  else
    let maxSizeMB := if cfg.maxSizeMB ≤ 0 then 100 else cfg.maxSizeMB
    let maxBackups := if cfg.maxBackups ≤ 0 then 5 else cfg.maxBackups.toNat
    if mkdirFails then .error .directoryFailed
    else
      match openFile openFails
        ⟨.ofInt maxSizeMB * 1024 * 1024, maxBackups, files, 0, false, false, false⟩ with
      | (true, writer) => .ok writer
      | (false, _) => .error .openFailed

/-- Rotate the log file. A close that fails closes all the same, and closing a closed file fails. -/
def rotate (faults : Faults) (writer : JSONWriter) : Bool × JSONWriter :=
  let closed := { writer with fileOpen := false }
  if faults.close || !writer.fileOpen then (false, closed)
  else
    let shifted :=
      { closed with files := closed.files.tryShiftUp faults.shift 1 (closed.maxBackups - 1) }
    if faults.move then (false, (openFile faults.openFile shifted).2)
    else
      let moved := shifted.files.rename 0 1
      openFile faults.openFile { shifted with files := moved.remove (writer.maxBackups + 1) }

/-- Append bytes to the log file. -/
def append (bytes : Str) (writer : JSONWriter) : JSONWriter :=
  { writer with
    files := writer.files.write 0 ((writer.files.file 0).getD [] ++ bytes)
    written := writer.written + bytes.length }

def writeEvent (encoder : Encoder Event) (faults : Faults) (event : Event)
    (writer : JSONWriter) : JSONWriter :=
  let bytes := line (encoder.encode event)
  if writer.encoderFailed then writer
  else if !writer.fileOpen then { writer with encoderFailed := true }
  else
    match faults.write with
    | some written => { append (bytes.take written) writer with encoderFailed := true }
    | Option.none => append bytes writer

/-- Log an event.  A failed rotation does not keep the event from being written. -/
def log (encoder : Encoder Event) (faults : Faults) (event : Event) (writer : JSONWriter) :
    JSONWriter :=
  if writer.closed then writer
  else
    let ready :=
      if writer.maxBytes.toInt ≤ writer.written then (rotate faults writer).2 else writer
    writeEvent encoder faults event ready

/-- Read the backups from the highest number down to one, and then the log file. -/
def readBack (writer : JSONWriter) : List Str :=
  lines ((List.range (writer.maxBackups + 1)).reverse.flatMap fun place =>
    (writer.files.file place).getD [])

/-! ## What rotation keeps -/

/-- The files of a log, the newest first. -/
abbrev Archive (Event : Type u) :=
  List (List Event)

/-- Add an event to the newest file, or begin a new file if that one is full. -/
def Archive.log (isFull : List Event → Bool) (event : Event) : Archive Event → Archive Event
  | [] => [[event]]
  | newest :: older =>
    if isFull newest then [event] :: newest :: older else (newest ++ [event]) :: older

/-- The events of a log, the oldest first. -/
def Archive.events (archive : Archive Event) : List Event :=
  archive.reverse.flatten

theorem Archive.events_log (isFull : List Event → Bool) (event : Event) (archive : Archive Event) :
    (archive.log isFull event).events = archive.events ++ [event] := by
  cases archive with
  | nil => rfl
  | cons newest older =>
    rw [Archive.log]
    split <;> simp [Archive.events]

theorem Archive.events_drop_append_take (archive : Archive Event) (count : Nat) :
    events (archive.drop count) ++ events (archive.take count) = archive.events := by
  rw [events, events, ← flatten_append, ← reverse_append, take_append_drop]
  rfl

/-! ## The writer and its archive -/

section Writer

variable (encoder : Encoder Event)

def fileBytes (events : List Event) : Str :=
  (events.map encoder.encode).flatMap line

/-- Whether a file with some events has reached the size limit. -/
def isFull (maxBytes : Int64) (events : List Event) : Bool :=
  maxBytes.toInt ≤ (fileBytes encoder events).length

@[simp]
theorem fileBytes_append (first second : List Event) :
    fileBytes encoder (first ++ second) = fileBytes encoder first ++ fileBytes encoder second := by
  rw [fileBytes, map_append, flatMap_append]
  rfl

theorem fileBytes_flatten (files : List (List Event)) :
    files.flatMap (fileBytes encoder) = fileBytes encoder files.flatten := by
  induction files with
  | nil => rfl
  | cons file files ih => rw [flatMap_cons, ih, flatten_cons, fileBytes_append]

theorem lines_fileBytes (events : List Event) :
    lines (fileBytes encoder events) = events.map encoder.encode := by
  apply lines_flatMap_line
  intro text mem
  obtain ⟨event, -, rfl⟩ := mem_map.mp mem
  exact encoder.oneLine event

/-- A writer in working order whose files are the newest ones of an archive. -/
structure Keeps (writer : JSONWriter) (newest : List Event) (older : Archive Event) : Prop where
  notClosed : writer.closed = false
  fileOpen : writer.fileOpen = true
  encoding : writer.encoderFailed = false
  backups : 1 ≤ writer.maxBackups
  written : writer.written = (fileBytes encoder newest).length
  files : ∀ place, writer.files.file place =
    (((newest :: older).take (writer.maxBackups + 1))[place]?).map (fileBytes encoder)
  lost : writer.files.lost =
    (older.drop writer.maxBackups).reverse.map fun file =>
      (writer.maxBackups, fileBytes encoder file)

variable {encoder} {writer : JSONWriter} {newest : List Event} {older : Archive Event}

section

variable (keeps : Keeps encoder writer newest older)

include keeps

/-- Shifting moves every file of the archive up by one place, and loses the one at the
last. -/
theorem Keeps.shift {count : Nat}
    (isCount : writer.maxBackups = count + 1) :
    (∀ place, (writer.files.shiftUp 0 (count + 1)).file place =
        if place = 0 then none
        else (((newest :: older).take (count + 1))[place - 1]?).map (fileBytes encoder)) ∧
      (writer.files.shiftUp 0 (count + 1)).lost =
        ((newest :: older).drop (count + 1)).reverse.map fun file =>
          (count + 1, fileBytes encoder file) := by
  have files := keeps.files
  rw [isCount] at files
  constructor
  · intro place
    rw [NumberedFiles.file_shiftUp]
    simp only [files]
    grind
  · rw [NumberedFiles.lost_shiftUp, keeps.lost, isCount, files, files]
    rw [getElem?_take_of_lt (Nat.lt_succ_of_lt (Nat.lt_succ_self count)),
      getElem?_take_of_lt (Nat.lt_succ_self (count + 1)), getElem?_cons_succ,
      drop_succ_cons]
    by_cases long : count < older.length
    · have last : older[count]? = some older[count] := getElem?_eq_getElem long
      have inside : count < (newest :: older).length := Nat.lt_succ_of_lt long
      have below : (newest :: older)[count]? = some (newest :: older)[count] :=
        getElem?_eq_getElem inside
      rw [drop_eq_getElem_cons long, reverse_cons, map_append, last]
      simp [below]
    · have ends := Nat.le_of_not_lt long
      rw [getElem?_eq_none ends, drop_of_length_le ends, drop_of_length_le (Nat.le_succ_of_le ends)]
      simp

/-- A rotation puts an empty file before the others, and loses the file at the last place. -/
theorem keeps_rotate :
    Keeps encoder (rotate .none writer).2 [] (newest :: older) := by
  obtain ⟨count, isCount⟩ := Nat.exists_eq_add_of_le' keeps.backups
  obtain ⟨files, lost⟩ := keeps.shift isCount
  have chain : (writer.files.shiftUp 1 (writer.maxBackups - 1)).rename 0 1 =
      writer.files.shiftUp 0 (count + 1) := by
    rw [isCount, Nat.add_sub_cancel, NumberedFiles.shiftUp_succ]
  have nothingBeyond : (writer.files.shiftUp 0 (count + 1)).file (writer.maxBackups + 1) =
      none := by
    rw [files, isCount]
    simp
  have rotated : (rotate .none writer).2 = { writer with
        files := (writer.files.shiftUp 0 (count + 1)).write 0 []
        written := 0
        fileOpen := true
        encoderFailed := false } := by
    simp [rotate, openFile, Faults.none, keeps.fileOpen, NumberedFiles.tryShiftUp_of_none, chain,
      NumberedFiles.remove_of_none nothingBeyond, files 0]
  rw [rotated]
  exact
    { notClosed := keeps.notClosed
      fileOpen := rfl
      encoding := rfl
      backups := keeps.backups
      written := rfl
      files := by
        intro place
        rw [NumberedFiles.file_write, files, isCount]
        cases place with
        | zero => rfl
        | succ place => simp
      lost := lost.trans (by rw [isCount]) }

theorem keeps_writeEvent (event : Event) :
    Keeps encoder (writeEvent encoder .none event writer) (newest ++ [event]) older := by
  have added : fileBytes encoder (newest ++ [event]) =
      fileBytes encoder newest ++ line (encoder.encode event) := by
    rw [fileBytes_append]
    simp [fileBytes]
  have current : writer.files.file 0 = some (fileBytes encoder newest) := by
    rw [keeps.files]
    rfl
  have appended : writeEvent encoder .none event writer =
      append (line (encoder.encode event)) writer := by
    simp [writeEvent, Faults.none, keeps.encoding, keeps.fileOpen]
  rw [appended]
  exact
    { notClosed := keeps.notClosed
      fileOpen := keeps.fileOpen
      encoding := keeps.encoding
      backups := keeps.backups
      written := by
        rw [added, length_append, ← keeps.written]
        rfl
      files := by
        intro place
        unfold append
        rw [NumberedFiles.file_write, current, getD_some, ← added]
        cases place with
        | zero => rfl
        | succ place =>
          rw [if_neg (Nat.succ_ne_zero place), keeps.files]
          rfl
      lost := keeps.lost }

theorem keeps_log (event : Event) :
    ∃ newest' older',
      Archive.log (isFull encoder writer.maxBytes) event (newest :: older) = newest' :: older' ∧
        Keeps encoder (log encoder .none event writer) newest' older' := by
  unfold log Archive.log isFull
  simp only [keeps.notClosed, keeps.written, Bool.false_eq_true, if_false, decide_eq_true_eq]
  split
  · exact ⟨_, _, rfl, keeps_writeEvent (keeps_rotate keeps) event⟩
  · exact ⟨_, _, rfl, keeps_writeEvent keeps event⟩

end

/-- The files of an archive, read from the oldest on. -/
theorem flatMap_range_reverse (bytes : List Event → Str) (archive : Archive Event) (count : Nat) :
    ((range count).reverse.flatMap fun place => (archive[place]?.map bytes).getD []) =
      (archive.take count).reverse.flatMap bytes := by
  induction count with
  | zero => rfl
  | succ count ih =>
    rw [range_succ, reverse_append, reverse_singleton, singleton_append,
      flatMap_cons, ih, take_add_one, reverse_append, flatMap_append]
    congr 1
    cases archive[count]? with
    | none => rfl
    | some file => simp

theorem Keeps.readBack_eq (keeps : Keeps encoder writer newest older) :
    readBack writer =
      (Archive.events ((newest :: older).take (writer.maxBackups + 1))).map encoder.encode := by
  have whole := flatMap_range_reverse (fileBytes encoder)
    ((newest :: older).take (writer.maxBackups + 1)) (writer.maxBackups + 1)
  simp only [← keeps.files] at whole
  rw [readBack, whole, take_take, Nat.min_self, fileBytes_flatten, lines_fileBytes]
  rfl

theorem Keeps.lost_eq (keeps : Keeps encoder writer newest older) :
    lines (writer.files.lost.flatMap Prod.snd) =
      (Archive.events (older.drop writer.maxBackups)).map encoder.encode := by
  rw [keeps.lost, flatMap_map, fileBytes_flatten, lines_fileBytes]
  rfl

end Writer

/-! ## Whole logs -/

/-- A writer that was created where there are no files. -/
def JSONWriter.opened (maxBytes : Int64) (maxBackups : Nat) : JSONWriter :=
  (openFile false ⟨maxBytes, maxBackups, NumberedFiles.empty, 0, false, false, false⟩).2

/-- What is created where there are no files is such a writer, with at least one backup. -/
theorem newJSONWriter_eq_opened {cfg : JSONWriterConfig} (named : cfg.path ≠ []) :
    ∃ maxBytes maxBackups, 1 ≤ maxBackups ∧
      newJSONWriter cfg false false NumberedFiles.empty =
        .ok (JSONWriter.opened maxBytes maxBackups) := by
  unfold newJSONWriter
  rw [if_neg named]
  refine ⟨_, if cfg.maxBackups ≤ 0 then 5 else cfg.maxBackups.toNat, ?_, rfl⟩
  split
  · decide
  · omega

theorem maxBackups_log (encoder : Encoder Event) (faults : Faults) (event : Event)
    (writer : JSONWriter) : (log encoder faults event writer).maxBackups = writer.maxBackups := by
  have rotated : (rotate faults writer).2.maxBackups = writer.maxBackups := by
    unfold rotate openFile
    grind
  unfold log writeEvent append
  grind

theorem keeps_opened (encoder : Encoder Event) (maxBytes : Int64) {maxBackups : Nat}
    (backups : 1 ≤ maxBackups) :
    Keeps encoder (JSONWriter.opened maxBytes maxBackups) [] [] where
  notClosed := rfl
  fileOpen := rfl
  encoding := rfl
  backups := backups
  written := rfl
  files place := by
    cases place with
    | zero => rfl
    | succ place =>
      simp [JSONWriter.opened, openFile, NumberedFiles.file_write, NumberedFiles.empty]
  lost := by simp [JSONWriter.opened, openFile, NumberedFiles.empty, NumberedFiles.write]

theorem keeps_run (encoder : Encoder Event) {writer : JSONWriter} {newest : List Event}
    {older : Archive Event} (keeps : Keeps encoder writer newest older) (events : List Event) :
    let logged := run (fun writer event => log encoder .none event writer) writer events
    logged.maxBackups = writer.maxBackups ∧
      ∃ newest' older', Keeps encoder logged newest' older' ∧
        Archive.events (newest' :: older') = Archive.events (newest :: older) ++ events := by
  induction events generalizing writer newest older with
  | nil => exact ⟨rfl, newest, older, keeps, (append_nil _).symm⟩
  | cons event rest ih =>
    obtain ⟨newest', older', isLog, keeps'⟩ := keeps_log keeps event
    obtain ⟨sameBackups, newest'', older'', keeps'', eventsEq⟩ := ih keeps'
    refine ⟨sameBackups.trans (maxBackups_log encoder .none event writer), newest'', older'',
      keeps'', ?_⟩
    rw [eventsEq, ← isLog, Archive.events_log, append_assoc, singleton_append]

/-- If nothing fails, the backups and the log file hold the last logged events in order, and the
events before them were in files that were renamed over. -/
theorem readBack_eq_suffix (encoder : Encoder Event) (maxBytes : Int64) {maxBackups : Nat}
    (backups : 1 ≤ maxBackups) (events : List Event) :
    let writer := run (fun writer event => log encoder .none event writer)
      (JSONWriter.opened maxBytes maxBackups) events
    ∃ missing kept, events = missing ++ kept ∧
      readBack writer = kept.map encoder.encode ∧
      (∀ place, maxBackups < place → writer.files.file place = none) ∧
      lines (writer.files.lost.flatMap Prod.snd) = missing.map encoder.encode ∧
      ∀ file ∈ writer.files.lost, file.1 = maxBackups := by
  intro writer
  obtain ⟨sameBackups, newest, older, keeps, eventsEq⟩ :=
    keeps_run encoder (keeps_opened encoder maxBytes backups) events
  have isBackups : writer.maxBackups = maxBackups := sameBackups
  have wholeLog : Archive.events (newest :: older) = events := eventsEq
  refine ⟨_, _, ?_, keeps.readBack_eq, ?_, keeps.lost_eq, ?_⟩
  · rw [← drop_succ_cons, Archive.events_drop_append_take, wholeLog]
  · intro place beyond
    rw [keeps.files, isBackups]
    simp only [map_eq_none_iff, getElem?_eq_none_iff, length_take]
    omega
  · intro file isLost
    rw [keeps.lost] at isLost
    obtain ⟨events, -, rfl⟩ := mem_map.mp isLost
    exact isBackups

/-- Events of one bit, on lines of two bytes. -/
def bitEncoder : Encoder Bool where
  encode event := if event then ofAscii "1" else ofAscii "0"
  oneLine event := by cases event <;> decide

/-- Every event fills a file: of four events, the first is lost. -/
theorem readBack_of_four_events :
    let events := [true, false, false, true]
    let writer := run (fun writer event => log bitEncoder .none event writer)
      (JSONWriter.opened 2 2) events
    1 ≤ 2 ∧ readBack writer = [ofAscii "0", ofAscii "0", ofAscii "1"] ∧
      ∃ missing kept, events = missing ++ kept ∧
        readBack writer = kept.map bitEncoder.encode ∧
        (∀ place, 2 < place → writer.files.file place = none) ∧
        lines (writer.files.lost.flatMap Prod.snd) = missing.map bitEncoder.encode ∧
        ∀ file ∈ writer.files.lost, file.1 = 2 := by
  intro events writer
  have backups : 1 ≤ 2 := by decide
  exact ⟨backups, by decide +kernel, readBack_eq_suffix bitEncoder 2 backups events⟩

end Debswarm.Audit
