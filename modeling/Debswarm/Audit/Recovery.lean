import Debswarm.Audit.Rotation

/-!
# Recovering from a failed rotation

A rotation that cannot rename the log file opens it again, and the writer goes on.  One whose
close or open fails leaves the writer without a file but with the count of the file it had, so
that every later event begins with a rotation that ends at closing that file again.
-/

namespace Debswarm.Audit

open File List Text Transition

universe u

variable {Event : Type u}

/-- Log an event while some calls fail. -/
def logStep (encoder : Encoder Event) (writer : JSONWriter) (step : Faults × Event) :
    JSONWriter :=
  log encoder step.1 step.2 writer

/-- The writer that an event is written with, after the rotation that may come before. -/
def prepared (faults : Faults) (writer : JSONWriter) : JSONWriter :=
  if writer.maxBytes.toInt ≤ writer.written then (rotate faults writer).2 else writer

/-- An event that is logged while nothing fails goes to the end of the log file. -/
def Written (encoder : Encoder Event) (event : Event) (writer : JSONWriter) : Prop :=
  (log encoder .none event writer).files.file 0 =
    some (((prepared .none writer).files.file 0).getD [] ++ line (encoder.encode event))

/-- The rotation before an event, if there is one, closes the file and opens one. -/
def KeepsOpen (writer : JSONWriter) (step : Faults × Event) : Prop :=
  writer.maxBytes.toInt ≤ writer.written → step.1.close = false ∧ step.1.openFile = false

/-- A writer in working order. -/
structure Working (writer : JSONWriter) : Prop where
  notClosed : writer.closed = false
  fileOpen : writer.fileOpen = true
  encoding : writer.encoderFailed = false

/-- A writer that lost its file in a rotation. -/
structure Stuck (writer : JSONWriter) : Prop where
  full : writer.maxBytes.toInt ≤ writer.written
  fileClosed : writer.fileOpen = false

section Steps

variable {encoder : Encoder Event} {faults : Faults} {event : Event} {writer : JSONWriter}

theorem log_eq_writeEvent (notClosed : writer.closed = false) :
    log encoder faults event writer = writeEvent encoder faults event (prepared faults writer) := by
  rw [log, notClosed]
  rfl

theorem Working.prepared (working : Working writer) (keepsOpen : KeepsOpen writer (faults, event)) :
    Working (prepared faults writer) := by
  unfold Audit.prepared
  split
  · rename_i full
    obtain ⟨closes, opens⟩ := keepsOpen full
    simp only at closes opens
    unfold rotate
    simp only [closes, opens, working.fileOpen, openFile, Bool.not_true, Bool.or_self,
      Bool.false_eq_true, if_false]
    split <;> exact ⟨working.notClosed, rfl, rfl⟩
  · exact working

theorem writeEvent_of_working (working : Working writer) (whole : faults.write = none) :
    writeEvent encoder faults event writer = append (line (encoder.encode event)) writer := by
  simp [writeEvent, working.encoding, working.fileOpen, whole]

theorem Working.log (working : Working writer) (whole : faults.write = none)
    (keepsOpen : KeepsOpen writer (faults, event)) : Working (log encoder faults event writer) := by
  have ready := working.prepared keepsOpen
  rw [log_eq_writeEvent working.notClosed, writeEvent_of_working ready whole]
  exact ⟨ready.notClosed, ready.fileOpen, ready.encoding⟩

theorem Working.written (working : Working writer) (event : Event) :
    Written encoder event writer := by
  have ready : Working (Audit.prepared .none writer) :=
    working.prepared (by exact fun _ => ⟨rfl, rfl⟩ : KeepsOpen writer (.none, event))
  rw [Written, log_eq_writeEvent working.notClosed, writeEvent_of_working ready rfl, append]
  exact (NumberedFiles.file_write 0 0 _ _).trans (if_pos rfl)

/-- Without a file an event changes at most the state of the encoder. -/
theorem writeEvent_of_fileClosed (encoder : Encoder Event) (faults : Faults) (event : Event)
    (fileClosed : writer.fileOpen = false) :
    ∃ failed, writeEvent encoder faults event writer = { writer with encoderFailed := failed } := by
  rw [writeEvent]
  split
  · exact ⟨writer.encoderFailed, rfl⟩
  · exact ⟨true, if_pos (by rw [fileClosed]; rfl)⟩

theorem Stuck.prepared_eq (stuck : Stuck writer) (faults : Faults) :
    Audit.prepared faults writer = writer := by
  obtain ⟨full, fileClosed⟩ := stuck
  cases writer
  subst fileClosed
  simp [Audit.prepared, rotate, full]

theorem Stuck.log_eq (stuck : Stuck writer) (encoder : Encoder Event) (faults : Faults)
    (event : Event) :
    ∃ failed, log encoder faults event writer = { writer with encoderFailed := failed } := by
  by_cases closed : writer.closed
  · exact ⟨writer.encoderFailed, if_pos closed⟩
  · rw [log_eq_writeEvent (Bool.eq_false_of_not_eq_true closed), stuck.prepared_eq]
    exact writeEvent_of_fileClosed encoder faults event stuck.fileClosed

theorem Stuck.log (stuck : Stuck writer) : Stuck (log encoder faults event writer) := by
  obtain ⟨failed, isLog⟩ := stuck.log_eq encoder faults event
  rw [isLog]
  exact ⟨stuck.full, stuck.fileClosed⟩

theorem Stuck.not_written (stuck : Stuck writer) (event : Event) :
    ¬ Written encoder event writer := by
  obtain ⟨failed, isLog⟩ := stuck.log_eq encoder .none event
  rw [Written, isLog, stuck.prepared_eq]
  intro written
  have lengths := congrArg (fun content => (content.getD []).length) written
  simp [line] at lengths

/-- A rotation that fails to close or to open leaves the writer stuck. -/
theorem Working.stuck_log (working : Working writer) (loses : ¬ KeepsOpen writer (faults, event)) :
    Stuck (Audit.log encoder faults event writer) := by
  obtain ⟨full, fails⟩ := Classical.not_imp.mp loses
  have lost : Stuck (Audit.prepared faults writer) := by
    rw [Audit.prepared, if_pos full]
    unfold rotate
    cases closes : faults.close with
    | true => exact ⟨full, rfl⟩
    | false =>
      have opens : faults.openFile = true := by
        simpa [closes] using fails
      simp only [opens, working.fileOpen, openFile, Bool.not_true, Bool.or_self,
        Bool.false_eq_true, if_false, if_true]
      split <;> exact ⟨full, rfl⟩
  obtain ⟨failed, isLog⟩ := writeEvent_of_fileClosed encoder faults event lost.fileClosed
  rw [log_eq_writeEvent working.notClosed, isLog]
  exact ⟨lost.full, lost.fileClosed⟩

end Steps

/-! ## Whole logs -/

theorem working_newJSONWriter {cfg : JSONWriterConfig} {mkdirFails openFails : Bool}
    {files : NumberedFiles Str} {writer : JSONWriter}
    (created : newJSONWriter cfg mkdirFails openFails files = .ok writer) : Working writer := by
  unfold newJSONWriter openFile at created
  grind [Working]

/-- A writer that never lost its file is in working order, and one that lost it once is stuck. -/
theorem working_or_stuck (encoder : Encoder Event) {writer : JSONWriter} (working : Working writer)
    {steps : List (Faults × Event)} (whole : ∀ step ∈ steps, step.1.write = none) :
    StepsMeet (logStep encoder) KeepsOpen writer steps ∧
        Working (run (logStep encoder) writer steps) ∨
      ¬ StepsMeet (logStep encoder) KeepsOpen writer steps ∧
        Stuck (run (logStep encoder) writer steps) := by
  induction steps generalizing writer with
  | nil => exact .inl ⟨trivial, working⟩
  | cons step rest ih =>
    by_cases keepsOpen : KeepsOpen writer step
    · have stepped : Working (logStep encoder writer step) :=
        working.log (whole step mem_cons_self) keepsOpen
      have later := ih stepped fun next mem => whole next (mem_cons_of_mem step mem)
      exact later.imp (fun both => ⟨⟨keepsOpen, both.1⟩, both.2⟩)
        fun both => ⟨fun meets => both.1 meets.2, both.2⟩
    · refine .inr ⟨fun meets => keepsOpen meets.1, ?_⟩
      exact run_invariant Stuck (fun _ _ stuck => stuck.log) (working.stuck_log keepsOpen) rest

/-- Every event logged after a run goes to the log file iff no rotation failed to close or to open.
-/
theorem written_iff_keepsOpen (encoder : Encoder Event) {cfg : JSONWriterConfig}
    {mkdirFails openFails : Bool} {files : NumberedFiles Str} {writer : JSONWriter}
    (created : newJSONWriter cfg mkdirFails openFails files = .ok writer)
    (steps : List (Faults × Event)) (whole : ∀ step ∈ steps, step.1.write = none) :
    (∀ later event, Written encoder event
        (run (fun writer event => log encoder .none event writer)
          (run (logStep encoder) writer steps) later)) ↔
      StepsMeet (logStep encoder) KeepsOpen writer steps := by
  obtain ⟨meets, working⟩ | ⟨fails, stuck⟩ :=
    working_or_stuck encoder (working_newJSONWriter created) whole
  · refine ⟨fun _ => meets, fun _ later event => Working.written ?_ event⟩
    exact run_invariant Working (fun _ _ working => working.log rfl fun _ => ⟨rfl, rfl⟩) working
      later
  · refine ⟨fun every => ?_, fun meets => absurd meets fails⟩
    cases steps with
    | nil => trivial
    | cons step rest => exact absurd (every [] step.2) (stuck.not_written step.2)

theorem newJSONWriter_of_full {content : Str} (long : 1024 * 1024 ≤ content.length) :
    ∃ writer, newJSONWriter ⟨ofAscii "audit.log", 1, 1⟩ false false
        (NumberedFiles.empty.write 0 content) = .ok writer ∧
      writer.maxBytes.toInt ≤ writer.written := by
  have isContent : (NumberedFiles.empty.write 0 content).file 0 = some content :=
    (NumberedFiles.file_write 0 0 content _).trans (if_pos rfl)
  refine ⟨_, rfl, ?_⟩
  simpa [isContent] using Int.ofNat_le.mpr long

/-- The close of one rotation fails, and nothing fails after it: no event is written any
more. -/
theorem not_written_after_failed_close :
    ∃ writer, newJSONWriter ⟨ofAscii "audit.log", 1, 1⟩ false false
        (NumberedFiles.empty.write 0 (replicate (1024 * 1024) 48)) = .ok writer ∧
      ∀ later event, ¬ Written bitEncoder event
        (run (fun writer event => log bitEncoder .none event writer)
          (run (logStep bitEncoder) writer [({ close := true }, true)]) later) := by
  obtain ⟨writer, created, full⟩ := newJSONWriter_of_full (length_replicate (a := 48)).ge
  have stuck : Stuck (run (logStep bitEncoder) writer [({ close := true }, true)]) :=
    (working_newJSONWriter created).stuck_log fun keepsOpen => nomatch (keepsOpen full).1
  refine ⟨writer, created, fun later event => Stuck.not_written ?_ event⟩
  exact run_invariant Stuck (fun _ _ stuck => stuck.log) stuck later

/-- The log file cannot be renamed once: it is opened again, and every later event is
written. -/
theorem written_after_failed_move :
    ∃ writer, newJSONWriter ⟨ofAscii "audit.log", 1, 1⟩ false false
        (NumberedFiles.empty.write 0 (replicate (1024 * 1024) 48)) = .ok writer ∧
      writer.maxBytes.toInt ≤ writer.written ∧
      ∀ later event, Written bitEncoder event
        (run (fun writer event => log bitEncoder .none event writer)
          (run (logStep bitEncoder) writer [({ move := true }, true)]) later) := by
  obtain ⟨writer, created, full⟩ := newJSONWriter_of_full (length_replicate (a := 48)).ge
  have whole : ∀ step ∈ [(({ move := true } : Faults), true)], step.1.write = none := by
    intro step mem
    rw [mem_singleton.mp mem]
  exact ⟨writer, created, full, (written_iff_keepsOpen bitEncoder created _ whole).mpr
    ⟨fun _ => ⟨rfl, rfl⟩, trivial⟩⟩

end Debswarm.Audit
