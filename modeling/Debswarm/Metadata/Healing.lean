import Debswarm.Metadata.Replacement

/-!
# The self-healing miss

A reader that finds a row without a file drops the row.  It finds that out under the read lock
and drops the row later, under the write lock, without looking again: a commit in between
loses its row.  In every interleaving of readers and commits in which a row is dropped only
while its file is still missing, a committed URL keeps its row and its file.
-/

namespace Debswarm.Metadata

open Function List Table Text Transition

/-! ## Interleaved readers and commits -/

/-- A `getMetadata` call before its lookup, after one with or without a file, or returned. -/
inductive Reader
  | idle
  | opened (url : Str) (row : IndexRow) (body : Str)
  | missed (url : Str)
  | returned (entry : Option (IndexRow × Str))
  deriving DecidableEq, Repr

/-- The cache with its readers, and the URLs for which a commit reported success. -/
structure Sharing where
  cache : State
  readers : Nat → Reader
  committed : List Str

/-- A cache that nobody uses yet. -/
def Sharing.start (cache : State) : Sharing where
  cache := cache
  readers := fun _ => .idle
  committed := []

/-- The steps of the calls. A commit holds the write lock from its first look to its end. -/
inductive Access
  | lookup (reader : Nat) (url : Str)
  | finish (reader : Nat) (now : Int)
  | commit (now : Int) (writer : MetadataWriter)

/-- The read-locked part of a reader. -/
def Sharing.lookup (reader : Nat) (url : Str) (sharing : Sharing) : Sharing :=
  let found := match lookupMetadata url sharing.cache with
    | none => .returned none
    | some (_, none) => .missed url
    | some (row, some body) => .opened url row body
  { sharing with readers := update sharing.readers reader found }

/-- What a reader does after it released the read lock. -/
def Sharing.finish (reader : Nat) (now : Int) (sharing : Sharing) : Sharing :=
  match sharing.readers reader with
  | .opened url row body =>
    { sharing with
      cache := touchMetadata now url sharing.cache
      readers := update sharing.readers reader (.returned (some (row, body))) }
  | .missed url =>
    { sharing with
      cache := dropMetadataRow url sharing.cache
      readers := update sharing.readers reader (.returned none) }
  | _ => sharing

/-- One step, without I/O failures. -/
def Sharing.next (lib : Libraries) (sharing : Sharing) : Access → Sharing
  | .lookup reader url =>
    if sharing.readers reader = .idle then sharing.lookup reader url else sharing
  | .finish reader now => sharing.finish reader now
  | .commit now writer =>
    let (error, cache) := commit lib .none now writer sharing.cache
    { sharing with
      cache
      committed := if error = none then writer.url :: sharing.committed
        else sharing.committed }

/-! ## Rows with files -/

/-- The URL has a row and a file. -/
def Held (url : Str) (cache : State) : Prop :=
  (cache.indices.find? url).isSome ∧ (cache.files url).isSome

variable {url : Str} {cache : State} {lib : Libraries}

theorem Held.touchMetadata (held : Held url cache) (now : Int) (other : Str) :
    Held url (touchMetadata now other cache) := by
  refine ⟨?_, held.2⟩
  simp only [Metadata.touchMetadata]
  by_cases same : url = other
  · subst same
    rw [find?_update_self, Option.isSome_map]
    exact held.1
  · rw [find?_update_ne _ same]
    exact held.1

theorem Held.dropMetadataRow {other : Str} (held : Held url cache) (different : url ≠ other) :
    Held url (dropMetadataRow other cache) := by
  refine ⟨?_, by rw [files_dropMetadataRow]; exact held.2⟩
  unfold Metadata.dropMetadataRow
  split
  · exact held.1
  · rw [releaseBytes, find?_delete_ne _ different]
    exact held.1

/-- An installed body has a row and a file, and the others keep theirs. -/
theorem installBody_held (now : Int) (writer : MetadataWriter) (old : Option IndexRow)
    (cache : State) (held : url = writer.url ∨ Held url cache) :
    Held url (installBody .none now writer old cache).2 := by
  simp only [installBody, WriteFaults.none, Bool.and_false, Bool.false_eq_true, if_false,
    accountInstalled, dropPending, Held]
  by_cases same : url = writer.url
  · subst same
    rw [find?_insertOrUpdate_self, update_self]
    cases cache.indices.find? writer.url <;> exact ⟨rfl, rfl⟩
  · rw [find?_insertOrUpdate_ne _ same, update_of_ne same, update_of_ne same]
    exact held.resolve_left same

/-- The commit makes no room by evicting: it ends before that, or the body fits. -/
def NeedsNoEviction (lib : Libraries) (writer : MetadataWriter) (cache : State) : Prop :=
  Refused lib .none writer cache ∨ cache.metadataMaxSize ≤ 0 ∨
    fits (growth .none writer cache) cache = true

instance decidableNeedsNoEviction (lib : Libraries) (writer : MetadataWriter) (cache : State) :
    Decidable (NeedsNoEviction lib writer cache) :=
  inferInstanceAs (Decidable (_ ∨ _ ∨ _))

theorem commit_error_of_refused (now : Int) {writer : MetadataWriter} (fresh : writer.done = false)
    (refused : Refused lib .none writer cache) (enabled : 0 < cache.metadataMaxSize) :
    (commit lib .none now writer cache).1 ≠ none := by
  rw [commit, if_neg (by simp [fresh]), if_neg (by decide)]
  rcases refused with unclosed | mismatch | oversize
  · cases unclosed
  · rw [if_pos mismatch]
    simp
  · split
    · simp
    · rw [if_neg (not_le.mpr enabled)]
      simp

/-- After a commit that evicts nothing, its URL has a row and a file, and the others keep theirs. -/
theorem commit_held (now : Int) {writer : MetadataWriter} (enabled : 0 < cache.metadataMaxSize)
    (noEviction : NeedsNoEviction lib writer cache)
    (held : (url = writer.url ∧ (commit lib .none now writer cache).1 = none) ∨
      Held url cache) :
    Held url (commit lib .none now writer cache).2 := by
  cases fresh : writer.done with
  | true =>
    have unchanged : commit lib .none now writer cache = (some .alreadyFinished, cache) :=
      if_pos fresh
    rw [unchanged] at held ⊢
    exact held.resolve_left (by simp)
  | false =>
    by_cases refused : Refused lib .none writer cache
    · rw [commit_of_refused fresh refused]
      exact held.resolve_left fun done => commit_error_of_refused now fresh refused enabled done.2
    · have roomy := (noEviction.resolve_left refused).resolve_left (not_le.mpr enabled)
      rw [commit_of_accepted fresh refused enabled, ensureMetadataSpace, if_pos roomy] at held ⊢
      exact installBody_held now writer _ cache (held.imp_left And.left)

/-! ## Committed URLs -/

/-- A file that a reader found missing is missing. -/
def Reader.StillMissing (cache : State) : Reader → Prop
  | .missed url => cache.files url = none
  | _ => True

instance (cache : State) (reader : Reader) : Decidable (reader.StillMissing cache) := by
  cases reader <;> unfold Reader.StillMissing <;> infer_instance

/-- A row is dropped only while its file is still missing, and commits happen with caching
on. -/
def Careful (sharing : Sharing) : Access → Prop
  | .lookup .. => True
  | .finish reader _ => (sharing.readers reader).StillMissing sharing.cache
  | .commit .. => 0 < sharing.cache.metadataMaxSize

instance (sharing : Sharing) (access : Access) : Decidable (Careful sharing access) := by
  cases access <;> unfold Careful <;> infer_instance

/-- No commit needs to evict. -/
def EvictsNothing (lib : Libraries) (sharing : Sharing) : Access → Prop
  | .commit _ writer => NeedsNoEviction lib writer sharing.cache
  | _ => True

instance (lib : Libraries) (sharing : Sharing) (access : Access) :
    Decidable (EvictsNothing lib sharing access) := by
  cases access <;> unfold EvictsNothing <;> infer_instance

/-- Every URL for which a commit reported success has a row and a file. -/
def KeepsCommitted (sharing : Sharing) : Prop :=
  ∀ url ∈ sharing.committed, Held url sharing.cache

theorem keepsCommitted_next {sharing : Sharing} {access : Access} (keeps : KeepsCommitted sharing)
    (noEviction : EvictsNothing lib sharing access) (careful : Careful sharing access) :
    KeepsCommitted (sharing.next lib access) := by
  cases access with
  | lookup reader url =>
    simp only [Sharing.next]
    split <;> exact keeps
  | finish reader now =>
    simp only [Sharing.next, Sharing.finish]
    split
    · intro committed mem
      exact (keeps committed mem).touchMetadata now _
    · rename_i url missed
      intro committed mem
      apply (keeps committed mem).dropMetadataRow
      rintro rfl
      have missing : sharing.cache.files committed = none := by
        simpa only [Careful, missed, Reader.StillMissing] using careful
      have stored := (keeps committed mem).2
      rw [missing] at stored
      cases stored
    · exact keeps
  | commit now writer =>
    intro url mem
    simp only [Sharing.next] at mem ⊢
    apply commit_held now careful noEviction
    split at mem
    · rename_i done
      rcases mem_cons.mp mem with rfl | mem
      · exact .inl ⟨rfl, done⟩
      · exact .inr (keeps url mem)
    · exact .inr (keeps url mem)

/-- If every row is dropped while its file is missing, and commits happen with caching on, every
committed URL has a row and a file. -/
theorem keepsCommitted_of_careful (lib : Libraries) (cache : State) (accesses : List Access)
    (noEviction : StepsMeet (Sharing.next lib) (EvictsNothing lib) (.start cache) accesses)
    (careful : StepsMeet (Sharing.next lib) Careful (.start cache) accesses) :
    KeepsCommitted (run (Sharing.next lib) (.start cache) accesses) := by
  apply run_invariant_of_stepsMeet KeepsCommitted ?_ ?_ (noEviction.and careful)
  · intro sharing access keeps allowed
    exact keepsCommitted_next keeps allowed.1 allowed.2
  · intro url mem
    cases mem

/-- A cache with a row for a URL and no file. -/
def missingFile (url : Str) : State :=
  State.opened 10 (empty.set url ⟨[], [], 1, 1, [], 1, 1, 1⟩) fun _ => none

/-- The reader drops the row before the commit: the committed URL has its row and its file. -/
theorem keepsCommitted_of_dropped_before :
    let lib : Libraries := { sha256 := hexEncode64, unicodeLower := id }
    let url := ofAscii "http://deb.example.org/dists/a/Release"
    let writer : MetadataWriter := ⟨url, [], [], [], [], 0, [2, 3], false⟩
    let after := run (Sharing.next lib) (.start (missingFile url))
      [.lookup 0 url, .finish 0 1, .commit 2 writer, .lookup 1 url, .finish 1 3]
    KeepsCommitted after ∧ after.committed = [url] := by
  intro lib url writer after
  have noEviction : StepsMeet (Sharing.next lib) (EvictsNothing lib) (.start (missingFile url))
      [.lookup 0 url, .finish 0 1, .commit 2 writer, .lookup 1 url, .finish 1 3] := by
    decide +kernel
  have careful : StepsMeet (Sharing.next lib) Careful (.start (missingFile url))
      [.lookup 0 url, .finish 0 1, .commit 2 writer, .lookup 1 url, .finish 1 3] := by
    decide +kernel
  exact ⟨keepsCommitted_of_careful lib _ _ noEviction careful, by decide +kernel⟩

/-- The commit comes between the lookup of a reader and its drop: its row is lost. -/
theorem not_keepsCommitted_of_dropped_after :
    let lib : Libraries := { sha256 := hexEncode64, unicodeLower := id }
    let url := ofAscii "http://deb.example.org/dists/a/Release"
    let writer : MetadataWriter := ⟨url, [], [], [], [], 0, [2, 3], false⟩
    let accesses := [.lookup 0 url, .commit 2 writer, .finish 0 3]
    let after := run (Sharing.next lib) (.start (missingFile url)) accesses
    StepsMeet (Sharing.next lib) (EvictsNothing lib) (.start (missingFile url)) accesses ∧
      after.committed = [url] ∧ after.cache.indices.find? url = none ∧
        ¬ KeepsCommitted after := by
  intro lib url writer accesses after
  have committed : after.committed = [url] := by decide +kernel
  have lost : after.cache.indices.find? url = none := by decide +kernel
  refine ⟨by decide +kernel, committed, lost, fun keeps => ?_⟩
  have held := (keeps url (committed ▸ mem_singleton_self url)).1
  rw [lost] at held
  cases held

end Debswarm.Metadata
