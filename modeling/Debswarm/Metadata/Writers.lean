import Debswarm.Metadata.Bodies
import Debswarm.Metadata.ByHash
import Debswarm.Transition.Run

/-!
# Writers at work

Many writers may be under way at once.  Each one streams the body of its URL into a pending
file of its own and, for a by-hash URL, runs a hash over the bytes that the file has taken.  A
commit compares the sum of the running hash with the digest that the URL names before it moves
the file into place.
-/

namespace Debswarm.Metadata

open Function Option Text Transition

variable {hash : StreamingHash}

/-- A writer without its bytes, which are in its pending file, and the running hash over them. -/
structure StreamedWriter (hash : StreamingHash) where
  url : Str
  etag : Str
  lastModified : Str
  contentType : Str
  expectedHash : Str
  tmp : Nat
  hw : Option hash.Running
  done : Bool

/-- The writer with the bytes of its pending file. -/
def StreamedWriter.withBody (streamed : StreamedWriter hash) (written : Str) :
    MetadataWriter where
  url := streamed.url
  etag := streamed.etag
  lastModified := streamed.lastModified
  contentType := streamed.contentType
  expectedHash := streamed.expectedHash
  tmp := streamed.tmp
  written := written
  done := streamed.done

/-- The hashing writer passes over to the hash what the file has taken. -/
def hashWritten (hash : StreamingHash) (taken : Str) (running : hash.Running) : hash.Running :=
  if taken = [] then running else hash.update running taken

/-- The metadata cache with its writers, known by their pending files. -/
structure Session (hash : StreamingHash) where
  cache : State
  writers : Nat → Option (StreamedWriter hash)

def Session.empty (hash : StreamingHash) (budget : Int) : Session hash where
  cache := State.opened budget Table.empty fun _ => none
  writers := fun _ => none

/-- A step of a session, which may fail: a creation, a write cut short, or a commit. -/
inductive Step
  | create (fails : Bool) (tmp : Nat) (url etag lastModified contentType : Str)
  | write (tmp : Nat) (bytes : Str) (taken : Nat)
  | commit (faults : WriteFaults) (now : Int) (tmp : Nat)
  | abort (tmp : Nat)
  | get (now : Int) (url : Str)
  | revalidate (now : Int) (url etag lastModified : Str)
  | configure (budget : Int)

/-- The running hash that a new writer begins with. -/
def startHash (lib : Libraries) (hash : StreamingHash) (url : Str) : Option hash.Running :=
  ((byHashSHA256 lib url).toOption.getD none).map fun _ => hash.start

/-- Create a writer on a pending file of an unused name. -/
def createWriter (lib : Libraries) (tmp : Nat) (url etag lastModified contentType : Str)
    (session : Session hash) : Session hash :=
  match newMetadataWriter lib tmp url etag lastModified contentType session.cache with
  | (.error _, cache) => { session with cache }
  | (.ok writer, cache) =>
    { cache
      writers := update session.writers tmp
        (some
          { url, etag, lastModified, contentType, tmp
            expectedHash := writer.expectedHash
            hw := startHash lib hash url
            done := false }) }

/-- Write to a pending file, which takes the bytes or the first few of them. -/
def writePiece (taken : Str) (tmp : Nat) (streamed : StreamedWriter hash)
    (session : Session hash) : Session hash :=
  if streamed.done then session
  else
    { cache :=
        { session.cache with
          pending := update session.cache.pending tmp
            (some ((session.cache.pending tmp).getD [] ++ taken)) }
      writers := update session.writers tmp
        (some { streamed with hw := streamed.hw.map (hashWritten hash taken) }) }

/-- Commit what is in the pending file, with the sum of the running hash for its digest. -/
def commitWriter (lib : Libraries) (faults : WriteFaults) (now : Int) (tmp : Nat)
    (streamed : StreamedWriter hash) (session : Session hash) : Session hash where
  cache :=
    (commit { lib with sha256 := fun _ => streamed.hw.elim [] hash.sum } faults now
      (streamed.withBody ((session.cache.pending tmp).getD [])) session.cache).2
  writers := update session.writers tmp (some { streamed with done := true })

/-- Discard a pending file. -/
def abortWriter (tmp : Nat) (streamed : StreamedWriter hash) (session : Session hash) :
    Session hash where
  cache := abort (streamed.withBody ((session.cache.pending tmp).getD [])) session.cache
  writers := update session.writers tmp (some { streamed with done := true })

/-- The session after one step. -/
def act (lib : Libraries) (session : Session hash) : Step → Session hash
  | .create fails tmp url etag lastModified contentType =>
    if fails || (session.cache.pending tmp).isSome then session
    else createWriter lib tmp url etag lastModified contentType session
  | .write tmp bytes taken =>
    (session.writers tmp).elim session fun streamed =>
      writePiece (bytes.take taken) tmp streamed session
  | .commit faults now tmp =>
    (session.writers tmp).elim session fun streamed =>
      commitWriter lib faults now tmp streamed session
  | .abort tmp =>
    (session.writers tmp).elim session fun streamed => abortWriter tmp streamed session
  | .get now url => { session with cache := (getMetadata now url session.cache).2 }
  | .revalidate now url etag lastModified =>
    { session with cache := revalidateMetadata now url etag lastModified session.cache }
  | .configure budget => { session with cache := { session.cache with metadataMaxSize := budget } }

/-! ## Other pending files -/

section Pending

theorem commit_pending_ne (lib : Libraries) (faults : WriteFaults) (now : Int)
    (writer : MetadataWriter) (state : State) {other : Nat} (different : other ≠ writer.tmp) :
    (commit lib faults now writer state).2.pending other = state.pending other := by
  have dropped : ∀ before : State,
      (dropPending writer.tmp before).pending other = before.pending other :=
    fun _ => update_of_ne different ..
  refine @commit_invariant _ _ _ _ _ (fun after => after.pending other = state.pending other) rfl
    (fun before kept => (dropped before).trans kept) (fun before url size kept => ?_)
    fun _ old before kept => ?_
  · unfold deleteMetadataUnlocked
    split
    · exact kept
    · split <;> exact kept
  · have own := (dropped before).trans kept
    exact @installBody_invariant _ _ _ _ (fun after => after.pending other = _) _ own own
      (fun _ _ => own) own

@[simp]
theorem getMetadata_pending (now : Int) (url : Str) (state : State) :
    (getMetadata now url state).2.pending = state.pending := by
  unfold getMetadata
  split
  · rfl
  · unfold dropMetadataRow
    split <;> rfl
  · rfl

end Pending

/-! ## By-hash bodies -/

/-- A body has the digest that its URL names, if the URL names one. -/
def HashesToName (lib : Libraries) (url : Str) (_ : Option IndexRow) (body : Str) : Prop :=
  ∀ digest, byHashSHA256 lib url = .ok (some digest) → lib.sha256 body = digest

/-- A writer expects the digest that its URL names, and its hash has taken what its file has. -/
def InStep (lib : Libraries) (streamed : StreamedWriter hash) (written : Str) : Prop :=
  ∃ digest, byHashSHA256 lib streamed.url = .ok digest ∧
    streamed.expectedHash = digest.getD [] ∧
    streamed.hw = digest.map fun _ => hash.after written

/-- Every unfinished writer is in step with its file, and by-hash bodies have their digests. -/
structure Verified (lib : Libraries) (session : Session hash) : Prop where
  inStep : ∀ tmp streamed, session.writers tmp = some streamed → streamed.done = false →
    streamed.tmp = tmp ∧ ∃ written, session.cache.pending tmp = some written ∧
      InStep lib streamed written
  bodies : Attested (HashesToName lib) session.cache

variable {lib : Libraries} {mapping : CaseMapping} {session : Session hash}

theorem Verified.ofCache (verified : Verified lib session) {cache : State}
    (pending : cache.pending = session.cache.pending)
    (bodies : Attested (HashesToName lib) cache) : Verified lib { session with cache } := by
  refine ⟨fun tmp streamed isWriter unfinished => ?_, bodies⟩
  rw [pending]
  exact verified.inStep tmp streamed isWriter unfinished

variable {tmp : Nat} {streamed : StreamedWriter hash}

/-- A step of one writer that leaves the pending files of the others alone. -/
theorem Verified.replaceWriter (verified : Verified lib session) {cache : State}
    (others : ∀ other, other ≠ tmp → cache.pending other = session.cache.pending other)
    (own : streamed.done = false → streamed.tmp = tmp ∧
      ∃ written, cache.pending tmp = some written ∧ InStep lib streamed written)
    (bodies : Attested (HashesToName lib) cache) :
    Verified lib { cache, writers := update session.writers tmp (some streamed) } := by
  refine ⟨fun other found isWriter unfinished => ?_, bodies⟩
  dsimp only at isWriter ⊢
  by_cases same : other = tmp
  · rw [same] at isWriter ⊢
    rw [update_self] at isWriter
    obtain rfl := some.inj isWriter
    exact own unfinished
  · rw [update_of_ne same] at isWriter
    rw [others other same]
    exact verified.inStep other found isWriter unfinished

theorem verified_createWriter (verified : Verified lib session)
    (unused : session.cache.pending tmp = none) (url etag lastModified contentType : Str) :
    Verified lib (createWriter lib tmp url etag lastModified contentType session) := by
  have others : ∀ other, other ≠ tmp →
      update session.cache.pending tmp (some []) other = session.cache.pending other :=
    fun other different => update_of_ne different ..
  unfold createWriter newMetadataWriter
  cases isDigest : byHashSHA256 lib url with
  | error fault =>
    -- The pending file stays behind.  No writer is at its name that is not finished.
    refine ⟨fun other streamed isWriter unfinished => ?_, verified.bodies⟩
    have before := verified.inStep other streamed isWriter unfinished
    have different : other ≠ tmp := by
      rintro rfl
      obtain ⟨-, written, isPending, -⟩ := before
      rw [unused] at isPending
      cases isPending
    obtain ⟨name, written, isPending, inStep⟩ := before
    exact ⟨name, written, (others other different).trans isPending, inStep⟩
  | ok digest =>
    refine verified.replaceWriter others (fun _ => ⟨rfl, [], update_self .., ?_⟩)
      verified.bodies
    refine ⟨digest, isDigest, rfl, ?_⟩
    simp [startHash, isDigest, Except.toOption]

theorem verified_writePiece (verified : Verified lib session)
    (isWriter : session.writers tmp = some streamed) (taken : Str) :
    Verified lib (writePiece taken tmp streamed session) := by
  unfold writePiece
  cases finished : streamed.done with
  | true => exact verified
  | false =>
    rw [if_neg Bool.false_ne_true]
    obtain ⟨name, written, isPending, digest, isDigest, expected, running⟩ :=
      verified.inStep tmp streamed isWriter finished
    refine verified.replaceWriter (fun other different => Function.update_of_ne different ..)
      (fun _ => ⟨name, written ++ taken, ?_, digest, isDigest, expected, ?_⟩) verified.bodies
    · dsimp only
      rw [Function.update_self, isPending, Option.getD_some]
    · dsimp only
      rw [running, Option.map_map]
      congr 1
      funext named
      change hashWritten hash taken (hash.after written) = hash.after (written ++ taken)
      unfold hashWritten
      split
      · rename_i nothing
        rw [nothing, List.append_nil]
      · exact hash.update_after written taken

section

variable (verified : Verified (mapping.libraries hash.digest) session) (faults : WriteFaults)
  (now : Int) (isWriter : session.writers tmp = some streamed)

include verified isWriter

/-- A commit of a writer that is in step installs only what has the digest of the URL. -/
theorem attested_commitWriter (unfinished : streamed.done = false) :
    Attested (HashesToName (mapping.libraries hash.digest))
      (commitWriter (mapping.libraries hash.digest) faults now tmp streamed session).cache := by
  obtain ⟨-, written, isPending, digest, isDigest, expected, running⟩ :=
    verified.inStep tmp streamed isWriter unfinished
  suffices hashes : _ → ∀ row, HashesToName (mapping.libraries hash.digest) streamed.url row _ from
    verified.bodies.commit_of_verified (fun _ _ _ suited => suited) _ faults now
      (fun _ _ => hashes) fun compared _ => hashes compared _
  intro compared row named isNamed
  rw [isPending] at compared ⊢
  obtain rfl : digest = some named := Except.ok.inj (isDigest.symm.trans isNamed)
  have nonempty : streamed.expectedHash ≠ [] := by
    intro empty
    have long := length_of_byHashSHA256 isNamed
    rw [expected, getD_some] at empty
    rw [empty] at long
    cases long
  have sum := compared nonempty
  change streamed.hw.elim [] hash.sum = streamed.expectedHash at sum
  rw [running, expected] at sum
  exact sum

theorem verified_commitWriter :
    Verified (mapping.libraries hash.digest)
      (commitWriter (mapping.libraries hash.digest) faults now tmp streamed session) := by
  cases finished : streamed.done with
  | true =>
    have refused : (commit { mapping.libraries hash.digest with
          sha256 := fun _ => streamed.hw.elim [] hash.sum } faults now
        (streamed.withBody ((session.cache.pending tmp).getD [])) session.cache).2 =
        session.cache := by
      simp [commit, StreamedWriter.withBody, finished]
    unfold commitWriter
    rw [refused]
    exact verified.replaceWriter (fun _ _ => rfl) Bool.noConfusion verified.bodies
  | false =>
    have name : streamed.tmp = tmp := (verified.inStep tmp streamed isWriter finished).1
    refine verified.replaceWriter (fun other different => ?_) Bool.noConfusion
      (attested_commitWriter verified faults now isWriter finished)
    refine commit_pending_ne _ faults now _ session.cache ?_
    exact name.symm ▸ different

end

theorem verified_abortWriter (verified : Verified lib session)
    (isWriter : session.writers tmp = some streamed) :
    Verified lib (abortWriter tmp streamed session) := by
  unfold abortWriter abort
  cases finished : streamed.done with
  | true =>
    have isDone : (streamed.withBody ((session.cache.pending tmp).getD [])).done = true :=
      finished
    rw [if_pos isDone]
    exact verified.replaceWriter (fun _ _ => rfl) Bool.noConfusion verified.bodies
  | false =>
    have notDone : ¬ (streamed.withBody ((session.cache.pending tmp).getD [])).done = true :=
      fun isDone => Bool.false_ne_true (finished.symm.trans isDone)
    have name : streamed.tmp = tmp := (verified.inStep tmp streamed isWriter finished).1
    rw [if_neg notDone]
    refine verified.replaceWriter (fun other different => ?_) Bool.noConfusion verified.bodies
    exact Function.update_of_ne (name.symm ▸ different) ..

/-! ## Runs -/

theorem verified_act (verified : Verified (mapping.libraries hash.digest) session) (step : Step) :
    Verified (mapping.libraries hash.digest)
      (act (mapping.libraries hash.digest) session step) := by
  cases step with
  | create fails tmp url etag lastModified contentType =>
    simp only [act]
    split
    · exact verified
    · rename_i creates
      rw [Bool.or_eq_true, not_or, Bool.not_eq_true, Bool.not_eq_true,
        Option.isSome_eq_false_iff, Option.isNone_iff_eq_none] at creates
      exact verified_createWriter verified creates.2 url etag lastModified contentType
  | write tmp bytes taken =>
    simp only [act]
    cases isWriter : session.writers tmp with
    | none => exact verified
    | some streamed => exact verified_writePiece verified isWriter (bytes.take taken)
  | commit faults now tmp =>
    simp only [act]
    cases isWriter : session.writers tmp with
    | none => exact verified
    | some streamed => exact verified_commitWriter verified faults now isWriter
  | abort tmp =>
    simp only [act]
    cases isWriter : session.writers tmp with
    | none => exact verified
    | some streamed => exact verified_abortWriter verified isWriter
  | get now url =>
    have files := files_getMetadata now url session.cache
    exact verified.ofCache (getMetadata_pending now url session.cache) fun other body file =>
      verified.bodies other body (files ▸ file)
  | revalidate now url etag lastModified =>
    have files := files_revalidateMetadata now url etag lastModified session.cache
    refine verified.ofCache ?_ fun other body file => verified.bodies other body (files ▸ file)
    simp only [revalidateMetadata]
    split <;> rfl
  | configure budget => exact verified.ofCache rfl verified.bodies

/-- From an empty metadata cache on, whatever is written, committed or aborted and whatever fails, a
body returned for a by-hash URL hashes to its digest. -/
theorem digest_of_getMetadata (mapping : CaseMapping) (hash : StreamingHash) (budget : Int)
    (steps : List Step) {now : Int} {url digest body : Str} {row : IndexRow}
    (named : byHashSHA256 (mapping.libraries hash.digest) url = .ok (some digest))
    (returned : (getMetadata now url (run (act (mapping.libraries hash.digest))
      (Session.empty hash budget) steps).cache).1 = some (row, body)) :
    hash.digest body = digest := by
  have verified : Verified (mapping.libraries hash.digest)
      (run (act (mapping.libraries hash.digest)) (Session.empty hash budget) steps) := by
    refine run_invariant (Verified (mapping.libraries hash.digest))
      (fun _ step before => verified_act before step) ⟨?_, ?_⟩ steps
    · exact fun _ streamed isWriter => absurd isWriter.symm (some_ne_none streamed)
    · exact fun _ body isFile => absurd isFile.symm (some_ne_none body)
  obtain ⟨-, -, isFile⟩ := getMetadata_eq_some_iff.mp returned
  exact verified.bodies url body isFile digest named

/-- A hash that keeps its text and spells it out. -/
def spellingHash : StreamingHash where
  Running := Str
  start := []
  update := (· ++ ·)
  sum := hexEncode64
  update_nil := List.append_nil
  update_append := List.append_assoc

/-- A body of two bytes is written in two pieces, of which the second one is cut short. -/
theorem digest_of_two_pieces :
    let lib := strokeMapping.libraries spellingHash.digest
    let url := ofAscii "http://m/by-hash/SHA256/" ++ hexEncode64 [7, 8]
    let steps : List Step :=
      [.create false 1 url [] [] [], .write 1 [7] 1, .write 1 [8, 9] 1, .commit {} 5 1]
    let reached := run (act lib) (Session.empty spellingHash 100) steps
    ∃ row, (getMetadata 6 url reached.cache).1 = some (row, [7, 8]) ∧
      spellingHash.digest [7, 8] = hexEncode64 [7, 8] := by
  intro lib url steps reached
  have named : byHashSHA256 lib url = .ok (some (hexEncode64 [7, 8])) := by decide +kernel
  have isBody : (getMetadata 6 url reached.cache).1.map Prod.snd = some [7, 8] := by
    decide +kernel
  obtain ⟨⟨row, body⟩, returned, rfl⟩ := map_eq_some_iff.mp isBody
  exact ⟨row, returned, digest_of_getMetadata strokeMapping spellingHash 100 steps named returned⟩

end Debswarm.Metadata
