import Debswarm.Cache.Agreement

/-!
# Puts under way

A put copies its data to a pending file without holding the cache lock and takes the lock
only to commit, so any number of puts can be under way while packages are stored, read,
deleted, pinned and evicted.  This module runs the cache that way, one step for each part
of a put, and shows that rows, names and bytes agree after every step when nothing fails.
-/

namespace Debswarm.Cache

open Text Transition

/-! ## Puts in parts -/

/-- A put that is under way: what it was asked for, and the bytes copied so far. -/
structure Writing where
  expectedHash : Str
  filename : Str
  written : Str
  deriving DecidableEq, Repr

/-- The cache and the puts under way, by pending file. -/
structure Session where
  cache : State
  writing : Str → Option Writing

/-- A put is begun, copied in pieces, and finished or abandoned; `place` is the appearance of a file
outside the cache. -/
inductive Action
  | begin (pendingPath expectedHash filename : Str)
  | copy (pendingPath bytes : Str)
  | abandon (pendingPath : Str)
  | finish (freeSpace : Option Int) (pendingPath : Str)
  | place (path content : Str)
  | putFile (freeSpace : Option Int) (filePath hash filename : Str) (size : Nat)
  | get (hash : Str)
  | close (hash : Str)
  | delete (hash : Str)
  | pin (hash : Str)
  | unpin (hash : Str)
  | flush
  | flusherSwap
  | flusherCommit
  | advance (seconds : Nat)

/-- Verify what a put has copied and commit it.  The pending file goes if either fails. -/
def finishPut (lib : Libraries) (faults : Faults) (pendingPath : Str) (put : Writing)
    (state : State) : Outcome × State :=
  if lib.sha256 put.written ≠ put.expectedHash then
    (.error (.hashMismatch put.expectedHash (lib.sha256 put.written)),
      removeOutside pendingPath state)
  else
    match commitVerifiedFile lib faults pendingPath put.expectedHash put.filename
        put.written.length state with
    | (.error reason, failed) => (.error reason, removeOutside pendingPath failed)
    | result => result

/-- The session after an action none of whose steps fail. A pending file has its own name. -/
def act (lib : Libraries) (session : Session) : Action → Session
  | .begin pendingPath expectedHash filename =>
    if (session.cache.outside pendingPath).isSome ∨ (session.writing pendingPath).isSome then
      session
    else
      ⟨writeOutside pendingPath [] session.cache,
        Function.update session.writing pendingPath (some ⟨expectedHash, filename, []⟩)⟩
  | .copy pendingPath bytes =>
    match session.writing pendingPath with
    | none => session
    | some put =>
      ⟨writeOutside pendingPath (put.written ++ bytes) session.cache,
        Function.update session.writing pendingPath
          (some { put with written := put.written ++ bytes })⟩
  | .abandon pendingPath =>
    match session.writing pendingPath with
    | none => session
    | some _ =>
      ⟨removeOutside pendingPath session.cache,
        Function.update session.writing pendingPath none⟩
  | .finish freeSpace pendingPath =>
    match session.writing pendingPath with
    | none => session
    | some put =>
      ⟨(finishPut lib { freeSpace } pendingPath put session.cache).2,
        Function.update session.writing pendingPath none⟩
  | .place path content => { session with cache := writeOutside path content session.cache }
  | .putFile freeSpace filePath hash filename size =>
    { session with
      cache := (putFile lib { freeSpace } filePath hash filename size session.cache).2 }
  | .get hash => { session with cache := (Cache.get hash session.cache).2 }
  | .close hash => { session with cache := closeReader hash session.cache }
  | .delete hash => { session with cache := (Cache.delete {} hash session.cache).2 }
  | .pin hash => { session with cache := (Cache.pin {} hash session.cache).2 }
  | .unpin hash => { session with cache := (Cache.unpin {} hash session.cache).2 }
  | .flush => { session with cache := flushAccess {} session.cache }
  | .flusherSwap => { session with cache := Cache.flusherSwap session.cache }
  | .flusherCommit => { session with cache := Cache.flusherCommit {} session.cache }
  | .advance seconds =>
    { session with cache := { session.cache with clock := session.cache.clock + seconds } }

/-- An empty cache with nothing under way. -/
def Session.empty (clock : Int) (maxSize : Int64) (minFreeSpace : Int) : Session :=
  ⟨State.opened clock maxSize minFreeSpace Table.empty (fun _ => none) fun _ => none,
    fun _ => none⟩

/-! ## Sessions in order -/

/-- Rows and files agree, and each put under way has its bytes in its pending file. -/
structure InOrder (lib : Libraries) (contents : Set Str) (session : Session) : Prop where
  matched : Matched lib contents session.cache
  pending : ∀ path put, session.writing path = some put →
    session.cache.outside path = some put.written

/-- Stored contents are among the given ones, pending files are left to their puts, and a file
handed over was verified and has its true size. -/
def Verifies (lib : Libraries) (contents : Set Str) (session : Session) : Action → Prop
  | .finish _ pendingPath =>
    ∀ put, session.writing pendingPath = some put → put.written ∈ contents
  | .place path _ => session.writing path = none
  | .putFile _ filePath hash _ size =>
    session.writing filePath = none ∧
      ∃ content ∈ contents, session.cache.outside filePath = some content ∧
        lib.sha256 content = hash ∧ size = content.length
  | _ => True

variable {lib : Libraries} {contents : Set Str} {state : State} {session : Session}

theorem InOrder.onCache (inOrder : InOrder lib contents session) {cache : State}
    (matched : Matched lib contents cache) (outside : cache.outside = session.cache.outside) :
    InOrder lib contents { session with cache } := by
  refine ⟨matched, fun path put found => ?_⟩
  rw [outside]
  exact inOrder.pending path put found

theorem matched_writeOutside (matched : Matched lib contents state) (path content : Str) :
    Matched lib contents (writeOutside path content state) :=
  matched.of_eq (fun _ => rfl) rfl

theorem matched_removeOutside (matched : Matched lib contents state) (path : Str) :
    Matched lib contents (removeOutside path state) :=
  matched.of_eq (fun _ => rfl) rfl

theorem InOrder.write (inOrder : InOrder lib contents session) (path : Str) (put : Writing) :
    InOrder lib contents
      ⟨writeOutside path put.written session.cache,
        Function.update session.writing path (some put)⟩ := by
  refine ⟨matched_writeOutside inOrder.matched path put.written, fun other found atOther => ?_⟩
  simp only [writeOutside] at atOther ⊢
  by_cases same : other = path
  · rw [same, Function.update_self, Option.some.injEq] at atOther
    rw [same, Function.update_self, atOther]
  · rw [Function.update_of_ne same] at atOther ⊢
    exact inOrder.pending other found atOther

theorem InOrder.endPut (inOrder : InOrder lib contents session) (path : Str) {cache : State}
    (matched : Matched lib contents cache)
    (others : ∀ other, other ≠ path → cache.outside other = session.cache.outside other) :
    InOrder lib contents ⟨cache, Function.update session.writing path none⟩ := by
  refine ⟨matched, fun other put atOther => ?_⟩
  dsimp only at atOther ⊢
  by_cases same : other = path
  · rw [same, Function.update_self] at atOther
    cases atOther
  · rw [Function.update_of_ne same] at atOther
    rw [others other same]
    exact inOrder.pending other put atOther

@[simp]
theorem removeOutside_outside_ne {path other : Str} (distinct : other ≠ path) (state : State) :
    (removeOutside path state).outside other = state.outside other :=
  Function.update_of_ne distinct ..

/-- Finishing a put keeps rows and files in agreement, and touches no other pending file. -/
theorem finishPut_inOrder (inOrder : InOrder lib contents session)
    (collisionFree : Set.InjOn lib.sha256 contents) (freeSpace : Option Int) {path : Str}
    {put : Writing} (writing : session.writing path = some put) (known : put.written ∈ contents) :
    InOrder lib contents
      ⟨(finishPut lib { freeSpace } path put session.cache).2,
        Function.update session.writing path none⟩ := by
  have removed := fun other (distinct : other ≠ path) =>
    removeOutside_outside_ne distinct session.cache
  unfold finishPut
  split
  · exact inOrder.endPut path (matched_removeOutside inOrder.matched path) removed
  · rename_i verified
    have committed := matched_commitVerifiedFile inOrder.matched collisionFree
      { freeSpace } (fun _ => rfl) rfl put.filename (inOrder.pending path put writing)
      (not_not.mp verified) known
    have untouched := fun other (distinct : other ≠ path) =>
      commitVerifiedFile_outside_ne lib { freeSpace } put.expectedHash put.filename
        put.written.length session.cache distinct
    split
    · rename_i reason failed commitEq
      rw [commitEq] at committed untouched
      refine inOrder.endPut path (matched_removeOutside committed path) fun other distinct => ?_
      rw [removeOutside_outside_ne distinct]
      exact untouched other distinct
    · exact inOrder.endPut path committed untouched

@[simp]
theorem setPinned_outside (pinned : Bool) (faults : Faults) (hash : Str) (state : State) :
    (setPinned pinned faults hash state).2.outside = state.outside := by
  rcases setPinned_cases pinned faults hash state with unchanged | updated
  · rw [unchanged]
  · rw [updated]

theorem ne_of_writing {path other : Str} {put : Writing} (idle : session.writing path = none)
    (writing : session.writing other = some put) : other ≠ path := by
  rintro rfl
  rw [idle] at writing
  cases writing

theorem inOrder_act (collisionFree : Set.InjOn lib.sha256 contents)
    (inOrder : InOrder lib contents session) (action : Action)
    (verifies : Verifies lib contents session action) :
    InOrder lib contents (act lib session action) := by
  cases action with
  | begin pendingPath expectedHash filename =>
    simp only [act]
    split
    · exact inOrder
    · exact inOrder.write pendingPath ⟨expectedHash, filename, []⟩
  | copy pendingPath bytes =>
    simp only [act]
    split
    · exact inOrder
    · rename_i put writing
      exact inOrder.write pendingPath { put with written := put.written ++ bytes }
  | abandon pendingPath =>
    simp only [act]
    split
    · exact inOrder
    · exact inOrder.endPut pendingPath (matched_removeOutside inOrder.matched pendingPath)
        fun other distinct => removeOutside_outside_ne distinct session.cache
  | finish freeSpace pendingPath =>
    simp only [act]
    split
    · exact inOrder
    · rename_i put writing
      exact finishPut_inOrder inOrder collisionFree freeSpace writing (verifies put writing)
  | place path content =>
    refine ⟨matched_writeOutside inOrder.matched path content, fun other put found => ?_⟩
    have distinct : other ≠ path := ne_of_writing verifies found
    exact (Function.update_of_ne distinct ..).trans (inOrder.pending other put found)
  | putFile freeSpace filePath hash filename size =>
    obtain ⟨notPending, content, known, source, verified, rfl⟩ := verifies
    refine ⟨matched_commitVerifiedFile inOrder.matched collisionFree { freeSpace }
      (fun _ => rfl) rfl filename source verified known, fun other put found => ?_⟩
    have distinct : other ≠ filePath := ne_of_writing notPending found
    exact (commitVerifiedFile_outside_ne lib { freeSpace } hash filename content.length
      session.cache distinct).trans (inOrder.pending other put found)
  | get hash =>
    obtain ⟨activeReaders, pendingAccess, read⟩ := get_eq hash session.cache
    rw [act, read]
    exact inOrder.onCache (inOrder.matched.of_eq (fun _ => rfl) rfl) rfl
  | close hash => exact inOrder.onCache (inOrder.matched.of_eq (fun _ => rfl) rfl) rfl
  | delete hash =>
    exact inOrder.onCache (matched_deleteUnlocked inOrder.matched rfl none)
      (shrinks_deleteUnlocked {} hash none session.cache).outside
  | pin hash =>
    exact inOrder.onCache (matched_setPinned inOrder.matched true {} hash)
      (setPinned_outside true {} hash _)
  | unpin hash =>
    exact inOrder.onCache (matched_setPinned inOrder.matched false {} hash)
      (setPinned_outside false {} hash _)
  | flush => exact inOrder.onCache (matched_flushAccess inOrder.matched {}) rfl
  | flusherSwap =>
    obtain ⟨pendingAccess, flushing, swapped⟩ := flusherSwap_eq session.cache
    rw [act, swapped]
    exact inOrder.onCache (inOrder.matched.of_eq (fun _ => rfl) rfl) rfl
  | flusherCommit =>
    rw [act, flusherCommit_eq]
    exact inOrder.onCache (inOrder.matched.of_eq (recordedSize_applyBatch {} _ _) rfl) rfl
  | advance seconds => exact inOrder.onCache (inOrder.matched.of_eq (fun _ => rfl) rfl) rfl

/-- When nothing fails, rows, names and bytes agree after every interleaving. -/
theorem agrees_throughout (lib : Libraries) (contents : Set Str)
    (collisionFree : Set.InjOn lib.sha256 contents) (clock : Int) (maxSize : Int64)
    (minFreeSpace : Int) (actions : List Action)
    (verifies : StepsMeet (act lib) (Verifies lib contents)
      (Session.empty clock maxSize minFreeSpace) actions) :
    Agrees lib (run (act lib) (Session.empty clock maxSize minFreeSpace) actions).cache := by
  have start : InOrder lib contents (Session.empty clock maxSize minFreeSpace) :=
    ⟨⟨fun _ => rfl, nofun, nofun⟩, nofun⟩
  exact (run_invariant_of_stepsMeet (InOrder lib contents)
    (fun _ action inOrder verifies => inOrder_act collisionFree inOrder action verifies)
    start verifies).matched.agrees

/-- Two puts of one package, the second finished after the first was stored and deleted. -/
theorem agrees_of_racing_puts :
    let lib : Libraries := { sha256 := hexEncode64, unicodeLower := id }
    let hash := hexEncode64 [1, 2]
    Agrees lib (run (act lib) (Session.empty 0 10 0)
      [.begin (ofAscii "a") hash (ofAscii "a_1_all.deb"),
        .begin (ofAscii "b") hash (ofAscii "a_1_all.deb"), .copy (ofAscii "a") [1],
        .copy (ofAscii "b") [1, 2], .copy (ofAscii "a") [2], .finish none (ofAscii "a"),
        .get hash, .close hash, .delete hash, .finish none (ofAscii "b")]).cache := by
  intro lib hash
  apply agrees_throughout lib {[1, 2]} (Set.injOn_singleton ..) 0 10 0
  refine ⟨trivial, trivial, trivial, trivial, trivial, fun put found => ?_, trivial, trivial,
    trivial, fun put found => ?_, trivial⟩
  · rw [← Option.some.inj found]
    rfl
  · rw [← Option.some.inj found]
    rfl

end Debswarm.Cache
