import Debswarm.Metadata.Bodies
import Debswarm.Proxy.Core
import Debswarm.Transition.Run

/-!
# Requests for one URL side by side

Requests for the same metadata URL share its cached copy.  Each of them reads the validators of
the copy, asks the mirror with them, and writes the answer into the cache: validators if the
mirror confirms the copy, or else a body with its validators.  Meanwhile the mirror changes, and
a confirmation of the old body may be written over the validators of the new one.

One event lets one request pass one point at which it reads or writes what is shared.  The
versions that the mirror has had are a record, not program state.
-/

namespace Debswarm.Proxy.Revalidation

open Function List Metadata Option Text Transition

/-! ## The mirror -/

/-- A body that the mirror has, and the validators that it sends for it. -/
structure Version where
  body : Str
  etag : Str
  lastModified : Str
  deriving DecidableEq, Repr

/-- The URL, whether stale copies are served, and which validators mean a version. -/
structure Setup where
  lib : Libraries
  url : Str
  metadataServeStale : Bool
  confirms : Str → Str → Version → Bool

/-! ## Requests -/

/-- What the client sent. -/
structure Client where
  isIndex : Bool
  ifNoneMatch : Str
  ifModifiedSince : Str
  deriving DecidableEq, Repr

/-- The URL is immutable, the node is offline, or the mirror is away or confirmed the copy. -/
inductive Purpose
  | immutable
  | offline
  | stale
  | confirmed
  deriving DecidableEq, Repr

/-- The next thing that a request does: take the shortcuts, look the copy up, record the access or
drop the row, read the validators, ask the mirror, write the confirmed validators, ask again, store
a body. -/
inductive Phase
  | started (client : Client)
  | checkingMode (client : Client)
  | lookingUp (purpose : Purpose) (client : Client)
  | touching
  | dropping (purpose : Purpose) (client : Client)
  | choosing (client : Client)
  | asking (haveCache : Bool) (ifNoneMatch ifModifiedSince : Str) (client : Client)
  | revalidating (version : Version) (client : Client)
  | refetching (client : Client)
  | storing (version : Version) (client : Client)
  | finished
  deriving DecidableEq, Repr

/-- The cache, what the mirror has, what it has had, and the requests. -/
structure State where
  cache : Metadata.State
  current : Version
  versions : List Version
  requests : Nat → Option Phase

/-- A mirror with a version, and no request yet. -/
def State.start (cache : Metadata.State) (current : Version) (earlier : List Version) : State where
  cache := cache
  current := current
  versions := current :: earlier
  requests := fun _ => none

/-- What a request meets outside: the clock, whether the node is offline, the mirror is away, the
package index has the file or a body is not stored, and the faults of the write.  A file whose row
cannot be written is removed. -/
structure Outside where
  now : Int
  offline : Bool
  unreachable : Bool
  indexed : Bool
  discarded : Bool
  faults : WriteFaults
  tmp : Nat

/-- Stale copies may be served. -/
def staleOK (setup : Setup) (cache : Metadata.State) : Bool :=
  metadataEnabled cache && setup.metadataServeStale

/-- A request goes on to a phase. -/
def State.goTo (id : Nat) (phase : Phase) (state : State) : State :=
  { state with requests := update state.requests id (some phase) }

/-- Where a request goes that has found no copy. -/
def afterMiss (client : Client) : Purpose → Phase
  | .immutable => .checkingMode client
  | .offline => .choosing client
  | .stale => .finished
  | .confirmed => .refetching client

/-- The type that a fresh body is stored under. -/
def Client.contentType (client : Client) : Str :=
  if client.isIndex then ofAscii "application/octet-stream" else []

/-- What a request does to the cache when it passes its next point. -/
def Phase.write (setup : Setup) (outside : Outside) (phase : Phase) (cache : Metadata.State) :
    Metadata.State :=
  match phase with
  | .touching => touchMetadata outside.now setup.url cache
  | .dropping _ _ => dropMetadataRow setup.url cache
  | .revalidating version _ =>
    revalidateMetadata outside.now setup.url version.etag version.lastModified cache
  | .storing version client =>
    if metadataEnabled cache && !outside.discarded then
      (storeMetadata setup.lib outside.faults.withdrawable outside.now outside.tmp setup.url
        version.body version.etag version.lastModified client.contentType cache).2
    else cache
  | _ => cache

/-- Where a request goes at its next point. The version that it carries is the answer. -/
def Phase.follow (setup : Setup) (outside : Outside) (cache : Metadata.State)
    (current : Version) : Phase → Phase
  | .started client =>
    if metadataEnabled cache then
      match isImmutableMetadataURL setup.lib setup.url with
      | .error _ => .finished
      | .ok true => .lookingUp .immutable client
      | .ok false => .checkingMode client
    else .checkingMode client
  | .checkingMode client =>
    if staleOK setup cache && outside.offline then .lookingUp .offline client
    else .choosing client
  | .lookingUp purpose client =>
    match lookupMetadata setup.url cache with
    | none => afterMiss client purpose
    | some (_, none) => .dropping purpose client
    | some (_, some _) => .touching
  | .dropping purpose client => afterMiss client purpose
  | .choosing client =>
    match metadataValidators setup.url cache with
    | some (etag, lastModified) => .asking true etag lastModified client
    | none =>
      if !client.isIndex || outside.indexed then
        .asking false client.ifNoneMatch client.ifModifiedSince client
      else .asking false [] [] client
  | .asking haveCache ifNoneMatch ifModifiedSince client =>
    if outside.unreachable then
      if staleOK setup cache then .lookingUp .stale client else .finished
    else if setup.confirms ifNoneMatch ifModifiedSince current then
      if haveCache then .revalidating current client else .finished
    else .storing current client
  | .revalidating _ client => .lookingUp .confirmed client
  | .refetching client =>
    if outside.unreachable || setup.confirms [] [] current then .finished
    else .storing current client
  | .touching => .finished
  | .storing _ _ => .finished
  | .finished => .finished

/-- A request passes its next point. -/
def advance (setup : Setup) (outside : Outside) (id : Nat) (phase : Phase) (state : State) :
    State :=
  { state with cache := phase.write setup outside state.cache }.goTo id
    (phase.follow setup outside state.cache state.current)

/-- What happens: a request begins, a request goes on, or the mirror changes. -/
inductive Event
  | request (id : Nat) (client : Client)
  | advance (id : Nat) (outside : Outside)
  | change (version : Version)

/-- One event. -/
def next (setup : Setup) (state : State) : Event → State
  | .request id client =>
    match state.requests id with
    | none => state.goTo id (.started client)
    | some _ => state
  | .advance id outside =>
    match state.requests id with
    | none => state
    | some phase => advance setup outside id phase state
  | .change version =>
    { state with current := version, versions := version :: state.versions }

/-! ## Validators of the stored body -/

/-- The mirror has sent these validators for the body. -/
def Sent (versions : List Version) (body etag lastModified : Str) : Prop :=
  (∃ version ∈ versions, version.body = body ∧ version.etag = etag) ∧
    ∃ version ∈ versions, version.body = body ∧ version.lastModified = lastModified

/-- The validators stored for the URL are those that the mirror sent for the stored body. -/
def Truthful (setup : Setup) (state : State) : Prop :=
  ∀ row body, state.cache.indices.find? setup.url = some row →
    state.cache.files setup.url = some body →
      Sent state.versions body row.etag row.lastModified

/-- The version whose validators a request is about to write. -/
def Phase.revalidates? : Phase → Option Version
  | .revalidating version _ => some version
  | _ => none

/-- The body of the URL, if it has a row. -/
def storedBody (setup : Setup) (state : State) : Option Str :=
  (state.cache.indices.find? setup.url).bind fun _ => state.cache.files setup.url

/-- Validators are written only where the stored body is the one that the mirror confirmed. -/
def Confirmed (setup : Setup) (state : State) : Event → Prop
  | .advance id _ => ∀ version ∈ (state.requests id).bind Phase.revalidates?,
      ∀ body ∈ storedBody setup state, body = version.body
  | _ => True

instance (setup : Setup) (state : State) (event : Event) :
    Decidable (Confirmed setup state event) := by
  cases event <;> unfold Confirmed <;> infer_instance

/-! ## Invariant -/

/-- The version that a request carries to the cache. -/
def Phase.version? : Phase → Option Version
  | .revalidating version _ => some version
  | .storing version _ => some version
  | _ => none

/-- The mirror has had every version on its way, and stored validators are of the stored body. -/
structure Informed (setup : Setup) (state : State) : Prop where
  current : state.current ∈ state.versions
  carried : ∀ id phase version, state.requests id = some phase →
    phase.version? = some version → version ∈ state.versions
  truthful : Truthful setup state

/-- The row of the URL has validators that the mirror sent for the body. -/
def Vouches (setup : Setup) (versions : List Version) (url : Str) (row : Option IndexRow)
    (body : Str) : Prop :=
  url = setup.url → ∀ found, row = some found → Sent versions body found.etag found.lastModified

variable {setup : Setup} {state : State}

theorem truthful_iff_attested :
    Truthful setup state ↔ Attested (Vouches setup state.versions) state.cache := by
  constructor
  · rintro truthful url body file rfl row found
    exact truthful row body found file
  · intro attested row body found file
    exact attested setup.url body file rfl row found

theorem rowless_vouches (versions : List Version) : Rowless (Vouches setup versions) := by
  intro url row body _ _ found isFound
  cases isFound

variable {versions : List Version} {version : Version}

theorem Sent.mono {more : List Version} {body etag lastModified : Str}
    (sent : Sent versions body etag lastModified) (known : ∀ version ∈ versions, version ∈ more) :
    Sent more body etag lastModified := by
  obtain ⟨⟨first, isKnown, sameBody, sameETag⟩, second, isKnownToo, sameBodyToo, sameDate⟩ := sent
  exact ⟨⟨first, known first isKnown, sameBody, sameETag⟩,
    second, known second isKnownToo, sameBodyToo, sameDate⟩

theorem sent_of_mem (known : version ∈ versions) :
    Sent versions version.body version.etag version.lastModified :=
  ⟨⟨version, known, rfl, rfl⟩, version, known, rfl, rfl⟩

/-! ## Writes -/

/-- Write validators for the stored body. A validator that was not sent stays. -/
theorem attested_revalidateMetadata {cache : Metadata.State}
    (attested : Attested (Vouches setup versions) cache) (known : version ∈ versions)
    (confirmed : ∀ body, (cache.indices.find? setup.url).isSome = true →
      cache.files setup.url = some body → body = version.body) (now : Int) :
    Attested (Vouches setup versions)
      (revalidateMetadata now setup.url version.etag version.lastModified cache) := by
  unfold revalidateMetadata
  split
  · exact attested
  · apply attested.updateRow
    rintro row body found file vouches _ _ ⟨rfl⟩
    obtain rfl := confirmed body (by rw [found]; rfl) file
    obtain ⟨sentETag, sentDate⟩ := vouches rfl row rfl
    obtain ⟨newETag, newDate⟩ := sent_of_mem known
    refine ⟨?_, ?_⟩
    · dsimp only
      split
      · exact newETag
      · exact sentETag
    · dsimp only
      split
      · exact newDate
      · exact sentDate

/-- A request leaves truthful validators, if those that it writes are confirmed. -/
theorem attested_write (informed : Informed setup state) {id : Nat} {phase : Phase}
    (isPhase : state.requests id = some phase) {outside : Outside}
    (confirmed : Confirmed setup state (.advance id outside)) :
    Attested (Vouches setup state.versions) (phase.write setup outside state.cache) := by
  have attested := truthful_iff_attested.mp informed.truthful
  cases phase with
  | touching =>
    apply attested.updateRow
    rintro row body _ _ vouches own _ ⟨rfl⟩
    exact vouches own row rfl
  | dropping purpose client => exact attested.dropMetadataRow (rowless_vouches _) setup.url
  | revalidating version client =>
    have known := informed.carried id _ version isPhase rfl
    refine attested_revalidateMetadata attested known (fun body isRow file => ?_) outside.now
    obtain ⟨row, found⟩ := isSome_iff_exists.mp isRow
    apply confirmed version
    · simp [isPhase, Phase.revalidates?]
    · simp [storedBody, found, file]
  | storing version client =>
    have known := informed.carried id _ version isPhase rfl
    simp only [Phase.write]
    split
    · refine attested.storeMetadata (rowless_vouches _) _ rfl _ _ ?_
      rintro accessCount _ _ ⟨rfl⟩
      exact sent_of_mem known
    · exact attested
  | _ => exact attested

theorem version_follow {outside : Outside} {cache : Metadata.State} {current : Version}
    {phase : Phase} (carries : (phase.follow setup outside cache current).version? = some version) :
    version = current := by
  have miss : ∀ client purpose, (afterMiss client purpose).version? = none := by
    intro client purpose
    cases purpose <;> rfl
  unfold Phase.follow at carries
  grind [Phase.version?]

/-- Every event keeps the validators truthful, if those that it writes are confirmed. -/
theorem Informed.next (informed : Informed setup state) {event : Event}
    (confirmed : Confirmed setup state event) : Informed setup (next setup state event) := by
  cases event with
  | request id client =>
    simp only [Revalidation.next]
    split
    · refine ⟨informed.current, fun other phase version isPhase carries => ?_, informed.truthful⟩
      by_cases same : other = id
      · subst same
        simp only [State.goTo, update_self, some.injEq] at isPhase
        subst isPhase
        cases carries
      · simp only [State.goTo, update_of_ne same] at isPhase
        exact informed.carried other phase version isPhase carries
    · exact informed
  | change version =>
    have known : ∀ other ∈ state.versions, other ∈ version :: state.versions :=
      fun other => mem_cons_of_mem version
    refine ⟨mem_cons_self, fun id phase other isPhase carries => ?_, ?_⟩
    · exact known other (informed.carried id phase other isPhase carries)
    · intro row body found file
      exact (informed.truthful row body found file).mono known
  | advance id outside =>
    simp only [Revalidation.next]
    split
    · exact informed
    · rename_i phase isPhase
      refine ⟨informed.current, fun other following version isFollowing carries => ?_,
        truthful_iff_attested.mpr (attested_write informed isPhase confirmed)⟩
      by_cases same : other = id
      · subst same
        simp only [advance, State.goTo, update_self, some.injEq] at isFollowing
        subst isFollowing
        rw [version_follow carries]
        exact informed.current
      · simp only [advance, State.goTo, update_of_ne same] at isFollowing
        exact informed.carried other following version isFollowing carries

/-! ## Runs -/

/-- A mirror that goes by the ETag, and by the date only without one. -/
def byETag (ifNoneMatch ifModifiedSince : Str) (version : Version) : Bool :=
  if ifNoneMatch ≠ [] then ifNoneMatch = version.etag
  else ifModifiedSince ≠ [] && ifModifiedSince = version.lastModified

/-- The Release file of a distribution. -/
def releaseSetup : Setup :=
  ⟨{ sha256 := hexEncode64, unicodeLower := id }, ofAscii "http://deb.example.org/dists/a/Release",
    false, byETag⟩

/-- A client without a copy. -/
def coldClient : Client :=
  ⟨false, [], []⟩

/-- A request goes on undisturbed. -/
def goesOn (id : Nat) : Event :=
  .advance id ⟨0, false, false, false, false, .none, 0⟩

/-- An empty cache, and a mirror with its first version. -/
def firstVersion : State :=
  .start (.opened 100 .empty fun _ => none) ⟨[1], ofAscii "e1", ofAscii "Mon"⟩ []

/-- The first request stores the body, and the second one is about to write its validators. -/
def confirmedRun : List Event :=
  [.request 0 coldClient, goesOn 0, goesOn 0, goesOn 0, goesOn 0, goesOn 0,
    .request 1 coldClient, goesOn 1, goesOn 1, goesOn 1, goesOn 1]

/-- Before the second request goes on, the mirror changes and a third one stores the new body. -/
def overtakenRun : List Event :=
  confirmedRun ++ [.change ⟨[2], ofAscii "e2", ofAscii "Tue"⟩, .request 2 coldClient, goesOn 2,
    goesOn 2, goesOn 2, goesOn 2, goesOn 2, goesOn 1]

end Debswarm.Proxy.Revalidation
