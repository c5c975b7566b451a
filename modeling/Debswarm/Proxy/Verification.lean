import Debswarm.Proxy.Vouching
import Debswarm.Transition.Run

/-!
# Loads are vouched for by a signed Release

When the mode is enforced, an index may be loaded only if a Release with a good
signature lists the hash of its bytes.  For a file requested by its path the check
hashes the bytes.  For a file requested by its hash it only looks up the digest in the
URL, and leaves it to the mirror that the bytes have that digest.  This is the only gap.

A request looks into the cache, asks the mirror, and is answered with a cached body, with a
fresh one, or without one.  What holds of each of these moves holds of the whole request.
-/

namespace Debswarm.Proxy

open List Metadata PackageIndex Release Text Transition

def Reply.body? : Reply → Option Str
  | .ok _ _ body _ => some body
  | _ => none

/-- A body that the mirror offers in a request. -/
def Answers.Offers (answers : Answers) (body : Str) : Prop :=
  body ∈ answers.reply.body? ∨ body ∈ answers.refetched.body?

/-- The body never changes, the node is offline, or the mirror sends no body. -/
def MayServeCached (env : Environment) (answers : Answers) (url : Str) : Prop :=
  isImmutableMetadataURL env.lib url = .ok true ∨ answers.offline = true ∨
    answers.reply.body? = none

/-- The moves of a request, with what holds on its way and what holds at its end. -/
structure Moves (env : Environment) (answers : Answers) (request : Request) (isIndex : Bool)
    (onWay : Server → Prop) (atEnd : Option Response × Server → Prop) : Prop where
  bodiless : ∀ server response, onWay server → (∀ answer ∈ response, answer.status ≠ 200) →
    atEnd (response, server)
  missed : ∀ server metadata, onWay server →
    getMetadata answers.now request.url server.metadata = (none, metadata) →
      onWay { server with metadata }
  revalidated : ∀ server etag lastModified, onWay server →
    onWay { server with
      metadata := revalidateMetadata answers.now request.url etag lastModified server.metadata }
  cached : ∀ server metadata row body stale, onWay server →
    MayServeCached env answers request.url →
    getMetadata answers.now request.url server.metadata = (some (row, body), metadata) →
      let served := serveCachedMetadata env answers request isIndex stale row body
        { server with metadata }
      atEnd (some served.1, served.2)
  fresh : ∀ server etag lastModified body broken caching, onWay server → answers.Offers body →
    atEnd (serveFreshBody env answers request isIndex etag lastModified body broken caching server)

section Moves

variable {env : Environment} {answers : Answers} {request : Request} {isIndex : Bool}
  {onWay : Server → Prop} {atEnd : Option Response × Server → Prop} {server : Server}

section

variable (moves : Moves env answers request isIndex onWay atEnd) (reached : onWay server)

include moves reached

/-- An answer from the cache, or what is done instead. -/
theorem Moves.cachedOrElse (may : MayServeCached env answers request.url) (stale : Bool)
    {orElse : Server → Option Response × Server}
    (instead : ∀ after, onWay after → atEnd (orElse after)) :
    atEnd
      (match serveIfCached env answers request isIndex stale server with
        | (some response, after) => (some response, after)
        | (none, after) => orElse after) := by
  unfold serveIfCached
  rcases found : getMetadata answers.now request.url server.metadata with
    ⟨_ | ⟨row, body⟩, metadata⟩
  · exact instead _ (moves.missed server metadata reached found)
  · exact moves.cached server metadata row body stale reached may found

theorem Moves.failed : atEnd (some (.plain 502 (ofAscii "Failed to fetch")), server) := by
  apply moves.bodiless server _ reached
  rintro _ ⟨rfl⟩
  decide

theorem Moves.notModified (etag lastModified : Str) :
    atEnd (some (relayNotModified etag lastModified), server) := by
  apply moves.bodiless server _ reached
  rintro _ ⟨rfl⟩ isOk
  cases isOk

theorem Moves.fetchFreshMetadata :
    atEnd (fetchFreshMetadata env answers request isIndex server) := by
  unfold Proxy.fetchFreshMetadata
  split
  · exact moves.failed reached
  · exact moves.notModified reached _ _
  · rename_i etag lastModified body broken isReply
    apply moves.fresh server etag lastModified body broken _ reached
    exact .inr (by rw [isReply]; exact rfl)

theorem Moves.serveFromUpstream (caching staleOK : Bool) :
    atEnd (serveFromUpstream env answers request isIndex caching staleOK server) := by
  unfold Proxy.serveFromUpstream
  dsimp only
  split
  · rename_i isReply
    have may : MayServeCached env answers request.url := .inr (.inr (by rw [isReply]; rfl))
    split
    · exact moves.cachedOrElse reached may true fun after => moves.failed
    · exact moves.failed reached
  · rename_i etag lastModified isReply
    have may : MayServeCached env answers request.url := .inr (.inr (by rw [isReply]; rfl))
    split
    · have revalidated := moves.revalidated server etag lastModified reached
      exact moves.cachedOrElse revalidated may false fun after => moves.fetchFreshMetadata
    · exact moves.notModified reached etag lastModified
  · rename_i etag lastModified body broken isReply
    apply moves.fresh server etag lastModified body broken caching reached
    exact .inl (by rw [isReply]; exact rfl)

/-- What holds of the moves holds of the request. -/
theorem Moves.serveMetadata : atEnd (serveMetadata env answers request isIndex server) := by
  have upstream : ∀ caching staleOK after, onWay after → atEnd
        (if staleOK && answers.offline then
          match serveIfCached env answers request isIndex true after with
          | (some response, served) => (some response, served)
          | (none, missed) =>
            Proxy.serveFromUpstream env answers request isIndex caching staleOK missed
        else Proxy.serveFromUpstream env answers request isIndex caching staleOK after) := by
    intro caching staleOK after reachedAfter
    split
    · rename_i stale
      rw [Bool.and_eq_true] at stale
      exact moves.cachedOrElse reachedAfter (.inr (.inl stale.2)) true
        fun missed reachedMissed => moves.serveFromUpstream reachedMissed caching staleOK
    · exact moves.serveFromUpstream reachedAfter caching staleOK
  unfold Proxy.serveMetadata
  dsimp only
  split
  · split
    · exact moves.bodiless server _ reached nofun
    · exact upstream _ _ server reached
    · rename_i immutable
      exact moves.cachedOrElse reached (.inl immutable) false (upstream _ _)
  · exact upstream _ _ server reached

end

end Moves

/-! ## Honest mirrors -/

variable {env : Environment} {answers : Answers} {server : Server}

/-- The mirror answers a request for an index by its hash with bytes of that hash. -/
def HonestByHash (env : Environment) (_ : Server) : Event → Prop
  | .request request answers =>
    (∀ body ∈ answers.reply.body?, HasNamedDigest env request.url body) ∧
      ∀ body ∈ answers.refetched.body?, HasNamedDigest env request.url body
  | _ => True

instance (env : Environment) (server : Server) (event : Event) :
    Decidable (HonestByHash env server event) := by
  unfold HonestByHash
  split <;> infer_instance

/-! ## Loading and serving -/

variable {url body : Str} {request : Request}

theorem step_loadIndexInto (sound : Sound env server) {data : Str}
    (allowed : server.config.verifyMode = .enforce → isExemptHost env server.config url = false →
      Vouched env server.received url data) :
    Step env server (loadIndexInto env url data server) := by
  have loaded : ∀ kind, Step env server (loadKind env kind url data server) := by
    intro kind
    refine ⟨⟨sound.stored, sound.releases, fun load mem enforced notExempt => ?_⟩, rfl,
      fun _ mem => mem⟩
    rcases mem_append.mp mem with old | new
    · exact sound.loads load old enforced notExempt
    · cases mem_singleton.mp new
      exact allowed enforced notExempt
  unfold loadIndexInto
  split
  · exact loaded .packages
  split
  · exact loaded .sources
  · exact .refl sound

theorem AllowsVouched.load {before after : Server} {data : Str} {reason : Option Reason}
    (allows : AllowsVouched env url data before ((true, reason), after)) :
    Step env before (loadIndexInto env url data after) :=
  allows.1.trans (step_loadIndexInto allows.1.sound (allows.2 rfl))

theorem step_warmFromBody (sound : Sound env server) (answers : Answers) (warmIndex : Bool)
    (verifiable : warmIndex = true → isVerifiableIndexURL env.lib url = true)
    (named : HasNamedDigest env url body) :
    Step env server (warmFromBody env answers warmIndex url body server).2 := by
  unfold warmFromBody
  split
  · rename_i warm
    have allows := allowsVouched_checkIndexVerification sound answers (verifiable warm) named
    rcases resultEq : checkIndexVerification env answers url body server with
      ⟨⟨_ | _, reason⟩, after⟩
    · rw [resultEq] at allows
      exact allows.1
    · rw [resultEq] at allows
      exact allows.load
  · exact .refl sound

theorem step_serveCachedMetadata (sound : Sound env server) (answers : Answers)
    (isIndex stale : Bool) (row : IndexRow) (named : HasNamedDigest env request.url body) :
    Step env server (serveCachedMetadata env answers request isIndex stale row body server).2 := by
  have warmed := step_warmFromBody sound answers
    (isIndex && isVerifiableIndexURL env.lib request.url && !hasIndexFile server.index request.url)
    (fun warm => by simp only [Bool.and_eq_true] at warm; exact warm.1.2) named
  unfold serveCachedMetadata
  dsimp only
  split
  · exact .refl sound
  split
  · split
    · exact .refl sound
    split <;> exact warmed
  · exact .refl sound

theorem step_storeBody (sound : Sound env server) (answers : Answers) (faults : WriteFaults)
    (storable : Storable env server.received url body) (etag lastModified contentType : Str) :
    Step env server
      (storeBody env answers faults url body etag lastModified contentType server).2 :=
  step_metadata sound (kept_storeMetadata env.lib sound.stored rfl answers.now answers.tmp etag
    lastModified contentType storable)

/-- A response that goes out unless the body could not be stored. -/
theorem step_respond {after : Option Panic × Server} (step : Step env server after.2)
    (response : Response) :
    Step env server
      (match after with
        | (some _, stored) => (none, stored)
        | (none, stored) => (some response, stored)).2 := by
  obtain ⟨fault, stored⟩ := after
  cases fault with
  | none | some fault => exact step

theorem step_serveFreshIndex (sound : Sound env server) (answers : Answers)
    (storable : Storable env server.received request.url body) (etag lastModified : Str)
    (broken caching : Bool) :
    Step env server
      (serveFreshIndex env answers request etag lastModified body broken caching server).2 := by
  have stores {after : Server} (step : Step env server after) :
      Step env server (storeBody env answers answers.faults request.url body etag lastModified
        (ofAscii "application/octet-stream") after).2 :=
    step.trans (step_storeBody step.sound answers answers.faults
      ⟨step.received storable.1, storable.2⟩ etag lastModified (ofAscii "application/octet-stream"))
  unfold serveFreshIndex
  dsimp only
  split
  · exact .refl sound
  split
  · exact .refl sound
  · cases verifiable : isVerifiableIndexURL env.lib request.url with
    | false =>
      have skipped : checkIndexVerification env answers request.url body server =
          ((true, none), server) := by
        simp [checkIndexVerification, verifiable]
      rw [skipped]
      dsimp only
      split
      · exact step_respond (stores (.refl sound)) _
      · exact .refl sound
    | true =>
      have allows := allowsVouched_checkIndexVerification sound answers verifiable storable.2
      rcases resultEq : checkIndexVerification env answers request.url body server with
        ⟨⟨_ | _, reason⟩, after⟩
      · rw [resultEq] at allows
        exact allows.1
      · rw [resultEq] at allows
        dsimp only
        split
        · exact step_respond (stores allows.load) _
        · exact allows.load

theorem step_serveFreshBody (sound : Sound env server) (answers : Answers) (isIndex : Bool)
    (named : HasNamedDigest env request.url body) (etag lastModified : Str)
    (broken caching : Bool) :
    Step env server
      (serveFreshBody env answers request isIndex etag lastModified body broken caching
        server).2 := by
  have received := step_receive sound request.url body
  have storable : Storable env (receive request.url body server).received request.url body :=
    ⟨mem_append_right _ (mem_singleton_self _), named⟩
  unfold serveFreshBody
  split
  · exact received.trans (step_serveFreshIndex received.sound answers storable etag lastModified
      broken caching)
  · unfold serveFreshStream
    split
    · exact step_respond (received.trans
        (step_storeBody received.sound answers _ storable etag lastModified [])) _
    · exact received

theorem moves_step {origin : Server} (honest : HonestByHash env origin (.request request answers))
    (isIndex : Bool) :
    Moves env answers request isIndex (Step env origin) fun result => Step env origin result.2 where
  bodiless _ _ step _ := step
  missed server metadata step found := by
    have kept := kept_getMetadata step.sound.stored answers.now request.url
    rw [found] at kept
    exact step.trans (step_metadata step.sound kept)
  revalidated server etag lastModified step :=
    step.trans (step_metadata step.sound
      (kept_revalidateMetadata step.sound.stored answers.now request.url etag lastModified))
  cached server metadata row body stale step _ found := by
    have kept := kept_getMetadata step.sound.stored answers.now request.url
    rw [found] at kept
    have read := step_metadata step.sound kept
    have stored := stored_of_getMetadata step.sound.stored (congrArg Prod.fst found)
    exact (step.trans read).trans
      (step_serveCachedMetadata read.sound answers isIndex stale row stored.1.2)
  fresh server etag lastModified body broken caching step offered := by
    have named : HasNamedDigest env request.url body := by
      rcases offered with replied | refetched
      · exact honest.1 body replied
      · exact honest.2 body refetched
    exact step.trans (step_serveFreshBody step.sound answers isIndex named etag lastModified
      broken caching)

theorem step_serveMetadata (sound : Sound env server)
    (honest : HonestByHash env server (.request request answers)) (isIndex : Bool) :
    Step env server (serveMetadata env answers request isIndex server).2 :=
  (moves_step honest isIndex).serveMetadata (.refl sound)

theorem step_handleRequest (sound : Sound env server)
    (honest : HonestByHash env server (.request request answers)) :
    Step env server (handleRequest env answers request server).2 := by
  unfold handleRequest
  split
  · exact .refl sound
  · exact step_serveMetadata sound honest true
  · have invalidated : ∀ base, Step env server
        { server with releaseStore := server.releaseStore.delete base } := by
      intro base
      refine ⟨⟨sound.stored, fun other release found => ?_, sound.loads⟩, rfl, fun _ mem => mem⟩
      rw [Table.find?_delete] at found
      split at found
      · cases found
      · exact sound.releases other release found
    unfold handleReleaseRequest
    dsimp only
    split
    · exact (invalidated _).trans (step_serveMetadata (invalidated _).sound honest false)
    · exact step_serveMetadata sound honest false
  · exact step_serveMetadata sound honest false

theorem step_warmFrom (answers : Answers) (url : Str) (sound : Sound env server) :
    Step env server (warmFrom env answers server url) := by
  unfold warmFrom
  split
  · exact .refl sound
  · rename_i cold
    simp only [Bool.or_eq_true, Bool.not_eq_true', not_or, Bool.not_eq_false] at cold
    obtain ⟨read, stored⟩ := step_readCachedMetadataBody sound answers url
    rcases readEq : readCachedMetadataBody answers url server with ⟨_ | data, after⟩
    · rw [readEq] at read
      exact read
    · rw [readEq] at read stored
      have allows := allowsVouched_checkIndexVerification read.sound answers cold.1
        (stored data rfl).2
      dsimp only
      rcases resultEq : checkIndexVerification env answers url data after with
        ⟨⟨_ | _, reason⟩, checked⟩
      · rw [resultEq] at allows
        exact read.trans allows.1
      · rw [resultEq] at allows
        exact read.trans allows.load

theorem sound_warmIndexFromCacheOnce (sound : Sound env server) (answers : Answers) :
    Sound env (warmIndexFromCacheOnce env answers server) := by
  have warming : Sound env { server with indexWarmed := true } :=
    ⟨sound.stored, sound.releases, sound.loads⟩
  unfold warmIndexFromCacheOnce
  split
  · exact sound
  split
  · exact run_invariant (Sound env)
      (fun after url afterSound => (step_warmFrom answers url afterSound).sound) warming _
  · exact warming

/-! ## Runs -/

theorem sound_next (env : Environment) (server : Server) (event : Event) (sound : Sound env server)
    (honest : HonestByHash env server event) : Sound env (next env server event) := by
  cases event with
  | request request answers => exact (step_handleRequest sound honest).sound
  | warmIndex answers => exact sound_warmIndexFromCacheOnce sound answers
  | restart config =>
    refine ⟨sound.stored, fun base release found => ?_, sound.loads⟩
    simp [next, Server.start] at found

/-- If every body that comes for a by-hash URL has its digest, every index loaded in enforce mode
from a host that is not exempt is vouched for by a signed Release. -/
theorem loadsVouched_throughout (env : Environment) (config : Config) (budget : Int)
    (events : List Event)
    (meets : StepsMeet (next env) (HonestByHash env) (Server.fresh config budget) events) :
    ∀ before, before <+: events →
      LoadsVouched env (run (next env) (Server.fresh config budget) before) := by
  intro before isPrefix
  have start : Sound env (Server.fresh config budget) :=
    ⟨nofun, fun _ _ found => by simp [Server.fresh, Server.start] at found, nofun⟩
  exact (run_invariant_of_stepsMeet (Sound env) (sound_next env) start
    (meets.of_isPrefix isPrefix)).loads

/-- A clearsigned text is one behind two marks, and no detached signature is good. -/
def exampleEnvironment : Environment where
  lib := ⟨hexEncode64, id⟩
  decompressors := ⟨fun _ => none, fun _ => none, fun _ => none, fun data => (data, true)⟩
  verifyClearsigned body :=
    if (ofAscii "S:").isPrefixOf body then some (body.drop 2) else none
  verifyDetached _ _ := false
  hostname _ := some (ofAscii "h")

/-- Enforce, with no host exempt. -/
def enforcing : Config :=
  ⟨.enforce, [], false, false, 1000⟩

/-- The mirror answers a request with a body. -/
def answered (url body : Str) : Event :=
  .request ⟨url, [], []⟩
    { clock := 0
      offline := false
      reply := .ok [] [] body false
      refetched := .error
      fetched := fun _ => none
      unreadable := fun _ => false
      faults := .none
      tmp := 0 }

/-- A Packages file, a signed Release that lists it, and the answer to a request by its hash. -/
def byHashRun (answer : Str) : List Event :=
  let digest := hexEncode64 (ofAscii "SHA256: aa\n")
  let base := ofAscii "http://h/dists/s/"
  [answered (base ++ ofAscii "InRelease") (ofAscii "S:SHA256:\n " ++ digest ++ ofAscii " 11 p\n"),
    answered (base ++ ofAscii "binary-a/by-hash/SHA256/" ++ digest) answer]

/-- An honest answer is loaded and vouched for. -/
theorem loadsVouched_of_honest_answer :
    let server := run (next exampleEnvironment) (Server.fresh enforcing 1000)
      (byHashRun (ofAscii "SHA256: aa\n"))
    server.loads.map (·.body) = [ofAscii "SHA256: aa\n"] ∧
      LoadsVouched exampleEnvironment server :=
  ⟨by decide +kernel, loadsVouched_throughout _ _ _ _ (by decide +kernel) _ (prefix_refl _)⟩

/-- Other bytes under the same digest are loaded too, and no signed Release lists their
hash. -/
theorem not_loadsVouched_of_adversarial_answer :
    ¬ LoadsVouched exampleEnvironment (run (next exampleEnvironment)
      (Server.fresh enforcing 1000) (byHashRun (ofAscii "SHA256: bb\n"))) := by
  generalize serverEq : run (next exampleEnvironment) (Server.fresh enforcing 1000)
    (byHashRun (ofAscii "SHA256: bb\n")) = server
  intro vouched
  have loaded : ∃ load ∈ server.loads, load.config.verifyMode = .enforce ∧
      isExemptHost exampleEnvironment load.config load.url = false ∧
      load.body = ofAscii "SHA256: bb\n" ∧
      verificationBaseURL load.url = ofAscii "http://h/dists/s/" := by
    subst serverEq
    decide +kernel
  have listings : ∀ item ∈ server.received, ∀ text ∈ exampleEnvironment.verifyClearsigned item.2,
      item.1 = ofAscii "http://h/dists/s/InRelease" → hexEncode64 (ofAscii "SHA256: bb\n") ∉
          ((Release.parse exampleEnvironment.lib text).toOption.map (·.hashSet)).getD [] := by
    subst serverEq
    decide +kernel
  obtain ⟨load, mem, enforced, notExempt, bodyEq, baseEq⟩ := loaded
  obtain ⟨release, signed, listed⟩ := vouched load mem enforced notExempt
  rw [bodyEq] at listed
  rw [baseEq] at signed
  rcases signed with ⟨body, text, received, textEq, parsed⟩ | ⟨_, _, _, _, good, _⟩
  · have sameURL : ofAscii "http://h/dists/s/" ++ ofAscii "InRelease" =
        ofAscii "http://h/dists/s/InRelease" := by
      decide
    have absent := listings _ received text textEq sameURL
    rw [parsed] at absent
    exact absent listed
  · cases good

end Debswarm.Proxy
