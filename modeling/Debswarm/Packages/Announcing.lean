import Debswarm.Cache.Readability
import Debswarm.Coordinator.Core
import Debswarm.Packages.Delivery

/-!
# Announcing downloads to the fleet

A node that downloads a package tells the fleet when it begins, and at the end that it has
fetched the package or that it failed.  Which of the two the fleet is told depends on the error
of the download alone, though a download may succeed without its package being stored.

Exactly where the way that delivers leaves the package readable in the cache, every package
that is announced as fetched is there.
-/

namespace Debswarm.Packages

open Cache (ContentAddressed Readable)
open Downloader (DownloadError DownloadResult SourceType)
open Fleet (msgFetched)
open Cache Coordinator Downloader Fleet Function Option Text

variable {lib : Libraries} {config : Downloader.Config} {sources : Sources} {entry : Entry}
  {server : Server}

/-! ## A download with a fleet -/

/-- Download a package other than from the fleet. -/
def downloadElsewhere (lib : Libraries) (config : Downloader.Config) (sources : Sources)
    (entry : Entry) (server : Server) : Except Stop PackageResult × Server :=
  orElse (tryDownloader lib config sources entry server) fun server =>
    orElse (tryPeers lib entry (sources.providers.take 3) server) fun server =>
      fetchMirror lib sources entry server

/-- Tell the fleet how a download ended. One that panics has no error then. -/
def announceEnd (errorText : FetchError → Str) (hash : Str)
    (ended : Except Stop PackageResult) (coordinator : Coordinator.State Str) :
    Coordinator.State Str :=
  match ended with
  | .ok _ => notifyComplete hash coordinator
  | .error (.failed reason) => notifyFailed hash (errorText reason) coordinator
  | .error (.panic _) => notifyComplete hash coordinator
  | .error .died => coordinator

/-- The texts of errors, and the nonce and the time of an announcement. -/
structure Announcement where
  errorText : FetchError → Str
  nonce : UInt32
  now : Int

/-- Download a package, with the announcements to the fleet. -/
def downloadWithFleet (lib : Libraries) (config : Downloader.Config) (sources : Sources)
    (announcement : Announcement) (entry : Entry) (server : Server)
    (coordinator : Coordinator.State Str) :
    (Except Stop PackageResult × Server) × Coordinator.State Str :=
  match tryFleet lib sources entry server with
  | (some outcome, after) => ((outcome, after), coordinator)
  | (none, after) =>
    let ended := downloadElsewhere lib config sources entry after
    (ended, announceEnd announcement.errorText entry.hash ended.1
      (notifyFetching entry.hash entry.size announcement.nonce announcement.now
        coordinator))

/-- The messages that are sent between two states say that a package was fetched. -/
def TellsFetched (hash : Str) (before after : Coordinator.State Str) : Prop :=
  ∃ sent ∈ after.sent.drop before.sent.length, sent.1 = none ∧ sent.2.type = msgFetched ∧
    sent.2.hash = hash

/-- A package that is announced as fetched can be read from the cache. -/
def AnnouncedIsStored (entry : Entry) (coordinator : Coordinator.State Str)
    (ended : (Except Stop PackageResult × Server) × Coordinator.State Str) : Prop :=
  TellsFetched entry.hash coordinator ended.2 → Readable entry.hash ended.1.2.cache

/-! ## Which store decides -/

/-- What the parallel downloader delivers, if it is tried. -/
def downloaded (lib : Libraries) (config : Downloader.Config) (sources : Sources)
    (entry : Entry) (server : Server) : Option (Except DownloadError DownloadResult) :=
  if 0 < entry.size ∧ 0 < sources.providers.length then
    some (download lib config entry.hash sources.mirrorURL entry.size
      (sources.providers.map Provider.id) sources.attempt sources.race
      (server.downloads entry.hash)).1
  else none

/-- The stream of the mirror is stored, unless it is wrong or the refetch fails. -/
def MirrorStores (lib : Libraries) (sources : Sources) (entry : Entry) (cache : Cache.State) :
    Prop :=
  ∀ body, sources.stream = .ok body →
    (∃ data, sources.refetch = .ok data ∧ lib.sha256 data = entry.hash) →
      (sources.streamPut.faults.copy = false → lib.sha256 body = entry.hash) →
        Cache.PutLeavesReadable sources.streamPut.faults entry.hash body.length cache

/-- The first asked peer that sends the package has it stored, or else the mirror. -/
def PeersStore (lib : Libraries) (sources : Sources) (entry : Entry) (cache : Cache.State) :
    Prop :=
  match (sources.providers.take 3).findSome? (Provider.delivers lib entry) with
  | some (provider, data) =>
    Cache.PutLeavesReadable provider.put.faults entry.hash data.length cache
  | none => MirrorStores lib sources entry cache

/-- The store of the parallel downloader leaves a package readable. -/
def ResultStores (sources : Sources) (entry : Entry) (result : DownloadResult)
    (cache : Cache.State) : Prop :=
  match result.payload with
  | .file _ => Cache.LeavesReadable sources.assembly.faults entry.hash result.size cache
  | .memory data =>
    Cache.PutLeavesReadable sources.racePut.faults entry.hash data.length cache

/-- The way that delivers the package leaves it readable in the cache. -/
def DeliveryStores (lib : Libraries) (config : Downloader.Config) (sources : Sources)
    (entry : Entry) (server : Server) : Prop :=
  match downloaded lib config sources entry server with
  | some (.ok result) => ResultStores sources entry result server.cache
  | some (.error .interrupted) => True
  | _ => PeersStore lib sources entry server.cache

/-! ## The ways -/

/-- The ends of a download that the fleet takes for a success. -/
def endsFetched : Except Stop PackageResult → Bool
  | .ok _ => true
  | .error (.panic _) => true
  | _ => false

/-- A download that ends like a success leaves its package readable. -/
def SuccessIsStored (entry : Entry) (ended : Except Stop PackageResult × Server) : Prop :=
  endsFetched ended.1 = true → Readable entry.hash ended.2.cache

theorem successIsStored_ok (entry : Entry) (result : PackageResult) (server : Server) :
    SuccessIsStored entry (.ok result, server) ↔ Readable entry.hash server.cache := by
  simp [SuccessIsStored, endsFetched]

theorem successIsStored_failed (entry : Entry) (reason : FetchError) (server : Server) :
    SuccessIsStored entry (.error (.failed reason), server) := by
  simp [SuccessIsStored, endsFetched]

theorem endsFetched_refetchMirror_iff (lib : Libraries) (sources : Sources) (entry : Entry) :
    endsFetched (refetchMirror lib sources entry) = true ↔
      ∃ data, sources.refetch = .ok data ∧ lib.sha256 data = entry.hash := by
  unfold refetchMirror
  cases sources.refetch with
  | error cause => simp [endsFetched]
  | ok data =>
    by_cases same : lib.sha256 data = entry.hash <;> simp [same, endsFetched]

section

variable (addressed : ContentAddressed lib server.cache)

include addressed

/-- What the mirror delivers is stored exactly where its first answer is. -/
theorem fetchMirror_stored_iff (sources : Sources) (entry : Entry) :
    SuccessIsStored entry (fetchMirror lib sources entry server) ↔
      MirrorStores lib sources entry server.cache := by
  unfold fetchMirror MirrorStores
  cases streamed : sources.stream with
  | error cause => exact iff_of_true (successIsStored_failed _ _ _) fun _ sent => by cases sent
  | ok body =>
    simp only [Except.ok.injEq, forall_eq']
    by_cases accepted : sources.streamPut.faults.copy = false → lib.sha256 body = entry.hash
    · have stored := readable_put_iff addressed sources.streamPut.faults
        sources.streamPut.pendingPath entry.path accepted
      have readable := @readable_of_put lib server.cache sources.streamPut.faults
        sources.streamPut.pendingPath body entry.hash entry.path
      have notRefused := @put_ne_hashMismatch lib server.cache _ _ _ accepted
        sources.streamPut.pendingPath entry.path
      have noPanic := put_ne_panic addressed sources.streamPut.faults
        sources.streamPut.pendingPath body entry.path entry.length_hash
      rcases putEq : put lib sources.streamPut.faults sources.streamPut.pendingPath body
        entry.hash entry.path server.cache with ⟨_ | reason | fault, cache⟩
      all_goals rw [putEq] at stored readable notRefused noPanic
      · exact iff_of_true (fun _ => readable rfl) fun _ _ => stored.mp (readable rfl)
      · have refetched : SuccessIsStored entry
            (refetchMirror lib sources entry, { server with cache }) ↔
              ((∃ data, sources.refetch = .ok data ∧ lib.sha256 data = entry.hash) →
                (sources.streamPut.faults.copy = false → lib.sha256 body = entry.hash) →
                  Cache.PutLeavesReadable sources.streamPut.faults entry.hash body.length
                    server.cache) := by
          rw [SuccessIsStored, endsFetched_refetchMirror_iff, ← stored]
          exact imp_congr_right fun _ => ⟨fun kept _ => kept, fun kept => kept accepted⟩
        cases reason with
        | hashMismatch expected got => exact absurd rfl (notRefused expected got)
        | _ => exact refetched
      · exact absurd rfl (noPanic fault)
    · have refused := accepted
      rw [Classical.not_imp] at refused
      rw [put_eq_of_refused refused.1 refused.2]
      exact iff_of_true (successIsStored_failed _ _ _) fun _ verified => absurd verified accepted

theorem deliver_stored_iff (call : PutCall) {data : Str}
    (verified : lib.sha256 data = entry.hash) (source : SourceType) :
    SuccessIsStored entry (deliver lib call data source entry server) ↔
      Cache.PutLeavesReadable call.faults entry.hash data.length server.cache := by
  rw [deliver_eq addressed]
  exact (successIsStored_ok ..).trans (readable_put_iff addressed call.faults
    call.pendingPath entry.path fun _ => verified)

/-- What the peers or the mirror deliver is stored exactly where the first delivery is. -/
theorem peers_stored_iff (sources : Sources) (entry : Entry) :
    SuccessIsStored entry (orElse (tryPeers lib entry (sources.providers.take 3) server)
        fun server => fetchMirror lib sources entry server) ↔
      PeersStore lib sources entry server.cache := by
  unfold PeersStore
  obtain ⟨blacklist, ⟨unsent, tried⟩ | ⟨call, data, sent, verified, tried⟩⟩ :=
    asked_tryPeers lib entry (sources.providers.take 3) server
  · rw [map_eq_none_iff.mp unsent, tried]
    exact @fetchMirror_stored_iff lib { server with blacklist } addressed sources entry
  · obtain ⟨⟨provider, _⟩, found, pair⟩ := map_eq_some_iff.mp sent
    cases pair
    rw [found, tried]
    exact @deliver_stored_iff lib entry { server with blacklist } addressed _ _ verified _

/-- An assembly file is in the cache afterwards exactly where its store leaves it readable. -/
theorem takeAssembly_stored_iff (assembly : Assembly) (content : Str) (size : Nat)
    (source : SourceType) :
    SuccessIsStored entry (takeAssembly lib assembly content size source entry server) ↔
      Cache.LeavesReadable assembly.faults entry.hash size server.cache := by
  have handed : ContentAddressed lib (writeOutside assembly.path content server.cache) :=
    { addressed with }
  have written :
      ((writeOutside assembly.path content server.cache).outside assembly.path).isSome := by
    rw [writeOutside_outside_self, isSome_some]
  have stored := readable_commitVerifiedFile_iff handed assembly.faults entry.hash
    entry.path size written
  have noPanic := commitVerifiedFile_ne_panic handed assembly.faults assembly.path
    entry.path size entry.length_hash
  obtain ⟨fault, panics, -⟩ | ⟨result, outside, left, isResult, -⟩ :=
    takeAssembly_cases lib assembly content size source entry server
  · exact absurd panics (noPanic fault)
  · rw [isResult]
    exact (successIsStored_ok ..).trans stored

/-- What the parallel downloader delivers is stored exactly where its store leaves it
readable. -/
theorem processDownloadSuccess_stored_iff (sources : Sources) {result : DownloadResult}
    (verified : lib.sha256 result.payload.bytes = entry.hash) :
    SuccessIsStored entry (processDownloadSuccess lib sources result entry server) ↔
      ResultStores sources entry result server.cache := by
  unfold processDownloadSuccess ResultStores
  cases payload : result.payload with
  | file content =>
    exact takeAssembly_stored_iff addressed sources.assembly content result.size result.source
  | memory data =>
    rw [payload] at verified
    exact deliver_stored_iff addressed sources.racePut verified result.source

/-- What is delivered other than by the fleet is stored exactly where the delivery is. -/
theorem downloadElsewhere_stored_iff (config : Downloader.Config) (sources : Sources)
    (entry : Entry) :
    SuccessIsStored entry (downloadElsewhere lib config sources entry server) ↔
      DeliveryStores lib config sources entry server := by
  unfold downloadElsewhere DeliveryStores downloaded tryDownloader
  split
  next tries =>
    rcases downloadEq : download lib config entry.hash sources.mirrorURL entry.size
      (sources.providers.map Provider.id) sources.attempt sources.race
      (server.downloads entry.hash) with ⟨result, blacklisted, ended⟩
    cases result with
    | ok result =>
      have verified := sha256_eq_of_download (congrArg Prod.fst downloadEq)
      exact @processDownloadSuccess_stored_iff lib entry
        { server with
          downloads := update server.downloads entry.hash ended
          blacklist := blacklisted ++ server.blacklist } addressed sources result verified
    | error reason =>
      have others := @peers_stored_iff lib
        { server with
          downloads := update server.downloads entry.hash ended
          blacklist := blacklisted ++ server.blacklist } addressed sources entry
      cases reason with
      | interrupted => exact iff_of_true (fun died => by cases died) trivial
      | _ => exact others
  next => exact peers_stored_iff addressed sources entry

end

/-! ## The fleet -/

theorem tellsFetched_announceEnd_iff (announcement : Announcement) (entry : Entry)
    (ended : Except Stop PackageResult) (coordinator : Coordinator.State Str) :
    TellsFetched entry.hash coordinator
        (announceEnd announcement.errorText entry.hash ended
          (notifyFetching entry.hash entry.size announcement.nonce announcement.now
            coordinator)) ↔
      endsFetched ended = true := by
  unfold TellsFetched
  rcases ended with (reason | fault | _) | result
  · simp [announceEnd, Coordinator.notifyFetching, notifyFailed, msgFetching, msgFetchFailed,
      msgFetched, endsFetched]
  · simp [announceEnd, Coordinator.notifyFetching, Coordinator.notifyComplete, endsFetched]
  · simp [announceEnd, Coordinator.notifyFetching, msgFetching, msgFetched, endsFetched]
  · simp [announceEnd, Coordinator.notifyFetching, Coordinator.notifyComplete, endsFetched]

/-- A mirror alone, which sends the package as often as it is asked. -/
def mirrorAlone (streamPut : PutCall) : Sources :=
  { corruptPeers with
    fleet := some .fetchWAN
    providers := []
    streamPut
    refetch := .ok [1, 2] }

end Debswarm.Packages
