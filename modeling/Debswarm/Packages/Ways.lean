import Debswarm.Cache.Contents
import Debswarm.Packages.Core

/-!
# What each way to a package does

Peers that are asked one after the other, whether of the fleet or found as providers, leave
everything but the blacklist alone until one sends the package, which is then stored and served
from memory.  The parallel downloader delivers verified bytes, and its assembly file is stored or
read back.
-/

namespace Debswarm.Packages

open Cache Downloader List Option Text
open Downloader (DownloadResult SourceType)

variable {lib : Libraries} {sources : Sources} {entry : Entry} {server : Server}

/-! ## Verifying while storing -/

theorem verifyAndCache_refused (call : PutCall) {data hash : Str} (path : Str)
    (different : lib.sha256 data ≠ hash) (cache : Cache.State) :
    ∃ reason, verifyAndCache lib call data hash path cache = (.error (.failed reason), cache) := by
  unfold verifyAndCache put
  by_cases copies : call.faults.copy = true
  · rw [if_pos copies]
    exact ⟨_, if_pos different⟩
  · rw [if_neg copies, if_pos different]
    exact ⟨_, rfl⟩

/-- The package is refused only by a panic. -/
theorem verifyAndCache_accepted (call : PutCall) {data hash : Str} (path : Str)
    (same : lib.sha256 data = hash) (cache : Cache.State) :
    verifyAndCache lib call data hash path cache =
      match put lib call.faults call.pendingPath data hash path cache with
      | (.panic fault, left) => (.error (.panic fault), left)
      | (_, left) => (.ok (), left) := by
  have matching := @hashMismatch_of_put lib cache call.faults call.pendingPath data hash path
  unfold verifyAndCache
  generalize put lib call.faults call.pendingPath data hash path cache = put at matching
  obtain ⟨_ | reason | fault, left⟩ := put
  · rfl
  · cases reason with
    | hashMismatch expected got => exact absurd same (matching rfl)
    | _ => exact if_neg (not_not.mpr same)
  · rfl

/-! ## Asking peers -/

/-- Store the package and serve it from memory, whatever becomes of the store. -/
def deliver (lib : Libraries) (call : PutCall) (data : Str) (source : SourceType) (entry : Entry)
    (server : Server) : Except Stop PackageResult × Server :=
  match put lib call.faults call.pendingPath data entry.hash entry.path server.cache with
  | (.panic fault, cache) => (.error (.panic fault), { server with cache })
  | (_, cache) => (.ok (fromMemory entry data 0 source), { server with cache })

theorem deliver_server (call : PutCall) (data : Str) (source : SourceType) :
    (deliver lib call data source entry server).2 =
      { server with cache := (put lib call.faults call.pendingPath data entry.hash
          entry.path server.cache).2 } := by
  unfold deliver
  split <;> rename_i putEq <;> rw [putEq]

theorem deliver_eq (addressed : Cache.ContentAddressed lib server.cache) (call : PutCall)
    (data : Str) (source : SourceType) :
    deliver lib call data source entry server =
      (.ok (fromMemory entry data 0 source), { server with
        cache := (put lib call.faults call.pendingPath data entry.hash entry.path
          server.cache).2 }) := by
  have noPanic := put_ne_panic addressed call.faults call.pendingPath data entry.path
    entry.length_hash
  refine Prod.ext ?_ (deliver_server call data source)
  unfold deliver
  split
  · rename_i fault cache putEq
    rw [putEq] at noPanic
    exact absurd rfl (noPanic fault)
  · rfl

/-- Peers that did not send the package changed only the blacklist, and the first that did delivers
it. -/
def Asked (lib : Libraries) (entry : Entry) (server : Server) (sent : Option (PutCall × Str))
    (tried : Option (Except Stop PackageResult) × Server) : Prop :=
  ∃ blacklist, (sent = none ∧ tried = (none, { server with blacklist })) ∨
    ∃ call data, sent = some (call, data) ∧ lib.sha256 data = entry.hash ∧
      tried = (some (deliver lib call data .peer entry { server with blacklist }).1,
        (deliver lib call data .peer entry { server with blacklist }).2)

/-- The fleet delivers the package, before anything is announced. -/
def FleetDelivers (lib : Libraries) (sources : Sources) (entry : Entry) : Prop :=
  (fleetProvider sources.fleet).isSome ∧
    ∃ data, sources.fleetReply = .data data ∧ lib.sha256 data = entry.hash

/-- What a peer sends if it is the package. -/
def Provider.delivers (lib : Libraries) (entry : Entry) (provider : Provider) :
    Option (Provider × Str) :=
  (provider.full.filter fun data => lib.sha256 data = entry.hash).map fun data =>
    (provider, data)

theorem asked_tryFleet (lib : Libraries) (sources : Sources) (entry : Entry) (server : Server) :
    ∃ sent, (sent.isSome ↔ FleetDelivers lib sources entry) ∧
      (∀ answer ∈ sent, answer.1 = sources.fleetPut) ∧
      Asked lib entry server sent (tryFleet lib sources entry server) := by
  unfold FleetDelivers tryFleet downloadFromFleetPeer
  cases fleetProvider sources.fleet with
  | none => exact ⟨none, by simp, nofun, _, .inl ⟨rfl, rfl⟩⟩
  | some provider =>
    cases sources.fleetReply with
    | noAddresses | failed cause => exact ⟨none, by simp, nofun, _, .inl ⟨rfl, rfl⟩⟩
    | data data =>
      by_cases same : lib.sha256 data = entry.hash
      · refine ⟨some (sources.fleetPut, data), by simp [same], by simp, server.blacklist,
          .inr ⟨_, _, rfl, same, ?_⟩⟩
        unfold deliver
        dsimp only
        rw [verifyAndCache_accepted sources.fleetPut entry.path same server.cache]
        rcases put lib sources.fleetPut.faults sources.fleetPut.pendingPath data entry.hash
          entry.path server.cache with ⟨_ | _ | _, _⟩
        all_goals rfl
      · obtain ⟨reason, refused⟩ := verifyAndCache_refused sources.fleetPut entry.path same
          server.cache
        refine ⟨none, by simp [same], nofun, provider :: server.blacklist, .inl ⟨rfl, ?_⟩⟩
        simp only [refused]

/-- The put and the bytes of the first peer that sends the package. -/
def firstDelivery (lib : Libraries) (entry : Entry) (providers : List Provider) :
    Option (PutCall × Str) :=
  (providers.findSome? (Provider.delivers lib entry)).map fun sent => (sent.1.put, sent.2)

theorem asked_tryPeers (lib : Libraries) (entry : Entry) (providers : List Provider)
    (server : Server) :
    Asked lib entry server (firstDelivery lib entry providers)
      (tryPeers lib entry providers server) := by
  unfold firstDelivery
  induction providers generalizing server with
  | nil => exact ⟨_, .inl ⟨rfl, rfl⟩⟩
  | cons provider rest ih =>
    cases sent : provider.full with
    | none =>
      simp only [findSome?_cons, Provider.delivers, tryPeers, sent]
      exact ih server
    | some data =>
      by_cases same : lib.sha256 data = entry.hash
      · simp only [findSome?_cons, Provider.delivers, tryPeers, sent, filter_some, same,
          decide_true, if_true, map_some]
        refine ⟨server.blacklist, .inr ⟨_, _, rfl, same, ?_⟩⟩
        unfold deliver
        rw [verifyAndCache_accepted provider.put entry.path same server.cache]
        rcases put lib provider.put.faults provider.put.pendingPath data entry.hash
          entry.path server.cache with ⟨_ | _ | _, _⟩
        all_goals rfl
      · obtain ⟨reason, refused⟩ := verifyAndCache_refused provider.put entry.path same
          server.cache
        simp only [findSome?_cons, Provider.delivers, tryPeers, sent, filter_some, same,
          decide_false, Bool.false_eq_true, if_false, map_none, refused]
        exact ih _

/-! ## Going on -/

section

variable {property : Except Stop PackageResult × Server → Prop}
  {other : Server → Except Stop PackageResult × Server}

/-- A property holds after peers were asked if it does where one delivers and where none does. -/
theorem Asked.orElse {sent : Option (PutCall × Str)}
    {tried : Option (Except Stop PackageResult) × Server}
    (asked : Asked lib entry server sent tried)
    (delivers : ∀ call data blacklist, lib.sha256 data = entry.hash →
      property (deliver lib call data .peer entry { server with blacklist }))
    (goesOn : ∀ blacklist, property (other { server with blacklist })) :
    property (orElse tried other) := by
  obtain ⟨blacklist, ⟨-, rfl⟩ | ⟨call, data, -, verified, rfl⟩⟩ := asked
  · exact goesOn blacklist
  · exact delivers call data blacklist verified

/-- A property holds after the parallel downloader if it does in each of its three endings. -/
theorem orElse_tryDownloader {config : Downloader.Config}
    (delivers : ∀ result downloads blacklist, lib.sha256 result.payload.bytes = entry.hash →
      property (processDownloadSuccess lib sources result entry
        { server with downloads, blacklist }))
    (dies : (download lib config entry.hash sources.mirrorURL entry.size
        (sources.providers.map Provider.id) sources.attempt sources.race
        (server.downloads entry.hash)).1 = .error .interrupted →
      ∀ downloads blacklist, property (.error .died, { server with downloads, blacklist }))
    (goesOn : ∀ downloads blacklist, property (other { server with downloads, blacklist })) :
    property (orElse (tryDownloader lib config sources entry server) other) := by
  unfold tryDownloader
  split
  · rcases downloadEq : download lib config entry.hash sources.mirrorURL entry.size
      (sources.providers.map Provider.id) sources.attempt sources.race
      (server.downloads entry.hash) with ⟨result, blacklisted, ended⟩
    rw [downloadEq] at dies
    cases result with
    | ok result =>
      exact delivers result _ _ (sha256_eq_of_download (congrArg Prod.fst downloadEq))
    | error reason =>
      cases reason with
      | interrupted => exact dies rfl _ _
      | _ => exact goesOn _ _
  · exact goesOn server.downloads server.blacklist

end

/-! ## The assembly file -/

/-- An assembly file is stored, or read back if it is still there.  The store itself may panic. -/
theorem takeAssembly_cases (lib : Libraries) (assembly : Assembly) (content : Str) (size : Nat)
    (source : SourceType) (entry : Entry) (server : Server) :
    let stored := commitVerifiedFile lib assembly.faults assembly.path entry.hash entry.path
      size (writeOutside assembly.path content server.cache)
    (∃ fault, stored.1 = .panic fault ∧ takeAssembly lib assembly content size source entry server =
        (.error (.panic fault), { server with cache := stored.2 })) ∨
      ∃ result outside left, takeAssembly lib assembly content size source entry server =
          (.ok result, { server with
            cache := { stored.2 with outside }
            downloads := Function.update server.downloads entry.hash
              (next lib entry.hash (server.downloads entry.hash) (.takeFile left)) }) ∧
        ((result = fromCache entry size source ∧ (stored.1 = .ok ∨
            assembly.unreadable = true ∨ stored.2.outside assembly.path = none)) ∨
          ∃ data, stored.2.outside assembly.path = some data ∧
            result = fromMemory entry data size source) := by
  intro stored
  have cleaned : ∀ cache : Cache.State, ∃ outside,
      (if assembly.removeFails then cache else removeOutside assembly.path cache) =
        { cache with outside } := by
    intro cache
    split <;> exact ⟨_, rfl⟩
  unfold takeAssembly
  rw [show putFile lib assembly.faults assembly.path entry.hash entry.path size
    (writeOutside assembly.path content server.cache) = stored from rfl]
  generalize stored = stored
  obtain ⟨outcome, cache⟩ := stored
  obtain ⟨outside, isCleaned⟩ := cleaned cache
  cases outcome with
  | panic fault => exact .inl ⟨fault, rfl, rfl⟩
  | ok =>
    dsimp only
    rw [isCleaned]
    exact .inr ⟨_, outside, _, rfl, .inl ⟨rfl, .inl rfl⟩⟩
  | error reason =>
    right
    dsimp only
    rw [isCleaned]
    split
    · rename_i data readEq
      refine ⟨_, outside, _, rfl, .inr ⟨data, ?_, rfl⟩⟩
      split at readEq
      · cases readEq
      · exact readEq
    · rename_i readEq
      refine ⟨_, outside, _, rfl, .inl ⟨rfl, .inr ?_⟩⟩
      split at readEq
      · rename_i unreadable
        exact .inl unreadable
      · exact .inr readEq

/-! ## The response -/

/-- A result that is served leaves the files and the rows of the cache alone. -/
theorem servePackageResult_cache (result : PackageResult) (cache : Cache.State) :
    ∃ activeReaders pendingAccess,
      (servePackageResult result cache).2 = { cache with activeReaders, pendingAccess } := by
  obtain ⟨activeReaders, pendingAccess, read⟩ := get_eq result.hash cache
  unfold servePackageResult
  split
  · split
    all_goals
      rename_i getEq
      rw [getEq] at read
      cases read
      exact ⟨_, _, rfl⟩
  · exact ⟨_, _, rfl⟩

end Debswarm.Packages
