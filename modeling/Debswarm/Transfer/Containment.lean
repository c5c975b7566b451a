import Debswarm.Cache.Paths
import Debswarm.Fleet.Wire
import Debswarm.Transfer.Core

/-!
# Peers and the package directory

A remote peer makes a node look into its package cache in two ways: by asking for a
transfer, and by telling the fleet that it wants a package.  A transfer request is refused
unless its hash is a digest, whose file always lies in the package directory.  The hash of
a fleet message reaches the cache as it was sent.
-/

namespace Debswarm.Transfer

open Cache Debswarm.Path List Text

/-! ## Transfer requests -/

/-- The hash that an accepted request with a digest makes a node look up. -/
def requestLookup (accepts : Bool) (protocol : Protocol) (request : Str) : Option Str :=
  if !accepts then none
  else
    match readRequest protocol request with
    | none => none
    | some (sha256Hash, _, _) =>
      if !PackageIndex.isHex64 sha256Hash then none else some sha256Hash

theorem isHex64_of_requestLookup {accepts : Bool} {protocol : Protocol} {request hash : Str}
    (lookedUp : requestLookup accepts protocol request = some hash) :
    PackageIndex.isHex64 hash = true := by
  unfold requestLookup at lookedUp
  split at lookedUp
  · cases lookedUp
  · split at lookedUp
    · cases lookedUp
    · split at lookedUp
      · cases lookedUp
      · rename_i isDigest
        cases lookedUp
        simpa using isDigest

/-- The file of a digest lies in the package directory, wherever that is. -/
theorem comesBack_of_isHex64 {basePath sha256Hash : Str}
    (isDigest : PackageIndex.isHex64 sha256Hash = true) : ComesBack basePath sha256Hash := by
  rw [PackageIndex.isHex64, Bool.and_eq_true, decide_eq_true_eq, all_eq_true] at isDigest
  obtain ⟨long, digits⟩ := isDigest
  have noDot : 46 ∉ sha256Hash := fun mem => absurd (digits 46 mem) (by decide)
  have noSlash : 47 ∉ sha256Hash := fun mem => absurd (digits 47 mem) (by decide)
  have downward := relativePlace_of_plain (by omega) noDot noSlash
  apply comesBack_of_downward
  · rw [downward]
  · rw [downward]
    exact cons_ne_nil _ _

/-! ## What a peer sends -/

/-- What a remote peer sends: a transfer request, perhaps refused, or a fleet stream. -/
inductive Incoming
  | transfer (accepts : Bool) (protocol : Protocol) (request : Str)
  | fleet (stream : Str)
  deriving DecidableEq, Repr

namespace Incoming

/-- The hashes of the packages that the peer tells the fleet it wants. -/
def wants : Incoming → List Str
  | .transfer .. => []
  | .fleet stream => (Fleet.handleStream stream).filterMap Fleet.WireMessage.lookedUp

/-- The hashes that the node looks up in its cache on the peer's behalf. -/
def lookups : Incoming → List Str
  | .transfer accepts protocol request => (requestLookup accepts protocol request).toList
  | .fleet stream => (Fleet.handleStream stream).filterMap Fleet.WireMessage.lookedUp

/-- The files looked up for a peer lie in the package directory iff every hash that the peer wants
comes back into the directories that it climbs out of. -/
theorem lookups_inside_iff (basePath : Str) (incoming : Incoming) :
    (∀ sha256Hash ∈ incoming.lookups,
        Inside (packageDir basePath) (packagePath basePath sha256Hash)) ↔
      ∀ sha256Hash ∈ incoming.wants, ComesBack basePath sha256Hash := by
  cases incoming with
  | transfer accepts protocol request =>
    constructor
    · intro _ sha256Hash wanted
      cases wanted
    · intro _ sha256Hash lookedUp
      rw [lookups, Option.mem_toList] at lookedUp
      rw [inside_packagePath_iff]
      exact comesBack_of_isHex64 (isHex64_of_requestLookup lookedUp)
  | fleet stream =>
    simp only [lookups, wants, inside_packagePath_iff]

/-- A message from a peer that wants what lies outside of the cache. -/
def escapingWant : Fleet.WireMessage where
  type := Fleet.msgWantPackage
  nonce := 0
  hash := ofAscii "../../../../../../etc/passwd"
  size := 0
  offset := 0

/-- One fleet message makes a node look for `/etc/passwd`. -/
theorem lookups_escape_of_want :
    ∃ stream, escapingWant.encode = .ok stream ∧
      (fleet stream).lookups = [ofAscii "../../../../../../etc/passwd"] ∧
      packagePath (ofAscii "/var/cache/debswarm") (ofAscii "../../../../../../etc/passwd") =
        ofAscii "/etc/passwd" ∧
      ¬ Inside (packageDir (ofAscii "/var/cache/debswarm"))
        (packagePath (ofAscii "/var/cache/debswarm")
          (ofAscii "../../../../../../etc/passwd")) := by
  have encoded : ∃ stream, escapingWant.encode = .ok stream := ⟨_, rfl⟩
  obtain ⟨stream, sent⟩ := encoded
  have delivered : Fleet.handleStream stream = [escapingWant] :=
    Fleet.handleStream_encode (by decide) (by unfold Fleet.IsInt64; decide)
      (by unfold Fleet.IsInt64; decide) sent
  have outside : packagePath (ofAscii "/var/cache/debswarm")
      (ofAscii "../../../../../../etc/passwd") = ofAscii "/etc/passwd" := by
    decide +kernel
  refine ⟨stream, sent, ?_, outside, ?_⟩
  · rw [lookups, delivered]
    decide
  · rintro ⟨_, _, rest, _, below⟩
    rw [outside] at below
    have first : (place (ofAscii "/etc/passwd")).names.head? =
        (place (packageDir (ofAscii "/var/cache/debswarm"))).names.head? := by
      rw [below, head?_append]
      rfl
    revert first
    decide +kernel

end Incoming

end Debswarm.Transfer
