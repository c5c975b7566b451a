import Debswarm.Table.Core
import Debswarm.Transition.Run
import Mathlib.Logic.Function.Basic

/-!
# Per-peer rate limiters

The manager keeps one limiter per peer in a map.  A transfer asks for its peer's limiter when
it starts and holds on to it until it ends, while a ticker drops the limiters that no transfer
has asked for lately.  Limiters are numbered in the order they are made, so that two of one
peer can be told apart.
-/

namespace Debswarm.Ratelimit

open Function Table Transition

universe u

structure PeerLimiterConfig where
  globalLimit : Int
  perPeerLimit : Int
  expectedPeers : Int
  minPeerLimit : Int
  adaptiveEnabled : Bool
  idleTimeout : Int

def defaultExpectedPeers : Int := 10

/-- Thirty seconds in nanoseconds. -/
def defaultIdleTimeout : Int := 30000000000

structure PeerLimiter (π : Type u) where
  peerID : π
  burst : Int
  currentLimit : Int
  baseLimit : Int
  lastAccess : Int

/-- A transfer is not under way, inside `GetLimiter`, or holds what it returned. -/
inductive Transfer (π : Type u)
  | idle
  | found (peer : π) (limiter : Nat)
  | missing (peer : π)
  | running (peer : π) (limiter : Option Nat)

/-- The manager, the limiters it has made and the transfers of its callers. -/
structure Manager (π : Type u) where
  perPeerLimit : Int
  idleTimeout : Int
  adaptiveEnabled : Bool
  peerLimiters : Table π Nat
  made : List (PeerLimiter π)
  transfers : Nat → Transfer π

section Model

variable {π : Type u} [DecidableEq π]

def newPeerLimiterManager (cfg : PeerLimiterConfig) (hasScorer : Bool) : Manager π :=
  let expectedPeers := if cfg.expectedPeers ≤ 0 then defaultExpectedPeers else cfg.expectedPeers
  let perPeerLimit :=
    if cfg.perPeerLimit = 0 ∧ 0 < cfg.globalLimit then cfg.globalLimit.tdiv expectedPeers
    else cfg.perPeerLimit
  { perPeerLimit :=
      if 0 < perPeerLimit ∧ perPeerLimit < cfg.minPeerLimit then cfg.minPeerLimit
      else perPeerLimit
    idleTimeout := if cfg.idleTimeout ≤ 0 then defaultIdleTimeout else cfg.idleTimeout
    adaptiveEnabled := cfg.adaptiveEnabled && hasScorer
    peerLimiters := empty
    made := []
    transfers := fun _ => .idle }

def Manager.enabled (manager : Manager π) : Bool :=
  0 < manager.perPeerLimit

def calculateBurst (bytesPerSecond : Int) : Int :=
  if bytesPerSecond ≤ 0 then 64 * 1024
  else min (max bytesPerSecond (64 * 1024)) (4 * 1024 * 1024)

section

variable (manager : Manager π)

/-- `adjusted` is what the peer's score makes of the base limit. -/
def calculatePeerLimit (adjusted : Int) : Int :=
  if manager.perPeerLimit ≤ 0 then 0
  else if manager.adaptiveEnabled then adjusted
  else manager.perPeerLimit

def Manager.setTransfer (caller : Nat) (transfer : Transfer π) :
    Manager π :=
  { manager with transfers := update manager.transfers caller transfer }

/-- A transfer that held the limiter is handed it, and the time is noted. -/
def Manager.touch (caller : Nat) (peer : π) (limiter : Nat) (now : Int) :
    Manager π :=
  { manager with
    made := manager.made.modify limiter fun old => { old with lastAccess := now }
    transfers := update manager.transfers caller (.running peer (some limiter)) }

/-- The fast path of `GetLimiter` up to the release of the read lock. -/
def lookUp (caller : Nat) (peer : π) : Manager π :=
  if !manager.enabled then manager.setTransfer caller (.running peer none)
  else
    match manager.peerLimiters.find? peer with
    | some limiter => manager.setTransfer caller (.found peer limiter)
    | none => manager.setTransfer caller (.missing peer)

/-- The slow path of `GetLimiter` under the write lock. -/
def create (caller : Nat) (peer : π) (now adjusted : Int) : Manager π :=
  match manager.peerLimiters.find? peer with
  | some limiter => manager.touch caller peer limiter now
  | none =>
    let limit := calculatePeerLimit manager adjusted
    { manager with
      peerLimiters := manager.peerLimiters.set peer manager.made.length
      made := manager.made ++ [⟨peer, calculateBurst limit, limit, manager.perPeerLimit, now⟩]
      transfers :=
        update manager.transfers caller (.running peer (some manager.made.length)) }

/-- Whether a cleanup at `now` finds the limiter idle. -/
def Manager.isIdle (now : Int) (limiter : Nat) : Bool :=
  manager.made[limiter]?.any fun pl => pl.lastAccess < now - manager.idleTimeout

def cleanupIdleLimiters (now : Int) : Manager π :=
  { manager with
    peerLimiters := manager.peerLimiters.filterMap fun limiter =>
      if manager.isIdle now limiter then none else some limiter }

end

/-- What callers and tickers do, a section under the manager's lock being one event. -/
inductive Event (π : Type u)
  | start (caller : Nat) (peer : π)
  | touch (caller : Nat) (now : Int)
  | create (caller : Nat) (now adjusted : Int)
  | finish (caller : Nat)
  | cleanup (now : Int)
  | recalculate (limiter : Nat) (newLimit : Int)

def next (manager : Manager π) : Event π → Manager π
  | .start caller peer =>
    match manager.transfers caller with
    | .idle => lookUp manager caller peer
    | _ => manager
  | .touch caller now =>
    match manager.transfers caller with
    | .found peer limiter => manager.touch caller peer limiter now
    | _ => manager
  | .create caller now adjusted =>
    match manager.transfers caller with
    | .missing peer => create manager caller peer now adjusted
    | _ => manager
  | .finish caller =>
    match manager.transfers caller with
    | .running _ _ => manager.setTransfer caller .idle
    | _ => manager
  | .cleanup now => cleanupIdleLimiters manager now
  | .recalculate limiter newLimit =>
    { manager with
      made := manager.made.modify limiter fun old => { old with currentLimit := newLimit } }

/-! ## Limiters in use -/

/-- The peer of a transfer and the limiter that it has found or was handed. -/
def Transfer.uses : Transfer π → Option (π × Nat)
  | .found peer limiter => some (peer, limiter)
  | .running peer (some limiter) => some (peer, limiter)
  | _ => none

/-- The limiter that a transfer to the peer finds, if there is one. -/
def Manager.limiterOf (manager : Manager π) (peer : π) : Option Nat :=
  if manager.enabled then manager.peerLimiters.find? peer else none

/-- A transfer uses the limiter that the map has for its peer. -/
def Transfer.Fits (manager : Manager π) : Transfer π → Prop
  | .idle => True
  | .found peer limiter => manager.limiterOf peer = some limiter
  | .missing _ => manager.enabled = true
  | .running peer (some limiter) => manager.limiterOf peer = some limiter
  | .running _ none => manager.enabled = false

def UsesMapped (manager : Manager π) : Prop :=
  ∀ caller, (manager.transfers caller).Fits manager

/-- A cleanup spares the limiters that transfers use. -/
def SparesUsed (manager : Manager π) : Event π → Prop
  | .cleanup now => ∀ caller peer limiter,
      (manager.transfers caller).uses = some (peer, limiter) → manager.isIdle now limiter = false
  | _ => True

variable {manager after : Manager π}

theorem Transfer.Fits.of_kept {transfer : Transfer π} (fits : transfer.Fits manager)
    (sameEnabled : after.enabled = manager.enabled)
    (kept : ∀ peer limiter, transfer.uses = some (peer, limiter) →
      manager.limiterOf peer = some limiter → after.limiterOf peer = some limiter) :
    transfer.Fits after := by
  cases transfer with
  | idle => trivial
  | found peer limiter => exact kept peer limiter rfl fits
  | missing peer => exact sameEnabled.trans fits
  | running peer limiter =>
    cases limiter with
    | none => exact sameEnabled.trans fits
    | some limiter => exact kept peer limiter rfl fits

/-- A change to one transfer that keeps the map's limiters. -/
theorem usesMapped_update (mapped : UsesMapped manager) {caller : Nat} {transfer : Transfer π}
    (transfers : after.transfers = update manager.transfers caller transfer)
    (sameEnabled : after.enabled = manager.enabled)
    (kept : ∀ peer limiter, manager.limiterOf peer = some limiter →
      after.limiterOf peer = some limiter)
    (own : transfer.Fits after) : UsesMapped after := by
  intro other
  rw [transfers]
  by_cases same : other = caller
  · rw [same, update_self]
    exact own
  · rw [update_of_ne same]
    exact (mapped other).of_kept sameEnabled fun peer limiter _ => kept peer limiter

theorem usesMapped_setTransfer (mapped : UsesMapped manager) (caller : Nat) {transfer : Transfer π}
    (own : transfer.Fits manager) : UsesMapped (manager.setTransfer caller transfer) := by
  refine usesMapped_update mapped rfl rfl (fun _ _ isMapped => isMapped) ?_
  exact own.of_kept rfl fun _ _ _ isMapped => isMapped

theorem usesMapped_touch (mapped : UsesMapped manager) (caller : Nat) {peer : π} {limiter : Nat}
    (own : manager.limiterOf peer = some limiter) (now : Int) :
    UsesMapped (manager.touch caller peer limiter now) :=
  usesMapped_update mapped rfl rfl (fun _ _ isMapped => isMapped) own

theorem limiterOf_of_enabled (enabled : manager.enabled = true) (peer : π) :
    manager.limiterOf peer = manager.peerLimiters.find? peer :=
  if_pos enabled

theorem usesMapped_lookUp (mapped : UsesMapped manager) (caller : Nat) (peer : π) :
    UsesMapped (lookUp manager caller peer) := by
  unfold lookUp
  split
  · rename_i disabled
    have isDisabled : manager.enabled = false := by simpa using disabled
    exact usesMapped_setTransfer mapped caller isDisabled
  · rename_i notDisabled
    have enabled : manager.enabled = true := by simpa using notDisabled
    split
    · rename_i found
      exact usesMapped_setTransfer mapped caller ((limiterOf_of_enabled enabled peer).trans found)
    · exact usesMapped_setTransfer mapped caller enabled

/-- A limiter is made only where the map has none, so nobody uses another one of the peer. -/
theorem usesMapped_create (mapped : UsesMapped manager) (enabled : manager.enabled = true)
    (caller : Nat) (peer : π) (now adjusted : Int) :
    UsesMapped (create manager caller peer now adjusted) := by
  unfold create
  split
  · rename_i found
    exact usesMapped_touch mapped caller ((limiterOf_of_enabled enabled peer).trans found) now
  · rename_i absent
    refine usesMapped_update mapped rfl rfl ?_ ?_
    · intro other limiter isMapped
      rw [limiterOf_of_enabled enabled] at isMapped
      refine (if_pos enabled).trans ?_
      rw [find?_set, if_neg, isMapped]
      rintro rfl
      cases absent.symm.trans isMapped
    · refine (if_pos enabled).trans ?_
      rw [find?_set, if_pos rfl]

theorem usesMapped_cleanup (mapped : UsesMapped manager) {now : Int}
    (spares : SparesUsed manager (.cleanup now)) :
    UsesMapped (cleanupIdleLimiters manager now) := by
  intro caller
  refine (mapped caller).of_kept rfl fun peer limiter uses isMapped => ?_
  have enabled : manager.enabled = true := by
    by_contra disabled
    cases (if_neg disabled : manager.limiterOf peer = none).symm.trans isMapped
  rw [limiterOf_of_enabled enabled] at isMapped
  refine (if_pos enabled).trans ?_
  rw [cleanupIdleLimiters, find?_filterMap, isMapped, Option.bind_some,
    spares caller peer limiter uses]
  rfl

/-- Every event but a cleanup of a limiter in use keeps the map's limiters in use. -/
theorem usesMapped_next (manager : Manager π) (event : Event π) (mapped : UsesMapped manager)
    (spares : SparesUsed manager event) : UsesMapped (next manager event) := by
  cases event with
  | start caller peer =>
    simp only [next]
    split
    · exact usesMapped_lookUp mapped caller peer
    · exact mapped
  | touch caller now =>
    have fits := mapped caller
    simp only [next]
    split
    · rename_i isFound
      rw [isFound] at fits
      exact usesMapped_touch mapped caller fits now
    · exact mapped
  | create caller now adjusted =>
    have fits := mapped caller
    simp only [next]
    split
    · rename_i peer isMissing
      rw [isMissing] at fits
      exact usesMapped_create mapped fits caller peer now adjusted
    · exact mapped
  | finish caller =>
    simp only [next]
    split
    · exact usesMapped_setTransfer mapped caller trivial
    · exact mapped
  | cleanup now => exact usesMapped_cleanup mapped spares
  | recalculate limiter newLimit =>
    exact fun caller => (mapped caller).of_kept rfl fun _ _ _ isMapped => isMapped

/-- While no cleanup drops a limiter in use, simultaneous transfers to a peer share it. -/
theorem limiter_eq_of_sparesUsed (cfg : PeerLimiterConfig) (hasScorer : Bool)
    {events : List (Event π)}
    (spares : StepsMeet next SparesUsed (newPeerLimiterManager cfg hasScorer) events)
    (first second : Nat) {peer : π} {firstLimiter secondLimiter : Option Nat}
    (firstRuns : (run next (newPeerLimiterManager cfg hasScorer) events).transfers first =
      .running peer firstLimiter)
    (secondRuns : (run next (newPeerLimiterManager cfg hasScorer) events).transfers second =
      .running peer secondLimiter) :
    firstLimiter = secondLimiter := by
  have mapped := run_invariant_of_stepsMeet UsesMapped usesMapped_next
    (show UsesMapped (newPeerLimiterManager cfg hasScorer) from fun _ => trivial) spares
  have firstFits := mapped first
  have secondFits := mapped second
  rw [firstRuns] at firstFits
  rw [secondRuns] at secondFits
  cases firstLimiter with
  | none =>
    cases secondLimiter with
    | none => rfl
    | some limiter =>
      have disabled : Manager.limiterOf _ peer = none := if_neg (Bool.eq_false_iff.mp firstFits)
      cases disabled.symm.trans secondFits
  | some limiter =>
    cases secondLimiter with
    | none =>
      have disabled : Manager.limiterOf _ peer = none := if_neg (Bool.eq_false_iff.mp secondFits)
      cases disabled.symm.trans firstFits
    | some other => exact firstFits.symm.trans secondFits

end Model

/-! ## A transfer longer than the idle timeout -/

def longTransferConfig : PeerLimiterConfig := ⟨0, 1024, 10, 0, false, 30⟩

/-- A transfer is in progress when the cleanup runs and another one to the peer starts. -/
def longTransfer : List (Event Nat) :=
  [.start 0 7, .create 0 0 0, .cleanup 31, .start 1 7, .create 1 31 0]

/-- Two transfers to one peer with a limiter each. -/
theorem limiters_differ_of_longTransfer :
    let manager := run next (newPeerLimiterManager longTransferConfig false) longTransfer
    manager.transfers 0 = .running 7 (some 0) ∧ manager.transfers 1 = .running 7 (some 1) :=
  ⟨rfl, rfl⟩

/-- A second transfer within the idle timeout shares the limiter of the first. -/
theorem limiter_shared_within_timeout :
    let events : List (Event Nat) :=
      [.start 0 7, .create 0 0 0, .cleanup 30, .start 1 7, .touch 1 31]
    let manager := run next (newPeerLimiterManager longTransferConfig false) events
    StepsMeet next SparesUsed (newPeerLimiterManager longTransferConfig false) events ∧
      manager.transfers 0 = .running 7 (some 0) ∧ manager.transfers 1 = .running 7 (some 0) ∧
      (some 0 : Option Nat) = some 0 := by
  have spares : StepsMeet next SparesUsed (newPeerLimiterManager longTransferConfig false)
      ([.start 0 7, .create 0 0 0, .cleanup 30, .start 1 7, .touch 1 31] : List (Event Nat)) := by
    refine ⟨trivial, trivial, ?_, trivial, trivial, trivial⟩
    intro caller peer limiter uses
    cases caller with
    | zero => cases uses; rfl
    | succ caller => cases uses
  exact ⟨spares, rfl, rfl, limiter_eq_of_sparesUsed longTransferConfig false spares 0 1
    rfl rfl⟩

end Debswarm.Ratelimit
