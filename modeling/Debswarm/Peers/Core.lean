import Debswarm.Table.Core
import Debswarm.Text.Bytes
import Debswarm.Transition.Run

/-!
# Peer scores

The scorer keeps statistics about peers, chooses the peers to ask, and blacklists those that
served corrupt data for some time.  A score is computed from the statistics and the time, and
cached for some minutes.

Floating-point arithmetic is left open: `Scoring` says what the scorer takes from it, with
the weighted score as an arbitrary function of the statistics and the time.  Times are
nanoseconds, and all of one operation happens at one time.
-/

namespace Debswarm.Peers

open Text Transition

universe u v

variable {π : Type u} {ν : Type v}

/-- What the scorer knows of the behaviour of a peer. -/
structure PeerStats (ν : Type v) where
  avgLatencyMs : ν
  avgThroughput : ν
  successRate : ν
  totalRequests : Int
  successCount : Int
  failureCount : Int
  bytesDownloaded : Int
  bytesUploaded : Int
  firstSeen : Int
  lastSeen : Int
  lastSuccess : Option Int
  lastFailure : Option Int
  isMDNSPeer : Bool
  deriving DecidableEq, Repr

/-- The entry of a peer. A score that is not cached has no caching time. -/
structure PeerScore (ν : Type v) extends PeerStats ν where
  blacklisted : Bool
  blacklistReason : Str
  blacklistUntil : Option Int
  cachedScore : ν
  scoreCachedAt : Option Int
  deriving DecidableEq, Repr

/-- The arithmetic of scores. -/
structure Scoring (ν : Type v) where
  zero : ν
  neutral : ν
  neutralMDNS : ν
  scoreBlacklist : ν
  atLeast : ν → ν → Bool
  ema : ν → ν → ν
  ratio : Int → Int → ν
  formula : PeerStats ν → Int → ν

/-- Scores that are whole numbers of percents. -/
def percents : Scoring Int where
  zero := 0
  neutral := 50
  neutralMDNS := 65
  scoreBlacklist := 10
  atLeast := fun score bound => bound ≤ score
  ema := fun old new => (7 * old + 3 * new) / 10
  ratio := fun part whole => 100 * part / whole
  formula := fun stats _ => stats.successRate

def minSamples : Int :=
  3

/-- A minute, in nanoseconds. -/
def minute : Nat :=
  60 * 1000000000

def day : Int :=
  24 * 60 * minute

def maxPeerAge : Int :=
  day

def scoreCacheTTL : Int :=
  5 * minute

theorem scoreCacheTTL_pos : 0 < scoreCacheTTL := by
  decide

/-- The entries of the known peers. -/
structure Scorer (π : Type u) (ν : Type v) where
  peers : Table π (PeerScore ν)

def Scorer.new : Scorer π ν :=
  ⟨Table.empty⟩

/-! ## Scores -/

/-- The entry of a peer that is seen for the first time. -/
def PeerScore.fresh (scoring : Scoring ν) (now : Int) : PeerScore ν where
  avgLatencyMs := scoring.zero
  avgThroughput := scoring.zero
  successRate := scoring.zero
  totalRequests := 0
  successCount := 0
  failureCount := 0
  bytesDownloaded := 0
  bytesUploaded := 0
  firstSeen := now
  lastSeen := now
  lastSuccess := none
  lastFailure := none
  isMDNSPeer := false
  blacklisted := false
  blacklistReason := []
  blacklistUntil := none
  cachedScore := scoring.zero
  scoreCachedAt := none

/-- Whether a time is after the end of the blacklisting. -/
def PeerScore.expired (now : Int) (peer : PeerScore ν) : Bool :=
  peer.blacklistUntil.all (· < now)

/-- Whether a time is before the end of the blacklisting. -/
def PeerScore.serving (now : Int) (peer : PeerScore ν) : Bool :=
  peer.blacklisted && peer.blacklistUntil.any (now < ·)

/-- Whether the cached score is recent enough to be used. -/
def PeerScore.hasLiveScore (now : Int) (peer : PeerScore ν) : Bool :=
  peer.scoreCachedAt.any fun cachedAt => now - cachedAt < scoreCacheTTL

/-- A recent cached score, a neutral one while there are few samples, zero while blacklisted, or
what the formula says. -/
def computeScore (scoring : Scoring ν) (now : Int) (peer : PeerScore ν) : ν :=
  if peer.hasLiveScore now then peer.cachedScore
  else if peer.totalRequests < minSamples then
    if peer.isMDNSPeer then scoring.neutralMDNS else scoring.neutral
  else if peer.serving now then scoring.zero
  else scoring.formula peer.toPeerStats now

def cacheScore (scoring : Scoring ν) (now : Int) (peer : PeerScore ν) : PeerScore ν :=
  { peer with
    cachedScore := computeScore scoring now peer
    scoreCachedAt := some now }

section Operations

variable [DecidableEq π] (scoring : Scoring ν) (now : Int)

/-- The entry of a peer, or a fresh one. -/
def getOrCreate (id : π) (scorer : Scorer π ν) :
    PeerScore ν :=
  (scorer.peers.find? id).getD (.fresh scoring now)

/-- Change the entry of a peer, which is created if it is not there. -/
def change (id : π) (update : PeerScore ν → PeerScore ν)
    (scorer : Scorer π ν) : Scorer π ν :=
  ⟨scorer.peers.set id (update (getOrCreate scoring now id scorer))⟩

/-! ## Recording -/

def PeerStats.succeed (now bytes : Int) (latencyMs throughput : ν)
    (stats : PeerStats ν) : PeerStats ν :=
  let totalRequests := stats.totalRequests + 1
  let successCount := stats.successCount + 1
  { stats with
    totalRequests, successCount
    bytesDownloaded := stats.bytesDownloaded + bytes
    lastSeen := now
    lastSuccess := some now
    avgLatencyMs :=
      if totalRequests = 1 then latencyMs else scoring.ema stats.avgLatencyMs latencyMs
    avgThroughput :=
      if totalRequests = 1 then throughput else scoring.ema stats.avgThroughput throughput
    successRate := scoring.ratio successCount totalRequests }

def PeerStats.fail (stats : PeerStats ν) : PeerStats ν :=
  let totalRequests := stats.totalRequests + 1
  { stats with
    totalRequests
    failureCount := stats.failureCount + 1
    lastSeen := now
    lastFailure := some now
    successRate := scoring.ratio stats.successCount totalRequests }

/-- Clear a blacklisting that is over. -/
def PeerScore.clearExpired (peer : PeerScore ν) : PeerScore ν :=
  if peer.blacklisted && peer.expired now then
    { peer with blacklisted := false, blacklistReason := [] }
  else peer

def recordSuccess (id : π) (bytes : Int)
    (latencyMs throughput : ν) : Scorer π ν → Scorer π ν :=
  change scoring now id fun peer =>
    let cleared := peer.clearExpired now
    cacheScore scoring now
      { cleared with
        toPeerStats := cleared.toPeerStats.succeed scoring now bytes latencyMs throughput }

def recordFailure (id : π) : Scorer π ν → Scorer π ν :=
  change scoring now id fun peer =>
    cacheScore scoring now { peer with toPeerStats := peer.toPeerStats.fail scoring now }

/-- Record bytes that were uploaded to a peer. -/
def recordUpload (id : π) (bytes : Int) :
    Scorer π ν → Scorer π ν :=
  change scoring now id fun peer =>
    { peer with bytesUploaded := peer.bytesUploaded + bytes, lastSeen := now }

/-- Blacklist a peer for some time. -/
def blacklist (id : π) (reason : Str) (duration : Int) :
    Scorer π ν → Scorer π ν :=
  change scoring now id fun peer =>
    { peer with
      blacklisted := true
      blacklistReason := reason
      blacklistUntil := some (now + duration)
      cachedScore := scoring.zero
      scoreCachedAt := some now }

/-- Mark a peer as one of the local network, which invalidates its cached score. -/
def markAsMDNSPeer (id : π) : Scorer π ν → Scorer π ν :=
  change scoring now id fun peer => { peer with isMDNSPeer := true, scoreCachedAt := none }

/-- Drop the entries of peers not seen for long, and clear blacklistings that are over. -/
def cleanup (scorer : Scorer π ν) : Nat × Scorer π ν :=
  let kept := scorer.peers.filterMap fun peer =>
    if peer.lastSeen < now - maxPeerAge then none else some (peer.clearExpired now)
  (scorer.peers.rows.length - kept.rows.length, ⟨kept⟩)

/-! ## Choosing peers -/

def isBlacklisted (id : π) (scorer : Scorer π ν) : Bool :=
  (scorer.peers.find? id).any fun peer => peer.blacklisted && !peer.expired now

/-- The score of a peer; an unknown one has a neutral score. -/
def getScore (id : π) (scorer : Scorer π ν) : ν :=
  match scorer.peers.find? id with
  | none => scoring.neutral
  | some peer => computeScore scoring now peer

/-- A peer with its addresses. -/
structure AddrInfo (π : Type u) where
  id : π
  addrs : List Str
  deriving DecidableEq, Repr

/-- How peers are sorted by score, in any order of peers with one score. -/
structure Sorter (π : Type u) (ν : Type v) where
  sort : List (AddrInfo π × ν) → List (AddrInfo π × ν)
  perm : ∀ scored, (sort scored).Perm scored

/-- The best `n` peers of a list.  A negative number panics. -/
def selectBest (sorter : Sorter π ν) (now : Int)
    (candidates : List (AddrInfo π)) (n : Int) (scorer : Scorer π ν) :
    Option (List (AddrInfo π)) :=
  if candidates = [] then some []
  else
    let scored := candidates.filterMap fun candidate =>
      if isBlacklisted now candidate.id scorer then none
      else
        let score := getScore scoring now candidate.id scorer
        if scoring.atLeast score scoring.scoreBlacklist then some (candidate, score) else none
    if n < 0 then none
    else some ((sorter.sort scored).map Prod.fst |>.take n.toNat)

/-- Every `step`-th element of a list, from the first on, up to a number. -/
def everyNth {α : Type u} (step : Nat) : Nat → List α → List α
  | 0, _ => []
  | _ + 1, [] => []
  | room + 1, first :: rest => first :: everyNth step room ((first :: rest).drop step)

/-- The best peers of a list, and some lower ranked ones. Only the doubling of `n` can wrap around:
`n` is below the number of peers where it is multiplied by seven. -/
def selectDiverse (sorter : Sorter π ν) (now : Int)
    (candidates : List (AddrInfo π)) (n : Int) (scorer : Scorer π ν) :
    Option (List (AddrInfo π)) :=
  if candidates = [] then some []
  else
    (selectBest scoring sorter now candidates ((n * 2).bmod (2 ^ 64)) scorer).map fun best =>
      if (best.length : Int) ≤ n then best
      else
        let numBest := max (n.toNat * 7 / 10) 1
        let numExplore := n.toNat - numBest
        let exploratory := best.drop numBest
        let step := max (exploratory.length / numExplore) 1
        best.take numBest ++
          if 0 < numExplore ∧ numBest < best.length then
            everyNth step (n.toNat - numBest) exploratory
          else []

/-! ## Histories -/

/-- The outcome of a transfer. -/
inductive Outcome (ν : Type v) where
  | success (bytes : Int) (latencyMs throughput : ν)
  | failure (reason : Str)

/-- Record the outcome of a transfer. -/
def record (id : π) : Outcome ν → Scorer π ν → Scorer π ν
  | .success bytes latencyMs throughput =>
    recordSuccess scoring now id bytes latencyMs throughput
  | .failure _ => recordFailure scoring now id

/-- The operations that change the scorer, and the passing of time. -/
inductive Event (π : Type u) (ν : Type v) where
  | record (id : π) (outcome : Outcome ν)
  | recordUpload (id : π) (bytes : Int)
  | blacklist (id : π) (reason : Str) (duration : Int)
  | markAsMDNSPeer (id : π)
  | cleanup
  | advance (elapsed : Nat)

/-- A scorer at a time, and the last `blacklist` call for each peer, for the statements only. -/
structure History (π : Type u) (ν : Type v) where
  clock : Int
  scorer : Scorer π ν
  sentence : π → Option (Int × Int)

/-- A new scorer. -/
def History.start (clock : Int) : History π ν where
  clock := clock
  scorer := .new
  sentence := fun _ => none

/-- One operation at the present time, or the passing of time. -/
def next (history : History π ν) : Event π ν → History π ν
  | .record id outcome =>
    { history with scorer := record scoring history.clock id outcome history.scorer }
  | .recordUpload id bytes =>
    { history with scorer := recordUpload scoring history.clock id bytes history.scorer }
  | .blacklist id reason duration =>
    { history with
      scorer := blacklist scoring history.clock id reason duration history.scorer
      sentence := Function.update history.sentence id (some (history.clock, duration)) }
  | .markAsMDNSPeer id =>
    { history with scorer := markAsMDNSPeer scoring history.clock id history.scorer }
  | .cleanup => { history with scorer := (cleanup history.clock history.scorer).2 }
  | .advance elapsed => { history with clock := history.clock + elapsed }

/-! ## What an operation does to the entries -/

theorem find?_change (id key : π)
    (update : PeerScore ν → PeerScore ν) (scorer : Scorer π ν) :
    (change scoring now id update scorer).peers.find? key =
      if key = id then some (update (getOrCreate scoring now id scorer))
      else scorer.peers.find? key :=
  scorer.peers.find?_set id key _

end Operations

@[simp]
theorem PeerScore.toPeerStats_clearExpired (now : Int) (peer : PeerScore ν) :
    (peer.clearExpired now).toPeerStats = peer.toPeerStats := by
  unfold clearExpired
  split <;> rfl

theorem hasLiveScore_cacheScore (scoring : Scoring ν) (now : Int) (peer : PeerScore ν) :
    (cacheScore scoring now peer).hasLiveScore now = true := by
  simp [cacheScore, PeerScore.hasLiveScore, scoreCacheTTL_pos]

theorem computeScore_of_hasLiveScore {scoring : Scoring ν} {now : Int} {peer : PeerScore ν}
    (live : peer.hasLiveScore now = true) : computeScore scoring now peer = peer.cachedScore :=
  if_pos live

/-! ## Scores after an outcome -/

/-- The statistics after an outcome. -/
def PeerStats.record (scoring : Scoring ν) (now : Int) (stats : PeerStats ν) :
    Outcome ν → PeerStats ν
  | .success bytes latencyMs throughput => stats.succeed scoring now bytes latencyMs throughput
  | .failure _ => stats.fail scoring now

/-- New statistics leave the cached score of an entry; a blacklisting may be over. -/
structure Refreshes (stats : PeerStats ν) (before after : PeerScore ν) : Prop where
  stats : after.toPeerStats = stats
  cachedScore : after.cachedScore = before.cachedScore
  scoreCachedAt : after.scoreCachedAt = before.scoreCachedAt

/-- Recording an outcome caches a score from the new statistics and the old cached score. -/
theorem find?_record [DecidableEq π] (scoring : Scoring ν) (now : Int) (id : π)
    (outcome : Outcome ν) (scorer : Scorer π ν) :
    ∃ entry, (record scoring now id outcome scorer).peers.find? id =
        some (cacheScore scoring now entry) ∧
      Refreshes ((getOrCreate scoring now id scorer).toPeerStats.record scoring now outcome)
        (getOrCreate scoring now id scorer) entry := by
  cases outcome with
  | success bytes latencyMs throughput =>
    refine ⟨_, (find?_change ..).trans (if_pos rfl), ?_, ?_, ?_⟩
    · simp only [PeerStats.record, PeerScore.toPeerStats_clearExpired]
    · unfold PeerScore.clearExpired
      split <;> rfl
    · unfold PeerScore.clearExpired
      split <;> rfl
  | failure reason => exact ⟨_, (find?_change ..).trans (if_pos rfl), rfl, rfl, rfl⟩

/-- A peer that is not blacklisted any more is not before the end of a blacklisting. -/
theorem not_serving_of_not_isBlacklisted [DecidableEq π] {now : Int} {id : π}
    {scorer : Scorer π ν} {peer : PeerScore ν} (found : scorer.peers.find? id = some peer)
    (free : isBlacklisted now id scorer = false) : peer.serving now = false := by
  simp only [isBlacklisted, found, Option.any_some, PeerScore.expired] at free
  unfold PeerScore.serving
  cases stopped : peer.blacklistUntil with
  | none => simp
  | some stop =>
    cases blacklisted : peer.blacklisted with
    | false => rfl
    | true =>
      simp only [blacklisted, stopped, Option.all_some, Bool.true_and, Bool.not_eq_false',
        decide_eq_true_eq] at free
      simp [free.le]

/-- Right after an outcome of a peer that is not blacklisted and has enough samples, its score is
that of the new statistics iff no recent cached score differs from it. -/
theorem getScore_record_iff [DecidableEq π] (scoring : Scoring ν) (clock : Int)
    (events : List (Event π ν)) (id : π) (outcome : Outcome ν) :
    let before := run (next scoring) (.start clock) events
    let entry := getOrCreate scoring before.clock id before.scorer
    let stats := entry.toPeerStats.record scoring before.clock outcome
    let after := next scoring before (.record id outcome)
    isBlacklisted after.clock id after.scorer = false → minSamples ≤ stats.totalRequests →
      (getScore scoring after.clock id after.scorer = scoring.formula stats after.clock ↔
        entry.hasLiveScore before.clock = false ∨
          entry.cachedScore = scoring.formula stats before.clock) := by
  intro before entry stats after free samples
  obtain ⟨fresh, found, refreshes⟩ :=
    find?_record scoring before.clock id outcome before.scorer
  have score : getScore scoring after.clock id after.scorer =
      computeScore scoring before.clock fresh := by
    simp only [getScore, after, next, found]
    exact computeScore_of_hasLiveScore (hasLiveScore_cacheScore scoring before.clock fresh)
  have notServing : fresh.serving before.clock = false := by
    have cached := not_serving_of_not_isBlacklisted found free
    exact cached
  have sameLive : fresh.hasLiveScore before.clock = entry.hasLiveScore before.clock := by
    rw [PeerScore.hasLiveScore, refreshes.scoreCachedAt]
    rfl
  rw [score, computeScore, if_neg (Int.not_lt.mpr (refreshes.stats ▸ samples)), notServing,
    if_neg Bool.false_ne_true, sameLive, refreshes.cachedScore, refreshes.stats]
  cases live : entry.hasLiveScore before.clock with
  | false | true => simp [after, next, stats, entry]

/-- Five minutes after two transfers, a third one counts. -/
theorem getScore_record_of_old_score :
    let before := run (next percents) (.start 0) [.record 7 (.success 100 10 10),
      .record 7 (.failure []), .advance (5 * minute)]
    let entry := getOrCreate percents before.clock 7 before.scorer
    let stats := entry.toPeerStats.record percents before.clock (.success 100 10 10)
    let after := next percents before (.record 7 (.success 100 10 10))
    getScore percents after.clock 7 after.scorer = percents.formula stats after.clock :=
  (getScore_record_iff percents 0 [.record 7 (.success 100 10 10), .record 7 (.failure []),
    .advance (5 * minute)] (7 : Nat) (.success 100 10 10) (by decide +kernel)
      (by decide +kernel)).mpr (.inl (by decide +kernel))

/-- After three transfers the score is still the neutral one cached with the first. -/
theorem getScore_stale_after_third_success :
    let before := run (next percents) (.start 0) [.record 7 (.success 100 10 10),
      .record 7 (.success 100 10 10)]
    let entry := getOrCreate percents before.clock 7 before.scorer
    let stats := entry.toPeerStats.record percents before.clock (.success 100 10 10)
    let after := next percents before (.record (7 : Nat) (.success 100 10 10))
    isBlacklisted after.clock 7 after.scorer = false ∧ minSamples ≤ stats.totalRequests ∧
      getScore percents after.clock 7 after.scorer = 50 ∧
      percents.formula stats after.clock = 100 := by
  decide +kernel

end Debswarm.Peers
