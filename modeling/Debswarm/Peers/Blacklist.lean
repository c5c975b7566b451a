import Debswarm.Peers.Core

/-!
# Blacklisted peers

A peer that was blacklisted at some time for some duration should not be chosen before that
duration is over, and its score should be zero.  Three things end a blacklisting early: the
cleanup drops the entry of a peer that was last seen a day ago, and the score of a peer with few
samples is neutral again once its cached score is no longer used, because it is old or because
the peer was marked as one of the local network.
-/

namespace Debswarm.Peers

open List Option Text Transition

universe u v

variable {π : Type u} {ν : Type v}

/-! ## Entries of blacklisted peers -/

/-- A blacklisted peer has a cached score of zero, or enough samples for the blacklisting to be
looked at. -/
structure Sentenced (scoring : Scoring ν) (now stop : Int) (peer : PeerScore ν) : Prop where
  blacklisted : peer.blacklisted = true
  untilStop : peer.blacklistUntil = some stop
  zero : peer.hasLiveScore now = true → peer.cachedScore = scoring.zero
  known : peer.hasLiveScore now = true ∨ minSamples ≤ peer.totalRequests

namespace Sentenced

variable {scoring : Scoring ν} {now stop : Int} {peer : PeerScore ν}

section

variable (sentenced : Sentenced scoring now stop peer) (before : now < stop)

include sentenced before

theorem not_expired : peer.expired now = false := by
  simp [PeerScore.expired, sentenced.untilStop, before.le]

theorem serving : peer.serving now = true := by
  simp [PeerScore.serving, sentenced.blacklisted, sentenced.untilStop, before]

theorem computeScore_eq : computeScore scoring now peer = scoring.zero := by
  by_cases live : peer.hasLiveScore now = true
  · rw [computeScore_of_hasLiveScore live, sentenced.zero live]
  · have samples : ¬ peer.totalRequests < minSamples :=
      Int.not_lt.mpr (sentenced.known.resolve_left live)
    simp only [computeScore, if_neg live, if_neg samples, if_pos (sentenced.serving before)]

theorem clearExpired_eq : peer.clearExpired now = peer := by
  simp [PeerScore.clearExpired, sentenced.not_expired before]

end

theorem of_stats (sentenced : Sentenced scoring now stop peer) {stats : PeerStats ν}
    (grown : peer.totalRequests ≤ stats.totalRequests) :
    Sentenced scoring now stop { peer with toPeerStats := stats } where
  blacklisted := sentenced.blacklisted
  untilStop := sentenced.untilStop
  zero := sentenced.zero
  known := sentenced.known.imp_right grown.trans'

theorem cacheScore (sentenced : Sentenced scoring now stop peer) (before : now < stop) :
    Sentenced scoring now stop (cacheScore scoring now peer) where
  blacklisted := sentenced.blacklisted
  untilStop := sentenced.untilStop
  zero := fun _ => sentenced.computeScore_eq before
  known := .inl (hasLiveScore_cacheScore scoring now peer)

end Sentenced

theorem PeerScore.hasLiveScore_of_later {now : Int} {elapsed : Nat} {peer : PeerScore ν}
    (live : peer.hasLiveScore (now + elapsed) = true) : peer.hasLiveScore now = true := by
  unfold hasLiveScore at live ⊢
  cases cached : peer.scoreCachedAt with
  | none => simp [cached] at live
  | some cachedAt =>
    simp only [cached, any_some, decide_eq_true_eq] at live ⊢
    omega

/-! ## One operation -/

variable {id other : π} {scorer : Scorer π ν} {history : History π ν}

section Operations

variable [DecidableEq π]

/-- The scorer has an entry for a peer that is blacklisted until a time. -/
def Listed (scoring : Scoring ν) (id : π) (now stop : Int) (scorer : Scorer π ν) : Prop :=
  ∃ peer, scorer.peers.find? id = some peer ∧ Sentenced scoring now stop peer

section

variable {scoring : Scoring ν} {now stop : Int} (listed : Listed scoring id now stop scorer)

include listed

/-- An operation on one entry keeps a blacklisting if the change of that entry does. -/
theorem Listed.change {update : PeerScore ν → PeerScore ν}
    (kept : ∀ peer, scorer.peers.find? id = some peer → other = id →
      Sentenced scoring now stop peer → Sentenced scoring now stop (update peer)) :
    Listed scoring id now stop (change scoring now other update scorer) := by
  obtain ⟨peer, found, sentenced⟩ := listed
  unfold Listed
  rw [find?_change]
  by_cases same : id = other
  · subst same
    rw [if_pos rfl, getOrCreate, found, getD_some]
    exact ⟨_, rfl, kept peer found rfl sentenced⟩
  · rw [if_neg same]
    exact ⟨peer, found, sentenced⟩

theorem Listed.record (before : now < stop) (outcome : Outcome ν) :
    Listed scoring id now stop (record scoring now other outcome scorer) := by
  cases outcome with
  | success bytes latencyMs throughput =>
    apply listed.change
    intro peer _ _ sentenced
    simp only [sentenced.clearExpired_eq before]
    exact (sentenced.of_stats (Int.le_add_of_nonneg_right (by decide))).cacheScore before
  | failure reason =>
    apply listed.change
    intro peer _ _ sentenced
    exact (sentenced.of_stats (Int.le_add_of_nonneg_right (by decide))).cacheScore before

theorem Listed.recordUpload (bytes : Int) :
    Listed scoring id now stop (recordUpload scoring now other bytes scorer) :=
  listed.change fun _ _ _ sentenced => sentenced.of_stats le_rfl

end

/-! ## Histories -/

/-- No cleanup finds the entry old, and the peer is marked as local, or its cached score expires,
only with enough samples. -/
def Spares (id : π) (history : History π ν) : Event π ν → Prop
  | .cleanup => ∀ peer ∈ history.scorer.peers.find? id,
      peer.serving history.clock = true → history.clock - maxPeerAge ≤ peer.lastSeen
  | .markAsMDNSPeer other => other = id → ∀ peer ∈ history.scorer.peers.find? id,
      peer.serving history.clock = true → minSamples ≤ peer.totalRequests
  | .advance elapsed => ∀ peer ∈ history.scorer.peers.find? id,
      peer.serving (history.clock + elapsed) = true →
        peer.hasLiveScore (history.clock + elapsed) = true ∨ minSamples ≤ peer.totalRequests
  | _ => True

instance (id : π) (history : History π ν) (event : Event π ν) :
    Decidable (Spares id history event) := by
  cases event <;> unfold Spares <;> infer_instance

/-- A blacklisting of a peer that is not over is in the peer's entry. -/
def Enforced (scoring : Scoring ν) (id : π) (history : History π ν) : Prop :=
  ∀ start duration, history.sentence id = some (start, duration) →
    history.clock < start + duration →
      Listed scoring id history.clock (start + duration) history.scorer

section

variable {scoring : Scoring ν} (enforced : Enforced scoring id history)

include enforced

theorem Enforced.blacklist (other : π) (reason : Str) (duration : Int) :
    Enforced scoring id (next scoring history (.blacklist other reason duration)) := by
  intro start served sentence before
  simp only [next, Function.update_apply] at sentence before ⊢
  by_cases same : id = other
  · subst same
    rw [if_pos rfl] at sentence
    cases sentence
    refine ⟨_, (find?_change ..).trans (if_pos rfl), ⟨rfl, rfl, fun _ => rfl, .inl ?_⟩⟩
    simp [PeerScore.hasLiveScore, scoreCacheTTL_pos]
  · rw [if_neg same] at sentence
    exact (enforced start served sentence before).change fun _ _ otherwise _ =>
      absurd otherwise.symm same

theorem Enforced.cleanup (spares : Spares id history .cleanup) :
    Enforced scoring id (next scoring history .cleanup) := by
  intro start duration sentence before
  obtain ⟨peer, found, sentenced⟩ := enforced start duration sentence before
  have young := spares peer found (sentenced.serving before)
  refine ⟨peer, ?_, sentenced⟩
  simp only [next, Peers.cleanup, Table.find?_filterMap, found, bind_some,
    if_neg (Int.not_lt.mpr young)]
  rw [sentenced.clearExpired_eq before]

theorem Enforced.advance {elapsed : Nat} (spares : Spares id history (.advance elapsed)) :
    Enforced scoring id (next scoring history (.advance elapsed)) := by
  intro start duration sentence before
  simp only [next] at before
  obtain ⟨peer, found, sentenced⟩ := enforced start duration sentence (by omega)
  refine ⟨peer, found, sentenced.blacklisted, sentenced.untilStop, fun live => ?_, ?_⟩
  · exact sentenced.zero (PeerScore.hasLiveScore_of_later live)
  · apply spares peer found
    simp [PeerScore.serving, sentenced.blacklisted, sentenced.untilStop, before]

/-- Every operation that spares a peer keeps its blacklisting in its entry. -/
theorem Enforced.next {event : Event π ν} (spares : Spares id history event) :
    Enforced scoring id (next scoring history event) := by
  cases event with
  | record other outcome =>
    intro start duration sentence before
    exact (enforced start duration sentence before).record before outcome
  | recordUpload other bytes =>
    intro start duration sentence before
    exact (enforced start duration sentence before).recordUpload bytes
  | blacklist other reason duration => exact enforced.blacklist other reason duration
  | markAsMDNSPeer other =>
    intro start duration sentence before
    apply (enforced start duration sentence before).change
    intro peer found same sentenced
    have samples := spares same peer found (sentenced.serving before)
    exact ⟨sentenced.blacklisted, sentenced.untilStop, fun live => Bool.noConfusion live,
      .inr samples⟩
  | cleanup => exact enforced.cleanup spares
  | advance elapsed => exact enforced.advance spares

end

/-! ## Choices -/

/-- The chosen peers are candidates that are not blacklisted. -/
theorem not_isBlacklisted_of_mem_selectBest {scoring : Scoring ν} {sorter : Sorter π ν} {now : Int}
    {candidates chosen : List (AddrInfo π)} {n : Int}
    (selected : selectBest scoring sorter now candidates n scorer = some chosen) {info : AddrInfo π}
    (mem : info ∈ chosen) : isBlacklisted now info.id scorer = false := by
  simp only [selectBest] at selected
  split at selected
  · cases selected
    cases mem
  · split at selected
    · cases selected
    · cases selected
      obtain ⟨scored, scoredMem, rfl⟩ := mem_map.mp (mem_of_mem_take mem)
      rw [(sorter.perm _).mem_iff, mem_filterMap] at scoredMem
      obtain ⟨candidate, -, made⟩ := scoredMem
      by_cases listed : isBlacklisted now candidate.id scorer = true
      · rw [if_pos listed] at made
        cases made
      · rw [if_neg listed] at made
        simp only [ite_none_right_eq_some, some.injEq] at made
        obtain ⟨-, rfl⟩ := made
        exact eq_false_of_ne_true listed

theorem everyNth_sublist {α : Type u} {step : Nat} (positive : 1 ≤ step) (room : Nat)
    (list : List α) : (everyNth step room list).Sublist list := by
  induction room generalizing list with
  | zero => exact nil_sublist _
  | succ room ih =>
    cases list with
    | nil => exact nil_sublist _
    | cons first rest =>
      refine ((ih _).trans ?_).cons_cons first
      obtain ⟨step, rfl⟩ := Nat.exists_eq_add_of_lt positive
      rw [Nat.zero_add, drop_succ_cons]
      exact drop_sublist ..

/-- A diverse choice is made among the best peers. -/
theorem selectDiverse_subset_selectBest {scoring : Scoring ν} {sorter : Sorter π ν} {now : Int}
    {candidates chosen : List (AddrInfo π)} {n : Int}
    (selected : selectDiverse scoring sorter now candidates n scorer = some chosen) :
    ∃ best, selectBest scoring sorter now candidates ((n * 2).bmod (2 ^ 64)) scorer = some best ∧
      chosen ⊆ best := by
  unfold selectDiverse at selected
  split at selected
  next none => exact ⟨[], by rw [selectBest, if_pos none], by cases selected; simp⟩
  next =>
    obtain ⟨best, isBest, made⟩ := map_eq_some_iff.mp selected
    refine ⟨best, isBest, ?_⟩
    intro info mem
    subst made
    split at mem
    · exact mem
    · rcases mem_append.mp mem with top | lower
      · exact mem_of_mem_take top
      · split at lower
        · exact mem_of_mem_drop ((everyNth_sublist (le_max_right ..) ..).mem lower)
        · cases lower

/-! ## The blacklisting is effective -/

/-- During a blacklisting, the peer is blacklisted, its score is zero, and it is not chosen. -/
def Shunned (scoring : Scoring ν) (id : π) (history : History π ν) : Prop :=
  ∀ start duration, history.sentence id = some (start, duration) →
    start < history.clock → history.clock < start + duration →
      isBlacklisted history.clock id history.scorer = true ∧
      getScore scoring history.clock id history.scorer = scoring.zero ∧
      ∀ (sorter : Sorter π ν) (candidates : List (AddrInfo π)) (n : Int),
        (∀ chosen, selectBest scoring sorter history.clock candidates n history.scorer =
          some chosen → ∀ info ∈ chosen, info.id ≠ id) ∧
        (∀ chosen, selectDiverse scoring sorter history.clock candidates n history.scorer =
          some chosen → ∀ info ∈ chosen, info.id ≠ id)

theorem Enforced.shunned {scoring : Scoring ν} (enforced : Enforced scoring id history) :
    Shunned scoring id history := by
  intro start duration sentence _ before
  obtain ⟨peer, found, sentenced⟩ := enforced start duration sentence before
  have listed : isBlacklisted history.clock id history.scorer = true := by
    simp [isBlacklisted, found, sentenced.blacklisted, sentenced.not_expired before]
  refine ⟨listed, ?_, fun sorter candidates n => ⟨?_, ?_⟩⟩
  · rw [getScore, found]
    exact sentenced.computeScore_eq before
  · rintro chosen selected info mem rfl
    rw [not_isBlacklisted_of_mem_selectBest selected mem] at listed
    cases listed
  · rintro chosen selected info mem rfl
    obtain ⟨best, isBest, subset⟩ := selectDiverse_subset_selectBest selected
    rw [not_isBlacklisted_of_mem_selectBest isBest (subset mem)] at listed
    cases listed

/-- In every history whose steps spare a peer, its blacklistings are effective until their
end. -/
theorem shunned_of_stepsMeet_spares (scoring : Scoring ν) (id : π) (clock : Int)
    (events : List (Event π ν))
    (spared : StepsMeet (next scoring) (Spares id) (.start clock) events) :
    Shunned scoring id (run (next scoring) (.start clock) events) := by
  refine Enforced.shunned (run_invariant_of_stepsMeet (Enforced scoring id) ?_ ?_ spared)
  · intro history event enforced spares
    exact enforced.next spares
  · intro start duration sentence
    cases sentence

end Operations

/-! ## Histories that end a blacklisting early -/

/-- A peer with three transfers is blacklisted for a day, and entries are cleaned up every hour. -/
def sparedHistory : List (Event Nat Int) :=
  [.record 7 (.success 100 10 10), .record 7 (.success 100 10 10),
    .record 7 (.success 100 10 10), .blacklist 7 [] day, .advance (60 * minute), .cleanup,
    .record 7 (.failure []), .advance (60 * minute), .cleanup]

theorem shunned_after_sparedHistory :
    Shunned percents 7 (run (next percents) (.start 0) sparedHistory) ∧
      (run (next percents) (.start 0) sparedHistory).sentence 7 = some (0, day) ∧
      (run (next percents) (.start 0) sparedHistory).clock = 2 * 60 * minute :=
  ⟨shunned_of_stepsMeet_spares percents 7 0 sparedHistory (by decide +kernel),
    by decide +kernel, by decide +kernel⟩

/-- A peer is blacklisted a day after its only use, and the next cleanup drops its entry. -/
def forgottenHistory : List (Event Nat Int) :=
  [.record 7 (.success 100 10 10), .advance (24 * 60 * minute), .blacklist 7 [] day,
    .advance minute, .cleanup]

theorem not_shunned_after_forgottenHistory :
    ¬ Shunned percents 7 (run (next percents) (.start 0) forgottenHistory) := by
  intro shunned
  have listed := (shunned day day (by decide +kernel) (by decide +kernel) (by decide +kernel)).1
  have notListed : isBlacklisted (run (next percents) (.start 0) forgottenHistory).clock 7
      (run (next percents) (.start 0) forgottenHistory).scorer = false := by
    decide +kernel
  rw [notListed] at listed
  cases listed

end Debswarm.Peers
