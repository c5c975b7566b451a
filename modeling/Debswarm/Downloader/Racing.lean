import Debswarm.Downloader.Fetch
import Mathlib.Data.List.Perm.Basic

/-!
# Who wins a race

Every source of a race answers once, in any order.  The collector counts the answers and
gives up with the last one, so no failure and no wrong bytes keep a later good answer from
winning.  Only wrong bytes that came before the winner are held against a peer.
-/

namespace Debswarm.Downloader

open List Text

variable {lib : Libraries} {expectedHash : Str}

/-- An answer with the expected bytes. -/
def Answer.isRight (lib : Libraries) (expectedHash : Str) (answer : Answer) : Bool :=
  match answer.outcome with
  | .error _ => false
  | .ok data => lib.sha256 data = expectedHash

/-- An answer with other bytes. -/
def Answer.isWrong (lib : Libraries) (expectedHash : Str) (answer : Answer) : Bool :=
  match answer.outcome with
  | .error _ => false
  | .ok data => lib.sha256 data ≠ expectedHash

/-- The answers that come before the winner, or all of them without a winner. -/
def beforeWinner (lib : Libraries) (expectedHash : Str) (answers : List Answer) : List Answer :=
  answers.takeWhile fun answer => !answer.isRight lib expectedHash

/-- The sources that race. -/
def racing (peers : List Str) (mirror : Bool) : List Source :=
  peers.map Source.peer ++ if mirror then [.mirror] else []

@[simp]
theorem length_racing (peers : List Str) (mirror : Bool) :
    (racing peers mirror).length = peers.length + if mirror then 1 else 0 := by
  cases mirror <;> simp [racing]

/-! ## Collecting -/

theorem beforeWinner_cons {answer : Answer} {rest : List Answer}
    (notRight : answer.isRight lib expectedHash = false) :
    beforeWinner lib expectedHash (answer :: rest) =
      answer :: beforeWinner lib expectedHash rest := by
  simp [beforeWinner, notRight]

section

variable {racers received : Nat} {answers : List Answer}
  (outstanding : received + answers.length = racers)

include outstanding

/-- While answers are outstanding, a race is won exactly when one of them is right. -/
theorem collectAnswers_ok_iff :
    (∃ result, (collectAnswers lib expectedHash racers received answers).1 = .ok result) ↔
      ∃ answer ∈ answers, answer.isRight lib expectedHash = true := by
  induction answers generalizing received with
  | nil => simp [collectAnswers]
  | cons answer rest ih =>
    rw [length_cons] at outstanding
    have later := @ih (received + 1) (by omega)
    rw [exists_mem_cons_iff, ← later]
    -- The count ends the race with the last answer and not before.
    have last : racers ≤ received + 1 → rest = [] := fun ended =>
      length_eq_zero_iff.mp (by omega)
    rcases answer with ⟨source, message | data⟩
    · simp only [collectAnswers, Answer.isRight, Bool.false_eq_true, false_or]
      split
      · rename_i ended
        simp [last ended, collectAnswers]
      · rfl
    · by_cases right : lib.sha256 data = expectedHash
      · simp [collectAnswers, Answer.isRight, right]
      · simp only [collectAnswers, Answer.isRight, right, decide_false, Bool.false_eq_true,
          false_or, ne_eq, not_false_eq_true, if_true]
        split
        · rename_i ended
          simp [last ended, collectAnswers]
        · rfl

/-- What a race holds against peers: the wrong answers before the winner. -/
theorem collectAnswers_blacklist :
    (collectAnswers lib expectedHash racers received answers).2 =
      ((beforeWinner lib expectedHash answers).filter fun answer =>
        answer.isWrong lib expectedHash).flatMap fun answer => answer.source.blamed := by
  induction answers generalizing received with
  | nil => rfl
  | cons answer rest ih =>
    rw [length_cons] at outstanding
    have later := @ih (received + 1) (by omega)
    have last : racers ≤ received + 1 → rest = [] := fun ended =>
      length_eq_zero_iff.mp (by omega)
    rcases answer with ⟨source, message | data⟩
    · have spared : Answer.isWrong lib expectedHash ⟨source, .error message⟩ = false := rfl
      rw [beforeWinner_cons rfl, filter_cons_of_neg (by simp [spared]), ← later]
      simp only [collectAnswers]
      split
      · rename_i ended
        simp [last ended, collectAnswers]
      · rfl
    · by_cases right : lib.sha256 data = expectedHash
      · simp [collectAnswers, beforeWinner, Answer.isRight, right]
      · have wrong : Answer.isWrong lib expectedHash ⟨source, .ok data⟩ = true := by
          simp [Answer.isWrong, right]
        rw [beforeWinner_cons (by simp [Answer.isRight, right]),
          filter_cons_of_pos (by simp [wrong]), flatMap_cons, ← later]
        simp only [collectAnswers, right, ne_eq, not_false_eq_true, if_true]
        split
        · rename_i ended
          simp [last ended, collectAnswers]
        · rfl

end

/-! ## The whole race -/

/-- The peers that a race blacklists are those with a wrong answer before the winner. -/
theorem mem_blacklist_iff {answers : List Answer} (id : Str) :
    id ∈ ((beforeWinner lib expectedHash answers).filter fun answer =>
        answer.isWrong lib expectedHash).flatMap (fun answer => answer.source.blamed) ↔
      ∃ answer ∈ beforeWinner lib expectedHash answers,
        answer.isWrong lib expectedHash = true ∧ answer.source = .peer id := by
  have blamed : ∀ source : Source, id ∈ source.blamed ↔ source = .peer id := by
    intro source
    cases source with
    | peer other => simp [Source.blamed, eq_comm]
    | mirror => simp [Source.blamed]
  simp only [mem_flatMap, mem_filter, blamed, and_assoc]

/-- When every source answers once, the race succeeds iff some answer is right, with bytes of the
expected hash, and blacklists the peers whose wrong bytes came before the winner. -/
theorem downloadRacing_complete (lib : Libraries) (expectedHash : Str) (peers : List Str)
    (mirror : Bool) (answers : List Answer)
    (everyone : (answers.map Answer.source).Perm (racing peers mirror)) :
    let race := downloadRacing lib expectedHash peers mirror answers
    ((∃ result, race.1 = .ok result) ↔
        ∃ answer ∈ answers, answer.isRight lib expectedHash = true) ∧
      (∀ result, race.1 = .ok result → lib.sha256 result.payload.bytes = expectedHash) ∧
      (∀ id, id ∈ race.2 ↔ ∃ answer ∈ beforeWinner lib expectedHash answers,
        answer.isWrong lib expectedHash = true ∧ answer.source = .peer id) ∧
      ∀ id, (∀ answer ∈ answers, answer.source = .peer id → ∃ message,
        answer.outcome = .error message) → id ∉ race.2 := by
  intro race
  have counted : 0 + answers.length = peers.length + if mirror then 1 else 0 := by
    rw [← length_racing, ← everyone.length_eq, length_map, zero_add]
  have collected : race.2 = (collectAnswers lib expectedHash
        (peers.length + if mirror then 1 else 0) 0 answers).2 ∧
      ((∃ result, race.1 = .ok result) ↔ ∃ result, (collectAnswers lib expectedHash
        (peers.length + if mirror then 1 else 0) 0 answers).1 = .ok result) := by
    by_cases nobody : (peers.length + if mirror then 1 else 0) = 0
    · have silent : answers = [] := length_eq_zero_iff.mp (by omega)
      simp only [race, downloadRacing, if_pos nobody, silent, collectAnswers, reduceCtorEq,
        and_self]
    · simp only [race, downloadRacing, if_neg nobody, and_self]
  have wins := collected.2.trans (collectAnswers_ok_iff counted)
  have blamed : ∀ id, id ∈ race.2 ↔ ∃ answer ∈ beforeWinner lib expectedHash answers,
      answer.isWrong lib expectedHash = true ∧ answer.source = .peer id := by
    intro id
    rw [collected.1, collectAnswers_blacklist counted, mem_blacklist_iff]
  refine ⟨wins, fun result won => sha256_eq_of_downloadRacing won, blamed, ?_⟩
  intro id onlyFailed listed
  obtain ⟨answer, early, wrong, source⟩ := (blamed id).mp listed
  obtain ⟨message, failed⟩ := onlyFailed answer ((takeWhile_subset _) early) source
  simp [Answer.isWrong, failed] at wrong

/-- One peer fails, one sends wrong bytes, the mirror wins: the second peer is blacklisted. -/
theorem downloadRacing_mirror_wins :
    let lib : Libraries := { sha256 := id, unicodeLower := id }
    let answers : List Answer :=
      [⟨.peer [1], .error [0]⟩, ⟨.peer [2], .ok [8]⟩, ⟨.mirror, .ok [9]⟩]
    let race := downloadRacing lib [9] [[1], [2]] true answers
    (∃ result, race.1 = .ok result) ∧ [2] ∈ race.2 ∧ [1] ∉ race.2 := by
  intro lib answers race
  have everyone : (answers.map Answer.source).Perm (racing [[1], [2]] true) := .refl _
  obtain ⟨wins, -, blamed, spared⟩ :=
    downloadRacing_complete lib [9] [[1], [2]] true answers everyone
  refine ⟨wins.mpr ⟨⟨.mirror, .ok [9]⟩, by simp [answers], rfl⟩,
    (blamed [2]).mpr ⟨⟨.peer [2], .ok [8]⟩, ?_, rfl, rfl⟩, spared [1] ?_⟩
  · simp [beforeWinner, answers, Answer.isRight, lib]
  · intro answer mem source
    simp only [answers, mem_cons, not_mem_nil, or_false] at mem
    rcases mem with rfl | rfl | rfl
    · exact ⟨[0], rfl⟩
    · cases source
    · cases source

end Debswarm.Downloader
