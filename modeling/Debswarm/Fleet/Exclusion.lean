import Debswarm.Fleet.Calls
import Debswarm.Fleet.Messages
import Debswarm.Transition.Run

/-!
# At most one fetcher

The election elects one fetcher as long as calls heed what they are told: their nonces
differ, no call ignores a peer that is fetching or decides to fetch with a lower nonce
unread or a request half handled, and no record of a fetch vanishes under a call that is
about to wait for it.
-/

namespace Debswarm.Fleet

open List Transition

variable {n : Nat}

/-- A new call draws a fresh nonce, finds the fetch it is about to wait for, and when electing
yields to a fetching peer and knows its competitors. -/
def HeedsOthers (state : State n) : Event n → Prop
  | .register node nonce =>
    ∀ other, other ≠ node → (state.members other).phase.isActive = true →
      (state.members other).nonce ≠ nonce
  | .attach node =>
    (state.members node).phase = .joining → (state.members node).inFlight.isSome = true
  | .readFetching node =>
    (state.members node).phase = .electing → (state.members node).YieldsToFetcher
  | .readDontHave node =>
    (state.members node).phase = .electing → (state.members node).DecidesInformed
  | .timeout node =>
    (state.members node).phase = .electing → (state.members node).elected = none →
      (state.members node).IsInformed
  | _ => True

instance (state : State n) (event : Event n) : Decidable (HeedsOthers state event) := by
  cases event <;> unfold HeedsOthers <;> infer_instance

/-! ## Steps -/

theorem Elections.act {node : Fin n} {state : State n} (elections : Elections state)
    {allowed : Bool}
    {change : Member n → Member n}
    (step : allowed = true → Keeps (state.members node) (change (state.members node)) ∧
      (change (state.members node)).Sound node) :
    Elections (state.act node allowed change) := by
  unfold State.act
  split
  · rename_i isAllowed
    obtain ⟨keeps, sound⟩ := step isAllowed
    exact elections.keep keeps sound (by simp)
  · exact elections

theorem elections_new (n : Nat) : Elections (State.new n) where
  members _ :=
    ⟨fun electing => (nomatch electing), fun _ _ fetching => (nomatch fetching),
      fun _ _ fetching => (nomatch fetching), fun electing => (nomatch electing),
      fun electing => (nomatch electing), fun _ mem => (nomatch mem), fun _ _ => rfl⟩
  network _ mem := (nomatch mem)
  once := nodup_nil
  answering _ _ isAsker := (nomatch isAsker)
  begun _ _ _ active := (nomatch active)
  distinct _ _ _ active := (nomatch active)
  ordered _ _ _ active := (nomatch active)

theorem elections_next (state : State n) (event : Event n) (elections : Elections state)
    (heeds : HeedsOthers state event) : Elections (next state event) := by
  cases event with
  | want node =>
    apply elections.act
    intro allowed
    have idle := of_decide_eq_true allowed
    exact ⟨keeps_wantPackage idle, sound_wantPackage (elections.members node) idle⟩
  | register node nonce =>
    unfold next
    dsimp only
    split
    · rename_i starting
      apply elections_beginElection elections _ heeds
      rw [starting]
      rfl
    · exact elections
  | attach node =>
    apply elections.act
    intro allowed
    unfold Member.attach
    rw [if_pos (heeds (of_decide_eq_true allowed))]
    exact ⟨.of_inactive rfl rfl rfl rfl (fun _ => rfl) rfl,
      .of_inactive rfl rfl (elections.members node).noted⟩
  | deliver position =>
    unfold next
    dsimp only
    split
    · exact elections
    · rename_i sender receiver message taken
      split
      · exact elections
      · exact elections_deliver elections taken
  | answer node =>
    unfold next
    dsimp only
    split
    · exact elections
    · rename_i request isRequest
      exact elections_answerRequest elections isRequest
  | readHave node =>
    apply elections.act
    intro _
    unfold Member.readHave
    split
    · exact ⟨Keeps.refl _, elections.members node⟩
    · exact ⟨.of_inactive rfl rfl rfl rfl (fun _ => rfl) rfl,
        .of_inactive rfl rfl (elections.members node).noted⟩
  | readWant node =>
    apply elections.act
    intro _
    refine ⟨keeps_readWant _, ?_⟩
    unfold Member.readWant
    split
    · exact elections.members node
    · exact { elections.members node with }
  | readFetching node =>
    apply elections.act
    intro allowed
    exact keeps_sound_readFetching (elections.members node) (heeds (of_decide_eq_true allowed))
  | readDontHave node =>
    unfold next State.act
    dsimp only
    split
    · rename_i allowed
      have electing := of_decide_eq_true allowed
      exact elections_readDontHave elections electing (heeds electing)
    · exact elections
  | timeout node =>
    unfold next State.act
    dsimp only
    split
    · rename_i allowed
      obtain ⟨isElecting, allHeard⟩ := Bool.and_eq_true_iff.mp allowed
      have electing := of_decide_eq_true isElecting
      refine elections.decideAction node electing (fun peer different => ?_) (heeds electing)
      have isPeer : peer ∈ peers node := by simpa [peers] using different
      exact of_decide_eq_true (all_eq_true.mp allHeard peer isPeer)
    · exact elections
  | release node =>
    unfold next
    apply elections.act
    intro allowed
    constructor
    · exact .of_eq ⟨rfl, rfl, rfl, id, id⟩ (fun _ => id) (fun _ => id) rfl rfl fun _ => id
    · exact { elections.members node with
        registered := fun electing => absurd electing (of_decide_eq_true allowed) }
  | notifyFetching node nonce =>
    unfold next
    dsimp only
    split
    · rename_i fetching
      exact elections_notifyFetching elections fetching nonce
    · exact elections
  | store node =>
    unfold next
    apply elections.act
    intro _
    constructor
    · exact .of_eq ⟨rfl, rfl, rfl, id, id⟩ (fun _ => id) (fun _ => id) rfl rfl fun _ => id
    · exact { elections.members node with }
  | notifyComplete node =>
    unfold next
    dsimp only
    split
    · exact elections.keep (.of_inactive rfl rfl rfl rfl (fun _ => rfl) rfl)
        (.of_inactive rfl rfl (elections.members node).noted) (isNotice_broadcast fun _ => trivial)
    · exact elections
  | obtain node =>
    unfold next
    apply elections.act
    intro _
    constructor
    · exact .of_inactive rfl rfl rfl rfl (fun _ => rfl) rfl
    · exact .of_inactive rfl rfl (elections.members node).noted

/-- Two nodes ask at the same time, and the one with the lower nonce announces its fetch. -/
def askTogether : List (Event 2) :=
  [.want 0, .want 1, .register 0 5, .register 1 3, .deliver 0, .answer 1, .answer 1, .answer 1,
    .deliver 0, .answer 0, .answer 0, .answer 0, .deliver 0, .deliver 0, .readDontHave 0,
    .readWant 1, .readDontHave 1, .notifyFetching 1 9]

/-- A node asks while another is fetching, and draws the lower nonce. -/
def askWhileFetching : List (Event 2) :=
  [.want 0, .register 0 5, .deliver 0, .answer 1, .answer 1, .answer 1, .deliver 0,
    .readDontHave 0, .want 1, .register 1 3, .deliver 0, .answer 0, .answer 0, .deliver 0,
    .readFetching 1, .timeout 1]

end Debswarm.Fleet
