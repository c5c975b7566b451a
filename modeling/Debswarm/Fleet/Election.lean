import Debswarm.Fleet.Core

/-!
# Calls that are under way at the same time

Two calls that are under way at the same time registered one after the other, so the
request of the later one is answered at a node where the earlier one is registered already.
What it is answered there decides which of the two gives way.  `Elections` says so of every
two calls, and this module says which changes of one node keep it.
-/

namespace Debswarm.Fleet

open Envelope Function List

variable {n : Nat}

/-- No two nodes are between their decision to fetch and its completion. -/
def AtMostOneFetcher (state : State n) : Prop :=
  ∀ first second, (state.members first).phase.isFetchingWAN = true →
    (state.members second).phase.isFetchingWAN = true → first = second

instance (state : State n) : Decidable (AtMostOneFetcher state) :=
  inferInstanceAs (Decidable (∀ _ _, _ → _ → _))

/-! ## What holds between two calls -/

/-- The standing of a call towards an earlier one, by what that one's node answered. Without an
answer, or if the peer has or fetches the package, the later call is still electing. If both want
it, the one with the higher nonce is, and knows or will learn of the other. -/
def Ordered (earlierNode laterNode : Fin n) (earlier later : Member n) : Prop :=
  match later.answers earlierNode with
  | some (.dontHave nonce true) =>
    nonce = earlier.nonce ∧
    (nonce < later.nonce → later.phase = .electing ∧
      (earlierNode ∈ later.heard → later.elected ≠ none)) ∧
    (later.nonce < nonce → earlier.phase = .electing ∧
      (earlier.elected ≠ none ∨ ⟨laterNode, later.nonce⟩ ∈ earlier.wants))
  | some (.dontHave _ false) => False
  | _ => later.phase = .electing

/-- What holds of a node by itself.  `recorded` and `attentive` are about nodes with
peers. -/
structure Member.Sound (node : Fin n) (member : Member n) : Prop where
  registered : member.phase = .electing → member.pending = some member.nonce
  recorded : ∀ other, other ≠ node → member.phase.isFetchingWAN = true →
    ∃ nonce, member.inFlight = some ⟨none, nonce⟩
  attentive : ∀ other, other ≠ node → member.phase.isFetchingWAN = true →
    ∀ request, member.answering = some request → request.check ≠ .pendingWants
  asked : member.phase = .electing → ∀ peer, peer ≠ node →
    peer ∈ member.awaiting ∨ peer ∈ member.heard
  heard : member.phase = .electing → ∀ peer ∈ member.heard, ∃ nonce alsoWanting,
    member.answers peer = some (.dontHave nonce alsoWanting)
  noted : ∀ reply ∈ member.dontHaves,
    member.answers reply.1.peer = some (.dontHave reply.1.nonce reply.2)
  fresh : member.phase.isNew = true → ∀ peer, member.answers peer = none

/-- A request that nobody has answered yet. -/
structure Asks (state : State n) (sender receiver : Fin n) (nonce : Nonce) : Prop where
  different : sender ≠ receiver
  begun : (state.members sender).phase.isNew = false
  own : nonce = (state.members sender).nonce
  unanswered : (state.members sender).answers receiver = none

/-- A request on its way was not answered yet, and an answer is the one that was noted. -/
def Envelope.Sound (state : State n) (envelope : Envelope n) : Prop :=
  match envelope.message with
  | .want nonce => Asks state envelope.sender envelope.receiver nonce
  | .dontHave nonce alsoWanting =>
    (state.members envelope.receiver).answers envelope.sender =
      some (.dontHave nonce alsoWanting)
  | _ => True

/-- Sender and receiver of a request. -/
def Envelope.request (envelope : Envelope n) : Option (Fin n × Fin n) :=
  match envelope.message with
  | .want _ => some (envelope.sender, envelope.receiver)
  | _ => none

/-- Sender and receiver of the requests on their way. -/
def State.requests (state : State n) : List (Fin n × Fin n) :=
  state.network.filterMap request

/-- Who is being answered. -/
def Member.asker (member : Member n) : Option (PeerNonce n) :=
  member.answering.map fun request => ⟨request.peer, request.nonce⟩

/-- The request that a node is handling is the only one from its sender, and not answered. -/
def Handles (state : State n) (node : Fin n) (asker : PeerNonce n) : Prop :=
  Asks state asker.peer node asker.nonce ∧ (asker.peer, node) ∉ state.requests

/-- What holds in every state of a run in which calls heed each other. -/
structure Elections (state : State n) : Prop where
  members : ∀ node, (state.members node).Sound node
  network : ∀ envelope ∈ state.network, envelope.Sound state
  once : state.requests.Nodup
  answering : ∀ node asker, (state.members node).asker = some asker → Handles state node asker
  begun : ∀ node other, other ≠ node → (state.members node).phase.isActive = true →
    (state.members node).round < state.started
  distinct : ∀ first second, first ≠ second →
    (state.members first).phase.isActive = true → (state.members second).phase.isActive = true →
      (state.members first).round ≠ (state.members second).round ∧
        (state.members first).nonce ≠ (state.members second).nonce
  ordered : ∀ earlier later, earlier ≠ later →
    (state.members earlier).phase.isActive = true → (state.members later).phase.isActive = true →
      (state.members earlier).round < (state.members later).round →
        Ordered earlier later (state.members earlier) (state.members later)

theorem isActive_of_isFetchingWAN {phase : Phase} (fetching : phase.isFetchingWAN = true) :
    phase.isActive = true := by
  simp [Phase.isActive, fetching]

variable {earlierNode laterNode node : Fin n} {earlier later member : Member n}
  {state before after : State n} {sent : List (Envelope n)}

/-- Of two calls the one that gives way is not fetching. -/
theorem Ordered.not_both_fetching (ordered : Ordered earlierNode laterNode earlier later)
    (distinct : earlier.nonce ≠ later.nonce) (earlierFetches : earlier.phase.isFetchingWAN = true)
    (laterFetches : later.phase.isFetchingWAN = true) : False := by
  have notElecting : ∀ {phase : Phase}, phase.isFetchingWAN = true → phase ≠ .electing := by
    rintro _ fetching rfl
    cases fetching
  unfold Ordered at ordered
  split at ordered
  · obtain ⟨rfl, laterLoses, earlierLoses⟩ := ordered
    rcases UInt32.lt_or_lt_of_ne distinct with lower | lower
    · exact notElecting laterFetches (laterLoses lower).1
    · exact notElecting earlierFetches (earlierLoses lower).1
  · exact ordered
  · exact notElecting laterFetches ordered

theorem Elections.atMostOneFetcher (elections : Elections state) : AtMostOneFetcher state := by
  intro first second firstFetches secondFetches
  by_contra different
  have firstActive := isActive_of_isFetchingWAN firstFetches
  have secondActive := isActive_of_isFetchingWAN secondFetches
  obtain ⟨rounds, nonces⟩ := elections.distinct first second different firstActive secondActive
  rcases Nat.lt_or_gt_of_ne rounds with before | after
  · exact (elections.ordered first second different firstActive secondActive
      before).not_both_fetching nonces firstFetches secondFetches
  · exact (elections.ordered second first (Ne.symm different) secondActive firstActive
      after).not_both_fetching nonces.symm secondFetches firstFetches

/-! ## Steps of nodes under way -/

/-- A change of a node that begins no call: its election stays the one it was. -/
structure SameCall (before after : Member n) : Prop where
  nonce : after.nonce = before.nonce
  round : after.round = before.round
  answers : after.answers = before.answers
  begun : before.phase.isNew = false → after.phase.isNew = false
  active : after.phase.isActive = true → before.phase.isActive = true

theorem SameCall.refl (member : Member n) : SameCall member member :=
  ⟨rfl, rfl, rfl, id, id⟩

theorem Asks.keep {sender receiver : Fin n} {nonce : Nonce}
    (asks : Asks before sender receiver nonce)
    (same : SameCall (before.members sender) (after.members sender)) :
    Asks after sender receiver nonce where
  different := asks.different
  begun := same.begun asks.begun
  own := asks.own.trans same.nonce.symm
  unanswered := by
    rw [same.answers]
    exact asks.unanswered

/-- A message that neither asks for the package nor says that it is not there. -/
def Envelope.IsNotice (envelope : Envelope n) : Prop :=
  match envelope.message with
  | .want _ => False
  | .dontHave _ _ => False
  | _ => True

theorem Envelope.Sound.keep {envelope : Envelope n} (sound : envelope.Sound before)
    (same : ∀ node, SameCall (before.members node) (after.members node)) :
    envelope.Sound after := by
  unfold Envelope.Sound at sound ⊢
  split at sound
  · exact sound.keep (same _)
  · rw [(same _).answers]
    exact sound
  · trivial

/-- A step that sends no request or refusal keeps the invariant if it keeps all standings. -/
theorem Elections.of_sameCall (elections : Elections before)
    (same : ∀ node, SameCall (before.members node) (after.members node))
    (sound : ∀ node, (after.members node).Sound node)
    (sent : ∀ envelope ∈ after.network, envelope ∈ before.network ∨ envelope.IsNotice)
    (requests : after.requests.Sublist before.requests)
    (askers : ∀ node asker, (after.members node).asker = some asker →
      (before.members node).asker = some asker ∨
        Asks before asker.peer node asker.nonce ∧ (asker.peer, node) ∉ after.requests)
    (started : after.started = before.started) (ordered : ∀ earlier later, earlier ≠ later →
      (after.members earlier).phase.isActive = true → (after.members later).phase.isActive = true →
        Ordered earlier later (before.members earlier) (before.members later) →
          Ordered earlier later (after.members earlier) (after.members later)) :
    Elections after where
  members := sound
  once := elections.once.sublist requests
  network := by
    intro envelope mem
    rcases sent envelope mem with old | notice
    · exact (elections.network envelope old).keep same
    · unfold Envelope.IsNotice at notice
      unfold Envelope.Sound
      split at notice
      · exact notice.elim
      · exact notice.elim
      · trivial
  answering := by
    intro node asker isAsker
    rcases askers node asker isAsker with before | ⟨asks, only⟩
    · obtain ⟨asks, only⟩ := elections.answering node asker before
      exact ⟨asks.keep (same _), fun mem => only (requests.subset mem)⟩
    · exact ⟨asks.keep (same _), only⟩
  begun := by
    intro node other different active
    rw [(same node).round, started]
    exact elections.begun node other different ((same node).active active)
  distinct := by
    intro first second different firstActive secondActive
    rw [(same first).round, (same second).round, (same first).nonce, (same second).nonce]
    exact elections.distinct first second different ((same first).active firstActive)
      ((same second).active secondActive)
  ordered := by
    intro earlier later different earlierActive laterActive rounds
    rw [(same earlier).round, (same later).round] at rounds
    exact ordered earlier later different earlierActive laterActive
      (elections.ordered earlier later different ((same earlier).active earlierActive)
        ((same later).active laterActive) rounds)

@[simp]
theorem set_members_self (node : Fin n) (member : Member n) (sent : List (Envelope n))
    (state : State n) : (state.set node member sent).members node = member :=
  update_self ..

@[simp]
theorem set_members_of_ne {other : Fin n} (different : other ≠ node) (member : Member n)
    (sent : List (Envelope n)) (state : State n) :
    (state.set node member sent).members other = state.members other :=
  update_of_ne different ..

/-- What holds of a node's new state and of the others holds of all after its step. -/
theorem forall_set_members {property : Fin n → Member n → Prop} (new : property node member)
    (old : ∀ other, other ≠ node → property other (state.members other)) (other : Fin n) :
    property other ((state.set node member sent).members other) := by
  by_cases same : other = node
  · rw [same, set_members_self]
    exact new
  · rw [set_members_of_ne same]
    exact old other same

theorem filterMap_request_of_notices (notices : ∀ envelope ∈ sent, envelope.IsNotice) :
    sent.filterMap request = [] := by
  rw [filterMap_eq_nil_iff]
  intro envelope mem
  have notice := notices envelope mem
  unfold Envelope.IsNotice at notice
  unfold request
  split
  · rename_i isWant
    rw [isWant] at notice
    exact notice.elim
  · rfl

theorem requests_set_of_notices (notices : ∀ envelope ∈ sent, envelope.IsNotice) (node : Fin n)
    (member : Member n) (state : State n) :
    (state.set node member sent).requests = state.requests := by
  change (state.network ++ sent).filterMap request = state.requests
  rw [filterMap_append, filterMap_request_of_notices notices, append_nil]
  rfl

/-- A step of one node keeps the invariant if it keeps the standings of its call. -/
theorem Elections.set (elections : Elections state) (same : SameCall (state.members node) member)
    (sound : member.Sound node) (notices : ∀ envelope ∈ sent, envelope.IsNotice)
    (askers : ∀ asker, member.asker = some asker →
      (state.members node).asker = some asker ∨ Handles state node asker)
    (later : member.phase.isActive = true → ∀ other, other ≠ node →
      Ordered other node (state.members other) (state.members node) →
        Ordered other node (state.members other) member)
    (earlier : member.phase.isActive = true → ∀ other, other ≠ node →
      Ordered node other (state.members node) (state.members other) →
        Ordered node other member (state.members other)) :
    Elections (state.set node member sent) := by
  have requests := requests_set_of_notices notices node member state
  apply elections.of_sameCall
  · exact forall_set_members same fun other _ => SameCall.refl _
  · exact forall_set_members sound fun other _ => elections.members other
  · intro envelope mem
    exact (mem_append.mp mem).imp id (notices envelope)
  · rw [requests]
  · intro other
    rw [requests]
    by_cases same : other = node
    · rw [same, set_members_self]
      exact askers
    · rw [set_members_of_ne same]
      exact fun _ => .inl
  · rfl
  · intro first second different firstActive secondActive ordered
    by_cases firstIs : first = node
    · subst firstIs
      rw [set_members_self] at firstActive ⊢
      rw [set_members_of_ne (Ne.symm different)]
      exact earlier firstActive second (Ne.symm different) ordered
    · rw [set_members_of_ne firstIs]
      by_cases secondIs : second = node
      · subst secondIs
        rw [set_members_self] at secondActive ⊢
        exact later secondActive first firstIs ordered
      · rw [set_members_of_ne secondIs]
        exact ordered

/-! ## Steps that change no standing -/

/-- A change that others need not notice: the election goes on or ends without a fetch. -/
structure Keeps (before after : Member n) : Prop extends SameCall before after where
  asker : ∀ asker, after.asker = some asker → before.asker = some asker
  electing : after.phase.isActive = true → before.phase = .electing → after.phase = .electing
  heeds : after.phase.isActive = true → ∀ want, want.nonce < before.nonce →
    before.elected ≠ none ∨ want ∈ before.wants → after.elected ≠ none ∨ want ∈ after.wants
  hears : after.phase.isActive = true → ∀ peer nonce,
    before.answers peer = some (.dontHave nonce true) → nonce < before.nonce →
      (peer ∈ before.heard → before.elected ≠ none) → peer ∈ after.heard → after.elected ≠ none

theorem Keeps.of_eq {before after : Member n} (same : SameCall before after)
    (asker : ∀ asker, after.asker = some asker → before.asker = some asker)
    (electing : after.phase.isActive = true → before.phase = .electing → after.phase = .electing)
    (elected : after.elected = before.elected) (heard : after.heard = before.heard)
    (wants : ∀ want ∈ before.wants, want ∈ after.wants) : Keeps before after where
  toSameCall := same
  asker := asker
  electing := electing
  heeds := by
    rintro - want - (known | unread)
    · rw [elected]
      exact .inl known
    · exact .inr (wants want unread)
  hears := by
    intro _ peer nonce _ _ hears mem
    rw [elected]
    rw [heard] at mem
    exact hears mem

theorem Keeps.refl (member : Member n) : Keeps member member :=
  .of_eq (SameCall.refl member) (fun _ => id) (fun _ => id) rfl rfl fun _ => id

theorem Keeps.of_inactive {before after : Member n} (nonce : after.nonce = before.nonce)
    (round : after.round = before.round) (answers : after.answers = before.answers)
    (asker : after.asker = before.asker)
    (begun : before.phase.isNew = false → after.phase.isNew = false)
    (inactive : after.phase.isActive = false) : Keeps before after := by
  have notActive : after.phase.isActive ≠ true := Bool.eq_false_iff.mp inactive
  exact ⟨⟨nonce, round, answers, begun, fun active => absurd active notActive⟩,
    fun _ => asker ▸ id, fun active => absurd active notActive,
    fun active => absurd active notActive, fun active => absurd active notActive⟩

theorem Ordered.keep_later {later' : Member n}
    (ordered : Ordered earlierNode laterNode earlier later) (keeps : Keeps later later')
    (active : later'.phase.isActive = true) : Ordered earlierNode laterNode earlier later' := by
  unfold Ordered at ordered ⊢
  rw [keeps.answers]
  split at ordered
  · rename_i nonce answer
    obtain ⟨own, laterLoses, earlierLoses⟩ := ordered
    rw [keeps.nonce]
    refine ⟨own, fun lower => ?_, earlierLoses⟩
    obtain ⟨electing, hears⟩ := laterLoses lower
    exact ⟨keeps.electing active electing, keeps.hears active earlierNode nonce answer lower hears⟩
  · exact ordered.elim
  · exact keeps.electing active ordered

theorem Ordered.keep_earlier {earlier' : Member n}
    (ordered : Ordered earlierNode laterNode earlier later) (keeps : Keeps earlier earlier')
    (active : earlier'.phase.isActive = true) : Ordered earlierNode laterNode earlier' later := by
  unfold Ordered at ordered ⊢
  split at ordered
  · obtain ⟨own, laterLoses, earlierLoses⟩ := ordered
    rw [keeps.nonce]
    refine ⟨own, laterLoses, fun lower => ?_⟩
    obtain ⟨electing, heeds⟩ := earlierLoses lower
    rw [own] at lower
    exact ⟨keeps.electing active electing, keeps.heeds active _ lower heeds⟩
  · exact ordered.elim
  · exact ordered

theorem Elections.keep (elections : Elections state) (keeps : Keeps (state.members node) member)
    (sound : member.Sound node) (notices : ∀ envelope ∈ sent, envelope.IsNotice) :
    Elections (state.set node member sent) :=
  elections.set keeps.toSameCall sound notices
    (fun asker isAsker => .inl (keeps.asker asker isAsker))
    (fun active _ _ ordered => ordered.keep_later keeps active)
    (fun active _ _ ordered => ordered.keep_earlier keeps active)

/-- A node whose call is neither new nor active is sound if its channel of refusals is. -/
theorem Member.Sound.of_inactive {after : Member n} (begun : after.phase.isNew = false)
    (inactive : after.phase.isActive = false) (noted : ∀ reply ∈ after.dontHaves,
      after.answers reply.1.peer = some (.dontHave reply.1.nonce reply.2)) :
    after.Sound node := by
  have notElecting : after.phase ≠ .electing := by
    intro electing
    rw [electing] at inactive
    cases inactive
  have notFetching : after.phase.isFetchingWAN ≠ true := by
    intro fetching
    rw [isActive_of_isFetchingWAN fetching] at inactive
    cases inactive
  exact ⟨fun electing => absurd electing notElecting,
    fun _ _ fetching => absurd fetching notFetching,
    fun _ _ fetching => absurd fetching notFetching,
    fun electing => absurd electing notElecting, fun electing => absurd electing notElecting,
    noted, fun isNew => absurd isNew (Bool.eq_false_iff.mp begun)⟩

end Debswarm.Fleet
