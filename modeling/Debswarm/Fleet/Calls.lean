import Debswarm.Fleet.Election

/-!
# What a call does

A call registers, reads what it is told, and decides.  Each of its steps keeps the standing
of the calls under way, as long as it does not overlook one of them.
-/

namespace Debswarm.Fleet

open Function List Member Option

variable {n : Nat} {node : Fin n} {member : Member n}

/-! ## When a call heeds what it is told -/

/-- No request with a lower nonce is unread, and no request is being refused. -/
def Member.IsInformed (member : Member n) : Prop :=
  (∀ want ∈ member.wants, ¬ want.nonce < member.nonce) ∧
    ∀ request ∈ member.answering, request.check ≠ .pendingWants

instance (member : Member n) : Decidable member.IsInformed :=
  inferInstanceAs (Decidable ((∀ want ∈ member.wants, _) ∧ ∀ request ∈ member.answering, _))

/-- A call that is about to read that a peer is fetching has a higher nonce. -/
def Member.YieldsToFetcher (member : Member n) : Prop :=
  ∀ response ∈ member.fetchings.head?, response.1.nonce < member.nonce

instance (member : Member n) : Decidable member.YieldsToFetcher :=
  inferInstanceAs (Decidable (∀ response ∈ member.fetchings.head?, _))

/-- If the next answer leaves nobody to wait for and none elected, the call knows its competitors.
-/
def Member.DecidesInformed (member : Member n) : Prop :=
  ∀ reply ∈ member.dontHaves.head?, (member.hearDontHave reply []).awaiting = [] →
    (member.hearDontHave reply []).elected = none → member.IsInformed

instance (member : Member n) : Decidable member.DecidesInformed :=
  inferInstanceAs (Decidable (∀ reply ∈ member.dontHaves.head?, _ → _ → _))

/-! ## Beginning a call -/

theorem mem_peers {peer : Fin n} : peer ∈ peers node ↔ peer ≠ node := by
  simp [peers]

variable {state : State n}

theorem Elections.fst_ne_of_isNew (elections : Elections state)
    (isNew : (state.members node).phase.isNew = true) {request : Fin n × Fin n}
    (mem : request ∈ state.requests) : request.1 ≠ node := by
  obtain ⟨envelope, isSent, isRequest⟩ := mem_filterMap.mp mem
  have sound := elections.network envelope isSent
  unfold Envelope.request at isRequest
  unfold Envelope.Sound at sound
  split at isRequest
  · rename_i isWant
    cases isRequest
    rw [isWant] at sound
    rintro rfl
    exact Bool.eq_false_iff.mp sound.begun isNew
  · cases isRequest

/-- A call registers and sends its request. -/
structure Registers (node : Fin n) (nonce : Nonce) (before after : State n) : Prop where
  isNew : (before.members node).phase.isNew = true
  own : after.members node = (before.members node).register node nonce before.started
  others : ∀ other, other ≠ node → after.members other = before.members other
  network : after.network = before.network ++ broadcast node (.want nonce)
  started : after.started = before.started + 1

section

variable {nonce : Nonce} {before after : State n}

section

variable (registers : Registers node nonce before after)

include registers

theorem Registers.answers (other : Fin n) :
    (after.members other).answers = (before.members other).answers := by
  by_cases same : other = node
  · rw [same, registers.own]
    rfl
  · rw [registers.others other same]

theorem Registers.asker (other : Fin n) :
    (after.members other).asker = (before.members other).asker := by
  by_cases same : other = node
  · rw [same, registers.own]
    rfl
  · rw [registers.others other same]

theorem Registers.requests :
    after.requests = before.requests ++ (peers node).map fun peer => (node, peer) := by
  unfold State.requests
  rw [registers.network, filterMap_append, broadcast, filterMap_map, ← filterMap_eq_map]
  rfl

theorem Registers.asks {sender receiver : Fin n} {asked : Nonce}
    (asks : Asks before sender receiver asked) : Asks after sender receiver asked := by
  apply asks.keep
  rw [registers.others]
  · exact SameCall.refl _
  · rintro rfl
    exact Bool.eq_false_iff.mp asks.begun registers.isNew

theorem Registers.network_sound (elections : Elections before) :
    ∀ envelope ∈ after.network, envelope.Sound after := by
  intro envelope mem
  rw [registers.network] at mem
  rcases mem_append.mp mem with old | new
  · have sound := elections.network envelope old
    unfold Envelope.Sound at sound ⊢
    split at sound
    · exact registers.asks sound
    · rw [registers.answers]
      exact sound
    · trivial
  · obtain ⟨peer, isPeer, rfl⟩ := mem_map.mp new
    constructor
    · exact Ne.symm (mem_peers.mp isPeer)
    · rw [registers.own]
      rfl
    · rw [registers.own]
      rfl
    · rw [registers.answers]
      exact (elections.members node).fresh registers.isNew peer

theorem Registers.handles {other : Fin n} {asker : PeerNonce n}
    (handles : Handles before other asker) : Handles after other asker := by
  obtain ⟨asks, only⟩ := handles
  refine ⟨registers.asks asks, ?_⟩
  rw [registers.requests, List.mem_append, not_or]
  refine ⟨only, ?_⟩
  intro new
  obtain ⟨peer, -, eq⟩ := List.mem_map.mp new
  cases eq
  exact Bool.eq_false_iff.mp asks.begun registers.isNew

end

/-- A new call is the latest, and nobody has answered it. -/
theorem elections_register (elections : Elections before)
    (registers : Registers node nonce before after)
    (unique : ∀ other, other ≠ node → (before.members other).phase.isActive = true →
      (before.members other).nonce ≠ nonce) : Elections after := by
  have earlierRound {other : Fin n} (different : other ≠ node)
      (active : (before.members other).phase.isActive = true) :
      (before.members other).round < before.started :=
    elections.begun other node (Ne.symm different) active
  constructor
  case members =>
    intro other
    by_cases same : other = node
    · rw [same, registers.own]
      exact ⟨fun _ => rfl, nofun, nofun, fun _ _ different => .inl (mem_peers.mpr different),
        nofun, (elections.members node).noted, nofun⟩
    · rw [registers.others other same]
      exact elections.members other
  case network => exact registers.network_sound elections
  case once =>
    rw [registers.requests]
    apply List.Nodup.append elections.once
    · exact ((nodup_finRange n).filter _).map fun _ _ eq => congrArg Prod.snd eq
    · intro request old new
      obtain ⟨peer, -, rfl⟩ := mem_map.mp new
      exact elections.fst_ne_of_isNew registers.isNew old rfl
  case answering =>
    intro other asker isAsker
    rw [registers.asker] at isAsker
    exact registers.handles (elections.answering other asker isAsker)
  case begun =>
    intro other third different active
    rw [registers.started]
    by_cases same : other = node
    · rw [same, registers.own]
      exact Nat.lt_succ_self _
    · rw [registers.others other same] at active ⊢
      exact Nat.lt_succ_of_lt (earlierRound same active)
  case distinct =>
    intro first second different
    by_cases firstIs : first = node
    · have secondIsNot : second ≠ node := fun same => different (firstIs.trans same.symm)
      rw [firstIs, registers.own, registers.others second secondIsNot]
      intro _ active
      exact ⟨Nat.ne_of_gt (earlierRound secondIsNot active),
        Ne.symm (unique second secondIsNot active)⟩
    · rw [registers.others first firstIs]
      by_cases secondIs : second = node
      · rw [secondIs, registers.own]
        intro active _
        exact ⟨Nat.ne_of_lt (earlierRound firstIs active), unique first firstIs active⟩
      · rw [registers.others second secondIs]
        exact elections.distinct first second different
  case ordered =>
    intro earlier later different
    by_cases laterIs : later = node
    · rw [laterIs, registers.own]
      intro _ _ _
      unfold Ordered register
      rw [(elections.members node).fresh registers.isNew]
    · rw [registers.others later laterIs]
      by_cases earlierIs : earlier = node
      · rw [earlierIs, registers.own]
        intro _ active rounds
        exact absurd rounds (Nat.lt_asymm (earlierRound laterIs active))
      · rw [registers.others earlier earlierIs]
        exact elections.ordered earlier later different

end

theorem elections_alone (elections : Elections state) (alone : peers node = []) :
    Elections (state.set node { state.members node with phase := .fetchingWAN false } []) := by
  have same (other : Fin n) : other = node := by
    by_contra different
    have isPeer := mem_peers.mpr different
    rw [alone] at isPeer
    cases isPeer
  have oneNode (first second : Fin n) : first = second :=
    (same first).trans (same second).symm
  constructor
  case members =>
    intro other
    rw [same other, set_members_self]
    exact ⟨fun electing => (nomatch electing), fun other different => absurd (same other) different,
      fun other different => absurd (same other) different, fun electing => (nomatch electing),
      fun electing => (nomatch electing), (elections.members node).noted,
      fun isNew => (nomatch isNew)⟩
  case network =>
    intro envelope mem
    have old : envelope ∈ state.network := by simpa [State.set] using mem
    have sound := elections.network envelope old
    unfold Envelope.Sound at sound ⊢
    split at sound
    · exact absurd (oneNode _ _) sound.different
    · rw [same envelope.receiver] at sound ⊢
      rw [set_members_self]
      exact sound
    · trivial
  case once =>
    rw [requests_set_of_notices (by simp)]
    exact elections.once
  case answering =>
    intro other asker isAsker
    rw [same other, set_members_self] at isAsker
    exact absurd (oneNode _ _) (elections.answering node asker isAsker).1.different
  case begun => exact fun other third different => absurd (oneNode _ _) different
  case distinct => exact fun first second different => absurd (oneNode _ _) different
  case ordered => exact fun first second different => absurd (oneNode _ _) different

theorem elections_beginElection (elections : Elections state)
    (isNew : (state.members node).phase.isNew = true) {nonce : Nonce}
    (unique : ∀ other, other ≠ node → (state.members other).phase.isActive = true →
      (state.members other).nonce ≠ nonce) :
    Elections (beginElection node nonce state) := by
  unfold beginElection
  split
  · rename_i alone
    exact elections_alone elections alone
  · refine elections_register elections ⟨isNew, ?_, ?_, rfl, rfl⟩ unique
    · exact update_self ..
    · exact fun other different => update_of_ne different ..

/-! ## Reading answers -/

theorem elect_ne_none {nonce : Nonce} {elected : Option (PeerNonce n)} {competitor : PeerNonce n}
    (lower : competitor.nonce < nonce) : elect nonce elected competitor ≠ none := by
  unfold elect
  split
  · exact some_ne_none _
  · rename_i notBest
    rintro rfl
    exact notBest ⟨lower, rfl⟩

theorem elect_ne_none_of_ne_none (nonce : Nonce) {elected : Option (PeerNonce n)}
    (competitor : PeerNonce n) (some : elected ≠ none) : elect nonce elected competitor ≠ none := by
  unfold elect
  split
  · exact some_ne_none _
  · exact some

theorem keeps_readWant (member : Member n) : Keeps member member.readWant := by
  unfold readWant
  split
  · exact Keeps.refl member
  · rename_i competitor rest wantsEq
    refine ⟨⟨rfl, rfl, rfl, id, id⟩, fun _ => id, fun _ => id, fun _ want lower heeded => ?_,
      fun _ peer nonce _ _ hears mem => elect_ne_none_of_ne_none _ _ (hears mem)⟩
    rcases heeded with elected | unread
    · exact .inl (elect_ne_none_of_ne_none _ _ elected)
    · rw [wantsEq] at unread
      rcases mem_cons.mp unread with rfl | later
      · exact .inl (elect_ne_none lower)
      · exact .inr later

section

variable (sound : member.Sound node) {reply : PeerNonce n × Bool} {rest : List (PeerNonce n × Bool)}
  (channel : member.dontHaves = reply :: rest)

include sound channel

/-- Reading a refusal: whoever wants the package too with a lower nonce gets elected. -/
theorem keeps_hearDontHave :
    Keeps member (member.hearDontHave reply rest) := by
  have noted := sound.noted reply (channel ▸ mem_cons_self)
  have stays : member.elected ≠ none → (member.hearDontHave reply rest).elected ≠ none := by
    intro elected
    unfold hearDontHave
    split
    · exact elect_ne_none_of_ne_none _ _ elected
    · exact elected
  refine ⟨⟨rfl, rfl, rfl, id, id⟩, fun _ => id, fun _ => id, fun _ want _ heeded => ?_,
    fun _ peer nonce answer lower hears mem => ?_⟩
  · exact heeded.imp stays id
  · rcases mem_cons.mp mem with rfl | before
    · rw [noted, some.injEq, Message.dontHave.injEq] at answer
      obtain ⟨rfl, alsoWanting⟩ := answer
      unfold hearDontHave
      rw [alsoWanting, if_pos rfl]
      exact elect_ne_none lower
    · exact stays (hears before)

theorem sound_hearDontHave :
    (member.hearDontHave reply rest).Sound node := by
  have noted := sound.noted
  rw [channel] at noted
  refine ⟨sound.registered, sound.recorded, sound.attentive, fun electing peer different => ?_,
    fun electing peer mem => ?_, fun other mem => noted other (mem_cons_of_mem _ mem),
    sound.fresh⟩
  · rcases sound.asked electing peer different with awaited | before
    · by_cases same : peer = reply.1.peer
      · exact .inr (same ▸ mem_cons_self)
      · exact .inl (mem_filter.mpr ⟨awaited, decide_eq_true same⟩)
    · exact .inr (mem_cons_of_mem _ before)
  · rcases mem_cons.mp mem with rfl | before
    · exact ⟨_, _, noted reply mem_cons_self⟩
    · exact sound.heard electing peer before

end

/-! ## Deciding -/

/-- Who decides to fetch was refused by every earlier call with a lower nonce, and has read the
requests of the later ones. -/
theorem Elections.decideAction (elections : Elections state) (node : Fin n)
    (electing : (state.members node).phase = .electing)
    (allHeard : ∀ peer, peer ≠ node → peer ∈ (state.members node).heard)
    (informed : (state.members node).elected = none → (state.members node).IsInformed) :
    Elections (state.set node (state.members node).decideAction []) := by
  have sound := elections.members node
  have active : (state.members node).phase.isActive = true := by
    rw [electing]
    rfl
  unfold Member.decideAction
  split
  · exact elections.keep (.of_inactive rfl rfl rfl rfl (fun _ => rfl) rfl)
      (.of_inactive rfl rfl sound.noted) (by simp)
  · rename_i nobody
    refine elections.set ⟨rfl, rfl, rfl, fun _ => rfl, fun _ => active⟩ ?_ (by simp)
      (fun _ => .inl) (fun _ other different ordered => ?_) (fun _ other different ordered => ?_)
    · exact ⟨fun electing => (nomatch electing), fun _ _ _ => ⟨_, rfl⟩,
        fun _ _ _ => (informed nobody).2, fun electing => (nomatch electing),
        fun electing => (nomatch electing), sound.noted, fun isNew => (nomatch isNew)⟩
    · obtain ⟨nonce, alsoWanting, answer⟩ := sound.heard electing other (allHeard other different)
      unfold Ordered at ordered ⊢
      rw [answer] at ordered ⊢
      cases alsoWanting with
      | false => exact ordered
      | true =>
        obtain ⟨own, loses, wins⟩ := ordered
        refine ⟨own, fun lower => ?_, wins⟩
        exact absurd nobody ((loses lower).2 (allHeard other different))
    · unfold Ordered at ordered ⊢
      split at ordered
      · obtain ⟨own, loses, wins⟩ := ordered
        refine ⟨own, loses, fun lower => ?_⟩
        rcases (wins lower).2 with known | unread
        · exact absurd nobody known
        · rw [own] at lower
          exact absurd lower ((informed nobody).1 _ unread)
      · exact ordered
      · exact ordered

theorem set_set (first second : Member n) (state : State n) :
    (state.set node first []).set node second [] = state.set node second [] := by
  simp [State.set]

theorem elections_readDontHave (elections : Elections state)
    (electing : (state.members node).phase = .electing)
    (informed : (state.members node).DecidesInformed) :
    Elections (state.set node (state.members node).readDontHave []) := by
  have sound := elections.members node
  unfold readDontHave
  split
  · exact elections.keep (Keeps.refl _) sound (by simp)
  · rename_i reply rest channel
    have read := sound_hearDontHave sound channel
    have heardIt : Elections (state.set node ((state.members node).hearDontHave reply rest) []) :=
      elections.keep (keeps_hearDontHave sound channel) read (by simp)
    dsimp only
    split
    · rename_i noneAwaited
      rw [← set_set ((state.members node).hearDontHave reply rest)]
      have decided := heardIt.decideAction node
      rw [set_members_self] at decided
      refine decided electing (fun peer different => ?_) fun nobody => ?_
      · rcases read.asked electing peer different with awaited | heard
        · rw [noneAwaited] at awaited
          cases awaited
        · exact heard
      · exact informed reply (channel ▸ rfl) noneAwaited nobody
    · exact heardIt

/-! ## Before and after the election -/

theorem keeps_wantPackage (idle : member.phase = .idle) : Keeps member member.wantPackage := by
  have begun {phase : Phase} : member.phase.isNew = false → phase.isNew = false := by
    rw [idle]
    exact fun eq => (nomatch eq)
  unfold wantPackage
  split
  · exact Keeps.refl member
  · split <;> exact .of_inactive rfl rfl rfl rfl begun rfl

theorem sound_wantPackage (sound : member.Sound node) (idle : member.phase = .idle) :
    member.wantPackage.Sound node := by
  have isNew : member.phase.isNew = true := by
    rw [idle]
    rfl
  unfold wantPackage
  split
  · exact sound
  · split
    · exact .of_inactive rfl rfl sound.noted
    · exact ⟨fun electing => (nomatch electing), fun _ _ fetching => (nomatch fetching),
        fun _ _ fetching => (nomatch fetching), fun electing => (nomatch electing),
        fun electing => (nomatch electing), sound.noted, fun _ => sound.fresh isNew⟩

theorem keeps_sound_readFetching (sound : member.Sound node) (yields : member.YieldsToFetcher) :
    Keeps member member.readFetching ∧ member.readFetching.Sound node := by
  unfold readFetching
  split
  · exact ⟨Keeps.refl member, sound⟩
  · rename_i fetcher isReply rest channel
    have lower : fetcher.nonce < member.nonce := by
      apply yields (fetcher, isReply)
      rw [channel]
      rfl
    rw [if_pos lower]
    exact ⟨.of_inactive rfl rfl rfl rfl (fun _ => rfl) rfl, .of_inactive rfl rfl sound.noted⟩

theorem isNotice_broadcast {message : Message}
    (notice : ∀ peer, Envelope.IsNotice ⟨node, peer, message⟩) :
    ∀ envelope ∈ broadcast node message, envelope.IsNotice := by
  intro envelope mem
  obtain ⟨peer, -, rfl⟩ := mem_map.mp mem
  exact notice peer

theorem elections_notifyFetching (elections : Elections state)
    (fetching : (state.members node).phase = .fetchingWAN false) (nonce : Nonce) :
    Elections (notifyFetching node nonce state) := by
  have sound := elections.members node
  have isFetching : (state.members node).phase.isFetchingWAN = true := by
    rw [fetching]
    rfl
  unfold notifyFetching
  apply elections.keep
  · apply Keeps.of_eq
    · exact ⟨rfl, rfl, rfl, fun _ => rfl, fun _ => isActive_of_isFetchingWAN isFetching⟩
    · exact fun _ => id
    · rw [fetching]
      exact fun _ electing => (nomatch electing)
    · rfl
    · rfl
    · exact fun _ => id
  · exact ⟨fun electing => (nomatch electing), fun _ _ _ => ⟨_, rfl⟩,
      fun other different _ => sound.attentive other different isFetching,
      fun electing => (nomatch electing), fun electing => (nomatch electing), sound.noted,
      fun isNew => (nomatch isNew)⟩
  · exact isNotice_broadcast fun _ => trivial

end Debswarm.Fleet
