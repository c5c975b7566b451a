import Debswarm.Fleet.Election
import Mathlib.Data.List.Perm.Basic

/-!
# What the handlers do

A message that is delivered changes no standing, and the answer to a request settles one:
the handler sees the call of its own node, or the fetch that the call has decided on.
-/

namespace Debswarm.Fleet

open Envelope Function List Member Option

variable {n : Nat} {node : Fin n} {member : Member n}

/-! ## Handling messages -/

variable {message reply : Message} {state : State n} {sender receiver peer : Fin n} {nonce : Nonce}
  {asker : PeerNonce n} {sent : List (Envelope n)} {request : Request n}

theorem keeps_handleMessage (sender : Fin n) (notWant : ∀ nonce, message ≠ .want nonce)
    (member : Member n) : Keeps member (handleMessage sender message member) := by
  cases message with
  | want nonce => exact absurd rfl (notWant nonce)
  | «have» =>
    unfold handleMessage handleHavePackage
    dsimp only
    split
    · exact .of_eq ⟨rfl, rfl, rfl, id, id⟩ (fun _ => id) (fun _ => id) rfl rfl fun _ => id
    · exact Keeps.refl member
  | fetching nonce isReply =>
    exact .of_eq ⟨rfl, rfl, rfl, id, id⟩ (fun _ => id) (fun _ => id) rfl rfl fun _ => id
  | dontHave nonce alsoWanting =>
    unfold handleMessage handleDontHave
    dsimp only
    split
    · exact .of_eq ⟨rfl, rfl, rfl, id, id⟩ (fun _ => id) (fun _ => id) rfl rfl fun _ => id
    · exact Keeps.refl member
  | fetched =>
    unfold handleMessage handleFetched
    dsimp only
    split
    · by_cases waits : member.phase = .waiting false
      · rw [if_pos waits]
        exact .of_inactive rfl rfl rfl rfl (fun _ => rfl) rfl
      · rw [if_neg waits]
        exact .of_eq ⟨rfl, rfl, rfl, id, id⟩ (fun _ => id) (fun _ => id) rfl rfl fun _ => id
    · exact Keeps.refl member

/-- A delivered refusal was noted; other messages concern neither election nor fetch. -/
theorem sound_handleMessage (sound : member.Sound node) (sender : Fin n)
    (noted : ∀ nonce alsoWanting, message = .dontHave nonce alsoWanting →
      member.answers sender = some message) :
    (handleMessage sender message member).Sound node := by
  cases message with
  | want nonce =>
    refine { sound with attentive := ?_ }
    rintro - - - - ⟨rfl⟩
    exact Check.noConfusion
  | «have» =>
    unfold handleMessage handleHavePackage
    dsimp only
    split
    · exact { sound with }
    · exact sound
  | fetching nonce isReply =>
    refine { sound with recorded := ?_ }
    intro other different fetching
    obtain ⟨ownNonce, isOwn⟩ := sound.recorded other different fetching
    refine ⟨ownNonce, ?_⟩
    unfold handleMessage handleFetching
    rw [isOwn]
    rfl
  | dontHave nonce alsoWanting =>
    unfold handleMessage handleDontHave
    dsimp only
    split
    · refine { sound with noted := ?_ }
      intro reply mem
      rcases mem_append.mp mem with old | new
      · exact sound.noted reply old
      · rw [mem_singleton.mp new]
        exact noted nonce alsoWanting rfl
    · exact sound
  | fetched =>
    unfold handleMessage handleFetched
    dsimp only
    split
    · rename_i fromSender
      by_cases waits : member.phase = .waiting false
      · rw [if_pos waits]
        exact .of_inactive rfl rfl sound.noted
      · rw [if_neg waits]
        refine { sound with recorded := ?_ }
        intro other different fetching
        obtain ⟨ownNonce, isOwn⟩ := sound.recorded other different fetching
        simp [isOwn] at fromSender
    · exact sound

theorem elections_eraseIdx (elections : Elections state) (position : Nat) :
    Elections { state with network := state.network.eraseIdx position } := by
  apply elections.of_sameCall
  · exact fun _ => SameCall.refl _
  · exact elections.members
  · exact fun _ mem => .inl (mem_of_mem_eraseIdx mem)
  · exact (eraseIdx_sublist ..).filterMap _
  · exact fun _ _ => .inl
  · rfl
  · exact fun _ _ _ _ _ => id

theorem not_mem_requests_eraseIdx (elections : Elections state) {position : Nat}
    (taken : state.network[position]? = some ⟨sender, receiver, .want nonce⟩) :
    (sender, receiver) ∉
      State.requests { state with network := state.network.eraseIdx position } := by
  obtain ⟨inside, isTaken⟩ := List.getElem?_eq_some_iff.mp taken
  have perm := (List.getElem_cons_eraseIdx_perm inside).filterMap request
  rw [isTaken] at perm
  have nodup := perm.nodup_iff.mpr elections.once
  exact (List.nodup_cons.mp nodup).1

theorem elections_deliver (elections : Elections state) {position : Nat}
    (taken : state.network[position]? = some ⟨sender, receiver, message⟩) :
    Elections (State.set receiver (handleMessage sender message (state.members receiver)) []
      { state with network := state.network.eraseIdx position }) := by
  have delivered := elections_eraseIdx elections position
  have envelope := elections.network _ (mem_of_getElem? taken)
  have sound : (handleMessage sender message (state.members receiver)).Sound receiver := by
    apply sound_handleMessage (elections.members receiver)
    rintro nonce alsoWanting rfl
    exact envelope
  by_cases isWant : ∃ nonce, message = .want nonce
  · obtain ⟨nonce, rfl⟩ := isWant
    refine delivered.set ⟨rfl, rfl, rfl, id, id⟩ sound (by simp) ?_ (fun _ _ _ => id)
      fun _ _ _ => id
    rintro asker ⟨rfl⟩
    exact .inr ⟨⟨envelope.different, envelope.begun, envelope.own, envelope.unanswered⟩,
      not_mem_requests_eraseIdx elections taken⟩
  · apply delivered.keep _ sound (by simp)
    exact keeps_handleMessage sender (fun nonce eq => isWant ⟨nonce, eq⟩) _

/-! ## Answers -/

/-- An answer is true of the node that gives it, and a refusal with a nonce passed the request on.
-/
def Message.Tells (asker : PeerNonce n) (member : Member n) : Message → Prop
  | .want _ => False
  | .dontHave nonce true =>
    member.pending = some nonce ∧ asker ∈ member.wants ∧
      member.phase.isFetchingWAN = false
  | .dontHave _ false => member.pending = none ∧ member.phase.isFetchingWAN = false
  | _ => True

theorem Message.Tells.not_want {member : Member n} (tells : reply.Tells asker member) :
    reply ≠ .want nonce := by
  rintro rfl
  exact tells

/-- With its answer, a request of a later call settles which of the two calls gives way. -/
theorem Ordered.answer {earlierNode laterNode : Fin n} {earlier later : Member n}
    (ordered : Ordered earlierNode laterNode earlier later)
    (unanswered : later.answers earlierNode = none) (active : earlier.phase.isActive = true)
    (earlierSound : earlier.Sound earlierNode) (laterSound : later.Sound laterNode)
    (tells : reply.Tells ⟨laterNode, later.nonce⟩ earlier) :
    Ordered earlierNode laterNode earlier
      { later with answers := update later.answers earlierNode (some reply) } := by
  have electing : later.phase = .electing := by
    unfold Ordered at ordered
    rw [unanswered] at ordered
    exact ordered
  have unheard : earlierNode ∉ later.heard := by
    intro mem
    obtain ⟨nonce, alsoWanting, answer⟩ := laterSound.heard electing earlierNode mem
    rw [unanswered] at answer
    cases answer
  have registered : earlier.phase.isFetchingWAN = false →
      earlier.phase = .electing ∧ earlier.pending = some earlier.nonce := by
    intro notFetching
    have isElecting : earlier.phase = .electing := by
      simpa [Phase.isActive, notFetching] using active
    exact ⟨isElecting, earlierSound.registered isElecting⟩
  unfold Ordered
  dsimp only
  rw [update_self]
  split
  · rename_i nonce isReply
    cases isReply
    obtain ⟨pending, passedOn, notFetching⟩ := tells
    obtain ⟨earlierElecting, ownPending⟩ := registered notFetching
    rw [pending, some.injEq] at ownPending
    exact ⟨ownPending, fun _ => ⟨electing, fun mem => absurd mem unheard⟩,
      fun _ => ⟨earlierElecting, .inr passedOn⟩⟩
  · rename_i isReply
    cases isReply
    obtain ⟨pending, notFetching⟩ := tells
    rw [(registered notFetching).2] at pending
    cases pending
  · exact electing

/-- A node with an answer noted. -/
def Member.note (node : Fin n) (reply : Message) (member : Member n) : Member n :=
  { member with answers := update member.answers node (some reply) }

theorem note_answers {member : Member n} {node : Fin n} (unanswered : member.answers node = none)
    (reply : Message) (answer : member.answers peer = some message) :
    (member.note node reply).answers peer = some message := by
  have different : peer ≠ node := by
    rintro rfl
    rw [unanswered] at answer
    cases answer
  exact (update_of_ne different ..).trans answer

theorem Member.Sound.note {node : Fin n} {member : Member n} (sound : member.Sound node)
    (begun : member.phase.isNew = false) (unanswered : member.answers peer = none) (reply : Message)
    : (member.note peer reply).Sound node where
  registered := sound.registered
  recorded := sound.recorded
  attentive := sound.attentive
  asked := sound.asked
  heard := by
    intro electing heardPeer mem
    obtain ⟨nonce, alsoWanting, answer⟩ := sound.heard electing heardPeer mem
    exact ⟨nonce, alsoWanting, note_answers unanswered reply answer⟩
  noted mem isReply := note_answers unanswered reply (sound.noted mem isReply)
  fresh := by
    intro isNew
    change member.phase.isNew = true at isNew
    rw [begun] at isNew
    cases isNew

theorem Asks.note (asks : Asks state sender receiver nonce) {node : Fin n}
    (different : (sender, receiver) ≠ (peer, node)) :
    Asks (state.set peer ((state.members peer).note node reply) sent) sender receiver nonce := by
  by_cases same : sender = peer
  · subst same
    have notNode : receiver ≠ node := fun eq => different (by rw [eq])
    constructor
    · exact asks.different
    · rw [set_members_self]
      exact asks.begun
    · rw [set_members_self]
      exact asks.own
    · rw [set_members_self]
      exact (update_of_ne notNode ..).trans asks.unanswered
  · refine asks.keep ?_
    rw [set_members_of_ne same]
    exact SameCall.refl _

theorem set_note_members (state : State n) (peer node : Fin n) (reply : Message)
    (sent : List (Envelope n)) (other : Fin n) :
    ∃ answers, (state.set peer ((state.members peer).note node reply) sent).members other =
      { state.members other with answers } := by
  by_cases same : other = peer
  · rw [same, set_members_self]
    exact ⟨_, rfl⟩
  · rw [set_members_of_ne same]
    exact ⟨_, rfl⟩

theorem Envelope.Sound.note {envelope : Envelope n} (sound : envelope.Sound state) {node : Fin n}
    (unanswered : (state.members peer).answers node = none)
    (different : envelope.request ≠ some (peer, node)) :
    envelope.Sound (state.set peer ((state.members peer).note node reply) sent) := by
  unfold request at different
  unfold Envelope.Sound at sound ⊢
  split at sound
  · rename_i isWant
    rw [isWant] at different
    exact sound.note fun same => different (congrArg some same)
  · by_cases toPeer : envelope.receiver = peer
    · rw [toPeer] at sound ⊢
      rw [set_members_self]
      exact note_answers unanswered reply sound
    · rw [set_members_of_ne toPeer]
      exact sound
  · trivial

theorem Envelope.Sound.of_note {node : Fin n} (notWant : ∀ nonce, reply ≠ .want nonce) :
    Envelope.Sound (state.set peer ((state.members peer).note node reply) sent)
      ⟨node, peer, reply⟩ := by
  unfold Envelope.Sound
  split
  · rename_i nonce isWant
    exact absurd isWant (notWant nonce)
  · rename_i isRefusal
    rw [set_members_self, ← isRefusal]
    exact update_self ..
  · trivial

theorem requests_set_of_ne_want (notWant : ∀ nonce, reply ≠ .want nonce)
    (sender receiver node : Fin n) (member : Member n) (state : State n) :
    (state.set node member [⟨sender, receiver, reply⟩]).requests = state.requests := by
  have none : request (n := n) ⟨sender, receiver, reply⟩ = none := by
    unfold request
    split
    · rename_i nonce isWant
      exact absurd isWant (notWant nonce)
    · rfl
  change (state.network ++ [_]).filterMap request = state.requests
  rw [filterMap_append, filterMap_cons_none none, filterMap_nil, append_nil]
  rfl

/-- The answer settles only the standing of the call that asked towards the node that answers. -/
theorem Elections.ordered_note (elections : Elections state) {node : Fin n}
    (asks : Asks state asker.peer node asker.nonce) (tells : reply.Tells asker (state.members node))
    {earlier : Fin n} (different : earlier ≠ asker.peer)
    (earlierActive : (state.members earlier).phase.isActive = true)
    (askerActive : (state.members asker.peer).phase.isActive = true)
    (rounds : (state.members earlier).round < (state.members asker.peer).round) :
    Ordered earlier asker.peer (state.members earlier)
      ((state.members asker.peer).note node reply) := by
  have ordered := elections.ordered earlier asker.peer different earlierActive askerActive rounds
  by_cases answers : earlier = node
  · subst answers
    refine ordered.answer asks.unanswered earlierActive (elections.members earlier)
      (elections.members asker.peer) ?_
    rw [← asks.own]
    exact tells
  · unfold Ordered at ordered ⊢
    unfold note
    dsimp only
    rw [update_of_ne answers]
    exact ordered

/-- To answer a request that was not answered keeps the invariant. -/
theorem Elections.answer (elections : Elections state) {node : Fin n}
    (handles : Handles state node asker) (free : (state.members node).asker = none)
    (tells : reply.Tells asker (state.members node)) :
    Elections (state.set asker.peer ((state.members asker.peer).note node reply)
      [⟨node, asker.peer, reply⟩]) := by
  obtain ⟨asks, only⟩ := handles
  have members := set_note_members state asker.peer node reply [⟨node, asker.peer, reply⟩]
  have requests := requests_set_of_ne_want (fun _ => tells.not_want) node asker.peer asker.peer
    ((state.members asker.peer).note node reply) state
  constructor
  case members =>
    exact forall_set_members ((elections.members asker.peer).note asks.begun asks.unanswered reply)
      fun other _ => elections.members other
  case network =>
    intro envelope mem
    rcases mem_append.mp mem with old | new
    · apply (elections.network envelope old).note asks.unanswered
      exact fun isRequest => only (mem_filterMap.mpr ⟨envelope, old, isRequest⟩)
    · rw [mem_singleton.mp new]
      exact .of_note fun _ => tells.not_want
  case once =>
    rw [requests]
    exact elections.once
  case answering =>
    intro other otherAsker isAsker
    obtain ⟨answers, same⟩ := members other
    rw [same] at isAsker
    have notNode : other ≠ node := by
      rintro rfl
      exact absurd (free.symm.trans isAsker) (some_ne_none _).symm
    obtain ⟨otherAsks, otherOnly⟩ := elections.answering other otherAsker isAsker
    refine ⟨otherAsks.note fun eq => notNode (congrArg Prod.snd eq), ?_⟩
    rw [requests]
    exact otherOnly
  case begun =>
    intro other
    obtain ⟨answers, same⟩ := members other
    rw [same]
    exact elections.begun other
  case distinct =>
    intro first second
    obtain ⟨firstAnswers, firstSame⟩ := members first
    obtain ⟨secondAnswers, secondSame⟩ := members second
    rw [firstSame, secondSame]
    exact elections.distinct first second
  case ordered =>
    intro earlier later different
    obtain ⟨answers, same⟩ := members earlier
    rw [same]
    by_cases laterAsks : later = asker.peer
    · subst laterAsks
      rw [set_members_self]
      exact elections.ordered_note asks tells different
    · rw [set_members_of_ne laterAsks]
      exact elections.ordered earlier later different

/-! ## Answering requests -/

theorem asker_of_answering (isRequest : member.answering = some request) :
    member.asker = some ⟨request.peer, request.nonce⟩ := by
  unfold asker
  rw [isRequest]
  rfl

theorem keeps_handleWantPackage (isRequest : member.answering = some request) :
    Keeps member (handleWantPackage request member).1 := by
  have asker := asker_of_answering isRequest
  have goesOn (check : Check) :
      Keeps member { member with answering := some { request with check } } :=
    .of_eq ⟨rfl, rfl, rfl, id, id⟩ (fun _ eq => asker.trans eq) (fun _ => id) rfl rfl fun _ => id
  have ends : Keeps member { member with answering := none } :=
    .of_eq ⟨rfl, rfl, rfl, id, id⟩ (fun _ eq => (nomatch eq)) (fun _ => id) rfl rfl fun _ => id
  unfold handleWantPackage
  split
  · split
    · exact ends
    · exact goesOn .inFlight
  · split
    · exact ends
    · exact goesOn .pendingWants
  · split
    · exact .of_eq ⟨rfl, rfl, rfl, id, id⟩ (fun _ eq => (nomatch eq)) (fun _ => id) rfl rfl
        fun _ => mem_append_left _
    · exact ends

/-- The handler of a node that is fetching stops at its record of the fetch. -/
theorem sound_handleWantPackage (sound : member.Sound node) (request : Request n) :
    (handleWantPackage request member).1.Sound node := by
  have ends : Member.Sound node { member with answering := none } :=
    { sound with attentive := fun _ _ _ _ eq => (nomatch eq) }
  unfold handleWantPackage
  split
  · split
    · exact ends
    · refine { sound with attentive := ?_ }
      rintro - - - - ⟨rfl⟩
      exact Check.noConfusion
  · split
    · exact ends
    · rename_i notOwn
      refine { sound with attentive := ?_ }
      intro other different fetching
      obtain ⟨ownNonce, isOwn⟩ := sound.recorded other different fetching
      exact absurd isOwn (notOwn ownNonce)
  · split
    · exact { ends with }
    · exact ends

theorem tells_handleWantPackage (sound : member.Sound node)
    (isRequest : member.answering = some request) (different : request.peer ≠ node)
    {answered : Member n} (handled : handleWantPackage request member = (answered, some reply)) :
    answered.asker = none ∧ reply.Tells ⟨request.peer, request.nonce⟩ answered := by
  unfold handleWantPackage at handled
  split at handled
  · split at handled
    · cases handled
      exact ⟨rfl, trivial⟩
    · cases handled
  · split at handled
    · cases handled
      exact ⟨rfl, trivial⟩
    · cases handled
  · rename_i lastLook
    have notFetching : member.phase.isFetchingWAN = false := by
      rw [Bool.eq_false_iff]
      intro fetching
      exact sound.attentive request.peer different fetching request isRequest lastLook
    split at handled
    · rename_i ownNonce pending
      cases handled
      exact ⟨rfl, pending, mem_append_right _ mem_cons_self, notFetching⟩
    · rename_i pending
      cases handled
      exact ⟨rfl, pending, notFetching⟩

theorem elections_answerRequest (elections : Elections state)
    (isRequest : (state.members node).answering = some request) :
    Elections (answerRequest node request state) := by
  have keeps := keeps_handleWantPackage isRequest
  have sound := sound_handleWantPackage (elections.members node) request
  obtain ⟨asks, only⟩ := elections.answering node _ (asker_of_answering isRequest)
  unfold answerRequest
  split
  · rename_i member handled
    rw [handled] at keeps sound
    exact elections.keep keeps sound (by simp)
  · rename_i member reply handled
    obtain ⟨free, tells⟩ := tells_handleWantPackage (elections.members node) isRequest
      asks.different handled
    rw [handled] at keeps sound
    have answered : Elections (state.set node member []) := elections.keep keeps sound (by simp)
    have handles : Handles (state.set node member []) node ⟨request.peer, request.nonce⟩ := by
      constructor
      · apply asks.keep
        rw [set_members_of_ne asks.different]
        exact SameCall.refl _
      · rw [requests_set_of_notices (by simp)]
        exact only
    apply answered.answer handles
    · rw [set_members_self]
      exact free
    · rw [set_members_self]
      exact tells

end Debswarm.Fleet
