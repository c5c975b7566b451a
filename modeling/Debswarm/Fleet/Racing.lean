import Debswarm.Fleet.Calls

/-!
# Racing for a cold package

All nodes want a package that nobody has, and have registered their calls before the first
request is handled.  Broadcasts may miss peers, messages may be lost, and the claim timer of
a call may expire at any time; no call is cancelled.  As long as a call resolves its claim
window only after it has taken the want of every other node, as a request or as a refusal
that says so, it has elected the lowest nonce, whatever nonce the winner later announces its
fetch with.

`took` and `results` are not part of the program: they say whose wants a call has taken from
its channels, and what it has returned.
-/

namespace Debswarm.Fleet

open Function List Option

variable {n : Nat}

/-! ## What calls return -/

/-- What a call returns: where to get the package. -/
inductive WantResult (n : Nat)
  | fetchLAN (provider : Fin n)
  | fetchWAN
  | waitPeer (provider : Fin n)
  deriving DecidableEq, Repr

/-- What a call returns when it resolves its claim window. -/
def Member.decision (member : Member n) : WantResult n :=
  match member.elected with
  | some winner => .waitPeer winner.peer
  | none => .fetchWAN

/-- What a call returns when it reads that a peer is fetching. -/
def Member.fetchingResult (member : Member n) : Option (WantResult n) :=
  match member.fetchings with
  | [] => none
  | (fetcher, _) :: _ =>
    if fetcher.nonce < member.nonce then some (.waitPeer fetcher.peer) else none

/-- What a call returns when it reads that a peer does not have the package. -/
def Member.dontHaveResult (member : Member n) : Option (WantResult n) :=
  match member.dontHaves with
  | [] => none
  | reply :: rest =>
    let read := member.hearDontHave reply rest
    if read.awaiting = [] then some read.decision else none

/-- What an electing call returns in a step of its own, if it ends there. -/
def Member.returns (member : Member n) : Event n → Option (WantResult n)
  | .readHave _ => member.haves.head?.map .fetchLAN
  | .readFetching _ => member.fetchingResult
  | .readDontHave _ => member.dontHaveResult
  | .timeout node => if (peers node).all (· ∈ member.heard) then some member.decision else none
  | _ => none

/-- The peers whose wants an electing call takes from its channels in a step of its own. -/
def Member.takes (member : Member n) : Event n → List (Fin n)
  | .readWant _ => (member.wants.take 1).map PeerNonce.peer
  | .readDontHave _ => ((member.dontHaves.take 1).filter Prod.snd).map fun reply => reply.1.peer
  | _ => []

/-- Whose call takes a step. -/
def Event.caller : Event n → Option (Fin n)
  | .readHave node | .readWant node | .readFetching node | .readDontHave node
  | .timeout node => some node
  | _ => none

/-! ## The race -/

/-- The fleet, whose wants each call has taken, and what it has returned. -/
structure Race (n : Nat) where
  state : State n
  took : Fin n → List (Fin n)
  results : Fin n → Option (WantResult n)

/-- A step of the fleet, the expiry of a claim timer, or the loss of a message. -/
inductive RaceEvent (n : Nat)
  | step (event : Event n)
  | expire (node : Fin n)
  | lose (position : Nat)
  deriving DecidableEq, Repr

/-- What a call has to return when a given node wins. -/
def outcome (winner node : Fin n) : WantResult n :=
  if node = winner then .fetchWAN else .waitPeer winner

namespace Race

/-- The peers that a broadcast of a node reaches. -/
def sentTo (reaches : Fin n → Fin n → Bool) (node : Fin n) : List (Fin n) :=
  (peers node).filter (reaches node)

/-- All calls are registered; one whose broadcast reached nobody returns at once. -/
def start (nonces : Fin n → Nonce) (reaches : Fin n → Fin n → Bool) : Race n where
  state :=
    { members := fun node =>
        { Member.new.register node (nonces node) 0 with
          awaiting := sentTo reaches node
          phase := if sentTo reaches node = [] then .fetchingWAN false else .electing }
      network := (List.finRange n).flatMap fun node =>
        (sentTo reaches node).map fun peer => ⟨node, peer, .want (nonces node)⟩
      started := n }
  took _ := []
  results node := if sentTo reaches node = [] then some .fetchWAN else none

/-- A call takes a step of its own. -/
def note (event : Event n) (race : Race n) : Race n :=
  match event.caller with
  | none => race
  | some node =>
    let member := race.state.members node
    if member.phase = .electing then
      { race with
        took := update race.took node (member.takes event ++ race.took node)
        results :=
          update race.results node ((race.results node).or (member.returns event)) }
    else race

/-- One step of a race. -/
def next (race : Race n) : RaceEvent n → Race n
  | .step event => { race.note event with state := Fleet.next race.state event }
  | .expire node =>
    let member := race.state.members node
    if member.phase = .electing then
      { race with
        state := race.state.set node member.decideAction []
        results := update race.results node (some member.decision) }
    else race
  | .lose position =>
    { race with state := { race.state with network := race.state.network.eraseIdx position } }

/-- Whether the call of a node resolves its claim window in a step. -/
def resolves (race : Race n) (node : Fin n) (event : RaceEvent n) : Bool :=
  let member := race.state.members node
  member.phase = .electing &&
    (event = .expire node ||
      event = .step (.timeout node) && (member.returns (.timeout node)).isSome ||
      event = .step (.readDontHave node) && (member.returns (.readDontHave node)).isSome)

/-- A call resolves its claim window only after every want, and nobody has the package. -/
def InTurn (race : Race n) (event : RaceEvent n) : Prop :=
  (∀ node, race.resolves node event = true →
      ∀ peer ∈ peers node, peer ∈ (race.next event).took node) ∧
    ∀ envelope ∈ (race.next event).state.network,
      envelope.message ≠ .have ∧ envelope.message ≠ .fetched

instance (race : Race n) (event : RaceEvent n) : Decidable (race.InTurn event) :=
  inferInstanceAs (Decidable (_ ∧ _))

end Race

/-! ## What holds of a node during a race -/

section Invariant

variable (nonces : Fin n → Nonce) (winner : Fin n)

/-- Wants carry the nonce of their sender, and only the winner says that it is fetching. -/
def Envelope.Fair (envelope : Envelope n) : Prop :=
  envelope.sender ≠ envelope.receiver ∧
    match envelope.message with
    | .want nonce => nonce = nonces envelope.sender
    | .have => False
    | .fetching _ _ => envelope.sender = winner
    | .dontHave nonce alsoWanting => alsoWanting = true → nonce = nonces envelope.sender
    | .fetched => False

/-- A node in a race has elected no higher nonce than any it has taken, only the winner fetches, and
a call that has ended has returned what it has to. -/
structure Member.Racing (node : Fin n) (took : List (Fin n)) (result : Option (WantResult n))
    (member : Member n) : Prop where
  nonce : member.nonce = nonces node
  pending : ∀ nonce ∈ member.pending, nonce = nonces node
  begun : member.phase.isNew = false ∧ member.phase ≠ .joining
  fetches : member.phase.isFetchingWAN = true → node = winner
  records : ∀ fetch ∈ member.inFlight, fetch.fetcher = none → node = winner
  asked : ∀ request ∈ member.answering,
    request.peer ≠ node ∧ request.nonce = nonces request.peer
  haves : member.haves = []
  fetchings : ∀ entry ∈ member.fetchings, entry.1.peer = winner ∧ node ≠ winner
  wants : ∀ competitor ∈ member.wants, competitor.nonce = nonces competitor.peer
  dontHaves : ∀ reply ∈ member.dontHaves, reply.2 = true → reply.1.nonce = nonces reply.1.peer
  elected : ∀ best ∈ member.elected, best.nonce = nonces best.peer ∧ best.nonce < nonces node
  lowest : ∀ peer ∈ took, nonces peer < nonces node →
    ∃ best ∈ member.elected, best.nonce ≤ nonces peer
  right : ∀ returned ∈ result, returned = outcome winner node
  ended : member.phase ≠ .electing → result ≠ none

/-- What holds at every moment of a race. -/
structure Race.Fair (race : Race n) : Prop where
  members : ∀ node,
    (race.state.members node).Racing nonces winner node (race.took node) (race.results node)
  network : ∀ envelope ∈ race.state.network, envelope.Fair nonces winner

end Invariant

variable {nonces : Fin n → Nonce} {winner node : Fin n} {took : List (Fin n)}
  {result : Option (WantResult n)} {member : Member n}

/-! ### Handlers -/

theorem Member.Racing.handleMessage (racing : member.Racing nonces winner node took result)
    {sender : Fin n} {message : Message}
    (fair : Envelope.Fair nonces winner ⟨sender, node, message⟩) :
    (handleMessage sender message member).Racing nonces winner node took result := by
  obtain ⟨different, content⟩ := fair
  cases message with
  | want nonce =>
    refine { racing with asked := ?_ }
    rintro request ⟨rfl⟩
    exact ⟨different, content⟩
  | «have» => exact content.elim
  | fetching nonce isReply =>
    have isWinner : sender = winner := content
    refine { racing with records := ?_, fetchings := ?_ }
    · intro fetch isFetch own
      cases record : member.inFlight with
      | none =>
        simp only [Fleet.handleMessage, handleFetching, record, none_or, mem_some] at isFetch
        rw [← isFetch] at own
        cases own
      | some known =>
        simp only [Fleet.handleMessage, handleFetching, record, some_or, mem_some] at isFetch
        exact racing.records fetch (by rw [record, isFetch]; rfl) own
    · intro entry mem
      simp only [Fleet.handleMessage, handleFetching] at mem
      split at mem
      · rcases mem_append.mp mem with old | new
        · exact racing.fetchings entry old
        · rw [mem_singleton.mp new]
          exact ⟨isWinner, fun same => different (isWinner.trans same.symm)⟩
      · exact racing.fetchings entry mem
  | dontHave nonce alsoWanting =>
    simp only [Fleet.handleMessage, handleDontHave]
    split
    · refine { racing with dontHaves := ?_ }
      intro reply mem also
      rcases mem_append.mp mem with old | new
      · exact racing.dontHaves reply old also
      · rw [mem_singleton.mp new] at also ⊢
        exact content also
    · exact racing
  | fetched => exact content.elim

/-- A handler answers with its own nonce, and only the winner says that it is fetching. -/
theorem Member.Racing.handleWantPackage (racing : member.Racing nonces winner node took result)
    {request : Request n} (isRequest : member.answering = some request) :
    (handleWantPackage request member).1.Racing nonces winner node took result ∧
      ∀ reply ∈ (handleWantPackage request member).2, reply ≠ .have →
        Envelope.Fair nonces winner ⟨node, request.peer, reply⟩ := by
  obtain ⟨different, itsNonce⟩ := racing.asked request isRequest
  have answered : { member with answering := none }.Racing nonces winner node took result := by
    refine { racing with asked := ?_ }
    intro request none
    cases none
  have continued : ∀ check, { member with answering := some { request with check } }.Racing
      nonces winner node took result := by
    intro check
    refine { racing with asked := ?_ }
    rintro request ⟨rfl⟩
    exact ⟨different, itsNonce⟩
  unfold Fleet.handleWantPackage
  cases request.check with
  | cache =>
    dsimp only
    split
    · exact ⟨answered, fun reply isReply notHave => by cases isReply; exact (notHave rfl).elim⟩
    · exact ⟨continued _, fun reply none => by cases none⟩
  | inFlight =>
    dsimp only
    split
    · rename_i ownNonce record
      refine ⟨answered, ?_⟩
      rintro reply ⟨rfl⟩ -
      exact ⟨different.symm, racing.records _ record rfl⟩
    · exact ⟨continued _, fun reply none => by cases none⟩
  | pendingWants =>
    dsimp only
    split
    · rename_i ownNonce registered
      constructor
      · refine { answered with wants := ?_ }
        intro competitor mem
        rcases mem_append.mp mem with old | new
        · exact racing.wants competitor old
        · rw [mem_singleton.mp new]
          exact itsNonce
      · rintro reply ⟨rfl⟩ -
        exact ⟨different.symm, fun _ => racing.pending ownNonce registered⟩
    · refine ⟨answered, ?_⟩
      rintro reply ⟨rfl⟩ -
      exact ⟨different.symm, fun isTrue => by cases isTrue⟩

/-! ### Calls -/

/-- Electing keeps real competitors with a lower nonce, and the lowest of those taken. -/
theorem elect_lowest {elected : Option (PeerNonce n)} {competitor : PeerNonce n} {own : Nonce}
    (real : competitor.nonce = nonces competitor.peer)
    (kept : ∀ best ∈ elected, best.nonce = nonces best.peer ∧ best.nonce < own)
    (lowest : ∀ peer ∈ took, nonces peer < own → ∃ best ∈ elected, best.nonce ≤ nonces peer) :
    (∀ best ∈ elect own elected competitor, best.nonce = nonces best.peer ∧ best.nonce < own) ∧
      ∀ peer ∈ competitor.peer :: took, nonces peer < own →
        ∃ best ∈ elect own elected competitor, best.nonce ≤ nonces peer := by
  unfold elect
  split
  · rename_i better
    obtain ⟨lower, beats⟩ := better
    constructor
    · rintro best ⟨rfl⟩
      exact ⟨real, lower⟩
    · intro peer mem below
      refine ⟨competitor, rfl, ?_⟩
      rcases mem_cons.mp mem with rfl | old
      · rw [real]
        exact UInt32.le_refl _
      · obtain ⟨best, isBest, le⟩ := lowest peer old below
        rw [isBest, all_some, decide_eq_true_eq] at beats
        exact UInt32.le_trans (UInt32.le_of_lt beats) le
  · rename_i notBetter
    refine ⟨kept, ?_⟩
    intro peer mem below
    rcases mem_cons.mp mem with rfl | old
    · rw [← real] at below ⊢
      cases isElected : elected with
      | none =>
        rw [isElected] at notBetter
        exact (notBetter ⟨below, rfl⟩).elim
      | some best =>
        rw [isElected, all_some, decide_eq_true_eq] at notBetter
        exact ⟨best, rfl, UInt32.not_lt.mp fun beats => notBetter ⟨below, beats⟩⟩
    · exact lowest peer old below

theorem Member.Racing.readWant (racing : member.Racing nonces winner node took result) :
    member.readWant.Racing nonces winner node
      ((member.wants.take 1).map PeerNonce.peer ++ took) result := by
  unfold Member.readWant
  cases isWants : member.wants with
  | nil => exact racing
  | cons competitor rest =>
    have real := racing.wants competitor (by rw [isWants]; exact mem_cons_self)
    obtain ⟨kept, lowest⟩ := elect_lowest real racing.elected racing.lowest
    refine { racing with wants := ?_, elected := ?_, lowest := ?_ }
    · intro other mem
      exact racing.wants other (by rw [isWants]; exact mem_cons_of_mem _ mem)
    · rw [racing.nonce]
      exact kept
    · rw [racing.nonce]
      exact lowest

theorem Member.Racing.hearDontHave (racing : member.Racing nonces winner node took result)
    {reply : PeerNonce n × Bool} {rest : List (PeerNonce n × Bool)}
    (isDontHaves : member.dontHaves = reply :: rest) :
    (member.hearDontHave reply rest).Racing nonces winner node
      (([reply].filter Prod.snd).map (fun reply => reply.1.peer) ++ took) result := by
  have others : ∀ other ∈ rest, other.2 = true → other.1.nonce = nonces other.1.peer :=
    fun other mem => racing.dontHaves other (by rw [isDontHaves]; exact mem_cons_of_mem _ mem)
  obtain ⟨competitor, alsoWanting⟩ := reply
  cases alsoWanting with
  | false => exact { racing with dontHaves := others }
  | true =>
    have real := racing.dontHaves _ (by rw [isDontHaves]; exact mem_cons_self) rfl
    obtain ⟨kept, lowest⟩ := elect_lowest real racing.elected racing.lowest
    refine { racing with dontHaves := others, elected := ?_, lowest := ?_ }
    · rw [← racing.nonce] at kept
      exact racing.nonce ▸ kept
    · intro peer mem below
      have isElected : (member.hearDontHave (competitor, true) rest).elected =
          elect (nonces node) member.elected competitor := by
        rw [← racing.nonce]
        rfl
      rw [isElected]
      exact lowest peer mem below

theorem right_or (right : ∀ returned ∈ result, returned = outcome winner node)
    {returned : WantResult n} (isRight : returned = outcome winner node) :
    ∀ other ∈ result.or (some returned), other = outcome winner node := by
  intro other isResult
  cases result with
  | none =>
    rw [none_or, mem_some] at isResult
    rw [← isResult]
    exact isRight
  | some earlier => exact right other isResult

section

variable (racing : member.Racing nonces winner node took result)

include racing

theorem Member.Racing.waitFor (fetcher : PeerNonce n) {returned : WantResult n}
    (isRight : returned = outcome winner node) :
    (member.waitFor fetcher).Racing nonces winner node took (result.or (some returned)) := by
  refine { racing with
    begun := ⟨rfl, nofun⟩
    fetches := nofun
    records := ?_
    right := right_or racing.right isRight
    ended := ?_ }
  · intro fetch isFetch own
    cases record : member.inFlight with
    | none =>
      simp only [Member.waitFor, record, none_or, mem_some] at isFetch
      rw [← isFetch] at own
      cases own
    | some known =>
      simp only [Member.waitFor, record, some_or, mem_some] at isFetch
      exact racing.records fetch (by rw [record, isFetch]; rfl) own
  · intro _
    cases result <;> exact some_ne_none _

section

variable (distinct : Function.Injective nonces) (isLowest : ∀ other, nonces winner ≤ nonces other)
  (complete : ∀ peer ∈ peers node, peer ∈ took)

include distinct isLowest complete

/-- A call that has taken every want has elected the winner, or is the winner's. -/
theorem Member.Racing.decision_eq :
    member.decision = outcome winner node := by
  unfold Member.decision outcome
  by_cases wins : node = winner
  · rw [if_pos wins]
    cases isElected : member.elected with
    | none => rfl
    | some best =>
      obtain ⟨real, lower⟩ := racing.elected best isElected
      rw [real, wins] at lower
      exact absurd (isLowest best.peer) (UInt32.not_le.mpr lower)
  · rw [if_neg wins]
    have below : nonces winner < nonces node := by
      rw [UInt32.lt_iff_le_and_ne]
      exact ⟨isLowest node, fun same => wins (distinct same).symm⟩
    obtain ⟨best, isElected, le⟩ :=
      racing.lowest winner (complete winner (mem_peers.mpr (Ne.symm wins))) below
    obtain ⟨real, _⟩ := racing.elected best isElected
    have same : best.peer = winner := by
      apply distinct
      apply UInt32.le_antisymm _ (isLowest best.peer)
      rw [← real]
      exact le
    rw [isElected]
    exact congrArg WantResult.waitPeer same

theorem Member.Racing.decideAction :
    member.decideAction.Racing nonces winner node took (result.or (some member.decision)) := by
  have isRight := racing.decision_eq distinct isLowest complete
  cases isElected : member.elected with
  | some best =>
    have waits : member.decideAction = member.waitFor best := by
      rw [Member.decideAction, isElected]
    rw [waits]
    exact racing.waitFor best isRight
  | none =>
    have fetches : node = winner := by
      by_contra loses
      rw [Member.decision, isElected, outcome, if_neg loses] at isRight
      cases isRight
    have decides : member.decideAction = { member with
          phase := .fetchingWAN false
          inFlight := some ⟨none, member.nonce⟩ } := by
      rw [Member.decideAction, isElected]
    rw [decides]
    refine { racing with
      begun := ⟨rfl, nofun⟩
      fetches := fun _ => fetches
      records := fun _ _ _ => fetches
      right := right_or racing.right isRight
      ended := ?_ }
    intro _
    cases result <;> exact some_ne_none _

end

theorem Member.Racing.readFetching :
    member.readFetching.Racing nonces winner node took (result.or member.fetchingResult) := by
  unfold Member.readFetching Member.fetchingResult
  cases isFetchings : member.fetchings with
  | nil =>
    rw [or_none]
    exact racing
  | cons entry rest =>
    obtain ⟨isWinner, loses⟩ :=
      racing.fetchings entry (by rw [isFetchings]; exact mem_cons_self)
    have read : ∀ heard, { member with fetchings := rest, heard }.Racing nonces winner node
        took result := by
      intro heard
      refine { racing with fetchings := ?_ }
      intro other mem
      exact racing.fetchings other (by rw [isFetchings]; exact mem_cons_of_mem _ mem)
    dsimp only
    split
    · apply (read _).waitFor
      rw [outcome, if_neg loses, isWinner]
    · rw [or_none]
      exact read _

theorem Member.Racing.readDontHave (distinct : Function.Injective nonces)
    (isLowest : ∀ other, nonces winner ≤ nonces other)
    (complete : member.dontHaveResult.isSome = true → ∀ peer ∈ peers node,
      peer ∈ member.takes (.readDontHave node) ++ took) :
    member.readDontHave.Racing nonces winner node (member.takes (.readDontHave node) ++ took)
      (result.or member.dontHaveResult) := by
  unfold Member.takes Member.dontHaveResult at complete
  unfold Member.readDontHave Member.dontHaveResult Member.takes
  cases isDontHaves : member.dontHaves with
  | nil =>
    rw [or_none]
    exact racing
  | cons reply rest =>
    rw [isDontHaves] at complete
    have heard := racing.hearDontHave isDontHaves
    dsimp only at complete ⊢
    split
    · rename_i last
      rw [if_pos last] at complete
      exact heard.decideAction distinct isLowest (complete rfl)
    · rw [or_none]
      exact heard

end

end Debswarm.Fleet
