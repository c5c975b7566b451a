import Mathlib.Data.List.FinRange
import Mathlib.Logic.Function.Basic

/-!
# The fleet's election of a fetcher

Nodes on one network that want the same package agree on one of them to fetch it.  A node
broadcasts that it wants the package, with a random nonce, and collects the answers: that a
peer has it, is fetching it, or has nothing, in which case the peer says whether it wants
the package too.  The lowest nonce wins, and everybody else waits for the winner.

The model follows one hash on `n` nodes that all know each other.  Messages are delivered in
any order and none is lost.  The handler of a request looks at the cache, at the fetches and at
the call one after the other, and the call registers some time after it has looked for a fetch.
What concerns a call goes to one of its channels, which the call reads in any order.  Nobody has
the package at first, downloads succeed, and each node calls `WantPackage` at most once: calls
of one node are coalesced, and a node that has the package does not ask again.

`heard`, `round` and `answers`, and the mark on a `fetching` message that says whether it
answers a request, are not part of the program.
-/

namespace Debswarm.Fleet

open Function

/-- One proof for all membership tests of nodes. -/
instance lawfulBEqNode (n : Nat) : LawfulBEq (Fin n) :=
  instLawfulBEq

abbrev Nonce :=
  UInt32

/-- The messages of the protocol. -/
inductive Message
  | want (nonce : Nonce)
  | have
  | fetching (nonce : Nonce) (isReply : Bool)
  | dontHave (nonce : Nonce) (alsoWanting : Bool)
  | fetched
  deriving DecidableEq, Repr

/-- A message on its way. -/
structure Envelope (n : Nat) where
  sender : Fin n
  receiver : Fin n
  message : Message
  deriving DecidableEq, Repr

/-- How far a node is: not started; registering; about to wait for a known fetch; electing; told to
wait; told to fetch from a peer; told to fetch; done. -/
inductive Phase
  | idle
  | starting
  | joining
  | electing
  | waiting (released : Bool)
  | fetchingLAN
  | fetchingWAN (announced : Bool)
  | done
  deriving DecidableEq, Repr

/-- Before the registration of the call. -/
def Phase.isNew : Phase → Bool
  | .idle | .starting => true
  | _ => false

/-- Between the decision to fetch and its completion. -/
def Phase.isFetchingWAN : Phase → Bool
  | .fetchingWAN _ => true
  | _ => false

/-- Electing or fetching. -/
def Phase.isActive (phase : Phase) : Bool :=
  phase = .electing || phase.isFetchingWAN

/-- What a node knows of a fetch: the fetcher, `none` for itself, and its nonce. -/
structure FetchState (n : Nat) where
  fetcher : Option (Fin n)
  nonce : Nonce
  deriving DecidableEq, Repr

/-- A nonce from a peer, of its fetch or of its own election. -/
structure PeerNonce (n : Nat) where
  peer : Fin n
  nonce : Nonce
  deriving DecidableEq, Repr

/-- What the handler of a request looks at next. -/
inductive Check
  | cache
  | inFlight
  | pendingWants
  deriving DecidableEq, Repr

/-- A request that is being handled. -/
structure Request (n : Nat) where
  peer : Fin n
  nonce : Nonce
  check : Check
  deriving DecidableEq, Repr

/-- A node: its registration, the request being handled, and the call's channels and variables. -/
structure Member (n : Nat) where
  phase : Phase
  cached : Bool
  inFlight : Option (FetchState n)
  pending : Option Nonce
  answering : Option (Request n)
  haves : List (Fin n)
  fetchings : List (PeerNonce n × Bool)
  wants : List (PeerNonce n)
  dontHaves : List (PeerNonce n × Bool)
  nonce : Nonce
  awaiting : List (Fin n)
  elected : Option (PeerNonce n)
  heard : List (Fin n)
  round : Nat
  answers : Fin n → Option Message

/-- The nodes, the messages on their way, and how many elections have begun. -/
structure State (n : Nat) where
  members : Fin n → Member n
  network : List (Envelope n)
  started : Nat

variable {n : Nat}

/-- A node that has not heard of the package. -/
def Member.new : Member n :=
  ⟨.idle, false, none, none, none, [], [], [], [], 0, [], none, [], 0, fun _ => none⟩

/-- Nobody wants the package yet. -/
def State.new (n : Nat) : State n :=
  ⟨fun _ => .new, [], 0⟩

/-- All other nodes. -/
def peers (node : Fin n) : List (Fin n) :=
  (List.finRange n).filter (· ≠ node)

/-- A message to all other nodes. -/
def broadcast (node : Fin n) (message : Message) : List (Envelope n) :=
  (peers node).map fun peer => ⟨node, peer, message⟩

/-! ## Handling messages -/

def Member.take (sender : Fin n) (nonce : Nonce) (member : Member n) : Member n :=
  { member with answering := some ⟨sender, nonce, .cache⟩ }

/-- Answer a peer that wants the package, one look at a time; it may join our election. -/
def handleWantPackage (request : Request n) (member : Member n) : Member n × Option Message :=
  let answered := { member with answering := none }
  match request.check with
  | .cache =>
    if member.cached then (answered, some .have)
    else ({ member with answering := some { request with check := .inFlight } }, none)
  | .inFlight =>
    match member.inFlight with
    | some ⟨none, ownNonce⟩ => (answered, some (.fetching ownNonce true))
    | _ => ({ member with answering := some { request with check := .pendingWants } }, none)
  | .pendingWants =>
    match member.pending with
    | some ownNonce =>
      ({ answered with wants := member.wants ++ [⟨request.peer, request.nonce⟩] },
        some (.dontHave ownNonce true))
    | none => (answered, some (.dontHave 0 false))

/-- Pass on to our call that a peer has the package. -/
def handleHavePackage (sender : Fin n) (member : Member n) : Member n :=
  if member.pending.isSome then { member with haves := member.haves ++ [sender] } else member

/-- Record that a peer is fetching, and pass it on to our call. -/
def handleFetching (sender : Fin n) (nonce : Nonce) (isReply : Bool) (member : Member n) :
    Member n :=
  { member with
    inFlight := member.inFlight.or (some ⟨some sender, nonce⟩)
    fetchings :=
      if member.pending.isSome then member.fetchings ++ [(⟨sender, nonce⟩, isReply)]
      else member.fetchings }

/-- Pass on to our call that a peer does not have the package. -/
def handleDontHave (sender : Fin n) (nonce : Nonce) (alsoWanting : Bool) (member : Member n) :
    Member n :=
  if member.pending.isSome then
    { member with dontHaves := member.dontHaves ++ [(⟨sender, nonce⟩, alsoWanting)] }
  else member

/-- The fetcher that we know of is done: release those who wait for it. -/
def handleFetched (sender : Fin n) (member : Member n) : Member n :=
  if member.inFlight.any fun fetch => fetch.fetcher = some sender then
    { member with
      inFlight := none
      phase := if member.phase = .waiting false then .waiting true else member.phase }
  else member

/-! ## Wanting the package -/

/-- Keep the lowest nonce below our own. -/
def elect (nonce : Nonce) (elected : Option (PeerNonce n)) (competitor : PeerNonce n) :
    Option (PeerNonce n) :=
  if competitor.nonce < nonce ∧ elected.all (fun best => competitor.nonce < best.nonce) then
    some competitor
  else elected

/-- Register a call and begin its election. -/
def Member.register (node : Fin n) (nonce : Nonce) (round : Nat) (member : Member n) :
    Member n :=
  { member with
    phase := .electing
    pending := some nonce
    nonce
    awaiting := peers node
    elected := none
    heard := []
    round }

/-- Wait for a fetcher, and record it unless a fetch is on record. -/
def Member.waitFor (fetcher : PeerNonce n) (member : Member n) : Member n :=
  { member with
    phase := .waiting false
    inFlight := member.inFlight.or (some ⟨some fetcher.peer, fetcher.nonce⟩) }

/-- Resolve the claim window: wait for the elected peer, or fetch. -/
def Member.decideAction (member : Member n) : Member n :=
  match member.elected with
  | some winner => member.waitFor winner
  | none =>
    { member with
      phase := .fetchingWAN false
      inFlight := some ⟨none, member.nonce⟩ }

/-- The call reads that a peer has the package. -/
def Member.readHave (member : Member n) : Member n :=
  match member.haves with
  | [] => member
  | _ :: rest => { member with haves := rest, phase := .fetchingLAN }

/-- The call reads that a peer wants the package too. -/
def Member.readWant (member : Member n) : Member n :=
  match member.wants with
  | [] => member
  | competitor :: rest =>
    { member with
      wants := rest
      elected := elect member.nonce member.elected competitor }

/-- The call reads that a peer is fetching: with a lower nonce the peer has won. -/
def Member.readFetching (member : Member n) : Member n :=
  match member.fetchings with
  | [] => member
  | (fetcher, isReply) :: rest =>
    let read :=
      { member with
        fetchings := rest
        heard := if isReply then fetcher.peer :: member.heard else member.heard }
    if fetcher.nonce < member.nonce then read.waitFor fetcher else read

/-- What the call makes of a peer without the package, before it looks for the last answer. -/
def Member.hearDontHave (reply : PeerNonce n × Bool) (rest : List (PeerNonce n × Bool))
    (member : Member n) : Member n :=
  { member with
    dontHaves := rest
    elected := if reply.2 then elect member.nonce member.elected reply.1 else member.elected
    awaiting := member.awaiting.filter (· ≠ reply.1.peer)
    heard := reply.1.peer :: member.heard }

/-- The call reads that a peer does not have the package, and decides after the last
answer. -/
def Member.readDontHave (member : Member n) : Member n :=
  match member.dontHaves with
  | [] => member
  | reply :: rest =>
    let read := member.hearDontHave reply rest
    if read.awaiting = [] then read.decideAction else read

/-! ## The machine -/

/-- Change one node and send messages. -/
def State.set (node : Fin n) (member : Member n) (sent : List (Envelope n)) (state : State n) :
    State n :=
  { state with
    members := update state.members node member
    network := state.network ++ sent }

/-- A node calls `WantPackage`, and looks whether it has the package and knows of a fetch. -/
def Member.wantPackage (member : Member n) : Member n :=
  if member.cached then member
  else if member.inFlight.isSome then { member with phase := .joining }
  else { member with phase := .starting }

/-- The call draws a nonce and, if there are peers, begins an election. -/
def beginElection (node : Fin n) (nonce : Nonce) (state : State n) : State n :=
  let member := state.members node
  if peers node = [] then state.set node { member with phase := .fetchingWAN false } []
  else
    { state.set node (member.register node nonce state.started) (broadcast node (.want nonce)) with
      started := state.started + 1 }

/-- A node that knew of a fetch waits for it, or fetches if the record is gone. -/
def Member.attach (member : Member n) : Member n :=
  if member.inFlight.isSome then { member with phase := .waiting false }
  else { member with phase := .fetchingWAN false }

/-- Tell the peers that we are fetching, under a fresh nonce. -/
def notifyFetching (node : Fin n) (nonce : Nonce) (state : State n) : State n :=
  let member := state.members node
  state.set node { member with phase := .fetchingWAN true, inFlight := some ⟨none, nonce⟩ }
    (broadcast node (.fetching nonce false))

/-- Tell the peers that the package is here. -/
def notifyComplete (node : Fin n) (state : State n) : State n :=
  let member := state.members node
  state.set node { member with phase := .done, inFlight := none } (broadcast node .fetched)

/-- The handler of a request takes its next look, and sends and notes an answer if settled. -/
def answerRequest (node : Fin n) (request : Request n) (state : State n) : State n :=
  match handleWantPackage request (state.members node) with
  | (member, none) => state.set node member []
  | (member, some reply) =>
    let answered := state.set node member []
    let asker := answered.members request.peer
    answered.set request.peer
      { asker with answers := update asker.answers node (some reply) }
      [⟨node, request.peer, reply⟩]

def handleMessage (sender : Fin n) (message : Message) (member : Member n) : Member n :=
  match message with
  | .want nonce => member.take sender nonce
  | .have => handleHavePackage sender member
  | .fetching nonce isReply => handleFetching sender nonce isReply member
  | .dontHave nonce alsoWanting => handleDontHave sender nonce alsoWanting member
  | .fetched => handleFetched sender member

/-- What happens in the fleet. `deliver` takes any message on its way, `answer` goes on with a
request, `release` ends a registration, `store` a download. -/
inductive Event (n : Nat)
  | want (node : Fin n)
  | register (node : Fin n) (nonce : Nonce)
  | attach (node : Fin n)
  | deliver (position : Nat)
  | answer (node : Fin n)
  | readHave (node : Fin n)
  | readWant (node : Fin n)
  | readFetching (node : Fin n)
  | readDontHave (node : Fin n)
  | timeout (node : Fin n)
  | release (node : Fin n)
  | notifyFetching (node : Fin n) (nonce : Nonce)
  | store (node : Fin n)
  | notifyComplete (node : Fin n)
  | obtain (node : Fin n)
  deriving DecidableEq, Repr

/-- Change one node if its phase allows the step. -/
def State.act (node : Fin n) (allowed : Bool) (change : Member n → Member n) (state : State n) :
    State n :=
  if allowed then state.set node (change (state.members node)) [] else state

/-- One step. The claim timer expires only after every peer was heard. -/
def next (state : State n) : Event n → State n
  | .want node => state.act node ((state.members node).phase = .idle) Member.wantPackage
  | .register node nonce =>
    if (state.members node).phase = .starting then beginElection node nonce state else state
  | .attach node =>
    state.act node ((state.members node).phase = .joining) Member.attach
  | .deliver position =>
    match state.network[position]? with
    | none => state
    | some ⟨sender, receiver, message⟩ =>
      let delivered := { state with network := state.network.eraseIdx position }
      if (state.members receiver).answering.isSome then state
      else delivered.set receiver (handleMessage sender message (state.members receiver)) []
  | .answer node =>
    match (state.members node).answering with
    | none => state
    | some request => answerRequest node request state
  | .readHave node => state.act node ((state.members node).phase = .electing) Member.readHave
  | .readWant node => state.act node ((state.members node).phase = .electing) Member.readWant
  | .readFetching node =>
    state.act node ((state.members node).phase = .electing) Member.readFetching
  | .readDontHave node =>
    state.act node ((state.members node).phase = .electing) Member.readDontHave
  | .timeout node =>
    state.act node
      ((state.members node).phase = .electing &&
        (peers node).all (· ∈ (state.members node).heard))
      Member.decideAction
  | .release node =>
    state.act node ((state.members node).phase ≠ .electing) fun member =>
      { member with pending := none }
  | .notifyFetching node nonce =>
    if (state.members node).phase = .fetchingWAN false then Fleet.notifyFetching node nonce state
    else state
  | .store node =>
    state.act node (state.members node).phase.isFetchingWAN fun member =>
      { member with cached := true }
  | .notifyComplete node =>
    if (state.members node).phase = .fetchingWAN true ∧ (state.members node).cached then
      Fleet.notifyComplete node state
    else state
  | .obtain node =>
    state.act node
      ((state.members node).phase = .waiting true || (state.members node).phase = .fetchingLAN)
      fun member => { member with phase := .done, cached := true }

end Debswarm.Fleet
