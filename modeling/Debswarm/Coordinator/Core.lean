import Debswarm.Fleet.Wire
import Debswarm.Sync.Board
import Mathlib.Tactic.Simps.Basic

/-!
# A fleet coordinator

The coordinator of one node keeps the downloads that it knows of, its own and those of its
peers, and coordinates them with the fleet.  Any number of `WantPackage` calls run at once, while
one goroutine handles the messages of the peers, and downloads are announced, completed and
reaped.

Every section under a lock, every look at the cache, every channel operation and every
broadcast is one step, and the steps of different goroutines come in any order.  The times and
nonces of a step are part of the event.  The provider that is returned with a wait channel is
kept beside the coordinator, by `Coordinator.Guidance`.
-/

namespace Debswarm.Coordinator

open Fleet (WireMessage msgWantPackage msgHavePackage msgFetching msgFetchProgress
  msgFetched msgFetchFailed msgDontHave)
open Sync Text

universe u

variable {π : Type u}

/-! ## State -/

/-- What a waiter is told: success, a peer that failed or went silent, or our own error. -/
inductive Signal
  | fetched
  | peerFetchFailed
  | failed (error : Str)
  deriving DecidableEq, Repr

/-- A download that is known of.  Without a fetcher, it is our own. -/
structure FetchState (π : Type u) where
  size : Int
  fetcher : Option π
  nonce : UInt32
  offset : Int
  startTime : Int
  lastUpdate : Int
  deriving DecidableEq, Repr

/-- A download that begins. -/
def FetchState.start (size : Int) (fetcher : Option π) (nonce : UInt32) (now : Int) :
    FetchState π :=
  ⟨size, fetcher, nonce, 0, now, now⟩

def FetchState.isStale (now timeout : Int) (state : FetchState π) : Bool :=
  timeout < now - state.lastUpdate

/-- The downloads by hash. -/
abbrev InFlight (π : Type u) :=
  Board Str (FetchState π) Signal

structure FetchingResponse (π : Type u) where
  peer : π
  nonce : UInt32
  deriving DecidableEq, Repr

structure DontHaveResponse (π : Type u) where
  peer : π
  nonce : UInt32
  alsoWanting : Bool
  deriving DecidableEq, Repr

/-- What a `WantPackage` call returns.  A call that is cancelled returns an error too. -/
inductive WantResult (π : Type u)
  | fetchWAN (cancelled : Bool)
  | waitPeer (channel : Nat)
  | fetchLAN (provider : π)
  deriving DecidableEq, Repr

/-- Where a `WantPackage` call is: not made; looking for a download, or about to wait for one;
looking for peers; registering; broadcasting; in its loop; and with its result. -/
inductive Phase (π : Type u)
  | idle
  | lookingUp
  | joining
  | preparing
  | registering
  | broadcasting
  | electing
  | leaving (result : WantResult π)
  | unregistering (result : WantResult π)
  | returned (result : WantResult π)
  deriving DecidableEq, Repr

/-- A `WantPackage` call, whose channels hold as many messages as there are `fleetPeers`. -/
structure Call (π : Type u) where
  phase : Phase π
  hash : Str
  size : Int
  nonce : UInt32
  fleetPeers : List π
  haves : List π
  fetchings : List (FetchingResponse π)
  wants : List (FetchingResponse π)
  dontHaves : List (DontHaveResponse π)
  done : Bool
  awaiting : List π
  elected : Option (FetchingResponse π)

def Call.idle : Call π :=
  ⟨.idle, [], 0, 0, [], [], [], [], [], false, [], none⟩

/-- A message on its way to the channels of a call. -/
inductive Delivery (π : Type u)
  | have (provider : π)
  | want (response : FetchingResponse π)
  | fetching (response : FetchingResponse π)
  | dontHave (response : DontHaveResponse π)
  deriving DecidableEq, Repr

/-- What the handler of a request looks at next. -/
inductive Check
  | cache
  | inFlight
  | pendingWants
  deriving DecidableEq, Repr

/-- The handler waits, answers a request, looks for the call of a message, or sends to it. -/
inductive Handling (π : Type u)
  | idle
  | answering (sender : π) (message : WireMessage) (check : Check)
  | routing (hash : Str) (delivery : Delivery π)
  | sending (call : Nat) (delivery : Delivery π)
  deriving DecidableEq, Repr

/-- A coordinator and the messages it sent, without a receiver for broadcasts to all peers. -/
structure State (π : Type u) where
  staleTimeout : Int
  cached : Str → Bool
  inFlight : InFlight π
  pendingWants : Table Str Nat
  calls : Nat → Call π
  msgChan : List (π × WireMessage)
  handling : Handling π
  sent : List (Option π × WireMessage)

def State.new (staleTimeout : Int) (cached : Str → Bool) : State π where
  staleTimeout := staleTimeout
  cached := cached
  inFlight := .empty
  pendingWants := Table.empty
  calls := fun _ => .idle
  msgChan := []
  handling := .idle
  sent := []

@[simps]
def State.setCall (id : Nat) (call : Call π) (state : State π) : State π :=
  { state with calls := Function.update state.calls id call }

/-- A call goes on to a phase. -/
@[simps!]
def State.goTo (id : Nat) (phase : Phase π) (state : State π) : State π :=
  state.setCall id { state.calls id with phase }

/-! ## Wanting a package -/

/-- A call begins with a look at the cache. -/
def wantPackage (id : Nat) (hash : Str) (size : Int) (state : State π) : State π :=
  state.setCall id
    { Call.idle with
      hash, size
      phase := if state.cached hash then .returned (.fetchWAN false) else .lookingUp }

/-- The call looks for a download. -/
def lookUp (id : Nat) (state : State π) : State π :=
  state.goTo id (if (state.inFlight.look (state.calls id).hash).isSome then .joining
    else .preparing)

/-- The call waits for the download that it found, unless that is over by now. -/
def join (id : Nat) (state : State π) : State π :=
  match state.inFlight.join (state.calls id).hash with
  | (some channel, inFlight) =>
    { state with inFlight }.goTo id (.returned (.waitPeer channel))
  | (none, _) => state.goTo id (.returned (.fetchWAN false))

/-- The call draws a nonce and looks for peers. -/
def prepare (id : Nat) (nonce : UInt32) (fleetPeers : List π) (state : State π) : State π :=
  state.setCall id
    { state.calls id with
      nonce, fleetPeers
      phase := if fleetPeers = [] then .returned (.fetchWAN false) else .registering }

/-- The call registers with the message handler. -/
def register (id : Nat) (state : State π) : State π :=
  { state with pendingWants := state.pendingWants.set (state.calls id).hash id }.goTo id
    .broadcasting

/-- The call asks its peers, of which some get the message. -/
def broadcast (id : Nat) (sentTo : List π) (state : State π) : State π :=
  let call := state.calls id
  let message : WireMessage := ⟨msgWantPackage, call.nonce, call.hash, call.size, 0⟩
  { state with sent := state.sent ++ sentTo.map fun peer => (some peer, message) }.setCall id
    { call with
      awaiting := sentTo
      phase := if sentTo = [] then .leaving (.fetchWAN false) else .electing }

/-- Keep the lowest nonce below our own. -/
def elect (nonce : UInt32) (elected : Option (FetchingResponse π))
    (competitor : FetchingResponse π) : Option (FetchingResponse π) :=
  if competitor.nonce < nonce ∧ elected.all (fun best => competitor.nonce < best.nonce) then
    some competitor
  else elected

/-- The call waits for a fetcher, which is recorded unless a download is known of. -/
def waitFor (now : Int) (fetcher : FetchingResponse π) (id : Nat) (state : State π) : State π :=
  let call := state.calls id
  let (channel, inFlight) := state.inFlight.joinOrAdd call.hash
    (.start call.size (some fetcher.peer) fetcher.nonce now)
  { state with inFlight }.goTo id (.leaving (.waitPeer channel))

/-- The call resolves its claim window: it waits for the elected peer, or fetches. -/
def resolve (now : Int) (id : Nat) (state : State π) : State π :=
  let call := state.calls id
  match call.elected with
  | some winner => waitFor now winner id state
  | none =>
    { state with
      inFlight := state.inFlight.replace call.hash (.start call.size none call.nonce now) }.goTo
      id (.leaving (.fetchWAN false))

/-- The call reads that a peer has the package. -/
def readHave (id : Nat) (state : State π) : State π :=
  let call := state.calls id
  match call.haves with
  | [] => state
  | provider :: rest =>
    state.setCall id { call with haves := rest, phase := .leaving (.fetchLAN provider) }

/-- The call reads that a peer wants the package too. -/
def readWant (id : Nat) (state : State π) : State π :=
  let call := state.calls id
  match call.wants with
  | [] => state
  | competitor :: rest =>
    state.setCall id
      { call with
        wants := rest
        elected := elect call.nonce call.elected competitor }

/-- The call reads that a peer is fetching: with a lower nonce the peer has won. -/
def readFetching (now : Int) (id : Nat) (state : State π) : State π :=
  let call := state.calls id
  match call.fetchings with
  | [] => state
  | fetcher :: rest =>
    let read := state.setCall id { call with fetchings := rest }
    if fetcher.nonce < call.nonce then waitFor now fetcher id read else read

section Peers

variable [DecidableEq π]

/-- What a call makes of a peer that does not have the package. -/
def Call.hear (response : DontHaveResponse π) (rest : List (DontHaveResponse π))
    (call : Call π) : Call π :=
  { call with
    dontHaves := rest
    elected := if response.alsoWanting then
        elect call.nonce call.elected ⟨response.peer, response.nonce⟩
      else call.elected
    awaiting := call.awaiting.filter (· ≠ response.peer) }

/-- The call reads that a peer does not have the package, and decides after the last
answer. -/
def readDontHave (now : Int) (id : Nat) (state : State π) : State π :=
  let call := state.calls id
  match call.dontHaves with
  | [] => state
  | response :: rest =>
    let heard := call.hear response rest
    let read := state.setCall id heard
    if heard.awaiting = [] then resolve now id read else read

/-- The call closes its registration. -/
def closeDone (id : Nat) (result : WantResult π) (state : State π) : State π :=
  state.setCall id { state.calls id with done := true, phase := .unregistering result }

/-- The call removes the registration for its hash and returns. -/
def unregister (id : Nat) (result : WantResult π) (state : State π) : State π :=
  { state with pendingWants := state.pendingWants.delete (state.calls id).hash }.goTo id
    (.returned result)

/-! ## Announcing downloads -/

/-- We begin to download. -/
def notifyFetching (hash : Str) (size : Int) (nonce : UInt32) (now : Int) (state : State π) :
    State π :=
  { state with
    inFlight := state.inFlight.reviseOrAdd hash (.start size none nonce now) fun download =>
      { download with size, fetcher := none, nonce, startTime := now, lastUpdate := now }
    sent := state.sent ++ [(none, ⟨msgFetching, nonce, hash, size, 0⟩)] }

/-- Our download makes progress. -/
def notifyProgress (hash : Str) (offset now : Int) (state : State π) : State π :=
  { state with
    inFlight := state.inFlight.revise hash fun download =>
      { download with offset, lastUpdate := now } }

def notifyComplete (hash : Str) (state : State π) : State π :=
  let size := (state.inFlight.look hash).elim 0 FetchState.size
  { state with
    inFlight := state.inFlight.releaseIf (fun _ => true) .fetched hash
    sent := state.sent ++ [(none, ⟨msgFetched, 0, hash, size, 0⟩)] }

def notifyFailed (hash error : Str) (state : State π) : State π :=
  { state with
    inFlight := state.inFlight.releaseIf (fun _ => true) (.failed error) hash
    sent := state.sent ++ [(none, ⟨msgFetchFailed, 0, hash, 0, 0⟩)] }

/-- Drop the downloads of peers that went silent. -/
def reapStale (now : Int) (state : State π) : State π :=
  { state with
    inFlight := state.inFlight.releaseAll
      (fun download => download.fetcher.isSome && download.isStale now state.staleTimeout)
      .peerFetchFailed }

/-! ## Handling messages -/

/-- The number of messages that wait to be handled. -/
def msgChanCapacity : Nat :=
  100

/-- A message of a peer arrives.  It is dropped if too many wait. -/
def receive (sender : π) (message : WireMessage) (state : State π) : State π :=
  if state.msgChan.length < msgChanCapacity then
    { state with msgChan := state.msgChan ++ [(sender, message)] }
  else state

/-- Look for the call that a message is for. -/
def route (hash : Str) (delivery : Delivery π) (state : State π) : State π :=
  { state with
    handling := match state.pendingWants.find? hash with
      | some call => .sending call delivery
      | none => .idle }

/-- Answer a request, and go on to the next message. -/
def State.reply (receiver : π) (message : WireMessage) (state : State π) : State π :=
  { state with
    handling := .idle
    sent := state.sent ++ [(some receiver, message)] }

/-- Answer a peer that wants a package, one look at a time. -/
def handleWantPackage (sender : π) (message : WireMessage) (check : Check) (state : State π) :
    State π :=
  match check with
  | .cache =>
    if state.cached message.hash then
      state.reply sender ⟨msgHavePackage, 0, message.hash, 0, 0⟩
    else { state with handling := .answering sender message .inFlight }
  | .inFlight =>
    match state.inFlight.look message.hash with
    | some ⟨size, none, nonce, _, _, _⟩ =>
      state.reply sender ⟨msgFetching, nonce, message.hash, size, 0⟩
    | _ => { state with handling := .answering sender message .pendingWants }
  | .pendingWants =>
    match state.pendingWants.find? message.hash with
    | some call =>
      { state with handling := .sending call (.want ⟨sender, message.nonce⟩) }
    | none => state.reply sender ⟨msgDontHave, 0, message.hash, 0, 0⟩

/-- Record that a peer is fetching. -/
def handleFetching (now : Int) (sender : π) (message : WireMessage) (state : State π) :
    State π :=
  { state with
    inFlight := state.inFlight.reviseOrAdd message.hash
      (.start message.size (some sender) message.nonce now) id
    handling := .routing message.hash (.fetching ⟨sender, message.nonce⟩) }

/-- A peer reports the progress of its download. -/
def handleFetchProgress (now : Int) (sender : π) (message : WireMessage) (state : State π) :
    State π :=
  { state with
    inFlight := state.inFlight.revise message.hash fun download =>
      if download.fetcher = some sender then
        { download with offset := message.offset, lastUpdate := now }
      else download }

/-- The fetcher of a download is done with it. -/
def endFetch (signal : Signal) (sender : π) (message : WireMessage) (state : State π) :
    State π :=
  { state with
    inFlight := state.inFlight.releaseIf (fun download => download.fetcher = some sender) signal
      message.hash }

def handleFetched : π → WireMessage → State π → State π :=
  endFetch .fetched

def handleFetchFailed : π → WireMessage → State π → State π :=
  endFetch .peerFetchFailed

/-- Begin to handle a message.  Messages of unknown types are ignored. -/
def handleMessage (now : Int) (sender : π) (message : WireMessage) (state : State π) :
    State π :=
  if message.type = msgWantPackage then
    { state with handling := .answering sender message .cache }
  else if message.type = msgHavePackage then route message.hash (.have sender) state
  else if message.type = msgFetching then handleFetching now sender message state
  else if message.type = msgFetchProgress then handleFetchProgress now sender message state
  else if message.type = msgFetched then handleFetched sender message state
  else if message.type = msgFetchFailed then handleFetchFailed sender message state
  else if message.type = msgDontHave then
    route message.hash (.dontHave ⟨sender, message.nonce, message.offset = 1⟩) state
  else state

/-- Put a message into a channel of a call, if the channel has room. -/
def Call.push (delivery : Delivery π) (call : Call π) : Option (Call π) :=
  let room := call.fleetPeers.length
  match delivery with
  | .have provider =>
    if call.haves.length < room then some { call with haves := call.haves ++ [provider] }
    else none
  | .want response =>
    if call.wants.length < room then some { call with wants := call.wants ++ [response] }
    else none
  | .fetching response =>
    if call.fetchings.length < room then
      some { call with fetchings := call.fetchings ++ [response] }
    else none
  | .dontHave response =>
    if call.dontHaves.length < room then
      some { call with dontHaves := call.dontHaves ++ [response] }
    else none

omit [DecidableEq π] in
theorem Call.push_eq {delivery : Delivery π} {call pushed : Call π}
    (isPushed : call.push delivery = some pushed) :
    pushed.hash = call.hash ∧ pushed.phase = call.phase := by
  unfold Call.push at isPushed
  split at isPushed <;>
  · obtain ⟨-, made⟩ := Option.ite_none_right_eq_some.mp isPushed
    cases made
    exact ⟨rfl, rfl⟩

/-- A delivery is over.  A peer that wants a package that we want too is told so. -/
def finishDelivery (call : Call π) (delivery : Delivery π) (state : State π) : State π :=
  match delivery with
  | .want response => state.reply response.peer ⟨msgDontHave, call.nonce, call.hash, 0, 1⟩
  | _ => { state with handling := .idle }

/-- Send to a channel of a call, or give up because the call is done; wait if neither goes. -/
def deliver (giveUp : Bool) (id : Nat) (delivery : Delivery π) (state : State π) : State π :=
  let call := state.calls id
  match call.push delivery with
  | some pushed =>
    if giveUp && call.done then finishDelivery call delivery state
    else finishDelivery call delivery (state.setCall id pushed)
  | none => if call.done then finishDelivery call delivery state else state

/-- The next step of the message handler. -/
def handle (giveUp : Bool) (now : Int) (state : State π) : State π :=
  match state.handling with
  | .idle =>
    match state.msgChan with
    | [] => state
    | (sender, message) :: rest => handleMessage now sender message { state with msgChan := rest }
  | .answering sender message check => handleWantPackage sender message check state
  | .routing hash delivery => route hash delivery state
  | .sending id delivery => deliver giveUp id delivery state

/-! ## The machine -/

/-- The steps of calls, of the message handler and of announcers, and changes of the cache. -/
inductive Event (π : Type u)
  | want (id : Nat) (hash : Str) (size : Int)
  | lookUp (id : Nat)
  | join (id : Nat)
  | prepare (id : Nat) (nonce : UInt32) (fleetPeers : List π)
  | register (id : Nat)
  | broadcast (id : Nat) (sentTo : List π)
  | readHave (id : Nat)
  | readWant (id : Nat)
  | readFetching (id : Nat) (now : Int)
  | readDontHave (id : Nat) (now : Int)
  | timeout (id : Nat) (now : Int)
  | cancel (id : Nat)
  | leave (id : Nat)
  | notifyFetching (hash : Str) (size : Int) (nonce : UInt32) (now : Int)
  | notifyProgress (hash : Str) (offset now : Int)
  | notifyComplete (hash : Str)
  | notifyFailed (hash error : Str)
  | receive (sender : π) (message : WireMessage)
  | handle (giveUp : Bool) (now : Int)
  | reapStale (now : Int)
  | cache (cached : Str → Bool)

/-- The deferred steps of a call. -/
def leave (id : Nat) (state : State π) : State π :=
  match (state.calls id).phase with
  | .leaving result => closeDone id result state
  | .unregistering result => unregister id result state
  | _ => state

/-- Make a step of a call in a phase. -/
def State.during (phase : Phase π) (id : Nat) (step : State π → State π) (state : State π) :
    State π :=
  if (state.calls id).phase = phase then step state else state

/-- One step.  An event that has no place in the phase of its call changes nothing. -/
def next (state : State π) : Event π → State π
  | .want id hash size => state.during .idle id (wantPackage id hash size)
  | .lookUp id => state.during .lookingUp id (lookUp id)
  | .join id => state.during .joining id (join id)
  | .prepare id nonce fleetPeers =>
    state.during .preparing id (prepare id nonce fleetPeers)
  | .register id => state.during .registering id (register id)
  | .broadcast id sentTo => state.during .broadcasting id (broadcast id sentTo)
  | .readHave id => state.during .electing id (readHave id)
  | .readWant id => state.during .electing id (readWant id)
  | .readFetching id now => state.during .electing id (readFetching now id)
  | .readDontHave id now => state.during .electing id (readDontHave now id)
  | .timeout id now => state.during .electing id (resolve now id)
  | .cancel id => state.during .electing id (State.goTo id (.leaving (.fetchWAN true)))
  | .leave id => leave id state
  | .notifyFetching hash size nonce now => notifyFetching hash size nonce now state
  | .notifyProgress hash offset now => notifyProgress hash offset now state
  | .notifyComplete hash => notifyComplete hash state
  | .notifyFailed hash error => notifyFailed hash error state
  | .receive sender message => receive sender message state
  | .handle giveUp now => handle giveUp now state
  | .reapStale now => reapStale now state
  | .cache cached => { state with cached }

end Peers

end Debswarm.Coordinator
