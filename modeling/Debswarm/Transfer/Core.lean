import Debswarm.PackageIndex.Parse
import Debswarm.Wire.Reader

/-!
# Transferring byte ranges

A chunk of a package is a range of its bytes from `start` up to, but not including, `end`.
It can be fetched from a peer, over a stream that carries one request and one response, or
from a mirror over HTTP, where ranges include their last byte.  On both ways some values
mean "to the end of the file".

Time limits, connection set-up, rate limits, statistics and audit events are left out.
-/

namespace Debswarm.Transfer

open Text Wire

/-! ## The peer protocol -/

/-- Hash, start, end and a final newline. -/
def rangeRequestLen : Nat :=
  64 + 16 + 1

/-- The largest number that a signed 64-bit integer can hold. -/
def maxInt64 : Nat :=
  2 ^ 63 - 1

/-- The largest content that a peer may send. -/
def maxTransferSize : Int :=
  500 * 1024 * 1024

/-- A field of fixed width: what of the text fits, filled up with zero bytes. -/
def fixedField (width : Nat) (text : Str) : Str :=
  text.take width ++ List.replicate (width - text.length) 0

/-- The frame of a range request.  Negative offsets are sent as zero. -/
def encodeRangeRequest (sha256Hash : Str) (start stop : Int) : Str :=
  fixedField 64 sha256Hash ++ bigEndian 8 (max start 0).toNat ++ bigEndian 8 (max stop 0).toNat ++
    [10]

/-- How reading a range request fails. -/
inductive DecodeError
  | short
  | overflow (start stop : Nat)
  deriving DecidableEq, Repr

/-- Read a range request by its length; the newline at its end is not looked at. -/
def decodeRangeRequest (stream : Str) : Except DecodeError (Str × Int × Int) :=
  match readFull rangeRequestLen stream with
  | none => .error .short
  | some (frame, _) =>
    let start := fromBigEndian ((frame.drop 64).take 8)
    let stop := fromBigEndian ((frame.drop 72).take 8)
    if maxInt64 < start ∨ maxInt64 < stop then .error (.overflow start stop)
    else .ok (frame.take 64, start, stop)

/-- The size that precedes the content of a response. -/
def writeSize (size : Int) : Str :=
  bigEndian 8 (max size 0).toNat

/-- Whether a request may name a range. -/
inductive Protocol
  | transfer
  | transferRange
  deriving DecidableEq, Repr

/-- Whether the upload is granted, the content and known size of a hash, and if it is readable. -/
structure Server where
  accepts : Bool
  getContent : Str → Option (Str × Int)
  seekable : Bool

/-- The most bytes that a server reads of a request. -/
def maxRequestSize : Nat :=
  256

/-- The hash and the range that a request asks for, if it can be read. -/
def readRequest (protocol : Protocol) (request : Str) : Option (Str × Int × Int) :=
  let limited := request.take maxRequestSize
  match protocol with
  | .transferRange => (decodeRangeRequest limited).toOption
  | .transfer =>
    if limited.contains 10 then some (limited.takeWhile (· ≠ 10), 0, -1) else none

/-- Send a range. An end of zero or less, or beyond the content, means its end. -/
def sendRange (seekable : Bool) (content : Str) (totalSize start stop : Int) : Str :=
  let stop := if stop ≤ 0 ∨ totalSize < stop then totalSize else stop
  let start := max start 0
  if stop < start then writeSize 0
  else if totalSize ≤ start then writeSize 0
  else if 0 < start ∧ seekable = false ∧ (content.length : Int) < start then writeSize 0
  else writeSize (stop - start) ++ (content.drop start.toNat).take (stop - start).toNat

/-- Answer a request.  A request that cannot be read gets no answer. -/
def handleTransferRequest (server : Server) (protocol : Protocol) (request : Str) : Str :=
  if !server.accepts then writeSize 0
  else
    match readRequest protocol request with
    | none => []
    | some (sha256Hash, start, stop) =>
      if !PackageIndex.isHex64 sha256Hash then writeSize 0
      else
        match server.getContent sha256Hash with
        | none => writeSize 0
        | some (content, totalSize) => sendRange server.seekable content totalSize start stop

/-- How a download from a peer fails. -/
inductive TransferError
  | relayDisabled
  | negativeStart (start : Int)
  | badEnd (stop : Int)
  | readSize
  | sizeOverflow (size : Nat)
  | notFound
  | tooLarge (size : Int)
  | relayedTooLarge (size limit : Int)
  | readContent
  deriving DecidableEq, Repr

/-- How a peer is reached: over relays only or not, and how much may be sent that way. -/
structure Route where
  relayed : Bool
  relayedTransferMax : Int

variable (route : Route)

/-- Whether a route may carry no transfer at all. -/
def relayedTransferSkipped : Bool :=
  route.relayed && route.relayedTransferMax ≤ 0

/-- Whether a transfer is too large for its route. -/
def relayedSizeExceeded (size : Int) : Bool :=
  route.relayed && route.relayedTransferMax < size

/-- Memory that is set aside before the first byte has arrived. -/
def maxInitialAlloc : Int :=
  10 * 1024 * 1024

/-- Read content of a given size, the first part of a large one on its own. -/
def readContent (size : Int) (stream : Str) : Option Str :=
  if size ≤ maxInitialAlloc then (readFull size.toNat stream).map Prod.fst
  else do
    let (head, rest) ← readFull maxInitialAlloc.toNat stream
    let (tail, _) ← readFull (size - maxInitialAlloc).toNat rest
    return head ++ tail

/-- Check the announced size of a response and read its content. -/
def readResponse (response : Str) : Except TransferError Str :=
  match readBigEndian 8 response with
  | none => .error .readSize
  | some (announced, stream) =>
    if maxInt64 < announced then .error (.sizeOverflow announced)
    else if announced = 0 then .error .notFound
    else if maxTransferSize < announced then .error (.tooLarge announced)
    else if relayedSizeExceeded route announced then
      .error (.relayedTooLarge announced route.relayedTransferMax)
    else
      match readContent announced stream with
      | none => .error .readContent
      | some content => .ok content

/-- Which protocol a range needs. -/
def protocolFor (start stop : Int) : Protocol :=
  if 0 < start ∨ 0 < stop then .transferRange else .transfer

/-- Download a range from a peer, up to the end of the file when `stop` is -1. -/
def downloadRange (peer : Protocol → Str → Str) (sha256Hash : Str)
    (start stop : Int) : Except TransferError Str :=
  if relayedTransferSkipped route then .error .relayDisabled
  else
    match protocolFor start stop with
    | .transferRange =>
      if start < 0 then .error (.negativeStart start)
      else if stop < -1 then .error (.badEnd stop)
      else
        readResponse route (peer .transferRange (encodeRangeRequest sha256Hash start stop))
    | .transfer => readResponse route (peer .transfer (sha256Hash ++ [10]))

/-! ## Mirrors -/

/-- The value of a range header; a negative end means the end of the file. -/
def rangeHeader (rangeStart rangeEnd : Int) : Str :=
  if rangeEnd < 0 then ofAscii s!"bytes={rangeStart}-"
  else ofAscii s!"bytes={rangeStart}-{rangeEnd}"

/-- What one HTTP request brings: an error, or a response whose body may break off. -/
inductive Reply
  | failed (cause : Str)
  | response (status : Nat) (body : Str) (broken : Bool)
  deriving DecidableEq, Repr

/-- How one attempt at a mirror fails. -/
inductive FetchError
  | failed (cause : Str)
  | status (code : Nat)
  | tooShort (wanted : Int)
  | broken
  | tooLarge (limit : Int)
  deriving DecidableEq, Repr

/-- Whether another attempt is made after an error. -/
def FetchError.retryable : FetchError → Bool
  | .status code => !(400 ≤ code && code < 500)
  | .tooLarge _ => false
  | _ => true

/-- How a fetch fails: at an error that is not tried again, or after all attempts. -/
inductive RetryError
  | permanent (cause : FetchError)
  | exhausted (attempts : Nat) (last : FetchError)
  deriving DecidableEq, Repr

/-- Try again until an attempt succeeds, at most the given number of times more. -/
def retryFrom (maxAttempts : Nat) (attempt : Nat → Except FetchError Str) (last : FetchError) :
    Nat → Nat → Except RetryError Str
  | 0, _ => .error (.exhausted maxAttempts last)
  | remaining + 1, number =>
    match attempt number with
    | .ok data => .ok data
    | .error cause =>
      if cause.retryable then retryFrom maxAttempts attempt cause remaining (number + 1)
      else .error (.permanent cause)

/-- Make at least one attempt and at most the given number. -/
def retry (maxAttempts : Int) (attempt : Nat → Except FetchError Str) : Except RetryError Str :=
  let attempts := (max maxAttempts 1).toNat
  retryFrom attempts attempt (.failed []) attempts 0

/-- The part of a fetcher's configuration that a fetch reads. -/
structure Fetcher where
  maxRetries : Int
  maxResponseSize : Int

variable (fetcher : Fetcher)

def readLimited (limit : Int) (body : Str) (broken : Bool) : Except FetchError Str :=
  if broken ∧ (body.length : Int) < limit then .error .broken else .ok (body.take limit.toNat)

/-- Take a range out of a response that has the whole file. -/
def handleNonRangeResponse (body : Str) (broken : Bool)
    (start stop : Int) : Except FetchError Str :=
  if 0 < start ∧ (body.length : Int) < start then .error (.tooShort start)
  else
    let toRead := if stop < 0 then fetcher.maxResponseSize else stop - start + 1
    readLimited toRead (body.drop start.toNat) broken

def attemptRange (rangeStart rangeEnd : Int) :
    Reply → Except FetchError Str
  | .failed cause => .error (.failed cause)
  | .response status body broken =>
    if status ≠ 200 ∧ status ≠ 206 then .error (.status status)
    else if status = 200 then handleNonRangeResponse fetcher body broken rangeStart rangeEnd
    else
      let expectedSize :=
        if rangeEnd < 0 then fetcher.maxResponseSize else rangeEnd - rangeStart + 1
      readLimited (expectedSize + 1) body broken

def attemptWhole : Reply → Except FetchError Str
  | .failed cause => .error (.failed cause)
  | .response status body broken =>
    if status ≠ 200 then .error (.status status)
    else
      match readLimited (fetcher.maxResponseSize + 1) body broken with
      | .error cause => .error cause
      | .ok data =>
        if fetcher.maxResponseSize < data.length then
          .error (.tooLarge fetcher.maxResponseSize)
        else .ok data

/-- What a mirror replies to the requests of one fetch, by their range header if any. -/
abbrev Mirror :=
  Option Str → Nat → Reply

/-- Fetch a range, both ends included; a negative end means the end of the file. -/
def fetchRange (mirror : Mirror) (rangeStart rangeEnd : Int) :
    Except RetryError Str :=
  if rangeStart = 0 ∧ rangeEnd < 0 then
    retry fetcher.maxRetries fun number => attemptWhole fetcher (mirror none number)
  else
    retry fetcher.maxRetries fun number =>
      attemptRange fetcher rangeStart rangeEnd
        (mirror (some (rangeHeader rangeStart rangeEnd)) number)

/-- The mirror as a source of chunks, whose end is not included. -/
def mirrorChunk (mirror : Mirror) (start stop : Int) :
    Except RetryError Str :=
  fetchRange fetcher mirror start (if 0 < stop then stop - 1 else stop)

end Debswarm.Transfer
