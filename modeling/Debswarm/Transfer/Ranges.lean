import Debswarm.Transfer.Core

/-!
# One range, three ways

Whichever way a chunk is fetched, from a peer, from a mirror that honours ranges or from
one that ignores them, the bytes are those of the range.  The peer protocol is followed
from the frame of the request to the content of the response, for offsets with any bytes
in them.
-/

namespace Debswarm.Transfer

open List Text Wire

/-- The bytes of a content from `start` up to, but not including, `stop`. -/
def slice (content : Str) (start stop : Nat) : Str :=
  (content.drop start).take (stop - start)

variable {content sha256Hash : Str} {stop start : Nat}

theorem length_slice (start : Nat) (within : stop ≤ content.length) :
    (slice content start stop).length = stop - start := by
  simp only [slice, length_take, length_drop]
  omega

/-! ## The request -/

theorem fixedField_of_length {width : Nat} {text : Str} (exact : text.length = width) :
    fixedField width text = text := by
  rw [fixedField, ← exact, take_length, Nat.sub_self, replicate_zero, append_nil]

@[simp]
theorem length_fixedField (width : Nat) (text : Str) : (fixedField width text).length = width := by
  simp only [fixedField, length_append, length_take, length_replicate]
  omega

section

variable (width : sha256Hash.length = 64) (startFits : start ≤ maxInt64)
  (stopFits : stop ≤ maxInt64)

include width startFits stopFits

/-- A frame is read back as it was written, whatever bytes the offsets contain. -/
theorem decodeRangeRequest_encodeRangeRequest (rest : Str) :
    decodeRangeRequest (encodeRangeRequest sha256Hash start stop ++ rest) =
      .ok (sha256Hash, start, stop) := by
  have frame : encodeRangeRequest sha256Hash start stop =
      sha256Hash ++ (bigEndian 8 start ++ (bigEndian 8 stop ++ [10])) := by
    simp [encodeRangeRequest, fixedField_of_length width]
  have frameLength : (encodeRangeRequest sha256Hash start stop).length = rangeRequestLen := by
    simp [frame, width, rangeRequestLen]
  have taken := readFull_append (encodeRangeRequest sha256Hash start stop) rest
  rw [frameLength] at taken
  have hashField : (encodeRangeRequest sha256Hash start stop).take 64 = sha256Hash := by
    rw [frame, ← width, take_left']
    rfl
  have startField : ((encodeRangeRequest sha256Hash start stop).drop 64).take 8 =
      bigEndian 8 start := by
    rw [frame, ← width, drop_left' rfl]
    exact take_left' (length_bigEndian 8 start)
  have stopField : ((encodeRangeRequest sha256Hash start stop).drop 72).take 8 =
      bigEndian 8 stop := by
    have offset : (sha256Hash ++ bigEndian 8 start).length = 72 := by simp [width]
    rw [frame, ← append_assoc, drop_left' offset]
    exact take_left' (length_bigEndian 8 stop)
  have fits : ∀ value ≤ maxInt64, value % 256 ^ 8 = value := by
    intro value bound
    apply Nat.mod_eq_of_lt
    unfold maxInt64 at bound
    omega
  simp only [decodeRangeRequest, taken, hashField, startField, stopField, fromBigEndian_bigEndian,
    fits start startFits, fits stop stopFits, if_neg (not_or.mpr ⟨not_lt.mpr startFits,
      not_lt.mpr stopFits⟩)]

/-- A server reads a range request of its own protocol whole. -/
theorem readRequest_encodeRangeRequest :
    readRequest .transferRange (encodeRangeRequest sha256Hash start stop) =
      some (sha256Hash, (start : Int), (stop : Int)) := by
  have frameLength : (encodeRangeRequest sha256Hash start stop).length = 81 := by
    simp [encodeRangeRequest, length_fixedField]
  have unlimited : (encodeRangeRequest sha256Hash start stop).take maxRequestSize =
      encodeRangeRequest sha256Hash start stop :=
    take_of_length_le (by rw [frameLength]; decide)
  have decoded := decodeRangeRequest_encodeRangeRequest width startFits stopFits []
  rw [append_nil] at decoded
  simp [readRequest, unlimited, decoded, Except.toOption]

end

/-! ## The response -/

/-- A range within the content is sent as its size and its bytes. -/
theorem sendRange_of_within (seekable : Bool) (ordered : start < stop)
    (within : stop ≤ content.length) :
    sendRange seekable content content.length start stop =
      writeSize (stop - start : Nat) ++ slice content start stop := by
  have stopKept : (if (stop : Int) ≤ 0 ∨ (content.length : Int) < stop then
      (content.length : Int) else stop) = stop := by
    apply if_neg
    omega
  have size : ((stop : Int) - start) = ((stop - start : Nat) : Int) := by omega
  have startKept : max (start : Int) 0 = start := by omega
  simp only [sendRange, stopKept, startKept]
  rw [if_neg (by omega), if_neg (by omega), if_neg (by omega), size]
  rfl

/-- Content is read in full, in one part or in two. -/
@[simp]
theorem readContent_of_length (content : Str) :
    readContent content.length content = some content := by
  have whole : ∀ bytes : Str, readFull bytes.length bytes = some (bytes, []) := by
    intro bytes
    have taken := readFull_append bytes []
    rwa [List.append_nil] at taken
  unfold readContent
  split
  · simp [whole]
  · rename_i large
    have headLength : maxInitialAlloc.toNat ≤ content.length := by
      unfold maxInitialAlloc at large ⊢
      omega
    have tailLength : ((content.length : Int) - maxInitialAlloc).toNat =
        (content.drop maxInitialAlloc.toNat).length := by
      rw [List.length_drop]
      unfold maxInitialAlloc
      omega
    have head : readFull maxInitialAlloc.toNat content =
        some (content.take maxInitialAlloc.toNat, content.drop maxInitialAlloc.toNat) :=
      if_pos headLength
    have tail : readFull ((content.length : Int) - maxInitialAlloc).toNat
        (content.drop maxInitialAlloc.toNat) = some (content.drop maxInitialAlloc.toNat, []) := by
      rw [tailLength]
      exact whole _
    simp only [head, tail, Option.bind_eq_bind, Option.bind_some, Option.pure_def,
      List.take_append_drop]

/-- A response with a size that is not zero and within the limits is read whole. -/
theorem readResponse_of_limited {route : Route} (nonempty : content ≠ [])
    (limited : (content.length : Int) ≤ maxTransferSize)
    (carried : route.relayed = true → (content.length : Int) ≤ route.relayedTransferMax) :
    readResponse route (writeSize content.length ++ content) = .ok content := by
  have bound : content.length < 256 ^ 8 := by
    unfold maxTransferSize at limited
    omega
  have size : readBigEndian 8 (writeSize content.length ++ content) =
      some (content.length, content) := by
    have read := readBigEndian_append 8 content.length content
    rw [Nat.mod_eq_of_lt bound] at read
    simpa [writeSize] using read
  have small : ¬ maxInt64 < content.length := by
    unfold maxTransferSize at limited
    unfold maxInt64
    omega
  have notEmpty : content.length ≠ 0 := fun zero => nonempty (length_eq_zero_iff.mp zero)
  have onRoute : relayedSizeExceeded route content.length = false := by
    cases relayed : route.relayed with
    | false => simp [relayedSizeExceeded, relayed]
    | true => simp [relayedSizeExceeded, relayed, carried relayed]
  simp only [readResponse, size, if_neg small, if_neg notEmpty, if_neg (not_lt.mpr limited),
    onRoute, readContent_of_length]
  rfl

/-- A range that a peer has is downloaded as the bytes of the range. -/
theorem downloadRange_eq_slice {server : Server} {route : Route} (ordered : start < stop)
    (within : stop ≤ content.length) (limited : (content.length : Int) ≤ maxTransferSize)
    (accepts : server.accepts = true) (hexadecimal : PackageIndex.isHex64 sha256Hash = true)
    (has : server.getContent sha256Hash = some (content, (content.length : Int)))
    (carried : route.relayed = true → ((stop - start : Nat) : Int) ≤ route.relayedTransferMax) :
    downloadRange route (handleTransferRequest server) sha256Hash start stop =
      .ok (slice content start stop) := by
  have width : sha256Hash.length = 64 := by
    rw [PackageIndex.isHex64, Bool.and_eq_true, decide_eq_true_eq] at hexadecimal
    exact hexadecimal.1
  have fits : ∀ value ≤ content.length, value ≤ maxInt64 := by
    intro value bound
    unfold maxTransferSize at limited
    unfold maxInt64
    omega
  have sliceLength := length_slice start within
  have answered : handleTransferRequest server .transferRange
        (encodeRangeRequest sha256Hash start stop) =
      writeSize (slice content start stop).length ++ slice content start stop := by
    simp only [handleTransferRequest, accepts,
      readRequest_encodeRangeRequest width (fits start (by omega)) (fits stop within), hexadecimal,
      has, sendRange_of_within server.seekable ordered within, sliceLength]
    rfl
  have notSkipped : relayedTransferSkipped route = false := by
    cases relayed : route.relayed with
    | false => simp [relayedTransferSkipped, relayed]
    | true =>
      have enough := carried relayed
      simp only [relayedTransferSkipped, relayed, Bool.true_and, decide_eq_false_iff_not]
      omega
  have ranged : protocolFor start stop = .transferRange := if_pos (.inr (by omega))
  have received : readResponse route
        (writeSize (slice content start stop).length ++ slice content start stop) =
      .ok (slice content start stop) := by
    apply readResponse_of_limited
    · intro empty
      rw [empty, List.length_nil] at sliceLength
      omega
    · rw [sliceLength]
      omega
    · intro relayed
      rw [sliceLength]
      exact carried relayed
  rw [← answered] at received
  simp only [downloadRange, notSkipped, ranged]
  rw [if_neg Bool.false_ne_true, if_neg (by omega), if_neg (by omega), received]

/-! ## Mirrors -/

/-- A reply after which another attempt is made. -/
def Reply.transient : Reply → Bool
  | .failed _ => true
  | .response status _ _ =>
    status ≠ 200 && status ≠ 206 && !(400 ≤ status && status < 500)

/-- A mirror answers a request within the attempts that the fetcher makes. -/
def Answers (fetcher : Fetcher) (mirror : Mirror) (header : Option Str) (status : Nat)
    (body : Str) : Prop :=
  ∃ number < (max fetcher.maxRetries 1).toNat,
    (∀ earlier < number, (mirror header earlier).transient = true) ∧
      mirror header number = .response status body false

/-- Attempts that fail for now are made again until one succeeds. -/
theorem retryFrom_eq_ok {maxAttempts : Nat} {attempt : Nat → Except FetchError Str}
    {data : Str} {remaining first number : Nat} (last : FetchError) (notBefore : first ≤ number)
    (enough : number < first + remaining)
    (fail : ∀ earlier, first ≤ earlier → earlier < number →
      ∃ cause, attempt earlier = .error cause ∧ cause.retryable = true)
    (succeeds : attempt number = .ok data) :
    retryFrom maxAttempts attempt last remaining first = .ok data := by
  induction remaining generalizing first last with
  | zero => omega
  | succ remaining ih =>
    rcases Nat.eq_or_lt_of_le notBefore with rfl | later
    · simp [retryFrom, succeeds]
    · obtain ⟨cause, failed, again⟩ := fail first le_rfl later
      simp only [retryFrom, failed, again, if_true]
      apply ih cause later
      · omega
      · intro earlier notBefore before
        exact fail earlier (by omega) before

/-- A transient reply is an error that is tried again. -/
theorem attemptRange_of_transient (fetcher : Fetcher) (rangeStart rangeEnd : Int)
    {reply : Reply} (transient : reply.transient = true) :
    ∃ cause, attemptRange fetcher rangeStart rangeEnd reply = .error cause ∧
      cause.retryable = true := by
  cases reply with
  | failed cause => exact ⟨.failed cause, rfl, rfl⟩
  | response status body broken =>
    simp only [Reply.transient, Bool.and_eq_true, decide_eq_true_eq] at transient
    obtain ⟨⟨notWhole, notPartial⟩, server⟩ := transient
    apply Exists.intro (FetchError.status status)
    constructor
    · simp only [attemptRange]
      rw [if_pos ⟨by simpa using notWhole, by simpa using notPartial⟩]
    · exact server

theorem readLimited_of_length_le {limit : Int} {body : Str} (fits : (body.length : Int) ≤ limit) :
    readLimited limit body false = .ok body := by
  have whole : body.length ≤ limit.toNat := by omega
  simp [readLimited, take_of_length_le whole]

/-- A chunk that a mirror answers with is what one attempt makes of the answer. -/
theorem mirrorChunk_of_answers {fetcher : Fetcher} {mirror : Mirror} {status : Nat}
    {body data : Str} (positive : 0 < stop)
    (answers : Answers fetcher mirror (some (rangeHeader start (stop - 1))) status body)
    (read : attemptRange fetcher start (stop - 1) (.response status body false) = .ok data) :
    mirrorChunk fetcher mirror start stop = .ok data := by
  obtain ⟨number, inTime, transient, answered⟩ := answers
  have inclusive : (if 0 < (stop : Int) then (stop : Int) - 1 else stop) = stop - 1 :=
    if_pos (by omega)
  have notWhole : ¬ ((start : Int) = 0 ∧ (stop : Int) - 1 < 0) := by omega
  simp only [mirrorChunk, inclusive, fetchRange, if_neg notWhole, retry]
  apply retryFrom_eq_ok _ (Nat.zero_le number)
  · omega
  · intro earlier _ before
    exact attemptRange_of_transient fetcher _ _ (transient earlier before)
  · rw [answered, read]

/-- A mirror that honours ranges is asked up to the last byte, and answers it whole. -/
theorem attemptRange_ranged (fetcher : Fetcher) (ordered : start < stop)
    (within : stop ≤ content.length) :
    attemptRange fetcher start (stop - 1) (.response 206 (slice content start stop) false) =
      .ok (slice content start stop) := by
  have limit : ((slice content start stop).length : Int) ≤ (stop - 1 - start + 1) + 1 := by
    rw [length_slice start within]
    omega
  simp only [attemptRange, if_neg (show ¬ ((stop : Int) - 1 < 0) by omega)]
  rw [if_neg (by decide), if_neg (by decide)]
  exact readLimited_of_length_le limit

/-- Of a whole file, the bytes ahead of the range and behind it are left out. -/
theorem attemptRange_whole (fetcher : Fetcher) (ordered : start < stop)
    (within : stop ≤ content.length) :
    attemptRange fetcher start (stop - 1) (.response 200 content false) =
      .ok (slice content start stop) := by
  have longEnough : ¬ (0 < (start : Int) ∧ (content.length : Int) < start) := by omega
  have toRead : ((stop : Int) - 1 - start + 1).toNat = stop - start := by omega
  simp only [attemptRange, handleNonRangeResponse, if_neg longEnough,
    if_neg (show ¬ ((stop : Int) - 1 < 0) by omega)]
  simp [readLimited, slice, toRead]

/-! ## All three -/

/-- A chunk comes as the same bytes from a peer that has the content, from a mirror that honours
ranges and from one that ignores them. -/
theorem chunk_sources_agree {content : Str} {start stop : Nat} (ordered : start < stop)
    (within : stop ≤ content.length) (limited : (content.length : Int) ≤ maxTransferSize)
    {server : Server} {route : Route} {sha256Hash : Str} (accepts : server.accepts = true)
    (hexadecimal : PackageIndex.isHex64 sha256Hash = true)
    (has : server.getContent sha256Hash = some (content, (content.length : Int)))
    (carried : route.relayed = true → ((stop - start : Nat) : Int) ≤ route.relayedTransferMax)
    {fetcher : Fetcher} {ranged whole : Mirror}
    (honours : Answers fetcher ranged (some (rangeHeader start (stop - 1))) 206
      (slice content start stop))
    (ignores : Answers fetcher whole (some (rangeHeader start (stop - 1))) 200 content) :
    downloadRange route (handleTransferRequest server) sha256Hash start stop =
        .ok (slice content start stop) ∧
      mirrorChunk fetcher ranged start stop = .ok (slice content start stop) ∧
      mirrorChunk fetcher whole start stop = .ok (slice content start stop) := by
  have positive : 0 < stop := by omega
  constructor
  · exact downloadRange_eq_slice ordered within limited accepts hexadecimal has carried
  · constructor
    · exact mirrorChunk_of_answers positive honours (attemptRange_ranged fetcher ordered within)
    · exact mirrorChunk_of_answers positive ignores (attemptRange_whole fetcher ordered within)

/-- Two of four bytes, from a peer and from two mirrors, the first of which is busy at first. -/
theorem chunk_sources_agree_of_four :
    let content : Str := [7, 10, 0, 255]
    let sha256Hash := hexEncode64 content
    let server : Server := ⟨true, fun _ => some (content, 4), false⟩
    let ranged : Mirror := fun _ number =>
      if number = 0 then .response 503 [] false else .response 206 [10, 0] false
    let whole : Mirror := fun _ _ => .response 200 content false
    downloadRange ⟨false, 0⟩ (handleTransferRequest server) sha256Hash (1 : Nat) (3 : Nat) =
        .ok [10, 0] ∧
      mirrorChunk ⟨3, 100⟩ ranged (1 : Nat) (3 : Nat) = .ok [10, 0] ∧
      mirrorChunk ⟨3, 100⟩ whole (1 : Nat) (3 : Nat) = .ok [10, 0] := by
  intro content sha256Hash server ranged whole
  apply @chunk_sources_agree content 1 3 (by decide) (by decide) (by decide) server ⟨false, 0⟩
    sha256Hash rfl (by decide) rfl (by decide)
  · apply Exists.intro 1
    refine ⟨by decide, fun earlier before => ?_, rfl⟩
    obtain rfl : earlier = 0 := by omega
    rfl
  · apply Exists.intro 0
    refine ⟨by decide, fun earlier before => ?_, rfl⟩
    omega

end Debswarm.Transfer
