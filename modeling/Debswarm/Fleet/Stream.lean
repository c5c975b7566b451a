import Debswarm.Fleet.Wire
import Mathlib.Data.List.Forall2

/-!
# Messages one after the other

A peer writes its messages one behind the other and the receiver reads until it cannot go
on.  A message that is cut short is never taken for one.  The receiver however refuses a hash
longer than 1024 bytes where the sender writes up to 65535: such a message ends the stream with
everything that stands behind it.
-/

namespace Debswarm.Fleet

open List Text Wire

/-! ## Reading is steady -/

variable {stream bytes : Str} {message : WireMessage}

theorem readFull_append_more {count : Nat} {taken rest : Str}
    (read : readFull count stream = some (taken, rest)) (more : Str) :
    readFull count (stream ++ more) = some (taken, rest ++ more) := by
  unfold readFull at read
  split at read
  · rename_i enough
    cases read
    have enoughToo : count ≤ (stream ++ more).length := by
      rw [length_append]
      omega
    rw [readFull, if_pos enoughToo, take_append_of_le_length enough,
      drop_append_of_le_length enough]
  · cases read

theorem steady_readNumber (width : Nat) : Steady (readNumber width) := by
  intro stream value rest read more
  unfold readNumber readBigEndian at read ⊢
  cases taken : readFull width stream with
  | none =>
    rw [taken] at read
    cases read
  | some result =>
    rw [taken] at read
    cases read
    rw [readFull_append_more taken more]
    rfl

theorem steady_readHash (hashLen : Nat) : Steady (readHash hashLen) := by
  intro stream value rest read more
  unfold readHash at read ⊢
  split at read
  · cases read
  · cases taken : readFull hashLen stream with
    | none =>
      rw [taken] at read
      cases read
    | some result =>
      rw [taken] at read
      cases read
      rw [if_neg ‹_›, readFull_append_more taken more]

/-- Reading a message looks at nothing behind it. -/
theorem WireMessage.steady_decode : Steady WireMessage.decode := by
  intro stream message rest decoded more
  unfold decode at decoded ⊢
  obtain ⟨⟨type, afterType⟩, typeRead, decoded⟩ := bind_eq_ok decoded
  obtain ⟨⟨nonce, afterNonce⟩, nonceRead, decoded⟩ := bind_eq_ok decoded
  obtain ⟨⟨hashLen, afterLen⟩, lenRead, decoded⟩ := bind_eq_ok decoded
  obtain ⟨⟨hash, afterHash⟩, hashRead, decoded⟩ := bind_eq_ok decoded
  obtain ⟨⟨size, afterSize⟩, sizeRead, decoded⟩ := bind_eq_ok decoded
  obtain ⟨⟨offset, afterOffset⟩, offsetRead, decoded⟩ := bind_eq_ok decoded
  cases decoded
  simp only [steady_readNumber 1 typeRead more, steady_readNumber 4 nonceRead more,
    steady_readNumber 2 lenRead more, steady_readHash hashLen hashRead more,
    steady_readNumber 8 sizeRead more, steady_readNumber 8 offsetRead more, bind, Except.bind,
    pure, Except.pure]

/-! ## Hashes that only the sender accepts -/

/-- A message whose hash is too long for the receiver is refused once its length is read. -/
theorem WireMessage.decode_encode_of_long (long : 1024 < message.hash.length)
    (encoded : message.encode = .ok bytes) (rest : Str) :
    decode (bytes ++ rest) = .error (.hashTooLong message.hash.length) := by
  unfold encode at encoded
  split at encoded
  · cases encoded
  · rename_i fits
    rw [Except.ok.injEq] at encoded
    rw [← encoded]
    have type := readNumber_bigEndian 1 (UInt8.toNat_lt message.type)
    have nonce := readNumber_bigEndian 4 (UInt32.toNat_lt message.nonce)
    have hashLen := readNumber_bigEndian 2 (show message.hash.length < 256 ^ 2 by omega)
    simp only [decode, append_assoc, type, nonce, hashLen, readHash, if_pos long, bind, Except.bind]

/-- A strict part of a message is not read as one, whatever the message. -/
theorem WireMessage.decode_cut {part : Str} (size : IsInt64 message.size)
    (offset : IsInt64 message.offset) (encoded : message.encode = .ok bytes) (cut : part <+: bytes)
    (short : part ≠ bytes) : ∃ cause, decode part = .error cause := by
  by_cases long : 1024 < message.hash.length
  · have refused := decode_encode_of_long long encoded []
    rw [append_nil] at refused
    exact steady_decode.error_of_error refused cut
  · have complete := decode_encode (not_lt.mp long) size offset encoded []
    rw [append_nil] at complete
    exact steady_decode.error_of_cut complete cut short

/-! ## Whole streams -/

/-- The messages that a stream delivers and the error that ends it. -/
def receive (stream : Str) : List WireMessage × WireError :=
  match _decoded : WireMessage.decode stream with
  | .error cause => ([], cause)
  | .ok (message, rest) => (message :: (receive rest).1, (receive rest).2)
termination_by stream.length
decreasing_by all_goals exact WireMessage.decode_length ‹_›

theorem receive_of_error {cause : WireError} (failed : WireMessage.decode stream = .error cause) :
    receive stream = ([], cause) := by
  rw [receive]
  split
  · rename_i reason failedToo
    rw [failed, Except.error.injEq] at failedToo
    rw [failedToo]
  · rename_i succeeded
    rw [failed] at succeeded
    cases succeeded

theorem receive_of_ok {rest : Str} (decoded : WireMessage.decode stream = .ok (message, rest)) :
    receive stream = (message :: (receive rest).1, (receive rest).2) := by
  rw [receive]
  split
  · rename_i failed
    rw [decoded] at failed
    cases failed
  · rename_i other remaining succeeded
    rw [decoded] at succeeded
    cases succeeded
    rfl

/-- The handler of a stream passes on what is received and forgets why it ended. -/
theorem handleStream_eq_receive (stream : Str) : handleStream stream = (receive stream).1 := by
  induction stream using receive.induct with
  | case1 stream cause failed =>
    rw [receive_of_error failed, handleStream]
    split
    · rfl
    · rename_i succeeded
      rw [failed] at succeeded
      cases succeeded
  | case2 stream message rest decoded ih =>
    rw [receive_of_ok decoded, handleStream_of_ok decoded, ih]

/-- Some bytes are what some message is written as. -/
def Written (message : WireMessage) (bytes : Str) : Prop :=
  message.encode = .ok bytes

instance decidableWritten (message : WireMessage) (bytes : Str) :
    Decidable (Written message bytes) :=
  inferInstanceAs (Decidable (message.encode = .ok bytes))

theorem exists_written {messages : List WireMessage} {encodings : List Str}
    (written : List.Forall₂ Written messages encodings) (mem : bytes ∈ encodings) :
    ∃ message ∈ messages, Written message bytes := by
  induction written with
  | nil => cases mem
  | @cons message encoding messages encodings encoded _ ih =>
    rcases mem_cons.mp mem with rfl | memTail
    · exact ⟨message, mem_cons_self, encoded⟩
    · obtain ⟨other, sent, encodedToo⟩ := ih memTail
      exact ⟨other, mem_cons_of_mem _ sent, encodedToo⟩

/-- What a sender is given: sizes and offsets are signed 64-bit numbers. -/
def WireMessage.IsTyped (message : WireMessage) : Prop :=
  IsInt64 message.size ∧ IsInt64 message.offset

instance decidableIsTyped (message : WireMessage) : Decidable message.IsTyped :=
  inferInstanceAs (Decidable ((_ ∧ _) ∧ (_ ∧ _)))

/-- Written messages arrive as sent, and then the end, iff the receiver takes every hash. -/
theorem receive_written_iff {messages : List WireMessage} {encodings : List Str}
    (written : List.Forall₂ Written messages encodings)
    (typed : ∀ message ∈ messages, message.IsTyped) :
    receive encodings.flatten = (messages, .eof) ↔
      ∀ message ∈ messages, message.hash.length ≤ 1024 := by
  induction written with
  | nil =>
    have ended : receive [] = ([], .eof) := receive_of_error rfl
    simp [ended]
  | @cons message bytes messages encodings encoded _ ih =>
    have typedTail : ∀ other ∈ messages, other.IsTyped :=
      fun other mem => typed other (mem_cons_of_mem _ mem)
    obtain ⟨size, offset⟩ := typed message mem_cons_self
    rw [flatten_cons, forall_mem_cons, ← ih typedTail]
    by_cases long : 1024 < message.hash.length
    · rw [receive_of_error (message.decode_encode_of_long long encoded encodings.flatten)]
      simp [not_le.mpr long]
    · rw [receive_of_ok
        (message.decode_encode (not_lt.mp long) size offset encoded encodings.flatten)]
      simp [not_lt.mp long, Prod.ext_iff]

/-- Messages arrive as sent, then the clean end, and nothing cut short is taken for one. -/
def Faithful (messages : List WireMessage) (encodings : List Str) : Prop :=
  receive encodings.flatten = (messages, .eof) ∧
    ∀ bytes ∈ encodings, ∀ part, part <+: bytes → part ≠ [] → part ≠ bytes →
      ∃ cause, WireMessage.decode part = .error cause

/-- The wire format serves a list of written messages iff no hash is too long to receive. -/
theorem faithful_iff {messages : List WireMessage} {encodings : List Str}
    (written : List.Forall₂ Written messages encodings)
    (typed : ∀ message ∈ messages, message.IsTyped) :
    Faithful messages encodings ↔ ∀ message ∈ messages, message.hash.length ≤ 1024 := by
  rw [Faithful, receive_written_iff written typed, and_iff_left_iff_imp]
  intro _ bytes mem part cut _ short
  obtain ⟨message, sent, encoded⟩ := exists_written written mem
  obtain ⟨size, offset⟩ := typed message sent
  exact message.decode_cut size offset encoded cut short

theorem written_two_wants :
    List.Forall₂ Written [⟨msgWantPackage, 7, [1, 2], 10, 0⟩, ⟨msgDontHave, 8, [], -1, 0⟩]
      [[1, 0, 0, 0, 7, 0, 2, 1, 2, 0, 0, 0, 0, 0, 0, 0, 10, 0, 0, 0, 0, 0, 0, 0, 0],
        [7, 0, 0, 0, 8, 0, 0, 255, 255, 255, 255, 255, 255, 255, 255, 0, 0, 0, 0, 0, 0, 0, 0]] :=
  .cons (by decide) (.cons (by decide) .nil)

/-- Two short messages arrive. -/
theorem faithful_two_wants :
    Faithful [⟨msgWantPackage, 7, [1, 2], 10, 0⟩, ⟨msgDontHave, 8, [], -1, 0⟩]
      [[1, 0, 0, 0, 7, 0, 2, 1, 2, 0, 0, 0, 0, 0, 0, 0, 10, 0, 0, 0, 0, 0, 0, 0, 0],
        [7, 0, 0, 0, 8, 0, 0, 255, 255, 255, 255, 255, 255, 255, 255, 0, 0, 0, 0, 0, 0, 0, 0]] :=
  (faithful_iff written_two_wants (by decide)).mpr (by decide)

/-- Wherever a stream breaks off, exactly the messages that arrived as a whole were passed on, up to
the first one whose hash is refused. -/
theorem handleStream_eq_take {messages : List WireMessage} {encodings : List Str} {part : Str}
    (written : List.Forall₂ Written messages encodings)
    (typed : ∀ message ∈ messages, message.IsTyped) (cut : part <+: encodings.flatten) :
    ∃ count, handleStream part = messages.take count ∧
      (encodings.take count).flatten <+: part ∧
      ∀ message ∈ messages[count]?,
        1024 < message.hash.length ∨ ¬ (encodings.take (count + 1)).flatten <+: part := by
  rw [handleStream_eq_receive]
  induction written generalizing part with
  | nil =>
    rw [prefix_nil.mp cut, receive_of_error rfl]
    exact ⟨0, rfl, nil_prefix, nofun⟩
  | @cons message bytes messages encodings encoded _ ih =>
    obtain ⟨size, offset⟩ := typed message mem_cons_self
    by_cases whole : bytes <+: part
    · obtain ⟨later, rfl⟩ := whole
      by_cases long : 1024 < message.hash.length
      · rw [receive_of_error (message.decode_encode_of_long long encoded later)]
        refine ⟨0, rfl, nil_prefix, ?_⟩
        rintro _ ⟨rfl⟩
        exact .inl long
      · rw [receive_of_ok (message.decode_encode (not_lt.mp long) size offset encoded later)]
        obtain ⟨count, taken, arrived, ended⟩ :=
          ih (fun other mem => typed other (mem_cons_of_mem _ mem))
            ((prefix_append_right_inj bytes).mp cut)
        refine ⟨count + 1, congrArg (message :: ·) taken, ?_, fun other isNext => ?_⟩
        · rw [take_succ_cons, flatten_cons, prefix_append_right_inj]
          exact arrived
        · rw [take_succ_cons, flatten_cons, prefix_append_right_inj]
          exact ended other isNext
    · have short := (List.prefix_or_prefix_of_prefix cut (prefix_append ..)).resolve_right whole
      obtain ⟨cause, failed⟩ :=
        message.decode_cut size offset encoded short fun same => whole (same ▸ prefix_rfl)
      rw [receive_of_error failed]
      refine ⟨0, rfl, nil_prefix, fun _ _ => .inr ?_⟩
      simpa using whole

/-- A stream of two messages that breaks off within the second one delivers the first. -/
theorem handleStream_of_cut_second :
    handleStream [1, 0, 0, 0, 7, 0, 2, 1, 2, 0, 0, 0, 0, 0, 0, 0, 10, 0, 0, 0, 0, 0, 0, 0, 0,
      7, 0, 0, 0, 8] = [⟨msgWantPackage, 7, [1, 2], 10, 0⟩] := by
  obtain ⟨count, delivered, arrived, ended⟩ := @handleStream_eq_take _ _
    [1, 0, 0, 0, 7, 0, 2, 1, 2, 0, 0, 0, 0, 0, 0, 0, 10, 0, 0, 0, 0, 0, 0, 0, 0, 7, 0, 0, 0, 8]
    written_two_wants (by decide) (by decide)
  match count with
  | 0 => exact absurd (ended _ rfl) (by decide)
  | 1 => exact delivered
  | _ + 2 => exact absurd arrived.length_le (by simp)

/-- A want for a package whose name is one byte longer than the receiver allows. -/
def longWant : WireMessage :=
  ⟨msgWantPackage, 7, replicate 1025 97, 10, 0⟩

/-- It is written, and the stream that carries it ends with an error. -/
theorem longWant_not_faithful :
    ∃ bytes, Written longWant bytes ∧ longWant.IsTyped ∧ ¬ Faithful [longWant] [bytes] := by
  have length : longWant.hash.length = 1025 := length_replicate
  have fits : ¬ 65535 < longWant.hash.length := by omega
  have long : 1024 < longWant.hash.length := by omega
  refine ⟨_, if_neg fits, by decide, ?_⟩
  rintro ⟨received, _⟩
  have refused := longWant.decode_encode_of_long long (if_neg fits) []
  rw [flatten_cons, flatten_nil, receive_of_error refused] at received
  cases received

end Debswarm.Fleet
