import Debswarm.Wire.Reader

/-!
# Fleet messages on the wire

A fleet message is a type byte, a nonce, a package hash with its length in front, a size
and an offset.  A peer sends one message after the other over a stream, and the receiver
reads them until one cannot be read.  The hash is any byte string of at most 1024 bytes.
-/

namespace Debswarm.Fleet

open List Text Wire

/-- A fleet message as it travels. -/
structure WireMessage where
  type : UInt8
  nonce : UInt32
  hash : Str
  size : Int
  offset : Int
  deriving DecidableEq, Repr

def msgWantPackage : UInt8 := 1

def msgHavePackage : UInt8 := 2

def msgFetching : UInt8 := 3

def msgFetchProgress : UInt8 := 4

def msgFetched : UInt8 := 5

def msgFetchFailed : UInt8 := 6

def msgDontHave : UInt8 := 7

/-- How sending or reading fails. The end of the input is clean between two fields only. -/
inductive WireError
  | hashTooLong (length : Nat)
  | eof
  | unexpectedEOF
  deriving DecidableEq, Repr

/-- The two's complement of a signed 64-bit number. -/
def unsigned64 (value : Int) : Nat :=
  (value % 2 ^ 64).toNat

/-- The signed 64-bit number of a two's complement. -/
def signed64 (value : Nat) : Int :=
  if value < 2 ^ 63 then value else value - 2 ^ 64

/-- Whether a number is a signed 64-bit one. -/
def IsInt64 (value : Int) : Prop :=
  -2 ^ 63 ≤ value ∧ value < 2 ^ 63

theorem signed64_unsigned64 {value : Int} (isInt64 : IsInt64 value) :
    signed64 (unsigned64 value) = value := by
  unfold IsInt64 at isInt64
  unfold signed64 unsigned64
  split <;> omega

def WireMessage.encode (message : WireMessage) : Except WireError Str :=
  if 65535 < message.hash.length then .error (.hashTooLong message.hash.length)
  else
    .ok (bigEndian 1 message.type.toNat ++ (bigEndian 4 message.nonce.toNat ++
      (bigEndian 2 message.hash.length ++ (message.hash ++
        (bigEndian 8 (unsigned64 message.size) ++ bigEndian 8 (unsigned64 message.offset))))))

/-- The error of a field that a stream is too short for. -/
def shortRead (stream : Str) : WireError :=
  if stream.isEmpty then .eof else .unexpectedEOF

def readNumber (width : Nat) (stream : Str) : Except WireError (Nat × Str) :=
  match readBigEndian width stream with
  | none => .error (shortRead stream)
  | some taken => .ok taken

def readHash (hashLen : Nat) (stream : Str) : Except WireError (Str × Str) :=
  if 1024 < hashLen then .error (.hashTooLong hashLen)
  else
    match readFull hashLen stream with
    | none => .error (shortRead stream)
    | some taken => .ok taken

/-- Read a message off a stream. -/
def WireMessage.decode (stream : Str) : Except WireError (WireMessage × Str) := do
  let (type, stream) ← readNumber 1 stream
  let (nonce, stream) ← readNumber 4 stream
  let (hashLen, stream) ← readNumber 2 stream
  let (hash, stream) ← readHash hashLen stream
  let (size, stream) ← readNumber 8 stream
  let (offset, rest) ← readNumber 8 stream
  return (⟨UInt8.ofNat type, UInt32.ofNat nonce, hash, signed64 size, signed64 offset⟩, rest)

/-! ## Reading what was written -/

theorem readNumber_bigEndian (width : Nat) {value : Nat} (fits : value < 256 ^ width) (rest : Str) :
    readNumber width (bigEndian width value ++ rest) = .ok (value, rest) := by
  rw [readNumber, readBigEndian_append, Nat.mod_eq_of_lt fits]

theorem readHash_append {hash : Str} (short : hash.length ≤ 1024) (rest : Str) :
    readHash hash.length (hash ++ rest) = .ok (hash, rest) := by
  rw [readHash, if_neg (not_lt.mpr short), readFull_append]

theorem unsigned64_lt (value : Int) : unsigned64 value < 256 ^ 8 := by
  unfold unsigned64
  omega

variable {message : WireMessage} {stream rest : Str}

/-- A message is read back as it was written, whatever follows. -/
theorem WireMessage.decode_encode {bytes : Str} (short : message.hash.length ≤ 1024)
    (size : IsInt64 message.size) (offset : IsInt64 message.offset)
    (encoded : message.encode = .ok bytes) (rest : Str) :
    decode (bytes ++ rest) = .ok (message, rest) := by
  have wide : ¬ 65535 < message.hash.length := by omega
  rw [encode, if_neg wide, Except.ok.injEq] at encoded
  rw [← encoded]
  have type := readNumber_bigEndian 1 (UInt8.toNat_lt message.type)
  have nonce := readNumber_bigEndian 4 (UInt32.toNat_lt message.nonce)
  have hashLen := readNumber_bigEndian 2 (show message.hash.length < 256 ^ 2 by omega)
  have sizeField := readNumber_bigEndian 8 (unsigned64_lt message.size)
  have offsetField := readNumber_bigEndian 8 (unsigned64_lt message.offset)
  simp only [decode, append_assoc, type, nonce, hashLen, readHash_append short, sizeField,
    offsetField, signed64_unsigned64 size, signed64_unsigned64 offset, bind, Except.bind, pure,
    Except.pure, UInt8.ofNat_toNat, UInt32.ofNat_toNat]

/-! ## Streams of messages -/

theorem readNumber_length {width value : Nat}
    (taken : readNumber width stream = .ok (value, rest)) :
    rest.length + width = stream.length := by
  unfold readNumber readBigEndian readFull at taken
  split at taken
  · cases taken
  · rename_i read
    cases taken
    split at read
    · cases read
      simp only [length_drop]
      omega
    · cases read

theorem readHash_length {hashLen : Nat} {hash : Str}
    (taken : readHash hashLen stream = .ok (hash, rest)) : rest.length ≤ stream.length := by
  unfold readHash readFull at taken
  split at taken
  · cases taken
  · split at taken
    · cases taken
    · rename_i read
      cases taken
      split at read
      · cases read
        simp only [length_drop]
        omega
      · cases read

theorem WireMessage.decode_length (decoded : decode stream = .ok (message, rest)) :
    rest.length < stream.length := by
  unfold decode at decoded
  obtain ⟨⟨type, afterType⟩, typeRead, decoded⟩ := bind_eq_ok decoded
  obtain ⟨⟨nonce, afterNonce⟩, nonceRead, decoded⟩ := bind_eq_ok decoded
  obtain ⟨⟨hashLen, afterLen⟩, lenRead, decoded⟩ := bind_eq_ok decoded
  obtain ⟨⟨hash, afterHash⟩, hashRead, decoded⟩ := bind_eq_ok decoded
  obtain ⟨⟨size, afterSize⟩, sizeRead, decoded⟩ := bind_eq_ok decoded
  obtain ⟨⟨offset, afterOffset⟩, offsetRead, decoded⟩ := bind_eq_ok decoded
  cases decoded
  have typeLength := readNumber_length typeRead
  have nonceLength := readNumber_length nonceRead
  have lenLength := readNumber_length lenRead
  have hashLength := readHash_length hashRead
  have sizeLength := readNumber_length sizeRead
  have offsetLength := readNumber_length offsetRead
  omega

/-- The messages that a stream delivers until one cannot be read. -/
def handleStream (stream : Str) : List WireMessage :=
  match _decoded : WireMessage.decode stream with
  | .error _ => []
  | .ok (message, rest) => message :: handleStream rest
termination_by stream.length
decreasing_by exact WireMessage.decode_length ‹_›

theorem handleStream_of_ok (decoded : WireMessage.decode stream = .ok (message, rest)) :
    handleStream stream = message :: handleStream rest := by
  rw [handleStream]
  split
  · rename_i failed
    rw [decoded] at failed
    cases failed
  · rename_i other remaining succeeded
    rw [decoded] at succeeded
    cases succeeded
    rfl

@[simp]
theorem handleStream_nil : handleStream [] = [] := by
  rw [handleStream]
  rfl

/-- What a peer sends as one message arrives as that message. -/
theorem handleStream_encode {bytes : Str} (short : message.hash.length ≤ 1024)
    (size : IsInt64 message.size) (offset : IsInt64 message.offset)
    (encoded : message.encode = .ok bytes) : handleStream bytes = [message] := by
  have decoded := message.decode_encode short size offset encoded []
  rw [append_nil] at decoded
  rw [handleStream_of_ok decoded, handleStream_nil]

/-- The hash that the receiver looks up, for a peer that wants a package only. -/
def WireMessage.lookedUp (message : WireMessage) : Option Str :=
  if message.type = msgWantPackage then some message.hash else none

end Debswarm.Fleet
