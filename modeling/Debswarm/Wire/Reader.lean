import Debswarm.Text.Bytes
import Mathlib.Algebra.Ring.Nat
import Mathlib.Data.List.Basic

/-!
# Numbers and readers on the wire

Numbers travel in a fixed number of bytes, the most significant one first.  A reader takes
exactly as many bytes as it asks for or fails, so what is written field by field is read
back field by field.  A reader that never looks past what it takes is steady.
-/

namespace Debswarm.Wire

open Text

universe u v w

/-- The given number of bytes of a number, most significant first. -/
def bigEndian : Nat → Nat → Str
  | 0, _ => []
  | width + 1, value => bigEndian width (value / 256) ++ [UInt8.ofNat value]

/-- The number that some bytes stand for, most significant first. -/
def fromBigEndian (bytes : Str) : Nat :=
  bytes.foldl (fun value byte => value * 256 + byte.toNat) 0

@[simp]
theorem length_bigEndian (width value : Nat) : (bigEndian width value).length = width := by
  induction width generalizing value with
  | zero => rfl
  | succ width ih => simp [bigEndian, ih]

@[simp]
theorem fromBigEndian_append_singleton (bytes : Str) (byte : UInt8) :
    fromBigEndian (bytes ++ [byte]) = fromBigEndian bytes * 256 + byte.toNat := by
  simp [fromBigEndian]

/-- Reading a number back gives what of it fits the width. -/
@[simp]
theorem fromBigEndian_bigEndian (width value : Nat) :
    fromBigEndian (bigEndian width value) = value % 256 ^ width := by
  induction width generalizing value with
  | zero => simp [bigEndian, fromBigEndian, Nat.mod_one]
  | succ width ih =>
    calc fromBigEndian (bigEndian (width + 1) value)
        = fromBigEndian (bigEndian width (value / 256)) * 256 + (UInt8.ofNat value).toNat :=
          fromBigEndian_append_singleton ..
      _ = value % 256 + 256 * (value / 256 % 256 ^ width) := by
          rw [ih, UInt8.toNat_ofNat', add_comm, mul_comm]
      _ = value % 256 ^ (width + 1) := by
          rw [pow_succ', Nat.mod_mul]

/-- Take exactly a number of bytes off a stream. -/
def readFull (count : Nat) (stream : Str) : Option (Str × Str) :=
  if count ≤ stream.length then some (stream.take count, stream.drop count) else none

@[simp]
theorem readFull_append (bytes rest : Str) :
    readFull bytes.length (bytes ++ rest) = some (bytes, rest) := by
  simp [readFull]

/-- Take a number of a given width off a stream. -/
def readBigEndian (width : Nat) (stream : Str) : Option (Nat × Str) :=
  (readFull width stream).map fun taken => (fromBigEndian taken.1, taken.2)

@[simp]
theorem readBigEndian_append (width value : Nat) (rest : Str) :
    readBigEndian width (bigEndian width value ++ rest) = some (value % 256 ^ width, rest) := by
  have taken := readFull_append (bigEndian width value) rest
  rw [length_bigEndian] at taken
  simp [readBigEndian, taken]

/-! ## Readers of a stream -/

variable {σ : Type u} {ε : Type v} {α β : Type w}

theorem bind_eq_ok {first : Except ε α} {next : α → Except ε β} {result : β}
    (succeeded : (first >>= next) = .ok result) :
    ∃ value, first = .ok value ∧ next value = .ok result := by
  cases first with
  | error cause => cases succeeded
  | ok value => exact ⟨value, rfl, succeeded⟩

/-- More input behind a stream that could be read is left over and nothing else changes. -/
def Steady (read : List σ → Except ε (α × List σ)) : Prop :=
  ∀ {stream : List σ} {value : α} {rest : List σ}, read stream = .ok (value, rest) →
    ∀ more, read (stream ++ more) = .ok (value, rest ++ more)

/-- What can be read to its end cannot be read when it is cut short. -/
theorem Steady.error_of_cut {read : List σ → Except ε (α × List σ)} (steady : Steady read)
    {whole part : List σ} {value : α} (complete : read whole = .ok (value, []))
    (cut : part <+: whole) (short : part ≠ whole) : ∃ cause, read part = .error cause := by
  obtain ⟨missing, rfl⟩ := cut
  cases taken : read part with
  | error cause => exact ⟨cause, rfl⟩
  | ok result =>
    have extended := steady taken missing
    rw [complete, Except.ok.injEq, Prod.mk.injEq] at extended
    have nothingMissing : missing = [] := (List.append_eq_nil_iff.mp extended.2.symm).2
    rw [nothingMissing, List.append_nil] at short
    exact absurd rfl short

/-- What cannot be read cannot be read when it is cut short either. -/
theorem Steady.error_of_error {read : List σ → Except ε (α × List σ)} (steady : Steady read)
    {whole part : List σ} {reason : ε} (failed : read whole = .error reason)
    (cut : part <+: whole) : ∃ cause, read part = .error cause := by
  obtain ⟨missing, rfl⟩ := cut
  cases taken : read part with
  | error cause => exact ⟨cause, rfl⟩
  | ok result =>
    have extended := steady taken missing
    rw [failed] at extended
    cases extended

end Debswarm.Wire
