import Mathlib.Data.List.Infix
import Mathlib.Data.UInt

/-!
# Byte strings

Strings of a language whose strings are byte sequences, with the searching and
case-mapping operations of its standard library.  Offsets count bytes.  A slice
expression beyond the end of its operand aborts the program, which is the only
run-time fault the operations of this module can raise.
-/

namespace Debswarm.Text

/-- A byte string. -/
abbrev Str :=
  List UInt8

/-- One proof for all membership tests of texts. -/
instance : LawfulBEq Str :=
  List.instLawfulBEq

/-- A string literal whose characters are all ASCII. -/
def ofAscii (literal : String) : Str :=
  literal.toList.map fun char => UInt8.ofNat char.toNat

/-- A run-time fault of a byte-string operation. -/
inductive Panic
  | sliceOutOfRange
  deriving DecidableEq, Repr

/-- The slice expression `text[offset:]`. -/
def sliceFrom (text : Str) (offset : Nat) : Except Panic Str :=
  if offset ≤ text.length then .ok (text.drop offset) else .error .sliceOutOfRange

/-! ## Searching -/

/-- Offset of the first occurrence of a substring. -/
def index (part : Str) : Str → Option Nat
  | [] => if part = [] then some 0 else none
  | byte :: rest =>
    if part.isPrefixOf (byte :: rest) then some 0 else (index part rest).map (· + 1)

/-- Whether a substring occurs. -/
def contains (text part : Str) : Bool :=
  (index part text).isSome

theorem contains_nil {part : Str} (nonempty : part ≠ []) : contains [] part = false := by
  rw [contains, index, if_neg nonempty]
  rfl

theorem contains_cons (byte : UInt8) (rest part : Str) :
    contains (byte :: rest) part = (part.isPrefixOf (byte :: rest) || contains rest part) := by
  unfold contains
  rw [index]
  cases part.isPrefixOf (byte :: rest) with
  | true => rfl
  | false => exact Option.isSome_map

/-- Whether a string ends in a given one. -/
def hasSuffix (text part : Str) : Bool :=
  part.isSuffixOf text

/-- Split a string at every occurrence of a byte. -/
def splitByte (separator : UInt8) : Str → List Str
  | [] => [[]]
  | byte :: rest =>
    if byte = separator then
      [] :: splitByte separator rest
    else
      match splitByte separator rest with
      | [] => [[byte]]
      | first :: more => (byte :: first) :: more

theorem splitByte_ne_nil (separator : UInt8) (text : Str) : splitByte separator text ≠ [] := by
  cases text with
  | nil => exact List.cons_ne_nil _ _
  | cons byte rest =>
    unfold splitByte
    split
    · exact List.cons_ne_nil _ _
    · split <;> exact List.cons_ne_nil _ _

/-- The last element of a slash-separated path. -/
def pathBase (path : Str) : Str :=
  let trimmed := path.reverse.dropWhile (· = 47)
  if path = [] then ofAscii "."
  else if trimmed = [] then ofAscii "/"
  else (trimmed.takeWhile (· ≠ 47)).reverse

/-! ## Case mapping -/

def lowerByte (byte : UInt8) : UInt8 :=
  if 65 ≤ byte ∧ byte ≤ 90 then byte + 32 else byte

/-- Lower-case form. ASCII is mapped byte by byte; other text may change its length. -/
def toLower (unicodeLower : Str → Str) (text : Str) : Str :=
  if text.all (· < 128) then text.map lowerByte else unicodeLower text

/-! ## Hexadecimal digits -/

/-- The lower-case digit of a value below sixteen. -/
def hexDigit (value : UInt8) : UInt8 :=
  if value < 10 then 48 + value else 87 + value

/-- Two lower-case digits for each byte. -/
def hexEncode (text : Str) : Str :=
  text.flatMap fun byte => [hexDigit (byte / 16), hexDigit (byte % 16)]

/-- The encoding at the width of a SHA-256, which stands for a digest where a run is evaluated. -/
def hexEncode64 (text : Str) : Str :=
  (hexEncode text ++ List.replicate 64 48).take 64

/-- Whether a byte is a lower-case hexadecimal digit. -/
def isLowerHex (byte : UInt8) : Bool :=
  (48 ≤ byte && byte ≤ 57) || (97 ≤ byte && byte ≤ 102)

/-- The hexadecimal SHA-256, and the Unicode lower-casing of text with a non-ASCII byte. -/
structure Libraries where
  sha256 : Str → Str
  unicodeLower : Str → Str

/-! ## Hash functions that take their text in pieces -/

/-- A hash function with its running states. -/
structure StreamingHash where
  Running : Type
  start : Running
  update : Running → Str → Running
  sum : Running → Str
  update_nil : ∀ running, update running [] = running
  update_append : ∀ running first second,
    update (update running first) second = update running (first ++ second)

namespace StreamingHash

/-- The running state after a text. -/
def after (hash : StreamingHash) (text : Str) : hash.Running :=
  hash.update hash.start text

def digest (hash : StreamingHash) (text : Str) : Str :=
  hash.sum (hash.after text)

@[simp]
theorem after_nil (hash : StreamingHash) : hash.after [] = hash.start :=
  hash.update_nil hash.start

@[simp]
theorem update_after (hash : StreamingHash) (text piece : Str) :
    hash.update (hash.after text) piece = hash.after (text ++ piece) :=
  hash.update_append hash.start text piece

end StreamingHash

end Debswarm.Text
