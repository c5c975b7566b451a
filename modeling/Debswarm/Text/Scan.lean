import Debswarm.Text.Search

/-!
# Scanning byte strings

White space, fields, decimal integers and lines, as the standard library of a
language with byte strings reads them.  White space is that of Unicode, found by
its UTF-8 encodings; a byte that belongs to no encoding is never white space.
-/

namespace Debswarm.Text

open List

/-! ## White space -/

/-- The UTF-8 encodings of the white-space characters. -/
def spaces : List Str :=
  [[9], [10], [11], [12], [13], [32], [0xC2, 0x85], [0xC2, 0xA0], [0xE1, 0x9A, 0x80],
    [0xE2, 0x80, 0x80], [0xE2, 0x80, 0x81], [0xE2, 0x80, 0x82], [0xE2, 0x80, 0x83],
    [0xE2, 0x80, 0x84], [0xE2, 0x80, 0x85], [0xE2, 0x80, 0x86], [0xE2, 0x80, 0x87],
    [0xE2, 0x80, 0x88], [0xE2, 0x80, 0x89], [0xE2, 0x80, 0x8A], [0xE2, 0x80, 0xA8],
    [0xE2, 0x80, 0xA9], [0xE2, 0x80, 0xAF], [0xE2, 0x81, 0x9F], [0xE3, 0x80, 0x80]]

/-- Drop encodings of a list from the front of a string, at most `fuel` times. -/
def dropEncodings (encodings : List Str) : Nat → Str → Str
  | 0, text => text
  | fuel + 1, text =>
    match encodings.find? fun encoding => encoding.isPrefixOf text with
    | none => text
    | some encoding => dropEncodings encodings fuel (text.drop encoding.length)

/-- Drop white space at both ends. -/
def trimSpace (text : Str) : Str :=
  let front := dropEncodings spaces text.length text
  (dropEncodings (spaces.map reverse) front.length front.reverse).reverse

/-- Drop every trailing occurrence of a byte. -/
def trimRight (text : Str) (byte : UInt8) : Str :=
  (text.reverse.dropWhile (· = byte)).reverse

/-- The maximal runs without white space, with a field begun, in `fuel` characters. -/
def fieldsFrom : Nat → Str → Str → List Str
  | 0, field, _ => if field = [] then [] else [field]
  | _ + 1, field, [] => if field = [] then [] else [field]
  | fuel + 1, field, byte :: rest =>
    match spaces.find? fun encoding => encoding.isPrefixOf (byte :: rest) with
    | none => fieldsFrom fuel (field ++ [byte]) rest
    | some encoding =>
      let later := fieldsFrom fuel [] ((byte :: rest).drop encoding.length)
      if field = [] then later else field :: later

/-- The maximal runs without white space. -/
def fields (text : Str) : List Str :=
  fieldsFrom text.length [] text

theorem ne_nil_of_mem_fieldsFrom {fuel : Nat} {field text word : Str}
    (mem : word ∈ fieldsFrom fuel field text) : word ≠ [] := by
  fun_induction fieldsFrom fuel field text with
  | case1 | case3 => cases mem
  | case2 _ _ nonempty | case4 _ _ nonempty =>
    rw [mem_singleton.mp mem]
    exact nonempty
  | case5 _ _ _ _ _ ih | case6 _ _ _ _ _ _ ih => exact ih mem
  | case7 _ _ _ _ _ _ _ nonempty ih =>
    rcases mem_cons.mp mem with rfl | later
    · exact nonempty
    · exact ih later

theorem ne_nil_of_mem_fields {text word : Str} (mem : word ∈ fields text) : word ≠ [] :=
  ne_nil_of_mem_fieldsFrom mem

/-! ## Decimal integers -/

def digitsValue (text : Str) : Option Nat :=
  if text = [] then none
  else text.foldl
    (fun value byte =>
      value.bind fun value =>
        if 48 ≤ byte ∧ byte ≤ 57 then some (value * 10 + (byte.toNat - 48)) else none)
    (some 0)

/-- A decimal of sixty-four bits; the nearest bound if out of range, and zero for other text. -/
def parseInt64 (text : Str) : Int × Bool :=
  let negative := text.head? = some 45
  let digits := if text.head? = some 45 ∨ text.head? = some 43 then text.tail else text
  match digitsValue digits with
  | none => (0, false)
  | some value =>
    if negative then
      if value ≤ 2 ^ 63 then (-value, true) else (-2 ^ 63, false)
    else
      if value < 2 ^ 63 then (value, true) else (2 ^ 63 - 1, false)

/-! ## Lines -/

/-- Drop a carriage return at the end of a line. -/
def dropCR (line : Str) : Str :=
  if line.getLast? = some 13 then line.dropLast else line

/-- The lines up to the first that does not fit the buffer, and whether there is one. -/
def boundedLines (buffer : Nat) : List Str → List Str × Bool
  | [] => ([], false)
  | line :: rest =>
    if line.length < buffer then
      let later := boundedLines buffer rest
      (dropCR line :: later.1, later.2)
    else
      ([], true)

/-- The lines of a scanner, and whether it stopped at one beyond its buffer. Text after the last
line end is a line unless empty. -/
def scanLinesWithin (buffer : Nat) (text : Str) : List Str × Bool :=
  let pieces := splitByte 10 text
  boundedLines buffer (if pieces.getLast? = some [] then pieces.dropLast else pieces)

/-- The lines that a scanner with a buffer of one mebibyte delivers. -/
def scanLines (text : Str) : List Str × Bool :=
  scanLinesWithin (1024 * 1024) text

example : scanLines (ofAscii "a: 1\r\n\nb") = ([ofAscii "a: 1", [], ofAscii "b"], false) := by
  decide

/-! ## Scanning -/

theorem boundedLines_of_forall_lt {buffer : Nat} {texts : List Str}
    (fits : ∀ text ∈ texts, text.length < buffer) :
    boundedLines buffer texts = (texts.map dropCR, false) := by
  induction texts with
  | nil => rfl
  | cons text rest ih =>
    rw [boundedLines, if_pos (fits text mem_cons_self),
      ih fun other mem => fits other (mem_cons_of_mem text mem)]
    rfl

theorem splitByte_flatMap_line {texts : List Str} {last : Str} (oneLine : ∀ text ∈ texts, 10 ∉ text)
    (lastOneLine : 10 ∉ last) : splitByte 10 (texts.flatMap line ++ last) = texts ++ [last] := by
  induction texts with
  | nil => exact splitByte_of_not_mem lastOneLine
  | cons text rest ih =>
    rw [flatMap_cons, line, append_assoc, append_assoc, singleton_append,
      splitByte_append_cons, splitByte_of_not_mem (oneLine text mem_cons_self),
      ih fun other mem => oneLine other (mem_cons_of_mem text mem)]
    rfl

/-- The lines of a text whose last line may lack its newline. -/
def linesWith (texts : List Str) (last : Str) : List Str :=
  if last = [] then texts else texts ++ [last]

/-- A text whose lines all fit the buffer is scanned to its end. -/
theorem scanLinesWithin_flatMap_line {buffer : Nat} {texts : List Str} {last : Str}
    (oneLine : ∀ text ∈ texts, 10 ∉ text) (lastOneLine : 10 ∉ last)
    (fits : ∀ text ∈ linesWith texts last, text.length < buffer) :
    scanLinesWithin buffer (texts.flatMap line ++ last) =
      ((linesWith texts last).map dropCR, false) := by
  have pieces : (if (splitByte 10 (texts.flatMap line ++ last)).getLast? = some [] then
      (splitByte 10 (texts.flatMap line ++ last)).dropLast
        else splitByte 10 (texts.flatMap line ++ last)) = linesWith texts last := by
    rw [splitByte_flatMap_line oneLine lastOneLine, linesWith]
    by_cases empty : last = [] <;> simp [empty]
  unfold scanLinesWithin
  dsimp only
  rw [pieces, boundedLines_of_forall_lt fits]

/-- All lines of a text, however long they are. -/
def wholeLines (text : Str) : List Str :=
  let pieces := splitByte 10 text
  (if pieces.getLast? = some [] then pieces.dropLast else pieces).map dropCR

theorem boundedLines_eq_map {buffer : Nat} {texts : List Str}
    (complete : (boundedLines buffer texts).2 = false) :
    (boundedLines buffer texts).1 = texts.map dropCR := by
  induction texts with
  | nil => rfl
  | cons text rest ih =>
    rw [boundedLines] at complete ⊢
    split at complete
    · rename_i fits
      rw [if_pos fits, map_cons, ← ih complete]
    · cases complete

/-- A scanner that reaches the end of a text has delivered all lines. -/
theorem scanLines_eq_wholeLines {text : Str} (complete : (scanLines text).2 = false) :
    (scanLines text).1 = wholeLines text :=
  boundedLines_eq_map complete

/-! ## Carriage returns and trimming -/

/-- Encodings that are not empty and of which those with a given byte are that byte alone. -/
structure Solitary (byte : UInt8) (encodings : List Str) : Prop where
  nonempty : [] ∉ encodings
  listed : [byte] ∈ encodings
  alone : ∀ encoding ∈ encodings, byte ∈ encoding → encoding = [byte]

variable {byte : UInt8} {encodings : List Str}

theorem find?_cons_solitary (solitary : Solitary byte encodings) (rest : Str) :
    (encodings.find? fun encoding => encoding.isPrefixOf (byte :: rest)) = some [byte] := by
  cases found : encodings.find? fun encoding => encoding.isPrefixOf (byte :: rest) with
  | none =>
    have refused := find?_eq_none.mp found [byte] solitary.listed
    simp [isPrefixOf] at refused
  | some encoding =>
    have mem := mem_of_find?_eq_some found
    have isPrefix := find?_some found
    cases encoding with
    | nil => exact absurd mem solitary.nonempty
    | cons first tail =>
      rw [isPrefixOf_cons_cons, Bool.and_eq_true, beq_iff_eq] at isPrefix
      rw [solitary.alone _ mem (isPrefix.1 ▸ mem_cons_self)]

theorem dropEncodings_cons_solitary (solitary : Solitary byte encodings) (fuel : Nat) (rest : Str) :
    dropEncodings encodings (fuel + 1) (byte :: rest) = dropEncodings encodings fuel rest := by
  rw [dropEncodings, find?_cons_solitary solitary]
  rfl

/-- An encoding that begins a text with the byte at its end begins the text itself. -/
theorem isPrefixOf_append_solitary (solitary : Solitary byte encodings) {encoding text : Str}
    (mem : encoding ∈ encodings) (nonempty : text ≠ []) :
    encoding.isPrefixOf (text ++ [byte]) = encoding.isPrefixOf text := by
  rw [Bool.eq_iff_iff, isPrefixOf_iff_prefix, isPrefixOf_iff_prefix]
  constructor
  · intro isPrefix
    rcases prefix_concat_iff.mp isPrefix with whole | inside
    · have single := solitary.alone encoding mem (by simp [whole])
      rw [whole] at single
      exact absurd (append_left_eq_self.mp single) nonempty
    · exact inside
  · intro isPrefix
    exact isPrefix.trans (prefix_append text [byte])

theorem dropEncodings_nil (nonempty : [] ∉ encodings) (fuel : Nat) :
    dropEncodings encodings fuel [] = [] := by
  cases fuel with
  | zero => rfl
  | succ fuel =>
    have nothing : (encodings.find? fun encoding => encoding.isPrefixOf []) = none := by
      rw [find?_eq_none]
      intro encoding mem isPrefix
      rw [List.isPrefixOf_iff_prefix, prefix_nil] at isPrefix
      exact nonempty (isPrefix ▸ mem)
    rw [dropEncodings, nothing]

/-- A byte at the end of a text is dropped with a text that is dropped as a whole. -/
theorem dropEncodings_append_solitary (solitary : Solitary byte encodings) (fuel : Nat)
    {text : Str} (enough : text.length ≤ fuel) :
    dropEncodings encodings (fuel + 1) (text ++ [byte]) =
      if dropEncodings encodings fuel text = [] then []
      else dropEncodings encodings fuel text ++ [byte] := by
  induction fuel generalizing text with
  | zero =>
    obtain rfl := length_eq_zero_iff.mp (Nat.le_zero.mp enough)
    rw [nil_append, dropEncodings_cons_solitary solitary]
    rfl
  | succ fuel ih =>
    by_cases empty : text = []
    · subst empty
      rw [nil_append, dropEncodings_cons_solitary solitary,
        dropEncodings_nil solitary.nonempty, if_pos rfl]
    · have sameFind : (encodings.find? fun encoding => encoding.isPrefixOf (text ++ [byte])) =
          encodings.find? fun encoding => encoding.isPrefixOf text := by
        rw [← head?_filter, ← head?_filter, filter_congr fun encoding mem =>
          isPrefixOf_append_solitary solitary mem empty]
      rw [dropEncodings, sameFind, dropEncodings]
      cases found : encodings.find? fun encoding => encoding.isPrefixOf text with
      | none => simp [empty]
      | some encoding =>
        have isPrefix : encoding <+: text := by
          have passes := find?_some found
          exact isPrefixOf_iff_prefix.mp passes
        have positive : 0 < encoding.length :=
          length_pos_iff.mpr fun none => solitary.nonempty
            (none ▸ mem_of_find?_eq_some found)
        dsimp only
        rw [drop_append_of_le_length isPrefix.length_le]
        exact ih (by rw [length_drop]; omega)

theorem solitary_spaces : Solitary 13 spaces :=
  ⟨by decide, by decide, by decide⟩

theorem solitary_reversed_spaces : Solitary 13 (spaces.map reverse) :=
  ⟨by decide, by decide, by decide⟩

@[simp]
theorem trimSpace_append_cr (text : Str) : trimSpace (text ++ [13]) = trimSpace text := by
  have front := dropEncodings_append_solitary solitary_spaces text.length (le_refl text.length)
  unfold trimSpace
  rw [length_append, length_singleton, front]
  by_cases allSpace : dropEncodings spaces text.length text = []
  · rw [if_pos allSpace, allSpace]
  · rw [if_neg allSpace]
    dsimp only
    rw [length_append, length_singleton, reverse_append, reverse_singleton,
      singleton_append, dropEncodings_cons_solitary solitary_reversed_spaces]

/-- Trimming does not notice a carriage return at the end. -/
@[simp]
theorem trimSpace_dropCR (text : Str) : trimSpace (dropCR text) = trimSpace text := by
  unfold dropCR
  split
  · rename_i endsInCR
    obtain ⟨front, rfl⟩ := getLast?_eq_some_iff.mp endsInCR
    rw [dropLast_concat, trimSpace_append_cr]
  · rfl

end Debswarm.Text
