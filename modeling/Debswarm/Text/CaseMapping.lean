import Debswarm.Text.Search

/-!
# Unicode text

A byte string is read as UTF-8, one character after the other; a byte that begins no encoding
is read as the replacement character.  Lower-casing a text maps its characters, which may change
its length in bytes.  The bytes that only ASCII letters are mapped to can be found in the
lower-cased text exactly where they can be found in the text, compared without regard to ASCII
case.
-/

namespace Debswarm.Text

open List

section

/-- The character that a string begins with, if it begins with an encoding. -/
def decodeRune (text : Str) : Option Char :=
  text.toByteArray.utf8DecodeChar? 0

/-- The character that a byte which begins no encoding is read as. -/
def runeError : Char :=
  Char.ofNat 0xFFFD

/-- Map the characters of a string after the first `skip` bytes. -/
def mapRunesFrom (change : Char → Char) : Nat → Str → Str
  | _, [] => []
  | skip + 1, _ :: rest => mapRunesFrom change skip rest
  | 0, byte :: rest =>
    match decodeRune (byte :: rest) with
    | some char =>
      String.utf8EncodeChar (change char) ++
        mapRunesFrom change (char.utf8Size - 1) rest
    | none => String.utf8EncodeChar (change runeError) ++ mapRunesFrom change 0 rest

/-- Map the characters of a string. -/
def mapRunes (change : Char → Char) (text : Str) : Str :=
  mapRunesFrom change 0 text

/-! ## Encodings -/

variable {char : Char} {byte : UInt8}

theorem decodeRune_eq_some_iff {text : Str} :
    decodeRune text = some char ↔ String.utf8EncodeChar char <+: text := by
  unfold decodeRune
  constructor
  · intro decoded
    obtain ⟨rest, split⟩ := ByteArray.exists_of_utf8DecodeChar?_eq_some decoded
    have bytes := congrArg (fun array : ByteArray => array.data.toList) split
    simp only [data_toByteArray, ByteArray.data_append, Array.toList_append] at bytes
    exact ⟨rest.data.toList, bytes.symm⟩
  · rintro ⟨rest, rfl⟩
    rw [toByteArray_append]
    exact ByteArray.utf8DecodeChar?_utf8EncodeChar_append

theorem utf8EncodeChar_of_ascii (ascii : char.toNat < 128) :
    String.utf8EncodeChar char = [UInt8.ofNat char.toNat] := by
  have small : char.val.toNat ≤ 0x7f := Nat.le_of_lt_succ ascii
  simp only [String.utf8EncodeChar, if_pos small]
  rfl

/-- The encoding of any other character has no byte below 128. -/
theorem le_of_mem_utf8EncodeChar (other : 128 ≤ char.toNat)
    (mem : byte ∈ String.utf8EncodeChar char) : 128 ≤ byte := by
  have large : ¬ char.val.toNat ≤ 0x7f := Nat.not_le.mpr other
  have high : ∀ value, 128 ≤ value → value < 256 → (128 : UInt8) ≤ UInt8.ofNat value := by
    intro value lower upper
    rw [UInt8.le_iff_toNat_le, UInt8.toNat_ofNat_of_lt' upper]
    exact lower
  simp only [String.utf8EncodeChar, if_neg large] at mem
  split_ifs at mem
  · simp only [mem_cons, not_mem_nil, or_false] at mem
    rcases mem with rfl | rfl <;> exact high _ (by omega) (by omega)
  · simp only [mem_cons, not_mem_nil, or_false] at mem
    rcases mem with rfl | rfl | rfl <;> exact high _ (by omega) (by omega)
  · simp only [mem_cons, not_mem_nil, or_false] at mem
    rcases mem with rfl | rfl | rfl | rfl <;> exact high _ (by omega) (by omega)

theorem utf8EncodeChar_ne_nil (char : Char) : String.utf8EncodeChar char ≠ [] := by
  intro empty
  have size := String.length_utf8EncodeChar char
  rw [empty] at size
  exact absurd size.symm char.utf8Size_pos.ne'

theorem exists_char_of_ascii (ascii : byte < 128) :
    ∃ char : Char, char.toNat = byte.toNat ∧ String.utf8EncodeChar char = [byte] := by
  have small : byte.toNat < 128 := UInt8.lt_iff_toNat_lt.mp ascii
  have valid : byte.toNat.isValidChar := .inl (by omega)
  have code : (Char.ofNat byte.toNat).toNat = byte.toNat := by
    rw [Char.ofNat, dif_pos valid]
    rfl
  refine ⟨Char.ofNat byte.toNat, code, ?_⟩
  rw [utf8EncodeChar_of_ascii (by omega), code, UInt8.ofNat_toNat]

theorem le_of_decodeRune_eq_none {rest : Str} (invalid : decodeRune (byte :: rest) = none) :
    128 ≤ byte := by
  by_contra low
  obtain ⟨char, -, encoding⟩ := exists_char_of_ascii (UInt8.not_le.mp low)
  have begins : String.utf8EncodeChar char <+: byte :: rest :=
    encoding ▸ prefix_append [byte] rest
  have decoded := decodeRune_eq_some_iff.mpr begins
  exact Option.some_ne_none char (decoded.symm.trans invalid)

/-- What begins no encoding begins none when it is cut off. -/
theorem decodeRune_eq_none_of_isPrefix {front text : Str} (isPrefix : front <+: text)
    (invalid : decodeRune text = none) : decodeRune front = none := by
  cases decoded : decodeRune front with
  | none => rfl
  | some char =>
    have longer := decodeRune_eq_some_iff.mpr
      ((decodeRune_eq_some_iff.mp decoded).trans isPrefix)
    rw [invalid] at longer
    cases longer

/-- A string ends, begins with an encoding, or begins with a byte that begins none. -/
theorem rune_induction {motive : Str → Prop} (nil : motive [])
    (char : ∀ char rest, motive rest → motive (String.utf8EncodeChar char ++ rest))
    (invalid : ∀ byte rest, decodeRune (byte :: rest) = none → motive rest →
      motive (byte :: rest)) (text : Str) : motive text := by
  induction size : text.length using Nat.strong_induction_on generalizing text with
  | h length ih =>
    cases text with
    | nil => exact nil
    | cons byte rest =>
      cases decoded : decodeRune (byte :: rest) with
      | none =>
        refine invalid byte rest decoded (ih rest.length ?_ rest rfl)
        rw [← size, length_cons]
        exact Nat.lt_succ_self _
      | some first =>
        obtain ⟨after, split⟩ := decodeRune_eq_some_iff.mp decoded
        rw [← split]
        refine char first after (ih after.length ?_ after rfl)
        rw [← size, ← split, length_append, String.length_utf8EncodeChar]
        exact Nat.lt_add_of_pos_left first.utf8Size_pos

/-! ## Mapping -/

variable {change : Char → Char}

theorem mapRunesFrom_eq_mapRunes_drop (change : Char → Char) (skip : Nat) (text : Str) :
    mapRunesFrom change skip text = mapRunes change (text.drop skip) := by
  induction skip generalizing text with
  | zero => rfl
  | succ skip ih =>
    cases text with
    | nil => rfl
    | cons byte rest => exact ih rest

@[simp]
theorem mapRunes_nil : mapRunes change [] = [] :=
  rfl

@[simp]
theorem mapRunes_char (char : Char) (rest : Str) :
    mapRunes change (String.utf8EncodeChar char ++ rest) =
      String.utf8EncodeChar (change char) ++ mapRunes change rest := by
  have decoded := decodeRune_eq_some_iff.mpr (prefix_append (String.utf8EncodeChar char) rest)
  have size := String.length_utf8EncodeChar char
  cases encoding : String.utf8EncodeChar char with
  | nil => exact absurd encoding (utf8EncodeChar_ne_nil char)
  | cons byte more =>
    rw [encoding] at decoded size
    have behind : char.utf8Size - 1 = more.length := by
      rw [← size]
      rfl
    rw [cons_append] at decoded ⊢
    rw [mapRunes, mapRunesFrom, decoded]
    dsimp only
    rw [mapRunesFrom_eq_mapRunes_drop, behind, drop_left]

theorem mapRunes_invalid {rest : Str} (invalid : decodeRune (byte :: rest) = none) :
    mapRunes change (byte :: rest) =
      String.utf8EncodeChar (change runeError) ++ mapRunes change rest := by
  rw [mapRunes, mapRunesFrom, invalid]
  rfl

end

/-! ## Lower-casing -/

/-- The lower-case forms. Beyond ASCII only dotted capital I and the Kelvin sign have ASCII ones. -/
structure CaseMapping where
  lower : Char → Char
  ascii : ∀ char, char.toNat < 128 →
    (lower char).toNat = (lowerByte (UInt8.ofNat char.toNat)).toNat
  other : ∀ char, 128 ≤ char.toNat →
    128 ≤ (lower char).toNat ∨ lower char = 'i' ∨ lower char = 'k'

/-- A byte that is in the lower-case form of an ASCII character at most. -/
def IsPlain (byte : UInt8) : Prop :=
  byte < 128 ∧ byte ≠ 105 ∧ byte ≠ 107

instance : DecidablePred IsPlain := fun byte =>
  inferInstanceAs (Decidable (byte < 128 ∧ byte ≠ 105 ∧ byte ≠ 107))

variable {byte : UInt8} {word : Str}

theorem lowerByte_lt (ascii : byte < 128) : lowerByte byte < 128 := by
  unfold lowerByte
  split
  · rename_i isUpper
    have upper := UInt8.le_iff_toNat_le.mp isUpper.2
    rw [UInt8.lt_iff_toNat_lt, UInt8.toNat_add]
    change (byte.toNat + 32) % 256 < 128
    change byte.toNat ≤ 90 at upper
    omega
  · exact ascii

theorem lowerByte_of_le (high : 128 ≤ byte) : lowerByte byte = byte := by
  have notUpper : ¬ (65 ≤ byte ∧ byte ≤ 90) := fun isUpper =>
    absurd (UInt8.le_trans high isUpper.2) (by decide)
  rw [lowerByte, if_neg notUpper]

theorem not_isPlain_of_le (high : 128 ≤ byte) : ¬ IsPlain byte :=
  fun plain => absurd plain.1 (UInt8.not_lt.mpr high)

namespace CaseMapping

variable (mapping : CaseMapping)

def lowerText (text : Str) : Str :=
  mapRunes mapping.lower text

/-- The library functions with this case mapping. -/
def libraries (sha256 : Str → Str) : Libraries where
  sha256 := sha256
  unicodeLower := mapping.lowerText

theorem utf8EncodeChar_lower_of_ascii {char : Char} (ascii : char.toNat < 128) :
    String.utf8EncodeChar (mapping.lower char) = [lowerByte (UInt8.ofNat char.toNat)] := by
  have small : UInt8.ofNat char.toNat < 128 := by
    rw [UInt8.lt_iff_toNat_lt, UInt8.toNat_ofNat_of_lt' (Nat.lt_trans ascii (by decide))]
    exact ascii
  have code := mapping.ascii char ascii
  have below : (mapping.lower char).toNat < 128 := by
    rw [code]
    exact UInt8.lt_iff_toNat_lt.mp (lowerByte_lt small)
  rw [utf8EncodeChar_of_ascii below, code, UInt8.ofNat_toNat]

/-- No byte of the lower-case form of a character beyond ASCII is plain. -/
theorem not_isPlain_of_mem {char : Char} (other : 128 ≤ char.toNat)
    (mem : byte ∈ String.utf8EncodeChar (mapping.lower char)) : ¬ IsPlain byte := by
  rcases mapping.other char other with beyond | dotless | kelvin
  · exact not_isPlain_of_le (le_of_mem_utf8EncodeChar beyond mem)
  · have letter : String.utf8EncodeChar 'i' = [105] := rfl
    rw [dotless, letter, mem_singleton] at mem
    exact fun plain => plain.2.1 mem
  · have letter : String.utf8EncodeChar 'k' = [107] := rfl
    rw [kelvin, letter, mem_singleton] at mem
    exact fun plain => plain.2.2 mem

theorem lowerText_cons_of_ascii (ascii : byte < 128) (rest : Str) :
    mapping.lowerText (byte :: rest) = lowerByte byte :: mapping.lowerText rest := by
  obtain ⟨char, code, encoding⟩ := exists_char_of_ascii ascii
  have small : char.toNat < 128 := code ▸ UInt8.lt_iff_toNat_lt.mp ascii
  have mapped := @mapRunes_char mapping.lower char rest
  rw [encoding, mapping.utf8EncodeChar_lower_of_ascii small, code, UInt8.ofNat_toNat] at mapped
  exact mapped

/-- A text ends, begins with an ASCII byte, or begins with a block of other bytes that is mapped to
bytes that are not plain, wherever the text is cut off. -/
theorem text_induction {motive : Str → Prop} (nil : motive [])
    (ascii : ∀ byte rest, byte < 128 → motive rest → motive (byte :: rest))
    (block : ∀ block image rest, block ≠ [] → (∀ byte ∈ block, 128 ≤ byte) → image ≠ [] →
      (∀ byte ∈ image, ¬ IsPlain byte) →
      (∀ front, front <+: rest →
        mapping.lowerText (block ++ front) = image ++ mapping.lowerText front) →
      motive rest → motive (block ++ rest)) (text : Str) : motive text := by
  induction text using rune_induction with
  | nil => exact nil
  | char char rest ih =>
    rcases Nat.lt_or_ge char.toNat 128 with small | large
    · rw [utf8EncodeChar_of_ascii small]
      refine ascii _ rest ?_ ih
      rw [UInt8.lt_iff_toNat_lt, UInt8.toNat_ofNat_of_lt' (Nat.lt_trans small (by decide))]
      exact small
    · exact block _ _ rest (utf8EncodeChar_ne_nil char)
        (fun byte mem => le_of_mem_utf8EncodeChar large mem)
        (utf8EncodeChar_ne_nil (mapping.lower char))
        (fun byte mem => mapping.not_isPlain_of_mem large mem)
        (fun front _ => mapRunes_char char front) ih
  | invalid byte rest invalid ih =>
    refine block [byte] _ rest (cons_ne_nil _ _) (fun other mem => ?_)
      (utf8EncodeChar_ne_nil (mapping.lower runeError))
      (fun byte mem => mapping.not_isPlain_of_mem (by decide) mem) (fun front isPrefix => ?_) ih
    · rw [mem_singleton.mp mem]
      exact le_of_decodeRune_eq_none invalid
    · exact mapRunes_invalid (decodeRune_eq_none_of_isPrefix
        (cons_prefix_cons.mpr ⟨rfl, isPrefix⟩) invalid)

/-! ## Plain bytes -/

/-- The fast path for ASCII text agrees with the mapping of characters. -/
@[simp]
theorem toLower_eq_lowerText (text : Str) :
    toLower mapping.lowerText text = mapping.lowerText text := by
  unfold toLower
  split
  · rename_i allAscii
    induction text with
    | nil => rfl
    | cons byte rest ih =>
      rw [all_cons, Bool.and_eq_true] at allAscii
      rw [mapping.lowerText_cons_of_ascii (of_decide_eq_true allAscii.1), map_cons, ih allAscii.2]
  · rfl

theorem lowerText_eq_map_of_ascii {text : Str} (ascii : ∀ byte ∈ text, byte < 128) :
    mapping.lowerText text = text.map lowerByte := by
  have allAscii : (text.all fun byte => byte < 128) = true :=
    all_eq_true.mpr fun byte mem => decide_eq_true (ascii byte mem)
  rw [← toLower_eq_lowerText, toLower, if_pos allAscii]

/-- A text whose lower-case form is plain is lower-cased byte by byte. -/
theorem lowerText_eq_map_of_plain {text : Str}
    (plain : ∀ byte ∈ mapping.lowerText text, IsPlain byte) :
    mapping.lowerText text = text.map lowerByte := by
  induction text using mapping.text_induction with
  | nil => rfl
  | ascii byte rest small ih =>
    rw [mapping.lowerText_cons_of_ascii small] at plain ⊢
    rw [map_cons, ih fun other mem => plain other (mem_cons_of_mem _ mem)]
  | block block image rest _ _ imageNonempty notPlain mapped _ =>
    obtain ⟨byte, mem⟩ := exists_mem_of_ne_nil image imageNonempty
    rw [mapped rest prefix_rfl] at plain
    exact absurd (plain byte (mem_append_left _ mem)) (notPlain byte mem)

/-- Bytes that are not plain do not begin with a plain word. -/
theorem not_isPrefix_of_not_plain {front rest : Str} (nonempty : word ≠ [])
    (plain : ∀ byte ∈ word, IsPlain byte) (frontNonempty : front ≠ [])
    (notPlain : ∀ byte ∈ front, ¬ IsPlain byte) : ¬ word <+: front ++ rest := by
  intro isPrefix
  cases word with
  | nil => exact nonempty rfl
  | cons first more =>
    cases front with
    | nil => exact frontNonempty rfl
    | cons byte front =>
      obtain ⟨rfl, -⟩ := cons_prefix_cons.mp isPrefix
      exact notPlain first mem_cons_self (plain first mem_cons_self)

section

variable (plain : ∀ byte ∈ word, IsPlain byte)

include plain

/-- A plain word begins the lower-case form where it begins the text. -/
theorem isPrefix_lowerText_iff (text : Str) :
    word <+: mapping.lowerText text ↔ word <+: text.map lowerByte := by
  induction text using mapping.text_induction generalizing word with
  | nil => rfl
  | ascii byte rest small ih =>
    rw [mapping.lowerText_cons_of_ascii small, map_cons]
    cases word with
    | nil => exact iff_of_true nil_prefix nil_prefix
    | cons first more =>
      rw [cons_prefix_cons, cons_prefix_cons,
        ih fun other mem => plain other (mem_cons_of_mem _ mem)]
  | block block image rest blockNonempty high imageNonempty notPlain mapped _ =>
    cases word with
    | nil => exact iff_of_true nil_prefix nil_prefix
    | cons first more =>
      rw [mapped rest prefix_rfl, map_append]
      refine iff_of_false ?_ ?_
      · exact not_isPrefix_of_not_plain (cons_ne_nil _ _) plain imageNonempty notPlain
      · refine not_isPrefix_of_not_plain (cons_ne_nil _ _) plain ?_ ?_
        · exact fun empty => blockNonempty (map_eq_nil_iff.mp empty)
        · intro byte mem
          obtain ⟨before, beforeMem, rfl⟩ := mem_map.mp mem
          rw [lowerByte_of_le (high before beforeMem)]
          exact not_isPlain_of_le (high before beforeMem)

/-- A plain word at the end lies behind bytes that are not plain. -/
theorem isSuffix_append_iff_of_not_plain {front : Str}
    (notPlain : ∀ byte ∈ front, ¬ IsPlain byte) (rest : Str) :
    word <:+ front ++ rest ↔ word <:+ rest := by
  refine ⟨fun isSuffix => ?_, fun isSuffix => isSuffix.trans (suffix_append front rest)⟩
  rcases suffix_or_suffix_of_suffix isSuffix (suffix_append front rest) with inRest | ⟨more, rfl⟩
  · exact inRest
  · have inFront := (suffix_append_self_iff.mp isSuffix).subset
    have noMore : more = [] := eq_nil_iff_forall_not_mem.mpr fun byte mem =>
      notPlain byte (inFront mem) (plain byte (mem_append_left _ mem))
    rw [noMore]
    exact suffix_rfl

/-- A plain word ends the lower-case form where it ends the text. -/
theorem isSuffix_lowerText_iff (text : Str) :
    word <:+ mapping.lowerText text ↔ word <:+ text.map lowerByte := by
  induction text using mapping.text_induction with
  | nil => rfl
  | ascii byte rest small ih =>
    rw [mapping.lowerText_cons_of_ascii small, map_cons, suffix_cons_iff, suffix_cons_iff, ih]
    refine or_congr_left ⟨fun isWord => ?_, fun isWord => ?_⟩
    · rw [isWord, mapping.lowerText_eq_map_of_plain fun other mem =>
        plain other (isWord ▸ mem_cons_of_mem _ mem)]
    · rw [isWord, mapping.lowerText_eq_map_of_ascii]
      intro other mem
      by_contra high
      have isPlain := plain (lowerByte other) (isWord ▸ mem_cons_of_mem _ (mem_map_of_mem mem))
      rw [lowerByte_of_le (UInt8.not_lt.mp high)] at isPlain
      exact high isPlain.1
  | block block image rest _ high _ notPlain mapped ih =>
    rw [mapped rest prefix_rfl, map_append, isSuffix_append_iff_of_not_plain plain notPlain, ih,
      isSuffix_append_iff_of_not_plain plain]
    intro byte mem
    obtain ⟨before, beforeMem, rfl⟩ := mem_map.mp mem
    rw [lowerByte_of_le (high before beforeMem)]
    exact not_isPlain_of_le (high before beforeMem)

/-- The lower-case form ends in a plain word where the text ends in one of its spellings. -/
theorem hasSuffix_toLower_iff (text : Str) :
    hasSuffix (toLower mapping.lowerText text) word = true ↔
      ∃ stem ending, stem ++ ending = text ∧ ending.map lowerByte = word := by
  rw [toLower_eq_lowerText, hasSuffix, isSuffixOf_iff_suffix, mapping.isSuffix_lowerText_iff plain,
    suffix_map_iff]
  constructor
  · rintro ⟨ending, ⟨stem, whole⟩, isWord⟩
    exact ⟨stem, ending, whole, isWord.symm⟩
  · rintro ⟨stem, ending, whole, isWord⟩
    exact ⟨ending, ⟨stem, whole⟩, isWord.symm⟩

end

/-- A plain word is not found before the end of bytes that are not plain. -/
theorem index_append_of_not_plain {front : Str} (nonempty : word ≠ [])
    (plain : ∀ byte ∈ word, IsPlain byte) (notPlain : ∀ byte ∈ front, ¬ IsPlain byte) (rest : Str) :
    index word (front ++ rest) = (index word rest).map (· + front.length) := by
  induction front with
  | nil => simp
  | cons byte front ih =>
    have notHere : ¬ word.isPrefixOf (byte :: (front ++ rest)) = true := fun here =>
      not_isPrefix_of_not_plain nonempty plain (List.cons_ne_nil byte front) notPlain
        (List.isPrefixOf_iff_prefix.mp here)
    rw [List.cons_append, index, if_neg notHere,
      ih fun other mem => notPlain other (List.mem_cons_of_mem _ mem), Option.map_map]
    congr 1

/-- A plain word is first found where the text before its first occurrence ends. -/
theorem index_lowerText (nonempty : word ≠ []) (plain : ∀ byte ∈ word, IsPlain byte) (text : Str) :
    index word (mapping.lowerText text) =
      (index word (text.map lowerByte)).map fun start =>
        (mapping.lowerText (text.take start)).length := by
  induction text using mapping.text_induction with
  | nil =>
    change index word [] = (index word []).map _
    rw [index, if_neg nonempty]
    rfl
  | ascii byte rest small ih =>
    have here : word.isPrefixOf (lowerByte byte :: mapping.lowerText rest) =
        word.isPrefixOf (lowerByte byte :: rest.map lowerByte) := by
      have same := mapping.isPrefix_lowerText_iff plain (byte :: rest)
      rw [mapping.lowerText_cons_of_ascii small, List.map_cons, ← List.isPrefixOf_iff_prefix,
        ← List.isPrefixOf_iff_prefix] at same
      exact Bool.eq_iff_iff.mpr same
    rw [mapping.lowerText_cons_of_ascii small, List.map_cons, index, index, here]
    split
    · rfl
    · rw [ih, Option.map_map, Option.map_map]
      congr 1
      funext start
      simp [mapping.lowerText_cons_of_ascii small]
  | block block image rest blockNonempty high imageNonempty notPlain mapped ih =>
    have sameBlock : block.map lowerByte = block :=
      (List.map_congr_left fun byte mem => lowerByte_of_le (high byte mem)).trans
        (List.map_id block)
    have blockNotPlain : ∀ byte ∈ block, ¬ IsPlain byte := fun byte mem =>
      not_isPlain_of_le (high byte mem)
    rw [mapped rest List.prefix_rfl, List.map_append, sameBlock,
      index_append_of_not_plain nonempty plain notPlain,
      index_append_of_not_plain nonempty plain blockNotPlain, ih, Option.map_map,
      Option.map_map]
    congr 1
    funext start
    simp only [Function.comp_apply]
    rw [Nat.add_comm start, List.take_length_add_append, mapped _ (List.take_prefix _ _),
      List.length_append, Nat.add_comm]

end CaseMapping

end Debswarm.Text
