import Debswarm.Text.Bytes

/-!
# Pieces of a text

Splitting at a separator takes a text apart where it was put together, as long as no piece
contains the separator.  Where a text is put together around a separator, a part without the
separator lies on one side of it, and a part that begins with the separator begins at one of
its occurrences.
-/

namespace Debswarm.Text

open List Option

theorem splitByte_append_cons (separator : UInt8) (first second : Str) :
    splitByte separator (first ++ separator :: second) =
      splitByte separator first ++ splitByte separator second := by
  induction first with
  | nil => simp [splitByte]
  | cons byte first ih =>
    by_cases isSeparator : byte = separator
    · simp [splitByte, isSeparator, ih]
    · simp only [cons_append, splitByte, isSeparator, if_false, ih]
      cases pieces : splitByte separator first with
      | nil => exact absurd pieces (splitByte_ne_nil separator first)
      | cons piece pieces => rfl

theorem splitByte_of_not_mem {separator : UInt8} {text : Str} (absent : separator ∉ text) :
    splitByte separator text = [text] := by
  induction text with
  | nil => rfl
  | cons byte rest ih =>
    rw [mem_cons, not_or] at absent
    simp [splitByte, Ne.symm absent.1, ih absent.2]

theorem not_mem_of_mem_splitByte {separator : UInt8} {text piece : Str}
    (mem : piece ∈ splitByte separator text) : separator ∉ piece := by
  induction text generalizing piece with
  | nil =>
    rw [splitByte, mem_singleton] at mem
    simp [mem]
  | cons byte rest ih =>
    by_cases isSeparator : byte = separator
    · simp only [splitByte, if_pos isSeparator, mem_cons] at mem
      rcases mem with rfl | later
      · exact not_mem_nil
      · exact ih later
    · simp only [splitByte, if_neg isSeparator] at mem
      cases pieces : splitByte separator rest with
      | nil => exact absurd pieces (splitByte_ne_nil separator rest)
      | cons first more =>
        rw [pieces] at mem ih
        rcases mem_cons.mp mem with rfl | later
        · rw [mem_cons, not_or]
          exact ⟨Ne.symm isSeparator, ih mem_cons_self⟩
        · exact ih (mem_cons_of_mem _ later)

/-- A byte of a text is the separator or lies in a piece. -/
theorem exists_mem_splitByte {separator byte : UInt8} {text : Str} (mem : byte ∈ text) :
    byte = separator ∨ ∃ piece ∈ splitByte separator text, byte ∈ piece := by
  induction text with
  | nil => cases mem
  | cons first rest ih =>
    by_cases isSeparator : first = separator
    · simp only [splitByte, if_pos isSeparator]
      rcases mem_cons.mp mem with rfl | later
      · exact .inl isSeparator
      · refine (ih later).imp_right ?_
        rintro ⟨piece, isPiece, inPiece⟩
        exact ⟨piece, mem_cons_of_mem _ isPiece, inPiece⟩
    · simp only [splitByte, if_neg isSeparator]
      cases pieces : splitByte separator rest with
      | nil => exact absurd pieces (splitByte_ne_nil separator rest)
      | cons piece more =>
        rw [pieces] at ih
        rcases mem_cons.mp mem with rfl | later
        · exact .inr ⟨_, mem_cons_self, mem_cons_self⟩
        · refine (ih later).imp_right ?_
          rintro ⟨other, isPiece, inPiece⟩
          rcases mem_cons.mp isPiece with rfl | isLater
          · exact ⟨_, mem_cons_self, mem_cons_of_mem _ inPiece⟩
          · exact ⟨other, mem_cons_of_mem _ isLater, inPiece⟩

/-- Changing bytes other than the separator changes the pieces. -/
theorem splitByte_map {separator : UInt8} {change : UInt8 → UInt8}
    (keeps : ∀ byte, change byte = separator ↔ byte = separator) (text : Str) :
    splitByte separator (text.map change) = (splitByte separator text).map (·.map change) := by
  induction text with
  | nil => rfl
  | cons byte rest ih =>
    rw [map_cons, splitByte, splitByte, ih]
    by_cases isSeparator : byte = separator
    · rw [if_pos isSeparator, if_pos ((keeps byte).mpr isSeparator)]
      rfl
    · rw [if_neg isSeparator, if_neg (mt (keeps byte).mp isSeparator)]
      cases splitByte separator rest <;> rfl

/-- Joining the pieces of a text puts it together again. -/
@[simp]
theorem intercalate_splitByte (separator : UInt8) (text : Str) :
    intercalate [separator] (splitByte separator text) = text := by
  induction text with
  | nil => rfl
  | cons byte rest ih =>
    cases pieces : splitByte separator rest with
    | nil => exact absurd pieces (splitByte_ne_nil separator rest)
    | cons first more =>
      rw [pieces] at ih
      by_cases isSeparator : byte = separator
      · rw [splitByte, if_pos isSeparator, pieces, intercalate_cons_cons, ih, isSeparator]
        rfl
      · simp only [splitByte, if_neg isSeparator, pieces]
        rw [intercalate_cons_cons_left, ih]

/-- The last piece is joined behind the others. -/
theorem intercalate_concat (separator last : Str) {pieces : List Str} (nonempty : pieces ≠ []) :
    intercalate separator (pieces ++ [last]) =
      intercalate separator pieces ++ separator ++ last := by
  induction pieces with
  | nil => exact absurd rfl nonempty
  | cons first more ih =>
    cases more with
    | nil => simp [intercalate_cons_cons]
    | cons second more =>
      rw [cons_append, cons_append, intercalate_cons_cons, ← cons_append, ih (cons_ne_nil _ _),
        intercalate_cons_cons]
      simp only [append_assoc]

/-! ## Lines -/

/-- The lines of a text in which every line ends with a newline. -/
def lines (text : Str) : List Str :=
  (splitByte 10 text).dropLast

/-- A line, with the newline at its end. -/
def line (text : Str) : Str :=
  text ++ [10]

theorem lines_line_append {text : Str} (oneLine : 10 ∉ text) (rest : Str) :
    lines (line text ++ rest) = text :: lines rest := by
  unfold lines line
  rw [append_assoc, singleton_append, splitByte_append_cons,
    splitByte_of_not_mem oneLine, singleton_append,
    dropLast_cons_of_ne_nil (splitByte_ne_nil 10 rest)]

theorem lines_flatMap_line {texts : List Str} (oneLine : ∀ text ∈ texts, 10 ∉ text) :
    lines (texts.flatMap line) = texts := by
  induction texts with
  | nil => rfl
  | cons text rest ih =>
    rw [flatMap_cons, lines_line_append (oneLine text mem_cons_self),
      ih fun other mem => oneLine other (mem_cons_of_mem _ mem)]

/-! ## Searching across separators -/

variable {separator : UInt8}

/-- A part that is longer than the text up to a separator would have to contain it. -/
theorem isPrefixOf_append_separator {part : Str} (clean : separator ∉ part) (text rest : Str) :
    part.isPrefixOf (text ++ separator :: rest) = part.isPrefixOf text := by
  induction part generalizing text with
  | nil => simp
  | cons byte part ih =>
    have different : byte ≠ separator := fun same => clean (same ▸ mem_cons_self)
    cases text with
    | nil => simp [isPrefixOf, different]
    | cons first text =>
      have clean : separator ∉ part := fun mem => clean (mem_cons_of_mem _ mem)
      simp only [cons_append, isPrefixOf, ih clean]

/-- A part without the separator lies before it or after it. -/
theorem contains_append_separator {part : Str} (nonempty : part ≠ []) (clean : separator ∉ part)
    (text rest : Str) :
    contains (text ++ separator :: rest) part = (contains text part || contains rest part) := by
  induction text with
  | nil =>
    have front := isPrefixOf_append_separator clean [] rest
    rw [List.nil_append] at front ⊢
    rw [contains_cons, front, contains_nil nonempty]
    cases part with
    | nil => exact absurd rfl nonempty
    | cons => rfl
  | cons byte text ih =>
    have front := isPrefixOf_append_separator clean (byte :: text) rest
    rw [List.cons_append] at front ⊢
    rw [contains_cons, contains_cons, front, ih, Bool.or_assoc]

/-- A part that begins with the separator does not begin in a text without it. -/
theorem contains_append_of_clean {text : Str} (clean : separator ∉ text) (rest part : Str) :
    contains (text ++ rest) (separator :: part) = contains rest (separator :: part) := by
  induction text with
  | nil => rfl
  | cons byte text ih =>
    have different : separator ≠ byte := fun same => clean (same ▸ mem_cons_self)
    have clean : separator ∉ text := fun mem => clean (mem_cons_of_mem _ mem)
    rw [cons_append, contains_cons, ih clean]
    simp [isPrefixOf, different]

@[simp]
theorem contains_singleton (text : Str) (byte : UInt8) :
    contains text [byte] = decide (byte ∈ text) := by
  induction text with
  | nil => rfl
  | cons first rest ih =>
    rw [contains_cons, ih, Bool.eq_iff_iff]
    simp [isPrefixOf]

theorem contains_separator_cons (rest part : Str) :
    contains (separator :: rest) (separator :: part) =
      (part.isPrefixOf rest || contains rest (separator :: part)) := by
  rw [contains_cons]
  simp [isPrefixOf]

/-- A part without the separator that ends a text lies after it. -/
theorem hasSuffix_append_separator {part : Str} (clean : separator ∉ part) (text rest : Str) :
    hasSuffix (text ++ separator :: rest) part = hasSuffix rest part := by
  have clean : separator ∉ part.reverse := fun mem => clean (mem_reverse.mp mem)
  unfold hasSuffix isSuffixOf
  rw [reverse_append, reverse_cons, append_assoc, singleton_append,
    isPrefixOf_append_separator clean]

theorem hasSuffix_nil {part : Str} (nonempty : part ≠ []) : hasSuffix [] part = false := by
  cases isSuffix : hasSuffix [] part with
  | false => rfl
  | true => exact absurd (suffix_nil.mp (isSuffixOf_iff_suffix.mp isSuffix)) nonempty

/-! ## First occurrences -/

theorem isPrefix_drop_of_index {part text : Str} {offset : Nat}
    (found : index part text = some offset) : part <+: text.drop offset := by
  induction text generalizing offset with
  | nil =>
    rw [index] at found
    split at found
    · rename_i empty
      rw [empty]
      exact nil_prefix
    · cases found
  | cons byte rest ih =>
    rw [index] at found
    split at found
    · rename_i isPrefix
      obtain rfl := some.inj found
      exact isPrefixOf_iff_prefix.mp isPrefix
    · obtain ⟨earlier, foundEarlier, rfl⟩ := map_eq_some_iff.mp found
      exact ih foundEarlier

/-- An occurrence is not before the first one. -/
theorem exists_index_of_isPrefix {part front rest : Str} (isPrefix : part <+: rest) :
    ∃ offset, index part (front ++ rest) = some offset ∧ offset ≤ front.length := by
  induction front with
  | nil =>
    refine ⟨0, ?_, le_rfl⟩
    cases rest with
    | nil => rw [nil_append, index, if_pos (prefix_nil.mp isPrefix)]
    | cons byte rest =>
      rw [nil_append, index, if_pos (List.isPrefixOf_iff_prefix.mpr isPrefix)]
  | cons byte front ih =>
    obtain ⟨offset, found, le⟩ := ih
    rw [cons_append, index, found]
    split
    · exact ⟨0, rfl, Nat.zero_le _⟩
    · exact ⟨offset + 1, rfl, Nat.succ_le_succ le⟩

theorem index_separator {text : Str} (clean : separator ∉ text) (rest : Str) :
    index [separator] (text ++ separator :: rest) = some text.length := by
  induction text with
  | nil => simp [index, List.isPrefixOf]
  | cons byte text ih =>
    rw [List.mem_cons, not_or] at clean
    rw [List.cons_append, index, ih clean.2]
    simp [List.isPrefixOf, clean.1]

/-! ## Segments between separators -/

/-- A segment and the separator after it, in a text that is put together around a separator. -/
theorem isPrefixOf_segment {word : Str} (clean : separator ∉ word) (text rest : Str) :
    (word ++ [separator]).isPrefixOf (text ++ separator :: rest) = true ↔
      (word ++ [separator]).isPrefixOf text = true ∨ text = word := by
  induction word generalizing text with
  | nil => cases text <;> simp [isPrefixOf]
  | cons byte word ih =>
    have different : byte ≠ separator := fun same => clean (same ▸ mem_cons_self)
    cases text with
    | nil => simp [isPrefixOf, different]
    | cons first text =>
      have clean : separator ∉ word := fun mem => clean (mem_cons_of_mem _ mem)
      simp only [cons_append, isPrefixOf, Bool.and_eq_true, ih clean, beq_iff_eq,
        cons.injEq, and_or_left]
      exact or_congr_right (and_congr_left' eq_comm)

/-- A segment that is not in the front of a text, and does not end it, is found behind it. -/
theorem index_append_segment {word text : Str} (clean : separator ∉ word)
    (absent : contains text (separator :: (word ++ [separator])) = false)
    (notLast : ¬ (separator :: word) <:+ text) (rest : Str) :
    index (separator :: (word ++ [separator])) (text ++ separator :: rest) =
      (index (separator :: (word ++ [separator])) (separator :: rest)).map (· + text.length) := by
  induction text with
  | nil => simp
  | cons byte text ih =>
    rw [contains_cons, Bool.or_eq_false_iff] at absent
    have notHere : (separator :: (word ++ [separator])).isPrefixOf
        (byte :: (text ++ separator :: rest)) = false := by
      rw [Bool.eq_false_iff]
      intro here
      rw [List.isPrefixOf, Bool.and_eq_true, beq_iff_eq, isPrefixOf_segment clean] at here
      obtain ⟨rfl, inText | rfl⟩ := here
      · simp [List.isPrefixOf, inText] at absent
      · exact notLast List.suffix_rfl
    rw [List.cons_append, index, notHere, ih absent.2 fun isSuffix =>
      notLast (isSuffix.trans (List.suffix_cons byte text)), Option.map_map]
    rfl

end Debswarm.Text
