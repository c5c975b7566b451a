import Debswarm.Metadata.Core
import Debswarm.Text.CaseMapping

/-!
# The digest that a URL names

A by-hash URL names the digest of its content behind a marker.  The marker is looked for in the
lower-cased URL, and the offset found there is used to slice the URL itself.  Lower-casing may
change the length of what stands before the marker.  The slice then begins at another place,
which may lie beyond the end of the URL or before digits that no marker introduces.
-/

namespace Debswarm.Metadata

open List Option Text

/-- The lower-case form of sixty-four hexadecimal digits. -/
def digitsOf (segment : Str) : Option Str :=
  if segment.length = 64 ∧ (segment.map lowerByte).all isLowerHex then
    some (segment.map lowerByte)
  else none

/-- A URL has the marker in some letter case, and behind it the digest in hexadecimal. -/
def Names (rawURL digest : Str) : Prop :=
  ∃ front marker digits rest, rawURL = front ++ (marker ++ (digits ++ rest)) ∧
    marker.map lowerByte = byHashMarker ∧ digitsOf digits = some digest

/-- Reading the digest of a URL slices within it and yields only a digest that it names. -/
def ReadsOwnDigest (lib : Libraries) (rawURL : Str) : Prop :=
  ∃ found, byHashSHA256 lib rawURL = .ok found ∧ ∀ digest, found = some digest → Names rawURL digest

/-- The place at which the digest is looked for if the first marker of the URL is at `start`. -/
def digestPlace (lib : Libraries) (rawURL : Str) (start : Nat) : Nat :=
  (toLower lib.unicodeLower (rawURL.take start)).length + byHashMarker.length

/-- Lower-casing keeps the length of what stands before the first marker of a URL. -/
def KeepsPlace (lib : Libraries) (rawURL : Str) : Prop :=
  ∀ start ∈ index byHashMarker (rawURL.map lowerByte),
    (toLower lib.unicodeLower (rawURL.take start)).length = start

instance (lib : Libraries) (rawURL : Str) : Decidable (KeepsPlace lib rawURL) :=
  inferInstanceAs (Decidable (∀ start ∈ index byHashMarker (rawURL.map lowerByte), _))

variable {sha256 : Str → Str} {mapping : CaseMapping}

theorem isPlain_of_isLowerHex {byte : UInt8} (isHex : isLowerHex byte = true) : IsPlain byte := by
  simp only [isLowerHex, Bool.or_eq_true, Bool.and_eq_true, decide_eq_true_eq] at isHex
  have notBeyond : byte ≤ 102 := by
    rcases isHex with ⟨-, isDigit⟩ | ⟨-, isLetter⟩
    · exact UInt8.le_trans isDigit (by decide)
    · exact isLetter
  refine ⟨UInt8.lt_of_le_of_lt notBeyond (by decide), ?_, ?_⟩
  · rintro rfl
    exact absurd notBeyond (by decide)
  · rintro rfl
    exact absurd notBeyond (by decide)

/-- Digits are lower-cased byte by byte. -/
theorem digest_eq_digitsOf (mapping : CaseMapping) (segment : Str) :
    (if segment.length ≠ 64 then none
      else if (mapping.lowerText segment).all isLowerHex then some (mapping.lowerText segment)
      else none) = digitsOf segment := by
  have plainOf : ∀ text : Str, text.all isLowerHex = true → ∀ byte ∈ text, IsPlain byte :=
    fun text allHex byte mem => isPlain_of_isLowerHex (all_eq_true.mp allHex byte mem)
  unfold digitsOf
  by_cases long : segment.length = 64
  · rw [if_neg (not_not.mpr long)]
    by_cases allHex : (segment.map lowerByte).all isLowerHex = true
    · have ascii : ∀ byte ∈ segment, byte < 128 := by
        intro byte mem
        by_contra high
        have plain := plainOf _ allHex _ (mem_map_of_mem mem)
        rw [lowerByte_of_le (UInt8.not_lt.mp high)] at plain
        exact high plain.1
      rw [mapping.lowerText_eq_map_of_ascii ascii, if_pos allHex, if_pos ⟨long, allHex⟩]
    · have notHex : ¬ (mapping.lowerText segment).all isLowerHex = true := by
        intro lowHex
        rw [mapping.lowerText_eq_map_of_plain (plainOf _ lowHex)] at lowHex
        exact allHex lowHex
      rw [if_neg notHex, if_neg fun both => allHex both.2]
  · rw [if_pos long, if_neg fun both => long both.1]

/-- What is read stands behind the first marker, shifted by what lower-casing adds before it. -/
theorem byHashSHA256_eq (rawURL : Str) :
    byHashSHA256 (mapping.libraries sha256) rawURL =
      (index byHashMarker (rawURL.map lowerByte)).elim (.ok none) fun start =>
        (sliceFrom rawURL (digestPlace (mapping.libraries sha256) rawURL start)).map fun tail =>
          digitsOf (untilSeparator tail) := by
  have lowers : (mapping.libraries sha256).unicodeLower = mapping.lowerText := rfl
  have searched : index byHashMarker (mapping.lowerText rawURL) =
      (index byHashMarker (rawURL.map lowerByte)).map fun start =>
        (mapping.lowerText (rawURL.take start)).length :=
    mapping.index_lowerText (by decide) (by decide +kernel) rawURL
  unfold byHashSHA256 digestPlace
  simp only [lowers, mapping.toLower_eq_lowerText, searched]
  cases index byHashMarker (rawURL.map lowerByte) with
  | none => rfl
  | some start =>
    simp only [map_some, elim_some]
    cases sliceFrom rawURL ((mapping.lowerText (rawURL.take start)).length +
        byHashMarker.length) with
    | error fault => rfl
    | ok tail =>
      simp only [Except.map, ← digest_eq_digitsOf mapping]
      split
      · rfl
      · split <;> rfl

theorem length_of_byHashSHA256 {rawURL digest : Str}
    (isRead : byHashSHA256 (mapping.libraries sha256) rawURL = .ok (some digest)) :
    digest.length = 64 := by
  rw [byHashSHA256_eq] at isRead
  cases found : index byHashMarker (rawURL.map lowerByte) with
  | none =>
    rw [found] at isRead
    cases isRead
  | some start =>
    rw [found, elim_some] at isRead
    cases sliced : sliceFrom rawURL
        (digestPlace (mapping.libraries sha256) rawURL start) with
    | error fault =>
      rw [sliced] at isRead
      cases isRead
    | ok tail =>
      rw [sliced] at isRead
      have digits : digitsOf (untilSeparator tail) = some digest := Except.ok.inj isRead
      unfold digitsOf at digits
      split at digits
      · rename_i isDigits
        rw [← some.inj digits, length_map]
        exact isDigits.1
      · cases digits

/-- The first marker of a URL splits it. -/
theorem exists_split_of_index {rawURL : Str} {start : Nat}
    (found : index byHashMarker (rawURL.map lowerByte) = some start) :
    ∃ marker, rawURL = rawURL.take start ++
        (marker ++ rawURL.drop (start + byHashMarker.length)) ∧
      marker.map lowerByte = byHashMarker := by
  have isPrefix := isPrefix_drop_of_index found
  refine ⟨(rawURL.drop start).take byHashMarker.length, ?_, ?_⟩
  · rw [← drop_drop, take_append_drop, take_append_drop]
  · rw [map_take, map_drop]
    exact (prefix_iff_eq_take.mp isPrefix).symm

/-- Digits right behind the first marker are named. -/
theorem names_of_index {rawURL digest : Str} {start : Nat}
    (found : index byHashMarker (rawURL.map lowerByte) = some start)
    (digits : digitsOf (untilSeparator (rawURL.drop (start + byHashMarker.length))) =
      some digest) : Names rawURL digest := by
  obtain ⟨marker, split, isMarker⟩ := exists_split_of_index found
  obtain ⟨rest, behind⟩ := takeWhile_prefix (l := rawURL.drop (start + byHashMarker.length))
    fun byte => !(ofAscii "/?#").contains byte
  refine ⟨rawURL.take start, marker, _, rest, ?_, isMarker, digits⟩
  rw [untilSeparator, behind]
  exact split

theorem length_of_index {rawURL : Str} {start : Nat}
    (found : index byHashMarker (rawURL.map lowerByte) = some start) :
    start + byHashMarker.length ≤ rawURL.length := by
  have fits := (isPrefix_drop_of_index found).length_le
  have positive : 0 < byHashMarker.length := by decide
  rw [length_drop, length_map] at fits
  omega

/-- If lower-casing keeps the length of what stands before the marker, the digest of a URL is read
within the URL and is one that it names. -/
theorem readsOwnDigest_of_keepsPlace (sha256 : Str → Str) (mapping : CaseMapping) {rawURL : Str}
    (keeps : KeepsPlace (mapping.libraries sha256) rawURL) :
    ReadsOwnDigest (mapping.libraries sha256) rawURL := by
  unfold ReadsOwnDigest
  rw [byHashSHA256_eq]
  cases found : index byHashMarker (rawURL.map lowerByte) with
  | none => exact ⟨none, rfl, fun digest isDigest => absurd isDigest.symm (some_ne_none digest)⟩
  | some start =>
    have place : digestPlace (mapping.libraries sha256) rawURL start =
        start + byHashMarker.length :=
      congrArg (· + byHashMarker.length) (keeps start found)
    simp only [elim_some, sliceFrom, place, if_pos (length_of_index found)]
    exact ⟨_, rfl, fun digest digits => names_of_index found digits⟩

/-- Beyond ASCII this lower-cases only the capital A with stroke, from two bytes to three. -/
def strokeLower (char : Char) : Char :=
  if char = Char.ofNat 0x23A then Char.ofNat 0x2C65
  else if 65 ≤ char.toNat ∧ char.toNat ≤ 90 then Char.ofNat (char.toNat + 32)
  else char

/-- A case mapping that knows these letters. -/
def strokeMapping : CaseMapping where
  lower := strokeLower
  ascii char small := by
    have checked : ∀ code < 128, (strokeLower (Char.ofNat code)).toNat =
        (lowerByte (UInt8.ofNat code)).toNat := by
      decide +kernel
    have here := checked char.toNat small
    rwa [Char.ofNat_toNat] at here
  other char large := by
    left
    unfold strokeLower
    split
    · decide
    · rw [if_neg fun isUpper => absurd isUpper.2 (by omega)]
      exact large

/-- A letter of two bytes that lower-casing keeps stands before the marker. -/
theorem readsOwnDigest_of_accent :
    let rawURL := String.utf8EncodeChar (Char.ofNat 0xE9) ++ ofAscii "/By-Hash/SHA256/" ++
      hexEncode64 [1]
    byHashSHA256 (strokeMapping.libraries hexEncode64) rawURL = .ok (some (hexEncode64 [1])) ∧
      ReadsOwnDigest (strokeMapping.libraries hexEncode64) rawURL :=
  ⟨by decide +kernel, readsOwnDigest_of_keepsPlace hexEncode64 strokeMapping (by decide +kernel)⟩

/-- One such letter before the marker moves the slice one byte beyond the end of the URL. -/
theorem not_readsOwnDigest_of_stroke :
    let rawURL := String.utf8EncodeChar (Char.ofNat 0x23A) ++ ofAscii "/by-hash/SHA256/"
    byHashSHA256 (strokeMapping.libraries hexEncode64) rawURL = .error .sliceOutOfRange ∧
      ¬ ReadsOwnDigest (strokeMapping.libraries hexEncode64) rawURL := by
  intro rawURL
  have panics : byHashSHA256 (strokeMapping.libraries hexEncode64) rawURL =
      .error .sliceOutOfRange := by
    decide +kernel
  refine ⟨panics, ?_⟩
  rintro ⟨found, isRead, -⟩
  rw [panics] at isRead
  cases isRead

-- The place need not be kept for a harmless answer: here no digits stand where the slice begins.
example :
    let rawURL := String.utf8EncodeChar (Char.ofNat 0x23A) ++ ofAscii "/by-hash/SHA256/z"
    byHashSHA256 (strokeMapping.libraries hexEncode64) rawURL = .ok none ∧
      ¬ KeepsPlace (strokeMapping.libraries hexEncode64) rawURL := by
  decide +kernel

end Debswarm.Metadata
