import Debswarm.PackageIndex.Lookup

/-!
# The address of a package file

A package file lies below the root of its repository, in the pool.  Its URL spells the file
name with any bytes but the slashes percent-encoded.  The repository and the file name are
read off the URL by searching for the directories of the pool and of the distributions before
the path is decoded.  This module says of which URLs both are read off as they were put in.
-/

namespace Debswarm.PackageIndex

open Text

/-! ## Percent encoding -/

/-- A spelling of a path in which any bytes but the slashes may be percent-encoded. -/
inductive Encodes : Str → Str → Prop
  | nil : Encodes [] []
  | literal {encoded plain : Str} (byte : UInt8) (notPercent : byte ≠ 37)
      (rest : Encodes encoded plain) : Encodes (byte :: encoded) (byte :: plain)
  | escaped {encoded plain : Str} {highValue lowValue : UInt8} (high low : UInt8)
      (isHigh : hexValue high = some highValue) (isLow : hexValue low = some lowValue)
      (notSlash : highValue * 16 + lowValue ≠ 47) (rest : Encodes encoded plain) :
      Encodes (37 :: high :: low :: encoded) ((highValue * 16 + lowValue) :: plain)

variable {encoded plain : Str}

theorem ne_slash_of_hexValue {byte value : UInt8} (isHex : hexValue byte = some value) :
    byte ≠ 47 := by
  rintro rfl
  have noHex : hexValue 47 = none := by decide
  rw [noHex] at isHex
  cases isHex

theorem pathUnescape_literal {byte : UInt8} (notPercent : byte ≠ 37) (rest : Str) :
    pathUnescape (byte :: rest) = (pathUnescape rest).map (byte :: ·) := by
  rw [pathUnescape.eq_def]
  exact if_neg notPercent

theorem pathUnescape_escaped (high low : UInt8) (rest : Str) :
    pathUnescape (37 :: high :: low :: rest) =
      (hexValue high).bind fun high => (hexValue low).bind fun low =>
        (pathUnescape rest).map fun rest => (high * 16 + low) :: rest := by
  rw [pathUnescape.eq_def]
  dsimp only
  rw [if_pos rfl]
  cases hexValue high <;> cases hexValue low <;> cases pathUnescape rest <;> rfl

section

variable (encodes : Encodes encoded plain)

include encodes

theorem Encodes.pathUnescape_eq : pathUnescape encoded = some plain := by
  induction encodes with
  | nil => rfl
  | literal byte notPercent _ ih =>
    rw [pathUnescape_literal notPercent, ih]
    rfl
  | escaped high low isHigh isLow _ _ ih =>
    rw [pathUnescape_escaped, isHigh, isLow, ih]
    rfl

theorem Encodes.length_le : plain.length ≤ encoded.length := by
  induction encodes with
  | nil => exact le_rfl
  | literal _ _ _ ih => exact Nat.succ_le_succ ih
  | escaped _ _ _ _ _ _ ih =>
    simp only [List.length_cons]
    omega

/-- A word without a percent sign that begins the spelling begins the path. -/
theorem Encodes.isPrefix_of_isPrefix {word : Str} (noPercent : 37 ∉ word)
    (isPrefix : word <+: encoded) : word <+: plain := by
  induction encodes generalizing word with
  | nil => exact isPrefix
  | literal byte _ _ ih =>
    cases word with
    | nil => exact List.nil_prefix
    | cons first word =>
      obtain ⟨rfl, restPrefix⟩ := List.cons_prefix_cons.mp isPrefix
      exact List.cons_prefix_cons.mpr
        ⟨rfl, ih (fun mem => noPercent (List.mem_cons_of_mem _ mem)) restPrefix⟩
  | escaped high low _ _ _ _ _ =>
    cases word with
    | nil => exact List.nil_prefix
    | cons first word =>
      obtain ⟨rfl, _⟩ := List.cons_prefix_cons.mp isPrefix
      exact absurd List.mem_cons_self noPercent

/-- A word that begins with a slash and is in the spelling is in the path. -/
theorem Encodes.contains_of_contains {word : Str} (noPercent : 37 ∉ word)
    (isContained : contains encoded (47 :: word) = true) : contains plain (47 :: word) = true := by
  have noPercent : (37 : UInt8) ∉ 47 :: word := by simp [noPercent]
  have skip : ∀ (byte : UInt8) (rest : Str), byte ≠ 47 →
      contains (byte :: rest) (47 :: word) = contains rest (47 :: word) := by
    intro byte rest notSlash
    simp [contains_cons, List.isPrefixOf, Ne.symm notSlash]
  induction encodes with
  | nil => exact isContained
  | literal byte notPercent rest ih =>
    rw [contains_cons, Bool.or_eq_true] at isContained ⊢
    rcases isContained with here | later
    · have whole := rest.literal byte notPercent
      exact .inl (List.isPrefixOf_iff_prefix.mpr (whole.isPrefix_of_isPrefix noPercent
        (List.isPrefixOf_iff_prefix.mp here)))
    · exact .inr (ih later)
  | escaped high low isHigh isLow notSlash _ ih =>
    rw [skip 37 _ (by decide), skip high _ (ne_slash_of_hexValue isHigh),
      skip low _ (ne_slash_of_hexValue isLow)] at isContained
    rw [skip _ _ notSlash]
    exact ih isContained

/-- Decoding does not reach across a slash. -/
theorem Encodes.isSuffix_of_pathUnescape {front decoded : Str}
    (isDecoded : pathUnescape (front ++ 47 :: encoded) = some decoded) :
    47 :: plain <:+ decoded := by
  have noHex : hexValue 47 = none := by decide
  induction front using pathUnescape.induct generalizing decoded with
  | case1 =>
    rw [List.nil_append, pathUnescape_literal (by decide), encodes.pathUnescape_eq] at isDecoded
    exact (Option.some.inj isDecoded) ▸ List.suffix_rfl
  | case2 high low rest _ _ _ _ _ _ ih | case3 high low rest _ ih =>
    rw [List.cons_append, List.cons_append, List.cons_append, pathUnescape_escaped] at isDecoded
    obtain ⟨highValue, -, isDecoded⟩ := Option.bind_eq_some_iff.mp isDecoded
    obtain ⟨lowValue, -, isDecoded⟩ := Option.bind_eq_some_iff.mp isDecoded
    obtain ⟨after, isAfter, rfl⟩ := Option.map_eq_some_iff.mp isDecoded
    exact (ih isAfter).trans (List.suffix_cons _ _)
  | case4 rest short =>
    -- An escape that is cut off by the slash is malformed.
    cases rest with
    | nil =>
      cases encoded with
      | nil => simp [pathUnescape] at isDecoded
      | cons => simp [pathUnescape_escaped, noHex] at isDecoded
    | cons high rest =>
      cases rest with
      | nil => simp [pathUnescape_escaped, noHex] at isDecoded
      | cons low rest => exact (short high low rest rfl).elim
  | case5 byte rest notPercent ih =>
    rw [List.cons_append, pathUnescape_literal notPercent] at isDecoded
    obtain ⟨after, isAfter, rfl⟩ := Option.map_eq_some_iff.mp isDecoded
    exact (ih isAfter).trans (List.suffix_cons _ _)

/-- What is read off a path is longer than the part behind a slash of it. -/
theorem Encodes.length_lt_decoded (front : Str) :
    plain.length <
      ((pathUnescape (front ++ 47 :: encoded)).getD (front ++ 47 :: encoded)).length := by
  cases isDecoded : pathUnescape (front ++ 47 :: encoded) with
  | none =>
    have shorter := encodes.length_le
    simp only [Option.getD_none, List.length_append, List.length_cons]
    omega
  | some decoded => exact (encodes.isSuffix_of_pathUnescape isDecoded).length_le

end

/-! ## Addresses -/

def protocol (secure : Bool) : Str :=
  if secure then ofAscii "https://" else ofAscii "http://"

/-- The URL of a file of a repository. -/
def address (secure : Bool) (repo encoded : Str) : Str :=
  protocol secure ++ repo ++ 47 :: encoded

/-- A file in the pool of a repository: a host with a path that has no further pool. -/
structure Placed (repo filename : Str) : Prop where
  hasHost : repo ≠ []
  inPool : ofAscii "pool/" <+: filename
  repoDists : contains repo (ofAscii "/dists/") = false
  repoPool : contains repo (ofAscii "/pool/") = false
  filenameDists : contains filename (ofAscii "/dists/") = false
  filenamePool : contains filename (ofAscii "/pool/") = false

/-- The pool is spelled out, the host is not called like it, and the path of the repository does not
end in such a directory or in `dists`. -/
structure Legible (repo encoded : Str) : Prop where
  inPool : ofAscii "pool/" <+: encoded
  host : repo ≠ ofAscii "pool"
  hostWithPath : ¬ ofAscii "pool/" <+: repo
  notAtPool : ¬ ofAscii "/pool" <:+ repo
  notAtDists : ¬ ofAscii "/dists" <:+ repo

/-- The repository of a text without the protocol. -/
def repoOf (stripped : Str) : Str :=
  match index (ofAscii "/dists/") stripped with
  | some offset => stripped.take offset
  | none =>
    match index (ofAscii "/pool/") stripped with
    | some offset => stripped.take offset
    | none =>
      match index (ofAscii "/") stripped with
      | some offset => stripped.take offset
      | none => stripped

theorem extractRepoFromURL_address (secure : Bool) (repo encoded : Str) :
    extractRepoFromURL (address secure repo encoded) = repoOf (repo ++ 47 :: encoded) := by
  cases secure <;> rfl

theorem protocol_eq (secure : Bool) : ∃ name, 47 ∉ name ∧ protocol secure = name ++ [47, 47] := by
  cases secure with
  | false => exact ⟨ofAscii "http:", by decide, rfl⟩
  | true => exact ⟨ofAscii "https:", by decide, rfl⟩

theorem contains_of_isPrefix_drop {part text : Str} {offset : Nat}
    (isPrefix : part <+: text.drop offset) : contains text part = true := by
  obtain ⟨first, found, -⟩ := @exists_index_of_isPrefix part (text.take offset) _ isPrefix
  rw [List.take_append_drop] at found
  rw [contains, found]
  rfl

section Extraction

variable {secure : Bool} {repo filename : Str}

section

variable (placed : Placed repo filename)

include placed

/-- If the path is read off as it was put in, the pool was found where the file name begins. -/
theorem index_pool_of_extractPath
    (encodes : Encodes encoded filename)
    (extracted : extractPathFromURL (address secure repo encoded) = filename) :
    index (ofAscii "/pool/") (address secure repo encoded) =
      some (protocol secure ++ repo).length := by
  unfold extractPathFromURL at extracted
  dsimp only at extracted
  cases found : index (ofAscii "/pool/") (address secure repo encoded) with
  | some offset =>
    rw [found] at extracted
    dsimp only at extracted
    rcases lt_trichotomy offset (protocol secure ++ repo).length with before | rfl | after
    · have longer := encodes.length_lt_decoded ((protocol secure ++ repo).drop (offset + 1))
      rw [← List.drop_append_of_le_length before] at longer
      change filename.length < ((pathUnescape ((address secure repo encoded).drop
        (offset + 1))).getD ((address secure repo encoded).drop (offset + 1))).length at longer
      rw [extracted] at longer
      exact absurd longer (lt_irrefl _)
    · rfl
    · -- The spelling itself would have a second directory of that name.
      have isPrefix := isPrefix_drop_of_index found
      obtain ⟨later, rfl⟩ := Nat.exists_eq_add_of_lt after
      rw [address, Nat.add_assoc, List.drop_length_add_append, List.drop_succ_cons] at isPrefix
      have contained := encodes.contains_of_contains (by decide)
        (contains_of_isPrefix_drop isPrefix)
      exact absurd contained (Bool.eq_false_iff.mp placed.filenamePool)
  | none =>
    rw [found] at extracted
    obtain ⟨name, rfl⟩ := placed.inPool
    have beginsInPool : (ofAscii "pool/" ++ name).head? = some 112 := rfl
    cases foundDists : index (ofAscii "/dists/") (address secure repo encoded) with
    | none =>
      rw [foundDists] at extracted
      cases extracted
    | some offset =>
      rw [foundDists] at extracted
      dsimp only at extracted
      obtain ⟨rest, isRest⟩ := isPrefix_drop_of_index foundDists
      have begins : (address secure repo encoded).drop (offset + 1) =
          100 :: (ofAscii "ists/" ++ rest) := by
        rw [← List.drop_drop, ← isRest]
        rfl
      rw [begins, pathUnescape_literal (by decide)] at extracted
      have beginsInDists : (ofAscii "pool/" ++ name).head? = some 100 := by
        rw [← extracted]
        cases pathUnescape (ofAscii "ists/" ++ rest) <;> rfl
      exact absurd (beginsInPool.symm.trans beginsInDists) (by decide)

theorem legible_of_extracts (encodes : Encodes encoded filename)
    (repoExtracted : extractRepoFromURL (address secure repo encoded) = repo)
    (pathExtracted : extractPathFromURL (address secure repo encoded) = filename) :
    Legible repo encoded := by
  have found := index_pool_of_extractPath placed encodes pathExtracted
  have notEarlier : ∀ front rest, address secure repo encoded = front ++ rest →
      ofAscii "/pool/" <+: rest → (protocol secure ++ repo).length ≤ front.length := by
    intro front rest split isPrefix
    obtain ⟨offset, foundThere, le⟩ := @exists_index_of_isPrefix _ front rest isPrefix
    rw [← split, found] at foundThere
    exact (Option.some.inj foundThere) ▸ le
  obtain ⟨name, -, isProtocol⟩ := protocol_eq secure
  have notAtHost : ¬ ofAscii "/pool/" <+: 47 :: (repo ++ 47 :: encoded) := by
    intro isPrefix
    have le := notEarlier (name ++ [47]) _ (by simp [address, isProtocol]) isPrefix
    rw [isProtocol] at le
    simp at le
  refine ⟨?_, ?_, ?_, ?_, ?_⟩
  · have isPrefix := isPrefix_drop_of_index found
    rw [address, List.drop_left] at isPrefix
    exact (List.cons_prefix_cons.mp isPrefix).2
  · rintro rfl
    exact notAtHost ⟨encoded, rfl⟩
  · rintro ⟨rest, rfl⟩
    have marker : ofAscii "/pool/" = 47 :: ofAscii "pool/" := rfl
    exact notAtHost ⟨rest ++ 47 :: encoded, by simp [marker]⟩
  · rintro ⟨rest, rfl⟩
    have le := notEarlier (protocol secure ++ rest) (ofAscii "/pool" ++ 47 :: encoded)
      (by simp [address]) ⟨encoded, rfl⟩
    simp [show (ofAscii "/pool").length = 5 from rfl] at le
  · rintro ⟨rest, rfl⟩
    obtain ⟨offset, foundDists, le⟩ := @exists_index_of_isPrefix (ofAscii "/dists/") rest
      (ofAscii "/dists" ++ 47 :: encoded) ⟨encoded, rfl⟩
    rw [extractRepoFromURL_address, repoOf, List.append_assoc, foundDists] at repoExtracted
    have lengths := congrArg List.length repoExtracted
    simp [show (ofAscii "/dists").length = 6 from rfl] at lengths
    omega

theorem extractRepo_of_legible (encodes : Encodes encoded filename)
    (legible : Legible repo encoded) : extractRepoFromURL (address secure repo encoded) = repo := by
  obtain ⟨rest, rfl⟩ := legible.inPool
  have inSpelling : contains (ofAscii "pool/" ++ rest) (ofAscii "/dists/") = false := by
    rw [Bool.eq_false_iff]
    intro contained
    exact absurd (encodes.contains_of_contains (by decide) contained)
      (Bool.eq_false_iff.mp placed.filenameDists)
  have noDists : index (ofAscii "/dists/") (47 :: (ofAscii "pool/" ++ rest)) = none := by
    have absent : contains (47 :: (ofAscii "pool/" ++ rest)) (ofAscii "/dists/") = false := by
      rw [contains_cons, inSpelling]
      rfl
    exact Option.isNone_iff_eq_none.mp (Option.isSome_eq_false_iff.mp absent)
  have foundDists := @index_append_segment 47 (ofAscii "dists") repo (by decide)
    placed.repoDists legible.notAtDists (ofAscii "pool/" ++ rest)
  have foundPool := @index_append_segment 47 (ofAscii "pool") repo (by decide)
    placed.repoPool legible.notAtPool (ofAscii "pool/" ++ rest)
  change index (ofAscii "/dists/") _ = (index (ofAscii "/dists/") _).map _ at foundDists
  change index (ofAscii "/pool/") _ = (some 0).map _ at foundPool
  rw [noDists, Option.map_none] at foundDists
  rw [Option.map_some, Nat.zero_add] at foundPool
  rw [extractRepoFromURL_address, repoOf, foundDists, foundPool]
  exact List.take_left

/-- The protocol adds no place where the pool could be found. -/
theorem index_pool_of_legible (legible : Legible repo encoded) :
    index (ofAscii "/pool/") (address secure repo encoded) =
      some (protocol secure ++ repo).length := by
  obtain ⟨rest, rfl⟩ := legible.inPool
  obtain ⟨name, clean, isProtocol⟩ := protocol_eq secure
  have absent : contains (protocol secure ++ repo) (ofAscii "/pool/") = false := by
    have notHost : (ofAscii "pool/").isPrefixOf repo = false :=
      Bool.eq_false_iff.mpr fun isPrefix =>
        legible.hostWithPath (List.isPrefixOf_iff_prefix.mp isPrefix)
    have inSlashes : contains (47 :: 47 :: repo) (ofAscii "/pool/") =
        ((ofAscii "pool/").isPrefixOf repo || contains repo (ofAscii "/pool/")) :=
      (@contains_separator_cons 47 (47 :: repo) (ofAscii "pool/")).trans
        (@contains_separator_cons 47 repo (ofAscii "pool/"))
    rw [isProtocol, List.append_assoc]
    exact (contains_append_of_clean clean _ _).trans
      (inSlashes.trans (by rw [notHost, placed.repoPool]; rfl))
  have notLast : ¬ ofAscii "/pool" <:+ protocol secure ++ repo := by
    intro isLast
    have poolLast : ofAscii "pool" <:+ repo := by
      have inAddress : hasSuffix (name ++ [47] ++ 47 :: repo) (ofAscii "pool") = true := by
        refine List.isSuffixOf_iff_suffix.mpr ?_
        have whole : name ++ [47] ++ 47 :: repo = protocol secure ++ repo := by simp [isProtocol]
        rw [whole]
        exact (List.suffix_cons 47 _).trans isLast
      rw [hasSuffix_append_separator (by decide)] at inAddress
      exact List.isSuffixOf_iff_suffix.mp inAddress
    obtain ⟨rest, rfl⟩ := poolLast
    cases rest with
    | nil => exact legible.host rfl
    | cons byte rest =>
      refine legible.notAtPool (List.suffix_of_suffix_length_le isLast (List.suffix_append _ _) ?_)
      simp [show (ofAscii "/pool").length = 5 from rfl, show (ofAscii "pool").length = 4 from rfl]
  have found := @index_append_segment 47 (ofAscii "pool") (protocol secure ++ repo) (by decide)
    absent notLast (ofAscii "pool/" ++ rest)
  change index (ofAscii "/pool/") _ = (some 0).map _ at found
  rw [address, found, Option.map_some, Nat.zero_add]

theorem extractPath_of_legible (encodes : Encodes encoded filename)
    (legible : Legible repo encoded) :
    extractPathFromURL (address secure repo encoded) = filename := by
  unfold extractPathFromURL
  rw [index_pool_of_legible placed legible]
  dsimp only
  rw [address, ← List.drop_drop, List.drop_left, List.drop_one, List.tail_cons,
    encodes.pathUnescape_eq]
  rfl

/-- The repository and path of a file are read off its address as put in iff it is legible. -/
theorem extracts_iff_legible (encodes : Encodes encoded filename) :
    extractRepoFromURL (address secure repo encoded) = repo ∧
        extractPathFromURL (address secure repo encoded) = filename ↔
      Legible repo encoded := by
  constructor
  · rintro ⟨repoExtracted, pathExtracted⟩
    exact legible_of_extracts placed encodes repoExtracted pathExtracted
  · intro legible
    exact ⟨extractRepo_of_legible placed encodes legible,
      extractPath_of_legible placed encodes legible⟩

end

end Extraction

end Debswarm.PackageIndex
