import Debswarm.Proxy.URLs
import Debswarm.Text.Search

/-!
# The base of an index and of its Release

An index is checked against the Release that is found under its base, so the base has to be the
directory of that Release.  Below `/dists/` the base ends behind the first segment of the suite,
and a suite may have several, as `stretch/updates` has.
-/

namespace Debswarm.Proxy

open List Option Text

/-- A Release is below `/dists/` and a suite, or beside the indices of a flat repository. -/
inductive Layout
  | suite (root first : Str) (more : List Str)
  | flat (root : Str)

/-- The word is not a path segment of the text. -/
def LacksSegment (word text : Str) : Prop :=
  contains text (47 :: (word ++ [47])) = false ∧ ¬ 47 :: word <:+ text

namespace Layout

def directory : Layout → Str
  | suite root first more =>
    root ++ ofAscii "/dists/" ++ (first :: more).flatMap fun segment => segment ++ [47]
  | flat root => root ++ [47]

def Sound : Layout → Prop
  | suite root first more =>
    LacksSegment (ofAscii "dists") root ∧ ∀ segment ∈ first :: more, segment ≠ [] ∧ 47 ∉ segment
  | flat root => LacksSegment (ofAscii "dists") root

/-- The paths of indices and Release files: any below a suite; in a flat repository a file or its
by-hash path. -/
def HasFile : Layout → Str → Prop
  | suite _ _ _, _ => True
  | flat _, path =>
    47 ∉ path ∨ ∃ digest, 47 ∉ digest ∧ path = ofAscii "by-hash/SHA256/" ++ digest

/-- Indices and Release files have one base, under which each is found. -/
def FindsRelease (layout : Layout) : Prop :=
  ∃ base,
    (∀ path, layout.HasFile path → verificationBaseURL (layout.directory ++ path) = base) ∧
    base ++ ofAscii "InRelease" = layout.directory ++ ofAscii "InRelease" ∧
    ∀ path, layout.HasFile path → base ++ path = layout.directory ++ path

/-- The suite has one segment, or the directory is not below one of by-hash files. -/
def IsSimple : Layout → Prop
  | suite _ _ more => more = []
  | flat root => LacksSegment (ofAscii "by-hash") root

end Layout

variable {root : Str}

theorem index_of_lacksSegment {word : Str} (lacks : LacksSegment word root) (clean : 47 ∉ word)
    (rest : Str) :
    index (47 :: (word ++ [47])) (root ++ 47 :: (word ++ 47 :: rest)) = some root.length := by
  have here : index (47 :: (word ++ [47])) (47 :: (word ++ 47 :: rest)) = some 0 := by
    rw [index, if_pos]
    exact isPrefixOf_iff_prefix.mpr ⟨rest, by simp⟩
  rw [index_append_segment clean lacks.1 lacks.2, here]
  simp

/-- A name has no segment between two slashes. -/
theorem index_name {name : Str} (clean : 47 ∉ name) (word : Str) :
    index (47 :: (word ++ [47])) (47 :: name) = none := by
  have notFirst : (word ++ [47]).isPrefixOf name = false := by
    rw [Bool.eq_false_iff]
    intro isPrefix
    exact clean ((List.isPrefixOf_iff_prefix.mp isPrefix).subset (by simp))
  have notLater := contains_append_of_clean clean [] (word ++ [47])
  rw [List.append_nil, contains_nil (List.cons_ne_nil _ _)] at notLater
  have absent : contains (47 :: name) (47 :: (word ++ [47])) = false := by
    rw [contains_separator_cons, notFirst, notLater, Bool.or_false]
  exact Option.isNone_iff_eq_none.mp (Option.isSome_eq_false_iff.mp absent)

/-! ## Below `/dists/` -/

theorem verificationBaseURL_suite {first : Str}
    (lacks : LacksSegment (ofAscii "dists") root) (clean : 47 ∉ first) (rest : Str) :
    verificationBaseURL (root ++ (ofAscii "/dists/" ++ (first ++ 47 :: rest))) =
      root ++ (ofAscii "/dists/" ++ (first ++ [47])) := by
  have found : index (ofAscii "/dists/") (root ++ (ofAscii "/dists/" ++ (first ++ 47 :: rest))) =
      some root.length :=
    index_of_lacksSegment lacks (by decide) (first ++ 47 :: rest)
  have slash : index (ofAscii "/") (first ++ 47 :: rest) = some first.length :=
    index_separator clean rest
  have isBase : distBaseURL (root ++ (ofAscii "/dists/" ++ (first ++ 47 :: rest))) =
      root ++ (ofAscii "/dists/" ++ (first ++ [47])) := by
    unfold distBaseURL
    dsimp only
    rw [found]
    dsimp only
    rw [← drop_drop, drop_left, drop_left, slash]
    dsimp only
    have parts : root ++ (ofAscii "/dists/" ++ (first ++ 47 :: rest)) =
        root ++ (ofAscii "/dists/" ++ (first ++ [47])) ++ rest := by simp
    rw [parts]
    exact take_left' (by simp; omega)
  unfold verificationBaseURL
  dsimp only
  rw [isBase, if_pos (by simp [show ofAscii "/dists/" ≠ [] from by decide])]

/-! ## Flat repositories -/

theorem verificationBaseURL_flat {path : Str} (lacks : LacksSegment (ofAscii "dists") root)
    (absent : index (ofAscii "/dists/") (47 :: path) = none) :
    verificationBaseURL (root ++ 47 :: path) = flatBaseURL (root ++ 47 :: path) := by
  have found : index (ofAscii "/dists/") (root ++ 47 :: path) =
      (index (ofAscii "/dists/") (47 :: path)).map (· + root.length) :=
    @index_append_segment 47 (ofAscii "dists") root (by decide) lacks.1 lacks.2 path
  unfold verificationBaseURL distBaseURL
  dsimp only
  rw [found, absent]
  rfl

theorem index_dists_byHash {digest : Str} (clean : 47 ∉ digest) :
    index (ofAscii "/dists/") (47 :: (ofAscii "by-hash/SHA256/" ++ digest)) = none := by
  have found : index (ofAscii "/dists/") (ofAscii "/by-hash/SHA256" ++ 47 :: digest) = _ :=
    @index_append_segment 47 (ofAscii "dists") (ofAscii "/by-hash/SHA256") (by decide) (by decide)
      (by decide) digest
  rw [index_name clean, map_none] at found
  exact found

theorem flatBaseURL_byHash (lacks : LacksSegment (ofAscii "by-hash") root) (digest : Str) :
    flatBaseURL (root ++ 47 :: (ofAscii "by-hash/SHA256/" ++ digest)) = root ++ [47] := by
  have found : index (ofAscii "/by-hash/") (root ++ 47 :: (ofAscii "by-hash/SHA256/" ++ digest)) =
      some root.length :=
    index_of_lacksSegment lacks (by decide) (ofAscii "SHA256/" ++ digest)
  have parts : root ++ 47 :: (ofAscii "by-hash/SHA256/" ++ digest) =
      root ++ [47] ++ (ofAscii "by-hash/SHA256/" ++ digest) := by simp
  unfold flatBaseURL
  rw [found, parts]
  exact take_left' (by simp)

theorem flatBaseURL_name {name : Str} (lacks : LacksSegment (ofAscii "by-hash") root)
    (clean : 47 ∉ name) : flatBaseURL (root ++ 47 :: name) = root ++ [47] := by
  have found : index (ofAscii "/by-hash/") (root ++ 47 :: name) =
      (index (ofAscii "/by-hash/") (47 :: name)).map (· + root.length) :=
    @index_append_segment 47 (ofAscii "by-hash") root (by decide) lacks.1 lacks.2 name
  have absent : index (ofAscii "/by-hash/") (47 :: name) = none :=
    index_name clean (ofAscii "by-hash")
  have behind : ∀ byte ∈ name.reverse, decide (byte ≠ 47) = true := by
    intro byte mem
    exact decide_eq_true fun same => clean (same ▸ mem_reverse.mp mem)
  unfold flatBaseURL
  rw [found, absent, map_none]
  rw [reverse_append, reverse_cons, append_assoc, dropWhile_append_of_pos behind]
  simp

/-- A by-hash directory above the repository is found before the one of the repository. -/
theorem flatBaseURL_of_not_lacksSegment {path : Str}
    (inside : ¬ LacksSegment (ofAscii "by-hash") root) :
    (flatBaseURL (root ++ 47 :: path)).length ≤ root.length := by
  have occurs : ∃ front rest, root ++ 47 :: path = front ++ rest ∧
      ofAscii "/by-hash/" <+: rest ∧ front.length < root.length := by
    rcases not_and_or.mp inside with contained | isLast
    · obtain ⟨offset, found⟩ := isSome_iff_exists.mp (Bool.not_eq_false _ ▸ contained)
      have isPrefix := isPrefix_drop_of_index found
      have fits := isPrefix.length_le
      rw [length_drop] at fits
      refine ⟨root.take offset, root.drop offset ++ 47 :: path, ?_,
        isPrefix.trans (prefix_append _ _), ?_⟩
      · rw [← append_assoc, take_append_drop]
      · simp at fits ⊢
        omega
    · obtain ⟨front, rfl⟩ := not_not.mp isLast
      exact ⟨front, ofAscii "/by-hash" ++ 47 :: path, by simp [ofAscii], ⟨path, rfl⟩, by simp⟩
  obtain ⟨front, rest, parts, isPrefix, lt⟩ := occurs
  obtain ⟨offset, found, le⟩ := @exists_index_of_isPrefix _ front rest isPrefix
  unfold flatBaseURL
  rw [parts, found, length_take]
  omega

/-! ## The Release is found -/

namespace Layout

variable {layout : Layout} {path : Str}

theorem verificationBaseURL_of_isSimple (sound : layout.Sound) (simple : layout.IsSimple)
    (isFile : layout.HasFile path) :
    verificationBaseURL (layout.directory ++ path) = layout.directory := by
  cases layout with
  | suite root first more =>
    obtain rfl : more = [] := simple
    have isBase := verificationBaseURL_suite sound.1 (sound.2 first mem_cons_self).2 path
    simpa [directory] using isBase
  | flat root =>
    rw [directory, append_assoc, singleton_append]
    rcases isFile with clean | ⟨digest, clean, rfl⟩
    · rw [verificationBaseURL_flat sound (index_name clean (ofAscii "dists"))]
      exact flatBaseURL_name simple clean
    · rw [verificationBaseURL_flat sound (index_dists_byHash clean)]
      exact flatBaseURL_byHash simple digest

theorem isSimple_of_verificationBaseURL (sound : layout.Sound)
    (isBase : verificationBaseURL (layout.directory ++ ofAscii "InRelease") = layout.directory) :
    layout.IsSimple := by
  cases layout with
  | suite root first more =>
    have short := verificationBaseURL_suite sound.1 (sound.2 first mem_cons_self).2
      (more.flatMap (fun segment => segment ++ [47]) ++ ofAscii "InRelease")
    cases more with
    | nil => rfl
    | cons second more =>
      have isBase : _ = directory (suite root first (second :: more)) :=
        short.symm.trans (by simpa [directory] using isBase)
      have lengths := congrArg length isBase
      simp [directory] at lengths
  | flat root =>
    by_contra inside
    have short := @flatBaseURL_of_not_lacksSegment root (ofAscii "InRelease") inside
    have noDists := index_name (by decide : 47 ∉ ofAscii "InRelease") (ofAscii "dists")
    have lengths := congrArg length isBase
    rw [directory, append_assoc, singleton_append,
      verificationBaseURL_flat sound noDists, length_append] at lengths
    exact absurd (lengths ▸ short) (Nat.not_succ_le_self _)

/-- An index and its Release have the same base iff the suite has one segment or, in a flat
repository, no by-hash directory is above it. -/
theorem findsRelease_iff_isSimple (layout : Layout) (sound : layout.Sound) :
    layout.FindsRelease ↔ layout.IsSimple := by
  constructor
  · rintro ⟨base, isBase, found, -⟩
    obtain rfl := append_cancel_right found
    refine isSimple_of_verificationBaseURL sound (isBase _ ?_)
    cases layout with
    | suite => trivial
    | flat => exact .inl (by decide)
  · intro simple
    exact ⟨layout.directory, fun path => verificationBaseURL_of_isSimple sound simple, rfl,
      fun path _ => rfl⟩

theorem findsRelease_bookworm :
    (suite (ofAscii "http://deb.debian.org/debian") (ofAscii "bookworm") []).FindsRelease :=
  have sound : Sound (suite (ofAscii "http://deb.debian.org/debian") (ofAscii "bookworm") []) :=
    ⟨⟨by decide, by decide⟩, by decide⟩
  (findsRelease_iff_isSimple _ sound).mpr rfl

/-- The Release of `stretch/updates` is looked for in the directory above its own. -/
theorem base_of_stretch_updates :
    let layout := suite (ofAscii "http://h/debian") (ofAscii "stretch") [ofAscii "updates"]
    layout.Sound ∧
      verificationBaseURL (layout.directory ++ ofAscii "InRelease") =
        ofAscii "http://h/debian/dists/stretch/" ∧
      layout.directory = ofAscii "http://h/debian/dists/stretch/updates/" ∧
      ¬ layout.FindsRelease := by
  refine ⟨⟨⟨by decide, by decide⟩, by decide⟩, by decide, by decide, ?_⟩
  rintro ⟨base, isBase, found, -⟩
  obtain rfl := append_cancel_right found
  exact absurd (isBase (ofAscii "InRelease") trivial) (by decide)

end Layout

end Debswarm.Proxy
