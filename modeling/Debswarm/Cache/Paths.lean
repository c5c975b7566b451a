import Debswarm.Path.Clean

/-!
# Where package files are

The file of a package lies in a directory named after the first two bytes of its hash, in
the cache's `packages/sha256` directory.  The path is joined lexically from the hash, so for
a hash that is no digest it may lead anywhere: it lies in the directory exactly where the
hash, read as a relative path, comes back into every directory that it climbs out of.
-/

namespace Debswarm.Cache

open Debswarm.Path List Text

/-- The directory of the package files. -/
def packageDir (basePath : Str) : Str :=
  join [basePath, ofAscii "packages", ofAscii "sha256"]

/-- The directory of a hash within the package directory. -/
def shard (sha256Hash : Str) : Str :=
  if sha256Hash.length < 2 then ofAscii "_invalid" else sha256Hash.take 2

/-- The path of the file of a hash. -/
def packagePath (basePath sha256Hash : Str) : Str :=
  join [basePath, ofAscii "packages", ofAscii "sha256", shard sha256Hash, sha256Hash]

/-- A path that lies inside a directory. -/
def Inside (directory path : Str) : Prop :=
  isRooted path = isRooted directory ∧ (place path).Below (place directory)

/-- The place of a hash's file below the package directory: directories up, then names down. -/
def relativePlace (sha256Hash : Str) : Place Str :=
  Place.start.walk false (moves (shard sha256Hash) ++ moves sha256Hash)

/-- The names that a hash goes down begin with the directories that it has climbed out of, or it has
climbed to the root. -/
def ComesBack (basePath sha256Hash : Str) : Prop :=
  (isRooted (packageDir basePath) = true ∨
      (relativePlace sha256Hash).ups ≤ (place (packageDir basePath)).names.length) ∧
    ∃ rest, rest ≠ [] ∧
      (relativePlace sha256Hash).names =
        (place (packageDir basePath)).names.drop
          ((place (packageDir basePath)).names.length - (relativePlace sha256Hash).ups) ++ rest

/-- The file of a hash lies inside the package directory exactly where the hash comes
back. -/
theorem inside_packagePath_iff (basePath sha256Hash : Str) :
    Inside (packageDir basePath) (packagePath basePath sha256Hash) ↔
      ComesBack basePath sha256Hash := by
  have present : ∃ element ∈ [basePath, ofAscii "packages", ofAscii "sha256"], element ≠ [] :=
    ⟨ofAscii "packages", by simp, by decide⟩
  obtain ⟨rooted, led⟩ := place_join_append [shard sha256Hash, sha256Hash] present
  have walked : place (packagePath basePath sha256Hash) =
      (place (packageDir basePath)).follow (isRooted (packageDir basePath))
        (relativePlace sha256Hash) := by
    rw [relativePlace, ← Place.walk_eq_follow]
    simpa [packagePath, packageDir] using led
  have sameRoot : isRooted (packagePath basePath sha256Hash) =
      isRooted (packageDir basePath) := rooted
  unfold Inside ComesBack
  rw [walked, Place.follow_below_iff, and_iff_right sameRoot]

theorem comesBack_of_downward {basePath sha256Hash : Str}
    (noUps : (relativePlace sha256Hash).ups = 0)
    (somewhere : (relativePlace sha256Hash).names ≠ []) : ComesBack basePath sha256Hash := by
  constructor
  · right
    rw [noUps]
    exact Nat.zero_le _
  · refine ⟨(relativePlace sha256Hash).names, somewhere, ?_⟩
    rw [noUps, Nat.sub_zero, drop_length, nil_append]

theorem relativePlace_of_plain {sha256Hash : Str} (long : 2 ≤ sha256Hash.length)
    (noDot : 46 ∉ sha256Hash) (noSlash : 47 ∉ sha256Hash) :
    relativePlace sha256Hash = ⟨0, [sha256Hash.take 2, sha256Hash]⟩ := by
  have shardIsName : IsName (sha256Hash.take 2) := by
    apply isName_of_plain
    · intro empty
      rw [take_eq_nil_iff] at empty
      rcases empty with two | nil
      · cases two
      · rw [nil, length_nil] at long
        omega
    · exact fun mem => noDot (mem_of_mem_take mem)
    · exact fun mem => noSlash (mem_of_mem_take mem)
  have isName : IsName sha256Hash := by
    apply isName_of_plain _ noDot noSlash
    rintro rfl
    cases long
  rw [relativePlace, shard, if_neg (by omega), moves_of_isName shardIsName, moves_of_isName isName]
  rfl

end Debswarm.Cache
