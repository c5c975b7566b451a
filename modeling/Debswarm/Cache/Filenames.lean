import Debswarm.Cache.Core
import Debswarm.Text.CaseMapping
import Debswarm.Text.Search

/-!
# Names of package files

A package file is named after the package, its version and its architecture, with underscores
between them.  The name of the package may have underscores of its own, so it is read from the
right.  The extension is compared in lower case and cut off by its length, which is right since
no letter beyond ASCII has one of its letters as lower-case form.
-/

namespace Debswarm.Cache

open List Text

/-- The file name of a package. -/
def debFilename (name version architecture extension : Str) : Str :=
  name ++ 95 :: (version ++ 95 :: (architecture ++ extension))

/-- What can stand for a version or an architecture. -/
def IsPart (part : Str) : Prop :=
  part ≠ [] ∧ 47 ∉ part ∧ 95 ∉ part

/-- The extension in some letter case. -/
def IsExtension (extension : Str) : Prop :=
  extension.map lowerByte = ofAscii ".deb"

/-- A name alone or behind a slash is the last element of its path. -/
theorem pathBase_append {front base : Str} (behindSlash : front = [] ∨ ∃ path, front = path ++ [47])
    (nonempty : base ≠ []) (noSlash : 47 ∉ base) : pathBase (front ++ base) = base := by
  have reversed : ∀ byte ∈ base.reverse, decide (byte ≠ 47) = true := by
    intro byte mem
    refine decide_eq_true ?_
    rintro rfl
    exact noSlash (mem_reverse.mp mem)
  have kept : (front ++ base).reverse.dropWhile (· = 47) = base.reverse ++ front.reverse := by
    rw [reverse_append]
    cases split : base.reverse with
    | nil => exact absurd (reverse_eq_nil_iff.mp split) nonempty
    | cons last before =>
      have notSlash := of_decide_eq_true (reversed last (split ▸ mem_cons_self))
      rw [cons_append, dropWhile_cons_of_neg (by simpa using notSlash)]
  have ended : front.reverse.takeWhile (· ≠ 47) = [] := by
    rcases behindSlash with rfl | ⟨path, rfl⟩ <;> simp
  unfold pathBase
  rw [kept]
  dsimp only
  rw [takeWhile_append_of_pos reversed, ended]
  simp [nonempty]

variable {stem extension : Str} (isExtension : IsExtension extension)

include isExtension

theorem IsExtension.take_append :
    (stem ++ extension).take ((stem ++ extension).length - 4) = stem := by
  have length : extension.length = 4 := by
    simpa [ofAscii] using congrArg List.length isExtension
  simp [length]

theorem IsExtension.slash_not_mem : 47 ∉ extension := by
  intro mem
  have lowered := mem_map_of_mem (f := lowerByte) mem
  rw [isExtension] at lowered
  revert lowered
  decide

omit isExtension

variable (sha256 : Str → Str) (mapping : CaseMapping)

theorem parseDebFilename_debFilename (front name version architecture extension : Str)
    (behindSlash : front = [] ∨ ∃ path, front = path ++ [47]) (hasName : name ≠ [] ∧ 47 ∉ name)
    (hasVersion : IsPart version) (hasArchitecture : IsPart architecture)
    (isExtension : IsExtension extension) :
    parseDebFilename (mapping.libraries sha256)
        (front ++ debFilename name version architecture extension) =
      some (name, version, architecture) := by
  let stem := name ++ 95 :: (version ++ 95 :: architecture)
  have whole : debFilename name version architecture extension = stem ++ extension := by
    simp [debFilename, stem]
  have noSlash : 47 ∉ stem ++ extension := by
    simp [stem, hasName.2, hasVersion.2.1, hasArchitecture.2.1, isExtension.slash_not_mem]
  have ends : hasSuffix (toLower (mapping.libraries sha256).unicodeLower (stem ++ extension))
      (ofAscii ".deb") = true :=
    (mapping.hasSuffix_toLower_iff (by decide +kernel) _).mpr ⟨stem, extension, rfl, isExtension⟩
  have parts : splitByte 95 stem = splitByte 95 name ++ [version, architecture] := by
    rw [splitByte_append_cons, splitByte_append_cons, splitByte_of_not_mem hasVersion.2.2,
      splitByte_of_not_mem hasArchitecture.2.2]
    rfl
  unfold parseDebFilename
  rw [whole, pathBase_append behindSlash (by simp [stem, hasName.1]) noSlash]
  simp only [ends, isExtension.take_append, parts, reverse_append]
  cases pieces : (splitByte 95 name).reverse with
  | nil => exact absurd (reverse_eq_nil_iff.mp pieces) (splitByte_ne_nil 95 name)
  | cons last before =>
    have joined := intercalate_splitByte 95 name
    rw [← reverse_reverse (splitByte 95 name), pieces, reverse_cons] at joined
    simp [joined, hasName.1, hasVersion.1, hasArchitecture.1]

theorem eq_debFilename_of_parseDebFilename (filename name version architecture : Str)
    (parsed : parseDebFilename (mapping.libraries sha256) filename =
      some (name, version, architecture)) :
    ∃ extension, IsExtension extension ∧
      pathBase filename = debFilename name version architecture extension := by
  unfold parseDebFilename at parsed
  dsimp only at parsed
  split at parsed
  · cases parsed
  · rename_i ends
    rw [Bool.not_eq_true, Bool.not_eq_false'] at ends
    obtain ⟨stem, extension, whole, isExtension⟩ :=
      (mapping.hasSuffix_toLower_iff (by decide +kernel) _).mp ends
    rw [← whole, IsExtension.take_append isExtension] at parsed
    split at parsed
    · rename_i first more reversed
      split at parsed
      · cases parsed
      · cases parsed
        refine ⟨extension, isExtension, ?_⟩
        have parts : splitByte 95 stem =
            (first :: more).reverse ++ [version] ++ [architecture] := by
          rw [← reverse_reverse (splitByte 95 stem), reversed]
          simp
        have joined := intercalate_splitByte 95 stem
        rw [parts, intercalate_concat _ _ (by simp), intercalate_concat _ _ (by simp)] at joined
        rw [← whole, ← joined, debFilename]
        simp
    · cases parsed

/-- A file name is read as the parts that it was put together from, behind any path and with the
extension in any case, and only such a file name is read at all. -/
theorem parseDebFilename_round_trip :
    (∀ front name version architecture extension : Str,
      (front = [] ∨ ∃ path, front = path ++ [47]) → name ≠ [] ∧ 47 ∉ name → IsPart version →
      IsPart architecture → IsExtension extension →
      parseDebFilename (mapping.libraries sha256)
          (front ++ debFilename name version architecture extension) =
        some (name, version, architecture)) ∧
    ∀ filename name version architecture : Str,
      parseDebFilename (mapping.libraries sha256) filename = some (name, version, architecture) →
      ∃ extension, IsExtension extension ∧
        pathBase filename = debFilename name version architecture extension :=
  ⟨parseDebFilename_debFilename sha256 mapping, eq_debFilename_of_parseDebFilename sha256 mapping⟩

end Debswarm.Cache
