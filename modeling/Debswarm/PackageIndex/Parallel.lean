import Debswarm.PackageIndex.Parse
import Mathlib.Tactic.Common

/-!
# Two parses of one text

The parsers look at the hash of an entry and at nothing else that a sink, a repository or the
first identity decides.  Two parses of one text therefore go side by side: what relates their
sinks at the start, and is kept whenever both hand over an entry, relates them at the end.
-/

namespace Debswarm.PackageIndex

open Text

universe u v

variable {σ : Type u} {τ : Type v} {add : σ → PackageInfo → σ} {addOther : τ → PackageInfo → τ}
  {repo repoOther : Str} {related : σ × Nat → τ × Nat → Prop}

/-- Relations of sinks with their next identities, and of entries, that two parses keep. -/
structure Keeps (add : σ → PackageInfo → σ) (repo : Str) (addOther : τ → PackageInfo → τ)
    (repoOther : Str) (related : σ × Nat → τ × Nat → Prop)
    (alike : PackageInfo → PackageInfo → Prop) : Prop where
  hash : ∀ {entry other}, alike entry other → entry.sha256 = other.sha256
  field : ∀ {entry other}, alike entry other → ∀ name value,
    alike (setField name value entry) (setField name value other)
  filed : ∀ {entry other}, alike entry other →
    alike { entry with repo } { other with repo := repoOther }
  begin : ∀ {sink addr sinkOther addrOther}, related (sink, addr) (sinkOther, addrOther) →
    (∀ entry : PackageInfo, alike { entry with addr } { entry with addr := addrOther }) ∧
      related (sink, addr + 1) (sinkOther, addrOther + 1)
  hand : ∀ {sink addr sinkOther addrOther entry other},
    related (sink, addr) (sinkOther, addrOther) → alike entry other →
    related (add sink { entry with repo }, addr)
      (addOther sinkOther { other with repo := repoOther }, addrOther)

/-! ## Packages files -/

section Packages

variable {alike : PackageInfo → PackageInfo → Prop}

/-- Parsers that differ in what is related only. -/
structure PackagesParser.Alike (related : σ × Nat → τ × Nat → Prop)
    (alike : PackageInfo → PackageInfo → Prop) (parser : PackagesParser σ)
    (other : PackagesParser τ) : Prop where
  sink : related (parser.sink, parser.nextAddr) (other.sink, other.nextAddr)
  pkg : Option.Rel alike parser.pkg other.pkg
  count : parser.count = other.count

variable {parser : PackagesParser σ} {other : PackagesParser τ}
  (keeps : Keeps add repo addOther repoOther related alike)

include keeps

theorem alike_emitPackage (same : parser.Alike related alike other) :
    (emitPackage add repo parser).Alike related alike (emitPackage addOther repoOther other) ∧
      completes parser = completes other := by
  obtain ⟨sink, pkg, count, nextAddr⟩ := parser
  obtain ⟨sinkOther, pkgOther, countOther, nextOther⟩ := other
  obtain ⟨sinks, pkgs, rfl⟩ := same
  cases pkgs with
  | none => exact ⟨⟨sinks, .none, rfl⟩, rfl⟩
  | @some entry entryOther entries =>
    have sameHash := keeps.hash entries
    refine ⟨?_, congrArg (fun hash : Str => decide (hash ≠ [])) sameHash⟩
    unfold emitPackage
    dsimp only
    by_cases empty : entryOther.sha256 = []
    · rw [if_pos (sameHash.trans empty), if_pos empty]
      exact ⟨sinks, .some entries, rfl⟩
    · rw [if_neg (sameHash ▸ empty), if_neg empty]
      exact ⟨keeps.hand sinks entries, .some (keeps.filed entries), rfl⟩

theorem alike_startPackage (same : parser.Alike related alike other) :
    (startPackage parser).Alike related alike (startPackage other) := by
  obtain ⟨sink, pkg, count, nextAddr⟩ := parser
  obtain ⟨sinkOther, pkgOther, countOther, nextOther⟩ := other
  obtain ⟨sinks, pkgs, counts⟩ := same
  cases pkgs with
  | none =>
    obtain ⟨blank, next⟩ := keeps.begin sinks
    exact ⟨next, .some (blank (.blank 0)), counts⟩
  | some entries => exact ⟨sinks, .some entries, counts⟩

theorem alike_readPackageLine (same : parser.Alike related alike other) (line : Str) :
    (readPackageLine line parser).Alike related alike (readPackageLine line other) := by
  have started := alike_startPackage keeps same
  unfold readPackageLine
  split
  · exact started
  · rename_i field value _
    obtain ⟨sinks, pkgs, counts⟩ := started
    refine ⟨sinks, ?_, counts⟩
    generalize (startPackage parser).pkg = pkg, (startPackage other).pkg = pkgOther at pkgs ⊢
    cases pkgs with
    | none => exact .none
    | some entries => exact .some (keeps.field entries field value)

theorem alike_readPackages (limit : Nat) (lines : List Str)
    (same : parser.Alike related alike other) :
    (readPackages limit add repo lines parser).Alike related alike
      (readPackages limit addOther repoOther lines other) := by
  induction lines generalizing parser other with
  | nil => exact same
  | cons line rest ih =>
    obtain ⟨emitted, sameCompletes⟩ := alike_emitPackage keeps same
    simp only [readPackages, sameCompletes, emitted.count]
    split
    · split
      · exact emitted
      · exact ih ⟨emitted.sink, .none, rfl⟩
    · exact ih (alike_readPackageLine keeps same line)

end Packages

/-! ## Sources files -/

section Sources

/-- Parsers that differ in what is related only. -/
structure SourcesParser.Alike (related : σ × Nat → τ × Nat → Prop) (parser : SourcesParser σ)
    (other : SourcesParser τ) : Prop where
  sink : related (parser.sink, parser.nextAddr) (other.sink, other.nextAddr)
  srcName : parser.srcName = other.srcName
  directory : parser.directory = other.directory
  files : parser.files = other.files
  inChecksums : parser.inChecksums = other.inChecksums
  count : parser.count = other.count

variable {parser : SourcesParser σ} {other : SourcesParser τ}

theorem alike_readSourceLine (same : parser.Alike related other) (line : Str) :
    (readSourceLine line parser).Alike related (readSourceLine line other) := by
  obtain ⟨sink, srcName, directory, files, inChecksums, count, nextAddr⟩ := parser
  obtain ⟨sinkOther, srcOther, dirOther, filesOther, inOther, countOther, nextOther⟩ := other
  obtain ⟨sinks, rfl, rfl, rfl, rfl, rfl⟩ := same
  simp only [readSourceLine]
  split
  · exact ⟨sinks, rfl, rfl, rfl, rfl, rfl⟩
  · split
    · exact ⟨sinks, rfl, rfl, rfl, rfl, rfl⟩
    · split_ifs <;> exact ⟨sinks, rfl, rfl, rfl, rfl, rfl⟩

variable
  (hand : ∀ {sink addr sinkOther addrOther} (entry : PackageInfo),
    related (sink, addr) (sinkOther, addrOther) →
    related (add sink { entry with addr, repo }, addr + 1)
      (addOther sinkOther { entry with addr := addrOther, repo := repoOther }, addrOther + 1))

include hand

theorem alike_emitFile (same : parser.Alike related other) (file : FileEntry) :
    (emitFile add repo file parser).Alike related (emitFile addOther repoOther file other) := by
  obtain ⟨sink, srcName, directory, files, inChecksums, count, nextAddr⟩ := parser
  obtain ⟨sinkOther, srcOther, dirOther, filesOther, inOther, countOther, nextOther⟩ := other
  obtain ⟨sinks, rfl, rfl, rfl, rfl, rfl⟩ := same
  exact ⟨hand (artifact repo file ⟨sink, srcName, directory, files, inChecksums, count, nextAddr⟩)
    sinks, rfl, rfl, rfl, rfl, rfl⟩

theorem alike_emitFiles (limit : Nat) (files : List FileEntry) (same : parser.Alike related other) :
    (emitFiles limit add repo files parser).1.Alike related
        (emitFiles limit addOther repoOther files other).1 ∧
      (emitFiles limit add repo files parser).2 =
        (emitFiles limit addOther repoOther files other).2 := by
  induction files generalizing parser other with
  | nil => exact ⟨same, rfl⟩
  | cons file rest ih =>
    have emitted := alike_emitFile hand same file
    simp only [emitFiles, emitted.count]
    split
    · exact ih same
    · split
      · exact ⟨emitted, rfl⟩
      · exact ih emitted

theorem alike_emitStanza (limit : Nat) (same : parser.Alike related other) :
    (emitStanza limit add repo parser).1.Alike related
        (emitStanza limit addOther repoOther other).1 ∧
      (emitStanza limit add repo parser).2 = (emitStanza limit addOther repoOther other).2 := by
  obtain ⟨emitted, sameFlag⟩ := alike_emitFiles hand limit other.files same
  simp only [emitStanza, same.directory, same.files]
  split
  · exact ⟨⟨same.sink, rfl, rfl, rfl, rfl, same.count⟩, rfl⟩
  · exact ⟨⟨emitted.sink, rfl, rfl, rfl, rfl, emitted.count⟩, sameFlag⟩

theorem alike_readSources (limit : Nat) (lines : List Str) (same : parser.Alike related other) :
    (readSources limit add repo lines parser).1.Alike related
        (readSources limit addOther repoOther lines other).1 ∧
      (readSources limit add repo lines parser).2 =
        (readSources limit addOther repoOther lines other).2 := by
  induction lines generalizing parser other with
  | nil => exact ⟨same, rfl⟩
  | cons line rest ih =>
    obtain ⟨emitted, sameFlag⟩ := alike_emitStanza hand limit same
    simp only [readSources]
    split
    · rcases first : emitStanza limit add repo parser with ⟨stanza, stopped⟩
      rcases second : emitStanza limit addOther repoOther other with ⟨stanzaOther, _⟩
      rw [first, second] at emitted sameFlag
      cases sameFlag
      cases stopped with
      | true => exact ⟨emitted, rfl⟩
      | false => exact ih emitted
    · exact ih (alike_readSourceLine same line)

/-- Sinks that are related before a Sources file is parsed are related after. -/
theorem related_parseSources (limit : Nat) (lines : List Str) {sink : σ} {addr : Nat}
    {sinkOther : τ} {addrOther : Nat} (start : related (sink, addr) (sinkOther, addrOther)) :
    related (parse .sources limit add repo lines addr sink)
      (parse .sources limit addOther repoOther lines addrOther sinkOther) := by
  have begun : SourcesParser.Alike related ⟨sink, [], [], [], false, 0, addr⟩
      ⟨sinkOther, [], [], [], false, 0, addrOther⟩ := ⟨start, rfl, rfl, rfl, rfl, rfl⟩
  obtain ⟨same, sameFlag⟩ := alike_readSources hand limit lines begun
  simp only [parse, parseSources]
  rcases first : readSources limit add repo lines _ with ⟨parser, stopped⟩
  rcases second : readSources limit addOther repoOther lines _ with ⟨other, _⟩
  rw [first, second] at same sameFlag
  cases sameFlag
  cases stopped with
  | true => exact same.sink
  | false => exact (alike_emitStanza hand limit same).1.sink

end Sources

/-- Sinks that are related before a text is parsed are related after. -/
theorem related_parse {alike : PackageInfo → PackageInfo → Prop}
    (keeps : Keeps add repo addOther repoOther related alike) (kind : Kind) (limit : Nat)
    (lines : List Str) {sink : σ} {addr : Nat} {sinkOther : τ} {addrOther : Nat}
    (start : related (sink, addr) (sinkOther, addrOther)) :
    related (parse kind limit add repo lines addr sink)
      (parse kind limit addOther repoOther lines addrOther sinkOther) := by
  cases kind with
  | packages =>
    have begun : PackagesParser.Alike related alike ⟨sink, none, 0, addr⟩
        ⟨sinkOther, none, 0, addrOther⟩ := ⟨start, .none, rfl⟩
    exact (alike_emitPackage keeps (alike_readPackages keeps limit lines begun)).1.sink
  | sources =>
    refine related_parseSources ?_ limit lines start
    intro sink addr sinkOther addrOther entry sinks
    obtain ⟨blank, next⟩ := keeps.begin sinks
    exact keeps.hand next (blank entry)

end Debswarm.PackageIndex
