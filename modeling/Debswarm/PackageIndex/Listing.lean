import Debswarm.PackageIndex.Parallel

/-!
# What a load hands over

The parsers do not look at their sink, so a load is the same as first collecting
the entries of the text in a list and then filing them one by one.  The entries of
one load belong to its repository, carry identities that were fresh when the load
began, and are equal whenever their identities are.
-/

namespace Debswarm.PackageIndex

open List Text

universe u

variable (kind : Kind) (limit : Nat)

section

variable {σ : Type u}

/-! ## The listing of a text -/

/-- The sink that collects entries. -/
def collect (entries : List PackageInfo) (entry : PackageInfo) : List PackageInfo :=
  entries ++ [entry]

/-- The entries of a text, with identities from `nextAddr` on. -/
def listing (repo : Str) (lines : List Str) (nextAddr : Nat) :
    List PackageInfo :=
  (parse kind limit collect repo lines nextAddr []).1

/-- The first identity that the entries of a text leave free. -/
def addrAfter (repo : Str) (lines : List Str) (nextAddr : Nat) :
    Nat :=
  (parse kind limit collect repo lines nextAddr []).2

/-- Parsing into a sink is filing the listing of the text. -/
theorem parse_eq_foldl_listing (add : σ → PackageInfo → σ)
    (repo : Str) (lines : List Str) (nextAddr : Nat) (sink : σ) :
    parse kind limit add repo lines nextAddr sink =
      ((listing kind limit repo lines nextAddr).foldl add sink,
        addrAfter kind limit repo lines nextAddr) := by
  let filing : List PackageInfo × Nat → σ × Nat → Prop := fun collected filed =>
    filed = (collected.1.foldl add sink, collected.2)
  have keeps : Keeps collect repo add repo filing Eq :=
    { hash := congrArg _
      field := fun same name value => congrArg (setField name value) same
      filed := fun same => same ▸ rfl
      begin := by
        rintro entries addr _ _ ⟨rfl, rfl⟩
        exact ⟨fun _ => rfl, rfl⟩
      hand := by
        rintro entries addr _ _ entry _ ⟨rfl, rfl⟩ rfl
        simp [filing, collect] }
  exact related_parse keeps kind limit lines rfl

/-! ## Identities -/

/-- Entries of one repository whose identities lie in a range and tell them apart. -/
structure Fresh (first next : Nat) (repo : Str) (entries : List PackageInfo) : Prop where
  le : first ≤ next
  range : ∀ entry ∈ entries, first ≤ entry.addr ∧ entry.addr < next
  ofRepo : ∀ entry ∈ entries, entry.repo = repo
  apart : ∀ entry ∈ entries, ∀ other ∈ entries, entry.addr = other.addr → entry = other

theorem fresh_nil (first : Nat) (repo : Str) : Fresh first first repo [] :=
  ⟨le_refl first, by simp, by simp, by simp⟩

variable {first : Nat} {repo : Str} {parser : PackagesParser (List PackageInfo)}

theorem Fresh.mono {next later : Nat} {entries : List PackageInfo}
    (fresh : Fresh first next repo entries) (le : next ≤ later) :
    Fresh first later repo entries where
  le := fresh.le.trans le
  range entry mem := ⟨(fresh.range entry mem).1, (fresh.range entry mem).2.trans_le le⟩
  ofRepo := fresh.ofRepo
  apart := fresh.apart

/-- One more entry of the repository, equal to every entry that shares its identity. -/
theorem Fresh.collect {next : Nat} {entries : List PackageInfo}
    (fresh : Fresh first next repo entries) {entry : PackageInfo}
    (range : first ≤ entry.addr ∧ entry.addr < next) (ofRepo : entry.repo = repo)
    (same : ∀ other ∈ entries, other.addr = entry.addr → other = entry) :
    Fresh first next repo (collect entries entry) := by
  have memIff : ∀ {other}, other ∈ PackageIndex.collect entries entry ↔
      other ∈ entries ∨ other = entry := by
    intro other
    simp [PackageIndex.collect]
  refine ⟨fresh.le, fun other mem => ?_, fun other mem => ?_, fun other mem third thirdMem eq => ?_⟩
  · rcases memIff.mp mem with old | rfl
    · exact fresh.range other old
    · exact range
  · rcases memIff.mp mem with old | rfl
    · exact fresh.ofRepo other old
    · exact ofRepo
  · rcases memIff.mp mem with old | rfl
    · rcases memIff.mp thirdMem with thirdOld | rfl
      · exact fresh.apart other old third thirdOld eq
      · exact same other old eq
    · rcases memIff.mp thirdMem with thirdOld | rfl
      · exact (same third thirdOld eq.symm).symm
      · rfl

/-- A parser between lines: the entry being read was not handed over yet. -/
def Reading (first : Nat) (repo : Str) (parser : PackagesParser (List PackageInfo)) : Prop :=
  Fresh first parser.nextAddr repo parser.sink ∧
    ∀ pkg ∈ parser.pkg, first ≤ pkg.addr ∧ pkg.addr < parser.nextAddr ∧
      ∀ entry ∈ parser.sink, entry.addr ≠ pkg.addr

/-- A parser after its loop: the entry being read may have been handed over. -/
def Stopped (first : Nat) (repo : Str) (parser : PackagesParser (List PackageInfo)) : Prop :=
  Fresh first parser.nextAddr repo parser.sink ∧
    ∀ pkg ∈ parser.pkg, first ≤ pkg.addr ∧ pkg.addr < parser.nextAddr ∧
      ∀ entry ∈ parser.sink, entry.addr = pkg.addr → entry = { pkg with repo }

theorem Reading.stopped (reading : Reading first repo parser) : Stopped first repo parser := by
  refine ⟨reading.1, fun pkg held => ?_⟩
  obtain ⟨lower, upper, unused⟩ := reading.2 pkg held
  exact ⟨lower, upper, fun entry mem same => absurd same (unused entry mem)⟩

theorem stopped_emitPackage (stopped : Stopped first repo parser) :
    Stopped first repo (emitPackage collect repo parser) := by
  obtain ⟨sink, held, count, nextAddr⟩ := parser
  cases held with
  | none => exact stopped
  | some pkg =>
    obtain ⟨lower, upper, same⟩ := stopped.2 pkg rfl
    simp only [emitPackage]
    split
    · exact stopped
    · refine ⟨stopped.1.collect ⟨lower, upper⟩ rfl same, fun filed filedEq => ?_⟩
      cases filedEq
      refine ⟨lower, upper, fun entry mem eq => ?_⟩
      rcases List.mem_append.mp mem with old | new
      · exact same entry old eq
      · exact List.mem_singleton.mp new

theorem reading_startPackage (reading : Reading first repo parser) :
    Reading first repo (startPackage parser) := by
  unfold startPackage
  split
  · exact reading
  · refine ⟨reading.1.mono (Nat.le_succ _), fun pkg held => ?_⟩
    cases held
    refine ⟨reading.1.le, Nat.lt_succ_self _, fun entry mem => ?_⟩
    exact (reading.1.range entry mem).2.ne

theorem reading_readPackageLine (line : Str) (reading : Reading first repo parser) :
    Reading first repo (readPackageLine line parser) := by
  have started := reading_startPackage reading
  unfold readPackageLine
  split
  · exact started
  · refine ⟨started.1, fun pkg held => ?_⟩
    obtain ⟨old, oldHeld, rfl⟩ := Option.map_eq_some_iff.mp held
    unfold setField
    split_ifs <;> exact started.2 old oldHeld

theorem stopped_readPackages (lines : List Str)
    (reading : Reading first repo parser) :
    Stopped first repo (readPackages limit collect repo lines parser) := by
  induction lines generalizing parser with
  | nil => exact reading.stopped
  | cons line rest ih =>
    simp only [readPackages]
    split
    · split
      · exact stopped_emitPackage reading.stopped
      · refine ih ⟨(stopped_emitPackage reading.stopped).1, fun _ held => ?_⟩
        cases held
    · exact ih (reading_readPackageLine line reading)

theorem fresh_listing (repo : Str) (lines : List Str) (nextAddr : Nat) :
    Fresh nextAddr (addrAfter kind limit repo lines nextAddr) repo
      (listing kind limit repo lines nextAddr) := by
  cases kind with
  | packages =>
    have started : Reading nextAddr repo ⟨[], none, 0, nextAddr⟩ :=
      ⟨fresh_nil nextAddr repo, fun _ held => nomatch held⟩
    exact (stopped_emitPackage (stopped_readPackages limit lines started)).1
  | sources =>
    let fresh : List PackageInfo × Nat → List PackageInfo × Nat → Prop := fun collected _ =>
      Fresh nextAddr collected.2 repo collected.1
    have start : fresh ([], nextAddr) ([], nextAddr) := fresh_nil nextAddr repo
    change fresh (parse .sources limit collect repo lines nextAddr [])
      (parse .sources limit collect repo lines nextAddr [])
    refine related_parseSources (fun entry emitted => ?_) limit lines start
    refine (Fresh.mono emitted (Nat.le_succ _)).collect ⟨emitted.le, Nat.lt_succ_self _⟩ rfl ?_
    intro other mem same
    exact absurd same (emitted.range other mem).2.ne

end

/-! ## Identities and labels -/

/-- A view of entries that two parses of one text share if their first entries do. -/
theorem map_view_listing (view : PackageInfo → PackageInfo) {repo repoOther : Str}
    {addr addrOther : Nat}
    (hash : ∀ entry, (view entry).sha256 = entry.sha256)
    (field : ∀ name value entry,
      view (setField name value entry) = setField name value (view entry))
    (filed : ∀ entry other, view entry = view other →
      view { entry with repo } = view { other with repo := repoOther })
    (begin : ∀ (entry : PackageInfo) first,
      view { entry with addr := addr + first } = view { entry with addr := addrOther + first })
    (kind : Kind) (limit : Nat) (lines : List Str) :
    (listing kind limit repo lines addr).map view =
      (listing kind limit repoOther lines addrOther).map view := by
  let related : List PackageInfo × Nat → List PackageInfo × Nat → Prop := fun first second =>
    first.1.map view = second.1.map view ∧
      ∃ handed, first.2 = addr + handed ∧ second.2 = addrOther + handed
  have keeps : Keeps collect repo collect repoOther related
      (fun entry other => view entry = view other) :=
    { hash := fun same => by rw [← hash, same, hash]
      field := fun same name value => by rw [field, same, field]
      filed := fun same => filed _ _ same
      begin := by
        rintro entries _ others _ ⟨same, handed, rfl, rfl⟩
        exact ⟨fun entry => begin entry handed, same, handed + 1, rfl, rfl⟩
      hand := by
        rintro entries _ others _ entry other ⟨same, addrs⟩ sameEntry
        refine ⟨?_, addrs⟩
        simp only [collect, map_append, map_cons, map_nil, filed _ _ sameEntry]
        exact congrArg (· ++ _) same }
  have start : related ([], addr) ([], addrOther) := ⟨rfl, 0, rfl, rfl⟩
  exact (related_parse keeps kind limit lines start).1

/-! ## Identities -/

/-- An entry without its identity. -/
def PackageInfo.bare (entry : PackageInfo) : PackageInfo :=
  { entry with addr := 0 }

theorem keys_of_bare_eq {entry other : PackageInfo} (same : entry.bare = other.bare) :
    entry.sha256 = other.sha256 ∧ entry.repo = other.repo ∧ entry.filename = other.filename := by
  simp only [PackageInfo.bare, PackageInfo.mk.injEq] at same
  obtain ⟨_, _, _, _, sameName, _, sameHash, sameRepo⟩ := same
  exact ⟨sameHash, sameRepo, sameName⟩

/-- Entries without their identities. -/
def bareAll (entries : List PackageInfo) : List PackageInfo :=
  entries.map PackageInfo.bare

/-- Listings of one text differ in identities only. -/
theorem bareAll_listing (repo : Str) (lines : List Str)
    (nextAddr otherAddr : Nat) :
    bareAll (listing kind limit repo lines nextAddr) =
      bareAll (listing kind limit repo lines otherAddr) := by
  have filed : ∀ entry other : PackageInfo, entry.bare = other.bare →
      { entry with repo }.bare = { other with repo }.bare :=
    fun _ _ same => congrArg (fun bare : PackageInfo => { bare with repo }) same
  unfold bareAll
  refine map_view_listing PackageInfo.bare (fun _ => rfl) (fun field value entry => ?_) filed
    (fun entry _ => (rfl : entry.bare = _)) kind limit lines
  unfold setField
  split_ifs <;> rfl

/-- An entry of one listing of a text is in every other one, but for its identity. -/
theorem exists_mem_listing {kind : Kind} {limit : Nat} {repo : Str} {lines : List Str}
    {nextAddr : Nat} {entry : PackageInfo} (mem : entry ∈ listing kind limit repo lines nextAddr)
    (otherAddr : Nat) :
    ∃ other ∈ listing kind limit repo lines otherAddr, other.bare = entry.bare := by
  have bareMem : entry.bare ∈ bareAll (listing kind limit repo lines nextAddr) :=
    mem_map_of_mem mem
  rw [bareAll_listing kind limit repo lines nextAddr otherAddr] at bareMem
  exact mem_map.mp bareMem

/-! ## Labels -/

/-- An entry with another repository. -/
def PackageInfo.label (repo : Str) (entry : PackageInfo) : PackageInfo :=
  { entry with repo }

/-- Listings of one text for two repositories differ in the label only. -/
theorem map_label_listing (repo otherRepo : Str) (lines : List Str)
    (nextAddr : Nat) :
    (listing kind limit otherRepo lines nextAddr).map (PackageInfo.label repo) =
      listing kind limit repo lines nextAddr := by
  have labelled : (listing kind limit repo lines nextAddr).map (PackageInfo.label repo) =
      listing kind limit repo lines nextAddr := by
    refine (map_congr_left fun entry mem => ?_).trans (map_id _)
    rw [← (fresh_listing kind limit repo lines nextAddr).ofRepo entry mem]
    rfl
  rw [← labelled]
  refine map_view_listing (PackageInfo.label repo) (fun _ => rfl) (fun field value entry => ?_)
    (fun _ _ same => same) (fun _ _ => rfl) kind limit lines
  unfold setField
  split_ifs <;> rfl

end Debswarm.PackageIndex
