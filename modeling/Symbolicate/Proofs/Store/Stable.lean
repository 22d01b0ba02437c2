import Mathlib.Tactic.Common
import Symbolicate.Proofs.Store.Find
import Symbolicate.Zip.Writer

/-!
# Searching again

What has been found is found again, also when other files are gone since (`find_again`). A debug file that has been
extracted from a package lies at a candidate, so packages are not needed any more. The directories made for it can make
another path lead somewhere, so another candidate can come first; such a path goes up by two dots
(`eq_or_up_of_verified`).
-/

namespace Symbolicate.SymbolStore

open FileTree

variable {request : DebugFileRequest} {t t' : FileTree} {s : SymbolStore} {path : FilePath} {l : List String}

/-! ## Verified paths in other trees -/

/-- A path that is verified when some files are gone was verified before. -/
theorem verified_of_fewerFiles (h : FewerFiles l t t') (hverified : Verified request path t') :
    Verified request path t := by
  obtain ⟨k, b, identity, hk, hb, hread, hmatch⟩ := verified_iff.1 hverified
  obtain ⟨hk', hb'⟩ := h.locate hk hb
  exact verified_iff.2 ⟨k, b, identity, hk', hb', hread, hmatch⟩

/-- A path to the file that is kept stays verified. -/
theorem verified_of_kept (h : FewerFiles l t t') (hl : t.locate path = .ok l) (hverified : Verified request path t) :
    t'.locate path = .ok l ∧ Verified request path t' := by
  obtain ⟨k, b, identity, hk, hb, hread, hmatch⟩ := verified_iff.1 hverified
  cases hk.symm.trans hl
  have hb' := h.kept.trans hb
  have hl' : t'.locate path = .ok l :=
    locate_of_dirs (fun i => (h.dirs i).2) hl (by rw [contents?_eq_some_iff.1 hb']; rfl)
  exact ⟨hl', verified_iff.2 ⟨l, b, identity, hl', hb', hread, hmatch⟩⟩

/-- **Extracting makes only its own file verified**, but for paths that go up by two dots and led nowhere before. -/
theorem eq_or_up_of_verified {k : List String} (h : t.IsTree) (hbut : SameFilesBut l t t')
    (hsome : (t'.entry? l).isSome) (hnot : ¬ Verified request path t) (hverified : Verified request path t')
    (hk : t'.locate path = .ok k) : k = l ∨ ".." ∈ path.pieces ∧ ∀ i, t.locate path ≠ .ok i := by
  by_cases heq : k = l
  · exact .inl heq
  · obtain ⟨_, b, identity, hk', hb, hread, hmatch⟩ := verified_iff.1 hverified
    cases hk'.symm.trans hk
    have hb' : t.contents? k = some b := (hbut.files k heq).symm.trans hb
    have hold : ∀ i, t.locate path ≠ .ok i := by
      intro i hi
      -- where it led before, it leads now, so it was verified before
      have hkept : (t'.entry? i).isSome := by
        by_cases hil : i = l
        · rw [hil]; exact hsome
        · obtain ⟨e, he⟩ := Option.isSome_iff_exists.1 (h.isSome_of_locate hi)
          cases e with
          | dir => rw [hbut.dirs i he]; rfl
          | file c =>
            rw [contents?_eq_some_iff.1 ((hbut.files i hil).trans (contents?_eq_some_iff.2 he))]
            rfl
      cases (locate_of_dirs hbut.dirs hi hkept).symm.trans hk
      exact hnot (verified_iff.2 ⟨k, b, identity, hi, hb', hread, hmatch⟩)
    refine .inr ⟨?_, hold⟩
    by_contra hup
    obtain ⟨start, hstart, hfollow⟩ := locate_eq_ok.1 hk
    have hfollow' := h.follow_of_old (fun i => hbut.dir_of_dir) hfollow hup (by rw [contents?_eq_some_iff.1 hb']; rfl)
    exact hold k (locate_eq_ok.2 ⟨start, hstart, hfollow'⟩)

/-! ## Destinations -/

/-- The destination of a package is a candidate. -/
theorem packageDest_mem_candidates {place : SymbolPathElement} {package root : FilePath}
    (hplace : place ∈ s.path.elements) (hdecides : Decides request t place package root) :
    packageDest request root ∈ s.candidates request := by
  obtain ⟨dir, hdir, -, rfl⟩ := hdecides.dir
  refine mem_candidates_of_revisited hplace ?_
  have hmem : ∀ root, packageDest request root ∈ layouts request root := fun root =>
    List.mem_map.2 ⟨request.debugId.nativeKey, List.mem_append_left _ List.mem_cons_self, rfl⟩
  rw [revisited, hdir]
  cases place.ownCache? with
  | none => exact List.mem_append_left _ (hmem dir)
  | some cache => exact List.mem_append_right _ (hmem cache)

/-! ## Searching again -/

/-- The first verified candidate stays the first one when other files are gone. -/
theorem find?_of_kept (h : FewerFiles l t t') (hl : t.locate path = .ok l) {paths : List FilePath}
    (hfirst : paths.find? (Verified request · t) = some path) : paths.find? (Verified request · t') = some path := by
  obtain ⟨hverified, before, after, rfl, hbefore⟩ := List.find?_eq_some_iff_append.1 hfirst
  refine List.find?_eq_some_iff_append.2 ⟨?_, before, after, rfl, fun other hother => ?_⟩
  · exact decide_eq_true (verified_of_kept h hl (of_decide_eq_true hverified)).2
  · have hnot : ¬ Verified request other t := by simpa using hbefore other hother
    simpa using fun hother' => hnot (verified_of_fewerFiles h hother')

/-- A search finds a candidate without packages if one is verified. -/
theorem exists_run_find (hpath : path ∈ s.candidates request) (hverified : Verified request path t) :
    ∃ first, (s.candidates request).find? (Verified request · t) = some first ∧
      ((s.find request : StateM FileTree _).run t) = (.ok (some first), t) := by
  obtain hfirst | ⟨hnone, -⟩ := find_cases s request t
  · exact hfirst
  · exact absurd hverified (hnone path hpath)

/-- The files `u` hold what a search in `t` has found at `path`: a search in them finds a verified path and changes
nothing. It is the same path if no package was needed in `t`, and else a path to the same file, or one that goes up by
two dots and led nowhere in `t`. -/
def FindsAgain (s : SymbolStore) (request : DebugFileRequest) (t u : FileTree) (path : FilePath) : Prop :=
  ∃ again, ((s.find request : StateM FileTree _).run u) = (.ok (some again), u) ∧ Verified request again u ∧
    (((s.search request : StateM FileTree _).run t).1 = some path → again = path) ∧
    (u.locate again = u.locate path ∨ ".." ∈ again.pieces ∧ ∀ k, t.locate again ≠ .ok k)

/-- **What is found is found again**, also when any other files are gone since. -/
theorem find_again (h : t.IsTree) (hfind : ((s.find request : StateM FileTree _).run t) = (.ok (some path), t'))
    (removed : List FilePath) (hremoved : ∀ other ∈ removed, t'.locate other ≠ t'.locate path) :
    Verified request path t' ∧ s.FindsAgain request t (removed.foldl FileTree.remove t') path := by
  have hverified : Verified request path t' := by
    have hsearch : EndsVerified request (s.find request) := endsVerified_find s
    have hends := hsearch t path (by rw [hfind])
    rwa [hfind] at hends
  refine ⟨hverified, ?_⟩
  obtain ⟨l, b, -, hl, hb, -, -⟩ := verified_iff.1 hverified
  have hfewer : FewerFiles l t' (removed.foldl FileTree.remove t') :=
    fewerFiles_removeAll hb fun other hother hother' => hremoved other hother (hother'.trans hl.symm)
  generalize removed.foldl FileTree.remove t' = u at hfewer ⊢
  obtain ⟨hlast, hverifiedLast⟩ := verified_of_kept hfewer hl hverified
  obtain ⟨first, hfirst, hcase⟩ | ⟨hnone, ⟨-, hcase⟩ | ⟨place, hplace, package, root, hdecides, hcase⟩⟩ :=
    find_cases s request t
  · -- found without packages: it stays the first verified candidate
    cases hcase.symm.trans hfind
    have hagain := find?_of_kept hfewer hl hfirst
    obtain ⟨again, hagain', hrun⟩ := exists_run_find (List.mem_of_find?_eq_some hagain) hverifiedLast
    cases hagain.symm.trans hagain'
    exact ⟨path, hrun, hverifiedLast, fun _ => rfl, .inl rfl⟩
  · cases hcase.symm.trans hfind
  · have hsearch := packageSearch_findInPackage request h package root
    rw [← hcase, hfind] at hsearch
    cases hsearch with
    | found _ l' c hhas hholds _ hbut =>
      cases hholds.locate.symm.trans hl
      obtain ⟨again, hagain, hrun⟩ := exists_run_find (packageDest_mem_candidates hplace hdecides) hverifiedLast
      have hverifiedAgain : Verified request again u := by simpa using List.find?_some hagain
      refine ⟨again, hrun, hverifiedAgain, fun hsearch => ?_, ?_⟩
      · -- the first tier has not found it
        rw [run_search, List.find?_eq_none.2 (by simpa using hnone)] at hsearch
        cases hsearch
      · obtain ⟨k, d, -, hk, hd, -, -⟩ := verified_iff.1 hverifiedAgain
        have hsome : (t'.entry? l).isSome := by rw [contents?_eq_some_iff.1 hb]; rfl
        have hfirst := eq_or_up_of_verified h hbut hsome (hnone again (List.mem_of_find?_eq_some hagain))
          (verified_of_fewerFiles hfewer hverifiedAgain) (hfewer.locate hk hd).1
        exact hfirst.imp_left fun heq => by rw [hk, heq, hlast]

/-! ## A path that goes up -/

/-- A portable debug file without contents. All bytes of its identity are zero. -/
def emptyFile : Bytes :=
  [0x42, 0x53, 0x4A, 0x42, 1, 0, 1, 0, 0, 0, 0, 0, 0, 0, 0, 0, 0, 0, 1, 0] ++
    [36, 0, 0, 0, 32, 0, 0, 0, 0x23, 0x50, 0x64, 0x62, 0, 0, 0, 0] ++ List.replicate 32 0

/-- The file in a directory, and in a package besides. -/
def packed : FileTree := ⟨[(["s"], .dir), (["s", "a"], .file emptyFile), (["k"], .dir),
  (["k", "a.1.symbols.nupkg"], .file (Zip.write [("a", emptyFile)]))], []⟩

def packedRequest : DebugFileRequest := ⟨"a", ⟨Guid.nil, 1⟩, "a", some "1"⟩

/-- The directory is searched alone. -/
def direct : SymbolStore := ⟨⟨[.directory ⟨"s"⟩]⟩, ⟨"c"⟩, 30⟩

theorem run_find_direct : ((direct.find packedRequest : StateM FileTree _).run packed) =
    (.ok (some (FilePath.join ⟨"s"⟩ ⟨"a"⟩)), packed) := by
  have hverified : Verified packedRequest (FilePath.join ⟨"s"⟩ ⟨"a"⟩) packed := by decide +kernel
  have hfirst : (direct.candidates packedRequest).find? (Verified packedRequest · packed) =
      some (FilePath.join ⟨"s"⟩ ⟨"a"⟩) := List.find?_cons_of_pos (decide_eq_true hverified)
  rw [find, run_bind, run_search, hfirst]
  rfl

/-- A file that has been found in a directory is found again when a package is gone. -/
theorem find_again_direct : packed.IsTree ∧
    (∀ other ∈ [(⟨"k/a.1.symbols.nupkg"⟩ : FilePath)],
      packed.locate other ≠ packed.locate (FilePath.join ⟨"s"⟩ ⟨"a"⟩)) ∧
    Verified packedRequest (FilePath.join ⟨"s"⟩ ⟨"a"⟩) packed ∧
    direct.FindsAgain packedRequest packed (packed.remove ⟨"k/a.1.symbols.nupkg"⟩) (FilePath.join ⟨"s"⟩ ⟨"a"⟩) :=
  have hremoved : ∀ other ∈ [(⟨"k/a.1.symbols.nupkg"⟩ : FilePath)],
      packed.locate other ≠ packed.locate (FilePath.join ⟨"s"⟩ ⟨"a"⟩) := by decide +kernel
  ⟨by decide, hremoved, find_again (by decide) run_find_direct [⟨"k/a.1.symbols.nupkg"⟩] hremoved⟩

/-- The directory is searched by way of another one, which is the cache of a store. -/
def crossing : SymbolStore := ⟨⟨[.directory ⟨"x/../s"⟩, .store (some ⟨"x"⟩) "k"]⟩, ⟨"c"⟩, 30⟩

/-- The files when the package has been extracted to the cache. -/
def unpacked : FileTree := ⟨packed.entries ++ [(["x"], .dir), (["x", "a"], .dir),
  (["x", "a", "000000000000000000000000000000001"], .dir),
  (["x", "a", "000000000000000000000000000000001", "a"], .file emptyFile)], []⟩

set_option maxRecDepth 10000 in
theorem run_find_crossing : ((crossing.find packedRequest : StateM FileTree _).run packed) =
    (.ok (some ⟨"x/a/000000000000000000000000000000001/a"⟩), unpacked) := by
  change (_ : Except SymbolError (Option FilePath) × FileTree) = _
  decide +kernel

theorem run_find_crossing_again : ((crossing.find packedRequest : StateM FileTree _).run unpacked) =
    (.ok (some ⟨"x/../s/a"⟩), unpacked) := by
  have hverified : Verified packedRequest (FilePath.join ⟨"x/../s"⟩ ⟨"a"⟩) unpacked := by decide +kernel
  have hfirst : (crossing.candidates packedRequest).find? (Verified packedRequest · unpacked) =
      some (FilePath.join ⟨"x/../s"⟩ ⟨"a"⟩) := List.find?_cons_of_pos (decide_eq_true hverified)
  have hpath : FilePath.join ⟨"x/../s"⟩ ⟨"a"⟩ = ⟨"x/../s/a"⟩ := by decide +kernel
  rw [find, run_bind, run_search, hfirst, hpath]
  rfl

/-- Where a path goes up from a directory that is made for the first file, the second search can find another one. -/
theorem not_find_again_same : ¬ ∀ (s : SymbolStore) (request : DebugFileRequest) (t t' : FileTree) (path : FilePath),
    t.IsTree → ((s.find request : StateM FileTree _).run t) = (.ok (some path), t') →
    ∀ removed : List FilePath, (∀ other ∈ removed, t'.locate other ≠ t'.locate path) →
      ∃ again, ((s.find request : StateM FileTree _).run (removed.foldl FileTree.remove t')) =
          (.ok (some again), removed.foldl FileTree.remove t') ∧
        (removed.foldl FileTree.remove t').locate again = (removed.foldl FileTree.remove t').locate path := by
  intro hall
  obtain ⟨again, hrun, hsame⟩ := hall crossing packedRequest packed unpacked _ (by decide) run_find_crossing []
    (fun _ hother => absurd hother List.not_mem_nil)
  obtain rfl : ⟨"x/../s/a"⟩ = again :=
    Option.some.inj (Except.ok.inj (Prod.mk.inj (run_find_crossing_again.symm.trans hrun)).1)
  have hdiffer : unpacked.locate ⟨"x/../s/a"⟩ ≠ unpacked.locate ⟨"x/a/000000000000000000000000000000001/a"⟩ := by
    decide +kernel
  exact hdiffer hsame

end Symbolicate.SymbolStore
