import Mathlib.Tactic.Common
import Symbolicate.Proofs.Store.Extracting
import Symbolicate.Proofs.Store.Targets

/-!
# Blamed packages

A search fails with a mismatch if it blames a package: its name promises a debug file that it does not hold. The search
judges by the first entry that is a file with the name (`FirstHolds`) and looks at no other one, so a package is not
blamed if this entry holds the debug file, and is blamed if it does not, whatever the entries behind it hold.

Main statement: a search blames a package, which stays, iff the search comes to it and its first entry with the name
holds something else (`blames_iff`).
-/

namespace Symbolicate

/-! ## Entries -/

namespace Zip

/-- The contents of an entry, if they can be read. -/
def Entry.contents? (e : Entry) (b : Bytes) : Option Bytes := (e.body? b).bind fun body => body.contents? b

/-- The first entry of an archive that is a file with the name holds some contents, and the entries before it have
headers that can be read. -/
def FirstHolds (b : Bytes) (name : String) (c : Bytes) : Prop :=
  ∃ before e after, Archive.read? b = some ⟨before ++ e :: after⟩ ∧
    (∀ other ∈ before, (other.body? b).isSome ∧ other.isFileNamed name = false) ∧ e.isFileNamed name = true ∧
    e.contents? b = some c

end Zip

namespace SymbolStore

open FileTree SymbolPackage

variable {s : SymbolStore} {request : DebugFileRequest} {t t' : FileTree} {package root : FilePath} {body : Zip.Body}
  {b c : Bytes} {l : List String} {m : Mismatch}

/-- The entry to extract is the first one with the name. -/
theorem firstHolds_iff : Zip.FirstHolds b request.name c ↔
    ∃ body, bodyIn? request b = some (some body) ∧ body.contents? b = some c := by
  simp only [bodyIn?, Option.bind_eq_some_iff]
  constructor
  · rintro ⟨before, e, after, harchive, hbefore, hname, hcontents⟩
    obtain ⟨body, hbody, hcontents⟩ := Option.bind_eq_some_iff.1 hcontents
    exact ⟨body, ⟨_, harchive, Zip.bodyNamed?_eq_some_some_iff.2 ⟨before, e, after, rfl, hbefore, hname, hbody⟩⟩,
      hcontents⟩
  · rintro ⟨body, ⟨⟨entries⟩, harchive, hnamed⟩, hcontents⟩
    obtain ⟨before, e, after, rfl, hbefore, hname, hbody⟩ := Zip.bodyNamed?_eq_some_some_iff.1 hnamed
    exact ⟨before, e, after, harchive, hbefore, hname, Option.bind_eq_some_iff.2 ⟨body, hbody, hcontents⟩⟩

/-! ## Looking in a package -/

/-- A package that is blamed has an entry to extract, and a file can be made for it. If the package lies elsewhere, the
entry does not carry the identity. -/
theorem exists_of_blame (h : t.IsTree)
    (hrun : ((findInPackage request package root : StateM FileTree _).run t) = (.error (.archiveMismatch m), t')) :
    m = ⟨request.name, package, request.debugId⟩ ∧
      ∃ b body l, t.read package = .ok b ∧ bodyIn? request b = some (some body) ∧
        CanMake t (packageDest request root) l ∧ t'.contents? l = none ∧
        (t.locate package ≠ .ok l → ∃ c, body.contents? b = some c ∧ ¬ Carries request c) := by
  obtain ⟨b, body, t₁, hread, hbody, hmade, hrun'⟩ := exists_of_run_findInPackage hrun nofun nofun nofun
  obtain ⟨l, hmake, hempty, hbut⟩ := exists_of_run_makeFile h hmade
  have hfill : Filling request package body (packageDest request root) l t₁ _ := filling_fill hempty package body
  rw [hrun'] at hfill
  cases hfill with
  | blamed _ c hcontents hnot hgone hbut' =>
    refine ⟨rfl, b, body, l, hread, hbody, hmake, hgone, fun hapart => ⟨c, ?_, hnot⟩⟩
    rwa [hbut.read hread hapart] at hcontents

/-- A package with another debug file is blamed, and stays as it is. -/
theorem run_findInPackage_of_blame (h : t.IsTree) (hread : t.read package = .ok b)
    (hbody : bodyIn? request b = some (some body)) (hmake : CanMake t (packageDest request root) l)
    (hapart : t.locate package ≠ .ok l) (hcontents : body.contents? b = some c) (hnot : ¬ Carries request c) :
    ∃ t', ((findInPackage request package root : StateM FileTree _).run t) =
      (.error (.archiveMismatch ⟨request.name, package, request.debugId⟩), t') ∧ t'.read package = .ok b := by
  obtain ⟨t₁, hmade, hempty, hbut⟩ := hmake.run h
  rw [run_findInPackage_of_made hread hbody hmade]
  obtain ⟨t', hbut', ⟨hcarries, -⟩ | ⟨-, hrun⟩⟩ := fill_cases hempty (hbut.read hread hapart) hcontents
  · exact absurd hcarries hnot
  · exact ⟨t', hrun, (hbut.trans hbut').read hread hapart⟩

/-! ## Searches -/

/-- A search comes to a package: no candidate is verified, the places before that of the package are passed, and the
package is not one that lacks the debug file. -/
structure ComesTo (s : SymbolStore) (request : DebugFileRequest) (t : FileTree) (package root : FilePath) : Prop where
  unverified : ∀ path ∈ s.candidates request, ¬ Verified request path t
  place : ∃ before place after, s.path.elements = before ++ place :: after ∧
    (∀ other ∈ before, Passes request t other) ∧ Decides request t place package root

/-- Such a search ends with what the package gives. -/
theorem ComesTo.run_find (h : ComesTo s request t package root) :
    ((s.find request : StateM FileTree _).run t) = ((findInPackage request package root : StateM FileTree _).run t) := by
  obtain ⟨before, place, after, hpath, hbefore, hdecides⟩ := h.place
  obtain ⟨dir, hdir, hpackage, rfl⟩ := hdecides.dir
  have hconsiders := considers hpath hdir hpackage h.unverified
  cases hconsiders with
  | before hmem hother =>
    -- a place that is passed does not decide
    obtain ⟨other, hother', hpackage', -⟩ := hother.dir
    exact absurd (hbefore _ hmem _ hother' _ hpackage') hother.not_lacks
  | here _ _ hrun => exact hrun
  | behind _ hlacks => exact absurd hlacks hdecides.not_lacks

/-- A search that fails has come to a package. -/
theorem exists_comesTo {e : SymbolError} (hrun : ((s.find request : StateM FileTree _).run t) = (.error e, t')) :
    ∃ package root, ComesTo s request t package root ∧
      ((findInPackage request package root : StateM FileTree _).run t) = (.error e, t') := by
  obtain ⟨path, -, hfound⟩ | ⟨hnone, -⟩ := find_cases s request t
  · cases hfound.symm.trans hrun
  · have hunverified : ∀ place ∈ s.path.elements, ∀ path ∈ revisited request place, ¬ Verified request path t :=
      fun place hplace path hpath => hnone path (mem_candidates_of_revisited hplace hpath)
    have hcases := revisit_append_cases [] hunverified
    rw [List.append_nil, ← run_find_of_unverified hnone, hrun] at hcases
    obtain ⟨-, hnothing⟩ | ⟨before, place, after, package, root, hpath, hbefore, hdecides, hpackage⟩ := hcases
    · cases hnothing
    · exact ⟨package, root, ⟨hnone, before, place, after, hpath, hbefore, hdecides⟩, hpackage.symm⟩

/-- A package is to blame: a search comes to it, the first entry with the name can be extracted beside the package, and
it holds another debug file or none. -/
def IsToBlame (s : SymbolStore) (request : DebugFileRequest) (t : FileTree) (package : FilePath) : Prop :=
  ∃ root l b c, ComesTo s request t package root ∧ CanMake t (packageDest request root) l ∧ t.locate package ≠ .ok l ∧
    t.read package = .ok b ∧ Zip.FirstHolds b request.name c ∧ ¬ Carries request c

/-- **A search blames a package by its first entry with the name.** A package that is blamed, and is still there, is
the one of a place, and this entry does not carry the identity. Such a package is blamed whenever a search comes to it. -/
theorem blames_iff (h : t.IsTree) (s : SymbolStore) (request : DebugFileRequest) (m : Mismatch) :
    (∃ t', ((s.find request : StateM FileTree _).run t) = (.error (.archiveMismatch m), t') ∧
        t'.isFile m.package = true) ↔
      m = ⟨request.name, m.package, request.debugId⟩ ∧ IsToBlame s request t m.package := by
  constructor
  · rintro ⟨t', hrun, hstays⟩
    obtain ⟨package, root, hcomes, hpackage⟩ := exists_comesTo hrun
    obtain ⟨rfl, b, body, l, hread, hbody, hmake, hgone, hcontents⟩ := exists_of_blame h hpackage
    have hapart : t.locate package ≠ .ok l := by
      intro hl
      -- the package would have been removed with the file
      obtain ⟨k, b', hk, hb'⟩ := isFile_iff.1 hstays
      rw [← eq_of_locate hl hk, hgone] at hb'
      cases hb'
    obtain ⟨c, hc, hnot⟩ := hcontents hapart
    exact ⟨rfl, root, l, b, c, hcomes, hmake, hapart, hread, firstHolds_iff.2 ⟨body, hbody, hc⟩, hnot⟩
  · rintro ⟨hm, root, l, b, c, hcomes, hmake, hapart, hread, hfirst, hnot⟩
    obtain ⟨body, hbody, hc⟩ := firstHolds_iff.1 hfirst
    obtain ⟨t', hrun, hread'⟩ := run_findInPackage_of_blame h hread hbody hmake hapart hc hnot
    refine ⟨t', ?_, isFile_iff_read.2 ⟨b, hread'⟩⟩
    rw [hcomes.run_find, hrun, ← hm]

/-! ## Two entries of one name -/

/-- A file with another identity. -/
def otherFile : Bytes := emptyFile.set 36 1

/-- A package with two debug files of one name. The second one is asked for. -/
def twoEntries : Bytes := Zip.write [("x/a", otherFile), ("y/a", emptyFile)]

def mixed : FileTree := ⟨[(["k"], .dir), (["k", "a.1.symbols.nupkg"], .file twoEntries)], []⟩

/-- The directories that have been made for the first one stay. -/
def mixedAfter : FileTree := ⟨mixed.entries ++ [(["k", "a"], .dir),
  (["k", "a", "000000000000000000000000000000001"], .dir)], []⟩

def mixedMismatch : Mismatch := ⟨"a", ⟨"k/a.1.symbols.nupkg"⟩, ⟨Guid.nil, 1⟩⟩

set_option maxRecDepth 10000 in
theorem run_find_mixed : (((storeAt "k").find packedRequest : StateM FileTree _).run mixed) =
    (.error (.archiveMismatch mixedMismatch), mixedAfter) := by
  change (_ : Except SymbolError (Option FilePath) × FileTree) = _
  decide +kernel

/-- The package is blamed for its first entry. -/
theorem blames_iff_mixed : mixed.IsTree ∧
    (∃ t', (((storeAt "k").find packedRequest : StateM FileTree _).run mixed) =
      (.error (.archiveMismatch mixedMismatch), t') ∧ t'.isFile mixedMismatch.package = true) ∧
    IsToBlame (storeAt "k") packedRequest mixed mixedMismatch.package := by
  have htree : mixed.IsTree := by decide
  have hblames : ∃ t', (((storeAt "k").find packedRequest : StateM FileTree _).run mixed) =
      (.error (.archiveMismatch mixedMismatch), t') ∧ t'.isFile mixedMismatch.package = true :=
    ⟨mixedAfter, run_find_mixed, by decide +kernel⟩
  exact ⟨htree, hblames, ((blames_iff htree (storeAt "k") packedRequest mixedMismatch).1 hblames).2⟩

set_option maxRecDepth 10000 in
/-- Both entries can be read, and one is the debug file. -/
theorem exists_read_twoEntries : ∃ archive, Zip.Archive.read? twoEntries = some archive ∧
    (∀ e ∈ archive.entries, (e.contents? twoEntries).isSome) ∧
    ∃ e ∈ archive.entries, e.isFileNamed "a" = true ∧ e.contents? twoEntries = some emptyFile := by
  have hread : ((Zip.Archive.read? twoEntries).any fun archive =>
      archive.entries.all (fun e => (e.contents? twoEntries).isSome) &&
        archive.entries.any fun e => e.isFileNamed "a" && e.contents? twoEntries == some emptyFile) = true := by
    decide +kernel
  simpa [Option.any_eq_true] using hread

theorem carries_emptyFile : Carries packedRequest emptyFile :=
  ⟨⟨.portable, ⟨Guid.nil, 1⟩⟩, by decide +kernel, by decide⟩

/-- A package can be blamed although one of its entries is the debug file that is asked for. -/
theorem not_blames_only_without : ¬ ∀ (s : SymbolStore) (request : DebugFileRequest) (t t' : FileTree) (m : Mismatch)
    (b : Bytes) (archive : Zip.Archive), t.IsTree →
    ((s.find request : StateM FileTree _).run t) = (.error (.archiveMismatch m), t') → t.read m.package = .ok b →
    Zip.Archive.read? b = some archive → (∀ e ∈ archive.entries, (e.contents? b).isSome) →
    ∀ e ∈ archive.entries, e.isFileNamed request.name = true → ∀ c, e.contents? b = some c → ¬ Carries request c := by
  intro hall
  obtain ⟨archive, harchive, hreadable, e, he, hname, hcontents⟩ := exists_read_twoEntries
  have hread : mixed.read mixedMismatch.package = .ok twoEntries :=
    read_eq_ok.2 ⟨["k", "a.1.symbols.nupkg"], by decide +kernel, rfl⟩
  have hnot := hall (storeAt "k") packedRequest mixed mixedAfter mixedMismatch twoEntries archive (by decide)
    run_find_mixed hread harchive hreadable e he hname emptyFile hcontents
  exact hnot carries_emptyFile

end SymbolStore

end Symbolicate
