import Mathlib.Tactic.Common
import Symbolicate.Proofs.Store.Find
import Symbolicate.Proofs.Store.Layout

/-!
# What a search leaves behind

A search changes at most one file: the one in the layout of a store that it extracts from a package
(`find_changes_at_most_dest`). A search that finds nothing changes no file, and one that fails leaves no file of its own
there.
-/

namespace Symbolicate.SymbolStore

open FileTree SymbolPackage

variable {t : FileTree}

/-- Only debug files with a plain name are extracted. -/
theorem notMem_of_has {package : FilePath} {name : String} (h : Has t package name) {c : Char}
    (hc : c = '/' ∨ c = '\\') : c ∉ name.toList := by
  obtain ⟨_, _, -, -, e, -, hname⟩ := h
  exact e.notMem_of_isFileNamed hname hc

/-- Where a search may extract a debug file to: its name has no separators, and it lies in the layout of a store, three
steps below the cache or the directory of a place. -/
structure IsDest (s : SymbolStore) (request : DebugFileRequest) (t : FileTree) (l : List String) : Prop where
  slash : '/' ∉ request.name.toList
  backslash : '\\' ∉ request.name.toList
  place : ∃ place ∈ s.path.elements, ∃ dir, place.localDir? = some dir ∧
    t.fileLocation (packageDest request (place.ownCache?.getD dir)) = .ok l ∧
    ∃ r, l = r ++ [request.name, request.debugId.nativeKey, request.name] ∧
      ((place.ownCache?.getD dir).text = "" ∧ r = [] ∨ t.locate (place.ownCache?.getD dir) = .ok r)

/-- Where the package that decides is extracted to. -/
theorem isDest_of_decides {s : SymbolStore} {request : DebugFileRequest} {t' : FileTree} {place : SymbolPathElement}
    {package root : FilePath} {l : List String} (hplace : place ∈ s.path.elements)
    (hdecides : Decides request t place package root) (hhas : Has t package request.name)
    (hl : t'.fileLocation (packageDest request root) = .ok l) : IsDest s request t' l := by
  have hslash : '/' ∉ request.name.toList := notMem_of_has hhas (.inl rfl)
  obtain ⟨dir, hdir, -, rfl⟩ := hdecides.dir
  exact ⟨hslash, notMem_of_has hhas (.inr rfl), place, hplace, dir, hdir, hl,
    below_of_fileLocation_packageDest hslash hl⟩

/-- **A search leaves no debris.** Whatever files are there and whatever is asked for, it changes at most one file, at
the destination of a package. It changes nothing if it finds nothing, and a search that fails leaves the file at the
destination as it was or not at all. -/
theorem find_changes_at_most_dest (h : t.IsTree) (s : SymbolStore) (request : DebugFileRequest)
    {result : Except SymbolError (Option FilePath)} {t' : FileTree}
    (hrun : ((s.find request : StateM FileTree _).run t) = (result, t')) :
    (result = .ok none → t' = t) ∧
      ((∀ k, t'.contents? k = t.contents? k) ∨
        ∃ l, IsDest s request t' l ∧ (∀ k, k ≠ l → t'.contents? k = t.contents? k) ∧
          ∀ e, result = .error e → t'.contents? l = none) := by
  obtain ⟨path, -, hcase⟩ | ⟨-, ⟨-, hcase⟩ | ⟨place, hplace, package, root, hdecides, hcase⟩⟩ := find_cases s request t
  · cases hrun.symm.trans hcase
    exact ⟨fun _ => rfl, .inl fun _ => rfl⟩
  · cases hrun.symm.trans hcase
    exact ⟨fun _ => rfl, .inl fun _ => rfl⟩
  · have hsearch := packageSearch_findInPackage request h package root
    rw [← hcase, hrun] at hsearch
    cases hsearch with
    | lacking _ => exact ⟨fun _ => rfl, .inl fun _ => rfl⟩
    | failed e _ hsame => exact ⟨nofun, .inl hsame.files⟩
    | undone e _ l hhas hplaced hgone hbut =>
      exact ⟨nofun, .inr ⟨l, isDest_of_decides hplace hdecides hhas hplaced, hbut.files, fun _ _ => hgone⟩⟩
    | found _ l b hhas hholds _ hbut =>
      exact ⟨nofun, .inr ⟨l, isDest_of_decides hplace hdecides hhas hholds.place, hbut.files, nofun⟩⟩

/-- A cache with a package that is no archive. -/
def damagedPackage : FileTree := ⟨[(["k"], .dir), (["k", "a.1.symbols.nupkg"], .file [0x50, 0x4B])], []⟩

/-- The cache, searched for a debug file of the package. -/
def damagedSearch : Except SymbolError (Option FilePath) × FileTree :=
  (find ⟨⟨[.cache ⟨"k"⟩]⟩, ⟨"c"⟩, 30⟩ ⟨"a", ⟨Guid.nil, 1⟩, "a", some "1"⟩ : StateM FileTree _).run damagedPackage

/-- A damaged package stays as it is. -/
theorem find_changes_at_most_dest_damagedPackage : damagedPackage.IsTree ∧
    (damagedSearch.1 = .ok none → damagedSearch.2 = damagedPackage) ∧
      ((∀ k, damagedSearch.2.contents? k = damagedPackage.contents? k) ∨
        ∃ l, IsDest ⟨⟨[.cache ⟨"k"⟩]⟩, ⟨"c"⟩, 30⟩ ⟨"a", ⟨Guid.nil, 1⟩, "a", some "1"⟩ damagedSearch.2 l ∧
          (∀ k, k ≠ l → damagedSearch.2.contents? k = damagedPackage.contents? k) ∧
          ∀ e, damagedSearch.1 = .error e → damagedSearch.2.contents? l = none) :=
  ⟨by decide, find_changes_at_most_dest (by decide) _ _ (Prod.eta damagedSearch).symm⟩

end Symbolicate.SymbolStore
