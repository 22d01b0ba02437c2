import Mathlib.Tactic.Common
import Symbolicate.Proofs.Store.Find
import Symbolicate.Proofs.Store.Stable

/-!
# The second tier finds nothing but packages

The second tier of a search looks through layouts again before it asks for packages (`LooksThrough`). It only goes on from
places that give nothing, and these leave the files as they are (`eq_of_run_revisitPlace`), so it sees the files that the
first tier saw, in which no layout has the debug file. Without its looks it would do the same (`run_revisitPlaces_eq`).
What it finds has been extracted from a package (`run_extract_of_run_findInPackage`).
-/

namespace Symbolicate.SymbolStore

open SymbolPackage

variable {request : DebugFileRequest} {t t' u : FileTree} {s : SymbolStore} {path package root : FilePath}
  {place : SymbolPathElement}

/-! ## Looks of the second tier -/

/-- The layouts that the second tier looks through in some places, each by its root and with the files as they are
then. -/
inductive LooksThrough (request : DebugFileRequest) : List SymbolPathElement → FileTree → FilePath → FileTree → Prop
  /-- The layout of the directory of a place comes first. -/
  | dir {place : SymbolPathElement} {rest : List SymbolPathElement} {t : FileTree} {dir : FilePath}
      (hdir : place.localDir? = some dir) : LooksThrough request (place :: rest) t dir t
  /-- If it has nothing, that of the place's own cache is next. -/
  | own {place : SymbolPathElement} {rest : List SymbolPathElement} {t u : FileTree} {dir cache : FilePath}
      (hdir : place.localDir? = some dir) (hcache : place.ownCache? = some cache)
      (hrun : ((searchLayout request dir : StateM FileTree _).run t) = (none, u)) :
      LooksThrough request (place :: rest) t cache u
  /-- A place that gives nothing, neither a debug file nor a fault, leads on to those behind it. -/
  | behind {place : SymbolPathElement} {rest : List SymbolPathElement} {t u v : FileTree} {root : FilePath}
      (hrun : ((revisitPlace request place : StateM FileTree _).run t) = (.ok none, u))
      (h : LooksThrough request rest u root v) : LooksThrough request (place :: rest) t root v

/-- No layout of some places has the debug file. -/
def NothingIn (request : DebugFileRequest) (t : FileTree) (places : List SymbolPathElement) : Prop :=
  ∀ place ∈ places, ∀ path ∈ revisited request place, ¬ Verified request path t

/-- Where the first tier finds nothing, the layouts that the second tier may look through have nothing. -/
theorem nothingIn_of_run_search (h : ((s.search request : StateM FileTree _).run t).1 = none) :
    NothingIn request t s.path.elements := by
  intro place hplace path hpath
  rw [run_search] at h
  have hnone : ∀ path ∈ s.candidates request, ¬ Verified request path t := by simpa using List.find?_eq_none.1 h
  exact hnone path (mem_candidates_of_revisited hplace hpath)

/-- A place that gives nothing leaves the files as they are. -/
theorem eq_of_run_revisitPlace (h : ∀ path ∈ revisited request place, ¬ Verified request path t)
    (hrun : ((revisitPlace request place : StateM FileTree _).run t) = (.ok none, u)) : u = t := by
  by_cases hpasses : Passes request t place
  · rw [run_revisitPlace_of_passes hpasses h] at hrun
    cases hrun
    rfl
  · -- a package that has the debug file does not give nothing
    obtain ⟨package, root, hdecides⟩ := exists_decides_of_not_passes hpasses
    rw [run_revisitPlace_of_decides hdecides h] at hrun
    exact absurd (lacks_of_run_findInPackage (congrArg Prod.fst hrun)) hdecides.not_lacks

/-- **The second tier looks in vain.** -/
theorem LooksThrough.run_searchLayout {places : List SymbolPathElement} (h : LooksThrough request places t root u)
    (hnothing : NothingIn request t places) :
    u = t ∧ ((searchLayout request root : StateM FileTree _).run u) = (none, u) := by
  induction h with
  | @dir place rest t dir hdir =>
    refine ⟨rfl, run_searchLayout_of_unverified dir ?_⟩
    intro path hpath
    apply hnothing place List.mem_cons_self path
    rw [revisited, hdir]
    exact List.mem_append_left _ hpath
  | @own place rest t u dir cache hdir hcache hrun =>
    have hplace := hnothing place List.mem_cons_self
    rw [revisited, hdir, hcache] at hplace
    have hsame := run_searchLayout_of_unverified dir fun path hpath => hplace path (List.mem_append_left _ hpath)
    rw [hsame] at hrun
    cases hrun
    exact ⟨rfl, run_searchLayout_of_unverified cache fun path hpath => hplace path (List.mem_append_right _ hpath)⟩
  | @behind place rest t u v root hrun _ ih =>
    obtain rfl := eq_of_run_revisitPlace (hnothing place List.mem_cons_self) hrun
    apply ih
    intro other hother
    exact hnothing other (List.mem_cons_of_mem _ hother)

/-! ## The second tier without its looks -/

section Unpacking

variable {m : Type → Type} [Monad m] [FileSystem m]

/-- The debug file asked for from the package in the directory of a place, whatever lies in layouts. -/
def unpackPlace (request : DebugFileRequest) (place : SymbolPathElement) : m (Except SymbolError (Option FilePath)) :=
  match place.localDir? with
  | none => return .ok none
  | some dir => do
    match ← firstFile (request.packageNames.map dir.join) with
    | none => return .ok none
    | some package => findInPackage request package (place.ownCache?.getD dir)

/-- The debug file asked for from the first package that has it, unless a package before it is at fault. -/
def unpackPlaces (request : DebugFileRequest) : List SymbolPathElement → m (Except SymbolError (Option FilePath))
  | [] => return .ok none
  | place :: rest => do
    match ← unpackPlace request place with
    | .error e => return .error e
    | .ok (some path) => return .ok (some path)
    | .ok none => unpackPlaces request rest

end Unpacking

theorem run_revisitPlace_eq (h : ∀ path ∈ revisited request place, ¬ Verified request path t) :
    ((revisitPlace request place : StateM FileTree _).run t) = ((unpackPlace request place : StateM FileTree _).run t) := by
  unfold revisitPlace unpackPlace
  cases hdir : place.localDir? with
  | none => rfl
  | some dir =>
    rw [revisited, hdir] at h
    simp only [run_revisitDir h, run_bind, run_firstFile, packageIn?]
    cases (request.packageNames.map dir.join).find? (t.isFile ·) <;> rfl

/-- **The looks of the second tier make no difference** where no layout has the debug file. -/
theorem run_revisitPlaces_eq {places : List SymbolPathElement} (h : NothingIn request t places) :
    ((revisitPlaces request places : StateM FileTree _).run t) =
      ((unpackPlaces request places : StateM FileTree _).run t) := by
  induction places with
  | nil => rfl
  | cons place rest ih =>
    have hplace := h place List.mem_cons_self
    simp only [revisitPlaces, unpackPlaces, run_bind, ← run_revisitPlace_eq hplace]
    rcases hrun : ((revisitPlace request place : StateM FileTree _).run t) with ⟨_ | _ | path, u⟩
    · rfl
    · -- the place gives nothing, so the search goes on with the files as they are
      obtain rfl := eq_of_run_revisitPlace hplace hrun
      exact ih fun other hother => h other (List.mem_cons_of_mem _ hother)
    · rfl

/-! ## What the second tier finds -/

/-- What is found in a package has been extracted, and verifying it leaves the files as the extraction has left them. -/
theorem run_extract_of_run_findInPackage
    (hrun : ((findInPackage request package root : StateM FileTree _).run t) = (.ok (some path), t')) :
    path = packageDest request root ∧
      ((extract package request.name path : StateM FileTree _).run t) = (.ok true, t') := by
  have hdest : root.join (request.layout request.debugId.nativeKey) = packageDest request root := rfl
  simp only [findInPackage, run_bind, hdest] at hrun
  cases hextract : ((extract package request.name (packageDest request root) : StateM FileTree _).run t).1 with
  | error e =>
    rw [hextract] at hrun
    cases hrun
  | ok isThere =>
    rw [hextract] at hrun
    cases isThere with
    | false => cases hrun
    | true =>
      simp only [run_bind, run_verify_eq] at hrun
      split at hrun
      · cases hrun
        exact ⟨rfl, Prod.ext hextract rfl⟩
      · cases hrun

/-- **The second tier finds nothing but packages.** Where the first tier finds nothing, each look through a layout that
the second tier takes is in vain, and a path that is found leads to a file that this search has extracted from the
package of a place. -/
theorem find_only_extracts (h : ((s.search request : StateM FileTree _).run t).1 = none) :
    (∀ root u, LooksThrough request s.path.elements t root u →
      ((searchLayout request root : StateM FileTree _).run u) = (none, u)) ∧
    ((s.find request : StateM FileTree _).run t) = ((unpackPlaces request s.path.elements : StateM FileTree _).run t) ∧
    ∀ path t', ((s.find request : StateM FileTree _).run t) = (.ok (some path), t') →
      ∃ place ∈ s.path.elements, ∃ dir package, place.localDir? = some dir ∧ packageIn? request t dir = some package ∧
        path = packageDest request (place.ownCache?.getD dir) ∧
        ((extract package request.name path : StateM FileTree _).run t) = (.ok true, t') := by
  have hnothing := nothingIn_of_run_search h
  refine ⟨?_, ?_, ?_⟩
  · intro root u hlooks
    exact (hlooks.run_searchLayout hnothing).2
  · have hsearch : ((s.search request : StateM FileTree _).run t) = (none, t) := by
      rw [run_search] at h ⊢
      exact Prod.ext h rfl
    rw [find, run_bind, hsearch]
    exact run_revisitPlaces_eq hnothing
  · intro path t' hfind
    obtain ⟨first, hfirst, -⟩ | ⟨-, ⟨-, hrun⟩ | ⟨place, hplace, package, root, hdecides, hrun⟩⟩ := find_cases s request t
    · rw [run_search, hfirst] at h
      cases h
    · rw [hrun] at hfind
      cases hfind
    · rw [hrun] at hfind
      obtain ⟨hpath, hextract⟩ := run_extract_of_run_findInPackage hfind
      obtain ⟨dir, hdir, hpackage, rfl⟩ := hdecides.dir
      exact ⟨place, hplace, dir, package, hdir, hpackage, hpath, hextract⟩

/-- With a package behind a directory that does not exist, the cache of the store is looked through, and is left to the
package. -/
theorem find_only_extracts_crossing : ((crossing.search packedRequest : StateM FileTree _).run packed).1 = none ∧
    LooksThrough packedRequest crossing.path.elements packed ⟨"x"⟩ packed ∧
    ((searchLayout packedRequest ⟨"x"⟩ : StateM FileTree _).run packed) = (none, packed) ∧
    ∃ place ∈ crossing.path.elements, ∃ dir package, place.localDir? = some dir ∧
      packageIn? packedRequest packed dir = some package ∧
      ⟨"x/a/000000000000000000000000000000001/a"⟩ = packageDest packedRequest (place.ownCache?.getD dir) ∧
      ((extract package "a" ⟨"x/a/000000000000000000000000000000001/a"⟩ : StateM FileTree _).run packed) =
        (.ok true, unpacked) := by
  have hsearch : ((crossing.search packedRequest : StateM FileTree _).run packed).1 = none := by
    rw [run_search]
    exact List.find?_eq_none.2 (by decide +kernel)
  have hnothing := nothingIn_of_run_search hsearch
  have hlooks : LooksThrough packedRequest crossing.path.elements packed ⟨"x"⟩ packed := by
    apply LooksThrough.behind
    · have hpasses : Passes packedRequest packed (.directory ⟨"x/../s"⟩) := by
        rintro _ ⟨⟩ package hpackage
        have hno : packageIn? packedRequest packed ⟨"x/../s"⟩ = none := by decide +kernel
        rw [hno] at hpackage
        cases hpackage
      exact run_revisitPlace_of_passes hpasses (hnothing _ List.mem_cons_self)
    · apply LooksThrough.own rfl rfl
      apply run_searchLayout_of_unverified
      decide +kernel
  obtain ⟨hlook, -, hextracted⟩ := find_only_extracts hsearch
  exact ⟨hsearch, hlooks, hlook _ _ hlooks, hextracted _ _ run_find_crossing⟩

end Symbolicate.SymbolStore
