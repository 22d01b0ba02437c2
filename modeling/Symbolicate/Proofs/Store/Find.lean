import Mathlib.Tactic.Common
import Symbolicate.Proofs.Store.Packages

/-!
# What a search finds

A search ends with the first candidate that is verified, or else with what packages give (`find_cases`): the layouts that
its second tier looks through are candidates too (`mem_candidates_of_revisited`), so they are not found there. Nothing
that is on the path is missed (`find_misses_nothing`).
-/

namespace Symbolicate.SymbolStore

open SymbolPackage

variable {request : DebugFileRequest} {t : FileTree} {s : SymbolStore} {path : FilePath} {place : SymbolPathElement}

/-! ## Candidates of places -/

theorem mem_candidates_of_place (request : DebugFileRequest) (hplace : place ∈ s.path.elements) :
    ∃ downstream, ∀ path ∈ candidatesIn request downstream place, path ∈ s.candidates request := by
  obtain ⟨i, hi, rfl⟩ := List.getElem_of_mem hplace
  exact ⟨_, fun path hpath => List.mem_flatten.2 ⟨_, List.mem_mapIdx.2 ⟨i, hi, rfl⟩, hpath⟩⟩

theorem mem_candidatesIn_of_revisited (downstream : FilePath) (h : path ∈ revisited request place) :
    path ∈ candidatesIn request downstream place := by
  cases place with
  | directory dir =>
    simp only [revisited, SymbolPathElement.localDir?, SymbolPathElement.ownCache?, Option.elim_none,
      List.append_nil] at h
    exact List.mem_cons_of_mem _ h
  | cache dir =>
    simp only [revisited, SymbolPathElement.localDir?, SymbolPathElement.ownCache?, Option.elim_none,
      List.append_nil] at h
    exact h
  | store own target =>
    simp only [revisited, SymbolPathElement.localDir?, SymbolPathElement.ownCache?] at h
    by_cases hremote : SymbolPathElement.isRemoteTarget target = true
    · simp [hremote] at h
    · simp only [hremote, Bool.false_eq_true, if_false, List.mem_append] at h
      simp only [candidatesIn, hremote, Bool.false_eq_true, if_false, List.mem_append]
      cases own with
      | none => exact .inr (h.resolve_right List.not_mem_nil)
      | some cache => exact h.symm

/-- The second tier looks again through candidates only. -/
theorem mem_candidates_of_revisited (hplace : place ∈ s.path.elements) (h : path ∈ revisited request place) :
    path ∈ s.candidates request := by
  obtain ⟨downstream, hsub⟩ := mem_candidates_of_place request hplace
  exact hsub path (mem_candidatesIn_of_revisited downstream h)

/-! ## Searches -/

/-- A search ends with the first candidate that is verified. If there is none, it passes all places, or it ends with
what the package of the first other one gives. -/
theorem find_cases (s : SymbolStore) (request : DebugFileRequest) (t : FileTree) :
    (∃ path, (s.candidates request).find? (Verified request · t) = some path ∧
        ((s.find request : StateM FileTree _).run t) = (.ok (some path), t)) ∨
      (∀ path ∈ s.candidates request, ¬ Verified request path t) ∧
        ((∀ place ∈ s.path.elements, Passes request t place) ∧
            ((s.find request : StateM FileTree _).run t) = (.ok none, t) ∨
          ∃ place ∈ s.path.elements, ∃ package root, Decides request t place package root ∧
            ((s.find request : StateM FileTree _).run t) =
              ((findInPackage request package root : StateM FileTree _).run t)) := by
  unfold find
  rw [run_bind, run_search]
  cases hfirst : (s.candidates request).find? (Verified request · t) with
  | some path => exact .inl ⟨path, rfl, rfl⟩
  | none =>
    have hnone : ∀ path ∈ s.candidates request, ¬ Verified request path t := by
      simpa using List.find?_eq_none.1 hfirst
    exact .inr ⟨hnone, revisit_cases fun place hplace path hpath =>
      hnone path (mem_candidates_of_revisited hplace hpath)⟩

/-- A place has no debug file in a package: no version is asked for, no file has the name of a package of this version,
or the package lacks the debug file. -/
def HasNothingPacked (request : DebugFileRequest) (t : FileTree) (place : SymbolPathElement) : Prop :=
  ∃ dir, place.localDir? = some dir ∧
    (request.version = none ∨ (∀ name ∈ request.packageNames, t.isFile (dir.join name) = false) ∨
      ∃ package, packageIn? request t dir = some package ∧ Lacks t package request.name)

theorem localDir?_eq_none_iff : place.localDir? = none ↔ place.isRemote = true := by
  cases place with
  | directory dir => simp [SymbolPathElement.localDir?, SymbolPathElement.isRemote]
  | cache dir => simp [SymbolPathElement.localDir?, SymbolPathElement.isRemote]
  | store own target =>
    by_cases h : SymbolPathElement.isRemoteTarget target = true <;>
      simp [SymbolPathElement.localDir?, SymbolPathElement.isRemote, h]

theorem packageIn?_eq_none_iff {dir : FilePath} :
    packageIn? request t dir = none ↔ ∀ name ∈ request.packageNames, t.isFile (dir.join name) = false := by
  simp [packageIn?]

/-- The places that are passed are those on servers and those with nothing packed. -/
theorem passes_iff : Passes request t place ↔ (place.isRemote = false → HasNothingPacked request t place) := by
  cases hdir : place.localDir? with
  | none => simp [Passes, hdir, localDir?_eq_none_iff.1 hdir]
  | some dir =>
    have hlocal : place.isRemote = false := by
      rw [← Bool.not_eq_true, ← localDir?_eq_none_iff, hdir]
      exact Option.some_ne_none dir
    constructor
    · intro h _
      refine ⟨dir, hdir, .inr ?_⟩
      cases hpackage : packageIn? request t dir with
      | none => exact .inl (packageIn?_eq_none_iff.1 hpackage)
      | some package => exact .inr ⟨package, rfl, h dir hdir package hpackage⟩
    · intro h dir' hdir' package hpackage
      obtain ⟨_, hsome, hcases⟩ := h hlocal
      obtain rfl : dir' = _ := Option.some_inj.1 (hdir'.symm.trans hsome)
      obtain hversion | hnone | ⟨other, hother, hlacks⟩ := hcases
      · simp [packageIn?, DebugFileRequest.packageNames, hversion] at hpackage
      · rw [packageIn?_eq_none_iff.2 hnone] at hpackage
        cases hpackage
      · rw [hother] at hpackage
        cases hpackage
        exact hlacks

/-- **A search respects priority and misses nothing.** It finds the first candidate that is verified and changes no file,
whatever else lies on the path. If there is none, it goes to packages, and finds nothing exactly if no local place has
the debug file in a package. -/
theorem find_misses_nothing (s : SymbolStore) (request : DebugFileRequest) (t : FileTree) :
    (∀ path, (s.candidates request).find? (Verified request · t) = some path →
        ((s.find request : StateM FileTree _).run t) = (.ok (some path), t)) ∧
      ((∀ path ∈ s.candidates request, ¬ Verified request path t) →
        ((s.find request : StateM FileTree _).run t) =
            ((revisitPlaces request s.path.elements : StateM FileTree _).run t) ∧
          (((s.find request : StateM FileTree _).run t).1 = .ok none ↔
            ∀ place ∈ s.path.elements, place.isRemote = false → HasNothingPacked request t place)) := by
  constructor
  · intro path hpath
    obtain ⟨first, hfirst, hrun⟩ | ⟨hnone, -⟩ := find_cases s request t
    · rw [hpath] at hfirst
      cases hfirst
      exact hrun
    · have hverified : Verified request path t := by simpa using List.find?_some hpath
      exact absurd hverified (hnone path (List.mem_of_find?_eq_some hpath))
  · intro hnone
    have hfirst : (s.candidates request).find? (Verified request · t) = none := List.find?_eq_none.2 (by simpa using hnone)
    refine ⟨by rw [find, run_bind, run_search, hfirst], ?_⟩
    simp only [← passes_iff]
    obtain ⟨path, hpath, -⟩ | ⟨-, ⟨hall, hrun⟩ | ⟨place, hplace, package, root, hdecides, hrun⟩⟩ := find_cases s request t
    · rw [hfirst] at hpath
      cases hpath
    · exact ⟨fun _ => hall, fun _ => by rw [hrun]⟩
    · -- the package that decides does not give nothing
      rw [hrun]
      obtain ⟨dir, hdir, hpackage, -⟩ := hdecides.dir
      exact ⟨fun h => absurd (lacks_of_run_findInPackage h) hdecides.not_lacks,
        fun h => absurd (h place hplace dir hdir package hpackage) hdecides.not_lacks⟩

end Symbolicate.SymbolStore
