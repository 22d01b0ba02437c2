import Mathlib.Tactic.Common
import Symbolicate.Proofs.Store.Stable

/-!
# Targets of stores

The target of a store is a directory or a server. It is taken for a server if it starts with `http` in either case
(`isRemoteTarget_iff`), and for a directory otherwise.

Main statement: a directory is searched, its layout at once and its package when no candidate is verified, and all
targets that are taken for servers are searched alike, whatever they are (`targets_searched`).
-/

namespace Symbolicate

namespace SymbolPathElement

/-- The target starts with `http`, in either case. -/
def StartsWithHttp (target : String) : Prop := "http".toList <+: target.toList.map Char.toLower

/-- The target starts with the scheme of a server and its separators, in either case. -/
def IsUrl (target : String) : Prop :=
  "http://".toList <+: target.toList.map Char.toLower ∨ "https://".toList <+: target.toList.map Char.toLower

/-- The first four characters alone tell which targets are taken for servers. -/
theorem isRemoteTarget_iff {target : String} : isRemoteTarget target = true ↔ StartsWithHttp target := by
  have hlower : "http".toList.map Char.toLower = "http".toList := by decide
  have hlength : "http".toList.length = 4 := by decide
  rw [isRemoteTarget, Text.eqIgnoringCase, beq_iff_eq, StartsWithHttp, List.prefix_iff_eq_take, hlower, hlength,
    List.map_take]
  exact eq_comm

end SymbolPathElement

namespace SymbolStore

open SymbolPackage SymbolPathElement

variable {request : DebugFileRequest} {t : FileTree} {s : SymbolStore} {path package root : FilePath}
  {before after : List SymbolPathElement} {place : SymbolPathElement} {own : Option FilePath} {target other : String}

/-! ## Directories -/

theorem localDir?_of_not_startsWithHttp (h : ¬ StartsWithHttp target) (own : Option FilePath) :
    (SymbolPathElement.store own target).localDir? = some ⟨target⟩ := by
  rw [← isRemoteTarget_iff] at h
  simp [localDir?, h]

/-- What lies in the layout of a place's directory is found, unless something else is found first. -/
theorem exists_run_find_of_layout (hplace : place ∈ s.path.elements) {dir : FilePath}
    (hdir : place.localDir? = some dir) (hpath : path ∈ layouts request dir) (hverified : Verified request path t) :
    ∃ first, ((s.find request : StateM FileTree _).run t) = (.ok (some first), t) ∧ Verified request first t := by
  have hrevisited : path ∈ revisited request place := by
    rw [revisited, hdir]
    exact List.mem_append_left _ hpath
  obtain ⟨first, hfirst, hrun⟩ := exists_run_find (mem_candidates_of_revisited hplace hrevisited) hverified
  exact ⟨first, hrun, by simpa using List.find?_some hfirst⟩

/-! ## Packages -/

/-- How a search ends that comes to a package, with the places before and behind that of the package. -/
inductive Considers (request : DebugFileRequest) (t : FileTree) (before after : List SymbolPathElement)
    (package root : FilePath) (outcome : Except SymbolError (Option FilePath) × FileTree) : Prop
  /-- A package before it decides. -/
  | before {other : SymbolPathElement} {package' root' : FilePath} (hmem : other ∈ before)
      (hdecides : Decides request t other package' root')
      (hrun : outcome = ((findInPackage request package' root' : StateM FileTree _).run t))
  /-- The package itself decides. -/
  | here (hbefore : ∀ place ∈ before, Passes request t place) (hnot : ¬ Lacks t package request.name)
      (hrun : outcome = ((findInPackage request package root : StateM FileTree _).run t))
  /-- The package lacks the debug file, and the search goes on. -/
  | behind (hbefore : ∀ place ∈ before, Passes request t place) (hlacks : Lacks t package request.name)
      (hrun : outcome = ((revisitPlaces request after : StateM FileTree _).run t))

theorem run_find_of_unverified (h : ∀ path ∈ s.candidates request, ¬ Verified request path t) :
    ((s.find request : StateM FileTree _).run t) =
      ((revisitPlaces request s.path.elements : StateM FileTree _).run t) := by
  rw [find, run_bind, run_search, List.find?_eq_none.2 (by simpa using h)]

/-- **A search considers the package of each place** when no candidate is verified. -/
theorem considers (hpath : s.path.elements = before ++ place :: after) {dir : FilePath}
    (hdir : place.localDir? = some dir) (hpackage : packageIn? request t dir = some package)
    (h : ∀ path ∈ s.candidates request, ¬ Verified request path t) :
    Considers request t before after package (place.ownCache?.getD dir) ((s.find request : StateM FileTree _).run t) := by
  have hunverified : ∀ other ∈ s.path.elements, ∀ path ∈ revisited request other, ¬ Verified request path t :=
    fun other hother path hrevisited => h path (mem_candidates_of_revisited hother hrevisited)
  rw [hpath] at hunverified
  have hplace : ∀ path ∈ revisited request place, ¬ Verified request path t := hunverified place (by simp)
  rw [run_find_of_unverified h, hpath]
  obtain ⟨hbefore, hrun⟩ | ⟨_, other, _, _, _, rfl, -, hdecides, hrun⟩ := revisit_append_cases (place :: after)
    fun other hother => hunverified other (List.mem_append_left _ hother)
  · obtain ⟨hpasses, hrest⟩ | ⟨found, own, hdecides, hfound⟩ := run_revisitPlaces_cons after hplace
    · exact .behind hbefore (hpasses dir hdir package hpackage) (hrun.trans hrest)
    · -- the package that decides here is the one of the place
      obtain ⟨_, hdir', hpackage', rfl⟩ := hdecides.dir
      cases hdir.symm.trans hdir'
      cases hpackage.symm.trans hpackage'
      exact .here hbefore hdecides.not_lacks (hrun.trans hfound)
  · exact .before (by simp) hdecides hrun

/-! ## Servers -/

section Servers

variable {m : Type → Type} [Monad m] [FileSystem m]

theorem searchPlace_alike (h : StartsWithHttp target) (hother : StartsWithHttp other) (downstream : FilePath) :
    (searchPlace request downstream (.store own target) : m _) = searchPlace request downstream (.store own other) := by
  simp only [searchPlace, isRemoteTarget_iff.2 h, isRemoteTarget_iff.2 hother, if_true, searchServer]

theorem searchPlaces_alike (h : StartsWithHttp target) (hother : StartsWithHttp other) (downstream : FilePath) :
    (searchPlaces request downstream (before ++ .store own target :: after) : m _) =
      searchPlaces request downstream (before ++ .store own other :: after) := by
  induction before generalizing downstream with
  | nil => simp only [List.nil_append, searchPlaces, searchPlace_alike h hother, downstreamOf]
  | cons place before ih => simp only [List.cons_append, searchPlaces, ih]

theorem revisitPlaces_alike (h : StartsWithHttp target) (hother : StartsWithHttp other) :
    (revisitPlaces request (before ++ .store own target :: after) : m _) =
      revisitPlaces request (before ++ .store own other :: after) := by
  induction before with
  | nil =>
    simp only [List.nil_append, revisitPlaces, revisitPlace, localDir?, isRemoteTarget_iff.2 h,
      isRemoteTarget_iff.2 hother, if_true]
  | cons place before ih => simp only [List.cons_append, revisitPlaces, ih]

/-- **Targets that are taken for servers are searched alike**, whatever the files live in. -/
theorem find_alike (hpath : s.path.elements = before ++ .store own target :: after) (h : StartsWithHttp target)
    (hother : StartsWithHttp other) :
    (s.find request : m _) =
      find ⟨⟨before ++ .store own other :: after⟩, s.defaultCache, s.timeout⟩ request := by
  simp only [find, search, hpath, searchPlaces_alike h hother, revisitPlaces_alike h hother]

end Servers

/-! ## Targets -/

/-- **Stores are searched in their targets, unless these start with `http`.** A debug file in the layout of such a target
is found, or another one before it. If no candidate is verified, the package in the target is considered. A target that
starts with `http` is not looked into: any other one gives the same. -/
theorem targets_searched (hpath : s.path.elements = before ++ .store own target :: after) :
    (¬ StartsWithHttp target →
      (∀ key ∈ request.debugId.searchKeys, Verified request (FilePath.join ⟨target⟩ (request.layout key)) t →
        ∃ path, ((s.find request : StateM FileTree _).run t) = (.ok (some path), t) ∧ Verified request path t) ∧
      ((∀ path ∈ s.candidates request, ¬ Verified request path t) →
        ∀ package, packageIn? request t ⟨target⟩ = some package →
          Considers request t before after package (own.getD ⟨target⟩) ((s.find request : StateM FileTree _).run t))) ∧
    (StartsWithHttp target → ∀ other, StartsWithHttp other →
      ((s.find request : StateM FileTree _).run t) =
        ((find ⟨⟨before ++ .store own other :: after⟩, s.defaultCache, s.timeout⟩ request :
          StateM FileTree _).run t)) := by
  refine ⟨fun hlocal => ?_, fun h other hother => by rw [find_alike hpath h hother]⟩
  have hdir := localDir?_of_not_startsWithHttp hlocal own
  constructor
  · intro key hkey hverified
    have hplace : .store own target ∈ s.path.elements := by simp [hpath]
    exact exists_run_find_of_layout hplace hdir (List.mem_map.2 ⟨key, hkey, rfl⟩) hverified
  · intro hnone package hpackage
    exact considers hpath hdir hpackage hnone

/-! ## A directory that is taken for a server -/

/-- The debug file in the layout of a directory. -/
def storedIn (target : String) : FileTree := ⟨[([target], .dir), ([target, "a"], .dir),
  ([target, "a", "000000000000000000000000000000001"], .dir),
  ([target, "a", "000000000000000000000000000000001", "a"], .file emptyFile)], []⟩

/-- A store without a cache of its own. -/
def storeAt (target : String) : SymbolStore := ⟨⟨[.store none target]⟩, ⟨"c"⟩, 30⟩

/-- The debug file is found in a directory whose name starts otherwise. -/
theorem targets_searched_directory : (storeAt "htdocs").path.elements = [] ++ .store none "htdocs" :: [] ∧
    ¬ StartsWithHttp "htdocs" ∧
    Verified packedRequest (FilePath.join ⟨"htdocs"⟩ (packedRequest.layout packedRequest.debugId.nativeKey))
      (storedIn "htdocs") ∧
    ∃ path, (((storeAt "htdocs").find packedRequest : StateM FileTree _).run (storedIn "htdocs")) =
      (.ok (some path), storedIn "htdocs") ∧ Verified packedRequest path (storedIn "htdocs") := by
  have hlocal : ¬ StartsWithHttp "htdocs" := by unfold StartsWithHttp; decide
  have hverified : Verified packedRequest
      (FilePath.join ⟨"htdocs"⟩ (packedRequest.layout packedRequest.debugId.nativeKey)) (storedIn "htdocs") := by
    decide +kernel
  have hpath : (storeAt "htdocs").path.elements = [] ++ .store none "htdocs" :: [] := rfl
  have hkey : packedRequest.debugId.nativeKey ∈ packedRequest.debugId.searchKeys :=
    List.mem_append_left _ List.mem_cons_self
  exact ⟨hpath, hlocal, hverified, ((targets_searched hpath).1 hlocal).1 _ hkey hverified⟩

/-- Not all stores that are no servers are searched in their targets. -/
theorem not_all_targets_searched : ¬ ∀ (s : SymbolStore) (request : DebugFileRequest) (t : FileTree)
    (own : Option FilePath) (target : String), t.IsTree → .store own target ∈ s.path.elements → ¬ IsUrl target →
    ∀ key ∈ request.debugId.searchKeys, Verified request (FilePath.join ⟨target⟩ (request.layout key)) t →
      ∃ path t', ((s.find request : StateM FileTree _).run t) = (.ok (some path), t') := by
  intro hall
  have hurl : ¬ IsUrl "httpd" := by unfold IsUrl; decide
  have hverified : Verified packedRequest
      (FilePath.join ⟨"httpd"⟩ (packedRequest.layout packedRequest.debugId.nativeKey)) (storedIn "httpd") := by
    decide +kernel
  obtain ⟨path, t', hfound⟩ := hall (storeAt "httpd") packedRequest (storedIn "httpd") none "httpd" (by decide)
    List.mem_cons_self hurl _ (List.mem_append_left _ List.mem_cons_self) hverified
  have hnone : (((storeAt "httpd").find packedRequest : StateM FileTree _).run (storedIn "httpd")).1 = .ok none := by
    decide +kernel
  rw [hfound] at hnone
  cases hnone

end SymbolStore

end Symbolicate
