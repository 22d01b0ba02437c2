import Mathlib.Tactic.Common
import Symbolicate.Proofs.DebugFile.Identity
import Symbolicate.Proofs.Files.Maps
import Symbolicate.Proofs.Store.Candidates
import Symbolicate.Store.Symbols

/-!
# What symbol stores find has been verified

A search of debug files only looks: the files stay as they are, and it finds the first candidate that is verified
(`run_search`). A search that comes to packages may extract files, but it ends with a verified file of its own last state
(`endsVerified_find`). So what is loaded for a module comes from a file that is there when it has been loaded, and that
is the one the module asks for (`isLoaded_of_load`).
-/

namespace Symbolicate

namespace SymbolStore

variable {request : DebugFileRequest} {t : FileTree}

/-! ## Verified paths -/

/-- A path leads to a file with the identity asked for. -/
def Verified (request : DebugFileRequest) (path : FilePath) (t : FileTree) : Prop :=
  t.isFile path = true ∧ ∃ b identity, t.read path = .ok b ∧ DebugFileIdentity.read b = .ok identity ∧
    identity.matchesId request.debugId = true

/-- Verifying leaves the files as they are, and means what it says. -/
theorem run_verify (path : FilePath) (t : FileTree) :
    ((verify request path : StateM FileTree Bool).run t).2 = t ∧
      (((verify request path : StateM FileTree Bool).run t).1 = true → Verified request path t) := by
  rw [verify, run_bind, run_isFile]
  cases hisFile : t.isFile path with
  | false => exact ⟨rfl, fun h => by cases h⟩
  | true =>
    simp only [if_true]
    rw [run_bind, run_peekAt]
    cases hread : t.read path with
    | error e => exact ⟨rfl, fun h => by cases h⟩
    | ok b =>
      cases hidentity : DebugFileIdentity.read b with
      | error e =>
        simp only [hidentity]
        exact ⟨rfl, fun h => by cases h⟩
      | ok identity =>
        simp only [hidentity]
        exact ⟨rfl, fun h => ⟨hisFile, b, identity, hread, hidentity, h⟩⟩

/-- Whether a path is verified can be found out. -/
def isVerified (request : DebugFileRequest) (t : FileTree) (path : FilePath) : Bool :=
  ((verify request path : StateM FileTree Bool).run t).1

theorem run_verify_eq (path : FilePath) :
    ((verify request path : StateM FileTree Bool).run t) = (isVerified request t path, t) :=
  Prod.ext rfl (run_verify path t).1

theorem isVerified_iff {path : FilePath} : isVerified request t path = true ↔ Verified request path t := by
  constructor
  · exact (run_verify path t).2
  · rintro ⟨hfile, b, identity, hread, hidentity, hmatch⟩
    simp only [isVerified, verify, run_bind, run_isFile, hfile, if_true, run_peekAt, hread, hidentity]
    exact hmatch

instance (path : FilePath) : Decidable (Verified request path t) := decidable_of_iff _ isVerified_iff

/-- A path is verified if it leads to a file that carries the identity. -/
theorem verified_iff {path : FilePath} : Verified request path t ↔
    ∃ l b identity, t.locate path = .ok l ∧ t.contents? l = some b ∧ DebugFileIdentity.read b = .ok identity ∧
      identity.matchesId request.debugId = true := by
  simp only [Verified, FileTree.isFile_iff, FileTree.read_eq_ok]
  constructor
  · rintro ⟨-, b, identity, ⟨l, hl, hb⟩, hidentity, hmatch⟩
    exact ⟨l, b, identity, hl, hb, hidentity, hmatch⟩
  · rintro ⟨l, b, identity, hl, hb, hidentity, hmatch⟩
    exact ⟨⟨l, b, hl, hb⟩, b, identity, ⟨l, hl, hb⟩, hidentity, hmatch⟩

/-! ## Searches -/

theorem run_firstVerified (paths : List FilePath) :
    ((firstVerified request paths : StateM FileTree _).run t) = (paths.find? (Verified request · t), t) := by
  induction paths with
  | nil => rfl
  | cons path rest ih =>
    rw [firstVerified, run_bind, run_verify_eq]
    cases h : isVerified request t path with
    | false =>
      have hnot : ¬ Verified request path t := fun hv => by rw [isVerified_iff.2 hv] at h; cases h
      rw [List.find?_cons_of_neg (by simpa using hnot)]
      exact ih
    | true =>
      rw [List.find?_cons_of_pos (by simpa using isVerified_iff.1 h)]
      rfl

/-- **A search finds the first candidate that is verified**, and leaves the files as they are. -/
theorem run_search (s : SymbolStore) (t : FileTree) :
    ((s.search request : StateM FileTree _).run t) = ((s.candidates request).find? (Verified request · t), t) := by
  rw [search_eq]
  exact run_firstVerified _

/-- A search that leaves the files as they are and finds only what is verified. -/
def OnlyFinds (request : DebugFileRequest) (x : StateM FileTree (Option FilePath)) : Prop :=
  ∀ t, (x.run t).2 = t ∧ ∀ path, (x.run t).1 = some path → Verified request path t

theorem onlyFinds_none : OnlyFinds request (pure none) := fun _ => ⟨rfl, fun _ h => by cases h⟩

theorem onlyFinds_firstVerified (paths : List FilePath) : OnlyFinds request (firstVerified request paths) := by
  intro t
  rw [run_firstVerified]
  exact ⟨rfl, fun path hpath => by simpa using List.find?_some hpath⟩

theorem onlyFinds_searchLayout (root : FilePath) : OnlyFinds request (searchLayout request root) :=
  onlyFinds_firstVerified _

/-- **A search of debug files only looks**, and finds what is verified. -/
theorem onlyFinds_search (s : SymbolStore) : OnlyFinds request (s.search request) := by
  rw [search_eq]
  exact onlyFinds_firstVerified _

/-! ## Packages -/

/-- What a search ends with is verified in the files as they are then. -/
def EndsVerified (request : DebugFileRequest) (x : StateM FileTree (Except SymbolError (Option FilePath))) : Prop :=
  ∀ t path, (x.run t).1 = .ok (some path) → Verified request path (x.run t).2

theorem endsVerified_none : EndsVerified request (pure (.ok none)) := fun _ _ h => by cases h

theorem endsVerified_error (e : SymbolError) : EndsVerified request (pure (.error e)) := fun _ _ h => by cases h

/-- Only the last of several steps counts. -/
theorem EndsVerified.bind {α : Type} {x : StateM FileTree α} {f : α → StateM FileTree (Except SymbolError (Option FilePath))}
    (h : ∀ a, EndsVerified request (f a)) : EndsVerified request (x >>= f) :=
  fun _ path hpath => h _ _ path hpath

/-- What a search finds that only looks is what the whole ends with. -/
theorem OnlyFinds.endsVerified {x : StateM FileTree (Option FilePath)}
    {y : StateM FileTree (Except SymbolError (Option FilePath))} (hx : OnlyFinds request x) (hy : EndsVerified request y) :
    EndsVerified request
      (x >>= fun found => match found with | some path => pure (.ok (some path)) | none => y) := by
  intro t path hpath
  obtain ⟨hstate, hfound⟩ := hx t
  rw [run_bind, hstate] at hpath ⊢
  cases hr : (x.run t).1 with
  | none =>
    rw [hr] at hpath
    exact hy t path hpath
  | some _ =>
    rw [hr] at hpath
    cases hpath
    exact hfound path hr

/-- A path is taken if it is verified, and else the search goes on. -/
theorem EndsVerified.verifyFirst {y : StateM FileTree (Except SymbolError (Option FilePath))}
    (hy : EndsVerified request y) (path : FilePath) :
    EndsVerified request
      (verify request path >>= fun isVerified => if isVerified then pure (.ok (some path)) else y) := by
  intro t found hfound
  obtain ⟨hstate, hverified⟩ := run_verify path t
  rw [run_bind, hstate] at hfound ⊢
  cases hr : ((verify request path : StateM FileTree Bool).run t).1 with
  | false =>
    rw [hr] at hfound
    exact hy t found hfound
  | true =>
    rw [hr] at hfound
    cases hfound
    exact hverified hr

/-- A file that has been extracted counts only if it is verified. -/
theorem endsVerified_findInPackage (package root : FilePath) :
    EndsVerified request (findInPackage request package root) := by
  refine EndsVerified.bind fun extracted => ?_
  rcases extracted with e | isThere
  · exact endsVerified_error e
  · cases isThere with
    | false => exact endsVerified_none
    | true =>
      have hremoved : EndsVerified request (do
          FileSystem.remove (root.join (request.layout request.debugId.nativeKey))
          return .error (.archiveMismatch ⟨request.name, package, request.debugId⟩)) :=
        EndsVerified.bind fun _ => endsVerified_error _
      exact hremoved.verifyFirst _

theorem endsVerified_revisitDir (own : Option FilePath) (dir : FilePath) :
    EndsVerified request (revisitDir request own dir) := by
  refine (onlyFinds_searchLayout dir).endsVerified ?_
  cases own with
  | none =>
    refine onlyFinds_none.endsVerified (EndsVerified.bind ?_)
    rintro (_ | package)
    · exact endsVerified_none
    · exact endsVerified_findInPackage package _
  | some cache =>
    refine (onlyFinds_searchLayout cache).endsVerified (EndsVerified.bind ?_)
    rintro (_ | package)
    · exact endsVerified_none
    · exact endsVerified_findInPackage package _

theorem endsVerified_revisitPlace (place : SymbolPathElement) : EndsVerified request (revisitPlace request place) := by
  unfold revisitPlace
  cases place.localDir? with
  | none => exact endsVerified_none
  | some dir => exact endsVerified_revisitDir _ dir

theorem endsVerified_revisitPlaces (places : List SymbolPathElement) :
    EndsVerified request (revisitPlaces request places) := by
  induction places with
  | nil => exact endsVerified_none
  | cons place rest ih =>
    intro t path hpath
    have hplace : EndsVerified request (revisitPlace request place) := endsVerified_revisitPlace place
    simp only [revisitPlaces, run_bind] at hpath ⊢
    cases hr : ((revisitPlace request place : StateM FileTree _).run t).1 with
    | error e => rw [hr] at hpath; cases hpath
    | ok found =>
      rw [hr] at hpath
      cases found with
      | none => exact ih _ path hpath
      | some _ => cases hpath; exact hplace t path hr

/-- **What a store finds is verified** in the files as they are when it has been found. -/
theorem endsVerified_find (s : SymbolStore) : EndsVerified request (s.find request) :=
  (onlyFinds_search s).endsVerified (endsVerified_revisitPlaces _)

/-! ## Loading -/

/-- Some path leads to a file that reads as a debug file, and this is the one with an identity. -/
def HasDebugFile (t : FileTree) (id : DebugId) (file : DebugFile) : Prop :=
  ∃ path b, t.isFile path = true ∧ t.read path = .ok b ∧ DebugFile.read b = .ok file ∧ file.IsRequested id

/-- The debug file that has been loaded for a module: it was read from what lies at a location, its map shows what lies
there, and it is the one with an identity. -/
structure IsLoaded (t : FileTree) (id : DebugId) (l : List String) (b : Bytes) (file : MappedDebugFile Nat) : Prop where
  located : ∃ path, t.locate path = .ok l
  contents : t.contents? l = some b
  read : DebugFile.read b = .ok file.opened
  places : file.places = .of b
  follows : t.Follows file.map l b.length
  requested : file.opened.IsRequested id

theorem IsLoaded.hasDebugFile {id : DebugId} {l : List String} {b : Bytes} {file : MappedDebugFile Nat}
    (h : IsLoaded t id l b file) : HasDebugFile t id file.opened := by
  obtain ⟨path, hpath⟩ := h.located
  exact ⟨path, b, FileTree.isFile_iff.2 ⟨l, b, hpath, h.contents⟩, FileTree.read_eq_ok.2 ⟨l, hpath, h.contents⟩, h.read,
    h.requested⟩

/-- **What is loaded for a module comes from a file** that is there when it has been loaded, and that is the one the
module asks for. -/
theorem isLoaded_of_load {s : SymbolStore} {info : ModuleInfo} {file : MappedDebugFile Nat} {t t' : FileTree}
    (h : ((s.load info : StateM FileTree _).run t) = (.ok (some file), t')) :
    ∃ id l b, info.debugId = some id ∧ IsLoaded t' id l b file := by
  cases hid : info.debugId with
  | none =>
    have hrequest : info.request? = none := by rw [ModuleInfo.request?, hid, Option.map_none]
    simp only [load, hrequest] at h
    cases h
  | some id =>
    obtain ⟨request, hrequest, hdebugId⟩ : ∃ request, info.request? = some request ∧ request.debugId = id := by
      rw [ModuleInfo.request?, hid]
      exact ⟨_, rfl, rfl⟩
    have hfind : EndsVerified request (s.find request) := endsVerified_find s
    simp only [load, hrequest, run_bind] at h
    cases hr : ((s.find request : StateM FileTree _).run t).1 with
    | error e => rw [hr] at h; cases h
    | ok found =>
      cases found with
      | none => rw [hr] at h; cases h
      | some path =>
        obtain ⟨l, b, identity, hl, hb, hidentity, hmatch⟩ := verified_iff.1 (hfind t path hr)
        rw [hr] at h
        simp only [run_bind, run_mappedOpenAt hl hb, run_pure] at h
        cases hfile : DebugFile.read b with
        | error e => rw [hfile] at h; cases h
        | ok opened =>
          rw [hfile] at h
          cases h
          rw [hdebugId] at hmatch
          exact ⟨id, l, b, rfl, ⟨path, hl⟩, hb, hfile, rfl, by simp [FileTree.Follows],
            DebugFile.isRequested_of_read hfile hidentity hmatch⟩

/-- The debug file that a module has is the one that is loaded for it. -/
theorem run_loadFile (s : SymbolStore) (info : ModuleInfo) (t : FileTree) :
    ((s.loadFile info : StateM FileTree _).run t) =
      let loaded := (s.load info : StateM FileTree _).run t
      (loaded.1.map (·.map (·.opened)), loaded.2) := by
  rw [loadFile, run_bind]
  generalize (s.load info : StateM FileTree _).run t = loaded
  obtain ⟨answer, u⟩ := loaded
  cases answer <;> rfl

end SymbolStore

end Symbolicate
