import Mathlib.Tactic.Common
import Symbolicate.Proofs.Files.Script
import Symbolicate.Proofs.Store.Extracting
import Symbolicate.Store.Find

/-!
# Searches as scripts

A search is written for any monad with files, so it is a script too. Run without interruption, this script does what
the search does (`runs_find`), and so do its parts.
-/

namespace Symbolicate.SymbolStore

open Script SymbolPackage

variable {request : DebugFileRequest}

/-! ## Candidates -/

theorem runs_verify (path : FilePath) : Runs (verify request path) (verify request path) := by
  refine (runs_isFile path).bind fun isFile => Runs.ite ?_ (runs_pure _)
  refine (runs_peekAt path).bind fun identity => ?_
  cases identity <;> exact runs_pure _

theorem runs_firstVerified (paths : List FilePath) :
    Runs (firstVerified request paths) (firstVerified request paths) := by
  induction paths with
  | nil => exact runs_pure _
  | cons path rest ih => exact (runs_verify path).bind fun isVerified => (runs_pure _).ite ih

theorem runs_search (s : SymbolStore) : Runs (s.search request) (s.search request) := by
  rw [search_eq, search_eq]
  exact runs_firstVerified _

/-! ## Packages -/

theorem runs_firstFile (paths : List FilePath) : Runs (firstFile paths) (firstFile paths) := by
  induction paths with
  | nil => exact runs_pure _
  | cons path rest ih => exact (runs_isFile path).bind fun isFile => (runs_pure _).ite ih

theorem runs_makeFile (dest : FilePath) : Runs (makeFile dest) (makeFile dest) := by
  unfold makeFile
  cases dest.parent? with
  | none => exact runs_create dest
  | some parent =>
    refine (runs_createDirs parent).bind fun answer => ?_
    cases answer with
    | error e => exact runs_pure _
    | ok _ => exact runs_create dest

theorem runs_unpack (package : FilePath) (body : Zip.Body) (dest : FilePath) :
    Runs (unpack package body dest) (unpack package body dest) := by
  refine (runs_read package).bind fun contents => ?_
  -- whether the package can be read again or not, what has been read is unpacked
  cases contents
  all_goals
    refine (runs_pure _).bind fun b => ?_
    dsimp only
    cases body.contents? b with
    | none => exact runs_pure _
    | some c =>
      refine (runs_writeAll dest c).bind fun answer => ?_
      cases answer <;> exact runs_pure _

theorem runs_fill (package : FilePath) (body : Zip.Body) (dest : FilePath) :
    Runs (fill request package body dest) (fill request package body dest) := by
  refine (runs_unpack package body dest).bind fun isUnpacked => Runs.ite ?_ ?_
  · refine (runs_verify dest).bind fun isVerified => Runs.ite (runs_pure _) ?_
    exact (runs_remove dest).bind fun _ => runs_pure _
  · exact (runs_remove dest).bind fun _ => runs_pure _

theorem runs_findInPackage (package root : FilePath) :
    Runs (findInPackage request package root) (findInPackage request package root) := by
  rw [findInPackage_eq, findInPackage_eq]
  refine (runs_read package).bind fun contents => ?_
  cases contents with
  | error e => exact runs_pure _
  | ok b =>
    dsimp only
    cases bodyIn? request b with
    | none => exact runs_pure _
    | some found =>
      cases found with
      | none => exact runs_pure _
      | some body =>
        refine (runs_makeFile _).bind fun made => ?_
        cases made with
        | error e => exact runs_pure _
        | ok _ => exact runs_fill package body _

/-! ## The second tier -/

theorem runs_revisitDir (own : Option FilePath) (dir : FilePath) :
    Runs (revisitDir request own dir) (revisitDir request own dir) := by
  refine (runs_firstVerified _).bind fun found => ?_
  cases found with
  | some path => exact runs_pure _
  | none =>
    -- whatever the place's own cache is, what has been found in it decides how to go on
    cases own
    case' none => refine (runs_pure _).bind fun cached => ?_
    case' some cache => refine (runs_firstVerified _).bind fun cached => ?_
    all_goals
      cases cached with
      | some path => exact runs_pure _
      | none =>
        refine (runs_firstFile _).bind fun found => ?_
        cases found with
        | none => exact runs_pure _
        | some package => exact runs_findInPackage package _

theorem runs_revisitPlaces (places : List SymbolPathElement) :
    Runs (revisitPlaces request places) (revisitPlaces request places) := by
  induction places with
  | nil => exact runs_pure _
  | cons place rest ih =>
    have hplace : Runs (revisitPlace request place) (revisitPlace request place) := by
      unfold revisitPlace
      cases place.localDir? with
      | none => exact runs_pure _
      | some dir => exact runs_revisitDir _ dir
    refine hplace.bind fun result => ?_
    obtain e | found := result
    · exact runs_pure _
    · cases found with
      | none => exact ih
      | some path => exact runs_pure _

/-- **The script of a search does what the search does**, if it is not interrupted. -/
theorem runs_find (s : SymbolStore) : Runs (s.find request) (s.find request) := by
  refine (runs_search s).bind fun found => ?_
  cases found with
  | some path => exact runs_pure _
  | none => exact runs_revisitPlaces _

end Symbolicate.SymbolStore
