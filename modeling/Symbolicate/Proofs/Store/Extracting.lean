import Mathlib.Tactic.Common
import Symbolicate.Proofs.Files.Dirs
import Symbolicate.Proofs.Store.Packages

/-!
# The order of an extraction

Looking for a debug file in a package goes in four parts, whatever the files live in: the package is read, directories
are made, the file is made, and what is left is to fill and to verify it (`findInPackage_eq`). Filling ends in one of
three ways (`filling_fill`), and what the package holds decides which (`fill_cases`). What an extraction that succeeds
has found and made on the way (`Extracts`, `exists_extracts`) is all that another one needs to succeed in the same way
(`run_fill`).
-/

namespace Symbolicate

open FileTree

variable {m : Type → Type} [Monad m] [FileSystem m]

namespace SymbolStore

variable {request : DebugFileRequest}

/-! ## The parts of an extraction -/

/-- Fills a file that has been made from a package, and verifies it. -/
def fill (request : DebugFileRequest) (package : FilePath) (body : Zip.Body) (dest : FilePath) :
    m (Except SymbolError (Option FilePath)) := do
  if ← SymbolPackage.unpack package body dest then
    if ← verify request dest then return .ok (some dest)
    FileSystem.remove dest
    return .error (.archiveMismatch ⟨request.name, package, request.debugId⟩)
  FileSystem.remove dest
  return .error .badArchive

/-- The entry to extract from a package, if it can be read. -/
def bodyIn? (request : DebugFileRequest) (b : Bytes) : Option (Option Zip.Body) :=
  (Zip.Archive.read? b).bind fun archive => Zip.bodyNamed? b request.name archive.entries

/-- **The parts of an extraction.** -/
theorem findInPackage_eq [LawfulMonad m] (package root : FilePath) : (findInPackage request package root : m _) =
    FileSystem.read package >>= fun contents => match contents with
      | .error _ => pure (.error .io)
      | .ok b => match bodyIn? request b with
        | none => pure (.error .badArchive)
        | some none => pure (.ok none)
        | some (some body) => SymbolPackage.makeFile (packageDest request root) >>= fun made => match made with
          | .error _ => pure (.error .io)
          | .ok () => fill request package body (packageDest request root) := by
  rw [findInPackage, SymbolPackage.extract, bind_assoc]
  refine bind_congr fun contents => ?_
  cases contents with
  | error e => simp
  | ok b =>
    simp only [bodyIn?]
    cases (Zip.Archive.read? b).bind fun archive => Zip.bodyNamed? b request.name archive.entries with
    | none => simp
    | some found =>
      cases found with
      | none => simp
      | some body =>
        simp only [bind_assoc]
        refine bind_congr fun made => ?_
        cases made with
        | error e => simp
        | ok _ =>
          simp only [fill, bind_assoc]
          refine bind_congr fun isUnpacked => ?_
          cases isUnpacked <;> simp [packageDest]

end SymbolStore

/-! ## Runs -/

section Runs

variable {request : DebugFileRequest} {t t' : FileTree} {package root dest path : FilePath} {body : Zip.Body}
  {b c : Bytes} {l : List String}

namespace SymbolPackage

/-- Makes the directories that a file is to lie in. -/
def parentDirs (dest : FilePath) (t : FileTree) : FileTree × Except FileError Unit :=
  match dest.parent? with
  | none => (t, .ok ())
  | some parent => t.createDirs parent

/-- Making the directories for a file leaves all files as they are. -/
theorem sameFiles_parentDirs (h : t.IsTree) (dest : FilePath) :
    (parentDirs dest t).1.IsTree ∧ SameFiles t (parentDirs dest t).1 := by
  unfold parentDirs
  cases dest.parent? with
  | none => exact ⟨h, .refl t⟩
  | some parent => exact h.createDirs parent

theorem run_makeFile_eq (dest : FilePath) (t : FileTree) : ((makeFile dest : StateM FileTree _).run t) =
    match (parentDirs dest t).2 with
    | .error e => (.error e, (parentDirs dest t).1)
    | .ok () => ((parentDirs dest t).1.create dest).swap := by
  unfold makeFile parentDirs
  cases dest.parent? with
  | none => rfl
  | some parent =>
    simp only [run_bind, run_createDirs, Prod.fst_swap, Prod.snd_swap]
    cases (t.createDirs parent).2 <;> rfl

/-- A path can be made a file at a location: its directories can be made, and it has a place there. -/
structure CanMake (t : FileTree) (dest : FilePath) (l : List String) : Prop where
  dirs : (parentDirs dest t).2 = .ok ()
  place : (parentDirs dest t).1.fileLocation dest = .ok l

theorem CanMake.run (hmake : CanMake t dest l) (h : t.IsTree) :
    ∃ t', ((makeFile dest : StateM FileTree _).run t) = (.ok (), t') ∧ t'.HoldsAt dest l [] ∧ SameFilesBut l t t' := by
  obtain ⟨htree, hsame⟩ := sameFiles_parentDirs h dest
  obtain ⟨hholds, hbut⟩ := htree.holdsAt_set hmake.place []
  refine ⟨_, ?_, hholds, hsame.but hbut⟩
  rw [run_makeFile_eq, hmake.dirs]
  simp only [create, hmake.place]
  rfl

/-- A file that has been made is empty, in its directories. -/
theorem exists_of_run_makeFile (h : t.IsTree) (hmade : ((makeFile dest : StateM FileTree _).run t) = (.ok (), t')) :
    ∃ l, CanMake t dest l ∧ t'.HoldsAt dest l [] ∧ SameFilesBut l t t' := by
  obtain ⟨l, hmake⟩ : ∃ l, CanMake t dest l := by
    have hrun := hmade
    rw [run_makeFile_eq] at hrun
    cases hdirs : (parentDirs dest t).2 with
    | error e =>
      rw [hdirs] at hrun
      cases hrun
    | ok _ =>
      rw [hdirs] at hrun
      cases hplace : (parentDirs dest t).1.fileLocation dest with
      | error e =>
        simp only [create, hplace] at hrun
        cases hrun
      | ok l => exact ⟨l, hdirs, hplace⟩
  obtain ⟨u, hrun, hholds, hbut⟩ := hmake.run h
  cases hmade.symm.trans hrun
  exact ⟨l, hmake, hholds, hbut⟩

end SymbolPackage

namespace SymbolStore

open SymbolPackage

/-- The bytes carry the identity asked for. -/
def Carries (request : DebugFileRequest) (c : Bytes) : Prop :=
  ∃ identity, DebugFileIdentity.read c = .ok identity ∧ identity.matchesId request.debugId = true

theorem verified_iff_carries : Verified request path t ↔ ∃ b, t.read path = .ok b ∧ Carries request b := by
  simp only [verified_iff, read_eq_ok, Carries]
  constructor
  · rintro ⟨l, b, identity, hl, hb, hcarries⟩
    exact ⟨b, ⟨l, hl, hb⟩, identity, hcarries⟩
  · rintro ⟨b, ⟨l, hl, hb⟩, identity, hcarries⟩
    exact ⟨l, b, identity, hl, hb, hcarries⟩

/-- How filling a file that has been made may end: with what is found, and the files that are left. What counts is what
the package holds when the file has been made. -/
inductive Filling (request : DebugFileRequest) (package : FilePath) (body : Zip.Body) (dest : FilePath)
    (l : List String) (t : FileTree) : Except SymbolError (Option FilePath) × FileTree → Prop
  | damaged (t' : FileTree) (hnone : body.contents? ((t.read package).toOption.getD []) = none)
      (hbut : SameFilesBut l t t') : Filling request package body dest l t (.error .badArchive, t')
  | blamed (t' : FileTree) (c : Bytes) (hcontents : body.contents? ((t.read package).toOption.getD []) = some c)
      (hnot : ¬ Carries request c) (hgone : t'.contents? l = none) (hbut : SameFilesBut l t t') :
      Filling request package body dest l t (.error (.archiveMismatch ⟨request.name, package, request.debugId⟩), t')
  | found (t' : FileTree) (c : Bytes) (hcontents : body.contents? ((t.read package).toOption.getD []) = some c)
      (hcarries : Carries request c) (hholds : t'.HoldsAt dest l c) (hbut : SameFilesBut l t t') :
      Filling request package body dest l t (.ok (some dest), t')

/-- Filling ends in one of these ways. -/
theorem filling_fill (h : t.HoldsAt dest l []) (package : FilePath) (body : Zip.Body) :
    Filling request package body dest l t ((fill request package body dest : StateM FileTree _).run t) := by
  obtain ⟨hnone, hrun⟩ | ⟨c, t₁, hcontents, hrun, hholds, hlast⟩ := run_unpack h package body
  · simp only [fill, run_bind, hrun]
    obtain ⟨-, -, -, hbut⟩ := h.remove
    exact .damaged _ hnone hbut
  · have hbut := hholds.sameFilesBut hlast
    simp only [fill, run_bind, hrun, if_true, run_verify_eq]
    have hcarries : isVerified request t₁ dest = true ↔ Carries request c := by
      rw [isVerified_iff, verified_iff_carries, hholds.read]
      simp
    cases hverified : isVerified request t₁ dest with
    | true => exact .found t₁ c hcontents (hcarries.1 hverified) hholds hbut
    | false =>
      obtain ⟨-, -, hgone, hbut'⟩ := hholds.remove
      refine .blamed _ c hcontents (fun hc => ?_) hgone (hbut.trans hbut')
      rw [hcarries.2 hc] at hverified
      cases hverified

/-- Where the package holds contents for the file, these decide: the file stays if they carry the identity, and the
package is blamed if not. -/
theorem fill_cases (h : t.HoldsAt dest l []) (hread : t.read package = .ok b) (hcontents : body.contents? b = some c) :
    ∃ t', SameFilesBut l t t' ∧
      (Carries request c ∧ t'.HoldsAt dest l c ∧
          ((fill request package body dest : StateM FileTree _).run t) = (.ok (some dest), t') ∨
        ¬ Carries request c ∧ ((fill request package body dest : StateM FileTree _).run t) =
          (.error (.archiveMismatch ⟨request.name, package, request.debugId⟩), t')) := by
  have hfill : Filling request package body dest l t _ := filling_fill h package body
  generalize ((fill request package body dest : StateM FileTree _).run t) = outcome at hfill ⊢
  have hheld : body.contents? ((t.read package).toOption.getD []) = some c := by rw [hread]; exact hcontents
  cases hfill with
  | damaged _ hnone => cases hnone.symm.trans hheld
  | blamed t' _ hother hnot _ hbut =>
    cases hother.symm.trans hheld
    exact ⟨t', hbut, .inr ⟨hnot, rfl⟩⟩
  | found t' _ hother hcarries hholds hbut =>
    cases hother.symm.trans hheld
    exact ⟨t', hbut, .inl ⟨hcarries, hholds, rfl⟩⟩

/-- A file that has been made is filled with what its package holds. -/
theorem run_fill (h : t.HoldsAt dest l []) (hread : t.read package = .ok b) (hcontents : body.contents? b = some c)
    (hcarries : Carries request c) :
    ∃ t', ((fill request package body dest : StateM FileTree _).run t) = (.ok (some dest), t') ∧ t'.HoldsAt dest l c ∧
      SameFilesBut l t t' := by
  obtain ⟨t', hbut, ⟨-, hholds, hrun⟩ | ⟨hnot, -⟩⟩ := fill_cases h hread hcontents
  · exact ⟨t', hrun, hholds, hbut⟩
  · exact absurd hcarries hnot

/-- What it takes to extract a debug file with contents `c` to the location `l`: the package, which does not lie there,
has them in the body of an entry, they carry the identity, and the file can be made. -/
structure Extracts (request : DebugFileRequest) (t : FileTree) (package root : FilePath) (b : Bytes) (body : Zip.Body)
    (l : List String) (c : Bytes) : Prop where
  readable : t.read package = .ok b
  has : bodyIn? request b = some (some body)
  apart : t.locate package ≠ .ok l
  dirs : (parentDirs (packageDest request root) t).2 = .ok ()
  place : (parentDirs (packageDest request root) t).1.fileLocation (packageDest request root) = .ok l
  contents : body.contents? b = some c
  carries : Carries request c

/-- Once the file has been made, filling it is all that is left of a search in a package. -/
theorem run_findInPackage_of_made (hread : t.read package = .ok b) (hbody : bodyIn? request b = some (some body))
    (hmade : ((makeFile (packageDest request root) : StateM FileTree _).run t) = (.ok (), t')) :
    ((findInPackage request package root : StateM FileTree _).run t) =
      ((fill request package body (packageDest request root) : StateM FileTree _).run t') := by
  rw [findInPackage_eq, run_bind, run_read, hread]
  simp only [hbody, run_bind, hmade]

/-- A search in a package that ends with a file or blames the package has come to fill the file. -/
theorem exists_of_run_findInPackage {result : Except SymbolError (Option FilePath)}
    (hrun : ((findInPackage request package root : StateM FileTree _).run t) = (result, t'))
    (hnone : result ≠ .ok none) (hio : result ≠ .error .io) (hbad : result ≠ .error .badArchive) :
    ∃ b body t₁, t.read package = .ok b ∧ bodyIn? request b = some (some body) ∧
      ((makeFile (packageDest request root) : StateM FileTree _).run t) = (.ok (), t₁) ∧
      ((fill request package body (packageDest request root) : StateM FileTree _).run t₁) = (result, t') := by
  rw [findInPackage_eq, run_bind, run_read] at hrun
  cases hread : t.read package with
  | error e =>
    rw [hread] at hrun
    cases hrun
    exact absurd rfl hio
  | ok b =>
    rw [hread] at hrun
    cases hbody : bodyIn? request b with
    | none =>
      simp only [hbody] at hrun
      cases hrun
      exact absurd rfl hbad
    | some found =>
      cases found with
      | none =>
        simp only [hbody] at hrun
        cases hrun
        exact absurd rfl hnone
      | some body =>
        simp only [hbody, run_bind] at hrun
        cases hmade : ((makeFile (packageDest request root) : StateM FileTree _).run t).1 with
        | error e =>
          rw [hmade] at hrun
          cases hrun
          exact absurd rfl hio
        | ok _ =>
          rw [hmade] at hrun
          exact ⟨b, body, _, rfl, hbody, Prod.ext hmade rfl, hrun⟩

/-- **An extraction that succeeds had all it takes**, if the package lies elsewhere. -/
theorem exists_extracts (h : t.IsTree)
    (hrun : ((findInPackage request package root : StateM FileTree _).run t) = (.ok (some path), t'))
    (hapart : t'.locate package ≠ t'.locate path) :
    path = packageDest request root ∧
      ∃ b body l c, Extracts request t package root b body l c ∧ t'.HoldsAt path l c ∧ SameFilesBut l t t' := by
  obtain ⟨b, body, t₁, hread, hbody, hmade, hrun'⟩ := exists_of_run_findInPackage hrun nofun nofun nofun
  obtain ⟨l, hmake, hempty, hbut⟩ := exists_of_run_makeFile h hmade
  have hfill : Filling request package body (packageDest request root) l t₁ _ := filling_fill hempty package body
  rw [hrun'] at hfill
  cases hfill with
  | found _ c hcontents hcarries hholds hbut' =>
    have hlast : SameFilesBut l t t' := hbut.trans hbut'
    have hpackage : t.locate package ≠ .ok l := fun hl => hapart <| by
      rw [hholds.locate]
      exact locate_of_dirs hlast.dirs hl (by rw [contents?_eq_some_iff.1 hholds.contents_eq]; rfl)
    rw [hbut.read hread hpackage] at hcontents
    exact ⟨rfl, b, body, l, c, ⟨hread, hbody, hpackage, hmake.dirs, hmake.place, hcontents, hcarries⟩, hholds, hlast⟩

end SymbolStore

end Runs

end Symbolicate
