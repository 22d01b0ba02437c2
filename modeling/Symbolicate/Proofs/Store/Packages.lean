import Mathlib.Data.List.TakeWhile
import Mathlib.Tactic.Common
import Symbolicate.Proofs.Store.Verified
import Symbolicate.Proofs.Text.Ascii

/-!
# What symbol packages do to files

Extracting a debug file from a package ends in one of six ways (`Extraction`, `extraction_extract`). Only two of them
touch a file, and only the one at the destination: either it holds what has been unpacked, or it is gone. Looking for a
debug file in a package adds that what has been unpacked is verified (`PackageSearch`, `packageSearch_findInPackage`).

Where no candidate is verified, the second tier of a search comes down to packages: it passes the places whose package
lacks the debug file, and the first other one decides (`revisit_cases`).
-/

namespace Symbolicate

/-! ## Entries -/

namespace Zip

/-- The name of an entry, compared by what stands behind its last separator, has no separators. -/
theorem Entry.notMem_of_isFileNamed {e : Entry} {name : String} (h : e.isFileNamed name = true) {c : Char}
    (hc : c = '/' ∨ c = '\\') : c ∉ name.toList := by
  intro hmem
  simp only [Entry.isFileNamed, Text.eqIgnoringCase, Bool.and_eq_true, beq_iff_eq] at h
  have hlower : c.toLower ∈ e.fileName.map Char.toLower := h.2 ▸ List.mem_map_of_mem hmem
  obtain ⟨d, hd, heq⟩ := List.mem_map.1 hlower
  have hself : c.toLower = c ∧ (c.toNat < 0x61 ∨ 0x7A < c.toNat) := by
    obtain rfl | rfl := hc <;> exact ⟨by decide, by decide⟩
  have hdc : d = c := Text.eq_of_toLower_eq (heq.trans hself.1) hself.2
  have hkept := List.mem_takeWhile_imp (List.mem_reverse.1 hd)
  obtain rfl | rfl := hc <;> simp [hdc] at hkept

variable {b : Bytes} {name : String}

theorem bodyNamed?_eq_some_none_iff {entries : List Entry} : bodyNamed? b name entries = some none ↔
    ∀ e ∈ entries, (e.body? b).isSome ∧ e.isFileNamed name = false := by
  induction entries with
  | nil => simp [bodyNamed?]
  | cons e rest ih =>
    rw [bodyNamed?, List.forall_mem_cons, ← ih]
    cases e.body? b with
    | none => simp
    | some body => by_cases h : e.isFileNamed name = true <;> simp [h]

/-- The first entry that is a file with the name counts, and no header behind it is looked at. -/
theorem bodyNamed?_eq_some_some_iff {entries : List Entry} {body : Body} :
    bodyNamed? b name entries = some (some body) ↔ ∃ before e after, entries = before ++ e :: after ∧
      (∀ other ∈ before, (other.body? b).isSome ∧ other.isFileNamed name = false) ∧ e.isFileNamed name = true ∧
        e.body? b = some body := by
  constructor
  · intro h
    induction entries with
    | nil => simp [bodyNamed?] at h
    | cons e rest ih =>
      rw [bodyNamed?] at h
      cases hbody : e.body? b with
      | none => simp [hbody] at h
      | some own =>
        by_cases hname : e.isFileNamed name = true
        · simp only [hbody, hname, Option.bind_eq_bind, Option.bind_some, if_true, Option.pure_def,
            Option.some.injEq] at h
          exact ⟨[], e, rest, rfl, by simp, hname, h ▸ hbody⟩
        · simp only [hbody, hname, Option.bind_eq_bind, Option.bind_some] at h
          obtain ⟨before, e', after, rfl, hbefore, hfound⟩ := ih (by simpa using h)
          exact ⟨e :: before, e', after, rfl,
            List.forall_mem_cons.2 ⟨⟨by rw [hbody]; rfl, by simpa using hname⟩, hbefore⟩, hfound⟩
  · rintro ⟨before, e, after, rfl, hbefore, hname, hbody⟩
    induction before with
    | nil => simp [bodyNamed?, hbody, hname]
    | cons other before ih =>
      rw [List.forall_mem_cons] at hbefore
      obtain ⟨⟨hsome, hother⟩, hbefore⟩ := hbefore
      obtain ⟨own, hown⟩ := Option.isSome_iff_exists.1 hsome
      simp [bodyNamed?, hown, hother, ih hbefore]

end Zip

open FileTree

namespace SymbolPackage

variable {t t' : FileTree} {package dest : FilePath} {name : String}

/-- A package can be read, and none of its entries is a file with the name. -/
def Lacks (t : FileTree) (package : FilePath) (name : String) : Prop :=
  ∃ b archive, t.read package = .ok b ∧ Zip.Archive.read? b = some archive ∧
    ∀ e ∈ archive.entries, (e.body? b).isSome ∧ e.isFileNamed name = false

/-- A package has an entry that is a file with the name. -/
def Has (t : FileTree) (package : FilePath) (name : String) : Prop :=
  ∃ b archive, t.read package = .ok b ∧ Zip.Archive.read? b = some archive ∧
    ∃ e ∈ archive.entries, e.isFileNamed name = true

/-! ## Extracting -/

/-- How extracting may end: what it tells, and the files it leaves. -/
inductive Extraction (package : FilePath) (name : String) (dest : FilePath) (t : FileTree) :
    Except SymbolError Bool × FileTree → Prop
  | unreadable (e : FileError) (h : t.read package = .error e) : Extraction package name dest t (.error .io, t)
  /-- The package is no archive, or an entry up to the wanted one is damaged. -/
  | damaged (b : Bytes) (hread : t.read package = .ok b) (h : ∀ archive, Zip.Archive.read? b = some archive →
      Zip.bodyNamed? b name archive.entries = none) : Extraction package name dest t (.error .badArchive, t)
  | lacking (h : Lacks t package name) : Extraction package name dest t (.ok false, t)
  /-- The destination cannot be made. -/
  | unplaced (t' : FileTree) (hhas : Has t package name) (hsame : SameFiles t t') :
      Extraction package name dest t (.error .io, t')
  /-- The wanted entry is damaged. -/
  | undone (t' : FileTree) (l : List String) (hhas : Has t package name) (hplace : t'.fileLocation dest = .ok l)
      (hgone : t'.contents? l = none) (hbut : SameFilesBut l t t') :
      Extraction package name dest t (.error .badArchive, t')
  | done (t' : FileTree) (l : List String) (b : Bytes) (hhas : Has t package name) (hholds : t'.HoldsAt dest l b)
      (hbut : SameFilesBut l t t') : Extraction package name dest t (.ok true, t')

theorem run_firstFile (paths : List FilePath) (t : FileTree) :
    ((firstFile paths : StateM FileTree _).run t) = (paths.find? (t.isFile ·), t) := by
  induction paths with
  | nil => rfl
  | cons path rest ih =>
    rw [firstFile, run_bind, run_isFile]
    cases h : t.isFile path with
    | false =>
      rw [List.find?_cons_of_neg (by simp [h])]
      exact ih
    | true =>
      rw [List.find?_cons_of_pos h]
      rfl

theorem run_makeFile (h : t.IsTree) (dest : FilePath) :
    (∃ e t', ((makeFile dest : StateM FileTree _).run t) = (.error e, t') ∧ SameFiles t t') ∨
      ∃ l t', ((makeFile dest : StateM FileTree _).run t) = (.ok (), t') ∧ t'.HoldsAt dest l [] ∧
        SameFilesBut l t t' := by
  -- making the file, when some directories have been made
  have hcreate : ∀ u, u.IsTree → SameFiles t u →
      (∃ e t', ((FileSystem.create dest : StateM FileTree _).run u) = (.error e, t') ∧ SameFiles t t') ∨
        ∃ l t', ((FileSystem.create dest : StateM FileTree _).run u) = (.ok (), t') ∧ t'.HoldsAt dest l [] ∧
          SameFilesBut l t t' := by
    intro u hu hsame
    obtain ⟨e, he⟩ | ⟨l, t', he, hholds, hbut⟩ := hu.create dest
    · exact .inl ⟨e, u, by rw [run_create, he]; rfl, hsame⟩
    · exact .inr ⟨l, t', by rw [run_create, he]; rfl, hholds, hsame.but hbut⟩
  unfold makeFile
  cases dest.parent? with
  | none => exact hcreate t h (.refl t)
  | some parent =>
    obtain ⟨htree, hsame⟩ := h.createDirs parent
    simp only [run_bind, run_createDirs, Prod.fst_swap, Prod.snd_swap]
    cases hdirs : (t.createDirs parent).2 with
    | error e => exact .inl ⟨e, _, rfl, hsame⟩
    | ok _ => exact hcreate _ htree hsame

/-- What is unpacked is the contents of the body in the package, as this is when the file has been made. -/
theorem run_unpack {l : List String} (h : t.HoldsAt dest l []) (package : FilePath) (body : Zip.Body) :
    (body.contents? ((t.read package).toOption.getD []) = none ∧
        ((unpack package body dest : StateM FileTree _).run t) = (false, t)) ∨
      ∃ b t', body.contents? ((t.read package).toOption.getD []) = some b ∧
        ((unpack package body dest : StateM FileTree _).run t) = (true, t') ∧ t'.HoldsAt dest l b ∧
        (t' = t ∨ SameFilesBut l t t') := by
  unfold unpack
  rw [run_bind, run_read]
  -- whether the package can be read again or not, what has been read is unpacked
  cases t.read package
  all_goals
    rw [run_bind, run_pure]
    simp only [Except.toOption, Option.getD_none, Option.getD_some]
    split
    · next hnone => exact .inl ⟨hnone, rfl⟩
    · next contents hcontents =>
      obtain ⟨t', hrun, hholds, hlast⟩ := run_writeAll h contents
      refine .inr ⟨contents, t', hcontents, ?_, hholds, hlast⟩
      rw [run_bind, hrun]
      rfl

/-- Extracting ends in one of these ways. -/
theorem extraction_extract (h : t.IsTree) (package : FilePath) (name : String) (dest : FilePath) :
    Extraction package name dest t ((extract package name dest : StateM FileTree _).run t) := by
  unfold extract
  rw [run_bind, run_read]
  cases hread : t.read package with
  | error e => exact .unreadable e hread
  | ok b =>
    cases harchive : Zip.Archive.read? b with
    | none =>
      simp only [harchive, Option.bind_none]
      exact .damaged b hread fun archive h => by rw [harchive] at h; cases h
    | some archive =>
      cases hnamed : Zip.bodyNamed? b name archive.entries with
      | none =>
        simp only [harchive, Option.bind_some, hnamed]
        refine .damaged b hread fun other h => ?_
        obtain rfl : archive = other := Option.some_inj.1 (harchive.symm.trans h)
        exact hnamed
      | some found =>
        cases found with
        | none =>
          simp only [harchive, Option.bind_some, hnamed]
          exact .lacking ⟨b, archive, hread, harchive, Zip.bodyNamed?_eq_some_none_iff.1 hnamed⟩
        | some body =>
          obtain ⟨before, e, after, hentries, -, hname, -⟩ := Zip.bodyNamed?_eq_some_some_iff.1 hnamed
          have hhas : Has t package name := ⟨b, archive, hread, harchive, e, by simp [hentries], hname⟩
          simp only [harchive, Option.bind_some, hnamed, run_bind]
          obtain ⟨e, t₁, hmade, hsame⟩ | ⟨l, t₁, hmade, hholds, hbut⟩ := run_makeFile h dest
          · rw [hmade]
            exact .unplaced t₁ hhas hsame
          · rw [hmade]
            obtain ⟨-, hrun⟩ | ⟨c, t₂, -, hrun, hholds', hlast⟩ := run_unpack hholds package body
            · simp only [run_bind, hrun]
              obtain ⟨-, hplace, hgone, hbut'⟩ := hholds.remove
              exact .undone _ l hhas hplace hgone (hbut.trans hbut')
            · simp only [run_bind, hrun]
              refine .done t₂ l c hhas hholds' ?_
              obtain rfl | hlast := hlast
              · exact hbut
              · exact hbut.trans hlast

/-- Nothing is extracted from a package that lacks the debug file, and only from such a one. -/
theorem run_extract_of_lacks (h : Lacks t package name) (dest : FilePath) :
    ((extract package name dest : StateM FileTree _).run t) = (.ok false, t) := by
  obtain ⟨b, archive, hread, harchive, hnone⟩ := h
  unfold extract
  rw [run_bind, run_read, hread]
  simp only [harchive, Option.bind_some, Zip.bodyNamed?_eq_some_none_iff.2 hnone]
  rfl

theorem lacks_of_run_extract (h : ((extract package name dest : StateM FileTree _).run t).1 = .ok false) :
    Lacks t package name := by
  unfold extract at h
  rw [run_bind, run_read] at h
  cases hread : t.read package with
  | error e => rw [hread] at h; cases h
  | ok b =>
    rw [hread] at h
    cases harchive : Zip.Archive.read? b with
    | none => simp only [harchive, Option.bind_none] at h; cases h
    | some archive =>
      cases hnamed : Zip.bodyNamed? b name archive.entries with
      | none => simp only [harchive, Option.bind_some, hnamed] at h; cases h
      | some found =>
        cases found with
        | none => exact ⟨b, archive, hread, harchive, Zip.bodyNamed?_eq_some_none_iff.1 hnamed⟩
        | some body =>
          -- an entry with the name has been found, so this ends otherwise
          simp only [harchive, Option.bind_some, hnamed, run_bind] at h
          cases hmade : ((makeFile dest : StateM FileTree _).run t).1 with
          | error e => rw [hmade] at h; cases h
          | ok _ =>
            rw [hmade] at h
            simp only [run_bind] at h
            cases hunpacked : ((unpack package body dest : StateM FileTree _).run
                ((makeFile dest : StateM FileTree _).run t).2).1 with
            | false => rw [hunpacked] at h; cases h
            | true => rw [hunpacked] at h; cases h

end SymbolPackage

/-! ## Looking in a package -/

namespace SymbolStore

open SymbolPackage

variable {request : DebugFileRequest} {t : FileTree} {package root dir : FilePath}

/-- Where a debug file from a package goes: into the layout of a store, under the native key. -/
def packageDest (request : DebugFileRequest) (root : FilePath) : FilePath :=
  root.join (request.layout request.debugId.nativeKey)

/-- How looking for a debug file in a package may end: what is found, and the files that are left. -/
inductive PackageSearch (request : DebugFileRequest) (package root : FilePath) (t : FileTree) :
    Except SymbolError (Option FilePath) × FileTree → Prop
  | lacking (h : Lacks t package request.name) : PackageSearch request package root t (.ok none, t)
  /-- The package is damaged or the destination cannot be made. -/
  | failed (e : SymbolError) (t' : FileTree) (hsame : SameFiles t t') :
      PackageSearch request package root t (.error e, t')
  /-- What has been unpacked is not complete, or it is not the one asked for. -/
  | undone (e : SymbolError) (t' : FileTree) (l : List String) (hhas : Has t package request.name)
      (hplace : t'.fileLocation (packageDest request root) = .ok l) (hgone : t'.contents? l = none)
      (hbut : SameFilesBut l t t') : PackageSearch request package root t (.error e, t')
  | found (t' : FileTree) (l : List String) (b : Bytes) (hhas : Has t package request.name)
      (hholds : t'.HoldsAt (packageDest request root) l b)
      (hverified : Verified request (packageDest request root) t') (hbut : SameFilesBut l t t') :
      PackageSearch request package root t (.ok (some (packageDest request root)), t')

/-- Looking for a debug file in a package ends in one of these ways. -/
theorem packageSearch_findInPackage (request : DebugFileRequest) (h : t.IsTree) (package root : FilePath) :
    PackageSearch request package root t ((findInPackage request package root : StateM FileTree _).run t) := by
  unfold findInPackage
  have hdest : root.join (request.layout request.debugId.nativeKey) = packageDest request root := rfl
  simp only [run_bind, hdest]
  have hextract := extraction_extract h package request.name (packageDest request root)
  generalize ((extract package request.name (packageDest request root) : StateM FileTree _).run t) = outcome at hextract ⊢
  cases hextract with
  | unreadable e h => exact .failed _ t (.refl t)
  | damaged b hread h => exact .failed _ t (.refl t)
  | lacking h => exact .lacking h
  | unplaced t' hhas hsame => exact .failed _ t' hsame
  | undone t' l hhas hplace hgone hbut => exact .undone _ t' l hhas hplace hgone hbut
  | done t' l b hhas hholds hbut =>
    simp only [run_bind, run_verify_eq]
    cases hverified : isVerified request t' (packageDest request root) with
    | true => exact .found t' l b hhas hholds (isVerified_iff.1 hverified) hbut
    | false =>
      obtain ⟨-, hplace, hgone, hbut'⟩ := hholds.remove
      exact .undone _ _ l hhas hplace hgone (hbut.trans hbut')

theorem run_findInPackage_of_lacks (h : Lacks t package request.name) (root : FilePath) :
    ((findInPackage request package root : StateM FileTree _).run t) = (.ok none, t) := by
  unfold findInPackage
  simp only [run_bind, run_extract_of_lacks h]
  rfl

theorem lacks_of_run_findInPackage
    (h : ((findInPackage request package root : StateM FileTree _).run t).1 = .ok none) :
    Lacks t package request.name := by
  unfold findInPackage at h
  simp only [run_bind] at h
  cases hextract : ((extract package request.name (root.join (request.layout request.debugId.nativeKey)) :
      StateM FileTree _).run t).1 with
  | error e => rw [hextract] at h; cases h
  | ok isThere =>
    cases isThere with
    | false => exact lacks_of_run_extract hextract
    | true =>
      rw [hextract] at h
      simp only [run_bind, run_verify_eq] at h
      split at h <;> cases h

/-! ## The second tier -/

/-- The package of the requested version in a directory: the first of its names that is a file. -/
def packageIn? (request : DebugFileRequest) (t : FileTree) (dir : FilePath) : Option FilePath :=
  (request.packageNames.map dir.join).find? (t.isFile ·)

/-- The second tier passes a place: it is on a server, has no package, or its package lacks the debug file. -/
def Passes (request : DebugFileRequest) (t : FileTree) (place : SymbolPathElement) : Prop :=
  ∀ dir, place.localDir? = some dir → ∀ package, packageIn? request t dir = some package →
    Lacks t package request.name

/-- The layouts that the second tier looks through again. -/
def revisited (request : DebugFileRequest) (place : SymbolPathElement) : List FilePath :=
  match place.localDir? with
  | none => []
  | some dir => layouts request dir ++ (place.ownCache?.elim [] (layouts request))

theorem run_searchLayout_of_unverified (root : FilePath)
    (h : ∀ path ∈ layouts request root, ¬ Verified request path t) :
    ((searchLayout request root : StateM FileTree _).run t) = (none, t) := by
  have hrun : ((searchLayout request root : StateM FileTree _).run t) =
      ((layouts request root).find? (Verified request · t), t) := run_firstVerified _
  rw [hrun, List.find?_eq_none.2 (by simpa using h)]

/-- Where no layout has the debug file, a directory is only asked for its package. -/
theorem run_revisitDir {own : Option FilePath}
    (h : ∀ path ∈ layouts request dir ++ own.elim [] (layouts request), ¬ Verified request path t) :
    ((revisitDir request own dir : StateM FileTree _).run t) =
      match packageIn? request t dir with
      | none => (.ok none, t)
      | some package => ((findInPackage request package (own.getD dir) : StateM FileTree _).run t) := by
  have hdir := run_searchLayout_of_unverified dir fun path hpath => h path (List.mem_append_left _ hpath)
  have hpackages : ((firstFile (request.packageNames.map dir.join) >>= fun found =>
      match found with
      | none => pure (.ok none)
      | some package => findInPackage request package (own.getD dir) : StateM FileTree _).run t) =
        match packageIn? request t dir with
        | none => (.ok none, t)
        | some package => ((findInPackage request package (own.getD dir) : StateM FileTree _).run t) := by
    rw [run_bind, run_firstFile, packageIn?]
    cases (request.packageNames.map dir.join).find? (t.isFile ·) <;> rfl
  cases own with
  | none =>
    simp only [revisitDir, run_bind, hdir, run_pure]
    exact hpackages
  | some cache =>
    have hown := run_searchLayout_of_unverified cache fun path hpath => h path (List.mem_append_right _ hpath)
    simp only [revisitDir, run_bind, hdir, hown]
    exact hpackages

/-- A place that is passed gives nothing and changes nothing. -/
theorem run_revisitPlace_of_passes {place : SymbolPathElement} (hpasses : Passes request t place)
    (h : ∀ path ∈ revisited request place, ¬ Verified request path t) :
    ((revisitPlace request place : StateM FileTree _).run t) = (.ok none, t) := by
  unfold revisitPlace
  cases hdir : place.localDir? with
  | none => rfl
  | some dir =>
    simp only [revisited, hdir] at h
    simp only [run_revisitDir h]
    cases hpackage : packageIn? request t dir with
    | none => rfl
    | some package => exact run_findInPackage_of_lacks (hpasses dir hdir package hpackage) _

/-- The first place that is not passed decides, by its package. -/
structure Decides (request : DebugFileRequest) (t : FileTree) (place : SymbolPathElement) (package root : FilePath) :
    Prop where
  dir : ∃ dir, place.localDir? = some dir ∧ packageIn? request t dir = some package ∧ root = place.ownCache?.getD dir
  not_lacks : ¬ Lacks t package request.name

theorem exists_decides_of_not_passes {place : SymbolPathElement} (h : ¬ Passes request t place) :
    ∃ package root, Decides request t place package root := by
  simp only [Passes, not_forall] at h
  obtain ⟨dir, hdir, package, hpackage, hnot⟩ := h
  exact ⟨package, _, ⟨dir, hdir, hpackage, rfl⟩, hnot⟩

theorem run_revisitPlace_of_decides {place : SymbolPathElement} (hdecides : Decides request t place package root)
    (h : ∀ path ∈ revisited request place, ¬ Verified request path t) :
    ((revisitPlace request place : StateM FileTree _).run t) =
      ((findInPackage request package root : StateM FileTree _).run t) := by
  obtain ⟨⟨dir, hdir, hpackage, rfl⟩, -⟩ := hdecides
  unfold revisitPlace
  simp only [revisited, hdir] at h ⊢
  simp only [run_revisitDir h, hpackage]

/-- Where the layouts of a place do not have the debug file, the second tier passes the place or ends with what its package
gives. -/
theorem run_revisitPlaces_cons {place : SymbolPathElement} (rest : List SymbolPathElement)
    (h : ∀ path ∈ revisited request place, ¬ Verified request path t) :
    Passes request t place ∧
        ((revisitPlaces request (place :: rest) : StateM FileTree _).run t) =
          ((revisitPlaces request rest : StateM FileTree _).run t) ∨
      ∃ package root, Decides request t place package root ∧
        ((revisitPlaces request (place :: rest) : StateM FileTree _).run t) =
          ((findInPackage request package root : StateM FileTree _).run t) := by
  by_cases hpasses : Passes request t place
  · exact .inl ⟨hpasses, by simp only [revisitPlaces, run_bind, run_revisitPlace_of_passes hpasses h]⟩
  · obtain ⟨package, root, hdecides⟩ := exists_decides_of_not_passes hpasses
    refine .inr ⟨package, root, hdecides, ?_⟩
    simp only [revisitPlaces, run_bind, run_revisitPlace_of_decides hdecides h]
    -- the package does not give nothing, so the search ends here
    cases hfound : ((findInPackage request package root : StateM FileTree _).run t).1 with
    | error e => exact Prod.ext hfound.symm rfl
    | ok found =>
      cases found with
      | none => exact absurd (lacks_of_run_findInPackage hfound) hdecides.not_lacks
      | some path => exact Prod.ext hfound.symm rfl

/-- The second tier passes some places and goes on behind them, or it ends with what the package of the first other one
gives. -/
theorem revisit_append_cases {places : List SymbolPathElement} (rest : List SymbolPathElement)
    (h : ∀ place ∈ places, ∀ path ∈ revisited request place, ¬ Verified request path t) :
    (∀ place ∈ places, Passes request t place) ∧
        ((revisitPlaces request (places ++ rest) : StateM FileTree _).run t) =
          ((revisitPlaces request rest : StateM FileTree _).run t) ∨
      ∃ before place after package root, places = before ++ place :: after ∧
        (∀ other ∈ before, Passes request t other) ∧ Decides request t place package root ∧
        ((revisitPlaces request (places ++ rest) : StateM FileTree _).run t) =
          ((findInPackage request package root : StateM FileTree _).run t) := by
  induction places with
  | nil => exact Or.inl ⟨fun _ hmem => absurd hmem List.not_mem_nil, rfl⟩
  | cons place places ih =>
    obtain ⟨hpasses, hrun⟩ | ⟨package, root, hdecides⟩ :=
      run_revisitPlaces_cons (places ++ rest) (h place List.mem_cons_self)
    · rw [List.cons_append, hrun]
      obtain ⟨hall, hnone⟩ | ⟨before, other, after, package, root, rfl, hbefore, hdecides⟩ :=
        ih fun place hmem => h place (List.mem_cons_of_mem _ hmem)
      · exact .inl ⟨List.forall_mem_cons.2 ⟨hpasses, hall⟩, hnone⟩
      · exact .inr ⟨place :: before, other, after, package, root, rfl,
          List.forall_mem_cons.2 ⟨hpasses, hbefore⟩, hdecides⟩
    · exact .inr ⟨[], place, places, package, root, rfl, fun _ hmem => absurd hmem List.not_mem_nil, hdecides⟩

/-- **The second tier comes down to packages** where no layout has the debug file: it passes all places, or it ends
with what the package of the first other one gives. -/
theorem revisit_cases {places : List SymbolPathElement}
    (h : ∀ place ∈ places, ∀ path ∈ revisited request place, ¬ Verified request path t) :
    (∀ place ∈ places, Passes request t place) ∧
        ((revisitPlaces request places : StateM FileTree _).run t) = (.ok none, t) ∨
      ∃ place ∈ places, ∃ package root, Decides request t place package root ∧
        ((revisitPlaces request places : StateM FileTree _).run t) =
          ((findInPackage request package root : StateM FileTree _).run t) := by
  have hcases := revisit_append_cases [] h
  rw [List.append_nil] at hcases
  obtain hnone | ⟨before, place, after, package, root, rfl, -, hdecides⟩ := hcases
  · exact .inl hnone
  · exact .inr ⟨place, by simp, package, root, hdecides⟩

end SymbolStore

end Symbolicate
