import Mathlib.Tactic.Common
import Symbolicate.Proofs.Files.Interleaving
import Symbolicate.Proofs.Store.Scripts
import Symbolicate.Proofs.Store.Stable

/-!
# Two searches at a time

Two searches for the same debug file take turns, each by its single operations (`together`). Where it is only in a
package, both extract it to the same path. They succeed together if neither is interrupted once it has come to make the
file (`finds_succeed`): until then a search only looks and makes directories, so between others it meets files that
differ in directories and in the one file, which is as it was or complete (`Stage`), and by rely and guarantee
(`Alone.goes_find`) it ends with a path to the complete file. If they can be interrupted anywhere, one of them may empty
the file between filling and verifying of the other, and both fail (`not_finds_succeed_singly`).
-/

namespace Symbolicate

open FileTree

namespace SymbolStore

open SymbolPackage

variable {s : SymbolStore} {request : DebugFileRequest} {t t' u v : FileTree} {path package root dest : FilePath}
  {l : List String} {b c : Bytes} {body : Zip.Body}

/-! ## A search alone -/

/-- The paths at which a search looks for packages. -/
def packages (s : SymbolStore) (request : DebugFileRequest) : List FilePath :=
  s.path.elements.flatMap fun place => place.localDir?.toList.flatMap fun dir => request.packageNames.map dir.join

theorem mem_packages {place : SymbolPathElement} {dir : FilePath} (hplace : place ∈ s.path.elements)
    (hdir : place.localDir? = some dir) (hpackage : package ∈ request.packageNames.map dir.join) :
    package ∈ s.packages request :=
  List.mem_flatMap.2 ⟨place, hplace, List.mem_flatMap.2
    ⟨dir, by rw [hdir]; exact List.mem_singleton_self dir, hpackage⟩⟩

/-- A search alone, in the files `t`, extracts a debug file with contents `c` to the location `l`, and leaves the files
`t'`. No path that it tries goes up by two dots, and no package lies where it extracts to. -/
structure Alone (s : SymbolStore) (request : DebugFileRequest) (t t' : FileTree) (dest : FilePath) (l : List String)
    (c : Bytes) : Prop where
  isTree : t.IsTree
  unverified : ∀ path ∈ s.candidates request, ¬ Verified request path t
  up : ∀ path ∈ s.candidates request ++ s.packages request, ".." ∉ path.pieces
  apart : ∀ package ∈ s.packages request, t'.locate package ≠ t'.locate dest
  run : ((s.find request : StateM FileTree _).run t) = (.ok (some dest), t')
  mem : dest ∈ s.candidates request
  holds : t'.HoldsAt dest l c
  but : SameFilesBut l t t'

/-! ## Files between moves -/

/-- Files that searches leave between their moves: nothing has changed but for new directories and one file, which is as
it was or complete. -/
structure Stage (t : FileTree) (l : List String) (c : Bytes) (u : FileTree) : Prop where
  isTree : u.IsTree
  but : SameFilesBut l t u
  dest : u.contents? l = t.contents? l ∨ u.contents? l = some c

/-- What a search does to files between others: they stay at a stage, no directory is removed, and a complete file stays
complete. -/
def Rely (t : FileTree) (l : List String) (c : Bytes) (u v : FileTree) : Prop :=
  Stage t l c u → Stage t l c v ∧ (∀ k, u.entry? k = some .dir → v.entry? k = some .dir) ∧
    (u.contents? l = some c → v.contents? l = some c)

instance : Std.Refl (Rely t l c) := ⟨fun _ h => ⟨h, fun _ hk => hk, fun hc => hc⟩⟩

instance : IsTrans FileTree (Rely t l c) where
  trans _ _ _ huv hvw h := by
    obtain ⟨hv, hdirs, hcontents⟩ := huv h
    obtain ⟨hw, hdirs', hcontents'⟩ := hvw hv
    exact ⟨hw, fun k hk => hdirs' k (hdirs k hk), fun hc => hcontents' (hcontents hc)⟩

/-- A search ends with a candidate that leads to the complete file. -/
structure EndsAt (s : SymbolStore) (request : DebugFileRequest) (t : FileTree) (l : List String) (c : Bytes)
    (result : Except SymbolError (Option FilePath)) (u : FileTree) : Prop where
  stage : Stage t l c u
  complete : u.contents? l = some c
  result : ∃ path ∈ s.candidates request, result = .ok (some path) ∧ u.locate path = .ok l

theorem EndsAt.of_rely {result : Except SymbolError (Option FilePath)} (h : s.EndsAt request t l c result u)
    (huv : Rely t l c u v) : s.EndsAt request t l c result v := by
  obtain ⟨hv, hdirs, hcontents⟩ := huv h.stage
  have hc := hcontents h.complete
  obtain ⟨path, hmem, hresult, hpath⟩ := h.result
  exact ⟨hv, hc, path, hmem, hresult, locate_of_dirs hdirs hpath (by rw [contents?_eq_some_iff.1 hc]; rfl)⟩

namespace Alone

variable (h : s.Alone request t t' dest l c)

include h

/-- What a candidate leads to, if it carries the identity, is the complete file. -/
theorem found (hu : Stage t l c u) (hpath : path ∈ s.candidates request) (hread : u.read path = .ok b)
    (hcarries : Carries request b) : u.locate path = .ok l ∧ u.contents? l = some c := by
  obtain ⟨k, hk, hb⟩ := read_eq_ok.1 hread
  have hnew : t.contents? k ≠ some b := fun hold => by
    have hlocate : t.locate path = .ok k := h.isTree.locate_of_old (fun _ => hu.but.dir_of_dir)
      (h.up path (List.mem_append_left _ hpath)) hk (by rw [contents?_eq_some_iff.1 hold]; rfl)
    exact h.unverified path hpath (verified_iff_carries.2 ⟨b, read_eq_ok.2 ⟨k, hlocate, hold⟩, hcarries⟩)
  by_cases hkl : k = l
  · subst hkl
    exact ⟨hk, hu.dest.resolve_left fun heq => hnew (heq ▸ hb)⟩
  · exact absurd ((hu.but.files k hkl).symm.trans hb) hnew

/-- What leads to the place of the debug file at a stage leads there in the end. -/
theorem locate_eq (hu : Stage t l c u) (hpath : path ∈ s.candidates request ++ s.packages request)
    (hl : u.locate path = .ok l) : t'.locate path = t'.locate dest := by
  have hsome : (t'.entry? l).isSome := by rw [contents?_eq_some_iff.1 h.holds.contents_eq]; rfl
  rw [h.holds.locate]
  exact h.holds.isTree.locate_of_old (fun _ => h.but.dir_of_other hu.but) (h.up path hpath) hl hsome

/-- No package lies where the debug file is extracted to. -/
theorem locate_package (hu : Stage t l c u) (hpackage : package ∈ s.packages request) : u.locate package ≠ .ok l :=
  fun hl => h.apart package hpackage (h.locate_eq hu (List.mem_append_right _ hpackage) hl)

/-- Where the file is complete, its path leads to it. -/
theorem locate_dest (hu : Stage t l c u) (hc : u.contents? l = some c) : u.locate dest = .ok l :=
  hu.isTree.locate_of_old (fun _ => hu.but.dir_of_other h.but) (h.up dest (List.mem_append_left _ h.mem))
    h.holds.locate (by rw [contents?_eq_some_iff.1 hc]; rfl)

theorem stage : Stage t l c t :=
  ⟨h.isTree, ⟨fun _ hk => hk, fun _ _ => rfl, fun hl => h.but.notDir (h.but.dirs l hl)⟩, .inl rfl⟩

/-- Packages are read as in the beginning. -/
theorem read_package (hu : Stage t l c u) (hpackage : package ∈ s.packages request) :
    u.read package = .ok b ↔ t.read package = .ok b := by
  constructor
  · intro hread
    obtain ⟨k, hk, hb⟩ := read_eq_ok.1 hread
    have hkl : k ≠ l := fun heq => h.locate_package hu hpackage (heq ▸ hk)
    have hb' : t.contents? k = some b := (hu.but.files k hkl).symm.trans hb
    have hlocate : t.locate package = .ok k := h.isTree.locate_of_old (fun _ => hu.but.dir_of_dir)
      (h.up package (List.mem_append_right _ hpackage)) hk (by rw [contents?_eq_some_iff.1 hb']; rfl)
    exact read_eq_ok.2 ⟨k, hlocate, hb'⟩
  · exact fun hread => hu.but.read hread (h.locate_package h.stage hpackage)

theorem isFile_package (hu : Stage t l c u) (hpackage : package ∈ s.packages request) :
    u.isFile package = t.isFile package := by
  rw [Bool.eq_iff_iff, isFile_iff_read, isFile_iff_read]
  exact exists_congr fun _ => h.read_package hu hpackage

end Alone

/-! ## Safe searches -/

/-- A script that ends as searches do. -/
abbrev SearchScript : Type := Script (Except SymbolError (Option FilePath))

/-- From files on, a script does only what searches may do between others, and ends with a candidate that leads to the
complete file, when it is not interrupted once it has come to make the file. -/
def Goes (s : SymbolStore) (request : DebugFileRequest) (t : FileTree) (l : List String) (c : Bytes) (x : SearchScript)
    (u : FileTree) : Prop := x.Safe FileOp.makesFile (Rely t l c) (s.EndsAt request t l c) u

theorem goes_found (hu : Stage t l c u) (hmem : path ∈ s.candidates request) (hpath : u.locate path = .ok l)
    (hc : u.contents? l = some c) : s.Goes request t l c (pure (.ok (some path))) u :=
  Script.Safe.done fun _ hv => EndsAt.of_rely ⟨hu, hc, path, hmem, rfl, hpath⟩ hv

namespace Alone

variable (h : s.Alone request t t' dest l c)

include h

/-- Verifying a candidate is safe if the search goes on safely: where it succeeds, the file is complete. -/
theorem goes_verify {f : Bool → SearchScript} (hu : Stage t l c u)
    (hpath : path ∈ s.candidates request)
    (hyes : ∀ v, Stage t l c v → v.locate path = .ok l → v.contents? l = some c → s.Goes request t l c (f true) v)
    (hno : ∀ v, Stage t l c v → s.Goes request t l c (f false) v) : s.Goes request t l c (verify request path >>= f) u := by
  rw [verify, bind_assoc]
  refine Script.Safe.isFile rfl fun v hv => ?_
  have hstage : Stage t l c v := (hv hu).1
  cases v.isFile path with
  | false => exact hno v hstage
  | true =>
    simp only [if_true, DebugFileIdentity.peekAt, bind_assoc]
    refine Script.Safe.read rfl fun w hw => ?_
    have hstage' : Stage t l c w := (hw hstage).1
    cases hread : w.read path with
    | error e => exact hno w hstage'
    | ok b =>
      simp only [pure_bind]
      cases hidentity : DebugFileIdentity.read b with
      | error e => exact hno w hstage'
      | ok identity =>
        simp only [pure_bind]
        cases hmatch : identity.matchesId request.debugId with
        | false => exact hno w hstage'
        | true =>
          obtain ⟨hlocate, hc⟩ := h.found hstage' hpath hread ⟨identity, hidentity, hmatch⟩
          exact hyes w hstage' hlocate hc

/-- Looking for the first verified one of some candidates is safe if the search goes on safely. -/
theorem goes_firstVerified {f : Option FilePath → SearchScript}
    (hfound : ∀ path v, path ∈ s.candidates request → Stage t l c v → v.locate path = .ok l → v.contents? l = some c →
      s.Goes request t l c (f (some path)) v)
    (hnone : ∀ v, Stage t l c v → s.Goes request t l c (f none) v) {paths : List FilePath}
    (hpaths : ∀ path ∈ paths, path ∈ s.candidates request) :
    ∀ {u}, Stage t l c u → s.Goes request t l c (firstVerified request paths >>= f) u := by
  induction paths with
  | nil => exact fun hu => hnone _ hu
  | cons path rest ih =>
    intro u hu
    rw [firstVerified, bind_assoc]
    have hmem := hpaths path List.mem_cons_self
    exact h.goes_verify hu hmem (fun v hv hlocate hc => hfound path v hmem hv hlocate hc)
      fun v hv => ih (fun other hother => hpaths other (List.mem_cons_of_mem _ hother)) hv

/-- Looking for a package finds the same one as in the beginning. -/
theorem goes_firstFile {f : Option FilePath → SearchScript} {paths : List FilePath}
    (hpaths : ∀ path ∈ paths, path ∈ s.packages request)
    (hrest : ∀ v, Stage t l c v → s.Goes request t l c (f (paths.find? (t.isFile ·))) v) :
    ∀ {u}, Stage t l c u → s.Goes request t l c (firstFile paths >>= f) u := by
  induction paths with
  | nil => exact fun hu => hrest _ hu
  | cons path rest ih =>
    intro u hu
    rw [firstFile, bind_assoc]
    refine Script.Safe.isFile rfl fun v hv => ?_
    have hstage : Stage t l c v := (hv hu).1
    rw [h.isFile_package hstage (hpaths path List.mem_cons_self)]
    rw [List.find?_cons] at hrest
    cases hisFile : t.isFile path with
    | true =>
      rw [hisFile] at hrest
      exact hrest v hstage
    | false =>
      rw [hisFile] at hrest
      exact ih (fun other hother => hpaths other (List.mem_cons_of_mem _ hother)) hrest hstage

/-- A package that lacks the debug file is passed. -/
theorem goes_findInPackage_of_lacks {f : Except SymbolError (Option FilePath) → SearchScript}
    (hpackage : package ∈ s.packages request) (hlacks : Lacks t package request.name)
    (hrest : ∀ v, Stage t l c v → s.Goes request t l c (f (.ok none)) v) (hu : Stage t l c u) :
    s.Goes request t l c (findInPackage request package root >>= f) u := by
  obtain ⟨b, archive, hread, harchive, hnone⟩ := hlacks
  have hbody : bodyIn? request b = some none := by
    rw [bodyIn?, harchive, Option.bind_some]
    exact Zip.bodyNamed?_eq_some_none_iff.2 hnone
  rw [findInPackage_eq, bind_assoc]
  refine Script.Safe.read rfl fun v hv => ?_
  have hstage : Stage t l c v := (hv hu).1
  simp only [(h.read_package hstage hpackage).2 hread, hbody]
  exact hrest v hstage

/-- Once it comes to make the file, a search that is not interrupted completes it. -/
theorem goes_create {f : Except FileError Unit → SearchScript}
    {g : Except SymbolError (Option FilePath) → SearchScript}
    (hf : f (.ok ()) = fill request package body dest >>= g) (hg : g (.ok (some dest)) = pure (.ok (some dest)))
    (hpackage : package ∈ s.packages request) (hread : t.read package = .ok b) (hcontents : body.contents? b = some c)
    (hcarries : Carries request c) (hu : Stage t l c u) (hplace : u.fileLocation dest = .ok l) :
    s.Goes request t l c (FileSystem.create dest >>= f) u := by
  refine Script.Safe.create rfl fun v hv => ?_
  obtain ⟨hstage, hdirs, -⟩ := hv hu
  have hplace' : v.fileLocation dest = .ok l := fileLocation_of_dirs hdirs hplace hstage.but.notDir
  obtain ⟨hempty, hbut⟩ := hstage.isTree.holdsAt_set hplace' []
  have hread' : FileTree.read (v.set l (.file [])) package = .ok b :=
    hbut.read ((h.read_package hstage hpackage).2 hread) (h.locate_package hstage hpackage)
  obtain ⟨w, hfill, hholds, hbut'⟩ := run_fill hempty hread' hcontents hcarries
  have hcreate : v.create dest = (v.set l (.file []), .ok ()) := by rw [FileTree.create, hplace']
  have hrun : (f (.ok ())).run (v.set l (.file [])) = (.ok (some dest), w) := by
    rw [hf, Script.run_andThen, runs_fill package body dest, hfill, hg]
    rfl
  have hlast : Stage t l c w :=
    ⟨hholds.isTree, hstage.but.trans (hbut.trans hbut'), .inr hholds.contents_eq⟩
  rw [hcreate, hrun]
  exact ⟨fun _ => ⟨hlast, (hbut.trans hbut').dirs, fun _ => hholds.contents_eq⟩,
    fun x hx => EndsAt.of_rely ⟨hlast, hholds.contents_eq, dest, h.mem, rfl, hholds.locate⟩ hx⟩

/-- The directories that a search alone makes can be made at any stage. -/
theorem exists_createDirs {parent : FilePath} (hdirs : (t.createDirs parent).2 = .ok ())
    (hplace : (t.createDirs parent).1.fileLocation dest = .ok l) (hu : Stage t l c u) :
    ∃ u', u.createDirs parent = (u', .ok ()) ∧ Rely t l c u u' ∧ u'.fileLocation dest = .ok l := by
  obtain ⟨u', hu', hbut⟩ := createDirs_alongside h.isTree hu.but (Prod.ext rfl hdirs) (notDir_of_fileLocation hplace)
  obtain ⟨htree, hsame⟩ := hu.isTree.createDirs parent
  rw [hu'] at htree hsame
  refine ⟨u', hu', fun _ => ⟨⟨htree, hu.but.sameFiles hsame hbut.notDir, ?_⟩, hsame.dirs, fun hc => ?_⟩,
    fileLocation_of_dirs hbut.dirs hplace hbut.notDir⟩
  · rw [hsame.files]
    exact hu.dest
  · rw [hsame.files]
    exact hc

/-- The package that decides is extracted in the end, also when others have made directories in between. -/
theorem goes_findInPackage_of_extracts {g : Except SymbolError (Option FilePath) → SearchScript}
    (hg : g (.ok (some dest)) = pure (.ok (some dest))) (hdest : packageDest request root = dest)
    (hpackage : package ∈ s.packages request) (hextracts : Extracts request t package root b body l c)
    (hu : Stage t l c u) : s.Goes request t l c (findInPackage request package root >>= g) u := by
  have hread := hextracts.readable
  have hdirs := hextracts.dirs
  have hplace := hextracts.place
  rw [hdest] at hdirs hplace
  rw [findInPackage_eq, bind_assoc]
  refine Script.Safe.read rfl fun v hv => ?_
  have hstage : Stage t l c v := (hv hu).1
  simp only [(h.read_package hstage hpackage).2 hread, hextracts.has, bind_assoc, makeFile, hdest]
  unfold parentDirs at hdirs hplace
  cases hparent : dest.parent? with
  | none =>
    simp only [hparent] at hplace
    exact h.goes_create rfl hg hpackage hread hextracts.contents hextracts.carries hstage
      (fileLocation_of_dirs hstage.but.dirs hplace hstage.but.notDir)
  | some parent =>
    simp only [hparent] at hdirs hplace
    rw [bind_assoc]
    refine Script.Safe.createDirs rfl (fun w hw => ?_) fun w hw => ?_
    · obtain ⟨w', hw', hrely, -⟩ := h.exists_createDirs hdirs hplace (hw hstage).1
      rw [hw']
      exact hrely
    · obtain ⟨w', hw', hrely, hplace'⟩ := h.exists_createDirs hdirs hplace (hw hstage).1
      rw [hw']
      exact h.goes_create rfl hg hpackage hread hextracts.contents hextracts.carries (hrely (hw hstage).1).1 hplace'

/-- What a package gives to a search alone, it gives at any stage. -/
theorem goes_findInPackage {g : Except SymbolError (Option FilePath) → SearchScript}
    (hg : g (.ok (some dest)) = pure (.ok (some dest))) (hpackage : package ∈ s.packages request)
    (hrun : ((findInPackage request package root : StateM FileTree _).run t) = (.ok (some dest), t'))
    (hu : Stage t l c u) : s.Goes request t l c (findInPackage request package root >>= g) u := by
  obtain ⟨hdest, b, body, l', c', hextracts, hholds, -⟩ := exists_extracts h.isTree hrun (h.apart package hpackage)
  cases hholds.locate.symm.trans h.holds.locate
  cases hholds.contents_eq.symm.trans h.holds.contents_eq
  exact h.goes_findInPackage_of_extracts hg hdest.symm hpackage hextracts hu

/-- In a place whose layouts are candidates, a search goes on with the same package as in the beginning. -/
theorem goes_revisitDir {f : Except SymbolError (Option FilePath) → SearchScript}
    (hf : ∀ path, f (.ok (some path)) = pure (.ok (some path))) {own : Option FilePath} {dir : FilePath}
    (hlayouts : ∀ path ∈ layouts request dir ++ own.elim [] (layouts request), path ∈ s.candidates request)
    (hpackages : ∀ package ∈ request.packageNames.map dir.join, package ∈ s.packages request)
    (hrest : ∀ v, Stage t l c v → s.Goes request t l c (match packageIn? request t dir with
      | none => f (.ok none)
      | some package => findInPackage request package (own.getD dir) >>= f) v) (hu : Stage t l c u) :
    s.Goes request t l c (revisitDir request own dir >>= f) u := by
  -- what is found in a layout is the complete file
  have hfound : ∀ path v, path ∈ s.candidates request → Stage t l c v → v.locate path = .ok l → v.contents? l = some c →
      s.Goes request t l c (pure (.ok (some path)) >>= f) v := by
    intro path v hmem hv hpath hc
    rw [pure_bind, hf]
    exact goes_found hv hmem hpath hc
  have hpackage : ∀ v, Stage t l c v → s.Goes request t l c ((firstFile (request.packageNames.map dir.join) >>= fun found =>
      match found with
      | none => pure (.ok none)
      | some package => findInPackage request package (own.getD dir)) >>= f) v := by
    intro v hv
    rw [bind_assoc]
    refine h.goes_firstFile hpackages (fun w hw => ?_) hv
    have hgoes := hrest w hw
    unfold packageIn? at hgoes
    revert hgoes
    cases (request.packageNames.map dir.join).find? (t.isFile ·) with
    | none => exact fun hgoes => hgoes
    | some package => exact fun hgoes => hgoes
  rw [revisitDir, bind_assoc]
  refine h.goes_firstVerified hfound (fun v hv => ?_)
    (fun path hpath => hlayouts path (List.mem_append_left _ hpath)) hu
  cases own with
  | none => exact hpackage v hv
  | some cache =>
    dsimp only
    rw [bind_assoc]
    refine h.goes_firstVerified hfound (fun w hw => hpackage w hw)
      (fun path hpath => hlayouts path (List.mem_append_right _ hpath)) hv

/-- **The second tier is safe** in files where it extracts the debug file when it is alone. -/
theorem goes_revisitPlaces {places : List SymbolPathElement} (hplaces : ∀ place ∈ places, place ∈ s.path.elements)
    (hrun : ((revisitPlaces request places : StateM FileTree _).run t) = (.ok (some dest), t')) :
    ∀ {u}, Stage t l c u → s.Goes request t l c (revisitPlaces request places) u := by
  induction places with
  | nil => cases hrun
  | cons place rest ih =>
    intro u hu
    have hplace := hplaces place List.mem_cons_self
    have hothers : ∀ other ∈ rest, other ∈ s.path.elements := fun other hother =>
      hplaces other (List.mem_cons_of_mem _ hother)
    have hcases := run_revisitPlaces_cons rest fun path hpath =>
      h.unverified path (mem_candidates_of_revisited hplace hpath)
    rw [hrun] at hcases
    unfold revisitPlaces revisitPlace
    cases hdir : place.localDir? with
    | none =>
      -- no package decides on a server
      obtain ⟨-, hrest⟩ | ⟨_, _, hdecides, -⟩ := hcases
      · exact ih hothers hrest.symm hu
      · obtain ⟨dir, hdir', -⟩ := hdecides.dir
        rw [hdir] at hdir'
        cases hdir'
    | some dir =>
      have hlayouts : ∀ path ∈ layouts request dir ++ place.ownCache?.elim [] (layouts request),
          path ∈ s.candidates request := fun path hpath =>
        mem_candidates_of_revisited hplace (by rw [revisited, hdir]; exact hpath)
      dsimp only
      refine h.goes_revisitDir ?_ hlayouts (fun package => mem_packages hplace hdir) (fun v hv => ?_) hu
      · exact fun _ => rfl
      obtain ⟨hpasses, hrest⟩ | ⟨package, root, hdecides, hfind⟩ := hcases
      · cases hpackage : packageIn? request t dir with
        | none => exact ih hothers hrest.symm hv
        | some package =>
          have hmem : package ∈ s.packages request := mem_packages hplace hdir (List.mem_of_find?_eq_some hpackage)
          exact h.goes_findInPackage_of_lacks hmem (hpasses dir hdir package hpackage)
            (fun w hw => ih hothers hrest.symm hw) hv
      · obtain ⟨dir', hdir', hpackage, rfl⟩ := hdecides.dir
        cases hdir.symm.trans hdir'
        have hmem : package ∈ s.packages request := mem_packages hplace hdir (List.mem_of_find?_eq_some hpackage)
        rw [hpackage]
        exact h.goes_findInPackage rfl hmem hfind.symm hv

/-- **A search is safe** in files where it extracts the debug file when it is alone. -/
theorem goes_find (hu : Stage t l c u) : s.Goes request t l c (s.find request) u := by
  have hrun : ((revisitPlaces request s.path.elements : StateM FileTree _).run t) = (.ok (some dest), t') := by
    rw [← ((find_misses_nothing s request t).2 h.unverified).1]
    exact h.run
  rw [find, search_eq]
  exact h.goes_firstVerified (fun path v hmem hv hpath hc => goes_found hv hmem hpath hc)
    (fun v hv => h.goes_revisitPlaces (fun _ hplace => hplace) hrun hv) (fun _ hpath => hpath) hu

end Alone

/-! ## Two searches -/

/-- What a search alone extracts, if it extracts anything. -/
theorem exists_alone (htree : t.IsTree) (hunverified : ∀ path ∈ s.candidates request, ¬ Verified request path t)
    (hup : ∀ path ∈ s.candidates request ++ s.packages request, ".." ∉ path.pieces)
    (hrun : ((s.find request : StateM FileTree _).run t) = (.ok (some dest), t'))
    (hapart : ∀ package ∈ s.packages request, t'.locate package ≠ t'.locate dest) :
    ∃ l c, s.Alone request t t' dest l c := by
  obtain ⟨path, hfirst, -⟩ | ⟨-, ⟨-, hcase⟩ | ⟨place, hplace, package, root, hdecides, hcase⟩⟩ := find_cases s request t
  · have hverified : Verified request path t := by simpa using List.find?_some hfirst
    exact absurd hverified (hunverified path (List.mem_of_find?_eq_some hfirst))
  · cases hrun.symm.trans hcase
  · have hsearch := packageSearch_findInPackage request htree package root
    rw [← hcase, hrun] at hsearch
    cases hsearch with
    | found _ l c _ hholds _ hbut =>
      exact ⟨l, c, htree, hunverified, hup, hapart, hrun, packageDest_mem_candidates hplace hdecides, hholds, hbut⟩

/-- Two searches for the same debug file on the same files. -/
def together (s : SymbolStore) (request : DebugFileRequest) (t : FileTree) :
    Race (Except SymbolError (Option FilePath)) := ⟨s.find request, s.find request, t⟩

/-- **Searches that are not interrupted once they have come to make the file succeed together**, however they take turns
otherwise: each finds a candidate that leads to the complete file, which is the destination if no other candidate leads
there. Turns of this kind are among those in which the searches are interrupted after each operation, and a search that is
not interrupted at all runs as it does alone. -/
theorem finds_succeed (htree : t.IsTree) (hunverified : ∀ path ∈ s.candidates request, ¬ Verified request path t)
    (hup : ∀ path ∈ s.candidates request ++ s.packages request, ".." ∉ path.pieces)
    (hrun : ((s.find request : StateM FileTree _).run t) = (.ok (some dest), t'))
    (hapart : ∀ package ∈ s.packages request, t'.locate package ≠ t'.locate dest) :
    (∀ turns a b u, ((s.together request t).play FileOp.makesFile turns).outcome? = some (a, b, u) →
        (∃ path ∈ s.candidates request, a = .ok (some path) ∧ u.locate path = u.locate dest) ∧
          (∃ path ∈ s.candidates request, b = .ok (some path) ∧ u.locate path = u.locate dest) ∧
          u.read dest = t'.read dest ∧
          ((∀ path ∈ s.candidates request, t'.locate path = t'.locate dest → path = dest) →
            a = .ok (some dest) ∧ b = .ok (some dest))) ∧
      Race.Ends FileOp.makesFile (s.together request t) ∧
      (∀ turns, ∃ singles, (s.together request t).play Script.singly singles =
        (s.together request t).play FileOp.makesFile turns) ∧
      Script.Runs (s.find request) (s.find request) := by
  refine ⟨fun turns a b u houtcome => ?_, Race.ends _, fun turns => Race.exists_play_singly _ turns _, runs_find s⟩
  obtain ⟨l, c, h⟩ := exists_alone htree hunverified hup hrun hapart
  have hsafe : (s.together request t).Safe FileOp.makesFile (Rely t l c) (s.EndsAt request t l c) :=
    ⟨h.goes_find h.stage, h.goes_find h.stage⟩
  obtain ⟨ha, hb⟩ := hsafe.outcome houtcome
  have hdest : u.locate dest = .ok l := h.locate_dest ha.stage ha.complete
  rw [hdest, h.holds.read]
  refine ⟨ha.result, hb.result, read_eq_ok.2 ⟨l, hdest, ha.complete⟩, fun honly => ?_⟩
  obtain ⟨first, hfirst, rfl, hlfirst⟩ := ha.result
  obtain ⟨second, hsecond, rfl, hlsecond⟩ := hb.result
  rw [honly first hfirst (h.locate_eq ha.stage (List.mem_append_left _ hfirst) hlfirst),
    honly second hsecond (h.locate_eq hb.stage (List.mem_append_left _ hsecond) hlsecond)]
  exact ⟨rfl, rfl⟩

/-! ## A file that is made twice -/

/-- The debug file in a package only. -/
def onlyPacked : FileTree :=
  ⟨[(["k"], .dir), (["k", "a.1.symbols.nupkg"], .file (Zip.write [("a", emptyFile)]))], []⟩

/-- The files with the directories for the debug file, which lie beside its package. -/
def prepared : FileTree := ⟨onlyPacked.entries ++ [(["k", "a"], .dir),
  (["k", "a", "000000000000000000000000000000001"], .dir)], []⟩

/-- The files with the debug file in these directories. -/
def extracted : FileTree := ⟨prepared.entries ++
  [(["k", "a", "000000000000000000000000000000001", "a"], .file emptyFile)], []⟩

/-- The directory of the package is searched. -/
def besidePackage : SymbolStore := ⟨⟨[.directory ⟨"k"⟩]⟩, ⟨"c"⟩, 30⟩

theorem unverified_onlyPacked : ∀ path ∈ besidePackage.candidates packedRequest,
    ¬ Verified packedRequest path onlyPacked := by decide +kernel

set_option maxRecDepth 10000 in
theorem run_find_besidePackage : ((besidePackage.find packedRequest : StateM FileTree _).run onlyPacked) =
    (.ok (some ⟨"k/a/000000000000000000000000000000001/a"⟩), extracted) := by
  change (_ : Except SymbolError (Option FilePath) × FileTree) = _
  decide +kernel

/-- Two searches succeed together with a package in a directory. -/
theorem finds_succeed_besidePackage : onlyPacked.IsTree ∧
    (∀ path ∈ besidePackage.candidates packedRequest ++ besidePackage.packages packedRequest, ".." ∉ path.pieces) ∧
    (∀ package ∈ besidePackage.packages packedRequest,
      extracted.locate package ≠ extracted.locate ⟨"k/a/000000000000000000000000000000001/a"⟩) ∧
    (∀ path ∈ besidePackage.candidates packedRequest,
      extracted.locate path = extracted.locate ⟨"k/a/000000000000000000000000000000001/a"⟩ →
        path = ⟨"k/a/000000000000000000000000000000001/a"⟩) ∧
    (∀ turns a b u, ((besidePackage.together packedRequest onlyPacked).play FileOp.makesFile turns).outcome? =
          some (a, b, u) →
        a = .ok (some ⟨"k/a/000000000000000000000000000000001/a"⟩) ∧
          b = .ok (some ⟨"k/a/000000000000000000000000000000001/a"⟩) ∧
          u.read ⟨"k/a/000000000000000000000000000000001/a"⟩ =
            extracted.read ⟨"k/a/000000000000000000000000000000001/a"⟩) ∧
      Race.Ends FileOp.makesFile (besidePackage.together packedRequest onlyPacked) := by
  have hup : ∀ path ∈ besidePackage.candidates packedRequest ++ besidePackage.packages packedRequest,
      ".." ∉ path.pieces := by decide +kernel
  have hapart : ∀ package ∈ besidePackage.packages packedRequest,
      extracted.locate package ≠ extracted.locate ⟨"k/a/000000000000000000000000000000001/a"⟩ := by decide +kernel
  have honly : ∀ path ∈ besidePackage.candidates packedRequest,
      extracted.locate path = extracted.locate ⟨"k/a/000000000000000000000000000000001/a"⟩ →
        path = ⟨"k/a/000000000000000000000000000000001/a"⟩ := by decide +kernel
  obtain ⟨hall, hends, -, -⟩ := finds_succeed (by decide) unverified_onlyPacked hup run_find_besidePackage hapart
  refine ⟨by decide, hup, hapart, honly, fun turns a b u houtcome => ?_, hends⟩
  obtain ⟨-, -, hread, hdest⟩ := hall turns a b u houtcome
  obtain ⟨ha, hb⟩ := hdest honly
  exact ⟨ha, hb, hread⟩

/-- The second search comes to the package, and makes directories. The first one makes the file and fills it. Then the
second one makes the file anew. The first one finds it empty, takes it for another one and removes it, and what the
second one fills is gone. -/
def overtaken : List Bool :=
  List.replicate 8 false ++ List.replicate 11 true ++ [false] ++ List.replicate 3 true ++ List.replicate 4 false

/-- Both searches blame the package. -/
def blamed : SymbolError := .archiveMismatch ⟨"a", ⟨"k/a.1.symbols.nupkg"⟩, ⟨Guid.nil, 1⟩⟩

set_option maxRecDepth 10000 in
theorem outcome?_overtaken : ((besidePackage.together packedRequest onlyPacked).play Script.singly overtaken).outcome? =
    some (.error blamed, .error blamed, prepared) := by
  decide +kernel

/-- If searches can be interrupted anywhere, both may fail, and leave no file. -/
theorem not_finds_succeed_singly : ¬ ∀ (s : SymbolStore) (request : DebugFileRequest) (t t' : FileTree)
    (dest : FilePath), t.IsTree → (∀ path ∈ s.candidates request, ¬ Verified request path t) →
    ((s.find request : StateM FileTree _).run t) = (.ok (some dest), t') →
    ∀ turns a b u, ((s.together request t).play Script.singly turns).outcome? = some (a, b, u) →
      a = .ok (some dest) ∧ b = .ok (some dest) ∧ u.read dest = t'.read dest := by
  intro hall
  obtain ⟨hfirst, -, -⟩ := hall besidePackage packedRequest onlyPacked extracted _ (by decide) unverified_onlyPacked
    run_find_besidePackage overtaken _ _ _ outcome?_overtaken
  cases hfirst

end SymbolStore

end Symbolicate
