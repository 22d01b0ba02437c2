import Mathlib.Tactic.Common
import Symbolicate.PortablePdb.Writer
import Symbolicate.Proofs.PortablePdb.Mapped
import Symbolicate.Proofs.Report.Provenance
import Symbolicate.Proofs.Store.Extracting
import Symbolicate.Proofs.Store.Find
import Symbolicate.Zip.Writer

/-!
# Locations from symbol stores

A frame of a report is annotated from the debug file that its module asks for, if this file stays as it was when the
module was loaded (`translate_from_requested_files`). A portable debug file is read where it lies, so the condition is
needed: a later search may extract another debug file over it, as a name of a module may lead into the layout of the
store (`not_translate_from_requested_files`).
-/

namespace Symbolicate.SymbolStore

open FileTree Translate SymbolPackage

variable {store : SymbolStore} {info : ModuleInfo} {t t' : FileTree} {request : DebugFileRequest} {path : FilePath}
  {l : List String} {b : Bytes} {map size : Nat}

/-! ## Maps while modules are loaded -/

theorem keepsMaps_verify (path : FilePath) : KeepsMaps (verify request path) :=
  .of_run fun t => (run_verify path t).1

theorem keepsMaps_makeFile (path : FilePath) : KeepsMaps (makeFile path) := by
  unfold makeFile
  cases path.parent? with
  | none => exact .create path
  | some parent =>
    refine KeepsMaps.bind (.createDirs parent) fun made => ?_
    cases made with
    | error e => exact .pure _
    | ok _ => exact .create path

theorem keepsMaps_unpack (package : FilePath) (body : Zip.Body) (dest : FilePath) :
    KeepsMaps (unpack package body dest) := by
  refine KeepsMaps.bind (.read package) fun contents => ?_
  -- whether the package can be read again or not, what has been read is unpacked
  cases contents
  all_goals
    refine KeepsMaps.bind (.pure _) fun b => ?_
    dsimp only
    cases body.contents? b with
    | none => exact .pure _
    | some c =>
      refine KeepsMaps.bind (.writeChunks dest c.length 0 c) fun written => ?_
      cases written <;> exact .pure _

theorem endsRemoving_fill (package : FilePath) (body : Zip.Body) (dest : FilePath) :
    EndsRemoving (fill request package body dest) := by
  refine EndsRemoving.bind (keepsMaps_unpack package body dest) fun isUnpacked => ?_
  cases isUnpacked with
  | false => exact .remove dest _
  | true =>
    refine EndsRemoving.bind (keepsMaps_verify dest) fun isVerified => ?_
    cases isVerified with
    | false => exact .remove dest _
    | true => exact .of_keepsMaps (.pure _)

/-- What is extracted may be removed again, as the last step. -/
theorem endsRemoving_findInPackage (package root : FilePath) : EndsRemoving (findInPackage request package root) := by
  rw [findInPackage_eq]
  refine EndsRemoving.bind (.read package) fun contents => ?_
  cases contents with
  | error e => exact .of_keepsMaps (.pure _)
  | ok b =>
    simp only
    cases bodyIn? request b with
    | none => exact .of_keepsMaps (.pure _)
    | some found =>
      cases found with
      | none => exact .of_keepsMaps (.pure _)
      | some body =>
        refine EndsRemoving.bind (keepsMaps_makeFile _) fun made => ?_
        cases made with
        | error e => exact .of_keepsMaps (.pure _)
        | ok _ => exact endsRemoving_fill package body _

/-- **A search leaves maps** where they are, unless nothing lies there when it has ended. -/
theorem follows_find (s : SymbolStore) (request : DebugFileRequest) (h : t.Follows map l size) :
    let u := ((s.find request : StateM FileTree _).run t).2
    u.Follows map l size ∨ u.contents? l = none := by
  obtain ⟨_, -, hrun⟩ | ⟨-, ⟨-, hrun⟩ | ⟨_, -, package, root, -, hrun⟩⟩ := find_cases s request t
  · rw [hrun]
    exact .inl h
  · rw [hrun]
    exact .inl h
  · rw [hrun]
    exact (endsRemoving_findInPackage package root).follows h

/-- Loading a module leaves maps where they are, unless nothing lies there when it has ended. -/
theorem follows_load (s : SymbolStore) (info : ModuleInfo) (h : t.Follows map l size) :
    let u := ((s.load info : StateM FileTree _).run t).2
    u.Follows map l size ∨ u.contents? l = none := by
  unfold load
  cases info.request? with
  | none => exact .inl h
  | some request =>
    have hfind := follows_find s request h
    simp only [run_bind]
    cases ((s.find request : StateM FileTree _).run t).1 with
    | error e => exact hfind
    | ok found =>
      cases found with
      | none => exact hfind
      | some path =>
        obtain ⟨hentries, hmaps⟩ := mappedOpenAt_adds path ((s.find request : StateM FileTree _).run t).2
        exact hfind.imp (·.of_more hmaps) fun hgone => (contents?_of_entries_eq hentries l).trans hgone

/-! ## Reports -/

section Reports

variable {input : Bytes}

/-- The files after the first `k` lines of a report have been translated. -/
def treeAfter (store : SymbolStore) (input : Bytes) (t : FileTree) (k : Nat) : FileTree :=
  stateAfter store.load (footerModules input) (bodyLines input) t k

/-- Looking a frame up leaves the files as they are. -/
theorem snd_lookedUp (lookup : Option (MappedDebugFile Nat)) (frame : StackFrame) (t : FileTree) :
    (lookedUp lookup frame t).2 = t := by
  cases lookup <;> rfl

/-- The files after the line at which a module is loaded are those after the load. -/
theorem treeAfter_succ_of_loadedAt {k : Nat} {file : MappedDebugFile Nat}
    (h : LoadedAt store.load info file (store.treeAfter input t k) (store.treeAfter input t (k + 1))) :
    ((store.load info : StateM FileTree _).run (store.treeAfter input t k)) =
      (.ok (some file), store.treeAfter input t (k + 1)) := by
  obtain ⟨frame, hframe⟩ := h.looked
  exact Prod.ext h.answer (hframe.trans (snd_lookedUp _ _ _)).symm

/-- One line leaves a map where it is if its file is there when the line has been translated. -/
theorem follows_treeAfter_succ {k : Nat} (h : (store.treeAfter input t k).Follows map l size)
    (hb : (store.treeAfter input t (k + 1)).contents? l = some b) :
    (store.treeAfter input t (k + 1)).Follows map l size := by
  obtain ⟨u, hu, hnext⟩ := exists_stateAfter_succ store.load (footerModules input) (bodyLines input) t k
  have hsucc : store.treeAfter input t (k + 1) = u := by
    obtain hnext | ⟨lookup, frame, hnext⟩ := hnext
    · exact hnext
    · exact hnext.trans (snd_lookedUp _ _ _)
  rw [hsucc] at hb ⊢
  obtain rfl | ⟨info, rfl⟩ := hu
  · exact h
  · refine (follows_load store info h).resolve_right fun hgone => ?_
    cases hb.symm.trans hgone

/-- **As long as a file stays as it is**, its map shows it. -/
theorem follows_treeAfter {k n : Nat} (hkn : k < n) (h : (store.treeAfter input t (k + 1)).Follows map l size)
    (hstays : ∀ j, k < j → j ≤ n → (store.treeAfter input t j).contents? l = some b) :
    (store.treeAfter input t n).Follows map l size := by
  induction n, hkn using Nat.le_induction with
  | base => exact h
  | succ n hkn ih =>
    exact follows_treeAfter_succ (ih fun j hj hjn => hstays j hj (by omega)) (hstays (n + 1) (by omega) (Nat.le_refl _))

/-- Where a location of a report is found: in the bytes that the map of a file shows when the line has been reached. This
file was loaded for the module of the frame, at this line or before. -/
theorem exists_loaded_of_foundLocations {i : Nat} {location : SourceLocation}
    (h : (foundLocations store.load t input)[i]? = some (some location)) :
    ∃ line frame info id k l b file, (bodyLines input)[i]? = some line ∧
      frameOf? (footerModules input) line = some (frame, info) ∧ info.debugId = some id ∧ k ≤ i ∧
      ((store.load info : StateM FileTree _).run (store.treeAfter input t k)) =
        (.ok (some file), store.treeAfter input t (k + 1)) ∧
      IsLoaded (store.treeAfter input t (k + 1)) id l b file ∧
      (file.opened.inPlace (.of b) ((store.treeAfter input t (i + 1)).view file.map)).sourceLocation
        frame.token frame.offset = some location := by
  obtain ⟨line, frame, info, file, u, hline, hframe, -, ⟨k, hk, hloadedAt⟩, hlooked⟩ :=
    comesFromLoad_of_foundLocations store.load t input h
  have hload := treeAfter_succ_of_loadedAt hloadedAt
  obtain ⟨id, l, b, hid, hloaded⟩ := isLoaded_of_load hload
  have hu : u = store.treeAfter input t (i + 1) := (snd_lookedUp _ frame u).symm.trans (congrArg Prod.snd hlooked)
  refine ⟨line, frame, info, id, k, l, b, file, hline, hframe, hid, by omega, hload, hloaded, ?_⟩
  rw [← hloaded.places, ← hu]
  exact congrArg Prod.fst hlooked

/-- A location of a frame on line `i` is right: it comes from a debug file that was there when the module of the frame
was loaded, at this line or before, and that is the one the module asks for. -/
def IsFromRequestedFile (store : SymbolStore) (input : Bytes) (t : FileTree) (i : Nat) (location : SourceLocation) :
    Prop :=
  ∃ line frame info id file, (bodyLines input)[i]? = some line ∧
    frameOf? (footerModules input) line = some (frame, info) ∧ info.debugId = some id ∧
    (∃ k ≤ i, ((store.loadFile info : StateM FileTree _).run (store.treeAfter input t k)).1 = .ok (some file) ∧
      HasDebugFile ((store.loadFile info : StateM FileTree _).run (store.treeAfter input t k)).2 id file) ∧
    file.sourceLocation frame.token frame.offset = some location

/-- **Frames are annotated from the debug files that their modules ask for**, as far as these stay as they are. Whatever
the report, the symbol path and the files are, the output is the body of the report with source locations. For each of
them the module of the frame was loaded, at the line of the frame or before, from a file that is the one the module asks
for, and the location is found in the bytes that the map of this file shows when the line has been reached. So it is
right if the file is native, or if it has held the same bytes from the load until then. -/
theorem translate_from_requested_files (store : SymbolStore) (input : Bytes) (t : FileTree) :
    let locations := foundLocations store.load t input
    (∃ stats, ((translate store.load ⟨input, none⟩ .unlimited : StateM FileTree _).run t).1 =
      (⟨render (footerModules input) (bodyLines input) locations, none, false⟩, .ok stats)) ∧
    locations.length = (bodyLines input).length ∧
    ∀ i location, locations[i]? = some (some location) →
      ∃ line frame info id k l b file, (bodyLines input)[i]? = some line ∧
        frameOf? (footerModules input) line = some (frame, info) ∧ info.debugId = some id ∧ k ≤ i ∧
        ((store.load info : StateM FileTree _).run (store.treeAfter input t k)) =
          (.ok (some file), store.treeAfter input t (k + 1)) ∧
        IsLoaded (store.treeAfter input t (k + 1)) id l b file ∧
        (file.opened.inPlace (.of b) ((store.treeAfter input t (i + 1)).view file.map)).sourceLocation
          frame.token frame.offset = some location ∧
        (file.opened.format = .native ∨
            (∀ j, k < j → j ≤ i + 1 → (store.treeAfter input t j).contents? l = some b) →
          IsFromRequestedFile store input t i location) := by
  refine ⟨exists_run_translate store.load t input, length_foundLocations store.load t input,
    fun i location hlocation => ?_⟩
  obtain ⟨line, frame, info, id, k, l, b, file, hline, hframe, hid, hk, hload, hloaded, hfound⟩ :=
    exists_loaded_of_foundLocations hlocation
  refine ⟨line, frame, info, id, k, l, b, file, hline, hframe, hid, hk, hload, hloaded, hfound, fun hstays => ?_⟩
  have hlocated : file.opened.sourceLocation frame.token frame.offset = some location := by
    rcases hstays with hnative | hstays
    · rwa [DebugFile.inPlace_of_native hnative] at hfound
    · have hview := (follows_treeAfter (Nat.lt_succ_of_le hk) hloaded.follows hstays).view
        (hstays (i + 1) (by omega) (Nat.le_refl _))
      rwa [hview, DebugFile.inPlace_self hloaded.read] at hfound
  have hloadFile : ((store.loadFile info : StateM FileTree _).run (store.treeAfter input t k)) =
      (.ok (some file.opened), store.treeAfter input t (k + 1)) := by
    rw [run_loadFile, hload]
    rfl
  refine ⟨line, frame, info, id, file.opened, hline, hframe, hid, ⟨k, hk, ?_, ?_⟩, hlocated⟩
  · rw [hloadFile]
  · rw [hloadFile]
    exact hloaded.hasDebugFile

/-! ## A file that is extracted over another -/

/-- Among the files that are there at some time is the one that the module of the frame on line `i` asks for, and this
has the location. -/
def IsInRequestedFile (store : SymbolStore) (input : Bytes) (t : FileTree) (i : Nat) (location : SourceLocation) :
    Prop :=
  ∃ line frame info id, (bodyLines input)[i]? = some line ∧
    frameOf? (footerModules input) line = some (frame, info) ∧ info.debugId = some id ∧
    ∃ k file, HasDebugFile (store.treeAfter input t k) id file ∧
      file.sourceLocation frame.token frame.offset = some location

/-- No file that is the one with an identity has a location for an offset into a method. -/
def hasNowhere (t : FileTree) (id : DebugId) (token offset : UInt32) (location : SourceLocation) : Bool :=
  t.entries.all fun e => match e.2 with
    | .dir => true
    | .file b => match DebugFile.read b with
      | .error _ => true
      | .ok file => ! file.identity.matchesId id || file.sourceLocation token offset != some location

theorem sourceLocation_ne_of_hasNowhere {id : DebugId} {token offset : UInt32} {location : SourceLocation}
    (h : hasNowhere t id token offset location = true) {file : DebugFile} (hhas : HasDebugFile t id file) :
    file.sourceLocation token offset ≠ some location := by
  obtain ⟨path, b, -, hread, hfile, hrequested⟩ := hhas
  obtain ⟨l, -, hb⟩ := read_eq_ok.1 hread
  have hentry := List.all_eq_true.1 h _ (mem_entries_of_contents? hb)
  simp only [hfile, (DebugFile.isRequested_iff file id).1 hrequested] at hentry
  simpa using hentry

/-- The files do not change any more behind the last line. -/
theorem treeAfter_min (k : Nat) :
    store.treeAfter input t k = store.treeAfter input t (min k (bodyLines input).length) := by
  rw [treeAfter, stateAfter, List.take_eq_take_min]
  rfl

end Reports

/-- A debug file with one method, which starts at a line of a document. -/
def oneLineFile (guid : Guid) (document : String) (line : Nat) : Bytes :=
  PortablePdb.Draft.write ⟨guid, [document], [⟨1, [⟨0, some line, none⟩]⟩]⟩

def outerGuid : Guid := ⟨List.replicate 15 0 ++ [0x0A], rfl⟩

def innerGuid : Guid := ⟨List.replicate 15 0 ++ [0x0B], rfl⟩

/-- A directory with a debug file, and with a package whose debug file has its place where the other one lies. -/
def crossed : FileTree := ⟨[(["r"], .dir), (["r", "n"], .dir), (["r", "n", "0000000000000000000000000000000B1"], .dir),
  (["r", "n", "0000000000000000000000000000000B1", "n"], .file (oneLineFile outerGuid "a" 1)),
  (["r", "b.1.symbols.nupkg"], .file (Zip.write [("n", oneLineFile innerGuid "b" 2)]))], []⟩

def inDirectory : SymbolStore := ⟨⟨[.directory ⟨"r"⟩]⟩, ⟨"c"⟩, 30⟩

def crossedLines : List Bytes :=
  ["at A!0x06000001!M() +0x0\n", "at B!0x06000001!M() +0x0\n", "at A!0x06000001!M() +0x0\n"].map Utf8.ofString

/-- Two frames of a module, and between them one of another module. -/
def crossedReport : Bytes := crossedLines.flatten ++ ["===\n",
  "MODULE: A => a, Version=1; F:n/0000000000000000000000000000000B1/n; ", "G:00000000-0000-0000-0000-00000000000a; A:1\n",
  "MODULE: B => b, Version=1; F:n; ", "G:00000000-0000-0000-0000-00000000000b; A:1\n"].flatMap Utf8.ofString

/-- The modules of the report. The debug file of the first one has a name that leads into the layout of a store. -/
def crossedModules : ModuleTable := ⟨[
  ⟨"A", "a, Version=1", "a", some "1", [("F", "n/0000000000000000000000000000000B1/n"),
    ("G", "00000000-0000-0000-0000-00000000000a"), ("A", "1")], some ⟨outerGuid, 1⟩,
    "n/0000000000000000000000000000000B1/n"⟩,
  ⟨"B", "b, Version=1", "b", some "1", [("F", "n"), ("G", "00000000-0000-0000-0000-00000000000b"), ("A", "1")],
    some ⟨innerGuid, 1⟩, "n"⟩]⟩

theorem bodyLines_crossedReport : bodyLines crossedReport = crossedLines := by decide +kernel

set_option maxRecDepth 10000 in
theorem footerModules_crossedReport : footerModules crossedReport = crossedModules := by decide +kernel

set_option maxRecDepth 10000 in
/-- The second frame of the first module gets the location of the other one. -/
theorem foundLocations_crossedReport : foundLocations inDirectory.load crossed crossedReport =
    [some ⟨some "a", 1⟩, some ⟨some "b", 2⟩, some ⟨some "b", 2⟩] := by
  rw [foundLocations, bodyLines_crossedReport, footerModules_crossedReport]
  decide +kernel

/-- The first frame is right, since its module has just been loaded. -/
theorem translate_from_requested_files_crossed :
    (foundLocations inDirectory.load crossed crossedReport)[0]? = some (some ⟨some "a", 1⟩) ∧
      IsFromRequestedFile inDirectory crossedReport crossed 0 ⟨some "a", 1⟩ := by
  have hfirst : (foundLocations inDirectory.load crossed crossedReport)[0]? = some (some ⟨some "a", 1⟩) := by
    rw [foundLocations_crossedReport]
    rfl
  obtain ⟨-, -, hall⟩ := translate_from_requested_files inDirectory crossedReport crossed
  obtain ⟨_, _, _, _, k, l, b, _, -, -, -, hk, -, hloaded, -, hright⟩ := hall 0 _ hfirst
  obtain rfl : k = 0 := by omega
  refine ⟨hfirst, hright (.inr fun j hj hj' => ?_)⟩
  obtain rfl : j = 1 := by omega
  exact hloaded.contents

set_option maxRecDepth 10000 in
theorem hasNowhere_crossed : ∀ k < 4, hasNowhere (inDirectory.treeAfter crossedReport crossed k) ⟨outerGuid, 1⟩
    0x06000001 0 ⟨some "b", 2⟩ = true := by
  simp only [treeAfter, stateAfter_eq, bodyLines_crossedReport, footerModules_crossedReport]
  decide +kernel

/-- **A frame may get a location from a wrong debug file.** The first module is loaded from the place that the package
of the second one is extracted to, so the map of its file shows the other one when its second frame is reached. -/
theorem not_translate_from_requested_files : ¬ ∀ (store : SymbolStore) (input : Bytes) (t : FileTree) (i : Nat)
    (location : SourceLocation), (foundLocations store.load t input)[i]? = some (some location) →
      IsInRequestedFile store input t i location := by
  intro hall
  obtain ⟨line, frame, info, id, hline, hframe, hid, k, file, hhas, hlocation⟩ :=
    hall inDirectory crossedReport crossed 2 ⟨some "b", 2⟩ (by rw [foundLocations_crossedReport]; rfl)
  rw [bodyLines_crossedReport] at hline
  rw [footerModules_crossedReport] at hframe
  have hasked : (crossedLines[2]?.bind fun line => (frameOf? crossedModules line).map fun found =>
      (found.1.token, found.1.offset, found.2.debugId)) = some (0x06000001, 0, some ⟨outerGuid, 1⟩) := by
    decide +kernel
  simp only [hline, Option.bind_some, hframe, Option.map_some, hid, Option.some.injEq, Prod.mk.injEq] at hasked
  obtain ⟨htoken, hoffset, rfl⟩ := hasked
  rw [htoken, hoffset] at hlocation
  rw [treeAfter_min, bodyLines_crossedReport] at hhas
  have hlength : crossedLines.length = 3 := rfl
  exact sourceLocation_ne_of_hasNowhere (hasNowhere_crossed _ (by omega)) hhas hlocation

end Symbolicate.SymbolStore
