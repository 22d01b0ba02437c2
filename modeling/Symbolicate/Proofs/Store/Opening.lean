import Mathlib.Tactic.Common
import Symbolicate.PortablePdb.Writer
import Symbolicate.Proofs.DebugFile.Identity
import Symbolicate.Proofs.Files.Runs
import Symbolicate.Proofs.Store.Verified

/-!
# Verifying and opening

Verifying a file reads its identity, opening it reads all of it, and each starts from the bytes. A native file can have
an identity and damaged lines, but what is opened has the identity that was read. A file of another kind either has an
identity and is opened, or both end with faults of the one kind that its contents call for (`ends_read`).
`opened_as_verified` says this of the files in a tree.
-/

namespace Symbolicate

namespace DebugFile

/-! ## Contents -/

/-- Whether what a path leads to is a portable file that can be read and has an identity. -/
def IsIdentified (contents : Except FileError Bytes) : Prop :=
  ∃ b p id, contents = .ok b ∧ PortablePdb.peek b = true ∧ PortablePdb.read b = .ok p ∧ p.debugId? = some id

/-- The kind of faults of what a path leads to, unless that is a native file. -/
def faultKind : Except FileError Bytes → DebugFileErrorKind
  | .error _ => .io
  | .ok b => if PortablePdb.peek b then .badPortable else .unsupportedFormat

/-- How both readings end: with the identity of the file that is read, or with faults of the kind that is called for. -/
inductive Ends (contents : Except FileError Bytes) :
    Except DebugFileError DebugFileIdentity → Except DebugFileError DebugFile → Prop
  | ok (file : DebugFile) : IsIdentified contents → Ends contents (.ok file.identity) (.ok file)
  | error {e e' : DebugFileError} : ¬ IsIdentified contents → e.kind = faultKind contents →
      e'.kind = faultKind contents → Ends contents (.error e) (.error e')

theorem format_of_not_native {b : Bytes} (h : NativePdb.peek b = false) :
    FileFormat.of b = if PortablePdb.peek b then .portable else .unknown := by
  rw [FileFormat.of, h]
  rfl

/-- **Both readings of a file that is not native end alike.** -/
theorem ends_read {b : Bytes} (h : NativePdb.peek b = false) :
    Ends (.ok b) (DebugFileIdentity.read b) (DebugFile.read b) := by
  have hformat := format_of_not_native h
  cases hpeek : PortablePdb.peek b with
  | false =>
    rw [hpeek] at hformat
    have hkind : faultKind (.ok b) = .unsupportedFormat := by rw [faultKind, hpeek]; rfl
    have hnot : ¬ IsIdentified (.ok b) := by
      rintro ⟨_, p, id, ⟨⟩, hportable, _⟩
      exact Bool.false_ne_true (hpeek.symm.trans hportable)
    simp only [DebugFileIdentity.read, DebugFile.read, hformat]
    exact .error hnot hkind.symm hkind.symm
  | true =>
    rw [hpeek] at hformat
    have hkind : faultKind (.ok b) = .badPortable := by rw [faultKind, hpeek]; rfl
    simp only [DebugFileIdentity.read, DebugFile.read, hformat]
    cases hread : PortablePdb.read b with
    | error e =>
      have hnot : ¬ IsIdentified (.ok b) := by
        rintro ⟨_, p, id, ⟨⟩, -, hp, -⟩
        cases hread.symm.trans hp
      exact .error hnot hkind.symm hkind.symm
    | ok p =>
      cases hid : p.debugId? with
      | none =>
        have hnot : ¬ IsIdentified (.ok b) := by
          rintro ⟨_, q, id, ⟨⟩, -, hq, hsome⟩
          cases hread.symm.trans hq
          cases hid.symm.trans hsome
        simp only [hid]
        exact .error hnot hkind.symm hkind.symm
      | some id =>
        simp only [hid]
        exact .ok (.portable p id) ⟨b, p, id, rfl, hpeek, hread, hid⟩

/-! ## Paths -/

/-- Opening a file by mapping it leaves the files as they are, and gives what reading it gives. -/
theorem run_mappedOpenAt_eq (path : FilePath) (t : FileTree) :
    ∃ mapped u, ((MappedDebugFile.openAt path : StateM FileTree _).run t) = (mapped, u) ∧ u.entries = t.entries ∧
      ((openAt path : StateM FileTree _).run t) = (mapped.map (·.opened), t) := by
  rw [run_openAt]
  cases hread : t.read path with
  | error e => exact ⟨_, _, run_mappedOpenAt_of_error hread, rfl, rfl⟩
  | ok b =>
    obtain ⟨l, hl, hb⟩ := FileTree.read_eq_ok.1 hread
    refine ⟨_, _, run_mappedOpenAt hl hb, rfl, ?_⟩
    show (DebugFile.read b, t) = _
    cases DebugFile.read b <;> rfl

/-- **What is verified opens as what was asked for.** Whatever a path leads to, reading its identity and opening it
leave the files as they are, and a file that opens, in a map or as a whole, has the identity that is read. Unless it is
native, both end alike: it opens if it is a portable file with an identity, and otherwise both have faults of the one
kind that is called for. -/
theorem opened_as_verified (path : FilePath) (t : FileTree) :
    ∃ peeked opened,
      ((DebugFileIdentity.peekAt path : StateM FileTree _).run t) = (peeked, t) ∧
      ((openAt path : StateM FileTree _).run t) = (opened, t) ∧
      (∃ mapped u, ((MappedDebugFile.openAt path : StateM FileTree _).run t) = (mapped, u) ∧ u.entries = t.entries ∧
        mapped.map (·.opened) = opened) ∧
      (∀ file, opened = .ok file → peeked = .ok file.identity) ∧
      ((∀ b, t.read path = .ok b → NativePdb.peek b = false) → Ends (t.read path) peeked opened) ∧
      ∀ (request : DebugFileRequest) (file : DebugFile),
        ((SymbolStore.verify request path : StateM FileTree Bool).run t).1 = true → opened = .ok file →
          file.IsRequested request.debugId := by
  obtain ⟨mapped, u, hmapped, hentries, hopen⟩ := run_mappedOpenAt_eq path t
  have hsame : mapped.map (·.opened) = _ := (Prod.mk.inj (hopen.symm.trans (run_openAt path t))).1
  refine ⟨_, _, run_peekAt path t, run_openAt path t, ⟨mapped, u, hmapped, hentries, hsame⟩, ?_⟩
  cases hread : t.read path with
  | error cause =>
    have hnot : ¬ IsIdentified (.error cause) := by
      rintro ⟨b, _, _, ⟨⟩, _⟩
    exact ⟨fun _ hopened => (nomatch hopened), fun _ => .error hnot rfl rfl, fun _ _ _ hopened => (nomatch hopened)⟩
  | ok b =>
    refine ⟨fun file => identity_of_read, fun hnative => ends_read (hnative b rfl), ?_⟩
    intro request file hverified hopened
    obtain ⟨-, c, identity, hc, hidentity, hmatch⟩ := (SymbolStore.run_verify path t).2 hverified
    cases hread.symm.trans hc
    exact isRequested_of_read hopened hidentity hmatch

/-- A file with an identity, one without, and an empty one. -/
def threeFiles : FileTree :=
  ⟨[(["a"], .file (PortablePdb.Draft.write ⟨Guid.nil, [], []⟩)),
    (["b"], .file ([0x42, 0x53, 0x4A, 0x42, 1, 0, 1, 0] ++ List.replicate 12 0)), (["c"], .file [])], []⟩

/-- What is wrong with the others, and with a path that leads nowhere. -/
def faults : List (FilePath × DebugFileErrorKind) :=
  [(⟨"b"⟩, .badPortable), (⟨"c"⟩, .unsupportedFormat), (⟨"d"⟩, .io)]

/-- The first opens as the file that it is verified as, the others fail in both ways. -/
theorem opened_as_verified_threeFiles :
    (∃ file, ((openAt ⟨"a"⟩ : StateM FileTree _).run threeFiles) = (.ok file, threeFiles) ∧
      ((DebugFileIdentity.peekAt ⟨"a"⟩ : StateM FileTree _).run threeFiles) = (.ok file.identity, threeFiles) ∧
      file.IsRequested ⟨Guid.nil, 7⟩) ∧
    ∀ fault ∈ faults, ∃ e e',
      ((DebugFileIdentity.peekAt fault.1 : StateM FileTree _).run threeFiles) = (.error e, threeFiles) ∧
      ((openAt fault.1 : StateM FileTree _).run threeFiles) = (.error e', threeFiles) ∧
      e.kind = fault.2 ∧ e'.kind = fault.2 := by
  constructor
  · obtain ⟨peeked, opened, hpeek, hopen, -, hsame, -, hrequested⟩ := opened_as_verified ⟨"a"⟩ threeFiles
    have hok : ((openAt ⟨"a"⟩ : StateM FileTree _).run threeFiles).1.isOk = true := by decide +kernel
    have hverified : ((SymbolStore.verify ⟨"a", ⟨Guid.nil, 7⟩, "a", none⟩ ⟨"a"⟩ : StateM FileTree Bool).run
        threeFiles).1 = true := by decide +kernel
    rw [hopen] at hok
    cases opened with
    | error e => cases hok
    | ok file => exact ⟨file, hopen, hsame file rfl ▸ hpeek, hrequested _ file hverified rfl⟩
  · have hnative : ∀ fault ∈ faults, (threeFiles.read fault.1).toOption.all (! NativePdb.peek ·) = true := by
      decide +kernel
    have hfails : ∀ fault ∈ faults, ((openAt fault.1 : StateM FileTree _).run threeFiles).1.isOk = false := by
      decide +kernel
    have hkind : ∀ fault ∈ faults, faultKind (threeFiles.read fault.1) = fault.2 := by decide +kernel
    intro fault hfault
    obtain ⟨peeked, opened, hpeek, hopen, -, -, hends, -⟩ := opened_as_verified fault.1 threeFiles
    have hfail := hfails fault hfault
    rw [hopen] at hfail
    have hothers : ∀ b, threeFiles.read fault.1 = .ok b → NativePdb.peek b = false := fun b hb => by
      simpa [hb, Except.toOption] using hnative fault hfault
    cases hends hothers with
    | ok file _ => cases hfail
    | @error e e' _ he he' => exact ⟨e, e', hpeek, hopen, he.trans (hkind fault hfault), he'.trans (hkind fault hfault)⟩

end DebugFile

end Symbolicate
