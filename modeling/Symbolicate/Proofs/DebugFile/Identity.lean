import Mathlib.Tactic.Common
import Symbolicate.DebugFile.Open

/-!
# Identities of debug files

A debug file is verified by reading its identity alone, and is then read as a whole. Both agree: a file that is read as
a whole has the identity that is read alone (`identity_of_read`), and it is the one asked for if that identity matches
(`isRequested_of_read`).
-/

namespace Symbolicate

/-- A native debug file that is read as a whole has the identity that is read alone. -/
theorem NativePdb.identity?_of_read? {b : Bytes} {file : NativePdb} (h : NativePdb.read? b = some file) :
    NativePdb.identity? b = some file.debugId := by
  simp only [NativePdb.read?, Option.bind_eq_bind, Option.bind_eq_some_iff, Option.pure_def, Option.some.injEq] at h
  obtain ⟨c, hc, first, hfirst, i, hi, third, hthird, p, hp, _, _, _, _, index, _, rfl⟩ := h
  simp [NativePdb.identity?, hc, hfirst, hi, hthird, hp]

namespace DebugFile

variable {b : Bytes} {file : DebugFile}

/-- **A debug file has the identity that it was verified by.** -/
theorem identity_of_read (h : DebugFile.read b = .ok file) : DebugFileIdentity.read b = .ok file.identity := by
  cases hformat : FileFormat.of b with
  | native =>
    cases hread : NativePdb.read? b with
    | none => simp [DebugFile.read, hformat, hread] at h
    | some native =>
      simp only [DebugFile.read, hformat, hread, Except.ok.injEq] at h
      subst h
      simp only [DebugFileIdentity.read, hformat, NativePdb.identity?_of_read? hread]
      rfl
  | portable =>
    cases hread : PortablePdb.read b with
    | error e => simp [DebugFile.read, hformat, hread] at h
    | ok p =>
      cases hid : p.debugId? with
      | none => simp [DebugFile.read, hformat, hread, hid] at h
      | some id =>
        simp only [DebugFile.read, hformat, hread, hid, Except.ok.injEq] at h
        subst h
        simp only [DebugFileIdentity.read, hformat, hread, hid]
        rfl
  | unknown => simp [DebugFile.read, hformat] at h

/-- Whether a debug file is the one with an identity: a native file has its GUID and its age, a portable file its
GUID. -/
def IsRequested (file : DebugFile) (id : DebugId) : Prop :=
  match file with
  | native f => f.debugId.guid = id.guid ∧ f.debugId.age = id.age
  | portable _ own => own.guid = id.guid

theorem isRequested_iff (file : DebugFile) (id : DebugId) :
    file.IsRequested id ↔ file.identity.matchesId id = true := by
  cases file with
  | native f =>
    obtain ⟨⟨guid, age⟩, index⟩ := f
    obtain ⟨guid', age'⟩ := id
    simp [IsRequested, identity, format, debugId, DebugFileIdentity.matchesId]
  | portable _ own => simp [IsRequested, identity, format, debugId, DebugFileIdentity.matchesId]

theorem isRequested_of_read {identity : DebugFileIdentity} {id : DebugId} (h : DebugFile.read b = .ok file)
    (hid : DebugFileIdentity.read b = .ok identity) (hmatch : identity.matchesId id = true) :
    file.IsRequested id := by
  rw [identity_of_read h, Except.ok.injEq] at hid
  rwa [isRequested_iff, hid]

end DebugFile

end Symbolicate
