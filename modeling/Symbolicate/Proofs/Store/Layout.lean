import Mathlib.Tactic.Common
import Symbolicate.Proofs.Files.Path
import Symbolicate.Proofs.Store.Packages
import Symbolicate.Proofs.Text.Hexadecimal

/-!
# Where packages are extracted to

A debug file from a package goes into the layout of a store. A key has neither dots nor slashes (`DebugId.mem_nativeKey`),
so with a file name without slashes the destination lies three steps below the root, whatever else the name is
(`below_of_fileLocation_packageDest`).
-/

namespace Symbolicate

/-! ## Keys -/

/-- Upper-case digits are neither dots nor slashes. -/
theorem Text.toUpper_digitChar_ne {d : Nat} (h : d < 16) : (Nat.digitChar d).toUpper ≠ '.' ∧
    (Nat.digitChar d).toUpper ≠ '/' := by
  have hall : ∀ d < 16, (Nat.digitChar d).toUpper ≠ '.' ∧ (Nat.digitChar d).toUpper ≠ '/' := by decide
  exact hall d h

namespace DebugId

theorem mem_nativeKey {id : DebugId} {c : Char} (h : c ∈ id.nativeKey.toList) : c ≠ '.' ∧ c ≠ '/' := by
  simp only [nativeKey, keyStem, Guid.digits, Text.hexUpper, String.toList_ofList, List.mem_append, List.mem_map,
    List.mem_flatMap, Text.hexByte] at h
  obtain ⟨digit, ⟨b, -, hdigit⟩, rfl⟩ | ⟨digit, hdigit, rfl⟩ := h
  · have hb := b.toNat_lt
    simp only [List.mem_cons, List.not_mem_nil, or_false] at hdigit
    obtain rfl | rfl := hdigit
    · exact Text.toUpper_digitChar_ne (by omega)
    · exact Text.toUpper_digitChar_ne (by omega)
  · obtain ⟨d, hd, rfl⟩ := Text.exists_digit_of_mem_toDigits hdigit
    exact Text.toUpper_digitChar_ne hd

theorem nativeKey_ne (id : DebugId) : id.nativeKey ≠ "" ∧ id.nativeKey ≠ "." ∧ id.nativeKey ≠ ".." := by
  refine ⟨fun h => ?_, fun h => ?_, fun h => ?_⟩
  · have hnil : Text.hexUpper id.age.toNat = [] := by
      have hlist := congrArg String.toList h
      simp only [nativeKey, String.toList_ofList] at hlist
      exact (List.append_eq_nil_iff.1 hlist).2
    exact Nat.toDigits_ne_nil (List.map_eq_nil_iff.1 hnil)
  · exact (mem_nativeKey (c := '.') (by rw [h]; decide)).1 rfl
  · exact (mem_nativeKey (c := '.') (by rw [h]; decide)).1 rfl

end DebugId

/-! ## Layouts -/

open FileTree

namespace SymbolStore

variable {request : DebugFileRequest} {root : FilePath} {t : FileTree} {l : List String}

/-- The pieces of a destination: those that lead to the root, the name, the key and the name again. -/
theorem pieces_packageDest (root : FilePath) (hname : '/' ∉ request.name.toList) :
    (packageDest request root).pieces =
        root.lead ++ (FilePath.lead ⟨request.name⟩ ++ [request.debugId.nativeKey, request.name]) ∧
      (request.layout request.debugId.nativeKey).isAbsolute = false := by
  have hkey : '/' ∉ request.debugId.nativeKey.toList := fun h => (DebugId.mem_nativeKey h).2 rfl
  have habs := FilePath.isAbsolute_of_notMem hname
  have hinner := FilePath.isAbsolute_join_eq_false habs (FilePath.isAbsolute_of_notMem hkey)
  have hlayout : (request.layout request.debugId.nativeKey).isAbsolute = false :=
    FilePath.isAbsolute_join_eq_false hinner habs
  refine ⟨?_, hlayout⟩
  rw [packageDest, FilePath.pieces_join hlayout, DebugFileRequest.layout, storeLayout, FilePath.pieces_join habs,
    FilePath.lead_join hkey (DebugId.nativeKey_ne _).1, FilePath.pieces_of_notMem hname, List.append_assoc]
  rfl

/-- A piece that is a name and is followed leads into the directory with this name. -/
theorem eq_append_of_step {piece : String} {k : List String} (h : t.step k piece = .ok l)
    (hname : piece ≠ "" ∧ piece ≠ "." ∧ piece ≠ "..") : l = k ++ [piece] := by
  obtain ⟨-, ⟨rfl | rfl, -⟩ | ⟨rfl, -⟩ | ⟨-, hl, -⟩⟩ := step_eq_ok h
  · exact absurd rfl hname.1
  · exact absurd rfl hname.2.1
  · exact absurd rfl hname.2.2
  · exact hl

/-- **Packages are extracted below the root.** A destination with a name without slashes lies three steps below where
the root leads, or there is none. An empty root is the working directory. -/
theorem below_of_fileLocation_packageDest (hname : '/' ∉ request.name.toList)
    (h : t.fileLocation (packageDest request root) = .ok l) :
    ∃ r, l = r ++ [request.name, request.debugId.nativeKey, request.name] ∧
      (root.text = "" ∧ r = [] ∨ t.locate root = .ok r) := by
  obtain ⟨start, parent, last, hstart, hfollow, hlast, -, hlastName, rfl, -⟩ := fileLocation_eq_ok.1 h
  obtain ⟨hpieces, hlayout⟩ := pieces_packageDest root hname
  -- the last piece is the name, so the name is one that a file can have
  obtain rfl : last = request.name := by rw [← hlast, hpieces]; simp
  rw [FilePath.lead_of_notMem hname hlastName.1] at hpieces
  have hdrop : (packageDest request root).pieces.dropLast =
      root.lead ++ [request.name, request.debugId.nativeKey] := by
    rw [hpieces, ← List.append_assoc]
    simp
  rw [hdrop, follow_append] at hfollow
  cases hr : t.follow start root.lead with
  | error e => rw [hr] at hfollow; cases hfollow
  | ok r =>
    rw [hr] at hfollow
    obtain ⟨a, hstepName, hrest⟩ := follow_cons_eq_ok.1 hfollow
    obtain ⟨b, hstepKey, hnil⟩ := follow_cons_eq_ok.1 hrest
    cases hnil
    obtain rfl := eq_append_of_step hstepName ⟨hlastName.1, hlastName.2.1, hlastName.2.2.1⟩
    obtain rfl := eq_append_of_step hstepKey (DebugId.nativeKey_ne _)
    refine ⟨r, by simp, ?_⟩
    by_cases hempty : root.text = ""
    · have habs : (packageDest request root).isAbsolute = false :=
        FilePath.isAbsolute_join_eq_false (by simp [FilePath.isAbsolute, hempty]) hlayout
      have hlead : root.lead = [] := by simp [FilePath.lead, hempty]
      rw [hlead] at hr
      cases hr
      exact .inl ⟨hempty, by rw [startOf_eq_ok hstart, habs]; rfl⟩
    · exact .inr (locate_of_follow_lead hempty (startOf_of_join hempty hlayout hstart) hr (step_eq_ok hstepName).1)

end SymbolStore

end Symbolicate
