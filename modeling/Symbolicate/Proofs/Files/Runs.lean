import Symbolicate.DebugFile.Open
import Symbolicate.Proofs.Files.Tree

/-!
# Runs on file trees

What single steps give and leave behind when they are run: looking at files leaves them as they are, and debug files are
read from what lies at their path. Writing chunk by chunk puts all bytes into the file (`run_writeAll`).
-/

namespace Symbolicate

section Steps

variable {σ α β : Type}

/-- A run of two steps is a run of the first and, from where that ends, of the second. -/
theorem run_bind (x : StateM σ α) (f : α → StateM σ β) (s : σ) : (x >>= f).run s = (f (x.run s).1).run (x.run s).2 := rfl

theorem run_pure (a : α) (s : σ) : (pure a : StateM σ α).run s = (a, s) := rfl

end Steps

variable (path : FilePath) (t : FileTree)

theorem run_isFile : ((FileSystem.isFile path : StateM FileTree Bool).run t) = (t.isFile path, t) := rfl

theorem run_read : ((FileSystem.read path : StateM FileTree _).run t) = (t.read path, t) := rfl

theorem run_peekAt : ((DebugFileIdentity.peekAt path : StateM FileTree _).run t) =
    (match t.read path with
      | .error _ => .error .unreadable
      | .ok b => DebugFileIdentity.read b, t) := by
  rw [DebugFileIdentity.peekAt, run_bind, run_read]
  cases t.read path <;> rfl

theorem run_openAt : ((DebugFile.openAt path : StateM FileTree _).run t) =
    (match t.read path with
      | .error _ => .error .unreadable
      | .ok b => DebugFile.read b, t) := by
  rw [DebugFile.openAt, run_bind, run_read]
  cases t.read path <;> rfl

/-! ## Changes -/

theorem run_createDirs : ((FileSystem.createDirs path : StateM FileTree _).run t) = (t.createDirs path).swap := rfl

theorem run_create : ((FileSystem.create path : StateM FileTree _).run t) = (t.create path).swap := rfl

theorem run_write (offset : Nat) (b : Bytes) :
    ((FileSystem.write path offset b : StateM FileTree _).run t) = (t.write path offset b).swap := rfl

open FileTree in
/-- Chunks are added at the end of a file one after the other. Only the last one may be short, so each starts where the
file ends. -/
theorem run_writeChunks {path : FilePath} {l : List String} (fuel : Nat) :
    ∀ {t : FileTree} {c b : Bytes} {offset : Nat}, t.HoldsAt path l c → (b = [] ∨ offset = c.length) →
      b.length ≤ fuel →
      ∃ t', ((FileSystem.writeChunks path fuel offset b : StateM FileTree _).run t) = (.ok (), t') ∧
        t'.HoldsAt path l (c ++ b) ∧ (t' = t ∨ SameFilesBut l t t') := by
  induction fuel with
  | zero =>
    intro t c b offset h _ hb
    obtain rfl : b = [] := List.eq_nil_of_length_eq_zero (by omega)
    exact ⟨t, rfl, by rwa [List.append_nil], .inl rfl⟩
  | succ fuel ih =>
    intro t c b offset h hoffset hb
    cases hcases : b with
    | nil => exact ⟨t, rfl, by rwa [List.append_nil], .inl rfl⟩
    | cons first rest =>
      rw [← hcases]
      have hne : b ≠ [] := by simp [hcases]
      have hlength : b.length ≠ 0 := by simp [hcases]
      obtain rfl := hoffset.resolve_left hne
      obtain ⟨t₁, hwrite, hholds, hbut⟩ := h.write_end (b.take FileSystem.chunkSize)
      have hchunk : FileSystem.chunkSize = 8192 := rfl
      have hnext : b.drop FileSystem.chunkSize = [] ∨
          c.length + FileSystem.chunkSize = (c ++ b.take FileSystem.chunkSize).length := by
        rw [List.drop_eq_nil_iff, List.length_append, List.length_take]
        omega
      obtain ⟨t', hrun, hholds', hlast⟩ := ih hholds hnext (by rw [List.length_drop]; omega)
      rw [List.append_assoc, List.take_append_drop] at hholds'
      refine ⟨t', ?_, hholds', .inr ?_⟩
      · rw [hcases] at hwrite hrun ⊢
        rw [FileSystem.writeChunks, run_bind, run_write, hwrite]
        · exact hrun
        · exact fun h => List.cons_ne_nil _ _ h
      · obtain rfl | hlast := hlast
        · exact hbut
        · exact hbut.trans hlast

/-- **All bytes are written** into a file without contents. -/
theorem run_writeAll {path : FilePath} {t : FileTree} {l : List String} (h : t.HoldsAt path l []) (b : Bytes) :
    ∃ t', ((FileSystem.writeAll path b : StateM FileTree _).run t) = (.ok (), t') ∧ t'.HoldsAt path l b ∧
      (t' = t ∨ FileTree.SameFilesBut l t t') :=
  run_writeChunks b.length h (.inr rfl) (Nat.le_refl _)

end Symbolicate
