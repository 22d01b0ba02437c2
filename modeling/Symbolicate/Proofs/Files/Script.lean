import Mathlib.Tactic.Common
import Symbolicate.Proofs.Files.Runs

/-!
# File operations one at a time

Programs are written for any monad with files. In the monad of scripts (`Script`) a program is the tree of its single
operations: which one comes first, and how it goes on for each answer. So others can act between two operations of a
script. Run without interruption, a script does what its program does on file trees (`Script.Runs`).
-/

namespace Symbolicate

/-! ## Operations -/

/-- A single operation on files. -/
inductive FileOp where
  | isFile (path : FilePath)
  | read (path : FilePath)
  | createDirs (path : FilePath)
  | create (path : FilePath)
  | write (path : FilePath) (offset : Nat) (b : Bytes)
  | remove (path : FilePath)

namespace FileOp

/-- What an operation answers. -/
def Answer : FileOp → Type
  | isFile _ => Bool
  | read _ => Except FileError Bytes
  | createDirs _ | create _ | write _ _ _ => Except FileError Unit
  | remove _ => Unit

/-- Carries an operation out. -/
def run : (op : FileOp) → FileTree → op.Answer × FileTree
  | isFile path => (FileSystem.isFile path : StateM FileTree _).run
  | read path => (FileSystem.read path : StateM FileTree _).run
  | createDirs path => (FileSystem.createDirs path : StateM FileTree _).run
  | create path => (FileSystem.create path : StateM FileTree _).run
  | write path offset b => (FileSystem.write path offset b : StateM FileTree _).run
  | remove path => (FileSystem.remove path : StateM FileTree _).run

/-- Whether an operation makes a file. -/
def makesFile : FileOp → Bool
  | create _ => true
  | _ => false

end FileOp

/-! ## Scripts -/

/-- A program as the tree of its operations. -/
inductive Script (α : Type) : Type where
  | done (a : α)
  | step (op : FileOp) (next : op.Answer → Script α)

namespace Script

variable {α β γ : Type}

/-- One script, and then another that depends on its result. -/
def andThen : Script α → (α → Script β) → Script β
  | done a, f => f a
  | step op next, f => step op fun answer => (next answer).andThen f

instance : Monad Script where
  pure := done
  bind := andThen

theorem andThen_done (x : Script α) : x.andThen done = x := by
  induction x with
  | done a => rfl
  | step op next ih => exact congrArg (step op) (funext ih)

theorem andThen_assoc (x : Script α) (f : α → Script β) (g : β → Script γ) :
    (x.andThen f).andThen g = x.andThen fun a => (f a).andThen g := by
  induction x with
  | done a => rfl
  | step op next ih => exact congrArg (step op) (funext ih)

instance : LawfulMonad Script := LawfulMonad.mk' Script andThen_done (fun _ _ => rfl) andThen_assoc

/-- An operation as a script of its own. -/
def ofOp (op : FileOp) : Script op.Answer := step op done

instance : FileSystem Script where
  isFile path := ofOp (.isFile path)
  read path := ofOp (.read path)
  createDirs path := ofOp (.createDirs path)
  create path := ofOp (.create path)
  write path offset b := ofOp (.write path offset b)
  remove path := ofOp (.remove path)

/-! ## Runs without interruption -/

/-- Runs a script to its end. -/
def run : Script α → FileTree → α × FileTree
  | done a, t => (a, t)
  | step op next, t => (next (op.run t).1).run (op.run t).2

theorem run_andThen (x : Script α) (f : α → Script β) (t : FileTree) :
    (x >>= f).run t = (f (x.run t).1).run (x.run t).2 := by
  induction x generalizing t with
  | done a => rfl
  | step op next ih => exact ih _ _

/-- A script does without interruption what a program does. -/
def Runs (x : Script α) (y : StateM FileTree α) : Prop := ∀ t, x.run t = y.run t

theorem runs_pure (a : α) : Runs (pure a) (pure a) := fun _ => rfl

theorem Runs.bind {x : Script α} {y : StateM FileTree α} {f : α → Script β} {g : α → StateM FileTree β} (h : Runs x y)
    (hf : ∀ a, Runs (f a) (g a)) : Runs (x >>= f) (y >>= g) := by
  intro t
  rw [run_andThen, h t, run_bind]
  exact hf _ _

theorem Runs.ite {p : Prop} [Decidable p] {x x' : Script α} {y y' : StateM FileTree α} (h : Runs x y)
    (h' : Runs x' y') : Runs (if p then x else x') (if p then y else y') := by
  split
  · exact h
  · exact h'

section Operations

variable (path : FilePath)

theorem runs_isFile : Runs (FileSystem.isFile path) (FileSystem.isFile path) := fun _ => rfl

theorem runs_read : Runs (FileSystem.read path) (FileSystem.read path) := fun _ => rfl

theorem runs_createDirs : Runs (FileSystem.createDirs path) (FileSystem.createDirs path) := fun _ => rfl

theorem runs_create : Runs (FileSystem.create path) (FileSystem.create path) := fun _ => rfl

theorem runs_write (offset : Nat) (b : Bytes) :
    Runs (FileSystem.write path offset b) (FileSystem.write path offset b) := fun _ => rfl

theorem runs_remove : Runs (FileSystem.remove path) (FileSystem.remove path) := fun _ => rfl

end Operations

theorem runs_writeChunks (path : FilePath) (fuel : Nat) :
    ∀ offset b, Runs (FileSystem.writeChunks path fuel offset b) (FileSystem.writeChunks path fuel offset b) := by
  induction fuel with
  | zero => exact fun _ _ => runs_pure _
  | succ fuel ih =>
    intro offset b
    cases b with
    | nil => exact runs_pure _
    | cons first rest =>
      refine (runs_write path _ _).bind fun answer => ?_
      cases answer with
      | error e => exact runs_pure _
      | ok _ => exact ih _ _

theorem runs_writeAll (path : FilePath) (b : Bytes) : Runs (FileSystem.writeAll path b) (FileSystem.writeAll path b) :=
  runs_writeChunks path _ _ _

theorem runs_peekAt (path : FilePath) : Runs (DebugFileIdentity.peekAt path) (DebugFileIdentity.peekAt path) := by
  refine (runs_read path).bind fun contents => ?_
  cases contents <;> exact runs_pure _

end Script

end Symbolicate
