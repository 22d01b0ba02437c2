import Symbolicate.CommandLine.Run

/-!
# The program

Files, arguments and environment of the running process. Everything that is decided is decided in
`Symbolicate.CommandLine.run`.
-/

namespace Symbolicate

/-- Whether an error code is the given one, which some operations report negated. -/
def isCode (expected code : UInt32) : Bool := code == expected || code == 0 - expected

/-- What a fault of the operating system means. -/
def faultOf (e : IO.Error) : FileError :=
  match e with
  | .noFileOrDirectory _ _ _ => .notFound
  | .alreadyExists _ _ _ => .alreadyExists
  | .inappropriateType _ code _ =>
    if isCode 20 code then .notADirectory else if isCode 21 code then .isADirectory else .other e.toString
  | .invalidArgument _ code _ => if isCode 36 code then .nameTooLong else .other e.toString
  | _ => .other e.toString

def attempt {α : Type} (action : IO α) : IO (Except FileError α) := do
  match ← action.toBaseIO with
  | .ok a => return .ok a
  | .error e => return .error (faultOf e)

/-- The files of the running process. They are written from the start to the end, so a write goes to the end. -/
instance : FileSystem IO where
  isFile p := do
    match ← attempt do return (← (← IO.FS.realPath p.text).metadata).type with
    | .ok kind => return kind == .file
    | .error _ => return false
  read p := attempt do return (← IO.FS.readBinFile p.text).toList
  createDirs p := attempt (IO.FS.createDirAll p.text)
  create p := attempt (IO.FS.writeBinFile p.text .empty)
  write p _ b := attempt do
    let file ← IO.FS.Handle.mk p.text .append
    file.write ⟨b.toArray⟩
  remove p := do
    let _ ← attempt (IO.FS.removeFile p.text)

/-- A file that is held open, and how long it was when it was opened. -/
structure OpenFile where
  handle : IO.FS.Handle
  size : Nat

/-- Maps of the files of the running process: an open file is read again each time it is looked at. -/
instance : MappedFiles IO OpenFile where
  map p := attempt do
    let handle ← IO.FS.Handle.mk p.text .read
    return ⟨handle, (← handle.readBinToEnd).size⟩
  view file := do
    let contents ← attempt do
      file.handle.rewind
      return (← file.handle.readBinToEnd).toList
    let b := contents.toOption.getD []
    return b.take file.size ++ List.replicate (file.size - b.length) 0

/-- Translates the reports that the arguments name. -/
def runProcess (args : List String) : IO UInt32 := do
  let temporary := (← IO.getEnv "TMPDIR").getD "/tmp"
  let environment : Environment := ⟨← IO.getEnv "_NT_SYMBOL_PATH", ⟨temporary⟩⟩
  let outcome ← CommandLine.run args environment (attempt do return (← (← IO.getStdin).readBinToEnd).toList)
  (← IO.getStdout).write ⟨outcome.output.toArray⟩
  (← IO.getStderr).write ⟨outcome.messages.toArray⟩
  return UInt32.ofNat outcome.code

end Symbolicate

def main (args : List String) : IO UInt32 := Symbolicate.runProcess args
