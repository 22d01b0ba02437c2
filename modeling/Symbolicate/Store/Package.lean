import Symbolicate.Files.FileSystem
import Symbolicate.Store.Error
import Symbolicate.Zip.Archive

/-!
# Symbol packages

Extracting a debug file from a symbol package, which is a zip archive. The entry is chosen by its file name, in whatever
directory of the archive it lies. A file that is not extracted to its end does not stay.
-/

namespace Symbolicate

/-- The body of the first entry that is a file with the given name, if there is one. All entries up to it have to be
readable. -/
def Zip.bodyNamed? (b : Bytes) (name : String) : List Zip.Entry → Option (Option Zip.Body)
  | [] => some none
  | e :: rest => do
    let body ← e.body? b
    if e.isFileNamed name then return some body else Zip.bodyNamed? b name rest

namespace SymbolPackage

variable {m : Type → Type} [Monad m] [FileSystem m]

/-- The first of some paths that leads to a file. -/
def firstFile : List FilePath → m (Option FilePath)
  | [] => return none
  | path :: rest => do
    if ← FileSystem.isFile path then return some path else firstFile rest

/-- Makes a file without contents, and the directories it lies in. -/
def makeFile (path : FilePath) : m (Except FileError Unit) := do
  match path.parent? with
  | none => FileSystem.create path
  | some parent =>
    match ← FileSystem.createDirs parent with
    | .error e => return .error e
    | .ok () => FileSystem.create path

/-- Writes the contents of a body into a file that has just been made. The package is read after that, since it may be
the same file. -/
def unpack (package : FilePath) (body : Zip.Body) (dest : FilePath) : m Bool := do
  let b : Bytes ← match ← FileSystem.read package with
    | .ok b => pure b
    | .error _ => pure []
  match body.contents? b with
  | none => return false
  | some contents =>
    match ← FileSystem.writeAll dest contents with
    | .ok () => return true
    | .error _ => return false

/-- Extracts the first entry with the given name to `dest`, and tells whether there is one. -/
def extract (package : FilePath) (name : String) (dest : FilePath) : m (Except SymbolError Bool) := do
  match ← FileSystem.read package with
  | .error _ => return .error .io
  | .ok b =>
    match (Zip.Archive.read? b).bind fun archive => Zip.bodyNamed? b name archive.entries with
    | none => return .error .badArchive
    | some none => return .ok false
    | some (some body) =>
      match ← makeFile dest with
      | .error _ => return .error .io
      | .ok () =>
        if ← unpack package body dest then return .ok true
        FileSystem.remove dest
        return .error .badArchive

end SymbolPackage

end Symbolicate
