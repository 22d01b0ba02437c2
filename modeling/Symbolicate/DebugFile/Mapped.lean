import Symbolicate.DebugFile.Basic
import Symbolicate.Files.FileSystem
import Symbolicate.PortablePdb.Mapped

/-!
# Debug files in maps

A debug file is opened by mapping it into memory and reading it there. A native file is indexed then and does not need
its map any more. Look-ups in a portable file go back to the map (`MappedDebugFile.sourceLocation`), so they see what has
been written into the file since.
-/

namespace Symbolicate

/-- The debug file as look-ups find it when the bytes of the file are `now`. -/
def DebugFile.inPlace (file : DebugFile) (places : PortablePdb.Places) (now : Bytes) : DebugFile :=
  match file with
  | native _ => file
  | portable p id => portable (p.inPlace places now) id

/-- A debug file that has been opened: what was read then, where look-ups find the rest, and the map. -/
structure MappedDebugFile (Map : Type) where
  opened : DebugFile
  places : PortablePdb.Places
  map : Map

namespace MappedDebugFile

variable {m : Type → Type} [Monad m] {Map : Type} [MappedFiles m Map]

/-- Opens the debug file at a path. -/
def openAt (path : FilePath) : m (Except DebugFileError (MappedDebugFile Map)) := do
  match ← MappedFiles.map path with
  | .error _ => return .error .unreadable
  | .ok map =>
    let b ← MappedFiles.view map
    match DebugFile.read b with
    | .error e => return .error e
    | .ok file => return .ok ⟨file, .of b, map⟩

/-- The source location of an offset into the method with a token, by what the map shows now. -/
def sourceLocation (file : MappedDebugFile Map) (token offset : UInt32) : m (Option SourceLocation) := do
  let now ← MappedFiles.view file.map
  return (file.opened.inPlace file.places now).sourceLocation token offset

instance : SourceLookups m (MappedDebugFile Map) where
  sourceLocation := sourceLocation

end MappedDebugFile

end Symbolicate
