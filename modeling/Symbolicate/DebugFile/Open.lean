import Symbolicate.DebugFile.Basic
import Symbolicate.Files.FileSystem

/-!
# Opening debug files

Debug files at paths: their identity alone (`DebugFileIdentity.peekAt`), or as a whole (`DebugFile.openAt`). A file that
cannot be read is a fault like any other.
-/

namespace Symbolicate

variable {m : Type → Type} [Monad m] [FileSystem m]

/-- Reads the identity of the debug file at a path. -/
def DebugFileIdentity.peekAt (path : FilePath) : m (Except DebugFileError DebugFileIdentity) := do
  match ← FileSystem.read path with
  | .error _ => return .error .unreadable
  | .ok b => return DebugFileIdentity.read b

def DebugFile.openAt (path : FilePath) : m (Except DebugFileError DebugFile) := do
  match ← FileSystem.read path with
  | .error _ => return .error .unreadable
  | .ok b => return DebugFile.read b

end Symbolicate
