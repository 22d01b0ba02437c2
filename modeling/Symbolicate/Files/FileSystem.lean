import Symbolicate.Bytes.Basic
import Symbolicate.Files.Error
import Symbolicate.Files.Path

/-!
# File operations

The single operations on files that searches and extractions are made of, in whatever monad files live, and files that
are mapped into memory. A map is shared: it shows what its file holds when it is looked at.
-/

namespace Symbolicate

/-- A monad with files. -/
class FileSystem (m : Type → Type) where
  /-- Whether a path leads to a regular file. -/
  isFile : FilePath → m Bool
  /-- The contents of a file. -/
  read : FilePath → m (Except FileError Bytes)
  /-- Creates a directory and the directories it lies in, as far as they do not exist. -/
  createDirs : FilePath → m (Except FileError Unit)
  /-- Creates a file without contents, or empties the one that is there. -/
  create : FilePath → m (Except FileError Unit)
  /-- Writes bytes into a file from an offset on. -/
  write : FilePath → Nat → Bytes → m (Except FileError Unit)
  /-- Removes a file, if it is there. -/
  remove : FilePath → m Unit

/-- A monad in which files can be mapped into memory. A map stays with its file when this is removed, and when its path
comes to lead to another one. -/
class MappedFiles (m : Type → Type) (Map : outParam Type) where
  /-- Maps the file that a path leads to. -/
  map : FilePath → m (Except FileError Map)
  /-- The bytes that a map shows now. -/
  view : Map → m Bytes

namespace FileSystem

variable {m : Type → Type} [Monad m] [FileSystem m]

/-- How many bytes are written at a time. -/
def chunkSize : Nat := 8192

/-- Writes bytes chunk by chunk, at most `fuel` chunks, until a write fails. -/
def writeChunks (path : FilePath) : Nat → Nat → Bytes → m (Except FileError Unit)
  | 0, _, _ => return .ok ()
  | _, _, [] => return .ok ()
  | fuel + 1, offset, b => do
    match ← write path offset (b.take chunkSize) with
    | .error e => return .error e
    | .ok () => writeChunks path fuel (offset + chunkSize) (b.drop chunkSize)

/-- Writes all bytes into a file that has just been created. -/
def writeAll (path : FilePath) (b : Bytes) : m (Except FileError Unit) := writeChunks path b.length 0 b

end FileSystem

end Symbolicate
