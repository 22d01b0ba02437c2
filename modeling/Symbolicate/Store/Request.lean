import Symbolicate.DebugId
import Symbolicate.Files.Path

/-!
# Requests for debug files

What a symbol store is asked for: a file name, the identity the file must carry, and the name and version of the
assembly, by which symbol packages are found. Stores file a debug file as `<name>/<key>/<name>`.
-/

namespace Symbolicate

/-- A request for the debug file of one module. -/
structure DebugFileRequest where
  /-- The file name, such as `Library.pdb`. -/
  name : String
  debugId : DebugId
  /-- The short name of the assembly. -/
  shortName : String
  /-- The version of the assembly. -/
  version : Option String
  deriving DecidableEq, Repr

/-- Where a debug file lies under the root of a store that files it under `key`. -/
def storeLayout (name key : String) : FilePath := (FilePath.join ⟨name⟩ ⟨key⟩).join ⟨name⟩

namespace DebugFileRequest

/-- Where the file lies under the root of a store that files it under `key`. -/
def layout (r : DebugFileRequest) (key : String) : FilePath := storeLayout r.name key

/-- The package names of the request: with the version as it is, and without one final `.0`. -/
def packageNames (r : DebugFileRequest) : List FilePath :=
  let name (version : List Char) : FilePath :=
    ⟨r.shortName ++ "." ++ String.ofList version ++ ".symbols.nupkg"⟩
  match r.version with
  | none => []
  | some version =>
    let cs := version.toList
    name cs :: if ['.', '0'].isSuffixOf cs then [name (cs.take (cs.length - 2))] else []

end DebugFileRequest

end Symbolicate
