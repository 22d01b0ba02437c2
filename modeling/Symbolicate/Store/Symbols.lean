import Symbolicate.DebugFile.Mapped
import Symbolicate.Report.Translate
import Symbolicate.Store.Find

/-!
# Debug information from symbol stores

The debug information of a module of a report is that of the debug file which a symbol store finds for it. A module
without debug identity has none, and neither has one whose debug file has been verified but cannot be read as a whole.
-/

namespace Symbolicate.SymbolStore

variable {m : Type → Type} [Monad m] [FileSystem m] {Map : Type} [MappedFiles m Map]

/-- Loads the debug information of modules from the store. -/
def load (s : SymbolStore) : SymbolLoader m (MappedDebugFile Map) := fun info => do
  match info.request? with
  | none => return .ok none
  | some request =>
    match ← s.find request with
    | .error e => return .error e
    | .ok none => return .ok none
    | .ok (some path) => return .ok (← MappedDebugFile.openAt path).toOption

/-- The debug file of a module as it is opened, if the store has a readable one. -/
def loadFile (s : SymbolStore) (info : ModuleInfo) : m (Except SymbolError (Option DebugFile)) := do
  match ← s.load info with
  | .error e => return .error e
  | .ok file => return .ok (file.map (·.opened))

end Symbolicate.SymbolStore
