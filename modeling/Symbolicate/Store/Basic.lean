import Symbolicate.DebugFile.Open
import Symbolicate.Store.Request
import Symbolicate.Store.SymbolPath

/-!
# Symbol stores

A symbol store searches the places of a symbol path for a debug file with a given identity. Whatever lies at a path
counts only if its identity has been read and is the one asked for (`SymbolStore.verify`).

This module holds the search of debug files themselves (`SymbolStore.search`); symbol packages come after it.
-/

namespace Symbolicate

/-- What is searched, and how. -/
structure SymbolStore where
  /-- The places to search, in order. -/
  path : SymbolPath
  /-- The cache of stores that have no cache of their own and none in front of them. -/
  defaultCache : FilePath
  /-- How many seconds a request to a server may take. -/
  timeout : Nat := 30
  deriving DecidableEq, Repr

/-- The path that an environment variable gives, if it is set, and behind it the working directory. -/
def SymbolPath.ofVariable (value : Option String) : SymbolPath := (SymbolPath.parse (value.getD "")).add "."

namespace SymbolStore

/-- Where the default cache lies in a directory for temporary files. All programs that search symbol paths this way
share it. -/
def defaultCacheIn (temporary : FilePath) : FilePath := temporary.join ⟨"prodtrace-symbols"⟩

variable {m : Type → Type} [Monad m] [FileSystem m]

/-! ## Candidates -/

/-- Whether a path leads to a debug file with the identity asked for. -/
def verify (request : DebugFileRequest) (path : FilePath) : m Bool := do
  if ← FileSystem.isFile path then
    match ← DebugFileIdentity.peekAt path with
    | .ok identity => return identity.matchesId request.debugId
    | .error _ => return false
  else return false

/-- The first of some paths that leads to the debug file asked for. -/
def firstVerified (request : DebugFileRequest) : List FilePath → m (Option FilePath)
  | [] => return none
  | path :: rest => do
    if ← verify request path then return some path else firstVerified request rest

/-- The debug file asked for in the layout of a store with the given root. -/
def searchLayout (request : DebugFileRequest) (root : FilePath) : m (Option FilePath) :=
  firstVerified request (request.debugId.searchKeys.map fun key => root.join (request.layout key))

/-! ## Places -/

/-- The debug file asked for on a server. No server can be reached, so there is none. -/
def searchServer (_request : DebugFileRequest) (_target : String) : m (Option FilePath) := return none

/-- The debug file asked for in one place. `downstream` is the cache of stores without one of their own. -/
def searchPlace (request : DebugFileRequest) (downstream : FilePath) : SymbolPathElement → m (Option FilePath)
  | .directory dir => do
    let direct := dir.join ⟨request.name⟩
    if ← verify request direct then return some direct
    searchLayout request dir
  | .cache dir => searchLayout request dir
  | .store own target => do
    match ← searchLayout request (own.getD downstream) with
    | some path => return some path
    | none =>
      if SymbolPathElement.isRemoteTarget target then searchServer request target
      else searchLayout request ⟨target⟩

/-- The cache of the stores behind a place. -/
def downstreamOf (downstream : FilePath) : SymbolPathElement → FilePath
  | .cache dir => dir
  | _ => downstream

/-- The debug file asked for in the first place that has it. -/
def searchPlaces (request : DebugFileRequest) : FilePath → List SymbolPathElement → m (Option FilePath)
  | _, [] => return none
  | downstream, place :: rest => do
    match ← searchPlace request downstream place with
    | some path => return some path
    | none => searchPlaces request (downstreamOf downstream place) rest

/-- The debug file asked for on the path of the store, packages apart. -/
def search (s : SymbolStore) (request : DebugFileRequest) : m (Option FilePath) :=
  searchPlaces request s.defaultCache s.path.elements

end SymbolStore

end Symbolicate
