import Symbolicate.Store.Basic
import Symbolicate.Store.Package

/-!
# Finding debug files

A search has two tiers. The first looks for the debug file itself in all places. If none has it, the second looks
through the local places again for a symbol package of the version asked for, and extracts the debug file into the
layout of the place or of its own cache. Only packages make a search fail.
-/

namespace Symbolicate.SymbolStore

variable {m : Type → Type} [Monad m] [FileSystem m]

/-- The debug file asked for from a package, extracted under `root`. An extracted file with another identity does not
stay. -/
def findInPackage (request : DebugFileRequest) (package root : FilePath) :
    m (Except SymbolError (Option FilePath)) := do
  let dest := root.join (request.layout request.debugId.nativeKey)
  match ← SymbolPackage.extract package request.name dest with
  | .error e => return .error e
  | .ok false => return .ok none
  | .ok true =>
    if ← verify request dest then return .ok (some dest)
    FileSystem.remove dest
    return .error (.archiveMismatch ⟨request.name, package, request.debugId⟩)

/-- The debug file asked for in a directory that is a place of the path: in the layout of stores, in that layout under
the place's own cache, or from a package. -/
def revisitDir (request : DebugFileRequest) (own : Option FilePath) (dir : FilePath) :
    m (Except SymbolError (Option FilePath)) := do
  match ← searchLayout request dir with
  | some path => return .ok (some path)
  | none =>
    let cached ← match own with
      | some cache => searchLayout request cache
      | none => pure none
    match cached with
    | some path => return .ok (some path)
    | none =>
      match ← SymbolPackage.firstFile (request.packageNames.map dir.join) with
      | none => return .ok none
      | some package => findInPackage request package (own.getD dir)

/-- The debug file asked for in a place that has been searched before. Servers are left out. -/
def revisitPlace (request : DebugFileRequest) (place : SymbolPathElement) :
    m (Except SymbolError (Option FilePath)) :=
  match place.localDir? with
  | none => return .ok none
  | some dir => revisitDir request place.ownCache? dir

/-- The debug file asked for in the first place that has it, unless a package before it is at fault. -/
def revisitPlaces (request : DebugFileRequest) : List SymbolPathElement → m (Except SymbolError (Option FilePath))
  | [] => return .ok none
  | place :: rest => do
    match ← revisitPlace request place with
    | .error e => return .error e
    | .ok (some path) => return .ok (some path)
    | .ok none => revisitPlaces request rest

/-- Finds the debug file asked for: a path to it, nothing if no place has it, or what is wrong with a package. -/
def find (s : SymbolStore) (request : DebugFileRequest) : m (Except SymbolError (Option FilePath)) := do
  match ← s.search request with
  | some path => return .ok (some path)
  | none => revisitPlaces request s.path.elements

end Symbolicate.SymbolStore
