import Symbolicate.Files.Path
import Symbolicate.Text.Blank

/-!
# Symbol search paths

An ordered list of places to search, written with `;` between them: a directory, a cache (`cache*dir`), or a store
(`srv*[cache]*target`, also with the name of a server library as `symsrv*library*[cache]*target`). Blanks around parts
do not count, and parts that name no place are left out.
-/

namespace Symbolicate

/-- One place of a symbol path. -/
inductive SymbolPathElement where
  /-- A directory that holds debug files directly or in the layout of stores. -/
  | directory (dir : FilePath)
  /-- A cache in the layout of stores, which also serves the stores behind it. -/
  | cache (dir : FilePath)
  /-- A store at a local directory or a server, with its own cache or without. -/
  | store (cache : Option FilePath) (target : String)
  deriving DecidableEq, Repr

namespace SymbolPathElement

/-! ## Reading -/

/-- The store with the given parts: the last one is the target, and the first of the others that is not blank is the
cache. -/
def storeOfParts? (parts : List (List Char)) : Option SymbolPathElement :=
  match (parts.map Text.trimmed).reverse with
  | [] => none
  | target :: caches =>
    if target = [] then none
    else
      let cache := caches.reverse.find? (· ≠ [])
      some (.store (cache.map fun dir => ⟨String.ofList dir⟩) (String.ofList target))

/-- The place that a text names, if it names one. -/
def parse? (s : String) : Option SymbolPathElement :=
  let cs := Text.trimmed s.toList
  if cs = [] then none
  else
    match Text.splitOn '*' cs with
    | [] => none
    | keyword :: parts =>
      if Text.eqIgnoringCase keyword "srv".toList then storeOfParts? parts
      else if Text.eqIgnoringCase keyword "symsrv".toList then storeOfParts? (parts.drop 1)
      else if Text.eqIgnoringCase keyword "cache".toList then
        match parts with
        | [] => none
        | dir :: _ =>
          let dir := Text.trimmed dir
          if dir = [] then none else some (.cache ⟨String.ofList dir⟩)
      else some (.directory ⟨String.ofList cs⟩)

/-! ## Properties -/

/-- Whether a target is the address of a server. -/
def isRemoteTarget (target : String) : Bool := Text.eqIgnoringCase (target.toList.take 4) "http".toList

/-- Whether the place is a store on a server. -/
def isRemote : SymbolPathElement → Bool
  | store _ target => isRemoteTarget target
  | _ => false

/-- The directory of the place, unless it is on a server. -/
def localDir? : SymbolPathElement → Option FilePath
  | directory dir | cache dir => some dir
  | store _ target => if isRemoteTarget target then none else some ⟨target⟩

def ownCache? : SymbolPathElement → Option FilePath
  | store own _ => own
  | _ => none

/-- Whether two places are the same, directories being compared by their components. -/
def same : SymbolPathElement → SymbolPathElement → Bool
  | directory a, directory b => a.same b
  | cache a, cache b => a.same b
  | store (some a) s, store (some b) t => a.same b && s == t
  | store none s, store none t => s == t
  | _, _ => false

def text : SymbolPathElement → String
  | directory dir => dir.text
  | cache dir => "cache*" ++ dir.text
  | store (some own) target => "srv*" ++ own.text ++ "*" ++ target
  | store none target => "srv*" ++ target

end SymbolPathElement

/-- Places to search, in order. -/
structure SymbolPath where
  elements : List SymbolPathElement
  deriving DecidableEq, Repr

namespace SymbolPath

def empty : SymbolPath := ⟨[]⟩

/-- The places that a text names. -/
def parse (s : String) : SymbolPath :=
  ⟨(Text.splitOn ';' s.toList).filterMap fun cs => SymbolPathElement.parse? (String.ofList cs)⟩

/-- The path with the place that a text names, if it names one. -/
def add (p : SymbolPath) (s : String) : SymbolPath :=
  ⟨p.elements ++ (SymbolPathElement.parse? s).toList⟩

/-- The places of one path, then those of another. -/
def append (p q : SymbolPath) : SymbolPath := ⟨p.elements ++ q.elements⟩

def isEmpty (p : SymbolPath) : Bool := p.elements.isEmpty

def text (p : SymbolPath) : String := ";".intercalate (p.elements.map SymbolPathElement.text)

/-- Whether two paths have the same places in the same order. -/
def same (p q : SymbolPath) : Bool :=
  p.elements.length == q.elements.length && (p.elements.zip q.elements).all fun (a, b) => a.same b

end SymbolPath

end Symbolicate
