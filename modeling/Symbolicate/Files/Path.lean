import Symbolicate.Text.Ascii

/-!
# Paths

Paths of files as texts with `/` between their components. Joining keeps the texts as they are; comparing goes by
components, so that doubled and final slashes and inner dots make no difference.
-/

namespace Symbolicate

/-- A path, relative to the working directory unless it starts with a slash. -/
structure FilePath where
  text : String
  deriving DecidableEq, Repr

namespace FilePath

/-- Whether the path starts at the root of all files. -/
def isAbsolute (p : FilePath) : Bool := p.text.toList.head? == some '/'

/-- The path of `q` seen from the directory `p`. An absolute path stays as it is. -/
def join (p q : FilePath) : FilePath :=
  if q.isAbsolute then q
  else if p.text.toList.isEmpty ∨ p.text.toList.getLast? = some '/' then ⟨p.text ++ q.text⟩
  else ⟨p.text ++ "/" ++ q.text⟩

/-! ## Components -/

/-- The pieces of the text between slashes. -/
def pieces (p : FilePath) : List String := (Text.splitOn '/' p.text.toList).map String.ofList

/-- A part of a path. -/
inductive Component where
  /-- The root of all files. -/
  | root
  /-- A dot at the start of the path. -/
  | current
  /-- Two dots. -/
  | parent
  /-- A name. -/
  | name (s : String)
  deriving DecidableEq, Repr

/-- The component of a piece; empty pieces and dots are none. -/
def component? (piece : String) : Option Component :=
  if piece = "" ∨ piece = "." then none
  else if piece = ".." then some .parent
  else some (.name piece)

/-- The components of the path. A dot counts only at the start. -/
def components (p : FilePath) : List Component :=
  let first : List Component :=
    if p.isAbsolute then [.root]
    else if p.pieces.head? = some "." then [.current]
    else []
  first ++ p.pieces.filterMap component?

/-- Whether two paths have the same components. -/
def same (p q : FilePath) : Bool := p.components == q.components

/-- The path without its last component, if it has one besides the root. All that stands before stays as it is, up to
the slashes and dots at its end. -/
def parent? (p : FilePath) : Option FilePath :=
  match p.components.getLast? with
  | none | some .root => none
  | some .current => some ⟨""⟩
  | some _ =>
    let isIdle (piece : String) : Bool := (component? piece).isNone
    let kept := ((p.pieces.reverse.dropWhile isIdle).drop 1).dropWhile isIdle
    if kept.isEmpty then some ⟨if p.isAbsolute then "/" else if p.pieces.head? = some "." then "." else ""⟩
    else some ⟨"/".intercalate kept.reverse⟩

end FilePath

end Symbolicate
