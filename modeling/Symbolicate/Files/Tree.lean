import Symbolicate.Files.FileSystem

/-!
# File trees

The files below a working directory as a value. A location is the list of names that leads to it; the working directory
is the empty list, two dots lead to a directory above it, and a slash leads to the root of all files. Paths are followed
piece by piece as an operating system does: a dot stays, two dots go up, and every piece needs a directory to stand in.
Besides the directories above it, nothing exists outside of the working directory at first.

A location is not the only one of its place: a path from the root, and one that goes up and comes back through the name
of the working directory, lead to other locations than the path from the working directory does, and a tree may have
different files there. An operating system has one.

A tree also knows which of its files are mapped into memory. A map shows what its file holds, and keeps the contents of
a file that is removed. Where the file has become shorter it shows zeros, as the memory behind the end of a file does up
to the end of its page; a process that goes on behind that page is stopped.
-/

namespace Symbolicate

/-- What lies at a location. -/
inductive FileEntry where
  | file (contents : Bytes)
  | dir
  deriving DecidableEq, Repr

/-- A file that has been mapped into memory: where it lay and how long it was then, and what it held when it was removed,
if it has been. -/
structure FileMap where
  location : List String
  size : Nat
  kept : Option Bytes
  deriving DecidableEq, Repr

/-- The files and directories besides those above the working directory, by location, each location once, and the files
that have been mapped. -/
structure FileTree where
  entries : List (List String × FileEntry)
  maps : List FileMap
  deriving DecidableEq, Repr

namespace FileTree

def empty : FileTree := ⟨[], []⟩

/-! ## Locations -/

def root : List String := ["/"]

/-- Whether a location is the working directory or one above it. -/
def isAbove (location : List String) : Bool := location.all (· == "..")

/-- The location that two dots lead to. The root leads to itself. -/
def above (location : List String) : List String :=
  if location = root then root else if isAbove location then location ++ [".."] else location.dropLast

/-- Whether a location lies below the working directory. -/
def isBelow (location : List String) : Bool :=
  match location with
  | [] => false
  | name :: _ => name != ".." && name != "/"

/-- What lies at a location. The working directory, those above it and the root are directories. -/
def entry? (t : FileTree) (location : List String) : Option FileEntry :=
  if isAbove location || location == root then some .dir else (t.entries.find? (·.1 == location)).map (·.2)

/-- The contents of the file at a location. -/
def contents? (t : FileTree) (location : List String) : Option Bytes :=
  match t.entry? location with
  | some (.file contents) => some contents
  | _ => none

/-- The tree with an entry at a location, in place of the one that is there. -/
def set (t : FileTree) (location : List String) (e : FileEntry) : FileTree where
  entries :=
    if t.entries.any (·.1 == location) then
      t.entries.map fun old => if old.1 = location then (location, e) else old
    else t.entries ++ [(location, e)]
  maps := t.maps

/-- The tree without what lies at a location. The maps of a file keep its contents. -/
def erase (t : FileTree) (location : List String) : FileTree where
  entries := t.entries.filter (·.1 != location)
  maps := t.maps.map fun m =>
    if m.location = location ∧ m.kept = none then { m with kept := t.contents? location } else m

/-! ## Following paths -/

def longestName : Nat := 255

def longestPath : Nat := 4095

/-- Whether a name is longer than names may be. -/
def isTooLong (name : String) : Bool := name.utf8ByteSize > longestName

/-- Goes one piece of a path on from a location. A name has to exist there. -/
def step (t : FileTree) (location : List String) (piece : String) : Except FileError (List String) :=
  match t.entry? location with
  | none => .error .notFound
  | some (.file _) => .error .notADirectory
  | some .dir =>
    if piece = "" ∨ piece = "." then .ok location
    else if piece = ".." then .ok (above location)
    else if isTooLong piece then .error .nameTooLong
    else if (t.entry? (location ++ [piece])).isSome then .ok (location ++ [piece])
    else .error .notFound

/-- Follows pieces of a path from a location on. -/
def follow (t : FileTree) (location : List String) (pieces : List String) : Except FileError (List String) :=
  pieces.foldlM t.step location

/-- Where a path starts, if it can be followed at all: it holds no NUL, is not too long and not empty. -/
def startOf (p : FilePath) : Except FileError (List String) :=
  if '\x00' ∈ p.text.toList then .error .invalidName
  else if p.text.utf8ByteSize > longestPath then .error .nameTooLong
  else if p.text = "" then .error .notFound
  else .ok (if p.isAbsolute then root else [])

def locate (t : FileTree) (p : FilePath) : Except FileError (List String) := do
  t.follow (← startOf p) p.pieces

/-! ## Operations -/

def isFile (t : FileTree) (p : FilePath) : Bool :=
  match t.locate p with
  | .ok location => match t.entry? location with
    | some (.file _) => true
    | _ => false
  | .error _ => false

/-- The contents of the file that a path leads to. -/
def read (t : FileTree) (p : FilePath) : Except FileError Bytes := do
  match t.entry? (← t.locate p) with
  | some (.file contents) => return contents
  | some .dir => throw .isADirectory
  | none => throw .notFound

/-- Goes one piece of a path on, making a directory where there is nothing. -/
def enter (t : FileTree) (location : List String) (piece : String) : Except FileError (FileTree × List String) :=
  match t.step location piece with
  | .ok next => .ok (t, next)
  | .error .notFound => .ok (t.set (location ++ [piece]) .dir, location ++ [piece])
  | .error e => .error e

/-- Follows pieces of a path, making directories on the way. What has been made stays when a later piece fails. -/
def enterAll : FileTree → List String → List String → FileTree × Except FileError (List String)
  | t, location, [] => (t, .ok location)
  | t, location, piece :: rest =>
    match t.enter location piece with
    | .error e => (t, .error e)
    | .ok (t, location) => enterAll t location rest

/-- Makes a directory and those it lies in. The empty path is the working directory. -/
def createDirs (t : FileTree) (p : FilePath) : FileTree × Except FileError Unit :=
  if p.text = "" then (t, .ok ())
  else
    match startOf p with
    | .error e => (t, .error e)
    | .ok start =>
      match t.enterAll start p.pieces with
      | (t, .error e) => (t, .error e)
      | (t, .ok location) =>
        (t, match t.entry? location with
          | some .dir => .ok ()
          | _ => .error .alreadyExists)

/-- The location at which a path would make a file: a name in an existing directory, where there is no directory. -/
def fileLocation (t : FileTree) (p : FilePath) : Except FileError (List String) := do
  let parent ← t.follow (← startOf p) p.pieces.dropLast
  let name := p.pieces.getLast?.getD ""
  if t.entry? parent ≠ some .dir then throw .notADirectory
  if name = "" ∨ name = "." ∨ name = ".." then throw .isADirectory
  if isTooLong name then throw .nameTooLong
  if t.entry? (parent ++ [name]) = some .dir then throw .isADirectory
  return parent ++ [name]

/-- Makes a file without contents, or empties the one that is there. -/
def create (t : FileTree) (p : FilePath) : FileTree × Except FileError Unit :=
  match t.fileLocation p with
  | .ok location => (t.set location (.file []), .ok ())
  | .error e => (t, .error e)

/-- The contents with bytes written over them from an offset on. -/
def overwrite (contents : Bytes) (offset : Nat) (b : Bytes) : Bytes :=
  contents.take offset ++ List.replicate (offset - contents.length) 0 ++ b ++ contents.drop (offset + b.length)

/-- Writes bytes into a file. A file that is no longer there takes them without effect. -/
def write (t : FileTree) (p : FilePath) (offset : Nat) (b : Bytes) : FileTree × Except FileError Unit :=
  match t.locate p with
  | .ok location =>
    match t.entry? location with
    | some (.file contents) => (t.set location (.file (overwrite contents offset b)), .ok ())
    | _ => (t, .ok ())
  | .error _ => (t, .ok ())

/-- Removes the file that a path leads to, if there is one. -/
def remove (t : FileTree) (p : FilePath) : FileTree :=
  match t.locate p with
  | .ok location =>
    match t.entry? location with
    | some (.file _) => t.erase location
    | _ => t
  | .error _ => t

/-- Maps the file that a path leads to. Maps are counted as they are made. -/
def map (t : FileTree) (p : FilePath) : FileTree × Except FileError Nat :=
  match t.locate p with
  | .error e => (t, .error e)
  | .ok location =>
    match t.entry? location with
    | some (.file contents) => ({ t with maps := t.maps ++ [⟨location, contents.length, none⟩] }, .ok t.maps.length)
    | some .dir => (t, .error .isADirectory)
    | none => (t, .error .notFound)

/-- What a map shows: its file, as far as this reached when it was mapped. -/
def shown (t : FileTree) (m : FileMap) : Bytes :=
  let contents := (m.kept.or (t.contents? m.location)).getD []
  contents.take m.size ++ List.replicate (m.size - contents.length) 0

/-- What the map with a number shows. -/
def view (t : FileTree) (number : Nat) : Bytes := t.maps[number]?.elim [] t.shown

/-- File operations on a tree. -/
instance : FileSystem (StateM FileTree) where
  isFile p := return (← get).isFile p
  read p := return (← get).read p
  createDirs p := modifyGet fun t => (t.createDirs p).swap
  create p := modifyGet fun t => (t.create p).swap
  write p offset b := modifyGet fun t => (t.write p offset b).swap
  remove p := modify (·.remove p)

/-- Maps of the files of a tree. -/
instance : MappedFiles (StateM FileTree) Nat where
  map p := modifyGet fun t => (t.map p).swap
  view number := return (← get).view number

/-! ## Listing -/

/-- Whether one location is listed before another: names in order, a directory before what it holds. -/
def listedBefore : List String → List String → Bool
  | [], _ => true
  | _ :: _, [] => false
  | a :: as, b :: bs => if a = b then listedBefore as bs else a < b

/-- All entries below the working directory, depth first, those of a directory by name. -/
def listing (t : FileTree) : List (List String × FileEntry) :=
  (t.entries.filter (isBelow ·.1)).mergeSort fun a b => listedBefore a.1 b.1

end FileTree

end Symbolicate
