import Symbolicate.Store.Request
import Symbolicate.Text.Blank

/-!
# Modules

A module line of a report: `MODULE: <name> => <identity>; <key>:<value>; …`. The identity is the full name of the
assembly; the attributes `G` and `A` give the identity of its debug file, and `F` a file name other than the usual one.

A line is recognised as a whole first (`ModuleLine.search?`), wherever in the text it starts. The attributes are then
picked from the text that was recognised as attributes (`scanAttributes`).
-/

namespace Symbolicate

/-! ## Recognising a line -/

/-- The parts of a module line: name, identity, and the text of all attributes. -/
structure ModuleLine where
  name : List Char
  identity : List Char
  attributes : List Char
  deriving DecidableEq, Repr

namespace ModuleLine

/-- Whether a character can be part of a key: an ASCII letter, or one of the two signs that lower to one. -/
def isKeyLetter (c : Char) : Bool := c.isAlpha || c == '\u017f' || c == '\u212a'

/-- An attribute at the start of the text, `; <key>:<value>`, as key and value, and what follows it. -/
def attribute? : List Char → Option ((List Char × List Char) × List Char)
  | ';' :: cs =>
    let key := (cs.dropWhile Text.isBlank).takeWhile isKeyLetter
    if cs.takeWhile Text.isBlank = [] ∨ key = [] then none
    else
      match (cs.dropWhile Text.isBlank).dropWhile isKeyLetter with
      | ':' :: cs =>
        let value := cs.takeWhile (· ≠ ';')
        if value = [] then none else some ((key, value), cs.dropWhile (· ≠ ';'))
      | _ => none
  | _ => none

/-- What follows the attributes at the start of the text, at most `fuel` of them. -/
def behindAttributes : Nat → List Char → List Char
  | 0, cs => cs
  | fuel + 1, cs =>
    match attribute? cs with
    | some (_, rest) => behindAttributes fuel rest
    | none => cs

/-- The identity behind the arrow, and what follows it. There has to be a blank in between; an identity may itself be
blank if it would be empty otherwise. -/
def identity? (cs : List Char) : Option (List Char × List Char) :=
  let blanks := cs.takeWhile Text.isBlank
  let rest := cs.dropWhile Text.isBlank
  let identity := rest.takeWhile (· ≠ ';')
  if blanks = [] then none
  else if identity ≠ [] then some (identity, rest.dropWhile (· ≠ ';'))
  else (blanks.drop 1).getLast?.map fun c => ([c], rest)

/-- A module line that starts with the first character. -/
def match? (cs : List Char) : Option ModuleLine := do
  let cs ← Text.behind? "MODULE: ".toList cs
  let name := cs.takeWhile (! Text.isBlank ·)
  let cs := cs.dropWhile (! Text.isBlank ·)
  guard (name ≠ [] ∧ cs.takeWhile Text.isBlank ≠ [])
  let cs ← Text.behind? "=>".toList (cs.dropWhile Text.isBlank)
  let (identity, cs) ← identity? cs
  let rest := behindAttributes cs.length cs
  let attributes := cs.take (cs.length - rest.length)
  guard (attributes ≠ [])
  return ⟨name, identity, attributes⟩

/-- The first module line in a text. -/
def search? : List Char → Option ModuleLine
  | [] => none
  | c :: rest =>
    match match? (c :: rest) with
    | some found => some found
    | none => search? rest

/-- The attributes found in a text from left to right, at most `fuel` steps. -/
def scanFrom : Nat → List Char → List (List Char × List Char)
  | 0, _ => []
  | _ + 1, [] => []
  | fuel + 1, c :: cs =>
    match attribute? (c :: cs) with
    | some (found, rest) => found :: scanFrom fuel rest
    | none => scanFrom fuel cs

/-- The attributes found in a text from left to right. -/
def scanAttributes (cs : List Char) : List (List Char × List Char) := scanFrom cs.length cs

end ModuleLine

/-! ## Modules -/

/-- A module of a report. -/
structure ModuleInfo where
  /-- The display name by which frames refer to the module. -/
  name : String
  /-- The full name of the assembly. -/
  identity : String
  /-- The name of the assembly alone. -/
  shortName : String
  /-- The version of the assembly, if its full name has one. -/
  version : Option String
  /-- The attributes in the order of their first mention, with upper-case keys. -/
  attributes : List (String × String)
  /-- The identity of the debug file, if the attributes give a valid one. -/
  debugId : Option DebugId
  /-- The name of the debug file. -/
  debugFileName : String
  deriving DecidableEq, Repr

namespace ModuleInfo

/-- The attributes with one more; a key that is there already keeps its place and takes the new value. -/
def setAttribute (attributes : List (String × String)) (key value : String) : List (String × String) :=
  if attributes.any (·.1 == key) then attributes.map fun a => if a.1 = key then (key, value) else a
  else attributes ++ [(key, value)]

def valueOf? (attributes : List (String × String)) (key : String) : Option String :=
  (attributes.find? (·.1 == key)).map (·.2)

/-- The number with an optional plus sign that a text spells, if it has 32 bits. -/
def age? (cs : List Char) : Option UInt32 :=
  let digits := if cs.head? = some '+' then cs.drop 1 else cs
  match Text.ofDecimal? digits with
  | some n => if n < 0x100000000 then some (UInt32.ofNat n) else none
  | none => none

/-- The identity that the attributes `G` and `A` give. -/
def debugId? (attributes : List (String × String)) : Option DebugId :=
  match valueOf? attributes "G", valueOf? attributes "A" with
  | some guid, some age =>
    match Guid.parse? (Text.trimmed guid.toList), age? (Text.trimmed age.toList) with
    | some guid, some age => some ⟨guid, age⟩
    | _, _ => none
  | _, _ => none

/-- The version in the full name of an assembly: the digits and dots behind the first `Version=` that has any. -/
def version? : List Char → Option (List Char)
  | [] => none
  | c :: cs =>
    let mark := "Version=".toList
    let digits := ((c :: cs).drop mark.length).takeWhile fun d => d.isDigit || d == '.'
    if mark.isPrefixOf (c :: cs) && digits ≠ [] then some digits else version? cs

/-- The module that a recognised line describes. -/
def ofLine (l : ModuleLine) : ModuleInfo :=
  let identity := Text.trimmed l.identity
  let shortName := if ',' ∈ identity then Text.trimmed (identity.takeWhile (· ≠ ',')) else identity
  let attributes := (ModuleLine.scanAttributes l.attributes).foldl (fun attributes (key, value) =>
    setAttribute attributes (Text.asciiUpper (String.ofList key)) (String.ofList value)) []
  let file := ((valueOf? attributes "F").map Text.trim).filter (· ≠ "")
  { name := String.ofList l.name
    identity := String.ofList identity
    shortName := String.ofList shortName
    version := (version? identity).map String.ofList
    attributes
    debugId := debugId? attributes
    debugFileName := file.getD (String.ofList shortName ++ ".pdb") }

def parse? (line : String) : Option ModuleInfo := (ModuleLine.search? line.toList).map ofLine

/-- The value of an attribute, whose key may be in either case. -/
def attribute? (m : ModuleInfo) (key : String) : Option String := valueOf? m.attributes (Text.asciiUpper key)

/-- The request for the module's debug file, if the module says which one it is. -/
def request? (m : ModuleInfo) : Option DebugFileRequest :=
  m.debugId.map fun id => ⟨m.debugFileName, id, m.shortName, m.version⟩

def text (m : ModuleInfo) : String := m.name ++ " => " ++ m.identity

end ModuleInfo

end Symbolicate
