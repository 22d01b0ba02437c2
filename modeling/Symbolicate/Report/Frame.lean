import Symbolicate.SourceLocation
import Symbolicate.Text.Blank
import Symbolicate.Text.Utf8

/-!
# Stack frames

A frame line of a report: `at <module>!0x<token>!<method>(<arguments>) +0x<offset>`, with blanks in front and anything
behind, letters of the fixed parts in either case. A frame is written back without module, token and offset, and with
its source location if it has one.
-/

namespace Symbolicate

/-- A frame of a stack trace. -/
structure StackFrame where
  /-- The display name of the module. -/
  moduleName : String
  /-- The metadata token of the method. -/
  token : UInt32
  /-- The offset into the code of the method. -/
  offset : UInt32
  /-- The name of the method with its type. -/
  method : String
  /-- What stands between the parentheses. -/
  arguments : String
  deriving DecidableEq, Repr

namespace StackFrame

/-! ## Reading -/

/-- Whether a character can be part of a module's name. -/
def isModuleChar (c : Char) : Bool := 0x20 ≤ c.toNat && ! "<>:\"/\\|?*!".toList.contains c

/-- The module's name behind the word `at`, and what follows it. There has to be a blank in between; a name may itself
be blank if it would be empty otherwise. -/
def moduleName? (cs : List Char) : Option (List Char × List Char) :=
  let blanks := cs.takeWhile Text.isBlank
  let rest := cs.dropWhile Text.isBlank
  let name := rest.takeWhile isModuleChar
  let rest := rest.dropWhile isModuleChar
  if blanks = [] then none
  else if name ≠ [] then some (name, rest)
  else
    match blanks.drop 1 |>.getLast? with
    | some c => if isModuleChar c then some ([c], rest) else none
    | none => none

/-- The hexadecimal digits at the start, at least one, and what follows them. -/
def hexDigits? (cs : List Char) : Option (List Char × List Char) :=
  let digits := cs.takeWhile Text.isHexDigit
  if digits = [] then none else some (digits, cs.dropWhile Text.isHexDigit)

/-- The 32-bit number that digits spell, if it fits. -/
def word? (digits : List Char) : Option UInt32 :=
  let n := Text.ofHex digits
  if n < 0x100000000 then some (UInt32.ofNat n) else none

/-- Reads a frame from the characters of a line. -/
def ofChars? (cs : List Char) : Option StackFrame := do
  let cs ← Text.behind? "at".toList (cs.dropWhile Text.isBlank)
  let (name, cs) ← moduleName? cs
  let cs ← Text.behind? "!0x".toList cs
  let (token, cs) ← hexDigits? cs
  let cs ← Text.behind? "!".toList cs
  let method := cs.takeWhile (· ≠ '(')
  guard (method ≠ [])
  let cs ← Text.behind? "(".toList (cs.dropWhile (· ≠ '('))
  let arguments := cs.takeWhile (· ≠ ')')
  let cs ← Text.behind? ")".toList (cs.dropWhile (· ≠ ')'))
  guard (cs.takeWhile Text.isBlank ≠ [])
  let cs ← Text.behind? "+0x".toList (cs.dropWhile Text.isBlank)
  let (offset, _) ← hexDigits? cs
  let token ← word? token
  let offset ← word? offset
  return ⟨String.ofList name, token, offset, String.ofList method, String.ofList arguments⟩

/-- Reads a frame from a line. Everything up to the offset has to be UTF-8. -/
def parse? (line : Bytes) : Option StackFrame := ofChars? (Utf8.validStart line)

/-! ## Writing -/

/-- The frame without module, token and offset, followed by the source location and a line end. -/
def normalized (f : StackFrame) (location : Option SourceLocation) (terminator : Bytes) : Bytes :=
  let place := location.elim "" fun l => " in " ++ l.text
  Utf8.ofString ("   at " ++ f.method ++ "(" ++ f.arguments ++ ")" ++ place) ++ terminator

end StackFrame

/-! ## Lines -/

/-- The line end that a line is written with again: carriage return and line feed if it has both, else a line feed. -/
def lineTerminator (line : Bytes) : Bytes :=
  if [0x0D, 0x0A].isSuffixOf line then [0x0D, 0x0A] else [0x0A]

/-- Whether a line holds three equals signs in a row, which ends the stack trace. -/
def isSeparator : Bytes → Bool
  | 0x3D :: 0x3D :: 0x3D :: _ => true
  | _ :: rest => isSeparator rest
  | [] => false

end Symbolicate
