import Symbolicate.Text.Ascii

/-!
# Source locations

The source file and line of a stack frame, and look-ups from a method token and an offset into its code to such a
location. Line zero has no meaning, so no location has it when it is made by `SourceLocation.of?`.
-/

namespace Symbolicate

/-- A line of a source file, whose path the debug file may not record. -/
structure SourceLocation where
  file : Option String
  line : UInt32
  deriving DecidableEq, Repr

namespace SourceLocation

/-- The location, unless the line is zero. -/
def of? (file : Option String) (line : UInt32) : Option SourceLocation :=
  if line = 0 then none else some ⟨file, line⟩

/-- The path of the file, empty when it is not recorded. -/
def fileText (l : SourceLocation) : String := l.file.getD ""

/-- The location as runtimes print it in stack traces: the path, then `:line` and the number. -/
def text (l : SourceLocation) : String :=
  l.fileText ++ ":line " ++ String.ofList (Text.decimal l.line.toNat)

end SourceLocation

/-- Debug information that is asked for source locations in a monad, since it may have to read them. -/
class SourceLookups (m : Type → Type) (L : Type) where
  /-- The source location of an offset into the code of the method with a token. -/
  sourceLocation : L → UInt32 → UInt32 → m (Option SourceLocation)

/-- Answers the source location of an offset into the code of the method with a token. -/
abbrev SourceLookup := UInt32 → UInt32 → Option SourceLocation

/-- Debug information that is known needs not be read. -/
instance {m : Type → Type} [Pure m] : SourceLookups m SourceLookup where
  sourceLocation find token offset := pure (find token offset)

end Symbolicate
