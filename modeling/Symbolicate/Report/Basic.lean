import Symbolicate.Files.Error
import Symbolicate.Report.Frame
import Symbolicate.Report.ModuleTable

/-!
# Exception reports

A report is a body of text and stack frames and, behind the first separator line, a footer that names the modules. Body
lines are kept as they are; of the footer only the module lines count.
-/

namespace Symbolicate

/-! ## Faults -/

/-- Why a report is not translated. What a report says is never wrong; only reading and writing can fail. -/
inductive ReportError where
  /-- The report cannot be read. -/
  | read (cause : FileError)
  /-- The translated report cannot be written. -/
  | write
  deriving DecidableEq, Repr

/-- The message of a fault, which leaves its cause out. -/
def ReportError.message : ReportError → String
  | read _ => "failed to read report"
  | write => "failed to write translated report"

/-! ## Reports -/

/-- A report that has been read. -/
structure ExceptionReport where
  lines : List Bytes
  modules : ModuleTable
  hasFooter : Bool
  deriving DecidableEq, Repr

/-- The text cut behind each line feed. -/
def lineChunks : Bytes → List Bytes
  | [] => []
  | b :: rest =>
    if b = 0x0A then [b] :: lineChunks rest
    else
      match lineChunks rest with
      | [] => [[b]]
      | line :: lines => (b :: line) :: lines

namespace ExceptionReport

def empty : ExceptionReport := ⟨[], .empty, false⟩

/-- The module that a footer line describes, if it is a module line. -/
def footerModule? (line : Bytes) : Option ModuleInfo :=
  let isLineEnd (c : Char) : Bool := c == '\r' || c == '\n'
  ModuleInfo.parse? (String.ofList (Text.dropEndWhile isLineEnd (Utf8.decodeLossy line)))

/-- The report with one more line: in the footer a module or nothing, else the separator or a body line. -/
def addLine (r : ExceptionReport) (line : Bytes) : ExceptionReport :=
  if r.hasFooter then
    match footerModule? line with
    | some m => { r with modules := (r.modules.insert m).1 }
    | none => r
  else if isSeparator line then { r with hasFooter := true }
  else { r with lines := r.lines ++ [line] }

/-- The report that a text is. -/
def parse (input : Bytes) : ExceptionReport := (lineChunks input).foldl addLine empty

end ExceptionReport

/-- A text that is read from outside, and the fault that ends the reading if there is one. -/
structure ReportSource where
  bytes : Bytes
  fault : Option FileError

def ReportSource.read (s : ReportSource) : Except ReportError ExceptionReport :=
  match s.fault with
  | none => .ok (.parse s.bytes)
  | some cause => .error (.read cause)

end Symbolicate
