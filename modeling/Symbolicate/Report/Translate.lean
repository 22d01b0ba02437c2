import Symbolicate.Report.Basic
import Symbolicate.Store.Error

/-!
# Translating reports

The body of a report is written again line by line. A frame of a known module loses module, token and offset, and gains
its source location where the module's debug information has it; all other lines stay as they are. The debug information
of a module is loaded when the first frame needs it, and only once.

Loading and asking for locations happen in a monad: a symbol store reads files, and so does the debug information it
loads; a test may answer from a table.
-/

namespace Symbolicate

/-! ## Writers -/

/-- Where output goes: what has been accepted, how much more is accepted (without end if that is left open), and whether
the final flush fails. -/
structure Sink where
  accepted : Bytes
  room : Option Nat
  flushFails : Bool
  deriving DecidableEq, Repr

namespace Sink

/-- A sink that accepts everything. -/
def unlimited : Sink := ⟨[], none, false⟩

/-- The sink after a write, and whether all of the bytes were accepted. -/
def write (s : Sink) (b : Bytes) : Sink × Bool :=
  match s.room with
  | none => ({ s with accepted := s.accepted ++ b }, true)
  | some room => ({ s with accepted := s.accepted ++ b.take room, room := some (room - b.length) }, b.length ≤ room)

end Sink

/-! ## Symbols -/

/-- What was counted and what went wrong while a report was translated. -/
structure TranslateStats where
  /-- The number of body lines. -/
  lines : Nat
  /-- The number of frames among them. -/
  frames : Nat
  /-- The number of frames that got a source location. -/
  resolved : Nat
  /-- The modules whose debug information could not be loaded, with the reason. -/
  errors : List (String × SymbolError)
  deriving DecidableEq, Repr

/-- How far a translation has come: counts, the debug information loaded so far by registered module name, and the
output. -/
structure Progress (L : Type) where
  stats : TranslateStats
  loaded : List (String × Option L)
  sink : Sink

/-- Loads the debug information of modules: an error if it is inconsistent, nothing if there is none. -/
abbrev SymbolLoader (m : Type → Type) (L : Type := SourceLookup) := ModuleInfo → m (Except SymbolError (Option L))

namespace Translate

variable {m : Type → Type} [Monad m] {L : Type}

def start (sink : Sink) : Progress L := ⟨⟨0, 0, 0, []⟩, [], sink⟩

/-- The debug information of a module, loaded unless it has been before. A module that cannot be loaded is noted once
and has no debug information. -/
def lookupFor (load : SymbolLoader m L) (p : Progress L) (info : ModuleInfo) : m (Progress L × Option L) := do
  match p.loaded.find? (·.1 == info.name) with
  | some (_, lookup) => return (p, lookup)
  | none =>
    match ← load info with
    | .ok lookup => return ({ p with loaded := p.loaded ++ [(info.name, lookup)] }, lookup)
    | .error e =>
      let stats := { p.stats with errors := p.stats.errors ++ [(info.name, e)] }
      return ({ p with stats := stats, loaded := p.loaded ++ [(info.name, none)] }, none)

variable [SourceLookups m L]

/-- The source location of a frame in debug information, if there is some. -/
def frameLocation (lookup : Option L) (frame : StackFrame) : m (Option SourceLocation) :=
  match lookup with
  | none => return none
  | some lookup => SourceLookups.sourceLocation lookup frame.token frame.offset

/-- The source location of a frame of a module. Only a module with a debug identity is loaded. -/
def locate (load : SymbolLoader m L) (p : Progress L) (info : ModuleInfo) (frame : StackFrame) :
    m (Progress L × Option SourceLocation) := do
  if info.debugId.isNone then return (p, none)
  let (p, lookup) ← lookupFor load p info
  match ← frameLocation lookup frame with
  | some location =>
    return ({ p with stats := { p.stats with resolved := p.stats.resolved + 1 } }, some location)
  | none => return (p, none)

def translateLine (load : SymbolLoader m L) (modules : ModuleTable) (p : Progress L) (line : Bytes) :
    m (Progress L × Bytes) := do
  let p := { p with stats := { p.stats with lines := p.stats.lines + 1 } }
  match StackFrame.parse? line with
  | none => return (p, line)
  | some frame =>
    let p := { p with stats := { p.stats with frames := p.stats.frames + 1 } }
    match modules.get? frame.moduleName with
    | none => return (p, line)
    | some info =>
      let (p, location) ← locate load p info frame
      return (p, frame.normalized location (lineTerminator line))

/-- Writes what lines become, until a write is cut short. -/
def writeLines (load : SymbolLoader m L) (modules : ModuleTable) : List Bytes → Progress L → m (Progress L × Bool)
  | [], p => return (p, true)
  | line :: rest, p => do
    let (p, out) ← translateLine load modules p line
    let (sink, isAccepted) := p.sink.write out
    let p := { p with sink := sink }
    if isAccepted then writeLines load modules rest p else return (p, false)

def writeReport (load : SymbolLoader m L) (report : ExceptionReport) (sink : Sink) :
    m (Sink × Except ReportError TranslateStats) := do
  let (p, isWritten) ← writeLines load report.modules report.lines (start sink)
  if isWritten && ! p.sink.flushFails then return (p.sink, .ok p.stats)
  else return (p.sink, .error .write)

/-- Reads a report and writes its translation. Nothing is loaded or written unless the report is read to its end. -/
def translate (load : SymbolLoader m L) (source : ReportSource) (sink : Sink) :
    m (Sink × Except ReportError TranslateStats) := do
  match source.read with
  | .error e => return (sink, .error e)
  | .ok report => writeReport load report sink

end Translate

end Symbolicate
