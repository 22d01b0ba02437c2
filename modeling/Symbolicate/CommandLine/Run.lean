import Symbolicate.CommandLine.Options
import Symbolicate.Store.Symbols

/-!
# Running the program

Reports are translated one after the other into one output. Modules whose debug information is inconsistent are named in
messages; a report that cannot be opened or translated ends the run.
-/

namespace Symbolicate

/-- What the program knows of its surroundings. -/
structure Environment where
  /-- The variable that holds the usual symbol path, if it is set. -/
  symbolPath : Option String
  /-- The directory for temporary files. -/
  temporary : FilePath

/-- What the program has written so far, and its exit code. -/
structure Outcome where
  code : Nat
  output : Bytes
  messages : Bytes
  deriving DecidableEq, Repr

namespace Outcome

def start : Outcome := ⟨0, [], []⟩

def say (o : Outcome) (line : String) : Outcome := { o with messages := o.messages ++ Utf8.ofString (line ++ "\n") }

/-- The causes of a failure, from the nearest to the farthest, numbered if there are several. -/
def causeLines : List String → List String
  | [cause] => ["    " ++ cause]
  | causes => causes.zipIdx.map fun (cause, i) => "    " ++ toString i ++ ": " ++ cause

def fail (o : Outcome) (what : String) (causes : List String) : Outcome :=
  (["error: " ++ what, "", "Caused by:"] ++ causeLines causes).foldl say { o with code := 1 }

end Outcome

namespace CommandLine

variable {m : Type → Type} [Monad m] [FileSystem m] {Map : Type} [MappedFiles m Map]

/-- The symbol store that the options ask for: the given symbol paths, then what the environment adds. -/
def storeOf (options : Options) (environment : Environment) : SymbolStore :=
  let given := options.symbolPaths.foldl (fun (p : SymbolPath) s => p.append (.parse s)) .empty
  let path := if options.usesEnvironment then given.append (.ofVariable environment.symbolPath) else given
  { path := path, defaultCache := options.cache.getD (SymbolStore.defaultCacheIn environment.temporary) }

def translationCauses : ReportError → List String
  | .read cause => [(ReportError.read cause).message, cause.message]
  | .write => [ReportError.write.message]

/-- The message about a module whose debug information could not be loaded. -/
def loadMessage (name : String) (failed : String × SymbolError) : String :=
  name ++ ": failed to load symbols for " ++ failed.1 ++ ": " ++ failed.2.message

/-- Translates one report; `what` and `name` say which it is, in a failure and in messages. -/
def translateReport (store : SymbolStore) (what name : String) (source : ReportSource) (o : Outcome) : m Outcome := do
  let (sink, result) ← Translate.translate store.load source .unlimited
  let o := { o with output := o.output ++ sink.accepted }
  match result with
  | .error e => return o.fail ("failed to translate " ++ what) (translationCauses e)
  | .ok stats => return stats.errors.foldl (fun o failed => o.say (loadMessage name failed)) o

/-- Translates the report in a file. A directory can be opened and only then not be read. -/
def translateFile (store : SymbolStore) (file : FilePath) (o : Outcome) : m Outcome := do
  match ← FileSystem.read file with
  | .ok b => translateReport store file.text file.text ⟨b, none⟩ o
  | .error .isADirectory => translateReport store file.text file.text ⟨[], some .isADirectory⟩ o
  | .error e => return o.fail ("failed to open " ++ file.text) [e.message]

/-- Translates files one after the other, until one fails. -/
def translateFiles (store : SymbolStore) : List FilePath → Outcome → m Outcome
  | [], o => return o
  | file :: rest, o => do
    let o ← translateFile store file o
    if o.code = 0 then translateFiles store rest o else return o

def usage : String :=
  "Usage: [-s PATH]... [--no-env] [--cache DIR] [FILE]...\n\n" ++
    "Adds source files and line numbers to exception reports. Reads standard input if no file is given."

/-- Runs the program. Standard input is read only when no file is given. -/
def run (args : List String) (environment : Environment) (input : m (Except FileError Bytes)) : m Outcome := do
  match Options.parse args with
  | .error .help => return { Outcome.start with output := Utf8.ofString (usage ++ "\n") }
  | .error .usage => return { Outcome.start.say usage with code := 2 }
  | .ok options =>
    let store := storeOf options environment
    if options.files = [] then
      let source : ReportSource := match ← input with
        | .ok b => ⟨b, none⟩
        | .error e => ⟨[], some e⟩
      translateReport store "standard input" "<stdin>" source .start
    else translateFiles store options.files .start

end CommandLine

end Symbolicate
