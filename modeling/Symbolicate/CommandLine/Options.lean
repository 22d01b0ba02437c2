import Symbolicate.Files.Path

/-!
# Options

What the arguments of the program ask for. Arguments are looked at from left to right, and the first one that cannot be
understood, or that asks for help, ends it.

    -s, --symbol-path PATH   may be given several times; also as -sPATH, -s=PATH, --symbol-path=PATH
        --no-env             at most once
        --cache DIR          at most once; also as --cache=DIR
    -h, --help
    FILE                     may be given several times, between options too; behind -- everything is one
-/

namespace Symbolicate

/-- Why there is nothing to do. -/
inductive ArgumentStop where
  /-- Help has been asked for. -/
  | help
  /-- The arguments cannot be understood. -/
  | usage
  deriving DecidableEq, Repr

/-- What the arguments ask for. -/
structure Options where
  symbolPaths : List String := []
  /-- Whether the symbol path of the environment and the working directory are searched too. -/
  usesEnvironment : Bool := true
  cache : Option FilePath := none
  /-- The reports to translate; without any, standard input is one. -/
  files : List FilePath := []
  deriving DecidableEq, Repr

namespace Options

/-! ## Arguments -/

/-- An option by its meaning. -/
inductive Key where
  | symbolPath
  | noEnvironment
  | cache
  | help
  deriving DecidableEq, Repr

def Key.hasValue : Key → Bool
  | symbolPath | cache => true
  | noEnvironment | help => false

/-- The option with a long name. -/
def Key.ofLong? (name : String) : Option Key :=
  if name = "symbol-path" then some .symbolPath
  else if name = "no-env" then some .noEnvironment
  else if name = "cache" then some .cache
  else if name = "help" then some .help
  else none

/-- The option with a letter. -/
def Key.ofLetter? (letter : Char) : Option Key :=
  if letter = 's' then some .symbolPath else if letter = 'h' then some .help else none

/-- What a single argument is. -/
inductive Argument where
  /-- Two dashes, behind which there are no options. -/
  | optionsEnd
  /-- An option, and the value that is part of the argument. -/
  | option (key : Key) (value : Option String)
  | file
  /-- A dash that starts no option. -/
  | unknown
  deriving DecidableEq, Repr

/-- The long option of the characters behind two dashes. -/
def longOption (cs : List Char) : Argument :=
  let value := (cs.dropWhile (· ≠ '=')).tail?.map String.ofList
  match Key.ofLong? (String.ofList (cs.takeWhile (· ≠ '='))) with
  | none => .unknown
  | some key => if value.isSome ∧ ! key.hasValue then .unknown else .option key value

/-- The option of a letter and the characters behind it, which are its value if it has one. What stands behind an option
without a value does not count, since asking for help ends everything. -/
def shortOption (letter : Char) (cs : List Char) : Argument :=
  match Key.ofLetter? letter with
  | none => .unknown
  | some key =>
    if key.hasValue then
      match cs with
      | [] => .option key none
      | '=' :: value => .option key (some (String.ofList value))
      | value => .option key (some (String.ofList value))
    else .option key none

/-- What an argument is. A single dash is a file. -/
def classify (arg : String) : Argument :=
  match arg.toList with
  | ['-', '-'] => .optionsEnd
  | '-' :: '-' :: cs => longOption cs
  | '-' :: letter :: cs => shortOption letter cs
  | _ => .file

/-! ## Collecting -/

/-- The options with one more file. A file has a name. -/
def addFile (o : Options) (name : String) : Except ArgumentStop Options :=
  if name = "" then .error .usage else .ok { o with files := o.files ++ [⟨name⟩] }

def addFlag (o : Options) : Key → Except ArgumentStop Options
  | .noEnvironment => if o.usesEnvironment then .ok { o with usesEnvironment := false } else .error .usage
  | .help => .error .help
  | .symbolPath | .cache => .error .usage

def addValue (o : Options) (value : String) : Key → Except ArgumentStop Options
  | .symbolPath => .ok { o with symbolPaths := o.symbolPaths ++ [value] }
  | .cache => if value = "" ∨ o.cache.isSome then .error .usage else .ok { o with cache := some ⟨value⟩ }
  | .noEnvironment | .help => .error .usage

/-- The options with those that arguments give. A value of its own argument does not look like an option. -/
def collect (o : Options) : List String → Except ArgumentStop Options
  | [] => .ok o
  | arg :: rest =>
    match classify arg with
    | .unknown => .error .usage
    | .optionsEnd => rest.foldlM addFile o
    | .file => do collect (← o.addFile arg) rest
    | .option key (some value) => do collect (← o.addValue value key) rest
    | .option key none =>
      if key.hasValue then
        match rest with
        | [] => .error .usage
        | value :: rest => if classify value = .file then do collect (← o.addValue value key) rest else .error .usage
      else do collect (← o.addFlag key) rest

/-- What arguments ask for. -/
def parse (args : List String) : Except ArgumentStop Options := collect {} args

end Options

end Symbolicate
