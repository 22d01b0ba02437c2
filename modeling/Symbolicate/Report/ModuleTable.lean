import Symbolicate.Report.ModuleInfo
import Symbolicate.Text.Lowercase

/-!
# Module tables

The modules of a report by display name, in the order of their first mention. Names that differ only in case are the
same name. Two assemblies with the same name get different ones: the second is registered as `name#2`, the third as
`name#3`, and so on. The numbers are not bounded here; where they are counted in 32 bits with a sign, all is the same
for tables of fewer than 2^31 modules.
-/

namespace Symbolicate

/-- Modules by display name, no two with the same name in lower case. -/
structure ModuleTable where
  modules : List ModuleInfo
  deriving DecidableEq, Repr

namespace ModuleTable

def empty : ModuleTable := ⟨[]⟩

/-- What names are compared by. -/
def key (name : String) : String := Text.lowercase name

/-- The module registered under a name, in any case. -/
def get? (t : ModuleTable) (name : String) : Option ModuleInfo := t.modules.find? fun m => key m.name == key name

def size (t : ModuleTable) : Nat := t.modules.length

/-! ## Registering -/

/-- The name that is tried at a step: the display name first, then the display name with the numbers from two on. -/
def candidate (base : String) (step : Nat) : String :=
  if step = 0 then base else base ++ "#" ++ String.ofList (Text.decimal (step + 1))

/-- Whether a name is free for an assembly: nobody has it, or the assembly itself does. -/
def isAvailable (t : ModuleTable) (name identity : String) : Bool :=
  (t.get? name).all (·.identity == identity)

/-- The first available name from a step on, among so many. -/
def probe (t : ModuleTable) (base identity : String) : Nat → Nat → String
  | 0, step => candidate base step
  | fuel + 1, step =>
    if t.isAvailable (candidate base step) identity then candidate base step
    else probe t base identity fuel (step + 1)

/-- The name that a module is registered under: with so many modules in the table, one of one more names is free. -/
def nameFor (t : ModuleTable) (m : ModuleInfo) : String := t.probe m.name m.identity t.size 0

/-- The table with a module under its own name, in place of one that has this name or behind all others. -/
def put (t : ModuleTable) (m : ModuleInfo) : ModuleTable :=
  if t.modules.any fun other => key other.name == key m.name then
    ⟨t.modules.map fun other => if key other.name = key m.name then m else other⟩
  else ⟨t.modules ++ [m]⟩

/-- The table with a module registered, and the name it is registered under. -/
def insert (t : ModuleTable) (m : ModuleInfo) : ModuleTable × String :=
  let name := t.nameFor m
  (t.put { m with name := name }, name)

/-- The table with several modules registered one after the other. -/
def extend (t : ModuleTable) (ms : List ModuleInfo) : ModuleTable := ms.foldl (fun t m => (t.insert m).1) t

def ofList (ms : List ModuleInfo) : ModuleTable := empty.extend ms

end ModuleTable

end Symbolicate
