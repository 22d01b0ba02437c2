import Mathlib.Data.List.Nodup
import Mathlib.Tactic.Common
import Symbolicate.Proofs.Lists.FirstMentions
import Symbolicate.Report.ModuleTable

/-!
# Names in module tables

No two modules of a table have the same name, in any case (`distinct_ofList`), so a module of a table is known by its
name alone (`eq_of_name_eq`). A frame finds a module of the table (`mem_of_get?`).
-/

namespace Symbolicate.ModuleTable

variable {t : ModuleTable}

/-- The names of the modules of a table, as they are compared. -/
def keys (t : ModuleTable) : List String := t.modules.map fun m => key m.name

/-- No two modules have the same name, in any case. -/
def Distinct (t : ModuleTable) : Prop := t.keys.Nodup

/-! ## Registering keeps names apart -/

theorem distinct_empty : Distinct empty := List.nodup_nil

theorem put_eq_place (t : ModuleTable) (m : ModuleInfo) :
    t.put m = ⟨place (fun other : ModuleInfo => key other.name) t.modules m⟩ := by
  unfold put place
  split <;> rfl

/-- A module takes the place of the one with its name, or a new place. -/
theorem keys_put (t : ModuleTable) (m : ModuleInfo) : (t.put m).keys = mention t.keys (key m.name) := by
  rw [put_eq_place]
  exact map_place _ _ _

theorem distinct_put (h : Distinct t) (m : ModuleInfo) : Distinct (t.put m) := by
  rw [Distinct, keys_put]
  exact nodup_mention h _

theorem distinct_insert (h : Distinct t) (m : ModuleInfo) : Distinct (t.insert m).1 := distinct_put h _

theorem distinct_extend (h : Distinct t) (ms : List ModuleInfo) : Distinct (t.extend ms) := by
  induction ms generalizing t with
  | nil => exact h
  | cons m ms ih => exact ih (distinct_insert h m)

/-- **Names in a table are distinct**, whatever modules have been registered. -/
theorem distinct_ofList (ms : List ModuleInfo) : Distinct (ofList ms) := distinct_extend distinct_empty ms

/-! ## Finding -/

theorem mem_of_get? {name : String} {m : ModuleInfo} (h : t.get? name = some m) :
    m ∈ t.modules ∧ key m.name = key name :=
  ⟨List.mem_of_find?_eq_some h, by simpa using List.find?_some h⟩

/-- Modules of a table with equal names are the same module. -/
theorem eq_of_name_eq (h : Distinct t) {a b : ModuleInfo} (ha : a ∈ t.modules) (hb : b ∈ t.modules)
    (hname : a.name = b.name) : a = b :=
  List.inj_on_of_nodup_map h ha hb (congrArg key hname)

end Symbolicate.ModuleTable
