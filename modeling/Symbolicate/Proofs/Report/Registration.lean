import Mathlib.Data.List.Nodup
import Mathlib.Data.List.Perm.Subperm
import Mathlib.Tactic.Common
import Symbolicate.Proofs.Report.ModuleTable
import Symbolicate.Proofs.Text.Ascii
import Symbolicate.Proofs.Text.Lowercase

/-!
# Registering modules

A module is registered under the first name that is free for it (`nameFor_eq_first`): the names that are tried differ
in lower case (`key_candidate_injective`), so one more of them than there are modules is enough. It takes the place of
the module with its name, which has its identity, or comes behind all others (`entered_insert`), and a place keeps its
name and its identity from then on (`keeps_insert`). Both hold along every run of registrations
(`registerAll_invariant`).
-/

namespace Symbolicate.ModuleTable

variable {t u v : ModuleTable} {m old : ModuleInfo} {name identity : String}

/-! ## Names that are tried -/

theorem key_candidate_succ (base : String) (step : Nat) :
    key (candidate base (step + 1)) = key base ++ "#" ++ String.ofList (Text.decimal (step + 2)) := by
  rw [candidate, if_neg step.succ_ne_zero, key, Text.lowercase_numbered _ fun c hc => ?_, key]
  have hdigit := Text.isDigit_of_mem_decimal hc
  simp only [Char.isDigit, Bool.and_eq_true, decide_eq_true_eq] at hdigit
  exact Nat.lt_of_le_of_lt (show c.toNat ≤ 0x39 from hdigit.2) (by decide)

/-- The names that are tried differ in lower case. -/
theorem key_candidate_injective (base : String) : Function.Injective fun step => key (candidate base step) := by
  have hlonger : ∀ step, key (candidate base (step + 1)) ≠ key (candidate base 0) := by
    intro step heq
    have hlength := congrArg String.length heq
    rw [key_candidate_succ, candidate, if_pos rfl, String.length_append, String.length_append] at hlength
    have : "#".length = 1 := rfl
    omega
  intro i j heq
  match i, j, heq with
  | 0, 0, _ => rfl
  | i + 1, 0, heq => exact absurd heq (hlonger i)
  | 0, j + 1, heq => exact absurd heq.symm (hlonger j)
  | i + 1, j + 1, heq =>
    have hlists := congrArg String.toList heq
    simp only [key_candidate_succ, String.toList_append, String.toList_ofList] at hlists
    have := Text.decimal_injective (List.append_cancel_left hlists)
    omega

/-! ## Finding -/

/-- **A name finds the module with that name**, in any case. -/
theorem get?_eq_some_iff (h : Distinct t) : t.get? name = some m ↔ m ∈ t.modules ∧ key name = key m.name := by
  constructor
  · intro hfound
    obtain ⟨hmem, hkey⟩ := mem_of_get? hfound
    exact ⟨hmem, hkey.symm⟩
  · rintro ⟨hmem, hkey⟩
    have hsome : (t.get? name).isSome := List.find?_isSome.2 ⟨m, hmem, by simpa using hkey.symm⟩
    obtain ⟨other, hother⟩ := Option.isSome_iff_exists.1 hsome
    obtain ⟨hmem', hkey'⟩ := mem_of_get? hother
    rw [hother, List.inj_on_of_nodup_map h hmem' hmem (hkey'.trans hkey)]

theorem get?_eq_none_iff : t.get? name = none ↔ key name ∉ t.keys := by
  simp [get?, keys, List.find?_eq_none]

/-! ## The first free name -/

theorem isAvailable_iff : t.isAvailable name identity = true ↔ ∀ m, t.get? name = some m → m.identity = identity := by
  rw [isAvailable]
  cases t.get? name <;> simp

/-- One of the names that are tried is free. -/
theorem exists_isAvailable (t : ModuleTable) (base identity : String) :
    ∃ i ≤ t.size, t.isAvailable (candidate base i) identity = true := by
  by_contra hnone
  have htaken : ∀ i ∈ List.range (t.size + 1), key (candidate base i) ∈ t.keys := by
    intro i hi
    by_contra hfree
    refine hnone ⟨i, Nat.lt_succ_iff.1 (List.mem_range.1 hi), isAvailable_iff.2 fun m hm => ?_⟩
    rw [get?_eq_none_iff.2 hfree] at hm
    cases hm
  -- more names than there are modules
  have hnodup : ((List.range (t.size + 1)).map fun i => key (candidate base i)).Nodup :=
    List.nodup_range.map (key_candidate_injective base)
  have hsubset : ((List.range (t.size + 1)).map fun i => key (candidate base i)) ⊆ t.keys := by
    rintro _ hmem
    obtain ⟨i, hi, rfl⟩ := List.mem_map.1 hmem
    exact htaken i hi
  have hle := (List.Nodup.subperm hnodup hsubset).length_le
  rw [List.length_map, List.length_range, keys, List.length_map] at hle
  exact Nat.not_succ_le_self _ hle

/-- The first free name is found if one of those that are tried is free. -/
theorem probe_eq_first {base : String} {fuel step : Nat}
    (h : ∃ i, step ≤ i ∧ i ≤ step + fuel ∧ t.isAvailable (candidate base i) identity = true) :
    ∃ i, t.probe base identity fuel step = candidate base i ∧ t.isAvailable (candidate base i) identity = true ∧
      ∀ j, step ≤ j → j < i → t.isAvailable (candidate base j) identity = false := by
  obtain ⟨i, hstep, hi, hfree⟩ := h
  induction fuel generalizing step with
  | zero =>
    obtain rfl : i = step := Nat.le_antisymm hi hstep
    exact ⟨i, rfl, hfree, fun j hj hlt => absurd hlt (Nat.not_lt.2 hj)⟩
  | succ fuel ih =>
    rw [probe]
    by_cases hnow : t.isAvailable (candidate base step) identity = true
    · exact ⟨step, if_pos hnow, hnow, fun j hj hlt => absurd hlt (Nat.not_lt.2 hj)⟩
    · have hne : step ≠ i := by rintro rfl; exact hnow hfree
      obtain ⟨first, heq, hfirst, hbefore⟩ := ih (Nat.lt_of_le_of_ne hstep hne) (by omega)
      refine ⟨first, by rw [if_neg hnow, heq], hfirst, fun j hj hlt => ?_⟩
      rcases Nat.eq_or_lt_of_le hj with rfl | hj
      · exact Bool.eq_false_iff.2 hnow
      · exact hbefore j hj hlt

/-- **A module is registered under the first name that is free for it.** -/
theorem nameFor_eq_first (t : ModuleTable) (m : ModuleInfo) :
    ∃ i, t.nameFor m = candidate m.name i ∧ t.isAvailable (candidate m.name i) m.identity = true ∧
      ∀ j < i, t.isAvailable (candidate m.name j) m.identity = false := by
  obtain ⟨i, hi, hfree⟩ := exists_isAvailable t m.name m.identity
  have hfew : i ≤ 0 + t.size := by rwa [Nat.zero_add]
  obtain ⟨first, heq, hfirst, hbefore⟩ := probe_eq_first ⟨i, Nat.zero_le i, hfew, hfree⟩
  exact ⟨first, heq, hfirst, fun j => hbefore j (Nat.zero_le j)⟩

/-! ## One registration -/

/-- How a module gets into a table: in place of the one with its name, whose identity it has, or behind all others. -/
inductive Entered (t : ModuleTable) (m : ModuleInfo) : ModuleTable → Prop
  | replaced (i : Nat) (old : ModuleInfo) : t.modules[i]? = some old → key old.name = key m.name →
      old.identity = m.identity → Entered t m ⟨t.modules.set i m⟩
  | added : key m.name ∉ t.keys → Entered t m ⟨t.modules ++ [m]⟩

theorem mem_of_entered (h : Entered t m u) : m ∈ u.modules := by
  cases h with
  | replaced i old hold =>
    obtain ⟨hi, -⟩ := List.getElem?_eq_some_iff.1 hold
    exact List.mem_set hi m
  | added => exact List.mem_append_right _ (List.mem_singleton.2 rfl)

theorem put_of_notMem (h : key m.name ∉ t.keys) : t.put m = ⟨t.modules ++ [m]⟩ := by
  rw [put_eq_place, place, if_neg (mt (any_key_iff ..).1 h)]

/-- The module with the same name is the only one to be replaced. -/
theorem put_of_getElem? (h : Distinct t) {i : Nat} (hold : t.modules[i]? = some old)
    (hkey : key old.name = key m.name) : t.put m = ⟨t.modules.set i m⟩ := by
  have hany : (t.modules.any fun other => key other.name == key m.name) = true :=
    List.any_eq_true.2 ⟨old, List.mem_of_getElem? hold, by simpa using hkey⟩
  rw [put, if_pos hany]
  congr 1
  refine List.ext_getElem? fun j => ?_
  rw [List.getElem?_map, List.getElem?_set]
  by_cases hij : i = j
  · subst hij
    obtain ⟨hi, -⟩ := List.getElem?_eq_some_iff.1 hold
    rw [hold, if_pos rfl, if_pos hi, Option.map_some, if_pos hkey]
  · rw [if_neg hij]
    cases hj : t.modules[j]? with
    | none => rfl
    | some other =>
      have hother : key other.name ≠ key m.name := by
        intro heq
        have hkeys : t.keys[i]? = t.keys[j]? := by
          rw [keys, List.getElem?_map, List.getElem?_map, hold, hj, Option.map_some, Option.map_some, hkey, heq]
        obtain ⟨hi, -⟩ := List.getElem?_eq_some_iff.1 hold
        have hi' : i < t.keys.length := by rwa [keys, List.length_map]
        exact hij ((List.getElem?_inj hi' h).1 hkeys)
      rw [Option.map_some, if_neg hother]

/-- A module under a name that is free for it replaces one module or is added. -/
theorem entered_put (h : Distinct t) (hfree : t.isAvailable m.name m.identity = true) : Entered t m (t.put m) := by
  by_cases hmem : key m.name ∈ t.keys
  · obtain ⟨old, hold, hkey⟩ := List.mem_map.1 hmem
    obtain ⟨i, hi⟩ := List.getElem?_of_mem hold
    rw [put_of_getElem? h hi hkey]
    exact .replaced i old hi hkey (isAvailable_iff.1 hfree old ((get?_eq_some_iff h).2 ⟨hold, hkey.symm⟩))
  · rw [put_of_notMem hmem]
    exact .added hmem

/-- **A registration replaces one module or adds one.** -/
theorem entered_insert (h : Distinct t) (m : ModuleInfo) :
    Entered t { m with name := (t.insert m).2 } (t.insert m).1 := by
  obtain ⟨i, hname, hfree, -⟩ := nameFor_eq_first t m
  rw [← hname] at hfree
  exact entered_put h hfree

/-! ## What is kept -/

/-- Every module of a table has one with its name and its identity in the same place of another one. -/
def Keeps (t u : ModuleTable) : Prop :=
  ∀ (i : Nat) (old : ModuleInfo), t.modules[i]? = some old →
    ∃ new, u.modules[i]? = some new ∧ key new.name = key old.name ∧ new.identity = old.identity

theorem Keeps.refl (t : ModuleTable) : Keeps t t := fun _ old h => ⟨old, h, rfl, rfl⟩

theorem Keeps.trans (h : Keeps t u) (h' : Keeps u v) : Keeps t v := by
  intro i old hold
  obtain ⟨new, hnew, hkey, hidentity⟩ := h i old hold
  obtain ⟨last, hlast, hkey', hidentity'⟩ := h' i new hnew
  exact ⟨last, hlast, hkey'.trans hkey, hidentity'.trans hidentity⟩

theorem keeps_of_entered (h : Entered t m u) : Keeps t u := by
  intro j other hother
  obtain ⟨hj, -⟩ := List.getElem?_eq_some_iff.1 hother
  cases h with
  | replaced i old hold hkey hidentity =>
    by_cases hij : i = j
    · subst hij
      cases hold.symm.trans hother
      exact ⟨m, by simp [hj], hkey.symm, hidentity.symm⟩
    · exact ⟨other, by rw [List.getElem?_set_ne hij, hother], rfl, rfl⟩
  | added => exact ⟨other, by rw [List.getElem?_append_left hj, hother], rfl, rfl⟩

theorem keeps_insert (h : Distinct t) (m : ModuleInfo) : Keeps t (t.insert m).1 := keeps_of_entered (entered_insert h m)

theorem keeps_extend (h : Distinct t) (ms : List ModuleInfo) : Keeps t (t.extend ms) := by
  induction ms generalizing t with
  | nil => exact .refl t
  | cons m ms ih => exact (keeps_insert h m).trans (ih (distinct_insert h m))

/-- The identity under a name stays. -/
theorem get?_of_keeps (h : Keeps t u) (hu : Distinct u) (hm : t.get? name = some m) :
    ∃ new, u.get? name = some new ∧ new.identity = m.identity := by
  obtain ⟨hmem, hkey⟩ := mem_of_get? hm
  obtain ⟨i, hi⟩ := List.getElem?_of_mem hmem
  obtain ⟨new, hnew, hkey', hidentity⟩ := h i m hi
  exact ⟨new, (get?_eq_some_iff hu).2 ⟨List.mem_of_getElem? hnew, (hkey'.trans hkey).symm⟩, hidentity⟩

/-! ## Runs -/

/-- A registration of one module, or of several. -/
inductive Registration where
  | insert (m : ModuleInfo)
  | extend (ms : List ModuleInfo)

def register (t : ModuleTable) : Registration → ModuleTable
  | .insert m => (t.insert m).1
  | .extend ms => t.extend ms

def registerAll (t : ModuleTable) (run : List Registration) : ModuleTable := run.foldl register t

theorem distinct_register (h : Distinct t) (r : Registration) : Distinct (t.register r) := by
  cases r with
  | insert m => exact distinct_insert h m
  | extend ms => exact distinct_extend h ms

theorem keeps_register (h : Distinct t) (r : Registration) : Keeps t (t.register r) := by
  cases r with
  | insert m => exact keeps_insert h m
  | extend ms => exact keeps_extend h ms

theorem distinct_registerAll (h : Distinct t) (run : List Registration) : Distinct (t.registerAll run) := by
  induction run generalizing t with
  | nil => exact h
  | cons r run ih => exact ih (distinct_register h r)

theorem keeps_registerAll (h : Distinct t) (run : List Registration) : Keeps t (t.registerAll run) := by
  induction run generalizing t with
  | nil => exact .refl t
  | cons r run ih => exact (keeps_register h r).trans (ih (distinct_register h r))

/-- **Names and identities along every run of registrations.** In every table that a run leads to, names differ and
find their modules. The next module replaces one of its identity or is added, and is found under the name it gets. In
every later table each place has the same name and identity, and so has each name. -/
theorem registerAll_invariant (start : List ModuleInfo) (run : List Registration) :
    let t := (ofList start).registerAll run
    (t.keys.Nodup ∧ ∀ name m, t.get? name = some m ↔ m ∈ t.modules ∧ key name = key m.name) ∧
    (∀ m, (t.insert m).1.get? (t.insert m).2 = some { m with name := (t.insert m).2 } ∧
      Entered t { m with name := (t.insert m).2 } (t.insert m).1) ∧
    ∀ later, Keeps t (t.registerAll later) ∧ ∀ name m, t.get? name = some m →
      ∃ new, (t.registerAll later).get? name = some new ∧ new.identity = m.identity := by
  intro t
  have h : Distinct t := distinct_registerAll (distinct_ofList start) run
  refine ⟨⟨h, fun name m => get?_eq_some_iff h⟩, fun m => ?_, fun later => ?_⟩
  · have hentered := entered_insert h m
    exact ⟨(get?_eq_some_iff (distinct_insert h m)).2 ⟨mem_of_entered hentered, rfl⟩, hentered⟩
  · have hkeeps := keeps_registerAll h later
    exact ⟨hkeeps, fun name m hm => get?_of_keeps hkeeps (distinct_registerAll h later) hm⟩

end Symbolicate.ModuleTable
