import Mathlib.Data.List.Induction
import Mathlib.Tactic.Common
import Symbolicate.Proofs.Lists.FirstMentions
import Symbolicate.Proofs.Report.Registration

/-!
# Numbers of names

Two assemblies with the same name are told apart by numbers. Names are tried one after the other until one is free
(`Tries`); there are at most as many that are not as there are modules (`tries_insert`). A module that comes again finds
the place it has (`key_insert_again`). As long as nobody else takes them, the name and its numbers go to the assemblies
listed under the name in the order of their first mention, without gaps (`holdsNumbers_ofList`).

Somebody else can take the name itself only if it is a numbered name already: the second assembly listed under `X` is
registered under `X#2` if this is free, and the first one that is listed under `X#2` afterwards finds its name taken
(`not_numbered_as_listed`).
-/

namespace Symbolicate.ModuleTable

variable {t u : ModuleTable} {m : ModuleInfo} {base name : String} {ms : List ModuleInfo} {ids : List String}

/-! ## Names that are tried -/

/-- The names that are tried for a module from a step on, one after the other until one is free for it. -/
inductive Tries (t : ModuleTable) (m : ModuleInfo) : Nat → List String → Prop
  | free {step : Nat} : t.isAvailable (candidate m.name step) m.identity = true →
      Tries t m step [candidate m.name step]
  | taken {step : Nat} {names : List String} : t.isAvailable (candidate m.name step) m.identity = false →
      Tries t m (step + 1) names → Tries t m step (candidate m.name step :: names)

/-- If `n` names are taken and the next one is free, these are tried and no more. -/
theorem tries_range {step : Nat} (n : Nat)
    (htaken : ∀ j, step ≤ j → j < step + n → t.isAvailable (candidate m.name j) m.identity = false)
    (hfree : t.isAvailable (candidate m.name (step + n)) m.identity = true) :
    Tries t m step ((List.range' step (n + 1)).map (candidate m.name)) := by
  induction n generalizing step with
  | zero => exact .free hfree
  | succ n ih =>
    refine .taken (htaken step (Nat.le_refl _) (by omega)) (ih (fun j hj hlt => htaken j (by omega) (by omega)) ?_)
    rwa [Nat.add_right_comm, Nat.add_assoc]

/-- **A module is registered under the first name that is free for it**, after at most one more try than there are
modules. -/
theorem tries_insert (t : ModuleTable) (m : ModuleInfo) :
    ∃ i ≤ t.size, Tries t m 0 ((List.range (i + 1)).map (candidate m.name)) ∧
      (t.insert m).2 = candidate m.name i ∧ t.isAvailable (candidate m.name i) m.identity = true ∧
      ∀ j < i, t.isAvailable (candidate m.name j) m.identity = false := by
  obtain ⟨i, hname, hfree, hbefore⟩ := nameFor_eq_first t m
  obtain ⟨j, hj, hfree'⟩ := exists_isAvailable t m.name m.identity
  have hi : i ≤ j := by
    by_contra hlt
    rw [hbefore j (Nat.not_le.1 hlt)] at hfree'
    cases hfree'
  refine ⟨i, hi.trans hj, ?_, hname, hfree, hbefore⟩
  rw [List.range_eq_range']
  exact tries_range i (fun j _ hlt => hbefore j (by omega)) (by rwa [Nat.zero_add])

/-- Names that differ only in case have the same numbered names. -/
theorem key_candidate_congr {other : String} (h : key other = key base) (step : Nat) :
    key (candidate other step) = key (candidate base step) := by
  cases step with
  | zero => exact h
  | succ step => rw [key_candidate_succ, key_candidate_succ, h]

/-- The number of a numbered name is what stands behind the last number sign. -/
theorem takeWhile_reverse_numbered (front : List Char) (n : Nat) :
    (front ++ '#' :: Text.decimal n).reverse.takeWhile (· ≠ '#') = (Text.decimal n).reverse := by
  have hdigit : ∀ c ∈ (Text.decimal n).reverse, decide (c ≠ '#') = true := by
    intro c hc
    apply decide_eq_true
    rintro rfl
    exact absurd (Text.isDigit_of_mem_decimal (List.mem_reverse.1 hc)) (by decide)
  rw [List.reverse_append, List.reverse_cons, List.append_assoc]
  exact Text.takeWhile_run hdigit (Text.eq_false_of_head?_cons (by decide))

/-- A numbered name shows which name has been numbered. -/
theorem key_eq_of_candidate_succ {other : String} {i j : Nat}
    (h : key (candidate other (i + 1)) = key (candidate base (j + 1))) : key other = key base := by
  have hlists : (key other).toList ++ '#' :: Text.decimal (i + 2) =
      (key base).toList ++ '#' :: Text.decimal (j + 2) := by
    have hlists := congrArg String.toList h
    simp only [key_candidate_succ, String.toList_append, List.append_assoc, String.toList_ofList] at hlists
    exact hlists
  have hnumber : Text.decimal (i + 2) = Text.decimal (j + 2) := by
    rw [← List.reverse_inj, ← takeWhile_reverse_numbered, ← takeWhile_reverse_numbered, hlists]
  rw [hnumber] at hlists
  exact String.toList_injective (List.append_cancel_right hlists)

/-- A name without a number sign is no numbered name. -/
theorem key_ne_candidate_succ (h : '#' ∉ (key name).toList) (base : String) (step : Nat) :
    key name ≠ key (candidate base (step + 1)) := by
  rintro heq
  rw [heq, key_candidate_succ] at h
  simp at h

/-! ## The table behind a registration -/

/-- A module that has been put into a table is found under its name, and nothing else changes. -/
theorem get?_put (t : ModuleTable) (m : ModuleInfo) (name : String) :
    (t.put m).get? name = if key name = key m.name then some m else t.get? name := by
  rw [put_eq_place]
  exact find?_place (fun other : ModuleInfo => key other.name) t.modules m (key name)

/-- **A registered module is found under the name it gets**, and nothing else changes. -/
theorem get?_insert (t : ModuleTable) (m : ModuleInfo) (name : String) :
    (t.insert m).1.get? name =
      if key name = key (t.insert m).2 then some { m with name := (t.insert m).2 } else t.get? name :=
  get?_put t _ name

/-! ## A module that comes again -/

/-- The name that a module gets is known from the first step at which it is free. -/
theorem insert_eq_of_first {i : Nat} (hfree : t.isAvailable (candidate m.name i) m.identity = true)
    (hbefore : ∀ j < i, t.isAvailable (candidate m.name j) m.identity = false) :
    (t.insert m).2 = candidate m.name i := by
  obtain ⟨first, -, -, hname, hfirst, htaken⟩ := tries_insert t m
  rcases Nat.lt_trichotomy i first with hlt | rfl | hlt
  · rw [htaken i hlt] at hfree
    cases hfree
  · exact hname
  · rw [hbefore first hlt] at hfirst
    cases hfirst

/-- A name is free or not, in any case. -/
theorem isAvailable_congr {other identity : String} (h : key other = key name) :
    t.isAvailable other identity = t.isAvailable name identity := by
  rw [isAvailable, isAvailable, get?, get?, h]

/-- A name that is taken stays taken. -/
theorem isAvailable_of_keeps {identity : String} (h : Keeps t u) (hu : Distinct u)
    (htaken : t.isAvailable name identity = false) : u.isAvailable name identity = false := by
  cases hold : t.get? name with
  | none =>
    rw [isAvailable, hold] at htaken
    cases htaken
  | some old =>
    obtain ⟨new, hnew, hidentity⟩ := get?_of_keeps h hu hold
    rw [isAvailable, hold] at htaken
    rwa [isAvailable, hnew, Option.all_some, hidentity]

/-- **A module that comes again gets the name it has**: the names in front of it stay taken, and it keeps its own. -/
theorem key_insert_again {again : ModuleInfo} (ht : Distinct t) (hu : Distinct u) (h : Keeps (t.insert m).1 u)
    (hname : key again.name = key m.name) (hidentity : again.identity = m.identity) :
    key (u.insert again).2 = key (t.insert m).2 := by
  obtain ⟨i, -, -, hi, -, hbefore⟩ := tries_insert t m
  have hown : (t.insert m).1.get? (candidate m.name i) = some { m with name := (t.insert m).2 } := by
    rw [get?_insert, if_pos (by rw [hi])]
  obtain ⟨new, hnew, hnewIdentity⟩ := get?_of_keeps h hu hown
  have hfree : u.isAvailable (candidate again.name i) again.identity = true := by
    rw [isAvailable_congr (key_candidate_congr hname i), isAvailable, hnew, Option.all_some, hnewIdentity, hidentity]
    exact beq_self_eq_true _
  have htaken : ∀ j < i, u.isAvailable (candidate again.name j) again.identity = false := by
    intro j hj
    rw [isAvailable_congr (key_candidate_congr hname j), hidentity]
    exact isAvailable_of_keeps ((keeps_insert ht m).trans h) hu (hbefore j hj)
  rw [insert_eq_of_first hfree htaken, hi, key_candidate_congr hname]

/-- It takes the place of what was registered before. -/
theorem insert_again {again : ModuleInfo} (ht : Distinct t) (hu : Distinct u) (h : Keeps (t.insert m).1 u)
    (hname : key again.name = key m.name) (hidentity : again.identity = m.identity) :
    ∃ i < u.size, (t.insert m).1.modules[i]? = some { m with name := (t.insert m).2 } ∧
      (u.insert again).1 = ⟨u.modules.set i { again with name := (u.insert again).2 }⟩ := by
  obtain ⟨i, hi⟩ := List.getElem?_of_mem (mem_of_entered (entered_insert ht m))
  obtain ⟨new, hnew, hkey, -⟩ := h i _ hi
  obtain ⟨hlt, -⟩ := List.getElem?_eq_some_iff.1 hnew
  exact ⟨i, hlt, hi, put_of_getElem? hu hnew (hkey.trans (key_insert_again ht hu h hname hidentity).symm)⟩

/-! ## Numbers without gaps -/

/-- The assemblies listed under a name, in any case, in the order of their first mention. -/
def identitiesUnder (base : String) (ms : List ModuleInfo) : List String :=
  ((ms.filter fun m => key m.name == key base).map ModuleInfo.identity).eraseDups

/-- The name and its numbers belong to assemblies, one after the other, and further numbers to none. -/
def HoldsNumbers (t : ModuleTable) (base : String) (ids : List String) : Prop :=
  ∀ step, (t.get? (candidate base step)).map ModuleInfo.identity = ids[step]?

/-- Modules leave a name and its numbers to the modules listed under it: no other name is one of its numbered names, and
no module of another name gets the name itself. -/
structure LeavesNumbers (base : String) (ms : List ModuleInfo) : Prop where
  other : ∀ m ∈ ms, key m.name ≠ key base → ∀ step, key m.name ≠ key (candidate base (step + 1))
  own : ∀ front m rest, ms = front ++ m :: rest → key m.name ≠ key base → key ((ofList front).insert m).2 ≠ key base

theorem identitiesUnder_of_ne (h : key m.name ≠ key base) :
    identitiesUnder base (ms ++ [m]) = identitiesUnder base ms := by
  simp [identitiesUnder, List.filter_append, h]

theorem identitiesUnder_of_eq (h : key m.name = key base) :
    identitiesUnder base (ms ++ [m]) = mention (identitiesUnder base ms) m.identity := by
  have hfilter : [m].filter (fun m => key m.name == key base) = [m] := by simp [h]
  rw [identitiesUnder, List.filter_append, hfilter, List.map_append, List.map_singleton, eraseDups_concat]
  rfl

/-- A number is free for its own assembly, and if it belongs to none. -/
theorem HoldsNumbers.isAvailable_eq (h : HoldsNumbers t base ids) (step : Nat) (identity : String) :
    t.isAvailable (candidate base step) identity = ids[step]?.all (· == identity) := by
  rw [isAvailable, ← h step, Option.all_map]

/-- A module listed under the name gets the number of its assembly, or the next one. -/
theorem HoldsNumbers.key_insert (h : HoldsNumbers t base ids) (hname : key m.name = key base) :
    key (t.insert m).2 = key (candidate base (ids.idxOf m.identity)) := by
  have havailable : ∀ step, t.isAvailable (candidate m.name step) m.identity = ids[step]?.all (· == m.identity) :=
    fun step => (isAvailable_congr (key_candidate_congr hname step)).trans (h.isAvailable_eq step _)
  have hfree : t.isAvailable (candidate m.name (ids.idxOf m.identity)) m.identity = true := by
    rw [havailable]
    by_cases hmem : m.identity ∈ ids
    · rw [List.getElem?_idxOf hmem, Option.all_some, beq_self_eq_true]
    · rw [List.idxOf_eq_length hmem, List.getElem?_eq_none (Nat.le_refl _), Option.all_none]
  rw [insert_eq_of_first hfree, key_candidate_congr hname]
  · intro j hj
    have hlt : j < ids.length := Nat.lt_of_lt_of_le hj List.idxOf_le_length
    rw [havailable, List.getElem?_eq_getElem hlt, Option.all_some]
    exact List.not_of_lt_findIdx hj

theorem HoldsNumbers.insert_of_eq (h : HoldsNumbers t base ids) (hname : key m.name = key base) :
    HoldsNumbers (t.insert m).1 base (mention ids m.identity) := by
  intro step
  rw [get?_insert, h.key_insert hname, getElem?_mention]
  by_cases hstep : step = ids.idxOf m.identity
  · rw [hstep, if_pos rfl, if_pos rfl, Option.map_some]
  · rw [if_neg (fun heq => hstep (key_candidate_injective base heq)), if_neg hstep, h]

theorem HoldsNumbers.insert_of_ne (h : HoldsNumbers t base ids)
    (hname : ∀ step, key (t.insert m).2 ≠ key (candidate base step)) : HoldsNumbers (t.insert m).1 base ids := by
  intro step
  rw [get?_insert, if_neg (hname step).symm, h]

/-- A module of another name gets none of the numbers, unless it gets the name itself. -/
theorem key_insert_ne (hother : key m.name ≠ key base)
    (hnumbered : ∀ step, key m.name ≠ key (candidate base (step + 1))) (hown : key (t.insert m).2 ≠ key base)
    (step : Nat) : key (t.insert m).2 ≠ key (candidate base step) := by
  obtain ⟨i, -, -, hname, -⟩ := tries_insert t m
  rw [hname] at hown ⊢
  match i, step with
  | _, 0 => exact hown
  | 0, step + 1 => exact hnumbered step
  | i + 1, step + 1 => exact fun heq => hother (key_eq_of_candidate_succ heq)

theorem ofList_concat (ms : List ModuleInfo) (m : ModuleInfo) : ofList (ms ++ [m]) = ((ofList ms).insert m).1 :=
  List.foldl_append

theorem LeavesNumbers.of_append {rest : List ModuleInfo} (h : LeavesNumbers base (ms ++ rest)) :
    LeavesNumbers base ms where
  other m hm := h.other m (List.mem_append_left _ hm)
  own front m rest' heq := h.own front m (rest' ++ rest) (by rw [heq, List.append_assoc, List.cons_append])

/-- **The name and its numbers go to the assemblies listed under the name**, without gaps. -/
theorem holdsNumbers_ofList (h : LeavesNumbers base ms) :
    HoldsNumbers (ofList ms) base (identitiesUnder base ms) := by
  induction ms using List.reverseRecOn with
  | nil => exact fun _ => rfl
  | append_singleton ms m ih =>
    rw [ofList_concat]
    by_cases hname : key m.name = key base
    · rw [identitiesUnder_of_eq hname]
      exact (ih h.of_append).insert_of_eq hname
    · rw [identitiesUnder_of_ne hname]
      have hnumbered := h.other m (List.mem_append_right _ (List.mem_singleton_self m)) hname
      exact (ih h.of_append).insert_of_ne (key_insert_ne hname hnumbered (h.own ms m [] rfl hname))

/-- The assembly that is mentioned as the `j`-th under a name gets the `j`-th of its numbers, whenever it comes. -/
theorem key_insert_of_listed {front rest : List ModuleInfo} {j : Nat} (h : LeavesNumbers base (front ++ m :: rest))
    (hname : key m.name = key base) (hj : (identitiesUnder base (front ++ m :: rest))[j]? = some m.identity) :
    key ((ofList front).insert m).2 = key (candidate base j) := by
  have hmentioned : (identitiesUnder base (front ++ [m]))[(identitiesUnder base front).idxOf m.identity]? =
      some m.identity := by rw [identitiesUnder_of_eq hname, getElem?_mention, if_pos rfl]
  have hkept : (identitiesUnder base (front ++ m :: rest))[(identitiesUnder base front).idxOf m.identity]? =
      some m.identity := by
    rw [identitiesUnder, List.append_cons, List.filter_append, List.map_append]
    exact getElem?_eraseDups_append hmentioned _
  rw [(holdsNumbers_ofList h.of_append).key_insert hname, eq_of_getElem?_eraseDups hj hkept]

/-- Another name can get the name itself only as one of its own numbered names. -/
theorem leavesNumbers_of_names (h : ∀ m ∈ ms, key m.name ≠ key base → ∀ step,
    key m.name ≠ key (candidate base (step + 1)) ∧ key (candidate m.name (step + 1)) ≠ key base) :
    LeavesNumbers base ms where
  other m hm hname step := (h m hm hname step).1
  own front m rest heq hname := by
    obtain ⟨i, -, -, hi, -⟩ := tries_insert (ofList front) m
    rw [hi]
    cases i with
    | zero => exact hname
    | succ i => exact (h m (heq ▸ List.mem_append_right _ List.mem_cons_self) hname i).2

/-- **Names and their numbers.** A module gets the first name that is free for it, after at most one more try than there
are modules. If it comes again it gets the same name, and takes the place it had. Where a list of modules leaves a name
and its numbers to the modules listed under it, their assemblies get them in the order of their first mention, without
gaps; only a name that is itself a numbered name of another one is not left to its modules. -/
theorem names_and_numbers :
    (∀ (t : ModuleTable) (m : ModuleInfo), ∃ i ≤ t.size,
      Tries t m 0 ((List.range (i + 1)).map (candidate m.name)) ∧ (t.insert m).2 = candidate m.name i ∧
      (t.insert m).1.get? (candidate m.name i) = some { m with name := candidate m.name i } ∧
      t.isAvailable (candidate m.name i) m.identity = true ∧
      ∀ j < i, t.isAvailable (candidate m.name j) m.identity = false) ∧
    (∀ (start between : List ModuleInfo) (m again : ModuleInfo), key again.name = key m.name →
      again.identity = m.identity →
      let t := ofList start
      let u := (t.insert m).1.extend between
      key (u.insert again).2 = key (t.insert m).2 ∧
      ∃ i < u.size, (t.insert m).1.modules[i]? = some { m with name := (t.insert m).2 } ∧
        (u.insert again).1 = ⟨u.modules.set i { again with name := (u.insert again).2 }⟩) ∧
    (∀ (base : String) (ms : List ModuleInfo), LeavesNumbers base ms →
      (∀ front m rest j, ms = front ++ m :: rest → key m.name = key base →
        (identitiesUnder base ms)[j]? = some m.identity →
        key ((ofList front).insert m).2 = key (candidate base j)) ∧
      ∀ j, ((ofList ms).get? (candidate base j)).map ModuleInfo.identity = (identitiesUnder base ms)[j]?) ∧
    ∀ (base : String) (ms : List ModuleInfo), (∀ m ∈ ms, key m.name ≠ key base → ∀ step,
        key m.name ≠ key (candidate base (step + 1)) ∧ key (candidate m.name (step + 1)) ≠ key base) →
      LeavesNumbers base ms := by
  refine ⟨fun t m => ?_, fun start between m again hname hidentity => ?_, fun base ms h => ⟨?_, ?_⟩,
    fun base ms h => ?_⟩
  · obtain ⟨i, hi, htries, hname, hfree, hbefore⟩ := tries_insert t m
    exact ⟨i, hi, htries, hname, by rw [get?_insert, hname, if_pos rfl], hfree, hbefore⟩
  · have ht : Distinct (ofList start) := distinct_ofList start
    have hu : Distinct (((ofList start).insert m).1.extend between) := distinct_extend (distinct_insert ht m) between
    have hkeeps := keeps_extend (distinct_insert ht m) between
    exact ⟨key_insert_again ht hu hkeeps hname hidentity, insert_again ht hu hkeeps hname hidentity⟩
  · rintro front m rest j rfl hname hj
    exact key_insert_of_listed h hname hj
  · exact holdsNumbers_ofList h
  · exact leavesNumbers_of_names h

/-- A module with a name and an identity and nothing else. -/
def bare (name identity : String) : ModuleInfo := ⟨name, identity, identity, none, [], none, identity ++ ".pdb"⟩

/-- Two assemblies with the same name, in different case, of which the first comes again; and another module. -/
def sharedName : List ModuleInfo := [bare "Lib" "Lib 1", bare "App" "App", bare "lib" "Lib 2", bare "LIB" "Lib 1"]

theorem names_and_numbers_sharedName :
    LeavesNumbers "Lib" sharedName ∧
      key ((ofList [bare "Lib" "Lib 1", bare "App" "App"]).insert (bare "lib" "Lib 2")).2 = key (candidate "Lib" 1) ∧
      ((ofList sharedName).get? (candidate "Lib" 1)).map ModuleInfo.identity = some "Lib 2" ∧
      key ((((ofList []).insert (bare "Lib" "Lib 1")).1.extend [bare "App" "App", bare "lib" "Lib 2"]).insert
        (bare "LIB" "Lib 1")).2 = key ((ofList []).insert (bare "Lib" "Lib 1")).2 := by
  have hids : identitiesUnder "Lib" sharedName = ["Lib 1", "Lib 2"] := by decide +kernel
  have hplain : (sharedName.all fun m => !(key m.name).toList.contains '#') = true := by decide +kernel
  have hleaves : LeavesNumbers "Lib" sharedName := by
    refine names_and_numbers.2.2.2 "Lib" sharedName fun m hm _ step => ⟨?_, (?_ : _ ≠ _).symm⟩
    · exact key_ne_candidate_succ (by simpa using List.all_eq_true.1 hplain m hm) "Lib" step
    · exact key_ne_candidate_succ (by decide +kernel) m.name step
  obtain ⟨hlisted, hheld⟩ := names_and_numbers.2.2.1 "Lib" sharedName hleaves
  refine ⟨hleaves, ?_, ?_, ?_⟩
  · have hsecond : (identitiesUnder "Lib" sharedName)[1]? = some (bare "lib" "Lib 2").identity := by
      rw [hids]
      rfl
    exact hlisted [bare "Lib" "Lib 1", bare "App" "App"] _ [bare "LIB" "Lib 1"] 1 rfl (by decide +kernel) hsecond
  · rw [hheld 1, hids]
    rfl
  · exact (names_and_numbers.2.1 [] [bare "App" "App", bare "lib" "Lib 2"] (bare "Lib" "Lib 1") (bare "LIB" "Lib 1")
      (by decide +kernel) rfl).1

/-- The second assembly listed under `X` gets `X#2` if it comes before those listed under this name. -/
def numberedName : List ModuleInfo := [bare "X" "A", bare "X" "B", bare "X#2" "C"]

/-- It is not enough that no other name is one of the numbered names. -/
theorem not_numbered_as_listed : ¬ ∀ (base : String) (ms : List ModuleInfo),
    (∀ m ∈ ms, key m.name ≠ key base → ∀ step, key m.name ≠ key (candidate base (step + 1))) →
    ∀ front m rest j, ms = front ++ m :: rest → key m.name = key base →
      (identitiesUnder base ms)[j]? = some m.identity →
      key ((ofList front).insert m).2 = key (candidate base j) := by
  intro hall
  have hother : ∀ m ∈ numberedName, key m.name ≠ key "X#2" → ∀ step, key m.name ≠ key (candidate "X#2" (step + 1)) := by
    have hplain : (numberedName.all fun m => key m.name == key "X#2" || !(key m.name).toList.contains '#') = true := by
      decide +kernel
    intro m hm hname step
    have hm' := List.all_eq_true.1 hplain m hm
    exact key_ne_candidate_succ (by simpa [hname] using hm') "X#2" step
  have hids : identitiesUnder "X#2" numberedName = ["C"] := by decide +kernel
  have hfirst : (identitiesUnder "X#2" numberedName)[0]? = some (bare "X#2" "C").identity := by
    rw [hids]
    rfl
  have heq := hall "X#2" numberedName hother [bare "X" "A", bare "X" "B"] (bare "X#2" "C") [] 0 rfl rfl hfirst
  have hne : key ((ofList [bare "X" "A", bare "X" "B"]).insert (bare "X#2" "C")).2 ≠ key (candidate "X#2" 0) := by
    decide +kernel
  exact hne heq

end Symbolicate.ModuleTable
