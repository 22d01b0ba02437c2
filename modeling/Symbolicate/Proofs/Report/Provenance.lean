import Mathlib.Tactic.Common
import Symbolicate.Proofs.Report.Annotate
import Symbolicate.Proofs.Report.ModuleTable

/-!
# Where locations come from

Debug information is kept from one frame to the next. Loading may change the state that loads and look-ups depend on, so
what is kept need not be what a load would give later, but it is what a load of that very module gave once
(`GivenBefore`), no later than at the frame that needs it. The location of a frame is what this debug information gives
when it is looked up, in the state that the lines in front of the frame have left (`traced`).
-/

namespace Symbolicate.Translate

variable {σ L : Type} [SourceLookups (StateM σ) L] (load : SymbolLoader (StateM σ) L) (modules : ModuleTable)

/-! ## One line -/

section Step

variable {modules} {p : Progress L} {line : Bytes} {s : σ} {given : ModuleInfo → L → Prop}

/-- A look-up of a frame, run in a state. -/
def lookedUp (lookup : Option L) (frame : StackFrame) (s : σ) : Option SourceLocation × σ :=
  (frameLocation lookup frame : StateM σ _).run s

/-- What a line can do: nothing but be counted, look its frame up in what has been loaded, or load its module and look its
frame up in the answer. -/
inductive LineRun (modules : ModuleTable) (p : Progress L) (line : Bytes) (s : σ) :
    (Progress L × Option SourceLocation) × σ → Prop
  | quiet : LineRun modules p line s ((counted p line, none), s)
  | kept {frame : StackFrame} {info : ModuleInfo} {entry : String × Option L}
      (hframe : frameOf? modules line = some (frame, info)) (hid : info.debugId.isSome = true)
      (hfind : p.loaded.find? (·.1 == info.name) = some entry) :
      LineRun modules p line s
        (((counted p line).locating (lookedUp entry.2 frame s).1, (lookedUp entry.2 frame s).1),
          (lookedUp entry.2 frame s).2)
  | new {frame : StackFrame} {info : ModuleInfo} {answer : LoadAnswer L} {u : σ}
      (hframe : frameOf? modules line = some (frame, info)) (hid : info.debugId.isSome = true)
      (hload : (load info).run s = (answer, u)) :
      LineRun modules p line s
        ((((counted p line).loading info answer).locating (lookedUp (lookupIn answer) frame u).1,
          (lookedUp (lookupIn answer) frame u).1), (lookedUp (lookupIn answer) frame u).2)

/-- A line does one of these. -/
theorem lineRun_annotateLine (p : Progress L) (line : Bytes) (s : σ) :
    LineRun load modules p line s ((annotateLine load modules p line).run s) := by
  by_cases hquiet : ∀ frame info, frameOf? modules line = some (frame, info) → info.debugId.isNone = true
  · rw [annotateLine_of_quiet load hquiet]
    exact .quiet
  · simp only [not_forall] at hquiet
    obtain ⟨frame, info, hframe, hid⟩ := hquiet
    rw [Bool.not_eq_true] at hid
    have hsome := Option.isNone_eq_false_iff.1 hid
    cases hfind : p.loaded.find? (·.1 == info.name) with
    | some entry =>
      rw [annotateLine_of_loaded load hframe hid hfind]
      exact .kept hframe hsome hfind
    | none =>
      rw [annotateLine_of_new load hframe hid hfind]
      exact .new hframe hsome rfl

/-- Debug information that has been kept was given for the module with its name. -/
def Kept (modules : ModuleTable) (given : ModuleInfo → L → Prop) (loaded : List (String × Option L)) : Prop :=
  ∀ name lookup, (name, some lookup) ∈ loaded → ∃ info ∈ modules.modules, info.name = name ∧ given info lookup

theorem Kept.mono {given' : ModuleInfo → L → Prop} (h : Kept modules given p.loaded)
    (hgiven : ∀ info lookup, given info lookup → given' info lookup) : Kept modules given' p.loaded := by
  intro name lookup hmem
  obtain ⟨info, hinfo, hname, hold⟩ := h name lookup hmem
  exact ⟨info, hinfo, hname, hgiven info lookup hold⟩

theorem Kept.append (h : Kept modules given p.loaded) {info : ModuleInfo} (hinfo : info ∈ modules.modules)
    {answer : Option L} (hanswer : ∀ lookup, answer = some lookup → given info lookup) :
    Kept modules given (p.loaded ++ [(info.name, answer)]) := by
  intro name lookup hmem
  rcases List.mem_append.1 hmem with hold | hnew
  · exact h name lookup hold
  · cases List.mem_singleton.1 hnew
    exact ⟨info, hinfo, rfl, hanswer lookup rfl⟩

/-- What is kept under the name of a module was given for it, since names are distinct. -/
theorem Kept.given_of_find? (h : Kept modules given p.loaded) (hnames : modules.Distinct) {info : ModuleInfo}
    (hinfo : info ∈ modules.modules) {entry : String × Option L}
    (hfind : p.loaded.find? (·.1 == info.name) = some entry) {lookup : L} (hlookup : entry.2 = some lookup) :
    given info lookup := by
  have hname : entry.1 = info.name := by simpa using List.find?_some hfind
  obtain ⟨other, hother, heq, hgiven⟩ := h entry.1 lookup (hlookup ▸ List.mem_of_find?_eq_some hfind)
  rwa [ModuleTable.eq_of_name_eq hnames hother hinfo (heq.trans hname)] at hgiven

/-- A module is loaded in the state `s`, and its debug information is looked at once. -/
structure LoadedAt (info : ModuleInfo) (lookup : L) (s s' : σ) : Prop where
  answer : ((load info).run s).1 = .ok (some lookup)
  looked : ∃ frame, s' = (lookedUp (some lookup) frame ((load info).run s).2).2

/-- The location of a line is found in what was given for the module of its frame. -/
theorem LineRun.exists_given {result : (Progress L × Option SourceLocation) × σ}
    (h : LineRun load modules p line s result) (hnames : modules.Distinct) (hkept : Kept modules given p.loaded)
    (hload : ∀ info lookup, LoadedAt load info lookup s result.2 → given info lookup) :
    Kept modules given result.1.1.loaded ∧
      ∀ location, result.1.2 = some location →
        ∃ frame info lookup u, frameOf? modules line = some (frame, info) ∧ info.debugId.isSome = true ∧
          given info lookup ∧ lookedUp (some lookup) frame u = (some location, result.2) := by
  have hcounted : (counted p line).loaded = p.loaded := by rw [counted_eq]
  cases h with
  | quiet => exact ⟨hcounted ▸ hkept, nofun⟩
  | @kept frame info entry hframe hid hfind =>
    refine ⟨show Kept modules given (counted p line).loaded from hcounted ▸ hkept, fun location hlocation => ?_⟩
    cases hlookup : entry.2 with
    | none => rw [hlookup] at hlocation; cases hlocation
    | some lookup =>
      rw [hlookup] at hlocation
      exact ⟨frame, info, lookup, s, hframe, hid,
        hkept.given_of_find? hnames (mem_of_frameOf? hframe) hfind hlookup, Prod.ext hlocation rfl⟩
  | @new frame info answer u hframe hid hrun =>
    have hgiven : ∀ lookup, lookupIn answer = some lookup → given info lookup := by
      intro lookup hlookup
      cases answer with
      | error e => cases hlookup
      | ok found =>
        obtain rfl : found = some lookup := hlookup
        exact hload info lookup ⟨by rw [hrun], frame, by rw [hrun]; rfl⟩
    refine ⟨?_, fun location hlocation => ?_⟩
    · show Kept modules given ((counted p line).loaded ++ [(info.name, lookupIn answer)])
      rw [hcounted]
      exact hkept.append (mem_of_frameOf? hframe) hgiven
    · cases hlookup : lookupIn answer with
      | none => rw [hlookup] at hlocation; cases hlocation
      | some lookup =>
        rw [hlookup] at hlocation
        exact ⟨frame, info, lookup, u, hframe, hid, hgiven lookup hlookup, Prod.ext hlocation rfl⟩

/-- A line leaves the state as it is, apart from a load and from a look-up behind it. -/
theorem LineRun.exists_state {result : (Progress L × Option SourceLocation) × σ}
    (h : LineRun load modules p line s result) :
    ∃ u, (u = s ∨ ∃ info, u = ((load info).run s).2) ∧
      (result.2 = u ∨ ∃ (lookup : Option L) (frame : StackFrame), result.2 = (lookedUp lookup frame u).2) := by
  cases h with
  | quiet => exact ⟨s, .inl rfl, .inl rfl⟩
  | @kept frame _ entry => exact ⟨s, .inl rfl, .inr ⟨entry.2, frame, rfl⟩⟩
  | @new frame info answer u _ _ hload => exact ⟨u, .inr ⟨info, by rw [hload]⟩, .inr ⟨lookupIn answer, frame, rfl⟩⟩

end Step

/-! ## All lines -/

variable (lines : List Bytes) (s : σ)

/-- The state after the first lines. -/
def stateAfter (k : Nat) : σ := ((writeLines load modules (lines.take k) (start .unlimited)).run s).2

/-- What is known after the first lines, and the state then. -/
def runAfter (k : Nat) : (Progress L × List (Option SourceLocation)) × σ :=
  (annotate load modules (lines.take k) (start .unlimited)).run s

theorem stateAfter_eq (k : Nat) : stateAfter load modules lines s k = (runAfter load modules lines s k).2 := by
  have hwrite := writeLines_eq load modules (start .unlimited) .unlimited (lines.take k) rfl
  rw [stateAfter, show (start .unlimited : Progress L) = (start .unlimited).withSink .unlimited from rfl, hwrite]
  rfl

theorem annotate_concat (line : Bytes) (p : Progress L) :
    annotate load modules (lines ++ [line]) p = do
      let (p, locations) ← annotate load modules lines p
      let (p, location) ← annotateLine load modules p line
      return (p, locations ++ [location]) := by
  induction lines generalizing p with
  | nil => simp [annotate]
  | cons first rest ih => simp [annotate, ih]

/-- **One more line** is annotated where the others have ended. -/
theorem runAfter_succ {k : Nat} {line : Bytes} (h : lines[k]? = some line) :
    runAfter load modules lines s (k + 1) =
      let before := runAfter load modules lines s k
      let r := (annotateLine load modules before.1.1 line).run before.2
      ((r.1.1, before.1.2 ++ [r.1.2]), r.2) := by
  rw [runAfter, List.take_add_one, h, Option.toList_some, annotate_concat]
  rfl

theorem exists_stateAfter_succ (k : Nat) :
    ∃ u, (u = stateAfter load modules lines s k ∨
        ∃ info, u = ((load info).run (stateAfter load modules lines s k)).2) ∧
      (stateAfter load modules lines s (k + 1) = u ∨
        ∃ (lookup : Option L) (frame : StackFrame),
          stateAfter load modules lines s (k + 1) = (lookedUp lookup frame u).2) := by
  cases hline : lines[k]? with
  | none =>
    have hall : lines.take (k + 1) = lines.take k := by
      rw [List.take_add_one, hline, Option.toList_none, List.append_nil]
    exact ⟨_, .inl rfl, .inl (by rw [stateAfter, hall, stateAfter])⟩
  | some line =>
    rw [stateAfter_eq, stateAfter_eq, runAfter_succ load modules lines s hline]
    exact (lineRun_annotateLine load _ line _).exists_state

/-- The debug information was given when the module was loaded, at one of the first `n` lines. -/
def GivenBefore (n : Nat) (info : ModuleInfo) (lookup : L) : Prop :=
  ∃ k < n, LoadedAt load info lookup (stateAfter load modules lines s k) (stateAfter load modules lines s (k + 1))

/-- The location of line `i` is what the debug information that was given for the module of its frame says when the line
is reached. -/
def ComesFromLoad (i : Nat) (location : SourceLocation) : Prop :=
  ∃ line frame info lookup u, lines[i]? = some line ∧ frameOf? modules line = some (frame, info) ∧
    info.debugId.isSome = true ∧ GivenBefore load modules lines s (i + 1) info lookup ∧
    lookedUp (some lookup) frame u = (some location, stateAfter load modules lines s (i + 1))

/-- What holds after the first `n` lines: each of them has been looked up, and what is kept and what has been found was
given by loads at these lines. -/
structure Traced (n : Nat) : Prop where
  length : (runAfter load modules lines s n).1.2.length = n
  kept : Kept modules (GivenBefore load modules lines s n) (runAfter load modules lines s n).1.1.loaded
  found : ∀ i location, (runAfter load modules lines s n).1.2[i]? = some (some location) →
    ComesFromLoad load modules lines s i location

section Steps

variable {load modules lines s}

theorem GivenBefore.succ {n : Nat} {info : ModuleInfo} {lookup : L}
    (h : GivenBefore load modules lines s n info lookup) : GivenBefore load modules lines s (n + 1) info lookup := by
  obtain ⟨k, hk, hloaded⟩ := h
  exact ⟨k, Nat.lt_succ_of_lt hk, hloaded⟩

theorem traced_zero : Traced load modules lines s 0 :=
  ⟨rfl, fun _ _ h => absurd h List.not_mem_nil, nofun⟩

/-- **One more line** is looked up in what was given before or at this line. -/
theorem Traced.succ (hnames : modules.Distinct) {n : Nat} {line : Bytes} (hline : lines[n]? = some line)
    (h : Traced load modules lines s n) : Traced load modules lines s (n + 1) := by
  have hrun := runAfter_succ load modules lines s hline
  have hstate : stateAfter load modules lines s (n + 1) =
      ((annotateLine load modules (runAfter load modules lines s n).1.1 line).run
        (runAfter load modules lines s n).2).2 := by rw [stateAfter_eq, hrun]
  have hlast : LineRun load modules _ line _ _ :=
    lineRun_annotateLine load (runAfter load modules lines s n).1.1 line (runAfter load modules lines s n).2
  have hbefore := h.kept.mono fun _ _ hgiven => hgiven.succ
  -- what is loaded at this line is loaded in the state after the others
  obtain ⟨hkept, hfound⟩ := hlast.exists_given load hnames hbefore fun info lookup hloaded =>
    ⟨n, Nat.lt_succ_self n, by rw [hstate, stateAfter_eq]; exact hloaded⟩
  refine ⟨by rw [hrun, List.length_append, h.length, List.length_singleton], by rw [hrun]; exact hkept,
    fun i location hlocation => ?_⟩
  rw [hrun] at hlocation
  by_cases hi : i < n
  · rw [List.getElem?_append_left (by rwa [h.length])] at hlocation
    exact h.found i location hlocation
  · have hlength := (List.getElem?_eq_some_iff.1 hlocation).1
    rw [List.length_append, h.length, List.length_singleton] at hlength
    obtain rfl : i = n := by omega
    rw [List.getElem?_append_right (by rw [h.length]), h.length, Nat.sub_self, List.getElem?_cons_zero,
      Option.some.injEq] at hlocation
    obtain ⟨frame, info, lookup, u, hframe, hid, hgiven, hlooked⟩ := hfound location hlocation
    exact ⟨line, frame, info, lookup, u, hline, hframe, hid, hgiven, by rw [hstate]; exact hlooked⟩

/-- **Every location comes from a load of the module of its frame**, at that line or before, and is what is found there
now. -/
theorem traced (hnames : modules.Distinct) {n : Nat} (hn : n ≤ lines.length) : Traced load modules lines s n := by
  induction n with
  | zero => exact traced_zero
  | succ n ih => exact (ih (by omega)).succ hnames (List.getElem?_eq_getElem hn)

end Steps

/-! ## Reports -/

section Reports

variable (input : Bytes)

/-- The source locations that a translation finds for the body lines of a report. -/
def foundLocations : List (Option SourceLocation) :=
  ((annotate load (footerModules input) (bodyLines input) (start .unlimited)).run s).1.2

/-- A report is written with the locations that are found. -/
theorem exists_run_translate : ∃ stats, ((translate load ⟨input, none⟩ .unlimited).run s).1 =
    (⟨render (footerModules input) (bodyLines input) (foundLocations load s input), none, false⟩, .ok stats) := by
  rw [Sink.unlimited, translate_eq_annotate]
  exact ⟨_, rfl⟩

theorem runAfter_length :
    (runAfter load (footerModules input) (bodyLines input) s (bodyLines input).length).1.2 =
      foundLocations load s input := by
  rw [runAfter, List.take_length, foundLocations]

theorem length_foundLocations : (foundLocations load s input).length = (bodyLines input).length := by
  rw [← runAfter_length]
  exact (traced (ModuleTable.distinct_ofList _) (Nat.le_refl _)).length

/-- Where a location of a report comes from. -/
theorem comesFromLoad_of_foundLocations {i : Nat} {location : SourceLocation}
    (h : (foundLocations load s input)[i]? = some (some location)) :
    ComesFromLoad load (footerModules input) (bodyLines input) s i location := by
  rw [← runAfter_length] at h
  exact (traced (ModuleTable.distinct_ofList _) (Nat.le_refl _)).found i location h

end Reports

end Symbolicate.Translate
