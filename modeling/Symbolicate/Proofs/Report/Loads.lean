import Mathlib.Data.Option.Basic
import Mathlib.Tactic.Common
import Symbolicate.Proofs.Report.Reference
import Symbolicate.Proofs.Report.Registration

/-!
# Which modules are loaded

A body needs the debug information of certain modules (`needed`): those with a debug identity that a frame refers to,
each at the first such frame (`mem_needed`, `pairwise_needed`). Annotating the body loads exactly these, in this order,
whatever loads and look-ups do besides (`annotate_noting`). When look-ups do nothing besides, all else is a function of
the answers (`annotate_eq_mapM`), and this equation says which loads there are in whatever way they are observed.
-/

namespace Symbolicate

/-! ## Modules that are needed -/

/-- Whether a line is a frame of a module with this name, in any case. -/
def refersTo (line : Bytes) (info : ModuleInfo) : Bool :=
  (StackFrame.parse? line).any fun frame => ModuleTable.key frame.moduleName == ModuleTable.key info.name

/-- The module whose debug information a line needs. -/
def wanted? (modules : ModuleTable) (line : Bytes) : Option ModuleInfo :=
  ((frameOf? modules line).map (·.2)).filter (·.debugId.isSome)

/-- The modules whose debug information lines need, each where it is first needed, apart from those with names that have
been asked for. -/
def needed (modules : ModuleTable) : List String → List Bytes → List ModuleInfo
  | _, [] => []
  | asked, line :: rest =>
    match wanted? modules line with
    | none => needed modules asked rest
    | some info =>
      if info.name ∈ asked then needed modules asked rest
      else info :: needed modules (asked ++ [info.name]) rest

section Needed

variable {modules : ModuleTable} {line : Bytes} {info : ModuleInfo}

theorem wanted?_of_frameOf? {frame : StackFrame} (h : frameOf? modules line = some (frame, info)) :
    wanted? modules line = if info.debugId.isSome then some info else none := by
  simp only [wanted?, h, Option.map_some, Option.filter_some]

theorem exists_frame_of_wanted? (h : wanted? modules line = some info) :
    ∃ frame, frameOf? modules line = some (frame, info) ∧ info.debugId.isNone = false := by
  obtain ⟨hmap, hid⟩ := Option.filter_eq_some_iff.1 h
  obtain ⟨⟨frame, _⟩, hframe, rfl⟩ := Option.map_eq_some_iff.1 hmap
  exact ⟨frame, hframe, Option.isNone_eq_false_iff.2 hid⟩

theorem isNone_of_wanted?_eq_none {frame : StackFrame} (h : wanted? modules line = none)
    (hframe : frameOf? modules line = some (frame, info)) : info.debugId.isNone = true := by
  rw [wanted?_of_frameOf? hframe] at h
  cases hid : info.debugId with
  | none => rfl
  | some id => rw [hid] at h; cases h

/-- A line needs the modules of the table that have a debug identity and that it refers to. -/
theorem wanted?_eq_some_iff (hnames : modules.Distinct) : wanted? modules line = some info ↔
    info ∈ modules.modules ∧ info.debugId.isSome = true ∧ refersTo line info = true := by
  cases hframe : StackFrame.parse? line with
  | none => simp [wanted?, frameOf?, refersTo, hframe]
  | some frame =>
    have hget : wanted? modules line = some info ↔
        modules.get? frame.moduleName = some info ∧ info.debugId.isSome = true := by
      cases hinfo : modules.get? frame.moduleName <;> simp [wanted?, frameOf?, hframe, hinfo]
    rw [hget, ModuleTable.get?_eq_some_iff hnames]
    simp only [refersTo, hframe, Option.any_some, beq_iff_eq]
    tauto

theorem mem_of_mem_needed {asked : List String} {lines : List Bytes} (h : info ∈ needed modules asked lines) :
    info.name ∉ asked ∧ ∃ line ∈ lines, wanted? modules line = some info := by
  induction lines generalizing asked with
  | nil => cases h
  | cons line rest ih =>
    have hrest : ∀ {asked'}, info ∈ needed modules asked' rest →
        info.name ∉ asked' ∧ ∃ l ∈ line :: rest, wanted? modules l = some info := by
      intro asked' hmem
      obtain ⟨hnot, l, hl, hwanted⟩ := ih hmem
      exact ⟨hnot, l, List.mem_cons_of_mem _ hl, hwanted⟩
    rw [needed] at h
    cases hwanted : wanted? modules line with
    | none => rw [hwanted] at h; exact hrest h
    | some first =>
      simp only [hwanted] at h
      by_cases hasked : first.name ∈ asked
      · rw [if_pos hasked] at h
        exact hrest h
      · rw [if_neg hasked] at h
        rcases List.mem_cons.1 h with rfl | h
        · exact ⟨hasked, line, List.mem_cons_self, hwanted⟩
        · obtain ⟨hnot, hmem⟩ := hrest h
          exact ⟨fun hin => hnot (List.mem_append_left _ hin), hmem⟩

/-- **The modules that are needed** are those of the table that have a debug identity and that a line refers to, unless
they have been asked for. -/
theorem mem_needed (hnames : modules.Distinct) {asked : List String} {lines : List Bytes} :
    info ∈ needed modules asked lines ↔ info.name ∉ asked ∧ ∃ line ∈ lines, wanted? modules line = some info := by
  refine ⟨mem_of_mem_needed, ?_⟩
  rintro ⟨hnot, l, hl, hwanted⟩
  induction lines generalizing asked with
  | nil => cases hl
  | cons line rest ih =>
    rw [needed]
    rcases List.mem_cons.1 hl with rfl | hl
    · simp only [hwanted, if_neg hnot, List.mem_cons, true_or]
    · cases hfirst : wanted? modules line with
      | none => exact ih hnot hl
      | some first =>
        simp only
        by_cases hasked : first.name ∈ asked
        · rw [if_pos hasked]
          exact ih hnot hl
        · rw [if_neg hasked, List.mem_cons]
          by_cases hname : info.name = first.name
          · exact .inl (ModuleTable.eq_of_name_eq hnames ((wanted?_eq_some_iff hnames).1 hwanted).1
              ((wanted?_eq_some_iff hnames).1 hfirst).1 hname)
          · refine .inr (ih ?_ hl)
            rw [List.mem_append, List.mem_singleton, not_or]
            exact ⟨hnot, hname⟩

/-- **The order in which modules are needed** is that of the first frames that refer to them, so none is needed twice. -/
theorem pairwise_needed (hnames : modules.Distinct) (asked : List String) (lines : List Bytes) :
    (needed modules asked lines).Pairwise fun a b => lines.findIdx (refersTo · a) < lines.findIdx (refersTo · b) := by
  induction lines generalizing asked with
  | nil => exact .nil
  | cons line rest ih =>
    -- a module that is needed behind the first line and not wanted there has its first frame behind that line
    have hlater : ∀ {asked' a}, a ∈ needed modules asked' rest → wanted? modules line ≠ some a →
        (line :: rest).findIdx (refersTo · a) = rest.findIdx (refersTo · a) + 1 := by
      intro asked' a ha hne
      obtain ⟨-, l, -, hl⟩ := mem_of_mem_needed ha
      obtain ⟨hmem, hid, -⟩ := (wanted?_eq_some_iff hnames).1 hl
      have hrefers : refersTo line a = false := by
        rw [← Bool.not_eq_true]
        exact fun h => hne ((wanted?_eq_some_iff hnames).2 ⟨hmem, hid, h⟩)
      rw [List.findIdx_cons, hrefers, cond_false]
    have hshift : ∀ {asked'}, (∀ a ∈ needed modules asked' rest, wanted? modules line ≠ some a) →
        (needed modules asked' rest).Pairwise fun a b =>
          (line :: rest).findIdx (refersTo · a) < (line :: rest).findIdx (refersTo · b) := by
      intro asked' hne
      refine (ih asked').imp_of_mem fun {a b} ha hb hlt => ?_
      rw [hlater ha (hne a ha), hlater hb (hne b hb)]
      exact Nat.succ_lt_succ hlt
    rw [needed]
    cases hwanted : wanted? modules line with
    | none => exact hshift fun a _ h => by rw [hwanted] at h; cases h
    | some first =>
      simp only
      by_cases hasked : first.name ∈ asked
      · rw [if_pos hasked]
        refine hshift fun a ha h => ?_
        cases hwanted.symm.trans h
        exact (mem_of_mem_needed ha).1 hasked
      · rw [if_neg hasked, List.pairwise_cons]
        have hne : ∀ a ∈ needed modules (asked ++ [first.name]) rest, wanted? modules line ≠ some a := by
          intro a ha h
          cases hwanted.symm.trans h
          exact (mem_of_mem_needed ha).1 (List.mem_append_right _ (List.mem_singleton.2 rfl))
        refine ⟨fun b hb => ?_, hshift hne⟩
        have hrefers := ((wanted?_eq_some_iff hnames).1 hwanted).2.2
        rw [hlater hb (hne b hb), List.findIdx_cons, hrefers, cond_true]
        exact Nat.succ_pos _

theorem nodup_needed (hnames : modules.Distinct) (asked : List String) (lines : List Bytes) :
    (needed modules asked lines).Nodup := by
  refine (pairwise_needed hnames asked lines).imp fun hlt heq => ?_
  rw [heq] at hlt
  exact Nat.lt_irrefl _ hlt

theorem mem_modules_of_mem_needed (hnames : modules.Distinct) {asked : List String} {lines : List Bytes}
    (h : info ∈ needed modules asked lines) : info ∈ modules.modules := by
  obtain ⟨-, line, -, hline⟩ := mem_of_mem_needed h
  exact ((wanted?_eq_some_iff hnames).1 hline).1

/-- Lines need the modules that have a debug identity and that they refer to. -/
theorem mem_needed_nil (hnames : modules.Distinct) {lines : List Bytes} : info ∈ needed modules [] lines ↔
    info ∈ modules.modules ∧ info.debugId.isSome = true ∧ ∃ line ∈ lines, refersTo line info = true := by
  rw [mem_needed hnames]
  simp only [wanted?_eq_some_iff hnames, List.not_mem_nil, not_false_eq_true, true_and]
  constructor
  · rintro ⟨line, hline, hmem, hid, hrefers⟩
    exact ⟨hmem, hid, line, hline, hrefers⟩
  · rintro ⟨hmem, hid, line, hline, hrefers⟩
    exact ⟨line, hline, hmem, hid, hrefers⟩

end Needed

/-! ## What the answers decide -/

/-- Modules that were loaded, with the answers, in order. -/
abbrev LoadLog (L : Type := SourceLookup) := List (ModuleInfo × LoadAnswer L)

section Answered

variable {L : Type}

/-- What is kept of answers. -/
def kept (given : LoadLog L) : List (String × Option L) :=
  given.map fun g => (g.1.name, lookupIn g.2)

/-- The frame on a line and the debug information for it, by what is kept. -/
def available? (modules : ModuleTable) (loaded : List (String × Option L)) (line : Bytes) : Option (StackFrame × L) :=
  (frameOf? modules line).bind fun found =>
    if found.2.debugId.isNone then none
    else ((loaded.find? (·.1 == found.2.name)).bind (·.2)).map fun lookup => (found.1, lookup)

variable {modules : ModuleTable} {line : Bytes} {info : ModuleInfo} {loaded : List (String × Option L)}

theorem available?_of_wanted?_eq_none (h : wanted? modules line = none) : available? modules loaded line = none := by
  cases hframe : frameOf? modules line with
  | none => rw [available?, hframe, Option.bind_none]
  | some found => rw [available?, hframe, Option.bind_some, if_pos (isNone_of_wanted?_eq_none h hframe)]

theorem available?_of_frameOf? {frame : StackFrame} (hframe : frameOf? modules line = some (frame, info))
    (hid : info.debugId.isNone = false) : available? modules loaded line =
      ((loaded.find? (·.1 == info.name)).bind (·.2)).map fun lookup => (frame, lookup) := by
  rw [available?, hframe, Option.bind_some, hid, if_neg Bool.false_ne_true]

theorem exists_find?_of_asked (h : info.name ∈ loaded.map (·.1)) :
    ∃ entry, loaded.find? (·.1 == info.name) = some entry := by
  obtain ⟨entry, hentry, hname⟩ := List.mem_map.1 h
  exact Option.isSome_iff_exists.1 (List.find?_isSome.2 ⟨entry, hentry, by simpa using hname⟩)

theorem find?_of_notMem (h : info.name ∉ loaded.map (·.1)) : loaded.find? (·.1 == info.name) = none := by
  rw [List.find?_eq_none]
  intro entry hentry hname
  exact h (List.mem_map.2 ⟨entry, hentry, by simpa using hname⟩)

/-- The module that a line needs has been asked for, if there is one. -/
def IsAsked (modules : ModuleTable) (loaded : List (String × Option L)) (line : Bytes) : Prop :=
  ∀ info, wanted? modules line = some info → info.name ∈ loaded.map (·.1)

theorem isAsked_kept (hwanted : wanted? modules line = some info) (answer : LoadAnswer L) :
    IsAsked modules (loaded ++ kept [(info, answer)]) line := by
  intro other hother
  cases hwanted.symm.trans hother
  simp [kept]

/-- More answers do not change what is available for a line whose module has been asked for. -/
theorem available?_append (h : IsAsked modules loaded line) (more : List (String × Option L)) :
    available? modules (loaded ++ more) line = available? modules loaded line := by
  cases hwanted : wanted? modules line with
  | none => rw [available?_of_wanted?_eq_none hwanted, available?_of_wanted?_eq_none hwanted]
  | some info =>
    obtain ⟨frame, hframe, hid⟩ := exists_frame_of_wanted? hwanted
    obtain ⟨entry, hfind⟩ := exists_find?_of_asked (h info hwanted)
    rw [available?_of_frameOf? hframe hid, available?_of_frameOf? hframe hid, List.find?_append, hfind, Option.some_or]

/-- How far an annotation has come when lines have got their locations and modules their answers. -/
def Progress.afterLines (p : Progress L) (lines : List Bytes) (given : LoadLog L)
    (locations : List (Option SourceLocation)) : Progress L where
  stats := {
    lines := p.stats.lines + lines.length
    frames := p.stats.frames + lines.countP fun line => (StackFrame.parse? line).isSome
    resolved := p.stats.resolved + locations.countP (·.isSome)
    errors := p.stats.errors ++ given.filterMap failure? }
  loaded := p.loaded ++ kept given
  sink := p.sink

/-- One line and the others are all lines. -/
theorem Progress.afterLines_cons (p : Progress L) (first : LoadLog L)
    (location : Option SourceLocation) (lines : List Bytes) (more : LoadLog L)
    (locations : List (Option SourceLocation)) :
    (p.afterLines [line] first [location]).afterLines lines more locations =
      p.afterLines (line :: lines) (first ++ more) (location :: locations) := by
  simp only [afterLines, kept, List.countP_cons, List.countP_nil, List.length_cons, List.length_nil, List.map_append,
    List.filterMap_append, List.append_assoc, Nat.zero_add, Nat.add_assoc, Nat.add_comm, Nat.add_left_comm]

end Answered

/-- The location of a line by what is kept, where that is known. -/
def locationIn (modules : ModuleTable) (loaded : List (String × Option SourceLookup)) (line : Bytes) :
    Option SourceLocation :=
  (available? modules loaded line).bind fun found => found.2 found.1.token found.1.offset

namespace Translate

/-! ## One line -/

section Line

variable {m : Type → Type} [Monad m] {L : Type} [SourceLookups m L]

/-- Looks a frame up in the debug information for it. -/
def locationOf : Option (StackFrame × L) → m (Option SourceLocation)
  | none => pure none
  | some (frame, lookup) => SourceLookups.sourceLocation lookup frame.token frame.offset

theorem frameLocation_eq (lookup : Option L) (frame : StackFrame) :
    (frameLocation lookup frame : m _) = locationOf (lookup.map fun lookup => (frame, lookup)) := by
  cases lookup <;> rfl

variable [LawfulMonad m] (load : SymbolLoader m L) {modules : ModuleTable} {p : Progress L} {line : Bytes}
  {info : ModuleInfo}

/-- A line that needs no module, or one that has been asked for, is looked up in what is kept. -/
theorem annotateLine_of_asked (h : IsAsked modules p.loaded line) :
    annotateLine load modules p line =
      (fun location => (p.afterLines [line] [] [location], location)) <$>
        locationOf (available? modules p.loaded line) := by
  cases hwanted : wanted? modules line with
  | none =>
    rw [annotateLine_of_quiet load fun frame info => isNone_of_wanted?_eq_none hwanted,
      available?_of_wanted?_eq_none hwanted, locationOf, map_pure, counted_eq]
    simp [Progress.afterLines, kept, List.countP_cons]
  | some info =>
    obtain ⟨frame, hframe, hid⟩ := exists_frame_of_wanted? hwanted
    obtain ⟨entry, hfind⟩ := exists_find?_of_asked (h info hwanted)
    rw [annotateLine_of_loaded load hframe hid hfind, available?_of_frameOf? hframe hid, hfind, Option.bind_some,
      frameLocation_eq]
    refine congrArg (· <$> _) (funext fun location => ?_)
    simp [counted_eq, Progress.locating, Progress.afterLines, kept, List.countP_cons]

/-- The first line that needs a module loads it, and is looked up in the answer. -/
theorem annotateLine_of_notMem (hwanted : wanted? modules line = some info) (h : info.name ∉ p.loaded.map (·.1)) :
    annotateLine load modules p line = load info >>= fun answer =>
      (fun location => (p.afterLines [line] [(info, answer)] [location], location)) <$>
        locationOf (available? modules (p.loaded ++ kept [(info, answer)]) line) := by
  obtain ⟨frame, hframe, hid⟩ := exists_frame_of_wanted? hwanted
  have hfind := find?_of_notMem h
  rw [annotateLine_of_new load hframe hid hfind]
  refine bind_congr fun answer => ?_
  have hkept : (p.loaded ++ kept [(info, answer)]).find? (·.1 == info.name) = some (info.name, lookupIn answer) := by
    simp [kept, hfind]
  rw [available?_of_frameOf? hframe hid, hkept, Option.bind_some, frameLocation_eq]
  refine congrArg (· <$> _) (funext fun location => ?_)
  simp [counted_eq, Progress.locating, Progress.loading, Progress.afterLines, kept, List.countP_cons]

end Line

/-! ## Loads as they are made -/

section Noted

variable {σ L : Type}

/-- Notes every load and its answer. -/
def noting (load : SymbolLoader (StateM σ) L) : SymbolLoader (StateM (σ × LoadLog L)) L := fun info s =>
  let (answer, t) := load info s.1
  (answer, t, s.2 ++ [(info, answer)])

variable [SourceLookups (StateM σ) L]

/-- Look-ups are not noted. -/
instance : SourceLookups (StateM (σ × LoadLog L)) L where
  sourceLocation lookup token offset s :=
    let (location, t) := (SourceLookups.sourceLocation lookup token offset : StateM σ _) s.1
    (location, t, s.2)

variable (load : SymbolLoader (StateM σ) L) (modules : ModuleTable) (p : Progress L) (s : σ) (log : LoadLog L)

theorem run_locationOf_noting (found : Option (StackFrame × L)) :
    (locationOf found : StateM (σ × LoadLog L) _).run (s, log) =
      (((locationOf found : StateM σ _).run s).1, ((locationOf found : StateM σ _).run s).2, log) := by
  cases found <;> rfl

theorem run_locationOf_eq_none {found : Option (StackFrame × L)} (h : found = none) :
    ((locationOf found : StateM σ _).run s).1 = none := by
  rw [h]
  rfl

/-- What a line does: it loads its module if that has not been asked for, and the module has its answer then. -/
theorem annotateLine_noting (line : Bytes) : ∃ first location t,
    (annotateLine load modules p line).run s = ((p.afterLines [line] first [location], location), t) ∧
    (annotateLine (noting load) modules p line).run (s, log) =
      ((p.afterLines [line] first [location], location), t, log ++ first) ∧
    IsAsked modules (p.loaded ++ kept first) line ∧
    (available? modules (p.loaded ++ kept first) line = none → location = none) ∧
    ∀ rest, needed modules (p.loaded.map (·.1)) (line :: rest) =
      first.map (·.1) ++ needed modules ((p.loaded ++ kept first).map (·.1)) rest := by
  by_cases hasked : IsAsked modules p.loaded line
  · have hkept : p.loaded ++ kept [] = p.loaded := List.append_nil _
    rw [annotateLine_of_asked load hasked, annotateLine_of_asked (noting load) hasked]
    refine ⟨[], _, _, rfl, ?_, by rwa [hkept], fun h => run_locationOf_eq_none s (hkept ▸ h), fun rest => ?_⟩
    · rw [List.append_nil]
      exact congrArg (fun r => ((p.afterLines [line] [] [r.1], r.1), r.2)) (run_locationOf_noting s log _)
    · rw [hkept, List.map_nil, List.nil_append, needed]
      cases hwanted : wanted? modules line with
      | none => rfl
      | some info => simp only [if_pos (hasked info hwanted)]
  · obtain ⟨info, hwanted, hnot⟩ : ∃ info, wanted? modules line = some info ∧ info.name ∉ p.loaded.map (·.1) := by
      simpa [IsAsked] using hasked
    rw [annotateLine_of_notMem load hwanted hnot, annotateLine_of_notMem (noting load) hwanted hnot]
    refine ⟨[(info, (load info s).1)], _, _, rfl, ?_, isAsked_kept hwanted _, run_locationOf_eq_none _, fun rest => ?_⟩
    · exact congrArg (fun r => ((p.afterLines [line] [(info, (load info s).1)] [r.1], r.1), r.2))
        (run_locationOf_noting (load info s).2 (log ++ [(info, (load info s).1)]) _)
    · simp [needed, hwanted, if_neg hnot, kept]

/-- **Lines load what they need, in order, and nothing else**, whatever a load and a look-up do besides. A line for which
the answers have no debug information has no location. -/
theorem annotate_noting (lines : List Bytes) : ∃ more locations t,
    (annotate load modules lines p).run s = ((p.afterLines lines more locations, locations), t) ∧
    (annotate (noting load) modules lines p).run (s, log) =
      ((p.afterLines lines more locations, locations), t, log ++ more) ∧
    more.map (·.1) = needed modules (p.loaded.map (·.1)) lines ∧
    List.Forall₂ (fun line location => available? modules (p.loaded ++ kept more) line = none → location = none)
      lines locations := by
  induction lines generalizing p s log with
  | nil =>
    have hp : p.afterLines [] [] [] = p := by simp [Progress.afterLines, kept]
    refine ⟨[], [], s, ?_, ?_, rfl, .nil⟩
    · rw [hp]
      rfl
    · rw [hp, List.append_nil]
      rfl
  | cons line rest ih =>
    obtain ⟨first, location, t, hline, hnoted, hasked, hnone, hneeded⟩ := annotateLine_noting load modules p s log line
    obtain ⟨more, locations, u, hrest, hrestNoted, hmore, hall⟩ :=
      ih (p.afterLines [line] first [location]) t (log ++ first)
    have hkept : p.loaded ++ kept (first ++ more) = p.loaded ++ kept first ++ kept more := by simp [kept]
    rw [Progress.afterLines_cons] at hrest hrestNoted
    rw [List.append_assoc] at hrestNoted
    refine ⟨first ++ more, location :: locations, u, ?_, ?_, ?_, ?_⟩
    · simp only [run_annotate_cons, hline, hrest]
    · simp only [run_annotate_cons, hnoted, hrestNoted]
    · rw [List.map_append, hmore, hneeded]
      rfl
    · rw [hkept]
      exact .cons (fun h => hnone (by rwa [available?_append hasked] at h)) hall

end Noted

/-! ## Debug information that is known -/

section Known

variable {m : Type → Type} [Monad m] {modules : ModuleTable} {p : Progress SourceLookup} {line : Bytes}
  {info : ModuleInfo}

theorem locationOf_available? (loaded : List (String × Option SourceLookup)) :
    (locationOf (available? modules loaded line) : m _) = pure (locationIn modules loaded line) := by
  rw [locationIn]
  cases available? modules loaded line <;> rfl

/-- The progress and the locations of lines when answers are given. -/
def annotated (p : Progress SourceLookup) (modules : ModuleTable) (lines : List Bytes)
    (given : LoadLog) : Progress SourceLookup × List (Option SourceLocation) :=
  let locations := lines.map (locationIn modules (p.loaded ++ kept given))
  (p.afterLines lines given locations, locations)

/-- One line and the others are all lines, if the module of the first has been asked for then. -/
theorem annotated_cons (first : LoadLog) (h : IsAsked modules (p.loaded ++ kept first) line)
    (lines : List Bytes) (more : LoadLog) :
    let location := locationIn modules (p.loaded ++ kept first) line
    let others := annotated (p.afterLines [line] first [location]) modules lines more
    annotated p modules (line :: lines) (first ++ more) = (others.1, location :: others.2) := by
  have hloaded : p.loaded ++ kept first ++ kept more = p.loaded ++ kept (first ++ more) := by
    rw [kept, kept, kept, List.map_append, List.append_assoc]
  have hline : locationIn modules (p.loaded ++ kept (first ++ more)) line =
      locationIn modules (p.loaded ++ kept first) line := by
    rw [← hloaded, locationIn, available?_append h, locationIn]
  have hafter : ∀ location, (p.afterLines [line] first [location]).loaded = p.loaded ++ kept first := fun _ => rfl
  simp only [annotated, hafter, hloaded, Progress.afterLines_cons, List.map_cons, hline]

variable [LawfulMonad m] (load : SymbolLoader m)

/-- A line whose module need not be loaded any more leaves all loads to the others. -/
theorem annotate_cons_of_asked (h : IsAsked modules p.loaded line) {rest : List Bytes} {loads : List ModuleInfo}
    (hrest : ∀ location, annotate load modules rest (p.afterLines [line] [] [location]) =
      (fun answers => annotated (p.afterLines [line] [] [location]) modules rest (loads.zip answers)) <$>
        loads.mapM load) :
    annotate load modules (line :: rest) p =
      (fun answers => annotated p modules (line :: rest) (loads.zip answers)) <$> loads.mapM load := by
  have hkept : p.loaded ++ kept [] = p.loaded := List.append_nil _
  rw [annotate, annotateLine_of_asked load h, locationOf_available?, map_pure, pure_bind]
  simp only [hrest, bind_map_left]
  rw [map_eq_pure_bind]
  refine bind_congr fun answers => ?_
  have hcons := annotated_cons (p := p) [] (by rwa [hkept]) rest (loads.zip answers)
  rw [List.nil_append, hkept] at hcons
  rw [hcons]

/-- A line that is the first to need a module loads it before the others are done. -/
theorem annotate_cons_of_notMem (hwanted : wanted? modules line = some info) (h : info.name ∉ p.loaded.map (·.1))
    {rest : List Bytes} {loads : List ModuleInfo}
    (hrest : ∀ answer location, annotate load modules rest (p.afterLines [line] [(info, answer)] [location]) =
      (fun answers => annotated (p.afterLines [line] [(info, answer)] [location]) modules rest (loads.zip answers)) <$>
        loads.mapM load) :
    annotate load modules (line :: rest) p =
      (fun answers => annotated p modules (line :: rest) ((info :: loads).zip answers)) <$>
        (info :: loads).mapM load := by
  rw [annotate, annotateLine_of_notMem load hwanted h]
  simp only [locationOf_available?, map_pure, bind_assoc, pure_bind, hrest, bind_map_left, List.mapM_cons, map_bind]
  refine bind_congr fun answer => bind_congr fun answers => ?_
  have hcons := annotated_cons (p := p) [(info, answer)] (isAsked_kept hwanted answer) rest (loads.zip answers)
  rw [List.singleton_append] at hcons
  rw [List.zip_cons_cons, hcons]

/-- **Annotating lines is loading what they need, in order, and nothing else.** The counts, the errors and the locations
are a function of the answers. -/
theorem annotate_eq_mapM (lines : List Bytes) :
    annotate load modules lines p =
      (fun answers => annotated p modules lines ((needed modules (p.loaded.map (·.1)) lines).zip answers)) <$>
        (needed modules (p.loaded.map (·.1)) lines).mapM load := by
  induction lines generalizing p with
  | nil => simp [annotate, needed, annotated, Progress.afterLines, kept]
  | cons line rest ih =>
    have hquiet : ∀ location, (p.afterLines [line] [] [location]).loaded = p.loaded := fun _ => List.append_nil _
    cases hwanted : wanted? modules line with
    | none =>
      have hrest : ∀ location, _ := fun location => ih (p := p.afterLines [line] [] [location])
      simp only [hquiet] at hrest
      rw [annotate_cons_of_asked load (fun info h => by rw [hwanted] at h; cases h) hrest]
      simp only [needed, hwanted]
    | some info =>
      by_cases h : info.name ∈ p.loaded.map (·.1)
      · have hrest : ∀ location, _ := fun location => ih (p := p.afterLines [line] [] [location])
        simp only [hquiet] at hrest
        rw [annotate_cons_of_asked load (fun other hother => by cases hwanted.symm.trans hother; exact h) hrest]
        simp only [needed, hwanted, if_pos h]
      · have hrest : ∀ answer location, _ := fun answer location =>
          ih (p := p.afterLines [line] [(info, answer)] [location])
        have hloaded : ∀ answer location, (p.afterLines [line] [(info, answer)] [location]).loaded.map (·.1) =
            p.loaded.map (·.1) ++ [info.name] := fun answer location => by simp [Progress.afterLines, kept]
        simp only [hloaded] at hrest
        rw [annotate_cons_of_notMem load hwanted h hrest]
        simp only [needed, hwanted, if_neg h]

end Known

end Translate

/-! ## Answers by module -/

/-- What was answered for a module: no debug information if it was not asked for. -/
def answerFor {L : Type} (given : LoadLog L) (info : ModuleInfo) : LoadAnswer L :=
  (given.find? (·.1 == info)).elim (.ok none) (·.2)

section Answers

variable {L : Type} {modules : ModuleTable} {info : ModuleInfo}

/-- Names in a table are distinct, so what is kept under a name is what was answered for its module. -/
theorem find?_kept {given : LoadLog L} (hnames : modules.Distinct)
    (hgiven : ∀ g ∈ given, g.1 ∈ modules.modules) (hinfo : info ∈ modules.modules) :
    ((kept given).find? (·.1 == info.name)).bind (·.2) = lookupIn (answerFor given info) := by
  induction given with
  | nil => rfl
  | cons g given ih =>
    have hrest := ih fun g' hg' => hgiven g' (List.mem_cons_of_mem _ hg')
    by_cases heq : g.1 = info
    · have hname : (g.1.name == info.name) = true := by simp [heq]
      have hself : (g.1 == info) = true := by simp [heq]
      simp [kept, answerFor, hname, hself]
    · have hname : (g.1.name == info.name) = false := by
        rw [beq_eq_false_iff_ne]
        exact fun h => heq (ModuleTable.eq_of_name_eq hnames (hgiven g List.mem_cons_self) hinfo h)
      have hself : (g.1 == info) = false := beq_eq_false_iff_ne.2 heq
      simpa [kept, answerFor, hname, hself] using hrest

/-- The location by what is kept is the one that the answers give. -/
theorem locationIn_kept {given : LoadLog} (hnames : modules.Distinct)
    (hgiven : ∀ g ∈ given, g.1 ∈ modules.modules) (line : Bytes) :
    locationIn modules (kept given) line = Reference.location? (answerFor given) modules line := by
  rw [Reference.location?_eq, locationIn, available?]
  cases hframe : frameOf? modules line with
  | none => rfl
  | some found =>
    obtain ⟨frame, info⟩ := found
    have hfresh : Reference.freshLookup (answerFor given) info = lookupIn (answerFor given info) := by
      cases h : answerFor given info <;> simp [Reference.freshLookup, lookupIn, h]
    simp only [Option.bind_some, find?_kept hnames hgiven (mem_of_frameOf? hframe), hfresh]
    cases info.debugId.isNone <;> simp [Option.bind_map]

/-- Lines written with their locations are what the lines become by the answers. -/
theorem render_locationIn {given : LoadLog} (hnames : modules.Distinct)
    (hgiven : ∀ g ∈ given, g.1 ∈ modules.modules) (lines : List Bytes) :
    render modules lines (lines.map (locationIn modules (kept given))) =
      lines.flatMap (Reference.line (answerFor given) modules) := by
  rw [render, List.zipWith_map_right, List.zipWith_self, List.flatMap]
  refine congrArg List.flatten (List.map_congr_left fun line _ => ?_)
  rw [locationIn_kept hnames hgiven, Reference.line_eq]

/-- A module that was asked for once has its answer. -/
theorem answerFor_of_mem {given : LoadLog L} (honce : (given.map (·.1)).Nodup)
    {answer : LoadAnswer L} (h : (info, answer) ∈ given) : answerFor given info = answer := by
  induction given with
  | nil => cases h
  | cons first given ih =>
    rw [List.map_cons, List.nodup_cons] at honce
    rcases List.mem_cons.1 h with rfl | h
    · simp [answerFor]
    · have hne : (first.1 == info) = false := by
        rw [beq_eq_false_iff_ne]
        rintro rfl
        exact honce.1 (List.mem_map.2 ⟨_, h, rfl⟩)
      rw [answerFor, List.find?_cons, hne]
      exact ih honce.2 h

/-- A frame of a module whose load failed or gave nothing finds nothing in what is kept. -/
theorem available?_of_lookupIn_eq_none {given : LoadLog L} (hnames : modules.Distinct)
    (hgiven : ∀ g ∈ given, g.1 ∈ modules.modules) (honce : (given.map (·.1)).Nodup) {answer : LoadAnswer L}
    (hmem : (info, answer) ∈ given) (hnone : lookupIn answer = none) {line : Bytes} {frame : StackFrame}
    (hframe : frameOf? modules line = some (frame, info)) : available? modules (kept given) line = none := by
  have hfind := find?_kept hnames hgiven (mem_of_frameOf? hframe)
  rw [answerFor_of_mem honce hmem, hnone] at hfind
  rw [available?, hframe, Option.bind_some, hfind, Option.map_none, ite_self]

theorem fst_zip_sublist {α β : Type} (l : List α) (m : List β) : ((l.zip m).map (·.1)).Sublist l := by
  induction l generalizing m with
  | nil => exact .slnil
  | cons first l ih =>
    cases m with
    | nil => exact List.nil_sublist _
    | cons second m => exact (ih m).cons_cons first

/-- A frame of a module whose load failed or gave nothing is normalized and not located. -/
theorem line_of_lookupIn_eq_none {loads : List ModuleInfo} {answers : List LoadAnswer} (hloads : loads.Nodup)
    {answer : LoadAnswer} (hmem : (info, answer) ∈ loads.zip answers) (hnone : lookupIn answer = none) {line : Bytes}
    {frame : StackFrame} (hframe : frameOf? modules line = some (frame, info)) :
    Reference.line (answerFor (loads.zip answers)) modules line = frame.normalized none (lineTerminator line) := by
  have hfresh : Reference.freshLookup (answerFor (loads.zip answers)) info = none := by
    rw [Reference.freshLookup, answerFor_of_mem (hloads.sublist (fst_zip_sublist loads answers)) hmem]
    cases answer with
    | ok lookup => exact hnone
    | error e => rfl
  rw [Reference.line_eq, Reference.location?_eq, hframe, Option.bind_some, hfresh, Option.bind_none, ite_self, rendered,
    hframe]

end Answers

namespace Translate

/-! ## Reports -/

/-- **With debug information that is known**, a report is what its lines become by the answers. -/
theorem writeReport_of_known {m : Type → Type} [Monad m] [LawfulMonad m] (load : SymbolLoader m)
    {report : ExceptionReport} (hnames : report.modules.Distinct) (accepted : Bytes) :
    let loads := needed report.modules [] report.lines
    writeReport load report ⟨accepted, none, false⟩ = (do
      let answers ← loads.mapM load
      let answer := answerFor (loads.zip answers)
      return (⟨accepted ++ report.lines.flatMap (Reference.line answer report.modules), none, false⟩, .ok {
        lines := report.lines.length
        frames := report.lines.countP fun line => (StackFrame.parse? line).isSome
        resolved := report.lines.countP fun line => (Reference.location? answer report.modules line).isSome
        errors := (loads.zip answers).filterMap failure? })) := by
  intro loads
  have hannotate : annotate load report.modules report.lines (start ⟨accepted, none, false⟩) =
      (fun answers => annotated (start ⟨accepted, none, false⟩) report.modules report.lines (loads.zip answers)) <$>
        loads.mapM load := annotate_eq_mapM load report.lines
  rw [writeReport_eq_annotate, hannotate, Functor.map_map, map_eq_pure_bind]
  refine bind_congr fun answers => ?_
  have hgiven : ∀ g ∈ loads.zip answers, g.1 ∈ report.modules.modules := fun g hg =>
    mem_modules_of_mem_needed hnames (List.of_mem_zip hg).1
  have hlocation := fun line => locationIn_kept hnames hgiven line
  simp only [annotated, Progress.afterLines, start, List.nil_append, Nat.zero_add, List.countP_map,
    render_locationIn hnames hgiven, Function.comp_def, hlocation]

/-- **Whatever loads and look-ups do besides**, the errors are those of the loads that failed, and frames whose load
gave nothing have no location. -/
theorem writeReport_noting {σ L : Type} [SourceLookups (StateM σ) L] (load : SymbolLoader (StateM σ) L)
    {report : ExceptionReport} (hnames : report.modules.Distinct) (accepted : Bytes) (s : σ) :
    ∃ (log : LoadLog L) (locations : List (Option SourceLocation)) (t : σ),
      let result : Sink × Except ReportError TranslateStats :=
        (⟨accepted ++ render report.modules report.lines locations, none, false⟩, .ok {
          lines := report.lines.length
          frames := report.lines.countP fun line => (StackFrame.parse? line).isSome
          resolved := locations.countP (·.isSome)
          errors := log.filterMap failure? })
      (writeReport load report ⟨accepted, none, false⟩).run s = (result, t) ∧
      (writeReport (noting load) report ⟨accepted, none, false⟩).run (s, []) = (result, t, log) ∧
      log.map (·.1) = needed report.modules [] report.lines ∧ locations.length = report.lines.length ∧
      ∀ (i : Nat) line frame info answer, report.lines[i]? = some line →
        frameOf? report.modules line = some (frame, info) → (info, answer) ∈ log → lookupIn answer = none →
          locations[i]? = some none ∧
            rendered report.modules line none = frame.normalized none (lineTerminator line) := by
  obtain ⟨log, locations, t, hrun, hnoted, hlog, hnone⟩ :=
    annotate_noting load report.modules (start ⟨accepted, none, false⟩) s [] report.lines
  have hstats : ((start ⟨accepted, none, false⟩ : Progress L).afterLines report.lines log locations).stats = {
      lines := report.lines.length
      frames := report.lines.countP fun line => (StackFrame.parse? line).isSome
      resolved := locations.countP (·.isSome)
      errors := log.filterMap failure? } := by simp [Progress.afterLines, start]
  refine ⟨log, locations, t, ?_, ?_, hlog, hnone.length_eq.symm,
    fun i line frame info answer hline hframe hin hanswer => ?_⟩
  · rw [writeReport_eq_annotate, StateT.run_map, hrun, ← hstats]
    rfl
  · rw [writeReport_eq_annotate, StateT.run_map, hnoted, ← hstats]
    rfl
  · have hgiven : ∀ g ∈ log, g.1 ∈ report.modules.modules := fun g hg =>
      mem_modules_of_mem_needed hnames (hlog ▸ List.mem_map_of_mem hg)
    have hnothing := available?_of_lookupIn_eq_none hnames hgiven (hlog ▸ nodup_needed hnames [] report.lines) hin
      hanswer hframe
    obtain ⟨hi, rfl⟩ := List.getElem?_eq_some_iff.1 hline
    have hi' : i < locations.length := hnone.length_eq ▸ hi
    refine ⟨?_, by rw [rendered, hframe]⟩
    rw [List.getElem?_eq_getElem hi']
    exact congrArg some (hnone.get hi hi' hnothing)

/-- **Debug information is loaded once for each module that needs it, in the order of the first frames.** For every
report there is one list of modules to load: those of its table that have a debug identity and that a frame of the body
refers to, in the order of the first such frames, so each once. Writing the report into a sink that accepts everything
is loading these modules one after the other, whatever a load does besides and gives, and then nothing but this: the
errors are those of the loads that failed, in their order and under the registered names, and every line is written by
the answers. A module whose load failed or gave nothing has its frames normalized and not located.

Debug information that has to be read is looked up between the loads, which may change what later loads and look-ups
see. The modules that are loaded are the same, and so is what becomes of the failures and of their frames. -/
theorem writeReport_eq_mapM {m : Type → Type} [Monad m] [LawfulMonad m] (load : SymbolLoader m)
    (input accepted : Bytes) :
    let report := ExceptionReport.parse input
    ∃ loads : List ModuleInfo,
      (∀ info, info ∈ loads ↔ info ∈ report.modules.modules ∧ info.debugId.isSome = true ∧
        ∃ line ∈ report.lines, refersTo line info = true) ∧
      loads.Pairwise (fun a b => report.lines.findIdx (refersTo · a) < report.lines.findIdx (refersTo · b)) ∧
      writeReport load report ⟨accepted, none, false⟩ = (do
        let answers ← loads.mapM load
        let answer := answerFor (loads.zip answers)
        return (⟨accepted ++ report.lines.flatMap (Reference.line answer report.modules), none, false⟩, .ok {
          lines := report.lines.length
          frames := report.lines.countP fun line => (StackFrame.parse? line).isSome
          resolved := report.lines.countP fun line => (Reference.location? answer report.modules line).isSome
          errors := (loads.zip answers).filterMap failure? })) ∧
      (∀ answers info answer, (info, answer) ∈ loads.zip answers → lookupIn answer = none →
        ∀ line frame, frameOf? report.modules line = some (frame, info) →
          Reference.line (answerFor (loads.zip answers)) report.modules line =
            frame.normalized none (lineTerminator line)) ∧
      ∀ {σ L : Type} [SourceLookups (StateM σ) L] (reading : SymbolLoader (StateM σ) L) (s : σ),
        ∃ (log : LoadLog L) (locations : List (Option SourceLocation)) (t : σ),
          let result : Sink × Except ReportError TranslateStats :=
            (⟨accepted ++ render report.modules report.lines locations, none, false⟩, .ok {
              lines := report.lines.length
              frames := report.lines.countP fun line => (StackFrame.parse? line).isSome
              resolved := locations.countP (·.isSome)
              errors := log.filterMap failure? })
          (writeReport reading report ⟨accepted, none, false⟩).run s = (result, t) ∧
          (writeReport (noting reading) report ⟨accepted, none, false⟩).run (s, []) = (result, t, log) ∧
          log.map (·.1) = loads ∧ locations.length = report.lines.length ∧
          ∀ (i : Nat) line frame info answer, report.lines[i]? = some line →
            frameOf? report.modules line = some (frame, info) → (info, answer) ∈ log → lookupIn answer = none →
              locations[i]? = some none ∧
                rendered report.modules line none = frame.normalized none (lineTerminator line) := by
  intro report
  have hnames : report.modules.Distinct := by
    rw [show report = ExceptionReport.parse input from rfl, ExceptionReport.parse_eq]
    exact ModuleTable.distinct_ofList _
  refine ⟨needed report.modules [] report.lines, fun info => mem_needed_nil hnames,
    pairwise_needed hnames [] report.lines, writeReport_of_known load hnames accepted, ?_,
    fun reading s => writeReport_noting reading hnames accepted s⟩
  intro answers info answer hmem hnone line frame hframe
  exact line_of_lookupIn_eq_none (nodup_needed hnames [] report.lines) hmem hnone hframe

/-- Loads that note the name of the module, and find nothing. -/
def notedLoads : SymbolLoader (StateM (List String)) := fun info names => (.ok none, names ++ [info.name])

theorem run_mapM_notedLoads {α : Type} (f : List LoadAnswer → α) (loads : List ModuleInfo) (names : List String) :
    ((do return f (← loads.mapM notedLoads)).run names).2 = names ++ loads.map (·.name) := by
  induction loads generalizing f names with
  | nil => exact (List.append_nil names).symm
  | cons info loads ih =>
    have hrest := ih (fun answers => f (.ok none :: answers)) (names ++ [info.name])
    rw [List.append_assoc] at hrest
    rw [List.mapM_cons]
    exact hrest

/-- A report with frames of two modules in turn. -/
def interleaved : Bytes := Utf8.ofString ("at b!0x1!f() +0x0\nat A!0x1!f() +0x0\nat B!0x1!f() +0x0\n===\n" ++
  "MODULE: A => A; G:0f8fad5b-d9cb-469f-a165-70867728950e; A:1\n" ++
  "MODULE: B => B; G:0f8fad5b-d9cb-469f-a165-70867728950e; A:1\n")

/-- The frames decide the order, not the table, and a frame in another spelling loads nothing again. -/
theorem writeReport_interleaved : LawfulMonad (StateM (List String)) ∧
    ∃ loads : List ModuleInfo, loads.map (·.name) = ["B", "A"] ∧
      ∀ info, info ∈ loads ↔ info ∈ (ExceptionReport.parse interleaved).modules.modules ∧ info.debugId.isSome = true ∧
        ∃ line ∈ (ExceptionReport.parse interleaved).lines, refersTo line info = true := by
  refine ⟨inferInstance, ?_⟩
  obtain ⟨loads, hmem, -, hrun, -, -⟩ := writeReport_eq_mapM notedLoads interleaved []
  have hnames : ((writeReport notedLoads (.parse interleaved) ⟨[], none, false⟩).run []).2 = ["B", "A"] := by
    decide +kernel
  refine ⟨loads, ?_, hmem⟩
  rw [hrun] at hnames
  exact (run_mapM_notedLoads _ loads []).symm.trans hnames

end Translate

end Symbolicate
