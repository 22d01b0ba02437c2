import Mathlib.Tactic.Common
import Symbolicate.Proofs.Report.Lines
import Symbolicate.Proofs.Report.ModuleTable
import Symbolicate.Report.Translate

/-!
# Translation as annotation

A translation first finds a source location for every body line that is to get one (`annotate`), and then writes the
lines with their locations (`render`). The two are interleaved, but what is found does not depend on what has been
written, so a translation into a sink that accepts everything is an annotation followed by one write
(`translate_eq_annotate`).
-/

namespace Symbolicate

/-! ## Writing lines -/

/-- The frame on a line, with its module, if the line is a frame of a module of the table. -/
def frameOf? (modules : ModuleTable) (line : Bytes) : Option (StackFrame × ModuleInfo) := do
  let frame ← StackFrame.parse? line
  let info ← modules.get? frame.moduleName
  return (frame, info)

theorem parse?_of_frameOf? {modules : ModuleTable} {line : Bytes} {frame : StackFrame} {info : ModuleInfo}
    (h : frameOf? modules line = some (frame, info)) : StackFrame.parse? line = some frame := by
  simp only [frameOf?, Option.bind_eq_bind, Option.bind_eq_some_iff, Option.pure_def, Option.some.injEq] at h
  obtain ⟨_, hframe, _, _, heq⟩ := h
  cases heq
  exact hframe

theorem mem_of_frameOf? {modules : ModuleTable} {line : Bytes} {frame : StackFrame} {info : ModuleInfo}
    (h : frameOf? modules line = some (frame, info)) : info ∈ modules.modules := by
  simp only [frameOf?, Option.bind_eq_bind, Option.bind_eq_some_iff, Option.pure_def, Option.some.injEq] at h
  obtain ⟨_, _, other, hget, heq⟩ := h
  cases heq
  exact (ModuleTable.mem_of_get? hget).1

/-- A body line with a source location: a frame is normalized, and every other line stays as it is. -/
def rendered (modules : ModuleTable) (line : Bytes) (location : Option SourceLocation) : Bytes :=
  match frameOf? modules line with
  | some (frame, _) => frame.normalized location (lineTerminator line)
  | none => line

/-- Body lines with their source locations, one after the other. -/
def render (modules : ModuleTable) (lines : List Bytes) (locations : List (Option SourceLocation)) : Bytes :=
  (List.zipWith (rendered modules) lines locations).flatten

theorem render_cons (modules : ModuleTable) (line : Bytes) (lines : List Bytes) (location : Option SourceLocation)
    (locations : List (Option SourceLocation)) :
    render modules (line :: lines) (location :: locations) =
      rendered modules line location ++ render modules lines locations := rfl

/-! ## Answers -/

section Answers

variable {L : Type}

/-- What a load gives: an error, no debug information, or some. -/
abbrev LoadAnswer (L : Type := SourceLookup) := Except SymbolError (Option L)

/-- The debug information in an answer. -/
def lookupIn : LoadAnswer L → Option L
  | .ok lookup => lookup
  | .error _ => none

/-- The error of a module, if its load failed. -/
def failure? : ModuleInfo × LoadAnswer L → Option (String × SymbolError)
  | (info, .error e) => some (info.name, e)
  | (_, .ok _) => none

namespace Progress

/-- The progress with another output. -/
def withSink (p : Progress L) (sink : Sink) : Progress L := { p with sink := sink }

/-- The progress when a module has been loaded. -/
def loading (p : Progress L) (info : ModuleInfo) (answer : LoadAnswer L) : Progress L :=
  { p with
    stats := { p.stats with errors := p.stats.errors ++ [(info, answer)].filterMap failure? }
    loaded := p.loaded ++ [(info.name, lookupIn answer)] }

/-- The progress when a frame has been looked up. -/
def locating (p : Progress L) (location : Option SourceLocation) : Progress L :=
  { p with stats := { p.stats with resolved := p.stats.resolved + if location.isSome then 1 else 0 } }

end Progress

end Answers

namespace Translate

variable {m : Type → Type} [Monad m] {L : Type}

/-! ## Finding locations -/

/-- The progress with a body line counted, and with a frame counted if there is one on it. -/
def counted (p : Progress L) (line : Bytes) : Progress L :=
  let stats := { p.stats with lines := p.stats.lines + 1 }
  match StackFrame.parse? line with
  | some _ => { p with stats := { stats with frames := stats.frames + 1 } }
  | none => { p with stats := stats }

/-- A body line is counted once, and as a frame if there is one on it; nothing else changes. -/
theorem counted_eq (p : Progress L) (line : Bytes) :
    counted p line = { p with stats := { p.stats with
      lines := p.stats.lines + 1
      frames := p.stats.frames + if (StackFrame.parse? line).isSome then 1 else 0 } } := by
  unfold counted
  cases StackFrame.parse? line <;> rfl

section Load

variable (load : SymbolLoader m L) {p : Progress L} {info : ModuleInfo}

theorem lookupFor_of_loaded {entry : String × Option L} (h : p.loaded.find? (·.1 == info.name) = some entry) :
    lookupFor load p info = pure (p, entry.2) := by
  simp only [lookupFor, h]

theorem lookupFor_of_new [LawfulMonad m] (h : p.loaded.find? (·.1 == info.name) = none) :
    lookupFor load p info = (fun answer => (p.loading info answer, lookupIn answer)) <$> load info := by
  simp only [lookupFor, h, map_eq_pure_bind]
  refine congrArg _ (funext fun answer => ?_)
  cases answer <;> simp [Progress.loading, failure?, lookupIn, List.filterMap_cons]

theorem lookupFor_withSink [LawfulMonad m] (sink : Sink) :
    lookupFor load (p.withSink sink) info = (fun r => (r.1.withSink sink, r.2)) <$> lookupFor load p info := by
  unfold lookupFor
  cases hfind : p.loaded.find? (·.1 == info.name) with
  | some entry => simp [Progress.withSink, hfind]
  | none =>
    simp only [Progress.withSink, hfind, map_bind]
    refine congrArg _ (funext fun answer => ?_)
    cases answer <;> simp

end Load

variable [SourceLookups m L]

/-- The source location for a body line. -/
def annotateLine (load : SymbolLoader m L) (modules : ModuleTable) (p : Progress L) (line : Bytes) :
    m (Progress L × Option SourceLocation) :=
  match frameOf? modules line with
  | some (frame, info) => locate load (counted p line) info frame
  | none => pure (counted p line, none)

/-- The source locations for body lines, first to last. -/
def annotate (load : SymbolLoader m L) (modules : ModuleTable) :
    List Bytes → Progress L → m (Progress L × List (Option SourceLocation))
  | [], p => pure (p, [])
  | line :: rest, p => do
    let (p, location) ← annotateLine load modules p line
    let (p, locations) ← annotate load modules rest p
    return (p, location :: locations)

/-- A line is annotated before the lines behind it. -/
theorem run_annotate_cons {τ : Type} [SourceLookups (StateM τ) L] (load : SymbolLoader (StateM τ) L)
    (modules : ModuleTable) (line : Bytes) (rest : List Bytes) (p : Progress L) (t : τ) :
    (annotate load modules (line :: rest) p).run t =
      let r := (annotateLine load modules p line).run t
      let others := (annotate load modules rest r.1.1).run r.2
      ((others.1.1, r.1.2 :: others.1.2), others.2) := rfl

/-! ## One line -/

section Line

variable (load : SymbolLoader m L) {modules : ModuleTable} {p : Progress L} {line : Bytes} {frame : StackFrame}
  {info : ModuleInfo}

/-- A frame of a module with a debug identity is looked up in what there is for the module. -/
theorem locate_eq [LawfulMonad m] (hid : info.debugId.isNone = false) (frame : StackFrame) :
    locate load p info frame = lookupFor load p info >>= fun r =>
      (fun location => (r.1.locating location, location)) <$> frameLocation r.2 frame := by
  rw [locate, hid, if_neg Bool.false_ne_true]
  refine bind_congr fun r => ?_
  rw [map_eq_pure_bind]
  refine bind_congr fun location => ?_
  cases location <;> simp [Progress.locating]

/-- A line that is no frame of a module with a debug identity is only counted. -/
theorem annotateLine_of_quiet
    (h : ∀ frame info, frameOf? modules line = some (frame, info) → info.debugId.isNone = true) :
    annotateLine load modules p line = pure (counted p line, none) := by
  cases hframe : frameOf? modules line with
  | none => simp only [annotateLine, hframe]
  | some found => simp only [annotateLine, hframe, locate, h found.1 found.2 hframe, if_true]

/-- A frame of a module that has been loaded is looked up in what was loaded. -/
theorem annotateLine_of_loaded [LawfulMonad m] (hframe : frameOf? modules line = some (frame, info))
    (hid : info.debugId.isNone = false) {entry : String × Option L}
    (h : p.loaded.find? (·.1 == info.name) = some entry) : annotateLine load modules p line =
      (fun location => ((counted p line).locating location, location)) <$> frameLocation entry.2 frame := by
  have hlookup : lookupFor load (counted p line) info = pure (counted p line, entry.2) :=
    lookupFor_of_loaded load (by rw [counted_eq]; exact h)
  simp only [annotateLine, hframe, locate_eq load hid, hlookup, pure_bind]

/-- A frame of another module loads it first. -/
theorem annotateLine_of_new [LawfulMonad m] (hframe : frameOf? modules line = some (frame, info))
    (hid : info.debugId.isNone = false) (h : p.loaded.find? (·.1 == info.name) = none) :
    annotateLine load modules p line = load info >>= fun answer =>
      (fun location => (((counted p line).loading info answer).locating location, location)) <$>
        frameLocation (lookupIn answer) frame := by
  have hlookup : lookupFor load (counted p line) info =
      (fun answer => ((counted p line).loading info answer, lookupIn answer)) <$> load info :=
    lookupFor_of_new load (by rw [counted_eq]; exact h)
  simp only [annotateLine, hframe, locate_eq load hid, hlookup, bind_map_left]

/-- Debug information that is known gives its locations without a look at anything else. -/
theorem frameLocation_of_known (lookup : Option SourceLookup) (frame : StackFrame) :
    (frameLocation lookup frame : m _) = pure (lookup.bind fun find => find frame.token frame.offset) := by
  cases lookup <;> rfl

end Line

/-! ## Locations do not depend on the output -/

section Lawful

variable [LawfulMonad m] (load : SymbolLoader m L) (modules : ModuleTable) (p : Progress L) (sink : Sink)

theorem translateLine_eq (line : Bytes) :
    translateLine load modules p line =
      (fun r => (r.1, rendered modules line r.2)) <$> annotateLine load modules p line := by
  cases hframe : StackFrame.parse? line with
  | none => simp [translateLine, annotateLine, frameOf?, counted, rendered, hframe]
  | some frame =>
    cases hinfo : modules.get? frame.moduleName with
    | none => simp [translateLine, annotateLine, frameOf?, counted, rendered, hframe, hinfo]
    | some info =>
      simp only [translateLine, annotateLine, frameOf?, counted, rendered, hframe, hinfo, Option.bind_eq_bind,
        Option.bind_some, Option.pure_def, bind_pure_comp]

theorem locate_withSink (info : ModuleInfo) (frame : StackFrame) :
    locate load (p.withSink sink) info frame =
      (fun r => (r.1.withSink sink, r.2)) <$> locate load p info frame := by
  unfold locate
  by_cases hid : info.debugId.isNone = true
  · simp [hid]
  · simp only [hid, Bool.false_eq_true, if_false, lookupFor_withSink, bind_map_left, map_bind]
    refine congrArg _ (funext fun r => congrArg _ (funext fun location => ?_))
    cases location <;> simp [Progress.withSink]

theorem annotateLine_withSink (line : Bytes) :
    annotateLine load modules (p.withSink sink) line =
      (fun r => (r.1.withSink sink, r.2)) <$> annotateLine load modules p line := by
  have hcounted : counted (p.withSink sink) line = (counted p line).withSink sink := by
    simp only [counted_eq, Progress.withSink]
  unfold annotateLine
  cases frameOf? modules line with
  | none => simp [hcounted]
  | some found => rw [hcounted]; exact locate_withSink load _ sink _ _

/-- **Writing lines is annotating them and writing once**, into a sink that accepts everything. -/
theorem writeLines_eq (lines : List Bytes) (hroom : sink.room = none) :
    writeLines load modules lines (p.withSink sink) =
      (fun r => (r.1.withSink { sink with accepted := sink.accepted ++ render modules lines r.2 }, true)) <$>
        annotate load modules lines p := by
  induction lines generalizing p sink with
  | nil => simp [writeLines, annotate, render]
  | cons line rest ih =>
    have hwrite : ∀ out, sink.write out = ({ sink with accepted := sink.accepted ++ out }, true) := by
      intro out
      rw [Sink.write, hroom]
    simp only [writeLines, annotate, translateLine_eq, annotateLine_withSink, bind_map_left, map_bind]
    refine congrArg _ (funext fun r => ?_)
    have hrest := ih r.1 { sink with accepted := sink.accepted ++ rendered modules line r.2 } hroom
    simp only [Progress.withSink, hwrite, if_true] at hrest ⊢
    rw [hrest]
    simp [render_cons]

end Lawful

/-- Writing a report into a sink that accepts everything is annotating its lines, and one write. -/
theorem writeReport_eq_annotate [LawfulMonad m] (load : SymbolLoader m L) (report : ExceptionReport)
    (accepted : Bytes) :
    writeReport load report ⟨accepted, none, false⟩ =
      (fun r => (⟨accepted ++ render report.modules report.lines r.2, none, false⟩, .ok r.1.stats)) <$>
        annotate load report.modules report.lines (start ⟨accepted, none, false⟩) := by
  have hwrite := writeLines_eq load report.modules (start ⟨accepted, none, false⟩) ⟨accepted, none, false⟩
    report.lines rfl
  have hstart : (start ⟨accepted, none, false⟩ : Progress L).withSink ⟨accepted, none, false⟩ =
      start ⟨accepted, none, false⟩ := rfl
  rw [hstart] at hwrite
  rw [writeReport, hwrite, bind_map_left, map_eq_pure_bind]
  rfl

/-- **A translation is an annotation and one write.** A report that is read to its end is written with the locations
that annotating its body gives, if everything is accepted. -/
theorem translate_eq_annotate [LawfulMonad m] (load : SymbolLoader m L) (input accepted : Bytes) :
    translate load ⟨input, none⟩ ⟨accepted, none, false⟩ =
      (fun r => (⟨accepted ++ render (footerModules input) (bodyLines input) r.2, none, false⟩, .ok r.1.stats)) <$>
        annotate load (footerModules input) (bodyLines input) (start ⟨accepted, none, false⟩) := by
  rw [translate, ReportSource.read, ExceptionReport.parse_eq]
  exact writeReport_eq_annotate load _ accepted

end Translate

end Symbolicate
