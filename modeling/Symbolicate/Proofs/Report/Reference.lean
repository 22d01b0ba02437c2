import Mathlib.Data.Option.Basic
import Mathlib.Tactic.Common
import Symbolicate.Proofs.Report.Annotate
import Symbolicate.Proofs.Report.ModuleTable
import Symbolicate.Proofs.Text.Utf8

/-!
# Translation line by line

When what a load gives depends on the module alone, a translation treats every line by itself (`translate_eq_reference`):
the output is what the body lines become one by one, each with a fresh load. The debug information that has been kept is
that of the one module with its name (`Cached`), because names in a module table are distinct.
-/

namespace Symbolicate

/-! ## The reference -/

namespace Reference

variable (answer : ModuleInfo → Except SymbolError (Option SourceLookup))

/-- The debug information that a fresh load of a module yields. -/
def freshLookup (info : ModuleInfo) : Option SourceLookup :=
  match answer info with
  | .ok lookup => lookup
  | .error _ => none

/-- The source location for a line, with a fresh load: that of a frame of a module of the table with a debug identity. -/
def location? (modules : ModuleTable) (line : Bytes) : Option SourceLocation := do
  let frame ← StackFrame.parse? line
  let info ← modules.get? frame.moduleName
  guard info.debugId.isSome
  let lookup ← freshLookup answer info
  lookup frame.token frame.offset

/-- What a line becomes. A line that is no frame of a module of the table stays as it is. -/
def line (modules : ModuleTable) (line : Bytes) : Bytes :=
  match StackFrame.parse? line with
  | none => line
  | some frame =>
    if (modules.get? frame.moduleName).isNone then line
    else
      Utf8.ofString ("   at " ++ frame.method ++ "(" ++ frame.arguments ++ ")") ++
        (match location? answer modules line with
          | some l => Utf8.ofString (" in " ++ l.fileText ++ ":line " ++ String.ofList (Text.decimal l.line.toNat))
          | none => []) ++
        if [0x0D, 0x0A] <:+ line then [0x0D, 0x0A] else [0x0A]

theorem location?_eq (modules : ModuleTable) (line : Bytes) :
    location? answer modules line = (frameOf? modules line).bind fun found =>
      if found.2.debugId.isNone then none
      else (freshLookup answer found.2).bind fun lookup => lookup found.1.token found.1.offset := by
  cases hframe : StackFrame.parse? line with
  | none => simp [location?, frameOf?, hframe]
  | some frame =>
    cases hinfo : modules.get? frame.moduleName with
    | none => simp [location?, frameOf?, hframe, hinfo]
    | some info =>
      unfold location? guard
      cases hid : info.debugId <;> simp [frameOf?, hframe, hinfo, hid]

/-- A line becomes what it renders to with its location. -/
theorem line_eq (modules : ModuleTable) (b : Bytes) :
    line answer modules b = rendered modules b (location? answer modules b) := by
  have hend : lineTerminator b = if [0x0D, 0x0A] <:+ b then [0x0D, 0x0A] else [0x0A] := by
    simp only [lineTerminator, List.isSuffixOf_iff_suffix]
  cases hframe : StackFrame.parse? b with
  | none => simp [line, rendered, frameOf?, hframe]
  | some frame =>
    cases hinfo : modules.get? frame.moduleName with
    | none => simp [line, rendered, frameOf?, hframe, hinfo]
    | some info =>
      simp only [line, rendered, frameOf?, hframe, hinfo, Option.isNone_some, Bool.false_eq_true, if_false,
        Option.bind_eq_bind, Option.bind_some, Option.pure_def, StackFrame.normalized, hend]
      cases location? answer modules b with
      | none =>
        simp only [Option.elim_none, List.append_nil]
        rw [String.append_empty]
      | some l => simp only [Option.elim_some, SourceLocation.text, Utf8.ofString_append, List.append_assoc]

end Reference

/-! ## What has been loaded is what a fresh load gives -/

section Cache

variable {answer : ModuleInfo → Except SymbolError (Option SourceLookup)} {modules : ModuleTable}
  {p : Progress SourceLookup} {m : Type → Type} [Monad m] [LawfulMonad m]

open Reference

/-- What has been loaded is, for every module of the table, what a fresh load of that module yields. -/
def Cached (answer : ModuleInfo → Except SymbolError (Option SourceLookup)) (modules : ModuleTable)
    (loaded : List (String × Option SourceLookup)) : Prop :=
  ∀ entry ∈ loaded, ∀ info ∈ modules.modules, info.name = entry.1 → freshLookup answer info = entry.2

theorem cached_start (sink : Sink) : Cached answer modules (Translate.start sink).loaded := by
  simp [Cached, Translate.start]

/-- Names are distinct, so what is loaded for a module may be kept under its name. -/
theorem Cached.append (hnames : modules.Distinct) (h : Cached answer modules p.loaded) {info : ModuleInfo}
    (hinfo : info ∈ modules.modules) :
    Cached answer modules (p.loaded ++ [(info.name, freshLookup answer info)]) := by
  intro entry hentry other hother hname
  rcases List.mem_append.1 hentry with hold | hnew
  · exact h entry hold other hother hname
  · rw [List.mem_singleton.1 hnew] at hname ⊢
    rw [ModuleTable.eq_of_name_eq hnames hother hinfo hname]

/-- Debug information is what a fresh load yields, whether or not it has been loaded before. -/
theorem lookupFor_pure (hnames : modules.Distinct) (h : Cached answer modules p.loaded) {info : ModuleInfo}
    (hinfo : info ∈ modules.modules) :
    ∃ q, Translate.lookupFor (fun info => (pure (answer info) : m _)) p info = pure (q, freshLookup answer info) ∧
      Cached answer modules q.loaded ∧ q.stats.lines = p.stats.lines ∧ q.stats.frames = p.stats.frames ∧
      q.stats.resolved = p.stats.resolved := by
  have happend := h.append hnames hinfo
  cases hfind : p.loaded.find? (·.1 == info.name) with
  | some entry =>
    have hname : info.name = entry.1 := by
      have hkey : entry.1 = info.name := by simpa using List.find?_some hfind
      exact hkey.symm
    have hfresh := h entry (List.mem_of_find?_eq_some hfind) info hinfo hname
    exact ⟨p, by simp [Translate.lookupFor, hfind, hfresh], h, rfl, rfl, rfl⟩
  | none =>
    cases hanswer : answer info with
    | ok lookup =>
      have hfresh : freshLookup answer info = lookup := by simp [freshLookup, hanswer]
      rw [hfresh] at happend ⊢
      exact ⟨{ p with loaded := p.loaded ++ [(info.name, lookup)] },
        by simp [Translate.lookupFor, hfind, hanswer], happend, rfl, rfl, rfl⟩
    | error e =>
      have hfresh : freshLookup answer info = none := by simp [freshLookup, hanswer]
      rw [hfresh] at happend ⊢
      exact ⟨{ p with stats := { p.stats with errors := p.stats.errors ++ [(info.name, e)] },
                      loaded := p.loaded ++ [(info.name, none)] },
        by simp [Translate.lookupFor, hfind, hanswer], happend, rfl, rfl, rfl⟩

/-- A line gets the location that a fresh load gives it, and is counted. -/
theorem annotateLine_pure (hnames : modules.Distinct) (h : Cached answer modules p.loaded) (line : Bytes) :
    ∃ q, Translate.annotateLine (fun info => (pure (answer info) : m _)) modules p line =
        pure (q, location? answer modules line) ∧
      Cached answer modules q.loaded ∧ q.stats.lines = p.stats.lines + 1 ∧
      q.stats.frames = p.stats.frames + (if (StackFrame.parse? line).isSome then 1 else 0) ∧
      q.stats.resolved = p.stats.resolved + (if (location? answer modules line).isSome then 1 else 0) := by
  have hcounted := Translate.counted_eq p line
  rw [location?_eq]
  cases hfound : frameOf? modules line with
  | none => exact ⟨Translate.counted p line, by simp [Translate.annotateLine, hfound], by simp [hcounted, h]⟩
  | some found =>
    obtain ⟨frame, info⟩ := found
    have hinfo : info ∈ modules.modules := mem_of_frameOf? hfound
    simp only [Translate.annotateLine, hfound, Option.bind_some, Translate.locate]
    by_cases hid : info.debugId.isNone = true
    · exact ⟨Translate.counted p line, by simp [hid], by simp [hcounted, h, hid]⟩
    · have hcached : Cached answer modules (Translate.counted p line).loaded := by
        rw [hcounted]
        exact h
      obtain ⟨q, hlookup, hq, hlines, hframes, hresolved⟩ := lookupFor_pure (m := m) hnames hcached hinfo
      rw [hcounted] at hlines hframes hresolved
      simp only [hid, Bool.false_eq_true, if_false, hlookup, pure_bind, Translate.frameLocation_of_known]
      cases hlocation : (freshLookup answer info).bind fun lookup => lookup frame.token frame.offset with
      | none => exact ⟨q, rfl, hq, hlines, hframes, hresolved⟩
      | some location => exact ⟨_, rfl, hq, hlines, hframes, congrArg (· + 1) hresolved⟩

/-- The lines of a body get the locations that fresh loads give them, and are counted. -/
theorem annotate_pure (hnames : modules.Distinct) (h : Cached answer modules p.loaded) (lines : List Bytes) :
    ∃ q, Translate.annotate (fun info => (pure (answer info) : m _)) modules lines p =
        pure (q, lines.map (location? answer modules)) ∧
      q.stats.lines = p.stats.lines + lines.length ∧
      q.stats.frames = p.stats.frames + lines.countP (fun line => (StackFrame.parse? line).isSome) ∧
      q.stats.resolved = p.stats.resolved + lines.countP (fun line => (location? answer modules line).isSome) := by
  induction lines generalizing p with
  | nil => exact ⟨p, rfl, rfl, rfl, rfl⟩
  | cons line rest ih =>
    obtain ⟨q, hline, hq, hlines, hframes, hresolved⟩ := annotateLine_pure (m := m) hnames h line
    obtain ⟨r, hrest, hlines', hframes', hresolved'⟩ := ih hq
    refine ⟨r, by simp [Translate.annotate, hline, hrest], ?_, ?_, ?_⟩
    · rw [hlines', hlines, List.length_cons]
      omega
    · rw [hframes', hframes, List.countP_cons]
      omega
    · rw [hresolved', hresolved, List.countP_cons]
      omega

end Cache

/-! ## The translation -/

/-- **A translation is the line-by-line reference.** Whatever the report, if what a load gives depends on the module
alone and everything that is written is accepted, then the output is what the body lines become one by one, and the
counts are those of the body lines, of the frames among them and of the locations. -/
theorem translate_eq_reference {m : Type → Type} [Monad m] [LawfulMonad m]
    (answer : ModuleInfo → Except SymbolError (Option SourceLookup)) (input accepted : Bytes) :
    ∃ errors, Translate.translate (fun info => (pure (answer info) : m _)) ⟨input, none⟩ ⟨accepted, none, false⟩ =
      pure (⟨accepted ++ (bodyLines input).flatMap (Reference.line answer (footerModules input)), none, false⟩,
        .ok ⟨(bodyLines input).length,
          (bodyLines input).countP (fun line => (StackFrame.parse? line).isSome),
          (bodyLines input).countP (fun line => (Reference.location? answer (footerModules input) line).isSome),
          errors⟩) := by
  have hnames : (footerModules input).Distinct := ModuleTable.distinct_ofList _
  obtain ⟨q, hannotate, hlines, hframes, hresolved⟩ :=
    annotate_pure (m := m) hnames (cached_start ⟨accepted, none, false⟩) (bodyLines input)
  have hrender : render (footerModules input) (bodyLines input)
      ((bodyLines input).map (Reference.location? answer (footerModules input))) =
      (bodyLines input).flatMap (Reference.line answer (footerModules input)) := by
    rw [render, List.zipWith_map_right, List.zipWith_self, List.flatMap,
      List.map_congr_left fun b _ => Reference.line_eq answer (footerModules input) b]
  refine ⟨q.stats.errors, ?_⟩
  have hstats : q.stats = ⟨q.stats.lines, q.stats.frames, q.stats.resolved, q.stats.errors⟩ := rfl
  rw [Translate.translate_eq_annotate, hannotate, map_pure, hrender, hstats, hlines, hframes, hresolved]
  simp [Translate.start]

/-- A report with a line of text and a frame. -/
def oneFrame : Bytes := Utf8.ofString ("Fault\n   at A!0x06000001!A.B(Int32 x) +0x4\r\n===\n" ++
  "MODULE: A => A, Version=1.0; G:0f8fad5b-d9cb-469f-a165-70867728950e; A:1\n")

/-- Debug information that has a line for every offset. -/
def everyOffset (_ : ModuleInfo) : Except SymbolError (Option SourceLookup) :=
  .ok (some fun _ offset => some ⟨some "a.cs", offset⟩)

/-- The frame gets its location, and the other line stays as it is. -/
theorem translate_oneFrame : ∃ errors,
    Translate.translate (fun info => (pure (everyOffset info) : Id _)) ⟨oneFrame, none⟩ ⟨[], none, false⟩ =
      pure (⟨Utf8.ofString "Fault\n   at A.B(Int32 x) in a.cs:line 4\r\n", none, false⟩, .ok ⟨2, 1, 1, errors⟩) := by
  obtain ⟨errors, h⟩ := translate_eq_reference (m := Id) everyOffset oneFrame []
  have hout : (bodyLines oneFrame).flatMap (Reference.line everyOffset (footerModules oneFrame)) =
      Utf8.ofString "Fault\n   at A.B(Int32 x) in a.cs:line 4\r\n" := by decide +kernel
  have hlines : (bodyLines oneFrame).length = 2 := by decide +kernel
  have hframes : (bodyLines oneFrame).countP (fun line => (StackFrame.parse? line).isSome) = 1 := by decide +kernel
  have hresolved : (bodyLines oneFrame).countP
      (fun line => (Reference.location? everyOffset (footerModules oneFrame) line).isSome) = 1 := by decide +kernel
  rw [hout, hlines, hframes, hresolved, List.nil_append] at h
  exact ⟨errors, h⟩

end Symbolicate
