import Mathlib.Tactic.Common
import Symbolicate.Proofs.Report.Annotate
import Symbolicate.Proofs.Report.Normalized
import Symbolicate.Proofs.Report.Provenance

/-!
# Translating again changes nothing

A report is normal if no line of its body is a frame of one of its modules. A normal report is written as it is, and
nothing is loaded for it (`translate_of_isNormal`). A translation in front of the footer of its report is normal
(`isNormal_output`), because normalized frames are lines, no separators and no frames, unless the name of a source file
makes them so. Hence translating it gives the same output again, wherever debug information comes from
(`translate_idempotent`).
-/

namespace Symbolicate

/-! ## Normal reports -/

/-- No line of the body is a frame of a module of the report. -/
def IsNormal (input : Bytes) : Prop := ∀ line ∈ bodyLines input, frameOf? (footerModules input) line = none

namespace Translate

section Normal

variable {m : Type → Type} [Monad m] [LawfulMonad m] {L : Type} [SourceLookups m L] (load : SymbolLoader m L)
  {modules : ModuleTable}

/-- Where there are no frames, lines are counted and get no locations. -/
theorem annotate_of_frameOf?_eq_none {lines : List Bytes} (h : ∀ line ∈ lines, frameOf? modules line = none)
    (p : Progress L) : annotate load modules lines p = pure (lines.foldl counted p, lines.map fun _ => none) := by
  induction lines generalizing p with
  | nil => rfl
  | cons line rest ih =>
    have hline : annotateLine load modules p line = pure (counted p line, none) := by
      rw [annotateLine, h line List.mem_cons_self]
    have hrest := ih (fun l hl => h l (List.mem_cons_of_mem _ hl)) (counted p line)
    simp only [annotate, hline, pure_bind, hrest, List.foldl_cons, List.map_cons]

theorem render_of_frameOf?_eq_none {lines : List Bytes} (h : ∀ line ∈ lines, frameOf? modules line = none) :
    render modules lines (lines.map fun _ => none) = lines.flatten := by
  have hline : lines.map (fun line => rendered modules line none) = lines.map id := by
    refine List.map_congr_left fun line hline => ?_
    rw [rendered, h line hline]
    rfl
  rw [render, List.zipWith_map_right, List.zipWith_self, hline, List.map_id]

theorem foldl_counted (lines : List Bytes) (p : Progress L) :
    lines.foldl counted p = { p with stats := { p.stats with
      lines := p.stats.lines + lines.length
      frames := p.stats.frames + lines.countP fun line => (StackFrame.parse? line).isSome } } := by
  induction lines generalizing p with
  | nil => rfl
  | cons line rest ih =>
    rw [List.foldl_cons, ih, counted_eq, List.length_cons, List.countP_cons]
    simp only [Nat.add_assoc, Nat.add_comm, Nat.add_left_comm]

/-- **A normal report is written as it is**, and nothing is loaded. -/
theorem translate_of_isNormal {input : Bytes} (h : IsNormal input) :
    translate load ⟨input, none⟩ .unlimited =
      pure (⟨(bodyLines input).flatten, none, false⟩,
        .ok ⟨(bodyLines input).length, (bodyLines input).countP fun line => (StackFrame.parse? line).isSome, 0, []⟩) := by
  rw [Sink.unlimited, translate_eq_annotate, annotate_of_frameOf?_eq_none load h, map_pure,
    render_of_frameOf?_eq_none h, foldl_counted]
  simp [start]

end Normal

/-! ## Translations are normal -/

/-- A name of a source file that stays part of its line: it ends no line, makes no separator and holds no offset. -/
def IsHarmless (file : String) : Prop :=
  '\n' ∉ file.toList ∧ ¬ "===".toList <:+: file.toList ∧ ¬ "+0x".toList <:+: file.toList ∧ ¬ "+0X".toList <:+: file.toList

instance (file : String) : Decidable (IsHarmless file) := inferInstanceAs (Decidable (_ ∧ _))

/-- Lines that a normal body can consist of. -/
def IsNormalLine (modules : ModuleTable) (line : Bytes) : Prop :=
  IsLine line ∧ isSeparator line = false ∧ frameOf? modules line = none

/-- A line of a body becomes a line of a normal body. -/
theorem isNormalLine_rendered {modules : ModuleTable} {line : Bytes} {location : Option SourceLocation}
    (hline : IsLine line) (hsep : isSeparator line = false) (hfile : ∀ l ∈ location, IsHarmless l.fileText) :
    IsNormalLine modules (rendered modules line location) := by
  cases hfound : frameOf? modules line with
  | none =>
    have heq : rendered modules line location = line := by rw [rendered, hfound]
    rw [heq]
    exact ⟨hline, hsep, hfound⟩
  | some found =>
    obtain ⟨frame, info⟩ := found
    have heq : rendered modules line location = frame.normalized location (lineTerminator line) := by
      rw [rendered, hfound]
    have hframe := parse?_of_frameOf? hfound
    obtain ⟨hmethod, harguments⟩ := StackFrame.isInline_of_parse? hline hsep hframe
    obtain ⟨_, _, _, _, _, hopen, hclose, _⟩ := StackFrame.parts_of_ofChars? hframe
    have htext : StackFrame.IsInline (frame.normalizedText location line) :=
      StackFrame.isInline_normalizedText hmethod harguments fun l hl => ⟨(hfile l hl).1, (hfile l hl).2.1⟩
    have hparse : StackFrame.parse? (frame.normalized location (lineTerminator line)) = none :=
      StackFrame.parse?_normalized hopen hclose fun l hl => (hfile l hl).2.2
    rw [heq]
    exact ⟨StackFrame.isLine_normalized htext, StackFrame.isSeparator_normalized htext, by rw [frameOf?, hparse]; rfl⟩

theorem isNormalLine_zipWith_rendered {modules : ModuleTable} {lines : List Bytes}
    {locations : List (Option SourceLocation)} (hlines : ∀ line ∈ lines, IsLine line ∧ isSeparator line = false)
    (hfiles : ∀ location ∈ locations, ∀ l ∈ location, IsHarmless l.fileText) :
    ∀ line ∈ List.zipWith (rendered modules) lines locations, IsNormalLine modules line := by
  intro out hout
  obtain ⟨i, hi, rfl⟩ := List.mem_iff_getElem.1 hout
  rw [List.length_zipWith] at hi
  have hi' : i < lines.length ∧ i < locations.length := by omega
  obtain ⟨hline, hsep⟩ := hlines _ (List.getElem_mem hi'.1)
  rw [List.getElem_zipWith]
  exact isNormalLine_rendered hline hsep (hfiles _ (List.getElem_mem hi'.2))

section Twice

variable {σ L : Type} [SourceLookups (StateM σ) L] (first : SymbolLoader (StateM σ) L) (s : σ) (input : Bytes)

/-- What a translation of a report writes. -/
def output : Bytes := ((translate first ⟨input, none⟩ .unlimited).run s).1.1.accepted

/-- The lines that a translation writes. -/
def outputLines : List Bytes := List.zipWith (rendered (footerModules input)) (bodyLines input) (foundLocations first s input)

theorem output_eq : output first s input = (outputLines first s input).flatten := by
  rw [output, Sink.unlimited, translate_eq_annotate]
  rfl

theorem length_outputLines : (outputLines first s input).length = (bodyLines input).length := by
  rw [outputLines, List.length_zipWith, length_foundLocations, Nat.min_self]

/-- A translation in front of the footer has the written lines as its body, and the footer as before. -/
theorem parts_of_output (hsep : ∃ line ∈ lineChunks input, isSeparator line = true)
    (hfiles : ∀ location ∈ foundLocations first s input, ∀ l ∈ location, IsHarmless l.fileText) :
    bodyLines (output first s input ++ (footerLines input).flatten) = outputLines first s input ∧
      footerModules (output first s input ++ (footerLines input).flatten) = footerModules input ∧
      ∀ line ∈ outputLines first s input, IsNormalLine (footerModules input) line := by
  have hbody : ∀ line ∈ bodyLines input, IsLine line ∧ isSeparator line = false := by
    intro line hline
    exact ⟨isLine_of_lineChunks (bodyLines_append_footerLines input).symm (footerLines_ne_nil hsep) line hline,
      isSeparator_of_mem_bodyLines hline⟩
  have hnormal : ∀ line ∈ outputLines first s input, IsNormalLine (footerModules input) line :=
    isNormalLine_zipWith_rendered hbody hfiles
  obtain ⟨hlines, hfooter⟩ := parts_of_otherBody (fun line hline => (hnormal line hline).1)
    (fun line hline => (hnormal line hline).2.1) input
  rw [output_eq]
  exact ⟨hlines, by rw [footerModules, hfooter, footerModules], hnormal⟩

/-- **A translation in front of the footer of its report is normal.** -/
theorem isNormal_output (hsep : ∃ line ∈ lineChunks input, isSeparator line = true)
    (hfiles : ∀ location ∈ foundLocations first s input, ∀ l ∈ location, IsHarmless l.fileText) :
    IsNormal (output first s input ++ (footerLines input).flatten) := by
  obtain ⟨hlines, hmodules, hnormal⟩ := parts_of_output first s input hsep hfiles
  intro line hline
  rw [hmodules]
  rw [hlines] at hline
  exact (hnormal line hline).2.2

/-- **Translating is idempotent.** For every report with a separator and all sources of debug information, if the names
of the source files that the first translation wrote stay part of their lines, then the translation in front of the
footer is written as it is. The second translation does the same in every monad and with every loader, so it never loads
anything. -/
theorem translate_idempotent {m : Type → Type} [Monad m] [LawfulMonad m] {L' : Type} [SourceLookups m L']
    (second : SymbolLoader m L')
    (hsep : ∃ line ∈ lineChunks input, isSeparator line = true)
    (hfiles : ∀ location ∈ foundLocations first s input, ∀ l ∈ location, IsHarmless l.fileText) :
    ∃ frames, translate second ⟨output first s input ++ (footerLines input).flatten, none⟩ .unlimited =
      pure (⟨output first s input, none, false⟩, .ok ⟨(bodyLines input).length, frames, 0, []⟩) := by
  obtain ⟨hlines, _, _⟩ := parts_of_output first s input hsep hfiles
  refine ⟨(outputLines first s input).countP fun line => (StackFrame.parse? line).isSome, ?_⟩
  rw [translate_of_isNormal second (isNormal_output first s input hsep hfiles), hlines, ← output_eq, length_outputLines]

end Twice

/-- A report with a frame whose method looks like another frame. -/
def nestedFrame : Bytes := Utf8.ofString ("Fault\n   at A!0x06000001!A.B at A!0x1!C(Int32 x) +0x4\r\n===\n" ++
  "MODULE: A => A, Version=1.0; G:0f8fad5b-d9cb-469f-a165-70867728950e; A:1\n")

/-- Counts how often it loads. -/
def countLoads : SymbolLoader (StateM Nat) := fun _ loads =>
  (.ok (some fun _ offset => some ⟨some "a.cs", offset⟩), loads + 1)

/-- What is left of the frame is no frame any more. -/
theorem translate_idempotent_nestedFrame :
    output countLoads 0 nestedFrame = Utf8.ofString "Fault\n   at A.B at A!0x1!C(Int32 x) in a.cs:line 4\r\n" ∧
      ∃ frames, translate countLoads ⟨output countLoads 0 nestedFrame ++ (footerLines nestedFrame).flatten, none⟩
        .unlimited = pure (⟨output countLoads 0 nestedFrame, none, false⟩, .ok ⟨2, frames, 0, []⟩) := by
  have hout : output countLoads 0 nestedFrame =
      Utf8.ofString "Fault\n   at A.B at A!0x1!C(Int32 x) in a.cs:line 4\r\n" := by decide +kernel
  have hlines : (bodyLines nestedFrame).length = 2 := by decide +kernel
  have h := translate_idempotent countLoads 0 nestedFrame countLoads (by decide +kernel) (by decide +kernel)
  rw [hlines] at h
  exact ⟨hout, h⟩

end Translate

end Symbolicate
