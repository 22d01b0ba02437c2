import Mathlib.Data.List.DropRight
import Mathlib.Tactic.Common
import Symbolicate.Proofs.Report.Lines

/-!
# Reports split without loss

There is one way to cut a text behind its line feeds (`isCut_iff`). The first separator of this cut divides a report:
what stands before it is kept as it is, and what stands behind it is read as modules and nothing else (`read_splits`).
-/

namespace Symbolicate

/-! ## The cut of a text -/

/-- A text cut behind its line feeds: the chunks give it back, and each ends with its only line feed. The last one may
lack it. -/
structure IsCut (input : Bytes) (chunks : List Bytes) : Prop where
  flatten : chunks.flatten = input
  lines : ∀ chunk ∈ chunks.dropLast, IsLine chunk
  last : ∀ chunk ∈ chunks.getLast?, chunk ≠ [] ∧ 0x0A ∉ chunk.dropLast

theorem ne_nil_of_mem_lineChunks {b chunk : Bytes} (h : chunk ∈ lineChunks b) : chunk ≠ [] ∧ 0x0A ∉ chunk.dropLast := by
  induction b generalizing chunk with
  | nil => cases h
  | cons c rest ih =>
    by_cases hc : c = 0x0A
    · subst hc
      rw [lineChunks_lf] at h
      rcases List.mem_cons.1 h with rfl | h
      · exact ⟨List.cons_ne_nil _ _, List.not_mem_nil⟩
      · exact ih h
    · rw [lineChunks_cons hc] at h
      rcases List.mem_cons.1 h with rfl | h
      · refine ⟨List.cons_ne_nil _ _, ?_⟩
        cases hrest : lineChunks rest with
        | nil => exact List.not_mem_nil
        | cons first others =>
          -- the first chunk of the rest has one more byte in front
          obtain ⟨hne, hfirst⟩ := ih (hrest ▸ List.mem_cons_self : first ∈ lineChunks rest)
          rw [List.headD_cons, List.dropLast_cons_of_ne_nil hne, List.mem_cons, not_or]
          exact ⟨fun heq => hc heq.symm, hfirst⟩
      · exact ih (List.mem_of_mem_tail h)

/-- A text whose line feed can only be its last byte is one chunk. -/
theorem lineChunks_of_notMem {b : Bytes} (hne : b ≠ []) (h : 0x0A ∉ b.dropLast) : lineChunks b = [b] := by
  induction b with
  | nil => exact absurd rfl hne
  | cons c rest ih =>
    cases rest with
    | nil =>
      by_cases hc : c = 0x0A
      · subst hc
        rw [lineChunks_lf]
        rfl
      · rw [lineChunks_cons hc]
        rfl
    | cons d rest =>
      rw [List.dropLast_cons_of_ne_nil (List.cons_ne_nil d rest), List.mem_cons, not_or] at h
      rw [lineChunks_cons fun heq => h.1 heq.symm, ih (List.cons_ne_nil d rest) h.2]
      rfl

theorem isCut_lineChunks (input : Bytes) : IsCut input (lineChunks input) where
  flatten := flatten_lineChunks input
  lines _ h := isLine_of_mem_dropLast h
  last _ h := ne_nil_of_mem_lineChunks (List.mem_of_getLast? h)

/-- **A text is cut in one way only.** -/
theorem isCut_iff {input : Bytes} {chunks : List Bytes} : IsCut input chunks ↔ chunks = lineChunks input := by
  constructor
  · intro h
    cases hlast : chunks.getLast? with
    | none =>
      have hnil : chunks = [] := List.getLast?_eq_none_iff.1 hlast
      rw [← h.flatten, hnil]
      rfl
    | some last =>
      obtain ⟨hne, hfeed⟩ := h.last last hlast
      have hsplit : chunks = chunks.dropLast ++ [last] := (List.dropLast_append_getLast? last hlast).symm
      have hinput : input = chunks.dropLast.flatten ++ last := by
        rw [← h.flatten]
        conv_lhs => rw [hsplit]
        simp
      rw [hinput, lineChunks_append h.lines, lineChunks_of_notMem hne hfeed]
      exact hsplit
  · rintro rfl
    exact isCut_lineChunks input

/-! ## The two parts -/

namespace ExceptionReport

/-- A line of the footer is decoded and read as a module without the line end behind it. -/
theorem footerModule?_eq : footerModule? = fun line =>
    ModuleInfo.parse? (String.ofList ((Utf8.decodeLossy line).rdropWhile fun c => c == '\r' || c == '\n')) := rfl

end ExceptionReport

/-- **A report is split without loss.** For every text there are chunks `before` and chunks `behind` that make up its
only cut, such that no chunk before holds three equals signs in a row, and the first one behind does if there is any.
The report has exactly the chunks before as its body, and a footer if there are chunks behind. Its modules are those
that the chunks behind the separator describe, registered in their order. -/
theorem read_splits (input : Bytes) : ∃ before behind : List Bytes,
    (∀ chunks, IsCut input chunks ↔ chunks = before ++ behind) ∧
    before.flatten ++ behind.flatten = input ∧
    (∀ chunk ∈ before, ¬ [0x3D, 0x3D, 0x3D] <:+: chunk) ∧
    (∀ separator ∈ behind.head?, [0x3D, 0x3D, 0x3D] <:+: separator) ∧
    (ReportSource.mk input none).read = .ok {
      lines := before
      hasFooter := decide (behind ≠ [])
      modules := .ofList ((behind.drop 1).filterMap fun line =>
        ModuleInfo.parse? (String.ofList ((Utf8.decodeLossy line).rdropWhile fun c => c == '\r' || c == '\n'))) } := by
  have hcut := bodyLines_append_footerLines input
  refine ⟨bodyLines input, footerLines input, fun chunks => by rw [isCut_iff, hcut], ?_, ?_, ?_, ?_⟩
  · rw [← List.flatten_append, hcut, flatten_lineChunks]
  · intro chunk hchunk
    rw [← isSeparator_iff, isSeparator_of_mem_bodyLines hchunk]
    exact Bool.false_ne_true
  · intro separator hseparator
    have hfirst := List.head?_dropWhile_not (! isSeparator ·) (lineChunks input)
    rw [show (lineChunks input).dropWhile (! isSeparator ·) = footerLines input from rfl, hseparator] at hfirst
    exact isSeparator_iff.1 (by simpa using hfirst)
  · have hfooter : (lineChunks input).any isSeparator = decide (footerLines input ≠ []) := by
      rw [Bool.eq_iff_iff, List.any_eq_true, decide_eq_true_iff, footerLines, ne_eq, List.dropWhile_eq_nil_iff]
      simp
    rw [ReportSource.read, ExceptionReport.parse_eq, hfooter, footerModules, ExceptionReport.footerModule?_eq]

end Symbolicate
