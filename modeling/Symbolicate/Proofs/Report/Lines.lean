import Mathlib.Data.List.DropRight
import Mathlib.Data.List.Infix
import Mathlib.Data.List.TakeWhile
import Mathlib.Tactic.Common
import Symbolicate.Report.Basic

/-!
# Lines of reports

A text is cut into lines that give it back when they are put together (`flatten_lineChunks`), and texts that end with a
line feed are cut one after the other (`lineChunks_append`). The body of a report are the lines before the first
separator, and its modules are those of the lines behind it (`parse_eq`).
-/

namespace Symbolicate

/-! ## Cutting a text into lines -/

theorem lineChunks_lf (rest : Bytes) : lineChunks (0x0A :: rest) = [0x0A] :: lineChunks rest := by
  rw [lineChunks, if_pos rfl]

/-- A byte other than a line feed belongs to the line that follows it. -/
theorem lineChunks_cons {b : UInt8} (h : b ≠ 0x0A) (rest : Bytes) :
    lineChunks (b :: rest) = (b :: (lineChunks rest).headD []) :: (lineChunks rest).tail := by
  rw [lineChunks, if_neg h]
  cases lineChunks rest <;> rfl

/-- **The lines of a text give it back.** -/
theorem flatten_lineChunks (b : Bytes) : (lineChunks b).flatten = b := by
  induction b with
  | nil => rfl
  | cons c rest ih =>
    by_cases h : c = 0x0A
    · subst h
      rw [lineChunks_lf, List.flatten_cons, ih, List.singleton_append]
    · rw [lineChunks_cons h, List.flatten_cons, List.cons_append]
      conv_rhs => rw [← ih]
      cases lineChunks rest <;> simp

theorem lineChunks_line {line : Bytes} (h : 0x0A ∉ line) (rest : Bytes) :
    lineChunks (line ++ 0x0A :: rest) = (line ++ [0x0A]) :: lineChunks rest := by
  induction line with
  | nil => exact lineChunks_lf rest
  | cons c line ih =>
    rw [List.mem_cons, not_or] at h
    rw [List.cons_append, lineChunks_cons (fun heq => h.1 heq.symm), ih h.2]
    rfl

/-- A line as it is cut off a text: one line feed, at the end. -/
def IsLine (line : Bytes) : Prop := ∃ text, 0x0A ∉ text ∧ line = text ++ [0x0A]

/-- Lines put in front of a text are the first ones that are cut off. -/
theorem lineChunks_append {lines : List Bytes} (h : ∀ line ∈ lines, IsLine line) (rest : Bytes) :
    lineChunks (lines.flatten ++ rest) = lines ++ lineChunks rest := by
  induction lines with
  | nil => rfl
  | cons line lines ih =>
    obtain ⟨text, htext, rfl⟩ := h line (by simp)
    rw [List.flatten_cons, List.append_assoc, List.append_assoc, List.singleton_append, lineChunks_line htext,
      ih (fun l hl => h l (by simp [hl])), List.cons_append]

/-- Behind a line that has been cut off, the text goes on with the lines that are left. -/
theorem lineChunks_flatten_tail {b line : Bytes} {lines : List Bytes} (h : lineChunks b = line :: lines) :
    lineChunks lines.flatten = lines := by
  induction b generalizing line lines with
  | nil => cases h
  | cons c rest ih =>
    by_cases hc : c = 0x0A
    · subst hc
      rw [lineChunks_lf, List.cons.injEq] at h
      rw [← h.2, flatten_lineChunks]
    · rw [lineChunks_cons hc, List.cons.injEq] at h
      cases hrest : lineChunks rest with
      | nil => rw [← h.2, hrest]; rfl
      | cons first others =>
        rw [← h.2, hrest, List.tail_cons]
        exact ih hrest

/-- The last lines of a text are cut again as they were. -/
theorem lineChunks_flatten_drop {b : Bytes} {before behind : List Bytes} (h : lineChunks b = before ++ behind) :
    lineChunks behind.flatten = behind := by
  induction before generalizing b with
  | nil =>
    rw [List.nil_append] at h
    rw [← h, flatten_lineChunks]
  | cons line before ih => exact ih (lineChunks_flatten_tail h)

theorem isLine_of_mem_dropLast {b line : Bytes} (h : line ∈ (lineChunks b).dropLast) : IsLine line := by
  induction b generalizing line with
  | nil => cases h
  | cons c rest ih =>
    by_cases hc : c = 0x0A
    · subst hc
      rw [lineChunks_lf] at h
      rcases List.mem_cons.1 (List.mem_of_mem_dropLast h) with rfl | _
      · exact ⟨[], by simp, rfl⟩
      · cases hrest : lineChunks rest with
        | nil => rw [hrest] at h; cases h
        | cons first others =>
          rw [hrest, List.dropLast_cons_of_ne_nil (by simp), ← hrest] at h
          rcases List.mem_cons.1 h with rfl | h
          · exact ⟨[], by simp, rfl⟩
          · exact ih h
    · rw [lineChunks_cons hc] at h
      cases hrest : lineChunks rest with
      | nil => rw [hrest] at h; cases h
      | cons first others =>
        rw [hrest, List.headD_cons, List.tail_cons] at h
        cases others with
        | nil => cases h
        | cons second others =>
          rw [List.dropLast_cons_of_ne_nil (by simp)] at h
          rcases List.mem_cons.1 h with rfl | h
          · -- the first line is the one of the rest with one more byte
            have hfirst : first ∈ (lineChunks rest).dropLast := by
              rw [hrest]
              simp
            obtain ⟨text, htext, rfl⟩ := ih hfirst
            refine ⟨c :: text, ?_, rfl⟩
            rw [List.mem_cons, not_or]
            exact ⟨fun heq => hc heq.symm, htext⟩
          · refine ih ?_
            rw [hrest, List.dropLast_cons_of_ne_nil (by simp)]
            exact List.mem_cons_of_mem _ h

/-- Lines with another one behind them end with a line feed. -/
theorem isLine_of_lineChunks {b : Bytes} {before behind : List Bytes} (h : lineChunks b = before ++ behind)
    (hne : behind ≠ []) : ∀ line ∈ before, IsLine line := by
  intro line hline
  refine isLine_of_mem_dropLast (b := b) ?_
  rw [h, List.dropLast_append_of_ne_nil hne]
  exact List.mem_append_left _ hline

/-! ## Separators -/

/-- A separator is a line with three equals signs in a row. -/
theorem isSeparator_iff {line : Bytes} : isSeparator line = true ↔ [0x3D, 0x3D, 0x3D] <:+: line := by
  fun_induction isSeparator line with
  | case1 rest => exact ⟨fun _ => ⟨[], rest, rfl⟩, fun _ => rfl⟩
  | case2 c rest hno ih =>
    rw [ih, List.infix_cons_iff]
    constructor
    · exact .inr
    · rintro (⟨more, hmore⟩ | h)
      · simp only [List.cons_append, List.nil_append, List.cons.injEq] at hmore
        exact absurd hmore.2.symm (hno more hmore.1.symm)
      · exact h
  | case3 => simp

/-! ## The parts of a report -/

/-- The lines of a text in front of the first separator. -/
def bodyLines (input : Bytes) : List Bytes := (lineChunks input).takeWhile (! isSeparator ·)

/-- The lines of a text from the first separator on. -/
def footerLines (input : Bytes) : List Bytes := (lineChunks input).dropWhile (! isSeparator ·)

/-- The modules that the lines behind the first separator register. -/
def footerModules (input : Bytes) : ModuleTable :=
  .ofList (((footerLines input).drop 1).filterMap ExceptionReport.footerModule?)

theorem bodyLines_append_footerLines (input : Bytes) : bodyLines input ++ footerLines input = lineChunks input :=
  List.takeWhile_append_dropWhile

theorem isSeparator_of_mem_bodyLines {input line : Bytes} (h : line ∈ bodyLines input) : isSeparator line = false := by
  simpa using List.mem_takeWhile_imp h

/-- Other lines may stand in front of a footer: they are the body then, and the footer stays. -/
theorem parts_of_otherBody {lines : List Bytes} (hlines : ∀ line ∈ lines, IsLine line)
    (hseparator : ∀ line ∈ lines, isSeparator line = false) (input : Bytes) :
    bodyLines (lines.flatten ++ (footerLines input).flatten) = lines ∧
      footerLines (lines.flatten ++ (footerLines input).flatten) = footerLines input := by
  have hchunks : lineChunks (lines.flatten ++ (footerLines input).flatten) = lines ++ footerLines input := by
    rw [lineChunks_append hlines, lineChunks_flatten_drop (bodyLines_append_footerLines input).symm]
  have hdrop : (footerLines input).dropWhile (! isSeparator ·) = footerLines input := List.dropWhile_idempotent _ _
  have htake : (footerLines input).takeWhile (! isSeparator ·) = [] := by
    have happend := List.takeWhile_append_dropWhile (p := (! isSeparator ·)) (l := footerLines input)
    rwa [hdrop, List.append_left_eq_self] at happend
  have hbody : ∀ line ∈ lines, (! isSeparator line) = true := by
    intro line hline
    rw [hseparator line hline]
    rfl
  constructor
  · rw [bodyLines, hchunks, List.takeWhile_append_of_pos hbody, htake, List.append_nil]
  · rw [footerLines, hchunks, List.dropWhile_append_of_pos hbody, hdrop]

theorem footerLines_ne_nil {input : Bytes} (h : ∃ line ∈ lineChunks input, isSeparator line = true) :
    footerLines input ≠ [] := by
  obtain ⟨line, hmem, hline⟩ := h
  intro hnil
  have hnot := List.dropWhile_eq_nil_iff.1 hnil line hmem
  rw [hline] at hnot
  cases hnot

namespace ExceptionReport

theorem foldl_addLine_footer (lines : List Bytes) (body : List Bytes) (t : ModuleTable) :
    lines.foldl addLine ⟨body, t, true⟩ = ⟨body, t.extend (lines.filterMap footerModule?), true⟩ := by
  induction lines generalizing t with
  | nil => rfl
  | cons line lines ih =>
    rw [List.foldl_cons, addLine, if_pos rfl, List.filterMap_cons]
    cases footerModule? line with
    | none => exact ih t
    | some m => exact ih (t.insert m).1

theorem foldl_addLine_body (lines : List Bytes) (body : List Bytes) :
    lines.foldl addLine ⟨body, .empty, false⟩ =
      ⟨body ++ lines.takeWhile (! isSeparator ·),
        .ofList (((lines.dropWhile (! isSeparator ·)).drop 1).filterMap footerModule?),
        lines.any isSeparator⟩ := by
  induction lines generalizing body with
  | nil => simp [ModuleTable.ofList, ModuleTable.extend]
  | cons line lines ih =>
    rw [List.foldl_cons, addLine, if_neg (by simp)]
    cases hsep : isSeparator line with
    | true =>
      rw [if_pos rfl, foldl_addLine_footer]
      simp [hsep, ModuleTable.ofList]
    | false =>
      rw [if_neg (by simp), ih]
      simp [hsep]

/-- **A report is its body and its modules**: the lines before the first separator, and the modules of those behind. -/
theorem parse_eq (input : Bytes) :
    parse input = ⟨bodyLines input, footerModules input, (lineChunks input).any isSeparator⟩ := by
  rw [parse, empty, foldl_addLine_body]
  rfl

end ExceptionReport

end Symbolicate
