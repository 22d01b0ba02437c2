import Mathlib.Data.List.DropRight
import Mathlib.Data.List.TakeWhile
import Mathlib.Tactic.Common
import Symbolicate.Proofs.Text.Ascii
import Symbolicate.Text.Blank

/-!
# Trimming

What has no blanks at its ends is not changed by trimming (`trimmed_eq_self`), and what has been trimmed has none
(`isTrim_trimmed`).
-/

namespace Symbolicate.Text

variable {cs : List Char}

/-- No blank at either end. -/
structure IsTrim (cs : List Char) : Prop where
  first : ∀ c ∈ cs.head?, isBlank c = false
  last : ∀ c ∈ cs.getLast?, isBlank c = false

/-- What has no blanks at its ends stays as it is. -/
theorem trimmed_eq_self (h : IsTrim cs) : trimmed cs = cs := by
  have hfirst : cs.dropWhile isBlank = cs := by
    cases cs with
    | nil => rfl
    | cons c cs => exact List.dropWhile_cons_of_neg (by simp [h.first c rfl])
  rw [trimmed, hfirst]
  refine List.rdropWhile_eq_self_iff.2 fun hne => ?_
  rw [h.last _ (List.getLast?_eq_getLast_of_ne_nil hne)]
  exact Bool.false_ne_true

/-- What has been trimmed has no blanks at its ends. -/
theorem isTrim_trimmed (cs : List Char) : IsTrim (trimmed cs) where
  first c hc := by
    obtain ⟨blanks, hblanks⟩ : trimmed cs <+: cs.dropWhile isBlank := List.rdropWhile_prefix _ _
    have hhead : c ∈ (cs.dropWhile isBlank).head? := by
      rw [Option.mem_def] at hc ⊢
      rw [← hblanks, List.head?_append, hc, Option.some_or]
    exact eq_false_of_head?_dropWhile hhead
  last c hc := by
    rw [trimmed, dropEndWhile, List.getLast?_reverse] at hc
    exact eq_false_of_head?_dropWhile hc

/-- A word without blanks has none at its ends. -/
theorem isTrim_of_all (h : cs.all (! isBlank ·) = true) : IsTrim cs where
  first c hc := by simpa using List.all_eq_true.1 h c (List.mem_of_mem_head? hc)
  last c hc := by simpa using List.all_eq_true.1 h c (List.mem_of_getLast? hc)

theorem trimmed_of_forall (h : ∀ c ∈ cs, isBlank c = false) : trimmed cs = cs := by
  apply trimmed_eq_self
  apply isTrim_of_all
  rw [List.all_eq_true]
  intro c hc
  simp [h c hc]

theorem IsTrim.append {front rest : List Char} (hfront : IsTrim front) (hrest : IsTrim rest) (hne : front ≠ [])
    (hne' : rest ≠ []) : IsTrim (front ++ rest) where
  first c hc := by
    rw [List.head?_append_of_ne_nil _ hne] at hc
    exact hfront.first c hc
  last c hc := by
    rw [List.getLast?_append_of_ne_nil _ hne'] at hc
    exact hrest.last c hc

theorem isBlank_of_isDigit {c : Char} (h : c.isDigit = true) : isBlank c = false := by
  have hrange : (decide (c.val ≥ '0'.val) && decide (c.val ≤ '9'.val)) = true := h
  simp only [Bool.and_eq_true, decide_eq_true_eq, ge_iff_le, UInt32.le_iff_toNat_le] at hrange
  have hdigit : 0x30 ≤ c.toNat ∧ c.toNat ≤ 0x39 := hrange
  simp only [isBlank, Bool.or_eq_false_iff, Bool.and_eq_false_iff, decide_eq_false_iff_not, beq_eq_false_iff_ne]
  omega

theorem mem_of_mem_trimmed {c : Char} (h : c ∈ trimmed cs) : c ∈ cs := by
  have hfront : trimmed cs <+: cs.dropWhile isBlank := List.rdropWhile_prefix _ _
  exact (List.dropWhile_suffix _).mem (hfront.mem h)

end Symbolicate.Text
