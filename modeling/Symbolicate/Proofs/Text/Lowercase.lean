import Mathlib.Tactic.Common
import Symbolicate.Text.Blank
import Symbolicate.Text.Lowercase

/-!
# Lower case of names

Nothing below the capital letters has a lower-case form of its own (`lowerFrom_of_lt`), and a number sign ends a word
(`meetsLetter_append_hash`). So a name with a number behind it is lowered by lowering the name
(`lowercase_numbered`). Lower case neither makes nor removes blanks (`hasBlank_lowercase`), since neither the characters
that have a lower-case form nor these forms are blank.
-/

namespace Symbolicate.Text

/-! ## Numbers -/

theorem lowerChar_of_lt {c : Char} (h : c.toNat < 0x41) : lowerChar c = c := by
  have hrows : ∀ r ∈ lowerRows, 0x41 ≤ r.1 := by decide +kernel
  have hnone : (lowerRows.find? fun r => r.1 ≤ c.toNat && c.toNat ≤ r.2.1 && (c.toNat - r.1) % r.2.2.1 == 0) = none := by
    refine List.find?_eq_none.2 fun r hr hmatch => ?_
    have := hrows r hr
    simp only [Bool.and_eq_true, decide_eq_true_eq] at hmatch
    omega
  rw [lowerChar, hnone]

/-- What has no letters is its own lower case. -/
theorem lowerFrom_of_lt {before cs : List Char} (h : ∀ c ∈ cs, c.toNat < 0x41) : lowerFrom before cs = cs := by
  induction cs generalizing before with
  | nil => rfl
  | cons c cs ih =>
    have hc := h c List.mem_cons_self
    have hsigma : c ≠ 'Σ' := by rintro rfl; exact absurd hc (by decide)
    have hdotted : c ≠ 'İ' := by rintro rfl; exact absurd hc (by decide)
    have hcs : lowerFrom (c :: before) cs = cs := ih fun d hd => h d (List.mem_cons_of_mem _ hd)
    simp only [lowerFrom, if_neg hsigma, if_neg hdotted, lowerChar_of_lt hc, hcs, List.singleton_append]

/-- A number sign ends a word: it is no letter, and it is not ignored between letters. -/
theorem meetsLetter_append_hash (cs ds : List Char) : meetsLetter (cs ++ '#' :: ds) = meetsLetter cs := by
  induction cs with
  | nil =>
    have hignored : inRanges caseIgnorableRanges '#'.toNat = false := by decide +kernel
    have hcased : inRanges casedRanges '#'.toNat = false := by decide +kernel
    simp only [List.nil_append, meetsLetter, hignored, hcased, Bool.false_eq_true, if_false]
  | cons c cs ih => simp only [List.cons_append, meetsLetter, ih]

/-- A text is lowered alone when a number sign follows. -/
theorem lowerFrom_append_hash (before cs ds : List Char) :
    lowerFrom before (cs ++ '#' :: ds) = lowerFrom before cs ++ lowerFrom (cs.reverse ++ before) ('#' :: ds) := by
  induction cs generalizing before with
  | nil => rfl
  | cons c cs ih =>
    rw [List.cons_append, lowerFrom, meetsLetter_append_hash, ih, ← List.append_assoc, List.reverse_cons,
      List.append_assoc cs.reverse, List.singleton_append]
    rfl

/-- **A numbered name is lowered by lowering the name.** -/
theorem lowercase_numbered (name : String) {ds : List Char} (h : ∀ c ∈ ds, c.toNat < 0x41) :
    lowercase (name ++ "#" ++ String.ofList ds) = lowercase name ++ "#" ++ String.ofList ds := by
  have hds : ∀ c ∈ '#' :: ds, c.toNat < 0x41 := List.forall_mem_cons.2 ⟨by decide, h⟩
  have hlist : (name ++ "#" ++ String.ofList ds).toList = name.toList ++ '#' :: ds := by simp
  rw [lowercase, hlist, lowerFrom_append_hash, lowerFrom_of_lt hds, lowercase]
  apply String.toList_injective
  simp

/-! ## Blanks -/

/-- Whether a text has a blank somewhere. -/
def hasBlank (s : String) : Bool := s.toList.any isBlank

/-- Where the blanks are. -/
def blankRanges : List (Nat × Nat) :=
  [(0x09, 0x0D), (0x20, 0x20), (0x85, 0x85), (0xA0, 0xA0), (0x1680, 0x1680), (0x2000, 0x200A), (0x2028, 0x2028),
    (0x2029, 0x2029), (0x202F, 0x202F), (0x205F, 0x205F), (0x3000, 0x3000)]

theorem isBlank_iff {c : Char} : isBlank c = true ↔ ∃ b ∈ blankRanges, b.1 ≤ c.toNat ∧ c.toNat ≤ b.2 := by
  simp only [isBlank, Bool.or_eq_true, Bool.and_eq_true, decide_eq_true_eq, beq_iff_eq, blankRanges, List.mem_cons,
    List.not_mem_nil, or_false, exists_eq_or_imp, ↓existsAndEq, true_and]
  omega

/-- No blank is between the ends of a row, and none is between its lower-case forms. -/
theorem blank_outside_rows : ∀ r ∈ lowerRows, ∀ b ∈ blankRanges, (r.2.1 < b.1 ∨ b.2 < r.1) ∧
    (r.2.2.2 + (r.2.1 - r.1) < b.1 ∨ b.2 < r.2.2.2) := by decide +kernel

theorem isBlank_ofNat {n : Nat} (h : ∀ b ∈ blankRanges, n < b.1 ∨ b.2 < n) : isBlank (Char.ofNat n) = false := by
  by_cases hvalid : n.isValidChar
  · have hnumber : (Char.ofNat n).toNat = n := congrArg Char.toNat (dif_pos hvalid)
    rw [← Bool.not_eq_true, isBlank_iff, hnumber]
    rintro ⟨b, hb, hle, hge⟩
    have houtside := h b hb
    omega
  · -- a number that is no character stands for zero
    have hzero : (Char.ofNat n).toNat = 0 := congrArg Char.toNat (dif_neg hvalid)
    rw [← Bool.not_eq_true, isBlank_iff, hzero]
    decide

theorem isBlank_lowerChar (c : Char) : isBlank (lowerChar c) = isBlank c := by
  rw [lowerChar]
  split
  · next r hr =>
    have hmem := List.mem_of_find?_eq_some hr
    have hrow := List.find?_some hr
    simp only [Bool.and_eq_true, decide_eq_true_eq] at hrow
    have hlowered : isBlank (Char.ofNat (r.2.2.2 + (c.toNat - r.1))) = false := by
      apply isBlank_ofNat
      intro b hb
      have houtside := blank_outside_rows r hmem b hb
      omega
    have hcapital : isBlank c = false := by
      rw [← Bool.not_eq_true, isBlank_iff]
      rintro ⟨b, hb, hle, hge⟩
      have houtside := blank_outside_rows r hmem b hb
      omega
    rw [hlowered, hcapital]
  · rfl

theorem any_isBlank_lowerFrom (before cs : List Char) : (lowerFrom before cs).any isBlank = cs.any isBlank := by
  induction cs generalizing before with
  | nil => rfl
  | cons c cs ih =>
    simp only [lowerFrom, List.any_append, ih, List.any_cons]
    congr 1
    split
    · next hsigma =>
      subst hsigma
      split <;> rfl
    · split
      · next hdotted =>
        subst hdotted
        rfl
      · simp only [List.any_cons, List.any_nil, Bool.or_false, isBlank_lowerChar]

/-- **Lower case neither makes nor removes blanks.** -/
theorem hasBlank_lowercase (s : String) : hasBlank (lowercase s) = hasBlank s := by
  rw [hasBlank, lowercase, String.toList_ofList, any_isBlank_lowerFrom]
  rfl

end Symbolicate.Text
