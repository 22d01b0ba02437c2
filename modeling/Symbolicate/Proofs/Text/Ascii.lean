import Mathlib.Data.List.TakeWhile
import Mathlib.Tactic.Common
import Symbolicate.Text.Ascii

/-!
# Splitting texts, and fixed texts in either case

Splitting at a character is the library's (`splitOn_eq`), so the pieces joined with that character give the text back
(`intercalate_splitOn`). A fixed text is found in either case in front of the rest (`behind?_eq_some_iff`), and where it
has no letters it is found as it is (`eq_cons_of_behind?`). A run of characters ends where the next one is none of them
(`takeWhile_run`, `dropWhile_run`).
-/

namespace Symbolicate.Text

theorem splitOn_eq (sep : Char) (cs : List Char) : splitOn sep cs = cs.splitOn sep := by
  induction cs with
  | nil => rfl
  | cons c rest ih =>
    rw [splitOn, ih, List.splitOn_cons_eq_if_modifyHead]
    by_cases h : c = sep
    · rw [if_pos h, if_pos (by simpa using h)]
    · rw [if_neg h, if_neg (by simpa using h)]
      cases hp : rest.splitOn sep with
      | nil => exact absurd hp (List.splitOnP_ne_nil _ _)
      | cons piece pieces => rfl

/-- The pieces, joined with the character they were split at, are the text. -/
theorem intercalate_splitOn (sep : Char) (cs : List Char) : [sep].intercalate (splitOn sep cs) = cs := by
  rw [splitOn_eq, List.intercalate_splitOn]

theorem splitOn_ne_nil (sep : Char) (cs : List Char) : splitOn sep cs ≠ [] := by
  rw [splitOn_eq]
  exact List.splitOn_ne_nil sep cs

/-- Pieces do not reach across a separator. -/
theorem splitOn_append_cons (sep : Char) (front rest : List Char) :
    splitOn sep (front ++ sep :: rest) = splitOn sep front ++ splitOn sep rest := by
  rw [splitOn_eq, splitOn_eq, splitOn_eq, List.splitOn_append_cons_self]

/-- A text without separators is one piece. -/
theorem splitOn_of_notMem {sep : Char} {cs : List Char} (h : sep ∉ cs) : splitOn sep cs = [cs] := by
  rw [splitOn_eq, List.splitOn_eq_singleton h]

/-- Texts without separators, joined by them, are the pieces. -/
theorem splitOn_intercalate {sep : Char} {pieces : List (List Char)} (h : ∀ piece ∈ pieces, sep ∉ piece)
    (hne : pieces ≠ []) : splitOn sep ([sep].intercalate pieces) = pieces := by
  rw [splitOn_eq, List.splitOn_intercalate sep h hne]

/-- The characters of a piece are those of the text, without the separator. -/
theorem mem_of_mem_splitOn {sep c : Char} {cs piece : List Char} (hpiece : piece ∈ splitOn sep cs) (hc : c ∈ piece) :
    c ∈ cs ∧ c ≠ sep := by
  induction cs generalizing piece with
  | nil =>
    obtain rfl := List.mem_singleton.1 hpiece
    cases hc
  | cons d rest ih =>
    rw [splitOn] at hpiece
    split at hpiece
    · rcases List.mem_cons.1 hpiece with rfl | hpiece
      · cases hc
      · exact ⟨List.mem_cons_of_mem d (ih hpiece hc).1, (ih hpiece hc).2⟩
    · next hd =>
      cases hpieces : splitOn sep rest with
      | nil => exact absurd hpieces (splitOn_ne_nil sep rest)
      | cons first pieces =>
        rw [hpieces] at hpiece ih
        rcases List.mem_cons.1 hpiece with rfl | hpiece
        · rcases List.mem_cons.1 hc with rfl | hc
          · exact ⟨List.mem_cons_self, hd⟩
          · exact ⟨List.mem_cons_of_mem d (ih List.mem_cons_self hc).1, (ih List.mem_cons_self hc).2⟩
        · have hmem := ih (List.mem_cons_of_mem first hpiece) hc
          exact ⟨List.mem_cons_of_mem d hmem.1, hmem.2⟩

/-! ## Fixed texts -/

/-- The lower case of a character is the character, unless that is an upper-case letter. -/
theorem toLower_cases (c : Char) : c.toLower = c ∨
    0x41 ≤ c.toNat ∧ c.toNat ≤ 0x5A ∧ c.toLower.toNat = c.toNat + 32 := by
  unfold Char.toLower
  split
  · next hrange =>
    obtain ⟨hl, hu⟩ := hrange
    have hl' : 0x41 ≤ c.val.toNat := hl
    have hu' : c.val.toNat ≤ 0x5A := hu
    have hsum : (c.val + ('a'.val - 'A'.val)).toNat = (c.val.toNat + 32) % 2 ^ 32 := UInt32.toNat_add _ _
    exact .inr ⟨hl', hu', hsum.trans (Nat.mod_eq_of_lt (by omega))⟩
  · exact .inl rfl

/-- What is no lower-case letter is the lower case of itself alone. -/
theorem eq_of_toLower_eq {c d : Char} (h : c.toLower = d) (hd : d.toNat < 0x61 ∨ 0x7A < d.toNat) : c = d := by
  rcases toLower_cases c with heq | ⟨hl, hu, hsum⟩
  · exact heq.symm.trans h
  · rw [h] at hsum
    omega

/-- A lower-case letter is the lower case of two characters. -/
theorem eq_or_of_toLower_eq {c d e : Char} (h : c.toLower = d) (he : e.toNat + 32 = d.toNat) : c = d ∨ c = e := by
  rcases toLower_cases c with heq | ⟨_, _, hsum⟩
  · exact .inl (heq.symm.trans h)
  · rw [h, ← he] at hsum
    exact .inr (Char.ext (UInt32.toNat_inj.1 (show c.toNat = e.toNat by omega)))

/-- **A fixed text is found where the characters are those of the text, apart from their case.** -/
theorem behind?_eq_some_iff {fixed cs rest : List Char} : behind? fixed cs = some rest ↔
    ∃ front, cs = front ++ rest ∧ front.map Char.toLower = fixed.map Char.toLower := by
  constructor
  · intro h
    unfold behind? at h
    split at h
    · next heq =>
      cases h
      exact ⟨cs.take fixed.length, (List.take_append_drop _ _).symm, by simpa [eqIgnoringCase] using heq⟩
    · cases h
  · rintro ⟨front, rfl, hfront⟩
    have hlength : fixed.length = front.length := by simpa using (congrArg List.length hfront).symm
    rw [behind?, hlength, List.take_left, List.drop_left, if_pos (by simpa [eqIgnoringCase] using hfront)]

/-- The first of such characters is found as it is if it has no case. -/
theorem eq_cons_of_map_toLower {c : Char} (hletter : c.toNat < 0x61 ∨ 0x7A < c.toNat) {front fixed : List Char}
    (h : front.map Char.toLower = c :: fixed) : ∃ tail, front = c :: tail := by
  obtain ⟨d, tail, rfl, hd, _⟩ := List.map_eq_cons_iff.1 h
  exact ⟨tail, by rw [eq_of_toLower_eq hd hletter]⟩

theorem suffix_of_behind? {fixed cs rest : List Char} (h : behind? fixed cs = some rest) : rest <:+ cs := by
  unfold behind? at h
  split at h
  · cases h
    exact List.drop_suffix _ _
  · cases h

/-- A fixed character other than a letter is found as it is. -/
theorem eq_cons_of_behind? {c : Char} (hc : c.toLower = c) (hletter : c.toNat < 0x61 ∨ 0x7A < c.toNat)
    {cs rest : List Char} (h : behind? [c] cs = some rest) : cs = c :: rest := by
  unfold behind? at h
  split at h
  · next heq =>
    cases h
    cases cs with
    | nil => cases heq
    | cons d cs =>
      have hlower : d.toLower = c := by simpa [eqIgnoringCase, hc] using heq
      rw [eq_of_toLower_eq hlower hletter]
      rfl
  · cases h

/-! ## Runs -/

section Runs

variable {p : Char → Bool} {run rest : List Char}

theorem takeWhile_run (hrun : ∀ c ∈ run, p c = true) (hrest : ∀ c ∈ rest.head?, p c = false) :
    (run ++ rest).takeWhile p = run := by
  rw [List.takeWhile_append_of_pos hrun]
  cases rest with
  | nil => simp
  | cons c rest => simp [hrest c rfl]

theorem dropWhile_run (hrun : ∀ c ∈ run, p c = true) (hrest : ∀ c ∈ rest.head?, p c = false) :
    (run ++ rest).dropWhile p = rest := by
  rw [List.dropWhile_append_of_pos hrun]
  cases rest with
  | nil => rfl
  | cons c rest => simp [hrest c rfl]

theorem eq_false_of_head?_cons {c : Char} (h : p c = false) : ∀ d ∈ (c :: rest).head?, p d = false := by
  rintro d ⟨⟩
  exact h

/-- Behind a run comes none of its characters. -/
theorem eq_false_of_head?_dropWhile {cs : List Char} {c : Char} (h : c ∈ (cs.dropWhile p).head?) : p c = false := by
  have hnot := List.head?_dropWhile_not p cs
  rw [Option.mem_def] at h
  rw [h] at hnot
  exact hnot

end Runs

/-- A text is cut in front of the first of a character that has no case. -/
theorem behind?_dropWhile_iff {c : Char} (hc : c.toLower = c) (hletter : c.toNat < 0x61 ∨ 0x7A < c.toNat)
    {cs front rest : List Char} :
    cs.takeWhile (· ≠ c) = front ∧ behind? [c] (cs.dropWhile (· ≠ c)) = some rest ↔
      cs = front ++ c :: rest ∧ c ∉ front := by
  constructor
  · rintro ⟨rfl, hbehind⟩
    refine ⟨?_, fun hmem => ?_⟩
    · rw [← eq_cons_of_behind? hc hletter hbehind, List.takeWhile_append_dropWhile]
    · simpa using List.mem_takeWhile_imp hmem
  · rintro ⟨rfl, hfront⟩
    have hrun : ∀ d ∈ front, decide (d ≠ c) = true := fun d hd => decide_eq_true (ne_of_mem_of_not_mem hd hfront)
    have hstop : ∀ d ∈ (c :: rest).head?, decide (d ≠ c) = false := eq_false_of_head?_cons (by simp)
    exact ⟨takeWhile_run hrun hstop, by
      rw [dropWhile_run hrun hstop]
      exact behind?_eq_some_iff.2 ⟨[c], rfl, rfl⟩⟩

/-! ## Numbers -/

/-- A number in decimal is made of digits alone. -/
theorem isDigit_of_mem_decimal {n : Nat} {c : Char} (h : c ∈ decimal n) : c.isDigit = true :=
  Nat.isDigit_of_mem_toDigits (by omega) (by omega) h

/-- Different numbers are written differently. -/
theorem decimal_injective : Function.Injective decimal := fun m n h => by
  rw [← Nat.ofDigitChars_ten_toDigits (n := m), ← Nat.ofDigitChars_ten_toDigits (n := n)]
  exact congrArg (Nat.ofDigitChars 10 · 0) h

/-- A number in decimal is read as that number. -/
theorem ofDecimal?_decimal (n : Nat) : ofDecimal? (decimal n) = some n := by
  have hdigits : ¬ ((decimal n).isEmpty ∨ (decimal n).any (! ·.isDigit)) := by
    rw [not_or, List.isEmpty_iff, List.any_eq_true]
    refine ⟨Nat.toDigits_ne_nil, ?_⟩
    rintro ⟨c, hc, hnot⟩
    simp [isDigit_of_mem_decimal hc] at hnot
  rw [ofDecimal?, if_neg hdigits]
  exact congrArg some Nat.ofDigitChars_ten_toDigits

end Symbolicate.Text
