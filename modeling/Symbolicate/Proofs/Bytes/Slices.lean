import Mathlib.Algebra.Group.Nat.Defs
import Mathlib.Data.List.Basic
import Mathlib.Tactic.Common
import Symbolicate.Bytes.Basic

/-!
# Slices of concatenations

A number written little-endian reads back (`le_ofLe`). A slice whose bounds are those of a part is that part
(`slice?_of_eq`), so a number written at an offset is the number found there (`u32?_of_eq`), and a row of a table of rows
of one size is found at a multiple of that size (`slice?_flatMap`).
-/

namespace Symbolicate.Bytes

/-- A number that fits reads back from its little-endian bytes. -/
theorem le_ofLe {width n : Nat} (h : n < 256 ^ width) : le (ofLe width n) = n := by
  induction width generalizing n with
  | zero => simp only [Nat.pow_zero] at h; simp only [ofLe, le]; omega
  | succ width ih =>
    have hdiv : n / 256 < 256 ^ width := by
      rw [Nat.pow_succ] at h
      exact Nat.div_lt_of_lt_mul (by rw [Nat.mul_comm]; exact h)
    simp only [ofLe, le, ih hdiv, UInt8.toNat_ofNat']
    omega

theorem le_lt (b : Bytes) : le b < 256 ^ b.length := by
  induction b with
  | nil => exact Nat.one_pos
  | cons x rest ih =>
    have hx := x.toNat_lt
    rw [le, List.length_cons, Nat.pow_succ]
    omega

/-- A part of a concatenation, taken out by its place and length. -/
theorem take_drop_of_eq {b pre part post : Bytes} (h : b = pre ++ (part ++ post)) {start len : Nat}
    (hs : pre.length = start) (hl : part.length = len) : (b.drop start).take len = part := by
  rw [h, List.drop_left' hs, List.take_left' hl]

/-- **A slice with the bounds of a part is that part.** -/
theorem slice?_of_eq {b pre part post : Bytes} (h : b = pre ++ (part ++ post)) {start len : Nat}
    (hs : pre.length = start) (hl : part.length = len) : slice? b start len = some part := by
  rw [slice?, if_pos (by rw [h]; simp only [List.length_append]; omega), take_drop_of_eq h hs hl]

theorem u32?_of_eq {b pre post : Bytes} {n : Nat} (h : b = pre ++ (ofLe 4 n ++ post)) {start : Nat}
    (hs : pre.length = start) (hn : n < 2 ^ 32) : u32? b start = some n := by
  rw [u32?, slice?_of_eq h hs (length_ofLe 4 n), Option.map_some, le_ofLe (by omega)]

/-- The number written by the bytes at an offset. -/
theorem le_take_drop {b pre post : Bytes} {width n : Nat} (h : b = pre ++ (ofLe width n ++ post)) {start : Nat}
    (hs : pre.length = start) (hn : n < 256 ^ width) : le ((b.drop start).take width) = n := by
  rw [take_drop_of_eq h hs (length_ofLe width n), le_ofLe hn]

theorem le_of_slice? {b part : Bytes} {start len : Nat} (h : slice? b start len = some part) :
    start + len ≤ b.length := by
  unfold slice? at h
  split at h
  · assumption
  · cases h

theorem take_drop_of_slice? {b part : Bytes} {start len : Nat} (h : slice? b start len = some part) :
    (b.drop start).take len = part := by
  unfold slice? at h
  split at h
  · exact Option.some.inj h
  · cases h

theorem length_untilNul_le (b : Bytes) : (untilNul b).length ≤ b.length := (List.takeWhile_prefix _).length_le

theorem slice?_append {a : Bytes} {start len : Nat} (h : start + len ≤ a.length) (b : Bytes) :
    slice? (a ++ b) start len = some ((a.drop start).take len) := by
  rw [slice?, if_pos (by rw [List.length_append]; omega), List.drop_append_of_le_length (by omega),
    List.take_append_of_le_length (by rw [List.length_drop]; omega)]

/-- A slice is where it was when the string grows. -/
theorem slice?_append_of_eq {a s : Bytes} {start len : Nat} (h : slice? a start len = some s) (b : Bytes) :
    slice? (a ++ b) start len = some s := by
  have hlen := le_of_slice? h
  rw [slice?, if_pos hlen] at h
  rw [slice?_append hlen, h]

/-- The end of a slice is a slice. -/
theorem slice?_drop_of_eq {b s : Bytes} {start len : Nat} (h : slice? b start len = some s) {i : Nat} (hi : i ≤ len) :
    slice? b (start + i) (len - i) = some (s.drop i) := by
  have hlen := le_of_slice? h
  rw [slice?, if_pos hlen] at h
  cases h
  rw [slice?, if_pos (by omega), List.drop_take, List.drop_drop]

/-- What stands in front of a NUL does not depend on what follows it. -/
theorem untilNul_append_of_lt {a : Bytes} (h : (untilNul a).length < a.length) (b : Bytes) :
    untilNul (a ++ b) = untilNul a := by
  unfold untilNul at h ⊢
  rw [List.takeWhile_append, if_neg (Nat.ne_of_lt h)]

/-! ## Sums of sizes -/

theorem total_append (xs ys : List Nat) : total (xs ++ ys) = total xs + total ys := by
  induction xs with
  | nil => rw [List.nil_append, total_nil, Nat.zero_add]
  | cons x xs ih => rw [List.cons_append, total_cons, total_cons, ih, Nat.add_assoc]

/-- A size and those in front of it are not more than all sizes together. -/
theorem total_take_add_le (sizes : List Nat) {i : Nat} (h : i < sizes.length) :
    total (sizes.take i) + sizes.getD i 0 ≤ total sizes := by
  have hsplit : sizes = sizes.take i ++ sizes.getD i 0 :: sizes.drop (i + 1) := by
    rw [List.getD_eq_getElem?_getD, List.getElem?_eq_getElem h, Option.getD_some, List.getElem_cons_drop,
      List.take_append_drop]
  have htotal := congrArg total hsplit
  rw [total_append, total_cons] at htotal
  omega

/-! ## Rows of one size -/

variable {α : Type} {f : α → Bytes} {size : Nat}

theorem length_flatMap_rows {xs : List α} (hf : ∀ a ∈ xs, (f a).length = size) :
    (xs.flatMap f).length = xs.length * size := by
  induction xs with
  | nil => simp
  | cons x xs ih =>
    rw [List.flatMap_cons, List.length_append, ih (fun a ha => hf a (by simp [ha])), hf x (by simp), List.length_cons,
      Nat.succ_mul, Nat.add_comm]

/-- Rows of one size lie at multiples of it. -/
theorem exists_flatMap_rows : ∀ {xs : List α}, (∀ a ∈ xs, (f a).length = size) → ∀ {i : Nat} {a : α}, xs[i]? = some a →
    ∃ pre post, xs.flatMap f = pre ++ (f a ++ post) ∧ pre.length = i * size
  | [], _, _, _, h => by simp at h
  | x :: xs, hf, 0, a, h => by
    cases h
    exact ⟨[], xs.flatMap f, rfl, by simp⟩
  | x :: xs, hf, i + 1, a, h => by
    obtain ⟨pre, post, heq, hlen⟩ := exists_flatMap_rows (fun a ha => hf a (by simp [ha])) (i := i) (a := a) h
    refine ⟨f x ++ pre, post, by rw [List.flatMap_cons, heq, List.append_assoc], ?_⟩
    rw [List.length_append, hf x (by simp), hlen, Nat.succ_mul, Nat.add_comm]

/-- **A cell of a row of a table** lies behind the rows before and the cells before. -/
theorem slice?_flatMap {xs : List α} (hf : ∀ a ∈ xs, (f a).length = size) {i : Nat} {a : α} (h : xs[i]? = some a)
    {pre part post : Bytes} (hrow : f a = pre ++ (part ++ post)) {start len : Nat} (hs : pre.length = start)
    (hl : part.length = len) : slice? (xs.flatMap f) (i * size + start) len = some part := by
  obtain ⟨before, behind, heq, hlen⟩ := exists_flatMap_rows hf h
  have hcell : xs.flatMap f = (before ++ pre) ++ (part ++ (post ++ behind)) := by
    rw [heq, hrow]
    simp only [List.append_assoc]
  exact slice?_of_eq hcell (by rw [List.length_append, hlen, hs]) hl

end Symbolicate.Bytes
