import Mathlib.Data.List.Induction
import Mathlib.Data.List.Nodup
import Mathlib.Tactic.Common

/-!
# First mentions

Lists whose members keep the place of their first mention. A member comes last unless it has been mentioned (`mention`);
the members of a list are mentioned one after the other in `List.eraseDups` (`eraseDups_concat`), where each keeps its
place when the list grows (`getElem?_eraseDups_append`). Where members have keys, the last one with a key stands where
the first one has stood (`place`), and is the one that is found by it (`find?_place`).
-/

namespace Symbolicate

variable {α β : Type*} [DecidableEq α] {l : List α} {a : α} {i : Nat}

/-! ## Members -/

/-- The list with one more mention of a member, which comes last if it is the first mention. -/
def mention (l : List α) (a : α) : List α := if a ∈ l then l else l ++ [a]

/-- Behind its mention a member has the place where it has been, or the last one. -/
theorem getElem?_mention (l : List α) (a : α) (i : Nat) :
    (mention l a)[i]? = if i = l.idxOf a then some a else l[i]? := by
  unfold mention
  split
  · next h =>
    split
    · next hi => rw [hi, List.getElem?_idxOf h]
    · rfl
  · next h =>
    rw [List.idxOf_eq_length h]
    split
    · next hi => rw [hi, List.getElem?_concat_length]
    · rw [List.getElem?_append]
      split
      · rfl
      · rw [List.getElem?_eq_none (by simp; omega), List.getElem?_eq_none (by omega)]

theorem nodup_mention (h : l.Nodup) (a : α) : (mention l a).Nodup := by
  unfold mention
  split
  · exact h
  · next hnew =>
    have hne : ∀ b ∈ l, b ≠ a := fun b hb => ne_of_mem_of_not_mem hb hnew
    exact List.nodup_append.2 ⟨h, List.nodup_singleton a, by simpa using hne⟩

theorem eraseDups_concat (l : List α) (a : α) : (l ++ [a]).eraseDups = mention l.eraseDups a := by
  rw [List.eraseDups_append]
  by_cases h : a ∈ l
  · simp [mention, List.removeAll, h]
  · simp [mention, List.removeAll, h, List.eraseDups_cons]

theorem nodup_eraseDups (l : List α) : l.eraseDups.Nodup := by
  induction l using List.reverseRecOn with
  | nil => exact List.nodup_nil
  | append_singleton l a ih =>
    rw [eraseDups_concat]
    exact nodup_mention ih a

/-- What has been mentioned keeps its place. -/
theorem getElem?_eraseDups_append (h : l.eraseDups[i]? = some a) (l' : List α) :
    (l ++ l').eraseDups[i]? = some a := by
  obtain ⟨hi, -⟩ := List.getElem?_eq_some_iff.1 h
  rw [List.eraseDups_append, List.getElem?_append_left hi, h]

/-- Every member is mentioned first at one place. -/
theorem eq_of_getElem?_eraseDups {j : Nat} (hi : l.eraseDups[i]? = some a) (hj : l.eraseDups[j]? = some a) :
    i = j := by
  obtain ⟨hlt, -⟩ := List.getElem?_eq_some_iff.1 hi
  exact (List.getElem?_inj hlt (nodup_eraseDups l)).1 (hi.trans hj.symm)

/-! ## Members with keys -/

section Keys

variable (key : β → α) (members : List β) (new : β)

/-- The list with a member in place of those with its key, or behind all others. -/
def place : List β :=
  if members.any fun old => key old == key new then members.map fun old => if key old = key new then new else old
  else members ++ [new]

theorem any_key_iff (k : α) : (members.any fun old => key old == k) = true ↔ k ∈ members.map key := by
  simp [List.any_eq_true]

/-- A key keeps its place, and a new one comes last. -/
theorem map_place : (place key members new).map key = mention (members.map key) (key new) := by
  by_cases hmem : key new ∈ members.map key
  · rw [place, if_pos ((any_key_iff ..).2 hmem), mention, if_pos hmem, List.map_map]
    refine List.map_congr_left fun old _ => ?_
    by_cases h : key old = key new <;> simp [h]
  · rw [place, if_neg (mt (any_key_iff ..).1 hmem), mention, if_neg hmem, List.map_append, List.map_singleton]

/-- **A member that has been placed is found by its key**, and others are found as before. -/
theorem find?_place (k : α) : ((place key members new).find? fun old => key old == k) =
    if k = key new then some new else members.find? fun old => key old == k := by
  by_cases hmem : key new ∈ members.map key
  · -- a member that is replaced keeps its key, so the same place is found
    have hsame : (fun old => key old == k) ∘ (fun old => if key old = key new then new else old) =
        fun old => key old == k := by
      funext old
      by_cases h : key old = key new <;> simp [h]
    rw [place, if_pos ((any_key_iff ..).2 hmem), List.find?_map, hsame]
    cases hfound : members.find? fun old => key old == k with
    | none =>
      have hk : k ∉ members.map key := by
        rw [← any_key_iff, List.any_eq_true]
        rintro ⟨old, hold, heq⟩
        exact List.find?_eq_none.1 hfound old hold heq
      rw [if_neg (ne_of_mem_of_not_mem hmem hk).symm, Option.map_none]
    | some old =>
      have hk : key old = k := by simpa using List.find?_some hfound
      rw [Option.map_some, hk]
      split <;> rfl
  · have hnone : (members.find? fun old => key old == key new) = none :=
      List.find?_eq_none.2 fun old hold heq => hmem ((any_key_iff ..).1 (List.any_eq_true.2 ⟨old, hold, heq⟩))
    rw [place, if_neg (mt (any_key_iff ..).1 hmem), List.find?_append]
    by_cases hk : k = key new
    · rw [hk, hnone, if_pos rfl, Option.none_or, List.find?_cons_of_pos (by simp)]
    · rw [if_neg hk, List.find?_cons_of_neg (by simpa using Ne.symm hk), List.find?_nil, Option.or_none]

end Keys

end Symbolicate
