import Mathlib.Data.Nat.Find
import Mathlib.Tactic.Common
import Symbolicate.NativePdb.LineIndex

/-!
# Look-ups that move on from markers

Each place that a look-up tries is an address: there it meets no line (`MeetsNothing`), a marker (`MeetsMarker`) or a
line with a source (`MeetsLine`). A marker costs one try and moves the look-up 32 bytes on (`resolve_of_marker`), so
behind `k` markers it stands `32 * k` bytes further (`resolve_of_markers`); anything else ends it. Of nine tries, either
all meet markers or there is a first one that does not, and that one decides (`sourceLocation_iff`).
-/

namespace Symbolicate

namespace SourceLocation

theorem of?_eq_some_iff {file : Option String} {line : UInt32} {l : SourceLocation} :
    of? file line = some l ↔ line ≠ 0 ∧ l = ⟨file, line⟩ := by
  unfold of?
  split
  · next h => simp [h]
  · next h => simp [h, eq_comm]

theorem of?_eq_none_iff {file : Option String} {line : UInt32} : of? file line = none ↔ line = 0 := by
  unfold of?
  split
  · next h => simp [h]
  · next h => simp [h]

end SourceLocation

namespace NativePdb.LineIndex

/-! ## What a try meets -/

/-- The address of try `k` when a look-up starts at `offset` of a method, however large it is. -/
def tryAddress (m : ManagedMethod) (offset : UInt32) (k : Nat) : Nat := m.offset + offset.toNat + 32 * k

/-- An address that is too large, or one without a line. -/
def MeetsNothing (m : ManagedMethod) (address : Nat) : Prop :=
  0x100000000 ≤ address ∨ m.lineAt? address = none

/-- An address of hidden code, or of code to be stepped through. -/
def MeetsMarker (m : ManagedMethod) (address : Nat) : Prop :=
  address < 0x100000000 ∧ ∃ r, m.lineAt? address = some r ∧ (r.line = 0xfeefee ∨ r.line = 0xf00f00)

/-- An address whose line is no marker. -/
def MeetsLine (m : ManagedMethod) (address : Nat) (r : LineRecord) : Prop :=
  address < 0x100000000 ∧ m.lineAt? address = some r ∧ r.line ≠ 0xfeefee ∧ r.line ≠ 0xf00f00

theorem marksNoSource_iff {line : Nat} : marksNoSource line = true ↔ line = 0xfeefee ∨ line = 0xf00f00 := by
  simp [marksNoSource]

theorem meets_cases (m : ManagedMethod) (address : Nat) :
    MeetsNothing m address ∨ MeetsMarker m address ∨ ∃ r, MeetsLine m address r := by
  by_cases haddress : address < 0x100000000
  · cases hline : m.lineAt? address with
    | none => exact .inl (.inr hline)
    | some r =>
      by_cases hmarker : r.line = 0xfeefee ∨ r.line = 0xf00f00
      · exact .inr (.inl ⟨haddress, r, hline, hmarker⟩)
      · rw [not_or] at hmarker
        exact .inr (.inr ⟨r, haddress, hline, hmarker⟩)
  · exact .inl (.inl (Nat.le_of_not_lt haddress))

/-! ## One try -/

section Tries

variable {i : LineIndex} {token : UInt32} {m : ManagedMethod} (hm : i.method? token = some m)

include hm

theorem lineAt?_of_lt {offset : Nat} (h : m.offset + offset < 0x100000000) :
    i.lineAt? token offset = m.lineAt? (m.offset + offset) := by
  rw [lineAt?, hm]
  exact if_pos h

theorem lineAt?_of_nothing {offset : Nat} (h : MeetsNothing m (m.offset + offset)) : i.lineAt? token offset = none := by
  by_cases haddress : m.offset + offset < 0x100000000
  · rw [lineAt?_of_lt hm haddress]
    rcases h with hle | hnone
    · omega
    · exact hnone
  · rw [lineAt?, hm]
    exact if_neg haddress

/-- Where there is no line, the look-up ends. -/
theorem resolve_of_nothing {offset : Nat} (h : MeetsNothing m (m.offset + offset)) (tries : Nat) :
    resolve (i.lineAt? token) tries offset = none := by
  cases tries with
  | zero => rfl
  | succ tries => rw [resolve, lineAt?_of_nothing hm h]

/-- A line that is no marker is the one that is looked for. -/
theorem resolve_of_line {offset : Nat} {r : LineRecord} (h : MeetsLine m (m.offset + offset) r) (tries : Nat) :
    resolve (i.lineAt? token) (tries + 1) offset = SourceLocation.of? r.file (UInt32.ofNat r.line) := by
  obtain ⟨haddress, hline, hhidden, hthrough⟩ := h
  have hmarker : ¬ marksNoSource r.line = true := by
    rw [marksNoSource_iff, not_or]
    exact ⟨hhidden, hthrough⟩
  rw [resolve, lineAt?_of_lt hm haddress, hline]
  exact if_neg hmarker

/-- A marker takes one try and moves the look-up on. If there is no offset to move on to, the next try meets nothing. -/
theorem resolve_of_marker {offset : Nat} (h : MeetsMarker m (m.offset + offset)) (tries : Nat) :
    resolve (i.lineAt? token) (tries + 1) offset = resolve (i.lineAt? token) tries (offset + 32) := by
  obtain ⟨haddress, r, hline, hmarker⟩ := h
  rw [resolve, lineAt?_of_lt hm haddress, hline]
  refine (if_pos (marksNoSource_iff.2 hmarker)).trans ?_
  by_cases hnext : offset + retryDistance < 0x100000000
  · exact if_pos hnext
  · rw [if_neg hnext]
    unfold retryDistance at hnext
    exact (resolve_of_nothing hm (.inl (by omega)) tries).symm

/-! ## Several tries -/

/-- Behind markers, the look-up goes on with the tries that are left. -/
theorem resolve_of_markers {offset : UInt32} {k : Nat} (h : ∀ j < k, MeetsMarker m (tryAddress m offset j))
    (tries : Nat) : resolve (i.lineAt? token) (k + tries) offset.toNat =
      resolve (i.lineAt? token) tries (offset.toNat + 32 * k) := by
  induction k generalizing tries with
  | zero => rw [Nat.zero_add, Nat.mul_zero, Nat.add_zero]
  | succ k ih =>
    have hlast : MeetsMarker m (m.offset + (offset.toNat + 32 * k)) := by
      rw [← Nat.add_assoc]
      exact h k (Nat.lt_succ_self k)
    rw [Nat.add_right_comm, Nat.add_assoc, ih (fun j hj => h j (Nat.lt_succ_of_lt hj)), resolve_of_marker hm hlast,
      Nat.add_assoc, Nat.mul_succ]

theorem sourceLocation_of_markers {offset : UInt32} (h : ∀ j ≤ 8, MeetsMarker m (tryAddress m offset j)) :
    i.sourceLocation token offset = none :=
  resolve_of_markers hm (k := 9) (fun j hj => h j (Nat.le_of_lt_succ hj)) 0

/-- The first try that meets no marker decides. -/
theorem sourceLocation_eq_resolve {offset : UInt32} {k : Nat} (hk : k ≤ 8)
    (h : ∀ j < k, MeetsMarker m (tryAddress m offset j)) :
    i.sourceLocation token offset = resolve (i.lineAt? token) (8 - k + 1) (offset.toNat + 32 * k) := by
  rw [← resolve_of_markers hm h, sourceLocation, attempts]
  congr 1
  omega

theorem sourceLocation_of_nothing {offset : UInt32} {k : Nat} (hk : k ≤ 8)
    (h : ∀ j < k, MeetsMarker m (tryAddress m offset j)) (hend : MeetsNothing m (tryAddress m offset k)) :
    i.sourceLocation token offset = none := by
  rw [sourceLocation_eq_resolve hm hk h]
  refine resolve_of_nothing hm ?_ _
  rwa [← Nat.add_assoc]

theorem sourceLocation_of_line {offset : UInt32} {k : Nat} (hk : k ≤ 8)
    (h : ∀ j < k, MeetsMarker m (tryAddress m offset j)) {r : LineRecord}
    (hend : MeetsLine m (tryAddress m offset k) r) :
    i.sourceLocation token offset = SourceLocation.of? r.file (UInt32.ofNat r.line) := by
  rw [sourceLocation_eq_resolve hm hk h]
  refine resolve_of_line hm ?_ _
  rwa [← Nat.add_assoc]

end Tries

theorem sourceLocation_of_unknown {i : LineIndex} {token : UInt32} (h : i.method? token = none) (offset : UInt32) :
    i.sourceLocation token offset = none := by
  rw [sourceLocation, attempts, resolve, lineAt?, h]

/-! ## The tries of a look-up -/

/-- The ways a look-up in a method can go. -/
theorem tries_cases (m : ManagedMethod) (offset : UInt32) :
    (∀ j ≤ 8, MeetsMarker m (tryAddress m offset j)) ∨ ∃ k ≤ 8, (∀ j < k, MeetsMarker m (tryAddress m offset j)) ∧
      (MeetsNothing m (tryAddress m offset k) ∨ ∃ r, MeetsLine m (tryAddress m offset k) r) := by
  by_cases hfails : ∃ k, k ≤ 8 ∧ ¬ MeetsMarker m (tryAddress m offset k)
  · classical
    obtain ⟨hk, hmarker⟩ := Nat.find_spec hfails
    refine .inr ⟨Nat.find hfails, hk, ?_, ?_⟩
    · intro j hj
      by_contra hnot
      exact Nat.find_min hfails hj ⟨Nat.le_of_lt (Nat.lt_of_lt_of_le hj hk), hnot⟩
    · rcases meets_cases m (tryAddress m offset (Nat.find hfails)) with hnothing | hmeets | hline
      · exact .inl hnothing
      · exact absurd hmeets hmarker
      · exact .inr hline
  · refine .inl fun j hj => ?_
    by_contra hnot
    exact hfails ⟨j, hj, hnot⟩

/-- **The location of an offset, and when there is none.** It is the line of the first of nine tries that meets no
marker. There is none for an unknown method, when all tries meet markers, and when the try that decides meets nothing or
line zero. -/
theorem sourceLocation_iff (i : LineIndex) (token offset : UInt32) :
    (∀ l : SourceLocation, i.sourceLocation token offset = some l ↔
      ∃ m, i.method? token = some m ∧ ∃ k ≤ 8, (∀ j < k, MeetsMarker m (tryAddress m offset j)) ∧
        ∃ r, MeetsLine m (tryAddress m offset k) r ∧ UInt32.ofNat r.line ≠ 0 ∧ l = ⟨r.file, UInt32.ofNat r.line⟩) ∧
    (i.sourceLocation token offset = none ↔
      i.method? token = none ∨ ∃ m, i.method? token = some m ∧
        ((∀ j ≤ 8, MeetsMarker m (tryAddress m offset j)) ∨
          ∃ k ≤ 8, (∀ j < k, MeetsMarker m (tryAddress m offset j)) ∧
            (MeetsNothing m (tryAddress m offset k) ∨
              ∃ r, MeetsLine m (tryAddress m offset k) r ∧ UInt32.ofNat r.line = 0))) := by
  cases hm : i.method? token with
  | none =>
    have hnone := sourceLocation_of_unknown hm offset
    simp [hnone]
  | some m =>
    simp only [Option.some.injEq, exists_eq_left', reduceCtorEq, false_or]
    constructor
    · intro l
      constructor
      · intro h
        rcases tries_cases m offset with hall | ⟨k, hk, hbefore, hnothing | ⟨r, hline⟩⟩
        · rw [sourceLocation_of_markers hm hall] at h
          cases h
        · rw [sourceLocation_of_nothing hm hk hbefore hnothing] at h
          cases h
        · rw [sourceLocation_of_line hm hk hbefore hline, SourceLocation.of?_eq_some_iff] at h
          exact ⟨k, hk, hbefore, r, hline, h⟩
      · rintro ⟨k, hk, hbefore, r, hline, h⟩
        rw [sourceLocation_of_line hm hk hbefore hline, SourceLocation.of?_eq_some_iff]
        exact h
    · constructor
      · intro h
        rcases tries_cases m offset with hall | ⟨k, hk, hbefore, hnothing | ⟨r, hline⟩⟩
        · exact .inl hall
        · exact .inr ⟨k, hk, hbefore, .inl hnothing⟩
        · rw [sourceLocation_of_line hm hk hbefore hline, SourceLocation.of?_eq_none_iff] at h
          exact .inr ⟨k, hk, hbefore, .inr ⟨r, hline, h⟩⟩
      · rintro (hall | ⟨k, hk, hbefore, hnothing | ⟨r, hline, hzero⟩⟩)
        · exact sourceLocation_of_markers hm hall
        · exact sourceLocation_of_nothing hm hk hbefore hnothing
        · rw [sourceLocation_of_line hm hk hbefore hline, SourceLocation.of?_eq_none_iff]
          exact hzero

end NativePdb.LineIndex

end Symbolicate
