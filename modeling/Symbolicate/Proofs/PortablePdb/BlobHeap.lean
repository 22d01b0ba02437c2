import Mathlib.Data.List.Infix
import Symbolicate.PortablePdb.Lookup
import Symbolicate.Proofs.PortablePdb.SequencePoints
import Symbolicate.Proofs.Text.Ascii

/-!
# The blob heap reads back

Writing only ever adds to the heap, so what has been written stays readable in every heap that starts with the one it was
written to: a blob (`blob_addBlob`), a document name with its parts (`nameAt_addName`), all names (`nameAt_addNames`) and
the points of all methods (`blob_addMethods`).
-/

namespace Symbolicate.PortablePdb.Draft

variable {p : PortablePdb} {final heap : Bytes}

/-! ## Blobs -/

theorem prefix_addBlob (heap data : Bytes) : heap <+: (addBlob heap data).1 :=
  ⟨Compressed.ofUnsigned data.length ++ data, by simp [addBlob]⟩

theorem lt_length_addBlob (heap data : Bytes) : (addBlob heap data).2 < (addBlob heap data).1.length := by
  have hpos := Compressed.length_ofUnsigned_pos data.length
  simp only [addBlob, List.length_append]
  omega

/-- **A blob reads back** in every heap that starts with the one it was added to. -/
theorem blob_addBlob (hp : p.blobs = some final) (hlen : final.length ≤ 2 ^ 29) {data : Bytes}
    (h : (addBlob heap data).1 <+: final) : p.blob (addBlob heap data).2 = .ok data := by
  obtain ⟨more, rfl⟩ := h
  have hfrom : Bytes.from? ((addBlob heap data).1 ++ more) heap.length =
      some (Compressed.ofUnsigned data.length ++ (data ++ more)) := by
    rw [Bytes.from?, if_pos (by simp [addBlob])]
    simp [addBlob]
  have hdata : data.length < 2 ^ 29 := by
    have hpos := Compressed.length_ofUnsigned_pos data.length
    simp only [addBlob, List.length_append] at hlen
    omega
  have hslice : Bytes.slice? (data ++ more) 0 data.length = some data := by
    rw [Bytes.slice?, if_pos (by simp)]
    simp
  simp only [blob, hp, require_some, ok_bind]
  rw [show (addBlob heap data).2 = heap.length from rfl, hfrom, require_some, ok_bind,
    SequencePoint.unsigned_ofUnsigned hdata, ok_bind, hslice, require_some]

/-! ## Document names -/

theorem prefix_addParts : ∀ (parts : List (List Char)) (heap : Bytes), heap <+: (addParts heap parts).1
  | [], _ => List.prefix_rfl
  | part :: parts, heap => by
    by_cases h : part.isEmpty = true
    · simp only [addParts, h, if_true]
      exact prefix_addParts parts heap
    · simp only [addParts, h, if_false, Bool.false_eq_true]
      exact (prefix_addBlob heap _).trans (prefix_addParts parts _)

theorem nameParts_zero (fuel : Nat) (data : Bytes) :
    p.nameParts (fuel + 1) (Compressed.ofUnsigned 0 ++ data) =
      (p.nameParts fuel data >>= fun parts => .ok ([] :: parts)) := by
  have hread := SequencePoint.unsigned_ofUnsigned (show 0 < 2 ^ 29 by omega) data
  rw [show Compressed.ofUnsigned 0 = [0] from rfl, List.singleton_append] at hread ⊢
  rw [nameParts, hread, ok_bind]
  rfl

theorem nameParts_blob {offset : Nat} (ho : offset < 2 ^ 29) (h0 : offset ≠ 0) {part : List Char}
    (hpart : p.blob offset = .ok (Utf8.encode part)) (fuel : Nat) (data : Bytes) :
    p.nameParts (fuel + 1) (Compressed.ofUnsigned offset ++ data) =
      (p.nameParts fuel data >>= fun parts => .ok (part :: parts)) := by
  obtain ⟨b, more, hb, _⟩ := Compressed.ofUnsigned_head ho
  have hread := SequencePoint.unsigned_ofUnsigned ho data
  rw [hb, List.cons_append] at hread ⊢
  rw [nameParts, hread, ok_bind]
  simp only [if_neg h0, hpart, ok_bind, Utf8.decode?_encode, requireText_some]
  rfl

/-- The parts of a name read back. Offset zero stands for the empty part, so the heap must not be empty. -/
theorem nameParts_addParts (hp : p.blobs = some final) (hlen : final.length ≤ 2 ^ 29) :
    ∀ (parts : List (List Char)) {heap : Bytes} {fuel : Nat}, 0 < heap.length → (addParts heap parts).1 <+: final →
      (addParts heap parts).2.length ≤ fuel → p.nameParts fuel (addParts heap parts).2 = .ok parts
  | [], _, fuel, _, _, _ => by cases fuel <;> rfl
  | part :: parts, heap, fuel, h0, hpre, hfuel => by
    by_cases h : part.isEmpty = true
    · simp only [addParts, h, if_true, List.length_append] at hpre hfuel ⊢
      have hpos := Compressed.length_ofUnsigned_pos 0
      obtain ⟨f, rfl⟩ : ∃ f, fuel = f + 1 := ⟨fuel - 1, by omega⟩
      rw [nameParts_zero, nameParts_addParts hp hlen parts h0 hpre (by omega), ok_bind, List.isEmpty_iff.1 h]
    · simp only [addParts, h, if_false, Bool.false_eq_true, List.length_append] at hpre hfuel ⊢
      have hpos := Compressed.length_ofUnsigned_pos (addBlob heap (Utf8.encode part)).2
      obtain ⟨f, rfl⟩ : ∃ f, fuel = f + 1 := ⟨fuel - 1, by omega⟩
      have hpart := (prefix_addParts parts _).trans hpre
      have hlt := (lt_length_addBlob heap (Utf8.encode part)).trans_le hpart.length_le
      have hne : (addBlob heap (Utf8.encode part)).2 ≠ 0 := Nat.ne_of_gt h0
      have hheap : 0 < (addBlob heap (Utf8.encode part)).1.length := by
        have := (prefix_addBlob heap (Utf8.encode part)).length_le
        omega
      rw [nameParts_blob (by omega) hne (blob_addBlob hp hlen hpart),
        nameParts_addParts hp hlen parts hheap hpre (by omega), ok_bind]

/-- A name in a blob is its parts with the separator between them. -/
theorem nameAt_of_parts {offset : Nat} {sep : List Char} {b : UInt8} {data : Bytes} {parts : List (List Char)}
    (hblob : p.blob offset = .ok (b :: data)) (hsep : b = 0 ∧ sep = [] ∨ b ≠ 0 ∧ [b] = Utf8.encode sep)
    (hparts : p.nameParts data.length data = .ok parts) : p.nameAt offset = .ok (sep.intercalate parts) := by
  rw [nameAt, hblob, ok_bind]
  rcases hsep with ⟨rfl, rfl⟩ | ⟨hb, hs⟩
  · simp only [if_true, hparts, ok_bind]
    rfl
  · simp only [if_neg hb, hs, Utf8.decode?_encode, requireText_some, hparts, ok_bind]
    rfl

/-- A name is written split at a separator, or in one part. -/
theorem addName_eq (heap : Bytes) (name : String) :
    (∃ sep, (sep = '/' ∨ sep = '\\') ∧ addName heap name =
      addBlob (addParts heap (Text.splitOn sep name.toList)).1
        (UInt8.ofNat sep.toNat :: (addParts heap (Text.splitOn sep name.toList)).2)) ∨
    addName heap name = addBlob (addBlob heap (Utf8.encode name.toList)).1
      (0 :: Compressed.ofUnsigned (addBlob heap (Utf8.encode name.toList)).2) := by
  by_cases h : '/' ∈ name.toList
  · exact .inl ⟨'/', .inl rfl, by simp only [addName, if_pos h]⟩
  · by_cases h' : '\\' ∈ name.toList
    · exact .inl ⟨'\\', .inr rfl, by simp only [addName, if_neg h, if_pos h']⟩
    · exact .inr (by simp only [addName, if_neg h, if_neg h'])

theorem prefix_addName (heap : Bytes) (name : String) : heap <+: (addName heap name).1 := by
  obtain ⟨sep, _, h⟩ | h := addName_eq heap name
  · rw [h]
    exact (prefix_addParts _ heap).trans (prefix_addBlob _ _)
  · rw [h]
    exact (prefix_addBlob heap _).trans (prefix_addBlob _ _)

theorem lt_length_addName (heap : Bytes) (name : String) : (addName heap name).2 < (addName heap name).1.length := by
  obtain ⟨sep, _, h⟩ | h := addName_eq heap name <;> rw [h] <;> exact lt_length_addBlob _ _

/-- **A document name reads back** in every heap that starts with the one it was added to. -/
theorem nameAt_addName (hp : p.blobs = some final) (hlen : final.length ≤ 2 ^ 29) (h0 : 0 < heap.length) {name : String}
    (hpre : (addName heap name).1 <+: final) : p.nameAt (addName heap name).2 = .ok name.toList := by
  obtain ⟨sep, hsep, h⟩ | h := addName_eq heap name <;> rw [h] at hpre ⊢
  · have hbyte : UInt8.ofNat sep.toNat ≠ 0 ∧ [UInt8.ofNat sep.toNat] = Utf8.encode [sep] := by
      rcases hsep with rfl | rfl <;> decide
    have hparts := nameParts_addParts hp hlen _ h0 ((prefix_addBlob _ _).trans hpre) (le_refl _)
    rw [nameAt_of_parts (blob_addBlob hp hlen hpre) (.inr hbyte) hparts, Text.intercalate_splitOn]
  · -- without a separator the name is its only part, and is written even if it is empty
    have hname := (prefix_addBlob _ _).trans hpre
    have hlt := (lt_length_addBlob heap (Utf8.encode name.toList)).trans_le hname.length_le
    have hpart := blob_addBlob hp hlen hname
    have hne : (addBlob heap (Utf8.encode name.toList)).2 ≠ 0 := Nat.ne_of_gt h0
    have hpos := Compressed.length_ofUnsigned_pos (addBlob heap (Utf8.encode name.toList)).2
    have hparts : p.nameParts (Compressed.ofUnsigned (addBlob heap (Utf8.encode name.toList)).2).length
        (Compressed.ofUnsigned (addBlob heap (Utf8.encode name.toList)).2) = .ok [name.toList] := by
      obtain ⟨f, hf⟩ := Nat.exists_eq_succ_of_ne_zero hpos.ne'
      have hread := nameParts_blob (by omega) hne hpart f []
      rw [List.append_nil] at hread
      rw [hf, Nat.succ_eq_add_one, hread, show p.nameParts f [] = .ok [] by cases f <;> rfl, ok_bind]
    rw [nameAt_of_parts (blob_addBlob hp hlen hpre) (.inl ⟨rfl, rfl⟩) hparts, List.intercalate_singleton]

/-! ## All names and all methods -/

theorem prefix_addNames : ∀ (names : List String) (heap : Bytes), heap <+: (addNames heap names).1
  | [], _ => List.prefix_rfl
  | name :: names, heap => (prefix_addName heap name).trans (prefix_addNames names _)

theorem length_addNames : ∀ (names : List String) (heap : Bytes), (addNames heap names).2.length = names.length
  | [], _ => rfl
  | name :: names, heap => congrArg (· + 1) (length_addNames names (addName heap name).1)

theorem nameAt_addNames (hp : p.blobs = some final) (hlen : final.length ≤ 2 ^ 29) :
    ∀ (names : List String) {heap : Bytes}, 0 < heap.length → (addNames heap names).1 <+: final →
      ∀ {i : Nat} {name : String}, names[i]? = some name →
      ∃ offset, (addNames heap names).2[i]? = some offset ∧ offset < final.length ∧ p.nameAt offset = .ok name.toList
  | [], _, _, _, _, _, h => by simp at h
  | name :: names, heap, h0, hpre, 0, _, h => by
    cases h
    have hname := (prefix_addNames names _).trans hpre
    exact ⟨(addName heap name).2, rfl, (lt_length_addName heap name).trans_le hname.length_le,
      nameAt_addName hp hlen h0 hname⟩
  | name :: names, heap, h0, hpre, i + 1, _, h =>
    nameAt_addNames hp hlen names (lt_of_lt_of_le h0 (prefix_addName heap name).length_le) hpre h

theorem addMethods_cons (heap : Bytes) (m : DraftMethod) (methods : List DraftMethod) :
    addMethods heap (m :: methods) =
      if m.points = [] then ((addMethods heap methods).1, (m.document, 0) :: (addMethods heap methods).2)
      else ((addMethods (addBlob heap (encodeMethod m).2).1 methods).1,
        ((encodeMethod m).1, (addBlob heap (encodeMethod m).2).2) ::
          (addMethods (addBlob heap (encodeMethod m).2).1 methods).2) := by
  cases h : m.points <;> simp [addMethods, h]

theorem prefix_addMethods : ∀ (methods : List DraftMethod) (heap : Bytes), heap <+: (addMethods heap methods).1
  | [], _ => List.prefix_rfl
  | m :: methods, heap => by
    rw [addMethods_cons]
    split
    · exact prefix_addMethods methods heap
    · exact (prefix_addBlob heap _).trans (prefix_addMethods methods _)

theorem length_addMethods : ∀ (methods : List DraftMethod) (heap : Bytes),
    (addMethods heap methods).2.length = methods.length
  | [], _ => rfl
  | m :: methods, heap => by
    rw [addMethods_cons]
    split <;> simp only [List.length_cons, length_addMethods methods]

/-- Every method has a row: offset zero if it has no points, else the offset of its blob. -/
theorem blob_addMethods (hp : p.blobs = some final) (hlen : final.length ≤ 2 ^ 29) :
    ∀ (methods : List DraftMethod) {heap : Bytes}, 0 < heap.length → (addMethods heap methods).1 <+: final →
      ∀ {i : Nat} {m : DraftMethod}, methods[i]? = some m →
      m.points = [] ∧ (addMethods heap methods).2[i]? = some (m.document, 0) ∨
      m.points ≠ [] ∧ ∃ offset, (addMethods heap methods).2[i]? = some ((encodeMethod m).1, offset) ∧
        0 < offset ∧ offset < final.length ∧ p.blob offset = .ok (encodeMethod m).2
  | [], _, _, _, _, _, h => by simp at h
  | m :: methods, heap, h0, hpre, i, m', h => by
    rw [addMethods_cons] at hpre ⊢
    by_cases hne : m.points = []
    · rw [if_pos hne] at hpre ⊢
      cases i with
      | zero => cases h; exact .inl ⟨hne, rfl⟩
      | succ i => exact blob_addMethods hp hlen methods h0 hpre h
    · rw [if_neg hne] at hpre ⊢
      have hblob := (prefix_addMethods methods _).trans hpre
      have hlt := (lt_length_addBlob heap (encodeMethod m).2).trans_le hblob.length_le
      cases i with
      | zero => cases h; exact .inr ⟨hne, _, rfl, h0, hlt, blob_addBlob hp hlen hblob⟩
      | succ i =>
        exact blob_addMethods hp hlen methods (lt_of_lt_of_le h0 (prefix_addBlob heap _).length_le) hpre h

end Symbolicate.PortablePdb.Draft
