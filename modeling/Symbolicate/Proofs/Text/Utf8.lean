import Mathlib.Data.List.Infix
import Mathlib.Tactic.Common
import Symbolicate.Text.Utf8

/-!
# UTF-8 reads back

The decoder finds exactly the characters that the encoder wrote: a character in front of anything is decoded as that
character (`run_encodeChar`), and what is decoded first was written that way (`eq_encodeChar_of_run`). Hence encoding and
decoding are inverse (`decode?_encode`, `eq_encode_of_decode?`), and the characters before the first fault are a prefix
of the bytes (`encode_validStart_prefix`). ASCII characters stand for themselves (`mem_encode_ascii_iff`), so a text that
starts with one is found among bytes only where it is in the text (`infix_of_encode`).
-/

namespace Symbolicate.Utf8

/-! ## Steps of the decoder -/

theorem run_start_cons (b : UInt8) (rest : Bytes) :
    run .start (b :: rest) = (first b.toNat).1 ++ run (first b.toNat).2 rest := rfl

theorem first_ascii {b : Nat} (h : b < 0x80) : first b = ([some (Char.ofNat b)], .start) := by
  simp only [first, if_pos h]

theorem first_two {b : Nat} (h : 0xC2 ≤ b) (h' : b < 0xE0) : first b = ([], .inside (b - 0xC0) 1 0x80 0xBF) := by
  simp only [first, if_neg (show ¬ b < 0x80 by omega), if_neg (show ¬ b < 0xC2 by omega), if_pos h']

theorem first_three {b : Nat} (h : 0xE0 ≤ b) (h' : b < 0xF0) : first b =
    ([], .inside (b - 0xE0) 2 (if b = 0xE0 then 0xA0 else 0x80) (if b = 0xED then 0x9F else 0xBF)) := by
  simp only [first, if_neg (show ¬ b < 0x80 by omega), if_neg (show ¬ b < 0xC2 by omega),
    if_neg (show ¬ b < 0xE0 by omega), if_pos h']

theorem first_four {b : Nat} (h : 0xF0 ≤ b) (h' : b < 0xF5) : first b =
    ([], .inside (b - 0xF0) 3 (if b = 0xF0 then 0x90 else 0x80) (if b = 0xF4 then 0x8F else 0xBF)) := by
  simp only [first, if_neg (show ¬ b < 0x80 by omega), if_neg (show ¬ b < 0xC2 by omega),
    if_neg (show ¬ b < 0xE0 by omega), if_neg (show ¬ b < 0xF0 by omega), if_pos h']

theorem first_fault {b : Nat} (h : 0x80 ≤ b ∧ b < 0xC2 ∨ 0xF5 ≤ b) : first b = ([none], .start) := by
  unfold first
  rcases h with ⟨h, h'⟩ | h
  · rw [if_neg (by omega), if_pos h']
  · rw [if_neg (by omega), if_neg (by omega), if_neg (by omega), if_neg (by omega), if_neg (by omega)]

/-- Inside a character, a byte in range continues it. -/
theorem run_inside_cons {value owed low high : Nat} {b : UInt8} (hl : low ≤ b.toNat) (hh : b.toNat ≤ high)
    (rest : Bytes) : run (.inside value owed low high) (b :: rest) =
      if owed ≤ 1 then some (Char.ofNat (value * 64 + (b.toNat - 0x80))) :: run .start rest
      else run (.inside (value * 64 + (b.toNat - 0x80)) (owed - 1) 0x80 0xBF) rest := by
  simp only [run, step, if_pos (And.intro hl hh)]
  split <;> rfl

/-- What is decoded first inside a character is that character, and the next byte continues it. -/
theorem exists_of_run_inside {value owed low high : Nat} {b : Bytes} {c : Char} {out : List (Option Char)}
    (h : run (.inside value owed low high) b = some c :: out) :
    ∃ x rest, b = x :: rest ∧ low ≤ x.toNat ∧ x.toNat ≤ high := by
  cases b with
  | nil => simp [run] at h
  | cons x rest =>
    by_cases hx : low ≤ x.toNat ∧ x.toNat ≤ high
    · exact ⟨x, rest, rfl, hx⟩
    · simp only [run, step, if_neg hx, List.cons_append, List.cons.injEq] at h
      exact absurd h.1 (by simp)

/-! ## A single character -/

/-- The number of a character is no surrogate and within Unicode. -/
theorem toNat_valid (c : Char) : c.toNat < 0xD800 ∨ 0xDFFF < c.toNat ∧ c.toNat < 0x110000 := c.valid

theorem toNat_ofNat {n : Nat} (h : n < 0xD800 ∨ 0xDFFF < n ∧ n < 0x110000) : (Char.ofNat n).toNat = n := by
  have hn : n.isValidChar := h
  rw [Char.ofNat, dif_pos hn]
  rfl

/-- The four forms of a character, by its number. -/
theorem encodeChar_eq (c : Char) : String.utf8EncodeChar c =
    if c.toNat ≤ 0x7f then [UInt8.ofNat c.toNat]
    else if c.toNat ≤ 0x7ff then [UInt8.ofNat (c.toNat / 64 % 32 + 0xC0), UInt8.ofNat (c.toNat % 64 + 0x80)]
    else if c.toNat ≤ 0xffff then
      [UInt8.ofNat (c.toNat / 4096 % 16 + 0xE0), UInt8.ofNat (c.toNat / 64 % 64 + 0x80),
        UInt8.ofNat (c.toNat % 64 + 0x80)]
    else
      [UInt8.ofNat (c.toNat / 262144 % 8 + 0xF0), UInt8.ofNat (c.toNat / 4096 % 64 + 0x80),
        UInt8.ofNat (c.toNat / 64 % 64 + 0x80), UInt8.ofNat (c.toNat % 64 + 0x80)] := rfl

theorem toNat_byte {n : Nat} (h : n < 256) : (UInt8.ofNat n).toNat = n := by
  rw [UInt8.toNat_ofNat']; exact Nat.mod_eq_of_lt h

theorem byte_eq {n : Nat} {b : UInt8} (h : b.toNat = n) : UInt8.ofNat n = b := by
  rw [← h, UInt8.ofNat_toNat]

/-- **A character reads back, whatever follows.** -/
theorem run_encodeChar (c : Char) (rest : Bytes) :
    run .start (String.utf8EncodeChar c ++ rest) = some c :: run .start rest := by
  have hv := toNat_valid c
  have hc : ∀ n, n = c.toNat → some (Char.ofNat n) = some c := fun n h => by rw [h, Char.ofNat_toNat]
  -- the last three bytes of a form, as far as it has them
  have hb₁ := toNat_byte (show c.toNat % 64 + 0x80 < 256 by omega)
  have hb₂ := toNat_byte (show c.toNat / 64 % 64 + 0x80 < 256 by omega)
  have hb₃ := toNat_byte (show c.toNat / 4096 % 64 + 0x80 < 256 by omega)
  rw [encodeChar_eq]
  split
  · rw [List.cons_append, run_start_cons, toNat_byte (by omega), first_ascii (by omega), hc _ rfl]
    rfl
  · split
    · simp only [List.cons_append, List.nil_append]
      rw [run_start_cons, toNat_byte (by omega), first_two (by omega) (by omega), List.nil_append,
        run_inside_cons (by omega) (by omega), if_pos (by omega), hb₁, hc]
      omega
    · split
      · simp only [List.cons_append, List.nil_append]
        rw [run_start_cons, toNat_byte (by omega), first_three (by omega) (by omega), List.nil_append,
          run_inside_cons (by split <;> omega) (by split <;> omega), if_neg (by omega),
          run_inside_cons (by omega) (by omega), if_pos (by omega), hb₁, hb₂, hc]
        omega
      · simp only [List.cons_append, List.nil_append]
        rw [run_start_cons, toNat_byte (by omega), first_four (by omega) (by omega), List.nil_append,
          run_inside_cons (by split <;> omega) (by split <;> omega), if_neg (by omega),
          run_inside_cons (by omega) (by omega), if_neg (by omega), run_inside_cons (by omega) (by omega),
          if_pos (by omega), hb₁, hb₂, hb₃, hc]
        omega

theorem eq_encodeChar_two {x : UInt8} {b : Bytes} {c : Char} {out : List (Option Char)} (hx : 0xC2 ≤ x.toNat)
    (hx' : x.toNat < 0xE0) (h : run .start (x :: b) = some c :: out) :
    ∃ rest, x :: b = String.utf8EncodeChar c ++ rest := by
  rw [run_start_cons, first_two hx hx', List.nil_append] at h
  obtain ⟨y, rest, rfl, hl, hh⟩ := exists_of_run_inside h
  rw [run_inside_cons hl hh, if_pos (by omega)] at h
  simp only [List.cons.injEq, Option.some.injEq] at h
  have hc : c.toNat = (x.toNat - 0xC0) * 64 + (y.toNat - 0x80) := by rw [← h.1]; exact toNat_ofNat (by omega)
  refine ⟨rest, ?_⟩
  rw [encodeChar_eq, if_neg (by omega), if_pos (by omega), byte_eq (b := x) (by omega), byte_eq (b := y) (by omega)]
  rfl

theorem eq_encodeChar_three {x : UInt8} {b : Bytes} {c : Char} {out : List (Option Char)} (hx : 0xE0 ≤ x.toNat)
    (hx' : x.toNat < 0xF0) (h : run .start (x :: b) = some c :: out) :
    ∃ rest, x :: b = String.utf8EncodeChar c ++ rest := by
  rw [run_start_cons, first_three hx hx', List.nil_append] at h
  obtain ⟨y, rest, rfl, hl, hh⟩ := exists_of_run_inside h
  rw [run_inside_cons hl hh, if_neg (by omega)] at h
  obtain ⟨z, rest, rfl, hl', hh'⟩ := exists_of_run_inside h
  rw [run_inside_cons hl' hh', if_pos (by omega)] at h
  simp only [List.cons.injEq, Option.some.injEq] at h
  -- the bounds of the second byte leave out surrogates and forms that are too long
  have hc : c.toNat = ((x.toNat - 0xE0) * 64 + (y.toNat - 0x80)) * 64 + (z.toNat - 0x80) := by
    rw [← h.1]; exact toNat_ofNat (by split at hl <;> split at hh <;> omega)
  have hy : 0x80 ≤ y.toNat ∧ y.toNat ≤ 0xBF ∧ (x.toNat = 0xE0 → 0xA0 ≤ y.toNat) := by
    split at hl <;> split at hh <;> omega
  refine ⟨rest, ?_⟩
  rw [encodeChar_eq, if_neg (by omega), if_neg (by omega), if_pos (by omega), byte_eq (b := x) (by omega),
    byte_eq (b := y) (by omega), byte_eq (b := z) (by omega)]
  rfl

theorem eq_encodeChar_four {x : UInt8} {b : Bytes} {c : Char} {out : List (Option Char)} (hx : 0xF0 ≤ x.toNat)
    (hx' : x.toNat < 0xF5) (h : run .start (x :: b) = some c :: out) :
    ∃ rest, x :: b = String.utf8EncodeChar c ++ rest := by
  rw [run_start_cons, first_four hx hx', List.nil_append] at h
  obtain ⟨y, rest, rfl, hl, hh⟩ := exists_of_run_inside h
  rw [run_inside_cons hl hh, if_neg (by omega)] at h
  obtain ⟨z, rest, rfl, hl', hh'⟩ := exists_of_run_inside h
  rw [run_inside_cons hl' hh', if_neg (by omega)] at h
  obtain ⟨w, rest, rfl, hl'', hh''⟩ := exists_of_run_inside h
  rw [run_inside_cons hl'' hh'', if_pos (by omega)] at h
  simp only [List.cons.injEq, Option.some.injEq] at h
  have hc : c.toNat = (((x.toNat - 0xF0) * 64 + (y.toNat - 0x80)) * 64 + (z.toNat - 0x80)) * 64 +
      (w.toNat - 0x80) := by
    rw [← h.1]; exact toNat_ofNat (by split at hl <;> split at hh <;> omega)
  have hy : 0x80 ≤ y.toNat ∧ y.toNat ≤ 0xBF ∧ (x.toNat = 0xF0 → 0x90 ≤ y.toNat) := by
    split at hl <;> split at hh <;> omega
  refine ⟨rest, ?_⟩
  rw [encodeChar_eq, if_neg (by omega), if_neg (by omega), if_neg (by omega), byte_eq (b := x) (by omega),
    byte_eq (b := y) (by omega), byte_eq (b := z) (by omega), byte_eq (b := w) (by omega)]
  rfl

/-- **What is decoded first was written that way.** -/
theorem eq_encodeChar_of_run {b : Bytes} {c : Char} {out : List (Option Char)} (h : run .start b = some c :: out) :
    ∃ rest, b = String.utf8EncodeChar c ++ rest := by
  cases b with
  | nil => simp [run] at h
  | cons x rest =>
    by_cases h₁ : x.toNat < 0x80
    · rw [run_start_cons, first_ascii h₁] at h
      simp only [List.cons_append, List.nil_append, List.cons.injEq, Option.some.injEq] at h
      have hc : c.toNat = x.toNat := by rw [← h.1]; exact toNat_ofNat (by omega)
      exact ⟨rest, by rw [encodeChar_eq, if_pos (by omega), byte_eq hc.symm]; rfl⟩
    · by_cases h₂ : x.toNat < 0xC2 ∨ 0xF5 ≤ x.toNat
      · rw [run_start_cons, first_fault (by omega)] at h
        simp at h
      · by_cases h₃ : x.toNat < 0xE0
        · exact eq_encodeChar_two (by omega) h₃ h
        · by_cases h₄ : x.toNat < 0xF0
          · exact eq_encodeChar_three (by omega) h₄ h
          · exact eq_encodeChar_four (by omega) (by omega) h

/-! ## Texts -/

theorem encode_cons (c : Char) (cs : List Char) : encode (c :: cs) = String.utf8EncodeChar c ++ encode cs := rfl

theorem encode_append (a b : List Char) : encode (a ++ b) = encode a ++ encode b := List.flatMap_append

theorem ofString_append (a b : String) : ofString (a ++ b) = ofString a ++ ofString b := by
  rw [ofString, String.toList_append, encode_append]
  rfl

/-- Text in front of anything is decoded as that text. -/
theorem scan_encode_append (cs : List Char) (rest : Bytes) : scan (encode cs ++ rest) = cs.map some ++ scan rest := by
  induction cs with
  | nil => rfl
  | cons c cs ih =>
    rw [encode_cons, List.append_assoc]
    exact (run_encodeChar c _).trans (congrArg (some c :: ·) ih)

theorem scan_encode (cs : List Char) : scan (encode cs) = cs.map some := by
  have h := scan_encode_append cs []
  rwa [List.append_nil, show scan [] = [] from rfl, List.append_nil] at h

/-- **Encoded text decodes to itself.** -/
theorem decode?_encode (cs : List Char) : decode? (encode cs) = some cs := by
  have hall : (cs.map some).all Option.isSome = true := by simp
  rw [decode?, scan_encode, if_pos hall]
  simp

theorem validStart_encode_append (cs : List Char) (rest : Bytes) :
    validStart (encode cs ++ rest) = cs ++ validStart rest := by
  simp only [validStart, scan_encode_append]
  rw [List.takeWhile_append_of_pos (by simp), List.filterMap_append]
  simp

theorem validStart_encode (cs : List Char) : validStart (encode cs) = cs := by
  simpa [show validStart [] = [] from rfl] using validStart_encode_append cs []

/-- **The characters before the first fault are a prefix of the bytes.** -/
theorem encode_validStart_prefix (b : Bytes) : encode (validStart b) <+: b := by
  generalize hn : b.length = n
  induction n using Nat.strongRecOn generalizing b with
  | _ n ih =>
    cases h : scan b with
    | nil => simp [validStart, h, encode]
    | cons o out =>
      cases o with
      | none => simp [validStart, h, encode]
      | some c =>
        obtain ⟨rest, rfl⟩ := eq_encodeChar_of_run h
        have hpos : 0 < (String.utf8EncodeChar c).length := List.length_pos_iff.2 String.utf8EncodeChar_ne_nil
        have hstart : validStart (String.utf8EncodeChar c ++ rest) = c :: validStart rest := by
          simpa [encode] using validStart_encode_append [c] rest
        rw [hstart, encode_cons]
        exact (List.prefix_append_right_inj _).2 (ih _ (by rw [List.length_append] at hn; omega) rest rfl)

theorem run_inside_ne_nil (b : Bytes) (value owed low high : Nat) : run (.inside value owed low high) b ≠ [] := by
  induction b generalizing value owed low high with
  | nil => exact List.cons_ne_nil _ _
  | cons x rest ih =>
    by_cases hx : low ≤ x.toNat ∧ x.toNat ≤ high
    · rw [run_inside_cons hx.1 hx.2]
      split
      · exact List.cons_ne_nil _ _
      · exact ih _ _ _ _
    · simp [run, step, if_neg hx]

/-- Every byte ends up in a character or in a fault. -/
theorem scan_ne_nil (x : UInt8) (rest : Bytes) : scan (x :: rest) ≠ [] := by
  rw [scan, run_start_cons]
  unfold first
  repeat' split
  all_goals simp [run_inside_ne_nil]

/-- **Decoded bytes are those of the text.** -/
theorem eq_encode_of_decode? {b : Bytes} {cs : List Char} (h : decode? b = some cs) : b = encode cs := by
  have hscan : scan b = cs.map some := by
    unfold decode? at h
    split at h
    · next hall =>
      cases h
      rw [List.map_filterMap_some_eq_filter_map_isSome, List.map_id, List.filter_eq_self.2 (List.all_eq_true.1 hall)]
    · cases h
  clear h
  induction cs generalizing b with
  | nil =>
    cases b with
    | nil => rfl
    | cons x rest => exact absurd hscan (scan_ne_nil x rest)
  | cons c cs ih =>
    obtain ⟨rest, rfl⟩ := eq_encodeChar_of_run hscan
    have hrest : scan rest = cs.map some :=
      (List.cons.inj ((run_encodeChar c rest).symm.trans hscan)).2
    rw [encode_cons, ← ih hrest]

/-! ## ASCII -/

theorem encodeChar_ascii {c : Char} (h : c.toNat < 0x80) : String.utf8EncodeChar c = [UInt8.ofNat c.toNat] := by
  rw [encodeChar_eq, if_pos (by omega)]

/-- Characters beyond ASCII have no byte of ASCII. -/
theorem le_of_mem_encodeChar {c : Char} (h : 0x80 ≤ c.toNat) {b : UInt8} (hb : b ∈ String.utf8EncodeChar c) :
    0x80 ≤ b.toNat := by
  have hv := toNat_valid c
  rw [encodeChar_eq, if_neg (by omega)] at hb
  split at hb
  · simp only [List.mem_cons, List.not_mem_nil, or_false] at hb
    rcases hb with rfl | rfl <;> rw [toNat_byte (by omega)] <;> omega
  · split at hb <;> simp only [List.mem_cons, List.not_mem_nil, or_false] at hb
    · rcases hb with rfl | rfl | rfl <;> rw [toNat_byte (by omega)] <;> omega
    · rcases hb with rfl | rfl | rfl | rfl <;> rw [toNat_byte (by omega)] <;> omega

/-- A text holds an ASCII character iff its bytes hold that character's byte. -/
theorem mem_encode_ascii_iff {c : Char} (h : c.toNat < 0x80) {cs : List Char} :
    UInt8.ofNat c.toNat ∈ encode cs ↔ c ∈ cs := by
  constructor
  · intro hm
    obtain ⟨d, hd, hb⟩ := List.mem_flatMap.1 hm
    by_cases h' : d.toNat < 0x80
    · rw [encodeChar_ascii h', List.mem_singleton] at hb
      have hn := congrArg UInt8.toNat hb
      rw [toNat_byte (by omega), toNat_byte (by omega)] at hn
      rwa [← Char.ofNat_toNat c, hn, Char.ofNat_toNat]
    · have := le_of_mem_encodeChar (by omega) hb
      rw [toNat_byte (by omega)] at this
      omega
  · intro hm
    exact List.mem_flatMap.2 ⟨c, hm, by rw [encodeChar_ascii h]; exact List.mem_singleton_self _⟩

/-- **What is decoded first is an ASCII character of some kind iff the first byte is.** -/
theorem head?_validStart_iff {p : Char → Bool} (hp : ∀ c, p c = true → c.toNat < 0x80) (b : Bytes) :
    (∀ c ∈ (validStart b).head?, p c = false) ↔ ∀ x ∈ b.head?, p (Char.ofNat x.toNat) = false := by
  cases b with
  | nil => simp [show validStart [] = [] from rfl]
  | cons x rest =>
    by_cases hx : x.toNat < 0x80
    · have hc : (Char.ofNat x.toNat).toNat = x.toNat := toNat_ofNat (by omega)
      have hencode : x :: rest = encode [Char.ofNat x.toNat] ++ rest := by
        rw [encode_cons, encodeChar_ascii (by omega), byte_eq hc.symm]
        rfl
      rw [hencode, validStart_encode_append, ← hencode]
      simp
    · -- neither the byte nor the character that it starts is one of ASCII
      have hbyte : p (Char.ofNat x.toNat) = false := by
        refine Bool.eq_false_iff.2 fun h => ?_
        have hlt := hp _ h
        have hsize := x.toNat_lt
        rw [toNat_ofNat (by omega)] at hlt
        omega
      refine iff_of_true (fun c hc => Bool.eq_false_iff.2 fun h => ?_) (by simpa using hbyte)
      obtain ⟨more, hmore⟩ := List.head?_eq_some_iff.1 hc
      have hprefix := encode_validStart_prefix (x :: rest)
      rw [hmore, encode_cons, encodeChar_ascii (hp c h)] at hprefix
      have hhead := (List.cons_prefix_cons.1 hprefix).1
      have hlt := hp c h
      rw [← hhead, toNat_byte (by omega)] at hx
      omega

/-! ## Texts within texts -/

theorem infix_encode {a b : List Char} (h : a <:+: b) : encode a <:+: encode b := by
  obtain ⟨front, back, rfl⟩ := h
  exact ⟨encode front, encode back, by rw [encode_append, encode_append]⟩

/-- Bytes that start with those of a text are those of a text that starts with it. -/
theorem prefix_of_encode {a b : List Char} (h : encode a <+: encode b) : a <+: b := by
  obtain ⟨rest, hrest⟩ := h
  have hb := validStart_encode b
  rw [← hrest, validStart_encode_append] at hb
  exact ⟨validStart rest, hb⟩

/-- A pattern is not found earlier than its first letter. -/
theorem infix_of_notMem {α : Type} {x : α} {pattern a b : List α} (hx : x ∉ a) (h : x :: pattern <:+: a ++ b) :
    x :: pattern <:+: b := by
  induction a with
  | nil => exact h
  | cons y a ih =>
    rw [List.mem_cons, not_or] at hx
    rcases List.infix_cons_iff.1 h with hstart | h
    · exact absurd (List.cons_prefix_cons.1 hstart).1 hx.1
    · exact ih hx.2 h

/-- **Bytes of a text that starts with an ASCII character are found only where that text is.** -/
theorem infix_of_encode {c : Char} (hc : c.toNat < 0x80) {pattern cs : List Char}
    (h : encode (c :: pattern) <:+: encode cs) : c :: pattern <:+: cs := by
  induction cs with
  | nil =>
    rw [encode_cons, encodeChar_ascii hc] at h
    cases List.eq_nil_of_infix_nil h
  | cons d cs ih =>
    by_cases hd : d.toNat < 0x80
    · have hcons := h
      rw [encode_cons d, encodeChar_ascii hd, List.singleton_append, List.infix_cons_iff] at hcons
      rcases hcons with hstart | hbehind
      · refine (prefix_of_encode ?_).isInfix
        rwa [encode_cons d, encodeChar_ascii hd]
      · exact List.infix_cons (ih hbehind)
    · -- no byte of a character beyond ASCII starts the pattern
      refine List.infix_cons (ih ?_)
      rw [encode_cons c, encodeChar_ascii hc] at h ⊢
      refine infix_of_notMem (fun hmem => ?_) h
      have := le_of_mem_encodeChar (by omega) hmem
      rw [toNat_byte (by omega)] at this
      omega

end Symbolicate.Utf8
