import Mathlib.Data.List.Chain
import Symbolicate.PortablePdb.SequencePoint
import Symbolicate.PortablePdb.Writer
import Symbolicate.Proofs.PortablePdb.Compressed

/-!
# Sequence points read back

The blob of a method holds its points (`records_encodePoints`, `ofBlob_encodeMethod`): each at its own offset, in the
document in force there (`inForce`), and on one column of its line. `Encodable` says which points the differences
between records can hold; it follows from the limits of a method (`DraftMethod.Fits`). Of the points read, the one that
counts for an offset is the last visible one at or before it (`best?_eq_getLast?`).
-/

namespace Symbolicate.PortablePdb

/-! ## Steps that succeed -/

section Steps

variable {α β : Type}

@[simp] theorem ok_bind (a : α) (f : α → Except FormatError β) : (Except.ok a >>= f) = f a := rfl

@[simp] theorem require_some (kind : FormatErrorKind) (a : α) : require kind (some a) = .ok a := rfl

@[simp] theorem requireText_some (kind : FormatErrorKind) (a : α) : requireText kind (some a) = .ok a := rfl

theorem exists_of_bind {x : Except FormatError α} {f : α → Except FormatError β} {b : β} (h : (x >>= f) = .ok b) :
    ∃ a, x = .ok a ∧ f a = .ok b := by
  cases x with
  | error e => cases h
  | ok a => exact ⟨a, rfl, h⟩

theorem eq_some_of_require {kind : FormatErrorKind} {x : Option α} {a : α} (h : require kind x = .ok a) :
    x = some a := by
  cases x with
  | none => cases h
  | some b =>
    cases h
    rfl

theorem eq_some_of_requireText {kind : FormatErrorKind} {x : Option α} {a : α} (h : requireText kind x = .ok a) :
    x = some a := by
  cases x with
  | none => cases h
  | some b =>
    cases h
    rfl

end Steps

namespace SequencePoint

theorem unsigned_ofUnsigned {n : Nat} (h : n < 2 ^ 29) (rest : Bytes) :
    unsigned (Compressed.ofUnsigned n ++ rest) = .ok (n, rest) := by
  rw [unsigned, Compressed.unsigned?_ofUnsigned h, require_some]

theorem signed_ofSigned {n : Int} (hl : -2 ^ 28 ≤ n) (hh : n < 2 ^ 28) (rest : Bytes) :
    signed (Compressed.ofSigned n ++ rest) = .ok (n, rest) := by
  rw [signed, Compressed.signed?_ofSigned hl hh, require_some]

theorem record_hidden {offset : Option Nat} {before : Option Span} {document delta : Nat} {data d₁ d₂ d₃ : Bytes}
    (h₁ : unsigned data = .ok (delta, d₁)) (h₂ : unsigned d₁ = .ok (0, d₂)) (h₃ : unsigned d₂ = .ok (0, d₃))
    (ho : offset.getD 0 + delta < 0x100000000) :
    record offset before document data = .ok (⟨offset.getD 0 + delta, document, none⟩, d₃) := by
  rw [record, h₁, ok_bind]
  simp only [if_neg (Nat.not_le_of_lt ho), ok_bind, h₂, if_true, h₃, Except.map, Int.natCast_zero, true_and]
  rfl

theorem record_visible {offset : Option Nat} {before : Option Span} {document delta columns : Nat} {line column : Int}
    {span : Span} {data d₁ d₂ d₃ d₄ : Bytes} (h₁ : unsigned data = .ok (delta, d₁)) (h₂ : unsigned d₁ = .ok (0, d₂))
    (h₃ : unsigned d₂ = .ok (columns, d₃)) (hc : columns ≠ 0) (h₄ : start before d₃ = .ok (line, column, d₄))
    (h₅ : Span.of? line column line (column + columns) = some span) (ho : offset.getD 0 + delta < 0x20000000) :
    record offset before document data = .ok (⟨offset.getD 0 + delta, document, some span⟩, d₄) := by
  have hc' : (columns : Int) ≠ 0 := by exact_mod_cast hc
  rw [record, h₁, ok_bind]
  simp only [if_neg (Nat.not_le_of_lt (show offset.getD 0 + delta < 0x100000000 by omega)), ok_bind, h₂, if_true, h₃,
    Except.map, true_and, if_neg hc', h₄, Int.natCast_zero, Int.add_zero, h₅, require_some,
    if_neg (Nat.not_le_of_lt ho)]
  rfl

end SequencePoint

namespace Draft

/-! ## What is read -/

/-- The first column of a line. -/
def lineSpan (line : Nat) : Span := ⟨line, 1, line, 2⟩

/-- Points with the documents in force at them, when `document` is in force before the first. -/
def inForce (document : Nat) : List DraftPoint → List (DraftPoint × Nat)
  | [] => []
  | p :: rest => (p, p.document.getD document) :: inForce (p.document.getD document) rest

/-- A point in a document as it is read. -/
def sequencePoint (p : DraftPoint × Nat) : SequencePoint := ⟨p.1.offset, p.2, p.1.line.map lineSpan⟩

theorem span_of? {line : Nat} (h : line < 2 ^ 29) (hh : line ≠ hiddenLine) :
    Span.of? line 1 line 2 = some (lineSpan line) := by
  have hne : (line : Int) ≠ (hiddenLine : Nat) := by exact_mod_cast hh
  rw [Span.of?, if_pos (by refine ⟨?_, ?_, ?_, ?_, ?_, ?_, ?_, ?_, hne, hne, ?_⟩ <;> omega)]
  simp [lineSpan]

/-! ## Limits of the format -/

/-- Whether the difference of a line to the one before fits into a signed number. -/
def Near (before line : Nat) : Prop := -2 ^ 28 ≤ (line : Int) - before ∧ (line : Int) - before < 2 ^ 28

instance (before line : Nat) : Decidable (Near before line) := inferInstanceAs (Decidable (_ ∧ _))

/-- Points that records can hold behind a point at `offset` and a visible line `line`, when there are `rows` documents:
offsets increase, and lines are not too far apart. -/
def Encodable (rows : Nat) : Option Nat → Option Nat → List DraftPoint → Prop
  | _, _, [] => True
  | offset, line, p :: rest =>
    (∀ o ∈ offset, o < p.offset) ∧ p.offset < 2 ^ 29 ∧ (∀ d ∈ p.document, d ≤ rows) ∧
      (∀ l ∈ p.line, l < 2 ^ 29 ∧ l ≠ hiddenLine ∧ ∀ before ∈ line, Near before l) ∧
      Encodable rows (some p.offset) (p.line <|> line) rest

theorem lineDelta_eq {line before : Nat} (h : Near before line) : lineDelta line before = (line : Int) - before := by
  obtain ⟨hl, hh⟩ := h
  exact Int.bmod_eq_of_le (by omega) (by omega)

/-! ## Records -/

/-- The first visible range starts where its record says. -/
theorem start_first {line : Nat} (h : line < 2 ^ 29) (data : Bytes) :
    SequencePoint.start none (Compressed.ofUnsigned line ++ (Compressed.ofUnsigned 1 ++ data)) =
      .ok ((line : Int), (1 : Int), data) := by
  simp only [SequencePoint.start, SequencePoint.unsigned_ofUnsigned h, ok_bind,
    SequencePoint.unsigned_ofUnsigned (show 1 < 2 ^ 29 by omega)]
  rfl

/-- A later visible range starts at its distance from the line before. -/
theorem start_next {line before : Nat} (h : Near before line) (data : Bytes) :
    SequencePoint.start (some (lineSpan before))
      (Compressed.ofSigned (lineDelta line before) ++ (Compressed.ofSigned 0 ++ data)) =
      .ok ((line : Int), (1 : Int), data) := by
  simp only [SequencePoint.start, lineDelta_eq h, SequencePoint.signed_ofSigned h.1 h.2, ok_bind,
    SequencePoint.signed_ofSigned (show -2 ^ 28 ≤ (0 : Int) by omega) (by omega)]
  simp only [lineSpan, Int.add_zero]
  rw [show (before : Int) + ((line : Int) - before) = line by omega]
  rfl

/-- The record of a point reads as that point, whatever follows. -/
theorem record_encodePoint {rows : Nat} {offset line : Option Nat} {p : DraftPoint} {rest : List DraftPoint}
    (h : Encodable rows offset line (p :: rest)) (document : Nat) (data : Bytes) :
    SequencePoint.record offset (line.map lineSpan) document (encodePoint offset line p ++ data) =
      .ok (sequencePoint (p, document), data) := by
  obtain ⟨ho, hp, _, hl, _⟩ := h
  have hdelta : offset.getD 0 + (p.offset - offset.getD 0) = p.offset := by
    cases offset with
    | none => simp
    | some o => have := ho o rfl; simp only [Option.getD_some]; omega
  have h0 : ∀ rest, SequencePoint.unsigned (Compressed.ofUnsigned 0 ++ rest) = .ok (0, rest) :=
    SequencePoint.unsigned_ofUnsigned (by omega)
  have h1 : ∀ rest, SequencePoint.unsigned (Compressed.ofUnsigned 1 ++ rest) = .ok (1, rest) :=
    SequencePoint.unsigned_ofUnsigned (by omega)
  have hread := SequencePoint.unsigned_ofUnsigned (show p.offset - offset.getD 0 < 2 ^ 29 by omega)
  cases hline : p.line with
  | none =>
    simp only [encodePoint, hline, List.append_assoc, sequencePoint, Option.map_none]
    rw [SequencePoint.record_hidden (hread _) (h0 _) (h0 _) (by omega), hdelta]
  | some l =>
    obtain ⟨hl29, hne, hnear⟩ := hl l hline
    have hspan := span_of? hl29 hne
    cases line with
    | none =>
      simp only [encodePoint, hline, List.append_assoc, sequencePoint, Option.map_none, Option.map_some]
      rw [SequencePoint.record_visible (hread _) (h0 _) (h1 _) (by omega) (start_first hl29 data)
        hspan (by omega), hdelta]
    | some before =>
      simp only [encodePoint, hline, List.append_assoc, sequencePoint, Option.map_some]
      rw [SequencePoint.record_visible (hread _) (h0 _) (h1 _) (by omega) (start_next (hnear before rfl) data)
        hspan (by omega), hdelta]

/-! ## All records of a method -/

@[simp] theorem records_nil (fuel : Nat) (offset : Option Nat) (before : Option Span) (document : Nat) :
    SequencePoint.records fuel offset before document [] = .ok [] := by
  cases fuel <;> rfl

/-- Behind the first record, no record starts with a zero byte. -/
theorem encodePoint_head {rows : Nat} {offset line : Option Nat} {p : DraftPoint} {rest : List DraftPoint}
    (h : Encodable rows offset line (p :: rest)) :
    ∃ b data, encodePoint offset line p = b :: data ∧ ¬ (offset.isSome ∧ b = 0) := by
  obtain ⟨ho, hp, _⟩ := h
  obtain ⟨b, data, hb, hzero⟩ := Compressed.ofUnsigned_head (show p.offset - offset.getD 0 < 2 ^ 29 by omega)
  refine ⟨b, _, by unfold encodePoint; rw [hb]; exact List.cons_append, ?_⟩
  rintro ⟨hsome, hb0⟩
  obtain ⟨o, rfl⟩ := Option.isSome_iff_exists.1 hsome
  have := ho o rfl
  have := hzero hb0
  simp only [Option.getD_some] at this
  omega

/-- A record is read, and then what follows it. -/
theorem records_encodePoint {rows : Nat} {offset line : Option Nat} {p : DraftPoint} {rest : List DraftPoint}
    (h : Encodable rows offset line (p :: rest)) (document fuel : Nat) (data : Bytes) :
    SequencePoint.records (fuel + 1) offset (line.map lineSpan) document (encodePoint offset line p ++ data) =
      (SequencePoint.records fuel (some p.offset) ((p.line <|> line).map lineSpan) document data >>= fun points =>
        .ok (sequencePoint (p, document) :: points)) := by
  obtain ⟨b, more, hb, hne⟩ := encodePoint_head h
  have hspan : ((sequencePoint (p, document)).span <|> line.map lineSpan) = (p.line <|> line).map lineSpan := by
    cases hl : p.line <;> simp [sequencePoint, hl]
  have hrecord := record_encodePoint h document data
  rw [hb, List.cons_append] at hrecord ⊢
  rw [SequencePoint.records, if_neg hne, hrecord, ok_bind]
  simp only [hspan]
  rfl

/-- A zero byte behind the first record switches to another document. -/
theorem records_switch {next : Nat} (h : next < 2 ^ 29) (offset : Nat) (before : Option Span) (document fuel : Nat)
    (data : Bytes) :
    SequencePoint.records (fuel + 1) (some offset) before document
      (Compressed.ofUnsigned 0 ++ Compressed.ofUnsigned next ++ data) =
      SequencePoint.records fuel (some offset) before next data := by
  rw [show Compressed.ofUnsigned 0 = [0] from rfl, List.append_assoc, List.singleton_append, SequencePoint.records,
    if_pos (by simp), SequencePoint.unsigned_ofUnsigned h, ok_bind]

/-- **The records of points read as these points**, each in the document in force at it. The document in force at the
first point of a method is `document`. -/
theorem records_encodePoints {rows : Nat} (hrows : rows < 2 ^ 16) : ∀ (points : List DraftPoint)
    {offset line : Option Nat} {document fuel : Nat}, Encodable rows offset line points →
    (offset = none → ∀ p ∈ points.head?, p.document.getD document = document) →
    (encodePoints offset line document points).length ≤ fuel →
    SequencePoint.records fuel offset (line.map lineSpan) document (encodePoints offset line document points) =
      .ok ((inForce document points).map sequencePoint)
  | [], _, _, _, _, _, _, _ => by rw [encodePoints, records_nil]; rfl
  | p :: rest, offset, line, document, fuel, h, hfirst, hfuel => by
    have hnext : (if offset.isSome then p.document.getD document else document) = p.document.getD document := by
      cases offset with
      | none => exact (hfirst rfl p rfl).symm
      | some o => rfl
    simp only [encodePoints, hnext] at hfuel ⊢
    generalize hd : p.document.getD document = next at hfuel ⊢
    obtain ⟨b, more, hb, _⟩ := encodePoint_head h
    have hlen : 0 < (encodePoint offset line p).length := by rw [hb]; simp
    -- once the document of the point is in force, its record is read and then the others
    have hread : ∀ f, (encodePoint offset line p ++ encodePoints (some p.offset) (p.line <|> line) next rest).length ≤
        f + 1 → SequencePoint.records (f + 1) offset (line.map lineSpan) next
          (encodePoint offset line p ++ encodePoints (some p.offset) (p.line <|> line) next rest) =
          .ok ((inForce document (p :: rest)).map sequencePoint) := by
      intro f hf
      rw [List.length_append] at hf
      rw [records_encodePoint h, records_encodePoints hrows rest h.2.2.2.2 (by simp) (by omega), ok_bind]
      simp only [inForce, hd, List.map_cons]
    by_cases hsame : next = document
    · rw [if_pos hsame, List.nil_append] at hfuel ⊢
      obtain ⟨f, rfl⟩ : ∃ f, fuel = f + 1 := ⟨fuel - 1, by rw [List.length_append] at hfuel; omega⟩
      rw [← hsame] at hread ⊢
      exact hread f hfuel
    · rw [if_neg hsame, List.append_assoc] at hfuel ⊢
      obtain ⟨f, rfl⟩ : ∃ f, fuel = f + 2 := ⟨fuel - 2, by
        simp only [List.length_append, show Compressed.ofUnsigned 0 = [0] from rfl, List.length_singleton] at hfuel
        omega⟩
      obtain ⟨o, rfl⟩ : ∃ o, offset = some o := by
        cases offset with
        | none => exact absurd (hd ▸ hfirst rfl p rfl) hsame
        | some o => exact ⟨o, rfl⟩
      obtain ⟨d, hpd⟩ : ∃ d, p.document = some d := by
        cases hpd : p.document with
        | none => rw [hpd] at hd; exact absurd hd.symm hsame
        | some d => exact ⟨d, rfl⟩
      have hnext29 : next < 2 ^ 29 := by
        have := h.2.2.1 d hpd
        rw [hpd, Option.getD_some] at hd
        omega
      rw [records_switch hnext29]
      apply hread
      simp only [List.length_append, show Compressed.ofUnsigned 0 = [0] from rfl, List.length_singleton] at hfuel ⊢
      omega

/-! ## The blob of a method -/

/-- The document in force before the first point: the one that point switches to, or else that of the method. -/
def startDocument (m : DraftMethod) : Nat := (m.points.head?.bind (·.document)).getD m.document

/-- Starting in the document of the first point changes nothing. -/
theorem inForce_startDocument (m : DraftMethod) : inForce (startDocument m) m.points = inForce m.document m.points := by
  unfold startDocument
  cases m.points with
  | nil => rfl
  | cons p rest => cases hp : p.document <;> simp [inForce, hp]

theorem startDocument_eq_document {m : DraftMethod} (h : ¬ m.points.any (·.document.isSome) = true) :
    startDocument m = m.document := by
  unfold startDocument
  cases hp : m.points with
  | nil => rfl
  | cons p rest =>
    have hnone : p.document = none := by
      rw [hp, List.any_cons, Bool.or_eq_true, not_or] at h
      simpa using h.1
    simp [hnone]

/-- What the points of a method have to keep to be written when there are `rows` documents. The offsets increase
besides. -/
structure Fits (rows : Nat) (m : DraftMethod) : Prop where
  offsets : ∀ p ∈ m.points, p.offset < 2 ^ 29
  lines : ∀ p ∈ m.points, ∀ l ∈ p.line, l < 2 ^ 29 ∧ l ≠ hiddenLine
  near : (m.points.filterMap (·.line)).IsChain Near
  start : m.points ≠ [] → 1 ≤ startDocument m ∧ startDocument m ≤ rows
  switches : ∀ p ∈ m.points, ∀ d ∈ p.document, 1 ≤ d ∧ d ≤ rows

instance (rows : Nat) (m : DraftMethod) : Decidable (Fits rows m) :=
  decidable_of_iff
    ((∀ p ∈ m.points, p.offset < 2 ^ 29) ∧ (∀ p ∈ m.points, ∀ l ∈ p.line, l < 2 ^ 29 ∧ l ≠ hiddenLine) ∧
      (m.points.filterMap (·.line)).IsChain Near ∧
      (m.points ≠ [] → 1 ≤ startDocument m ∧ startDocument m ≤ rows) ∧
      ∀ p ∈ m.points, ∀ d ∈ p.document, 1 ≤ d ∧ d ≤ rows)
    ⟨fun ⟨h₁, h₂, h₃, h₄, h₅⟩ => ⟨h₁, h₂, h₃, h₄, h₅⟩, fun h => ⟨h.offsets, h.lines, h.near, h.start, h.switches⟩⟩

theorem encodable_of_limits {rows : Nat} : ∀ (points : List DraftPoint) {offset line : Option Nat},
    (∀ o ∈ offset, ∀ p ∈ points.head?, o < p.offset) → increasing points = true →
    (∀ p ∈ points, p.offset < 2 ^ 29) → (∀ p ∈ points, ∀ l ∈ p.line, l < 2 ^ 29 ∧ l ≠ hiddenLine) →
    (line.toList ++ points.filterMap (·.line)).IsChain Near →
    (∀ p ∈ points, ∀ d ∈ p.document, d ≤ rows) → Encodable rows offset line points
  | [], _, _, _, _, _, _, _, _ => trivial
  | p :: rest, offset, line, ho, hinc, hoff, hlines, hnear, hdoc => by
    have hhead : ∀ q ∈ rest.head?, p.offset < q.offset ∧ increasing rest = true := by
      intro q hq
      cases rest with
      | nil => cases hq
      | cons r rest => cases hq; simpa [increasing] using hinc
    have hinc' : increasing rest = true := by
      cases rest with
      | nil => rfl
      | cons r rest => exact (hhead r rfl).2
    refine ⟨fun o h => ho o h p rfl, hoff p (by simp), hdoc p (by simp), ?_, ?_⟩
    · intro l hl
      have hl' : p.line = some l := hl
      refine ⟨(hlines p (by simp) l hl).1, (hlines p (by simp) l hl).2, fun before hb => ?_⟩
      have hb' : line = some before := hb
      rw [hb', List.filterMap_cons, hl'] at hnear
      simp only [Option.toList_some, List.singleton_append, List.isChain_cons_cons] at hnear
      exact hnear.1
    · refine encodable_of_limits rest (fun o h q hq => ?_) hinc' (fun q hq => hoff q (by simp [hq]))
        (fun q hq => hlines q (by simp [hq])) ?_ (fun q hq => hdoc q (by simp [hq]))
      · cases h; exact (hhead q hq).1
      · cases hl : p.line with
        | none => simpa [hl] using hnear
        | some l =>
          rw [List.filterMap_cons, hl] at hnear
          simpa using hnear.right_of_append

theorem encodeMethod_document_le {rows : Nat} {m : DraftMethod} (hm : Fits rows m) (hne : m.points ≠ []) :
    (encodeMethod m).1 ≤ rows := by
  by_cases hany : m.points.any (·.document.isSome) = true
  · simp only [encodeMethod, hany, if_true]
    omega
  · have hstart := (hm.start hne).2
    rw [startDocument_eq_document hany] at hstart
    simpa only [encodeMethod, hany, Bool.false_eq_true, if_false] using hstart

theorem inForce_document_le {rows : Nat} : ∀ {points : List DraftPoint} {document : Nat},
    (points ≠ [] → 1 ≤ (points.head?.bind (·.document)).getD document ∧
      (points.head?.bind (·.document)).getD document ≤ rows) →
    (∀ p ∈ points, ∀ d ∈ p.document, 1 ≤ d ∧ d ≤ rows) →
    ∀ q ∈ inForce document points, 1 ≤ q.2 ∧ q.2 ≤ rows
  | [], _, _, _, _, hq => by cases hq
  | p :: rest, document, hstart, hswitch, q, hq => by
    have hp : 1 ≤ p.document.getD document ∧ p.document.getD document ≤ rows := hstart (by simp)
    rcases List.mem_cons.1 hq with rfl | hq
    · exact hp
    · refine inForce_document_le (fun hne => ?_) (fun r hr => hswitch r (by simp [hr])) q hq
      cases rest with
      | nil => exact absurd rfl hne
      | cons r rest =>
        cases hd : r.document with
        | none => simpa [hd] using hp
        | some d => simpa [hd] using hswitch r (by simp) d hd

/-- **The blob of a method reads as its points.** -/
theorem ofBlob_encodeMethod {rows : Nat} (hrows : rows < 2 ^ 16) {m : DraftMethod} (hm : Fits rows m)
    (hinc : increasing m.points = true) (hne : m.points ≠ []) :
    SequencePoint.ofBlob (encodeMethod m).1 (encodeMethod m).2 =
      .ok ((inForce m.document m.points).map sequencePoint) := by
  obtain ⟨hstart, hstart'⟩ := hm.start hne
  have henc : Encodable rows none none m.points :=
    encodable_of_limits m.points (by simp) hinc hm.offsets hm.lines (by simpa using hm.near)
      (fun p hp d hd => (hm.switches p hp d hd).2)
  have hfirst : ∀ p ∈ m.points.head?, p.document.getD (startDocument m) = startDocument m := by
    intro p hp
    have hp' : m.points.head? = some p := hp
    unfold startDocument
    cases hd : p.document <;> simp [hp', hd]
  have hread := records_encodePoints hrows m.points henc (fun _ => hfirst) (le_refl _)
  rw [inForce_startDocument] at hread
  have h0 := SequencePoint.unsigned_ofUnsigned (show 0 < 2 ^ 29 by omega)
  have hs := SequencePoint.unsigned_ofUnsigned (show startDocument m < 2 ^ 29 by omega)
  by_cases hany : m.points.any (·.document.isSome) = true
  · have hblob : encodeMethod m = (0, Compressed.ofUnsigned 0 ++ Compressed.ofUnsigned (startDocument m) ++
        encodePoints none none (startDocument m) m.points) := by
      simp only [encodeMethod, hany, if_true]
      rfl
    simp only [hblob, SequencePoint.ofBlob, List.append_assoc, h0, hs, ok_bind, if_true]
    exact hread
  · have hdoc := startDocument_eq_document hany
    have hblob : encodeMethod m = (m.document, Compressed.ofUnsigned 0 ++ [] ++
        encodePoints none none (startDocument m) m.points) := by
      simp only [encodeMethod, hany]
      rfl
    rw [hdoc] at hblob hread hstart
    simp only [hblob, SequencePoint.ofBlob, List.append_assoc, List.nil_append, h0, ok_bind,
      if_neg (show ¬ m.document = 0 by omega)]
    exact hread

end Draft

/-! ## The point that counts -/

namespace SequencePoint

/-- Whether a point is visible and starts at an offset or before. -/
def applies (offset : Nat) (p : SequencePoint) : Bool := ! p.isHidden && decide (p.offset ≤ offset)

/-- Going through points whose offsets do not decrease, the best one so far is replaced by every one that applies. -/
theorem foldl_best {offset : Nat} : ∀ {points : List SequencePoint} {best : Option SequencePoint},
    points.Pairwise (·.offset ≤ ·.offset) → (∀ q ∈ best, ∀ p ∈ points, q.offset ≤ p.offset) →
    points.foldl (fun best p =>
      if ! p.isHidden && decide (p.offset ≤ offset) && best.all (fun q => q.offset ≤ p.offset) then some p
      else best) best = ((points.filter (applies offset)).getLast?).or best
  | [], _, _, _ => by simp
  | p :: rest, best, hpair, hbest => by
    obtain ⟨hp, hrest⟩ := List.pairwise_cons.1 hpair
    have hall : best.all (fun q => q.offset ≤ p.offset) = true := by
      cases best with
      | none => rfl
      | some q => simpa using hbest q rfl p (by simp)
    rw [List.foldl_cons, hall, Bool.and_true, ← applies]
    cases h : applies offset p with
    | true =>
      rw [if_pos rfl, foldl_best hrest (by rintro q ⟨⟩; exact hp), List.filter_cons_of_pos h, List.getLast?_cons]
      cases (rest.filter (applies offset)).getLast? <;> rfl
    | false =>
      rw [if_neg (by simp), foldl_best hrest (fun q hq r hr => hbest q hq r (by simp [hr])),
        List.filter_cons_of_neg (by simp [h])]

/-- **The point that counts is the last visible one at or before the offset**, when offsets do not decrease. -/
theorem best?_eq_getLast? {offset : Nat} {points : List SequencePoint} (h : points.Pairwise (·.offset ≤ ·.offset)) :
    best? offset points = (points.filter (applies offset)).getLast? := by
  rw [best?, foldl_best h (by simp), Option.or_none]

end SequencePoint

namespace Draft

/-- The last visible point of a method at or before an offset, with the document in force there. -/
def pointAt? (m : DraftMethod) (offset : Nat) : Option (DraftPoint × Nat) :=
  ((inForce m.document m.points).filter fun p => p.1.line.isSome && decide (p.1.offset ≤ offset)).getLast?

theorem map_inForce (document : Nat) (points : List DraftPoint) :
    (inForce document points).map (·.1) = points := by
  induction points generalizing document with
  | nil => rfl
  | cons p rest ih => rw [inForce, List.map_cons, ih]

theorem pairwise_of_increasing : ∀ {points : List DraftPoint}, increasing points = true →
    points.Pairwise (·.offset ≤ ·.offset)
  | [], _ => List.Pairwise.nil
  | [p], _ => List.pairwise_singleton _ _
  | p :: q :: rest, h => by
    simp only [increasing, Bool.and_eq_true, decide_eq_true_eq] at h
    have hq := pairwise_of_increasing h.2
    refine List.pairwise_cons.2 ⟨fun r hr => ?_, hq⟩
    rcases List.mem_cons.1 hr with rfl | hr
    · omega
    · have := (List.pairwise_cons.1 hq).1 r hr
      omega

/-- Of the points of a method as they are read, the one that counts is the last visible one. -/
theorem best?_inForce {m : DraftMethod} (h : increasing m.points = true) (offset : Nat) :
    SequencePoint.best? offset ((inForce m.document m.points).map sequencePoint) =
      (pointAt? m offset).map sequencePoint := by
  have hpair : ((inForce m.document m.points).map sequencePoint).Pairwise (·.offset ≤ ·.offset) := by
    have := pairwise_of_increasing h
    rw [← map_inForce m.document m.points, List.pairwise_map] at this
    exact List.pairwise_map.2 this
  have happlies : SequencePoint.applies offset ∘ sequencePoint =
      fun p => p.1.line.isSome && decide (p.1.offset ≤ offset) := by
    funext p
    cases hl : p.1.line <;> simp [SequencePoint.applies, SequencePoint.isHidden, sequencePoint, hl]
  rw [SequencePoint.best?_eq_getLast? hpair, List.filter_map, happlies, List.getLast?_map, pointAt?]

end Draft

end Symbolicate.PortablePdb
