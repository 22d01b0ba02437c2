import Symbolicate.Proofs.PortablePdb.Machine.Words

/-!
# Sequence points on machine words

A sequence point is kept with six numbers, of which a hidden one has the line number of hidden code. Reading a record
adds differences to the numbers of the records before; they stay within 64 bits because those numbers are within the
limits of the format (`record_eq`). Every record takes at least one byte, so the loop over the records of a blob ends
(`points_eq`).
-/

namespace Symbolicate.PortablePdb.Machine

/-! ## Points -/

/-- A sequence point with its range, which for hidden code is the line of hidden code. -/
structure Point where
  offset : Nat
  startLine : Nat
  startColumn : Nat
  endLine : Nat
  endColumn : Nat
  document : Nat

namespace Point

def hidden (offset document : Nat) : Point := ⟨offset, hiddenLine, 0, hiddenLine, 0, document⟩

def isHidden (p : Point) : Bool :=
  p.startLine == hiddenLine && p.endLine == hiddenLine && p.startColumn == 0 && p.endColumn == 0

/-- A visible point within the limits of the format. -/
def visible? (offset startLine startColumn endLine endColumn document : Nat) : Option Point :=
  if offset ≥ 0x20000000 ∨ startLine ≥ 0x20000000 ∨ endLine ≥ 0x20000000 ∨ startColumn ≥ 0x10000 ∨
      endColumn ≥ 0x10000 ∨ startLine = hiddenLine ∨ endLine = hiddenLine ∨ endLine < startLine ∨
      endLine = startLine ∧ endColumn ≤ startColumn then
    none
  else some ⟨offset, startLine, startColumn, endLine, endColumn, document⟩

/-- A point as it is kept. -/
def of (p : SequencePoint) : Point :=
  p.span.elim (hidden p.offset p.document) fun s =>
    ⟨p.offset, s.startLine, s.startColumn, s.endLine, s.endColumn, p.document⟩

@[simp] theorem of_offset (p : SequencePoint) : (of p).offset = p.offset := by
  unfold of
  cases p.span <;> rfl

end Point

/-! ## Records -/

/-- The sum of two unsigned numbers of 32 bits, if it is one. -/
def checkedAdd (a b : Nat) : Option Nat := if a + b < 0x100000000 then some (a + b) else none

/-- A signed number as an unsigned one of 32 bits. -/
def toU32? (n : Int) : Option Nat := if 0 ≤ n ∧ n < 0x100000000 then some n.toNat else none

/-- The offset of a record: absolute in the first one, else relative to the record before. -/
def recordOffset (before : Option Point) (data : Bytes) : Machine (Nat × Bytes) :=
  match before with
  | none => unsigned data
  | some before => do
    let (delta, data) ← unsigned data
    return (← answer (require .invalidSequencePoint (checkedAdd before.offset delta)), data)

/-- The columns that a record spans: not below zero if it spans no line. -/
def recordColumns (lines : Nat) (data : Bytes) : Machine (Int × Bytes) :=
  if lines = 0 then do
    let (columns, data) ← unsigned data
    return (columns, data)
  else signed data

/-- The start of a range: absolute in the first visible record, else relative to the visible record before. -/
def recordStart (visible : Option Point) (data : Bytes) : Machine (Int × Int × Bytes) :=
  match visible with
  | none => do
    let (line, data) ← unsigned data
    let (column, data) ← unsigned data
    return (line, column, data)
  | some visible => do
    let (line, data) ← signed data
    let (column, data) ← signed data
    return (← i64 (visible.startLine + line), ← i64 (visible.startColumn + column), data)

/-- The point of a range whose ends are unsigned numbers of 32 bits. -/
def recordPoint? (offset document : Nat) (startLine startColumn endLine endColumn : Int) : Option Point := do
  let startLine ← toU32? startLine
  let startColumn ← toU32? startColumn
  let endLine ← toU32? endLine
  let endColumn ← toU32? endColumn
  Point.visible? offset startLine startColumn endLine endColumn document

def record (before visible : Option Point) (document : Nat) (data : Bytes) : Machine (Point × Bytes) := do
  let (offset, data) ← recordOffset before data
  let (lines, data) ← unsigned data
  let (columns, data) ← recordColumns lines data
  if lines = 0 ∧ columns = 0 then return (.hidden offset document, data)
  let (line, column, data) ← recordStart visible data
  let endLine ← i64 (line + lines)
  let endColumn ← i64 (column + columns)
  let point ← answer (require .invalidSequencePoint (recordPoint? offset document line column endLine endColumn))
  return (point, data)

/-- Whether a record switches to another document: one that starts with a zero offset, except the first. -/
def isSwitch (found : List Point) (data : Bytes) : Machine Bool :=
  if found = [] then pure false else (· == 0) <$> get data 0

/-- What the loop over records keeps: the document in force, the points that have been found, the last visible one and
what is left of the blob. -/
structure Reading where
  document : Nat
  found : List Point
  visible : Option Point
  data : Bytes

/-- One record: a switch to another document, or a point. -/
def nextRecord (s : Reading) : Machine (List Point ⊕ Reading) :=
  if s.data = [] then return .inl s.found
  else do
    if ← isSwitch s.found s.data then
      let (document, data) ← unsigned (← behind s.data 1)
      return .inr { s with document, data }
    else
      let (point, data) ← record s.found.getLast? s.visible s.document s.data
      return .inr ⟨s.document, s.found ++ [point], if point.isHidden then s.visible else some point, data⟩

/-- The points that have been found, and those of the records that are left. -/
noncomputable def points : Reading → Machine (List Point) := loop nextRecord

/-- The document that the first record of a blob belongs to: that of the row, or, if the row names none (zero), the one
that the blob starts with. -/
def firstDocument (document : Nat) (data : Bytes) : Machine (Nat × Bytes) :=
  if document = 0 then unsigned data else pure (document, data)

noncomputable def pointsOfBlob (document : Nat) (blob : Bytes) : Machine (List Point) := do
  let (_, data) ← unsigned blob
  let (document, data) ← firstDocument document data
  points ⟨document, [], none, data⟩

/-! ## Limits -/

theorem bounds_of_unsigned {data rest : Bytes} {n : Nat} (h : SequencePoint.unsigned data = .ok (n, rest)) :
    n < 0x20000000 ∧ rest.length < data.length := by
  rw [SequencePoint.unsigned, Compressed.unsigned?] at h
  cases hbits : Compressed.bits? data with
  | none => rw [hbits] at h; cases h
  | some r =>
    obtain ⟨-, hwidth, hraw, hlength⟩ := bounds_of_bits? hbits
    rw [hbits] at h
    cases h
    exact ⟨Nat.lt_of_lt_of_le hraw (Nat.pow_le_pow_right (by omega) hwidth), hlength⟩

theorem bounds_of_signed {data rest : Bytes} {n : Int} (h : SequencePoint.signed data = .ok (n, rest)) :
    -0x10000000 ≤ n ∧ n < 0x10000000 ∧ rest.length < data.length := by
  rw [SequencePoint.signed, Compressed.signed?] at h
  cases hbits : Compressed.bits? data with
  | none => rw [hbits] at h; cases h
  | some r =>
    obtain ⟨raw, width, behind⟩ := r
    obtain ⟨hpos, hwidth, hraw, hlength⟩ := bounds_of_bits? hbits
    rw [hbits] at h
    cases h
    have hpow : 2 ^ width = 2 * 2 ^ (width - 1) := by
      rw [← Nat.pow_succ']
      congr 1
      omega
    have hle : 2 ^ (width - 1) ≤ 2 ^ 28 := Nat.pow_le_pow_right (by omega) (by omega)
    rw [Compressed.ofRotated, Nat.one_shiftLeft]
    split <;> omega

/-- The limits that the range of a visible point keeps. -/
def InLimits (span : Option Span) : Prop :=
  ∀ s, span = some s → s.startLine < 0x20000000 ∧ s.startColumn < 0x10000 ∧ s.startLine ≠ hiddenLine

theorem inLimits_none : InLimits none := fun _ h => nomatch h

/-- The range of the last visible record keeps the limits if the ranges of both records do. -/
theorem InLimits.orElse {range span : Option Span} (hrange : InLimits range) (hspan : InLimits span) :
    InLimits (range <|> span) := by
  cases range with
  | none => exact hspan
  | some range => exact hrange

theorem inLimits_of? (startLine startColumn endLine endColumn : Int) :
    InLimits (Span.of? startLine startColumn endLine endColumn) := by
  intro span h
  unfold Span.of? at h
  split at h
  · cases h
    refine ⟨?_, ?_, ?_⟩ <;> dsimp only <;> omega
  · cases h

theorem isHidden_of {p : SequencePoint} (h : InLimits p.span) :
    (Point.of p).isHidden = p.isHidden := by
  obtain ⟨offset, document, span⟩ := p
  cases span with
  | none => rfl
  | some span => simp [Point.of, Point.isHidden, SequencePoint.isHidden, (h span rfl).2.2]

/-! ## Records are read -/

/-- The columns that a record spans, as they are read without words. -/
def columnsOf (lines : Nat) (data : Bytes) : Except FormatError (Int × Bytes) :=
  if lines = 0 then (SequencePoint.unsigned data).map fun (n, data) => ((n : Int), data) else SequencePoint.signed data

/-- A record step by step. -/
theorem record_eq_steps (offset : Option Nat) (before : Option Span) (document : Nat) (data : Bytes) :
    SequencePoint.record offset before document data = (do
      let (delta, data) ← SequencePoint.unsigned data
      if offset.getD 0 + delta ≥ 0x100000000 then .error (.plain .invalidSequencePoint)
      else do
        let (lines, data) ← SequencePoint.unsigned data
        let (columns, data) ← columnsOf lines data
        if lines = 0 ∧ columns = 0 then .ok (⟨offset.getD 0 + delta, document, none⟩, data)
        else do
          let (line, column, data) ← SequencePoint.start before data
          let span ← require .invalidSequencePoint (Span.of? line column (line + lines) (column + columns))
          if offset.getD 0 + delta ≥ 0x20000000 then .error (.plain .invalidSequencePoint)
          else .ok (⟨offset.getD 0 + delta, document, some span⟩, data)) := by
  refine congrArg _ (funext fun r₁ => ?_)
  dsimp only
  split
  · rfl
  · refine congrArg _ (funext fun r₂ => ?_)
    unfold columnsOf
    split <;> rfl

/-- What is kept of the visible record before: a point at the start of its range. -/
def StartsAt (visible : Option Point) (span : Option Span) : Prop :=
  visible.map (fun p => (p.startLine, p.startColumn)) = span.map fun s => (s.startLine, s.startColumn)

theorem recordOffset_of_error {data : Bytes} {e : FormatError} (h : SequencePoint.unsigned data = .error e)
    (before : Option Point) : recordOffset before data = answer (.error e) := by
  cases before <;> simp only [recordOffset, unsigned_eq, h, answer_error_bind]

theorem recordOffset_of_ok {data rest : Bytes} {delta : Nat} (h : SequencePoint.unsigned data = .ok (delta, rest))
    (before : Option Point) : recordOffset before data =
      if (before.map (·.offset)).getD 0 + delta ≥ 0x100000000 then answer (.error (.plain .invalidSequencePoint))
      else pure ((before.map (·.offset)).getD 0 + delta, rest) := by
  have hdelta := (bounds_of_unsigned h).1
  cases before with
  | none =>
    rw [recordOffset, unsigned_eq, h, answer_ok, if_neg, Option.map_none, Option.getD_none, Nat.zero_add]
    rw [Option.map_none, Option.getD_none, Nat.zero_add]
    omega
  | some before =>
    simp only [recordOffset, unsigned_eq, h, answer_ok, pure_bind, checkedAdd, Option.map_some, Option.getD_some]
    by_cases hlt : before.offset + delta < 0x100000000
    · rw [if_pos hlt, if_neg (Nat.not_le_of_lt hlt), require_some, answer_ok, pure_bind]
    · rw [if_neg hlt, if_pos (Nat.le_of_not_lt hlt)]
      rfl

theorem recordColumns_eq (lines : Nat) (data : Bytes) : recordColumns lines data = answer (columnsOf lines data) := by
  unfold recordColumns columnsOf
  split
  · rw [unsigned_eq, answer_map]
  · rw [signed_eq]

/-- The start of a range stays within 64 bits. -/
theorem recordStart_eq {visible : Option Point} {span : Option Span} (hvisible : StartsAt visible span)
    (hspan : InLimits span) (data : Bytes) : recordStart visible data = answer (SequencePoint.start span data) := by
  cases visible with
  | none =>
    cases span with
    | some span => cases hvisible
    | none =>
      simp only [recordStart, SequencePoint.start, unsigned_eq, answer_bind]
      rfl
  | some visible =>
    cases span with
    | none => cases hvisible
    | some span =>
      obtain ⟨hline, hcolumn, -⟩ := hspan span rfl
      simp only [StartsAt, Option.map_some, Option.some.injEq, Prod.mk.injEq] at hvisible
      simp only [recordStart, SequencePoint.start, signed_eq, answer_bind, hvisible]
      cases h₁ : SequencePoint.signed data with
      | error e => rfl
      | ok r₁ =>
        simp only [answer_ok, pure_bind]
        cases h₂ : SequencePoint.signed r₁.2 with
        | error e => rfl
        | ok r₂ =>
          have hdelta₁ := bounds_of_signed h₁
          have hdelta₂ := bounds_of_signed h₂
          simp only [answer_ok, pure_bind]
          rw [i64_of_bounds (by omega) (by omega), pure_bind, i64_of_bounds (by omega) (by omega), pure_bind]
          rfl

/-- Where a range starts, it is not far from zero. -/
theorem bounds_of_start {span : Option Span} (hspan : InLimits span) {data rest : Bytes}
    {line column : Int} (h : SequencePoint.start span data = .ok (line, column, rest)) :
    -0x20000000 ≤ line ∧ line < 0x40000000 ∧ -0x20000000 ≤ column ∧ column < 0x40000000 ∧
      rest.length < data.length := by
  cases span with
  | none =>
    obtain ⟨r₁, h₁, h⟩ := exists_of_bind h
    obtain ⟨r₂, h₂, h⟩ := exists_of_bind h
    have hline := bounds_of_unsigned h₁
    have hcolumn := bounds_of_unsigned h₂
    cases h
    omega
  | some span =>
    obtain ⟨hstart, hstart', -⟩ := hspan span rfl
    obtain ⟨r₁, h₁, h⟩ := exists_of_bind h
    obtain ⟨r₂, h₂, h⟩ := exists_of_bind h
    have hline := bounds_of_signed h₁
    have hcolumn := bounds_of_signed h₂
    cases h
    omega

theorem toU32?_eq_some_iff {n : Int} {k : Nat} : toU32? n = some k ↔ n = k ∧ k < 0x100000000 := by
  unfold toU32?
  split
  · rw [Option.some.injEq]
    omega
  · constructor
    · intro h
      cases h
    · omega

/-- The ends of a range are checked as words as they are without. -/
theorem recordPoint?_eq (offset document : Nat) (startLine startColumn endLine endColumn : Int) :
    recordPoint? offset document startLine startColumn endLine endColumn =
      (Span.of? startLine startColumn endLine endColumn).bind fun span =>
        if offset ≥ 0x20000000 then none else some (Point.of ⟨offset, document, some span⟩) := by
  refine Option.ext fun p => ?_
  simp only [recordPoint?, Option.bind_eq_bind, Option.bind_eq_some_iff, toU32?_eq_some_iff]
  constructor
  · rintro ⟨line, ⟨rfl, -⟩, column, ⟨rfl, -⟩, line', ⟨rfl, -⟩, column', ⟨rfl, -⟩, h⟩
    unfold Point.visible? at h
    split at h
    · cases h
    · refine ⟨_, if_pos (by omega), ?_⟩
      rw [if_neg (by omega)]
      simpa [Point.of] using h
  · rintro ⟨span, hspan, h⟩
    unfold Span.of? at hspan
    split at hspan
    · cases hspan
      split at h
      · cases h
      · have hword : ∀ n : Int, 0 ≤ n → n < 0x100000000 → n = n.toNat ∧ n.toNat < 0x100000000 := by omega
        refine ⟨_, hword _ (by omega) (by omega), _, hword _ (by omega) (by omega), _, hword _ (by omega) (by omega), _,
          hword _ (by omega) (by omega), ?_⟩
        rw [Point.visible?, if_neg (by omega)]
        exact h
    · cases hspan

theorem bounds_of_columns {lines : Nat} {data rest : Bytes} {columns : Int}
    (h : columnsOf lines data = .ok (columns, rest)) :
    -0x10000000 ≤ columns ∧ columns < 0x20000000 ∧ rest.length < data.length := by
  unfold columnsOf at h
  split at h
  · cases h₁ : SequencePoint.unsigned data with
    | error e => rw [h₁] at h; cases h
    | ok r =>
      have := bounds_of_unsigned h₁
      rw [h₁] at h
      cases h
      omega
  · have := bounds_of_signed h
    omega

/-- What a record gives is within the limits of the format, and it takes at least one byte. -/
theorem bounds_of_record {offset : Option Nat} {span : Option Span} {document : Nat} {data rest : Bytes}
    {point : SequencePoint} (hspan : InLimits span)
    (h : SequencePoint.record offset span document data = .ok (point, rest)) :
    InLimits point.span ∧ rest.length < data.length := by
  rw [record_eq_steps] at h
  obtain ⟨r₁, h₁, h⟩ := exists_of_bind h
  have hlength₁ := (bounds_of_unsigned h₁).2
  dsimp only at h
  split at h
  · cases h
  · obtain ⟨r₂, h₂, h⟩ := exists_of_bind h
    have hlength₂ := (bounds_of_unsigned h₂).2
    obtain ⟨r₃, h₃, h⟩ := exists_of_bind h
    have hlength₃ := (bounds_of_columns h₃).2.2
    split at h
    · cases h
      exact ⟨inLimits_none, by omega⟩
    · obtain ⟨r₄, h₄, h⟩ := exists_of_bind h
      have hlength₄ := (bounds_of_start hspan h₄).2.2.2.2
      obtain ⟨range, h₅, h⟩ := exists_of_bind h
      split at h
      · cases h
      · cases h
        exact ⟨eq_some_of_require h₅ ▸ inLimits_of? _ _ _ _, by omega⟩

/-- **A record is read without stopping.** -/
theorem record_eq {before visible : Option Point} {span : Option Span} (hvisible : StartsAt visible span)
    (hspan : InLimits span) (document : Nat) (data : Bytes) :
    record before visible document data =
      answer ((SequencePoint.record (before.map (·.offset)) span document data).map fun r => (Point.of r.1, r.2)) := by
  rw [record_eq_steps, record]
  cases h₁ : SequencePoint.unsigned data with
  | error e =>
    rw [recordOffset_of_error h₁]
    rfl
  | ok r₁ =>
    obtain ⟨delta, data₁⟩ := r₁
    rw [recordOffset_of_ok h₁, ok_bind]
    dsimp only
    split
    · rfl
    · simp only [pure_bind, unsigned_eq, recordColumns_eq]
      cases h₂ : SequencePoint.unsigned data₁ with
      | error e => rfl
      | ok r₂ =>
        obtain ⟨lines, data₂⟩ := r₂
        simp only [answer_ok, pure_bind, ok_bind]
        cases h₃ : columnsOf lines data₂ with
        | error e => rfl
        | ok r₃ =>
          obtain ⟨columns, data₃⟩ := r₃
          simp only [answer_ok, pure_bind, ok_bind]
          by_cases hhidden : lines = 0 ∧ columns = 0
          · simp only [if_pos hhidden]
            rfl
          · simp only [if_neg hhidden, recordStart_eq hvisible hspan]
            cases h₄ : SequencePoint.start span data₃ with
            | error e => rfl
            | ok r₄ =>
              obtain ⟨line, column, data₄⟩ := r₄
              -- the ends are sums of numbers of 30 bits
              have hlines := bounds_of_unsigned h₂
              have hcolumns := bounds_of_columns h₃
              have hstart := bounds_of_start hspan h₄
              simp only [answer_ok, pure_bind, ok_bind]
              rw [i64_of_bounds (by omega) (by omega), pure_bind, i64_of_bounds (by omega) (by omega), pure_bind,
                recordPoint?_eq]
              cases Span.of? line column (line + lines) (column + columns) with
              | none => rfl
              | some range =>
                simp only [Option.bind_some, require_some, ok_bind]
                split <;> rfl

/-! ## All records are read -/

/-- What the loop keeps when a point has been read. -/
theorem StartsAt.next {visible : Option Point} {span : Option Span} (h : StartsAt visible span) {point : SequencePoint}
    (hpoint : InLimits point.span) :
    StartsAt (if (Point.of point).isHidden then visible else some (Point.of point)) (point.span <|> span) := by
  rw [isHidden_of hpoint]
  obtain ⟨offset, document, range⟩ := point
  cases range with
  | none => exact h
  | some range => rfl

/-- A switch is a zero behind the first point. -/
theorem isSwitch_cons (found : List Point) (b : UInt8) (rest : Bytes) :
    isSwitch found (b :: rest) = pure (decide ((found.getLast?.map (·.offset)).isSome ∧ b = 0)) := by
  cases found with
  | nil => rfl
  | cons p ps => simp [isSwitch, get, List.getLast?_cons, beq_eq_decide]

/-- **The loop over records ends**, and gives the points that have been found and those of the records. Each record is
shorter by at least one byte than what it is read from, so as many steps as there are bytes are enough. -/
theorem points_eq {fuel : Nat} {data : Bytes} (hfuel : data.length ≤ fuel) {document : Nat} {found : List Point}
    {visible : Option Point} {span : Option Span} (hvisible : StartsAt visible span)
    (hspan : InLimits span) :
    points ⟨document, found, visible, data⟩ =
      answer ((SequencePoint.records fuel (found.getLast?.map (·.offset)) span document data).map
        fun ps => found ++ ps.map Point.of) := by
  induction fuel generalizing data document found visible span with
  | zero =>
    cases List.length_eq_zero_iff.1 (Nat.le_zero.1 hfuel)
    rw [points, loop_eq, nextRecord, if_pos rfl, SequencePoint.records]
    simp [Except.map]
  | succ fuel ih =>
    cases data with
    | nil =>
      rw [points, loop_eq, nextRecord, if_pos rfl, SequencePoint.records]
      simp [Except.map]
    | cons b rest =>
      rw [List.length_cons, Nat.succ_le_succ_iff] at hfuel
      have hbehind : behind (b :: rest) 1 = pure rest := by
        rw [behind_of_le (by simp)]
        rfl
      rw [points, loop_eq, nextRecord, if_neg (List.cons_ne_nil b rest), isSwitch_cons, pure_bind, SequencePoint.records]
      by_cases h : (found.getLast?.map (·.offset)).isSome ∧ b = 0
      · simp only [decide_eq_true h, if_true, if_pos h, hbehind, pure_bind, unsigned_eq]
        cases h₁ : SequencePoint.unsigned rest with
        | error e => rfl
        | ok r =>
          have hlength := (bounds_of_unsigned h₁).2
          simp only [answer_ok, pure_bind, ok_bind]
          exact ih (by omega) hvisible hspan
      · simp only [decide_eq_false h, Bool.false_eq_true, if_false, if_neg h]
        rw [record_eq hvisible hspan]
        cases h₁ : SequencePoint.record (found.getLast?.map (·.offset)) span document (b :: rest) with
        | error e => rfl
        | ok r =>
          obtain ⟨point, data⟩ := r
          obtain ⟨hpoint, hlength⟩ := bounds_of_record hspan h₁
          rw [List.length_cons] at hlength
          simp only [Except.map, answer_ok, pure_bind, ok_bind]
          rw [Sum.elim_inr, ← points, ih (by omega) (hvisible.next hpoint) (hpoint.orElse hspan)]
          simp only [List.getLast?_append, List.getLast?_singleton, Option.some_or, Option.map_some, Point.of_offset]
          cases SequencePoint.records fuel (some point.offset) (point.span <|> span) document data with
          | error e => rfl
          | ok ps => simp [Except.map]

/-- **The points of a blob are read without stopping.** -/
theorem pointsOfBlob_eq (document : Nat) (blob : Bytes) :
    pointsOfBlob document blob = answer ((SequencePoint.ofBlob document blob).map (·.map Point.of)) := by
  have hpoints : ∀ document data, points ⟨document, [], none, data⟩ =
      answer ((SequencePoint.records data.length none none document data).map (·.map Point.of)) := fun document data =>
    points_eq (Nat.le_refl data.length) rfl inLimits_none
  rw [pointsOfBlob, SequencePoint.ofBlob, unsigned_eq]
  cases SequencePoint.unsigned blob with
  | error e => rfl
  | ok r =>
    simp only [answer_ok, pure_bind, ok_bind, hpoints, firstDocument, unsigned_eq]
    by_cases h : document = 0
    · simp only [if_pos h]
      cases SequencePoint.unsigned r.2 <;> rfl
    · simp only [if_neg h, pure_bind]

/-! ## The point of an offset -/

/-- The element with the greatest key, the last one if several have it. -/
def maxByKey? {α : Type} (key : α → Nat) (xs : List α) : Option α :=
  xs.foldl (fun best x => if best.all fun y => key y ≤ key x then some x else best) none

/-- The visible point with the greatest offset that is not above `offset`. -/
def best? (offset : Nat) (points : List Point) : Option Point :=
  maxByKey? (·.offset) (points.filter fun p => ! p.isHidden && decide (p.offset ≤ offset))

theorem best?_eq (offset : Nat) {points : List SequencePoint} (h : ∀ p ∈ points, InLimits p.span) :
    best? offset (points.map Point.of) = (SequencePoint.best? offset points).map Point.of := by
  have hfold : ∀ best : Option SequencePoint, (points.map Point.of).foldl (fun best p =>
      if (! p.isHidden && decide (p.offset ≤ offset)) = true then
        if best.all fun q => q.offset ≤ p.offset then some p else best
      else best) (best.map Point.of) =
      (points.foldl (fun best p =>
        if ! p.isHidden && decide (p.offset ≤ offset) && best.all (fun q => q.offset ≤ p.offset) then some p
        else best) best).map Point.of := by
    induction points with
    | nil => intro best; rfl
    | cons p rest ih =>
      intro best
      have hrest := ih fun q hq => h q (List.mem_cons_of_mem _ hq)
      rw [List.map_cons, List.foldl_cons, List.foldl_cons, ← hrest, isHidden_of (h p List.mem_cons_self)]
      have hall : (best.map Point.of).all (fun q => decide (q.offset ≤ (Point.of p).offset)) =
          best.all fun q => decide (q.offset ≤ p.offset) := by
        cases best <;> simp
      rw [hall, Point.of_offset]
      cases ! p.isHidden && decide (p.offset ≤ offset) <;>
        cases best.all fun q => decide (q.offset ≤ p.offset) <;> rfl
  rw [best?, maxByKey?, List.foldl_filter]
  exact hfold none

/-- The point of an offset is visible. -/
theorem isHidden_of_best? {offset : Nat} {points : List SequencePoint} {p : SequencePoint}
    (h : SequencePoint.best? offset points = some p) : p.isHidden = false := by
  have hfold : ∀ best : Option SequencePoint, (∀ q, best = some q → q.isHidden = false) →
      points.foldl (fun best p =>
        if ! p.isHidden && decide (p.offset ≤ offset) && best.all (fun q => q.offset ≤ p.offset) then some p
        else best) best = some p → p.isHidden = false := by
    clear h
    induction points with
    | nil => exact fun best hbest h => hbest p h
    | cons q rest ih =>
      intro best hbest h
      refine ih _ ?_ h
      intro q' hq'
      dsimp only at hq'
      split at hq'
      · next hq =>
        cases hq'
        simp only [Bool.and_eq_true, Bool.not_eq_true'] at hq
        exact hq.1.1
      · exact hbest q' hq'
  exact hfold none (fun _ h => nomatch h) h

theorem limits_of_records {fuel : Nat} {offset : Option Nat} {span : Option Span} {document : Nat} {data : Bytes}
    (hspan : InLimits span) {points : List SequencePoint}
    (h : SequencePoint.records fuel offset span document data = .ok points) : ∀ p ∈ points, InLimits p.span := by
  induction fuel generalizing offset span document data points with
  | zero =>
    cases data <;> (cases h; exact List.forall_mem_nil _)
  | succ fuel ih =>
    cases data with
    | nil =>
      cases h
      exact List.forall_mem_nil _
    | cons b rest =>
      rw [SequencePoint.records] at h
      split at h
      · obtain ⟨r, -, h⟩ := exists_of_bind h
        exact ih hspan h
      · obtain ⟨r, hrecord, h⟩ := exists_of_bind h
        obtain ⟨others, hothers, h⟩ := exists_of_bind h
        have hpoint := (bounds_of_record hspan hrecord).1
        cases h
        exact List.forall_mem_cons.2 ⟨hpoint, ih (hpoint.orElse hspan) hothers⟩

theorem limits_of_ofBlob {document : Nat} {blob : Bytes} {points : List SequencePoint}
    (h : SequencePoint.ofBlob document blob = .ok points) : ∀ p ∈ points, InLimits p.span := by
  obtain ⟨r, -, h⟩ := exists_of_bind h
  dsimp only at h
  split at h
  · obtain ⟨r', -, h⟩ := exists_of_bind h
    exact limits_of_records inLimits_none h
  · exact limits_of_records inLimits_none h

end Symbolicate.PortablePdb.Machine
