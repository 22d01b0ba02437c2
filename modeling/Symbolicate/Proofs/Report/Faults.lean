import Mathlib.Tactic.Common
import Symbolicate.Proofs.Files.Runs
import Symbolicate.Proofs.Report.Annotate
import Symbolicate.Proofs.Text.Utf8

/-!
# Translations that fail

A report is read line by line, and a fault that ends the reading ends the translation before anything is loaded or
written (`readLines_eq`). A frame is written in pieces, and a writer may take a part of any of them and then fail, or
take a piece little by little; it still takes a prefix of the pieces put together (`writePieces_eq_take`). So every
writer is a sink with room for as many bytes as it takes (`exists_room`). A sink with room for so many bytes gets so
many of the output, whichever line they end in (`exists_run_writeLines_of_lt`), and one with enough room gets all of it
(`run_writeLines_of_le`). From this follows what every fault leaves behind (`translate_faults`).
-/

namespace Symbolicate

/-! ## Reading line by line -/

namespace ExceptionReport

/-- The report with the lines that are left, read one after the other up to the end or to the fault that ends the
reading. A line that the fault cuts short is lost. -/
def readLines (fault : Option FileError) : List Bytes → ExceptionReport → Except ReportError ExceptionReport
  | [], r => fault.elim (.ok r) fun cause => .error (.read cause)
  | line :: rest, r =>
    match fault with
    | none => readLines none rest (r.addLine line)
    | some cause =>
      if line.getLast? = some 0x0A then readLines (some cause) rest (r.addLine line) else .error (.read cause)

theorem readLines_none (lines : List Bytes) (r : ExceptionReport) :
    readLines none lines r = .ok (lines.foldl addLine r) := by
  induction lines generalizing r with
  | nil => rfl
  | cons line rest ih => exact ih (r.addLine line)

theorem readLines_some (cause : FileError) (lines : List Bytes) (r : ExceptionReport) :
    readLines (some cause) lines r = .error (.read cause) := by
  induction lines generalizing r with
  | nil => rfl
  | cons line rest ih =>
    show (if line.getLast? = some 0x0A then _ else _) = _
    split
    · exact ih (r.addLine line)
    · rfl

/-- **What has been read before a fault is lost.** -/
theorem readLines_eq (source : ReportSource) :
    readLines source.fault (lineChunks source.bytes) empty = source.read := by
  obtain ⟨bytes, fault⟩ := source
  cases fault with
  | none => exact readLines_none (lineChunks bytes) empty
  | some cause => exact readLines_some cause (lineChunks bytes) empty

end ExceptionReport

/-! ## Pieces of a line -/

/-- The pieces that a frame is written in. -/
def StackFrame.pieces (f : StackFrame) (location : Option SourceLocation) (terminator : Bytes) : List Bytes :=
  ["   at ", f.method, "(", f.arguments, ")"].map Utf8.ofString ++
    location.elim [] (fun l =>
      [" in ", l.fileText, ":line ", String.ofList (Text.decimal l.line.toNat)].map Utf8.ofString) ++ [terminator]

theorem StackFrame.flatten_pieces (f : StackFrame) (location : Option SourceLocation) (terminator : Bytes) :
    (f.pieces location terminator).flatten = f.normalized location terminator := by
  cases location <;> simp [pieces, normalized, SourceLocation.text, Utf8.ofString_append]

/-- The pieces that a body line is written in: those of its frame if it is normalized, else the whole line. -/
def piecesOf (modules : ModuleTable) (line : Bytes) (location : Option SourceLocation) : List Bytes :=
  match frameOf? modules line with
  | some (frame, _) => frame.pieces location (lineTerminator line)
  | none => [line]

theorem flatten_piecesOf (modules : ModuleTable) (line : Bytes) (location : Option SourceLocation) :
    (piecesOf modules line location).flatten = rendered modules line location := by
  unfold piecesOf rendered
  cases frameOf? modules line with
  | none => exact List.append_nil line
  | some found => exact found.1.flatten_pieces location (lineTerminator line)

/-! ## Writing to sinks -/

namespace Sink

theorem write_of_le {s : Sink} (b : Bytes) (h : ∀ n, s.room = some n → b.length ≤ n) :
    s.write b = ({ s with accepted := s.accepted ++ b, room := s.room.map (· - b.length) }, true) := by
  obtain ⟨accepted, room, flushFails⟩ := s
  cases room with
  | none => rfl
  | some n =>
    have hle : b.length ≤ n := h n rfl
    simp [write, hle, List.take_of_length_le hle]

theorem write_of_lt (accepted : Bytes) (flushFails : Bool) {b : Bytes} {n : Nat} (h : n < b.length) :
    Sink.write ⟨accepted, some n, flushFails⟩ b = (⟨accepted ++ b.take n, some 0, flushFails⟩, false) := by
  simp [write, Nat.sub_eq_zero_of_le (Nat.le_of_lt h), Nat.not_le_of_lt h]

end Sink

/-! ## Writers -/

/-- Something that bytes can be written to, with a state of its own. A write that does not fail takes so many of the
bytes, and a flush works or fails. -/
structure Writer (σ : Type) where
  write : σ → Bytes → σ × Option Nat
  flush : σ → σ × Bool

/-- What a writer has taken of bytes, its state behind them, and whether these were all. -/
structure Written (σ : Type) where
  taken : Bytes
  state : σ
  isDone : Bool

namespace Writer

variable {σ : Type} (w : Writer σ)

/-- Offers bytes until all are taken. A writer that fails or takes nothing is not asked again. -/
def writeAll (s : σ) (b : Bytes) : Written σ :=
  if b = [] then ⟨[], s, true⟩
  else
    match w.write s b with
    | (s, some (n + 1)) =>
      let rest := writeAll s (b.drop (n + 1))
      { rest with taken := b.take (n + 1) ++ rest.taken }
    | (s, _) => ⟨[], s, false⟩
termination_by b.length
decreasing_by
  have : 0 < b.length := List.length_pos_iff.2 ‹_›
  simp only [List.length_drop]
  omega

/-- Writes pieces one after the other until one is not taken in full. -/
def writePieces (s : σ) : List Bytes → Written σ
  | [] => ⟨[], s, true⟩
  | piece :: pieces =>
    let first := w.writeAll s piece
    if first.isDone then
      let rest := writePieces first.state pieces
      { rest with taken := first.taken ++ rest.taken }
    else first

/-- A writer takes the first bytes of what it is offered, and is done if these are all. -/
theorem writeAll_eq_take (s : σ) (b : Bytes) :
    ∃ n, (w.writeAll s b).taken = b.take n ∧ (w.writeAll s b).isDone = decide (b.length ≤ n) := by
  fun_induction writeAll w s b with
  | case1 => exact ⟨0, rfl, rfl⟩
  | case2 s b hne s' n hwrite rest ih =>
    obtain ⟨k, htaken, hdone⟩ := ih
    refine ⟨n + 1 + k, ?_, ?_⟩
    · show b.take (n + 1) ++ rest.taken = _
      rw [htaken]
      exact List.take_add.symm
    · show rest.isDone = _
      rw [hdone, List.length_drop, decide_eq_decide]
      omega
  | case3 s b hne s' answer hfail hwrite =>
    have hlength : 0 < b.length := List.length_pos_iff.2 hne
    refine ⟨0, rfl, ?_⟩
    rw [eq_comm, decide_eq_false_iff_not]
    omega

/-- **A writer takes of pieces as of all of them put together**: the first bytes. -/
theorem writePieces_eq_take (s : σ) (pieces : List Bytes) :
    ∃ n, (w.writePieces s pieces).taken = pieces.flatten.take n ∧
      (w.writePieces s pieces).isDone = decide (pieces.flatten.length ≤ n) := by
  induction pieces generalizing s with
  | nil => exact ⟨0, rfl, rfl⟩
  | cons piece rest ih =>
    obtain ⟨n, htaken, hdone⟩ := w.writeAll_eq_take s piece
    simp only [writePieces, hdone, decide_eq_true_eq, List.flatten_cons, List.length_append]
    by_cases h : piece.length ≤ n
    · obtain ⟨k, hothers, hrest⟩ := ih (w.writeAll s piece).state
      refine ⟨piece.length + k, ?_, ?_⟩
      · rw [if_pos h]
        simp only [htaken, hothers, List.take_of_length_le h, List.take_append,
          List.take_of_length_le (Nat.le_add_right piece.length k), Nat.add_sub_cancel_left]
      · rw [if_pos h]
        simp only [hrest, decide_eq_decide]
        omega
    · refine ⟨n, ?_, ?_⟩
      · rw [if_neg h, htaken, List.take_append_of_le_length (Nat.le_of_not_le h)]
      · rw [if_neg h, hdone, decide_eq_decide]
        omega

end Writer

namespace Translate

/-! ## Translating for a writer -/

section Writing

variable {m : Type → Type} [Monad m] {L : Type} [SourceLookups m L] {σ : Type} (w : Writer σ) (load : SymbolLoader m L)

/-- Writes what lines become piece by piece, until one is not taken in full. -/
def writeLinesTo (modules : ModuleTable) : List Bytes → Progress L → σ → m (Progress L × Written σ)
  | [], p, s => return (p, ⟨[], s, true⟩)
  | line :: rest, p, s => do
    let (p, location) ← annotateLine load modules p line
    let first := w.writePieces s (piecesOf modules line location)
    if first.isDone then
      let (p, others) ← writeLinesTo modules rest p first.state
      return (p, { others with taken := first.taken ++ others.taken })
    else return (p, first)

/-- Reads a report line by line, writes its translation piece by piece, and flushes the writer at the end. The result
comes with the bytes that the writer has taken. -/
def translateTo (source : ReportSource) (s : σ) : m (Bytes × Except ReportError TranslateStats) := do
  match ExceptionReport.readLines source.fault (lineChunks source.bytes) .empty with
  | .error e => return ([], .error e)
  | .ok report =>
    let (p, written) ← writeLinesTo w load report.modules report.lines (start .unlimited) s
    if written.isDone && (w.flush written.state).2 then return (written.taken, .ok p.stats)
    else return (written.taken, .error .write)

end Writing

/-! ## What a sink gets -/

section Runs

variable {τ L : Type} [SourceLookups (StateM τ) L] (load : SymbolLoader (StateM τ) L) (modules : ModuleTable)

/-- A line is annotated, whatever has been written, and then written. -/
theorem run_writeLines_cons (line : Bytes) (rest : List Bytes) (p : Progress L) (sink : Sink) (t : τ) :
    (writeLines load modules (line :: rest) (p.withSink sink)).run t =
      let r := (annotateLine load modules p line).run t
      let w := sink.write (rendered modules line r.1.2)
      if w.2 then (writeLines load modules rest (r.1.1.withSink w.1)).run r.2
      else ((r.1.1.withSink w.1, false), r.2) := by
  rw [writeLines, translateLine_eq, annotateLine_withSink]
  simp only [Functor.map_map, bind_map_left, run_bind, Progress.withSink]
  split <;> rfl

/-- **With enough room, everything is written.** -/
theorem run_writeLines_of_le (lines : List Bytes) (p : Progress L) (t : τ) (accepted : Bytes) (room : Option Nat)
    (flushFails : Bool)
    (hroom : ∀ n, room = some n → (render modules lines ((annotate load modules lines p).run t).1.2).length ≤ n) :
    (writeLines load modules lines (p.withSink ⟨accepted, room, flushFails⟩)).run t =
      let r := (annotate load modules lines p).run t
      let full := render modules lines r.1.2
      ((r.1.1.withSink ⟨accepted ++ full, room.map (· - full.length), flushFails⟩, true), r.2) := by
  induction lines generalizing p t accepted room with
  | nil =>
    show ((p.withSink _, true), t) = ((p.withSink _, true), t)
    cases room <;> simp [render]
  | cons line rest ih =>
    rw [run_annotate_cons] at hroom ⊢
    rw [run_writeLines_cons]
    generalize (annotateLine load modules p line).run t = r at hroom ⊢
    simp only [render_cons, List.length_append] at hroom ⊢
    rw [Sink.write_of_le (s := ⟨accepted, room, flushFails⟩) _ fun n hn => Nat.le_of_add_right_le (hroom n hn),
      if_pos rfl, ih]
    · simp only [List.append_assoc, Option.map_map, Nat.sub_sub, Function.comp_def]
    · intro n hn
      obtain ⟨k, hk, rfl⟩ := Option.map_eq_some_iff.1 hn
      have := hroom k hk
      omega

/-- **With too little room, the first bytes are written**, in whichever line they end. -/
theorem exists_run_writeLines_of_lt (lines : List Bytes) (p : Progress L) (t : τ) (accepted : Bytes) (n : Nat)
    (flushFails : Bool)
    (hroom : n < (render modules lines ((annotate load modules lines p).run t).1.2).length) :
    ∃ q t', (writeLines load modules lines (p.withSink ⟨accepted, some n, flushFails⟩)).run t =
      ((Progress.withSink q ⟨accepted ++ (render modules lines ((annotate load modules lines p).run t).1.2).take n,
        some 0, flushFails⟩, false), t') := by
  induction lines generalizing p t accepted n with
  | nil => exact absurd hroom (Nat.not_lt_zero n)
  | cons line rest ih =>
    rw [run_annotate_cons] at hroom ⊢
    rw [run_writeLines_cons]
    generalize (annotateLine load modules p line).run t = r at hroom ⊢
    simp only [render_cons, List.length_append] at hroom ⊢
    by_cases hle : (rendered modules line r.1.2).length ≤ n
    · -- the room ends in one of the other lines
      obtain ⟨q, t', hrest⟩ := ih r.1.1 r.2 (accepted ++ rendered modules line r.1.2)
        (n - (rendered modules line r.1.2).length) (by omega)
      refine ⟨q, t', ?_⟩
      rw [Sink.write_of_le _ (by rintro _ ⟨⟩; exact hle)]
      simp only [if_true, Option.map_some, hrest, List.take_append, List.take_of_length_le hle, List.append_assoc]
    · have hlt := Nat.lt_of_not_le hle
      refine ⟨r.1.1, r.2, ?_⟩
      rw [Sink.write_of_lt _ _ hlt, List.take_append_of_le_length (Nat.le_of_lt hlt)]
      rfl

/-! ## Every writer is a sink -/

/-- **A writer is a sink with room for what it takes.** -/
theorem exists_room {σ : Type} (w : Writer σ) (flushFails : Bool) (lines : List Bytes) (p : Progress L)
    (accepted : Bytes) (s : σ) (t : τ) :
    ∃ n, (writeLines load modules lines (p.withSink ⟨accepted, some n, flushFails⟩)).run t =
      let r := (writeLinesTo w load modules lines p s).run t
      ((r.1.1.withSink ⟨accepted ++ r.1.2.taken, some 0, flushFails⟩, r.1.2.isDone), r.2) := by
  induction lines generalizing p accepted s t with
  | nil =>
    refine ⟨0, ?_⟩
    show ((p.withSink _, true), t) = ((p.withSink ⟨accepted ++ [], _, _⟩, true), t)
    rw [List.append_nil]
  | cons line rest ih =>
    simp only [run_writeLines_cons, writeLinesTo, run_bind]
    generalize (annotateLine load modules p line).run t = r
    obtain ⟨n, htaken, hdone⟩ := w.writePieces_eq_take s (piecesOf modules line r.1.2)
    rw [flatten_piecesOf] at htaken hdone
    by_cases hle : (rendered modules line r.1.2).length ≤ n
    · obtain ⟨k, hrest⟩ := ih r.1.1 (accepted ++ rendered modules line r.1.2)
        (w.writePieces s (piecesOf modules line r.1.2)).state r.2
      refine ⟨(rendered modules line r.1.2).length + k, ?_⟩
      rw [Sink.write_of_le _ (by rintro _ ⟨⟩; exact Nat.le_add_right _ _)]
      simp only [htaken, hdone, hle, decide_true, if_true, List.take_of_length_le hle, Option.map_some,
        Nat.add_sub_cancel_left, hrest, List.append_assoc]
      rfl
    · have hlt := Nat.lt_of_not_le hle
      refine ⟨n, ?_⟩
      rw [Sink.write_of_lt _ _ hlt]
      simp only [hdone, hle, decide_false, Bool.false_eq_true, if_false, run_pure, htaken]

end Runs

/-! ## Faults -/

section Faults

variable {τ L : Type} [SourceLookups (StateM τ) L] (load : SymbolLoader (StateM τ) L) (input accepted : Bytes)

/-- A report that can be read is annotated and written, and in the end the sink is flushed. -/
theorem translate_eq_writeLines (sink : Sink) :
    translate load ⟨input, none⟩ sink = do
      let r ← writeLines load (footerModules input) (bodyLines input) ((start .unlimited).withSink sink)
      if r.2 && ! r.1.sink.flushFails then return (r.1.sink, .ok r.1.stats) else return (r.1.sink, .error .write) := by
  rw [translate, ReportSource.read, ExceptionReport.parse_eq]
  rfl

theorem translateTo_eq_writeLinesTo {σ : Type} (w : Writer σ) (s : σ) :
    translateTo w load ⟨input, none⟩ s = do
      let r ← writeLinesTo w load (footerModules input) (bodyLines input) (start .unlimited) s
      if r.2.isDone && (w.flush r.2.state).2 then return (r.2.taken, .ok r.1.stats)
      else return (r.2.taken, .error .write) := by
  rw [translateTo, ExceptionReport.readLines_eq, ReportSource.read, ExceptionReport.parse_eq]

/-- The body of a text that can be read, with its locations, the counts and the state that finding them leaves. -/
def annotatedRun (t : τ) : (Progress L × List (Option SourceLocation)) × τ :=
  (annotate load (footerModules input) (bodyLines input) (start .unlimited)).run t

/-- What a sink without faults gets. -/
def fullOutput (t : τ) : Bytes := render (footerModules input) (bodyLines input) (annotatedRun load input t).1.2

theorem run_translate_of_le (room : Option Nat) (flushFails : Bool) (t : τ)
    (hroom : ∀ n, room = some n → (fullOutput load input t).length ≤ n) :
    (translate load ⟨input, none⟩ ⟨accepted, room, flushFails⟩).run t =
      ((⟨accepted ++ fullOutput load input t, room.map (· - (fullOutput load input t).length), flushFails⟩,
        if flushFails then .error .write else .ok (annotatedRun load input t).1.1.stats),
        (annotatedRun load input t).2) := by
  rw [translate_eq_writeLines, run_bind, run_writeLines_of_le load _ _ _ _ _ _ _ hroom]
  cases flushFails <;> rfl

theorem exists_run_translate_of_lt (n : Nat) (flushFails : Bool) (t : τ)
    (hroom : n < (fullOutput load input t).length) :
    ∃ t', (translate load ⟨input, none⟩ ⟨accepted, some n, flushFails⟩).run t =
      ((⟨accepted ++ (fullOutput load input t).take n, some 0, flushFails⟩, .error .write), t') := by
  obtain ⟨q, t', hrun⟩ := exists_run_writeLines_of_lt load _ _ _ t accepted n flushFails hroom
  rw [translate_eq_writeLines, run_bind, hrun]
  exact ⟨t', rfl⟩

/-- What is written for a writer, up to the end or to the write that fails. -/
def writtenTo {σ : Type} (w : Writer σ) (s : σ) (t : τ) : Written σ :=
  ((writeLinesTo w load (footerModules input) (bodyLines input) (start .unlimited) s).run t).1.2

/-- **A translation for a writer is one for a sink** with room for what the writer takes, so with enough room exactly if
no write fails. -/
theorem exists_run_translateTo {σ : Type} (w : Writer σ) (s : σ) (t : τ) :
    ∃ n, (writtenTo load input w s t).isDone = decide ((fullOutput load input t).length ≤ n) ∧
      (translateTo w load ⟨input, none⟩ s).run t =
        let r := (translate load ⟨input, none⟩ ⟨[], some n, ! (w.flush (writtenTo load input w s t).state).2⟩).run t
        ((r.1.1.accepted, r.1.2), r.2) := by
  -- the flush is asked for in the state that the writer is in behind its last write
  let flushFails := ! (w.flush (writtenTo load input w s t).state).2
  obtain ⟨n, hrun⟩ := exists_room load (footerModules input) w flushFails (bodyLines input) (start .unlimited) [] s t
  refine ⟨n, ?_, ?_⟩
  · by_cases hle : (fullOutput load input t).length ≤ n
    · have hall := run_writeLines_of_le load (footerModules input) (bodyLines input) (start .unlimited) t [] (some n)
        flushFails (by rintro _ ⟨⟩; exact hle)
      rw [decide_eq_true hle]
      exact congrArg (·.1.2) (hrun.symm.trans hall)
    · obtain ⟨q, t', hcut⟩ := exists_run_writeLines_of_lt load (footerModules input) (bodyLines input)
        (start .unlimited) t [] n flushFails (Nat.lt_of_not_le hle)
      rw [decide_eq_false hle]
      exact congrArg (·.1.2) (hrun.symm.trans hcut)
  · rw [translate_eq_writeLines, translateTo_eq_writeLinesTo, run_bind, run_bind, hrun]
    simp only [Progress.withSink, List.nil_append, flushFails, writtenTo, Bool.not_not]
    split <;> rfl

/-- **Faults leave nothing wrong behind.** For every text, every way to load debug information and every state it starts
in, there is one complete output, which a sink without faults gets, such that:
- If the reading fails, at the start or in any line, the result is that fault, the sink is as it was, and nothing has
  been loaded, whatever has been read before.
- A sink that takes fewer bytes than the output has, gets exactly so many of its first bytes, and the writing fails.
- A sink that takes all of them but cannot be flushed gets the complete output, and the writing fails.
- If the translation works, its sink has got the complete output, and it reports the same as without faults.

The same holds for every writer that frames are written to piece by piece, however little of a piece it takes at a time
and wherever it fails: the result and the bytes that it gets are those for a sink that takes so many bytes, all of them
exactly if no write fails, and that cannot be flushed if the writer cannot be in the end. -/
theorem translate_faults (t : τ) :
    (∀ cause sink, translate load ⟨input, some cause⟩ sink = pure (sink, .error (.read cause))) ∧
    (∀ {σ : Type} (w : Writer σ) cause s,
      translateTo w load ⟨input, some cause⟩ s = pure ([], .error (.read cause))) ∧
    ∃ full stats t',
      (translate load ⟨input, none⟩ .unlimited).run t = ((⟨full, none, false⟩, .ok stats), t') ∧
      (∀ n flushFails, n < full.length → ((translate load ⟨input, none⟩ ⟨accepted, some n, flushFails⟩).run t).1 =
        (⟨accepted ++ full.take n, some 0, flushFails⟩, .error .write)) ∧
      (∀ room, (∀ n, room = some n → full.length ≤ n) →
        ((translate load ⟨input, none⟩ ⟨accepted, room, true⟩).run t).1 =
          (⟨accepted ++ full, room.map (· - full.length), true⟩, .error .write)) ∧
      (∀ room flushFails sink found,
        ((translate load ⟨input, none⟩ ⟨accepted, room, flushFails⟩).run t).1 = (sink, .ok found) →
          sink.accepted = accepted ++ full ∧ found = stats) ∧
      ∀ {σ : Type} (w : Writer σ) s, ∃ n, (writtenTo load input w s t).isDone = decide (full.length ≤ n) ∧
        (translateTo w load ⟨input, none⟩ s).run t =
          let r := (translate load ⟨input, none⟩ ⟨[], some n, ! (w.flush (writtenTo load input w s t).state).2⟩).run t
          ((r.1.1.accepted, r.1.2), r.2) := by
  refine ⟨fun _ _ => rfl, fun w cause s => ?_, fullOutput load input t, (annotatedRun load input t).1.1.stats,
    (annotatedRun load input t).2, ?_, ?_, ?_, ?_, fun w s => exists_run_translateTo load input w s t⟩
  · rw [translateTo, ExceptionReport.readLines_some]
  · exact run_translate_of_le load input [] none false t fun _ h => nomatch h
  · intro n flushFails hlt
    obtain ⟨t', hrun⟩ := exists_run_translate_of_lt load input accepted n flushFails t hlt
    rw [hrun]
  · intro room hroom
    rw [run_translate_of_le load input accepted room true t hroom, if_pos rfl]
  · intro room flushFails sink found hok
    by_cases hroom : ∀ n, room = some n → (fullOutput load input t).length ≤ n
    · rw [run_translate_of_le load input accepted room flushFails t hroom] at hok
      cases flushFails with
      | true => cases hok
      | false =>
        cases hok
        exact ⟨rfl, rfl⟩
    · -- a translation that stops at a write does not work
      simp only [not_forall, not_le] at hroom
      obtain ⟨n, rfl, hlt⟩ := hroom
      obtain ⟨t', hrun⟩ := exists_run_translate_of_lt load input accepted n flushFails t hlt
      rw [hrun] at hok
      cases hok

end Faults

end Translate

end Symbolicate
