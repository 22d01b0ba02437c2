import Mathlib.Data.List.TakeWhile
import Symbolicate.PortablePdb.Lookup
import Symbolicate.Proofs.PortablePdb.Machine.Points
import Symbolicate.Proofs.PortablePdb.Machine.Tables

/-!
# Look-ups on machine words

A blob is shorter than 2^29 bytes, because its length is a compressed number. So a document name has fewer than 2^29
parts of fewer than 2^29 bytes, the loop over its parts ends, and its length can be computed before the parts are put
together (`nameAt_eq`). With the tables in their places, a look-up gives what it gives without words (`lookup_eq`).
-/

namespace Symbolicate.PortablePdb.Machine

/-- What look-ups need of a file. -/
structure File where
  tables : Option (List Table)
  blobs : Option Bytes

namespace File

/-! ## Blobs and cells -/

/-- The blob at an offset of the heap. -/
def blob (f : File) (offset : Nat) : Machine Bytes := do
  let heap ← answer (require .noBlobStream f.blobs)
  let data ← answer (require .invalidBlobOffset (Bytes.from? heap offset))
  let (length, data) ← unsigned data
  answer (require .invalidBlobData (Bytes.slice? data 0 length))

/-- The table in the place of its number. -/
def table (f : File) (k : TableKind) : Machine Table := do
  let tables ← answer (require .noMetadataStream f.tables)
  get tables k.number

def cell (f : File) (k : TableKind) (row col : Nat) : Machine Nat := do
  (← f.table k).cell row col

/-! ## Document names -/

/-- The number of bytes of a text. -/
def textLength (text : List Char) : Nat := (Utf8.encode text).length

/-- A part of a document name, which is empty for offset zero. -/
def namePart (f : File) (offset : Nat) : Machine (List Char) :=
  if offset = 0 then return [] else do answer (requireText .invalidBlobData (Utf8.decode? (← f.blob offset)))

/-- One part of a document name, behind those that have been found. -/
def nextPart (f : File) (s : List (List Char) × Bytes) : Machine (List (List Char) ⊕ List (List Char) × Bytes) :=
  if s.2 = [] then return .inl s.1
  else do
    let (offset, data) ← unsigned s.2
    let part ← f.namePart offset
    return .inr (s.1 ++ [part], data)

/-- The parts of a document name that have been found, and those of `data` behind them. -/
noncomputable def nameParts (f : File) (found : List (List Char)) (data : Bytes) : Machine (List (List Char)) :=
  loop f.nextPart (found, data)

/-- What stands between the parts of a document name. -/
def separator (b : UInt8) : Machine (List Char) :=
  if b = 0 then return [] else answer (requireText .invalidBlobData (Utf8.decode? [b]))

/-- Room for so many bytes, which a signed number of 64 bits has to count. -/
def allocate (length : Nat) : Machine Unit := if length < 0x8000000000000000 then return () else stop

/-- Texts put together with a separator. The length is computed and room is made for it before. -/
def join (sep : List Char) (parts : List (List Char)) : Machine (List Char) :=
  match parts with
  | [] => return []
  | _ :: others => do
    let separators ← usize (textLength sep * others.length)
    allocate (← sumFrom separators (fun part => return textLength part) parts)
    return sep.intercalate parts

/-- The document name in the blob at an offset. -/
noncomputable def nameAt (f : File) (offset : Nat) : Machine (List Char) := do
  match ← f.blob offset with
  | [] => throw (.plain .invalidBlobOffset)
  | first :: data => do
    let sep ← separator first
    join sep (← f.nameParts [] data)

/-- The name of the document in a row of the `Document` table. -/
noncomputable def documentName (f : File) (row : Nat) : Machine String := do
  let offset ← f.cell .document row 1
  return String.ofList (← ExceptT.adapt (.caused .invalidDocumentName) (f.nameAt offset))

/-! ## Look-ups -/

/-- The sequence points of the method in a row of the `MethodDebugInformation` table. -/
noncomputable def sequencePoints (f : File) (row : Nat) : Machine (List Point) := do
  let document ← f.cell .methodDebugInformation row 1
  let offset ← f.cell .methodDebugInformation row 2
  if offset = 0 then return [] else do pointsOfBlob document (← f.blob offset)

/-- The document and line of an offset into the code of the method with a token. -/
noncomputable def lookup (f : File) (token offset : UInt32) : Machine (Option LineInfo) := do
  let table ← shiftRight 32 token.toNat 24
  if table ≠ TableKind.methodDef.number then return none
  else do
    let row := token.toNat % 0x1000000
    let rows := (← f.table .methodDebugInformation).rows
    if row = 0 ∨ row > rows then return none
    else do
      match best? offset.toNat (← f.sequencePoints row) with
      | none => return none
      | some point => return some ⟨← f.documentName point.document, point.startLine⟩

/-- A file serves the same look-ups as another one without words. -/
structure Serves (f : File) (p : PortablePdb) : Prop where
  tables : Option.Rel Machine.Serves f.tables p.tables
  blobs : f.blobs = p.blobs

/-! ## Blobs and cells are read -/

namespace Serves

variable {f : File} {p : PortablePdb} (h : f.Serves p)
include h

theorem blob_eq (offset : Nat) : f.blob offset = answer (p.blob offset) := by
  rw [blob, PortablePdb.blob, h.blobs]
  simp only [answer_bind, unsigned_eq]

/-- A file without tables serves one without; else the table of every kind is in its place. -/
theorem tables_cases : f.tables = none ∧ p.tables = none ∨
    ∃ tables s, f.tables = some tables ∧ p.tables = some s ∧ Machine.Serves tables s := by
  have hrel := h.tables
  revert hrel
  generalize f.tables = tables
  generalize p.tables = s
  rintro (hserves | _)
  · exact .inr ⟨_, _, rfl, rfl, hserves⟩
  · exact .inl ⟨rfl, rfl⟩

theorem table_eq (k : TableKind) : f.table k = answer p.tableStream >>= fun s => pure (.of (s.table? k)) := by
  rw [table, tableStream]
  rcases h.tables_cases with ⟨hf, hp⟩ | ⟨tables, s, hf, hp, hserves⟩
  · rw [hf, hp]
    rfl
  · rw [hf, hp, require_some, require_some, answer_ok, answer_ok, pure_bind, pure_bind]
    exact get_of_eq (hserves.getElem? k)

/-- **A cell is read without stopping.** -/
theorem cell_eq (k : TableKind) (row col : Nat) : f.cell k row col = answer (p.cell k row col) := by
  rw [cell, h.table_eq, PortablePdb.cell, tableStream]
  rcases h.tables_cases with ⟨-, hp⟩ | ⟨tables, s, -, hp, hserves⟩
  · rw [hp]
    rfl
  · have hlimits : ∀ t, s.table? k = some t → TableInLimits t := fun t ht =>
      hserves.limits t (List.mem_of_find?_eq_some ht)
    rw [hp, require_some, answer_ok, pure_bind, pure_bind, ok_bind, Table.cell_of hlimits, TableStream.cell]
    cases s.table? k <;> rfl

end Serves

theorem limits_of_sequencePoints {p : PortablePdb} {row : Nat} {points : List SequencePoint}
    (h : p.sequencePoints row = .ok points) : ∀ point ∈ points, InLimits point.span := by
  obtain ⟨document, -, h⟩ := exists_of_bind h
  obtain ⟨offset, -, h⟩ := exists_of_bind h
  split at h
  · cases h
    exact List.forall_mem_nil _
  · obtain ⟨b, -, h⟩ := exists_of_bind h
    exact limits_of_ofBlob h

theorem length_blob_lt {p : PortablePdb} {offset : Nat} {b : Bytes} (h : p.blob offset = .ok b) :
    b.length < 0x20000000 := by
  obtain ⟨heap, -, h⟩ := exists_of_bind h
  obtain ⟨data, -, h⟩ := exists_of_bind h
  obtain ⟨r, hlength, h⟩ := exists_of_bind h
  rw [Bytes.length_slice? (eq_some_of_require h)]
  exact (bounds_of_unsigned hlength).1

/-! ## Document names are read -/

theorem length_encode_le {b : Bytes} {text : List Char} (h : Utf8.decode? b = some text) :
    textLength text ≤ b.length := by
  have hvalid : Utf8.validStart b = text := by
    rw [Utf8.decode?] at h
    split at h
    · next hall =>
      rw [Utf8.validStart, List.takeWhile_eq_self_iff.2 (fun c hc => List.all_eq_true.1 hall c hc)]
      exact Option.some.inj h
    · cases h
  have hbytes := Utf8.encode_validStart_prefix b
  rw [textLength, ← hvalid]
  exact hbytes.length_le

/-- A part of a document name, as it is read without words. -/
def partOf (p : PortablePdb) (offset : Nat) : Except FormatError (List Char) :=
  if offset = 0 then pure [] else do requireText .invalidBlobData (Utf8.decode? (← p.blob offset))

/-- The parts of a document name step by step. -/
theorem nameParts_cons (p : PortablePdb) (fuel : Nat) (b : UInt8) (rest : Bytes) :
    p.nameParts (fuel + 1) (b :: rest) = (do
      let (offset, data) ← SequencePoint.unsigned (b :: rest)
      let part ← partOf p offset
      let parts ← p.nameParts fuel data
      return part :: parts) := by
  rw [PortablePdb.nameParts]
  refine congrArg _ (funext fun r => ?_)
  unfold partOf
  dsimp only
  split
  · rfl
  · simp only [bind_assoc]

/-- What stands between parts, as it is read without words. -/
def separatorOf (b : UInt8) : Except FormatError (List Char) :=
  if b = 0 then pure [] else requireText .invalidBlobData (Utf8.decode? [b])

/-- A document name step by step. -/
theorem nameAt_eq_steps (p : PortablePdb) (offset : Nat) :
    p.nameAt offset = (do
      match ← p.blob offset with
      | [] => throw (.plain .invalidBlobOffset)
      | first :: data => do
        let sep ← separatorOf first
        let parts ← p.nameParts data.length data
        return sep.intercalate parts) := by
  rw [PortablePdb.nameAt]
  refine congrArg _ (funext fun b => ?_)
  cases b with
  | nil => rfl
  | cons first data =>
    unfold separatorOf
    dsimp only
    split <;> rfl

theorem textLength_of_partOf {p : PortablePdb} {offset : Nat} {part : List Char} (h : partOf p offset = .ok part) :
    textLength part ≤ 0x20000000 := by
  unfold partOf at h
  split at h
  · cases h
    exact Nat.zero_le _
  · obtain ⟨b, hblob, h⟩ := exists_of_bind h
    exact Nat.le_trans (length_encode_le (eq_some_of_requireText h)) (Nat.le_of_lt (length_blob_lt hblob))

/-- What stands between parts has at most one byte. -/
theorem textLength_of_separatorOf {b : UInt8} {sep : List Char} (h : separatorOf b = .ok sep) : textLength sep ≤ 1 := by
  unfold separatorOf at h
  split at h
  · cases h
    exact Nat.zero_le _
  · exact length_encode_le (eq_some_of_requireText h)

theorem separator_eq (b : UInt8) : separator b = answer (separatorOf b) := by
  unfold separator separatorOf
  split <;> rfl

/-- **Texts are put together without stopping** if there are not too many and none is too long. -/
theorem join_eq {sep : List Char} {parts : List (List Char)} (hsep : textLength sep ≤ 1)
    (hcount : parts.length ≤ 0x20000000) (hparts : ∀ part ∈ parts, textLength part ≤ 0x20000000) :
    join sep parts = pure (sep.intercalate parts) := by
  cases parts with
  | nil => rfl
  | cons part others =>
    have hseparators : textLength sep * others.length ≤ 1 * 0x20000000 := by
      rw [List.length_cons] at hcount
      exact Nat.mul_le_mul hsep (by omega)
    have hsizes : ∀ size ∈ (part :: others).map textLength, size ≤ 0x20000000 := by
      intro size hsize
      obtain ⟨text, htext, rfl⟩ := List.mem_map.1 hsize
      exact hparts text htext
    have htotal : Bytes.total ((part :: others).map textLength) ≤ 0x20000000 * 0x20000000 :=
      Nat.le_trans (total_le hsizes) (Nat.mul_le_mul_right _ (by rwa [List.length_map]))
    have hlength : textLength sep * others.length + Bytes.total ((part :: others).map textLength) <
        0x8000000000000000 := by
      omega
    simp only [join]
    rw [usize_of_lt (by omega), pure_bind, sumFrom_eq (fun _ _ => rfl) (by omega), pure_bind, allocate, if_pos hlength,
      pure_bind]

theorem bounds_of_nameParts {p : PortablePdb} {fuel : Nat} {data : Bytes} {parts : List (List Char)}
    (h : p.nameParts fuel data = .ok parts) :
    parts.length ≤ data.length ∧ ∀ part ∈ parts, textLength part ≤ 0x20000000 := by
  induction fuel generalizing data parts with
  | zero =>
    cases data <;> (cases h; exact ⟨Nat.zero_le _, List.forall_mem_nil _⟩)
  | succ fuel ih =>
    cases data with
    | nil =>
      cases h
      exact ⟨Nat.le_refl _, List.forall_mem_nil _⟩
    | cons b rest =>
      rw [nameParts_cons] at h
      obtain ⟨r, hoffset, h⟩ := exists_of_bind h
      obtain ⟨part, hpart, h⟩ := exists_of_bind h
      obtain ⟨others, hothers, h⟩ := exists_of_bind h
      have hshorter := (bounds_of_unsigned hoffset).2
      obtain ⟨hlength, hall⟩ := ih hothers
      cases h
      refine ⟨?_, List.forall_mem_cons.2 ⟨textLength_of_partOf hpart, hall⟩⟩
      rw [List.length_cons]
      omega

namespace Serves

variable {f : File} {p : PortablePdb} (h : f.Serves p)
include h

theorem namePart_eq (offset : Nat) : f.namePart offset = answer (partOf p offset) := by
  unfold namePart partOf
  split
  · rfl
  · rw [h.blob_eq, answer_bind]

/-- **The loop over the parts of a document name ends**, and gives the parts that have been found and those left. -/
theorem nameParts_eq {fuel : Nat} {data : Bytes} (hfuel : data.length ≤ fuel) (found : List (List Char)) :
    f.nameParts found data = answer ((p.nameParts fuel data).map (found ++ ·)) := by
  induction fuel generalizing data found with
  | zero =>
    cases List.length_eq_zero_iff.1 (Nat.le_zero.1 hfuel)
    rw [nameParts, loop_eq, nextPart, if_pos rfl, PortablePdb.nameParts]
    simp [Except.map]
  | succ fuel ih =>
    cases data with
    | nil =>
      rw [nameParts, loop_eq, nextPart, if_pos rfl, PortablePdb.nameParts]
      simp [Except.map]
    | cons b rest =>
      rw [nameParts, loop_eq, nextPart, if_neg (List.cons_ne_nil b rest), nameParts_cons, unsigned_eq]
      cases hoffset : SequencePoint.unsigned (b :: rest) with
      | error e => rfl
      | ok r =>
        have hshorter := (bounds_of_unsigned hoffset).2
        rw [List.length_cons] at hfuel hshorter
        rw [answer_ok, pure_bind, ok_bind]
        dsimp only
        rw [h.namePart_eq]
        cases partOf p r.1 with
        | error e => rfl
        | ok part =>
          rw [answer_ok, pure_bind, ok_bind, pure_bind, Sum.elim_inr, ← nameParts, ih (by omega)]
          cases p.nameParts fuel r.2 with
          | error e => rfl
          | ok parts => simp [Except.map]

/-- **A document name is read without stopping.** -/
theorem nameAt_eq (offset : Nat) : f.nameAt offset = answer (p.nameAt offset) := by
  rw [nameAt, nameAt_eq_steps, h.blob_eq]
  cases hblob : p.blob offset with
  | error e => rfl
  | ok b =>
    rw [answer_ok, pure_bind, ok_bind]
    cases b with
    | nil => rfl
    | cons first data =>
      have hlength := length_blob_lt hblob
      rw [List.length_cons] at hlength
      dsimp only
      rw [separator_eq]
      cases hsep : separatorOf first with
      | error e => rfl
      | ok sep =>
        rw [answer_ok, pure_bind, ok_bind, h.nameParts_eq (Nat.le_refl data.length)]
        cases hparts : p.nameParts data.length data with
        | error e => rfl
        | ok parts =>
          obtain ⟨hcount, hall⟩ := bounds_of_nameParts hparts
          have hfew : parts.length ≤ 0x20000000 := by omega
          exact join_eq (textLength_of_separatorOf hsep) hfew hall

theorem documentName_eq (row : Nat) : f.documentName row = answer (p.documentName row) := by
  rw [documentName, PortablePdb.documentName, h.cell_eq]
  cases p.cell .document row 1 with
  | error e => rfl
  | ok offset =>
    rw [answer_ok, pure_bind, ok_bind, h.nameAt_eq]
    cases p.nameAt offset <;> rfl

/-! ## Look-ups are answered -/

theorem sequencePoints_eq (row : Nat) :
    f.sequencePoints row = answer ((p.sequencePoints row).map (·.map Point.of)) := by
  rw [sequencePoints, PortablePdb.sequencePoints, h.cell_eq, h.cell_eq]
  cases p.cell .methodDebugInformation row 1 with
  | error e => rfl
  | ok document =>
    rw [answer_ok, pure_bind, ok_bind]
    cases p.cell .methodDebugInformation row 2 with
    | error e => rfl
    | ok offset =>
      rw [answer_ok, pure_bind, ok_bind]
      split
      · rfl
      · rw [h.blob_eq]
        cases p.blob offset with
        | error e => rfl
        | ok b => exact pointsOfBlob_eq document b

theorem lookup_eq (token offset : UInt32) : f.lookup token offset = answer (p.lookup token offset) := by
  have htoken : token.toNat >>> 24 = token.toNat / 0x1000000 := Nat.shiftRight_eq_div_pow token.toNat 24
  rw [lookup, shiftRight_of_lt (by omega), pure_bind, htoken, PortablePdb.lookup]
  split
  · rfl
  · rw [h.table_eq]
    cases hs : p.tableStream with
    | error e => rfl
    | ok s =>
      have hrows : (Table.of (s.table? .methodDebugInformation)).rows = s.rowsOf .methodDebugInformation := by
        rw [TableStream.rowsOf]
        cases s.table? .methodDebugInformation <;> rfl
      rw [answer_ok, pure_bind, pure_bind, ok_bind]
      dsimp only
      rw [hrows]
      split
      · rfl
      · rw [h.sequencePoints_eq]
        cases hpoints : p.sequencePoints (token.toNat % 0x1000000) with
        | error e => rfl
        | ok points =>
          simp only [Except.map, answer_ok, pure_bind, ok_bind]
          rw [best?_eq offset.toNat (limits_of_sequencePoints hpoints)]
          cases hbest : SequencePoint.best? offset.toNat points with
          | none => rfl
          | some point =>
            have hvisible := isHidden_of_best? hbest
            obtain ⟨start, document, span⟩ := point
            cases span with
            | none => cases hvisible
            | some span =>
              simp only [Option.map_some, Point.of, Option.elim_some, h.documentName_eq]
              cases p.documentName document <;> rfl

end Serves

end File

end Symbolicate.PortablePdb.Machine
