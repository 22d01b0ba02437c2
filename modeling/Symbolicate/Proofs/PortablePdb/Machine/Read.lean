import Symbolicate.Proofs.PortablePdb.Machine.Lookup
import Symbolicate.Proofs.PortablePdb.Parts

/-!
# Reading on machine words

The metadata root is read from the parts of a file that are left, instead of from offsets into the file. A cut behind a
length that was read from the file is in range because the bytes in front of it have been taken out before, and the end
of a stream saturates instead of leaving 64 bits. So a file is read without stopping (`read_agrees`), and together with
look-ups that do not stop either, nothing that a file says can keep the reader from an answer (`read_never_stops`).
-/

namespace Symbolicate.PortablePdb.Machine

/-! ## Parts of a file -/

/-- A part of a file that is left to read, with the offset in the file that it starts at. -/
structure View where
  start : Nat
  bytes : Bytes

namespace View

/-- A structure of `size` bytes at the start of a part, and the part behind it. The structure has to start at a multiple
of its alignment. -/
def header? (v : View) (align size : Nat) : Option (Bytes × View) :=
  if v.start % align = 0 ∧ size ≤ v.bytes.length then
    some (v.bytes.take size, ⟨v.start + size, v.bytes.drop size⟩)
  else none

/-- The part behind `n` bytes, if there are as many. -/
def from? (v : View) (n : Nat) : Option View := (Bytes.from? v.bytes n).map fun rest => ⟨v.start + n, rest⟩

/-- The part behind `n` bytes, of which there have to be as many. -/
def behind (v : View) (n : Nat) : Machine View := do return ⟨v.start + n, ← Machine.behind v.bytes n⟩

/-- The part of a file from an offset on. -/
def ofFile (b : Bytes) (pos : Nat) : View := ⟨pos, b.drop pos⟩

end View

/-- The sum of two unsigned numbers of 64 bits, or the greatest of these if it is none. -/
def saturatingAdd (a b : Nat) : Nat := min (a + b) 0xFFFFFFFFFFFFFFFF

/-! ## The directory -/

/-- The streams found so far: the row counts of the assembly's tables are read when they are met, the tables when the
directory has ended. -/
structure Streams where
  referenced : Option (List Nat)
  tables : Option View
  blobs : Option Bytes

/-- The row counts of the assembly's tables in the `#Pdb` stream. -/
def readReferenced (v : View) : Machine (List Nat) := do
  let (header, rest) ← answer (require .invalidHeader (v.header? 4 32))
  let (counts, _) ← rowCounts (Bytes.le (header.drop 24)) (List.range 64) rest.bytes
  return counts

def Streams.add (s : Streams) (name : List Char) (contents : View) : Machine Streams := do
  if name = "#Pdb".toList then return { s with referenced := some (← readReferenced contents) }
  else if name = "#~".toList then return { s with tables := some contents }
  else if name = "#Blob".toList then return { s with blobs := some contents.bytes }
  else return s

/-- Reads a directory entry at the start of a part and gives the stream's name and contents, and the part behind the
entry. -/
def directoryEntry (file : Bytes) (v : View) : Machine (List Char × View × View) := do
  let (header, rest) ← answer (require .invalidStreamHeader (v.header? 4 8))
  let nameBytes := Bytes.untilNul ((Bytes.slice? rest.bytes 0 32).getD rest.bytes)
  let name ← answer (requireText .invalidStreamName (Utf8.decode? nameBytes))
  let padded ← usize (nameBytes.length + 4)
  let next ← answer (require .invalidLength (rest.from? (padded - padded % 4)))
  let start := Bytes.le (header.take 4)
  let stop := saturatingAdd start (Bytes.le (header.drop 4))
  let contents ← answer (require .invalidLength (range? file start stop))
  return (name, ⟨start, contents⟩, next)

/-- Reads as many directory entries as told. -/
def readDirectory (file : Bytes) : Nat → View → Streams → Machine Streams
  | 0, _, s => return s
  | count + 1, v, s => do
    let (name, contents, next) ← directoryEntry file v
    let s ← s.add name contents
    readDirectory file count next s

/-! ## The file -/

def readTableStream (s : Streams) : Machine (Option (List Table)) :=
  match s.tables with
  | none => return none
  | some v => do return some (← readTables v.bytes v.start (s.referenced.getD (List.replicate 64 0)))

def read (b : Bytes) : Machine File := do
  let (header, rest) ← answer (require .invalidHeader ((View.ofFile b 0).header? 4 16))
  if Bytes.le (header.take 4) ≠ signature then throw (.plain .invalidSignature)
  else do
    let versionLength := Bytes.le (header.drop 12)
    let version ← answer (require .invalidLength (Bytes.slice? rest.bytes 0 versionLength))
    let _ ← answer (requireText .invalidVersionString (Utf8.toString? (Bytes.untilNul version)))
    let tail ← rest.behind versionLength
    let (counts, entries) ← answer (require .invalidHeader (tail.header? 2 4))
    let streams ← readDirectory b (Bytes.le (counts.drop 2)) entries ⟨none, none, none⟩
    return ⟨← readTableStream streams, streams.blobs⟩

/-! ## Parts are where they start -/

theorem slice?_drop {b : Bytes} {pos len : Nat} (h : 0 < len ∨ pos ≤ b.length) :
    Bytes.slice? (b.drop pos) 0 len = Bytes.slice? b pos len := by
  simp only [Bytes.slice?, List.length_drop, List.drop_zero]
  exact if_congr (by omega) rfl rfl

theorem header?_eq (v : View) (align size : Nat) :
    v.header? align size = (if v.start % align = 0 then Bytes.slice? v.bytes 0 size else none).map fun header =>
      (header, ⟨v.start + size, v.bytes.drop size⟩) := by
  unfold View.header? Bytes.slice?
  by_cases halign : v.start % align = 0
  · by_cases hlength : size ≤ v.bytes.length
    · simp [halign, hlength]
    · simp [halign, hlength]
  · simp [halign]

theorem header?_ofFile (b : Bytes) {align pos size : Nat} (hsize : 0 < size) :
    (View.ofFile b pos).header? align size =
      (aligned? b align pos size).map fun header => (header, View.ofFile b (pos + size)) := by
  rw [header?_eq]
  simp only [View.ofFile, slice?_drop (.inl hsize), List.drop_drop, aligned?]

theorem from?_ofFile (b : Bytes) {pos : Nat} (hpos : pos ≤ b.length) (n : Nat) :
    (View.ofFile b pos).from? n = (Bytes.from? b (pos + n)).map fun _ => View.ofFile b (pos + n) := by
  simp only [View.from?, View.ofFile, Bytes.from?, List.length_drop, List.drop_drop]
  by_cases hn : pos + n ≤ b.length
  · rw [if_pos (by omega), if_pos hn]
    rfl
  · rw [if_neg (by omega), if_neg hn]
    rfl

/-! ## The directory is read -/

/-- Streams that were found on both sides. -/
structure Streams.Serves (s : Streams) (t : PortablePdb.Streams) : Prop where
  referenced : s.referenced = t.id.map (·.referenced)
  length : ∀ counts, s.referenced = some counts → counts.length = 64
  tables : s.tables = t.tables.map fun r => ⟨r.1, r.2⟩
  blobs : s.blobs = t.blobs

/-- Sixteen bytes are an identifier. -/
theorem exists_ofFile? {b : Bytes} (h : b.length = 16) : ∃ guid, Guid.ofFile? b = some guid := by
  rw [Guid.ofFile?, Guid.ofBytes?, dif_pos (by rw [Guid.length_swapFields, h])]
  exact ⟨_, rfl⟩

theorem readReferenced_agrees (start : Nat) (contents : Bytes) :
    Agrees (fun counts id => counts = id.referenced ∧ counts.length = 64) (readReferenced ⟨start, contents⟩)
      (IdStream.read contents start) := by
  rw [readReferenced, header?_eq, IdStream.read]
  cases hheader : if start % 4 = 0 then Bytes.slice? contents 0 32 else none with
  | none =>
    exact .of_error _ _
  | some header =>
    have hlength : header.length = 32 := by
      split at hheader
      · exact Bytes.length_slice? hheader
      · cases hheader
    obtain ⟨guid, hguid⟩ := exists_ofFile? (b := header.take 16) (by rw [List.length_take, hlength]; rfl)
    simp only [Option.map_some, require_some, answer_ok, pure_bind, ok_bind, hguid]
    refine Agrees.bind (rowCounts_agrees contents _ 32) ?_
    rintro _ ⟨counts, stop⟩ ⟨rfl, hcounts, -⟩
    exact .of_pure ⟨rfl, hcounts⟩

theorem saturatingAdd_of_lt {a b : Nat} (h : a + b < 0x10000000000000000) : saturatingAdd a b = a + b :=
  Nat.min_eq_left (Nat.le_of_lt_succ h)

theorem getD_slice? (b : Bytes) (len : Nat) : (Bytes.slice? b 0 len).getD b = b.take len := by
  unfold Bytes.slice?
  split
  · simp
  · rw [Option.getD_none, List.take_of_length_le (by omega)]

/-- **A directory entry is read without stopping.** -/
theorem directoryEntry_agrees (b : Bytes) (pos : Nat) :
    Agrees (fun r s => r = (s.1, ⟨s.2.1, s.2.2.1⟩, View.ofFile b s.2.2.2)) (directoryEntry b (View.ofFile b pos))
      (PortablePdb.directoryEntry b pos) := by
  rw [directoryEntry, header?_ofFile b (by decide), PortablePdb.directoryEntry]
  cases hheader : aligned? b 4 pos 8 with
  | none => exact .of_error _ _
  | some header =>
    obtain ⟨hpos, hlength⟩ := le_of_aligned? hheader
    rw [Option.map_some, require_some, require_some, answer_ok, pure_bind, ok_bind]
    dsimp only
    rw [getD_slice?, show (View.ofFile b (pos + 8)).bytes = b.drop (pos + 8) from rfl]
    have hname := Bytes.length_untilNul_le ((b.drop (pos + 8)).take 32)
    have htake := List.length_take_le 32 (b.drop (pos + 8))
    generalize Bytes.untilNul ((b.drop (pos + 8)).take 32) = nameBytes at hname ⊢
    refine Agrees.bind_answer fun name _ => ?_
    have hpadded : nameBytes.length + 4 - (nameBytes.length + 4) % 4 = Bytes.roundUp4 (nameBytes.length + 1) := by
      rw [Bytes.roundUp4]
      omega
    rw [usize_of_lt (by omega), pure_bind, hpadded, from?_ofFile b hpos]
    cases Bytes.from? b (pos + 8 + Bytes.roundUp4 (nameBytes.length + 1)) with
    | none => exact .of_error _ _
    | some _ =>
      -- both numbers have 32 bits, so their sum does not saturate
      have hstart := Bytes.le_lt (header.take 4)
      have hsize := Bytes.le_lt (header.drop 4)
      rw [List.length_take, hlength, Nat.min_eq_left (by decide)] at hstart
      rw [List.length_drop, hlength] at hsize
      rw [Option.map_some, require_some, require_some, answer_ok, pure_bind, ok_bind,
        saturatingAdd_of_lt (by omega), range?_eq]
      refine Agrees.bind_answer fun contents _ => ?_
      exact .of_pure rfl

theorem Streams.add_agrees {s : Streams} {t : PortablePdb.Streams} (h : s.Serves t) (name : List Char) (start : Nat)
    (contents : Bytes) : Agrees Streams.Serves (s.add name ⟨start, contents⟩) (t.add name start contents) := by
  unfold Streams.add PortablePdb.Streams.add
  split
  · refine Agrees.bind (readReferenced_agrees start contents) ?_
    rintro counts id ⟨rfl, hlength⟩
    refine .of_pure ⟨rfl, fun _ h => ?_, h.tables, h.blobs⟩
    cases h
    exact hlength
  split
  · exact .of_pure ⟨h.referenced, h.length, rfl, h.blobs⟩
  split
  · exact .of_pure ⟨h.referenced, h.length, h.tables, rfl⟩
  · exact .of_pure h

theorem readDirectory_agrees (b : Bytes) (count pos : Nat) {s : Streams} {t : PortablePdb.Streams} (h : s.Serves t) :
    Agrees Streams.Serves (readDirectory b count (View.ofFile b pos) s) (PortablePdb.readDirectory b count pos t) := by
  induction count generalizing pos s t with
  | zero => exact .of_pure h
  | succ count ih =>
    refine Agrees.bind (directoryEntry_agrees b pos) ?_
    rintro _ ⟨name, start, contents, next⟩ rfl
    exact Agrees.bind (Streams.add_agrees h name start contents) fun _ _ hserves => ih next hserves

/-! ## The file is read -/

theorem readTableStream_agrees {s : Streams} {t : PortablePdb.Streams} (h : s.Serves t) :
    Agrees (Option.Rel Machine.Serves) (readTableStream s)
      (t.tables.mapM fun (start, contents) =>
        TableStream.read contents start (t.id.elim (List.replicate 64 0) (·.referenced))) := by
  have hreferenced : s.referenced.getD (List.replicate 64 0) = t.id.elim (List.replicate 64 0) (·.referenced) := by
    rw [h.referenced]
    cases t.id <;> rfl
  have hlength : (s.referenced.getD (List.replicate 64 0)).length = 64 := by
    cases hs : s.referenced with
    | none => rfl
    | some counts => exact h.length counts hs
  rw [readTableStream, h.tables, ← hreferenced]
  cases t.tables with
  | none => exact .of_pure .none
  | some r => exact Agrees.bind (readTables_agrees r.2 r.1 hlength) fun _ _ hserves => .of_pure (.some hserves)

/-- **A file is read without stopping.** -/
theorem read_agrees (b : Bytes) : Agrees File.Serves (read b) (PortablePdb.read b) := by
  have haligned : aligned? b 4 0 16 = Bytes.slice? b 0 16 := if_pos rfl
  rw [read, header?_ofFile b (by decide), haligned, PortablePdb.read]
  cases hheader : Bytes.slice? b 0 16 with
  | none => exact .of_error _ _
  | some header =>
    obtain ⟨hlength, -⟩ := le_of_aligned? (haligned.trans hheader)
    rw [Option.map_some, require_some, require_some, answer_ok, pure_bind, ok_bind]
    dsimp only
    split
    · exact .of_error _ _
    rw [show (View.ofFile b (0 + 16)).bytes = b.drop 16 from rfl, slice?_drop (.inr (by omega))]
    generalize Bytes.le (header.drop 12) = versionLength
    cases hversion : Bytes.slice? b 16 versionLength with
    | none => exact .of_error _ _
    | some version =>
      have hbehind : (View.ofFile b (0 + 16)).behind versionLength = pure (View.ofFile b (16 + versionLength)) := by
        have hle := Bytes.le_of_slice? hversion
        show (do return (⟨16 + versionLength, ← Machine.behind (b.drop 16) versionLength⟩ : View)) = _
        rw [behind_of_le (by rw [List.length_drop]; omega), pure_bind, List.drop_drop]
        rfl
      rw [require_some, answer_ok, pure_bind, ok_bind]
      refine Agrees.bind_answer fun _ _ => ?_
      rw [hbehind, pure_bind, header?_ofFile b (by decide)]
      cases aligned? b 2 (16 + versionLength) 4 with
      | none => exact .of_error _ _
      | some counts =>
        rw [Option.map_some, require_some, require_some, answer_ok, pure_bind, ok_bind]
        have hstart : Streams.Serves ⟨none, none, none⟩ ⟨none, none, none⟩ := ⟨rfl, (fun _ h => nomatch h), rfl, rfl⟩
        refine Agrees.bind (readDirectory_agrees b _ _ hstart) fun s t hserves => ?_
        refine Agrees.bind (readTableStream_agrees hserves) fun tables ts htables => ?_
        exact .of_pure ⟨htables, hserves.blobs⟩

/-- **Nothing that a file says keeps the reader from an answer.** Read on machine words, every byte string gives a fault,
or a file that answers every look-up with a location, without one or with a fault. No number leaves its word, no index
its array and no cut its slice on the way, and all loops end. The answers are those that are given without words.

What is asked for is taken to fit into memory. A text that is put together for a document name can be as long as the
square of the size of the file, since all its parts may be the same blob: a machine may not have so much, and this is
not among the ways to stop. -/
theorem read_never_stops (b : Bytes) :
    (∃ e, read b = answer (.error e) ∧ PortablePdb.read b = .error e) ∨
    ∃ file p, read b = pure file ∧ PortablePdb.read b = .ok p ∧
      ∀ token offset, file.lookup token offset = answer (p.lookup token offset) := by
  rcases read_agrees b with hfault | ⟨file, p, hfile, hp, hserves⟩
  · exact .inl hfault
  · exact .inr ⟨file, p, hfile, hp, hserves.lookup_eq⟩

end Symbolicate.PortablePdb.Machine
