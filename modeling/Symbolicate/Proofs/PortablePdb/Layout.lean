import Mathlib.Tactic.Common
import Symbolicate.PortablePdb.Basic
import Symbolicate.PortablePdb.Writer
import Symbolicate.Proofs.Bytes.Slices
import Symbolicate.Proofs.PortablePdb.BlobHeap
import Symbolicate.Proofs.PortablePdb.Tables
import Symbolicate.Proofs.Text.Utf8

/-!
# The layout read back

A file that was written is found again in its parts: the directory gives every stream at the place where it was put
(`readDirectory_directory`), the identity stream gives the identity (`read_idStream`), and the file as a whole gives the
version, the identity, the tables and the heap (`read_write`).
-/

namespace Symbolicate.PortablePdb.Draft

/-! ## Padding -/

theorem le_roundUp4 (n : Nat) : n ≤ Bytes.roundUp4 n ∧ Bytes.roundUp4 n % 4 = 0 := by
  unfold Bytes.roundUp4
  omega

theorem length_pad4 (b : Bytes) : (Bytes.pad4 b).length = Bytes.roundUp4 b.length := by
  have := (le_roundUp4 b.length).1
  rw [Bytes.pad4, List.length_append, List.length_replicate]
  omega

theorem untilNul_append {name : Bytes} (h : 0 ∉ name) (rest : Bytes) :
    Bytes.untilNul (name ++ 0 :: rest) = name := by
  have hall : ∀ b ∈ name, (decide (b ≠ 0)) = true := by
    intro b hb
    have hne : b ≠ 0 := fun h0 => h (h0 ▸ hb)
    simpa using hne
  rw [Bytes.untilNul, List.takeWhile_append_of_pos hall, List.takeWhile_cons_of_neg (by simp), List.append_nil]

/-! ## The directory -/

/-- A name that a directory can hold: shorter than 32 bytes, and without a NUL. -/
def IsStreamName (name : String) : Prop := 0 ∉ Utf8.ofString name ∧ (Utf8.ofString name).length < 32

/-- Streams as the directory gives them, when the contents of the first start at `start`: each with its name, its place
and its padded contents. -/
def entries (start : Nat) : List (String × Bytes) → List (List Char × Nat × Bytes)
  | [] => []
  | (name, contents) :: rest =>
    (name.toList, start, Bytes.pad4 contents) :: entries (start + Bytes.roundUp4 contents.length) rest

/-- The bytes of a directory entry. -/
def entryBytes (name : String) (start size : Nat) : Bytes :=
  Bytes.ofLe 4 start ++ Bytes.ofLe 4 size ++ Bytes.pad4 (Utf8.ofString name ++ [0])

theorem length_entryBytes (name : String) (start size : Nat) :
    (entryBytes name start size).length = 8 + Bytes.roundUp4 ((Utf8.ofString name).length + 1) := by
  simp [entryBytes, Bytes.length_ofLe, length_pad4]
  omega

theorem directoryEntry_entryBytes {name : String} (hname : IsStreamName name) {b pre rest behind contents : Bytes}
    {start pos : Nat} (hb : b = pre ++ (entryBytes name start contents.length ++ rest)) (hpos : pre.length = pos)
    (halign : pos % 4 = 0) {before : Bytes} (hc : b = before ++ (contents ++ behind)) (hstart : before.length = start)
    (hlen : b.length < 2 ^ 32) :
    directoryEntry b pos =
      .ok (name.toList, start, contents, pos + (entryBytes name start contents.length).length) := by
  obtain ⟨hnul, hshort⟩ := hname
  have hsize : start < 2 ^ 32 ∧ contents.length < 2 ^ 32 := by
    rw [hc, List.length_append, List.length_append] at hlen
    omega
  have hheader : aligned? b 4 pos 8 = some (Bytes.ofLe 4 start ++ Bytes.ofLe 4 contents.length) := by
    have hb' : b = pre ++ ((Bytes.ofLe 4 start ++ Bytes.ofLe 4 contents.length) ++
        (Bytes.pad4 (Utf8.ofString name ++ [0]) ++ rest)) := by
      simp only [hb, entryBytes, List.append_assoc]
    rw [aligned?, if_pos halign, Bytes.slice?_of_eq hb' hpos (by simp [Bytes.length_ofLe])]
  have hbytes : Bytes.untilNul ((b.drop (pos + 8)).take 32) = Utf8.ofString name := by
    obtain ⟨more, hmore⟩ : ∃ more, b = (pre ++ (Bytes.ofLe 4 start ++ Bytes.ofLe 4 contents.length)) ++
        (Utf8.ofString name ++ 0 :: more) := ⟨_, by
      simp only [hb, entryBytes, Bytes.pad4, List.append_assoc, List.singleton_append]
      rfl⟩
    rw [hmore, List.drop_left' (by simp [Bytes.length_ofLe, hpos]), List.take_append,
      List.take_of_length_le (by omega)]
    obtain ⟨n, hn⟩ : ∃ n, 32 - (Utf8.ofString name).length = n + 1 := ⟨31 - (Utf8.ofString name).length, by omega⟩
    rw [hn, List.take_succ_cons, untilNul_append hnul]
  have hnext : pos + 8 + Bytes.roundUp4 ((Utf8.ofString name).length + 1) =
      pos + (entryBytes name start contents.length).length := by
    rw [length_entryBytes]
    omega
  have hfrom : Bytes.from? b (pos + (entryBytes name start contents.length).length) = some rest := by
    have hb' : b = (pre ++ entryBytes name start contents.length) ++ rest := by
      rw [hb, List.append_assoc]
    rw [Bytes.from?, if_pos (by rw [hb', List.length_append, List.length_append]; omega), hb',
      List.drop_left' (by rw [List.length_append, hpos])]
  have hstart' : Bytes.le ((Bytes.ofLe 4 start ++ Bytes.ofLe 4 contents.length).take 4) = start := by
    rw [List.take_left' (Bytes.length_ofLe 4 start), Bytes.le_ofLe hsize.1]
  have hsize' : Bytes.le ((Bytes.ofLe 4 start ++ Bytes.ofLe 4 contents.length).drop 4) = contents.length := by
    rw [List.drop_left' (Bytes.length_ofLe 4 start), Bytes.le_ofLe hsize.2]
  have hdecode : Utf8.decode? (Utf8.ofString name) = some name.toList := Utf8.decode?_encode name.toList
  simp only [directoryEntry, hheader, require_some, ok_bind, hbytes, hdecode, requireText_some, hnext, hfrom, hstart',
    hsize', Bytes.slice?_of_eq hc hstart rfl]
  rfl

/-- One more stream, given as an entry. -/
def addEntry (s : Streams) (e : List Char × Nat × Bytes) : Except FormatError Streams := s.add e.1 e.2.1 e.2.2

/-- The contents of streams one after the other, each padded. -/
def paddedContents (streams : List (String × Bytes)) : Bytes := streams.flatMap fun s => Bytes.pad4 s.2

/-- **The directory gives every stream where it was put.** -/
theorem readDirectory_directory {streams : List (String × Bytes)} {b pre between : Bytes} {start pos : Nat}
    (s : Streams) (hnames : ∀ s ∈ streams, IsStreamName s.1)
    (hb : b = pre ++ (directory start streams ++ (between ++ paddedContents streams))) (hpos : pre.length = pos)
    (halign : pos % 4 = 0) (hstart : (pre ++ (directory start streams ++ between)).length = start)
    (hlen : b.length < 2 ^ 32) :
    readDirectory b streams.length pos s = (entries start streams).foldlM addEntry s := by
  induction streams generalizing pre between start pos s with
  | nil => rfl
  | cons stream rest ih =>
    obtain ⟨name, contents⟩ := stream
    have hpad : (Bytes.pad4 contents).length = Bytes.roundUp4 contents.length := length_pad4 contents
    have hdir : directory start ((name, contents) :: rest) = entryBytes name start (Bytes.pad4 contents).length ++
        directory (start + Bytes.roundUp4 contents.length) rest := by
      simp only [directory, entryBytes, hpad, List.append_assoc]
    have hcontents : paddedContents ((name, contents) :: rest) = Bytes.pad4 contents ++ paddedContents rest :=
      List.flatMap_cons
    rw [hdir, List.append_assoc] at hb hstart
    rw [hcontents] at hb
    have hc : b = (pre ++ (entryBytes name start (Bytes.pad4 contents).length ++
        (directory (start + Bytes.roundUp4 contents.length) rest ++ between))) ++
        (Bytes.pad4 contents ++ paddedContents rest) := by
      simp only [hb, List.append_assoc]
    have hb' : b = (pre ++ entryBytes name start (Bytes.pad4 contents).length) ++
        (directory (start + Bytes.roundUp4 contents.length) rest ++
          ((between ++ Bytes.pad4 contents) ++ paddedContents rest)) := by
      simp only [hb, List.append_assoc]
    have halign' : (pos + (entryBytes name start (Bytes.pad4 contents).length).length) % 4 = 0 := by
      have := (le_roundUp4 ((Utf8.ofString name).length + 1)).2
      rw [length_entryBytes]
      omega
    have hstart' : ((pre ++ entryBytes name start (Bytes.pad4 contents).length) ++
        (directory (start + Bytes.roundUp4 contents.length) rest ++ (between ++ Bytes.pad4 contents))).length =
        start + Bytes.roundUp4 contents.length := by
      simp only [List.length_append] at hstart ⊢
      omega
    have hpos' : (pre ++ entryBytes name start (Bytes.pad4 contents).length).length =
        pos + (entryBytes name start (Bytes.pad4 contents).length).length := by
      rw [List.length_append, hpos]
    have hrest : ∀ s, readDirectory b rest.length (pos + (entryBytes name start (Bytes.pad4 contents).length).length) s =
        (entries (start + Bytes.roundUp4 contents.length) rest).foldlM addEntry s :=
      fun s => ih s (fun s hs => hnames s (by simp [hs])) hb' hpos' halign' hstart'
    have hname : IsStreamName name := hnames (name, contents) (by simp)
    rw [List.length_cons, readDirectory, directoryEntry_entryBytes hname hb hpos halign hc hstart hlen, ok_bind, entries,
      List.foldlM_cons]
    simp only [hrest, addEntry]

/-! ## The identity stream -/

theorem length_toFile (g : Guid) : g.toFile.length = 16 := by
  rw [Guid.toFile, Guid.length_swapFields, g.length_eq]

theorem read_idStream {d : Draft} (hm : d.methods.length < 2 ^ 32) {start : Nat} (hs : start % 4 = 0) (pad : Bytes) :
    IdStream.read (d.idStream ++ pad) start = .ok ⟨d.guid, referenced d.methods.length⟩ := by
  set header : Bytes := d.guid.toFile ++ Bytes.ofLe 4 0 ++ Bytes.ofLe 4 0 ++ Bytes.ofLe 8 (1 <<< 6) with hheader
  have hlen : header.length = 32 := by
    simp [hheader, Bytes.length_ofLe, length_toFile]
  have hb : d.idStream ++ pad = header ++ (Bytes.ofLe 4 d.methods.length ++ pad) := by
    simp only [idStream, hheader, List.append_assoc]
    rfl
  have hslice : Bytes.slice? (d.idStream ++ pad) 0 32 = some header := by
    have hb' : d.idStream ++ pad = [] ++ (header ++ _) := hb
    exact Bytes.slice?_of_eq hb' rfl hlen
  have hguid : header.take 16 = d.guid.toFile := by
    simp only [hheader, List.append_assoc]
    exact List.take_left' (length_toFile d.guid)
  have hvalid : Bytes.le (header.drop 24) = 1 <<< 6 := by
    rw [hheader, List.drop_left' (by simp [Bytes.length_ofLe, length_toFile]), Bytes.le_ofLe (by omega)]
  have hbits : bits64 (1 <<< 6) = List.replicate 6 false ++ true :: (List.replicate 57 false ++ []) := by
    decide +kernel
  have hcounts : rowCounts? (d.idStream ++ pad) (bits64 (1 <<< 6)) 32 = some (referenced d.methods.length, 36) := by
    rw [hbits, rowCounts?_replicate, rowCounts?, Bytes.u32?_of_eq hb hlen hm, rowCounts?_replicate]
    rfl
  simp only [IdStream.read, if_pos hs, hslice, require_some, ok_bind, hguid, Guid.ofFile?_toFile, hvalid, hcounts]
  rfl

/-! ## The file -/

/-- The offsets of the document names, and the heap with them. -/
def withNames (d : Draft) : Bytes × List Nat := addNames [0] d.documents

/-- The rows of the methods, and the heap with everything. -/
def withMethods (d : Draft) : Bytes × List (Nat × Nat) := addMethods d.withNames.1 d.methods

/-- The heap of the file. -/
def heap (d : Draft) : Bytes := d.withMethods.1

/-- Whether offsets in the heap take four bytes. -/
def isWide (d : Draft) : Bool := decide (d.heap.length > 0xffff)

/-- The table stream of the file. -/
def tables (d : Draft) : Bytes := d.tableStream d.isWide d.withNames.2 d.withMethods.2

/-- The three streams of the file. -/
def streams (d : Draft) : List (String × Bytes) := [("#Pdb", d.idStream), ("#~", d.tables), ("#Blob", d.heap)]

/-- What stands before the directory. -/
def rootBytes : Bytes :=
  Utf8.ofString "BSJB" ++ Bytes.ofLe 2 1 ++ Bytes.ofLe 2 1 ++ Bytes.ofLe 4 0 ++ Bytes.ofLe 4 versionBytes.length ++
    versionBytes ++ Bytes.ofLe 2 0 ++ Bytes.ofLe 2 3

/-- The file is the root, the directory and the contents, which start behind 76 bytes. -/
theorem write_eq (d : Draft) : d.write = rootBytes ++ (directory 76 d.streams ++ ([] ++ paddedContents d.streams)) ∧
    (rootBytes ++ (directory 76 d.streams ++ [])).length = 76 := by
  have hroot : rootBytes.length = 32 := rfl
  have hdir : ∀ start, (directory start d.streams).length = 44 := by
    intro start
    simp only [streams, directory, List.length_append, Bytes.length_ofLe]
    rfl
  refine ⟨?_, by simp only [List.length_append, hroot, hdir, List.length_nil]⟩
  have hwrite : d.write = rootBytes ++ directory (rootBytes.length + (directory 0 d.streams).length) d.streams ++
      paddedContents d.streams := rfl
  rw [hwrite, hroot, hdir, List.append_assoc, List.nil_append]

theorem foldlM_entries {d : Draft} (hm : d.methods.length < 2 ^ 32) :
    (entries 76 d.streams).foldlM addEntry ⟨none, none, none⟩ =
      .ok ⟨some ⟨d.guid, referenced d.methods.length⟩, some (112, Bytes.pad4 d.tables), some (Bytes.pad4 d.heap)⟩ := by
  have hlen : d.idStream.length = 36 := by
    simp [idStream, Bytes.length_ofLe, length_toFile]
  have hid : IdStream.read (Bytes.pad4 d.idStream) 76 = .ok ⟨d.guid, referenced d.methods.length⟩ :=
    read_idStream hm rfl _
  have hadd : addEntry ⟨none, none, none⟩ ("#Pdb".toList, 76, Bytes.pad4 d.idStream) =
      .ok ⟨some ⟨d.guid, referenced d.methods.length⟩, none, none⟩ := by
    rw [addEntry, Streams.add, if_pos rfl, hid]
    rfl
  simp only [entries, streams, hlen, List.foldlM_cons, List.foldlM_nil, hadd, ok_bind]
  rfl

/-- What the fixed part of the root says. -/
def rootHeader : RootHeader := ⟨signature, 1, 1, 0, 12⟩

/-- The tables of the file. -/
def tableStreamOf (d : Draft) : TableStream :=
  ⟨ifRows (documentTable d.isWide d.withNames.2) ++ ifRows (methodTable d.isWide d.withMethods.2)⟩

/-- **A file that was written is read**, with its version, identity, tables and heap. -/
theorem read_write {d : Draft} (hn : d.documents.length < 2 ^ 16) (hm : d.methods.length < 2 ^ 32)
    (hlen : d.write.length < 2 ^ 32) :
    PortablePdb.read d.write = .ok
      ⟨rootHeader, "PDB v1.0", some ⟨d.guid, referenced d.methods.length⟩, some d.tableStreamOf,
        some (Bytes.pad4 d.heap)⟩ := by
  obtain ⟨hwrite, hstart⟩ := write_eq d
  have hslice : ∀ {start len : Nat}, start + len ≤ 32 →
      Bytes.slice? d.write start len = some ((rootBytes.drop start).take len) := by
    intro start len h
    rw [hwrite, Bytes.slice?_append h]
  have hcounts : aligned? d.write 2 28 4 = some ((rootBytes.drop 28).take 4) := by
    rw [aligned?, if_pos rfl, hslice (by omega)]
  have hnames : ∀ s ∈ d.streams, IsStreamName s.1 := by
    simp only [streams, List.forall_mem_cons]
    refine ⟨?_, ?_, ?_, by simp⟩ <;> exact ⟨by decide, by decide⟩
  have hdirectory : readDirectory d.write 3 32 ⟨none, none, none⟩ = _ :=
    readDirectory_directory ⟨none, none, none⟩ hnames hwrite rfl rfl hstart hlen
  have htables : TableStream.read (Bytes.pad4 d.tables) 112 (referenced d.methods.length) = .ok d.tableStreamOf :=
    read_tableStream (length_addNames _ _) (length_addMethods _ _) hn hm rfl _ _
  rw [foldlM_entries hm] at hdirectory
  have hversion : Bytes.untilNul ((rootBytes.drop 16).take 12) = Utf8.ofString "PDB v1.0" := by decide
  have htext : Utf8.toString? (Utf8.ofString "PDB v1.0") = some "PDB v1.0" := by
    rw [Utf8.toString?, Utf8.ofString, Utf8.decode?_encode]
    rfl
  have hroot : Bytes.slice? d.write 0 16 = some (rootBytes.take 16) := hslice (by omega)
  have hsignature : Bytes.le ((rootBytes.take 16).take 4) = signature := by decide
  have hmajor : Bytes.le (((rootBytes.take 16).drop 4).take 2) = 1 := by decide
  have hminor : Bytes.le (((rootBytes.take 16).drop 6).take 2) = 1 := by decide
  have hreserved : Bytes.le (((rootBytes.take 16).drop 8).take 4) = 0 := by decide
  have hlength : Bytes.le ((rootBytes.take 16).drop 12) = 12 := by decide
  have hcount : Bytes.le (((rootBytes.drop 28).take 4).drop 2) = 3 := by decide
  simp only [PortablePdb.read, hroot, require_some, ok_bind, hsignature, hmajor, hminor, hreserved, hlength, ne_eq,
    not_true_eq_false, if_false, hslice (show 16 + 12 ≤ 32 by omega), hversion, htext, requireText_some, hcounts, hcount,
    hdirectory, Option.elim_some, Option.mapM_some, htables]
  rfl

end Symbolicate.PortablePdb.Draft
