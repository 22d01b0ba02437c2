import Mathlib.Tactic.Common
import Symbolicate.PortablePdb.Lookup
import Symbolicate.Proofs.PortablePdb.BlobHeap
import Symbolicate.Proofs.PortablePdb.Layout
import Symbolicate.Proofs.PortablePdb.SequencePoints

/-!
# Portable debug files read back

What is added to a draft is found in the file that is written (`read_addAll`): the file is read, it has the identity of
the draft, and a look-up under the token of a method gives the line of the last visible point at or before the offset,
with the name of the document in force there. Under any other token there is nothing.
-/

namespace Symbolicate.PortablePdb.Draft

/-! ## Limits of the format -/

/-- A draft within the limits of the format. -/
structure WithinLimits (d : Draft) : Prop where
  documents : d.documents.length < 2 ^ 16
  methods : d.methods.length < 2 ^ 24
  heap : d.heap.length < 2 ^ 29
  increasing : ∀ m ∈ d.methods, increasing m.points = true
  fits : ∀ m ∈ d.methods, Fits d.documents.length m

instance (d : Draft) : Decidable (WithinLimits d) :=
  decidable_of_iff
    (d.documents.length < 2 ^ 16 ∧ d.methods.length < 2 ^ 24 ∧ d.heap.length < 2 ^ 29 ∧
      (∀ m ∈ d.methods, Draft.increasing m.points = true) ∧ ∀ m ∈ d.methods, Fits d.documents.length m)
    ⟨fun ⟨h₁, h₂, h₃, h₄, h₅⟩ => ⟨h₁, h₂, h₃, h₄, h₅⟩,
      fun h => ⟨h.documents, h.methods, h.heap, h.increasing, h.fits⟩⟩

theorem length_tables (d : Draft) : d.tables.length ≤ 32 + 12 * d.documents.length + 6 * d.methods.length := by
  have hcount : ∀ n, (countBytes n).length ≤ 4 := by
    intro n
    unfold countBytes
    split <;> simp [Bytes.length_ofLe]
  have hdocuments : (documentTable d.isWide d.withNames.2).size ≤ 12 * d.documents.length := by
    rw [Table.size, show (documentTable d.isWide d.withNames.2).rows = d.documents.length from length_addNames _ _,
      Nat.mul_comm]
    refine Nat.mul_le_mul_right _ ?_
    rcases offsetWidth_eq d.isWide with h | h <;> simp [Table.rowSize, documentTable, h]
  have hmethods : (methodTable d.isWide d.withMethods.2).size ≤ 6 * d.methods.length := by
    rw [Table.size, show (methodTable d.isWide d.withMethods.2).rows = d.methods.length from length_addMethods _ _,
      Nat.mul_comm]
    refine Nat.mul_le_mul_right _ ?_
    rcases offsetWidth_eq d.isWide with h | h <;> simp [Table.rowSize, methodTable, h]
  have hn := hcount d.documents.length
  have hm := hcount d.methods.length
  rw [tables, tableStream_eq]
  simp only [List.length_append, length_tableHeader, length_documentTable, length_methodTable]
  omega

theorem WithinLimits.length_write {d : Draft} (h : WithinLimits d) : d.write.length < 2 ^ 32 := by
  obtain ⟨hwrite, hstart⟩ := write_eq d
  have hn := h.documents
  have hm := h.methods
  have hheap := h.heap
  have htables := length_tables d
  have hround : ∀ n, Bytes.roundUp4 n ≤ n + 3 := by
    intro n
    unfold Bytes.roundUp4
    omega
  have hr₁ := hround d.tables.length
  have hr₂ := hround d.heap.length
  have hid : d.idStream.length = 36 := by
    simp [idStream, Bytes.length_ofLe, length_toFile]
  simp only [List.append_nil] at hstart
  rw [hwrite, List.nil_append, ← List.append_assoc, List.length_append, hstart]
  simp only [paddedContents, streams, List.flatMap_cons, List.flatMap_nil, List.length_append, length_pad4, hid,
    List.length_nil]
  rw [show Bytes.roundUp4 36 = 36 from rfl]
  omega

/-! ## The file that is read -/

/-- The file as it is read. -/
def asRead (d : Draft) : PortablePdb :=
  ⟨rootHeader, "PDB v1.0", some ⟨d.guid, referenced d.methods.length⟩, some d.tableStreamOf, some (Bytes.pad4 d.heap)⟩

section Lookup

variable {d : Draft} (h : WithinLimits d)

include h

/-- The heap of the file begins with the heap that was written, and offsets in it fit into their column. -/
theorem length_final : (Bytes.pad4 d.heap).length ≤ 2 ^ 29 ∧ (Bytes.pad4 d.heap).length ≤ 256 ^ offsetWidth d.isWide := by
  have hheap := h.heap
  have hlen := length_pad4 d.heap
  unfold Bytes.roundUp4 at hlen
  refine ⟨by omega, ?_⟩
  by_cases hwide : d.heap.length > 0xffff
  · simp only [offsetWidth, isWide, hwide, decide_true, if_true]
    omega
  · simp only [offsetWidth, isWide, hwide, decide_false, Bool.false_eq_true, if_false]
    omega

theorem documentName_asRead {i : Nat} {name : String} (hi : d.documents[i]? = some name) :
    d.asRead.documentName (i + 1) = .ok name := by
  obtain ⟨hlen, hwidth⟩ := length_final h
  have hpre : (addNames [0] d.documents).1 <+: Bytes.pad4 d.heap :=
    (prefix_addMethods d.methods _).trans (List.prefix_append _ _)
  obtain ⟨offset, hoffset, hlt, hname⟩ :=
    nameAt_addNames (p := d.asRead) rfl hlen d.documents (show 0 < [0].length by simp) hpre hi
  have hne : d.withNames.2 ≠ [] := by
    rintro hnil
    rw [withNames] at hnil
    rw [hnil] at hoffset
    cases hoffset
  have hcell : d.asRead.cell .document (i + 1) 1 = .ok offset := by
    have htable : d.asRead.tableStream = .ok d.tableStreamOf := rfl
    rw [cell, htable, ok_bind, TableStream.cell, tableStreamOf, table?_documents hne]
    exact cell_document hoffset (by omega)
  simp only [documentName, hcell, ok_bind, hname, String.ofList_toList]
  rfl

theorem sequencePoints_asRead {i : Nat} {m : DraftMethod} (hi : d.methods[i]? = some m) :
    d.asRead.sequencePoints (i + 1) = .ok ((inForce m.document m.points).map sequencePoint) := by
  obtain ⟨hlen, hwidth⟩ := length_final h
  have hmem : m ∈ d.methods := List.mem_of_getElem? hi
  have hpre : d.withMethods.1 <+: Bytes.pad4 d.heap := List.prefix_append _ _
  have h0 : 0 < d.withNames.1.length :=
    Nat.lt_of_lt_of_le (show 0 < [0].length by simp) (prefix_addNames d.documents [0]).length_le
  have htable : d.asRead.tableStream = .ok d.tableStreamOf := rfl
  have hcells : ∀ {row : Nat × Nat}, d.withMethods.2[i]? = some row → row.2 < 256 ^ offsetWidth d.isWide →
      d.asRead.cell .methodDebugInformation (i + 1) 1 = .ok (Bytes.le (Bytes.ofLe 2 row.1)) ∧
      d.asRead.cell .methodDebugInformation (i + 1) 2 = .ok row.2 := by
    intro row hrow hoffset
    have hne : d.withMethods.2 ≠ [] := by
      rintro hnil
      rw [hnil] at hrow
      cases hrow
    simp only [cell, htable, ok_bind, TableStream.cell, tableStreamOf, table?_methods hne]
    exact ⟨cell_method_document hrow, cell_method_offset hrow hoffset⟩
  obtain ⟨hnil, hrow⟩ | ⟨hne, offset, hrow, hpos, hlt, hblob⟩ :=
    blob_addMethods (p := d.asRead) rfl hlen d.methods h0 hpre hi
  · obtain ⟨hdocument, hoffset⟩ := hcells hrow (Nat.pow_pos (by omega))
    simp only [sequencePoints, hdocument, hoffset, ok_bind, if_true, hnil]
    rfl
  · obtain ⟨hdocument, hoffset⟩ := hcells hrow (by simp only; omega)
    have hcolumn : (encodeMethod m).1 < 256 ^ 2 := by
      have hle := encodeMethod_document_le (h.fits m hmem) hne
      have hrows := h.documents
      omega
    rw [Bytes.le_ofLe hcolumn] at hdocument
    simp only [sequencePoints, hdocument, hoffset, ok_bind, if_neg (Nat.ne_of_gt hpos), hblob,
      ofBlob_encodeMethod h.documents (h.fits m hmem) (h.increasing m hmem) hne]

omit h in
theorem lookup_asRead_none {token : UInt32} (htoken : ∀ i m, d.methods[i]? = some m → token.toNat ≠ 0x06000001 + i)
    (offset : UInt32) : d.asRead.lookup token offset = .ok none := by
  have htable : d.asRead.tableStream = .ok d.tableStreamOf := rfl
  have hrows : d.tableStreamOf.rowsOf .methodDebugInformation = d.methods.length := by
    rw [tableStreamOf, rowsOf_methods]
    exact length_addMethods _ _
  by_cases hkind : token.toNat / 0x1000000 = TableKind.methodDef.number
  · have hrow : token.toNat % 0x1000000 = 0 ∨ token.toNat % 0x1000000 > d.methods.length := by
      by_contra hin
      have hlt : token.toNat % 0x1000000 - 1 < d.methods.length := by omega
      refine htoken _ _ (List.getElem?_eq_getElem hlt) ?_
      rw [TableKind.number] at hkind
      omega
    simp only [lookup, hkind, ne_eq, not_true_eq_false, if_false, htable, ok_bind, hrows, if_pos hrow]
    rfl
  · simp only [lookup, ne_eq, hkind, not_false_eq_true, if_true]
    rfl

/-- The token of a method gives the point that counts. -/
theorem lookup_asRead {i : Nat} {m : DraftMethod} (hi : d.methods[i]? = some m) {token : UInt32}
    (htoken : token.toNat = 0x06000001 + i) (offset : UInt32) :
    (pointAt? m offset.toNat = none ∧ d.asRead.lookup token offset = .ok none) ∨
    ∃ point document line name, pointAt? m offset.toNat = some (point, document) ∧ point.line = some line ∧
      1 ≤ document ∧ d.documents[document - 1]? = some name ∧
      d.asRead.lookup token offset = .ok (some ⟨name, line⟩) := by
  obtain ⟨hlt, _⟩ := List.getElem?_eq_some_iff.1 hi
  have hmem : m ∈ d.methods := List.mem_of_getElem? hi
  have hmethods := h.methods
  have htable : d.asRead.tableStream = .ok d.tableStreamOf := rfl
  have hrows : d.tableStreamOf.rowsOf .methodDebugInformation = d.methods.length := by
    rw [tableStreamOf, rowsOf_methods]
    exact length_addMethods _ _
  have hkind : token.toNat / 0x1000000 = TableKind.methodDef.number := by
    rw [htoken, TableKind.number]
    omega
  have hrow : token.toNat % 0x1000000 = i + 1 := by
    rw [htoken]
    omega
  have hlookup : d.asRead.lookup token offset =
      ((pointAt? m offset.toNat).map sequencePoint).elim (.ok none) fun q => q.span.elim (.ok none) fun span =>
        d.asRead.documentName q.document >>= fun name => .ok (some ⟨name, span.startLine⟩) := by
    simp only [lookup, hkind, hrow, ne_eq, not_true_eq_false, if_false, htable, ok_bind, hrows,
      if_neg (show ¬ (i + 1 = 0 ∨ i + 1 > d.methods.length) by omega), sequencePoints_asRead h hi,
      best?_inForce (h.increasing m hmem)]
    rcases (pointAt? m offset.toNat).map sequencePoint with - | ⟨_, document, - | span⟩ <;> rfl
  cases hpoint : pointAt? m offset.toNat with
  | none =>
    rw [hpoint] at hlookup
    exact .inl ⟨rfl, hlookup⟩
  | some q =>
    obtain ⟨point, document⟩ := q
    have hin := List.mem_of_getLast? hpoint
    obtain ⟨hforce, hvisible⟩ := List.mem_filter.1 hin
    obtain ⟨line, hline⟩ : ∃ line, point.line = some line := by
      simp only [Bool.and_eq_true] at hvisible
      exact Option.isSome_iff_exists.1 hvisible.1
    have hne : m.points ≠ [] := by
      rintro hnil
      rw [hnil] at hforce
      cases hforce
    obtain ⟨hone, hle⟩ := inForce_document_le (h.fits m hmem).start (h.fits m hmem).switches _ hforce
    obtain ⟨name, hname⟩ : ∃ name, d.documents[document - 1]? = some name := by
      simp only at hone hle
      exact ⟨_, List.getElem?_eq_getElem (by omega)⟩
    refine .inr ⟨point, document, line, name, rfl, hline, hone, hname, ?_⟩
    have hdocument : document - 1 + 1 = document := by
      simp only at hone
      omega
    have hread := documentName_asRead h hname
    rw [hdocument] at hread
    rw [hlookup, hpoint]
    simp only [Option.map_some, Option.elim_some, sequencePoint, hline, hread, ok_bind, lineSpan]

end Lookup

/-! ## Adding one after the other -/

/-- A call that adds to a draft. -/
inductive Addition where
  | document (name : String)
  | method (m : DraftMethod)
  deriving DecidableEq, Repr

namespace Addition

/-- The name of a document that is added. -/
def name? : Addition → Option String
  | document name => some name
  | method _ => none

/-- The method that is added. -/
def method? : Addition → Option DraftMethod
  | document _ => none
  | method m => some m

end Addition

/-- What such calls returned: the rows of documents, and the tokens of methods. -/
structure Receipts where
  documents : List (String × Nat)
  methods : List (DraftMethod × Nat)

/-- The draft after calls that come one after the other, and what they returned. -/
def addAll (d : Draft) : List Addition → Except DraftError (Draft × Receipts)
  | [] => .ok (d, ⟨[], []⟩)
  | .document name :: rest => do
    let (d, row) := d.addDocument name
    let (d, receipts) ← addAll d rest
    return (d, { receipts with documents := (name, row) :: receipts.documents })
  | .method m :: rest => do
    let (d, token) ← d.addMethod m
    let (d, receipts) ← addAll d rest
    return (d, { receipts with methods := (m, token) :: receipts.methods })

/-- The documents and the methods among what is added. -/
def documentsOf (additions : List Addition) : List String := additions.filterMap Addition.name?

/-- The methods among what is added. -/
def methodsOf (additions : List Addition) : List DraftMethod := additions.filterMap Addition.method?

/-- The draft with what is added. -/
def extended (d : Draft) (additions : List Addition) : Draft :=
  ⟨d.guid, d.documents ++ documentsOf additions, d.methods ++ methodsOf additions⟩

/-- Methods whose offsets increase are all added, and rows and tokens count up. -/
theorem addAll_eq (additions : List Addition) (d : Draft)
    (h : ∀ m ∈ methodsOf additions, increasing m.points = true) :
    addAll d additions = .ok (extended d additions,
      ⟨(documentsOf additions).zipIdx (d.documents.length + 1),
        (methodsOf additions).zipIdx (0x06000000 + (d.methods.length + 1))⟩) := by
  induction additions generalizing d with
  | nil => simp [addAll, extended, documentsOf, methodsOf]
  | cons a rest ih =>
    cases a with
    | document name =>
      have hrest := ih ⟨d.guid, d.documents ++ [name], d.methods⟩ h
      have hdocuments : documentsOf (.document name :: rest) = name :: documentsOf rest := rfl
      have hmethods : methodsOf (.document name :: rest) = methodsOf rest := rfl
      simp only [addAll, addDocument, hrest, extended, hdocuments, hmethods, List.append_assoc, List.singleton_append,
        List.length_append, List.length_singleton, List.zipIdx_cons]
      rfl
    | method m =>
      have hdocuments : documentsOf (.method m :: rest) = documentsOf rest := rfl
      have hmethods : methodsOf (.method m :: rest) = m :: methodsOf rest := rfl
      rw [hmethods] at h
      have hrest := ih ⟨d.guid, d.documents, d.methods ++ [m]⟩ (fun n hn => h n (by simp [hn]))
      have hadd : d.addMethod m = .ok (⟨d.guid, d.documents, d.methods ++ [m]⟩, 0x06000000 + (d.methods.length + 1)) := by
        rw [addMethod, if_pos (h m (by simp))]
      simp only [addAll, hadd, extended, hdocuments, hmethods]
      refine Eq.trans (b := addAll ⟨d.guid, d.documents, d.methods ++ [m]⟩ rest >>= fun r =>
        .ok (r.1, { r.2 with methods := (m, 0x06000000 + (d.methods.length + 1)) :: r.2.methods })) rfl ?_
      rw [hrest]
      simp only [extended, List.append_assoc, List.singleton_append, List.length_append, List.length_singleton,
        List.zipIdx_cons]
      rfl

/-! ## Reading undoes building -/

/-- What a file answers that was written from additions with these receipts: nothing under a token that was not issued or
in front of the first visible point, and else the line of the point that counts and the name of its document. -/
structure Answers (p : PortablePdb) (receipts : Receipts) : Prop where
  unknown : ∀ token offset : UInt32, (∀ m, (m, token.toNat) ∉ receipts.methods) → p.lookup token offset = .ok none
  before : ∀ (token offset : UInt32) (m : DraftMethod), (m, token.toNat) ∈ receipts.methods →
    pointAt? m offset.toNat = none → p.lookup token offset = .ok none
  found : ∀ (token offset : UInt32) (m : DraftMethod), (m, token.toNat) ∈ receipts.methods →
    ∀ point document, pointAt? m offset.toNat = some (point, document) →
    ∃ name line, (name, document) ∈ receipts.documents ∧ point.line = some line ∧
      p.lookup token offset = .ok (some ⟨name, line⟩)

/-- **Reading undoes building.** Whatever documents and methods are added to an empty draft, in any order and within the
limits of the format, the file is read again, with the version and the identity it was given, and answers every look-up
from what was added. -/
theorem read_addAll (guid : Guid) (additions : List Addition)
    (h : WithinLimits (extended ⟨guid, [], []⟩ additions)) :
    ∃ d receipts p, addAll ⟨guid, [], []⟩ additions = .ok (d, receipts) ∧ PortablePdb.read d.write = .ok p ∧
      p.version = "PDB v1.0" ∧ p.id.map (·.guid) = some guid ∧ Answers p receipts := by
  have hmethods := h.methods
  refine ⟨extended ⟨guid, [], []⟩ additions, _, asRead _, addAll_eq additions ⟨guid, [], []⟩ h.increasing,
    read_write h.documents (by omega) h.length_write, rfl, rfl, ?_⟩
  have htoken : ∀ {m : DraftMethod} {n : Nat}, (m, n) ∈ (methodsOf additions).zipIdx (0x06000000 + (0 + 1)) →
      ∃ i, (extended ⟨guid, [], []⟩ additions).methods[i]? = some m ∧ n = 0x06000001 + i := by
    intro m n hmem
    obtain ⟨hle, hget⟩ := List.mk_mem_zipIdx_iff_le_and_getElem?_sub.1 hmem
    exact ⟨_, hget, by omega⟩
  refine ⟨?_, ?_, ?_⟩
  · intro token offset hnone
    refine lookup_asRead_none (fun i m hi heq => hnone m ?_) offset
    rw [heq]
    exact List.mk_add_mem_zipIdx_iff_getElem?.2 hi
  · intro token offset m hmem hpoint
    obtain ⟨i, hi, heq⟩ := htoken hmem
    obtain ⟨_, hlookup⟩ | ⟨_, _, _, _, hsome, _⟩ := lookup_asRead h hi heq offset
    · exact hlookup
    · rw [hpoint] at hsome
      cases hsome
  · intro token offset m hmem point document hpoint
    obtain ⟨i, hi, heq⟩ := htoken hmem
    obtain ⟨hnone, _⟩ | ⟨point', document', line, name, hsome, hline, hone, hname, hlookup⟩ :=
      lookup_asRead h hi heq offset
    · rw [hpoint] at hnone
      cases hnone
    · rw [hpoint] at hsome
      cases hsome
      refine ⟨name, line, List.mk_mem_zipIdx_iff_le_and_getElem?_sub.2 ⟨hone, hname⟩, hline, hlookup⟩

/-- Two documents, a method in both of them with a hidden point, and a method without points. -/
def twoDocuments : List Addition := [
  .document "/src/a.cs", .method ⟨1, [⟨0, some 10, none⟩, ⟨5, none, none⟩, ⟨8, some 7, some 2⟩]⟩, .method ⟨0, []⟩,
  .document "b.cs"]

/-- A small file is read back. -/
theorem read_addAll_twoDocuments : WithinLimits (extended ⟨Guid.nil, [], []⟩ twoDocuments) ∧
    ∃ d receipts p, addAll ⟨Guid.nil, [], []⟩ twoDocuments = .ok (d, receipts) ∧ PortablePdb.read d.write = .ok p ∧
      p.version = "PDB v1.0" ∧ p.id.map (·.guid) = some Guid.nil ∧ Answers p receipts :=
  ⟨by decide, read_addAll Guid.nil twoDocuments (by decide)⟩

end Symbolicate.PortablePdb.Draft
