import Symbolicate.Proofs.PortablePdb.Parts

/-!
# Streams by their names

The directory of a file as a list of names and contents (`directory`), whatever the offsets that lead to them. What a file
holds is told by the last streams with the names `#Pdb`, `#~` and `#Blob` (`parts_of_read`): an entry changes the part it
names and no other (`Holds.add`), and where a stream starts matters for its alignment only.
-/

namespace Symbolicate.PortablePdb

/-! ## The directory as a list -/

/-- The names and contents of as many entries of the directory as told, from `pos` on. The list ends in front of an entry
that cannot be read. -/
def directoryFrom (b : Bytes) : Nat → Nat → List (List Char × Bytes)
  | 0, _ => []
  | count + 1, pos =>
    match directoryEntry b pos with
    | .error _ => []
    | .ok (name, _, contents, next) => (name, contents) :: directoryFrom b count next

/-- The names and contents of the streams, in the order of the directory. This starts behind the version, whose length
is the fourth number of the root, and two numbers of two bytes, of which the second counts the streams. -/
def directory (b : Bytes) : List (List Char × Bytes) :=
  let tail := 16 + (Bytes.u32? b 12).getD 0
  directoryFrom b ((Bytes.u16? b (tail + 2)).getD 0) (tail + 4)

/-- The contents of the last stream with a name. -/
def lastNamed (name : String) (streams : List (List Char × Bytes)) : Option Bytes :=
  (streams.reverse.find? fun stream => stream.1 = name.toList).map (·.2)

theorem lastNamed_append (name : String) (streams : List (List Char × Bytes)) (n : List Char) (contents : Bytes) :
    lastNamed name (streams ++ [(n, contents)]) =
      if n = name.toList then some contents else lastNamed name streams := by
  rw [lastNamed, List.reverse_append, List.reverse_singleton, List.singleton_append, List.find?_cons]
  split <;> simp_all [lastNamed]

/-- Where the directory is found and how many entries it has. -/
theorem exists_of_readRoot {b : Bytes} {r : Root} (h : readRoot b = .ok r) :
    ∃ versionLength, Bytes.u32? b 12 = some versionLength ∧ Bytes.u16? b (16 + versionLength + 2) = some r.count ∧
      r.pos = 16 + versionLength + 4 := by
  unfold readRoot at h
  obtain ⟨head, hhead, h⟩ := exists_of_bind h
  dsimp only at h
  split at h
  · cases h
  obtain ⟨versionBytes, -, h⟩ := exists_of_bind h
  obtain ⟨version, -, h⟩ := exists_of_bind h
  obtain ⟨counts, hcounts, h⟩ := exists_of_bind h
  cases h
  have haligned := eq_some_of_require hcounts
  unfold aligned? at haligned
  split at haligned
  · refine ⟨Bytes.le (head.drop 12), ?_, ?_, rfl⟩
    · exact congrArg (Option.map Bytes.le) (Bytes.slice?_drop_of_eq (eq_some_of_require hhead) (i := 12) (by omega))
    · exact congrArg (Option.map Bytes.le) (Bytes.slice?_drop_of_eq haligned (i := 2) (by omega))
  · cases haligned

theorem directory_of_readRoot {b : Bytes} {r : Root} (h : readRoot b = .ok r) :
    directory b = directoryFrom b r.count r.pos := by
  obtain ⟨versionLength, hlength, hcount, hpos⟩ := exists_of_readRoot h
  simp only [directory, hlength, Option.getD_some, hcount, hpos]

/-! ## Where a stream starts -/

/-- Where an identity stream starts matters for its alignment only. -/
theorem IdStream.read_zero {contents : Bytes} {start : Nat} {s : IdStream} (h : IdStream.read contents start = .ok s) :
    IdStream.read contents 0 = .ok s := by
  have hstart : start % 4 = 0 := by
    by_contra hne
    rw [IdStream.read, if_neg hne] at h
    cases h
  rw [IdStream.read, if_pos hstart] at h
  rw [IdStream.read, if_pos rfl, h]

/-- Where a table stream starts matters for its alignment only. -/
theorem TableStream.read_zero {contents : Bytes} {start : Nat} {referenced : List Nat} {s : TableStream}
    (h : TableStream.read contents start referenced = .ok s) : TableStream.read contents 0 referenced = .ok s := by
  have hstart : start % 4 = 0 := by
    by_contra hne
    rw [TableStream.read, if_neg hne] at h
    cases h
  rw [TableStream.read, if_pos hstart] at h
  rw [TableStream.read, if_pos rfl, h]

/-! ## What the directory gives -/

/-- What was found in a list of streams: the last ones with the three names that matter. -/
structure Holds (s : Streams) (streams : List (List Char × Bytes)) : Prop where
  id : s.id = (lastNamed "#Pdb" streams).bind fun contents => (IdStream.read contents 0).toOption
  tables : s.tables.map (·.2) = lastNamed "#~" streams
  blobs : s.blobs = lastNamed "#Blob" streams

/-- **One more stream** changes the part that it names. -/
theorem Holds.add {s t : Streams} {streams : List (List Char × Bytes)} {name : List Char} {start : Nat} {contents : Bytes}
    (h : Holds s streams) (hadd : s.add name start contents = .ok t) : Holds t (streams ++ [(name, contents)]) := by
  unfold Streams.add at hadd
  split at hadd
  · next hname =>
    subst hname
    obtain ⟨identity, hread, hadd⟩ := exists_of_bind hadd
    cases hadd
    refine ⟨?_, ?_, ?_⟩ <;> rw [lastNamed_append]
    · rw [if_pos rfl, Option.bind_some, IdStream.read_zero hread]
      rfl
    · rw [if_neg (by decide), h.tables]
    · rw [if_neg (by decide), h.blobs]
  split at hadd
  · next hname =>
    subst hname
    cases hadd
    refine ⟨?_, ?_, ?_⟩ <;> rw [lastNamed_append]
    · rw [if_neg (by decide), h.id]
    · rw [if_pos rfl, Option.map_some]
    · rw [if_neg (by decide), h.blobs]
  split at hadd
  · next hname =>
    subst hname
    cases hadd
    refine ⟨?_, ?_, ?_⟩ <;> rw [lastNamed_append]
    · rw [if_neg (by decide), h.id]
    · rw [if_neg (by decide), h.tables]
    · rw [if_pos rfl]
  · next hid htables hblobs =>
    cases hadd
    refine ⟨?_, ?_, ?_⟩ <;> rw [lastNamed_append]
    · rw [if_neg hid, h.id]
    · rw [if_neg htables, h.tables]
    · rw [if_neg hblobs, h.blobs]

/-- **All streams** of the directory, one after the other. -/
theorem Holds.readDirectory {b : Bytes} {count pos : Nat} {s t : Streams} {streams : List (List Char × Bytes)}
    (h : Holds s streams) (hread : readDirectory b count pos s = .ok t) :
    Holds t (streams ++ directoryFrom b count pos) := by
  induction count generalizing pos s streams with
  | zero =>
    cases hread
    rwa [directoryFrom, List.append_nil]
  | succ count ih =>
    obtain ⟨⟨name, start, contents, next⟩, hentry, hread⟩ := exists_of_bind hread
    obtain ⟨s', hadd, hread⟩ := exists_of_bind hread
    have hrest := ih (h.add hadd) hread
    rw [List.append_assoc, List.singleton_append] at hrest
    rwa [directoryFrom, hentry]

/-- **What a file holds is told by three streams**, the last ones with their names. -/
theorem parts_of_read {b : Bytes} {p : PortablePdb} (h : read b = .ok p) :
    p.id = ((lastNamed "#Pdb" (directory b)).bind fun contents => (IdStream.read contents 0).toOption) ∧
    p.tables = ((lastNamed "#~" (directory b)).bind fun contents =>
      (TableStream.read contents 0 (p.id.elim (List.replicate 64 0) (·.referenced))).toOption) ∧
    p.blobs = lastNamed "#Blob" (directory b) := by
  obtain ⟨r, s, hroot, hdirectory, hfinish⟩ := exists_of_read h
  have hnone : Holds ⟨none, none, none⟩ [] := ⟨rfl, rfl, rfl⟩
  obtain ⟨hid, htables, hblobs⟩ := hnone.readDirectory hdirectory
  rw [List.nil_append, ← directory_of_readRoot hroot] at hid htables hblobs
  obtain ⟨tables, hread, hfinish⟩ := exists_of_bind hfinish
  cases hfinish
  refine ⟨hid, ?_, hblobs⟩
  rw [← htables]
  cases hs : s.tables with
  | none =>
    rw [hs] at hread
    cases hread
    rfl
  | some stream =>
    rw [hs, Option.mapM_some] at hread
    obtain ⟨ts, hts, hread⟩ := exists_of_bind hread
    cases hread
    rw [Option.map_some, Option.bind_some, TableStream.read_zero hts]
    rfl

end Symbolicate.PortablePdb
