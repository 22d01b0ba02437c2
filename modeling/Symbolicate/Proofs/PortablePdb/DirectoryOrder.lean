import Mathlib.Data.List.Nodup
import Mathlib.Data.List.Perm.Basic
import Symbolicate.Proofs.PortablePdb.Layout
import Symbolicate.Proofs.PortablePdb.Streams
import Symbolicate.Proofs.Text.Utf8

/-!
# The order of the directory

A file with its directory taken apart into entries (`StreamHeader`), each as the bytes that it has there. An entry changes
the part of the streams that it names (`StreamHeader.change`), and entries with different names change different parts
(`StreamHeader.change_comm`), so a directory in another order gives the same streams as long as no stream lies in the
directory itself (`readDirectory_perm`). With the streams told by their names alone, the layout of a file does not matter
(`layout_does_not_matter`).
-/

namespace Symbolicate.PortablePdb

/-! ## The root -/

/-- All that stands in front of a directory of so many entries: the fixed part of the root, the version, and the number
of entries in the last two bytes. -/
def IsRoot (front : Bytes) (count : Nat) : Prop :=
  ∃ versionLength, Bytes.u32? front 12 = some versionLength ∧ front.length = 16 + versionLength + 4 ∧
    Bytes.u16? front (16 + versionLength + 2) = some count

/-- What stands in front of the directory is read without it. -/
theorem readRoot_append_of_isRoot {front : Bytes} {count : Nat} (h : IsRoot front count) (rest : Bytes) :
    readRoot (front ++ rest) = readRoot front := by
  obtain ⟨versionLength, hversionLength, hlength, -⟩ := h
  have hslice : ∀ {start len : Nat}, start + len ≤ front.length →
      Bytes.slice? (front ++ rest) start len = Bytes.slice? front start len := fun hle => by
    rw [Bytes.slice?_append hle, Bytes.slice?, if_pos hle]
  have hhead : Bytes.slice? front 0 16 = some (front.take 16) := if_pos (by omega)
  have hversion : Bytes.le ((front.take 16).drop 12) = versionLength := by
    rw [Bytes.u32?, Bytes.slice?_drop_of_eq hhead (show 12 ≤ 16 by omega)] at hversionLength
    exact Option.some.inj hversionLength
  simp only [readRoot, aligned?, hslice (show 0 + 16 ≤ front.length by omega), hhead, require_some, ok_bind, hversion,
    hslice (show 16 + versionLength ≤ front.length by omega),
    hslice (show 16 + versionLength + 4 ≤ front.length by omega)]

/-- The directory is found behind what stands in front of it. -/
theorem root_of_isRoot {front : Bytes} {count : Nat} (h : IsRoot front count) {r : Root} (hr : readRoot front = .ok r) :
    r.count = count ∧ r.pos = front.length := by
  obtain ⟨versionLength, hversionLength, hlength, hcount⟩ := h
  obtain ⟨n, hn, hcount', hpos⟩ := exists_of_readRoot hr
  obtain rfl : n = versionLength := Option.some.inj (hn.symm.trans hversionLength)
  exact ⟨Option.some.inj (hcount'.symm.trans hcount), by rw [hpos, hlength]⟩

/-! ## Changes -/

/-- What a stream changes, whatever was found in front of it. Only the identity can be at fault. -/
def Streams.change (name : List Char) (start : Nat) (contents : Bytes) : Option (Streams → Streams) :=
  if name = "#Pdb".toList then
    (IdStream.read contents start).toOption.map fun identity s => { s with id := some identity }
  else if name = "#~".toList then some fun s => { s with tables := some (start, contents) }
  else if name = "#Blob".toList then some fun s => { s with blobs := some contents }
  else some fun s => s

theorem Streams.add_eq_change (s : Streams) (name : List Char) (start : Nat) (contents : Bytes) :
    (s.add name start contents).toOption = (change name start contents).map fun f => f s := by
  unfold add change
  split
  · cases IdStream.read contents start <;> rfl
  split
  · rfl
  split <;> rfl

/-- **Streams with different names change different parts.** -/
theorem Streams.change_comm {name₁ name₂ : List Char} (hne : name₁ ≠ name₂) {start₁ start₂ : Nat}
    {contents₁ contents₂ : Bytes} {f₁ f₂ : Streams → Streams} (h₁ : change name₁ start₁ contents₁ = some f₁)
    (h₂ : change name₂ start₂ contents₂ = some f₂) (s : Streams) : f₁ (f₂ s) = f₂ (f₁ s) := by
  unfold change at h₁ h₂
  split at h₁
  · obtain ⟨_, -, rfl⟩ := Option.map_eq_some_iff.1 h₁
    split at h₂
    · exact absurd (‹name₁ = _›.trans ‹name₂ = _›.symm) hne
    split at h₂
    · cases h₂
      rfl
    split at h₂ <;> cases h₂ <;> rfl
  split at h₁
  · cases h₁
    split at h₂
    · obtain ⟨_, -, rfl⟩ := Option.map_eq_some_iff.1 h₂
      rfl
    split at h₂
    · exact absurd (‹name₁ = _›.trans ‹name₂ = _›.symm) hne
    split at h₂ <;> cases h₂ <;> rfl
  split at h₁
  · cases h₁
    split at h₂
    · obtain ⟨_, -, rfl⟩ := Option.map_eq_some_iff.1 h₂
      rfl
    split at h₂
    · cases h₂
      rfl
    split at h₂
    · exact absurd (‹name₁ = _›.trans ‹name₂ = _›.symm) hne
    · cases h₂
      rfl
  · cases h₁
    rfl

/-! ## Entries -/

theorem toOption_bind {α β : Type} (x : Except FormatError α) (f : α → Except FormatError β) :
    (x >>= f).toOption = x.toOption.bind fun a => (f a).toOption := by
  cases x <;> rfl

/-- An entry of a directory as its bytes: four for the offset of the stream, four for its size, and a name of less than
32 bytes with a NUL behind it and whatever fills it up to a multiple of four. -/
structure StreamHeader where
  start : Bytes
  size : Bytes
  name : Bytes
  padding : Bytes
  length_start : start.length = 4
  length_size : size.length = 4
  notMem_name : 0 ∉ name
  length_name : name.length < 32
  length_padding : name.length + 1 + padding.length = Bytes.roundUp4 (name.length + 1)

namespace StreamHeader

def bytes (h : StreamHeader) : Bytes := (h.start ++ h.size) ++ (h.name ++ 0 :: h.padding)

/-- The stream of an entry has no byte from `pos` to `stop`. -/
def LiesOutside (h : StreamHeader) (pos stop : Nat) : Prop :=
  Bytes.le h.size = 0 ∨ Bytes.le h.start + Bytes.le h.size ≤ pos ∨ stop ≤ Bytes.le h.start

instance (h : StreamHeader) (pos stop : Nat) : Decidable (h.LiesOutside pos stop) :=
  inferInstanceAs (Decidable (_ ∨ _ ∨ _))

/-- What the entry changes, if its name and its stream can be read from the file `b`. -/
def change (b : Bytes) (h : StreamHeader) : Option (Streams → Streams) :=
  (Utf8.decode? h.name).bind fun name => (Bytes.slice? b (Bytes.le h.start) (Bytes.le h.size)).bind fun contents =>
    Streams.change name (Bytes.le h.start) contents

theorem length_bytes (h : StreamHeader) : h.bytes.length = 8 + Bytes.roundUp4 (h.name.length + 1) := by
  have hstart := h.length_start
  have hsize := h.length_size
  have hpadding := h.length_padding
  simp only [bytes, List.length_append, List.length_cons]
  omega

variable {b pre post : Bytes} {pos : Nat}

/-- The name of an entry is read as it stands there. -/
theorem entryName_bytes (h : StreamHeader) (hb : b = pre ++ (h.bytes ++ post)) (hpos : pre.length = pos) :
    entryName b pos = h.name := by
  have hsplit : b = (pre ++ (h.start ++ h.size)) ++ (h.name ++ 0 :: (h.padding ++ post)) := by
    simp only [hb, bytes, List.append_assoc, List.cons_append]
  have hlength : (pre ++ (h.start ++ h.size)).length = pos + 8 := by
    simp only [List.length_append, hpos, h.length_start, h.length_size]
  obtain ⟨n, hn⟩ : ∃ n, 32 - h.name.length = n + 1 := ⟨31 - h.name.length, by have := h.length_name; omega⟩
  rw [entryName, hsplit, List.drop_left' hlength, List.take_append, List.take_of_length_le (Nat.le_of_lt h.length_name),
    hn, List.take_succ_cons, Draft.untilNul_append h.notMem_name]

/-- **An entry is read as one step** when it starts at a multiple of four. -/
theorem readDirectory_bytes (h : StreamHeader) (hb : b = pre ++ (h.bytes ++ post)) (hpos : pre.length = pos)
    (halign : pos % 4 = 0) (count : Nat) (s : Streams) :
    (readDirectory b (count + 1) pos s).toOption =
      (h.change b).bind fun f => (readDirectory b count (pos + h.bytes.length) (f s)).toOption := by
  have hheader : aligned? b 4 pos 8 = some (h.start ++ h.size) := by
    have hb' : b = pre ++ ((h.start ++ h.size) ++ ((h.name ++ 0 :: h.padding) ++ post)) := by
      rw [hb, bytes, List.append_assoc]
    rw [aligned?, if_pos halign,
      Bytes.slice?_of_eq hb' hpos (by rw [List.length_append, h.length_start, h.length_size])]
  have hname := h.entryName_bytes hb hpos
  have hstop : entryStop b pos = pos + h.bytes.length := by
    rw [entryStop, hname, h.length_bytes, Nat.add_assoc]
  have hfrom : ∃ rest, Bytes.from? b (pos + h.bytes.length) = some rest :=
    ⟨_, if_pos (by rw [hb, List.length_append, List.length_append]; omega)⟩
  obtain ⟨rest, hfrom⟩ := hfrom
  have hentry : directoryEntry b pos = do
      let name ← requireText .invalidStreamName (Utf8.decode? h.name)
      let contents ← require .invalidLength (Bytes.slice? b (Bytes.le h.start) (Bytes.le h.size))
      return (name, Bytes.le h.start, contents, pos + h.bytes.length) := by
    rw [entryName] at hname
    rw [entryStop, entryName] at hstop
    simp only [directoryEntry, hheader, require_some, ok_bind, hname] at hstop ⊢
    rw [hstop, hfrom, List.take_left' h.length_start, List.drop_left' h.length_start]
    rfl
  rw [readDirectory, hentry, change]
  cases Utf8.decode? h.name with
  | none => rfl
  | some name =>
    cases Bytes.slice? b (Bytes.le h.start) (Bytes.le h.size) with
    | none => rfl
    | some contents =>
      refine (toOption_bind (s.add name (Bytes.le h.start) contents) fun t =>
        readDirectory b count (pos + h.bytes.length) t).trans ?_
      rw [Streams.add_eq_change, Option.bind_some, Option.bind_some, Option.bind_map]
      rfl

/-- Nothing is read from an entry that does not start at a multiple of four. -/
theorem readDirectory_of_not_aligned {pos : Nat} (halign : pos % 4 ≠ 0) (b : Bytes) (count : Nat) (s : Streams) :
    (readDirectory b (count + 1) pos s).toOption = none := by
  rw [readDirectory, directoryEntry, aligned?, if_neg halign]
  rfl

/-- The streams after changes, made one after the other. -/
def applyAll (changes : List (Option (Streams → Streams))) (s : Streams) : Option Streams :=
  changes.foldlM (fun s change => change.map fun f => f s) s

/-- **Entries are read one after the other.** -/
theorem readDirectory_flatMap {headers : List StreamHeader} (s : Streams)
    (hb : b = pre ++ (headers.flatMap bytes ++ post)) (hpos : pre.length = pos) (halign : pos % 4 = 0) :
    (readDirectory b headers.length pos s).toOption = applyAll (headers.map (change b)) s := by
  induction headers generalizing pre pos s with
  | nil => rfl
  | cons h headers ih =>
    rw [List.flatMap_cons] at hb
    have hhead : b = pre ++ (h.bytes ++ (headers.flatMap bytes ++ post)) := by
      rw [hb, List.append_assoc]
    have htail : b = (pre ++ h.bytes) ++ (headers.flatMap bytes ++ post) := by
      rw [hhead, List.append_assoc]
    have hnext : (pos + h.bytes.length) % 4 = 0 := by
      have := (Draft.le_roundUp4 (h.name.length + 1)).2
      rw [h.length_bytes]
      omega
    have hrest : ∀ t, (readDirectory b headers.length (pos + h.bytes.length) t).toOption =
        applyAll (headers.map (change b)) t := fun t =>
      ih t htail (by rw [List.length_append, hpos]) hnext
    rw [List.length_cons, h.readDirectory_bytes hhead hpos halign, applyAll, List.map_cons, List.foldlM_cons]
    cases h.change b with
    | none => rfl
    | some f => exact hrest (f s)

/-! ## Another order -/

/-- Entries with different names change different parts. -/
theorem change_comm {h₁ h₂ : StreamHeader} (hne : h₁.name ≠ h₂.name) {f₁ f₂ : Streams → Streams}
    (hf₁ : h₁.change b = some f₁) (hf₂ : h₂.change b = some f₂) (s : Streams) : f₁ (f₂ s) = f₂ (f₁ s) := by
  obtain ⟨name₁, hname₁, hf₁⟩ := Option.bind_eq_some_iff.1 hf₁
  obtain ⟨contents₁, -, hf₁⟩ := Option.bind_eq_some_iff.1 hf₁
  obtain ⟨name₂, hname₂, hf₂⟩ := Option.bind_eq_some_iff.1 hf₂
  obtain ⟨contents₂, -, hf₂⟩ := Option.bind_eq_some_iff.1 hf₂
  refine Streams.change_comm (fun heq => hne ?_) hf₁ hf₂ s
  rw [Utf8.eq_encode_of_decode? hname₁, Utf8.eq_encode_of_decode? hname₂, heq]

/-- **Changes of entries with different names give the same streams in every order.** -/
theorem applyAll_perm {headers headers' : List StreamHeader} (hperm : headers.Perm headers')
    (hnames : (headers.map name).Nodup) (s : Streams) :
    applyAll (headers.map (change b)) s = applyAll (headers'.map (change b)) s := by
  unfold applyAll
  rw [List.foldlM_eq_foldl, List.foldlM_eq_foldl]
  refine List.Perm.foldl_eq' (hperm.map _) ?_ _
  intro c₁ hc₁ c₂ hc₂ z
  obtain ⟨h₁, hmem₁, rfl⟩ := List.mem_map.1 hc₁
  obtain ⟨h₂, hmem₂, rfl⟩ := List.mem_map.1 hc₂
  by_cases hsame : h₁.name = h₂.name
  · rw [List.inj_on_of_nodup_map hnames hmem₁ hmem₂ hsame]
  · cases z with
    | none => rfl
    | some z =>
      cases hf₁ : h₁.change b with
      | none => cases h₂.change b <;> rfl
      | some f₁ =>
        cases hf₂ : h₂.change b with
        | none => rfl
        | some f₂ => exact congrArg some (change_comm hsame hf₁ hf₂ z).symm

/-- A slice without bytes in the middle of a file does not depend on the middle. -/
theorem slice?_of_outside {front middle middle' rest : Bytes} (hlength : middle.length = middle'.length)
    {start len : Nat} (h : len = 0 ∨ start + len ≤ front.length ∨ (front ++ middle).length ≤ start) :
    Bytes.slice? (front ++ (middle ++ rest)) start len = Bytes.slice? (front ++ (middle' ++ rest)) start len := by
  have htotal : (front ++ (middle ++ rest)).length = (front ++ (middle' ++ rest)).length := by
    simp only [List.length_append, hlength]
  rcases h with rfl | hfront | hbehind
  · simp only [Bytes.slice?, htotal, List.take_zero]
  · rw [Bytes.slice?_append hfront, Bytes.slice?_append hfront]
  · have hdrop : ∀ m : Bytes, (front ++ m).length = (front ++ middle).length →
        (front ++ (m ++ rest)).drop start = rest.drop (start - (front ++ middle).length) := fun m hm => by
      rw [← List.append_assoc, List.drop_append, List.drop_eq_nil_of_le (by omega), List.nil_append, hm]
    rw [Bytes.slice?, Bytes.slice?, htotal, hdrop middle rfl,
      hdrop middle' (by rw [List.length_append, List.length_append, hlength])]

end StreamHeader

/-! ## The file -/

open StreamHeader in
/-- **A directory in another order gives the same streams.** -/
theorem readDirectory_perm {front rest : Bytes} {headers headers' : List StreamHeader} (hperm : headers.Perm headers')
    (hnames : (headers.map name).Nodup)
    (houtside : ∀ h ∈ headers, h.LiesOutside front.length (front ++ headers.flatMap bytes).length) (s : Streams) :
    (readDirectory (front ++ (headers.flatMap bytes ++ rest)) headers.length front.length s).toOption =
      (readDirectory (front ++ (headers'.flatMap bytes ++ rest)) headers.length front.length s).toOption := by
  by_cases halign : front.length % 4 = 0
  · have hlength : (headers.flatMap bytes).length = (headers'.flatMap bytes).length :=
      (hperm.flatMap_right _).length_eq
    have hchange : headers.map (change (front ++ (headers.flatMap bytes ++ rest))) =
        headers.map (change (front ++ (headers'.flatMap bytes ++ rest))) := by
      refine List.map_congr_left fun h hmem => ?_
      rw [change, change, slice?_of_outside hlength (houtside h hmem)]
    rw [readDirectory_flatMap s rfl rfl halign, hchange, applyAll_perm hperm hnames, hperm.length_eq,
      readDirectory_flatMap s rfl rfl halign]
  · cases headers with
    | nil =>
      rw [List.nil_perm.1 hperm]
    | cons h headers =>
      rw [List.length_cons, readDirectory_of_not_aligned halign, readDirectory_of_not_aligned halign]

/-- A file is read if the root, the directory and the tables are. -/
theorem exists_read_iff {front : Bytes} {count : Nat} (h : IsRoot front count) (rest : Bytes) :
    (∃ p, read (front ++ rest) = .ok p) ↔ ∃ r s p, readRoot front = .ok r ∧
      (readDirectory (front ++ rest) count front.length ⟨none, none, none⟩).toOption = some s ∧ r.finish s = .ok p := by
  constructor
  · rintro ⟨p, hp⟩
    obtain ⟨r, s, hroot, hdirectory, hfinish⟩ := exists_of_read hp
    rw [readRoot_append_of_isRoot h] at hroot
    obtain ⟨hcount, hpos⟩ := root_of_isRoot h hroot
    rw [hcount, hpos] at hdirectory
    exact ⟨r, s, p, hroot, by rw [hdirectory]; rfl, hfinish⟩
  · rintro ⟨r, s, p, hroot, hdirectory, hfinish⟩
    obtain ⟨hcount, hpos⟩ := root_of_isRoot h hroot
    have hread : readDirectory (front ++ rest) count front.length ⟨none, none, none⟩ = .ok s := by
      cases hx : readDirectory (front ++ rest) count front.length ⟨none, none, none⟩ with
      | error e =>
        rw [hx] at hdirectory
        cases hdirectory
      | ok t =>
        rw [hx] at hdirectory
        cases hdirectory
        rfl
    refine ⟨p, ?_⟩
    rw [read_eq, readRoot_append_of_isRoot h, hroot, ok_bind, hcount, hpos, hread, ok_bind, hfinish]

open StreamHeader in
/-- **Only what the three streams hold matters**, and not how the file is laid out. Two files that are read give the same
answers if the last streams with the names `#Pdb`, `#~` and `#Blob` have the same contents in both, or are missing in
both. And whether a file is read does not depend on the order of its directory, if the names there are different and no
stream lies in it. -/
theorem layout_does_not_matter :
    (∀ (b c : Bytes) (p q : PortablePdb), read b = .ok p → read c = .ok q →
      (∀ name ∈ ["#Pdb", "#~", "#Blob"], lastNamed name (directory b) = lastNamed name (directory c)) →
      SameAnswers p q) ∧
    ∀ (front rest : Bytes) (headers headers' : List StreamHeader), IsRoot front headers.length →
      (headers.map name).Nodup →
      (∀ h ∈ headers, h.LiesOutside front.length (front ++ headers.flatMap bytes).length) → headers.Perm headers' →
      ((∃ p, read (front ++ (headers.flatMap bytes ++ rest)) = .ok p) ↔
        ∃ p, read (front ++ (headers'.flatMap bytes ++ rest)) = .ok p) := by
  constructor
  · intro b c p q hp hq hsame
    obtain ⟨hid, htables, hblobs⟩ := parts_of_read hp
    obtain ⟨hid', htables', hblobs'⟩ := parts_of_read hq
    have hidentity : p.id = q.id := by
      rw [hid, hid', hsame "#Pdb" (by simp)]
    refine .of_eq hidentity ?_ ?_
    · rw [htables, htables', hsame "#~" (by simp), hidentity]
    · rw [hblobs, hblobs', hsame "#Blob" (by simp)]
  · intro front rest headers headers' hroot hnames houtside hperm
    rw [exists_read_iff hroot, exists_read_iff (hperm.length_eq ▸ hroot), ← hperm.length_eq,
      readDirectory_perm hperm hnames houtside]

/-- The root of a file with two streams. -/
def shortRoot : Bytes := Bytes.ofLe 4 signature ++ List.replicate 14 0 ++ Bytes.ofLe 2 2

/-- An identity and a heap of four bytes, behind a directory of two entries. -/
def twoHeaders : List StreamHeader := [
  ⟨Bytes.ofLe 4 52, Bytes.ofLe 4 32, Utf8.ofString "#Pdb", [0, 0, 0], rfl, rfl, by decide, by decide, rfl⟩,
  ⟨Bytes.ofLe 4 84, Bytes.ofLe 4 4, Utf8.ofString "#Blob", [0, 0], rfl, rfl, by decide, by decide, rfl⟩]

/-- A file with the entries of `headers` in its directory. -/
def withDirectory (headers : List StreamHeader) : Bytes :=
  shortRoot ++ (headers.flatMap StreamHeader.bytes ++ List.replicate 36 0)

/-- A small file is read with its two entries in either order, and gives the same answers. -/
theorem layout_does_not_matter_twoHeaders :
    ((∃ p, read (withDirectory twoHeaders) = .ok p) ↔ ∃ p, read (withDirectory twoHeaders.reverse) = .ok p) ∧
      ∃ p q, read (withDirectory twoHeaders) = .ok p ∧ read (withDirectory twoHeaders.reverse) = .ok q ∧
        SameAnswers p q := by
  have hread : ∃ p, read (withDirectory twoHeaders) = .ok p := by
    have hok : (read (withDirectory twoHeaders)).isOk = true := by decide +kernel
    cases h : read (withDirectory twoHeaders) with
    | error e =>
      rw [h] at hok
      cases hok
    | ok p => exact ⟨p, rfl⟩
  have hroot : IsRoot shortRoot twoHeaders.length := ⟨0, by decide, by decide, by decide⟩
  have horder := layout_does_not_matter.2 shortRoot (List.replicate 36 0) twoHeaders twoHeaders.reverse hroot
    (by decide) (by decide) (List.reverse_perm twoHeaders).symm
  obtain ⟨p, hp⟩ := hread
  obtain ⟨q, hq⟩ := horder.1 ⟨p, hp⟩
  exact ⟨horder, p, q, hp, hq, layout_does_not_matter.1 _ _ p q hp hq (by decide +kernel)⟩

end Symbolicate.PortablePdb
