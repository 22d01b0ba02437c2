import Mathlib.Data.Option.Basic
import Mathlib.Tactic.Common
import Symbolicate.Proofs.Text.Ascii
import Symbolicate.Proofs.Text.Hexadecimal
import Symbolicate.Proofs.Text.Utf8
import Symbolicate.Report.Frame

/-!
# The grammar of frame lines

A frame line is cut into the pieces that `FrameText` names; `FrameText.WellFormed` says what each piece may be. More than
one cut can fit a line, since blanks behind `at` can be counted to the name: the reader takes as many of them as it can
(`FrameText.longest_iff`). It reads nothing else and refuses no line that fits (`StackFrame.parse?_eq_some_iff`), so a
frame that is written on a line is read back.
-/

namespace Symbolicate

/-! ## The pieces of a line -/

/-- A frame line, cut into pieces. -/
structure FrameText where
  indent : List Char
  /-- The word `at`. -/
  word : List Char
  gap : List Char
  name : List Char
  /-- The text `!0x`. -/
  mark : List Char
  token : List Char
  method : List Char
  arguments : List Char
  space : List Char
  /-- The text `+0x`. -/
  sign : List Char
  offset : List Char

/-- Hexadecimal digits that spell a 32-bit number. -/
structure IsHexWord (digits : List Char) : Prop where
  ne_nil : digits ≠ []
  digit : ∀ c ∈ digits, Text.isHexDigit c = true
  lt : Text.ofHex digits < 0x100000000

theorem isHexWord_hexLower (w : UInt32) : IsHexWord (Text.hexLower w.toNat) where
  ne_nil := Nat.toDigits_ne_nil
  digit := fun _ => Text.isHexDigit_of_mem_hexLower
  lt := by
    rw [Text.ofHex_hexLower]
    exact w.toNat_lt

theorem IsHexWord.zeroPadded (width : Nat) {digits : List Char} (h : IsHexWord digits) :
    IsHexWord (Text.zeroPadded width digits) where
  ne_nil := List.append_ne_nil_of_right_ne_nil _ h.ne_nil
  digit := fun _ => Text.isHexDigit_of_mem_zeroPadded h.digit
  lt := by
    rw [Text.ofHex_zeroPadded]
    exact h.lt

/-- The name of a module: none of the characters that paths and the other pieces of a line are made with. -/
structure IsModuleName (name : List Char) : Prop where
  ne_nil : name ≠ []
  char : ∀ c ∈ name, 0x20 ≤ c.toNat ∧ c ∉ "<>:\"/\\|?*!".toList

/-- A name that takes no blank away from those in front of it, unless it is nothing but that blank. -/
def IsTight (name : List Char) : Prop := ∃ c tail, name = c :: tail ∧ (Text.isBlank c = false ∨ tail = [])

theorem IsTight.ne_nil {name : List Char} (h : IsTight name) : name ≠ [] := by
  obtain ⟨c, tail, rfl, _⟩ := h
  exact List.cons_ne_nil c tail

namespace FrameText

/-- What each piece may be. -/
structure WellFormed (p : FrameText) : Prop where
  indent : ∀ c ∈ p.indent, Text.isBlank c = true
  word : p.word.map Char.toLower = "at".toList
  gap_ne_nil : p.gap ≠ []
  gap : ∀ c ∈ p.gap, Text.isBlank c = true
  name : IsModuleName p.name
  mark : p.mark.map Char.toLower = "!0x".toList
  token : IsHexWord p.token
  method_ne_nil : p.method ≠ []
  method : '(' ∉ p.method
  arguments : ')' ∉ p.arguments
  space_ne_nil : p.space ≠ []
  space : ∀ c ∈ p.space, Text.isBlank c = true
  sign : p.sign.map Char.toLower = "+0x".toList
  offset : IsHexWord p.offset

/-- The characters of the pieces. -/
def chars (p : FrameText) : List Char :=
  p.indent ++ (p.word ++ (p.gap ++ (p.name ++ (p.mark ++ (p.token ++ '!' :: (p.method ++ '(' :: (p.arguments ++ ')' ::
    (p.space ++ (p.sign ++ p.offset)))))))))

/-- The frame that the pieces describe. -/
def frame (p : FrameText) : StackFrame :=
  ⟨String.ofList p.name, UInt32.ofNat (Text.ofHex p.token), UInt32.ofNat (Text.ofHex p.offset), String.ofList p.method,
    String.ofList p.arguments⟩

/-- The same pieces, with another border between the blanks behind `at` and the name. -/
def recut (p : FrameText) (gap name : List Char) : FrameText := { p with gap := gap, name := name }

/-- A line starts with well-formed pieces, and its offset ends where the digits do. Anything may stand behind. -/
def Starts (p : FrameText) (line : Bytes) : Prop :=
  p.WellFormed ∧ ∃ rest, line = Utf8.encode p.chars ++ rest ∧
    ∀ b ∈ rest.head?, Text.isHexDigit (Char.ofNat b.toNat) = false

/-- No other cut of the line has more blanks behind `at`. -/
def Longest (p : FrameText) (line : Bytes) : Prop := ∀ q : FrameText, q.Starts line → q.gap.length ≤ p.gap.length

end FrameText

namespace StackFrame

/-! ## Reading the pieces -/

theorem isModuleChar_iff {c : Char} : isModuleChar c = true ↔ 0x20 ≤ c.toNat ∧ c ∉ "<>:\"/\\|?*!".toList := by
  simp [isModuleChar]

theorem hexDigits?_eq_some_iff {cs digits rest : List Char} : hexDigits? cs = some (digits, rest) ↔
    cs = digits ++ rest ∧ digits ≠ [] ∧ (∀ c ∈ digits, Text.isHexDigit c = true) ∧
      ∀ c ∈ rest.head?, Text.isHexDigit c = false := by
  constructor
  · intro h
    simp only [hexDigits?] at h
    split at h
    · cases h
    · next hne =>
      cases h
      exact ⟨List.takeWhile_append_dropWhile.symm, hne, fun c hc => List.mem_takeWhile_imp hc,
        fun c hc => Text.eq_false_of_head?_dropWhile hc⟩
  · rintro ⟨rfl, hne, hdigits, hrest⟩
    simp only [hexDigits?]
    rw [Text.takeWhile_run hdigits hrest, Text.dropWhile_run hdigits hrest, if_neg hne]

theorem word?_eq_some_iff {digits : List Char} {w : UInt32} : word? digits = some w ↔
    Text.ofHex digits < 0x100000000 ∧ UInt32.ofNat (Text.ofHex digits) = w := by
  simp only [word?]
  split
  · next h => simp [h]
  · next h => simp [h]

/-- A name is found behind the blanks, or as the last of them. -/
theorem moduleName?_append {gap name rest : List Char} (hgap : gap ≠ []) (hblank : ∀ c ∈ gap, Text.isBlank c = true)
    (hname : ∀ c ∈ name, isModuleChar c = true) (htight : IsTight name) :
    moduleName? (gap ++ (name ++ '!' :: rest)) = some (name, '!' :: rest) := by
  have hstop : ∀ d ∈ ('!' :: rest).head?, isModuleChar d = false := Text.eq_false_of_head?_cons (by decide)
  obtain ⟨c, tail, rfl, htight⟩ := htight
  by_cases hc : Text.isBlank c = false
  · have hend : ∀ d ∈ (c :: tail ++ '!' :: rest).head?, Text.isBlank d = false := Text.eq_false_of_head?_cons hc
    simp only [moduleName?]
    rw [Text.takeWhile_run hblank hend, Text.dropWhile_run hblank hend, if_neg hgap, Text.takeWhile_run hname hstop,
      Text.dropWhile_run hname hstop, if_pos (List.cons_ne_nil c tail)]
  · -- all in front of the mark is blank, and the last blank is the name
    obtain rfl : tail = [] := htight.resolve_left hc
    have hall : ∀ d ∈ gap ++ [c], Text.isBlank d = true :=
      List.forall_mem_append.2 ⟨hblank, List.forall_mem_singleton.2 (by simpa using hc)⟩
    have hend : ∀ d ∈ ('!' :: rest).head?, Text.isBlank d = false := Text.eq_false_of_head?_cons (by decide)
    have hlast : ((gap ++ [c]).drop 1).getLast? = some c := by
      rw [List.drop_append_of_le_length (List.length_pos_iff.2 hgap), List.getLast?_concat]
    have hnone : ('!' :: rest).takeWhile isModuleChar = [] := List.takeWhile_cons_of_neg (by decide)
    have hrest : ('!' :: rest).dropWhile isModuleChar = '!' :: rest := List.dropWhile_cons_of_neg (by decide)
    simp only [moduleName?]
    rw [← List.append_assoc, Text.takeWhile_run hall hend, Text.dropWhile_run hall hend, if_neg (by simp), hnone, hrest,
      if_neg (by simp), hlast]
    exact if_pos (hname c (List.mem_singleton_self c))

/-- A name that is found is behind blanks and tight. -/
theorem append_of_moduleName? {cs name rest : List Char} (h : moduleName? cs = some (name, rest)) :
    ∃ gap, cs = gap ++ (name ++ rest) ∧ gap ≠ [] ∧ (∀ c ∈ gap, Text.isBlank c = true) ∧
      (∀ c ∈ name, isModuleChar c = true) ∧ IsTight name := by
  have hblank : ∀ c ∈ cs.takeWhile Text.isBlank, Text.isBlank c = true := fun c hc => List.mem_takeWhile_imp hc
  simp only [moduleName?] at h
  split at h
  · cases h
  · next hgap =>
    split at h
    · next hname =>
      cases h
      refine ⟨cs.takeWhile Text.isBlank, ?_, hgap, hblank, fun c hc => List.mem_takeWhile_imp hc, ?_⟩
      · rw [List.takeWhile_append_dropWhile, List.takeWhile_append_dropWhile]
      · -- the first character of the name is where the blanks end
        obtain ⟨c, tail, hcons⟩ := List.exists_cons_of_ne_nil hname
        have hhead : c ∈ (cs.dropWhile Text.isBlank).head? := by
          rw [← List.takeWhile_append_dropWhile (p := isModuleChar) (l := cs.dropWhile Text.isBlank), hcons]
          rfl
        exact ⟨c, tail, hcons, .inl (Text.eq_false_of_head?_dropWhile hhead)⟩
    · next hname =>
      have hrest : (cs.dropWhile Text.isBlank).dropWhile isModuleChar = cs.dropWhile Text.isBlank := by
        have happend := List.takeWhile_append_dropWhile (p := isModuleChar) (l := cs.dropWhile Text.isBlank)
        rwa [not_not.1 hname, List.nil_append] at happend
      split at h
      · next c hlast =>
        split at h
        · next hc =>
          cases h
          obtain ⟨first, blanks, hblanks⟩ := List.exists_cons_of_ne_nil hgap
          rw [hblanks, List.drop_one, List.tail_cons] at hlast
          obtain ⟨front, rfl⟩ := List.getLast?_eq_some_iff.1 hlast
          refine ⟨first :: front, ?_, List.cons_ne_nil _ _, fun d hd => hblank d ?_, ?_, c, [], rfl, .inr rfl⟩
          · rw [hrest, ← List.append_assoc, List.cons_append, ← hblanks, List.takeWhile_append_dropWhile]
          · rw [hblanks, ← List.cons_append]
            exact List.mem_append_left _ hd
          · intro d hd
            rwa [List.mem_singleton.1 hd]
        · cases h
      · cases h

/-! ## Reading a line -/

/-- The word `at` starts where the blanks end. -/
theorem isBlank_of_mem_head?_word {p : FrameText} (hp : p.WellFormed) (rest : List Char) :
    ∀ c ∈ (p.word ++ rest).head?, Text.isBlank c = false := by
  obtain ⟨a, tail, hword, ha, _⟩ := List.map_eq_cons_iff.1 hp.word
  rw [hword]
  apply Text.eq_false_of_head?_cons
  rcases Text.eq_or_of_toLower_eq (e := 'A') ha (by decide) with rfl | rfl <;> decide

/-- The word is found behind the blanks in front. -/
theorem behind?_word {p : FrameText} (hp : p.WellFormed) (rest : List Char) :
    Text.behind? "at".toList ((p.indent ++ (p.word ++ rest)).dropWhile Text.isBlank) = some rest := by
  rw [Text.dropWhile_run hp.indent (isBlank_of_mem_head?_word hp rest)]
  exact Text.behind?_eq_some_iff.2 ⟨p.word, rfl, hp.word⟩

/-- The sign is found behind the blanks that follow the arguments. -/
theorem behind?_sign {p : FrameText} (hp : p.WellFormed) (rest : List Char) :
    (p.space ++ (p.sign ++ rest)).takeWhile Text.isBlank = p.space ∧
      Text.behind? "+0x".toList ((p.space ++ (p.sign ++ rest)).dropWhile Text.isBlank) = some rest := by
  obtain ⟨sign, hsign⟩ := Text.eq_cons_of_map_toLower (by decide) hp.sign
  have hend : ∀ c ∈ (p.sign ++ rest).head?, Text.isBlank c = false := by
    rw [hsign]
    exact Text.eq_false_of_head?_cons (by decide)
  constructor
  · exact Text.takeWhile_run hp.space hend
  · rw [Text.dropWhile_run hp.space hend]
    exact Text.behind?_eq_some_iff.2 ⟨p.sign, rfl, hp.sign⟩

/-- **Well-formed pieces are read as their frame.** -/
theorem ofChars?_chars {p : FrameText} (hp : p.WellFormed) (htight : IsTight p.name) {more : List Char}
    (hmore : ∀ c ∈ more.head?, Text.isHexDigit c = false) : ofChars? (p.chars ++ more) = some p.frame := by
  -- what follows the arguments, the token, the name and the word
  obtain ⟨s₄, h₄⟩ : ∃ s, s = p.space ++ (p.sign ++ (p.offset ++ more)) := ⟨_, rfl⟩
  obtain ⟨s₃, h₃⟩ : ∃ s, s = p.method ++ '(' :: (p.arguments ++ ')' :: s₄) := ⟨_, rfl⟩
  obtain ⟨s₂, h₂⟩ : ∃ s, s = p.mark ++ (p.token ++ '!' :: s₃) := ⟨_, rfl⟩
  obtain ⟨s₁, h₁⟩ : ∃ s, s = p.gap ++ (p.name ++ s₂) := ⟨_, rfl⟩
  have hchars : p.chars ++ more = p.indent ++ (p.word ++ s₁) := by
    simp only [h₁, h₂, h₃, h₄, FrameText.chars, List.append_assoc, List.cons_append]
  have hname : moduleName? s₁ = some (p.name, s₂) := by
    obtain ⟨mark, hmark⟩ := Text.eq_cons_of_map_toLower (by decide) hp.mark
    rw [h₁, h₂, hmark]
    exact moduleName?_append hp.gap_ne_nil hp.gap (fun c hc => isModuleChar_iff.2 (hp.name.char c hc)) htight
  have htoken : hexDigits? (p.token ++ '!' :: s₃) = some (p.token, '!' :: s₃) :=
    hexDigits?_eq_some_iff.2 ⟨rfl, hp.token.ne_nil, hp.token.digit, Text.eq_false_of_head?_cons (by decide)⟩
  obtain ⟨hmethod, hopen⟩ := (Text.behind?_dropWhile_iff (c := '(') (by decide) (by decide)).2 ⟨h₃, hp.method⟩
  obtain ⟨harguments, hclose⟩ := (Text.behind?_dropWhile_iff (c := ')') (by decide) (by decide)).2
    (And.intro (Eq.refl (p.arguments ++ ')' :: s₄)) hp.arguments)
  obtain ⟨hspace, hsign⟩ := behind?_sign hp (p.offset ++ more)
  rw [← h₄] at hspace hsign
  have hoffset : hexDigits? (p.offset ++ more) = some (p.offset, more) :=
    hexDigits?_eq_some_iff.2 ⟨rfl, hp.offset.ne_nil, hp.offset.digit, hmore⟩
  rw [hchars]
  simp only [ofChars?, Option.bind_eq_bind, Option.bind_eq_some_iff, Option.pure_def, Option.some.injEq]
  refine ⟨s₁, behind?_word hp s₁, (p.name, s₂), hname, p.token ++ '!' :: s₃, ?_, (p.token, '!' :: s₃), htoken, s₃, ?_,
    (), ?_, p.arguments ++ ')' :: s₄, hopen, s₄, hclose, (), ?_, p.offset ++ more, hsign, (p.offset, more), hoffset, _,
    word?_eq_some_iff.2 ⟨hp.token.lt, rfl⟩, _, word?_eq_some_iff.2 ⟨hp.offset.lt, rfl⟩, ?_⟩
  · exact Text.behind?_eq_some_iff.2 ⟨p.mark, h₂, hp.mark⟩
  · exact Text.behind?_eq_some_iff.2 ⟨['!'], rfl, rfl⟩
  · rw [hmethod]
    exact (Option.guard_eq_some' _).2 hp.method_ne_nil
  · rw [hspace]
    exact (Option.guard_eq_some' _).2 hp.space_ne_nil
  · rw [hmethod, harguments]
    rfl

/-- **A line that is read starts with well-formed pieces.** -/
theorem chars_of_ofChars? {cs : List Char} {f : StackFrame} (h : ofChars? cs = some f) :
    ∃ (p : FrameText) (more : List Char), cs = p.chars ++ more ∧ p.WellFormed ∧ IsTight p.name ∧
      (∀ c ∈ more.head?, Text.isHexDigit c = false) ∧ p.frame = f := by
  simp only [ofChars?, Option.bind_eq_bind, Option.bind_eq_some_iff, Option.pure_def, Option.some.injEq] at h
  obtain ⟨s₁, hat, ⟨name, s₂⟩, hname, s₃, hmark, ⟨token, s₄⟩, htoken, s₅, hbang, _, hmethod, s₆, hopen, s₇, hclose, _,
    hspace, s₈, hplus, ⟨offset, more⟩, hoffset, t, ht, o, ho, rfl⟩ := h
  obtain ⟨word, hrest₁, hword⟩ := Text.behind?_eq_some_iff.1 hat
  obtain ⟨gap, rfl, hgap, hblank, hchar, htight⟩ := append_of_moduleName? hname
  obtain ⟨mark, rfl, hmark'⟩ := Text.behind?_eq_some_iff.1 hmark
  obtain ⟨rfl, hdigits, hdigit, _⟩ := hexDigits?_eq_some_iff.1 htoken
  obtain rfl := Text.eq_cons_of_behind? (c := '!') (by decide) (by decide) hbang
  obtain ⟨hrest₅, hmethod'⟩ := (Text.behind?_dropWhile_iff (c := '(') (by decide) (by decide)).1 ⟨rfl, hopen⟩
  obtain ⟨hrest₆, harguments⟩ := (Text.behind?_dropWhile_iff (c := ')') (by decide) (by decide)).1 ⟨rfl, hclose⟩
  obtain ⟨sign, hrest₇, hsign⟩ := Text.behind?_eq_some_iff.1 hplus
  obtain ⟨rfl, hdigits', hdigit', hmore⟩ := hexDigits?_eq_some_iff.1 hoffset
  obtain ⟨htoken', rfl⟩ := word?_eq_some_iff.1 ht
  obtain ⟨hoffset', rfl⟩ := word?_eq_some_iff.1 ho
  refine ⟨⟨cs.takeWhile Text.isBlank, word, gap, name, mark, token, s₅.takeWhile (· ≠ '('), s₆.takeWhile (· ≠ ')'),
    s₇.takeWhile Text.isBlank, sign, offset⟩, more, ?_, ?_, htight, hmore, rfl⟩
  · simp only [FrameText.chars, List.append_assoc, List.cons_append]
    rw [← hrest₇, List.takeWhile_append_dropWhile, ← hrest₆, ← hrest₅, ← hrest₁, List.takeWhile_append_dropWhile]
  · exact {
      indent := fun c hc => List.mem_takeWhile_imp hc
      word := hword
      gap_ne_nil := hgap
      gap := hblank
      name := ⟨htight.ne_nil, fun c hc => isModuleChar_iff.1 (hchar c hc)⟩
      mark := hmark'
      token := ⟨hdigits, hdigit, htoken'⟩
      method_ne_nil := (Option.guard_eq_some' _).1 hmethod
      method := hmethod'
      arguments := harguments
      space_ne_nil := (Option.guard_eq_some' _).1 hspace
      space := fun c hc => List.mem_takeWhile_imp hc
      sign := hsign
      offset := ⟨hdigits', hdigit', hoffset'⟩ }

end StackFrame

/-! ## Lines of bytes -/

namespace FrameText

variable {p : FrameText} {line : Bytes}

/-- The characters of a line decide which pieces it starts with. -/
theorem starts_iff : p.Starts line ↔ p.WellFormed ∧ ∃ more, Utf8.validStart line = p.chars ++ more ∧
    ∀ c ∈ more.head?, Text.isHexDigit c = false := by
  have hhead := Utf8.head?_validStart_iff fun _ => Text.lt_of_isHexDigit
  constructor
  · rintro ⟨hp, rest, rfl, hrest⟩
    exact ⟨hp, Utf8.validStart rest, Utf8.validStart_encode_append _ _, (hhead rest).2 hrest⟩
  · rintro ⟨hp, more, hmore, hdigit⟩
    obtain ⟨back, hback⟩ := Utf8.encode_validStart_prefix line
    have hline : line = Utf8.encode p.chars ++ (Utf8.encode more ++ back) := by
      rw [← hback, hmore, Utf8.encode_append, List.append_assoc]
    have hrest : Utf8.validStart (Utf8.encode more ++ back) = more := by
      rw [hline, Utf8.validStart_encode_append] at hmore
      exact List.append_cancel_left hmore
    refine ⟨hp, Utf8.encode more ++ back, hline, (hhead _).1 ?_⟩
    rwa [hrest]

/-- All cuts of a line have the same characters between `at` and the mark. -/
theorem gap_append_name (h : p.Starts line) : p.gap ++ p.name =
    (((Utf8.validStart line).dropWhile Text.isBlank).drop 2).takeWhile (· ≠ '!') := by
  obtain ⟨hp, more, hmore, _⟩ := starts_iff.1 h
  obtain ⟨mark, hmark⟩ := Text.eq_cons_of_map_toLower (by decide) hp.mark
  have hword : p.word.length = 2 := by simpa using congrArg List.length hp.word
  have hrun : ∀ c ∈ p.gap ++ p.name, decide (c ≠ '!') = true := by
    intro c hc
    apply decide_eq_true
    rintro rfl
    rcases List.mem_append.1 hc with hc | hc
    · exact absurd (hp.gap _ hc) (by decide)
    · exact absurd (hp.name.char _ hc) (by decide)
  rw [hmore]
  simp only [chars, List.append_assoc, List.cons_append]
  rw [Text.dropWhile_run hp.indent (StackFrame.isBlank_of_mem_head?_word hp _), List.drop_left' hword,
    ← List.append_assoc, Text.takeWhile_run hrun]
  rw [hmark]
  exact Text.eq_false_of_head?_cons (by decide)

/-- A blank that a longer name starts with can be counted to those in front of it. -/
theorem Starts.recut (h : p.Starts line) {c : Char} {tail : List Char} (hname : p.name = c :: tail)
    (hc : Text.isBlank c = true) (htail : tail ≠ []) : (p.recut (p.gap ++ [c]) tail).Starts line := by
  obtain ⟨hp, hline⟩ := h
  have hchars : (p.recut (p.gap ++ [c]) tail).chars = p.chars := by simp [FrameText.recut, chars, hname]
  refine ⟨{ hp with
    gap_ne_nil := List.append_ne_nil_of_right_ne_nil _ (List.cons_ne_nil _ _)
    gap := List.forall_mem_append.2 ⟨hp.gap, List.forall_mem_singleton.2 hc⟩
    name := ⟨htail, fun d hd => hp.name.char d (hname ▸ List.mem_cons_of_mem c hd)⟩ }, hchars ▸ hline⟩

/-- **A cut has as many blanks as possible behind `at` iff its name takes none away.** -/
theorem longest_iff (h : p.Starts line) : p.Longest line ↔ IsTight p.name := by
  constructor
  · intro hlongest
    obtain ⟨c, tail, hname⟩ := List.exists_cons_of_ne_nil h.1.name.ne_nil
    refine ⟨c, tail, hname, ?_⟩
    by_contra hnot
    rw [not_or, Bool.not_eq_false] at hnot
    have hle := hlongest _ (h.recut hname hnot.1 hnot.2)
    rw [recut, List.length_append, List.length_singleton] at hle
    omega
  · rintro ⟨c, tail, hname, htight⟩ q hq
    have hcut : p.gap ++ p.name = q.gap ++ q.name := (gap_append_name h).trans (gap_append_name hq).symm
    rcases List.append_eq_append_iff.1 hcut with ⟨middle, hgap, hmiddle⟩ | ⟨middle, hgap, _⟩
    · cases middle with
      | nil => rw [hgap, List.append_nil]
      | cons d middle =>
        -- then the name starts with a blank, so there is nothing left for the other name
        rw [hname, List.cons_append, List.cons.injEq] at hmiddle
        obtain ⟨rfl, htail⟩ := hmiddle
        have hblank : Text.isBlank c = true := hq.1.gap c (by rw [hgap]; simp)
        rw [htight.resolve_left (by simp [hblank])] at htail
        exact absurd (List.append_eq_nil_iff.1 htail.symm).2 hq.1.name.ne_nil
    · rw [hgap, List.length_append]
      exact Nat.le_add_right _ _

end FrameText

namespace StackFrame

/-- **A frame is read iff the line starts with its pieces.** -/
theorem parse?_eq_some_iff {line : Bytes} {f : StackFrame} :
    parse? line = some f ↔ ∃ p : FrameText, p.Starts line ∧ p.Longest line ∧ p.frame = f := by
  constructor
  · intro h
    obtain ⟨p, more, hchars, hp, htight, hmore, hframe⟩ := chars_of_ofChars? h
    have hstarts : p.Starts line := FrameText.starts_iff.2 ⟨hp, more, hchars, hmore⟩
    exact ⟨p, hstarts, (FrameText.longest_iff hstarts).2 htight, hframe⟩
  · rintro ⟨p, hstarts, hlongest, rfl⟩
    obtain ⟨hp, more, hchars, hmore⟩ := FrameText.starts_iff.1 hstarts
    rw [parse?, hchars]
    exact ofChars?_chars hp ((FrameText.longest_iff hstarts).1 hlongest) hmore

/-! ## Writing and reading -/

/-- A frame line of a report: the frame with its token in at least `width` digits. -/
def written (f : StackFrame) (width : Nat) : String :=
  "   at " ++ f.moduleName ++ "!0x" ++ String.ofList (Text.zeroPadded width (Text.hexLower f.token.toNat)) ++ "!" ++
    f.method ++ "(" ++ f.arguments ++ ") +0x" ++ String.ofList (Text.hexLower f.offset.toNat)

/-- A frame that can stand on a line. -/
structure IsWritable (f : StackFrame) : Prop where
  name : IsModuleName f.moduleName.toList
  notBlank : ∀ c ∈ f.moduleName.toList.head?, Text.isBlank c = false
  method_ne_nil : f.method.toList ≠ []
  method : '(' ∉ f.method.toList
  arguments : ')' ∉ f.arguments.toList

/-- The pieces of the line that a frame is written on. -/
def writtenPieces (f : StackFrame) (width : Nat) : FrameText where
  indent := "   ".toList
  word := "at".toList
  gap := [' ']
  name := f.moduleName.toList
  mark := "!0x".toList
  token := Text.zeroPadded width (Text.hexLower f.token.toNat)
  method := f.method.toList
  arguments := f.arguments.toList
  space := [' ']
  sign := "+0x".toList
  offset := Text.hexLower f.offset.toNat

theorem toList_written (f : StackFrame) (width : Nat) : (f.written width).toList = (f.writtenPieces width).chars := by
  simp [written, writtenPieces, FrameText.chars]

theorem frame_writtenPieces (f : StackFrame) (width : Nat) : (f.writtenPieces width).frame = f := by
  simp [FrameText.frame, writtenPieces, Text.ofHex_zeroPadded, Text.ofHex_hexLower]

theorem wellFormed_writtenPieces {f : StackFrame} (hf : f.IsWritable) (width : Nat) :
    (f.writtenPieces width).WellFormed where
  indent := List.all_eq_true.1 (show "   ".toList.all Text.isBlank = true by decide)
  word := show "at".toList.map Char.toLower = "at".toList by decide
  gap_ne_nil := List.cons_ne_nil _ _
  gap := List.all_eq_true.1 (show [' '].all Text.isBlank = true by decide)
  name := hf.name
  mark := show "!0x".toList.map Char.toLower = "!0x".toList by decide
  token := (isHexWord_hexLower f.token).zeroPadded width
  method_ne_nil := hf.method_ne_nil
  method := hf.method
  arguments := hf.arguments
  space_ne_nil := List.cons_ne_nil _ _
  space := List.all_eq_true.1 (show [' '].all Text.isBlank = true by decide)
  sign := show "+0x".toList.map Char.toLower = "+0x".toList by decide
  offset := isHexWord_hexLower f.offset

/-- **A frame that is written on a line is read back**, whatever follows its offset. -/
theorem parse?_written {f : StackFrame} (hf : f.IsWritable) (width : Nat) {rest : Bytes}
    (hrest : ∀ b ∈ rest.head?, Text.isHexDigit (Char.ofNat b.toNat) = false) :
    parse? (Utf8.ofString (f.written width) ++ rest) = some f := by
  have hstarts : (f.writtenPieces width).Starts (Utf8.ofString (f.written width) ++ rest) :=
    ⟨wellFormed_writtenPieces hf width, rest, by rw [Utf8.ofString, toList_written], hrest⟩
  have htight : IsTight (f.writtenPieces width).name := by
    obtain ⟨c, tail, hname⟩ := List.exists_cons_of_ne_nil hf.name.ne_nil
    exact ⟨c, tail, hname, .inl (hf.notBlank c (by rw [hname]; rfl))⟩
  exact parse?_eq_some_iff.2 ⟨_, hstarts, (FrameText.longest_iff hstarts).2 htight, frame_writtenPieces f width⟩

/-- **The reader takes exactly the lines of the grammar**, and a frame that is written on a line is read back. -/
theorem parse?_grammar :
    (∀ (line : Bytes) (f : StackFrame),
      parse? line = some f ↔ ∃ p : FrameText, p.Starts line ∧ p.Longest line ∧ p.frame = f) ∧
    ∀ (f : StackFrame) (width : Nat) (rest : Bytes), f.IsWritable →
      (∀ b ∈ rest.head?, Text.isHexDigit (Char.ofNat b.toNat) = false) →
      parse? (Utf8.ofString (f.written width) ++ rest) = some f :=
  ⟨fun _ _ => parse?_eq_some_iff, fun _ width _ hf hrest => parse?_written hf width hrest⟩

/-- A frame whose module has a blank and parentheses in its name, and whose method has a mark in its. -/
def oddFrame : StackFrame := ⟨"My (Lib)", 0x06000001, 0x1b, "T.M!0x5", "List<T> x, (y"⟩

theorem parse?_grammar_oddFrame :
    oddFrame.written 8 = "   at My (Lib)!0x06000001!T.M!0x5(List<T> x, (y) +0x1b" ∧
      parse? (Utf8.ofString (oddFrame.written 8) ++ [0x0D, 0x0A]) = some oddFrame := by
  have hwritable : oddFrame.IsWritable := {
    name := ⟨by decide, fun c hc =>
      isModuleChar_iff.1 (List.all_eq_true.1 (show oddFrame.moduleName.toList.all isModuleChar = true by decide) c hc)⟩
    notBlank := by
      rintro c ⟨⟩
      decide
    method_ne_nil := by decide
    method := by decide
    arguments := by decide }
  refine ⟨by decide, parse?_grammar.2 oddFrame 8 [0x0D, 0x0A] hwritable ?_⟩
  rintro b ⟨⟩
  decide

end StackFrame

end Symbolicate
