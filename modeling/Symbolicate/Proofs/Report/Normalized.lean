import Mathlib.Data.List.Infix
import Mathlib.Data.List.TakeWhile
import Mathlib.Data.Option.Basic
import Mathlib.Tactic.Common
import Symbolicate.Proofs.Report.Lines
import Symbolicate.Proofs.Text.Ascii
import Symbolicate.Proofs.Text.Utf8
import Symbolicate.Report.Frame

/-!
# Normalized frames are not frames

A frame line ends its arguments with the first parenthesis that closes, and goes on with blanks and an offset
(`parts_of_ofChars?`). A normalized frame goes on with a source location or ends there, so it is no frame again unless
the name of the source file looks like the end of one (`parse?_normalized`). Nor does normalizing move the end of a line
(`isLine_normalized`) or make a separator (`isSeparator_normalized`): what a frame is written with stands on one line
that is no separator (`isInline_normalizedText`).
-/

namespace Symbolicate

/-! ## Patterns in texts -/

/-- A pattern that lacks a character occurs on one side of it. -/
theorem infix_of_append_cons {α : Type} {pattern a b : List α} {c : α} (hc : c ∉ pattern)
    (h : pattern <:+: a ++ c :: b) : pattern <:+: a ∨ pattern <:+: b := by
  rcases List.infix_append_iff.1 h with h | h | ⟨front, back, rfl, hfront, hback⟩
  · exact .inl h
  · rcases List.infix_cons_iff.1 h with hstart | h
    · cases pattern with
      | nil => exact .inl List.nil_infix
      | cons d pattern =>
        rw [(List.cons_prefix_cons.1 hstart).1] at hc
        exact absurd List.mem_cons_self hc
    · exact .inr h
  · cases back with
    | nil =>
      rw [List.append_nil]
      exact .inl hfront.isInfix
    | cons d back =>
      rw [(List.cons_prefix_cons.1 hback).1] at hc
      exact absurd (List.mem_append_right _ List.mem_cons_self) hc

/-- Behind a text, a character is met no earlier than at its first place. -/
theorem eq_or_of_append_cons_eq {α : Type} {c : α} {a b a' b' : List α} (ha : c ∉ a)
    (h : a ++ c :: b = a' ++ c :: b') : (a = a' ∧ b = b') ∨ ∃ more, a' = a ++ c :: more ∧ b = more ++ c :: b' := by
  rcases List.append_eq_append_iff.1 h with ⟨middle, rfl, hb⟩ | ⟨middle, rfl, hb⟩
  · cases middle with
    | nil =>
      rw [List.nil_append, List.cons.injEq] at hb
      exact .inl ⟨(List.append_nil a).symm, hb.2⟩
    | cons d middle =>
      rw [List.cons_append, List.cons.injEq] at hb
      obtain ⟨rfl, rfl⟩ := hb
      exact .inr ⟨middle, rfl, rfl⟩
  · cases middle with
    | nil =>
      rw [List.nil_append, List.cons.injEq] at hb
      exact .inl ⟨List.append_nil a', hb.2.symm⟩
    | cons d middle =>
      rw [List.cons_append, List.cons.injEq] at hb
      rw [hb.1] at ha
      exact absurd (List.mem_append_right _ List.mem_cons_self) ha

namespace StackFrame

/-! ## What a frame line is made of -/

theorem suffix_of_moduleName? {cs name rest : List Char} (h : moduleName? cs = some (name, rest)) : rest <:+ cs := by
  have hblank : cs.dropWhile Text.isBlank <:+ cs := List.dropWhile_suffix _
  simp only [moduleName?] at h
  split at h
  · cases h
  · split at h
    · cases h
      exact (List.dropWhile_suffix _).trans hblank
    · split at h
      · split at h
        · cases h
          exact (List.dropWhile_suffix _).trans hblank
        · cases h
      · cases h

theorem suffix_of_hexDigits? {cs digits rest : List Char} (h : hexDigits? cs = some (digits, rest)) : rest <:+ cs := by
  simp only [hexDigits?] at h
  split at h
  · cases h
  · cases h
    exact List.dropWhile_suffix _

theorem eq_of_behind?_offset {cs rest : List Char} (h : Text.behind? "+0x".toList cs = some rest) :
    ∃ x, (x = 'x' ∨ x = 'X') ∧ cs = '+' :: '0' :: x :: rest := by
  unfold Text.behind? at h
  split at h
  · next heq =>
    cases h
    match cs with
    | [] | [_] | [_, _] => simp [Text.eqIgnoringCase] at heq
    | a :: b :: c :: rest =>
      have hlower : a.toLower = '+' ∧ b.toLower = '0' ∧ c.toLower = 'x' := by simpa [Text.eqIgnoringCase] using heq
      rw [Text.eq_of_toLower_eq hlower.1 (by decide), Text.eq_of_toLower_eq hlower.2.1 (by decide)]
      exact ⟨c, Text.eq_or_of_toLower_eq hlower.2.2 (by decide), rfl⟩
  · cases h

/-- **A frame line has its method, its arguments and then its offset**, behind whatever stands before the method. -/
theorem parts_of_ofChars? {cs : List Char} {f : StackFrame} (h : ofChars? cs = some f) :
    ∃ before blanks x more, cs = before ++ (f.method.toList ++ '(' :: (f.arguments.toList ++
        ')' :: (blanks ++ '+' :: '0' :: x :: more))) ∧
      '(' ∉ f.method.toList ∧ ')' ∉ f.arguments.toList ∧ (x = 'x' ∨ x = 'X') := by
  simp only [ofChars?, Option.bind_eq_bind, Option.bind_eq_some_iff, Option.pure_def, Option.some.injEq] at h
  obtain ⟨cs₁, hat, ⟨name, cs₂⟩, hname, cs₃, hmark, ⟨token, cs₄⟩, htoken, cs₅, hbang, _, _, cs₆, hopen, cs₇, hclose, _, _,
    cs₈, hplus, _, _, _, _, _, _, rfl⟩ := h
  have hsuffix : cs₅ <:+ cs :=
    (Text.suffix_of_behind? hbang).trans <| (suffix_of_hexDigits? htoken).trans <| (Text.suffix_of_behind? hmark).trans <|
      (suffix_of_moduleName? hname).trans <| (Text.suffix_of_behind? hat).trans (List.dropWhile_suffix _)
  obtain ⟨before, rfl⟩ := hsuffix
  have hopen' : cs₅.dropWhile (· ≠ '(') = '(' :: cs₆ := Text.eq_cons_of_behind? (c := '(') (by decide) (by decide) hopen
  have hclose' : cs₆.dropWhile (· ≠ ')') = ')' :: cs₇ :=
    Text.eq_cons_of_behind? (c := ')') (by decide) (by decide) hclose
  obtain ⟨x, hx, hplus'⟩ := eq_of_behind?_offset hplus
  have hmethod : ∀ {c : Char} {cs : List Char}, c ∉ cs.takeWhile (· ≠ c) := by
    intro c cs hmem
    simpa using List.mem_takeWhile_imp hmem
  refine ⟨before, cs₇.takeWhile Text.isBlank, x, cs₈, ?_, ?_, ?_, hx⟩
  · simp only [String.toList_ofList]
    rw [← hplus', List.takeWhile_append_dropWhile, ← hclose', List.takeWhile_append_dropWhile, ← hopen',
      List.takeWhile_append_dropWhile]
  · rw [String.toList_ofList]
    exact hmethod
  · rw [String.toList_ofList]
    exact hmethod

/-! ## The text of a normalized frame -/

/-- The text of a source location behind a frame. -/
def placeText (location : Option SourceLocation) : List Char := (location.elim "" fun l => " in " ++ l.text).toList

/-- The carriage return of a line, if its line end has one. -/
def carriageReturn (line : Bytes) : List Char := if [0x0D, 0x0A].isSuffixOf line then ['\r'] else []

/-- A normalized frame without its line feed. -/
def normalizedText (f : StackFrame) (location : Option SourceLocation) (line : Bytes) : List Char :=
  "   at".toList ++ ' ' :: (f.method.toList ++ '(' :: (f.arguments.toList ++ ')' ::
    (placeText location ++ carriageReturn line)))

variable {f : StackFrame} {location : Option SourceLocation} {line : Bytes}

theorem normalized_eq (f : StackFrame) (location : Option SourceLocation) (line : Bytes) :
    f.normalized location (lineTerminator line) = Utf8.encode (normalizedText f location line ++ ['\n']) := by
  have hend : lineTerminator line = Utf8.encode (carriageReturn line ++ ['\n']) := by
    unfold lineTerminator carriageReturn
    split <;> decide
  simp only [normalized, hend, normalizedText, placeText, Utf8.ofString, ← Utf8.encode_append, String.toList_append]
  simp

theorem placeText_some (l : SourceLocation) : placeText (some l) =
    [] ++ ' ' :: ("in".toList ++ ' ' :: (l.fileText.toList ++ ':' :: ("line ".toList ++ Text.decimal l.line.toNat))) := by
  simp [placeText, SourceLocation.text]

/-- A sign that is neither a digit nor in the words of a source location is only in the name of its file. -/
theorem infix_placeText {pattern : List Char} {c : Char} (hc : c ∈ pattern) (hsign : c = '+' ∨ c = '=')
    (hspace : ' ' ∉ pattern) (hcolon : ':' ∉ pattern) (h : pattern <:+: placeText location ++ carriageReturn line) :
    ∃ l, location = some l ∧ pattern <:+: l.fileText.toList := by
  have hreturn : c ∉ carriageReturn line := by
    unfold carriageReturn
    split <;> rcases hsign with rfl | rfl <;> decide
  cases location with
  | none => exact absurd (h.subset hc) hreturn
  | some l =>
    have hdecimal : c ∉ Text.decimal l.line.toNat := by
      intro hmem
      have hdigit := Text.isDigit_of_mem_decimal hmem
      rcases hsign with rfl | rfl <;> exact absurd hdigit (by decide)
    rw [placeText_some] at h
    simp only [List.append_assoc, List.cons_append] at h
    refine ⟨l, rfl, ?_⟩
    rcases infix_of_append_cons hspace h with h | h
    · exact absurd (h.subset hc) (by simp)
    · rcases infix_of_append_cons hspace h with h | h
      · exact absurd (h.subset hc) (by rcases hsign with rfl | rfl <;> decide)
      · rcases infix_of_append_cons hcolon h with h | h
        · exact h
        · rcases List.mem_append.1 (h.subset hc) with hword | hrest
          · exact absurd hword (by rcases hsign with rfl | rfl <;> decide)
          · exact absurd hrest (by simp [hdecimal, hreturn])

/-- **A normalized frame is no frame**, unless an offset seems to stand in the name of its source file. -/
theorem parse?_normalized (hmethod : '(' ∉ f.method.toList) (harguments : ')' ∉ f.arguments.toList)
    (hfile : ∀ l, location = some l → ¬ "+0x".toList <:+: l.fileText.toList ∧ ¬ "+0X".toList <:+: l.fileText.toList) :
    parse? (f.normalized location (lineTerminator line)) = none := by
  rw [normalized_eq, parse?, Utf8.validStart_encode]
  by_contra hne
  obtain ⟨g, hg⟩ := Option.ne_none_iff_exists'.1 hne
  obtain ⟨before, blanks, x, more, heq, _, harguments', hx⟩ := parts_of_ofChars? hg
  have hopen : '(' ∉ "   at".toList ++ ' ' :: f.method.toList := by
    simp [hmethod]
  -- the parenthesis that opens is the one of the frame or a later one, and so is the one that closes
  have hrest : ∃ front, placeText location ++ carriageReturn line ++ ['\n'] =
      front ++ (blanks ++ '+' :: '0' :: x :: more) := by
    have heq' : ("   at".toList ++ ' ' :: f.method.toList) ++ '(' :: (f.arguments.toList ++ ')' ::
          (placeText location ++ carriageReturn line ++ ['\n'])) =
        (before ++ g.method.toList) ++ '(' :: (g.arguments.toList ++ ')' :: (blanks ++ '+' :: '0' :: x :: more)) := by
      simpa [normalizedText] using heq
    have hclose : ∃ front, f.arguments.toList ++ ')' :: (placeText location ++ carriageReturn line ++ ['\n']) =
        front ++ ')' :: (blanks ++ '+' :: '0' :: x :: more) := by
      rcases eq_or_of_append_cons_eq hopen heq' with ⟨_, h⟩ | ⟨middle, _, h⟩
      · exact ⟨_, h⟩
      · exact ⟨middle ++ '(' :: g.arguments.toList, by simpa using h⟩
    obtain ⟨front, hfront⟩ := hclose
    rcases eq_or_of_append_cons_eq harguments hfront with ⟨_, h⟩ | ⟨middle, _, h⟩
    · exact ⟨[], h⟩
    · exact ⟨middle ++ [')'], by simpa using h⟩
  obtain ⟨front, hfront⟩ := hrest
  have hsign : ['+', '0', x] <:+: placeText location ++ carriageReturn line := by
    have hall : ['+', '0', x] <:+: placeText location ++ carriageReturn line ++ '\n' :: [] :=
      ⟨front ++ blanks, more, by rw [hfront]; simp⟩
    rcases infix_of_append_cons (by rcases hx with rfl | rfl <;> decide) hall with h | h
    · exact h
    · exact absurd (h.subset List.mem_cons_self) (by simp)
  obtain ⟨l, hl, hinfile⟩ := infix_placeText List.mem_cons_self (.inl rfl) (by rcases hx with rfl | rfl <;> decide)
    (by rcases hx with rfl | rfl <;> decide) hsign
  rcases hx with rfl | rfl
  · exact (hfile l hl).1 hinfile
  · exact (hfile l hl).2 hinfile

/-! ## Lines stay lines -/

/-- A text that neither ends a line nor makes a separator of it. -/
def IsInline (cs : List Char) : Prop := '\n' ∉ cs ∧ ¬ "===".toList <:+: cs

/-- What is part of a text, with something behind it, neither ends the line that starts with it nor separates. -/
theorem isInline_of_part {a cs more : List Char} {c : Char} (hline : IsLine line) (hsep : isSeparator line = false)
    (hstart : Utf8.validStart line = a ++ c :: more) (h : cs <:+: a) : IsInline cs := by
  have hbytes := Utf8.encode_validStart_prefix line
  rw [hstart, Utf8.encode_append] at hbytes
  constructor
  · intro hmem
    obtain ⟨text, htext, rfl⟩ := hline
    -- the last byte of the line is not one of the part, because there are more
    have hpart : Utf8.encode a <+: text := by
      refine List.prefix_of_prefix_length_le ((List.prefix_append _ _).trans hbytes) (List.prefix_append _ _) ?_
      have hlength := hbytes.length_le
      have hpos : 0 < (String.utf8EncodeChar c).length := List.length_pos_iff.2 String.utf8EncodeChar_ne_nil
      rw [Utf8.encode_cons, List.length_append, List.length_append, List.length_append, List.length_singleton] at hlength
      omega
    exact htext (hpart.subset ((Utf8.mem_encode_ascii_iff (c := '\n') (by decide)).2 (h.subset hmem)))
  · intro hequals
    have hseparator : [0x3D, 0x3D, 0x3D] <:+: line :=
      (Utf8.infix_encode (hequals.trans h)).trans (((List.prefix_append _ _).trans hbytes).isInfix)
    rw [isSeparator_iff.2 hseparator] at hsep
    cases hsep

theorem isInline_of_parse? (hline : IsLine line) (hsep : isSeparator line = false) (h : parse? line = some f) :
    IsInline f.method.toList ∧ IsInline f.arguments.toList := by
  obtain ⟨before, blanks, x, more, hparts, _⟩ := parts_of_ofChars? h
  have hstart : Utf8.validStart line =
      (before ++ (f.method.toList ++ '(' :: (f.arguments.toList ++ ')' :: blanks))) ++ '+' :: '0' :: x :: more := by
    rw [hparts]
    simp
  refine ⟨isInline_of_part hline hsep hstart ?_, isInline_of_part hline hsep hstart ?_⟩
  · exact ⟨before, '(' :: (f.arguments.toList ++ ')' :: blanks), by simp⟩
  · exact ⟨before ++ (f.method.toList ++ ['(']), ')' :: blanks, by simp⟩

/-- **What a frame is written with stands on one line**, which is no separator, if its file does not keep it from that. -/
theorem isInline_normalizedText (hmethod : IsInline f.method.toList) (harguments : IsInline f.arguments.toList)
    (hfile : ∀ l, location = some l → IsInline l.fileText.toList) : IsInline (normalizedText f location line) := by
  constructor
  · have hplace : '\n' ∉ placeText location := by
      cases location with
      | none => simp [placeText]
      | some l =>
        have hdecimal : '\n' ∉ Text.decimal l.line.toNat := by
          intro hmem
          exact absurd (Text.isDigit_of_mem_decimal hmem) (by decide)
        simp [placeText_some, (hfile l rfl).1, hdecimal]
    have hreturn : '\n' ∉ carriageReturn line := by
      unfold carriageReturn
      split <;> decide
    simp [normalizedText, hmethod.1, harguments.1, hplace, hreturn]
  · intro h
    rcases infix_of_append_cons (by decide) h with h | h
    · exact absurd h (by decide)
    · rcases infix_of_append_cons (by decide) h with h | h
      · exact hmethod.2 h
      · rcases infix_of_append_cons (by decide) h with h | h
        · exact harguments.2 h
        · obtain ⟨l, hl, hequals⟩ := infix_placeText (c := '=') (by decide) (.inr rfl) (by decide) (by decide) h
          exact (hfile l hl).2 hequals

theorem IsInline.isLine {cs : List Char} (h : IsInline cs) : IsLine (Utf8.encode (cs ++ ['\n'])) := by
  refine ⟨Utf8.encode cs, ?_, ?_⟩
  · exact fun hmem => h.1 ((Utf8.mem_encode_ascii_iff (c := '\n') (by decide)).1 hmem)
  · rw [Utf8.encode_append]
    rfl

theorem IsInline.isSeparator {cs : List Char} (h : IsInline cs) :
    isSeparator (Utf8.encode (cs ++ ['\n'])) = false := by
  by_contra hne
  rw [Bool.not_eq_false, isSeparator_iff] at hne
  have hequals : ['=', '=', '='] <:+: cs ++ ['\n'] := Utf8.infix_of_encode (by decide) hne
  rcases infix_of_append_cons (b := []) (by decide) hequals with hequals | hequals
  · exact h.2 hequals
  · exact absurd hequals (by decide)

theorem isLine_normalized (h : IsInline (normalizedText f location line)) :
    IsLine (f.normalized location (lineTerminator line)) := by
  rw [normalized_eq]
  exact h.isLine

theorem isSeparator_normalized (h : IsInline (normalizedText f location line)) :
    isSeparator (f.normalized location (lineTerminator line)) = false := by
  rw [normalized_eq]
  exact h.isSeparator

end StackFrame

end Symbolicate
