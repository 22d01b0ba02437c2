import Mathlib.Data.List.DropRight
import Mathlib.Tactic.Common
import Symbolicate.Proofs.Report.FrameGrammar
import Symbolicate.Proofs.Report.ModuleLines
import Symbolicate.Proofs.Report.Normalized
import Symbolicate.Proofs.Report.Registration
import Symbolicate.Proofs.Report.Splitting
import Symbolicate.Proofs.Text.Guid
import Symbolicate.Proofs.Text.Lowercase

/-!
# Names in frames and names in footers

A frame may have a module name of several words, but a module line is read only if its name is a single word. So no
report has a module with a blank in its name (`oneWord_footerModules`), and since lower case keeps blanks, a name with a
blank leads to no module (`ModuleTable.get?_of_hasBlank`). Every other name leads from a frame to the module that a
module line gives it (`OneFrameReport.exists_module`), and every name that a frame can have stands on some frame line
(`StackFrame.exists_frameLine`).
-/

namespace Symbolicate

/-! ## Names of modules -/

/-- The name that is read from a module line is a single word. -/
theorem ModuleInfo.hasBlank_of_parse? {line : String} {m : ModuleInfo} (h : parse? line = some m) :
    Text.hasBlank m.name = false := by
  obtain ⟨l, hl, rfl⟩ := Option.map_eq_some_iff.1 h
  obtain ⟨_, -, hmatch⟩ := ModuleLine.exists_match?_of_search? hl
  simp only [ModuleLine.match?, Option.bind_eq_bind, Option.bind_eq_some_iff, Option.pure_def, Option.some.injEq]
    at hmatch
  obtain ⟨_, -, _, -, _, -, _, -, _, -, rfl⟩ := hmatch
  simp only [Text.hasBlank, ofLine, String.toList_ofList, List.any_eq_false]
  intro c hc
  simpa using List.mem_takeWhile_imp hc

namespace ModuleTable

variable {t : ModuleTable} {m other : ModuleInfo} {ms : List ModuleInfo} {name : String}

/-- Only single words are names of modules. -/
def OneWord (t : ModuleTable) : Prop := ∀ m ∈ t.modules, Text.hasBlank m.name = false

/-- The number behind a name has no blank. -/
theorem hasBlank_candidate (base : String) (step : Nat) :
    Text.hasBlank (candidate base step) = Text.hasBlank base := by
  rw [candidate]
  split
  · rfl
  · have hnumber : (Text.decimal (step + 1)).any Text.isBlank = false := by
      rw [List.any_eq_false]
      intro c hc
      simp [Text.isBlank_of_isDigit (Text.isDigit_of_mem_decimal hc)]
    have hsign : "#".toList.any Text.isBlank = false := rfl
    simp only [Text.hasBlank, String.toList_append, String.toList_ofList, List.any_append, hnumber, hsign,
      Bool.or_false]

theorem mem_put (h : other ∈ (t.put m).modules) : other ∈ t.modules ∨ other = m := by
  rw [put] at h
  split at h
  · obtain ⟨old, hold, heq⟩ := List.mem_map.1 h
    split at heq
    · exact .inr heq.symm
    · exact .inl (heq ▸ hold)
  · rcases List.mem_append.1 h with hold | hnew
    · exact .inl hold
    · exact .inr (List.mem_singleton.1 hnew)

/-- A module is registered under its own name or under a numbered one. -/
theorem OneWord.insert (h : t.OneWord) (hm : Text.hasBlank m.name = false) : (t.insert m).1.OneWord := by
  intro other hother
  rcases mem_put hother with hold | rfl
  · exact h other hold
  · obtain ⟨i, hi, -⟩ := nameFor_eq_first t m
    dsimp only
    rw [hi, hasBlank_candidate, hm]

theorem OneWord.extend (h : t.OneWord) (hms : ∀ m ∈ ms, Text.hasBlank m.name = false) : (t.extend ms).OneWord := by
  induction ms generalizing t with
  | nil => exact h
  | cons m ms ih =>
    rw [List.forall_mem_cons] at hms
    exact ih (h.insert hms.1) hms.2

/-- A name of several words is none of the names in such a table, in whatever case. -/
theorem get?_of_hasBlank (h : t.OneWord) (hname : Text.hasBlank name = true) : t.get? name = none := by
  rw [get?, List.find?_eq_none]
  intro m hm hkey
  rw [beq_iff_eq] at hkey
  have hsame := congrArg Text.hasBlank hkey
  rw [key, key, Text.hasBlank_lowercase, Text.hasBlank_lowercase, h m hm, hname] at hsame
  cases hsame

/-- A module alone keeps its name. -/
theorem get?_ofList_singleton (m : ModuleInfo) : (ofList [m]).get? m.name = some m := by
  have hput : ofList [m] = ⟨[m]⟩ := rfl
  rw [hput, get?]
  exact List.find?_cons_of_pos (beq_self_eq_true _)

end ModuleTable

/-- **No report has a module with a blank in its name.** -/
theorem oneWord_footerModules (input : Bytes) : (footerModules input).OneWord := by
  have hempty : ModuleTable.empty.OneWord := List.forall_mem_nil _
  apply hempty.extend
  intro m hm
  obtain ⟨line, -, hline⟩ := List.mem_filterMap.1 hm
  exact ModuleInfo.hasBlank_of_parse? hline

/-! ## Module lines -/

namespace ModuleInfo

variable {name identity : String}

/-- The attributes for the identity of a debug file. -/
def debugPairs (id : DebugId) : List (String × String) :=
  [("G", String.ofList id.guid.hyphenated), ("A", String.ofList (Text.decimal id.age.toNat))]

/-- A module line with the identity of a debug file. -/
def footerLine (name identity : String) (id : DebugId) : String := writtenLine name identity (debugPairs id)

/-- An identity that can stand in a module line. -/
structure IsIdentity (identity : String) : Prop where
  ne_nil : identity.toList ≠ []
  semicolon : ';' ∉ identity.toList
  lineFeed : '\n' ∉ identity.toList
  trim : Text.IsTrim identity.toList

/-- A value without blanks and semicolons. -/
structure IsPlain (value : List Char) : Prop where
  ne_nil : value ≠ []
  char : ∀ c ∈ value, Text.isBlank c = false ∧ c ≠ ';'

theorem isPlain_hyphenated (g : Guid) : IsPlain g.hyphenated where
  ne_nil := by
    intro hnil
    have hlength := Guid.length_hyphenated g
    rw [hnil] at hlength
    cases hlength
  char c hc := by
    have hall : ∀ d < 16, Text.isBlank (Nat.digitChar d) = false ∧ Nat.digitChar d ≠ ';' := by decide
    rcases Guid.mem_hyphenated hc with rfl | ⟨d, hd, rfl⟩
    · decide
    · exact hall d hd

theorem isPlain_decimal (n : Nat) : IsPlain (Text.decimal n) where
  ne_nil := Nat.toDigits_ne_nil
  char c hc := by
    have hdigit := Text.isDigit_of_mem_decimal hc
    refine ⟨Text.isBlank_of_isDigit hdigit, ?_⟩
    rintro rfl
    cases hdigit

namespace IsPlain

variable {value : List Char} (h : IsPlain value)

include h

theorem trimmed : Text.trimmed value = value := Text.trimmed_of_forall fun c hc => (h.char c hc).1

theorem lineFeed : '\n' ∉ value := fun hmem => absurd (h.char '\n' hmem).1 (by decide)

theorem isAttribute {key : String} (hne : key.toList ≠ []) (hkey : key.toList.all Char.isAlpha = true) :
    IsAttribute (key, String.ofList value) where
  key_ne_nil := hne
  key := List.all_eq_true.1 hkey
  value_ne_nil := by
    rw [String.toList_ofList]
    exact h.ne_nil
  value := by
    rw [String.toList_ofList]
    intro hmem
    exact (h.char ';' hmem).2 rfl

end IsPlain

theorem age?_decimal (age : UInt32) : age? (Text.decimal age.toNat) = some age := by
  have hsign : (Text.decimal age.toNat).head? ≠ some '+' := by
    intro hplus
    have hdigit := Text.isDigit_of_mem_decimal (List.mem_of_mem_head? hplus)
    cases hdigit
  have hlt := age.toNat_lt
  simp only [age?, if_neg hsign, Text.ofDecimal?_decimal]
  rw [if_pos hlt, UInt32.ofNat_toNat]

theorem isAttribute_of_mem_debugPairs (id : DebugId) : ∀ a ∈ debugPairs id, IsAttribute a := by
  refine List.forall_mem_cons.2 ⟨?_, List.forall_mem_singleton.2 ?_⟩
  · exact (isPlain_hyphenated id.guid).isAttribute (by decide) (by decide)
  · exact (isPlain_decimal id.age.toNat).isAttribute (by decide) (by decide)

/-- The identity that is written is read. -/
theorem debugId?_debugPairs (id : DebugId) : debugId? (attributesOf (debugPairs id)) = some id := by
  have hguid := (isPlain_hyphenated id.guid).trimmed
  have hage := (isPlain_decimal id.age.toNat).trimmed
  have hkeys : Text.asciiUpper "G" = "G" ∧ Text.asciiUpper "A" = "A" := by decide
  have hg : valueOf? (attributesOf (debugPairs id)) "G" = some (String.ofList id.guid.hyphenated) := by
    rw [valueOf?_attributesOf]
    simp [debugPairs, hkeys]
  have ha : valueOf? (attributesOf (debugPairs id)) "A" = some (String.ofList (Text.decimal id.age.toNat)) := by
    rw [valueOf?_attributesOf]
    simp [debugPairs, hkeys]
  simp only [debugId?, hg, ha, String.toList_ofList, hguid, hage, Guid.parse?_hyphenated, age?_decimal]

/-- **A module line is read back with the identity of the debug file**, if the name is a single word. -/
theorem parse?_footerLine (hname : name.toList ≠ []) (hword : Text.hasBlank name = false) (h : IsIdentity identity)
    (id : DebugId) : ∃ m, parse? (footerLine name identity id) = some m ∧ m.name = name ∧ m.identity = identity ∧
      m.debugId = some id := by
  have hwritable : IsWritable name identity (debugPairs id) := {
    name_ne_nil := hname
    notBlank := by simpa [Text.hasBlank, List.any_eq_false] using hword
    identity_ne_nil := h.ne_nil
    semicolon := h.semicolon
    trim := h.trim
    pairs_ne_nil := List.cons_ne_nil _ _
    isAttribute := isAttribute_of_mem_debugPairs id }
  obtain ⟨m, hread, hm, hidentity, hattributes⟩ := parse?_writtenLine hwritable
  refine ⟨m, hread, hm, hidentity, ?_⟩
  have hdebugId : m.debugId = debugId? m.attributes := by
    obtain ⟨l, -, rfl⟩ := Option.map_eq_some_iff.1 hread
    rfl
  rw [hdebugId, hattributes, debugId?_debugPairs]

theorem toList_footerLine (name identity : String) (id : DebugId) : (footerLine name identity id).toList =
    "MODULE: ".toList ++ (name.toList ++ (" => ".toList ++ (identity.toList ++ ("; G:".toList ++
      (id.guid.hyphenated ++ ("; A:".toList ++ Text.decimal id.age.toNat)))))) := by
  simp [footerLine, debugPairs, writtenLine]

/-- A module line is one line. -/
theorem lineFeed_notMem_footerLine (hword : Text.hasBlank name = false) (h : IsIdentity identity) (id : DebugId) :
    '\n' ∉ (footerLine name identity id).toList := by
  have hname : '\n' ∉ name.toList := by
    intro hmem
    simp only [Text.hasBlank, List.any_eq_false] at hword
    exact hword '\n' hmem rfl
  have hguid := (isPlain_hyphenated id.guid).lineFeed
  have hage := (isPlain_decimal id.age.toNat).lineFeed
  rw [toList_footerLine]
  simp [hname, h.lineFeed, hguid, hage]

/-- It ends with the digits of the age. -/
theorem isBlank_of_mem_getLast?_footerLine (name identity : String) (id : DebugId) :
    ∀ c ∈ (footerLine name identity id).toList.getLast?, Text.isBlank c = false := by
  intro c hc
  have hage := isPlain_decimal id.age.toNat
  simp only [toList_footerLine, ← List.append_assoc] at hc
  rw [List.getLast?_append_of_ne_nil _ hage.ne_nil] at hc
  exact (hage.char c (List.mem_of_getLast? hc)).1

end ModuleInfo

/-! ## Lines of footers -/

/-- What the last line of a text may end with. -/
def lineEnds : List Bytes := [[], [0x0A], [0x0D, 0x0A]]

theorem lineChunks_of_lineEnd {text ending : Bytes} (hne : text ≠ []) (hfeed : 0x0A ∉ text)
    (hending : ending ∈ lineEnds) : lineChunks (text ++ ending) = [text ++ ending] := by
  simp only [lineEnds, List.mem_cons, List.not_mem_nil, or_false] at hending
  rcases hending with rfl | rfl | rfl
  · rw [List.append_nil]
    apply lineChunks_of_notMem hne
    intro hmem
    exact hfeed (List.mem_of_mem_dropLast hmem)
  · rw [lineChunks_line hfeed]
    rfl
  · have hreturn : 0x0A ∉ text ++ [0x0D] := by simp [hfeed]
    have hsplit : text ++ [0x0D, 0x0A] = (text ++ [0x0D]) ++ 0x0A :: [] := by simp
    rw [hsplit, lineChunks_line hreturn]
    rfl

namespace ExceptionReport

/-- The end of a line is not part of what is read. -/
theorem footerModule?_append {s : String} (hlast : ∀ c ∈ s.toList.getLast?, Text.isBlank c = false) {ending : Bytes}
    (hending : ending ∈ lineEnds) : footerModule? (Utf8.ofString s ++ ending) = ModuleInfo.parse? s := by
  obtain ⟨e, he, rfl⟩ : ∃ e : List Char, (∀ c ∈ e, (c == '\r' || c == '\n') = true) ∧ ending = Utf8.encode e := by
    simp only [lineEnds, List.mem_cons, List.not_mem_nil, or_false] at hending
    rcases hending with rfl | rfl | rfl
    · exact ⟨[], List.forall_mem_nil _, rfl⟩
    · exact ⟨['\n'], List.all_eq_true.1 (by decide), rfl⟩
    · exact ⟨['\r', '\n'], List.all_eq_true.1 (by decide), rfl⟩
  have hdecoded : Utf8.decodeLossy (Utf8.ofString s ++ Utf8.encode e) = s.toList ++ e := by
    rw [Utf8.ofString, ← Utf8.encode_append, Utf8.decodeLossy, Utf8.scan_encode, List.map_map]
    exact List.map_id _
  have hends : ∀ c ∈ s.toList.reverse.head?, (c == '\r' || c == '\n') = false := by
    intro c hc
    rw [List.head?_reverse] at hc
    have hblank := hlast c hc
    by_contra hend
    simp only [Bool.not_eq_false, Bool.or_eq_true, beq_iff_eq] at hend
    rcases hend with rfl | rfl <;> cases hblank
  rw [footerModule?_eq]
  dsimp only
  rw [hdecoded, List.rdropWhile, List.reverse_append,
    Text.dropWhile_run (fun c hc => he c (List.mem_reverse.1 hc)) hends, List.reverse_reverse, String.ofList_toList]

end ExceptionReport

/-! ## Frame lines -/

namespace StackFrame

theorem moduleName_ne_nil {line : Bytes} {f : StackFrame} (h : parse? line = some f) : f.moduleName.toList ≠ [] := by
  obtain ⟨p, hstarts, -, rfl⟩ := parse?_eq_some_iff.1 h
  rw [FrameText.frame, String.toList_ofList]
  exact hstarts.1.name.ne_nil

/-- A frame of a module with nothing special about it. -/
def plain (name : String) : StackFrame := ⟨name, 0, 0, "M", ""⟩

theorem toList_written_plain (name : String) :
    ((plain name).written 1).toList = "   at ".toList ++ (name.toList ++ '!' :: "0x0!M() +0x0".toList) := by
  have hdigits : Text.hexLower 0 = ['0'] ∧ Text.zeroPadded 1 ['0'] = ['0'] := by decide
  simp [plain, written, hdigits]

theorem isInline_written_plain {name : String} (hname : IsModuleName name.toList)
    (hequals : ¬ "===".toList <:+: name.toList) : IsInline ((plain name).written 1).toList := by
  rw [toList_written_plain]
  constructor
  · have hfeed : '\n' ∉ name.toList := fun hmem => absurd (hname.char '\n' hmem).1 (by decide)
    simp [hfeed]
  · intro h
    have hbehind : "===".toList <:+: name.toList ++ '!' :: "0x0!M() +0x0".toList :=
      Utf8.infix_of_notMem (x := '=') (by decide) h
    rcases infix_of_append_cons (by decide) hbehind with h | h
    · exact hequals h
    · exact absurd (h.subset List.mem_cons_self) (by decide)

/-- **Every name that a frame can have stands on a frame line**, unless it makes a separator of the line. -/
theorem exists_frameLine {name : String} (hname : IsModuleName name.toList) (htrim : Text.IsTrim name.toList)
    (hequals : ¬ "===".toList <:+: name.toList) :
    ∃ line f, IsLine line ∧ isSeparator line = false ∧ parse? line = some f ∧ f.moduleName = name := by
  have hwritable : (plain name).IsWritable := {
    name := hname
    notBlank := htrim.first
    method_ne_nil := show "M".toList ≠ [] by decide
    method := show '(' ∉ "M".toList by decide
    arguments := show ')' ∉ "".toList by decide }
  have hinline := isInline_written_plain hname hequals
  refine ⟨_, plain name, hinline.isLine, hinline.isSeparator, ?_, rfl⟩
  rw [Utf8.encode_append]
  apply parse?_written hwritable 1
  rintro b ⟨⟩
  decide

end StackFrame

/-! ## Reports with one frame -/

/-- A report with one frame: the line of the frame, a separator line, and a module line for the module of the frame. -/
structure OneFrameReport where
  line : Bytes
  frame : StackFrame
  separator : Bytes
  identity : String
  debugId : DebugId
  ending : Bytes
  isLine : IsLine line
  isBody : isSeparator line = false
  isFrame : StackFrame.parse? line = some frame
  isSeparatorLine : IsLine separator
  divides : isSeparator separator = true
  isIdentity : ModuleInfo.IsIdentity identity
  isEnding : ending ∈ lineEnds

namespace OneFrameReport

variable (r : OneFrameReport)

def footer : Bytes := Utf8.ofString (ModuleInfo.footerLine r.frame.moduleName r.identity r.debugId) ++ r.ending

def bytes : Bytes := r.line ++ (r.separator ++ r.footer)

/-- The module line is not cut. -/
theorem lineChunks_footer (hword : Text.hasBlank r.frame.moduleName = false) : lineChunks r.footer = [r.footer] := by
  have hfeed : 0x0A ∉ Utf8.ofString (ModuleInfo.footerLine r.frame.moduleName r.identity r.debugId) := by
    intro hmem
    exact ModuleInfo.lineFeed_notMem_footerLine hword r.isIdentity r.debugId
      ((Utf8.mem_encode_ascii_iff (c := '\n') (by decide)).1 hmem)
  have hne : Utf8.ofString (ModuleInfo.footerLine r.frame.moduleName r.identity r.debugId) ≠ [] := by
    rw [Utf8.ofString, ModuleInfo.toList_footerLine, Utf8.encode_append]
    exact List.append_ne_nil_of_left_ne_nil (by decide) _
  exact lineChunks_of_lineEnd hne hfeed r.isEnding

theorem footerModules_bytes (hword : Text.hasBlank r.frame.moduleName = false) :
    footerModules r.bytes = .ofList (ExceptionReport.footerModule? r.footer).toList := by
  have hlines : ∀ line ∈ [r.line, r.separator], IsLine line := by
    simp [r.isLine, r.isSeparatorLine]
  have hchunks : lineChunks r.bytes = [r.line, r.separator] ++ [r.footer] := by
    rw [← lineChunks_footer r hword, ← lineChunks_append hlines]
    simp [bytes]
  have hfooter : footerLines r.bytes = [r.separator, r.footer] := by
    rw [footerLines, hchunks]
    simp [r.isBody, r.divides]
  rw [footerModules, hfooter]
  cases hmodule : ExceptionReport.footerModule? r.footer <;> simp [hmodule]

/-- **A frame finds the module that the module line gives it**, if the name is a single word. -/
theorem exists_module (hword : Text.hasBlank r.frame.moduleName = false) :
    ∃ m, (ExceptionReport.parse r.bytes).modules.get? r.frame.moduleName = some m ∧ m.name = r.frame.moduleName ∧
      m.identity = r.identity ∧ m.debugId = some r.debugId := by
  obtain ⟨m, hread, hname, hidentity, hid⟩ :=
    ModuleInfo.parse?_footerLine (StackFrame.moduleName_ne_nil r.isFrame) hword r.isIdentity r.debugId
  have hmodule : ExceptionReport.footerModule? r.footer = some m := by
    rw [← hread]
    exact ExceptionReport.footerModule?_append (ModuleInfo.isBlank_of_mem_getLast?_footerLine _ _ _) r.isEnding
  refine ⟨m, ?_, hname, hidentity, hid⟩
  rw [ExceptionReport.parse_eq, footerModules_bytes r hword, hmodule, ← hname]
  exact ModuleTable.get?_ofList_singleton m

/-- Every name that a frame can have and every identity make such a report. -/
theorem exists_report {name identity : String} (id : DebugId) (hname : IsModuleName name.toList)
    (htrim : Text.IsTrim name.toList) (hequals : ¬ "===".toList <:+: name.toList)
    (hidentity : ModuleInfo.IsIdentity identity) :
    ∃ r : OneFrameReport, r.frame.moduleName = name ∧ r.identity = identity ∧ r.debugId = id := by
  obtain ⟨line, f, hline, hbody, hframe, rfl⟩ := StackFrame.exists_frameLine hname htrim hequals
  exact ⟨{
    line, frame := f, separator := [0x3D, 0x3D, 0x3D, 0x0A], identity, debugId := id, ending := [0x0A]
    isLine := hline
    isBody := hbody
    isFrame := hframe
    isSeparatorLine := ⟨[0x3D, 0x3D, 0x3D], by decide, rfl⟩
    divides := rfl
    isIdentity := hidentity
    isEnding := by decide }, rfl, rfl, rfl⟩

/-- A name with a blank finds no module, whatever the report says. -/
theorem get?_parse_of_hasBlank {name : String} (hname : Text.hasBlank name = true) (input : Bytes) :
    (ExceptionReport.parse input).modules.get? name = none := by
  rw [ExceptionReport.parse_eq]
  exact ModuleTable.get?_of_hasBlank (oneWord_footerModules input) hname

/-- **Frames and footers agree on names that are single words.** Of every name that a frame can have there are reports
with a frame and a module line. The frame finds the module of that line iff the name has no blank, and a name with a
blank finds a module in no report at all. -/
theorem finds_module_iff (name identity : String) (id : DebugId) (hname : IsModuleName name.toList)
    (htrim : Text.IsTrim name.toList) (hequals : ¬ "===".toList <:+: name.toList)
    (hidentity : ModuleInfo.IsIdentity identity) :
    (∃ r : OneFrameReport, r.frame.moduleName = name ∧ r.identity = identity ∧ r.debugId = id) ∧
    (∀ r : OneFrameReport, r.frame.moduleName = name → r.identity = identity → r.debugId = id →
      ((∃ m, (ExceptionReport.parse r.bytes).modules.get? name = some m ∧ m.name = name ∧ m.identity = identity ∧
        m.debugId = some id) ↔ Text.hasBlank name = false)) ∧
    (Text.hasBlank name = true → ∀ input, (ExceptionReport.parse input).modules.get? name = none) := by
  refine ⟨exists_report id hname htrim hequals hidentity, ?_, get?_parse_of_hasBlank⟩
  rintro r rfl rfl rfl
  constructor
  · rintro ⟨m, hm, -⟩
    by_contra hblank
    rw [Bool.not_eq_false] at hblank
    rw [get?_parse_of_hasBlank hblank] at hm
    cases hm
  · exact r.exists_module

theorem isIdentity_letter : ModuleInfo.IsIdentity "I" where
  ne_nil := by decide
  semicolon := by decide
  lineFeed := by decide
  trim := Text.isTrim_of_all (by decide)

theorem isTrim_words : Text.IsTrim "A B".toList where
  first := by
    rintro c ⟨⟩
    decide
  last := by
    rintro c ⟨⟩
    decide

theorem isModuleName_of_all {name : List Char} (hne : name ≠ [])
    (hall : name.all StackFrame.isModuleChar = true) : IsModuleName name :=
  ⟨hne, fun c hc => StackFrame.isModuleChar_iff.1 (List.all_eq_true.1 hall c hc)⟩

/-- The frame of a word finds its module, and that of two words does not. -/
theorem finds_module_iff_twoWords :
    (∃ r : OneFrameReport, r.frame.moduleName = "Größe" ∧ Text.hasBlank "Größe" = false ∧
      ∃ m, (ExceptionReport.parse r.bytes).modules.get? "Größe" = some m ∧ m.identity = "I" ∧
        m.debugId = some ⟨Guid.nil, 10⟩) ∧
    ∃ r : OneFrameReport, r.frame.moduleName = "A B" ∧ Text.hasBlank "A B" = true ∧
      (ExceptionReport.parse r.bytes).modules.get? "A B" = none := by
  constructor
  · obtain ⟨⟨r, hr, hidentity, hid⟩, hfinds, -⟩ := finds_module_iff "Größe" "I" ⟨Guid.nil, 10⟩
      (isModuleName_of_all (by decide) (by decide)) (Text.isTrim_of_all (by decide)) (by decide) isIdentity_letter
    have hblank : Text.hasBlank "Größe" = false := by decide
    obtain ⟨m, hm, _, hmodule, hdebugId⟩ := (hfinds r hr hidentity hid).2 hblank
    exact ⟨r, hr, hblank, m, hm, hmodule, hdebugId⟩
  · obtain ⟨⟨r, hr, -, -⟩, -, hnone⟩ := finds_module_iff "A B" "I" ⟨Guid.nil, 1⟩
      (isModuleName_of_all (by decide) (by decide)) isTrim_words (by decide) isIdentity_letter
    have hblank : Text.hasBlank "A B" = true := by decide
    exact ⟨r, hr, hblank, hnone hblank r.bytes⟩

/-- The module of the frame has a name of two words, which stands in the footer as `MODULE: A B => I`. -/
def twoWords : OneFrameReport where
  line := Utf8.ofString "   at A B!0x1!M() +0x0\n"
  frame := ⟨"A B", 1, 0, "M", ""⟩
  separator := Utf8.ofString "===\n"
  identity := "I"
  debugId := ⟨Guid.nil, 1⟩
  ending := [0x0A]
  isLine := ⟨Utf8.ofString "   at A B!0x1!M() +0x0", by decide, by decide⟩
  isBody := by decide
  isFrame := by decide
  isSeparatorLine := ⟨Utf8.ofString "===", by decide, by decide⟩
  divides := by decide
  isIdentity := isIdentity_letter
  isEnding := by decide

/-- Not every name that a frame can have finds its module. -/
theorem not_finds_module : ¬ ∀ r : OneFrameReport, Text.IsTrim r.frame.moduleName.toList →
    ∃ m, (ExceptionReport.parse r.bytes).modules.get? r.frame.moduleName = some m ∧ m.name = r.frame.moduleName ∧
      m.identity = r.identity ∧ m.debugId = some r.debugId := by
  intro hall
  obtain ⟨m, hm, -⟩ := hall twoWords isTrim_words
  have hblank : Text.hasBlank twoWords.frame.moduleName = true := by decide
  rw [get?_parse_of_hasBlank hblank] at hm
  cases hm

end OneFrameReport

end Symbolicate
