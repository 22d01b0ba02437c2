import Mathlib.Tactic.Common
import Symbolicate.CommandLine.Run
import Symbolicate.Proofs.Text.Ascii
import Symbolicate.Proofs.Text.Blank

/-!
# Texts of symbol paths

What can be read as a place is what `Readable` says: its parts have no blanks at their ends and no asterisks, and a
directory does not start with one of the keywords. Reading gives nothing else (`readable_of_parse?`), and such a place
is read back from its text (`parse?_text`). So a path that has been put together from what was read is read back from
its text (`SymbolPath.parse_text`), and the places of several texts are those of the texts joined by semicolons
(`SymbolPath.parse_intercalate`). The main statement is `SymbolPath.text_faithful`.
-/

namespace Symbolicate

namespace SymbolPathElement

variable {s : String} {e : SymbolPathElement} {cs : List Char} {sep : Char}

/-! ## Parts -/

/-- A part of a text between asterisks, without the blanks around it. -/
structure IsPart (cs : List Char) : Prop where
  ne_nil : cs ≠ []
  trim : Text.IsTrim cs
  asterisk : '*' ∉ cs

/-- What stands in front of the first asterisk. -/
def keyword (cs : List Char) : List Char := (Text.splitOn '*' cs).headD []

/-- The words that places other than directories start with. -/
def keywords : List String := ["srv", "symsrv", "cache"]

/-- A place that can be read from a text. -/
inductive Readable : SymbolPathElement → Prop
  | directory {dir : FilePath} : dir.text.toList ≠ [] → Text.IsTrim dir.text.toList →
      (∀ word ∈ keywords, Text.eqIgnoringCase (keyword dir.text.toList) word.toList = false) → Readable (.directory dir)
  | cache {dir : FilePath} : IsPart dir.text.toList → Readable (.cache dir)
  | store {own : Option FilePath} {target : String} : (∀ dir ∈ own, IsPart dir.text.toList) → IsPart target.toList →
      Readable (.store own target)

theorem isPart_trimmed {piece : List Char} (hpiece : piece ∈ Text.splitOn '*' cs) (hne : Text.trimmed piece ≠ []) :
    IsPart (Text.trimmed piece) where
  ne_nil := hne
  trim := Text.isTrim_trimmed piece
  asterisk hmem := (Text.mem_of_mem_splitOn hpiece (Text.mem_of_mem_trimmed hmem)).2 rfl

/-! ## Reading -/

/-- A store that is read has one of its parts as target, and one as cache if it has a cache of its own. -/
theorem exists_of_storeOfParts? {parts : List (List Char)} (h : storeOfParts? parts = some e) :
    ∃ own target, e = .store own target ∧
      (∃ piece ∈ parts, target.toList = Text.trimmed piece ∧ Text.trimmed piece ≠ []) ∧
      ∀ dir ∈ own, ∃ piece ∈ parts, dir.text.toList = Text.trimmed piece ∧ Text.trimmed piece ≠ [] := by
  have hpiece {cs : List Char} (hcs : cs ∈ parts.map Text.trimmed) (hne : cs ≠ []) :
      ∃ piece ∈ parts, (String.ofList cs).toList = Text.trimmed piece ∧ Text.trimmed piece ≠ [] := by
    obtain ⟨piece, hpiece, rfl⟩ := List.mem_map.1 hcs
    exact ⟨piece, hpiece, String.toList_ofList, hne⟩
  unfold storeOfParts? at h
  split at h
  · cases h
  · next target caches hparts =>
    have hmem {cs : List Char} (hcs : cs ∈ target :: caches) : cs ∈ parts.map Text.trimmed :=
      List.mem_reverse.1 (hparts ▸ hcs)
    split at h
    · cases h
    · next hne =>
      cases h
      refine ⟨_, _, rfl, hpiece (hmem List.mem_cons_self) hne, ?_⟩
      rintro dir hdir
      obtain ⟨own, hown, rfl⟩ := Option.map_eq_some_iff.1 hdir
      refine hpiece (hmem (List.mem_cons_of_mem target ?_)) (by simpa using List.find?_some hown)
      exact List.mem_reverse.1 (List.mem_of_find?_eq_some hown)

/-- What is read: a store or a cache from the parts behind the first asterisk, or everything as a directory. -/
theorem cases_of_parse? (h : parse? s = some e) :
    (∃ parts ⊆ Text.splitOn '*' (Text.trimmed s.toList), storeOfParts? parts = some e) ∨
    (∃ piece ∈ Text.splitOn '*' (Text.trimmed s.toList), Text.trimmed piece ≠ [] ∧
      e = .cache ⟨String.ofList (Text.trimmed piece)⟩) ∨
    (Text.trimmed s.toList ≠ [] ∧
      (∀ word ∈ keywords, Text.eqIgnoringCase (keyword (Text.trimmed s.toList)) word.toList = false) ∧
      e = .directory ⟨String.ofList (Text.trimmed s.toList)⟩) := by
  unfold parse? at h
  generalize Text.trimmed s.toList = cs at h ⊢
  simp only at h
  split at h
  · cases h
  · next hne =>
    split at h
    · cases h
    · next first parts hparts =>
      rw [keyword, hparts]
      split at h
      · exact .inl ⟨parts, List.subset_cons_self _ _, h⟩
      · next hsrv =>
        split at h
        · exact .inl ⟨parts.drop 1, List.subset_cons_of_subset _ (List.drop_subset _ _), h⟩
        · next hsymsrv =>
          split at h
          · cases parts with
            | nil => cases h
            | cons dir parts =>
              simp only at h
              split at h
              · cases h
              · next hdir =>
                cases h
                exact .inr (.inl ⟨dir, by simp, hdir, rfl⟩)
          · next hcache =>
            cases h
            refine .inr (.inr ⟨hne, ?_, rfl⟩)
            exact List.forall_mem_cons.2 ⟨Bool.eq_false_iff.2 hsrv, List.forall_mem_cons.2
              ⟨Bool.eq_false_iff.2 hsymsrv, List.forall_mem_singleton.2 (Bool.eq_false_iff.2 hcache)⟩⟩

/-- **What is read from a text can be read.** -/
theorem readable_of_parse? (h : parse? s = some e) : Readable e := by
  rcases cases_of_parse? h with ⟨parts, hparts, hstore⟩ | ⟨piece, hpiece, hne, rfl⟩ | ⟨hne, hwords, rfl⟩
  · obtain ⟨own, target, rfl, ⟨piece, hpiece, htarget, hne⟩, hown⟩ := exists_of_storeOfParts? hstore
    refine .store (fun dir hdir => ?_) (htarget ▸ isPart_trimmed (hparts hpiece) hne)
    obtain ⟨piece, hpiece, hdir, hne⟩ := hown dir hdir
    exact hdir ▸ isPart_trimmed (hparts hpiece) hne
  · exact .cache (by simpa using isPart_trimmed hpiece hne)
  · exact .directory (by simpa using hne) (by simpa using Text.isTrim_trimmed s.toList) (by simpa using hwords)

/-- A semicolon that is not in a text is not in the text of the place that is read from it. -/
theorem notMem_text (h : parse? s = some e) (hs : ';' ∉ s.toList) : ';' ∉ e.text.toList := by
  have hpart {piece : List Char} (hpiece : piece ∈ Text.splitOn '*' (Text.trimmed s.toList)) :
      ';' ∉ Text.trimmed piece := fun hmem =>
    hs (Text.mem_of_mem_trimmed (Text.mem_of_mem_splitOn hpiece (Text.mem_of_mem_trimmed hmem)).1)
  rcases cases_of_parse? h with ⟨parts, hparts, hstore⟩ | ⟨piece, hpiece, _, rfl⟩ | ⟨_, _, rfl⟩
  · obtain ⟨own, target, rfl, ⟨piece, hpiece, htarget, _⟩, hown⟩ := exists_of_storeOfParts? hstore
    have htarget' : ';' ∉ target.toList := htarget ▸ hpart (hparts hpiece)
    cases own with
    | none => simpa [text] using htarget'
    | some dir =>
      obtain ⟨piece, hpiece, hdir, _⟩ := hown dir rfl
      have hdir' : ';' ∉ dir.text.toList := hdir ▸ hpart (hparts hpiece)
      simpa [text] using ⟨hdir', htarget'⟩
  · simpa [text] using hpart hpiece
  · simpa [text] using fun hmem => hs (Text.mem_of_mem_trimmed hmem)

/-! ## Reading back -/

/-- An empty text names no place. -/
theorem parse?_nil : parse? (String.ofList []) = none := by
  have htrimmed : Text.trimmed (String.ofList []).toList = [] := by
    rw [String.toList_ofList]
    rfl
  unfold parse?
  rw [htrimmed]
  exact if_pos rfl

/-- Behind a keyword without asterisks comes what is split on. -/
theorem splitOn_keyword {word rest : List Char} (hword : '*' ∉ word) :
    Text.splitOn '*' (word ++ '*' :: rest) = word :: Text.splitOn '*' rest := by
  rw [Text.splitOn_append_cons, Text.splitOn_of_notMem hword, List.singleton_append]

/-- Parts with asterisks between them have no blanks at their ends. -/
theorem isTrim_append_cons {front rest : List Char} (hfront : front ≠ []) (hrest : rest ≠ [])
    (htrim : Text.IsTrim front) (htrim' : Text.IsTrim rest) : Text.IsTrim (front ++ '*' :: rest) := by
  have hasterisk : Text.IsTrim ['*'] := Text.isTrim_of_all (by decide)
  exact htrim.append (hasterisk.append htrim' (List.cons_ne_nil _ _) hrest) hfront (List.cons_ne_nil _ _)

/-- A store is read back from its cache, if it has one, and its target. -/
theorem storeOfParts?_parts {own : Option FilePath} {target : String} (hown : ∀ dir ∈ own, IsPart dir.text.toList)
    (htarget : IsPart target.toList) :
    storeOfParts? (own.toList.map (·.text.toList) ++ [target.toList]) = some (.store own target) := by
  have hlast := Text.trimmed_eq_self htarget.trim
  cases own with
  | none => simp [storeOfParts?, hlast, htarget.ne_nil]
  | some dir =>
    have hdir := Text.trimmed_eq_self (hown dir rfl).trim
    simp [storeOfParts?, hlast, htarget.ne_nil, hdir, (hown dir rfl).ne_nil]

/-- What stands behind the keyword of stores is read as their parts. -/
theorem parse?_srv (rest : List Char) (hs : s.toList = "srv".toList ++ '*' :: rest) (hne : rest ≠ [])
    (htrim : Text.IsTrim rest) : parse? s = storeOfParts? (Text.splitOn '*' rest) := by
  have htrim' : Text.IsTrim ("srv".toList ++ '*' :: rest) :=
    isTrim_append_cons (by decide) hne (Text.isTrim_of_all (by decide)) htrim
  have hcase : Text.eqIgnoringCase "srv".toList "srv".toList = true := by decide
  simp only [parse?, hs, Text.trimmed_eq_self htrim', splitOn_keyword (show '*' ∉ "srv".toList by decide), hcase]
  exact if_neg (by simp)

/-- **A place that can be read is read back from its text.** -/
theorem parse?_text (h : Readable e) : parse? e.text = some e := by
  cases h with
  | @directory dir hne htrim hwords =>
    simp only [parse?, text, Text.trimmed_eq_self htrim, if_neg hne]
    rw [keyword] at hwords
    cases hparts : Text.splitOn '*' dir.text.toList with
    | nil => exact absurd hparts (Text.splitOn_ne_nil _ _)
    | cons first parts =>
      rw [hparts] at hwords
      have hsrv : Text.eqIgnoringCase first "srv".toList = false := hwords "srv" (by decide)
      have hsymsrv : Text.eqIgnoringCase first "symsrv".toList = false := hwords "symsrv" (by decide)
      have hcache : Text.eqIgnoringCase first "cache".toList = false := hwords "cache" (by decide)
      simp only [hsrv, hsymsrv, hcache, Bool.false_eq_true, if_false, String.ofList_toList]
  | @cache dir hdir =>
    have hlist : (SymbolPathElement.cache dir).text.toList = "cache".toList ++ '*' :: dir.text.toList := by simp [text]
    have htrim : Text.IsTrim ("cache".toList ++ '*' :: dir.text.toList) :=
      isTrim_append_cons (by decide) hdir.ne_nil (Text.isTrim_of_all (by decide)) hdir.trim
    have hsplit : Text.splitOn '*' ("cache".toList ++ '*' :: dir.text.toList) = ["cache".toList, dir.text.toList] := by
      rw [splitOn_keyword (by decide), Text.splitOn_of_notMem hdir.asterisk]
    have hsrv : Text.eqIgnoringCase "cache".toList "srv".toList = false := by decide
    have hsymsrv : Text.eqIgnoringCase "cache".toList "symsrv".toList = false := by decide
    have hcache : Text.eqIgnoringCase "cache".toList "cache".toList = true := by decide
    simp only [parse?, hlist, Text.trimmed_eq_self htrim, hsplit, hsrv, hsymsrv, hcache, Text.trimmed_eq_self hdir.trim,
      if_neg hdir.ne_nil, String.ofList_toList]
    exact if_neg (by simp)
  | @store own target hown htarget =>
    rw [← storeOfParts?_parts hown htarget]
    cases own with
    | none =>
      rw [parse?_srv target.toList (by simp [text]) htarget.ne_nil htarget.trim,
        Text.splitOn_of_notMem htarget.asterisk]
      rfl
    | some dir =>
      have hdir := hown dir rfl
      rw [parse?_srv (dir.text.toList ++ '*' :: target.toList) (by simp [text]) (by simp)
          (isTrim_append_cons hdir.ne_nil htarget.ne_nil hdir.trim htarget.trim),
        splitOn_keyword hdir.asterisk, Text.splitOn_of_notMem htarget.asterisk]
      rfl

end SymbolPathElement

namespace SymbolPath

open SymbolPathElement

variable {p : SymbolPath}

/-- Paths that have been put together from what was read. -/
inductive Built : SymbolPath → Prop
  | empty : Built .empty
  | parse (s : String) : Built (parse s)
  | append {p q : SymbolPath} : Built p → Built q → Built (p.append q)
  | add {p : SymbolPath} {s : String} : Built p → ';' ∉ s.toList → Built (p.add s)

/-- The places of a path can be read from texts without semicolons. -/
theorem Built.exists_of_mem (h : Built p) : ∀ e ∈ p.elements, ∃ s : String, ';' ∉ s.toList ∧ parse? s = some e := by
  induction h with
  | empty => simp [SymbolPath.empty]
  | parse s =>
    intro e he
    obtain ⟨piece, hpiece, he⟩ := List.mem_filterMap.1 he
    refine ⟨String.ofList piece, ?_, he⟩
    rw [String.toList_ofList]
    exact fun hmem => (Text.mem_of_mem_splitOn hpiece hmem).2 rfl
  | append _ _ ihp ihq => exact fun e he => (List.mem_append.1 he).elim (ihp e) (ihq e)
  | @add p s _ hs ih =>
    intro e he
    rcases List.mem_append.1 he with he | he
    · exact ih e he
    · exact ⟨s, hs, Option.mem_toList.1 he⟩

/-- The text of a path is that of its places with semicolons between them. -/
theorem toList_text (p : SymbolPath) : p.text.toList = [';'].intercalate (p.elements.map (·.text.toList)) := by
  rw [text, String.toList_intercalate, List.map_map]
  rfl

theorem parse_nil : parse "" = .empty := by
  rw [parse, String.toList_empty, Text.splitOn, List.filterMap_cons, parse?_nil]
  rfl

/-- **A path is read back from its text.** -/
theorem parse_text (h : Built p) : parse p.text = p := by
  by_cases hempty : p = .empty
  · rw [hempty]
    exact parse_nil
  · have hne : p.elements ≠ [] := fun helements => hempty (congrArg SymbolPath.mk helements)
    have hpieces : ∀ piece ∈ p.elements.map (·.text.toList), ';' ∉ piece := by
      rintro _ hpiece
      obtain ⟨e, he, rfl⟩ := List.mem_map.1 hpiece
      obtain ⟨s, hs, hread⟩ := h.exists_of_mem e he
      exact notMem_text hread hs
    have hback : ∀ e ∈ p.elements, ((fun cs => parse? (String.ofList cs)) ∘ (·.text.toList)) e = some e := by
      intro e he
      obtain ⟨s, _, hread⟩ := h.exists_of_mem e he
      rw [Function.comp_apply, String.ofList_toList, parse?_text (readable_of_parse? hread)]
    rw [parse, toList_text, Text.splitOn_intercalate hpieces (by simpa using hne), List.filterMap_map,
      List.filterMap_congr hback, List.filterMap_some]

/-- **The places of a text are those in front of a semicolon, then those behind it.** -/
theorem parse_append (s t : String) : parse (s ++ ";" ++ t) = (parse s).append (parse t) := by
  have hlist : (s ++ ";" ++ t).toList = s.toList ++ ';' :: t.toList := by simp
  rw [parse, hlist, Text.splitOn_append_cons, List.filterMap_append]
  rfl

theorem foldl_append_parse (texts : List String) (p : SymbolPath) :
    texts.foldl (fun p s => p.append (parse s)) p = ⟨p.elements ++ texts.flatMap fun s => (parse s).elements⟩ := by
  induction texts generalizing p with
  | nil => simp
  | cons s texts ih =>
    rw [List.foldl_cons, ih, append, List.flatMap_cons, List.append_assoc]

/-- **The places of several texts are those of the texts with semicolons between them.** -/
theorem parse_intercalate (texts : List String) :
    parse (";".intercalate texts) = ⟨texts.flatMap fun s => (parse s).elements⟩ := by
  induction texts with
  | nil => exact parse_nil
  | cons s texts ih =>
    cases texts with
    | nil => simp
    | cons t texts =>
      rw [String.intercalate_cons_cons, parse_append, ih]
      rfl

/-- **The text of a path says what the path is**: a path that has been put together from what was read is read back
from its text, place by place and to the letter, not only up to the components of its directories. Joining texts by
semicolons joins the places, so options that each give a path stand for one that gives the joined text. -/
theorem text_faithful :
    (∀ p, Built p → parse p.text = p ∧ (parse p.text).text = p.text) ∧
    (∀ s t, (parse (s ++ ";" ++ t)).elements = (parse s).elements ++ (parse t).elements) ∧
    ∀ (options : Options) (environment : Environment),
      CommandLine.storeOf options environment =
        CommandLine.storeOf { options with symbolPaths := [";".intercalate options.symbolPaths] } environment := by
  refine ⟨fun p h => ?_, fun s t => ?_, fun options environment => ?_⟩
  · rw [parse_text h]
    exact ⟨rfl, rfl⟩
  · rw [parse_append]
    rfl
  · have hgiven : [";".intercalate options.symbolPaths].foldl (fun p s => p.append (parse s)) empty =
        options.symbolPaths.foldl (fun p s => p.append (parse s)) empty := by
      rw [foldl_append_parse, foldl_append_parse, List.flatMap_singleton, parse_intercalate]
    unfold CommandLine.storeOf
    rw [hgiven]

/-- Blanks, empty parts, further caches and the library are not part of the text; a word with a blank behind it is no
keyword. -/
theorem text_faithful_untidy :
    let p := ((parse " ;SRV * x*y; sRv** c *d* t *;cache* *e").add "SymSrv*lib*\u2003c** d *  http://t ").append
      (parse " .\t;;cache*\u00a0f* g")
    Built p ∧ p.text = "SRV * x*y;srv*c*http://t;.;cache*f" ∧ parse p.text = p := by
  intro p
  have hbuilt : Built p := ((Built.parse _).add (by decide)).append (Built.parse _)
  exact ⟨hbuilt, by decide +kernel, (text_faithful.1 p hbuilt).1⟩

end SymbolPath

end Symbolicate
