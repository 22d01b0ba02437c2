import Mathlib.Data.Option.Basic
import Mathlib.Tactic.Common
import Symbolicate.Proofs.Lists.FirstMentions
import Symbolicate.Proofs.Text.Ascii
import Symbolicate.Proofs.Text.Blank
import Symbolicate.Report.ModuleInfo

/-!
# Module lines

Attributes are read twice: a line is recognised as a whole, and then the attributes are picked from the text that has
been recognised as attributes. Both read a text as the same pieces (`attribute?_eq_some_iff`), and each attribute ends
where the next one starts, so nothing between them is passed over (`finds_chars_iff`) and none is lost.

So a line that is written with a name, an identity and attributes is read back (`ModuleInfo.parse?_writtenLine`). Of
attributes whose keys differ only in case the last one counts, at the place of the first (`keys_attributesOf`,
`valueOf?_attributesOf`).
-/

namespace Symbolicate

/-! ## The pieces of an attribute -/

/-- An attribute of a module line, cut into pieces: the blanks behind the semicolon, and what stands on both sides of
the colon. -/
structure AttributeText where
  gap : List Char
  key : List Char
  value : List Char

namespace AttributeText

/-- What each piece may be. -/
structure WellFormed (a : AttributeText) : Prop where
  gap_ne_nil : a.gap ≠ []
  gap : ∀ c ∈ a.gap, Text.isBlank c = true
  key_ne_nil : a.key ≠ []
  key : ∀ c ∈ a.key, ModuleLine.isKeyLetter c = true
  value_ne_nil : a.value ≠ []
  value : ';' ∉ a.value

/-- The characters of the pieces. -/
def chars (a : AttributeText) : List Char := ';' :: (a.gap ++ (a.key ++ ':' :: a.value))

def pair (a : AttributeText) : List Char × List Char := (a.key, a.value)

end AttributeText

namespace ModuleLine

open AttributeText

variable {a : AttributeText} {as : List AttributeText} {cs rest : List Char}

theorem isBlank_of_isKeyLetter {c : Char} (h : isKeyLetter c = true) : Text.isBlank c = false := by
  simp only [isKeyLetter, Bool.or_eq_true, beq_iff_eq] at h
  rcases h with (h | rfl) | rfl
  · have hranges : (decide (c.val ≥ 'A'.val ∧ c.val ≤ 'Z'.val) ||
        (decide (c.val ≥ 'a'.val) && decide (c.val ≤ 'z'.val))) = true := h
    simp only [Bool.or_eq_true, Bool.and_eq_true, decide_eq_true_eq, ge_iff_le, UInt32.le_iff_toNat_le] at hranges
    have hletter : 0x41 ≤ c.toNat ∧ c.toNat ≤ 0x5A ∨ 0x61 ≤ c.toNat ∧ c.toNat ≤ 0x7A := hranges
    simp only [Text.isBlank, Bool.or_eq_false_iff, Bool.and_eq_false_iff, decide_eq_false_iff_not,
      beq_eq_false_iff_ne]
    omega
  · decide
  · decide

/-- **An attribute is read iff the text starts with its pieces**, and its value reaches to the next semicolon. -/
theorem attribute?_eq_some_iff {found : List Char × List Char} : attribute? cs = some (found, rest) ↔
    ∃ a : AttributeText, a.WellFormed ∧ cs = a.chars ++ rest ∧ (∀ c ∈ rest.head?, c = ';') ∧ a.pair = found := by
  constructor
  · intro h
    unfold attribute? at h
    split at h
    · next cs =>
      simp only at h
      split at h
      · cases h
      · next hne =>
        rw [not_or] at hne
        split at h
        · next behind hcolon =>
          split at h
          · cases h
          · next hvalue =>
            cases h
            refine ⟨⟨cs.takeWhile Text.isBlank, (cs.dropWhile Text.isBlank).takeWhile isKeyLetter,
              behind.takeWhile (· ≠ ';')⟩, ⟨hne.1, fun c hc => List.mem_takeWhile_imp hc, hne.2,
              fun c hc => List.mem_takeWhile_imp hc, hvalue, fun hc => ?_⟩, ?_, fun c hc => ?_, rfl⟩
            · simpa using List.mem_takeWhile_imp hc
            · simp only [chars, List.cons_append, List.append_assoc]
              rw [List.takeWhile_append_dropWhile, ← hcolon, List.takeWhile_append_dropWhile,
                List.takeWhile_append_dropWhile]
            · simpa using Text.eq_false_of_head?_dropWhile hc
        · cases h
    · cases h
  · rintro ⟨a, ha, rfl, hrest, rfl⟩
    have hcolon : ∀ c ∈ (':' :: (a.value ++ rest)).head?, isKeyLetter c = false :=
      Text.eq_false_of_head?_cons (by decide)
    have hkey : ∀ c ∈ (a.key ++ ':' :: (a.value ++ rest)).head?, Text.isBlank c = false := by
      obtain ⟨c, key, hcons⟩ := List.exists_cons_of_ne_nil ha.key_ne_nil
      rw [hcons]
      exact Text.eq_false_of_head?_cons (isBlank_of_isKeyLetter (ha.key c (hcons ▸ List.mem_cons_self)))
    have hvalue : ∀ c ∈ a.value, decide (c ≠ ';') = true := fun c hc =>
      decide_eq_true (ne_of_mem_of_not_mem hc ha.value)
    have hend : ∀ c ∈ rest.head?, decide (c ≠ ';') = false := fun c hc => by simp [hrest c hc]
    simp only [chars, attribute?, List.cons_append, List.append_assoc]
    rw [Text.takeWhile_run ha.gap hkey, Text.dropWhile_run ha.gap hkey, Text.takeWhile_run ha.key hcolon,
      Text.dropWhile_run ha.key hcolon, if_neg (not_or.2 ⟨ha.gap_ne_nil, ha.key_ne_nil⟩)]
    simp only
    rw [Text.takeWhile_run hvalue hend, Text.dropWhile_run hvalue hend, if_neg ha.value_ne_nil]
    rfl

/-! ## Attributes one after the other -/

/-- Behind an attribute comes another one, or nothing. -/
theorem head?_flatMap_chars (as : List AttributeText) : ∀ c ∈ (as.flatMap chars).head?, c = ';' := by
  cases as with
  | nil => rintro _ ⟨⟩
  | cons a as => rintro _ ⟨⟩; rfl

theorem attribute?_chars (ha : a.WellFormed) (as : List AttributeText) :
    attribute? ((a :: as).flatMap chars) = some (a.pair, as.flatMap chars) :=
  attribute?_eq_some_iff.2 ⟨a, ha, List.flatMap_cons, head?_flatMap_chars as, rfl⟩

/-- What is recognised as attributes are attributes one after the other. -/
theorem exists_of_behindAttributes (fuel : Nat) (cs : List Char) :
    ∃ as : List AttributeText, (∀ a ∈ as, a.WellFormed) ∧ cs = as.flatMap chars ++ behindAttributes fuel cs := by
  induction fuel generalizing cs with
  | zero => exact ⟨[], by simp, rfl⟩
  | succ fuel ih =>
    cases hread : attribute? cs with
    | none => exact ⟨[], by simp, by simp [behindAttributes, hread]⟩
    | some found =>
      obtain ⟨a, ha, hcs, -, -⟩ := attribute?_eq_some_iff.1 hread
      obtain ⟨as, has, hrest⟩ := ih found.2
      refine ⟨a :: as, List.forall_mem_cons.2 ⟨ha, has⟩, ?_⟩
      simp only [behindAttributes, hread]
      rw [List.flatMap_cons, List.append_assoc, ← hrest, hcs]

/-- Attributes one after the other are recognised up to the last. -/
theorem behindAttributes_chars (has : ∀ a ∈ as, a.WellFormed) {fuel : Nat} (hfuel : as.length ≤ fuel) :
    behindAttributes fuel (as.flatMap chars) = [] := by
  induction as generalizing fuel with
  | nil => cases fuel <;> rfl
  | cons a as ih =>
    cases fuel with
    | zero => simp at hfuel
    | succ fuel =>
      rw [List.forall_mem_cons] at has
      simp only [behindAttributes, attribute?_chars has.1]
      exact ih has.2 (by simpa using hfuel)

theorem length_le_flatMap_chars (as : List AttributeText) : as.length ≤ (as.flatMap chars).length := by
  induction as with
  | nil => exact Nat.le_refl 0
  | cons a as ih =>
    rw [List.flatMap_cons, List.length_append, List.length_cons]
    simp only [chars, List.length_cons]
    omega

/-! ## Picking attributes -/

/-- An attribute that has been found in a text, with the places where it starts and ends. -/
structure AttributeMatch where
  start : Nat
  stop : Nat
  key : List Char
  value : List Char

/-- The attributes found in a text from left to right, of which the first character is at a place: each is found where
the text first starts with one, behind the one before. -/
inductive Finds : Nat → List Char → List AttributeMatch → Prop
  | done (place : Nat) : Finds place [] []
  | passed {place : Nat} {c : Char} {cs : List Char} {found : List AttributeMatch} : attribute? (c :: cs) = none →
      Finds (place + 1) cs found → Finds place (c :: cs) found
  | found {place : Nat} {cs key value rest : List Char} {more : List AttributeMatch} :
      attribute? cs = some ((key, value), rest) → Finds (place + (cs.length - rest.length)) rest more →
      Finds place cs (⟨place, place + (cs.length - rest.length), key, value⟩ :: more)

/-- Matches that lie one behind the other from one place to another, with nothing between them. -/
def Covers : Nat → List AttributeMatch → Nat → Prop
  | start, [], stop => start = stop
  | start, m :: ms, stop => m.start = start ∧ Covers m.stop ms stop

def AttributeMatch.pair (m : AttributeMatch) : List Char × List Char := (m.key, m.value)

/-- Attributes one after the other, with the places where they start and end. -/
def placed : Nat → List AttributeText → List AttributeMatch
  | _, [] => []
  | place, a :: as => ⟨place, place + a.chars.length, a.key, a.value⟩ :: placed (place + a.chars.length) as

/-- The scan gives the keys and values of what is found. -/
theorem scanFrom_of_finds {place : Nat} {found : List AttributeMatch} (h : Finds place cs found) {fuel : Nat}
    (hfuel : cs.length ≤ fuel) : scanFrom fuel cs = found.map AttributeMatch.pair := by
  induction h generalizing fuel with
  | done => cases fuel <;> rfl
  | passed hnone _ ih =>
    cases fuel with
    | zero => simp at hfuel
    | succ fuel =>
      simp only [scanFrom, hnone]
      exact ih (by simpa using hfuel)
  | @found _ cs key value rest _ hread _ ih =>
    obtain ⟨a, -, rfl, -, -⟩ := attribute?_eq_some_iff.1 hread
    cases fuel with
    | zero => simp [chars] at hfuel
    | succ fuel =>
      have hrest : rest.length ≤ fuel := by
        simp [chars] at hfuel
        omega
      simp only [chars, List.cons_append] at hread ⊢
      simp only [scanFrom, hread, ih hrest]
      rfl

/-- **Attributes one after the other are found, and nothing else.** -/
theorem finds_chars_iff (has : ∀ a ∈ as, a.WellFormed) (place : Nat) (found : List AttributeMatch) :
    Finds place (as.flatMap chars) found ↔ found = placed place as := by
  induction as generalizing place found with
  | nil =>
    constructor
    · rintro (_ | _ | hread)
      · rfl
      · cases hread
    · rintro rfl
      exact .done place
  | cons a as ih =>
    rw [List.forall_mem_cons] at has
    have hread := attribute?_chars has.1 as
    have hlength : ((a :: as).flatMap chars).length - (as.flatMap chars).length = a.chars.length := by
      rw [List.flatMap_cons, List.length_append, Nat.add_sub_cancel]
    constructor
    · intro h
      generalize (a :: as).flatMap chars = text at h hread hlength
      cases h with
      | done => cases hread
      | passed hnone => rw [hnone] at hread; cases hread
      | found hread' hmore =>
        rw [hread] at hread'
        cases hread'
        rw [hlength] at hmore ⊢
        rw [placed, (ih has.2 _ _).1 hmore]
    · rintro rfl
      rw [placed, ← hlength]
      exact .found hread ((ih has.2 _ _).2 rfl)

theorem covers_placed (place : Nat) (as : List AttributeText) :
    Covers place (placed place as) (place + (as.flatMap chars).length) := by
  induction as generalizing place with
  | nil => rfl
  | cons a as ih =>
    rw [List.flatMap_cons, List.length_append, ← Nat.add_assoc]
    exact ⟨rfl, ih _⟩

theorem map_pair_placed (place : Nat) (as : List AttributeText) :
    (placed place as).map AttributeMatch.pair = as.map AttributeText.pair := by
  induction as generalizing place with
  | nil => rfl
  | cons a as ih => rw [placed, List.map_cons, List.map_cons, ih]; rfl

theorem scanAttributes_chars (has : ∀ a ∈ as, a.WellFormed) :
    scanAttributes (as.flatMap chars) = as.map AttributeText.pair := by
  rw [scanAttributes, scanFrom_of_finds ((finds_chars_iff has 0 _).2 rfl) (Nat.le_refl _), map_pair_placed]

/-! ## Whole lines -/

/-- The text recognised as attributes is one attribute or more. -/
theorem exists_attributes_of_match? {l : ModuleLine} (h : match? cs = some l) :
    ∃ as : List AttributeText, as ≠ [] ∧ (∀ a ∈ as, a.WellFormed) ∧ l.attributes = as.flatMap chars := by
  simp only [match?, Option.bind_eq_bind, Option.bind_eq_some_iff, Option.pure_def, Option.some.injEq] at h
  obtain ⟨s₁, -, _, -, s₂, -, ⟨identity, s₃⟩, -, _, hne, rfl⟩ := h
  obtain ⟨as, has, hs₃⟩ := exists_of_behindAttributes s₃.length s₃
  have htake : s₃.take (s₃.length - (behindAttributes s₃.length s₃).length) = as.flatMap chars := by
    generalize behindAttributes s₃.length s₃ = rest at hs₃
    rw [hs₃, List.length_append, Nat.add_sub_cancel, List.take_left]
  rw [htake, Option.guard_eq_some'] at hne
  refine ⟨as, ?_, has, htake⟩
  rintro rfl
  exact hne rfl

theorem exists_match?_of_search? {l : ModuleLine} (h : search? cs = some l) :
    ∃ rest, rest <:+ cs ∧ match? rest = some l := by
  induction cs with
  | nil => cases h
  | cons c cs ih =>
    cases hmatch : match? (c :: cs) with
    | none =>
      simp only [search?, hmatch] at h
      obtain ⟨rest, hrest, hl⟩ := ih h
      exact ⟨rest, hrest.trans (List.suffix_cons c cs), hl⟩
    | some found =>
      simp only [search?, hmatch] at h
      exact ⟨c :: cs, List.suffix_refl _, h ▸ hmatch⟩

/-- An identity is found behind the blank, up to the first attribute. -/
theorem identity?_append {identity : List Char} (hne : identity ≠ []) (hsemicolon : ';' ∉ identity)
    (htrim : Text.IsTrim identity) (as : List AttributeText) :
    identity? (' ' :: (identity ++ as.flatMap chars)) = some (identity, as.flatMap chars) := by
  have hblank : ∀ c ∈ [' '], Text.isBlank c = true := List.forall_mem_singleton.2 (by decide)
  have hfirst : ∀ c ∈ (identity ++ as.flatMap chars).head?, Text.isBlank c = false := by
    obtain ⟨c, tail, hcons⟩ := List.exists_cons_of_ne_nil hne
    rw [hcons]
    exact Text.eq_false_of_head?_cons (htrim.first c (by rw [hcons]; rfl))
  have hrun : ∀ c ∈ identity, decide (c ≠ ';') = true := fun c hc => decide_eq_true (ne_of_mem_of_not_mem hc hsemicolon)
  have hend : ∀ c ∈ (as.flatMap chars).head?, decide (c ≠ ';') = false := fun c hc => by
    simp [head?_flatMap_chars as c hc]
  simp only [identity?]
  rw [← List.singleton_append, Text.takeWhile_run hblank hfirst, Text.dropWhile_run hblank hfirst,
    Text.takeWhile_run hrun hend, Text.dropWhile_run hrun hend, if_neg (List.cons_ne_nil _ _), if_pos hne]

/-- **The parts of a line are recognised**: its name, and behind the arrow what is read as identity and attributes. -/
theorem match?_append {name identity behind : List Char} (hname : name ≠ [])
    (hblank : ∀ c ∈ name, Text.isBlank c = false) (hne : as ≠ []) (has : ∀ a ∈ as, a.WellFormed)
    (hidentity : identity? behind = some (identity, as.flatMap chars)) :
    match? ("MODULE: ".toList ++ (name ++ ' ' :: '=' :: '>' :: behind)) = some ⟨name, identity, as.flatMap chars⟩ := by
  have hrun : ∀ c ∈ name, (! Text.isBlank c) = true := fun c hc => by simp [hblank c hc]
  have hend : ∀ c ∈ (' ' :: '=' :: '>' :: behind).head?, (! Text.isBlank c) = false :=
    Text.eq_false_of_head?_cons (by decide)
  have hspace : ∀ c ∈ [' '], Text.isBlank c = true := List.forall_mem_singleton.2 rfl
  have harrow : ∀ c ∈ ('=' :: '>' :: behind).head?, Text.isBlank c = false := Text.eq_false_of_head?_cons (by decide)
  have hattributes : as.flatMap chars ≠ [] := by
    obtain ⟨a, tail, hcons⟩ := List.exists_cons_of_ne_nil hne
    simp [hcons, chars]
  have hall : behindAttributes (as.flatMap chars).length (as.flatMap chars) = [] :=
    behindAttributes_chars has (length_le_flatMap_chars as)
  have htake : (as.flatMap chars).take ((as.flatMap chars).length - ([] : List Char).length) = as.flatMap chars := by
    rw [List.length_nil, Nat.sub_zero, List.take_length]
  simp only [match?, Option.bind_eq_bind, Option.bind_eq_some_iff, Option.pure_def, Option.some.injEq]
  refine ⟨name ++ ' ' :: '=' :: '>' :: behind, ?_, (), ?_, behind, ?_, (identity, as.flatMap chars), hidentity, (), ?_,
    ?_⟩
  · exact Text.behind?_eq_some_iff.2 ⟨"MODULE: ".toList, rfl, rfl⟩
  · rw [Text.takeWhile_run hrun hend, Text.dropWhile_run hrun hend, ← List.singleton_append,
      Text.takeWhile_run hspace harrow]
    exact (Option.guard_eq_some' _).2 ⟨hname, List.cons_ne_nil _ _⟩
  · rw [Text.dropWhile_run hrun hend, ← List.singleton_append, Text.dropWhile_run hspace harrow]
    exact Text.behind?_eq_some_iff.2 ⟨['=', '>'], rfl, rfl⟩
  · rw [hall, htake]
    exact (Option.guard_eq_some' _).2 hattributes
  · rw [hall, htake, Text.takeWhile_run hrun hend]

theorem search?_of_match? {l : ModuleLine} (h : match? cs = some l) : search? cs = some l := by
  cases cs with
  | nil => cases h
  | cons c cs => simp only [search?, h]

end ModuleLine

/-! ## Attributes of modules -/

namespace ModuleInfo

/-- The attributes that are kept of a list of keys and values, with keys in upper case. -/
def attributesOf (pairs : List (String × String)) : List (String × String) :=
  pairs.foldl (fun attributes a => setAttribute attributes (Text.asciiUpper a.1) a.2) []

theorem setAttribute_eq_place (attributes : List (String × String)) (key value : String) :
    setAttribute attributes key value = place Prod.fst attributes (key, value) := rfl

/-- An attribute that has been set has its new value, and no other changes. -/
theorem valueOf?_setAttribute (attributes : List (String × String)) (key value name : String) :
    valueOf? (setAttribute attributes key value) name =
      if name = key then some value else valueOf? attributes name := by
  rw [setAttribute_eq_place, valueOf?, find?_place, valueOf?]
  split <;> rfl

theorem attributesOf_concat (pairs : List (String × String)) (a : String × String) :
    attributesOf (pairs ++ [a]) = setAttribute (attributesOf pairs) (Text.asciiUpper a.1) a.2 :=
  List.foldl_append

/-- **Keys that differ only in case are one key**, at the place of its first mention. -/
theorem keys_attributesOf (pairs : List (String × String)) :
    (attributesOf pairs).map (·.1) = (pairs.map fun a => Text.asciiUpper a.1).eraseDups := by
  induction pairs using List.reverseRecOn with
  | nil => rfl
  | append_singleton pairs a ih =>
    rw [attributesOf_concat, setAttribute_eq_place, map_place, ih, List.map_append, List.map_singleton,
      eraseDups_concat]

/-- **The last value of a key counts.** -/
theorem valueOf?_attributesOf (pairs : List (String × String)) (key : String) :
    valueOf? (attributesOf pairs) key = (pairs.reverse.find? fun a => Text.asciiUpper a.1 == key).map (·.2) := by
  induction pairs using List.reverseRecOn with
  | nil => rfl
  | append_singleton pairs a ih =>
    rw [attributesOf_concat, valueOf?_setAttribute, ih, List.reverse_concat]
    by_cases h : key = Text.asciiUpper a.1
    · rw [if_pos h, List.find?_cons_of_pos (by simp [h]), Option.map_some]
    · rw [if_neg h, List.find?_cons_of_neg (by simpa using Ne.symm h)]

/-! ## Writing and reading -/

/-- A module line with a name, an identity and attributes. -/
def writtenLine (name identity : String) (pairs : List (String × String)) : String :=
  "MODULE: " ++ name ++ " => " ++ identity ++ String.join (pairs.map fun a => "; " ++ a.1 ++ ":" ++ a.2)

/-- A key and a value that can stand in a line. -/
structure IsAttribute (a : String × String) : Prop where
  key_ne_nil : a.1.toList ≠ []
  key : ∀ c ∈ a.1.toList, c.isAlpha = true
  value_ne_nil : a.2.toList ≠ []
  value : ';' ∉ a.2.toList

/-- A name, an identity and attributes that can stand in a line. -/
structure IsWritable (name identity : String) (pairs : List (String × String)) : Prop where
  name_ne_nil : name.toList ≠ []
  notBlank : ∀ c ∈ name.toList, Text.isBlank c = false
  identity_ne_nil : identity.toList ≠ []
  semicolon : ';' ∉ identity.toList
  trim : Text.IsTrim identity.toList
  pairs_ne_nil : pairs ≠ []
  isAttribute : ∀ a ∈ pairs, IsAttribute a

/-- The pieces of the attribute that a key and a value are written as. -/
def attributeText (a : String × String) : AttributeText := ⟨[' '], a.1.toList, a.2.toList⟩

theorem IsAttribute.wellFormed {a : String × String} (h : IsAttribute a) : (attributeText a).WellFormed where
  gap_ne_nil := List.cons_ne_nil _ _
  gap := List.forall_mem_singleton.2 rfl
  key_ne_nil := h.key_ne_nil
  key c hc := by simp [ModuleLine.isKeyLetter, h.key c hc]
  value_ne_nil := h.value_ne_nil
  value := h.value

theorem toList_writtenLine (name identity : String) (pairs : List (String × String)) :
    (writtenLine name identity pairs).toList = "MODULE: ".toList ++ (name.toList ++ ' ' :: '=' :: '>' :: ' ' ::
      (identity.toList ++ (pairs.map attributeText).flatMap AttributeText.chars)) := by
  simp [writtenLine, String.toList_join, List.flatMap_map, attributeText, AttributeText.chars]

/-- A line that is written is recognised with the parts it is written with. -/
theorem search?_writtenLine {name identity : String} {pairs : List (String × String)}
    (h : IsWritable name identity pairs) : ModuleLine.search? (writtenLine name identity pairs).toList =
      some ⟨name.toList, identity.toList, (pairs.map attributeText).flatMap AttributeText.chars⟩ := by
  have hne : pairs.map attributeText ≠ [] := by simpa using h.pairs_ne_nil
  have hpairs : ∀ a ∈ pairs.map attributeText, a.WellFormed :=
    List.forall_mem_map.2 fun a ha => (h.isAttribute a ha).wellFormed
  rw [toList_writtenLine]
  exact ModuleLine.search?_of_match? (ModuleLine.match?_append h.name_ne_nil h.notBlank hne hpairs
    (ModuleLine.identity?_append h.identity_ne_nil h.semicolon h.trim _))

/-- The attributes of a module are kept of those that its line is written with. -/
theorem attributes_ofLine {pairs : List (String × String)} (h : ∀ a ∈ pairs, IsAttribute a)
    (name identity : List Char) :
    (ofLine ⟨name, identity, (pairs.map attributeText).flatMap AttributeText.chars⟩).attributes =
      attributesOf pairs := by
  have hpairs : ∀ a ∈ pairs.map attributeText, a.WellFormed := List.forall_mem_map.2 fun a ha => (h a ha).wellFormed
  simp only [ofLine, ModuleLine.scanAttributes_chars hpairs, List.map_map, List.foldl_map]
  simp [attributesOf, attributeText, AttributeText.pair]

/-- **A line that is written is read back.** -/
theorem parse?_writtenLine {name identity : String} {pairs : List (String × String)}
    (h : IsWritable name identity pairs) : ∃ m, parse? (writtenLine name identity pairs) = some m ∧
      m.name = name ∧ m.identity = identity ∧ m.attributes = attributesOf pairs := by
  refine ⟨_, congrArg (Option.map ofLine) (search?_writtenLine h), String.ofList_toList, ?_,
    attributes_ofLine h.isAttribute _ _⟩
  simp only [ofLine, Text.trimmed_eq_self h.trim, String.ofList_toList]

/-- **No attribute is lost.** In every line that is read, the attributes that are found in the text recognised as
attributes lie one behind the other and make up all of it. -/
theorem covers_of_parse? {line : String} {m : ModuleInfo} (h : parse? line = some m) :
    ∃ l found, ModuleLine.search? line.toList = some l ∧ m = ofLine l ∧ found ≠ [] ∧
      (∀ other, ModuleLine.Finds 0 l.attributes other ↔ other = found) ∧
      ModuleLine.Covers 0 found l.attributes.length ∧
      ModuleLine.scanAttributes l.attributes = found.map ModuleLine.AttributeMatch.pair := by
  obtain ⟨l, hl, rfl⟩ := Option.map_eq_some_iff.1 h
  obtain ⟨_, -, hmatch⟩ := ModuleLine.exists_match?_of_search? hl
  obtain ⟨as, hne, has, hattributes⟩ := ModuleLine.exists_attributes_of_match? hmatch
  refine ⟨l, ModuleLine.placed 0 as, hl, rfl, ?_, fun other => ?_, ?_, ?_⟩
  · obtain ⟨a, tail, rfl⟩ := List.exists_cons_of_ne_nil hne
    exact List.cons_ne_nil _ _
  · rw [hattributes, ModuleLine.finds_chars_iff has]
  · rw [hattributes]
    simpa using ModuleLine.covers_placed 0 as
  · rw [hattributes, ModuleLine.scanAttributes_chars has, ModuleLine.map_pair_placed]

/-- **Module lines and their attributes.** A line is read back as it is written, with one attribute for each key, in
any case: the last value that is written for it, at the place of the first. And what is picked as attributes of a line
that is read is all that has been recognised as attributes. -/
theorem module_lines :
    (∀ (name identity : String) (pairs : List (String × String)), IsWritable name identity pairs →
      ∃ m, parse? (writtenLine name identity pairs) = some m ∧ m.name = name ∧ m.identity = identity ∧
        m.attributes = pairs.foldl (fun attributes a => setAttribute attributes (Text.asciiUpper a.1) a.2) [] ∧
        m.attributes.map (·.1) = (pairs.map fun a => Text.asciiUpper a.1).eraseDups ∧
        ∀ key, m.attribute? key =
          (pairs.reverse.find? fun a => Text.asciiUpper a.1 == Text.asciiUpper key).map (·.2)) ∧
    ∀ (line : String) (m : ModuleInfo), parse? line = some m →
      ∃ l found, ModuleLine.search? line.toList = some l ∧ m = ofLine l ∧ found ≠ [] ∧
        (∀ other, ModuleLine.Finds 0 l.attributes other ↔ other = found) ∧
        ModuleLine.Covers 0 found l.attributes.length ∧
        ModuleLine.scanAttributes l.attributes = found.map ModuleLine.AttributeMatch.pair := by
  refine ⟨fun name identity pairs h => ?_, fun line m h => covers_of_parse? h⟩
  obtain ⟨m, hread, hname, hidentity, hattributes⟩ := parse?_writtenLine h
  refine ⟨m, hread, hname, hidentity, hattributes, ?_, fun key => ?_⟩
  · rw [hattributes, keys_attributesOf]
  · rw [attribute?, hattributes, valueOf?_attributesOf]

/-- Attributes of which one comes twice, and whose values look like other parts of a line. -/
def oddPairs : List (String × String) := [("g", "x: y"), ("F", "=> z"), ("G", "MODULE: q")]

theorem module_lines_oddLine :
    writtenLine "=>" "A => B" oddPairs = "MODULE: => => A => B; g:x: y; F:=> z; G:MODULE: q" ∧
      ∃ m, parse? (writtenLine "=>" "A => B" oddPairs) = some m ∧ m.identity = "A => B" ∧
        m.attributes.map (·.1) = ["G", "F"] ∧ m.attribute? "g" = some "MODULE: q" ∧
        ∃ l found, ModuleLine.search? (writtenLine "=>" "A => B" oddPairs).toList = some l ∧
          ModuleLine.Covers 0 found l.attributes.length := by
  have hwritable : IsWritable "=>" "A => B" oddPairs := {
    name_ne_nil := by decide
    notBlank := List.forall_mem_cons.2 ⟨by decide, List.forall_mem_singleton.2 (by decide)⟩
    identity_ne_nil := by decide
    semicolon := by decide
    trim := {
      first := by
        rintro c ⟨⟩
        decide
      last := by
        rintro c ⟨⟩
        decide }
    pairs_ne_nil := List.cons_ne_nil _ _
    isAttribute := fun a ha => by
      have hall : (oddPairs.all fun a => !a.1.toList.isEmpty && a.1.toList.all Char.isAlpha && !a.2.toList.isEmpty &&
          !a.2.toList.contains ';') = true := by decide
      have h := List.all_eq_true.1 hall a ha
      simp only [Bool.and_eq_true, Bool.not_eq_true', List.isEmpty_eq_false_iff, List.all_eq_true, List.contains_eq_mem,
        decide_eq_false_iff_not] at h
      exact ⟨h.1.1.1, h.1.1.2, h.1.2, h.2⟩ }
  obtain ⟨m, hread, -, hidentity, -, hkeys, hvalue⟩ := module_lines.1 "=>" "A => B" oddPairs hwritable
  obtain ⟨l, found, hl, -, -, -, hcovers, -⟩ := module_lines.2 _ m hread
  refine ⟨by decide, m, hread, hidentity, ?_, ?_, l, found, hl, hcovers⟩
  · rw [hkeys]
    decide
  · rw [hvalue]
    decide

end ModuleInfo

end Symbolicate
