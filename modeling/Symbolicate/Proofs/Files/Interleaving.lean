import Mathlib.Data.List.Basic
import Mathlib.Order.Defs.Unbundled
import Mathlib.Tactic.Common
import Symbolicate.Proofs.Files.Script

/-!
# Scripts that take turns

Two scripts work on the same files (`Race`): in each turn one of them goes on, by a single operation or, from some
operations on, by all that is left to do. So a list of turns is an interleaving of their operations, in which a script is
not interrupted behind these operations. It is one of the interleavings of single operations
(`Race.exists_play_singly`).

If turns are fair, both scripts end (`Race.ends`). What they end with follows from rely and guarantee (`Script.Safe`):
a relation between files holds for all that either script does, and under whatever it allows in between, each script
ends as it should (`Race.Safe.play`).
-/

namespace Symbolicate

variable {α β : Type} {through : FileOp → Bool}

namespace Script

/-- Goes on by one operation, or to the end if the next operation is one to go through from. -/
def move (through : FileOp → Bool) : Script α → FileTree → Script α × FileTree
  | done a, t => (done a, t)
  | step op next, t =>
    if through op then (done ((step op next).run t).1, ((step op next).run t).2)
    else (next (op.run t).1, (op.run t).2)

/-- No operation is one to go through from. -/
def singly (_ : FileOp) : Bool := false

theorem move_step_of_through {op : FileOp} (hop : through op = true) (next : op.Answer → Script α) (t : FileTree) :
    (step op next).move through t = (done ((step op next).run t).1, ((step op next).run t).2) := if_pos hop

theorem move_step {op : FileOp} (hop : through op = false) (next : op.Answer → Script α) (t : FileTree) :
    (step op next).move through t = (next (op.run t).1, (op.run t).2) := if_neg (by rw [hop]; exact Bool.false_ne_true)

end Script

/-! ## Turns -/

/-- Two scripts that work on the same files. -/
structure Race (α : Type) where
  first : Script α
  second : Script α
  files : FileTree

namespace Race

/-- The one script or the other; `true` is the first one. -/
def script (c : Race α) : Bool → Script α
  | true => c.first
  | false => c.second

/-- What becomes of a race when one of the scripts goes on to another one and leaves other files. -/
def put (c : Race α) : Bool → Script α × FileTree → Race α
  | true, (x, t) => ⟨x, c.second, t⟩
  | false, (y, t) => ⟨c.first, y, t⟩

theorem script_put (c : Race α) (isFirst : Bool) (r : Script α × FileTree) :
    (c.put isFirst r).script isFirst = r.1 := by
  cases isFirst <;> rfl

theorem files_put (c : Race α) (isFirst : Bool) (r : Script α × FileTree) : (c.put isFirst r).files = r.2 := by
  cases isFirst <;> rfl

theorem put_put (c : Race α) (isFirst : Bool) (r r' : Script α × FileTree) :
    (c.put isFirst r).put isFirst r' = c.put isFirst r' := by
  cases isFirst <;> rfl

theorem put_self (c : Race α) (isFirst : Bool) : c.put isFirst (c.script isFirst, c.files) = c := by
  cases isFirst <;> rfl

/-- One of the scripts goes on. -/
def turn (through : FileOp → Bool) (c : Race α) (isFirst : Bool) : Race α :=
  c.put isFirst ((c.script isFirst).move through c.files)

/-- The scripts take turns; `true` is a turn of the first one. -/
def play (through : FileOp → Bool) (turns : List Bool) (c : Race α) : Race α := turns.foldl (turn through) c

/-- What both scripts end with, and the files that are left. -/
def outcome? : Race α → Option (α × α × FileTree)
  | ⟨.done a, .done b, t⟩ => some (a, b, t)
  | _ => none

theorem outcome?_eq_some {c : Race α} {a b : α} {t : FileTree} (h : c.outcome? = some (a, b, t)) :
    c = ⟨.done a, .done b, t⟩ := by
  obtain ⟨first, second, files⟩ := c
  cases first <;> cases second <;> cases h
  rfl

theorem play_cons (through : FileOp → Bool) (isFirst : Bool) (turns : List Bool) (c : Race α) :
    c.play through (isFirst :: turns) = (c.turn through isFirst).play through turns := rfl

theorem play_append (through : FileOp → Bool) (turns rest : List Bool) (c : Race α) :
    c.play through (turns ++ rest) = (c.play through turns).play through rest := List.foldl_append

/-! ## Interleavings of single operations -/

/-- Turns of one script alone run it to its end. -/
theorem exists_play_alone (isFirst : Bool) (x : Script α) : ∀ c : Race α, c.script isFirst = x →
    ∃ turns, c.play Script.singly turns = c.put isFirst (.done (x.run c.files).1, (x.run c.files).2) := by
  induction x with
  | done a =>
    intro c hx
    refine ⟨[], ?_⟩
    rw [Script.run, ← hx, put_self]
    rfl
  | step op next ih =>
    intro c hx
    have hturn : c.turn Script.singly isFirst = c.put isFirst (next (op.run c.files).1, (op.run c.files).2) := by
      rw [turn, hx, Script.move_step rfl]
    obtain ⟨turns, hturns⟩ := ih (op.run c.files).1 (c.turn Script.singly isFirst) (by rw [hturn, script_put])
    refine ⟨isFirst :: turns, ?_⟩
    rw [play_cons, hturns, hturn, files_put, put_put]
    rfl

theorem exists_play_of_turn (through : FileOp → Bool) (c : Race α) (isFirst : Bool) :
    ∃ turns, c.play Script.singly turns = c.turn through isFirst := by
  unfold turn
  cases hx : c.script isFirst with
  | done a =>
    refine ⟨[], ?_⟩
    rw [Script.move, ← hx, put_self]
    rfl
  | step op next =>
    cases hop : through op with
    | true =>
      rw [Script.move_step_of_through hop]
      exact exists_play_alone isFirst _ c hx
    | false =>
      refine ⟨[isFirst], ?_⟩
      rw [Script.move_step hop, play_cons, turn, hx, Script.move_step rfl]
      rfl

/-- **What turns lead to, turns of single operations lead to**, whatever is uninterrupted in the former. -/
theorem exists_play_singly (through : FileOp → Bool) (turns : List Bool) :
    ∀ c : Race α, ∃ turns', c.play Script.singly turns' = c.play through turns := by
  induction turns with
  | nil => exact fun _ => ⟨[], rfl⟩
  | cons isFirst rest ih =>
    intro c
    obtain ⟨before, hbefore⟩ := exists_play_of_turn through c isFirst
    obtain ⟨after, hafter⟩ := ih (c.turn through isFirst)
    exact ⟨before ++ after, by rw [play_append, hbefore, hafter, play_cons]⟩

/-! ## Fair turns -/

/-- Both scripts have turns again and again. -/
def Fair (turns : Nat → Bool) : Prop := ∀ isFirst n, ∃ i, turns (n + i) = isFirst

theorem Fair.tail {turns : Nat → Bool} (h : Fair turns) : Fair fun i => turns (i + 1) := by
  intro isFirst n
  obtain ⟨i, hi⟩ := h isFirst (n + 1)
  exact ⟨i, by rw [← hi, Nat.add_right_comm]⟩

/-- The first of infinitely many turns. -/
def firstTurns (turns : Nat → Bool) (n : Nat) : List Bool := (List.range n).map turns

theorem firstTurns_succ (turns : Nat → Bool) (n : Nat) :
    firstTurns turns (n + 1) = turns 0 :: firstTurns (fun i => turns (i + 1)) n := by
  rw [firstTurns, List.range_succ_eq_map, List.map_cons, List.map_map]
  rfl

/-- In fair turns, both scripts come to their ends. -/
def Ends (through : FileOp → Bool) (c : Race α) : Prop :=
  ∀ turns, Fair turns → ∃ n, (c.play through (firstTurns turns n)).outcome?.isSome = true

/-- Fair turns come to the turn of a given script, after finitely many turns of the other one. -/
theorem ends_of_turn (isFirst : Bool) (p : Race α → Prop) (hother : ∀ c, p c → p (c.turn through !isFirst))
    (hturn : ∀ c, p c → Ends through (c.turn through isFirst)) {c : Race α} (hc : p c) : Ends through c := by
  intro turns hfair
  obtain ⟨i, hi⟩ := hfair isFirst 0
  rw [Nat.zero_add] at hi
  induction i generalizing c turns with
  | zero =>
    obtain ⟨n, hn⟩ := hturn c hc _ hfair.tail
    exact ⟨n + 1, by rw [firstTurns_succ, play_cons, hi]; exact hn⟩
  | succ i ih =>
    obtain ⟨n, hn⟩ : ∃ n, ((c.turn through (turns 0)).play through
        (firstTurns (fun i => turns (i + 1)) n)).outcome?.isSome = true := by
      by_cases hfirst : turns 0 = isFirst
      · rw [hfirst]
        exact hturn c hc _ hfair.tail
      · rw [Bool.eq_not.2 hfirst]
        exact ih (hother c hc) _ hfair.tail hi
    exact ⟨n + 1, by rw [firstTurns_succ, play_cons]; exact hn⟩

theorem ends_of_done (a : α) (y : Script α) : ∀ t, Ends through ⟨.done a, y, t⟩ := by
  induction y with
  | done b => exact fun t turns _ => ⟨0, rfl⟩
  | step op next ih =>
    refine fun t => ends_of_turn false (fun c => c.first = .done a ∧ c.second = .step op next) ?_ ?_ ⟨rfl, rfl⟩
    · rintro ⟨_, _, t⟩ ⟨rfl, rfl⟩
      exact ⟨rfl, rfl⟩
    · rintro ⟨_, _, t⟩ ⟨rfl, rfl⟩
      cases hop : through op with
      | true =>
        simp only [turn, script, Script.move_step_of_through hop]
        exact fun turns _ => ⟨0, rfl⟩
      | false =>
        simp only [turn, script, Script.move_step hop]
        exact ih _ _

/-- **Both scripts end** if turns are fair, whatever they do to the files of each other. -/
theorem ends (c : Race α) : Ends through c := by
  obtain ⟨x, y, t⟩ := c
  induction x generalizing y t with
  | done a => exact ends_of_done a y t
  | step op next ih =>
    refine ends_of_turn true (fun c => c.first = .step op next) (fun _ h => h) ?_ rfl
    rintro ⟨_, y, t⟩ rfl
    cases hop : through op with
    | true =>
      simp only [turn, script, Script.move_step_of_through hop]
      exact ends_of_done _ _ _
    | false =>
      simp only [turn, script, Script.move_step hop]
      exact ih _ _ _

end Race

/-! ## Rely and guarantee -/

/-- From some files on, a script does to files only what `rely` allows, and it ends with what `post` says, also when
others do what `rely` allows before each of its turns and behind its end. -/
inductive Script.Safe (through : FileOp → Bool) (rely : FileTree → FileTree → Prop) (post : α → FileTree → Prop) :
    Script α → FileTree → Prop
  | done {a : α} {t : FileTree} (h : ∀ u, rely t u → post a u) : Safe through rely post (.done a) t
  | step {op : FileOp} {next : op.Answer → Script α} {t : FileTree}
      (guarantee : ∀ u, rely t u → rely u ((Script.step op next).move through u).2)
      (rest : ∀ u, rely t u → Safe through rely post ((Script.step op next).move through u).1
        ((Script.step op next).move through u).2) : Safe through rely post (.step op next) t

/-- Both scripts of a race are safe. -/
structure Race.Safe (through : FileOp → Bool) (rely : FileTree → FileTree → Prop) (post : α → FileTree → Prop)
    (c : Race α) : Prop where
  first : c.first.Safe through rely post c.files
  second : c.second.Safe through rely post c.files

section Safe

variable {rely : FileTree → FileTree → Prop} {post : α → FileTree → Prop} {t u : FileTree}

namespace Script

theorem Safe.of_rely [IsTrans FileTree rely] {x : Script α} (h : x.Safe through rely post t) (hu : rely t u) :
    x.Safe through rely post u := by
  cases h with
  | done h => exact .done fun v hv => h v (trans_of rely hu hv)
  | step guarantee rest =>
    exact .step (fun v hv => guarantee v (trans_of rely hu hv)) fun v hv => rest v (trans_of rely hu hv)

theorem Safe.move [Std.Refl rely] {x : Script α} (h : x.Safe through rely post t) :
    rely t (x.move through t).2 ∧ (x.move through t).1.Safe through rely post (x.move through t).2 := by
  cases h with
  | done h => exact ⟨refl_of rely t, .done h⟩
  | step guarantee rest => exact ⟨guarantee t (refl_of rely t), rest t (refl_of rely t)⟩

/-- An operation is safe if it does what others may do, and the script goes on safely. -/
theorem Safe.ofOp_bind {op : FileOp} {f : op.Answer → Script α} (hop : through op = false)
    (guarantee : ∀ u, rely t u → rely u (op.run u).2)
    (rest : ∀ u, rely t u → (f (op.run u).1).Safe through rely post (op.run u).2) :
    (ofOp op >>= f).Safe through rely post t := by
  refine Safe.step (fun u hu => ?_) (fun u hu => ?_)
  · rw [move_step hop]
    exact guarantee u hu
  · rw [move_step hop]
    exact rest u hu

/-- An operation that only looks is safe if the script goes on safely. -/
theorem Safe.look [Std.Refl rely] {op : FileOp} {f : op.Answer → Script α} (hop : through op = false)
    (hlook : ∀ u, (op.run u).2 = u) (rest : ∀ u, rely t u → (f (op.run u).1).Safe through rely post u) :
    (ofOp op >>= f).Safe through rely post t :=
  .ofOp_bind hop (fun u _ => (hlook u).symm ▸ refl_of rely u) fun u hu => (hlook u).symm ▸ rest u hu

theorem Safe.isFile [Std.Refl rely] {path : FilePath} {f : Bool → Script α} (hop : through (.isFile path) = false)
    (rest : ∀ u, rely t u → (f (u.isFile path)).Safe through rely post u) :
    (FileSystem.isFile path >>= f).Safe through rely post t := .look hop (fun _ => rfl) rest

theorem Safe.read [Std.Refl rely] {path : FilePath} {f : Except FileError Bytes → Script α}
    (hop : through (.read path) = false) (rest : ∀ u, rely t u → (f (u.read path)).Safe through rely post u) :
    (FileSystem.read path >>= f).Safe through rely post t := .look hop (fun _ => rfl) rest

theorem Safe.createDirs {path : FilePath} {f : Except FileError Unit → Script α}
    (hop : through (.createDirs path) = false)
    (guarantee : ∀ u, rely t u → rely u (u.createDirs path).1)
    (rest : ∀ u, rely t u → (f (u.createDirs path).2).Safe through rely post (u.createDirs path).1) :
    (FileSystem.createDirs path >>= f).Safe through rely post t := .ofOp_bind hop guarantee rest

/-- What is not interrupted is safe if, as a whole, it does what others may do and ends as it should. -/
theorem Safe.ofOp_bind_through {op : FileOp} {f : op.Answer → Script α} (hop : through op = true)
    (h : ∀ u, rely t u → rely u ((ofOp op >>= f).run u).2 ∧
      ∀ v, rely ((ofOp op >>= f).run u).2 v → post ((ofOp op >>= f).run u).1 v) :
    (ofOp op >>= f).Safe through rely post t := by
  refine Safe.step (fun u hu => ?_) (fun u hu => ?_)
  · rw [move_step_of_through hop]
    exact (h u hu).1
  · rw [move_step_of_through hop]
    exact .done (h u hu).2

/-- Making a file is safe if all that follows ends as it should, when this is not interrupted. -/
theorem Safe.create {path : FilePath} {f : Except FileError Unit → Script α} (hop : through (.create path) = true)
    (h : ∀ u, rely t u → rely u ((f (u.create path).2).run (u.create path).1).2 ∧
      ∀ v, rely ((f (u.create path).2).run (u.create path).1).2 v →
        post ((f (u.create path).2).run (u.create path).1).1 v) :
    (FileSystem.create path >>= f).Safe through rely post t := .ofOp_bind_through hop h

end Script

namespace Race

variable [Std.Refl rely] [IsTrans FileTree rely] {c : Race α}

/-- What one script does in its turn, the other one relies on. -/
theorem Safe.turn (h : c.Safe through rely post) (isFirst : Bool) :
    (c.turn through isFirst).Safe through rely post := by
  cases isFirst with
  | true => exact ⟨h.first.move.2, h.second.of_rely h.first.move.1⟩
  | false => exact ⟨h.first.of_rely h.second.move.1, h.second.move.2⟩

/-- Scripts that are safe stay so in all turns. -/
theorem Safe.play (turns : List Bool) : ∀ {c : Race α}, c.Safe through rely post →
    (c.play through turns).Safe through rely post := by
  induction turns with
  | nil => exact fun h => h
  | cons isFirst rest ih => exact fun h => ih (h.turn isFirst)

/-- **Scripts that are safe end as they should**, however they take turns. -/
theorem Safe.outcome (h : c.Safe through rely post) {turns : List Bool} {a b : α}
    (houtcome : (c.play through turns).outcome? = some (a, b, t)) : post a t ∧ post b t := by
  have hend := h.play turns
  rw [outcome?_eq_some houtcome] at hend
  obtain ⟨hfirst, hsecond⟩ := hend
  cases hfirst with
  | done ha =>
    cases hsecond with
    | done hb => exact ⟨ha t (refl_of rely t), hb t (refl_of rely t)⟩

end Race

end Safe

end Symbolicate
