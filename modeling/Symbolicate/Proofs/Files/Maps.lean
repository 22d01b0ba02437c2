import Mathlib.Tactic.Common
import Symbolicate.DebugFile.Mapped
import Symbolicate.Proofs.Files.Runs

/-!
# Maps of files

A map that has been made shows what lies at its location (`Follows`, `Follows.view`). Making directories and files and
writing leave it there (`KeepsMaps`), and only removing what lies at the location cuts it off (`Follows.remove`): from
then on it shows what has been removed, and nothing lies there. Opening a debug file makes a map of what is read
(`run_mappedOpenAt`).
-/

namespace Symbolicate

open FileTree

variable {t t' : FileTree} {path : FilePath} {k l : List String} {b : Bytes} {map size : Nat}

namespace FileTree

/-! ## Where maps are -/

/-- A map shows the file at a location, as far as this reached when it was mapped. -/
def Follows (t : FileTree) (map : Nat) (l : List String) (size : Nat) : Prop := t.maps[map]? = some ⟨l, size, none⟩

/-- What lies at a location does not depend on maps. -/
theorem contents?_of_entries_eq (h : t'.entries = t.entries) (l : List String) : t'.contents? l = t.contents? l := by
  rw [contents?, entry?, h, contents?, entry?]

/-- A map of a file that is as long as it was shows this file. -/
theorem Follows.view (h : t.Follows map l b.length) (hb : t.contents? l = some b) : t.view map = b := by
  rw [FileTree.view, h, Option.elim_some, shown]
  simp [hb]

theorem Follows.of_maps_eq (h : t.Follows map l size) (hmaps : t'.maps = t.maps) : t'.Follows map l size := by
  rwa [Follows, hmaps]

theorem Follows.of_more (h : t.Follows map l size) (hmaps : t.maps <+: t'.maps) : t'.Follows map l size := by
  obtain ⟨more, hmore⟩ := hmaps
  rw [Follows, ← hmore, List.getElem?_append_left (List.getElem?_eq_some_iff.1 h).1, h]

/-- **Removing a file** leaves a map where it is, unless nothing lies there any more. -/
theorem Follows.remove (h : t.Follows map l size) (path : FilePath) :
    (t.remove path).Follows map l size ∨ (t.remove path).contents? l = none := by
  by_cases hfile : ∃ k b, t.locate path = .ok k ∧ t.contents? k = some b
  · obtain ⟨k, b, hk, hb⟩ := hfile
    rw [remove_eq hk hb]
    by_cases hkl : k = l
    · subst hkl
      exact .inr (contents?_eq_none_iff.2 (.inl (entry?_erase_self (not_isFixed_of_notDir (notDir_of_contents? hb)))))
    · refine .inl ?_
      rw [Follows, erase, List.getElem?_map, h, Option.map_some, if_neg fun hcut => hkl hcut.1.symm]
  · rw [remove_eq_self fun k b hk hb => hfile ⟨k, b, hk, hb⟩]
    exact .inl h

/-! ## Operations -/

theorem maps_enter {piece : String} (h : t.enter l piece = .ok (t', k)) : t'.maps = t.maps := by
  unfold enter at h
  split at h <;> cases h <;> rfl

theorem maps_enterAll (pieces : List String) (t : FileTree) (l : List String) :
    (t.enterAll l pieces).1.maps = t.maps := by
  induction pieces generalizing t l with
  | nil => rfl
  | cons piece rest ih =>
    rw [enterAll]
    split
    · rfl
    · next u k henter => rw [ih, maps_enter henter]

theorem maps_createDirs (path : FilePath) : (t.createDirs path).1.maps = t.maps := by
  unfold createDirs
  split
  · rfl
  split
  · rfl
  next start _ =>
  have hall := maps_enterAll path.pieces t start
  split
  · next henter => rwa [henter] at hall
  · next henter => rwa [henter] at hall

theorem maps_create (path : FilePath) : (t.create path).1.maps = t.maps := by
  rw [create]
  cases t.fileLocation path <;> rfl

theorem maps_write (path : FilePath) (offset : Nat) (b : Bytes) : (t.write path offset b).1.maps = t.maps := by
  unfold write
  split
  · split <;> rfl
  · rfl

end FileTree

/-! ## Runs -/

/-- A run leaves all maps as they are. -/
def KeepsMaps {α : Type} (x : StateM FileTree α) : Prop := ∀ t, (x.run t).2.maps = t.maps

namespace KeepsMaps

variable {α β : Type}

protected theorem pure (a : α) : KeepsMaps (pure a) := fun _ => rfl

protected theorem bind {x : StateM FileTree α} {f : α → StateM FileTree β} (h : KeepsMaps x)
    (hf : ∀ a, KeepsMaps (f a)) : KeepsMaps (x >>= f) := fun t => (hf _ _).trans (h t)

/-- Looking at files leaves maps as they are. -/
theorem of_run {x : StateM FileTree α} (h : ∀ t, (x.run t).2 = t) : KeepsMaps x := fun t => congrArg FileTree.maps (h t)

theorem read (path : FilePath) : KeepsMaps (FileSystem.read path) := fun _ => rfl

theorem createDirs (path : FilePath) : KeepsMaps (FileSystem.createDirs path) := fun _ => maps_createDirs path

theorem create (path : FilePath) : KeepsMaps (FileSystem.create path) := fun _ => maps_create path

theorem writeChunks (path : FilePath) (fuel offset : Nat) (b : Bytes) :
    KeepsMaps (FileSystem.writeChunks path fuel offset b) := by
  induction fuel generalizing offset b with
  | zero => exact .pure _
  | succ fuel ih =>
    cases b with
    | nil => exact .pure _
    | cons first rest =>
      refine KeepsMaps.bind (fun t => maps_write path _ _) fun written => ?_
      cases written with
      | error e => exact .pure _
      | ok _ => exact ih _ _

end KeepsMaps

/-- A run leaves all maps as they are until it may remove a file as its last step. -/
def EndsRemoving {α : Type} (x : StateM FileTree α) : Prop :=
  ∀ t, ∃ u, u.maps = t.maps ∧ ((x.run t).2 = u ∨ ∃ path, (x.run t).2 = u.remove path)

namespace EndsRemoving

variable {α β : Type}

theorem of_keepsMaps {x : StateM FileTree α} (h : KeepsMaps x) : EndsRemoving x := fun t => ⟨_, h t, .inl rfl⟩

theorem remove (path : FilePath) (a : α) : EndsRemoving (do FileSystem.remove path; return a) :=
  fun t => ⟨t, rfl, .inr ⟨path, rfl⟩⟩

protected theorem bind {x : StateM FileTree α} {f : α → StateM FileTree β} (h : KeepsMaps x)
    (hf : ∀ a, EndsRemoving (f a)) : EndsRemoving (x >>= f) := by
  intro t
  obtain ⟨u, hmaps, hend⟩ := hf (x.run t).1 (x.run t).2
  exact ⟨u, hmaps.trans (h t), hend⟩

/-- **A map stays** where it is, unless nothing lies there in the end. -/
theorem follows {x : StateM FileTree α} (h : EndsRemoving x) (hfollows : t.Follows map l size) :
    (x.run t).2.Follows map l size ∨ (x.run t).2.contents? l = none := by
  obtain ⟨u, hmaps, hend | ⟨path, hend⟩⟩ := h t
  · exact .inl (hend ▸ hfollows.of_maps_eq hmaps)
  · exact hend ▸ (hfollows.of_maps_eq hmaps).remove path

end EndsRemoving

/-! ## Opening -/

theorem run_map : ((MappedFiles.map path : StateM FileTree _).run t) = (t.map path).swap := rfl

theorem run_view : ((MappedFiles.view map : StateM FileTree _).run t) = (t.view map, t) := rfl

theorem run_mappedOpenAt_of_map (hmap : t.map path = (t', .ok map)) (hview : t'.view map = b) :
    ((MappedDebugFile.openAt path : StateM FileTree _).run t) = ((DebugFile.read b).map (⟨·, .of b, map⟩), t') := by
  rw [MappedDebugFile.openAt, run_bind, run_map, hmap]
  show StateT.run (MappedFiles.view map >>= _) t' = _
  rw [run_bind, run_view, hview]
  cases DebugFile.read b <;> rfl

/-- **Opening a debug file** reads what lies there, and a map of it is left behind. -/
theorem run_mappedOpenAt (hl : t.locate path = .ok l) (hb : t.contents? l = some b) :
    ((MappedDebugFile.openAt path : StateM FileTree _).run t) =
      ((DebugFile.read b).map (⟨·, .of b, t.maps.length⟩), { t with maps := t.maps ++ [⟨l, b.length, none⟩] }) := by
  have hmap : t.map path = ({ t with maps := t.maps ++ [⟨l, b.length, none⟩] }, .ok t.maps.length) := by
    simp only [FileTree.map, hl, contents?_eq_some_iff.1 hb]
  have hfollows : ({ t with maps := t.maps ++ [⟨l, b.length, none⟩] } : FileTree).Follows t.maps.length l b.length := by
    simp [Follows]
  exact run_mappedOpenAt_of_map hmap (hfollows.view hb)

/-- A path that leads to no file leaves nothing behind. -/
theorem run_mappedOpenAt_of_error {e : FileError} (h : t.read path = .error e) :
    ((MappedDebugFile.openAt path : StateM FileTree _).run t) = (.error .unreadable, t) := by
  have hmap : ∃ e', t.map path = (t, .error e') := by
    unfold FileTree.map
    split
    · exact ⟨_, rfl⟩
    next l hl =>
    split
    · next b hb =>
      rw [read_eq_ok.2 ⟨l, hl, contents?_eq_some_iff.2 hb⟩] at h
      cases h
    · exact ⟨_, rfl⟩
    · exact ⟨_, rfl⟩
  obtain ⟨e', hmap⟩ := hmap
  rw [MappedDebugFile.openAt, run_bind, run_map, hmap]
  rfl

/-- Opening a debug file adds to the maps at most, and leaves the files as they are. -/
theorem mappedOpenAt_adds (path : FilePath) (t : FileTree) :
    let u := ((MappedDebugFile.openAt path : StateM FileTree _).run t).2
    u.entries = t.entries ∧ t.maps <+: u.maps := by
  cases hread : t.read path with
  | error e =>
    rw [run_mappedOpenAt_of_error hread]
    exact ⟨rfl, List.prefix_refl _⟩
  | ok b =>
    obtain ⟨l, hl, hb⟩ := read_eq_ok.1 hread
    rw [run_mappedOpenAt hl hb]
    exact ⟨rfl, List.prefix_append _ _⟩

end Symbolicate
