import Mathlib.Tactic.Common
import Symbolicate.Store.Basic

/-!
# The order of a search

The search for a debug file goes through places of three kinds, their layouts, and the caches of stores. All this is one
list of paths (`candidates`): whatever the files live in, a search looks for the first of them that is verified
(`search_eq`), so neither the kinds of places nor what else lies on the path plays a part.
-/

namespace Symbolicate.SymbolStore

variable {request : DebugFileRequest}

/-! ## Candidates -/

/-- The paths of a debug file in the layout of a store with the given root, by key. -/
def layouts (request : DebugFileRequest) (root : FilePath) : List FilePath :=
  request.debugId.searchKeys.map fun key => root.join (request.layout key)

/-- The paths of a debug file in one place. `downstream` is the cache of a store without one of its own. -/
def candidatesIn (request : DebugFileRequest) (downstream : FilePath) : SymbolPathElement → List FilePath
  | .directory dir => dir.join ⟨request.name⟩ :: layouts request dir
  | .cache dir => layouts request dir
  | .store own target =>
    layouts request (own.getD downstream) ++
      if SymbolPathElement.isRemoteTarget target then [] else layouts request ⟨target⟩

/-- The directory of a cache. -/
def cacheDir? : SymbolPathElement → Option FilePath
  | .cache dir => some dir
  | _ => none

/-- The cache of a store behind some places: that of the nearest cache, or else the default one. -/
def nearestCache (default : FilePath) (before : List SymbolPathElement) : FilePath :=
  (before.reverse.findSome? cacheDir?).getD default

/-- The paths that a search tries, in order. -/
def candidates (s : SymbolStore) (request : DebugFileRequest) : List FilePath :=
  (s.path.elements.mapIdx fun i place =>
    candidatesIn request (nearestCache s.defaultCache (s.path.elements.take i)) place).flatten

/-! ## Searching -/

/-- Behind one more place, the cache of that place is the nearest one. -/
theorem downstreamOf_nearestCache (default : FilePath) (before : List SymbolPathElement) (place : SymbolPathElement) :
    downstreamOf (nearestCache default before) place = nearestCache default (before ++ [place]) := by
  rw [nearestCache, nearestCache, List.reverse_append]
  cases place <;> rfl

variable {m : Type → Type} [Monad m] [LawfulMonad m] [FileSystem m]

theorem firstVerified_append (paths rest : List FilePath) : (firstVerified request (paths ++ rest) : m _) =
    firstVerified request paths >>= fun found => match found with
      | some path => pure (some path)
      | none => firstVerified request rest := by
  induction paths with
  | nil => simp [firstVerified]
  | cons path paths ih =>
    simp only [List.cons_append, firstVerified, bind_assoc, ih]
    refine bind_congr fun isVerified => ?_
    cases isVerified <;> simp

theorem searchPlace_eq (downstream : FilePath) (place : SymbolPathElement) :
    (searchPlace request downstream place : m _) = firstVerified request (candidatesIn request downstream place) := by
  cases place with
  | directory dir => rfl
  | cache dir => rfl
  | store own target =>
    rw [candidatesIn, firstVerified_append]
    refine bind_congr fun found => ?_
    cases found with
    | some path => rfl
    | none =>
      dsimp only
      split <;> rfl

theorem searchPlaces_eq (default : FilePath) (rest : List SymbolPathElement) :
    ∀ before, (searchPlaces request (nearestCache default before) rest : m _) = firstVerified request
      (rest.mapIdx fun i place =>
        candidatesIn request (nearestCache default (before ++ rest.take i)) place).flatten := by
  induction rest with
  | nil => exact fun _ => rfl
  | cons place rest ih =>
    intro before
    have htail := ih (before ++ [place])
    rw [← downstreamOf_nearestCache] at htail
    have hcut : ∀ i, before ++ (place :: rest).take (i + 1) = before ++ [place] ++ rest.take i := fun i => by simp
    simp only [List.mapIdx_cons, List.flatten_cons, List.take_zero, List.append_nil, hcut]
    rw [firstVerified_append, ← htail, ← searchPlace_eq]
    rfl

/-- **A search looks for the first candidate that is verified**, whatever the files live in. -/
theorem search_eq (s : SymbolStore) :
    (s.search request : m _) = firstVerified request (s.candidates request) :=
  searchPlaces_eq s.defaultCache s.path.elements []

end Symbolicate.SymbolStore
