/-!
# Quicksort

A sort that may change the order of equal items, by rules that depend on nothing but the comparisons. Lists that are
ordered already, either way, and short pieces keep the order of equal items. A longer piece is divided at a pivot; when
that has been done too often, a heap orders what is left.

Main definition: `Quicksort.sort`.
-/

namespace Symbolicate.Quicksort

variable {α : Type} (less : α → α → Bool)

/-- The items in order, equal ones as they were. -/
def stable (v : List α) : List α := v.mergeSort fun a b => ! less b a

/-- Whether the item at one position comes before the one at another. -/
def lessAt (v : Array α) (i j : Nat) : Bool :=
  match v[i]?, v[j]? with
  | some a, some b => less a b
  | _, _ => false

/-! ## The pivot -/

/-- The position of the middle one of three items. -/
def median (v : Array α) (a b c : Nat) : Nat :=
  let before := lessAt less v a b
  if lessAt less v a c = before then
    if lessAt less v b c = before then b else c
  else a

/-- The position of the middle one of three items, each of which is the middle of three in turn as long as there are
eight items to choose from; `n` is the number of items behind each position. -/
def medianOfMedians (v : Array α) (a b c n : Nat) : Nat :=
  if 8 ≤ n then
    let d := n / 8
    let middle (i : Nat) : Nat := medianOfMedians v i (i + 4 * d) (i + 7 * d) d
    median less v (middle a) (middle b) (middle c)
  else median less v a b c
termination_by n

def pivotIndex (v : Array α) : Nat :=
  let d := v.size / 8
  medianOfMedians less v 0 (4 * d) (7 * d) d

/-! ## Dividing -/

/-- The list with its first item moved to the end. -/
def rotate : List α → List α
  | [] => []
  | a :: rest => rest ++ [a]

/-- The list with its last item moved to the front. -/
def rotateBack (v : List α) : List α :=
  match v.getLast? with
  | none => []
  | some a => a :: v.dropLast

/-- Puts one more item behind those that pass a test, or in front of those that do not; the latter move on by one. -/
def place (test : α → Bool) (parts : List α × List α) (a : α) : List α × List α :=
  if test a then (parts.1 ++ [a], rotate parts.2) else (parts.1, a :: rotate parts.2)

/-- The items that pass a test and those that do not. The first item is the last to be placed. -/
def divide (test : α → Bool) (v : List α) : List α × List α :=
  let (passed, failed) := (rotate v).foldl (place test) ([], [])
  (rotateBack passed, failed)

/-- The item at a position, and the others with the first one in its place. -/
def takeOut (i : Nat) : List α → Option (α × List α)
  | [] => none
  | a :: rest =>
    match i with
    | 0 => some (a, rest)
    | j + 1 => rest[j]?.map fun b => (b, rest.set j a)

/-! ## The heap -/

/-- Moves the item at a node down among the first `bound` items until no child comes after it, at most `fuel` times. -/
def siftDown (bound : Nat) : Nat → Nat → Array α → Array α
  | 0, _, v => v
  | fuel + 1, node, v =>
    let left := 2 * node + 1
    let child := if left + 1 < bound && lessAt less v left (left + 1) then left + 1 else left
    if child < bound && lessAt less v node child then siftDown bound fuel child (v.swapIfInBounds node child) else v

/-- One step of ordering by a heap: first the heap is built, then its greatest item goes to the end. -/
def heapStep (v : Array α) (i : Nat) : Array α :=
  if v.size ≤ i then siftDown less v.size v.size (i - v.size) v
  else siftDown less i v.size 0 (v.swapIfInBounds 0 i)

/-- The items in order, by a heap. -/
def heapsort (v : List α) : List α :=
  ((List.range (v.length + v.length / 2)).reverse.foldl (heapStep less) v.toArray).toList

/-! ## Sorting -/

/-- The greatest length of a short piece. -/
def shortLength : Nat := 32

/-- The items in order, divided at most `limit` times on the way to each piece. An item that is known to come before
all items, or to be equal to them, is in `floor`: pieces of items equal to it are not ordered any further. -/
def pieces : Nat → Option α → List α → List α
  | 0, _, v => if v.length ≤ shortLength then stable less v else heapsort less v
  | limit + 1, floor, v =>
    if v.length ≤ shortLength then stable less v
    else
      match takeOut (pivotIndex less v.toArray) v with
      | none => v
      | some (pivot, rest) =>
        if floor.any fun a => ! less a pivot then
          let (equal, above) := divide (fun a => ! less pivot a) rest
          equal ++ pivot :: pieces limit none above
        else
          let (below, others) := divide (fun a => less a pivot) rest
          pieces limit floor below ++ pivot :: pieces limit (some pivot) others

/-- Whether the items are in order, or each comes before the one in front of it. -/
def isRun (v : List α) : Bool :=
  let pairs := v.zip v.tail
  pairs.all (fun (a, b) => ! less b a) || pairs.all (fun (a, b) => less b a)

def sort (v : List α) : List α :=
  if isRun less v then stable less v else pieces less (2 * v.length.log2) none v

end Symbolicate.Quicksort
