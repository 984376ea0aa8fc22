/-!
In-place unstable sorting of an array by a strict order `less`, as an introspective quicksort:
insertion for short arrays, a reversal for one descending run, otherwise quicksort with a
pseudo-median pivot and a cyclic partition, sorting networks for short ranges, and heapsort when
too many partitions were unbalanced. Which of several equal elements ends up first depends on
every step, so each step is spelled out exactly.
-/

namespace ConicForm.Arrange

variable {α : Type} [Inhabited α] (less : α → α → Bool)

def entry (v : Array α) (i : Nat) : α := v.getD i default

def exchange (v : Array α) (i j : Nat) : Array α :=
  (v.setIfInBounds i (entry v j)).setIfInBounds j (entry v i)

def placeDown (lo : Nat) (x : α) : Nat → Array α → Array α
  | 0, v => v.setIfInBounds 0 x
  | j + 1, v =>
    if lo < j + 1 && less x (entry v j) then placeDown lo x j (v.setIfInBounds (j + 1) (entry v j))
    else v.setIfInBounds (j + 1) x

def insertionFrom (v : Array α) (lo hi done : Nat) : Array α :=
  (List.range (hi - (lo + done))).foldl
    (fun v k => let i := lo + done + k; placeDown less lo (entry v i) i v) v

def swapIfLess (base : Nat) (v : Array α) (ab : Nat × Nat) : Array α :=
  if less (entry v (base + ab.2)) (entry v (base + ab.1)) then
    exchange v (base + ab.1) (base + ab.2)
  else v

def network9 : List (Nat × Nat) :=
  [(0, 3), (1, 7), (2, 5), (4, 8), (0, 7), (2, 4), (3, 8), (5, 6), (0, 2), (1, 3), (4, 5),
    (7, 8), (1, 4), (3, 6), (5, 7), (0, 1), (2, 4), (3, 5), (6, 8), (2, 3), (4, 5), (6, 7),
    (1, 2), (3, 4), (5, 6)]

def network13 : List (Nat × Nat) :=
  [(0, 12), (1, 10), (2, 9), (3, 7), (5, 11), (6, 8), (1, 6), (2, 3), (4, 11), (7, 9),
    (8, 10), (0, 4), (1, 2), (3, 6), (7, 8), (9, 10), (11, 12), (4, 6), (5, 9), (8, 11),
    (10, 12), (0, 5), (3, 8), (4, 7), (6, 11), (9, 10), (0, 1), (2, 5), (6, 9), (7, 8),
    (10, 11), (1, 3), (2, 4), (5, 6), (9, 10), (1, 2), (3, 4), (5, 7), (6, 8), (2, 3), (4, 5),
    (6, 7), (8, 9), (3, 4), (5, 6)]

/-- Sort `[lo, hi)`: a network on its first thirteen or nine entries when it has that many,
then insertion of the rest. -/
def sortRegion (v : Array α) (lo hi : Nat) : Array α :=
  if hi - lo ≥ 13 then insertionFrom less (network13.foldl (swapIfLess less lo) v) lo hi 13
  else if hi - lo ≥ 9 then insertionFrom less (network9.foldl (swapIfLess less lo) v) lo hi 9
  else insertionFrom less v lo hi 1

def mergeStable : List α → List α → List α
  | [], ys => ys
  | xs, [] => xs
  | x :: xs, y :: ys =>
    if less y x then y :: mergeStable (x :: xs) ys else x :: mergeStable xs (y :: ys)
termination_by xs ys => xs.length + ys.length

def writeFrom (v : Array α) (lo : Nat) (xs : List α) : Array α :=
  (xs.zipIdx lo).foldl (fun v p => v.setIfInBounds p.2 p.1) v

/-- Sort a range of at most 32 entries: one region below 18 entries, else both halves
sorted and merged. -/
def smallSort (v : Array α) (lo hi : Nat) : Array α :=
  if hi - lo < 2 then v
  else if hi - lo < 18 then sortRegion less v lo hi
  else
    let mid := lo + (hi - lo) / 2
    let v := sortRegion less (sortRegion less v lo mid) mid hi
    let left := (List.range (mid - lo)).map fun k => entry v (lo + k)
    let right := (List.range (hi - mid)).map fun k => entry v (mid + k)
    writeFrom v lo (mergeStable less left right)

def median3 (v : Array α) (a b c : Nat) : Nat :=
  let x := less (entry v a) (entry v b)
  let y := less (entry v a) (entry v c)
  if x == y then (if less (entry v b) (entry v c) != x then c else b) else a

def median3Rec (v : Array α) (a b c n : Nat) : Nat :=
  if h : n * 8 ≥ 64 then
    let n8 := n / 8
    median3 less v (median3Rec v a (a + n8 * 4) (a + n8 * 7) n8)
      (median3Rec v b (b + n8 * 4) (b + n8 * 7) n8) (median3Rec v c (c + n8 * 4) (c + n8 * 7) n8)
  else median3 less v a b c
termination_by n
decreasing_by all_goals omega

/-- The pivot of `[lo, hi)`, at least eight entries: the median of the entries at eighths
zero, four and seven, or their recursive pseudo-median from 64 entries on. -/
def choosePivot (v : Array α) (lo hi : Nat) : Nat :=
  let n8 := (hi - lo) / 8
  if hi - lo < 64 then median3 less v lo (lo + n8 * 4) (lo + n8 * 7)
  else median3Rec less v lo (lo + n8 * 4) (lo + n8 * 7) n8

def cycleStep (p : α) (st : Array α × Nat × Nat) (x : α) (r : Nat) : Array α × Nat × Nat :=
  let (v, gap, numLt) := st
  let v := v.setIfInBounds gap (entry v numLt)
  let v := v.setIfInBounds numLt x
  (v, r, numLt + (if less x p then 1 else 0))

/-- Partition `[lo, hi)` around the entry at `lo + pivot`: it is moved to the front, the
rest is split by a cyclic branchless pass into the entries less than it and the others, and
it is moved between them. Returns the array and the number of entries less than it. -/
def partition (v : Array α) (lo hi pivot : Nat) : Array α × Nat :=
  let v := exchange v lo (lo + pivot)
  let p := entry v lo
  let base := lo + 1
  if hi ≤ base then (v, 0)
  else
    let saved := entry v base
    let st := (List.range (hi - base - 1)).foldl
      (fun st k => cycleStep less p st (entry st.1 (base + 1 + k)) (base + 1 + k))
      (v, base, base)
    let (v, _, numLt) := cycleStep less p st saved hi
    let numLt := numLt - base
    (exchange v lo (lo + numLt), numLt)

def siftDown (v : Array α) (lo len : Nat) : Nat → Nat → Array α
  | 0, _ => v
  | fuel + 1, node =>
    let child := 2 * node + 1
    if child ≥ len then v
    else
      let child :=
        if child + 1 < len && less (entry v (lo + child)) (entry v (lo + child + 1)) then child + 1
        else child
      if !less (entry v (lo + node)) (entry v (lo + child)) then v
      else siftDown (exchange v (lo + node) (lo + child)) lo len fuel child

def heapsort (v : Array α) (lo hi : Nat) : Array α :=
  let n := hi - lo
  (List.range (n + n / 2)).reverse.foldl
    (fun v i =>
      if i ≥ n then siftDown less v lo n n (i - n)
      else siftDown less (exchange v lo (lo + i)) lo i n 0)
    v

/-- Quicksort of `[lo, hi)`. Ranges of at most 32 entries go to the small sort, and to
heapsort once `limit` unbalanced steps are used up. When the pivot is not greater than the
pivot of an enclosing step, which is at most every entry here, the entries equal to it are
split off and only the greater ones are sorted further. Otherwise the left part is sorted
recursively and the right part with this pivot as the enclosing one. Each step removes its
pivot from the range, so `fuel` at least the range's length always suffices. -/
def quicksort : Nat → Array α → Nat → Nat → Option α → Nat → Array α
  | 0, v, _, _, _, _ => v
  | fuel + 1, v, lo, hi, ancestor, limit =>
    if hi - lo ≤ 32 then smallSort less v lo hi
    else if limit = 0 then heapsort less v lo hi
    else
      let pivot := choosePivot less v lo hi - lo
      let equalRun := match ancestor with
        | some a => !less a (entry v (lo + pivot))
        | none => false
      if equalRun then
        let (v, numLt) := partition (fun a b => !less b a) v lo hi pivot
        quicksort fuel v (lo + numLt + 1) hi none (limit - 1)
      else
        let (v, numLt) := partition less v lo hi pivot
        let v := quicksort fuel v lo (lo + numLt) ancestor (limit - 1)
        quicksort fuel v (lo + numLt + 1) hi (some (entry v (lo + numLt))) (limit - 1)

/-- The length of the run at the front: strictly descending when the second entry is less
than the first, else ascending; with whether it descends. -/
def leadingRun (v : Array α) : Nat × Bool :=
  let desc := less (entry v 1) (entry v 0)
  let run := (List.range (v.size - 2)).foldl
    (fun (run : Nat × Bool) k =>
      let i := k + 2
      if run.2 && (less (entry v i) (entry v (i - 1)) == desc) then (i + 1, true)
      else (run.1, false))
    (2, true)
  (run.1, desc)

def stepLimit (n : Nat) : Nat := 2 * Nat.log2 (n ||| 1)

/-- Sort an array by `less`, unstably. -/
def sortBy (v : Array α) : Array α :=
  let n := v.size
  if n < 2 then v
  else if n ≤ 20 then insertionFrom less v 0 n 1
  else
    let (run, desc) := leadingRun less v
    if run = n then (if desc then v.reverse else v)
    else quicksort less n v 0 n none (stepLimit n)

end ConicForm.Arrange
