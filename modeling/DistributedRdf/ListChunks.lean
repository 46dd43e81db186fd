import Mathlib.Algebra.Group.Action.Defs
import Mathlib.Algebra.Order.BigOperators.Group.List
import Mathlib.Algebra.Order.Ring.Nat
import Mathlib.Data.List.Basic

namespace DistributedRdf.PyCompss

open List

/-!
# Chunks of a list

`chunks` cuts a list into fragments of `n` items.  If they are to be balanced,
what the division leaves over is spread over the first fragments, one item each.
-/

namespace Chunks

section

variable
  {Item : Type u}
  (l : List Item)

/-- `l[start:stop]` for bounds that are not negative -/
def slice (start stop : Nat) : List Item :=
  (l.take stop).drop start

/-- `xrange(start, stop, step)` for a step that is positive -/
def xrange (start stop step : Nat) : List Nat :=
  range' start ((stop - start + step - 1) / step) step

/-- The loop that yields `l[i:i + n]` -/
def fragmentsFrom
    (n start : Nat) : List (List Item) :=
  (xrange start l.length n).map fun i => slice l i (i + n)

/-- The loop over `rest`, and the `start` that it leaves -/
def longFragments
    (l : List Item)
    (n : Nat) :
    (rest start : Nat) → List (List Item) × Nat
  | 0, start => ([], start)
  | rest + 1, start =>
      let (fragments, stop) := longFragments l n rest (start + n + 1)
      (slice l start (start + n + 1) :: fragments, stop)

variable
  (n : Nat)
  (balanced : Bool)

def chunks : List (List Item) :=
  if !balanced || l.length % n = 0 then
    fragmentsFrom l n 0
  else
    let (fragments, start) := longFragments l n (l.length % n) 0
    fragments ++ fragmentsFrom l n start

/-- Nothing is lost, nothing is empty and balanced fragments are balanced. -/
structure Balanced : Prop where
  whole : (chunks l n balanced).flatten = l
  nonempty : ∀ fragment ∈ chunks l n balanced, fragment ≠ []
  sizes :
    balanced = true →
      ∀ fragment ∈ chunks l n balanced,
        fragment.length = n ∨ fragment.length = n + 1

end

/-!
## Slices next to each other
-/

section

variable
  {Item : Type u}
  {l : List Item}
  {n start : Nat}

theorem length_slice (start stop : Nat) :
    (slice l start stop).length = min stop l.length - start := by
  rw [slice, length_drop, length_take]

theorem slice_of_length_le
    {stop : Nat}
    (past : l.length ≤ stop) :
    slice l start stop = l.drop start := by
  rw [slice, take_of_length_le past]

theorem slice_append_slice
    {middle stop : Nat}
    (before : start ≤ middle)
    (after : middle ≤ stop) :
    slice l start middle ++ slice l middle stop = slice l start stop := by
  have front : l.take middle = (l.take stop).take middle := by
    rw [take_take, Nat.min_eq_left after]
  rw [slice, slice, slice, front, drop_take]
  have parts :=
    take_append_drop (middle - start) ((l.take stop).drop start)
  rwa [drop_drop, Nat.add_sub_cancel' before] at parts

/-- The slices of a range of positions make up one slice. -/
theorem flatten_slices (start count step : Nat) :
    ((range' start count step).map fun i =>
        slice l i (i + step)).flatten =
      slice l start (start + count * step) := by
  induction count generalizing start with
  | zero => simp [slice]
  | succ count hypothesis =>
      rw [range'_succ, map_cons, flatten_cons,
        hypothesis,
        slice_append_slice (Nat.le_add_right _ _) (Nat.le_add_right _ _)]
      congr 1
      rw [Nat.succ_mul]
      omega

theorem mem_xrange
    {i stop step : Nat}
    (positive : 0 < step)
    (member : i ∈ xrange start stop step) :
    i < stop := by
  obtain ⟨round, inRange, rfl⟩ := mem_range'.mp member
  have rounds := (Nat.lt_div_iff_mul_lt positive).mp inRange
  rw [Nat.mul_comm] at rounds
  omega

/-- A range reaches its end. -/
theorem le_of_xrange
    {stop step : Nat}
    (positive : 0 < step) :
    stop ≤ start + (stop - start + step - 1) / step * step := by
  have rounded := Nat.lt_div_mul_add positive (a := stop - start + step - 1)
  omega

/-!
## The two loops
-/

theorem flatten_fragmentsFrom (positive : 0 < n) :
    (fragmentsFrom l n start).flatten = l.drop start := by
  rw [fragmentsFrom, xrange, flatten_slices,
    slice_of_length_le (le_of_xrange positive)]

variable {fragment : List Item}

theorem nonempty_of_mem_fragmentsFrom
    (positive : 0 < n)
    (member : fragment ∈ fragmentsFrom l n start) :
    fragment ≠ [] := by
  obtain ⟨i, inRange, rfl⟩ := mem_map.mp member
  have inList := mem_xrange positive inRange
  refine ne_nil_of_length_pos ?_
  rw [length_slice]
  omega

/-- The first fragments have one item more while the list lasts. -/
theorem longFragments_eq (rest start : Nat) :
    longFragments l n rest start =
      ((range' start rest (n + 1)).map fun i => slice l i (i + (n + 1)),
        start + rest * (n + 1)) := by
  induction rest generalizing start with
  | zero => simp [longFragments]
  | succ rest hypothesis =>
      rw [longFragments, hypothesis, range'_succ, map_cons,
        Nat.succ_mul, Nat.add_assoc start n 1]
      refine Prod.ext rfl ?_
      simp only
      omega

theorem flatten_chunks
    {balanced : Bool}
    (positive : 0 < n) :
    (chunks l n balanced).flatten = l := by
  rw [chunks]
  split
  · exact flatten_fragmentsFrom positive
  · rw [longFragments_eq]
    simp only [Nat.zero_add, flatten_append]
    rw [flatten_slices, flatten_fragmentsFrom positive, Nat.zero_add, slice,
      drop_zero, take_append_drop]

/-- The fragments are full where the list ends with a fragment. -/
theorem length_of_mem_fragmentsFrom
    {count : Nat}
    (positive : 0 < n)
    (full : l.length = start + count * n)
    (member : fragment ∈ fragmentsFrom l n start) :
    fragment.length = n := by
  obtain ⟨i, inRange, rfl⟩ := mem_map.mp member
  have inList := mem_xrange positive inRange
  obtain ⟨round, -, rfl⟩ := mem_range'.mp inRange
  have earlier : round < count := by
    rw [full, Nat.mul_comm n] at inList
    exact Nat.lt_of_mul_lt_mul_right (Nat.lt_of_add_lt_add_left inList)
  have stops : (round + 1) * n ≤ count * n := Nat.mul_le_mul_right n earlier
  rw [Nat.succ_mul] at stops
  rw [length_slice, Nat.mul_comm n]
  omega

/-- The long fragments are full where the list has room for all of them. -/
theorem length_of_mem_longFragments
    {rest : Nat}
    (room : rest * (n + 1) ≤ l.length)
    (member : fragment ∈ (longFragments l n rest 0).1) :
    fragment.length = n + 1 := by
  rw [longFragments_eq] at member
  obtain ⟨i, inRange, rfl⟩ := mem_map.mp member
  obtain ⟨round, earlier, rfl⟩ := mem_range'.mp inRange
  have stops : (round + 1) * (n + 1) ≤ rest * (n + 1) :=
    Nat.mul_le_mul_right (n + 1) earlier
  rw [Nat.succ_mul] at stops
  rw [length_slice, Nat.mul_comm (n + 1) round]
  omega

theorem length_eq_of_rest_le
    (enough : l.length % n ≤ l.length / n) :
    l.length =
      l.length % n * (n + 1) + (l.length / n - l.length % n) * n := by
  have division := Nat.div_add_mod l.length n
  have spread :
      l.length / n * n =
        l.length % n * n + (l.length / n - l.length % n) * n := by
    rw [← Nat.add_mul, Nat.add_sub_cancel' enough]
  rw [Nat.mul_succ]
  rw [Nat.mul_comm] at division
  omega

/-- Fragments that are all long enough leave room for the rest. -/
theorem rest_le_of_sizes
    {fragments : List (List Item)}
    (positive : 0 < n)
    (whole : fragments.flatten = l)
    (sizes : ∀ fragment ∈ fragments, n ≤ fragment.length)
    (many : l.length % n ≤ fragments.length) :
    l.length % n ≤ l.length / n := by
  have division := Nat.div_add_mod l.length n
  have small := Nat.mod_lt l.length positive
  have total : fragments.length * n ≤ l.length := by
    have lengths := card_nsmul_le_sum (fragments.map length) n (by
      intro length isLength
      obtain ⟨fragment, member, rfl⟩ := mem_map.mp isLength
      exact sizes fragment member)
    rwa [length_map, smul_eq_mul, ← length_flatten, whole] at lengths
  by_contra few
  have more : (l.length / n + 1) * n ≤ fragments.length * n :=
    Nat.mul_le_mul_right n (by omega)
  rw [Nat.succ_mul, Nat.mul_comm] at more
  omega

/--
The fragments are balanced if and only if the rest of the division is not more
than the number of fragments that it is spread over.
-/
theorem balanced_iff
    {balanced : Bool}
    (positive : 1 ≤ n) :
    Balanced l n balanced ↔
      (balanced = true → l.length % n ≤ l.length / n) := by
  constructor
  · rintro ⟨whole, -, sizes⟩ isBalanced
    by_cases divides : l.length % n = 0
    · rw [divides]
      exact Nat.zero_le _
    · refine rest_le_of_sizes positive whole ?_ ?_
      · intro fragment member
        have size := sizes isBalanced fragment member
        omega
      · have cut :
            chunks l n balanced =
              (longFragments l n (l.length % n) 0).1 ++
                fragmentsFrom l n (longFragments l n (l.length % n) 0).2 := by
          rw [chunks, if_neg (by simp [isBalanced, divides])]
        rw [cut, longFragments_eq]
        simp
  · intro enough
    refine ⟨flatten_chunks positive, ?_, ?_⟩
    · intro fragment member
      rw [chunks] at member
      split at member
      · exact nonempty_of_mem_fragmentsFrom positive member
      case isFalse uneven =>
        have isBalanced : balanced = true := by
          by_contra notBalanced
          exact uneven (by simp [notBalanced])
        have spread := length_eq_of_rest_le (enough isBalanced)
        rcases mem_append.mp member with isLong | isShort
        · have length := length_of_mem_longFragments (by omega) isLong
          exact ne_nil_of_length_eq_add_one length
        · exact nonempty_of_mem_fragmentsFrom positive isShort
    · intro isBalanced fragment member
      have spread := length_eq_of_rest_le (enough isBalanced)
      rw [chunks] at member
      split at member
      case isTrue even =>
        have divides : l.length % n = 0 := by simpa [isBalanced] using even
        have full : l.length = 0 + l.length / n * n := by
          rw [divides] at spread
          simpa using spread
        exact .inl (length_of_mem_fragmentsFrom positive full member)
      case isFalse uneven =>
        rcases mem_append.mp member with isLong | isShort
        · exact .inr (length_of_mem_longFragments (by omega) isLong)
        · have full :
              l.length =
                (longFragments l n (l.length % n) 0).2 +
                  (l.length / n - l.length % n) * n := by
            rw [longFragments_eq]
            simpa using spread
          exact .inl (length_of_mem_fragmentsFrom positive full isShort)

theorem balanced_sevenItems : Balanced (range 7) 3 true :=
  (balanced_iff (by decide)).mpr (by decide)

/-- The first fragment takes four of five items and leaves one. -/
theorem not_balanced_fiveItems :
    chunks (range 5) 3 true = [[0, 1, 2, 3], [4]] ∧
      ¬ Balanced (range 5) 3 true := by
  refine ⟨by decide, fun balanced => ?_⟩
  have sizes := balanced.sizes rfl [4] (by decide)
  exact absurd sizes (by decide)

end

end Chunks

end DistributedRdf.PyCompss
