import Mathlib

namespace DistributedRdf.SegmentQueue

open List

/-!
# Queues whose first two entries are joined

The first two segments of a queue are taken out and what they make together is
put at its end, until one segment is left.  The rounds go around the queue, so
that the last segment is not the queue from its front to its end: it is rotated
by two segments for each one that the queue has over a power of two.
-/

variable {α : Type u}

/-- One round, which needs two segments -/
def joinFirst : List (List α) → List (List α)
  | first :: second :: rest => rest ++ [first ++ second]
  | segments => segments

/-- How many segments come behind the others in the end -/
def moved (length : Nat) : Nat :=
  2 * (length - 2 ^ Nat.log 2 length)

/-- What is left when all segments have been joined -/
def joinedAll (segments : List (List α)) : List α :=
  (segments.rotate (moved segments.length)).flatten

/-!
## How many segments are moved
-/

theorem moved_pow (exponent : Nat) : moved (2 ^ exponent) = 0 := by
  rw [moved, Nat.log_pow Nat.one_lt_two, Nat.sub_self]

/-- Every other length lies between a power of two and the next one. -/
theorem moved_of_lt
    {length exponent : Nat}
    (lower : 2 ^ exponent ≤ length)
    (upper : length < 2 ^ (exponent + 1)) :
    moved length = 2 * (length - 2 ^ exponent) := by
  rw [moved, Nat.log_eq_of_pow_le_of_lt_pow lower upper]

variable {length : Nat}

theorem moved_lt
    (nonempty : length ≠ 0) :
    moved length < length := by
  have upper := Nat.lt_pow_succ_log_self Nat.one_lt_two length
  rw [Nat.pow_succ] at upper
  rw [moved]
  omega

/-- A round moves two segments more, or comes down from a power of two. -/
theorem moved_succ
    (nonempty : length ≠ 0) :
    (moved (length + 1) = 0 ∧ moved length = length - 1) ∨
      moved (length + 1) = moved length + 2 := by
  have lower := Nat.pow_log_le_self 2 nonempty
  have upper := Nat.lt_pow_succ_log_self Nat.one_lt_two length
  rcases Nat.lt_or_eq_of_le (Nat.succ_le_of_lt upper) with below | power
  · right
    rw [moved_of_lt (Nat.le_succ_of_le lower) below, moved]
    omega
  · left
    have next : length + 1 = 2 ^ (Nat.log 2 length + 1) := power
    refine ⟨?_, ?_⟩
    · rw [next]
      exact moved_pow _
    · rw [Nat.pow_succ] at next
      rw [moved]
      omega

/-!
## What the rounds join
-/

theorem joinedAll_singleton (segment : List α) :
    joinedAll [segment] = segment := by
  simp [joinedAll]

/-- A rotation that stops within the rest does not separate the two segments. -/
theorem flatten_rotate_joined
    (first second : List α)
    {rest : List (List α)}
    {places : Nat}
    (within : places ≤ rest.length) :
    ((rest ++ [first ++ second]).rotate places).flatten =
      ((rest ++ [first, second]).rotate places).flatten := by
  rw [rotate_eq_drop_append_take (by simp; omega),
    rotate_eq_drop_append_take (by simp; omega),
    drop_append_of_le_length within, drop_append_of_le_length within,
    take_append_of_le_length within, take_append_of_le_length within]
  simp

/-- The segment that is left is the same before and after a round. -/
theorem joinedAll_joinFirst
    (first second : List α)
    (rest : List (List α)) :
    joinedAll (joinFirst (first :: second :: rest)) =
      joinedAll (first :: second :: rest) := by
  have length : (rest ++ [first ++ second]).length = rest.length + 1 := by simp
  have whole : (first :: second :: rest).length = rest.length + 1 + 1 := rfl
  have within : moved (rest.length + 1) ≤ rest.length :=
    Nat.lt_succ_iff.mp (moved_lt (Nat.succ_ne_zero _))
  unfold joinedAll joinFirst
  rw [length, whole, flatten_rotate_joined first second within]
  rcases moved_succ (Nat.succ_ne_zero rest.length) with ⟨none, all⟩ | two
  · rw [none, all, Nat.succ_sub_one, rotate_append_length_eq,
      rotate_zero]
    rfl
  · have rotated :
        (first :: second :: rest).rotate 2 = rest ++ [first, second] := by
      rw [rotate_eq_drop_append_take (by simp)]
      rfl
    rw [two, Nat.add_comm (moved _) 2, ← rotate_rotate, rotated]

end DistributedRdf.SegmentQueue
