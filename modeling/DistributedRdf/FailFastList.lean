import DistributedRdf.MethodOutcome
import Mathlib.Data.List.Basic

namespace DistributedRdf.Java

open List

/-!
# Linked lists with fail-fast iterators

A list counts its modifications.  An iterator compares the count with the one it
was created with before it returns the next element, but not before it says
whether there is one.
-/

structure LinkedList (α : Type u) where
  items : List α
  modCount : Nat
  deriving DecidableEq

namespace LinkedList

variable {α : Type u} {β : Type v} {σ : Type w}

def empty : LinkedList α :=
  ⟨[], 0⟩

variable (list : LinkedList α)

def add (element : α) : LinkedList α :=
  ⟨list.items ++ [element], list.modCount + 1⟩

/-- Removes the first occurrence. -/
def remove [DecidableEq α] (element : α) : LinkedList α :=
  if element ∈ list.items then
    ⟨list.items.erase element, list.modCount + 1⟩
  else
    list

/-- Removes all occurrences through an iterator. -/
def removeEach [DecidableEq α] (element : α) :
    LinkedList α :=
  ⟨list.items.filter (· ≠ element),
    list.modCount + list.items.count element⟩

def clear : LinkedList α :=
  ⟨[], list.modCount + 1⟩

/--
The rest of an iteration over a list that is part of the state, so that the
body may change it; the results of the body are collected.
-/
def iterate
    (list : σ → LinkedList α)
    (body : α → σ → Outcome σ (List β))
    (expectedModCount : Nat) :
    (steps cursor : Nat) → List β → σ → Outcome σ (List β)
  | 0, _, results, state => .returned state results
  | steps + 1, cursor, results, state =>
      match (list state).items[cursor]? with
      | none => .returned state results
      | some element =>
          if (list state).modCount ≠ expectedModCount then
            .raised state .concurrentModification
          else
            (body element state).andThen fun state more =>
              iterate list body expectedModCount steps (cursor + 1)
                (results ++ more) state

/-- `for (α element : list) { body }` -/
def forEach
    (list : σ → LinkedList α)
    (body : α → σ → Outcome σ (List β))
    (state : σ) : Outcome σ (List β) :=
  iterate list body (list state).modCount ((list state).items.length + 1) 0 []
    state

@[simp] theorem items_add (element : α) :
    (list.add element).items = list.items ++ [element] :=
  rfl

@[simp] theorem items_clear : list.clear.items = [] :=
  rfl

section Iteration

variable
  {list : σ → LinkedList α}
  {body : α → σ → Outcome σ (List β)}
  {expectedModCount steps cursor : Nat}
  {results : List β}
  {state : σ}

theorem iterate_done
    (atEnd : (list state).items.length ≤ cursor) :
    iterate list body expectedModCount steps cursor results state =
      .returned state results := by
  cases steps with
  | zero => rfl
  | succ steps => rw [iterate, getElem?_eq_none atEnd]

variable {Holds : σ → Prop}

/-- What the body preserves for an element is preserved by the iteration. -/
theorem iterate_preserves_of_mem
    (bodyHolds :
      ∀ element state, element ∈ (list state).items → Holds state →
        Holds (body element state).state)
    (holds : Holds state) :
    Holds
      (iterate list body expectedModCount steps cursor results state).state := by
  induction steps generalizing cursor results state with
  | zero => exact holds
  | succ steps hypothesis =>
      rw [iterate]
      split
      · exact holds
      · rename_i element isElement
        split
        · exact holds
        · apply Outcome.andThen_preserves
          · exact bodyHolds element state (mem_of_getElem? isElement) holds
          · intro after more afterHolds
            exact hypothesis afterHolds

/-- What the body preserves is preserved by the iteration. -/
theorem iterate_preserves
    (bodyHolds :
      ∀ element state, Holds state → Holds (body element state).state)
    (holds : Holds state) :
    Holds
      (iterate list body expectedModCount steps cursor results state).state :=
  iterate_preserves_of_mem (fun element state _ => bodyHolds element state) holds

/-- The next element of a list that was modified is not returned. -/
theorem iterate_modified
    (modified : (list state).modCount ≠ expectedModCount) :
    iterate list body expectedModCount (steps + 1) cursor results state =
      if (list state).items.length ≤ cursor then
        .returned state results
      else
        .raised state .concurrentModification := by
  split
  · rename_i atEnd
    exact iterate_done atEnd
  · rename_i inside
    rw [iterate, getElem?_eq_getElem (Nat.lt_of_not_le inside)]
    simp only [modified, ne_eq, not_false_eq_true, if_true]

theorem forEach_nil
    (empty : (list state).items = []) :
    forEach list body state = .returned state [] := by
  apply iterate_done
  simp [empty]

variable
  {element : α}
  {rest : List α}

theorem forEach_cons
    (items : (list state).items = element :: rest) :
    forEach list body state =
      (body element state).andThen fun after more =>
        iterate list body (list state).modCount (rest.length + 1) 1 more
          after := by
  rw [forEach, items, length_cons, iterate, items]
  simp

/-- A body that modifies the list ends the iteration, one way or the other. -/
theorem forEach_modified
    (items : (list state).items = element :: rest)
    (modified :
      ∀ after more, body element state = .returned after more →
        (list after).modCount ≠ (list state).modCount) :
    forEach list body state =
      (body element state).andThen fun after more =>
        if (list after).items.length ≤ 1 then
          .returned after more
        else
          .raised after .concurrentModification := by
  rw [forEach_cons items]
  cases outcome : body element state with
  | raised after exception => rfl
  | returned after more => exact iterate_modified (modified after more outcome)

end Iteration

section Modifications

variable [DecidableEq α]

theorem modCount_le_remove (element : α) :
    list.modCount ≤ (list.remove element).modCount := by
  unfold remove
  split
  · exact Nat.le_succ list.modCount
  · exact Nat.le_refl list.modCount

theorem modCount_lt_remove
    {list : LinkedList α}
    {element : α}
    (member : element ∈ list.items) :
    list.modCount < (list.remove element).modCount := by
  rw [remove, if_pos member]
  exact Nat.lt_succ_self list.modCount

theorem items_remove (element : α) :
    (list.remove element).items = list.items.erase element := by
  unfold remove
  split
  · rfl
  · rename_i notMember
    exact (erase_of_not_mem notMember).symm

end Modifications

end LinkedList

end DistributedRdf.Java
