import DistributedRdf.PriorityQueue
import DistributedRdf.TransitionSystem
import Mathlib.Data.List.Perm.Basic

namespace DistributedRdf.Scheduling

open Execution
open Java List

/-!
# Actions in the order of their priority

Every core has a priority queue of its own, and so have the actions without a
core.  One more queue holds the first action of each of them.  An action that is
no longer to be rescheduled stays where it is until it gets to the front.
-/

structure PriorityActionSet
    (Action : Type)
    (comparator : Action → Action → Int) where
  noCoreActions : PriorityQueue Action comparator
  coreActions : List (PriorityQueue Action comparator)
  priority : PriorityQueue Action comparator

namespace PriorityActionSet

inductive Fault where
  | arrayIndexOutOfBounds
  /-- The loop goes on after the given number of rounds. -/
  | unfinished
  deriving DecidableEq

variable
  {Action : Type}
  {comparator : Action → Action → Int}

def empty : PriorityActionSet Action comparator where
  noCoreActions := .empty
  coreActions := []
  priority := .empty

section Queues

variable (set : PriorityActionSet Action comparator)

def queues : List (PriorityQueue Action comparator) :=
  set.noCoreActions :: set.coreActions

/-- The first action of each queue -/
def firsts : List Action :=
  set.queues.filterMap PriorityQueue.peek

def actions : List Action :=
  set.queues.flatMap PriorityQueue.elements

def hasQueue : Option Nat → Bool
  | none => true
  | some coreId => coreId < set.coreActions.length

/-- The first action of a core -/
def peekOf : Option Nat → Option Action
  | none => set.noCoreActions.peek
  | some coreId => (set.coreActions[coreId]?).bind PriorityQueue.peek

def modifyQueue
    (update : PriorityQueue Action comparator →
      PriorityQueue Action comparator) :
    Option Nat → PriorityActionSet Action comparator
  | none => { set with noCoreActions := update set.noCoreActions }
  | some coreId =>
      { set with coreActions := set.coreActions.modify coreId update }

/-- The queue of a core that is not in the array cannot be changed. -/
def changeQueue
    (update : PriorityQueue Action comparator →
      PriorityQueue Action comparator)
    (coreId : Option Nat) :
    Except Fault (PriorityActionSet Action comparator) :=
  if set.hasQueue coreId then
    .ok (set.modifyQueue update coreId)
  else
    .error .arrayIndexOutOfBounds

/-- The array of the cores, long enough for one of them -/
def resized : Option Nat → PriorityActionSet Action comparator
  | none => set
  | some coreId =>
      { set with
        coreActions :=
          set.coreActions ++
            replicate (coreId + 1 - set.coreActions.length) .empty }

end Queues

section Operations

variable
  (implementation : PriorityQueue.Implementation Action comparator)
  (getCoreId : Action → Option Nat)
  (isToReschedule : Action → Bool)
  (set : PriorityActionSet Action comparator)

def rebuildPriorityQueue :
    PriorityActionSet Action comparator :=
  { set with priority := .ofList implementation set.firsts }

def offer
    [DecidableEq Action]
    (set : PriorityActionSet Action comparator)
    (action : Action) :
    PriorityActionSet Action comparator :=
  if isToReschedule action then
    let coreId := getCoreId action
    let currentPeek := set.peekOf coreId
    let offered :=
      (set.resized coreId).modifyQueue (·.offer implementation action) coreId
    if currentPeek ≠ some action then
      offered.rebuildPriorityQueue implementation
    else
      offered
  else
    set

/-- One round of `poll`: the first action is taken from both of its queues. -/
def pollPriority
    (currentPeek : Action) :
    Except Fault (PriorityActionSet Action comparator) := do
  let coreId := getCoreId currentPeek
  let polled ← set.changeQueue (·.poll implementation) coreId
  let remaining := set.priority.poll implementation
  return { polled with
    priority :=
      match polled.peekOf coreId with
      | none => remaining
      | some nextPeek => remaining.offer implementation nextPeek }

/-- The loop of `poll` -/
def poll :
    Nat → PriorityActionSet Action comparator →
      Except Fault (Option Action × PriorityActionSet Action comparator)
  | 0, _ => .error .unfinished
  | rounds + 1, set =>
      match set.priority.peek with
      | none => .ok (none, set)
      | some currentPeek => do
          let polled ← set.pollPriority implementation getCoreId currentPeek
          if isToReschedule currentPeek then
            return (some currentPeek, polled)
          else
            poll rounds polled

def removeFirst
    (coreId : Option Nat) :
    Except Fault (PriorityActionSet Action comparator) := do
  let polled ← set.changeQueue (·.poll implementation) coreId
  return polled.rebuildPriorityQueue implementation

/-- The loop of `peek` -/
def peek :
    Nat → PriorityActionSet Action comparator →
      Except Fault (Option Action × PriorityActionSet Action comparator)
  | 0, _ => .error .unfinished
  | rounds + 1, set =>
      match set.priority.peek with
      | none => .ok (none, set)
      | some currentPeek =>
          if isToReschedule currentPeek then
            .ok (some currentPeek, set)
          else do
            let removed ←
              set.removeFirst implementation (getCoreId currentPeek)
            peek rounds removed

/-- At most one action is dropped: this is not a loop. -/
def dropFirst
    (queue : PriorityQueue Action comparator) :
    PriorityQueue Action comparator :=
  match queue.peek with
  | none => queue
  | some first =>
      if isToReschedule first then queue else queue.poll implementation

def peekAll :
    PriorityQueue Action comparator × PriorityActionSet Action comparator :=
  let dropped := { set with
    noCoreActions := dropFirst implementation isToReschedule set.noCoreActions
    coreActions :=
      set.coreActions.map (dropFirst implementation isToReschedule) }
  (.ofList implementation dropped.firsts, dropped)

def remove
    [DecidableEq Action]
    (set : PriorityActionSet Action comparator)
    (action : Action) :
    Except Fault (PriorityActionSet Action comparator) :=
  set.changeQueue (·.remove implementation action) (getCoreId action)

end Operations

/-!
## The queue of a core among all queues
-/

def position : Option Nat → Nat
  | none => 0
  | some coreId => coreId + 1

def others
    (set : PriorityActionSet Action comparator)
    (coreId : Option Nat) : List (PriorityQueue Action comparator) :=
  set.queues.eraseIdx (position coreId)

section Queues

variable
  {set after : PriorityActionSet Action comparator}
  {queue : PriorityQueue Action comparator}
  {update :
    PriorityQueue Action comparator → PriorityQueue Action comparator}
  {coreId : Option Nat}

theorem hasQueue_iff :
    set.hasQueue coreId = true ↔ position coreId < set.queues.length := by
  cases coreId with
  | none | some _ => simp [hasQueue, position, queues]

theorem hasQueue_of_getElem?
    (isQueue : set.queues[position coreId]? = some queue) :
    set.hasQueue coreId = true :=
  hasQueue_iff.mpr (List.getElem?_eq_some_iff.mp isQueue).1

theorem getElem?_of_hasQueue
    (known : set.hasQueue coreId = true) :
    ∃ queue, set.queues[position coreId]? = some queue :=
  ⟨_, List.getElem?_eq_getElem (hasQueue_iff.mp known)⟩

theorem peekOf_eq
    (isQueue : set.queues[position coreId]? = some queue) :
    set.peekOf coreId = queue.peek := by
  cases coreId with
  | none =>
      cases isQueue
      rfl
  | some coreId =>
      have isCore : set.coreActions[coreId]? = some queue := isQueue
      rw [peekOf, isCore, Option.bind_some]

theorem queues_modifyQueue :
    (set.modifyQueue update coreId).queues =
      set.queues.modify (position coreId) update := by
  cases coreId with
  | none => rfl
  | some coreId => rfl

theorem changeQueue_eq_ok :
    set.changeQueue update coreId = .ok after ↔
      set.hasQueue coreId = true ∧ set.modifyQueue update coreId = after := by
  unfold changeQueue
  split
  case isTrue known => simp [known]
  case isFalse unknown => simp [unknown]

section

variable (isQueue : set.queues[position coreId]? = some queue)

include isQueue

theorem getElem?_modifyQueue :
    (set.modifyQueue update coreId).queues[position coreId]? =
      some (update queue) := by
  rw [queues_modifyQueue, List.getElem?_modify_eq, isQueue]
  rfl

omit isQueue in
theorem others_modifyQueue :
    (set.modifyQueue update coreId).others coreId = set.others coreId := by
  rw [others, queues_modifyQueue, List.eraseIdx_modify_of_eq, others]

theorem queues_perm :
    set.queues.Perm (queue :: set.others coreId) := by
  obtain ⟨inRange, isElement⟩ := List.getElem?_eq_some_iff.mp isQueue
  have split := List.getElem_cons_eraseIdx_perm inRange
  rw [isElement] at split
  exact split.symm

theorem actions_perm :
    set.actions.Perm
      (queue.elements ++
        (set.others coreId).flatMap PriorityQueue.elements) :=
  (queues_perm isQueue).flatMap_right PriorityQueue.elements

theorem firsts_perm :
    set.firsts.Perm
      (queue.peek.toList ++
        (set.others coreId).filterMap PriorityQueue.peek) := by
  have split := (queues_perm isQueue).filterMap PriorityQueue.peek
  rw [filterMap_cons] at split
  cases isFirst : queue.peek with
  | none => rwa [isFirst] at split
  | some first => rwa [isFirst] at split

end

variable {action : Action}

theorem mem_actions :
    action ∈ set.actions ↔
      ∃ queue ∈ set.queues, action ∈ queue.elements :=
  mem_flatMap

theorem mem_firsts :
    action ∈ set.firsts ↔ ∃ queue ∈ set.queues, queue.peek = some action :=
  mem_filterMap

end Queues

/-!
## Actions lie in the queue of their core
-/

def Filed
    (getCoreId : Action → Option Nat)
    (set : PriorityActionSet Action comparator) : Prop :=
  ∀ place queue, set.queues[place]? = some queue →
    ∀ action ∈ queue.elements, position (getCoreId action) = place

section Filed

variable
  {getCoreId : Action → Option Nat}
  {set after : PriorityActionSet Action comparator}
  {queue : PriorityQueue Action comparator}
  {update :
    PriorityQueue Action comparator → PriorityQueue Action comparator}
  {coreId : Option Nat}
  (filed : set.Filed getCoreId)

include filed

theorem Filed.modifyQueue
    (belong :
      ∀ queue, set.queues[position coreId]? = some queue →
        ∀ action ∈ (update queue).elements,
          position (getCoreId action) = position coreId) :
    (set.modifyQueue update coreId).Filed getCoreId := by
  intro place queue isQueue action isAction
  rw [queues_modifyQueue] at isQueue
  by_cases same : position coreId = place
  · subst same
    rw [List.getElem?_modify_eq] at isQueue
    obtain ⟨old, isOld, rfl⟩ := Option.map_eq_some_iff.mp isQueue
    exact belong old isOld action isAction
  · rw [List.getElem?_modify_ne _ _ same] at isQueue
    exact filed place queue isQueue action isAction

/-- Taking actions out of a queue leaves the others where they belong. -/
theorem Filed.modifyQueue_of_subset
    (subset : ∀ queue, (update queue).elements ⊆ queue.elements) :
    (set.modifyQueue update coreId).Filed getCoreId :=
  filed.modifyQueue fun queue isQueue action isAction =>
    filed _ queue isQueue action (subset queue isAction)

theorem Filed.of_queues_eq
    (sameQueues : after.queues = set.queues) :
    after.Filed getCoreId := by
  intro place queue isQueue
  rw [sameQueues] at isQueue
  exact filed place queue isQueue

/-- An action lies in no queue but that of its core. -/
theorem Filed.not_mem_others
    {action : Action} :
    action ∉ (set.others (getCoreId action)).flatMap
      PriorityQueue.elements := by
  intro isOther
  obtain ⟨queue, isQueue, inQueue⟩ := mem_flatMap.mp isOther
  obtain ⟨place, elsewhere, atPlace⟩ :=
    mem_eraseIdx_iff_getElem?.mp isQueue
  exact elsewhere (filed place queue atPlace action inQueue).symm

end Filed

end PriorityActionSet

end DistributedRdf.Scheduling
