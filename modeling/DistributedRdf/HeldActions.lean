import DistributedRdf.DispatcherEffects

namespace DistributedRdf.Scheduling

open Java Relation Execution List Work Outcome

/-!
# Ready actions that are held once

A ready action is filed among the unassigned or the blocked actions, or it is in
the hand of the dispatcher, which is about to place it.
-/

namespace World

variable
  {kind : SchedulerKind}
  {scores : Scores}
  {world after : SchedulerWorld}
  {action : ActionId}
  {exact : Prop}
  {hand rest : List ActionId}

/-- How often the action is filed as unassigned or as blocked. -/
def filedCount (world : SchedulerWorld) (action : ActionId) : Nat :=
  world.env.unassignedReadyActions.getAllActions.count action +
    world.env.blockedActions.getAllActions.count action

/-- The account of one action; if it is exact then no ready action is missing. -/
structure Held
    (exact : Prop)
    (world : SchedulerWorld)
    (action : ActionId)
    (count : Nat) : Prop where
  notFailed : (world.graph action).state ≠ .FAILED
  once : count ≤ 1
  ready : 0 < count → world.IsReady action
  notLost : exact → world.IsReady action → 0 < count

/-- Each ready action is filed once or in the hand once, and no other one is. -/
def HeldOnce
    (exact : Prop)
    (world : SchedulerWorld)
    (hand : List ActionId) : Prop :=
  ∀ action, Held exact world action (world.filedCount action + hand.count action)

variable {count : Nat}

theorem Held.congr
    (held : Held exact world action count)
    (known : action < after.nextId ↔ action < world.nextId)
    (state : (after.graph action).state = (world.graph action).state)
    (predecessors :
      (after.graph action).dataPredecessors.items =
        (world.graph action).dataPredecessors.items) :
    Held exact after action count where
  notFailed := by
    rw [state]
    exact held.notFailed
  once := held.once
  ready positive := by
    have ready := held.ready positive
    exact ⟨known.mpr ready.known, state.trans ready.runnable,
      predecessors.trans ready.free⟩
  notLost isExact ready :=
    held.notLost isExact ⟨known.mp ready.known, state.symm.trans ready.runnable,
      predecessors.symm.trans ready.free⟩

/-- An action that is not ready is in no account. -/
theorem Held.absent
    (notFailed : (world.graph action).state ≠ .FAILED)
    (notReady : ¬ world.IsReady action) :
    Held exact world action 0 where
  notFailed := notFailed
  once := Nat.zero_le 1
  ready positive := absurd positive (Nat.lt_irrefl 0)
  notLost _ ready := absurd ready notReady

theorem Held.present
    (ready : world.IsReady action) :
    Held exact world action 1 where
  notFailed := by
    rw [ready.runnable]
    simp
  once := Nat.le_refl 1
  ready _ := ready
  notLost _ _ := Nat.one_pos

theorem Held.eq_zero
    (held : Held exact world action count)
    (notReady : ¬ world.IsReady action) :
    count = 0 :=
  Nat.eq_zero_of_not_pos fun positive => notReady (held.ready positive)

namespace HeldOnce

theorem isReady
    (held : HeldOnce exact world hand)
    (member : action ∈ hand) :
    world.IsReady action :=
  (held action).ready
    (Nat.add_pos_right _ (count_pos_iff.mpr member))

variable {otherHand : List ActionId}

/-- Actions are filed elsewhere or come into the hand. -/
theorem refiled
    (held : HeldOnce exact world hand)
    (nextId : after.nextId = world.nextId)
    (graph : after.graph = world.graph)
    (counts :
      ∀ action,
        after.filedCount action + otherHand.count action =
          world.filedCount action + hand.count action) :
    HeldOnce exact after otherHand := by
  intro action
  rw [counts action]
  exact (held action).congr (by rw [nextId]) (by rw [graph]) (by rw [graph])

/-- Only the account of one action has to be looked at. -/
theorem frame
    (held : HeldOnce exact world hand)
    (known :
      ∀ other ≠ action, other < after.nextId ↔ other < world.nextId)
    (graph :
      ∀ other ≠ action,
        (after.graph other).state = (world.graph other).state ∧
          (after.graph other).dataPredecessors.items =
            (world.graph other).dataPredecessors.items)
    (counts :
      ∀ other ≠ action,
        after.filedCount other + otherHand.count other =
          world.filedCount other + hand.count other)
    (self :
      Held exact after action
        (after.filedCount action + otherHand.count action)) :
    HeldOnce exact after otherHand := by
  intro other
  by_cases same : other = action
  · subst same
    exact self
  · rw [counts other same]
    exact (held other).congr (known other same) (graph other same).1
      (graph other same).2

variable (held : HeldOnce exact world (action :: rest))

include held

/-- An action of the hand is not filed. -/
theorem filedCount_hand :
    world.filedCount action = 0 ∧ rest.count action = 0 := by
  have once := (held action).once
  rw [count_cons_self] at once
  omega

/-- An action of the hand is launched, or it may be missing. -/
theorem launched
    (changed : ChangedOnly world action after)
    (gone : exact → (after.graph action).state ≠ .RUNNABLE) :
    HeldOnce exact after rest := by
  rcases held.filedCount_hand with ⟨notFiled, notInRest⟩
  have ready := held.isReady mem_cons_self
  have sameFiled (other : ActionId) :
      after.filedCount other = world.filedCount other := by
    rw [filedCount, filedCount, changed.unassigned, changed.blocked]
  refine @frame world after action exact _ rest held ?_ ?_ ?_ ?_
  · intro other _
    rw [changed.nextId]
  · intro other different
    exact ⟨changed.others other different, by rw [changed.predecessors]⟩
  · intro other different
    rw [sameFiled, count_cons_of_ne (Ne.symm different)]
  · rw [sameFiled, notFiled, notInRest]
    refine ⟨?_, Nat.zero_le 1, fun positive => absurd positive (by simp), ?_⟩
    · rcases changed.self with same | ⟨_, running | isWaiting⟩
      · rw [same, ready.runnable]
        simp
      · simp [running]
      · simp [isWaiting]
    · intro isExact readyAfter
      exact absurd readyAfter.runnable (gone isExact)

/-- The account of the actions that are not in the hand -/
theorem dropped
    (mayBeLost : ¬ exact) :
    HeldOnce exact world rest :=
  held.launched (.refl world action) fun isExact => absurd isExact mayBeLost

end HeldOnce

/-! ## Placing an action of the hand -/

/-- What a placement has to promise. -/
structure Placeable
    (exact : Prop)
    (kind : SchedulerKind)
    (scores : Scores)
    (env : SchedulerEnv)
    (action : ActionId) : Prop where
  launched : exact → kind ≠ .base ∧ env.LaunchedByPlacing kind scores action
  notStale :
    kind ≠ .base → env.Unassignable kind scores action →
      env.assignedResource action = none

theorem Placeable.recount
    (placeable : Placeable exact kind scores world.env action)
    (counts : List Int) :
    Placeable exact kind scores (world.recount counts).env action where
  launched isExact :=
    ⟨(placeable.launched isExact).1,
      (placeable.launched isExact).2.congr rfl rfl rfl⟩
  notStale isReady unassignable :=
    placeable.notStale isReady (unassignable.congr rfl rfl rfl)

/-- The account after an operation, which an exact account sees returning. -/
structure Gives
    (exact : Prop)
    (hand : List ActionId)
    (outcome : Outcome SchedulerWorld Unit) : Prop where
  held : HeldOnce exact outcome.state hand
  returns : exact → ∃ after, outcome = .returned after ()

theorem HeldOnce.placed
    {outcome : Outcome SchedulerWorld Unit}
    (held : HeldOnce exact world (action :: rest))
    (placed : PlacedReady kind scores world action outcome)
    (placeable : Placeable exact kind scores world.env action) :
    Gives exact rest outcome := by
  cases placed with
  | unassigned _ _ _ added | blocked _ _ _ _ added =>
      refine ⟨held.refiled rfl rfl fun other => ?_, fun _ => ⟨_, rfl⟩⟩
      simp only [filedCount, state_returned, added.count_eq other,
        count_cons]
      omega
  | changed changes launched =>
      have isLaunched (isExact : exact) : Launched action outcome :=
        launched (placeable.launched isExact).1 (placeable.launched isExact).2
      refine ⟨held.launched (Changes.changedOnly changes) ?_, ?_⟩
      · intro isExact
        rcases isLaunched isExact with ⟨after, returned, notRunnable⟩
        rwa [returned]
      · intro isExact
        exact (isLaunched isExact).imp fun _ launched => launched.1

theorem HeldOnce.place
    (held : HeldOnce exact world (action :: rest))
    (consistent : Consistent world)
    (placeable : Placeable exact kind scores world.env action) :
    Gives exact rest (world.place kind scores action) :=
  held.placed
    (place_ready consistent (held.isReady mem_cons_self)
      placeable.notStale) placeable

theorem HeldOnce.recount
    (held : HeldOnce exact world hand)
    (counts : List Int) :
    HeldOnce exact (world.recount counts) hand :=
  held.refiled rfl rfl fun _ => rfl

theorem HeldOnce.newAllocatableAction
    (held : HeldOnce exact world (action :: rest))
    (consistent : Consistent world)
    (placeable : Placeable exact kind scores world.env action) :
    Gives exact rest (world.newAllocatableAction kind scores action) := by
  rcases @Consistent.newAllocatableAction_ready kind scores world action
      consistent (held.isReady mem_cons_self) with
    ⟨counts, recounted, isPlaced⟩
  rw [isPlaced]
  exact (held.recount counts).place (consistent.recount recounted.length)
    (placeable.recount counts)

/-- An account that may miss actions does not need a hand. -/
theorem HeldOnce.dropHand
    (held : HeldOnce exact world hand)
    (mayBeLost : ¬ exact) :
    HeldOnce exact world [] := by
  induction hand with
  | nil => exact held
  | cons action rest hypothesis => exact hypothesis (held.dropped mayBeLost)

end World

/-! ## The hand of the dispatcher -/

/-- The actions that the work is going to place. -/
def Work.hand : Work → List ActionId
  | .place action => [action]
  | .refile action => [action]
  | .launch action => [action]
  | .purge remaining kept _ => remaining ++ kept
  | .settleSuccessors _ _ => []
  | .updateWorker _ => []

def handOf (agenda : List Work) : List ActionId :=
  agenda.flatMap hand

@[simp] theorem handOf_append (first second : List Work) :
    handOf (first ++ second) = handOf first ++ handOf second :=
  flatMap_append

variable (actions : List ActionId)

@[simp] theorem handOf_place :
    handOf (actions.map .place) = actions := by
  simp [handOf, flatMap_map, hand]

@[simp] theorem handOf_refile :
    handOf (actions.map .refile) = actions := by
  simp [handOf, flatMap_map, hand]

@[simp] theorem handOf_launch :
    handOf (actions.map .launch) = actions := by
  simp [handOf, flatMap_map, hand]

namespace World

variable
  {world after : SchedulerWorld}
  {action : ActionId}
  {exact : Prop}
  {hand rest : List ActionId}

/-- An operation hands over what it leaves to be placed. -/
def HandsOver (exact : Prop) (rest : List ActionId) :
    Outcome SchedulerWorld (List Work) → Prop
  | .returned world work =>
      HeldOnce exact world (handOf work ++ rest) ∧
        ∀ action, .launch action ∈ work → ¬ exact
  | .raised world _ => ¬ exact ∧ HeldOnce exact world []

theorem Gives.andThen
    {outcome : Outcome SchedulerWorld Unit}
    (gives : Gives exact hand outcome)
    {next : SchedulerWorld → Unit → Outcome SchedulerWorld (List Work)}
    (handsOver :
      ∀ after, outcome = .returned after () → HeldOnce exact after hand →
        HandsOver exact rest (next after ())) :
    HandsOver exact rest (outcome.andThen next) := by
  cases outcome with
  | returned after value => exact handsOver after rfl gives.held
  | raised after exception =>
      have mayBeLost : ¬ exact := by
        intro isExact
        rcases gives.returns isExact with ⟨_, returned⟩
        exact absurd returned (by simp)
      exact ⟨mayBeLost, gives.held.dropHand mayBeLost⟩

/-- Nothing is left to do after the placement. -/
theorem Gives.done
    {outcome : Outcome SchedulerWorld Unit}
    (gives : Gives exact rest outcome) :
    HandsOver exact rest
      (outcome.andThen fun world _ => .returned world []) :=
  gives.andThen fun _ _ held =>
    ⟨held, fun _ member => absurd member not_mem_nil⟩

end World

end DistributedRdf.Scheduling
