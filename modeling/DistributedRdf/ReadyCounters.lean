import DistributedRdf.DispatcherEffects
import Mathlib.Algebra.BigOperators.Ring.Finset

namespace DistributedRdf.Scheduling

open Java Execution List ActionNode

/-!
# Counters of ready actions

The task scheduler counts the ready actions of each core.  The count of a core
is the sum of what its actions contribute.  Each change of a counter is a change
of what one action contributes, and so is each change of an action.
-/

namespace World

variable
  {world between after : SchedulerWorld}
  {action : ActionId}
  {absent rest : List ActionId}

/--
The action depends on no unfinished data, it is not blocked and it has neither
finished nor failed.
-/
def IsCounted (world : SchedulerWorld) (action : ActionId) : Prop :=
  (world.graph action).dataPredecessors.items = [] ∧
    action ∉ world.env.blockedActions.getAllActions ∧
      (world.graph action).state ≠ .FINISHED ∧
        (world.graph action).state ≠ .FAILED
  deriving Decidable

/-- The actions of the core that are to be counted. -/
def readyOf (world : SchedulerWorld) (coreId : CoreId) : Finset ActionId :=
  (Finset.range world.nextId).filter fun action =>
    world.env.firstImplementation action = .ofCore coreId ∧
      world.IsCounted action

/-- Every core has a counter, which is the number of its ready actions. -/
def CountsReady (world : SchedulerWorld) : Prop :=
  ∀ coreId < world.env.coreCount,
    world.env.readyCounts[coreId]? = some ((world.readyOf coreId).card : Int)

/-!
## What an action contributes
-/

/-- The actions of `absent` are left out of the counters so far. -/
def contribution
    (world : SchedulerWorld)
    (absent : List ActionId)
    (action : ActionId) : Int :=
  if world.IsCounted action ∧ action ∉ absent then 1 else 0

/-- What the actions of a core contribute to its counter -/
def total
    (world : SchedulerWorld)
    (absent : List ActionId)
    (coreId : CoreId) : Int :=
  ∑ action ∈ Finset.range world.nextId,
    if world.env.firstImplementation action = .ofCore coreId then
      world.contribution absent action
    else 0

/-- The counters are the totals of the contributions. -/
def Balanced (world : SchedulerWorld) (absent : List ActionId) : Prop :=
  ∀ coreId count, world.env.readyCounts[coreId]? = some count →
    count = world.total absent coreId

theorem total_nil (world : SchedulerWorld) (coreId : CoreId) :
    world.total [] coreId = ((world.readyOf coreId).card : Int) := by
  rw [readyOf, Finset.card_filter, total, Nat.cast_sum]
  refine Finset.sum_congr rfl fun action _ => ?_
  by_cases ofCore : world.env.firstImplementation action = .ofCore coreId
  · simp [ofCore, contribution]
  · simp [ofCore]

theorem Balanced.countsReady
    (balanced : Balanced world [])
    (counted : world.env.readyCounts.length = world.env.coreCount) :
    CountsReady world := by
  intro coreId isCore
  have within : coreId < world.env.readyCounts.length := by
    rwa [counted]
  have entry := getElem?_eq_getElem within
  rw [entry, balanced coreId _ entry, total_nil]

variable {otherAbsent : List ActionId}

/-- A change of the state that leaves every contribution as it is -/
theorem Balanced.transfer
    (balanced : Balanced world absent)
    (nextId : after.nextId = world.nextId)
    (kinds :
      ∀ other, (after.env.actions other).kind = (world.env.actions other).kind)
    (readyCounts : after.env.readyCounts = world.env.readyCounts)
    (same :
      ∀ other,
        after.IsCounted other ∧ other ∉ otherAbsent ↔
          world.IsCounted other ∧ other ∉ absent) :
    Balanced after otherAbsent := by
  intro coreId count entry
  rw [readyCounts] at entry
  rw [balanced coreId count entry, total, total, nextId]
  refine Finset.sum_congr rfl fun other _ => ?_
  rw [firstImplementation_of_kind (kinds other), contribution, contribution]
  simp only [same other]

/-- Actions that are not to be counted need not be left out. -/
theorem Balanced.drop
    (balanced : Balanced world (absent ++ rest))
    (notCounted : ∀ other ∈ absent, ¬ world.IsCounted other) :
    Balanced world rest := by
  refine balanced.transfer rfl (fun _ => rfl) rfl fun other => ?_
  simp only [mem_append]
  tauto

/-- One action contributes more or less than before. -/
theorem total_change
    {change : Int}
    (known : action < world.nextId)
    (changed :
      ∀ other,
        world.contribution otherAbsent other =
          world.contribution absent other +
            if other = action then change else 0)
    (coreId : CoreId) :
    world.total otherAbsent coreId =
      world.total absent coreId +
        if world.env.firstImplementation action = .ofCore coreId then change
        else 0 := by
  have single :
      (∑ other ∈ Finset.range world.nextId,
        if other = action then
          if world.env.firstImplementation action = .ofCore coreId then change
          else 0
        else 0) =
        if world.env.firstImplementation action = .ofCore coreId then change
        else 0 := by
    rw [Finset.sum_ite_eq' (Finset.range world.nextId) action,
      if_pos (Finset.mem_range.mpr known)]
  rw [← single, total, total, ← Finset.sum_add_distrib]
  refine Finset.sum_congr rfl fun other _ => ?_
  rw [changed other]
  by_cases same : other = action
  · subst same
    by_cases ofCore : world.env.firstImplementation other = .ofCore coreId
    · simp [ofCore]
    · simp [ofCore]
  · simp [same]

/-- The counter and the contribution of one action change alike. -/
theorem Balanced.recount
    {otherAbsent : List ActionId}
    {change : Int}
    {counts : List Int}
    (balanced : Balanced world absent)
    (known : action < world.nextId)
    (recounted : world.env.Recounted action change counts)
    (changed :
      ∀ other,
        world.contribution otherAbsent other =
          world.contribution absent other +
            if other = action then change else 0) :
    Balanced (world.recount counts) otherAbsent := by
  intro coreId count entry
  have total :
      (world.recount counts).total otherAbsent coreId =
        world.total otherAbsent coreId :=
    rfl
  rw [total, total_change known changed]
  change counts[coreId]? = some count at entry
  rw [recounted.entry coreId, Option.map_eq_some_iff] at entry
  obtain ⟨countBefore, entryBefore, rfl⟩ := entry
  rw [← balanced coreId countBefore entryBefore]
  split
  · rfl
  · rw [add_zero]

/-- An action contributes one more when it is left out no more. -/
theorem contribution_of_counted
    (counted : world.IsCounted action)
    (notInRest : action ∉ rest)
    (other : ActionId) :
    world.contribution rest other =
      world.contribution (action :: rest) other +
        if other = action then 1 else 0 := by
  by_cases same : other = action
  · subst same
    simp [contribution, counted, notInRest]
  · simp [contribution, same]

variable {counts : List Int}

/-- An action that was left out is counted. -/
theorem Balanced.addToReady
    (balanced : Balanced world (action :: rest))
    (known : action < world.nextId)
    (counted : world.IsCounted action)
    (notInRest : action ∉ rest)
    (recounted : world.env.Recounted action 1 counts) :
    Balanced (world.recount counts) rest :=
  balanced.recount known recounted (contribution_of_counted counted notInRest)

/-- An action is counted no more. -/
theorem Balanced.removeFromReady
    (balanced : Balanced world rest)
    (known : action < world.nextId)
    (counted : world.IsCounted action)
    (notInRest : action ∉ rest)
    (recounted : world.env.Recounted action (-1) counts) :
    Balanced (world.recount counts) (action :: rest) := by
  refine balanced.recount known recounted fun other => ?_
  rw [contribution_of_counted counted notInRest other]
  split
  · ring
  · ring

variable {actions : List ActionId}

/-- Actions that were left out come into the totals. -/
theorem total_append
    (known : ∀ action ∈ actions, action < world.nextId)
    (counted : ∀ action ∈ actions, world.IsCounted action)
    (once : (actions ++ absent).Nodup)
    (coreId : CoreId) :
    world.total absent coreId =
      world.total (actions ++ absent) coreId +
        ((actions.countP fun action =>
          world.env.firstImplementation action = .ofCore coreId : Nat) : Int) := by
  induction actions with
  | nil => simp
  | cons first later hypothesis =>
      rw [cons_append, nodup_cons] at once
      rcases once with ⟨notLater, laterOnce⟩
      have changed :=
        total_change (known first mem_cons_self)
          (contribution_of_counted (counted first mem_cons_self) notLater)
          coreId
      rw [hypothesis
        (fun other member => known other (mem_cons_of_mem first member))
        (fun other member => counted other (mem_cons_of_mem first member))
        laterOnce, changed, countP_cons]
      by_cases ofCore : world.env.firstImplementation first = .ofCore coreId
      · simp only [ofCore, if_true, decide_true, cons_append]
        push_cast
        ring
      · simp [ofCore]

/-- All these actions are counted. -/
theorem Balanced.addAllToReady
    (balanced : Balanced world (actions ++ absent))
    (known : ∀ action ∈ actions, action < world.nextId)
    (counted : ∀ action ∈ actions, world.IsCounted action)
    (once : (actions ++ absent).Nodup)
    (recounted : world.env.RecountedBy actions counts) :
    Balanced (world.recount counts) absent := by
  intro coreId count entry
  have total :
      (world.recount counts).total absent coreId = world.total absent coreId :=
    rfl
  rw [total, total_append known counted once]
  change counts[coreId]? = some count at entry
  rw [recounted.entry coreId, Option.map_eq_some_iff] at entry
  obtain ⟨countBefore, entryBefore, rfl⟩ := entry
  rw [← balanced coreId countBefore entryBefore]

/-! ## Changes that do not concern the counters -/

/-- Nothing has happened that changes what an action contributes. -/
structure Unaffected (before after : SchedulerWorld) : Prop where
  nextId : after.nextId = before.nextId
  kinds :
    ∀ other, (after.env.actions other).kind = (before.env.actions other).kind
  readyCounts : after.env.readyCounts = before.env.readyCounts
  blocked :
    after.env.blockedActions.getAllActions =
      before.env.blockedActions.getAllActions
  predecessors :
    ∀ other,
      (after.graph other).dataPredecessors.items =
        (before.graph other).dataPredecessors.items
  ended :
    ∀ other,
      (after.graph other).isPending = (before.graph other).isPending

namespace Unaffected

theorem refl (world : SchedulerWorld) : Unaffected world world :=
  ⟨rfl, fun _ => rfl, rfl, rfl, fun _ => rfl, fun _ => rfl⟩

theorem trans
    (first : Unaffected world between)
    (second : Unaffected between after) :
    Unaffected world after where
  nextId := second.nextId.trans first.nextId
  kinds other := (second.kinds other).trans (first.kinds other)
  readyCounts := second.readyCounts.trans first.readyCounts
  blocked := second.blocked.trans first.blocked
  predecessors other :=
    (second.predecessors other).trans (first.predecessors other)
  ended other := (second.ended other).trans (first.ended other)

theorem isCounted
    (unaffected : Unaffected world after)
    (other : ActionId) :
    after.IsCounted other ↔ world.IsCounted other := by
  have ended := unaffected.ended other
  simp only [isPending, decide_eq_decide] at ended
  rw [IsCounted, IsCounted, unaffected.predecessors, unaffected.blocked]
  tauto

/-- Only the environment has changed, and nothing that the counters are about. -/
theorem withEnv
    {env : SchedulerEnv}
    (kinds :
      ∀ other, (env.actions other).kind = (world.env.actions other).kind)
    (readyCounts : env.readyCounts = world.env.readyCounts)
    (blocked :
      env.blockedActions.getAllActions =
        world.env.blockedActions.getAllActions) :
    Unaffected world { world with env := env } :=
  ⟨rfl, kinds, readyCounts, blocked, fun _ => rfl, fun _ => rfl⟩

end Unaffected

/-- An action that is launched stays counted. -/
theorem ChangedOnly.unaffected
    (changed : ChangedOnly world action after) :
    Unaffected world after where
  nextId := changed.nextId
  kinds := changed.kinds
  readyCounts := changed.readyCounts
  blocked := by rw [changed.blocked]
  predecessors other := by rw [changed.predecessors]
  ended other := by
    simp only [isPending]
    by_cases same : other = action
    · subst same
      rcases changed.self with same | ⟨runnable, running | isWaiting⟩
      · rw [same]
      · simp [runnable, running]
      · simp [runnable, isWaiting]
    · rw [changed.others other same]

end World

end DistributedRdf.Scheduling
