import DistributedRdf.ProfileMerging
import DistributedRdf.Workers

namespace DistributedRdf.Scheduling

open List

/-!
# Scheduling over the full graph

A worker plans when its actions start.  An action waits for those whose
resources it takes over: each knows the other, as predecessor and as successor.
The plan of the worker is a list of gaps, that is of resources together with the
time from which they are free and the action that frees them.
-/

structure FullGraphSchedulingInformation where
  scheduled : Bool
  expectedStart : Int
  expectedEnd : Int
  resourcePredecessors : List ActionId
  resourceSuccessors : List ActionId
  onOptimization : Bool
  deriving DecidableEq

namespace FullGraphSchedulingInformation

def new : FullGraphSchedulingInformation where
  scheduled := false
  expectedStart := 0
  expectedEnd := 0
  resourcePredecessors := []
  resourceSuccessors := []
  onOptimization := false

variable
  (dsi : FullGraphSchedulingInformation)
  (predecessor : ActionId)

def addPredecessor : FullGraphSchedulingInformation :=
  { dsi with resourcePredecessors := dsi.resourcePredecessors ++ [predecessor] }

/-- Only the first occurrence is removed. -/
def removePredecessor : FullGraphSchedulingInformation :=
  { dsi with resourcePredecessors := dsi.resourcePredecessors.erase predecessor }

variable (successor : ActionId)

def addSuccessor : FullGraphSchedulingInformation :=
  { dsi with resourceSuccessors := dsi.resourceSuccessors ++ [successor] }

/-- Only the first occurrence is removed. -/
def removeSuccessor : FullGraphSchedulingInformation :=
  { dsi with resourceSuccessors := dsi.resourceSuccessors.erase successor }

def isExecutable : Bool :=
  dsi.resourcePredecessors.isEmpty

def unscheduled : FullGraphSchedulingInformation :=
  { dsi with
    scheduled := false
    resourcePredecessors := []
    resourceSuccessors := [] }

/-- Whether and when the action is to run -/
def times : Bool × Int × Int :=
  (dsi.scheduled, dsi.expectedStart, dsi.expectedEnd)

end FullGraphSchedulingInformation

/-- The scheduling information of every action -/
abbrev SchedulingTable := ActionId → FullGraphSchedulingInformation

namespace SchedulingTable

variable
  (table : SchedulingTable)
  (action : ActionId)

def modify
    (change :
      FullGraphSchedulingInformation → FullGraphSchedulingInformation) :
    SchedulingTable :=
  Function.update table action (change (table action))

/-- The action waits for the resources of the predecessor, if that is scheduled. -/
def link
    (action predecessor : ActionId) : SchedulingTable :=
  if (table predecessor).scheduled then
    (table.modify action (·.addPredecessor predecessor)).modify predecessor
      (·.addSuccessor action)
  else table

/-- The action waits for the predecessors, in their order. -/
def linkAll
    (predecessors : List ActionId) : SchedulingTable :=
  predecessors.foldl (fun table predecessor => table.link action predecessor)
    table

/-- The second action waits for the first one. -/
def Precedes (first second : ActionId) : Prop :=
  first ∈ (table second).resourcePredecessors

end SchedulingTable

/-!
## Unscheduling
-/

/-- The action is taken out of the lists of its predecessors. -/
def removeFromPredecessors
    (action : ActionId) :
    (predecessors : List ActionId) → SchedulingTable → SchedulingTable
  | [], table => table
  | predecessor :: rest, table =>
      removeFromPredecessors action rest
        (table.modify predecessor (·.removeSuccessor action))

/-- A successor waits for the predecessors of the action instead. -/
def linkSuccessor
    (action : ActionId)
    (predecessors : List ActionId)
    (successor : ActionId)
    (table : SchedulingTable) : SchedulingTable :=
  (table.modify successor (·.removePredecessor action)).linkAll successor
    predecessors

/-- The successors that wait for nothing any more are returned. -/
def linkSuccessors
    (action : ActionId)
    (predecessors : List ActionId) :
    (successors : List ActionId) → SchedulingTable →
      SchedulingTable × List ActionId
  | [], table => (table, [])
  | successor :: rest, table =>
      let linked := linkSuccessor action predecessors successor table
      let (after, freeTasks) := linkSuccessors action predecessors rest linked
      if (linked successor).isExecutable then
        (after, successor :: freeTasks)
      else
        (after, freeTasks)

/-!
## Scheduling
-/

variable (Resources : Type)

structure Gap where
  initialTime : Int
  endTime : Int
  origin : Option ActionId
  resources : Resources
  capacity : Int
  deriving DecidableEq

/-- What a resource description can do with its dynamic capabilities -/
structure DynamicResources where
  getDynamicCommons : Resources → Resources → Resources
  reduceDynamic : Resources → Resources → Resources
  isDynamicUseless : Resources → Bool

variable {Resources}

/-- `ResourceDescription.reduceCommonDynamics`, which changes both arguments -/
def DynamicResources.reduceCommonDynamics
    (dynamic : DynamicResources Resources)
    (gapResource constraints : Resources) : Resources × Resources :=
  let commons := dynamic.getDynamicCommons gapResource constraints
  (dynamic.reduceDynamic gapResource commons,
    dynamic.reduceDynamic constraints commons)

section

variable
  {Resources : Type}
  (dynamic : DynamicResources Resources)

/-- What a scan of the gaps has come to -/
structure GapScan (Resources : Type) where
  gaps : List (Gap Resources)
  constraints : Resources
  predecessors : List ActionId
  fullyCoveredReqs : Bool

/--
The eligible gaps give their resources in order, until the requirements are
covered.  A gap without resources is removed.
-/
def scanGaps
    (eligible : Gap Resources → Bool) :
    List (Gap Resources) → Resources → List ActionId → GapScan Resources
  | [], constraints, predecessors => ⟨[], constraints, predecessors, false⟩
  | gap :: rest, constraints, predecessors =>
      if eligible gap then
        let (gapResource, left) :=
          dynamic.reduceCommonDynamics gap.resources constraints
        let found := predecessors ++ gap.origin.toList
        let kept :=
          if dynamic.isDynamicUseless gapResource then []
          else [{ gap with resources := gapResource }]
        if dynamic.isDynamicUseless left then
          ⟨kept ++ rest, left, found, true⟩
        else
          let scan := scanGaps eligible rest left found
          { scan with gaps := kept ++ scan.gaps }
      else
        let scan := scanGaps eligible rest constraints predecessors
        { scan with gaps := gap :: scan.gaps }

variable (gaps : List (Gap Resources))

/-- The gaps before `expectedStart` are scanned from the last one on. -/
def takeFromGaps
    (expectedStart : Int)
    (requirements : Resources) : List (Gap Resources) × List ActionId :=
  let before :=
    scanGaps dynamic (fun gap => gap.initialTime ≤ expectedStart) gaps.reverse
      requirements []
  if before.fullyCoveredReqs then
    (before.gaps.reverse, before.predecessors)
  else
    let after :=
      scanGaps dynamic (fun _ => true) before.gaps.reverse before.constraints
        before.predecessors
    (after.gaps, after.predecessors)

/-- Behind the gaps that are not later than the new one -/
def addGap
    (gap : Gap Resources) : List (Gap Resources) :=
  gaps.takeWhile (·.initialTime ≤ gap.initialTime) ++
    gap :: gaps.dropWhile (·.initialTime ≤ gap.initialTime)

/-- An action that is assigned to a worker with one of its implementations -/
structure AssignedAction (Resources : Type) where
  action : ActionId
  dataPredecessors : List ActionId
  requirements : Resources
  /-- The average of the profile of the implementation, if there is a profile -/
  averageExecutionTime : Option Int

/-- The latest end of the actions that are scheduled -/
def latestEnd
    (table : SchedulingTable)
    (start : Int)
    (actions : List ActionId) : Int :=
  actions.foldl
    (fun latest action =>
      if (table action).scheduled then max latest (table action).expectedEnd
      else latest)
    start

/-- The gaps and the table when the action has been scheduled -/
def scheduleUsingGaps
    (assigned : AssignedAction Resources)
    (gaps : List (Gap Resources))
    (table : SchedulingTable) : List (Gap Resources) × SchedulingTable :=
  let dataEnd := latestEnd table 0 assigned.dataPredecessors
  let (left, predecessors) :=
    takeFromGaps dynamic gaps dataEnd assigned.requirements
  let scheduled :=
    table.modify assigned.action fun dsi => { dsi with scheduled := true }
  let expectedStart := latestEnd scheduled dataEnd predecessors
  let linked := scheduled.linkAll assigned.action predecessors
  let expectedEnd := expectedStart + assigned.averageExecutionTime.getD 0
  (addGap left
      ⟨expectedEnd, LONG_MAX_VALUE, some assigned.action,
        assigned.requirements, 0⟩,
    linked.modify assigned.action fun dsi =>
      { dsi with expectedStart, expectedEnd })

/--
The scheduler of a worker.  There is an `opAction` while the plan is optimized;
`pendingUnschedulings` are the actions that are unscheduled meanwhile.
-/
structure FullGraphResourceScheduler (Resources : Type) where
  gaps : List (Gap Resources)
  opAction : Option ActionId
  pendingUnschedulings : List ActionId

namespace FullGraphResourceScheduler

def new (description : Resources) : FullGraphResourceScheduler Resources where
  gaps := addGap [] ⟨LONG_MIN_VALUE, LONG_MAX_VALUE, none, description, 0⟩
  opAction := none
  pendingUnschedulings := []

variable
  (scheduler : FullGraphResourceScheduler Resources)
  (table : SchedulingTable)

/-- The table is shared with the schedulers of the other workers. -/
def scheduleAction
    (assigned : AssignedAction Resources) :
    FullGraphResourceScheduler Resources × SchedulingTable :=
  match scheduler.opAction with
  | some opAction =>
      (scheduler,
        (table.modify opAction (·.addSuccessor assigned.action)).modify
          assigned.action (·.addPredecessor opAction))
  | none =>
      let (gaps, scheduled) :=
        scheduleUsingGaps dynamic assigned scheduler.gaps table
      ({ scheduler with gaps }, scheduled)

/-- The tasks that are free are returned with the table. -/
def unscheduleAction
    (action : ActionId) :
    FullGraphResourceScheduler Resources × SchedulingTable × List ActionId :=
  let actionDSI := table action
  let removed :=
    removeFromPredecessors action actionDSI.resourcePredecessors table
  let (linked, freeTasks) :=
    linkSuccessors action actionDSI.resourcePredecessors
      actionDSI.resourceSuccessors removed
  let pendingUnschedulings :=
    if actionDSI.onOptimization then
      scheduler.pendingUnschedulings.insert action
    else scheduler.pendingUnschedulings
  ({ scheduler with pendingUnschedulings },
    linked.modify action (·.unscheduled), freeTasks)

end FullGraphResourceScheduler

end

/-!
## What the operations on the table change
-/

namespace SchedulingTable

variable
  {table : SchedulingTable}
  {action predecessor other : ActionId}
  {predecessors : List ActionId}

theorem modify_self
    (change :
      FullGraphSchedulingInformation → FullGraphSchedulingInformation) :
    table.modify action change action = change (table action) :=
  Function.update_self _ _ _

theorem modify_of_ne
    (different : other ≠ action)
    (change :
      FullGraphSchedulingInformation → FullGraphSchedulingInformation) :
    table.modify action change other = table other :=
  Function.update_of_ne different _ _

variable (other)

/-- A link changes the lists only. -/
theorem times_link :
    (table.link action predecessor other).times = (table other).times := by
  rw [link]
  split
  · by_cases isPredecessor : other = predecessor
    · subst isPredecessor
      rw [modify_self]
      by_cases isAction : other = action
      · subst isAction
        rw [modify_self]
        rfl
      · rw [modify_of_ne isAction]
        rfl
    · rw [modify_of_ne isPredecessor]
      by_cases isAction : other = action
      · subst isAction
        rw [modify_self]
        rfl
      · rw [modify_of_ne isAction]
  · rfl

theorem scheduled_link :
    (table.link action predecessor other).scheduled =
      (table other).scheduled :=
  congrArg Prod.fst (times_link other)

theorem predecessors_link
    (scheduled : (table predecessor).scheduled)
    (other : ActionId) :
    (table.link action predecessor other).resourcePredecessors =
      (table other).resourcePredecessors ++
        if other = action then [predecessor] else [] := by
  rw [link, if_pos scheduled]
  have unchanged :
      ∀ between : SchedulingTable,
        (between.modify predecessor (·.addSuccessor action)
          other).resourcePredecessors =
          (between other).resourcePredecessors := by
    intro between
    by_cases isPredecessor : other = predecessor
    · subst isPredecessor
      rw [modify_self]
      rfl
    · rw [modify_of_ne isPredecessor]
  rw [unchanged]
  by_cases isAction : other = action
  · subst isAction
    rw [modify_self, if_pos rfl]
    rfl
  · rw [modify_of_ne isAction, if_neg isAction, append_nil]

theorem successors_link
    (scheduled : (table predecessor).scheduled)
    (other : ActionId) :
    (table.link action predecessor other).resourceSuccessors =
      (table other).resourceSuccessors ++
        if other = predecessor then [action] else [] := by
  rw [link, if_pos scheduled]
  have unchanged :
      (table.modify action (·.addPredecessor predecessor)
        other).resourceSuccessors =
        (table other).resourceSuccessors := by
    by_cases isAction : other = action
    · subst isAction
      rw [modify_self]
      rfl
    · rw [modify_of_ne isAction]
  by_cases isPredecessor : other = predecessor
  · subst isPredecessor
    rw [modify_self, if_pos rfl, ← unchanged]
    rfl
  · rw [modify_of_ne isPredecessor, if_neg isPredecessor, append_nil,
      unchanged]

theorem times_linkAll :
    (table.linkAll action predecessors other).times = (table other).times := by
  induction predecessors generalizing table with
  | nil => rfl
  | cons first rest hypothesis => exact hypothesis.trans (times_link other)

theorem scheduled_linkAll :
    (table.linkAll action predecessors other).scheduled =
      (table other).scheduled :=
  congrArg Prod.fst (times_linkAll other)

theorem predecessors_linkAll
    (scheduled : ∀ first ∈ predecessors, (table first).scheduled)
    (other : ActionId) :
    (table.linkAll action predecessors other).resourcePredecessors =
      (table other).resourcePredecessors ++
        if other = action then predecessors else [] := by
  induction predecessors generalizing table with
  | nil => simp [linkAll]
  | cons first rest hypothesis =>
      have firstScheduled := scheduled first (mem_cons_self ..)
      have restScheduled :
          ∀ member ∈ rest,
            (table.link action first member).scheduled := by
        intro member isRest
        rw [scheduled_link]
        exact scheduled member (mem_cons_of_mem _ isRest)
      refine (hypothesis restScheduled).trans ?_
      rw [predecessors_link firstScheduled]
      by_cases isAction : other = action
      · simp [isAction]
      · simp [isAction]

theorem successors_linkAll
    (scheduled : ∀ first ∈ predecessors, (table first).scheduled)
    (other : ActionId) :
    (table.linkAll action predecessors other).resourceSuccessors =
      (table other).resourceSuccessors ++
        replicate (predecessors.count other) action := by
  induction predecessors generalizing table with
  | nil => simp [linkAll]
  | cons first rest hypothesis =>
      have firstScheduled := scheduled first (mem_cons_self ..)
      have restScheduled :
          ∀ member ∈ rest,
            (table.link action first member).scheduled := by
        intro member isRest
        rw [scheduled_link]
        exact scheduled member (mem_cons_of_mem _ isRest)
      refine (hypothesis restScheduled).trans ?_
      rw [successors_link firstScheduled]
      by_cases isFirst : other = first
      · subst isFirst
        simp [replicate_succ]
      · have notFirst : first ≠ other := Ne.symm isFirst
        simp [isFirst, count_cons_of_ne notFirst]

end SchedulingTable

end DistributedRdf.Scheduling
