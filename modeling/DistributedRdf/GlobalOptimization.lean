import DistributedRdf.GapTimes
import DistributedRdf.PriorityQueue

namespace DistributedRdf.Scheduling

open Java

/-!
# Actions that are moved between workers

When every worker has optimized its own plan, the one that is the last to be
free offers its actions to the others.  The first action that one of them takes
ends the pass.
-/

/-- A worker after the optimization of its plan -/
structure OptimizationWorker (Resources : Type) where
  resource : FullGraphResourceScheduler Resources
  hasGap : resource.gaps ≠ []
  optimized : resource.opAction = none

structure GlobalPlan (Resources Impl : Type) where
  workers : WorkerId → OptimizationWorker Resources
  table : SchedulingTable
  graph : ActionId → ActionNode
  selectedResource : ActionId → Option WorkerId
  selectedImpl : ActionId → Option Impl
  /-- The workers that have begun to execute the action -/
  executingResources : ActionId → List WorkerId

/-- What the workers, the tasks and the scores say of an action -/
structure OptimizerEnvironment (Resources Impl : Type) where
  dynamic : DynamicResources Resources
  requirements : Impl → Resources
  /-- The average of the profile that the worker keeps for the implementation -/
  averageExecutionTime : WorkerId → Impl → Int
  /-- The worker can run each of them. -/
  getCompatibleImplementations : ActionId → WorkerId → List Impl
  canRunCore : WorkerId → ActionId → Bool
  getConstrainingPredecessors : ActionId → List ActionId
  /-- No action is blocked on the worker, and there are enough resources. -/
  hasRoom : ActionId → WorkerId → Bool
  /-- The one with the best score of several implementations -/
  bestScored :
    GlobalPlan Resources Impl → ActionId → WorkerId → Impl → List Impl → Impl

variable {Resources Impl : Type}

theorem addGap_ne_nil
    (gaps : List (Gap Resources))
    (gap : Gap Resources) :
    addGap gaps gap ≠ [] := by
  simp [addGap]

namespace OptimizationWorker

variable (worker : OptimizationWorker Resources)

def getLastGapExpectedStart : Int :=
  (worker.resource.gaps.head worker.hasGap).initialTime

def getDonationIndicator : Int :=
  worker.getLastGapExpectedStart

def scheduleAction
    (dynamic : DynamicResources Resources)
    (table : SchedulingTable)
    (assigned : AssignedAction Resources) :
    OptimizationWorker Resources × SchedulingTable :=
  let scheduled := worker.resource.scheduleAction dynamic table assigned
  ({ resource := scheduled.1
     hasGap := by
      simp only [scheduled, FullGraphResourceScheduler.scheduleAction,
        worker.optimized]
      exact addGap_ne_nil _ _
     optimized := by
      simp only [scheduled, FullGraphResourceScheduler.scheduleAction,
        worker.optimized] },
    scheduled.2)

def unscheduleAction
    (table : SchedulingTable)
    (action : ActionId) : OptimizationWorker Resources × SchedulingTable :=
  let unscheduled := worker.resource.unscheduleAction table action
  ({ resource := unscheduled.1
     hasGap := worker.hasGap
     optimized := worker.optimized },
    unscheduled.2.1)

end OptimizationWorker

/-!
## Donor and receivers
-/

section Donor

/-- `Long.compare` -/
def compareLong (one two : Int) : Int :=
  if one < two then -1 else if one = two then 0 else 1

def receptionComparator
    (workers : WorkerId → OptimizationWorker Resources)
    (worker1 worker2 : WorkerId) : Int :=
  compareLong (workers worker1).getDonationIndicator
    (workers worker2).getDonationIndicator

variable
  (workers : WorkerId → OptimizationWorker Resources)
  (implementation :
    PriorityQueue.Implementation WorkerId (receptionComparator workers))

/-- The last of the workers with the highest indicator, and the others -/
def scanIndicators :
    List WorkerId → Int → Option WorkerId →
      PriorityQueue WorkerId (receptionComparator workers) →
        Option WorkerId × PriorityQueue WorkerId (receptionComparator workers)
  | [], _, top, receiversPQ => (top, receiversPQ)
  | ow :: rest, topIndicator, top, receiversPQ =>
      let indicator := (workers ow).getDonationIndicator
      if topIndicator > indicator then
        scanIndicators rest topIndicator top (receiversPQ.add implementation ow)
      else
        let added :=
          match top with
          | none => receiversPQ
          | some former => receiversPQ.add implementation former
        scanIndicators rest indicator (some ow) added

def determineDonorAndReceivers
    (all : List WorkerId) : Option WorkerId × List WorkerId :=
  let scanned :=
    scanIndicators workers implementation all LONG_MIN_VALUE none .empty
  (scanned.1,
    PriorityQueue.drain implementation scanned.2.elements.length scanned.2)

end Donor

/-!
## A move
-/

namespace GlobalPlan

section Move

variable
  (environment : OptimizerEnvironment Resources Impl)
  (plan : GlobalPlan Resources Impl)
  (action : ActionId)

def unschedule : GlobalPlan Resources Impl :=
  match plan.selectedResource action with
  | none => plan
  | some resource =>
      let unscheduled :=
        (plan.workers resource).unscheduleAction plan.table action
      { plan with
        workers := Function.update plan.workers resource unscheduled.1
        table := unscheduled.2 }

variable
  (targetWorker : WorkerId)
  (impl : Impl)

/-- The resource and the implementation of a started action stay as they are. -/
def assign : GlobalPlan Resources Impl :=
  if (plan.graph action).state = .RUNNABLE then
    { plan with
      selectedResource :=
        Function.update plan.selectedResource action (some targetWorker)
      selectedImpl := Function.update plan.selectedImpl action (some impl) }
  else plan

/-- `scheduleAction` of the target worker, which takes what is assigned. -/
def scheduleOn : GlobalPlan Resources Impl :=
  match plan.selectedImpl action with
  | none => plan
  | some impl =>
      let scheduled :=
        (plan.workers targetWorker).scheduleAction environment.dynamic
          plan.table
          { action
            dataPredecessors := (plan.graph action).dataPredecessors.items
            requirements := environment.requirements impl
            averageExecutionTime :=
              some (environment.averageExecutionTime targetWorker impl) }
      { plan with
        workers := Function.update plan.workers targetWorker scheduled.1
        table := scheduled.2 }

/-- `action.schedule(targetWorker, impl)`; nothing is changed by an
`UnassignedActionException`. -/
def scheduleAction : Option (GlobalPlan Resources Impl) :=
  if targetWorker ∈ plan.executingResources action then
    none
  else
    some ((plan.assign action targetWorker impl).scheduleOn environment action
      targetWorker)

/-- Whether `schedule(targetWorker, score)` finds an implementation there -/
def canBeScheduled : Bool :=
  environment.canRunCore targetWorker action &&
    !(plan.executingResources action).contains targetWorker &&
      !(environment.getCompatibleImplementations action targetWorker).isEmpty

/-- `action.schedule(targetWorker, score)` -/
def scheduleScored :
    Option WorkerId → Option (GlobalPlan Resources Impl)
  | none => none
  | some targetWorker =>
      if plan.canBeScheduled environment action targetWorker then
        match environment.getCompatibleImplementations action targetWorker with
        | [] => none
        | first :: others =>
            plan.scheduleAction environment action targetWorker
              (environment.bestScored plan action targetWorker first others)
      else none

def unrequiredResource : Bool :=
  (environment.getConstrainingPredecessors action).all fun predecessor =>
    plan.selectedResource predecessor ≠ plan.selectedResource action

/-- The execution begins, or the action waits on its worker. -/
def execute
    (resource : WorkerId) : GlobalPlan Resources Impl :=
  let setState (state : ActionState) :=
    Function.update plan.graph action { plan.graph action with state }
  if environment.hasRoom action resource then
    { plan with
      graph := setState .RUNNING
      executingResources :=
        Function.update plan.executingResources action
          (plan.executingResources action ++ [resource]) }
  else
    { plan with graph := setState .WAITING }

/-- Nothing is changed by an `InvalidSchedulingException`. -/
def tryToLaunch : Option (GlobalPlan Resources Impl) :=
  match plan.selectedResource action with
  | none => some plan
  | some resource =>
      if (plan.graph action).state = .RUNNABLE ∧
          ¬(plan.graph action).hasDataPredecessors ∧
            (plan.table action).isExecutable then
        if ¬(environment.getConstrainingPredecessors action).isEmpty ∧
            plan.unrequiredResource environment action then
          none
        else
          some (plan.execute environment action resource)
      else some plan

/-- The action is scheduled where its constraining predecessors are, until it
can be launched there. -/
def scheduleConstrained (action : ActionId) :
    List ActionId → GlobalPlan Resources Impl → GlobalPlan Resources Impl
  | [], plan => plan
  | pre :: rest, plan =>
      match
        plan.scheduleScored environment action (plan.selectedResource pre)
      with
      | none => plan
      | some scheduled =>
          match scheduled.tryToLaunch environment action with
          | some launched => launched
          | none => scheduleConstrained action rest scheduled

variable (receiver : WorkerId)

/-- `ScheduleOptimizer.schedule` -/
def schedule : GlobalPlan Resources Impl :=
  match plan.scheduleAction environment action receiver impl with
  | none => plan
  | some scheduled =>
      match scheduled.tryToLaunch environment action with
      | some launched => launched
      | none =>
          scheduleConstrained environment action
            (environment.getConstrainingPredecessors action) scheduled

/-- The first of the fastest implementations, with its time -/
def fastest
    (receiver : WorkerId) :
    List Impl → Option Impl → Int → Option Impl × Int
  | [], bestImpl, bestTime => (bestImpl, bestTime)
  | impl :: rest, bestImpl, bestTime =>
      let avgTime := environment.averageExecutionTime receiver impl
      if avgTime < bestTime then
        fastest receiver rest (some impl) avgTime
      else
        fastest receiver rest bestImpl bestTime

/--
The implementation with which the receiver would take an action that is to end
at `currentEnd`.  When the data of the action are available is not asked.
-/
def taking
    (currentEnd : Int) : Option Impl :=
  let (bestImpl, bestTime) :=
    fastest environment receiver
      (environment.getCompatibleImplementations action receiver) none
      LONG_MAX_VALUE
  if currentEnd >
      (plan.workers receiver).getLastGapExpectedStart + bestTime then
    bestImpl
  else none

/-- The plan after the move, if the action is moved -/
def move : Option (GlobalPlan Resources Impl) :=
  (plan.taking environment action receiver
    (plan.table action).expectedEnd).map fun bestImpl =>
      (plan.unschedule action).schedule environment action bestImpl receiver

/-- Every receiver is offered the action, also when another one has taken it. -/
def offer
    (action : ActionId) :
    List WorkerId → GlobalPlan Resources Impl →
      GlobalPlan Resources Impl × List WorkerId
  | [], plan => (plan, [])
  | receiver :: rest, plan =>
      match plan.move environment action receiver with
      | none => offer action rest plan
      | some moved =>
          let (after, takers) := offer action rest moved
          (after, receiver :: takers)

/-- The candidates are offered until one of them is taken. -/
def donate
    (receivers : List WorkerId) :
    List ActionId → GlobalPlan Resources Impl →
      GlobalPlan Resources Impl × Option (ActionId × List WorkerId)
  | [], plan => (plan, none)
  | candidate :: rest, plan =>
      match offer environment candidate receivers plan with
      | (after, []) => donate receivers rest after
      | (after, taker :: takers) => (after, some (candidate, taker :: takers))

end Move

/--
One pass over the candidates of the donor, which are polled in the order of
`donorActions`.  The action that is moved is returned with its receivers.
-/
def optimizationPass
    (environment : OptimizerEnvironment Resources Impl)
    (plan : GlobalPlan Resources Impl)
    (implementation :
      PriorityQueue.Implementation WorkerId (receptionComparator plan.workers))
    (all : List WorkerId)
    (donorActions : WorkerId → List ActionId) :
    GlobalPlan Resources Impl × Option (ActionId × List WorkerId) :=
  match determineDonorAndReceivers plan.workers implementation all with
  | (none, _) => (plan, none)
  | (some donor, receivers) =>
      donate environment receivers (donorActions donor) plan

end GlobalPlan

end DistributedRdf.Scheduling
