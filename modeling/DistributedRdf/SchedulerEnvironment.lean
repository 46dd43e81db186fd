import DistributedRdf.Score
import DistributedRdf.Workers

namespace DistributedRdf.Scheduling

open Java

/-!
# The task scheduler and its resource schedulers

The environment of the heap of actions: what each action is and where it is
scheduled, the workers with the queues of their resource schedulers, and the
collections of the task scheduler.
-/

/-- The class of an action and what it is constructed with. -/
inductive ActionKind where
  /-- `ExecutionAction` -/
  | execution
      (coreId : CoreId)
      (forcedResource : Option WorkerId)
      (constrainingPredecessors : List ActionId)
  /-- `StartWorkerAction` -/
  | startWorker (worker : WorkerId)
  deriving DecidableEq

/-- `selectedResource` and `selectedImpl`, which are set together. -/
structure Assignment where
  resource : WorkerId
  implementation : Implementation

/-- The executions of an action, with the workers it could have used. -/
inductive ExecutionEvent where
  | started (resource : WorkerId) (compatibleWorkers : List WorkerId)
  | failed (resource : WorkerId)
  deriving DecidableEq

structure ActionDetails where
  kind : ActionKind
  assigned : Option Assignment
  executingResources : List WorkerId
  resourceConsumption : Option MethodResourceDescription
  /-- The executions so far, oldest first. -/
  history : List ExecutionEvent

def ActionDetails.new (kind : ActionKind) : ActionDetails where
  kind := kind
  assigned := none
  executingResources := []
  resourceConsumption := none
  history := []

/-- The scheduler classes that differ in what they do with ready actions. -/
inductive SchedulerKind where
  /-- `TaskScheduler` -/
  | base
  /-- `DataScheduler`, `FIFOScheduler`, `LIFOScheduler`, `LoadBalancingScheduler` -/
  | ready
  /-- `FIFODataScheduler` -/
  | fifoData
  deriving DecidableEq

structure SchedulerEnv where
  actions : ActionId → ActionDetails
  workers : WorkerId → Worker
  /-- The workers that have a resource scheduler. -/
  registered : List WorkerId
  /-- `ResourceScheduler.running` -/
  hosted : WorkerId → List ActionId
  /-- `ResourceScheduler.blocked`, from its head on -/
  waiting : WorkerId → List ActionId
  /-- `CoreManager.getCoreCount()` -/
  coreCount : Nat
  coreToWorkers : List (List WorkerId)
  readyCounts : List Int
  blockedActions : ActionSet
  dependingActions : ActionSet
  unassignedReadyActions : ActionSet

/--
What the scores that are current at a step decide.  The order in which a queue
hands out its elements is free, for scores may be equal or change while it is
filled.
-/
structure Scores where
  implementationScore :
    SchedulerEnv → ActionId → WorkerId → Implementation → Score
  isBetter : Score → Score → Bool
  executionOrder : List ActionId → List ActionId
  executionOrder_perm : ∀ actions, (executionOrder actions).Perm actions
  waitingOrder : WorkerId → List ActionId → List ActionId
  waitingOrder_perm :
    ∀ worker actions, (waitingOrder worker actions).Perm actions

namespace SchedulerEnv

variable (env : SchedulerEnv) (action : ActionId)

def modifyAction (change : ActionDetails → ActionDetails) : SchedulerEnv :=
  { env with
    actions := Function.update env.actions action (change (env.actions action)) }

def assignedResource : Option WorkerId :=
  (env.actions action).assigned.map (·.resource)

def executingResources : List WorkerId :=
  (env.actions action).executingResources

def getConstrainingPredecessors : List ActionId :=
  match (env.actions action).kind with
  | .execution _ _ constrainingPredecessors => constrainingPredecessors
  | .startWorker _ => []

def isSchedulingConstrained : Bool :=
  env.getConstrainingPredecessors action ≠ []

/-- No constraining predecessor is assigned to the selected resource. -/
def unrequiredResource : Bool :=
  (env.getConstrainingPredecessors action).all fun a =>
    env.assignedResource a ≠ env.assignedResource action

/-- `getImplementations()[0]`: a core is registered with an implementation. -/
def firstImplementation : FirstImplementation :=
  match (env.actions action).kind with
  | .execution coreId _ _ => .ofCore coreId
  | .startWorker _ => .ofNoCore

variable (worker : WorkerId)

def isCompatible : Bool :=
  match (env.actions action).kind with
  | .execution coreId _ _ => (env.workers worker).canRunCore coreId
  | .startWorker started => worker = started

def getCompatibleWorkers : List WorkerId :=
  match (env.actions action).kind with
  | .execution coreId _ _ => env.coreToWorkers[coreId]?.getD []
  | .startWorker worker => [worker]

/-- What the action asks of the worker that it is assigned to. -/
def requirements (assignment : Assignment) : MethodResourceDescription :=
  match (env.actions action).kind with
  | .execution _ _ _ => assignment.implementation.requirements
  | .startWorker _ => (env.workers assignment.resource).description

/-- Only actions that are assigned are asked for their resources. -/
def areEnoughResources : Bool :=
  match (env.actions action).assigned with
  | none => false
  | some assignment =>
      (env.workers assignment.resource).canRunNow
        (env.requirements action assignment)

/-! ## Collections of the task scheduler -/

def changeReadyCount (change : Int) : Outcome SchedulerEnv Unit :=
  match env.firstImplementation action with
  | .ofCore coreId =>
      if coreId < env.readyCounts.length then
        .returned
          { env with
            readyCounts := env.readyCounts.modify coreId (· + change) } ()
      else
        .raised env .indexOutOfBounds
  | .missing => .returned env ()
  | .ofNoCore => .returned env ()

def addToReady : Outcome SchedulerEnv Unit :=
  env.changeReadyCount action 1

def removeFromReady : Outcome SchedulerEnv Unit :=
  env.changeReadyCount action (-1)

def addToBlocked : Outcome SchedulerEnv Unit :=
  (env.blockedActions.addAction action (env.firstImplementation action)
    env.coreCount).onState fun set => { env with blockedActions := set }

def addToDepending : Outcome SchedulerEnv Unit :=
  (env.dependingActions.addAction action (env.firstImplementation action)
    env.coreCount).onState fun set => { env with dependingActions := set }

def addToUnassigned : Outcome SchedulerEnv Unit :=
  (env.unassignedReadyActions.addAction action (env.firstImplementation action)
    env.coreCount).onState fun set => { env with unassignedReadyActions := set }

/-! ## Queues of the resource schedulers -/

def hostAction : SchedulerEnv :=
  { env with
    hosted := Function.update env.hosted worker
      (env.hosted worker ++ [action]) }

def unhostAction : SchedulerEnv :=
  { env with
    hosted := Function.update env.hosted worker
      ((env.hosted worker).erase action) }

variable (scores : Scores)

def waitOnResource (worker : WorkerId) : SchedulerEnv :=
  { env with
    waiting := Function.update env.waiting worker
      (scores.waitingOrder worker (action :: env.waiting worker)) }

/-- What remains after the head has been taken is arranged anew. -/
def removeFirstBlocked (worker : WorkerId) : SchedulerEnv :=
  { env with
    waiting := Function.update env.waiting worker
      (scores.waitingOrder worker (env.waiting worker).tail) }

def cancelAction : SchedulerEnv :=
  { env with
    waiting := Function.update env.waiting worker
      ((env.waiting worker).erase action) }

/-! ## Resources of the workers -/

def modifyWorker (changed : Worker) : SchedulerEnv :=
  { env with workers := Function.update env.workers worker changed }

/-- Only an `ExecutionAction` keeps what has been reserved for it. -/
def keepReserved
    (reserved : Option MethodResourceDescription)
    (details : ActionDetails) : ActionDetails :=
  match details.kind with
  | .execution _ _ _ => { details with resourceConsumption := reserved }
  | .startWorker _ => details

def reserveResources (assignment : Assignment) : SchedulerEnv :=
  let (worker, reserved) :=
    (env.workers assignment.resource).runTask (env.requirements action assignment)
  (env.modifyWorker assignment.resource worker).modifyAction action
    (keepReserved reserved)

/-- What `releaseResources` gives back to a worker. -/
def consumption : Option MethodResourceDescription :=
  match (env.actions action).kind with
  | .execution _ _ _ => (env.actions action).resourceConsumption
  | .startWorker _ => some (env.workers worker).description

def releaseResources : Outcome SchedulerEnv Unit :=
  match env.assignedResource action with
  | none => .raised env .nullPointer
  | some resource =>
      ((env.workers resource).endTask (env.consumption action resource)).onState
        (env.modifyWorker resource)

end SchedulerEnv

end DistributedRdf.Scheduling
