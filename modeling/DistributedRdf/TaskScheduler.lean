import DistributedRdf.Placement
import DistributedRdf.TransitionSystem

namespace DistributedRdf.Scheduling

open Java Execution List

/-!
# Runs of the task scheduler

The dispatcher thread takes one request after the other.  A request is processed
in steps: what is left of it stays on an agenda.  A request that throws leaves
the state it has reached, and the rest of its agenda is dropped.
-/

/-- What is left to do for a request. -/
inductive Work where
  /-- Schedules and launches an action, or blocks it. -/
  | place (action : ActionId)
  /-- The same for an action that was blocked. -/
  | refile (action : ActionId)
  | launch (action : ActionId)
  /-- The loop of `FIFODataScheduler.purgeFreeActions` -/
  | purge (remaining kept : List ActionId) (resource : WorkerId)
  /-- The end of `completed` and what `actionCompleted` does after it -/
  | settleSuccessors (action : ActionId) (resource : WorkerId)
  | updateWorker (worker : WorkerId)
  deriving DecidableEq

structure Dispatcher where
  world : SchedulerWorld
  agenda : List Work

/-- The state in which the resource manager hands over a worker. -/
structure WorkerUpdate where
  features : WorkerFeatures
  description : MethodResourceDescription
  noNegativeAmounts : description.NoNegativeAmounts
  available : MethodResourceDescription

inductive Request where
  /-- A new `ExecutionAction`, with the executions of its task's predecessors. -/
  | newAction
      (coreId : CoreId)
      (forcedResource : Option WorkerId)
      (dataPredecessors constrainingPredecessors : List ActionId)
  | actionCompleted (action : ActionId)
  | errorOnAction (action : ActionId)
  | updatedWorker (worker : WorkerId) (update : WorkerUpdate)
  | coreElementsUpdated
      (coreCount : Nat)
      (features : WorkerId → WorkerFeatures)

def SCHEDULING_CHANCES := 2

namespace SchedulerEnv

variable (env : SchedulerEnv) (action : ActionId)

/-- Whether `doError` throws a `FailedActionException`. -/
def doError : Bool :=
  match (env.actions action).kind with
  | .execution _ _ _ =>
      (env.executingResources action).length ≥ SCHEDULING_CHANCES
  | .startWorker _ => true

/--
The hooks that `failed` calls.  An action that starts a worker does not get
there, for adding it to the blocked actions throws.
-/
def hooks : ActionHooks SchedulerEnv where
  releaseResources action env := env.releaseResources action
  cancelAction action env :=
    match env.assignedResource action with
    | none => .raised env .nullPointer
    | some resource => .returned (env.cancelAction action resource) ()
  doFailed _ env := .returned env ()

variable (worker : WorkerId)

def changesOnWorker : SchedulerEnv :=
  let others := env.coreToWorkers.map (·.erase worker)
  let updated :=
    others ++ replicate (env.coreCount - others.length) []
  { env with
    coreToWorkers :=
      (env.workers worker).features.executableCores.foldl
        (fun coreToWorkers coreId =>
          coreToWorkers.modify coreId (· ++ [worker]))
        updated }

def coreElementsUpdated
    (newCoreCount : Nat)
    (features : WorkerId → WorkerFeatures) : SchedulerEnv :=
  { env with
    coreCount := newCoreCount
    workers := fun worker =>
      { env.workers worker with features := features worker }
    coreToWorkers :=
      env.coreToWorkers ++
        replicate (newCoreCount - env.coreToWorkers.length) []
    blockedActions := env.blockedActions.updateCoreCount newCoreCount
    readyCounts := replicate newCoreCount 0 }

def applyUpdate (update : WorkerUpdate) : SchedulerEnv :=
  env.modifyWorker worker
    { env.workers worker with
      features := update.features
      description := update.description
      noNegativeAmounts := update.noNegativeAmounts
      available := update.available }

end SchedulerEnv

namespace World

variable
  (kind : SchedulerKind)
  (scores : Scores)
  (world : SchedulerWorld)
  (action : ActionId)

def modifyEnv (change : SchedulerEnv → SchedulerEnv) : SchedulerWorld :=
  { world with env := change world.env }

/-- The constructor of an action, which gets the next id. -/
def create (actionKind : ActionKind) : SchedulerWorld :=
  { world with
    nextId := world.nextId + 1
    graph := Function.update world.graph world.nextId .new
    env := world.env.modifyAction world.nextId fun _ => .new actionKind }

/-- The constructor of `ExecutionAction` -/
def createExecution
    (coreId : CoreId)
    (forcedResource : Option WorkerId)
    (dataPredecessors constrainingPredecessors : List ActionId) :
    SchedulerWorld :=
  dataPredecessors.foldl
    (fun created predecessor =>
      created.addDataPredecessor world.nextId predecessor)
    (world.create (.execution coreId forcedResource constrainingPredecessors))

/-- The body of `newAllocatableAction`, and of the loop of `updatedWorker` -/
def newAllocatableAction : Outcome SchedulerWorld Unit :=
  (if (world.graph action).hasDataPredecessors then .returned world ()
    else world.callHook (·.addToReady action)).andThen fun world _ =>
      world.place kind scores action

/-- The start of `completed` and `error` -/
def leaveResource (state : ActionState) (resource : WorkerId) :
    Outcome SchedulerWorld Unit :=
  ((world.setState action state).callHook
    (·.releaseResources action)).andThen fun world _ =>
      .returned
        ((world.modifyEnv (·.unhostAction action resource)
          ).tryToLaunchBlockedActions scores resource) ()

/-- What is left for the successors is put on the agenda. -/
def actionCompleted : Outcome SchedulerWorld (List Work) :=
  (world.callHook (·.removeFromReady action)).andThen fun world _ =>
    match world.env.assignedResource action with
    | none => .raised world .nullPointer
    | some resource =>
        (world.leaveResource scores action .FINISHED resource).andThen
          fun world _ =>
            .returned world
              (match (world.env.actions action).kind with
              | .execution _ _ _ => [.settleSuccessors action resource]
              | .startWorker worker =>
                  [.updateWorker worker, .settleSuccessors action resource])

/-- The action has completely failed. -/
def failCompletely : Outcome SchedulerWorld Unit :=
  (world.block action).andThen fun world _ =>
    (world.failed SchedulerEnv.hooks action).andThen fun world _ =>
      .returned world ()

variable (resource : WorkerId)

def recordFailure : SchedulerWorld :=
  world.modifyEnv (·.modifyAction action fun details =>
    { details with history := details.history ++ [.failed resource] })

def errorOnAction : Outcome SchedulerWorld (List Work) :=
  match world.env.assignedResource action with
  | none => .raised world .nullPointer
  | some resource =>
      ((world.recordFailure action resource).leaveResource scores action
        .RUNNABLE resource).andThen fun world _ =>
          (if world.env.doError action then world.failCompletely action
            else .returned world ()).andThen fun world _ =>
              .returned world [.place action]

def updateWorker (worker : WorkerId) : Outcome SchedulerWorld (List Work) :=
  (if worker ∈ world.env.registered then .returned world ()
    else
      ((world.modifyEnv fun env =>
        { env with registered := env.registered ++ [worker] }).create
          (.startWorker worker)).newAllocatableAction kind scores
            world.nextId).andThen fun world _ =>
    let updated := world.modifyEnv (·.changesOnWorker worker)
    let cores := (world.env.workers worker).features.executableCores
    if cores = [] then
      .returned updated []
    else
      let (compatible, blocked) :=
        world.env.blockedActions.removeAllCompatibleActions
          (world.env.isCompatible · worker) cores
      .returned
        (updated.modifyEnv fun env => { env with blockedActions := blocked })
        ((scores.executionOrder compatible).map .refile)

/-- One round of the loop of `completed` over the data successors -/
def releaseSuccessor
    (finishedAction : ActionId)
    (released : SchedulerWorld × List ActionId)
    (aa : ActionId) : SchedulerWorld × List ActionId :=
  let done := released.1.dataPredecessorDone aa finishedAction
  if ¬ (done.graph aa).hasDataPredecessors ∧ ¬ (done.graph aa).isRunning then
    (done, released.2 ++ [aa])
  else
    (done, released.2)

def releaseSuccessors : SchedulerWorld × List ActionId :=
  let released :=
    (world.graph action).dataSuccessors.items.foldl (releaseSuccessor action)
      (world, [])
  (released.1.modify action fun node =>
    { node with dataSuccessors := node.dataSuccessors.clear }, released.2)

def addAllToReady : List ActionId → SchedulerWorld → Outcome SchedulerWorld Unit
  | [], world => .returned world ()
  | action :: rest, world =>
      (world.callHook (·.addToReady action)).andThen fun world _ =>
        addAllToReady rest world

/-- The unassigned actions are tried together with the free ones. -/
def placeWithUnassigned (freeActions : List ActionId) :
    SchedulerWorld × List Work :=
  (world.modifyEnv fun env =>
    { env with
      unassignedReadyActions := env.unassignedReadyActions.removeAllActions },
    (scores.executionOrder
      (freeActions ++ world.env.unassignedReadyActions.getAllActions)).map
        .place)

def handleDependencyFreeActions
    (dataFreeActions : List ActionId)
    (resource : WorkerId) : SchedulerWorld × List Work :=
  match kind with
  | .base => (world, (scores.executionOrder dataFreeActions).map .launch)
  | .ready => world.placeWithUnassigned scores dataFreeActions
  | .fifoData =>
      (world, [.purge (scores.executionOrder dataFreeActions) [] resource])

def settleSuccessors :
    Outcome SchedulerWorld (List Work) :=
  let (released, dataFreeActions) := world.releaseSuccessors action
  (addAllToReady dataFreeActions released).andThen fun world _ =>
    let (handled, work) :=
      world.handleDependencyFreeActions kind scores dataFreeActions resource
    .returned handled work

/-- The free actions are tried on the worker that has become free. -/
def purge (kept : List ActionId) (resource : WorkerId) :
    List ActionId → Outcome SchedulerWorld (List Work)
  | [] =>
      let (placed, work) := world.placeWithUnassigned scores kept
      .returned placed work
  | action :: rest =>
      if (world.graph action).hasDataPredecessors then
        (world.callHook (·.addToDepending action)).andThen fun world _ =>
          (world.tryToLaunch kind scores action).andThen fun world _ =>
            .returned world [.purge rest kept resource]
      else
        let (scheduled, result) :=
          world.scheduleOn kind scores action (some resource)
        if result = .unassigned then
          .returned scheduled [.purge rest (kept ++ [action]) resource]
        else
          (scheduled.tryToLaunch kind scores action).andThen fun world _ =>
            .returned world [.purge rest kept resource]

def perform : Work → Outcome SchedulerWorld (List Work)
  | .place action =>
      (world.place kind scores action).andThen fun world _ =>
        .returned world []
  | .refile action =>
      (world.newAllocatableAction kind scores action).andThen fun world _ =>
        .returned world []
  | .launch action =>
      (world.tryToLaunch kind scores action).andThen fun world _ =>
        .returned world []
  | .purge remaining kept resource =>
      world.purge kind scores kept resource remaining
  | .settleSuccessors action resource =>
      world.settleSuccessors kind scores action resource
  | .updateWorker worker => world.updateWorker kind scores worker

def process : Request → Outcome SchedulerWorld (List Work)
  | .newAction coreId forcedResource dataPredecessors
      constrainingPredecessors =>
      ((world.createExecution coreId forcedResource dataPredecessors
        constrainingPredecessors).newAllocatableAction kind scores
          world.nextId).andThen fun world _ => .returned world []
  | .actionCompleted action => world.actionCompleted scores action
  | .errorOnAction action => world.errorOnAction scores action
  | .updatedWorker worker update =>
      (world.modifyEnv (·.applyUpdate worker update)).updateWorker kind scores
        worker
  | .coreElementsUpdated coreCount features =>
      .returned (world.modifyEnv (·.coreElementsUpdated coreCount features)) []

end World

/-- The workers and the cores that the runtime has loaded. -/
structure Deployment where
  workers : WorkerId → Worker
  unused : ∀ worker, (workers worker).usedTaskCount = 0
  allAvailable :
    ∀ worker, (workers worker).available = (workers worker).description
  coreCount : Nat

namespace Dispatcher

/-- A step of the dispatcher, with the scores that are current. -/
inductive Action where
  | process (scores : Scores) (request : Request)
  | continue (scores : Scores)

def after
    (outcome : Outcome SchedulerWorld (List Work))
    (rest : List Work) : Dispatcher :=
  match outcome with
  | .returned world work => ⟨world, work ++ rest⟩
  | .raised world _ => ⟨world, []⟩

variable
  (kind : SchedulerKind)
  (dispatcher : Dispatcher)

def next :
    Action → Dispatcher
  | .process scores request =>
      after (dispatcher.world.process kind scores request) []
  | .continue scores =>
      match dispatcher.agenda with
      | [] => dispatcher
      | work :: rest => after (dispatcher.world.perform kind scores work) rest

/-- What is promised of a request. -/
def Legal (world : SchedulerWorld) : Request → Prop
  | .newAction coreId forcedResource dataPredecessors
      constrainingPredecessors =>
      coreId < world.env.coreCount ∧
        (∀ worker ∈ forcedResource, worker ∈ world.env.registered) ∧
        (∀ predecessor ∈ dataPredecessors, predecessor < world.nextId) ∧
        ∀ predecessor ∈ constrainingPredecessors,
          predecessor < world.nextId ∧
            ((world.graph predecessor).isPending →
              predecessor ∈ dataPredecessors)
  | .actionCompleted action => (world.graph action).state = .RUNNING
  | .errorOnAction action => (world.graph action).state = .RUNNING
  | .updatedWorker _ update =>
      ∀ coreId ∈ update.features.executableCores, coreId < world.env.coreCount
  | .coreElementsUpdated coreCount features =>
      world.env.coreCount ≤ coreCount ∧
        ∀ worker, ∀ coreId ∈ (features worker).executableCores,
          coreId < coreCount

def Enabled : Action → Prop
  | .process _ request =>
      dispatcher.agenda = [] ∧ Legal dispatcher.world request
  | .continue _ => dispatcher.agenda ≠ []

variable (deployment : Deployment)

def start : Dispatcher where
  world := .fresh 0 {
    actions := fun _ => .new (.execution 0 none [])
    workers := deployment.workers
    registered := []
    hosted := fun _ => []
    waiting := fun _ => []
    coreCount := deployment.coreCount
    coreToWorkers := []
    readyCounts := replicate deployment.coreCount 0
    blockedActions := .new deployment.coreCount
    dependingActions := .new deployment.coreCount
    unassignedReadyActions := .new deployment.coreCount }
  agenda := []

/-- A scheduler class on a deployment. -/
def system :
    TransitionSystem Dispatcher Action where
  start := start deployment
  Enabled := Enabled
  next := next kind

end Dispatcher

end DistributedRdf.Scheduling
