import DistributedRdf.SchedulerEnvironment

namespace DistributedRdf.Scheduling

open Java

/-!
# Placing an action

An action is scheduled on the worker with the best score and launched there: it
runs at once or waits in the queue of the worker.  The dispatcher thread is the
only one that takes the lock of an action, so that the lock is free whenever it
is asked for.
-/

abbrev SchedulerWorld := World SchedulerEnv

/-- How `schedule` ends, if it does not throw another exception. -/
inductive ScheduleResult where
  | assigned
  /-- `UnassignedActionException` -/
  | unassigned
  /-- `BlockedActionException` -/
  | blocked
  deriving DecidableEq

/-- `bestWorker`, `bestImpl` and `bestScore` -/
structure BestChoice where
  worker : WorkerId
  implementation : Implementation
  score : Score

namespace SchedulerEnv

variable
  (kind : SchedulerKind) (scores : Scores) (env : SchedulerEnv)
  (action : ActionId)
  (worker : WorkerId)

/-- The ready schedulers have no score for what cannot run now. -/
def generateImplementationScore
    (impl : Implementation) : Option Score :=
  match kind with
  | .base => some (scores.implementationScore env action worker impl)
  | .ready | .fifoData =>
      if (env.workers worker).canRunNow impl.requirements then
        some (scores.implementationScore env action worker impl)
      else
        none

def considerImplementation
    (best : Option BestChoice)
    (impl : Implementation) : Option BestChoice :=
  match env.generateImplementationScore kind scores action worker impl with
  | none => best
  | some implScore =>
      if best.all fun choice => scores.isBetter implScore choice.score then
        some ⟨worker, impl, implScore⟩
      else
        best

variable (coreId : CoreId)

def considerWorker
    (best : Option BestChoice)
    (worker : WorkerId) : Option BestChoice :=
  ((env.workers worker).features.executableImpls coreId).foldl
    (env.considerImplementation kind scores action worker) best

variable (workers : List WorkerId)

def bestChoice : Option BestChoice :=
  workers.foldl (env.considerWorker kind scores action coreId) none

/-- A candidate that is `null` is asked for its score. -/
def candidates : Except JavaException (List WorkerId) :=
  match (env.actions action).kind with
  | .execution coreId forcedResource constrainingPredecessors =>
      match forcedResource with
      | some worker => .ok [worker]
      | none =>
          if env.isSchedulingConstrained action then
            if constrainingPredecessors.all fun a =>
                (env.assignedResource a).isSome then
              .ok (constrainingPredecessors.filterMap env.assignedResource)
            else
              .error .nullPointer
          else
            match env.coreToWorkers[coreId]? with
            | none => .error .indexOutOfBounds
            | some workers => .ok workers
  | .startWorker worker => .ok [worker]

/-- The candidates on which the action has not been executed. -/
def usefulResources :
    List WorkerId :=
  workers.filter (· ∉ env.executingResources action)

/-- What `schedule(targetWorker, impl)` accepts -/
def accepts (choice : BestChoice) : Bool :=
  (env.workers choice.worker).features.canRun choice.implementation &&
    choice.worker ∉ env.executingResources action

/-- What `schedule(targetWorker, actionScore)` settles on. -/
def targetedChoice
    (targetWorker : Option WorkerId) : Option BestChoice :=
  match targetWorker with
  | none => none
  | some worker =>
      if (env.workers worker).canRunCore coreId &&
          worker ∉ env.executingResources action then
        (env.bestChoice kind scores action coreId [worker]).filter
          (env.accepts action)
      else
        none

/-- The implementation of the action that starts a worker. -/
def startImplementation : Implementation where
  requirements := (env.workers worker).description
  noNegativeAmounts := (env.workers worker).noNegativeAmounts

end SchedulerEnv

namespace World

variable
  (kind : SchedulerKind)
  (scores : Scores)
  (world : SchedulerWorld)
  (action : ActionId)
  (assignment : Assignment)

/-- `assignImplementation` and `assignResources` -/
def assign : SchedulerWorld :=
  if (world.graph action).state = .RUNNABLE then
    { world with
      env := world.env.modifyAction action fun details =>
        { details with assigned := some assignment } }
  else
    world

def assignChoice (choice : Option BestChoice) : SchedulerWorld × ScheduleResult :=
  match choice with
  | none => (world, .unassigned)
  | some choice =>
      (world.assign action ⟨choice.worker, choice.implementation⟩, .assigned)

/-- `schedule(actionScore)` -/
def schedule : Outcome SchedulerWorld ScheduleResult :=
  match (world.env.actions action).kind with
  | .startWorker worker =>
      .returned
        (world.assign action ⟨worker, world.env.startImplementation worker⟩)
        .assigned
  | .execution coreId _ _ =>
      match world.env.candidates action with
      | .error exception => .raised world exception
      | .ok workers =>
          let useful := world.env.usefulResources action workers
          if useful = [] then
            .returned world .blocked
          else
            let (scheduled, result) := world.assignChoice action
              ((world.env.bestChoice kind scores action coreId useful).filter
                (world.env.accepts action))
            .returned scheduled result

/-- `schedule(targetWorker, actionScore)` -/
def scheduleOn (targetWorker : Option WorkerId) :
    SchedulerWorld × ScheduleResult :=
  match (world.env.actions action).kind with
  | .startWorker worker =>
      (world.assign action ⟨worker, world.env.startImplementation worker⟩,
        .assigned)
  | .execution coreId _ _ =>
      world.assignChoice action
        (world.env.targetedChoice kind scores action coreId targetWorker)

/-- `run`, with the start in the history of the action -/
def runOn : SchedulerWorld :=
  let running := world.setState action .RUNNING
  let reserved := running.env.reserveResources action assignment
  { running with
    env := (reserved.hostAction action assignment.resource).modifyAction action
      fun details =>
        { details with
          history := details.history ++
            [.started assignment.resource
              (world.env.getCompatibleWorkers action)] } }

/-- Only actions that are assigned are run. -/
def run : SchedulerWorld :=
  match (world.env.actions action).assigned with
  | none => world
  | some assignment => world.runOn action assignment

variable (resource : WorkerId)

def registerExecution : SchedulerWorld :=
  { world with
    env := world.env.modifyAction action fun details =>
      { details with
        executingResources := details.executingResources ++ [resource] } }

def waitOn : SchedulerWorld :=
  { world.setState action .WAITING with
    env := world.env.waitOnResource action scores resource }

def execute : SchedulerWorld :=
  if world.env.waiting resource = [] ∧ world.env.areEnoughResources action then
    (world.registerExecution action resource).run action
  else
    world.waitOn scores action resource

/-- `AllocatableAction.tryToLaunch`; false is an `InvalidSchedulingException`. -/
def launch : SchedulerWorld × Bool :=
  match world.env.assignedResource action with
  | none => (world, true)
  | some resource =>
      if (world.graph action).state = .RUNNABLE ∧
          ¬ (world.graph action).hasDataPredecessors then
        if world.env.isSchedulingConstrained action ∧
            world.env.unrequiredResource action then
          (world, false)
        else
          (world.execute scores action resource, true)
      else
        (world, true)

/--
The reassignment of `TaskScheduler.tryToLaunch` to the workers of the
constraining predecessors.  When none of them takes the action, a fatal error is
logged and the shutdown starts in another thread.
-/
def reassign : List ActionId → SchedulerWorld → Outcome SchedulerWorld Unit
  | [], world => .returned world ()
  | predecessor :: rest, world =>
      let resource := world.env.assignedResource predecessor
      let (scheduled, result) := world.scheduleOn kind scores action resource
      let (launched, valid) :=
        if result = .assigned then scheduled.launch scores action
        else (scheduled, false)
      if valid then
        .returned launched ()
      else if resource.isNone then
        -- the message asks for the name of the worker
        .raised launched .nullPointer
      else
        reassign rest launched

/-- `TaskScheduler.tryToLaunch` -/
def tryToLaunch : Outcome SchedulerWorld Unit :=
  let (launched, valid) := world.launch scores action
  if valid then
    .returned launched ()
  else
    reassign kind scores action
      (launched.env.getConstrainingPredecessors action) launched

/-- Returns whether the action is blocked. -/
def scheduleAction : Outcome SchedulerWorld Bool :=
  match kind with
  | .base =>
      -- a fatal error for an action that is not assigned is only logged
      (world.schedule kind scores action).andThen fun world result =>
        .returned world (result = .blocked)
  | .ready | .fifoData =>
      if (world.graph action).hasDataPredecessors then
        (world.callHook (·.addToDepending action)).andThen fun world _ =>
          .returned world false
      else
        (world.schedule kind scores action).andThen fun world result =>
          if result = .unassigned then
            (world.callHook (·.addToUnassigned action)).andThen fun world _ =>
              .returned world false
          else
            .returned world (result = .blocked)

def block : Outcome SchedulerWorld Unit :=
  (world.callHook (·.removeFromReady action)).andThen fun world _ =>
    world.callHook (·.addToBlocked action)

/-- Schedules and launches the action, or blocks it. -/
def place : Outcome SchedulerWorld Unit :=
  (world.scheduleAction kind scores action).andThen fun world isBlocked =>
    if isBlocked then world.block action
    else world.tryToLaunch kind scores action

/-- The loop of `tryToLaunchBlockedActions`, with a bound on its rounds -/
def resumeWithin (scores : Scores) (worker : WorkerId) :
    Nat → SchedulerWorld → SchedulerWorld
  | 0, world => world
  | rounds + 1, world =>
      match world.env.waiting worker with
      | [] => world
      | firstBlocked :: _ =>
          if world.env.areEnoughResources firstBlocked then
            resumeWithin scores worker rounds
              ({ world with
                env := world.env.removeFirstBlocked scores worker
              }.run firstBlocked)
          else
            -- its successors are not tried
            world

/-- Each round takes one action out of the queue. -/
def tryToLaunchBlockedActions (worker : WorkerId) : SchedulerWorld :=
  resumeWithin scores worker (world.env.waiting worker).length world

end World

end DistributedRdf.Scheduling
