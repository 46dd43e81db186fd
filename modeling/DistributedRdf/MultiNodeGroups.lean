import DistributedRdf.KeyedMap
import DistributedRdf.TaskScheduler

namespace DistributedRdf.Scheduling

open Java Execution

/-!
# Groups of multi-node executions

The actions of a group register when they are started.  The group hands out
process ids downwards from its size: who gets `MASTER_GROUP_ID` launches the
job, the others only wait for it.

The job and its transfers end in another thread, which notifies the members of
the group through the requests of the dispatcher.
-/

def MASTER_GROUP_ID : Int := 1

def UNASSIGNED_ID : Int := -1

def TRANSFER_CHANCES := 2

def SUBMISSION_CHANCES := 2

/-- An entry of `registeredSlaves` -/
structure RegisteredSlave where
  processId : Int
  action : ActionId
  deriving DecidableEq

structure MultiNodeGroup where
  groupSize : Nat
  nextProcessId : Int
  registeredSlaves : KeyedMap RegisteredSlave.processId
  registeredMaster : Option ActionId

namespace MultiNodeGroup

def new (groupSize : Nat) : MultiNodeGroup where
  groupSize := groupSize
  nextProcessId := groupSize
  registeredSlaves := .empty
  registeredMaster := none

/-- The group afterwards, and the process id of the action -/
def registerProcess
    (group : MultiNodeGroup)
    (action : ActionId) : MultiNodeGroup × Int :=
  let actionId := group.nextProcessId
  let counted := { group with nextProcessId := group.nextProcessId - 1 }
  if actionId = MASTER_GROUP_ID then
    ({ counted with registeredMaster := some action }, actionId)
  else
    ({ counted with
        registeredSlaves := group.registeredSlaves.put ⟨actionId, action⟩ },
      actionId)

end MultiNodeGroup

/-- What the action that launched the job still waits for -/
inductive LaunchStage where
  | idle
  | transferring
  | submitted
  deriving DecidableEq

structure MultiNodeExecutionAction where
  multiNodeId : Int
  state : ActionState
  assignedResource : Option WorkerId
  executingResources : List WorkerId
  transferErrors : Nat
  executionErrors : Nat
  stage : LaunchStage
  deriving DecidableEq

def MultiNodeExecutionAction.new : MultiNodeExecutionAction where
  multiNodeId := UNASSIGNED_ID
  state := .RUNNABLE
  assignedResource := none
  executingResources := []
  transferErrors := 0
  executionErrors := 0
  stage := .idle

inductive JobEnd where
  | completed
  | error
  deriving DecidableEq

/-- An action of the group is started, as its `attempt`-th start. -/
structure Registration where
  action : ActionId
  worker : WorkerId
  processId : Int
  attempt : Nat
  deriving DecidableEq

def Registration.IsMaster (registration : Registration) : Prop :=
  registration.processId = MASTER_GROUP_ID
  deriving Decidable

/-- What `newJob` is given -/
structure GroupJob where
  action : ActionId
  worker : Option WorkerId
  slavesNames : List WorkerId
  deriving DecidableEq

/-- Something that happens in an attempt -/
structure InAttempt (α : Type) where
  attempt : Nat
  event : α
  deriving DecidableEq

/-- The actions of a group, the requests of the dispatcher, and what happened -/
structure GroupHistory where
  group : MultiNodeGroup
  actions : ActionId → MultiNodeExecutionAction
  requests : List (ActionId × JobEnd)
  registrations : List Registration
  jobs : List (InAttempt GroupJob)
  ends : List (InAttempt JobEnd)
  notifications : List (InAttempt (ActionId × JobEnd))

namespace GroupHistory

def new (groupSize : Nat) : GroupHistory where
  group := .new groupSize
  actions := fun _ => .new
  requests := []
  registrations := []
  jobs := []
  ends := []
  notifications := []

section Changes

variable (history : GroupHistory) (action : ActionId)

def attempt : Nat :=
  history.registrations.countP (·.action = action)

def update
    (change : MultiNodeExecutionAction → MultiNodeExecutionAction) :
    GroupHistory :=
  { history with
    actions :=
      Function.update history.actions action (change (history.actions action)) }

def atStage (stage : LaunchStage) : GroupHistory :=
  history.update action fun node => { node with stage }

/--
`run` and `doAction` on a worker.  An action that has waited for the resources
of the worker has not been registered in `executingResources`.
-/
def start (worker : WorkerId) (waited : Bool) : GroupHistory :=
  let (group, actionId) := history.group.registerProcess action
  let started := history.update action fun node => { node with
    multiNodeId := actionId
    state := .RUNNING
    assignedResource := some worker
    executingResources :=
      if waited then node.executingResources
      else node.executingResources ++ [worker]
    transferErrors :=
      if actionId = MASTER_GROUP_ID then 0 else node.transferErrors
    executionErrors := 0
    stage :=
      if actionId = MASTER_GROUP_ID then .transferring else node.stage }
  { started with
    group
    registrations := history.registrations ++
      [⟨action, worker, actionId, history.attempt action + 1⟩] }

/-- `none` if a slave has no worker any more -/
def getSlavesNames : Option (List WorkerId) :=
  history.group.registeredSlaves.values.mapM fun slave =>
    (history.actions slave.action).assignedResource

/--
The actions that `notifyCompleted` and `notifyError` make the dispatcher know
about.  A slave with the id of the master would notify the slaves again.
-/
def notified : Option (List ActionId) :=
  let slaves := history.group.registeredSlaves.values.map (·.action)
  if (history.actions action).multiNodeId ≠ MASTER_GROUP_ID then
    some [action]
  else if ∀ slave ∈ slaves,
      (history.actions slave).multiNodeId ≠ MASTER_GROUP_ID then
    some (slaves ++ [action])
  else none

def notify (jobEnd : JobEnd) : GroupHistory :=
  let ended := { history.atStage action .idle with
    ends := history.ends ++ [⟨history.attempt action, jobEnd⟩] }
  match history.notified action with
  | none => ended
  | some members =>
      { ended with
        requests := history.requests ++ members.map ((·, jobEnd))
        notifications := history.notifications ++ members.map fun member =>
          ⟨history.attempt member, (member, jobEnd)⟩ }

/-- `doSubmit` -/
def submit : GroupHistory :=
  match history.getSlavesNames with
  | none => history.atStage action .idle
  | some slavesNames =>
      { history.atStage action .submitted with
        jobs := history.jobs ++
          [⟨history.attempt action,
            ⟨action, (history.actions action).assignedResource,
              slavesNames⟩⟩] }

def failedTransfers : GroupHistory :=
  let node := history.actions action
  let counted := history.update action fun node =>
    { node with transferErrors := node.transferErrors + 1 }
  if node.transferErrors + 1 < TRANSFER_CHANCES then counted
  else counted.notify action .error

/-- The same job is dispatched again as long as there are chances. -/
def failedJob : GroupHistory :=
  let node := history.actions action
  let counted := history.update action fun node =>
    { node with executionErrors := node.executionErrors + 1 }
  if node.transferErrors + (node.executionErrors + 1) < SUBMISSION_CHANCES then
    counted
  else counted.notify action .error

def completedJob : GroupHistory :=
  history.notify action .completed

/-- The dispatcher handles a request. -/
def actionCompleted : GroupHistory :=
  let handled := history.update action fun node =>
    { node with state := .FINISHED }
  { handled with requests := history.requests.erase (action, .completed) }

/-- The action is tried again, as long as it has chances left. -/
def errorOnAction (reassigned : Option WorkerId) : GroupHistory :=
  let handled := history.update action fun node => { node with
    state :=
      if SCHEDULING_CHANCES ≤ node.executingResources.length then .FAILED
      else .RUNNABLE
    assignedResource := reassigned }
  { handled with requests := history.requests.erase (action, .error) }

end Changes

end GroupHistory

inductive GroupStep where
  | start (action : ActionId) (worker : WorkerId) (waited : Bool)
  | submit (action : ActionId)
  | failedTransfers (action : ActionId)
  | completedJob (action : ActionId)
  | failedJob (action : ActionId)
  | actionCompleted (action : ActionId)
  | errorOnAction (action : ActionId) (reassigned : Option WorkerId)
  deriving DecidableEq

namespace GroupStep

variable (history : GroupHistory)

def Enabled : GroupStep → Prop
  | start action _ _ =>
      action < history.group.groupSize ∧
        (history.actions action).state = .RUNNABLE
  | submit action | failedTransfers action =>
      (history.actions action).stage = .transferring
  | completedJob action | failedJob action =>
      (history.actions action).stage = .submitted
  | actionCompleted action => (action, .completed) ∈ history.requests
  | errorOnAction action _ => (action, .error) ∈ history.requests

instance (history : GroupHistory) :
    (step : GroupStep) → Decidable (step.Enabled history)
  | start _ _ _ => inferInstanceAs (Decidable (_ ∧ _))
  | submit _ | failedTransfers _ | completedJob _ | failedJob _ =>
      inferInstanceAs (Decidable (_ = _))
  | actionCompleted _ | errorOnAction _ _ => inferInstanceAs (Decidable (_ ∈ _))

def next : GroupStep → GroupHistory
  | start action worker waited => history.start action worker waited
  | submit action => history.submit action
  | failedTransfers action => history.failedTransfers action
  | completedJob action => history.completedJob action
  | failedJob action => history.failedJob action
  | actionCompleted action => history.actionCompleted action
  | errorOnAction action reassigned => history.errorOnAction action reassigned

/-- An action is started that has not been started before. -/
def FirstStart : GroupStep → Prop
  | start action _ _ => history.attempt action = 0
  | _ => True

instance (history : GroupHistory) :
    (step : GroupStep) → Decidable (FirstStart history step)
  | start action _ _ => inferInstanceAs (Decidable (history.attempt action = 0))
  | submit _ | failedTransfers _ | completedJob _ | failedJob _
  | actionCompleted _ | errorOnAction _ _ => isTrue trivial

end GroupStep

def groupSystem (groupSize : Nat) : TransitionSystem GroupHistory GroupStep where
  start := .new groupSize
  Enabled history step := step.Enabled history
  next history step := step.next history

instance (groupSize : Nat) (history : GroupHistory) (step : GroupStep) :
    Decidable ((groupSystem groupSize).Enabled history step) :=
  inferInstanceAs (Decidable (step.Enabled history))

/-!
## What is expected of an attempt
-/

def eventsOf (attempt : Nat) (events : List (InAttempt α)) : List α :=
  (events.filter (·.attempt = attempt)).map (·.event)

namespace GroupHistory

variable
  (history : GroupHistory)
  (attempt : Nat)

def registrationsOf :
    List Registration :=
  history.registrations.filter (·.attempt = attempt)

/-- All actions have registered, the last one as the master. -/
structure Launched
    (slaves : List Registration)
    (master : Registration) : Prop where
  isMaster : master.IsMaster
  areSlaves : ∀ slave ∈ slaves, ¬ slave.IsMaster
  members :
    ((slaves ++ [master]).map (·.action)).Perm
      (List.range history.group.groupSize)
  jobs :
    ∀ job ∈ eventsOf attempt history.jobs,
      job.action = master.action ∧ job.worker = some master.worker ∧
        job.slavesNames.Perm (slaves.map (·.worker))
  jobsOnce : (eventsOf attempt history.jobs).length ≤ 1
  endsOnce : (eventsOf attempt history.ends).length ≤ 1
  completed :
    .completed ∈ eventsOf attempt history.ends →
      eventsOf attempt history.jobs ≠ []
  underway :
    eventsOf attempt history.ends = [] →
      (history.actions master.action).stage =
        if eventsOf attempt history.jobs = [] then .transferring
        else .submitted
  notified :
    (eventsOf attempt history.notifications).Perm
      ((eventsOf attempt history.ends).flatMap fun jobEnd =>
        (slaves ++ [master]).map fun member => (member.action, jobEnd))

/-- Nothing is launched before the last action of the group has registered. -/
structure LaunchesOnce : Prop where
  notBefore :
    (history.registrationsOf attempt).length < history.group.groupSize →
      (∀ registration ∈ history.registrationsOf attempt,
        ¬ registration.IsMaster) ∧
      eventsOf attempt history.jobs = [] ∧
      eventsOf attempt history.ends = [] ∧
      eventsOf attempt history.notifications = []
  launched :
    ∀ slaves master,
      history.registrationsOf attempt = slaves ++ [master] →
        slaves.length + 1 = history.group.groupSize →
          history.Launched attempt slaves master

end GroupHistory

end DistributedRdf.Scheduling
