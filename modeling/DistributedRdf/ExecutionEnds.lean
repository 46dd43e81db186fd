import DistributedRdf.TaskAnalyser
import DistributedRdf.TransitionSystem

namespace DistributedRdf.Engine

open Java Execution List

/-!
# The end of tasks with several executions

The dispatcher counts the executions of a task that have ended and notifies the
access processor, which looks at the count and the status of the task when it
handles a notification.  Both threads use the same task object.
-/

/--
How an execution ends.  An execution on one node is its own master; the actions
of a group that has not registered a master end as slaves.
-/
inductive ExecutionRole where
  | master
  | slave
  deriving DecidableEq

inductive EndInstruction where
  | decreaseExecutionCount
  | setStatus (status : TaskState)
  | notifyTaskEnd
  deriving DecidableEq

namespace ExecutionRole

def doCompleted : ExecutionRole → List EndInstruction
  | master => [.decreaseExecutionCount, .setStatus .FINISHED, .notifyTaskEnd]
  | slave => [.decreaseExecutionCount]

def doFailed : ExecutionRole → List EndInstruction
  | master => [.decreaseExecutionCount, .setStatus .FAILED, .notifyTaskEnd]
  | slave => [.setStatus .FAILED, .decreaseExecutionCount]

def doEnd (role : ExecutionRole) (isFailed : Bool) : List EndInstruction :=
  if isFailed then role.doFailed else role.doCompleted

end ExecutionRole

variable
  (numNodes : Nat)
  (hasMaster : Bool)

/-- The executions that `submitTask` creates for one worker -/
def submitTask : List ExecutionRole :=
  if numNodes = 1 then [.master]
  else if hasMaster then
    replicate (numNodes - 1) .slave ++ replicate (min numNodes 1) .master
  else replicate numNodes .slave

variable (workers : List Bool)

/--
The executions of a replicated task.  For each of the workers it is said whether
a group of actions on it registers a master.
-/
def replicatedExecutions :
    List ExecutionRole :=
  workers.flatMap (submitTask numNodes)

theorem length_submitTask :
    (submitTask numNodes hasMaster).length = numNodes := by
  unfold submitTask
  split
  · next single => exact single.symm
  · split
    · simp only [length_append, length_replicate]
      omega
    · exact length_replicate

theorem length_replicatedExecutions :
    (replicatedExecutions numNodes workers).length =
      workers.length * numNodes := by
  simp [replicatedExecutions, length_flatMap, length_submitTask]

namespace EndInstruction

def statusAfter (status : TaskState) : EndInstruction → TaskState
  | setStatus other => other
  | decreaseExecutionCount | notifyTaskEnd => status

/-- What an instruction does to the task object -/
def perform (task : Task) : EndInstruction → Task
  | decreaseExecutionCount =>
      { task with executionCount := task.executionCount - 1 }
  | setStatus status => { task with status }
  | notifyTaskEnd => task

end EndInstruction

/-- An end of the task that the analyser treats -/
structure TaskEnd where
  status : TaskState
  unended : Nat
  deriving DecidableEq

/--
The dispatcher has the instructions `ending` left for an execution that ends.
The access processor has `isFree` read from the task, if it is in `endTask`.
-/
structure TaskEnds where
  analyser : TaskAnalyser
  executions : List ExecutionRole
  ending : List EndInstruction
  anyFailed : Bool
  notifications : Nat
  isFree : Option Bool
  ends : List TaskEnd

namespace TaskEnds

variable (taskId : TaskId)

/-- `ExecuteTasksRequest` for a replicated task -/
def start
    (analyser : TaskAnalyser)
    (numNodes : Nat)
    (workers : List Bool) : TaskEnds where
  analyser :=
    analyser.setTask taskId
      { analyser.tasks taskId with
        status := .TO_EXECUTE
        executionCount := workers.length * numNodes }
  executions := replicatedExecutions numNodes workers
  ending := []
  anyFailed := false
  notifications := 0
  isFree := none
  ends := []

variable (state : TaskEnds)

def status : TaskState :=
  (state.analyser.tasks taskId).status

def executionCount : Int :=
  (state.analyser.tasks taskId).executionCount

def unended : Nat :=
  state.executions.length + if state.ending = [] then 0 else 1

def dispatch : TaskEnds :=
  match state.ending with
  | [] => state
  | instruction :: rest =>
      { state with
        analyser :=
          state.analyser.setTask taskId
            (instruction.perform (state.analyser.tasks taskId))
        ending := rest
        notifications :=
          state.notifications +
            if instruction = .notifyTaskEnd then 1 else 0 }

/-- `isFree` has been read, and now the status is. -/
def endTask : TaskEnds :=
  match state.isFree with
  | some true =>
      { state with
        analyser := (state.analyser.endTask taskId).state
        isFree := none
        ends := state.ends ++ [⟨state.status taskId, state.unended⟩] }
  | _ => { state with isFree := none }

end TaskEnds

inductive TaskEndStep where
  | endExecution (role : ExecutionRole) (isFailed : Bool)
  | dispatch
  | takeNotification
  | endTask
  /-- Other requests are handled, of this task neither status nor count change. -/
  | otherRequest (analyser : TaskAnalyser)

namespace TaskEndStep

variable
  (taskId : TaskId)
  (state : TaskEnds)

def Enabled : TaskEndStep → Prop
  | endExecution role _ => state.ending = [] ∧ role ∈ state.executions
  | dispatch => state.ending ≠ []
  | takeNotification => 0 < state.notifications ∧ state.isFree = none
  | endTask => state.isFree ≠ none
  | otherRequest analyser =>
      (analyser.tasks taskId).status = state.status taskId ∧
        (analyser.tasks taskId).executionCount = state.executionCount taskId

instance (state : TaskEnds) :
    (step : TaskEndStep) → Decidable (step.Enabled taskId state)
  | endExecution _ _ => inferInstanceAs (Decidable (_ ∧ _))
  | dispatch => inferInstanceAs (Decidable (_ ≠ _))
  | takeNotification => inferInstanceAs (Decidable (_ ∧ _))
  | endTask => inferInstanceAs (Decidable (_ ≠ _))
  | otherRequest _ => inferInstanceAs (Decidable (_ ∧ _))

def next : TaskEndStep → TaskEnds
  | endExecution role isFailed =>
      { state with
        executions := state.executions.erase role
        ending := role.doEnd isFailed
        anyFailed := state.anyFailed || isFailed }
  | dispatch => state.dispatch taskId
  | takeNotification =>
      { state with
        notifications := state.notifications - 1
        isFree := some (state.executionCount taskId = 0) }
  | endTask => state.endTask taskId
  | otherRequest analyser => { state with analyser }

end TaskEndStep

def taskEndSystem
    (taskId : TaskId)
    (analyser : TaskAnalyser)
    (numNodes : Nat)
    (workers : List Bool) : TransitionSystem TaskEnds TaskEndStep where
  start := .start taskId analyser numNodes workers
  Enabled state step := step.Enabled taskId state
  next state step := step.next taskId state

instance
    (taskId : TaskId)
    (analyser : TaskAnalyser)
    (numNodes : Nat)
    (workers : List Bool)
    (state : TaskEnds)
    (step : TaskEndStep) :
    Decidable
      ((taskEndSystem taskId analyser numNodes workers).Enabled state step) :=
  inferInstanceAs (Decidable (step.Enabled taskId state))

namespace TaskEnds

def finalStatus
    (status : TaskState)
    (ending : List EndInstruction) : TaskState :=
  ending.foldl EndInstruction.statusAfter status

variable (state : TaskEnds)

/-- All executions have ended, and all notifications have been handled. -/
def Complete : Prop :=
  state.executions = [] ∧ state.ending = [] ∧ state.notifications = 0 ∧
    state.isFree = none

/-- The task ends once, after its last execution and with their status. -/
structure EndsOnce : Prop where
  once : state.ends.length ≤ 1
  last : ∀ taskEnd ∈ state.ends, taskEnd.unended = 0
  status :
    ∀ taskEnd ∈ state.ends, taskEnd.status = .FAILED ↔ state.anyFailed = true
  complete : state.Complete → state.ends ≠ []

/--
When the count gets zero exactly one notification is still to be handled, the
one of this execution included, and the status says whether any has failed.
-/
def LastNotifies (taskId : TaskId) (state : TaskEnds) : TaskEndStep → Prop
  | .dispatch =>
      state.ending.head? = some .decreaseExecutionCount →
        state.executionCount taskId = 1 →
          state.notifications + state.ending.count .notifyTaskEnd = 1 ∧
            (finalStatus (state.status taskId) state.ending = .FAILED ↔
              state.anyFailed = true)
  | _ => True

instance (taskId : TaskId) (state : TaskEnds) :
    (step : TaskEndStep) → Decidable (state.LastNotifies taskId step)
  | .dispatch => inferInstanceAs (Decidable (_ → _ → _ ∧ _))
  | .endExecution _ _ | .takeNotification | .endTask | .otherRequest _ =>
      isTrue trivial

end TaskEnds

end DistributedRdf.Engine
