import DistributedRdf.TaskAnalyser
import DistributedRdf.TransitionSystem

namespace DistributedRdf.Engine

open Java Execution

/-!
# Runs of the task analyser

The access processor handles one request at a time: new tasks, ended tasks and
threads that wait.  Between two requests the task dispatcher may change the
status and the execution count of a task.  A request that throws leaves the
state it has reached, and the access processor takes the next one.
-/

/-- A thread that waits on a semaphore, and for what it waits. -/
inductive Wait where
  | task (writer : Option TaskId) (semaphore : SemaphoreId)
  | application
      (appId : AppId)
      (before : List TaskId)
      (semaphore : SemaphoreId)
  deriving DecidableEq

def Wait.semaphore : Wait → SemaphoreId
  | .task _ semaphore => semaphore
  | .application _ _ semaphore => semaphore

/-- The analyser with what has been asked of it so far. -/
structure AnalyserHistory where
  analyser : TaskAnalyser
  /-- The tasks in the order of their submission. -/
  submitted : List TaskId
  /-- The data predecessors each task had when it had been submitted. -/
  recorded : TaskId → List TaskId
  /-- Tasks that reached `endTask` with no executions left. -/
  notified : List TaskId
  /-- Tasks that went through `endTask`. -/
  ended : List TaskId
  /-- Tasks whose status was FINISHED at some point. -/
  finished : List TaskId
  waits : List Wait

inductive AnalyserAction where
  | processTask (taskId : TaskId) (description : TaskDescription)
  | setStatus
      (taskId : TaskId)
      (status : TaskState)
      (executionCount : Int)
  | endTask (taskId : TaskId)
  | findWaitedTask
      (dataId : Nat)
      (mode : AccessMode)
      (semaphore : SemaphoreId)
  | barrier (appId : AppId) (semaphore : SemaphoreId)
  | noMoreTasks (appId : AppId) (semaphore : SemaphoreId)

namespace AnalyserHistory

def start (drawGraph : Bool) : AnalyserHistory where
  analyser := .new drawGraph
  submitted := []
  recorded := fun _ => []
  notified := []
  ended := []
  finished := []
  waits := []

def status (history : AnalyserHistory) (taskId : TaskId) : TaskState :=
  (history.analyser.tasks taskId).status

def executionCount (history : AnalyserHistory) (taskId : TaskId) : Int :=
  (history.analyser.tasks taskId).executionCount

def appId (history : AnalyserHistory) (taskId : TaskId) : AppId :=
  (history.analyser.tasks taskId).description.appId

variable (history : AnalyserHistory)

/-- The tasks of an application that have been submitted so far. -/
def applicationTasks (appId : AppId) :
    List TaskId :=
  history.submitted.filter fun taskId => history.appId taskId = appId

def Fresh (semaphore : SemaphoreId) : Prop :=
  ∀ wait, wait ∈ history.waits → wait.semaphore ≠ semaphore

/--
A task is submitted once and ends FINISHED or FAILED; its status does not change
any more once it has ended.  Each waiting thread brings its own semaphore.
-/
def Enabled : AnalyserAction → Prop
  | .processTask taskId _ => taskId ∉ history.submitted
  | .setStatus taskId _ _ => taskId ∈ history.submitted ∧ taskId ∉ history.ended
  | .endTask taskId =>
      taskId ∈ history.submitted ∧ taskId ∉ history.ended ∧
        (history.status taskId = .FINISHED ∨ history.status taskId = .FAILED)
  | .findWaitedTask _ _ semaphore | .barrier _ semaphore
  | .noMoreTasks _ semaphore => history.Fresh semaphore

def setStatus
    (taskId : TaskId)
    (status : TaskState)
    (executionCount : Int) : AnalyserHistory :=
  let task := history.analyser.tasks taskId
  { history with
    analyser := history.analyser.setTask taskId
      { task with status := status, executionCount := executionCount }
    finished :=
      if status = .FINISHED then history.finished ++ [taskId]
      else history.finished }

def next : AnalyserAction → AnalyserHistory
  | .processTask taskId description =>
      let processed := (history.analyser.processTask taskId description).state
      { history with
        analyser := processed
        submitted := history.submitted ++ [taskId]
        recorded :=
          Function.update history.recorded taskId
            (processed.tasks taskId).predecessors }
  | .setStatus taskId status executionCount =>
      history.setStatus taskId status executionCount
  | .endTask taskId =>
      let last : Bool := history.executionCount taskId = 0
      { history with
        analyser := (history.analyser.endTask taskId).state
        notified :=
          if last then history.notified ++ [taskId] else history.notified
        ended :=
          if last ∧ history.status taskId ≠ .FAILED then
            history.ended ++ [taskId]
          else history.ended }
  | .findWaitedTask dataId mode semaphore =>
      { history with
        analyser := history.analyser.findWaitedTask dataId mode semaphore
        waits := history.waits ++
          [.task (history.analyser.lastWriter dataId) semaphore] }
  | .barrier appId semaphore =>
      { history with
        analyser := (history.analyser.barrier appId semaphore).state
        waits := history.waits ++
          [.application appId (history.applicationTasks appId) semaphore] }
  | .noMoreTasks appId semaphore =>
      { history with
        analyser := history.analyser.noMoreTasks appId semaphore
        waits := history.waits ++
          [.application appId (history.applicationTasks appId) semaphore] }

end AnalyserHistory

/-- All runs of an analyser, with or without graph drawing. -/
def analyserSystem (drawGraph : Bool) :
    TransitionSystem AnalyserHistory AnalyserAction where
  start := .start drawGraph
  Enabled := AnalyserHistory.Enabled
  next := AnalyserHistory.next

end DistributedRdf.Engine
