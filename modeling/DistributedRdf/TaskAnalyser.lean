import DistributedRdf.DataInfoProvider

namespace DistributedRdf.Engine

open Java

/-!
# Dependency detection and synchronization of tasks

`TaskAnalyser` registers the accesses of a new task, makes the task depend on
the last writers of what it reads, and releases the semaphores of the
application threads that wait for tasks.  Task objects live in the heap `tasks`.
-/

abbrev TaskId := Nat

abbrev AppId := Nat

abbrev SemaphoreId := Nat

inductive TaskType where
  | METHOD
  | SERVICE
  deriving DecidableEq

inductive DataDirection where
  | IN
  | OUT
  | INOUT
  deriving DecidableEq

/--
A parameter with what the analyser reads of it.  `persisted` says that the
value of an object parameter is a persistent object with an identifier.
-/
inductive Parameter where
  | file (direction : DataDirection) (location : DataLocation)
  | object (direction : DataDirection) (code : Int) (persisted : Bool)
  | psco (direction : DataDirection) (code : Int)
  | externalPsco (direction : DataDirection) (code : Int)
  | basic
  deriving DecidableEq

inductive TaskState where
  | TO_ANALYSE
  | TO_EXECUTE
  | FINISHED
  | FAILED
  deriving DecidableEq

/-- The immutable part of a task. -/
structure TaskDescription where
  appId : AppId
  type : TaskType
  hasTargetObject : Bool
  hasReturnValue : Bool
  parameters : List Parameter
  deriving DecidableEq

structure Task where
  description : TaskDescription
  status : TaskState
  executionCount : Int
  predecessors : List TaskId
  successors : List TaskId
  enforcingTask : Option TaskId
  /-- The access identifier of each dependency parameter. -/
  accesses : Nat → Option DataAccessId

def Task.new (description : TaskDescription) : Task where
  description := description
  status := .TO_ANALYSE
  executionCount := 0
  predecessors := []
  successors := []
  enforcingTask := none
  accesses := fun _ => none

/-- `released` and `errors` log the semaphores released and `ErrorManager.error`. -/
structure TaskAnalyser where
  DIP : DataInfoProvider
  writers : JavaMap Nat (Option TaskId)
  appIdToTaskCount : JavaMap AppId Int
  appIdToSemaphore : JavaMap AppId SemaphoreId
  appIdBarrierFlags : List AppId
  appIdToWrittenFiles : JavaMap AppId (List Nat)
  appIdToSCOWrittenIds : JavaMap AppId (List Nat)
  waitedTasks : JavaMap TaskId (List SemaphoreId)
  drawGraph : Bool
  tasks : TaskId → Task
  released : List SemaphoreId
  errors : List TaskId

namespace TaskAnalyser

def emptyDescription : TaskDescription :=
  ⟨0, .METHOD, false, false, []⟩

def new (drawGraph : Bool) : TaskAnalyser where
  DIP := .new
  writers := ∅
  appIdToTaskCount := ∅
  appIdToSemaphore := ∅
  appIdBarrierFlags := []
  appIdToWrittenFiles := ∅
  appIdToSCOWrittenIds := ∅
  waitedTasks := ∅
  drawGraph := drawGraph
  tasks := fun _ => .new emptyDescription
  released := []
  errors := []

variable
  (analyser : TaskAnalyser)
  (taskId : TaskId)

def setTask
    (task : Task) : TaskAnalyser :=
  { analyser with tasks := Function.update analyser.tasks taskId task }

/-- `writers.get(dataId)`: the entry may be missing or null. -/
def lastWriter (dataId : Nat) : Option TaskId :=
  (analyser.writers.lookup dataId).join

def accessMode : DataDirection → AccessMode
  | .IN => .R
  | .OUT => .W
  | .INOUT => .RW

/-- `currentTask.addDataDependency(producer)` -/
def addDataDependency
    (currentTask producer : TaskId) : TaskAnalyser :=
  let producerTask := analyser.tasks producer
  let linked := analyser.setTask producer
    { producerTask with successors := producerTask.successors ++ [currentTask] }
  let consumerTask := linked.tasks currentTask
  linked.setTask currentTask
    { consumerTask with predecessors := consumerTask.predecessors ++ [producer] }

variable (currentTask : TaskId)

def checkDependencyForRead
    (dataId : Nat) : TaskAnalyser :=
  match analyser.lastWriter dataId with
  | some writer =>
      if writer ≠ currentTask then
        analyser.addDataDependency currentTask writer
      else
        analyser
  | none => analyser

def addWritten
    (written : JavaMap AppId (List Nat))
    (appId : AppId)
    (dataId : Nat) : JavaMap AppId (List Nat) :=
  written.insert appId (((written.lookup appId).getD []).insert dataId)

def registerOutputValues
    (parameter : Parameter)
    (dataId : Nat) : TaskAnalyser :=
  let appId := (analyser.tasks currentTask).description.appId
  let written :=
    { analyser with writers := analyser.writers.insert dataId (some currentTask) }
  match parameter with
  | .file _ _ =>
      { written with
        appIdToWrittenFiles :=
          addWritten analyser.appIdToWrittenFiles appId dataId }
  | .psco _ _ | .object _ _ true =>
      { written with
        appIdToSCOWrittenIds :=
          addWritten analyser.appIdToSCOWrittenIds appId dataId }
  | _ => written

variable (description : TaskDescription)

/-- A service with a target object must run where the target was produced. -/
def constrainingParam : Int :=
  if description.type = .SERVICE ∧ description.hasTargetObject = true then
    if description.hasReturnValue then
      description.parameters.length - 2
    else
      description.parameters.length - 1
  else
    -1

variable (paramIdx : Nat)

def setEnforcingTask
    (readInstance : DataInstanceId) : TaskAnalyser :=
  let task := analyser.tasks currentTask
  if (paramIdx : Int) = constrainingParam task.description ∧
      1 < readInstance.versionId then
    analyser.setTask currentTask
      { task with enforcingTask := analyser.lastWriter readInstance.dataId }
  else
    analyser

/-- Asks the provider for an access; basic types have none. -/
def registerAccess
    (parameter : Parameter) :
    Option (DataDirection × Outcome DataInfoProvider DataAccessId) :=
  match parameter with
  | .file direction location =>
      some (direction,
        analyser.DIP.registerFileAccess (accessMode direction) location)
  | .object direction code _ | .psco direction code
  | .externalPsco direction code =>
      some (direction,
        analyser.DIP.registerObjectAccess (accessMode direction) code)
  | .basic => none

/-- `dp.setDataAccessId(daId)` -/
def setDataAccessId
    (access : DataAccessId) : TaskAnalyser :=
  let task := analyser.tasks currentTask
  analyser.setTask currentTask
    { task with accesses := Function.update task.accesses paramIdx (some access) }

/-- Dependencies and outputs of a parameter whose access is registered. -/
def addDependencies
    (parameter : Parameter)
    (access : DataAccessId) : TaskAnalyser :=
  let analyser := analyser.setDataAccessId currentTask paramIdx access
  match access with
  | .read readInstance =>
      (analyser.checkDependencyForRead currentTask access.dataId)
        |>.setEnforcingTask currentTask paramIdx readInstance
  | .readWrite readInstance _ _ =>
      ((analyser.checkDependencyForRead currentTask access.dataId)
        |>.setEnforcingTask currentTask paramIdx readInstance)
        |>.registerOutputValues currentTask parameter access.dataId
  | .write _ =>
      analyser.registerOutputValues currentTask parameter access.dataId

/-- The body of the loop of `processTask`. -/
def processParameter
    (parameter : Parameter) : Outcome TaskAnalyser Unit :=
  match analyser.registerAccess parameter with
  | none => .returned analyser ()
  | some (_, registered) =>
      (registered.onState fun provider =>
        { analyser with DIP := provider }).andThen fun analyser access =>
          .returned
            (analyser.addDependencies currentTask paramIdx parameter access) ()

def processParameters
    (analyser : TaskAnalyser)
    (currentTask : TaskId) :
    Nat → List Parameter → Outcome TaskAnalyser Unit
  | _, [] => .returned analyser ()
  | paramIdx, parameter :: rest =>
      (analyser.processParameter currentTask paramIdx parameter).andThen
        fun analyser _ =>
          analyser.processParameters currentTask (paramIdx + 1) rest

/-- The new task object is put into the heap and counted for its application. -/
def countTask : TaskAnalyser :=
  let taskCount :=
    (analyser.appIdToTaskCount.lookup description.appId).getD 0
  { analyser.setTask taskId (.new description) with
    appIdToTaskCount :=
      analyser.appIdToTaskCount.insert description.appId (taskCount + 1) }

def processTask : Outcome TaskAnalyser Unit :=
  (analyser.countTask taskId description).processParameters taskId 0
    description.parameters

/-- `sem.release()` -/
def release (semaphore : SemaphoreId) :
    TaskAnalyser :=
  { analyser with released := analyser.released ++ [semaphore] }

variable (appId : AppId)

/-- The application's last task ended: whoever waits for it is released. -/
def releaseApplication :
    TaskAnalyser :=
  let analyser :=
    { analyser with
      appIdBarrierFlags := analyser.appIdBarrierFlags.filter (· ≠ appId) }
  match analyser.appIdToSemaphore.lookup appId with
  | some semaphore =>
      { analyser with
        appIdToSemaphore := analyser.appIdToSemaphore.erase appId
        appIdToTaskCount := analyser.appIdToTaskCount.erase appId
      }.release semaphore
  | none => analyser

def releaseWaiting :
    TaskAnalyser :=
  let semaphores := (analyser.waitedTasks.lookup taskId).getD []
  { analyser with
    waitedTasks := analyser.waitedTasks.erase taskId
    released := analyser.released ++ semaphores }

/-- The loop of `endTask` over the parameters. -/
def finishAccesses (analyser : TaskAnalyser) (taskId : TaskId) :
    Nat → List Parameter → Outcome TaskAnalyser Unit
  | _, [] => .returned analyser ()
  | paramIdx, .basic :: rest =>
      analyser.finishAccesses taskId (paramIdx + 1) rest
  | paramIdx, _ :: rest =>
      match (analyser.tasks taskId).accesses paramIdx with
      | none => .raised analyser .nullPointer
      | some access =>
          ((analyser.DIP.dataHasBeenAccessed access).onState fun provider =>
            { analyser with DIP := provider }).andThen fun analyser _ =>
              analyser.finishAccesses taskId (paramIdx + 1) rest

/-- The files that the task is the last writer of. -/
def resultFiles : List Nat :=
  let task := analyser.tasks taskId
  let lastWritten (paramIdx : Nat) : Option Nat :=
    match task.description.parameters[paramIdx]?, task.accesses paramIdx with
    | some (.file _ _), some access =>
        access.writtenInstance?.bind fun written =>
          if analyser.lastWriter written.dataId = some taskId then
            some written.dataId
          else
            none
    | _, _ => none
  (List.range task.description.parameters.length).filterMap lastWritten

/-- Exceptions while a result file is transferred are logged only. -/
def checkResultFileTransfer :
    TaskAnalyser :=
  (analyser.resultFiles taskId).foldl
    (fun analyser dataId =>
      let transferred :=
        (analyser.DIP.blockDataAndGetResultFile dataId).andThen
          fun provider _ => provider.unblockDataId dataId
      { analyser with DIP := transferred.state })
    analyser

def releaseDataDependents :
    TaskAnalyser :=
  let released :=
    (analyser.tasks taskId).successors.foldl
      (fun analyser successor =>
        let task := analyser.tasks successor
        analyser.setTask successor
          { task with predecessors := task.predecessors.erase taskId })
      analyser
  let task := released.tasks taskId
  released.setTask taskId { task with successors := [] }

/-- What `endTask` does after the semaphores have been released. -/
def closeTask :
    Outcome TaskAnalyser Unit :=
  let description := (analyser.tasks taskId).description
  let appId := description.appId
  (analyser.finishAccesses taskId 0 description.parameters).andThen
    fun analyser _ =>
      let checked :=
        if (analyser.appIdToSemaphore.lookup appId).isSome ∧
            appId ∉ analyser.appIdBarrierFlags then
          analyser.checkResultFileTransfer taskId
        else
          analyser
      .returned (checked.releaseDataDependents taskId) ()

/--
`endTask` does nothing for a task with executions left and reports an error
for a failed one.
-/
def endTask :
    Outcome TaskAnalyser Unit :=
  let task := analyser.tasks taskId
  if task.executionCount ≠ 0 then
    .returned analyser ()
  else if task.status = .FAILED then
    .returned { analyser with errors := analyser.errors ++ [taskId] } ()
  else
    let appId := task.description.appId
    match analyser.appIdToTaskCount.lookup appId with
    | none => .raised analyser .nullPointer
    | some count =>
        let counted :=
          { analyser with
            appIdToTaskCount :=
              analyser.appIdToTaskCount.insert appId (count - 1) }
        let notified :=
          if count - 1 = 0 then counted.releaseApplication appId else counted
        (notified.releaseWaiting taskId).closeTask taskId

def findWaitedTask
    (dataId : Nat)
    (mode : AccessMode)
    (semaphore : SemaphoreId) : TaskAnalyser :=
  match analyser.lastWriter dataId with
  | none => analyser.release semaphore
  | some writer =>
      let detached :=
        if mode = .RW then
          { analyser with writers := analyser.writers.insert dataId none }
        else
          analyser
      if (analyser.tasks writer).status = .FINISHED then
        detached.release semaphore
      else
        { detached with
          waitedTasks := detached.waitedTasks.insert writer
            ((detached.waitedTasks.lookup writer).getD [] ++ [semaphore]) }

/-- Drawing a barrier dereferences every entry of `writers`. -/
def addNewBarrier : Outcome TaskAnalyser Unit :=
  if analyser.writers.entries.any fun entry => entry.snd = none then
    .raised analyser .nullPointer
  else
    .returned analyser ()

/-- The application's count, and whether all its tasks have ended. -/
def allTasksEnded : Bool :=
  match analyser.appIdToTaskCount.lookup appId with
  | none => true
  | some count => count = 0

def barrier
    (semaphore : SemaphoreId) : Outcome TaskAnalyser Unit :=
  (if analyser.drawGraph then analyser.addNewBarrier
    else .returned analyser ()).andThen fun analyser _ =>
      if analyser.allTasksEnded appId then
        .returned (analyser.release semaphore) ()
      else
        .returned
          { analyser with
            appIdBarrierFlags := analyser.appIdBarrierFlags.insert appId
            appIdToSemaphore :=
              analyser.appIdToSemaphore.insert appId semaphore } ()

def noMoreTasks
    (semaphore : SemaphoreId) : TaskAnalyser :=
  if analyser.allTasksEnded appId then
    { analyser with
      appIdToTaskCount := analyser.appIdToTaskCount.erase appId
    }.release semaphore
  else
    { analyser with
      appIdToSemaphore := analyser.appIdToSemaphore.insert appId semaphore }

end TaskAnalyser

end DistributedRdf.Engine
