import DistributedRdf.AnalyserHistory

namespace DistributedRdf.Engine

open Java Outcome List

/-!
# Who waits for what

Registering accesses and finishing them leaves the counters of the applications
and the tables of waiting threads alone.
-/

variable
  (analyser : TaskAnalyser)
  (appId : AppId)

/-- The tasks counted for an application; no entry counts none. -/
def TaskAnalyser.taskCount : Int :=
  (analyser.appIdToTaskCount.lookup appId).getD 0

/-- The semaphore of the thread that waits for an application. -/
def TaskAnalyser.pendingSemaphore : Option SemaphoreId :=
  analyser.appIdToSemaphore.lookup appId

/-- The semaphores of the threads that wait for a task. -/
def TaskAnalyser.waitingFor
    (taskId : TaskId) : List SemaphoreId :=
  (analyser.waitedTasks.lookup taskId).getD []

/-- Tasks, counters and waiting threads are the same. -/
structure SameAccounts (analyser other : TaskAnalyser) : Prop where
  owner :
    ∀ task, (other.tasks task).description.appId =
      (analyser.tasks task).description.appId
  status :
    ∀ task, (other.tasks task).status = (analyser.tasks task).status
  counts : other.taskCount = analyser.taskCount
  pending : other.pendingSemaphore = analyser.pendingSemaphore
  waited : other.waitingFor = analyser.waitingFor
  released : other.released = analyser.released

theorem SameAccounts.refl :
    SameAccounts analyser analyser :=
  ⟨fun _ => rfl, fun _ => rfl, rfl, rfl, rfl, rfl⟩

theorem SameAccounts.trans
    {first second third : TaskAnalyser}
    (before : SameAccounts first second)
    (after : SameAccounts second third) :
    SameAccounts first third :=
  ⟨fun task => (after.owner task).trans (before.owner task),
    fun task => (after.status task).trans (before.status task),
    after.counts.trans before.counts, after.pending.trans before.pending,
    after.waited.trans before.waited, after.released.trans before.released⟩

namespace TaskAnalyser

variable
  {analyser : TaskAnalyser}
  {taskId : TaskId}

theorem sameAccounts_setTask
    {task : Task}
    (sameDescription :
      task.description = (analyser.tasks taskId).description)
    (sameStatus : task.status = (analyser.tasks taskId).status) :
    SameAccounts analyser (analyser.setTask taskId task) := by
  refine ⟨?_, ?_, rfl, rfl, rfl, rfl⟩
  · intro other
    by_cases same : other = taskId
    · subst other
      simp [setTask, sameDescription]
    · simp [setTask, same]
  · intro other
    by_cases same : other = taskId
    · subst other
      simp [setTask, sameStatus]
    · simp [setTask, same]

variable
  (analyser)
  (currentTask : TaskId)

theorem sameAccounts_checkDependencyForRead
    (dataId : Nat) :
    SameAccounts analyser
      (analyser.checkDependencyForRead currentTask dataId) := by
  unfold checkDependencyForRead
  split
  · split
    · refine SameAccounts.trans (sameAccounts_setTask ?_ ?_)
        (sameAccounts_setTask ?_ ?_)
      all_goals rfl
    · exact .refl analyser
  · exact .refl analyser

variable (paramIdx : Nat)

theorem sameAccounts_setEnforcingTask
    (readInstance : DataInstanceId) :
    SameAccounts analyser
      (analyser.setEnforcingTask currentTask paramIdx readInstance) := by
  simp only [setEnforcingTask]
  split
  · apply sameAccounts_setTask
    · rfl
    · rfl
  · exact .refl analyser

variable (parameter : Parameter)

theorem sameAccounts_registerOutputValues
    (dataId : Nat) :
    SameAccounts analyser
      (analyser.registerOutputValues currentTask parameter dataId) := by
  simp only [registerOutputValues]
  split <;> exact ⟨fun _ => rfl, fun _ => rfl, rfl, rfl, rfl, rfl⟩

theorem sameAccounts_addDependencies
    (access : DataAccessId) :
    SameAccounts analyser
      (analyser.addDependencies currentTask paramIdx parameter access) := by
  have stored :
      SameAccounts analyser
        (analyser.setDataAccessId currentTask paramIdx access) := by
    apply sameAccounts_setTask
    · rfl
    · rfl
  cases access with
  | read readInstance =>
      exact (stored.trans
        (sameAccounts_checkDependencyForRead _ currentTask _)).trans
          (sameAccounts_setEnforcingTask _ currentTask paramIdx readInstance)
  | write writtenInstance =>
      exact stored.trans
        (sameAccounts_registerOutputValues _ currentTask parameter _)
  | readWrite readInstance writtenInstance preserve =>
      exact ((stored.trans
        (sameAccounts_checkDependencyForRead _ currentTask _)).trans
          (sameAccounts_setEnforcingTask _ currentTask paramIdx
            readInstance)).trans
              (sameAccounts_registerOutputValues _ currentTask parameter _)

variable (parameters : List Parameter)

theorem sameAccounts_processParameters :
    SameAccounts analyser
      (analyser.processParameters currentTask paramIdx parameters).state := by
  induction parameters generalizing analyser paramIdx with
  | nil => exact .refl analyser
  | cons parameter rest hypothesis =>
      apply andThen_preserves
      · unfold processParameter
        split
        · exact .refl analyser
        · apply andThen_preserves
          · rw [state_onState]
            exact ⟨fun _ => rfl, fun _ => rfl, rfl, rfl, rfl, rfl⟩
          · intro state access same
            exact same.trans
              (sameAccounts_addDependencies state currentTask paramIdx
                parameter access)
      · intro state value same
        exact same.trans (hypothesis state (paramIdx + 1))

variable (taskId)

theorem sameAccounts_finishAccesses :
    SameAccounts analyser
      (analyser.finishAccesses taskId paramIdx parameters).state := by
  fun_induction finishAccesses analyser taskId paramIdx parameters with
  | case1 analyser paramIdx => exact .refl analyser
  | case2 analyser paramIdx rest hypothesis => exact hypothesis
  | case3 analyser paramIdx parameter rest isDependency missing =>
      exact .refl analyser
  | case4 analyser paramIdx parameter rest isDependency access found
      hypothesis =>
      apply andThen_preserves
      · rw [state_onState]
        exact ⟨fun _ => rfl, fun _ => rfl, rfl, rfl, rfl, rfl⟩
      · intro state value same
        exact same.trans (hypothesis state)

theorem sameAccounts_checkResultFileTransfer :
    SameAccounts analyser (analyser.checkResultFileTransfer taskId) := by
  unfold checkResultFileTransfer
  generalize analyser.resultFiles taskId = dataIds
  induction dataIds generalizing analyser with
  | nil => exact .refl analyser
  | cons dataId rest hypothesis =>
      rw [foldl_cons]
      refine SameAccounts.trans ?_ (hypothesis _)
      exact ⟨fun _ => rfl, fun _ => rfl, rfl, rfl, rfl, rfl⟩

theorem sameAccounts_releaseDataDependents :
    SameAccounts analyser (analyser.releaseDataDependents taskId) := by
  have released (successors : List TaskId) :
      SameAccounts analyser
        (successors.foldl
          (fun analyser successor =>
            let task := analyser.tasks successor
            analyser.setTask successor
              { task with predecessors := task.predecessors.erase taskId })
          analyser) := by
    induction successors generalizing analyser with
    | nil => exact .refl analyser
    | cons successor rest hypothesis =>
        rw [foldl_cons]
        refine SameAccounts.trans ?_ (hypothesis _)
        apply sameAccounts_setTask
        · rfl
        · rfl
  refine (released (analyser.tasks taskId).successors).trans ?_
  apply sameAccounts_setTask
  · rfl
  · rfl

/-- Once the semaphores are released, nobody's waiting changes any more. -/
theorem sameAccounts_closeTask :
    SameAccounts analyser (analyser.closeTask taskId).state := by
  unfold closeTask
  apply andThen_preserves
  · exact sameAccounts_finishAccesses analyser taskId 0 _
  · intro state value same
    refine same.trans
      (SameAccounts.trans ?_ (sameAccounts_releaseDataDependents _ _))
    split
    · exact sameAccounts_checkResultFileTransfer state taskId
    · exact .refl state

/-!
## The effect of each request
-/

variable (description : TaskDescription)

theorem sameAccounts_processTask :
    SameAccounts (analyser.countTask taskId description)
      (analyser.processTask taskId description).state :=
  sameAccounts_processParameters _ taskId 0 description.parameters

theorem taskCount_countTask
    (appId : AppId) :
    (analyser.countTask taskId description).taskCount appId =
      if appId = description.appId then analyser.taskCount appId + 1
      else analyser.taskCount appId := by
  by_cases same : appId = description.appId
  · subst appId
    simp [taskCount, countTask]
  · simp [taskCount, countTask, setTask, same, AList.lookup_insert_ne same]

variable
  {appId : AppId}
  {analyser}
  {taskId}

theorem lookup_of_taskCount_pos
    (positive : 0 < analyser.taskCount appId) :
    analyser.appIdToTaskCount.lookup appId =
      some (analyser.taskCount appId) := by
  unfold taskCount at positive ⊢
  cases found : analyser.appIdToTaskCount.lookup appId with
  | none =>
      rw [found] at positive
      exact absurd positive (by simp)
  | some count => rfl

variable (analyser)

/-- The thread waiting for the application, if this was its last task. -/
def applicationReleases
    (appId : AppId) : List SemaphoreId :=
  if analyser.taskCount appId = 1 then
    (analyser.pendingSemaphore appId).toList
  else
    []

/-- What the end of a task changes for the waiting threads. -/
structure Notified
    (analyser after : TaskAnalyser)
    (taskId : TaskId)
    (appId : AppId) : Prop where
  owner :
    ∀ task, (after.tasks task).description.appId =
      (analyser.tasks task).description.appId
  status :
    ∀ task, (after.tasks task).status = (analyser.tasks task).status
  counts :
    ∀ other, after.taskCount other =
      if other = appId then analyser.taskCount appId - 1
      else analyser.taskCount other
  pending :
    ∀ other, after.pendingSemaphore other =
      if other = appId ∧ analyser.taskCount appId = 1 then none
      else analyser.pendingSemaphore other
  waited :
    ∀ other, after.waitingFor other =
      if other = taskId then [] else analyser.waitingFor other
  released :
    after.released = analyser.released ++
      (analyser.applicationReleases appId ++ analyser.waitingFor taskId)

theorem Notified.congr
    {analyser middle after : TaskAnalyser}
    (notified : Notified analyser middle taskId appId)
    (same : SameAccounts middle after) :
    Notified analyser after taskId appId where
  owner := fun task => (same.owner task).trans (notified.owner task)
  status := fun task => (same.status task).trans (notified.status task)
  counts := by
    rw [same.counts]
    exact notified.counts
  pending := by
    rw [same.pending]
    exact notified.pending
  waited := by
    rw [same.waited]
    exact notified.waited
  released := same.released.trans notified.released

theorem waitingFor_releaseWaiting
    (taskId other : TaskId) :
    (analyser.releaseWaiting taskId).waitingFor other =
      if other = taskId then [] else analyser.waitingFor other := by
  by_cases same : other = taskId
  · subst other
    simp [waitingFor, releaseWaiting]
  · simp [waitingFor, releaseWaiting, same, AList.lookup_erase_ne same]

variable {analyser}

theorem taskCount_insert
    {analyser after : TaskAnalyser}
    {count : Int}
    (inserted :
      after.appIdToTaskCount = analyser.appIdToTaskCount.insert appId count)
    (other : AppId) :
    after.taskCount other =
      if other = appId then count else analyser.taskCount other := by
  by_cases same : other = appId
  · subst other
    simp [taskCount, inserted]
  · simp [taskCount, inserted, same, AList.lookup_insert_ne same]

/-- Setting the count to zero and removing it come to the same. -/
theorem releaseApplication_notified
    {analyser counted : TaskAnalyser}
    (isCounted :
      counted = { analyser with
        appIdToTaskCount := analyser.appIdToTaskCount.insert appId 0 }) :
    let after := counted.releaseApplication appId
    after.tasks = analyser.tasks ∧ after.waitingFor = analyser.waitingFor ∧
      (∀ other, after.taskCount other =
        if other = appId then 0 else analyser.taskCount other) ∧
      (∀ other, after.pendingSemaphore other =
        if other = appId then none else analyser.pendingSemaphore other) ∧
      after.released =
        analyser.released ++ (analyser.pendingSemaphore appId).toList := by
  subst isCounted
  cases found : analyser.appIdToSemaphore.lookup appId with
  | none =>
      have unchanged :
          { analyser with
            appIdToTaskCount := analyser.appIdToTaskCount.insert appId 0
          }.releaseApplication appId =
            { analyser with
              appIdToTaskCount := analyser.appIdToTaskCount.insert appId 0
              appIdBarrierFlags :=
                analyser.appIdBarrierFlags.filter (· ≠ appId) } := by
        simp [releaseApplication, found]
      rw [unchanged]
      refine ⟨rfl, rfl, taskCount_insert rfl, ?_, ?_⟩
      · intro other
        by_cases same : other = appId
        · subst other
          simp [pendingSemaphore, found]
        · simp [pendingSemaphore, same]
      · simp [pendingSemaphore, found]
  | some semaphore =>
      have served :
          { analyser with
            appIdToTaskCount := analyser.appIdToTaskCount.insert appId 0
          }.releaseApplication appId =
            { analyser with
              appIdToTaskCount :=
                (analyser.appIdToTaskCount.insert appId 0).erase appId
              appIdBarrierFlags :=
                analyser.appIdBarrierFlags.filter (· ≠ appId)
              appIdToSemaphore := analyser.appIdToSemaphore.erase appId
              released := analyser.released ++ [semaphore] } := by
        simp [releaseApplication, release, found]
      rw [served]
      refine ⟨rfl, rfl, ?_, ?_, ?_⟩
      · intro other
        by_cases same : other = appId
        · subst other
          simp [taskCount]
        · simp [taskCount, same, AList.lookup_erase_ne same,
            AList.lookup_insert_ne same]
      · intro other
        by_cases same : other = appId
        · subst other
          simp [pendingSemaphore]
        · simp [pendingSemaphore, same, AList.lookup_erase_ne same]
      · simp [pendingSemaphore, found]

/-- The last execution of a task of an application that counts it ends. -/
theorem endTask_notified
    (isLast : (analyser.tasks taskId).executionCount = 0)
    (notFailed : (analyser.tasks taskId).status ≠ .FAILED)
    (counts :
      0 < analyser.taskCount (analyser.tasks taskId).description.appId) :
    Notified analyser (analyser.endTask taskId).state taskId
      (analyser.tasks taskId).description.appId := by
  generalize isApp : (analyser.tasks taskId).description.appId = appId
  rw [isApp] at counts
  have found := lookup_of_taskCount_pos counts
  let counted :=
    { analyser with
      appIdToTaskCount := analyser.appIdToTaskCount.insert appId
        (analyser.taskCount appId - 1) }
  have ended :
      analyser.endTask taskId =
        ((if analyser.taskCount appId - 1 = 0 then
            counted.releaseApplication appId
          else
            counted).releaseWaiting taskId).closeTask taskId := by
    subst isApp
    simp only [endTask, isLast, notFailed, ne_eq, not_true_eq_false, if_false,
      found]
    rfl
  rw [ended]
  refine Notified.congr ?_ (sameAccounts_closeTask _ taskId)
  by_cases last : analyser.taskCount appId = 1
  · have zero : analyser.taskCount appId - 1 = 0 := by
      omega
    have isCounted :
        counted = { analyser with
          appIdToTaskCount := analyser.appIdToTaskCount.insert appId 0 } := by
      simp only [counted, zero]
    obtain ⟨tasks, waited, counts, pending, released⟩ :=
      releaseApplication_notified isCounted
    rw [if_pos zero]
    refine ⟨?_, ?_, ?_, ?_, ?_, ?_⟩
    · intro task
      exact congrArg (fun task => task.description.appId) (congrFun tasks task)
    · intro task
      exact congrArg Task.status (congrFun tasks task)
    · rw [zero]
      exact counts
    · intro other
      simp only [last, and_true]
      exact pending other
    · intro other
      rw [waitingFor_releaseWaiting, waited]
    · change (counted.releaseApplication appId).released ++
        (counted.releaseApplication appId).waitingFor taskId = _
      rw [released, waited, applicationReleases, if_pos last,
        append_assoc]
  · have positive : ¬ analyser.taskCount appId - 1 = 0 := by
      omega
    rw [if_neg positive]
    refine ⟨fun _ => rfl, fun _ => rfl, taskCount_insert rfl, ?_, ?_, ?_⟩
    · intro other
      rw [if_neg (fun both => last both.2)]
      rfl
    · intro other
      rw [waitingFor_releaseWaiting]
      rfl
    · rw [applicationReleases, if_neg last]
      rfl

theorem endTask_unnotified
    (unfinished :
      (analyser.tasks taskId).executionCount ≠ 0 ∨
        (analyser.tasks taskId).status = .FAILED) :
    SameAccounts analyser (analyser.endTask taskId).state := by
  by_cases isLast : (analyser.tasks taskId).executionCount = 0
  · have failed := unfinished.resolve_left (fun different => different isLast)
    simp only [endTask, isLast, failed, ne_eq, not_true_eq_false, if_false,
      if_true]
    exact ⟨fun _ => rfl, fun _ => rfl, rfl, rfl, rfl, rfl⟩
  · simp only [endTask, isLast, ne_eq, not_false_eq_true, if_true]
    exact .refl analyser

variable
  (analyser)
  (appId)

theorem allTasksEnded_iff :
    analyser.allTasksEnded appId = true ↔ analyser.taskCount appId = 0 := by
  unfold allTasksEnded taskCount
  cases analyser.appIdToTaskCount.lookup appId with
  | none => simp
  | some count => simp

variable (semaphore : SemaphoreId)

/-- The semaphore is kept until the application's last task ends. -/
def keepPending : TaskAnalyser :=
  { analyser with
    appIdToSemaphore := analyser.appIdToSemaphore.insert appId semaphore }

variable (taskId)

/-- The semaphore is kept until the task ends. -/
def keepWaiting : TaskAnalyser :=
  { analyser with
    waitedTasks := analyser.waitedTasks.insert taskId
      (analyser.waitingFor taskId ++ [semaphore]) }

theorem pendingSemaphore_keepPending
    (other : AppId) :
    (analyser.keepPending appId semaphore).pendingSemaphore other =
      if other = appId then some semaphore
      else analyser.pendingSemaphore other := by
  by_cases same : other = appId
  · subst other
    simp [pendingSemaphore, keepPending]
  · simp [pendingSemaphore, keepPending, same, AList.lookup_insert_ne same]

theorem waitingFor_keepWaiting
    (other : TaskId) :
    (analyser.keepWaiting taskId semaphore).waitingFor other =
      if other = taskId then analyser.waitingFor taskId ++ [semaphore]
      else analyser.waitingFor other := by
  by_cases same : other = taskId
  · subst other
    simp [waitingFor, keepWaiting]
  · simp [waitingFor, keepWaiting, same, AList.lookup_insert_ne same]

/-- What waiting for an application does when the request is carried out. -/
def ServesApplication
    (analyser after : TaskAnalyser)
    (appId : AppId)
    (semaphore : SemaphoreId) : Prop :=
  (analyser.taskCount appId = 0 ∧
      SameAccounts (analyser.release semaphore) after) ∨
    (analyser.taskCount appId ≠ 0 ∧
      SameAccounts (analyser.keepPending appId semaphore) after)

theorem noMoreTasks_serves :
    ServesApplication analyser (analyser.noMoreTasks appId semaphore) appId
      semaphore := by
  by_cases ended : analyser.allTasksEnded appId = true
  · have zero := (analyser.allTasksEnded_iff appId).mp ended
    refine .inl ⟨zero, ?_⟩
    rw [noMoreTasks, if_pos ended]
    refine ⟨fun _ => rfl, fun _ => rfl, ?_, rfl, rfl, rfl⟩
    funext other
    by_cases same : other = appId
    · subst other
      simpa [taskCount, release] using zero.symm
    · simp [taskCount, release, AList.lookup_erase_ne same]
  · refine .inr ⟨fun zero => ended ((analyser.allTasksEnded_iff appId).mpr zero),
      ?_⟩
    rw [noMoreTasks, if_neg ended]
    exact .refl _

/-- Drawing the barrier would dereference a null writer. -/
def BarrierFails : Prop :=
  analyser.drawGraph = true ∧
    ∃ dataId, analyser.writers.lookup dataId = some none

theorem barrier_serves :
    (analyser.BarrierFails ∧
        (analyser.barrier appId semaphore).state = analyser) ∨
      ServesApplication analyser (analyser.barrier appId semaphore).state appId
        semaphore := by
  have served :
      ServesApplication analyser
        (if analyser.allTasksEnded appId = true then
            returned (analyser.release semaphore) ()
          else
            .returned
              { analyser with
                appIdBarrierFlags := analyser.appIdBarrierFlags.insert appId
                appIdToSemaphore :=
                  analyser.appIdToSemaphore.insert appId semaphore } ()).state
        appId semaphore := by
    by_cases ended : analyser.allTasksEnded appId = true
    · rw [if_pos ended]
      exact .inl ⟨(analyser.allTasksEnded_iff appId).mp ended, .refl _⟩
    · rw [if_neg ended]
      refine .inr ⟨?_, fun _ => rfl, fun _ => rfl, rfl, rfl, rfl, rfl⟩
      exact fun zero => ended ((analyser.allTasksEnded_iff appId).mpr zero)
  by_cases drawn : analyser.drawGraph = true
  · by_cases null :
        (analyser.writers.entries.any fun entry => entry.snd = none) = true
    · refine .inl ⟨⟨drawn, ?_⟩, ?_⟩
      · obtain ⟨⟨dataId, writer⟩, member, isNull⟩ := any_eq_true.mp null
        have noWriter : writer = none := of_decide_eq_true isNull
        subst noWriter
        exact ⟨dataId, AList.mem_lookup_iff.mpr member⟩
      · rw [barrier, if_pos drawn, addNewBarrier, if_pos null]
        rfl
    · right
      rw [barrier, if_pos drawn, addNewBarrier, if_neg null]
      exact served
  · right
    rw [barrier, if_neg drawn]
    exact served

theorem findWaitedTask_serves
    (analyser : TaskAnalyser)
    (dataId : Nat)
    (mode : AccessMode)
    (semaphore : SemaphoreId) :
    let after := analyser.findWaitedTask dataId mode semaphore
    (∀ writer, analyser.lastWriter dataId = some writer →
        (analyser.tasks writer).status ≠ .FINISHED →
          SameAccounts (analyser.keepWaiting writer semaphore) after) ∧
      ((∀ writer, analyser.lastWriter dataId = some writer →
          (analyser.tasks writer).status = .FINISHED) →
        SameAccounts (analyser.release semaphore) after) := by
  have detached (state : TaskAnalyser) (writers : JavaMap Nat (Option TaskId)) :
      SameAccounts state { state with writers := writers } :=
    ⟨fun _ => rfl, fun _ => rfl, rfl, rfl, rfl, rfl⟩
  cases found : analyser.lastWriter dataId with
  | none =>
      simp only [findWaitedTask, found]
      refine ⟨?_, fun _ => .refl _⟩
      intro writer isLast
      exact absurd isLast (by simp)
  | some last =>
      by_cases finished : (analyser.tasks last).status = .FINISHED
      · simp only [findWaitedTask, found, finished, if_true]
        refine ⟨?_, ?_⟩
        · intro writer isLast notFinished
          rw [Option.some.injEq] at isLast
          exact absurd (isLast ▸ finished) notFinished
        · intro _
          split
          · exact detached _ _
          · exact .refl _
      · simp only [findWaitedTask, found, finished, if_false]
        refine ⟨?_, ?_⟩
        · intro writer isLast _
          rw [Option.some.injEq] at isLast
          subst writer
          split
          · exact detached (analyser.keepWaiting last semaphore) _
          · exact .refl _
        · intro allFinished
          exact absurd (allFinished last rfl) finished

/-- Waiting for a task does not concern the applications. -/
theorem findWaitedTask_keeps
    (analyser : TaskAnalyser)
    (dataId : Nat)
    (mode : AccessMode)
    (semaphore : SemaphoreId) :
    let after := analyser.findWaitedTask dataId mode semaphore
    (∀ task, (after.tasks task).description.appId =
        (analyser.tasks task).description.appId) ∧
      after.pendingSemaphore = analyser.pendingSemaphore ∧
      ∀ released, released ∈ analyser.released → released ∈ after.released := by
  obtain ⟨kept, released⟩ :=
    analyser.findWaitedTask_serves dataId mode semaphore
  by_cases live :
      ∃ writer, analyser.lastWriter dataId = some writer ∧
        (analyser.tasks writer).status ≠ .FINISHED
  · obtain ⟨writer, isLast, notFinished⟩ := live
    have same := kept writer isLast notFinished
    exact ⟨same.owner, same.pending, fun _ earlier => same.released ▸ earlier⟩
  · have same := released fun writer isLast => by
      by_cases finished : (analyser.tasks writer).status = .FINISHED
      · exact finished
      · exact absurd ⟨writer, isLast, finished⟩ live
    refine ⟨same.owner, same.pending, ?_⟩
    intro earlier isReleased
    rw [same.released]
    exact mem_append_left _ isReleased

end TaskAnalyser

end DistributedRdf.Engine
