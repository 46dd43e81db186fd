import DistributedRdf.SemaphoreAccounts

namespace DistributedRdf.Engine

open Java TaskAnalyser List

/-!
# Tasks and the threads that wait for them

The counter of an application is the number of its tasks that have not ended,
and each semaphore that has not been released is kept for an application or a
task that has not ended.  New tasks, new statuses and ended tasks preserve this.
-/

namespace AnalyserHistory

/-- The tasks of an application that have been submitted and have not ended. -/
def liveTasks (history : AnalyserHistory) (appId : AppId) : List TaskId :=
  history.submitted.filter fun task =>
    history.appId task = appId ∧ task ∉ history.ended

variable
  {history : AnalyserHistory}
  {appId : AppId}
  {task : TaskId}

theorem mem_liveTasks :
    task ∈ history.liveTasks appId ↔
      task ∈ history.submitted ∧ history.appId task = appId ∧
        task ∉ history.ended := by
  simp [liveTasks]

variable (history)

/-- What a thread waits for. -/
def WaitOver : Wait → Prop
  | .task none _ => True
  | .task (some writer) _ => writer ∈ history.finished
  | .application _ before _ => ∀ task, task ∈ before → task ∈ history.ended

/-- Counters and statuses agree with the tasks submitted and ended. -/
structure Accounted : Prop where
  submittedOnce : history.submitted.Nodup
  endedSubmitted : ∀ task, task ∈ history.ended → task ∈ history.submitted
  endedFinished : ∀ task, task ∈ history.ended → history.status task = .FINISHED
  finishedLogged :
    ∀ task, history.status task = .FINISHED → task ∈ history.finished
  counted :
    ∀ appId, history.analyser.taskCount appId =
      (history.liveTasks appId).length

/-- Semaphores are kept for requests that are not over, and released once. -/
structure Waiting : Prop where
  once : (history.waits.map Wait.semaphore).Nodup
  releasedOnce : history.analyser.released.Nodup
  released :
    ∀ semaphore, semaphore ∈ history.analyser.released →
      ∃ wait, wait ∈ history.waits ∧ wait.semaphore = semaphore ∧
        history.WaitOver wait
  beforeOwned :
    ∀ appId before semaphore,
      .application appId before semaphore ∈ history.waits →
        ∀ task, task ∈ before →
          task ∈ history.submitted ∧ history.appId task = appId
  pending :
    ∀ appId semaphore,
      history.analyser.pendingSemaphore appId = some semaphore →
        semaphore ∉ history.analyser.released ∧
          ∃ before, .application appId before semaphore ∈ history.waits
  waitingOnce : ∀ writer, (history.analyser.waitingFor writer).Nodup
  waiting :
    ∀ writer semaphore, semaphore ∈ history.analyser.waitingFor writer →
      semaphore ∉ history.analyser.released ∧
        .task (some writer) semaphore ∈ history.waits
  served :
    ∀ writer semaphore, .task writer semaphore ∈ history.waits →
      semaphore ∈ history.analyser.released ∨
        ∃ task, writer = some task ∧ task ∉ history.ended ∧
          semaphore ∈ history.analyser.waitingFor task

variable {history}

theorem Waiting.unique
    (waiting : history.Waiting)
    {first second : Wait}
    (firstMember : first ∈ history.waits)
    (secondMember : second ∈ history.waits)
    (same : first.semaphore = second.semaphore) :
    first = second :=
  inj_on_of_nodup_map waiting.once firstMember secondMember same

variable (drawGraph : Bool)

theorem accounted_start :
    (AnalyserHistory.start drawGraph).Accounted := by
  refine ⟨nodup_nil, by simp [start], by simp [start], ?_, ?_⟩
  · intro task finished
    exact absurd finished (by
      simp [start, status, new, Task.new])
  · intro appId
    simp [start, liveTasks, new, taskCount]

theorem waiting_start :
    (AnalyserHistory.start drawGraph).Waiting := by
  refine ⟨nodup_nil, nodup_nil, ?_, ?_, ?_, ?_, ?_, ?_⟩
  · intro semaphore member
    exact absurd member not_mem_nil
  · intro appId before semaphore member
    exact absurd member not_mem_nil
  · intro appId semaphore isPending
    exact absurd isPending (by
      simp [start, new, pendingSemaphore])
  · intro writer
    simp [start, new, waitingFor]
  · intro writer semaphore member
    exact absurd member (by
      simp [start, new, waitingFor])
  · intro writer semaphore member
    exact absurd member not_mem_nil

/-!
## Requests that leave the waiting threads alone
-/

theorem liveTasks_congr
    {history other : AnalyserHistory}
    (submitted : other.submitted = history.submitted)
    (ended : other.ended = history.ended)
    (owner : ∀ task, other.appId task = history.appId task)
    (appId : AppId) :
    other.liveTasks appId = history.liveTasks appId := by
  simp only [liveTasks, submitted, ended, owner]

theorem Accounted.congr
    {history other : AnalyserHistory}
    (accounted : history.Accounted)
    (owner : ∀ task, other.appId task = history.appId task)
    (status : ∀ task, other.status task = history.status task)
    (counts : other.analyser.taskCount = history.analyser.taskCount)
    (submitted : other.submitted = history.submitted)
    (ended : other.ended = history.ended)
    (finished : other.finished = history.finished) :
    other.Accounted where
  submittedOnce := submitted ▸ accounted.submittedOnce
  endedSubmitted := by
    rw [submitted, ended]
    exact accounted.endedSubmitted
  endedFinished := by
    intro task member
    rw [ended] at member
    exact (status task).trans (accounted.endedFinished task member)
  finishedLogged := by
    intro task isFinished
    rw [finished]
    exact accounted.finishedLogged task ((status task).symm.trans isFinished)
  counted := by
    intro appId
    rw [counts, liveTasks_congr submitted ended owner]
    exact accounted.counted appId

theorem WaitOver.congr
    {history other : AnalyserHistory}
    {wait : Wait}
    (isOver : history.WaitOver wait)
    (ended : ∀ task, task ∈ history.ended → task ∈ other.ended)
    (finished : ∀ task, task ∈ history.finished → task ∈ other.finished) :
    other.WaitOver wait := by
  cases wait with
  | task writer semaphore =>
      cases writer with
      | none => exact trivial
      | some task => exact finished task isOver
  | application appId before semaphore =>
      exact fun task member => ended task (isOver task member)

/-- New tasks and new statuses do not concern the waiting threads. -/
theorem Waiting.congr
    {history other : AnalyserHistory}
    (waiting : history.Waiting)
    (pending :
      other.analyser.pendingSemaphore = history.analyser.pendingSemaphore)
    (waited : other.analyser.waitingFor = history.analyser.waitingFor)
    (released : other.analyser.released = history.analyser.released)
    (waits : other.waits = history.waits)
    (ended : other.ended = history.ended)
    (owned :
      ∀ task, task ∈ history.submitted →
        task ∈ other.submitted ∧ other.appId task = history.appId task)
    (finished : ∀ task, task ∈ history.finished → task ∈ other.finished) :
    other.Waiting where
  once := waits ▸ waiting.once
  releasedOnce := released ▸ waiting.releasedOnce
  released := by
    intro semaphore member
    rw [released] at member
    obtain ⟨wait, isWait, isSemaphore, isOver⟩ :=
      waiting.released semaphore member
    refine ⟨wait, waits ▸ isWait, isSemaphore, isOver.congr ?_ finished⟩
    exact fun task member => ended ▸ member
  beforeOwned := by
    intro appId before semaphore isWait task member
    rw [waits] at isWait
    obtain ⟨isSubmitted, isOwner⟩ :=
      waiting.beforeOwned appId before semaphore isWait task member
    obtain ⟨stillSubmitted, sameOwner⟩ := owned task isSubmitted
    exact ⟨stillSubmitted, sameOwner.trans isOwner⟩
  pending := by
    rw [pending, released, waits]
    exact waiting.pending
  waitingOnce := by
    rw [waited]
    exact waiting.waitingOnce
  waiting := by
    rw [waited, released, waits]
    exact waiting.waiting
  served := by
    rw [waited, released, waits, ended]
    exact waiting.served

theorem Waiting.sameAccounts
    {history other : AnalyserHistory}
    (waiting : history.Waiting)
    (same : SameAccounts history.analyser other.analyser)
    (waits : other.waits = history.waits)
    (submitted : other.submitted = history.submitted)
    (ended : other.ended = history.ended)
    (finished : other.finished = history.finished) :
    other.Waiting := by
  apply waiting.congr same.pending same.waited same.released waits ended
  · intro task member
    exact ⟨submitted ▸ member, same.owner task⟩
  · intro task member
    exact finished ▸ member

/-!
## Tasks are submitted and change their status
-/

variable (history)

theorem appId_processTask
    (taskId : TaskId)
    (description : TaskDescription)
    (task : TaskId) :
    (history.next (.processTask taskId description)).appId task =
      if task = taskId then description.appId else history.appId task := by
  refine ((sameAccounts_processTask history.analyser taskId
    description).owner task).trans ?_
  by_cases same : task = taskId
  · simp [countTask, setTask, Task.new, same]
  · simp [countTask, setTask, appId, same]

theorem status_processTask
    (taskId : TaskId)
    (description : TaskDescription)
    (task : TaskId) :
    (history.next (.processTask taskId description)).status task =
      if task = taskId then .TO_ANALYSE else history.status task := by
  refine ((sameAccounts_processTask history.analyser taskId
    description).status task).trans ?_
  by_cases same : task = taskId
  · simp [countTask, setTask, Task.new, same]
  · simp [countTask, setTask, status, same]

variable
  {taskId : TaskId}
  {history}

/-- A new task is live for its application. -/
theorem Accounted.liveTasks_processTask
    (accounted : history.Accounted)
    (fresh : taskId ∉ history.submitted)
    (description : TaskDescription)
    (appId : AppId) :
    (history.next (.processTask taskId description)).liveTasks appId =
      history.liveTasks appId ++
        (if appId = description.appId then [taskId] else []) := by
  have notEnded : taskId ∉ history.ended := by
    intro isEnded
    exact fresh (accounted.endedSubmitted taskId isEnded)
  have appended :
      (history.next (.processTask taskId description)).submitted =
        history.submitted ++ [taskId] := rfl
  have ended :
      (history.next (.processTask taskId description)).ended =
        history.ended := rfl
  unfold liveTasks
  rw [appended, filter_append]
  congr 1
  · apply filter_congr
    intro task member
    have old : task ≠ taskId := by
      intro same
      exact fresh (same ▸ member)
    rw [appId_processTask, if_neg old, ended]
  · by_cases same : description.appId = appId
    · simp [appId_processTask, ended, same, notEnded]
    · have different : appId ≠ description.appId := fun eq => same eq.symm
      simp [appId_processTask, same, different]

theorem Accounted.processTask
    (accounted : history.Accounted)
    (fresh : taskId ∉ history.submitted)
    (description : TaskDescription) :
    (history.next (.processTask taskId description)).Accounted := by
  refine ⟨?_, ?_, ?_, ?_, ?_⟩
  · change (history.submitted ++ [taskId]).Nodup
    rw [nodup_append]
    refine ⟨accounted.submittedOnce, nodup_singleton taskId, ?_⟩
    intro earlier member last isLast same
    rw [mem_singleton] at isLast
    exact fresh (isLast ▸ same ▸ member)
  · intro task member
    exact mem_append_left _ (accounted.endedSubmitted task member)
  · intro task member
    have old : task ≠ taskId := by
      intro same
      exact fresh (same ▸ accounted.endedSubmitted task member)
    rw [status_processTask, if_neg old]
    exact accounted.endedFinished task member
  · intro task isFinished
    rw [status_processTask] at isFinished
    by_cases isNew : task = taskId
    · rw [if_pos isNew] at isFinished
      exact absurd isFinished (by simp)
    · rw [if_neg isNew] at isFinished
      exact accounted.finishedLogged task isFinished
  · intro appId
    have counts :
        (history.next (.processTask taskId description)).analyser.taskCount
            appId =
          (history.analyser.countTask taskId description).taskCount appId :=
      congrFun (sameAccounts_processTask history.analyser taskId
        description).counts appId
    rw [counts, taskCount_countTask,
      accounted.liveTasks_processTask fresh, accounted.counted]
    by_cases same : appId = description.appId
    · simp [same]
    · simp [same]

theorem Waiting.processTask
    (waiting : history.Waiting)
    (fresh : taskId ∉ history.submitted)
    (description : TaskDescription) :
    (history.next (.processTask taskId description)).Waiting := by
  have same :=
    sameAccounts_processTask history.analyser taskId description
  apply waiting.congr same.pending same.waited same.released
  · rfl
  · rfl
  · intro task member
    refine ⟨mem_append_left _ member, ?_⟩
    rw [appId_processTask, if_neg]
    intro isNew
    exact fresh (isNew ▸ member)
  · exact fun _ member => member

theorem appId_setStatus
    (history : AnalyserHistory)
    (taskId : TaskId)
    (newStatus : TaskState)
    (executionCount : Int)
    (task : TaskId) :
    (history.setStatus taskId newStatus executionCount).appId task =
      history.appId task := by
  by_cases same : task = taskId
  · simp [AnalyserHistory.setStatus, AnalyserHistory.appId,
      setTask, same]
  · simp [AnalyserHistory.setStatus, AnalyserHistory.appId,
      setTask, same]

theorem Accounted.setStatus
    (accounted : history.Accounted)
    (notEnded : taskId ∉ history.ended)
    (newStatus : TaskState)
    (executionCount : Int) :
    (history.setStatus taskId newStatus executionCount).Accounted := by
  have status (task : TaskId) :
      (history.setStatus taskId newStatus executionCount).status task =
        if task = taskId then newStatus else history.status task := by
    by_cases same : task = taskId
    · simp [AnalyserHistory.setStatus, AnalyserHistory.status,
        setTask, same]
    · simp [AnalyserHistory.setStatus, AnalyserHistory.status,
        setTask, same]
  refine ⟨accounted.submittedOnce, accounted.endedSubmitted, ?_, ?_, ?_⟩
  · intro task member
    have other : task ≠ taskId := by
      intro same
      exact notEnded (same ▸ member)
    rw [status, if_neg other]
    exact accounted.endedFinished task member
  · intro task isFinished
    rw [status] at isFinished
    simp only [AnalyserHistory.setStatus]
    by_cases same : task = taskId
    · rw [if_pos same] at isFinished
      simp [isFinished, same]
    · rw [if_neg same] at isFinished
      have logged := accounted.finishedLogged task isFinished
      split
      · exact mem_append_left _ logged
      · exact logged
  · intro appId
    have sameTasks :
        (history.setStatus taskId newStatus executionCount).liveTasks appId =
          history.liveTasks appId := by
      refine liveTasks_congr ?_ ?_ ?_ appId
      · rfl
      · rfl
      · exact history.appId_setStatus taskId newStatus executionCount
    rw [sameTasks]
    exact accounted.counted appId

theorem Waiting.setStatus
    (waiting : history.Waiting)
    (taskId : TaskId)
    (newStatus : TaskState)
    (executionCount : Int) :
    (history.setStatus taskId newStatus executionCount).Waiting := by
  apply waiting.congr
  · rfl
  · rfl
  · rfl
  · rfl
  · rfl
  · intro task member
    exact ⟨member,
      history.appId_setStatus taskId newStatus executionCount task⟩
  · intro task member
    simp only [AnalyserHistory.setStatus]
    split
    · exact mem_append_left _ member
    · exact member

/-!
## A task ends
-/

/-- The task has no executions left and did not fail. -/
def Ends (history : AnalyserHistory) (taskId : TaskId) : Prop :=
  history.executionCount taskId = 0 ∧ history.status taskId ≠ .FAILED

theorem ended_endTask
    (ends : history.Ends taskId) :
    (history.next (.endTask taskId)).ended = history.ended ++ [taskId] := by
  simp [next, ends.1, ends.2]

theorem ended_endTask_unfinished
    (unfinished : ¬ history.Ends taskId) :
    (history.next (.endTask taskId)).ended = history.ended := by
  have notLast :
      ¬ (history.executionCount taskId = 0 ∧
        history.status taskId ≠ .FAILED) := unfinished
  simp only [next, decide_eq_true_eq]
  rw [if_neg notLast]

theorem sameAccounts_endTask_unfinished
    (unfinished : ¬ history.Ends taskId) :
    SameAccounts history.analyser
      (history.next (.endTask taskId)).analyser := by
  apply endTask_unnotified
  by_cases isLast : history.executionCount taskId = 0
  · right
    by_cases failed : history.status taskId = .FAILED
    · exact failed
    · exact absurd ⟨isLast, failed⟩ unfinished
  · exact .inl isLast

/-- The task that ends, among the live tasks of its application. -/
structure Ending (history : AnalyserHistory) (taskId : TaskId) : Prop where
  submitted : taskId ∈ history.submitted
  notEnded : taskId ∉ history.ended
  finished : history.status taskId = .FINISHED
  notified :
    TaskAnalyser.Notified history.analyser
      (history.next (.endTask taskId)).analyser taskId (history.appId taskId)
  ended : (history.next (.endTask taskId)).ended = history.ended ++ [taskId]

section

variable (accounted : history.Accounted)

include accounted

theorem Accounted.ending
    (enabled : history.Enabled (.endTask taskId))
    (ends : history.Ends taskId) :
    history.Ending taskId := by
  have isLive : taskId ∈ history.liveTasks (history.appId taskId) :=
    mem_liveTasks.mpr ⟨enabled.1, rfl, enabled.2.1⟩
  have counts : 0 < history.analyser.taskCount (history.appId taskId) := by
    rw [accounted.counted]
    exact_mod_cast length_pos_of_mem isLive
  exact ⟨enabled.1, enabled.2.1, enabled.2.2.resolve_right ends.2,
    endTask_notified ends.1 ends.2 counts, ended_endTask ends⟩

variable (ending : history.Ending taskId)

include ending

theorem Ending.liveTasks
    (appId : AppId) :
    (history.next (.endTask taskId)).liveTasks appId =
      (history.liveTasks appId).erase taskId := by
  have once : (history.liveTasks appId).Nodup :=
    accounted.submittedOnce.filter _
  have submitted :
      (history.next (.endTask taskId)).submitted = history.submitted := rfl
  have owner (task : TaskId) :
      (history.next (.endTask taskId)).appId task = history.appId task :=
    ending.notified.owner task
  rw [once.erase_eq_filter, AnalyserHistory.liveTasks,
    AnalyserHistory.liveTasks, filter_filter, submitted]
  apply filter_congr
  intro task _
  rw [owner, ending.ended]
  by_cases same : task = taskId
  · simp [same]
  · simp [same]

/-- The count drops with the number of live tasks. -/
theorem Ending.length_liveTasks
    (appId : AppId) :
    (((history.next (.endTask taskId)).liveTasks appId).length : Int) =
      if appId = history.appId taskId then
        ((history.liveTasks appId).length : Int) - 1
      else (history.liveTasks appId).length := by
  rw [ending.liveTasks accounted]
  by_cases same : appId = history.appId taskId
  · have isLive : taskId ∈ history.liveTasks appId :=
      mem_liveTasks.mpr ⟨ending.submitted, same.symm, ending.notEnded⟩
    have positive := length_pos_of_mem isLive
    rw [if_pos same, length_erase_of_mem isLive]
    omega
  · have notLive : taskId ∉ history.liveTasks appId := by
      intro isLive
      exact same (mem_liveTasks.mp isLive).2.1.symm
    rw [if_neg same, erase_of_not_mem notLive]

omit ending in
theorem Accounted.endTask
    (enabled : history.Enabled (.endTask taskId)) :
    (history.next (.endTask taskId)).Accounted := by
  by_cases ends : history.Ends taskId
  · have ending := accounted.ending enabled ends
    have status (task : TaskId) :
        (history.next (.endTask taskId)).status task = history.status task :=
      ending.notified.status task
    refine ⟨accounted.submittedOnce, ?_, ?_, ?_, ?_⟩
    · intro task member
      rw [ending.ended, mem_append, mem_singleton] at member
      rcases member with before | isTask
      · exact accounted.endedSubmitted task before
      · exact isTask ▸ ending.submitted
    · intro task member
      rw [status]
      rw [ending.ended, mem_append, mem_singleton] at member
      rcases member with before | isTask
      · exact accounted.endedFinished task before
      · exact isTask ▸ ending.finished
    · intro task isFinished
      rw [status] at isFinished
      exact accounted.finishedLogged task isFinished
    · intro appId
      rw [ending.length_liveTasks accounted, ending.notified.counts]
      by_cases same : appId = history.appId taskId
      · rw [if_pos same, if_pos same, same, accounted.counted]
      · rw [if_neg same, if_neg same, accounted.counted]
  · have ended := ended_endTask_unfinished ends
    have same := sameAccounts_endTask_unfinished ends
    refine accounted.congr same.owner same.status same.counts ?_ ended ?_
    · rfl
    · rfl

/-- After the last task of an application everything submitted has ended. -/
theorem Ending.allEnded
    (last : history.analyser.taskCount (history.appId taskId) = 1)
    (submitted : task ∈ history.submitted)
    (sameApp : history.appId task = history.appId taskId) :
    task ∈ (history.next (.endTask taskId)).ended := by
  have noneLive :
      ((history.next (.endTask taskId)).liveTasks
        (history.appId taskId)).length = 0 := by
    have length := ending.length_liveTasks accounted (history.appId taskId)
    rw [if_pos rfl, ← accounted.counted, last] at length
    omega
  by_cases isEnded : task ∈ (history.next (.endTask taskId)).ended
  · exact isEnded
  · have owner := ending.notified.owner task
    have isLive :
        task ∈ (history.next (.endTask taskId)).liveTasks
          (history.appId taskId) :=
      mem_liveTasks.mpr ⟨submitted, owner.trans sameApp, isEnded⟩
    rw [eq_nil_of_length_eq_zero noneLive] at isLive
    exact absurd isLive not_mem_nil

end

variable {semaphore : SemaphoreId}

theorem mem_applicationReleases
    {analyser : TaskAnalyser} :
    semaphore ∈ analyser.applicationReleases appId ↔
      analyser.taskCount appId = 1 ∧
        analyser.pendingSemaphore appId = some semaphore := by
  by_cases last : analyser.taskCount appId = 1
  · simp [applicationReleases, last]
  · simp [applicationReleases, last]

variable (waiting : history.Waiting)

include waiting

/-- The semaphores released at the end of a task are new and distinct. -/
theorem Waiting.nodup_released
    (taskId : TaskId)
    (appId : AppId) :
    (history.analyser.released ++
      (history.analyser.applicationReleases appId ++
        history.analyser.waitingFor taskId)).Nodup := by
  have releases : (history.analyser.applicationReleases appId).Nodup := by
    unfold applicationReleases
    split
    · cases history.analyser.pendingSemaphore appId with
      | none => simp
      | some semaphore => simp
    · exact nodup_nil
  rw [nodup_append]
  refine ⟨waiting.releasedOnce, ?_, ?_⟩
  · rw [nodup_append]
    refine ⟨releases, waiting.waitingOnce taskId, ?_⟩
    intro first isPending second isWaiting same
    obtain ⟨_, before, forApplication⟩ :=
      waiting.pending appId first (mem_applicationReleases.mp isPending).2
    have forTask := (waiting.waiting taskId second isWaiting).2
    have sameWait := waiting.unique forApplication forTask same
    exact absurd sameWait (by simp)
  · intro first isReleased second isNew same
    rcases mem_append.mp isNew with isPending | isWaiting
    · exact (waiting.pending appId second
        (mem_applicationReleases.mp isPending).2).1 (same ▸ isReleased)
    · exact (waiting.waiting taskId second isWaiting).1 (same ▸ isReleased)

/-- A semaphore that is still kept is not released with another one. -/
theorem Waiting.pending_endTask
    (ending : history.Ending taskId)
    (isPending :
      (history.next (.endTask taskId)).analyser.pendingSemaphore appId =
        some semaphore) :
    semaphore ∉ (history.next (.endTask taskId)).analyser.released ∧
      history.analyser.pendingSemaphore appId = some semaphore := by
  rw [ending.notified.pending] at isPending
  by_cases isOwn : appId = history.appId taskId ∧
      history.analyser.taskCount (history.appId taskId) = 1
  · rw [if_pos isOwn] at isPending
    exact absurd isPending (by simp)
  · rw [if_neg isOwn] at isPending
    refine ⟨?_, isPending⟩
    obtain ⟨notReleased, before, forApplication⟩ :=
      waiting.pending appId semaphore isPending
    rw [ending.notified.released, mem_append, mem_append]
    intro isReleased
    rcases isReleased with earlier | withApplication | withTask
    · exact notReleased earlier
    · obtain ⟨last, isOther⟩ := mem_applicationReleases.mp withApplication
      obtain ⟨_, otherBefore, forOther⟩ :=
        waiting.pending _ semaphore isOther
      have sameWait := waiting.unique forApplication forOther rfl
      rw [Wait.application.injEq] at sameWait
      exact isOwn ⟨sameWait.1, last⟩
    · have forTask := (waiting.waiting taskId semaphore withTask).2
      have sameWait := waiting.unique forApplication forTask rfl
      exact absurd sameWait (by simp)

theorem Waiting.endTask
    (accounted : history.Accounted)
    (enabled : history.Enabled (.endTask taskId)) :
    (history.next (.endTask taskId)).Waiting := by
  by_cases ends : history.Ends taskId
  · have ending := accounted.ending enabled ends
    have isFinished : taskId ∈ history.finished :=
      accounted.finishedLogged taskId ending.finished
    refine ⟨waiting.once, ?_, ?_, ?_, ?_, ?_, ?_, ?_⟩
    · rw [ending.notified.released]
      exact waiting.nodup_released taskId _
    · intro semaphore member
      rw [ending.notified.released, mem_append, mem_append] at member
      rcases member with earlier | withApplication | withTask
      · obtain ⟨wait, isWait, isSemaphore, isOver⟩ :=
          waiting.released semaphore earlier
        refine ⟨wait, isWait, isSemaphore, isOver.congr ?_ fun _ found => found⟩
        intro task isEnded
        rw [ending.ended]
        exact mem_append_left _ isEnded
      · obtain ⟨last, isPending⟩ := mem_applicationReleases.mp withApplication
        obtain ⟨_, before, forApplication⟩ :=
          waiting.pending _ semaphore isPending
        refine ⟨_, forApplication, rfl, ?_⟩
        intro task member
        obtain ⟨submitted, sameApp⟩ :=
          waiting.beforeOwned _ before semaphore forApplication task member
        exact ending.allEnded accounted last submitted sameApp
      · exact ⟨_, (waiting.waiting taskId semaphore withTask).2, rfl,
          isFinished⟩
    · intro appId before semaphore isWait task member
      obtain ⟨submitted, owner⟩ :=
        waiting.beforeOwned appId before semaphore isWait task member
      exact ⟨submitted, (ending.notified.owner task).trans owner⟩
    · intro appId semaphore isPending
      obtain ⟨notReleased, wasPending⟩ :=
        waiting.pending_endTask ending isPending
      exact ⟨notReleased, (waiting.pending appId semaphore wasPending).2⟩
    · intro writer
      rw [ending.notified.waited]
      split
      · exact nodup_nil
      · exact waiting.waitingOnce writer
    · intro writer semaphore isWaiting
      rw [ending.notified.waited] at isWaiting
      by_cases isTask : writer = taskId
      · rw [if_pos isTask] at isWaiting
        exact absurd isWaiting not_mem_nil
      · rw [if_neg isTask] at isWaiting
        obtain ⟨notReleased, forTask⟩ :=
          waiting.waiting writer semaphore isWaiting
        refine ⟨?_, forTask⟩
        rw [ending.notified.released, mem_append, mem_append]
        intro isReleased
        rcases isReleased with earlier | withApplication | withTask
        · exact notReleased earlier
        · obtain ⟨_, before, forApplication⟩ :=
            waiting.pending _ semaphore
              (mem_applicationReleases.mp withApplication).2
          have sameWait := waiting.unique forApplication forTask rfl
          exact absurd sameWait (by simp)
        · have forOther := (waiting.waiting taskId semaphore withTask).2
          have sameWait := waiting.unique forTask forOther rfl
          rw [Wait.task.injEq, Option.some.injEq] at sameWait
          exact isTask sameWait.1
    · intro writer semaphore isWait
      rw [ending.notified.released]
      rcases waiting.served writer semaphore isWait with
        earlier | ⟨task, isWriter, notEnded, isWaiting⟩
      · exact .inl (mem_append_left _ earlier)
      · by_cases isTask : task = taskId
        · subst task
          exact .inl (mem_append_right _
            (mem_append_right _ isWaiting))
        · refine .inr ⟨task, isWriter, ?_, ?_⟩
          · rw [ending.ended]
            simp [notEnded, isTask]
          · rw [ending.notified.waited, if_neg isTask]
            exact isWaiting
  · have ended := ended_endTask_unfinished ends
    refine waiting.sameAccounts (sameAccounts_endTask_unfinished ends) ?_ ?_
      ended ?_
    · rfl
    · rfl
    · rfl

end AnalyserHistory

end DistributedRdf.Engine
