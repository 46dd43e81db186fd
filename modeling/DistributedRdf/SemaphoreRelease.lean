import DistributedRdf.SemaphoreWaits

namespace DistributedRdf.Engine

open Java Execution List TaskAnalyser AnalyserHistory Wait

/-!
# Every waiting thread is released once, and in time

A request is answered at once or kept until its application or its writer has
ended; while the requests of an application do not overlap none is lost.
-/

namespace AnalyserHistory

/-!
## A thread waits
-/

/-- A thread with a new semaphore asks; the tasks are not concerned. -/
structure Requested (history other : AnalyserHistory) (wait : Wait) : Prop where
  fresh : history.Fresh wait.semaphore
  waits : other.waits = history.waits ++ [wait]
  submitted : other.submitted = history.submitted
  ended : other.ended = history.ended
  finished : other.finished = history.finished
  owner : ∀ task, other.appId task = history.appId task
  beforeOwned :
    ∀ appId before semaphore, wait = .application appId before semaphore →
      before = history.applicationTasks appId

section Requested

variable
  {history other : AnalyserHistory}
  {wait : Wait}

section

variable (requested : Requested history other wait)

include requested

theorem Requested.once
    (waiting : history.Waiting) :
    (other.waits.map semaphore).Nodup := by
  rw [requested.waits, map_append, nodup_append]
  refine ⟨waiting.once, nodup_singleton _, ?_⟩
  intro semaphore member newSemaphore isNew same
  obtain ⟨earlier, isWait, isSemaphore⟩ := mem_map.mp member
  rw [map_singleton, mem_singleton] at isNew
  exact requested.fresh earlier isWait
    (isSemaphore.trans (same.trans isNew))

theorem Requested.notReleased
    (waiting : history.Waiting) :
    wait.semaphore ∉ history.analyser.released := by
  intro isReleased
  obtain ⟨earlier, isWait, isSemaphore, _⟩ :=
    waiting.released wait.semaphore isReleased
  exact requested.fresh earlier isWait isSemaphore

end

variable {earlier : Wait}

theorem Requested.stillOver
    (requested : Requested history other wait)
    (isOver : history.WaitOver earlier) :
    other.WaitOver earlier := by
  apply isOver.congr
  · exact fun task member => requested.ended ▸ member
  · exact fun task member => requested.finished ▸ member

theorem Requested.stillWaits
    (requested : Requested history other wait)
    (member : earlier ∈ history.waits) :
    earlier ∈ other.waits := by
  rw [requested.waits]
  exact mem_append_left _ member

variable
  {appId : AppId}
  {before : List TaskId}
  {semaphore : SemaphoreId}

theorem Requested.ownsBefore
    (requested : Requested history other wait)
    (waiting : history.Waiting)
    (isWait : .application appId before semaphore ∈ other.waits)
    {task : TaskId}
    (member : task ∈ before) :
    task ∈ other.submitted ∧ other.appId task = appId := by
  rw [requested.submitted, requested.owner]
  rw [requested.waits, mem_append, mem_singleton] at isWait
  rcases isWait with earlier | isNew
  · exact waiting.beforeOwned appId before semaphore earlier task member
  · rw [requested.beforeOwned appId before semaphore isNew.symm,
      applicationTasks] at member
    simpa using member

variable (waiting : history.Waiting)

include waiting

/-- The thread goes on at once. -/
theorem Waiting.release
    (requested : Requested history other wait)
    (same :
      SameAccounts (history.analyser.release wait.semaphore) other.analyser)
    (isOver : history.WaitOver wait) :
    other.Waiting where
  once := requested.once waiting
  releasedOnce := by
    rw [same.released]
    change (history.analyser.released ++ [wait.semaphore]).Nodup
    rw [nodup_append]
    refine ⟨waiting.releasedOnce, nodup_singleton _, ?_⟩
    intro earlier isReleased last isLast same
    rw [mem_singleton] at isLast
    exact requested.notReleased waiting (isLast ▸ same ▸ isReleased)
  released := by
    intro semaphore member
    rw [same.released] at member
    rcases mem_append.mp member with earlier | isNew
    · obtain ⟨served, isWait, isSemaphore, wasOver⟩ :=
        waiting.released semaphore earlier
      exact ⟨served, requested.stillWaits isWait, isSemaphore,
        requested.stillOver wasOver⟩
    · refine ⟨wait, ?_, (mem_singleton.mp isNew).symm,
        requested.stillOver isOver⟩
      rw [requested.waits]
      simp
  beforeOwned := by
    intro appId before semaphore isWait task member
    exact requested.ownsBefore waiting isWait member
  pending := by
    intro appId semaphore isPending
    rw [same.pending] at isPending
    obtain ⟨notReleased, before, isWait⟩ :=
      waiting.pending appId semaphore isPending
    refine ⟨?_, before, requested.stillWaits isWait⟩
    rw [same.released]
    intro isReleased
    rcases mem_append.mp isReleased with earlier | isNew
    · exact notReleased earlier
    · exact requested.fresh _ isWait (mem_singleton.mp isNew)
  waitingOnce := by
    rw [same.waited]
    exact waiting.waitingOnce
  waiting := by
    intro writer semaphore isWaiting
    rw [same.waited] at isWaiting
    obtain ⟨notReleased, isWait⟩ :=
      waiting.waiting writer semaphore isWaiting
    refine ⟨?_, requested.stillWaits isWait⟩
    rw [same.released]
    intro isReleased
    rcases mem_append.mp isReleased with earlier | isNew
    · exact notReleased earlier
    · exact requested.fresh _ isWait (mem_singleton.mp isNew)
  served := by
    intro writer semaphore isWait
    rw [same.released, same.waited, requested.ended]
    rw [requested.waits, mem_append, mem_singleton] at isWait
    rcases isWait with earlier | isNew
    · rcases waiting.served writer semaphore earlier with
        isReleased | stillWaiting
      · exact .inl (mem_append_left _ isReleased)
      · exact .inr stillWaiting
    · have isSemaphore : semaphore = wait.semaphore := by
        rw [← isNew]
        rfl
      exact .inl (mem_append_right _
        (mem_singleton.mpr isSemaphore))

/-- The thread waits for a task that has not ended. -/
theorem Waiting.keepWaiting
    {writer : TaskId}
    (requested : Requested history other (.task (some writer) semaphore))
    (same :
      SameAccounts (history.analyser.keepWaiting writer semaphore)
        other.analyser)
    (notEnded : writer ∉ history.ended) :
    other.Waiting where
  once := requested.once waiting
  releasedOnce := by
    rw [same.released]
    exact waiting.releasedOnce
  released := by
    intro released member
    rw [same.released] at member
    obtain ⟨served, isWait, isSemaphore, wasOver⟩ :=
      waiting.released released member
    exact ⟨served, requested.stillWaits isWait, isSemaphore,
      requested.stillOver wasOver⟩
  beforeOwned := by
    intro appId before semaphore isWait task member
    exact requested.ownsBefore waiting isWait member
  pending := by
    intro appId semaphore isPending
    rw [same.pending] at isPending
    rw [same.released]
    obtain ⟨notReleased, before, isWait⟩ :=
      waiting.pending appId semaphore isPending
    exact ⟨notReleased, before, requested.stillWaits isWait⟩
  waitingOnce := by
    intro task
    rw [same.waited, waitingFor_keepWaiting]
    split
    · rw [nodup_append]
      refine ⟨waiting.waitingOnce writer, nodup_singleton _, ?_⟩
      intro earlier isWaiting last isLast isSame
      rw [mem_singleton] at isLast
      exact requested.fresh _ (waiting.waiting writer earlier isWaiting).2
        (isSame.trans isLast)
    · exact waiting.waitingOnce task
  waiting := by
    intro task kept isWaiting
    rw [same.waited, waitingFor_keepWaiting] at isWaiting
    rw [same.released]
    have earlier (wasWaiting : kept ∈ history.analyser.waitingFor task) :
        kept ∉ history.analyser.released ∧
          .task (some task) kept ∈ other.waits := by
      obtain ⟨notReleased, isWait⟩ := waiting.waiting task kept wasWaiting
      exact ⟨notReleased, requested.stillWaits isWait⟩
    by_cases isWriter : task = writer
    · rw [if_pos isWriter, mem_append, mem_singleton] at isWaiting
      rcases isWaiting with wasWaiting | isNew
      · exact earlier (isWriter ▸ wasWaiting)
      · refine ⟨isNew ▸ requested.notReleased waiting, ?_⟩
        rw [requested.waits, isWriter, isNew]
        simp
    · rw [if_neg isWriter] at isWaiting
      exact earlier isWaiting
  served := by
    intro asked kept isWait
    rw [same.released, requested.ended]
    simp only [same.waited, waitingFor_keepWaiting]
    rw [requested.waits, mem_append, mem_singleton] at isWait
    rcases isWait with earlier | isNew
    · rcases waiting.served asked kept earlier with
        isReleased | ⟨task, isTask, stillLive, isWaiting⟩
      · exact .inl isReleased
      · refine .inr ⟨task, isTask, stillLive, ?_⟩
        split
        · rename_i isWriter
          exact mem_append_left _ (isWriter ▸ isWaiting)
        · exact isWaiting
    · rw [task.injEq] at isNew
      refine .inr ⟨writer, isNew.1, notEnded, ?_⟩
      rw [if_pos rfl, isNew.2]
      simp

/-- The thread waits for an application, or its request is lost. -/
theorem Waiting.awaitApplication
    (requested :
      Requested history other (.application appId before semaphore))
    (released : other.analyser.released = history.analyser.released)
    (waited : other.analyser.waitingFor = history.analyser.waitingFor)
    (pending :
      ∀ otherApp kept,
        other.analyser.pendingSemaphore otherApp = some kept →
          history.analyser.pendingSemaphore otherApp = some kept ∨
            (otherApp = appId ∧ kept = semaphore)) :
    other.Waiting where
  once := requested.once waiting
  releasedOnce := by
    rw [released]
    exact waiting.releasedOnce
  released := by
    intro released' member
    rw [released] at member
    obtain ⟨served, isWait, isSemaphore, wasOver⟩ :=
      waiting.released released' member
    exact ⟨served, requested.stillWaits isWait, isSemaphore,
      requested.stillOver wasOver⟩
  beforeOwned := by
    intro appId before semaphore isWait task member
    exact requested.ownsBefore waiting isWait member
  pending := by
    intro otherApp kept isPending
    rw [released]
    rcases pending otherApp kept isPending with wasPending | ⟨isApp, isNew⟩
    · obtain ⟨notReleased, earlier, isWait⟩ :=
        waiting.pending otherApp kept wasPending
      exact ⟨notReleased, earlier, requested.stillWaits isWait⟩
    · refine ⟨isNew ▸ requested.notReleased waiting, before, ?_⟩
      rw [requested.waits, isApp, isNew]
      simp
  waitingOnce := by
    rw [waited]
    exact waiting.waitingOnce
  waiting := by
    intro writer kept isWaiting
    rw [waited] at isWaiting
    rw [released]
    obtain ⟨notReleased, isWait⟩ := waiting.waiting writer kept isWaiting
    exact ⟨notReleased, requested.stillWaits isWait⟩
  served := by
    intro writer kept isWait
    rw [released, waited, requested.ended]
    rw [requested.waits, mem_append, mem_singleton] at isWait
    rcases isWait with earlier | isNew
    · exact waiting.served writer kept earlier
    · exact absurd isNew (by simp)

end Requested

variable {appId : AppId}

/-- Nothing is live when the count is zero. -/
theorem Accounted.applicationTasks_ended
    {history : AnalyserHistory}
    (accounted : history.Accounted)
    (zero : history.analyser.taskCount appId = 0)
    {task : TaskId}
    (member : task ∈ history.applicationTasks appId) :
    task ∈ history.ended := by
  have length : (history.liveTasks appId).length = 0 := by
    have counted := accounted.counted appId
    rw [zero] at counted
    exact_mod_cast counted.symm
  have noneLive := eq_nil_of_length_eq_zero length
  by_cases isEnded : task ∈ history.ended
  · exact isEnded
  · have isTask : task ∈ history.submitted ∧ history.appId task = appId := by
      simpa [applicationTasks] using member
    have isLive : task ∈ history.liveTasks appId :=
      mem_liveTasks.mpr ⟨isTask.1, isTask.2, isEnded⟩
    rw [noneLive] at isLive
    exact absurd isLive not_mem_nil

/-- The state after a thread has asked to wait for an application. -/
def awaitApplication
    (history : AnalyserHistory)
    (analyser : TaskAnalyser)
    (appId : AppId)
    (semaphore : SemaphoreId) : AnalyserHistory :=
  { history with
    analyser := analyser
    waits := history.waits ++
      [.application appId (history.applicationTasks appId) semaphore] }

variable {semaphore : SemaphoreId}

theorem requested_awaitApplication
    {history : AnalyserHistory}
    (analyser : TaskAnalyser)
    (appId : AppId)
    (fresh : history.Fresh semaphore)
    (owner :
      ∀ task, (analyser.tasks task).description.appId = history.appId task) :
    Requested history (history.awaitApplication analyser appId semaphore)
      (.application appId (history.applicationTasks appId) semaphore) := by
  refine ⟨fresh, rfl, rfl, rfl, rfl, owner, ?_⟩
  intro otherApp before otherSemaphore isWait
  rw [application.injEq] at isWait
  rw [← isWait.1, isWait.2.1]

variable {analyser : TaskAnalyser}

/-- A request for an application that is carried out. -/
theorem awaitApplication_serves
    {history : AnalyserHistory}
    (accounted : history.Accounted)
    (waiting : history.Waiting)
    (fresh : history.Fresh semaphore)
    (serves :
      TaskAnalyser.ServesApplication history.analyser analyser appId
        semaphore) :
    (history.awaitApplication analyser appId semaphore).Accounted ∧
      (history.awaitApplication analyser appId semaphore).Waiting := by
  rcases serves with ⟨zero, same⟩ | ⟨_, same⟩
  · have requested :=
      requested_awaitApplication analyser appId fresh same.owner
    refine ⟨?_, ?_⟩
    · exact accounted.congr same.owner same.status same.counts rfl rfl rfl
    · apply waiting.release requested same
      intro task member
      exact accounted.applicationTasks_ended zero member
  · have requested :=
      requested_awaitApplication analyser appId fresh same.owner
    refine ⟨?_, ?_⟩
    · exact accounted.congr same.owner same.status same.counts rfl rfl rfl
    · apply waiting.awaitApplication requested same.released same.waited
      intro otherApp kept isPending
      have pending := same.pending
      change analyser.pendingSemaphore = _ at pending
      change analyser.pendingSemaphore otherApp = some kept at isPending
      rw [pending, pendingSemaphore_keepPending] at isPending
      by_cases isApp : otherApp = appId
      · rw [if_pos isApp, Option.some.injEq] at isPending
        exact .inr ⟨isApp, isPending.symm⟩
      · rw [if_neg isApp] at isPending
        exact .inl isPending

theorem barrier_preserves
    {history : AnalyserHistory}
    (accounted : history.Accounted)
    (waiting : history.Waiting)
    (fresh : history.Fresh semaphore) :
    (history.next (.barrier appId semaphore)).Accounted ∧
      (history.next (.barrier appId semaphore)).Waiting := by
  change (history.awaitApplication _ appId semaphore).Accounted ∧
    (history.awaitApplication _ appId semaphore).Waiting
  rcases history.analyser.barrier_serves appId semaphore with
    ⟨_, unchanged⟩ | serves
  · rw [unchanged]
    have requested :=
      requested_awaitApplication history.analyser appId fresh fun _ => rfl
    refine ⟨?_, ?_⟩
    · exact accounted.congr (fun _ => rfl) (fun _ => rfl) rfl rfl rfl rfl
    · apply waiting.awaitApplication requested rfl rfl
      intro otherApp kept isPending
      exact .inl isPending
  · exact awaitApplication_serves accounted waiting fresh serves

theorem findWaitedTask_preserves
    {history : AnalyserHistory}
    (accounted : history.Accounted)
    (waiting : history.Waiting)
    {dataId : Nat}
    {mode : AccessMode}
    (fresh : history.Fresh semaphore) :
    (history.next (.findWaitedTask dataId mode semaphore)).Accounted ∧
      (history.next (.findWaitedTask dataId mode semaphore)).Waiting := by
  obtain ⟨kept, released⟩ :=
    history.analyser.findWaitedTask_serves dataId mode semaphore
  have requested
      (owner :
        ∀ task,
          (history.next (.findWaitedTask dataId mode semaphore)).appId task =
            history.appId task) :
      Requested history
        (history.next (.findWaitedTask dataId mode semaphore))
        (.task (history.analyser.lastWriter dataId) semaphore) :=
    ⟨fresh, rfl, rfl, rfl, rfl, owner, fun _ _ _ isWait => absurd isWait (by simp)⟩
  by_cases live :
      ∃ writer, history.analyser.lastWriter dataId = some writer ∧
        history.status writer ≠ .FINISHED
  · obtain ⟨writer, isLast, notFinished⟩ := live
    have same := kept writer isLast notFinished
    have asked := requested same.owner
    rw [isLast] at asked
    refine ⟨?_, ?_⟩
    · exact accounted.congr same.owner same.status same.counts rfl rfl rfl
    · apply waiting.keepWaiting asked same
      intro isEnded
      exact notFinished (accounted.endedFinished writer isEnded)
  · have allFinished (writer : TaskId)
        (isLast : history.analyser.lastWriter dataId = some writer) :
        history.status writer = .FINISHED := by
      by_cases finished : history.status writer = .FINISHED
      · exact finished
      · exact absurd ⟨writer, isLast, finished⟩ live
    have same := released allFinished
    refine ⟨?_, ?_⟩
    · exact accounted.congr same.owner same.status same.counts rfl rfl rfl
    · apply waiting.release (requested same.owner) same
      cases found : history.analyser.lastWriter dataId with
      | none => exact trivial
      | some writer =>
          exact accounted.finishedLogged writer (allFinished writer found)

variable {action : AnalyserAction}

theorem accountedAndWaiting_next
    {history : AnalyserHistory}
    (accounted : history.Accounted)
    (waiting : history.Waiting)
    (enabled : history.Enabled action) :
    (history.next action).Accounted ∧ (history.next action).Waiting := by
  cases action with
  | processTask taskId description =>
      exact ⟨accounted.processTask enabled description,
        waiting.processTask enabled description⟩
  | setStatus taskId newStatus executionCount =>
      exact ⟨accounted.setStatus enabled.2 newStatus executionCount,
        waiting.setStatus taskId newStatus executionCount⟩
  | endTask taskId =>
      exact ⟨accounted.endTask enabled, waiting.endTask accounted enabled⟩
  | findWaitedTask dataId mode semaphore =>
      exact findWaitedTask_preserves accounted waiting enabled
  | barrier appId semaphore => exact barrier_preserves accounted waiting enabled
  | noMoreTasks appId semaphore =>
      exact awaitApplication_serves accounted waiting enabled
        (history.analyser.noMoreTasks_serves appId semaphore)

/-!
## Nobody is forgotten
-/

/-- The threads that have waited for the application are released. -/
def ApplicationFree (history : AnalyserHistory) (appId : AppId) : Prop :=
  ∀ before semaphore, .application appId before semaphore ∈ history.waits →
    semaphore ∈ history.analyser.released

/--
The main thread of an application waits for one thing at a time, and the graph
is not drawn at a barrier while a writer is null.
-/
def OneAtATime (history : AnalyserHistory) : AnalyserAction → Prop
  | .barrier appId _ =>
      history.ApplicationFree appId ∧ ¬ history.analyser.BarrierFails
  | .noMoreTasks appId _ => history.ApplicationFree appId
  | _ => True

/-- Who waits for an application is released or waits for a live task. -/
def ApplicationsServed (history : AnalyserHistory) : Prop :=
  ∀ appId before semaphore,
    .application appId before semaphore ∈ history.waits →
      semaphore ∈ history.analyser.released ∨
        (history.analyser.pendingSemaphore appId = some semaphore ∧
          history.liveTasks appId ≠ [])

theorem ApplicationsServed.congr
    {history other : AnalyserHistory}
    (served : history.ApplicationsServed)
    (waits :
      ∀ appId before semaphore,
        .application appId before semaphore ∈ other.waits →
          .application appId before semaphore ∈ history.waits)
    (released :
      ∀ semaphore, semaphore ∈ history.analyser.released →
        semaphore ∈ other.analyser.released)
    (pending :
      other.analyser.pendingSemaphore = history.analyser.pendingSemaphore)
    (live :
      ∀ appId task, task ∈ history.liveTasks appId →
        task ∈ other.liveTasks appId) :
    other.ApplicationsServed := by
  intro appId before semaphore isWait
  rcases served appId before semaphore (waits appId before semaphore isWait)
    with isReleased | ⟨isPending, someLive⟩
  · exact .inl (released semaphore isReleased)
  · refine .inr ⟨pending ▸ isPending, ?_⟩
    obtain ⟨task, isLive⟩ := exists_mem_of_ne_nil _ someLive
    exact ne_nil_of_mem (live appId task isLive)

theorem ApplicationsServed.endTask
    {history : AnalyserHistory}
    (served : history.ApplicationsServed)
    (accounted : history.Accounted)
    {taskId : TaskId}
    (enabled : history.Enabled (.endTask taskId)) :
    (history.next (.endTask taskId)).ApplicationsServed := by
  by_cases ends : history.Ends taskId
  · have ending := accounted.ending enabled ends
    intro appId before semaphore isWait
    rw [ending.notified.released, ending.notified.pending]
    rcases served appId before semaphore isWait with
      isReleased | ⟨isPending, someLive⟩
    · exact .inl (mem_append_left _ isReleased)
    · by_cases isLast : appId = history.appId taskId ∧
          history.analyser.taskCount (history.appId taskId) = 1
      · left
        apply mem_append_right
        apply mem_append_left
        exact mem_applicationReleases.mpr ⟨isLast.2, isLast.1 ▸ isPending⟩
      · refine .inr ⟨by rw [if_neg isLast]; exact isPending, ?_⟩
        have length := ending.length_liveTasks accounted appId
        have positive := length_pos_iff.mpr someLive
        apply length_pos_iff.mp
        by_cases isApp : appId = history.appId taskId
        · have counted := accounted.counted appId
          rw [if_pos isApp] at length
          have notOne : history.analyser.taskCount appId ≠ 1 := by
            intro one
            exact isLast ⟨isApp, isApp ▸ one⟩
          omega
        · rw [if_neg isApp] at length
          omega
  · have same := sameAccounts_endTask_unfinished ends
    have ended := ended_endTask_unfinished ends
    apply served.congr
    · exact fun _ _ _ isWait => isWait
    · intro semaphore isReleased
      rw [same.released]
      exact isReleased
    · exact same.pending
    · intro appId task isLive
      have sameTasks :
          (history.next (.endTask taskId)).liveTasks appId =
            history.liveTasks appId := by
        refine liveTasks_congr ?_ ended same.owner appId
        rfl
      exact sameTasks ▸ isLive

theorem ApplicationsServed.awaitApplication
    {history : AnalyserHistory}
    (served : history.ApplicationsServed)
    (accounted : history.Accounted)
    (free : history.ApplicationFree appId)
    (serves :
      TaskAnalyser.ServesApplication history.analyser analyser appId
        semaphore) :
    (history.awaitApplication analyser appId
      semaphore).ApplicationsServed := by
  intro otherApp before kept isWait
  have sameTasks
      (owner :
        ∀ task, (analyser.tasks task).description.appId =
          history.appId task) :
      (history.awaitApplication analyser appId semaphore).liveTasks otherApp =
        history.liveTasks otherApp := by
    refine liveTasks_congr ?_ ?_ ?_ otherApp
    · rfl
    · rfl
    · exact owner
  change kept ∈ analyser.released ∨
    (analyser.pendingSemaphore otherApp = some kept ∧ _)
  rcases serves with ⟨_, same⟩ | ⟨notZero, same⟩
  · rw [sameTasks same.owner, same.released, same.pending]
    rcases mem_append.mp isWait with earlier | isNew
    · rcases served otherApp before kept earlier with isReleased | stillLive
      · exact .inl (mem_append_left _ isReleased)
      · exact .inr stillLive
    · rw [mem_singleton, application.injEq] at isNew
      exact .inl (mem_append_right _
        (mem_singleton.mpr isNew.2.2))
  · rw [sameTasks same.owner, same.released, same.pending,
      pendingSemaphore_keepPending]
    rcases mem_append.mp isWait with earlier | isNew
    · by_cases isApp : otherApp = appId
      · exact .inl (free before kept (isApp ▸ earlier))
      · rw [if_neg isApp]
        exact served otherApp before kept earlier
    · rw [mem_singleton, application.injEq] at isNew
      obtain ⟨isApp, _, isSemaphore⟩ := isNew
      refine .inr ⟨by rw [if_pos isApp, isSemaphore], ?_⟩
      intro noneLive
      have counted := accounted.counted appId
      rw [← isApp, noneLive] at counted
      exact notZero (isApp ▸ counted)

theorem ApplicationsServed.next
    {history : AnalyserHistory}
    (served : history.ApplicationsServed)
    (accounted : history.Accounted)
    (enabled : history.Enabled action)
    (permitted : history.OneAtATime action) :
    (history.next action).ApplicationsServed := by
  cases action with
  | processTask taskId description =>
      have same :=
        sameAccounts_processTask history.analyser taskId
          description
      apply served.congr
      · exact fun _ _ _ isWait => isWait
      · intro semaphore isReleased
        exact same.released ▸ isReleased
      · exact same.pending
      · intro appId task isLive
        rw [accounted.liveTasks_processTask enabled]
        exact mem_append_left _ isLive
  | setStatus taskId newStatus executionCount =>
      apply served.congr
      · exact fun _ _ _ isWait => isWait
      · exact fun _ isReleased => isReleased
      · rfl
      · intro appId task isLive
        obtain ⟨submitted, owner, notEnded⟩ := mem_liveTasks.mp isLive
        refine mem_liveTasks.mpr ⟨submitted, ?_, notEnded⟩
        exact (history.appId_setStatus taskId newStatus executionCount
          task).trans owner
  | endTask taskId => exact served.endTask accounted enabled
  | findWaitedTask dataId mode semaphore =>
      obtain ⟨owner, pending, released⟩ :=
        history.analyser.findWaitedTask_keeps dataId mode semaphore
      apply served.congr
      · intro appId before kept isWait
        rcases mem_append.mp isWait with earlier | isNew
        · exact earlier
        · exact absurd (mem_singleton.mp isNew) (by simp)
      · exact released
      · exact pending
      · intro appId task isLive
        obtain ⟨submitted, isOwner, notEnded⟩ := mem_liveTasks.mp isLive
        exact mem_liveTasks.mpr
          ⟨submitted, (owner task).trans isOwner, notEnded⟩
  | barrier appId semaphore =>
      rcases history.analyser.barrier_serves appId semaphore with
        ⟨fails, _⟩ | serves
      · exact absurd fails permitted.2
      · exact served.awaitApplication accounted permitted.1 serves
  | noMoreTasks appId semaphore =>
      exact served.awaitApplication accounted permitted
        (history.analyser.noMoreTasks_serves appId semaphore)

variable
  {drawGraph : Bool}
  {actions : List AnalyserAction}

/-- What holds in every run, and what holds when requests do not overlap. -/
theorem accountedAndWaiting_of_run
    {history : AnalyserHistory}
    (run : Run (analyserSystem drawGraph) anyStep actions history) :
    history.Accounted ∧ history.Waiting := by
  induction run with
  | start => exact ⟨accounted_start drawGraph, waiting_start drawGraph⟩
  | snoc run enabled permitted hypothesis =>
      exact accountedAndWaiting_next hypothesis.1
        hypothesis.2 enabled

theorem applicationsServed_of_run
    {history : AnalyserHistory}
    (run : Run (analyserSystem drawGraph) OneAtATime actions history) :
    history.ApplicationsServed := by
  induction run with
  | start =>
      intro appId before semaphore isWait
      exact absurd isWait not_mem_nil
  | snoc run enabled permitted hypothesis =>
      have accounted :=
        (accountedAndWaiting_of_run (run.mono fun _ _ _ => trivial)).1
      exact hypothesis.next accounted enabled permitted

/-- The awaited writer, if there is one, has ended. -/
def WriterEnded (history : AnalyserHistory) (writer : Option TaskId) : Prop :=
  ∀ task, writer = some task → task ∈ history.ended

/-- All tasks of the application have ended. -/
def ApplicationEnded (history : AnalyserHistory) (appId : AppId) : Prop :=
  ∀ task, task ∈ history.submitted → history.appId task = appId →
    task ∈ history.ended

end AnalyserHistory

/--
Semaphores are released at most once and not before the wait is over.  Once the
awaited writer has ended, or all tasks of an application whose requests do not
overlap, they have been released.
-/
theorem semaphoresReleased_of_run
    {drawGraph : Bool}
    {actions : List AnalyserAction}
    {history : AnalyserHistory}
    (run : Run (analyserSystem drawGraph) anyStep actions history) :
    history.analyser.released.Nodup ∧
      (∀ wait, wait ∈ history.waits →
        wait.semaphore ∈ history.analyser.released → history.WaitOver wait) ∧
      (∀ writer semaphore, .task writer semaphore ∈ history.waits →
        history.WriterEnded writer →
          semaphore ∈ history.analyser.released) ∧
      (Run (analyserSystem drawGraph) AnalyserHistory.OneAtATime actions
          history →
        ∀ appId before semaphore,
          .application appId before semaphore ∈ history.waits →
            history.ApplicationEnded appId →
              semaphore ∈ history.analyser.released) := by
  obtain ⟨_, waiting⟩ := accountedAndWaiting_of_run run
  refine ⟨waiting.releasedOnce, ?_, ?_, ?_⟩
  · intro wait isWait isReleased
    obtain ⟨served, isServed, sameSemaphore, isOver⟩ :=
      waiting.released wait.semaphore isReleased
    exact waiting.unique isServed isWait sameSemaphore ▸ isOver
  · intro writer semaphore isWait writerEnded
    rcases waiting.served writer semaphore isWait with
      isReleased | ⟨task, isWriter, notEnded, _⟩
    · exact isReleased
    · exact absurd (writerEnded task isWriter) notEnded
  · intro oneAtATime appId before semaphore isWait allEnded
    rcases applicationsServed_of_run oneAtATime appId before
        semaphore isWait with isReleased | ⟨_, someLive⟩
    · exact isReleased
    · obtain ⟨task, isLive⟩ := exists_mem_of_ne_nil _ someLive
      obtain ⟨submitted, owner, notEnded⟩ :=
        mem_liveTasks.mp isLive
      exact absurd (allEnded task submitted owner) notEnded

def methodWithoutData : TaskDescription :=
  ⟨1, .METHOD, false, false, []⟩

/-- The application waits at a barrier while its only task ends. -/
def barrierThenEnd (status : TaskState) : List AnalyserAction :=
  [.processTask 1 methodWithoutData, .barrier 1 7, .setStatus 1 status 0,
    .endTask 1]

theorem semaphoresReleased_of_run_finished :
    let history := (analyserSystem false).after (barrierThenEnd .FINISHED)
    history.analyser.released.Nodup ∧ 7 ∈ history.analyser.released := by
  have run :
      Run (analyserSystem false) AnalyserHistory.OneAtATime
        (barrierThenEnd .FINISHED)
        ((analyserSystem false).after (barrierThenEnd .FINISHED)) := by
    apply run_of_executable
    refine ⟨⟨not_mem_nil, trivial⟩, ⟨?_, ?_, ?_⟩, ⟨?_, trivial⟩,
      ⟨?_, trivial⟩, trivial⟩
    · exact fun _ member => absurd member not_mem_nil
    · exact fun _ _ member => absurd member not_mem_nil
    · exact fun fails => absurd fails.1 (by decide)
    · exact ⟨mem_singleton_self 1, not_mem_nil⟩
    · exact ⟨mem_singleton_self 1, not_mem_nil, .inl rfl⟩
  obtain ⟨once, _, _, served⟩ :=
    semaphoresReleased_of_run (run.mono fun _ _ _ => trivial)
  refine ⟨once, served run 1 [1] 7 (by decide) ?_⟩
  intro task isSubmitted _
  exact isSubmitted

/-- A failed task releases nobody: the runtime reports an error and stops. -/
theorem not_released_failedTask :
    ¬ ∀ (actions : List AnalyserAction) (history : AnalyserHistory),
      Run (analyserSystem false) anyStep actions history →
        ∀ appId before semaphore,
          .application appId before semaphore ∈ history.waits →
            (∀ task, task ∈ history.submitted →
              history.appId task = appId → task ∈ history.notified) →
                semaphore ∈ history.analyser.released := by
  intro claimed
  have run :
      Run (analyserSystem false) anyStep (barrierThenEnd .FAILED)
        ((analyserSystem false).after (barrierThenEnd .FAILED)) := by
    apply run_of_executable
    refine ⟨⟨not_mem_nil, trivial⟩, ⟨?_, trivial⟩, ⟨?_, trivial⟩,
      ⟨?_, trivial⟩, trivial⟩
    · exact fun _ member => absurd member not_mem_nil
    · exact ⟨mem_singleton_self 1, not_mem_nil⟩
    · exact ⟨mem_singleton_self 1, not_mem_nil, .inr rfl⟩
  have released := claimed _ _ run 1 [1] 7 (by decide) (by decide)
  exact absurd released (by decide)

end DistributedRdf.Engine
