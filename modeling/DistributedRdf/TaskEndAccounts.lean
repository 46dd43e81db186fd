import DistributedRdf.ExecutionEnds

namespace DistributedRdf.Engine

open Java Execution TaskEnds List EndInstruction Outcome

/-!
# How often a task ends

Once the count is zero, every notification that is handled ends the task.  How
many of them there are is settled by the step that has made the count zero.
-/

/-- The tasks keep their status and their count. -/
def KeepsExecutions (analyser other : TaskAnalyser) : Prop :=
  ∀ taskId,
    (other.tasks taskId).status = (analyser.tasks taskId).status ∧
      (other.tasks taskId).executionCount =
        (analyser.tasks taskId).executionCount

namespace KeepsExecutions

theorem refl (analyser : TaskAnalyser) : KeepsExecutions analyser analyser :=
  fun _ => ⟨rfl, rfl⟩

theorem trans
    {first second third : TaskAnalyser}
    (before : KeepsExecutions first second)
    (after : KeepsExecutions second third) :
    KeepsExecutions first third :=
  fun taskId =>
    ⟨(after taskId).1.trans (before taskId).1,
      (after taskId).2.trans (before taskId).2⟩

theorem of_tasks_eq
    {analyser other : TaskAnalyser}
    (same : other.tasks = analyser.tasks) :
    KeepsExecutions analyser other :=
  fun _ => ⟨by rw [same], by rw [same]⟩

theorem setTask
    {analyser : TaskAnalyser}
    {taskId : TaskId}
    {task : Task}
    (status : task.status = (analyser.tasks taskId).status)
    (executionCount :
      task.executionCount = (analyser.tasks taskId).executionCount) :
    KeepsExecutions analyser (analyser.setTask taskId task) := by
  intro other
  by_cases same : other = taskId
  · subst same
    simp [TaskAnalyser.setTask, status, executionCount]
  · simp [TaskAnalyser.setTask, same]

end KeepsExecutions

namespace TaskAnalyser

variable (analyser : TaskAnalyser)

theorem finishAccesses_tasks
    (taskId : TaskId)
    (paramIdx : Nat)
    (parameters : List Parameter) :
    (analyser.finishAccesses taskId paramIdx parameters).state.tasks =
      analyser.tasks := by
  induction parameters generalizing analyser paramIdx with
  | nil => rfl
  | cons parameter rest hypothesis =>
      have finished := hypothesis analyser (paramIdx + 1)
      cases parameter with
      | basic => exact finished
      | file | object | psco | externalPsco =>
          rw [finishAccesses]
          · cases (analyser.tasks taskId).accesses paramIdx with
            | none => rfl
            | some access =>
                dsimp only
                have kept :=
                  @andThen_preserves TaskAnalyser Unit Unit
                    (·.tasks = analyser.tasks)
                apply kept
                · rw [state_onState]
                · intro state value same
                  exact (hypothesis state (paramIdx + 1)).trans same
          · exact Parameter.noConfusion

theorem checkResultFileTransfer_tasks
    (taskId : TaskId) :
    (analyser.checkResultFileTransfer taskId).tasks = analyser.tasks := by
  unfold checkResultFileTransfer
  generalize analyser.resultFiles taskId = dataIds
  induction dataIds generalizing analyser with
  | nil => rfl
  | cons dataId rest hypothesis => exact hypothesis _

theorem releaseApplication_tasks
    (appId : AppId) :
    (analyser.releaseApplication appId).tasks = analyser.tasks := by
  simp only [releaseApplication]
  split <;> rfl

section EndTask

variable
  {Holds : TaskAnalyser → Prop}
  {taskId : TaskId}
  (sameTasks :
    ∀ before after : TaskAnalyser, after.tasks = before.tasks → Holds before →
      Holds after)
  (released :
    ∀ (before : TaskAnalyser) successor, Holds before →
      Holds
        (before.setTask successor
          { before.tasks successor with
            predecessors := (before.tasks successor).predecessors.erase taskId }))
  (cleared :
    ∀ before : TaskAnalyser, Holds before →
      Holds (before.setTask taskId { before.tasks taskId with successors := [] }))

include released cleared

variable {analyser}

theorem releaseDataDependents_preserves
    (holds : Holds analyser) :
    Holds (analyser.releaseDataDependents taskId) := by
  have releasedEach
      (successors : List TaskId)
      (analyser : TaskAnalyser)
      (holds : Holds analyser) :
      Holds
        (successors.foldl
          (fun analyser successor =>
            let task := analyser.tasks successor
            analyser.setTask successor
              { task with predecessors := task.predecessors.erase taskId })
          analyser) := by
    induction successors generalizing analyser with
    | nil => exact holds
    | cons successor rest hypothesis =>
        exact hypothesis _ (released analyser successor holds)
  exact cleared _ (releasedEach _ analyser holds)

include sameTasks

variable (holds : Holds analyser)

include holds

theorem closeTask_preserves :
    Holds (analyser.closeTask taskId).state := by
  unfold closeTask
  apply andThen_preserves
  · exact sameTasks _ _ (finishAccesses_tasks analyser taskId 0 _) holds
  · intro state value holdsState
    apply releaseDataDependents_preserves released cleared
    split
    · exact sameTasks _ _ (checkResultFileTransfer_tasks state taskId) holdsState
    · exact holdsState

/-- Ending a task changes task objects only where it releases successors. -/
theorem endTask_preserves :
    Holds (analyser.endTask taskId).state := by
  simp only [endTask]
  split
  · exact holds
  · split
    · exact sameTasks analyser _ rfl holds
    · split
      · exact holds
      · apply closeTask_preserves sameTasks released cleared
        refine sameTasks analyser _ ?_ holds
        split
        · exact releaseApplication_tasks _ _
        · rfl

end EndTask

/-- Ending a task changes no status and no count. -/
theorem keepsExecutions_endTask
    (taskId : TaskId) :
    KeepsExecutions analyser (analyser.endTask taskId).state := by
  apply endTask_preserves
  · exact fun before after same kept => kept.trans (.of_tasks_eq same)
  · exact fun before successor kept => kept.trans (.setTask rfl rfl)
  · exact fun before kept => kept.trans (.setTask rfl rfl)
  · exact .refl analyser

end TaskAnalyser

section Instructions

variable
  (role : ExecutionRole)
  (isFailed : Bool)

theorem count_doEnd :
    (role.doEnd isFailed).count .decreaseExecutionCount = 1 := by
  cases role <;> cases isFailed <;> rfl

/-- An execution ends with the count or with the notification. -/
theorem getLast?_doEnd (status : TaskState) :
    (role.doEnd isFailed).getLast? ≠ some (.setStatus status) := by
  cases role <;> cases isFailed <;> simp [ExecutionRole.doEnd,
    ExecutionRole.doCompleted, ExecutionRole.doFailed]

end Instructions

namespace TaskEnds

variable
  {taskId : TaskId}
  {state : TaskEnds}
  {instruction : EndInstruction}
  {rest : List EndInstruction}

theorem dispatch_cons
    (isNext : state.ending = instruction :: rest) :
    state.dispatch taskId =
      { state with
        analyser :=
          state.analyser.setTask taskId
            (instruction.perform (state.analyser.tasks taskId))
        ending := rest
        notifications :=
          state.notifications +
            if instruction = .notifyTaskEnd then 1 else 0 } := by
  rw [dispatch, isNext]

theorem executionCount_dispatch
    (taskId : TaskId)
    (isNext : state.ending = instruction :: rest) :
    (state.dispatch taskId).executionCount taskId =
      state.executionCount taskId -
        if instruction = .decreaseExecutionCount then 1 else 0 := by
  rw [dispatch_cons isNext]
  cases instruction <;>
    simp [executionCount, TaskAnalyser.setTask, perform]

/-- What the status will be does not change. -/
theorem finalStatus_dispatch
    (isNext : state.ending = instruction :: rest) :
    finalStatus ((state.dispatch taskId).status taskId) rest =
      finalStatus (state.status taskId) state.ending := by
  rw [dispatch_cons isNext, isNext]
  cases instruction <;>
    simp [status, TaskAnalyser.setTask, perform,
      finalStatus, statusAfter]

theorem keepsExecutions_endTask (taskId : TaskId) (state : TaskEnds) :
    KeepsExecutions state.analyser (state.endTask taskId).analyser := by
  unfold TaskEnds.endTask
  split
  · exact state.analyser.keepsExecutions_endTask taskId
  · exact .refl state.analyser

/-- The count is that of the executions that have not been counted. -/
structure Counted (taskId : TaskId) (state : TaskEnds) : Prop where
  count :
    state.executionCount taskId =
      state.executions.length + state.ending.count .decreaseExecutionCount
  effective : ∀ status, state.ending.getLast? ≠ some (.setStatus status)

/-- When the count is zero, only the notification of the last one is left. -/
theorem Counted.ended
    (counted : state.Counted taskId)
    (isFree : state.executionCount taskId = 0)
    (notified : .notifyTaskEnd ∉ state.ending) :
    state.executions = [] ∧ state.ending = [] := by
  have count := counted.count
  rw [isFree] at count
  have noExecutions : state.executions.length = 0 := by omega
  have notCounting : state.ending.count .decreaseExecutionCount = 0 := by omega
  refine ⟨length_eq_zero_iff.mp noExecutions, ?_⟩
  by_contra someLeft
  have isLast := getLast?_eq_some_getLast someLeft
  have isMember := getLast_mem someLeft
  cases last : state.ending.getLast someLeft with
  | decreaseExecutionCount =>
      rw [last] at isMember
      exact absurd isMember (count_eq_zero.mp notCounting)
  | setStatus status =>
      rw [last] at isLast
      exact counted.effective status isLast
  | notifyTaskEnd =>
      rw [last] at isMember
      exact notified isMember

theorem counted_start
    (analyser : TaskAnalyser)
    (numNodes : Nat)
    (workers : List Bool) :
    (start taskId analyser numNodes workers).Counted taskId where
  count := by
    simp [start, executionCount, TaskAnalyser.setTask,
      length_replicatedExecutions]
  effective := fun _ => nofun

theorem Counted.next
    {step : TaskEndStep}
    (counted : state.Counted taskId)
    (enabled : step.Enabled taskId state) :
    (step.next taskId state).Counted taskId := by
  cases step with
  | endExecution role isFailed =>
      rcases enabled with ⟨isIdle, isMember⟩
      have count := counted.count
      rw [isIdle, count_nil] at count
      have positive := length_pos_of_mem isMember
      refine ⟨?_, getLast?_doEnd role isFailed⟩
      change state.executionCount taskId =
        (state.executions.erase role).length +
          (role.doEnd isFailed).count .decreaseExecutionCount
      rw [count, count_doEnd, length_erase_of_mem isMember]
      omega
  | dispatch =>
      obtain ⟨instruction, rest, isNext⟩ := exists_cons_of_ne_nil enabled
      have isRest : (state.dispatch taskId).ending = rest := by
        rw [dispatch_cons isNext]
      have sameExecutions :
          (state.dispatch taskId).executions = state.executions := by
        rw [dispatch_cons isNext]
      change (state.dispatch taskId).Counted taskId
      constructor
      case count =>
        rw [executionCount_dispatch taskId isNext, isRest, sameExecutions,
          counted.count, isNext, count_cons]
        simp only [beq_iff_eq]
        split <;> omega
      case effective =>
        rw [isRest]
        intro status isLast
        refine counted.effective status ?_
        rw [isNext, getLast?_cons, isLast]
        rfl
  | takeNotification => exact ⟨counted.count, counted.effective⟩
  | endTask =>
      have same := keepsExecutions_endTask taskId state
      have sameExecutions :
          (state.endTask taskId).executions = state.executions ∧
            (state.endTask taskId).ending = state.ending := by
        unfold TaskEnds.endTask
        split <;> exact ⟨rfl, rfl⟩
      change (state.endTask taskId).Counted taskId
      constructor
      case count =>
        rw [sameExecutions.1, sameExecutions.2]
        exact (same taskId).2.trans counted.count
      case effective =>
        rw [sameExecutions.2]
        exact counted.effective
  | otherRequest analyser =>
      exact ⟨enabled.2.trans counted.count, counted.effective⟩

variable (state)

/-- The notifications that can still end the task, and those that have. -/
def allEnds : Nat :=
  state.ends.length + (if state.isFree = some true then 1 else 0) +
    state.notifications + state.ending.count .notifyTaskEnd

variable (taskId)

/-- After the count has become zero -/
structure Freed
    (total : Nat)
    (final : TaskState) : Prop where
  isFree : state.executionCount taskId = 0
  allEnds : state.allEnds = total
  status : finalStatus (state.status taskId) state.ending = final
  ends : total = 1 → ∀ taskEnd ∈ state.ends, taskEnd = ⟨final, 0⟩

/-- Whether the steps so far were permitted decides how often the task ends. -/
inductive Account
    (permitted : Prop) : Prop where
  | counting
      (isCounting : 0 < state.executionCount taskId)
      (ends : state.ends = [])
      (notFree : state.isFree ≠ some true)
      (isPermitted : permitted)
  | freed
      (total : Nat)
      (final : TaskState)
      (freed : state.Freed taskId total final)
      (permitted_iff :
        permitted ↔
          total = 1 ∧ (final = .FAILED ↔ state.anyFailed = true))

variable
  {taskId}
  {state}

theorem Account.congr
    {permitted other : Prop}
    (account : state.Account taskId permitted)
    (same : other ↔ permitted) :
    state.Account taskId other := by
  rwa [propext same]

section Steps

variable
  {total : Nat}
  {final : TaskState}
  {permitted : Prop}

section

variable (freed : state.Freed taskId total final)

include freed

/-- The dispatcher has already counted what it still does. -/
theorem Freed.dispatch
    (counted : state.Counted taskId)
    {instruction : EndInstruction}
    {rest : List EndInstruction}
    (isNext : state.ending = instruction :: rest) :
    (state.dispatch taskId).Freed taskId total final := by
  have count := counted.count
  rw [freed.isFree, isNext, count_cons] at count
  have notCounting : instruction ≠ .decreaseExecutionCount := by
    rintro rfl
    simp only [beq_self_eq_true, if_true] at count
    omega
  constructor
  case isFree =>
    rw [executionCount_dispatch taskId isNext, if_neg notCounting, freed.isFree]
    rfl
  case allEnds =>
    rw [← freed.allEnds, dispatch_cons isNext, TaskEnds.allEnds,
      TaskEnds.allEnds, isNext, count_cons]
    simp only [beq_iff_eq]
    omega
  case status =>
    rw [← freed.status, ← finalStatus_dispatch isNext, dispatch_cons isNext]
  case ends =>
    rw [dispatch_cons isNext]
    exact freed.ends

theorem Freed.takeNotification
    (isPending : 0 < state.notifications)
    (isIdle : state.isFree = none) :
    (TaskEndStep.takeNotification.next taskId state).Freed taskId total
      final where
  isFree := freed.isFree
  allEnds := by
    have all := freed.allEnds
    rw [TaskEnds.allEnds, isIdle, if_neg (by simp)] at all
    simp only [TaskEndStep.next, TaskEnds.allEnds, freed.isFree, decide_true,
      if_true]
    omega
  status := freed.status
  ends := freed.ends

theorem Freed.endTask
    (counted : state.Counted taskId) :
    (state.endTask taskId).Freed taskId total final := by
  have kept := keepsExecutions_endTask taskId state taskId
  by_cases isFree : state.isFree = some true
  case neg =>
    have unchanged : state.endTask taskId = { state with isFree := none } := by
      unfold TaskEnds.endTask
      split
      · next read => exact absurd read isFree
      · rfl
    have all := freed.allEnds
    rw [TaskEnds.allEnds, if_neg isFree] at all
    rw [unchanged]
    have same : TaskEnds.allEnds { state with isFree := none } = total := by
      simpa [TaskEnds.allEnds] using all
    exact ⟨freed.isFree, same, freed.status, freed.ends⟩
  case pos =>
    have ended :
        state.endTask taskId =
          { state with
            analyser := (state.analyser.endTask taskId).state
            isFree := none
            ends :=
              state.ends ++ [⟨state.status taskId, state.unended⟩] } := by
      rw [TaskEnds.endTask, isFree]
    have all := freed.allEnds
    rw [TaskEnds.allEnds, if_pos isFree] at all
    rw [ended] at kept ⊢
    constructor
    case isFree => exact kept.2.trans freed.isFree
    case allEnds =>
      simp only [TaskEnds.allEnds, length_append, length_singleton]
      simp only [reduceCtorEq, if_false]
      omega
    case status =>
      exact (congrArg (finalStatus · state.ending) kept.1).trans freed.status
    case ends =>
      intro isOne taskEnd isEnd
      have notified : .notifyTaskEnd ∉ state.ending :=
        count_eq_zero.mp (by omega)
      have isNew : state.ends = [] := length_eq_zero_iff.mp (by omega)
      obtain ⟨noExecutions, isIdle⟩ := counted.ended freed.isFree notified
      have isFinal : state.status taskId = final := by
        rw [← freed.status, isIdle]
        rfl
      rw [isNew, nil_append, mem_singleton] at isEnd
      rw [isEnd, isFinal, unended, noExecutions, isIdle]
      rfl

end

/-- The dispatcher counts another execution, which may be the last one. -/
theorem Account.dispatch
    (account : state.Account taskId permitted)
    (counted : state.Counted taskId)
    (someLeft : state.ending ≠ []) :
    (state.dispatch taskId).Account taskId
      (permitted ∧ state.LastNotifies taskId .dispatch) := by
  obtain ⟨instruction, rest, isNext⟩ := exists_cons_of_ne_nil someLeft
  have sameFailed : (state.dispatch taskId).anyFailed = state.anyFailed := by
    rw [dispatch_cons isNext]
  have sameEnds : (state.dispatch taskId).ends = state.ends := by
    rw [dispatch_cons isNext]
  have sameFree : (state.dispatch taskId).isFree = state.isFree := by
    rw [dispatch_cons isNext]
  have count := executionCount_dispatch taskId isNext
  cases account with
  | freed total final freed permitted_iff =>
      have notLast :
          permitted ∧ state.LastNotifies taskId .dispatch ↔ permitted := by
        refine and_iff_left fun _ isOne => ?_
        rw [freed.isFree] at isOne
        exact absurd isOne (by decide)
      refine .freed total final (freed.dispatch counted isNext) ?_
      rw [notLast, sameFailed]
      exact permitted_iff
  | counting isCounting ends notFree isPermitted =>
      by_cases isLast :
          instruction = .decreaseExecutionCount ∧
            state.executionCount taskId = 1
      case neg =>
        have notLast : state.LastNotifies taskId .dispatch := by
          intro isHead isOne
          rw [isNext] at isHead
          exact absurd ⟨Option.some.inj isHead, isOne⟩ isLast
        refine .counting ?_ (sameEnds.trans ends) ?_ ⟨isPermitted, notLast⟩
        · rw [count]
          by_cases decreases : instruction = .decreaseExecutionCount
          · rw [if_pos decreases]
            have notOne : state.executionCount taskId ≠ 1 :=
              fun isOne => isLast ⟨decreases, isOne⟩
            omega
          · rw [if_neg decreases]
            omega
        · rw [sameFree]
          exact notFree
      case pos =>
        obtain ⟨rfl, isOne⟩ := isLast
        have total :
            (state.dispatch taskId).allEnds =
              state.notifications + state.ending.count .notifyTaskEnd := by
          rw [dispatch_cons isNext, TaskEnds.allEnds, if_neg notFree, ends, isNext]
          simp
        have final :
            finalStatus ((state.dispatch taskId).status taskId)
                (state.dispatch taskId).ending =
              finalStatus (state.status taskId) state.ending := by
          rw [← finalStatus_dispatch isNext]
          rw [dispatch_cons isNext]
        refine .freed _ _ ⟨?_, total, final, ?_⟩ ?_
        · rw [count, isOne]
          rfl
        · rw [sameEnds, ends]
          exact fun _ => forall_mem_nil _
        · rw [sameFailed, and_iff_right isPermitted]
          constructor
          · exact fun lastNotifies => lastNotifies (by rw [isNext]; rfl) isOne
          · exact fun holds _ _ => holds

theorem Account.next
    {step : TaskEndStep}
    (account : state.Account taskId permitted)
    (counted : state.Counted taskId)
    (enabled : step.Enabled taskId state) :
    (step.next taskId state).Account taskId
      (permitted ∧ state.LastNotifies taskId step) := by
  cases step with
  | dispatch => exact account.dispatch counted enabled
  | endExecution role isFailed =>
      refine Account.congr ?_ (and_iff_left trivial)
      cases account with
      | counting isCounting ends notFree isPermitted =>
          exact .counting isCounting ends notFree isPermitted
      | freed total final freed permitted_iff =>
          have count := counted.count
          have positive := length_pos_of_mem enabled.2
          rw [freed.isFree] at count
          omega
  | takeNotification =>
      refine Account.congr ?_ (and_iff_left trivial)
      cases account with
      | counting isCounting ends notFree isPermitted =>
          refine .counting isCounting ends ?_ isPermitted
          have notZero : state.executionCount taskId ≠ 0 := by omega
          simpa [TaskEndStep.next] using notZero
      | freed total final freed permitted_iff =>
          exact .freed total final
            (freed.takeNotification enabled.1 enabled.2) permitted_iff
  | endTask =>
      refine Account.congr ?_ (and_iff_left trivial)
      cases account with
      | counting isCounting ends notFree isPermitted =>
          have unchanged :
              state.endTask taskId = { state with isFree := none } := by
            unfold TaskEnds.endTask
            split
            · next read => exact absurd read notFree
            · rfl
          change (state.endTask taskId).Account taskId permitted
          rw [unchanged]
          exact .counting isCounting ends (by simp) isPermitted
      | freed total final freed permitted_iff =>
          refine .freed total final (freed.endTask counted) ?_
          have sameFailed :
              (state.endTask taskId).anyFailed = state.anyFailed := by
            unfold TaskEnds.endTask
            split <;> rfl
          change permitted ↔
            total = 1 ∧
              (final = .FAILED ↔ (state.endTask taskId).anyFailed = true)
          rw [sameFailed]
          exact permitted_iff
  | otherRequest analyser =>
      refine Account.congr ?_ (and_iff_left trivial)
      cases account with
      | counting isCounting ends notFree isPermitted =>
          have isCounting : 0 < (analyser.tasks taskId).executionCount := by
            rw [enabled.2]
            exact isCounting
          exact .counting isCounting ends notFree isPermitted
      | freed total final freed permitted_iff =>
          refine .freed total final
            ⟨enabled.2.trans freed.isFree, freed.allEnds, ?_, freed.ends⟩
            permitted_iff
          exact (congrArg (finalStatus · state.ending) enabled.1).trans
            freed.status

end Steps

section Runs

variable
  {analyser : TaskAnalyser}
  {numNodes : Nat}
  {workers : List Bool}
  {steps : List TaskEndStep}

/-- The steps of runs in which the last execution is the one that notifies -/
abbrev LastNotifiesIn (taskId : TaskId) : TaskEnds → TaskEndStep → Prop :=
  fun state step => state.LastNotifies taskId step

/-- Until an execution ends, nothing but the count tells how many there are. -/
theorem account_start :
    (start taskId analyser numNodes workers).Account taskId
      (0 < workers.length * numNodes) := by
  have count :
      (start taskId analyser numNodes workers).executionCount taskId =
        workers.length * numNodes := by
    simp [start, executionCount, TaskAnalyser.setTask]
  by_cases someExecution : 0 < workers.length * numNodes
  · refine .counting ?_ rfl (by simp [start]) someExecution
    rw [count]
    exact_mod_cast someExecution
  · refine .freed 0 .TO_EXECUTE ⟨?_, rfl, ?_, fun _ => forall_mem_nil _⟩ ?_
    · rw [count]
      exact_mod_cast Nat.eq_zero_of_not_pos someExecution
    · simp [start, status, TaskAnalyser.setTask, finalStatus]
    · simp [someExecution]

theorem account_of_run
    (run :
      Run (taskEndSystem taskId analyser numNodes workers) anyStep steps
        state) :
    state.Counted taskId ∧
      state.Account taskId
        (0 < workers.length * numNodes ∧
          Run (taskEndSystem taskId analyser numNodes workers)
            (LastNotifiesIn taskId) steps state) := by
  induction run with
  | start =>
      refine ⟨counted_start analyser numNodes workers, ?_⟩
      exact account_start.congr (and_iff_left .start)
  | snoc run enabled _ hypothesis =>
      rcases hypothesis with ⟨counted, account⟩
      refine ⟨counted.next enabled, ?_⟩
      refine (account.next counted enabled).congr ?_
      rw [run.snoc_iff enabled, and_assoc]

end Runs

/-- The first notification is handled before the second execution ends. -/
def handledBetween : List TaskEndStep :=
  [.endExecution .master false, .dispatch, .dispatch, .dispatch,
    .takeNotification, .endTask, .endExecution .master true, .dispatch,
    .dispatch, .dispatch, .takeNotification, .endTask]

/-- Both executions end before the access processor handles a notification. -/
def bothEnded : List TaskEndStep :=
  [.endExecution .master true, .dispatch, .dispatch, .dispatch,
    .endExecution .master false, .dispatch, .dispatch, .dispatch,
    .takeNotification, .endTask, .takeNotification, .endTask]

end TaskEnds

end DistributedRdf.Engine
