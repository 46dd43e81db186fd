import DistributedRdf.PlacementEffects
import DistributedRdf.TaskScheduler

namespace DistributedRdf.Scheduling

open Java Relation SchedulerEnv Outcome ActionSet

/-!
# Effects of the operations on single actions

What the operations of the scheduler do to the state of an action and to its
details, and what they leave alone.
-/

namespace SchedulerEnv

variable
  {env : SchedulerEnv}
  {action other : ActionId}

@[simp] theorem modifyAction_self (change : ActionDetails → ActionDetails) :
    (env.modifyAction action change).actions action =
      change (env.actions action) := by
  simp [modifyAction]

@[simp] theorem modifyAction_of_ne
    (different : other ≠ action)
    (change : ActionDetails → ActionDetails) :
    (env.modifyAction action change).actions other = env.actions other := by
  simp [modifyAction, different]

section KeepReserved

variable
  (reserved : Option MethodResourceDescription)
  (details : ActionDetails)

@[simp] theorem keepReserved_kind :
    (keepReserved reserved details).kind = details.kind := by
  unfold keepReserved
  split
  · rfl
  · rfl

@[simp] theorem keepReserved_assigned :
    (keepReserved reserved details).assigned = details.assigned := by
  unfold keepReserved
  split
  · rfl
  · rfl

@[simp] theorem keepReserved_executingResources :
    (keepReserved reserved details).executingResources =
      details.executingResources := by
  unfold keepReserved
  split
  · rfl
  · rfl

@[simp] theorem keepReserved_history :
    (keepReserved reserved details).history = details.history := by
  unfold keepReserved
  split
  · rfl
  · rfl

end KeepReserved

/-- Whether there is a score is up to the workers. -/
theorem NoneScored.congr
    {kind : SchedulerKind}
    {scores : Scores}
    {after : SchedulerEnv}
    {coreId : CoreId}
    {candidates : List WorkerId}
    (noneScored : env.NoneScored kind scores action coreId candidates)
    (workers : after.workers = env.workers) :
    after.NoneScored kind scores action coreId candidates := by
  intro worker member impl isImpl
  rw [workers] at isImpl
  have noScore := noneScored worker member impl isImpl
  cases kind with
  | base => simp [generateImplementationScore] at noScore
  | ready | fifoData =>
      simpa [generateImplementationScore, workers] using noScore

/-- Whether an action can be assigned does not depend on the collections. -/
theorem Unassignable.congr
    {kind : SchedulerKind}
    {scores : Scores}
    {after : SchedulerEnv}
    (unassignable : env.Unassignable kind scores action)
    (actions : after.actions = env.actions)
    (workers : after.workers = env.workers)
    (coreToWorkers : after.coreToWorkers = env.coreToWorkers) :
    after.Unassignable kind scores action := by
  rcases unassignable with
    ⟨coreId, candidates, ofCore, areCandidates, useful, noneScored⟩
  have noneScoredAfter := noneScored.congr workers
  cases env
  cases after
  dsimp only at actions workers coreToWorkers
  subst actions workers coreToWorkers
  exact ⟨coreId, candidates, ofCore, areCandidates, useful, noneScoredAfter⟩

/-- An operation on the collections that is about one action. -/
structure Filed (env : SchedulerEnv) (action : ActionId) (after : SchedulerEnv) :
    Prop where
  rest :
    after =
      { env with
        readyCounts := after.readyCounts
        blockedActions := after.blockedActions
        dependingActions := after.dependingActions
        unassignedReadyActions := after.unassignedReadyActions }
  counted : after.readyCounts.length = env.readyCounts.length
  blocked :
    ∀ other ∈ after.blockedActions.getAllActions,
      other = action ∨ other ∈ env.blockedActions.getAllActions
  unassigned :
    ∀ other ∈ after.unassignedReadyActions.getAllActions,
      other = action ∨ other ∈ env.unassignedReadyActions.getAllActions

namespace Filed

variable
  {after : SchedulerEnv}
  (filed : env.Filed action after)

include filed

theorem actions :
    after.actions = env.actions :=
  congrArg (·.actions) filed.rest

theorem workers :
    after.workers = env.workers :=
  congrArg (·.workers) filed.rest

theorem hosted :
    after.hosted = env.hosted :=
  congrArg (·.hosted) filed.rest

theorem waiting :
    after.waiting = env.waiting :=
  congrArg (·.waiting) filed.rest

theorem coreToWorkers :
    after.coreToWorkers = env.coreToWorkers :=
  congrArg (·.coreToWorkers) filed.rest

theorem unassignable
    {kind : SchedulerKind}
    {scores : Scores}
    {other : ActionId}
    (unassignable : after.Unassignable kind scores other) :
    env.Unassignable kind scores other :=
  unassignable.congr filed.actions.symm filed.workers.symm
    filed.coreToWorkers.symm

theorem coreCount :
    after.coreCount = env.coreCount :=
  congrArg (·.coreCount) filed.rest

end Filed

theorem filed_changeReadyCount (change : Int) :
    env.Filed action (env.changeReadyCount action change).state := by
  have unchanged : env.Filed action env :=
    ⟨rfl, rfl, fun _ => .inr, fun _ => .inr⟩
  unfold changeReadyCount
  split
  · split
    · exact ⟨rfl, List.length_modify _ _ _, fun _ => .inr, fun _ => .inr⟩
    · exact unchanged
  · exact unchanged
  · exact unchanged

/-- The count of the core of the action has changed. -/
structure Recounted
    (env : SchedulerEnv)
    (action : ActionId)
    (change : Int)
    (counts : List Int) : Prop where
  length : counts.length = env.readyCounts.length
  entry :
    ∀ coreId,
      counts[coreId]? =
        env.readyCounts[coreId]?.map fun count =>
          if env.firstImplementation action = .ofCore coreId then count + change
          else count

theorem changeReadyCount_returned
    {change : Int}
    {after : SchedulerEnv}
    (returned : env.changeReadyCount action change = .returned after ()) :
    ∃ counts, after = { env with readyCounts := counts } ∧
      env.Recounted action change counts := by
  have unchanged
      (notOfCore :
        ∀ coreId, env.firstImplementation action ≠ .ofCore coreId) :
      env.Recounted action change env.readyCounts :=
    ⟨rfl, fun coreId => by simp [notOfCore coreId]⟩
  unfold changeReadyCount at returned
  split at returned
  · rename_i core ofCore
    split at returned
    · cases returned
      refine ⟨_, rfl, List.length_modify _ _ _, fun coreId => ?_⟩
      rw [List.getElem?_modify, ofCore]
      simp only [FirstImplementation.ofCore.injEq]
      rfl
    · exact absurd returned (by simp)
  · rename_i isMissing
    cases returned
    exact ⟨_, rfl, unchanged fun coreId => by simp [isMissing]⟩
  · rename_i isNoCore
    cases returned
    exact ⟨_, rfl, unchanged fun coreId => by simp [isNoCore]⟩

theorem filed_addToBlocked :
    env.Filed action (env.addToBlocked action).state := by
  rw [addToBlocked, state_onState]
  exact ⟨rfl, rfl, fun _ => mem_addAction, fun _ => .inr⟩

theorem filed_addToDepending :
    env.Filed action (env.addToDepending action).state := by
  rw [addToDepending, state_onState]
  exact ⟨rfl, rfl, fun _ => .inr, fun _ => .inr⟩

theorem filed_addToUnassigned :
    env.Filed action (env.addToUnassigned action).state := by
  rw [addToUnassigned, state_onState]
  exact ⟨rfl, rfl, fun _ => .inr, fun _ => mem_addAction⟩

end SchedulerEnv

namespace World

variable
  {scores : Scores}
  {world : SchedulerWorld}
  {action other : ActionId}
  {assignment : Assignment}

/-! ## States of actions -/

variable (state : ActionState)

@[simp] theorem setState_state_self :
    ((world.setState action state).graph action).state = state := by
  simp [setState]

@[simp] theorem setState_of_ne (different : other ≠ action)
    (state : ActionState) :
    (world.setState action state).graph other = world.graph other := by
  simp [setState, different]

@[simp] theorem setState_dataPredecessors :
    ((world.setState action state).graph other).dataPredecessors =
      (world.graph other).dataPredecessors := by
  by_cases same : other = action
  · subst same
    simp [setState]
  · simp [same]

@[simp] theorem setState_dataSuccessors :
    ((world.setState action state).graph other).dataSuccessors =
      (world.graph other).dataSuccessors := by
  by_cases same : other = action
  · subst same
    simp [setState]
  · simp [same]

/-! ## Changes of an action that is placed -/

theorem assign_of_runnable
    (runnable : (world.graph action).state = .RUNNABLE)
    (assignment : Assignment) :
    world.assign action assignment =
      { world with
        env := world.env.modifyAction action fun details =>
          { details with assigned := some assignment } } := by
  rw [assign, if_pos runnable]

@[simp] theorem assign_graph (assignment : Assignment) :
    (world.assign action assignment).graph = world.graph := by
  unfold assign
  split
  · rfl
  · rfl

@[simp] theorem runOn_graph :
    (world.runOn action assignment).graph =
      (world.setState action .RUNNING).graph :=
  rfl

theorem runOn_actions_of_ne (different : other ≠ action) :
    (world.runOn action assignment).env.actions other =
      world.env.actions other := by
  simp [runOn, hostAction, reserveResources,
    modifyWorker, modifyAction, different, setState,
    modify]

/-- Running an action changes what is reserved for it and its history. -/
theorem runOn_actions_self :
    ∃ reserved,
      (world.runOn action assignment).env.actions action =
        { keepReserved reserved (world.env.actions action) with
          history :=
            (world.env.actions action).history ++
              [.started assignment.resource
                (world.env.getCompatibleWorkers action)] } := by
  refine ⟨((world.env.workers assignment.resource).runTask
    (world.env.requirements action assignment)).2, ?_⟩
  simp [runOn, hostAction, reserveResources,
    modifyWorker, modifyAction, setState, modify]

/-! ## Resumed actions -/

/-- What is preserved when a waiting action is resumed. -/
theorem resumeWithin_preserves
    {Holds : SchedulerWorld → Prop}
    {worker : WorkerId}
    (resumed :
      ∀ world firstBlocked rest assignment,
        world.env.waiting worker = firstBlocked :: rest →
          (world.env.actions firstBlocked).assigned = some assignment →
            world.env.areEnoughResources firstBlocked → Holds world →
              Holds
                ({ world with
                  env := world.env.removeFirstBlocked scores worker
                }.runOn firstBlocked assignment))
    (rounds : Nat)
    (holds : Holds world) :
    Holds (resumeWithin scores worker rounds world) := by
  induction rounds generalizing world with
  | zero => exact holds
  | succ rounds hypothesis =>
      rw [resumeWithin]
      split
      · exact holds
      · rename_i firstBlocked rest isWaiting
        split
        · rename_i enough
          cases assigned : (world.env.actions firstBlocked).assigned with
          | none =>
              rw [areEnoughResources, assigned] at enough
              exact absurd enough (by simp)
          | some assignment =>
              have run := resumed world firstBlocked rest assignment isWaiting
                assigned enough holds
              apply hypothesis
              have sameAssigned :
                  ((world.env.removeFirstBlocked scores worker).actions
                    firstBlocked).assigned = some assignment :=
                assigned
              rw [World.run, sameAssigned]
              exact run
        · exact holds

end World

end DistributedRdf.Scheduling
