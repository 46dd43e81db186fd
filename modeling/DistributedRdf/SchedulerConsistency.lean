import DistributedRdf.SchedulerEffects

namespace DistributedRdf.Scheduling

open Java Relation SchedulerEnv Function List Option

/-!
# Consistency of the scheduler

What holds of the actions, their dependencies and the queues of the workers in
every state that the dispatcher reaches, whatever is asked of it.
-/

/-- What `releaseResources` gives back has been reserved. -/
def ActionDetails.HoldsReservation (details : ActionDetails) : Prop :=
  match details.kind with
  | .execution _ _ _ => details.resourceConsumption.isSome
  | .startWorker _ => True

theorem consumption_isSome
    {env : SchedulerEnv}
    {action : ActionId}
    (holds : (env.actions action).HoldsReservation)
    (worker : WorkerId) :
    (env.consumption action worker).isSome := by
  unfold ActionDetails.HoldsReservation at holds
  unfold consumption
  split
  · rename_i ofKind
    rwa [ofKind] at holds
  · rfl

namespace World

variable
  {kind : SchedulerKind}
  {scores : Scores}
  {world : SchedulerWorld}
  {action : ActionId}
  {assignment : Assignment}

/-- A queue holds each action of a state once, on the worker it is assigned to. -/
def QueuedIn
    (world : SchedulerWorld)
    (queue : WorkerId → List ActionId)
    (state : ActionState) : Prop :=
  ∀ worker action,
    (queue worker).count action =
      if (world.graph action).state = state ∧
        world.env.assignedResource action = some worker then 1 else 0

structure Consistent (world : SchedulerWorld) : Prop where
  mirrored :
    ∀ action successor, Successor world.graph action successor →
      action ∈ (world.graph successor).dataPredecessors.items
  successorsOnce : ∀ action, (world.graph action).dataSuccessors.items.Nodup
  unknown : ∀ action, world.nextId ≤ action → world.graph action = .new
  hosted : QueuedIn world world.env.hosted .RUNNING
  waiting : QueuedIn world world.env.waiting .WAITING
  dependent :
    ∀ action, (world.graph action).dataPredecessors.items ≠ [] →
      (world.graph action).state = .RUNNABLE ∨
        (world.graph action).state = .FAILED
  assigned :
    ∀ action, (world.graph action).state = .RUNNING ∨
        (world.graph action).state = .WAITING →
      (world.env.actions action).assigned.isSome
  reserved :
    ∀ action, (world.graph action).state = .RUNNING →
      (world.env.actions action).HoldsReservation
  cores :
    ∀ action < world.nextId, ∀ coreId,
      world.env.firstImplementation action = .ofCore coreId →
        coreId < world.env.coreCount
  counted : world.env.readyCounts.length = world.env.coreCount
  blockedKnown :
    ∀ action ∈ world.env.blockedActions.getAllActions, action < world.nextId
  unassignedKnown :
    ∀ action ∈ world.env.unassignedReadyActions.getAllActions,
      action < world.nextId

/-- The part of the details that consistency is about. -/
structure SameDetails (before after : ActionDetails) : Prop where
  kind : after.kind = before.kind
  assigned : after.assigned = before.assigned
  resourceConsumption : after.resourceConsumption = before.resourceConsumption

theorem SameDetails.refl (details : ActionDetails) :
    SameDetails details details :=
  ⟨rfl, rfl, rfl⟩

theorem SameDetails.holdsReservation
    {before after : ActionDetails}
    (same : SameDetails before after)
    (holds : before.HoldsReservation) :
    after.HoldsReservation := by
  unfold ActionDetails.HoldsReservation at holds ⊢
  rw [same.kind, same.resourceConsumption]
  exact holds

variable {env env' : SchedulerEnv}

theorem firstImplementation_of_kind
    (sameKind : (env'.actions action).kind = (env.actions action).kind) :
    env'.firstImplementation action = env.firstImplementation action := by
  simp only [firstImplementation, sameKind]

theorem assignedResource_of_assigned
    (same : (env'.actions action).assigned = (env.actions action).assigned) :
    env'.assignedResource action = env.assignedResource action := by
  simp only [assignedResource, same]

namespace Consistent

variable (consistent : Consistent world)

include consistent

/-- An environment in which the actions and the queues are the same. -/
theorem withEnv
    (details :
      ∀ action, SameDetails (world.env.actions action) (env.actions action))
    (hosted : env.hosted = world.env.hosted)
    (waiting : env.waiting = world.env.waiting)
    (coreCount : world.env.coreCount ≤ env.coreCount)
    (counted : env.readyCounts.length = env.coreCount)
    (blockedKnown :
      ∀ action ∈ env.blockedActions.getAllActions, action < world.nextId)
    (unassignedKnown :
      ∀ action ∈ env.unassignedReadyActions.getAllActions,
        action < world.nextId) :
    Consistent { world with env := env } where
  mirrored := consistent.mirrored
  successorsOnce := consistent.successorsOnce
  unknown := consistent.unknown
  hosted := by
    intro worker action
    simp only [hosted,
      assignedResource_of_assigned (details action).assigned]
    exact consistent.hosted worker action
  waiting := by
    intro worker action
    simp only [waiting,
      assignedResource_of_assigned (details action).assigned]
    exact consistent.waiting worker action
  dependent := consistent.dependent
  assigned := by
    intro action queued
    simp only [(details action).assigned]
    exact consistent.assigned action queued
  reserved := by
    intro action running
    exact (details action).holdsReservation (consistent.reserved action running)
  cores := by
    intro action known coreId ofCore
    rw [firstImplementation_of_kind (details action).kind] at ofCore
    exact (consistent.cores action known coreId ofCore).trans_le coreCount
  counted := counted
  blockedKnown := blockedKnown
  unassignedKnown := unassignedKnown

/-- Dependencies that are the only thing to change. -/
theorem withGraph
    {after : SchedulerWorld}
    (nextId : after.nextId = world.nextId)
    (env : after.env = world.env)
    (state :
      ∀ action, (after.graph action).state = (world.graph action).state)
    (mirrored :
      ∀ action successor, Successor after.graph action successor →
        action ∈ (after.graph successor).dataPredecessors.items)
    (successorsOnce :
      ∀ action, (after.graph action).dataSuccessors.items.Nodup)
    (unknown : ∀ action, world.nextId ≤ action → after.graph action = .new)
    (dependent :
      ∀ action, (after.graph action).dataPredecessors.items ≠ [] →
        (world.graph action).state = .RUNNABLE ∨
          (world.graph action).state = .FAILED) :
    Consistent after where
  mirrored := mirrored
  successorsOnce := successorsOnce
  unknown := by
    rw [nextId]
    exact unknown
  hosted := by
    intro worker action
    rw [state action, env]
    exact consistent.hosted worker action
  waiting := by
    intro worker action
    rw [state action, env]
    exact consistent.waiting worker action
  dependent := by
    intro action depends
    rw [state action]
    exact dependent action depends
  assigned := by
    intro action queued
    rw [state action] at queued
    rw [env]
    exact consistent.assigned action queued
  reserved := by
    intro action running
    rw [state action] at running
    rw [env]
    exact consistent.reserved action running
  cores := by
    rw [nextId, env]
    exact consistent.cores
  counted := by
    rw [env]
    exact consistent.counted
  blockedKnown := by
    rw [nextId, env]
    exact consistent.blockedKnown
  unassignedKnown := by
    rw [nextId, env]
    exact consistent.unassignedKnown

theorem not_running_of_dependent
    (depends : (world.graph action).dataPredecessors.items ≠ []) :
    (world.graph action).state ≠ .RUNNING ∧
      (world.graph action).state ≠ .WAITING ∧
        (world.graph action).state ≠ .FINISHED := by
  rcases consistent.dependent action depends with runnable | failed
  · simp [runnable]
  · simp [failed]

theorem free_of_running
    (running : (world.graph action).state = .RUNNING) :
    (world.graph action).dataPredecessors.items = [] := by
  by_contra depends
  exact (consistent.not_running_of_dependent depends).1 running

theorem free_of_waiting
    (isWaiting : (world.graph action).state = .WAITING) :
    (world.graph action).dataPredecessors.items = [] := by
  by_contra depends
  exact (consistent.not_running_of_dependent depends).2.1 isWaiting

/-- Actions that have got beyond being new are known. -/
theorem known_of_state
    (notRunnable : (world.graph action).state ≠ .RUNNABLE) :
    action < world.nextId := by
  by_contra unknown
  rw [consistent.unknown action (Nat.le_of_not_lt unknown)] at notRunnable
  exact notRunnable rfl

theorem known_of_dependent
    (depends : (world.graph action).dataPredecessors.items ≠ []) :
    action < world.nextId := by
  by_contra unknown
  rw [consistent.unknown action (Nat.le_of_not_lt unknown)] at depends
  exact depends rfl

theorem of_mem_waiting
    {worker : WorkerId}
    (isWaiting : action ∈ world.env.waiting worker) :
    (world.graph action).state = .WAITING ∧
      world.env.assignedResource action = some worker := by
  have positive := count_pos_iff.mpr isWaiting
  rw [consistent.waiting worker action] at positive
  by_contra notWaiting
  simp [notWaiting] at positive

theorem assigned_of_running
    (running : (world.graph action).state = .RUNNING) :
    ∃ assignment, (world.env.actions action).assigned = some assignment :=
  isSome_iff_exists.mp (consistent.assigned action (.inl running))

end Consistent

/-! ## Starting and waiting -/

theorem assignedResource_eq
    (assigned : (world.env.actions action).assigned = some assignment) :
    world.env.assignedResource action = some assignment.resource := by
  simp only [assignedResource, assigned, map_some]

theorem runOn_assigned (world : SchedulerWorld) (action other : ActionId)
    (assignment : Assignment) :
    ((world.runOn action assignment).env.actions other).assigned =
      (world.env.actions other).assigned := by
  by_cases same : other = action
  · subst same
    rcases @runOn_actions_self world other assignment with ⟨reserved, details⟩
    rw [details]
    exact keepReserved_assigned _ _
  · rw [runOn_actions_of_ne same]

theorem runOn_kind (world : SchedulerWorld) (action other : ActionId)
    (assignment : Assignment) :
    ((world.runOn action assignment).env.actions other).kind =
      (world.env.actions other).kind := by
  by_cases same : other = action
  · subst same
    rcases @runOn_actions_self world other assignment with ⟨reserved, details⟩
    rw [details]
    exact keepReserved_kind _ _
  · rw [runOn_actions_of_ne same]

/-- What can be run is reserved when it runs. -/
theorem runOn_reserved
    (assigned : (world.env.actions action).assigned = some assignment)
    (enough : world.env.areEnoughResources action) :
    ((world.runOn action assignment).env.actions action).HoldsReservation := by
  rw [SchedulerEnv.areEnoughResources, assigned] at enough
  rcases Worker.runTask_spec enough with ⟨after, reserved, run, _⟩
  have details :
      (world.runOn action assignment).env.actions action =
        { keepReserved (some reserved) (world.env.actions action) with
          history :=
            (world.env.actions action).history ++
              [.started assignment.resource
                (world.env.getCompatibleWorkers action)] } := by
    have kept :
        ((world.env.workers assignment.resource).runTask
          (world.env.requirements action assignment)).2 = some reserved := by
      rw [run]
    rw [← kept]
    simp [runOn, hostAction, reserveResources,
      modifyWorker, SchedulerEnv.modifyAction, setState, modify]
  rw [details]
  unfold ActionDetails.HoldsReservation keepReserved
  cases ofKind : (world.env.actions action).kind with
  | execution coreId forcedResource constrainingPredecessors => simp
  | startWorker worker => simp [ofKind]

namespace Consistent

/--
An action that waits for no data gets into another state, and into the queue of
that state on the worker that it is assigned to.
-/
theorem moved
    (consistent : Consistent world)
    (known : action < world.nextId)
    (free : (world.graph action).dataPredecessors.items = [])
    (isAssigned : (world.env.actions action).assigned = some assignment)
    {after : SchedulerWorld}
    {state : ActionState}
    (graph : after.graph = (world.setState action state).graph)
    (nextId : after.nextId = world.nextId)
    (env :
      after.env =
        { world.env with
          workers := after.env.workers
          actions := after.env.actions
          hosted := after.env.hosted
          waiting := after.env.waiting })
    (kind :
      ∀ other,
        (after.env.actions other).kind = (world.env.actions other).kind)
    (assigned :
      ∀ other,
        (after.env.actions other).assigned =
          (world.env.actions other).assigned)
    (details :
      ∀ other, other ≠ action →
        after.env.actions other = world.env.actions other)
    (reserved :
      state = .RUNNING → (after.env.actions action).HoldsReservation)
    (hosted :
      ∀ worker other,
        (after.env.hosted worker).count other =
          if other = action then
            if state = .RUNNING ∧ assignment.resource = worker then 1 else 0
          else (world.env.hosted worker).count other)
    (waiting :
      ∀ worker other,
        (after.env.waiting worker).count other =
          if other = action then
            if state = .WAITING ∧ assignment.resource = worker then 1 else 0
          else (world.env.waiting worker).count other) :
    Consistent after := by
  have stateOf (other : ActionId) (different : other ≠ action) :
      (after.graph other).state = (world.graph other).state := by
    rw [graph, setState_of_ne different]
  have stateIs : (after.graph action).state = state := by
    rw [graph, setState_state_self]
  have queued
      {before queue : WorkerId → List ActionId}
      {queueState : ActionState}
      (ofState : QueuedIn world before queueState)
      (counts :
        ∀ worker other,
          (queue worker).count other =
            if other = action then
              if state = queueState ∧ assignment.resource = worker then 1 else 0
            else (before worker).count other) :
      QueuedIn after queue queueState := by
    intro worker other
    rw [counts, assignedResource_of_assigned (assigned other)]
    by_cases same : other = action
    · subst same
      rw [if_pos rfl, stateIs, assignedResource_eq isAssigned]
      simp only [some.injEq]
    · rw [if_neg same, stateOf other same]
      exact ofState worker other
  constructor
  case mirrored =>
    intro predecessor successor isSuccessor
    rw [graph] at isSuccessor ⊢
    rw [Successor, setState_dataSuccessors] at isSuccessor
    rw [setState_dataPredecessors]
    exact consistent.mirrored predecessor successor isSuccessor
  case successorsOnce =>
    intro other
    rw [graph, setState_dataSuccessors]
    exact consistent.successorsOnce other
  case unknown =>
    intro other isUnknown
    rw [nextId] at isUnknown
    have different : other ≠ action := by
      rintro rfl
      exact absurd known (Nat.not_lt_of_le isUnknown)
    rw [graph, setState_of_ne different]
    exact consistent.unknown other isUnknown
  case hosted => exact queued consistent.hosted hosted
  case waiting => exact queued consistent.waiting waiting
  case dependent =>
    intro other depends
    rw [graph, setState_dataPredecessors] at depends
    have different : other ≠ action := by
      rintro rfl
      exact depends free
    rw [stateOf other different]
    exact consistent.dependent other depends
  case assigned =>
    intro other isQueued
    rw [assigned]
    by_cases same : other = action
    · rw [same, isAssigned]
      rfl
    · rw [stateOf other same] at isQueued
      exact consistent.assigned other isQueued
  case reserved =>
    intro other isRunning
    by_cases same : other = action
    · subst same
      exact reserved (stateIs.symm.trans isRunning)
    · rw [stateOf other same] at isRunning
      rw [details other same]
      exact consistent.reserved other isRunning
  case cores =>
    intro other isKnown coreId ofCore
    rw [firstImplementation_of_kind (kind other)] at ofCore
    rw [env]
    rw [nextId] at isKnown
    exact consistent.cores other isKnown coreId ofCore
  case counted =>
    rw [env]
    exact consistent.counted
  case blockedKnown =>
    rw [env, nextId]
    exact consistent.blockedKnown
  case unassignedKnown =>
    rw [env, nextId]
    exact consistent.unassignedKnown

/-- An action runs once it has left the queue that it may have waited in. -/
theorem runOn
    (consistent : Consistent world)
    (queued :
      (world.graph action).state = .RUNNABLE ∨
        (world.graph action).state = .WAITING)
    (free : (world.graph action).dataPredecessors.items = [])
    (known : action < world.nextId)
    (assigned : (world.env.actions action).assigned = some assignment)
    (enough : world.env.areEnoughResources action)
    {waiting : WorkerId → List ActionId}
    (removed :
      ∀ worker other,
        (waiting worker).count other =
          if other = action then 0
          else (world.env.waiting worker).count other) :
    Consistent
      ({ world with env := { world.env with waiting := waiting } }.runOn action
        assignment) := by
  have notRunning : (world.graph action).state ≠ .RUNNING := by
    rcases queued with runnable | isWaiting
    · simp [runnable]
    · simp [isWaiting]
  refine consistent.moved known free assigned runOn_graph rfl rfl
    (fun other => runOn_kind _ action other assignment)
    (fun other => runOn_assigned _ action other assignment)
    (fun _ different => runOn_actions_of_ne different)
    (fun _ => runOn_reserved assigned enough) ?_ ?_
  · intro worker other
    have before := consistent.hosted worker other
    change (update world.env.hosted assignment.resource
      (world.env.hosted assignment.resource ++ [action]) worker).count other = _
    by_cases here : worker = assignment.resource
    · subst here
      by_cases same : other = action
      · subst same
        simpa [notRunning] using before
      · simp [same, Ne.symm same]
    · by_cases same : other = action
      · subst same
        simpa [here, notRunning, Ne.symm here] using before
      · simp [here, same]
  · intro worker other
    change (waiting worker).count other = _
    simpa using removed worker other

/-- A queue that an action is added to, whatever the order. -/
theorem count_waitingOrder
    (scores : Scores)
    (worker : WorkerId)
    (actions : List ActionId)
    (other : ActionId) :
    (scores.waitingOrder worker actions).count other = actions.count other :=
  (scores.waitingOrder_perm worker actions).count_eq other

theorem waitOn
    (consistent : Consistent world)
    (launchable : world.Launchable action assignment)
    (known : action < world.nextId) :
    Consistent (world.waitOn scores action assignment.resource) := by
  have runnable := launchable.runnable
  refine consistent.moved known launchable.free launchable.assigned rfl rfl rfl
    (fun _ => rfl) (fun _ => rfl) (fun _ _ => rfl) nofun ?_ ?_
  · intro worker other
    have before := consistent.hosted worker other
    change (world.env.hosted worker).count other = _
    by_cases same : other = action
    · subst same
      simpa [runnable] using before
    · rw [if_neg same]
  · intro worker other
    have before := consistent.waiting worker other
    change (update world.env.waiting assignment.resource _
      worker).count other = _
    by_cases here : worker = assignment.resource
    · subst here
      rw [update_self, count_waitingOrder]
      by_cases same : other = action
      · subst same
        simpa [runnable] using before
      · simp [same, Ne.symm same]
    · rw [update_of_ne here]
      by_cases same : other = action
      · subst same
        simpa [runnable, Ne.symm here] using before
      · rw [if_neg same]

theorem assign
    (consistent : Consistent world)
    (runnable : (world.graph action).state = .RUNNABLE) :
    Consistent (world.assign action assignment) := by
  rw [assign_of_runnable runnable]
  have resource (other : ActionId) (different : other ≠ action) :
      (world.env.modifyAction action fun details =>
          { details with assigned := some assignment }).assignedResource other =
        world.env.assignedResource other := by
    simp only [assignedResource,
      modifyAction_of_ne different]
  have sameKind (other : ActionId) :
      ((world.env.modifyAction action fun details =>
          { details with assigned := some assignment }).actions other).kind =
        (world.env.actions other).kind := by
    by_cases same : other = action
    · subst same
      rw [modifyAction_self]
    · rw [modifyAction_of_ne same]
  have sameQueue
      {queue : WorkerId → List ActionId}
      {state : ActionState}
      (notRunnable : state ≠ .RUNNABLE)
      (queued : QueuedIn world queue state) :
      QueuedIn
        { world with
          env := world.env.modifyAction action fun details =>
            { details with assigned := some assignment } }
        queue state := by
    intro worker other
    have before := queued worker other
    by_cases same : other = action
    · subst same
      simpa [runnable, Ne.symm notRunnable] using before
    · rw [resource other same]
      exact before
  constructor
  case mirrored => exact consistent.mirrored
  case successorsOnce => exact consistent.successorsOnce
  case unknown => exact consistent.unknown
  case hosted => exact sameQueue (by simp) consistent.hosted
  case waiting => exact sameQueue (by simp) consistent.waiting
  case dependent => exact consistent.dependent
  case assigned =>
    intro other queued
    by_cases same : other = action
    · subst same
      simp
    · rw [modifyAction_of_ne same]
      exact consistent.assigned other queued
  case reserved =>
    intro other running
    by_cases same : other = action
    · subst same
      exact absurd (runnable.symm.trans running) (by simp)
    · rw [modifyAction_of_ne same]
      exact consistent.reserved other running
  case cores =>
    intro other known coreId ofCore
    rw [firstImplementation_of_kind (sameKind other)] at ofCore
    exact consistent.cores other known coreId ofCore
  case counted => exact consistent.counted
  case blockedKnown => exact consistent.blockedKnown
  case unassignedKnown => exact consistent.unassignedKnown

/-- Details that consistency is not about change. -/
theorem modifyAction
    (consistent : Consistent world)
    {change : ActionDetails → ActionDetails}
    (same : SameDetails (world.env.actions action)
      (change (world.env.actions action))) :
    Consistent { world with env := world.env.modifyAction action change } := by
  apply consistent.withEnv
  · intro other
    by_cases isAction : other = action
    · subst isAction
      rwa [modifyAction_self]
    · rw [modifyAction_of_ne isAction]
      exact .refl _
  · rfl
  · rfl
  · exact Nat.le_refl _
  · exact consistent.counted
  · exact consistent.blockedKnown
  · exact consistent.unassignedKnown

theorem change
    (consistent : Consistent world)
    (known : action < world.nextId)
    {after : SchedulerWorld}
    (change : Change scores action world after) :
    Consistent after := by
  cases change with
  | assign assignment runnable fresh => exact consistent.assign runnable
  | wait assignment launchable => exact consistent.waitOn launchable known
  | start assignment launchable noneWaiting enough =>
      have registered :
          Consistent (world.registerExecution action assignment.resource) :=
        consistent.modifyAction ⟨rfl, rfl, rfl⟩
      have sameAssigned :
          ((world.registerExecution action assignment.resource).env.actions
            action).assigned = some assignment := by
        simp [registerExecution, launchable.assigned]
      have stillEnough :
          (world.registerExecution action
            assignment.resource).env.areEnoughResources action := by
        rw [SchedulerEnv.areEnoughResources, launchable.assigned] at enough
        rw [SchedulerEnv.areEnoughResources, sameAssigned]
        simpa [registerExecution, SchedulerEnv.requirements,
          SchedulerEnv.modifyAction] using enough
      refine registered.runOn (.inl launchable.runnable) launchable.free known
        sameAssigned stillEnough ?_
      intro worker other
      by_cases same : other = action
      · subst same
        have before := consistent.waiting worker other
        simpa [launchable.runnable] using before
      · rw [if_neg same]
        rfl

end Consistent

/-- What operations on known actions keep. -/
structure Kept
    (nextId : ActionId)
    (Holds : SchedulerWorld → Prop)
    (world : SchedulerWorld) : Prop where
  consistent : Consistent world
  nextId : world.nextId = nextId
  holds : Holds world

variable
  {nextId : ActionId}
  {Holds : SchedulerWorld → Prop}

/-- Changes keep what each of them keeps in consistent states. -/
theorem Kept.changes
    {after : SchedulerWorld}
    (kept : Kept nextId Holds world)
    (known : action < nextId)
    (preserved :
      ∀ before between, Consistent before → Change scores action before between →
        Holds before → Holds between)
    (changes : Changes scores action world after) :
    Kept nextId Holds after := by
  refine changes.preserves ?_ kept
  intro before between change keptBefore
  have sameNextId : between.nextId = before.nextId := by
    cases change with
    | assign assignment runnable fresh => rw [assign_of_runnable runnable]
    | start assignment launchable noneWaiting enough => rfl
    | wait assignment launchable => rfl
  have stillKnown : action < before.nextId := by
    rwa [keptBefore.nextId]
  exact ⟨keptBefore.consistent.change stillKnown change,
    sameNextId.trans keptBefore.nextId,
    preserved before between keptBefore.consistent change keptBefore.holds⟩

namespace Consistent

/-! ## Resuming and leaving -/

theorem resume
    (consistent : Consistent world)
    {worker : WorkerId}
    {rest : List ActionId}
    (isWaiting : world.env.waiting worker = action :: rest)
    (assigned : (world.env.actions action).assigned = some assignment)
    (enough : world.env.areEnoughResources action) :
    Consistent
      ({ world with
        env := world.env.removeFirstBlocked scores worker
      }.runOn action assignment) := by
  have member : action ∈ world.env.waiting worker := by
    rw [isWaiting]
    exact mem_cons_self
  rcases consistent.of_mem_waiting member with ⟨waits, resource⟩
  refine consistent.runOn (.inr waits) (consistent.free_of_waiting waits)
    (consistent.known_of_state (by simp [waits])) assigned enough ?_
  intro other queued
  have once := consistent.waiting other action
  simp only [waits, resource, true_and, some.injEq] at once
  by_cases here : other = worker
  · subst here
    simp only [isWaiting, count_cons_self, if_true] at once
    simp only [update_self, count_waitingOrder, isWaiting,
      tail_cons]
    by_cases same : queued = action
    · subst same
      rw [if_pos rfl]
      omega
    · rw [if_neg same, count_cons_of_ne (Ne.symm same)]
  · rw [if_neg (Ne.symm here)] at once
    rw [update_of_ne here]
    by_cases same : queued = action
    · subst same
      rw [if_pos rfl, once]
    · rw [if_neg same]

end Consistent

/-- Resuming keeps what each resumed action keeps in consistent states. -/
theorem Kept.tryToLaunchBlockedActions
    {worker : WorkerId}
    (kept : Kept nextId Holds world)
    (resumed :
      ∀ world action rest assignment, Consistent world →
        world.env.waiting worker = action :: rest →
          (world.graph action).state = .WAITING →
            (world.env.actions action).assigned = some assignment →
              world.env.areEnoughResources action → Holds world →
                Holds
                  ({ world with
                    env := world.env.removeFirstBlocked scores worker
                  }.runOn action assignment)) :
    Kept nextId Holds (world.tryToLaunchBlockedActions scores worker) := by
  refine resumeWithin_preserves ?_ _ kept
  intro before action rest assignment isWaiting assigned enough keptBefore
  have member : action ∈ before.env.waiting worker := by
    rw [isWaiting]
    exact mem_cons_self
  have waits := (keptBefore.consistent.of_mem_waiting member).1
  exact ⟨keptBefore.consistent.resume isWaiting assigned enough,
    keptBefore.nextId,
    resumed before action rest assignment keptBefore.consistent isWaiting waits
      assigned enough keptBefore.holds⟩

namespace Consistent

/-- What has been reserved can be given back. -/
theorem endTask_returned
    (worker : Worker)
    {consumption : Option MethodResourceDescription}
    (isSome : consumption.isSome) :
    ∃ after, worker.endTask consumption = .returned after () := by
  rcases isSome_iff_exists.mp isSome with ⟨reserved, rfl⟩
  unfold Worker.endTask
  cases worker.type with
  | SERVICE => exact ⟨_, rfl⟩
  | WORKER => exact ⟨_, rfl⟩

/-- A running action that is over is no longer hosted. -/
theorem unhost
    (consistent : Consistent world)
    (running : (world.graph action).state = .RUNNING)
    (assigned : (world.env.actions action).assigned = some assignment)
    {state : ActionState}
    (isOver : state = .RUNNABLE ∨ state = .FINISHED)
    (worker : Worker) :
    Consistent
      { world.setState action state with
        env := (world.env.modifyWorker assignment.resource worker).unhostAction
          action assignment.resource } := by
  have resource := assignedResource_eq assigned
  have notQueued : state ≠ .RUNNING ∧ state ≠ .WAITING := by
    rcases isOver with rfl | rfl
    · simp
    · simp
  refine consistent.moved (consistent.known_of_state (by simp [running]))
    (consistent.free_of_running running) assigned rfl rfl rfl (fun _ => rfl)
    (fun _ => rfl) (fun _ _ => rfl) (fun isRunning => absurd isRunning notQueued.1)
    ?_ ?_
  · intro host other
    have before := consistent.hosted host other
    change (update world.env.hosted assignment.resource
      ((world.env.hosted assignment.resource).erase action) host).count other = _
    by_cases same : other = action
    · subst same
      simp only [running, resource, true_and, some.injEq] at before
      by_cases here : host = assignment.resource
      · subst here
        simp [before, notQueued.1]
      · simp [here, before, Ne.symm here]
    · rw [if_neg same]
      by_cases here : host = assignment.resource
      · subst here
        rw [update_self, count_erase_of_ne same]
      · rw [update_of_ne here]
  · intro host other
    have before := consistent.waiting host other
    change (world.env.waiting host).count other = _
    by_cases same : other = action
    · subst same
      simpa [running, notQueued.2] using before
    · rw [if_neg same]

/-- A running action leaves its worker, and waiting ones may be resumed. -/
theorem leaveResource_eq
    (consistent : Consistent world)
    (running : (world.graph action).state = .RUNNING)
    (assigned : (world.env.actions action).assigned = some assignment)
    (state : ActionState) :
    ∃ worker,
      (world.env.workers assignment.resource).endTask
          (world.env.consumption action assignment.resource) =
        .returned worker () ∧
      world.leaveResource scores action state assignment.resource =
        .returned
          (World.tryToLaunchBlockedActions scores
            { world.setState action state with
              env := (world.env.modifyWorker assignment.resource
                worker).unhostAction action assignment.resource }
            assignment.resource) () := by
  rcases endTask_returned (world.env.workers assignment.resource)
      (consumption_isSome (consistent.reserved action running)
        assignment.resource) with
    ⟨worker, ended⟩
  refine ⟨worker, ended, ?_⟩
  have released :
      world.env.releaseResources action =
        .returned (world.env.modifyWorker assignment.resource worker) () := by
    simp only [releaseResources, assignedResource_eq assigned,
      ended, Outcome.onState]
  have called :
      (world.setState action state).callHook (·.releaseResources action) =
        .returned
          { world.setState action state with
            env := world.env.modifyWorker assignment.resource worker } () :=
    callHook_returned.mpr ⟨_, released, rfl⟩
  rw [leaveResource, called]
  rfl

end Consistent

end World

end DistributedRdf.Scheduling
