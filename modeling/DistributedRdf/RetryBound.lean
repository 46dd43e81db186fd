import DistributedRdf.DispatcherRuns
import Mathlib.Data.List.Dedup

namespace DistributedRdf.Scheduling

open Java Relation Execution SchedulerEnv List Option

/-!
# Executions that are tried again

An execution that reports an error is tried again elsewhere, as long as it has
chances left.  The workers that it has used are the ones `execute` has
registered: it does not register a worker whose queue the action waits in, and
`run` does not register it when the action is resumed.
-/

namespace ExecutionEvent

/-- The workers that an action has been started on. -/
def startedOn (history : List ExecutionEvent) : List WorkerId :=
  history.filterMap fun
    | .started resource _ => some resource
    | .failed _ => none

/-- The workers on which an execution has failed. -/
def failedOn (history : List ExecutionEvent) : List WorkerId :=
  history.filterMap fun
    | .started _ _ => none
    | .failed resource => some resource

variable
  (history : List ExecutionEvent)
  (resource : WorkerId)
  (compatibleWorkers : List WorkerId)

@[simp] theorem startedOn_started :
    startedOn (history ++ [.started resource compatibleWorkers]) =
      startedOn history ++ [resource] := by
  simp [startedOn]

@[simp] theorem startedOn_failed :
    startedOn (history ++ [.failed resource]) = startedOn history := by
  simp [startedOn]

@[simp] theorem failedOn_started :
    failedOn (history ++ [.started resource compatibleWorkers]) =
      failedOn history := by
  simp [failedOn]

@[simp] theorem failedOn_failed :
    failedOn (history ++ [.failed resource]) =
      failedOn history ++ [resource] := by
  simp [failedOn]

/--
An action is not started where it has failed as long as another compatible
worker exists, and on no more workers than it has chances.
-/
structure RetriedElsewhere : Prop where
  elsewhere :
    ∀ earlier later resource compatibleWorkers,
      history = earlier ++ .started resource compatibleWorkers :: later →
        resource ∈ failedOn earlier →
          ∀ other ∈ compatibleWorkers, other = resource
  chances : (startedOn history).dedup.length ≤ SCHEDULING_CHANCES

/-- No execution was started where one had failed. -/
def NeverBack : Prop :=
  ∀ earlier later resource compatibleWorkers,
    history = earlier ++ .started resource compatibleWorkers :: later →
      resource ∉ failedOn earlier

variable {history}

theorem NeverBack.started
    (neverBack : NeverBack history)
    {resource : WorkerId}
    (notFailed : resource ∉ failedOn history)
    (compatibleWorkers : List WorkerId) :
    NeverBack (history ++ [.started resource compatibleWorkers]) := by
  intro earlier later other otherCompatible split
  rcases eq_nil_or_concat later with rfl | ⟨before, last, rfl⟩
  · rcases append_inj' split rfl with ⟨rfl, last⟩
    cases last
    exact notFailed
  · rw [concat_eq_append, ← cons_append, ← append_assoc] at split
    rcases append_inj' split rfl with ⟨sameHistory, _⟩
    exact neverBack earlier before other otherCompatible sameHistory

theorem NeverBack.failed
    (neverBack : NeverBack history)
    (resource : WorkerId) :
    NeverBack (history ++ [.failed resource]) := by
  intro earlier later other otherCompatible split
  rcases eq_nil_or_concat later with rfl | ⟨before, last, rfl⟩
  · rcases append_inj' split rfl with ⟨rfl, last⟩
    exact absurd last (by simp)
  · rw [concat_eq_append, ← cons_append, ← append_assoc] at split
    rcases append_inj' split rfl with ⟨sameHistory, _⟩
    exact neverBack earlier before other otherCompatible sameHistory

end ExecutionEvent

open ExecutionEvent

def ActionDetails.IsExecution (details : ActionDetails) : Prop :=
  ∃ coreId forcedResource constrainingPredecessors,
    details.kind =
      .execution coreId forcedResource constrainingPredecessors

/-- How the executions of an action relate to the workers it has registered. -/
structure Retrying (node : ActionNode) (details : ActionDetails) : Prop where
  neverBack : NeverBack details.history
  failed :
    ∀ resource ∈ failedOn details.history,
      resource ∈ details.executingResources
  started :
    ∀ resource ∈ startedOn details.history,
      resource ∈ details.executingResources ∨
        (node.state = .RUNNING ∨ node.state = .FINISHED) ∧
          ∃ assignment, details.assigned = some assignment ∧
            assignment.resource = resource
  chances : details.executingResources.length ≤ SCHEDULING_CHANCES
  resumed :
    node.state = .RUNNING ∨ node.state = .FINISHED →
      ∀ assignment, details.assigned = some assignment →
        assignment.resource ∉ details.executingResources →
          details.executingResources.length < SCHEDULING_CHANCES
  waiting :
    node.state = .WAITING →
      details.executingResources.length < SCHEDULING_CHANCES ∧
        ∀ assignment, details.assigned = some assignment →
          assignment.resource ∉ details.executingResources
  dependent :
    node.dataPredecessors.items ≠ [] → details.executingResources = []

namespace Retrying

variable {node : ActionNode} {details : ActionDetails}

theorem retriedElsewhere (retrying : Retrying node details) :
    RetriedElsewhere details.history := by
  refine ⟨?_, ?_⟩
  · intro earlier later resource compatibleWorkers split failedBefore
    exact absurd failedBefore
      (retrying.neverBack earlier later resource compatibleWorkers split)
  · have once := nodup_dedup (startedOn details.history)
    by_cases isResumed :
        (node.state = .RUNNING ∨ node.state = .FINISHED) ∧
          ∃ assignment, details.assigned = some assignment ∧
            assignment.resource ∉ details.executingResources
    · rcases isResumed with ⟨state, assignment, assigned, notRegistered⟩
      have subset :
          (startedOn details.history).dedup ⊆
            assignment.resource :: details.executingResources := by
        intro resource member
        rcases retrying.started resource (mem_dedup.mp member) with
          registered | ⟨_, other, otherAssigned, isResource⟩
        · exact mem_cons_of_mem _ registered
        · rw [assigned, some.injEq] at otherAssigned
          rw [← isResource, ← otherAssigned]
          exact mem_cons_self
      have atMost := (subperm_of_subset once subset).length_le
      have fewer := retrying.resumed state assignment assigned notRegistered
      rw [length_cons] at atMost
      omega
    · have subset :
          (startedOn details.history).dedup ⊆ details.executingResources := by
        intro resource member
        rcases retrying.started resource (mem_dedup.mp member) with
          registered | ⟨state, assignment, assigned, isResource⟩
        · exact registered
        · by_contra notRegistered
          exact isResumed
            ⟨state, assignment, assigned, by rwa [isResource]⟩
      exact (subperm_of_subset once subset).length_le.trans
        retrying.chances

theorem new (actionKind : ActionKind) (node : ActionNode) :
    Retrying node (.new actionKind) where
  neverBack := by
    intro earlier later resource compatibleWorkers split
    exact absurd split (by simp [ActionDetails.new])
  failed := by simp [ActionDetails.new, failedOn]
  started := by simp [ActionDetails.new, startedOn]
  chances := by simp [ActionDetails.new]
  resumed := by simp [ActionDetails.new]
  waiting := by simp [ActionDetails.new, SCHEDULING_CHANCES]
  dependent := by simp [ActionDetails.new]

/-- Fewer dependencies, or a failure, are no execution. -/
theorem ofNode
    (retrying : Retrying node details)
    {after : ActionNode}
    (state :
      after.state = node.state ∨
        after.state = .FAILED ∧ node.state = .RUNNABLE)
    (predecessors :
      after.dataPredecessors.items ≠ [] →
        node.dataPredecessors.items ≠ []) :
    Retrying after details where
  neverBack := retrying.neverBack
  failed := retrying.failed
  started := by
    intro resource member
    rcases retrying.started resource member with registered | ⟨isOne, assigned⟩
    · exact .inl registered
    · rcases state with same | ⟨_, runnable⟩
      · rw [same]
        exact .inr ⟨isOne, assigned⟩
      · rw [runnable] at isOne
        exact absurd isOne (by simp)
  chances := retrying.chances
  resumed := by
    intro isOne
    rcases state with same | ⟨failed, _⟩
    · rw [same] at isOne
      exact retrying.resumed isOne
    · rw [failed] at isOne
      exact absurd isOne (by simp)
  waiting := by
    intro isWaiting
    rcases state with same | ⟨failed, _⟩
    · rw [same] at isWaiting
      exact retrying.waiting isWaiting
    · rw [failed] at isWaiting
      exact absurd isWaiting (by simp)
  dependent depends := retrying.dependent (predecessors depends)

section Details

variable
  {afterNode : ActionNode}
  {after : ActionDetails}
  {assignment : Assignment}
  {compatibleWorkers : List WorkerId}
  (retrying : Retrying node details)

include retrying

/-- An execution that is registered, and one that is not. -/
theorem start
    (notRunning : node.state = .RUNNABLE ∨ node.state = .WAITING)
    (running : afterNode.state = .RUNNING)
    (free : afterNode.dataPredecessors.items = [])
    (history :
      after.history =
        details.history ++ [.started assignment.resource compatibleWorkers])
    (assigned : after.assigned = some assignment)
    (executing :
      after.executingResources = details.executingResources ∨
        after.executingResources =
          details.executingResources ++ [assignment.resource])
    (elsewhere : assignment.resource ∉ details.executingResources)
    (chanceLeft : details.executingResources.length < SCHEDULING_CHANCES) :
    Retrying afterNode after := by
  have grown :
      ∀ resource ∈ details.executingResources,
        resource ∈ after.executingResources := by
    intro resource member
    rcases executing with same | registered
    · rwa [same]
    · rw [registered]
      exact mem_append_left _ member
  constructor
  case neverBack =>
    rw [history]
    exact retrying.neverBack.started
      (fun failed => elsewhere (retrying.failed _ failed)) compatibleWorkers
  case failed =>
    rw [history, failedOn_started]
    exact fun resource member => grown resource (retrying.failed resource member)
  case started =>
    rw [history, startedOn_started]
    intro resource member
    rcases mem_append.mp member with before | isLast
    · rcases retrying.started resource before with registered | ⟨isOne, _⟩
      · exact .inl (grown resource registered)
      · rcases notRunning with runnable | isWaiting
        · rw [runnable] at isOne
          exact absurd isOne (by simp)
        · rw [isWaiting] at isOne
          exact absurd isOne (by simp)
    · rw [mem_singleton.mp isLast]
      exact .inr ⟨.inl running, assignment, assigned, rfl⟩
  case chances =>
    rcases executing with same | registered
    · rw [same]
      exact retrying.chances
    · rw [registered, length_append, length_singleton]
      exact chanceLeft
  case resumed =>
    intro _ other otherAssigned notRegistered
    rcases executing with same | registered
    · rwa [same]
    · rw [assigned, some.injEq] at otherAssigned
      rw [registered, ← otherAssigned] at notRegistered
      exact absurd (mem_append_right _ (mem_singleton_self _))
        notRegistered
  case waiting =>
    intro isWaiting
    exact absurd (running.symm.trans isWaiting) (by simp)
  case dependent =>
    intro depends
    exact absurd free depends

theorem assign
    (runnable : node.state = .RUNNABLE)
    (history : after.history = details.history)
    (executing : after.executingResources = details.executingResources) :
    Retrying node after where
  neverBack := by
    rw [history]
    exact retrying.neverBack
  failed := by
    rw [history, executing]
    exact retrying.failed
  started := by
    rw [history, executing]
    intro resource member
    rcases retrying.started resource member with registered | ⟨isOne, _⟩
    · exact .inl registered
    · rw [runnable] at isOne
      exact absurd isOne (by simp)
  chances := by
    rw [executing]
    exact retrying.chances
  resumed := by
    intro isOne
    rw [runnable] at isOne
    exact absurd isOne (by simp)
  waiting := by
    intro isWaiting
    exact absurd (runnable.symm.trans isWaiting) (by simp)
  dependent := by
    rw [executing]
    exact retrying.dependent

theorem wait
    (runnable : node.state = .RUNNABLE)
    (free : afterNode.dataPredecessors.items = [])
    (isWaiting : afterNode.state = .WAITING)
    (assigned : details.assigned = some assignment)
    (elsewhere : assignment.resource ∉ details.executingResources)
    (chanceLeft : details.executingResources.length < SCHEDULING_CHANCES) :
    Retrying afterNode details where
  neverBack := retrying.neverBack
  failed := retrying.failed
  started := by
    intro resource member
    rcases retrying.started resource member with registered | ⟨isOne, _⟩
    · exact .inl registered
    · rw [runnable] at isOne
      exact absurd isOne (by simp)
  chances := retrying.chances
  resumed := by
    intro isOne
    rw [isWaiting] at isOne
    exact absurd isOne (by simp)
  waiting _ := by
    refine ⟨chanceLeft, ?_⟩
    intro other otherAssigned
    rw [assigned, some.injEq] at otherAssigned
    rwa [← otherAssigned]
  dependent depends := absurd free depends

/-- An execution is over; if it has failed then its worker is registered. -/
theorem leave
    (running : node.state = .RUNNING)
    (isOver :
      afterNode.state = .FINISHED ∨
        afterNode.state = .RUNNABLE ∧
          ∀ assignment, details.assigned = some assignment →
            assignment.resource ∈ details.executingResources)
    (predecessors :
      afterNode.dataPredecessors.items = node.dataPredecessors.items) :
    Retrying afterNode details where
  neverBack := retrying.neverBack
  failed := retrying.failed
  started := by
    intro resource member
    rcases retrying.started resource member with
      registered | ⟨isOne, assignment, assigned, isResource⟩
    · exact .inl registered
    · rcases isOver with finished | ⟨_, isRegistered⟩
      · exact .inr ⟨.inr finished, assignment, assigned, isResource⟩
      · rw [← isResource]
        exact .inl (isRegistered assignment assigned)
  chances := retrying.chances
  resumed := by
    intro _ assignment assigned notRegistered
    exact retrying.resumed (.inl running) assignment assigned notRegistered
  waiting := by
    intro isWaiting
    rcases isOver with finished | ⟨runnable, _⟩
    · exact absurd (finished.symm.trans isWaiting) (by simp)
    · exact absurd (runnable.symm.trans isWaiting) (by simp)
  dependent := by
    rw [predecessors]
    exact retrying.dependent

theorem recordFailure
    {failing : WorkerId}
    (registered : failing ∈ details.executingResources) :
    Retrying node
      { details with history := details.history ++ [.failed failing] } where
  neverBack := retrying.neverBack.failed failing
  failed := by
    intro resource member
    rw [failedOn_failed] at member
    rcases mem_append.mp member with before | isLast
    · exact retrying.failed resource before
    · rwa [mem_singleton.mp isLast]
  started := by
    intro resource member
    rw [startedOn_failed] at member
    exact retrying.started resource member
  chances := retrying.chances
  resumed := retrying.resumed
  waiting := retrying.waiting
  dependent := retrying.dependent

end Details

end Retrying

namespace World

variable
  {kind : SchedulerKind}
  {scores : Scores}
  {world : SchedulerWorld}
  {action : ActionId}

/--
What holds of every action that is executed.  An action whose execution reports
an error may be out of chances until it has failed.
-/
def KeepsRetrying (erring : Option ActionId) (world : SchedulerWorld) : Prop :=
  ∀ action, (world.env.actions action).IsExecution →
    Retrying (world.graph action) (world.env.actions action) ∧
      (erring ≠ some action → (world.graph action).state = .RUNNABLE →
        (world.env.actions action).executingResources.length <
          SCHEDULING_CHANCES)

/-- The action is not launched where it has been executed. -/
def LaunchesElsewhere (action : ActionId) (world : SchedulerWorld) : Prop :=
  (world.env.actions action).IsExecution →
    (world.graph action).state = .RUNNABLE →
      ∀ assignment, (world.env.actions action).assigned = some assignment →
        assignment.resource ∉ (world.env.actions action).executingResources

namespace KeepsRetrying

variable {erring : Option ActionId} {before after : SchedulerWorld}

theorem frame
    (keeps : KeepsRetrying erring before)
    (actions : after.env.actions = before.env.actions)
    (state : ∀ action,
      (after.graph action).state = (before.graph action).state ∨
        (after.graph action).state = .FAILED ∧
          (before.graph action).state = .RUNNABLE)
    (predecessors : ∀ action,
      (after.graph action).dataPredecessors.items ≠ [] →
        (before.graph action).dataPredecessors.items ≠ []) :
    KeepsRetrying erring after := by
  intro action isExecution
  rw [actions] at isExecution ⊢
  rcases keeps action isExecution with ⟨retrying, chanceLeft⟩
  refine ⟨retrying.ofNode (state action) (predecessors action), ?_⟩
  intro notErring runnable
  rcases state action with same | ⟨failed, _⟩
  · rw [same] at runnable
    exact chanceLeft notErring runnable
  · exact absurd (failed.symm.trans runnable) (by simp)

/-- One action changes. -/
theorem change
    (keeps : KeepsRetrying erring before)
    (action : ActionId)
    (others : ∀ other ≠ action,
      after.env.actions other = before.env.actions other ∧
        (after.graph other).state = (before.graph other).state ∧
          (after.graph other).dataPredecessors =
            (before.graph other).dataPredecessors)
    (self : (after.env.actions action).IsExecution →
      Retrying (after.graph action) (after.env.actions action) ∧
        (erring ≠ some action → (after.graph action).state = .RUNNABLE →
          (after.env.actions action).executingResources.length <
            SCHEDULING_CHANCES)) :
    KeepsRetrying erring after := by
  intro other isExecution
  by_cases same : other = action
  · subst same
    exact self isExecution
  · rcases others other same with ⟨details, state, predecessors⟩
    rw [details] at isExecution ⊢
    rcases keeps other isExecution with ⟨retrying, chanceLeft⟩
    refine ⟨retrying.ofNode (.inl state) (by rw [predecessors]; exact id), ?_⟩
    rw [state]
    exact chanceLeft

end KeepsRetrying

/-! ## Placing an action -/

theorem runOn_executingResources
    (world : SchedulerWorld)
    (action : ActionId)
    (assignment : Assignment) :
    ((world.runOn action assignment).env.actions action).executingResources =
      (world.env.actions action).executingResources := by
  rcases @runOn_actions_self world action assignment with ⟨reserved, details⟩
  rw [details]
  exact keepReserved_executingResources _ _

theorem runOn_history
    (world : SchedulerWorld)
    (action : ActionId)
    (assignment : Assignment) :
    ((world.runOn action assignment).env.actions action).history =
      (world.env.actions action).history ++
        [.started assignment.resource
          (world.env.getCompatibleWorkers action)] := by
  rcases @runOn_actions_self world action assignment with ⟨reserved, details⟩
  rw [details]

variable {assignment : Assignment}

theorem isExecution_runOn
    {other : ActionId}
    (isExecution :
      ((world.runOn action assignment).env.actions other).IsExecution) :
    (world.env.actions other).IsExecution := by
  rwa [ActionDetails.IsExecution, runOn_kind] at isExecution

/-- An action runs on a worker that it has not registered before. -/
theorem KeepsRetrying.runOn
    {erring : Option ActionId}
    {before : SchedulerWorld}
    {assignment : Assignment}
    (keeps : KeepsRetrying erring before)
    (notRunning :
      (before.graph action).state = .RUNNABLE ∨
        (before.graph action).state = .WAITING)
    (free : (before.graph action).dataPredecessors.items = [])
    (safe :
      (before.env.actions action).IsExecution →
        assignment.resource ∉
            (before.env.actions action).executingResources ∧
          (before.env.actions action).executingResources.length <
            SCHEDULING_CHANCES)
    (graph : world.graph = before.graph)
    (others : ∀ other ≠ action,
      world.env.actions other = before.env.actions other)
    (details :
      (world.env.actions action).kind = (before.env.actions action).kind ∧
        (world.env.actions action).assigned = some assignment ∧
          (world.env.actions action).history =
            (before.env.actions action).history)
    (executing :
      (world.env.actions action).executingResources =
          (before.env.actions action).executingResources ∨
        (world.env.actions action).executingResources =
          (before.env.actions action).executingResources ++
            [assignment.resource]) :
    KeepsRetrying erring (world.runOn action assignment) := by
  have running :
      ((world.runOn action assignment).graph action).state = .RUNNING := by
    rw [runOn_graph, setState_state_self]
  apply keeps.change action
  · intro other different
    rw [runOn_actions_of_ne different, others other different, runOn_graph,
      setState_of_ne different, graph]
    exact ⟨rfl, rfl, rfl⟩
  · intro isExecution
    have wasExecution : (before.env.actions action).IsExecution := by
      have inWorld := isExecution_runOn isExecution
      rwa [ActionDetails.IsExecution, details.1] at inWorld
    rcases safe wasExecution with ⟨elsewhere, chanceLeft⟩
    have history := runOn_history world action assignment
    rw [details.2.2] at history
    refine ⟨?_, ?_⟩
    · refine (keeps action wasExecution).1.start notRunning running ?_ history
        ?_ ?_ elsewhere chanceLeft
      · rw [runOn_graph, setState_dataPredecessors, graph]
        exact free
      · rw [runOn_assigned]
        exact details.2.1
      · rw [runOn_executingResources]
        exact executing
    · intro _ runnable
      exact absurd (running.symm.trans runnable) (by simp)

theorem KeepsRetrying.assign
    {erring : Option ActionId}
    {assignment : Assignment}
    (keeps : KeepsRetrying erring world)
    (runnable : (world.graph action).state = .RUNNABLE) :
    KeepsRetrying erring (world.assign action assignment) := by
  rw [assign_of_runnable runnable]
  apply keeps.change action
  · intro other different
    exact ⟨by simp [different], rfl, rfl⟩
  · rw [modifyAction_self]
    intro isExecution
    rcases keeps action isExecution with ⟨retrying, chanceLeft⟩
    exact ⟨retrying.assign runnable rfl rfl, chanceLeft⟩

theorem KeepsRetrying.changed
    {before after : SchedulerWorld}
    (keeps : KeepsRetrying none before)
    (change : Change scores action before after)
    (elsewhere : LaunchesElsewhere action before) :
    KeepsRetrying none after := by
  cases change with
  | assign assignment runnable fresh => exact keeps.assign runnable
  | start assignment launchable noneWaiting enough =>
      apply keeps.runOn (.inl launchable.runnable) launchable.free
      · intro isExecution
        exact ⟨elsewhere isExecution launchable.runnable assignment
            launchable.assigned,
          (keeps action isExecution).2 (by simp) launchable.runnable⟩
      · rfl
      · intro other different
        simp [registerExecution, different]
      · simp [registerExecution, launchable.assigned]
      · right
        simp [registerExecution]
  | wait assignment launchable =>
      apply keeps.change action
      · intro other different
        refine ⟨rfl, ?_, ?_⟩
        · simp [waitOn, different]
        · simp [waitOn]
      · intro isExecution
        rcases keeps action isExecution with ⟨retrying, chanceLeft⟩
        refine ⟨?_, ?_⟩
        · apply retrying.wait launchable.runnable _ _ launchable.assigned
            (elsewhere isExecution launchable.runnable assignment
              launchable.assigned)
            (chanceLeft (by simp) launchable.runnable)
          · simpa [waitOn] using launchable.free
          · exact setState_state_self _
        · intro _ runnable
          simp [waitOn] at runnable

/-- The details of the actions and their states decide what is kept. -/
theorem LaunchesElsewhere.frame
    {before after : SchedulerWorld}
    (elsewhere : LaunchesElsewhere action before)
    (details : after.env.actions action = before.env.actions action)
    (state :
      (after.graph action).state = (before.graph action).state) :
    LaunchesElsewhere action after := by
  unfold LaunchesElsewhere
  rw [details, state]
  exact elsewhere

theorem launchesElsewhere_new
    {actionKind : ActionKind}
    (details : world.env.actions action = .new actionKind) :
    LaunchesElsewhere action world := by
  intro _ _ assignment assigned
  rw [details] at assigned
  exact absurd assigned (by simp [ActionDetails.new])

theorem launchesElsewhere_assign
    (runnable : (world.graph action).state = .RUNNABLE)
    (fresh : world.env.Fresh action assignment.resource) :
    LaunchesElsewhere action (world.assign action assignment) := by
  rw [assign_of_runnable runnable]
  rintro ⟨coreId, forcedResource, constrainingPredecessors, ofKind⟩ _ other
    isOther
  simp only [modifyAction_self] at ofKind isOther ⊢
  rw [some.injEq] at isOther
  rw [← isOther]
  simp only [SchedulerEnv.Fresh, ofKind] at fresh
  exact fresh

theorem keptByPlacing_launchesElsewhere (action : ActionId) :
    KeptByPlacing LaunchesElsewhere (LaunchesElsewhere action) where
  byFiling other world env filed elsewhere :=
    elsewhere.frame (by rw [filed.actions]) rfl
  byAssigning world other assignment runnable fresh elsewhere := by
    by_cases same : action = other
    · subst same
      exact launchesElsewhere_assign runnable fresh
    · apply elsewhere.frame
      · rw [assign_of_runnable runnable]
        simp [same]
      · rw [assign_graph]
  byChange scores other before after _ change _ elsewhere := by
    cases change with
    | assign assignment runnable fresh =>
        by_cases same : action = other
        · subst same
          exact launchesElsewhere_assign runnable fresh
        · apply elsewhere.frame
          · rw [assign_of_runnable runnable]
            simp [same]
          · rw [assign_graph]
    | start assignment launchable noneWaiting enough =>
        by_cases same : action = other
        · subst same
          intro _ runnable
          rw [runOn_graph, setState_state_self] at runnable
          exact absurd runnable (by simp)
        · apply elsewhere.frame
          · rw [runOn_actions_of_ne same]
            simp [registerExecution, same]
          · rw [runOn_graph, setState_of_ne same]
            rfl
    | wait assignment launchable =>
        by_cases same : action = other
        · subst same
          intro _ runnable
          simp [waitOn] at runnable
        · apply elsewhere.frame
          · rfl
          · simp [waitOn, same]
  byCreating world actionKind _ after consistent _ created elsewhere := by
    by_cases same : action = world.nextId
    · subst same
      apply launchesElsewhere_new
      rw [created.env, modifyAction_self]
    · apply elsewhere.frame
      · rw [created.env, modifyAction_of_ne same]
      · exact created.state action
  bySettling world other after settled elsewhere :=
    elsewhere.frame (by rw [settled.env]) (settled.state action)
  byReconfiguring world env reconfigured elsewhere :=
    elsewhere.frame (by rw [reconfigured.actions]) rfl

theorem launchCondition_launchesElsewhere :
    LaunchCondition LaunchesElsewhere where
  kept := keptByPlacing_launchesElsewhere
  ofNotRunnable world action notRunnable _ runnable :=
    absurd runnable notRunnable
  ofAssigned world action assignment := launchesElsewhere_assign
  ofCreated world actionKind _ after consistent created := by
    apply launchesElsewhere_new
    rw [created.env, modifyAction_self]

theorem keptByPlacing_keepsRetrying :
    KeptByPlacing LaunchesElsewhere (KeepsRetrying none) where
  byFiling action world env filed keeps :=
    keeps.frame filed.actions (fun _ => .inl rfl) (fun _ => id)
  byAssigning world action assignment runnable _ keeps :=
    keeps.assign runnable
  byChange scores action before after _ change elsewhere keeps :=
    keeps.changed change elsewhere
  byCreating world actionKind _ after consistent _ created keeps := by
    apply keeps.change world.nextId
    · intro other different
      rw [created.env, modifyAction_of_ne different,
        created.state, created.predecessors other different]
      exact ⟨rfl, rfl, rfl⟩
    · rw [created.env, modifyAction_self]
      intro _
      exact ⟨.new actionKind _, by simp [ActionDetails.new, SCHEDULING_CHANCES]⟩
  bySettling world action after settled keeps := by
    apply keeps.frame (by rw [settled.env]) (fun other => .inl (settled.state other))
    intro other depends none
    rw [settled.predecessors, none] at depends
    simp at depends
  byReconfiguring world env reconfigured keeps :=
    keeps.frame reconfigured.actions (fun _ => .inl rfl) (fun _ => id)

/-! ## The end of an execution -/

theorem keptByResuming_keepsRetrying (erring : Option ActionId) :
    KeptByResuming scores (KeepsRetrying erring) := by
  intro world worker action rest assignment consistent isWaiting waits assigned
    enough keeps
  apply keeps.runOn (.inr waits) (consistent.free_of_waiting waits)
  · intro isExecution
    rcases (keeps action isExecution).1.waiting waits with ⟨chanceLeft, elsewhere⟩
    exact ⟨elsewhere assignment assigned, chanceLeft⟩
  · rfl
  · exact fun _ _ => rfl
  · exact ⟨rfl, assigned, rfl⟩
  · exact .inl rfl

variable (action)

theorem keptByLeaving_completed :
    KeptByLeaving (KeepsRetrying none) action .FINISHED := by
  intro world assignment worker consistent running assigned ended keeps
  apply keeps.change action
  · intro other different
    refine ⟨rfl, ?_, ?_⟩
    · simp [leftBy, different]
    · simp [leftBy]
  · intro isExecution
    refine ⟨(keeps action isExecution).1.leave running (.inl ?_) ?_, ?_⟩
    · simp [leftBy]
    · simp [leftBy]
    · simp [leftBy]

/-- The worker of the execution is registered. -/
def Registered (world : SchedulerWorld) : Prop :=
  (world.env.actions action).IsExecution →
    ∀ assignment, (world.env.actions action).assigned = some assignment →
      assignment.resource ∈ (world.env.actions action).executingResources

/-- What holds while an error is dealt with. -/
def Erring (world : SchedulerWorld) : Prop :=
  KeepsRetrying (some action) world ∧ Registered action world

variable {action}

theorem erring_recordFailure
    (erring : Erring action world)
    (assigned : (world.env.actions action).assigned = some assignment) :
    Erring action (world.recordFailure action assignment.resource) := by
  refine ⟨?_, ?_⟩
  · apply erring.1.change action
    · intro other different
      exact ⟨by simp [recordFailure, modifyEnv, different], rfl, rfl⟩
    · simp only [recordFailure, modifyEnv, modifyAction_self]
      intro isExecution
      have registered := erring.2 isExecution assignment assigned
      exact ⟨(erring.1 action isExecution).1.recordFailure registered,
        fun notErring => absurd rfl notErring⟩
  · intro isExecution
    simp only [recordFailure, modifyEnv,
      modifyAction_self] at isExecution ⊢
    exact erring.2 isExecution

variable (action)

theorem keptByLeaving_erring :
    KeptByLeaving (Erring action) action .RUNNABLE := by
  intro world assignment worker consistent running assigned ended erring
  refine ⟨?_, erring.2⟩
  apply erring.1.change action
  · intro other different
    refine ⟨rfl, ?_, ?_⟩
    · simp [leftBy, different]
    · simp [leftBy]
  · intro isExecution
    refine ⟨(erring.1 action isExecution).1.leave running (.inr ⟨?_, ?_⟩) ?_,
      fun notErring => absurd rfl notErring⟩
    · simp [leftBy]
    · exact erring.2 isExecution
    · simp [leftBy]

theorem keptByResuming_erring :
    KeptByResuming scores (Erring action) := by
  intro world worker resumed rest assignment consistent isWaiting waits assigned
    enough erring
  refine ⟨keptByResuming_keepsRetrying (some action) world worker resumed rest
    assignment consistent isWaiting waits assigned enough erring.1, ?_⟩
  intro isExecution other otherAssigned
  have wasExecution := isExecution_runOn isExecution
  rw [runOn_assigned] at otherAssigned
  have registered := erring.2 wasExecution other otherAssigned
  by_cases same : action = resumed
  · subst same
    rwa [runOn_executingResources]
  · rwa [runOn_actions_of_ne same]

variable {action}

/-- An action that has failed, or has a chance left, is not erring. -/
theorem Erring.settled
    (erring : Erring action world)
    (isOver :
      (world.env.actions action).IsExecution →
        (world.graph action).state = .RUNNABLE →
          (world.env.actions action).executingResources.length <
            SCHEDULING_CHANCES) :
    KeepsRetrying none world := by
  intro other isExecution
  rcases erring.1 other isExecution with ⟨retrying, chanceLeft⟩
  refine ⟨retrying, fun _ runnable => ?_⟩
  by_cases same : action = other
  · subst same
    exact isOver isExecution runnable
  · exact chanceLeft (by simpa using same) runnable

variable (action)

theorem keptByFiling_erring :
    KeptByFiling (Erring action) action := by
  intro between env filed erring
  refine ⟨erring.1.frame filed.actions (fun _ => .inl rfl) (fun _ => id), ?_⟩
  unfold Registered
  rw [filed.actions]
  exact erring.2

theorem keptByFailing_erring :
    KeptByFailing (Erring action) := by
  intro _ before after fails erring
  have shrunk := fails.shrunk
  have actions : after.env.actions = before.env.actions := by
    rw [shrunk.env]
  refine ⟨?_, ?_⟩
  · apply erring.1.frame actions shrunk.state
    intro other depends none
    rcases shrunk.predecessors other with same | noneLeft
    · rw [same] at depends
      exact depends none
    · exact depends noneLeft
  · unfold Registered
    rw [actions]
    exact erring.2

variable {action}

/-- The successors of a finished action have not been executed. -/
theorem freed_launchesElsewhere
    (consistent : Consistent world)
    (keeps : KeepsRetrying none world)
    {after : SchedulerWorld}
    (settled : Settled world action after) :
    ∀ aa ∈ world.freedBy action, LaunchesElsewhere aa after := by
  intro aa freed isExecution _ assignment _
  rw [settled.env] at isExecution ⊢
  have isPredecessor :=
    consistent.mirrored action aa (mem_filter.mp freed).1
  rw [(keeps aa isExecution).1.dependent (ne_nil_of_mem isPredecessor)]
  exact not_mem_nil

end World

namespace Dispatcher

open World

variable
  {kind : SchedulerKind}
  {dispatcher : Dispatcher}

/-- What rescheduling promises of every action that is executed. -/
def RetriesElsewhere (dispatcher : Dispatcher) : Prop :=
  ∀ action, (dispatcher.world.env.actions action).IsExecution →
    RetriedElsewhere (dispatcher.world.env.actions action).history

/--
An execution that reports an error was registered, and an action that cannot be
assigned is not assigned from before.
-/
def RegistersExecutions
    (kind : SchedulerKind)
    (dispatcher : Dispatcher) : Dispatcher.Action → Prop
  | .process _ (.errorOnAction action) => Registered action dispatcher.world
  | .process _ _ => True
  | .continue scores =>
      ∀ action work rest, dispatcher.agenda = work :: rest →
        work = .place action ∨ work = .refile action →
          dispatcher.world.env.Unassignable kind scores action →
            dispatcher.world.env.assignedResource action = none

theorem sound_registersExecutions
    {action : Dispatcher.Action}
    (enabled : Enabled dispatcher action)
    (registers : RegistersExecutions kind dispatcher action)
    (sound : Sound LaunchesElsewhere (KeepsRetrying none) dispatcher) :
    Sound LaunchesElsewhere (KeepsRetrying none)
      (next kind dispatcher action) := by
  have placing := keptByPlacing_keepsRetrying
  have condition := launchCondition_launchesElsewhere
  cases action with
  | process scores request =>
      rcases enabled with ⟨_, legal⟩
      apply sound_process
      cases request with
      | newAction coreId forcedResource dataPredecessors
          constrainingPredecessors =>
          exact placing.newAction condition sound.kept legal.1 forcedResource
            legal.2.2.1 fun predecessor member => (legal.2.2.2 predecessor member).2
      | actionCompleted action =>
          exact sound.kept.actionCompleted_yields legal
            (placing.byFiling action) (keptByLeaving_completed action)
            (keptByResuming_keepsRetrying none)
      | errorOnAction action =>
          have running : (dispatcher.world.graph action).state = .RUNNING :=
            legal
          have known : action < dispatcher.world.nextId :=
            sound.consistent.known_of_state (by simp [running])
          have erring : Erring action dispatcher.world := by
            refine ⟨?_, registers⟩
            intro other isExecution
            rcases sound.holds other isExecution with ⟨retrying, chanceLeft⟩
            exact ⟨retrying, fun _ => chanceLeft (by simp)⟩
          have kept :
              Kept dispatcher.world.nextId (Erring action) dispatcher.world :=
            ⟨sound.consistent, rfl, erring⟩
          apply kept.errorOnAction_yields running
            (fun assignment assigned => erring_recordFailure erring assigned)
            (keptByLeaving_erring action) (keptByResuming_erring action)
          intro assignment after assigned keptAfter rests
          split
          · rcases keptAfter.failCompletely known rests.1
                (keptByFiling_erring action) (keptByFailing_erring action) with
              ⟨keptFailed, failed⟩
            refine ⟨keptFailed.consistent, keptFailed.nextId,
              keptFailed.holds.settled ?_⟩
            rintro ⟨coreId, forcedResource, constrainingPredecessors, ofKind⟩
              runnable
            have isFailed := failed ⟨coreId, by
              simp only [firstImplementation, ofKind]⟩
            exact absurd (isFailed.symm.trans runnable) (by simp)
          · rename_i chanceLeft
            refine ⟨keptAfter.consistent, keptAfter.nextId,
              keptAfter.holds.settled ?_⟩
            rw [rests.2]
            simp only [World.recordFailure, modifyEnv,
              modifyAction_self]
            rintro ⟨coreId, forcedResource, constrainingPredecessors, ofKind⟩ _
            unfold doError at chanceLeft
            split at chanceLeft
            · simpa [executingResources] using chanceLeft
            · rename_i isStart
              exact absurd (ofKind.symm.trans isStart) (by simp)
      | updatedWorker worker update =>
          refine placing.updatedWorker condition sound.kept worker update ?_
          exact sound.holds.frame rfl (fun _ => .inl rfl) (fun _ => id)
      | coreElementsUpdated coreCount features =>
          exact placing.coreElementsUpdated sound.kept legal.1 features
  | «continue» scores =>
      apply sound_continue placing condition _ _ sound
      · intro action work rest isNext places unassignable
        have notAssigned :=
          registers action work rest isNext places unassignable
        intro _ _ assignment assigned
        rw [assignedResource_eq assigned] at notAssigned
        exact absurd notAssigned (by simp)
      · intro action after settled
        exact freed_launchesElsewhere sound.consistent sound.holds settled

theorem retriesElsewhere_of_registersExecutions
    {deployment : Deployment}
    {actions : List Dispatcher.Action}
    (run :
      Run (system kind deployment) (RegistersExecutions kind) actions
        dispatcher) :
    RetriesElsewhere dispatcher := by
  have sound : Sound LaunchesElsewhere (KeepsRetrying none) dispatcher := by
    refine run.invariant (sound_start deployment ?_) ?_
    · intro action _
      exact ⟨.new _ _, fun _ _ => by simp [start, fresh, ActionDetails.new,
        SCHEDULING_CHANCES]⟩
    · intro state action sound enabled registers
      exact sound_registersExecutions enabled registers sound
  exact fun action isExecution =>
    (sound.holds action isExecution).1.retriedElsewhere

/-- An execution that is started at once and reports an error. -/
def registeredRun : List Dispatcher.Action :=
  [.process firstWorkerScores (.updatedWorker 0 (updateOf 0 0)),
    .process firstWorkerScores (.newAction 0 none [] []),
    .process firstWorkerScores (.errorOnAction 1)]

theorem retriesElsewhere_registeredRun :
    RetriesElsewhere ((system .base singleProcessors).after registeredRun) := by
  refine retriesElsewhere_of_registersExecutions (run_of_executable ?_)
  refine ⟨⟨(updated_enabled rfl ?_).1, trivial⟩,
    ⟨(submitted_enabled ?_ ?_).1, trivial⟩,
    ⟨(error_enabled ?_ ?_).1, ?_⟩, trivial⟩
  case refine_6 =>
    intro _ assignment assigned
    let executing :=
      ((system .base singleProcessors).after (registeredRun.take 2)).world
    have resource : executing.env.assignedResource 1 = some 0 := by
      decide
    have isFirst : some assignment.resource = some 0 :=
      (assignedResource_eq assigned).symm.trans resource
    rw [some.inj isFirst]
    decide
  all_goals decide

/-- An execution that waits for its worker, and reports an error there. -/
def resumedRun : List Dispatcher.Action :=
  [.process firstWorkerScores (.updatedWorker 0 (updateOf 2 2)),
    .process firstWorkerScores (.newAction 0 none [] []),
    .process firstWorkerScores (.updatedWorker 1 (updateOf 2 2)),
    .process firstWorkerScores (.actionCompleted 0),
    .continue firstWorkerScores,
    .continue firstWorkerScores,
    .process firstWorkerScores (.errorOnAction 1),
    .continue firstWorkerScores]

/-- A resumed execution is tried again on the worker where it has failed. -/
theorem not_retriesElsewhere_resumedRun :
    Run (system .base singleProcessors) anyStep resumedRun
        ((system .base singleProcessors).after resumedRun) ∧
      ¬ RetriesElsewhere ((system .base singleProcessors).after resumedRun) := by
  constructor
  · apply run_of_executable
    refine ⟨updated_enabled rfl ?_, submitted_enabled ?_ ?_,
      updated_enabled ?_ ?_, completed_enabled ?_ ?_, continue_enabled ?_,
      continue_enabled ?_, error_enabled ?_ ?_, continue_enabled ?_, trivial⟩
    all_goals decide
  · intro elsewhere
    have history :
        (((system .base singleProcessors).after resumedRun).world.env.actions
            1).history =
          [.started 0 [0, 1], .failed 0] ++ .started 0 [1, 0] :: [] := by
      decide
    have onlyWorker :=
      (elsewhere 1 ⟨0, none, [], rfl⟩).elsewhere _ _ _ _ history (by decide) 1
        (by decide)
    exact absurd onlyWorker (by decide)

end Dispatcher

end DistributedRdf.Scheduling
