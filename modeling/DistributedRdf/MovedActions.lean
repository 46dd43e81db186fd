import DistributedRdf.GlobalOptimization

namespace DistributedRdf.Scheduling

open Java Function SchedulingTable List OptimizationWorker
open FullGraphSchedulingInformation

/-!
# What a move does

The action is to end on its receiver when its data predecessors and the actions
whose gaps it takes over have ended and it has run itself.  The move is decided
on before any of these is known.
-/

/-!
## Times in the table
-/

namespace SchedulingTable

variable
  {table first second : SchedulingTable}
  {action : ActionId}

theorem times_modify
    (change :
      FullGraphSchedulingInformation → FullGraphSchedulingInformation)
    (sameTimes : ∀ dsi, (change dsi).times = dsi.times)
    (other : ActionId) :
    (table.modify action change other).times = (table other).times := by
  by_cases same : other = action
  · subst same
    rw [modify_self]
    exact sameTimes _
  · rw [modify_of_ne same]

variable (table)

/-- The action is not scheduled any more, and nothing else is different. -/
def without (action : ActionId) : SchedulingTable :=
  table.modify action fun dsi => { dsi with scheduled := false }

def marked (action : ActionId) : SchedulingTable :=
  table.modify action fun dsi => { dsi with scheduled := true }

theorem times_marked
    (sameTimes : ∀ other, (first other).times = (second.without action other).times)
    (other : ActionId) :
    (first.marked action other).times = (second.marked action other).times := by
  have times := sameTimes other
  by_cases same : other = action
  · subst same
    rw [without, modify_self] at times
    rw [marked, marked, modify_self, modify_self]
    injection times with scheduled times
    injection times with expectedStart expectedEnd
    simp only [times]
    exact congrArg₂ (fun start finish => (true, start, finish)) expectedStart
      expectedEnd
  · rw [without, modify_of_ne same] at times
    rw [marked, marked, modify_of_ne same, modify_of_ne same]
    exact times

end SchedulingTable

theorem latestEnd_congr
    {first second : SchedulingTable}
    (sameTimes : ∀ action, (first action).times = (second action).times)
    (start : Int)
    (actions : List ActionId) :
    latestEnd first start actions = latestEnd second start actions := by
  induction actions generalizing start with
  | nil => rfl
  | cons action rest hypothesis =>
      have scheduled : (first action).scheduled = (second action).scheduled :=
        congrArg Prod.fst (sameTimes action)
      have expectedEnd :
          (first action).expectedEnd = (second action).expectedEnd :=
        congrArg (fun times => times.2.2) (sameTimes action)
      simp only [latestEnd, foldl_cons, scheduled, expectedEnd]
      exact hypothesis _

section Unscheduled

variable
  {Resources : Type}
  {table : SchedulingTable}
  {action : ActionId}

theorem times_removeFromPredecessors
    (predecessors : List ActionId)
    (other : ActionId) :
    (removeFromPredecessors action predecessors table other).times =
      (table other).times := by
  induction predecessors generalizing table with
  | nil => rfl
  | cons predecessor rest hypothesis =>
      refine hypothesis.trans ?_
      exact times_modify (·.removeSuccessor action)
        (fun _ => rfl) other

theorem times_linkSuccessors
    (predecessors successors : List ActionId)
    (other : ActionId) :
    ((linkSuccessors action predecessors successors table).1 other).times =
      (table other).times := by
  induction successors generalizing table with
  | nil => rfl
  | cons successor rest hypothesis =>
      have linked :
          (linkSuccessor action predecessors successor table other).times =
            (table other).times := by
        refine (times_linkAll other).trans ?_
        exact times_modify (·.removePredecessor action)
          (fun _ => rfl) other
      rw [linkSuccessors]
      dsimp only
      split
      · exact hypothesis.trans linked
      · exact hypothesis.trans linked

variable (worker : OptimizationWorker Resources)

/-- Unscheduling changes the times of no other action. -/
theorem times_unscheduleAction
    (other : ActionId) :
    ((worker.unscheduleAction table action).2 other).times =
      (table.without action other).times := by
  let actionDSI := table action
  let linked :=
    (linkSuccessors action actionDSI.resourcePredecessors
      actionDSI.resourceSuccessors
        (removeFromPredecessors action actionDSI.resourcePredecessors
          table)).1
  have linkedTimes :
      ∀ other, (linked other).times = (table other).times := by
    intro other
    exact (times_linkSuccessors _ _ other).trans
      (times_removeFromPredecessors _ other)
  change (linked.modify action (·.unscheduled) other).times = _
  by_cases same : other = action
  · subst same
    rw [modify_self, without,
      modify_self]
    exact congrArg (fun times => (false, times.2)) (linkedTimes other)
  · rw [modify_of_ne same, without,
      modify_of_ne same]
    exact linkedTimes other

theorem unscheduleAction_self :
    ((worker.unscheduleAction table action).2 action).scheduled = false ∧
      ((worker.unscheduleAction table action).2
        action).resourcePredecessors = [] := by
  simp only [unscheduleAction,
    FullGraphResourceScheduler.unscheduleAction, modify_self]
  exact ⟨rfl, rfl⟩

end Unscheduled

/-!
## Scheduling on the receiver
-/

section Scheduled

variable
  {Resources : Type}
  {dynamic : DynamicResources Resources}

/-- The plan of an action, when its data are available at `dataEnd` and it takes
over gaps of the origins `taken` -/
theorem scheduleUsingGaps_self
    (assigned : AssignedAction Resources)
    (gaps : List (Gap Resources))
    (table : SchedulingTable) :
    let action := assigned.action
    let dataEnd := latestEnd table 0 assigned.dataPredecessors
    let taken := (takeFromGaps dynamic gaps dataEnd assigned.requirements).2
    let after := (scheduleUsingGaps dynamic assigned gaps table).2 action
    after.scheduled = true ∧
      after.expectedEnd =
        latestEnd (table.marked action) dataEnd taken +
          assigned.averageExecutionTime.getD 0 ∧
      after.resourcePredecessors =
        (table action).resourcePredecessors ++
          taken.filter fun origin => (table.marked action origin).scheduled := by
  intro action dataEnd taken after
  let linked := (table.marked action).linkAll action taken
  let expectedStart := latestEnd (table.marked action) dataEnd taken
  let expectedEnd := expectedStart + assigned.averageExecutionTime.getD 0
  have planned :
      after = { linked action with expectedStart, expectedEnd } :=
    @modify_self linked action fun dsi =>
      { dsi with expectedStart, expectedEnd }
  rw [planned]
  refine ⟨?_, rfl, ?_⟩
  · refine (scheduled_linkAll action).trans ?_
    rw [marked, modify_self]
  · refine predecessors_linkAll_filter.trans ?_
    rw [if_pos rfl, marked, modify_self]

theorem OptimizationWorker.scheduleAction_table
    (worker : OptimizationWorker Resources)
    (table : SchedulingTable)
    (assigned : AssignedAction Resources) :
    (worker.scheduleAction dynamic table assigned).2 =
      (scheduleUsingGaps dynamic assigned worker.resource.gaps table).2 := by
  simp only [scheduleAction,
    FullGraphResourceScheduler.scheduleAction, worker.optimized]

end Scheduled

namespace GlobalPlan

variable
  {Resources Impl : Type}
  {environment : OptimizerEnvironment Resources Impl}
  {plan placed after : GlobalPlan Resources Impl}
  {action : ActionId}
  {donor receiver : WorkerId}
  {impl : Impl}

/-- The action is scheduled on the donor and has not been started. -/
structure Moveable
    (plan : GlobalPlan Resources Impl)
    (donor : WorkerId)
    (action : ActionId) : Prop where
  runnable : (plan.graph action).state = .RUNNABLE
  resource : plan.selectedResource action = some donor

/-- When the data predecessors end -/
def dataEnd (plan : GlobalPlan Resources Impl) (action : ActionId) : Int :=
  latestEnd (plan.table.without action) 0
    (plan.graph action).dataPredecessors.items

variable (environment plan action receiver impl) in
/-- The origins of the gaps that the action needs on the receiver -/
def takenOver : List ActionId :=
  (takeFromGaps environment.dynamic (plan.workers receiver).resource.gaps
    (plan.dataEnd action) (environment.requirements impl)).2

variable (environment plan action receiver impl) in
/-- When the action is to end on the receiver -/
def endOn : Int :=
  latestEnd (plan.table.marked action) (plan.dataEnd action)
      (plan.takenOver environment action receiver impl) +
    environment.averageExecutionTime receiver impl

variable (environment plan action receiver impl) in
/-- The action is unscheduled and scheduled on the receiver. -/
def place : GlobalPlan Resources Impl :=
  ((plan.unschedule action).assign action receiver impl).scheduleOn environment
    action receiver

variable (environment plan action receiver impl) in
structure Placed
    (placed : GlobalPlan Resources Impl) : Prop where
  resources :
    placed.selectedResource =
      update plan.selectedResource action (some receiver)
  graph : placed.graph = plan.graph
  executing : placed.executingResources = plan.executingResources
  scheduled : (placed.table action).scheduled = true
  expectedEnd :
    (placed.table action).expectedEnd =
      plan.endOn environment action receiver impl
  predecessors :
    (placed.table action).resourcePredecessors =
      (plan.takenOver environment action receiver impl).filter fun origin =>
        (plan.table.marked action origin).scheduled
  gaps :
    ∀ worker, worker ≠ receiver →
      (placed.workers worker).resource.gaps =
        (plan.workers worker).resource.gaps

theorem placed_place
    (moveable : plan.Moveable donor action)
    (isOther : receiver ≠ donor) :
    Placed environment plan action receiver impl
      (plan.place environment action receiver impl) := by
  let unscheduled := (plan.workers donor).unscheduleAction plan.table action
  have unscheduledPlan :
      plan.unschedule action =
        { plan with
          workers := update plan.workers donor unscheduled.1
          table := unscheduled.2 } := by
    rw [unschedule, moveable.resource]
  let assigned : AssignedAction Resources :=
    { action
      dataPredecessors := (plan.graph action).dataPredecessors.items
      requirements := environment.requirements impl
      averageExecutionTime :=
        some (environment.averageExecutionTime receiver impl) }
  let scheduled :=
    (plan.workers receiver).scheduleAction environment.dynamic unscheduled.2
      assigned
  have placedPlan :
      plan.place environment action receiver impl =
        { plan with
          workers :=
            update
              (update plan.workers donor unscheduled.1) receiver
              scheduled.1
          table := scheduled.2
          selectedResource :=
            update plan.selectedResource action (some receiver)
          selectedImpl :=
            update plan.selectedImpl action (some impl) } := by
    simp only [place, unscheduledPlan, assign, moveable.runnable, if_true,
      scheduleOn, update_self, update_of_ne isOther]
    rfl
  have sameTimes :
      ∀ other, (unscheduled.2 other).times =
        (plan.table.without action other).times :=
    times_unscheduleAction (plan.workers donor)
  have sameDataEnd :
      latestEnd unscheduled.2 0 assigned.dataPredecessors =
        plan.dataEnd action :=
    latestEnd_congr sameTimes 0 _
  have sameMarked := times_marked sameTimes
  have planned :=
    @scheduleUsingGaps_self _ environment.dynamic assigned
      (plan.workers receiver).resource.gaps unscheduled.2
  rw [← scheduleAction_table, sameDataEnd] at planned
  obtain ⟨isScheduled, expectedEnd, predecessors⟩ := planned
  rw [placedPlan]
  refine ⟨rfl, rfl, rfl, isScheduled, ?_, ?_, ?_⟩
  · refine expectedEnd.trans ?_
    rw [latestEnd_congr sameMarked]
    rfl
  · refine predecessors.trans ?_
    rw [(unscheduleAction_self (plan.workers donor)).2, nil_append]
    refine filter_congr fun origin _ => ?_
    exact congrArg Prod.fst (sameMarked origin)
  · intro worker isNotReceiver
    simp only [update_of_ne isNotReceiver]
    by_cases isDonor : worker = donor
    · subst isDonor
      rw [update_self]
      rfl
    · rw [update_of_ne isDonor]

/-!
## Launching
-/

/-- Launching changes the state of the action only. -/
structure SamePlan (before after : GlobalPlan Resources Impl) : Prop where
  table : after.table = before.table
  workers : after.workers = before.workers
  resources : after.selectedResource = before.selectedResource
  data :
    ∀ other,
      (after.graph other).dataPredecessors =
          (before.graph other).dataPredecessors ∧
        (after.graph other).dataSuccessors =
          (before.graph other).dataSuccessors

theorem samePlan_refl : SamePlan plan plan :=
  ⟨rfl, rfl, rfl, fun _ => ⟨rfl, rfl⟩⟩

theorem data_setState
    (graph : ActionId → ActionNode)
    (state : ActionState)
    (other : ActionId) :
    let after := update graph action { graph action with state }
    (after other).dataPredecessors = (graph other).dataPredecessors ∧
      (after other).dataSuccessors = (graph other).dataSuccessors := by
  by_cases same : other = action
  · subst same
    simp
  · simp [update_of_ne same]

theorem samePlan_execute
    {resource : WorkerId} :
    SamePlan plan (plan.execute environment action resource) := by
  unfold execute
  dsimp only
  split
  · exact ⟨rfl, rfl, rfl, data_setState plan.graph .RUNNING⟩
  · exact ⟨rfl, rfl, rfl, data_setState plan.graph .WAITING⟩

theorem samePlan_tryToLaunch
    (launched : plan.tryToLaunch environment action = some after) :
    SamePlan plan after := by
  unfold tryToLaunch at launched
  split at launched
  case h_1 noResource =>
    cases launched
    exact samePlan_refl
  case h_2 resource isResource =>
    split at launched
    case isFalse notReady =>
      cases launched
      exact samePlan_refl
    case isTrue ready =>
      split at launched
      case isTrue refused => cases launched
      case isFalse accepted =>
        cases launched
        exact samePlan_execute

variable (environment plan action receiver impl) in
/-- The action could run on the receiver, but it has to run somewhere else. -/
structure Refused : Prop where
  noData : (plan.graph action).hasDataPredecessors = false
  noResources :
    ∀ origin ∈ plan.takenOver environment action receiver impl,
      (plan.table.marked action origin).scheduled = false
  constrained : environment.getConstrainingPredecessors action ≠ []
  elsewhere :
    ∀ predecessor ∈ environment.getConstrainingPredecessors action,
      predecessor ≠ action ∧ plan.selectedResource predecessor ≠ some receiver

theorem unrequiredResource_placed
    (isPlaced : Placed environment plan action receiver impl placed) :
    placed.unrequiredResource environment action = true ↔
      ∀ predecessor ∈ environment.getConstrainingPredecessors action,
        predecessor ≠ action ∧
          plan.selectedResource predecessor ≠ some receiver := by
  rw [unrequiredResource, all_eq_true]
  refine forall₂_congr fun predecessor isPredecessor => ?_
  rw [isPlaced.resources, update_self, decide_eq_true_iff]
  by_cases same : predecessor = action
  · subst same
    rw [update_self]
    simp
  · rw [update_of_ne same]
    simp [same]

theorem tryToLaunch_placed
    (moveable : plan.Moveable donor action)
    (isPlaced : Placed environment plan action receiver impl placed) :
    placed.tryToLaunch environment action = none ↔
      plan.Refused environment action receiver impl := by
  have resource : placed.selectedResource action = some receiver := by
    rw [isPlaced.resources, update_self]
  have executable :
      (placed.table action).isExecutable = true ↔
        ∀ origin ∈ plan.takenOver environment action receiver impl,
          (plan.table.marked action origin).scheduled = false := by
    rw [isExecutable, isPlaced.predecessors,
      List.isEmpty_iff, List.filter_eq_nil_iff]
    refine forall₂_congr fun origin isOrigin => ?_
    rw [Bool.not_eq_true]
  have constrained :
      ¬(environment.getConstrainingPredecessors action).isEmpty = true ↔
        environment.getConstrainingPredecessors action ≠ [] := by
    rw [List.isEmpty_iff]
  simp only [tryToLaunch, resource, isPlaced.graph, moveable.runnable,
    executable, constrained, unrequiredResource_placed isPlaced]
  constructor
  · intro refused
    split at refused
    case isFalse notReady => cases refused
    case isTrue ready =>
      split at refused
      case isFalse accepted => cases refused
      case isTrue unrequired =>
        exact ⟨by simpa using ready.2.1, ready.2.2, unrequired.1, unrequired.2⟩
  · intro refused
    rw [if_pos ⟨trivial, by simp [refused.noData], refused.noResources⟩,
      if_pos ⟨refused.constrained, refused.elsewhere⟩]

/-!
## An action that has to run somewhere else
-/

variable (environment plan action receiver impl) in
/-- The action is refused, and the worker of its first constraining predecessor
takes it instead. -/
structure SentElsewhere : Prop where
  refused : plan.Refused environment action receiver impl
  taken :
    ∃ predecessor rest worker,
      environment.getConstrainingPredecessors action = predecessor :: rest ∧
        plan.selectedResource predecessor = some worker ∧
          plan.canBeScheduled environment action worker = true

variable {target : WorkerId}

theorem selectedResource_scheduleOn :
    (plan.scheduleOn environment action target).selectedResource =
      plan.selectedResource := by
  unfold scheduleOn
  split
  · rfl
  · rfl

/-- Scheduling an action assigns it to its target, or to no other worker. -/
theorem selectedResource_scheduleScored
    (scheduled :
      plan.scheduleScored environment action (some target) = some after) :
    after.selectedResource =
      if (plan.graph action).state = .RUNNABLE then
        update plan.selectedResource action (some target)
      else plan.selectedResource := by
  rw [scheduleScored] at scheduled
  split at scheduled
  case isFalse notTaken => cases scheduled
  case isTrue taken =>
    split at scheduled
    case h_1 noImpl => cases scheduled
    case h_2 first others isCompatible =>
      unfold scheduleAction at scheduled
      split at scheduled
      case isTrue executed => cases scheduled
      case isFalse notExecuted =>
        cases scheduled
        rw [selectedResource_scheduleOn]
        unfold assign
        split
        · rfl
        · rfl

theorem scheduleConstrained_ne
    {predecessors : List ActionId}
    (elsewhere :
      ∀ predecessor ∈ predecessors,
        plan.selectedResource predecessor ≠ some receiver)
    (notOn : plan.selectedResource action ≠ some receiver) :
    (scheduleConstrained environment action predecessors
      plan).selectedResource action ≠ some receiver := by
  induction predecessors generalizing plan with
  | nil => exact notOn
  | cons pre rest hypothesis =>
      rw [scheduleConstrained]
      split
      case h_1 unassigned => exact notOn
      case h_2 scheduled isScheduled =>
        obtain ⟨preElsewhere, restElsewhere⟩ := forall_mem_cons.mp elsewhere
        cases isTarget : plan.selectedResource pre with
        | none =>
            rw [isTarget] at isScheduled
            cases isScheduled
        | some target =>
            rw [isTarget] at isScheduled preElsewhere
            have resources := selectedResource_scheduleScored isScheduled
            have stillElsewhere :
                ∀ other, plan.selectedResource other ≠ some receiver →
                  scheduled.selectedResource other ≠ some receiver := by
              intro other notThere
              rw [resources]
              split
              case isFalse started => exact notThere
              case isTrue runnable =>
                by_cases same : other = action
                · subst same
                  rwa [update_self]
                · rwa [update_of_ne same]
            split
            case h_1 launched isLaunched =>
              rw [(samePlan_tryToLaunch isLaunched).resources]
              exact stillElsewhere action notOn
            case h_2 refused =>
              exact hypothesis
                (fun other isRest =>
                  stillElsewhere other (restElsewhere other isRest))
                (stillElsewhere action notOn)

theorem scheduleScored_placed
    (isPlaced : Placed environment plan action receiver impl placed) :
    (placed.scheduleScored environment action (some target)).isSome =
      plan.canBeScheduled environment action target := by
  have same :
      placed.canBeScheduled environment action target =
        plan.canBeScheduled environment action target := by
    rw [canBeScheduled, canBeScheduled, isPlaced.executing]
  rw [scheduleScored, same]
  cases taken : plan.canBeScheduled environment action target with
  | false => rfl
  | true =>
      simp only [canBeScheduled, Bool.and_eq_true, Bool.not_eq_true',
        contains_eq_mem, decide_eq_false_iff_not] at taken
      obtain ⟨⟨-, notExecuted⟩, compatible⟩ := taken
      rw [if_pos rfl]
      cases impls :
          environment.getCompatibleImplementations action target with
      | nil =>
          rw [impls] at compatible
          contradiction
      | cons first others =>
          simp only [scheduleAction, isPlaced.executing, if_neg notExecuted,
            Option.isSome_some]

theorem executingResources_unschedule :
    (plan.unschedule action).executingResources = plan.executingResources := by
  unfold unschedule
  split
  · rfl
  · rfl

/-- The plan after the action has been scheduled on the receiver -/
theorem schedule_place
    (notExecuted : receiver ∉ plan.executingResources action) :
    (plan.unschedule action).schedule environment action impl receiver =
      match
        (plan.place environment action receiver impl).tryToLaunch environment
          action
      with
      | some launched => launched
      | none =>
          scheduleConstrained environment action
            (environment.getConstrainingPredecessors action)
            (plan.place environment action receiver impl) := by
  rw [schedule, scheduleAction, executingResources_unschedule,
    if_neg notExecuted]
  rfl

section

variable (moveable : plan.Moveable donor action)

include moveable

theorem samePlan_schedule
    (isOther : receiver ≠ donor)
    (notExecuted : receiver ∉ plan.executingResources action)
    (stays : ¬plan.SentElsewhere environment action receiver impl) :
    SamePlan (plan.place environment action receiver impl)
      ((plan.unschedule action).schedule environment action impl receiver) := by
  have isPlaced :=
    @placed_place _ _ environment _ _ _ _ impl moveable isOther
  rw [schedule_place notExecuted]
  cases launched :
      (plan.place environment action receiver impl).tryToLaunch environment
        action with
  | some after => exact samePlan_tryToLaunch launched
  | none =>
      have refused := (tryToLaunch_placed moveable isPlaced).mp launched
      dsimp only
      cases constraining :
          environment.getConstrainingPredecessors action with
      | nil => exact absurd constraining refused.constrained
      | cons pre rest =>
          have notAction :=
            refused.elsewhere pre (constraining ▸ mem_cons_self)
          have unassigned :
              (plan.place environment action receiver impl).scheduleScored
                  environment action
                  ((plan.place environment action receiver
                    impl).selectedResource pre) = none := by
            rw [isPlaced.resources, update_of_ne notAction.1]
            cases isTarget : plan.selectedResource pre with
            | none => rfl
            | some target =>
                refine Option.not_isSome_iff_eq_none.mp fun isSome => ?_
                rw [scheduleScored_placed isPlaced] at isSome
                exact stays ⟨refused, pre, rest, target, constraining,
                  isTarget, isSome⟩
          rw [scheduleConstrained, unassigned]
          exact samePlan_refl

theorem selectedResource_of_sentElsewhere
    (isOther : receiver ≠ donor)
    (notExecuted : receiver ∉ plan.executingResources action)
    (sent : plan.SentElsewhere environment action receiver impl) :
    ((plan.unschedule action).schedule environment action impl
      receiver).selectedResource action ≠ some receiver := by
  have isPlaced :=
    @placed_place _ _ environment _ _ _ _ impl moveable isOther
  obtain ⟨refused, pre, rest, target, constraining, isTarget, taken⟩ := sent
  have elsewhere := refused.elsewhere
  rw [constraining] at elsewhere
  obtain ⟨preElsewhere, restElsewhere⟩ := forall_mem_cons.mp elsewhere
  have notReceiver : some target ≠ some receiver :=
    isTarget ▸ preElsewhere.2
  rw [schedule_place notExecuted,
    (tryToLaunch_placed moveable isPlaced).mpr refused, constraining]
  dsimp only
  obtain ⟨scheduled, isScheduled⟩ :=
    Option.isSome_iff_exists.mp
      ((scheduleScored_placed isPlaced).trans taken)
  have resources := selectedResource_scheduleScored isScheduled
  rw [isPlaced.graph, if_pos moveable.runnable, isPlaced.resources,
    update_idem] at resources
  have stillElsewhere :
      ∀ predecessor ∈ rest,
        scheduled.selectedResource predecessor ≠ some receiver := by
    intro predecessor isRest
    have notThere := restElsewhere predecessor isRest
    rw [resources, update_of_ne notThere.1]
    exact notThere.2
  have notOn : scheduled.selectedResource action ≠ some receiver := by
    rw [resources, update_self]
    exact notReceiver
  rw [scheduleConstrained, isPlaced.resources,
    update_of_ne preElsewhere.1, isTarget, isScheduled]
  dsimp only
  split
  case h_1 launched isLaunched =>
    rw [(samePlan_tryToLaunch isLaunched).resources]
    exact notOn
  case h_2 stillRefused => exact scheduleConstrained_ne stillElsewhere notOn

end

/-!
## One move
-/

/-- The action has left the donor for the receiver, where it is to end earlier. -/
structure Moved
    (before after : GlobalPlan Resources Impl)
    (action : ActionId)
    (receiver : WorkerId) : Prop where
  resource : after.selectedResource action = some receiver
  scheduled : (after.table action).scheduled = true
  /-- No other worker plans for the action. -/
  gaps :
    ∀ worker, worker ≠ receiver →
      (after.workers worker).resource.gaps =
        (before.workers worker).resource.gaps
  others :
    ∀ other, other ≠ action →
      after.selectedResource other = before.selectedResource other
  data :
    ∀ other,
      (after.graph other).dataPredecessors =
          (before.graph other).dataPredecessors ∧
        (after.graph other).dataSuccessors =
          (before.graph other).dataSuccessors
  earlier : (after.table action).expectedEnd < (before.table action).expectedEnd

variable (environment plan action receiver impl) in
/-- What a move should ask before it unschedules the action -/
structure Fits : Prop where
  notExecuted : receiver ∉ plan.executingResources action
  stays : ¬plan.SentElsewhere environment action receiver impl
  earlier :
    plan.endOn environment action receiver impl <
      (plan.table action).expectedEnd

theorem scheduled_unschedule
    (moveable : plan.Moveable donor action) :
    ((plan.unschedule action).table action).scheduled = false := by
  rw [unschedule, moveable.resource]
  exact (unscheduleAction_self (plan.workers donor)).1

theorem schedule_of_executed
    (executed : receiver ∈ plan.executingResources action) :
    (plan.unschedule action).schedule environment action impl receiver =
      plan.unschedule action := by
  rw [schedule, scheduleAction, executingResources_unschedule,
    if_pos executed]

theorem moved_iff_fits
    (moveable : plan.Moveable donor action)
    (isOther : receiver ≠ donor) :
    Moved plan
        ((plan.unschedule action).schedule environment action impl receiver)
        action receiver ↔
      plan.Fits environment action receiver impl := by
  have isPlaced :=
    @placed_place _ _ environment _ _ _ _ impl moveable isOther
  constructor
  · intro moved
    have notExecuted : receiver ∉ plan.executingResources action := by
      intro executed
      have scheduled := moved.scheduled
      rw [schedule_of_executed executed, scheduled_unschedule moveable]
        at scheduled
      contradiction
    have stays : ¬plan.SentElsewhere environment action receiver impl :=
      fun sent =>
        selectedResource_of_sentElsewhere moveable isOther notExecuted sent
          moved.resource
    have same := samePlan_schedule moveable isOther notExecuted stays
    refine ⟨notExecuted, stays, ?_⟩
    have earlier := moved.earlier
    rwa [same.table, isPlaced.expectedEnd] at earlier
  · intro fits
    have same :=
      samePlan_schedule moveable isOther fits.notExecuted fits.stays
    refine ⟨?_, ?_, ?_, ?_, ?_, ?_⟩
    · rw [same.resources, isPlaced.resources, update_self]
    · rw [same.table]
      exact isPlaced.scheduled
    · rw [same.workers]
      exact isPlaced.gaps
    · intro other isNotAction
      rw [same.resources, isPlaced.resources, update_of_ne isNotAction]
    · rw [← isPlaced.graph]
      exact same.data
    · rw [same.table, isPlaced.expectedEnd]
      exact fits.earlier

end GlobalPlan

end DistributedRdf.Scheduling
