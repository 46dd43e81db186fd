import DistributedRdf.FailurePropagation
import DistributedRdf.Placement

namespace DistributedRdf.Scheduling

open Java Relation SchedulerEnv List Option Outcome

/-!
# What placing an action can do

Scheduling and launching change an action in three ways: it is assigned, it is
started or it waits.  Everything that placing it preserves follows from these
changes and from how the placement ends.
-/

namespace SchedulerEnv

variable {kind : SchedulerKind} {scores : Scores} {env : SchedulerEnv}

/-- The action may be assigned to the worker. -/
def Fresh (env : SchedulerEnv) (action : ActionId) (worker : WorkerId) :
    Prop :=
  match (env.actions action).kind with
  | .execution _ _ _ => worker ∉ env.executingResources action
  | .startWorker started => worker = started

variable
  (kind)
  (scores)

/-- No implementation on these workers has a score. -/
def NoneScored
    (env : SchedulerEnv)
    (action : ActionId)
    (coreId : CoreId)
    (workers : List WorkerId) : Prop :=
  ∀ worker ∈ workers,
    ∀ impl ∈ (env.workers worker).features.executableImpls coreId,
      env.generateImplementationScore kind scores action worker impl = none

/-- `schedule` throws an `UnassignedActionException`. -/
def Unassignable
    (env : SchedulerEnv)
    (action : ActionId) : Prop :=
  ∃ coreId workers,
    env.firstImplementation action = .ofCore coreId ∧
      env.candidates action = .ok workers ∧
      env.usefulResources action workers ≠ [] ∧
      NoneScored kind scores env action coreId
        (env.usefulResources action workers)

/-- The action was not executed on the worker, which has a score for it. -/
def Takes
    (env : SchedulerEnv)
    (action : ActionId)
    (worker : WorkerId) : Prop :=
  ∃ coreId, env.firstImplementation action = .ofCore coreId ∧
    worker ∉ env.executingResources action ∧
      ¬ NoneScored kind scores env action coreId [worker]

/-- `schedule(targetWorker, actionScore)` assigns the action to the worker. -/
def TakesAsTarget
    (env : SchedulerEnv)
    (action : ActionId)
    (worker : WorkerId) : Prop :=
  env.Takes kind scores action worker ∧
    ∃ coreId, env.firstImplementation action = .ofCore coreId ∧
      (env.workers worker).canRunCore coreId

/-- The choice is one of the implementations on these workers. -/
structure ChosenFrom
    (env : SchedulerEnv)
    (action : ActionId)
    (coreId : CoreId)
    (workers : List WorkerId)
    (choice : BestChoice) : Prop where
  worker : choice.worker ∈ workers
  implementation :
    choice.implementation ∈
      (env.workers choice.worker).features.executableImpls coreId
  scored :
    env.generateImplementationScore kind scores action choice.worker
      choice.implementation = some choice.score

variable
  {kind}
  {scores}

/-- A fold that takes an element or leaves the best one so far. -/
theorem considered
    (action : ActionId)
    (worker : WorkerId)
    (impls : List Implementation)
    (best : Option BestChoice) :
    let result :=
      impls.foldl (env.considerImplementation kind scores action worker) best
    result = best ∧
        (∀ impl ∈ impls,
          env.generateImplementationScore kind scores action worker impl =
              none ∨
            best.isSome) ∨
      ∃ choice, result = some choice ∧ choice.worker = worker ∧
        choice.implementation ∈ impls ∧
        env.generateImplementationScore kind scores action worker
          choice.implementation = some choice.score := by
  induction impls generalizing best with
  | nil => exact .inl ⟨rfl, fun _ member => absurd member not_mem_nil⟩
  | cons impl rest hypothesis =>
      rw [foldl_cons]
      rcases hypothesis
          (env.considerImplementation kind scores action worker best impl) with
        ⟨same, others⟩ | ⟨choice, chosen, onWorker, member, scored⟩
      · rw [same]
        unfold considerImplementation at others ⊢
        cases score :
            env.generateImplementationScore kind scores action worker impl with
        | none =>
            simp only [score] at others ⊢
            left
            refine ⟨trivial, ?_⟩
            intro other member
            rcases mem_cons.mp member with rfl | later
            · exact .inl score
            · exact others other later
        | some implScore =>
            simp only [score] at others ⊢
            split
            · right
              exact ⟨_, rfl, rfl, mem_cons_self, score⟩
            · rename_i notBetter
              left
              have isSome : best.isSome := by
                cases best with
                | none => exact absurd rfl notBetter
                | some choice => rfl
              exact ⟨rfl, fun _ _ => .inr isSome⟩
      · right
        exact ⟨choice, chosen, onWorker, mem_cons_of_mem impl member,
          scored⟩

theorem considered_workers
    (action : ActionId)
    (coreId : CoreId)
    (workers : List WorkerId)
    (best : Option BestChoice) :
    let result :=
      workers.foldl (env.considerWorker kind scores action coreId) best
    result = best ∧
        (best.isSome ∨ NoneScored kind scores env action coreId workers) ∨
      ∃ choice, result = some choice ∧
        ChosenFrom kind scores env action coreId workers choice := by
  induction workers generalizing best with
  | nil => exact .inl ⟨rfl, .inr fun _ member => absurd member not_mem_nil⟩
  | cons worker rest hypothesis =>
      rw [foldl_cons]
      rcases hypothesis
          (env.considerWorker kind scores action coreId best worker) with
        ⟨same, later⟩ | ⟨choice, chosen, fromRest⟩
      · rw [same]
        unfold considerWorker at later ⊢
        rcases @considered kind scores env action worker
            ((env.workers worker).features.executableImpls coreId) best with
          ⟨unchanged, others⟩ | ⟨choice, chosen, onWorker, member, scored⟩
        · left
          refine ⟨unchanged, ?_⟩
          rw [unchanged] at later
          rcases later with isSome | noneLater
          · exact .inl isSome
          · by_cases isSome : best.isSome
            · exact .inl isSome
            · right
              intro other isOther impl isImpl
              rcases mem_cons.mp isOther with rfl | isLater
              · exact (others impl isImpl).resolve_right isSome
              · exact noneLater other isLater impl isImpl
        · right
          refine ⟨choice, chosen, ?_⟩
          subst onWorker
          exact ⟨mem_cons_self, member, scored⟩
      · right
        exact ⟨choice, chosen, mem_cons_of_mem worker fromRest.worker,
          fromRest.implementation, fromRest.scored⟩

variable
  {coreId : CoreId}
  {workers : List WorkerId}
  {choice : BestChoice}
  {action : ActionId}

theorem chosenFrom_of_bestChoice
    (chosen :
      env.bestChoice kind scores action coreId workers = some choice) :
    ChosenFrom kind scores env action coreId workers choice := by
  rcases @considered_workers kind scores env action coreId workers none with
    ⟨none, _⟩ | ⟨other, isOther, fromWorkers⟩
  · rw [bestChoice, none] at chosen
    exact absurd chosen (by simp)
  · rw [bestChoice, isOther, some.injEq] at chosen
    rwa [← chosen]

theorem noneScored_of_bestChoice
    (noChoice : env.bestChoice kind scores action coreId workers = none) :
    NoneScored kind scores env action coreId workers := by
  rcases @considered_workers kind scores env action coreId workers none with
    ⟨_, none⟩ | ⟨other, isOther, _⟩
  · exact none.resolve_left (by simp)
  · rw [bestChoice, isOther] at noChoice
    exact absurd noChoice (by simp)

theorem ChosenFrom.takes
    (chosen : ChosenFrom kind scores env action coreId workers choice)
    (ofCore : env.firstImplementation action = .ofCore coreId)
    (useful : choice.worker ∉ env.executingResources action) :
    env.Takes kind scores action choice.worker := by
  refine ⟨coreId, ofCore, useful, fun noneScored => ?_⟩
  have noScore :=
    noneScored choice.worker (mem_singleton_self _) choice.implementation
      chosen.implementation
  exact absurd (chosen.scored.symm.trans noScore) (by simp)

/-- What is chosen among the useful resources is accepted. -/
theorem accepts_of_chosenFrom
    (useful : ∀ worker ∈ workers, worker ∉ env.executingResources action)
    (chosen : ChosenFrom kind scores env action coreId workers choice) :
    env.accepts action choice := by
  have canRun :=
    (env.workers choice.worker).features.executable_canRun coreId
      choice.implementation chosen.implementation
  simp [accepts, canRun, useful choice.worker chosen.worker]

end SchedulerEnv

namespace World

variable
  {kind : SchedulerKind}
  {scores : Scores}
  {world : SchedulerWorld}
  {action : ActionId}
  {after : SchedulerWorld}

/-- A hook changes the environment only. -/
theorem callHook_returned
    {hook : SchedulerEnv → Outcome SchedulerEnv Unit} :
    world.callHook hook = .returned after () ↔
      ∃ env, hook world.env = .returned env () ∧
        after = { world with env := env } := by
  rw [callHook, onState_eq_returned]
  simp only [eq_comm]

/-- The action can be launched where it is assigned. -/
structure Launchable
    (world : SchedulerWorld)
    (action : ActionId)
    (assignment : Assignment) : Prop where
  assigned : (world.env.actions action).assigned = some assignment
  runnable : (world.graph action).state = .RUNNABLE
  free : (world.graph action).dataPredecessors.items = []

/-- One change of an action that is placed. -/
inductive Change (scores : Scores) (action : ActionId) :
    SchedulerWorld → SchedulerWorld → Prop where
  | assign
      {world : SchedulerWorld}
      (assignment : Assignment)
      (runnable : (world.graph action).state = .RUNNABLE)
      (fresh : world.env.Fresh action assignment.resource) :
      Change scores action world (world.assign action assignment)
  | start
      {world : SchedulerWorld}
      (assignment : Assignment)
      (launchable : world.Launchable action assignment)
      (noneWaiting : world.env.waiting assignment.resource = [])
      (enough : world.env.areEnoughResources action) :
      Change scores action world
        ((world.registerExecution action assignment.resource).runOn action
          assignment)
  | wait
      {world : SchedulerWorld}
      (assignment : Assignment)
      (launchable : world.Launchable action assignment) :
      Change scores action world
        (world.waitOn scores action assignment.resource)

/-- Any number of changes. -/
abbrev Changes (scores : Scores) (action : ActionId) :
    SchedulerWorld → SchedulerWorld → Prop :=
  ReflTransGen (Change scores action)

/-- What each change preserves. -/
theorem Changes.preserves
    {Holds : SchedulerWorld → Prop}
    (preserved :
      ∀ before between, Change scores action before between →
        Holds before → Holds between)
    (changes : Changes scores action world after)
    (holds : Holds world) :
    Holds after := by
  induction changes with
  | refl => exact holds
  | tail _ change hypothesis => exact preserved _ _ change hypothesis

variable {assignment : Assignment}

theorem changes_assign
    (fresh : world.env.Fresh action assignment.resource) :
    Changes scores action world (world.assign action assignment) := by
  by_cases runnable : (world.graph action).state = .RUNNABLE
  · exact .single (.assign assignment runnable fresh)
  · rw [assign, if_neg runnable]

theorem hasDataPredecessors_iff {node : ActionNode} :
    node.hasDataPredecessors ↔ node.dataPredecessors.items ≠ [] := by
  simp [ActionNode.hasDataPredecessors]

/-- A launch starts the action, lets it wait or does nothing. -/
theorem launch_cases (world : SchedulerWorld) (action : ActionId) :
    world.launch scores action = (world, false) ∨
      world.launch scores action = (world, true) ∧
        (∀ assignment, ¬ world.Launchable action assignment) ∨
      ∃ assignment, world.Launchable action assignment ∧
        world.launch scores action =
          (world.execute scores action assignment.resource, true) := by
  unfold launch assignedResource
  cases assigned : (world.env.actions action).assigned with
  | none =>
      right; left
      refine ⟨rfl, fun assignment launchable => ?_⟩
      exact absurd (assigned.symm.trans launchable.assigned) (by simp)
  | some assignment =>
      simp only [map_some]
      by_cases ready : (world.graph action).state = .RUNNABLE ∧
          ¬ (world.graph action).hasDataPredecessors
      · rw [if_pos ready]
        by_cases invalid : world.env.isSchedulingConstrained action ∧
            world.env.unrequiredResource action
        · rw [if_pos invalid]
          exact .inl rfl
        · rw [if_neg invalid]
          right; right
          refine ⟨assignment, ⟨assigned, ready.1, ?_⟩, rfl⟩
          exact not_not.mp (mt hasDataPredecessors_iff.mpr ready.2)
      · rw [if_neg ready]
        right; left
        refine ⟨rfl, fun other launchable => ready ⟨launchable.runnable, ?_⟩⟩
        exact mt hasDataPredecessors_iff.mp (not_not.mpr launchable.free)

theorem execute_change
    (launchable : world.Launchable action assignment) :
    Change scores action world
      (world.execute scores action assignment.resource) := by
  unfold execute
  by_cases canStart : world.env.waiting assignment.resource = [] ∧
      world.env.areEnoughResources action
  · have assigned :
        ((world.registerExecution action assignment.resource).env.actions
          action).assigned = some assignment := by
      simp [registerExecution, modifyAction, launchable.assigned]
    rw [if_pos canStart, run, assigned]
    exact .start assignment launchable canStart.1 canStart.2
  · rw [if_neg canStart]
    exact .wait assignment launchable

theorem launch_changes (world : SchedulerWorld) (action : ActionId) :
    Changes scores action world (world.launch scores action).1 := by
  rcases @launch_cases scores world action with
    invalid | ⟨unchanged, _⟩ | ⟨assignment, launchable, executed⟩
  · rw [invalid]
  · rw [unchanged]
  · rw [executed]
    exact .single (execute_change launchable)

variable
  {choice : BestChoice}
  {coreId : CoreId}

/-- The choice of a worker does not depend on its having been chosen before. -/
theorem fresh_of_accepts
    {forcedResource : Option WorkerId}
    {constrainingPredecessors : List ActionId}
    (ofKind :
      (world.env.actions action).kind =
        .execution coreId forcedResource constrainingPredecessors)
    (accepted : world.env.accepts action choice) :
    world.env.Fresh action choice.worker := by
  simp only [accepts, Bool.and_eq_true,
    decide_eq_true_eq] at accepted
  simpa only [SchedulerEnv.Fresh, ofKind] using accepted.2

variable {targetWorker : Option WorkerId}

theorem choice_of_targetedChoice
    (ofCore : world.env.firstImplementation action = .ofCore coreId)
    (isChoice :
      world.env.targetedChoice kind scores action coreId targetWorker =
        some choice) :
    targetWorker = some choice.worker ∧
      world.env.TakesAsTarget kind scores action choice.worker ∧
        world.env.accepts action choice := by
  unfold targetedChoice at isChoice
  split at isChoice
  · exact absurd isChoice (by simp)
  · split at isChoice
    · rename_i worker useful
      simp only [Bool.and_eq_true, decide_eq_true_eq] at useful
      rcases filter_eq_some_iff.mp isChoice with ⟨chosen, accepted⟩
      have fromTarget := chosenFrom_of_bestChoice chosen
      have onWorker := mem_singleton.mp fromTarget.worker
      rw [← onWorker] at useful ⊢
      exact ⟨rfl, ⟨fromTarget.takes ofCore useful.2, coreId, ofCore, useful.1⟩,
        accepted⟩
    · exact absurd isChoice (by simp)

variable (targetWorker)

/-- A target that takes the action is chosen. -/
theorem targetedChoice_isSome
    {worker : WorkerId}
    (ofCore : world.env.firstImplementation action = .ofCore coreId)
    (takes : world.env.TakesAsTarget kind scores action worker) :
    (world.env.targetedChoice kind scores action coreId
      (some worker)).isSome := by
  rcases takes with
    ⟨⟨core, ofCore', useful, scored⟩, otherCore, ofCore'', canRun⟩
  rw [ofCore, FirstImplementation.ofCore.injEq] at ofCore' ofCore''
  rw [← ofCore'] at scored
  rw [← ofCore''] at canRun
  simp only [targetedChoice, canRun, useful, not_false_eq_true,
    decide_true, Bool.and_self, if_true]
  cases chosen : world.env.bestChoice kind scores action coreId [worker] with
  | none => exact absurd (noneScored_of_bestChoice chosen) scored
  | some choice =>
      have accepted : world.env.accepts action choice := by
        refine accepts_of_chosenFrom ?_
          (chosenFrom_of_bestChoice chosen)
        intro other isOther
        rwa [mem_singleton.mp isOther]
      simp [Option.filter, accepted]

variable
  (world)
  (action)

/-- A target that does not take the action leaves it as it is. -/
theorem scheduleOn_cases :
    (world.scheduleOn kind scores action targetWorker = (world, .unassigned) ∧
      ∀ worker, targetWorker = some worker →
        ¬ world.env.TakesAsTarget kind scores action worker) ∨
      ∃ assignment, world.env.Fresh action assignment.resource ∧
        (∀ coreId, world.env.firstImplementation action = .ofCore coreId →
          targetWorker = some assignment.resource ∧
            world.env.TakesAsTarget kind scores action assignment.resource) ∧
        world.scheduleOn kind scores action targetWorker =
          (world.assign action assignment, .assigned) := by
  unfold scheduleOn
  cases ofKind : (world.env.actions action).kind with
  | startWorker worker =>
      right
      refine ⟨⟨worker, _⟩, ?_, ?_, rfl⟩
      · simp only [SchedulerEnv.Fresh, ofKind]
      · simp [firstImplementation, ofKind]
  | execution coreId forcedResource constrainingPredecessors =>
      have ofCore : world.env.firstImplementation action = .ofCore coreId := by
        simp only [firstImplementation, ofKind]
      cases isChoice :
          world.env.targetedChoice kind scores action coreId targetWorker with
      | none =>
          left
          simp only [isChoice]
          refine ⟨rfl, ?_⟩
          rintro worker rfl takes
          have isSome := targetedChoice_isSome ofCore takes
          rw [isChoice] at isSome
          exact absurd isSome (by simp)
      | some choice =>
          rcases choice_of_targetedChoice ofCore isChoice with
            ⟨target, takes, accepted⟩
          right
          refine ⟨⟨choice.worker, choice.implementation⟩,
            fresh_of_accepts ofKind accepted, fun _ _ => ⟨target, takes⟩, ?_⟩
          simp only [isChoice, assignChoice]

theorem scheduleOn_changes :
    Changes scores action world
      (world.scheduleOn kind scores action targetWorker).1 := by
  rcases @scheduleOn_cases kind scores world action targetWorker with
    ⟨unassigned, _⟩ | ⟨assignment, fresh, _, assigned⟩
  · rw [unassigned]
  · rw [assigned]
    exact changes_assign fresh

variable {action}

theorem reassign_changes
    (predecessors : List ActionId)
    (world : SchedulerWorld) :
    Changes scores action world
      (reassign kind scores action predecessors world).state := by
  induction predecessors generalizing world with
  | nil => exact .refl
  | cons predecessor rest hypothesis =>
      unfold reassign
      have scheduled := @scheduleOn_changes kind scores world action
        (world.env.assignedResource predecessor)
      by_cases isAssigned : (world.scheduleOn kind scores action
          (world.env.assignedResource predecessor)).2 = .assigned
      · have launched := scheduled.trans (launch_changes _ action)
        simp only [isAssigned, if_true]
        split
        · exact launched
        · split
          · exact launched
          · exact launched.trans (hypothesis _)
      · simp only [isAssigned, if_false, Bool.false_eq_true]
        split
        · exact scheduled
        · exact scheduled.trans (hypothesis _)

theorem tryToLaunch_changes (action : ActionId) :
    Changes scores action world
      (world.tryToLaunch kind scores action).state := by
  have launched := @launch_changes scores world action
  simp only [tryToLaunch]
  split
  · exact launched
  · exact launched.trans (reassign_changes _ _)

/-!
## How a placement ends
-/

variable {world}

/-- The ways in which a placement ends, by the result of the schedule. -/
inductive Placed
    (kind : SchedulerKind)
    (scores : Scores)
    (world : SchedulerWorld)
    (action : ActionId) : Outcome SchedulerWorld Unit → Prop where
  | undecided
      {exception : JavaException}
      (error : world.env.candidates action = .error exception)
      (free : kind ≠ .base →
        (world.graph action).dataPredecessors.items = []) :
      Placed kind scores world action (.raised world exception)
  | depending
      (isReady : kind ≠ .base)
      (depends : (world.graph action).dataPredecessors.items ≠ []) :
      Placed kind scores world action
        (world.callHook (·.addToDepending action))
  | blocked
      (noneUseful :
        ∃ workers, world.env.candidates action = .ok workers ∧
          world.env.usefulResources action workers = [])
      (isExecution : ∃ coreId, world.env.firstImplementation action =
        .ofCore coreId)
      (free : kind ≠ .base →
        (world.graph action).dataPredecessors.items = []) :
      Placed kind scores world action (world.block action)
  | lost
      (isBase : kind = .base)
      (unassignable : world.env.Unassignable kind scores action) :
      Placed kind scores world action (world.tryToLaunch kind scores action)
  | unassigned
      (isReady : kind ≠ .base)
      (free : (world.graph action).dataPredecessors.items = [])
      (unassignable : world.env.Unassignable kind scores action) :
      Placed kind scores world action
        ((world.callHook (·.addToUnassigned action)).andThen fun world _ =>
          world.tryToLaunch kind scores action)
  | assigned
      (assignment : Assignment)
      (fresh : world.env.Fresh action assignment.resource)
      (candidate : ∀ coreId,
        world.env.firstImplementation action = .ofCore coreId →
          ∃ workers, world.env.candidates action = .ok workers ∧
            assignment.resource ∈ workers ∧
              world.env.Takes kind scores action assignment.resource)
      (free : kind ≠ .base →
        (world.graph action).dataPredecessors.items = []) :
      Placed kind scores world action
        ((world.assign action assignment).tryToLaunch kind scores action)

/-- An action that still depends on others is not launched. -/
theorem tryToLaunch_of_depends
    (depends : (world.graph action).dataPredecessors.items ≠ []) :
    world.tryToLaunch kind scores action = .returned world () := by
  have hasPredecessors := hasDataPredecessors_iff.mpr depends
  have launched : world.launch scores action = (world, true) := by
    unfold launch
    split
    · rfl
    · simp [hasPredecessors]
  simp [tryToLaunch, launched]

variable
  (world)
  (action)

/-- The cases of `schedule`. -/
theorem schedule_cases :
    (∃ exception, world.env.candidates action = .error exception ∧
      world.schedule kind scores action = .raised world exception) ∨
    (∃ workers coreId, world.env.candidates action = .ok workers ∧
      world.env.firstImplementation action = .ofCore coreId ∧
      world.env.usefulResources action workers = [] ∧
      world.schedule kind scores action = .returned world .blocked) ∨
    (world.env.Unassignable kind scores action ∧
      world.schedule kind scores action = .returned world .unassigned) ∨
    ∃ assignment, world.env.Fresh action assignment.resource ∧
      (∀ coreId, world.env.firstImplementation action = .ofCore coreId →
        ∃ workers, world.env.candidates action = .ok workers ∧
          assignment.resource ∈ workers ∧
            world.env.Takes kind scores action assignment.resource) ∧
      world.schedule kind scores action =
        .returned (world.assign action assignment) .assigned := by
  unfold schedule
  cases ofKind : (world.env.actions action).kind with
  | startWorker worker =>
      right; right; right
      refine ⟨⟨worker, _⟩, ?_, ?_, rfl⟩
      · simp only [SchedulerEnv.Fresh, ofKind]
      · simp [firstImplementation, ofKind]
  | execution coreId forcedResource constrainingPredecessors =>
      have ofCore : world.env.firstImplementation action = .ofCore coreId := by
        simp only [firstImplementation, ofKind]
      cases candidates : world.env.candidates action with
      | error exception => exact .inl ⟨exception, rfl, rfl⟩
      | ok workers =>
          by_cases noneUseful : world.env.usefulResources action workers = []
          · right; left
            refine ⟨workers, coreId, rfl, ofCore, noneUseful, ?_⟩
            simp only [noneUseful, if_true]
          · simp only [noneUseful, if_false]
            right; right
            cases chosen : world.env.bestChoice kind scores action coreId
                (world.env.usefulResources action workers) with
            | none =>
                left
                exact ⟨⟨coreId, workers, ofCore, candidates, noneUseful,
                  noneScored_of_bestChoice chosen⟩, rfl⟩
            | some choice =>
                have fromUseful := chosenFrom_of_bestChoice chosen
                have useful :
                    ∀ worker ∈ world.env.usefulResources action workers,
                      worker ∉ world.env.executingResources action := by
                  intro worker isUseful
                  simpa using (mem_filter.mp isUseful).2
                have accepted : world.env.accepts action choice :=
                  accepts_of_chosenFrom useful fromUseful
                right
                refine ⟨⟨choice.worker, choice.implementation⟩,
                  fresh_of_accepts ofKind accepted, ?_, ?_⟩
                · intro _ _
                  exact ⟨workers, rfl,
                    (mem_filter.mp fromUseful.worker).1,
                    fromUseful.takes ofCore (useful _ fromUseful.worker)⟩
                · simp [Option.filter, accepted, assignChoice]

theorem place_placed :
    Placed kind scores world action (world.place kind scores action) := by
  have placedBy
      (scheduleAction :
        world.scheduleAction kind scores action =
          (world.schedule kind scores action).andThen fun world result =>
            if kind ≠ .base ∧ result = .unassigned then
              (world.callHook (·.addToUnassigned action)).andThen
                fun world _ => .returned world false
            else
              .returned world (result = .blocked))
      (free : kind ≠ .base →
        (world.graph action).dataPredecessors.items = []) :
      Placed kind scores world action (world.place kind scores action) := by
    unfold place
    rw [scheduleAction, andThen_assoc]
    rcases @schedule_cases kind scores world action with
      ⟨exception, error, raised⟩ |
      ⟨workers, coreId, known, ofCore, noneUseful, blocked⟩ |
      ⟨unassignable, unassigned⟩ |
      ⟨assignment, fresh, candidate, assigned⟩
    · rw [raised]
      exact .undecided error free
    · rw [blocked]
      simpa using
        Placed.blocked ⟨workers, known, noneUseful⟩ ⟨coreId, ofCore⟩ free
    · rw [unassigned]
      by_cases isBase : kind = .base
      · simpa [isBase] using Placed.lost isBase unassignable
      · have placed : Placed kind scores world action _ :=
          .unassigned isBase (free isBase) unassignable
        simpa [isBase, andThen_assoc] using placed
    · rw [assigned]
      simpa using Placed.assigned assignment fresh candidate free
  have dependingPlaced
      (isReady : kind ≠ .base)
      (depends : (world.graph action).hasDataPredecessors)
      (scheduleAction :
        world.scheduleAction kind scores action =
          (world.callHook (·.addToDepending action)).andThen fun world _ =>
            .returned world false) :
      Placed kind scores world action (world.place kind scores action) := by
    have hasPredecessors := hasDataPredecessors_iff.mp depends
    have placed : Placed kind scores world action _ :=
      .depending isReady hasPredecessors
    unfold place
    rw [scheduleAction, andThen_assoc]
    cases added : world.callHook (·.addToDepending action) with
    | raised after exception => rwa [added] at placed
    | returned after value =>
        rcases callHook_returned.mp added with ⟨env, _, rfl⟩
        have launched :
            tryToLaunch kind scores { world with env := env } action =
              .returned { world with env := env } () :=
          tryToLaunch_of_depends hasPredecessors
        rw [added] at placed
        simpa [launched] using placed
  cases kind with
  | base =>
      apply placedBy
      · simp [scheduleAction]
      · exact fun isReady => absurd rfl isReady
  | ready | fifoData =>
      by_cases depends : (world.graph action).hasDataPredecessors
      · exact dependingPlaced (by decide) depends
          (by simp [scheduleAction, depends])
      · apply placedBy
        · simp [scheduleAction, depends]
        · intro _
          exact not_not.mp (mt hasDataPredecessors_iff.mpr depends)

end World

end DistributedRdf.Scheduling
