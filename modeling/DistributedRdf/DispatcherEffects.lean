import DistributedRdf.ReadyPlacement

namespace DistributedRdf.Scheduling

open Java Relation Execution SchedulerEnv List Outcome

/-!
# What the steps of the dispatcher do

Each step is reduced to its changes of the state and to the work that it leaves,
for actions that are ready when they are placed.
-/

namespace SchedulerEnv

variable
  {kind : SchedulerKind}
  {scores : Scores}
  {env : SchedulerEnv}
  {action : ActionId}

/-- The counts of the cores of several actions have increased. -/
structure RecountedBy
    (env : SchedulerEnv)
    (actions : List ActionId)
    (counts : List Int) : Prop where
  length : counts.length = env.readyCounts.length
  entry :
    ∀ coreId,
      counts[coreId]? =
        env.readyCounts[coreId]?.map fun count =>
          count +
            ((actions.countP fun action =>
              env.firstImplementation action = .ofCore coreId : Nat) : Int)

theorem RecountedBy.nil : env.RecountedBy [] env.readyCounts :=
  ⟨rfl, fun coreId => by simp⟩

theorem RecountedBy.cons
    {rest : List ActionId}
    {between counts : List Int}
    (first : env.Recounted action 1 between)
    (later :
      ({ env with readyCounts := between } : SchedulerEnv).RecountedBy rest
        counts) :
    env.RecountedBy (action :: rest) counts where
  length := later.length.trans first.length
  entry coreId := by
    have laterEntry := later.entry coreId
    simp only [first.entry coreId, Option.map_map] at laterEntry
    rw [laterEntry]
    congr 1
    funext count
    rw [countP_cons]
    by_cases ofCore : env.firstImplementation action = .ofCore coreId
    · simp only [Function.comp_apply, ofCore, if_true, decide_true]
      push_cast
      change _ + ((rest.countP fun action =>
        env.firstImplementation action = .ofCore coreId : Nat) : Int) = _
      ring
    · simp only [Function.comp_apply, ofCore, if_false, decide_false,
        Bool.false_eq_true, Nat.add_zero]
      rfl

/-- Whether a worker takes an action does not depend on the collections. -/
theorem Takes.congr
    {after : SchedulerEnv}
    {worker : WorkerId}
    (takes : env.Takes kind scores action worker)
    (actions : after.actions = env.actions)
    (workers : after.workers = env.workers) :
    after.Takes kind scores action worker := by
  rcases takes with ⟨coreId, ofCore, useful, scored⟩
  refine ⟨coreId, ?_, ?_, fun noneScored => scored ?_⟩
  · simpa only [firstImplementation, actions] using ofCore
  · simpa only [executingResources, actions] using useful
  · exact NoneScored.congr noneScored workers.symm

theorem LaunchedByPlacing.congr
    {after : SchedulerEnv}
    (launched : env.LaunchedByPlacing kind scores action)
    (actions : after.actions = env.actions)
    (workers : after.workers = env.workers)
    (coreToWorkers : after.coreToWorkers = env.coreToWorkers) :
    after.LaunchedByPlacing kind scores action := by
  have sameResource (other : ActionId) :
      after.assignedResource other = env.assignedResource other := by
    simp only [assignedResource, actions]
  have samePredecessors :
      after.getConstrainingPredecessors action =
        env.getConstrainingPredecessors action := by
    simp only [getConstrainingPredecessors, actions]
  have sameCandidates : after.candidates action = env.candidates action := by
    simp only [candidates, isSchedulingConstrained, samePredecessors, actions,
      sameResource, coreToWorkers]
    rfl
  rcases launched with ⟨candidates, areCandidates, areLaunched⟩
  refine ⟨candidates, sameCandidates.trans areCandidates, ?_⟩
  intro worker isCandidate takesAfter
  rcases areLaunched worker isCandidate
      (takesAfter.congr actions.symm workers.symm) with meets | taken
  · left
    intro constrained
    simp only [isSchedulingConstrained, samePredecessors] at constrained
    rcases meets constrained with ⟨predecessor, isPredecessor, resource⟩
    exact ⟨predecessor, samePredecessors ▸ isPredecessor,
      (sameResource predecessor).trans resource⟩
  · right
    rcases taken with
      ⟨earlier, predecessor, later, target, isSplit, areAssigned, assigned,
        takes, coreId, ofCore, canRun⟩
    refine ⟨earlier, predecessor, later, target,
      samePredecessors.trans isSplit, ?_,
      (sameResource predecessor).trans assigned,
      takes.congr actions workers, coreId, ?_, ?_⟩
    · intro other isEarlier
      rw [sameResource]
      exact areAssigned other isEarlier
    · simpa only [firstImplementation, actions] using ofCore
    · rwa [workers]

end SchedulerEnv

namespace World

variable
  {kind : SchedulerKind}
  {scores : Scores}
  {world : SchedulerWorld}
  {action : ActionId}
  {assignment : Assignment}

/-- The ready counters are the only thing to change. -/
def recount (world : SchedulerWorld) (counts : List Int) : SchedulerWorld :=
  { world with env := { world.env with readyCounts := counts } }

section

variable (consistent : Consistent world)

include consistent

theorem Consistent.recount
    {counts : List Int}
    (length : counts.length = world.env.readyCounts.length) :
    Consistent (world.recount counts) := by
  apply consistent.withEnv
  · exact fun _ => .refl _
  · rfl
  · rfl
  · exact Nat.le_refl _
  · exact length.trans consistent.counted
  · exact consistent.blockedKnown
  · exact consistent.unassignedKnown

theorem Consistent.changeReadyCount_eq
    (known : action < world.nextId)
    (change : Int) :
    ∃ counts, world.env.Recounted action change counts ∧
      world.callHook (·.changeReadyCount action change) =
        .returned (world.recount counts) () := by
  rcases consistent.changeReadyCount_returned known change with
    ⟨env, changed, _⟩
  rcases SchedulerEnv.changeReadyCount_returned changed with
    ⟨counts, rfl, recounted⟩
  exact ⟨counts, recounted, callHook_returned.mpr ⟨_, changed, rfl⟩⟩

/-- A ready action is counted and placed. -/
theorem Consistent.newAllocatableAction_ready
    (ready : world.IsReady action) :
    ∃ counts, world.env.Recounted action 1 counts ∧
      world.newAllocatableAction kind scores action =
        (world.recount counts).place kind scores action := by
  have hasNone : ¬ (world.graph action).hasDataPredecessors := by
    rw [hasDataPredecessors_iff, ready.free]
    exact not_not.mpr rfl
  rcases consistent.changeReadyCount_eq ready.known 1 with
    ⟨counts, recounted, called⟩
  refine ⟨counts, recounted, ?_⟩
  unfold newAllocatableAction
  rw [if_neg hasNone, show
    world.callHook (·.addToReady action) = .returned (world.recount counts) ()
    from called, andThen_returned]

theorem Consistent.addAllToReady_eq
    {actions : List ActionId}
    (known : ∀ action ∈ actions, action < world.nextId) :
    ∃ counts, world.env.RecountedBy actions counts ∧
      addAllToReady actions world = .returned (world.recount counts) () := by
  induction actions generalizing world with
  | nil => exact ⟨world.env.readyCounts, .nil, rfl⟩
  | cons action rest hypothesis =>
      rcases consistent.changeReadyCount_eq
          (known action mem_cons_self) 1 with
        ⟨between, first, called⟩
      rcases hypothesis (consistent.recount first.length)
          (fun other member => known other (mem_cons_of_mem _ member)) with
        ⟨counts, later, added⟩
      refine ⟨counts, .cons first later, ?_⟩
      rw [addAllToReady, show
        world.callHook (·.addToReady action) =
          .returned (world.recount between) () from called,
        andThen_returned, added]
      rfl

/-- The successors that are freed are counted and handed on. -/
theorem Consistent.settleSuccessors_eq
    (known : action < world.nextId)
    (resource : WorkerId) :
    ∃ released counts,
      Settled world action released ∧
        released.env.RecountedBy (world.freedBy action) counts ∧
        (let handled :=
          (released.recount counts).handleDependencyFreeActions kind scores
            (world.freedBy action) resource
        world.settleSuccessors kind scores action resource =
          .returned handled.1 handled.2) := by
  rcases consistent.releaseSuccessors known with ⟨settled, freed⟩
  have freedKnown :
      ∀ aa ∈ world.freedBy action,
        aa < (world.releaseSuccessors action).1.nextId := by
    rw [settled.nextId]
    intro aa member
    have isPredecessor :=
      consistent.mirrored action aa (mem_filter.mp member).1
    exact consistent.known_of_dependent (ne_nil_of_mem isPredecessor)
  rcases settled.consistent.addAllToReady_eq freedKnown with
    ⟨counts, recounted, added⟩
  refine ⟨_, counts, settled, recounted, ?_⟩
  unfold World.settleSuccessors
  dsimp only
  rw [freed, added, andThen_returned]

end

/-- A resource scheduler has been made for the worker. -/
def register (world : SchedulerWorld) (worker : WorkerId) : SchedulerWorld :=
  world.modifyEnv fun env => { env with registered := env.registered ++ [worker] }

theorem Consistent.register
    (consistent : Consistent world)
    (worker : WorkerId) :
    Consistent (world.register worker) := by
  apply consistent.withEnv
  · exact fun _ => .refl _
  · rfl
  · rfl
  · exact Nat.le_refl _
  · exact consistent.counted
  · exact consistent.blockedKnown
  · exact consistent.unassignedKnown

/-- A new worker is started before its blocked actions are admitted again. -/
theorem updateWorker_eq (world : SchedulerWorld) (worker : WorkerId) :
    ∃ refile : SchedulerWorld → Outcome SchedulerWorld (List Work),
      (∀ started, ∃ refiled set,
        (refiled ++ set.getAllActions).Perm
            started.env.blockedActions.getAllActions ∧
          refile started =
            .returned
              { started with
                env := { started.env.changesOnWorker worker with
                  blockedActions := set } }
              ((scores.executionOrder refiled).map .refile)) ∧
        world.updateWorker kind scores worker =
          (if worker ∈ world.env.registered then .returned world ()
            else
              ((world.register worker).create
                (.startWorker worker)).newAllocatableAction kind scores
                  world.nextId).andThen fun started _ => refile started := by
  refine ⟨_, ?_, rfl⟩
  intro started
  dsimp only
  split
  · refine ⟨[], started.env.blockedActions, .refl _, ?_⟩
    rw [(scores.executionOrder_perm []).eq_nil]
    rfl
  · exact ⟨_, _, ActionSet.removeAllCompatibleActions_perm _ _ _, rfl⟩

/-- A ready action is tried on the worker that has become free, or it is kept. -/
theorem purge_ready
    {kept rest : List ActionId}
    (ready : world.IsReady action)
    (resource : WorkerId) :
    (¬ world.env.TakesAsTarget kind scores action resource ∧
      world.purge kind scores kept resource (action :: rest) =
        .returned world [.purge rest (kept ++ [action]) resource]) ∨
      ∃ outcome, Changes scores action world outcome.state ∧
        ((world.env.TakesAsTarget kind scores action resource →
            world.env.MeetsConstraint action resource ∨
              world.env.TakenByPredecessor kind scores action) →
          Launched action outcome) ∧
        world.purge kind scores kept resource (action :: rest) =
          outcome.andThen fun world _ =>
            .returned world [.purge rest kept resource] := by
  have hasNone : ¬ (world.graph action).hasDataPredecessors := by
    rw [hasDataPredecessors_iff, ready.free]
    exact not_not.mpr rfl
  rw [World.purge, if_neg hasNone]
  dsimp only
  rcases @scheduleOn_cases kind scores world action (some resource) with
    ⟨unassigned, refuses⟩ | ⟨assignment, fresh, target, assigned⟩
  · left
    refine ⟨refuses resource rfl, ?_⟩
    rw [unassigned, if_pos rfl]
  · right
    rw [assigned, if_neg (by simp)]
    refine ⟨_, (changes_assign fresh).trans (tryToLaunch_changes _ action), ?_,
      rfl⟩
    intro valid
    apply tryToLaunch_assign ready
    cases ofKind : (world.env.actions action).kind with
    | execution coreId forcedResource constrainingPredecessors =>
        have ofCore :
            world.env.firstImplementation action = .ofCore coreId := by
          simp only [firstImplementation, ofKind]
        rcases target coreId ofCore with ⟨isTarget, takes⟩
        rw [Option.some.injEq] at isTarget
        rw [← isTarget] at takes ⊢
        exact valid takes
    | startWorker worker =>
        left
        intro constrained
        simp [isSchedulingConstrained,
          getConstrainingPredecessors, ofKind] at constrained

end World

end DistributedRdf.Scheduling
