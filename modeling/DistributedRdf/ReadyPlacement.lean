import DistributedRdf.DispatcherRuns

namespace DistributedRdf.Scheduling

open Java Relation Execution SchedulerEnv List Outcome World ActionSet
open SchedulerEnv.NoneScored

/-!
# How the placement of a ready action ends

An action that waits for nothing but a worker is launched, or it is filed among
the unassigned or the blocked actions.
-/

namespace SchedulerEnv

variable
  (kind : SchedulerKind)
  (scores : Scores)
  (env : SchedulerEnv)
  (action : ActionId)

/-- The worker is one that the action may be launched on. -/
def MeetsConstraint (worker : WorkerId) : Prop :=
  env.isSchedulingConstrained action →
    ∃ predecessor ∈ env.getConstrainingPredecessors action,
      env.assignedResource predecessor = some worker

/-- The reassignment to the constraining predecessors finds a worker. -/
def TakenByPredecessor : Prop :=
  ∃ earlier predecessor later worker,
    env.getConstrainingPredecessors action = earlier ++ predecessor :: later ∧
      (∀ other ∈ earlier, (env.assignedResource other).isSome) ∧
        env.assignedResource predecessor = some worker ∧
          env.TakesAsTarget kind scores action worker

/--
The candidates are known, and no candidate takes the action without being able
to launch it.
-/
def LaunchedByPlacing : Prop :=
  ∃ workers, env.candidates action = .ok workers ∧
    ∀ worker ∈ workers, env.Takes kind scores action worker →
      env.MeetsConstraint action worker ∨
        env.TakenByPredecessor kind scores action

end SchedulerEnv

namespace World

variable
  {kind : SchedulerKind}
  {scores : Scores}
  {world between after : SchedulerWorld}
  {action : ActionId}
  {assignment : Assignment}

/-! ## What placing an action leaves alone -/

/-- An action is assigned or launched, and nothing else happens. -/
structure ChangedOnly
    (before : SchedulerWorld)
    (action : ActionId)
    (after : SchedulerWorld) : Prop where
  nextId : after.nextId = before.nextId
  others :
    ∀ other ≠ action,
      (after.graph other).state = (before.graph other).state
  self :
    (after.graph action).state = (before.graph action).state ∨
      (before.graph action).state = .RUNNABLE ∧
        ((after.graph action).state = .RUNNING ∨
          (after.graph action).state = .WAITING)
  predecessors :
    ∀ other,
      (after.graph other).dataPredecessors =
        (before.graph other).dataPredecessors
  blocked : after.env.blockedActions = before.env.blockedActions
  unassigned :
    after.env.unassignedReadyActions = before.env.unassignedReadyActions
  readyCounts : after.env.readyCounts = before.env.readyCounts
  kinds :
    ∀ other, (after.env.actions other).kind = (before.env.actions other).kind

namespace ChangedOnly

theorem refl (world : SchedulerWorld) (action : ActionId) :
    ChangedOnly world action world where
  nextId := rfl
  others _ _ := rfl
  self := .inl rfl
  predecessors _ := rfl
  blocked := rfl
  unassigned := rfl
  readyCounts := rfl
  kinds _ := rfl

theorem trans
    (first : ChangedOnly world action between)
    (second : ChangedOnly between action after) :
    ChangedOnly world action after where
  nextId := second.nextId.trans first.nextId
  others other different :=
    (second.others other different).trans (first.others other different)
  self := by
    rcases second.self with same | ⟨runnable, launched⟩
    · rw [same]
      exact first.self
    · rcases first.self with sameBefore | ⟨_, running | isWaiting⟩
      · exact .inr ⟨sameBefore.symm.trans runnable, launched⟩
      · exact absurd (running.symm.trans runnable) (by simp)
      · exact absurd (isWaiting.symm.trans runnable) (by simp)
  predecessors other :=
    (second.predecessors other).trans (first.predecessors other)
  blocked := second.blocked.trans first.blocked
  unassigned := second.unassigned.trans first.unassigned
  readyCounts := second.readyCounts.trans first.readyCounts
  kinds other := (second.kinds other).trans (first.kinds other)

end ChangedOnly

theorem Change.changedOnly (change : Change scores action world after) :
    ChangedOnly world action after := by
  cases change with
  | assign assignment runnable fresh =>
      rw [assign_of_runnable runnable]
      refine { ChangedOnly.refl world action with kinds := ?_ }
      intro other
      by_cases same : other = action
      · subst same
        rw [modifyAction_self]
      · rw [modifyAction_of_ne same]
  | start assignment launchable noneWaiting enough =>
      refine ⟨rfl, ?_, ?_, ?_, rfl, rfl, rfl, ?_⟩
      · intro other different
        rw [runOn_graph, setState_of_ne different]
        rfl
      · rw [runOn_graph, setState_state_self]
        exact .inr ⟨launchable.runnable, .inl rfl⟩
      · intro other
        rw [runOn_graph, setState_dataPredecessors]
        rfl
      · intro other
        rw [runOn_kind]
        by_cases same : other = action
        · subst same
          simp [registerExecution]
        · simp [registerExecution, same]
  | wait assignment launchable =>
      refine ⟨rfl, ?_, ?_, ?_, rfl, rfl, rfl, fun _ => rfl⟩
      · intro other different
        simp [waitOn, different]
      · exact .inr ⟨launchable.runnable, .inr (by simp [waitOn])⟩
      · intro other
        simp [waitOn]

theorem Changes.changedOnly (changes : Changes scores action world after) :
    ChangedOnly world action after := by
  induction changes with
  | refl => exact .refl world action
  | tail _ change hypothesis => exact hypothesis.trans change.changedOnly

/-- The action waits for nothing but a worker. -/
structure IsReady (world : SchedulerWorld) (action : ActionId) : Prop where
  known : action < world.nextId
  runnable : (world.graph action).state = .RUNNABLE
  free : (world.graph action).dataPredecessors.items = []

/-! ## Launching a ready action -/

/-- The action runs, or it waits for a worker. -/
def Launched (action : ActionId) (outcome : Outcome SchedulerWorld Unit) :
    Prop :=
  ∃ after, outcome = .returned after () ∧
    (after.graph action).state ≠ .RUNNABLE

section

variable (launchable : world.Launchable action assignment)

include launchable

theorem execute_launched :
    ((world.execute scores action assignment.resource).graph action).state ≠
      .RUNNABLE := by
  unfold execute
  split
  · have assigned :
        ((world.registerExecution action assignment.resource).env.actions
          action).assigned = some assignment := by
      simp [registerExecution, launchable.assigned]
    rw [run, assigned]
    simp
  · simp [waitOn]

/-- An action is launched on a worker that it may be launched on. -/
theorem launch_of_meetsConstraint
    (meets : world.env.MeetsConstraint action assignment.resource) :
    world.launch scores action =
      (world.execute scores action assignment.resource, true) := by
  have hasNone : ¬ (world.graph action).hasDataPredecessors := by
    rw [hasDataPredecessors_iff, launchable.free]
    exact not_not.mpr rfl
  have valid :
      ¬ (world.env.isSchedulingConstrained action ∧
        world.env.unrequiredResource action) := by
    rintro ⟨constrained, unrequired⟩
    rcases meets constrained with ⟨predecessor, isPredecessor, required⟩
    have different :=
      all_eq_true.mp unrequired predecessor isPredecessor
    rw [required, assignedResource_eq launchable.assigned] at different
    exact absurd different (by simp)
  unfold launch
  rw [assignedResource_eq launchable.assigned]
  dsimp only
  rw [if_pos ⟨launchable.runnable, hasNone⟩, if_neg valid]

theorem tryToLaunch_of_meetsConstraint
    (meets : world.env.MeetsConstraint action assignment.resource) :
    Launched action (world.tryToLaunch kind scores action) := by
  rw [tryToLaunch, launch_of_meetsConstraint launchable meets]
  exact ⟨_, rfl, execute_launched launchable⟩

end

theorem launchable_assign
    (runnable : (world.graph action).state = .RUNNABLE)
    (free : (world.graph action).dataPredecessors.items = [])
    (assignment : Assignment) :
    (world.assign action assignment).Launchable action assignment where
  assigned := by
    rw [assign_of_runnable runnable]
    simp
  runnable := by
    rw [assign_graph]
    exact runnable
  free := by
    rw [assign_graph]
    exact free

/-- An assignment does not change where the other actions are assigned. -/
theorem assignedResource_assign
    {other : ActionId}
    (different : other ≠ action)
    (assignment : Assignment) :
    (world.assign action assignment).env.assignedResource other =
      world.env.assignedResource other := by
  unfold assign
  split
  · simp [assignedResource, different]
  · rfl

theorem getConstrainingPredecessors_assign (assignment : Assignment) :
    (world.assign action assignment).env.getConstrainingPredecessors action =
      world.env.getConstrainingPredecessors action := by
  unfold assign
  split
  · simp [getConstrainingPredecessors]
  · rfl

section

variable (runnable : (world.graph action).state = .RUNNABLE)

include runnable

variable {predecessor : ActionId}

/-- The worker of a constraining predecessor may launch the action. -/
theorem meetsConstraint_assign
    (isPredecessor :
      predecessor ∈ world.env.getConstrainingPredecessors action)
    (required :
      world.env.assignedResource predecessor = some assignment.resource) :
    (world.assign action assignment).env.MeetsConstraint action
      assignment.resource := by
  intro _
  refine ⟨predecessor, ?_, ?_⟩
  · rwa [getConstrainingPredecessors_assign]
  · by_cases same : predecessor = action
    · subst same
      rw [assign_of_runnable runnable]
      simp [assignedResource]
    · rwa [assignedResource_assign same]

variable {worker : WorkerId}

/-- One of the predecessors that are left takes the action. -/
theorem reassign_launched
    {predecessors earlier later : List ActionId}
    (free : (world.graph action).dataPredecessors.items = [])
    (ofCore :
      ∃ coreId, world.env.firstImplementation action = .ofCore coreId)
    (areConstraining :
      ∀ other ∈ predecessors,
        other ∈ world.env.getConstrainingPredecessors action)
    (isSplit : predecessors = earlier ++ predecessor :: later)
    (areAssigned :
      ∀ other ∈ earlier, (world.env.assignedResource other).isSome)
    (assigned : world.env.assignedResource predecessor = some worker)
    (takes : world.env.TakesAsTarget kind scores action worker) :
    Launched action (reassign kind scores action predecessors world) := by
  rcases ofCore with ⟨coreId, ofCore⟩
  induction predecessors generalizing earlier with
  | nil => exact absurd isSplit (by simp)
  | cons first rest hypothesis =>
      unfold reassign
      have isConstraining := areConstraining first mem_cons_self
      rcases @scheduleOn_cases kind scores world action
          (world.env.assignedResource first) with
        ⟨unassigned, refuses⟩ | ⟨assignment, fresh, target, scheduled⟩
      · cases earlier with
        | nil =>
            cases isSplit
            exact absurd takes (refuses worker assigned)
        | cons other earlier =>
            cases isSplit
            have isSome := areAssigned first mem_cons_self
            have hasResource : (world.env.assignedResource first).isNone = false := by
              rw [← Option.not_isSome, isSome]
              rfl
            simp only [unassigned, reduceCtorEq, if_false, Bool.false_eq_true,
              hasResource]
            apply hypothesis
            · exact fun other member =>
                areConstraining other (mem_cons_of_mem _ member)
            · rfl
            · exact fun other member =>
                areAssigned other (mem_cons_of_mem _ member)
      · have launchable := @launchable_assign world action runnable free assignment
        have meets :=
          meetsConstraint_assign runnable isConstraining (target coreId ofCore).1
        simp only [scheduled, if_true,
          launch_of_meetsConstraint launchable meets]
        exact ⟨_, rfl, execute_launched launchable⟩

theorem takesAsTarget_assign
    (takes : world.env.TakesAsTarget kind scores action worker)
    (assignment : Assignment) :
    (world.assign action assignment).env.TakesAsTarget kind scores action
      worker := by
  have sameKind :
      (world.assign action assignment).env.firstImplementation action =
        world.env.firstImplementation action := by
    rw [assign_of_runnable runnable]
    simp [firstImplementation]
  rcases takes with ⟨⟨coreId, ofCore, useful, scored⟩, otherCore, ofOther, canRun⟩
  refine ⟨⟨coreId, sameKind.trans ofCore, ?_, ?_⟩, otherCore,
    sameKind.trans ofOther, ?_⟩
  · rw [assign_of_runnable runnable]
    simpa [executingResources] using useful
  · intro noneScored
    apply scored
    refine congr noneScored ?_
    rw [assign_of_runnable runnable]
    rfl
  · rw [assign_of_runnable runnable]
    exact canRun

end

/-- An action that is assigned to a worker is launched there or elsewhere. -/
theorem tryToLaunch_assign
    (ready : world.IsReady action)
    (valid :
      world.env.MeetsConstraint action assignment.resource ∨
        world.env.TakenByPredecessor kind scores action) :
    Launched action
      ((world.assign action assignment).tryToLaunch kind scores action) := by
  have launchable :=
    @launchable_assign world action ready.runnable ready.free assignment
  by_cases meets :
      (world.assign action assignment).env.MeetsConstraint action
        assignment.resource
  · exact tryToLaunch_of_meetsConstraint launchable meets
  · have sameKind :
        (world.assign action assignment).env.isSchedulingConstrained action =
          world.env.isSchedulingConstrained action := by
      simp only [isSchedulingConstrained,
        getConstrainingPredecessors_assign]
    have notRequired :
        ∀ other ∈ world.env.getConstrainingPredecessors action,
          other ≠ action ∧
            world.env.assignedResource other ≠ some assignment.resource := by
      intro other isPredecessor
      refine ⟨?_, fun required => meets
        (meetsConstraint_assign ready.runnable isPredecessor required)⟩
      rintro rfl
      apply meets
      intro _
      exact ⟨other, by rwa [getConstrainingPredecessors_assign],
        assignedResource_eq launchable.assigned⟩
    have constrained : world.env.isSchedulingConstrained action := by
      by_contra unconstrained
      exact meets fun isConstrained =>
        absurd (sameKind ▸ isConstrained) unconstrained
    have unrequired :
        (world.assign action assignment).env.unrequiredResource action := by
      rw [unrequiredResource, getConstrainingPredecessors_assign,
        assignedResource_eq launchable.assigned]
      apply all_eq_true.mpr
      intro other isPredecessor
      rcases notRequired other isPredecessor with ⟨different, elsewhere⟩
      rw [assignedResource_assign different]
      simpa using elsewhere
    have invalid :
        (world.assign action assignment).launch scores action =
          (world.assign action assignment, false) := by
      have hasNone : ¬ (world.graph action).hasDataPredecessors := by
        rw [hasDataPredecessors_iff, ready.free]
        exact not_not.mpr rfl
      unfold launch
      rw [assignedResource_eq launchable.assigned]
      dsimp only
      rw [if_pos ⟨launchable.runnable, by rwa [assign_graph]⟩,
        if_pos ⟨sameKind ▸ constrained, unrequired⟩]
    rcases valid with required | taken
    · rcases required constrained with ⟨other, isPredecessor, resource⟩
      exact absurd resource (notRequired other isPredecessor).2
    · rcases taken with
        ⟨earlier, predecessor, later, worker, isSplit, areAssigned, assigned,
          takes⟩
      have sameResource :
          ∀ other ∈ earlier ++ predecessor :: later,
            (world.assign action assignment).env.assignedResource other =
              world.env.assignedResource other := by
        rw [← isSplit]
        intro other isPredecessor
        exact assignedResource_assign (notRequired other isPredecessor).1 _
      have takesAfter :=
        takesAsTarget_assign ready.runnable takes assignment
      rw [tryToLaunch, invalid]
      apply reassign_launched launchable.runnable launchable.free
        (takesAfter.1.imp fun _ => And.left) (fun _ => id)
        ((getConstrainingPredecessors_assign _).trans isSplit)
      · intro other member
        rw [sameResource other (mem_append_left _ member)]
        exact areAssigned other member
      · rw [sameResource predecessor (by simp)]
        exact assigned
      · exact takesAfter

/-- A known action of a core can be added to the sets of actions. -/
theorem Consistent.addAction
    (consistent : Consistent world)
    (known : action < world.nextId)
    (ofCore : ∃ coreId, world.env.firstImplementation action = .ofCore coreId)
    (set : ActionSet) :
    ∃ added,
      set.addAction action (world.env.firstImplementation action)
          world.env.coreCount = .returned added () ∧
        added.getAllActions.Perm (action :: set.getAllActions) := by
  rcases ofCore with ⟨coreId, ofCore⟩
  have isCore := consistent.cores action known coreId ofCore
  rcases @addAction_returned _ _ set isCore action with
    ⟨added, returned⟩
  rw [ofCore]
  exact ⟨added, returned, addAction_perm returned⟩

/-- An action that is not assigned is not launched. -/
theorem tryToLaunch_of_unassigned
    (notAssigned : world.env.assignedResource action = none) :
    world.tryToLaunch kind scores action = .returned world () := by
  simp [tryToLaunch, launch, notAssigned]

/-! ## Placing a ready action -/

/-- The ways in which the placement of a ready action ends. -/
inductive PlacedReady
    (kind : SchedulerKind)
    (scores : Scores)
    (world : SchedulerWorld)
    (action : ActionId) : Outcome SchedulerWorld Unit → Prop where
  | unassigned
      (isReady : kind ≠ .base)
      (unassignable : world.env.Unassignable kind scores action)
      (set : ActionSet)
      (added :
        set.getAllActions.Perm
          (action :: world.env.unassignedReadyActions.getAllActions)) :
      PlacedReady kind scores world action
        (.returned
          { world with
            env := { world.env with unassignedReadyActions := set } } ())
  | blocked
      (isExecution :
        ∃ coreId, world.env.firstImplementation action = .ofCore coreId)
      (counts : List Int)
      (recounted : world.env.Recounted action (-1) counts)
      (set : ActionSet)
      (added :
        set.getAllActions.Perm
          (action :: world.env.blockedActions.getAllActions)) :
      PlacedReady kind scores world action
        (.returned
          { world with
            env := { world.env with
              readyCounts := counts
              blockedActions := set } } ())
  | changed
      {outcome : Outcome SchedulerWorld Unit}
      (changes : Changes scores action world outcome.state)
      (launched :
        kind ≠ .base → world.env.LaunchedByPlacing kind scores action →
          Launched action outcome) :
      PlacedReady kind scores world action outcome

variable (consistent : Consistent world)

include consistent

theorem Consistent.block_eq
    (known : action < world.nextId)
    (ofCore :
      ∃ coreId, world.env.firstImplementation action = .ofCore coreId) :
    ∃ counts set,
      world.env.Recounted action (-1) counts ∧
        set.getAllActions.Perm
          (action :: world.env.blockedActions.getAllActions) ∧
        world.block action =
          .returned
            { world with
              env := { world.env with
                readyCounts := counts
                blockedActions := set } } () := by
  rcases consistent.changeReadyCount_returned known (-1) with
    ⟨env, removed, _⟩
  rcases SchedulerEnv.changeReadyCount_returned removed with
    ⟨counts, rfl, recounted⟩
  rcases consistent.addAction known ofCore world.env.blockedActions with
    ⟨set, added, perm⟩
  refine ⟨counts, set, recounted, perm, ?_⟩
  have called :
      world.callHook (·.removeFromReady action) =
        .returned
          { world with env := { world.env with readyCounts := counts } } () :=
    callHook_returned.mpr ⟨_, removed, rfl⟩
  rw [block, called, andThen_returned]
  refine callHook_returned.mpr ⟨_, ?_, rfl⟩
  exact onState_eq_returned.mpr ⟨set, added, rfl⟩

omit consistent in
/-- An action that has no candidates to choose from has a core. -/
theorem isExecution_of_unassignable
    {env : SchedulerEnv}
    (unassignable : env.Unassignable kind scores action) :
    ∃ coreId, env.firstImplementation action = .ofCore coreId := by
  rcases unassignable with ⟨coreId, _, ofCore, _⟩
  exact ⟨coreId, ofCore⟩

theorem place_ready
    (ready : world.IsReady action)
    (notStale :
      kind ≠ .base → world.env.Unassignable kind scores action →
        world.env.assignedResource action = none) :
    PlacedReady kind scores world action (world.place kind scores action) := by
  have placed := @place_placed kind scores world action
  generalize place kind scores world action = outcome at placed ⊢
  cases placed with
  | undecided error free =>
      refine .changed .refl ?_
      rintro _ ⟨workers, known, _⟩
      exact absurd (known.symm.trans error) (by simp)
  | depending isReady depends => exact absurd ready.free depends
  | blocked noneUseful isExecution free =>
      rcases consistent.block_eq ready.known isExecution with
        ⟨counts, set, recounted, added, blocked⟩
      rw [blocked]
      exact .blocked isExecution counts recounted set added
  | lost isBase unassignable =>
      exact .changed (tryToLaunch_changes _ action)
        fun notBase => absurd isBase notBase
  | unassigned isReady free unassignable =>
      rcases consistent.addAction ready.known
          (isExecution_of_unassignable unassignable)
          world.env.unassignedReadyActions with
        ⟨set, added, perm⟩
      have called :
          world.callHook (·.addToUnassigned action) =
            .returned
              { world with
                env := { world.env with unassignedReadyActions := set } } () :=
        callHook_returned.mpr
          ⟨_, onState_eq_returned.mpr ⟨set, added, rfl⟩, rfl⟩
      have notLaunched :=
        @tryToLaunch_of_unassigned kind scores
          { world with
            env := { world.env with unassignedReadyActions := set } } action
          (notStale isReady unassignable)
      rw [called, andThen_returned, notLaunched]
      exact .unassigned isReady unassignable set perm
  | assigned assignment fresh candidate free =>
      refine .changed
        ((changes_assign fresh).trans (tryToLaunch_changes _ action)) ?_
      rintro _ ⟨workers, known, areLaunched⟩
      apply tryToLaunch_assign ready
      cases ofKind : (world.env.actions action).kind with
      | execution coreId forcedResource constrainingPredecessors =>
          have ofCore :
              world.env.firstImplementation action = .ofCore coreId := by
            simp only [firstImplementation, ofKind]
          rcases candidate coreId ofCore with
            ⟨others, sameKnown, isCandidate, takes⟩
          rw [known, Except.ok.injEq] at sameKnown
          exact areLaunched _ (sameKnown ▸ isCandidate) takes
      | startWorker worker =>
          left
          intro constrained
          simp [isSchedulingConstrained,
            getConstrainingPredecessors, ofKind] at constrained

/-- An action that depends on others is filed, or only assigned. -/
theorem place_dependent
    (known : action < world.nextId)
    (ofCore :
      ∃ coreId, world.env.firstImplementation action = .ofCore coreId)
    (depends : (world.graph action).dataPredecessors.items ≠ [])
    (useful :
      kind = .base → ∀ workers, world.env.candidates action = .ok workers →
        world.env.usefulResources action workers ≠ []) :
    (∃ set, world.place kind scores action =
      .returned
        { world with env := { world.env with dependingActions := set } } ()) ∨
      kind = .base ∧
        Changes scores action world (world.place kind scores action).state := by
  have notFree (free : kind ≠ .base →
      (world.graph action).dataPredecessors.items = []) : kind = .base := by
    by_contra notBase
    exact depends (free notBase)
  have placed := @place_placed kind scores world action
  generalize place kind scores world action = outcome at placed ⊢
  cases placed with
  | undecided error free => exact .inr ⟨notFree free, .refl⟩
  | depending isReady _ =>
      rcases consistent.addAction known ofCore world.env.dependingActions with
        ⟨set, added, _⟩
      left
      exact ⟨set, callHook_returned.mpr
        ⟨_, onState_eq_returned.mpr ⟨set, added, rfl⟩, rfl⟩⟩
  | blocked noneUseful isExecution free =>
      rcases noneUseful with ⟨workers, areCandidates, none⟩
      exact absurd none (useful (notFree free) workers areCandidates)
  | lost isBase unassignable =>
      exact .inr ⟨isBase, tryToLaunch_changes _ action⟩
  | unassigned isReady free unassignable => exact absurd free depends
  | assigned assignment fresh candidate free =>
      exact .inr ⟨notFree free,
        (changes_assign fresh).trans (tryToLaunch_changes _ action)⟩

end World

end DistributedRdf.Scheduling
