import DistributedRdf.SchedulerOperations

namespace DistributedRdf.Scheduling

open Java Relation Execution MethodResourceDescription SchedulerEnv List
open ActionNode Outcome

/-!
# What the runs of the dispatcher keep

Every step of the dispatcher leads from a consistent state to a consistent
state, whatever it throws.  What the changes of the state keep is kept by the
steps that consist of them.
-/

/-- The actions that are mentioned on the agenda exist. -/
def Work.Known (nextId : ActionId) : Work → Prop
  | .place action => action < nextId
  | .refile action => action < nextId
  | .launch action => action < nextId
  | .purge remaining kept _ => ∀ action ∈ remaining ++ kept, action < nextId
  | .settleSuccessors action _ => action < nextId
  | .updateWorker _ => True

theorem Work.Known.mono
    {work : Work}
    {nextId later : ActionId}
    (known : work.Known nextId)
    (atMost : nextId ≤ later) :
    work.Known later := by
  cases work with
  | place _ | refile _ | launch _ => exact Nat.lt_of_lt_of_le known atMost
  | purge remaining kept resource =>
      exact fun action member => Nat.lt_of_lt_of_le (known action member) atMost
  | settleSuccessors action resource => exact Nat.lt_of_lt_of_le known atMost
  | updateWorker worker => trivial

/-- What a worker offers or what is filed has been worked out anew. -/
structure Reconfigured (env after : SchedulerEnv) : Prop where
  actions : after.actions = env.actions
  hosted : after.hosted = env.hosted
  waiting : after.waiting = env.waiting
  workers :
    ∀ worker, ∃ features,
      after.workers worker = { env.workers worker with features := features }
  coreCount : env.coreCount ≤ after.coreCount
  counted : after.readyCounts.length = after.coreCount
  blocked :
    ∀ action ∈ after.blockedActions.getAllActions,
      action ∈ env.blockedActions.getAllActions
  unassigned :
    ∀ action ∈ after.unassignedReadyActions.getAllActions,
      action ∈ env.unassignedReadyActions.getAllActions

namespace World

/--
What is kept when actions are scheduled.  An action is only launched where it is
assigned when that is safe.
-/
structure KeptByScheduling
    (Safe : ActionId → SchedulerWorld → Prop)
    (Holds : SchedulerWorld → Prop) : Prop where
  byFiling : ∀ action, KeptByFiling Holds action
  byAssigning :
    ∀ (world : SchedulerWorld) action assignment,
      (world.graph action).state = .RUNNABLE →
        world.env.Fresh action assignment.resource → Holds world →
          Holds (world.assign action assignment)
  byChange :
    ∀ scores action before after, Consistent before →
      Change scores action before after → Safe action before →
        Holds before → Holds after
  byCreating :
    ∀ world actionKind dataPredecessors after, Consistent world →
      DependsOnConstraining world actionKind dataPredecessors →
        Created world actionKind dataPredecessors after →
          Holds world → Holds after
  byReconfiguring :
    ∀ (world : SchedulerWorld) env, Reconfigured world.env env → Holds world →
      Holds { world with env := env }

/-- What is also kept when the successors of a finished action are released. -/
structure KeptByPlacing
    (Safe : ActionId → SchedulerWorld → Prop)
    (Holds : SchedulerWorld → Prop) : Prop
    extends KeptByScheduling Safe Holds where
  bySettling :
    ∀ world action after, Settled world action after → Holds world →
      Holds after

/-- When it is safe to launch an action. -/
structure LaunchCondition (Safe : ActionId → SchedulerWorld → Prop) : Prop where
  kept : ∀ action, KeptByPlacing Safe (Safe action)
  ofNotRunnable :
    ∀ (world : SchedulerWorld) action,
      (world.graph action).state ≠ .RUNNABLE → Safe action world
  ofAssigned :
    ∀ (world : SchedulerWorld) action assignment,
      (world.graph action).state = .RUNNABLE →
        world.env.Fresh action assignment.resource →
          Safe action (world.assign action assignment)
  ofCreated :
    ∀ world actionKind dataPredecessors after, Consistent world →
      Created world actionKind dataPredecessors after →
        Safe world.nextId after

/-- What is left to do can be done. -/
structure Doable
    (Safe : ActionId → SchedulerWorld → Prop)
    (world : SchedulerWorld)
    (agenda : List Work) : Prop where
  known : ∀ work ∈ agenda, work.Known world.nextId
  safe : ∀ action, .launch action ∈ agenda → Safe action world

/-- What holds of the outcome of an operation. -/
structure Yields
    (Safe : ActionId → SchedulerWorld → Prop)
    (nextId : ActionId)
    (Holds : SchedulerWorld → Prop)
    (outcome : Outcome SchedulerWorld (List Work)) : Prop where
  consistent : Consistent outcome.state
  nextId : nextId ≤ outcome.state.nextId
  holds : Holds outcome.state
  doable : ∀ world work, outcome = .returned world work → Doable Safe world work

variable
  {kind : SchedulerKind}
  {scores : Scores}
  {world : SchedulerWorld}
  {action : ActionId}
  {nextId : ActionId}
  {Safe : ActionId → SchedulerWorld → Prop}
  {Holds : SchedulerWorld → Prop}

theorem Doable.nil : Doable Safe world [] :=
  ⟨fun _ member => absurd member not_mem_nil,
    fun _ member => absurd member not_mem_nil⟩

/-- Work that launches nothing without scheduling it first. -/
theorem Doable.ofKnown
    {agenda : List Work}
    (known : ∀ work ∈ agenda, work.Known world.nextId)
    (noLaunch : ∀ action, .launch action ∉ agenda) :
    Doable Safe world agenda :=
  ⟨known, fun action member => absurd member (noLaunch action)⟩

theorem KeptByScheduling.and
    {Other : SchedulerWorld → Prop}
    (scheduling : KeptByScheduling Safe Holds)
    (other : KeptByScheduling Safe Other) :
    KeptByScheduling Safe fun world => Holds world ∧ Other world where
  byFiling action world env filed holds :=
    ⟨scheduling.byFiling action world env filed holds.1,
      other.byFiling action world env filed holds.2⟩
  byAssigning world action assignment runnable fresh holds :=
    ⟨scheduling.byAssigning world action assignment runnable fresh holds.1,
      other.byAssigning world action assignment runnable fresh holds.2⟩
  byChange scores action before after consistent change safe holds :=
    ⟨scheduling.byChange scores action before after consistent change safe
        holds.1,
      other.byChange scores action before after consistent change safe holds.2⟩
  byCreating world actionKind dataPredecessors after consistent dependsOn created
      holds :=
    ⟨scheduling.byCreating world actionKind dataPredecessors after consistent
        dependsOn created holds.1,
      other.byCreating world actionKind dataPredecessors after consistent
        dependsOn created holds.2⟩
  byReconfiguring world env reconfigured holds :=
    ⟨scheduling.byReconfiguring world env reconfigured holds.1,
      other.byReconfiguring world env reconfigured holds.2⟩

namespace KeptByPlacing

theorem and
    {Other : SchedulerWorld → Prop}
    (placing : KeptByPlacing Safe Holds)
    (other : KeptByPlacing Safe Other) :
    KeptByPlacing Safe fun world => Holds world ∧ Other world where
  toKeptByScheduling :=
    placing.toKeptByScheduling.and other.toKeptByScheduling
  bySettling world action after settled holds :=
    ⟨placing.bySettling world action after settled holds.1,
      other.bySettling world action after settled holds.2⟩

/-- Actions that are safe to launch stay so. -/
theorem safe
    (condition : LaunchCondition Safe)
    (actions : ActionId → Prop) :
    KeptByPlacing Safe fun world =>
      ∀ action, actions action → Safe action world where
  byFiling other world env filed holds action isOne :=
    (condition.kept action).byFiling other world env filed (holds action isOne)
  byAssigning world other assignment runnable fresh holds action isOne :=
    (condition.kept action).byAssigning world other assignment runnable fresh
      (holds action isOne)
  byChange scores other before after consistent change safe holds action isOne :=
    (condition.kept action).byChange scores other before after consistent change
      safe (holds action isOne)
  byCreating world actionKind dataPredecessors after consistent dependsOn created
      holds action isOne :=
    (condition.kept action).byCreating world actionKind dataPredecessors after
      consistent dependsOn created (holds action isOne)
  bySettling world other after settled holds action isOne :=
    (condition.kept action).bySettling world other after settled
      (holds action isOne)
  byReconfiguring world env reconfigured holds action isOne :=
    (condition.kept action).byReconfiguring world env reconfigured
      (holds action isOne)

end KeptByPlacing

theorem Yields.returned
    (kept : Kept nextId Holds world)
    {work : List Work}
    (doable : Doable Safe world work) :
    Yields Safe nextId Holds (.returned world work) where
  consistent := kept.consistent
  nextId := kept.nextId.ge
  holds := kept.holds
  doable := by
    rintro _ _ ⟨⟩
    exact doable

theorem Yields.raised
    (kept : Kept nextId Holds world)
    (exception : JavaException) :
    Yields Safe nextId Holds (.raised world exception) where
  consistent := kept.consistent
  nextId := kept.nextId.ge
  holds := kept.holds
  doable := by
    intro _ _ isReturned
    exact absurd isReturned (by simp)

/-- What is left to do after an operation is known before it. -/
theorem Yields.andThen
    {outcome : Outcome SchedulerWorld Unit}
    (kept : Kept nextId Holds outcome.state)
    {next : SchedulerWorld → Unit → Outcome SchedulerWorld (List Work)}
    (yields :
      ∀ world, Kept nextId Holds world →
        Yields Safe nextId Holds (next world ())) :
    Yields Safe nextId Holds (outcome.andThen next) := by
  cases outcome with
  | returned world value => exact yields world kept
  | raised world exception => exact .raised kept exception

theorem Yields.trans
    {later : ActionId}
    {outcome : Outcome SchedulerWorld (List Work)}
    (yields : Yields Safe later Holds outcome)
    (atMost : nextId ≤ later) :
    Yields Safe nextId Holds outcome :=
  ⟨yields.consistent, atMost.trans yields.nextId, yields.holds,
    yields.doable⟩

variable {Weaker : SchedulerWorld → Prop}

theorem Yields.mono
    (weaker : ∀ world, Holds world → Weaker world)
    {outcome : Outcome SchedulerWorld (List Work)}
    (yields : Yields Safe nextId Holds outcome) :
    Yields Safe nextId Weaker outcome :=
  ⟨yields.consistent, yields.nextId, weaker _ yields.holds, yields.doable⟩

theorem Consistent.reconfigured
    (consistent : Consistent world)
    {env : SchedulerEnv}
    (reconfigured : Reconfigured world.env env) :
    Consistent { world with env := env } := by
  apply consistent.withEnv
  · intro other
    rw [reconfigured.actions]
    exact .refl _
  · exact reconfigured.hosted
  · exact reconfigured.waiting
  · exact reconfigured.coreCount
  · exact reconfigured.counted
  · intro other member
    exact consistent.blockedKnown other (reconfigured.blocked other member)
  · intro other member
    exact consistent.unassignedKnown other
      (reconfigured.unassigned other member)

theorem Kept.mono
    (weaker : ∀ world, Holds world → Weaker world)
    (kept : Kept nextId Holds world) :
    Kept nextId Weaker world :=
  ⟨kept.consistent, kept.nextId, weaker world kept.holds⟩

namespace KeptByScheduling

variable
  (scheduling : KeptByScheduling Safe Holds)
  (condition : LaunchCondition Safe)

include scheduling

theorem reconfigured
    (kept : Kept nextId Holds world)
    {env : SchedulerEnv}
    (reconfigured : Reconfigured world.env env) :
    Kept nextId Holds { world with env := env } :=
  ⟨kept.consistent.reconfigured reconfigured, kept.nextId,
    scheduling.byReconfiguring world env reconfigured kept.holds⟩

theorem addAllToReady
    (kept : Kept nextId Holds world)
    {actions : List ActionId}
    (known : ∀ action ∈ actions, action < nextId) :
    Kept nextId Holds (addAllToReady actions world).state := by
  induction actions generalizing world with
  | nil => exact kept
  | cons action rest hypothesis =>
      refine andThen_preserves
        (kept.callHook (known action mem_cons_self)
          (scheduling.byFiling action)
          (filed_changeReadyCount 1)) ?_
      intro between _ keptBetween
      exact hypothesis keptBetween
        fun other member => known other (mem_cons_of_mem _ member)

theorem placeWithUnassigned
    (kept : Kept nextId Holds world)
    {freeActions : List ActionId}
    (known : ∀ action ∈ freeActions, action < nextId) :
    Yields Safe nextId Holds
      (.returned (world.placeWithUnassigned scores freeActions).1
        (world.placeWithUnassigned scores freeActions).2) := by
  apply Yields.returned
  · apply scheduling.reconfigured kept
    refine ⟨rfl, rfl, rfl, fun _ => ⟨_, rfl⟩, Nat.le_refl _,
      kept.consistent.counted, fun _ => id, ?_⟩
    intro action member
    simp at member
  · apply Doable.ofKnown
    · intro item member
      rcases mem_map.mp member with ⟨action, isMember, rfl⟩
      rcases mem_append.mp
          ((scores.executionOrder_perm _).mem_iff.mp isMember) with
        free | unassigned
      · have isKnown := known action free
        rwa [← kept.nextId] at isKnown
      · exact kept.consistent.unassignedKnown action unassigned
    · intro action member
      rcases mem_map.mp member with ⟨_, _, isPlace⟩
      exact absurd isPlace (by simp)

theorem handleDependencyFreeActions
    (kept : Kept nextId Holds world)
    {dataFreeActions : List ActionId}
    (known : ∀ action ∈ dataFreeActions, action < nextId)
    (safe : ∀ action ∈ dataFreeActions, Safe action world)
    (resource : WorkerId) :
    let handled :=
      world.handleDependencyFreeActions kind scores dataFreeActions resource
    Yields Safe nextId Holds (.returned handled.1 handled.2) := by
  have order (action : ActionId) :
      action ∈ scores.executionOrder dataFreeActions ↔
        action ∈ dataFreeActions :=
    (scores.executionOrder_perm _).mem_iff
  rw [← kept.nextId] at known
  cases kind with
  | base =>
      refine Yields.returned kept ⟨?_, ?_⟩
      · intro item member
        rcases mem_map.mp member with ⟨action, isMember, rfl⟩
        exact known action ((order action).mp isMember)
      · intro action member
        rcases mem_map.mp member with ⟨other, isMember, isLaunch⟩
        cases isLaunch
        exact safe action ((order action).mp isMember)
  | ready =>
      rw [kept.nextId] at known
      exact scheduling.placeWithUnassigned kept known
  | fifoData =>
      refine Yields.returned kept (Doable.ofKnown ?_ ?_)
      · intro item member
        rw [mem_singleton.mp member]
        intro action isMember
        exact known action ((order action).mp (by simpa using isMember))
      · intro action member
        exact absurd (mem_singleton.mp member) (by simp)

/-- The last part of `updateWorker` -/
theorem unblock
    (kept : Kept nextId Holds world)
    (worker : WorkerId) :
    let cores := (world.env.workers worker).features.executableCores
    let removed :=
      world.env.blockedActions.removeAllCompatibleActions
        (world.env.isCompatible · worker) cores
    Yields Safe nextId Holds
      (.returned
        { world with
          env := { world.env.changesOnWorker worker with
            blockedActions := removed.2 } }
        ((scores.executionOrder removed.1).map .refile)) := by
  intro cores removed
  have removal :=
    ActionSet.removeAllCompatibleActions_perm world.env.blockedActions
      (world.env.isCompatible · worker) cores
  apply Yields.returned
  · apply scheduling.reconfigured kept
    refine ⟨rfl, rfl, rfl, fun _ => ⟨_, rfl⟩, Nat.le_refl _,
      kept.consistent.counted, ?_, fun _ => id⟩
    intro action member
    exact removal.mem_iff.mp (mem_append_right _ member)
  · apply Doable.ofKnown
    · intro item member
      rcases mem_map.mp member with ⟨action, isMember, rfl⟩
      have isRemoved := (scores.executionOrder_perm _).mem_iff.mp isMember
      exact kept.consistent.blockedKnown action
        (removal.mem_iff.mp (mem_append_left _ isRemoved))
    · intro action member
      rcases mem_map.mp member with ⟨_, _, isReadmit⟩
      exact absurd isReadmit (by simp)

include condition

variable (kept : Kept nextId Holds world)

include kept

section

variable (known : action < nextId)

include known

theorem tryToLaunch
    (safe : Safe action world) :
    Kept nextId Holds (world.tryToLaunch kind scores action).state := by
  have keptSafe :
      Kept nextId (fun world => Holds world ∧ Safe action world) world :=
    ⟨kept.consistent, kept.nextId, kept.holds, safe⟩
  have both := scheduling.and (condition.kept action).toKeptByScheduling
  refine (keptSafe.changes known ?_
    (tryToLaunch_changes world action)).mono fun _ => And.left
  intro before between consistent change holds
  exact both.byChange scores action before between consistent change holds.2
    holds

omit known in
/-- An action that is assigned anew can be launched. -/
theorem assign
    {assignment : Assignment}
    (fresh : world.env.Fresh action assignment.resource) :
    Kept nextId Holds (world.assign action assignment) ∧
      Safe action (world.assign action assignment) := by
  by_cases runnable : (world.graph action).state = .RUNNABLE
  · refine ⟨⟨kept.consistent.assign runnable, ?_,
      scheduling.byAssigning world action assignment runnable fresh kept.holds⟩,
      condition.ofAssigned world action assignment runnable fresh⟩
    rw [assign_of_runnable runnable]
    exact kept.nextId
  · rw [World.assign, if_neg runnable]
    exact ⟨kept, condition.ofNotRunnable world action runnable⟩

/-- An action that cannot be assigned may still be assigned from before. -/
theorem place
    (stale : world.env.Unassignable kind scores action → Safe action world) :
    Kept nextId Holds (world.place kind scores action).state := by
  have placed := @place_placed kind scores world action
  generalize World.place kind scores world action = outcome at placed ⊢
  cases placed with
  | undecided error free => exact kept
  | depending isReady depends =>
      exact kept.callHook known (scheduling.byFiling action)
        filed_addToDepending
  | blocked noneUseful isExecution free =>
      exact kept.block known (scheduling.byFiling action)
  | lost isBase unassignable =>
      exact scheduling.tryToLaunch condition kept known (stale unassignable)
  | unassigned isReady free unassignable =>
      have both := scheduling.and (condition.kept action).toKeptByScheduling
      have keptSafe :
          Kept nextId (fun world => Holds world ∧ Safe action world) world :=
        ⟨kept.consistent, kept.nextId, kept.holds, stale unassignable⟩
      have keptFiled :
          Kept nextId (fun world => Holds world ∧ Safe action world)
            (world.callHook (·.addToUnassigned action)).state :=
        keptSafe.callHook known (both.byFiling action)
          filed_addToUnassigned
      refine andThen_ensures keptFiled
        (fun _ => Kept.mono fun _ => And.left) ?_
      intro between _ keptBetween
      exact scheduling.tryToLaunch condition
        (keptBetween.mono fun _ => And.left) known keptBetween.holds.2
  | assigned assignment fresh candidate free =>
      rcases scheduling.assign condition kept fresh with ⟨keptAssigned, safe⟩
      exact scheduling.tryToLaunch condition keptAssigned known safe

theorem newAllocatableAction
    (stale : world.env.Unassignable kind scores action → Safe action world) :
    Kept nextId Holds (world.newAllocatableAction kind scores action).state := by
  unfold World.newAllocatableAction
  split
  · exact scheduling.place condition kept known stale
  · have filed :=
      @filed_changeReadyCount world.env action 1
    have keptFiled :
        Kept nextId Holds (world.callHook (·.addToReady action)).state :=
      kept.callHook known (scheduling.byFiling action) filed
    cases called : world.callHook (·.addToReady action) with
    | returned between value =>
        rw [called] at keptFiled
        rcases World.callHook_returned.mp called with ⟨env, added, rfl⟩
        have filedEnv : world.env.Filed action env := by
          rwa [show world.env.changeReadyCount action 1 = _ from added] at filed
        refine scheduling.place condition keptFiled known fun unassignable => ?_
        exact (condition.kept action).byFiling action world env filedEnv
          (stale (filedEnv.unassignable unassignable))
    | raised between exception => rwa [called] at keptFiled

end

theorem purge
    {remaining keptActions : List ActionId}
    (known : ∀ action ∈ remaining ++ keptActions, action < nextId)
    (resource : WorkerId) :
    Yields Safe nextId Holds
      (world.purge kind scores keptActions resource remaining) := by
  have goesOn
      (between : SchedulerWorld)
      (keptBetween : Kept nextId Holds between)
      (rest more : List ActionId)
      (restKnown : ∀ other ∈ rest ++ more, other < nextId) :
      Yields Safe nextId Holds
        (.returned between [.purge rest more resource]) := by
    refine Yields.returned keptBetween (Doable.ofKnown ?_ ?_)
    · intro item member
      rw [mem_singleton.mp member, keptBetween.nextId]
      exact restKnown
    · intro action member
      exact absurd (mem_singleton.mp member) (by simp)
  cases remaining with
  | nil => exact scheduling.placeWithUnassigned kept known
  | cons action rest =>
      have isKnown : action < nextId := known action (by simp)
      have restKnown :
          ∀ other ∈ rest ++ keptActions, other < nextId :=
        fun other member => known other (mem_cons_of_mem _ member)
      rw [World.purge]
      split
      · rename_i hasPredecessors
        have depends := hasDataPredecessors_iff.mp hasPredecessors
        have keptFiled :
            Kept nextId Holds (world.callHook (·.addToDepending action)).state :=
          kept.callHook isKnown (scheduling.byFiling action)
            filed_addToDepending
        cases called : world.callHook (·.addToDepending action) with
        | raised between exception =>
            rw [called] at keptFiled
            exact .raised keptFiled exception
        | returned between value =>
            rw [called] at keptFiled
            rcases World.callHook_returned.mp called with ⟨env, _, rfl⟩
            have launched :
                World.tryToLaunch kind scores { world with env := env } action =
                  .returned { world with env := env } () :=
              tryToLaunch_of_depends depends
            rw [andThen_returned, launched]
            exact goesOn _ keptFiled rest keptActions restKnown
      · dsimp only
        rcases @scheduleOn_cases kind scores world action (some resource) with
          ⟨unassigned, _⟩ | ⟨assignment, fresh, _, assigned⟩
        · rw [unassigned, if_pos rfl]
          refine goesOn world kept rest (keptActions ++ [action]) ?_
          intro other isMember
          exact known other (by
            simp only [mem_append, mem_cons, not_mem_nil,
              or_false] at isMember ⊢
            tauto)
        · rw [assigned, if_neg (by simp)]
          rcases scheduling.assign condition kept fresh with ⟨keptAssigned, safe⟩
          refine Yields.andThen
            (scheduling.tryToLaunch condition keptAssigned isKnown safe) ?_
          exact fun between keptBetween =>
            goesOn between keptBetween rest keptActions restKnown

theorem updateWorker
    (worker : WorkerId) :
    Yields Safe nextId Holds (world.updateWorker kind scores worker) := by
  have ends
      (between : SchedulerWorld)
      (later : ActionId)
      (keptBetween : Kept later Holds between) :
      Yields Safe later Holds
        (let updated := between.modifyEnv (·.changesOnWorker worker)
        let cores := (between.env.workers worker).features.executableCores
        if cores = [] then
          .returned updated []
        else
          let removed :=
            between.env.blockedActions.removeAllCompatibleActions
              (between.env.isCompatible · worker) cores
          .returned
            (updated.modifyEnv fun env =>
              { env with blockedActions := removed.2 })
            ((scores.executionOrder removed.1).map .refile)) := by
    dsimp only
    split
    · refine Yields.returned (scheduling.reconfigured keptBetween ?_) .nil
      exact ⟨rfl, rfl, rfl, fun _ => ⟨_, rfl⟩, Nat.le_refl _,
        keptBetween.consistent.counted, fun _ => id, fun _ => id⟩
    · exact scheduling.unblock keptBetween worker
  unfold World.updateWorker
  split
  · exact ends world nextId kept
  · have keptRegistered :
        Kept nextId Holds
          (world.modifyEnv fun env =>
            { env with registered := env.registered ++ [worker] }) := by
      apply scheduling.reconfigured kept
      exact ⟨rfl, rfl, rfl, fun _ => ⟨_, rfl⟩, Nat.le_refl _,
        kept.consistent.counted, fun _ => id, fun _ => id⟩
    have created :=
      @Consistent.create _ keptRegistered.consistent (.startWorker worker)
        (by simp)
    have keptCreated :
        Kept (nextId + 1) Holds
          ((world.modifyEnv fun env =>
            { env with registered := env.registered ++ [worker] }).create
              (.startWorker worker)) := by
      refine ⟨created.consistent, ?_,
        scheduling.byCreating _ _ _ _ keptRegistered.consistent
          (dependsOnConstraining_startWorker worker) created
          keptRegistered.holds⟩
      rw [created.nextId, keptRegistered.nextId]
    have known : world.nextId < nextId + 1 := by
      rw [kept.nextId]
      exact Nat.lt_succ_self _
    have safe :=
      condition.ofCreated _ _ _ _ keptRegistered.consistent created
    refine Yields.trans ?_ (Nat.le_succ nextId)
    exact Yields.andThen
      (scheduling.newAllocatableAction condition keptCreated known fun _ => safe)
      fun between => ends between (nextId + 1)

theorem newAction
    {coreId : CoreId}
    (coreKnown : coreId < world.env.coreCount)
    (forcedResource : Option WorkerId)
    {dataPredecessors : List ActionId}
    (predecessorsKnown :
      ∀ predecessor ∈ dataPredecessors, predecessor < world.nextId)
    {constrainingPredecessors : List ActionId}
    (constrainedByPending :
      ∀ predecessor ∈ constrainingPredecessors,
        (world.graph predecessor).isPending →
          predecessor ∈ dataPredecessors) :
    Yields Safe nextId Holds
      (world.process kind scores
        (.newAction coreId forcedResource dataPredecessors
          constrainingPredecessors)) := by
  have created :=
    Created.createExecution kept.consistent coreKnown forcedResource
      predecessorsKnown constrainingPredecessors
  have dependsOn :
      DependsOnConstraining world
        (.execution coreId forcedResource constrainingPredecessors)
        dataPredecessors.reverse := by
    rintro _ _ _ ⟨⟩ predecessor isConstraining pending
    exact mem_reverse.mpr
      (constrainedByPending predecessor isConstraining pending)
  have keptCreated :
      Kept (nextId + 1) Holds
        (world.createExecution coreId forcedResource dataPredecessors
          constrainingPredecessors) := by
    refine ⟨created.consistent, ?_,
      scheduling.byCreating _ _ _ _ kept.consistent dependsOn created kept.holds⟩
    rw [created.nextId, kept.nextId]
  have known : world.nextId < nextId + 1 := by
    rw [kept.nextId]
    exact Nat.lt_succ_self _
  have safe := condition.ofCreated _ _ _ _ kept.consistent created
  refine Yields.trans ?_ (Nat.le_succ nextId)
  exact Yields.andThen
    (scheduling.newAllocatableAction condition keptCreated known fun _ => safe)
    fun between keptBetween => Yields.returned keptBetween .nil

/-- The work that releases no successors -/
theorem perform
    {work : Work}
    (known : work.Known nextId)
    (noSettling : ∀ action resource, work ≠ .settleSuccessors action resource)
    (launchSafe : ∀ action, work = .launch action → Safe action world)
    (stale :
      ∀ action, work = .place action ∨ work = .refile action →
        world.env.Unassignable kind scores action → Safe action world) :
    Yields Safe nextId Holds (world.perform kind scores work) := by
  have done (between : SchedulerWorld) (keptBetween : Kept nextId Holds between) :
      Yields Safe nextId Holds (.returned between []) :=
    Yields.returned keptBetween .nil
  cases work with
  | place action =>
      exact Yields.andThen
        (scheduling.place condition kept known (stale action (.inl rfl))) done
  | refile action =>
      exact Yields.andThen
        (scheduling.newAllocatableAction condition kept known
          (stale action (.inr rfl))) done
  | launch action =>
      exact Yields.andThen
        (scheduling.tryToLaunch condition kept known (launchSafe action rfl))
        done
  | purge remaining keptActions resource =>
      exact scheduling.purge condition kept known resource
  | settleSuccessors action resource =>
      exact absurd rfl (noSettling action resource)
  | updateWorker worker => exact scheduling.updateWorker condition kept worker

theorem settleSuccessors
    (known : action < nextId)
    (settles : ∀ after, Settled world action after → Holds after)
    (freedSafe :
      ∀ after, Settled world action after →
        ∀ aa ∈ world.freedBy action, Safe aa after)
    (resource : WorkerId) :
    Yields Safe nextId Holds
      (world.settleSuccessors kind scores action resource) := by
  have isKnown : action < world.nextId := by
    rwa [kept.nextId]
  rcases kept.consistent.releaseSuccessors isKnown with ⟨settled, freed⟩
  let FreedSafe := fun between : SchedulerWorld =>
    ∀ aa, aa ∈ world.freedBy action → Safe aa between
  have keptSettled :
      Kept nextId (fun world => Holds world ∧ FreedSafe world)
        (world.releaseSuccessors action).1 :=
    ⟨settled.consistent, settled.nextId.trans kept.nextId, settles _ settled,
      freedSafe _ settled⟩
  have freedKnown :
      ∀ aa ∈ (world.releaseSuccessors action).2, aa < nextId := by
    rw [freed]
    intro aa member
    have isPredecessor :=
      kept.consistent.mirrored action aa (mem_filter.mp member).1
    rw [← kept.nextId]
    exact kept.consistent.known_of_dependent (ne_nil_of_mem isPredecessor)
  have both :=
    scheduling.and
      (KeptByPlacing.safe condition (· ∈ world.freedBy action)
        ).toKeptByScheduling
  have keptReady := both.addAllToReady keptSettled freedKnown
  unfold World.settleSuccessors
  refine (Yields.andThen keptReady ?_).mono fun _ => And.left
  intro between keptBetween
  refine both.handleDependencyFreeActions keptBetween freedKnown ?_
    resource
  rw [freed]
  exact keptBetween.holds.2

end KeptByScheduling

namespace KeptByPlacing

variable
  (placing : KeptByPlacing Safe Holds)
  (condition : LaunchCondition Safe)

include placing condition

theorem perform
    (kept : Kept nextId Holds world)
    {work : Work}
    (known : work.Known nextId)
    (launchSafe : ∀ action, work = .launch action → Safe action world)
    (stale :
      ∀ action, work = .place action ∨ work = .refile action →
        world.env.Unassignable kind scores action → Safe action world)
    (freedSafe :
      ∀ action resource after, work = .settleSuccessors action resource →
        Settled world action after →
          ∀ aa ∈ world.freedBy action, Safe aa after) :
    Yields Safe nextId Holds (world.perform kind scores work) := by
  by_cases settling :
      ∃ action resource, work = .settleSuccessors action resource
  · rcases settling with ⟨action, resource, rfl⟩
    exact placing.toKeptByScheduling.settleSuccessors condition kept known
      (fun after settled => placing.bySettling world action after settled
        kept.holds)
      (fun after => freedSafe action resource after rfl) resource
  · apply placing.toKeptByScheduling.perform condition kept known _ launchSafe
      stale
    exact fun action resource isSettling =>
      settling ⟨action, resource, isSettling⟩

end KeptByPlacing

/-! ## The end of an execution -/

theorem Kept.actionCompleted_yields
    (kept : Kept nextId Holds world)
    (running : (world.graph action).state = .RUNNING)
    (byFiling : KeptByFiling Holds action)
    (left : KeptByLeaving Holds action .FINISHED)
    (resumed : KeptByResuming scores Holds) :
    Yields Safe nextId Holds (world.actionCompleted scores action) := by
  have known : action < world.nextId :=
    kept.consistent.known_of_state (by simp [running])
  have removed
      (env : SchedulerEnv)
      (isRemoved : world.env.removeFromReady action = .returned env ()) :
      Holds { world with env := env } := by
    have filed := @filed_changeReadyCount world.env action (-1)
    rw [show world.env.changeReadyCount action (-1) = _ from isRemoved] at filed
    exact byFiling world env filed kept.holds
  rcases kept.actionCompleted running removed left resumed with
    ⟨assignment, after, assigned, keptAfter, rests, completed⟩
  rw [kept.nextId, ← keptAfter.nextId] at known
  rw [completed]
  refine Yields.returned keptAfter (Doable.ofKnown ?_ ?_)
  · intro item member
    split at member
    · rw [mem_singleton.mp member]
      exact known
    · rcases mem_cons.mp member with rfl | last
      · trivial
      · rw [mem_singleton.mp last]
        exact known
  · intro other member
    split at member
    · exact absurd (mem_singleton.mp member) (by simp)
    · rcases mem_cons.mp member with isUpdate | last
      · exact absurd isUpdate (by simp)
      · exact absurd (mem_singleton.mp last) (by simp)

theorem Kept.errorOnAction_yields
    {Erring : SchedulerWorld → Prop}
    (kept : Kept nextId Erring world)
    (running : (world.graph action).state = .RUNNING)
    (recorded :
      ∀ assignment,
        (world.env.actions action).assigned = some assignment →
          Erring (world.recordFailure action assignment.resource))
    (left : KeptByLeaving Erring action .RUNNABLE)
    (resumed : KeptByResuming scores Erring)
    (goesOn :
      ∀ assignment after,
        (world.env.actions action).assigned = some assignment →
          Kept nextId Erring after →
            Rests action .RUNNABLE
              ((world.recordFailure action assignment.resource).env.actions
                action) after →
              Kept nextId Holds
                (if world.env.doError action then after.failCompletely action
                  else .returned after ()).state) :
    Yields Safe nextId Holds (world.errorOnAction scores action) := by
  have known : action < world.nextId :=
    kept.consistent.known_of_state (by simp [running])
  rw [kept.nextId] at known
  rcases kept.errorOnAction running recorded left resumed with
    ⟨assignment, after, assigned, keptAfter, rests, erred⟩
  rw [erred]
  refine Yields.andThen (goesOn assignment after assigned keptAfter rests) ?_
  intro between keptBetween
  rw [← keptBetween.nextId] at known
  refine Yields.returned keptBetween (Doable.ofKnown ?_ ?_)
  · intro item member
    rw [mem_singleton.mp member]
    exact known
  · intro other member
    exact absurd (mem_singleton.mp member) (by simp)

theorem Consistent.applyUpdate
    (consistent : Consistent world)
    (worker : WorkerId)
    (update : WorkerUpdate) :
    Consistent (world.modifyEnv (·.applyUpdate worker update)) := by
  apply consistent.withEnv
  · exact fun _ => .refl _
  · rfl
  · rfl
  · exact Nat.le_refl _
  · exact consistent.counted
  · exact consistent.blockedKnown
  · exact consistent.unassignedKnown

theorem KeptByScheduling.updatedWorker
    (scheduling : KeptByScheduling Safe Holds)
    (condition : LaunchCondition Safe)
    (kept : Kept nextId Holds world)
    (worker : WorkerId)
    (update : WorkerUpdate)
    (updated : Holds (world.modifyEnv (·.applyUpdate worker update))) :
    Yields Safe nextId Holds
      (world.process kind scores (.updatedWorker worker update)) :=
  scheduling.updateWorker condition
    ⟨kept.consistent.applyUpdate worker update, kept.nextId, updated⟩ worker

theorem KeptByScheduling.coreElementsUpdated
    (scheduling : KeptByScheduling Safe Holds)
    (kept : Kept nextId Holds world)
    {coreCount : Nat}
    (atLeast : world.env.coreCount ≤ coreCount)
    (features : WorkerId → WorkerFeatures) :
    Yields Safe nextId Holds
      (world.process kind scores (.coreElementsUpdated coreCount features)) := by
  refine Yields.returned (scheduling.reconfigured kept ?_) .nil
  refine ⟨rfl, rfl, rfl, fun _ => ⟨_, rfl⟩, atLeast, length_replicate,
    ?_, fun _ => id⟩
  intro action member
  simpa [SchedulerEnv.coreElementsUpdated] using member

end World

namespace Dispatcher

open World

variable
  {kind : SchedulerKind}
  {scores : Scores}
  {dispatcher : Dispatcher}
  {Safe : ActionId → SchedulerWorld → Prop}
  {Holds : SchedulerWorld → Prop}
  (Safe)

/-- What holds between the steps of the dispatcher. -/
structure Sound
    (Holds : SchedulerWorld → Prop)
    (dispatcher : Dispatcher) : Prop where
  consistent : Consistent dispatcher.world
  holds : Holds dispatcher.world
  doable : Doable Safe dispatcher.world dispatcher.agenda

variable {Safe}

theorem Sound.kept
    (sound : Sound Safe Holds dispatcher) :
    Kept dispatcher.world.nextId Holds dispatcher.world :=
  ⟨sound.consistent, rfl, sound.holds⟩

variable {nextId : ActionId}

theorem sound_after
    {outcome : Outcome SchedulerWorld (List Work)}
    {rest : List Work}
    (yields :
      Yields Safe nextId
        (fun world => Holds world ∧
          ∀ action, .launch action ∈ rest → Safe action world)
        outcome)
    (restKnown : ∀ work ∈ rest, work.Known nextId) :
    Sound Safe Holds (after outcome rest) := by
  cases outcome with
  | returned world work =>
      have doable := yields.doable world work rfl
      refine ⟨yields.consistent, yields.holds.1, ?_, ?_⟩
      · intro item member
        rcases mem_append.mp member with new | old
        · exact doable.known item new
        · exact (restKnown item old).mono yields.nextId
      · intro action member
        rcases mem_append.mp member with new | old
        · exact doable.safe action new
        · exact yields.holds.2 action old
  | raised world exception => exact ⟨yields.consistent, yields.holds.1, .nil⟩

variable {request : Request}

theorem sound_process
    (yields :
      Yields Safe nextId Holds (dispatcher.world.process kind scores request)) :
    Sound Safe Holds (next kind dispatcher (.process scores request)) := by
  apply sound_after (yields.mono ?_)
  · exact fun _ member => absurd member not_mem_nil
  · intro world holds
    exact ⟨holds, fun _ member => absurd member not_mem_nil⟩

/-- One item of the agenda is performed. -/
theorem sound_continue
    (placing : KeptByPlacing Safe Holds)
    (condition : LaunchCondition Safe)
    (stale :
      ∀ action work rest, dispatcher.agenda = work :: rest →
        work = .place action ∨ work = .refile action →
          dispatcher.world.env.Unassignable kind scores action →
            Safe action dispatcher.world)
    (freedSafe :
      ∀ action after, Settled dispatcher.world action after →
        ∀ aa ∈ dispatcher.world.freedBy action, Safe aa after)
    (sound : Sound Safe Holds dispatcher) :
    Sound Safe Holds (next kind dispatcher (.continue scores)) := by
  rcases dispatcher with ⟨world, agenda⟩
  cases agenda with
  | nil => exact sound
  | cons work rest =>
      have safe := sound.doable.safe
      have known := sound.doable.known
      have both :=
        placing.and (.safe condition (.launch · ∈ rest))
      have keptSafe :
          Kept world.nextId
            (fun world => Holds world ∧
              ∀ action, .launch action ∈ rest → Safe action world) world :=
        ⟨sound.consistent, rfl, sound.holds,
          fun action member => safe action (mem_cons_of_mem work member)⟩
      apply sound_after
      · apply both.perform condition keptSafe (known work mem_cons_self)
        · rintro action rfl
          exact safe action mem_cons_self
        · exact fun action => stale action work rest rfl
        · exact fun action resource after _ => freedSafe action after
      · exact fun item member => known item (mem_cons_of_mem work member)

variable (deployment : Deployment)

theorem consistent_start :
    Consistent (start deployment).world := by
  constructor
  case mirrored =>
    intro action successor isSuccessor
    exact absurd isSuccessor not_mem_nil
  case successorsOnce => exact fun _ => nodup_nil
  case unknown => exact fun _ _ => rfl
  case hosted =>
    intro worker action
    simp [start, fresh, new]
  case waiting =>
    intro worker action
    simp [start, fresh, new]
  case dependent =>
    intro action depends
    exact absurd rfl depends
  case assigned =>
    intro action queued
    simp [start, fresh, new] at queued
  case reserved =>
    intro action running
    simp [start, fresh, new] at running
  case cores =>
    intro action known
    exact absurd known (Nat.not_lt_zero action)
  case counted => exact length_replicate
  case blockedKnown =>
    intro action member
    simp [start, fresh] at member
  case unassignedKnown =>
    intro action member
    simp [start, fresh] at member

theorem sound_start
    (holds : Holds (start deployment).world) :
    Sound Safe Holds (start deployment) :=
  ⟨consistent_start deployment, holds, .nil⟩

/-! ## Runs that are not restricted -/

abbrev AlwaysSafe (_ : ActionId) (_ : SchedulerWorld) : Prop := True

theorem keptByPlacing_true :
    KeptByPlacing AlwaysSafe fun _ => True where
  byFiling _ _ _ _ _ := trivial
  byAssigning _ _ _ _ _ _ := trivial
  byChange _ _ _ _ _ _ _ _ := trivial
  byCreating _ _ _ _ _ _ _ _ := trivial
  bySettling _ _ _ _ _ := trivial
  byReconfiguring _ _ _ _ := trivial

theorem launchCondition_alwaysSafe : LaunchCondition AlwaysSafe where
  kept _ := keptByPlacing_true
  ofNotRunnable _ _ _ := trivial
  ofAssigned _ _ _ _ _ := trivial
  ofCreated _ _ _ _ _ _ := trivial

/-- What a request keeps that any change of the environment keeps. -/
theorem process_yields
    {world : SchedulerWorld}
    (scheduling : KeptByScheduling AlwaysSafe Holds)
    (byEnv :
      ∀ (world : SchedulerWorld) env, Holds world →
        Holds { world with env := env })
    (left : ∀ action state, KeptByLeaving Holds action state)
    (resumed : KeptByResuming scores Holds)
    (byFailing : KeptByFailing Holds)
    (kept : Kept nextId Holds world)
    (legal : Legal world request) :
    Yields AlwaysSafe nextId Holds (world.process kind scores request) := by
  have condition := launchCondition_alwaysSafe
  have byFiling (action : ActionId) : KeptByFiling Holds action :=
    fun world env _ => byEnv world env
  cases request with
  | newAction coreId forcedResource dataPredecessors
      constrainingPredecessors =>
      exact scheduling.newAction condition kept legal.1 forcedResource
        legal.2.2.1 fun predecessor member => (legal.2.2.2 predecessor member).2
  | actionCompleted action =>
      exact kept.actionCompleted_yields legal (byFiling action)
        (left action _) resumed
  | errorOnAction action =>
      apply kept.errorOnAction_yields legal (fun _ _ => byEnv _ _ kept.holds)
        (left action _) resumed
      intro assignment after assigned keptAfter rests
      have known : action < nextId := by
        rw [← kept.nextId]
        exact kept.consistent.known_of_state (by
          rw [show (world.graph action).state = _ from legal]
          simp)
      split
      · exact (keptAfter.failCompletely known rests.1 (byFiling action)
          byFailing).1
      · exact keptAfter
  | updatedWorker worker update =>
      exact scheduling.updatedWorker condition kept worker update
        (byEnv _ _ kept.holds)
  | coreElementsUpdated coreCount features =>
      exact scheduling.coreElementsUpdated kept legal.1 features

theorem sound_next
    {action : Dispatcher.Action}
    (enabled : Enabled dispatcher action)
    (sound : Sound AlwaysSafe (fun _ => True) dispatcher) :
    Sound AlwaysSafe (fun _ => True) (next kind dispatcher action) := by
  have placing := keptByPlacing_true
  cases action with
  | process scores request =>
      exact sound_process (process_yields placing.toKeptByScheduling
        (fun _ _ _ => trivial) (fun _ _ _ _ _ _ _ _ _ _ => trivial)
        (fun _ _ _ _ _ _ _ _ _ _ _ => trivial) (fun _ _ _ _ _ => trivial)
        sound.kept enabled.2)
  | «continue» scores =>
      exact sound_continue placing launchCondition_alwaysSafe
        (fun _ _ _ _ _ _ => trivial) (fun _ _ _ _ _ => trivial) sound

/-! ## A deployment of workers with one processor each -/

variable (units : Nat)

theorem noNegativeAmounts_ofUnits :
    (ofUnits [(units : Int)]).NoNegativeAmounts := by
  constructor
  · intro p member
    have isOne : p = ⟨.unassigned, units⟩ := by
      simpa [ofUnits,
        addProcessor,
        countUnits,
        empty] using member
    rw [isOne]
    exact Int.natCast_nonneg units
  · intro size hasSize
    exact absurd hasSize (by
      simp [ofUnits,
        addProcessor,
        countUnits,
        empty])

def implementationOf : Implementation where
  requirements := .ofUnits [(units : Int)]
  noNegativeAmounts := noNegativeAmounts_ofUnits units

/-- One core has an implementation that uses this many computing units. -/
def featuresOf : WorkerFeatures where
  executableCores := [0]
  executableImpls core := if core = 0 then [implementationOf units] else []
  idealSimultaneousTasks core := if core = 0 then 1 else 0
  canRun _ := true
  executable_canRun _ _ _ := rfl

def updateOf (workerUnits taskUnits : Nat) : WorkerUpdate where
  features := featuresOf taskUnits
  description := .ofUnits [(workerUnits : Int)]
  noNegativeAmounts := noNegativeAmounts_ofUnits workerUnits
  available := .ofUnits [(workerUnits : Int)]

def singleProcessors : Deployment where
  workers _ :=
    { type := .WORKER
      description := .ofUnits [0]
      noNegativeAmounts := noNegativeAmounts_ofUnits 0
      features := featuresOf 0
      available := .ofUnits [0]
      usedTaskCount := 0
      maxTaskCount := 10
      usedTaskCountOf := fun _ => 0
      maxTaskCountOf := fun _ => 0 }
  unused _ := rfl
  allAvailable _ := rfl
  coreCount := 1

/-- Scores that prefer the first worker. -/
def firstWorkerScores : Scores where
  implementationScore _ _ worker _ := ⟨0, if worker = 0 then 1 else 0, 0, 0⟩
  isBetter := Score.isBetter
  executionOrder := id
  executionOrder_perm _ := .refl _
  waitingOrder _ := id
  waitingOrder_perm _ _ := .refl _

section Steps

variable
  {deployment : Deployment}
  {action : ActionId}

theorem continue_enabled (left : dispatcher.agenda ≠ []) :
    (system kind deployment).Enabled dispatcher (.continue scores) ∧
      anyStep dispatcher (Action.continue scores) :=
  ⟨left, trivial⟩

variable (idle : dispatcher.agenda = [])

include idle

theorem completed_enabled
    (running : (dispatcher.world.graph action).state = .RUNNING) :
    (system kind deployment).Enabled dispatcher
        (.process scores (.actionCompleted action)) ∧
      anyStep dispatcher (Action.process scores (.actionCompleted action)) :=
  ⟨⟨idle, running⟩, trivial⟩

theorem error_enabled
    (running : (dispatcher.world.graph action).state = .RUNNING) :
    (system kind deployment).Enabled dispatcher
        (.process scores (.errorOnAction action)) ∧
      anyStep dispatcher (Action.process scores (.errorOnAction action)) :=
  ⟨⟨idle, running⟩, trivial⟩

theorem updated_enabled
    {worker : WorkerId}
    {workerUnits taskUnits : Nat}
    (registered : 0 < dispatcher.world.env.coreCount) :
    (system kind deployment).Enabled dispatcher
        (.process scores
          (.updatedWorker worker (updateOf workerUnits taskUnits))) ∧
      anyStep dispatcher
        (Action.process scores
          (.updatedWorker worker (updateOf workerUnits taskUnits))) := by
  refine ⟨⟨idle, ?_⟩, trivial⟩
  intro coreId member
  rwa [mem_singleton.mp member]

/-- A task that depends on no other. -/
theorem submitted_enabled
    (registered : 0 < dispatcher.world.env.coreCount) :
    (system kind deployment).Enabled dispatcher
        (.process scores (.newAction 0 none [] [])) ∧
      anyStep dispatcher (Action.process scores (.newAction 0 none [] [])) :=
  ⟨⟨idle, registered, by simp, by simp, by simp⟩, trivial⟩

end Steps

end Dispatcher

end DistributedRdf.Scheduling
