import DistributedRdf.HeldActions

namespace DistributedRdf.Scheduling

open Java Relation Execution List World Held SchedulerEnv ActionDetails Work
open Changes Consistent LinkedList

/-!
# What the steps of the dispatcher do to the account

Every step takes actions out of the hand, files them or launches them, and hands
over the actions that have become ready.
-/

namespace World

variable
  {kind : SchedulerKind}
  {scores : Scores}
  {world after : SchedulerWorld}
  {action : ActionId}
  {exact : Prop}
  {hand rest : List ActionId}

/-! ## Work on the agenda -/

/-- The promise to an action that is taken out of the hand by a purge. -/
def PurgedSafely
    (exact : Prop)
    (kind : SchedulerKind)
    (scores : Scores)
    (env : SchedulerEnv)
    (action : ActionId)
    (resource : WorkerId) : Prop :=
  exact → env.TakesAsTarget kind scores action resource →
    env.MeetsConstraint action resource ∨
      env.TakenByPredecessor kind scores action

theorem HeldOnce.launch
    (held : HeldOnce exact world (action :: rest))
    (mayBeLost : ¬ exact) :
    HandsOver exact rest (world.perform kind scores (.launch action)) := by
  have changes := @tryToLaunch_changes kind scores world action
  have gives : Gives exact rest (world.tryToLaunch kind scores action) :=
    ⟨held.launched (changedOnly changes)
      fun isExact => absurd isExact mayBeLost,
      fun isExact => absurd isExact mayBeLost⟩
  exact gives.done

/-- The actions that were unassigned come into the hand. -/
theorem HeldOnce.placeWithUnassigned
    {freeActions : List ActionId}
    (held : HeldOnce exact world (freeActions ++ rest)) :
    HandsOver exact rest
      (.returned (world.placeWithUnassigned scores freeActions).1
        (world.placeWithUnassigned scores freeActions).2) := by
  refine ⟨held.refiled rfl rfl fun other => ?_, ?_⟩
  · simp only [World.placeWithUnassigned, modifyEnv, handOf_place, filedCount,
      ActionSet.getAllActions_removeAllActions, count_nil,
      count_append, (scores.executionOrder_perm _).count_eq other]
    omega
  · intro action member
    rcases mem_map.mp member with ⟨_, _, isPlace⟩
    exact absurd isPlace (by simp)

theorem HeldOnce.purge
    {remaining kept : List ActionId}
    (held : HeldOnce exact world (remaining ++ kept ++ rest))
    (resource : WorkerId)
    (safe :
      ∀ action later, remaining = action :: later →
        PurgedSafely exact kind scores world.env action resource) :
    HandsOver exact rest
      (world.purge kind scores kept resource remaining) := by
  have noLaunch (remaining kept : List ActionId) (action : ActionId) :
      .launch action ∈ [Work.purge remaining kept resource] → ¬ exact := by
    intro member
    exact absurd (mem_singleton.mp member) (by simp)
  cases remaining with
  | nil => exact held.placeWithUnassigned
  | cons action later =>
      have heldFirst : HeldOnce exact world (action :: (later ++ kept ++ rest)) :=
        held
      rcases @purge_ready kind scores world action kept later
          (heldFirst.isReady mem_cons_self) resource with
        ⟨_, isKept⟩ | ⟨outcome, changes, launched, isTried⟩
      · rw [isKept]
        refine ⟨held.refiled rfl rfl fun other => ?_, noLaunch _ _⟩
        simp only [handOf, flatMap_cons, flatMap_nil, hand,
          count_append, count_cons, count_nil]
        omega
      · rw [isTried]
        have isLaunched (isExact : exact) : Launched action outcome :=
          launched (safe action later rfl isExact)
        have gives : Gives exact (later ++ kept ++ rest) outcome := by
          refine ⟨heldFirst.launched (changedOnly changes) ?_, ?_⟩
          · intro isExact
            rcases isLaunched isExact with ⟨after, returned, notRunnable⟩
            rwa [returned]
          · intro isExact
            exact (isLaunched isExact).imp fun _ launched => launched.1
        refine gives.andThen fun after _ heldAfter => ⟨?_, noLaunch _ _⟩
        refine heldAfter.refiled rfl rfl fun other => ?_
        simp [handOf, hand]

/-- The successors that are freed come into the hand. -/
theorem HeldOnce.settled
    {released : SchedulerWorld}
    (held : HeldOnce exact world rest)
    (consistent : Consistent world)
    (settled : Settled world action released) :
    HeldOnce exact released (world.freedBy action ++ rest) := by
  intro other
  have sameFiled : released.filedCount other = world.filedCount other := by
    rw [filedCount, filedCount, settled.env]
  have heldBefore := held other
  by_cases isSuccessor : other ∈ (world.graph action).dataSuccessors.items
  · have isPredecessor := consistent.mirrored action other isSuccessor
    have depends := ne_nil_of_mem isPredecessor
    have notReady : ¬ world.IsReady other := fun ready => depends ready.free
    have runnable : (released.graph other).state = .RUNNABLE := by
      rw [settled.state]
      exact (consistent.dependent other depends).resolve_right
        heldBefore.notFailed
    have none := heldBefore.eq_zero notReady
    rw [sameFiled, count_append, Nat.add_left_comm, none, Nat.add_zero]
    have predecessors := settled.predecessors other
    rw [if_pos isSuccessor] at predecessors
    have once : (world.freedBy action).Nodup :=
      (consistent.successorsOnce action).filter _
    by_cases isFree :
        (world.graph other).dataPredecessors.items.filter (· ≠ action) = []
    · have freed : other ∈ world.freedBy action :=
        mem_filter.mpr ⟨isSuccessor, by simpa using isFree⟩
      rw [count_eq_one_of_mem once freed]
      refine present ⟨?_, runnable, predecessors.trans isFree⟩
      rw [settled.nextId]
      exact consistent.known_of_dependent depends
    · have notFreed : other ∉ world.freedBy action := by
        intro freed
        exact isFree (by simpa using (mem_filter.mp freed).2)
      rw [count_eq_zero_of_not_mem notFreed]
      refine absent (by simp [runnable]) fun ready => isFree ?_
      rw [← predecessors]
      exact ready.free
  · have notFreed : other ∉ world.freedBy action :=
      fun freed => isSuccessor (mem_filter.mp freed).1
    rw [sameFiled, count_append,
      count_eq_zero_of_not_mem notFreed, Nat.zero_add]
    refine heldBefore.congr (by rw [settled.nextId]) (settled.state other) ?_
    rw [settled.predecessors, if_neg isSuccessor]

theorem HeldOnce.handleDependencyFreeActions
    {dataFreeActions : List ActionId}
    (held : HeldOnce exact world (dataFreeActions ++ rest))
    (notBase : exact → kind ≠ .base)
    (resource : WorkerId) :
    let handled :=
      world.handleDependencyFreeActions kind scores dataFreeActions resource
    HandsOver exact rest (.returned handled.1 handled.2) := by
  have reordered :
      HeldOnce exact world
        (scores.executionOrder dataFreeActions ++ rest) := by
    refine held.refiled rfl rfl fun other => ?_
    simp only [count_append,
      (scores.executionOrder_perm dataFreeActions).count_eq other]
  cases kind with
  | base =>
      have mayBeLost : ¬ exact := fun isExact => notBase isExact rfl
      refine ⟨?_, fun _ _ => mayBeLost⟩
      rwa [handleDependencyFreeActions, handOf_launch]
  | ready => exact held.placeWithUnassigned
  | fifoData =>
      refine ⟨?_, ?_⟩
      · simpa [handleDependencyFreeActions, handOf, hand] using
          reordered
      · intro action member
        exact absurd (mem_singleton.mp member) (by simp)

theorem HeldOnce.settleSuccessors
    (held : HeldOnce exact world rest)
    (consistent : Consistent world)
    (known : action < world.nextId)
    (notBase : exact → kind ≠ .base)
    (resource : WorkerId) :
    HandsOver exact rest
      (world.settleSuccessors kind scores action resource) := by
  rcases @settleSuccessors_eq kind scores world action consistent
      known resource with
    ⟨released, counts, settled, _, isSettled⟩
  rw [isSettled]
  exact ((held.settled consistent settled).recount
    counts).handleDependencyFreeActions notBase resource

/-! ## New actions and workers -/

variable {env : SchedulerEnv}

/-- A change of the environment that files nothing keeps the account. -/
theorem HeldOnce.withEnv
    (held : HeldOnce exact world hand)
    (unassigned :
      env.unassignedReadyActions.getAllActions =
        world.env.unassignedReadyActions.getAllActions)
    (blocked :
      env.blockedActions.getAllActions =
        world.env.blockedActions.getAllActions) :
    HeldOnce exact { world with env := env } hand := by
  refine held.refiled rfl rfl fun other => ?_
  rw [filedCount, filedCount]
  dsimp only
  rw [unassigned, blocked]

/-- A new action is in the account if it depends on no other. -/
theorem HeldOnce.created
    {actionKind : ActionKind}
    {dataPredecessors : List ActionId}
    (held : HeldOnce exact world hand)
    (consistent : Consistent world)
    (created : Created world actionKind dataPredecessors after) :
    HeldOnce exact after
      ((if (after.graph world.nextId).dataPredecessors.items = [] then
        [world.nextId] else []) ++ hand) := by
  have notKnown : ¬ world.IsReady world.nextId :=
    fun ready => absurd ready.known (Nat.lt_irrefl _)
  have none := (held world.nextId).eq_zero notKnown
  have runnable : (after.graph world.nextId).state = .RUNNABLE := by
    rw [created.state, consistent.state_nextId]
  have sameFiled (other : ActionId) :
      after.filedCount other = world.filedCount other := by
    rw [filedCount, filedCount, created.env]
    rfl
  refine @frame world after world.nextId exact hand _ held ?_ ?_ ?_ ?_
  · intro other different
    rw [created.nextId]
    exact ⟨fun known => Nat.lt_of_le_of_ne (Nat.lt_succ_iff.mp known) different,
      fun known => known.trans (Nat.lt_succ_self _)⟩
  · intro other different
    exact ⟨created.state other, by rw [created.predecessors other different]⟩
  · intro other different
    rw [sameFiled, count_append]
    split
    · rw [count_singleton, if_neg (by simpa using Ne.symm different),
        Nat.zero_add]
    · rw [count_nil, Nat.zero_add]
  · rw [sameFiled, count_append, Nat.add_left_comm, none, Nat.add_zero]
    split
    · rename_i free
      rw [count_singleton_self]
      refine present ⟨?_, runnable, free⟩
      rw [created.nextId]
      exact Nat.lt_succ_self _
    · rename_i depends
      exact absent (by simp [runnable]) fun ready => depends ready.free

/-- The action that starts a worker is launched there. -/
theorem placeable_startWorker
    {worker : WorkerId}
    (ofKind : (env.actions action).kind = .startWorker worker)
    (notBase : exact → kind ≠ .base) :
    Placeable exact kind scores env action where
  launched isExact := by
    refine ⟨notBase isExact, [worker], ?_, ?_⟩
    · simp only [candidates, ofKind]
    · intro _ _ _
      left
      intro constrained
      simp [isSchedulingConstrained,
        getConstrainingPredecessors, ofKind] at constrained
  notStale _ unassignable := by
    rcases isExecution_of_unassignable unassignable with ⟨coreId, ofCore⟩
    simp [firstImplementation, ofKind] at ofCore

theorem HeldOnce.updateWorker
    (held : HeldOnce exact world rest)
    (consistent : Consistent world)
    (notBase : exact → kind ≠ .base)
    (worker : WorkerId) :
    HandsOver exact rest (world.updateWorker kind scores worker) := by
  rcases @updateWorker_eq kind scores world worker with
    ⟨refile, isRefiled, isUpdated⟩
  have refiles
      (started : SchedulerWorld)
      (heldStarted : HeldOnce exact started rest) :
      HandsOver exact rest (refile started) := by
    rcases isRefiled started with ⟨refiled, set, removed, returned⟩
    rw [returned]
    refine ⟨heldStarted.refiled rfl rfl fun other => ?_, ?_⟩
    · have counts := removed.count_eq other
      rw [count_append] at counts
      simp only [filedCount, handOf_refile, count_append,
        (scores.executionOrder_perm refiled).count_eq other]
      change
        started.env.unassignedReadyActions.getAllActions.count other + _ + _ = _
      omega
    · intro action member
      rcases mem_map.mp member with ⟨_, _, isReadmit⟩
      exact absurd isReadmit (by simp)
  have starts :
      Gives exact rest
        (if worker ∈ world.env.registered then .returned world ()
          else
            ((world.register worker).create
              (.startWorker worker)).newAllocatableAction kind scores
                world.nextId) := by
    split
    · exact ⟨held, fun _ => ⟨world, rfl⟩⟩
    · have registered := consistent.register worker
      have created := @Consistent.create _ registered (.startWorker worker) (by simp)
      have heldRegistered : HeldOnce exact (world.register worker) rest :=
        held.withEnv rfl rfl
      have heldCreated := heldRegistered.created registered created
      have free :
          (((world.register worker).create (.startWorker worker)).graph
            (world.register worker).nextId).dataPredecessors.items = [] := by
        simp [create, ActionNode.new, empty]
      rw [if_pos free] at heldCreated
      have ofKind :
          (((world.register worker).create (.startWorker worker)).env.actions
            world.nextId).kind = .startWorker worker := by
        simp [create, register, modifyEnv, new]
      exact heldCreated.newAllocatableAction created.consistent
        (placeable_startWorker ofKind notBase)
  rw [isUpdated]
  exact starts.andThen fun started _ => refiles started

/-- An action that is not ready may be assigned. -/
theorem HeldOnce.changedDependent
    (held : HeldOnce exact world hand)
    (depends : (world.graph action).dataPredecessors.items ≠ [])
    (changed : ChangedOnly world action after) :
    HeldOnce exact after hand := by
  have sameFiled (other : ActionId) :
      after.filedCount other = world.filedCount other := by
    rw [filedCount, filedCount, changed.unassigned, changed.blocked]
  have notReady : ¬ world.IsReady action := fun ready => depends ready.free
  refine @frame world after action exact hand hand held ?_ ?_ ?_ ?_
  · intro other _
    rw [changed.nextId]
  · intro other different
    exact ⟨changed.others other different, by rw [changed.predecessors]⟩
  · intro other _
    rw [sameFiled]
  · rw [sameFiled, (held action).eq_zero notReady]
    refine absent ?_ fun ready => depends ?_
    · rcases changed.self with same | ⟨_, running | isWaiting⟩
      · rw [same]
        exact (held action).notFailed
      · simp [running]
      · simp [isWaiting]
    · rw [← changed.predecessors]
      exact ready.free

theorem HeldOnce.newAction
    {coreId : CoreId}
    {forcedResource : Option WorkerId}
    {dataPredecessors constrainingPredecessors : List ActionId}
    (held : HeldOnce exact world [])
    (consistent : Consistent world)
    (notBase : exact → kind ≠ .base)
    (coreKnown : coreId < world.env.coreCount)
    (predecessorsKnown :
      ∀ predecessor ∈ dataPredecessors, predecessor < world.nextId)
    (placeable :
      let created :=
        world.createExecution coreId forcedResource dataPredecessors
          constrainingPredecessors
      if (created.graph world.nextId).dataPredecessors.items = [] then
        Placeable exact kind scores created.env world.nextId
      else
        kind = .base →
          ∀ workers, created.env.candidates world.nextId = .ok workers →
            created.env.usefulResources world.nextId workers ≠ []) :
    HandsOver exact []
      (world.process kind scores
        (.newAction coreId forcedResource dataPredecessors
          constrainingPredecessors)) := by
  have created :=
    Created.createExecution consistent coreKnown forcedResource
      predecessorsKnown constrainingPredecessors
  have heldCreated := held.created consistent created
  rw [process]
  generalize world.createExecution coreId forcedResource dataPredecessors
    constrainingPredecessors = after at created heldCreated placeable ⊢
  by_cases free : (after.graph world.nextId).dataPredecessors.items = []
  · dsimp only at placeable
    rw [if_pos free] at heldCreated placeable
    exact (heldCreated.newAllocatableAction created.consistent placeable).done
  · dsimp only at placeable
    rw [if_neg free, append_nil] at heldCreated
    rw [if_neg free] at placeable
    have ofCore :
        ∃ coreId, after.env.firstImplementation world.nextId =
          .ofCore coreId := by
      refine ⟨coreId, ?_⟩
      rw [created.env]
      simp [firstImplementation, new]
    have known : world.nextId < after.nextId := by
      rw [created.nextId]
      exact Nat.lt_succ_self _
    have hasPredecessors := hasDataPredecessors_iff.mpr free
    have placed :=
      @place_dependent kind scores after world.nextId created.consistent known
        ofCore free placeable
    unfold World.newAllocatableAction
    rw [if_pos hasPredecessors, Outcome.andThen_returned]
    refine Gives.done ?_
    rcases placed with ⟨set, isFiled⟩ | ⟨isBase, changes⟩
    · rw [isFiled]
      exact ⟨heldCreated.withEnv rfl rfl, fun _ => ⟨_, rfl⟩⟩
    · exact ⟨heldCreated.changedDependent free (changedOnly changes),
        fun isExact => absurd isBase (notBase isExact)⟩

/-! ## The end of an execution -/

/-- An action that does not run for a worker to come is in no account. -/
theorem HeldOnce.changedState
    {otherHand : List ActionId}
    (held : HeldOnce exact world hand)
    (notReady : ¬ world.IsReady action)
    (nextId : after.nextId = world.nextId)
    (others : ∀ other ≠ action, after.graph other = world.graph other)
    (sameFiled : ∀ other, after.filedCount other = world.filedCount other)
    (sameHand : ∀ other ≠ action, otherHand.count other = hand.count other)
    (self : Held exact after action (otherHand.count action)) :
    HeldOnce exact after otherHand := by
  refine @frame world after action exact hand otherHand held ?_ ?_ ?_ ?_
  · intro other _
    rw [nextId]
  · intro other different
    rw [others other different]
    exact ⟨rfl, rfl⟩
  · intro other different
    rw [sameFiled, sameHand other different]
  · have none := (held action).eq_zero notReady
    rwa [sameFiled, Nat.eq_zero_of_add_eq_zero_right none, Nat.zero_add]

/-- An action that has left its worker is ready, or it has finished. -/
def handAfter (world : SchedulerWorld) (action : ActionId) : List ActionId :=
  if (world.graph action).state = .RUNNABLE then [action] else []

theorem keptByResuming_heldOnce (action : ActionId) :
    KeptByResuming scores fun world =>
      HeldOnce exact world (world.handAfter action) := by
  intro world worker resumed rest assignment _ _ waits _ _ held
  have different : action = resumed → (world.graph action).state ≠ .RUNNABLE := by
    rintro rfl
    simp [waits]
  have sameHand :
      (runOn
        { world with env := world.env.removeFirstBlocked scores worker }
        resumed assignment).handAfter action = world.handAfter action := by
    unfold handAfter
    rw [runOn_graph]
    by_cases same : action = resumed
    · rw [if_neg (different same), same, setState_state_self]
      rfl
    · rw [setState_of_ne same]
  have notReady : ¬ world.IsReady resumed := by
    intro ready
    exact absurd (ready.runnable.symm.trans waits) (by simp)
  rw [sameHand]
  refine held.changedState notReady rfl ?_ (fun _ => rfl) (fun _ _ => rfl) ?_
  · intro other isOther
    rw [runOn_graph, setState_of_ne isOther]
  · have none := (held resumed).eq_zero notReady
    rw [Nat.eq_zero_of_add_eq_zero_left none]
    refine absent ?_ fun ready => ?_
    · rw [runOn_graph, setState_state_self]
      simp
    · have runnable := ready.runnable
      rw [runOn_graph, setState_state_self] at runnable
      exact absurd runnable (by simp)

theorem keptByLeaving_heldOnce
    {state : ActionState}
    (isOver : state = .RUNNABLE ∨ state = .FINISHED) :
    KeptByLeaving
      (fun world => HeldOnce exact world (world.handAfter action)) action
      state := by
  intro world assignment worker consistent running assigned ended held
  have notReady : ¬ world.IsReady action := by
    intro ready
    exact absurd (ready.runnable.symm.trans running) (by simp)
  have stateAfter :
      ((world.leftBy action state assignment.resource worker).graph
        action).state = state :=
    setState_state_self state
  have noHand : world.handAfter action = [] := by
    rw [handAfter, running, if_neg (by simp)]
  refine held.changedState notReady rfl ?_ (fun _ => rfl) ?_ ?_
  · exact fun other different => setState_of_ne different state
  · intro other different
    rw [noHand, handAfter]
    split
    · simp [Ne.symm different]
    · rfl
  · rcases isOver with rfl | rfl
    · rw [handAfter, stateAfter, if_pos rfl, count_singleton_self]
      refine present ⟨?_, stateAfter, ?_⟩
      · exact consistent.known_of_state (by simp [running])
      · exact (congrArg items
          (setState_dataPredecessors ActionState.RUNNABLE)).trans
            (consistent.free_of_running running)
    · rw [handAfter, stateAfter, if_neg (by simp), count_nil]
      refine absent (by simp [stateAfter]) fun ready => ?_
      exact absurd (stateAfter.symm.trans ready.runnable) (by simp)

variable (held : HeldOnce exact world [])

include held

theorem HeldOnce.actionCompleted
    (consistent : Consistent world)
    (running : (world.graph action).state = .RUNNING) :
    HandsOver exact [] (world.actionCompleted scores action) := by
  have kept : Kept world.nextId (fun _ => True) world :=
    ⟨consistent, rfl, trivial⟩
  have noHand : world.handAfter action = [] := by
    rw [handAfter, running, if_neg (by simp)]
  have removed
      (env : SchedulerEnv)
      (isRemoved : world.env.removeFromReady action = .returned env ()) :
      HeldOnce exact { world with env := env }
        (handAfter { world with env := env } action) := by
    rcases changeReadyCount_returned isRemoved with
      ⟨counts, rfl, _⟩
    change HeldOnce exact _ (world.handAfter action)
    rw [noHand]
    exact held.withEnv rfl rfl
  rcases kept.actionCompleted running removed
      (keptByLeaving_heldOnce (.inr rfl)) (keptByResuming_heldOnce action) with
    ⟨assignment, after, assigned, keptAfter, rests, completed⟩
  have heldAfter := keptAfter.holds
  rw [handAfter, rests.1, if_neg (by simp)] at heldAfter
  rw [completed]
  split
  · refine ⟨heldAfter, fun other member => ?_⟩
    exact absurd (mem_singleton.mp member) (by simp)
  · refine ⟨heldAfter, fun other member => ?_⟩
    simp at member

/-- An action that is tried again comes into the hand. -/
theorem HeldOnce.errorOnAction
    (consistent : Consistent world)
    (running : (world.graph action).state = .RUNNING)
    (triedAgain : world.env.doError action = false) :
    HandsOver exact [] (world.errorOnAction scores action) := by
  have noHand : world.handAfter action = [] := by
    rw [handAfter, running, if_neg (by simp)]
  have kept :
      Kept world.nextId (fun world =>
        HeldOnce exact world (world.handAfter action)) world := by
    refine ⟨consistent, rfl, ?_⟩
    rwa [noHand]
  have recorded
      (assignment : Assignment)
      (_ : (world.env.actions action).assigned = some assignment) :
      HeldOnce exact (world.recordFailure action assignment.resource)
        ((world.recordFailure action assignment.resource).handAfter action) := by
    change HeldOnce exact _ (world.handAfter action)
    rw [noHand]
    exact held.withEnv rfl rfl
  rcases kept.errorOnAction running recorded
      (keptByLeaving_heldOnce (.inl rfl)) (keptByResuming_heldOnce action) with
    ⟨assignment, after, assigned, keptAfter, rests, erred⟩
  have heldAfter := keptAfter.holds
  rw [handAfter, rests.1, if_pos rfl] at heldAfter
  rw [erred, triedAgain]
  refine ⟨heldAfter, fun other member => ?_⟩
  exact absurd (mem_singleton.mp member) (by simp)

end World

/-! ## Steps and runs -/

namespace Dispatcher

open World

variable
  {kind : SchedulerKind}
  {scores : Scores}
  {dispatcher : Dispatcher}
  {exact : Prop}

/-- Every ready action is filed once or it is on the agenda once. -/
structure Accounted (exact : Prop) (dispatcher : Dispatcher) : Prop where
  held : HeldOnce exact dispatcher.world (handOf dispatcher.agenda)
  noLaunch : ∀ action, .launch action ∈ dispatcher.agenda → ¬ exact

/-- What is promised of a step. -/
def PlacesSafely
    (exact : Prop)
    (kind : SchedulerKind)
    (dispatcher : Dispatcher) : Dispatcher.Action → Prop
  | .process scores (.newAction coreId forcedResource dataPredecessors
      constrainingPredecessors) =>
      let world := dispatcher.world
      let created :=
        world.createExecution coreId forcedResource dataPredecessors
          constrainingPredecessors
      if (created.graph world.nextId).dataPredecessors.items = [] then
        Placeable exact kind scores created.env world.nextId
      else
        kind = .base →
          ∀ workers, created.env.candidates world.nextId = .ok workers →
            created.env.usefulResources world.nextId workers ≠ []
  | .process _ (.errorOnAction action) =>
      dispatcher.world.env.doError action = false
  | .process _ _ => True
  | .continue scores =>
      match dispatcher.agenda with
      | .place action :: _ | .refile action :: _ =>
          Placeable exact kind scores dispatcher.world.env action
      | .purge (action :: _) _ resource :: _ =>
          PurgedSafely exact kind scores dispatcher.world.env action resource
      | _ => True

theorem accounted_after
    {outcome : Outcome SchedulerWorld (List Work)}
    {rest : List Work}
    (handsOver : HandsOver exact (handOf rest) outcome)
    (noLaunch : ∀ action, .launch action ∈ rest → ¬ exact) :
    Accounted exact (after outcome rest) := by
  cases outcome with
  | returned world work =>
      refine ⟨?_, ?_⟩
      · simpa only [after, handOf_append] using handsOver.1
      · intro action member
        rcases mem_append.mp member with new | old
        · exact handsOver.2 action new
        · exact noLaunch action old
  | raised world exception =>
      exact ⟨handsOver.2, fun _ member => absurd member not_mem_nil⟩

theorem accounted_continue
    (accounted : Accounted exact dispatcher)
    (sound : Sound AlwaysSafe (fun _ => True) dispatcher)
    (notBase : exact → kind ≠ .base)
    (safely : PlacesSafely exact kind dispatcher (.continue scores)) :
    Accounted exact (next kind dispatcher (.continue scores)) := by
  rcases dispatcher with ⟨world, agenda⟩
  cases agenda with
  | nil => exact accounted
  | cons work rest =>
      have known := sound.doable.known work mem_cons_self
      have held := accounted.held
      refine accounted_after ?_
        (fun action member =>
          accounted.noLaunch action (mem_cons_of_mem work member))
      cases work with
      | place action => exact (HeldOnce.place held sound.consistent safely).done
      | refile action =>
          exact (HeldOnce.newAllocatableAction held sound.consistent
            safely).done
      | launch action =>
          exact HeldOnce.launch held
            (accounted.noLaunch action mem_cons_self)
      | purge remaining kept resource =>
          apply HeldOnce.purge held resource
          rintro action later rfl
          exact safely
      | settleSuccessors action resource =>
          exact HeldOnce.settleSuccessors held sound.consistent known notBase
            resource
      | updateWorker worker =>
          exact HeldOnce.updateWorker held sound.consistent notBase worker

theorem accounted_next
    {action : Dispatcher.Action}
    (accounted : Accounted exact dispatcher)
    (sound : Sound AlwaysSafe (fun _ => True) dispatcher)
    (notBase : exact → kind ≠ .base)
    (enabled : Enabled dispatcher action)
    (safely : PlacesSafely exact kind dispatcher action) :
    Accounted exact (next kind dispatcher action) := by
  cases action with
  | «continue» scores => exact accounted_continue accounted sound notBase safely
  | process scores request =>
      rcases enabled with ⟨idle, legal⟩
      have held := accounted.held
      rw [idle] at held
      refine accounted_after ?_ (fun _ member => absurd member not_mem_nil)
      cases request with
      | newAction coreId forcedResource dataPredecessors
          constrainingPredecessors =>
          exact HeldOnce.newAction held sound.consistent notBase legal.1
            legal.2.2.1 safely
      | actionCompleted action =>
          exact HeldOnce.actionCompleted held sound.consistent legal
      | errorOnAction action =>
          exact HeldOnce.errorOnAction held sound.consistent legal safely
      | updatedWorker worker update =>
          have updated :
              HeldOnce exact
                (dispatcher.world.modifyEnv (·.applyUpdate worker update)) [] :=
            held.withEnv rfl rfl
          exact updated.updateWorker
            (sound.consistent.applyUpdate worker update) notBase worker
      | coreElementsUpdated coreCount features =>
          refine ⟨held.withEnv rfl ?_,
            fun _ member => absurd member not_mem_nil⟩
          exact ActionSet.getAllActions_updateCoreCount _ _

theorem accounted_start (deployment : Deployment) :
    Accounted exact (start deployment) := by
  refine ⟨fun action => ?_, fun _ member => absurd member not_mem_nil⟩
  have none : (start deployment).world.filedCount action = 0 := by
    simp [start, filedCount, fresh]
  rw [none]
  refine absent (by simp [start, fresh, ActionNode.new]) fun ready => ?_
  exact absurd ready.known (Nat.not_lt_zero action)

end Dispatcher

end DistributedRdf.Scheduling
