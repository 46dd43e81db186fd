import DistributedRdf.TotalFailure

namespace DistributedRdf.Scheduling

open Java Relation SchedulerEnv Outcome ActionNode

/-!
# What the operations of the scheduler keep

Each operation keeps what its changes of the state keep, so that an invariant
is proved change by change.
-/

namespace World

variable
  {kind : SchedulerKind}
  {scores : Scores}
  {world : SchedulerWorld}
  {action : ActionId}
  {assignment : Assignment}
  {nextId : ActionId}
  {Holds : SchedulerWorld → Prop}

theorem Consistent.filed
    (consistent : Consistent world)
    (known : action < world.nextId)
    {env : SchedulerEnv}
    (filed : world.env.Filed action env) :
    Consistent { world with env := env } := by
  apply consistent.withEnv
  · intro other
    rw [filed.actions]
    exact .refl _
  · exact filed.hosted
  · exact filed.waiting
  · exact filed.coreCount.ge
  · rw [filed.counted, filed.coreCount]
    exact consistent.counted
  · intro other member
    rcases filed.blocked other member with rfl | before
    · exact known
    · exact consistent.blockedKnown other before
  · intro other member
    rcases filed.unassigned other member with rfl | before
    · exact known
    · exact consistent.unassignedKnown other before

/-- Filing the action in the collections keeps what is claimed. -/
def KeptByFiling (Holds : SchedulerWorld → Prop) (action : ActionId) : Prop :=
  ∀ world env, world.env.Filed action env → Holds world →
    Holds { world with env := env }

theorem Kept.callHook
    (kept : Kept nextId Holds world)
    (known : action < nextId)
    (byFiling : KeptByFiling Holds action)
    {hook : SchedulerEnv → Outcome SchedulerEnv Unit}
    (filed : world.env.Filed action (hook world.env).state) :
    Kept nextId Holds (world.callHook hook).state := by
  rw [World.callHook, state_onState]
  have isKnown : action < world.nextId := by
    rwa [kept.nextId]
  exact ⟨kept.consistent.filed isKnown filed, kept.nextId,
    byFiling world _ filed kept.holds⟩

theorem Kept.block
    (kept : Kept nextId Holds world)
    (known : action < nextId)
    (byFiling : KeptByFiling Holds action) :
    Kept nextId Holds (world.block action).state := by
  refine andThen_preserves
    (kept.callHook known byFiling
      (filed_changeReadyCount (-1))) ?_
  intro between _ keptBetween
  exact keptBetween.callHook known byFiling filed_addToBlocked

/-! ## New actions -/

variable (world)

/-- An action has been constructed, with the dependencies it is given. -/
structure Created
    (actionKind : ActionKind)
    (dataPredecessors : List ActionId)
    (after : SchedulerWorld) : Prop where
  consistent : Consistent after
  nextId : after.nextId = world.nextId + 1
  env :
    after.env = world.env.modifyAction world.nextId fun _ => .new actionKind
  state :
    ∀ other, (after.graph other).state = (world.graph other).state
  predecessors :
    ∀ other ≠ world.nextId,
      (after.graph other).dataPredecessors =
        (world.graph other).dataPredecessors
  added :
    ∀ predecessor ∈ dataPredecessors, (world.graph predecessor).isPending →
      predecessor ∈ (after.graph world.nextId).dataPredecessors.items
  dependsOn :
    ∀ predecessor ∈ (after.graph world.nextId).dataPredecessors.items,
      (world.graph predecessor).isPending ∧
        Successor after.graph predecessor world.nextId
  successors :
    ∀ predecessor successor, Successor world.graph predecessor successor →
      Successor after.graph predecessor successor

/-- What an action is constrained by is pending only if it depends on it. -/
def DependsOnConstraining
    (actionKind : ActionKind)
    (dataPredecessors : List ActionId) : Prop :=
  ∀ coreId forcedResource constrainingPredecessors,
    actionKind = .execution coreId forcedResource constrainingPredecessors →
      ∀ predecessor ∈ constrainingPredecessors,
        (world.graph predecessor).isPending → predecessor ∈ dataPredecessors

variable {world}

theorem dependsOnConstraining_startWorker (worker : WorkerId) :
    DependsOnConstraining world (.startWorker worker) [] := by
  rintro _ _ _ ⟨⟩

/-- The dependencies after one has been added. -/
theorem mem_addDataPredecessor
    {predecessor : ActionId}
    (pending : (world.graph predecessor).isPending)
    (other third : ActionId) :
    let after := world.addDataPredecessor action predecessor
    (third ∈ (after.graph other).dataPredecessors.items ↔
        third ∈ (world.graph other).dataPredecessors.items ∨
          other = action ∧ third = predecessor) ∧
      (third ∈ (after.graph other).dataSuccessors.items ↔
        third ∈ (world.graph other).dataSuccessors.items ∨
          other = predecessor ∧ third = action) := by
  have linksPredecessor :
      let linked :=
        if predecessor ∈ (world.graph action).dataPredecessors.items then world
        else
          world.modify action fun node =>
            { node with
              dataPredecessors := node.dataPredecessors.add predecessor }
      ∀ other third,
        (third ∈ (linked.graph other).dataPredecessors.items ↔
          third ∈ (world.graph other).dataPredecessors.items ∨
            other = action ∧ third = predecessor) ∧
        (linked.graph other).dataSuccessors =
          (world.graph other).dataSuccessors := by
    intro linked other third
    by_cases known : predecessor ∈ (world.graph action).dataPredecessors.items
    · simp only [linked, if_pos known, and_true]
      refine ⟨.inl, ?_⟩
      rintro (before | ⟨rfl, rfl⟩)
      · exact before
      · exact known
    · simp only [linked, if_neg known]
      by_cases same : other = action
      · subst same
        simp
      · simp [same]
  have linksSuccessor (between : SchedulerWorld) :
      let after :=
        if action ∈ (between.graph predecessor).dataSuccessors.items then between
        else
          between.modify predecessor fun node =>
            { node with dataSuccessors := node.dataSuccessors.add action }
      ∀ other third,
        (third ∈ (after.graph other).dataSuccessors.items ↔
          third ∈ (between.graph other).dataSuccessors.items ∨
            other = predecessor ∧ third = action) ∧
        (after.graph other).dataPredecessors =
          (between.graph other).dataPredecessors := by
    intro after other third
    by_cases known : action ∈ (between.graph predecessor).dataSuccessors.items
    · simp only [after, if_pos known, and_true]
      refine ⟨.inl, ?_⟩
      rintro (before | ⟨rfl, rfl⟩)
      · exact before
      · exact known
    · simp only [after, if_neg known]
      by_cases same : other = predecessor
      · subst same
        simp
      · simp [same]
  rcases linksPredecessor other third with ⟨predecessors, successors⟩
  rcases linksSuccessor _ other third with ⟨successorsAfter, predecessorsAfter⟩
  unfold World.addDataPredecessor
  rw [if_pos pending]
  refine ⟨?_, ?_⟩
  · rw [predecessorsAfter]
    exact predecessors
  · rw [successorsAfter, successors]

namespace Consistent

variable (consistent : Consistent world)

include consistent

theorem state_nextId :
    (world.graph world.nextId).state = .RUNNABLE := by
  rw [consistent.unknown world.nextId (Nat.le_refl _)]
  rfl

theorem create
    {actionKind : ActionKind}
    (coreKnown :
      ∀ coreId forcedResource constrainingPredecessors,
        actionKind =
            .execution coreId forcedResource constrainingPredecessors →
          coreId < world.env.coreCount) :
    Created world actionKind [] (world.create actionKind) := by
  have sameGraph : (world.create actionKind).graph = world.graph := by
    have isNew := consistent.unknown world.nextId (Nat.le_refl _)
    rw [World.create, ← isNew, Function.update_eq_self]
  have detailsOf (other : ActionId) (different : other ≠ world.nextId) :
      (world.create actionKind).env.actions other =
        world.env.actions other := by
    simp [World.create, different]
  have queued
      {queue : WorkerId → List ActionId}
      {state : ActionState}
      (notRunnable : state ≠ .RUNNABLE)
      (before : QueuedIn world queue state) :
      QueuedIn (world.create actionKind) queue state := by
    intro worker other
    have countBefore := before worker other
    rw [sameGraph]
    by_cases same : other = world.nextId
    · subst same
      simpa [consistent.state_nextId, Ne.symm notRunnable] using countBefore
    · rw [assignedResource_of_assigned
        (congrArg ActionDetails.assigned (detailsOf other same))]
      exact countBefore
  have running_ne
      {other : ActionId}
      (notRunnable : (world.graph other).state ≠ .RUNNABLE) :
      other ≠ world.nextId := by
    rintro rfl
    exact notRunnable consistent.state_nextId
  refine ⟨?_, rfl, rfl, fun other => by rw [sameGraph],
    fun other _ => by rw [sameGraph], by simp, ?_, ?_⟩
  case refine_2 =>
    intro predecessor isPredecessor
    rw [sameGraph, consistent.unknown world.nextId (Nat.le_refl _)]
      at isPredecessor
    exact absurd isPredecessor List.not_mem_nil
  case refine_3 =>
    rw [sameGraph]
    exact fun _ _ => id
  constructor
  case mirrored =>
    rw [sameGraph]
    exact consistent.mirrored
  case successorsOnce =>
    rw [sameGraph]
    exact consistent.successorsOnce
  case unknown =>
    intro other isUnknown
    rw [sameGraph]
    exact consistent.unknown other (Nat.le_of_succ_le isUnknown)
  case hosted => exact queued (by simp) consistent.hosted
  case waiting => exact queued (by simp) consistent.waiting
  case dependent =>
    rw [sameGraph]
    exact consistent.dependent
  case assigned =>
    intro other isQueued
    rw [sameGraph] at isQueued
    rw [detailsOf other (running_ne (by
      rcases isQueued with running | isWaiting
      · simp [running]
      · simp [isWaiting]))]
    exact consistent.assigned other isQueued
  case reserved =>
    intro other running
    rw [sameGraph] at running
    rw [detailsOf other (running_ne (by simp [running]))]
    exact consistent.reserved other running
  case cores =>
    intro other known coreId ofCore
    change coreId < world.env.coreCount
    by_cases same : other = world.nextId
    · subst same
      cases actionKind with
      | execution core forcedResource constrainingPredecessors =>
          have sameCore : core = coreId := by
            simpa [firstImplementation, World.create,
              ActionDetails.new] using ofCore
          rw [← sameCore]
          exact coreKnown core forcedResource constrainingPredecessors rfl
      | startWorker worker =>
          simp [firstImplementation, World.create,
            ActionDetails.new] at ofCore
    · rw [firstImplementation_of_kind
        (congrArg ActionDetails.kind (detailsOf other same))] at ofCore
      have knownBefore : other < world.nextId :=
        Nat.lt_of_le_of_ne (Nat.lt_succ_iff.mp known) same
      exact consistent.cores other knownBefore coreId ofCore
  case counted => exact consistent.counted
  case blockedKnown =>
    intro other member
    exact (consistent.blockedKnown other member).trans (Nat.lt_succ_self _)
  case unassignedKnown =>
    intro other member
    exact (consistent.unassignedKnown other member).trans (Nat.lt_succ_self _)

theorem addPredecessor
    (runnable : (world.graph action).state = .RUNNABLE)
    (known : action < world.nextId)
    (predecessor : ActionId) :
    Consistent
      (world.modify action fun node =>
        { node with
          dataPredecessors := node.dataPredecessors.add predecessor }) := by
  refine consistent.withGraph rfl rfl ?_ ?_ ?_ ?_ ?_
  · intro other
    by_cases same : other = action
    · subst same
      simp
    · simp [same]
  · intro first second isSuccessor
    have before : Successor world.graph first second := by
      by_cases same : first = action
      · subst same
        simpa [Successor] using isSuccessor
      · simpa [Successor, same] using isSuccessor
    have isPredecessor := consistent.mirrored first second before
    by_cases same : second = action
    · subst same
      simp [LinkedList.add, isPredecessor]
    · simpa [same] using isPredecessor
  · intro other
    by_cases same : other = action
    · subst same
      simpa using consistent.successorsOnce other
    · simpa [same] using consistent.successorsOnce other
  · intro other isUnknown
    have different : other ≠ action := by
      rintro rfl
      exact absurd known (Nat.not_lt_of_le isUnknown)
    simpa [different] using consistent.unknown other isUnknown
  · intro other depends
    by_cases same : other = action
    · subst same
      exact .inl runnable
    · rw [modify_graph_of_ne same] at depends
      exact consistent.dependent other depends

theorem addSuccessor
    {predecessor : ActionId}
    (isPredecessor : predecessor ∈ (world.graph action).dataPredecessors.items)
    (notSuccessor :
      action ∉ (world.graph predecessor).dataSuccessors.items)
    (predecessorKnown : predecessor < world.nextId) :
    Consistent
      (world.modify predecessor fun node =>
        { node with dataSuccessors := node.dataSuccessors.add action }) := by
  have predecessors (other : ActionId) :
      ((world.modify predecessor fun node =>
          { node with
            dataSuccessors := node.dataSuccessors.add action
          }).graph other).dataPredecessors =
        (world.graph other).dataPredecessors := by
    by_cases same : other = predecessor
    · subst same
      simp
    · simp [same]
  refine consistent.withGraph rfl rfl ?_ ?_ ?_ ?_ ?_
  · intro other
    by_cases same : other = predecessor
    · subst same
      simp
    · simp [same]
  · intro first second isSuccessor
    rw [predecessors]
    by_cases same : first = predecessor
    · subst same
      simp only [Successor, modify_graph_self, LinkedList.items_add,
        List.mem_append, List.mem_singleton] at isSuccessor
      rcases isSuccessor with before | rfl
      · exact consistent.mirrored first second before
      · exact isPredecessor
    · rw [Successor, modify_graph_of_ne same] at isSuccessor
      exact consistent.mirrored first second isSuccessor
  · intro other
    by_cases same : other = predecessor
    · subst same
      simp only [modify_graph_self, LinkedList.items_add,
        ← List.concat_eq_append]
      exact (consistent.successorsOnce other).concat notSuccessor
    · rw [modify_graph_of_ne same]
      exact consistent.successorsOnce other
  · intro other isUnknown
    have different : other ≠ predecessor := by
      rintro rfl
      exact absurd predecessorKnown (Nat.not_lt_of_le isUnknown)
    simpa [different] using consistent.unknown other isUnknown
  · intro other depends
    rw [predecessors] at depends
    exact consistent.dependent other depends

end Consistent

/-- A dependency changes nothing but the lists of the two actions. -/
theorem addDataPredecessor_frame (predecessor : ActionId) :
    let after := world.addDataPredecessor action predecessor
    after.nextId = world.nextId ∧ after.env = world.env ∧
      (∀ other, (after.graph other).state = (world.graph other).state) ∧
        ∀ other ≠ action,
          (after.graph other).dataPredecessors =
            (world.graph other).dataPredecessors := by
  have linksPredecessor
      (between : SchedulerWorld)
      (other : ActionId) :
      ((between.modify action fun node =>
        { node with
          dataPredecessors := node.dataPredecessors.add predecessor }).graph
            other).state =
        (between.graph other).state := by
    by_cases same : other = action
    · subst same
      rw [modify_graph_self]
    · rw [modify_graph_of_ne same]
  have linksSuccessor
      (between : SchedulerWorld)
      (other : ActionId) :
      let after :=
        between.modify predecessor fun node =>
          { node with dataSuccessors := node.dataSuccessors.add action }
      (after.graph other).state = (between.graph other).state ∧
        (after.graph other).dataPredecessors =
          (between.graph other).dataPredecessors := by
    dsimp only
    by_cases same : other = predecessor
    · subst same
      rw [modify_graph_self]
      exact ⟨rfl, rfl⟩
    · rw [modify_graph_of_ne same]
      exact ⟨rfl, rfl⟩
  unfold World.addDataPredecessor
  dsimp only
  split_ifs
  · exact ⟨rfl, rfl, fun _ => rfl, fun _ _ => rfl⟩
  · exact ⟨rfl, rfl, fun other => (linksSuccessor _ other).1,
      fun other _ => (linksSuccessor _ other).2⟩
  · exact ⟨rfl, rfl, linksPredecessor _,
      fun other different => by rw [modify_graph_of_ne different]⟩
  · refine ⟨rfl, rfl, fun other => ?_, fun other different => ?_⟩
    · exact (linksSuccessor _ other).1.trans (linksPredecessor _ other)
    · rw [(linksSuccessor _ other).2, modify_graph_of_ne different]
  · exact ⟨rfl, rfl, fun _ => rfl, fun _ _ => rfl⟩

theorem Consistent.addDataPredecessor
    (consistent : Consistent world)
    (runnable : (world.graph action).state = .RUNNABLE)
    (known : action < world.nextId)
    {predecessor : ActionId}
    (predecessorKnown : predecessor < world.nextId) :
    Consistent (world.addDataPredecessor action predecessor) := by
  have mirrored
      (between : SchedulerWorld)
      (sameNextId : between.nextId = world.nextId)
      (consistentBetween : Consistent between)
      (isPredecessor :
        predecessor ∈ (between.graph action).dataPredecessors.items) :
      Consistent
        (if action ∈ (between.graph predecessor).dataSuccessors.items then
          between
        else
          between.modify predecessor fun node =>
            { node with dataSuccessors := node.dataSuccessors.add action }) := by
    split
    · exact consistentBetween
    · rename_i notSuccessor
      apply consistentBetween.addSuccessor isPredecessor notSuccessor
      rwa [sameNextId]
  unfold World.addDataPredecessor
  dsimp only
  split
  · by_cases isPredecessor :
        predecessor ∈ (world.graph action).dataPredecessors.items
    · rw [if_pos isPredecessor]
      exact mirrored world rfl consistent isPredecessor
    · rw [if_neg isPredecessor]
      exact mirrored _ rfl (consistent.addPredecessor runnable known predecessor)
        (by simp)
  · exact consistent

namespace Created

variable
  {actionKind : ActionKind}
  {dataPredecessors : List ActionId}
  {after : SchedulerWorld}

theorem addDataPredecessor
    (created : Created world actionKind dataPredecessors after)
    (consistent : Consistent world)
    {predecessor : ActionId}
    (predecessorKnown : predecessor < world.nextId) :
    Created world actionKind (predecessor :: dataPredecessors)
      (after.addDataPredecessor world.nextId predecessor) := by
  have runnable : (after.graph world.nextId).state = .RUNNABLE := by
    rw [created.state, consistent.state_nextId]
  have known : world.nextId < after.nextId := by
    rw [created.nextId]
    exact Nat.lt_succ_self _
  have stillKnown : predecessor < after.nextId := by
    rw [created.nextId]
    exact predecessorKnown.trans (Nat.lt_succ_self _)
  rcases @addDataPredecessor_frame after world.nextId predecessor with
    ⟨nextId, env, state, predecessors⟩
  have samePending (other : ActionId) :
      (after.graph other).isPending = (world.graph other).isPending := by
    simp only [isPending, created.state]
  by_cases pending : (after.graph predecessor).isPending
  · have mem := @mem_addDataPredecessor after world.nextId predecessor pending
    refine ⟨created.consistent.addDataPredecessor runnable known stillKnown,
      nextId.trans created.nextId, env.trans created.env,
      fun other => (state other).trans (created.state other),
      fun other different =>
        (predecessors other different).trans
          (created.predecessors other different), ?_, ?_, ?_⟩
    · intro other member otherPending
      rw [(mem world.nextId other).1]
      rcases List.mem_cons.mp member with rfl | later
      · exact .inr ⟨rfl, rfl⟩
      · exact .inl (created.added other later otherPending)
    · intro other isPredecessor
      rw [(mem world.nextId other).1] at isPredecessor
      rw [Successor, (mem other world.nextId).2]
      rcases isPredecessor with before | ⟨_, rfl⟩
      · exact (created.dependsOn other before).imp_right .inl
      · rw [← samePending]
        exact ⟨pending, .inr ⟨rfl, rfl⟩⟩
    · intro first second isSuccessor
      rw [Successor, (mem first second).2]
      exact .inl (created.successors first second isSuccessor)
  · have unchanged :
        after.addDataPredecessor world.nextId predecessor = after := by
      rw [World.addDataPredecessor, if_neg pending]
    rw [unchanged]
    refine { created with added := ?_ }
    intro other member otherPending
    rcases List.mem_cons.mp member with rfl | later
    · exact absurd ((samePending _).trans otherPending) pending
    · exact created.added other later otherPending

theorem createExecution
    (consistent : Consistent world)
    {coreId : CoreId}
    (coreKnown : coreId < world.env.coreCount)
    (forcedResource : Option WorkerId)
    {dataPredecessors : List ActionId}
    (predecessorsKnown :
      ∀ predecessor ∈ dataPredecessors, predecessor < world.nextId)
    (constrainingPredecessors : List ActionId) :
    Created world
      (.execution coreId forcedResource constrainingPredecessors)
      dataPredecessors.reverse
      (world.createExecution coreId forcedResource dataPredecessors
        constrainingPredecessors) := by
  have created :
      Created world
        (.execution coreId forcedResource constrainingPredecessors) []
        (world.create
          (.execution coreId forcedResource constrainingPredecessors)) := by
    apply consistent.create
    rintro _ _ _ ⟨⟩
    exact coreKnown
  have folded
      (added : List ActionId)
      (after : SchedulerWorld)
      (createdBefore :
        Created world
          (.execution coreId forcedResource constrainingPredecessors) added
          after) :
      Created world
        (.execution coreId forcedResource constrainingPredecessors)
        (dataPredecessors.reverse ++ added)
        (dataPredecessors.foldl
          (fun created predecessor =>
            created.addDataPredecessor world.nextId predecessor) after) := by
    induction dataPredecessors generalizing added after with
    | nil => exact createdBefore
    | cons predecessor rest hypothesis =>
        have createdNext :=
          createdBefore.addDataPredecessor consistent
            (predecessorsKnown predecessor List.mem_cons_self)
        rw [List.foldl_cons, List.reverse_cons, List.append_assoc]
        exact hypothesis
          (fun other member =>
            predecessorsKnown other (List.mem_cons_of_mem _ member))
          _ _ createdNext
  have all := folded [] _ created
  rw [List.append_nil] at all
  exact all

end Created

/-! ## The end of an execution -/

/-- What a resumed action keeps. -/
def KeptByResuming (scores : Scores) (Holds : SchedulerWorld → Prop) : Prop :=
  ∀ world worker action rest assignment, Consistent world →
    world.env.waiting worker = action :: rest →
      (world.graph action).state = .WAITING →
        (world.env.actions action).assigned = some assignment →
          world.env.areEnoughResources action → Holds world →
            Holds
              ({ world with
                env := world.env.removeFirstBlocked scores worker
              }.runOn action assignment)

/-- The state in which the queue of the worker is looked at. -/
def leftBy
    (world : SchedulerWorld)
    (action : ActionId)
    (state : ActionState)
    (resource : WorkerId)
    (worker : Worker) : SchedulerWorld :=
  { world.setState action state with
    env := (world.env.modifyWorker resource worker).unhostAction action
      resource }

/-- What is kept when an execution is over. -/
def KeptByLeaving
    (Holds : SchedulerWorld → Prop)
    (action : ActionId)
    (state : ActionState) : Prop :=
  ∀ world assignment worker, Consistent world →
    (world.graph action).state = .RUNNING →
      (world.env.actions action).assigned = some assignment →
        (world.env.workers assignment.resource).endTask
            (world.env.consumption action assignment.resource) =
          .returned worker () →
            Holds world →
              Holds (world.leftBy action state assignment.resource worker)

/-- The action has the state and the details that its operation gives it. -/
def Rests
    (action : ActionId)
    (state : ActionState)
    (details : ActionDetails)
    (world : SchedulerWorld) : Prop :=
  (world.graph action).state = state ∧ world.env.actions action = details

theorem keptByResuming_rests
    {state : ActionState}
    (notWaiting : state ≠ .WAITING)
    (details : ActionDetails) :
    KeptByResuming scores (Rests action state details) := by
  intro world worker resumed rest assignment _ _ waits _ _ rests
  have different : action ≠ resumed := by
    rintro rfl
    exact notWaiting (rests.1.symm.trans waits)
  constructor
  · rw [runOn_graph, setState_of_ne different]
    exact rests.1
  · rw [runOn_actions_of_ne different]
    exact rests.2

theorem KeptByResuming.and
    {Other : SchedulerWorld → Prop}
    (resumed : KeptByResuming scores Holds)
    (otherResumed : KeptByResuming scores Other) :
    KeptByResuming scores fun world => Holds world ∧ Other world :=
  fun world worker action rest assignment consistent isWaiting waits assigned
      enough holds =>
    ⟨resumed world worker action rest assignment consistent isWaiting waits
        assigned enough holds.1,
      otherResumed world worker action rest assignment consistent isWaiting
        waits assigned enough holds.2⟩

theorem Kept.leaveResource
    (kept : Kept nextId Holds world)
    (running : (world.graph action).state = .RUNNING)
    (assigned : (world.env.actions action).assigned = some assignment)
    {state : ActionState}
    (isOver : state = .RUNNABLE ∨ state = .FINISHED)
    (left : KeptByLeaving Holds action state)
    (resumed : KeptByResuming scores Holds) :
    ∃ after,
      world.leaveResource scores action state assignment.resource =
        .returned after () ∧ Kept nextId Holds after ∧
          Rests action state (world.env.actions action) after := by
  rcases @Consistent.leaveResource_eq scores world action assignment
      kept.consistent running assigned state with
    ⟨worker, ended, leaves⟩
  refine ⟨_, leaves, ?_⟩
  have keptLeft :
      Kept nextId
        (fun world => Holds world ∧
          Rests action state (world.env.actions action) world)
        (world.leftBy action state assignment.resource worker) :=
    ⟨kept.consistent.unhost running assigned isOver worker, kept.nextId,
      left world assignment worker kept.consistent running assigned ended
        kept.holds,
      setState_state_self _, rfl⟩
  have notWaiting : state ≠ .WAITING := by
    rcases isOver with rfl | rfl
    · simp
    · simp
  have keptAfter :=
    @Kept.tryToLaunchBlockedActions scores _ nextId
      (fun after => Holds after ∧
        Rests action state (world.env.actions action) after)
      assignment.resource
      ⟨keptLeft.consistent, keptLeft.nextId, keptLeft.holds.1,
        setState_state_self _, rfl⟩
      (fun world => (resumed.and (keptByResuming_rests notWaiting _)) world
        assignment.resource)
  exact ⟨⟨keptAfter.consistent, keptAfter.nextId, keptAfter.holds.1⟩,
    keptAfter.holds.2⟩

/-- The ready counter of a known action can be changed. -/
theorem Consistent.changeReadyCount_returned
    (consistent : Consistent world)
    (known : action < world.nextId)
    (change : Int) :
    ∃ env, world.env.changeReadyCount action change = .returned env () ∧
      world.env.Filed action env := by
  have filed := @filed_changeReadyCount world.env action change
  cases outcome : world.env.changeReadyCount action change with
  | returned env value =>
      rw [outcome] at filed
      exact ⟨env, rfl, filed⟩
  | raised env exception =>
      unfold changeReadyCount at outcome
      split at outcome
      · rename_i coreId ofCore
        have isCore := consistent.cores action known coreId ofCore
        rw [← consistent.counted] at isCore
        rw [if_pos isCore] at outcome
        exact absurd outcome (by simp)
      · exact absurd outcome (by simp)
      · exact absurd outcome (by simp)

variable {coreId : CoreId}

/-- A core that is registered has a place among the blocked actions. -/
theorem Consistent.addToBlocked_returned
    (consistent : Consistent world)
    (known : action < world.nextId)
    (ofCore : world.env.firstImplementation action = .ofCore coreId) :
    ∃ env, world.env.addToBlocked action = .returned env () ∧
      world.env.Filed action env := by
  have filed := @filed_addToBlocked world.env action
  have isCore := consistent.cores action known coreId ofCore
  rcases @ActionSet.addAction_returned _ _ world.env.blockedActions isCore
      action with
    ⟨set, added⟩
  unfold addToBlocked at filed ⊢
  rw [ofCore, added] at filed ⊢
  exact ⟨_, rfl, filed⟩

/-- An action of a registered core can be blocked. -/
theorem Consistent.block_returned
    (consistent : Consistent world)
    (known : action < world.nextId)
    (ofCore : world.env.firstImplementation action = .ofCore coreId) :
    ∃ env between, world.block action =
        .returned { world with env := env } () ∧
      world.env.removeFromReady action = .returned between () ∧
        between.addToBlocked action = .returned env () := by
  rcases consistent.changeReadyCount_returned known (-1) with
    ⟨between, removed, filed⟩
  have stillOfCore :
      between.firstImplementation action = .ofCore coreId := by
    rw [← ofCore]
    apply firstImplementation_of_kind
    rw [filed.actions]
  rcases (consistent.filed known filed).addToBlocked_returned known
      stillOfCore with
    ⟨env, added, _⟩
  refine ⟨env, between, ?_, removed, added⟩
  unfold World.block
  rw [World.callHook_returned.mpr ⟨between, removed, rfl⟩,
    andThen_returned]
  exact World.callHook_returned.mpr ⟨env, added, rfl⟩

theorem Kept.actionCompleted
    {Completing : SchedulerWorld → Prop}
    (kept : Kept nextId Holds world)
    (running : (world.graph action).state = .RUNNING)
    (removed :
      ∀ env, world.env.removeFromReady action = .returned env () →
        Completing { world with env := env })
    (left : KeptByLeaving Completing action .FINISHED)
    (resumed : KeptByResuming scores Completing) :
    ∃ assignment after,
      (world.env.actions action).assigned = some assignment ∧
        Kept nextId Completing after ∧
        Rests action .FINISHED (world.env.actions action) after ∧
        world.actionCompleted scores action =
          .returned after
            (match (world.env.actions action).kind with
            | .execution _ _ _ => [.settleSuccessors action assignment.resource]
            | .startWorker worker =>
                [.updateWorker worker,
                  .settleSuccessors action assignment.resource]) := by
  have known : action < world.nextId :=
    kept.consistent.known_of_state (by simp [running])
  rcases kept.consistent.assigned_of_running running with
    ⟨assignment, assigned⟩
  rcases kept.consistent.changeReadyCount_returned known (-1) with
    ⟨env, isRemoved, filed⟩
  have keptRemoved : Kept nextId Completing { world with env := env } :=
    ⟨kept.consistent.filed known filed, kept.nextId, removed env isRemoved⟩
  have called :
      world.callHook (·.removeFromReady action) =
        .returned { world with env := env } () :=
    World.callHook_returned.mpr ⟨env, isRemoved, rfl⟩
  have sameDetails : env.actions action = world.env.actions action := by
    rw [filed.actions]
  have stillAssigned : (env.actions action).assigned = some assignment := by
    rw [sameDetails, assigned]
  rcases keptRemoved.leaveResource running stillAssigned (.inr rfl) left
      resumed with
    ⟨after, leaves, keptAfter, rests⟩
  refine ⟨assignment, after, assigned, keptAfter, ?_, ?_⟩
  · rwa [← sameDetails]
  · unfold World.actionCompleted
    rw [called, andThen_returned, assignedResource_eq stillAssigned]
    dsimp only
    rw [leaves, andThen_returned, rests.2]
    exact sameDetails ▸ rfl

theorem Kept.errorOnAction
    (kept : Kept nextId Holds world)
    (running : (world.graph action).state = .RUNNING)
    (recorded :
      ∀ assignment,
        (world.env.actions action).assigned = some assignment →
          Holds (world.recordFailure action assignment.resource))
    (left : KeptByLeaving Holds action .RUNNABLE)
    (resumed : KeptByResuming scores Holds) :
    ∃ assignment after,
      (world.env.actions action).assigned = some assignment ∧
        Kept nextId Holds after ∧
        Rests action .RUNNABLE
          ((world.recordFailure action assignment.resource).env.actions action)
          after ∧
        world.errorOnAction scores action =
          (if world.env.doError action then after.failCompletely action
            else .returned after ()).andThen fun world _ =>
              .returned world [.place action] := by
  rcases kept.consistent.assigned_of_running running with
    ⟨assignment, assigned⟩
  have keptRecorded :
      Kept nextId Holds (world.recordFailure action assignment.resource) :=
    ⟨kept.consistent.modifyAction ⟨rfl, rfl, rfl⟩, kept.nextId,
      recorded assignment assigned⟩
  have stillAssigned :
      ((world.recordFailure action assignment.resource).env.actions
        action).assigned = some assignment := by
    simp [recordFailure, modifyEnv, assigned]
  rcases keptRecorded.leaveResource running stillAssigned (.inl rfl) left
      resumed with
    ⟨after, leaves, keptAfter, rests⟩
  refine ⟨assignment, after, assigned, keptAfter, rests, ?_⟩
  have sameDoError : after.env.doError action = world.env.doError action := by
    simp only [doError, executingResources, rests.2,
      recordFailure, modifyEnv, modifyAction_self]
    rfl
  unfold World.errorOnAction
  rw [assignedResource_eq assigned]
  dsimp only
  rw [leaves, andThen_returned, sameDoError]

/-- What is kept when actions fail. -/
def KeptByFailing (Holds : SchedulerWorld → Prop) : Prop :=
  ∀ action before after, FailsFrom action before after → Holds before →
    Holds after

theorem block_graph : (world.block action).state.graph = world.graph := by
  have graphOf
      (between : SchedulerWorld)
      (hook : SchedulerEnv → Outcome SchedulerEnv Unit) :
      (between.callHook hook).state.graph = between.graph := by
    rw [World.callHook, state_onState]
  have graphKept :=
    @andThen_preserves SchedulerWorld Unit Unit
      (·.graph = world.graph)
  exact graphKept (graphOf _ _)
    fun between _ same => (graphOf _ _).trans same

/-- An action that can be blocked has failed at the end. -/
theorem Kept.failCompletely
    (kept : Kept nextId Holds world)
    (known : action < nextId)
    (runnable : (world.graph action).state = .RUNNABLE)
    (byFiling : KeptByFiling Holds action)
    (byFailing : KeptByFailing Holds) :
    let after := (world.failCompletely action).state
    Kept nextId Holds after ∧
      ((∃ coreId, after.env.firstImplementation action = .ofCore coreId) →
        (after.graph action).state = .FAILED) := by
  have fails
      (between : SchedulerWorld)
      (keptBetween : Kept nextId Holds between)
      (stillRunnable : (between.graph action).state = .RUNNABLE) :
      Kept nextId Holds (between.failed hooks action).state ∧
        ((between.failed hooks action).state.graph
          action).state = .FAILED := by
    have isKnown : action < between.nextId := by
      rwa [keptBetween.nextId]
    rcases failedWithin_failsFrom (between.nextId + 1) keptBetween.consistent
        isKnown (.inl stillRunnable) with
      ⟨failsFrom, failed⟩
    exact ⟨⟨failsFrom.consistent,
      failsFrom.shrunk.nextId.trans keptBetween.nextId,
      byFailing action between _ failsFrom keptBetween.holds⟩,
      failed (Nat.succ_pos _)⟩
  have keptBlocked := kept.block known byFiling
  have sameGraph := @block_graph world action
  have sameKind :
      ((world.block action).state.env.actions action).kind =
        (world.env.actions action).kind := by
    have kindKept :=
      @Kept.block world action nextId
        (fun between =>
          (between.env.actions action).kind = (world.env.actions action).kind)
        ⟨kept.consistent, kept.nextId, rfl⟩ known ?_
    · exact kindKept.holds
    · intro between env filed same
      rw [filed.actions]
      exact same
  unfold World.failCompletely
  cases blocked : world.block action with
  | returned between value =>
      rw [blocked] at keptBlocked sameGraph
      have stillRunnable : (between.graph action).state = .RUNNABLE := by
        rw [← runnable, ← sameGraph]
        rfl
      rcases fails between keptBlocked stillRunnable with ⟨keptFailed, failed⟩
      rw [andThen_returned]
      cases outcome : between.failed hooks action with
      | returned _ _ | raised _ _ =>
          rw [outcome] at keptFailed failed
          exact ⟨keptFailed, fun _ => failed⟩
  | raised between exception =>
      rw [blocked] at keptBlocked sameKind
      refine ⟨keptBlocked, ?_⟩
      rintro ⟨coreId, ofCore⟩
      have isKnown : action < world.nextId := by
        rwa [kept.nextId]
      have ofCoreBefore :
          world.env.firstImplementation action = .ofCore coreId :=
        (firstImplementation_of_kind sameKind.symm).trans ofCore
      rcases kept.consistent.block_returned isKnown ofCoreBefore with
        ⟨env, _, returned, _⟩
      exact absurd (blocked.symm.trans returned) (by simp)

/-! ## The successors of a finished action -/

/-- Dependencies of the finished action have been removed. -/
structure Released
    (world : SchedulerWorld)
    (finishedAction : ActionId)
    (successors : List ActionId)
    (after : SchedulerWorld) : Prop where
  nextId : after.nextId = world.nextId
  env : after.env = world.env
  state : ∀ other, (after.graph other).state = (world.graph other).state
  dataSuccessors :
    ∀ other,
      (after.graph other).dataSuccessors = (world.graph other).dataSuccessors
  predecessors :
    ∀ other,
      (after.graph other).dataPredecessors.items =
        if other ∈ successors then
          (world.graph other).dataPredecessors.items.filter
            (· ≠ finishedAction)
        else
          (world.graph other).dataPredecessors.items
  unchanged : ∀ other ∉ successors, after.graph other = world.graph other

theorem dataPredecessorDone_released (aa finishedAction : ActionId) :
    Released world finishedAction [aa]
      (world.dataPredecessorDone aa finishedAction) := by
  refine ⟨rfl, rfl, ?_, ?_, ?_, ?_⟩
  · intro other
    by_cases same : other = aa
    · subst same
      simp [dataPredecessorDone]
    · simp [dataPredecessorDone, same]
  · intro other
    by_cases same : other = aa
    · subst same
      simp [dataPredecessorDone]
    · simp [dataPredecessorDone, same]
  · intro other
    by_cases same : other = aa
    · subst same
      simp [dataPredecessorDone, LinkedList.removeEach]
    · simp [dataPredecessorDone, same]
  · intro other notDone
    have different : other ≠ aa := by
      simpa using notDone
    exact modify_graph_of_ne different _

/-- An action that is not among the successors keeps what it depends on. -/
theorem Released.cons
    {finishedAction aa : ActionId}
    {successors : List ActionId}
    {between after : SchedulerWorld}
    (first : Released world finishedAction [aa] between)
    (rest : Released between finishedAction successors after) :
    Released world finishedAction (aa :: successors) after where
  nextId := rest.nextId.trans first.nextId
  env := rest.env.trans first.env
  state other := (rest.state other).trans (first.state other)
  dataSuccessors other :=
    (rest.dataSuccessors other).trans (first.dataSuccessors other)
  predecessors other := by
    rw [rest.predecessors, first.predecessors]
    by_cases isFirst : other = aa
    · subst isFirst
      by_cases isLater : other ∈ successors
      · simp [isLater]
      · simp [isLater]
    · simp [isFirst]
  unchanged other notIn := by
    rcases not_or.mp (mt List.mem_cons.mpr notIn) with ⟨notFirst, notLater⟩
    rw [rest.unchanged other notLater,
      first.unchanged other (by simpa using notFirst)]

theorem releaseSuccessor_fold
    {finishedAction : ActionId}
    {successors : List ActionId}
    (once : successors.Nodup)
    (notRunning :
      ∀ aa ∈ successors, (world.graph aa).state ≠ .RUNNING)
    (freed : List ActionId) :
    let released :=
      successors.foldl (releaseSuccessor finishedAction) (world, freed)
    Released world finishedAction successors released.1 ∧
      released.2 =
        freed ++ successors.filter fun aa =>
          (world.graph aa).dataPredecessors.items.filter (· ≠ finishedAction) =
            [] := by
  induction successors generalizing world freed with
  | nil =>
      refine ⟨⟨rfl, rfl, fun _ => rfl, fun _ => rfl, fun other => ?_,
        fun _ _ => rfl⟩, ?_⟩
      · simp
      · simp
  | cons aa rest hypothesis =>
      rcases List.nodup_cons.mp once with ⟨notLater, restOnce⟩
      have done := @dataPredecessorDone_released world aa finishedAction
      have items := done.predecessors aa
      rw [if_pos (List.mem_singleton_self aa)] at items
      have stillNotRunning :
          ((world.dataPredecessorDone aa finishedAction).graph
            aa).isRunning = false := by
        simp [isRunning, done.state,
          notRunning aa List.mem_cons_self]
      have laterNotRunning :
          ∀ other ∈ rest,
            ((world.dataPredecessorDone aa finishedAction).graph other).state ≠
              .RUNNING := by
        intro other member
        rw [done.state]
        exact notRunning other (List.mem_cons_of_mem _ member)
      have samePredicate :
          (rest.filter fun other =>
            ((world.dataPredecessorDone aa finishedAction).graph
              other).dataPredecessors.items.filter (· ≠ finishedAction) = []) =
          rest.filter fun other =>
            (world.graph other).dataPredecessors.items.filter
              (· ≠ finishedAction) = [] := by
        apply List.filter_congr
        intro other member
        have different : other ≠ aa := by
          rintro rfl
          exact notLater member
        rw [done.predecessors, if_neg (by simpa using different)]
      rw [List.foldl_cons, releaseSuccessor]
      dsimp only
      by_cases isFree :
          (world.graph aa).dataPredecessors.items.filter
            (· ≠ finishedAction) = []
      · have condition :
            ¬ ((world.dataPredecessorDone aa finishedAction).graph
                aa).hasDataPredecessors ∧
              ¬ ((world.dataPredecessorDone aa finishedAction).graph
                aa).isRunning := by
          refine ⟨?_, by simp [stillNotRunning]⟩
          rw [hasDataPredecessors_iff, items, isFree]
          exact not_not.mpr rfl
        rw [if_pos condition]
        rcases hypothesis restOnce laterNotRunning (freed ++ [aa]) with
          ⟨released, results⟩
        refine ⟨done.cons released, ?_⟩
        rw [results, samePredicate, List.filter_cons_of_pos (by simpa using isFree),
          List.append_assoc, List.singleton_append]
      · have condition :
            ¬ (¬ ((world.dataPredecessorDone aa finishedAction).graph
                aa).hasDataPredecessors ∧
              ¬ ((world.dataPredecessorDone aa finishedAction).graph
                aa).isRunning) := by
          intro both
          apply both.1
          rw [hasDataPredecessors_iff, items]
          exact isFree
        rw [if_neg condition]
        rcases hypothesis restOnce laterNotRunning freed with
          ⟨released, results⟩
        refine ⟨done.cons released, ?_⟩
        rw [results, samePredicate,
          List.filter_cons_of_neg (by simpa using isFree)]

variable
  (world)
  (action)

/-- The successors that the finished action was the last one to hold back. -/
def freedBy : List ActionId :=
  (world.graph action).dataSuccessors.items.filter fun aa =>
    (world.graph aa).dataPredecessors.items.filter (· ≠ action) = []

/-- The successors of a finished action have been released. -/
structure Settled
    (after : SchedulerWorld) : Prop where
  consistent : Consistent after
  nextId : after.nextId = world.nextId
  env : after.env = world.env
  state : ∀ other, (after.graph other).state = (world.graph other).state
  predecessors :
    ∀ other,
      (after.graph other).dataPredecessors.items =
        if other ∈ (world.graph action).dataSuccessors.items then
          (world.graph other).dataPredecessors.items.filter (· ≠ action)
        else
          (world.graph other).dataPredecessors.items
  successors :
    ∀ other,
      (after.graph other).dataSuccessors.items =
        if other = action then []
        else (world.graph other).dataSuccessors.items

variable
  {world}
  {action}

theorem Consistent.releaseSuccessors
    (consistent : Consistent world)
    (known : action < world.nextId) :
    Settled world action (world.releaseSuccessors action).1 ∧
      (world.releaseSuccessors action).2 = world.freedBy action := by
  have depends :
      ∀ aa ∈ (world.graph action).dataSuccessors.items,
        (world.graph aa).dataPredecessors.items ≠ [] := by
    intro aa isSuccessor
    exact List.ne_nil_of_mem (consistent.mirrored action aa isSuccessor)
  have notRunning :
      ∀ aa ∈ (world.graph action).dataSuccessors.items,
        (world.graph aa).state ≠ .RUNNING :=
    fun aa isSuccessor =>
      (consistent.not_running_of_dependent (depends aa isSuccessor)).1
  rcases @releaseSuccessor_fold world action _
      (consistent.successorsOnce action) notRunning [] with
    ⟨released, freed⟩
  let fold :=
    (world.graph action).dataSuccessors.items.foldl (releaseSuccessor action)
      (world, [])
  let after :=
    fold.1.modify action fun node =>
      { node with dataSuccessors := node.dataSuccessors.clear }
  have nextId : after.nextId = world.nextId := released.nextId
  have env : after.env = world.env := released.env
  have state (other : ActionId) :
      (after.graph other).state = (world.graph other).state := by
    rw [← released.state]
    by_cases same : other = action
    · subst same
      simp [after, fold]
    · simp [after, fold, same]
  have predecessors (other : ActionId) :
      (after.graph other).dataPredecessors.items =
        if other ∈ (world.graph action).dataSuccessors.items then
          (world.graph other).dataPredecessors.items.filter (· ≠ action)
        else
          (world.graph other).dataPredecessors.items := by
    refine Eq.trans ?_ (released.predecessors other)
    by_cases same : other = action
    · subst same
      simp [after, fold]
    · simp [after, fold, same]
  have successors (other : ActionId) :
      (after.graph other).dataSuccessors.items =
        if other = action then []
        else (world.graph other).dataSuccessors.items := by
    by_cases same : other = action
    · subst same
      simp [after]
    · rw [if_neg same, ← released.dataSuccessors other]
      simp [after, fold, same]
  refine ⟨⟨?_, nextId, env, state, predecessors, successors⟩, freed⟩
  change Consistent after
  refine consistent.withGraph nextId env state ?_ ?_ ?_ ?_
  · intro first second isSuccessor
    rw [Successor, successors] at isSuccessor
    rw [predecessors]
    split at isSuccessor
    · exact absurd isSuccessor List.not_mem_nil
    · rename_i different
      have isPredecessor := consistent.mirrored first second isSuccessor
      split
      · simpa [different] using isPredecessor
      · exact isPredecessor
  · intro other
    rw [successors]
    split
    · exact List.nodup_nil
    · exact consistent.successorsOnce other
  · intro other isUnknown
    have different : other ≠ action := by
      rintro rfl
      exact absurd known (Nat.not_lt_of_le isUnknown)
    have notSuccessor :
        other ∉ (world.graph action).dataSuccessors.items := by
      intro isSuccessor
      exact absurd (consistent.known_of_dependent (depends other isSuccessor))
        (Nat.not_lt_of_le isUnknown)
    rw [← consistent.unknown other isUnknown,
      ← released.unchanged other notSuccessor]
    exact modify_graph_of_ne different _
  · intro other stillDepends
    rw [predecessors] at stillDepends
    apply consistent.dependent
    intro none
    rw [none] at stillDepends
    simp at stillDepends

end World

end DistributedRdf.Scheduling
