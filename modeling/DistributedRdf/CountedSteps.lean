import DistributedRdf.CountedOperations

namespace DistributedRdf.Scheduling

open Java Relation Execution SchedulerEnv List Work World Changes ActionNode
open Consistent

/-!
# What the steps of the dispatcher do to the counters

A step leaves work behind, and with it the blocked actions that it is going to
admit again.  These are admitted before anything else is done.
-/

/-! ## Actions that are admitted again -/

/-- The blocked action that the work admits again. -/
def Work.readmits : Work → Option ActionId
  | .refile action => some action
  | _ => none

def readmitted (agenda : List Work) : List ActionId :=
  agenda.filterMap readmits

/-- Blocked actions are admitted again before anything else is done. -/
def ReadmitsFirst : List Work → Prop
  | [] => True
  | .refile _ :: rest => ReadmitsFirst rest
  | _ :: rest => readmitted rest = []

@[simp] theorem readmitted_append (first second : List Work) :
    readmitted (first ++ second) = readmitted first ++ readmitted second :=
  filterMap_append

variable (actions : List ActionId)

@[simp] theorem readmitted_refile :
    readmitted (actions.map .refile) = actions := by
  simp [readmitted, filterMap_map, Function.comp_def, readmits]

@[simp] theorem readmitted_place :
    readmitted (actions.map .place) = [] := by
  simp [readmitted, filterMap_map, Function.comp_def, readmits]

@[simp] theorem readmitted_launch :
    readmitted (actions.map .launch) = [] := by
  simp [readmitted, filterMap_map, Function.comp_def, readmits]

namespace ReadmitsFirst

variable {work rest : List Work}

theorem of_none (none : readmitted work = []) : ReadmitsFirst work := by
  cases work with
  | nil => trivial
  | cons first later =>
      cases first with
      | refile action => exact absurd none (by simp [readmitted, readmits])
      | place _ | launch _ | purge _ _ _ | settleSuccessors _ _
      | updateWorker _ => exact none

theorem append
    (first : ReadmitsFirst work)
    (none : readmitted rest = []) :
    ReadmitsFirst (work ++ rest) := by
  induction work with
  | nil => exact of_none none
  | cons head later hypothesis =>
      cases head with
      | refile action => exact hypothesis first
      | place _ | launch _ | purge _ _ _ | settleSuccessors _ _
      | updateWorker _ =>
          change readmitted (later ++ rest) = []
          rw [readmitted_append, none, append_nil]
          exact first

theorem refile (actions : List ActionId) :
    ReadmitsFirst (actions.map .refile) := by
  induction actions with
  | nil => trivial
  | cons action later hypothesis => exact hypothesis

end ReadmitsFirst

namespace World

variable
  {kind : SchedulerKind}
  {scores : Scores}
  {world after : SchedulerWorld}
  {action : ActionId}

/-- What an operation leaves behind, if no action waits to be admitted again. -/
def Accounts : Outcome SchedulerWorld (List Work) → Prop
  | .returned world work => Counted world (readmitted work) ∧ ReadmitsFirst work
  | .raised world _ => Counted world []

/-- The operation does nothing that the counters are about. -/
structure Passes
    (world : SchedulerWorld)
    (outcome : Outcome SchedulerWorld (List Work)) : Prop where
  unaffected : Unaffected world outcome.state
  readmitsNone :
    ∀ after work, outcome = .returned after work → readmitted work = []

theorem Counted.passes
    {outcome : Outcome SchedulerWorld (List Work)}
    (counted : Counted world [])
    (passes : Passes world outcome) :
    Accounts outcome := by
  have countedAfter := counted.unaffected passes.unaffected
  cases outcome with
  | returned after work =>
      have none := passes.readmitsNone after work rfl
      refine ⟨?_, .of_none none⟩
      rw [none]
      exact countedAfter
  | raised after exception => exact countedAfter

/-- Nothing that is left to do admits an action again. -/
theorem accounts_leaving
    {outcome : Outcome SchedulerWorld Unit}
    {work : List Work}
    (counted : Counted outcome.state [])
    (none : readmitted work = []) :
    Accounts (outcome.andThen fun world _ => .returned world work) := by
  cases outcome with
  | returned after value =>
      refine ⟨?_, .of_none none⟩
      rw [none]
      exact counted
  | raised after exception => exact counted

/-! ## Operations that pass the counters by -/

variable (world)

theorem tryToLaunch_unaffected (action : ActionId) :
    Unaffected world (world.tryToLaunch kind scores action).state :=
  (changedOnly (tryToLaunch_changes world action)).unaffected

theorem placeWithUnassigned_passes
    (freeActions : List ActionId) :
    Passes world
      (.returned (world.placeWithUnassigned scores freeActions).1
        (world.placeWithUnassigned scores freeActions).2) where
  unaffected := .withEnv (fun _ => rfl) rfl rfl
  readmitsNone := by
    rintro _ _ ⟨⟩
    exact readmitted_place _

variable {world}

theorem handleDependencyFreeActions_passes (world : SchedulerWorld)
    (dataFreeActions : List ActionId)
    (resource : WorkerId) :
    let handled :=
      world.handleDependencyFreeActions kind scores dataFreeActions resource
    Passes world (.returned handled.1 handled.2) := by
  cases kind with
  | base =>
      refine ⟨.refl world, ?_⟩
      rintro _ _ ⟨⟩
      exact readmitted_launch _
  | ready => exact placeWithUnassigned_passes world dataFreeActions
  | fifoData =>
      refine ⟨.refl world, ?_⟩
      rintro _ _ ⟨⟩
      rfl

/-- An action is launched, and the purge goes on. -/
theorem passes_purging
    {between : SchedulerWorld}
    {remaining kept : List ActionId}
    {resource : WorkerId}
    (unaffected : Unaffected world between) :
    Passes world
      ((between.tryToLaunch kind scores action).andThen fun world _ =>
        .returned world [.purge remaining kept resource]) := by
  have launched :=
    unaffected.trans (@tryToLaunch_unaffected kind scores between action)
  generalize between.tryToLaunch kind scores action = outcome at launched ⊢
  cases outcome with
  | returned after value =>
      refine ⟨launched, ?_⟩
      rintro _ _ ⟨⟩
      rfl
  | raised after exception =>
      refine ⟨launched, ?_⟩
      intro _ _ isReturned
      exact absurd isReturned (by simp)

theorem purge_passes (world : SchedulerWorld)
    (remaining kept : List ActionId)
    (resource : WorkerId) :
    Passes world (world.purge kind scores kept resource remaining) := by
  cases remaining with
  | nil => exact placeWithUnassigned_passes world kept
  | cons action later =>
      rw [purge]
      split
      · have filed :
            Unaffected world
              (world.callHook (·.addToDepending action)).state := by
          rw [callHook, Outcome.state_onState, addToDepending,
            Outcome.state_onState]
          exact .withEnv (fun _ => rfl) rfl rfl
        cases called : world.callHook (·.addToDepending action) with
        | returned between value =>
            rw [called] at filed
            exact passes_purging filed
        | raised between exception =>
            rw [called] at filed
            refine ⟨filed, ?_⟩
            intro _ _ isReturned
            exact absurd isReturned (by simp)
      · dsimp only
        rcases @scheduleOn_cases kind scores world action (some resource) with
          ⟨unassigned, _⟩ | ⟨assignment, fresh, _, assigned⟩
        · rw [unassigned, if_pos rfl]
          refine ⟨.refl world, ?_⟩
          rintro _ _ ⟨⟩
          rfl
        · rw [assigned, if_neg (by simp)]
          exact passes_purging
            (changedOnly (@changes_assign scores _ _ _ fresh)).unaffected

/-! ## The end of an execution -/

variable (before : SchedulerWorld)

/-- A resumed action runs instead of waiting. -/
theorem keptByResuming_unaffected :
    KeptByResuming scores (Unaffected before) := by
  intro world worker resumed later assignment _ _ waits _ _ unaffected
  refine unaffected.trans ⟨rfl, ?_, rfl, rfl, ?_, ?_⟩
  · intro other
    rw [runOn_kind]
    rfl
  · intro other
    rw [runOn_graph, setState_dataPredecessors]
  · intro other
    rw [runOn_graph]
    simp only [isPending]
    by_cases same : other = resumed
    · subst same
      simp [waits]
    · rw [setState_of_ne same]

/-- The action has not ended when it is going to be tried again. -/
theorem keptByLeaving_unaffected :
    KeptByLeaving (Unaffected before) action .RUNNABLE := by
  intro world assignment worker _ running _ _ unaffected
  refine unaffected.trans ⟨rfl, fun _ => rfl, rfl, rfl, ?_, ?_⟩
  · intro other
    change ((world.setState action .RUNNABLE).graph
      other).dataPredecessors.items = _
    rw [setState_dataPredecessors]
  · intro other
    change ((world.setState action .RUNNABLE).graph other).isPending = _
    simp only [isPending]
    by_cases same : other = action
    · subst same
      simp [running]
    · rw [setState_of_ne same]

theorem Counted.actionCompleted
    (counted : Counted world [])
    (consistent : Consistent world)
    (running : (world.graph action).state = .RUNNING)
    (notBlocked : action ∉ world.env.blockedActions.getAllActions) :
    Accounts (world.actionCompleted scores action) := by
  have kept : Kept world.nextId (fun _ => True) world :=
    ⟨consistent, rfl, trivial⟩
  have known : action < world.nextId :=
    consistent.known_of_state (by simp [running])
  have isCounted : world.IsCounted action :=
    ⟨consistent.free_of_running running, notBlocked, by simp [running],
      by simp [running]⟩
  have removed
      (env : SchedulerEnv)
      (isRemoved : world.env.removeFromReady action = .returned env ()) :
      Counted { world with env := env } [action] := by
    rcases changeReadyCount_returned isRemoved with
      ⟨counts, rfl, recounted⟩
    exact ⟨counted.balanced.removeFromReady known isCounted not_mem_nil
      recounted, nodup_cons.mpr ⟨notBlocked, counted.once⟩⟩
  -- an action that is left out may end
  have left :
      KeptByLeaving (fun world => Counted world [action]) action .FINISHED := by
    intro before assignment worker _ _ _ _ countedBefore
    refine ⟨countedBefore.balanced.transfer rfl (fun _ => rfl) rfl ?_,
      countedBefore.once⟩
    intro other
    by_cases same : other = action
    · simp [same]
    · have sameNode :
          (before.leftBy action .FINISHED assignment.resource worker).graph
              other = before.graph other :=
        setState_of_ne same _
      simp only [IsCounted, sameNode]
      rfl
  have resumed :
      KeptByResuming scores fun world => Counted world [action] := by
    intro before worker other later assignment stays waitsOn waits assigned
      enough countedBefore
    exact countedBefore.unaffected
      (keptByResuming_unaffected before before worker other later assignment
        stays waitsOn waits assigned enough (.refl before))
  rcases kept.actionCompleted running removed left resumed with
    ⟨assignment, after, assigned, keptAfter, rests, completed⟩
  have countedAfter : Counted after [] := by
    refine @Counted.drop after [action] [] keptAfter.holds ?_
    intro other isAction isCountedAfter
    rw [mem_singleton.mp isAction] at isCountedAfter
    exact isCountedAfter.2.2.1 rests.1
  rw [completed]
  split
  · exact ⟨countedAfter, rfl⟩
  · exact ⟨countedAfter, rfl⟩

/-! ## A total failure -/

/-- Whatever fails with an action that is not counted was not counted either. -/
theorem Counted.failsFrom
    (counted : Counted world [])
    (fails : FailsFrom action world after)
    (notCounted : ¬ world.IsCounted action) :
    Counted after [] := by
  have sameEnv := fails.shrunk.env
  have sameBlocked : after.env.blockedActions = world.env.blockedActions := by
    rw [sameEnv]
  refine ⟨counted.balanced.transfer fails.shrunk.nextId
    (fun _ => by rw [sameEnv]) (by rw [sameEnv]) fun other => ?_, ?_⟩
  · have same : after.IsCounted other ↔ world.IsCounted other := by
      by_cases failed : (after.graph other).state = .FAILED
      · have notAfter : ¬ after.IsCounted other :=
          fun isCounted => isCounted.2.2.2 failed
        have notBefore : ¬ world.IsCounted other := by
          intro isCounted
          rcases fails.caused other failed with
            failedBefore | rfl | ⟨predecessor, member, _⟩
          · exact isCounted.2.2.2 failedBefore
          · exact notCounted isCounted
          · exact ne_nil_of_mem member isCounted.1
        tauto
      · have samePredecessors :=
          (fails.predecessors other).resolve_right failed
        have sameState :=
          (fails.shrunk.state other).resolve_right fun isFailed =>
            failed isFailed.1
        rw [IsCounted, IsCounted, samePredecessors, sameState, sameBlocked]
    rw [same]
  · rw [sameBlocked]
    exact counted.once

variable {worker : WorkerId}

/-- An action that starts a worker cannot be blocked. -/
theorem block_startWorker
    (ofKind : (world.env.actions action).kind = .startWorker worker) :
    world.block action = .raised world .nullPointer := by
  have ofNoCore : world.env.firstImplementation action = .ofNoCore := by
    simp only [firstImplementation, ofKind]
  have removed :
      world.callHook (·.removeFromReady action) = .returned world () := by
    refine callHook_returned.mpr ⟨world.env, ?_, rfl⟩
    simp [removeFromReady, changeReadyCount, ofNoCore]
  rw [block, removed, Outcome.andThen_returned, callHook,
    addToBlocked, ofNoCore]
  rfl

/-- A counted action is blocked before it fails. -/
theorem Counted.failCompletely
    (counted : Counted world [])
    (consistent : Consistent world)
    (known : action < world.nextId)
    (runnable : (world.graph action).state = .RUNNABLE)
    (isCounted : world.IsCounted action) :
    Counted (world.failCompletely action).state [] := by
  cases ofKind : (world.env.actions action).kind with
  | startWorker worker =>
      rw [World.failCompletely, block_startWorker ofKind]
      exact counted
  | execution coreId forcedResource constrainingPredecessors =>
      have ofCore : world.env.firstImplementation action = .ofCore coreId := by
        simp only [firstImplementation, ofKind]
      have kept : Kept world.nextId (fun _ => True) world :=
        ⟨consistent, rfl, trivial⟩
      have keptBlocked := kept.block known fun _ _ _ _ => trivial
      have countedBlocked :=
        counted.block consistent known ⟨coreId, ofCore⟩ isCounted
          not_mem_nil
      rcases consistent.block_eq known ⟨coreId, ofCore⟩ with
        ⟨counts, set, _, added, blocked⟩
      rw [blocked] at keptBlocked countedBlocked
      rw [World.failCompletely, blocked, Outcome.andThen_returned]
      have fails :=
        (failedWithin_failsFrom (world.nextId + 1) keptBlocked.consistent known
          (.inl runnable)).1
      have countedFailed :=
        countedBlocked.failsFrom fails fun isCountedAfter =>
          isCountedAfter.2.1 (added.mem_iff.mpr mem_cons_self)
      have staysCounted :=
        @Outcome.andThen_preserves SchedulerWorld (List ActionId) Unit
          (Counted · [])
      exact staysCounted countedFailed fun _ _ holds => holds

theorem Counted.errorOnAction
    (counted : Counted world [])
    (consistent : Consistent world)
    (running : (world.graph action).state = .RUNNING)
    (notBlocked :
      world.env.doError action →
        action ∉ world.env.blockedActions.getAllActions) :
    Accounts (world.errorOnAction scores action) := by
  have kept : Kept world.nextId (Unaffected world) world :=
    ⟨consistent, rfl, .refl world⟩
  have recorded
      (assignment : Assignment)
      (_ : (world.env.actions action).assigned = some assignment) :
      Unaffected world (world.recordFailure action assignment.resource) := by
    refine .withEnv (fun other => ?_) rfl rfl
    by_cases same : other = action
    · subst same
      rw [modifyAction_self]
    · rw [modifyAction_of_ne same]
  rcases kept.errorOnAction running recorded (keptByLeaving_unaffected world)
      (keptByResuming_unaffected world) with
    ⟨assignment, after, assigned, keptAfter, rests, erred⟩
  have countedAfter := counted.unaffected keptAfter.holds
  rw [erred]
  refine accounts_leaving ?_ rfl
  by_cases failsCompletely : world.env.doError action
  · rw [if_pos failsCompletely]
    have known : action < after.nextId := by
      rw [keptAfter.nextId]
      exact consistent.known_of_state (by simp [running])
    have isCounted : world.IsCounted action :=
      ⟨consistent.free_of_running running, notBlocked failsCompletely,
        by simp [running], by simp [running]⟩
    exact countedAfter.failCompletely keptAfter.consistent known rests.1
      ((keptAfter.holds.isCounted action).mpr isCounted)
  · rw [if_neg failsCompletely]
    exact countedAfter

/-! ## Successors, new actions and workers -/

theorem Counted.settleSuccessors
    (counted : Counted world [])
    (consistent : Consistent world)
    (known : action < world.nextId)
    (areReady :
      ∀ aa ∈ world.freedBy action,
        (world.graph aa).state ≠ .FAILED ∧
          aa ∉ world.env.blockedActions.getAllActions)
    (resource : WorkerId) :
    Accounts (world.settleSuccessors kind scores action resource) := by
  rcases @settleSuccessors_eq kind scores world action consistent
      known resource with
    ⟨released, counts, settled, recounted, handles⟩
  rw [handles]
  exact (counted.settled consistent settled areReady recounted).passes
    (handleDependencyFreeActions_passes _ _ resource)

variable
  {actionKind : ActionKind}
  {dataPredecessors : List ActionId}

/-- A new action that depends on no other is ready. -/
theorem Created.isCounted
    (created : Created world actionKind dataPredecessors after)
    (consistent : Consistent world)
    (free : (after.graph world.nextId).dataPredecessors.items = []) :
    after.IsCounted world.nextId := by
  have runnable : (after.graph world.nextId).state = .RUNNABLE := by
    rw [created.state, consistent.state_nextId]
  refine ⟨free, ?_, by simp [runnable], by simp [runnable]⟩
  rw [created.env]
  exact fun blocked =>
    absurd (consistent.blockedKnown world.nextId blocked) (Nat.lt_irrefl _)

variable (counted : Counted world [])

include counted

/-- A new action is counted and placed, unless it depends on others. -/
theorem Counted.admitCreated
    (consistent : Consistent world)
    (created : Created world actionKind dataPredecessors after)
    (notBlocked :
      (after.graph world.nextId).dataPredecessors.items ≠ [] →
        ¬ BlockedByPlacing kind after world.nextId) :
    Counted (after.newAllocatableAction kind scores world.nextId).state [] := by
  have known : world.nextId < after.nextId := by
    rw [created.nextId]
    exact Nat.lt_succ_self _
  apply (counted.created consistent created).newAllocatableAction
    created.consistent known
  split
  · rename_i free
    exact .inl (created.isCounted consistent free)
  · rename_i depends
    exact notBlocked depends

theorem Counted.newAction
    {coreId : CoreId}
    {forcedResource : Option WorkerId}
    {dataPredecessors constrainingPredecessors : List ActionId}
    (consistent : Consistent world)
    (coreKnown : coreId < world.env.coreCount)
    (predecessorsKnown :
      ∀ predecessor ∈ dataPredecessors, predecessor < world.nextId)
    (notBlocked :
      let created :=
        world.createExecution coreId forcedResource dataPredecessors
          constrainingPredecessors
      (created.graph world.nextId).dataPredecessors.items ≠ [] →
        ¬ BlockedByPlacing kind created world.nextId) :
    Accounts
      (world.process kind scores
        (.newAction coreId forcedResource dataPredecessors
          constrainingPredecessors)) :=
  accounts_leaving
    (counted.admitCreated consistent
      (Created.createExecution consistent coreKnown forcedResource
        predecessorsKnown constrainingPredecessors) notBlocked) rfl

/-- Blocked actions are left out until they are admitted again. -/
theorem Counted.unblocked
    {refiled ordered : List ActionId}
    {env : SchedulerEnv}
    (kinds :
      ∀ other, (env.actions other).kind = (world.env.actions other).kind)
    (readyCounts : env.readyCounts = world.env.readyCounts)
    (removed :
      (refiled ++ env.blockedActions.getAllActions).Perm
        world.env.blockedActions.getAllActions)
    (isOrdered : ordered.Perm refiled) :
    Counted { world with env := env } ordered where
  balanced := by
    refine counted.balanced.transfer rfl kinds readyCounts fun other => ?_
    rw [IsCounted, IsCounted, ← removed.mem_iff, isOrdered.mem_iff,
      mem_append]
    simp only [not_mem_nil, not_false_eq_true, and_true]
    tauto
  once := ((isOrdered.append_right _).trans removed).nodup_iff.mpr counted.once

omit counted in
/-- The action that starts a worker has no core to be counted for. -/
theorem not_blockedByPlacing_startWorker
    (ofKind : (world.env.actions action).kind = .startWorker worker) :
    ¬ BlockedByPlacing kind world action := by
  rintro ⟨-, ⟨coreId, ofCore⟩, -⟩
  simp [firstImplementation, ofKind] at ofCore

theorem Counted.updateWorker
    (consistent : Consistent world)
    (worker : WorkerId) :
    Accounts (world.updateWorker kind scores worker) := by
  rcases @updateWorker_eq kind scores world worker with
    ⟨refile, refiles, updates⟩
  have refiled
      (started : SchedulerWorld)
      (countedStarted : Counted started []) :
      Accounts (refile started) := by
    rcases refiles started with ⟨actions, set, removed, isRefiled⟩
    rw [isRefiled]
    refine ⟨?_, .refile _⟩
    rw [readmitted_refile]
    exact countedStarted.unblocked (fun _ => rfl) rfl removed
      (scores.executionOrder_perm actions)
  rw [updates]
  split
  · exact refiled world counted
  · have registered : Counted (world.register worker) [] :=
      counted.unaffected (.withEnv (fun _ => rfl) rfl rfl)
    have created :=
      @Consistent.create _ (consistent.register worker) (.startWorker worker)
        (by simp)
    have isStart :
        ((((world.register worker).create (.startWorker worker)).env.actions
          (world.register worker).nextId).kind) = .startWorker worker := by
      rw [created.env, modifyAction_self]
      rfl
    have admitted :
        Counted
          (((world.register worker).create
            (.startWorker worker)).newAllocatableAction kind scores
              world.nextId).state [] :=
      registered.admitCreated (consistent.register worker) created
        fun _ => not_blockedByPlacing_startWorker isStart
    cases outcome :
        ((world.register worker).create
          (.startWorker worker)).newAllocatableAction kind scores
            world.nextId with
    | returned started value =>
        rw [outcome] at admitted
        exact refiled started admitted
    | raised started exception =>
        rw [outcome] at admitted
        exact admitted

/-- The counters start anew, and nothing is to be counted. -/
theorem Counted.coreElementsUpdated
    (noneReady : ∀ coreId, world.readyOf coreId = ∅)
    (newCoreCount : Nat)
    (features : WorkerId → WorkerFeatures) :
    Counted (world.modifyEnv (·.coreElementsUpdated newCoreCount features))
      [] := by
  have sameBlocked :=
    ActionSet.getAllActions_updateCoreCount world.env.blockedActions
      newCoreCount
  constructor
  · intro coreId count entry
    have sameReady :
        (world.modifyEnv (·.coreElementsUpdated newCoreCount features)).readyOf
          coreId = world.readyOf coreId := by
      refine Finset.filter_congr fun other _ => ?_
      simp only [IsCounted, modifyEnv, SchedulerEnv.coreElementsUpdated,
        sameBlocked]
      rfl
    change (replicate newCoreCount (0 : Int))[coreId]? = some count at entry
    rw [total_nil, sameReady, noneReady]
    exact (mem_replicate.mp (mem_of_getElem? entry)).2
  · change List.Nodup
      ([] ++ (world.env.blockedActions.updateCoreCount
        newCoreCount).getAllActions)
    rw [sameBlocked]
    exact counted.once

end World

end DistributedRdf.Scheduling
