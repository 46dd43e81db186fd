import DistributedRdf.CountedSteps

namespace DistributedRdf.Scheduling

open Java Relation Execution List Outcome

/-!
# Ready counters over whole runs

The counters are right between two operations if each step changes them along
with what is to be counted.  New cores set all counters back to zero, so that
they may only be registered while no action is ready.
-/

namespace World

variable
  {kind : SchedulerKind}
  {scores : Scores}
  {world : SchedulerWorld}
  {action other : ActionId}

/-- Only the action that is placed can become blocked. -/
theorem place_isCounted
    (consistent : Consistent world)
    (known : action < world.nextId)
    (different : other ≠ action) :
    (world.place kind scores action).state.IsCounted other ↔
      world.IsCounted other := by
  rcases @place_cases kind scores world action with
    ⟨blocks, blocked⟩ | ⟨_, unaffected⟩
  · rcases consistent.block_eq known blocks.2.1 with
      ⟨counts, set, _, added, isBlocked⟩
    rw [blocked, isBlocked, state_returned, isCounted_blocked added]
    exact and_iff_right different
  · exact unaffected.isCounted other

theorem newAllocatableAction_isCounted
    (consistent : Consistent world)
    (known : action < world.nextId)
    (different : other ≠ action) :
    (world.newAllocatableAction kind scores action).state.IsCounted other ↔
      world.IsCounted other := by
  unfold World.newAllocatableAction
  split
  · exact place_isCounted consistent known different
  · rcases consistent.changeReadyCount_eq known 1 with
      ⟨counts, recounted, called⟩
    rw [show
      world.callHook (·.addToReady action) = .returned (world.recount counts) ()
      from called, andThen_returned]
    exact place_isCounted (consistent.recount recounted.length) known different

variable (rest : List ActionId)

variable (kind scores world action) in
/--
An action that is admitted again is counted or blocked once more.  If this
throws then no other one that is to be counted waits to be admitted.
-/
structure ReadmittedRightly : Prop where
  matched :
    if (world.graph action).dataPredecessors.items = [] then
      world.IsCounted action ∨ BlockedByPlacing kind world action
    else ¬ BlockedByPlacing kind world action
  returns :
    (∃ other ∈ rest, world.IsCounted other) →
      ∃ after,
        world.newAllocatableAction kind scores action = .returned after ()

variable {rest}

theorem Counted.readmit
    {outcome : Outcome SchedulerWorld Unit}
    (counted : Counted world (action :: rest))
    (consistent : Consistent world)
    (known : action < world.nextId)
    (rightly : ReadmittedRightly kind scores world action rest)
    (isOutcome : world.newAllocatableAction kind scores action = outcome) :
    Counted outcome.state rest ∧
      ∀ after exception, outcome = .raised after exception →
        Counted after [] := by
  have admitted :
      Counted (world.newAllocatableAction kind scores action).state rest :=
    counted.newAllocatableAction consistent known rightly.matched
  rw [isOutcome] at admitted
  refine ⟨admitted, ?_⟩
  rintro after exception rfl
  have noneCounted : ∀ other ∈ rest, ¬ world.IsCounted other := by
    intro other member isCounted
    rcases rightly.returns ⟨other, member, isCounted⟩ with ⟨_, returned⟩
    exact absurd (isOutcome.symm.trans returned) (by simp)
  refine @Counted.drop after rest [] (by rwa [append_nil]) ?_
  intro other member isCounted
  have different : other ≠ action := by
    rintro rfl
    have once := counted.once
    rw [cons_append, nodup_cons, mem_append] at once
    exact once.1 (.inl member)
  have same :=
    @newAllocatableAction_isCounted kind scores world action other consistent
      known different
  rw [isOutcome] at same
  exact noneCounted other member (same.mp isCounted)

end World

namespace Dispatcher

open World

variable
  {kind : SchedulerKind}
  {scores : Scores}
  {deployment : Deployment}
  {dispatcher : Dispatcher}

/-- Between two operations, the counters are those of the ready actions. -/
def CountsReadyActions (dispatcher : Dispatcher) : Prop :=
  dispatcher.agenda = [] → dispatcher.world.CountsReady

/-- The counters are changed for actions that become or cease to be ready. -/
def CountsRightly
    (kind : SchedulerKind)
    (dispatcher : Dispatcher) : Dispatcher.Action → Prop
  | .process _ (.newAction coreId forcedResource dataPredecessors
      constrainingPredecessors) =>
      let world := dispatcher.world
      let created :=
        world.createExecution coreId forcedResource dataPredecessors
          constrainingPredecessors
      (created.graph world.nextId).dataPredecessors.items ≠ [] →
        ¬ BlockedByPlacing kind created world.nextId
  | .process _ (.actionCompleted action) =>
      action ∉ dispatcher.world.env.blockedActions.getAllActions
  | .process _ (.errorOnAction action) =>
      dispatcher.world.env.doError action →
        action ∉ dispatcher.world.env.blockedActions.getAllActions
  | .process _ (.updatedWorker _ _) => True
  | .process _ (.coreElementsUpdated _ _) =>
      ∀ coreId, dispatcher.world.readyOf coreId = ∅
  | .continue scores =>
      match dispatcher.agenda with
      | .place action :: _ =>
          BlockedByPlacing kind dispatcher.world action →
            dispatcher.world.IsCounted action
      | .refile action :: rest =>
          ReadmittedRightly kind scores dispatcher.world action
            (readmitted rest)
      | .settleSuccessors action _ :: _ =>
          ∀ aa ∈ dispatcher.world.freedBy action,
            (dispatcher.world.graph aa).state ≠ .FAILED ∧
              aa ∉ dispatcher.world.env.blockedActions.getAllActions
      | _ => True

/-- The account of the counters, with what waits to be admitted again. -/
structure KeepsCount (dispatcher : Dispatcher) : Prop where
  counted : Counted dispatcher.world (readmitted dispatcher.agenda)
  readmitsFirst : ReadmitsFirst dispatcher.agenda

variable {rest : List Work}

theorem keepsCount_after
    {outcome : Outcome SchedulerWorld (List Work)}
    (accounts : Accounts outcome)
    (none : readmitted rest = []) :
    KeepsCount (after outcome rest) := by
  cases outcome with
  | returned world work =>
      refine ⟨?_, accounts.2.append none⟩
      change Counted world (readmitted (work ++ rest))
      rw [readmitted_append, none, append_nil]
      exact accounts.1
  | raised world exception => exact ⟨accounts, trivial⟩

theorem keepsCount_refile
    {world : SchedulerWorld}
    {action : ActionId}
    (keeps : KeepsCount ⟨world, .refile action :: rest⟩)
    (consistent : Consistent world)
    (known : action < world.nextId)
    (rightly :
      ReadmittedRightly kind scores world action (readmitted rest)) :
    KeepsCount
      (after (world.perform kind scores (.refile action)) rest) := by
  have readmits :=
    Counted.readmit keeps.counted consistent known rightly rfl
  have first : ReadmitsFirst rest := keeps.readmitsFirst
  unfold World.perform
  dsimp only
  generalize world.newAllocatableAction kind scores action = outcome
    at readmits ⊢
  cases outcome with
  | returned after value => exact ⟨readmits.1, first⟩
  | raised after exception => exact ⟨readmits.2 after exception rfl, trivial⟩

theorem keepsCount_continue
    (keeps : KeepsCount dispatcher)
    (sound : Sound AlwaysSafe (fun _ => True) dispatcher)
    (rightly : CountsRightly kind dispatcher (.continue scores)) :
    KeepsCount (next kind dispatcher (.continue scores)) := by
  rcases dispatcher with ⟨world, agenda⟩
  cases agenda with
  | nil => exact keeps
  | cons work rest =>
      have consistent := sound.consistent
      have known := sound.doable.known work mem_cons_self
      by_cases readmits : work.readmits = none
      · have noneLeft : readmitted rest = [] := by
          cases work with
          | refile action => exact absurd readmits (by simp [Work.readmits])
          | place _ | launch _ | purge _ _ _ | settleSuccessors _ _
          | updateWorker _ => exact keeps.readmitsFirst
        have counted : Counted world [] := by
          have counted := keeps.counted
          rwa [readmitted, filterMap_cons_none readmits, ← readmitted,
            noneLeft] at counted
        refine keepsCount_after ?_ noneLeft
        cases work with
        | place action =>
            exact accounts_leaving (counted.place consistent known
              fun blocks => ⟨rightly blocks, not_mem_nil⟩) rfl
        | refile action => exact absurd readmits (by simp [Work.readmits])
        | launch action =>
            exact accounts_leaving
              (counted.unaffected (tryToLaunch_unaffected world action)) rfl
        | purge remaining kept resource =>
            exact counted.passes (purge_passes world remaining kept resource)
        | settleSuccessors action resource =>
            exact counted.settleSuccessors consistent known rightly resource
        | updateWorker worker => exact counted.updateWorker consistent worker
      · cases work with
        | refile action =>
            exact keepsCount_refile keeps consistent known rightly
        | place _ | launch _ | purge _ _ _ | settleSuccessors _ _
        | updateWorker _ => exact absurd rfl readmits

theorem keepsCount_next
    {action : Dispatcher.Action}
    (keeps : KeepsCount dispatcher)
    (sound : Sound AlwaysSafe (fun _ => True) dispatcher)
    (enabled : Enabled dispatcher action)
    (rightly : CountsRightly kind dispatcher action) :
    KeepsCount (next kind dispatcher action) := by
  cases action with
  | «continue» scores => exact keepsCount_continue keeps sound rightly
  | process scores request =>
      rcases enabled with ⟨idle, legal⟩
      have counted : Counted dispatcher.world [] := by
        have counted := keeps.counted
        rwa [idle] at counted
      refine keepsCount_after ?_ rfl
      cases request with
      | newAction coreId forcedResource dataPredecessors
          constrainingPredecessors =>
          exact counted.newAction sound.consistent legal.1 legal.2.2.1 rightly
      | actionCompleted action =>
          exact counted.actionCompleted sound.consistent legal rightly
      | errorOnAction action =>
          exact counted.errorOnAction sound.consistent legal rightly
      | updatedWorker worker update =>
          have updated :
              Counted
                (dispatcher.world.modifyEnv (·.applyUpdate worker update)) [] :=
            counted.unaffected (.withEnv (fun _ => rfl) rfl rfl)
          exact updated.updateWorker
            (sound.consistent.applyUpdate worker update) worker
      | coreElementsUpdated coreCount features =>
          exact ⟨counted.coreElementsUpdated rightly coreCount features,
            trivial⟩

theorem keepsCount_start (deployment : Deployment) :
    KeepsCount (start deployment) := by
  refine ⟨⟨?_, ?_⟩, trivial⟩
  · intro coreId count entry
    change (replicate deployment.coreCount (0 : Int))[coreId]? =
      some count at entry
    exact (mem_replicate.mp (mem_of_getElem? entry)).2
  · change List.Nodup
      ([] ++ (ActionSet.new deployment.coreCount).getAllActions)
    simp

/-- A task and one that depends on it, which is executed after it. -/
def dependentRun : List Dispatcher.Action :=
  [.process firstWorkerScores (.updatedWorker 0 (updateOf 0 0)),
    .process firstWorkerScores (.newAction 0 none [] []),
    .process firstWorkerScores (.newAction 0 none [1] []),
    .process firstWorkerScores (.actionCompleted 1),
    .continue firstWorkerScores,
    .continue firstWorkerScores]

/-- New cores are registered while a task is running. -/
def registeringRun : List Dispatcher.Action :=
  [.process firstWorkerScores (.updatedWorker 0 (updateOf 0 0)),
    .process firstWorkerScores (.newAction 0 none [] []),
    .process firstWorkerScores
      (.coreElementsUpdated 2 fun _ => featuresOf 0)]

end Dispatcher

end DistributedRdf.Scheduling
