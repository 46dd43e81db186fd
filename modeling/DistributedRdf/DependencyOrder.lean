import DistributedRdf.CountedRuns

namespace DistributedRdf.Scheduling

open Java Execution SchedulerEnv List ActionNode

/-!
# Actions and what they depend on

An action that depends on others is given to a worker only when they have
finished.  Dependencies are dropped when what they are on has finished, or when
the action that has them fails.
-/

/-- The work leaves no successors to be released. -/
def ReleasesNone (outcome : Outcome SchedulerWorld (List Work)) : Prop :=
  ∀ world work, outcome = .returned world work →
    ∀ action resource, .settleSuccessors action resource ∉ work

theorem releasesNone_returned
    {world : SchedulerWorld}
    {work : List Work}
    (none : ∀ action resource, .settleSuccessors action resource ∉ work) :
    ReleasesNone (.returned world work) := by
  rintro _ _ ⟨⟩
  exact none

theorem releasesNone_andThen
    {outcome : Outcome SchedulerWorld Unit}
    {next : SchedulerWorld → Unit → Outcome SchedulerWorld (List Work)}
    (none : ∀ world, ReleasesNone (next world ())) :
    ReleasesNone (outcome.andThen next) := by
  cases outcome with
  | returned world value => exact none world
  | raised world exception => rintro _ _ ⟨⟩

namespace World

variable
  {kind : SchedulerKind}
  {scores : Scores}
  {world before after : SchedulerWorld}
  {action : ActionId}

theorem updateWorker_releasesNone (worker : WorkerId) :
    ReleasesNone (world.updateWorker kind scores worker) := by
  apply releasesNone_andThen
  intro between
  dsimp only
  split
  · exact releasesNone_returned (by simp)
  · exact releasesNone_returned (by simp)

theorem purge_releasesNone
    (remaining keptActions : List ActionId)
    (resource : WorkerId) :
    ReleasesNone (world.purge kind scores keptActions resource remaining) := by
  have goesOn (between : SchedulerWorld) (rest more : List ActionId) :
      ReleasesNone (.returned between [.purge rest more resource]) :=
    releasesNone_returned (by simp)
  cases remaining with
  | nil => exact releasesNone_returned (by simp)
  | cons action rest =>
      rw [World.purge]
      split
      · exact releasesNone_andThen fun _ =>
          releasesNone_andThen fun _ => goesOn _ _ _
      · dsimp only
        split
        · exact goesOn _ _ _
        · exact releasesNone_andThen fun _ => goesOn _ _ _

theorem perform_releasesNone (work : Work) :
    ReleasesNone (world.perform kind scores work) := by
  have done (between : SchedulerWorld) : ReleasesNone (.returned between []) :=
    releasesNone_returned (by simp)
  cases work with
  | place _ | refile _ | launch _ => exact releasesNone_andThen done
  | purge remaining kept resource => exact purge_releasesNone _ _ _
  | settleSuccessors action resource =>
      apply releasesNone_andThen
      intro between
      cases kind with
      | base | ready | fifoData => exact releasesNone_returned (by simp)
  | updateWorker worker => exact updateWorker_releasesNone worker

/-! ## What steps do to dependencies -/

/-- What has ended stays so, and no action loses what it has to wait for. -/
structure Progresses (before after : SchedulerWorld) : Prop where
  ended :
    ∀ action, ¬ (before.graph action).isPending →
      (after.graph action).state = (before.graph action).state
  depends :
    ∀ action,
      ∀ predecessor ∈ (before.graph action).dataPredecessors.items,
        predecessor ∈ (after.graph action).dataPredecessors.items ∨
          (after.graph predecessor).state = .FINISHED ∨
            (after.graph action).state = .FAILED

namespace Progresses

theorem of_graph (same : after.graph = before.graph) :
    Progresses before after where
  ended action _ := by
    rw [same]
  depends action predecessor isPredecessor := by
    rw [same]
    exact .inl isPredecessor

theorem keeps
    {state : ActionState}
    (progresses : Progresses before after)
    (isEnd : state = .FINISHED ∨ state = .FAILED)
    (has : (before.graph action).state = state) :
    (after.graph action).state = state := by
  refine (progresses.ended action ?_).trans has
  rcases isEnd with rfl | rfl
  · simp [isPending, has]
  · simp [isPending, has]

theorem trans
    {between : SchedulerWorld}
    (first : Progresses before between)
    (second : Progresses between after) :
    Progresses before after where
  ended action ended := by
    have same := first.ended action ended
    rw [← same]
    exact second.ended action (by simpa only [isPending, same] using ended)
  depends action predecessor isPredecessor := by
    rcases first.depends action predecessor isPredecessor with
      still | isFinished | hasFailed
    · exact second.depends action predecessor still
    · exact .inr (.inl (second.keeps (.inl rfl) isFinished))
    · exact .inr (.inr (second.keeps (.inr rfl) hasFailed))

/-- An action that has not ended gets another state. -/
theorem of_moved
    {state : ActionState}
    (pending : (before.graph action).isPending)
    (moved : after.graph = (before.setState action state).graph) :
    Progresses before after where
  ended other ended := by
    have different : other ≠ action := by
      rintro rfl
      exact ended pending
    rw [moved, setState_of_ne different]
  depends other predecessor isPredecessor := by
    rw [moved, setState_dataPredecessors]
    exact .inl isPredecessor

/-- A new action is the first to have its dependencies. -/
theorem of_created
    {actionKind : ActionKind}
    {dataPredecessors : List ActionId}
    (consistent : Consistent before)
    (created : Created before actionKind dataPredecessors after) :
    Progresses before after where
  ended action _ := created.state action
  depends action predecessor isPredecessor := by
    by_cases isNew : action = before.nextId
    · subst isNew
      rw [consistent.unknown _ (Nat.le_refl _)] at isPredecessor
      exact absurd isPredecessor not_mem_nil
    · rw [created.predecessors action isNew]
      exact .inl isPredecessor

/-- Only a finished action is taken from the dependencies of others. -/
theorem of_settled
    (isFinished : (before.graph action).state = .FINISHED)
    (settled : Settled before action after) :
    Progresses before after where
  ended other _ := settled.state other
  depends other predecessor isPredecessor := by
    by_cases isAction : predecessor = action
    · subst isAction
      exact .inr (.inl ((settled.state predecessor).trans isFinished))
    · rw [settled.predecessors]
      split
      · exact .inl (mem_filter.mpr ⟨isPredecessor, by simpa using isAction⟩)
      · exact .inl isPredecessor

theorem of_fails (fails : FailsFrom action before after) :
    Progresses before after where
  ended other ended := by
    rcases fails.shrunk.state other with same | ⟨-, runnable⟩
    · exact same
    · exact absurd (by simp [isPending, runnable]) ended
  depends other predecessor isPredecessor := by
    rcases fails.predecessors other with same | hasFailed
    · rw [same]
      exact .inl isPredecessor
    · exact .inr (.inr hasFailed)

end Progresses

theorem keptByScheduling_progresses (first : SchedulerWorld) :
    KeptByScheduling Dispatcher.AlwaysSafe (Progresses first) where
  byFiling _ _ _ _ progresses := progresses.trans (.of_graph rfl)
  byAssigning _ _ _ _ _ progresses := progresses.trans (.of_graph (by simp))
  byChange _ _ _ _ _ change _ progresses := by
    refine progresses.trans ?_
    cases change with
    | assign assignment => exact .of_graph (by simp)
    | start _ launchable | wait _ launchable =>
        exact .of_moved (by simp [isPending, launchable.runnable]) rfl
  byCreating _ _ _ _ consistent _ created progresses :=
    progresses.trans (.of_created consistent created)
  byReconfiguring _ _ _ progresses := progresses.trans (.of_graph rfl)

end World

/-! ## Runs -/

namespace Dispatcher

open World

variable
  {kind : SchedulerKind}
  {deployment : Deployment}
  {dispatcher : Dispatcher}

/-- Successors are to be released of actions that have finished. -/
def ReleasesFinished (dispatcher : Dispatcher) : Prop :=
  ∀ action resource, .settleSuccessors action resource ∈ dispatcher.agenda →
    (dispatcher.world.graph action).state = .FINISHED

variable (outcome : Outcome SchedulerWorld (List Work))

theorem world_after
    (rest : List Work) :
    (after outcome rest).world = outcome.state := by
  cases outcome with
  | returned world work => rfl
  | raised world exception => rfl

variable {outcome}

theorem releasesFinished_after
    {rest : List Work}
    (none : ReleasesNone outcome)
    (finished :
      ∀ action resource, .settleSuccessors action resource ∈ rest →
        (outcome.state.graph action).state = .FINISHED) :
    ReleasesFinished (after outcome rest) := by
  cases outcome with
  | returned world work =>
      intro action resource member
      rcases mem_append.mp member with new | old
      · exact absurd new (none world work rfl action resource)
      · exact finished action resource old
  | raised world exception =>
      exact fun _ _ member => absurd member not_mem_nil

/-- What a step needs of its state -/
structure InOrder (dispatcher : Dispatcher) : Prop where
  sound : Sound AlwaysSafe (fun _ => True) dispatcher
  releases : ReleasesFinished dispatcher

section

variable (inOrder : InOrder dispatcher)

include inOrder

theorem InOrder.process
    {scores : Scores}
    {request : Request}
    {first : SchedulerWorld}
    (progresses : Progresses first dispatcher.world)
    (legal : Legal dispatcher.world request) :
    Progresses first (dispatcher.world.process kind scores request).state := by
  refine (process_yields (keptByScheduling_progresses first) ?_ ?_ ?_ ?_
    ⟨inOrder.sound.consistent, rfl, progresses⟩ legal).holds
  · exact fun _ _ before => before.trans (.of_graph rfl)
  · intro action state world assignment worker _ running _ _ before
    exact before.trans (.of_moved (by simp [isPending, running]) rfl)
  · intro world worker action rest assignment _ _ waits _ _ before
    exact before.trans (.of_moved (by simp [isPending, waits]) rfl)
  · exact fun _ _ _ fails before => before.trans (.of_fails fails)

theorem InOrder.progresses
    {action : Dispatcher.Action}
    (enabled : Enabled dispatcher action) :
    Progresses dispatcher.world (next kind dispatcher action).world := by
  have refl : Progresses dispatcher.world dispatcher.world := .of_graph rfl
  cases action with
  | process scores request =>
      rw [next, world_after]
      exact inOrder.process refl enabled.2
  | «continue» scores =>
      have scheduling := keptByScheduling_progresses dispatcher.world
      have condition := launchCondition_alwaysSafe
      have kept : Kept _ (Progresses dispatcher.world) dispatcher.world :=
        ⟨inOrder.sound.consistent, rfl, refl⟩
      rw [next]
      split
      · exact refl
      · rename_i work rest isAgenda
        have member : work ∈ dispatcher.agenda := by
          rw [isAgenda]
          exact mem_cons_self
        have known := inOrder.sound.doable.known work member
        rw [world_after]
        by_cases settling :
            ∃ action resource, work = .settleSuccessors action resource
        · rcases settling with ⟨action, resource, rfl⟩
          exact (scheduling.settleSuccessors condition kept known
            (fun _ => .of_settled (inOrder.releases action resource member))
            (fun _ _ _ _ => trivial) resource).holds
        · exact (scheduling.perform condition kept known
            (fun action resource isSettling =>
              settling ⟨action, resource, isSettling⟩)
            (fun _ _ => trivial) (fun _ _ _ => trivial)).holds

theorem InOrder.next
    {action : Dispatcher.Action}
    (enabled : Enabled dispatcher action) :
    InOrder (next kind dispatcher action) where
  sound := sound_next enabled inOrder.sound
  releases := by
    cases action with
    | process scores request =>
        cases request with
        | newAction coreId forcedResource dataPredecessors
            constrainingPredecessors =>
            exact releasesFinished_after
              (releasesNone_andThen fun _ => releasesNone_returned (by simp))
              (by simp)
        | actionCompleted action =>
            obtain ⟨assignment, ended, -, -, rests, completed⟩ :=
              @Kept.actionCompleted scores _ _ _ _ (fun _ => True)
                inOrder.sound.kept enabled.2 (fun _ _ => trivial)
                (fun _ _ _ _ _ _ _ _ => trivial)
                (fun _ _ _ _ _ _ _ _ _ _ _ => trivial)
            rw [Dispatcher.next, World.process, completed]
            intro other resource member
            obtain rfl : other = action := by
              simp only [after, append_nil] at member
              split at member
              · simp_all
              · simp_all
            exact rests.1
        | errorOnAction action =>
            refine releasesFinished_after ?_ (by simp)
            rw [World.process, World.errorOnAction]
            split
            · rintro _ _ ⟨⟩
            · exact releasesNone_andThen fun _ =>
                releasesNone_andThen fun _ => releasesNone_returned (by simp)
        | updatedWorker worker update =>
            exact releasesFinished_after (updateWorker_releasesNone worker)
              (by simp)
        | coreElementsUpdated coreCount features =>
            exact releasesFinished_after (releasesNone_returned (by simp))
              (by simp)
    | «continue» scores =>
        have progresses := @InOrder.progresses kind _ inOrder _ enabled
        rw [Dispatcher.next] at progresses ⊢
        split
        · exact inOrder.releases
        · rename_i work rest isAgenda
          rw [isAgenda] at progresses
          refine releasesFinished_after (perform_releasesNone work) ?_
          intro action resource member
          rw [← world_after _ rest]
          apply progresses.keeps (.inl rfl)
          apply inOrder.releases action resource
          rw [isAgenda]
          exact mem_cons_of_mem work member

end

variable {actions : List Dispatcher.Action}

theorem inOrder_of_run
    (run : Run (system kind deployment) anyStep actions dispatcher) :
    InOrder dispatcher := by
  apply run.invariant
  · exact ⟨sound_start deployment trivial,
      fun _ _ member => absurd member not_mem_nil⟩
  · exact fun _ _ inOrder enabled _ => inOrder.next enabled

theorem executable_dependentRun :
    Executable (system .ready singleProcessors) anyStep
      (system .ready singleProcessors).start dependentRun :=
  ⟨updated_enabled rfl (by decide), submitted_enabled (by decide) (by decide),
    ⟨⟨by decide, by decide, by simp, by decide, by simp⟩, trivial⟩,
    completed_enabled (by decide) (by decide), continue_enabled (by decide),
    continue_enabled (by decide), trivial⟩

variable
  {earlier later : List Dispatcher.Action}
  {reached : Dispatcher}

theorem Progresses.onward
    {first : SchedulerWorld}
    (progresses : Progresses first reached.world)
    (run : Run (system kind deployment) anyStep earlier reached)
    (onward :
      Run (system kind deployment) anyStep (earlier ++ later) dispatcher) :
    Progresses first dispatcher.world := by
  refine (@Run.invariant_from _ _ _ _
    (fun later => InOrder later ∧ Progresses first later.world) _ _ _ _ run
      ⟨inOrder_of_run run, progresses⟩ ?_ onward).2
  intro _ _ both enabled _
  exact ⟨both.1.next enabled, both.2.trans (both.1.progresses enabled)⟩

/-- An action that has ended keeps its state, whatever is done later. -/
theorem endedStays_of_run
    {action : ActionId}
    (run : Run (system kind deployment) anyStep earlier reached)
    (onward :
      Run (system kind deployment) anyStep (earlier ++ later) dispatcher)
    (ended : ¬ (reached.world.graph action).isPending) :
    (dispatcher.world.graph action).state =
      (reached.world.graph action).state :=
  (Progresses.onward (.of_graph rfl) run onward).ended action ended

theorem endedStays_dependentRun :
    (((system .ready singleProcessors).after dependentRun).world.graph
      1).state = .FINISHED := by
  obtain ⟨updated, submitted, depends, completed, rest⟩ :=
    executable_dependentRun
  have ended :
      Run (system .ready singleProcessors) anyStep (dependentRun.take 4) _ :=
    run_of_executable ⟨updated, submitted, depends, completed, trivial⟩
  exact endedStays_of_run ended (ended.extend rest) (by decide)

/--
When an action is given to a worker, what it depends on has finished, as far as
it had not ended before the action was submitted.
-/
theorem predecessorsFinish_of_run
    {submission : Dispatcher.Action}
    {submitted : Dispatcher}
    {scores : Scores}
    {coreId : CoreId}
    {forcedResource : Option WorkerId}
    {dataPredecessors constrainingPredecessors : List ActionId}
    (isSubmission :
      submission = .process scores (.newAction coreId forcedResource
        dataPredecessors constrainingPredecessors))
    (run : Run (system kind deployment) anyStep earlier submitted)
    (enabled : (system kind deployment).Enabled submitted submission)
    (onward :
      Run (system kind deployment) anyStep
        ((earlier ++ [submission]) ++ later) dispatcher)
    {predecessor : ActionId}
    (isPredecessor : predecessor ∈ dataPredecessors)
    (pending : (submitted.world.graph predecessor).isPending)
    (given :
      (dispatcher.world.graph submitted.world.nextId).state ∈
        [.WAITING, .RUNNING, .FINISHED]) :
    (dispatcher.world.graph predecessor).state = .FINISHED := by
  have throughSubmission := run.snoc enabled trivial
  have inOrder := inOrder_of_run run
  subst isSubmission
  let world :=
    submitted.world.createExecution coreId forcedResource dataPredecessors
      constrainingPredecessors
  have created :=
    Created.createExecution inOrder.sound.consistent enabled.2.1 forcedResource
      enabled.2.2.2.1 constrainingPredecessors
  have known : submitted.world.nextId < world.nextId := by
    rw [created.nextId]
    exact Nat.lt_succ_self _
  have placed :
      Progresses world (submitted.world.process kind scores (.newAction coreId
        forcedResource dataPredecessors constrainingPredecessors)).state :=
    (Yields.andThen
      ((keptByScheduling_progresses world).newAllocatableAction
        launchCondition_alwaysSafe ⟨created.consistent, rfl, .of_graph rfl⟩
        known fun _ => trivial)
      fun _ kept =>
        (Yields.returned kept .nil : Yields AlwaysSafe _ _ _)).holds
  rw [← world_after _ []] at placed
  have progresses := Progresses.onward placed throughSubmission onward
  rcases progresses.depends _ _
      (created.added predecessor (mem_reverse.mpr isPredecessor) pending) with
    still | isFinished | hasFailed
  · have notEmpty := ne_nil_of_mem still
    rcases (inOrder_of_run onward).sound.consistent.dependent _ notEmpty with
      state | state
    · simp [state] at given
    · simp [state] at given
  · exact isFinished
  · simp [hasFailed] at given

theorem predecessorsFinish_dependentRun :
    (((system .ready singleProcessors).after dependentRun).world.graph
      1).state = .FINISHED := by
  obtain ⟨updated, submitted, depends, rest⟩ := executable_dependentRun
  have executing :
      Run (system .ready singleProcessors) anyStep (dependentRun.take 2) _ :=
    run_of_executable ⟨updated, submitted, trivial⟩
  have executed := (executing.snoc depends.1 trivial).extend rest
  exact predecessorsFinish_of_run rfl executing depends.1 executed
    (mem_singleton_self 1) (by decide) (by decide)

end Dispatcher

end DistributedRdf.Scheduling
