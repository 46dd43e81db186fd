import DistributedRdf.HeldOperations

namespace DistributedRdf.Scheduling

open Java Execution ActionNode Option

/-!
# The places of the actions

Between two operations of a ready scheduler, an action that has not ended is in
one place: it depends on unfinished data, it is filed as unassigned or as
blocked, or it waits or runs on one worker.
-/

inductive Place where
  | depending
  | unassigned
  | blocked
  | waiting (worker : WorkerId)
  | running (worker : WorkerId)
  deriving DecidableEq

namespace World

variable
  {kind : SchedulerKind}
  {world : SchedulerWorld}
  {action : ActionId}

/--
How often the action is in a place.  The set of depending actions is only ever
added to and never read; what an action depends on, it knows itself.
-/
def occurrences (world : SchedulerWorld) (action : ActionId) : Place → Nat
  | .depending => if (world.graph action).hasDataPredecessors then 1 else 0
  | .unassigned => world.env.unassignedReadyActions.getAllActions.count action
  | .blocked => world.env.blockedActions.getAllActions.count action
  | .waiting worker => (world.env.waiting worker).count action
  | .running worker => (world.env.hosted worker).count action

/-- The action is in the place once, and nowhere else. -/
def OnlyIn (world : SchedulerWorld) (action : ActionId) (place : Place) : Prop :=
  world.occurrences action place = 1 ∧
    ∀ other ≠ place, world.occurrences action other = 0

/-- No action has been lost or duplicated, and no action that has ended is left. -/
structure InOnePlace (world : SchedulerWorld) : Prop where
  unfinished :
    ∀ action < world.nextId,
      (world.graph action).state ≠ .FINISHED →
        (world.graph action).state ≠ .FAILED → ∃ place, world.OnlyIn action place
  ended :
    ∀ action,
      (world.graph action).state = .FINISHED ∨
          (world.graph action).state = .FAILED →
        ∀ place, world.occurrences action place = 0

/-! ## The places in a consistent state -/

section

variable (consistent : Consistent world)

include consistent

variable (worker : WorkerId)

theorem Consistent.occurrences_waiting :
    world.occurrences action (.waiting worker) =
      if (world.graph action).state = .WAITING ∧
        world.env.assignedResource action = some worker then 1 else 0 :=
  consistent.waiting worker action

theorem Consistent.occurrences_running :
    world.occurrences action (.running worker) =
      if (world.graph action).state = .RUNNING ∧
        world.env.assignedResource action = some worker then 1 else 0 :=
  consistent.hosted worker action

/-- Only a runnable action depends on unfinished data, if no action has failed. -/
theorem Consistent.occurrences_depending
    (notRunnable : (world.graph action).state ≠ .RUNNABLE)
    (notFailed : (world.graph action).state ≠ .FAILED) :
    world.occurrences action .depending = 0 := by
  have free : (world.graph action).dataPredecessors.items = [] := by
    by_contra depends
    rcases consistent.dependent action depends with runnable | failed
    · exact notRunnable runnable
    · exact notFailed failed
  simp [occurrences, hasDataPredecessors, free]

/-- An action that is neither waiting nor running is in no queue. -/
theorem Consistent.notQueued
    (notWaiting : (world.graph action).state ≠ .WAITING)
    (notRunning : (world.graph action).state ≠ .RUNNING)
    (worker : WorkerId) :
    world.occurrences action (.waiting worker) = 0 ∧
      world.occurrences action (.running worker) = 0 := by
  rw [consistent.occurrences_waiting, consistent.occurrences_running]
  exact ⟨if_neg fun isIn => notWaiting isIn.1,
    if_neg fun isIn => notRunning isIn.1⟩

end

theorem notFiled
    (absent : world.filedCount action = 0) :
    world.occurrences action .unassigned = 0 ∧
      world.occurrences action .blocked = 0 :=
  Nat.add_eq_zero_iff.mp absent

variable (held : HeldOnce True world [])

include held

/-- A runnable action depends on data, or it is filed. -/
theorem HeldOnce.onlyIn_of_runnable
    (consistent : Consistent world)
    (known : action < world.nextId)
    (runnable : (world.graph action).state = .RUNNABLE) :
    ∃ place, world.OnlyIn action place := by
  have notQueued :=
    @Consistent.notQueued world action consistent (by simp [runnable])
      (by simp [runnable])
  by_cases free : (world.graph action).dataPredecessors.items = []
  · have independent : world.occurrences action .depending = 0 := by
      simp [occurrences, hasDataPredecessors, free]
    have filedOnce : world.filedCount action = 1 :=
      Nat.le_antisymm (held action).once
        ((held action).notLost trivial ⟨known, runnable, free⟩)
    rcases Nat.add_eq_one_iff.mp filedOnce with
      ⟨notUnassigned, blocked⟩ | ⟨unassigned, notBlocked⟩
    · refine ⟨.blocked, blocked, fun other different => ?_⟩
      cases other with
      | depending => exact independent
      | unassigned => exact notUnassigned
      | blocked => exact absurd rfl different
      | waiting worker => exact (notQueued worker).1
      | running worker => exact (notQueued worker).2
    · refine ⟨.unassigned, unassigned, fun other different => ?_⟩
      cases other with
      | depending => exact independent
      | unassigned => exact absurd rfl different
      | blocked => exact notBlocked
      | waiting worker => exact (notQueued worker).1
      | running worker => exact (notQueued worker).2
  · have absent : world.filedCount action = 0 :=
      (held action).eq_zero fun ready => free ready.free
    refine ⟨.depending, ?_, fun other different => ?_⟩
    · simp [occurrences, hasDataPredecessors, free]
    · cases other with
      | depending => exact absurd rfl different
      | unassigned => exact (notFiled absent).1
      | blocked => exact (notFiled absent).2
      | waiting worker => exact (notQueued worker).1
      | running worker => exact (notQueued worker).2

/-- A waiting or running action is in the queue of the worker it is assigned to. -/
theorem HeldOnce.onlyIn_of_queued
    (consistent : Consistent world)
    (queued :
      (world.graph action).state = .RUNNING ∨
        (world.graph action).state = .WAITING) :
    ∃ place, world.OnlyIn action place := by
  have notRunnable : (world.graph action).state ≠ .RUNNABLE := by
    rcases queued with state | state <;> simp [state]
  have independent :=
    consistent.occurrences_depending notRunnable (held action).notFailed
  have absent : world.filedCount action = 0 :=
    (held action).eq_zero fun ready => notRunnable ready.runnable
  obtain ⟨assignment, assigned⟩ :=
    isSome_iff_exists.mp (consistent.assigned action queued)
  have onWorker := assignedResource_eq assigned
  rcases queued with running | isWaiting
  · refine ⟨.running assignment.resource, ?_, fun other different => ?_⟩
    · rw [consistent.occurrences_running, if_pos ⟨running, onWorker⟩]
    · cases other with
      | depending => exact independent
      | unassigned => exact (notFiled absent).1
      | blocked => exact (notFiled absent).2
      | waiting worker =>
          rw [consistent.occurrences_waiting, running]
          simp
      | running worker =>
          rw [consistent.occurrences_running, if_neg]
          rintro ⟨-, onOther⟩
          rw [onWorker, some.injEq] at onOther
          exact different (congrArg Place.running onOther.symm)
  · refine ⟨.waiting assignment.resource, ?_, fun other different => ?_⟩
    · rw [consistent.occurrences_waiting, if_pos ⟨isWaiting, onWorker⟩]
    · cases other with
      | depending => exact independent
      | unassigned => exact (notFiled absent).1
      | blocked => exact (notFiled absent).2
      | waiting worker =>
          rw [consistent.occurrences_waiting, if_neg]
          rintro ⟨-, onOther⟩
          rw [onWorker, some.injEq] at onOther
          exact different (congrArg Place.waiting onOther.symm)
      | running worker =>
          rw [consistent.occurrences_running, isWaiting]
          simp

theorem HeldOnce.inOnePlace
    (consistent : Consistent world) :
    InOnePlace world where
  unfinished := by
    intro action known notFinished notFailed
    cases state : (world.graph action).state with
    | RUNNABLE => exact held.onlyIn_of_runnable consistent known state
    | WAITING => exact held.onlyIn_of_queued consistent (.inr state)
    | RUNNING => exact held.onlyIn_of_queued consistent (.inl state)
    | FINISHED => exact absurd state notFinished
    | FAILED => exact absurd state notFailed
  ended := by
    intro action hasEnded place
    have notFailed := (held action).notFailed
    have finished : (world.graph action).state = .FINISHED :=
      hasEnded.resolve_right notFailed
    have notRunnable : (world.graph action).state ≠ .RUNNABLE := by
      simp [finished]
    have absent : world.filedCount action = 0 :=
      (held action).eq_zero fun ready => notRunnable ready.runnable
    have notQueued :=
      @Consistent.notQueued world action consistent (by simp [finished])
        (by simp [finished])
    cases place with
    | depending => exact consistent.occurrences_depending notRunnable notFailed
    | unassigned => exact (notFiled absent).1
    | blocked => exact (notFiled absent).2
    | waiting worker => exact (notQueued worker).1
    | running worker => exact (notQueued worker).2

end World

/-! ## Runs of a ready scheduler -/

namespace Dispatcher

open World

variable
  {kind : SchedulerKind}
  {deployment : Deployment}
  {dispatcher : Dispatcher}

/-- Between two operations, every action is in its place. -/
def LosesNone (dispatcher : Dispatcher) : Prop :=
  dispatcher.agenda = [] → dispatcher.world.InOnePlace

/--
The step fails no action for good.  An action that it places is filed, or it is
launched on a worker of its choice; if it is filed as unassigned, then it is not
assigned from before.
-/
abbrev LaunchesOrFiles (kind : SchedulerKind) :
    Dispatcher → Dispatcher.Action → Prop :=
  PlacesSafely True kind

theorem losesNone_of_run
    (isReady : kind ≠ .base)
    {actions : List Dispatcher.Action}
    (run :
      Run (system kind deployment) (LaunchesOrFiles kind) actions dispatcher) :
    LosesNone dispatcher := by
  have invariant :
      Sound AlwaysSafe (fun _ => True) dispatcher ∧
        Accounted True dispatcher := by
    apply run.invariant
    · exact ⟨sound_start deployment trivial, accounted_start deployment⟩
    · rintro state action ⟨sound, accounted⟩ enabled safely
      exact ⟨sound_next enabled sound,
        accounted_next accounted sound (fun _ => isReady) enabled safely⟩
  intro idle
  have held := invariant.2.held
  rw [idle] at held
  exact HeldOnce.inOnePlace held invariant.1.consistent

/-- A task for a worker that can execute it. -/
def launchedRun : List Dispatcher.Action :=
  [.process firstWorkerScores (.updatedWorker 0 (updateOf 0 0)),
    .process firstWorkerScores (.newAction 0 none [] [])]

theorem losesNone_launchedRun :
    LosesNone ((system .ready singleProcessors).after launchedRun) := by
  refine losesNone_of_run (by decide) (run_of_executable ?_)
  refine ⟨⟨(updated_enabled rfl (by decide)).1, trivial⟩,
    ⟨(submitted_enabled (by decide) (by decide)).1, ?_⟩, trivial⟩
  refine ⟨fun _ => ⟨by decide, [0], rfl, ?_⟩, fun _ _ => rfl⟩
  exact fun worker _ _ => .inl fun constrained =>
    absurd constrained (by decide)

/-- A task that is tried again while the only other worker is occupied. -/
def refiledRun : List Dispatcher.Action :=
  [.process firstWorkerScores (.updatedWorker 0 (updateOf 0 0)),
    .process firstWorkerScores (.updatedWorker 1 (updateOf 1 1)),
    .process firstWorkerScores (.newAction 0 none [] []),
    .process firstWorkerScores (.errorOnAction 2),
    .continue firstWorkerScores]

/-- The task is filed as unassigned and launched where it has failed. -/
theorem not_losesNone_refiledRun :
    Run (system .ready singleProcessors) anyStep refiledRun
        ((system .ready singleProcessors).after refiledRun) ∧
      ¬ LosesNone ((system .ready singleProcessors).after refiledRun) := by
  constructor
  · apply run_of_executable
    refine ⟨updated_enabled rfl ?_, updated_enabled ?_ ?_,
      submitted_enabled ?_ ?_, error_enabled ?_ ?_, continue_enabled ?_,
      trivial⟩
    all_goals decide
  · intro losesNone
    obtain ⟨place, -, nowhereElse⟩ :=
      (losesNone (by decide)).unfinished 2 (by decide) (by decide) (by decide)
    by_cases isFiled : place = .unassigned
    · have notRunning := nowhereElse (.running 0) (by rw [isFiled]; decide)
      exact absurd notRunning (by decide)
    · have notFiled := nowhereElse .unassigned (Ne.symm isFiled)
      exact absurd notFiled (by decide)

end Dispatcher

end DistributedRdf.Scheduling
