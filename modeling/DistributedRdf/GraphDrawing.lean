import DistributedRdf.AnalyserHistory
import Mathlib.Data.List.Dedup

namespace DistributedRdf.Engine

open Java Execution Outcome List

/-!
# Drawing the task graph

With graph generation on, the analyser writes nodes and edges while it detects
dependencies and synchronizations.  Errors in writing the file are only logged.
-/

inductive GraphLine where
  | task (taskId : TaskId)
  | synchro (synchronizationId : Int)
  | barrier (synchronizationId : Int)
  | edge (src tgt label : String)
  deriving DecidableEq

/-- What is only there for the graph, also the field `synchronizationId` of tasks -/
structure GraphDrawing where
  synchronizationId : Int
  taskDetectedAfterSync : Bool
  taskSynchronizationId : TaskId → Int
  fullGraph : List GraphLine

namespace GraphDrawing

def new : GraphDrawing where
  synchronizationId := 0
  taskDetectedAfterSync := false
  taskSynchronizationId := fun _ => 0
  fullGraph := []

variable (drawing : GraphDrawing)

def addLine (line : GraphLine) : GraphDrawing :=
  { drawing with fullGraph := drawing.fullGraph ++ [line] }

def synchro (synchronizationId : Int) : String :=
  "Synchro" ++ toString synchronizationId

variable (task : TaskId)

def addNewTask : GraphDrawing :=
  { drawing.addLine (.task task) with
    taskSynchronizationId :=
      Function.update drawing.taskSynchronizationId task
        drawing.synchronizationId
    taskDetectedAfterSync := true }

def addEdgeFromTaskToTask
    (source dest : TaskId)
    (dataId : Nat) : GraphDrawing :=
  if drawing.taskSynchronizationId source =
      drawing.taskSynchronizationId dest then
    drawing.addLine (.edge (toString source) (toString dest) (toString dataId))
  else
    drawing.addLine
      (.edge (synchro (drawing.taskSynchronizationId dest)) (toString dest)
        (toString dataId))

def addEdgeFromMainToTask
    (dest : TaskId)
    (dataId : Nat) : GraphDrawing :=
  drawing.addLine
    (.edge (synchro (drawing.taskSynchronizationId dest)) (toString dest)
      (toString dataId))

/-- The edge from the synchronization point before the current one -/
def addEdgeFromLastSync : GraphDrawing :=
  if drawing.synchronizationId > 1 then
    drawing.addLine
      (.edge (synchro (drawing.synchronizationId - 1))
        (synchro drawing.synchronizationId) "")
  else
    drawing

/-- Adds a synchronization point if a task has been detected since the last one. -/
def addEdgeFromTaskToMain
    (dataId : Nat) : GraphDrawing :=
  let synchronized :=
    if drawing.taskDetectedAfterSync then
      ({ drawing with
          taskDetectedAfterSync := false
          synchronizationId := drawing.synchronizationId + 1 }.addLine
        (.synchro (drawing.synchronizationId + 1))).addEdgeFromLastSync
    else
      drawing
  synchronized.addLine
    (.edge (toString task) (synchro synchronized.synchronizationId)
      (toString dataId))

/-- The loop of `addNewBarrier` asks every writer for its synchronization point. -/
def addEdgesToBarrier :
    List (Option TaskId) → GraphDrawing → Outcome GraphDrawing Unit
  | [], drawing => .returned drawing ()
  | none :: _, drawing => .raised drawing .nullPointer
  | some writer :: rest, drawing =>
      addEdgesToBarrier rest
        (if drawing.taskSynchronizationId writer =
            drawing.synchronizationId - 1 then
          drawing.addLine
            (.edge (toString writer) (synchro drawing.synchronizationId) "")
        else
          drawing)

/-- The set of the writers has no order of its own. -/
def addNewBarrier
    (writers : JavaMap Nat (Option TaskId)) : Outcome GraphDrawing Unit :=
  let barrier :=
    ({ drawing with
        taskDetectedAfterSync := false
        synchronizationId := drawing.synchronizationId + 1 }.addLine
      (.barrier (drawing.synchronizationId + 1))).addEdgeFromLastSync
  addEdgesToBarrier (writers.entries.map (·.snd)).dedup barrier

end GraphDrawing

/-- An analyser that draws; the flag of the analyser itself is not looked at. -/
structure GraphAnalyser where
  drawGraph : Bool
  analyser : TaskAnalyser
  drawing : GraphDrawing

variable (outcome : Outcome σ α)

/-- How a call ended, if not with a normal return -/
def thrown : Option JavaException :=
  match outcome with
  | .returned _ _ => none
  | .raised _ exception => some exception

@[simp] theorem thrown_onState
    (embed : σ → τ) :
    thrown (outcome.onState embed) = thrown outcome := by
  cases outcome with
  | returned state value => rfl
  | raised state exception => rfl

variable (analyser : TaskAnalyser)

/-- The part of `barrier` that has nothing to do with the graph -/
def TaskAnalyser.awaitApplication
    (appId : AppId)
    (semaphore : SemaphoreId) : TaskAnalyser :=
  if analyser.allTasksEnded appId then
    analyser.release semaphore
  else
    { analyser with
      appIdBarrierFlags := analyser.appIdBarrierFlags.insert appId
      appIdToSemaphore := analyser.appIdToSemaphore.insert appId semaphore }

/-- What the task dispatcher sets -/
def TaskAnalyser.setStatus
    (taskId : TaskId)
    (status : TaskState)
    (executionCount : Int) : TaskAnalyser :=
  analyser.setTask taskId
    { analyser.tasks taskId with
      status := status
      executionCount := executionCount }

/-- One request with graph generation off -/
def TaskAnalyser.perform :
    AnalyserAction → Outcome TaskAnalyser Unit
  | .processTask taskId description => analyser.processTask taskId description
  | .setStatus taskId status executionCount =>
      .returned (analyser.setStatus taskId status executionCount) ()
  | .endTask taskId => analyser.endTask taskId
  | .findWaitedTask dataId mode semaphore =>
      .returned (analyser.findWaitedTask dataId mode semaphore) ()
  | .barrier appId semaphore =>
      .returned (analyser.awaitApplication appId semaphore) ()
  | .noMoreTasks appId semaphore =>
      .returned (analyser.noMoreTasks appId semaphore) ()

namespace GraphAnalyser

def new (drawGraph : Bool) : GraphAnalyser where
  drawGraph := drawGraph
  analyser := .new false
  drawing := .new

variable (state : GraphAnalyser)

/-- `if (drawGraph)` -/
def draw
    (lines : GraphDrawing → GraphDrawing) : GraphDrawing :=
  if state.drawGraph then lines state.drawing else state.drawing

/-- The edge of `checkDependencyForRead` -/
def dependencyEdge
    (lastWriter : Option TaskId)
    (currentTask : TaskId)
    (dataId : Nat)
    (drawing : GraphDrawing) : GraphDrawing :=
  match lastWriter with
  | some writer =>
      if writer ≠ currentTask then
        drawing.addEdgeFromTaskToTask writer currentTask dataId
      else
        drawing.addEdgeFromMainToTask currentTask dataId
  | none => drawing.addEdgeFromMainToTask currentTask dataId

/-- Only what reads the datum checks its dependency. -/
def addDependencies
    (state : GraphAnalyser)
    (currentTask : TaskId)
    (paramIdx : Nat)
    (parameter : Parameter)
    (access : DataAccessId) : GraphAnalyser :=
  { state with
    analyser :=
      state.analyser.addDependencies currentTask paramIdx parameter access
    drawing :=
      match access with
      | .read _ | .readWrite _ _ _ =>
          state.draw
            (dependencyEdge (state.analyser.lastWriter access.dataId)
              currentTask access.dataId)
      | .write _ => state.drawing }

variable
  (currentTask : TaskId)
  (paramIdx : Nat)
  (parameter : Parameter)

def processParameter : Outcome GraphAnalyser Unit :=
  match state.analyser.registerAccess parameter with
  | none => .returned state ()
  | some (_, registered) =>
      (registered.onState fun provider =>
        { state with
          analyser := { state.analyser with DIP := provider } }).andThen
            fun state access =>
              .returned
                (state.addDependencies currentTask paramIdx parameter access) ()

def processParameters
    (state : GraphAnalyser)
    (currentTask : TaskId) :
    Nat → List Parameter → Outcome GraphAnalyser Unit
  | _, [] => .returned state ()
  | paramIdx, parameter :: rest =>
      (state.processParameter currentTask paramIdx parameter).andThen
        fun state _ => state.processParameters currentTask (paramIdx + 1) rest

def processTask
    (taskId : TaskId)
    (description : TaskDescription) : Outcome GraphAnalyser Unit :=
  { state with
    analyser := state.analyser.countTask taskId description
    drawing := state.draw (·.addNewTask taskId) }.processParameters taskId 0
      description.parameters

def findWaitedTask
    (state : GraphAnalyser)
    (dataId : Nat)
    (mode : AccessMode)
    (semaphore : SemaphoreId) : GraphAnalyser :=
  { state with
    analyser := state.analyser.findWaitedTask dataId mode semaphore
    drawing :=
      match state.analyser.lastWriter dataId with
      | some lastWriter => state.draw (·.addEdgeFromTaskToMain lastWriter dataId)
      | none => state.drawing }

def barrier
    (appId : AppId)
    (semaphore : SemaphoreId) : Outcome GraphAnalyser Unit :=
  (if state.drawGraph then
    (state.drawing.addNewBarrier state.analyser.writers).onState
      fun drawing => { state with drawing := drawing }
  else
    .returned state ()).andThen fun state _ =>
      .returned
        { state with
          analyser := state.analyser.awaitApplication appId semaphore } ()

/-- One request -/
def perform :
    AnalyserAction → Outcome GraphAnalyser Unit
  | .processTask taskId description => state.processTask taskId description
  | .setStatus taskId status executionCount =>
      .returned
        { state with
          analyser := state.analyser.setStatus taskId status executionCount } ()
  | .endTask taskId =>
      (state.analyser.endTask taskId).onState fun analyser =>
        { state with analyser := analyser }
  | .findWaitedTask dataId mode semaphore =>
      .returned (state.findWaitedTask dataId mode semaphore) ()
  | .barrier appId semaphore => state.barrier appId semaphore
  | .noMoreTasks appId semaphore =>
      .returned
        { state with
          analyser := state.analyser.noMoreTasks appId semaphore } ()

/-! What the analyser does when the graph is left out -/

theorem analyser_processParameter :
    (state.processParameter currentTask paramIdx parameter).onState
        GraphAnalyser.analyser =
      state.analyser.processParameter currentTask paramIdx parameter := by
  unfold processParameter TaskAnalyser.processParameter
  cases state.analyser.registerAccess parameter with
  | none => rfl
  | some access =>
      obtain ⟨direction, registered⟩ := access
      cases registered with
      | returned provider access => rfl
      | raised provider exception => rfl

variable (parameters : List Parameter)

theorem analyser_processParameters :
    (state.processParameters currentTask paramIdx parameters).onState
        GraphAnalyser.analyser =
      state.analyser.processParameters currentTask paramIdx parameters := by
  induction parameters generalizing state paramIdx with
  | nil => rfl
  | cons parameter rest hypothesis =>
      rw [processParameters, TaskAnalyser.processParameters,
        ← analyser_processParameter]
      exact onState_andThen fun after _ =>
        hypothesis after (paramIdx + 1)

theorem drawGraph_processParameters :
    (state.processParameters currentTask paramIdx parameters).state.drawGraph =
      state.drawGraph := by
  induction parameters generalizing state paramIdx with
  | nil => rfl
  | cons parameter rest hypothesis =>
      refine andThen_keeps GraphAnalyser.drawGraph ?_ fun after _ kept =>
        (hypothesis after (paramIdx + 1)).trans kept
      unfold processParameter
      cases state.analyser.registerAccess parameter with
      | none => rfl
      | some access =>
          obtain ⟨direction, registered⟩ := access
          exact andThen_keeps GraphAnalyser.drawGraph
            (by rw [state_onState]) fun _ _ kept => kept

/-- Nothing switches graph generation on or off. -/
theorem drawGraph_perform (action : AnalyserAction) :
    (state.perform action).state.drawGraph = state.drawGraph := by
  cases action with
  | processTask taskId description =>
      exact drawGraph_processParameters _ taskId 0 description.parameters
  | setStatus taskId status executionCount => rfl
  | endTask taskId => rw [perform, state_onState]
  | findWaitedTask dataId mode semaphore => rfl
  | barrier appId semaphore =>
      refine andThen_keeps GraphAnalyser.drawGraph ?_ fun _ _ kept => kept
      by_cases drawn : state.drawGraph = true
      · rw [if_pos drawn, state_onState]
      · rw [if_neg drawn]
        rfl
  | noMoreTasks appId semaphore => rfl

end GraphAnalyser

/-- Writers that can be asked for their synchronization point -/
def TaskAnalyser.NoNullWriter : Prop :=
  ∀ dataId, analyser.writers.lookup dataId ≠ some none

namespace GraphDrawing

theorem thrown_addEdgesToBarrier
    (writers : List (Option TaskId))
    (drawing : GraphDrawing) :
    thrown (addEdgesToBarrier writers drawing) =
      if none ∈ writers then some .nullPointer else none := by
  induction writers generalizing drawing with
  | nil => rfl
  | cons writer rest hypothesis =>
      cases writer with
      | none =>
          rw [if_pos mem_cons_self]
          rfl
      | some writer =>
          rw [addEdgesToBarrier, hypothesis]
          simp only [mem_cons, reduceCtorEq, false_or]

theorem thrown_addNewBarrier_eq_none
    (drawing : GraphDrawing)
    (analyser : TaskAnalyser) :
    thrown (drawing.addNewBarrier analyser.writers) = none ↔
      analyser.NoNullWriter := by
  have nullWriter :
      none ∈ (analyser.writers.entries.map (·.snd)).dedup ↔
        ∃ dataId, analyser.writers.lookup dataId = some none := by
    rw [mem_dedup, mem_map]
    constructor
    · rintro ⟨⟨dataId, writer⟩, member, isNull⟩
      obtain rfl : writer = none := isNull
      exact ⟨dataId, AList.mem_lookup_iff.mpr member⟩
    · rintro ⟨dataId, found⟩
      exact ⟨⟨dataId, none⟩, AList.mem_lookup_iff.mp found, rfl⟩
  rw [addNewBarrier, thrown_addEdgesToBarrier, TaskAnalyser.NoNullWriter,
    ← not_exists, ← nullWriter]
  split
  · exact iff_of_false nofun (not_not_intro ‹_›)
  · exact iff_of_true rfl ‹_›

end GraphDrawing

/-- An outcome is the state that is left behind and the way it ended. -/
theorem outcome_eq_iff {first second : Outcome σ Unit} :
    first = second ↔
      first.state = second.state ∧ thrown first = thrown second := by
  cases first with
  | returned state value =>
      cases second with
      | returned other value => simp [thrown]
      | raised other exception => simp [thrown]
  | raised state exception =>
      cases second with
      | returned other value => simp [thrown]
      | raised other otherException => simp [thrown]

namespace GraphAnalyser

variable {state : GraphAnalyser}

theorem analyser_barrier_iff
    (drawn : state.drawGraph = true)
    (appId : AppId)
    (semaphore : SemaphoreId) :
    (state.barrier appId semaphore).onState GraphAnalyser.analyser =
        state.analyser.perform (.barrier appId semaphore) ↔
      state.analyser.NoNullWriter := by
  rw [← state.drawing.thrown_addNewBarrier_eq_none, barrier, if_pos drawn]
  cases state.drawing.addNewBarrier state.analyser.writers with
  | returned drawing value => exact iff_of_true rfl rfl
  | raised drawing exception =>
      refine iff_of_false ?_ ?_
      · simp [onState, TaskAnalyser.perform]
      · simp [thrown]

/-- Only a barrier can tell whether a graph is drawn. -/
theorem analyser_perform_iff
    (drawn : state.drawGraph = true)
    (action : AnalyserAction) :
    (state.perform action).onState GraphAnalyser.analyser =
        state.analyser.perform action ↔
      ∀ appId semaphore, action = .barrier appId semaphore →
        state.analyser.NoNullWriter := by
  cases action with
  | processTask taskId description =>
      exact iff_of_true
        (analyser_processParameters _ taskId 0 description.parameters) nofun
  | setStatus taskId status executionCount => exact iff_of_true rfl nofun
  | endTask taskId =>
      refine iff_of_true ?_ nofun
      rw [perform, TaskAnalyser.perform, onState_onState]
      cases state.analyser.endTask taskId with
      | returned analyser value => rfl
      | raised analyser exception => rfl
  | findWaitedTask dataId mode semaphore => exact iff_of_true rfl nofun
  | barrier appId semaphore =>
      rw [perform, analyser_barrier_iff drawn]
      constructor
      · intro noNull _ _ _
        exact noNull
      · intro noNull
        exact noNull appId semaphore rfl
  | noMoreTasks appId semaphore => exact iff_of_true rfl nofun

end GraphAnalyser

/-- The same requests, with a graph and without -/
structure SideBySide where
  drawing : GraphAnalyser
  plain : TaskAnalyser
  /-- How each request ended on either side -/
  endings : List (Option JavaException × Option JavaException)

namespace SideBySide

def start : SideBySide where
  drawing := .new true
  plain := .new false
  endings := []

variable
  (sides : SideBySide)
  (action : AnalyserAction)

def next : SideBySide :=
  let drawn := sides.drawing.perform action
  let undrawn := sides.plain.perform action
  { drawing := drawn.state
    plain := undrawn.state
    endings := sides.endings ++ [(thrown drawn, thrown undrawn)] }

/-- Requests come in any order. -/
def sideBySide : TransitionSystem SideBySide AnalyserAction where
  start := start
  Enabled _ _ := True
  next := next

/-- The graph makes no difference to tasks, semaphores and exceptions. -/
def Undisturbed : Prop :=
  sides.drawing.analyser = sides.plain ∧
    ∀ ending, ending ∈ sides.endings → ending.1 = ending.2

/-- No datum has lost its last writer to the main program when a barrier comes. -/
def WritersAtBarrier : Prop :=
  ∀ appId semaphore, action = .barrier appId semaphore →
    sides.plain.NoNullWriter

theorem undisturbed_next_iff
    {sides : SideBySide}
    (undisturbed : sides.Undisturbed)
    (drawn : sides.drawing.drawGraph = true)
    (action : AnalyserAction) :
    (sides.next action).Undisturbed ↔ sides.WritersAtBarrier action := by
  obtain ⟨same, sameEndings⟩ := undisturbed
  rw [WritersAtBarrier, ← same,
    ← GraphAnalyser.analyser_perform_iff drawn action, outcome_eq_iff, same]
  have endings :
      (∀ ending, ending ∈ (sides.next action).endings →
          ending.1 = ending.2) ↔
        thrown (sides.drawing.perform action) =
          thrown (sides.plain.perform action) := by
    simp only [next, mem_append, mem_singleton]
    constructor
    · intro all
      exact all _ (.inr rfl)
    · rintro last ending (earlier | rfl)
      · exact sameEndings ending earlier
      · exact last
  rw [Undisturbed, endings, state_onState, thrown_onState]
  rfl

/-- Drawing the graph disturbs the analyser exactly when a barrier comes while
some datum has a null writer. -/
theorem undisturbedThroughout_iff
    {actions : List AnalyserAction}
    {sides : SideBySide}
    (run : Run sideBySide anyStep actions sides) :
    (∀ before reached, before <+: actions →
      Run sideBySide anyStep before reached → reached.Undisturbed) ↔
        Run sideBySide WritersAtBarrier actions sides := by
  apply run.holdsThroughout_iff_of_invariant
    (fun sides => sides.drawing.drawGraph = true)
  · exact ⟨rfl, nofun⟩
  · rfl
  · intro state action undisturbed drawn enabled writers
    exact (state.drawing.drawGraph_perform action).trans drawn
  · intro state action undisturbed drawn enabled
    exact undisturbed_next_iff undisturbed drawn action

/-- A task that produces one object -/
def producer : TaskDescription where
  appId := 0
  type := .METHOD
  hasTargetObject := false
  hasReturnValue := true
  parameters := [.object .OUT 7 false]

/-- The main program only reads what the task has written. -/
theorem undisturbed_readByMain :
    ∃ sides,
      Run sideBySide anyStep
        [.processTask 1 producer, .findWaitedTask 1 .R 4, .barrier 0 5]
          sides ∧
        sides.Undisturbed := by
  have processed :
      Run sideBySide WritersAtBarrier [.processTask 1 producer] _ :=
    .snoc .start trivial nofun
  have waited :
      Run sideBySide WritersAtBarrier
        [.processTask 1 producer, .findWaitedTask 1 .R 4] _ :=
    processed.snoc trivial nofun
  have writers :
      (sideBySide.after
        [.processTask 1 producer, .findWaitedTask 1 .R 4]).WritersAtBarrier
          (.barrier 0 5) := by
    intro appId semaphore _ dataId isNull
    have member := AList.mem_lookup_iff.mp isNull
    have only : ⟨dataId, none⟩ = (⟨1, some 1⟩ : Σ _ : Nat, Option TaskId) :=
      mem_singleton.mp member
    cases only
  have permitted := waited.snoc trivial writers
  have run := permitted.mono fun _ _ _ => trivial
  exact ⟨_, run, (undisturbedThroughout_iff run).mpr permitted _ _
    (prefix_refl _) run⟩

/-- The main program takes the object over and waits for all tasks. -/
theorem not_undisturbed_takenByMain :
    ∃ sides,
      Run sideBySide anyStep
        [.processTask 1 producer, .findWaitedTask 1 .RW 4, .barrier 0 5]
          sides ∧
        sides.endings.getLast? = some (some .nullPointer, none) ∧
        ¬ sides.Undisturbed := by
  have run :
      Run sideBySide anyStep
        [.processTask 1 producer, .findWaitedTask 1 .RW 4, .barrier 0 5]
        (sideBySide.after
          [.processTask 1 producer, .findWaitedTask 1 .RW 4, .barrier 0 5]) :=
    .snoc (.snoc (.snoc .start trivial trivial) trivial trivial) trivial trivial
  refine ⟨_, run, rfl, ?_⟩
  rintro ⟨-, sameEndings⟩
  have last := sameEndings (some .nullPointer, none)
    (mem_of_getLast? rfl)
  cases last

end SideBySide

end DistributedRdf.Engine
