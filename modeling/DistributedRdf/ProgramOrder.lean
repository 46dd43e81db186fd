import DistributedRdf.SequentialConsistency

namespace DistributedRdf.Engine

open Java Execution Dataflow TaskAnalyser AnalyserHistory List DataAccessId

/-!
# Every execution order agrees with the order of submission
-/

/-- The first task comes before the second one. -/
def Before (earlier later : TaskId) (order : List TaskId) : Prop :=
  ∃ front back, order = front ++ later :: back ∧ earlier ∈ front

variable
  {earlier later : TaskId}
  {order : List TaskId}

theorem Before.mem
    (before : Before earlier later order) :
    later ∈ order := by
  rcases before with ⟨front, back, rfl, _⟩
  simp

theorem Before.append
    (before : Before earlier later order)
    (appended : List TaskId) :
    Before earlier later (order ++ appended) := by
  rcases before with ⟨front, back, rfl, member⟩
  exact ⟨front, back ++ appended, by simp, member⟩

theorem before_last
    (member : earlier ∈ order)
    (last : TaskId) :
    Before earlier last (order ++ [last]) :=
  ⟨order, [], rfl, member⟩

/-- In a list without repetitions a task has one list of earlier tasks. -/
theorem Before.mem_front
    {front back : List TaskId}
    (before : Before earlier later (front ++ later :: back))
    (once : (front ++ later :: back).Nodup) :
    earlier ∈ front := by
  rcases before with ⟨otherFront, otherBack, split, member⟩
  have distinct := nodup_append.mp once
  have notInFront : later ∉ front := by
    intro again
    exact distinct.2.2 later again later (by simp) rfl
  have notInBack : later ∉ back := (nodup_cons.mp distinct.2.1).1
  have same := (append_cons_inj_of_notMem notInFront notInBack).mp split
  rw [same.1]
  exact member

/-- What the dependency detection keeps true between two requests. -/
structure ProgramOrdered (history : AnalyserHistory) : Prop where
  sequenced :
    Sequenced history.analyser (· ∈ history.submitted)
      (fun writer task =>
        Before writer task history.submitted ∧
          writer ∈ history.recorded task)
  once : history.submitted.Nodup

theorem programOrdered_start (drawGraph : Bool) :
    ProgramOrdered (.start drawGraph) := by
  refine ⟨?_, nodup_nil⟩
  refine ⟨DataInfoProvider.wellFormed_new, ?_, ?_, ?_, ?_, ?_, ?_⟩
  · intro task index access found
    exact absurd found (by
      simp [start, new, Task.new])
  · intro dataId writer isLast
    exact absurd isLast (by
      simp [start, new, lastWriter])
  · intro writer index dataId version produces
    rcases produces with ⟨access, found, _⟩
    exact absurd found (by
      simp [start, new, Task.new])
  · intro task index dataId version reads
    rcases reads with ⟨access, found, _⟩
    exact absurd found (by
      simp [start, new, Task.new])
  · intro first firstIndex second secondIndex instanceId produces
    rcases produces with ⟨access, found, _⟩
    exact absurd found (by
      simp [start, new, Task.new])
  · intro task index instanceId reads
    rcases reads with ⟨access, found, _⟩
    exact absurd found (by
      simp [start, new, Task.new])

variable
  {history : AnalyserHistory}
  {taskId : TaskId}

/-- A task whose identifier is new has no accesses yet. -/
theorem ProgramOrdered.countTask
    (ordered : ProgramOrdered history)
    (fresh : taskId ∉ history.submitted)
    (description : TaskDescription) :
    InProgress history.submitted
      (fun writer task =>
        Before writer task history.submitted ∧
          writer ∈ history.recorded task)
      taskId 0 (history.analyser.countTask taskId description) := by
  have untouched : (history.analyser.tasks taskId).accesses = fun _ => none := by
    funext index
    cases found : (history.analyser.tasks taskId).accesses index with
    | none => rfl
    | some access =>
        exact absurd (ordered.sequenced.known taskId index access found) fresh
  have created :
      (history.analyser.countTask taskId description).tasks taskId =
        .new description := by
    simp [TaskAnalyser.countTask, TaskAnalyser.setTask]
  have same :
      SameView history.analyser
        (history.analyser.countTask taskId description) := by
    refine ⟨?_, rfl, .refl _⟩
    intro other
    refine TaskAnalyser.setTask_accesses ?_ other
    exact untouched.symm
  refine ⟨?_, ?_, ?_, fresh⟩
  · apply ordered.sequenced.congr same
    · intro task isKnown
      exact .inl isKnown
    · intro writer task linked
      refine .inl ⟨?_, linked⟩
      intro isNew
      exact fresh (isNew ▸ linked.1.mem)
  · intro index access found
    rw [created] at found
    exact absurd found (by simp [Task.new])
  · intro writer member
    rw [created] at member
    exact absurd member (by simp [Task.new])

theorem ProgramOrdered.processTask
    (ordered : ProgramOrdered history)
    (fresh : taskId ∉ history.submitted)
    (description : TaskDescription) :
    ProgramOrdered (history.next (.processTask taskId description)) := by
  have progress :=
    (ordered.countTask fresh description).processParameters
      description.parameters
  refine ⟨?_, ?_⟩
  · apply progress.sequenced.congr (.refl _)
    · intro task isKnown
      rcases isKnown with earlier | isNew
      · exact mem_append_left _ earlier
      · exact mem_append_right _ (mem_singleton.mpr isNew)
    · intro writer task linked
      rcases linked with ⟨isOld, before, recorded⟩ | ⟨rfl, recorded⟩
      · refine ⟨before.append [taskId], ?_⟩
        change writer ∈ Function.update history.recorded taskId _ task
        rw [Function.update_of_ne isOld]
        exact recorded
      · refine ⟨before_last (progress.predecessorsKnown writer recorded) _, ?_⟩
        change writer ∈ Function.update history.recorded task _ task
        rw [Function.update_self]
        exact recorded
  · change (history.submitted ++ [taskId]).Nodup
    rw [nodup_append]
    refine ⟨ordered.once, nodup_singleton taskId, ?_⟩
    intro earlier member last isLast same
    rw [mem_singleton] at isLast
    exact fresh (isLast ▸ same ▸ member)

/-- Tasks are submitted once and end at any time; no thread waits. -/
def detectionSystem (drawGraph : Bool) :
    TransitionSystem AnalyserHistory AnalyserAction where
  start := .start drawGraph
  Enabled history
    | .processTask taskId _ => taskId ∉ history.submitted
    | .setStatus _ _ _ | .endTask _ => True
    | .findWaitedTask _ _ _ | .barrier _ _ | .noMoreTasks _ _ => False
  next := next

variable {drawGraph : Bool}

theorem ProgramOrdered.next
    (ordered : ProgramOrdered history)
    {action : AnalyserAction}
    (enabled : (detectionSystem drawGraph).Enabled history action) :
    ProgramOrdered (history.next action) := by
  cases action with
  | processTask taskId description =>
      exact ordered.processTask enabled description
  | setStatus taskId status executionCount =>
      refine ⟨?_, ordered.once⟩
      apply ordered.sequenced.congr
      · apply sameView_setTask
        rfl
      · exact fun _ isKnown => isKnown
      · exact fun _ _ linked => linked
  | endTask taskId =>
      refine ⟨?_, ordered.once⟩
      apply ordered.sequenced.congr
      · exact history.analyser.sameView_endTask taskId
      · exact fun _ isKnown => isKnown
      · exact fun _ _ linked => linked
  | findWaitedTask dataId mode semaphore => exact enabled.elim
  | barrier appId semaphore => exact enabled.elim
  | noMoreTasks appId semaphore => exact enabled.elim

theorem programOrdered_of_run
    {actions : List AnalyserAction}
    (run : Run (detectionSystem drawGraph) anyStep actions history) :
    ProgramOrdered history :=
  run.invariant (programOrdered_start drawGraph)
    fun _ _ ordered enabled _ => ordered.next enabled

/-!
## Executions
-/

namespace TaskAnalyser

variable
  (analyser : TaskAnalyser)
  (select : DataAccessId → Option DataInstanceId)

/-- The instances that the parameters of a task refer to. -/
def instances
    (taskId : TaskId) : List DataInstanceId :=
  let task := analyser.tasks taskId
  (range task.description.parameters.length).filterMap fun paramIdx =>
    (task.accesses paramIdx).bind select

/-- Tasks read and write the instances that their accesses name. -/
def program
    {Value : Type u}
    (compute : TaskId → List Value → DataInstanceId → Value) :
    Program TaskId DataInstanceId Value where
  reads := analyser.instances readInstance?
  writes := analyser.instances writtenInstance?
  compute := compute

variable
  {analyser}
  {select}

theorem exists_of_mem_instances
    {instanceId : DataInstanceId}
    (member : instanceId ∈ analyser.instances select taskId) :
    ∃ paramIdx access,
      (analyser.tasks taskId).accesses paramIdx = some access ∧
        select access = some instanceId := by
  obtain ⟨paramIdx, _, selected⟩ := mem_filterMap.mp member
  obtain ⟨access, found, isInstance⟩ := Option.bind_eq_some_iff.mp selected
  exact ⟨paramIdx, access, found, isInstance⟩

end TaskAnalyser

variable (history)

/-- The recorded predecessors of each task run before it. -/
def AnalyserHistory.Respected
    (order : List TaskId) : Prop :=
  ∀ earlier task later, order = earlier ++ task :: later →
    ∀ writer, writer ∈ history.recorded task → writer ∈ earlier

/--
Each version a task reads is produced by the task itself through an earlier
parameter, or by an earlier task that is a recorded predecessor.
-/
def AnalyserHistory.DependenciesRecorded : Prop :=
  ∀ task paramIdx instanceId,
    history.analyser.Reads task paramIdx instanceId →
      ∀ writer writerIdx,
        history.analyser.Produces writer writerIdx instanceId →
          (writer = task ∧ writerIdx < paramIdx) ∨
            (writer ≠ task ∧ Before writer task history.submitted ∧
              writer ∈ history.recorded task)

variable {history}

/-- In all respected orders the tasks read what they read in program order. -/
def AnalyserHistory.OrderIndependent (history : AnalyserHistory) : Prop :=
  ∀ (Value : Type) (compute : TaskId → List Value → DataInstanceId → Value)
    (store : DataInstanceId → Value) (order : List TaskId),
    order.Perm history.submitted → history.Respected order →
      ∀ task earlier later front back,
        order = earlier ++ task :: later →
          history.submitted = front ++ task :: back →
            (history.analyser.program compute).inputs
                ((history.analyser.program compute).executeAll store earlier)
                task =
              (history.analyser.program compute).inputs
                ((history.analyser.program compute).executeAll store front)
                task

variable {Value : Type u}

section

variable (ordered : ProgramOrdered history)

include ordered

variable (compute : TaskId → List Value → DataInstanceId → Value)

theorem ProgramOrdered.singleAssignment :
    (history.analyser.program compute).SingleAssignment := by
  intro first second instanceId firstWrites secondWrites
  obtain ⟨firstIdx, produces⟩ :=
    exists_of_mem_instances firstWrites
  obtain ⟨secondIdx, producesToo⟩ :=
    exists_of_mem_instances secondWrites
  exact (ordered.sequenced.producedOnce first firstIdx second secondIdx
    instanceId produces producesToo).1

/-- An order that respects the predecessors runs the producers first. -/
theorem ProgramOrdered.producersFirst
    (respected : history.Respected order) :
    (history.analyser.program compute).ProducersFirst order := by
  intro earlier task later split producer instanceId _ reads writes
  obtain ⟨paramIdx, isRead⟩ := exists_of_mem_instances reads
  obtain ⟨writerIdx, isWritten⟩ := exists_of_mem_instances writes
  rcases ordered.sequenced.ordered task paramIdx instanceId isRead producer
      writerIdx isWritten with ⟨own, _⟩ | ⟨_, _, recorded⟩
  · exact .inl own
  · exact .inr (respected earlier task later split producer recorded)

/-- So does the order of submission, whatever has been recorded. -/
theorem ProgramOrdered.submissionProducersFirst :
    (history.analyser.program compute).ProducersFirst history.submitted := by
  intro earlier task later split producer instanceId _ reads writes
  obtain ⟨paramIdx, isRead⟩ := exists_of_mem_instances reads
  obtain ⟨writerIdx, isWritten⟩ := exists_of_mem_instances writes
  rcases ordered.sequenced.ordered task paramIdx instanceId isRead producer
      writerIdx isWritten with ⟨own, _⟩ | ⟨_, before, _⟩
  · exact .inl own
  · have once := ordered.once
    rw [split] at before once
    exact .inr (before.mem_front once)

theorem ProgramOrdered.orderIndependent :
    history.OrderIndependent := by
  intro Value compute store order sameTasks respected task earlier later front
    back split submittedSplit
  have orderNodup : order.Nodup := sameTasks.nodup_iff.mpr ordered.once
  exact Program.inputs_eq_of_producersFirst store
    (ordered.singleAssignment compute) orderNodup sameTasks
    (ordered.producersFirst compute respected)
    (ordered.submissionProducersFirst compute) split submittedSplit

end

/--
Sequential consistency: the recorded predecessors order each task after the
producers of what it reads, so all respected orders give it the same inputs.
-/
theorem sequentiallyConsistent_of_run
    {drawGraph : Bool}
    {actions : List AnalyserAction}
    {history : AnalyserHistory}
    (run : Run (detectionSystem drawGraph) anyStep actions history) :
    history.DependenciesRecorded ∧ history.OrderIndependent := by
  have ordered := programOrdered_of_run run
  refine ⟨?_, ordered.orderIndependent⟩
  intro task paramIdx instanceId reads writer writerIdx produces
  exact ordered.sequenced.ordered task paramIdx instanceId reads writer
    writerIdx produces

def resultLocation : DataLocation :=
  ⟨"/tmp/result".toList, "result".toList⟩

def writerOf (parameters : List Parameter) : TaskDescription :=
  ⟨1, .METHOD, false, false, parameters⟩

/-- A file is written by one task, which ends, and then read by another. -/
def producerThenConsumer : List AnalyserAction :=
  [.processTask 1 (writerOf [.file .OUT resultLocation]),
    .setStatus 1 .FINISHED 0, .endTask 1,
    .processTask 2 (writerOf [.file .IN resultLocation])]

theorem sequentiallyConsistent_producerThenConsumer :
    ((detectionSystem false).after producerThenConsumer).DependenciesRecorded ∧
      ((detectionSystem false).after producerThenConsumer).OrderIndependent := by
  apply sequentiallyConsistent_of_run
  apply run_of_executable
  exact ⟨⟨not_mem_nil, trivial⟩, ⟨trivial, trivial⟩, ⟨trivial, trivial⟩,
    ⟨(by decide : 2 ∉ [1]), trivial⟩, trivial⟩

/-- A task that writes a file and then reads it reads its own version. -/
theorem not_producedByOther_writeThenRead :
    ¬ ∀ (actions : List AnalyserAction) (history : AnalyserHistory),
      Run (detectionSystem false) anyStep actions history →
        ∀ task paramIdx instanceId,
          history.analyser.Reads task paramIdx instanceId →
            ∀ writer writerIdx,
              history.analyser.Produces writer writerIdx instanceId →
                writer ≠ task ∧ Before writer task history.submitted ∧
                  (writer ∈ history.ended ∨
                    writer ∈ history.recorded task) := by
  intro claimed
  let actions : List AnalyserAction :=
    [.processTask 1
      (writerOf [.file .OUT resultLocation, .file .IN resultLocation])]
  have run :
      Run (detectionSystem false) anyStep actions
        ((detectionSystem false).after actions) := by
    apply run_of_executable
    exact ⟨⟨not_mem_nil, trivial⟩, trivial⟩
  have reads :
      ((detectionSystem false).after actions).analyser.Reads 1 1 ⟨1, 2⟩ :=
    ⟨.read ⟨1, 2⟩, rfl, rfl⟩
  have produces :
      ((detectionSystem false).after actions).analyser.Produces 1 0 ⟨1, 2⟩ :=
    ⟨.write ⟨1, 2⟩, rfl, rfl⟩
  exact (claimed actions _ run 1 1 ⟨1, 2⟩ reads 1 0 produces).1 rfl

end DistributedRdf.Engine
