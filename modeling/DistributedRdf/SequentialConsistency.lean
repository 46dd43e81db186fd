import DistributedRdf.Dataflow
import DistributedRdf.DependencyDetection

namespace DistributedRdf.Engine

open Java Execution TaskAnalyser Option Outcome DataAccessId

/-!
# Tasks read what program order says

The producer of a version that a task reads is recorded as a predecessor of the
task, unless the task itself wrote the datum through an earlier parameter.
Every execution order that respects the recorded predecessors therefore gives
each task the inputs it has in the order of submission.
-/

namespace TaskAnalyser

variable
  (analyser : TaskAnalyser)
  (taskId : TaskId)
  (paramIdx : Nat)
  (instanceId : DataInstanceId)

/-- The task was told to read the instance through the parameter. -/
def Reads : Prop :=
  ∃ access, (analyser.tasks taskId).accesses paramIdx = some access ∧
    access.readInstance? = some instanceId

/-- The task was told to produce the instance through the parameter. -/
def Produces : Prop :=
  ∃ access, (analyser.tasks taskId).accesses paramIdx = some access ∧
    access.writtenInstance? = some instanceId

end TaskAnalyser

/--
The writers table names the producers of the current versions, and whoever
produces an instance that a task reads is linked to the task.
-/
structure Sequenced
    (analyser : TaskAnalyser)
    (Known : TaskId → Prop)
    (Linked : TaskId → TaskId → Prop) : Prop where
  wellFormed : analyser.DIP.WellFormed
  known :
    ∀ task index access,
      (analyser.tasks task).accesses index = some access → Known task
  writerProduces :
    ∀ dataId writer, analyser.lastWriter dataId = some writer →
      ∃ index version, analyser.DIP.currentVersion dataId = some version ∧
        analyser.Produces writer index ⟨dataId, version⟩
  producedOld :
    ∀ writer index dataId version,
      analyser.Produces writer index ⟨dataId, version⟩ →
        ∃ current, analyser.DIP.currentVersion dataId = some current ∧
          version ≤ current ∧
          (version = current → analyser.lastWriter dataId = some writer)
  readOld :
    ∀ task index dataId version,
      analyser.Reads task index ⟨dataId, version⟩ →
        ∃ current, analyser.DIP.currentVersion dataId = some current ∧
          version ≤ current
  producedOnce :
    ∀ first firstIndex second secondIndex instanceId,
      analyser.Produces first firstIndex instanceId →
        analyser.Produces second secondIndex instanceId →
          first = second ∧ firstIndex = secondIndex
  ordered :
    ∀ task index instanceId, analyser.Reads task index instanceId →
      ∀ writer writerIndex, analyser.Produces writer writerIndex instanceId →
        (writer = task ∧ writerIndex < index) ∨
          (writer ≠ task ∧ Linked writer task)

/-- Accesses, writers and current versions are the same. -/
structure SameView (analyser other : TaskAnalyser) : Prop where
  accesses :
    ∀ task, (other.tasks task).accesses = (analyser.tasks task).accesses
  writers : other.writers = analyser.writers
  provider : analyser.DIP.SameVersions other.DIP

theorem SameView.refl (analyser : TaskAnalyser) : SameView analyser analyser :=
  ⟨fun _ => rfl, rfl, .refl _⟩

theorem SameView.trans
    {first second third : TaskAnalyser}
    (before : SameView first second)
    (after : SameView second third) :
    SameView first third :=
  ⟨fun task => (after.accesses task).trans (before.accesses task),
    after.writers.trans before.writers, before.provider.trans after.provider⟩

variable
  {analyser other : TaskAnalyser}
  {task : TaskId}
  {index : Nat}
  {instanceId : DataInstanceId}

theorem SameView.reads_iff
    (same : SameView analyser other) :
    other.Reads task index instanceId ↔
      analyser.Reads task index instanceId := by
  simp only [TaskAnalyser.Reads, same.accesses]

theorem SameView.produces_iff
    (same : SameView analyser other) :
    other.Produces task index instanceId ↔
      analyser.Produces task index instanceId := by
  simp only [TaskAnalyser.Produces, same.accesses]

theorem Sequenced.congr
    {Known OtherKnown : TaskId → Prop}
    {Linked OtherLinked : TaskId → TaskId → Prop}
    (sequenced : Sequenced analyser Known Linked)
    (same : SameView analyser other)
    (knownStill : ∀ task, Known task → OtherKnown task)
    (linkedStill :
      ∀ writer task, Linked writer task → OtherLinked writer task) :
    Sequenced other OtherKnown OtherLinked where
  wellFormed := same.provider.wellFormed sequenced.wellFormed
  known := by
    intro task index access found
    rw [same.accesses] at found
    exact knownStill task (sequenced.known task index access found)
  writerProduces := by
    intro dataId writer isLast
    rw [lastWriter_congr same.writers] at isLast
    simp only [same.produces_iff, same.provider.current]
    exact sequenced.writerProduces dataId writer isLast
  producedOld := by
    intro writer index dataId version produces
    rw [same.produces_iff] at produces
    rw [same.provider.current, lastWriter_congr same.writers]
    exact sequenced.producedOld writer index dataId version produces
  readOld := by
    intro task index dataId version reads
    rw [same.reads_iff] at reads
    rw [same.provider.current]
    exact sequenced.readOld task index dataId version reads
  producedOnce := by
    intro first firstIndex second secondIndex instanceId
    rw [same.produces_iff, same.produces_iff]
    exact sequenced.producedOnce first firstIndex second secondIndex instanceId
  ordered := by
    intro task index instanceId reads writer writerIndex produces
    rw [same.reads_iff] at reads
    rw [same.produces_iff] at produces
    rcases sequenced.ordered task index instanceId reads writer writerIndex
        produces with own | ⟨different, linked⟩
    · exact .inl own
    · exact .inr ⟨different, linkedStill writer task linked⟩

/-!
## One parameter
-/

/-- The links while the parameters of a task are processed. -/
def LinkedWhile
    (Linked : TaskId → TaskId → Prop)
    (analyser : TaskAnalyser)
    (currentTask : TaskId)
    (writer task : TaskId) : Prop :=
  (task ≠ currentTask ∧ Linked writer task) ∨
    (task = currentTask ∧
      writer ∈ (analyser.tasks currentTask).predecessors)

/-- The state in the loop of `processTask`, before the given parameter. -/
structure InProgress
    (submitted : List TaskId)
    (Linked : TaskId → TaskId → Prop)
    (currentTask : TaskId)
    (paramIdx : Nat)
    (analyser : TaskAnalyser) : Prop where
  sequenced :
    Sequenced analyser
      (fun task => task ∈ submitted ∨ task = currentTask)
      (LinkedWhile Linked analyser currentTask)
  bound :
    ∀ index access,
      (analyser.tasks currentTask).accesses index = some access →
        index < paramIdx
  predecessorsKnown :
    ∀ writer, writer ∈ (analyser.tasks currentTask).predecessors →
      writer ∈ submitted
  fresh : currentTask ∉ submitted

variable
  {submitted : List TaskId}
  {Linked : TaskId → TaskId → Prop}
  {currentTask : TaskId}
  {paramIdx : Nat}

theorem InProgress.skip
    (progress : InProgress submitted Linked currentTask paramIdx analyser) :
    InProgress submitted Linked currentTask (paramIdx + 1) analyser :=
  { progress with
    bound := by
      intro index access found
      exact Nat.lt_succ_of_lt (progress.bound index access found) }

variable {access : DataAccessId}

/-- The accesses after a parameter are the old ones and the new one. -/
theorem InProgress.accesses_iff
    {analyser after : TaskAnalyser}
    (progress : InProgress submitted Linked currentTask paramIdx analyser)
    (accesses :
      ∀ other index, (after.tasks other).accesses index =
        if other = currentTask ∧ index = paramIdx then some access
        else (analyser.tasks other).accesses index)
    (select : DataAccessId → Option DataInstanceId) :
    (∃ found, (after.tasks task).accesses index = some found ∧
        select found = some instanceId) ↔
      (∃ found, (analyser.tasks task).accesses index = some found ∧
          select found = some instanceId) ∨
        (task = currentTask ∧ index = paramIdx ∧
          select access = some instanceId) := by
  simp only [accesses]
  by_cases isNew : task = currentTask ∧ index = paramIdx
  · have unset : ∀ other,
        (analyser.tasks currentTask).accesses paramIdx ≠ some other := by
      intro other found
      exact absurd (progress.bound paramIdx other found) (Nat.lt_irrefl _)
    simp [isNew.1, isNew.2, unset]
  · simp only [if_neg isNew]
    constructor
    · exact .inl
    · rintro (before | ⟨isTask, isParam, -⟩)
      · exact before
      · exact absurd ⟨isTask, isParam⟩ isNew

/-- Registering one access and recording its dependencies. -/
theorem InProgress.step
    {paramIdx dataId version : Nat}
    {mode : AccessMode}
    {analyser after : TaskAnalyser}
    {provider : DataInfoProvider}
    (progress : InProgress submitted Linked currentTask paramIdx analyser)
    (registered :
      analyser.DIP.Registered provider mode access dataId version)
    (processed :
      TaskAnalyser.Processed { analyser with DIP := provider } after
        currentTask paramIdx access) :
    InProgress submitted Linked currentTask (paramIdx + 1) after := by
  have sequenced := progress.sequenced
  have reads_iff {task : TaskId} {index : Nat} {i : DataInstanceId} :
      after.Reads task index i ↔ analyser.Reads task index i ∨
        (task = currentTask ∧ index = paramIdx ∧
          access.readInstance? = some i) :=
    progress.accesses_iff processed.accesses readInstance?
  have produces_iff {task : TaskId} {index : Nat} {i : DataInstanceId} :
      after.Produces task index i ↔ analyser.Produces task index i ∨
        (task = currentTask ∧ index = paramIdx ∧
          access.writtenInstance? = some i) :=
    progress.accesses_iff processed.accesses writtenInstance?
  have current (other : Nat) :
      after.DIP.currentVersion other =
        if other = dataId then
          some (if mode = .R then version else version + 1)
        else analyser.DIP.currentVersion other := by
    rw [processed.provider]
    exact registered.current other
  have writer (other : Nat) :
      after.lastWriter other =
        if other = dataId ∧ mode ≠ .R then some currentTask
        else analyser.lastWriter other := by
    rw [processed.writer, registered.accessed, registered.writes]
    by_cases isRead : mode = .R
    · simp only [isRead, ne_eq, not_true_eq_false, and_false, if_true,
        isSome_none, Bool.false_eq_true, if_false]
      rfl
    · simp only [isRead, ne_eq, not_false_eq_true, and_true, if_false,
        isSome_some]
      rfl
  -- A known version of this datum is at most the one now accessed.
  have upTo {known : Nat}
      (isCurrent : analyser.DIP.currentVersion dataId = some known) :
      known = version := by
    rcases registered.before with before | ⟨unknown, _⟩
    · exact some.inj (isCurrent.symm.trans before)
    · rw [unknown] at isCurrent
      exact absurd isCurrent (by simp)
  have kept (other task : TaskId)
      (linked : LinkedWhile Linked analyser currentTask other task) :
      LinkedWhile Linked after currentTask other task := by
    rcases linked with earlier | ⟨isCurrent, member⟩
    · exact .inl earlier
    · exact .inr ⟨isCurrent, processed.kept other member⟩
  have readHere {i : DataInstanceId}
      (isRead : access.readInstance? = some i) :
      i = ⟨dataId, version⟩ := by
    rw [registered.reads] at isRead
    by_cases isWrite : mode = .W
    · simp [isWrite] at isRead
    · simpa [isWrite] using isRead.symm
  have producedHere {i : DataInstanceId}
      (isWritten : access.writtenInstance? = some i) :
      i = ⟨dataId, version + 1⟩ ∧ mode ≠ .R := by
    rw [registered.writes] at isWritten
    by_cases isRead : mode = .R
    · simp [isRead] at isWritten
    · exact ⟨by simpa [isRead] using isWritten.symm, isRead⟩
  -- The new version is later than all versions produced or read before.
  have notProduced {task : TaskId} {index : Nat}
      (produces : analyser.Produces task index ⟨dataId, version + 1⟩) :
      False := by
    obtain ⟨known, isCurrent, bound, _⟩ :=
      sequenced.producedOld task index dataId (version + 1) produces
    have same := upTo isCurrent
    omega
  have notRead {task : TaskId} {index : Nat}
      (reads : analyser.Reads task index ⟨dataId, version + 1⟩) :
      False := by
    obtain ⟨known, isCurrent, bound⟩ :=
      sequenced.readOld task index dataId (version + 1) reads
    have same := upTo isCurrent
    omega
  refine ⟨?_, ?_, ?_, progress.fresh⟩
  · exact {
      wellFormed := by
        rw [processed.provider]
        exact registered.wellFormed
      known := by
        intro task index found isFound
        rw [processed.accesses] at isFound
        by_cases isNew : task = currentTask ∧ index = paramIdx
        · exact .inr isNew.1
        · rw [if_neg isNew] at isFound
          exact sequenced.known task index found isFound
      writerProduces := by
        intro other last isLast
        rw [writer] at isLast
        by_cases isNew : other = dataId ∧ mode ≠ .R
        · rw [if_pos isNew, some.injEq] at isLast
          refine ⟨paramIdx, version + 1, ?_, ?_⟩
          · rw [current, if_pos isNew.1, if_neg isNew.2]
          · rw [produces_iff, registered.writes, if_neg isNew.2, isNew.1]
            exact .inr ⟨isLast.symm, rfl, rfl⟩
        · rw [if_neg isNew] at isLast
          obtain ⟨index, known, isCurrent, produces⟩ :=
            sequenced.writerProduces other last isLast
          refine ⟨index, known, ?_, produces_iff.mpr (.inl produces)⟩
          rw [current]
          by_cases same : other = dataId
          · subst other
            have isRead : mode = .R :=
              Decidable.of_not_not fun notRead => isNew ⟨rfl, notRead⟩
            rw [if_pos rfl, if_pos isRead, upTo isCurrent]
          · rw [if_neg same, isCurrent]
      producedOld := by
        intro task index other known produces
        rcases produces_iff.mp produces with before | ⟨rfl, _, isWritten⟩
        · obtain ⟨bound, isCurrent, inRange, isLast⟩ :=
            sequenced.producedOld task index other known before
          by_cases same : other = dataId
          · subst other
            have sameBound := upTo isCurrent
            by_cases isRead : mode = .R
            · refine ⟨version, ?_, by omega, ?_⟩
              · rw [current, if_pos rfl, if_pos isRead]
              · intro isNewest
                rw [writer, if_neg (by simp [isRead])]
                exact isLast (by omega)
            · refine ⟨version + 1, ?_, by omega, ?_⟩
              · rw [current, if_pos rfl, if_neg isRead]
              · intro isNewest
                omega
          · refine ⟨bound, ?_, inRange, ?_⟩
            · rw [current, if_neg same, isCurrent]
            · intro isNewest
              rw [writer, if_neg (fun isNew => same isNew.1)]
              exact isLast isNewest
        · obtain ⟨isInstance, isWrite⟩ := producedHere isWritten
          rw [DataInstanceId.mk.injEq] at isInstance
          refine ⟨version + 1, ?_, by omega, ?_⟩
          · rw [current, if_pos isInstance.1, if_neg isWrite]
          · intro _
            rw [writer, if_pos ⟨isInstance.1, isWrite⟩]
      readOld := by
        intro task index other known reads
        rcases reads_iff.mp reads with before | ⟨rfl, _, isRead⟩
        · obtain ⟨bound, isCurrent, inRange⟩ :=
            sequenced.readOld task index other known before
          by_cases same : other = dataId
          · subst other
            have sameBound := upTo isCurrent
            refine ⟨_, by rw [current, if_pos rfl], ?_⟩
            split <;> omega
          · exact ⟨bound, by rw [current, if_neg same, isCurrent], inRange⟩
        · have isInstance := readHere isRead
          rw [DataInstanceId.mk.injEq] at isInstance
          refine ⟨_, by rw [current, if_pos isInstance.1], ?_⟩
          split <;> omega
      producedOnce := by
        intro first firstIndex second secondIndex i producesFirst
          producesSecond
        rcases produces_iff.mp producesFirst with
          before | ⟨isFirst, firstParam, isWritten⟩
        · rcases produces_iff.mp producesSecond with
            beforeToo | ⟨_, _, isWritten⟩
          · exact sequenced.producedOnce first firstIndex second secondIndex
              i before beforeToo
          · rw [(producedHere isWritten).1] at before
            exact (notProduced before).elim
        · rcases produces_iff.mp producesSecond with
            before | ⟨isSecond, secondParam, _⟩
          · rw [(producedHere isWritten).1] at before
            exact (notProduced before).elim
          · exact ⟨isFirst.trans isSecond.symm,
              firstParam.trans secondParam.symm⟩
      ordered := by
        intro task index i reads producer producerIndex produces
        rcases reads_iff.mp reads with readBefore | ⟨rfl, rfl, isRead⟩
        · rcases produces_iff.mp produces with
            producedBefore | ⟨_, _, isWritten⟩
          · rcases sequenced.ordered task index i readBefore producer
                producerIndex producedBefore with own | ⟨different, linked⟩
            · exact .inl own
            · exact .inr ⟨different, kept producer task linked⟩
          · rw [(producedHere isWritten).1] at readBefore
            exact (notRead readBefore).elim
        · have isInstance := readHere isRead
          subst i
          rcases produces_iff.mp produces with
            producedBefore | ⟨_, _, isWritten⟩
          · obtain ⟨known, isCurrent, _, isLast⟩ :=
              sequenced.producedOld producer producerIndex dataId version
                producedBefore
            have last := isLast (upTo isCurrent).symm
            by_cases own : producer = task
            · subst producer
              obtain ⟨found, isFound, _⟩ := producedBefore
              exact .inl ⟨rfl, progress.bound producerIndex found isFound⟩
            · refine .inr ⟨own, .inr ⟨rfl, ?_⟩⟩
              apply processed.depends (by simp [isRead]) producer ?_ own
              rw [registered.accessed]
              exact last
          · have isProduced := (producedHere isWritten).1
            rw [DataInstanceId.mk.injEq] at isProduced
            omega }
  · intro index found isFound
    rw [processed.accesses] at isFound
    by_cases isNew : index = paramIdx
    · omega
    · rw [if_neg (fun both => isNew both.2)] at isFound
      exact Nat.lt_succ_of_lt (progress.bound index found isFound)
  · intro other member
    rcases processed.added other member with before | ⟨different, isLast⟩
    · exact progress.predecessorsKnown other before
    · obtain ⟨index, known, _, found, isFound, _⟩ :=
        sequenced.writerProduces _ other isLast
      exact (sequenced.known other index found isFound).resolve_right different

/-- Processing all remaining parameters. -/
theorem InProgress.processParameters
    {analyser : TaskAnalyser}
    (progress : InProgress submitted Linked currentTask paramIdx analyser)
    (parameters : List Parameter) :
    InProgress submitted Linked currentTask (paramIdx + parameters.length)
      (analyser.processParameters currentTask paramIdx parameters).state := by
  induction parameters generalizing paramIdx analyser with
  | nil => exact progress
  | cons parameter rest hypothesis =>
      have length : paramIdx + (parameter :: rest).length =
          paramIdx + 1 + rest.length := by
        rw [List.length_cons]
        omega
      rw [length, processParameters,
        processParameter]
      rcases registerAccess_registered
          progress.sequenced.wellFormed parameter with
        basic | ⟨direction, provider, access, dataId, version, found,
          registered⟩
      · rw [basic]
        exact hypothesis progress.skip
      · rw [found]
        exact hypothesis
          (progress.step registered
            (addDependencies_processed
              { analyser with DIP := provider } currentTask paramIdx
              parameter access))

/-!
## The end of a task
-/

namespace TaskAnalyser

variable {taskId : TaskId}

theorem sameView_setTask
    {task : Task}
    (same : task.accesses = (analyser.tasks taskId).accesses) :
    SameView analyser (analyser.setTask taskId task) :=
  ⟨setTask_accesses same, rfl, .refl _⟩

variable
  (analyser)
  (taskId)

theorem sameView_finishAccesses
    (paramIdx : Nat)
    (parameters : List Parameter) :
    SameView analyser
      (analyser.finishAccesses taskId paramIdx parameters).state := by
  induction parameters generalizing analyser paramIdx with
  | nil => simpa [finishAccesses] using SameView.refl analyser
  | cons parameter rest hypothesis =>
      cases parameter
      case basic => exact hypothesis analyser (paramIdx + 1)
      all_goals
        -- whatever a parameter with an access is, its access is finished first
        simp only [finishAccesses]
        split
        · exact .refl analyser
        · rename_i access _
          apply andThen_preserves
          · rw [state_onState]
            exact ⟨fun _ => rfl, rfl,
              analyser.DIP.sameVersions_dataHasBeenAccessed access⟩
          · intro state value same
            exact same.trans (hypothesis state (paramIdx + 1))

theorem sameView_checkResultFileTransfer :
    SameView analyser (analyser.checkResultFileTransfer taskId) := by
  unfold checkResultFileTransfer
  generalize analyser.resultFiles taskId = dataIds
  induction dataIds generalizing analyser with
  | nil => exact .refl analyser
  | cons dataId rest hypothesis =>
      rw [List.foldl_cons]
      refine SameView.trans ?_ (hypothesis _)
      refine ⟨fun _ => rfl, rfl, ?_⟩
      apply andThen_preserves
      · exact analyser.DIP.sameVersions_blockDataAndGetResultFile dataId
      · intro provider value same
        exact same.trans (provider.sameVersions_unblockDataId dataId)

theorem sameView_releaseDataDependents :
    SameView analyser (analyser.releaseDataDependents taskId) := by
  have released (successors : List TaskId) :
      SameView analyser
        (successors.foldl
          (fun analyser successor =>
            let task := analyser.tasks successor
            analyser.setTask successor
              { task with predecessors := task.predecessors.erase taskId })
          analyser) := by
    induction successors generalizing analyser with
    | nil => exact .refl analyser
    | cons successor rest hypothesis =>
        rw [List.foldl_cons]
        refine SameView.trans ?_ (hypothesis _)
        apply sameView_setTask
        rfl
  refine (released (analyser.tasks taskId).successors).trans ?_
  apply sameView_setTask
  rfl

theorem sameView_releaseApplication
    (appId : AppId) :
    SameView analyser (analyser.releaseApplication appId) := by
  simp only [releaseApplication]
  split
  · exact ⟨fun _ => rfl, rfl, .refl _⟩
  · exact ⟨fun _ => rfl, rfl, .refl _⟩

theorem sameView_releaseWaiting :
    SameView analyser (analyser.releaseWaiting taskId) :=
  ⟨fun _ => rfl, rfl, .refl _⟩

theorem sameView_closeTask :
    SameView analyser (analyser.closeTask taskId).state := by
  unfold closeTask
  apply andThen_preserves
  · exact sameView_finishAccesses analyser taskId 0 _
  · intro state value same
    refine same.trans (SameView.trans ?_ (sameView_releaseDataDependents _ _))
    split
    · exact sameView_checkResultFileTransfer state taskId
    · exact .refl state

/-- The end of a task leaves accesses, writers and versions alone. -/
theorem sameView_endTask :
    SameView analyser (analyser.endTask taskId).state := by
  simp only [endTask]
  split
  · exact .refl analyser
  · split
    · exact ⟨fun _ => rfl, rfl, .refl _⟩
    · split
      · exact .refl analyser
      · refine SameView.trans ?_ (sameView_closeTask _ taskId)
        refine SameView.trans ?_ (sameView_releaseWaiting _ taskId)
        split
        · refine SameView.trans ?_ (sameView_releaseApplication _ _)
          exact ⟨fun _ => rfl, rfl, .refl _⟩
        · exact ⟨fun _ => rfl, rfl, .refl _⟩

end TaskAnalyser

end DistributedRdf.Engine
