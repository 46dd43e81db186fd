import DistributedRdf.AnalyserHistory

namespace DistributedRdf.Engine

open Java Outcome Option List

/-!
# The writers table and the current versions

`registerFileAccess` and `registerObjectAccess` hand out the current version of
a datum for reading and the next one for writing.  The writers table names the
task that produced the current version, so the dependency recorded for a read
is a dependency on the producer of the version that is read.
-/

/-!
## Current versions survive everything but a new access
-/

namespace DataInfo

/-- The datum and its current version are still the same. -/
def SameVersion (info other : DataInfo) : Prop :=
  other.dataId = info.dataId ∧
    other.currentVersionId = info.currentVersionId

variable (info : DataInfo)

theorem SameVersion.refl : info.SameVersion info :=
  ⟨rfl, rfl⟩

theorem SameVersion.trans
    {first second third : DataInfo}
    (before : first.SameVersion second)
    (after : second.SameVersion third) :
    first.SameVersion third :=
  ⟨after.1.trans before.1, after.2.trans before.2⟩

variable (versionId : Nat)

theorem sameVersion_removeData :
    info.SameVersion (info.removeData versionId).state := by
  by_cases removed : versionId ∈ info.removals
  · simp [removeData, removed, SameVersion]
  · simp [removeData, removed, SameVersion]

theorem sameVersion_checkDeletion :
    info.SameVersion (info.checkDeletion versionId).state := by
  simp only [checkDeletion]
  split
  · apply andThen_preserves
    · exact sameVersion_removeData info versionId
    · intro state value same
      exact same
  · exact .refl info

theorem sameVersion_dropIf
    {info state : DataInfo}
    (same : info.SameVersion state)
    (versionId : Nat)
    (deleted : Bool) :
    info.SameVersion (dropIf versionId state deleted).state := by
  cases deleted with
  | true => exact same
  | false => exact same

theorem sameVersion_versionHasBeenRead :
    info.SameVersion (info.versionHasBeenRead versionId).state := by
  unfold versionHasBeenRead
  split
  · apply andThen_preserves
    · exact sameVersion_checkDeletion _ versionId
    · intro state deleted same
      exact sameVersion_dropIf same versionId deleted
  · exact .refl info

theorem sameVersion_versionHasBeenWritten :
    info.SameVersion (info.versionHasBeenWritten versionId).state := by
  unfold versionHasBeenWritten
  split
  · apply andThen_preserves
    · exact sameVersion_checkDeletion _ versionId
    · intro state deleted same
      exact sameVersion_dropIf same versionId deleted
  · exact .refl info

theorem sameVersion_hasBeenAccessed
    (access : DataAccessId) :
    info.SameVersion (info.hasBeenAccessed access).state := by
  cases access with
  | read readInstance => exact sameVersion_versionHasBeenRead info _
  | write writtenInstance => exact sameVersion_versionHasBeenWritten info _
  | readWrite readInstance writtenInstance preserve =>
      apply andThen_preserves
      · exact sameVersion_versionHasBeenRead info _
      · intro state value same
        exact same.trans (sameVersion_versionHasBeenWritten state _)

theorem sameVersion_deleteVersion :
    info.SameVersion (info.deleteVersion versionId).state := by
  simp only [deleteVersion]
  split
  · apply andThen_preserves
    · exact sameVersion_removeData _ versionId
    · intro state value same
      exact same
  · exact ⟨rfl, rfl⟩

variable (versionIds : List Nat)

theorem sameVersion_deletePending :
    info.SameVersion (info.deletePending versionIds).state := by
  induction versionIds generalizing info with
  | nil => exact .refl info
  | cons versionId rest hypothesis =>
      apply andThen_preserves
      · exact sameVersion_deleteVersion info versionId
      · intro state deleted same
        cases deleted with
        | true => exact same.trans (hypothesis (state.dropVersion versionId))
        | false => exact same.trans (hypothesis state)

theorem sameVersion_unblockDeletions :
    info.SameVersion info.unblockDeletions.state := by
  simp only [unblockDeletions]
  split
  · apply andThen_preserves
    · exact sameVersion_deletePending _ _
    · intro state value same
      exact same
  · exact ⟨rfl, rfl⟩

theorem sameVersion_deleteEach
    (removedVersions versionIds : List Nat) :
    info.SameVersion (info.deleteEach removedVersions versionIds).state := by
  induction versionIds generalizing info removedVersions with
  | nil => exact .refl info
  | cons versionId rest hypothesis =>
      apply andThen_preserves
      · exact sameVersion_deleteVersion info versionId
      · intro state deleted same
        exact same.trans (hypothesis state _)

theorem sameVersion_foldl_dropVersion :
    info.SameVersion (versionIds.foldl dropVersion info) := by
  induction versionIds generalizing info with
  | nil => exact .refl info
  | cons versionId rest hypothesis =>
      exact hypothesis (info.dropVersion versionId)

theorem sameVersion_delete :
    info.SameVersion info.delete.state := by
  unfold delete
  split
  · exact ⟨rfl, rfl⟩
  · apply andThen_preserves
    · exact sameVersion_deleteEach info _ _
    · intro state removed same
      exact same.trans (sameVersion_foldl_dropVersion state removed)

end DataInfo

namespace DataInfoProvider

def currentVersion (provider : DataInfoProvider) (dataId : Nat) : Option Nat :=
  (provider.idToData.lookup dataId).map fun datum => datum.info.currentVersionId

/-- Registered names and codes lead to data that know their identifier. -/
structure WellFormed (provider : DataInfoProvider) : Prop where
  named :
    ∀ name dataId, provider.nameToId.lookup name = some dataId →
      (provider.idToData.lookup dataId).isSome
  coded :
    ∀ code dataId, provider.codeToId.lookup code = some dataId →
      (provider.idToData.lookup dataId).isSome
  identified :
    ∀ dataId datum, provider.idToData.lookup dataId = some datum →
      datum.info.dataId = dataId ∧ dataId < provider.nextDataId

theorem wellFormed_new : new.WellFormed where
  named := by simp [new]
  coded := by simp [new]
  identified := by simp [new]

/-- Nothing that a later access could notice has changed. -/
structure SameVersions (provider other : DataInfoProvider) : Prop where
  current : other.currentVersion = provider.currentVersion
  wellFormed : provider.WellFormed → other.WellFormed

theorem SameVersions.refl (provider : DataInfoProvider) :
    provider.SameVersions provider :=
  ⟨rfl, id⟩

theorem SameVersions.trans
    {first second third : DataInfoProvider}
    (before : first.SameVersions second)
    (after : second.SameVersions third) :
    first.SameVersions third :=
  ⟨after.current.trans before.current,
    fun wellFormed => after.wellFormed (before.wellFormed wellFormed)⟩

variable
  {provider : DataInfoProvider}
  {dataId : Nat}
  {datum : Datum}
  {info : DataInfo}

/-- Storing new information about a registered datum. -/
theorem WellFormed.setInfo
    (wellFormed : provider.WellFormed)
    (found : provider.idToData.lookup dataId = some datum)
    (sameId : info.dataId = datum.info.dataId) :
    (provider.setInfo dataId datum info).WellFormed := by
  have identified := wellFormed.identified dataId datum found
  have stillFound :
      ∀ other, (provider.idToData.lookup other).isSome →
        ((provider.setInfo dataId datum info).idToData.lookup
          other).isSome := by
    intro other isFound
    by_cases same : other = dataId
    · subst other
      simp [DataInfoProvider.setInfo]
    · simpa [DataInfoProvider.setInfo, AList.lookup_insert_ne same]
        using isFound
  refine ⟨?_, ?_, ?_⟩
  · intro name other isNamed
    exact stillFound other (wellFormed.named name other isNamed)
  · intro code other isCoded
    exact stillFound other (wellFormed.coded code other isCoded)
  · intro other otherDatum isFound
    by_cases same : other = dataId
    · subst other
      simp only [DataInfoProvider.setInfo, AList.lookup_insert,
        some.injEq] at isFound
      subst otherDatum
      exact ⟨sameId.trans identified.1, identified.2⟩
    · rw [DataInfoProvider.setInfo, AList.lookup_insert_ne same] at isFound
      exact wellFormed.identified other otherDatum isFound

theorem currentVersion_setInfo
    (provider : DataInfoProvider)
    (dataId : Nat)
    (datum : Datum)
    (info : DataInfo)
    (other : Nat) :
    (provider.setInfo dataId datum info).currentVersion other =
      if other = dataId then some info.currentVersionId
      else provider.currentVersion other := by
  by_cases same : other = dataId
  · subst other
    simp [currentVersion, setInfo]
  · simp [currentVersion, setInfo, same, AList.lookup_insert_ne same]

theorem sameVersions_setInfo
    (found : provider.idToData.lookup dataId = some datum)
    (same : datum.info.SameVersion info) :
    provider.SameVersions (provider.setInfo dataId datum info) := by
  refine ⟨?_, fun wellFormed => wellFormed.setInfo found same.1⟩
  funext other
  rw [currentVersion_setInfo]
  by_cases isDatum : other = dataId
  · subst other
    simp [currentVersion, found, same.2]
  · simp [isDatum]

variable (provider)

theorem sameVersions_dataHasBeenAccessed
    (access : DataAccessId) :
    provider.SameVersions (provider.dataHasBeenAccessed access).state := by
  unfold dataHasBeenAccessed
  split
  · rename_i datum found
    apply andThen_preserves
    · rw [state_onState]
      exact sameVersions_setInfo found
        (datum.info.sameVersion_hasBeenAccessed access)
    · intro state value same
      exact same
  · exact .refl provider

theorem sameVersions_unblockDataId
    (dataId : Nat) :
    provider.SameVersions (provider.unblockDataId dataId).state := by
  unfold unblockDataId
  split
  · rename_i datum found
    apply andThen_preserves
    · rw [state_onState]
      exact sameVersions_setInfo found datum.info.sameVersion_unblockDeletions
    · intro state value same
      exact same
  · exact .refl provider

theorem sameVersions_blockDataAndGetResultFile
    (dataId : Nat) :
    provider.SameVersions
      (provider.blockDataAndGetResultFile dataId).state := by
  unfold blockDataAndGetResultFile
  split
  · rename_i datum found
    split
    · apply andThen_preserves
      · rw [state_onState]
        exact sameVersions_setInfo found datum.info.sameVersion_delete
      · intro state value same
        exact same
    · split
      · exact .refl provider
      · exact sameVersions_setInfo found ⟨rfl, rfl⟩
  · exact .refl provider

/-!
## Registering an access
-/

variable {provider}

/--
What registering an access does: it reads the current version of the datum and
writes the next one.  A new datum starts with version 1.
-/
structure Registered
    (provider after : DataInfoProvider)
    (mode : AccessMode)
    (access : DataAccessId)
    (dataId version : Nat) : Prop where
  wellFormed : after.WellFormed
  before :
    provider.currentVersion dataId = some version ∨
      (provider.currentVersion dataId = none ∧ version = 1)
  accessed : access.dataId = dataId
  reads :
    access.readInstance? =
      if mode = .W then none else some ⟨dataId, version⟩
  writes :
    access.writtenInstance? =
      if mode = .R then none else some ⟨dataId, version + 1⟩
  current :
    ∀ other, after.currentVersion other =
      if other = dataId then some (if mode = .R then version else version + 1)
      else provider.currentVersion other

theorem willAccess_registered
    (wellFormed : provider.WellFormed)
    (found : provider.idToData.lookup dataId = some datum)
    (mode : AccessMode) :
    ∃ after access,
      provider.willAccess mode dataId = .returned after access ∧
        provider.Registered after mode access dataId
          datum.info.currentVersionId := by
  have identified := (wellFormed.identified dataId datum found).1
  refine ⟨_, _, by rw [willAccess, found], ?_⟩
  have sameId : (datum.info.willAccess mode).1.dataId = datum.info.dataId := by
    cases mode <;> rfl
  have newVersion :
      (datum.info.willAccess mode).1.currentVersionId =
        if mode = .R then datum.info.currentVersionId
        else datum.info.currentVersionId + 1 := by
    cases mode <;> rfl
  refine ⟨wellFormed.setInfo found sameId, ?_, ?_, ?_, ?_, ?_⟩
  · simp [currentVersion, found]
  · rw [← identified]
    cases mode <;> rfl
  · rw [← identified]
    cases mode <;> rfl
  · rw [← identified]
    cases mode <;> rfl
  · intro other
    rw [currentVersion_setInfo, newVersion]

/-- A datum that is added has version 1 and was not known before. -/
theorem addData_spec
    (wellFormed : provider.WellFormed)
    (originalLocation : Option DataLocation) :
    (provider.addData originalLocation).WellFormed ∧
      provider.currentVersion provider.nextDataId = none ∧
      ∀ other,
        (provider.addData originalLocation).currentVersion other =
          if other = provider.nextDataId then some 1
          else provider.currentVersion other := by
  have unknown : provider.idToData.lookup provider.nextDataId = none := by
    rw [eq_none_iff_forall_ne_some]
    intro datum found
    have bound := (wellFormed.identified _ datum found).2
    omega
  have stillFound :
      ∀ other, (provider.idToData.lookup other).isSome →
        ((provider.addData originalLocation).idToData.lookup
          other).isSome := by
    intro other isFound
    by_cases same : other = provider.nextDataId
    · subst other
      simp [addData]
    · simpa [addData, AList.lookup_insert_ne same] using isFound
  refine ⟨⟨?_, ?_, ?_⟩, by simp [currentVersion, unknown], ?_⟩
  · intro name other isNamed
    exact stillFound other (wellFormed.named name other isNamed)
  · intro code other isCoded
    exact stillFound other (wellFormed.coded code other isCoded)
  · intro other datum isFound
    by_cases same : other = provider.nextDataId
    · subst other
      simp only [addData, AList.lookup_insert, some.injEq] at isFound
      subst datum
      exact ⟨rfl, Nat.lt_succ_self _⟩
    · rw [addData, AList.lookup_insert_ne same] at isFound
      have identified := wellFormed.identified other datum isFound
      exact ⟨identified.1, Nat.lt_succ_of_lt identified.2⟩
  · intro other
    by_cases same : other = provider.nextDataId
    · subst other
      simp [currentVersion, addData, DataInfo.new]
    · simp [currentVersion, addData, same, AList.lookup_insert_ne same]

/-- Accessing a datum that has just been added. -/
theorem willAccess_added
    {provider extended : DataInfoProvider}
    {originalLocation : Option DataLocation}
    (wellFormed : provider.WellFormed)
    (extendedWellFormed : extended.WellFormed)
    (sameData :
      extended.idToData = (provider.addData originalLocation).idToData)
    (mode : AccessMode) :
    ∃ after access,
      extended.willAccess mode provider.nextDataId = .returned after access ∧
        provider.Registered after mode access provider.nextDataId 1 := by
  have added := addData_spec wellFormed originalLocation
  have sameCurrent :
      extended.currentVersion =
        (provider.addData originalLocation).currentVersion := by
    funext other
    simp [currentVersion, sameData]
  have found :
      extended.idToData.lookup provider.nextDataId =
        some ⟨.new provider.nextDataId, originalLocation⟩ := by
    simp [sameData, addData]
  obtain ⟨after, access, accessed, registered⟩ :=
    willAccess_registered extendedWellFormed found mode
  refine ⟨after, access, accessed, { registered with
    before := .inr ⟨added.2.1, rfl⟩
    current := ?_ }⟩
  intro other
  rw [registered.current, sameCurrent, added.2.2]
  by_cases same : other = provider.nextDataId
  · simp [same, DataInfo.new]
  · simp [same]

variable (wellFormed : provider.WellFormed)

include wellFormed

/-- A new name leads to the datum that was added for it. -/
theorem WellFormed.addName
    (location : DataLocation) :
    { provider.addData (some location) with
      nameToId := provider.nameToId.insert location.locationKey
        provider.nextDataId
    }.WellFormed := by
  have added := (addData_spec wellFormed (some location)).1
  refine ⟨?_, added.coded, added.identified⟩
  intro name dataId isNamed
  by_cases same : name = location.locationKey
  · subst name
    simp only [AList.lookup_insert, some.injEq] at isNamed
    subst dataId
    simp [addData]
  · rw [AList.lookup_insert_ne same] at isNamed
    exact added.named name dataId isNamed

variable (mode : AccessMode)

theorem registerFileAccess_registered
    (location : DataLocation) :
    ∃ after access dataId version,
      provider.registerFileAccess mode location = .returned after access ∧
        provider.Registered after mode access dataId version := by
  cases known : provider.nameToId.lookup location.locationKey with
  | some fileId =>
      obtain ⟨datum, found⟩ :=
        isSome_iff_exists.mp (wellFormed.named _ fileId known)
      obtain ⟨after, access, accessed, registered⟩ :=
        willAccess_registered wellFormed found mode
      exact ⟨after, access, _, _,
        by rw [registerFileAccess, known]; exact accessed, registered⟩
  | none =>
      obtain ⟨after, access, accessed, registered⟩ :=
        willAccess_added wellFormed (wellFormed.addName location) rfl mode
      exact ⟨after, access, _, _,
        by rw [registerFileAccess, known]; exact accessed, registered⟩

variable (code : Int)

/-- A new code leads to the datum that was added for it. -/
theorem WellFormed.addCode :
    { provider.addData none with
      codeToId := provider.codeToId.insert code provider.nextDataId
    }.WellFormed := by
  have added := (addData_spec wellFormed none).1
  refine ⟨added.named, ?_, added.identified⟩
  intro other dataId isCoded
  by_cases same : other = code
  · subst other
    simp only [AList.lookup_insert, some.injEq] at isCoded
    subst dataId
    simp [addData]
  · rw [AList.lookup_insert_ne same] at isCoded
    exact added.coded other dataId isCoded

theorem registerObjectAccess_registered :
    ∃ after access dataId version,
      provider.registerObjectAccess mode code = .returned after access ∧
        provider.Registered after mode access dataId version := by
  cases known : provider.codeToId.lookup code with
  | some aoId =>
      obtain ⟨datum, found⟩ :=
        isSome_iff_exists.mp (wellFormed.coded _ aoId known)
      obtain ⟨after, access, accessed, registered⟩ :=
        willAccess_registered wellFormed found mode
      exact ⟨after, access, _, _,
        by rw [registerObjectAccess, known]; exact accessed, registered⟩
  | none =>
      obtain ⟨after, access, accessed, registered⟩ :=
        willAccess_added wellFormed (wellFormed.addCode code) rfl mode
      exact ⟨after, access, _, _,
        by rw [registerObjectAccess, known]; exact accessed, registered⟩

end DataInfoProvider

namespace TaskAnalyser

variable {analyser : TaskAnalyser}

/-- Registering the access of a parameter always succeeds. -/
theorem registerAccess_registered
    (wellFormed : analyser.DIP.WellFormed)
    (parameter : Parameter) :
    analyser.registerAccess parameter = none ∨
      ∃ direction after access dataId version,
        analyser.registerAccess parameter =
            some (direction, .returned after access) ∧
          analyser.DIP.Registered after (accessMode direction) access
            dataId version := by
  have ofObject (direction : DataDirection) (code : Int) :
      ∃ after access dataId version,
        analyser.DIP.registerObjectAccess (accessMode direction) code =
            .returned after access ∧
          analyser.DIP.Registered after (accessMode direction) access
            dataId version :=
    DataInfoProvider.registerObjectAccess_registered wellFormed _ code
  cases parameter with
  | file direction location =>
      obtain ⟨after, access, dataId, version, accessed, registered⟩ :=
        DataInfoProvider.registerFileAccess_registered wellFormed
          (accessMode direction) location
      exact .inr ⟨direction, after, access, dataId, version,
        by rw [registerAccess, accessed], registered⟩
  | object direction code _ | psco direction code =>
      obtain ⟨after, access, dataId, version, accessed, registered⟩ :=
        ofObject direction code
      exact .inr ⟨direction, after, access, dataId, version,
        by rw [registerAccess, accessed], registered⟩
  | externalPsco direction code =>
      obtain ⟨after, access, dataId, version, accessed, registered⟩ :=
        ofObject direction code
      exact .inr ⟨direction, after, access, dataId, version,
        by rw [registerAccess, accessed], registered⟩
  | basic => exact .inl rfl

/-!
## Dependencies of one parameter
-/

@[simp] theorem setTask_tasks_self
    (analyser : TaskAnalyser)
    (taskId : TaskId)
    (task : Task) :
    (analyser.setTask taskId task).tasks taskId = task := by
  simp [setTask]

@[simp] theorem setTask_tasks_of_ne
    {taskId other : TaskId}
    (different : other ≠ taskId)
    (task : Task) :
    (analyser.setTask taskId task).tasks other = analyser.tasks other := by
  simp [setTask, different]

/-- A task object that keeps its accesses keeps everybody's accesses. -/
theorem setTask_accesses
    {taskId : TaskId}
    {task : Task}
    (same : task.accesses = (analyser.tasks taskId).accesses)
    (other : TaskId) :
    ((analyser.setTask taskId task).tasks other).accesses =
      (analyser.tasks other).accesses := by
  by_cases isTask : other = taskId
  · rw [isTask, setTask_tasks_self, same]
  · rw [setTask_tasks_of_ne isTask]

/-- What processing one parameter does to the analyser. -/
structure Processed
    (analyser after : TaskAnalyser)
    (currentTask : TaskId)
    (paramIdx : Nat)
    (access : DataAccessId) : Prop where
  provider : after.DIP = analyser.DIP
  accesses :
    ∀ other index, (after.tasks other).accesses index =
      if other = currentTask ∧ index = paramIdx then some access
      else (analyser.tasks other).accesses index
  writer :
    ∀ dataId, after.lastWriter dataId =
      if dataId = access.dataId ∧ access.writtenInstance?.isSome then
        some currentTask
      else analyser.lastWriter dataId
  depends :
    access.readInstance?.isSome →
      ∀ writer, analyser.lastWriter access.dataId = some writer →
        writer ≠ currentTask →
          writer ∈ (after.tasks currentTask).predecessors
  kept :
    ∀ writer, writer ∈ (analyser.tasks currentTask).predecessors →
      writer ∈ (after.tasks currentTask).predecessors
  added :
    ∀ writer, writer ∈ (after.tasks currentTask).predecessors →
      writer ∈ (analyser.tasks currentTask).predecessors ∨
        (writer ≠ currentTask ∧
          analyser.lastWriter access.dataId = some writer)

variable
  (analyser)
  (currentTask : TaskId)
  (paramIdx : Nat)
  (access : DataAccessId)

theorem setDataAccessId_accesses
    (other : TaskId)
    (index : Nat) :
    ((analyser.setDataAccessId currentTask paramIdx access).tasks
        other).accesses index =
      if other = currentTask ∧ index = paramIdx then some access
      else (analyser.tasks other).accesses index := by
  by_cases isTask : other = currentTask
  · subst other
    by_cases isParam : index = paramIdx
    · simp [setDataAccessId, isParam]
    · simp [setDataAccessId, isParam]
  · simp [setDataAccessId, isTask]

theorem setDataAccessId_predecessors :
    ((analyser.setDataAccessId currentTask paramIdx access).tasks
        currentTask).predecessors =
      (analyser.tasks currentTask).predecessors := by
  simp [setDataAccessId]

/-- The last writer, unless the task itself is the last writer. -/
def dependency
    (dataId : Nat) : List TaskId :=
  match analyser.lastWriter dataId with
  | some writer => if writer ≠ currentTask then [writer] else []
  | none => []

variable
  {dataId : Nat}
  {analyser}

theorem mem_dependency
    {currentTask writer : TaskId} :
    writer ∈ analyser.dependency currentTask dataId ↔
      writer ≠ currentTask ∧ analyser.lastWriter dataId = some writer := by
  unfold dependency
  cases found : analyser.lastWriter dataId with
  | none => simp
  | some last =>
      by_cases same : last = currentTask
      · simp only [same, ne_eq, not_true_eq_false, if_false,
          not_mem_nil, some.injEq, false_iff, not_and]
        intro different isLast
        exact different isLast.symm
      · simp only [ne_eq, same, not_false_eq_true, if_true,
          mem_singleton, some.injEq]
        constructor
        · intro isLast
          exact ⟨isLast ▸ same, isLast.symm⟩
        · intro isLast
          exact isLast.2.symm

theorem checkDependencyForRead_spec
    (analyser : TaskAnalyser)
    (currentTask : TaskId)
    (dataId : Nat) :
    let after := analyser.checkDependencyForRead currentTask dataId
    after.DIP = analyser.DIP ∧ after.writers = analyser.writers ∧
      (∀ other, (after.tasks other).accesses =
        (analyser.tasks other).accesses) ∧
      (after.tasks currentTask).predecessors =
        (analyser.tasks currentTask).predecessors ++
          analyser.dependency currentTask dataId := by
  cases found : analyser.lastWriter dataId with
  | none => simp [checkDependencyForRead, dependency, found]
  | some writer =>
      by_cases same : writer = currentTask
      · simp [checkDependencyForRead, dependency, found, same]
      · have different : currentTask ≠ writer := fun eq => same eq.symm
        simp only [checkDependencyForRead, dependency, found, ne_eq, same,
          not_false_eq_true, if_true, addDataDependency]
        refine ⟨rfl, rfl, ?_, ?_⟩
        · intro other
          refine Eq.trans (setTask_accesses ?_ other)
            (setTask_accesses ?_ other)
          · rfl
          · rfl
        · rw [setTask_tasks_self, setTask_tasks_of_ne different]

theorem setEnforcingTask_spec
    (analyser : TaskAnalyser)
    (currentTask : TaskId)
    (paramIdx : Nat)
    (readInstance : DataInstanceId) :
    let after := analyser.setEnforcingTask currentTask paramIdx readInstance
    after.DIP = analyser.DIP ∧ after.writers = analyser.writers ∧
      (∀ other, (after.tasks other).accesses =
        (analyser.tasks other).accesses) ∧
      (after.tasks currentTask).predecessors =
        (analyser.tasks currentTask).predecessors := by
  simp only [setEnforcingTask]
  split
  · refine ⟨rfl, rfl, ?_, ?_⟩
    · intro other
      refine setTask_accesses ?_ other
      rfl
    · rw [setTask_tasks_self]
  · exact ⟨rfl, rfl, fun _ => rfl, rfl⟩

theorem registerOutputValues_spec
    (analyser : TaskAnalyser)
    (currentTask : TaskId)
    (parameter : Parameter)
    (dataId : Nat) :
    let after := analyser.registerOutputValues currentTask parameter dataId
    after.DIP = analyser.DIP ∧ after.tasks = analyser.tasks ∧
      after.writers = analyser.writers.insert dataId (some currentTask) := by
  simp only [registerOutputValues]
  split <;> exact ⟨rfl, rfl, rfl⟩

theorem lastWriter_congr
    {analyser after : TaskAnalyser}
    (same : after.writers = analyser.writers) :
    after.lastWriter = analyser.lastWriter := by
  funext dataId
  simp [lastWriter, same]

theorem lastWriter_insert
    {analyser after : TaskAnalyser}
    {entry : Option TaskId}
    (inserted : after.writers = analyser.writers.insert dataId entry)
    (other : Nat) :
    after.lastWriter other =
      if other = dataId then entry else analyser.lastWriter other := by
  by_cases same : other = dataId
  · subst other
    simp [lastWriter, inserted]
  · simp [lastWriter, inserted, same, AList.lookup_insert_ne same]

variable (analyser)

theorem addDependencies_processed
    (parameter : Parameter)
    (access : DataAccessId) :
    Processed analyser
      (analyser.addDependencies currentTask paramIdx parameter access)
      currentTask paramIdx access := by
  let stored := analyser.setDataAccessId currentTask paramIdx access
  have storedAccesses :=
    setDataAccessId_accesses analyser currentTask paramIdx access
  have storedPredecessors :=
    setDataAccessId_predecessors analyser currentTask paramIdx access
  have sameWriter : stored.lastWriter = analyser.lastWriter := rfl
  have checked :=
    checkDependencyForRead_spec stored currentTask access.dataId
  let linked := stored.checkDependencyForRead currentTask access.dataId
  cases access with
  | read readInstance =>
      have enforced :=
        setEnforcingTask_spec linked currentTask paramIdx readInstance
      refine ⟨enforced.1.trans checked.1, ?_, ?_, ?_, ?_, ?_⟩
      · intro other index
        rw [← storedAccesses]
        exact congrFun
          ((enforced.2.2.1 other).trans (checked.2.2.1 other)) index
      · intro dataId
        have writers := enforced.2.1.trans checked.2.1
        have before :
            (linked.setEnforcingTask currentTask paramIdx
              readInstance).lastWriter = analyser.lastWriter :=
          lastWriter_congr writers
        simp only [DataAccessId.writtenInstance?, isSome_none,
          and_false, Bool.false_eq_true, if_false]
        exact congrFun before dataId
      · intro _ writer isLast different
        change writer ∈ ((linked.setEnforcingTask _ _ _).tasks _).predecessors
        rw [enforced.2.2.2, checked.2.2.2, mem_append]
        exact .inr (mem_dependency.mpr ⟨different, isLast⟩)
      · intro writer member
        change writer ∈ ((linked.setEnforcingTask _ _ _).tasks _).predecessors
        rw [enforced.2.2.2, checked.2.2.2, mem_append]
        exact .inl (storedPredecessors ▸ member)
      · intro writer member
        change writer ∈ ((linked.setEnforcingTask _ _ _).tasks _).predecessors
          at member
        rw [enforced.2.2.2, checked.2.2.2, mem_append] at member
        rcases member with before | depends
        · exact .inl (storedPredecessors ▸ before)
        · exact .inr (mem_dependency.mp depends)
  | write writtenInstance =>
      have output :=
        registerOutputValues_spec stored currentTask parameter
          writtenInstance.dataId
      change Processed analyser
        (stored.registerOutputValues currentTask parameter
          writtenInstance.dataId) _ _ _
      refine ⟨output.1, ?_, ?_, ?_, ?_, ?_⟩
      · intro other index
        rw [← storedAccesses]
        exact congrFun
          (congrArg Task.accesses (congrFun output.2.1 other)) index
      · intro dataId
        rw [← sameWriter]
        simpa [DataAccessId.writtenInstance?, DataAccessId.dataId]
          using lastWriter_insert output.2.2 dataId
      · intro isRead
        exact absurd isRead (by simp [DataAccessId.readInstance?])
      · intro writer member
        rw [output.2.1]
        exact storedPredecessors ▸ member
      · intro writer member
        rw [output.2.1] at member
        exact .inl (storedPredecessors ▸ member)
  | readWrite readInstance writtenInstance preserve =>
      have enforced :=
        setEnforcingTask_spec linked currentTask paramIdx readInstance
      have output :=
        registerOutputValues_spec
          (linked.setEnforcingTask currentTask paramIdx readInstance)
          currentTask parameter readInstance.dataId
      have predecessors :
          ((analyser.addDependencies currentTask paramIdx parameter
            (.readWrite readInstance writtenInstance preserve)).tasks
              currentTask).predecessors =
            (analyser.tasks currentTask).predecessors ++
              analyser.dependency currentTask readInstance.dataId := by
        change (((linked.setEnforcingTask currentTask paramIdx
          readInstance).registerOutputValues currentTask parameter
            readInstance.dataId).tasks currentTask).predecessors = _
        rw [output.2.1, enforced.2.2.2, checked.2.2.2]
        exact congrArg (· ++ _) storedPredecessors
      refine ⟨output.1.trans (enforced.1.trans checked.1), ?_, ?_, ?_, ?_, ?_⟩
      · intro other index
        rw [← storedAccesses]
        exact congrFun
          ((congrArg Task.accesses (congrFun output.2.1 other)).trans
            ((enforced.2.2.1 other).trans (checked.2.2.1 other))) index
      · intro dataId
        have writers := enforced.2.1.trans checked.2.1
        have before :
            (linked.setEnforcingTask currentTask paramIdx
              readInstance).lastWriter = analyser.lastWriter :=
          lastWriter_congr writers
        rw [← before]
        change ((linked.setEnforcingTask currentTask paramIdx
          readInstance).registerOutputValues currentTask parameter
            readInstance.dataId).lastWriter dataId = _
        simpa [DataAccessId.writtenInstance?, DataAccessId.dataId]
          using lastWriter_insert output.2.2 dataId
      · intro _ writer isLast different
        rw [predecessors, mem_append]
        exact .inr (mem_dependency.mpr ⟨different, isLast⟩)
      · intro writer member
        rw [predecessors, mem_append]
        exact .inl member
      · intro writer member
        rw [predecessors, mem_append] at member
        rcases member with before | depends
        · exact .inl before
        · exact .inr (mem_dependency.mp depends)

end TaskAnalyser

end DistributedRdf.Engine
