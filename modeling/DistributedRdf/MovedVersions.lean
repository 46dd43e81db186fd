import DistributedRdf.ReceivedTasks
import DistributedRdf.VersionLifetime

namespace DistributedRdf.Engine

open Java Execution Nio Outcome List TransferringTask NIOWorker DataAccessId
open History

/-!
# Versions that are moved

The access of an update decides, when it is registered, whether the worker may
move the version that is read.  The executions of the task come later: retries,
executions on other workers and replicas check the parameter again.
-/

/-- Where the worker of an execution looks for a parameter -/
structure ParameterCheck where
  worker : NIOWorker
  answers : CheckAnswers
  store : List Stored
  type : NIOParamType
  value : String
  data : Option Data

namespace DataAccessId

def preserveSourceData : DataAccessId → Bool
  | .read _ => true
  | .readWrite _ _ preserveSourceData => preserveSourceData
  | .write _ => false

variable
  (access : DataAccessId)
  (check : ParameterCheck)

/-- What `NIOJob.addParams` makes of the access; a write has no source. -/
def addParams : NIOParam where
  type := check.type
  preserveSourceData := access.preserveSourceData
  value := check.value
  data := if access.readInstance?.isSome then check.data else none

/-- The worker takes the data away from the name that they had. -/
def moves : Bool :=
  ((new check.store []).check check.worker check.answers
    (access.addParams check)).removed ≠ []

end DataAccessId

/-- An access that an execution has checked, and whether the source was moved -/
structure Executed where
  access : DataAccessId
  moves : Bool
  deriving DecidableEq

/-- A datum, and the executions of the tasks that access it -/
structure DatumRun where
  history : History
  executed : List Executed

namespace DatumRun

inductive Step where
  | datum (action : DatumAction)
  | execute (access : DataAccessId) (check : ParameterCheck)

variable (run : DatumRun)

/-- Executions belong to tasks whose accesses have not finished. -/
def Enabled : Step → Prop
  | .datum action => run.history.Enabled action
  | .execute access _ => access ∈ run.history.pending

def next : Step → DatumRun
  | .datum action => { run with history := run.history.next action }
  | .execute access check =>
      { run with executed := run.executed ++ [⟨access, access.moves check⟩] }

def system (dataId : Nat) : TransitionSystem DatumRun Step where
  start := ⟨.start dataId, []⟩
  Enabled := Enabled
  next := next

instance : (step : Step) → Decidable (run.Enabled step)
  | .datum (.finish _) => inferInstanceAs (Decidable (_ ∈ _))
  | .datum .unblock => inferInstanceAs (Decidable (_ < _))
  | .datum (.access _) | .datum .delete | .datum .block => isTrue trivial
  | .execute _ _ => inferInstanceAs (Decidable (_ ∈ _))

instance (dataId : Nat) (step : Step) :
    Decidable ((system dataId).Enabled run step) :=
  inferInstanceAs (Decidable (run.Enabled step))

/-- Nobody reads a version after it has been moved. -/
def MovesLast : Prop :=
  run.executed.Pairwise fun earlier later =>
    earlier.moves = true → ∀ version, earlier.access.reads version = true →
      later.access.reads version = false

/-- No task is executed again after an execution has moved what it reads. -/
def ExecutesOnce : Step → Prop
  | .datum _ => True
  | .execute access _ =>
      ∀ earlier ∈ run.executed, earlier.moves = true → earlier.access ≠ access

instance : (step : Step) → Decidable (run.ExecutesOnce step)
  | .datum _ => isTrue trivial
  | .execute _ _ => inferInstanceAs (Decidable (∀ _ ∈ _, _))

end DatumRun

/-!
## Who moves
-/

theorem removed_check_of_preserveSourceData
    {param : NIOParam}
    (preserves : param.preserveSourceData = true)
    (store : List Stored)
    (worker : NIOWorker)
    (answers : CheckAnswers) :
    ((new store []).check worker answers param).removed =
      [] := by
  have inHost (data : Data) :
      (worker.askForObjectInHost answers param data).removed = [] := by
    unfold askForObjectInHost
    split
    · rfl
    · simp only [preserves, if_true]
      split <;> rfl
  unfold check
  split
  · unfold askForObject
    split
    · rfl
    · split
      · exact inHost _
      · split
        · rfl
        · exact inHost _
  · unfold askForFile
    split
    · rfl
    · split
      · rfl
      · split <;> rfl
  · rfl
  · rfl

variable {access : DataAccessId}

/-- Only an update that need not preserve its source moves it. -/
theorem DataAccessId.eq_readWrite_of_moves
    {check : ParameterCheck}
    (moves : access.moves check = true) :
    ∃ readInstance writtenInstance,
      access = .readWrite readInstance writtenInstance false := by
  have isRemoved := of_decide_eq_true moves
  cases access with
  | read readInstance =>
      exact absurd (removed_check_of_preserveSourceData rfl ..) isRemoved
  | write writtenInstance => exact absurd rfl isRemoved
  | readWrite readInstance writtenInstance preserveSourceData =>
      cases preserveSourceData with
      | true =>
          exact absurd (removed_check_of_preserveSourceData rfl ..) isRemoved
      | false => exact ⟨readInstance, writtenInstance, rfl⟩

/-!
## Readers that are registered
-/

namespace DataInfo

/-- The readers of all versions, and the version that is read next -/
def readersAndCurrent (info : DataInfo) : (Nat → Int) × Nat :=
  (fun version => (info.objects version).readers, info.currentVersionId)

variable (info : DataInfo) (version : Nat)

theorem readersAndCurrent_setVersion
    {changed : DataVersion}
    (sameReaders : changed.readers = (info.objects version).readers) :
    (info.setVersion version changed).readersAndCurrent =
      info.readersAndCurrent := by
  refine Prod.ext (funext fun other => ?_) rfl
  by_cases same : other = version
  · simp [readersAndCurrent, setVersion, same, sameReaders]
  · simp [readersAndCurrent, setVersion, same]

theorem readersAndCurrent_removeData :
    (info.removeData version).state.readersAndCurrent =
      info.readersAndCurrent := by
  unfold removeData
  dsimp only
  split <;> rfl

theorem readersAndCurrent_checkDeletion :
    (info.checkDeletion version).state.readersAndCurrent =
      info.readersAndCurrent := by
  unfold checkDeletion
  dsimp only
  split
  · exact andThen_keeps _ (readersAndCurrent_removeData info version)
      fun _ _ kept => kept
  · rfl

theorem readersAndCurrent_dropIf (deleted : Bool) :
    (dropIf version info deleted).state.readersAndCurrent =
      info.readersAndCurrent := by
  unfold dropIf
  split <;> rfl

theorem readersAndCurrent_versionHasBeenWritten :
    (info.versionHasBeenWritten version).state.readersAndCurrent =
      info.readersAndCurrent := by
  unfold versionHasBeenWritten
  split
  · refine andThen_keeps _ ?_ fun after deleted kept =>
      (readersAndCurrent_dropIf after version deleted).trans kept
    refine (readersAndCurrent_checkDeletion _ version).trans ?_
    exact readersAndCurrent_setVersion info version rfl
  · rfl

theorem readersAndCurrent_deleteVersion :
    (info.deleteVersion version).state.readersAndCurrent =
      info.readersAndCurrent := by
  have marked :
      (info.setVersion version
        { info.objects version with toDelete := true }).readersAndCurrent =
          info.readersAndCurrent :=
    readersAndCurrent_setVersion info version rfl
  unfold deleteVersion
  dsimp only
  split
  · exact andThen_keeps _
      ((readersAndCurrent_removeData _ version).trans marked)
      fun _ _ kept => kept
  · exact marked

theorem readersAndCurrent_deletePending (pending : List Nat) :
    (info.deletePending pending).state.readersAndCurrent =
      info.readersAndCurrent := by
  induction pending generalizing info with
  | nil => rfl
  | cons version rest hypothesis =>
      refine andThen_keeps _
        (readersAndCurrent_deleteVersion info version) ?_
      intro after deleted kept
      refine (hypothesis _).trans (Eq.trans ?_ kept)
      split <;> rfl

theorem readersAndCurrent_unblockDeletions :
    info.unblockDeletions.state.readersAndCurrent =
      info.readersAndCurrent := by
  unfold unblockDeletions
  dsimp only
  split
  · exact andThen_keeps _
      (readersAndCurrent_deletePending _ info.pendingDeletions)
      fun _ _ kept => kept
  · rfl

theorem readersAndCurrent_deleteEach (removed versions : List Nat) :
    (info.deleteEach removed versions).state.readersAndCurrent =
      info.readersAndCurrent := by
  induction versions generalizing info removed with
  | nil => rfl
  | cons version rest hypothesis =>
      refine andThen_keeps _
        (readersAndCurrent_deleteVersion info version) ?_
      intro after deleted kept
      exact (hypothesis _ _).trans kept

theorem readersAndCurrent_dropVersions (versions : List Nat) :
    (versions.foldl dropVersion info).readersAndCurrent =
      info.readersAndCurrent := by
  induction versions generalizing info with
  | nil => rfl
  | cons version rest hypothesis => exact hypothesis (info.dropVersion version)

theorem readersAndCurrent_delete :
    info.delete.state.readersAndCurrent = info.readersAndCurrent := by
  unfold delete
  split
  · rfl
  · refine andThen_keeps _
      (readersAndCurrent_deleteEach info [] info.versions) ?_
    intro after removed kept
    exact (readersAndCurrent_dropVersions after removed).trans kept

/-- One reader of the version is gone, unless the version is missing. -/
theorem readersAndCurrent_versionHasBeenRead :
    (info.versionHasBeenRead version).state.readersAndCurrent =
      if version ∈ info.versions then
        (info.setVersion version
          { info.objects version with
            readers := (info.objects version).readers - 1 }).readersAndCurrent
      else info.readersAndCurrent := by
  unfold versionHasBeenRead
  split
  · exact andThen_keeps _ (readersAndCurrent_checkDeletion _ version)
      fun after deleted kept =>
        (readersAndCurrent_dropIf after version deleted).trans kept
  · rfl

theorem currentVersionId_versionHasBeenRead :
    (info.versionHasBeenRead version).state.currentVersionId =
      info.currentVersionId := by
  have same := congrArg Prod.snd (readersAndCurrent_versionHasBeenRead info version)
  simp only [readersAndCurrent] at same
  rw [same]
  split <;> rfl

theorem readers_versionHasBeenRead (other : Nat) :
    (info.objects other).readers - (if version = other then 1 else 0) ≤
      ((info.versionHasBeenRead version).state.objects other).readers := by
  have same := congrFun
    (congrArg Prod.fst (readersAndCurrent_versionHasBeenRead info version)) other
  simp only [readersAndCurrent] at same
  rw [same]
  by_cases inMap : version ∈ info.versions
  · by_cases isOther : other = version
    · simp [inMap, setVersion, isOther]
    · simp [inMap, setVersion, isOther, Ne.symm isOther]
  · rw [if_neg inMap]
    dsimp only
    split <;> omega

/-- Finishing an access takes one reader from the version that it reads. -/
theorem readers_hasBeenAccessed (access : DataAccessId) (other : Nat) :
    (info.objects other).readers - (if access.reads other then 1 else 0) ≤
      ((info.hasBeenAccessed access).state.objects other).readers := by
  cases access with
  | read readInstance =>
      simpa [hasBeenAccessed] using
        readers_versionHasBeenRead info readInstance.versionId other
  | write writtenInstance =>
      have same := congrFun (congrArg Prod.fst
        (readersAndCurrent_versionHasBeenWritten info
          writtenInstance.versionId)) other
      simp only [readersAndCurrent] at same
      simp [hasBeenAccessed, same]
  | readWrite readInstance writtenInstance preserveSourceData =>
      have same :
          (info.hasBeenAccessed (.readWrite readInstance writtenInstance
            preserveSourceData)).state.readersAndCurrent =
              (info.versionHasBeenRead
                readInstance.versionId).state.readersAndCurrent :=
        andThen_keeps _ rfl fun after _ kept =>
          (readersAndCurrent_versionHasBeenWritten after
            writtenInstance.versionId).trans kept
      have sameReaders := congrFun (congrArg Prod.fst same) other
      simp only [readersAndCurrent] at sameReaders
      rw [sameReaders]
      simpa using readers_versionHasBeenRead info readInstance.versionId other

theorem currentVersionId_hasBeenAccessed (access : DataAccessId) :
    (info.hasBeenAccessed access).state.currentVersionId =
      info.currentVersionId := by
  cases access with
  | read readInstance =>
      exact currentVersionId_versionHasBeenRead info readInstance.versionId
  | write writtenInstance =>
      exact congrArg Prod.snd
        (readersAndCurrent_versionHasBeenWritten info writtenInstance.versionId)
  | readWrite readInstance writtenInstance preserveSourceData =>
      refine andThen_keeps DataInfo.currentVersionId
        (currentVersionId_versionHasBeenRead info readInstance.versionId) ?_
      intro after _ kept
      refine Eq.trans ?_ kept
      exact congrArg Prod.snd
        (readersAndCurrent_versionHasBeenWritten after
          writtenInstance.versionId)

/-- Accesses read the current version. -/
theorem reads_willAccess
    {mode : AccessMode}
    {other : Nat}
    (reads : (info.willAccess mode).2.reads other = true) :
    other = info.currentVersionId := by
  cases mode with
  | R => exact (of_decide_eq_true reads).symm
  | W => cases reads
  | RW => exact (of_decide_eq_true reads).symm

end DataInfo

/-!
## Accesses that are alone
-/

/--
No registered reader has been forgotten.  Where an exception has left readers
behind there are more of them than accesses.
-/
structure Readers (info : DataInfo) (pending : List DataAccessId) : Prop where
  counted :
    ∀ version, readsOf pending version ≤ (info.objects version).readers
  exist :
    ∀ access ∈ pending, ∀ version, access.reads version = true →
      version ≤ info.currentVersionId

namespace Readers

variable
  {info : DataInfo}
  {pending : List DataAccessId}
  {access : DataAccessId}
  (readers : Readers info pending)

include readers

/-- A new access whose reader has been counted before -/
theorem concat
    (counted :
      ∀ version, access.reads version = true →
        readsOf pending version + 1 ≤ (info.objects version).readers ∧
          version ≤ info.currentVersionId) :
    Readers info (pending ++ [access]) where
  counted version := by
    rw [readsOf_concat]
    split
    case isTrue reads => exact (counted version reads).1
    case isFalse => simpa using readers.counted version
  exist other member version reads := by
    rcases mem_append.mp member with before | isNew
    · exact readers.exist other before version reads
    · rw [mem_singleton.mp isNew] at reads
      exact (counted version reads).2

theorem willBeRead :
    Readers info.willBeRead pending ∧
      readsOf pending info.currentVersionId + 1 ≤
        (info.willBeRead.objects info.currentVersionId).readers := by
  have isCounted := readers.counted info.currentVersionId
  refine ⟨⟨fun version => ?_, readers.exist⟩, ?_⟩
  · by_cases isCurrent : version = info.currentVersionId
    · simp [DataInfo.willBeRead, DataInfo.setVersion, DataInfo.currentVersion,
        isCurrent]
      omega
    · simpa [DataInfo.willBeRead, DataInfo.setVersion, isCurrent] using
        readers.counted version
  · simpa [DataInfo.willBeRead, DataInfo.setVersion, DataInfo.currentVersion]
      using isCounted

/-- The new version has no readers, and none are registered. -/
theorem willBeWritten :
    Readers info.willBeWritten pending := by
  refine ⟨fun version => ?_, fun access member version reads => ?_⟩
  · by_cases isNew : version = info.currentVersionId + 1
    · have unread : readsOf pending version = 0 := by
        rw [readsOf, Int.natCast_eq_zero, countP_eq_zero]
        intro access member reads
        have bound := readers.exist access member version reads
        omega
      rw [unread]
      simp [DataInfo.willBeWritten, DataInfo.setVersion, DataVersion.initial,
        isNew]
    · simpa [DataInfo.willBeWritten, DataInfo.setVersion, isNew] using
        readers.counted version
  · exact Nat.le_succ_of_le (readers.exist access member version reads)

theorem willAccess
    (mode : AccessMode) :
    Readers (info.willAccess mode).1
      (pending ++ [(info.willAccess mode).2]) := by
  cases mode with
  | R =>
      refine readers.willBeRead.1.concat fun version reads => ?_
      rw [info.reads_willAccess reads]
      exact ⟨readers.willBeRead.2, Nat.le_refl _⟩
  | W =>
      refine readers.willBeWritten.concat fun version reads => ?_
      cases reads
  | RW =>
      refine readers.willBeRead.1.willBeWritten.concat fun version reads => ?_
      rw [info.reads_willAccess reads]
      refine ⟨?_, Nat.le_succ _⟩
      simpa [DataInfo.willBeWritten, DataInfo.setVersion, DataInfo.willBeRead]
        using readers.willBeRead.2

theorem of_sameReaders
    {after : DataInfo}
    (same : after.readersAndCurrent = info.readersAndCurrent) :
    Readers after pending where
  counted version := by
    have sameReaders := congrFun (congrArg Prod.fst same) version
    exact le_of_le_of_eq (readers.counted version) sameReaders.symm
  exist access member version reads := by
    have sameCurrent := congrArg Prod.snd same
    exact le_of_le_of_eq (readers.exist access member version reads)
      sameCurrent.symm

theorem hasBeenAccessed
    (member : access ∈ pending) :
    Readers (info.hasBeenAccessed access).state (pending.erase access) where
  counted version := by
    rw [readsOf_erase member]
    have before := readers.counted version
    have after := info.readers_hasBeenAccessed access version
    exact Int.le_trans (Int.sub_le_sub_right before _) after
  exist other otherMember version reads := by
    rw [info.currentVersionId_hasBeenAccessed access]
    exact readers.exist other (mem_of_mem_erase otherMember) version reads

end Readers

/-- An update that does not preserve its source is the only reader of it. -/
def DataAccessId.IsAlone
    (access : DataAccessId)
    (history : History) : Prop :=
  ∀ readInstance writtenInstance,
    access = .readWrite readInstance writtenInstance false →
      readInstance.versionId < history.info.currentVersionId ∧
        ∀ other ∈ history.pending,
          other.reads readInstance.versionId = true → other = access

/-- Versions that were read before stay behind the current one. -/
theorem DataAccessId.IsAlone.later
    {history later : History}
    (isAlone : access.IsAlone history)
    (current :
      history.info.currentVersionId ≤ later.info.currentVersionId)
    (pending :
      ∀ other ∈ later.pending,
        other ∈ history.pending ∨
          ∀ version, other.reads version = true →
            version = history.info.currentVersionId) :
    access.IsAlone later := by
  intro readInstance writtenInstance isUpdate
  obtain ⟨isBefore, isOnly⟩ := isAlone readInstance writtenInstance isUpdate
  refine ⟨Nat.lt_of_lt_of_le isBefore current, fun other member reads => ?_⟩
  rcases pending other member with before | readsCurrent
  · exact isOnly other before reads
  · exact absurd (readsCurrent _ reads) (Nat.ne_of_lt isBefore)

namespace DatumRun

variable (run : DatumRun)

/-- The readers are registered, and whoever moves or may move is alone. -/
structure Safe : Prop where
  readers : Readers run.history.info run.history.pending
  pending : ∀ access ∈ run.history.pending, access.IsAlone run.history
  moved :
    ∀ earlier ∈ run.executed, earlier.moves = true →
      earlier.access.IsAlone run.history ∧
        ∃ readInstance writtenInstance,
          earlier.access = .readWrite readInstance writtenInstance false

theorem currentVersionId_le_willAccess (info : DataInfo) (mode : AccessMode) :
    info.currentVersionId ≤ (info.willAccess mode).1.currentVersionId := by
  cases mode with
  | R => exact Nat.le_refl _
  | W => exact Nat.le_succ _
  | RW => exact Nat.le_succ _

/-- The flag is set exactly if somebody else is to read the version. -/
theorem isAlone_willAccess
    {history : History}
    (readers : Readers history.info history.pending)
    (mode : AccessMode) :
    (history.info.willAccess mode).2.IsAlone
      (history.next (.access mode)) := by
  intro readInstance writtenInstance isUpdate
  cases mode with
  | R => cases isUpdate
  | W => cases isUpdate
  | RW =>
      simp only [DataInfo.willAccess, readWrite.injEq] at isUpdate
      obtain ⟨rfl, rfl, isNotToBeRead⟩ := isUpdate
      refine ⟨Nat.lt_succ_self _, fun other member reads => ?_⟩
      rcases mem_append.mp member with before | isNew
      · have noReader : (history.info.currentVersion).readers ≤ 0 := by
          simpa [DataInfo.isToBeRead] using isNotToBeRead
        have isCounted :
            readsOf history.pending history.info.currentVersionId ≤
              history.info.currentVersion.readers :=
          readers.counted history.info.currentVersionId
        have isRead : 0 < history.pending.countP fun access =>
            access.reads history.info.currentVersionId :=
          countP_pos_iff.mpr ⟨other, before, reads⟩
        unfold readsOf at isCounted
        omega
      · exact mem_singleton.mp isNew

variable
  {later : History}
  {run}

theorem Safe.of_history
    (safe : run.Safe)
    (readers : Readers later.info later.pending)
    (current :
      run.history.info.currentVersionId ≤ later.info.currentVersionId)
    (pending :
      ∀ other ∈ later.pending,
        other ∈ run.history.pending ∨
          other.IsAlone later ∧
            ∀ version, other.reads version = true →
              version = run.history.info.currentVersionId) :
    Safe { run with history := later } := by
  have stillAlone
      {access : DataAccessId}
      (isAlone : access.IsAlone run.history) :
      access.IsAlone later :=
    isAlone.later current fun other member =>
      (pending other member).imp_right (·.2)
  refine ⟨readers, fun access member => ?_, fun earlier member moves => ?_⟩
  · rcases pending access member with before | isNew
    · exact stillAlone (safe.pending access before)
    · exact isNew.1
  · obtain ⟨isAlone, isUpdate⟩ := safe.moved earlier member moves
    exact ⟨stillAlone isAlone, isUpdate⟩

/-- Deletions, and blocking them, change neither readers nor accesses. -/
theorem Safe.of_sameReaders
    {run : DatumRun}
    (safe : run.Safe)
    (same :
      later.info.readersAndCurrent = run.history.info.readersAndCurrent)
    (samePending : later.pending = run.history.pending) :
    Safe { run with history := later } := by
  refine safe.of_history ?_ ?_ ?_
  · rw [samePending]
    exact safe.readers.of_sameReaders same
  · exact Nat.le_of_eq (congrArg Prod.snd same).symm
  · rw [samePending]
    exact fun other member => .inl member

variable {step : Step}

theorem Safe.next
    {run : DatumRun}
    (safe : run.Safe)
    (enabled : run.Enabled step) :
    (run.next step).Safe := by
  cases step with
  | datum action =>
      cases action with
      | access mode =>
          refine safe.of_history (safe.readers.willAccess mode)
            (currentVersionId_le_willAccess _ mode) fun other member => ?_
          rcases mem_append.mp member with before | isNew
          · exact .inl before
          · rw [mem_singleton.mp isNew]
            exact .inr ⟨isAlone_willAccess safe.readers mode,
              fun _ reads => run.history.info.reads_willAccess reads⟩
      | finish access =>
          refine safe.of_history (safe.readers.hasBeenAccessed enabled) ?_ ?_
          · exact Nat.le_of_eq
              (run.history.info.currentVersionId_hasBeenAccessed access).symm
          · exact fun other member => .inl (mem_of_mem_erase member)
      | delete =>
          exact safe.of_sameReaders
            run.history.info.readersAndCurrent_delete rfl
      | block => exact safe.of_sameReaders rfl rfl
      | unblock =>
          exact safe.of_sameReaders
            run.history.info.readersAndCurrent_unblockDeletions rfl
  | execute access check =>
      refine ⟨safe.readers, safe.pending, fun earlier member moves => ?_⟩
      rcases mem_append.mp member with before | isNew
      · exact safe.moved earlier before moves
      · rw [mem_singleton.mp isNew] at moves ⊢
        exact ⟨safe.pending access enabled,
          eq_readWrite_of_moves moves⟩

theorem safe_start (dataId : Nat) : (system dataId).start.Safe where
  readers := ⟨fun _ => Int.le_refl 0, by simp [system, start]⟩
  pending := by simp [system, start]
  moved := by simp [system]

theorem safe_of_run
    {dataId : Nat}
    {Permitted : DatumRun → Step → Prop}
    {steps : List Step}
    (reached : Run (system dataId) Permitted steps run) :
    run.Safe :=
  reached.invariant (safe_start dataId) fun _ _ safe enabled _ =>
    safe.next enabled

/-!
## Runs
-/

/-- Whoever reads a version that was moved is the access that has moved it. -/
theorem Safe.movesLast_next_iff
    (safe : run.Safe)
    (enabled : run.Enabled step) :
    (run.next step).MovesLast ↔ run.MovesLast ∧ run.ExecutesOnce step := by
  cases step with
  | datum action => exact (and_iff_left trivial).symm
  | execute access check =>
      have isPending : access ∈ run.history.pending := enabled
      have isNext :
          (run.next (.execute access check)).executed =
            run.executed ++ [⟨access, access.moves check⟩] := rfl
      rw [MovesLast, isNext, pairwise_append]
      simp only [pairwise_singleton, forall_mem_singleton, true_and]
      refine and_congr_right fun _ => forall₃_congr fun earlier member moves => ?_
      obtain ⟨isAlone, readInstance, writtenInstance, isUpdate⟩ :=
        safe.moved earlier member moves
      constructor
      · rintro notRead rfl
        have reads : earlier.access.reads readInstance.versionId = true := by
          simp [isUpdate]
        simp [notRead _ reads] at reads
      · intro isOther version reads
        by_contra readsToo
        have isRead : version = readInstance.versionId := by
          simpa [isUpdate, eq_comm] using reads
        have isOnly := (isAlone readInstance writtenInstance isUpdate).2
        refine isOther (isOnly access isPending ?_).symm
        simpa [isRead] using readsToo

/-- A version that is moved is not read again exactly if each task whose
execution has moved it is not executed again. -/
theorem movesLast_iff_of_run
    {dataId : Nat}
    {steps : List Step}
    {run : DatumRun}
    (reached : Run (system dataId) anyStep steps run) :
    run.MovesLast ↔ Run (system dataId) ExecutesOnce steps run := by
  induction reached with
  | start => exact iff_of_true .nil .start
  | snoc reached enabled permitted hypothesis =>
      rw [reached.snoc_iff enabled, ← hypothesis]
      exact (safe_of_run reached).movesLast_next_iff enabled

/-- A worker with a file of its working directory -/
def fileCheck (store : List Stored) (source target : String) :
    ParameterCheck where
  worker := ⟨"worker1", "/tmp"⟩
  answers :=
    { deserializes := fun _ => true
      copies := fun _ _ => true
      moves := fun _ _ => true
      isTransferring := fun _ => false }
  store := store
  type := .FILE_T
  value := target
  data := some ⟨source, [⟨some "worker1", source⟩]⟩

/-- The update of a version that a task has written on the worker -/
def updateAccess : DataAccessId :=
  .readWrite ⟨1, 2⟩ ⟨1, 3⟩ false

def writeThenUpdate : List Step :=
  [.datum (.access .W), .datum (.finish (.write ⟨1, 2⟩)),
    .datum (.access .RW),
    .execute updateAccess (fileCheck [.file "d1v2"] "d1v2" "d1v3")]

/-- The update succeeds; its version is read by another task. -/
def updateOnce : List Step :=
  writeThenUpdate ++
    [.datum (.finish updateAccess), .datum (.access .R),
      .execute (.read ⟨1, 3⟩) (fileCheck [.file "d1v3"] "d1v3" "d1v3")]

theorem movesLast_updateOnce :
    ((system 1).after updateOnce).MovesLast ∧
      (updateAccess.moves (fileCheck [.file "d1v2"] "d1v2" "d1v3")) = true :=
  ⟨(movesLast_iff_of_run (run_of_executable (by decide))).mpr
      (run_of_executable (by decide)),
    by decide⟩

/-- The job fails after its file has been moved, and is submitted again. -/
def updateAgain : List Step :=
  writeThenUpdate ++
    [.execute updateAccess (fileCheck [.file "d1v3"] "d1v2" "d1v3")]

theorem not_movesLast_updateAgain :
    Run (system 1) anyStep updateAgain ((system 1).after updateAgain) ∧
      ¬ ((system 1).after updateAgain).MovesLast := by
  refine ⟨run_of_executable (by decide), fun movesLast => ?_⟩
  have twice : ((system 1).after updateAgain).executed =
      [⟨updateAccess, true⟩, ⟨updateAccess, false⟩] := by decide
  rw [MovesLast, twice, pairwise_pair] at movesLast
  exact absurd (movesLast rfl 2 rfl) (by decide)

end DatumRun

end DistributedRdf.Engine
