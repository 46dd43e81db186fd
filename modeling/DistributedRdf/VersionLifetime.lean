import DistributedRdf.TransitionSystem
import DistributedRdf.VersionAccounting
import Mathlib.Data.List.Count

namespace DistributedRdf.Engine

open Java Execution DataInfo Function DataAccessId List Outcome

/-!
# Life of the versions of one datum

A history is a datum together with the registered accesses that have not
finished and the newest version for which deletion was requested.  Three steps
break the life of a version: finishing the last access of a marked version
while deletions are blocked, unblocking with a pending deletion that was
carried out before, and updating a datum whose current version is gone.
`versionLifetime_of_permittedRun` covers all histories without these steps.
-/

namespace DataAccessId

variable (access : DataAccessId)

def reads (version : Nat) : Bool :=
  access.readInstance?.any fun instanceId => instanceId.versionId = version

def writes (version : Nat) : Bool :=
  access.writtenInstance?.any fun instanceId => instanceId.versionId = version

/-- The access registered a reader or a writer on the version. -/
def Uses (version : Nat) : Prop :=
  access.reads version = true ∨ access.writes version = true

variable (instanceId : DataInstanceId)

@[simp] theorem reads_read (version : Nat) :
    (read instanceId).reads version =
      decide (instanceId.versionId = version) :=
  rfl

@[simp] theorem reads_write (version : Nat) :
    (write instanceId).reads version = false :=
  rfl

@[simp] theorem reads_readWrite
    (readInstance writtenInstance : DataInstanceId)
    (preserve : Bool)
    (version : Nat) :
    (readWrite readInstance writtenInstance preserve).reads version =
      decide (readInstance.versionId = version) :=
  rfl

@[simp] theorem writes_read (version : Nat) :
    (read instanceId).writes version = false :=
  rfl

@[simp] theorem writes_write (version : Nat) :
    (write instanceId).writes version =
      decide (instanceId.versionId = version) :=
  rfl

@[simp] theorem writes_readWrite
    (readInstance writtenInstance : DataInstanceId)
    (preserve : Bool)
    (version : Nat) :
    (readWrite readInstance writtenInstance preserve).writes version =
      decide (writtenInstance.versionId = version) :=
  rfl

end DataAccessId

/-- One datum and what its users and its deletions still have to do. -/
structure History where
  info : DataInfo
  pending : List DataAccessId
  requested : Nat

inductive DatumAction where
  | access (mode : AccessMode)
  | finish (access : DataAccessId)
  | delete
  | block
  | unblock

namespace History

def start (dataId : Nat) : History where
  info := .new dataId
  pending := []
  requested := 0

variable (history : History)

/-- Each registered access finishes once; unblocking follows blocking. -/
def Enabled : DatumAction → Prop
  | .finish access => access ∈ history.pending
  | .unblock => 0 < history.info.deletionBlocks
  | .access _ | .delete | .block => True

def next : DatumAction → History
  | .access mode =>
      let registered := history.info.willAccess mode
      { history with
        info := registered.1
        pending := history.pending ++ [registered.2] }
  | .finish access =>
      { history with
        info := (history.info.hasBeenAccessed access).state
        pending := history.pending.erase access }
  | .delete =>
      { history with
        info := history.info.delete.state
        requested := history.info.currentVersionId }
  | .block => { history with info := history.info.blockDeletions }
  | .unblock => { history with info := history.info.unblockDeletions.state }

/--
An access that finishes while deletions are blocked leaves other users to each
marked version, the last unblocking finds each idle pending deletion once and
not carried out, and an update finds the current version in place.
-/
def Permitted : DatumAction → Prop
  | .access .RW => history.info.currentVersionId ∈ history.info.versions
  | .access .R | .access .W => True
  | .finish access =>
      0 < history.info.deletionBlocks →
        ∀ version, version ∈ history.info.versions →
          (history.info.objects version).toDelete = true →
          access.Uses version →
            ∃ other, other ∈ history.pending.erase access ∧
              other.Uses version
  | .unblock =>
      history.info.deletionBlocks = 1 →
        history.info.Removable history.info.pendingDeletions
  | .delete | .block => True

end History

/-- All histories of the datum with the given identifier. -/
def datumSystem (dataId : Nat) : TransitionSystem History DatumAction where
  start := .start dataId
  Enabled := History.Enabled
  next := History.next

/-!
## Counting unfinished accesses
-/

def readsOf (pending : List DataAccessId) (version : Nat) : Int :=
  (pending.countP fun access => access.reads version : Nat)

def writesOf (pending : List DataAccessId) (version : Nat) : Int :=
  (pending.countP fun access => access.writes version : Nat)

/-- No unfinished access uses the version. -/
def Unused (pending : List DataAccessId) (version : Nat) : Prop :=
  ∀ access, access ∈ pending → ¬ access.Uses version

variable
  {pending : List DataAccessId}
  {version : Nat}

theorem unused_iff :
    Unused pending version ↔
      readsOf pending version = 0 ∧ writesOf pending version = 0 := by
  simp only [Unused, DataAccessId.Uses, readsOf, writesOf,
    Int.natCast_eq_zero, countP_eq_zero, not_or, ← forall_and]

variable (pending)

theorem readsOf_nonneg (version : Nat) :
    0 ≤ readsOf pending version :=
  Int.natCast_nonneg _

theorem readsOf_concat
    (access : DataAccessId)
    (version : Nat) :
    readsOf (pending ++ [access]) version =
      readsOf pending version + if access.reads version then 1 else 0 := by
  simp only [readsOf, countP_append, countP_singleton]
  split <;> simp

theorem writesOf_concat
    (access : DataAccessId)
    (version : Nat) :
    writesOf (pending ++ [access]) version =
      writesOf pending version + if access.writes version then 1 else 0 := by
  simp only [writesOf, countP_append, countP_singleton]
  split <;> simp

variable
  {access : DataAccessId}
  {pending}

theorem readsOf_erase
    (member : access ∈ pending)
    (version : Nat) :
    readsOf (pending.erase access) version =
      readsOf pending version - if access.reads version then 1 else 0 := by
  have split := List.Perm.countP_eq (fun access => access.reads version)
    (perm_cons_erase member)
  simp only [readsOf, split, countP_cons]
  split <;> simp

theorem writesOf_erase
    (member : access ∈ pending)
    (version : Nat) :
    writesOf (pending.erase access) version =
      writesOf pending version - if access.writes version then 1 else 0 := by
  have split := List.Perm.countP_eq (fun access => access.writes version)
    (perm_cons_erase member)
  simp only [writesOf, split, countP_cons]
  split <;> simp

/-!
## The invariant of a history
-/

/--
The datum is consistent with the unfinished accesses, which use versions that
exist; written versions and versions read by an update are still in the map.
-/
structure Tracked (history : History) : Prop where
  consistent :
    Consistent history.info (readsOf history.pending)
      (writesOf history.pending) history.requested
  exist :
    ∀ access, access ∈ history.pending → ∀ version, access.Uses version →
      version ≤ history.info.currentVersionId
  written :
    ∀ access, access ∈ history.pending → ∀ version,
      access.writes version = true → version ∈ history.info.versions
  updated :
    ∀ access, access ∈ history.pending → access.writtenInstance?.isSome →
      ∀ version, access.reads version = true →
        version ∈ history.info.versions

/-- What a step may remove: versions nobody uses afterwards. -/
structure RemovesUnused
    (before : DataInfo)
    (after : History)
    (Justified : Nat → Prop) : Prop where
  tracked :
    Consistent after.info (readsOf after.pending)
      (writesOf after.pending) after.requested
  current : before.currentVersionId ≤ after.info.currentVersionId
  removed :
    ∀ version, version ∈ after.info.removals →
      version ∈ before.removals ∨
        (Unused after.pending version ∧ Justified version)

variable {Justified : Nat → Prop}

/-- A version that is still used afterwards stays in the map. -/
theorem RemovesUnused.mem_versions
    {before : DataInfo}
    {reads writes : Nat → Int}
    {requested : Nat}
    {after : History}
    (step : RemovesUnused before after Justified)
    (consistent : Consistent before reads writes requested)
    (present : version ∈ before.versions)
    (member : access ∈ after.pending)
    (uses : access.Uses version) :
    version ∈ after.info.versions := by
  have bound := (consistent.created version).mp (.inl present)
  have current := step.current
  rcases (step.tracked.created version).mpr (by omega) with inMap | inLog
  · exact inMap
  · rcases step.removed version inLog with before | ⟨unused, _⟩
    · exact absurd before (consistent.disjoint version present)
    · exact absurd uses (unused access member)

/-- The invariant survives a step that adds no access. -/
theorem Tracked.of_removesUnused
    {before after : History}
    (tracked : Tracked before)
    (step : RemovesUnused before.info after Justified)
    (noneAdded :
      ∀ access, access ∈ after.pending → access ∈ before.pending) :
    Tracked after where
  consistent := step.tracked
  exist := by
    intro access member version uses
    exact Nat.le_trans
      (tracked.exist access (noneAdded access member) version uses)
      step.current
  written := by
    intro access member version writes
    exact step.mem_versions tracked.consistent
      (tracked.written access (noneAdded access member) version writes)
      member (.inr writes)
  updated := by
    intro access member isUpdate version reads
    exact step.mem_versions tracked.consistent
      (tracked.updated access (noneAdded access member) isUpdate version
        reads)
      member (.inl reads)

/-!
## Finishing an access
-/

/-- A marked version in the map that a finishing access used. -/
structure History.MarkedUse
    (history : History)
    (access : DataAccessId)
    (version : Nat) : Prop where
  present : version ∈ history.info.versions
  marked : (history.info.objects version).toDelete = true
  uses : access.Uses version
  sameBlocks :
    (history.next (.finish access)).info.deletionBlocks =
      history.info.deletionBlocks

variable
  {history : History}
  {instanceId : DataInstanceId}

theorem Tracked.finishRead
    (tracked : Tracked history)
    (member : .read instanceId ∈ history.pending) :
    RemovesUnused history.info (history.next (.finish (.read instanceId)))
      (history.MarkedUse (.read instanceId)) := by
  let version := instanceId.versionId
  let remaining := history.pending.erase (.read instanceId)
  have readsAfter :
      readsOf remaining =
        update (readsOf history.pending) version
          (readsOf history.pending version - 1) := by
    funext other
    rw [readsOf_erase member]
    by_cases same : other = version
    · simp [same, version]
    · simp [same, version, Ne.symm same]
  have writesAfter : writesOf remaining = writesOf history.pending := by
    funext other
    rw [writesOf_erase member]
    simp
  by_cases present : version ∈ history.info.versions
  · have notRemoved := tracked.consistent.disjoint version present
    obtain ⟨empty, finished⟩ :=
      versionHasBeenRead_eq present notRemoved
    have shape :
        (history.next (.finish (.read instanceId))).info =
          (history.info.leaveReader version).settle version := by
      simp only [History.next, hasBeenAccessed]
      rw [finished, state_returned]
    refine ⟨?_, ?_, ?_⟩
    · rw [shape]
      change Consistent _ (readsOf remaining) (writesOf remaining) _
      rw [readsAfter, writesAfter]
      exact tracked.consistent.leaveReader present
    · rw [shape, settle_currentVersionId]
      exact Nat.le_refl _
    · intro other inLog
      rw [shape] at inLog
      rcases tracked.consistent.removed_leaveReader present inLog with
        before | ⟨rfl, marked, lastRead, noWrites⟩
      · exact .inl before
      · refine .inr ⟨?_, present, marked, .inl (by simp [version]),
          by rw [shape]; exact settle_deletionBlocks _ _⟩
        change Unused remaining version
        rw [unused_iff, readsAfter, writesAfter]
        simp [lastRead, noWrites]
  · -- The version was removed: `versions.get` yields null and nothing changes.
    have shape :
        (history.next (.finish (.read instanceId))).info = history.info := by
      simp only [History.next, hasBeenAccessed,
        versionHasBeenRead]
      rw [if_neg present, state_raised]
    refine ⟨?_, ?_, ?_⟩
    · rw [shape]
      change Consistent _ (readsOf remaining) (writesOf remaining) _
      rw [readsAfter, writesAfter]
      apply tracked.consistent.congr
      · intro other inMap
        have different : other ≠ version := by
          intro same
          exact present (same ▸ inMap)
        simp [different]
      · intro other inMap
        rfl
    · exact shape ▸ Nat.le_refl _
    · intro other inLog
      rw [shape] at inLog
      exact .inl inLog

theorem Tracked.finishWrite
    (tracked : Tracked history)
    (member : .write instanceId ∈ history.pending) :
    RemovesUnused history.info (history.next (.finish (.write instanceId)))
      (history.MarkedUse (.write instanceId)) := by
  let version := instanceId.versionId
  let remaining := history.pending.erase (.write instanceId)
  have readsAfter : readsOf remaining = readsOf history.pending := by
    funext other
    rw [readsOf_erase member]
    simp
  have writesAfter :
      writesOf remaining =
        update (writesOf history.pending) version
          (writesOf history.pending version - 1) := by
    funext other
    rw [writesOf_erase member]
    by_cases same : other = version
    · simp [same, version]
    · simp [same, version, Ne.symm same]
  have present : version ∈ history.info.versions :=
    tracked.written _ member version (by simp [version])
  have notRemoved := tracked.consistent.disjoint version present
  obtain ⟨empty, finished⟩ :=
    versionHasBeenWritten_eq present notRemoved
  have shape :
      (history.next (.finish (.write instanceId))).info =
        (history.info.leaveWriter version).settle version := by
    simp only [History.next, hasBeenAccessed]
    rw [finished, state_returned]
  refine ⟨?_, ?_, ?_⟩
  · rw [shape]
    change Consistent _ (readsOf remaining) (writesOf remaining) _
    rw [readsAfter, writesAfter]
    exact tracked.consistent.leaveWriter present
  · rw [shape, settle_currentVersionId]
    exact Nat.le_refl _
  · intro other inLog
    rw [shape] at inLog
    rcases tracked.consistent.removed_leaveWriter present inLog with
      before | ⟨rfl, marked, noReads, lastWrite⟩
    · exact .inl before
    · refine .inr ⟨?_, present, marked, .inr (by simp [version]),
        by rw [shape]; exact settle_deletionBlocks _ _⟩
      change Unused remaining version
      rw [unused_iff, readsAfter, writesAfter]
      simp [noReads, lastWrite]

theorem writesOf_ne_zero
    (member : access ∈ pending)
    (writes : access.writes version = true) :
    writesOf pending version ≠ 0 := by
  intro none
  rw [writesOf, Int.natCast_eq_zero, countP_eq_zero] at none
  exact none access member writes

/-- A version that is being written outlives the version that was read. -/
theorem Tracked.mem_leaveReader
    {source target : Nat}
    (tracked : Tracked history)
    (member : access ∈ history.pending)
    (writes : access.writes target = true)
    (sourcePresent : source ∈ history.info.versions) :
    target ∈
      ((history.info.leaveReader source).settle source).versions := by
  have targetPresent := tracked.written access member target writes
  have targetWritten := writesOf_ne_zero member writes
  have between := tracked.consistent.leaveReader sourcePresent
  have bound := (tracked.consistent.created target).mp (.inl targetPresent)
  have current :
      ((history.info.leaveReader source).settle source).currentVersionId =
        history.info.currentVersionId :=
    settle_currentVersionId _ _
  rcases (between.created target).mpr (by omega) with inMap | inLog
  · exact inMap
  · rcases tracked.consistent.removed_leaveReader sourcePresent inLog with
      before | ⟨same, _, _, noWrites⟩
    · exact absurd before (tracked.consistent.disjoint target targetPresent)
    · rw [same] at targetWritten
      exact absurd noWrites targetWritten

variable
  {readInstance writtenInstance : DataInstanceId}
  {preserve : Bool}

/-- An update leaves the version it read, then the version it wrote. -/
theorem Tracked.hasBeenAccessed_readWrite
    (tracked : Tracked history)
    (member :
      .readWrite readInstance writtenInstance preserve ∈ history.pending) :
    ∃ empty,
      history.info.hasBeenAccessed
          (.readWrite readInstance writtenInstance preserve) =
        .returned
          ((((history.info.leaveReader readInstance.versionId).settle
            readInstance.versionId).leaveWriter
              writtenInstance.versionId).settle
                writtenInstance.versionId) empty := by
  have sourcePresent : readInstance.versionId ∈ history.info.versions :=
    tracked.updated _ member rfl _ (by simp)
  have writes :
      (readWrite readInstance writtenInstance preserve).writes
        writtenInstance.versionId = true := by
    simp
  have targetStill := tracked.mem_leaveReader member writes sourcePresent
  have between := tracked.consistent.leaveReader sourcePresent
  obtain ⟨_, readFinished⟩ :=
    versionHasBeenRead_eq sourcePresent
      (tracked.consistent.disjoint _ sourcePresent)
  obtain ⟨empty, writeFinished⟩ :=
    versionHasBeenWritten_eq targetStill
      (between.disjoint _ targetStill)
  refine ⟨empty, ?_⟩
  rw [hasBeenAccessed, readFinished, andThen_returned,
    writeFinished]

theorem Tracked.finishReadWrite
    (tracked : Tracked history)
    (member :
      .readWrite readInstance writtenInstance preserve ∈ history.pending) :
    RemovesUnused history.info
      (history.next
        (.finish (.readWrite readInstance writtenInstance preserve)))
      (history.MarkedUse
        (.readWrite readInstance writtenInstance preserve)) := by
  let access := readWrite readInstance writtenInstance preserve
  let source := readInstance.versionId
  let target := writtenInstance.versionId
  let remaining := history.pending.erase access
  let middle := (history.info.leaveReader source).settle source
  let readsBetween :=
    update (readsOf history.pending) source
      (readsOf history.pending source - 1)
  have readsAfter : readsOf remaining = readsBetween := by
    funext other
    rw [readsOf_erase member]
    by_cases same : other = source
    · simp [same, source, readsBetween]
    · simp [same, source, readsBetween, Ne.symm same]
  have writesAfter :
      writesOf remaining =
        update (writesOf history.pending) target
          (writesOf history.pending target - 1) := by
    funext other
    rw [writesOf_erase member]
    by_cases same : other = target
    · simp [same, target]
    · simp [same, target, Ne.symm same]
  have sourcePresent : source ∈ history.info.versions :=
    tracked.updated _ member rfl source (by simp [source])
  have targetPresent : target ∈ history.info.versions :=
    tracked.written _ member target (by simp [target])
  have targetWritten : writesOf history.pending target ≠ 0 :=
    writesOf_ne_zero member (by simp [target])
  have between : Consistent middle readsBetween
      (writesOf history.pending) history.requested :=
    tracked.consistent.leaveReader sourcePresent
  have targetStill : target ∈ middle.versions :=
    tracked.mem_leaveReader member (by simp [target]) sourcePresent
  have shape :
      (history.next (.finish access)).info =
        (middle.leaveWriter target).settle target := by
    obtain ⟨empty, finished⟩ := tracked.hasBeenAccessed_readWrite member
    rw [History.next, finished, state_returned]
  have marksKept :
      (middle.objects target).toDelete =
        (history.info.objects target).toDelete := by
    by_cases same : target = source
    · simp [middle, leaveReader, setVersion, same]
    · simp [middle, leaveReader, setVersion, same]
  have sameBlocks :
      (history.next (.finish access)).info.deletionBlocks =
        history.info.deletionBlocks := by
    rw [shape, settle_deletionBlocks]
    exact settle_deletionBlocks _ _
  refine ⟨?_, ?_, ?_⟩
  · rw [shape]
    change Consistent _ (readsOf remaining) (writesOf remaining) _
    rw [readsAfter, writesAfter]
    exact between.leaveWriter targetStill
  · rw [shape, settle_currentVersionId]
    change _ ≤ middle.currentVersionId
    rw [settle_currentVersionId]
    exact Nat.le_refl _
  · intro other inLog
    rw [shape] at inLog
    change _ ∨ Unused remaining other ∧ _
    rw [unused_iff, readsAfter, writesAfter]
    rcases between.removed_leaveWriter targetStill inLog with
      inMiddle | ⟨rfl, marked, noReads, lastWrite⟩
    · rcases tracked.consistent.removed_leaveReader sourcePresent inMiddle
        with before | ⟨rfl, marked, lastRead, noWrites⟩
      · exact .inl before
      · refine .inr ⟨⟨by simp [readsBetween, lastRead], ?_⟩,
          sourcePresent, marked, .inl (by simp [source]), sameBlocks⟩
        by_cases same : source = target
        · rw [same] at noWrites
          exact absurd noWrites targetWritten
        · simpa [same] using noWrites
    · exact .inr ⟨⟨noReads, by simp [lastWrite]⟩, targetPresent,
        marksKept ▸ marked, .inr (by simp [target]), sameBlocks⟩

theorem Tracked.finish
    (tracked : Tracked history)
    (member : access ∈ history.pending) :
    RemovesUnused history.info (history.next (.finish access))
      (history.MarkedUse access) := by
  cases access with
  | read instanceId => exact tracked.finishRead member
  | write instanceId => exact tracked.finishWrite member
  | readWrite readInstance writtenInstance preserve =>
      exact tracked.finishReadWrite member

/-!
## Registering an access
-/

/-- No unfinished access uses a version that is still to be created. -/
theorem Tracked.unused_next
    (tracked : Tracked history) :
    Unused history.pending (history.info.currentVersionId + 1) := by
  intro access member uses
  have bound := tracked.exist access member _ uses
  omega

theorem pending_accessRead (history : History) :
    (history.next (.access .R)).pending =
      history.pending ++
        [.read ⟨history.info.dataId, history.info.currentVersionId⟩] :=
  rfl

theorem pending_accessWrite (history : History) :
    (history.next (.access .W)).pending =
      history.pending ++
        [.write ⟨history.info.dataId, history.info.currentVersionId + 1⟩] :=
  rfl

theorem pending_accessReadWrite (history : History) :
    (history.next (.access .RW)).pending =
      history.pending ++
        [.readWrite ⟨history.info.dataId, history.info.currentVersionId⟩
          ⟨history.info.dataId, history.info.currentVersionId + 1⟩
          history.info.isToBeRead] :=
  rfl

section

variable (tracked : Tracked history)

include tracked

theorem Tracked.accessRead :
    Tracked (history.next (.access .R)) := by
  let current := history.info.currentVersionId
  have readsAfter :
      readsOf (history.next (.access .R)).pending =
        update (readsOf history.pending) current
          (readsOf history.pending current + 1) := by
    funext other
    rw [pending_accessRead, readsOf_concat]
    by_cases same : other = current
    · simp [same, current]
    · simp [same, current, Ne.symm same]
  have writesAfter :
      writesOf (history.next (.access .R)).pending =
        writesOf history.pending := by
    funext other
    rw [pending_accessRead, writesOf_concat]
    simp
  refine ⟨?_, ?_, ?_, ?_⟩
  · rw [readsAfter, writesAfter]
    exact tracked.consistent.willBeRead (readsOf_nonneg history.pending)
  · intro access member version uses
    rw [pending_accessRead] at member
    rcases mem_append.mp member with before | isNew
    · exact tracked.exist access before version uses
    · rw [mem_singleton.mp isNew] at uses
      have same : current = version := by
        simpa [DataAccessId.Uses] using uses
      exact Nat.le_of_eq same.symm
  · intro access member version writes
    rw [pending_accessRead] at member
    rcases mem_append.mp member with before | isNew
    · exact tracked.written access before version writes
    · rw [mem_singleton.mp isNew] at writes
      exact absurd writes (by simp)
  · intro access member isUpdate version reads
    rw [pending_accessRead] at member
    rcases mem_append.mp member with before | isNew
    · exact tracked.updated access before isUpdate version reads
    · rw [mem_singleton.mp isNew] at isUpdate
      exact absurd isUpdate (by simp [writtenInstance?])

theorem Tracked.accessWrite :
    Tracked (history.next (.access .W)) := by
  let fresh := history.info.currentVersionId + 1
  have unused := unused_iff.mp tracked.unused_next
  have readsAfter :
      readsOf (history.next (.access .W)).pending =
        update (readsOf history.pending) fresh 0 := by
    funext other
    rw [pending_accessWrite, readsOf_concat]
    by_cases same : other = fresh
    · simp [same, fresh, unused.1]
    · simp [same]
  have writesAfter :
      writesOf (history.next (.access .W)).pending =
        update (writesOf history.pending) fresh 1 := by
    funext other
    rw [pending_accessWrite, writesOf_concat]
    by_cases same : other = fresh
    · simp [same, fresh, unused.2]
    · simp [same, fresh, Ne.symm same]
  refine ⟨?_, ?_, ?_, ?_⟩
  · rw [readsAfter, writesAfter]
    exact tracked.consistent.willBeWritten
  · intro access member version uses
    rw [pending_accessWrite] at member
    rcases mem_append.mp member with before | isNew
    · exact Nat.le_succ_of_le (tracked.exist access before version uses)
    · rw [mem_singleton.mp isNew] at uses
      have same : fresh = version := by
        simpa [DataAccessId.Uses] using uses
      exact Nat.le_of_eq same.symm
  · intro access member version writes
    rw [pending_accessWrite] at member
    rcases mem_append.mp member with before | isNew
    · exact mem_append.mpr
        (.inl (tracked.written access before version writes))
    · rw [mem_singleton.mp isNew] at writes
      have same : fresh = version := by
        simpa using writes
      exact mem_append.mpr (.inr (mem_singleton.mpr same.symm))
  · intro access member isUpdate version reads
    rw [pending_accessWrite] at member
    rcases mem_append.mp member with before | isNew
    · exact mem_append.mpr
        (.inl (tracked.updated access before isUpdate version reads))
    · rw [mem_singleton.mp isNew] at reads
      exact absurd reads (by simp)

theorem Tracked.accessReadWrite
    (inPlace : history.info.currentVersionId ∈ history.info.versions) :
    Tracked (history.next (.access .RW)) := by
  let current := history.info.currentVersionId
  let fresh := current + 1
  have unused := unused_iff.mp tracked.unused_next
  have readsAfter :
      readsOf (history.next (.access .RW)).pending =
        update
          (update (readsOf history.pending) current
            (readsOf history.pending current + 1)) fresh 0 := by
    funext other
    rw [pending_accessReadWrite, readsOf_concat]
    by_cases isFresh : other = fresh
    · simp [isFresh, fresh, current, unused.1]
    · by_cases isCurrent : other = current
      · simp [isCurrent, fresh, current]
      · simp [isFresh, isCurrent, current, Ne.symm isCurrent]
  have writesAfter :
      writesOf (history.next (.access .RW)).pending =
        update (writesOf history.pending) fresh 1 := by
    funext other
    rw [pending_accessReadWrite, writesOf_concat]
    by_cases same : other = fresh
    · simp [same, fresh, current, unused.2]
    · simp [same, fresh, current, Ne.symm same]
  refine ⟨?_, ?_, ?_, ?_⟩
  · rw [readsAfter, writesAfter]
    exact (tracked.consistent.willBeRead
      (readsOf_nonneg history.pending)).willBeWritten
  · intro access member version uses
    rw [pending_accessReadWrite] at member
    rcases mem_append.mp member with before | isNew
    · exact Nat.le_succ_of_le (tracked.exist access before version uses)
    · rw [mem_singleton.mp isNew] at uses
      have same : current = version ∨ fresh = version := by
        simpa [DataAccessId.Uses] using uses
      change version ≤ current + 1
      omega
  · intro access member version writes
    rw [pending_accessReadWrite] at member
    rcases mem_append.mp member with before | isNew
    · exact mem_append.mpr
        (.inl (tracked.written access before version writes))
    · rw [mem_singleton.mp isNew] at writes
      have same : fresh = version := by
        simpa using writes
      exact mem_append.mpr (.inr (mem_singleton.mpr same.symm))
  · intro access member isUpdate version reads
    rw [pending_accessReadWrite] at member
    rcases mem_append.mp member with before | isNew
    · exact mem_append.mpr
        (.inl (tracked.updated access before isUpdate version reads))
    · rw [mem_singleton.mp isNew] at reads
      have same : current = version := by
        simpa using reads
      exact mem_append.mpr (.inl (same ▸ inPlace))

/-!
## Deleting, blocking and unblocking
-/

omit tracked in
/-- Only versions that the counters call idle are removed. -/
theorem unused_of_idle
    {info : DataInfo}
    {requested version : Nat}
    (consistent :
      Consistent info (readsOf pending) (writesOf pending) requested)
    (present : version ∈ info.versions)
    (idle : (info.objects version).Idle) :
    Unused pending version := by
  rw [unused_iff, ← consistent.readers version present,
    ← consistent.writters version present]
  exact idle

theorem Tracked.delete :
    RemovesUnused history.info (history.next .delete)
      (fun _ => (history.next .delete).info.deletionBlocks = 0) := by
  have consistent := tracked.consistent
  by_cases blocked : 0 < history.info.deletionBlocks
  · -- Every version is listed for the end of the blocking.
    have shape :
        (history.next .delete).info =
          { history.info with
            pendingDeletions :=
              history.info.pendingDeletions ++ history.info.versions } := by
      simp only [History.next, DataInfo.delete]
      rw [if_pos blocked, state_returned]
    have inRange :
        ∀ version, version ∈ history.info.versions →
          version ≤ history.info.currentVersionId := by
      intro version inMap
      exact ((consistent.created version).mp (.inl inMap)).2
    refine ⟨?_, ?_, ?_⟩
    · rw [shape]
      exact {
        consistent with
        marked := by
          intro version isMarked
          exact Nat.le_trans (consistent.marked version isMarked)
            consistent.requestedOld
        removed := by
          intro version inLog
          exact Nat.le_trans (consistent.removed version inLog)
            consistent.requestedOld
        listed := by
          intro version inList
          rcases mem_append.mp inList with before | inMap
          · exact Nat.le_trans (consistent.listed version before)
              consistent.requestedOld
          · exact inRange version inMap
        listedExist := by
          intro version inList
          rcases mem_append.mp inList with before | inMap
          · exact consistent.listedExist version before
          · exact ((consistent.created version).mp (.inl inMap)).1
        due := by
          intro version inMap isDue
          exact .inr ⟨blocked, mem_append.mpr (.inr inMap)⟩
        requestedOld := Nat.le_refl _ }
    · exact shape ▸ Nat.le_refl _
    · intro version inLog
      rw [shape] at inLog
      exact .inl inLog
  · have removable : history.info.Removable history.info.versions := by
      refine ⟨consistent.versionsNodup.filter _, ?_⟩
      intro version idle
      exact consistent.disjoint version (mem_filter.mp idle).1
    have shape :
        (history.next .delete).info =
          history.info.purge history.info.versions :=
      delete_of_unblocked blocked removable
    refine ⟨?_, ?_, ?_⟩
    · rw [shape]
      apply consistent.toCounted.purge removable.distinct
      · intro version idle
        exact (mem_filter.mp idle).1
      · intro version inMap
        exact ((consistent.created version).mp (.inl inMap)).2
      · intro version inMap isDue
        exact .inl inMap
      · exact consistent.requestedOld
      · exact Nat.le_refl _
    · exact shape ▸ Nat.le_refl _
    · intro version inLog
      rw [shape] at inLog
      rcases mem_append.mp inLog with before | idle
      · exact .inl before
      · have found := mem_filter.mp idle
        have nonneg := consistent.blocks
        have noBlocks : history.info.deletionBlocks = 0 := by omega
        exact .inr ⟨unused_of_idle consistent found.1 (by simpa using found.2),
          by rw [shape]; exact noBlocks⟩

theorem Tracked.block :
    RemovesUnused history.info (history.next .block) (fun _ => False) where
  tracked :=
    { tracked.consistent with
      due := by
        intro version inMap isDue
        have nonneg := tracked.consistent.blocks
        rcases tracked.consistent.due version inMap isDue with
          inUse | ⟨_, listed⟩
        · exact .inl inUse
        · refine .inr ⟨?_, listed⟩
          change 0 < history.info.deletionBlocks + 1
          omega
      blocks := by
        have nonneg := tracked.consistent.blocks
        change 0 ≤ history.info.deletionBlocks + 1
        omega }
  current := Nat.le_refl _
  removed := by
    intro version inLog
    exact .inl inLog

theorem Tracked.unblock
    (blocked : 0 < history.info.deletionBlocks)
    (permitted : history.Permitted .unblock) :
    RemovesUnused history.info (history.next .unblock)
      (fun _ => (history.next .unblock).info.deletionBlocks = 0) := by
  have consistent := tracked.consistent
  by_cases last : history.info.deletionBlocks = 1
  · have removable := permitted last
    have shape :
        (history.next .unblock).info =
          { history.info with deletionBlocks := 0 }.purge
            history.info.pendingDeletions :=
      unblockDeletions_of_last last removable
    have counted :
        Counted { history.info with deletionBlocks := 0 }
          (readsOf history.pending) (writesOf history.pending)
          history.requested :=
      { consistent.toCounted with blocks := Int.le_refl 0 }
    have inMap :
        ∀ version,
          version ∈ idleOf history.info.objects
            history.info.pendingDeletions →
            version ∈ history.info.versions := by
      intro version idle
      have listed := (mem_filter.mp idle).1
      have bound := consistent.listed version listed
      have requestedOld := consistent.requestedOld
      by_cases positive : 1 ≤ version
      · rcases (consistent.created version).mpr (by omega) with
          inMap | inLog
        · exact inMap
        · exact absurd inLog (removable.present version idle)
      · exact absurd (consistent.listedExist version listed) positive
    refine ⟨?_, ?_, ?_⟩
    · rw [shape]
      apply counted.purge removable.distinct inMap
      · exact consistent.listed
      · intro version present isDue
        rcases consistent.due version present isDue with
          inUse | ⟨_, listed⟩
        · exact .inr (.inl inUse)
        · exact .inl listed
      · exact Nat.le_refl _
      · exact consistent.requestedOld
    · exact shape ▸ Nat.le_refl _
    · intro version inLog
      rw [shape] at inLog
      rcases mem_append.mp inLog with before | idle
      · exact .inl before
      · have found := mem_filter.mp idle
        exact .inr ⟨unused_of_idle consistent (inMap version idle)
          (by simpa using found.2), by rw [shape]; rfl⟩
  · have shape :
        (history.next .unblock).info =
          { history.info with
            deletionBlocks := history.info.deletionBlocks - 1 } := by
      have stillBlocked : history.info.deletionBlocks - 1 ≠ 0 := by omega
      simp only [History.next, unblockDeletions]
      rw [if_neg stillBlocked, state_returned]
    refine ⟨?_, ?_, ?_⟩
    · rw [shape]
      exact {
        consistent with
        due := by
          intro version present isDue
          rcases consistent.due version present isDue with
            inUse | ⟨_, listed⟩
          · exact .inl inUse
          · refine .inr ⟨?_, listed⟩
            change 0 < history.info.deletionBlocks - 1
            omega
        blocks := by
          change 0 ≤ history.info.deletionBlocks - 1
          omega }
    · exact shape ▸ Nat.le_refl _
    · intro version inLog
      rw [shape] at inLog
      exact .inl inLog

end

/-!
## Whole histories
-/

theorem Tracked.start (dataId : Nat) : Tracked (.start dataId) where
  consistent := .new dataId
  exist := by simp [History.start]
  written := by simp [History.start]
  updated := by simp [History.start]

/-- A removal is ordered while nothing is blocked and nobody uses the version. -/
structure RemovalSafe (after : History) (version : Nat) : Prop where
  requested : version ≤ after.requested
  unused : Unused after.pending version
  unblocked : after.info.deletionBlocks = 0

/-- One step keeps the invariant, and what it removes is safe to remove. -/
theorem Tracked.step
    {action : DatumAction}
    (tracked : Tracked history)
    (enabled : history.Enabled action)
    (permitted : history.Permitted action) :
    Tracked (history.next action) ∧
      ∀ version, version ∈ (history.next action).info.removals →
        version ∉ history.info.removals →
          Unused (history.next action).pending version ∧
            (history.next action).info.deletionBlocks = 0 := by
  cases action with
  | access mode =>
      have nothingRemoved :
          (history.next (.access mode)).info.removals =
            history.info.removals := by
        cases mode <;> rfl
      refine ⟨?_, ?_⟩
      · cases mode with
        | R => exact tracked.accessRead
        | W => exact tracked.accessWrite
        | RW => exact tracked.accessReadWrite permitted
      · intro version inLog notBefore
        rw [nothingRemoved] at inLog
        exact absurd inLog notBefore
  | finish access =>
      have step := tracked.finish enabled
      refine ⟨tracked.of_removesUnused step ?_, ?_⟩
      · intro other member
        exact mem_of_mem_erase member
      · intro version inLog notBefore
        rcases step.removed version inLog with before | ⟨unused, markedUse⟩
        · exact absurd before notBefore
        · refine ⟨unused, ?_⟩
          rw [markedUse.sameBlocks]
          by_cases blocked : 0 < history.info.deletionBlocks
          · obtain ⟨other, member, uses⟩ := permitted blocked version
              markedUse.present markedUse.marked markedUse.uses
            exact absurd uses (unused other member)
          · have nonneg := tracked.consistent.blocks
            omega
  | delete =>
      have step := tracked.delete
      refine ⟨tracked.of_removesUnused step fun _ member => member, ?_⟩
      intro version inLog notBefore
      exact (step.removed version inLog).resolve_left notBefore
  | block =>
      have step := tracked.block
      refine ⟨tracked.of_removesUnused step fun _ member => member, ?_⟩
      intro version inLog notBefore
      exact absurd inLog notBefore
  | unblock =>
      have step := tracked.unblock enabled permitted
      refine ⟨tracked.of_removesUnused step fun _ member => member, ?_⟩
      intro version inLog notBefore
      exact (step.removed version inLog).resolve_left notBefore

/-- In a quiescent state every requested version has been removed. -/
theorem Tracked.complete
    (tracked : Tracked history)
    (finished : history.pending = [])
    (unblocked : history.info.deletionBlocks = 0)
    (exists_ : 1 ≤ version)
    (requested : version ≤ history.requested) :
    version ∈ history.info.removals := by
  have consistent := tracked.consistent
  have bound := consistent.requestedOld
  rcases (consistent.created version).mpr (by omega) with inMap | inLog
  · rcases consistent.due version inMap requested with inUse | ⟨blocked, _⟩
    · refine absurd ?_ inUse.2
      rw [DataVersion.Idle, consistent.readers version inMap,
        consistent.writters version inMap, finished]
      exact ⟨rfl, rfl⟩
    · omega
  · exact inLog

/--
In every permitted history each version is removed at most once, the removals
of the next step are safe, and nothing requested is left at the end.
-/
theorem versionLifetime_of_permittedRun
    {dataId : Nat}
    {actions : List DatumAction}
    {history : History}
    (run : Run (datumSystem dataId) History.Permitted actions history) :
    history.info.removals.Nodup ∧
    (∀ action, history.Enabled action → history.Permitted action →
      ∀ version, version ∈ (history.next action).info.removals →
        version ∉ history.info.removals →
          RemovalSafe (history.next action) version) ∧
    (history.pending = [] → history.info.deletionBlocks = 0 →
      ∀ version, 1 ≤ version → version ≤ history.requested →
        version ∈ history.info.removals) := by
  have tracked : Tracked history := by
    apply run.invariant (Tracked.start dataId)
    intro state action tracked enabled permitted
    exact (tracked.step enabled permitted).1
  refine ⟨tracked.consistent.removalsNodup, ?_, ?_⟩
  · intro action enabled permitted version inLog notBefore
    obtain ⟨trackedAfter, removed⟩ := tracked.step enabled permitted
    obtain ⟨unused, unblocked⟩ := removed version inLog notBefore
    exact ⟨trackedAfter.consistent.removed version inLog, unused, unblocked⟩
  · intro finished unblocked version exists_ requested
    exact tracked.complete finished unblocked exists_ requested

/-- A datum that is written, deleted, and then finished. -/
theorem versionLifetime_of_permittedRun_written :
    Run (datumSystem 1) History.Permitted [.access .W, .delete]
        (((History.start 1).next (.access .W)).next .delete) ∧
      (((History.start 1).next (.access .W)).next .delete).info.removals.Nodup
    := by
  have registered :
      Run (datumSystem 1) History.Permitted [.access .W]
        ((History.start 1).next (.access .W)) :=
    .snoc .start trivial trivial
  have deleted :
      Run (datumSystem 1) History.Permitted [.access .W, .delete]
        (((History.start 1).next (.access .W)).next .delete) :=
    .snoc registered trivial trivial
  exact ⟨deleted, (versionLifetime_of_permittedRun deleted).1⟩

/-- Unblocking twice carries out one pending deletion twice. -/
theorem not_removedOnce_blockedTwice :
    ¬ ∀ (actions : List DatumAction) (history : History),
      Run (datumSystem 1) anyStep actions history →
        history.info.removals.Nodup := by
  intro once
  let blocked := ((History.start 1).next .block).next .delete
  let unblocked := blocked.next .unblock
  let blockedAgain := unblocked.next .block
  have canUnblock : 0 < blocked.info.deletionBlocks := by
    decide
  have canUnblockAgain : 0 < blockedAgain.info.deletionBlocks := by
    decide
  have run :
      Run (datumSystem 1) anyStep
        [.block, .delete, .unblock, .block, .unblock]
        (blockedAgain.next .unblock) :=
    .snoc (.snoc (.snoc (.snoc (.snoc .start trivial trivial) trivial trivial)
      canUnblock trivial) trivial trivial) canUnblockAgain trivial
  have twice : (blockedAgain.next .unblock).info.removals = [1, 1] := by
    decide
  have nodup := once _ _ run
  rw [twice] at nodup
  exact absurd nodup (by decide)

end DistributedRdf.Engine
