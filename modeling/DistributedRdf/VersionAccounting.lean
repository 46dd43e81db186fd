import DistributedRdf.DataVersions
import Mathlib.Data.List.Nodup

namespace DistributedRdf.Engine

open Java Function List DataVersion Outcome

/-!
# Accounting of the versions of a datum

First what the operations of `DataInfo` do to the datum when no version is
removed a second time.  Then the invariant that ties the counters, the marks and
the removals of a datum to the accesses that have not finished.
-/

namespace DataInfo

/-!
## What the operations do to a datum
-/

variable (info : DataInfo)

def leaveReader (versionId : Nat) : DataInfo :=
  info.setVersion versionId
    { info.objects versionId with
      readers := (info.objects versionId).readers - 1 }

def leaveWriter (versionId : Nat) : DataInfo :=
  info.setVersion versionId
    { info.objects versionId with
      writters := (info.objects versionId).writters - 1 }

/-- The versions of the list that nobody uses. -/
def idleOf
    (objects : Nat → DataVersion)
    (versionIds : List Nat) : List Nat :=
  versionIds.filter fun versionId => (objects versionId).Idle

def markAll
    (objects : Nat → DataVersion)
    (versionIds : List Nat) : Nat → DataVersion :=
  fun versionId =>
    if versionId ∈ versionIds then
      { objects versionId with toDelete := true }
    else
      objects versionId

/-- Requests the deletion of the versions and removes the idle ones. -/
def purge (versionIds : List Nat) : DataInfo :=
  { info with
    objects := markAll info.objects versionIds
    removals := info.removals ++ idleOf info.objects versionIds
    versions := info.versions.filter (· ∉ idleOf info.objects versionIds) }

/-- Removes a version whose deletion was requested, if nobody uses it. -/
def settle (versionId : Nat) : DataInfo :=
  if (info.objects versionId).toDelete = true then
    info.purge [versionId]
  else
    info

variable
  {versionId : Nat}
  {info}

theorem removeData_of_not_mem
    (notRemoved : versionId ∉ info.removals) :
    info.removeData versionId =
      .returned { info with removals := info.removals ++ [versionId] } () := by
  simp [removeData, notRemoved]

variable {objects : Nat → DataVersion}

theorem markAll_of_marked
    (marked : (objects versionId).toDelete = true) :
    markAll objects [versionId] = objects := by
  funext other
  by_cases same : other = versionId
  · subst other
    cases version : objects versionId
    simp_all [markAll]
  · simp [markAll, same]

theorem checkDeletion_andThen_dropIf
    (notRemoved : versionId ∉ info.removals) :
    ∃ empty,
      (info.checkDeletion versionId).andThen (dropIf versionId) =
        .returned (info.settle versionId) empty := by
  by_cases marked : (info.objects versionId).toDelete = true
  · by_cases idle : (info.objects versionId).Idle
    · simp [checkDeletion, settle, marked, idle, dropVersion, dropIf, purge,
        removeData_of_not_mem notRemoved, markAll_of_marked marked, idleOf]
    · simp [checkDeletion, settle, marked, idle, dropIf, purge,
        markAll_of_marked marked, idleOf]
  · simp [checkDeletion, settle, marked, dropIf]

variable
  (info)
  (versionId)

@[simp] theorem settle_objects :
    (info.settle versionId).objects = info.objects := by
  by_cases marked : (info.objects versionId).toDelete = true
  · simp [settle, marked, purge, markAll_of_marked marked]
  · simp [settle, marked]

@[simp] theorem settle_deletionBlocks :
    (info.settle versionId).deletionBlocks = info.deletionBlocks := by
  simp only [settle, purge]
  split <;> rfl

@[simp] theorem settle_currentVersionId :
    (info.settle versionId).currentVersionId = info.currentVersionId := by
  simp only [settle, purge]
  split <;> rfl

variable
  {info}
  {versionId}

/-- Settling removes nothing but a marked, idle version. -/
theorem mem_removals_settle
    {versionId version : Nat}
    (removed : version ∈ (info.settle versionId).removals) :
    version ∈ info.removals ∨
      (version = versionId ∧ (info.objects versionId).toDelete = true ∧
        (info.objects versionId).Idle) := by
  by_cases marked : (info.objects versionId).toDelete = true
  · by_cases idle : (info.objects versionId).Idle
    · simpa [settle, purge, marked, idleOf, idle] using removed
    · simpa [settle, purge, marked, idleOf, idle] using removed
  · simpa [settle, marked] using removed

theorem versionHasBeenRead_eq
    (present : versionId ∈ info.versions)
    (notRemoved : versionId ∉ info.removals) :
    ∃ empty,
      info.versionHasBeenRead versionId =
        .returned ((info.leaveReader versionId).settle versionId) empty := by
  have stillNotRemoved :
      versionId ∉ (info.leaveReader versionId).removals := notRemoved
  rw [versionHasBeenRead, if_pos present]
  exact checkDeletion_andThen_dropIf stillNotRemoved

theorem versionHasBeenWritten_eq
    (present : versionId ∈ info.versions)
    (notRemoved : versionId ∉ info.removals) :
    ∃ empty,
      info.versionHasBeenWritten versionId =
        .returned ((info.leaveWriter versionId).settle versionId) empty := by
  have stillNotRemoved :
      versionId ∉ (info.leaveWriter versionId).removals := notRemoved
  rw [versionHasBeenWritten, if_pos present]
  exact checkDeletion_andThen_dropIf stillNotRemoved

variable {versionIds : List Nat}

@[simp] theorem idle_markAll :
    (markAll objects versionIds versionId).Idle ↔
      (objects versionId).Idle := by
  by_cases listed : versionId ∈ versionIds
  · simp [markAll, listed, DataVersion.Idle]
  · simp [markAll, listed]

variable (objects)

@[simp] theorem idleOf_markAll
    (marked versionIds : List Nat) :
    idleOf (markAll objects marked) versionIds =
      idleOf objects versionIds := by
  simp [idleOf]

theorem markAll_cons
    (versionId : Nat)
    (rest : List Nat) :
    markAll (markAll objects [versionId]) rest =
      markAll objects (versionId :: rest) := by
  funext other
  by_cases first : other = versionId
  · by_cases later : other ∈ rest
    · simp [markAll, first]
    · simp [markAll, first]
  · by_cases later : other ∈ rest
    · simp [markAll, first, later]
    · simp [markAll, first, later]

variable {objects}

/-- `delete` of one version marks it, and removes it when it is idle. -/
theorem deleteVersion_eq
    (notRemoved : (info.objects versionId).Idle →
      versionId ∉ info.removals) :
    info.deleteVersion versionId =
      .returned
        { info with
          objects := markAll info.objects [versionId]
          removals := info.removals ++ idleOf info.objects [versionId] }
        (decide (info.objects versionId).Idle) := by
  have marked :
      update info.objects versionId
          { info.objects versionId with toDelete := true } =
        markAll info.objects [versionId] := by
    funext other
    by_cases same : other = versionId
    · subst other
      simp [markAll]
    · simp [markAll, same]
  by_cases idle : (info.objects versionId).Idle
  · simp [deleteVersion, idle, removeData, setVersion, marked,
      notRemoved idle, idleOf]
  · simp [deleteVersion, idle, setVersion, marked, idleOf]

/-- The loops of `delete` and of `unblockDeletions` need distinct versions. -/
structure Removable (info : DataInfo) (versionIds : List Nat) : Prop where
  distinct : (idleOf info.objects versionIds).Nodup
  present : ∀ versionId, versionId ∈ idleOf info.objects versionIds →
    versionId ∉ info.removals

variable {rest : List Nat}

theorem Removable.head
    (removable : info.Removable (versionId :: rest))
    (idle : (info.objects versionId).Idle) :
    versionId ∉ info.removals :=
  removable.present versionId (by simp [idleOf, idle])

theorem Removable.tail
    {info other : DataInfo}
    (removable : info.Removable (versionId :: rest))
    (objects : other.objects = markAll info.objects [versionId])
    (removals :
      other.removals = info.removals ++ idleOf info.objects [versionId]) :
    other.Removable rest := by
  have sameIdle :
      idleOf other.objects rest = idleOf info.objects rest := by
    rw [objects, idleOf_markAll]
  by_cases idle : (info.objects versionId).Idle
  · have split :
        idleOf info.objects (versionId :: rest) = versionId :: idleOf info.objects rest := by
      simp [idleOf, idle]
    have distinct := removable.distinct
    rw [split, nodup_cons] at distinct
    refine ⟨by rw [sameIdle]; exact distinct.2, ?_⟩
    intro later member
    rw [sameIdle] at member
    have notRemoved := removable.present later (by rw [split]; simp [member])
    have different : later ≠ versionId := by
      intro same
      exact distinct.1 (same ▸ member)
    simp [removals, idleOf, idle, notRemoved, different]
  · have split : idleOf info.objects (versionId :: rest) = idleOf info.objects rest := by
      simp [idleOf, idle]
    refine ⟨by rw [sameIdle, ← split]; exact removable.distinct, ?_⟩
    intro later member
    rw [sameIdle, ← split] at member
    simpa [removals, idleOf, idle] using removable.present later member

theorem idleOf_cons
    (objects : Nat → DataVersion)
    (versionId : Nat)
    (rest : List Nat) :
    idleOf objects (versionId :: rest) =
      idleOf objects [versionId] ++ idleOf objects rest := by
  rw [idleOf, idleOf, idleOf, ← filter_append, singleton_append]

/-- The loop of `delete`. -/
theorem deleteEach_eq
    (removable : info.Removable versionIds)
    (removedVersions : List Nat) :
    info.deleteEach removedVersions versionIds =
      .returned
        { info with
          objects := markAll info.objects versionIds
          removals := info.removals ++ idleOf info.objects versionIds }
        (removedVersions ++ idleOf info.objects versionIds) := by
  induction versionIds generalizing info removedVersions with
  | nil =>
      have unmarked : markAll info.objects [] = info.objects := by
        funext other
        simp [markAll]
      simp [deleteEach, idleOf, unmarked]
  | cons versionId rest hypothesis =>
      rw [deleteEach, deleteVersion_eq removable.head,
        andThen_returned,
        hypothesis (removable.tail rfl rfl),
        idleOf_cons info.objects versionId rest]
      by_cases idle : (info.objects versionId).Idle
      · simp [idle, markAll_cons, idleOf]
      · simp [idle, markAll_cons, idleOf]

/-- The loop of `unblockDeletions`. -/
theorem deletePending_eq
    (removable : info.Removable versionIds) :
    info.deletePending versionIds = .returned (info.purge versionIds) () := by
  induction versionIds generalizing info with
  | nil =>
      have unmarked : markAll info.objects [] = info.objects := by
        funext other
        simp [markAll]
      simp [deletePending, purge, idleOf, unmarked]
  | cons versionId rest hypothesis =>
      rw [deletePending, deleteVersion_eq removable.head,
        andThen_returned]
      by_cases idle : (info.objects versionId).Idle
      · rw [if_pos (by simp [idle]),
          hypothesis (removable.tail rfl rfl)]
        simp only [purge, dropVersion, idleOf_cons info.objects versionId rest,
          idleOf_markAll, markAll_cons, append_assoc, filter_filter]
        simp [idleOf, idle, Bool.and_comm]
      · rw [if_neg (by simp [idle]),
          hypothesis (removable.tail rfl rfl)]
        simp only [purge, idleOf_cons info.objects versionId rest,
          idleOf_markAll, markAll_cons, append_assoc]
        simp [idleOf, idle]

theorem foldl_dropVersion
    (info : DataInfo)
    (removedVersions : List Nat) :
    removedVersions.foldl dropVersion info =
      { info with
        versions := info.versions.filter (· ∉ removedVersions) } := by
  induction removedVersions generalizing info with
  | nil => simp
  | cons versionId rest hypothesis =>
      rw [foldl_cons, hypothesis]
      simp [dropVersion, filter_filter, Bool.and_comm]

/-- An unblocked `delete` purges all versions of the datum. -/
theorem delete_of_unblocked
    (unblocked : ¬ 0 < info.deletionBlocks)
    (removable : info.Removable info.versions) :
    info.delete.state = info.purge info.versions := by
  rw [delete, if_neg unblocked, deleteEach_eq removable]
  simp [foldl_dropVersion, purge]

/-- The last unblocking purges the pending deletions. -/
theorem unblockDeletions_of_last
    (last : info.deletionBlocks = 1)
    (removable : info.Removable info.pendingDeletions) :
    info.unblockDeletions.state =
      { info with deletionBlocks := 0 }.purge info.pendingDeletions := by
  have removableAfter :
      { info with deletionBlocks := 0 }.Removable info.pendingDeletions :=
    ⟨removable.distinct, removable.present⟩
  simp [unblockDeletions, last, deletePending_eq removableAfter]

end DataInfo

/-!
## The invariant of a datum

`reads` and `writes` count the unfinished accesses of every version.
-/

/-- A datum whose counters agree with the unfinished accesses. -/
structure Counted
    (info : DataInfo)
    (reads writes : Nat → Int)
    (requested : Nat) : Prop where
  created :
    ∀ version, version ∈ info.versions ∨ version ∈ info.removals ↔
      1 ≤ version ∧ version ≤ info.currentVersionId
  disjoint :
    ∀ version, version ∈ info.versions → version ∉ info.removals
  versionsNodup : info.versions.Nodup
  removalsNodup : info.removals.Nodup
  readers :
    ∀ version, version ∈ info.versions →
      (info.objects version).readers = reads version
  writters :
    ∀ version, version ∈ info.versions →
      (info.objects version).writters = writes version
  marked :
    ∀ version, (info.objects version).toDelete = true → version ≤ requested
  removed :
    ∀ version, version ∈ info.removals → version ≤ requested
  listed :
    ∀ version, version ∈ info.pendingDeletions → version ≤ requested
  listedExist :
    ∀ version, version ∈ info.pendingDeletions → 1 ≤ version
  requestedOld : requested ≤ info.currentVersionId
  blocks : 0 ≤ info.deletionBlocks

def DataInfo.InUseMarked (info : DataInfo) (version : Nat) : Prop :=
  (info.objects version).toDelete = true ∧ ¬ (info.objects version).Idle

/--
Deletion has been requested for the versions up to `requested`: each of them is
removed, or marked and in use, or listed for the end of the blocking.
-/
structure Consistent
    (info : DataInfo)
    (reads writes : Nat → Int)
    (requested : Nat) : Prop
    extends Counted info reads writes requested where
  due :
    ∀ version, version ∈ info.versions → version ≤ requested →
      info.InUseMarked version ∨
      (0 < info.deletionBlocks ∧ version ∈ info.pendingDeletions)

variable
  {info : DataInfo}
  {reads writes : Nat → Int}
  {requested : Nat}

theorem Consistent.new (dataId : Nat) :
    Consistent (.new dataId) (fun _ => 0) (fun _ => 0) 0 where
  created := by
    intro version
    simp only [DataInfo.new, mem_singleton, not_mem_nil, or_false]
    omega
  disjoint := by simp [DataInfo.new]
  versionsNodup := by simp [DataInfo.new]
  removalsNodup := by simp [DataInfo.new]
  readers := by simp [DataInfo.new, initial]
  writters := by simp [DataInfo.new, initial]
  marked := by simp [DataInfo.new, initial]
  removed := by simp [DataInfo.new]
  listed := by simp [DataInfo.new]
  listedExist := by simp [DataInfo.new]
  due := by
    intro version inMap isDue
    rw [mem_singleton.mp inMap] at isDue
    omega
  requestedOld := by simp
  blocks := by simp [DataInfo.new]

/-- Only the counts of the versions in the map matter. -/
theorem Consistent.congr
    {otherReads otherWrites : Nat → Int}
    (consistent : Consistent info reads writes requested)
    (sameReads :
      ∀ version, version ∈ info.versions →
        otherReads version = reads version)
    (sameWrites :
      ∀ version, version ∈ info.versions →
        otherWrites version = writes version) :
    Consistent info otherReads otherWrites requested :=
  { consistent with
    readers := by
      intro version present
      rw [consistent.readers version present, sameReads version present]
    writters := by
      intro version present
      rw [consistent.writters version present, sameWrites version present] }

variable
  {versionId : Nat}
  {version : DataVersion}

/-- Changes the counters of one version. -/
theorem Counted.recount
    (counted : Counted info reads writes requested)
    (sameMark : version.toDelete = (info.objects versionId).toDelete) :
    Counted (info.setVersion versionId version)
      (update reads versionId version.readers)
      (update writes versionId version.writters) requested :=
  { counted with
    readers := by
      intro other inMap
      by_cases same : other = versionId
      · simp [DataInfo.setVersion, same]
      · simpa [DataInfo.setVersion, same] using counted.readers other inMap
    writters := by
      intro other inMap
      by_cases same : other = versionId
      · simp [DataInfo.setVersion, same]
      · simpa [DataInfo.setVersion, same] using counted.writters other inMap
    marked := by
      intro other isMarked
      by_cases same : other = versionId
      · subst other
        simp only [DataInfo.setVersion, update_self, sameMark]
          at isMarked
        exact counted.marked versionId isMarked
      · simp only [DataInfo.setVersion, update_of_ne same]
          at isMarked
        exact counted.marked other isMarked }

/-- Requesting the deletion of all due versions makes the datum consistent. -/
theorem Counted.purge
    {versionIds : List Nat}
    {newRequested : Nat}
    (counted : Counted info reads writes requested)
    (distinct : (DataInfo.idleOf info.objects versionIds).Nodup)
    (present :
      ∀ version, version ∈ DataInfo.idleOf info.objects versionIds →
        version ∈ info.versions)
    (listedOld : ∀ version, version ∈ versionIds → version ≤ newRequested)
    (covered :
      ∀ version, version ∈ info.versions → version ≤ newRequested →
        version ∈ versionIds ∨ info.InUseMarked version ∨
          (0 < info.deletionBlocks ∧ version ∈ info.pendingDeletions))
    (later : requested ≤ newRequested)
    (newRequestedOld : newRequested ≤ info.currentVersionId) :
    Consistent (info.purge versionIds) reads writes newRequested where
  created := by
    intro version
    have before := counted.created version
    simp only [DataInfo.purge, mem_filter, decide_eq_true_eq,
      mem_append]
    rw [← before]
    by_cases idle : version ∈ DataInfo.idleOf info.objects versionIds
    · simp [idle, present version idle]
    · simp [idle]
  disjoint := by
    intro version inMap
    simp only [DataInfo.purge, mem_filter, decide_eq_true_eq,
      mem_append] at inMap ⊢
    simp [inMap.2, counted.disjoint version inMap.1]
  versionsNodup := counted.versionsNodup.filter _
  removalsNodup := by
    simp only [DataInfo.purge, nodup_append]
    refine ⟨counted.removalsNodup, distinct, ?_⟩
    intro version inLog other idle same
    subst other
    exact counted.disjoint version (present version idle) inLog
  readers := by
    intro version inMap
    rw [← counted.readers version (mem_filter.mp inMap).1]
    simp only [DataInfo.purge, DataInfo.markAll]
    split <;> rfl
  writters := by
    intro version inMap
    rw [← counted.writters version (mem_filter.mp inMap).1]
    simp only [DataInfo.purge, DataInfo.markAll]
    split <;> rfl
  marked := by
    intro version isMarked
    by_cases inList : version ∈ versionIds
    · exact listedOld version inList
    · simp only [DataInfo.purge, DataInfo.markAll, if_neg inList] at isMarked
      exact Nat.le_trans (counted.marked version isMarked) later
  removed := by
    intro version inLog
    rcases mem_append.mp inLog with before | idle
    · exact Nat.le_trans (counted.removed version before) later
    · exact listedOld version (mem_filter.mp idle).1
  listed := by
    intro version inList
    exact Nat.le_trans (counted.listed version inList) later
  listedExist := counted.listedExist
  due := by
    intro version inMap isDue
    simp only [DataInfo.purge, mem_filter, decide_eq_true_eq] at inMap
    have idleStill :
        ((info.purge versionIds).objects version).Idle →
          (info.objects version).Idle := by
      intro idle
      simpa [DataInfo.purge] using idle
    rcases covered version inMap.1 isDue with inList | inUse | blocked
    · refine .inl ⟨by simp [DataInfo.purge, DataInfo.markAll, inList], ?_⟩
      intro idle
      exact inMap.2
        (mem_filter.mpr ⟨inList, by simpa using idleStill idle⟩)
    · refine .inl ⟨?_, fun idle => inUse.2 (idleStill idle)⟩
      simp only [DataInfo.purge, DataInfo.markAll]
      split
      · rfl
      · exact inUse.1
    · exact .inr blocked
  requestedOld := newRequestedOld
  blocks := counted.blocks

variable (consistent : Consistent info reads writes requested)

include consistent

section

variable (present : versionId ∈ info.versions)

include present

/-- An access of one version finishes. -/
theorem Consistent.settle
    (sameMark : version.toDelete = (info.objects versionId).toDelete) :
    Consistent ((info.setVersion versionId version).settle versionId)
      (update reads versionId version.readers)
      (update writes versionId version.writters) requested := by
  have counted := consistent.toCounted.recount sameMark
  have dueElsewhere :
      ∀ other, other ∈ info.versions → other ≤ requested →
        other ≠ versionId →
          (info.setVersion versionId version).InUseMarked other ∨
          (0 < info.deletionBlocks ∧ other ∈ info.pendingDeletions) := by
    intro other inMap isDue different
    have before := consistent.due other inMap isDue
    simpa [DataInfo.InUseMarked, DataInfo.setVersion, different] using before
  by_cases isMarked : version.toDelete = true
  · have shape :
        (info.setVersion versionId version).settle versionId =
          (info.setVersion versionId version).purge [versionId] := by
      simp [DataInfo.settle, DataInfo.setVersion, isMarked]
    rw [shape]
    apply counted.purge
    · exact (nodup_singleton versionId).filter _
    · intro other idle
      rw [mem_singleton.mp (mem_filter.mp idle).1]
      exact present
    · intro other inList
      rw [mem_singleton.mp inList]
      exact consistent.marked versionId (sameMark ▸ isMarked)
    · intro other inMap isDue
      by_cases same : other = versionId
      · exact .inl (by simp [same])
      · exact .inr (dueElsewhere other inMap isDue same)
    · exact Nat.le_refl requested
    · exact consistent.requestedOld
  · have shape :
        (info.setVersion versionId version).settle versionId =
          info.setVersion versionId version := by
      simp [DataInfo.settle, DataInfo.setVersion, isMarked]
    rw [shape]
    refine { counted with due := ?_ }
    intro other inMap isDue
    by_cases same : other = versionId
    · subst other
      have before := consistent.due versionId inMap isDue
      rw [DataInfo.InUseMarked, ← sameMark] at before
      exact .inr (before.resolve_left fun inUse => isMarked inUse.1)
    · exact dueElsewhere other inMap isDue same

theorem Consistent.leaveReader :
    Consistent ((info.leaveReader versionId).settle versionId)
      (update reads versionId (reads versionId - 1)) writes
      requested := by
  have sameWrites :
      update writes versionId (info.objects versionId).writters =
        writes := by
    rw [consistent.writters versionId present, update_eq_self]
  rw [← consistent.readers versionId present, ← sameWrites]
  exact consistent.settle present rfl

theorem Consistent.leaveWriter :
    Consistent ((info.leaveWriter versionId).settle versionId)
      reads (update writes versionId (writes versionId - 1))
      requested := by
  have sameReads :
      update reads versionId (info.objects versionId).readers =
        reads := by
    rw [consistent.readers versionId present, update_eq_self]
  rw [← consistent.writters versionId present, ← sameReads]
  exact consistent.settle present rfl

end

/-- A finishing reader removes at most the version it read. -/
theorem Consistent.removed_leaveReader
    {versionId version : Nat}
    (present : versionId ∈ info.versions)
    (removed :
      version ∈ ((info.leaveReader versionId).settle versionId).removals) :
    version ∈ info.removals ∨
      (version = versionId ∧ (info.objects versionId).toDelete = true ∧
        reads versionId = 1 ∧ writes versionId = 0) := by
  rcases DataInfo.mem_removals_settle removed with
    before | ⟨same, marked, idle⟩
  · exact .inl before
  · simp only [DataInfo.leaveReader, DataInfo.setVersion,
      update_self, DataVersion.Idle,
      consistent.readers versionId present,
      consistent.writters versionId present] at marked idle
    exact .inr ⟨same, marked, by omega, idle.2⟩

theorem Consistent.removed_leaveWriter
    {versionId version : Nat}
    (present : versionId ∈ info.versions)
    (removed :
      version ∈ ((info.leaveWriter versionId).settle versionId).removals) :
    version ∈ info.removals ∨
      (version = versionId ∧ (info.objects versionId).toDelete = true ∧
        reads versionId = 0 ∧ writes versionId = 1) := by
  rcases DataInfo.mem_removals_settle removed with
    before | ⟨same, marked, idle⟩
  · exact .inl before
  · simp only [DataInfo.leaveWriter, DataInfo.setVersion,
      update_self, DataVersion.Idle,
      consistent.readers versionId present,
      consistent.writters versionId present] at marked idle
    exact .inr ⟨same, marked, idle.1, by omega⟩

/-- A new reader of the current version. -/
theorem Consistent.willBeRead
    (someReads : ∀ version, 0 ≤ reads version) :
    Consistent info.willBeRead
      (update reads info.currentVersionId
        (reads info.currentVersionId + 1)) writes requested := by
  let current := info.currentVersionId
  have counted :
      Counted info.willBeRead
        (update reads current ((info.objects current).readers + 1))
        (update writes current (info.objects current).writters)
        requested :=
    consistent.toCounted.recount rfl
  have withDue :
      Consistent info.willBeRead
        (update reads current ((info.objects current).readers + 1))
        (update writes current (info.objects current).writters)
        requested := by
    refine { counted with due := ?_ }
    intro version inMap isDue
    have before := consistent.due version inMap isDue
    by_cases same : version = current
    · subst version
      rcases before with inUse | blocked
      · refine .inl ⟨?_, ?_⟩
        · simpa [DataInfo.willBeRead, DataInfo.setVersion,
            DataInfo.currentVersion, current] using inUse.1
        · intro idle
          have someReaders := someReads current
          rw [← consistent.readers current inMap] at someReaders
          simp only [DataInfo.willBeRead, DataInfo.setVersion,
            DataInfo.currentVersion, current, update_self,
            DataVersion.Idle] at idle someReaders
          omega
      · exact .inr blocked
    · simpa [DataInfo.InUseMarked, DataInfo.willBeRead, DataInfo.setVersion,
        DataInfo.currentVersion, current, same] using before
  apply withDue.congr
  · intro version inMap
    by_cases same : version = current
    · rw [same] at inMap ⊢
      simp [current, consistent.readers current inMap]
    · simp [current] at same ⊢
      simp [same]
  · intro version inMap
    by_cases same : version = current
    · rw [same] at inMap ⊢
      simp [consistent.writters current inMap]
    · simp [same]

/-- A new version with its writer. -/
theorem Consistent.willBeWritten :
    Consistent info.willBeWritten
      (update reads (info.currentVersionId + 1) 0)
      (update writes (info.currentVersionId + 1) 1) requested := by
  let fresh := info.currentVersionId + 1
  have notCreated : ¬ (fresh ∈ info.versions ∨ fresh ∈ info.removals) := by
    intro created
    have bound := (consistent.created fresh).mp created
    omega
  have notInMap : fresh ∉ info.versions := fun inMap => notCreated (.inl inMap)
  have notLogged : fresh ∉ info.removals := fun inLog => notCreated (.inr inLog)
  have old :
      ∀ version, version ∈ info.versions → version ≠ fresh := by
    intro version inMap same
    exact notInMap (same ▸ inMap)
  exact {
    created := by
      intro version
      have before := consistent.created version
      simp only [DataInfo.willBeWritten, DataInfo.setVersion,
        mem_append, mem_singleton]
      constructor
      · intro member
        rcases member with (inMap | isFresh) | inLog
        · have bound := before.mp (.inl inMap)
          omega
        · omega
        · have bound := before.mp (.inr inLog)
          omega
      · intro bound
        by_cases isFresh : version = info.currentVersionId + 1
        · exact .inl (.inr isFresh)
        · rcases before.mpr (by omega) with inMap | inLog
          · exact .inl (.inl inMap)
          · exact .inr inLog
    disjoint := by
      intro version inMap
      rcases mem_append.mp inMap with before | isFresh
      · exact consistent.disjoint version before
      · rw [mem_singleton.mp isFresh]
        exact notLogged
    versionsNodup := by
      refine nodup_append.mpr
        ⟨consistent.versionsNodup, nodup_singleton _, ?_⟩
      intro version inMap other isFresh
      rw [mem_singleton.mp isFresh]
      exact old version inMap
    removalsNodup := consistent.removalsNodup
    readers := by
      intro version inMap
      rcases mem_append.mp inMap with before | isFresh
      · have different := old version before
        simpa [DataInfo.willBeWritten, DataInfo.setVersion, different, fresh]
          using consistent.readers version before
      · rw [mem_singleton.mp isFresh]
        simp [DataInfo.willBeWritten, DataInfo.setVersion,
          initial]
    writters := by
      intro version inMap
      rcases mem_append.mp inMap with before | isFresh
      · have different := old version before
        simpa [DataInfo.willBeWritten, DataInfo.setVersion, different, fresh]
          using consistent.writters version before
      · rw [mem_singleton.mp isFresh]
        simp [DataInfo.willBeWritten, DataInfo.setVersion]
    marked := by
      intro version isMarked
      by_cases isFresh : version = fresh
      · subst version
        simp [DataInfo.willBeWritten, DataInfo.setVersion, fresh,
          initial] at isMarked
      · have before : (info.objects version).toDelete = true := by
          simpa [DataInfo.willBeWritten, DataInfo.setVersion, fresh, isFresh]
            using isMarked
        exact consistent.marked version before
    removed := consistent.removed
    listed := consistent.listed
    listedExist := consistent.listedExist
    due := by
      intro version inMap isDue
      rcases mem_append.mp inMap with before | isFresh
      · have different := old version before
        simpa [DataInfo.InUseMarked, DataInfo.willBeWritten,
          DataInfo.setVersion, different, fresh]
          using consistent.due version before isDue
      · rw [mem_singleton.mp isFresh] at isDue
        have bound := consistent.requestedOld
        omega
    requestedOld := Nat.le_succ_of_le consistent.requestedOld
    blocks := consistent.blocks }

end DistributedRdf.Engine
