import DistributedRdf.MethodOutcome
import Mathlib.Logic.Function.Basic

namespace DistributedRdf.Engine

open Java

/-!
# The versions of a datum

`DataVersion` counts the accesses registered on one version of a datum,
`DataInfo` owns the versions of the datum and their deletion.  Version objects
are named by their version identifier, so a list of versions is a list of
identifiers and `objects` is the heap they point into.
-/

inductive AccessMode where
  | R
  | W
  | RW
  deriving DecidableEq

structure DataInstanceId where
  dataId : Nat
  versionId : Nat
  deriving DecidableEq

inductive DataAccessId where
  | read (readInstance : DataInstanceId)
  | write (writtenInstance : DataInstanceId)
  | readWrite
      (readInstance writtenInstance : DataInstanceId)
      (preserveSourceData : Bool)
  deriving DecidableEq

namespace DataAccessId

def dataId : DataAccessId → Nat
  | .read instanceId => instanceId.dataId
  | .write instanceId => instanceId.dataId
  | .readWrite instanceId _ _ => instanceId.dataId

/-- The instance the access reads, if it reads. -/
def readInstance? : DataAccessId → Option DataInstanceId
  | .read instanceId => some instanceId
  | .write _ => none
  | .readWrite instanceId _ _ => some instanceId

/-- The instance the access writes, if it writes. -/
def writtenInstance? : DataAccessId → Option DataInstanceId
  | .read _ => none
  | .write instanceId => some instanceId
  | .readWrite _ instanceId _ => some instanceId

end DataAccessId

structure DataVersion where
  readers : Int
  writters : Int
  toDelete : Bool
  deriving DecidableEq

def DataVersion.initial : DataVersion := ⟨0, 0, false⟩

/-- No registered access of the version is unfinished. -/
def DataVersion.Idle (version : DataVersion) : Prop :=
  version.readers = 0 ∧ version.writters = 0
  deriving Decidable

/--
One datum.  `versions` holds the keys of the sorted map, `objects` every
version object ever created, and `removals` the versions handed to
`Comm.removeData` so far.
-/
structure DataInfo where
  dataId : Nat
  currentVersionId : Nat
  objects : Nat → DataVersion
  versions : List Nat
  deletionBlocks : Int
  pendingDeletions : List Nat
  removals : List Nat

namespace DataInfo

def new (dataId : Nat) : DataInfo where
  dataId := dataId
  currentVersionId := 1
  objects := fun _ => .initial
  versions := [1]
  deletionBlocks := 0
  pendingDeletions := []
  removals := []

variable
  (info : DataInfo)
  (versionId : Nat)

def setVersion
    (version : DataVersion) : DataInfo :=
  { info with objects := Function.update info.objects versionId version }

def getCurrentDataInstanceId : DataInstanceId :=
  ⟨info.dataId, info.currentVersionId⟩

def currentVersion : DataVersion :=
  info.objects info.currentVersionId

def willBeRead : DataInfo :=
  info.setVersion info.currentVersionId
    { info.currentVersion with readers := info.currentVersion.readers + 1 }

/-- `hasPendingLectures` of the current version. -/
def isToBeRead : Bool :=
  decide (0 < info.currentVersion.readers)

def willBeWritten : DataInfo :=
  let versionId := info.currentVersionId + 1
  { info.setVersion versionId { DataVersion.initial with writters := 1 } with
    currentVersionId := versionId
    versions := info.versions ++ [versionId] }

/--
`Comm.removeData`: the logical data of a version can be taken out of the
registry once; the second time there is nothing to mark obsolete.
-/
def removeData : Outcome DataInfo Unit :=
  let logged := { info with removals := info.removals ++ [versionId] }
  if versionId ∈ info.removals then
    .raised logged .nullPointer
  else
    .returned logged ()

/-- `DataVersion.checkDeletion` -/
def checkDeletion :
    Outcome DataInfo Bool :=
  let version := info.objects versionId
  if version.toDelete = true ∧ version.Idle then
    (info.removeData versionId).andThen fun info _ => .returned info true
  else
    .returned info false

/-- `DataVersion.hasBeenRead` -/
def hasBeenRead :
    Outcome DataInfo Bool :=
  let version := info.objects versionId
  (info.setVersion versionId
    { version with readers := version.readers - 1 }).checkDeletion versionId

/-- `DataVersion.hasBeenWritten` -/
def hasBeenWritten :
    Outcome DataInfo Bool :=
  let version := info.objects versionId
  (info.setVersion versionId
    { version with writters := version.writters - 1 }).checkDeletion versionId

/-- `DataVersion.delete` -/
def deleteVersion :
    Outcome DataInfo Bool :=
  let version := info.objects versionId
  let marked := info.setVersion versionId { version with toDelete := true }
  if version.Idle then
    (marked.removeData versionId).andThen fun info _ => .returned info true
  else
    .returned marked false

/-- `versions.remove(versionId)` -/
def dropVersion : DataInfo :=
  { info with versions := info.versions.filter (· ≠ versionId) }

/-- Takes a version out of the map when its removal was ordered. -/
def dropIf (info : DataInfo) (deleted : Bool) :
    Outcome DataInfo Bool :=
  if deleted then
    .returned (info.dropVersion versionId)
      (info.dropVersion versionId).versions.isEmpty
  else
    .returned info false

/-- `versions.get` yields null for a version that was removed. -/
def versionHasBeenRead :
    Outcome DataInfo Bool :=
  if versionId ∈ info.versions then
    (info.hasBeenRead versionId).andThen (dropIf versionId)
  else
    .raised info .nullPointer

def versionHasBeenWritten :
    Outcome DataInfo Bool :=
  if versionId ∈ info.versions then
    (info.hasBeenWritten versionId).andThen (dropIf versionId)
  else
    .raised info .nullPointer

def blockDeletions : DataInfo :=
  { info with deletionBlocks := info.deletionBlocks + 1 }

/-- The loop of `unblockDeletions` over the pending deletions. -/
def deletePending (info : DataInfo) : List Nat → Outcome DataInfo Unit
  | [] => .returned info ()
  | versionId :: rest =>
      (info.deleteVersion versionId).andThen fun info deleted =>
        deletePending
          (if deleted then info.dropVersion versionId else info) rest

def unblockDeletions : Outcome DataInfo Bool :=
  let unblocked := { info with deletionBlocks := info.deletionBlocks - 1 }
  if unblocked.deletionBlocks = 0 then
    (unblocked.deletePending unblocked.pendingDeletions).andThen fun info _ =>
      .returned info info.versions.isEmpty
  else
    .returned unblocked false

/-- The loop of `delete` over the versions, collecting the removed ones. -/
def deleteEach (info : DataInfo) :
    List Nat → List Nat → Outcome DataInfo (List Nat)
  | removedVersions, [] => .returned info removedVersions
  | removedVersions, versionId :: rest =>
      (info.deleteVersion versionId).andThen fun info deleted =>
        info.deleteEach
          (if deleted then removedVersions ++ [versionId]
            else removedVersions) rest

def delete : Outcome DataInfo Bool :=
  if 0 < info.deletionBlocks then
    .returned
      { info with pendingDeletions := info.pendingDeletions ++ info.versions }
      false
  else
    (info.deleteEach [] info.versions).andThen fun info removedVersions =>
      let info := removedVersions.foldl dropVersion info
      .returned info info.versions.isEmpty

def isCurrentVersionToDelete : Bool :=
  info.currentVersion.toDelete

/-- `DataInfoProvider.willAccess` -/
def willAccess (mode : AccessMode) (info : DataInfo) :
    DataInfo × DataAccessId :=
  match mode with
  | .R =>
      let info := info.willBeRead
      (info, .read info.getCurrentDataInstanceId)
  | .W =>
      let info := info.willBeWritten
      (info, .write info.getCurrentDataInstanceId)
  | .RW =>
      let preserveSourceData := info.isToBeRead
      let info := info.willBeRead
      let readInstance := info.getCurrentDataInstanceId
      let info := info.willBeWritten
      (info, .readWrite readInstance info.getCurrentDataInstanceId
        preserveSourceData)

/-- The switch of `DataInfoProvider.dataHasBeenAccessed`. -/
def hasBeenAccessed (access : DataAccessId) :
    Outcome DataInfo Bool :=
  match access with
  | .read readInstance => info.versionHasBeenRead readInstance.versionId
  | .write writtenInstance =>
      info.versionHasBeenWritten writtenInstance.versionId
  | .readWrite readInstance writtenInstance _ =>
      (info.versionHasBeenRead readInstance.versionId).andThen fun info _ =>
        info.versionHasBeenWritten writtenInstance.versionId

end DataInfo

end DistributedRdf.Engine
