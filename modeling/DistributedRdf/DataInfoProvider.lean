import DistributedRdf.DataVersions
import Mathlib.Data.List.AList

namespace DistributedRdf.Engine

open Java

/-!
# The data registered by the application

`DataInfoProvider` numbers the files and objects that tasks use and registers
the accesses to them.  A file is found by its location key, an object by its
code; a persistent object is registered like any other object.
-/

abbrev JavaMap (κ : Type u) (ν : Type v) := AList fun _ : κ => ν

/-- A file location, as far as the provider looks at it. -/
structure DataLocation where
  locationKey : List Char
  /-- The last component of its path. -/
  fileName : List Char
  deriving DecidableEq

/-- A `DataInfo`; a `FileInfo` also keeps the original location. -/
structure Datum where
  info : DataInfo
  originalLocation : Option DataLocation

structure DataInfoProvider where
  nameToId : JavaMap (List Char) Nat
  codeToId : JavaMap Int Nat
  idToData : JavaMap Nat Datum
  /-- The static counter of `DataInfo`. -/
  nextDataId : Nat

namespace DataInfoProvider

def new : DataInfoProvider where
  nameToId := ∅
  codeToId := ∅
  idToData := ∅
  nextDataId := 1

variable
  (provider : DataInfoProvider)
  (dataId : Nat)

def setInfo
    (datum : Datum)
    (info : DataInfo) : DataInfoProvider :=
  { provider with
    idToData := provider.idToData.insert dataId { datum with info := info } }

/-- `willAccess` on the datum with the given identifier. -/
def willAccess
    (provider : DataInfoProvider)
    (mode : AccessMode)
    (dataId : Nat) : Outcome DataInfoProvider DataAccessId :=
  match provider.idToData.lookup dataId with
  | some datum =>
      let registered := datum.info.willAccess mode
      .returned (provider.setInfo dataId datum registered.1) registered.2
  | none => .raised provider .nullPointer

/-- A new datum, the first time its name or code is seen. -/
def addData
    (originalLocation : Option DataLocation) : DataInfoProvider :=
  { provider with
    idToData := provider.idToData.insert provider.nextDataId
      ⟨.new provider.nextDataId, originalLocation⟩
    nextDataId := provider.nextDataId + 1 }

variable
  (mode : AccessMode)
  (location : DataLocation)

def registerFileAccess : Outcome DataInfoProvider DataAccessId :=
  match provider.nameToId.lookup location.locationKey with
  | some fileId => provider.willAccess mode fileId
  | none =>
      let fileId := provider.nextDataId
      { provider.addData (some location) with
        nameToId := provider.nameToId.insert location.locationKey fileId
      }.willAccess mode fileId

def registerObjectAccess
    (code : Int) : Outcome DataInfoProvider DataAccessId :=
  match provider.codeToId.lookup code with
  | some aoId => provider.willAccess mode aoId
  | none =>
      let aoId := provider.nextDataId
      { provider.addData none with
        codeToId := provider.codeToId.insert code aoId
      }.willAccess mode aoId

def dataHasBeenAccessed
    (access : DataAccessId) : Outcome DataInfoProvider Unit :=
  match provider.idToData.lookup access.dataId with
  | some datum =>
      ((datum.info.hasBeenAccessed access).onState fun info =>
        provider.setInfo access.dataId datum info).andThen fun provider _ =>
          .returned provider ()
  | none => .raised provider .nullPointer

/-- Files that the language bindings serialized are not results. -/
def isSerializedObject : Bool :=
  "compss-serialized-obj_".toList.isPrefixOf location.fileName

/--
`blockDataAndGetResultFile`, for the part that changes the provider.  The
search for a version to transfer and the transfer itself leave it alone.
-/
def blockDataAndGetResultFile : Outcome DataInfoProvider Unit :=
  match provider.idToData.lookup dataId with
  | some datum =>
      if datum.info.isCurrentVersionToDelete then
        (datum.info.delete.onState fun info =>
          provider.setInfo dataId datum info).andThen fun provider _ =>
            .returned provider ()
      else if datum.originalLocation.any isSerializedObject then
        .returned provider ()
      else
        .returned (provider.setInfo dataId datum datum.info.blockDeletions) ()
  | none => .returned provider ()

def unblockDataId : Outcome DataInfoProvider Unit :=
  match provider.idToData.lookup dataId with
  | some datum =>
      (datum.info.unblockDeletions.onState fun info =>
        provider.setInfo dataId datum info).andThen fun provider _ =>
          .returned provider ()
  | none => .raised provider .nullPointer

end DataInfoProvider

end DistributedRdf.Engine
