import DistributedRdf.MethodOutcome
import DistributedRdf.TransitionSystem
import Mathlib.Logic.Function.Basic

namespace DistributedRdf.Data

open Java Execution

/-!
# Locations of data and shared disks

A datum is followed with what the indexes of the hosts and of the shared disks
say about it.  Persistent locations are on no host: who has the object is up to
the storage.
-/

abbrev Host := Nat

/-- Private locations on one host and path are equal, whatever the protocol. -/
inductive DataLocation where
  | PRIVATE (host : Host) (path : String)
  | SHARED (diskName path : String)
  | PERSISTENT (id : String)
  deriving DecidableEq

/-!
## Shared disks
-/

/-- The disks of a machine with their mount points, in the order of `allShared` -/
structure Machine where
  disks : List (String × String)

namespace Machine

variable (machine : Machine)

def addSharedDisk
    (diskName mountpoint : String) : Machine :=
  let mountpoint :=
    if mountpoint.toList.getLast? = some '/' then mountpoint
    else mountpoint ++ "/"
  ⟨machine.disks ++ [(diskName, mountpoint)]⟩

def allShared : List String :=
  machine.disks.map (·.1)

/-- The mount point that was put last -/
def getPath (sharedDisk : String) : Option String :=
  machine.disks.reverse.lookup sharedDisk

end Machine

structure SharedDiskManager where
  machine2Shareds : Host → Option Machine
  shared2Machines : String → Option (List Host)

namespace SharedDiskManager

def new : SharedDiskManager where
  machine2Shareds := fun _ => none
  shared2Machines := fun _ => none

variable
  (manager : SharedDiskManager)
  (host : Host)

def addMachine : SharedDiskManager :=
  { manager with
    machine2Shareds :=
      Function.update manager.machine2Shareds host (some ⟨[]⟩) }

/-- Resources add their disks after they have been added themselves. -/
def addSharedToMachine
    (disk : String × String) : SharedDiskManager :=
  match manager.machine2Shareds host with
  | none => manager
  | some machine =>
      { machine2Shareds :=
          Function.update manager.machine2Shareds host
            (some (machine.addSharedDisk disk.1 disk.2))
        shared2Machines :=
          Function.update manager.shared2Machines disk.1
            (some ((manager.shared2Machines disk.1).getD [] ++ [host])) }

/-- A resource is created and started. -/
def addResource
    (sharedDisks : List (String × String)) : SharedDiskManager :=
  sharedDisks.foldl (fun manager disk => manager.addSharedToMachine host disk)
    (manager.addMachine host)

def getAllSharedNames : List String :=
  ((manager.machine2Shareds host).map Machine.allShared).getD []

/-- The host is taken out of the machines of a disk. -/
def removeFromDisk (diskName : String) : SharedDiskManager :=
  { manager with
    shared2Machines :=
      Function.update manager.shared2Machines diskName
        ((manager.shared2Machines diskName).map (·.erase host)) }

/-- The tables without the host, and the mount points that it had -/
def terminate :
    SharedDiskManager × (String → Option String) :=
  match manager.machine2Shareds host with
  | none => (manager, fun _ => none)
  | some machine =>
      let removed :=
        machine.allShared.foldl
          (fun manager diskName => manager.removeFromDisk host diskName) manager
      ({ removed with
          machine2Shareds := Function.update removed.machine2Shareds host none },
        machine.getPath)

end SharedDiskManager

/-- The resources of the application, each of them started once -/
structure Resources where
  hosts : List (Host × List (String × String))
  distinct : (hosts.map (·.1)).Nodup

def Resources.manager (resources : Resources) : SharedDiskManager :=
  resources.hosts.foldl
    (fun manager resource => manager.addResource resource.1 resource.2) .new

/-!
## The locations of a removed host
-/

/-- What `removeHostAndCheckLocationToSave` knows about the removed host -/
structure RemovedHost where
  host : Host
  sharedMountPoints : String → Option String
  getHosts : String → Option (List Host)
  canonicalPath : String → String

namespace RemovedHost

variable (removed : RemovedHost)

def IsPrivateHere : DataLocation → Prop
  | .PRIVATE host _ => host = removed.host
  | .SHARED _ _ | .PERSISTENT _ => False

instance : (loc : DataLocation) → Decidable (removed.IsPrivateHere loc)
  | .PRIVATE _ _ => inferInstanceAs (Decidable (_ = _))
  | .SHARED _ _ | .PERSISTENT _ => isFalse id

/--
The loop over the locations.  The file of a shared disk is looked for under its
path on the disk; the host has no disks any more, so the location is private.
-/
def removeLocations :
    List DataLocation → Option DataLocation → Bool →
      Outcome (List DataLocation × Bool) (Option DataLocation)
  | [], uniqueHostLocation, isBeingSaved =>
      .returned ([], isBeingSaved) uniqueHostLocation
  | .PRIVATE host path :: rest, uniqueHostLocation, isBeingSaved =>
      if host = removed.host then
        removeLocations rest (some (.PRIVATE host path)) true
      else
        (removeLocations rest uniqueHostLocation isBeingSaved).onState
          fun kept => (.PRIVATE host path :: kept.1, kept.2)
  | .SHARED diskName path :: rest, uniqueHostLocation, isBeingSaved =>
      match removed.getHosts diskName with
      | none => .raised (.SHARED diskName path :: rest, isBeingSaved) .nullPointer
      | some hosts =>
          let isSaved :=
            hosts.isEmpty && (removed.sharedMountPoints diskName).isSome &&
              uniqueHostLocation.isNone
          (if isSaved then
            removeLocations rest
              (some (.PRIVATE removed.host (removed.canonicalPath path))) true
          else
            removeLocations rest uniqueHostLocation isBeingSaved).onState
              fun kept => (.SHARED diskName path :: kept.1, kept.2)
  | .PERSISTENT id :: rest, uniqueHostLocation, isBeingSaved =>
      (removeLocations rest uniqueHostLocation isBeingSaved).onState
        fun kept => (.PERSISTENT id :: kept.1, kept.2)

/-- Whether a location is on a host while the removed one is gone -/
def IsOn (host : Host) : DataLocation → Prop
  | .PRIVATE other _ => other = host
  | .SHARED diskName _ => host ∈ (removed.getHosts diskName).getD []
  | .PERSISTENT _ => False

instance (host : Host) :
    (loc : DataLocation) → Decidable (removed.IsOn host loc)
  | .PRIVATE _ _ => inferInstanceAs (Decidable (_ = _))
  | .SHARED _ _ => inferInstanceAs (Decidable (_ ∈ _))
  | .PERSISTENT _ => isFalse id

/-- Whether a location is on another host than the removed one -/
def IsElsewhere : DataLocation → Prop
  | .PRIVATE other _ => other ≠ removed.host
  | .SHARED diskName _ =>
      ∃ other ∈ (removed.getHosts diskName).getD [], other ≠ removed.host
  | .PERSISTENT _ => False

instance : (loc : DataLocation) → Decidable (removed.IsElsewhere loc)
  | .PRIVATE _ _ => inferInstanceAs (Decidable (_ ≠ _))
  | .SHARED _ _ => inferInstanceAs (Decidable (∃ _ ∈ _, _))
  | .PERSISTENT _ => isFalse id

/-- The file of a location as the removed host has stored it -/
def storedFile : DataLocation → Option DataLocation
  | .PRIVATE host path =>
      if host = removed.host then some (.PRIVATE host path) else none
  | .SHARED diskName path =>
      (removed.sharedMountPoints diskName).map fun mountPoint =>
        .PRIVATE removed.host (mountPoint ++ path)
  | .PERSISTENT _ => none

end RemovedHost

/-- A removal, with the locations before and after it and what was answered -/
structure Removal where
  removed : RemovedHost
  before : List DataLocation
  after : List DataLocation
  isExamined : Bool
  hasReturned : Bool
  result : Option DataLocation

/-- What is expected of a removal -/
structure Removal.LosesNothing (removal : Removal) : Prop where
  returned : removal.hasReturned = true
  examined :
    ∀ loc ∈ removal.before,
      (removal.removed.storedFile loc).isSome → removal.isExamined = true
  notReferred :
    ∀ loc ∈ removal.after, ¬ removal.removed.IsOn removal.removed.host loc
  saved_iff :
    removal.result.isSome ↔
      (∃ loc ∈ removal.before, (removal.removed.storedFile loc).isSome) ∧
        ∀ loc ∈ removal.after, ¬ removal.removed.IsElsewhere loc
  stored :
    ∀ saved, removal.result = some saved →
      ∃ loc ∈ removal.before, removal.removed.storedFile loc = some saved

/-- A `LogicalData`, and where the indexes have it -/
structure LogicalData where
  manager : SharedDiskManager
  locations : List DataLocation
  isBeingSaved : Bool
  privateFiles : List Host
  sharedFiles : List String
  removals : List Removal

namespace LogicalData

variable (resources : Resources)

def new : LogicalData where
  manager := resources.manager
  locations := []
  isBeingSaved := false
  privateFiles := []
  sharedFiles := []
  removals := []

variable
  (data : LogicalData)
  (loc : DataLocation)

/--
The order of the set is left open: its comparator does not order locations of
different kinds.  Without a position an equal location has been found.
-/
def insertLocation : Option Nat → List DataLocation
  | none => data.locations
  | some index => data.locations.insertIdx index loc

/-- The indexes are told for each of the hosts of the location. -/
def addLocation (position : Option Nat) : LogicalData :=
  let added :=
    { data with
      isBeingSaved := false
      locations := data.insertLocation loc position }
  match loc with
  | .PRIVATE host _ => { added with privateFiles := host :: data.privateFiles }
  | .SHARED diskName _ =>
      if (data.manager.shared2Machines diskName).getD [] = [] then added
      else { added with sharedFiles := diskName :: data.sharedFiles }
  | .PERSISTENT _ => added

/-- Whether the datum is in `getAllDataFromHost` -/
def isDataFromHost (host : Host) : Bool :=
  host ∈ data.privateFiles ∨
    ∃ diskName ∈ data.manager.getAllSharedNames host,
      diskName ∈ data.sharedFiles

variable (canonicalPath : String → String)

def removedHost (host : Host) :
    RemovedHost where
  host := host
  sharedMountPoints := (data.manager.terminate host).2
  getHosts := (data.manager.terminate host).1.shared2Machines
  canonicalPath := canonicalPath

variable (removed : RemovedHost)

/-- Nothing is done while the datum is being saved. -/
def removeHostAndCheckLocationToSave :
    Outcome (List DataLocation × Bool) (Option DataLocation) :=
  if data.isBeingSaved then .returned (data.locations, true) none
  else removed.removeLocations data.locations none false

/-- What `retrieveData` does with this datum -/
def retrieved :
    Outcome (List DataLocation × Bool) (Option DataLocation) :=
  if data.isDataFromHost removed.host then
    data.removeHostAndCheckLocationToSave removed
  else .returned (data.locations, data.isBeingSaved) none

def removal : Removal where
  removed := removed
  before := data.locations
  after := (data.retrieved removed).state.1
  isExamined := data.isDataFromHost removed.host
  hasReturned := (data.retrieved removed).hasReturned
  result := (data.retrieved removed).value?.join

/-- The data of the host is looked up, and then the host leaves its disks. -/
def retrieveData (host : Host) :
    LogicalData :=
  let removed := data.removedHost canonicalPath host
  { data with
    manager := (data.manager.terminate host).1
    locations := (data.retrieved removed).state.1
    isBeingSaved := (data.retrieved removed).state.2
    removals := data.removals ++ [data.removal removed] }

/-- A copy has been made or registered, or a host is removed. -/
inductive Step where
  | addLocation (loc : DataLocation) (position : Option Nat)
  | retrieveData (host : Host)
  deriving DecidableEq

def Enabled (data : LogicalData) : Step → Prop
  | .addLocation loc none => loc ∈ data.locations
  | .addLocation _ (some index) => index ≤ data.locations.length
  | .retrieveData _ => True

instance (data : LogicalData) :
    (step : Step) → Decidable (data.Enabled step)
  | .addLocation _ none => inferInstanceAs (Decidable (_ ∈ _))
  | .addLocation _ (some _) => inferInstanceAs (Decidable (_ ≤ _))
  | .retrieveData _ => isTrue trivial

def next (data : LogicalData) :
    Step → LogicalData
  | .addLocation loc position => data.addLocation loc position
  | .retrieveData host => data.retrieveData canonicalPath host

def system :
    TransitionSystem LogicalData Step where
  start := .new resources
  Enabled := Enabled
  next := next canonicalPath

instance
    (resources : Resources)
    (canonicalPath : String → String)
    (data : LogicalData)
    (step : Step) :
    Decidable ((system resources canonicalPath).Enabled data step) :=
  inferInstanceAs (Decidable (data.Enabled step))

end LogicalData

end DistributedRdf.Data
