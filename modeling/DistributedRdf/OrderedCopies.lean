import DistributedRdf.TransitionSystem
import Mathlib.Data.List.Dedup

namespace DistributedRdf.Comm

open Execution

/-!
# Copies that are ordered

A call orders a copy of one datum.  It answers the listener itself, or starts a
copy that answers when the agent has got the data or has been refused.
-/

/-- The hosts: the one of the application and the workers -/
inductive COMPSsNode where
  | master
  | worker (id : Nat)
  deriving DecidableEq

structure MultiURI where
  host : COMPSsNode
  path : String
  deriving DecidableEq

inductive LocationType where
  | PRIVATE
  | SHARED
  | PERSISTENT
  deriving DecidableEq

/-- A location, with what the disks or the storage tell about its hosts -/
structure DataLocation where
  type : LocationType
  path : String
  uris : List MultiURI
  deriving DecidableEq

namespace DataLocation

variable (loc : DataLocation)

def getHosts : List COMPSsNode :=
  loc.uris.map (·.host)

def getURIInHost (host : COMPSsNode) : Option MultiURI :=
  loc.uris.find? (·.host = host)

end DataLocation

/-- A copy of the datum that another call has started -/
structure CopyInProgress where
  targetLocHosts : Option (List COMPSsNode)
  targetDataHosts : Option (List COMPSsNode)
  finalTarget : String
  deriving DecidableEq

/-- Copies to the master, or whose target data the master has -/
def CopyInProgress.isToMaster (copy : CopyInProgress) : Bool :=
  .master ∈ copy.targetLocHosts.getD [] ∨
    .master ∈ copy.targetDataHosts.getD []

structure LogicalData where
  name : String
  id : String
  locations : List DataLocation
  isInMemory : Bool
  copiesInProgress : List CopyInProgress
  deriving DecidableEq

namespace LogicalData

variable (ld : LogicalData)

def getURIs : List MultiURI :=
  ld.locations.flatMap (·.uris)

def getAllHosts : List COMPSsNode :=
  (ld.locations.flatMap (·.getHosts)).dedup

def alreadyAvailable (targetHost : COMPSsNode) : Option MultiURI :=
  ld.locations.findSome? (·.getURIInHost targetHost)

/-- Locations of other types never have the protocol of the storage. -/
def persistentLocation : Option DataLocation :=
  ld.locations.find? (·.type = .PERSISTENT)

end LogicalData

/-- Where data can be: under a name on a host, or in the storage -/
inductive Place where
  | file (host : COMPSsNode) (name : String)
  | object (id : String)
  deriving DecidableEq

/-- How `sendData` of a worker that has to send to the master goes -/
inductive SendOutcome where
  | returned
  | raisedBeforeStart
  | raisedAfterStart
  deriving DecidableEq

/-- What is asked: the arguments of the call -/
structure Order where
  ld : LogicalData
  source : Option DataLocation
  target : DataLocation
  hasHost : target.uris ≠ []
  tgtData : Option String
  isObject : Bool

/--
What the files, the storage and the nodes answer.  `getLocations` and
`newVersion` fail with an exception of the storage.
-/
structure Surroundings where
  holds : Place → Bool
  serializes : Bool
  copies : String → String → Bool
  sends : Nat → SendOutcome
  hostOrder : List COMPSsNode → List COMPSsNode
  hostOrder_perm : ∀ hosts, (hostOrder hosts).Perm hosts
  getLocations : Bool
  newVersion : Option String

/-- Requests are told apart by their copies. -/
structure MasterDataRequest where
  id : Nat
  target : String
  deriving DecidableEq

/-- A notification of the listener: are the data at the target at that time? -/
inductive Report where
  | notifyEnd (isThere : Bool)
  | notifyFailure
  deriving DecidableEq

/-- The transferable, the lock of the datum, and what the call has led to -/
structure Ordered where
  dataSource : List MultiURI
  dataTarget : Option String
  holds : Place → Bool
  hostRemovalLocks : Nat
  tgtLocations : List DataLocation
  started : Nat
  requests : List MasterDataRequest
  registered : List Nat
  reports : List Report

namespace Ordered

def new (surroundings : Surroundings) : Ordered where
  dataSource := []
  dataTarget := none
  holds := surroundings.holds
  hostRemovalLocks := 0
  tgtLocations := []
  started := 0
  requests := []
  registered := []
  reports := []

variable (ordered : Ordered)

def setDataTarget (name : String) : Ordered :=
  { ordered with dataTarget := some name }

def store (place : Place) (isStored : Bool) : Ordered :=
  { ordered with
    holds := fun other => if other = place then isStored else ordered.holds other }

/-- Nothing happens without target data. -/
def addLocation (order : Order) : Ordered :=
  if order.tgtData.isSome then
    { ordered with tgtLocations := ordered.tgtLocations ++ [order.target] }
  else ordered

def lockHostRemoval : Ordered :=
  { ordered with hostRemovalLocks := ordered.hostRemovalLocks + 1 }

def releaseHostRemoval : Ordered :=
  { ordered with hostRemovalLocks := ordered.hostRemovalLocks - 1 }

/-- The data are where the transferable says that they are. -/
def isThere (host : COMPSsNode) : Bool :=
  match ordered.dataTarget with
  | none => false
  | some name => ordered.holds (.file host name) || ordered.holds (.object name)

def notifyEnd (host : COMPSsNode) : Ordered :=
  { ordered with
    reports := ordered.reports ++ [.notifyEnd (ordered.isThere host)] }

def notifyFailure : Ordered :=
  { ordered with reports := ordered.reports ++ [.notifyFailure] }

/-- A copy to the master is started, and its data requested. -/
def requestCopy (path : String) : Ordered :=
  { ordered.setDataTarget path with
    started := ordered.started + 1
    requests := ordered.requests ++ [⟨ordered.started, path⟩] }

end Ordered

/-!
## Workers
-/

namespace NIOWorkerNode

variable
  (surroundings : Surroundings)
  (order : Order)
  (ordered : Ordered)

/-- The copy ends as soon as it is registered. -/
def orderCopy : Ordered :=
  let tgtRes := order.target.uris.head order.hasHost
  let available :=
    if order.tgtData.isSome then order.ld.alreadyAvailable tgtRes.host else none
  let path := (available.getD tgtRes).path
  { ordered.setDataTarget path with
    dataSource := order.ld.getURIs
    started := ordered.started + 1
    registered := ordered.registered ++ [ordered.started] }.notifyEnd tgtRes.host

variable (host : COMPSsNode)

def newReplica : Ordered :=
  if surroundings.getLocations then
    (ordered.setDataTarget order.ld.id).notifyEnd host
  else ordered.notifyFailure

def newVersion (host : COMPSsNode) : Ordered :=
  match surroundings.newVersion with
  | none => ordered.notifyFailure
  | some newId =>
      ((ordered.store (.object newId) true).setDataTarget newId).notifyEnd host

def orderStorageCopy : Ordered :=
  if order.tgtData = some order.ld.name then
    newReplica surroundings order ordered host
  else newVersion surroundings ordered host

variable (node : Nat)

def obtainData : Ordered :=
  match order.ld.persistentLocation with
  | some _ => orderStorageCopy surroundings order ordered (.worker node)
  | none => orderCopy order ordered

/-- With whether the call returns -/
def sendData : Ordered × Bool :=
  match order.target.getURIInHost .master with
  | none => (orderCopy order ordered, true)
  | some target =>
      let available :=
        if order.tgtData.isSome then order.ld.alreadyAvailable .master else none
      match available with
      | some uri => ((ordered.setDataTarget uri.path).notifyEnd .master, true)
      | none =>
          match surroundings.sends node with
          | .returned => (ordered.requestCopy target.path, true)
          | .raisedBeforeStart => (ordered, false)
          | .raisedAfterStart => (ordered.requestCopy target.path, false)

end NIOWorkerNode

/-!
## The master
-/

namespace COMPSsMaster

/-- One of the alternatives of `obtainData` -/
inductive Attempt where
  | copyFile (sourcePath : String) (addsLocation : Bool)
  | sendData (node : Nat)
  deriving DecidableEq

variable
  (surroundings : Surroundings)
  (order : Order)
  (targetPath : String)
  (ordered : Ordered)

/-- With whether the listener has been answered, or a copy started -/
def Attempt.run : Attempt → Ordered × Bool
  | .copyFile sourcePath addsLocation =>
      if surroundings.copies sourcePath targetPath then
        let copied :=
          ordered.store (.file .master targetPath)
            (ordered.holds (.file .master sourcePath))
        let located := if addsLocation then copied.addLocation order else copied
        ((located.setDataTarget targetPath).notifyEnd .master, true)
      else (ordered, false)
  | .sendData node => NIOWorkerNode.sendData surroundings order ordered node

def tryInOrder (ordered : Ordered) : List Attempt → Ordered
  | [] => ordered
  | attempt :: rest =>
      let tried := attempt.run surroundings order targetPath ordered
      if tried.2 then tried.1 else tryInOrder tried.1 rest

/-- The hosts of the source are asked; the master has nothing to register. -/
def sourceAttempts (source : DataLocation) : List Attempt :=
  source.uris.map fun uri =>
    match uri.host with
    | .master => .copyFile uri.path false
    | .worker node => .sendData node

def hostAttempts (hosts : List COMPSsNode) : List Attempt :=
  hosts.filterMap fun host =>
    match host with
    | .master => none
    | .worker node => some (.sendData node)

/-- Copies in progress, files of the master, the source, and the other hosts -/
def attempts : List Attempt :=
  (order.ld.copiesInProgress.filter (·.isToMaster)).map
      (fun copy => .copyFile copy.finalTarget true) ++
    (order.ld.getURIs.filter (·.host = .master)).map
      (fun uri => .copyFile uri.path true) ++
    ((order.source.map sourceAttempts).getD []) ++
    hostAttempts (surroundings.hostOrder order.ld.getAllHosts)

/-- A value that could not be serialized is only warned about. -/
def serialize : Ordered :=
  if surroundings.serializes then
    ordered.store (.file .master order.target.path) true
  else ordered

def obtainData : Ordered :=
  match order.ld.persistentLocation with
  | some loc => (ordered.setDataTarget loc.path).notifyEnd .master
  | none =>
      if order.ld.isInMemory then
        (((serialize surroundings order ordered).addLocation order).setDataTarget
          order.target.path).notifyEnd .master
      else
        (tryInOrder surroundings order targetPath ordered.lockHostRemoval
          (attempts surroundings order)).releaseHostRemoval

end COMPSsMaster

/-!
## Calls and the answers to their requests
-/

/-- The master obtains data under a path that it has. -/
inductive Call where
  | masterObtainData
      (order : Order)
      (target : MultiURI)
      (isTarget : order.target.getURIInHost .master = some target)
  | workerObtainData (node : Nat) (order : Order)
  | workerSendData (node : Nat) (order : Order)

namespace Call

def order : Call → Order
  | .masterObtainData order _ _
  | .workerObtainData _ order
  | .workerSendData _ order => order

def run (surroundings : Surroundings) : Call → Ordered
  | .masterObtainData order target _ =>
      COMPSsMaster.obtainData surroundings order target.path
        (.new surroundings)
  | .workerObtainData node order =>
      NIOWorkerNode.obtainData surroundings order (.new surroundings) node
  | .workerSendData node order =>
      (NIOWorkerNode.sendData surroundings order (.new surroundings) node).1

end Call

/-- What the adaptor is told about one of the requests, or about the group -/
inductive Answer where
  | receivedValue (request : MasterDataRequest)
  | handleRequestedDataNotAvailableError (request : MasterDataRequest)
  | copiedData
  deriving DecidableEq

namespace Ordered

variable
  (ordered : Ordered)
  (request : MasterDataRequest)

def finishRequest : Ordered :=
  { ordered with requests := ordered.requests.erase request }

variable (order : Order)

/--
The agent has put the data under the target of the request.  An object is kept
as the value of the target data, and by nobody if there are none.
-/
def receivedValue (request : MasterDataRequest) : Ordered :=
  let place := Place.file .master request.target
  let isKept := !order.isObject || order.tgtData.isSome
  let received := ordered.store place (isKept || ordered.holds place)
  ((received.addLocation order).finishRequest request).notifyEnd .master

def handleRequestedDataNotAvailableError : Ordered :=
  (ordered.finishRequest request).notifyFailure

/-- The copies of the group have ended before. -/
def copiedData : Ordered :=
  ordered.registered.foldl
    (fun ordered _ =>
      if order.target.type = .PRIVATE then ordered.addLocation order
      else ordered)
    { ordered with registered := [] }

def Enabled : Answer → Prop
  | .receivedValue request => request ∈ ordered.requests
  | .handleRequestedDataNotAvailableError request => request ∈ ordered.requests
  | .copiedData => True

instance : (answer : Answer) → Decidable (ordered.Enabled answer)
  | .receivedValue _ => inferInstanceAs (Decidable (_ ∈ _))
  | .handleRequestedDataNotAvailableError _ => inferInstanceAs (Decidable (_ ∈ _))
  | .copiedData => isTrue trivial

def next : Answer → Ordered
  | .receivedValue request => ordered.receivedValue order request
  | .handleRequestedDataNotAvailableError request =>
      ordered.handleRequestedDataNotAvailableError request
  | .copiedData => ordered.copiedData order

end Ordered

def system (surroundings : Surroundings) (call : Call) :
    TransitionSystem Ordered Answer where
  start := call.run surroundings
  Enabled := Ordered.Enabled
  next ordered answer := ordered.next call.order answer

end DistributedRdf.Comm
