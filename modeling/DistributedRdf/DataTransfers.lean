import DistributedRdf.MethodOutcome
import DistributedRdf.TransitionSystem
import Mathlib.Logic.Function.Basic

namespace DistributedRdf.Nio

open Java Execution

/-!
# Data transfers of a NIO agent

Requests for data are grouped by the name of the data: one transfer serves them
all.  Each incoming and each outgoing transfer takes a slot of its kind.  What the
subclasses of the agent are told is logged.
-/

abbrev Connection := Nat

inductive DataType where
  | FILE_T
  | OBJECT_T
  deriving DecidableEq

/-- The host of a location has no address when it is the master. -/
structure NIOURI where
  host : Option String
  path : String
  deriving DecidableEq

structure Data where
  name : String
  sources : List NIOURI
  deriving DecidableEq

def Data.getFirstURI (data : Data) : Option NIOURI :=
  data.sources.head?

/-- Requests are told apart by their identity. -/
structure DataRequest where
  id : Nat
  type : DataType
  source : Data
  target : String
  deriving DecidableEq

/-- What a finished reception has brought -/
structure Transfer where
  isFile : Bool
  fileName : String
  deriving DecidableEq

/-- A demand that went out: the data, where it is, and the file it will fill -/
structure DataDemand where
  connection : Connection
  name : String
  uri : NIOURI
  file : Option String
  deriving DecidableEq

/-- The calls of the methods that a subclass implements -/
inductive AgentCall where
  | receivedValue (dataId : String) (achievedRequests : List DataRequest)
  | handleRequestedDataNotAvailableError
      (failedRequests : List DataRequest) (dataId : String)
  | handleDataToSendNotAvailable (connection : Connection)
  | shutdown (closingConnection : Option Connection)
  deriving DecidableEq

/-- The numbers of slots -/
structure Slots where
  MAX_SEND_TRANSFERS : Nat
  MAX_RECEIVE_TRANSFERS : Nat

/--
The transfers that an agent sends and still have to end are only recorded; the
agent itself does not look at them.
-/
structure NIOAgent where
  sendTransfers : Int
  trasmittingConnections : List (Option Connection)
  receiveTransfers : Int
  finish : Bool
  closingConnection : Option Connection
  dataToRequests : String → Option (List DataRequest)
  pendingRequests : List DataRequest
  ongoingTransfers : List (Connection × String)
  nextConnection : Connection
  demands : List DataDemand
  calls : List AgentCall
  submitted : List DataRequest
  slottedSends : List Connection

/-- What the outside answers during one operation -/
structure Surroundings where
  startsConnection : Connection → Bool
  copies : String → Bool
  deserializes : Bool
  entryOrder :
    List (String × List DataRequest) → List (String × List DataRequest)
  entryOrder_perm : ∀ entries, (entryOrder entries).Perm entries

namespace NIOAgent

def new (slots : Slots) : NIOAgent where
  sendTransfers := 0
  trasmittingConnections := List.replicate slots.MAX_SEND_TRANSFERS none
  receiveTransfers := 0
  finish := false
  closingConnection := none
  dataToRequests _ := none
  pendingRequests := []
  ongoingTransfers := []
  nextConnection := 0
  demands := []
  calls := []
  submitted := []
  slottedSends := []

variable
  (slots : Slots)
  (surroundings : Surroundings)
  (agent : NIOAgent)

def call (agentCall : AgentCall) : NIOAgent :=
  { agent with calls := agent.calls ++ [agentCall] }

def hasPendingTransfers : Bool :=
  agent.pendingRequests ≠ [] ∨ agent.sendTransfers ≠ 0 ∨
    agent.receiveTransfers ≠ 0

/-- Check if shutdown and ready -/
def shutdownIfReady : NIOAgent :=
  if agent.finish && !agent.hasPendingTransfers then
    agent.call (.shutdown agent.closingConnection)
  else
    agent

/-! ## Slots -/

def tryAcquireReceiveSlot : NIOAgent × Bool :=
  if agent.receiveTransfers < slots.MAX_RECEIVE_TRANSFERS then
    ({ agent with receiveTransfers := agent.receiveTransfers + 1 }, true)
  else
    (agent, false)

def releaseReceiveSlot : NIOAgent :=
  { agent with receiveTransfers := agent.receiveTransfers - 1 }

/-- The first free place is taken, if there is one. -/
def occupyPlace (connection : Connection) :
    List (Option Connection) → List (Option Connection)
  | [] => []
  | none :: places => some connection :: places
  | some other :: places => some other :: occupyPlace connection places

variable (connection : Connection)

def tryAcquireSendSlot : NIOAgent × Bool :=
  if agent.sendTransfers < slots.MAX_SEND_TRANSFERS then
    ({ agent with
        sendTransfers := agent.sendTransfers + 1
        trasmittingConnections :=
          occupyPlace connection agent.trasmittingConnections },
      true)
  else
    (agent, false)

/-- The first place of the connection is freed; `none` if it has no place. -/
def freePlace (connection : Connection) :
    List (Option Connection) → Option (List (Option Connection))
  | [] => none
  | place :: places =>
      if place = some connection then
        some (none :: places)
      else
        (freePlace connection places).map (place :: ·)

def releaseSendSlot : NIOAgent :=
  match freePlace connection agent.trasmittingConnections with
  | none => agent
  | some places =>
      shutdownIfReady
        { agent with
          trasmittingConnections := places
          sendTransfers := agent.sendTransfers - 1 }

/-! ## Requests -/

variable (dr : DataRequest)

def addTransferRequest : NIOAgent :=
  match agent.dataToRequests dr.source.name with
  | none =>
      { agent with
        dataToRequests :=
          Function.update agent.dataToRequests dr.source.name (some [dr])
        pendingRequests := agent.pendingRequests ++ [dr] }
  | some list =>
      { agent with
        dataToRequests :=
          Function.update agent.dataToRequests dr.source.name
            (some (list ++ [dr])) }

/-- A request is created and added. -/
def submit
    (type : DataType)
    (source : Data)
    (target : String) : NIOAgent :=
  let dr : DataRequest := ⟨agent.submitted.length, type, source, target⟩
  { agent with submitted := agent.submitted ++ [dr] }.addTransferRequest dr

/-- The next pending request, for which a slot is taken -/
def nextRequest : Option (NIOAgent × DataRequest) :=
  match agent.pendingRequests with
  | [] => none
  | dr :: rest =>
      match agent.tryAcquireReceiveSlot slots with
      | (agent, true) => some ({ agent with pendingRequests := rest }, dr)
      | (_, false) => none

/--
A connection is opened and the data demanded on it.  An exception on the way to
the demand is caught; the request and its slot are then left as they are.
-/
def startTransfer
    (uri : NIOURI) : NIOAgent :=
  let c := agent.nextConnection
  let connected := { agent with nextConnection := c + 1 }
  if surroundings.startsConnection c then
    { connected with
      ongoingTransfers :=
        (c, dr.source.name) ::
          connected.ongoingTransfers.filter fun entry => entry.1 ≠ c
      demands :=
        connected.demands ++
          [⟨c, dr.source.name, uri,
            if dr.type = .FILE_T then some dr.target else none⟩] }
  else
    connected

/-- The loop of `requestTransfers`, with a bound on its rounds -/
def requestWithin : Nat → NIOAgent → Outcome NIOAgent Unit
  | 0, agent => .returned agent ()
  | rounds + 1, agent =>
      match agent.nextRequest slots with
      | none => .returned agent ()
      | some (agent, dr) =>
          match dr.source.getFirstURI with
          | none => .raised agent .nullPointer
          | some uri =>
              requestWithin rounds (agent.startTransfer surroundings dr uri)

/-- Every round takes a request out of the pending ones. -/
def requestTransfers : Outcome NIOAgent Unit :=
  requestWithin slots surroundings agent.pendingRequests.length agent

/-! ## Receptions -/

/-- One round of the loop that groups the requests by target -/
def addToTarget
    (byTarget : List (String × List DataRequest))
    (req : DataRequest) : List (String × List DataRequest) :=
  match byTarget with
  | [] => [(req.target, [req])]
  | (target, sameTarget) :: rest =>
      if target = req.target then
        (target, sameTarget ++ [req]) :: rest
      else
        (target, sameTarget) :: addToTarget rest req

def groupByTarget (requests : List DataRequest) :
    List (String × List DataRequest) :=
  requests.foldl addToTarget []

/-- Subclasses iterate over the requests, so there has to be a list. -/
def receivedValue
    (agent : NIOAgent)
    (dataId : String)
    (achievedRequests : Option (List DataRequest)) : Outcome NIOAgent Unit :=
  match achievedRequests with
  | none => .raised agent .nullPointer
  | some achieved => .returned (agent.call (.receivedValue dataId achieved)) ()

/-- What stays in the map when one target is taken out. -/
def otherTargets
    (target : String)
    (byTarget : List (String × List DataRequest)) :
    List (String × List DataRequest) :=
  byTarget.filter fun entry => entry.1 ≠ target

/--
The loop over the other targets.  A file is removed from the map inside of the
loop, which the iterator notices when it goes on.
-/
def replicate
    (t : Transfer)
    (agent : NIOAgent) :
    List (String × List DataRequest) → Outcome NIOAgent Unit
  | [] => .returned agent ()
  | (targetName, reqs) :: entries =>
      if t.isFile then
        if surroundings.copies targetName then
          (agent.receivedValue targetName (some reqs)).andThen fun agent _ =>
            if entries = [] then
              .returned agent ()
            else
              .raised agent .concurrentModification
        else
          replicate t agent entries
      else
        if surroundings.deserializes then
          (agent.receivedValue targetName (some reqs)).andThen fun agent _ =>
            replicate t agent entries
        else
          replicate t agent entries

/-- Tells the subclass which of the requests for the data are served. -/
def achieve
    (dataId : String)
    (t : Transfer)
    (requests : List DataRequest) : Outcome NIOAgent Unit :=
  match groupByTarget requests with
  | [(targetName, _)] => agent.receivedValue targetName (some requests)
  | byTarget =>
      let received := if t.isFile then t.fileName else dataId
      (agent.receivedValue received (byTarget.lookup received)).andThen
        fun agent _ =>
          replicate surroundings t agent
            (surroundings.entryOrder (otherTargets received byTarget))

variable (c : Connection)

/-- The requests that an ended transfer answers; nothing if it is none of ours -/
def endTransfer
    (answer : NIOAgent → String → List DataRequest → Outcome NIOAgent Unit) :
    Outcome NIOAgent Unit :=
  match agent.ongoingTransfers.lookup c with
  | none => .returned agent ()
  | some dataId =>
      let released :=
        { agent with
          ongoingTransfers :=
            agent.ongoingTransfers.filter fun entry => entry.1 ≠ c
        }.releaseReceiveSlot
      match released.dataToRequests dataId with
      | none => .raised released .nullPointer
      | some requests =>
          (answer
            { released with
              dataToRequests :=
                Function.update released.dataToRequests dataId none }
            dataId requests).andThen fun agent _ =>
          (agent.requestTransfers slots surroundings).andThen fun agent _ =>
            .returned agent.shutdownIfReady ()

def receivedData
    (t : Transfer) : Outcome NIOAgent Unit :=
  agent.endTransfer slots surroundings c fun agent dataId requests =>
    agent.achieve surroundings dataId t requests

def receivedRequestedDataNotAvailableError : Outcome NIOAgent Unit :=
  agent.endTransfer slots surroundings c fun agent dataId requests =>
    .returned
      (agent.call (.handleRequestedDataNotAvailableError requests dataId)) ()

def receivedShutdown (requester : Connection) : NIOAgent :=
  { agent with
    closingConnection := some requester
    finish := true }.shutdownIfReady

/-! ## Transfers to other nodes -/

/-- The data that a node asks for -/
inductive DataToSend where
  | file (existing : Bool)
  | object
  deriving DecidableEq

def DataToSend.isMissing : DataToSend → Bool
  | .file existing => !existing
  | .object => false

variable (d : DataToSend)

def sendData : NIOAgent :=
  if d.isMissing then
    agent.call (.handleDataToSendNotAvailable c)
  else
    agent

/--
`CommandDataDemand.handle`: the data is sent with or without a slot.  A transfer
fails at once if there is nothing to send.
-/
def dataDemand : NIOAgent :=
  match agent.tryAcquireSendSlot slots c with
  | (agent, true) =>
      { agent with
        slottedSends :=
          if d.isMissing then agent.slottedSends else c :: agent.slottedSends
      }.sendData c d
  | (agent, false) => agent.sendData c d

/-- `writeFinished` of the message handler -/
def writeFinished : NIOAgent :=
  { agent with
    slottedSends := agent.slottedSends.erase c }.releaseSendSlot c

/-- `errorHandler` of the message handler: what the connection sends has failed. -/
def connectionFailed : Outcome NIOAgent Unit :=
  { agent with
    slottedSends := agent.slottedSends.filter (· ≠ c)
  }.receivedRequestedDataNotAvailableError slots surroundings c

end NIOAgent

/-! ## Runs -/

inductive AgentEvent where
  | submit (type : DataType) (source : Data) (target : String)
  | requestTransfers (surroundings : Surroundings)
  | receivedData
      (surroundings : Surroundings) (c : Connection) (t : Transfer)
  | receivedShutdown (requester : Connection)
  | dataDemand (c : Connection) (d : NIOAgent.DataToSend)
  | writeFinished (c : Connection)
  | connectionFailed (surroundings : Surroundings) (c : Connection)

def NIOAgent.handle (slots : Slots) (agent : NIOAgent) :
    AgentEvent → NIOAgent
  | .submit type source target => agent.submit type source target
  | .requestTransfers surroundings =>
      (agent.requestTransfers slots surroundings).state
  | .receivedData surroundings c t =>
      (agent.receivedData slots surroundings c t).state
  | .receivedShutdown requester => agent.receivedShutdown requester
  | .dataDemand c d => agent.dataDemand slots c d
  | .writeFinished c => agent.writeFinished c
  | .connectionFailed surroundings c =>
      (agent.connectionFailed slots surroundings c).state

/-- Events come in any order. -/
def agentSystem (slots : Slots) : TransitionSystem NIOAgent AgentEvent where
  start := .new slots
  Enabled _ _ := True
  next := NIOAgent.handle slots

end DistributedRdf.Nio
