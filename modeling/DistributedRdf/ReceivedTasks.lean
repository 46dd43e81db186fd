import DistributedRdf.DataTransfers

namespace DistributedRdf.Nio

open Execution

/-!
# Tasks that a worker receives

For each parameter the worker looks for the data in its cache and in its files,
and requests what it does not find.  A counter of the parameters without data
decides when the task is executed, or reported as failed.
-/

inductive NIOParamType where
  | FILE_T
  | OBJECT_T
  | PSCO_T
  | EXTERNAL_PSCO_T
  /-- Strings or basic types -/
  | other
  deriving DecidableEq

structure NIOParam where
  type : NIOParamType
  preserveSourceData : Bool
  value : String
  data : Option Data
  deriving DecidableEq

/-- What a worker has: objects in the cache of the data manager, and files -/
inductive Stored where
  | cached (name : String)
  | file (path : String)
  deriving DecidableEq

/-- Where a parameter of the task is looked for when it is executed -/
def NIOParam.stored (param : NIOParam) : Stored :=
  if param.type = .FILE_T then .file param.value else .cached param.value

def NIOParam.IsPresent (param : NIOParam) (store : List Stored) : Prop :=
  param.data = none ∨ param.stored ∈ store
  deriving Decidable

def Data.getURIinHost (data : Data) (hostname : String) : Option NIOURI :=
  data.sources.find? fun loc => loc.host = some hostname

structure NIOWorker where
  host : String
  workingDir : String

/-- A name in the working directory -/
def NIOWorker.inWorkingDir (worker : NIOWorker) (name : String) : String :=
  worker.workingDir ++ "/" ++ name

/--
What the files and the transfers answer while a parameter is checked.
`isTransferring` says whether requests for the data are registered.
-/
structure CheckAnswers where
  deserializes : String → Bool
  copies : String → String → Bool
  moves : String → String → Bool
  isTransferring : String → Bool

/-- What a check changes in the store, and whether a transfer is needed -/
structure CheckResult where
  removed : List Stored
  added : List Stored
  askTransfer : Bool
  deriving DecidableEq

def CheckResult.apply (result : CheckResult) (store : List Stored) :
    List Stored :=
  store.filter (· ∉ result.removed) ++ result.added

namespace NIOWorker

variable
  (worker : NIOWorker)
  (answers : CheckAnswers)
  (store : List Stored)
  (param : NIOParam)
  (data : Data)

/-- A file of the host is copied or moved, and the object read from it. -/
def askForObjectInHost : CheckResult :=
  match data.getURIinHost worker.host with
  | none => ⟨[], [], true⟩
  | some loc =>
      let source := worker.inWorkingDir loc.path
      let target := worker.inWorkingDir param.value
      let isRead := answers.deserializes param.value
      let cached := if isRead then [Stored.cached param.value] else []
      if param.preserveSourceData then
        if answers.copies source target then
          ⟨[], .file target :: cached, !isRead⟩
        else
          ⟨[], [], true⟩
      else if answers.moves source target then
        ⟨[.file source], .file target :: cached, !isRead⟩
      else
        -- that the file could not be renamed is only logged
        ⟨[], cached, !isRead⟩

def askForObject : CheckResult :=
  if .cached param.value ∈ store then ⟨[], [], false⟩
  else
    match data.sources.find? fun loc => .cached loc.path ∈ store with
    | none => worker.askForObjectInHost answers param data
    | some loc =>
        if param.preserveSourceData then
          if answers.deserializes loc.path then
            ⟨[], [.cached param.value], false⟩
          else
            worker.askForObjectInHost answers param data
        else
          ⟨[.cached loc.path], [.cached param.value], false⟩

def askForFile : CheckResult :=
  if .file param.value ∈ store then
    ⟨[], [], answers.isTransferring data.name⟩
  else
    match data.getURIinHost worker.host with
    | none => ⟨[], [], true⟩
    | some loc =>
        if param.preserveSourceData then
          if answers.copies loc.path param.value then
            ⟨[], [.file param.value], false⟩
          else
            ⟨[], [], true⟩
        else if answers.moves loc.path param.value then
          ⟨[.file loc.path], [.file param.value], false⟩
        else
          ⟨[], [], true⟩

end NIOWorker

/-- The answer to a task; an execution has the data that are there then. -/
inductive JobAnswer where
  | executeTask (store : List Stored)
  | sendTaskDone
  deriving DecidableEq

inductive Destination where
  | FILE
  | OBJECT
  | ARRAY
  deriving DecidableEq

/--
A `TransferringTask` with the parameters that have been checked, the unsettled
requests, and what has become of the task.
-/
structure TransferringTask where
  store : List Stored
  checked : List NIOParam
  unchecked : List NIOParam
  params : Int
  error : Bool
  requests : List NIOParam
  hasReturned : Bool
  unavailable : List NIOParam
  answers : List JobAnswer

namespace TransferringTask

def new (store : List Stored) (params : List NIOParam) : TransferringTask where
  store := store
  checked := []
  unchecked := params
  params := params.length
  error := false
  requests := []
  hasReturned := false
  unavailable := []
  answers := []

variable (tt : TransferringTask)

def decreaseParams : TransferringTask :=
  { tt with params := tt.params - 1 }

def executeTask : TransferringTask :=
  { tt with answers := tt.answers ++ [.executeTask tt.store] }

def sendTaskDone : TransferringTask :=
  { tt with answers := tt.answers ++ [.sendTaskDone] }

variable (param : NIOParam)

def askForTransfer (result : CheckResult) :
    TransferringTask :=
  let stored := { tt with store := result.apply tt.store }
  if result.askTransfer then
    { stored with requests := tt.requests ++ [param] }
  else
    stored.decreaseParams

variable
  (worker : NIOWorker)
  (answers : CheckAnswers)

/-- What the check of a parameter does to the store -/
def check
    (param : NIOParam) : CheckResult :=
  match param.data, param.type with
  | some data, .OBJECT_T => worker.askForObject answers tt.store param data
  | some data, .FILE_T => worker.askForFile answers tt.store param data
  -- the object is stored whatever the storage has answered
  | some _, .PSCO_T => ⟨[], [.cached param.value], false⟩
  | _, _ => ⟨[], [], false⟩

/-- One round of the loop in `receivedNewTask` -/
def checkParameter : TransferringTask :=
  match tt.unchecked with
  | [] => tt
  | param :: rest =>
      let result := tt.check worker answers param
      let tt := { tt with checked := tt.checked ++ [param], unchecked := rest }
      match param.data, param.type with
      | none, _ => tt.decreaseParams
      | some _, .OBJECT_T | some _, .FILE_T => tt.askForTransfer param result
      | some _, .PSCO_T | some _, .EXTERNAL_PSCO_T | some _, .other =>
          { tt with store := result.apply tt.store }

/-- The last check of `receivedNewTask`, if `requestTransfers` returns -/
def finishReceiving (transfersRaise : Bool) : TransferringTask :=
  let returned := { tt with hasReturned := true }
  if !transfersRaise && tt.params = 0 then returned.executeTask else returned

/-- Objects are stored in the cache, and files where they were received. -/
def storeReceived : Destination → List Stored
  | .OBJECT => [.cached param.value]
  | .FILE => [.file param.value]
  | .ARRAY => []

def receivedValue (destination : Destination) :
    TransferringTask :=
  let settled :=
    { tt with
      store := tt.store ++ storeReceived param destination
      requests := tt.requests.erase param }.decreaseParams
  if settled.params = 0 then
    if settled.error then settled.sendTaskDone else settled.executeTask
  else
    settled

def handleRequestedDataNotAvailableError :
    TransferringTask :=
  let settled :=
    { tt with
      requests := tt.requests.erase param
      unavailable := tt.unavailable ++ [param]
      error := true }.decreaseParams
  if settled.params = 0 then settled.sendTaskDone else settled

end TransferringTask

inductive ReceivingStep where
  | checkParameter (answers : CheckAnswers)
  | finishReceiving (transfersRaise : Bool)
  | receivedValue (param : NIOParam) (destination : Destination)
  | dataNotAvailable (param : NIOParam)

namespace ReceivingStep

variable (worker : NIOWorker) (tt : TransferringTask)

def Enabled : ReceivingStep → Prop
  | checkParameter _ => tt.unchecked ≠ []
  | finishReceiving _ => tt.unchecked = [] ∧ tt.hasReturned = false
  | receivedValue param _ | dataNotAvailable param => param ∈ tt.requests

instance : (step : ReceivingStep) → Decidable (step.Enabled tt)
  | checkParameter _ => inferInstanceAs (Decidable (_ ≠ _))
  | finishReceiving _ => inferInstanceAs (Decidable (_ ∧ _))
  | receivedValue _ _ | dataNotAvailable _ =>
      inferInstanceAs (Decidable (_ ∈ _))

def next : ReceivingStep → TransferringTask
  | checkParameter answers => tt.checkParameter worker answers
  | finishReceiving transfersRaise => tt.finishReceiving transfersRaise
  | receivedValue param destination => tt.receivedValue param destination
  | dataNotAvailable param => tt.handleRequestedDataNotAvailableError param

end ReceivingStep

/-- A task with its parameters, received by a worker with its store -/
def receivedTask
    (worker : NIOWorker)
    (store : List Stored)
    (params : List NIOParam) :
    TransitionSystem TransferringTask ReceivingStep where
  start := .new store params
  Enabled tt step := step.Enabled tt
  next tt step := step.next worker tt

instance
    (worker : NIOWorker)
    (store : List Stored)
    (params : List NIOParam)
    (tt : TransferringTask)
    (step : ReceivingStep) :
    Decidable ((receivedTask worker store params).Enabled tt step) :=
  inferInstanceAs (Decidable (step.Enabled tt))

namespace TransferringTask

/--
The task is answered once: executed with its data, or reported as failed because
some of them are not available.
-/
structure AnsweredOnce
    (params : List NIOParam)
    (tt : TransferringTask) : Prop where
  once : tt.answers.length ≤ 1
  executed :
    ∀ store, .executeTask store ∈ tt.answers →
      (∀ param ∈ params, param.IsPresent store) ∧ tt.unavailable = []
  failed : .sendTaskDone ∈ tt.answers → tt.unavailable ≠ []
  settled :
    tt.unchecked = [] → tt.hasReturned = true → tt.requests = [] →
      tt.answers ≠ []

variable (param : NIOParam)

/-- The counter is decreased for the parameter, or its data are requested. -/
def Counted : Prop :=
  param.data = none ∨ param.type = .OBJECT_T ∨ param.type = .FILE_T
  deriving Decidable

/-- No data of the parameters before are moved away. -/
def TakesNothing (checked : List NIOParam) (result : CheckResult) : Prop :=
  ∀ stored ∈ result.removed, ∀ param ∈ checked,
    param.data ≠ none → param.stored ≠ stored
  deriving Decidable

/-- What arrives is stored where the parameter is looked for. -/
def Fits : Destination → Prop
  | .FILE => param.type = .FILE_T
  | .OBJECT => param.type ≠ .FILE_T
  | .ARRAY => False

/--
The last check finds a counter that an event has not brought to zero before, and
no data unavailable.
-/
def AnswersInTime (worker : NIOWorker) (tt : TransferringTask) :
    ReceivingStep → Prop
  | .checkParameter answers =>
      ∀ param ∈ tt.unchecked.head?,
        Counted param ∧
          TakesNothing tt.checked (tt.check worker answers param)
  | .finishReceiving transfersRaise =>
      tt.params = 0 →
        if transfersRaise then tt.answers ≠ []
        else tt.answers = [] ∧ tt.unavailable = []
  | .receivedValue param destination => Fits param destination
  | .dataNotAvailable _ => True

instance (param : NIOParam) :
    (destination : Destination) → Decidable (Fits param destination)
  | .FILE => inferInstanceAs (Decidable (_ = _))
  | .OBJECT => inferInstanceAs (Decidable (_ ≠ _))
  | .ARRAY => isFalse id

instance (worker : NIOWorker) (tt : TransferringTask) :
    (step : ReceivingStep) → Decidable (AnswersInTime worker tt step)
  | .checkParameter _ => inferInstanceAs (Decidable (∀ _ ∈ _, _ ∧ _))
  | .finishReceiving _ => inferInstanceAs (Decidable (_ → ite _ _ _))
  | .receivedValue param destination =>
      inferInstanceAs (Decidable (Fits param destination))
  | .dataNotAvailable _ => isTrue trivial

end TransferringTask

end DistributedRdf.Nio
