import DistributedRdf.RemovedHosts

namespace DistributedRdf.Data

open Java Execution

/-!
# Immediate copies of a datum

Several threads perform copies of one datum.  A copy is skipped if the datum is
on the target host, or if another copy to the target is in progress; then that
one takes over its listeners.  The threads exclude one another only in the
sections that are synchronized on the datum or on the listeners of an
operation: each of these is one step.
-/

/-!
## Operations and their listeners
-/

inductive OpEndState where
  | OP_OK
  | OP_IN_PROGRESS
  | OP_FAILED
  | OP_PREPARATION_FAILED
  | OP_WAITING_SOURCES
  deriving DecidableEq

/-- Whether listeners are notified of such an end, and then of a success -/
def OpEndState.notifies : OpEndState → Option Bool
  | .OP_OK => some true
  | .OP_IN_PROGRESS => none
  | .OP_WAITING_SOURCES => none
  | .OP_FAILED => some false
  | .OP_PREPARATION_FAILED => some false

/-- A listener together with the operation it was first added to -/
structure Registration (Op : Type) where
  operation : Op
  listener : Nat
  deriving DecidableEq

/-- `notifyEnd` or `notifyFailure`, with the operation that is passed -/
structure Notification (Op : Type) where
  registration : Registration Op
  fOp : Op
  isEnd : Bool
  deriving DecidableEq

structure DataOperation (Op : Type) where
  listeners : List (Registration Op)
  endState : Option OpEndState

namespace DataOperation

variable
  {Op : Type}
  (this : DataOperation Op)
  (fOp : Op)
  (state : OpEndState)
  (eventListeners : List (Registration Op))

def notifications : List (Notification Op) :=
  match state.notifies with
  | none => []
  | some isEnd =>
      eventListeners.map fun registration => ⟨registration, fOp, isEnd⟩

/-- After the end the listeners are not kept, but notified at once. -/
def addEventListeners :
    DataOperation Op × List (Notification Op) :=
  match this.endState with
  | none => ({ this with listeners := this.listeners ++ eventListeners }, [])
  | some state => (this, notifications fOp state eventListeners)

def notifyEnd :
    DataOperation Op × List (Notification Op) :=
  ({ this with endState := some state },
    notifications fOp state this.listeners)

end DataOperation

/-!
## Locations on hosts
-/

/-- The tables of the shared disks, and what the storage answers -/
structure Surroundings where
  resources : Resources
  storage : String → List Host

namespace DataLocation

variable (surroundings : Surroundings)

def getHosts : DataLocation → List Host
  | .PRIVATE host _ => [host]
  | .SHARED diskName _ => surroundings.resources.manager.hostsOf diskName
  | .PERSISTENT id => surroundings.storage id

def getMounpoint (host : Host) (diskName : String) : Option String :=
  (surroundings.resources.manager.machine2Shareds host).bind fun machine =>
    machine.getPath diskName

/-- The path of the location on a host -/
def getURIInHost (targetHost : Host) : DataLocation → Option String
  | .PRIVATE host path => if host = targetHost then some path else none
  | .SHARED diskName path =>
      (getMounpoint surroundings targetHost diskName).map fun diskPath =>
        if diskPath.toList.getLast? = some '/' then
          diskPath ++ path
        else
          diskPath ++ "/" ++ path
  | .PERSISTENT id =>
      if targetHost ∈ surroundings.storage id then some id else none

/--
No copy has a persistent target, so that a shared location is never cast from
one.
-/
def isTarget : DataLocation → DataLocation → Bool
  | .PRIVATE host path, .PRIVATE targetHost targetPath =>
      host = targetHost && path = targetPath
  | .SHARED diskName path, .SHARED targetDisk targetPath =>
      diskName = targetDisk && path = targetPath
  | .PERSISTENT id, .PERSISTENT targetId => id = targetId
  | _, _ => false

theorem isTarget_iff {location target : DataLocation} :
    location.isTarget target = true ↔ location = target := by
  cases location <;> cases target <;> simp [isTarget]

end DataLocation

/-!
## Copies
-/

/-- Targets are private or on a shared disk. -/
structure CopyRequest where
  tgtLoc : DataLocation
  isPlace : ∀ id, tgtLoc ≠ .PERSISTENT id
  tgtData : Option Nat
  listener : Nat

structure CopyInProgress (Op : Type) where
  c : Op
  loc : DataLocation
  deriving DecidableEq

/-- Where the thread of a copy is in `perform` -/
inductive Phase (Op : Type) where
  | created
  /-- The listeners are about to be added to those of another copy. -/
  | handingOver (copyInProgress : Op)
  | copying
  /-- `specificCopy` has raised an exception. -/
  | failing
  /-- In the `finally` block; the copy may have succeeded. -/
  | cleaning (copied : Bool)
  | registering (copied : Bool) (actualLocation : Option DataLocation)
  | returning
  | finished
  deriving DecidableEq

namespace Phase

variable {Op : Type}

def isHandingOver : Phase Op → Bool
  | .handingOver _ => true
  | _ => false

def isCleaning : Phase Op → Bool
  | .cleaning _ => true
  | _ => false

def isRegistering : Phase Op → Bool
  | .registering _ _ => true
  | _ => false

/-- Between `startCopy` and `finishedCopy` -/
def isInProgress : Phase Op → Bool
  | .copying => true
  | .failing => true
  | .cleaning _ => true
  | _ => false

/-- After `end(OP_FAILED)` -/
def hasFailed : Phase Op → Bool
  | .cleaning copied => !copied
  | .registering copied _ => !copied
  | _ => false

/-- The listeners are still to be notified, or handed over. -/
def isOpen : Phase Op → Bool
  | .finished => false
  | phase => !phase.hasFailed

end Phase

/-- Why a copy was skipped; of another copy, where its thread was -/
inductive SkipReason (Op : Type) where
  | alreadyAvailable (location : DataLocation)
  | alreadyCopying (copyInProgress : Op) (phase : Phase Op)
  deriving DecidableEq

structure Transfers (Op : Type) where
  phase : Op → Phase Op
  operation : Op → DataOperation Op
  finalTarget : Op → Option String
  /-- Of the source data -/
  inProgress : List (CopyInProgress Op)
  locations : Nat → List DataLocation
  /-- The copy that is handing its listeners over keeps the source data. -/
  holder : Option Op
  /-- What happened so far -/
  started : List Op
  placed : List DataLocation
  failed : List Op
  registered : List (Registration Op)
  notifications : List (Notification Op)
  skipped : List (Op × SkipReason Op)
  added : List DataLocation

/-- The copies of one datum, and where the data are before -/
structure Setting (Op : Type) where
  surroundings : Surroundings
  srcData : Nat
  locations : Nat → List DataLocation
  copy : Op → CopyRequest

namespace Transfers

variable
  {Op : Type}
  [DecidableEq Op]

section Updates

variable
  (transfers : Transfers Op)
  (this : Op)
  (phase : Phase Op)

def setPhase : Transfers Op :=
  { transfers with phase := Function.update transfers.phase this phase }

@[simp] theorem phase_setPhase :
    (transfers.setPhase this phase).phase this = phase :=
  Function.update_self ..

theorem phase_setPhase_of_ne
    {that : Op}
    (isOther : that ≠ this) :
    (transfers.setPhase this phase).phase that = transfers.phase that :=
  Function.update_of_ne isOther ..

def setFinalTarget (path : String) : Transfers Op :=
  { transfers with
    finalTarget := Function.update transfers.finalTarget this (some path) }

/-- The operation changes, and listeners are notified. -/
def setOperation
    (change : DataOperation Op × List (Notification Op)) : Transfers Op :=
  { transfers with
    operation := Function.update transfers.operation this change.1
    notifications := transfers.notifications ++ change.2 }

variable (state : OpEndState)

def «end» : Transfers Op :=
  transfers.setOperation this
    ((transfers.operation this).notifyEnd this state)

@[simp] theorem operation_end :
    (transfers.end this state).operation this =
      { transfers.operation this with endState := some state } :=
  Function.update_self ..

def addEventListeners
    (eventListeners : List (Registration Op)) : Transfers Op :=
  transfers.setOperation this
    ((transfers.operation this).addEventListeners this eventListeners)

def skip (reason : SkipReason Op) : Transfers Op :=
  { transfers with skipped := transfers.skipped ++ [(this, reason)] }

end Updates

variable
  (setting : Setting Op)
  (transfers : Transfers Op)
  (this : Op)

def targetHost : Option Host :=
  ((setting.copy this).tgtLoc.getHosts setting.surroundings).head?

/-- The first location of the source data on the host, with its path there -/
def alreadyAvailable (host : Host) : Option (DataLocation × String) :=
  (transfers.locations setting.srcData).findSome? fun loc =>
    (loc.getURIInHost setting.surroundings host).map fun path => (loc, path)

def alreadyCopying (target : DataLocation) : Option Op :=
  (transfers.inProgress.find? fun cip => cip.loc.isTarget target).map (·.c)

def startCopy : Transfers Op :=
  { transfers.setPhase this .copying with
    inProgress :=
      transfers.inProgress ++ [⟨this, (setting.copy this).tgtLoc⟩]
    started := transfers.started ++ [this] }

/-- `end(OP_IN_PROGRESS)`, still in the section of the source data -/
def endInProgress (copyInProgress : Op) (path : String) : Transfers Op :=
  { (((transfers.setFinalTarget this path).end this .OP_IN_PROGRESS).skip this
      (.alreadyCopying copyInProgress
        (transfers.phase copyInProgress))).setPhase this
      (.handingOver copyInProgress) with
    holder := some this }

/-- The first section of `perform`.  Without a host for the target it raises. -/
def perform : Transfers Op :=
  match targetHost setting this with
  | none => transfers.setPhase this .finished
  | some host =>
      if (setting.copy this).tgtData.isNone then
        transfers.startCopy setting this
      else
        match transfers.alreadyAvailable setting host with
        | some (loc, path) =>
            (((transfers.setFinalTarget this path).end this .OP_OK).skip this
              (.alreadyAvailable loc)).setPhase this .finished
        | none =>
            match transfers.alreadyCopying (setting.copy this).tgtLoc with
            | none => transfers.startCopy setting this
            | some copyInProgress =>
                match (setting.copy copyInProgress).tgtLoc.getURIInHost
                    setting.surroundings host with
                | none => transfers.setPhase this .finished
                | some path => transfers.endInProgress this copyInProgress path

/-- The listeners get to the copy in progress; the section ends. -/
def handOver : Transfers Op :=
  match transfers.phase this with
  | .handingOver copyInProgress =>
      { (transfers.addEventListeners copyInProgress
          (transfers.operation this).listeners).setPhase this .finished with
        holder := none }
  | _ => transfers

/-- The copy is made, or raises a `CopyException`. -/
def specificCopy (copied : Bool) : Transfers Op :=
  if copied then
    { transfers.setPhase this (.cleaning true) with
      placed := transfers.placed ++ [(setting.copy this).tgtLoc] }
  else
    { transfers.setPhase this .failing with
      failed := transfers.failed ++ [this] }

def endFailed : Transfers Op :=
  (transfers.end this .OP_FAILED).setPhase this (.cleaning false)

/-- The section of the `finally` block that is synchronized on the source -/
def finishedCopy : Transfers Op :=
  match transfers.phase this with
  | .cleaning copied =>
      { transfers.setPhase this
          (.registering copied
            ((transfers.inProgress.find? fun cip => cip.c = this).map
              (·.loc))) with
        inProgress := transfers.inProgress.eraseP fun cip => cip.c = this }
  | _ => transfers

/-- Where a location is put in the set of a datum; see `insertLocation`. -/
def addLocation
    (data : Nat)
    (loc : DataLocation) :
    Option Nat → Transfers Op
  | none => transfers
  | some index =>
      { transfers with
        locations :=
          Function.update transfers.locations data
            ((transfers.locations data).insertIdx index loc)
        added := transfers.added ++ [loc] }

/-- The rest of the `finally` block; without a location it raises. -/
def registerTarget (position : Option Nat) : Transfers Op :=
  match transfers.phase this with
  | .registering copied actualLocation =>
      let next := if copied then .returning else .finished
      match (setting.copy this).tgtData, actualLocation with
      | none, _ => transfers.setPhase this next
      | some _, none => transfers.setPhase this .finished
      | some data, some loc =>
          (transfers.addLocation data loc position).setPhase this next
  | _ => transfers

/-- The end of a copy that has succeeded -/
def endCopied : Transfers Op :=
  match (targetHost setting this).bind fun host =>
      (setting.copy this).tgtLoc.getURIInHost setting.surroundings host with
  | none => transfers.setPhase this .finished
  | some path =>
      ((transfers.setFinalTarget this path).end this .OP_OK).setPhase this
        .finished

/-- Another thread listens to a copy that it has found in progress. -/
def addEventListener (listener : Nat) : Transfers Op :=
  { transfers.addEventListeners this [⟨this, listener⟩] with
    registered := transfers.registered ++ [⟨this, listener⟩] }

end Transfers

inductive CopyStep (Op : Type) where
  | perform (this : Op)
  | handOver (this : Op)
  | specificCopy (this : Op) (copied : Bool)
  | endFailed (this : Op)
  | finishedCopy (this : Op)
  | registerTarget (this : Op) (position : Option Nat)
  | endCopied (this : Op)
  | addEventListener (this : Op) (listener : Nat)
  deriving DecidableEq

/-- The step is one of the thread that performs a copy. -/
def CopyStep.isPerformed {Op : Type} : CopyStep Op → Bool
  | .addEventListener .. => false
  | _ => true

namespace Transfers

section Steps

variable
  {Op : Type}
  [DecidableEq Op]
  (setting : Setting Op)
  (transfers : Transfers Op)

/-- The position is one in the set, if there is a set that gets a location. -/
def IsPosition (this : Op) : Option Nat → Prop
  | none =>
      ∀ data ∈ (setting.copy this).tgtData,
        (setting.copy this).tgtLoc ∈ transfers.locations data
  | some index =>
      ∀ data ∈ (setting.copy this).tgtData,
        index ≤ (transfers.locations data).length

/-- No other thread is in a section of the source data. -/
def Enabled : CopyStep Op → Prop
  | .perform this => transfers.phase this = .created ∧ transfers.holder = none
  | .handOver this => (transfers.phase this).isHandingOver
  | .specificCopy this _ => transfers.phase this = .copying
  | .endFailed this => transfers.phase this = .failing
  | .finishedCopy this =>
      (transfers.phase this).isCleaning ∧ transfers.holder = none
  | .registerTarget this position =>
      (transfers.phase this).isRegistering ∧
        ((setting.copy this).tgtData = some setting.srcData →
          transfers.holder = none) ∧
        transfers.IsPosition setting this position
  | .endCopied this =>
      transfers.phase this = .returning ∧ transfers.holder = none
  | .addEventListener this _ => this ∈ transfers.started

def step : CopyStep Op → Transfers Op
  | .perform this => transfers.perform setting this
  | .handOver this => transfers.handOver this
  | .specificCopy this copied => transfers.specificCopy setting this copied
  | .endFailed this => transfers.endFailed this
  | .finishedCopy this => transfers.finishedCopy this
  | .registerTarget this position =>
      transfers.registerTarget setting this position
  | .endCopied this => transfers.endCopied setting this
  | .addEventListener this listener => transfers.addEventListener this listener

instance IsPosition.decidable (this : Op) :
    (position : Option Nat) →
      Decidable (transfers.IsPosition setting this position)
  | none => inferInstanceAs (Decidable (∀ data ∈ _, _ ∈ _))
  | some _ => inferInstanceAs (Decidable (∀ data ∈ _, _ ≤ _))

instance Enabled.decidable :
    (step : CopyStep Op) → Decidable (transfers.Enabled setting step)
  | .perform _ => inferInstanceAs (Decidable (_ ∧ _))
  | .handOver _ => inferInstanceAs (Decidable (_ = true))
  | .specificCopy _ _ => inferInstanceAs (Decidable (_ = _))
  | .endFailed _ => inferInstanceAs (Decidable (_ = _))
  | .finishedCopy _ => inferInstanceAs (Decidable (_ ∧ _))
  | .registerTarget _ _ => inferInstanceAs (Decidable (_ ∧ (_ → _) ∧ _))
  | .endCopied _ => inferInstanceAs (Decidable (_ ∧ _))
  | .addEventListener _ _ => inferInstanceAs (Decidable (_ ∈ _))

end Steps

variable
  {count : Nat}
  (setting : Setting (Fin count))

/-- Every copy has the listener it was made with. -/
def new : Transfers (Fin count) where
  phase _ := .created
  operation op :=
    { listeners := [⟨op, (setting.copy op).listener⟩]
      endState := none }
  finalTarget _ := none
  inProgress := []
  locations := setting.locations
  holder := none
  started := []
  placed := []
  failed := []
  registered :=
    (List.finRange count).map fun op => ⟨op, (setting.copy op).listener⟩
  notifications := []
  skipped := []
  added := []

def system :
    TransitionSystem (Transfers (Fin count)) (CopyStep (Fin count)) where
  start := new setting
  Enabled := Enabled setting
  next := step setting

instance system_enabled_decidable
    (transfers : Transfers (Fin count))
    (step : CopyStep (Fin count)) :
    Decidable ((system setting).Enabled transfers step) :=
  Enabled.decidable setting transfers step

end Transfers

end DistributedRdf.Data
