import DistributedRdf.CloudDescriptions
import DistributedRdf.DataInfoProvider
import DistributedRdf.TransitionSystem
import DistributedRdf.TreeSets

namespace DistributedRdf.Connectors

open Java Engine Execution Resources Scheduling.MethodResourceDescription

/-!
# Virtual machines of a connector

A connector keeps the machines that it has created in a map by name, in a list
of the machines that are alive, and, while they wait for their deletion or to
be used again, in a sorted set.  The set compares machines by how much of their
current hour has passed.  Creation threads, deletion threads and the loop of
the deadline thread change the three collections.
-/

def ONE_HOUR : Int := 3600000

def DELETE_SAFETY_INTERVAL : Int := 30000

structure VM where
  name : String
  imageName : String
  description : CloudMethodResourceDescription
  startTime : Int
  toDelete : Bool

namespace VM

/-- `(int) (now - getStartTime()) % 3_600_000` -/
def hourPassed (vm : VM) (now : Int) : Int :=
  (Int.bmod (now - vm.startTime) (2 ^ 32)).tmod ONE_HOUR

def compareTo (this vm : VM) (now : Int) : Int :=
  if vm.name = this.name then
    0
  else
    vm.hourPassed now - this.hourPassed now

variable
  (timeSlot : Int)
  (vmInfo : VM)
  (now : Int)

def canBeSaved : Bool :=
  if timeSlot ≤ 0 then
    false
  else
    (now - vmInfo.startTime).tmod timeSlot < timeSlot - DELETE_SAFETY_INTERVAL

def timeLeft : Int :=
  if timeSlot ≤ 0 then
    0
  else
    timeSlot - (now - vmInfo.startTime).tmod timeSlot

/-- The deadline loop deletes the machine. -/
def overdue : Bool :=
  vmInfo.timeLeft timeSlot now < DELETE_SAFETY_INTERVAL && vmInfo.toDelete

/-- No two times need to agree on which of two machines is the less. -/
theorem compareTo_reverses
    {this vm : VM}
    (otherName : vm.name ≠ this.name)
    (later : this.startTime < vm.startTime)
    (withinHour : vm.startTime < this.startTime + ONE_HOUR) :
    this.compareTo vm vm.startTime < 0 ∧
      0 < this.compareTo vm (this.startTime + ONE_HOUR) := by
  have ages :
      ∀ age, 0 ≤ age → age < ONE_HOUR →
        (Int.bmod age (2 ^ 32)).tmod ONE_HOUR = age := by
    intro age nonNegative less
    have inRange : age < 3600000 := less
    rw [Int.bmod_eq_of_le (by omega) (by omega),
      Int.tmod_eq_of_lt nonNegative less]
  have inRange : vm.startTime < this.startTime + 3600000 := withinHour
  simp only [compareTo, if_neg otherName, hourPassed]
  constructor
  · have older := ages (vm.startTime - this.startTime) (by omega)
      (by rw [ONE_HOUR]; omega)
    rw [older, Int.sub_self]
    change 0 - (vm.startTime - this.startTime) < 0
    omega
  · have younger := ages (this.startTime + ONE_HOUR - vm.startTime)
      (by rw [ONE_HOUR]; omega) (by rw [ONE_HOUR]; omega)
    have wholeHour : this.startTime + ONE_HOUR - this.startTime = ONE_HOUR := by
      omega
    rw [younger, wholeHour]
    change 0 < this.startTime + 3600000 - vm.startTime - 0
    omega

end VM

/-- Machines are known by the order of their creation. -/
structure AbstractConnector where
  vms : Nat → VM
  created : Nat
  IPToVM : JavaMap String Nat
  vmsAlive : List Nat
  vmsToDelete : List Nat
  /-- The machines that creation threads prepare -/
  preparing : List Nat
  /-- The machines that deletion threads stop, in order to destroy them -/
  deletions : List Nat
  /-- The machines that the deadline loop has given up -/
  expired : List Nat
  /-- The machines whose deletion has been started -/
  givenUp : List Nat
  destroyed : List Nat
  /-- The machines that were handed out after their deletion was started -/
  lateReuses : List Nat

namespace AbstractConnector

def unused : VM where
  name := ""
  imageName := ""
  description :=
    { empty with
      storageSize := none
      storageType := none
      operatingSystemType := none
      operatingSystemDistribution := none
      operatingSystemVersion := none
      appSoftware := []
      hostQueues := [] }
  startTime := 0
  toDelete := false

def new : AbstractConnector where
  vms _ := unused
  created := 0
  IPToVM := ∅
  vmsAlive := []
  vmsToDelete := []
  preparing := []
  deletions := []
  expired := []
  givenUp := []
  destroyed := []
  lateReuses := []

variable (connector : AbstractConnector)

/-- How a machine compares with others, each at the time it is looked at -/
def comparison
    (clock : Nat → Int)
    (this vm : Nat) : Int :=
  (connector.vms this).compareTo (connector.vms vm) (clock vm)

variable (vm : Nat)

def updateVM
    (change : VM → VM) : AbstractConnector :=
  { connector with
    vms other :=
      if other = vm then change (connector.vms other) else connector.vms other }

variable (toDelete : Bool)

def setToDelete : AbstractConnector :=
  connector.updateVM vm fun vmInfo => { vmInfo with toDelete := toDelete }

@[simp] theorem name_setToDelete
    (other : Nat) :
    ((connector.setToDelete vm toDelete).vms other).name =
      (connector.vms other).name := by
  rw [setToDelete, updateVM]
  dsimp only
  split <;> rfl

@[simp] theorem toDelete_setToDelete :
    ((connector.setToDelete vm toDelete).vms vm).toDelete = toDelete := by
  rw [setToDelete, updateVM]
  dsimp only
  rw [if_pos rfl]

theorem setToDelete_of_ne
    {vm other : Nat}
    (different : other ≠ vm) :
    (connector.setToDelete vm toDelete).vms other = connector.vms other :=
  if_neg different

def startDeletion : AbstractConnector :=
  { connector with
    deletions := connector.deletions ++ [vm]
    givenUp := connector.givenUp ++ [vm] }

/-- The provider has created a machine; `addMachine` enters it. -/
def waitCreation
    (name imageName : String)
    (description : CloudMethodResourceDescription) : AbstractConnector :=
  let vm := connector.created
  { connector.updateVM vm fun _ =>
      { name := name
        imageName := imageName
        description := description
        startTime := 0
        toDelete := false } with
    created := vm + 1
    IPToVM := connector.IPToVM.insert name vm
    vmsAlive := connector.vmsAlive ++ [vm]
    preparing := connector.preparing ++ [vm] }

def vmReady
    (now : Int) : AbstractConnector :=
  { connector.updateVM vm fun vmInfo => { vmInfo with startTime := now } with
    preparing := connector.preparing.erase vm }

def removeMachine : AbstractConnector :=
  { connector with
    IPToVM := connector.IPToVM.erase (connector.vms vm).name
    vmsAlive :=
      connector.vmsAlive.eraseP fun other =>
        (connector.vms vm).name = (connector.vms other).name }

variable (destroys : Bool)

/-- The provider may fail to destroy the machine. -/
def poweroff : AbstractConnector :=
  if destroys then
    { connector.removeMachine vm with
      destroyed := connector.destroyed ++ [vm] }
  else
    connector

/-- The creation thread powers a machine off that it cannot prepare. -/
def creationFailed : AbstractConnector :=
  { connector with
    preparing := connector.preparing.erase vm
    givenUp := connector.givenUp ++ [vm] }.poweroff vm destroys

def deletionEnded : AbstractConnector :=
  { connector with deletions := connector.deletions.erase vm }.poweroff vm
    destroys

/-- The machine that a request gets, if there is one -/
def reusable
    (imageReq : String)
    (requested : CloudMethodResourceDescription) : Option Nat :=
  connector.vmsToDelete.find? fun vm =>
    (connector.vms vm).imageName = imageReq &&
      (connector.vms vm).description.contains requested

section Parameters

variable
  (timeSlot : Int)
  (sets : TreeSet.Implementation Nat)
  (connector : AbstractConnector)

/--
The deletion thread that asks goes on with the machine it gets.  It gets none
if the machine is saved.
-/
def pause
    (ip : String)
    (now : Int)
    (clock : Nat → Int) : AbstractConnector :=
  match connector.IPToVM.lookup ip with
  | none => connector
  | some vm =>
      if (connector.vms vm).canBeSaved timeSlot now then
        { connector.setToDelete vm true with
          vmsToDelete :=
            sets.add (connector.comparison clock) connector.vmsToDelete vm }
      else
        connector.startDeletion vm

def tryToReuseVM
    (imageReq : String)
    (requested : CloudMethodResourceDescription)
    (clock : Nat → Int) : AbstractConnector :=
  match connector.reusable imageReq requested with
  | none => connector
  | some vm =>
      { connector.setToDelete vm false with
        vmsToDelete :=
          sets.remove (connector.comparison clock) connector.vmsToDelete vm
        lateReuses :=
          if vm ∈ connector.givenUp then
            connector.lateReuses ++ [vm]
          else
            connector.lateReuses }

/-- The first machine that a pass finds to be overdue -/
def firstOverdue
    (now : Nat → Int) : Option Nat :=
  connector.vmsAlive.find? fun vm =>
    (connector.vms vm).overdue timeSlot (now vm)

/--
A pass of the deadline loop.  `pollFirst` changes the list that the loop is
iterating over: the pass ends there, with a `ConcurrentModificationException`
or because the iterator has passed the last index.
-/
def deadlinePass
    (now clock : Nat → Int) : AbstractConnector :=
  match connector.firstOverdue timeSlot now with
  | none => connector
  | some vm =>
      { connector with
        vmsAlive := connector.vmsAlive.tail
        vmsToDelete :=
          sets.remove (connector.comparison clock) connector.vmsToDelete vm
        expired := connector.expired ++ [vm] }.startDeletion vm

end Parameters

end AbstractConnector

/-- What a connector is asked to do, and what its threads do on their own -/
inductive ConnectorAction where
  | waitCreation
      (name imageName : String)
      (description : CloudMethodResourceDescription)
  | vmReady (vm : Nat) (now : Int)
  | creationFailed (vm : Nat) (destroys : Bool)
  | pause (ip : String) (now : Int) (clock : Nat → Int)
  | tryToReuseVM
      (imageReq : String)
      (requested : CloudMethodResourceDescription)
      (clock : Nat → Int)
  | deadlinePass (now clock : Nat → Int)
  | poweroff (vm : Nat) (destroys : Bool)

namespace AbstractConnector

/-- Only workers whose machines are prepared are known to the runtime. -/
def Enabled (connector : AbstractConnector) : ConnectorAction → Prop
  | .vmReady vm _ => vm ∈ connector.preparing
  | .creationFailed vm _ => vm ∈ connector.preparing
  | .pause ip _ _ => ∀ vm ∈ connector.preparing, (connector.vms vm).name ≠ ip
  | .poweroff vm _ => vm ∈ connector.deletions
  | _ => True

variable
  (timeSlot : Int)
  (sets : TreeSet.Implementation Nat)

def step
    (connector : AbstractConnector) :
    ConnectorAction → AbstractConnector
  | .waitCreation name imageName description =>
      connector.waitCreation name imageName description
  | .vmReady vm now => connector.vmReady vm now
  | .creationFailed vm destroys => connector.creationFailed vm destroys
  | .pause ip now clock => connector.pause timeSlot sets ip now clock
  | .tryToReuseVM imageReq requested clock =>
      connector.tryToReuseVM sets imageReq requested clock
  | .deadlinePass now clock => connector.deadlinePass timeSlot sets now clock
  | .poweroff vm destroys => connector.deletionEnded vm destroys

def system :
    TransitionSystem AbstractConnector ConnectorAction where
  start := .new
  Enabled := Enabled
  next := step timeSlot sets

instance Enabled.decidable
    (connector : AbstractConnector) :
    (action : ConnectorAction) → Decidable (connector.Enabled action)
  | .vmReady vm _ => inferInstanceAs (Decidable (vm ∈ connector.preparing))
  | .creationFailed vm _ =>
      inferInstanceAs (Decidable (vm ∈ connector.preparing))
  | .pause ip _ _ =>
      inferInstanceAs
        (Decidable (∀ vm ∈ connector.preparing, (connector.vms vm).name ≠ ip))
  | .poweroff vm _ => inferInstanceAs (Decidable (vm ∈ connector.deletions))
  | .waitCreation .. => isTrue trivial
  | .tryToReuseVM .. => isTrue trivial
  | .deadlinePass .. => isTrue trivial

instance system_enabled_decidable
    (connector : AbstractConnector)
    (action : ConnectorAction) :
    Decidable ((system timeSlot sets).Enabled connector action) :=
  Enabled.decidable connector action

end AbstractConnector

end DistributedRdf.Connectors
