import DistributedRdf.ActionSets
import DistributedRdf.ReservationCheck

namespace DistributedRdf.Scheduling

open Java MethodResourceDescription

/-!
# Workers that run tasks

A worker counts the tasks that it runs and, if it is a computing node, keeps
the resources that they leave available.  What it can execute is worked out by
the resource manager.
-/

abbrev WorkerId := Nat

/-- Nothing can be asked for less than nothing. -/
structure MethodResourceDescription.NoNegativeAmounts
    (this : MethodResourceDescription) : Prop where
  units : ∀ p ∈ this.processors, 0 ≤ p.computingUnits
  memory : ∀ size, this.memorySize = some size → 0 ≤ size

structure Implementation where
  requirements : MethodResourceDescription
  noNegativeAmounts : requirements.NoNegativeAmounts

/-- The part of `Resource.Type` that tasks run on. -/
inductive WorkerType where
  | SERVICE
  | WORKER
  deriving DecidableEq

/-- What `updatedFeatures` and `updatedCoreElements` work out. -/
structure WorkerFeatures where
  executableCores : List CoreId
  executableImpls : CoreId → List Implementation
  idealSimultaneousTasks : CoreId → Int
  canRun : Implementation → Bool
  executable_canRun : ∀ core, ∀ impl ∈ executableImpls core, canRun impl

structure Worker where
  type : WorkerType
  description : MethodResourceDescription
  noNegativeAmounts : description.NoNegativeAmounts
  features : WorkerFeatures
  available : MethodResourceDescription
  usedTaskCount : Int
  maxTaskCount : Int
  /-- The tasks that use processors of a type other than CPU. -/
  usedTaskCountOf : ProcessorType → Int
  maxTaskCountOf : ProcessorType → Int

namespace Worker

variable (worker : Worker)

/-- `canRun(int coreId)` -/
def canRunCore (coreId : CoreId) : Bool :=
  worker.features.idealSimultaneousTasks coreId > 0

/-- The types of processors whose tasks are counted. -/
def countedTypes : List ProcessorType :=
  [.GPU, .FPGA, .OTHER]

/-- `usesGPU`, `usesFPGA` and `usesOthers` -/
def uses
    (type : ProcessorType)
    (consumption : MethodResourceDescription) : Bool :=
  worker.type = .WORKER ∧ consumption.totalComputingUnits type > 0

variable (consumption : MethodResourceDescription)

def hasAvailable : Bool :=
  match worker.type with
  | .SERVICE => true
  | .WORKER => worker.available.containsDynamic consumption

def canRunNow : Bool :=
  worker.usedTaskCount < worker.maxTaskCount &&
    (countedTypes.all fun type =>
      worker.usedTaskCountOf type < worker.maxTaskCountOf type ||
        ! worker.uses type consumption) &&
    worker.hasAvailable consumption

/-- Increases or decreases the counts of the types that are used. -/
def countUses
    (change : Int) : Worker :=
  { worker with
    usedTaskCountOf := fun type =>
      if type ∈ countedTypes ∧ worker.uses type consumption then
        worker.usedTaskCountOf type + change
      else
        worker.usedTaskCountOf type }

def reserveResource :
    Worker × Option MethodResourceDescription :=
  match worker.type with
  | .SERVICE => (worker, some consumption)
  | .WORKER =>
      if worker.hasAvailable consumption then
        let (available, reserved) := worker.available.reduceDynamic consumption
        ({ worker with available := available }, reserved)
      else
        (worker, none)

/-- Returns what was reserved, or `none` if the task cannot be hosted. -/
def runTask :
    Worker × Option MethodResourceDescription :=
  if worker.usedTaskCount < worker.maxTaskCount then
    match worker.reserveResource consumption with
    | (worker, some reserved) =>
        ({ worker with
          usedTaskCount := worker.usedTaskCount + 1
        }.countUses consumption 1, some reserved)
    | (worker, none) => (worker, none)
  else
    (worker, none)

/-- What was never reserved is `null`, which only a service does not look at. -/
def endTask
    (consumption : Option MethodResourceDescription) : Outcome Worker Unit :=
  let ended := { worker with usedTaskCount := worker.usedTaskCount - 1 }
  match worker.type, consumption with
  | .SERVICE, _ => .returned ended ()
  | .WORKER, none => .raised ended .nullPointer
  | .WORKER, some consumption =>
      let counted := ended.countUses consumption (-1)
      .returned
        { counted with
          available := counted.available.increaseDynamic consumption } ()

/-!
## Running a task
-/

/-- The resources that are available after a reservation. -/
def ReservedBy
    (consumption reserved : MethodResourceDescription)
    (after : Worker) : Prop :=
  match worker.type with
  | .SERVICE => after.available = worker.available ∧ reserved = consumption
  | .WORKER => Reserved worker.available consumption after.available reserved

/-- The effect of running a task that can run now. -/
structure Runs
    (consumption reserved : MethodResourceDescription)
    (after : Worker) : Prop where
  type : after.type = worker.type
  description : after.description = worker.description
  features : after.features = worker.features
  usedTaskCount : after.usedTaskCount = worker.usedTaskCount + 1
  maxTaskCount : after.maxTaskCount = worker.maxTaskCount
  usedTaskCountOf :
    ∀ type, worker.usedTaskCountOf type ≤ after.usedTaskCountOf type
  maxTaskCountOf : after.maxTaskCountOf = worker.maxTaskCountOf
  resources : worker.ReservedBy consumption reserved after

variable
  {consumption}
  {worker}

theorem runTask_spec
    (canRun : worker.canRunNow consumption) :
    ∃ after reserved,
      worker.runTask consumption = (after, some reserved) ∧
        worker.Runs consumption reserved after := by
  simp only [canRunNow, Bool.and_eq_true, decide_eq_true_eq] at canRun
  rcases canRun with ⟨⟨freeSlot, _⟩, available⟩
  have counted (reserving : Worker) (type : ProcessorType) :
      reserving.usedTaskCountOf type ≤
        (reserving.countUses consumption 1).usedTaskCountOf type := by
    simp only [countUses]
    split
    · omega
    · exact Int.le_refl _
  cases ofType : worker.type with
  | SERVICE =>
      have run :
          worker.runTask consumption =
            ({ worker with
              usedTaskCount := worker.usedTaskCount + 1
            }.countUses consumption 1, some consumption) := by
        simp only [runTask, freeSlot, if_true, reserveResource, ofType]
      refine ⟨_, _, run, rfl, rfl, rfl, rfl, rfl, counted _, rfl, ?_⟩
      simp only [ReservedBy, ofType]
      exact ⟨rfl, trivial⟩
  | WORKER =>
      have contains : worker.available.containsDynamic consumption := by
        simpa only [hasAvailable, ofType] using available
      rcases reduceDynamic_spec contains with
        ⟨after, reduced, reducedEq, reserved⟩
      have run :
          worker.runTask consumption =
            ({ worker with
              available := after
              usedTaskCount := worker.usedTaskCount + 1
            }.countUses consumption 1, some reduced) := by
        simp only [runTask, freeSlot, if_true, reserveResource, ofType,
          hasAvailable, contains, reducedEq]
      refine ⟨_, _, run, rfl, rfl, rfl, rfl, rfl, counted _, rfl, ?_⟩
      simp only [ReservedBy, ofType]
      exact reserved

end Worker

end DistributedRdf.Scheduling
