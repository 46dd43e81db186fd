import DistributedRdf.FallibleSteps
import DistributedRdf.WorkerPool
import Mathlib

namespace DistributedRdf.Resources

open Execution Java KeyedMap WorkerPool List

/-!
# Slots of the workers and their totals

A worker knows for each core how many of its tasks it can run at once.  The
resource manager adds these numbers up and keeps the totals while workers come,
change and go.
-/

section Workers

variable (Implementation : Type) (Description : Type)

/-- What the worker classes say of descriptions and implementations -/
structure WorkerClasses extends WorkerRecords where
  canRun : WorkerId → Description → Implementation → Bool
  fitCount : WorkerId → Description → Implementation → Nat
  maxTaskCount : WorkerId → Nat
  increase : Description → Description → Description
  reduce : Description → Description → Description

structure Worker where
  description : Description
  executableCores : List CoreId
  coreSimultaneousTasks : List Nat

end Workers

section Features

variable
  {Implementation : Type}
  {Description : Type}
  (classes : WorkerClasses Implementation Description)
  (worker : WorkerId)
  (description : Description)

def simultaneousCapacity
    (impl : Implementation) :
    Nat :=
  min (classes.fitCount worker description impl) (classes.maxTaskCount worker)

variable (impls : List Implementation)

/-- Does one of the implementations of a core fit into the worker? -/
def isExecutable :
    Bool :=
  impls.any fun impl =>
    classes.canRun worker description impl &&
      decide (0 < simultaneousCapacity classes worker description impl)

/-- The entry of `idealSimultaneousTasks` for a core -/
def idealTasks :
    Nat :=
  ((impls.filter (classes.canRun worker description)).map
    (simultaneousCapacity classes worker description)).foldl max 0

/-- The entry of `coreSimultaneousTasks` for a core -/
def coreTasks :
    Nat :=
  if isExecutable classes worker description impls then
    min (classes.maxTaskCount worker)
      (idealTasks classes worker description impls)
  else
    0

/-- The indices of the cores with a property -/
def coresWith (coreCount : Nat) (property : CoreId → Bool) : List CoreId :=
  (range coreCount).filter property

namespace Worker

/-- `implementations` are those of `CoreManager`. -/
def updatedFeatures
    (worker : Worker Description)
    (id : WorkerId)
    (implementations : List (List Implementation)) :
    Worker Description where
  description := worker.description
  executableCores :=
    coresWith implementations.length fun coreId =>
      isExecutable classes id worker.description
        (implementations[coreId]?.getD [])
  coreSimultaneousTasks :=
    implementations.map (coreTasks classes id worker.description)

/--
The entries of updated cores are left at zero.  A core that is not updated needs
an entry in the old array.
-/
def updatedCoreElements
    (worker : Worker Description)
    (id : WorkerId)
    (implementations : List (List Implementation))
    (updatedCoreIds : List CoreId) :
    Outcome (Worker Description) Unit :=
  let entries := (range implementations.length).mapM fun coreId =>
    if coreId ∈ updatedCoreIds then some 0
    else worker.coreSimultaneousTasks[coreId]?
  match entries with
  | none => .raised { worker with executableCores := [] } .indexOutOfBounds
  | some coreSimultaneousTasks =>
      .returned {
        description := worker.description
        executableCores :=
          coresWith implementations.length fun coreId =>
            if coreId ∈ updatedCoreIds then
              isExecutable classes id worker.description
                (implementations[coreId]?.getD [])
            else
              decide (coreId ∈ worker.executableCores)
        coreSimultaneousTasks := coreSimultaneousTasks
      } ()

end Worker

end Features

/-- `findAllResources` -/
def WorkerPool.findAllResources
    {records : WorkerRecords}
    (pool : WorkerPool records) :
    List WorkerId :=
  pool.staticSet.values.map .static ++
    (pool.criticalSet.values.map .cloud ++
      pool.nonCriticalSet.values.map .cloud)

/-- The loop that adds the slots of a worker to the totals, or subtracts them -/
def addSlots (sign : Int) : List Int → List Nat → List Int
  | total :: totals, slot :: slots =>
      (total + sign * slot) :: addSlots sign totals slots
  | totals, _ => totals

section Manager

variable
  {Implementation : Type}
  {Description : Type}
  (classes : WorkerClasses Implementation Description)

structure ResourceManager where
  /-- The implementations of each core that `CoreManager` knows -/
  implementations : List (List Implementation)
  pool : WorkerPool classes.toWorkerRecords
  workers : WorkerId → Worker Description
  poolCoreMaxConcurrentTasks : List Int

namespace ResourceManager

variable
  {classes}
  (manager : ResourceManager classes)
  (id : WorkerId)

def setWorker
    (worker : Worker Description) :
    ResourceManager classes :=
  { manager with workers := Function.update manager.workers id worker }

/-- Adds the slots of a worker, with an exception when an entry is missing. -/
def addTotals
    (sign : Int)
    (id : WorkerId) :
    Outcome (ResourceManager classes) Unit :=
  let slots := (manager.workers id).coreSimultaneousTasks
  let added :=
    { manager with
      poolCoreMaxConcurrentTasks :=
        addSlots sign manager.poolCoreMaxConcurrentTasks slots }
  if slots.length ≤ manager.poolCoreMaxConcurrentTasks.length then
    .returned added ()
  else
    .raised added .indexOutOfBounds

def executableCores
    (manager : ResourceManager classes)
    (id : WorkerId) :
    List CoreId :=
  (manager.workers id).executableCores

def defineCriticalSet (manager : ResourceManager classes) :
    Outcome (ResourceManager classes) Unit :=
  (manager.pool.defineCriticalSet manager.executableCores).onState fun pool =>
    { manager with pool := pool }

def updatedFeatures
    (manager : ResourceManager classes)
    (id : WorkerId) :
    ResourceManager classes :=
  manager.setWorker id
    ((manager.workers id).updatedFeatures classes id manager.implementations)

/-- A worker that has just been constructed with a description -/
def construct
    (description : Description) :
    ResourceManager classes :=
  manager.setWorker id {
    description := description
    executableCores := []
    coreSimultaneousTasks := replicate manager.implementations.length 0
  }

def addStaticResource
    (manager : ResourceManager classes)
    (id : Nat) :
    Outcome (ResourceManager classes) Unit :=
  let updated := manager.updatedFeatures (.static id)
  { updated with pool := updated.pool.addStaticResource id }.defineCriticalSet
    |>.andThen fun manager _ => manager.addTotals 1 (.static id)

def removeWorker
    (r : WorkerId) :
    Outcome (ResourceManager classes) Unit :=
  { manager with pool := manager.pool.delete r }.addTotals (-1) r

variable
  (thrown : Option JavaException)
  (worker : CloudId)

/-- `thrown` is what `confirmedRequest` throws. -/
def addCloudWorker :
    Outcome (ResourceManager classes) Unit :=
  match thrown with
  | some exception => .raised manager exception
  | none =>
      let updated := manager.updatedFeatures (.cloud worker)
      { updated with
        pool := updated.pool.addDynamicResource worker }.defineCriticalSet
        |>.andThen fun manager _ => manager.addTotals 1 (.cloud worker)

/-- Another description for a worker of the pool -/
def changeFeatures
    (description : Description) :
    Outcome (ResourceManager classes) Unit :=
  (manager.addTotals (-1) (.cloud worker)).andThen fun manager _ =>
    let changed := manager.setWorker (.cloud worker)
      { manager.workers (.cloud worker) with description := description }
    ((changed.updatedFeatures (.cloud worker)).addTotals 1
        (.cloud worker)).andThen fun manager _ =>
      manager.defineCriticalSet

def increasedCloudWorker
    (extension : Description) :
    Outcome (ResourceManager classes) Unit :=
  match thrown with
  | some exception => .raised manager exception
  | none =>
      manager.changeFeatures worker
        (classes.increase (manager.workers (.cloud worker)).description
          extension)

def reduceCloudWorker
    (reduction : Description) :
    Outcome (ResourceManager classes) Unit :=
  manager.changeFeatures worker
    (classes.reduce (manager.workers (.cloud worker)).description reduction)

/-- The loops of `WorkerPool.coreElementUpdates` -/
def updateWorkers
    (manager : ResourceManager classes)
    (newCores : List CoreId) :
    List WorkerId → Outcome (ResourceManager classes) Unit
  | [] => .returned manager ()
  | id :: rest =>
      match (manager.workers id).updatedCoreElements classes id
          manager.implementations newCores with
      | .raised worker exception =>
          .raised (manager.setWorker id worker) exception
      | .returned worker () =>
          (manager.setWorker id worker).updateWorkers newCores rest

/-- The totals do not change. -/
def coreElementUpdates
    (updatedCores : List CoreId) :
    Outcome (ResourceManager classes) Unit :=
  manager.updateWorkers updatedCores manager.pool.findAllResources

end ResourceManager

end Manager

/-!
## Runs of the resource manager
-/

section Runs

variable
  {Implementation : Type}
  {Description : Type}

inductive SlotEvent (Implementation Description : Type) where
  | addStaticResource (id : Nat) (description : Description)
  | addCloudWorker
      (worker : CloudId)
      (description : Description)
      (thrown : Option JavaException)
  | removeWorker (r : WorkerId)
  | increasedCloudWorker
      (worker : CloudId)
      (extension : Description)
      (thrown : Option JavaException)
  | reduceCloudWorker (worker : CloudId) (reduction : Description)
  /-- `CoreManager` gets new implementations, then `coreElementUpdates` -/
  | registerCores
      (implementations : List (List Implementation))
      (updatedCores : List CoreId)

variable {classes : WorkerClasses Implementation Description}

namespace ResourceManager

variable (manager : ResourceManager classes)

/-- Workers are added once they are constructed, and cores are not forgotten. -/
def Enabled :
    SlotEvent Implementation Description → Prop
  | .addStaticResource id _ =>
      WorkerId.static id ∉ manager.pool.findAllResources
  | .addCloudWorker worker _ _ =>
      WorkerId.cloud worker ∉ manager.pool.findAllResources
  | .registerCores implementations updatedCores =>
      manager.implementations.length ≤ implementations.length ∧
        ∀ coreId, coreId ∈ updatedCores → coreId < implementations.length
  | .removeWorker _ | .increasedCloudWorker .. | .reduceCloudWorker .. => True

def next :
    SlotEvent Implementation Description → ResourceManager classes
  | .addStaticResource id description =>
      ((manager.construct (.static id) description).addStaticResource id).state
  | .addCloudWorker worker description thrown =>
      ((manager.construct (.cloud worker) description).addCloudWorker thrown
        worker).state
  | .removeWorker r => (manager.removeWorker r).state
  | .increasedCloudWorker worker extension thrown =>
      (manager.increasedCloudWorker thrown worker extension).state
  | .reduceCloudWorker worker reduction =>
      (manager.reduceCloudWorker worker reduction).state
  | .registerCores implementations updatedCores =>
      ({ manager with implementations := implementations }.coreElementUpdates
        updatedCores).state

variable
  (classes)
  (implementations : List (List Implementation))
  (description : Description)

/-- A manager without workers -/
def start :
    ResourceManager classes where
  implementations := implementations
  pool := ⟨.empty, .empty, .empty, ⟨[], nodup_nil⟩⟩
  workers := fun _ => ⟨description, [], []⟩
  poolCoreMaxConcurrentTasks := replicate implementations.length 0

def system :
    TransitionSystem (ResourceManager classes)
      (SlotEvent Implementation Description) where
  start := start classes implementations description
  Enabled := Enabled
  next := next

variable {classes}

/-- `getSimultaneousTasks()[coreId]` of a worker -/
def slots
    (coreId : CoreId)
    (id : WorkerId) :
    Int :=
  (manager.workers id).coreSimultaneousTasks.getD coreId 0

/-- The totals have an entry for each core, with the slots of all workers. -/
structure Totalled : Prop where
  sized :
    manager.poolCoreMaxConcurrentTasks.length = manager.implementations.length
  total :
    ∀ coreId, coreId < manager.implementations.length →
      manager.poolCoreMaxConcurrentTasks.getD coreId 0 =
        (manager.pool.findAllResources.map (manager.slots coreId)).sum

/-- No critical worker has been removed. -/
def OrderCurrent : Prop :=
  ∀ worker, worker ∈ manager.pool.criticalOrder.elements →
    worker ∈ manager.pool.criticalSet
  deriving Decidable

/-- The loop over the critical order ends for a pool with one more worker. -/
def Settles
    (pool : WorkerPool classes.toWorkerRecords) :
    Prop :=
  ∃ settled, pool.defineCriticalSet manager.executableCores =
    .returned settled ()

/-- The steps after which the totals still are those of the workers. -/
def KeepsTotals :
    SlotEvent Implementation Description → Prop
  | .addStaticResource id description =>
      (∀ other, other ∈ manager.pool.staticSet →
        classes.staticName other ≠ classes.staticName id) ∧
      manager.OrderCurrent ∧
      ((manager.construct (.static id) description).updatedFeatures
        (.static id)).Settles (manager.pool.addStaticResource id)
  | .addCloudWorker worker description thrown =>
      thrown = none →
        (∀ other, .cloud other ∈ manager.pool.findAllResources →
          classes.cloudName other ≠ classes.cloudName worker) ∧
        manager.OrderCurrent ∧
        ((manager.construct (.cloud worker) description).updatedFeatures
          (.cloud worker)).Settles (manager.pool.addDynamicResource worker)
  | .removeWorker r =>
      r ∈ manager.pool.findAllResources ∧
        ∀ other, other ∈ manager.pool.findAllResources →
          classes.name other = classes.name r → other = r
  | .increasedCloudWorker worker _ thrown =>
      thrown = none →
        .cloud worker ∈ manager.pool.findAllResources ∧ manager.OrderCurrent
  | .reduceCloudWorker worker _ =>
      .cloud worker ∈ manager.pool.findAllResources ∧ manager.OrderCurrent
  | .registerCores implementations updatedCores =>
      implementations.length = manager.implementations.length ∧
        ∀ coreId, coreId ∈ updatedCores →
          ∀ id, id ∈ manager.pool.findAllResources →
            manager.slots coreId id = 0

/-! Runs can be tried. -/

instance
    (manager : ResourceManager classes)
    (pool : WorkerPool classes.toWorkerRecords) :
    Decidable (manager.Settles pool) :=
  match loop : pool.defineCriticalSet manager.executableCores with
  | .returned settled () => isTrue ⟨settled, loop⟩
  | .raised _ _ => isFalse fun ⟨_, returned⟩ => nomatch loop.symm.trans returned

variable (event : SlotEvent Implementation Description)

instance Enabled.decidable :
    Decidable (manager.Enabled event) :=
  match event with
  | .addStaticResource id _ =>
      inferInstanceAs (Decidable
        (WorkerId.static id ∉ manager.pool.findAllResources))
  | .addCloudWorker worker _ _ =>
      inferInstanceAs (Decidable
        (WorkerId.cloud worker ∉ manager.pool.findAllResources))
  | .registerCores implementations updatedCores =>
      inferInstanceAs (Decidable
        (manager.implementations.length ≤ implementations.length ∧
          ∀ coreId ∈ updatedCores, coreId < implementations.length))
  | .removeWorker _ | .increasedCloudWorker .. | .reduceCloudWorker .. =>
      isTrue trivial

instance
    (classes : WorkerClasses Implementation Description)
    (implementations : List (List Implementation))
    (description : Description)
    (manager : ResourceManager classes)
    (event : SlotEvent Implementation Description) :
    Decidable
      ((system classes implementations description).Enabled manager event) :=
  Enabled.decidable manager event

/-- A condition on the cloud workers among some workers -/
instance cloudWorkers.decidable
    (workers : List WorkerId)
    (Condition : CloudId → Prop)
    [DecidablePred Condition] :
    Decidable (∀ other, WorkerId.cloud other ∈ workers → Condition other) :=
  match workers with
  | [] => isTrue fun _ member => nomatch member
  | .static _ :: rest =>
      have := cloudWorkers.decidable rest Condition
      decidable_of_iff
        (∀ other, WorkerId.cloud other ∈ rest → Condition other) (by simp)
  | .cloud id :: rest =>
      have := cloudWorkers.decidable rest Condition
      decidable_of_iff
        (Condition id ∧
          ∀ other, WorkerId.cloud other ∈ rest → Condition other) (by simp)

instance KeepsTotals.decidable :
    Decidable (manager.KeepsTotals event) :=
  match event with
  | .addStaticResource id description =>
      inferInstanceAs (Decidable
        ((∀ other ∈ manager.pool.staticSet.values,
            classes.staticName other ≠ classes.staticName id) ∧
          manager.OrderCurrent ∧
          ((manager.construct (.static id) description).updatedFeatures
            (.static id)).Settles (manager.pool.addStaticResource id)))
  | .addCloudWorker worker description thrown =>
      inferInstanceAs (Decidable
        (thrown = none →
          (∀ other, WorkerId.cloud other ∈ manager.pool.findAllResources →
            classes.cloudName other ≠ classes.cloudName worker) ∧
          manager.OrderCurrent ∧
          ((manager.construct (.cloud worker) description).updatedFeatures
            (.cloud worker)).Settles (manager.pool.addDynamicResource worker)))
  | .removeWorker r =>
      inferInstanceAs (Decidable
        (r ∈ manager.pool.findAllResources ∧
          ∀ other ∈ manager.pool.findAllResources,
            classes.name other = classes.name r → other = r))
  | .increasedCloudWorker worker _ thrown =>
      inferInstanceAs (Decidable
        (thrown = none →
          WorkerId.cloud worker ∈ manager.pool.findAllResources ∧
            manager.OrderCurrent))
  | .reduceCloudWorker worker _ =>
      inferInstanceAs (Decidable
        (WorkerId.cloud worker ∈ manager.pool.findAllResources ∧
          manager.OrderCurrent))
  | .registerCores implementations updatedCores =>
      inferInstanceAs (Decidable
        (implementations.length = manager.implementations.length ∧
          ∀ coreId ∈ updatedCores,
            ∀ id ∈ manager.pool.findAllResources,
              manager.slots coreId id = 0))

end ResourceManager

end Runs

/-!
## Sums over the workers
-/

variable {α : Type}

/-- Two lists of different items with the same members have the same sum. -/
theorem sum_eq_of_mem_iff
    {first second : List α}
    {weight : α → Int}
    (firstDistinct : first.Nodup)
    (secondDistinct : second.Nodup)
    (sameMembers : ∀ item, item ∈ first ↔ item ∈ second) :
    (first.map weight).sum = (second.map weight).sum :=
  ((((perm_ext_iff_of_nodup firstDistinct secondDistinct).mpr
    sameMembers).map weight).sum_eq)

/-- One more item adds its weight. -/
theorem sum_eq_add_of_mem_iff
    {items more : List α}
    {added : α}
    {weight other : α → Int}
    (itemsDistinct : items.Nodup)
    (moreDistinct : more.Nodup)
    (isNew : added ∉ items)
    (members : ∀ item, item ∈ more ↔ item = added ∨ item ∈ items)
    (sameWeight : ∀ item, item ∈ items → other item = weight item) :
    (more.map other).sum = other added + (items.map weight).sum := by
  calc (more.map other).sum
      = ((added :: items).map other).sum := by
        refine sum_eq_of_mem_iff moreDistinct
          (nodup_cons.mpr ⟨isNew, itemsDistinct⟩) fun item => ?_
        rw [members item, mem_cons]
    _ = other added + (items.map other).sum := by
        rw [map_cons, sum_cons]
    _ = other added + (items.map weight).sum := by
        rw [map_congr_left sameWeight]

/-- An item changes its weight. -/
theorem sum_change
    [DecidableEq α]
    {items same : List α}
    {changed : α}
    {weight other : α → Int}
    (itemsDistinct : items.Nodup)
    (sameDistinct : same.Nodup)
    (isMember : changed ∈ items)
    (members : ∀ item, item ∈ same ↔ item ∈ items)
    (sameWeight : ∀ item, item ≠ changed → other item = weight item) :
    (same.map other).sum =
      (items.map weight).sum - weight changed + other changed := by
  have others : changed ∉ items.erase changed :=
    itemsDistinct.not_mem_erase
  have split : ∀ item,
      item ∈ items ↔ item = changed ∨ item ∈ items.erase changed := by
    intro item
    rw [itemsDistinct.mem_erase_iff]
    by_cases isChanged : item = changed
    · simp [isChanged, isMember]
    · simp [isChanged]
  have before : (items.map weight).sum =
      weight changed + ((items.erase changed).map weight).sum :=
    sum_eq_add_of_mem_iff (itemsDistinct.erase changed) itemsDistinct others
      split fun item _ => rfl
  have after := sum_eq_add_of_mem_iff (itemsDistinct.erase changed)
    sameDistinct others (fun item => (members item).trans (split item))
    fun item member => sameWeight item fun isChanged =>
      others (isChanged ▸ member)
  rw [before, after]
  omega

variable
  {sign : Int}
  {totals : List Int}
  {slots : List Nat}

@[simp] theorem length_addSlots :
    (addSlots sign totals slots).length = totals.length := by
  fun_induction addSlots sign totals slots with
  | case1 total totals slot slots hypothesis =>
      rw [length_cons, length_cons, hypothesis]
  | case2 => rfl

theorem getD_addSlots
    {coreId : CoreId}
    (isCore : coreId < totals.length) :
    (addSlots sign totals slots).getD coreId 0 =
      totals.getD coreId 0 + sign * (slots.getD coreId 0 : Nat) := by
  induction totals generalizing slots coreId with
  | nil => exact absurd isCore (Nat.not_lt_zero coreId)
  | cons total totals hypothesis =>
      cases slots with
      | nil => simp [addSlots]
      | cons slot slots =>
          cases coreId with
          | zero => simp [addSlots]
          | succ coreId =>
              simpa [addSlots] using
                hypothesis (Nat.lt_of_succ_lt_succ isCore)

/-!
## The workers of a pool
-/

namespace WorkerPool

variable {records : WorkerRecords}

/-- No name is that of a critical and of a non-critical worker. -/
def NamesDisjoint (pool : WorkerPool records) : Prop :=
  ∀ first second, first ∈ pool.criticalSet → second ∈ pool.nonCriticalSet →
    records.cloudName first ≠ records.cloudName second

variable
  {pool : WorkerPool records}
  {worker : WorkerId}

theorem mem_findAllResources :
    worker ∈ pool.findAllResources ↔
      match worker with
      | .static id => id ∈ pool.staticSet
      | .cloud id => id ∈ pool.criticalSet ∨ id ∈ pool.nonCriticalSet := by
  rw [findAllResources, mem_append, mem_append, mem_map,
    mem_map, mem_map]
  cases worker with
  | static id => simp
  | cloud id => simp

theorem findAllResources_nodup
    (disjoint : pool.NamesDisjoint) :
    pool.findAllResources.Nodup := by
  have staticInjective : Function.Injective WorkerId.static :=
    fun first second same => WorkerId.static.inj same
  have cloudInjective : Function.Injective WorkerId.cloud :=
    fun first second same => WorkerId.cloud.inj same
  unfold findAllResources
  rw [← map_append]
  refine nodup_append.mpr ⟨?statics, ?clouds, ?kinds⟩
  case statics => exact pool.staticSet.distinct.of_map.map staticInjective
  case clouds =>
    refine (nodup_append.mpr ⟨pool.criticalSet.distinct.of_map,
      pool.nonCriticalSet.distinct.of_map, ?_⟩).map cloudInjective
    rintro first firstMember second secondMember rfl
    exact disjoint first first firstMember secondMember rfl
  case kinds =>
    rintro first firstMember second secondMember rfl
    obtain ⟨id, -, rfl⟩ := mem_map.mp firstMember
    obtain ⟨other, -, same⟩ := mem_map.mp secondMember
    cases same

/-- The same workers, though some critical ones are not critical any more. -/
structure SameWorkers (pool after : WorkerPool records) : Prop where
  disjoint : after.NamesDisjoint
  members :
    ∀ worker, worker ∈ after.findAllResources ↔ worker ∈ pool.findAllResources

theorem NamesDisjoint.sameWorkers_move
    {resource : CloudId}
    {order : OrderedWorkers}
    (disjoint : pool.NamesDisjoint)
    (isCritical : resource ∈ pool.criticalSet) :
    pool.SameWorkers {
      pool with
      criticalSet := pool.criticalSet.remove (records.cloudName resource)
      criticalOrder := order
      nonCriticalSet := pool.nonCriticalSet.put resource
    } := by
  constructor
  · intro first second firstMember secondMember same
    obtain ⟨firstMember, different⟩ := mem_remove.mp firstMember
    rcases mem_put.mp secondMember with rfl | ⟨secondMember, -⟩
    · exact different same
    · exact disjoint first second firstMember secondMember same
  · intro worker
    rw [mem_findAllResources, mem_findAllResources]
    cases worker with
    | static id => rfl
    | cloud id =>
        simp only [mem_remove, mem_put]
        constructor
        · rintro (⟨critical, -⟩ | rfl | ⟨nonCritical, -⟩)
          · exact .inl critical
          · exact .inl isCritical
          · exact .inr nonCritical
        · rintro (critical | nonCritical)
          · by_cases sameName :
                records.cloudName id = records.cloudName resource
            · exact .inr (.inl
                (eq_of_key_eq critical isCritical sameName))
            · exact .inl ⟨critical, sameName⟩
          · exact .inr (.inr ⟨nonCritical, fun sameName =>
              disjoint resource id isCritical nonCritical sameName.symm⟩)

variable {executableCores : WorkerId → List CoreId}

theorem NamesDisjoint.sameWorkers_defineFrom
    {runnable : CoreId → Bool}
    {order : List CloudId}
    (disjoint : pool.NamesDisjoint)
    (critical : ∀ worker, worker ∈ order → worker ∈ pool.criticalSet) :
    pool.SameWorkers (pool.defineFrom executableCores runnable order).state := by
  induction order generalizing runnable with
  | nil => exact ⟨disjoint, fun _ => Iff.rfl⟩
  | cons resource rest hypothesis =>
      rw [defineFrom]
      dsimp only
      split
      · exact hypothesis fun worker member =>
          critical worker (mem_cons_of_mem resource member)
      · have isCritical := critical resource mem_cons_self
        split
        · exact disjoint.sameWorkers_move isCritical
        · exact disjoint.sameWorkers_move isCritical

theorem NamesDisjoint.sameWorkers_defineCriticalSet
    (disjoint : pool.NamesDisjoint)
    (ordered :
      ∀ worker, worker ∈ pool.criticalOrder.elements →
        worker ∈ pool.criticalSet) :
    pool.SameWorkers (pool.defineCriticalSet executableCores).state :=
  disjoint.sameWorkers_defineFrom ordered

theorem mem_addStaticResource
    {newResource : Nat}
    (unused :
      ∀ other, other ∈ pool.staticSet →
        records.staticName other ≠ records.staticName newResource) :
    worker ∈ (pool.addStaticResource newResource).findAllResources ↔
      worker = .static newResource ∨ worker ∈ pool.findAllResources := by
  rw [mem_findAllResources, mem_findAllResources]
  cases worker with
  | static id =>
      simp only [addStaticResource, mem_put, WorkerId.static.injEq]
      exact or_congr_right (and_iff_left_of_imp (unused id))
  | cloud id => simp [addStaticResource]

variable {cloud : CloudId}

theorem mem_addDynamicResource
    (unused :
      ∀ other, .cloud other ∈ pool.findAllResources →
        records.cloudName other ≠ records.cloudName cloud) :
    worker ∈ (pool.addDynamicResource cloud).findAllResources ↔
      worker = .cloud cloud ∨ worker ∈ pool.findAllResources := by
  rw [mem_findAllResources, mem_findAllResources]
  cases worker with
  | static id => simp [addDynamicResource]
  | cloud id =>
      simp only [addDynamicResource, mem_put, WorkerId.cloud.injEq]
      rw [or_assoc]
      refine or_congr_right (or_congr_left (and_iff_left_of_imp fun critical =>
        unused id ?_))
      exact mem_findAllResources.mpr (.inl critical)

theorem NamesDisjoint.addDynamicResource
    (disjoint : pool.NamesDisjoint)
    (unused :
      ∀ other, .cloud other ∈ pool.findAllResources →
        records.cloudName other ≠ records.cloudName cloud) :
    (pool.addDynamicResource cloud).NamesDisjoint := by
  intro first second firstMember secondMember same
  rcases mem_put.mp firstMember with rfl | ⟨firstMember, -⟩
  · exact unused second (mem_findAllResources.mpr (.inr secondMember)) same.symm
  · exact disjoint first second firstMember secondMember same

variable {resource : WorkerId}

/-- Where a worker that is alone with its name is deleted -/
theorem delete_cases
    (isWorker : resource ∈ pool.findAllResources)
    (onlyItself :
      ∀ other, other ∈ pool.findAllResources →
        records.name other = records.name resource → other = resource) :
    (∃ id, id ∈ pool.nonCriticalSet ∧ resource = .cloud id ∧
      pool.delete resource =
        { pool with
          nonCriticalSet :=
            pool.nonCriticalSet.remove (records.cloudName id) }) ∨
    (∃ id, id ∈ pool.criticalSet ∧ resource = .cloud id ∧
      pool.delete resource =
        { pool with
          criticalSet := pool.criticalSet.remove (records.cloudName id) }) ∨
    ∃ id, id ∈ pool.staticSet ∧ resource = .static id ∧
      pool.delete resource =
        { pool with
          staticSet := pool.staticSet.remove (records.staticName id) } := by
  unfold delete
  dsimp only
  split
  · rename_i named
    obtain ⟨id, nonCritical, sameName⟩ := hasName_iff.mp named
    obtain rfl := onlyItself (.cloud id)
      (mem_findAllResources.mpr (.inr nonCritical)) sameName
    exact .inl ⟨id, nonCritical, rfl, rfl⟩
  · rename_i noneNonCritical
    split
    · rename_i named
      obtain ⟨id, critical, sameName⟩ := hasName_iff.mp named
      obtain rfl := onlyItself (.cloud id)
        (mem_findAllResources.mpr (.inl critical)) sameName
      exact .inr (.inl ⟨id, critical, rfl, rfl⟩)
    · rename_i noneCritical
      cases resource with
      | cloud id =>
          rcases mem_findAllResources.mp isWorker with critical | nonCritical
          · exact absurd (hasName_iff.mpr ⟨id, critical, rfl⟩) noneCritical
          · exact absurd (hasName_iff.mpr ⟨id, nonCritical, rfl⟩)
              noneNonCritical
      | static id =>
          exact .inr (.inr ⟨id, mem_findAllResources.mp isWorker, rfl, rfl⟩)

theorem mem_delete
    {resource worker : WorkerId}
    (isWorker : resource ∈ pool.findAllResources)
    (onlyItself :
      ∀ other, other ∈ pool.findAllResources →
        records.name other = records.name resource → other = resource) :
    worker ∈ pool.findAllResources ↔
      worker = resource ∨
        worker ∈ (pool.delete resource).findAllResources := by
  rw [mem_findAllResources, mem_findAllResources]
  rcases delete_cases isWorker onlyItself with
    ⟨id, member, rfl, deleted⟩ | ⟨id, member, rfl, deleted⟩ |
      ⟨id, member, rfl, deleted⟩
  · cases worker with
    | static other => simp [deleted]
    | cloud other =>
        simp only [deleted, mem_iff_of_mem member,
          WorkerId.cloud.injEq]
        exact or_left_comm
  · cases worker with
    | static other => simp [deleted]
    | cloud other =>
        simp only [deleted, mem_iff_of_mem member,
          WorkerId.cloud.injEq]
        exact or_assoc
  · cases worker with
    | static other =>
        simp only [deleted, mem_iff_of_mem member,
          WorkerId.static.injEq]
    | cloud other => simp [deleted]

variable (disjoint : pool.NamesDisjoint)

include disjoint

theorem NamesDisjoint.not_mem_delete
    (isWorker : resource ∈ pool.findAllResources)
    (onlyItself :
      ∀ other, other ∈ pool.findAllResources →
        records.name other = records.name resource → other = resource) :
    resource ∉ (pool.delete resource).findAllResources := by
  rw [mem_findAllResources]
  rcases delete_cases isWorker onlyItself with
    ⟨id, member, rfl, deleted⟩ | ⟨id, member, rfl, deleted⟩ |
      ⟨id, member, rfl, deleted⟩
  · rw [deleted]
    rintro (critical | remains)
    · exact disjoint id id critical member rfl
    · exact (mem_remove.mp remains).2 rfl
  · rw [deleted]
    rintro (remains | nonCritical)
    · exact (mem_remove.mp remains).2 rfl
    · exact disjoint id id member nonCritical rfl
  · rw [deleted]
    exact fun remains => (mem_remove.mp remains).2 rfl

theorem NamesDisjoint.delete :
    (pool.delete resource).NamesDisjoint := by
  unfold WorkerPool.delete
  dsimp only
  split
  · intro first second firstMember secondMember
    exact disjoint first second firstMember
      (mem_remove.mp secondMember).1
  · split
    · intro first second firstMember
      exact disjoint first second (mem_remove.mp firstMember).1
    · exact disjoint

end WorkerPool

/-!
## One step of the resource manager
-/

namespace ResourceManager

variable
  {Implementation : Type}
  {Description : Type}
  {classes : WorkerClasses Implementation Description}
  {manager after : ResourceManager classes}

/-- What the steps preserve: every worker has an entry for each core. -/
structure Kept (manager : ResourceManager classes) : Prop
    extends Totalled manager where
  disjoint : manager.pool.NamesDisjoint
  entries :
    ∀ id, id ∈ manager.pool.findAllResources →
      (manager.workers id).coreSimultaneousTasks.length =
        manager.implementations.length

variable
  {sign : Int}
  {id : WorkerId}

@[simp] theorem state_addTotals :
    (manager.addTotals sign id).state =
      { manager with
        poolCoreMaxConcurrentTasks :=
          addSlots sign manager.poolCoreMaxConcurrentTasks
            (manager.workers id).coreSimultaneousTasks } := by
  rw [addTotals]
  split
  · rfl
  · rfl

theorem addTotals_eq_returned
    (fits :
      (manager.workers id).coreSimultaneousTasks.length ≤
        manager.poolCoreMaxConcurrentTasks.length) :
    manager.addTotals sign id =
      .returned { manager with
        poolCoreMaxConcurrentTasks :=
          addSlots sign manager.poolCoreMaxConcurrentTasks
            (manager.workers id).coreSimultaneousTasks } () := by
  rw [addTotals]
  exact if_pos fits

/-- A worker with a new name, and its slots in the totals. -/
theorem Kept.added
    (kept : manager.Kept)
    (isNew : id ∉ manager.pool.findAllResources)
    (implementations : after.implementations = manager.implementations)
    (disjoint : after.pool.NamesDisjoint)
    (members :
      ∀ worker, worker ∈ after.pool.findAllResources ↔
        worker = id ∨ worker ∈ manager.pool.findAllResources)
    (others : ∀ other, other ≠ id → after.workers other = manager.workers other)
    (entries :
      (after.workers id).coreSimultaneousTasks.length =
        manager.implementations.length)
    (totals :
      after.poolCoreMaxConcurrentTasks =
        addSlots 1 manager.poolCoreMaxConcurrentTasks
          (after.workers id).coreSimultaneousTasks) :
    after.Kept where
  sized := by
    rw [totals, length_addSlots, implementations, kept.sized]
  total := by
    intro coreId isCore
    rw [implementations] at isCore
    have same : ∀ other, other ∈ manager.pool.findAllResources →
        after.slots coreId other = manager.slots coreId other := by
      intro other member
      rw [slots, slots, others other (ne_of_mem_of_not_mem member isNew)]
    rw [totals, getD_addSlots (kept.sized ▸ isCore), kept.total coreId isCore,
      sum_eq_add_of_mem_iff (findAllResources_nodup kept.disjoint)
        (findAllResources_nodup disjoint) isNew members same,
      one_mul, add_comm]
    rfl
  disjoint := disjoint
  entries := by
    intro worker member
    rw [implementations]
    by_cases isAdded : worker = id
    · rw [isAdded, entries]
    · rw [others worker isAdded]
      exact kept.entries worker
        (((members worker).mp member).resolve_left isAdded)

/-- A worker is taken away, and its slots from the totals. -/
theorem Kept.removed
    (kept : manager.Kept)
    (gone : id ∉ after.pool.findAllResources)
    (implementations : after.implementations = manager.implementations)
    (disjoint : after.pool.NamesDisjoint)
    (members :
      ∀ worker, worker ∈ manager.pool.findAllResources ↔
        worker = id ∨ worker ∈ after.pool.findAllResources)
    (workers : after.workers = manager.workers)
    (totals :
      after.poolCoreMaxConcurrentTasks =
        addSlots (-1) manager.poolCoreMaxConcurrentTasks
          (manager.workers id).coreSimultaneousTasks) :
    after.Kept where
  sized := by
    rw [totals, length_addSlots, implementations, kept.sized]
  total := by
    intro coreId isCore
    rw [implementations] at isCore
    have same : ∀ other, other ∈ after.pool.findAllResources →
        manager.slots coreId other = after.slots coreId other := by
      intro other member
      rw [slots, slots, workers]
    have before : (manager.pool.findAllResources.map
          (manager.slots coreId)).sum = manager.slots coreId id +
        (after.pool.findAllResources.map (after.slots coreId)).sum :=
      sum_eq_add_of_mem_iff (findAllResources_nodup disjoint)
        (findAllResources_nodup kept.disjoint) gone members same
    rw [totals, getD_addSlots (kept.sized ▸ isCore), kept.total coreId isCore,
      before]
    change manager.slots coreId id + _ + -1 * manager.slots coreId id = _
    omega
  disjoint := disjoint
  entries := by
    intro worker member
    rw [implementations, workers]
    exact kept.entries worker ((members worker).mpr (.inr member))

/-- The slots of a worker are replaced in the totals. -/
theorem Kept.changed
    (kept : manager.Kept)
    (isWorker : id ∈ manager.pool.findAllResources)
    (implementations : after.implementations = manager.implementations)
    (same : manager.pool.SameWorkers after.pool)
    (others : ∀ other, other ≠ id → after.workers other = manager.workers other)
    (entries :
      (after.workers id).coreSimultaneousTasks.length =
        manager.implementations.length)
    (totals :
      after.poolCoreMaxConcurrentTasks =
        addSlots 1
          (addSlots (-1) manager.poolCoreMaxConcurrentTasks
            (manager.workers id).coreSimultaneousTasks)
          (after.workers id).coreSimultaneousTasks) :
    after.Kept where
  sized := by
    rw [totals, length_addSlots, length_addSlots, implementations, kept.sized]
  total := by
    intro coreId isCore
    rw [implementations] at isCore
    have sameSlots : ∀ other, other ≠ id →
        after.slots coreId other = manager.slots coreId other := by
      intro other different
      rw [slots, slots, others other different]
    have isTotal : coreId < manager.poolCoreMaxConcurrentTasks.length :=
      kept.sized ▸ isCore
    rw [totals, getD_addSlots (by rwa [length_addSlots]), getD_addSlots isTotal,
      kept.total coreId isCore,
      sum_change (findAllResources_nodup kept.disjoint)
        (findAllResources_nodup same.disjoint) isWorker same.members
        sameSlots]
    change _ + -1 * manager.slots coreId id + 1 * after.slots coreId id = _
    omega
  disjoint := same.disjoint
  entries := by
    intro worker member
    rw [implementations]
    by_cases isChanged : worker = id
    · rw [isChanged, entries]
    · rw [others worker isChanged]
      exact kept.entries worker ((same.members worker).mp member)

/-- The slots of the workers of the pool do not change. -/
theorem Kept.sameSlots
    (kept : manager.Kept)
    (implementations :
      after.implementations.length = manager.implementations.length)
    (pool : after.pool = manager.pool)
    (totals :
      after.poolCoreMaxConcurrentTasks = manager.poolCoreMaxConcurrentTasks)
    (slots :
      ∀ id, id ∈ manager.pool.findAllResources →
        (after.workers id).coreSimultaneousTasks =
          (manager.workers id).coreSimultaneousTasks) :
    after.Kept where
  sized := by
    rw [totals, implementations, kept.sized]
  total := by
    intro coreId isCore
    rw [totals, pool, kept.total coreId (implementations ▸ isCore)]
    refine congrArg sum (map_congr_left fun id member => ?_)
    rw [ResourceManager.slots, ResourceManager.slots, slots id member]
  disjoint := pool ▸ kept.disjoint
  entries := by
    intro id member
    rw [pool] at member
    rw [slots id member, implementations, kept.entries id member]

variable {implementations : List (List Implementation)}

@[simp] theorem length_updatedFeatures
    {worker : Worker Description} :
    (worker.updatedFeatures classes id
      implementations).coreSimultaneousTasks.length =
        implementations.length :=
  length_map _

variable {description : Description}

/-- A constructed worker is added to the pool and its slots to the totals. -/
theorem Kept.addTotals
    {pool : WorkerPool classes.toWorkerRecords}
    (kept : manager.Kept)
    (isNew : id ∉ manager.pool.findAllResources)
    (disjoint : pool.NamesDisjoint)
    (ordered :
      ∀ worker, worker ∈ pool.criticalOrder.elements →
        worker ∈ pool.criticalSet)
    (members :
      ∀ worker, worker ∈ pool.findAllResources ↔
        worker = id ∨ worker ∈ manager.pool.findAllResources)
    (settles :
      ((manager.construct id description).updatedFeatures id).Settles pool) :
    ({ (manager.construct id description).updatedFeatures id with
        pool := pool }.defineCriticalSet.andThen
      fun manager _ => manager.addTotals 1 id).state.Kept := by
  obtain ⟨settled, settledPool⟩ := settles
  have same : pool.SameWorkers settled := by
    have loop : pool.SameWorkers (pool.defineCriticalSet
        ((manager.construct id description).updatedFeatures
          id).executableCores).state :=
      disjoint.sameWorkers_defineCriticalSet ordered
    rwa [settledPool] at loop
  have returned :
      { (manager.construct id description).updatedFeatures id with
        pool := pool }.defineCriticalSet =
        .returned { (manager.construct id description).updatedFeatures id with
          pool := settled } () := by
    rw [defineCriticalSet]
    change Outcome.onState (pool.defineCriticalSet
      ((manager.construct id description).updatedFeatures
        id).executableCores) _ = _
    rw [settledPool]
    rfl
  rw [returned, Outcome.andThen_returned, state_addTotals]
  refine kept.added isNew rfl same.disjoint ?members ?others ?entries rfl
  case members =>
    exact fun worker => (same.members worker).trans (members worker)
  case others =>
    intro other different
    simp [updatedFeatures, construct, setWorker, different]
  case entries => simp [updatedFeatures, construct, setWorker]

theorem Kept.addStaticResource
    {id : Nat}
    (kept : manager.Kept)
    (enabled : manager.Enabled (.addStaticResource id description))
    (keeps : manager.KeepsTotals (.addStaticResource id description)) :
    (manager.next (.addStaticResource id description)).Kept := by
  obtain ⟨unused, current, settles⟩ := keeps
  exact kept.addTotals enabled kept.disjoint current
    (fun _ => mem_addStaticResource unused) settles

variable
  {worker : CloudId}
  {thrown : Option JavaException}

section

variable (kept : manager.Kept)

include kept

theorem Kept.addCloudWorker
    (enabled : manager.Enabled (.addCloudWorker worker description thrown))
    (keeps : manager.KeepsTotals (.addCloudWorker worker description thrown)) :
    (manager.next (.addCloudWorker worker description thrown)).Kept := by
  cases thrown with
  | some exception =>
      refine kept.sameSlots rfl rfl rfl fun id member => ?_
      have different : id ≠ .cloud worker := ne_of_mem_of_not_mem member enabled
      simp [next, ResourceManager.addCloudWorker, construct, setWorker,
        different]
  | none =>
      obtain ⟨unused, current, settles⟩ := keeps rfl
      refine kept.addTotals enabled (kept.disjoint.addDynamicResource unused)
        ?ordered (fun _ => mem_addDynamicResource unused) settles
      case ordered =>
        have notOrdered : ∀ other,
            other ∈ manager.pool.criticalOrder.elements →
              classes.cloudName other ≠ classes.cloudName worker :=
          fun other ordered => unused other
            (mem_findAllResources.mpr (.inl (current other ordered)))
        intro other ordered
        refine mem_put.mpr (((mem_addOrdered fun other ordered same =>
          absurd same (notOrdered other ordered)).mp ordered).imp_right
            fun ordered => ?_)
        exact ⟨current other ordered, notOrdered other ordered⟩

theorem Kept.removeWorker
    {r : WorkerId}
    (keeps : manager.KeepsTotals (.removeWorker r)) :
    (manager.next (.removeWorker r)).Kept := by
  obtain ⟨isWorker, onlyItself⟩ := keeps
  change (manager.removeWorker r).state.Kept
  rw [ResourceManager.removeWorker, state_addTotals]
  exact kept.removed (kept.disjoint.not_mem_delete isWorker onlyItself) rfl
    kept.disjoint.delete (fun _ => mem_delete isWorker onlyItself)
    rfl rfl

/-- The slots of a worker are those of another description. -/
theorem Kept.changeFeatures
    (isWorker : .cloud worker ∈ manager.pool.findAllResources)
    (current : manager.OrderCurrent) :
    (manager.changeFeatures worker description).state.Kept := by
  have old : (manager.workers (.cloud worker)).coreSimultaneousTasks.length ≤
      manager.poolCoreMaxConcurrentTasks.length :=
    Nat.le_of_eq ((kept.entries (.cloud worker) isWorker).trans kept.sized.symm)
  rw [ResourceManager.changeFeatures, addTotals_eq_returned old,
    Outcome.andThen_returned]
  dsimp only
  rw [addTotals_eq_returned, Outcome.andThen_returned]
  · rw [defineCriticalSet, Outcome.state_onState]
    refine kept.changed isWorker rfl ?same ?others ?entries rfl
    case same => exact kept.disjoint.sameWorkers_defineCriticalSet current
    case others =>
      intro other different
      simp [updatedFeatures, setWorker, different]
    case entries => simp [updatedFeatures, setWorker]
  · simp only [updatedFeatures, setWorker, Function.update_self,
      length_updatedFeatures, length_addSlots]
    exact Nat.le_of_eq kept.sized.symm

theorem Kept.increasedCloudWorker
    {extension : Description}
    (keeps :
      manager.KeepsTotals (.increasedCloudWorker worker extension thrown)) :
    (manager.next (.increasedCloudWorker worker extension thrown)).Kept := by
  cases thrown with
  | some exception => exact kept
  | none =>
      obtain ⟨isWorker, current⟩ := keeps rfl
      exact kept.changeFeatures isWorker current

theorem Kept.reduceCloudWorker
    {reduction : Description}
    (keeps : manager.KeepsTotals (.reduceCloudWorker worker reduction)) :
    (manager.next (.reduceCloudWorker worker reduction)).Kept :=
  kept.changeFeatures keeps.1 keeps.2

omit kept in
/-- The entries of updated cores were zero before they are left at zero. -/
theorem updatedCoreElements_eq_returned
    (classes : WorkerClasses Implementation Description)
    {worker : Worker Description}
    (id : WorkerId)
    {updatedCoreIds : List CoreId}
    (entries :
      worker.coreSimultaneousTasks.length = implementations.length)
    (zero :
      ∀ coreId, coreId ∈ updatedCoreIds →
        worker.coreSimultaneousTasks.getD coreId 0 = 0) :
    ∃ updated, worker.updatedCoreElements classes id implementations
        updatedCoreIds = .returned updated () ∧
      updated.coreSimultaneousTasks = worker.coreSimultaneousTasks := by
  have entry : ∀ coreId, coreId ∈ range implementations.length →
      (if coreId ∈ updatedCoreIds then some 0
        else worker.coreSimultaneousTasks[coreId]?) =
        some (worker.coreSimultaneousTasks.getD coreId 0) := by
    intro coreId isCore
    have isEntry : coreId < worker.coreSimultaneousTasks.length :=
      entries ▸ mem_range.mp isCore
    split
    · rename_i isUpdated
      rw [zero coreId isUpdated]
    · rw [getD_eq_getElem?_getD, getElem?_eq_getElem isEntry,
        Option.getD_some]
  have copied : (range implementations.length).mapM (fun coreId =>
      if coreId ∈ updatedCoreIds then some 0
      else worker.coreSimultaneousTasks[coreId]?) =
        some worker.coreSimultaneousTasks := by
    rw [mapM_eq_some_map entry, ← entries]
    refine congrArg some (ext_getElem ?_ fun coreId before isEntry => ?_)
    · simp
    · simp [getElem?_eq_getElem isEntry]
  rw [Worker.updatedCoreElements]
  simp only [copied]
  exact ⟨_, rfl, rfl⟩

omit kept in
theorem updateWorkers_sameSlots
    (manager : ResourceManager classes)
    {newCores : List CoreId}
    {workers : List WorkerId}
    (entries :
      ∀ id, id ∈ workers →
        (manager.workers id).coreSimultaneousTasks.length =
          manager.implementations.length)
    (zero :
      ∀ coreId, coreId ∈ newCores →
        ∀ id, id ∈ workers → manager.slots coreId id = 0) :
    ∃ workersAfter, manager.updateWorkers newCores workers =
        .returned { manager with workers := workersAfter } () ∧
      ∀ id, (workersAfter id).coreSimultaneousTasks =
        (manager.workers id).coreSimultaneousTasks := by
  induction workers generalizing manager with
  | nil => exact ⟨manager.workers, rfl, fun _ => rfl⟩
  | cons id rest hypothesis =>
      obtain ⟨updated, returned, sameSlots⟩ :=
        updatedCoreElements_eq_returned classes id
          (entries id mem_cons_self) fun coreId isUpdated =>
            Int.ofNat_eq_zero.mp (zero coreId isUpdated id mem_cons_self)
      have same : ∀ other,
          ((manager.setWorker id updated).workers
            other).coreSimultaneousTasks =
              (manager.workers other).coreSimultaneousTasks := by
        intro other
        by_cases isUpdated : other = id
        · simp [setWorker, isUpdated, sameSlots]
        · simp [setWorker, isUpdated]
      obtain ⟨workersAfter, restReturned, restSame⟩ :=
        hypothesis (manager.setWorker id updated)
          (fun other member => by
            rw [same other]
            exact entries other (mem_cons_of_mem id member))
          (fun coreId isUpdated other member => by
            rw [slots, same other]
            exact zero coreId isUpdated other (mem_cons_of_mem id member))
      refine ⟨workersAfter, ?_, fun other =>
        (restSame other).trans (same other)⟩
      rw [updateWorkers, returned]
      exact restReturned

theorem Kept.registerCores
    {updatedCores : List CoreId}
    (keeps :
      manager.KeepsTotals (.registerCores implementations updatedCores)) :
    (manager.next (.registerCores implementations updatedCores)).Kept := by
  obtain ⟨sameCount, zero⟩ := keeps
  obtain ⟨workersAfter, returned, sameSlots⟩ :=
    updateWorkers_sameSlots
      { manager with implementations := implementations }
      (fun id member => (kept.entries id member).trans sameCount.symm) zero
  change ResourceManager.Kept (Outcome.state (updateWorkers ..))
  rw [returned]
  exact kept.sameSlots sameCount rfl rfl fun id _ => sameSlots id

theorem Kept.next
    {event : SlotEvent Implementation Description}
    (enabled : manager.Enabled event)
    (keeps : manager.KeepsTotals event) :
    (manager.next event).Kept := by
  cases event with
  | addStaticResource id description =>
      exact kept.addStaticResource enabled keeps
  | addCloudWorker worker description thrown =>
      exact kept.addCloudWorker enabled keeps
  | removeWorker r => exact kept.removeWorker keeps
  | increasedCloudWorker worker extension thrown =>
      exact kept.increasedCloudWorker keeps
  | reduceCloudWorker worker reduction => exact kept.reduceCloudWorker keeps
  | registerCores implementations updatedCores => exact kept.registerCores keeps

end

/-! ## Runs -/

theorem kept_start :
    (start classes implementations description).Kept where
  sized := length_replicate
  total := by
    intro coreId isCore
    have isCore : coreId < implementations.length := isCore
    simp [start, findAllResources, empty, isCore]
  disjoint := by
    intro first second member
    exact absurd member (not_mem_empty first)
  entries := by
    intro id member
    exact absurd member not_mem_nil

/-- Workers that can run as many tasks as they have units -/
def unitClasses : WorkerClasses Unit Nat where
  name
    | .static _ => "static"
    | .cloud _ => "cloud"
  value := fun _ => none
  canRun := fun _ _ _ => true
  fitCount := fun _ units _ => units
  maxTaskCount := fun _ => 10
  increase := fun units extension => units + extension
  reduce := fun units reduction => units - reduction

/-- A cloud worker comes, changes and goes; the second core had no
implementation before. -/
def cloudWorkerUsed : List (SlotEvent Unit Nat) :=
  [.addStaticResource 0 2, .addCloudWorker 0 3 none,
    .increasedCloudWorker 0 2 none, .reduceCloudWorker 0 1,
    .registerCores [[()], [()]] [1], .removeWorker (.cloud 0)]

/-- The core of a static worker gets new implementations. -/
def coreUpdated : List (SlotEvent Unit Nat) :=
  [.addStaticResource 0 2, .registerCores [[()]] [0]]

end ResourceManager

end DistributedRdf.Resources
