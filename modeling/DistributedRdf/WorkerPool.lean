import DistributedRdf.KeyedMap
import DistributedRdf.MethodOutcome
import DistributedRdf.TransitionSystem
import Mathlib.Order.Basic

namespace DistributedRdf.Resources

open Execution Java KeyedMap List Std.LawfulEqCmp

/-!
# Pool of workers

Static workers are kept for ever.  A dynamic worker is critical while it is
needed for a core that the static and the other critical workers cannot
execute; only the other dynamic workers may be destroyed.
-/

abbrev CoreId := Nat

/-- Identities of `CloudMethodWorker` objects -/
abbrev CloudId := Nat

inductive WorkerId where
  | static (id : Nat)
  | cloud (id : CloudId)
  deriving DecidableEq

/-- What the pool sorts its workers by -/
structure WorkerRecords where
  name : WorkerId → String
  /-- `getValue` of the description, a `Float` as a multiple of its unit -/
  value : CloudId → Option Int

variable (records : WorkerRecords)

def WorkerRecords.staticName (id : Nat) : String :=
  records.name (.static id)

def WorkerRecords.cloudName (id : CloudId) : String :=
  records.name (.cloud id)

/-- `MethodWorker.compareTo` -/
def compareTo (this w : CloudId) : Ordering :=
  match records.value this, records.value w with
  | none, none => compare (records.cloudName w) (records.cloudName this)
  | none, some _ => .gt
  | some _, none => .lt
  | some own, some other =>
      (compare own other).then
        (compare (records.cloudName this) (records.cloudName w))

theorem compareTo_self (w : CloudId) : compareTo records w w = .eq := by
  unfold compareTo
  cases records.value w with
  | none => simp
  | some value => simp

/-- A `TreeSet` of workers -/
structure OrderedWorkers where
  elements : List CloudId
  distinct : elements.Nodup

namespace OrderedWorkers

variable (order : OrderedWorkers)

/-- `TreeSet.add`: nothing is added when an element compares equal. -/
def add (w : CloudId) : OrderedWorkers :=
  if found : order.elements.any fun other => compareTo records other w = .eq then
    order
  else
    { elements :=
        order.elements.takeWhile (fun other => compareTo records other w = .lt) ++
          w :: order.elements.dropWhile
            (fun other => compareTo records other w = .lt)
      distinct := by
        rw [perm_middle.nodup_iff, takeWhile_append_dropWhile,
          nodup_cons]
        refine ⟨fun member => found ?_, order.distinct⟩
        exact any_eq_true.mpr
          ⟨w, member, decide_eq_true_eq.mpr (compareTo_self records w)⟩ }

/-- `TreeSet.remove` -/
def remove (w : CloudId) : OrderedWorkers where
  elements := order.elements.filter fun other => compareTo records other w ≠ .eq
  distinct := order.distinct.filter _

end OrderedWorkers

structure WorkerPool where
  staticSet : KeyedMap records.staticName
  criticalSet : KeyedMap records.cloudName
  nonCriticalSet : KeyedMap records.cloudName
  criticalOrder : OrderedWorkers

namespace WorkerPool

variable
  {records : WorkerRecords}
  (executableCores : WorkerId → List CoreId)
  (pool : WorkerPool records)

def addStaticResource
    (newResource : Nat) :
    WorkerPool records :=
  { pool with staticSet := pool.staticSet.put newResource }

def addDynamicResource
    (newResource : CloudId) :
    WorkerPool records :=
  { pool with
    criticalSet := pool.criticalSet.put newResource
    criticalOrder := pool.criticalOrder.add records newResource }

/-- Is there a resource with this name among the values of a map? -/
def hasName {α : Type} {name : α → String}
    (map : KeyedMap name)
    (resourceName : String) :
    Bool :=
  map.values.any (name · = resourceName)

def delete
    (resource : WorkerId) :
    WorkerPool records :=
  let resourceName := records.name resource
  if hasName pool.nonCriticalSet resourceName then
    { pool with nonCriticalSet := pool.nonCriticalSet.remove resourceName }
  else if hasName pool.criticalSet resourceName then
    { pool with criticalSet := pool.criticalSet.remove resourceName }
  else
    { pool with staticSet := pool.staticSet.remove resourceName }

/-- The cores that the static workers can execute -/
def staticRunnable (coreId : CoreId) : Bool :=
  pool.staticSet.values.any fun res =>
    coreId ∈ executableCores (.static res)

/--
The loop over the critical order.  It removes from the set that it iterates,
which the iterator notices unless it has reached the end.
-/
def defineFrom
    (pool : WorkerPool records)
    (runnable : CoreId → Bool) :
    List CloudId → Outcome (WorkerPool records) Unit
  | [] => .returned pool ()
  | resource :: rest =>
      let cores := executableCores (.cloud resource)
      if cores.any fun coreId => !runnable coreId then
        pool.defineFrom
          (fun coreId => runnable coreId || decide (coreId ∈ cores))
          rest
      else
        let moved := {
          pool with
          criticalSet := pool.criticalSet.remove (records.cloudName resource)
          criticalOrder := pool.criticalOrder.remove records resource
          nonCriticalSet := pool.nonCriticalSet.put resource
        }
        if rest = [] then
          .returned moved ()
        else
          .raised moved .concurrentModification

def defineCriticalSet :
    Outcome (WorkerPool records) Unit :=
  pool.defineFrom executableCores (pool.staticRunnable executableCores)
    pool.criticalOrder.elements

end WorkerPool

section Order

variable {records}

theorem name_of_compareTo
    {first second : CloudId}
    (same : compareTo records first second = .eq) :
    records.cloudName first = records.cloudName second := by
  unfold compareTo at same
  split at same
  · exact (eq_of_compare same).symm
  · exact absurd same (by simp)
  · exact absurd same (by simp)
  · exact eq_of_compare (Ordering.then_eq_eq.mp same).2

variable {order : OrderedWorkers}

theorem mem_addOrdered
    {added worker : CloudId}
    (onlyItself :
      ∀ other, other ∈ order.elements →
        records.cloudName other = records.cloudName added → other = added) :
    worker ∈ (order.add records added).elements ↔
      worker = added ∨ worker ∈ order.elements := by
  unfold OrderedWorkers.add
  split
  · rename_i found
    obtain ⟨other, member, same⟩ := any_eq_true.mp found
    have isAdded := onlyItself other member
      (name_of_compareTo (decide_eq_true_eq.mp same))
    constructor
    · exact .inr
    · rintro (rfl | already)
      · exact isAdded ▸ member
      · exact already
  · rw [mem_append, mem_cons, or_left_comm, ← mem_append,
      takeWhile_append_dropWhile]

theorem mem_removeOrdered
    {removed worker : CloudId}
    (onlyItself :
      ∀ other, other ∈ order.elements →
        records.cloudName other = records.cloudName removed →
          other = removed) :
    worker ∈ (order.remove records removed).elements ↔
      worker ∈ order.elements ∧ worker ≠ removed := by
  unfold OrderedWorkers.remove
  rw [mem_filter, decide_eq_true_eq]
  refine and_congr_right fun member => not_congr ⟨fun same => ?_, ?_⟩
  · exact onlyItself worker member (name_of_compareTo same)
  · rintro rfl
    exact compareTo_self records worker

theorem hasName_iff {α : Type} {name : α → String}
    {map : KeyedMap name}
    {resourceName : String} :
    WorkerPool.hasName map resourceName = true ↔
      ∃ worker, worker ∈ map ∧ name worker = resourceName := by
  simp only [WorkerPool.hasName, any_eq_true, decide_eq_true_eq]
  rfl

end Order

/-!
## Runs of a pool
-/

/-- Workers with the cores that they can execute -/
structure PoolWorkers extends WorkerRecords where
  executableCores : WorkerId → List CoreId

variable (workers : PoolWorkers)

/-- A pool, and the workers that were added and deleted. -/
structure PoolHistory where
  pool : WorkerPool workers.toWorkerRecords
  /-- Dynamic workers that were added and not deleted since -/
  dynamic : List CloudId
  /-- Workers that were deleted and not added since -/
  deleted : List WorkerId

inductive PoolEvent where
  | addStaticResource (newResource : Nat)
  | addDynamicResource (newResource : CloudId)
  | delete (resource : WorkerId)
  | defineCriticalSet
  deriving DecidableEq

namespace PoolHistory

variable {workers}

def next (history : PoolHistory workers) : PoolEvent → PoolHistory workers
  | .addStaticResource newResource =>
      { history with
        pool := history.pool.addStaticResource newResource
        deleted := history.deleted.filter (· ≠ .static newResource) }
  | .addDynamicResource newResource =>
      { pool := history.pool.addDynamicResource newResource
        dynamic := newResource :: history.dynamic
        deleted := history.deleted.filter (· ≠ .cloud newResource) }
  | .delete resource =>
      { pool := history.pool.delete resource
        dynamic := history.dynamic.filter (WorkerId.cloud · ≠ resource)
        deleted := resource :: history.deleted }
  | .defineCriticalSet =>
      { history with pool := (history.pool.defineCriticalSet workers.executableCores).state }

def start : PoolHistory workers where
  pool := ⟨.empty, .empty, .empty, ⟨[], nodup_nil⟩⟩
  dynamic := []
  deleted := []

def system (workers : PoolWorkers) :
    TransitionSystem (PoolHistory workers) PoolEvent where
  start := start
  Enabled := fun _ _ => True
  next := next

variable (pool : WorkerPool workers.toWorkerRecords)

/-- A static or critical worker can execute the core. -/
def Covered (coreId : CoreId) : Prop :=
  (∃ worker, worker ∈ pool.staticSet ∧
      coreId ∈ workers.executableCores (.static worker)) ∨
    ∃ worker, worker ∈ pool.criticalSet ∧
      coreId ∈ workers.executableCores (.cloud worker)
  deriving Decidable

structure CriticalKept (history : PoolHistory workers) : Prop where
  disjoint :
    ∀ first second, first ∈ history.pool.criticalSet →
      second ∈ history.pool.nonCriticalSet →
        workers.cloudName first ≠ workers.cloudName second
  live :
    ∀ worker, worker ∈ history.dynamic ↔
      worker ∈ history.pool.criticalSet ∨ worker ∈ history.pool.nonCriticalSet
  order :
    ∀ worker, worker ∈ history.pool.criticalOrder.elements ↔
      worker ∈ history.pool.criticalSet
  covered :
    ∀ coreId,
      ((∃ worker, worker ∈ history.pool.staticSet ∧
          coreId ∈ workers.executableCores (.static worker)) ∨
        ∃ worker, worker ∈ history.dynamic ∧
          coreId ∈ workers.executableCores (.cloud worker)) →
        Covered history.pool coreId
  notReturned :
    ∀ worker, worker ∈ history.deleted →
      match worker with
      | .static id => id ∉ history.pool.staticSet
      | .cloud id =>
          id ∉ history.pool.criticalSet ∧ id ∉ history.pool.nonCriticalSet

/-- A change of the static workers leaves the cores of the non-critical workers
to the other static and critical ones. -/
def LosesNoCore
    (staticSet : KeyedMap workers.staticName) :
    Prop :=
  ∀ lost, lost ∈ pool.staticSet → lost ∉ staticSet →
    ∀ coreId, coreId ∈ workers.executableCores (.static lost) →
      ∀ worker, worker ∈ pool.nonCriticalSet →
        coreId ∈ workers.executableCores (.cloud worker) →
          Covered { pool with staticSet := staticSet } coreId
  deriving Decidable

/-- Names are not used twice, and no critical worker is deleted. -/
def WithoutCriticalDeletion
    (history : PoolHistory workers) :
    PoolEvent → Prop
  | .addStaticResource newResource =>
      LosesNoCore history.pool (history.pool.staticSet.put newResource)
  | .addDynamicResource newResource =>
      (∀ other, other ∈ history.pool.nonCriticalSet →
        workers.cloudName other ≠ workers.cloudName newResource) ∧
      ∀ other, other ∈ history.pool.criticalSet →
        workers.cloudName other = workers.cloudName newResource →
          other = newResource
  | .delete resource =>
      (∀ other, other ∈ history.pool.nonCriticalSet →
        workers.cloudName other = workers.name resource →
          resource = .cloud other) ∧
      (∀ other, other ∈ history.pool.criticalSet →
        workers.cloudName other ≠ workers.name resource) ∧
      ((∀ other, other ∈ history.pool.nonCriticalSet →
          workers.cloudName other ≠ workers.name resource) →
        LosesNoCore history.pool
          (history.pool.staticSet.remove (workers.name resource)))
  | .defineCriticalSet => True

instance (history : PoolHistory workers) (event : PoolEvent) :
    Decidable (history.WithoutCriticalDeletion event) :=
  match event with
  | .addStaticResource newResource =>
      inferInstanceAs (Decidable
        (LosesNoCore history.pool (history.pool.staticSet.put newResource)))
  | .addDynamicResource newResource =>
      inferInstanceAs (Decidable
        ((∀ other ∈ history.pool.nonCriticalSet.values,
            workers.cloudName other ≠ workers.cloudName newResource) ∧
          ∀ other ∈ history.pool.criticalSet.values,
            workers.cloudName other = workers.cloudName newResource →
              other = newResource))
  | .delete resource =>
      inferInstanceAs (Decidable
        ((∀ other ∈ history.pool.nonCriticalSet.values,
            workers.cloudName other = workers.name resource →
              resource = .cloud other) ∧
          (∀ other ∈ history.pool.criticalSet.values,
            workers.cloudName other ≠ workers.name resource) ∧
          ((∀ other ∈ history.pool.nonCriticalSet.values,
              workers.cloudName other ≠ workers.name resource) →
            LosesNoCore history.pool
              (history.pool.staticSet.remove (workers.name resource)))))
  | .defineCriticalSet => isTrue trivial

variable {history : PoolHistory workers}

/-! ## The loop over the critical order -/

section

variable (kept : history.CriticalKept)

include kept

/-- A critical worker whose cores the others can execute is moved. -/
theorem CriticalKept.move
    {resource : CloudId}
    (isCritical : resource ∈ history.pool.criticalSet)
    (others :
      ∀ coreId, coreId ∈ workers.executableCores (.cloud resource) →
        (∃ worker, worker ∈ history.pool.staticSet ∧
            coreId ∈ workers.executableCores (.static worker)) ∨
          ∃ worker, worker ∈ history.pool.criticalSet ∧ worker ≠ resource ∧
            coreId ∈ workers.executableCores (.cloud worker)) :
    { history with
      pool := {
        history.pool with
        criticalSet :=
          history.pool.criticalSet.remove (workers.cloudName resource)
        criticalOrder := history.pool.criticalOrder.remove workers.toWorkerRecords resource
        nonCriticalSet := history.pool.nonCriticalSet.put resource
      } }.CriticalKept := by
  have onlyItself : ∀ other, other ∈ history.pool.criticalSet →
      workers.cloudName other = workers.cloudName resource →
        other = resource := fun other member same =>
    eq_of_key_eq member isCritical same
  have noOther : ∀ other, other ∈ history.pool.nonCriticalSet →
      workers.cloudName other ≠ workers.cloudName resource :=
    fun other member same => kept.disjoint resource other isCritical member
      same.symm
  refine ⟨?disjoint, ?live, ?order, ?covered, ?notReturned⟩
  case disjoint =>
    intro first second firstMember secondMember same
    obtain ⟨firstMember, different⟩ := mem_remove.mp firstMember
    rcases mem_put.mp secondMember with rfl | ⟨secondMember, -⟩
    · exact different same
    · exact kept.disjoint first second firstMember secondMember same
  case live =>
    intro worker
    rw [kept.live worker]
    simp only [mem_remove, mem_put]
    constructor
    · rintro (critical | nonCritical)
      · by_cases same : worker = resource
        · exact .inr (.inl same)
        · exact .inl ⟨critical, fun sameName =>
            same (onlyItself worker critical sameName)⟩
      · exact .inr (.inr ⟨nonCritical, noOther worker nonCritical⟩)
    · rintro (⟨critical, -⟩ | rfl | ⟨nonCritical, -⟩)
      · exact .inl critical
      · exact .inl isCritical
      · exact .inr nonCritical
  case order =>
    intro worker
    have onlyOrdered : ∀ other, other ∈ history.pool.criticalOrder.elements →
        workers.cloudName other = workers.cloudName resource →
          other = resource := fun other member =>
      onlyItself other ((kept.order other).mp member)
    simp only [mem_removeOrdered onlyOrdered, mem_remove,
      kept.order worker]
    refine and_congr_right fun critical => not_congr ⟨?_, ?_⟩
    · rintro rfl
      rfl
    · exact onlyItself worker critical
  case covered =>
    intro coreId executable
    have stays : (∃ worker, worker ∈ history.pool.staticSet ∧
          coreId ∈ workers.executableCores (.static worker)) ∨
        ∃ worker, worker ∈ history.pool.criticalSet ∧ worker ≠ resource ∧
          coreId ∈ workers.executableCores (.cloud worker) := by
      rcases kept.covered coreId executable with static | ⟨worker, member, executes⟩
      · exact .inl static
      · by_cases same : worker = resource
        · exact others coreId (same ▸ executes)
        · exact .inr ⟨worker, member, same, executes⟩
    rcases stays with static | ⟨worker, member, different, executes⟩
    · exact .inl static
    · refine .inr ⟨worker, mem_remove.mpr ⟨member, ?_⟩, executes⟩
      exact fun same => different (onlyItself worker member same)
  case notReturned =>
    intro worker isDeleted
    have before := kept.notReturned worker isDeleted
    cases worker with
    | static id => exact before
    | cloud id =>
        refine ⟨fun member => before.1 (mem_remove.mp member).1, ?_⟩
        intro member
        rcases mem_put.mp member with rfl | ⟨member, -⟩
        · exact before.1 isCritical
        · exact before.2 member

/--
What the loop knows: the runnable cores are those of static workers and of
critical workers that it has passed.
-/
theorem CriticalKept.defineFrom
    {order : List CloudId}
    {runnable : CoreId → Bool}
    (critical : ∀ worker, worker ∈ order → worker ∈ history.pool.criticalSet)
    (distinct : order.Nodup)
    (passed :
      ∀ coreId, runnable coreId = true →
        (∃ worker, worker ∈ history.pool.staticSet ∧
            coreId ∈ workers.executableCores (.static worker)) ∨
          ∃ worker, worker ∈ history.pool.criticalSet ∧ worker ∉ order ∧
            coreId ∈ workers.executableCores (.cloud worker)) :
    { history with
      pool := (history.pool.defineFrom workers.executableCores runnable order).state }.CriticalKept := by
  induction order generalizing runnable with
  | nil => exact kept
  | cons resource rest hypothesis =>
      have notAgain := (nodup_cons.mp distinct).1
      rw [WorkerPool.defineFrom]
      dsimp only
      split
      · refine hypothesis
          (fun worker member => critical worker (mem_cons_of_mem _ member))
          (nodup_cons.mp distinct).2 ?_
        intro coreId isRunnable
        rcases Bool.or_eq_true_iff.mp isRunnable with before | executes
        · rcases passed coreId before with static | ⟨worker, member, isPassed, found⟩
          · exact .inl static
          · exact .inr ⟨worker, member,
              fun later => isPassed (mem_cons_of_mem _ later), found⟩
        · exact .inr ⟨resource, critical resource mem_cons_self, notAgain,
            decide_eq_true_eq.mp executes⟩
      · rename_i notNeeded
        have moved := kept.move (critical resource mem_cons_self) (by
          intro coreId executes
          have isRunnable : runnable coreId = true := by
            by_contra notRunnable
            apply notNeeded
            refine any_eq_true.mpr ⟨coreId, executes, ?_⟩
            rw [Bool.eq_false_iff.mpr notRunnable]
            rfl
          rcases passed coreId isRunnable with static | ⟨worker, member, isPassed, found⟩
          · exact .inl static
          · refine .inr ⟨worker, member, ?_, found⟩
            rintro rfl
            exact isPassed mem_cons_self)
        split
        · exact moved
        · exact moved

theorem CriticalKept.defineCriticalSet :
    (history.next .defineCriticalSet).CriticalKept := by
  refine kept.defineFrom (fun worker => (kept.order worker).mp)
    history.pool.criticalOrder.distinct ?_
  intro coreId runnable
  obtain ⟨worker, member, executes⟩ := any_eq_true.mp runnable
  exact .inl ⟨worker, member, decide_eq_true_eq.mp executes⟩

/-! ## One step -/

/-- Other static workers keep the properties when no core is lost. -/
theorem CriticalKept.covered_static_iff
    (staticSet : KeyedMap workers.staticName) :
    (∀ coreId,
      ((∃ worker, worker ∈ staticSet ∧
          coreId ∈ workers.executableCores (.static worker)) ∨
        ∃ worker, worker ∈ history.dynamic ∧
          coreId ∈ workers.executableCores (.cloud worker)) →
        Covered { history.pool with staticSet := staticSet } coreId) ↔
      LosesNoCore history.pool staticSet := by
  constructor
  · intro covered lost _ _ coreId _ worker nonCritical executes
    exact covered coreId
      (.inr ⟨worker, (kept.live worker).mpr (.inr nonCritical), executes⟩)
  · rintro losesNone coreId (static | ⟨worker, isLive, executes⟩)
    · exact .inl static
    · rcases (kept.live worker).mp isLive with critical | nonCritical
      · exact .inr ⟨worker, critical, executes⟩
      · rcases kept.covered coreId (.inr ⟨worker, isLive, executes⟩) with
          ⟨static, member, found⟩ | critical
        · by_cases remains : static ∈ staticSet
          · exact .inl ⟨static, remains, found⟩
          · exact losesNone static member remains coreId found worker
              nonCritical executes
        · exact .inr critical

theorem criticalKept_addStaticResource_iff
    {newResource : Nat} :
    (history.next (.addStaticResource newResource)).CriticalKept ↔
      history.WithoutCriticalDeletion (.addStaticResource newResource) := by
  have covered :=
    kept.covered_static_iff (history.pool.staticSet.put newResource)
  constructor
  · intro after
    exact covered.mp after.covered
  · intro losesNone
    refine ⟨kept.disjoint, kept.live, kept.order, covered.mpr losesNone, ?_⟩
    intro worker isDeleted
    obtain ⟨isDeleted, different⟩ := mem_filter.mp isDeleted
    have before := kept.notReturned worker isDeleted
    cases worker with
    | cloud id => exact before
    | static id =>
        intro member
        rcases mem_put.mp member with rfl | ⟨already, -⟩
        · simp at different
        · exact before already

theorem criticalKept_addDynamicResource_iff
    {newResource : CloudId} :
    (history.next (.addDynamicResource newResource)).CriticalKept ↔
      history.WithoutCriticalDeletion (.addDynamicResource newResource) := by
  have isNew : newResource ∈ history.pool.criticalSet.put newResource :=
    mem_put.mpr (.inl rfl)
  constructor
  · intro after
    refine ⟨fun other nonCritical same => ?_, fun other critical same => ?_⟩
    · exact after.disjoint newResource other isNew nonCritical same.symm
    · have isLive : other ∈ newResource :: history.dynamic :=
        mem_cons_of_mem _ ((kept.live other).mpr (.inl critical))
      rcases (after.live other).mp isLive with member | nonCritical
      · rcases mem_put.mp member with isOther | ⟨-, different⟩
        · exact isOther
        · exact absurd same different
      · exact absurd rfl (kept.disjoint other other critical nonCritical)
  · rintro ⟨notNonCritical, onlyItself⟩
    have isCritical : ∀ worker,
        worker ∈ history.pool.criticalSet.put newResource ↔
          worker = newResource ∨ worker ∈ history.pool.criticalSet := by
      intro worker
      rw [mem_put]
      refine or_congr_right' fun different => ?_
      refine and_iff_left_of_imp fun critical same => ?_
      exact different (onlyItself worker critical same)
    refine ⟨?disjoint, ?live, ?order, ?covered, ?notReturned⟩
    case disjoint =>
      intro first second firstMember secondMember
      rcases (isCritical first).mp firstMember with rfl | critical
      · exact (notNonCritical second secondMember).symm
      · exact kept.disjoint first second critical secondMember
    case live =>
      intro worker
      have before := kept.live worker
      simp only [next, WorkerPool.addDynamicResource, mem_cons,
        isCritical, before, or_assoc]
    case order =>
      intro worker
      have onlyOrdered : ∀ other, other ∈ history.pool.criticalOrder.elements →
          workers.cloudName other = workers.cloudName newResource →
            other = newResource := fun other member =>
        onlyItself other ((kept.order other).mp member)
      simp only [next, WorkerPool.addDynamicResource, isCritical,
        mem_addOrdered onlyOrdered, kept.order worker]
    case covered =>
      rintro coreId (static | ⟨worker, isLive, executes⟩)
      · exact .inl static
      · rcases mem_cons.mp isLive with rfl | isLive
        · exact .inr ⟨worker, isNew, executes⟩
        · rcases kept.covered coreId (.inr ⟨worker, isLive, executes⟩) with
            static | ⟨critical, member, found⟩
          · exact .inl static
          · exact .inr ⟨critical, (isCritical critical).mpr (.inr member), found⟩
    case notReturned =>
      intro worker isDeleted
      obtain ⟨isDeleted, different⟩ := mem_filter.mp isDeleted
      have before := kept.notReturned worker isDeleted
      cases worker with
      | static id => exact before
      | cloud id =>
          refine ⟨fun member => ?_, before.2⟩
          rcases (isCritical id).mp member with rfl | critical
          · simp at different
          · exact before.1 critical

end

variable
  {resource : WorkerId}
  {found : CloudId}

/-- A non-critical worker has the name: it has to be the one that is deleted. -/
theorem criticalKept_delete_nonCritical_iff
    (kept : history.CriticalKept)
    (nonCritical : found ∈ history.pool.nonCriticalSet)
    (sameName : workers.cloudName found = workers.name resource) :
    (history.next (.delete resource)).CriticalKept ↔
      history.WithoutCriticalDeletion (.delete resource) := by
  have notCritical : ∀ other, other ∈ history.pool.criticalSet →
      workers.cloudName other ≠ workers.name resource :=
    fun other member same =>
      kept.disjoint other found member nonCritical (same.trans sameName.symm)
  have pool : history.pool.delete resource =
      { history.pool with
        nonCriticalSet :=
          history.pool.nonCriticalSet.remove (workers.name resource) } := by
    have named := hasName_iff.mpr ⟨found, nonCritical, sameName⟩
    rw [WorkerPool.delete]
    dsimp only
    rw [if_pos named]
  constructor
  · intro after
    refine ⟨fun other member same => ?_, notCritical, fun absent => ?_⟩
    · obtain rfl : other = found :=
        eq_of_key_eq member nonCritical (same.trans sameName.symm)
      by_contra different
      have isLive : other ∈ (history.next (.delete resource)).dynamic := by
        refine mem_filter.mpr ⟨(kept.live other).mpr (.inr member), ?_⟩
        simpa using Ne.symm different
      have returned := (after.live other).mp isLive
      simp only [next, pool, mem_remove] at returned
      rcases returned with critical | ⟨-, otherName⟩
      · exact notCritical other critical same
      · exact otherName same
    · exact absurd sameName (absent found nonCritical)
  · rintro ⟨itself, -, -⟩
    obtain rfl := itself found nonCritical sameName
    refine ⟨?disjoint, ?live, ?order, ?covered, ?notReturned⟩
    case disjoint =>
      intro first second firstMember secondMember
      simp only [next, pool, mem_remove] at firstMember secondMember
      exact kept.disjoint first second firstMember secondMember.1
    case live =>
      intro worker
      simp only [next, pool, mem_remove, mem_filter,
        kept.live worker, decide_eq_true_eq, ne_eq, WorkerId.cloud.injEq]
      constructor
      · rintro ⟨critical | member, different⟩
        · exact .inl critical
        · exact .inr ⟨member, fun same =>
            different (eq_of_key_eq member nonCritical same)⟩
      · rintro (critical | ⟨member, otherName⟩)
        · exact ⟨.inl critical, by
            rintro rfl
            exact notCritical worker critical rfl⟩
        · exact ⟨.inr member, by
            rintro rfl
            exact otherName rfl⟩
    case order =>
      intro worker
      simp only [next, pool]
      exact kept.order worker
    case covered =>
      intro coreId executable
      simp only [next, pool] at executable ⊢
      refine kept.covered coreId (executable.imp_right ?_)
      rintro ⟨worker, isLive, executes⟩
      exact ⟨worker, (mem_filter.mp isLive).1, executes⟩
    case notReturned =>
      intro worker isDeleted
      simp only [next, pool]
      rcases mem_cons.mp isDeleted with rfl | before
      · refine ⟨fun critical => notCritical found critical rfl, ?_⟩
        exact fun member => (mem_remove.mp member).2 rfl
      · have notReturned := kept.notReturned worker before
        cases worker with
        | static id => exact notReturned
        | cloud id =>
            exact ⟨notReturned.1,
              fun member => notReturned.2 (mem_remove.mp member).1⟩

/-- The critical order keeps a critical worker that is deleted. -/
theorem not_criticalKept_delete_critical
    (kept : history.CriticalKept)
    (critical : found ∈ history.pool.criticalSet)
    (sameName : workers.cloudName found = workers.name resource) :
    ¬ (history.next (.delete resource)).CriticalKept := by
  intro after
  have unnamed : ¬ WorkerPool.hasName history.pool.nonCriticalSet
      (workers.name resource) = true := by
    intro named
    obtain ⟨other, member, same⟩ := hasName_iff.mp named
    exact kept.disjoint found other critical member (sameName.trans same.symm)
  have pool : history.pool.delete resource =
      { history.pool with
        criticalSet :=
          history.pool.criticalSet.remove (workers.name resource) } := by
    rw [WorkerPool.delete]
    dsimp only
    rw [if_neg unnamed, if_pos (hasName_iff.mpr ⟨found, critical, sameName⟩)]
  have ordered := after.order found
  simp only [next, pool, mem_remove] at ordered
  exact (ordered.mp ((kept.order found).mpr critical)).2 sameName

/-- No dynamic worker has the name. -/
theorem criticalKept_delete_static_iff
    (kept : history.CriticalKept)
    (notNonCritical :
      ∀ other, other ∈ history.pool.nonCriticalSet →
        workers.cloudName other ≠ workers.name resource)
    (notCritical :
      ∀ other, other ∈ history.pool.criticalSet →
        workers.cloudName other ≠ workers.name resource) :
    (history.next (.delete resource)).CriticalKept ↔
      history.WithoutCriticalDeletion (.delete resource) := by
  have pool : history.pool.delete resource =
      { history.pool with
        staticSet :=
          history.pool.staticSet.remove (workers.name resource) } := by
    rw [WorkerPool.delete]
    dsimp only
    rw [if_neg, if_neg]
    · intro named
      obtain ⟨other, member, same⟩ := hasName_iff.mp named
      exact notCritical other member same
    · intro named
      obtain ⟨other, member, same⟩ := hasName_iff.mp named
      exact notNonCritical other member same
  have notDynamic : ∀ worker, worker ∈ history.dynamic →
      WorkerId.cloud worker ≠ resource := by
    rintro worker isLive rfl
    rcases (kept.live worker).mp isLive with critical | nonCritical
    · exact notCritical worker critical rfl
    · exact notNonCritical worker nonCritical rfl
  have dynamic : history.dynamic.filter (WorkerId.cloud · ≠ resource) =
      history.dynamic := by
    refine filter_eq_self.mpr fun worker isLive => ?_
    simpa using notDynamic worker isLive
  have covered := kept.covered_static_iff
    (history.pool.staticSet.remove (workers.name resource))
  constructor
  · intro after
    refine ⟨fun other member same => absurd same (notNonCritical other member),
      notCritical, fun _ => covered.mp ?_⟩
    have coveredAfter := after.covered
    simpa only [next, pool, dynamic] using coveredAfter
  · rintro ⟨-, -, losesNone⟩
    refine ⟨?disjoint, ?live, ?order, ?covered, ?notReturned⟩
    case disjoint => simpa only [next, pool] using kept.disjoint
    case live => simpa only [next, pool, dynamic] using kept.live
    case order => simpa only [next, pool] using kept.order
    case covered =>
      simpa only [next, pool, dynamic] using
        covered.mpr (losesNone notNonCritical)
    case notReturned =>
      intro worker isDeleted
      simp only [next, pool]
      rcases mem_cons.mp isDeleted with rfl | before
      · cases worker with
        | static id => exact fun member => (mem_remove.mp member).2 rfl
        | cloud id =>
            exact ⟨fun critical => notCritical id critical rfl,
              fun nonCritical => notNonCritical id nonCritical rfl⟩
      · have notReturned := kept.notReturned worker before
        cases worker with
        | static id => exact fun member => notReturned (mem_remove.mp member).1
        | cloud id => exact notReturned

theorem criticalKept_next_iff
    {event : PoolEvent}
    (kept : history.CriticalKept) :
    (history.next event).CriticalKept ↔
      history.WithoutCriticalDeletion event := by
  cases event with
  | addStaticResource newResource =>
      exact criticalKept_addStaticResource_iff kept
  | addDynamicResource newResource =>
      exact criticalKept_addDynamicResource_iff kept
  | defineCriticalSet => exact iff_of_true kept.defineCriticalSet trivial
  | delete resource =>
      by_cases nonCritical : ∃ found, found ∈ history.pool.nonCriticalSet ∧
          workers.cloudName found = workers.name resource
      · obtain ⟨found, member, same⟩ := nonCritical
        exact criticalKept_delete_nonCritical_iff kept member same
      by_cases critical : ∃ found, found ∈ history.pool.criticalSet ∧
          workers.cloudName found = workers.name resource
      · obtain ⟨found, member, same⟩ := critical
        refine iff_of_false (not_criticalKept_delete_critical kept member same)
          fun without => without.2.1 found member same
      · refine criticalKept_delete_static_iff kept ?_ ?_
        · exact fun other member same => nonCritical ⟨other, member, same⟩
        · exact fun other member same => critical ⟨other, member, same⟩

/-! ## Runs -/

theorem criticalKept_start :
    (start : PoolHistory workers).CriticalKept where
  disjoint := by
    intro first second member
    exact absurd member (not_mem_empty first)
  live := by
    intro worker
    simp [start]
  order := by
    intro worker
    simp [start]
  covered := by
    rintro coreId (⟨worker, member, -⟩ | ⟨worker, member, -⟩)
    · exact absurd member (not_mem_empty worker)
    · exact absurd member not_mem_nil
  notReturned := by
    intro worker isDeleted
    exact absurd isDeleted not_mem_nil

/--
The critical set is right in every state of a run exactly when no step uses the
name of a dynamic worker again, deletes a critical worker, or takes a static
worker away that only non-critical workers can replace.
-/
theorem criticalKeptThroughout_iff
    {events : List PoolEvent}
    (run : Run (system workers) anyStep events history) :
    (∀ before reached, before <+: events →
      Run (system workers) anyStep before reached → reached.CriticalKept) ↔
      Run (system workers) WithoutCriticalDeletion events history :=
  run.holdsThroughout_iff criticalKept_start
    fun _ _ kept _ => criticalKept_next_iff kept

/-- A static worker for one core, and a dynamic worker for each of two cores -/
def threeWorkers : PoolWorkers where
  name
    | .static _ => "static"
    | .cloud 0 => "first"
    | .cloud _ => "second"
  value := fun _ => none
  executableCores
    | .static _ | .cloud 0 => [0]
    | .cloud _ => [1]

/-- The worker that is not critical is deleted. -/
def spareDeleted : List PoolEvent :=
  [.addStaticResource 0, .defineCriticalSet, .addDynamicResource 0,
    .defineCriticalSet, .addDynamicResource 1, .defineCriticalSet,
    .delete (.cloud 0)]

theorem criticalKept_spareDeleted :
    ((system threeWorkers).after spareDeleted).CriticalKept := by
  have run : Run (system threeWorkers) WithoutCriticalDeletion spareDeleted
      ((system threeWorkers).after spareDeleted) := by
    apply run_of_executable
    refine ⟨⟨trivial, ?_⟩, ⟨trivial, trivial⟩, ⟨trivial, ?_⟩,
      ⟨trivial, trivial⟩, ⟨trivial, ?_⟩, ⟨trivial, trivial⟩, ⟨trivial, ?_⟩,
      trivial⟩
    all_goals decide
  exact (criticalKeptThroughout_iff (run.mono fun _ _ _ => trivial)).mpr run
    spareDeleted _ (prefix_refl _) (run.mono fun _ _ _ => trivial)

/-- A critical worker is deleted before a static one can execute its core. -/
def criticalDeleted : List PoolEvent :=
  [.addDynamicResource 0, .defineCriticalSet, .delete (.cloud 0),
    .addStaticResource 0, .defineCriticalSet]

/-- The deleted worker is one of the non-critical workers. -/
theorem not_criticalKept_criticalDeleted :
    Run (system threeWorkers) anyStep criticalDeleted
        ((system threeWorkers).after criticalDeleted) ∧
      ¬ ((system threeWorkers).after criticalDeleted).CriticalKept := by
  constructor
  · apply run_of_executable
    exact ⟨⟨trivial, trivial⟩, ⟨trivial, trivial⟩, ⟨trivial, trivial⟩,
      ⟨trivial, trivial⟩, ⟨trivial, trivial⟩, trivial⟩
  · intro kept
    have returned := kept.notReturned (.cloud 0) (by decide)
    exact absurd returned.2 (by decide)

end PoolHistory

end DistributedRdf.Resources
