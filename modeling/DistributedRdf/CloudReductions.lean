import DistributedRdf.ReservationCheck
import DistributedRdf.TransitionSystem

namespace DistributedRdf.Scheduling.MethodResourceDescription

/-- The part of `increase` that tasks reserve. -/
def increase (this rd2 : MethodResourceDescription) :
    MethodResourceDescription :=
  this.increaseDynamic rd2

/-- The part of `reduce` that tasks reserve: nobody asks whether it was valid. -/
def reduce (this rd2 : MethodResourceDescription) :
    MethodResourceDescription :=
  (this.reduceDynamic rd2).1

section Together

variable {this that : MethodResourceDescription}

theorem unitsWhere_append
    (selected : ProcessorKind → Bool)
    (first later : List Processor) :
    unitsWhere selected (first ++ later) =
      unitsWhere selected first + unitsWhere selected later := by
  simp [unitsWhere]

theorem increaseProcessor_eq_none
    {p : Processor}
    {processors : List Processor}
    (unserved : servingKind (processors.map (·.kind)) p.kind = none) :
    increaseProcessor p processors = none := by
  induction processors with
  | nil => rfl
  | cons pThis rest hypothesis =>
      rw [List.map_cons, servingKind_cons] at unserved
      rw [increaseProcessor]
      split
      case isTrue compatible =>
        rw [if_pos compatible] at unserved
        exact absurd unserved (Option.some_ne_none _)
      case isFalse incompatible =>
        rw [if_neg incompatible] at unserved
        rw [hypothesis unserved]
        rfl

/-- What one more processor adds depends on the kinds that are there. -/
theorem increaseBy_together
    (sameKinds : this.kinds = that.kinds)
    (p : Processor) :
    (this.increaseBy p).kinds = (that.increaseBy p).kinds ∧
      ∀ selected,
        unitsWhere selected (this.increaseBy p).processors +
            unitsWhere selected that.processors =
          unitsWhere selected (that.increaseBy p).processors +
            unitsWhere selected this.processors := by
  cases served : servingKind this.kinds p.kind with
  | none =>
      have notThis : increaseProcessor p this.processors = none :=
        increaseProcessor_eq_none served
      rw [sameKinds] at served
      have notThat : increaseProcessor p that.processors = none :=
        increaseProcessor_eq_none served
      rw [increaseBy, increaseBy, notThis, notThat]
      constructor
      · change (this.processors ++ [p]).map _ = (that.processors ++ [p]).map _
        rw [List.map_append, List.map_append]
        exact congrArg (· ++ _) sameKinds
      · intro selected
        change unitsWhere selected (this.processors ++ [p]) + _ =
          unitsWhere selected (that.processors ++ [p]) + _
        rw [unitsWhere_append, unitsWhere_append]
        ring
  | some serving =>
      obtain ⟨thisAfter, thisIncreased, thisKinds, thisUnits⟩ :=
        increaseProcessor_spec served
      obtain ⟨thatAfter, thatIncreased, thatKinds, thatUnits⟩ :=
        increaseProcessor_spec (sameKinds ▸ served)
      rw [increaseBy, increaseBy, thisIncreased, thatIncreased]
      constructor
      · exact thisKinds.trans (sameKinds.trans thatKinds.symm)
      · intro selected
        change unitsWhere selected thisAfter + _ =
          unitsWhere selected thatAfter + _
        rw [thisUnits, thatUnits]
        ring

/-- Descriptions of the same kinds of processors grow by the same units. -/
theorem increaseDynamic_together
    (sameKinds : this.kinds = that.kinds)
    (rd2 : MethodResourceDescription) :
    (this.increaseDynamic rd2).kinds = (that.increaseDynamic rd2).kinds ∧
      ∀ selected,
        unitsWhere selected (this.increaseDynamic rd2).processors +
            unitsWhere selected that.processors =
          unitsWhere selected (that.increaseDynamic rd2).processors +
            unitsWhere selected this.processors := by
  change (rd2.processors.foldl increaseBy this).kinds =
      (rd2.processors.foldl increaseBy that).kinds ∧
    ∀ selected,
      unitsWhere selected (rd2.processors.foldl increaseBy this).processors +
          unitsWhere selected that.processors =
        unitsWhere selected (rd2.processors.foldl increaseBy that).processors +
          unitsWhere selected this.processors
  induction rd2.processors generalizing this that with
  | nil => exact ⟨sameKinds, fun selected => Int.add_comm _ _⟩
  | cons p rest hypothesis =>
      obtain ⟨kindsBetween, unitsBetween⟩ := increaseBy_together sameKinds p
      obtain ⟨kindsAfter, unitsAfter⟩ := hypothesis kindsBetween
      refine ⟨kindsAfter, fun selected => ?_⟩
      have first := unitsBetween selected
      have later := unitsAfter selected
      rw [List.foldl_cons, List.foldl_cons]
      omega

variable {kinds : List ProcessorKind}

theorem handedOut_eq
    {asked taken other : Processor}
    (handedOut : HandsOut kinds asked taken)
    (otherHandedOut : HandsOut kinds asked other) :
    taken = other := by
  cases taken
  cases other
  obtain ⟨serving, units⟩ := handedOut
  obtain ⟨otherServing, otherUnits⟩ := otherHandedOut
  congr
  · exact Option.some.inj (serving.symm.trans otherServing)
  · exact units.trans otherUnits.symm

/-- What is taken for the same requests from the same kinds is the same. -/
theorem handedOut_unique
    {requested taken other : List Processor}
    (handedOut : List.Forall₂ (HandsOut kinds) requested taken)
    (otherHandedOut : List.Forall₂ (HandsOut kinds) requested other) :
    taken = other := by
  induction handedOut generalizing other with
  | nil =>
      cases otherHandedOut
      rfl
  | cons first later hypothesis =>
      cases otherHandedOut with
      | cons otherFirst otherLater =>
          rw [hypothesis otherLater, handedOut_eq first otherFirst]

/-- Each processor is given back to the processors of its own kind. -/
theorem requestedWhere_own
    {released : List Processor}
    (own : ∀ p ∈ released, servingKind kinds p.kind = some p.kind)
    (selected : ProcessorKind → Bool) :
    requestedWhere kinds selected released = unitsWhere selected released := by
  induction released with
  | nil => rfl
  | cons p rest hypothesis =>
      have restOwn := hypothesis fun other isOther =>
        own other (List.mem_cons_of_mem p isOther)
      rw [requestedWhere_cons (own p List.mem_cons_self), unitsWhere_cons,
        restOwn]

end Together

section Memory

variable {this rd2 after reduced : MethodResourceDescription}

/-- The memory that a request changes, if there is any -/
def memoryAsked (this rd2 : MethodResourceDescription) : ℚ :=
  if this.memorySize.isSome then rd2.memorySize.getD 0 else 0

theorem increaseDynamic_memory (this rd2 : MethodResourceDescription) :
    (this.increaseDynamic rd2).memorySize.isSome = this.memorySize.isSome ∧
      (this.increaseDynamic rd2).memorySize.getD 0 =
        this.memorySize.getD 0 + this.memoryAsked rd2 := by
  unfold increaseDynamic memoryAsked
  cases this.memorySize with
  | none => simp
  | some size =>
      cases rd2.memorySize with
      | none => simp
      | some more => simp

theorem Reserved.memory
    (reserved : Reserved this rd2 after reduced) :
    after.memorySize.isSome = this.memorySize.isSome ∧
      after.memorySize.getD 0 + this.memoryAsked rd2 =
        this.memorySize.getD 0 := by
  rw [reserved.memorySize, memoryAsked]
  cases this.memorySize with
  | none => simp
  | some size =>
      cases rd2.memorySize with
      | none => simp
      | some required => simp

theorem Reserved.reducedAmount
    (reserved : Reserved this rd2 after reduced)
    (nonNegative : ∀ size ∈ rd2.memorySize, 0 ≤ size) :
    reduced.memorySize.getD 0 = this.memoryAsked rd2 := by
  rw [reserved.reducedMemory, memoryAsked]
  split
  case isFalse => rfl
  case isTrue =>
    cases asked : rd2.memorySize with
    | none => rfl
    | some required =>
        rcases (nonNegative required asked).lt_or_eq with positive | isZero
        · simp [Option.filter, positive]
        · simp [Option.filter, ← isZero]

end Memory

end DistributedRdf.Scheduling.MethodResourceDescription

namespace DistributedRdf.Resources

open Execution Scheduling MethodResourceDescription List

/-!
# Reductions of a cloud worker

A reduction whose resources are in use is kept pending.  When a task ends, the
pending reductions are made in their order, up to the first one that does not
fit in what is available.
-/

structure PendingReduction where
  reduction : MethodResourceDescription
  sem : Nat

/-- A permit for a semaphore, and what was available before the reduction -/
structure ReleasedPermit where
  pRed : PendingReduction
  available : MethodResourceDescription

/-- The counts of the tasks of each type of processor are left out. -/
structure CloudMethodWorker where
  description : MethodResourceDescription
  available : MethodResourceDescription
  toRemove : MethodResourceDescription
  pendingReductions : List PendingReduction
  /-- Every call of `release`, in order -/
  released : List ReleasedPermit
  usedTaskCount : Int
  maxTaskCount : Int

namespace CloudMethodWorker

def new
    (description : MethodResourceDescription)
    (maxTaskCount : Int) :
    CloudMethodWorker where
  description := description
  available := description
  toRemove := .empty
  pendingReductions := []
  released := []
  usedTaskCount := 0
  maxTaskCount := maxTaskCount

variable
  (worker : CloudMethodWorker)
  (consumption : MethodResourceDescription)

/-- Also returns the consumption, which is increased and reduced again. -/
def hasAvailable :
    Bool × MethodResourceDescription :=
  let increased := consumption.increase worker.toRemove
  (worker.available.containsDynamic increased,
    increased.reduce worker.toRemove)

/-- The method of the superclass asks whether there is room once more. -/
def reserveResource :
    CloudMethodWorker × Option MethodResourceDescription :=
  let (fits, consumption) := worker.hasAvailable consumption
  if fits then
    let (fits, consumption) := worker.hasAvailable consumption
    if fits then
      let (available, reserved) := worker.available.reduceDynamic consumption
      ({ worker with available := available }, reserved)
    else
      (worker, none)
  else
    (worker, none)

/-- Returns what was reserved, or `none` if the task cannot be hosted. -/
def runTask :
    CloudMethodWorker × Option MethodResourceDescription :=
  if worker.usedTaskCount < worker.maxTaskCount then
    match worker.reserveResource consumption with
    | (worker, some reserved) =>
        ({ worker with usedTaskCount := worker.usedTaskCount + 1 },
          some reserved)
    | (worker, none) => (worker, none)
  else
    (worker, none)

/-- The loop of `releaseResource` over the pending reductions -/
def performReductions :
    List PendingReduction → CloudMethodWorker → CloudMethodWorker
  | [], worker => worker
  | pRed :: rest, worker =>
      if worker.available.containsDynamic pRed.reduction then
        performReductions rest
          { worker with
            available := worker.available.reduce pRed.reduction
            toRemove := worker.toRemove.reduce pRed.reduction
            released := worker.released ++ [⟨pRed, worker.available⟩]
            pendingReductions := rest }
      else
        worker

def releaseResource :
    CloudMethodWorker :=
  performReductions worker.pendingReductions
    { worker with
      available := worker.available.increaseDynamic consumption }

def endTask :
    CloudMethodWorker :=
  { worker with
    usedTaskCount := worker.usedTaskCount - 1 }.releaseResource consumption

def increaseFeatures
    (increment : MethodResourceDescription) :
    CloudMethodWorker :=
  { worker with
    available := worker.available.increase increment
    description := worker.description.increase increment }

/-- Returns the new semaphore, if the reduction is kept pending. -/
def reduceFeatures
    (reduction : MethodResourceDescription)
    (sem : Nat) :
    CloudMethodWorker × Option Nat :=
  let worker :=
    { worker with description := worker.description.reduce reduction }
  let (fits, reduction) := worker.hasAvailable reduction
  if fits then
    ({ worker with available := worker.available.reduce reduction }, none)
  else if worker.usedTaskCount > 0 then
    ({ worker with
        toRemove := worker.toRemove.reduce reduction
        pendingReductions := worker.pendingReductions ++ [⟨reduction, sem⟩] },
      some sem)
  else
    (worker, none)

/-- The semaphores of the pending reductions and those with a permit -/
def sems : List Nat :=
  worker.pendingReductions.map (fun pRed => pRed.sem) ++
    worker.released.map (fun permit => permit.pRed.sem)

/-- Every permit was given to a reduction that did fit. -/
def PermitsFreed : Prop :=
  ∀ permit ∈ worker.released,
    permit.available.containsDynamic permit.pRed.reduction

end CloudMethodWorker

/-!
## Tasks and reductions in any order
-/

/-- A worker with what its running tasks reserved. -/
structure ReductionHistory where
  worker : CloudMethodWorker
  running : List MethodResourceDescription
  /-- The number of semaphores that were created -/
  semaphores : Nat

inductive ReductionEvent where
  | increaseFeatures (increment : MethodResourceDescription)
  | reduceFeatures (reduction : MethodResourceDescription)
  | runTask (consumption : MethodResourceDescription)
  /-- The task at a position among the running ones ends. -/
  | endTask (task : Nat)

namespace ReductionHistory

variable (history : ReductionHistory)

/-- Only a running task ends. -/
def Enabled : ReductionEvent → Prop
  | .endTask task => task < history.running.length
  | _ => True

def next : ReductionEvent → ReductionHistory
  | .increaseFeatures increment =>
      { history with worker := history.worker.increaseFeatures increment }
  | .reduceFeatures reduction =>
      match history.worker.reduceFeatures reduction history.semaphores with
      | (worker, none) => { history with worker := worker }
      | (worker, some _) =>
          { history with
            worker := worker
            semaphores := history.semaphores + 1 }
  | .runTask consumption =>
      match history.worker.runTask consumption with
      | (worker, some reserved) =>
          { history with
            worker := worker
            running := history.running ++ [reserved] }
      | (worker, none) => { history with worker := worker }
  | .endTask task =>
      match history.running[task]? with
      | some reserved =>
          { history with
            worker := history.worker.endTask reserved
            running := history.running.eraseIdx task }
      | none => history

/-- A worker with a description and a limit of tasks, before its first task. -/
def system
    (description : MethodResourceDescription)
    (maxTaskCount : Int) :
    TransitionSystem ReductionHistory ReductionEvent where
  start := ⟨.new description maxTaskCount, [], 0⟩
  Enabled := Enabled
  next := next

/-!
## What the claim asks of a worker
-/

variable
  (selected : ProcessorKind → Bool)
  (descriptions : List MethodResourceDescription)

/-- The computing units of the processors of some kinds in all descriptions -/
def unitsOf :
    Int :=
  (descriptions.map fun rd => unitsWhere selected rd.processors).sum

/-- The memory of all descriptions, where an unassigned one counts nothing -/
def memoryOf : ℚ :=
  (descriptions.map fun rd => rd.memorySize.getD 0).sum

def pending : List MethodResourceDescription :=
  history.worker.pendingReductions.map fun pRed => pRed.reduction

/-- The units that the pending reductions will take from processors of some kinds -/
def unitsToTake :
    Int :=
  (history.pending.map fun rd =>
    requestedWhere history.worker.available.kinds selected rd.processors).sum

/-- The memory that the pending reductions will take, if there is any to take from -/
def memoryToTake : ℚ :=
  if history.worker.available.memorySize.isSome then
    memoryOf history.pending
  else
    0

/-- What is available once the pending reductions are made -/
def availableAfterReductions :
    MethodResourceDescription :=
  history.pending.foldl reduce history.worker.available

/-- Every semaphore is pending or has one permit, and its reduction did fit. -/
structure SemaphoresSettled : Prop where
  once : history.worker.sems.Perm (range history.semaphores)
  freed : history.worker.PermitsFreed

structure ReductionsAccounted : Prop where
  toRemoveUnits :
    ∀ selected,
      unitsWhere selected history.worker.toRemove.processors =
        unitsOf selected history.pending
  toRemoveMemory :
    history.worker.toRemove.memorySize.getD 0 = memoryOf history.pending
  units :
    ∀ selected,
      unitsWhere selected history.worker.available.processors +
          unitsOf selected history.running =
        unitsWhere selected history.worker.description.processors +
          history.unitsToTake selected
  memory :
    history.worker.available.memorySize.getD 0 + memoryOf history.running =
      history.worker.description.memorySize.getD 0 + history.memoryToTake
  hasAvailable :
    ∀ consumption,
      (history.worker.hasAvailable consumption).1 =
        history.availableAfterReductions.containsDynamic consumption
  semaphores : history.SemaphoresSettled

/--
Reductions fit at once, and tasks ask for no negative memory and give back to
the kinds that they took.
-/
def FitsAtOnce : ReductionEvent → Prop
  | .runTask consumption => ∀ size ∈ consumption.memorySize, 0 ≤ size
  | .reduceFeatures reduction =>
      history.worker.available.containsDynamic reduction ∧
        history.worker.description.checkMemory reduction
  | .endTask task =>
      ∀ reserved ∈ history.running[task]?,
        ∀ p ∈ reserved.processors,
          servingKind history.worker.available.kinds p.kind = some p.kind
  | _ => True

end ReductionHistory

/-!
## Nothing is ever marked to be removed
-/

/-- A description that tasks can reserve nothing from -/
structure Nothing (this : MethodResourceDescription) : Prop where
  processors : this.processors = []
  memorySize : this.memorySize = none

theorem nothing_empty : Nothing .empty :=
  ⟨rfl, rfl⟩

/-- Reducing takes nothing from a description without processors. -/
theorem Nothing.reduce
    {this : MethodResourceDescription}
    (isNothing : Nothing this)
    (rd2 : MethodResourceDescription) :
    Nothing (this.reduce rd2) := by
  obtain ⟨processors, memorySize⟩ := isNothing
  have unreduced :
      (reduceProcessors rd2.processors this .empty).1 = this := by
    cases rd2.processors with
    | nil => rfl
    | cons p rest =>
        rw [reduceProcessors, processors]
        rfl
  unfold MethodResourceDescription.reduce reduceDynamic
  split
  case h_1 after invalid =>
    rw [invalid] at unreduced
    exact ⟨unreduced ▸ processors, unreduced ▸ memorySize⟩
  case h_2 after reduced valid =>
    rw [valid] at unreduced
    dsimp only at unreduced
    rw [unreduced, memorySize]
    split <;> exact ⟨processors, memorySize⟩

/-- A consumption is not changed by nothing. -/
theorem increase_nothing
    {this nothing : MethodResourceDescription}
    (isNothing : Nothing nothing) :
    this.increase nothing = this := by
  unfold MethodResourceDescription.increase increaseDynamic
  rw [isNothing.processors, isNothing.memorySize]
  obtain ⟨processors, totals, memorySize, memoryType⟩ := this
  cases memorySize <;> rfl

theorem reduce_nothing
    {this nothing : MethodResourceDescription}
    (isNothing : Nothing nothing) :
    this.reduce nothing = this := by
  unfold MethodResourceDescription.reduce reduceDynamic
  rw [isNothing.processors, isNothing.memorySize]
  dsimp only [reduceProcessors]
  split
  · cases this.memorySize <;> rfl
  · rfl

namespace CloudMethodWorker

variable
  {worker : CloudMethodWorker}
  (isNothing : Nothing worker.toRemove)

include isNothing

variable (consumption : MethodResourceDescription)

/-- The pending reductions are not taken into account. -/
theorem hasAvailable_of_nothing :
    worker.hasAvailable consumption =
      (worker.available.containsDynamic consumption, consumption) := by
  rw [hasAvailable, increase_nothing isNothing, reduce_nothing isNothing]

theorem reserveResource_of_nothing :
    worker.reserveResource consumption =
      if worker.available.containsDynamic consumption then
        ({ worker with
          available := (worker.available.reduceDynamic consumption).1 },
          (worker.available.reduceDynamic consumption).2)
      else
        (worker, none) := by
  rw [reserveResource, hasAvailable_of_nothing isNothing]
  dsimp only
  rw [hasAvailable_of_nothing isNothing]
  dsimp only
  split <;> rfl

theorem performReductions_nothing
    (pending : List PendingReduction) :
    Nothing (performReductions pending worker).toRemove := by
  induction pending generalizing worker with
  | nil => exact isNothing
  | cons pRed rest hypothesis =>
      rw [performReductions]
      split
      · exact hypothesis (isNothing.reduce pRed.reduction)
      · exact isNothing

theorem endTask_nothing :
    Nothing (worker.endTask consumption).toRemove :=
  performReductions_nothing (by exact isNothing) _

/-- A task reserves its resources if there is a slot and room for it. -/
theorem runTask_spec :
    worker.runTask consumption = (worker, none) ∨
      ∃ after reserved,
        worker.runTask consumption =
            ({ worker with
              available := after
              usedTaskCount := worker.usedTaskCount + 1 }, some reserved) ∧
          Reserved worker.available consumption after reserved := by
  rw [runTask, reserveResource_of_nothing isNothing]
  split
  case isFalse noSlot => exact Or.inl rfl
  case isTrue freeSlot =>
    by_cases fits : worker.available.containsDynamic consumption
    · obtain ⟨after, reserved, reduced, isReserved⟩ := reduceDynamic_spec fits
      rw [if_pos fits, reduced]
      exact Or.inr ⟨after, reserved, rfl, isReserved⟩
    · rw [if_neg fits]
      exact Or.inl rfl

theorem reduceFeatures_of_nothing
    (reduction : MethodResourceDescription)
    (sem : Nat) :
    worker.reduceFeatures reduction sem =
      if worker.available.containsDynamic reduction then
        ({ worker with
          description := worker.description.reduce reduction
          available := worker.available.reduce reduction }, none)
      else if worker.usedTaskCount > 0 then
        ({ worker with
          description := worker.description.reduce reduction
          toRemove := worker.toRemove.reduce reduction
          pendingReductions :=
            worker.pendingReductions ++ [⟨reduction, sem⟩] }, some sem)
      else
        ({ worker with
          description := worker.description.reduce reduction }, none) := by
  unfold reduceFeatures
  dsimp only
  rw [hasAvailable_of_nothing (by exact isNothing)]

end CloudMethodWorker

namespace ReductionHistory

variable
  {history : ReductionHistory}
  {description : MethodResourceDescription}
  {maxTaskCount : Int}

/-- No resources are marked to be removed. -/
def NothingMarked (history : ReductionHistory) : Prop :=
  Nothing history.worker.toRemove

theorem nothingMarked_start :
    (system description maxTaskCount).start.NothingMarked :=
  nothing_empty

theorem nothingMarked_next
    (isNothing : history.NothingMarked)
    (event : ReductionEvent) :
    (history.next event).NothingMarked := by
  cases event with
  | increaseFeatures increment => exact isNothing
  | reduceFeatures reduction =>
      rw [next, CloudMethodWorker.reduceFeatures_of_nothing isNothing]
      split_ifs
      · exact isNothing
      · exact Nothing.reduce isNothing reduction
      · exact isNothing
  | runTask consumption =>
      rcases CloudMethodWorker.runTask_spec isNothing consumption with
        unhosted | ⟨after, reserved, hosted, -⟩
      · rw [next, unhosted]
        exact isNothing
      · rw [next, hosted]
        exact isNothing
  | endTask task =>
      rw [next]
      split
      · exact CloudMethodWorker.endTask_nothing isNothing _
      · exact isNothing

/-- Whatever is reduced, nothing is ever marked to be removed. -/
theorem nothingMarked_of_run
    {Permitted : ReductionHistory → ReductionEvent → Prop}
    {events : List ReductionEvent}
    (run : Run (system description maxTaskCount) Permitted events history) :
    history.NothingMarked :=
  run.invariant nothingMarked_start
    fun _ event isNothing _ _ => nothingMarked_next isNothing event

end ReductionHistory

/-!
## Semaphores
-/

namespace CloudMethodWorker

variable {worker : CloudMethodWorker}

/-- A pending reduction that is made gets its permit. -/
theorem performReductions_sems
    (freed : worker.PermitsFreed) :
    (performReductions worker.pendingReductions worker).sems.Perm worker.sems ∧
      (performReductions worker.pendingReductions worker).PermitsFreed := by
  generalize isPending : worker.pendingReductions = pending
  induction pending generalizing worker with
  | nil => exact ⟨List.Perm.refl _, freed⟩
  | cons pRed rest hypothesis =>
      rw [performReductions]
      split
      case isFalse => exact ⟨List.Perm.refl _, freed⟩
      case isTrue fits =>
        have freedAfter :
            ∀ permit ∈ worker.released ++ [⟨pRed, worker.available⟩],
              permit.available.containsDynamic permit.pRed.reduction := by
          intro permit isReleased
          rcases mem_append.mp isReleased with before | isLast
          · exact freed permit before
          · rw [mem_singleton.mp isLast]
            exact fits
        obtain ⟨sameSems, isFreed⟩ :=
          @hypothesis
            { worker with
              available := worker.available.reduce pRed.reduction
              toRemove := worker.toRemove.reduce pRed.reduction
              released := worker.released ++ [⟨pRed, worker.available⟩]
              pendingReductions := rest } freedAfter rfl
        refine ⟨sameSems.trans ?_, isFreed⟩
        simp only [sems, isPending, List.map_append, List.map_cons,
          map_nil]
        rw [← append_assoc]
        exact perm_append_singleton pRed.sem _

theorem endTask_sems
    (freed : worker.PermitsFreed)
    (consumption : MethodResourceDescription) :
    (worker.endTask consumption).sems.Perm worker.sems ∧
      (worker.endTask consumption).PermitsFreed :=
  @performReductions_sems
    { worker with
      usedTaskCount := worker.usedTaskCount - 1
      available := worker.available.increaseDynamic consumption } freed

end CloudMethodWorker

namespace ReductionHistory

variable
  {history : ReductionHistory}
  {description : MethodResourceDescription}
  {maxTaskCount : Int}

theorem semaphoresSettled_next
    (isNothing : history.NothingMarked)
    (settled : history.SemaphoresSettled)
    (event : ReductionEvent) :
    (history.next event).SemaphoresSettled := by
  cases event with
  | increaseFeatures increment => exact ⟨settled.once, settled.freed⟩
  | reduceFeatures reduction =>
      rw [next, CloudMethodWorker.reduceFeatures_of_nothing isNothing]
      split_ifs
      · exact ⟨settled.once, settled.freed⟩
      · refine ⟨?_, settled.freed⟩
        rw [range_succ]
        simp only [CloudMethodWorker.sems, List.map_append, List.map_cons,
          map_nil, append_assoc]
        calc
          List.Perm _ (history.worker.sems ++ [history.semaphores]) := by
            rw [CloudMethodWorker.sems, append_assoc]
            exact List.Perm.append_left _ perm_append_comm
          List.Perm _ (range history.semaphores ++ [history.semaphores]) :=
            settled.once.append_right _
      · exact ⟨settled.once, settled.freed⟩
  | runTask consumption =>
      rcases CloudMethodWorker.runTask_spec isNothing consumption with
        unhosted | ⟨after, reserved, hosted, -⟩
      · rw [next, unhosted]
        exact ⟨settled.once, settled.freed⟩
      · rw [next, hosted]
        exact ⟨settled.once, settled.freed⟩
  | endTask task =>
      rw [next]
      split
      case h_2 => exact settled
      case h_1 reserved isRunning =>
        obtain ⟨sameSems, isFreed⟩ :=
          CloudMethodWorker.endTask_sems settled.freed reserved
        exact ⟨sameSems.trans settled.once, isFreed⟩

theorem semaphoresSettled_start :
    (system description maxTaskCount).start.SemaphoresSettled :=
  ⟨List.Perm.refl _, nofun⟩

variable {events : List ReductionEvent}

/-- In every run each semaphore is released once, when its reduction fits. -/
theorem semaphoresSettled_of_run
    (run : Run (system description maxTaskCount) Permitted events history) :
    history.SemaphoresSettled := by
  induction run with
  | start => exact semaphoresSettled_start
  | snoc run enabled permitted hypothesis =>
      exact semaphoresSettled_next (nothingMarked_of_run run)
        hypothesis _

/-!
## Runs whose reductions fit at once
-/

/-- What the steps keep as long as the reductions fit at once. -/
structure Kept (history : ReductionHistory) : Prop where
  noPending : history.worker.pendingReductions = []
  kinds : history.worker.available.kinds = history.worker.description.kinds
  assigned :
    history.worker.available.memorySize.isSome =
      history.worker.description.memorySize.isSome
  reservedMemory :
    ∀ reserved ∈ history.running,
      reserved.memorySize.isSome →
        history.worker.available.memorySize.isSome
  units :
    ∀ selected,
      unitsWhere selected history.worker.available.processors +
          unitsOf selected history.running =
        unitsWhere selected history.worker.description.processors
  memory :
    history.worker.available.memorySize.getD 0 + memoryOf history.running =
      history.worker.description.memorySize.getD 0

theorem kept_start : (system description maxTaskCount).start.Kept where
  noPending := rfl
  kinds := rfl
  assigned := rfl
  reservedMemory := nofun
  units _ := Int.add_zero _
  memory := add_zero _

theorem kept_increaseFeatures
    (kept : history.Kept)
    (increment : MethodResourceDescription) :
    (history.next (.increaseFeatures increment)).Kept := by
  obtain ⟨kinds, units⟩ := increaseDynamic_together kept.kinds increment
  have availableMemory :=
    increaseDynamic_memory history.worker.available increment
  have descriptionMemory :=
    increaseDynamic_memory history.worker.description increment
  constructor
  case noPending => exact kept.noPending
  case kinds => exact kinds
  case assigned =>
    exact (availableMemory.1.trans kept.assigned).trans descriptionMemory.1.symm
  case reservedMemory =>
    intro reserved isRunning hasMemory
    exact availableMemory.1.trans
      (kept.reservedMemory reserved isRunning hasMemory)
  case units =>
    intro selected
    have together := units selected
    have before := kept.units selected
    change unitsWhere selected
        (history.worker.available.increaseDynamic increment).processors +
          unitsOf selected history.running =
      unitsWhere selected
        (history.worker.description.increaseDynamic increment).processors
    omega
  case memory =>
    have before := kept.memory
    have sameMemory :
        history.worker.available.memoryAsked increment =
          history.worker.description.memoryAsked increment := by
      rw [memoryAsked, memoryAsked, kept.assigned]
    change (history.worker.available.increaseDynamic increment).memorySize.getD 0 +
        memoryOf history.running =
      (history.worker.description.increaseDynamic increment).memorySize.getD 0
    linarith [availableMemory.2, descriptionMemory.2]

theorem kept_reduceFeatures
    (isNothing : history.NothingMarked)
    (kept : history.Kept)
    {reduction : MethodResourceDescription}
    (fits : history.worker.available.containsDynamic reduction)
    (described : history.worker.description.checkMemory reduction) :
    (history.next (.reduceFeatures reduction)).Kept := by
  obtain ⟨available, taken, availableReduced, isTaken⟩ := reduceDynamic_spec fits
  have served := allServed_of_containsDynamic fits
  rw [kept.kinds] at served
  obtain ⟨description, other, descriptionReduced, isOther⟩ :=
    reduceDynamic_of_served served described
  have handedOut := isTaken.processors.handedOut
  rw [kept.kinds] at handedOut
  have same : taken.processors = other.processors :=
    handedOut_unique handedOut isOther.processors.handedOut
  have after :
      history.next (.reduceFeatures reduction) =
        { history with
          worker := { history.worker with
            description := description
            available := available } } := by
    rw [next, CloudMethodWorker.reduceFeatures_of_nothing isNothing,
      if_pos fits, reduce, reduce, availableReduced, descriptionReduced]
  have availableMemory := isTaken.memory
  have descriptionMemory := isOther.memory
  rw [after]
  constructor
  case noPending => exact kept.noPending
  case kinds =>
    exact isTaken.processors.kinds.trans
      (kept.kinds.trans isOther.processors.kinds.symm)
  case assigned =>
    exact (availableMemory.1.trans kept.assigned).trans descriptionMemory.1.symm
  case reservedMemory =>
    intro reserved isRunning hasMemory
    exact availableMemory.1.trans
      (kept.reservedMemory reserved isRunning hasMemory)
  case units =>
    intro selected
    have before := kept.units selected
    have fromAvailable := isTaken.processors.units selected
    have fromDescription := isOther.processors.units selected
    rw [same] at fromAvailable
    dsimp only
    omega
  case memory =>
    have before := kept.memory
    have sameMemory :
        history.worker.available.memoryAsked reduction =
          history.worker.description.memoryAsked reduction := by
      rw [memoryAsked, memoryAsked, kept.assigned]
    dsimp only
    linarith [availableMemory.2, descriptionMemory.2]

theorem unitsOf_concat
    (selected : ProcessorKind → Bool)
    (running : List MethodResourceDescription)
    (reserved : MethodResourceDescription) :
    unitsOf selected (running ++ [reserved]) =
      unitsOf selected running + unitsWhere selected reserved.processors := by
  simp [unitsOf]

theorem memoryOf_concat
    (running : List MethodResourceDescription)
    (reserved : MethodResourceDescription) :
    memoryOf (running ++ [reserved]) =
      memoryOf running + reserved.memorySize.getD 0 := by
  simp [memoryOf]

theorem kept_runTask
    (isNothing : history.NothingMarked)
    (kept : history.Kept)
    {consumption : MethodResourceDescription}
    (nonNegative : ∀ size ∈ consumption.memorySize, 0 ≤ size) :
    (history.next (.runTask consumption)).Kept := by
  rcases CloudMethodWorker.runTask_spec isNothing consumption with
    unhosted | ⟨after, reserved, hosted, isReserved⟩
  · rw [next, unhosted]
    exact kept
  have reservedMemory := isReserved.memory
  rw [next, hosted]
  constructor
  case noPending => exact kept.noPending
  case kinds => exact isReserved.processors.kinds.trans kept.kinds
  case assigned => exact reservedMemory.1.trans kept.assigned
  case reservedMemory =>
    intro other isRunning hasMemory
    refine reservedMemory.1.trans ?_
    rcases mem_append.mp isRunning with before | isLast
    · exact kept.reservedMemory other before hasMemory
    · rw [mem_singleton.mp isLast, isReserved.reducedMemory] at hasMemory
      by_contra unassigned
      rw [if_neg unassigned] at hasMemory
      exact nomatch hasMemory
  case units =>
    intro selected
    have before := kept.units selected
    have taken := isReserved.processors.units selected
    dsimp only
    rw [unitsOf_concat]
    omega
  case memory =>
    have before := kept.memory
    dsimp only
    rw [memoryOf_concat]
    linarith [reservedMemory.2, isReserved.reducedAmount nonNegative]

variable
  {running : List MethodResourceDescription}
  {task : Nat}
  {reserved : MethodResourceDescription}

/-- What a task reserved leaves the sums with it. -/
theorem unitsOf_eraseIdx
    (isRunning : running[task]? = some reserved)
    (selected : ProcessorKind → Bool) :
    unitsOf selected running =
      unitsWhere selected reserved.processors +
        unitsOf selected (running.eraseIdx task) := by
  obtain ⟨inRange, isReserved⟩ := List.getElem?_eq_some_iff.mp isRunning
  have same := List.getElem_cons_eraseIdx_perm inRange
  rw [isReserved] at same
  exact (same.map _).sum_eq.symm

theorem memoryOf_eraseIdx
    (isRunning : running[task]? = some reserved) :
    memoryOf running =
      reserved.memorySize.getD 0 + memoryOf (running.eraseIdx task) := by
  obtain ⟨inRange, isReserved⟩ := List.getElem?_eq_some_iff.mp isRunning
  have same := List.getElem_cons_eraseIdx_perm inRange
  rw [isReserved] at same
  exact (same.map _).sum_eq.symm

theorem kept_endTask
    (kept : history.Kept)
    (own :
      ∀ reserved, history.running[task]? = some reserved →
        ∀ p ∈ reserved.processors,
          servingKind history.worker.available.kinds p.kind = some p.kind) :
    (history.next (.endTask task)).Kept := by
  rw [next]
  split
  case h_2 => exact kept
  case h_1 reserved isRunning =>
    have ownKinds := own reserved isRunning
    have givenBack :=
      @increase_spec history.worker.available reserved.processors
        fun p isProcessor =>
          Option.isSome_of_eq_some (ownKinds p isProcessor)
    have releasedMemory :=
      increaseDynamic_memory history.worker.available reserved
    have ended :
        history.worker.endTask reserved =
          { history.worker with
            usedTaskCount := history.worker.usedTaskCount - 1
            available := history.worker.available.increaseDynamic reserved } := by
      rw [CloudMethodWorker.endTask, CloudMethodWorker.releaseResource]
      dsimp only
      rw [kept.noPending]
      rfl
    rw [ended]
    constructor
    case noPending => exact kept.noPending
    case kinds => exact givenBack.kinds.trans kept.kinds
    case assigned => exact releasedMemory.1.trans kept.assigned
    case reservedMemory =>
      intro other isRunning hasMemory
      exact releasedMemory.1.trans
        (kept.reservedMemory other (mem_of_mem_eraseIdx isRunning)
          hasMemory)
    case units =>
      intro selected
      have before := kept.units selected
      have given := givenBack.units selected
      rw [requestedWhere_own ownKinds] at given
      rw [unitsOf_eraseIdx isRunning selected] at before
      change unitsWhere selected
          (reserved.processors.foldl increaseBy
            history.worker.available).processors + _ = _
      dsimp only
      omega
    case memory =>
      have before := kept.memory
      rw [memoryOf_eraseIdx isRunning] at before
      have sameMemory :
          history.worker.available.memoryAsked reserved =
            reserved.memorySize.getD 0 := by
        have hasMemory :=
          kept.reservedMemory reserved (mem_of_getElem? isRunning)
        rw [memoryAsked]
        split
        case isTrue => rfl
        case isFalse unassigned =>
          rw [Option.not_isSome_iff_eq_none.mp (mt hasMemory unassigned)]
          rfl
      dsimp only
      linarith [releasedMemory.2]

theorem kept_of_run
    (run : Run (system description maxTaskCount) FitsAtOnce events history) :
    history.Kept := by
  induction run with
  | start => exact kept_start
  | @snoc events history event run enabled permitted hypothesis =>
      have isNothing := nothingMarked_of_run run
      cases event with
      | increaseFeatures increment =>
          exact kept_increaseFeatures hypothesis increment
      | reduceFeatures reduction =>
          exact kept_reduceFeatures isNothing hypothesis permitted.1
            permitted.2
      | runTask consumption => exact kept_runTask isNothing hypothesis permitted
      | endTask task => exact kept_endTask hypothesis permitted

/-- A pending reduction of any units is never accounted for. -/
theorem unitsOf_pending_of_accounted
    (run : Run (system description maxTaskCount) anyStep events history)
    (accounted : history.ReductionsAccounted)
    (selected : ProcessorKind → Bool) :
    unitsOf selected history.pending = 0 := by
  rw [← accounted.toRemoveUnits selected,
    (nothingMarked_of_run run).processors]
  rfl

instance (history : ReductionHistory) (event : ReductionEvent) :
    Decidable (history.Enabled event) :=
  match event with
  | .increaseFeatures _ | .reduceFeatures _ | .runTask _ => isTrue trivial
  | .endTask _ => inferInstanceAs (Decidable (_ < _))

instance (history : ReductionHistory) (event : ReductionEvent) :
    Decidable ((system description maxTaskCount).Enabled history event) :=
  inferInstanceAs (Decidable (history.Enabled event))

instance (history : ReductionHistory) (event : ReductionEvent) :
    Decidable (history.FitsAtOnce event) :=
  match event with
  | .increaseFeatures _ => isTrue trivial
  | .runTask _ => inferInstanceAs (Decidable (∀ _ ∈ _, _))
  | .reduceFeatures _ => inferInstanceAs (Decidable (_ ∧ _))
  | .endTask _ => inferInstanceAs (Decidable (∀ _ ∈ _, ∀ _ ∈ _, _))

end ReductionHistory

end DistributedRdf.Resources
