import DistributedRdf.RestoredRequirements

namespace DistributedRdf.Scheduling.MethodResourceDescription

open MethodResourceDescription Option List

/-!
# A description that is reduced by itself

The loop goes through the processors that it changes.
-/

/-- What is taken is what the processor has when its turn comes. -/
def reduceOwnProcessors :
    List Nat → MethodResourceDescription → MethodResourceDescription × Bool
  | [], this => (this, true)
  | position :: rest, this =>
      match this.processors[position]? with
      | none => (this, true)
      | some p =>
          match reduceProcessor p this.processors with
          | none => (this, false)
          | some (processors, p_reduced) =>
              reduceOwnProcessors rest
                ({ this with processors := processors }.countUnits
                  p_reduced.kind.type (-p_reduced.computingUnits))

/-- `available.reduceDynamic(available)` -/
def reduceByItself (this : MethodResourceDescription) :
    MethodResourceDescription :=
  match reduceOwnProcessors (range this.processors.length) this with
  | (after, false) => after
  | (after, true) =>
      if after.checkMemory after then
        { after with memorySize := after.memorySize.map fun size => size - size }
      else after

variable {this : MethodResourceDescription}

/-- Nothing after the processor that asks is changed. -/
theorem reduceProcessor_later
    {p reduced : Processor}
    {processors after : List Processor}
    (taken : reduceProcessor p processors = some (after, reduced))
    {position : Nat}
    (isHere : (processors[position]?).map (·.kind) = some p.kind)
    {later : Nat}
    (isLater : position < later) :
    after[later]? = processors[later]? := by
  induction processors generalizing after position later with
  | nil => exact nomatch taken
  | cons pThis rest hypothesis =>
      obtain ⟨later, rfl⟩ : ∃ before, later = before + 1 :=
        ⟨later - 1, by omega⟩
      rw [reduceProcessor] at taken
      split at taken
      case isTrue compatible =>
        cases taken
        rfl
      case isFalse incompatible =>
        obtain ⟨⟨restAfter, _⟩, restTaken, same⟩ :=
          map_eq_some_iff.mp taken
        cases same
        cases position with
        | zero =>
            have sameKind : pThis.kind = p.kind := some.inj isHere
            rw [sameKind] at incompatible
            exact absurd (checkProcessorCompatibility_refl p.kind) incompatible
        | succ position =>
            rw [getElem?_cons_succ, getElem?_cons_succ]
            exact hypothesis restTaken isHere (by omega)

/-- Each processor still has everything when its turn comes. -/
theorem reduceOwnProcessors_eq
    (rest : List Processor)
    (position : Nat)
    (this reduced : MethodResourceDescription)
    (untouched : ∀ i : Nat, this.processors[position + i]? = rest[i]?) :
    reduceOwnProcessors (range' position rest.length) this =
      ((reduceProcessors rest this reduced).1,
        (reduceProcessors rest this reduced).2.isSome) := by
  induction rest generalizing position this reduced with
  | nil => rfl
  | cons p rest hypothesis =>
      have isHere : this.processors[position]? = some p := untouched 0
      rw [length_cons, range'_succ, reduceOwnProcessors, isHere,
        reduceProcessors]
      cases taken : reduceProcessor p this.processors with
      | none => simp only [taken, isSome_none]
      | some outcome =>
          obtain ⟨processors, p_reduced⟩ := outcome
          simp only [taken]
          apply hypothesis
          intro i
          change processors[position + 1 + i]? = rest[i]?
          rw [reduceProcessor_later taken
            (by rw [isHere, map_some]) (by omega)]
          have untouchedLater := untouched (i + 1)
          rw [getElem?_cons_succ] at untouchedLater
          rw [← untouchedLater]
          congr 1
          omega

theorem checkMemory_self : this.checkMemory this := by
  unfold checkMemory checkInclusion checkCompatibility
  cases this.memorySize with
  | none => simp
  | some size => simp

/-- Going through a copy of the processors would come to the same. -/
theorem reduceByItself_eq :
    this.reduceByItself = (this.reduceDynamic this).1 := by
  have served : AllServed this.kinds this.processors :=
    allServed_of_known fun p isProcessor => mem_map_of_mem isProcessor
  obtain ⟨between, taken, loop, -, memorySize, memoryType⟩ :=
    @reduceProcessors_spec this empty this.processors served
  have ownLoop :
      reduceOwnProcessors (range this.processors.length) this =
        (between, true) := by
    rw [range_eq_range', reduceOwnProcessors_eq this.processors 0 this empty
      (fun i => by rw [Nat.zero_add]), loop]
    rfl
  have fits : between.checkMemory this := by
    rw [checkMemory, memorySize, memoryType]
    exact checkMemory_self
  rw [reduceDynamic_of_loop loop, reduceByItself, ownLoop, if_pos fits]
  simp only [checkMemory_self, if_true, memorySize]
  cases this.memorySize <;> rfl

/-!
## Units of processors and their totals
-/

variable (this)

/-- What is counted in the total of a type and is in no processor -/
def surplus (type : ProcessorType) : Int :=
  this.totalComputingUnits type - unitsOfType type this.processors

variable {this}

theorem Taken.surplus
    {after : MethodResourceDescription}
    {requested taken : List Processor}
    (effect : Taken this requested taken after)
    (type : ProcessorType) :
    after.surplus type = this.surplus type := by
  have totals := effect.totals type
  have units :
      unitsOfType type after.processors + unitsOfType type taken =
        unitsOfType type this.processors :=
    effect.units _
  unfold MethodResourceDescription.surplus
  omega

variable
  (this)
  (given : List Processor)

/-- The effect of giving units to the processors that serve what is given -/
structure UnitsGiven
    (after : MethodResourceDescription) : Prop where
  kinds : after.kinds = this.kinds
  positions :
    ∀ i : Nat,
      (after.processors[i]?).map (·.computingUnits) =
        (this.processors[i]?).map fun p =>
          p.computingUnits + requestedAt this.kinds given i
  surplus : ∀ type, after.surplus type = this.surplus type

variable
  {this}
  {given}

theorem foldl_increaseBy_given
    (served : AllServed this.kinds given) :
    UnitsGiven this given (given.foldl increaseBy this) := by
  obtain ⟨after, taken, loop, effect, -, -⟩ :=
    @reduceProcessors_spec this empty _ (allServed_negated served)
  rw [foldl_increaseBy_eq served empty, loop]
  refine ⟨effect.kinds, fun i => ?_, Taken.surplus effect⟩
  rw [effect.positions i, requestedAt_negated]
  simp only [Int.sub_neg]

/-- A description is released to the other one, which has the same processors. -/
theorem increaseDynamic_given
    {rd2 : MethodResourceDescription}
    (served : AllServed this.kinds rd2.processors) :
    UnitsGiven this rd2.processors (this.increaseDynamic rd2) := by
  have given := foldl_increaseBy_given served
  exact ⟨given.kinds, given.positions, given.surplus⟩

/--
What a processor lacks is what the processors that it serves before any other
one lack together.
-/
def LacksWhereServed (available description : MethodResourceDescription) : Prop :=
  ∀ (i : Nat) (left full : Processor),
    available.processors[i]? = some left →
      description.processors[i]? = some full →
        full.computingUnits - left.computingUnits =
          requestedAt description.kinds description.processors i -
            requestedAt description.kinds available.processors i

/-- Releasing everything -/
def released (available description : MethodResourceDescription) :
    MethodResourceDescription :=
  available.reduceByItself.increaseDynamic description

variable {available description : MethodResourceDescription}

theorem reduceByItself_taken :
    ∃ taken,
      Taken available available.processors taken available.reduceByItself ∧
        available.reduceByItself.memorySize =
          available.memorySize.map (fun _ => 0) ∧
        available.reduceByItself.memoryType = available.memoryType := by
  have served : AllServed available.kinds available.processors :=
    allServed_of_known fun p isProcessor => mem_map_of_mem isProcessor
  obtain ⟨after, reduced, reducedEq, reserved⟩ :=
    reduceDynamic_of_served served checkMemory_self
  rw [reduceByItself_eq, reducedEq]
  refine ⟨reduced.processors, reserved.processors, ?_, reserved.memoryType⟩
  rw [reserved.memorySize]
  cases available.memorySize with
  | none => rfl
  | some size => simp

section

variable (isPrefix : description.kinds <+: available.kinds)

include isPrefix

/-- The processors of the description are there, and there may be more of them. -/
theorem allServed_of_prefix :
    AllServed available.kinds description.processors :=
  allServed_of_known fun _ isProcessor =>
    isPrefix.subset (mem_map_of_mem isProcessor)

theorem released_kinds :
    (available.released description).kinds = available.kinds := by
  obtain ⟨taken, effect, -⟩ := @reduceByItself_taken available
  have given := @increaseDynamic_given available.reduceByItself description
    (effect.kinds.symm ▸ allServed_of_prefix isPrefix)
  exact given.kinds.trans effect.kinds

theorem released_surplus
    (type : ProcessorType) :
    (available.released description).surplus type = available.surplus type := by
  obtain ⟨taken, effect, -⟩ := @reduceByItself_taken available
  have given := @increaseDynamic_given available.reduceByItself description
    (effect.kinds.symm ▸ allServed_of_prefix isPrefix)
  exact (given.surplus type).trans (Taken.surplus effect type)

end

theorem released_processors_iff (sameKinds : available.kinds = description.kinds) :
    (available.released description).processors = description.processors ↔
      available.LacksWhereServed description := by
  obtain ⟨taken, effect, -⟩ := @reduceByItself_taken available
  have served : AllServed available.kinds description.processors :=
    allServed_of_prefix (sameKinds ▸ List.prefix_refl _)
  have given := @increaseDynamic_given available.reduceByItself description
    (effect.kinds.symm ▸ served)
  have positions (i : Nat) :
      ((available.released description).processors[i]?).map
          (·.computingUnits) =
        (available.processors[i]?).map fun left =>
          left.computingUnits -
              requestedAt description.kinds available.processors i +
            requestedAt description.kinds description.processors i := by
    refine (given.positions i).trans ?_
    have takenHere := effect.positions i
    have givenHere := congrArg
      (Option.map
        (· + requestedAt available.kinds description.processors i)) takenHere
    rw [Option.map_map, Option.map_map] at givenHere
    rw [effect.kinds, ← sameKinds]
    exact givenHere
  constructor
  · intro restored i left full isLeft isFull
    have here := positions i
    rw [restored, isFull, isLeft, map_some, map_some,
      some.injEq] at here
    omega
  · intro lacks
    refine processors_eq
      ((given.kinds.trans effect.kinds).trans sameKinds) fun i => ?_
    rw [positions i]
    have kindHere :
        (available.processors[i]?).map (·.kind) =
          (description.processors[i]?).map (·.kind) := by
      rw [← getElem?_map, ← getElem?_map]
      exact congrArg (·[i]?) sameKinds
    cases isLeft : available.processors[i]? with
    | none =>
        rw [isLeft, map_none] at kindHere
        rw [map_eq_none_iff.mp kindHere.symm]
        rfl
    | some left =>
        rw [isLeft, map_some] at kindHere
        obtain ⟨full, isFull, -⟩ := map_eq_some_iff.mp kindHere.symm
        have lacking := lacks i left full isLeft isFull
        rw [isFull, map_some, map_some, some.injEq]
        omega

theorem increaseDynamic_memorySize (this rd2 : MethodResourceDescription) :
    (this.increaseDynamic rd2).memorySize =
      this.memorySize.map (· + rd2.memorySize.getD 0) := by
  unfold increaseDynamic
  cases this.memorySize with
  | none => rfl
  | some size =>
      cases rd2.memorySize with
      | none => simp
      | some more => rfl

theorem released_memorySize
    (sameMemory : available.memorySize.isSome = description.memorySize.isSome) :
    (available.released description).memorySize = description.memorySize := by
  obtain ⟨taken, -, memorySize, -⟩ := @reduceByItself_taken available
  rw [released, increaseDynamic_memorySize, memorySize]
  cases isLeft : available.memorySize with
  | none =>
      rw [isLeft, isSome_none, eq_comm, isSome_eq_false_iff,
        isNone_iff_eq_none] at sameMemory
      rw [sameMemory]
      rfl
  | some left =>
      rw [isLeft, isSome_some, eq_comm, isSome_iff_exists]
        at sameMemory
      obtain ⟨full, isFull⟩ := sameMemory
      simp [isFull]

theorem increaseDynamic_memoryType (this rd2 : MethodResourceDescription) :
    (this.increaseDynamic rd2).memoryType = this.memoryType := by
  change (rd2.processors.foldl increaseBy this).memoryType = this.memoryType
  induction rd2.processors generalizing this with
  | nil => rfl
  | cons p rest hypothesis =>
      rw [foldl_cons, hypothesis, increaseBy]
      split <;> rfl

/-- The totals are those of the description if they exceed the units as much. -/
theorem released_eq_iff
    (isPrefix : description.kinds <+: available.kinds)
    (sameMemory : available.memorySize.isSome = description.memorySize.isSome)
    (sameType : available.memoryType = description.memoryType) :
    available.released description = description ↔
      available.kinds = description.kinds ∧
        available.LacksWhereServed description ∧
        available.surplus = description.surplus := by
  have surplus (type : ProcessorType) := released_surplus isPrefix type
  constructor
  · intro restored
    have sameKinds : available.kinds = description.kinds := by
      rw [← released_kinds isPrefix, restored]
    refine ⟨sameKinds, ?_, ?_⟩
    · exact (released_processors_iff sameKinds).mp
        (congrArg processors restored)
    · funext type
      rw [← surplus type, restored]
  · rintro ⟨sameKinds, lacks, sameSurplus⟩
    have processors := (released_processors_iff sameKinds).mpr lacks
    have totals :
        (available.released description).totalComputingUnits =
          description.totalComputingUnits := by
      funext type
      have exceeding := surplus type
      rw [sameSurplus] at exceeding
      unfold MethodResourceDescription.surplus at exceeding
      rw [processors] at exceeding
      omega
    have memorySize := released_memorySize sameMemory
    have memoryType :
        (available.released description).memoryType =
          description.memoryType := by
      obtain ⟨taken, -, -, memoryType⟩ := @reduceByItself_taken available
      exact (increaseDynamic_memoryType _ _).trans (memoryType.trans sameType)
    generalize available.released description = after at *
    cases after
    cases processors
    cases totals
    cases memorySize
    cases memoryType
    rfl

end DistributedRdf.Scheduling.MethodResourceDescription

namespace DistributedRdf.Resources

open Execution Scheduling MethodResourceDescription

/-!
# Workers that release everything

A worker is created with a copy of its description as what is available.
-/

def PricedDescription.copy (this : PricedDescription) : PricedDescription :=
  { this with
    toCloudMethodResourceDescription :=
      this.toCloudMethodResourceDescription.copy }

/-- A worker with every feature of what it has and of what is left -/
structure MethodWorker where
  description : PricedDescription
  available : PricedDescription
  usedTaskCount : Int
  maxTaskCount : Int
  /-- The tasks that use processors of a type other than CPU. -/
  usedTaskCountOf : ProcessorType → Int
  maxTaskCountOf : ProcessorType → Int

namespace MethodWorker

variable
  (description : PricedDescription)
  (maxTaskCount : Int)
  (maxTaskCountOf : ProcessorType → Int)

def new :
    MethodWorker where
  description := description
  available := description.copy
  usedTaskCount := 0
  maxTaskCount := maxTaskCount
  usedTaskCountOf := fun _ => 0
  maxTaskCountOf := maxTaskCountOf

/-- Replaces what tasks reserve. -/
def setAvailable
    (worker : MethodWorker)
    (available : MethodResourceDescription) : MethodWorker :=
  { worker with
    available :=
      { worker.available with toMethodResourceDescription := available } }

/-- `usesGPU`, `usesFPGA` and `usesOthers` -/
def uses
    (consumption : MethodResourceDescription)
    (type : ProcessorType) : Bool :=
  consumption.totalComputingUnits type > 0

def hasAvailable
    (worker : MethodWorker)
    (consumption : MethodResourceDescription) : Bool :=
  worker.available.containsDynamic consumption

def canRunNow
    (worker : MethodWorker)
    (consumption : MethodResourceDescription) : Bool :=
  worker.usedTaskCount < worker.maxTaskCount &&
    (Worker.countedTypes.all fun type =>
      worker.usedTaskCountOf type < worker.maxTaskCountOf type ||
        ! uses consumption type) &&
    worker.hasAvailable consumption

/-- Increases or decreases the counts of the types that are used. -/
def countTask
    (worker : MethodWorker)
    (consumption : MethodResourceDescription)
    (change : Int) : MethodWorker :=
  { worker with
    usedTaskCount := worker.usedTaskCount + change
    usedTaskCountOf := fun type =>
      if type ∈ Worker.countedTypes ∧ uses consumption type then
        worker.usedTaskCountOf type + change
      else
        worker.usedTaskCountOf type }

def reserveResource
    (worker : MethodWorker)
    (consumption : MethodResourceDescription) :
    MethodWorker × Option MethodResourceDescription :=
  if worker.hasAvailable consumption then
    let (available, reduced) := worker.available.reduceDynamic consumption
    (worker.setAvailable available, reduced)
  else
    (worker, none)

def releaseResource
    (worker : MethodWorker)
    (consumption : MethodResourceDescription) : MethodWorker :=
  worker.setAvailable (worker.available.increaseDynamic consumption)

/-- Returns what was reserved, or `none` if the task cannot be hosted. -/
def runTask
    (worker : MethodWorker)
    (consumption : MethodResourceDescription) :
    MethodWorker × Option MethodResourceDescription :=
  if worker.usedTaskCount < worker.maxTaskCount then
    match worker.reserveResource consumption with
    | (worker, some reserved) => (worker.countTask consumption 1, some reserved)
    | (worker, none) => (worker, none)
  else
    (worker, none)

def endTask
    (worker : MethodWorker)
    (consumption : MethodResourceDescription) : MethodWorker :=
  (worker.countTask consumption (-1)).releaseResource consumption

/-- The other counters are not reset. -/
def resetUsedTaskCount (worker : MethodWorker) : MethodWorker :=
  { worker with usedTaskCount := 0 }

def releaseAllResources (worker : MethodWorker) : MethodWorker :=
  let reset := worker.resetUsedTaskCount
  let reduced := reset.setAvailable reset.available.reduceByItself
  reduced.setAvailable
    (reduced.available.increaseDynamic
      worker.description.toMethodResourceDescription)

/-- Nothing is used any more, and everything can be hosted again. -/
structure AllReleased (worker : MethodWorker) : Prop where
  available : worker.available = worker.description
  usedTaskCount : worker.usedTaskCount = 0
  usedTaskCountOf : ∀ type ∈ Worker.countedTypes, worker.usedTaskCountOf type = 0
  hosts :
    ∀ consumption,
      worker.canRunNow consumption =
        (new worker.description worker.maxTaskCount
          worker.maxTaskCountOf).canRunNow consumption

/-!
## Histories of tasks
-/

/-- What a task that ends gives back need not be what one of them took. -/
inductive TaskEvent where
  | runTask (consumption : MethodResourceDescription)
  | endTask (consumption : MethodResourceDescription)

def next (worker : MethodWorker) : TaskEvent → MethodWorker
  | .runTask consumption => (worker.runTask consumption).1
  | .endTask consumption => worker.endTask consumption

def system :
    TransitionSystem MethodWorker TaskEvent where
  start := new description maxTaskCount maxTaskCountOf
  Enabled _ _ := True
  next := next

/-- What the tasks leave as it was in a copy of the description -/
structure Kept (description available : PricedDescription) : Prop where
  kinds : description.kinds <+: available.kinds
  surplus :
    available.kinds = description.kinds →
      available.surplus = description.copy.surplus
  memorySize : available.memorySize.isSome = description.memorySize.isSome
  memoryType : available.memoryType = description.memoryType
  features :
    { description with
      toMethodResourceDescription := available.toMethodResourceDescription } =
        available

theorem copy_eq :
    { description with
      toMethodResourceDescription :=
        { description.toMethodResourceDescription with
          totalComputingUnits := description.copy.totalComputingUnits } } =
      description.copy := by
  have added :=
    foldl_addProcessor_eq description.processors
      { description.toMethodResourceDescription with
        processors := []
        totalComputingUnits := fun _ => 0 }
  unfold PricedDescription.copy CloudMethodResourceDescription.copy
    CloudMethodResourceDescription.withProcessors
  rw [added]
  rfl

theorem copy_kinds :
    description.copy.kinds = description.kinds := by
  rw [← copy_eq description]
  rfl

theorem kept_copy :
    Kept description description.copy := by
  constructor
  case kinds => exact (copy_kinds description).symm ▸ List.prefix_refl _
  case surplus => exact fun _ => rfl
  case memorySize => rw [← copy_eq description]
  case memoryType => rw [← copy_eq description]
  case features => rw [← copy_eq description]

section Steps

variable {worker : MethodWorker}

theorem runTask_spec (consumption : MethodResourceDescription) :
    (worker.runTask consumption).1 = worker ∨
      ∃ after reduced,
        Reserved worker.available.toMethodResourceDescription consumption after
            reduced ∧
          (worker.runTask consumption).1 =
            (worker.setAvailable after).countTask consumption 1 := by
  by_cases slot : worker.usedTaskCount < worker.maxTaskCount
  · by_cases fits : worker.hasAvailable consumption
    · obtain ⟨after, reduced, reducedEq, reserved⟩ := reduceDynamic_spec fits
      refine .inr ⟨after, reduced, reserved, ?_⟩
      rw [runTask, if_pos slot, reserveResource, if_pos fits, reducedEq]
    · refine .inl ?_
      rw [runTask, if_pos slot, reserveResource, if_neg fits]
  · refine .inl ?_
    rw [runTask, if_neg slot]

theorem kept_reserved
    {description available : PricedDescription}
    {consumption after reduced : MethodResourceDescription}
    (kept : Kept description available)
    (reserved :
      Reserved available.toMethodResourceDescription consumption after reduced) :
    Kept description
      { available with toMethodResourceDescription := after } := by
  have kinds : after.kinds = available.kinds := reserved.processors.kinds
  constructor
  case kinds => exact kinds.symm ▸ kept.kinds
  case surplus =>
    intro sameKinds
    have exceeding := kept.surplus (kinds.symm.trans sameKinds)
    rw [← exceeding]
    funext type
    exact Taken.surplus reserved.processors type
  case memorySize =>
    rw [← kept.memorySize]
    change after.memorySize.isSome = _
    rw [reserved.memorySize]
    cases available.memorySize with
    | none => rfl
    | some size => cases consumption.memorySize <;> rfl
  case memoryType => exact reserved.memoryType.trans kept.memoryType
  case features => rw [← kept.features]

theorem kept_given
    {description available : PricedDescription}
    (kept : Kept description available)
    (consumption : MethodResourceDescription) :
    Kept description
      { available with
        toMethodResourceDescription :=
          available.toMethodResourceDescription.increaseDynamic consumption } := by
  have grows :
      available.kinds <+: (available.increaseDynamic consumption).kinds :=
    kinds_prefix_foldl consumption.processors
  constructor
  case kinds => exact kept.kinds.trans grows
  case surplus =>
    intro sameKinds
    have notLonger :
        (available.increaseDynamic consumption).kinds.length ≤
          available.kinds.length := by
      rw [show (available.increaseDynamic consumption).kinds = description.kinds
        from sameKinds]
      exact kept.kinds.length_le
    have served := @allServed_of_length_le available.toMethodResourceDescription
      consumption.processors notLonger
    have given := increaseDynamic_given served
    have exceeding := kept.surplus (given.kinds.symm.trans sameKinds)
    rw [← exceeding]
    funext type
    exact given.surplus type
  case memorySize =>
    rw [← kept.memorySize, increaseDynamic_memorySize, Option.isSome_map]
  case memoryType =>
    exact (increaseDynamic_memoryType _ _).trans kept.memoryType
  case features => rw [← kept.features]

theorem kept_next
    (kept : Kept worker.description worker.available)
    (event : TaskEvent) :
    Kept (worker.next event).description (worker.next event).available := by
  cases event with
  | runTask consumption =>
      change Kept (worker.runTask consumption).1.description
        (worker.runTask consumption).1.available
      rcases @runTask_spec worker consumption with same | ⟨after, reduced, reserved, same⟩
      · rw [same]
        exact kept
      · rw [same]
        exact kept_reserved kept reserved
  | endTask consumption => exact kept_given kept consumption

end Steps

/-!
## Releasing everything
-/

/-- What has to hold before everything is released -/
structure Releasable (worker : MethodWorker) : Prop where
  /-- No task gave back a processor that nothing serves. -/
  sameProcessors : worker.available.kinds = worker.description.kinds
  /-- Copying the description counts what the description counts. -/
  copied :
    worker.description.copy.totalComputingUnits =
      worker.description.totalComputingUnits
  lacks :
    worker.available.LacksWhereServed
      worker.description.toMethodResourceDescription
  /-- No task that uses processors of another type than CPU runs. -/
  unused : ∀ type ∈ Worker.countedTypes, worker.usedTaskCountOf type = 0

theorem surplus_copy_iff :
    description.copy.surplus = description.surplus ↔
      description.copy.totalComputingUnits = description.totalComputingUnits := by
  have sameProcessors : description.copy.processors = description.processors := by
    rw [← copy_eq description]
  constructor
  · intro sameSurplus
    funext type
    have exceeding := congrFun sameSurplus type
    unfold MethodResourceDescription.surplus at exceeding
    rw [sameProcessors] at exceeding
    omega
  · intro sameTotals
    funext type
    unfold MethodResourceDescription.surplus
    rw [sameProcessors, sameTotals]

variable {worker : MethodWorker}

theorem available_releaseAllResources_iff
    (kept : Kept worker.description worker.available) :
    worker.releaseAllResources.available = worker.description ↔
      worker.available.released worker.description.toMethodResourceDescription =
        worker.description.toMethodResourceDescription := by
  have features :
      worker.releaseAllResources.available =
        { worker.description with
          toMethodResourceDescription :=
            worker.available.released
              worker.description.toMethodResourceDescription } := by
    have released :
        worker.releaseAllResources.available =
          { worker.available with
            toMethodResourceDescription :=
              worker.available.released
                worker.description.toMethodResourceDescription } :=
      rfl
    rw [released, ← kept.features]
  rw [features]
  constructor
  · intro same
    exact congrArg (fun full => full.toMethodResourceDescription) same
  · intro same
    rw [same]

/-- A worker that lacks nothing hosts what a new one hosts. -/
theorem hosts_of_unused
    (available : worker.available = worker.description)
    (noTasks : worker.usedTaskCount = 0)
    (unused : ∀ type ∈ Worker.countedTypes, worker.usedTaskCountOf type = 0)
    (consumption : MethodResourceDescription) :
    worker.canRunNow consumption =
      (new worker.description worker.maxTaskCount
        worker.maxTaskCountOf).canRunNow consumption := by
  have sameAnswer :
      worker.hasAvailable consumption =
        (new worker.description worker.maxTaskCount
          worker.maxTaskCountOf).hasAvailable consumption := by
    change worker.available.containsDynamic consumption =
      worker.description.copy.containsDynamic consumption
    rw [available, ← copy_eq worker.description]
    rfl
  have sameCounts :
      (Worker.countedTypes.all fun type =>
        worker.usedTaskCountOf type < worker.maxTaskCountOf type ||
          ! uses consumption type) =
        Worker.countedTypes.all fun type =>
          (0 : Int) < worker.maxTaskCountOf type || ! uses consumption type := by
    rw [Bool.eq_iff_iff, List.all_eq_true, List.all_eq_true]
    exact forall₂_congr fun type isCounted => by rw [unused type isCounted]
  rw [canRunNow, canRunNow, sameAnswer, sameCounts, noTasks]
  rfl

/-- Everything is released exactly if what is not reset was not used. -/
theorem allReleased_iff
    {description : PricedDescription}
    {maxTaskCount : Int}
    {maxTaskCountOf : ProcessorType → Int}
    {events : List TaskEvent}
    {worker : MethodWorker}
    (run :
      Run (system description maxTaskCount maxTaskCountOf) anyStep events
        worker) :
    worker.releaseAllResources.AllReleased ↔ worker.Releasable := by
  have kept : Kept worker.description worker.available :=
    @Run.invariant _ _ _ _
      (fun worker => Kept worker.description worker.available)
      (kept_copy description) (fun _ event kept _ _ => kept_next kept event)
      _ _ run
  have released := available_releaseAllResources_iff kept
  rw [released_eq_iff kept.kinds kept.memorySize kept.memoryType] at released
  constructor
  · intro allReleased
    obtain ⟨sameKinds, lacks, sameSurplus⟩ := released.mp allReleased.available
    refine ⟨sameKinds, ?_, lacks, allReleased.usedTaskCountOf⟩
    exact (surplus_copy_iff worker.description).mp
      ((kept.surplus sameKinds).symm.trans sameSurplus)
  · intro releasable
    have sameKinds := releasable.sameProcessors
    have available := released.mpr ⟨sameKinds, releasable.lacks,
      (kept.surplus sameKinds).trans
        ((surplus_copy_iff worker.description).mpr releasable.copied)⟩
    exact ⟨available, rfl, releasable.unused,
      hosts_of_unused available rfl releasable.unused⟩

variable (type : String)

/-- Units of a processor of which only the type is assigned -/
def ofType (units : Int) : MethodResourceDescription :=
  empty.addProcessor
    ⟨{ ProcessorKind.unassigned with type := some type }, units⟩

/-- One task that takes two of the four units of a machine -/
def afterOneTask : MethodWorker :=
  (system
      { PricedDescription.empty with
        toMethodResourceDescription := ofType type 4 }
      3 fun _ => 3).after
    [.runTask (ofType type 2)]

theorem allReleased_afterCPUTask :
    (afterOneTask CPU_TYPE).releaseAllResources.AllReleased := by
  have run :
      Run (system _ 3 fun _ => 3) anyStep _ (afterOneTask CPU_TYPE) :=
    run_of_executable ⟨⟨trivial, trivial⟩, trivial⟩
  refine (allReleased_iff run).mpr ⟨rfl, rfl, ?_, fun type isCounted => ?_⟩
  · intro i left full isLeft isFull
    cases i with
    | zero =>
        cases isLeft
        cases isFull
        rfl
    | succ i => exact nomatch isLeft
  · rcases List.mem_cons.mp isCounted with rfl | isLater
    · rfl
    · rcases List.mem_cons.mp isLater with rfl | isLast
      · rfl
      · rw [List.mem_singleton.mp isLast]
        rfl

/-- The task that uses a GPU is still counted. -/
theorem not_allReleased_afterGPUTask :
    ¬ (afterOneTask GPU_TYPE).releaseAllResources.AllReleased := by
  intro allReleased
  have counted : (1 : Int) = 0 :=
    allReleased.usedTaskCountOf .GPU (by decide)
  exact absurd counted (by decide)

end MethodWorker

end DistributedRdf.Resources
