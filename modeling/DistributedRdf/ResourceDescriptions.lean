import Mathlib.Algebra.BigOperators.Group.List.Basic
import Mathlib.Tactic.Linarith
import Mathlib.Tactic.Ring

namespace DistributedRdf.Scheduling

open List

/-!
# Dynamic resources of a worker

Tasks take computing units of the processors and memory.  Sizes are exact
numbers, and a size or a name that is not assigned is `none`.
-/

/-- What the compatibility of processors looks at. -/
structure ProcessorKind where
  name : Option String
  architecture : Option String
  speed : Option ℚ
  type : Option String
  internalMemory : Option ℚ
  propName : Option String
  propValue : Option String
  deriving DecidableEq

structure Processor where
  kind : ProcessorKind
  computingUnits : Int
  deriving DecidableEq

def CPU_TYPE := "CPU"

def GPU_TYPE := "GPU"

def FPGA_TYPE := "FPGA"

/-- The types of processors that are counted apart from each other. -/
inductive ProcessorType where
  | CPU
  | GPU
  | FPGA
  | OTHER
  deriving DecidableEq

def processorType (type : Option String) : ProcessorType :=
  if type = some CPU_TYPE then
    .CPU
  else if type = some GPU_TYPE then
    .GPU
  else if type = some FPGA_TYPE then
    .FPGA
  else
    .OTHER

/-- The part of `MethodResourceDescription` that tasks reserve. -/
structure MethodResourceDescription where
  processors : List Processor
  totalComputingUnits : ProcessorType → Int
  memorySize : Option ℚ
  memoryType : Option String

/-- `new Processor()`, but for its computing units -/
def ProcessorKind.unassigned : ProcessorKind where
  name := none
  architecture := none
  speed := none
  type := some CPU_TYPE
  internalMemory := none
  propName := none
  propValue := none

def checkCompatibility (value1 value2 : Option String) : Bool :=
  value1 = value2 ∨ value1 = none ∨ value2 = none

/-- `checkInclusion(int, int)`, where only the second value may be unassigned -/
def checkUnitsInclusion (value1 value2 : Int) : Bool :=
  value1 ≥ value2 ∨ value2 = -1

/-- `checkInclusion(float, float)` -/
def checkInclusion : Option ℚ → Option ℚ → Bool
  | some value1, some value2 => value1 ≥ value2
  | _, _ => true

def checkProcessorCompatibility (pThis pRc2 : ProcessorKind) : Bool :=
  checkCompatibility pThis.name pRc2.name &&
    checkCompatibility pThis.architecture pRc2.architecture &&
    checkInclusion pThis.speed pRc2.speed &&
    checkCompatibility pThis.type pRc2.type &&
    checkInclusion pThis.internalMemory pRc2.internalMemory &&
    checkCompatibility pThis.propName pRc2.propName &&
    checkCompatibility pThis.propValue pRc2.propValue

def checkProcessorContains (pThis pRc2 : Processor) : Bool :=
  checkProcessorCompatibility pThis.kind pRc2.kind &&
    checkUnitsInclusion pThis.computingUnits pRc2.computingUnits

/--
`increaseDynamic` for one processor: the first compatible one grows.  Its kind is
returned, or `none` if there is no such processor.
-/
def increaseProcessor (p : Processor) :
    List Processor → Option (List Processor × ProcessorKind)
  | [] => none
  | pThis :: rest =>
      if checkProcessorCompatibility pThis.kind p.kind then
        some
          ({ pThis with
              computingUnits := pThis.computingUnits + p.computingUnits } :: rest,
            pThis.kind)
      else
        (increaseProcessor p rest).map fun (processors, kind) =>
          (pThis :: processors, kind)

/--
`reduceDynamic` for one processor: the first compatible one shrinks, whether it
has enough computing units or not.
-/
def reduceProcessor (p : Processor) :
    List Processor → Option (List Processor × Processor)
  | [] => none
  | pThis :: rest =>
      if checkProcessorCompatibility pThis.kind p.kind then
        some
          ({ pThis with
              computingUnits := pThis.computingUnits - p.computingUnits } :: rest,
            { pThis with computingUnits := p.computingUnits })
      else
        (reduceProcessor p rest).map fun (processors, reduced) =>
          (pThis :: processors, reduced)

namespace MethodResourceDescription

def empty : MethodResourceDescription where
  processors := []
  totalComputingUnits _ := 0
  memorySize := none
  memoryType := none

def checkProcessors (this rc2 : MethodResourceDescription) : Bool :=
  rc2.processors.all fun p =>
    this.processors.any fun pThis => checkProcessorContains pThis p

def checkMemory (this rc2 : MethodResourceDescription) : Bool :=
  checkInclusion this.memorySize rc2.memorySize &&
    checkCompatibility this.memoryType rc2.memoryType

def containsDynamic (this rc2 : MethodResourceDescription) : Bool :=
  this.checkProcessors rc2 && this.checkMemory rc2

variable (this : MethodResourceDescription)

/-- `increaseComputingUnits`, and `decreaseComputingUnits` with a negative amount -/
def countUnits
    (type : Option String)
    (cus : Int) : MethodResourceDescription :=
  { this with
    totalComputingUnits :=
      Function.update this.totalComputingUnits (processorType type)
        (this.totalComputingUnits (processorType type) + cus) }

variable (p : Processor)

/-- A processor without computing units counts as one. -/
def addProcessor : MethodResourceDescription :=
  { this with processors := this.processors ++ [p] }.countUnits p.kind.type
    (if p.computingUnits > 0 then p.computingUnits else 1)

/-- A size that is not positive is ignored. -/
def setMemorySize
    (memorySize : ℚ) : MethodResourceDescription :=
  if memorySize > 0 then { this with memorySize := some memorySize } else this

def setMemoryType
    (memoryType : Option String) : MethodResourceDescription :=
  if memoryType = some "" then this else { this with memoryType := memoryType }

/-- One round of the loop of `increaseDynamic` -/
def increaseBy : MethodResourceDescription :=
  match increaseProcessor p this.processors with
  | some (processors, kind) =>
      { this with processors := processors }.countUnits kind.type
        p.computingUnits
  | none => this.addProcessor p

def increaseDynamic (this rd2 : MethodResourceDescription) :
    MethodResourceDescription :=
  { rd2.processors.foldl increaseBy this with
    memorySize :=
      match this.memorySize, rd2.memorySize with
      | some size, some more => some (size + more)
      | size, _ => size }

/-- A processor that nothing is compatible with leaves the others reduced. -/
def reduceProcessors :
    List Processor → (this reduced : MethodResourceDescription) →
      MethodResourceDescription × Option MethodResourceDescription
  | [], this, reduced => (this, some reduced)
  | p :: rest, this, reduced =>
      match reduceProcessor p this.processors with
      | none => (this, none)
      | some (processors, p_reduced) =>
          reduceProcessors rest
            ({ this with processors := processors }.countUnits
              p_reduced.kind.type (-p_reduced.computingUnits))
            (reduced.addProcessor p_reduced)

/-- Returns what was reduced, or `none` if the reduce is invalid. -/
def reduceDynamic (this rd2 : MethodResourceDescription) :
    MethodResourceDescription × Option MethodResourceDescription :=
  match reduceProcessors rd2.processors this empty with
  | (this, none) => (this, none)
  | (this, some reduced) =>
      if this.checkMemory rd2 then
        let reduced := reduced.setMemoryType this.memoryType
        match this.memorySize, rd2.memorySize with
        | some size, some required =>
            ({ this with memorySize := some (size - required) },
              some (reduced.setMemorySize required))
        | _, _ => (this, some reduced)
      else
        (this, none)

end MethodResourceDescription

/-!
## Computing units

A request is served by the first processor that is compatible with it.
-/

variable (selected : ProcessorKind → Bool)

/-- The computing units of the processors of some kinds. -/
def unitsWhere
    (processors : List Processor) : Int :=
  ((processors.filter (selected ·.kind)).map (·.computingUnits)).sum

theorem unitsWhere_cons
    (p : Processor)
    (processors : List Processor) :
    unitsWhere selected (p :: processors) =
      (if selected p.kind then p.computingUnits else 0) +
        unitsWhere selected processors := by
  unfold unitsWhere
  by_cases isSelected : selected p.kind
  · simp [isSelected]
  · simp [isSelected]

/-- The kind of the processor that serves a request. -/
def servingKind
    (kinds : List ProcessorKind)
    (kind : ProcessorKind) : Option ProcessorKind :=
  kinds.find? fun pThis => checkProcessorCompatibility pThis kind

def servingPosition
    (kinds : List ProcessorKind)
    (kind : ProcessorKind) : Option Nat :=
  kinds.findIdx? fun pThis => checkProcessorCompatibility pThis kind

section OneProcessor

variable
  {p : Processor}
  {processors : List Processor}
  {serving : ProcessorKind}

theorem servingKind_cons
    (pThis kind : ProcessorKind)
    (kinds : List ProcessorKind) :
    servingKind (pThis :: kinds) kind =
      if checkProcessorCompatibility pThis kind then some pThis
      else servingKind kinds kind := by
  unfold servingKind
  by_cases compatible : checkProcessorCompatibility pThis kind
  · simp [compatible]
  · simp [compatible]

theorem increaseProcessor_spec
    (served : servingKind (processors.map (·.kind)) p.kind = some serving) :
    ∃ after,
      increaseProcessor p processors = some (after, serving) ∧
        after.map (·.kind) = processors.map (·.kind) ∧
        ∀ selected,
          unitsWhere selected after =
            unitsWhere selected processors +
              if selected serving then p.computingUnits else 0 := by
  induction processors with
  | nil => exact absurd served (by simp [servingKind])
  | cons pThis rest hypothesis =>
      rw [map_cons, servingKind_cons] at served
      rw [increaseProcessor]
      by_cases compatible : checkProcessorCompatibility pThis.kind p.kind
      · rw [if_pos compatible, Option.some.injEq] at served
        subst serving
        rw [if_pos compatible]
        refine ⟨_, rfl, rfl, fun selected => ?_⟩
        rw [unitsWhere_cons, unitsWhere_cons]
        by_cases isSelected : selected pThis.kind
        · simp only [isSelected, if_true]
          ring
        · simp [isSelected]
      · rw [if_neg compatible] at served
        rcases hypothesis served with ⟨after, increased, kinds, units⟩
        rw [if_neg compatible, increased]
        refine ⟨pThis :: after, rfl, ?_, fun selected => ?_⟩
        · rw [map_cons, map_cons, kinds]
        · rw [unitsWhere_cons, unitsWhere_cons, units selected, Int.add_assoc]

theorem reduceProcessor_spec
    (served : servingKind (processors.map (·.kind)) p.kind = some serving) :
    ∃ after,
      reduceProcessor p processors =
          some (after, ⟨serving, p.computingUnits⟩) ∧
        after.map (·.kind) = processors.map (·.kind) ∧
        (∀ selected,
          unitsWhere selected after +
              (if selected serving then p.computingUnits else 0) =
            unitsWhere selected processors) ∧
        ∀ i : Nat,
          (after[i]?).map (·.computingUnits) =
            (processors[i]?).map fun pThis =>
              pThis.computingUnits -
                if servingPosition (processors.map (·.kind)) p.kind = some i then
                  p.computingUnits
                else 0 := by
  induction processors with
  | nil => exact absurd served (by simp [servingKind])
  | cons pThis rest hypothesis =>
      rw [map_cons, servingKind_cons] at served
      rw [reduceProcessor]
      by_cases compatible : checkProcessorCompatibility pThis.kind p.kind
      · rw [if_pos compatible, Option.some.injEq] at served
        subst serving
        rw [if_pos compatible]
        refine ⟨_, rfl, rfl, fun selected => ?_, fun i => ?_⟩
        · rw [unitsWhere_cons, unitsWhere_cons]
          by_cases isSelected : selected pThis.kind
          · simp only [isSelected, if_true]
            ring
          · simp [isSelected]
        · cases i with
          | zero | succ _ => simp [servingPosition, findIdx?_cons, compatible]
      · rw [if_neg compatible] at served
        rcases hypothesis served with
          ⟨after, reduced, kinds, units, positions⟩
        rw [if_neg compatible, reduced]
        refine ⟨pThis :: after, rfl, ?_, fun selected => ?_, fun i => ?_⟩
        · rw [map_cons, map_cons, kinds]
        · rw [unitsWhere_cons, unitsWhere_cons, ← units selected,
            Int.add_assoc]
        · cases i with
          | zero => simp [servingPosition, findIdx?_cons, compatible]
          | succ i =>
              have later := positions i
              simp only [servingPosition] at later
              simp [servingPosition, findIdx?_cons, compatible, later]

end OneProcessor

/-!
## Whole descriptions
-/

/-- Every request is served by a processor of some kind. -/
def AllServed
    (kinds : List ProcessorKind)
    (requested : List Processor) : Prop :=
  ∀ p ∈ requested, (servingKind kinds p.kind).isSome

/-- What is requested of the processor at a position. -/
def requestedAt
    (kinds : List ProcessorKind)
    (requested : List Processor)
    (position : Nat) : Int :=
  ((requested.filter fun p =>
    servingPosition kinds p.kind = some position).map (·.computingUnits)).sum

/-- What is requested of processors of some kinds. -/
def requestedWhere
    (kinds : List ProcessorKind)
    (selected : ProcessorKind → Bool)
    (requested : List Processor) : Int :=
  ((requested.filter fun p => (servingKind kinds p.kind).any selected).map
    (·.computingUnits)).sum

theorem requestedAt_cons
    (kinds : List ProcessorKind)
    (p : Processor)
    (requested : List Processor)
    (position : Nat) :
    requestedAt kinds (p :: requested) position =
      (if servingPosition kinds p.kind = some position then p.computingUnits
        else 0) + requestedAt kinds requested position := by
  unfold requestedAt
  by_cases served : servingPosition kinds p.kind = some position
  · simp [served]
  · simp [served]

theorem requestedWhere_cons
    {kinds : List ProcessorKind}
    {p : Processor}
    {serving : ProcessorKind}
    (served : servingKind kinds p.kind = some serving)
    (selected : ProcessorKind → Bool)
    (requested : List Processor) :
    requestedWhere kinds selected (p :: requested) =
      (if selected serving then p.computingUnits else 0) +
        requestedWhere kinds selected requested := by
  unfold requestedWhere
  by_cases isSelected : selected serving
  · simp [served, isSelected]
  · simp [served, isSelected]

namespace MethodResourceDescription

variable (this : MethodResourceDescription)

def kinds : List ProcessorKind :=
  this.processors.map (·.kind)

def unitsOfType (type : ProcessorType) (processors : List Processor) : Int :=
  unitsWhere (fun kind => processorType kind.type = type) processors

/-- The processor that serves a request hands out what it asks for. -/
def HandsOut (kinds : List ProcessorKind) (asked taken : Processor) : Prop :=
  servingKind kinds asked.kind = some taken.kind ∧
    taken.computingUnits = asked.computingUnits

/-- The effect of taking what is requested from the processors. -/
structure Taken
    (requested taken : List Processor)
    (after : MethodResourceDescription) : Prop where
  kinds : after.kinds = this.kinds
  units :
    ∀ selected,
      unitsWhere selected after.processors + unitsWhere selected taken =
        unitsWhere selected this.processors
  positions :
    ∀ i : Nat,
      (after.processors[i]?).map (·.computingUnits) =
        (this.processors[i]?).map fun p =>
          p.computingUnits - requestedAt this.kinds requested i
  totals :
    ∀ type,
      after.totalComputingUnits type + unitsOfType type taken =
        this.totalComputingUnits type
  handedOut : List.Forall₂ (HandsOut this.kinds) requested taken

/-- The effect of giving back what was released to the processors. -/
structure GivenBack
    (released : List Processor)
    (after : MethodResourceDescription) : Prop where
  kinds : after.kinds = this.kinds
  memorySize : after.memorySize = this.memorySize
  units :
    ∀ selected,
      unitsWhere selected after.processors =
        unitsWhere selected this.processors +
          requestedWhere this.kinds selected released

section Loops

variable {this reduced : MethodResourceDescription}

theorem countUnits_total
    (this : MethodResourceDescription)
    (ofType : Option String)
    (cus : Int)
    (type : ProcessorType) :
    (this.countUnits ofType cus).totalComputingUnits type =
      this.totalComputingUnits type +
        if processorType ofType = type then cus else 0 := by
  by_cases same : type = processorType ofType
  · subst same
    simp [countUnits]
  · simp [countUnits, same, Ne.symm same]

theorem foldl_addProcessor (taken : List Processor) :
    (taken.foldl addProcessor reduced).processors =
        reduced.processors ++ taken ∧
      (taken.foldl addProcessor reduced).memorySize = reduced.memorySize := by
  induction taken generalizing reduced with
  | nil => simp
  | cons p rest hypothesis =>
      rcases @hypothesis (reduced.addProcessor p) with
        ⟨processors, memorySize⟩
      rw [foldl_cons]
      refine ⟨processors.trans ?_, memorySize⟩
      change (reduced.processors ++ [p]) ++ rest = _
      rw [append_assoc, singleton_append]

theorem reduceProcessors_spec
    {requested : List Processor}
    (served : AllServed this.kinds requested) :
    ∃ after taken,
      reduceProcessors requested this reduced =
          (after, some (taken.foldl addProcessor reduced)) ∧
        Taken this requested taken after ∧
        after.memorySize = this.memorySize ∧
        after.memoryType = this.memoryType := by
  induction requested generalizing this reduced with
  | nil =>
      refine ⟨this, [], rfl, ⟨rfl, ?_, ?_, ?_, .nil⟩, rfl, rfl⟩
      · simp [unitsWhere]
      · simp [requestedAt]
      · simp [unitsOfType, unitsWhere]
  | cons p rest hypothesis =>
      rcases Option.isSome_iff_exists.mp (served p mem_cons_self) with
        ⟨serving, servingEq⟩
      rcases reduceProcessor_spec servingEq with
        ⟨processors, reducedEq, sameKinds, units, positions⟩
      let between :=
        { this with processors := processors }.countUnits serving.type
          (-p.computingUnits)
      have betweenKinds : between.kinds = this.kinds := sameKinds
      have restServed : AllServed between.kinds rest := by
        rw [betweenKinds]
        exact fun request member => served request (mem_cons_of_mem p member)
      rcases hypothesis restServed with
        ⟨after, taken, restEq, effect, sameMemory⟩
      refine ⟨after, ⟨serving, p.computingUnits⟩ :: taken, ?_, ?_, sameMemory⟩
      · rw [reduceProcessors, reducedEq]
        exact restEq
      constructor
      case kinds => exact effect.kinds.trans betweenKinds
      case units =>
        intro selected
        rw [unitsWhere_cons, ← units selected]
        have restUnits := effect.units selected
        change _ = unitsWhere selected processors at restUnits
        rw [← restUnits]
        ring
      case positions =>
        intro i
        have restPositions := effect.positions i
        change _ = (processors[i]?).map _ at restPositions
        rw [restPositions, betweenKinds, requestedAt_cons]
        have atPosition := positions i
        cases before : this.processors[i]? with
        | none =>
            rw [before] at atPosition
            have none : processors[i]? = none := by simpa using atPosition
            simp [none]
        | some pThis =>
            rw [before] at atPosition
            rcases Option.map_eq_some_iff.mp atPosition with
              ⟨pAfter, pAfterEq, unitsEq⟩
            by_cases here : servingPosition this.kinds p.kind = some i
            · have unitsHere :
                  pAfter.computingUnits =
                    pThis.computingUnits - p.computingUnits :=
                unitsEq.trans (congrArg _ (if_pos here))
              simp only [pAfterEq, Option.map_some, unitsHere, if_pos here,
                Option.some.injEq]
              ring
            · have unitsHere :
                  pAfter.computingUnits = pThis.computingUnits - 0 :=
                unitsEq.trans (congrArg _ (if_neg here))
              simp only [pAfterEq, Option.map_some, unitsHere, if_neg here,
                Option.some.injEq]
              ring
      case totals =>
        intro type
        have restTotals := effect.totals type
        rw [countUnits_total] at restTotals
        simp only [unitsOfType, unitsWhere_cons] at restTotals ⊢
        by_cases ofType : processorType serving.type = type
        · simp only [ofType, if_true, decide_true] at restTotals ⊢
          linarith
        · simp only [ofType, if_false, decide_false,
            Bool.false_eq_true] at restTotals ⊢
          linarith
      case handedOut =>
        refine .cons ⟨servingEq, rfl⟩ ?_
        have restHandedOut := effect.handedOut
        rwa [betweenKinds] at restHandedOut

theorem increase_spec
    {released : List Processor}
    (served : AllServed this.kinds released) :
    GivenBack this released (released.foldl increaseBy this) := by
  induction released generalizing this with
  | nil =>
      refine ⟨rfl, rfl, ?_⟩
      simp [requestedWhere]
  | cons p rest hypothesis =>
      rcases Option.isSome_iff_exists.mp (served p mem_cons_self) with
        ⟨serving, servingEq⟩
      rcases increaseProcessor_spec servingEq with
        ⟨processors, increased, sameKinds, units⟩
      have between :
          this.increaseBy p =
            { this with processors := processors }.countUnits serving.type
              p.computingUnits := by
        rw [increaseBy, increased]
      have betweenKinds : (this.increaseBy p).kinds = this.kinds := by
        rw [between]
        exact sameKinds
      have restServed : AllServed (this.increaseBy p).kinds rest := by
        rw [betweenKinds]
        exact fun request member => served request (mem_cons_of_mem p member)
      have effect := hypothesis restServed
      rw [foldl_cons]
      constructor
      · exact effect.kinds.trans betweenKinds
      · rw [effect.memorySize, between]
        rfl
      · intro selected
        rw [effect.units selected, betweenKinds,
          requestedWhere_cons servingEq, ← Int.add_assoc, ← units selected,
          between]
        rfl

end Loops

end MethodResourceDescription

theorem checkProcessorCompatibility_refl (kind : ProcessorKind) :
    checkProcessorCompatibility kind kind := by
  have inclusion (value : Option ℚ) : checkInclusion value value := by
    cases value with
    | none => rfl
    | some size => simp [checkInclusion]
  simp [checkProcessorCompatibility, checkCompatibility, inclusion]

/-- A processor can always be given back to one like it. -/
theorem allServed_of_known
    {kinds : List ProcessorKind}
    {requested : List Processor}
    (known : ∀ p ∈ requested, p.kind ∈ kinds) :
    AllServed kinds requested := by
  intro p member
  exact find?_isSome.mpr
    ⟨p.kind, known p member, checkProcessorCompatibility_refl p.kind⟩

/-!
## Reserving and giving back
-/

namespace MethodResourceDescription

/-- The effect of a reservation. -/
structure Reserved (this rd2 after reduced : MethodResourceDescription) :
    Prop where
  processors : Taken this rd2.processors reduced.processors after
  memorySize :
    after.memorySize =
      match this.memorySize, rd2.memorySize with
      | some size, some required => some (size - required)
      | size, _ => size
  memoryType : after.memoryType = this.memoryType
  reducedMemory :
    reduced.memorySize =
      if this.memorySize.isSome then rd2.memorySize.filter (0 < ·) else none

variable {this rd2 after reduced : MethodResourceDescription}

theorem allServed_of_containsDynamic (contains : this.containsDynamic rd2) :
    AllServed this.kinds rd2.processors := by
  intro p member
  simp only [containsDynamic, checkProcessors, Bool.and_eq_true,
    all_eq_true, any_eq_true] at contains
  rcases contains.1 p member with ⟨pThis, pThisMember, processorContains⟩
  simp only [checkProcessorContains, Bool.and_eq_true] at processorContains
  exact find?_isSome.mpr
    ⟨pThis.kind, mem_map_of_mem pThisMember, processorContains.1⟩

@[simp]
theorem setMemoryType_processors (memoryType : Option String) :
    (this.setMemoryType memoryType).processors = this.processors := by
  unfold setMemoryType
  split <;> rfl

@[simp]
theorem setMemoryType_memorySize (memoryType : Option String) :
    (this.setMemoryType memoryType).memorySize = this.memorySize := by
  unfold setMemoryType
  split <;> rfl

@[simp]
theorem setMemorySize_processors (memorySize : ℚ) :
    (this.setMemorySize memorySize).processors = this.processors := by
  unfold setMemorySize
  split <;> rfl

theorem setMemorySize_memorySize
    (unassigned : this.memorySize = none)
    (memorySize : ℚ) :
    (this.setMemorySize memorySize).memorySize =
      (some memorySize).filter (0 < ·) := by
  unfold setMemorySize
  by_cases positive : 0 < memorySize
  · simp [Option.filter, positive]
  · simp [Option.filter, positive, unassigned]

/-- What is compatible and has the memory can be taken, fitting or not. -/
theorem reduceDynamic_of_served
    (served : AllServed this.kinds rd2.processors)
    (memory : this.checkMemory rd2) :
    ∃ after reduced,
      this.reduceDynamic rd2 = (after, some reduced) ∧
        Reserved this rd2 after reduced := by
  rcases @reduceProcessors_spec this empty rd2.processors served with
    ⟨between, taken, reducedEq, effect, memorySize, memoryType⟩
  rcases @foldl_addProcessor empty taken with ⟨processors, emptyMemory⟩
  have takenEq : (taken.foldl addProcessor empty).processors = taken := processors
  have noMemory : (taken.foldl addProcessor empty).memorySize = none := emptyMemory
  have memory : between.checkMemory rd2 := by
    rw [checkMemory, memorySize, memoryType]
    exact memory
  rw [reduceDynamic, reducedEq]
  simp only [memory, if_true]
  cases available : this.memorySize with
  | none =>
      rw [memorySize, available]
      refine ⟨_, _, rfl, ?_, ?_, memoryType, ?_⟩
      · simpa only [setMemoryType_processors, takenEq] using effect
      · simp [memorySize, available]
      · simp [noMemory, available]
  | some size =>
      rw [memorySize, available]
      cases required : rd2.memorySize with
      | none =>
          refine ⟨_, _, rfl, ?_, ?_, memoryType, ?_⟩
          · simpa only [setMemoryType_processors, takenEq] using effect
          · simp [memorySize, available, required]
          · simp [noMemory, required]
      | some requiredSize =>
          refine ⟨_, _, rfl, ?_, ?_, memoryType, ?_⟩
          · simp only [setMemorySize_processors, setMemoryType_processors,
              takenEq]
            exact ⟨effect.kinds, effect.units, effect.positions, effect.totals,
              effect.handedOut⟩
          · simp [available, required]
          · rw [setMemorySize_memorySize (by simp [noMemory])]
            simp [available, required]

variable (contains : this.containsDynamic rd2)

include contains

theorem checkMemory_of_containsDynamic :
    this.checkMemory rd2 := by
  rw [containsDynamic, Bool.and_eq_true] at contains
  exact contains.2

/-- What the check accepts can be reserved. -/
theorem reduceDynamic_spec :
    ∃ after reduced,
      this.reduceDynamic rd2 = (after, some reduced) ∧
        Reserved this rd2 after reduced :=
  reduceDynamic_of_served (allServed_of_containsDynamic contains)
    (checkMemory_of_containsDynamic contains)

end MethodResourceDescription

end DistributedRdf.Scheduling
