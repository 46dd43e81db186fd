import DistributedRdf.CloudReductions
import DistributedRdf.FailedReservations
import Mathlib.Algebra.BigOperators.Intervals
import Mathlib.Tactic.Abel

namespace DistributedRdf.Scheduling

open List Option ProcessorKind

/-!
# Releases of reservations

A reservation hands out copies of the processors that it took units from, and a
release looks for the first processor that is compatible with each copy.
-/

theorem increaseProcessor_positions
    {p : Processor}
    {processors after : List Processor}
    {serving : ProcessorKind}
    (increased : increaseProcessor p processors = some (after, serving))
    (i : Nat) :
    (after[i]?).map (·.computingUnits) =
      (processors[i]?).map fun pThis =>
        pThis.computingUnits +
          if servingPosition (processors.map (·.kind)) p.kind = some i then
            p.computingUnits
          else 0 := by
  induction processors generalizing after i with
  | nil => exact nomatch increased
  | cons first rest hypothesis =>
      rw [increaseProcessor] at increased
      split at increased
      case isTrue compatible =>
        cases increased
        cases i with
        | zero | succ _ => simp [servingPosition, findIdx?_cons, compatible]
      case isFalse incompatible =>
        obtain ⟨⟨restAfter, _⟩, restIncreased, same⟩ :=
          map_eq_some_iff.mp increased
        cases same
        cases i with
        | zero => simp [servingPosition, findIdx?_cons, incompatible]
        | succ i =>
            have later := hypothesis restIncreased i
            simp only [servingPosition] at later
            simp [servingPosition, findIdx?_cons, incompatible, later]

namespace MethodResourceDescription

variable
  (this : MethodResourceDescription)
  (released : List Processor)

/-- The effect of a release, processor by processor -/
structure Released
    (after : MethodResourceDescription) : Prop where
  kinds : after.kinds = this.kinds
  memoryType : after.memoryType = this.memoryType
  positions :
    ∀ i : Nat,
      (after.processors[i]?).map (·.computingUnits) =
        (this.processors[i]?).map fun p =>
          p.computingUnits + requestedAt this.kinds released i
  totals :
    ∀ type,
      after.totalComputingUnits type =
        this.totalComputingUnits type +
          requestedWhere this.kinds
            (fun kind => processorType kind.type = type) released

variable
  {this}
  {released}

theorem foldl_increaseBy_released
    (served : AllServed this.kinds released) :
    Released this released (released.foldl increaseBy this) := by
  induction released generalizing this with
  | nil =>
      refine ⟨rfl, rfl, fun i => ?_, fun type => ?_⟩
      · simp [requestedAt]
      · exact (Int.add_zero _).symm
  | cons p rest hypothesis =>
      obtain ⟨servedFirst, servedRest⟩ := forall_mem_cons.mp served
      obtain ⟨serving, servingEq⟩ := isSome_iff_exists.mp servedFirst
      obtain ⟨processors, increased, sameKinds, -⟩ :=
        increaseProcessor_spec servingEq
      have between :
          this.increaseBy p =
            { this with processors := processors }.countUnits serving.type
              p.computingUnits := by
        rw [increaseBy, increased]
      have betweenKinds : (this.increaseBy p).kinds = this.kinds := by
        rw [between]
        exact sameKinds
      have effect := hypothesis (betweenKinds.symm ▸ servedRest)
      rw [foldl_cons]
      constructor
      case kinds => exact effect.kinds.trans betweenKinds
      case memoryType =>
        rw [effect.memoryType, between]
        rfl
      case positions =>
        intro i
        have first := increaseProcessor_positions increased i
        have same : (this.increaseBy p).processors = processors := by
          rw [between]
          rfl
        rw [effect.positions i, betweenKinds, same, requestedAt_cons]
        cases before : this.processors[i]? with
        | none =>
            rw [before] at first
            rw [map_eq_none_iff.mp first]
            rfl
        | some pThis =>
            rw [before] at first
            obtain ⟨pAfter, pAfterEq, units⟩ := map_eq_some_iff.mp first
            rw [pAfterEq]
            change some (pAfter.computingUnits + _) = some (_ + (_ + _))
            rw [units, Int.add_assoc]
            rfl
      case totals =>
        intro type
        rw [effect.totals type, between, countUnits_total]
        have sameKinds :
            (({ this with processors := processors }.countUnits serving.type
              p.computingUnits).kinds) = this.kinds :=
          sameKinds
        rw [sameKinds, requestedWhere_cons servingEq, Int.add_assoc]
        congr 2
        simp

/-!
## What a release gives back
-/

variable (this)

/-- The computing units of the processor at a position -/
def unitsAt (position : Nat) : Int :=
  ((this.processors[position]?).map (·.computingUnits)).getD 0

/-- A reservation, with the worker's resources before and after it -/
structure Reservation where
  asked : MethodResourceDescription
  before : MethodResourceDescription
  after : MethodResourceDescription
  reduced : MethodResourceDescription

/-- Releasing a reservation gives back exactly what it took. -/
structure GivesBack
    (reservation : Reservation) : Prop where
  kinds : (this.increaseDynamic reservation.reduced).kinds = this.kinds
  units :
    ∀ position,
      (this.increaseDynamic reservation.reduced).unitsAt position =
        this.unitsAt position +
          (reservation.before.unitsAt position -
            reservation.after.unitsAt position)
  totals :
    ∀ type,
      (this.increaseDynamic reservation.reduced).totalComputingUnits type =
        this.totalComputingUnits type +
          (reservation.before.totalComputingUnits type -
            reservation.after.totalComputingUnits type)
  assigned :
    (this.increaseDynamic reservation.reduced).memorySize.isSome =
      this.memorySize.isSome
  memorySize :
    (this.increaseDynamic reservation.reduced).memorySize.getD 0 =
      this.memorySize.getD 0 +
        (reservation.before.memorySize.getD 0 -
          reservation.after.memorySize.getD 0)
  memoryType :
    (this.increaseDynamic reservation.reduced).memoryType = this.memoryType

variable (kinds : List ProcessorKind)

/-- The first processor that is compatible with the one that serves a request -/
def returnPosition
    (kind : ProcessorKind) : Option Nat :=
  (servingKind kinds kind).bind (servingPosition kinds)

/-- What is given back to the processor at a position for some requests -/
def returnedAt
    (requested : List Processor)
    (position : Nat) : Int :=
  ((requested.filter fun p =>
    returnPosition kinds p.kind = some position).map (·.computingUnits)).sum

/--
Every processor gets as many units back for the requests as are taken from it,
and no negative memory is asked for where there is any.
-/
structure ReturnsToOwn (this rd2 : MethodResourceDescription) : Prop where
  units :
    ∀ i < this.processors.length,
      returnedAt this.kinds rd2.processors i =
        requestedAt this.kinds rd2.processors i
  memorySize : this.memorySize.isSome → ∀ size ∈ rd2.memorySize, 0 ≤ size

section OneReservation

variable
  {this : MethodResourceDescription}
  {kinds : List ProcessorKind}
  {requested taken : List Processor}

theorem requestedAt_handedOut
    (handedOut : List.Forall₂ (HandsOut kinds) requested taken)
    (position : Nat) :
    requestedAt kinds taken position = returnedAt kinds requested position := by
  induction handedOut with
  | nil => rfl
  | @cons p copy _ _ first later hypothesis =>
      have same :
          returnPosition kinds p.kind = servingPosition kinds copy.kind := by
        rw [returnPosition, first.1]
        rfl
      rw [requestedAt_cons, hypothesis, returnedAt, returnedAt,
        filter_cons, same, first.2]
      by_cases here : servingPosition kinds copy.kind = some position
      · simp [here]
      · simp [here]

/-- The units of some kinds, position by position -/
theorem unitsWhere_eq_sum
    (selected : ProcessorKind → Bool)
    (this : MethodResourceDescription) :
    unitsWhere selected this.processors =
      ∑ i ∈ Finset.range this.kinds.length,
        if (this.kinds[i]?).any selected then this.unitsAt i else 0 := by
  unfold kinds unitsAt
  induction this.processors with
  | nil => rfl
  | cons p rest hypothesis =>
      rw [unitsWhere_cons, hypothesis, map_cons, length_cons,
        Finset.sum_range_succ', Int.add_comm]
      rfl

variable
  {after : MethodResourceDescription}
  {position : Nat}

theorem Released.unitsAt
    {released : List Processor}
    (effect : Released this released after)
    (inRange : position < this.processors.length) :
    after.unitsAt position =
      this.unitsAt position + requestedAt this.kinds released position := by
  have atPosition := effect.positions position
  rw [List.getElem?_eq_getElem inRange] at atPosition
  unfold MethodResourceDescription.unitsAt
  rw [atPosition, List.getElem?_eq_getElem inRange]
  rfl

theorem Taken.unitsAt
    (effect : Taken this requested taken after)
    (inRange : position < this.processors.length) :
    this.unitsAt position - after.unitsAt position =
      requestedAt this.kinds requested position := by
  have atPosition := effect.positions position
  rw [List.getElem?_eq_getElem inRange] at atPosition
  unfold MethodResourceDescription.unitsAt
  rw [atPosition, List.getElem?_eq_getElem inRange]
  exact sub_sub_cancel _ _

theorem unitsAt_of_length_le
    (outOfRange : this.processors.length ≤ position) :
    this.unitsAt position = 0 := by
  rw [unitsAt, List.getElem?_eq_none outOfRange]
  rfl

variable {other : MethodResourceDescription}

theorem length_of_kinds
    (sameKinds : this.kinds = other.kinds) :
    this.processors.length = other.processors.length := by
  have same := congrArg length sameKinds
  rwa [kinds, kinds, length_map, length_map] at same

theorem handedOut_known
    (handedOut : List.Forall₂ (HandsOut kinds) requested taken) :
    ∀ p ∈ taken, p.kind ∈ kinds := by
  induction handedOut with
  | nil => exact fun _ isTaken => nomatch isTaken
  | cons first later hypothesis =>
      refine forall_mem_cons.mpr ⟨?_, hypothesis⟩
      exact mem_of_find?_eq_some first.1

variable {reservation : Reservation}

/-- The memory that is given back is the memory that was taken. -/
theorem memoryAsked_reduced_iff
    (reserved :
      Reserved reservation.before reservation.asked reservation.after
        reservation.reduced)
    (sameMemory :
      this.memorySize.isSome = reservation.before.memorySize.isSome) :
    this.memoryAsked reservation.reduced =
        reservation.before.memoryAsked reservation.asked ↔
      (reservation.before.memorySize.isSome →
        ∀ size ∈ reservation.asked.memorySize, 0 ≤ size) := by
  rw [memoryAsked, memoryAsked, reserved.reducedMemory, sameMemory]
  by_cases assigned : reservation.before.memorySize.isSome
  · simp only [assigned, if_true, true_implies]
    cases reservation.asked.memorySize with
    | none => simp
    | some size =>
        by_cases positive : 0 < size
        · simp [Option.filter, positive, positive.le]
        · have notPositive : size ≤ 0 := not_lt.mp positive
          simp [Option.filter, positive, notPositive.ge_iff_eq', eq_comm]
  · simp [assigned]

/-- The counters follow the units of the processors that they count. -/
theorem totals_of_units
    {before after reduced : MethodResourceDescription}
    (taken : Taken before requested reduced.processors after)
    (sameKinds : this.kinds = before.kinds)
    (served : AllServed this.kinds reduced.processors)
    (units :
      ∀ position,
        (this.increaseDynamic reduced).unitsAt position =
          this.unitsAt position +
            (before.unitsAt position - after.unitsAt position))
    (type : ProcessorType) :
    (this.increaseDynamic reduced).totalComputingUnits type =
      this.totalComputingUnits type +
        (before.totalComputingUnits type - after.totalComputingUnits type) := by
  have effect := foldl_increaseBy_released served
  have totalGiven :
      (this.increaseDynamic reduced).totalComputingUnits type =
        this.totalComputingUnits type + _ :=
    effect.totals type
  have unitsGiven :
      unitsOfType type (this.increaseDynamic reduced).processors =
        unitsOfType type this.processors + _ :=
    (increase_spec served).units _
  have totalTaken := taken.totals type
  have unitsTaken :
      unitsOfType type after.processors + unitsOfType type reduced.processors =
        unitsOfType type before.processors :=
    taken.units _
  have balance :
      unitsOfType type (this.increaseDynamic reduced).processors +
          unitsOfType type after.processors =
        unitsOfType type this.processors +
          unitsOfType type before.processors := by
    have increasedKinds : (this.increaseDynamic reduced).kinds = this.kinds :=
      effect.kinds
    simp only [unitsOfType, unitsWhere_eq_sum, increasedKinds, taken.kinds,
      sameKinds]
    rw [← Finset.sum_add_distrib, ← Finset.sum_add_distrib]
    refine Finset.sum_congr rfl fun i _ => ?_
    split
    · rw [units i]
      ring
    · rfl
  omega

theorem givesBack_iff
    (reserved :
      Reserved reservation.before reservation.asked reservation.after
        reservation.reduced)
    (sameKinds : this.kinds = reservation.before.kinds)
    (sameMemory :
      this.memorySize.isSome = reservation.before.memorySize.isSome) :
    GivesBack this reservation ↔
      ReturnsToOwn reservation.before reservation.asked := by
  have taken := reserved.processors
  have served : AllServed this.kinds reservation.reduced.processors := by
    rw [sameKinds]
    exact allServed_of_known (handedOut_known taken.handedOut)
  have effect := foldl_increaseBy_released served
  have sameLength := length_of_kinds sameKinds
  have afterLength := length_of_kinds taken.kinds
  have increasedLength :
      (this.increaseDynamic reservation.reduced).processors.length =
        this.processors.length :=
    length_of_kinds effect.kinds
  have increasedMemory := increaseDynamic_memory this reservation.reduced
  have reservedMemory := reserved.memory
  have unitsGiven (position : Nat) (inRange : position < this.processors.length) :
      (this.increaseDynamic reservation.reduced).unitsAt position =
        this.unitsAt position +
          returnedAt reservation.before.kinds reservation.asked.processors
            position := by
    rw [← requestedAt_handedOut taken.handedOut, ← sameKinds]
    exact effect.unitsAt inRange
  have unitsTaken
      (position : Nat)
      (inRange : position < this.processors.length) :
      reservation.before.unitsAt position - reservation.after.unitsAt position =
        requestedAt reservation.before.kinds reservation.asked.processors
          position :=
    taken.unitsAt (sameLength ▸ inRange)
  constructor
  · intro gives
    constructor
    case units =>
      intro i inRange
      rw [← sameLength] at inRange
      have units := gives.units i
      rw [unitsGiven i inRange, unitsTaken i inRange] at units
      omega
    case memorySize =>
      refine (memoryAsked_reduced_iff reserved sameMemory).mp ?_
      linarith [gives.memorySize, increasedMemory.2, reservedMemory.2]
  · intro returns
    have units (position : Nat) :
        (this.increaseDynamic reservation.reduced).unitsAt position =
          this.unitsAt position +
            (reservation.before.unitsAt position -
              reservation.after.unitsAt position) := by
      by_cases inRange : position < this.processors.length
      · rw [unitsGiven position inRange, unitsTaken position inRange,
          returns.units position (sameLength ▸ inRange)]
      · have outOfRange := not_lt.mp inRange
        rw [unitsAt_of_length_le (increasedLength.trans_le outOfRange),
          unitsAt_of_length_le outOfRange,
          unitsAt_of_length_le (sameLength.symm.trans_le outOfRange),
          unitsAt_of_length_le
            ((afterLength.trans sameLength.symm).trans_le outOfRange)]
        rfl
    constructor
    case kinds => exact effect.kinds
    case units => exact units
    case totals =>
      intro type
      exact totals_of_units reserved.processors sameKinds served units type
    case assigned => exact increasedMemory.1
    case memorySize =>
      have given :=
        (memoryAsked_reduced_iff reserved sameMemory).mpr returns.memorySize
      linarith [increasedMemory.2, reservedMemory.2]
    case memoryType => exact effect.memoryType

/-- The condition depends on nothing that reservations change. -/
theorem ReturnsToOwn.congr
    {other asked : MethodResourceDescription}
    (sameKinds : this.kinds = other.kinds)
    (sameMemory : this.memorySize.isSome = other.memorySize.isSome)
    (returns : ReturnsToOwn this asked) :
    ReturnsToOwn other asked := by
  constructor
  · rw [← sameKinds, ← length_of_kinds sameKinds]
    exact returns.units
  · rw [← sameMemory]
    exact returns.memorySize

theorem eq_of_units
    (sameKinds : this.kinds = other.kinds)
    (units : ∀ position, this.unitsAt position = other.unitsAt position) :
    this.processors = other.processors := by
  refine processors_ext sameKinds fun i => ?_
  have sameUnits := units i
  have sameLength := length_of_kinds sameKinds
  unfold unitsAt at sameUnits
  by_cases inRange : i < this.processors.length
  · rw [List.getElem?_eq_getElem inRange,
      List.getElem?_eq_getElem (sameLength ▸ inRange)] at sameUnits ⊢
    exact congrArg some sameUnits
  · have outOfRange := not_lt.mp inRange
    rw [List.getElem?_eq_none outOfRange,
      List.getElem?_eq_none (sameLength ▸ outOfRange)]

end OneReservation

end MethodResourceDescription

open Execution MethodResourceDescription

/-!
## Reservations and releases in any order
-/

/-- The resources of a worker and the reservations that are not released yet -/
structure ReservationHistory where
  worker : MethodResourceDescription
  outstanding : List Reservation

inductive ReservationEvent where
  | reserve (asked : MethodResourceDescription)
  /-- The reservation at a position among the outstanding ones is released. -/
  | release (reservation : Nat)

namespace ReservationHistory

/-- A reservation has to succeed, as it does after `hasAvailable`. -/
def Enabled (history : ReservationHistory) : ReservationEvent → Prop
  | .reserve asked => (history.worker.reduceDynamic asked).2.isSome
  | .release reservation => reservation < history.outstanding.length

def next (history : ReservationHistory) : ReservationEvent → ReservationHistory
  | .reserve asked =>
      match history.worker.reduceDynamic asked with
      | (after, some reduced) =>
          { worker := after
            outstanding :=
              history.outstanding ++ [⟨asked, history.worker, after, reduced⟩] }
      | (after, none) => { history with worker := after }
  | .release reservation =>
      match history.outstanding[reservation]? with
      | some reservation' =>
          { worker := history.worker.increaseDynamic reservation'.reduced
            outstanding := history.outstanding.eraseIdx reservation }
      | none => history

def system (start : MethodResourceDescription) :
    TransitionSystem ReservationHistory ReservationEvent where
  start := ⟨start, []⟩
  Enabled := Enabled
  next := next

/-- Releases give back what was taken, and in the end nothing is missing. -/
structure Undone
    (start : MethodResourceDescription)
    (history : ReservationHistory) : Prop where
  givesBack :
    ∀ reservation ∈ history.outstanding, GivesBack history.worker reservation
  restored : history.outstanding = [] → history.worker = start

/-- What all runs keep -/
structure Consistent
    (start : MethodResourceDescription)
    (history : ReservationHistory) : Prop where
  kinds : history.worker.kinds = start.kinds
  assigned : history.worker.memorySize.isSome = start.memorySize.isSome
  memoryType : history.worker.memoryType = start.memoryType
  reserved :
    ∀ reservation ∈ history.outstanding,
      Reserved reservation.before reservation.asked reservation.after
          reservation.reduced ∧
        reservation.before.kinds = start.kinds ∧
        reservation.before.memorySize.isSome = start.memorySize.isSome

variable
  {start : MethodResourceDescription}
  {history : ReservationHistory}

/-- A reservation that is made has the effect of a reservation. -/
theorem next_reserve
    {asked : MethodResourceDescription}
    (enabled : history.Enabled (.reserve asked)) :
    ∃ after reduced,
      history.next (.reserve asked) =
          ⟨after, history.outstanding ++ [⟨asked, history.worker, after, reduced⟩]⟩ ∧
        Reserved history.worker asked after reduced := by
  have valid :
      AllServed history.worker.kinds asked.processors ∧
        history.worker.checkMemory asked := by
    by_contra invalid
    have failed := reduceDynamic_eq_none_iff.mpr invalid
    rw [Enabled, failed] at enabled
    exact nomatch enabled
  obtain ⟨after, reduced, outcome, reserved⟩ :=
    reduceDynamic_of_served valid.1 valid.2
  refine ⟨after, reduced, ?_, reserved⟩
  rw [next, outcome]

theorem next_release
    {position : Nat}
    (enabled : history.Enabled (.release position)) :
    ∃ reservation,
      history.outstanding[position]? = some reservation ∧
        history.next (.release position) =
          ⟨history.worker.increaseDynamic reservation.reduced,
            history.outstanding.eraseIdx position⟩ := by
  have isOutstanding := List.getElem?_eq_getElem enabled
  refine ⟨_, isOutstanding, ?_⟩
  rw [next, isOutstanding]

variable {event : ReservationEvent}

theorem consistent_next
    (consistent : history.Consistent start)
    (enabled : history.Enabled event) :
    (history.next event).Consistent start := by
  cases event with
  | reserve asked =>
      obtain ⟨after, reduced, nextEq, reserved⟩ := next_reserve enabled
      have memory := reserved.memory
      rw [nextEq]
      constructor
      case kinds => exact reserved.processors.kinds.trans consistent.kinds
      case assigned => exact memory.1.trans consistent.assigned
      case memoryType => exact reserved.memoryType.trans consistent.memoryType
      case reserved =>
        intro reservation isOutstanding
        rcases mem_append.mp isOutstanding with earlier | isLast
        · exact consistent.reserved reservation earlier
        · rw [mem_singleton.mp isLast]
          exact ⟨reserved, consistent.kinds, consistent.assigned⟩
  | release position =>
      obtain ⟨reservation, isOutstanding, nextEq⟩ := next_release enabled
      obtain ⟨reserved, sameKinds, -⟩ :=
        consistent.reserved reservation (mem_of_getElem? isOutstanding)
      have known := handedOut_known reserved.processors.handedOut
      rw [sameKinds, ← consistent.kinds] at known
      have effect := foldl_increaseBy_released (allServed_of_known known)
      have memory :=
        increaseDynamic_memory history.worker reservation.reduced
      rw [nextEq]
      constructor
      case kinds => exact effect.kinds.trans consistent.kinds
      case assigned => exact memory.1.trans consistent.assigned
      case memoryType => exact effect.memoryType.trans consistent.memoryType
      case reserved =>
        intro other isOther
        exact consistent.reserved other (mem_of_mem_eraseIdx isOther)

theorem consistent_start : (system start).start.Consistent start where
  kinds := rfl
  assigned := rfl
  memoryType := rfl
  reserved _ isOutstanding := absurd isOutstanding not_mem_nil

variable {events : List ReservationEvent}

theorem consistent_of_run
    (run : Run (system start) anyStep events history) :
    history.Consistent start :=
  run.invariant consistent_start
    fun _ _ consistent enabled _ => consistent_next consistent enabled

/-- A reservation is given back exactly if it meets the condition. -/
theorem Consistent.givesBack_iff
    (consistent : history.Consistent start)
    {reservation : Reservation}
    (isOutstanding : reservation ∈ history.outstanding) :
    GivesBack history.worker reservation ↔
      ReturnsToOwn start reservation.asked := by
  obtain ⟨reserved, sameKinds, sameMemory⟩ :=
    consistent.reserved reservation isOutstanding
  have workerKinds := consistent.kinds.trans sameKinds.symm
  have workerMemory := consistent.assigned.trans sameMemory.symm
  rw [MethodResourceDescription.givesBack_iff reserved workerKinds workerMemory]
  constructor
  · exact ReturnsToOwn.congr sameKinds sameMemory
  · exact ReturnsToOwn.congr sameKinds.symm sameMemory.symm

/-!
## What is outstanding
-/

section Balance

variable
  {Amount : Type}
  [AddCommGroup Amount]
  (amount : MethodResourceDescription → Amount)

/-- What all outstanding reservations took of some amount -/
def taken (outstanding : List Reservation) : Amount :=
  (outstanding.map fun reservation =>
    amount reservation.before - amount reservation.after).sum

def Balances
    (start : MethodResourceDescription)
    (history : ReservationHistory) : Prop :=
  amount history.worker + taken amount history.outstanding = amount start

variable {amount}

theorem balances_reserve
    {asked : MethodResourceDescription}
    (enabled : history.Enabled (.reserve asked))
    (balances : Balances amount start history) :
    Balances amount start (history.next (.reserve asked)) := by
  obtain ⟨after, reduced, nextEq, -⟩ := next_reserve enabled
  rw [nextEq, Balances, taken, map_append, sum_append,
    map_singleton, sum_singleton]
  rw [Balances, taken] at balances
  rw [← balances]
  dsimp only
  abel

theorem balances_release
    {position : Nat}
    (enabled : history.Enabled (.release position))
    (givesBack :
      ∀ reservation ∈ history.outstanding,
        amount (history.worker.increaseDynamic reservation.reduced) =
          amount history.worker +
            (amount reservation.before - amount reservation.after))
    (balances : Balances amount start history) :
    Balances amount start (history.next (.release position)) := by
  obtain ⟨reservation, isOutstanding, nextEq⟩ := next_release enabled
  obtain ⟨inRange, isReservation⟩ := List.getElem?_eq_some_iff.mp isOutstanding
  have split := List.getElem_cons_eraseIdx_perm inRange
  rw [isReservation] at split
  have sum :
      taken amount (reservation :: history.outstanding.eraseIdx position) =
        taken amount history.outstanding :=
    (split.map _).sum_eq
  rw [taken, map_cons, sum_cons] at sum
  rw [nextEq, Balances,
    givesBack reservation (mem_of_getElem? isOutstanding)]
  rw [Balances, ← sum] at balances
  rw [← balances, taken, add_assoc]

end Balance

variable (start)

/-- What is missing in the worker is what the outstanding reservations took. -/
structure Balanced
    (history : ReservationHistory) : Prop where
  units : ∀ position, Balances (·.unitsAt position) start history
  totals : ∀ type, Balances (·.totalComputingUnits type) start history
  memorySize : Balances (·.memorySize.getD 0) start history

variable {start}

theorem balanced_next
    (givesBack :
      ∀ reservation ∈ history.outstanding, GivesBack history.worker reservation)
    (balanced : history.Balanced start)
    (enabled : history.Enabled event) :
    (history.next event).Balanced start := by
  cases event with
  | reserve asked =>
      exact ⟨fun position => balances_reserve enabled (balanced.units position),
        fun type => balances_reserve enabled (balanced.totals type),
        balances_reserve enabled balanced.memorySize⟩
  | release position =>
      constructor
      case units =>
        exact fun position =>
          balances_release enabled
            (fun reservation isOutstanding =>
              (givesBack reservation isOutstanding).units position)
            (balanced.units position)
      case totals =>
        exact fun type =>
          balances_release enabled
            (fun reservation isOutstanding =>
              (givesBack reservation isOutstanding).totals type)
            (balanced.totals type)
      case memorySize =>
        exact balances_release enabled
          (fun reservation isOutstanding =>
            (givesBack reservation isOutstanding).memorySize)
          balanced.memorySize

theorem outstanding_asked_of_run
    (run : Run (system start) anyStep events history) :
    ∀ reservation ∈ history.outstanding, .reserve reservation.asked ∈ events := by
  induction run with
  | start => exact fun _ isOutstanding => absurd isOutstanding not_mem_nil
  | @snoc events history event run enabled _ hypothesis =>
      intro reservation isOutstanding
      change reservation ∈ (history.next event).outstanding at isOutstanding
      cases event with
      | reserve asked =>
          obtain ⟨after, reduced, nextEq, -⟩ := next_reserve enabled
          rw [nextEq] at isOutstanding
          rcases mem_append.mp isOutstanding with earlier | isLast
          · exact mem_append_left _ (hypothesis _ earlier)
          · rw [mem_singleton.mp isLast]
            exact mem_append_right _ mem_cons_self
      | release position =>
          obtain ⟨released, -, nextEq⟩ := next_release enabled
          rw [nextEq] at isOutstanding
          exact mem_append_left _
            (hypothesis _ (mem_of_mem_eraseIdx isOutstanding))

theorem balanced_start : (system start).start.Balanced start :=
  ⟨fun _ => add_zero _, fun _ => add_zero _, add_zero _⟩

theorem balanced_of_run
    (run : Run (system start) anyStep events history)
    (returns : ∀ asked, .reserve asked ∈ events → ReturnsToOwn start asked) :
    history.Balanced start := by
  induction run with
  | start => exact balanced_start
  | snoc run enabled _ hypothesis =>
      have before :=
        hypothesis fun asked isReserved =>
          returns asked (mem_append_left _ isReserved)
      refine balanced_next (fun reservation isOutstanding => ?_) before enabled
      refine ((consistent_of_run run).givesBack_iff isOutstanding).mpr ?_
      exact returns _
        (mem_append_left _
          (outstanding_asked_of_run run reservation isOutstanding))

/-- A worker to which nothing is missing is as it was. -/
theorem Consistent.restored
    (consistent : history.Consistent start)
    (balanced : history.Balanced start)
    (noneOutstanding : history.outstanding = []) :
    history.worker = start := by
  have nothingTaken
      {Amount : Type}
      [AddCommGroup Amount]
      {amount : MethodResourceDescription → Amount}
      (balances : Balances amount start history) :
      amount history.worker = amount start := by
    rw [Balances, noneOutstanding] at balances
    exact (add_zero _).symm.trans balances
  have processors : history.worker.processors = start.processors :=
    eq_of_units consistent.kinds fun position =>
      nothingTaken (balanced.units position)
  have totals :
      history.worker.totalComputingUnits = start.totalComputingUnits :=
    funext fun type => nothingTaken (balanced.totals type)
  have size := nothingTaken balanced.memorySize
  have memorySize : history.worker.memorySize = start.memorySize := by
    have assigned := consistent.assigned
    cases before : start.memorySize with
    | none =>
        rw [before] at assigned
        exact not_isSome_iff_eq_none.mp (assigned ▸ Bool.false_ne_true)
    | some amount =>
        rw [before] at assigned size
        obtain ⟨left, leftEq⟩ := isSome_iff_exists.mp assigned
        rw [leftEq] at size ⊢
        exact congrArg some size
  have memoryType := consistent.memoryType
  cases same : history.worker
  cases start
  rw [same] at processors totals memorySize memoryType
  congr

instance (history : ReservationHistory) (event : ReservationEvent) :
    Decidable (history.Enabled event) :=
  match event with
  | .reserve _ => inferInstanceAs (Decidable (_ = true))
  | .release _ => inferInstanceAs (Decidable (_ < _))

instance (history : ReservationHistory) (event : ReservationEvent) :
    Decidable ((system start).Enabled history event) :=
  inferInstanceAs (Decidable (history.Enabled event))

theorem returnsToOwn_ofUnits
    {units : List Int}
    {rd2 : MethodResourceDescription}
    (returned :
      ∀ i < (ofUnits units).processors.length,
        returnedAt (ofUnits units).kinds rd2.processors i =
          requestedAt (ofUnits units).kinds rd2.processors i) :
    ReturnsToOwn (ofUnits units) rd2 := by
  refine ⟨returned, fun assigned => ?_⟩
  rw [ofUnits, (foldl_addProcessor _).2] at assigned
  exact absurd assigned Bool.false_ne_true

/-- A processor of a name and one that leaves the name open -/
def namedFirst : MethodResourceDescription :=
  [⟨{ unassigned with name := some "A" }, 4⟩,
    ⟨.unassigned, 2⟩].foldl addProcessor empty

def otherName : MethodResourceDescription :=
  empty.addProcessor ⟨{ unassigned with name := some "B" }, 1⟩

end ReservationHistory

end DistributedRdf.Scheduling
