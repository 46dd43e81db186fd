import DistributedRdf.ReservationCheck
import Mathlib.Data.List.TakeWhile

namespace DistributedRdf.Scheduling.MethodResourceDescription

open List Option

/-!
# Reservations that fail

A reservation takes from one processor after the other and gives up at the first
requirement that no processor is compatible with, or at the memory.
-/

/-- The requirements that are taken before the reservation gives up. -/
def servedBefore
    (kinds : List ProcessorKind)
    (requested : List Processor) : List Processor :=
  requested.takeWhile fun p => (servingKind kinds p.kind).isSome

/-- A reservation that returns nothing leaves everything as it was. -/
def FailureUnchanged (this rd2 : MethodResourceDescription) : Prop :=
  ∀ after, this.reduceDynamic rd2 = (after, none) → after = this

/--
The requirements that come before the failure ask together for no computing
units of any processor.
-/
def NothingTakenBefore (this rd2 : MethodResourceDescription) : Prop :=
  ∀ i < this.processors.length,
    requestedAt this.kinds (servedBefore this.kinds rd2.processors) i = 0

variable {this rd2 after reduced : MethodResourceDescription}

theorem reduceProcessors_append
    (first later : List Processor)
    (this reduced : MethodResourceDescription) :
    reduceProcessors (first ++ later) this reduced =
      match reduceProcessors first this reduced with
      | (between, none) => (between, none)
      | (between, some reduced) => reduceProcessors later between reduced := by
  induction first generalizing this reduced with
  | nil => rfl
  | cons p rest hypothesis =>
      rw [cons_append, reduceProcessors, reduceProcessors]
      cases reduceProcessor p this.processors with
      | none => rfl
      | some outcome => exact hypothesis _ _

theorem reduceProcessor_eq_none
    {p : Processor}
    {processors : List Processor}
    (unserved : servingKind (processors.map (·.kind)) p.kind = none) :
    reduceProcessor p processors = none := by
  induction processors with
  | nil => rfl
  | cons pThis rest hypothesis =>
      rw [map_cons, servingKind_cons] at unserved
      rw [reduceProcessor]
      split
      case isTrue compatible =>
        rw [if_pos compatible] at unserved
        exact absurd unserved (some_ne_none _)
      case isFalse incompatible =>
        rw [if_neg incompatible] at unserved
        rw [hypothesis unserved]
        rfl

theorem allServed_servedBefore
    (kinds : List ProcessorKind)
    (requested : List Processor) :
    AllServed kinds (servedBefore kinds requested) := by
  intro p isServed
  rw [servedBefore] at isServed
  have served := mem_takeWhile_imp isServed
  exact served

variable
  {kinds : List ProcessorKind}
  {requested : List Processor}

theorem servedBefore_of_allServed
    (served : AllServed kinds requested) :
    servedBefore kinds requested = requested :=
  takeWhile_eq_self_iff.mpr served

/-- The requirement at which the loop gives up is the first unserved one. -/
theorem exists_unserved
    (notServed : ¬ AllServed kinds requested) :
    ∃ p rest,
      requested = servedBefore kinds requested ++ p :: rest ∧
        servingKind kinds p.kind = none := by
  induction requested with
  | nil => exact absurd (fun _ isRequested => nomatch isRequested) notServed
  | cons first rest hypothesis =>
      rw [servedBefore, takeWhile_cons]
      cases served : servingKind kinds first.kind with
      | none => exact ⟨first, rest, rfl, served⟩
      | some serving =>
          have restNotServed : ¬ AllServed kinds rest := by
            intro restServed
            refine notServed (forall_mem_cons.mpr ⟨?_, restServed⟩)
            exact isSome_of_eq_some served
          obtain ⟨p, later, split, unserved⟩ :=
            hypothesis restNotServed
          exact ⟨p, later, congrArg (first :: ·) split, unserved⟩

/-- What a reservation that gives up has taken. -/
theorem reduceDynamic_failed
    (invalid : ¬ (AllServed this.kinds rd2.processors ∧ this.checkMemory rd2)) :
    ∃ after taken,
      this.reduceDynamic rd2 = (after, none) ∧
        Taken this (servedBefore this.kinds rd2.processors) taken after ∧
        after.memorySize = this.memorySize ∧
        after.memoryType = this.memoryType := by
  obtain ⟨after, taken, outcome, effect, memorySize, memoryType⟩ :=
    @reduceProcessors_spec this empty _
      (allServed_servedBefore this.kinds rd2.processors)
  refine ⟨after, taken, ?_, effect, memorySize, memoryType⟩
  rw [reduceDynamic]
  by_cases served : AllServed this.kinds rd2.processors
  · rw [servedBefore_of_allServed served] at outcome
    have noMemory : ¬ after.checkMemory rd2 := by
      intro memory
      rw [checkMemory, memorySize, memoryType] at memory
      exact invalid ⟨served, memory⟩
    rw [outcome]
    exact if_neg noMemory
  · obtain ⟨p, rest, split, unserved⟩ := exists_unserved served
    rw [← effect.kinds] at unserved
    have gaveUp :
        reduceProcessors rd2.processors this empty = (after, none) := by
      rw [split, reduceProcessors_append, outcome]
      dsimp only
      rw [reduceProcessors, reduceProcessor_eq_none unserved]
    rw [gaveUp]

/-- A reservation returns nothing exactly if it is invalid. -/
theorem reduceDynamic_eq_none_iff :
    (this.reduceDynamic rd2).2 = none ↔
      ¬ (AllServed this.kinds rd2.processors ∧ this.checkMemory rd2) := by
  constructor
  · rintro failed ⟨served, memory⟩
    obtain ⟨after, reduced, outcome, -⟩ := reduceDynamic_of_served served memory
    rw [outcome] at failed
    exact nomatch failed
  · intro invalid
    obtain ⟨after, taken, outcome, -⟩ := reduceDynamic_failed invalid
    rw [outcome]

theorem processors_ext
    {processors others : List Processor}
    (kinds : processors.map (·.kind) = others.map (·.kind))
    (units :
      ∀ i : Nat,
        (processors[i]?).map (·.computingUnits) =
          (others[i]?).map (·.computingUnits)) :
    processors = others := by
  apply ext_getElem?
  intro i
  have sameKind : (processors[i]?).map (·.kind) = (others[i]?).map (·.kind) := by
    rw [← List.getElem?_map, kinds, List.getElem?_map]
  have sameUnits := units i
  cases left : processors[i]? with
  | none =>
      rw [left] at sameKind
      exact (map_eq_none_iff.mp sameKind.symm).symm
  | some p =>
      cases right : others[i]? with
      | none =>
          rw [left, right] at sameKind
          exact nomatch sameKind
      | some other =>
          rw [left, right] at sameKind sameUnits
          obtain ⟨kind, computingUnits⟩ := p
          cases some.inj sameKind
          cases some.inj sameUnits
          rfl

/-- If nothing is missing at any position, nothing is missing at all. -/
theorem Taken.eq_iff
    {requested taken : List Processor}
    (effect : Taken this requested taken after)
    (memorySize : after.memorySize = this.memorySize)
    (memoryType : after.memoryType = this.memoryType) :
    after = this ↔
      ∀ i < this.processors.length, requestedAt this.kinds requested i = 0 := by
  constructor
  · intro unchanged i inRange
    have atPosition := effect.positions i
    rw [unchanged, List.getElem?_eq_getElem inRange] at atPosition
    have same := some.inj atPosition
    dsimp only at same
    omega
  · intro nothing
    have processors : after.processors = this.processors := by
      refine processors_ext effect.kinds fun i => ?_
      rw [effect.positions i]
      cases atPosition : this.processors[i]? with
      | none => rfl
      | some p =>
          have inRange : i < this.processors.length :=
            (List.getElem?_eq_some_iff.mp atPosition).1
          rw [nothing i inRange]
          exact congrArg some (Int.sub_zero _)
    have totals : after.totalComputingUnits = this.totalComputingUnits := by
      funext type
      have total := effect.totals type
      have units := effect.units fun kind => processorType kind.type = type
      rw [processors] at units
      simp only [unitsOfType] at total
      omega
    cases after
    cases this
    congr

/--
A failed reservation changes nothing if and only if no computing units are
asked of any processor before it fails.
-/
theorem failureUnchanged_iff :
    FailureUnchanged this rd2 ↔
      (¬ (AllServed this.kinds rd2.processors ∧ this.checkMemory rd2) →
        NothingTakenBefore this rd2) := by
  constructor
  · intro unchanged invalid
    obtain ⟨after, taken, outcome, effect, memorySize, memoryType⟩ :=
      reduceDynamic_failed invalid
    exact (effect.eq_iff memorySize memoryType).mp (unchanged after outcome)
  · intro nothing after failed
    have invalid := reduceDynamic_eq_none_iff.mp (congrArg Prod.snd failed)
    obtain ⟨other, taken, outcome, effect, memorySize, memoryType⟩ :=
      reduceDynamic_failed invalid
    rw [failed] at outcome
    cases outcome
    exact (effect.eq_iff memorySize memoryType).mpr (nothing invalid)

/-- Three units of a CPU and one of a GPU, for which there is no processor -/
def withoutGPU : MethodResourceDescription :=
  (ofUnits [3]).addProcessor
    ⟨{ ProcessorKind.unassigned with type := some GPU_TYPE }, 1⟩

/-- The units of the CPU are taken and never given back. -/
theorem not_failureUnchanged_withoutGPU :
    ¬ FailureUnchanged (ofUnits [4]) withoutGPU := by
  intro unchanged
  have failed : ((ofUnits [4]).reduceDynamic withoutGPU).2 = none := by decide
  have same := unchanged _ (Prod.ext rfl failed)
  have left :
      ((ofUnits [4]).reduceDynamic withoutGPU).1.processors =
        (ofUnits [4]).processors :=
    congrArg processors same
  exact absurd left (by decide)

end DistributedRdf.Scheduling.MethodResourceDescription
