import DistributedRdf.ResourceDescriptions
import Mathlib.Algebra.Order.BigOperators.Group.List

namespace DistributedRdf.Scheduling.MethodResourceDescription

open List Option

/-!
# The check and the reservation

The check looks for room for each requirement by itself.  The reservation takes
every requirement from the first processor that is compatible with it.
-/

structure NonNegative (this : MethodResourceDescription) : Prop where
  processors : ∀ p ∈ this.processors, 0 ≤ p.computingUnits
  memorySize : ∀ size, this.memorySize = some size → 0 ≤ size
  totals : ∀ type, 0 ≤ this.totalComputingUnits type

/-- The counters cover the processors that they count. -/
def TotalsCover (this : MethodResourceDescription) : Prop :=
  ∀ type, unitsOfType type this.processors ≤ this.totalComputingUnits type

/-- A description of resources as it is built and used. -/
structure Sound (this : MethodResourceDescription) : Prop where
  memorySize : ∀ size, this.memorySize = some size → 0 ≤ size
  totals : this.TotalsCover

/--
Every requirement is met by a compatible processor, to the unit.  Memory that is
not positive is returned as unassigned.
-/
structure ReturnsAsked (this rd2 reduced : MethodResourceDescription) :
    Prop where
  processors :
    List.Forall₂
      (fun asked taken =>
        checkProcessorCompatibility taken.kind asked.kind ∧
          taken.computingUnits = asked.computingUnits)
      rd2.processors reduced.processors
  memorySize :
    reduced.memorySize =
      if this.memorySize.isSome then rd2.memorySize.filter (0 < ·) else none

/-- What the check accepts is reserved, and nothing is over-subscribed. -/
def ReservationAgrees (this rd2 : MethodResourceDescription) : Prop :=
  this.containsDynamic rd2 →
    ∃ after reduced,
      this.reduceDynamic rd2 = (after, some reduced) ∧
        ReturnsAsked this rd2 reduced ∧ after.NonNegative

/--
The requirements that share their first compatible processor ask for no more
than it has.
-/
def FirstCompatibleSuffice (this rd2 : MethodResourceDescription) : Prop :=
  ∀ (i : Nat) (p : Processor), this.processors[i]? = some p →
    requestedAt this.kinds rd2.processors i ≤ p.computingUnits

theorem unitsWhere_nonneg
    {processors : List Processor}
    (nonNegative : ∀ p ∈ processors, 0 ≤ p.computingUnits)
    (selected : ProcessorKind → Bool) :
    0 ≤ unitsWhere selected processors := by
  apply sum_nonneg
  intro units member
  rcases mem_map.mp member with ⟨p, selectedMember, rfl⟩
  exact nonNegative p (mem_filter.mp selectedMember).1

/-- Adding a processor to sound resources keeps them sound. -/
theorem totalsCover_addProcessor
    {this : MethodResourceDescription}
    (cover : this.TotalsCover)
    (p : Processor) :
    (this.addProcessor p).TotalsCover := by
  intro type
  have before := cover type
  rw [addProcessor, countUnits_total]
  change unitsOfType type (this.processors ++ [p]) ≤
    this.totalComputingUnits type + _
  simp only [unitsOfType, unitsWhere, filter_append, map_append,
    sum_append] at before ⊢
  by_cases ofType : processorType p.kind.type = type
  · by_cases positive : p.computingUnits > 0
    · simp only [ofType, positive, filter_cons, filter_nil,
        decide_true, if_true, map_cons, map_nil, sum_cons,
        sum_nil]
      linarith
    · simp only [ofType, positive, filter_cons, filter_nil,
        decide_true, if_true, if_false, map_cons, map_nil,
        sum_cons, sum_nil]
      linarith
  · simpa [ofType] using before

variable {this rd2 after reduced : MethodResourceDescription}

section

variable (reserved : Reserved this rd2 after reduced)

include reserved

theorem Reserved.totalsCover
    (cover : this.TotalsCover) :
    after.TotalsCover := by
  intro type
  have before := cover type
  have units :=
    reserved.processors.units fun kind => processorType kind.type = type
  have totals := reserved.processors.totals type
  simp only [unitsOfType] at before totals ⊢
  linarith

omit reserved in
theorem compatible_of_servingKind
    {kinds : List ProcessorKind}
    {kind serving : ProcessorKind}
    (served : servingKind kinds kind = some serving) :
    checkProcessorCompatibility serving kind := by
  unfold servingKind at served
  simpa using find?_some served

theorem Reserved.returnsAsked :
    ReturnsAsked this rd2 reduced where
  processors :=
    reserved.processors.handedOut.imp fun _ _ handedOut =>
      ⟨compatible_of_servingKind handedOut.1, handedOut.2⟩
  memorySize := reserved.reducedMemory

/-- What is left in the processors is what was not requested of them. -/
theorem Reserved.processors_nonneg_iff :
    (∀ p ∈ after.processors, 0 ≤ p.computingUnits) ↔
      FirstCompatibleSuffice this rd2 := by
  constructor
  · intro nonNegative i p before
    have atPosition := reserved.processors.positions i
    rw [before, map_some] at atPosition
    rcases map_eq_some_iff.mp atPosition with ⟨left, leftEq, units⟩
    have leftNonNegative :=
      nonNegative left (mem_of_getElem? leftEq)
    linarith
  · intro suffice p member
    rcases mem_iff_getElem?.mp member with ⟨i, afterEq⟩
    have atPosition := reserved.processors.positions i
    rw [afterEq, map_some] at atPosition
    rcases map_eq_some_iff.mp atPosition.symm with
      ⟨pThis, before, units⟩
    have enough := suffice i pThis before
    linarith

theorem Reserved.memory_nonneg
    (contains : this.containsDynamic rd2)
    (sound : this.Sound)
    (size : ℚ)
    (left : after.memorySize = some size) :
    0 ≤ size := by
  have memory : checkInclusion this.memorySize rd2.memorySize := by
    simp only [containsDynamic, checkMemory, Bool.and_eq_true] at contains
    exact contains.2.1
  rw [reserved.memorySize] at left
  cases available : this.memorySize with
  | none =>
      rw [available] at left
      exact absurd left (by simp)
  | some before =>
      cases required : rd2.memorySize with
      | none =>
          rw [available, required] at left
          cases left
          exact sound.memorySize size available
      | some asked =>
          rw [available, required] at left memory
          have enough : asked ≤ before := by
            simpa [checkInclusion] using memory
          cases left
          linarith

end

variable (units : List Int)

/-- A processor of the default kind for each number of computing units. -/
def ofUnits : MethodResourceDescription :=
  (units.map (⟨.unassigned, ·⟩)).foldl addProcessor empty

theorem sound_ofUnits : (ofUnits units).Sound := by
  constructor
  · intro size assigned
    rw [ofUnits, (foldl_addProcessor _).2] at assigned
    exact absurd assigned (by simp [empty])
  · have built (processors : List Processor) (this : MethodResourceDescription)
        (cover : this.TotalsCover) :
        (processors.foldl addProcessor this).TotalsCover := by
      induction processors generalizing this with
      | nil => exact cover
      | cons p rest hypothesis =>
          exact hypothesis _ (totalsCover_addProcessor cover p)
    apply built
    intro type
    exact Int.le_refl 0

end DistributedRdf.Scheduling.MethodResourceDescription
