import DistributedRdf.CloudDescriptions
import DistributedRdf.CloudReductions
import DistributedRdf.SlotCounts

namespace DistributedRdf.Scheduling

open MethodResourceDescription

/-!
# Totals of computing units

A description keeps the computing units of the processors of each type in
counters of their own.  An added processor without computing units counts as
one, and all other changes count as what they are.
-/

/-- The features that are unassigned are taken over. -/
def ProcessorKind.fill (pthis pmr2 : ProcessorKind) : ProcessorKind where
  name := pthis.name.or pmr2.name
  architecture := pthis.architecture.or pmr2.architecture
  speed := pthis.speed.or pmr2.speed
  type := pthis.type
  internalMemory := pthis.internalMemory.or pmr2.internalMemory
  propName := pthis.propName.or pmr2.propName
  propValue := pthis.propValue.or pmr2.propValue

/--
Fills the first processor of the same type, as `lookForProcessorType` finds it,
and returns how much its computing units grow.
-/
def mergeProcessor (pmr2 : Processor) :
    List Processor → Option (List Processor × Int)
  | [] => none
  | pthis :: rest =>
      if pthis.kind.type = pmr2.kind.type then
        let newCus :=
          if pthis.computingUnits ≤ 1 then pmr2.computingUnits
          else pthis.computingUnits
        some
          (⟨pthis.kind.fill pmr2.kind, newCus⟩ :: rest,
            newCus - pthis.computingUnits)
      else
        (mergeProcessor pmr2 rest).map fun (processors, growth) =>
          (pthis :: processors, growth)

/-- The processors that are added when these are joined to some kinds. -/
def addedTo (kinds : List ProcessorKind) : List Processor → List Processor
  | [] => []
  | p :: rest =>
      if (servingKind kinds p.kind).isSome then
        addedTo kinds rest
      else
        p :: addedTo (kinds ++ [p.kind]) rest

def AllPositive (processors : List Processor) : Prop :=
  ∀ p ∈ processors, 0 < p.computingUnits
  deriving Decidable

theorem allPositive_nil : AllPositive [] :=
  fun _ isProcessor => absurd isProcessor List.not_mem_nil

namespace MethodResourceDescription

/-- One round of the loop of `mergeMultiConstraints` -/
def mergeBy
    (this : MethodResourceDescription)
    (pmr2 : Processor) : MethodResourceDescription :=
  match mergeProcessor pmr2 this.processors with
  | some (processors, growth) =>
      { this with processors := processors }.countUnits pmr2.kind.type growth
  | none => this.addProcessor pmr2

/-- Every counter is the sum of the processors of its type. -/
def TotalsExact (this : MethodResourceDescription) : Prop :=
  ∀ type, this.totalComputingUnits type = unitsOfType type this.processors

variable {this : MethodResourceDescription}

theorem TotalsExact.cover (totalsExact : this.TotalsExact) : this.TotalsCover :=
  fun type => (totalsExact type).ge

theorem unitsOfType_concat
    (type : ProcessorType)
    (processors : List Processor)
    (p : Processor) :
    unitsOfType type (processors ++ [p]) =
      unitsOfType type processors +
        if processorType p.kind.type = type then p.computingUnits else 0 := by
  by_cases ofType : processorType p.kind.type = type
  · simp [unitsOfType, unitsWhere, ofType]
  · simp [unitsOfType, unitsWhere, ofType]

/-- What is added is counted as it is exactly if it has computing units. -/
theorem totalsExact_addProcessor_iff
    (cover : this.TotalsCover)
    (p : Processor) :
    (this.addProcessor p).TotalsExact ↔
      this.TotalsExact ∧ 0 < p.computingUnits := by
  have total (type : ProcessorType) :
      (this.addProcessor p).totalComputingUnits type =
        this.totalComputingUnits type +
          if processorType p.kind.type = type then
            (if p.computingUnits > 0 then p.computingUnits else 1)
          else 0 :=
    countUnits_total _ _ _ _
  have units (type : ProcessorType) :
      unitsOfType type (this.addProcessor p).processors = _ :=
    unitsOfType_concat type this.processors p
  constructor
  · intro totalsExact
    have positive : 0 < p.computingUnits := by
      have ownType := totalsExact (processorType p.kind.type)
      have ownCover := cover (processorType p.kind.type)
      rw [total, units, if_pos rfl, if_pos rfl] at ownType
      by_contra notPositive
      rw [if_neg notPositive] at ownType
      omega
    refine ⟨fun type => ?_, positive⟩
    have ofType := totalsExact type
    rw [total, units, if_pos positive] at ofType
    omega
  · rintro ⟨totalsExact, positive⟩ type
    rw [total, units, if_pos positive, totalsExact type]

variable (added : List Processor)

/-- Adding processors changes nothing but them and the counters. -/
theorem foldl_addProcessor_eq
    (this : MethodResourceDescription) :
    added.foldl addProcessor this =
      { this with
        processors := this.processors ++ added
        totalComputingUnits :=
          (added.foldl addProcessor this).totalComputingUnits } := by
  induction added generalizing this with
  | nil =>
      rw [List.append_nil]
      rfl
  | cons p rest hypothesis =>
      rw [List.foldl_cons, hypothesis]
      simp [addProcessor, countUnits]

variable {added}

theorem totalsExact_foldl_addProcessor_iff
    (cover : this.TotalsCover) :
    (added.foldl addProcessor this).TotalsExact ↔
      this.TotalsExact ∧ AllPositive added := by
  induction added generalizing this with
  | nil => exact (and_iff_left allPositive_nil).symm
  | cons p rest hypothesis =>
      rw [List.foldl_cons,
        hypothesis (totalsCover_addProcessor cover p),
        totalsExact_addProcessor_iff cover, AllPositive, AllPositive,
        List.forall_mem_cons, and_assoc]

variable
  {processors : List Processor}
  {ofType : Option String}
  {growth : Int}

/-- What is merged into a processor changes both sides alike. -/
theorem totalsExact_update_iff
    (units :
      ∀ type,
        unitsOfType type processors =
          unitsOfType type this.processors +
            if processorType ofType = type then growth else 0) :
    ({ this with processors := processors }.countUnits ofType
        growth).TotalsExact ↔ this.TotalsExact := by
  have total (type : ProcessorType) :
      ({ this with processors := processors }.countUnits ofType
          growth).totalComputingUnits type =
        this.totalComputingUnits type +
          if processorType ofType = type then growth else 0 :=
    countUnits_total _ _ _ _
  constructor
  · intro totalsExact type
    have afterwards := totalsExact type
    rw [total] at afterwards
    have grown :
        unitsOfType type ({ this with processors := processors }.countUnits
          ofType growth).processors = _ :=
      units type
    rw [grown] at afterwards
    omega
  · intro totalsExact type
    rw [total, totalsExact type]
    exact (units type).symm

theorem totalsCover_update
    (units :
      ∀ type,
        unitsOfType type processors =
          unitsOfType type this.processors +
            if processorType ofType = type then growth else 0)
    (cover : this.TotalsCover) :
    ({ this with processors := processors }.countUnits ofType
        growth).TotalsCover := by
  intro type
  have before := cover type
  rw [countUnits_total]
  change unitsOfType type processors ≤ this.totalComputingUnits type + _
  rw [units type]
  omega

/-- Only the processors that are added can make a counter too great. -/
theorem totalsExact_foldl_increaseBy_iff
    {joined : List Processor}
    (cover : this.TotalsCover) :
    (joined.foldl increaseBy this).TotalsExact ↔
      this.TotalsExact ∧ AllPositive (addedTo this.kinds joined) := by
  induction joined generalizing this with
  | nil => exact (and_iff_left allPositive_nil).symm
  | cons p rest hypothesis =>
      rw [List.foldl_cons, addedTo]
      cases served : servingKind this.kinds p.kind with
      | none =>
          have unserved : increaseProcessor p this.processors = none :=
            increaseProcessor_eq_none served
          have added : this.increaseBy p = this.addProcessor p := by
            rw [increaseBy, unserved]
          have kinds : (this.addProcessor p).kinds = this.kinds ++ [p.kind] :=
            List.map_append
          rw [added, hypothesis (totalsCover_addProcessor cover p),
            totalsExact_addProcessor_iff cover, kinds, and_assoc,
            if_neg (by simp), AllPositive, AllPositive, List.forall_mem_cons]
      | some serving =>
          obtain ⟨processors, increased, sameKinds, units⟩ :=
            increaseProcessor_spec served
          have merged :
              this.increaseBy p =
                { this with processors := processors }.countUnits serving.type
                  p.computingUnits := by
            rw [increaseBy, increased]
          have kinds : (this.increaseBy p).kinds = this.kinds := by
            rw [merged]
            exact sameKinds
          have ofType (type : ProcessorType) :
              unitsOfType type processors =
                unitsOfType type this.processors +
                  if processorType serving.type = type then p.computingUnits
                  else 0 := by
            simpa [unitsOfType] using
              units fun kind => processorType kind.type = type
          have coverBetween : (this.increaseBy p).TotalsCover := by
            rw [merged]
            exact totalsCover_update ofType cover
          rw [hypothesis coverBetween, kinds, merged,
            totalsExact_update_iff ofType]
          rfl

variable {requested taken : List Processor}

theorem Taken.totalsExact_iff
    {after : MethodResourceDescription}
    (effect : Taken this requested taken after) :
    after.TotalsExact ↔ this.TotalsExact := by
  refine forall_congr' fun type => ?_
  have total := effect.totals type
  have units := effect.units fun kind => processorType kind.type = type
  simp only [unitsOfType] at total ⊢
  omega

/-- Whether it fails or not, a reduction changes both sides alike. -/
theorem totalsExact_reduceDynamic_iff
    (this rd2 : MethodResourceDescription) :
    (this.reduceDynamic rd2).1.TotalsExact ↔ this.TotalsExact := by
  by_cases reservable : Reservable this rd2
  · obtain ⟨after, reduced, outcome, reserved⟩ :=
      reduceDynamic_of_served reservable.1 reservable.2
    rw [outcome]
    exact reserved.processors.totalsExact_iff
  · obtain ⟨after, taken, outcome, effect, -⟩ := reduceDynamic_failed reservable
    rw [outcome]
    exact effect.totalsExact_iff

theorem totalsExact_congr
    {other : MethodResourceDescription}
    (totals : this.totalComputingUnits = other.totalComputingUnits)
    (processors : this.processors = other.processors) :
    this.TotalsExact ↔ other.TotalsExact := by
  rw [TotalsExact, TotalsExact, totals, processors]

@[simp]
theorem totalsExact_setMemoryType_iff (memoryType : Option String) :
    (this.setMemoryType memoryType).TotalsExact ↔ this.TotalsExact := by
  unfold setMemoryType
  split <;> rfl

@[simp]
theorem totalsExact_setMemorySize_iff (memorySize : ℚ) :
    (this.setMemorySize memorySize).TotalsExact ↔ this.TotalsExact := by
  unfold setMemorySize
  split <;> rfl

theorem totalsExact_empty : empty.TotalsExact :=
  fun _ => rfl

/-- What is handed out has the units that were asked for. -/
theorem allPositive_of_handedOut
    {kinds : List ProcessorKind}
    (handedOut : List.Forall₂ (HandsOut kinds) requested taken) :
    AllPositive taken ↔ AllPositive requested := by
  unfold AllPositive
  induction handedOut with
  | nil => rfl
  | cons first later hypothesis =>
      rw [List.forall_mem_cons, List.forall_mem_cons, hypothesis,
        first.2]

/-- The returned description counts the units that were asked for. -/
theorem totalsExact_reduced_iff
    {rd2 after reduced : MethodResourceDescription}
    (outcome : this.reduceDynamic rd2 = (after, some reduced)) :
    reduced.TotalsExact ↔ AllPositive rd2.processors := by
  have reservable : Reservable this rd2 := by
    by_contra notReservable
    have failed := reduceDynamic_eq_none_iff.mpr notReservable
    rw [outcome] at failed
    exact absurd failed (Option.some_ne_none _)
  obtain ⟨between, taken, reducedEq, effect, -⟩ :=
    @reduceProcessors_spec this empty rd2.processors reservable.1
  have counted :
      (taken.foldl addProcessor empty).TotalsExact ↔
        AllPositive rd2.processors := by
    rw [totalsExact_foldl_addProcessor_iff totalsExact_empty.cover,
      allPositive_of_handedOut effect.handedOut]
    exact and_iff_right totalsExact_empty
  rw [reduceDynamic, reducedEq] at outcome
  rw [← counted]
  dsimp only at outcome
  split at outcome
  case isFalse => simp at outcome
  case isTrue =>
    split at outcome
    case h_1 =>
      cases outcome
      simp
    case h_2 =>
      cases outcome
      simp

theorem mergeProcessor_spec
    {pmr2 : Processor}
    (found : ∃ p ∈ processors, p.kind.type = pmr2.kind.type) :
    ∃ after growth,
      mergeProcessor pmr2 processors = some (after, growth) ∧
        after.map (·.kind.type) = processors.map (·.kind.type) ∧
        ∀ type,
          unitsOfType type after =
            unitsOfType type processors +
              if processorType pmr2.kind.type = type then growth else 0 := by
  induction processors with
  | nil => simp at found
  | cons pthis rest hypothesis =>
      rw [mergeProcessor]
      by_cases sameType : pthis.kind.type = pmr2.kind.type
      · rw [if_pos sameType]
        refine ⟨_, _, rfl, rfl, fun type => ?_⟩
        simp only [unitsOfType, unitsWhere_cons, ProcessorKind.fill, sameType,
          decide_eq_true_eq]
        split <;> omega
      · have foundLater : ∃ p ∈ rest, p.kind.type = pmr2.kind.type := by
          obtain ⟨p, isProcessor, isType⟩ := found
          rcases List.mem_cons.mp isProcessor with isFirst | isLater
          · exact absurd (isFirst ▸ isType) sameType
          · exact ⟨p, isLater, isType⟩
        obtain ⟨after, growth, merged, types, units⟩ :=
          hypothesis foundLater
        rw [if_neg sameType, merged]
        refine ⟨pthis :: after, growth, rfl, ?_, fun type => ?_⟩
        · rw [List.map_cons, List.map_cons, types]
        · have later := units type
          simp only [unitsOfType, unitsWhere_cons] at later ⊢
          omega

/-- What is merged into processors of the same type is counted as it is. -/
theorem totalsExact_foldl_mergeBy_iff
    {merged : List Processor}
    (found :
      ∀ pmr2 ∈ merged, ∃ p ∈ this.processors, p.kind.type = pmr2.kind.type) :
    (merged.foldl mergeBy this).TotalsExact ↔ this.TotalsExact := by
  induction merged generalizing this with
  | nil => rfl
  | cons pmr2 rest hypothesis =>
      obtain ⟨foundFirst, foundRest⟩ := List.forall_mem_cons.mp found
      obtain ⟨processors, growth, mergedEq, types, units⟩ :=
        mergeProcessor_spec foundFirst
      have between :
          this.mergeBy pmr2 =
            { this with processors := processors }.countUnits pmr2.kind.type
              growth := by
        rw [mergeBy, mergedEq]
      have foundBetween :
          ∀ pmr2' ∈ rest, ∃ p ∈ (this.mergeBy pmr2).processors,
            p.kind.type = pmr2'.kind.type := by
        intro pmr2' isMerged
        obtain ⟨p, isProcessor, isType⟩ := foundRest pmr2' isMerged
        have isOld : p.kind.type ∈ this.processors.map (·.kind.type) :=
          List.mem_map_of_mem isProcessor
        rw [← types] at isOld
        obtain ⟨pNew, isNew, sameType⟩ := List.mem_map.mp isOld
        rw [between]
        exact ⟨pNew, isNew, sameType.trans isType⟩
      rw [List.foldl_cons, hypothesis foundBetween, between,
        totalsExact_update_iff units]

end MethodResourceDescription

end DistributedRdf.Scheduling

namespace DistributedRdf.Resources

open Execution Scheduling MethodResourceDescription

namespace CloudMethodResourceDescription

/-!
## The other operations on descriptions
-/

variable
  (features : CloudMethodResourceDescription)
  (added : List Processor)

/-- A description with the features that are given, but for its processors. -/
def withProcessors :
    CloudMethodResourceDescription :=
  { features with
    toMethodResourceDescription :=
      added.foldl addProcessor
        { features.toMethodResourceDescription with
          processors := []
          totalComputingUnits := fun _ => 0 } }

def copy (this : CloudMethodResourceDescription) :
    CloudMethodResourceDescription :=
  this.withProcessors this.processors

/-- `Math.min`, where an unassigned size is less than any other -/
def minSize : Option ℚ → Option ℚ → Option ℚ
  | some size, some other => some (min size other)
  | _, _ => none

/-- Nobody asks whether the reduction of the processors was valid. -/
def reduce (this mrd2 : CloudMethodResourceDescription) :
    CloudMethodResourceDescription where
  toMethodResourceDescription :=
    (this.toMethodResourceDescription.reduceDynamic
      mrd2.toMethodResourceDescription).1
  storageSize := minSize this.storageSize mrd2.storageSize
  storageType := takeName this.storageType mrd2.storageType mrd2.storageType
  operatingSystemType :=
    takeName this.operatingSystemType mrd2.operatingSystemType
      mrd2.operatingSystemType
  operatingSystemDistribution :=
    takeName this.operatingSystemDistribution mrd2.operatingSystemDistribution
      mrd2.operatingSystemDistribution
  operatingSystemVersion :=
    takeName this.operatingSystemVersion mrd2.operatingSystemVersion
      mrd2.memoryType
  appSoftware := mrd2.appSoftware.foldl List.erase this.appSoftware
  hostQueues := mrd2.hostQueues.foldl List.erase this.hostQueues

/-- An unassigned size is set to a positive one. -/
def takeSize (this other : Option ℚ) : Option ℚ :=
  this.or (other.filter (0 < ·))

def mergeMultiConstraints (this mr2 : CloudMethodResourceDescription) :
    CloudMethodResourceDescription where
  toMethodResourceDescription :=
    { mr2.processors.foldl mergeBy this.toMethodResourceDescription with
      memorySize := takeSize this.memorySize mr2.memorySize
      memoryType := takeName this.memoryType mr2.memoryType mr2.memoryType }
  storageSize := takeSize this.storageSize mr2.storageSize
  storageType := takeName this.storageType mr2.storageType mr2.storageType
  operatingSystemType :=
    takeName this.operatingSystemType mr2.operatingSystemType
      mr2.operatingSystemType
  operatingSystemDistribution :=
    takeName this.operatingSystemDistribution mr2.operatingSystemDistribution
      mr2.operatingSystemDistribution
  operatingSystemVersion :=
    takeName this.operatingSystemVersion mr2.operatingSystemVersion
      mr2.operatingSystemVersion
  appSoftware := addMissing this.appSoftware mr2.appSoftware
  hostQueues := addMissing this.hostQueues mr2.hostQueues

/-- A description of which only the part that tasks reserve is assigned -/
def ofDynamic (dynamic : MethodResourceDescription) :
    CloudMethodResourceDescription where
  toMethodResourceDescription := dynamic
  storageSize := none
  storageType := none
  operatingSystemType := none
  operatingSystemDistribution := none
  operatingSystemVersion := none
  appSoftware := []
  hostQueues := []

/-- Two descriptions that cannot be told apart -/
structure SameAnswers (this other : CloudMethodResourceDescription) : Prop where
  contains : ∀ rc2, this.contains rc2 = other.contains rc2
  containsDynamic :
    ∀ rc2,
      this.toMethodResourceDescription.containsDynamic rc2 =
        other.toMethodResourceDescription.containsDynamic rc2
  canHostSimultaneously :
    ∀ rc2,
      this.toMethodResourceDescription.canHostSimultaneously rc2 =
        other.toMethodResourceDescription.canHostSimultaneously rc2

variable {this : CloudMethodResourceDescription}

theorem totalsExact_withProcessors_iff :
    (features.withProcessors added).TotalsExact ↔ AllPositive added := by
  have none : TotalsExact
      { features.toMethodResourceDescription with
        processors := []
        totalComputingUnits := fun _ => 0 } :=
    fun _ => rfl
  exact (totalsExact_foldl_addProcessor_iff none.cover).trans
    (and_iff_right none)

theorem totalsExact_copy_iff :
    this.copy.TotalsExact ↔ AllPositive this.processors :=
  totalsExact_withProcessors_iff this this.processors

/-- A copy that counts what its processors have is the description again. -/
theorem copy_eq
    (totalsExact : this.TotalsExact)
    (allPositive : AllPositive this.processors) :
    this.copy = this := by
  have copyExact := totalsExact_copy_iff.mpr allPositive
  have added :=
    foldl_addProcessor_eq this.processors
      { this.toMethodResourceDescription with
        processors := []
        totalComputingUnits := fun _ => 0 }
  have sameProcessors : this.copy.processors = this.processors := by
    have addedProcessors := congrArg processors added
    exact addedProcessors
  have sameTotals : this.copy.totalComputingUnits = this.totalComputingUnits := by
    funext type
    rw [copyExact type, totalsExact type, sameProcessors]
  unfold copy withProcessors at sameTotals ⊢
  rw [added, sameTotals]
  rfl

variable (this)

theorem sameAnswers_refl :
    SameAnswers this this :=
  ⟨fun _ => rfl, fun _ => rfl, fun _ => rfl⟩

end CloudMethodResourceDescription

/-!
## Descriptions in any order of operations
-/

/-- The operations that take another description -/
inductive DescriptionOperation where
  | mergeMultiConstraints
  | increase
  | reduce
  | increaseDynamic
  | reduceDynamic
  deriving DecidableEq

namespace DescriptionOperation

/-- The description afterwards, and the one that is returned -/
def apply
    (this other : CloudMethodResourceDescription) :
    DescriptionOperation →
      CloudMethodResourceDescription × Option CloudMethodResourceDescription
  | .mergeMultiConstraints => (this.mergeMultiConstraints other, none)
  | .increase => (this.increase other, none)
  | .reduce => (this.reduce other, none)
  | .increaseDynamic =>
      ({ this with
          toMethodResourceDescription :=
            this.toMethodResourceDescription.increaseDynamic
              other.toMethodResourceDescription }, none)
  | .reduceDynamic =>
      let (after, reduced) :=
        this.toMethodResourceDescription.reduceDynamic
          other.toMethodResourceDescription
      ({ this with toMethodResourceDescription := after },
        reduced.map CloudMethodResourceDescription.ofDynamic)

/--
Merging finds a processor of each type: it would add the processors themselves,
which then belong to two descriptions.
-/
def SharesNothing
    (this other : CloudMethodResourceDescription) :
    DescriptionOperation → Prop
  | .mergeMultiConstraints =>
      ∀ pmr2 ∈ other.processors, ∃ p ∈ this.processors,
        p.kind.type = pmr2.kind.type
  | _ => True

/-- The processors that are added have computing units. -/
def AddsUnits
    (this other : CloudMethodResourceDescription) :
    DescriptionOperation → Prop
  | .mergeMultiConstraints | .reduce => True
  | .increase | .increaseDynamic =>
      AllPositive (addedTo this.kinds other.processors)
  | .reduceDynamic =>
      Reservable this.toMethodResourceDescription
          other.toMethodResourceDescription →
        AllPositive other.processors

variable {this other : CloudMethodResourceDescription}

theorem totalsExact_increaseDynamic_iff
    (totalsExact : this.TotalsExact) :
    (this.toMethodResourceDescription.increaseDynamic
        other.toMethodResourceDescription).TotalsExact ↔
      AllPositive (addedTo this.kinds other.processors) := by
  have joined :=
    @totalsExact_foldl_increaseBy_iff this.toMethodResourceDescription
      other.processors totalsExact.cover
  exact (totalsExact_congr rfl rfl).trans
    (joined.trans (and_iff_right totalsExact))

theorem forall_mem_none {Holds : CloudMethodResourceDescription → Prop} :
    ∀ returned ∈ (none : Option CloudMethodResourceDescription), Holds returned :=
  fun _ isReturned => nomatch isReturned

/-- An operation keeps the totals exactly if it adds computing units. -/
theorem totalsExact_apply_iff
    (operation : DescriptionOperation)
    (totalsExact : this.TotalsExact)
    (sharesNothing : operation.SharesNothing this other) :
    ((operation.apply this other).1.TotalsExact ∧
        ∀ returned ∈ (operation.apply this other).2, returned.TotalsExact) ↔
      operation.AddsUnits this other := by
  cases operation with
  | mergeMultiConstraints =>
      have merged :=
        @totalsExact_foldl_mergeBy_iff this.toMethodResourceDescription _
          sharesNothing
      refine iff_of_true ⟨?_, forall_mem_none⟩ trivial
      exact (totalsExact_congr rfl rfl).mp (merged.mpr totalsExact)
  | increase =>
      exact (and_iff_left forall_mem_none).trans (totalsExact_increaseDynamic_iff totalsExact)
  | reduce =>
      refine iff_of_true ⟨?_, forall_mem_none⟩ trivial
      exact (totalsExact_reduceDynamic_iff _ _).mpr totalsExact
  | increaseDynamic =>
      exact (and_iff_left forall_mem_none).trans (totalsExact_increaseDynamic_iff totalsExact)
  | reduceDynamic =>
      have reduced :
          (apply this other .reduceDynamic).1.TotalsExact :=
        (totalsExact_reduceDynamic_iff _ _).mpr totalsExact
      refine (and_iff_right reduced).trans ?_
      cases outcome :
          this.toMethodResourceDescription.reduceDynamic
            other.toMethodResourceDescription with
      | mk after reduced =>
          rw [apply, outcome, AddsUnits]
          cases reduced with
          | none =>
              refine iff_of_true forall_mem_none fun reservable => ?_
              exact absurd reservable
                (reduceDynamic_eq_none_iff.mp (congrArg Prod.snd outcome))
          | some reduced =>
              have reservable :
                  Reservable this.toMethodResourceDescription
                    other.toMethodResourceDescription := by
                by_contra notReservable
                have failed := reduceDynamic_eq_none_iff.mpr notReservable
                rw [outcome] at failed
                exact nomatch failed
              rw [forall_prop_of_true reservable,
                ← totalsExact_reduced_iff outcome]
              simp [CloudMethodResourceDescription.ofDynamic]

end DescriptionOperation

/-- All descriptions, and each that was copied with its copy -/
structure DescriptionStore where
  descriptions : List CloudMethodResourceDescription
  copies :
    List (CloudMethodResourceDescription × CloudMethodResourceDescription)

/-- Descriptions are numbers.  Constructors parse features and processors. -/
inductive DescriptionEvent where
  | construct
      (features : CloudMethodResourceDescription)
      (added : List Processor)
  | addProcessor (this : Nat) (p : Processor)
  | copy (this : Nat)
  | call (operation : DescriptionOperation) (this other : Nat)

namespace DescriptionStore

def Enabled (store : DescriptionStore) : DescriptionEvent → Prop
  | .construct _ _ => True
  | .addProcessor this _ => this < store.descriptions.length
  | .copy this => this < store.descriptions.length
  | .call operation this other =>
      this ≠ other ∧
        ∃ description ∈ store.descriptions[this]?,
          ∃ argument ∈ store.descriptions[other]?,
            operation.SharesNothing description argument

def next (store : DescriptionStore) : DescriptionEvent → DescriptionStore
  | .construct features added =>
      { store with
        descriptions := store.descriptions ++ [features.withProcessors added] }
  | .addProcessor this p =>
      match store.descriptions[this]? with
      | some description =>
          { store with
            descriptions :=
              store.descriptions.set this
                { description with
                  toMethodResourceDescription :=
                    description.toMethodResourceDescription.addProcessor p } }
      | none => store
  | .copy this =>
      match store.descriptions[this]? with
      | some description =>
          { descriptions := store.descriptions ++ [description.copy]
            copies := store.copies ++ [(description, description.copy)] }
      | none => store
  | .call operation this other =>
      match store.descriptions[this]?, store.descriptions[other]? with
      | some description, some argument =>
          let (after, returned) := operation.apply description argument
          { store with
            descriptions :=
              store.descriptions.set this after ++ returned.toList }
      | _, _ => store

def system : TransitionSystem DescriptionStore DescriptionEvent where
  start := ⟨[], []⟩
  Enabled := Enabled
  next := next

/-- The totals are the sums, and copies answer as what they were copied from. -/
structure TotalsKept (store : DescriptionStore) : Prop where
  totals : ∀ description ∈ store.descriptions, description.TotalsExact
  copies : ∀ copied ∈ store.copies, copied.1.SameAnswers copied.2

/-- Every processor that a step adds or copies has computing units. -/
def AddsUnits (store : DescriptionStore) : DescriptionEvent → Prop
  | .construct _ added => AllPositive added
  | .addProcessor _ p => 0 < p.computingUnits
  | .copy this =>
      ∀ description ∈ store.descriptions[this]?,
        AllPositive description.processors
  | .call operation this other =>
      ∀ description ∈ store.descriptions[this]?,
        ∀ argument ∈ store.descriptions[other]?,
          operation.AddsUnits description argument

variable {store : DescriptionStore}

/-- A list stays as it is but for one entry. -/
theorem forall_mem_set_iff
    {α : Type}
    {Holds : α → Prop}
    {entries : List α}
    {position : Nat}
    (inRange : position < entries.length)
    (allHold : ∀ entry ∈ entries, Holds entry)
    (changed : α) :
    (∀ entry ∈ entries.set position changed, Holds entry) ↔ Holds changed := by
  constructor
  · exact fun all => all changed (List.mem_set inRange changed)
  · intro holds entry isEntry
    rcases List.mem_or_eq_of_mem_set isEntry with isOld | isChanged
    · exact allHold entry isOld
    · rwa [isChanged]

/-- A step keeps the totals exactly if what it adds has computing units. -/
theorem totalsKept_next_iff
    {event : DescriptionEvent}
    (kept : store.TotalsKept)
    (enabled : store.Enabled event) :
    (store.next event).TotalsKept ↔ store.AddsUnits event := by
  cases event with
  | construct features added =>
      rw [AddsUnits,
        ← CloudMethodResourceDescription.totalsExact_withProcessors_iff features]
      constructor
      · intro after
        exact after.totals _ (List.mem_append_right _ List.mem_cons_self)
      · intro counted
        refine ⟨List.forall_mem_append.mpr ⟨kept.totals, ?_⟩, kept.copies⟩
        exact List.forall_mem_singleton.mpr counted
  | addProcessor this p =>
      have inRange : this < store.descriptions.length := enabled
      have isDescription := List.getElem?_eq_getElem inRange
      have totalsExact := kept.totals _ (List.getElem_mem inRange)
      have changed :=
        (totalsExact_addProcessor_iff totalsExact.cover p).trans
          (and_iff_right totalsExact)
      rw [next, isDescription]
      constructor
      · intro after
        exact changed.mp ((forall_mem_set_iff inRange kept.totals _).mp after.totals)
      · intro positive
        refine ⟨(forall_mem_set_iff inRange kept.totals _).mpr ?_, kept.copies⟩
        exact changed.mpr positive
  | copy this =>
      have inRange : this < store.descriptions.length := enabled
      have isDescription := List.getElem?_eq_getElem inRange
      have totalsExact := kept.totals _ (List.getElem_mem inRange)
      rw [next, AddsUnits, isDescription]
      constructor
      · rintro after description ⟨⟩
        refine CloudMethodResourceDescription.totalsExact_copy_iff.mp ?_
        exact after.totals _ (List.mem_append_right _ List.mem_cons_self)
      · intro positive
        have allPositive := positive _ rfl
        have same :=
          CloudMethodResourceDescription.copy_eq totalsExact allPositive
        constructor
        case totals =>
          refine List.forall_mem_append.mpr ⟨kept.totals, ?_⟩
          exact List.forall_mem_singleton.mpr
            (CloudMethodResourceDescription.totalsExact_copy_iff.mpr allPositive)
        case copies =>
          refine List.forall_mem_append.mpr ⟨kept.copies, ?_⟩
          refine List.forall_mem_singleton.mpr ?_
          rw [same]
          exact CloudMethodResourceDescription.sameAnswers_refl _
  | call operation this other =>
      obtain ⟨-, description, isDescription, argument, isArgument, sharesNothing⟩ :=
        enabled
      have totalsExact :=
        kept.totals description (List.mem_of_getElem? isDescription)
      have inRange := (List.getElem?_eq_some_iff.mp isDescription).1
      have operated :=
        operation.totalsExact_apply_iff totalsExact sharesNothing
      have condition :
          store.AddsUnits (.call operation this other) ↔
            operation.AddsUnits description argument := by
        rw [AddsUnits, isDescription, isArgument]
        simp
      rw [condition, ← operated, next, isDescription, isArgument]
      constructor
      · intro after
        obtain ⟨changed, returned⟩ := List.forall_mem_append.mp after.totals
        refine ⟨(forall_mem_set_iff inRange kept.totals _).mp changed, ?_⟩
        exact fun reduced isReturned =>
          returned reduced (Option.mem_toList.mpr isReturned)
      · rintro ⟨changed, returned⟩
        refine ⟨List.forall_mem_append.mpr ⟨?_, ?_⟩, kept.copies⟩
        · exact (forall_mem_set_iff inRange kept.totals _).mpr changed
        · exact fun reduced isReturned =>
            returned reduced (Option.mem_toList.mp isReturned)

instance (this rc2 : MethodResourceDescription) :
    Decidable (Reservable this rc2) :=
  inferInstanceAs (Decidable ((∀ _ ∈ _, _) ∧ _))

instance
    (operation : DescriptionOperation)
    (this other : CloudMethodResourceDescription) :
    Decidable (operation.SharesNothing this other) :=
  match operation with
  | .mergeMultiConstraints =>
      inferInstanceAs (Decidable (∀ _ ∈ _, ∃ _ ∈ _, _ = _))
  | .increase | .reduce | .increaseDynamic | .reduceDynamic => isTrue trivial

instance
    (operation : DescriptionOperation)
    (this other : CloudMethodResourceDescription) :
    Decidable (operation.AddsUnits this other) :=
  match operation with
  | .mergeMultiConstraints | .reduce => isTrue trivial
  | .increase | .increaseDynamic => inferInstanceAs (Decidable (AllPositive _))
  | .reduceDynamic =>
      inferInstanceAs (Decidable (Reservable _ _ → AllPositive _))

instance (store : DescriptionStore) (event : DescriptionEvent) :
    Decidable (system.Enabled store event) :=
  match event with
  | .construct _ _ => isTrue trivial
  | .addProcessor _ _ | .copy _ => inferInstanceAs (Decidable (_ < _))
  | .call operation _ _ =>
      inferInstanceAs
        (Decidable
          (_ ∧ ∃ _ ∈ _, ∃ _ ∈ _, operation.SharesNothing _ _))

instance (store : DescriptionStore) (event : DescriptionEvent) :
    Decidable (store.AddsUnits event) :=
  match event with
  | .construct _ _ => inferInstanceAs (Decidable (AllPositive _))
  | .addProcessor _ _ => inferInstanceAs (Decidable (0 < _))
  | .copy _ => inferInstanceAs (Decidable (∀ _ ∈ _, AllPositive _))
  | .call operation _ _ =>
      inferInstanceAs (Decidable (∀ _ ∈ _, ∀ _ ∈ _, operation.AddsUnits _ _))

/-- A machine and a request, each of one processor of the default kind -/
def machineAndRequest (units asked : Int) : List DescriptionEvent :=
  [.construct (.ofDynamic .empty) [⟨.unassigned, units⟩],
    .construct (.ofDynamic .empty) [⟨.unassigned, asked⟩]]

end DescriptionStore

end DistributedRdf.Resources
