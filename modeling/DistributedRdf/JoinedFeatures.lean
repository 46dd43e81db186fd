import DistributedRdf.ComputingUnitTotals

namespace DistributedRdf.Resources

open Scheduling MethodResourceDescription CloudMethodResourceDescription List

/-!
# What joined descriptions contain

An unassigned feature is compatible with everything, and joining assigns it what
the other description has.
-/

namespace CloudMethodResourceDescription

/-- Everything that one of two descriptions contains their join contains. -/
def UpperBound (this mrd2 : CloudMethodResourceDescription) : Prop :=
  ∀ rc2, this.contains rc2 ∨ mrd2.contains rc2 → (this.increase mrd2).contains rc2

/-- The tests of `contains`, one by one -/
structure Contained (this rc2 : CloudMethodResourceDescription) : Prop where
  operatingSystemType :
    checkCompatibility this.operatingSystemType rc2.operatingSystemType
  operatingSystemDistribution :
    checkCompatibility this.operatingSystemDistribution
      rc2.operatingSystemDistribution
  operatingSystemVersion :
    checkCompatibility this.operatingSystemVersion rc2.operatingSystemVersion
  hostQueues : ∀ queue ∈ rc2.hostQueues, queue ∈ this.hostQueues
  appSoftware : ∀ app ∈ rc2.appSoftware, app ∈ this.appSoftware
  processors :
    ∀ q ∈ rc2.processors, ∃ p ∈ this.processors, checkProcessorContains p q
  memorySize : checkInclusion this.memorySize rc2.memorySize
  memoryType : checkCompatibility this.memoryType rc2.memoryType
  storageSize : checkInclusion this.storageSize rc2.storageSize
  storageType : checkCompatibility this.storageType rc2.storageType

variable {this mrd2 rc2 : CloudMethodResourceDescription}

theorem contains_iff : this.contains rc2 ↔ this.Contained rc2 := by
  constructor
  · intro contains
    simp only [CloudMethodResourceDescription.contains, checkMemory,
      checkStorage, checkProcessors, Bool.and_eq_true, all_eq_true,
      any_eq_true, decide_eq_true_eq] at contains
    obtain ⟨⟨⟨⟨⟨⟨⟨type, distribution⟩, version⟩, hostQueues⟩, appSoftware⟩,
      processors⟩, memorySize, memoryType⟩, storageSize, storageType⟩ := contains
    exact ⟨type, distribution, version, hostQueues, appSoftware, processors,
      memorySize, memoryType, storageSize, storageType⟩
  · intro contained
    simp only [CloudMethodResourceDescription.contains, checkMemory,
      checkStorage, checkProcessors, Bool.and_eq_true, all_eq_true,
      any_eq_true, decide_eq_true_eq]
    exact ⟨⟨⟨⟨⟨⟨⟨contained.operatingSystemType,
      contained.operatingSystemDistribution⟩, contained.operatingSystemVersion⟩,
      contained.hostQueues⟩, contained.appSoftware⟩, contained.processors⟩,
      contained.memorySize, contained.memoryType⟩, contained.storageSize,
      contained.storageType⟩

/-!
## Features that one of them leaves open
-/

/-- Where one description leaves a name open the other one agrees with it. -/
def NameAgrees (own other asked : Option String) : Prop :=
  own = none → checkCompatibility other asked

def SizeAgrees (own other asked : Option ℚ) : Prop :=
  own = none → checkInclusion other asked

/-- What a processor agrees with where another one leaves its features open -/
structure KindAgrees (own other asked : ProcessorKind) : Prop where
  name : NameAgrees own.name other.name asked.name
  architecture :
    NameAgrees own.architecture other.architecture asked.architecture
  speed : SizeAgrees own.speed other.speed asked.speed
  type : NameAgrees own.type other.type asked.type
  internalMemory :
    SizeAgrees own.internalMemory other.internalMemory asked.internalMemory
  propName : NameAgrees own.propName other.propName asked.propName
  propValue : NameAgrees own.propValue other.propValue asked.propValue

/--
Requirements agree with a description on the features that are taken over from
it because the containing one leaves them open.
-/
structure AgreesWhereOpen (own other rc2 : CloudMethodResourceDescription) :
    Prop where
  operatingSystemType :
    NameAgrees own.operatingSystemType other.operatingSystemType
      rc2.operatingSystemType
  operatingSystemDistribution :
    NameAgrees own.operatingSystemDistribution other.operatingSystemDistribution
      rc2.operatingSystemDistribution
  operatingSystemVersion :
    NameAgrees own.operatingSystemVersion other.operatingSystemVersion
      rc2.operatingSystemVersion
  storageSize : SizeAgrees own.storageSize other.storageSize rc2.storageSize
  storageType : NameAgrees own.storageType other.storageType rc2.storageType

/--
What is contained in the joined description agrees with the one it is joined to,
whose memory and processors remain.
-/
structure AgreesWhenJoined (this mrd2 rc2 : CloudMethodResourceDescription) :
    Prop extends AgreesWhereOpen mrd2 this rc2 where
  memorySize : SizeAgrees mrd2.memorySize this.memorySize rc2.memorySize
  memoryType : NameAgrees mrd2.memoryType this.memoryType rc2.memoryType
  processors :
    ∀ q ∈ rc2.processors, ∃ p ∈ mrd2.processors,
      checkProcessorContains p q ∧
        ∀ serving ∈ servingKind (this.increase mrd2).kinds p.kind,
          KindAgrees p.kind serving q.kind

theorem checkCompatibility_iff {value1 value2 : Option String} :
    checkCompatibility value1 value2 ↔
      value1 = value2 ∨ value1 = none ∨ value2 = none :=
  decide_eq_true_iff

/-- Names that are compatible one after the other -/
theorem checkCompatibility_trans
    {serving own asked : Option String}
    (first : checkCompatibility serving own)
    (second : checkCompatibility own asked)
    (agrees : NameAgrees own serving asked) :
    checkCompatibility serving asked := by
  cases own with
  | none => exact agrees rfl
  | some name =>
      rcases checkCompatibility_iff.mp first with same | isOpen | impossible
      · rwa [same]
      · exact checkCompatibility_iff.mpr (Or.inr (Or.inl isOpen))
      · exact nomatch impossible

theorem checkInclusion_trans
    {serving own asked : Option ℚ}
    (first : checkInclusion serving own)
    (second : checkInclusion own asked)
    (agrees : SizeAgrees own serving asked) :
    checkInclusion serving asked := by
  cases own with
  | none => exact agrees rfl
  | some size =>
      cases serving with
      | none => rfl
      | some greater =>
          cases asked with
          | none => rfl
          | some required =>
              have isGreater : size ≤ greater := of_decide_eq_true first
              have enough : required ≤ size := of_decide_eq_true second
              exact decide_eq_true (enough.trans isGreater)

/-- A processor serves what one that is merged into it did. -/
theorem checkProcessorCompatibility_trans
    {serving own asked : ProcessorKind}
    (first : checkProcessorCompatibility serving own)
    (second : checkProcessorCompatibility own asked)
    (agrees : KindAgrees own serving asked) :
    checkProcessorCompatibility serving asked := by
  simp only [checkProcessorCompatibility, Bool.and_eq_true] at first second ⊢
  obtain ⟨⟨⟨⟨⟨⟨name, architecture⟩, speed⟩, type⟩, internalMemory⟩, propName⟩,
    propValue⟩ := first
  obtain ⟨⟨⟨⟨⟨⟨name', architecture'⟩, speed'⟩, type'⟩, internalMemory'⟩,
    propName'⟩, propValue'⟩ := second
  exact ⟨⟨⟨⟨⟨⟨checkCompatibility_trans name name' agrees.name,
    checkCompatibility_trans architecture architecture' agrees.architecture⟩,
    checkInclusion_trans speed speed' agrees.speed⟩,
    checkCompatibility_trans type type' agrees.type⟩,
    checkInclusion_trans internalMemory internalMemory' agrees.internalMemory⟩,
    checkCompatibility_trans propName propName' agrees.propName⟩,
    checkCompatibility_trans propValue propValue' agrees.propValue⟩

/-!
## The join as an upper bound
-/

/-- What the first description assigns stays, and the rest is taken over. -/
theorem takeName_left
    {own other flag asked : Option String}
    (compatible : checkCompatibility own asked)
    (agrees : NameAgrees own other asked) :
    checkCompatibility (takeName own other flag) asked := by
  cases own with
  | some name => exact compatible
  | none =>
      rw [takeName]
      split
      · exact compatible
      · exact agrees rfl

theorem takeName_right
    {own other flag asked : Option String}
    (compatible : checkCompatibility other asked)
    (noConflict : checkCompatibility own other)
    (agrees : NameAgrees other own asked) :
    checkCompatibility (takeName own other flag) asked := by
  cases own with
  | some name => exact checkCompatibility_trans noConflict compatible agrees
  | none =>
      rw [takeName]
      split
      · exact checkCompatibility_iff.mpr (Or.inr (Or.inl rfl))
      · exact compatible

theorem maxSize_left
    {own other asked : Option ℚ}
    (contains : checkInclusion own asked)
    (agrees : SizeAgrees own other asked) :
    checkInclusion (maxSize own other) asked := by
  cases own with
  | none => exact agrees rfl
  | some size =>
      cases asked with
      | none => cases other <;> rfl
      | some required =>
          obtain ⟨greatest, isGreatest, noLess⟩ :=
            @exists_maxSize_left (some size) other required size rfl
              (of_decide_eq_true contains)
          rw [isGreatest]
          exact decide_eq_true noLess

theorem maxSize_comm (own other : Option ℚ) :
    maxSize own other = maxSize other own := by
  cases own with
  | none => cases other <;> rfl
  | some size =>
      cases other with
      | none => rfl
      | some more => exact congrArg some (max_comm size more)

theorem addSize_right
    {own other asked : Option ℚ}
    (contains : checkInclusion other asked)
    (nonNegative : ∀ amount, own = some amount → 0 ≤ amount)
    (agrees : SizeAgrees other own asked) :
    checkInclusion (addSize own other) asked := by
  cases other with
  | none =>
      cases own with
      | none => rfl
      | some size => exact agrees rfl
  | some more =>
      exact checkInclusion_add_right contains nonNegative (Or.inl rfl)

theorem increase_memoryType (this mrd2 : CloudMethodResourceDescription) :
    (this.increase mrd2).memoryType = this.memoryType := by
  have joined (joined : List Processor) (start : MethodResourceDescription) :
      (joined.foldl increaseBy start).memoryType = start.memoryType := by
    induction joined generalizing start with
    | nil => rfl
    | cons p rest hypothesis =>
        rw [foldl_cons, hypothesis, increaseBy]
        split <;> rfl
  exact joined _ _

/-- Joining keeps what the description contained. -/
theorem increase_contains_left
    (thisNonNegative : this.NoNegativeAmounts)
    (nonNegative : mrd2.NoNegativeAmounts)
    (contains : this.contains rc2)
    (agrees : AgreesWhereOpen this mrd2 rc2) :
    (this.increase mrd2).contains rc2 := by
  have joined :=
    foldl_increaseBy_joined thisNonNegative.units nonNegative.units
  have contained := contains_iff.mp contains
  refine contains_iff.mpr ?_
  constructor
  case operatingSystemType =>
    exact takeName_left contained.operatingSystemType
      agrees.operatingSystemType
  case operatingSystemDistribution =>
    exact takeName_left contained.operatingSystemDistribution
      agrees.operatingSystemDistribution
  case operatingSystemVersion =>
    exact takeName_left contained.operatingSystemVersion
      agrees.operatingSystemVersion
  case hostQueues =>
    exact fun queue isQueue =>
      mem_addMissing.mpr (Or.inl (contained.hostQueues queue isQueue))
  case appSoftware =>
    exact fun app isApp =>
      mem_addMissing.mpr (Or.inl (contained.appSoftware app isApp))
  case processors =>
    intro q isRequired
    obtain ⟨pThis, isProcessor, holds⟩ := contained.processors q isRequired
    obtain ⟨pNew, isNew, sameKind, grows⟩ := joined.grows pThis isProcessor
    refine ⟨pNew, isNew, checkProcessorContains_grows holds ?_ grows⟩
    rw [checkProcessorContains, Bool.and_eq_true] at holds
    rw [sameKind]
    exact holds.1
  case memorySize =>
    exact checkInclusion_add_left contained.memorySize nonNegative.memory
  case memoryType =>
    rw [increase_memoryType]
    exact contained.memoryType
  case storageSize => exact maxSize_left contained.storageSize agrees.storageSize
  case storageType => exact takeName_left contained.storageType agrees.storageType

/-- Joining brings in what the other description contained. -/
theorem increase_contains_right
    (thisNonNegative : this.NoNegativeAmounts)
    (nonNegative : mrd2.NoNegativeAmounts)
    (noConflict : this.namesAgree mrd2)
    (contains : mrd2.contains rc2)
    (agrees : AgreesWhenJoined this mrd2 rc2) :
    (this.increase mrd2).contains rc2 := by
  have joined :=
    foldl_increaseBy_joined thisNonNegative.units nonNegative.units
  simp only [namesAgree, Bool.and_eq_true] at noConflict
  obtain ⟨⟨⟨⟨type, distribution⟩, version⟩, memoryType⟩, storageType⟩ :=
    noConflict
  have contained := contains_iff.mp contains
  refine contains_iff.mpr ?_
  constructor
  case operatingSystemType =>
    exact takeName_right contained.operatingSystemType type
      agrees.operatingSystemType
  case operatingSystemDistribution =>
    exact takeName_right contained.operatingSystemDistribution distribution
      agrees.operatingSystemDistribution
  case operatingSystemVersion =>
    exact takeName_right contained.operatingSystemVersion version
      agrees.operatingSystemVersion
  case hostQueues =>
    exact fun queue isQueue =>
      mem_addMissing.mpr (Or.inr (contained.hostQueues queue isQueue))
  case appSoftware =>
    exact fun app isApp =>
      mem_addMissing.mpr (Or.inr (contained.appSoftware app isApp))
  case processors =>
    intro q isRequired
    obtain ⟨p, isProcessor, holds, kindAgrees⟩ :=
      agrees.processors q isRequired
    obtain ⟨pNew, isNew, served, merges⟩ := joined.merges p isProcessor
    refine ⟨pNew, isNew, checkProcessorContains_grows holds ?_ merges⟩
    rw [checkProcessorContains, Bool.and_eq_true] at holds
    exact checkProcessorCompatibility_trans (compatible_of_servingKind served)
      holds.1 (kindAgrees pNew.kind served)
  case memorySize =>
    exact addSize_right contained.memorySize thisNonNegative.memory
      agrees.memorySize
  case memoryType =>
    rw [increase_memoryType]
    exact checkCompatibility_trans memoryType contained.memoryType
      agrees.memoryType
  case storageSize =>
    change checkInclusion (maxSize this.storageSize mrd2.storageSize) _
    rw [maxSize_comm]
    exact maxSize_left contained.storageSize agrees.storageSize
  case storageType =>
    exact takeName_right contained.storageType storageType agrees.storageType

/-- A machine of one processor with an operating system and applications -/
def machine
    (units : Int)
    (operatingSystemType : Option String)
    (appSoftware : List String) :
    CloudMethodResourceDescription :=
  { ofDynamic (ofUnits [units]) with
    operatingSystemType := operatingSystemType
    appSoftware := appSoftware }

end CloudMethodResourceDescription

end DistributedRdf.Resources
