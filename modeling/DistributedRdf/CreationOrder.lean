import DistributedRdf.CloudRequests
import DistributedRdf.FallibleSteps
import DistributedRdf.PriorityQueue

namespace DistributedRdf.Java

/-- A whole number as a `float`: 24 bits, where ties go to the even one -/
def floatOfInt (value : Int) : Int :=
  let unit : Int := 2 ^ (value.natAbs.log2 - 23)
  let quotient := value / unit
  let remainder := value % unit
  if 2 * remainder < unit ∨ 2 * remainder = unit ∧ quotient % 2 = 0 then
    quotient * unit
  else
    (quotient + 1) * unit

variable {value : Int}

/-- The last bit that is kept is no greater than the number. -/
theorem floatUnit_le
    (isNonzero : value ≠ 0) :
    (2 : Int) ^ (value.natAbs.log2 - 23) ≤ value.natAbs := by
  have noGreater :=
    calc
      2 ^ (value.natAbs.log2 - 23) ≤ 2 ^ value.natAbs.log2 :=
        Nat.pow_le_pow_right (by omega) (Nat.sub_le _ _)
      _ ≤ value.natAbs :=
        Nat.log2_self_le (Int.natAbs_ne_zero.mpr isNonzero)
  exact_mod_cast noGreater

theorem floatOfInt_pos
    (isPositive : 0 < value) :
    0 < floatOfInt value := by
  have noGreater := floatUnit_le isPositive.ne'
  have unitPositive : (0 : Int) < 2 ^ (value.natAbs.log2 - 23) :=
    Int.pow_pos (by decide)
  unfold floatOfInt
  generalize (2 : Int) ^ (value.natAbs.log2 - 23) = unit at *
  have quotientPositive : 1 ≤ value / unit :=
    Int.le_ediv_of_mul_le unitPositive (by omega)
  dsimp only
  split
  · exact Int.mul_pos (by omega) unitPositive
  · exact Int.mul_pos (by omega) unitPositive

theorem floatOfInt_neg
    (isNegative : value < 0) :
    floatOfInt value < 0 := by
  have noGreater := floatUnit_le isNegative.ne
  have unitPositive : (0 : Int) < 2 ^ (value.natAbs.log2 - 23) :=
    Int.pow_pos (by decide)
  unfold floatOfInt
  generalize (2 : Int) ^ (value.natAbs.log2 - 23) = unit at *
  have quotientNegative : value / unit ≤ -1 :=
    Int.ediv_le_of_le_mul unitPositive (by omega)
  have parts := Int.mul_ediv_add_emod value unit
  dsimp only
  split
  · exact Int.mul_neg_of_neg_of_pos (by omega) unitPositive
  case isFalse roundsUp =>
    -- a number that is rounded up is no multiple of the last bit
    have notLast : value / unit ≠ -1 := by
      intro isLast
      rw [isLast] at parts
      omega
    exact Int.mul_neg_of_neg_of_pos (by omega) unitPositive

theorem floatOfInt_zero : floatOfInt 0 = 0 := by
  decide

end DistributedRdf.Java

namespace DistributedRdf.Resources

open Java PriorityQueue List

/-!
# The order in which creations are requested

The optimizer recommends a number of creations for each core and puts every
implementation that may need a machine in a priority queue, with that number as
its value.  The queue is polled until the cloud manager accepts a request.
-/

/-- `Implementation.TaskType` -/
inductive TaskType where
  | METHOD
  | SERVICE
  deriving DecidableEq

structure CoreImplementation (Description : Type) where
  taskType : TaskType
  requirements : Description

/-- A candidate, with the implementation that it stands for -/
structure ValueResourceDescription (Description : Type) where
  constraints : Description
  /-- A `float` that is a whole number -/
  value : Int
  prioritary : Bool
  coreId : Nat
  implId : Nat
  deriving DecidableEq

namespace ValueResourceDescription

variable {Description : Type}

def compareTo (this o : ValueResourceDescription Description) : Int :=
  if this.prioritary && !o.prioritary then
    1
  else if !this.prioritary && o.prioritary then
    -1
  else
    let dif := floatOfInt (this.value - o.value)
    if dif > 0 then
      1
    else if dif < 0 then
      -1
    else
      0

/-- `v.value < 1 ? 1 : (int) v.value`, where the conversion saturates -/
def amount (v : ValueResourceDescription Description) : Int :=
  if v.value < 1 then 1 else min v.value (2 ^ 31 - 1)

/-- The difference is rounded, but it keeps its sign. -/
theorem dif_nonpos_iff (first second : Int) :
    (if floatOfInt (first - second) > 0 then
        1
      else if floatOfInt (first - second) < 0 then
        -1
      else
        0 : Int) ≤ 0 ↔
      first ≤ second := by
  rcases Int.lt_trichotomy first second with less | same | greater
  · have isNegative : floatOfInt (first - second) < 0 :=
      floatOfInt_neg (by omega)
    rw [if_neg (by omega), if_pos isNegative]
    omega
  · rw [same, Int.sub_self, floatOfInt_zero]
    simp
  · have isPositive : 0 < floatOfInt (first - second) :=
      floatOfInt_pos (by omega)
    rw [if_pos isPositive]
    omega

theorem compareTo_nonpos_iff
    (first second : ValueResourceDescription Description) :
    first.compareTo second ≤ 0 ↔
      first.prioritary = false ∧ second.prioritary = true ∨
        first.prioritary = second.prioritary ∧ first.value ≤ second.value := by
  have byValue := dif_nonpos_iff first.value second.value
  unfold compareTo
  cases first.prioritary <;> cases second.prioritary
  · simpa using byValue
  · simp
  · simp
  · simpa using byValue

theorem compareTo_total
    (first second : ValueResourceDescription Description) :
    first.compareTo second ≤ 0 ∨ second.compareTo first ≤ 0 := by
  rw [compareTo_nonpos_iff, compareTo_nonpos_iff]
  cases first.prioritary <;> cases second.prioritary <;> simp [Int.le_total]

theorem compareTo_trans
    (first second third : ValueResourceDescription Description)
    (firstBefore : first.compareTo second ≤ 0)
    (secondBefore : second.compareTo third ≤ 0) :
    first.compareTo third ≤ 0 := by
  rw [compareTo_nonpos_iff] at *
  grind

end ValueResourceDescription

/-! ## The recommended creations -/

/-- The exceptions that end the policies -/
inductive RuntimeException where
  | arithmetic
  | indexOutOfBounds
  | unregisteredCore
  deriving DecidableEq

/-- An access to an array -/
def entry (array : List α) (index : Nat) : Except RuntimeException α :=
  match array[index]? with
  | some value => .ok value
  | none => .error .indexOutOfBounds

/-- What a workload says of a core and the creations look at -/
structure CoreStatus where
  meanTime : Int64
  runningCoreMeanTime : Int64
  noResourceCount : Int32
  readyCount : Int32
  runningCount : Int32
  deriving DecidableEq

structure WorkloadStatus where
  cores : List CoreStatus

namespace WorkloadStatus

/-- `registerNoResources` keeps the sum. -/
def noResourceCount (workload : WorkloadStatus) : Int32 :=
  (workload.cores.map fun core => core.noResourceCount).sum

/-- `registerReady` keeps the sum. -/
def readyCount (workload : WorkloadStatus) : Int32 :=
  (workload.cores.map fun core => core.readyCount).sum

end WorkloadStatus

/-- What a policy passes to `requestOneCreation`, with the required cores -/
structure CreationPass (Description : Type) where
  candidates : List (ValueResourceDescription Description)
  contained : Bool
  requiredVMs : List Nat

structure ResourceOptimizer (Description : Type) where
  /-- The implementations of each core that the core manager knows -/
  cores : List (List (CoreImplementation Description))
  cleanUp : Bool
  currentVMCount : Int32
  maxVMs : Int32
  minVMs : Int32
  /-- `none` if a connector throws an exception -/
  nextCreationTime : Option Int64
  totalSlots : List Int32

namespace ResourceOptimizer

variable
  {Description : Type}
  (optimizer : ResourceOptimizer Description)

def creationTime : Int64 :=
  optimizer.nextCreationTime.getD 120000

def maxNumberOfVMs :
    Option Int32 :=
  if optimizer.maxVMs > 0 then some optimizer.maxVMs else none

/-- The mean time that the running and the ready tasks of a core still need -/
def readyMeanCoreTime
    (core : CoreStatus) :
    Int64 :=
  let meanCoreTime := min core.meanTime optimizer.creationTime
  let meanRemainingCoreTime :=
    if meanCoreTime - core.runningCoreMeanTime < 0 then
      0
    else
      min (meanCoreTime - core.runningCoreMeanTime) optimizer.creationTime
  let runningMeanCoreTime := meanRemainingCoreTime * core.runningCount.toInt64
  runningMeanCoreTime + meanCoreTime * core.readyCount.toInt64

variable (workload : WorkloadStatus)

def checkNeededMachines :
    Except RuntimeException (List Nat) :=
  if workload.noResourceCount = 0 then
    .ok []
  else
    (range optimizer.cores.length).filterM fun i => do
      let core ← entry workload.cores i
      if core.noResourceCount > 0 then
        let slots ← entry optimizer.totalSlots i
        pure (slots == 0)
      else
        pure false

/-- The cores that `applyPolicies` creates machines for in any case -/
def requiredVMs :
    Except RuntimeException (List Nat) :=
  if optimizer.cleanUp then .ok [] else optimizer.checkNeededMachines workload

/-- A round of the loop of `recommendCreations` -/
def recommendedCreation
    (coreId : Nat)
    (aggregatedMeanCoreTime : Int64) :
    Except RuntimeException Int := do
  let slots ← entry optimizer.totalSlots coreId
  let embraceableLoad := slots.toInt64 * optimizer.creationTime
  let remainingLoad := aggregatedMeanCoreTime - embraceableLoad
  if remainingLoad > 0 then
    if optimizer.creationTime = 0 then
      .error .arithmetic
    else
      pure (floatOfInt (remainingLoad / optimizer.creationTime).toInt32.toInt)
  else
    pure 0

variable (aggregatedMeanCoreTime : List Int64)

def recommendCreations :
    Except RuntimeException (List Int) :=
  aggregatedMeanCoreTime.zipIdx.mapM fun (time, coreId) =>
    optimizer.recommendedCreation coreId time

/-- A round of the loop of `orderCreations` -/
def greaterRatio
    (best : Nat × Int)
    (i : Nat) :
    Except RuntimeException (Nat × Int) := do
  let time ← entry aggregatedMeanCoreTime i
  if time > 0 then
    let slots ← entry optimizer.totalSlots i
    if slots > 0 then
      let ratio := floatOfInt (time / slots.toInt64).toInt
      pure (if ratio > best.2 then (i, ratio) else best)
    else
      pure best
  else
    pure best

def orderCreations :
    Except RuntimeException (List Int) := do
  let (maxI, _) ←
    (range optimizer.cores.length).foldlM
      (optimizer.greaterRatio aggregatedMeanCoreTime) (0, 0)
  if maxI < aggregatedMeanCoreTime.length then
    pure ((aggregatedMeanCoreTime.map fun _ => 0).set maxI 1)
  else
    .error .indexOutOfBounds

/-- The candidates of a core, which are never prioritary -/
def coreCandidates
    (value : Int)
    (coreId : Nat) :
    Except RuntimeException (List (ValueResourceDescription Description)) :=
  match optimizer.cores[coreId]? with
  | none => .error .unregisteredCore
  | some impls =>
      .ok (impls.zipIdx.filterMap fun (impl, implId) =>
        match impl.taskType with
        | .SERVICE => none
        | .METHOD => some {
            constraints := impl.requirements
            value := value
            prioritary := false
            coreId := coreId
            implId := implId
          })

variable (creationRecommendations : List Int)

def mandatoryIncrease
    (requiredVMs : List Nat) :
    Except RuntimeException (CreationPass Description) := do
  let candidates ←
    creationRecommendations.zipIdx.mapM fun (value, coreId) =>
      optimizer.coreCandidates value coreId
  pure {
    candidates := candidates.flatten
    contained := true
    requiredVMs := requiredVMs
  }

def optionalIncrease :
    Except RuntimeException (CreationPass Description) := do
  let candidates ←
    creationRecommendations.zipIdx.mapM fun (value, coreId) =>
      if value > 1 then optimizer.coreCandidates value coreId else pure []
  pure {
    candidates := candidates.flatten
    contained := false
    requiredVMs := []
  }

/-- The part of `applyPolicies` for creations, if it asks for one -/
def applyPolicies :
    Except RuntimeException (Option (CreationPass Description)) := do
  let readyMeanCoreTime := workload.cores.map optimizer.readyMeanCoreTime
  let requiredVMs ← optimizer.requiredVMs workload
  if requiredVMs ≠ [] then
    let creationRecommendations ← optimizer.recommendCreations readyMeanCoreTime
    let atLeastOne :=
      creationRecommendations.mapIdx fun coreId value =>
        if coreId ∈ requiredVMs then max value 1 else value
    some <$> optimizer.mandatoryIncrease atLeastOne requiredVMs
  else if ¬ optimizer.cleanUp ∧ optimizer.minVMs > optimizer.currentVMCount then
    let creationRecommendations ← optimizer.orderCreations readyMeanCoreTime
    some <$> optimizer.mandatoryIncrease creationRecommendations []
  else if ¬ optimizer.cleanUp ∧
      optimizer.maxNumberOfVMs.any (· < optimizer.currentVMCount) then
    pure none
  else if optimizer.maxNumberOfVMs.all (· > optimizer.currentVMCount) ∧
      workload.readyCount > 1 then
    let creationRecommendations ← optimizer.recommendCreations readyMeanCoreTime
    some <$> optimizer.optionalIncrease creationRecommendations
  else
    pure none

section NeverPrioritary

variable
  {optimizer : ResourceOptimizer Description}
  {pass : CreationPass Description}
  {candidate : ValueResourceDescription Description}

theorem coreCandidates_not_prioritary
    {value : Int}
    {coreId : Nat}
    {candidates : List (ValueResourceDescription Description)}
    (found : optimizer.coreCandidates value coreId = .ok candidates)
    (isCandidate : candidate ∈ candidates) :
    candidate.prioritary = false := by
  rw [coreCandidates] at found
  split at found
  case h_1 => exact nomatch found
  case h_2 impls isCore =>
    cases found
    obtain ⟨⟨impl, implId⟩, -, stands⟩ := mem_filterMap.mp isCandidate
    dsimp only at stands
    split at stands
    · exact nomatch stands
    · cases stands
      rfl

variable {creationRecommendations : List Int}

theorem mandatoryIncrease_not_prioritary
    {requiredVMs : List Nat}
    (found :
      optimizer.mandatoryIncrease creationRecommendations requiredVMs =
        .ok pass)
    (isCandidate : candidate ∈ pass.candidates) :
    candidate.prioritary = false := by
  obtain ⟨candidates, candidatesFound, found⟩ := bind_eq_ok.mp found
  cases found
  obtain ⟨ofCore, isCore, isCandidate⟩ := mem_flatten.mp isCandidate
  obtain ⟨_, -, coreFound⟩ := exists_of_mem_mapM candidatesFound isCore
  exact coreCandidates_not_prioritary coreFound isCandidate

theorem optionalIncrease_not_prioritary
    (found : optimizer.optionalIncrease creationRecommendations = .ok pass)
    (isCandidate : candidate ∈ pass.candidates) :
    candidate.prioritary = false := by
  obtain ⟨candidates, candidatesFound, found⟩ := bind_eq_ok.mp found
  cases found
  obtain ⟨ofCore, isCore, isCandidate⟩ := mem_flatten.mp isCandidate
  obtain ⟨_, -, coreFound⟩ := exists_of_mem_mapM candidatesFound isCore
  dsimp only at coreFound
  split at coreFound
  · exact coreCandidates_not_prioritary coreFound isCandidate
  · cases coreFound
    exact nomatch isCandidate

/-- A policy that asks for a creation has recommendations for it. -/
theorem exists_of_asks
    {recommended : Except RuntimeException (List Int)}
    {increase : List Int → Except RuntimeException (CreationPass Description)}
    (asks :
      (do
        let creationRecommendations ← recommended
        some <$> increase creationRecommendations) = .ok (some pass)) :
    ∃ creationRecommendations, increase creationRecommendations = .ok pass := by
  obtain ⟨creationRecommendations, -, asks⟩ := bind_eq_ok.mp asks
  obtain ⟨_, found, same⟩ := map_eq_ok.mp asks
  cases same
  exact ⟨creationRecommendations, found⟩

variable {workload}

/-- The policies never put a candidate before the others. -/
theorem applyPolicies_not_prioritary
    (asks : optimizer.applyPolicies workload = .ok (some pass))
    (isCandidate : candidate ∈ pass.candidates) :
    candidate.prioritary = false := by
  obtain ⟨requiredVMs, -, asks⟩ := bind_eq_ok.mp asks
  dsimp only at asks
  split at asks
  · obtain ⟨_, found⟩ := exists_of_asks asks
    exact mandatoryIncrease_not_prioritary found isCandidate
  split at asks
  · obtain ⟨_, found⟩ := exists_of_asks asks
    exact mandatoryIncrease_not_prioritary found isCandidate
  split at asks
  · exact nomatch asks
  split at asks
  · obtain ⟨_, found⟩ := exists_of_asks asks
    exact optionalIncrease_not_prioritary found isCandidate
  · exact nomatch asks

end NeverPrioritary

end ResourceOptimizer

/-! ## The creation that is requested -/

/--
What `CloudManager.askForResources` answers when a candidate is asked for.  In a
pass this happens once for each candidate at most, so that an answer may depend
on the requests before it.
-/
abbrev Answers (Description : Type) :=
  ValueResourceDescription Description →
    Int → Bool → Option ResourceCreationRequest

abbrev CreationQueue (Description : Type) :=
  PriorityQueue (ValueResourceDescription Description)
    ValueResourceDescription.compareTo

abbrev CreationQueue.Implementation (Description : Type) :=
  PriorityQueue.Implementation (ValueResourceDescription Description)
    ValueResourceDescription.compareTo

/-- The request that is accepted, with the candidate that it is for -/
def requestOneCreation
    (implementation : CreationQueue.Implementation Description)
    (askForResources : Answers Description)
    (pq : CreationQueue Description)
    (contained : Bool) :
    Option (ValueResourceDescription Description × ResourceCreationRequest) :=
  pq.pollUntil implementation
    (fun v => askForResources v v.amount contained)
    pq.elements.length

namespace CreationPass

variable
  {Description : Type}
  (pass : CreationPass Description)
  (askForResources : Answers Description)

def requested
    (implementation : CreationQueue.Implementation Description) :
    Option (ValueResourceDescription Description × ResourceCreationRequest) :=
  requestOneCreation implementation askForResources
    (ofList implementation pass.candidates)
    pass.contained

variable (candidate : ValueResourceDescription Description)

/-- Some provider can satisfy the request for the candidate. -/
def Servable : Prop :=
  (askForResources candidate candidate.amount pass.contained).isSome
  deriving Decidable

/-- Required cores come before the others, then the greater value. -/
def Needier (first second : ValueResourceDescription Description) : Prop :=
  first.coreId ∈ pass.requiredVMs ∧ second.coreId ∉ pass.requiredVMs ∨
    (first.coreId ∈ pass.requiredVMs ↔ second.coreId ∈ pass.requiredVMs) ∧
      second.value < first.value
  deriving Decidable

/--
A creation is requested if one can be served, and none that can be served is
for a needier core.
-/
def NeediestServed
    (implementation : CreationQueue.Implementation Description) : Prop :=
  match pass.requested askForResources implementation with
  | none =>
      ∀ candidate ∈ pass.candidates, ¬ pass.Servable askForResources candidate
  | some (served, _) =>
      served ∈ pass.candidates ∧
        pass.Servable askForResources served ∧
        ∀ candidate ∈ pass.candidates,
          pass.Servable askForResources candidate →
            ¬ pass.Needier candidate served

/-- The candidates of least value that can be served are as needy as any other. -/
def LeastAreNeediest : Prop :=
  ∀ least ∈ pass.candidates,
    pass.Servable askForResources least →
    (∀ candidate ∈ pass.candidates,
      pass.Servable askForResources candidate →
        least.value ≤ candidate.value) →
    ∀ candidate ∈ pass.candidates,
      pass.Servable askForResources candidate →
        ¬ pass.Needier candidate least
  deriving Decidable

instance
    [DecidableEq Description]
    (implementation : CreationQueue.Implementation Description) :
    Decidable (pass.NeediestServed askForResources implementation) :=
  match requested : pass.requested askForResources implementation with
  | none =>
      decidable_of_iff
        (∀ candidate ∈ pass.candidates,
          ¬ pass.Servable askForResources candidate)
        (by rw [NeediestServed, requested])
  | some (served, _) =>
      decidable_of_iff
        (served ∈ pass.candidates ∧
          pass.Servable askForResources served ∧
          ∀ candidate ∈ pass.candidates,
            pass.Servable askForResources candidate →
              ¬ pass.Needier candidate served)
        (by rw [NeediestServed, requested])

variable
  {pass askForResources}
  {implementation : CreationQueue.Implementation Description}

/-- Without priorities a candidate of least value is served. -/
theorem requested_least
    (notPrioritary : ∀ candidate ∈ pass.candidates, candidate.prioritary = false)
    {served : ValueResourceDescription Description}
    {rcr : ResourceCreationRequest}
    (isRequested :
      pass.requested askForResources implementation = some (served, rcr)) :
    served ∈ pass.candidates ∧
      pass.Servable askForResources served ∧
      ∀ candidate ∈ pass.candidates,
        pass.Servable askForResources candidate →
          served.value ≤ candidate.value := by
  have queued := ofList_perm implementation pass.candidates
  obtain ⟨isElement, isServed, least⟩ :=
    pollUntil_eq_some isRequested
  have isCandidate := queued.mem_iff.mp isElement
  refine ⟨isCandidate, Option.isSome_of_eq_some isServed, ?_⟩
  intro candidate isOther canBeServed
  have noGreater :=
    least candidate (queued.mem_iff.mpr isOther) canBeServed
  rw [ValueResourceDescription.compareTo_nonpos_iff,
    notPrioritary _ isCandidate, notPrioritary _ isOther] at noGreater
  simpa using noGreater

variable {candidate}

theorem not_servable_of_requested_eq_none
    (noneRequested : pass.requested askForResources implementation = none)
    (isCandidate : candidate ∈ pass.candidates) :
    ¬ pass.Servable askForResources candidate := by
  have queued := ofList_perm implementation pass.candidates
  have unserved :=
    pollUntil_eq_none (Nat.le_refl _) noneRequested candidate
      (queued.mem_iff.mpr isCandidate)
  rw [Servable, unserved]
  decide

/-- Any candidate of least value is served by some implementation. -/
theorem exists_requested
    (notPrioritary : ∀ candidate ∈ pass.candidates, candidate.prioritary = false)
    {least : ValueResourceDescription Description}
    (isCandidate : least ∈ pass.candidates)
    (canBeServed : pass.Servable askForResources least)
    (isLeast :
      ∀ candidate ∈ pass.candidates,
        pass.Servable askForResources candidate →
          least.value ≤ candidate.value) :
    ∃ implementation rcr,
      pass.requested askForResources implementation = some (least, rcr) := by
  classical
  obtain ⟨rcr, isServed⟩ := Option.isSome_iff_exists.mp canBeServed
  let preferring : CreationQueue.Implementation Description :=
    preferring ValueResourceDescription.compareTo_total
      ValueResourceDescription.compareTo_trans least
  have queued := ofList_perm preferring pass.candidates
  refine ⟨preferring, rcr, ?_⟩
  apply pollUntil_preferring
  · exact isServed
  · exact Nat.le_refl _
  · exact queued.mem_iff.mpr isCandidate
  · exact ofList_prefers _ _ least pass.candidates
  · intro candidate isElement servable
    have isOther := queued.mem_iff.mp isElement
    rw [ValueResourceDescription.compareTo_nonpos_iff,
      notPrioritary _ isCandidate, notPrioritary _ isOther]
    exact Or.inr ⟨rfl, isLeast candidate isOther servable⟩

/--
The queue serves a least candidate.  It is one of the neediest for every
implementation if and only if all the least candidates are.
-/
theorem neediestServed_iff
    {optimizer : ResourceOptimizer Description}
    {workload : WorkloadStatus}
    (asks : optimizer.applyPolicies workload = .ok (some pass)) :
    (∀ implementation, pass.NeediestServed askForResources implementation) ↔
      pass.LeastAreNeediest askForResources := by
  have notPrioritary :
      ∀ candidate ∈ pass.candidates, candidate.prioritary = false :=
    fun _ isCandidate =>
      ResourceOptimizer.applyPolicies_not_prioritary asks isCandidate
  constructor
  · intro served least isCandidate canBeServed isLeast
    obtain ⟨implementation, rcr, isRequested⟩ :=
      exists_requested notPrioritary isCandidate canBeServed isLeast
    have neediest := served implementation
    rw [NeediestServed, isRequested] at neediest
    exact neediest.2.2
  · intro leastAreNeediest implementation
    rw [NeediestServed]
    split
    case h_1 noneRequested =>
      exact fun _ isCandidate =>
        not_servable_of_requested_eq_none noneRequested isCandidate
    case h_2 served rcr isRequested =>
      obtain ⟨isCandidate, canBeServed, isLeast⟩ :=
        requested_least notPrioritary isRequested
      exact ⟨isCandidate, canBeServed,
        leastAreNeediest served isCandidate canBeServed isLeast⟩

end CreationPass

/-! ## Managers whose connectors accept every request -/

namespace CloudManager

/-- What providers offer for an amount of slots and a description -/
abbrev Offers (Description : Type) :=
  Int → Description → Bool → String → Option CloudOffer

def acceptingAnswers
    (manager : CloudManager)
    (id : Nat)
    (offers : Offers Description) :
    Answers Description :=
  fun v amount contained =>
    (manager.askForResources id (offers amount v.constraints contained)
      .accepted).2

end CloudManager

/-- A manager of one provider, which has no limit of machines -/
def oneProvider : CloudManager where
  providerNames := ["provider"]
  providers := fun name => {
    name := name
    limitOfVMs := none
    typeManager := { types := {"machine"}, vmToType := fun _ => none }
    currentVMCount := 0
  }
  VM2Provider := fun _ => none
  pendingRequests := []
  pendingCoreCount := fun _ => 0

/-- Any description is offered one type of machine. -/
def alwaysOffered : CloudManager.Offers String :=
  fun _ _ _ _ => some {
    type := "machine"
    value := 1
    simultaneousCounts := [[1], [1]]
  }

def twoCores : ResourceOptimizer String where
  cores := [[⟨.METHOD, "big"⟩], [⟨.METHOD, "small"⟩]]
  cleanUp := false
  currentVMCount := 0
  maxVMs := 10
  minVMs := 0
  nextCreationTime := some 100
  totalSlots := [0, 0]

/-- Two cores without slots, with the numbers of their ready tasks -/
def readyTasks (first second : Int32) : WorkloadStatus where
  cores := [first, second].map fun readyCount => {
    meanTime := 100
    runningCoreMeanTime := 0
    noResourceCount := readyCount
    readyCount := readyCount
    runningCount := 0
  }

/-- The candidates of the two cores, both of which are required -/
def twoCandidates (first second : Int) : CreationPass String where
  candidates := [⟨"big", first, false, 0, 0⟩, ⟨"small", second, false, 1, 0⟩]
  contained := true
  requiredVMs := [0, 1]

theorem neediestServed_readyTasks :
    (twoCandidates 5 5).NeediestServed
      (oneProvider.acceptingAnswers 0 alwaysOffered)
      (sorted ValueResourceDescription.compareTo_total
        ValueResourceDescription.compareTo_trans) :=
  have asks :
      twoCores.applyPolicies (readyTasks 5 5) =
        .ok (some (twoCandidates 5 5)) :=
    rfl
  (CreationPass.neediestServed_iff asks).mpr (by decide) _

/-- The core with one ready task gets a machine before the one with five. -/
theorem not_neediestServed_readyTasks :
    twoCores.applyPolicies (readyTasks 5 1) =
        .ok (some (twoCandidates 5 1)) ∧
      ¬ (twoCandidates 5 1).NeediestServed
        (oneProvider.acceptingAnswers 0 alwaysOffered)
        (sorted ValueResourceDescription.compareTo_total
          ValueResourceDescription.compareTo_trans) := by
  constructor
  · rfl
  · decide

end DistributedRdf.Resources
