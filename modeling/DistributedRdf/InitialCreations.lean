import DistributedRdf.CloudDescriptions
import DistributedRdf.CreationOrder

namespace DistributedRdf.Resources

open Scheduling CloudMethodResourceDescription Function List
open CloudMethodResourceDescription

/-!
# The first machines

Before any worker offers slots, the optimizer requests machines for the
constraints of all cores.  To request fewer machines, it joins the constraints
of each architecture, whose objects share descriptions from then on, and lets
one request confirm all the cores that were joined to it.
-/

structure MethodConstraints where
  description : CloudMethodResourceDescription
  noNegativeAmounts : description.NoNegativeAmounts

/-- The cores that are registered and the slots that workers offer them -/
structure RegisteredCores where
  cores : List (List (CoreImplementation MethodConstraints))
  totalSlots : Nat → Int

namespace RegisteredCores

variable (registered : RegisteredCores)

/-- The methods of the cores without slots, each with its core -/
def unfulfilledMethods :
    List (Nat × MethodConstraints) :=
  registered.cores.zipIdx.flatMap fun (impls, coreId) =>
    if registered.totalSlots coreId = 0 then
      impls.filterMap fun impl =>
        match impl.taskType with
        | .METHOD => some (coreId, impl.requirements)
        | .SERVICE => none
    else
      []

variable (coreId : Nat)

/-- The core needs resources, and this would be enough for it. -/
def Accepts
    (constraints : CloudMethodResourceDescription) :
    Prop :=
  ∃ method ∈ registered.unfulfilledMethods,
    method.1 = coreId ∧ method.2.description = constraints

def NeedsResources : Prop :=
  ∃ constraints, registered.Accepts coreId constraints

end RegisteredCores

/--
A `ConstraintsCore` is a number, and so is a description object.  The last two
fields only record what was done.
-/
structure ConstraintsCores where
  desc : Nat → Nat
  described : Nat → CloudMethodResourceDescription
  /-- Whether the array `cores` has the list of a core -/
  cores : Nat → Nat → Bool
  unfulfilledConstraints : Nat → List Nat
  /-- The constraints that were joined in a description -/
  joined : Nat → List CloudMethodResourceDescription
  /-- Whether every step so far has met its condition -/
  kept : Bool

/-- The lists of the architectures, in the order of the map -/
abbrev Arch2Constraints := List (Option String × List Nat)

namespace ConstraintsCores

variable
  (state : ConstraintsCores)
  (cc : Nat)

def description :
    CloudMethodResourceDescription :=
  state.described (state.desc cc)

/-- The constraints that the description of an object stands for -/
def standsFor :
    List CloudMethodResourceDescription :=
  state.joined (state.desc cc)

/-!
## The condition on the steps
-/

variable (coreCount : Nat)

/--
No list of a core that both have loses its last object, and the joined
description decides nothing against what the two stand for.
-/
def JoinKept
    (state : ConstraintsCores)
    (this c2 : Nat) :
    Prop :=
  (∀ coreId < coreCount,
    state.cores this coreId → state.cores c2 coreId →
      (state.unfulfilledConstraints coreId).erase c2 ≠ []) ∧
  (∀ constraints ∈ state.standsFor this,
    ((state.description this).increase (state.description c2)).namesAgree
      constraints) ∧
  ∀ constraints ∈ state.standsFor c2,
    (state.description this).JoinKeeps (state.description c2) constraints

/-- The architecture decides nothing against what the description stands for. -/
def ArchitectureKept
    (arch : Option String) :
    Prop :=
  ∀ constraints ∈ state.standsFor cc,
    (state.description cc).ArchitectureKeeps arch constraints

instance (this mrd2 rc2 : CloudMethodResourceDescription) :
    Decidable (this.JoinKeeps mrd2 rc2) :=
  decidable_of_iff
    ((this.increase mrd2).namesAgree rc2 ∧
      (mrd2.memorySize.isSome ∨ this.memorySize = none ∨
        rc2.memorySize = none) ∧
      ∀ q ∈ rc2.processors, ∀ p ∈ mrd2.processors,
        checkProcessorCompatibility p.kind q.kind →
          ∀ serving ∈ servingKind (this.increase mrd2).kinds p.kind,
            checkProcessorCompatibility serving q.kind)
    ⟨fun ⟨names, memorySize, processors⟩ => ⟨names, memorySize, processors⟩,
      fun ⟨names, memorySize, processors⟩ => ⟨names, memorySize, processors⟩⟩

instance (this rc2 : CloudMethodResourceDescription) (arch : Option String) :
    Decidable (this.ArchitectureKeeps arch rc2) :=
  inferInstanceAs (Decidable (∀ _ ∈ _, ∀ _ ∈ _, _ → _))

instance
    (coreCount : Nat)
    (state : ConstraintsCores)
    (this c2 : Nat) :
    Decidable (JoinKept coreCount state this c2) :=
  inferInstanceAs (Decidable ((∀ _ < _, _ → _ → _) ∧ (∀ _ ∈ _, _) ∧ ∀ _ ∈ _, _))

instance (state : ConstraintsCores) (cc : Nat) (arch : Option String) :
    Decidable (ArchitectureKept state cc arch) :=
  inferInstanceAs (Decidable (∀ _ ∈ _, _))

/-!
## The steps
-/

/-- From then on both objects have the description of the first. -/
def join
    (state : ConstraintsCores)
    (this c2 : Nat) :
    ConstraintsCores where
  desc := update state.desc c2 (state.desc this)
  described :=
    update state.described (state.desc this)
      ((state.description this).increase (state.description c2))
  cores cc coreId :=
    if cc = this ∨ cc = c2 then
      state.cores this coreId || state.cores c2 coreId
    else
      state.cores cc coreId
  unfulfilledConstraints coreId :=
    if state.cores this coreId && state.cores c2 coreId then
      (state.unfulfilledConstraints coreId).erase c2
    else
      state.unfulfilledConstraints coreId
  joined :=
    update state.joined (state.desc this)
      (state.standsFor this ++ state.standsFor c2)
  kept := state.kept && decide (JoinKept coreCount state this c2)

def setArchitecture
    (state : ConstraintsCores)
    (cc : Nat)
    (arch : Option String) :
    ConstraintsCores :=
  { state with
    described :=
      update state.described (state.desc cc)
        ((state.description cc).setArchitecture arch)
    kept := state.kept && decide (ArchitectureKept state cc arch) }

/-- Clears the lists of all the cores that the object has. -/
def confirmed : ConstraintsCores :=
  { state with
    unfulfilledConstraints := fun coreId =>
      if state.cores cc coreId then []
      else state.unfulfilledConstraints coreId }

/-!
## Joining the constraints of each architecture
-/

/--
The inner loop: those that agree with the system of `i` before the loop are
joined to it and removed from the live list.  Also returns the others.
-/
def joinCompatible
    (coreCount i : Nat)
    (OS : Option String) :
    List Nat → ConstraintsCores → List Nat →
      ConstraintsCores × List Nat × List Nat
  | [], state, arch => (state, arch, [])
  | j :: ctrs, state, arch =>
      if checkCompatibility OS (state.description j).operatingSystemType then
        joinCompatible coreCount i OS ctrs (state.join coreCount i j)
          (arch.erase j)
      else
        let (state, arch, others) :=
          joinCompatible coreCount i OS ctrs state arch
        (state, arch, j :: others)

/-- The outer loop over those that were not merged yet, with a bound on them -/
def reduceConstraints
    (coreCount : Nat) :
    Nat → List Nat → ConstraintsCores → List Nat → ConstraintsCores × List Nat
  | 0, _, state, arch => (state, arch)
  | _ + 1, [], state, arch => (state, arch)
  | bound + 1, i :: ctrs, state, arch =>
      let (state, arch, others) :=
        joinCompatible coreCount i (state.description i).operatingSystemType
          ctrs state arch
      reduceConstraints coreCount bound others state arch

def reduceArchitecturesConstraints
    (coreCount : Nat) :
    ConstraintsCores → Arch2Constraints → ConstraintsCores × Arch2Constraints
  | state, [] => (state, [])
  | state, (key, arch) :: archs =>
      let (state, arch) :=
        reduceConstraints coreCount arch.length arch state arch
      let (state, archs) :=
        reduceArchitecturesConstraints coreCount state archs
      (state, (key, arch) :: archs)

/-!
## Constraints without an architecture
-/

/-- `Float.MAX_VALUE` -/
def FLOAT_MAX_VALUE : ℚ := (2 ^ 24 - 1) * 2 ^ 104

/-- One round of the loop for the best architecture -/
def betterArchitecture
    (candidate : CloudMethodResourceDescription)
    (best : Option String × ℚ)
    (option : CloudMethodResourceDescription) :
    Option String × ℚ :=
  let difference := candidate.difference option
  if best.2 < 0 ∧ difference < 0 ∧ difference > best.2 ∨
      0 ≤ best.2 ∧ difference < best.2 then
    (option.getArchitectures.head?.getD best.1, difference)
  else
    best

def bestArch
    (assignedList : List Nat)
    (unassigned : Nat) :
    Option String :=
  ((assignedList.map state.description).foldl
    (betterArchitecture (state.description unassigned))
    (none, FLOAT_MAX_VALUE)).1

def addTo
    (archs : Arch2Constraints)
    (key : Option String)
    (ccs : List Nat) :
    Arch2Constraints :=
  archs.map fun (other, arch) =>
    (other, if other = key then arch ++ ccs else arch)

/--
The loop over the list of those without an architecture.  One whose best
architecture is the unassigned one comes to the end of the list again.  Without
enough rounds, or without a list for the architecture, there is no result.
-/
def assignArchitectures
    (assignedList : List Nat) :
    Nat → List Nat → ConstraintsCores → Arch2Constraints →
      Option (ConstraintsCores × Arch2Constraints)
  | _, [], state, archs => some (state, archs)
  | 0, _ :: _, _, _ => none
  | rounds + 1, unassigned :: unassignedList, state, archs =>
      let arch := state.bestArch assignedList unassigned
      let state := state.setArchitecture unassigned arch
      if arch = none then
        assignArchitectures assignedList rounds
          (unassignedList ++ [unassigned]) state archs
      else if archs.any fun entry => entry.1 = arch then
        assignArchitectures assignedList rounds unassignedList state
          (addTo archs arch [unassigned])
      else
        none

def reassignUnassignedConstraints
    (rounds : Nat)
    (state : ConstraintsCores)
    (archs : Arch2Constraints) :
    Option (ConstraintsCores × Arch2Constraints) :=
  match archs.lookup none with
  | none => some (state, archs)
  | some unassignedList =>
      if archs.length = 1 then
        some (state, archs)
      else if archs.length = 2 then
        some (state, archs.map fun (key, arch) =>
          (key, if key = none then arch else arch ++ unassignedList))
      else
        let assigned := archs.filter fun entry => entry.1 ≠ none
        let emptied :=
          archs.map fun (key, arch) => (key, if key = none then [] else arch)
        assignArchitectures (assigned.flatMap fun entry => entry.2) rounds
          unassignedList state emptied

/-!
## Requests
-/

/-- An object is removed from the list of a core and confirmed. -/
def request
    (coreId cc : Nat)
    (rest : List Nat) :
    ConstraintsCores :=
  let removed :=
    { state with
      unfulfilledConstraints :=
        update state.unfulfilledConstraints coreId rest }
  removed.confirmed cc

/-- The loop over the list of a core, with a bound on its rounds -/
def requestCore
    (coreId : Nat) :
    Nat → ConstraintsCores → List CloudMethodResourceDescription →
      ConstraintsCores × List CloudMethodResourceDescription
  | 0, state, requested => (state, requested)
  | bound + 1, state, requested =>
      match state.unfulfilledConstraints coreId with
      | [] => (state, requested)
      | cc :: rest =>
          requestCore coreId bound (state.request coreId cc rest)
            (requested ++ [state.description cc])

def requestCores :
    List Nat → ConstraintsCores → List CloudMethodResourceDescription →
      ConstraintsCores × List CloudMethodResourceDescription
  | [], state, requested => (state, requested)
  | coreId :: coreIds, state, requested =>
      let (state, requested) :=
        requestCore coreId (state.unfulfilledConstraints coreId).length state
          requested
      requestCores coreIds state requested

end ConstraintsCores

def CloudMethodResourceDescription.empty : CloudMethodResourceDescription where
  toMethodResourceDescription := MethodResourceDescription.empty
  storageSize := none
  storageType := none
  operatingSystemType := none
  operatingSystemDistribution := none
  operatingSystemVersion := none
  appSoftware := []
  hostQueues := []

/-- How the map of the architectures is iterated -/
structure IterationOrder where
  arranged : Arch2Constraints → Arch2Constraints
  arranged_perm : ∀ archs, (arranged archs).Perm archs

namespace RegisteredCores

open ConstraintsCores

variable (registered : RegisteredCores)

def getUnfulfilledConstraints :
    ConstraintsCores where
  desc cc := cc
  described cc :=
    (registered.unfulfilledMethods[cc]?).elim .empty fun method =>
      method.2.description
  cores cc coreId :=
    (registered.unfulfilledMethods[cc]?).any fun method => method.1 = coreId
  unfulfilledConstraints coreId :=
    (range registered.unfulfilledMethods.length).filter fun cc =>
      (registered.unfulfilledMethods[cc]?).any fun method => method.1 = coreId
  joined cc :=
    (registered.unfulfilledMethods[cc]?).toList.map fun method =>
      method.2.description
  kept := true

/-- Puts an object in the list of an architecture, which may be new. -/
def classify
    (archs : Arch2Constraints)
    (key : Option String)
    (cc : Nat) :
    Arch2Constraints :=
  if archs.any fun entry => entry.1 = key then
    addTo archs key [cc]
  else
    archs ++ [(key, [cc])]

/-- The objects of each architecture, in the order of their cores -/
def classifyArchitectures
    (state : ConstraintsCores) :
    Arch2Constraints :=
  (range registered.unfulfilledMethods.length).foldl
    (fun archs cc =>
      (state.description cc).getArchitectures.foldl
        (fun archs key => classify archs key cc) archs)
    []

variable (order : IterationOrder)

/-- What is requested, if the unassigned constraints are reassigned in time -/
def addBasicNodes
    (rounds : Nat) :
    Option (ConstraintsCores × List CloudMethodResourceDescription) :=
  let coreCount := registered.cores.length
  let state := registered.getUnfulfilledConstraints
  if registered.unfulfilledMethods = [] then
    some (state, [])
  else
    let archs := order.arranged (registered.classifyArchitectures state)
    let (state, archs) := reduceArchitecturesConstraints coreCount state archs
    match reassignUnassignedConstraints rounds state archs with
    | none => none
    | some (state, archs) =>
        let (state, _) := reduceArchitecturesConstraints coreCount state archs
        some (requestCores (range coreCount) state [])

/-- The initial creations are made and leave no core without a machine for it. -/
def CreationsCover :
    Prop :=
  ∃ rounds state requested,
    registered.addBasicNodes order rounds = some (state, requested) ∧
      ∀ coreId, registered.NeedsResources coreId →
        ∃ description ∈ requested, ∃ constraints,
          registered.Accepts coreId constraints ∧
            description.contains constraints

/-- Nothing is put back for another round, and every step meets its condition. -/
def StepsKept :
    Prop :=
  ∃ state requested,
    registered.addBasicNodes order registered.unfulfilledMethods.length =
        some (state, requested) ∧
      state.kept

end RegisteredCores

/-!
## What the steps keep
-/

namespace ConstraintsCores

/-- Every core has an object left, which stands for one of its methods. -/
structure Represents
    (registered : RegisteredCores)
    (state : ConstraintsCores) :
    Prop where
  own :
    ∀ coreId, ∀ cc ∈ state.unfulfilledConstraints coreId, state.cores cc coreId
  methods :
    ∀ cc coreId, state.cores cc coreId →
      ∃ constraints ∈ state.standsFor cc, registered.Accepts coreId constraints
  joined :
    ∀ object, ∀ constraints ∈ state.joined object,
      (state.described object).StandsFor constraints
  nonNegative : ∀ object, (state.described object).NoNegativeAmounts
  waiting :
    ∀ coreId, registered.NeedsResources coreId →
      state.unfulfilledConstraints coreId ≠ []

variable
  {registered : RegisteredCores}
  {state : ConstraintsCores}

theorem lt_of_accepts
    {coreId : Nat}
    {constraints : CloudMethodResourceDescription}
    (accepts : registered.Accepts coreId constraints) :
    coreId < registered.cores.length := by
  obtain ⟨method, isMethod, isCore, -⟩ := accepts
  obtain ⟨⟨impls, position⟩, isEntry, isMethod⟩ := mem_flatMap.mp isMethod
  have isPosition := (mem_zipIdx' isEntry).1
  dsimp only at isMethod
  split at isMethod
  case isFalse => exact nomatch isMethod
  case isTrue =>
    obtain ⟨impl, -, isMethod⟩ := mem_filterMap.mp isMethod
    split at isMethod
    · cases isMethod
      exact isCore ▸ isPosition
    · exact nomatch isMethod

section Join

variable
  {coreCount : Nat}
  {this c2 : Nat}

theorem standsFor_join
    {cc : Nat}
    (isJoined : cc = this ∨ cc = c2) :
    (state.join coreCount this c2).standsFor cc =
      state.standsFor this ++ state.standsFor c2 := by
  have isFirst :
      (state.join coreCount this c2).desc cc = state.desc this := by
    by_cases isSecond : cc = c2
    · rw [isSecond]
      exact update_self ..
    · rw [← isJoined.resolve_right isSecond]
      exact update_of_ne isSecond ..
  rw [standsFor, isFirst]
  exact update_self ..

/-- A description still stands for all that it stood for. -/
theorem standsFor_subset_join (cc : Nat) :
    state.standsFor cc ⊆ (state.join coreCount this c2).standsFor cc := by
  by_cases isSecond : cc = c2
  case pos =>
    rw [standsFor_join (Or.inr isSecond), isSecond]
    exact subset_append_right _ _
  case neg =>
    have sameObject : (state.join coreCount this c2).desc cc = state.desc cc :=
      update_of_ne isSecond ..
    rw [standsFor, standsFor, sameObject]
    dsimp only [join]
    by_cases isFirst : state.desc cc = state.desc this
    · rw [isFirst, update_self]
      exact subset_append_left _ _
    · rw [update_of_ne isFirst]
      exact List.Subset.refl _

end Join

section

variable (represents : state.Represents registered)

include represents

theorem represents_join
    {this c2 : Nat}
    (kept : JoinKept registered.cores.length state this c2) :
    (state.join registered.cores.length this c2).Represents registered := by
  obtain ⟨othersLeft, namesKept, joinKeeps⟩ := kept
  constructor
  case own =>
    intro coreId cc isWaiting
    have wasWaiting : cc ∈ state.unfulfilledConstraints coreId := by
      dsimp only [join] at isWaiting
      split at isWaiting
      · exact mem_of_mem_erase isWaiting
      · exact isWaiting
    have isOwn := represents.own coreId cc wasWaiting
    dsimp only [join]
    split
    case isTrue isJoined =>
      rw [Bool.or_eq_true]
      rcases isJoined with isThis | isSecond
      · exact Or.inl (isThis ▸ isOwn)
      · exact Or.inr (isSecond ▸ isOwn)
    case isFalse => exact isOwn
  case methods =>
    intro cc coreId isCore
    dsimp only [join] at isCore
    split at isCore
    case isTrue isJoined =>
      rw [standsFor_join isJoined]
      rcases Bool.or_eq_true_iff.mp isCore with ofThis | ofSecond
      · obtain ⟨constraints, isJoined, accepts⟩ :=
          represents.methods this coreId ofThis
        exact ⟨constraints, mem_append_left _ isJoined, accepts⟩
      · obtain ⟨constraints, isJoined, accepts⟩ :=
          represents.methods c2 coreId ofSecond
        exact ⟨constraints, mem_append_right _ isJoined, accepts⟩
    case isFalse =>
      obtain ⟨constraints, isJoined, accepts⟩ :=
        represents.methods cc coreId isCore
      exact ⟨constraints, standsFor_subset_join cc isJoined, accepts⟩
  case joined =>
    intro object constraints isJoined
    dsimp only [join] at isJoined ⊢
    by_cases isFirst : object = state.desc this
    case pos =>
      rw [isFirst, update_self] at isJoined ⊢
      rcases mem_append.mp isJoined with ofThis | ofSecond
      · exact (represents.joined _ constraints ofThis).left
          (represents.nonNegative _) (represents.nonNegative _)
          (namesKept constraints ofThis)
      · exact (represents.joined _ constraints ofSecond).right
          (represents.nonNegative _) (represents.nonNegative _)
          (joinKeeps constraints ofSecond)
    case neg =>
      rw [update_of_ne isFirst] at isJoined ⊢
      exact represents.joined object constraints isJoined
  case nonNegative =>
    intro object
    dsimp only [join]
    by_cases isFirst : object = state.desc this
    · rw [isFirst, update_self]
      exact noNegativeAmounts_increase (represents.nonNegative _)
        (represents.nonNegative _)
    · rw [update_of_ne isFirst]
      exact represents.nonNegative object
  case waiting =>
    intro coreId needs
    dsimp only [join]
    split
    case isTrue both =>
      rw [Bool.and_eq_true] at both
      obtain ⟨_, accepts⟩ := needs
      exact othersLeft coreId (lt_of_accepts accepts) both.1 both.2
    case isFalse => exact represents.waiting coreId needs

theorem represents_setArchitecture
    {cc : Nat}
    {arch : Option String}
    (kept : ArchitectureKept state cc arch) :
    (state.setArchitecture cc arch).Represents registered := by
  refine ⟨represents.own, represents.methods, ?_, ?_, represents.waiting⟩
  case refine_1 =>
    intro object constraints isJoined
    change constraints ∈ state.joined object at isJoined
    dsimp only [setArchitecture]
    by_cases isFirst : object = state.desc cc
    · rw [isFirst] at isJoined
      rw [isFirst, update_self]
      exact (represents.joined _ constraints isJoined).setArchitecture
        (kept constraints isJoined)
    · rw [update_of_ne isFirst]
      exact represents.joined object constraints isJoined
  case refine_2 =>
    intro object
    dsimp only [setArchitecture]
    by_cases isFirst : object = state.desc cc
    · rw [isFirst, update_self]
      exact noNegativeAmounts_setArchitecture (represents.nonNegative _)
    · rw [update_of_ne isFirst]
      exact represents.nonNegative object

end

/-!
## What the loops keep
-/

/-- A property of the objects that no step breaks -/
structure PreservedBySteps
    (coreCount : Nat)
    (Holds : ConstraintsCores → Prop) :
    Prop where
  join :
    ∀ {state} this c2, Holds state → Holds (state.join coreCount this c2)
  setArchitecture :
    ∀ {state} cc arch, Holds state → Holds (state.setArchitecture cc arch)

section Loops

variable
  {coreCount : Nat}
  {Holds : ConstraintsCores → Prop}
  {ctrs arch : List Nat}
  (preserved : PreservedBySteps coreCount Holds)

include preserved

variable (holds : Holds state)

include holds

theorem joinCompatible_preserves
    {i : Nat}
    {OS : Option String} :
    Holds (joinCompatible coreCount i OS ctrs state arch).1 := by
  induction ctrs generalizing state arch with
  | nil => exact holds
  | cons j rest hypothesis =>
      rw [joinCompatible]
      split
      case isTrue => exact hypothesis (preserved.join i j holds)
      case isFalse => exact hypothesis holds

theorem reduceConstraints_preserves
    {bound : Nat} :
    Holds (reduceConstraints coreCount bound ctrs state arch).1 := by
  induction bound generalizing state ctrs arch with
  | zero => exact holds
  | succ bound hypothesis =>
      cases ctrs with
      | nil => exact holds
      | cons i rest =>
          exact hypothesis (joinCompatible_preserves preserved holds)

theorem reduceArchitecturesConstraints_preserves
    {archs : Arch2Constraints} :
    Holds (reduceArchitecturesConstraints coreCount state archs).1 := by
  induction archs generalizing state with
  | nil => exact holds
  | cons entry rest hypothesis =>
      exact hypothesis (reduceConstraints_preserves preserved holds)

variable {rounds : Nat}

theorem assignArchitectures_preserves
    {assignedList unassignedList : List Nat}
    {archs after : Arch2Constraints}
    {assigned : ConstraintsCores}
    (finished :
      assignArchitectures assignedList rounds unassignedList state archs =
        some (assigned, after)) :
    Holds assigned := by
  induction rounds generalizing state unassignedList archs with
  | zero =>
      cases unassignedList with
      | nil =>
          cases finished
          exact holds
      | cons => exact nomatch finished
  | succ rounds hypothesis =>
      cases unassignedList with
      | nil =>
          cases finished
          exact holds
      | cons unassigned rest =>
          have next :=
            preserved.setArchitecture unassigned
              (state.bestArch assignedList unassigned) holds
          unfold assignArchitectures at finished
          dsimp only at finished
          split at finished
          case isTrue => exact hypothesis next finished
          case isFalse =>
            split at finished
            case isTrue => exact hypothesis next finished
            case isFalse => exact nomatch finished

theorem reassignUnassignedConstraints_preserves
    {archs after : Arch2Constraints}
    {reassigned : ConstraintsCores}
    (finished :
      reassignUnassignedConstraints rounds state archs =
        some (reassigned, after)) :
    Holds reassigned := by
  rw [reassignUnassignedConstraints] at finished
  split at finished
  case h_1 =>
    cases finished
    exact holds
  case h_2 =>
    split at finished
    case isTrue =>
      cases finished
      exact holds
    case isFalse =>
      split at finished
      case isTrue =>
        cases finished
        exact holds
      case isFalse =>
        exact assignArchitectures_preserves preserved holds finished

end Loops

/-- As long as every step meets its condition, nothing is lost. -/
def RepresentsIfKept
    (registered : RegisteredCores)
    (state : ConstraintsCores) :
    Prop :=
  state.kept → state.Represents registered

theorem representsIfKept_preserved :
    PreservedBySteps registered.cores.length
      (RepresentsIfKept registered) := by
  constructor
  case join =>
    intro state this c2 holds kept
    obtain ⟨keptBefore, joinKept⟩ := (Bool.and_eq_true _ _).mp kept
    exact represents_join (holds keptBefore) (of_decide_eq_true joinKept)
  case setArchitecture =>
    intro state cc arch holds kept
    obtain ⟨keptBefore, architectureKept⟩ := (Bool.and_eq_true _ _).mp kept
    exact represents_setArchitecture (holds keptBefore)
      (of_decide_eq_true architectureKept)

/-- At the start, an object stands for the method that it was made for. -/
theorem cores_start
    {cc coreId : Nat} :
    registered.getUnfulfilledConstraints.cores cc coreId ↔
      ∃ method, registered.unfulfilledMethods[cc]? = some method ∧
        method.1 = coreId := by
  change ((registered.unfulfilledMethods[cc]?).any
    fun method => method.1 = coreId) = true ↔ _
  cases registered.unfulfilledMethods[cc]? with
  | none => simp
  | some method => simp

theorem represents_start :
    registered.getUnfulfilledConstraints.Represents registered := by
  constructor
  case own =>
    intro coreId cc isWaiting
    exact (mem_filter.mp isWaiting).2
  case methods =>
    intro cc coreId isCore
    obtain ⟨method, isMethod, ofCore⟩ := cores_start.mp isCore
    refine ⟨method.2.description, ?_,
      method, mem_of_getElem? isMethod, ofCore, rfl⟩
    change method.2.description ∈
      (registered.unfulfilledMethods[cc]?).toList.map _
    rw [isMethod]
    exact mem_singleton.mpr rfl
  case joined =>
    intro object constraints isJoined
    obtain ⟨method, isMethod, same⟩ := mem_map.mp isJoined
    have isMethod := Option.mem_toList.mp isMethod
    change (Option.elim _ _ _ : CloudMethodResourceDescription).StandsFor _
    rw [Option.mem_def.mp isMethod, ← same]
    exact StandsFor.refl _
  case nonNegative =>
    intro object
    change (Option.elim _ _ _ : CloudMethodResourceDescription).NoNegativeAmounts
    cases registered.unfulfilledMethods[object]? with
    | none =>
        exact ⟨fun _ isProcessor => absurd isProcessor not_mem_nil,
          fun _ isSize => absurd isSize (Option.some_ne_none _).symm⟩
    | some method => exact method.2.noNegativeAmounts
  case waiting =>
    intro coreId needs
    obtain ⟨constraints, method, isMethod, ofCore, -⟩ := needs
    obtain ⟨cc, isPosition, isMethod⟩ := mem_iff_getElem.mp isMethod
    have isMethod := getElem?_eq_some_iff.mpr ⟨isPosition, isMethod⟩
    exact ne_nil_of_mem (mem_filter.mpr
      ⟨mem_range.mpr isPosition, cores_start.mpr ⟨method, isMethod, ofCore⟩⟩)

/-!
## What the requests cover
-/

/-- What the requests rely on, and what they have covered so far -/
structure Requesting
    (registered : RegisteredCores)
    (state : ConstraintsCores)
    (requested : List CloudMethodResourceDescription) :
    Prop where
  own :
    ∀ coreId, ∀ cc ∈ state.unfulfilledConstraints coreId, state.cores cc coreId
  contains :
    ∀ cc coreId, state.cores cc coreId →
      ∃ constraints, registered.Accepts coreId constraints ∧
        (state.description cc).contains constraints
  covered :
    ∀ coreId, registered.NeedsResources coreId →
      state.unfulfilledConstraints coreId ≠ [] ∨
        ∃ description ∈ requested, ∃ constraints,
          registered.Accepts coreId constraints ∧
            description.contains constraints

theorem requesting_start
    (represents : state.Represents registered) :
    state.Requesting registered [] := by
  refine ⟨represents.own, ?_, ?_⟩
  case refine_1 =>
    intro cc coreId isCore
    obtain ⟨constraints, isJoined, accepts⟩ :=
      represents.methods cc coreId isCore
    exact ⟨constraints, accepts,
      (represents.joined _ constraints isJoined).contains⟩
  case refine_2 =>
    intro coreId needs
    exact Or.inl (represents.waiting coreId needs)

variable
  {requested : List CloudMethodResourceDescription}
  {coreId : Nat}
  {cc other : Nat}
  {rest : List Nat}

theorem unfulfilledConstraints_request :
    (state.request coreId cc rest).unfulfilledConstraints other =
      if state.cores cc other then []
      else if other = coreId then rest
      else state.unfulfilledConstraints other := by
  dsimp only [request, confirmed]
  rw [update_apply]

/-- The lists that a request clears are of cores that it covers. -/
theorem requesting_request
    (requesting : state.Requesting registered requested)
    (first : state.unfulfilledConstraints coreId = cc :: rest) :
    (state.request coreId cc rest).Requesting registered
      (requested ++ [state.description cc]) := by
  have isOwn : state.cores cc coreId :=
    requesting.own coreId cc (first ▸ mem_cons_self)
  refine ⟨?_, requesting.contains, ?_⟩
  case refine_1 =>
    intro other object isWaiting
    rw [unfulfilledConstraints_request] at isWaiting
    split at isWaiting
    · exact nomatch isWaiting
    split at isWaiting
    case isTrue isCore =>
      rw [isCore]
      exact requesting.own coreId object
        (first ▸ mem_cons_of_mem _ isWaiting)
    case isFalse => exact requesting.own other object isWaiting
  case refine_2 =>
    intro other needs
    rw [unfulfilledConstraints_request]
    split
    case isTrue isCovered =>
      obtain ⟨constraints, accepts, contains⟩ :=
        requesting.contains cc other isCovered
      exact Or.inr ⟨_, mem_append_right _ mem_cons_self,
        constraints, accepts, contains⟩
    case isFalse notCovered =>
      have notCore : other ≠ coreId := fun same => notCovered (same ▸ isOwn)
      rw [if_neg notCore]
      rcases requesting.covered other needs with isWaiting | isCovered
      · exact Or.inl isWaiting
      · obtain ⟨description, isRequested, covers⟩ := isCovered
        exact Or.inr ⟨description, mem_append_left _ isRequested, covers⟩

/-- A list that is empty stays so. -/
theorem unfulfilledConstraints_request_eq_nil
    (first : state.unfulfilledConstraints coreId = cc :: rest)
    (isEmpty : state.unfulfilledConstraints other = []) :
    (state.request coreId cc rest).unfulfilledConstraints other = [] := by
  rw [unfulfilledConstraints_request]
  split
  · rfl
  have notCore : other ≠ coreId := by
    intro same
    rw [same, first] at isEmpty
    exact nomatch isEmpty
  rw [if_neg notCore]
  exact isEmpty

section Requests

variable
  {after : ConstraintsCores}
  {all : List CloudMethodResourceDescription}
  {bound : Nat}

theorem requestCore_covers
    (requesting : state.Requesting registered requested)
    (enough : (state.unfulfilledConstraints coreId).length ≤ bound)
    (finished : requestCore coreId bound state requested = (after, all)) :
    after.Requesting registered all ∧
      after.unfulfilledConstraints coreId = [] ∧
      ∀ other, state.unfulfilledConstraints other = [] →
        after.unfulfilledConstraints other = [] := by
  induction bound generalizing state requested with
  | zero =>
      cases finished
      exact ⟨requesting, length_eq_zero_iff.mp (by omega),
        fun _ isEmpty => isEmpty⟩
  | succ bound hypothesis =>
      rw [requestCore] at finished
      split at finished
      case h_1 isEmpty =>
        cases finished
        exact ⟨requesting, isEmpty, fun _ wasEmpty => wasEmpty⟩
      case h_2 cc rest first =>
        have isOwn : state.cores cc coreId :=
          requesting.own coreId cc (first ▸ mem_cons_self)
        have isCleared :
            (state.request coreId cc rest).unfulfilledConstraints coreId =
              [] := by
          rw [unfulfilledConstraints_request, if_pos isOwn]
        obtain ⟨covers, isEmpty, othersEmpty⟩ :=
          hypothesis (requesting_request requesting first)
            (by rw [isCleared]; exact Nat.zero_le _) finished
        exact ⟨covers, isEmpty, fun other wasEmpty => othersEmpty other
          (unfulfilledConstraints_request_eq_nil first wasEmpty)⟩

variable {coreIds : List Nat}

theorem requestCores_covers
    (requesting : state.Requesting registered requested)
    (finished : requestCores coreIds state requested = (after, all)) :
    after.Requesting registered all ∧
      (∀ coreId ∈ coreIds, after.unfulfilledConstraints coreId = []) ∧
      ∀ other, state.unfulfilledConstraints other = [] →
        after.unfulfilledConstraints other = [] := by
  induction coreIds generalizing state requested with
  | nil =>
      cases finished
      exact ⟨requesting, nofun, fun _ isEmpty => isEmpty⟩
  | cons coreId rest hypothesis =>
      obtain ⟨between, isCleared, keptEmpty⟩ :=
        requestCore_covers requesting (Nat.le_refl _) rfl
      obtain ⟨covers, restCleared, othersEmpty⟩ :=
        hypothesis between finished
      refine ⟨covers, ?_, ?_⟩
      case refine_1 =>
        exact forall_mem_cons.mpr
          ⟨othersEmpty coreId isCleared, restCleared⟩
      case refine_2 =>
        exact fun other isEmpty => othersEmpty other (keptEmpty other isEmpty)

theorem requestCore_kept
    (finished : requestCore coreId bound state requested = (after, all)) :
    after.kept = state.kept := by
  induction bound generalizing state requested with
  | zero =>
      cases finished
      rfl
  | succ bound hypothesis =>
      rw [requestCore] at finished
      split at finished
      · cases finished
        rfl
      · have sameKept := hypothesis finished
        exact sameKept

theorem requestCores_kept
    (finished : requestCores coreIds state requested = (after, all)) :
    after.kept = state.kept := by
  induction coreIds generalizing state requested with
  | nil =>
      cases finished
      rfl
  | cons coreId rest hypothesis =>
      exact (hypothesis finished).trans (requestCore_kept rfl)

end Requests

end ConstraintsCores

namespace RegisteredCores

open ConstraintsCores

variable
  {registered : RegisteredCores}
  {order : IterationOrder}
  {rounds : Nat}
  {state : ConstraintsCores}
  {requested : List CloudMethodResourceDescription}

/--
The lists of the cores survive each of the reductions, and the requests empty
them all.
-/
theorem addBasicNodes_covers
    (finished :
      registered.addBasicNodes order rounds = some (state, requested))
    (kept : state.kept)
    {coreId : Nat}
    (needs : registered.NeedsResources coreId) :
    ∃ description ∈ requested, ∃ constraints,
      registered.Accepts coreId constraints ∧
        description.contains constraints := by
  have ⟨_, accepts⟩ := needs
  have isCore := lt_of_accepts accepts
  unfold addBasicNodes at finished
  dsimp only at finished
  split at finished
  case isTrue noMethods =>
    obtain ⟨method, isMethod, -⟩ := accepts
    rw [noMethods] at isMethod
    exact nomatch isMethod
  case isFalse =>
    have atStart :
        RepresentsIfKept registered registered.getUnfulfilledConstraints :=
      fun _ => represents_start
    split at finished
    case h_1 => exact nomatch finished
    case h_2 reassignedState archs reassigned =>
      have requests := Option.some.inj finished
      have reassignedHolds :=
        reassignUnassignedConstraints_preserves representsIfKept_preserved
          (reduceArchitecturesConstraints_preserves
            representsIfKept_preserved atStart)
          reassigned
      have represents :=
        reduceArchitecturesConstraints_preserves representsIfKept_preserved
          reassignedHolds
          (by rw [← requestCores_kept requests]; exact kept)
      obtain ⟨requesting, isCleared, -⟩ :=
        requestCores_covers (requesting_start represents) requests
      have isEmpty := isCleared coreId (mem_range.mpr isCore)
      exact (requesting.covered coreId needs).resolve_left (absurd isEmpty)

section Examples

/-- A method that asks for one computing unit -/
def oneUnit (architecture operatingSystemType : Option String) :
    CoreImplementation MethodConstraints where
  taskType := .METHOD
  requirements :=
    { description :=
        { empty with
          processors :=
            [⟨{ ProcessorKind.unassigned with architecture := architecture }, 1⟩]
          operatingSystemType := operatingSystemType }
      noNegativeAmounts := ⟨by simp, nofun⟩ }

def inOrder : IterationOrder where
  arranged archs := archs
  arranged_perm _ := .refl _

/-- The second core is joined to the first, whose architecture it gets. -/
def twoArchitectures : RegisteredCores where
  cores := [[oneUnit (some "Intel") none], [oneUnit none none]]
  totalSlots _ := 0

/-- The first core leaves the system open. -/
def twoSystems : RegisteredCores where
  cores :=
    [[oneUnit none none], [oneUnit none (some "Linux")],
      [oneUnit none (some "Windows")]]
  totalSlots _ := 0

end Examples

end RegisteredCores

end DistributedRdf.Resources
