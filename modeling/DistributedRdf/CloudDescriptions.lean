import DistributedRdf.Workers

namespace DistributedRdf.Scheduling

open Option

/-!
# Processors that are joined
-/

section OneProcessor

variable
  {p : Processor}
  {processors after : List Processor}
  {serving : ProcessorKind}

section

variable (increased : increaseProcessor p processors = some (after, serving))

include increased

/-- Nothing gets smaller. -/
theorem increaseProcessor_grows
    (nonNegative : 0 ≤ p.computingUnits)
    {pThis : Processor}
    (isProcessor : pThis ∈ processors) :
    ∃ pNew ∈ after,
      pNew.kind = pThis.kind ∧ pThis.computingUnits ≤ pNew.computingUnits := by
  induction processors generalizing after with
  | nil => exact nomatch isProcessor
  | cons first rest hypothesis =>
      rw [increaseProcessor] at increased
      split at increased
      case isTrue compatible =>
        cases increased
        rcases List.mem_cons.mp isProcessor with isFirst | isLater
        · rw [isFirst]
          exact ⟨_, List.mem_cons_self, rfl, by dsimp only; omega⟩
        · exact ⟨pThis, List.mem_cons_of_mem _ isLater, rfl, Int.le_refl _⟩
      case isFalse incompatible =>
        obtain ⟨⟨restAfter, _⟩, restIncreased, same⟩ :=
          map_eq_some_iff.mp increased
        cases same
        rcases List.mem_cons.mp isProcessor with isFirst | isLater
        · rw [isFirst]
          exact ⟨first, List.mem_cons_self, rfl, Int.le_refl _⟩
        · obtain ⟨pNew, isNew, grows⟩ :=
            hypothesis restIncreased isLater
          exact ⟨pNew, List.mem_cons_of_mem _ isNew, grows⟩

/-- The first compatible processor has room for one more. -/
theorem increaseProcessor_merges
    (nonNegative : ∀ pThis ∈ processors, 0 ≤ pThis.computingUnits) :
    servingKind (processors.map (·.kind)) p.kind = some serving ∧
      after.map (·.kind) = processors.map (·.kind) ∧
      ∃ pNew ∈ after,
        pNew.kind = serving ∧ p.computingUnits ≤ pNew.computingUnits := by
  induction processors generalizing after with
  | nil => exact nomatch increased
  | cons first rest hypothesis =>
      rw [increaseProcessor] at increased
      rw [List.map_cons, servingKind_cons]
      split at increased
      case isTrue compatible =>
        cases increased
        have firstNonNegative := nonNegative first List.mem_cons_self
        rw [if_pos compatible]
        exact ⟨rfl, rfl, _, List.mem_cons_self, rfl, by dsimp only; omega⟩
      case isFalse incompatible =>
        obtain ⟨⟨restAfter, _⟩, restIncreased, same⟩ :=
          map_eq_some_iff.mp increased
        cases same
        obtain ⟨served, kinds, pNew, isNew, merges⟩ :=
          hypothesis restIncreased fun pThis isLater =>
            nonNegative pThis (List.mem_cons_of_mem _ isLater)
        rw [if_neg incompatible]
        refine ⟨served, ?_, pNew, List.mem_cons_of_mem _ isNew, merges⟩
        rw [List.map_cons, kinds]

theorem increaseProcessor_nonNegative
    (nonNegative : ∀ pThis ∈ processors, 0 ≤ pThis.computingUnits)
    (joinedNonNegative : 0 ≤ p.computingUnits) :
    ∀ pNew ∈ after, 0 ≤ pNew.computingUnits := by
  induction processors generalizing after with
  | nil => exact nomatch increased
  | cons first rest hypothesis =>
      obtain ⟨firstNonNegative, restNonNegative⟩ :=
        List.forall_mem_cons.mp nonNegative
      rw [increaseProcessor] at increased
      split at increased
      case isTrue compatible =>
        cases increased
        exact List.forall_mem_cons.mpr
          ⟨by dsimp only; omega, restNonNegative⟩
      case isFalse incompatible =>
        obtain ⟨⟨restAfter, _⟩, restIncreased, same⟩ :=
          map_eq_some_iff.mp increased
        cases same
        exact List.forall_mem_cons.mpr
          ⟨firstNonNegative, hypothesis restIncreased restNonNegative⟩

end

theorem servingKind_eq_none
    (unserved : increaseProcessor p processors = none) :
    servingKind (processors.map (·.kind)) p.kind = none := by
  cases served : servingKind (processors.map (·.kind)) p.kind with
  | none => rfl
  | some serving =>
      obtain ⟨_, increased, -⟩ := increaseProcessor_spec served
      rw [unserved] at increased
      exact nomatch increased

end OneProcessor

namespace MethodResourceDescription

variable
  (this : MethodResourceDescription)
  (joined : List Processor)

/-- The effect of joining processors to those of a description. -/
structure Joined
    (after : MethodResourceDescription) : Prop where
  kinds : this.kinds <+: after.kinds
  nonNegative : ∀ p ∈ after.processors, 0 ≤ p.computingUnits
  grows :
    ∀ pThis ∈ this.processors, ∃ pNew ∈ after.processors,
      pNew.kind = pThis.kind ∧ pThis.computingUnits ≤ pNew.computingUnits
  merges :
    ∀ p ∈ joined, ∃ pNew ∈ after.processors,
      servingKind after.kinds p.kind = some pNew.kind ∧
        p.computingUnits ≤ pNew.computingUnits

theorem servingKind_of_prefix
    {kinds more : List ProcessorKind}
    {kind serving : ProcessorKind}
    (isPrefix : kinds <+: more)
    (served : servingKind kinds kind = some serving) :
    servingKind more kind = some serving := by
  obtain ⟨rest, same⟩ := isPrefix
  rw [servingKind, ← same, List.find?_append]
  rw [servingKind] at served
  rw [served]
  rfl

variable {this}

theorem increaseBy_joined
    {p : Processor}
    (nonNegative : ∀ pThis ∈ this.processors, 0 ≤ pThis.computingUnits)
    (joinedNonNegative : 0 ≤ p.computingUnits) :
    Joined this [p] (this.increaseBy p) := by
  rw [increaseBy]
  split
  case h_1 after serving increased =>
    obtain ⟨served, kinds, pNew, isNew, merges⟩ :=
      increaseProcessor_merges increased nonNegative
    have sameKinds : after.map (·.kind) = this.kinds := kinds
    constructor
    case kinds =>
      change this.kinds <+: after.map (·.kind)
      exact sameKinds ▸ List.prefix_refl _
    case nonNegative =>
      exact increaseProcessor_nonNegative increased nonNegative
        joinedNonNegative
    case grows =>
      intro pThis isProcessor
      exact increaseProcessor_grows increased joinedNonNegative isProcessor
    case merges =>
      intro other isJoined
      rw [List.mem_singleton.mp isJoined]
      refine ⟨pNew, isNew, ?_, merges.2⟩
      change servingKind (after.map (·.kind)) p.kind = some pNew.kind
      rw [kinds, merges.1]
      exact served
  case h_2 notIncreased =>
    have unserved : servingKind this.kinds p.kind = none :=
      servingKind_eq_none notIncreased
    have kinds : (this.addProcessor p).kinds = this.kinds ++ [p.kind] :=
      List.map_append
    constructor
    case kinds =>
      rw [kinds]
      exact List.prefix_append _ _
    case nonNegative =>
      intro other isProcessor
      rcases List.mem_append.mp isProcessor with before | isLast
      · exact nonNegative other before
      · rw [List.mem_singleton.mp isLast]
        exact joinedNonNegative
    case grows =>
      intro pThis isProcessor
      exact ⟨pThis, List.mem_append_left _ isProcessor, rfl, Int.le_refl _⟩
    case merges =>
      intro other isJoined
      rw [List.mem_singleton.mp isJoined]
      refine ⟨p, List.mem_append_right _ List.mem_cons_self, ?_, Int.le_refl _⟩
      rw [kinds, servingKind, List.find?_append]
      rw [servingKind] at unserved
      rw [unserved, List.find?_cons, checkProcessorCompatibility_refl]
      rfl

variable {joined}

/-- Every processor is merged into the one that serves it, or is added. -/
theorem foldl_increaseBy_joined
    (nonNegative : ∀ pThis ∈ this.processors, 0 ≤ pThis.computingUnits)
    (joinedNonNegative : ∀ p ∈ joined, 0 ≤ p.computingUnits) :
    Joined this joined (joined.foldl increaseBy this) := by
  induction joined generalizing this with
  | nil =>
      exact ⟨List.prefix_refl _, nonNegative,
        fun pThis isProcessor => ⟨pThis, isProcessor, rfl, Int.le_refl _⟩,
        fun _ isJoined => absurd isJoined List.not_mem_nil⟩
  | cons p rest hypothesis =>
      obtain ⟨firstNonNegative, restNonNegative⟩ :=
        List.forall_mem_cons.mp joinedNonNegative
      have first := increaseBy_joined nonNegative firstNonNegative
      have later := hypothesis first.nonNegative restNonNegative
      rw [List.foldl_cons]
      constructor
      case kinds => exact first.kinds.trans later.kinds
      case nonNegative => exact later.nonNegative
      case grows =>
        intro pThis isProcessor
        obtain ⟨between, isBetween, sameKind, grows⟩ :=
          first.grows pThis isProcessor
        obtain ⟨pNew, isNew, laterKind, laterGrows⟩ :=
          later.grows between isBetween
        exact ⟨pNew, isNew, laterKind.trans sameKind, by omega⟩
      case merges =>
        intro other isJoined
        rcases List.mem_cons.mp isJoined with isFirst | isLater
        · obtain ⟨between, isBetween, served, merges⟩ :=
            first.merges p List.mem_cons_self
          obtain ⟨pNew, isNew, laterKind, laterGrows⟩ :=
            later.grows between isBetween
          have servedLater := servingKind_of_prefix later.kinds served
          rw [← laterKind] at servedLater
          rw [isFirst]
          exact ⟨pNew, isNew, servedLater, by omega⟩
        · exact later.merges other isLater

end MethodResourceDescription

end DistributedRdf.Scheduling

namespace DistributedRdf.Resources

open Scheduling MethodResourceDescription

/-!
# Descriptions of machines

A description contains the constraints of an implementation if its names are
compatible with theirs and its amounts are no less.  Descriptions are joined by
adding their amounts; a name that both of them assign stays that of the first.
-/

/-- What `contains` looks at besides the part that tasks reserve. -/
structure CloudMethodResourceDescription extends MethodResourceDescription where
  storageSize : Option ℚ
  storageType : Option String
  operatingSystemType : Option String
  operatingSystemDistribution : Option String
  operatingSystemVersion : Option String
  appSoftware : List String
  hostQueues : List String

namespace CloudMethodResourceDescription

/-- A name is taken over if there is none and a name of the other is not empty. -/
def takeName (this other asked : Option String) : Option String :=
  match this with
  | some name => some name
  | none => if asked = some "" then none else other

/-- `Math.max`, where an unassigned size is less than any other -/
def maxSize : Option ℚ → Option ℚ → Option ℚ
  | some size, some other => some (max size other)
  | none, other => other
  | size, none => size

def addMissing (names more : List String) : List String :=
  more.foldl
    (fun names name => if name ∈ names then names else names ++ [name]) names

/-- The version asks for the name of the type of memory. -/
def increase (this mrd2 : CloudMethodResourceDescription) :
    CloudMethodResourceDescription where
  toMethodResourceDescription :=
    this.toMethodResourceDescription.increaseDynamic
      mrd2.toMethodResourceDescription
  storageSize := maxSize this.storageSize mrd2.storageSize
  storageType := takeName this.storageType mrd2.storageType mrd2.storageType
  operatingSystemType :=
    takeName this.operatingSystemType mrd2.operatingSystemType
      mrd2.operatingSystemType
  operatingSystemDistribution :=
    takeName this.operatingSystemDistribution mrd2.operatingSystemDistribution
      mrd2.operatingSystemDistribution
  operatingSystemVersion :=
    takeName this.operatingSystemVersion mrd2.operatingSystemVersion
      mrd2.memoryType
  appSoftware := addMissing this.appSoftware mrd2.appSoftware
  hostQueues := addMissing this.hostQueues mrd2.hostQueues

def checkStorage (this rc2 : CloudMethodResourceDescription) : Bool :=
  checkInclusion this.storageSize rc2.storageSize &&
    checkCompatibility this.storageType rc2.storageType

def contains (this rc2 : CloudMethodResourceDescription) : Bool :=
  checkCompatibility this.operatingSystemType rc2.operatingSystemType &&
    checkCompatibility this.operatingSystemDistribution
      rc2.operatingSystemDistribution &&
    checkCompatibility this.operatingSystemVersion rc2.operatingSystemVersion &&
    (rc2.hostQueues.all fun queue => queue ∈ this.hostQueues) &&
    (rc2.appSoftware.all fun app => app ∈ this.appSoftware) &&
    this.checkProcessors rc2.toMethodResourceDescription &&
    this.checkMemory rc2.toMethodResourceDescription &&
    this.checkStorage rc2

/-- An architecture is listed once for each processor, but for the unassigned. -/
def getArchitectures (this : CloudMethodResourceDescription) :
    List (Option String) :=
  this.processors.foldl
    (fun architectures p =>
      match p.kind.architecture with
      | some arch => architectures ++ [some arch]
      | none =>
          if none ∈ architectures then architectures
          else architectures ++ [none])
    []

def DIFFERENCE_WEIGHT : ℚ := 10000

def OTHER_PROC_DIFFERENCE_WEIGHT : ℚ := 1000

/-- The computing units of the processors that are no CPU -/
def otherUnits (this : CloudMethodResourceDescription) : Int :=
  this.totalComputingUnits .GPU + this.totalComputingUnits .FPGA +
    this.totalComputingUnits .OTHER

/-- An unassigned memory size counts as -1. -/
def difference (this mr2 : CloudMethodResourceDescription) : ℚ :=
  let processorDif :=
    this.totalComputingUnits .CPU - mr2.totalComputingUnits .CPU
  let otherProcessorsDif := this.otherUnits - mr2.otherUnits
  let memoryDif := this.memorySize.getD (-1) - mr2.memorySize.getD (-1)
  processorDif * DIFFERENCE_WEIGHT +
    otherProcessorsDif * OTHER_PROC_DIFFERENCE_WEIGHT + memoryDif

/-- The first processor gets an architecture, or a new one does. -/
def setArchitecture
    (this : CloudMethodResourceDescription)
    (arch : Option String) :
    CloudMethodResourceDescription :=
  match this.processors with
  | p :: rest =>
      { this with
        processors :=
          { p with kind := { p.kind with architecture := arch } } :: rest }
  | [] =>
      { this with
        processors :=
          [⟨{ ProcessorKind.unassigned with architecture := arch }, 0⟩] }

/-!
## What a joined description contains
-/

/-- The names of a description are compatible with those of constraints. -/
def namesAgree (this rc2 : CloudMethodResourceDescription) : Bool :=
  checkCompatibility this.operatingSystemType rc2.operatingSystemType &&
    checkCompatibility this.operatingSystemDistribution
      rc2.operatingSystemDistribution &&
    checkCompatibility this.operatingSystemVersion rc2.operatingSystemVersion &&
    checkCompatibility this.memoryType rc2.memoryType &&
    checkCompatibility this.storageType rc2.storageType

/-- Constraints that a description stands for -/
structure StandsFor (this rc2 : CloudMethodResourceDescription) : Prop where
  names : this.namesAgree rc2
  hostQueues : ∀ queue ∈ rc2.hostQueues, queue ∈ this.hostQueues
  appSoftware : ∀ app ∈ rc2.appSoftware, app ∈ this.appSoftware
  processors :
    ∀ q ∈ rc2.processors, ∃ p ∈ this.processors, checkProcessorContains p q
  memorySize : checkInclusion this.memorySize rc2.memorySize
  storageSize : ∀ size ∈ rc2.storageSize, ∃ more ∈ this.storageSize, size ≤ more

variable {this mrd2 rc2 : CloudMethodResourceDescription}

theorem StandsFor.contains (stands : this.StandsFor rc2) :
    this.contains rc2 := by
  have names := stands.names
  simp only [namesAgree, Bool.and_eq_true] at names
  obtain ⟨⟨⟨⟨type, distribution⟩, version⟩, memoryType⟩, storageType⟩ := names
  have storageSize : checkInclusion this.storageSize rc2.storageSize := by
    have enough := stands.storageSize
    cases asked : rc2.storageSize with
    | none => cases this.storageSize <;> rfl
    | some size =>
        obtain ⟨more, isSize, noGreater⟩ := enough size asked
        rw [isSize]
        exact decide_eq_true noGreater
  have hostQueues : rc2.hostQueues.all fun queue => queue ∈ this.hostQueues := by
    simpa using stands.hostQueues
  have appSoftware : rc2.appSoftware.all fun app => app ∈ this.appSoftware := by
    simpa using stands.appSoftware
  have processors :
      this.checkProcessors rc2.toMethodResourceDescription := by
    simpa [checkProcessors] using stands.processors
  have memorySize := stands.memorySize
  simp only [CloudMethodResourceDescription.contains, checkMemory, checkStorage,
    Bool.and_eq_true]
  exact ⟨⟨⟨⟨⟨⟨⟨type, distribution⟩, version⟩, hostQueues⟩, appSoftware⟩,
    processors⟩, memorySize, memoryType⟩, storageSize, storageType⟩

theorem checkCompatibility_refl (value : Option String) :
    checkCompatibility value value :=
  decide_eq_true (Or.inl rfl)

variable (rc2)

theorem StandsFor.refl :
    rc2.StandsFor rc2 := by
  constructor
  case names => simp [namesAgree, checkCompatibility_refl]
  case hostQueues => exact fun _ isQueue => isQueue
  case appSoftware => exact fun _ isApp => isApp
  case processors =>
    intro q isRequired
    refine ⟨q, isRequired, ?_⟩
    simp [checkProcessorContains, checkProcessorCompatibility_refl,
      checkUnitsInclusion]
  case memorySize => cases rc2.memorySize <;> simp [checkInclusion]
  case storageSize => exact fun size isSize => ⟨size, isSize, le_refl size⟩

variable {rc2}

theorem mem_addMissing
    {names more : List String}
    {name : String} :
    name ∈ addMissing names more ↔ name ∈ names ∨ name ∈ more := by
  unfold addMissing
  induction more generalizing names with
  | nil => simp
  | cons first rest hypothesis =>
      rw [List.foldl_cons, hypothesis]
      split
      case isTrue isThere => grind
      case isFalse isMissing => grind

theorem checkProcessorContains_grows
    {p pNew q : Processor}
    (contains : checkProcessorContains p q)
    (compatible : checkProcessorCompatibility pNew.kind q.kind)
    (grows : p.computingUnits ≤ pNew.computingUnits) :
    checkProcessorContains pNew q := by
  simp only [checkProcessorContains, checkUnitsInclusion, Bool.and_eq_true,
    decide_eq_true_eq] at contains ⊢
  exact ⟨compatible, contains.2.imp_left fun enough => by omega⟩

section Sizes

variable {size more asked : Option ℚ}

/-- As `increaseDynamic` adds sizes -/
def addSize : Option ℚ → Option ℚ → Option ℚ
  | some size, some more => some (size + more)
  | size, _ => size

theorem checkInclusion_add_left
    (contains : checkInclusion size asked)
    (nonNegative : ∀ amount, more = some amount → 0 ≤ amount) :
    checkInclusion (addSize size more) asked := by
  cases size with
  | none => rfl
  | some amount =>
      cases more with
      | none => exact contains
      | some added =>
          cases asked with
          | none => rfl
          | some required =>
              have enough : required ≤ amount := of_decide_eq_true contains
              have isMore := nonNegative added rfl
              exact decide_eq_true (by linarith)

theorem checkInclusion_add_right
    (contains : checkInclusion more asked)
    (nonNegative : ∀ amount, size = some amount → 0 ≤ amount)
    (kept : more.isSome ∨ size = none ∨ asked = none) :
    checkInclusion (addSize size more) asked := by
  cases size with
  | none => rfl
  | some amount =>
      cases asked with
      | none => cases more <;> rfl
      | some required =>
          cases more with
          | none => simp at kept
          | some added =>
              have enough : required ≤ added := of_decide_eq_true contains
              have isMore := nonNegative amount rfl
              exact decide_eq_true (by linarith)

variable {required amount : ℚ}

theorem exists_maxSize_left
    (isSize : amount ∈ size)
    (noGreater : required ≤ amount) :
    ∃ greatest ∈ maxSize size more, required ≤ greatest := by
  cases isSize
  cases more with
  | none => exact ⟨amount, rfl, noGreater⟩
  | some other => exact ⟨_, rfl, noGreater.trans (le_max_left _ _)⟩

theorem exists_maxSize_right
    (isSize : amount ∈ more)
    (noGreater : required ≤ amount) :
    ∃ greatest ∈ maxSize size more, required ≤ greatest := by
  cases isSize
  cases size with
  | none => exact ⟨amount, rfl, noGreater⟩
  | some other => exact ⟨_, rfl, noGreater.trans (le_max_right _ _)⟩

end Sizes

/--
Joining a second description decides nothing against constraints that it stands
for: the names that remain agree with theirs, a size that it leaves open is
open in the first as well, and each of its processors is merged into one that is
compatible with what it served.
-/
structure JoinKeeps (this mrd2 rc2 : CloudMethodResourceDescription) : Prop where
  names : (this.increase mrd2).namesAgree rc2
  memorySize :
    mrd2.memorySize.isSome ∨ this.memorySize = none ∨ rc2.memorySize = none
  processors :
    ∀ q ∈ rc2.processors, ∀ p ∈ mrd2.processors,
      checkProcessorCompatibility p.kind q.kind →
        ∀ serving ∈ servingKind (this.increase mrd2).kinds p.kind,
          checkProcessorCompatibility serving q.kind

/-- What a description stands for is not lost by joining more to it. -/
theorem StandsFor.left
    (stands : this.StandsFor rc2)
    (thisNonNegative : this.NoNegativeAmounts)
    (nonNegative : mrd2.NoNegativeAmounts)
    (names : (this.increase mrd2).namesAgree rc2) :
    (this.increase mrd2).StandsFor rc2 := by
  have joined :=
    foldl_increaseBy_joined thisNonNegative.units nonNegative.units
  constructor
  case names => exact names
  case hostQueues =>
    exact fun queue isQueue =>
      mem_addMissing.mpr (Or.inl (stands.hostQueues queue isQueue))
  case appSoftware =>
    exact fun app isApp =>
      mem_addMissing.mpr (Or.inl (stands.appSoftware app isApp))
  case processors =>
    intro q isRequired
    obtain ⟨pThis, isProcessor, contains⟩ := stands.processors q isRequired
    obtain ⟨pNew, isNew, sameKind, grows⟩ := joined.grows pThis isProcessor
    refine ⟨pNew, isNew, checkProcessorContains_grows contains ?_ grows⟩
    rw [checkProcessorContains, Bool.and_eq_true] at contains
    rw [sameKind]
    exact contains.1
  case memorySize =>
    exact checkInclusion_add_left stands.memorySize nonNegative.memory
  case storageSize =>
    intro size asked
    obtain ⟨more, isSize, noGreater⟩ := stands.storageSize size asked
    exact exists_maxSize_left isSize noGreater

/--
What the second description stands for is not lost when it is joined to the
first, if the names agree and nothing that it leaves open is decided against it.
-/
theorem StandsFor.right
    (stands : mrd2.StandsFor rc2)
    (thisNonNegative : this.NoNegativeAmounts)
    (nonNegative : mrd2.NoNegativeAmounts)
    (keeps : this.JoinKeeps mrd2 rc2) :
    (this.increase mrd2).StandsFor rc2 := by
  have joined :=
    foldl_increaseBy_joined thisNonNegative.units nonNegative.units
  constructor
  case names => exact keeps.names
  case hostQueues =>
    exact fun queue isQueue =>
      mem_addMissing.mpr (Or.inr (stands.hostQueues queue isQueue))
  case appSoftware =>
    exact fun app isApp =>
      mem_addMissing.mpr (Or.inr (stands.appSoftware app isApp))
  case processors =>
    intro q isRequired
    obtain ⟨p, isProcessor, contains⟩ := stands.processors q isRequired
    obtain ⟨pNew, isNew, served, merges⟩ := joined.merges p isProcessor
    refine ⟨pNew, isNew, checkProcessorContains_grows contains ?_ merges⟩
    rw [checkProcessorContains, Bool.and_eq_true] at contains
    exact keeps.processors q isRequired p isProcessor contains.1 pNew.kind served
  case memorySize =>
    exact checkInclusion_add_right stands.memorySize thisNonNegative.memory
      keeps.memorySize
  case storageSize =>
    intro size asked
    obtain ⟨more, isSize, noGreater⟩ := stands.storageSize size asked
    exact exists_maxSize_right isSize noGreater

theorem noNegativeAmounts_increase
    (thisNonNegative : this.NoNegativeAmounts)
    (nonNegative : mrd2.NoNegativeAmounts) :
    (this.increase mrd2).NoNegativeAmounts := by
  have joined :=
    foldl_increaseBy_joined thisNonNegative.units nonNegative.units
  refine ⟨joined.nonNegative, ?_⟩
  intro size isSize
  change addSize this.memorySize mrd2.memorySize = some size at isSize
  cases first : this.memorySize with
  | none =>
      rw [first] at isSize
      exact nomatch isSize
  | some amount =>
      have amountNonNegative := thisNonNegative.memory amount first
      rw [first] at isSize
      cases second : mrd2.memorySize with
      | none =>
          rw [second] at isSize
          cases isSize
          exact amountNonNegative
      | some more =>
          have moreNonNegative := nonNegative.memory more second
          rw [second] at isSize
          cases isSize
          exact add_nonneg amountNonNegative moreNonNegative

variable (this)

/-- The architecture decides nothing against what the processor served. -/
def ArchitectureKeeps
    (arch : Option String)
    (rc2 : CloudMethodResourceDescription) :
    Prop :=
  ∀ q ∈ rc2.processors, ∀ p ∈ this.processors.head?,
    checkProcessorCompatibility p.kind q.kind →
      checkProcessorCompatibility { p.kind with architecture := arch } q.kind

variable
  {arch : Option String}
  {this}

theorem StandsFor.setArchitecture
    (stands : this.StandsFor rc2)
    (keeps : this.ArchitectureKeeps arch rc2) :
    (this.setArchitecture arch).StandsFor rc2 := by
  rw [CloudMethodResourceDescription.setArchitecture]
  split
  case h_2 noProcessors =>
    refine ⟨stands.names, stands.hostQueues, stands.appSoftware, ?_,
      stands.memorySize, stands.storageSize⟩
    intro q isRequired
    obtain ⟨p, isProcessor, -⟩ := stands.processors q isRequired
    rw [noProcessors] at isProcessor
    exact nomatch isProcessor
  case h_1 first rest processors =>
    refine ⟨stands.names, stands.hostQueues, stands.appSoftware, ?_,
      stands.memorySize, stands.storageSize⟩
    intro q isRequired
    obtain ⟨p, isProcessor, contains⟩ := stands.processors q isRequired
    rw [processors] at isProcessor
    rcases List.mem_cons.mp isProcessor with isFirst | isLater
    · refine ⟨_, List.mem_cons_self,
        checkProcessorContains_grows contains ?_ (by rw [isFirst])⟩
      rw [checkProcessorContains, Bool.and_eq_true, isFirst] at contains
      refine keeps q isRequired first ?_ contains.1
      rw [processors]
      rfl
    · exact ⟨p, List.mem_cons_of_mem _ isLater, contains⟩

theorem noNegativeAmounts_setArchitecture
    (nonNegative : this.NoNegativeAmounts) :
    (this.setArchitecture arch).NoNegativeAmounts := by
  rw [CloudMethodResourceDescription.setArchitecture]
  split
  case h_2 noProcessors =>
    refine ⟨?_, nonNegative.memory⟩
    intro p isProcessor
    rw [List.mem_singleton.mp isProcessor]
  case h_1 first rest processors =>
    have units := nonNegative.units
    rw [processors] at units
    obtain ⟨firstNonNegative, restNonNegative⟩ := List.forall_mem_cons.mp units
    exact ⟨List.forall_mem_cons.mpr ⟨firstNonNegative, restNonNegative⟩,
      nonNegative.memory⟩

end CloudMethodResourceDescription

end DistributedRdf.Resources
