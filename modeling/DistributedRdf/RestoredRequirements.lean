import DistributedRdf.ComputingUnitTotals
import DistributedRdf.FailedReservations
import Mathlib.Data.List.Count
import Mathlib.Data.List.Nodup

namespace DistributedRdf.Scheduling

open Processor Option

/-!
# Increasing a description and reducing it again

To give units is to take a negative amount of them.
-/

variable (p : Processor)

def Processor.negated : Processor :=
  { p with computingUnits := -p.computingUnits }

@[simp]
theorem Processor.negated_kind : p.negated.kind = p.kind :=
  rfl

variable (processors : List Processor)

theorem increaseProcessor_eq_reduceProcessor :
    increaseProcessor p processors =
      (reduceProcessor p.negated processors).map fun (after, reduced) =>
        (after, reduced.kind) := by
  induction processors with
  | nil => rfl
  | cons pThis rest hypothesis =>
      rw [increaseProcessor, reduceProcessor, negated_kind]
      by_cases compatible : checkProcessorCompatibility pThis.kind p.kind
      · rw [if_pos compatible, if_pos compatible]
        simp only [map_some, negated, Int.sub_neg]
      · rw [if_neg compatible, if_neg compatible, hypothesis]
        simp only [Option.map_map]
        rfl

theorem sum_negated :
    ((processors.map negated).map (·.computingUnits)).sum =
      -(processors.map (·.computingUnits)).sum := by
  induction processors with
  | nil => rfl
  | cons p rest hypothesis =>
      rw [List.map_cons, List.map_cons, List.sum_cons, hypothesis,
        List.map_cons, List.sum_cons, Int.neg_add]
      rfl

theorem requestedAt_negated
    (kinds : List ProcessorKind)
    (requested : List Processor)
    (position : Nat) :
    requestedAt kinds (requested.map negated) position =
      -requestedAt kinds requested position := by
  unfold requestedAt
  rw [List.filter_map, sum_negated]
  rfl

namespace MethodResourceDescription

theorem unitsOfType_negated
    (type : ProcessorType)
    (processors : List Processor) :
    unitsOfType type (processors.map negated) =
      -unitsOfType type processors := by
  unfold unitsOfType unitsWhere
  rw [List.filter_map, sum_negated]
  rfl

variable
  {kinds : List ProcessorKind}
  {requested : List Processor}

theorem allServed_negated
    (served : AllServed kinds requested) :
    AllServed kinds (requested.map negated) := by
  intro p isNegated
  obtain ⟨asked, isAsked, same⟩ := List.mem_map.mp isNegated
  rw [← same]
  exact served asked isAsked

variable (requested)

theorem handsOut_negated
    {requested taken : List Processor}
    (handedOut : List.Forall₂ (HandsOut kinds) requested taken) :
    List.Forall₂ (HandsOut kinds) (requested.map negated)
      (taken.map negated) := by
  induction handedOut with
  | nil => exact .nil
  | cons first later hypothesis =>
      exact .cons ⟨first.1, congrArg (- ·) first.2⟩ hypothesis

variable
  {this mrd2 : MethodResourceDescription}
  {released : List Processor}

theorem foldl_increaseBy_eq
    (served : AllServed this.kinds released)
    (reduced : MethodResourceDescription) :
    released.foldl increaseBy this =
      (reduceProcessors (released.map negated) this reduced).1 := by
  induction released generalizing this reduced with
  | nil => rfl
  | cons p rest hypothesis =>
      obtain ⟨serving, servingEq⟩ :=
        isSome_iff_exists.mp (served p List.mem_cons_self)
      obtain ⟨after, reducedEq, kinds, -⟩ :=
        @reduceProcessor_spec p.negated this.processors serving servingEq
      have increased : this.increaseBy p =
          { this with processors := after }.countUnits serving.type
            p.computingUnits := by
        rw [increaseBy, increaseProcessor_eq_reduceProcessor, reducedEq]
        rfl
      have restServed : AllServed (this.increaseBy p).kinds rest := by
        rw [increased]
        change AllServed (after.map (·.kind)) rest
        rw [kinds]
        exact fun request isLater =>
          served request (List.mem_cons_of_mem p isLater)
      rw [List.foldl_cons, List.map_cons, reduceProcessors, reducedEq,
        hypothesis restServed
          (reduced.addProcessor ⟨serving, p.negated.computingUnits⟩),
        increased]
      simp only [negated, Int.neg_neg]

theorem processors_eq
    {processors others : List Processor}
    (sameKinds : processors.map (·.kind) = others.map (·.kind))
    (sameUnits :
      ∀ i : Nat,
        (processors[i]?).map (·.computingUnits) =
          (others[i]?).map (·.computingUnits)) :
    processors = others := by
  apply List.ext_getElem?
  intro i
  have kindHere : (processors[i]?).map (·.kind) = (others[i]?).map (·.kind) := by
    rw [← List.getElem?_map, sameKinds, List.getElem?_map]
  have unitsHere := sameUnits i
  cases here : processors[i]? with
  | none =>
      rw [here] at kindHere
      exact (map_eq_none_iff.mp kindHere.symm).symm
  | some p =>
      rw [here] at kindHere unitsHere
      obtain ⟨other, isOther, sameKind⟩ := map_eq_some_iff.mp kindHere.symm
      rw [isOther, map_some, map_some, some.injEq]
        at unitsHere
      rw [isOther]
      cases p
      cases other
      cases sameKind
      cases unitsHere
      rfl

/-- What is given to the processors that serve it is taken from the same ones. -/
theorem reduceProcessors_increaseDynamic
    (served : AllServed this.kinds mrd2.processors) :
    ∃ reduced,
      reduceProcessors mrd2.processors (this.increaseDynamic mrd2) empty =
        ({ this with memorySize := (this.increaseDynamic mrd2).memorySize },
          some reduced) := by
  obtain ⟨between, given, givenEq, increased, -, memoryType⟩ :=
    @reduceProcessors_spec this empty _ (allServed_negated served)
  have betweenEq : mrd2.processors.foldl increaseBy this = between := by
    rw [foldl_increaseBy_eq served empty, givenEq]
  have increasedEq : this.increaseDynamic mrd2 =
      { between with memorySize := (this.increaseDynamic mrd2).memorySize } := by
    rw [increaseDynamic, betweenEq]
  have betweenServed :
      AllServed (this.increaseDynamic mrd2).kinds mrd2.processors := by
    rw [increasedEq]
    change AllServed between.kinds mrd2.processors
    rw [increased.kinds]
    exact served
  obtain ⟨after, taken, takenEq, reduced, sameSize, sameType⟩ :=
    @reduceProcessors_spec (this.increaseDynamic mrd2) empty _ betweenServed
  rw [increasedEq] at reduced sameType
  have kinds : after.kinds = this.kinds := reduced.kinds.trans increased.kinds
  have processors : after.processors = this.processors := by
    refine processors_eq kinds fun i => ?_
    rw [reduced.positions i]
    change (between.processors[i]?).map (fun p =>
      p.computingUnits - requestedAt between.kinds mrd2.processors i) = _
    have givenHere := increased.positions i
    rw [requestedAt_negated] at givenHere
    have composed := congrArg
      (Option.map (· - requestedAt between.kinds mrd2.processors i)) givenHere
    rw [Option.map_map, Option.map_map, increased.kinds] at composed
    rw [increased.kinds]
    refine composed.trans (congrArg (Option.map · _) (funext fun p => ?_))
    simp only [Function.comp_apply]
    omega
  have totals : after.totalComputingUnits = this.totalComputingUnits := by
    funext type
    have ofGiven := increased.totals type
    have ofTaken := reduced.totals type
    have sameTaken : given = taken.map negated := by
      have handedOut := handsOut_negated reduced.handedOut
      change List.Forall₂ (HandsOut between.kinds) _ _ at handedOut
      rw [increased.kinds] at handedOut
      exact handedOut_unique increased.handedOut handedOut
    rw [sameTaken, unitsOfType_negated] at ofGiven
    change _ = between.totalComputingUnits type at ofTaken
    omega
  refine ⟨_, takenEq.trans (Prod.ext ?_ rfl)⟩
  cases after
  cases processors
  cases totals
  cases sameSize
  cases sameType.trans memoryType
  rfl

/-- A processor that no other one serves is added, and is never removed. -/
theorem increaseBy_kinds :
    (this.increaseBy p).kinds =
      if (servingKind this.kinds p.kind).isSome then this.kinds
      else this.kinds ++ [p.kind] := by
  cases served : servingKind this.kinds p.kind with
  | none =>
      have notMerged : increaseProcessor p this.processors = none :=
        increaseProcessor_eq_none served
      rw [increaseBy, notMerged]
      exact List.map_append
  | some serving =>
      obtain ⟨after, increased, kinds, -⟩ := increaseProcessor_spec served
      rw [increaseBy, increased]
      exact kinds

theorem kinds_prefix_foldl (released : List Processor) :
    this.kinds <+: (released.foldl increaseBy this).kinds := by
  induction released generalizing this with
  | nil => exact List.prefix_refl _
  | cons p rest hypothesis =>
      have first : this.kinds <+: (this.increaseBy p).kinds := by
        rw [increaseBy_kinds]
        split
        case isTrue => exact List.prefix_refl _
        case isFalse => exact List.prefix_append _ _
      exact first.trans hypothesis

theorem allServed_of_length_le
    (sameLength :
      (released.foldl increaseBy this).kinds.length ≤ this.kinds.length) :
    AllServed this.kinds released := by
  induction released generalizing this with
  | nil => exact fun p isReleased => nomatch isReleased
  | cons p rest hypothesis =>
      rw [List.foldl_cons] at sameLength
      have upToHere :=
        (@kinds_prefix_foldl (this.increaseBy p) rest).length_le.trans sameLength
      rw [increaseBy_kinds] at upToHere
      have served : (servingKind this.kinds p.kind).isSome := by
        by_contra unserved
        rw [if_neg unserved, List.length_append, List.length_singleton]
          at upToHere
        omega
      have kinds : (this.increaseBy p).kinds = this.kinds := by
        rw [increaseBy_kinds, if_pos served]
      have later := hypothesis
        (sameLength.trans (Nat.le_of_eq (congrArg List.length kinds.symm)))
      rw [kinds] at later
      exact List.forall_mem_cons.mpr ⟨served, later⟩

/-- The loop never changes how many processors there are. -/
theorem reduceProcessors_kinds
    (this reduced : MethodResourceDescription) :
    (reduceProcessors requested this reduced).1.kinds = this.kinds := by
  induction requested generalizing this reduced with
  | nil => rfl
  | cons p rest hypothesis =>
      rw [reduceProcessors]
      cases served : servingKind this.kinds p.kind with
      | none => rw [reduceProcessor_eq_none served]
      | some serving =>
          obtain ⟨after, reducedEq, kinds, -⟩ :=
            @reduceProcessor_spec p this.processors serving served
          rw [reducedEq]
          exact (hypothesis _ _).trans kinds

theorem reduceDynamic_kinds (this rd2 : MethodResourceDescription) :
    (this.reduceDynamic rd2).1.kinds = this.kinds := by
  have kinds := reduceProcessors_kinds rd2.processors this empty
  rw [reduceDynamic]
  split
  case h_1 after loop =>
    rw [loop] at kinds
    exact kinds
  case h_2 after reduced loop =>
    rw [loop] at kinds
    split
    case isTrue =>
      split
      case h_1 => exact kinds
      case h_2 => exact kinds
    case isFalse => exact kinds

/-- A size from which another one is taken, if both are assigned -/
def subtractSize : Option ℚ → Option ℚ → Option ℚ
  | some size, some required => some (size - required)
  | size, _ => size

theorem reduceDynamic_of_loop
    {between reduced : MethodResourceDescription}
    (loop :
      reduceProcessors mrd2.processors this empty = (between, some reduced)) :
    (this.reduceDynamic mrd2).1 =
      { between with
        memorySize :=
          if between.checkMemory mrd2 then
            subtractSize between.memorySize mrd2.memorySize
          else between.memorySize } := by
  rw [reduceDynamic, loop]
  by_cases fits : between.checkMemory mrd2
  · simp only [if_pos fits]
    split
    case h_1 size required isSize isRequired =>
      rw [isSize, isRequired]
      rfl
    case h_2 unassigned =>
      cases size : between.memorySize with
      | none =>
          rw [subtractSize, ← size]
          exact fun _ _ absurdSize _ => nomatch absurdSize
      | some known =>
          cases required : mrd2.memorySize with
          | none =>
              rw [subtractSize, ← size]
              exact fun _ _ _ absurdSize => nomatch absurdSize
          | some asked => exact absurd required (unassigned known asked size)
  · simp only [if_neg fits]

/-- The memory that is taken again is the one that was given. -/
def MemoryRestored (this mrd2 : MethodResourceDescription) : Prop :=
  match this.memorySize, mrd2.memorySize with
  | some size, some more =>
      more = 0 ∨
        0 ≤ size ∧ checkCompatibility this.memoryType mrd2.memoryType = true
  | _, _ => True

theorem increaseDynamic_restored_iff
    (served : AllServed this.kinds mrd2.processors) :
    ((this.increaseDynamic mrd2).reduceDynamic mrd2).1 = this ↔
      this.MemoryRestored mrd2 := by
  obtain ⟨reduced, loop⟩ := reduceProcessors_increaseDynamic served
  rw [reduceDynamic_of_loop loop]
  rcases this with ⟨processors, totals, size, type⟩
  simp only [mk.injEq, true_and, and_true, checkMemory, MemoryRestored,
    increaseDynamic, Bool.and_eq_true]
  cases size with
  | none => cases mrd2.memorySize <;> simp [subtractSize]
  | some size =>
      cases mrd2.memorySize with
      | none => simp [subtractSize]
      | some more =>
          simp only [checkInclusion, subtractSize, ge_iff_le, decide_eq_true_eq,
            le_add_iff_nonneg_left, add_sub_cancel_right]
          by_cases fits :
              0 ≤ size ∧ checkCompatibility type mrd2.memoryType = true
          · simp [fits]
          · rw [if_neg fits, some.injEq, add_eq_left]
            exact (or_iff_left fits).symm

/-- Exactly then increasing and reducing leaves what tasks reserve as it was. -/
theorem dynamic_restored_iff :
    ((this.increaseDynamic mrd2).reduceDynamic mrd2).1 = this ↔
      AllServed this.kinds mrd2.processors ∧ this.MemoryRestored mrd2 := by
  constructor
  · intro restored
    have served : AllServed this.kinds mrd2.processors := by
      apply allServed_of_length_le
      have kinds := reduceDynamic_kinds (this.increaseDynamic mrd2) mrd2
      rw [restored] at kinds
      exact Nat.le_of_eq (congrArg List.length kinds.symm)
    exact ⟨served, (increaseDynamic_restored_iff served).mp restored⟩
  · intro condition
    exact (increaseDynamic_restored_iff condition.1).mpr condition.2

end MethodResourceDescription

end DistributedRdf.Scheduling

namespace DistributedRdf.Resources

open Scheduling MethodResourceDescription CloudMethodResourceDescription

/-!
# Asking a cloud worker for room

The worker increases the requirement by what it still has to give up, looks at
what is available, and reduces the requirement by the same again.
-/

def UNASSIGNED_INT : Int := -1

def UNASSIGNED_FLOAT : ℚ := -1

/-- A description with the features that only joining and ordering look at -/
structure PricedDescription extends CloudMethodResourceDescription where
  pricePerUnit : ℚ
  priceTimeUnit : Int
  wallClockLimit : Int
  value : ℚ

namespace PricedDescription

/-- `new MethodResourceDescription()` -/
def empty : PricedDescription where
  toCloudMethodResourceDescription := ofDynamic .empty
  pricePerUnit := UNASSIGNED_FLOAT
  priceTimeUnit := UNASSIGNED_INT
  wallClockLimit := UNASSIGNED_INT
  value := 0

section Price

variable {Amount : Type} [LinearOrder Amount] [Zero Amount]

def increasePrice (unassigned this mrd2 : Amount) : Amount :=
  if this = unassigned then
    if mrd2 > 0 then mrd2 else this
  else this

def reducePrice (unassigned this mrd2 : Amount) : Amount :=
  if this = unassigned then
    if mrd2 > 0 then mrd2 else this
  else if mrd2 > 0 ∧ mrd2 < this then mrd2 else this

/-- Only a price that is not dearer can be taken over. -/
def PriceRestored (unassigned this mrd2 : Amount) : Prop :=
  mrd2 ≤ 0 ∨ this ≠ unassigned ∧ this ≤ mrd2

theorem price_restored_iff
    {unassigned this mrd2 : Amount}
    (isNegative : unassigned < 0) :
    reducePrice unassigned (increasePrice unassigned this mrd2) mrd2 = this ↔
      PriceRestored unassigned this mrd2 := by
  unfold increasePrice reducePrice PriceRestored
  by_cases positive : mrd2 > 0
  · have assigned : mrd2 ≠ unassigned := (isNegative.trans positive).ne'
    by_cases isUnassigned : this = unassigned
    · subst isUnassigned
      simp [positive, assigned]
    · by_cases cheaper : mrd2 < this
      · simp [positive, isUnassigned, cheaper, cheaper.ne]
      · simp [positive, isUnassigned, cheaper, le_of_not_gt cheaper]
  · have notPositive : mrd2 ≤ 0 := le_of_not_gt positive
    by_cases isUnassigned : this = unassigned
    · simp [positive, isUnassigned, notPositive]
    · simp [positive, isUnassigned, notPositive]

end Price

def increase (this mrd2 : PricedDescription) : PricedDescription where
  toCloudMethodResourceDescription :=
    this.toCloudMethodResourceDescription.increase
      mrd2.toCloudMethodResourceDescription
  pricePerUnit :=
    increasePrice UNASSIGNED_FLOAT this.pricePerUnit mrd2.pricePerUnit
  priceTimeUnit :=
    increasePrice UNASSIGNED_INT this.priceTimeUnit mrd2.priceTimeUnit
  wallClockLimit := max this.wallClockLimit mrd2.wallClockLimit
  value := max this.value mrd2.value

def reduce (this mrd2 : PricedDescription) : PricedDescription where
  toCloudMethodResourceDescription :=
    this.toCloudMethodResourceDescription.reduce
      mrd2.toCloudMethodResourceDescription
  pricePerUnit :=
    reducePrice UNASSIGNED_FLOAT this.pricePerUnit mrd2.pricePerUnit
  priceTimeUnit :=
    reducePrice UNASSIGNED_INT this.priceTimeUnit mrd2.priceTimeUnit
  wallClockLimit := min this.wallClockLimit mrd2.wallClockLimit
  value := min this.value mrd2.value

end PricedDescription

/-- What a worker that may lose resources looks at when it is asked for room -/
structure PricedCloudWorker where
  description : PricedDescription
  available : PricedDescription
  toRemove : PricedDescription
  pendingReductions : List PricedDescription

/-- The object that is passed may be the one that describes the worker. -/
inductive Requirement where
  | constraints (requirements : PricedDescription)
  | ownDescription

namespace PricedCloudWorker

variable (worker : PricedCloudWorker)

def described : Requirement → PricedDescription
  | .constraints requirements => requirements
  | .ownDescription => worker.description

/-- The worker and the requirement after the description that is passed changes -/
def describe
    (changed : PricedDescription) :
    Requirement → PricedCloudWorker × Requirement
  | .constraints _ => (worker, .constraints changed)
  | .ownDescription => ({ worker with description := changed }, .ownDescription)

variable (consumption : Requirement)

def hasAvailable :
    Bool × PricedCloudWorker × Requirement :=
  let increased := (worker.described consumption).increase worker.toRemove
  let fits :=
    worker.available.containsDynamic increased.toMethodResourceDescription
  (fits, worker.describe (increased.reduce worker.toRemove) consumption)

/-- The answer is about what is to be removed, too, and nothing else happens. -/
structure OnlyAnswers : Prop where
  answer :
    (worker.hasAvailable consumption).1 =
      worker.available.containsDynamic
        ((worker.described consumption).toMethodResourceDescription.increaseDynamic
          worker.toRemove.toMethodResourceDescription)
  sameWorker : (worker.hasAvailable consumption).2.1 = worker
  sameRequirement : (worker.hasAvailable consumption).2.2 = consumption

end PricedCloudWorker

/-!
## Names and applications
-/

/-- A name that is taken over stays. -/
def NameRestored (this mrd2 asked : Option String) : Prop :=
  this.isSome ∨ mrd2 = none ∨ asked = some ""

theorem name_restored_iff {this mrd2 asked : Option String} :
    takeName (takeName this mrd2 asked) mrd2 asked = this ↔
      NameRestored this mrd2 asked := by
  unfold takeName NameRestored
  cases this with
  | some name => simp
  | none =>
      by_cases isEmpty : asked = some ""
      · simp [isEmpty]
      · cases mrd2 with
        | none => simp [isEmpty]
        | some other => simp [isEmpty]

section Names

variable {names more : List String}

theorem addMissing_cons (first : String) (rest : List String) :
    addMissing names (first :: rest) =
      addMissing (if first ∈ names then names else names ++ [first]) rest :=
  rfl

/-- What is missing comes after the names that are there, once each. -/
theorem addMissing_eq
    (disjoint : ∀ name ∈ more, name ∉ names)
    (added : List String)
    (distinct : added.Nodup)
    (fresh : ∀ name ∈ added, name ∉ names) :
    ∃ missing,
      addMissing (names ++ added) more = names ++ missing ∧
        missing.Nodup ∧
        ∀ name ∈ missing, name ∈ added ∨ name ∈ more := by
  induction more generalizing added with
  | nil => exact ⟨added, rfl, distinct, fun name isAdded => .inl isAdded⟩
  | cons first rest hypothesis =>
      obtain ⟨firstMissing, restMissing⟩ := List.forall_mem_cons.mp disjoint
      rw [addMissing_cons]
      by_cases isThere : first ∈ names ++ added
      · rw [if_pos isThere]
        obtain ⟨missing, same, missingDistinct, origin⟩ :=
          hypothesis restMissing added distinct fresh
        exact ⟨missing, same, missingDistinct, fun name isMissing =>
          (origin name isMissing).imp_right (List.mem_cons_of_mem first)⟩
      · rw [if_neg isThere, List.append_assoc]
        have notAdded : first ∉ added := fun isAdded =>
          isThere (List.mem_append_right names isAdded)
        obtain ⟨missing, same, missingDistinct, origin⟩ :=
          hypothesis restMissing (added ++ [first])
            (by
              rw [List.nodup_append]
              refine ⟨distinct, List.nodup_singleton first, ?_⟩
              intro name isAdded other isFirst same
              rw [same, List.mem_singleton.mp isFirst] at isAdded
              exact notAdded isAdded)
            (by
              intro name isAdded
              rcases List.mem_append.mp isAdded with before | isFirst
              · exact fresh name before
              · rw [List.mem_singleton.mp isFirst]
                exact firstMissing)
        refine ⟨missing, same, missingDistinct, fun name isMissing => ?_⟩
        rcases origin name isMissing with isAdded | isLater
        · rcases List.mem_append.mp isAdded with before | isFirst
          · exact .inl before
          · exact .inr (List.mem_singleton.mp isFirst ▸ List.mem_cons_self)
        · exact .inr (List.mem_cons_of_mem first isLater)

theorem count_addMissing
    {name : String}
    (isThere : name ∈ names) :
    (addMissing names more).count name = names.count name := by
  induction more generalizing names with
  | nil => rfl
  | cons first rest hypothesis =>
      rw [addMissing_cons]
      split
      case isTrue known => exact hypothesis isThere
      case isFalse unknown =>
        have other : first ≠ name := fun same => unknown (same ▸ isThere)
        rw [hypothesis (List.mem_append_left _ isThere),
          List.count_append, List.count_singleton]
        simp [other]

theorem foldl_erase_append
    (disjoint : ∀ name ∈ more, name ∉ names)
    (missing : List String) :
    more.foldl List.erase (names ++ missing) =
      names ++ more.foldl List.erase missing := by
  induction more generalizing missing with
  | nil => rfl
  | cons first rest hypothesis =>
      obtain ⟨firstMissing, restMissing⟩ := List.forall_mem_cons.mp disjoint
      rw [List.foldl_cons, List.erase_append_right _ firstMissing,
        hypothesis restMissing, List.foldl_cons]

/-- A name of both is not added, and is removed. -/
theorem names_restored_iff :
    more.foldl List.erase (addMissing names more) = names ↔
      ∀ name ∈ more, name ∉ names := by
  constructor
  · intro restored name isMore isThere
    have counted := congrArg (List.count name) restored
    rw [← List.diff_eq_foldl, List.count_diff, count_addMissing isThere]
      at counted
    have oneOfMore : 0 < more.count name := List.count_pos_iff.mpr isMore
    have oneThere : 0 < names.count name := List.count_pos_iff.mpr isThere
    omega
  · intro disjoint
    obtain ⟨missing, added, distinct, origin⟩ :=
      addMissing_eq disjoint [] List.nodup_nil
        (fun name isNone => nomatch isNone)
    rw [List.append_nil] at added
    have allRemoved : more.foldl List.erase missing = [] := by
      rw [List.eq_nil_iff_forall_not_mem, ← List.diff_eq_foldl]
      intro name isLeft
      obtain ⟨isMissing, notMore⟩ := (List.Nodup.mem_sdiff_iff distinct).mp isLeft
      rcases origin name isMissing with isNone | isMore
      · exact nomatch isNone
      · exact notMore isMore
    rw [added, foldl_erase_append disjoint, allRemoved, List.append_nil]

end Names

/-!
## Whole descriptions
-/

/-- What it takes to be left alone, feature by feature -/
structure PricedDescription.Restored (this mrd2 : PricedDescription) : Prop where
  processors : AllServed this.kinds mrd2.processors
  memorySize :
    this.toMethodResourceDescription.MemoryRestored
      mrd2.toMethodResourceDescription
  storageSize : this.storageSize = mrd2.storageSize
  storageType : NameRestored this.storageType mrd2.storageType mrd2.storageType
  operatingSystemType :
    NameRestored this.operatingSystemType mrd2.operatingSystemType
      mrd2.operatingSystemType
  operatingSystemDistribution :
    NameRestored this.operatingSystemDistribution
      mrd2.operatingSystemDistribution mrd2.operatingSystemDistribution
  operatingSystemVersion :
    NameRestored this.operatingSystemVersion mrd2.operatingSystemVersion
      mrd2.memoryType
  appSoftware : ∀ app ∈ mrd2.appSoftware, app ∉ this.appSoftware
  hostQueues : ∀ queue ∈ mrd2.hostQueues, queue ∉ this.hostQueues
  pricePerUnit :
    PricedDescription.PriceRestored UNASSIGNED_FLOAT this.pricePerUnit
      mrd2.pricePerUnit
  priceTimeUnit :
    PricedDescription.PriceRestored UNASSIGNED_INT this.priceTimeUnit
      mrd2.priceTimeUnit
  wallClockLimit : this.wallClockLimit = mrd2.wallClockLimit
  value : this.value = mrd2.value

/-- The least of the other size and anything that is at least as much -/
theorem minSize_maxSize (size other : Option ℚ) :
    minSize (maxSize size other) other = other := by
  cases size with
  | none =>
      cases other with
      | none => rfl
      | some known => simp [maxSize, minSize]
  | some known =>
      cases other with
      | none => rfl
      | some more => simp [maxSize, minSize]

namespace PricedDescription

variable {this mrd2 : PricedDescription}

theorem restored_iff :
    (this.increase mrd2).reduce mrd2 = this ↔ this.Restored mrd2 := by
  have negativeFloat : UNASSIGNED_FLOAT < 0 := by
    unfold UNASSIGNED_FLOAT
    norm_num
  have negativeInt : UNASSIGNED_INT < 0 := by decide
  constructor
  · intro restored
    have same {Feature : Type} (feature : PricedDescription → Feature) :
        feature ((this.increase mrd2).reduce mrd2) = feature this :=
      congrArg feature restored
    have dynamic := dynamic_restored_iff.mp (same (·.toMethodResourceDescription))
    constructor
    case processors => exact dynamic.1
    case memorySize => exact dynamic.2
    case storageSize =>
      exact (same (·.storageSize)).symm.trans (minSize_maxSize _ _)
    case storageType => exact name_restored_iff.mp (same (·.storageType))
    case operatingSystemType =>
      exact name_restored_iff.mp (same (·.operatingSystemType))
    case operatingSystemDistribution =>
      exact name_restored_iff.mp (same (·.operatingSystemDistribution))
    case operatingSystemVersion =>
      exact name_restored_iff.mp (same (·.operatingSystemVersion))
    case appSoftware => exact names_restored_iff.mp (same (·.appSoftware))
    case hostQueues => exact names_restored_iff.mp (same (·.hostQueues))
    case pricePerUnit =>
      exact (price_restored_iff negativeFloat).mp (same (·.pricePerUnit))
    case priceTimeUnit =>
      exact (price_restored_iff negativeInt).mp (same (·.priceTimeUnit))
    case wallClockLimit =>
      exact (same (·.wallClockLimit)).symm.trans
        (min_eq_right (le_max_right _ _))
    case value =>
      exact (same (·.value)).symm.trans (min_eq_right (le_max_right _ _))
  · intro condition
    rcases this with ⟨⟨dynamic, _, _, _, _, _, _, _⟩, _, _, _, _⟩
    rw [reduce, mk.injEq, CloudMethodResourceDescription.reduce,
      CloudMethodResourceDescription.mk.injEq]
    refine ⟨⟨?_, ?_, ?_, ?_, ?_, ?_, ?_, ?_⟩, ?_, ?_, ?_, ?_⟩
    · exact dynamic_restored_iff.mpr ⟨condition.processors, condition.memorySize⟩
    · exact (minSize_maxSize _ _).trans condition.storageSize.symm
    · exact name_restored_iff.mpr condition.storageType
    · exact name_restored_iff.mpr condition.operatingSystemType
    · exact name_restored_iff.mpr condition.operatingSystemDistribution
    · exact name_restored_iff.mpr condition.operatingSystemVersion
    · exact names_restored_iff.mpr condition.appSoftware
    · exact names_restored_iff.mpr condition.hostQueues
    · exact (price_restored_iff negativeFloat).mpr condition.pricePerUnit
    · exact (price_restored_iff negativeInt).mpr condition.priceTimeUnit
    · exact (min_eq_right (le_max_right _ _)).trans condition.wallClockLimit.symm
    · exact (min_eq_right (le_max_right _ _)).trans condition.value.symm

end PricedDescription

namespace PricedCloudWorker

/-- Asking only answers if the requirement is restored in every feature. -/
theorem onlyAnswers_iff
    (worker : PricedCloudWorker)
    (consumption : Requirement) :
    worker.OnlyAnswers consumption ↔
      (worker.described consumption).Restored worker.toRemove := by
  rw [← PricedDescription.restored_iff]
  cases consumption with
  | constraints requirements =>
      constructor
      · intro onlyAnswers
        exact Requirement.constraints.inj onlyAnswers.sameRequirement
      · intro restored
        exact ⟨rfl, rfl, congrArg Requirement.constraints restored⟩
  | ownDescription =>
      constructor
      · intro onlyAnswers
        exact congrArg PricedCloudWorker.description onlyAnswers.sameWorker
      · intro restored
        refine ⟨rfl, ?_, rfl⟩
        change { worker with description := _ } = worker
        exact congrArg
          (fun changed => { worker with description := changed }) restored

/-- A worker that has nothing to give up -/
def idle (description : PricedDescription) : PricedCloudWorker where
  description := description
  available := description
  toRemove := .empty
  pendingReductions := []

/-- The disk that is required is forgotten. -/
theorem not_onlyAnswers_disk :
    ¬ (idle .empty).OnlyAnswers
        (.constraints { PricedDescription.empty with storageSize := some 10 }) := by
  intro onlyAnswers
  have restored := Requirement.constraints.inj onlyAnswers.sameRequirement
  have disk : none = some (10 : ℚ) :=
    congrArg (fun requirements => requirements.storageSize) restored
  exact nomatch disk

end PricedCloudWorker

end DistributedRdf.Resources
