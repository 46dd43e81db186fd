import DistributedRdf.FailedReservations
import Mathlib.Data.Rat.Floor

namespace DistributedRdf.Scheduling.MethodResourceDescription

open List Option

/-!
# Slots of a machine

How many copies of some requirements a machine is said to host, and how many of
them can be reserved from it one after another.
-/

/-- `Integer.MAX_VALUE` -/
def MAX_VALUE : Int :=
  2 ^ 31 - 1

/-- `(int)` of a `float` -/
def truncate (ratio : ℚ) : Int :=
  ratio.num.tdiv ratio.den

/-- A global restriction replaces what was found before. -/
def restrictTotal
    (this rc2 : MethodResourceDescription)
    (found : Int)
    (type : ProcessorType) : Int :=
  if rc2.totalComputingUnits type ≥ 1 then
    (this.totalComputingUnits type).tdiv (rc2.totalComputingUnits type)
  else
    found

/-- Integers are divided here, so that a division by zero is an exception. -/
def restrictProcessor
    (p : Processor)
    (found : Int)
    (pThis : Processor) : Option Int :=
  if checkProcessorCompatibility pThis.kind p.kind then
    if p.computingUnits = 0 then
      none
    else
      some (min found (pThis.computingUnits.tdiv p.computingUnits))
  else
    some found

def restrictMemory
    (this rc2 : MethodResourceDescription)
    (found : Int) : Int :=
  match this.memorySize, rc2.memorySize with
  | some size, some required =>
      if required > 0 then
        min found (truncate (size / required))
      else
        found
  | _, _ => found

/-- `none` is an `ArithmeticException`. -/
def canHostSimultaneously (this rc2 : MethodResourceDescription) : Option Int := do
  let found := [.CPU, .GPU, .FPGA].foldl (restrictTotal this rc2) MAX_VALUE
  let found ←
    rc2.processors.foldlM
      (fun found p => this.processors.foldlM (restrictProcessor p) found) found
  return restrictMemory this rc2 found

/-- Reserves some copies, one after another. -/
def reserveCopies (rc2 : MethodResourceDescription) :
    Nat → MethodResourceDescription → Option MethodResourceDescription
  | 0, this => some this
  | n + 1, this =>
      match this.reduceDynamic rc2 with
      | (after, some _) => reserveCopies rc2 n after
      | (_, none) => none

def CanReserve (this rc2 : MethodResourceDescription) (n : Nat) : Prop :=
  (reserveCopies rc2 n this).isSome

structure NeedsNothing (this : MethodResourceDescription) : Prop where
  processors : ∀ p ∈ this.processors, p.computingUnits = 0
  totals : ∀ type, this.totalComputingUnits type = 0
  memorySize : ∀ size ∈ this.memorySize, size ≤ 0

/--
The greatest number of copies that can be reserved, or `MAX_VALUE` if nothing is
needed and there is no greatest number.
-/
def SlotCountExact (this rc2 : MethodResourceDescription) : Prop :=
  ∃ count,
    this.canHostSimultaneously rc2 = some count ∧
      ((∃ n : Nat, count = n ∧ IsGreatest {n | CanReserve this rc2 n} n) ∨
        count = MAX_VALUE ∧ rc2.NeedsNothing ∧ ∀ n, CanReserve this rc2 n)

/-!
## The restrictions
-/

/-- How often the units of the compatible processors hold what is required -/
def unitRatios
    (processors : List Processor)
    (p : Processor) : List Int :=
  (processors.filter fun pThis =>
    checkProcessorCompatibility pThis.kind p.kind).map fun pThis =>
      pThis.computingUnits.tdiv p.computingUnits

def unitLimits (this rc2 : MethodResourceDescription) : List Int :=
  [.CPU, .GPU, .FPGA].foldl (restrictTotal this rc2) MAX_VALUE ::
    rc2.processors.flatMap (unitRatios this.processors)

/-- How often the memory holds what is required, if it does not hold it forever -/
def memoryLimit (this rc2 : MethodResourceDescription) : Option Int :=
  match this.memorySize, rc2.memorySize with
  | some size, some required =>
      if required > 0 then some (truncate (size / required)) else none
  | _, _ => none

def limits (this rc2 : MethodResourceDescription) : List Int :=
  unitLimits this rc2 ++ (memoryLimit this rc2).toList

/-- A compatible requirement asks for computing units. -/
def DividesByUnits (this rc2 : MethodResourceDescription) : Prop :=
  ∀ p ∈ rc2.processors, ∀ pThis ∈ this.processors,
    checkProcessorCompatibility pThis.kind p.kind → p.computingUnits ≠ 0

theorem isLeast_foldl_min (first : Int) (rest : List Int) :
    IsLeast {limit | limit ∈ first :: rest} (rest.foldl min first) := by
  induction rest generalizing first with
  | nil => simp
  | cons second rest hypothesis =>
      obtain ⟨isLimit, isLower⟩ := hypothesis (min first second)
      constructor
      · rcases mem_cons.mp isLimit with isFirst | isLater
        · rw [foldl_cons, isFirst]
          rcases min_choice first second with isMin | isMin
          · rw [isMin]
            exact mem_cons_self
          · rw [isMin]
            exact mem_cons_of_mem _ mem_cons_self
        · exact mem_cons_of_mem _ (mem_cons_of_mem _ isLater)
      · have least := isLower mem_cons_self
        refine forall_mem_cons.mpr ⟨?_, forall_mem_cons.mpr ⟨?_, ?_⟩⟩
        · exact least.trans (min_le_left _ _)
        · exact least.trans (min_le_right _ _)
        · exact fun limit isLater => isLower (mem_cons_of_mem _ isLater)

section Loops

variable {this rc2 : MethodResourceDescription}

variable
  {p : Processor}
  {processors : List Processor}

theorem foldlM_restrictProcessor
    (divides :
      ∀ pThis ∈ processors,
        checkProcessorCompatibility pThis.kind p.kind → p.computingUnits ≠ 0)
    (found : Int) :
    processors.foldlM (restrictProcessor p) found =
      some ((unitRatios processors p).foldl min found) := by
  induction processors generalizing found with
  | nil => rfl
  | cons pThis rest hypothesis =>
      obtain ⟨dividesFirst, dividesRest⟩ := forall_mem_cons.mp divides
      rw [foldlM_cons, restrictProcessor, unitRatios, filter_cons]
      by_cases compatible : checkProcessorCompatibility pThis.kind p.kind
      · rw [if_pos compatible, if_neg (dividesFirst compatible), if_pos compatible]
        exact hypothesis dividesRest _
      · rw [if_neg compatible, if_neg compatible]
        exact hypothesis dividesRest _

theorem foldlM_restrictProcessor_zero
    (isZero : p.computingUnits = 0)
    {pThis : Processor}
    (isProcessor : pThis ∈ processors)
    (compatible : checkProcessorCompatibility pThis.kind p.kind)
    (found : Int) :
    processors.foldlM (restrictProcessor p) found = none := by
  induction processors generalizing found with
  | nil => exact nomatch isProcessor
  | cons first rest hypothesis =>
      rw [foldlM_cons, restrictProcessor]
      by_cases firstCompatible : checkProcessorCompatibility first.kind p.kind
      · rw [if_pos firstCompatible, if_pos isZero]
        rfl
      · rw [if_neg firstCompatible]
        rcases mem_cons.mp isProcessor with isFirst | isLater
        · exact absurd (isFirst ▸ compatible) firstCompatible
        · exact hypothesis isLater found

variable {required : List Processor}

/-- The loops over the processors of both descriptions -/
theorem foldlM_processors
    (divides :
      ∀ p ∈ required, ∀ pThis ∈ this.processors,
        checkProcessorCompatibility pThis.kind p.kind → p.computingUnits ≠ 0)
    (found : Int) :
    required.foldlM
        (fun found p => this.processors.foldlM (restrictProcessor p) found)
        found =
      some ((required.flatMap (unitRatios this.processors)).foldl min found) := by
  induction required generalizing found with
  | nil => rfl
  | cons p rest hypothesis =>
      obtain ⟨dividesFirst, dividesRest⟩ := forall_mem_cons.mp divides
      rw [foldlM_cons, foldlM_restrictProcessor dividesFirst,
        flatMap_cons, foldl_append]
      exact hypothesis dividesRest _

theorem foldlM_processors_zero
    {p pThis : Processor}
    (isRequired : p ∈ required)
    (isZero : p.computingUnits = 0)
    (isProcessor : pThis ∈ this.processors)
    (compatible : checkProcessorCompatibility pThis.kind p.kind)
    (found : Int) :
    required.foldlM
        (fun found p => this.processors.foldlM (restrictProcessor p) found)
        found = none := by
  induction required generalizing found with
  | nil => exact nomatch isRequired
  | cons first rest hypothesis =>
      rw [foldlM_cons]
      rcases mem_cons.mp isRequired with isFirst | isLater
      · rw [← isFirst, foldlM_restrictProcessor_zero isZero isProcessor
          compatible]
        rfl
      · cases this.processors.foldlM (restrictProcessor first) found with
        | none => rfl
        | some next => exact hypothesis isLater next

theorem restrictMemory_eq (found : Int) :
    restrictMemory this rc2 found =
      (memoryLimit this rc2).toList.foldl min found := by
  unfold restrictMemory memoryLimit
  cases this.memorySize with
  | none => rfl
  | some size =>
      cases rc2.memorySize with
      | none => rfl
      | some required =>
          dsimp only
          split <;> rfl

/-- The answer is the least of the limits, unless there is an exception. -/
theorem canHostSimultaneously_eq_some_iff {count : Int} :
    this.canHostSimultaneously rc2 = some count ↔
      DividesByUnits this rc2 ∧
        IsLeast {limit | limit ∈ limits this rc2} count := by
  by_cases divides : DividesByUnits this rc2
  · have counted :
        this.canHostSimultaneously rc2 =
          some ((rc2.processors.flatMap (unitRatios this.processors) ++
            (memoryLimit this rc2).toList).foldl min
              ([.CPU, .GPU, .FPGA].foldl (restrictTotal this rc2) MAX_VALUE)) := by
      rw [canHostSimultaneously, foldlM_processors divides, foldl_append,
        ← restrictMemory_eq]
      rfl
    have isLeast :=
      isLeast_foldl_min
        ([.CPU, .GPU, .FPGA].foldl (restrictTotal this rc2) MAX_VALUE)
        (rc2.processors.flatMap (unitRatios this.processors) ++
          (memoryLimit this rc2).toList)
    rw [counted, some.injEq]
    constructor
    · rintro rfl
      exact ⟨divides, isLeast⟩
    · rintro ⟨-, other⟩
      exact isLeast.unique other
  · have raised : this.canHostSimultaneously rc2 = none := by
      unfold DividesByUnits at divides
      push Not at divides
      obtain ⟨p, isRequired, pThis, isProcessor, compatible, isZero⟩ := divides
      rw [canHostSimultaneously, foldlM_processors_zero isRequired isZero
        isProcessor compatible]
      rfl
    rw [raised]
    exact ⟨nofun, fun ⟨other, _⟩ => absurd other divides⟩

end Loops

/-!
## The copies that can be reserved
-/

/-- Nothing in the description is asked of anything but compatible processors. -/
def Reservable (this rc2 : MethodResourceDescription) : Prop :=
  AllServed this.kinds rc2.processors ∧ this.checkMemory rc2

section Copies

variable {this rc2 : MethodResourceDescription}

theorem canReserve_zero : CanReserve this rc2 0 :=
  rfl

/-- After a copy is reserved the same processors are there and less memory. -/
theorem exists_canReserve_succ
    (reservable : Reservable this rc2) :
    ∃ after,
      after.kinds = this.kinds ∧
        after.memoryType = this.memoryType ∧
        after.memorySize =
          (match this.memorySize, rc2.memorySize with
          | some size, some required => some (size - required)
          | size, _ => size) ∧
        ∀ n, CanReserve this rc2 (n + 1) ↔ CanReserve after rc2 n := by
  obtain ⟨after, reduced, outcome, reserved⟩ :=
    reduceDynamic_of_served reservable.1 reservable.2
  refine ⟨after, reserved.processors.kinds, reserved.memoryType,
    reserved.memorySize, fun n => ?_⟩
  rw [CanReserve, reserveCopies, outcome]
  rfl

theorem not_canReserve_succ
    (notReservable : ¬ Reservable this rc2)
    (n : Nat) :
    ¬ CanReserve this rc2 (n + 1) := by
  obtain ⟨after, taken, outcome, -⟩ := reduceDynamic_failed notReservable
  rw [CanReserve, reserveCopies, outcome]
  exact Bool.false_ne_true

/-- The check of the memory, with the type apart from the size -/
theorem reservable_iff :
    Reservable this rc2 ↔
      (AllServed this.kinds rc2.processors ∧
        checkCompatibility this.memoryType rc2.memoryType) ∧
        checkInclusion this.memorySize rc2.memorySize := by
  rw [Reservable, checkMemory, Bool.and_eq_true]
  tauto

/-- Memory that does not run out is there for every copy. -/
theorem canReserve_of_unlimited
    (reservable : Reservable this rc2)
    (unlimited : memoryLimit this rc2 = none)
    (n : Nat) :
    CanReserve this rc2 n := by
  induction n generalizing this with
  | zero => exact canReserve_zero
  | succ n hypothesis =>
      obtain ⟨after, kinds, memoryType, memorySize, next⟩ :=
        exists_canReserve_succ reservable
      have checks := reservable_iff.mp reservable
      refine (next n).mpr (hypothesis ?_ ?_)
      · rw [reservable_iff, kinds, memoryType, memorySize]
        refine ⟨checks.1, ?_⟩
        unfold memoryLimit at unlimited
        have enough := checks.2
        cases available : this.memorySize with
        | none => rfl
        | some size =>
            cases asked : rc2.memorySize with
            | none => rfl
            | some required =>
                rw [available, asked] at unlimited enough
                have notPositive : ¬ required > 0 := by
                  intro positive
                  dsimp only at unlimited
                  rw [if_pos positive] at unlimited
                  exact nomatch unlimited
                have fits : required ≤ size := of_decide_eq_true enough
                exact decide_eq_true (by linarith)
      · unfold memoryLimit at unlimited ⊢
        rw [memorySize]
        cases available : this.memorySize with
        | none => rfl
        | some size =>
            cases asked : rc2.memorySize with
            | none => rfl
            | some required =>
                rw [available, asked] at unlimited
                dsimp only at unlimited ⊢
                split at unlimited
                case isTrue => exact nomatch unlimited
                case isFalse notPositive => rw [if_neg notPositive]

/-- Memory that runs out is there for as many copies as it holds. -/
theorem canReserve_iff_of_limited
    {size required : ℚ}
    (served :
      AllServed this.kinds rc2.processors ∧
        checkCompatibility this.memoryType rc2.memoryType)
    (available : this.memorySize = some size)
    (asked : rc2.memorySize = some required)
    (positive : 0 < required)
    (n : Nat) :
    CanReserve this rc2 n ↔ n = 0 ∨ n * required ≤ size := by
  induction n generalizing this size with
  | zero => exact iff_of_true canReserve_zero (Or.inl rfl)
  | succ n hypothesis =>
      have fits : checkInclusion this.memorySize rc2.memorySize ↔
          required ≤ size := by
        rw [available, asked]
        exact decide_eq_true_iff
      by_cases reservable : Reservable this rc2
      · obtain ⟨after, kinds, memoryType, memorySize, next⟩ :=
          exists_canReserve_succ reservable
        rw [available, asked] at memorySize
        rw [next n, hypothesis (kinds ▸ memoryType ▸ served) memorySize]
        have holds := fits.mp (reservable_iff.mp reservable).2
        rw [Nat.cast_succ]
        constructor
        · rintro (rfl | enough)
          · right
            simpa using holds
          · right
            linarith
        · rintro (impossible | enough)
          · exact absurd impossible (Nat.succ_ne_zero n)
          · right
            linarith
      · refine iff_of_false (not_canReserve_succ reservable n) ?_
        rintro (impossible | enough)
        · exact absurd impossible (Nat.succ_ne_zero n)
        · refine reservable (reservable_iff.mpr ⟨served, fits.mpr ?_⟩)
          rw [Nat.cast_succ] at enough
          have nonNegative : 0 ≤ (n : ℚ) * required :=
            mul_nonneg n.cast_nonneg positive.le
          linarith

end Copies

/-!
## When the count is exact
-/

/--
Memory that runs out does so before the units do, and without such memory there
is nothing that is needed.  A machine that cannot serve a requirement has less
than what is required of something.
-/
def CountsRight (this rc2 : MethodResourceDescription) : Prop :=
  DividesByUnits this rc2 ∧
    (Reservable this rc2 →
      match memoryLimit this rc2 with
      | some copies => ∀ limit ∈ unitLimits this rc2, copies ≤ limit
      | none => rc2.NeedsNothing) ∧
    (¬ Reservable this rc2 → IsLeast {limit | limit ∈ limits this rc2} 0)

section Exactness

variable {this rc2 : MethodResourceDescription}

theorem natCast_le_truncate
    {ratio : ℚ}
    (nonNegative : 0 ≤ ratio)
    (n : Nat) :
    (n : Int) ≤ truncate ratio ↔ (n : ℚ) ≤ ratio := by
  have floor : truncate ratio = ⌊ratio⌋ := by
    rw [truncate, Rat.floor_def']
    exact Int.tdiv_eq_ediv_of_nonneg (Rat.num_nonneg.mpr nonNegative)
  rw [floor, Int.le_floor]
  norm_cast

theorem isGreatest_zero
    (notReservable : ¬ Reservable this rc2) :
    IsGreatest {n | CanReserve this rc2 n} 0 := by
  refine ⟨canReserve_zero, fun n canReserve => ?_⟩
  cases n with
  | zero => exact le_rfl
  | succ n => exact absurd canReserve (not_canReserve_succ notReservable n)

variable {copies : Int}

/-- Where the memory runs out, its limit is the number of copies. -/
theorem exists_isGreatest_of_limited
    (reservable : Reservable this rc2)
    (limited : memoryLimit this rc2 = some copies) :
    ∃ n : Nat, copies = n ∧ IsGreatest {n | CanReserve this rc2 n} n := by
  obtain ⟨served, fits⟩ := reservable_iff.mp reservable
  unfold memoryLimit at limited
  cases available : this.memorySize with
  | none =>
      rw [available] at limited
      exact nomatch limited
  | some size =>
      cases asked : rc2.memorySize with
      | none =>
          rw [available, asked] at limited
          exact nomatch limited
      | some required =>
          rw [available, asked] at limited fits
          dsimp only at limited
          split at limited
          case isFalse => exact nomatch limited
          case isTrue positive =>
            have holds : required ≤ size := of_decide_eq_true fits
            have nonNegative : 0 ≤ size / required :=
              div_nonneg (positive.le.trans holds) positive.le
            have canReserve (n : Nat) :
                CanReserve this rc2 n ↔ (n : Int) ≤ copies := by
              rw [← some.inj limited, natCast_le_truncate nonNegative,
                le_div_iff₀ positive,
                canReserve_iff_of_limited served available asked positive]
              constructor
              · rintro (rfl | enough)
                · simpa using positive.le.trans holds
                · exact enough
              · exact Or.inr
            have copiesNonNegative : 0 ≤ copies :=
              (canReserve 0).mp canReserve_zero
            have same : (copies.toNat : Int) = copies :=
              Int.toNat_of_nonneg copiesNonNegative
            refine ⟨copies.toNat, same.symm, (canReserve _).mpr same.le, ?_⟩
            intro n isReservable
            have noMore := (canReserve n).mp isReservable
            omega

theorem isLeast_limits_of_limited
    (limited : memoryLimit this rc2 = some copies) :
    IsLeast {limit | limit ∈ limits this rc2} copies ↔
      ∀ limit ∈ unitLimits this rc2, copies ≤ limit := by
  unfold limits
  rw [limited]
  constructor
  · exact fun least limit isLimit => least.2 (mem_append_left _ isLimit)
  · intro noLess
    refine ⟨mem_append_right _ mem_cons_self, fun limit isLimit => ?_⟩
    rcases mem_append.mp isLimit with ofUnits | isLast
    · exact noLess limit ofUnits
    · rw [mem_singleton.mp isLast]

/-- Nothing restricts what needs nothing. -/
theorem isLeast_limits_of_needsNothing
    (divides : DividesByUnits this rc2)
    (served : AllServed this.kinds rc2.processors)
    (unlimited : memoryLimit this rc2 = none)
    (nothing : rc2.NeedsNothing) :
    IsLeast {limit | limit ∈ limits this rc2} MAX_VALUE := by
  have noProcessors : rc2.processors = [] := by
    rw [eq_nil_iff_forall_not_mem]
    intro p isRequired
    obtain ⟨serving, servingEq⟩ :=
      isSome_iff_exists.mp (served p isRequired)
    obtain ⟨pThis, isProcessor, isServing⟩ :=
      mem_map.mp (mem_of_find?_eq_some servingEq)
    refine divides p isRequired pThis isProcessor ?_
      (nothing.processors p isRequired)
    rw [isServing]
    exact compatible_of_servingKind servingEq
  have onlyLimit : limits this rc2 = [MAX_VALUE] := by
    rw [limits, unitLimits, noProcessors, unlimited]
    simp [restrictTotal, nothing.totals]
  rw [onlyLimit]
  simp

end Exactness

end DistributedRdf.Scheduling.MethodResourceDescription
