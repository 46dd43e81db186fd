import Mathlib.Data.List.Basic
import Mathlib.Order.Bounds.Basic
import Mathlib.Tactic.Linarith
import Mathlib.Tactic.Ring

namespace DistributedRdf.Scheduling

/-!
# Profiles of executions

A worker keeps a profile for each implementation.  The scheduler merges profiles
when it chooses a worker and when it reports on its cores.
-/

/-- `Long.MAX_VALUE` -/
def LONG_MAX_VALUE : Int := 2 ^ 63 - 1

/-- `Long.MIN_VALUE` -/
def LONG_MIN_VALUE : Int := -2 ^ 63

structure Profile where
  executions : Nat
  minTime : Int
  averageTime : Int
  maxTime : Int
  deriving DecidableEq

namespace Profile

/-- The profile of no execution -/
def new : Profile where
  executions := 0
  minTime := LONG_MAX_VALUE
  averageTime := 100
  maxTime := LONG_MIN_VALUE

/--
An execution ends after `elapsed` milliseconds.  What `end` computes of the
earlier times is overwritten with the time of this execution.
-/
def end' (profile : Profile) (elapsed : Nat) : Profile where
  executions := profile.executions + 1
  minTime := elapsed
  averageTime := elapsed
  maxTime := elapsed

def accumulate (profile other : Profile) : Profile where
  minTime := min profile.minTime other.minTime
  averageTime :=
    (other.averageTime + profile.executions * profile.averageTime).tdiv
      (profile.executions + 1)
  maxTime := max profile.maxTime other.maxTime
  executions := profile.executions + other.executions

/-- What a merged profile is to say of the two profiles. -/
structure Merges (profile other merged : Profile) : Prop where
  executions : merged.executions = profile.executions + other.executions
  minTime : merged.minTime = min profile.minTime other.minTime
  maxTime : merged.maxTime = max profile.maxTime other.maxTime
  averageTime :
    0 < profile.executions + other.executions →
      merged.averageTime =
        (profile.executions * profile.averageTime +
            other.executions * other.averageTime) /
          (profile.executions + other.executions)
  ofEmpty : profile.executions = 0 → merged = other
  withEmpty : other.executions = 0 → merged = profile

/-- A profile of measured times, or the one of no execution -/
structure IsMeasured (profile : Profile) : Prop where
  empty : profile.executions = 0 → profile = new
  averageTime : 0 ≤ profile.averageTime
  minTime : profile.minTime ≤ LONG_MAX_VALUE
  maxTime : LONG_MIN_VALUE ≤ profile.maxTime

/--
`accumulate` gives the other profile the weight of one execution.  This goes
unnoticed when the profile itself is empty, when the other one is of one
execution, and when the averages are too close for the rounded difference.
-/
def WeighedRight (profile other : Profile) : Prop :=
  let difference := other.averageTime - profile.averageTime
  profile.executions = 0 ∨ other.executions = 1 ∨
    difference / (profile.executions + 1) =
      difference * other.executions /
        (profile.executions + other.executions)

theorem new_isMeasured : new.IsMeasured where
  empty := fun _ => rfl
  averageTime := by decide
  minTime := le_refl _
  maxTime := le_refl _

theorem end_isMeasured (profile : Profile) {elapsed : Nat}
    (elapsedLong : (elapsed : Int) ≤ LONG_MAX_VALUE) :
    (profile.end' elapsed).IsMeasured where
  empty := by
    intro noExecution
    simp [end'] at noExecution
  averageTime := Int.natCast_nonneg elapsed
  minTime := elapsedLong
  maxTime := by
    have bound : LONG_MIN_VALUE ≤ 0 := by decide
    exact bound.trans (Int.natCast_nonneg elapsed)

/-!
## One merge
-/

variable
  {profile other merged : Profile}

/-- The merged average is the first one and a part of the difference. -/
theorem accumulate_averageTime
    (measured : profile.IsMeasured)
    (otherMeasured : other.IsMeasured) :
    (profile.accumulate other).averageTime =
      profile.averageTime +
        (other.averageTime - profile.averageTime) /
          (profile.executions + 1) := by
  have weight : (profile.executions + 1 : Int) ≠ 0 := by omega
  have nonneg :
      0 ≤ other.averageTime + profile.executions * profile.averageTime :=
    add_nonneg otherMeasured.averageTime
      (mul_nonneg (Int.natCast_nonneg _) measured.averageTime)
  have regrouped :
      other.averageTime + profile.executions * profile.averageTime =
        (other.averageTime - profile.averageTime) +
          profile.averageTime * (profile.executions + 1) := by
    ring
  change Int.tdiv _ (profile.executions + 1) = _
  rw [Int.tdiv_eq_ediv_of_nonneg nonneg, regrouped,
    Int.add_mul_ediv_right _ _ weight, add_comm]

theorem weighted_average
    (some : 0 < profile.executions + other.executions) :
    ((profile.executions * profile.averageTime +
        other.executions * other.averageTime) /
      (profile.executions + other.executions) : Int) =
      profile.averageTime +
        (other.averageTime - profile.averageTime) * other.executions /
          (profile.executions + other.executions) := by
  have weight : (profile.executions + other.executions : Int) ≠ 0 := by omega
  have regrouped :
      (profile.executions * profile.averageTime +
          other.executions * other.averageTime : Int) =
        (other.averageTime - profile.averageTime) * other.executions +
          profile.averageTime * (profile.executions + other.executions) := by
    ring
  rw [regrouped, Int.add_mul_ediv_right _ _ weight, add_comm]

theorem new_accumulate (measured : other.IsMeasured) :
    new.accumulate other = other := by
  have least : min LONG_MAX_VALUE other.minTime = other.minTime :=
    min_eq_right measured.minTime
  have greatest : max LONG_MIN_VALUE other.maxTime = other.maxTime :=
    max_eq_right measured.maxTime
  simp [accumulate, new, least, greatest]

theorem accumulate_isMeasured
    (measured : profile.IsMeasured)
    (otherMeasured : other.IsMeasured) :
    (profile.accumulate other).IsMeasured where
  empty := by
    intro noExecution
    obtain ⟨empty, otherEmpty⟩ := Nat.add_eq_zero_iff.mp noExecution
    rw [measured.empty empty, otherMeasured.empty otherEmpty]
    exact new_accumulate new_isMeasured
  averageTime := by
    refine Int.tdiv_nonneg ?_ (by omega)
    exact add_nonneg otherMeasured.averageTime
      (mul_nonneg (Int.natCast_nonneg _) measured.averageTime)
  minTime := (min_le_left _ _).trans measured.minTime
  maxTime := measured.maxTime.trans (le_max_left _ _)

/-- The merge is right exactly when the weight of the other goes unnoticed. -/
theorem merges_iff
    (measured : profile.IsMeasured)
    (otherMeasured : other.IsMeasured) :
    profile.Merges other (profile.accumulate other) ↔
      profile.WeighedRight other := by
  by_cases empty : profile.executions = 0
  · have isNew := measured.empty empty
    subst isNew
    have isOther := new_accumulate otherMeasured
    refine iff_of_true ?_ (Or.inl rfl)
    exact {
      executions := rfl
      minTime := rfl
      maxTime := rfl
      averageTime := by
        intro some
        have weight : (other.executions : Int) ≠ 0 := by
          have : other.executions ≠ 0 := by simpa [new] using some.ne'
          exact_mod_cast this
        rw [isOther]
        simp [new, Int.mul_ediv_cancel_left _ weight]
      ofEmpty := fun _ => isOther
      withEmpty := by
        intro otherEmpty
        rw [isOther, otherMeasured.empty otherEmpty] }
  · have some : 0 < profile.executions + other.executions := by omega
    have average := accumulate_averageTime measured otherMeasured
    constructor
    · intro merges
      have same := merges.averageTime some
      rw [average, weighted_average some] at same
      exact Or.inr (Or.inr (add_left_cancel same))
    · intro weighedRight
      have same :
          (other.averageTime - profile.averageTime) /
              (profile.executions + 1) =
            (other.averageTime - profile.averageTime) * other.executions /
              (profile.executions + other.executions : Int) := by
        obtain isEmpty | single | same := weighedRight
        · exact absurd isEmpty empty
        · rw [single]
          simp
        · exact same
      exact {
        executions := rfl
        minTime := rfl
        maxTime := rfl
        averageTime := by
          intro some
          rw [average, weighted_average some, same]
        ofEmpty := fun isEmpty => absurd isEmpty empty
        withEmpty := by
          intro otherEmpty
          have isNew := otherMeasured.empty otherEmpty
          have least : min profile.minTime LONG_MAX_VALUE = profile.minTime :=
            min_eq_left measured.minTime
          have greatest :
              max profile.maxTime LONG_MIN_VALUE = profile.maxTime :=
            max_eq_left measured.maxTime
          subst isNew
          cases profile
          simp_all [accumulate, new] }

/-- The merged average is the weighted one, rounded down. -/
theorem Merges.weighted
    (merges : profile.Merges other merged) :
    (merged.executions * merged.averageTime : Int) ≤
        profile.executions * profile.averageTime +
          other.executions * other.averageTime ∧
      (profile.executions * profile.averageTime +
          other.executions * other.averageTime : Int) ≤
        merged.executions * (merged.averageTime + 1) := by
  have count : (merged.executions : Int) =
      profile.executions + other.executions := by
    exact_mod_cast merges.executions
  obtain none | some :=
    Nat.eq_zero_or_pos (profile.executions + other.executions)
  · obtain ⟨empty, otherEmpty⟩ := Nat.add_eq_zero_iff.mp none
    simp [count, empty, otherEmpty]
  · have positive : (0 : Int) < profile.executions + other.executions := by
      exact_mod_cast some
    have average := merges.averageTime some
    rw [count, average]
    constructor
    · exact Int.mul_ediv_self_le positive.ne'
    · have below := Int.lt_mul_ediv_self_add
        (x := (profile.executions * profile.averageTime +
          other.executions * other.averageTime : Int)) positive
      linarith

end Profile

/-!
## Any order and any grouping
-/

/-- A profile together with what makes it one of measured times -/
structure MeasuredProfile where
  profile : Profile
  measured : profile.IsMeasured

/-- How a collection of profiles is merged -/
inductive Merging where
  | given (measured : MeasuredProfile)
  | merge (into other : Merging)

namespace Merging

/-- The profiles that are merged -/
def profiles : Merging → List Profile
  | .given measured => [measured.profile]
  | .merge into other => into.profiles ++ other.profiles

/-- The profile that is the outcome -/
def result : Merging → Profile
  | .given measured => measured.profile
  | .merge into other => into.result.accumulate other.result

/-- How many merges stand above one another -/
def depth : Merging → Nat
  | .given _ => 0
  | .merge into other => max into.depth other.depth + 1

/-- The executions of all the profiles -/
def executions (merging : Merging) : Nat :=
  (merging.profiles.map Profile.executions).sum

variable (merging : Merging)

/-- The time of all the executions, by the averages of the profiles -/
def totalTime : Int :=
  (merging.profiles.map fun profile =>
    (profile.executions : Int) * profile.averageTime).sum

/-- The values that a field has in the profiles -/
def valuesOf (field : Profile → Int) : Set Int :=
  {value | ∃ profile ∈ merging.profiles, field profile = value}

/--
The outcome says of the whole collection what it is to say.  Each merge rounds
its average down once.
-/
structure Summarises (result : Profile) : Prop where
  executions : result.executions = merging.executions
  minTime : IsLeast (merging.valuesOf Profile.minTime) result.minTime
  maxTime : IsGreatest (merging.valuesOf Profile.maxTime) result.maxTime
  atMost :
    merging.executions * result.averageTime ≤ merging.totalTime
  atLeast :
    merging.totalTime ≤
      merging.executions * (result.averageTime + merging.depth)

/-- Every merge is right, for its two sides and for all that they stand for. -/
def AllRight : Merging → Prop
  | .given _ => True
  | .merge into other =>
      into.AllRight ∧ other.AllRight ∧
        into.result.Merges other.result (merge into other).result ∧
          (merge into other).Summarises (merge into other).result

/-- Nowhere in the collection is a weight missing. -/
def AllWeighedRight : Merging → Prop
  | .given _ => True
  | .merge into other =>
      into.AllWeighedRight ∧ other.AllWeighedRight ∧
        into.result.WeighedRight other.result

theorem result_isMeasured :
    merging.result.IsMeasured := by
  induction merging with
  | given measured => exact measured.measured
  | merge into other intoMeasured otherMeasured =>
      exact Profile.accumulate_isMeasured intoMeasured otherMeasured

theorem executions_merge (into other : Merging) :
    (merge into other).executions = into.executions + other.executions := by
  simp [executions, profiles]

theorem totalTime_merge (into other : Merging) :
    (merge into other).totalTime = into.totalTime + other.totalTime := by
  simp [totalTime, profiles]

variable (measured : MeasuredProfile)

theorem valuesOf_given (field : Profile → Int) :
    (given measured).valuesOf field = {field measured.profile} := by
  ext value
  simp [valuesOf, profiles, eq_comm]

theorem valuesOf_merge (into other : Merging) (field : Profile → Int) :
    (merge into other).valuesOf field =
      into.valuesOf field ∪ other.valuesOf field := by
  ext value
  simp [valuesOf, profiles, or_and_right, exists_or]

theorem Summarises.within
    {merging : Merging}
    {result : Profile}
    {depth : Nat}
    (summarises : merging.Summarises result)
    (notDeeper : merging.depth ≤ depth) :
    merging.totalTime ≤
      result.executions * result.averageTime + result.executions * depth := by
  have deeper : result.averageTime + (merging.depth : Int) ≤
      result.averageTime + depth := by
    have : (merging.depth : Int) ≤ depth := by exact_mod_cast notDeeper
    linarith
  calc merging.totalTime
      ≤ merging.executions * (result.averageTime + merging.depth) :=
        summarises.atLeast
    _ ≤ merging.executions * (result.averageTime + depth) :=
        mul_le_mul_of_nonneg_left deeper (Int.natCast_nonneg _)
    _ = result.executions * result.averageTime +
          result.executions * depth := by
        rw [summarises.executions, mul_add]

/-- A merge that is right for its two sides is right for all their profiles. -/
theorem summarises_merge
    {into other : Merging}
    (ofInto : into.Summarises into.result)
    (ofOther : other.Summarises other.result)
    (right : into.result.Merges other.result (merge into other).result) :
    (into.merge other).Summarises (into.merge other).result where
  executions := by
    rw [right.executions, ofInto.executions, ofOther.executions,
      executions_merge]
  minTime := by
    rw [right.minTime, valuesOf_merge]
    exact ofInto.minTime.union ofOther.minTime
  maxTime := by
    rw [right.maxTime, valuesOf_merge]
    exact ofInto.maxTime.union ofOther.maxTime
  atMost := by
    obtain ⟨rounded, -⟩ := right.weighted
    have count := right.executions
    rw [ofInto.executions, ofOther.executions, ← executions_merge] at count
    have intoAtMost := ofInto.atMost
    have otherAtMost := ofOther.atMost
    rw [← ofInto.executions] at intoAtMost
    rw [← ofOther.executions] at otherAtMost
    rw [← count, totalTime_merge]
    exact rounded.trans (add_le_add intoAtMost otherAtMost)
  atLeast := by
    obtain ⟨-, rounded⟩ := right.weighted
    have count := right.executions
    have intoWithin := ofInto.within (le_max_left into.depth other.depth)
    have otherWithin := ofOther.within (le_max_right into.depth other.depth)
    have total : ((merge into other).executions : Int) =
        into.result.executions + other.result.executions := by
      rw [executions_merge, ofInto.executions, ofOther.executions]
      exact Nat.cast_add _ _
    rw [count, Nat.cast_add] at rounded
    rw [totalTime_merge, total]
    simp only [depth, Nat.cast_add, Nat.cast_one]
    linarith

/-- A profile by itself says of itself what it is to say. -/
theorem summarises_given :
    (given measured).Summarises measured.profile where
  executions := by simp [executions, profiles]
  minTime := by simp [valuesOf_given]
  maxTime := by simp [valuesOf_given]
  atMost := by simp [executions, totalTime, profiles]
  atLeast := by simp [executions, totalTime, profiles, depth]

theorem summarises_of_allWeighedRight
    (weighedRight : merging.AllWeighedRight) :
    merging.AllRight ∧ merging.Summarises merging.result := by
  induction merging with
  | given measured => exact ⟨trivial, summarises_given measured⟩
  | merge into other intoSummarised otherSummarised =>
      obtain ⟨intoWeighed, otherWeighed, weighed⟩ := weighedRight
      obtain ⟨intoRight, ofInto⟩ := intoSummarised intoWeighed
      obtain ⟨otherRight, ofOther⟩ := otherSummarised otherWeighed
      have right :=
        (Profile.merges_iff into.result_isMeasured
          other.result_isMeasured).mpr weighed
      have whole := summarises_merge ofInto ofOther right
      exact ⟨⟨intoRight, otherRight, right, whole⟩, whole⟩

/--
Merging in any order and any grouping gives the counts, the least and the
greatest time and the weighted average of the collection exactly when no merge
misses the weight of the profile that it adds.
-/
theorem allRight_iff (merging : Merging) :
    merging.AllRight ↔ merging.AllWeighedRight := by
  constructor
  · intro allRight
    induction merging with
    | given measured => trivial
    | merge into other intoWeighed otherWeighed =>
        obtain ⟨intoRight, otherRight, right, -⟩ := allRight
        exact ⟨intoWeighed intoRight, otherWeighed otherRight,
          (Profile.merges_iff into.result_isMeasured
            other.result_isMeasured).mp right⟩
  · intro weighedRight
    exact (summarises_of_allWeighedRight merging weighedRight).1

/-- A profile to which executions of the given times have been added -/
def executed (elapsed : List Nat) : Profile :=
  elapsed.foldl Profile.end' .new

/-- One execution of no time, to which three of 300 milliseconds are added -/
def lightMerging : Merging :=
  .merge
    (.given ⟨executed [0], Profile.end_isMeasured _ (by decide)⟩)
    (.given ⟨executed [300, 300, 300], Profile.end_isMeasured _ (by decide)⟩)

/-- The merged average is 150 milliseconds; the four executions took 225. -/
theorem not_allRight_lightMerging :
    ¬ ∀ merging : Merging, merging.AllRight := by
  intro allRight
  obtain ⟨-, -, merges, -⟩ := allRight lightMerging
  have average := merges.averageTime (by decide)
  revert average
  decide

end Merging

end DistributedRdf.Scheduling
