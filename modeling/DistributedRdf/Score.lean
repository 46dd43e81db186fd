import Mathlib.Algebra.Order.Field.Rat
import Mathlib.Data.Prod.Lex

namespace DistributedRdf.Scheduling

open Prod.Lex

/-! # Scores of actions -/

structure Score where
  actionScore : ℚ
  resourceScore : ℚ
  waitingScore : ℚ
  implementationScore : ℚ
  deriving DecidableEq

namespace Score

def isBetter (this other : Score) : Bool :=
  if this.actionScore ≠ other.actionScore then
    this.actionScore > other.actionScore
  else if this.resourceScore ≠ other.resourceScore then
    this.resourceScore > other.resourceScore
  else if this.waitingScore ≠ other.waitingScore then
    this.waitingScore > other.waitingScore
  else
    this.implementationScore > other.implementationScore

/-- The better score is the greater one. -/
def compareTo (this other : Score) : Int :=
  if this = other then
    0
  else if this.isBetter other then
    1
  else
    -1

/-- The parts of a score in the order in which they decide. -/
def key (score : Score) : ℚ ×ₗ ℚ ×ₗ ℚ ×ₗ ℚ :=
  toLex (score.actionScore, toLex (score.resourceScore,
    toLex (score.waitingScore, score.implementationScore)))

theorem key_injective : Function.Injective key := by
  rintro ⟨action, resource, waiting, implementation⟩
    ⟨action', resource', waiting', implementation'⟩ sameKey
  simpa [key] using sameKey

theorem isBetter_iff (first second : Score) :
    first.isBetter second ↔ second.key < first.key := by
  unfold isBetter key
  rw [toLex_lt_toLex, toLex_lt_toLex,
    toLex_lt_toLex]
  by_cases sameAction : first.actionScore = second.actionScore
  · by_cases sameResource : first.resourceScore = second.resourceScore
    · by_cases sameWaiting : first.waitingScore = second.waitingScore
      · simp [sameAction, sameResource, sameWaiting]
      · simp [sameAction, sameResource, sameWaiting, Ne.symm sameWaiting]
    · simp [sameAction, sameResource, Ne.symm sameResource]
  · simp [sameAction, Ne.symm sameAction]

theorem compareTo_nonpos_iff (first second : Score) :
    first.compareTo second ≤ 0 ↔ first.key ≤ second.key := by
  unfold compareTo
  by_cases same : first = second
  · simp [same]
  · by_cases better : first.isBetter second
    · have less := (isBetter_iff first second).mp better
      simp [same, better, less]
    · have notLess := mt (isBetter_iff first second).mpr better
      simp [same, better, not_lt.mp notLess]

end Score

end DistributedRdf.Scheduling
