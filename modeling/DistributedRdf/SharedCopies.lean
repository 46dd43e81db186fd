import DistributedRdf.CopySections

namespace DistributedRdf.Data

open Java Execution Transfers

/-!
# How immediate copies share and register

Every listener is notified once, through all interleavings of the sections.
The target data, though, get the target location of a copy that has failed as
well, so that what they say is right as long as the location is one that
another copy has reached.
-/

variable
  {count : Nat}
  {setting : Setting (Fin count)}
  {transfers : Transfers (Fin count)}

structure SharesAndRegisters
    (setting : Setting (Fin count))
    (transfers : Transfers (Fin count)) : Prop where
  atMostOnce :
    ∀ registration, notifiedCount transfers registration ≤
      transfers.registered.count registration
  answered :
    (∀ this, transfers.phase this = .finished) →
      ∀ registration, notifiedCount transfers registration =
        transfers.registered.count registration
  told : ∀ notification ∈ transfers.notifications,
    IsTrue setting transfers notification
  skipped : ∀ skip ∈ transfers.skipped,
    IsAllowed setting transfers skip.1 skip.2
  added : ∀ loc ∈ transfers.added, loc ∈ transfers.placed
  goesOn :
    ∀ this, transfers.phase this ≠ .finished →
      ∃ step, step.isPerformed ∧ transfers.Enabled setting step

namespace Consistent

theorem sharesAndRegisters
    (consistent : Consistent setting transfers) :
    SharesAndRegisters setting transfers where
  atMostOnce := by
    intro registration
    have counts := consistent.kept.counts registration
    omega
  answered := by
    intro finished registration
    have nothingPending :
        ∑ this, pending transfers registration this = 0 := by
      refine Finset.sum_eq_zero fun this _ => ?_
      rw [pending, finished this]
      rfl
    have counts := consistent.kept.counts registration
    omega
  told := consistent.recorded.told
  skipped := consistent.recorded.skipped
  added := consistent.recorded.added
  goesOn := consistent.goesOn

end Consistent

/-- Two hosts have a disk in common; the datum is on another host. -/
def sharedDiskSetting
    (copy : Fin count → CopyRequest) : Setting (Fin count) where
  surroundings :=
    { resources :=
        { hosts := [(0, [("gpfs", "/gpfs")]), (1, [("gpfs", "/mnt")]), (2, [])]
          distinct := by decide }
      storage := fun _ => [] }
  srcData := 0
  locations data := if data = 0 then [.PRIVATE 2 "/tmp/d1v2_1.IT"] else []
  copy := copy

def copyToDisk (tgtData : Option Nat) (listener : Nat) : CopyRequest where
  tgtLoc := .SHARED "gpfs" "d1v2_1.IT"
  isPlace _ := nofun
  tgtData := tgtData
  listener := listener

/-- The second copy is handed over to the first one; the third one fails. -/
def threeCopies : List (CopyStep (Fin 3)) :=
  [.perform 0, .perform 2, .perform 1, .specificCopy 2 false,
    .specificCopy 0 true, .handOver 1, .addEventListener 0 9, .endFailed 2,
    .finishedCopy 0, .registerTarget 0 (some 1), .finishedCopy 2,
    .endCopied 0, .registerTarget 2 none]

def threeCopiesSetting : Setting (Fin 3) :=
  sharedDiskSetting
    ![copyToDisk (some 0) 7, copyToDisk (some 0) 8, copyToDisk none 6]

instance RegistersPlaced.decidable
    (setting : Setting (Fin count))
    (transfers : Transfers (Fin count)) :
    (step : CopyStep (Fin count)) →
      Decidable (RegistersPlaced setting transfers step)
  | .perform _ => inferInstanceAs (Decidable (_ ≠ _))
  | .registerTarget _ _ => inferInstanceAs (Decidable (_ → _ ∨ _ ∨ _))
  | .handOver _ => isTrue trivial
  | .specificCopy _ _ => isTrue trivial
  | .endFailed _ => isTrue trivial
  | .finishedCopy _ => isTrue trivial
  | .endCopied _ => isTrue trivial
  | .addEventListener _ _ => isTrue trivial

end DistributedRdf.Data
