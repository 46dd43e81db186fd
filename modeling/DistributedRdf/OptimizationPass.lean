import DistributedRdf.MovedActions

namespace DistributedRdf.Scheduling

open Java List FullGraphSchedulingInformation PriorityQueue Option
open OptimizationWorker

/-!
# One pass of the optimization

The pass ends with the first candidate that a receiver takes.  The receivers
that come after that one are offered the candidate as well, with the end that it
has now.
-/

namespace GlobalPlan

variable
  {Resources Impl : Type}
  {environment : OptimizerEnvironment Resources Impl}
  {plan : GlobalPlan Resources Impl}
  {action : ActionId}
  {donor receiver : WorkerId}
  {impl : Impl}

theorem getLastGapExpectedStart_congr
    {first second : OptimizationWorker Resources}
    (sameGaps : first.resource.gaps = second.resource.gaps) :
    first.getLastGapExpectedStart = second.getLastGapExpectedStart := by
  simp only [getLastGapExpectedStart, sameGaps]

theorem taking_congr
    {first second : GlobalPlan Resources Impl}
    (sameGaps :
      (first.workers receiver).resource.gaps =
        (second.workers receiver).resource.gaps)
    (currentEnd : Int) :
    first.taking environment action receiver currentEnd =
      second.taking environment action receiver currentEnd := by
  simp only [taking, getLastGapExpectedStart_congr sameGaps]

/-- The first receiver that takes the action, and those that come after it -/
def firstTaker
    (environment : OptimizerEnvironment Resources Impl)
    (plan : GlobalPlan Resources Impl)
    (action : ActionId) :
    List WorkerId → Option (WorkerId × Impl × List WorkerId)
  | [] => none
  | receiver :: later =>
      match
        plan.taking environment action receiver
          (plan.table action).expectedEnd
      with
      | some impl => some (receiver, impl, later)
      | none => firstTaker environment plan action later

/-- The first candidate that is taken -/
def firstTaken
    (environment : OptimizerEnvironment Resources Impl)
    (plan : GlobalPlan Resources Impl)
    (receivers : List WorkerId) :
    List ActionId → Option (ActionId × WorkerId × Impl × List WorkerId)
  | [] => none
  | candidate :: rest =>
      match firstTaker environment plan candidate receivers with
      | some taker => some (candidate, taker)
      | none => firstTaken environment plan receivers rest

variable {receivers : List WorkerId}

theorem offer_of_firstTaker :
    offer environment action receivers plan =
      match firstTaker environment plan action receivers with
      | none => (plan, [])
      | some (receiver, impl, later) =>
          let moved :=
            (plan.unschedule action).schedule environment action impl receiver
          ((offer environment action later moved).1,
            receiver :: (offer environment action later moved).2) := by
  induction receivers with
  | nil => rfl
  | cons receiver later hypothesis =>
      cases taken :
          plan.taking environment action receiver
            (plan.table action).expectedEnd with
      | none =>
          simp only [offer, move, firstTaker, taken, map_none]
          exact hypothesis
      | some impl => simp only [offer, move, firstTaker, taken, map_some]

theorem offer_eq_nil_iff :
    (offer environment action receivers plan).2 = [] ↔
      ∀ receiver ∈ receivers,
        plan.taking environment action receiver
          (plan.table action).expectedEnd = none := by
  induction receivers with
  | nil => simp [offer]
  | cons receiver later hypothesis =>
      rw [forall_mem_cons]
      cases taken :
          plan.taking environment action receiver
            (plan.table action).expectedEnd with
      | none => simp [offer, move, taken, hypothesis]
      | some impl => simp [offer, move, taken]

theorem offer_of_nil
    (noTaker : (offer environment action receivers plan).2 = []) :
    (offer environment action receivers plan).1 = plan := by
  rw [offer_of_firstTaker] at noTaker ⊢
  split at noTaker
  case h_1 notTaken => rfl
  case h_2 receiver impl later isTaker => simp at noTaker

variable {candidates : List ActionId}

theorem donate_of_firstTaken :
    donate environment receivers candidates plan =
      match firstTaken environment plan receivers candidates with
      | none => (plan, none)
      | some (action, receiver, impl, later) =>
          let moved :=
            (plan.unschedule action).schedule environment action impl receiver
          ((offer environment action later moved).1,
            some (action,
              receiver :: (offer environment action later moved).2)) := by
  induction candidates with
  | nil => rfl
  | cons candidate rest hypothesis =>
      cases isTaker : firstTaker environment plan candidate receivers with
      | none =>
          have offered :=
            @offer_of_firstTaker _ _ environment plan candidate receivers
          rw [isTaker] at offered
          rw [donate, offered, firstTaken, isTaker]
          exact hypothesis
      | some taker =>
          have offered :=
            @offer_of_firstTaker _ _ environment plan candidate receivers
          rw [isTaker] at offered
          rw [donate, offered, firstTaken, isTaker]

theorem mem_of_firstTaker
    {receivers later : List WorkerId}
    (isTaker :
      firstTaker environment plan action receivers =
        some (receiver, impl, later)) :
    (receiver :: later).Sublist receivers := by
  induction receivers with
  | nil => cases isTaker
  | cons first rest hypothesis =>
      rw [firstTaker] at isTaker
      split at isTaker
      case h_1 chosen taken =>
        cases isTaker
        exact List.Sublist.refl _
      case h_2 refused => exact (hypothesis isTaker).cons first

theorem mem_of_firstTaken
    {receivers later : List WorkerId}
    (isTaken :
      firstTaken environment plan receivers candidates =
        some (action, receiver, impl, later)) :
    action ∈ candidates ∧ (receiver :: later).Sublist receivers := by
  induction candidates with
  | nil => cases isTaken
  | cons first rest hypothesis =>
      rw [firstTaken] at isTaken
      split at isTaken
      case h_1 taker isTaker =>
        cases isTaken
        exact ⟨mem_cons_self, mem_of_firstTaker isTaker⟩
      case h_2 refused =>
        obtain ⟨isCandidate, sublist⟩ := hypothesis isTaken
        exact ⟨mem_cons_of_mem _ isCandidate, sublist⟩

/-!
## Donor and receivers
-/

section Donor

variable
  {workers : WorkerId → OptimizationWorker Resources}
  {implementation :
    PriorityQueue.Implementation WorkerId (receptionComparator workers)}
  (all : List WorkerId)

theorem scanIndicators_perm
    (topIndicator : Int)
    (top : Option WorkerId)
    (receiversPQ : PriorityQueue WorkerId (receptionComparator workers)) :
    ((scanIndicators workers implementation all topIndicator top
        receiversPQ).1.toList ++
      (scanIndicators workers implementation all topIndicator top
        receiversPQ).2.elements).Perm
      (top.toList ++ (receiversPQ.elements ++ all)) := by
  induction all generalizing topIndicator top receiversPQ with
  | nil =>
      rw [append_nil]
      exact List.Perm.refl _
  | cons ow rest hypothesis =>
      have added :
          ∀ worker, (receiversPQ.add implementation worker).elements.Perm
            (receiversPQ.elements ++ [worker]) :=
        fun worker => implementation.arranged_perm _
      simp only [scanIndicators]
      split
      case isTrue notTop =>
        refine (hypothesis _ _ _).trans ?_
        refine ((added ow).append_right rest |>.append_left top.toList).trans ?_
        rw [append_cons receiversPQ.elements ow rest]
      case isFalse isTop =>
        refine (hypothesis _ _ _).trans ?_
        cases top with
        | none =>
            change List.Perm (ow :: (receiversPQ.elements ++ rest))
              (receiversPQ.elements ++ ow :: rest)
            exact perm_middle.symm
        | some former =>
            calc
              List.Perm _
                  (ow :: (receiversPQ.elements ++ [former] ++ rest)) :=
                ((added former).append_right rest).cons ow
              List.Perm _ (ow :: former :: (receiversPQ.elements ++ rest)) := by
                refine List.Perm.cons ow ?_
                rw [append_assoc]
                exact perm_middle
              List.Perm _ (former :: ow :: (receiversPQ.elements ++ rest)) :=
                List.Perm.swap former ow _
              List.Perm _ (former :: (receiversPQ.elements ++ ow :: rest)) :=
                perm_middle.symm.cons former

/-- Every worker but the donor is a receiver. -/
theorem determineDonorAndReceivers_perm :
    ((determineDonorAndReceivers workers implementation all).1.toList ++
      (determineDonorAndReceivers workers implementation all).2).Perm all := by
  have scanned :=
    @scanIndicators_perm _ workers implementation all LONG_MIN_VALUE none .empty
  refine List.Perm.trans ?_ scanned
  exact (drain_perm le_rfl).append_left _

end Donor

/-!
## The moves of a pass
-/

/-- The action that was moved has one new worker, where it is to end earlier. -/
def MovedOnce
    (before : GlobalPlan Resources Impl)
    (result : GlobalPlan Resources Impl × Option (ActionId × List WorkerId)) :
    Prop :=
  ∀ action receivers, result.2 = some (action, receivers) →
    ∃ receiver, receivers = [receiver] ∧
      Moved before result.1 action receiver

variable (environment plan receivers candidates) in
/-- The first candidate that is taken fits on its receiver, and no receiver that
comes later would take it with the end that it has there. -/
def FitsOnce : Prop :=
  ∀ action receiver impl later,
    firstTaken environment plan receivers candidates =
        some (action, receiver, impl, later) →
      plan.Fits environment action receiver impl ∧
        ∀ other ∈ later,
          plan.taking environment action other
            (plan.endOn environment action receiver impl) = none

/-- With the end that it has on its receiver the action is offered to others. -/
theorem taking_after
    (moveable : plan.Moveable donor action)
    (isOther : receiver ≠ donor)
    (fits : plan.Fits environment action receiver impl)
    {other : WorkerId}
    (notReceiver : other ≠ receiver) :
    let moved :=
      (plan.unschedule action).schedule environment action impl receiver
    moved.taking environment action other (moved.table action).expectedEnd =
      plan.taking environment action other
        (plan.endOn environment action receiver impl) := by
  intro moved
  have isPlaced :=
    @placed_place _ _ environment _ _ _ _ impl moveable isOther
  have same :=
    samePlan_schedule moveable isOther fits.notExecuted fits.stays
  have isMoved := (moved_iff_fits moveable isOther).mpr fits
  rw [same.table, isPlaced.expectedEnd]
  exact taking_congr (isMoved.gaps other notReceiver) _

theorem movedOnce_donate
    (moveable : ∀ action ∈ candidates, plan.Moveable donor action)
    (distinct : (donor :: receivers).Nodup) :
    MovedOnce plan (donate environment receivers candidates plan) ↔
      plan.FitsOnce environment receivers candidates := by
  have donated :=
    @donate_of_firstTaken _ _ environment plan receivers candidates
  cases isTaken : firstTaken environment plan receivers candidates with
  | none =>
      rw [isTaken] at donated
      rw [donated, FitsOnce, isTaken]
      simp [MovedOnce]
  | some taken =>
      obtain ⟨action, receiver, impl, later⟩ := taken
      rw [isTaken] at donated
      obtain ⟨isCandidate, sublist⟩ := mem_of_firstTaken isTaken
      have isMoveable := moveable action isCandidate
      have isOther : receiver ≠ donor := by
        rintro rfl
        exact (nodup_cons.mp distinct).1
          (sublist.subset mem_cons_self)
      have laterOther : ∀ other ∈ later, other ≠ receiver := by
        rintro other isLater rfl
        have takers := (nodup_cons.mp distinct).2.sublist sublist
        exact (nodup_cons.mp takers).1 isLater
      let moved :=
        (plan.unschedule action).schedule environment action impl receiver
      have movedOnce :
          MovedOnce plan (donate environment receivers candidates plan) ↔
            (offer environment action later moved).2 = [] ∧
              Moved plan moved action receiver := by
        rw [donated]
        constructor
        · intro once
          obtain ⟨only, isOnly, isMoved⟩ := once action _ rfl
          obtain ⟨rfl, noTaker⟩ := cons.inj isOnly
          refine ⟨noTaker, ?_⟩
          dsimp only at isMoved
          rwa [offer_of_nil noTaker] at isMoved
        · rintro ⟨noTaker, isMoved⟩ other takers same
          obtain ⟨rfl, rfl⟩ := Prod.mk.inj (some.inj same)
          refine ⟨receiver, by rw [noTaker], ?_⟩
          dsimp only
          rwa [offer_of_nil noTaker]
      rw [movedOnce, offer_eq_nil_iff, moved_iff_fits isMoveable isOther]
      constructor
      · rintro ⟨refused, fits⟩ _ _ _ _ same
        rw [isTaken] at same
        cases same
        refine ⟨fits, fun other isLater => ?_⟩
        rw [← taking_after isMoveable isOther fits (laterOther other isLater)]
        exact refused other isLater
      · intro fitsOnce
        obtain ⟨fits, refused⟩ := fitsOnce action receiver impl later isTaken
        refine ⟨fun other isLater => ?_, fits⟩
        rw [taking_after isMoveable isOther fits (laterOther other isLater)]
        exact refused other isLater

/-- A pass moves an action once, and to where it ends earlier, exactly if the
first candidate that is taken fits. -/
theorem movedOnce_iff
    (implementation :
      PriorityQueue.Implementation WorkerId (receptionComparator plan.workers))
    {all : List WorkerId}
    {donorActions : WorkerId → List ActionId}
    (distinct : all.Nodup)
    (moveable :
      ∀ donor ∈ all, ∀ action ∈ donorActions donor,
        plan.Moveable donor action) :
    MovedOnce plan
        (optimizationPass environment plan implementation all donorActions) ↔
      ∀ donor ∈ (determineDonorAndReceivers plan.workers implementation all).1,
        plan.FitsOnce environment
          (determineDonorAndReceivers plan.workers implementation all).2
          (donorActions donor) := by
  have parts := @determineDonorAndReceivers_perm _ _ implementation all
  cases determined :
      determineDonorAndReceivers plan.workers implementation all with
  | mk top receivers =>
      rw [determined] at parts
      cases top with
      | none =>
          simp only [optimizationPass, determined]
          simp [MovedOnce]
      | some donor =>
          have isWorker : donor ∈ all :=
            parts.mem_iff.mp mem_cons_self
          have donated :=
            @movedOnce_donate _ _ environment _ _ receivers _
              (moveable donor isWorker) (parts.nodup_iff.mpr distinct)
          simp only [optimizationPass, determined]
          rw [donated]
          simp

/-!
## An action that waits for its data
-/

section WaitingForData

theorem compareLong_le_iff (one two : Int) :
    compareLong one two ≤ 0 ↔ one ≤ two := by
  unfold compareLong
  split
  case isTrue less => exact iff_of_true (by decide) less.le
  case isFalse notLess =>
    split
    case isTrue same => exact iff_of_true (by decide) same.le
    case isFalse other => exact iff_of_false (by decide) (by omega)

/-- The receivers in the order of their indicators -/
def sortedReceivers
    (workers : WorkerId → OptimizationWorker Resources) :
    PriorityQueue.Implementation WorkerId (receptionComparator workers) :=
  sorted
    (by
      intro one two
      simp only [receptionComparator, compareLong_le_iff]
      exact le_total _ _)
    (by
      intro one two three
      simp only [receptionComparator, compareLong_le_iff]
      exact le_trans)

/-- Every worker runs every action on one unit for 10 milliseconds. -/
def unitEnvironment : OptimizerEnvironment Nat Unit where
  dynamic := unitResources
  requirements _ := 1
  averageExecutionTime _ _ := 10
  getCompatibleImplementations _ _ := [()]
  canRunCore _ _ := true
  getConstrainingPredecessors _ := []
  hasRoom _ _ := true
  bestScored _ _ _ _ _ := ()

def idleWorker : OptimizationWorker Nat where
  resource := ⟨[⟨LONG_MIN_VALUE, LONG_MAX_VALUE, none, 1, 0⟩], none, []⟩
  hasGap := by simp
  optimized := rfl

def busyWorker : OptimizationWorker Nat where
  resource := ⟨[⟨120, LONG_MAX_VALUE, some 1, 1, 0⟩], none, []⟩
  hasGap := by simp
  optimized := rfl

/-- Action 0 runs until 100, and action 1 needs its data. -/
def waitingPlan : GlobalPlan Nat Unit where
  workers worker := if worker = 0 then busyWorker else idleWorker
  table
    | 0 => { new with
        scheduled := true
        expectedEnd := 100 }
    | 1 => { new with
        scheduled := true
        expectedStart := 110
        expectedEnd := 120 }
    | _ => .new
  graph
    | 0 => ⟨.RUNNING, .empty, ⟨[1], 1⟩⟩
    | 1 => ⟨.RUNNABLE, ⟨[0], 1⟩, .empty⟩
    | _ => .new
  selectedResource
    | 1 => some 0
    | _ => none
  selectedImpl
    | 1 => some ()
    | _ => none
  executingResources _ := []

def waitingActions : WorkerId → List ActionId
  | 0 => [1]
  | _ => []

theorem moveable_waitingPlan
    (donor : WorkerId)
    (action : ActionId)
    (isCandidate : action ∈ waitingActions donor) :
    waitingPlan.Moveable donor action := by
  cases donor with
  | zero =>
      obtain rfl := mem_singleton.mp isCandidate
      exact ⟨rfl, rfl⟩
  | succ donor => cases isCandidate

theorem movedOnce_oneReceiver :
    MovedOnce waitingPlan
      (optimizationPass unitEnvironment waitingPlan
        (sortedReceivers waitingPlan.workers) [0, 1] waitingActions) := by
  refine (movedOnce_iff _ (by decide) fun donor _ action isCandidate =>
    moveable_waitingPlan donor action isCandidate).mpr ?_
  intro donor isDonor action receiver impl later isTaken
  have determined :
      determineDonorAndReceivers waitingPlan.workers
        (sortedReceivers waitingPlan.workers) [0, 1] = (some 0, [1]) := by
    decide
  rw [determined] at isDonor isTaken
  cases isDonor
  have taken :
      firstTaken unitEnvironment waitingPlan [1] (waitingActions 0) =
        some (1, 1, (), []) := by
    decide
  rw [taken] at isTaken
  cases isTaken
  refine ⟨⟨by decide, fun sent => sent.refused.constrained rfl, by decide⟩, ?_⟩
  exact forall_mem_nil _

/-- Two idle workers take the same action one after the other. -/
theorem not_movedOnce_twoReceivers :
    ¬∀ (environment : OptimizerEnvironment Nat Unit) plan implementation all
        donorActions,
      all.Nodup →
        (∀ donor ∈ all, ∀ action ∈ donorActions donor,
          plan.Moveable donor action) →
          MovedOnce plan
            (optimizationPass environment plan implementation all
              donorActions) := by
  intro movedOnce
  have once := movedOnce unitEnvironment waitingPlan
    (sortedReceivers waitingPlan.workers) [0, 1, 2] waitingActions (by decide)
    fun donor _ action isCandidate =>
      moveable_waitingPlan donor action isCandidate
  have moves :
      (optimizationPass unitEnvironment waitingPlan
        (sortedReceivers waitingPlan.workers) [0, 1, 2] waitingActions).2 =
          some (1, [1, 2]) := by
    decide
  obtain ⟨receiver, isOnly, -⟩ := once 1 [1, 2] moves
  cases isOnly

end WaitingForData

end GlobalPlan

end DistributedRdf.Scheduling
