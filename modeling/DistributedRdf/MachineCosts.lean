import DistributedRdf.TransitionSystem
import Mathlib.Algebra.BigOperators.Ring.Finset
import Mathlib.Algebra.Order.BigOperators.Group.Finset
import Mathlib.Algebra.Order.Field.Rat
import Mathlib.Algebra.Order.Ring.Cast

namespace DistributedRdf.Connectors.MachineCosts

open Execution Function List

/-!
# The costs of virtual machines

Of a machine that has been removed the connector does not keep what it has
cost, and its costs per hour are not taken away.
-/

def ONE_HOUR : Nat := 3600000

structure VM where
  name : String
  /-- `getMachineCostPerTimeSlot` of its description -/
  pricePerSlot : ℚ
  /-- 0 until the machine is ready -/
  startTime : Int
  isReady : Bool
  /-- When the machine was destroyed -/
  endTime : Option Int

structure AbstractConnector where
  /-- Machines are known by the order of their creation. -/
  vms : Nat → VM
  created : Nat
  vmsAlive : List Nat
  currentCostPerHour : ℚ

inductive Event where
  | waitCreation (name : String) (pricePerSlot : ℚ)
  | vmReady (vm : Nat)
  | poweroff (vm : Nat)
  /-- The deadline loop gives up the first machine. -/
  | pollFirst
  | terminateAll

structure Action where
  now : Int
  event : Event

section Slots

variable (timeSlot : Int)

def getNumSlots (time1 time2 : Int) : Int :=
  let dif := time1 - time2
  if timeSlot ≤ 0 then
    dif
  else if 0 < dif.tmod timeSlot then
    dif.tdiv timeSlot + 1
  else
    dif.tdiv timeSlot

def getMachineCostPerHour (pricePerSlot : ℚ) : ℚ :=
  if 0 < timeSlot then
    pricePerSlot * ONE_HOUR / timeSlot
  else
    pricePerSlot

/-- The slots of its life that have started -/
def VM.startedSlots (vm : VM) (now : Int) : Int :=
  if vm.isReady then
    getNumSlots timeSlot (vm.endTime.getD now) vm.startTime
  else
    0

end Slots

namespace AbstractConnector

def new : AbstractConnector where
  vms _ := ⟨"", 0, 0, false, none⟩
  created := 0
  vmsAlive := []
  currentCostPerHour := 0

variable
  (timeSlot : Int)
  (connector : AbstractConnector)

def deletedMachinesCost : ℚ := 0

def getTotalCost (now : Int) : ℚ :=
  let aliveMachinesCost :=
    (connector.vmsAlive.map fun vm =>
      getNumSlots timeSlot now (connector.vms vm).startTime *
        (connector.vms vm).pricePerSlot).sum
  aliveMachinesCost + deletedMachinesCost

def waitCreation (name : String) (pricePerSlot : ℚ) : AbstractConnector where
  vms :=
    update connector.vms connector.created
      ⟨name, pricePerSlot, 0, false, none⟩
  created := connector.created + 1
  vmsAlive := connector.vmsAlive ++ [connector.created]
  currentCostPerHour :=
    connector.currentCostPerHour + getMachineCostPerHour timeSlot pricePerSlot

/-- The machine that is removed for another of the same name -/
def sameName (vm other : Nat) : Bool :=
  (connector.vms vm).name = (connector.vms other).name

variable (vm : Nat)

def removeMachine : AbstractConnector :=
  { connector with
    vmsAlive := connector.vmsAlive.eraseP (connector.sameName vm) }

def updateVM (value : VM) : AbstractConnector :=
  { connector with vms := update connector.vms vm value }

variable (action : Action)

def next : AbstractConnector :=
  match action.event with
  | .waitCreation name pricePerSlot =>
      connector.waitCreation timeSlot name pricePerSlot
  | .vmReady vm =>
      connector.updateVM vm
        { connector.vms vm with startTime := action.now, isReady := true }
  | .poweroff vm =>
      (connector.removeMachine vm).updateVM vm
        { connector.vms vm with endTime := some action.now }
  | .pollFirst => { connector with vmsAlive := connector.vmsAlive.tail }
  | .terminateAll =>
      { connector with
        vms vm :=
          { connector.vms vm with
            endTime := (connector.vms vm).endTime <|> some action.now }
        vmsAlive := [] }

/-- A machine gets ready once, and is destroyed once. -/
def Enabled : Prop :=
  match action.event with
  | .vmReady vm =>
      vm < connector.created ∧ (connector.vms vm).isReady = false ∧
        (connector.vms vm).endTime = none
  | .poweroff vm => vm < connector.created ∧ (connector.vms vm).endTime = none
  | _ => True

def system : TransitionSystem AbstractConnector Action where
  start := new
  Enabled := Enabled
  next := next timeSlot

def IsFree : Prop :=
  (connector.vms vm).pricePerSlot = 0

/-- Machines that cost something are not removed. -/
def RemovesFree : Prop :=
  match action.event with
  | .poweroff vm =>
      connector.IsFree vm ∧
        ∀ other ∈ connector.vmsAlive.find? (connector.sameName vm),
          connector.IsFree other
  | .pollFirst => ∀ first ∈ connector.vmsAlive.head?, connector.IsFree first
  | .terminateAll => ∀ vm < connector.created, connector.IsFree vm
  | _ => True

/-- The costs are asked for when the machines are ready. -/
def Settled : Prop :=
  ∀ vm ∈ connector.vmsAlive,
    (connector.vms vm).isReady = true ∨ connector.IsFree vm

/-- What the machines have cost that were ever created -/
def totalCost (now : Int) : ℚ :=
  ∑ vm ∈ Finset.range connector.created,
    (connector.vms vm).startedSlots timeSlot now *
      (connector.vms vm).pricePerSlot

/-- What the machines cost that are not destroyed -/
def costPerHour : ℚ :=
  ∑ vm ∈ Finset.range connector.created,
    if (connector.vms vm).endTime = none then
      getMachineCostPerHour timeSlot (connector.vms vm).pricePerSlot
    else
      0

/-- The costs add up. -/
structure AddsUp : Prop where
  total :
    connector.Settled →
      ∀ now, connector.getTotalCost timeSlot now =
        connector.totalCost timeSlot now
  perHour : connector.currentCostPerHour = connector.costPerHour timeSlot

/-- Costs that are asked for before and after a step -/
def NeverDecreases : Prop :=
  let after := connector.next timeSlot action
  (∀ vm, 0 ≤ (after.vms vm).pricePerSlot) →
    connector.Settled → after.Settled →
      ∀ before ≤ action.now, ∀ later ≥ action.now,
        connector.getTotalCost timeSlot before ≤
          after.getTotalCost timeSlot later

/-!
## The costs of machines that are kept
-/

/-- The machines that cost something are alive. -/
structure Kept : Prop where
  aliveOnce : connector.vmsAlive.Nodup
  aliveCreated : ∀ vm ∈ connector.vmsAlive, vm < connector.created
  priced :
    ∀ vm < connector.created, ¬ connector.IsFree vm →
      vm ∈ connector.vmsAlive ∧ (connector.vms vm).endTime = none
  perHour :
    connector.currentCostPerHour =
      ∑ vm ∈ Finset.range connector.created,
        getMachineCostPerHour timeSlot (connector.vms vm).pricePerSlot

variable
  {timeSlot}
  {connector}

theorem getMachineCostPerHour_zero : getMachineCostPerHour timeSlot 0 = 0 := by
  rw [getMachineCostPerHour]
  split
  · rw [zero_mul, zero_div]
  · rfl

section

variable (kept : Kept timeSlot connector)

include kept

theorem Kept.addsUp :
    connector.AddsUp timeSlot where
  total settled now := by
    have sameTerms :
        ∀ vm ∈ connector.vmsAlive.toFinset,
          (getNumSlots timeSlot now (connector.vms vm).startTime : ℚ) *
              (connector.vms vm).pricePerSlot =
            (connector.vms vm).startedSlots timeSlot now *
              (connector.vms vm).pricePerSlot := by
      intro vm member
      have isAlive := mem_toFinset.mp member
      by_cases isFree : connector.IsFree vm
      · rw [isFree, mul_zero, mul_zero]
      · have isReady := (settled vm isAlive).resolve_right isFree
        have isCreated := kept.aliveCreated vm isAlive
        have notEnded := (kept.priced vm isCreated isFree).2
        rw [VM.startedSlots, if_pos isReady, notEnded, Option.getD_none]
    have created : connector.vmsAlive.toFinset ⊆
        Finset.range connector.created := by
      intro vm member
      exact Finset.mem_range.mpr
        (kept.aliveCreated vm (mem_toFinset.mp member))
    rw [getTotalCost, deletedMachinesCost, add_zero,
      ← sum_toFinset _ kept.aliveOnce, Finset.sum_congr rfl sameTerms]
    refine Finset.sum_subset created fun vm isCreated notAlive => ?_
    have isFree : connector.IsFree vm := by
      by_contra isPriced
      exact notAlive (mem_toFinset.mpr
        (kept.priced vm (Finset.mem_range.mp isCreated) isPriced).1)
    rw [isFree, mul_zero]
  perHour := by
    rw [kept.perHour]
    refine Finset.sum_congr rfl fun vm isCreated => ?_
    split
    · rfl
    case isFalse hasEnded =>
      have isFree : connector.IsFree vm := by
        by_contra isPriced
        exact hasEnded
          (kept.priced vm (Finset.mem_range.mp isCreated) isPriced).2
      rw [isFree, getMachineCostPerHour_zero]

/-- A change of the machines that leaves their prices -/
theorem Kept.removed
    {vms : Nat → VM}
    {vmsAlive : List Nat}
    (prices :
      ∀ vm, (vms vm).pricePerSlot = (connector.vms vm).pricePerSlot)
    (fewer : vmsAlive.Sublist connector.vmsAlive)
    (priced :
      ∀ vm < connector.created, ¬ connector.IsFree vm →
        vm ∈ vmsAlive ∧ (vms vm).endTime = none) :
    Kept timeSlot
      { connector with
        vms := vms
        vmsAlive := vmsAlive } where
  aliveOnce := kept.aliveOnce.sublist fewer
  aliveCreated vm member := kept.aliveCreated vm (fewer.subset member)
  priced vm isCreated isPriced :=
    priced vm isCreated fun isFree => isPriced ((prices vm).trans isFree)
  perHour := by simp only [prices, kept.perHour]

omit kept in
theorem mem_eraseP_of_ne
    {p : Nat → Bool}
    {vm : Nat}
    {vms : List Nat}
    (member : vm ∈ vms)
    (isOther : ∀ first ∈ vms.find? p, vm ≠ first) :
    vm ∈ vms.eraseP p := by
  induction vms with
  | nil => exact member
  | cons first rest hypothesis =>
      by_cases isFound : p first
      · rw [eraseP_cons_of_pos isFound]
        refine (mem_cons.mp member).resolve_left ?_
        exact isOther first (find?_cons_of_pos isFound)
      · rw [eraseP_cons_of_neg isFound]
        rw [find?_cons_of_neg isFound] at isOther
        rcases mem_cons.mp member with rfl | later
        · exact mem_cons_self
        · exact mem_cons_of_mem _ (hypothesis later isOther)

theorem Kept.waitCreation
    (name : String)
    (pricePerSlot : ℚ) :
    Kept timeSlot (connector.waitCreation timeSlot name pricePerSlot) where
  aliveOnce := by
    refine kept.aliveOnce.append (nodup_singleton _) ?_
    rw [disjoint_singleton]
    exact fun member => Nat.lt_irrefl _ (kept.aliveCreated _ member)
  aliveCreated := by
    intro vm member
    rcases mem_append.mp member with before | isNew
    · exact Nat.lt_succ_of_lt (kept.aliveCreated vm before)
    · rw [mem_singleton.mp isNew]
      exact Nat.lt_succ_self _
  priced := by
    intro vm isCreated isPriced
    rw [AbstractConnector.waitCreation] at isPriced ⊢
    rw [IsFree] at isPriced
    dsimp only at isPriced ⊢
    by_cases isNew : vm = connector.created
    · rw [isNew, update_self]
      exact ⟨mem_append_right _ (mem_singleton_self _), rfl⟩
    · rw [update_of_ne isNew] at isPriced ⊢
      have before := kept.priced vm
        (Nat.lt_of_le_of_ne (Nat.le_of_lt_succ isCreated) isNew) isPriced
      exact ⟨mem_append_left _ before.1, before.2⟩
  perHour := by
    simp only [AbstractConnector.waitCreation]
    rw [Finset.sum_range_succ, update_self, kept.perHour]
    congr 1
    refine Finset.sum_congr rfl fun vm isCreated => ?_
    rw [update_of_ne (Nat.ne_of_lt (Finset.mem_range.mp isCreated))]

theorem Kept.next
    {action : Action}
    (removesFree : connector.RemovesFree action) :
    Kept timeSlot (connector.next timeSlot action) := by
  obtain ⟨now, event⟩ := action
  cases event with
  | waitCreation name pricePerSlot => exact kept.waitCreation name pricePerSlot
  | vmReady vm =>
      refine kept.removed (fun other => ?_) (List.Sublist.refl _) ?_
      · by_cases same : other = vm
        · rw [same, update_self]
        · rw [update_of_ne same]
      · intro other isCreated isPriced
        by_cases same : other = vm
        · subst same
          rw [update_self]
          exact kept.priced other isCreated isPriced
        · rw [update_of_ne same]
          exact kept.priced other isCreated isPriced
  | poweroff vm =>
      obtain ⟨isFree, foundFree⟩ := removesFree
      refine kept.removed (fun other => ?_) eraseP_sublist ?_
      · by_cases same : other = vm
        · rw [same, update_self]
        · exact congrArg VM.pricePerSlot (update_of_ne same ..)
      · intro other isCreated isPriced
        have isOther : other ≠ vm := by
          rintro rfl
          exact isPriced isFree
        have before := kept.priced other isCreated isPriced
        constructor
        · refine mem_eraseP_of_ne before.1 fun first isFirst same => ?_
          exact isPriced (same ▸ foundFree first isFirst)
        · exact (congrArg VM.endTime
            (update_of_ne isOther ..)).trans before.2
  | pollFirst =>
      refine kept.removed (fun _ => rfl) (tail_sublist _) ?_
      intro vm isCreated isPriced
      have before := kept.priced vm isCreated isPriced
      refine ⟨?_, before.2⟩
      cases alive : connector.vmsAlive with
      | nil =>
          rw [alive] at before
          exact before.1
      | cons first rest =>
          rw [alive] at before
          refine (mem_cons.mp before.1).resolve_left fun isFirst => ?_
          exact isPriced (isFirst ▸ removesFree first (by rw [alive]; rfl))
  | terminateAll =>
      refine kept.removed (fun _ => rfl) (nil_sublist _) ?_
      exact fun vm isCreated isPriced =>
        absurd (removesFree vm isCreated) isPriced

end

/-!
## The costs do not decrease
-/

/-- The number of slots, rounded up -/
theorem getNumSlots_bounds
    (isSlot : 0 < timeSlot)
    (time1 time2 : Int) :
    time1 - time2 ≤ getNumSlots timeSlot time1 time2 * timeSlot ∧
      (getNumSlots timeSlot time1 time2 - 1) * timeSlot < time1 - time2 := by
  have division := Int.tmod_add_mul_tdiv (time1 - time2) timeSlot
  have less := Int.tmod_lt_of_pos (time1 - time2) isSlot
  have more := Int.lt_tmod_of_pos (time1 - time2) isSlot
  rw [mul_comm] at division
  rw [getNumSlots, if_neg (not_le.mpr isSlot)]
  split
  · rw [add_sub_cancel_right, add_mul, one_mul]
    omega
  · rw [sub_mul, one_mul]
    omega

theorem getNumSlots_mono
    {before later : Int}
    (inOrder : before ≤ later)
    (time2 : Int) :
    getNumSlots timeSlot before time2 ≤ getNumSlots timeSlot later time2 := by
  by_cases isSlot : 0 < timeSlot
  · by_contra more
    have fewer :
        getNumSlots timeSlot later time2 ≤
          getNumSlots timeSlot before time2 - 1 := by
      omega
    have first := (getNumSlots_bounds isSlot before time2).2
    have second := (getNumSlots_bounds isSlot later time2).1
    have product := mul_le_mul_of_nonneg_right fewer isSlot.le
    omega
  · rw [getNumSlots, getNumSlots, if_pos (not_lt.mp isSlot),
      if_pos (not_lt.mp isSlot)]
    exact sub_le_sub_right inOrder _

theorem getNumSlots_self (time : Int) : getNumSlots timeSlot time time = 0 := by
  simp [getNumSlots]

theorem startedSlots_mono
    (vm : VM)
    {before later : Int}
    (inOrder : before ≤ later) :
    vm.startedSlots timeSlot before ≤ vm.startedSlots timeSlot later := by
  rw [VM.startedSlots, VM.startedSlots]
  split
  · cases vm.endTime with
    | none => exact getNumSlots_mono inOrder _
    | some ended => exact le_refl _
  · exact le_refl _

/-- A machine that ends between the two times -/
theorem startedSlots_ended
    (vm : VM)
    {before now : Int}
    (earlier : before ≤ now)
    (later : Int) :
    vm.startedSlots timeSlot before ≤
      { vm with endTime := vm.endTime <|> some now }.startedSlots timeSlot
        later := by
  rw [VM.startedSlots, VM.startedSlots]
  dsimp only
  split
  · cases vm.endTime with
    | none => exact getNumSlots_mono earlier _
    | some ended => exact le_refl _
  · exact le_refl _

variable {action}

/-- A step that is taken between the two times -/
theorem startedSlots_next
    (enabled : connector.Enabled action)
    {before later : Int}
    (earlier : before ≤ action.now)
    (notEarlier : action.now ≤ later)
    {vm : Nat}
    (isCreated : vm < connector.created) :
    ((connector.next timeSlot action).vms vm).pricePerSlot =
        (connector.vms vm).pricePerSlot ∧
      (connector.vms vm).startedSlots timeSlot before ≤
        ((connector.next timeSlot action).vms vm).startedSlots timeSlot
          later := by
  obtain ⟨now, event⟩ := action
  have stays := @startedSlots_mono timeSlot (connector.vms vm) _ _
    (earlier.trans notEarlier)
  cases event with
  | waitCreation name pricePerSlot =>
      simp only [AbstractConnector.next, AbstractConnector.waitCreation]
      rw [update_of_ne (Nat.ne_of_lt isCreated)]
      exact ⟨rfl, stays⟩
  | vmReady ready =>
      simp only [AbstractConnector.next, updateVM]
      by_cases same : vm = ready
      · subst same
        rw [update_self]
        refine ⟨rfl, ?_⟩
        rw [VM.startedSlots, enabled.2.1, if_neg Bool.false_ne_true,
          VM.startedSlots, if_pos rfl]
        dsimp only
        rw [enabled.2.2, Option.getD_none, ← getNumSlots_self now]
        exact getNumSlots_mono notEarlier _
      · rw [update_of_ne same]
        exact ⟨rfl, stays⟩
  | poweroff ended =>
      simp only [AbstractConnector.next, updateVM]
      by_cases same : vm = ended
      · subst same
        rw [update_self]
        have slots := @startedSlots_ended timeSlot (connector.vms vm) _ _
          earlier later
        rw [enabled.2] at slots
        exact ⟨rfl, slots⟩
      · rw [update_of_ne same]
        exact ⟨rfl, stays⟩
  | pollFirst => exact ⟨rfl, stays⟩
  | terminateAll =>
      exact ⟨rfl, startedSlots_ended (connector.vms vm) earlier later⟩

theorem totalCost_next
    (enabled : connector.Enabled action)
    (prices :
      ∀ vm, 0 ≤ ((connector.next timeSlot action).vms vm).pricePerSlot)
    {before later : Int}
    (earlier : before ≤ action.now)
    (notEarlier : action.now ≤ later) :
    connector.totalCost timeSlot before ≤
      (connector.next timeSlot action).totalCost timeSlot later := by
  have terms :
      connector.totalCost timeSlot before ≤
        ∑ vm ∈ Finset.range connector.created,
          ((connector.next timeSlot action).vms vm).startedSlots timeSlot
              later *
            ((connector.next timeSlot action).vms vm).pricePerSlot := by
    refine Finset.sum_le_sum fun vm isCreated => ?_
    obtain ⟨samePrice, slots⟩ := @startedSlots_next timeSlot _ _ enabled _ _
      earlier notEarlier _ (Finset.mem_range.mp isCreated)
    rw [← samePrice]
    exact mul_le_mul_of_nonneg_right (Int.cast_le.mpr slots) (prices vm)
  refine terms.trans ?_
  obtain ⟨now, event⟩ := action
  cases event with
  | waitCreation name pricePerSlot =>
      simp only [totalCost, AbstractConnector.next,
        AbstractConnector.waitCreation]
      rw [Finset.sum_range_succ, update_self, VM.startedSlots,
        if_neg Bool.false_ne_true, Int.cast_zero, zero_mul, add_zero]
  | vmReady vm => exact le_refl _
  | poweroff vm => exact le_refl _
  | pollFirst => exact le_refl _
  | terminateAll => exact le_refl _

theorem kept_new : Kept timeSlot new where
  aliveOnce := nodup_nil
  aliveCreated := nofun
  priced := nofun
  perHour := rfl

/-- As long as no machine that costs something is removed the costs add up. -/
theorem addsUp_of_run
    {actions : List Action}
    (run : Run (system timeSlot) RemovesFree actions connector) :
    connector.AddsUp timeSlot ∧
      ∀ action, connector.Enabled action → connector.RemovesFree action →
        connector.NeverDecreases timeSlot action := by
  have kept : Kept timeSlot connector :=
    run.invariant kept_new fun _ _ kept _ removesFree => kept.next removesFree
  refine ⟨kept.addsUp, ?_⟩
  intro action enabled removesFree prices settled afterSettled before
    earlier later notEarlier
  have keptAfter := kept.next removesFree
  rw [kept.addsUp.total settled, keptAfter.addsUp.total afterSettled]
  exact totalCost_next enabled prices earlier notEarlier

/-- A machine of a price of 2 a slot gets ready at time 0. -/
def oneReady : List Action :=
  [⟨0, .waitCreation "10.0.0.1" 2⟩, ⟨0, .vmReady 0⟩]

theorem addsUp_oneReady :
    (oneReady.foldl (next 10) new).AddsUp 10 := by
  have run : Run (system 10) RemovesFree
      ([] ++ [⟨0, .waitCreation "10.0.0.1" 2⟩] ++ [⟨0, .vmReady 0⟩])
      (oneReady.foldl (next 10) new) :=
    (Run.start.snoc trivial trivial).snoc
      (And.intro Nat.one_pos (And.intro rfl rfl)) trivial
  exact (addsUp_of_run run).1

/-- The machine is removed, and with it what it has cost. -/
theorem not_addsUp_removed :
    ¬ ∀ (timeSlot : Int) (actions : List Action)
        (connector : AbstractConnector),
      Run (system timeSlot) anyStep actions connector →
        connector.AddsUp timeSlot := by
  intro addsUp
  have run : Run (system 10) anyStep
      ([] ++ [⟨0, .waitCreation "10.0.0.1" 2⟩] ++ [⟨0, .vmReady 0⟩] ++
        [⟨5, .poweroff 0⟩]) _ :=
    ((Run.start.snoc trivial trivial).snoc
      (And.intro Nat.one_pos (And.intro rfl rfl)) trivial).snoc
        (And.intro Nat.one_pos rfl) trivial
  have total := (addsUp 10 _ _ run).total ?_ 5
  · simp [system, AbstractConnector.next, waitCreation, updateVM, removeMachine,
      sameName, getTotalCost, totalCost, VM.startedSlots, getNumSlots, new,
      deletedMachinesCost] at total
  · intro vm isAlive
    simp [system, AbstractConnector.next, waitCreation, updateVM, removeMachine,
      sameName, new] at isAlive

end AbstractConnector

end DistributedRdf.Connectors.MachineCosts
