import DistributedRdf.MethodOutcome
import DistributedRdf.TransitionSystem
import Mathlib

namespace DistributedRdf.Resources

open Execution Java Function List Outcome

/-!
# Instance types of the virtual machines of a provider

A virtual machine is composed of instances of the types that its provider
offers.  The type manager counts the instances of each machine under its name
and keeps an entry while there are instances.
-/

/-- A `HashMap<String, int[]>` with counters of one element -/
structure Composition where
  types : Finset String
  amount : String → Int
  absent : ∀ type, type ∉ types → amount type = 0

namespace Composition

def empty : Composition where
  types := ∅
  amount := fun _ => 0
  absent := fun _ _ => rfl

def put (vm : Composition) (type : String) (amount : Int) : Composition where
  types := insert type vm.types
  amount := update vm.amount type amount
  absent := by
    intro other notMember
    rw [Finset.mem_insert, not_or] at notMember
    rw [update_of_ne notMember.1]
    exact vm.absent other notMember.2

variable (types : Finset String)

/-- The counters of a machine that is asked for as an instance of a type -/
def new (requestType : String) : Composition :=
  put ⟨types, fun _ => 0, fun _ _ => rfl⟩ requestType 1

def hasValidInstances (vm : Composition) : Bool :=
  decide (∑ type ∈ vm.types, vm.amount type = 0)

@[simp] theorem amount_put_self (vm : Composition) (type : String) (n : Int) :
    (vm.put type n).amount type = n :=
  update_self ..

variable {vm : Composition}

theorem amount_put_of_ne
    {type other : String}
    {n : Int}
    (different : other ≠ type) :
    (vm.put type n).amount other = vm.amount other :=
  update_of_ne different ..

theorem amount_new (requestType type : String) :
    (new types requestType).amount type = if type = requestType then 1 else 0 := by
  by_cases same : type = requestType
  · subst same
    simp [new]
  · rw [new, amount_put_of_ne same, if_neg same]

/-- Without negative counters, valid instances are those of an empty machine. -/
theorem hasValidInstances_iff
    (natural : ∀ type, 0 ≤ vm.amount type) :
    vm.hasValidInstances = true ↔ ∀ type, vm.amount type = 0 := by
  rw [hasValidInstances, decide_eq_true_iff,
    Finset.sum_eq_zero_iff_of_nonneg fun type _ => natural type]
  constructor
  · intro zeros type
    by_cases member : type ∈ vm.types
    · exact zeros type member
    · exact vm.absent type member
  · intro zeros type _
    exact zeros type

end Composition

structure CloudTypeManager where
  /-- The names of the types -/
  types : Finset String
  vmToType : String → Option Composition

namespace CloudTypeManager

variable (manager : CloudTypeManager)

def add (type : String) : CloudTypeManager :=
  { manager with types := insert type manager.types }

def createdVM
    (resourceName requestType : String) :
    Outcome CloudTypeManager Unit :=
  match manager.vmToType resourceName with
  | none =>
      let vm := Composition.new manager.types requestType
      .returned
        { manager with
          vmToType := update manager.vmToType resourceName (some vm) }
        ()
  | some vm =>
      if requestType ∈ vm.types then
        let increased := vm.put requestType (vm.amount requestType + 1)
        .returned
          { manager with
            vmToType :=
              update manager.vmToType resourceName (some increased) }
          ()
      else
        .raised manager .nullPointer

def reduceVM
    (resourceName requestType : String) :
    Outcome CloudTypeManager Unit :=
  match manager.vmToType resourceName with
  | none => .returned manager ()
  | some vm =>
      let removed :=
        { manager with
          vmToType := update manager.vmToType resourceName none }
      if requestType ∈ vm.types then
        let reduced := vm.put requestType (vm.amount requestType - 1)
        if reduced.hasValidInstances then
          .returned
            { manager with
              vmToType :=
                update manager.vmToType resourceName (some reduced) }
            ()
        else
          .returned removed ()
      else
        .raised removed .nullPointer

/-- The machine that `reduceVM` asks `hasValidInstances` for -/
def reduced?
    (resourceName requestType : String) :
    Option Composition := do
  let vm ← manager.vmToType resourceName
  guard (requestType ∈ vm.types)
  return vm.put requestType (vm.amount requestType - 1)

def clearAll : CloudTypeManager :=
  { manager with vmToType := fun _ => none }

def removeVM (name : String) : CloudTypeManager :=
  { manager with vmToType := update manager.vmToType name none }

/-- The recorded instances of a machine -/
def recorded
    (resourceName type : String) :
    Int :=
  match manager.vmToType resourceName with
  | none => 0
  | some vm => vm.amount type

end CloudTypeManager

structure CloudProvider where
  name : String
  limitOfVMs : Option Int
  typeManager : CloudTypeManager
  currentVMCount : Int

namespace CloudProvider

variable
  (provider : CloudProvider)
  (type : String)

def addInstanceType : CloudProvider :=
  { provider with typeManager := provider.typeManager.add type }

def createdVM
    (provider : CloudProvider)
    (resourceName type : String) :
    Outcome CloudProvider Unit :=
  (provider.typeManager.createdVM resourceName type).onState fun manager =>
    { provider with typeManager := manager }

def refusedWorker : CloudProvider :=
  { provider with currentVMCount := provider.currentVMCount - 1 }

/-- The worker is only given to the connector, which may throw. -/
def turnOff
    (thrown : Option JavaException) :
    Outcome CloudProvider Unit :=
  ((provider.typeManager.reduceVM provider.name type).onState fun manager =>
    { provider with typeManager := manager }).andThen fun provider _ =>
      match thrown with
      | some exception => .raised provider exception
      | none =>
          .returned
            { provider with currentVMCount := provider.currentVMCount - 1 } ()

end CloudProvider

/-!
## Machines that are created, reduced and turned off
-/

/-- A provider and the instances that its machines are composed of. -/
structure TypeHistory where
  provider : CloudProvider
  /-- Instances created less those reduced, for each machine and type -/
  instances : String → String → Nat
  /-- What `hasValidInstances` was asked for -/
  asked : List Composition

inductive TypeEvent where
  | addInstanceType (type : String)
  | createdVM (resourceName type : String)
  | reduceVM (resourceName type : String)
  | turnOff (worker type : String) (thrown : Option JavaException)
  | removeVM (resourceName : String)
  | clearAll
  deriving DecidableEq

namespace TypeHistory

def withManager
    (history : TypeHistory)
    (manager : CloudTypeManager) :
    TypeHistory :=
  { history with provider := { history.provider with typeManager := manager } }

def setInstances
    (history : TypeHistory)
    (resourceName type : String)
    (count : Nat) :
    TypeHistory :=
  { history with
    instances :=
      update history.instances resourceName
        (update (history.instances resourceName) type count) }

def ask (history : TypeHistory) (resourceName type : String) : TypeHistory :=
  { history with
    asked :=
      history.asked ++
        (history.provider.typeManager.reduced? resourceName type).toList }

/-- A reduction of an instance that does not exist takes nothing away. -/
def next (history : TypeHistory) : TypeEvent → TypeHistory
  | .addInstanceType type =>
      { history with provider := history.provider.addInstanceType type }
  | .createdVM resourceName type =>
      { history with
          provider := (history.provider.createdVM resourceName type).state
        }.setInstances resourceName type (history.instances resourceName type + 1)
  | .reduceVM resourceName type =>
      ((history.ask resourceName type).withManager
        (history.provider.typeManager.reduceVM resourceName type).state
        ).setInstances resourceName type (history.instances resourceName type - 1)
  | .turnOff worker type thrown =>
      { history.ask history.provider.name type with
          provider := (history.provider.turnOff type thrown).state
        }.setInstances worker type (history.instances worker type - 1)
  | .removeVM resourceName =>
      { history.withManager
          (history.provider.typeManager.removeVM resourceName) with
        instances := update history.instances resourceName fun _ => 0 }
  | .clearAll =>
      { history.withManager history.provider.typeManager.clearAll with
        instances := fun _ _ => 0 }

variable
  (name : String)
  (limitOfVMs : Option Int)

/-- A provider without machines -/
def start : TypeHistory where
  provider := {
    name := name
    limitOfVMs := limitOfVMs
    typeManager := ⟨∅, fun _ => none⟩
    currentVMCount := 0
  }
  instances := fun _ _ => 0
  asked := []

def system :
    TransitionSystem TypeHistory TypeEvent where
  start := start name limitOfVMs
  Enabled := fun _ _ => True
  next := next

/-- The records say which instances the machines are composed of. -/
structure Composed (history : TypeHistory) : Prop where
  recorded :
    ∀ resourceName type,
      history.provider.typeManager.recorded resourceName type =
        history.instances resourceName type
  natural :
    ∀ resourceName type,
      0 ≤ history.provider.typeManager.recorded resourceName type
  present :
    ∀ resourceName,
      (history.provider.typeManager.vmToType resourceName).isSome ↔
        ∃ type, 0 < history.instances resourceName type
  valid :
    ∀ vm, vm ∈ history.asked →
      (vm.hasValidInstances = true ↔ ∃ type, 0 < vm.amount type)

/-- Instances are of types that the machine knows, and none is taken away. -/
def Undiminished (history : TypeHistory) : TypeEvent → Prop
  | .createdVM resourceName type =>
      ∀ vm, history.provider.typeManager.vmToType resourceName = some vm →
        type ∈ vm.types
  | .reduceVM resourceName _ =>
      history.provider.typeManager.vmToType resourceName = none
  | .turnOff worker type _ =>
      history.provider.typeManager.vmToType history.provider.name = none ∧
        history.provider.typeManager.recorded worker type = 0
  | .addInstanceType _ | .removeVM _ | .clearAll => True

variable
  {history : TypeHistory}
  {resourceName worker type : String}
  (entry : Option Composition)

/-- The clauses of one machine, given its entry and its instances -/
structure MachineComposed
    (instances : String → Nat) :
    Prop where
  recorded :
    ∀ type, (entry.elim 0 fun vm => vm.amount type) = instances type
  present : entry.isSome ↔ ∃ type, 0 < instances type

theorem composed_iff :
    history.Composed ↔
      (∀ resourceName,
        MachineComposed (history.provider.typeManager.vmToType resourceName)
          (history.instances resourceName)) ∧
      ∀ vm, vm ∈ history.asked →
        (vm.hasValidInstances = true ↔ ∃ type, 0 < vm.amount type) := by
  have sameRecord : ∀ resourceName type,
      history.provider.typeManager.recorded resourceName type =
        (history.provider.typeManager.vmToType resourceName).elim 0
          fun vm => vm.amount type := by
    intro resourceName type
    unfold CloudTypeManager.recorded
    cases history.provider.typeManager.vmToType resourceName <;> rfl
  constructor
  · intro composed
    refine ⟨fun resourceName => ⟨?_, composed.present resourceName⟩,
      composed.valid⟩
    intro type
    exact (sameRecord resourceName type).symm.trans
      (composed.recorded resourceName type)
  · rintro ⟨machines, valid⟩
    have recorded : ∀ resourceName type,
        history.provider.typeManager.recorded resourceName type =
          history.instances resourceName type :=
      fun resourceName type => (sameRecord resourceName type).trans
        ((machines resourceName).recorded type)
    refine ⟨recorded, ?_, fun resourceName => (machines resourceName).present,
      valid⟩
    intro resourceName type
    rw [recorded]
    exact Int.natCast_nonneg _

variable {entry}

/-- Changes to one machine leave the clauses of the others alone. -/
theorem machines_update
    {entries : String → Option Composition}
    {instances : String → String → Nat}
    {counts : String → Nat}
    (machines : ∀ name, MachineComposed (entries name) (instances name))
    (changed : MachineComposed entry counts)
    (resourceName name : String) :
    MachineComposed (update entries resourceName entry name)
      (update instances resourceName counts name) := by
  by_cases same : name = resourceName
  · subst same
    simpa only [update_self] using changed
  · simpa only [update_of_ne same] using machines name

theorem MachineComposed.none : MachineComposed none fun _ => 0 :=
  ⟨fun _ => rfl, by simp⟩

variable
  {vm : Composition}
  {instances : String → Nat}

/-- One more instance of a type that the machine knows -/
theorem MachineComposed.put_succ
    (machine : MachineComposed (some vm) instances)
    (type : String) :
    MachineComposed (some (vm.put type (vm.amount type + 1)))
      (update instances type (instances type + 1)) where
  recorded := by
    intro other
    by_cases same : other = type
    · subst same
      simpa using machine.recorded other
    · simpa [Composition.amount_put_of_ne same, same] using
        machine.recorded other
  present := by
    refine ⟨fun _ => ⟨type, ?_⟩, fun _ => rfl⟩
    rw [update_self]
    exact Nat.succ_pos _

theorem MachineComposed.new
    (machine : MachineComposed Option.none instances)
    (types : Finset String)
    (type : String) :
    MachineComposed (some (.new types type))
      (update instances type (instances type + 1)) where
  recorded := by
    intro other
    have noneBefore : instances other = 0 :=
      Int.natCast_eq_zero.mp (machine.recorded other).symm
    by_cases same : other = type
    · subst same
      simp [Composition.amount_new, noneBefore]
    · simp [Composition.amount_new, same, noneBefore]
  present := by
    refine ⟨fun _ => ⟨type, ?_⟩, fun _ => rfl⟩
    rw [update_self]
    exact Nat.succ_pos _

theorem MachineComposed.absent
    (machine : MachineComposed Option.none instances)
    (type : String) :
    instances type = 0 :=
  Int.natCast_eq_zero.mp (machine.recorded type).symm

section

variable (machine : MachineComposed (some vm) instances)

include machine

/--
The entry that `reduceVM` leaves is wrong for every number of instances: it is
removed while there are instances and kept when there are none.
-/
theorem MachineComposed.not_reduced
    (valid :
      (vm.put type (vm.amount type - 1)).hasValidInstances = true ↔
        ∃ other, 0 < (vm.put type (vm.amount type - 1)).amount other)
    (reducedMachine :
      MachineComposed
        (if (vm.put type (vm.amount type - 1)).hasValidInstances then
          some (vm.put type (vm.amount type - 1))
        else Option.none)
        (update instances type (instances type - 1))) :
    False := by
  by_cases answer : (vm.put type (vm.amount type - 1)).hasValidInstances = true
  · rw [if_pos answer] at reducedMachine
    have natural : ∀ other,
        0 ≤ (vm.put type (vm.amount type - 1)).amount other := by
      intro other
      have isRecorded := reducedMachine.recorded other
      simp only [Option.elim] at isRecorded
      rw [isRecorded]
      exact Int.natCast_nonneg _
    obtain ⟨other, positive⟩ := valid.mp answer
    rw [(Composition.hasValidInstances_iff natural).mp answer other] at positive
    exact absurd positive (Int.lt_irrefl 0)
  · rw [if_neg answer] at reducedMachine
    have noneLeft := reducedMachine.absent
    obtain ⟨present, positive⟩ := machine.present.mp rfl
    have isPresent : present = type := by
      by_contra different
      have zero := noneLeft present
      rw [update_of_ne different] at zero
      exact absurd positive (by rw [zero]; exact Nat.lt_irrefl 0)
    subst isPresent
    have single : instances present = 1 := by
      have zero := noneLeft present
      rw [update_self] at zero
      omega
    have zeros : ∀ other,
        (vm.put present (vm.amount present - 1)).amount other = 0 := by
      intro other
      have isRecorded := machine.recorded other
      simp only [Option.elim] at isRecorded
      by_cases same : other = present
      · subst same
        simp [isRecorded, single]
      · have zero := noneLeft other
        rw [update_of_ne same] at zero
        rw [Composition.amount_put_of_ne same, isRecorded, zero]
        rfl
    apply answer
    rw [Composition.hasValidInstances_iff fun other => (zeros other).ge]
    exact zeros

/-- A machine that is reduced in the place of another one -/
theorem MachineComposed.not_reduced_unnoticed
    (reducedMachine :
      MachineComposed
        (if (vm.put type (vm.amount type - 1)).hasValidInstances then
          some (vm.put type (vm.amount type - 1))
        else Option.none)
        instances) :
    False := by
  by_cases answer : (vm.put type (vm.amount type - 1)).hasValidInstances = true
  · rw [if_pos answer] at reducedMachine
    have before := machine.recorded type
    have after := reducedMachine.recorded type
    simp only [Option.elim, Composition.amount_put_self] at before after
    omega
  · rw [if_neg answer] at reducedMachine
    obtain ⟨present, positive⟩ := machine.present.mp rfl
    rw [reducedMachine.absent present] at positive
    exact absurd positive (Nat.lt_irrefl 0)

/-- An entry that is lost while there are instances -/
theorem MachineComposed.not_lost
    (lost : MachineComposed Option.none instances) :
    False := by
  obtain ⟨present, positive⟩ := machine.present.mp rfl
  rw [lost.absent present] at positive
  exact absurd positive (Nat.lt_irrefl 0)

end

variable {manager : CloudTypeManager}

/-- The entry after `reduceVM` of a machine with an entry -/
theorem reduceVM_found
    (found : manager.vmToType resourceName = some vm)
    (type : String) :
    (manager.reduceVM resourceName type).state =
      { manager with
        vmToType :=
          update manager.vmToType resourceName
            (if type ∈ vm.types then
              if (vm.put type (vm.amount type - 1)).hasValidInstances then
                some (vm.put type (vm.amount type - 1))
              else none
            else none) } := by
  unfold CloudTypeManager.reduceVM
  rw [found]
  dsimp only
  by_cases known : type ∈ vm.types
  · rw [if_pos known, if_pos known]
    split <;> rfl
  · rw [if_neg known, if_neg known]
    rfl

/-- An entry that was composed is not composed any more after `reduceVM`. -/
theorem MachineComposed.not_reduceVM
    {instances counts : String → Nat}
    (machine : MachineComposed (some vm) instances)
    (found : manager.vmToType resourceName = some vm)
    (counted :
      counts = instances ∨
        counts = update instances type (instances type - 1))
    (valid :
      ∀ reduced, reduced ∈ (manager.reduced? resourceName type).toList →
        (reduced.hasValidInstances = true ↔ ∃ other, 0 < reduced.amount other))
    (reducedMachine :
      MachineComposed
        ((manager.reduceVM resourceName type).state.vmToType resourceName)
        counts) :
    False := by
  rw [reduceVM_found found] at reducedMachine
  dsimp only at reducedMachine
  rw [update_self] at reducedMachine
  by_cases known : type ∈ vm.types
  · rw [if_pos known] at reducedMachine
    rcases counted with rfl | rfl
    · exact machine.not_reduced_unnoticed reducedMachine
    · refine machine.not_reduced (valid _ ?_) reducedMachine
      simp [CloudTypeManager.reduced?, found, known]
  · rw [if_neg known] at reducedMachine
    have nothing : instances type = 0 := by
      have isRecorded := machine.recorded type
      simp only [Option.elim, vm.absent type known] at isRecorded
      exact Int.natCast_eq_zero.mp isRecorded.symm
    have same : counts = instances := by
      rcases counted with rfl | rfl
      · rfl
      · rw [nothing]
        exact (update_eq_self_iff ..).mpr nothing.symm
    exact machine.not_lost (same ▸ reducedMachine)

theorem reduceVM_absent
    (absent : manager.vmToType resourceName = none)
    (type : String) :
    (manager.reduceVM resourceName type).state = manager ∧
      manager.reduced? resourceName type = none := by
  constructor
  · rw [CloudTypeManager.reduceVM, absent]
    rfl
  · rw [CloudTypeManager.reduced?, absent]
    rfl

theorem typeManager_turnOff
    (provider : CloudProvider)
    (type : String)
    (thrown : Option JavaException) :
    (provider.turnOff type thrown).state.typeManager =
      (provider.typeManager.reduceVM provider.name type).state := by
  unfold CloudProvider.turnOff
  cases provider.typeManager.reduceVM provider.name type with
  | raised manager exception => rfl
  | returned manager => cases thrown <;> rfl

section

variable (composed : history.Composed)

include composed

/-- Creations keep the records when the machine knows the type. -/
theorem composed_createdVM_iff :
    (history.next (.createdVM resourceName type)).Composed ↔
      history.Undiminished (.createdVM resourceName type) := by
  obtain ⟨machines, valid⟩ := composed_iff.mp composed
  cases found : history.provider.typeManager.vmToType resourceName with
  | none =>
      have machine := machines resourceName
      rw [found] at machine
      have created :
          (history.next (.createdVM resourceName type)).Composed := by
        refine composed_iff.mpr ⟨?_, valid⟩
        simp only [next, CloudProvider.createdVM, CloudTypeManager.createdVM,
          found]
        exact machines_update machines (machine.new _ type)
          resourceName
      exact iff_of_true created fun vm isFound =>
        absurd (found.symm.trans isFound) (by simp)
  | some vm =>
      have machine := machines resourceName
      rw [found] at machine
      by_cases known : type ∈ vm.types
      · have created :
            (history.next (.createdVM resourceName type)).Composed := by
          refine composed_iff.mpr ⟨?_, valid⟩
          simp only [next, CloudProvider.createdVM, CloudTypeManager.createdVM,
            found, if_pos known]
          exact machines_update machines (machine.put_succ type)
            resourceName
        refine iff_of_true created fun other isFound => ?_
        cases found.symm.trans isFound
        exact known
      · refine iff_of_false (fun created => ?_) fun knows =>
          known (knows vm found)
        have after := (composed_iff.mp created).1 resourceName
        simp only [next, CloudProvider.createdVM, CloudTypeManager.createdVM,
          found, if_neg known, setInstances, onState, state,
          update_self] at after
        have isRecorded := after.recorded type
        rw [update_self] at isRecorded
        simp only [Option.elim, vm.absent type known] at isRecorded
        omega

theorem composed_reduceVM_iff :
    (history.next (.reduceVM resourceName type)).Composed ↔
      history.Undiminished (.reduceVM resourceName type) := by
  obtain ⟨machines, valid⟩ := composed_iff.mp composed
  have machine := machines resourceName
  cases found : history.provider.typeManager.vmToType resourceName with
  | none =>
      rw [found] at machine
      refine iff_of_true (composed_iff.mpr ⟨?_, ?_⟩) found
      · intro name
        simp only [next, setInstances, withManager, ask,
          (reduceVM_absent found type).1, machine.absent type]
        by_cases same : name = resourceName
        · subst same
          rw [update_self, (update_eq_self_iff ..).mpr
            (machine.absent type).symm]
          exact machines name
        · rw [update_of_ne same]
          exact machines name
      · simpa [next, setInstances, withManager, ask,
          (reduceVM_absent found type).2] using valid
  | some vm =>
      rw [found] at machine
      refine iff_of_false (fun reduced => ?_) fun absent =>
        absurd (found.symm.trans absent) (by simp)
      obtain ⟨after, asked⟩ := composed_iff.mp reduced
      have reducedMachine := after resourceName
      simp only [next, setInstances, withManager, ask,
        update_self] at reducedMachine
      refine machine.not_reduceVM found (.inr rfl) ?_ reducedMachine
      intro reducedVM member
      exact asked reducedVM (mem_append_right _ member)

theorem composed_turnOff_iff
    {thrown : Option JavaException} :
    (history.next (.turnOff worker type thrown)).Composed ↔
      history.Undiminished (.turnOff worker type thrown) := by
  obtain ⟨machines, valid⟩ := composed_iff.mp composed
  have managerAfter :
      (history.next (.turnOff worker type thrown)).provider.typeManager =
        (history.provider.typeManager.reduceVM history.provider.name
          type).state :=
    typeManager_turnOff _ type thrown
  have instancesAfter :
      (history.next (.turnOff worker type thrown)).instances =
        update history.instances worker
          (update (history.instances worker) type
            (history.instances worker type - 1)) :=
    rfl
  have askedAfter :
      (history.next (.turnOff worker type thrown)).asked =
        history.asked ++ (history.provider.typeManager.reduced?
          history.provider.name type).toList :=
    rfl
  rw [composed_iff, managerAfter, instancesAfter, askedAfter]
  cases found :
      history.provider.typeManager.vmToType history.provider.name with
  | none =>
      rw [(reduceVM_absent found type).1, (reduceVM_absent found type).2]
      have isRecorded := composed.recorded worker type
      constructor
      · rintro ⟨after, -⟩
        refine ⟨found, ?_⟩
        have before := (machines worker).recorded type
        have reduced := (after worker).recorded type
        rw [update_self, update_self] at reduced
        omega
      · rintro ⟨-, unrecorded⟩
        have nothing : history.instances worker type = 0 := by
          rw [unrecorded] at isRecorded
          exact Int.natCast_eq_zero.mp isRecorded.symm
        refine ⟨fun name => ?_, by simpa using valid⟩
        by_cases same : name = worker
        · subst same
          rw [update_self,
            (update_eq_self_iff ..).mpr (by rw [nothing])]
          exact machines name
        · rw [update_of_ne same]
          exact machines name
  | some vm =>
      have machine := machines history.provider.name
      rw [found] at machine
      refine iff_of_false ?_ fun unnoticed =>
        absurd (found.symm.trans unnoticed.1) (by simp)
      rintro ⟨after, asked⟩
      have reducedMachine := after history.provider.name
      have askedValid := fun reducedVM member =>
        asked reducedVM (mem_append_right _ member)
      by_cases same : history.provider.name = worker
      · rw [same, update_self, ← same] at reducedMachine
        exact machine.not_reduceVM found (.inr rfl) askedValid reducedMachine
      · rw [update_of_ne same] at reducedMachine
        exact machine.not_reduceVM found (.inl rfl) askedValid reducedMachine

theorem composed_next_iff
    {event : TypeEvent} :
    (history.next event).Composed ↔ history.Undiminished event := by
  cases event with
  | addInstanceType type =>
      exact iff_of_true ⟨composed.recorded, composed.natural,
        composed.present, composed.valid⟩ trivial
  | createdVM resourceName type => exact composed_createdVM_iff composed
  | reduceVM resourceName type => exact composed_reduceVM_iff composed
  | turnOff worker type thrown => exact composed_turnOff_iff composed
  | removeVM resourceName =>
      obtain ⟨machines, valid⟩ := composed_iff.mp composed
      refine iff_of_true (composed_iff.mpr ⟨?_, valid⟩) trivial
      exact machines_update machines .none resourceName
  | clearAll =>
      obtain ⟨-, valid⟩ := composed_iff.mp composed
      exact iff_of_true
        (composed_iff.mpr ⟨fun _ => MachineComposed.none, valid⟩) trivial

end

theorem composed_start :
    (start name limitOfVMs).Composed where
  recorded := fun _ _ => rfl
  natural := fun _ _ => Int.le_refl 0
  present := by
    intro resourceName
    simp [start]
  valid := by
    intro vm member
    exact absurd member not_mem_nil

/--
The records follow the machines in every state of a run exactly when no step of
the run takes an instance away or adds one of a type that the machine does not
know.
-/
theorem composedThroughout_iff
    {name : String}
    {limitOfVMs : Option Int}
    {events : List TypeEvent}
    (run : Run (system name limitOfVMs) anyStep events history) :
    (∀ before reached, before <+: events →
      Run (system name limitOfVMs) anyStep before reached →
        reached.Composed) ↔
      Run (system name limitOfVMs) Undiminished events history :=
  run.holdsThroughout_iff (composed_start name limitOfVMs)
    fun _ _ composed _ => composed_next_iff composed

/-- A machine that grows, and one that is reduced before it is created -/
def growing : List TypeEvent :=
  [.addInstanceType "small", .reduceVM "vm" "small", .createdVM "vm" "small",
    .createdVM "vm" "small", .turnOff "other" "small" none]

theorem composed_growing :
    ((system "provider" (some 4)).after growing).Composed := by
  have run : Run (system "provider" (some 4)) Undiminished growing
      ((system "provider" (some 4)).after growing) := by
    apply run_of_executable
    refine ⟨⟨trivial, trivial⟩, ⟨trivial, rfl⟩, ⟨trivial, ?_⟩,
      ⟨trivial, ?_⟩, ⟨trivial, rfl, rfl⟩, trivial⟩
    · intro vm found
      exact absurd found (by simp [system, start, next, setInstances,
        withManager, ask, CloudProvider.addInstanceType, CloudTypeManager.add,
        CloudTypeManager.reduceVM])
    · intro vm found
      cases found
      decide
  exact (composedThroughout_iff (run.mono fun _ _ _ => trivial)).mpr run
    growing _ (prefix_refl _) (run.mono fun _ _ _ => trivial)

/-- Two instances of one machine, of which one is reduced -/
def reducedOnce : List TypeEvent :=
  [.addInstanceType "small", .createdVM "vm" "small",
    .createdVM "vm" "small", .reduceVM "vm" "small"]

/-- The other instance is not recorded any more. -/
theorem not_composed_reducedOnce :
    Run (system "provider" none) anyStep reducedOnce
        ((system "provider" none).after reducedOnce) ∧
      ¬ ((system "provider" none).after reducedOnce).Composed := by
  constructor
  · apply run_of_executable
    exact ⟨⟨trivial, trivial⟩, ⟨trivial, trivial⟩, ⟨trivial, trivial⟩,
      ⟨trivial, trivial⟩, trivial⟩
  · intro composed
    have isRecorded := composed.recorded "vm" "small"
    exact absurd isRecorded (by decide)

end TypeHistory

end DistributedRdf.Resources
