import DistributedRdf.TransitionSystem

namespace DistributedRdf.Data.CompletionListeners

open Execution List

/-!
# Listeners that wait for operations

What is to be done is decided within a synchronized section, and done after it.
Operations may be notified before they are registered.
-/

inductive ListenerClass where
  | JobTransfersListener
  | SafeCopyListener
  | ShutdownListener
  | ResultListener
  deriving DecidableEq

inductive FinalAction where
  | doSubmit
  | failedTransfers (errors : Nat)
  | release
  deriving DecidableEq

/-- What a section decides to do -/
inductive Decision where
  | doReady
  | doFailures
  deriving DecidableEq

structure Listener where
  operation : Int
  errors : Nat
  enabled : Bool
  deriving DecidableEq

namespace Listener

def new : Listener :=
  ⟨0, 0, false⟩

variable (listener : Listener)

def doFinished (finished failed : Bool) : Option Decision :=
  if finished then
    some (if failed then .doFailures else .doReady)
  else
    none

def enable : Listener × Option Decision :=
  ({ listener with enabled := true },
    doFinished (listener.operation = 0) (0 < listener.errors))

def addOperation : Listener :=
  { listener with operation := listener.operation + 1 }

def notifyEnd : Listener × Option Decision :=
  ({ listener with operation := listener.operation - 1 },
    doFinished (listener.operation - 1 = 0 ∧ listener.enabled)
      (0 < listener.errors))

def notifyFailure : Listener × Option Decision :=
  ({ listener with
      operation := listener.operation - 1
      errors := listener.errors + 1 },
    doFinished (listener.enabled ∧ listener.operation - 1 = 0) true)

end Listener

/-- The errors are read when the action is taken, after the section. -/
def ListenerClass.act
    (listenerClass : ListenerClass)
    (errors : Nat) :
    Decision → FinalAction
  | .doReady =>
      match listenerClass with
      | JobTransfersListener => .doSubmit
      | SafeCopyListener | ShutdownListener | ResultListener => .release
  | .doFailures =>
      match listenerClass with
      | JobTransfersListener => .failedTransfers errors
      | SafeCopyListener | ShutdownListener | ResultListener => .release

/-- The methods of this class are synchronized as a whole. -/
def ListenerClass.actsInside : ListenerClass → Bool
  | ResultListener => true
  | JobTransfersListener | SafeCopyListener | ShutdownListener => false

structure State where
  listener : Listener
  registered : Nat
  notified : Nat
  failures : Nat
  /-- What was decided and is still to be done -/
  decided : List Decision
  performed : List (Decision × FinalAction)

inductive Step where
  | addOperation
  | enable
  | notifyEnd
  | notifyFailure
  /-- A thread that has left a section does what was decided there. -/
  | act (decision : Decision)

namespace State

def new : State :=
  ⟨.new, 0, 0, 0, [], []⟩

variable
  (listenerClass : ListenerClass)
  (operations : Nat)
  (state : State)

def act (decision : Decision) : State :=
  { state with
    performed := state.performed ++
      [(decision, listenerClass.act state.listener.errors decision)] }

def afterSection (result : Listener × Option Decision) : State :=
  let after := { state with listener := result.1 }
  match result.2 with
  | none => after
  | some decision =>
      if listenerClass.actsInside then
        after.act listenerClass decision
      else
        { after with decided := decision :: after.decided }

def next : Step → State
  | .addOperation =>
      { state with
        listener := state.listener.addOperation
        registered := state.registered + 1 }
  | .enable => state.afterSection listenerClass state.listener.enable
  | .notifyEnd =>
      { state with notified := state.notified + 1 }.afterSection listenerClass
        state.listener.notifyEnd
  | .notifyFailure =>
      { state with
        notified := state.notified + 1
        failures := state.failures + 1 }.afterSection listenerClass
          state.listener.notifyFailure
  | .act decision =>
      { state with decided := state.decided.erase decision }.act listenerClass
        decision

/-- All operations are registered before the listener is enabled, once. -/
def Enabled : Step → Prop
  | .addOperation => state.registered < operations
  | .enable => state.registered = operations ∧ state.listener.enabled = false
  | .notifyEnd | .notifyFailure => state.notified < operations
  | .act decision => decision ∈ state.decided

def system : TransitionSystem State Step where
  start := new
  Enabled := Enabled operations
  next := next listenerClass

/-- One failure is enough. -/
def final : Decision :=
  if 0 < state.failures then .doFailures else .doReady

/-- The final action was taken once, after all that the listener waits for. -/
structure Performed : Prop where
  enabled : state.listener.enabled = true
  registered : state.registered = operations
  notified : state.notified = operations
  once :
    state.performed =
      [(state.final, listenerClass.act state.failures state.final)]

/-!
## The invariant
-/

def IsOver : Prop :=
  state.listener.enabled = true ∧ state.notified = operations

/-- The last of the sections decides, and no other. -/
structure Counted : Prop where
  operation : state.listener.operation = state.registered - state.notified
  errors : state.listener.errors = state.failures
  registered :
    state.listener.enabled = true → state.registered = operations
  bounds : state.registered ≤ operations ∧ state.notified ≤ operations
  pending :
    ¬ state.IsOver operations → state.decided = [] ∧ state.performed = []
  atEnd :
    state.IsOver operations →
      state.decided = [state.final] ∧ state.performed = [] ∨
        state.decided = [] ∧
          state.performed =
            [(state.final, listenerClass.act state.failures state.final)]

variable
  {listenerClass : ListenerClass}
  {operations : Nat}
  {state : State}

theorem counted_new : Counted listenerClass operations new where
  operation := rfl
  errors := rfl
  registered := nofun
  bounds := ⟨Nat.zero_le _, Nat.zero_le _⟩
  pending _ := ⟨rfl, rfl⟩
  atEnd isOver := absurd isOver.1 Bool.false_ne_true

namespace Counted

/-- A section that decides exactly when it is the last one -/
theorem afterSection
    {listener : Listener}
    {decision : Option Decision}
    (operation : listener.operation = state.registered - state.notified)
    (errors : listener.errors = state.failures)
    (registered : listener.enabled = true → state.registered = operations)
    (bounds : state.registered ≤ operations ∧ state.notified ≤ operations)
    (nothing : state.decided = [] ∧ state.performed = [])
    (decides :
      decision =
        if listener.enabled = true ∧ state.notified = operations then
          some state.final
        else
          none) :
    Counted listenerClass operations
      (state.afterSection listenerClass (listener, decision)) := by
  obtain ⟨noDecision, noAction⟩ := nothing
  by_cases isLast : listener.enabled = true ∧ state.notified = operations
  · rw [if_pos isLast] at decides
    subst decides
    rw [State.afterSection]
    dsimp only
    split
    case isTrue inside =>
      refine ⟨operation, errors, registered, bounds,
        fun open_ => absurd isLast open_, fun _ => .inr ⟨noDecision, ?_⟩⟩
      simp only [State.act, noAction, errors]
      rfl
    case isFalse outside =>
      refine ⟨operation, errors, registered, bounds,
        fun open_ => absurd isLast open_, fun _ => .inl ⟨?_, noAction⟩⟩
      simp only [noDecision]
      rfl
  · rw [if_neg isLast] at decides
    subst decides
    exact ⟨operation, errors, registered, bounds,
      fun _ => ⟨noDecision, noAction⟩, fun isOver => absurd isOver isLast⟩

variable (counted : Counted listenerClass operations state)

include counted

theorem addOperation
    (fewer : state.registered < operations) :
    Counted listenerClass operations
      (state.next listenerClass .addOperation) where
  operation := by
    have before := counted.operation
    simp only [next, Listener.addOperation]
    omega
  errors := counted.errors
  registered enabled :=
    absurd (counted.registered enabled) (Nat.ne_of_lt fewer)
  bounds := ⟨fewer, counted.bounds.2⟩
  pending := counted.pending
  atEnd := counted.atEnd

theorem enable
    (enabled : State.Enabled operations state .enable) :
    Counted listenerClass operations (state.next listenerClass .enable) := by
  obtain ⟨allRegistered, notEnabled⟩ := enabled
  have notOver : ¬ state.IsOver operations := by
    rintro ⟨isEnabled, -⟩
    rw [notEnabled] at isEnabled
    exact absurd isEnabled Bool.false_ne_true
  refine afterSection counted.operation counted.errors
    (fun _ => allRegistered) counted.bounds (counted.pending notOver) ?_
  have finished :
      state.listener.operation = 0 ↔ state.notified = operations := by
    rw [counted.operation, allRegistered]
    omega
  simp [Listener.doFinished, finished, counted.errors, final]

section

variable (fewer : state.notified < operations)

include fewer

theorem notify :
    (state.decided = [] ∧ state.performed = []) ∧
      ((state.listener.operation - 1 = 0 ∧ state.listener.enabled = true) ↔
        (state.listener.enabled = true ∧ state.notified + 1 = operations)) := by
  refine ⟨counted.pending fun isOver => Nat.ne_of_lt fewer isOver.2, ?_⟩
  have operation := counted.operation
  constructor
  · rintro ⟨last, enabled⟩
    have registered := counted.registered enabled
    exact ⟨enabled, by omega⟩
  · rintro ⟨enabled, last⟩
    have registered := counted.registered enabled
    exact ⟨by omega, enabled⟩

theorem notifyEnd :
    Counted listenerClass operations (state.next listenerClass .notifyEnd) := by
  obtain ⟨nothing, finished⟩ := counted.notify fewer
  refine afterSection ?_ counted.errors counted.registered
    ⟨counted.bounds.1, fewer⟩ nothing ?_
  · have before := counted.operation
    dsimp only
    omega
  · simp [Listener.doFinished, finished, counted.errors, final]

theorem notifyFailure :
    Counted listenerClass operations
      (state.next listenerClass .notifyFailure) := by
  obtain ⟨nothing, finished⟩ := counted.notify fewer
  refine afterSection ?_ ?_ counted.registered ⟨counted.bounds.1, fewer⟩
    nothing ?_
  · have before := counted.operation
    dsimp only
    omega
  · exact congrArg (· + 1) counted.errors
  · rw [and_comm] at finished
    simp [Listener.doFinished, finished, final]

end

theorem act
    {decision : Decision}
    (decided : decision ∈ state.decided) :
    Counted listenerClass operations
      (state.next listenerClass (.act decision)) := by
  have isOver : state.IsOver operations := by
    refine Classical.byContradiction fun notOver => ?_
    rw [(counted.pending notOver).1] at decided
    exact absurd decided not_mem_nil
  refine ⟨counted.operation, counted.errors, counted.registered, counted.bounds,
    fun notOver => absurd isOver notOver, fun _ => .inr ?_⟩
  rcases counted.atEnd isOver with ⟨isFinal, noAction⟩ | ⟨noDecision, -⟩
  · rw [isFinal, mem_singleton] at decided
    subst decided
    simp only [next, State.act, isFinal, noAction, counted.errors]
    exact ⟨erase_cons_head .., rfl⟩
  · rw [noDecision] at decided
    exact absurd decided not_mem_nil

theorem step
    {step : Step}
    (enabled : State.Enabled operations state step) :
    Counted listenerClass operations (state.next listenerClass step) := by
  cases step with
  | addOperation => exact counted.addOperation enabled
  | enable => exact counted.enable enabled
  | notifyEnd => exact counted.notifyEnd enabled
  | notifyFailure => exact counted.notifyFailure enabled
  | act decision => exact counted.act enabled

theorem performed
    (isOver : state.IsOver operations)
    (nothingLeft : state.decided = []) :
    Performed listenerClass operations state := by
  refine ⟨isOver.1, counted.registered isOver.1, isOver.2, ?_⟩
  rcases counted.atEnd isOver with ⟨isFinal, -⟩ | ⟨-, once⟩
  · rw [nothingLeft] at isFinal
    exact absurd isFinal.symm (cons_ne_nil _ _)
  · exact once

end Counted

/--
Nothing is done before the end, and when there is nothing left to do, then the
final action has been taken.
-/
theorem performed_of_run
    {steps : List Step}
    (run : Run (system listenerClass operations) anyStep steps state) :
    (state.performed = [] ∨ Performed listenerClass operations state) ∧
      ((∀ step, ¬ State.Enabled operations state step) →
        Performed listenerClass operations state) := by
  have counted : Counted listenerClass operations state :=
    run.invariant counted_new fun _ _ counted enabled _ => counted.step enabled
  constructor
  · by_cases isOver : state.IsOver operations
    · rcases counted.atEnd isOver with ⟨-, noAction⟩ | ⟨noDecision, -⟩
      · exact .inl noAction
      · exact .inr (counted.performed isOver noDecision)
    · exact .inl (counted.pending isOver).2
  · intro complete
    have registered : state.registered = operations :=
      Nat.le_antisymm counted.bounds.1
        (Nat.le_of_not_lt (complete .addOperation))
    have enabled : state.listener.enabled = true := by
      refine Bool.of_not_eq_false fun notEnabled => ?_
      exact complete .enable ⟨registered, notEnabled⟩
    have notified : state.notified = operations :=
      Nat.le_antisymm counted.bounds.2
        (Nat.le_of_not_lt (complete .notifyEnd))
    refine counted.performed ⟨enabled, notified⟩ ?_
    exact eq_nil_iff_forall_not_mem.mpr
      fun decision => complete (.act decision)

/-- A failure that is told of before its operation is registered -/
theorem performed_failedEarly :
    let steps : List Step :=
      [.notifyFailure, .addOperation, .enable, .act .doFailures]
    let state :=
      steps.foldl (next .JobTransfersListener) State.new
    Performed .JobTransfersListener 1 state := by
  intro steps state
  have run : Run (system .JobTransfersListener 1) anyStep
      ([] ++ [.notifyFailure] ++ [.addOperation] ++ [.enable] ++
        [.act .doFailures]) state :=
    (((Run.start.snoc Nat.one_pos trivial).snoc Nat.one_pos trivial).snoc
      (And.intro rfl rfl) trivial).snoc mem_cons_self trivial
  exact (performed_of_run run).1.resolve_left (cons_ne_nil _ _)

end State

end DistributedRdf.Data.CompletionListeners
