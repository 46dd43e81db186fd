namespace DistributedRdf.Execution

/-!
# Runs of a state machine

A run is a list of actions.  A condition on state and action restricts the runs
that are considered; invariants of the restricted runs follow from one step.
-/

structure TransitionSystem (State : Type u) (Action : Type v) where
  start : State
  Enabled : State → Action → Prop
  next : State → Action → State

/-- Every step of the run is enabled and meets the condition. -/
inductive Run
    {State : Type u}
    {Action : Type v}
    (system : TransitionSystem State Action)
    (Permitted : State → Action → Prop) :
    List Action → State → Prop where
  | start :
      Run system Permitted [] system.start
  | snoc
      {actions : List Action}
      {state : State}
      {action : Action}
      (run : Run system Permitted actions state)
      (enabled : system.Enabled state action)
      (permitted : Permitted state action) :
      Run system Permitted (actions ++ [action]) (system.next state action)

/-- The condition of runs that are not restricted. -/
def anyStep {State : Type u} {Action : Type v} : State → Action → Prop :=
  fun _ _ => True

namespace Run

variable
  {State : Type u}
  {Action : Type v}
  {system : TransitionSystem State Action}
  {Permitted : State → Action → Prop}

/-- What holds at the start and is preserved by permitted steps. -/
theorem invariant
    {Invariant : State → Prop}
    (atStart : Invariant system.start)
    (preserved :
      ∀ state action, Invariant state → system.Enabled state action →
        Permitted state action → Invariant (system.next state action))
    {actions : List Action}
    {state : State}
    (run : Run system Permitted actions state) :
    Invariant state := by
  induction run with
  | start => exact atStart
  | snoc run enabled permitted hypothesis =>
      exact preserved _ _ hypothesis enabled permitted

/-- A weaker condition permits more runs. -/
theorem mono
    {Weaker : State → Action → Prop}
    (weaker : ∀ state action, Permitted state action → Weaker state action)
    {actions : List Action}
    {state : State}
    (run : Run system Permitted actions state) :
    Run system Weaker actions state := by
  induction run with
  | start => exact .start
  | snoc run enabled permitted hypothesis =>
      exact .snoc hypothesis enabled (weaker _ _ permitted)

/-- The state is determined by the actions. -/
theorem state_eq
    {actions : List Action}
    {state : State}
    (run : Run system Permitted actions state) :
    state = actions.foldl system.next system.start := by
  induction run with
  | start => rfl
  | snoc run enabled permitted hypothesis =>
      rw [List.foldl_append, ← hypothesis]
      rfl

/-- What holds in a state on the way and is kept by the steps holds at the end. -/
theorem invariant_from
    {Invariant : State → Prop}
    {earlier later : List Action}
    {reached state : State}
    (run : Run system Permitted earlier reached)
    (holds : Invariant reached)
    (preserved :
      ∀ state action, Invariant state → system.Enabled state action →
        Permitted state action → Invariant (system.next state action))
    (onward : Run system Permitted (earlier ++ later) state) :
    Invariant state := by
  generalize split : earlier ++ later = actions at onward
  induction onward generalizing later with
  | start =>
      obtain ⟨rfl, -⟩ := List.append_eq_nil_iff.mp split
      rwa [show reached = system.start from run.state_eq] at holds
  | snoc onward enabled permitted hypothesis =>
      rcases List.eq_nil_or_concat later with rfl | ⟨between, action, rfl⟩
      · rw [List.append_nil] at split
        rw [(onward.snoc enabled permitted).state_eq, ← split, ← run.state_eq]
        exact holds
      · rw [List.concat_eq_append, ← List.append_assoc] at split
        obtain ⟨earlierSplit, -⟩ := List.append_inj' split rfl
        exact preserved _ _ (hypothesis earlierSplit) enabled permitted

theorem ofPrefix
    {before actions : List Action}
    {state : State}
    (run : Run system Permitted actions state)
    (isPrefix : before <+: actions) :
    ∃ reached, Run system Permitted before reached := by
  induction run with
  | start =>
      obtain rfl := List.prefix_nil.mp isPrefix
      exact ⟨_, .start⟩
  | snoc run enabled permitted hypothesis =>
      rcases List.prefix_concat_iff.mp isPrefix with rfl | shorter
      · exact ⟨_, run.snoc enabled permitted⟩
      · exact hypothesis shorter

/-- A run that ends with an action has reached where the action was taken. -/
theorem of_snoc
    {actions all : List Action}
    {action : Action}
    {final : State}
    (run : Run system Permitted all final)
    (split : all = actions ++ [action]) :
    ∃ state, Run system Permitted actions state ∧ Permitted state action := by
  cases run with
  | start => simp at split
  | snoc run enabled permitted =>
      obtain ⟨rfl, last⟩ := List.append_inj' split rfl
      cases last
      exact ⟨_, run, permitted⟩

/-- One more action is permitted, or it is not. -/
theorem snoc_iff
    {actions : List Action}
    {action : Action}
    {state : State}
    (run : Run system anyStep actions state)
    (enabled : system.Enabled state action) :
    Run system Permitted (actions ++ [action]) (system.next state action) ↔
      Run system Permitted actions state ∧ Permitted state action := by
  constructor
  · intro longer
    obtain ⟨reached, shorter, permitted⟩ := longer.of_snoc rfl
    obtain rfl : reached = state := by
      rw [shorter.state_eq, run.state_eq]
    exact ⟨shorter, permitted⟩
  · intro both
    exact both.1.snoc enabled both.2

/-- A property that each step keeps exactly under a condition, in the states of
an invariant that such steps keep, holds all along the runs whose steps meet
the condition, and along no others. -/
theorem holdsThroughout_iff_of_invariant
    {Property : State → Prop}
    (Invariant : State → Prop)
    (atStart : Property system.start)
    (invariantAtStart : Invariant system.start)
    (kept :
      ∀ state action, Property state → Invariant state →
        system.Enabled state action → Permitted state action →
          Invariant (system.next state action))
    (exact :
      ∀ state action, Property state → Invariant state →
        system.Enabled state action →
          (Property (system.next state action) ↔ Permitted state action))
    {actions : List Action}
    {state : State}
    (run : Run system anyStep actions state) :
    (∀ before reached, before <+: actions →
      Run system anyStep before reached → Property reached) ↔
        Run system Permitted actions state := by
  have holds
      {actions : List Action}
      {state : State}
      (permittedRun : Run system Permitted actions state) :
      Property state ∧ Invariant state := by
    apply permittedRun.invariant ⟨atStart, invariantAtStart⟩
    intro state action both enabled permitted
    constructor
    · exact (exact state action both.1 both.2 enabled).mpr permitted
    · exact kept state action both.1 both.2 enabled permitted
  constructor
  · intro throughout
    induction run with
    | start => exact .start
    | @snoc actions state action run enabled permitted hypothesis =>
        have earlier : Run system Permitted actions state :=
          hypothesis fun before reached isPrefix =>
            throughout before reached
              (isPrefix.trans (List.prefix_append actions [action]))
        have both := holds earlier
        refine earlier.snoc enabled
          ((exact state action both.1 both.2 enabled).mp ?_)
        exact throughout _ _ (List.prefix_refl _) (run.snoc enabled trivial)
  · intro permittedRun before reached isPrefix reachedRun
    obtain ⟨other, otherRun⟩ := permittedRun.ofPrefix isPrefix
    obtain rfl : reached = other := by
      rw [reachedRun.state_eq, otherRun.state_eq]
    exact (holds otherRun).1

theorem holdsThroughout_iff
    {Property : State → Prop}
    (atStart : Property system.start)
    (exact :
      ∀ state action, Property state → system.Enabled state action →
        (Property (system.next state action) ↔ Permitted state action))
    {actions : List Action}
    {state : State}
    (run : Run system anyStep actions state) :
    (∀ before reached, before <+: actions →
      Run system anyStep before reached → Property reached) ↔
        Run system Permitted actions state :=
  run.holdsThroughout_iff_of_invariant (fun _ => True) atStart trivial
    (fun _ _ _ _ _ _ => trivial)
    (fun state action holds _ enabled => exact state action holds enabled)

end Run

section Executable

variable
  {State : Type u}
  {Action : Type v}
  (system : TransitionSystem State Action)
  (Permitted : State → Action → Prop)

def TransitionSystem.after (actions : List Action) : State :=
  actions.foldl system.next system.start

/-- All of the actions can be taken, one after the other. -/
def Executable : State → List Action → Prop
  | _, [] => True
  | state, action :: rest =>
      (system.Enabled state action ∧ Permitted state action) ∧
        Executable (system.next state action) rest

variable {system} {Permitted}

/-- Lists of actions can be tried where single actions can. -/
instance Executable.decidable
    [∀ state action, Decidable (system.Enabled state action)]
    [∀ state action, Decidable (Permitted state action)] :
    ∀ state actions, Decidable (Executable system Permitted state actions)
  | _, [] => isTrue trivial
  | state, action :: rest =>
      have := Executable.decidable (system.next state action) rest
      inferInstanceAs (Decidable ((_ ∧ _) ∧ _))

instance anyStep.decidable (state : State) (action : Action) :
    Decidable (anyStep state action) :=
  isTrue trivial

theorem Run.extend
    {actions more : List Action}
    {state : State}
    (run : Run system Permitted actions state)
    (executable : Executable system Permitted state more) :
    Run system Permitted (actions ++ more) (more.foldl system.next state) := by
  induction more generalizing actions state with
  | nil => simpa using run
  | cons action rest hypothesis =>
      rcases executable with ⟨⟨enabled, permitted⟩, restExecutable⟩
      have extended :=
        hypothesis (run.snoc enabled permitted) restExecutable
      simpa using extended

/-- A list of actions that can be taken is a run. -/
theorem run_of_executable
    {actions : List Action}
    (executable : Executable system Permitted system.start actions) :
    Run system Permitted actions (system.after actions) :=
  Run.start.extend executable

end Executable

end DistributedRdf.Execution
