namespace DistributedRdf.Java

/-!
# Outcomes of methods that change a state

A Java method that throws keeps the changes it made before.  An outcome
therefore carries the state in both cases.
-/

inductive JavaException where
  | nullPointer
  | concurrentModification
  | indexOutOfBounds
  | stackOverflow
  deriving DecidableEq

inductive Outcome (σ : Type u) (α : Type v) where
  | returned (state : σ) (value : α)
  | raised (state : σ) (exception : JavaException)
  deriving DecidableEq

namespace Outcome

/-- The state that is left behind. -/
def state : Outcome σ α → σ
  | .returned state _ => state
  | .raised state _ => state

/-- Continues after a normal return. -/
def andThen
    (first : Outcome σ α)
    (next : σ → α → Outcome σ β) : Outcome σ β :=
  match first with
  | .returned state value => next state value
  | .raised state exception => .raised state exception

/-- Runs a method of a component of the state. -/
def onState (outcome : Outcome σ α) (embed : σ → τ) : Outcome τ α :=
  match outcome with
  | .returned state value => .returned (embed state) value
  | .raised state exception => .raised (embed state) exception

def hasReturned : Outcome σ α → Bool
  | .returned _ _ => true
  | .raised _ _ => false

def value? : Outcome σ α → Option α
  | .returned _ value => some value
  | .raised _ _ => none

@[simp] theorem hasReturned_onState
    (outcome : Outcome σ α)
    (embed : σ → τ) :
    (outcome.onState embed).hasReturned = outcome.hasReturned := by
  cases outcome with
  | returned state value => rfl
  | raised state exception => rfl

section

variable (state : σ)

include state

@[simp] theorem state_returned (value : α) :
    (Outcome.returned state value).state = state :=
  rfl

@[simp] theorem state_raised (exception : JavaException) :
    (Outcome.raised state exception : Outcome σ α).state = state :=
  rfl

@[simp] theorem andThen_returned
    (value : α)
    (next : σ → α → Outcome σ β) :
    (Outcome.returned state value).andThen next = next state value :=
  rfl

@[simp] theorem andThen_raised
    (exception : JavaException)
    (next : σ → α → Outcome σ β) :
    (Outcome.raised state exception).andThen next =
      .raised state exception :=
  rfl

end

variable
  {first : Outcome σ α}
  {next : σ → α → Outcome σ β}

/-- A sequence returns when both of its steps do. -/
theorem andThen_eq_returned
    {state : σ}
    {result : β} :
    first.andThen next = .returned state result ↔
      ∃ between value, first = .returned between value ∧
        next between value = .returned state result := by
  cases first with
  | returned between value =>
      constructor
      · intro returned
        exact ⟨between, value, rfl, returned⟩
      · rintro ⟨_, _, same, returned⟩
        cases same
        exact returned
  | raised between exception => simp

theorem andThen_assoc
    (first : Outcome σ α)
    (second : σ → α → Outcome σ β)
    (third : σ → β → Outcome σ γ) :
    (first.andThen second).andThen third =
      first.andThen fun state value => (second state value).andThen third := by
  cases first with
  | returned state value => rfl
  | raised state exception => rfl

@[simp] theorem state_onState (outcome : Outcome σ α) (embed : σ → τ) :
    (outcome.onState embed).state = embed outcome.state := by
  cases outcome with
  | returned state value => rfl
  | raised state exception => rfl

/-- A view of the state goes through a sequence step by step. -/
theorem onState_andThen
    {view : σ → τ}
    {nextOfView : τ → α → Outcome τ β}
    (sameNext :
      ∀ state value,
        (next state value).onState view = nextOfView (view state) value) :
    (first.andThen next).onState view =
      (first.onState view).andThen nextOfView := by
  cases first with
  | returned state value => exact sameNext state value
  | raised state exception => rfl

@[simp] theorem onState_onState
    (outcome : Outcome σ α)
    (embed : σ → τ)
    (view : τ → υ) :
    (outcome.onState embed).onState view =
      outcome.onState fun state => view (embed state) := by
  cases outcome with
  | returned state value => rfl
  | raised state exception => rfl

variable
  {outcome : Outcome σ α}
  {value : α}

theorem onState_eq_returned
    {embed : σ → τ}
    {state : τ} :
    outcome.onState embed = .returned state value ↔
      ∃ component, outcome = .returned component value ∧
        embed component = state := by
  cases outcome with
  | returned component value =>
      constructor
      · intro returned
        cases returned
        exact ⟨component, rfl, rfl⟩
      · rintro ⟨_, same, rfl⟩
        cases same
        rfl
  | raised component exception => simp [onState]

theorem value?_eq_some :
    outcome.value? = some value ↔ ∃ state, outcome = .returned state value := by
  cases outcome with
  | returned state other => simp [value?]
  | raised state exception => simp [value?]

/-- A part of the state that neither step changes -/
theorem andThen_keeps
    (view : σ → τ)
    {kept : τ}
    (firstKeeps : view first.state = kept)
    (nextKeeps :
      ∀ state value, view state = kept → view (next state value).state = kept) :
    view (first.andThen next).state = kept := by
  cases first with
  | returned state value => exact nextKeeps state value firstKeeps
  | raised state exception => exact firstKeeps

/-- What the first step ensures is enough for the sequence. -/
theorem andThen_ensures
    {Before After : σ → Prop}
    (firstEnsures : Before first.state)
    (enough : ∀ state, Before state → After state)
    (nextEnsures :
      ∀ state value, Before state → After (next state value).state) :
    After (first.andThen next).state := by
  cases first with
  | returned state value => exact nextEnsures state value firstEnsures
  | raised state exception => exact enough state firstEnsures

/-- What both steps preserve is preserved by their sequence. -/
theorem andThen_preserves
    {Holds : σ → Prop}
    {first : Outcome σ α}
    {next : σ → α → Outcome σ β}
    (firstHolds : Holds first.state)
    (nextHolds : ∀ state value, Holds state → Holds (next state value).state) :
    Holds (first.andThen next).state :=
  andThen_ensures firstHolds (fun _ holds => holds) nextHolds

end Outcome

end DistributedRdf.Java
