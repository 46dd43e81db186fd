import DistributedRdf.TransitionSystem
import Mathlib.Tactic.Common

namespace DistributedRdf.Execution

open Function List

/-!
# Threads that share a monitor and a semaphore

Every thread runs a list of instructions.  The permit of the semaphore is taken
and returned inside the monitor only, so that a thread may block there and keep
the monitor.  Threads may also wait for events that others announce.
-/

inductive Instruction (Event : Type) where
  | enter
  | exit
  | acquire
  | release
  | waitFor (event : Event)
  | announce (event : Event)
  deriving DecidableEq

/-- `holder` only records which thread has the permit. -/
structure SharedMonitor (Event : Type) where
  remaining : Nat → List (Instruction Event)
  owner : Option Nat
  permits : Nat
  holder : Option Nat
  announced : List Event

/-- A thread as the next instruction finds it -/
inductive Position where
  | outside
  /-- It has just taken the monitor. -/
  | entered
  | inside
  deriving DecidableEq

/--
What is left of a thread that has the permit or not: the permit is only asked
for on entering the monitor, and only returned by who has it.
-/
def Follows {Event : Type} : Position → Bool → List (Instruction Event) → Prop
  | .outside, holding, [] => holding = false
  | .outside, holding, .enter :: rest => Follows .entered holding rest
  | .outside, holding, .waitFor _ :: rest
  | .outside, holding, .announce _ :: rest
  | .entered, holding, .exit :: rest
  | .inside, holding, .exit :: rest => Follows .outside holding rest
  | .entered, holding, .acquire :: rest =>
      holding = false ∧ Follows .inside true rest
  | .entered, holding, .release :: rest
  | .inside, holding, .release :: rest =>
      holding = true ∧ Follows .inside false rest
  | .entered, holding, .announce _ :: rest
  | .inside, holding, .announce _ :: rest => Follows .inside holding rest
  | _, _, _ => False

namespace SharedMonitor

variable {Event : Type}

def Allows (state : SharedMonitor Event) (thread : Nat) :
    Instruction Event → Prop
  | .enter => state.owner = none
  | .exit => state.owner = some thread
  | .acquire => 0 < state.permits
  | .release => True
  | .waitFor event => event ∈ state.announced
  | .announce _ => True

def CanStep (state : SharedMonitor Event) (thread : Nat) : Prop :=
  match state.remaining thread with
  | [] => False
  | instruction :: _ => state.Allows thread instruction

instance
    [DecidableEq Event]
    (state : SharedMonitor Event)
    (thread : Nat) :
    (instruction : Instruction Event) →
      Decidable (state.Allows thread instruction)
  | .enter => inferInstanceAs (Decidable (state.owner = none))
  | .exit => inferInstanceAs (Decidable (state.owner = some thread))
  | .acquire => inferInstanceAs (Decidable (0 < state.permits))
  | .release | .announce _ => isTrue trivial
  | .waitFor event => inferInstanceAs (Decidable (event ∈ state.announced))

instance [DecidableEq Event] (state : SharedMonitor Event) (thread : Nat) :
    Decidable (state.CanStep thread) := by
  unfold CanStep
  split <;> infer_instance

def execute (state : SharedMonitor Event) (thread : Nat) :
    Instruction Event → SharedMonitor Event
  | .enter => { state with owner := some thread }
  | .exit => { state with owner := none }
  | .acquire =>
      { state with permits := state.permits - 1, holder := some thread }
  | .release => { state with permits := state.permits + 1, holder := none }
  | .waitFor _ => state
  | .announce event => { state with announced := event :: state.announced }

/-- The thread executes its next instruction. -/
def step (state : SharedMonitor Event) (thread : Nat) : SharedMonitor Event :=
  match state.remaining thread with
  | [] => state
  | instruction :: rest =>
      { state with
        remaining := update state.remaining thread rest
      }.execute thread instruction

def Unfinished (state : SharedMonitor Event) (thread : Nat) : Prop :=
  state.remaining thread ≠ []

/-- Some thread has not finished, and none of those can go on. -/
def Deadlocked (state : SharedMonitor Event) : Prop :=
  (∃ thread, state.Unfinished thread) ∧
    ∀ thread, state.Unfinished thread → ¬ state.CanStep thread

/-- A thread that takes the monitor to ask for the permit finds it there. -/
def AsksWhenFree (state : SharedMonitor Event) (thread : Nat) : Prop :=
  ∀ rest, state.remaining thread = .enter :: .acquire :: rest →
    0 < state.permits

instance (state : SharedMonitor Event) (thread : Nat) :
    Decidable (state.AsksWhenFree thread) :=
  match next : state.remaining thread with
  | .enter :: .acquire :: _ =>
      decidable_of_iff (0 < state.permits)
        ⟨fun isFree _ _ => isFree, fun asksWhenFree => asksWhenFree _ next⟩
  | [] | [.enter] | .enter :: .enter :: _ | .enter :: .exit :: _
  | .enter :: .release :: _ | .enter :: .waitFor _ :: _
  | .enter :: .announce _ :: _ | .exit :: _ | .acquire :: _ | .release :: _
  | .waitFor _ :: _ | .announce _ :: _ =>
      isTrue fun _ isAcquire => by rw [next] at isAcquire; exact nomatch isAcquire

variable
  {state : SharedMonitor Event}
  {thread : Nat}
  {rest : List (Instruction Event)}
  {instruction : Instruction Event}

theorem step_of_next
    (next : state.remaining thread = instruction :: rest) :
    state.step thread =
      { state with
        remaining := update state.remaining thread rest
      }.execute thread instruction := by
  rw [step, next]

theorem canStep_of_next
    (next : state.remaining thread = instruction :: rest) :
    state.CanStep thread ↔ state.Allows thread instruction := by
  rw [CanStep, next]

/-!
## The order of the instructions
-/

variable (state)

def position (thread : Nat) : Position :=
  if state.owner = some thread then .entered else .outside

def holds (thread : Nat) : Bool :=
  state.holder = some thread

structure Orderly : Prop where
  follows :
    ∀ thread,
      Follows (state.position thread) (state.holds thread)
        (state.remaining thread)
  permit : state.permits = if state.holder = none then 1 else 0

variable
  {holding : Bool}
  {instructions : List (Instruction Event)}
  {state}

theorem follows_entered
    (follows : Follows .inside holding instructions) :
    Follows .entered holding instructions := by
  cases instructions with
  | nil => exact follows.elim
  | cons instruction rest =>
      cases instruction with
      | acquire => exact follows.elim
      | enter | exit | release | waitFor event | announce event => exact follows

theorem orderly_of_moved
    {after : SharedMonitor Event}
    (orderly : state.Orderly)
    (remaining : after.remaining = update state.remaining thread rest)
    (others :
      ∀ other ≠ thread, after.position other = state.position other ∧
        after.holds other = state.holds other)
    (follows : Follows (after.position thread) (after.holds thread) rest)
    (permit : after.permits = if after.holder = none then 1 else 0) :
    after.Orderly := by
  refine ⟨?_, permit⟩
  intro other
  rw [remaining]
  by_cases isThread : other = thread
  case pos =>
    rw [isThread, update_self]
    exact follows
  case neg =>
    obtain ⟨samePosition, sameHolds⟩ := others other isThread
    rw [update_of_ne isThread, samePosition, sameHolds]
    exact orderly.follows other

theorem position_cases (state : SharedMonitor Event) (thread : Nat) :
    state.owner = some thread ∧ state.position thread = .entered ∨
      state.owner ≠ some thread ∧ state.position thread = .outside := by
  by_cases isOwner : state.owner = some thread
  · exact Or.inl ⟨isOwner, if_pos isOwner⟩
  · exact Or.inr ⟨isOwner, if_neg isOwner⟩

theorem Orderly.step
    (orderly : state.Orderly)
    (canStep : state.CanStep thread) :
    (state.step thread).Orderly := by
  have follows := orderly.follows thread
  have permit := orderly.permit
  cases next : state.remaining thread with
  | nil =>
      rw [CanStep, next] at canStep
      exact canStep.elim
  | cons instruction rest =>
      rw [canStep_of_next next] at canStep
      rw [next] at follows
      rw [step_of_next next]
      cases instruction with
      | enter =>
          have wasFree : state.owner = none := canStep
          have wasOutside : state.position thread = .outside := by
            simp [position, wasFree]
          rw [wasOutside] at follows
          apply orderly_of_moved orderly rfl
          case others =>
            intro other isOther
            refine ⟨?_, rfl⟩
            simp [execute, position, wasFree, isOther.symm]
          case follows =>
            simp only [execute, position, if_true]
            exact follows
          case permit => exact permit
      | exit =>
          have wasOwner : state.owner = some thread := canStep
          have wasInside : state.position thread = .entered := by
            simp [position, wasOwner]
          rw [wasInside] at follows
          apply orderly_of_moved orderly rfl
          case others =>
            intro other isOther
            refine ⟨?_, rfl⟩
            simp [execute, position, wasOwner, isOther.symm]
          case follows =>
            simp only [execute, position, reduceCtorEq, if_false]
            exact follows
          case permit => exact permit
      | acquire =>
          have isFree : 0 < state.permits := canStep
          have noHolder : state.holder = none := by
            by_contra someHolder
            rw [if_neg someHolder] at permit
            omega
          obtain ⟨isOwner, wasEntered⟩ | ⟨_, wasOutside⟩ :=
            state.position_cases thread
          case inr =>
            rw [wasOutside] at follows
            exact follows.elim
          rw [wasEntered] at follows
          apply orderly_of_moved orderly rfl
          case others =>
            intro other isOther
            refine ⟨rfl, ?_⟩
            simp [execute, holds, noHolder, isOther.symm]
          case follows =>
            change Follows (state.position thread) (decide (some thread = some thread)) rest
            rw [wasEntered]
            simpa using follows_entered follows.2
          case permit =>
            rw [if_pos noHolder] at permit
            simp [execute, permit]
      | release =>
          obtain ⟨isOwner, wasEntered⟩ | ⟨_, wasOutside⟩ :=
            state.position_cases thread
          case inr =>
            rw [wasOutside] at follows
            exact follows.elim
          rw [wasEntered] at follows
          have isHolder : state.holder = some thread :=
            of_decide_eq_true follows.1
          apply orderly_of_moved orderly rfl
          case others =>
            intro other isOther
            refine ⟨rfl, ?_⟩
            simp [execute, holds, isHolder, isOther.symm]
          case follows =>
            change Follows (state.position thread) (decide (none = some thread)) rest
            rw [wasEntered]
            simpa using follows_entered follows.2
          case permit =>
            rw [isHolder, if_neg (Option.some_ne_none _)] at permit
            simp [execute, permit]
      | waitFor event =>
          obtain ⟨_, wasEntered⟩ | ⟨_, wasOutside⟩ :=
            state.position_cases thread
          case inl =>
            rw [wasEntered] at follows
            exact follows.elim
          refine orderly_of_moved orderly rfl ?_ ?_ permit
          case refine_1 => exact fun _ _ => ⟨rfl, rfl⟩
          case refine_2 =>
            change Follows (state.position thread) (state.holds thread) rest
            rw [wasOutside] at follows ⊢
            exact follows
      | announce event =>
          refine orderly_of_moved orderly rfl ?_ ?_ permit
          case refine_1 => exact fun _ _ => ⟨rfl, rfl⟩
          case refine_2 =>
            change Follows (state.position thread) (state.holds thread) rest
            obtain ⟨_, wasEntered⟩ | ⟨_, wasOutside⟩ :=
              state.position_cases thread
            · rw [wasEntered] at follows ⊢
              exact follows_entered follows
            · rw [wasOutside] at follows ⊢
              exact follows

/-!
## The owner of the monitor
-/

def OwnerGoesOn (state : SharedMonitor Event) : Prop :=
  ∀ thread, state.owner = some thread → state.CanStep thread

/-- Inside the monitor, a thread can only block on the permit. -/
theorem canStep_of_follows
    (isOwner : state.owner = some thread)
    (follows : Follows .entered holding (state.remaining thread))
    (isFree : ∀ rest, state.remaining thread = .acquire :: rest →
      0 < state.permits) :
    state.CanStep thread := by
  cases next : state.remaining thread with
  | nil =>
      rw [next] at follows
      exact follows.elim
  | cons instruction rest =>
      rw [next] at follows
      rw [canStep_of_next next]
      cases instruction with
      | enter | waitFor event => exact follows.elim
      | exit => exact isOwner
      | acquire => exact isFree rest next
      | release | announce event => trivial

theorem not_acquire_of_inside
    (follows : Follows .inside holding instructions) :
    instructions ≠ .acquire :: rest := by
  intro isAcquire
  rw [isAcquire] at follows
  exact follows.elim

section

variable (orderly : state.Orderly)

include orderly

/-- Once a thread is past the entry, it goes on until it exits. -/
theorem ownerGoesOn_of_owner
    (isOwner : state.owner = some thread)
    (canStep : state.CanStep thread) :
    (state.step thread).OwnerGoesOn := by
  have follows := orderly.follows thread
  rw [position, if_pos isOwner] at follows
  cases next : state.remaining thread with
  | nil =>
      rw [next] at follows
      exact follows.elim
  | cons instruction rest =>
      rw [next] at follows
      rw [step_of_next next]
      have goesOn
          {holding : Bool}
          {after : SharedMonitor Event}
          (sameOwner : after.owner = state.owner)
          (left : after.remaining thread = rest)
          (restFollows : Follows .inside holding rest) :
          after.OwnerGoesOn := by
        intro owner isAfter
        obtain rfl : owner = thread := by
          rw [sameOwner, isOwner] at isAfter
          exact (Option.some.inj isAfter).symm
        refine canStep_of_follows isAfter (left ▸ follows_entered restFollows) ?_
        exact fun _ isAcquire =>
          absurd (left ▸ isAcquire) (not_acquire_of_inside restFollows)
      have left :
          update state.remaining thread rest thread = rest :=
        update_self ..
      cases instruction with
      | enter | waitFor event => exact follows.elim
      | exit =>
          intro owner isAfter
          exact nomatch isAfter
      | acquire | release => exact goesOn rfl left follows.2
      | announce event => exact goesOn rfl left follows

/-- A thread that takes the monitor goes on if it finds what it asks for. -/
theorem ownerGoesOn_of_enter
    (next : state.remaining thread = .enter :: rest)
    (canStep : state.CanStep thread) :
    (state.step thread).OwnerGoesOn ↔ state.AsksWhenFree thread := by
  have after := orderly.step canStep
  have follows := after.follows thread
  have isOwner : (state.step thread).owner = some thread := by
    rw [step_of_next next]
    rfl
  have left : (state.step thread).remaining thread = rest := by
    rw [step_of_next next]
    exact update_self ..
  have samePermits : (state.step thread).permits = state.permits := by
    rw [step_of_next next]
    rfl
  rw [position, if_pos isOwner] at follows
  constructor
  · intro goesOn acquired isAcquire
    have canAcquire := goesOn thread isOwner
    rw [next] at isAcquire
    rw [cons.inj isAcquire |>.2] at left
    rw [canStep_of_next left] at canAcquire
    exact samePermits ▸ canAcquire
  · intro asksWhenFree owner isAfter
    obtain rfl : owner = thread := by
      rw [isOwner] at isAfter
      exact (Option.some.inj isAfter).symm
    refine canStep_of_follows isOwner follows ?_
    intro acquired isAcquire
    rw [left] at isAcquire
    rw [samePermits]
    exact asksWhenFree acquired (by rw [next, isAcquire])

omit orderly in
/-- Outside the monitor, a thread leaves its owner as it was. -/
theorem ownerGoesOn_of_outside
    (goesOn : state.OwnerGoesOn)
    (next : state.remaining thread = instruction :: rest)
    (isOther : state.owner ≠ some thread)
    (isOutside :
      (∃ event, instruction = .waitFor event) ∨
        ∃ event, instruction = .announce event) :
    (state.step thread).OwnerGoesOn := by
  intro owner isAfter
  have wasOwner : state.owner = some owner := by
    rw [step_of_next next] at isAfter
    obtain ⟨_, rfl⟩ | ⟨_, rfl⟩ := isOutside <;> exact isAfter
  have different : owner ≠ thread := by
    intro same
    exact isOther (same ▸ wasOwner)
  have couldStep := goesOn owner wasOwner
  have sameLeft :
      (state.step thread).remaining owner = state.remaining owner := by
    rw [step_of_next next]
    obtain ⟨_, rfl⟩ | ⟨_, rfl⟩ := isOutside <;>
      exact update_of_ne different ..
  cases ownerNext : state.remaining owner with
  | nil =>
      rw [CanStep, ownerNext] at couldStep
      exact couldStep.elim
  | cons first others =>
      rw [canStep_of_next ownerNext] at couldStep
      rw [canStep_of_next (sameLeft.trans ownerNext), step_of_next next]
      obtain ⟨_, rfl⟩ | ⟨_, rfl⟩ := isOutside
      · cases first <;> exact couldStep
      · cases first with
        | waitFor event => exact mem_cons_of_mem _ couldStep
        | enter | exit | acquire | release | announce event => exact couldStep

/-- No step but an entry that asks for a permit that is not there blocks the
owner of the monitor. -/
theorem ownerGoesOn_step_iff
    (goesOn : state.OwnerGoesOn)
    (canStep : state.CanStep thread) :
    (state.step thread).OwnerGoesOn ↔ state.AsksWhenFree thread := by
  have follows := orderly.follows thread
  cases next : state.remaining thread with
  | nil =>
      rw [CanStep, next] at canStep
      exact canStep.elim
  | cons instruction rest =>
      have asksWhenFree (isOther : instruction ≠ .enter) :
          state.AsksWhenFree thread := by
        intro acquired isAcquire
        rw [next] at isAcquire
        exact absurd (cons.inj isAcquire).1 isOther
      rw [next] at follows
      obtain ⟨isOwner, wasEntered⟩ | ⟨isOther, wasOutside⟩ :=
        state.position_cases thread
      case inl =>
        rw [wasEntered] at follows
        refine iff_of_true (ownerGoesOn_of_owner orderly isOwner canStep)
          (asksWhenFree ?_)
        rintro rfl
        exact follows.elim
      case inr =>
        rw [wasOutside] at follows
        cases instruction with
        | enter => exact ownerGoesOn_of_enter orderly next canStep
        | exit | acquire | release => exact follows.elim
        | waitFor event =>
            exact iff_of_true
              (ownerGoesOn_of_outside goesOn next isOther (Or.inl ⟨_, rfl⟩))
              (asksWhenFree nofun)
        | announce event =>
            exact iff_of_true
              (ownerGoesOn_of_outside goesOn next isOther (Or.inr ⟨_, rfl⟩))
              (asksWhenFree nofun)

end

/-!
## Returning the permit
-/

/-- Steps of the thread alone lead to a state in which the monitor is free. -/
inductive Frees (thread : Nat) : SharedMonitor Event → Prop where
  | isFree
      {state : SharedMonitor Event}
      (noOwner : state.owner = none) :
      Frees thread state
  | step
      {state : SharedMonitor Event}
      (canStep : state.CanStep thread)
      (later : Frees thread (state.step thread)) :
      Frees thread state

/-- Whoever has the permit can take the monitor once its owner has left it. -/
def HolderCanEnter (state : SharedMonitor Event) : Prop :=
  state.holder ≠ none → ∀ owner, state.owner = some owner → Frees owner state

theorem frees_of_ownerGoesOn
    (orderly : state.Orderly)
    (goesOn : state.OwnerGoesOn)
    (isOwner : state.owner = some thread) :
    Frees thread state := by
  induction left : (state.remaining thread).length generalizing state with
  | zero =>
      have canStep := goesOn thread isOwner
      rw [CanStep, length_eq_zero_iff.mp left] at canStep
      exact canStep.elim
  | succ length hypothesis =>
      have canStep := goesOn thread isOwner
      have orderlyAfter := orderly.step canStep
      have goesOnAfter := ownerGoesOn_of_owner orderly isOwner canStep
      refine .step canStep ?_
      by_cases isFree : (state.step thread).owner = none
      · exact .isFree isFree
      · obtain ⟨instruction, rest, next⟩ :=
          exists_cons_of_length_eq_add_one left
        refine hypothesis orderlyAfter goesOnAfter ?_ ?_
        · rw [step_of_next next] at isFree ⊢
          cases instruction with
          | enter => rfl
          | exit => exact absurd rfl isFree
          | acquire | release | waitFor event | announce event => exact isOwner
        · have stepLeft : (state.step thread).remaining thread = rest := by
            rw [step_of_next next]
            cases instruction <;> exact update_self ..
          rw [stepLeft]
          rw [next, length_cons] at left
          exact Nat.succ.inj left

theorem holderCanEnter_iff
    (orderly : state.Orderly) :
    state.HolderCanEnter ↔ state.OwnerGoesOn := by
  constructor
  · intro canEnter thread isOwner
    have follows := orderly.follows thread
    rw [position, if_pos isOwner] at follows
    refine canStep_of_follows isOwner follows ?_
    intro rest isAcquire
    by_contra noPermit
    have isHeld : state.holder ≠ none := by
      intro noHolder
      have permit := orderly.permit
      rw [if_pos noHolder] at permit
      omega
    cases canEnter isHeld thread isOwner with
    | isFree noOwner =>
        rw [isOwner] at noOwner
        exact nomatch noOwner
    | step canStep =>
        rw [canStep_of_next isAcquire] at canStep
        exact noPermit canStep
  · exact fun goesOn _ _ isOwner => frees_of_ownerGoesOn orderly goesOn isOwner

/-!
## Deadlocks
-/

/-- What a thread waits for has been announced or will be, by a thread that
waits for nothing. -/
def Awaited (state : SharedMonitor Event) : Prop :=
  ∀ thread event, .waitFor event ∈ state.remaining thread →
    event ∈ state.announced ∨
      ∃ other, .announce event ∈ state.remaining other ∧
        ∀ awaited, .waitFor awaited ∉ state.remaining other

variable {other : Nat}

theorem mem_remaining_step
    (isLeft : instruction ∈ (state.step thread).remaining other) :
    instruction ∈ state.remaining other := by
  cases next : state.remaining thread with
  | nil =>
      rw [step, next] at isLeft
      exact isLeft
  | cons first rest =>
      have left :
          (state.step thread).remaining =
            update state.remaining thread rest := by
        rw [step_of_next next]
        cases first <;> rfl
      rw [left] at isLeft
      by_cases isThread : other = thread
      · rw [isThread, update_self] at isLeft
        rw [isThread, next]
        exact mem_cons_of_mem _ isLeft
      · rw [update_of_ne isThread] at isLeft
        exact isLeft

variable {event : Event}

/-- An announcement is still to be made, or it has been. -/
theorem announce_step
    (isLeft : .announce event ∈ state.remaining other) :
    .announce event ∈ (state.step thread).remaining other ∨
      event ∈ (state.step thread).announced := by
  cases next : state.remaining thread with
  | nil =>
      rw [step, next]
      exact Or.inl isLeft
  | cons first rest =>
      rw [step_of_next next]
      by_cases isThread : other = thread
      case neg =>
        refine Or.inl ?_
        cases first <;>
          · change _ ∈ update state.remaining thread rest other
            rw [update_of_ne isThread]
            exact isLeft
      case pos =>
        rw [isThread, next] at isLeft
        rcases mem_cons.mp isLeft with isFirst | isLater
        · cases isFirst
          exact Or.inr mem_cons_self
        · refine Or.inl ?_
          cases first <;>
            · change _ ∈ update state.remaining thread rest other
              rw [isThread, update_self]
              exact isLater

theorem mem_announced_step
    (isAnnounced : event ∈ state.announced) :
    event ∈ (state.step thread).announced := by
  cases next : state.remaining thread with
  | nil =>
      rw [step, next]
      exact isAnnounced
  | cons first rest =>
      rw [step_of_next next]
      cases first with
      | announce other => exact mem_cons_of_mem _ isAnnounced
      | enter | exit | acquire | release | waitFor other => exact isAnnounced

theorem Awaited.step
    (awaited : state.Awaited) :
    (state.step thread).Awaited := by
  intro waiting event isAwaited
  rcases awaited waiting event (mem_remaining_step isAwaited) with
    isAnnounced | ⟨other, isLeft, waitsForNothing⟩
  · exact Or.inl (mem_announced_step isAnnounced)
  · rcases announce_step isLeft with stillLeft | isAnnounced
    · exact Or.inr ⟨other, stillLeft, fun later isLater =>
        waitsForNothing later (mem_remaining_step isLater)⟩
    · exact Or.inl isAnnounced

/-- While the monitor is free, only an event can be missing. -/
theorem canStep_of_free
    (orderly : state.Orderly)
    (noOwner : state.owner = none)
    (unfinished : state.Unfinished thread) :
    state.CanStep thread ∨
      ∃ event rest, state.remaining thread = .waitFor event :: rest := by
  have follows := orderly.follows thread
  have isOutside : state.owner ≠ some thread := by
    rw [noOwner]
    exact Option.some_ne_none thread |>.symm
  rw [position, if_neg isOutside] at follows
  cases next : state.remaining thread with
  | nil => exact absurd next unfinished
  | cons instruction rest =>
      rw [next] at follows
      rw [canStep_of_next next]
      cases instruction with
      | enter => exact Or.inl noOwner
      | exit | acquire | release => exact follows.elim
      | waitFor event => exact Or.inr ⟨event, rest, rfl⟩
      | announce event => exact Or.inl trivial

theorem not_deadlocked
    (orderly : state.Orderly)
    (goesOn : state.OwnerGoesOn)
    (awaited : state.Awaited) :
    ¬ state.Deadlocked := by
  rintro ⟨⟨thread, unfinished⟩, stuck⟩
  cases isOwner : state.owner with
  | some owner =>
      have canStep := goesOn owner isOwner
      refine stuck owner ?_ canStep
      intro finished
      rw [CanStep, finished] at canStep
      exact canStep
  | none =>
      obtain canStep | ⟨event, rest, next⟩ :=
        canStep_of_free orderly isOwner unfinished
      · exact stuck thread unfinished canStep
      have isAwaited : .waitFor event ∈ state.remaining thread := by
        rw [next]
        exact mem_cons_self
      rcases awaited thread event isAwaited with
        isAnnounced | ⟨other, isLeft, waitsForNothing⟩
      · refine stuck thread unfinished ?_
        rw [canStep_of_next next]
        exact isAnnounced
      · have otherUnfinished : state.Unfinished other :=
          ne_nil_of_mem isLeft
        obtain canStep | ⟨missing, more, otherNext⟩ :=
          canStep_of_free orderly isOwner otherUnfinished
        · exact stuck other otherUnfinished canStep
        · refine waitsForNothing missing ?_
          rw [otherNext]
          exact mem_cons_self

end SharedMonitor

/-!
## Runs
-/

/-- All the interleavings of the threads -/
def monitorSystem
    {Event : Type}
    (programs : Nat → List (Instruction Event)) :
    TransitionSystem (SharedMonitor Event) Nat where
  start :=
    { remaining := programs
      owner := none
      permits := 1
      holder := none
      announced := [] }
  Enabled := SharedMonitor.CanStep
  next := SharedMonitor.step

instance
    {Event : Type}
    [DecidableEq Event]
    (programs : Nat → List (Instruction Event))
    (state : SharedMonitor Event)
    (thread : Nat) :
    Decidable ((monitorSystem programs).Enabled state thread) :=
  inferInstanceAs (Decidable (state.CanStep thread))

section Runs

open SharedMonitor

variable
  {Event : Type}
  {programs : Nat → List (Instruction Event)}
  {Permitted : SharedMonitor Event → Nat → Prop}
  {schedule : List Nat}
  {state : SharedMonitor Event}
  (follows : ∀ thread, Follows .outside false (programs thread))

include follows

theorem orderly_of_run
    (run : Run (monitorSystem programs) Permitted schedule state) :
    state.Orderly :=
  run.invariant ⟨follows, rfl⟩ fun _ _ orderly canStep _ => orderly.step canStep

omit follows in
theorem awaited_of_run
    (awaited : (monitorSystem programs).start.Awaited)
    (run : Run (monitorSystem programs) Permitted schedule state) :
    state.Awaited :=
  run.invariant awaited fun _ _ isAwaited _ _ => isAwaited.step

theorem ownerGoesOn_iff_of_run
    (run : Run (monitorSystem programs) anyStep schedule state) :
    (∀ before reached, before <+: schedule →
      Run (monitorSystem programs) anyStep before reached →
        reached.Orderly ∧ reached.OwnerGoesOn) ↔
      Run (monitorSystem programs) AsksWhenFree schedule state := by
  apply run.holdsThroughout_iff
  case atStart => exact ⟨⟨follows, rfl⟩, fun _ isOwner => nomatch isOwner⟩
  case exact =>
    intro state thread ⟨orderly, goesOn⟩ canStep
    rw [← ownerGoesOn_step_iff orderly goesOn canStep]
    exact and_iff_right (orderly.step canStep)

/-- The holder of the permit can take the monitor in all states of a run, and
no deadlock is reached, if and only if no permit is asked for in vain. -/
theorem holderCanEnter_iff_of_run
    (awaited : (monitorSystem programs).start.Awaited)
    (run : Run (monitorSystem programs) anyStep schedule state) :
    (∀ before reached, before <+: schedule →
      Run (monitorSystem programs) anyStep before reached →
        ¬ reached.Deadlocked ∧ reached.HolderCanEnter) ↔
      Run (monitorSystem programs) AsksWhenFree schedule state := by
  rw [← ownerGoesOn_iff_of_run follows run]
  refine forall₄_congr fun before reached isPrefix reachedRun => ?_
  have orderly := orderly_of_run follows reachedRun
  rw [holderCanEnter_iff orderly]
  constructor
  · exact fun ⟨_, goesOn⟩ => ⟨orderly, goesOn⟩
  · intro ⟨_, goesOn⟩
    exact ⟨not_deadlocked orderly goesOn (awaited_of_run awaited reachedRun),
      goesOn⟩

end Runs

end DistributedRdf.Execution
