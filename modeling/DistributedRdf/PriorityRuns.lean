import DistributedRdf.PriorityOrder
import Mathlib.Data.List.ReduceOption

namespace DistributedRdf.Scheduling.PriorityActionSet

open Execution
open Java List PriorityQueue.IsNext

/-!
# Runs of a set of actions

Only two operations rebuild the queue of the first actions: `offer` and
`removeFirst`.  `remove` and `peekAll` take actions from the front of a queue
without telling it.
-/

section Expectations

variable
  {Action : Type}
  {comparator : Action → Action → Int}
  (implementation : PriorityQueue.Implementation Action comparator)
  (getCoreId : Action → Option Nat)
  (isToReschedule : Action → Bool)
  (set : PriorityActionSet Action comparator)

/-- The next action is returned, and every action goes on waiting. -/
def PeekRight : Prop :=
  ∀ rounds, set.actions.length < rounds →
    ∃ answer after,
      peek implementation getCoreId isToReschedule rounds set =
          .ok (answer, after) ∧
        PriorityQueue.IsNext comparator isToReschedule set.actions answer ∧
        (after.waiting isToReschedule).Perm (set.waiting isToReschedule)

/-- The next action is returned, and all others go on waiting. -/
def PollRight : Prop :=
  ∀ rounds, set.actions.length < rounds →
    ∃ answer after,
      poll implementation getCoreId isToReschedule rounds set =
          .ok (answer, after) ∧
        PriorityQueue.IsNext comparator isToReschedule set.actions answer ∧
        (answer.toList ++ after.waiting isToReschedule).Perm
          (set.waiting isToReschedule)

/-- The next action of each queue is returned. -/
def PeekAllRight : Prop :=
  (∃ answers : List (Option Action),
    List.Forall₂
        (fun queue answer =>
          PriorityQueue.IsNext comparator isToReschedule queue.elements answer)
        set.queues answers ∧
      (set.peekAll implementation isToReschedule).1.elements.Perm
        answers.reduceOption) ∧
  ((set.peekAll implementation isToReschedule).2.waiting isToReschedule).Perm
    (set.waiting isToReschedule)

def RemoveRight [DecidableEq Action] (action : Action) : Prop :=
  ∃ after, set.remove implementation getCoreId action = .ok after ∧
    after.actions.Perm (set.actions.erase action)

/-- What is expected of a priority queue over cores -/
structure Serves [DecidableEq Action] : Prop where
  peek : PeekRight implementation getCoreId isToReschedule set
  poll : PollRight implementation getCoreId isToReschedule set
  peekAll : PeekAllRight implementation isToReschedule set
  remove :
    ∀ action ∈ set.actions, RemoveRight implementation getCoreId set action

end Expectations

section PeekAll

variable
  {Action : Type}
  {comparator : Action → Action → Int}
  {implementation : PriorityQueue.Implementation Action comparator}
  {isToReschedule : Action → Bool}
  {set : PriorityActionSet Action comparator}

theorem peekAll_perm :
    (set.peekAll implementation isToReschedule).1.elements.Perm
      ((set.queues.map fun queue =>
        (dropFirst implementation isToReschedule queue).peek).reduceOption) := by
  have offered := PriorityQueue.ofList_perm implementation
    (set.peekAll implementation isToReschedule).2.firsts
  have sameFirsts :
      (set.peekAll implementation isToReschedule).2.firsts =
        (set.queues.map fun queue =>
          (dropFirst implementation isToReschedule queue).peek).reduceOption := by
    rw [firsts, queues_peekAll, filterMap_map, reduceOption,
      filterMap_map]
    rfl
  rwa [← sameFirsts]

theorem ready_of_answers
    {queues : List (PriorityQueue Action comparator)}
    {answers : List (Option Action)}
    (next :
      List.Forall₂
        (fun queue answer =>
          PriorityQueue.IsNext comparator isToReschedule queue.elements answer)
        queues answers)
    {action : Action}
    (answered : action ∈ answers.reduceOption) :
    isToReschedule action = true := by
  rw [reduceOption_mem_iff] at answered
  induction next with
  | nil => simp at answered
  | cons isNext rest hypothesis =>
      rcases mem_cons.mp answered with same | later
      · exact ready (same ▸ isNext)
      · exact hypothesis later

theorem peekAllRight_iff :
    PeekAllRight implementation isToReschedule set ↔
      ∀ queue ∈ set.queues,
        ¬StaleTwice implementation isToReschedule queue := by
  constructor
  · rintro ⟨⟨answers, next, sameAnswers⟩, -⟩ queue isQueue staleTwice
    obtain ⟨second, isSecond, stale⟩ :=
      peek_dropFirst_of_staleTwice staleTwice
    have answered : second ∈ answers.reduceOption := by
      refine sameAnswers.mem_iff.mp (peekAll_perm.mem_iff.mpr ?_)
      refine reduceOption_mem_iff.mpr ?_
      exact mem_map.mpr ⟨queue, isQueue, isSecond⟩
    rw [ready_of_answers next answered] at stale
    contradiction
  · intro atMostOnce
    refine ⟨⟨_, ?_, peekAll_perm⟩, waiting_peekAll⟩
    refine forall₂_map_right_iff.mpr ?_
    refine forall₂_same.mpr ?_
    intro queue isQueue
    exact isNext_dropFirst (atMostOnce queue isQueue)

end PeekAll

/-!
## Operations one after the other
-/

variable (Action : Type)

inductive Operation where
  | offer (action : Action)
  | poll
  | peek
  | peekAll
  | remove (action : Action)
  | removeFirst (coreId : Option Nat)
  | setToReschedule (action : Action) (value : Bool)

variable (comparator : Action → Action → Int)

structure State where
  isToReschedule : Action → Bool
  set : PriorityActionSet Action comparator
  /-- No first action of a queue was taken away since the last rebuild without
  the priority queue being told. -/
  told : Bool

/-- An operation, with the set that it leaves behind -/
structure Event where
  operation : Operation Action
  after : PriorityActionSet Action comparator

section Runs

variable
  {Action : Type}
  [DecidableEq Action]
  {comparator : Action → Action → Int}
  (implementation : PriorityQueue.Implementation Action comparator)
  (getCoreId : Action → Option Nat)

/-- How an operation ends.  A removal that fails changes nothing. -/
def Operation.Leaves
    (state : State Action comparator)
    (after : PriorityActionSet Action comparator) :
    Operation Action → Prop
  | .offer action =>
      after =
        state.set.offer implementation getCoreId state.isToReschedule action
  | .poll =>
      ∃ rounds answer,
        PriorityActionSet.poll implementation getCoreId state.isToReschedule
          rounds state.set = .ok (answer, after)
  | .peek =>
      ∃ rounds answer,
        PriorityActionSet.peek implementation getCoreId state.isToReschedule
          rounds state.set = .ok (answer, after)
  | .peekAll =>
      after = (state.set.peekAll implementation state.isToReschedule).2
  | .remove action =>
      after =
        ((state.set.remove implementation getCoreId action).toOption).getD
          state.set
  | .removeFirst coreId =>
      after =
        ((state.set.removeFirst implementation coreId).toOption).getD state.set
  | .setToReschedule _ _ => after = state.set

def Operation.isToReschedule
    (state : State Action comparator) : Operation Action → Action → Bool
  | .setToReschedule action value =>
      Function.update state.isToReschedule action value
  | _ => state.isToReschedule

/-- Whether the priority queue has been told of everything after the operation -/
def Operation.told
    (state : State Action comparator) : Operation Action → Bool
  | .offer action =>
      state.told ||
        (state.isToReschedule action &&
          state.set.peekOf (getCoreId action) != some action)
  | .removeFirst coreId => state.told || state.set.hasQueue coreId
  | .remove action =>
      state.told && state.set.peekOf (getCoreId action) != some action
  | .peekAll => state.told && state.set.firsts.all state.isToReschedule
  | _ => state.told

/-- Operations on a set that is empty at first -/
def operations
    (isToReschedule : Action → Bool) :
    TransitionSystem (State Action comparator) (Event Action comparator) where
  start := { isToReschedule, set := empty, told := true }
  Enabled state event :=
    event.operation.Leaves implementation getCoreId state event.after
  next state event :=
    { isToReschedule := event.operation.isToReschedule state
      set := event.after
      told := event.operation.told getCoreId state }

variable
  {implementation}
  {getCoreId}
  {state : State Action comparator}
  {after : PriorityActionSet Action comparator}

theorem Filed.leaves
    {operation : Operation Action}
    (filed : state.set.Filed getCoreId)
    (leaves : operation.Leaves implementation getCoreId state after) :
    after.Filed getCoreId := by
  cases operation with
  | offer action =>
      cases leaves
      exact filed.offer
  | poll =>
      obtain ⟨rounds, answer, returned⟩ := leaves
      refine poll_invariant ?_ filed returned
      intro set first polled filed isHead isPolled
      exact filed.pollPriority isPolled
  | peek =>
      obtain ⟨rounds, answer, returned⟩ := leaves
      refine peek_invariant ?_ filed returned
      intro set first removed filed isHead isRemoved
      exact filed.removeFirst isRemoved
  | peekAll =>
      cases leaves
      exact filed.peekAll
  | remove action =>
      cases leaves
      cases returned :
          state.set.remove implementation getCoreId action with
      | error fault => exact filed
      | ok removed => exact filed.remove returned
  | removeFirst coreId =>
      cases leaves
      cases returned : state.set.removeFirst implementation coreId with
      | error fault => exact filed
      | ok removed => exact filed.removeFirst returned
  | setToReschedule action value =>
      cases leaves
      exact filed

/-- The priority queue is up to date when it has been told of everything. -/
theorem upToDate_leaves
    {operation : Operation Action}
    (filed : state.set.Filed getCoreId)
    (upToDate : state.told = true → state.set.UpToDate)
    (leaves : operation.Leaves implementation getCoreId state after)
    (told : operation.told getCoreId state = true) :
    after.UpToDate := by
  cases operation with
  | offer action =>
      cases leaves
      simp only [Operation.told, Bool.or_eq_true, Bool.and_eq_true,
        bne_iff_ne] at told
      rcases told with before | ⟨ready, isOther⟩
      · exact (upToDate before).offer
      · exact upToDate_offer ready isOther
  | poll =>
      obtain ⟨rounds, answer, returned⟩ := leaves
      have both : after.UpToDate ∧ after.Filed getCoreId := by
        refine @poll_invariant _ _ _ _ _ _ _ _ _
          (fun set => set.UpToDate ∧ set.Filed getCoreId) ?_
          ⟨upToDate told, filed⟩ returned
        intro set first polled both isHead isPolled
        exact ⟨both.1.pollPriority both.2 isHead isPolled,
          both.2.pollPriority isPolled⟩
      exact both.1
  | peek =>
      obtain ⟨rounds, answer, returned⟩ := leaves
      refine peek_invariant ?_ (upToDate told) returned
      intro set first removed upToDate isHead isRemoved
      exact upToDate_removeFirst isRemoved
  | peekAll =>
      cases leaves
      simp only [Operation.told, Bool.and_eq_true, all_eq_true] at told
      exact (upToDate told.1).peekAll told.2
  | remove action =>
      cases leaves
      simp only [Operation.told, Bool.and_eq_true, bne_iff_ne] at told
      cases returned :
          state.set.remove implementation getCoreId action with
      | error fault => exact upToDate told.1
      | ok removed => exact (upToDate told.1).remove told.2 returned
  | removeFirst coreId =>
      cases leaves
      simp only [Operation.told, Bool.or_eq_true] at told
      cases returned : state.set.removeFirst implementation coreId with
      | ok removed => exact upToDate_removeFirst returned
      | error fault =>
          refine upToDate (told.resolve_right fun known => ?_)
          obtain ⟨removed, isRemoved⟩ :=
            @exists_removeFirst _ _ implementation _ _ known
          rw [isRemoved] at returned
          cases returned
  | setToReschedule action value =>
      cases leaves
      exact upToDate told

structure Orderly
    (getCoreId : Action → Option Nat)
    (state : State Action comparator) : Prop where
  filed : state.set.Filed getCoreId
  upToDate : state.told = true → state.set.UpToDate

variable
  {initially : Action → Bool}
  {events : List (Event Action comparator)}

theorem orderly_of_run
    (run : Run (operations implementation getCoreId initially) anyStep
      events state) :
    Orderly getCoreId state := by
  have nothingFiled :
      (empty : PriorityActionSet Action comparator).Filed getCoreId := by
    intro place queue isQueue action isAction
    have isEmpty : queue = .empty := by
      simpa [queues, empty] using mem_of_getElem? isQueue
    rw [isEmpty] at isAction
    simp [PriorityQueue.empty] at isAction
  refine run.invariant ⟨nothingFiled, fun _ => List.Perm.refl _⟩ ?_
  intro state event orderly leaves permitted
  exact ⟨orderly.filed.leaves leaves,
    upToDate_leaves orderly.filed orderly.upToDate leaves⟩

/-- Until a first action is taken away behind its back, the priority queue
serves the right actions. -/
theorem serves_of_run
    (transitive : ∀ one two three,
      comparator one two ≤ 0 → comparator two three ≤ 0 →
        comparator one three ≤ 0)
    (run : Run (operations implementation getCoreId initially) anyStep
      events state) :
    (state.told = true →
      PeekRight implementation getCoreId state.isToReschedule state.set ∧
        PollRight implementation getCoreId state.isToReschedule state.set) ∧
    (PeekAllRight implementation state.isToReschedule state.set ↔
      ∀ queue ∈ state.set.queues,
        ¬StaleTwice implementation state.isToReschedule queue) ∧
    ∀ action,
      RemoveRight implementation getCoreId state.set action ↔
        state.set.hasQueue (getCoreId action) = true := by
  have orderly := orderly_of_run run
  refine ⟨?_, peekAllRight_iff, ?_⟩
  · intro told
    have upToDate := orderly.upToDate told
    constructor
    · intro rounds enough
      exact peek_returns transitive upToDate orderly.filed enough
    · intro rounds enough
      exact poll_returns transitive upToDate orderly.filed enough
  · intro action
    constructor
    · rintro ⟨after, returned, -⟩
      exact (remove_eq_ok.mp returned).1
    · intro known
      have returned :=
        (@remove_eq_ok _ _ implementation _ _ _ _ action).mpr ⟨known, rfl⟩
      exact ⟨_, returned, orderly.filed.remove_perm returned⟩

end Runs

/-!
## Two actions without a core
-/

section TwoActions

/-- The smaller number goes first. -/
def smaller (one two : Nat) : Int :=
  one - two

theorem smaller_transitive
    (one two three : Nat)
    (first : smaller one two ≤ 0)
    (second : smaller two three ≤ 0) :
    smaller one three ≤ 0 := by
  unfold smaller at first second ⊢
  omega

theorem smaller_total (one two : Nat) :
    smaller one two ≤ 0 ∨ smaller two one ≤ 0 := by
  unfold smaller
  omega

def sortedNumbers : PriorityQueue.Implementation Nat smaller :=
  PriorityQueue.sorted smaller_total smaller_transitive

def oneOffer : PriorityActionSet Nat smaller :=
  empty.offer sortedNumbers (fun _ => none) (fun _ => true) 1

def twoOffers : PriorityActionSet Nat smaller :=
  oneOffer.offer sortedNumbers (fun _ => none) (fun _ => true) 2

def firstRemoved : PriorityActionSet Nat smaller :=
  ((twoOffers.remove sortedNumbers (fun _ => none) 1).toOption).getD twoOffers

def offers : List (Event Nat smaller) :=
  [⟨.offer 1, oneOffer⟩, ⟨.offer 2, twoOffers⟩]

def removal : Event Nat smaller :=
  ⟨.remove 1, firstRemoved⟩

theorem offers_run :
    Run (operations sortedNumbers (fun _ => none) (fun _ => true)) anyStep
      offers { isToReschedule _ := true, set := twoOffers, told := true } :=
  @run_of_executable _ _ _ _ offers
    ⟨⟨rfl, trivial⟩, ⟨rfl, trivial⟩, trivial⟩

theorem serves_twoOffers :
    (PeekRight sortedNumbers (fun _ => none) (fun _ => true) twoOffers ∧
      PollRight sortedNumbers (fun _ => none) (fun _ => true) twoOffers) ∧
    RemoveRight sortedNumbers (fun _ => none) twoOffers 1 := by
  have serves := serves_of_run smaller_transitive offers_run
  exact ⟨serves.1 rfl, (serves.2.2 1).mpr rfl⟩

/-- The first action is removed, and still it is the one that is served. -/
theorem not_serves_firstRemoved :
    ¬∀ events state,
      Run (operations sortedNumbers (fun _ => none) (fun _ => true)) anyStep
          events state →
        Serves sortedNumbers (fun _ => none) state.isToReschedule state.set := by
  intro serves
  have removed := serves _ _
    (@Run.snoc _ _ _ _ _ _ removal offers_run rfl trivial)
  obtain ⟨answer, after, returned, isNext, -⟩ :=
    removed.peek 2 (by decide)
  have isRemoved : answer = some 1 := by
    cases returned
    rfl
  subst isRemoved
  exact absurd isNext.1 (by decide)

end TwoActions

end DistributedRdf.Scheduling.PriorityActionSet
