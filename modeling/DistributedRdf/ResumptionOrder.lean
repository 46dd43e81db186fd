import DistributedRdf.PriorityQueue
import DistributedRdf.Score
import Mathlib.Data.Rat.Cast.Order

namespace DistributedRdf.Scheduling

open Java PriorityQueue Score Prod.Lex

/-!
# Actions that wait on a resource

A resource scheduler keeps the actions that lack resources in a priority queue.
What it takes to run one of them is left to the action.
-/

/-- What the score of a blocked action is made of. -/
structure QueuedAction where
  id : Int
  priority : Int
  deriving DecidableEq

/-- The resource schedulers that score blocked actions by these values alone. -/
inductive ResourceSchedulerKind where
  | base
  | FIFO
  | LIFO
  deriving DecidableEq

variable (action : QueuedAction)

def ResourceScheduler.generateBlockedScore : Score where
  actionScore := action.priority
  resourceScore := 0
  waitingScore := 0
  implementationScore := 0

def FIFOResourceScheduler.generateBlockedScore :
    Score where
  actionScore := action.priority
  resourceScore := -action.id
  waitingScore := 0
  implementationScore := 0

def LIFOResourceScheduler.generateBlockedScore :
    Score where
  actionScore := action.priority
  resourceScore := action.id
  waitingScore := 0
  implementationScore := 0

namespace ResourceSchedulerKind

def generateBlockedScore (scheduler : ResourceSchedulerKind) :
    QueuedAction → Score :=
  match scheduler with
  | base => ResourceScheduler.generateBlockedScore
  | FIFO => FIFOResourceScheduler.generateBlockedScore
  | LIFO => LIFOResourceScheduler.generateBlockedScore

variable (scheduler : ResourceSchedulerKind)

/-- The comparator of the queue of blocked actions -/
def compare
    (a1 a2 : QueuedAction) : Int :=
  (scheduler.generateBlockedScore a1).compareTo
    (scheduler.generateBlockedScore a2)

/-- Priority comes first, then the order of creation. -/
theorem blockedScore_isBetter_iff
    (first second : QueuedAction) :
    (scheduler.generateBlockedScore first).isBetter
        (scheduler.generateBlockedScore second) ↔
      second.priority < first.priority ∨
        second.priority = first.priority ∧
          match scheduler with
          | base => False
          | FIFO => first.id < second.id
          | LIFO => second.id < first.id := by
  rw [isBetter_iff]
  cases scheduler with
  | base =>
      simp [key, generateBlockedScore,
        ResourceScheduler.generateBlockedScore,
        toLex_lt_toLex, Int.cast_lt]
  | FIFO =>
      simp [key, generateBlockedScore,
        FIFOResourceScheduler.generateBlockedScore,
        toLex_lt_toLex, Int.cast_lt]
  | LIFO =>
      simp [key, generateBlockedScore,
        LIFOResourceScheduler.generateBlockedScore,
        toLex_lt_toLex, Int.cast_lt]

end ResourceSchedulerKind

abbrev BlockedQueue (scheduler : ResourceSchedulerKind) :=
  PriorityQueue QueuedAction scheduler.compare

abbrev BlockedQueue.Implementation (scheduler : ResourceSchedulerKind) :=
  PriorityQueue.Implementation QueuedAction scheduler.compare

variable (Env : Type u)

/-- The part of an action that depends on its kind. -/
structure RunHooks where
  areEnoughResources : QueuedAction → Env → Bool
  run : QueuedAction → Env → Env

/-- A moment at which an action leaves the queue to run. -/
structure Resumption where
  waiting : List QueuedAction
  env : Env
  action : QueuedAction

structure Launched (scheduler : ResourceSchedulerKind) (Env : Type u) where
  resumptions : List (Resumption Env)
  blocked : BlockedQueue scheduler
  env : Env

namespace BlockedQueue

variable
  {Env : Type u}
  {scheduler : ResourceSchedulerKind}
  (implementation : BlockedQueue.Implementation scheduler)
  (hooks : RunHooks Env)

/-- The loop of `tryToLaunchBlockedActions`, with a bound on its rounds -/
def launchWithin :
    Nat → BlockedQueue scheduler → Env → Launched scheduler Env
  | 0, blocked, env => ⟨[], blocked, env⟩
  | rounds + 1, blocked, env =>
      match blocked.peek with
      | none => ⟨[], blocked, env⟩
      | some firstBlocked =>
          if hooks.areEnoughResources firstBlocked env then
            let later := launchWithin rounds (blocked.poll implementation)
              (hooks.run firstBlocked env)
            { later with
              resumptions :=
                ⟨blocked.elements, env, firstBlocked⟩ :: later.resumptions }
          else
            -- its successors are not tried
            ⟨[], blocked, env⟩

/-- Each round takes one action out of the queue. -/
def tryToLaunchBlockedActions
    (blocked : BlockedQueue scheduler)
    (env : Env) : Launched scheduler Env :=
  launchWithin implementation hooks blocked.elements.length blocked env

end BlockedQueue

/-! ## Which action is resumed -/

namespace Resumption

variable
  {Env : Type u}
  (scheduler : ResourceSchedulerKind)

/-- No waiting action has a better score, let alone one that could run. -/
structure IsBest
    (hooks : RunHooks Env)
    (resumption : Resumption Env) : Prop where
  waited : resumption.action ∈ resumption.waiting
  bestScore :
    ∀ other ∈ resumption.waiting,
      ¬(scheduler.generateBlockedScore other).isBetter
        (scheduler.generateBlockedScore resumption.action)
  noneOvertaken :
    ∀ other ∈ resumption.waiting,
      hooks.areEnoughResources other resumption.env →
        ¬(scheduler.generateBlockedScore other).isBetter
          (scheduler.generateBlockedScore resumption.action)

/-- The comparator puts a worst score at the head of the queue. -/
structure IsWorst
    (resumption : Resumption Env) : Prop where
  waited : resumption.action ∈ resumption.waiting
  worstScore :
    ∀ other ∈ resumption.waiting,
      (scheduler.generateBlockedScore resumption.action).key ≤
        (scheduler.generateBlockedScore other).key

end Resumption

namespace BlockedQueue

variable
  {Env : Type u}
  {scheduler : ResourceSchedulerKind}
  (implementation : BlockedQueue.Implementation scheduler)
  (hooks : RunHooks Env)

def SameScores (blocked : BlockedQueue scheduler) : Prop :=
  ∀ first ∈ blocked.elements,
    ∀ second ∈ blocked.elements,
      scheduler.generateBlockedScore first =
        scheduler.generateBlockedScore second

def ResumesBest (blocked : BlockedQueue scheduler) (env : Env) : Prop :=
  ∀ resumption ∈
      (tryToLaunchBlockedActions implementation hooks blocked env).resumptions,
    resumption.IsBest scheduler hooks

variable
  {blocked : BlockedQueue scheduler}
  {head : QueuedAction}

theorem isWorst_of_peek
    (isHead : blocked.peek = some head)
    (env : Env) :
    Resumption.IsWorst scheduler ⟨blocked.elements, env, head⟩ where
  waited := mem_of_peek isHead
  worstScore other isElement := by
    have least := peek_least isHead isElement
    exact (compareTo_nonpos_iff _ _).mp least

/-- What holds of every round of the loop, by induction on the rounds. -/
theorem launchWithin_forall
    (Fine : BlockedQueue scheduler → Prop)
    {Holds : Resumption Env → Prop}
    (poll_fine : ∀ {blocked}, Fine blocked → Fine (blocked.poll implementation))
    (resume_holds : ∀ {blocked head env},
      Fine blocked → blocked.peek = some head →
        Holds ⟨blocked.elements, env, head⟩)
    (rounds : Nat)
    (fine : Fine blocked)
    (env : Env) :
    ∀ resumption ∈
        (launchWithin implementation hooks rounds blocked env).resumptions,
      Holds resumption := by
  induction rounds generalizing blocked env with
  | zero => simp [launchWithin]
  | succ rounds hypothesis =>
      rw [launchWithin]
      cases peeked : blocked.peek with
      | none => simp
      | some firstBlocked =>
          by_cases hasResources : hooks.areEnoughResources firstBlocked env
          · intro resumption isResumption
            simp only [hasResources, if_true, List.mem_cons] at isResumption
            rcases isResumption with first | later
            · rw [first]
              exact resume_holds fine peeked
            · exact hypothesis (poll_fine fine) _ resumption later
          · simp [hasResources]

theorem SameScores.poll
    (same : blocked.SameScores) :
    SameScores (blocked.poll implementation) :=
  fun first isFirst second isSecond =>
    same first (mem_of_mem_poll isFirst)
      second (mem_of_mem_poll isSecond)

variable {env : Env}

theorem SameScores.isBest
    (same : blocked.SameScores)
    (isHead : blocked.peek = some head) :
    Resumption.IsBest scheduler hooks ⟨blocked.elements, env, head⟩ := by
  have isWaiting := mem_of_peek isHead
  have notBetter : ∀ other ∈ blocked.elements,
      ¬(scheduler.generateBlockedScore other).isBetter
        (scheduler.generateBlockedScore head) := by
    intro other isOther
    rw [same other isOther head isWaiting, isBetter_iff]
    exact lt_irrefl _
  exact ⟨isWaiting, notBetter, fun other isOther _ => notBetter other isOther⟩

/-- An action that is both best and worst leaves no difference in the scores. -/
theorem sameScores_of_isBest
    (isHead : blocked.peek = some head)
    (best : Resumption.IsBest scheduler hooks
      ⟨blocked.elements, env, head⟩) :
    blocked.SameScores := by
  have worst := isWorst_of_peek isHead env
  have sameAsHead : ∀ other ∈ blocked.elements,
      scheduler.generateBlockedScore other =
        scheduler.generateBlockedScore head := by
    intro other isOther
    have notBetter := best.bestScore other isOther
    rw [isBetter_iff, not_lt] at notBetter
    exact key_injective
      (le_antisymm notBetter (worst.worstScore other isOther))
  intro first isFirst second isSecond
  rw [sameAsHead first isFirst, sameAsHead second isSecond]

/--
The best actions are resumed exactly when nothing is resumed or the waiting
actions do not differ in their scores.
-/
theorem resumesBest_iff
    (blocked : BlockedQueue scheduler)
    (env : Env) :
    ResumesBest implementation hooks blocked env ↔
      ((∃ head, blocked.peek = some head ∧
          hooks.areEnoughResources head env = true) →
        blocked.SameScores) := by
  constructor
  · rintro best ⟨head, isHead, hasResources⟩
    have isElement := mem_of_peek isHead
    have oneRound : ∃ rounds, blocked.elements.length = rounds + 1 :=
      Nat.exists_eq_add_one.mpr (List.length_pos_of_mem isElement)
    rcases oneRound with ⟨rounds, length⟩
    have resumed := best ⟨blocked.elements, env, head⟩
    rw [tryToLaunchBlockedActions, length, launchWithin] at resumed
    simp only [isHead, hasResources, if_true, List.mem_cons, true_or,
      forall_const] at resumed
    exact sameScores_of_isBest hooks isHead resumed
  · intro condition
    by_cases resumes : ∃ head, blocked.peek = some head ∧
        hooks.areEnoughResources head env = true
    · have polled : ∀ {queue : BlockedQueue scheduler},
          queue.SameScores → SameScores (queue.poll implementation) :=
        fun same => same.poll implementation
      have best : ∀ {queue : BlockedQueue scheduler} {head : QueuedAction}
          {env : Env}, queue.SameScores → queue.peek = some head →
            Resumption.IsBest scheduler hooks ⟨queue.elements, env, head⟩ :=
        fun same isHead => same.isBest hooks isHead
      exact launchWithin_forall implementation hooks SameScores polled best _
        (condition resumes) env
    · have nothing :
          (tryToLaunchBlockedActions implementation hooks blocked
            env).resumptions = [] := by
        rw [tryToLaunchBlockedActions]
        cases blocked.elements.length with
        | zero => rfl
        | succ rounds =>
            rw [launchWithin]
            cases peeked : blocked.peek with
            | none => rfl
            | some head =>
                have lacks : ¬hooks.areEnoughResources head env = true :=
                  fun hasResources => resumes ⟨head, peeked, hasResources⟩
                simp [lacks]
      rw [ResumesBest, nothing]
      simp

/-- Two actions of one priority, the newer one at the head of the queue -/
def newerFirst : BlockedQueue .FIFO where
  elements := [⟨2, 0⟩, ⟨1, 0⟩]
  headLeast := by
    have newerWorse :
        ¬(ResourceSchedulerKind.FIFO.generateBlockedScore ⟨2, 0⟩).isBetter
          (ResourceSchedulerKind.FIFO.generateBlockedScore ⟨1, 0⟩) := by
      simp [ResourceSchedulerKind.blockedScore_isBetter_iff]
    rw [isBetter_iff, not_lt] at newerWorse
    simp [ResourceSchedulerKind.compare, compareTo_nonpos_iff, newerWorse]

variable (scheduler)

def sortedQueue :
    BlockedQueue.Implementation scheduler :=
  sorted
    (fun first second => by
      simp only [ResourceSchedulerKind.compare, compareTo_nonpos_iff]
      exact le_total _ _)
    (fun first second third => by
      simp only [ResourceSchedulerKind.compare, compareTo_nonpos_iff]
      exact le_trans)

/-- The newer action is resumed although the older one could run. -/
theorem not_resumesBest_newerFirst :
    ¬ResumesBest (sortedQueue .FIFO)
      (⟨fun _ _ => true, fun _ _ => ()⟩ : RunHooks Unit) newerFirst () := by
  intro best
  have first := best ⟨[⟨2, 0⟩, ⟨1, 0⟩], (), ⟨2, 0⟩⟩
    (by simp [tryToLaunchBlockedActions, newerFirst, launchWithin,
      peek])
  have notBetter := first.bestScore ⟨1, 0⟩ (by simp)
  simp [ResourceSchedulerKind.blockedScore_isBetter_iff] at notBetter

end BlockedQueue

end DistributedRdf.Scheduling
