import DistributedRdf.SchedulerConsistency

namespace DistributedRdf.Scheduling

open Java Relation LinkedList Outcome List

/-!
# What a total failure leaves behind

Only actions that are runnable fail, with actions that depend on them.  The
dependencies of the other actions can only disappear.
-/

namespace World

variable
  {world : SchedulerWorld}
  {action : ActionId}

/-- A total failure, complete or not, has led from one state to the other. -/
structure Shrunk (before after : SchedulerWorld) : Prop where
  nextId : after.nextId = before.nextId
  env : after.env = { before.env with workers := after.env.workers }
  state :
    ∀ action, (after.graph action).state = (before.graph action).state ∨
      (after.graph action).state = .FAILED ∧
        (before.graph action).state = .RUNNABLE
  predecessors :
    ∀ action,
      (after.graph action).dataPredecessors.items =
          (before.graph action).dataPredecessors.items ∨
        (after.graph action).dataPredecessors.items = []
  successors :
    ∀ action successor, Successor after.graph action successor →
      Successor before.graph action successor

variable (world)

theorem Shrunk.refl : Shrunk world world where
  nextId := rfl
  env := rfl
  state _ := .inl rfl
  predecessors _ := .inl rfl
  successors _ _ := id

theorem Shrunk.trans
    {first second third : SchedulerWorld}
    (before : Shrunk first second)
    (after : Shrunk second third) :
    Shrunk first third where
  nextId := after.nextId.trans before.nextId
  env := by
    rw [after.env, before.env]
  state action := by
    rcases after.state action with same | ⟨failed, runnable⟩
    · rw [same]
      exact before.state action
    · rcases before.state action with sameBefore | ⟨failedBefore, _⟩
      · exact .inr ⟨failed, sameBefore.symm.trans runnable⟩
      · rw [failedBefore] at runnable
        exact absurd runnable (by simp)
  predecessors action := by
    rcases after.predecessors action with same | none
    · rw [same]
      exact before.predecessors action
    · exact .inr none
  successors predecessor successor isSuccessor :=
    before.successors predecessor successor
      (after.successors predecessor successor isSuccessor)

/-- No action has the action among its successors. -/
def NoIncoming (action : ActionId) : Prop :=
  ∀ predecessor, ¬ Successor world.graph predecessor action

variable {world}

theorem Shrunk.noIncoming
    {before after : SchedulerWorld}
    (shrunk : Shrunk before after)
    (none : before.NoIncoming action) :
    after.NoIncoming action :=
  fun predecessor isSuccessor =>
    none predecessor (shrunk.successors predecessor action isSuccessor)

/-! ## The steps of `failed` -/

theorem setFailed_shrunk
    (canFail :
      (world.graph action).state = .RUNNABLE ∨
        (world.graph action).state = .FAILED) :
    Shrunk world (world.setState action .FAILED) where
  nextId := rfl
  env := rfl
  state other := by
    by_cases same : other = action
    · subst same
      rw [setState_state_self]
      rcases canFail with runnable | failed
      · exact .inr ⟨rfl, runnable⟩
      · exact .inl failed.symm
    · rw [setState_of_ne same]
      exact .inl rfl
  predecessors other := by
    rw [setState_dataPredecessors]
    exact .inl rfl
  successors predecessor successor isSuccessor := by
    rwa [Successor, setState_dataSuccessors] at isSuccessor

theorem forgetSuccessor_shrunk (predecessor : ActionId) :
    Shrunk world (forgetSuccessor action world predecessor) where
  nextId := rfl
  env := rfl
  state other :=
    .inl (world.forgetSuccessor_spec action other predecessor).1
  predecessors other := by
    rw [(world.forgetSuccessor_spec action other predecessor).2.1]
    exact .inl rfl
  successors other successor isSuccessor := by
    rw [Successor,
      (world.forgetSuccessor_spec action other predecessor).2.2] at isSuccessor
    split at isSuccessor
    · rw [items_remove] at isSuccessor
      exact mem_of_mem_erase isSuccessor
    · exact isSuccessor

theorem clearDependencies_shrunk (world : SchedulerWorld) (action : ActionId) :
    Shrunk world (world.clearDependencies action) where
  nextId := rfl
  env := rfl
  state other := by
    by_cases same : other = action
    · subst same
      exact .inl (by simp [clearDependencies])
    · exact .inl (by simp [clearDependencies, same])
  predecessors other := by
    by_cases same : other = action
    · subst same
      exact .inr (by simp [clearDependencies, clear])
    · exact .inl (by simp [clearDependencies, same])
  successors other successor isSuccessor := by
    by_cases same : other = action
    · subst same
      simp [Successor, clearDependencies, clear] at isSuccessor
    · simpa [Successor, clearDependencies, same] using isSuccessor

namespace Consistent

variable (consistent : Consistent world)

include consistent

/-- Consistency of a state that a total failure leads to. -/
theorem shrunk
    {after : SchedulerWorld}
    (shrunk : Shrunk world after)
    (unknown : ∀ action, world.nextId ≤ action → after.graph action = .new)
    (mirrored :
      ∀ action successor, Successor after.graph action successor →
        action ∈ (after.graph successor).dataPredecessors.items)
    (successorsOnce :
      ∀ action, (after.graph action).dataSuccessors.items.Nodup) :
    Consistent after := by
  have sameEnv := shrunk.env
  have queued
      {queue : WorkerId → List ActionId}
      {state : ActionState}
      (remains : state ≠ .RUNNABLE ∧ state ≠ .FAILED)
      (before : QueuedIn world queue state) :
      QueuedIn after queue state := by
    intro worker action
    have resource :
        after.env.assignedResource action =
          world.env.assignedResource action := by
      rw [sameEnv]
      rfl
    rw [before worker action, resource]
    rcases shrunk.state action with same | ⟨failed, runnable⟩
    · rw [same]
    · simp [failed, runnable, remains.1.symm, remains.2.symm]
  constructor
  case mirrored => exact mirrored
  case successorsOnce => exact successorsOnce
  case unknown =>
    rw [shrunk.nextId]
    exact unknown
  case hosted =>
    rw [sameEnv]
    exact queued (by simp) consistent.hosted
  case waiting =>
    rw [sameEnv]
    exact queued (by simp) consistent.waiting
  case dependent =>
    intro action depends
    rcases shrunk.state action with same | ⟨failed, _⟩
    · rw [same]
      rcases shrunk.predecessors action with samePredecessors | none
      · rw [samePredecessors] at depends
        exact consistent.dependent action depends
      · exact absurd none depends
    · exact .inr failed
  case assigned =>
    intro action isQueued
    rw [sameEnv]
    rcases shrunk.state action with same | ⟨failed, _⟩
    · rw [same] at isQueued
      exact consistent.assigned action isQueued
    · rw [failed] at isQueued
      exact absurd isQueued (by simp)
  case reserved =>
    intro action running
    rw [sameEnv]
    rcases shrunk.state action with same | ⟨failed, _⟩
    · rw [same] at running
      exact consistent.reserved action running
    · rw [failed] at running
      exact absurd running (by simp)
  case cores =>
    rw [sameEnv, shrunk.nextId]
    exact consistent.cores
  case counted =>
    rw [sameEnv]
    exact consistent.counted
  case blockedKnown =>
    rw [sameEnv, shrunk.nextId]
    exact consistent.blockedKnown
  case unassignedKnown =>
    rw [sameEnv, shrunk.nextId]
    exact consistent.unassignedKnown

theorem setFailed
    (known : action < world.nextId)
    (canFail :
      (world.graph action).state = .RUNNABLE ∨
        (world.graph action).state = .FAILED) :
    Consistent (world.setState action .FAILED) := by
  apply consistent.shrunk (setFailed_shrunk canFail)
  · intro other isUnknown
    have different : other ≠ action := by
      rintro rfl
      exact absurd known (Nat.not_lt_of_le isUnknown)
    rw [setState_of_ne different]
    exact consistent.unknown other isUnknown
  · intro predecessor successor isSuccessor
    rw [Successor, setState_dataSuccessors] at isSuccessor
    rw [setState_dataPredecessors]
    exact consistent.mirrored predecessor successor isSuccessor
  · intro other
    rw [setState_dataSuccessors]
    exact consistent.successorsOnce other

theorem forgetSuccessor
    (predecessor : ActionId) :
    Consistent (forgetSuccessor action world predecessor) := by
  have spec (other : ActionId) :=
    world.forgetSuccessor_spec action other predecessor
  apply consistent.shrunk (forgetSuccessor_shrunk predecessor)
  · intro other isUnknown
    have isNew := consistent.unknown other isUnknown
    by_cases same : other = predecessor
    · subst same
      rw [World.forgetSuccessor, modify_graph_self, isNew]
      rfl
    · rw [World.forgetSuccessor, modify_graph_of_ne same, isNew]
  · intro first second isSuccessor
    rw [(spec second).2.1]
    exact consistent.mirrored first second
      ((forgetSuccessor_shrunk predecessor).successors first second isSuccessor)
  · intro other
    rw [(spec other).2.2]
    split
    · rw [items_remove]
      exact (consistent.successorsOnce other).erase action
    · exact consistent.successorsOnce other

theorem clearDependencies
    (known : action < world.nextId)
    (noIncoming : world.NoIncoming action) :
    Consistent (world.clearDependencies action) := by
  have remain := clearDependencies_shrunk world action
  apply consistent.shrunk remain
  · intro other isUnknown
    have different : other ≠ action := by
      rintro rfl
      exact absurd known (Nat.not_lt_of_le isUnknown)
    rw [World.clearDependencies, modify_graph_of_ne different]
    exact consistent.unknown other isUnknown
  · intro predecessor successor isSuccessor
    have before := remain.successors predecessor successor isSuccessor
    have different : successor ≠ action := by
      rintro rfl
      exact noIncoming predecessor before
    rw [World.clearDependencies, modify_graph_of_ne different]
    exact consistent.mirrored predecessor successor before
  · intro other
    by_cases same : other = action
    · subst same
      simp [World.clearDependencies, clear]
    · rw [World.clearDependencies, modify_graph_of_ne same]
      exact consistent.successorsOnce other

/-- No predecessor keeps an action that it ignores. -/
theorem ignoreAction
    (action : ActionId) :
    Consistent (world.ignoreAction action) ∧
      Shrunk world (world.ignoreAction action) ∧
        (world.ignoreAction action).NoIncoming action := by
  have ignored
      (predecessors : List ActionId)
      (before : SchedulerWorld)
      (beforeConsistent : Consistent before) :
      let after := predecessors.foldl (World.forgetSuccessor action) before
      Consistent after ∧ Shrunk before after ∧
        ∀ predecessor ∈ predecessors,
          ¬ Successor after.graph predecessor action := by
    induction predecessors generalizing before with
    | nil =>
        exact ⟨beforeConsistent, .refl before,
          fun _ member => absurd member not_mem_nil⟩
    | cons predecessor rest hypothesis =>
        rcases hypothesis _
            (@Consistent.forgetSuccessor before action beforeConsistent
              predecessor) with
          ⟨consistentAfter, shrunk, restForgot⟩
        refine ⟨consistentAfter,
          (forgetSuccessor_shrunk predecessor).trans shrunk, ?_⟩
        intro other member
        rcases mem_cons.mp member with rfl | later
        · intro isSuccessor
          have still := shrunk.successors _ _ isSuccessor
          rw [Successor,
            (before.forgetSuccessor_spec action other other).2.2,
            if_pos rfl, items_remove] at still
          exact (beforeConsistent.successorsOnce other).not_mem_erase still
        · exact restForgot other later
  rcases ignored (world.graph action).dataPredecessors.items world
      consistent with
    ⟨consistentAfter, shrunk, forgot⟩
  refine ⟨consistentAfter, shrunk, ?_⟩
  intro predecessor isSuccessor
  have before := shrunk.successors predecessor action isSuccessor
  exact forgot predecessor (consistent.mirrored predecessor action before)
    isSuccessor

/-- An action that neither runs nor waits is in no queue. -/
theorem cancelAction
    (notWaiting : (world.graph action).state ≠ .WAITING)
    (worker : WorkerId) :
    world.env.cancelAction action worker = world.env := by
  have notMember : action ∉ world.env.waiting worker := by
    intro member
    exact notWaiting (consistent.of_mem_waiting member).1
  rw [SchedulerEnv.cancelAction, erase_of_not_mem notMember,
    Function.update_eq_self]

theorem modifyWorkers
    {env : SchedulerEnv}
    (same : env = { world.env with workers := env.workers }) :
    Consistent { world with env := env } ∧
      Shrunk world { world with env := env } := by
  constructor
  · rw [same]
    apply consistent.withEnv
    · exact fun _ => .refl _
    · rfl
    · rfl
    · exact Nat.le_refl _
    · exact consistent.counted
    · exact consistent.blockedKnown
    · exact consistent.unassignedKnown
  · exact ⟨rfl, same, fun _ => .inl rfl, fun _ => .inl rfl, fun _ _ => id⟩

end Consistent

/-! ## The recursion of `failed` -/

/-- An action that is ignored is the only one to lose predecessors. -/
theorem ignoreAction_spec (action other : ActionId) :
    let after := world.ignoreAction action
    (after.graph other).state = (world.graph other).state ∧
      (after.graph other).dataPredecessors =
        (world.graph other).dataPredecessors ∧
      ∀ successor ≠ action, Successor world.graph other successor →
        Successor after.graph other successor := by
  have ignored
      (predecessors : List ActionId)
      (before : SchedulerWorld) :
      let after := predecessors.foldl (World.forgetSuccessor action) before
      (after.graph other).state = (before.graph other).state ∧
        (after.graph other).dataPredecessors =
          (before.graph other).dataPredecessors ∧
        ∀ successor ≠ action, Successor before.graph other successor →
          Successor after.graph other successor := by
    induction predecessors generalizing before with
    | nil => exact ⟨rfl, rfl, fun _ _ => id⟩
    | cons predecessor rest hypothesis =>
        have forgot := before.forgetSuccessor_spec action other predecessor
        have later :=
          hypothesis (World.forgetSuccessor action before predecessor)
        refine ⟨later.1.trans forgot.1, later.2.1.trans forgot.2.1, ?_⟩
        intro successor different isSuccessor
        apply later.2.2 successor different
        rw [Successor, forgot.2.2]
        split
        · rw [items_remove]
          exact (mem_erase_of_ne different).mpr isSuccessor
        · exact isSuccessor
  exact ignored _ world

/--
What holds in every state that `failed` goes through for an action.  Whatever
fails with it depends on something that has failed.
-/
structure FailsFrom
    (action : ActionId)
    (before world : SchedulerWorld) : Prop where
  consistent : Consistent world
  shrunk : Shrunk before world
  predecessors :
    ∀ other,
      (world.graph other).dataPredecessors.items =
          (before.graph other).dataPredecessors.items ∨
        (world.graph other).state = .FAILED
  links :
    ∀ predecessor successor, Successor before.graph predecessor successor →
      Successor world.graph predecessor successor ∨
        (world.graph predecessor).state = .FAILED ∨
          (world.graph successor).state = .FAILED
  caused :
    ∀ other, (world.graph other).state = .FAILED →
      (before.graph other).state = .FAILED ∨ other = action ∨
        ∃ predecessor ∈ (before.graph other).dataPredecessors.items,
          (world.graph predecessor).state = .FAILED

theorem Shrunk.failed
    {before after : SchedulerWorld}
    (shrunk : Shrunk before after)
    (failed : (before.graph action).state = .FAILED) :
    (after.graph action).state = .FAILED := by
  rcases shrunk.state action with same | ⟨failedAfter, _⟩
  · rw [same, failed]
  · exact failedAfter

namespace FailsFrom

variable {before after : SchedulerWorld}

theorem refl
    (consistent : Consistent world)
    (action : ActionId) :
    FailsFrom action world world where
  consistent := consistent
  shrunk := .refl world
  predecessors _ := .inl rfl
  links _ _ := .inl
  caused _ := .inl

/-- What fails later is the action, or it depends on something that failed. -/
theorem extend
    {other : ActionId}
    (first : FailsFrom action before world)
    (second : FailsFrom other world after)
    (below :
      other = action ∨
        ∃ predecessor ∈ (before.graph other).dataPredecessors.items,
          (world.graph predecessor).state = .FAILED) :
    FailsFrom action before after where
  consistent := second.consistent
  shrunk := first.shrunk.trans second.shrunk
  predecessors third := by
    rcases second.predecessors third with same | failed
    · rcases first.predecessors third with sameBefore | failed
      · exact .inl (same.trans sameBefore)
      · exact .inr (second.shrunk.failed failed)
    · exact .inr failed
  links predecessor successor isSuccessor := by
    rcases first.links predecessor successor isSuccessor with
      linked | failed | failed
    · exact second.links predecessor successor linked
    · exact .inr (.inl (second.shrunk.failed failed))
    · exact .inr (.inr (second.shrunk.failed failed))
  caused third failed := by
    have fromFirst (failedBetween : (world.graph third).state = .FAILED) :
        (before.graph third).state = .FAILED ∨ third = action ∨
          ∃ predecessor ∈ (before.graph third).dataPredecessors.items,
            (after.graph predecessor).state = .FAILED := by
      rcases first.caused third failedBetween with
        earlier | same | ⟨predecessor, member, failedPredecessor⟩
      · exact .inl earlier
      · exact .inr (.inl same)
      · exact .inr (.inr
          ⟨predecessor, member, second.shrunk.failed failedPredecessor⟩)
    rcases second.caused third failed with
      between | rfl | ⟨predecessor, member, failedPredecessor⟩
    · exact fromFirst between
    · rcases below with rfl | ⟨predecessor, member, failedPredecessor⟩
      · exact .inr (.inl rfl)
      · exact .inr (.inr
          ⟨predecessor, member, second.shrunk.failed failedPredecessor⟩)
    · rcases first.shrunk.predecessors third with same | none
      · rw [same] at member
        exact .inr (.inr ⟨predecessor, member, failedPredecessor⟩)
      · rw [none] at member
        exact absurd member not_mem_nil

/-- Only the dependencies of a failed action change. -/
theorem unlink
    (consistent : Consistent after)
    (shrunk : Shrunk world after)
    (failed : (world.graph action).state = .FAILED)
    (state : ∀ other, (after.graph other).state = (world.graph other).state)
    (predecessors :
      ∀ other ≠ action,
        (after.graph other).dataPredecessors =
          (world.graph other).dataPredecessors)
    (links :
      ∀ predecessor ≠ action, ∀ successor ≠ action,
        Successor world.graph predecessor successor →
          Successor after.graph predecessor successor) :
    FailsFrom action world after where
  consistent := consistent
  shrunk := shrunk
  predecessors other := by
    by_cases same : other = action
    · subst same
      exact .inr ((state other).trans failed)
    · rw [predecessors other same]
      exact .inl rfl
  links predecessor successor isSuccessor := by
    by_cases isPredecessor : predecessor = action
    · subst isPredecessor
      exact .inr (.inl ((state predecessor).trans failed))
    · by_cases isAction : successor = action
      · subst isAction
        exact .inr (.inr ((state successor).trans failed))
      · exact .inl
          (links predecessor isPredecessor successor isAction isSuccessor)
  caused other failedAfter := .inl ((state other).symm.trans failedAfter)

theorem setFailed
    (consistent : Consistent world)
    (known : action < world.nextId)
    (canFail :
      (world.graph action).state = .RUNNABLE ∨
        (world.graph action).state = .FAILED) :
    FailsFrom action world (world.setState action .FAILED) where
  consistent := consistent.setFailed known canFail
  shrunk := setFailed_shrunk canFail
  predecessors other := by
    rw [setState_dataPredecessors]
    exact .inl rfl
  links predecessor successor isSuccessor := by
    rw [Successor, setState_dataSuccessors]
    exact .inl isSuccessor
  caused other failed := by
    by_cases same : other = action
    · exact .inr (.inl same)
    · rw [setState_of_ne same] at failed
      exact .inl failed

variable (fails : FailsFrom action before world)

include fails

variable (failed : (world.graph action).state = .FAILED)

include failed

theorem releaseResources :
    FailsFrom action before
      (world.callHook (SchedulerEnv.hooks.releaseResources action)).state := by
  have same :
      (world.env.releaseResources action).state =
        { world.env with
          workers := (world.env.releaseResources action).state.workers } := by
    unfold SchedulerEnv.releaseResources
    split
    · rfl
    · rw [state_onState]
      rfl
  have released := fails.consistent.modifyWorkers same
  rw [callHook, state_onState]
  exact fails.extend
    (unlink released.1 released.2 failed (fun _ => rfl) (fun _ _ => rfl)
      fun _ _ _ _ => id)
    (.inl rfl)

theorem cancelAction :
    FailsFrom action before
      (world.callHook (SchedulerEnv.hooks.cancelAction action)).state := by
  have unchanged :
      (world.callHook (SchedulerEnv.hooks.cancelAction action)).state =
        world := by
    rw [callHook, state_onState]
    unfold SchedulerEnv.hooks
    dsimp only
    split
    · rfl
    · rw [state_returned,
        fails.consistent.cancelAction (by simp [failed])]
  rwa [unchanged]

theorem ignoreAction :
    FailsFrom action before (world.ignoreAction action) ∧
      (world.ignoreAction action).NoIncoming action := by
  rcases fails.consistent.ignoreAction action with
    ⟨consistent, shrunk, noIncoming⟩
  have spec := @ignoreAction_spec world action
  refine ⟨fails.extend (unlink consistent shrunk failed ?_ ?_ ?_) (.inl rfl),
    noIncoming⟩
  · exact fun other => (spec other).1
  · exact fun other _ => (spec other).2.1
  · exact fun predecessor _ => (spec predecessor).2.2

theorem clearDependencies
    (known : action < world.nextId)
    (noIncoming : world.NoIncoming action) :
    FailsFrom action before (world.clearDependencies action) := by
  have elsewhere (other : ActionId) (different : other ≠ action) :
      (world.clearDependencies action).graph other = world.graph other :=
    modify_graph_of_ne different _
  refine fails.extend
    (unlink (fails.consistent.clearDependencies known noIncoming)
      (clearDependencies_shrunk world action) failed ?_ ?_ ?_)
    (.inl rfl)
  · intro other
    by_cases same : other = action
    · subst same
      simp [World.clearDependencies]
    · rw [elsewhere other same]
  · intro other different
    rw [elsewhere other different]
  · intro predecessor different successor _ isSuccessor
    rwa [Successor, elsewhere predecessor different]

end FailsFrom

/-- An action has failed once `failed` has been called. -/
theorem failedWithin_failsFrom
    (depth : Nat)
    (consistent : Consistent world)
    (known : action < world.nextId)
    (canFail :
      (world.graph action).state = .RUNNABLE ∨
        (world.graph action).state = .FAILED) :
    let after := (failedWithin SchedulerEnv.hooks depth action world).state
    FailsFrom action world after ∧
      (0 < depth → (after.graph action).state = .FAILED) := by
  induction depth generalizing action world with
  | zero =>
      exact ⟨.refl consistent action,
        fun positive => absurd positive (Nat.lt_irrefl 0)⟩
  | succ depth hypothesis =>
      have marked := FailsFrom.setFailed consistent known canFail
      let Failed := fun between : SchedulerWorld =>
        FailsFrom action world between ∧
          (between.graph action).state = .FAILED
      -- while the hooks are called the action stays known
      let Failing := fun between : SchedulerWorld =>
        Failed between ∧ action < between.nextId
      have hooked
          (between : SchedulerWorld)
          (hook : SchedulerEnv → Outcome SchedulerEnv Unit)
          (failing : Failing between)
          (failsAfter :
            FailsFrom action world (between.callHook hook).state) :
          Failing (between.callHook hook).state := by
        refine ⟨⟨failsAfter, ?_⟩, ?_⟩
        · rw [callHook, state_onState]
          exact failing.1.2
        · rw [callHook, state_onState]
          exact failing.2
      -- while the successors fail no other action gets the action back
      let Ignored := fun between : SchedulerWorld =>
        Failing between ∧ between.NoIncoming action
      suffices failed :
          Failed
            (failedWithin SchedulerEnv.hooks (depth + 1) action world).state from
        ⟨failed.1, fun _ => failed.2⟩
      rw [failedWithin]
      have released : Failing _ :=
        hooked _ _ ⟨⟨marked, setState_state_self _⟩, known⟩
          (marked.releaseResources (setState_state_self _))
      refine andThen_ensures released (fun _ failing => failing.1) ?_
      intro releasedWorld _ failing
      have cancelled : Failing _ :=
        hooked _ _ failing (failing.1.1.cancelAction failing.1.2)
      refine andThen_ensures cancelled (fun _ failing => failing.1) ?_
      intro cancelledWorld _ failing
      rcases failing.1.1.ignoreAction failing.1.2 with ⟨fails, noIncoming⟩
      have ignored : Ignored (cancelledWorld.ignoreAction action) := by
        refine ⟨⟨⟨fails, ?_⟩, ?_⟩, noIncoming⟩
        · rw [(ignoreAction_spec action action).1]
          exact failing.1.2
        · rw [fails.shrunk.nextId]
          exact known
      have succeeded :
          Ignored
            (forEach
              (fun world => (world.graph action).dataSuccessors)
              (failedWithin SchedulerEnv.hooks depth)
              (cancelledWorld.ignoreAction action)).state := by
        refine iterate_preserves_of_mem ?_ ignored
        intro successor between isSuccessor holds
        have stays := holds.1.1.1.consistent
        have isPredecessor := stays.mirrored action successor isSuccessor
        have depends :
            (between.graph successor).dataPredecessors.items ≠ [] :=
          ne_nil_of_mem isPredecessor
        have failsSuccessor :=
          (hypothesis stays (stays.known_of_dependent depends)
            (stays.dependent successor depends)).1
        have dependedBefore :
            action ∈ (world.graph successor).dataPredecessors.items := by
          rcases holds.1.1.1.shrunk.predecessors successor with same | none
          · rwa [← same]
          · exact absurd none depends
        refine ⟨⟨⟨holds.1.1.1.extend failsSuccessor
            (.inr ⟨action, dependedBefore, holds.1.1.2⟩),
          failsSuccessor.shrunk.failed holds.1.1.2⟩, ?_⟩,
          failsSuccessor.shrunk.noIncoming holds.2⟩
        rw [failsSuccessor.shrunk.nextId]
        exact holds.1.2
      refine andThen_ensures succeeded (fun _ holds => holds.1.1) ?_
      intro between failed holds
      have cleared :=
        holds.1.1.1.clearDependencies holds.1.1.2 holds.1.2 holds.2
      have failedAfter :
          ((between.clearDependencies action).graph action).state = .FAILED :=
        (clearDependencies_shrunk between action).failed holds.1.1.2
      refine ⟨⟨?_, ?_, cleared.predecessors, cleared.links, cleared.caused⟩,
        failedAfter⟩
      · exact cleared.consistent.withGraph rfl rfl (fun _ => rfl)
          cleared.consistent.mirrored cleared.consistent.successorsOnce
          cleared.consistent.unknown cleared.consistent.dependent
      · exact ⟨cleared.shrunk.nextId, cleared.shrunk.env, cleared.shrunk.state,
          cleared.shrunk.predecessors, cleared.shrunk.successors⟩

end World

end DistributedRdf.Scheduling
