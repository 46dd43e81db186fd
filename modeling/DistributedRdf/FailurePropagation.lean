import DistributedRdf.AllocatableActions
import Mathlib.Data.List.NodupEquivFin
import Mathlib.Logic.Relation

namespace DistributedRdf.Scheduling

open Java Relation LinkedList Outcome TransGen ActionNode

/-!
# Which actions a failure reaches

`failed` follows the first data successor of each action.  When the recursive
call returns the list of successors has been modified, so that the iteration
ends silently if one successor is left and throws if more are left.
-/

namespace World

variable
  {Env : Type u}
  (graph : ActionId → ActionNode)

def Successor
    (action successor : ActionId) : Prop :=
  successor ∈ (graph action).dataSuccessors.items

/-- An acyclic graph as `addDataPredecessor` builds it. -/
structure WellFormed
    (nextId : ActionId) : Prop where
  mirrored :
    ∀ action other,
      Successor graph action other ↔
        action ∈ (graph other).dataPredecessors.items
  successorsOnce : ∀ action, (graph action).dataSuccessors.items.Nodup
  predecessorsOnce : ∀ action, (graph action).dataPredecessors.items.Nodup
  known : ∀ action other, Successor graph action other → action < nextId
  acyclic : ∀ action, ¬ TransGen (Successor graph) action action

/-- The action, its first successor, the first successor of that, and so on. -/
def firstSuccessors (graph : ActionId → ActionNode) :
    Nat → ActionId → List ActionId
  | 0, _ => []
  | depth + 1, action =>
      action ::
        match (graph action).dataSuccessors.items with
        | [] => []
        | first :: _ => firstSuccessors graph depth first

/-- The hooks of a chain of actions, in the order in which `failed` calls them. -/
def chainHooks (hooks : ActionHooks Env) :
    List ActionId → Env → Outcome Env Unit
  | [], env => .returned env ()
  | action :: rest, env =>
      (hooks.releaseResources action env).andThen fun env _ =>
      (hooks.cancelAction action env).andThen fun env _ =>
      (chainHooks hooks rest env).andThen fun env _ =>
        hooks.doFailed action env

/-!
## One action of the chain
-/

/-- The state in which `failed` starts to look at the successors. -/
def startFailing (world : World Env) (action : ActionId) (env : Env) :
    World Env :=
  { world.setState action .FAILED with env := env }.ignoreAction action

/-- What `failed` does after its successors have failed. -/
def finishFailing
    (hooks : ActionHooks Env)
    (action : ActionId)
    (world : World Env)
    (failed : List ActionId) : Outcome (World Env) (List ActionId) :=
  let cleared := world.clearDependencies action
  ({ cleared with
    doFailedCalls := cleared.doFailedCalls ++ [action]
  }.callHook (hooks.doFailed action)).andThen fun world _ =>
    .returned world (failed ++ [action])

/-- The state in which `failed` returns. -/
def endFailing (world : World Env) (action : ActionId) (env : Env) :
    World Env :=
  { world.clearDependencies action with
    doFailedCalls := world.doFailedCalls ++ [action]
    env := env }

theorem finishFailing_returned
    {hooks : ActionHooks Env}
    {action : ActionId}
    {world after : World Env}
    {failed result : List ActionId} :
    finishFailing hooks action world failed = .returned after result ↔
      ∃ env, hooks.doFailed action world.env = .returned env () ∧
        after = world.endFailing action env ∧ result = failed ++ [action] := by
  rw [finishFailing]
  change ((hooks.doFailed action world.env).onState _).andThen _ = _ ↔ _
  cases hooks.doFailed action world.env with
  | raised env exception => simp [onState]
  | returned env value =>
      constructor
      · intro returned
        cases returned
        exact ⟨env, rfl, rfl, rfl⟩
      · rintro ⟨_, sameEnv, rfl, rfl⟩
        cases sameEnv
        rfl

section Modify

variable (world : World Env) (action other : ActionId)

@[simp] theorem modify_graph_self (change : ActionNode → ActionNode) :
    (world.modify action change).graph action = change (world.graph action) := by
  simp [modify]

@[simp] theorem modify_graph_of_ne
    {world : World Env}
    {action other : ActionId}
    (different : other ≠ action)
    (change : ActionNode → ActionNode) :
    (world.modify action change).graph other = world.graph other := by
  simp [modify, different]

/-- Forgetting a successor changes nothing but one list of successors. -/
theorem forgetSuccessor_spec (predecessor : ActionId) :
    let after := forgetSuccessor action world predecessor
    (after.graph other).state = (world.graph other).state ∧
      (after.graph other).dataPredecessors =
        (world.graph other).dataPredecessors ∧
      (after.graph other).dataSuccessors =
        (if other = predecessor then
          (world.graph other).dataSuccessors.remove action
        else (world.graph other).dataSuccessors) := by
  by_cases same : other = predecessor
  · subst other
    simp [forgetSuccessor]
  · simp [forgetSuccessor, same]

theorem ignoreEach_spec
    (predecessors : List ActionId)
    (once : predecessors.Nodup) :
    let after := predecessors.foldl (forgetSuccessor action) world
    after.nextId = world.nextId ∧ after.env = world.env ∧
      after.doFailedCalls = world.doFailedCalls ∧
      (after.graph other).state = (world.graph other).state ∧
      (after.graph other).dataPredecessors =
        (world.graph other).dataPredecessors ∧
      (after.graph other).dataSuccessors =
        (if other ∈ predecessors then
          (world.graph other).dataSuccessors.remove action
        else (world.graph other).dataSuccessors) := by
  induction predecessors generalizing world with
  | nil => simp
  | cons predecessor rest hypothesis =>
      obtain ⟨notInRest, restOnce⟩ := List.nodup_cons.mp once
      obtain ⟨nextId, env, calls, state, dataPredecessors, dataSuccessors⟩ :=
        hypothesis (forgetSuccessor action world predecessor) restOnce
      obtain ⟨sameState, samePredecessors, changed⟩ :=
        world.forgetSuccessor_spec action other predecessor
      refine ⟨nextId, env, calls, state.trans sameState,
        dataPredecessors.trans samePredecessors, dataSuccessors.trans ?_⟩
      rw [changed]
      by_cases isFirst : other = predecessor
      · subst other
        simp [notInRest]
      · simp [isFirst]

end Modify

theorem startFailing_spec
    {world : World Env}
    {action : ActionId}
    (once : (world.graph action).dataPredecessors.items.Nodup)
    (env : Env)
    (other : ActionId) :
    let after := world.startFailing action env
    after.nextId = world.nextId ∧ after.env = env ∧
      after.doFailedCalls = world.doFailedCalls ∧
      (after.graph other).state =
        (if other = action then .FAILED else (world.graph other).state) ∧
      (after.graph other).dataPredecessors =
        (world.graph other).dataPredecessors ∧
      (after.graph other).dataSuccessors =
        (if other ∈ (world.graph action).dataPredecessors.items then
          (world.graph other).dataSuccessors.remove action
        else (world.graph other).dataSuccessors) := by
  let marked : World Env := { world.setState action .FAILED with env := env }
  have node : (marked.graph other).state =
        (if other = action then .FAILED else (world.graph other).state) ∧
      (marked.graph other).dataPredecessors =
        (world.graph other).dataPredecessors ∧
      (marked.graph other).dataSuccessors =
        (world.graph other).dataSuccessors := by
    by_cases same : other = action
    · subst other
      simp [marked, setState, modify]
    · simp [marked, setState, modify, same]
  have sameList : (marked.graph action).dataPredecessors =
      (world.graph action).dataPredecessors := by
    simp [marked, setState, modify]
  obtain ⟨nextId, sameEnv, calls, state, dataPredecessors, dataSuccessors⟩ :=
    marked.ignoreEach_spec action other
      (world.graph action).dataPredecessors.items once
  have unfolded :
      world.startFailing action env =
        (world.graph action).dataPredecessors.items.foldl
          (forgetSuccessor action) marked := by
    change (marked.graph action).dataPredecessors.items.foldl _ _ = _
    rw [sameList]
  rw [unfolded]
  refine ⟨nextId, sameEnv, calls, state.trans node.1,
    dataPredecessors.trans node.2.1, dataSuccessors.trans ?_⟩
  rw [node.2.2]

/-!
## Graphs that `addDataPredecessor` builds
-/

section AddDataPredecessor

variable {world : World Env} {action predecessor : ActionId}

theorem addDataPredecessor_known
    (isSuccessor : Successor world.graph predecessor action)
    (isPredecessor :
      predecessor ∈ (world.graph action).dataPredecessors.items) :
    world.addDataPredecessor action predecessor = world := by
  rw [Successor] at isSuccessor
  simp [addDataPredecessor, isSuccessor, isPredecessor]

theorem addDataPredecessor_new
    (pending : (world.graph predecessor).isPending)
    (notSuccessor : ¬ Successor world.graph predecessor action)
    (notPredecessor :
      predecessor ∉ (world.graph action).dataPredecessors.items)
    (different : predecessor ≠ action)
    (other : ActionId) :
    let after := world.addDataPredecessor action predecessor
    (after.graph other).dataPredecessors.items =
        (if other = action then
          (world.graph other).dataPredecessors.items ++ [predecessor]
        else (world.graph other).dataPredecessors.items) ∧
      (after.graph other).dataSuccessors.items =
        (if other = predecessor then
          (world.graph other).dataSuccessors.items ++ [action]
        else (world.graph other).dataSuccessors.items) := by
  rw [Successor] at notSuccessor
  by_cases isAction : other = action
  · subst other
    simp [addDataPredecessor, pending, notPredecessor, notSuccessor, different,
      different.symm, add]
  · by_cases isPredecessor : other = predecessor
    · subst other
      simp [addDataPredecessor, pending, notPredecessor, notSuccessor,
        different, add]
    · simp [addDataPredecessor, pending, notPredecessor, notSuccessor,
        different, isAction, isPredecessor]

variable {graph}

/-- A path through the new dependency passes it once. -/
theorem transGen_addDataPredecessor
    (noPath : ¬ ReflTransGen (Successor world.graph) action predecessor)
    (successor :
      ∀ first second, Successor graph first second →
        Successor world.graph first second ∨
          first = predecessor ∧ second = action)
    {first second : ActionId}
    (path : TransGen (Successor graph) first second) :
    TransGen (Successor world.graph) first second ∨
      ReflTransGen (Successor world.graph) first predecessor ∧
        ReflTransGen (Successor world.graph) action second := by
  induction path with
  | single edge =>
      rcases successor _ _ edge with old | ⟨rfl, rfl⟩
      · exact .inl (.single old)
      · exact .inr ⟨.refl, .refl⟩
  | tail path edge hypothesis =>
      rcases hypothesis with old | ⟨before, after⟩
      · rcases successor _ _ edge with oldEdge | ⟨rfl, rfl⟩
        · exact .inl (old.tail oldEdge)
        · exact .inr ⟨old.to_reflTransGen, .refl⟩
      · rcases successor _ _ edge with oldEdge | ⟨rfl, rfl⟩
        · exact .inr ⟨before, after.tail oldEdge⟩
        · exact absurd after noPath

theorem noPath_of_noSuccessors
    (noSuccessors : (world.graph action).dataSuccessors.items = [])
    (different : predecessor ≠ action) :
    ¬ ReflTransGen (Successor world.graph) action predecessor := by
  rw [reflTransGen_iff_eq]
  · exact different
  · intro other edge
    rw [Successor, noSuccessors] at edge
    exact absurd edge List.not_mem_nil

/-- A dependency that closes no cycle can be added. -/
theorem wellFormed_addDataPredecessor
    {nextId : ActionId}
    (wellFormed : WellFormed world.graph nextId)
    (known : predecessor < nextId)
    (noPath : ¬ ReflTransGen (Successor world.graph) action predecessor) :
    WellFormed (world.addDataPredecessor action predecessor).graph nextId := by
  by_cases pending : (world.graph predecessor).isPending
  case neg => simpa [addDataPredecessor, pending] using wellFormed
  by_cases isSuccessor : Successor world.graph predecessor action
  case pos =>
    rw [addDataPredecessor_known isSuccessor
      ((wellFormed.mirrored predecessor action).mp isSuccessor)]
    exact wellFormed
  have notPredecessor :=
    mt (wellFormed.mirrored predecessor action).mpr isSuccessor
  have different : predecessor ≠ action := by
    rintro rfl
    exact noPath .refl
  have lists :=
    addDataPredecessor_new pending isSuccessor notPredecessor different
  have successorIff (first second : ActionId) :
      Successor (world.addDataPredecessor action predecessor).graph first
          second ↔
        Successor world.graph first second ∨
          first = predecessor ∧ second = action := by
    rw [Successor, (lists first).2]
    by_cases same : first = predecessor
    · simp [Successor, same]
    · simp [Successor, same]
  constructor
  case mirrored =>
    intro first second
    rw [successorIff, (lists second).1, wellFormed.mirrored]
    by_cases same : second = action
    · simp [same]
    · simp [same]
  case successorsOnce =>
    intro other
    rw [(lists other).2]
    split
    · rename_i same
      subst other
      rw [← List.concat_eq_append]
      exact (wellFormed.successorsOnce predecessor).concat isSuccessor
    · exact wellFormed.successorsOnce other
  case predecessorsOnce =>
    intro other
    rw [(lists other).1]
    split
    · rename_i same
      subst other
      rw [← List.concat_eq_append]
      exact (wellFormed.predecessorsOnce action).concat notPredecessor
    · exact wellFormed.predecessorsOnce other
  case known =>
    intro first second edge
    rcases (successorIff first second).mp edge with old | ⟨rfl, rfl⟩
    · exact wellFormed.known first second old
    · exact known
  case acyclic =>
    intro other cycle
    rcases transGen_addDataPredecessor noPath
        (fun first second => (successorIff first second).mp) cycle with
      old | ⟨before, after⟩
    · exact wellFormed.acyclic other old
    · exact noPath (after.trans before)

theorem wellFormed_fresh (nextId : ActionId) (env : Env) :
    WellFormed (fresh nextId env).graph nextId := by
  have noEdge (first second : ActionId) :
      ¬ Successor (fresh nextId env).graph first second :=
    List.not_mem_nil
  constructor
  case mirrored =>
    intro action other
    exact iff_of_false (noEdge action other) List.not_mem_nil
  case successorsOnce =>
    intro action
    exact List.nodup_nil
  case predecessorsOnce =>
    intro action
    exact List.nodup_nil
  case known =>
    intro action other edge
    exact absurd edge (noEdge action other)
  case acyclic =>
    intro action cycle
    rcases head'_iff.mp cycle with ⟨other, edge, _⟩
    exact noEdge action other edge

end AddDataPredecessor

/-!
## Lists of successors are only modified further
-/

section Hooks

variable
  {hooks : ActionHooks Env}
  {depth : Nat}
  {action : ActionId}
  {world : World Env}
  {exception : JavaException}

theorem failedWithin_releaseRaised
    {env : Env}
    (release : hooks.releaseResources action world.env = .raised env exception) :
    failedWithin hooks (depth + 1) action world =
      .raised { world.setState action .FAILED with env := env } exception := by
  rw [failedWithin]
  have called :
      (world.setState action .FAILED).callHook
          (hooks.releaseResources action) =
        .raised { world.setState action .FAILED with env := env }
          exception := by
    change (hooks.releaseResources action world.env).onState _ = _
    rw [release]
    rfl
  rw [called]
  rfl

variable {env cancelled : Env}

theorem failedWithin_cancelRaised
    (release : hooks.releaseResources action world.env = .returned env ())
    (cancel : hooks.cancelAction action env = .raised cancelled exception) :
    failedWithin hooks (depth + 1) action world =
      .raised { world.setState action .FAILED with env := cancelled }
        exception := by
  rw [failedWithin]
  have called :
      (world.setState action .FAILED).callHook
          (hooks.releaseResources action) =
        .returned { world.setState action .FAILED with env := env } () := by
    change (hooks.releaseResources action world.env).onState _ = _
    rw [release]
    rfl
  rw [called, andThen_returned]
  change ((hooks.cancelAction action env).onState _).andThen _ = _
  rw [cancel]
  rfl

theorem failedWithin_hooksReturned
    (release : hooks.releaseResources action world.env = .returned env ())
    (cancel : hooks.cancelAction action env = .returned cancelled ()) :
    failedWithin hooks (depth + 1) action world =
      (forEach
        (fun world => (world.graph action).dataSuccessors)
        (failedWithin hooks depth)
        (world.startFailing action cancelled)).andThen
          (finishFailing hooks action) := by
  rw [failedWithin]
  have called :
      (world.setState action .FAILED).callHook
          (hooks.releaseResources action) =
        .returned { world.setState action .FAILED with env := env } () := by
    change (hooks.releaseResources action world.env).onState _ = _
    rw [release]
    rfl
  rw [called, andThen_returned]
  change ((hooks.cancelAction action env).onState _).andThen _ = _
  rw [cancel]
  rfl

/-- The first two hooks of an action have returned if `failed` returns. -/
theorem hooksReturned_of_returned
    {after : World Env}
    {failed : List ActionId}
    (returned :
      failedWithin hooks depth action world = .returned after failed) :
    ∃ below env cancelled,
      depth = below + 1 ∧
        hooks.releaseResources action world.env = .returned env () ∧
        hooks.cancelAction action env = .returned cancelled () := by
  cases depth with
  | zero => exact absurd returned (by simp [failedWithin])
  | succ below =>
      cases release : hooks.releaseResources action world.env with
      | raised env exception =>
          rw [failedWithin_releaseRaised release] at returned
          exact absurd returned (by simp)
      | returned env value =>
          cases cancel : hooks.cancelAction action env with
          | raised cancelled exception =>
              rw [failedWithin_cancelRaised release cancel] at returned
              exact absurd returned (by simp)
          | returned cancelled value =>
              exact ⟨below, env, cancelled, rfl, rfl, cancel⟩

end Hooks

/-- The list of successors was modified that often, or more often. -/
def Modified (count : Nat) (action : ActionId) (world : World Env) : Prop :=
  count ≤ (world.graph action).dataSuccessors.modCount

section Modified

variable
  {count : Nat} {world : World Env} {other : ActionId}
  (modified : Modified count other world)

include modified

theorem modified_forgetSuccessor
    (action predecessor : ActionId) :
    Modified count other (forgetSuccessor action world predecessor) := by
  rw [Modified, (world.forgetSuccessor_spec action other predecessor).2.2]
  split
  · exact modified.trans (modCount_le_remove _ action)
  · exact modified

theorem modified_ignoreAction
    (action : ActionId) :
    Modified count other (world.ignoreAction action) := by
  unfold ignoreAction
  generalize (world.graph action).dataPredecessors.items = predecessors
  induction predecessors generalizing world with
  | nil => exact modified
  | cons predecessor rest hypothesis =>
      exact hypothesis
        (modified_forgetSuccessor modified action predecessor)

theorem modified_setState
    (action : ActionId)
    (state : ActionState)
    (env : Env) :
    Modified count other { world.setState action state with env := env } := by
  by_cases same : other = action
  · subst other
    simpa [Modified, setState] using modified
  · simpa [Modified, setState, same] using modified

variable (hooks : ActionHooks Env)

theorem modified_finishFailing
    (action : ActionId)
    (failed : List ActionId) :
    Modified count other (finishFailing hooks action world failed).state := by
  have cleared : Modified count other (world.clearDependencies action) := by
    by_cases same : other = action
    · subst other
      simpa [Modified, clearDependencies, clear] using
        Nat.le_succ_of_le modified
    · simpa [Modified, clearDependencies, same] using modified
  apply Outcome.andThen_preserves
  · rw [callHook, state_onState]
    exact cleared
  · intro state value holds
    exact holds

theorem modified_failedWithin
    (depth : Nat)
    (action : ActionId) :
    Modified count other (failedWithin hooks depth action world).state := by
  induction depth generalizing action world with
  | zero => exact modified
  | succ depth hypothesis =>
      have marked := modified_setState modified action .FAILED
      cases release : hooks.releaseResources action world.env with
      | raised env exception =>
          rw [failedWithin_releaseRaised release]
          exact marked env
      | returned env value =>
          cases cancel : hooks.cancelAction action env with
          | raised cancelled exception =>
              rw [failedWithin_cancelRaised release cancel]
              exact marked cancelled
          | returned cancelled value =>
              rw [failedWithin_hooksReturned release cancel]
              apply Outcome.andThen_preserves
              · apply iterate_preserves
                · intro successor state holds
                  exact hypothesis holds successor
                · exact modified_ignoreAction (marked cancelled) action
              · intro state failed holds
                exact modified_finishFailing holds hooks action failed

end Modified

/-- An action that has failed was removed from the lists of its predecessors. -/
theorem modified_of_returned
    {hooks : ActionHooks Env}
    {depth : Nat}
    {action predecessor : ActionId}
    {world after : World Env}
    {failed : List ActionId}
    (once : (world.graph action).dataPredecessors.items.Nodup)
    (isPredecessor :
      predecessor ∈ (world.graph action).dataPredecessors.items)
    (isSuccessor : Successor world.graph predecessor action)
    (returned :
      failedWithin hooks depth action world = .returned after failed) :
    (world.graph predecessor).dataSuccessors.modCount <
      (after.graph predecessor).dataSuccessors.modCount := by
  rcases hooksReturned_of_returned returned with
    ⟨below, env, cancelled, rfl, release, cancel⟩
  rw [failedWithin_hooksReturned release cancel] at returned
  let count := (world.graph predecessor).dataSuccessors.modCount
  have started :
      Modified (count + 1) predecessor
        (world.startFailing action cancelled) := by
    rw [Modified, (startFailing_spec once cancelled predecessor).2.2.2.2.2,
      if_pos isPredecessor]
    exact modCount_lt_remove isSuccessor
  have later :
      Modified (count + 1) predecessor
        (Outcome.returned after failed).state := by
    rw [← returned]
    apply Outcome.andThen_preserves
    · apply iterate_preserves
      · intro successor state holds
        exact modified_failedWithin holds hooks below successor
      · exact started
    · intro state values holds
      exact modified_finishFailing holds hooks action values
  exact later

/-!
## The first successor is followed, the others are not
-/

/-- What is left of the graph before the failure when an action fails. -/
structure Agrees
    (before : ActionId → ActionNode)
    (world : World Env)
    (action : ActionId) : Prop where
  successors :
    ∀ other, ReflTransGen (Successor before) action other →
      (world.graph other).dataSuccessors.items =
        (before other).dataSuccessors.items
  predecessors :
    ∀ other, ReflTransGen (Successor before) action other →
      (world.graph other).dataPredecessors.items =
        (before other).dataPredecessors.items
  fewer :
    ∀ other,
      (world.graph other).dataSuccessors.items.Sublist
        (before other).dataSuccessors.items

/-- The actions of the chain have failed, the others have forgotten them. -/
structure ChainFailed
    (chain : List ActionId)
    (world after : World Env) : Prop where
  calls : after.doFailedCalls = world.doFailedCalls ++ chain.reverse
  state :
    ∀ other,
      (after.graph other).state =
        if other ∈ chain then .FAILED else (world.graph other).state
  predecessors :
    ∀ other,
      (after.graph other).dataPredecessors.items =
        if other ∈ chain then [] else (world.graph other).dataPredecessors.items
  successors :
    ∀ other,
      (after.graph other).dataSuccessors.items =
        if other ∈ chain then []
        else (world.graph other).dataSuccessors.items.filter (· ∉ chain)

theorem Agrees.refl (world : World Env) (action : ActionId) :
    Agrees world.graph world action where
  successors _ _ := rfl
  predecessors _ _ := rfl
  fewer _ := List.Sublist.refl _

section Agreement

variable
  {before : ActionId → ActionNode}
  {nextId : ActionId}
  {hooks : ActionHooks Env}
  {depth : Nat}
  {action : ActionId}
  {world after : World Env}

theorem Agrees.predecessorsOnce
    (wellFormed : WellFormed before nextId)
    (agrees : Agrees before world action) :
    (world.graph action).dataPredecessors.items.Nodup := by
  rw [agrees.predecessors action .refl]
  exact wellFormed.predecessorsOnce action

theorem startFailing_successors
    (wellFormed : WellFormed before nextId)
    (agrees : Agrees before world action)
    (env : Env)
    (other : ActionId) :
    ((world.startFailing action env).graph other).dataSuccessors.items =
      (world.graph other).dataSuccessors.items.filter (· ≠ action) := by
  have once : (world.graph other).dataSuccessors.items.Nodup :=
    (agrees.fewer other).nodup (wellFormed.successorsOnce other)
  rw [(startFailing_spec (agrees.predecessorsOnce wellFormed) env
    other).2.2.2.2.2]
  split
  · rw [items_remove, once.erase_eq_filter]
    exact List.filter_congr fun successor _ => by
      rw [bne, decide_not, beq_eq_decide]
  · rename_i notPredecessor
    rw [agrees.predecessors action .refl] at notPredecessor
    symm
    rw [List.filter_eq_self]
    intro successor member
    have different : successor ≠ action := by
      rintro rfl
      exact notPredecessor ((wellFormed.mirrored other successor).mp
        ((agrees.fewer other).subset member))
    simpa using different

variable {successor : ActionId}

/-- The graph below a successor is still as it was. -/
theorem Agrees.startFailing
    (wellFormed : WellFormed before nextId)
    (agrees : Agrees before world action)
    (env : Env)
    (isSuccessor : Successor before action successor) :
    Agrees before (world.startFailing action env) successor where
  successors other reached := by
    rw [startFailing_successors wellFormed agrees env,
      agrees.successors other (.head isSuccessor reached),
      List.filter_eq_self]
    intro next member
    have different : next ≠ action := by
      rintro rfl
      exact wellFormed.acyclic next
        (.head' isSuccessor (reached.tail member))
    simpa using different
  predecessors other reached := by
    rw [(startFailing_spec (agrees.predecessorsOnce wellFormed) env
      other).2.2.2.2.1]
    exact agrees.predecessors other (.head isSuccessor reached)
  fewer other := by
    rw [startFailing_successors wellFormed agrees env]
    exact List.filter_sublist.trans (agrees.fewer other)

theorem startFailing_successors_self
    (wellFormed : WellFormed before nextId)
    (agrees : Agrees before world action)
    (env : Env) :
    ((world.startFailing action env).graph action).dataSuccessors.items =
      (before action).dataSuccessors.items := by
  rw [startFailing_successors wellFormed agrees env,
    agrees.successors action .refl, List.filter_eq_self]
  intro successor member
  have different : successor ≠ action := by
    rintro rfl
    exact wellFormed.acyclic successor (.single member)
  simpa using different

variable {env cancelled : Env}

theorem failedWithin_last
    (wellFormed : WellFormed before nextId)
    (agrees : Agrees before world action)
    (release : hooks.releaseResources action world.env = .returned env ())
    (cancel : hooks.cancelAction action env = .returned cancelled ())
    (last : (before action).dataSuccessors.items = []) :
    failedWithin hooks (depth + 1) action world =
      finishFailing hooks action (world.startFailing action cancelled) [] := by
  rw [failedWithin_hooksReturned release cancel, forEach_nil]
  · rfl
  · rw [startFailing_successors_self wellFormed agrees cancelled, last]

variable {rest : List ActionId}

/-- After the first successor the iteration ends, one way or the other. -/
theorem failedWithin_next
    (wellFormed : WellFormed before nextId)
    (agrees : Agrees before world action)
    (release : hooks.releaseResources action world.env = .returned env ())
    (cancel : hooks.cancelAction action env = .returned cancelled ())
    (next : (before action).dataSuccessors.items = successor :: rest) :
    failedWithin hooks (depth + 1) action world =
      (failedWithin hooks depth successor
        (world.startFailing action cancelled)).andThen fun after failed =>
          if (after.graph action).dataSuccessors.items.length ≤ 1 then
            finishFailing hooks action after failed
          else
            .raised after .concurrentModification := by
  have isSuccessor : Successor before action successor := by
    rw [Successor, next]
    exact List.mem_cons_self
  have items :
      ((world.startFailing action cancelled).graph action).dataSuccessors.items =
        successor :: rest := by
    rw [startFailing_successors_self wellFormed agrees cancelled, next]
  have startedAgrees := agrees.startFailing wellFormed cancelled isSuccessor
  have iteration :=
    @forEach_modified _ _ _
      (fun world : World Env => (world.graph action).dataSuccessors)
      (failedWithin hooks depth) _ _ _ items ?_
  · rw [failedWithin_hooksReturned release cancel, iteration,
      andThen_assoc]
    congr 1
    funext after failed
    split
    · rfl
    · rfl
  · intro after failed returned
    apply Nat.ne_of_gt
    refine modified_of_returned
      (startedAgrees.predecessorsOnce wellFormed) ?_ ?_ returned
    · rw [startedAgrees.predecessors successor .refl]
      exact (wellFormed.mirrored action successor).mp isSuccessor
    · rw [Successor, items]
      exact List.mem_cons_self

theorem endFailing_spec
    (world : World Env)
    (action : ActionId)
    (env : Env)
    (other : ActionId) :
    let after := world.endFailing action env
    (after.graph other).state = (world.graph other).state ∧
      (after.graph other).dataPredecessors.items =
        (if other = action then []
        else (world.graph other).dataPredecessors.items) ∧
      (after.graph other).dataSuccessors.items =
        (if other = action then []
        else (world.graph other).dataSuccessors.items) := by
  by_cases same : other = action
  · subst other
    simp [endFailing, clearDependencies, clear]
  · simp [endFailing, clearDependencies, same]

variable {chain : List ActionId}

/-- The failure of an action on top of the failure of the chain below it. -/
theorem ChainFailed.cons
    (wellFormed : WellFormed before nextId)
    (agrees : Agrees before world action)
    (chainFailed : ChainFailed chain (world.startFailing action cancelled) after)
    (env : Env) :
    ChainFailed (action :: chain) world (after.endFailing action env) := by
  have started :=
    startFailing_spec (agrees.predecessorsOnce wellFormed) cancelled
  have ended := after.endFailing_spec action env
  constructor
  · change after.doFailedCalls ++ [action] = _
    rw [chainFailed.calls, (started action).2.2.1, List.reverse_cons,
      List.append_assoc]
  · intro other
    rw [(ended other).1, chainFailed.state, (started other).2.2.2.1]
    by_cases same : other = action
    · simp [same]
    · simp [same]
  · intro other
    rw [(ended other).2.1, chainFailed.predecessors,
      (started other).2.2.2.2.1]
    by_cases same : other = action
    · simp [same]
    · simp [same]
  · intro other
    rw [(ended other).2.2, chainFailed.successors,
      startFailing_successors wellFormed agrees, List.filter_filter]
    by_cases same : other = action
    · simp [same]
    · by_cases below : other ∈ chain
      · simp [below]
      · simp only [same, below, List.mem_cons, or_self, if_false, not_or,
          ne_eq, Bool.decide_and, Bool.and_comm]

theorem mem_firstSuccessors
    {other : ActionId}
    (member : other ∈ firstSuccessors before depth action) :
    ReflTransGen (Successor before) action other := by
  induction depth generalizing action with
  | zero => exact absurd member List.not_mem_nil
  | succ depth hypothesis =>
      rw [firstSuccessors] at member
      rcases List.mem_cons.mp member with rfl | below
      · exact .refl
      · cases items : (before action).dataSuccessors.items with
        | nil =>
            rw [items] at below
            exact absurd below List.not_mem_nil
        | cons first rest =>
            rw [items] at below
            refine .head ?_ (hypothesis below)
            rw [Successor, items]
            exact List.mem_cons_self

theorem notMem_firstSuccessors
    (wellFormed : WellFormed before nextId)
    (isSuccessor : Successor before action successor) :
    action ∉ firstSuccessors before depth successor := by
  intro member
  exact wellFormed.acyclic action (.head' isSuccessor (mem_firstSuccessors member))

theorem firstSuccessors_last
    (last : (before action).dataSuccessors.items = []) :
    firstSuccessors before (depth + 1) action = [action] := by
  rw [firstSuccessors, last]

theorem firstSuccessors_next
    (next : (before action).dataSuccessors.items = successor :: rest) :
    firstSuccessors before (depth + 1) action =
      action :: firstSuccessors before depth successor := by
  rw [firstSuccessors, next]

/-- The hooks of an action around those of the chain below it. -/
theorem chainHooks_cons
    {started final : Env} :
    chainHooks hooks (action :: chain) started = .returned final () ↔
      ∃ env cancelled ended,
        hooks.releaseResources action started = .returned env () ∧
          hooks.cancelAction action env = .returned cancelled () ∧
          chainHooks hooks chain cancelled = .returned ended () ∧
          hooks.doFailed action ended = .returned final () := by
  simp only [chainHooks, andThen_eq_returned]
  constructor
  · rintro ⟨env, _, release, cancelled, _, cancel, ended, _, below, doFailed⟩
    exact ⟨env, cancelled, ended, release, cancel, below, doFailed⟩
  · rintro ⟨env, cancelled, ended, release, cancel, below, doFailed⟩
    exact ⟨env, (), release, cancelled, (), cancel, ended, (), below, doFailed⟩

/-- When `failed` returns, it has run through the chain of first successors. -/
theorem chainFailed_of_returned
    {failed : List ActionId}
    (wellFormed : WellFormed before nextId)
    (agrees : Agrees before world action)
    (returned :
      failedWithin hooks depth action world = .returned after failed) :
    ChainFailed (firstSuccessors before depth action) world after ∧
      chainHooks hooks (firstSuccessors before depth action) world.env =
        .returned after.env () := by
  induction depth generalizing action world after failed with
  | zero => exact absurd returned (by simp [failedWithin])
  | succ depth hypothesis =>
      rcases hooksReturned_of_returned returned with
        ⟨_, env, cancelled, -, release, cancel⟩
      cases items : (before action).dataSuccessors.items with
      | nil =>
          rw [failedWithin_last wellFormed agrees release cancel items]
            at returned
          rcases finishFailing_returned.mp returned with
            ⟨ended, doFailed, rfl, -⟩
          have startedEnv :=
            (startFailing_spec (agrees.predecessorsOnce wellFormed) cancelled
              action).2.1
          rw [startedEnv] at doFailed
          rw [firstSuccessors_last items]
          have nothingBelow :
              ChainFailed [] (world.startFailing action cancelled)
                (world.startFailing action cancelled) := by
            constructor <;> simp
          refine ⟨nothingBelow.cons wellFormed agrees ended, ?_⟩
          exact chainHooks_cons.mpr
            ⟨env, cancelled, cancelled, release, cancel, rfl, doFailed⟩
      | cons successor rest =>
          have isSuccessor : Successor before action successor := by
            rw [Successor, items]
            exact List.mem_cons_self
          rw [failedWithin_next wellFormed agrees release cancel items]
            at returned
          rw [firstSuccessors_next items]
          cases below :
              failedWithin hooks depth successor
                (world.startFailing action cancelled) with
          | raised failing exception =>
              rw [below] at returned
              exact absurd returned (by simp)
          | returned failing more =>
              rw [below, andThen_returned] at returned
              split at returned
              · rcases finishFailing_returned.mp returned with
                  ⟨ended, doFailed, rfl, -⟩
                rcases hypothesis
                    (agrees.startFailing wellFormed cancelled isSuccessor)
                    below with
                  ⟨chainFailed, hooksReturned⟩
                refine ⟨chainFailed.cons wellFormed agrees ended, ?_⟩
                have startedEnv :=
                  (startFailing_spec (agrees.predecessorsOnce wellFormed)
                    cancelled action).2.1
                rw [startedEnv] at hooksReturned
                exact chainHooks_cons.mpr
                  ⟨env, cancelled, failing.env, release, cancel, hooksReturned,
                    doFailed⟩
              · exact absurd returned (by simp)

/-- The chain of first successors ends within the depth. -/
def ChainEnds (graph : ActionId → ActionNode) : Nat → ActionId → Prop
  | 0, _ => False
  | depth + 1, action =>
      match (graph action).dataSuccessors.items with
      | [] => True
      | first :: _ => ChainEnds graph depth first

variable (wellFormed : WellFormed before nextId)

include wellFormed

/-- If the hooks return and the chain is all there is, then `failed` returns. -/
theorem returned_of_chain
    (agrees : Agrees before world action)
    (chainEnds : ChainEnds before depth action)
    (onChain :
      ∀ other, TransGen (Successor before) action other →
        other ∈ firstSuccessors before depth action)
    (hooksReturned :
      chainHooks hooks (firstSuccessors before depth action) world.env =
        .returned env ()) :
    ∃ after failed,
      failedWithin hooks depth action world = .returned after failed := by
  induction depth generalizing action world env with
  | zero => exact absurd chainEnds id
  | succ depth hypothesis =>
      cases items : (before action).dataSuccessors.items with
      | nil =>
          rw [firstSuccessors_last items] at hooksReturned
          rcases chainHooks_cons.mp hooksReturned with
            ⟨released, cancelled, ended, release, cancel, below, doFailed⟩
          cases below
          have startedEnv :=
            (startFailing_spec (agrees.predecessorsOnce wellFormed) cancelled
              action).2.1
          rw [failedWithin_last wellFormed agrees release cancel items]
          rw [← startedEnv] at doFailed
          exact ⟨_, _, finishFailing_returned.mpr ⟨env, doFailed, rfl, rfl⟩⟩
      | cons successor rest =>
          have isSuccessor : Successor before action successor := by
            rw [Successor, items]
            exact List.mem_cons_self
          rw [firstSuccessors_next items] at hooksReturned onChain
          rcases chainHooks_cons.mp hooksReturned with
            ⟨released, cancelled, ended, release, cancel, below, doFailed⟩
          have startedEnv :=
            (startFailing_spec (agrees.predecessorsOnce wellFormed) cancelled
              action).2.1
          have startedAgrees :=
            agrees.startFailing wellFormed cancelled isSuccessor
          have chainEndsBelow : ChainEnds before depth successor := by
            rw [ChainEnds, items] at chainEnds
            exact chainEnds
          have onChainBelow :
              ∀ other, TransGen (Successor before) successor other →
                other ∈ firstSuccessors before depth successor := by
            intro other reached
            have path : TransGen (Successor before) action other :=
              .head isSuccessor reached
            rcases List.mem_cons.mp (onChain other path) with rfl | member
            · exact absurd path (wellFormed.acyclic other)
            · exact member
          rw [← startedEnv] at below
          rcases hypothesis startedAgrees chainEndsBelow onChainBelow
              below with
            ⟨after, failed, returned⟩
          rcases chainFailed_of_returned wellFormed startedAgrees returned with
            ⟨chainFailed, afterHooks⟩
          have sameEnv : after.env = ended := by
            rw [below] at afterHooks
            injection afterHooks with envEq
            exact envEq.symm
          have noneLeft : (after.graph action).dataSuccessors.items = [] := by
            rw [chainFailed.successors,
              if_neg (notMem_firstSuccessors wellFormed isSuccessor),
              startFailing_successors_self wellFormed agrees,
              List.filter_eq_nil_iff]
            intro other member
            have reached : TransGen (Successor before) action other :=
              .single member
            rcases List.mem_cons.mp (onChain other reached) with rfl | below
            · exact absurd reached (wellFormed.acyclic other)
            · simpa using below
          rw [failedWithin_next wellFormed agrees release cancel items,
            returned, andThen_returned, noneLeft]
          rw [← sameEnv] at doFailed
          exact ⟨_, _, finishFailing_returned.mpr ⟨env, doFailed, rfl, rfl⟩⟩

/-!
## The chain of first successors
-/

theorem firstSuccessors_nodup
    (depth : Nat)
    (action : ActionId) :
    (firstSuccessors before depth action).Nodup := by
  induction depth generalizing action with
  | zero => exact List.nodup_nil
  | succ depth hypothesis =>
      cases items : (before action).dataSuccessors.items with
      | nil =>
          rw [firstSuccessors_last items]
          exact List.nodup_singleton action
      | cons successor rest =>
          have isSuccessor : Successor before action successor := by
            rw [Successor, items]
            exact List.mem_cons_self
          rw [firstSuccessors_next items]
          exact List.nodup_cons.mpr
            ⟨notMem_firstSuccessors wellFormed isSuccessor,
              hypothesis successor⟩

omit wellFormed in
/-- A chain that does not end within the depth fills it. -/
theorem length_firstSuccessors
    (notEnded : ¬ ChainEnds before depth action) :
    (firstSuccessors before depth action).length = depth ∧
      ∀ other ∈ firstSuccessors before depth action,
        ∃ successor, Successor before other successor := by
  induction depth generalizing action with
  | zero => simp [firstSuccessors]
  | succ depth hypothesis =>
      cases items : (before action).dataSuccessors.items with
      | nil =>
          rw [ChainEnds, items] at notEnded
          exact absurd trivial notEnded
      | cons successor rest =>
          have isSuccessor : Successor before action successor := by
            rw [Successor, items]
            exact List.mem_cons_self
          rw [ChainEnds, items] at notEnded
          rcases hypothesis notEnded with ⟨length, haveSuccessors⟩
          rw [firstSuccessors_next items]
          refine ⟨by rw [List.length_cons, length], ?_⟩
          intro other member
          rcases List.mem_cons.mp member with rfl | below
          · exact ⟨successor, isSuccessor⟩
          · exact haveSuccessors other below

/-- The heap bounds the depth of the recursion. -/
theorem chainEnds_of_wellFormed
    (action : ActionId) :
    ChainEnds before (nextId + 1) action := by
  by_contra notEnded
  rcases length_firstSuccessors notEnded with ⟨length, haveSuccessors⟩
  have known :
      firstSuccessors before (nextId + 1) action ⊆ List.range nextId := by
    intro other member
    rcases haveSuccessors other member with ⟨successor, isSuccessor⟩
    exact List.mem_range.mpr (wellFormed.known other successor isSuccessor)
  have bounded :=
    (List.subperm_of_subset
      (firstSuccessors_nodup wellFormed (nextId + 1) action)
      known).length_le
  rw [length, List.length_range] at bounded
  exact absurd bounded (Nat.not_succ_le_self nextId)

end Agreement

/-!
## Failure propagation
-/

/-- The action and its transitive data successors. -/
def Reached (world : World Env) (action : ActionId) : ActionId → Prop :=
  ReflTransGen (Successor world.graph) action

/-- The action whose failure is asked for and the hooks that will run. -/
def failureChain (world : World Env) (action : ActionId) : List ActionId :=
  firstSuccessors world.graph (world.nextId + 1) action

open Classical in
/-- `failed` fails the action, its transitive successors and nothing else. -/
structure FailurePropagated
    (world : World Env)
    (action : ActionId)
    (after : World Env) : Prop where
  failedStates :
    ∀ other, world.Reached action other → (after.graph other).state = .FAILED
  otherStates :
    ∀ other, ¬ world.Reached action other →
      (after.graph other).state = (world.graph other).state
  doFailedOnce :
    ∀ other, world.Reached action other →
      after.doFailedCalls.count other = world.doFailedCalls.count other + 1
  doFailedNotElsewhere :
    ∀ other, ¬ world.Reached action other →
      after.doFailedCalls.count other = world.doFailedCalls.count other
  forgotten :
    ∀ other, world.Reached action other →
      ∀ predecessor, ¬ Successor after.graph predecessor other
  otherPredecessors :
    ∀ other, ¬ world.Reached action other →
      (after.graph other).dataPredecessors.items =
        (world.graph other).dataPredecessors.items
  otherSuccessors :
    ∀ other, ¬ world.Reached action other →
      (after.graph other).dataSuccessors.items =
        (world.graph other).dataSuccessors.items.filter
          (¬ world.Reached action ·)

def PropagatesFailure
    (hooks : ActionHooks Env)
    (world : World Env)
    (action : ActionId) : Prop :=
  ∃ after failed,
    world.failed hooks action = .returned after failed ∧
      FailurePropagated world action after

/-- No action below the failing one has a second way to be reached. -/
def OnlyChainBelow (world : World Env) (action : ActionId) : Prop :=
  ∀ other, TransGen (Successor world.graph) action other →
    other ∈ world.failureChain action

/-- None of the hooks along the chain of first successors throws. -/
def ChainHooksReturn
    (hooks : ActionHooks Env)
    (world : World Env)
    (action : ActionId) : Prop :=
  ∃ env, chainHooks hooks (world.failureChain action) world.env =
    .returned env ()

section Propagation

variable
  {hooks : ActionHooks Env}
  {world after : World Env}
  {action : ActionId}

theorem OnlyChainBelow.mem_failureChain_iff
    (onlyChain : world.OnlyChainBelow action)
    (other : ActionId) :
    other ∈ world.failureChain action ↔ world.Reached action other := by
  constructor
  · exact mem_firstSuccessors
  · intro reached
    rcases reflTransGen_iff_eq_or_transGen.mp reached with rfl | path
    · exact List.mem_cons_self
    · exact onlyChain other path

theorem FailurePropagated.of_chainFailed
    (wellFormed : WellFormed world.graph world.nextId)
    (onlyChain : world.OnlyChainBelow action)
    (chainFailed : ChainFailed (world.failureChain action) world after) :
    FailurePropagated world action after := by
  have onChain := onlyChain.mem_failureChain_iff
  have once : (world.failureChain action).Nodup :=
    firstSuccessors_nodup wellFormed _ action
  constructor
  case failedStates =>
    intro other reached
    rw [chainFailed.state, if_pos ((onChain other).mpr reached)]
  case otherStates =>
    intro other notReached
    rw [chainFailed.state, if_neg (mt (onChain other).mp notReached)]
  case doFailedOnce =>
    intro other reached
    rw [chainFailed.calls, List.count_append, List.count_reverse,
      List.count_eq_one_of_mem once ((onChain other).mpr reached)]
  case doFailedNotElsewhere =>
    intro other notReached
    rw [chainFailed.calls, List.count_append, List.count_reverse,
      List.count_eq_zero_of_not_mem (mt (onChain other).mp notReached),
      Nat.add_zero]
  case forgotten =>
    intro other reached predecessor isSuccessor
    rw [Successor, chainFailed.successors] at isSuccessor
    split at isSuccessor
    · exact absurd isSuccessor List.not_mem_nil
    · have notOnChain := (List.mem_filter.mp isSuccessor).2
      simp only [decide_eq_true_eq] at notOnChain
      exact notOnChain ((onChain other).mpr reached)
  case otherPredecessors =>
    intro other notReached
    rw [chainFailed.predecessors, if_neg (mt (onChain other).mp notReached)]
  case otherSuccessors =>
    intro other notReached
    rw [chainFailed.successors, if_neg (mt (onChain other).mp notReached)]
    apply List.filter_congr
    intro successor _
    rw [decide_eq_decide, onChain successor]

/-- Where every action has one successor at most there is but the chain. -/
theorem onlyChainBelow_of_singleSuccessors
    (wellFormed : WellFormed world.graph world.nextId)
    (single :
      ∀ other, (world.graph other).dataSuccessors.items.length ≤ 1) :
    world.OnlyChainBelow action := by
  have chainEnds := chainEnds_of_wellFormed wellFormed action
  unfold OnlyChainBelow failureChain
  generalize world.nextId + 1 = depth at chainEnds ⊢
  induction depth generalizing action with
  | zero => exact absurd chainEnds id
  | succ depth hypothesis =>
      intro other path
      rcases head'_iff.mp path with ⟨next, edge, below⟩
      cases items : (world.graph action).dataSuccessors.items with
      | nil =>
          rw [Successor, items] at edge
          exact absurd edge List.not_mem_nil
      | cons successor rest =>
          have noRest : rest = [] := by
            have length := single action
            rw [items, List.length_cons] at length
            exact List.eq_nil_of_length_eq_zero
              (Nat.le_zero.mp (Nat.le_of_succ_le_succ length))
          rw [Successor, items, noRest, List.mem_singleton] at edge
          subst edge
          rw [ChainEnds, items] at chainEnds
          rw [firstSuccessors_next items, List.mem_cons]
          right
          rcases reflTransGen_iff_eq_or_transGen.mp below with rfl | pathBelow
          · cases depth with
            | zero => exact absurd chainEnds id
            | succ depth => exact List.mem_cons_self
          · exact hypothesis chainEnds other pathBelow

/-- Hooks that do nothing and return. -/
def quietHooks : ActionHooks Unit where
  releaseResources _ _ := .returned () ()
  cancelAction _ _ := .returned () ()
  doFailed _ _ := .returned () ()

theorem chainHooks_quietHooks (chain : List ActionId) :
    chainHooks quietHooks chain () = .returned () () := by
  induction chain with
  | nil => rfl
  | cons action rest hypothesis =>
      exact chainHooks_cons.mpr
        ⟨(), (), (), rfl, rfl, hypothesis, rfl⟩

def singleSuccessor : World Unit :=
  (fresh 2 ()).addDataPredecessor 1 0

theorem wellFormed_singleSuccessor :
    WellFormed singleSuccessor.graph singleSuccessor.nextId :=
  wellFormed_addDataPredecessor (wellFormed_fresh 2 ()) Nat.zero_lt_two
    (noPath_of_noSuccessors rfl Nat.zero_ne_one)

/--
A failure is propagated when the successors form a single chain and no hook
throws, and in no other case.
-/
theorem propagatesFailure_iff
    (wellFormed : WellFormed world.graph world.nextId) :
    PropagatesFailure hooks world action ↔
      world.OnlyChainBelow action ∧ ChainHooksReturn hooks world action := by
  constructor
  · rintro ⟨after, failed, returned, propagated⟩
    rcases chainFailed_of_returned wellFormed (Agrees.refl world action)
        returned with
      ⟨chainFailed, hooksReturned⟩
    refine ⟨?_, after.env, hooksReturned⟩
    intro other path
    have calls := propagated.doFailedOnce other path.to_reflTransGen
    rw [chainFailed.calls, List.count_append, List.count_reverse] at calls
    have counted :
        0 < (world.failureChain action).count other := by
      have added := Nat.add_left_cancel calls
      exact added ▸ Nat.one_pos
    exact List.count_pos_iff.mp counted
  · rintro ⟨onlyChain, env, hooksReturned⟩
    rcases returned_of_chain wellFormed (Agrees.refl world action)
        (chainEnds_of_wellFormed wellFormed action) onlyChain
        hooksReturned with
      ⟨after, failed, returned⟩
    have chainFailed :=
      (chainFailed_of_returned wellFormed (Agrees.refl world action)
        returned).1
    exact ⟨after, failed, returned,
      .of_chainFailed wellFormed onlyChain chainFailed⟩

theorem propagatesFailure_singleSuccessor :
    PropagatesFailure quietHooks singleSuccessor 0 := by
  refine (propagatesFailure_iff wellFormed_singleSuccessor).mpr
    ⟨onlyChainBelow_of_singleSuccessors wellFormed_singleSuccessor ?_,
      (), chainHooks_quietHooks _⟩
  intro other
  by_cases isFirst : other = 0
  · subst other
    decide
  · have noSuccessors :
        (singleSuccessor.graph other).dataSuccessors.items = [] := by
      by_cases isSecond : other = 1
      · subst other
        decide
      · simp [singleSuccessor, addDataPredecessor, fresh, modify,
          isPending, new, empty, isFirst,
          isSecond]
    rw [noSuccessors]
    exact Nat.zero_le 1

/-- Two actions that depend on the first one. -/
def twoSuccessors : World Unit :=
  ((fresh 3 ()).addDataPredecessor 1 0).addDataPredecessor 2 0

/-- The second successor of an action that fails is forgotten. -/
theorem not_propagatesFailure_twoSuccessors :
    WellFormed twoSuccessors.graph twoSuccessors.nextId ∧
      ¬ PropagatesFailure quietHooks twoSuccessors 0 := by
  constructor
  · refine wellFormed_addDataPredecessor
      (wellFormed_addDataPredecessor (wellFormed_fresh 3 ()) (by decide)
        (noPath_of_noSuccessors rfl (by decide)))
      (by decide) (noPath_of_noSuccessors (by decide) (by decide))
  · rintro ⟨after, failed, returned, propagated⟩
    have reached : twoSuccessors.Reached 0 2 :=
      .single (by unfold Successor; decide)
    have failedState := propagated.failedStates 2 reached
    have result : (twoSuccessors.failed quietHooks 0).state = after := by
      rw [returned]
      rfl
    rw [← result] at failedState
    exact absurd failedState (by decide)

end Propagation

end World

end DistributedRdf.Scheduling
