import DistributedRdf.ReadyCounters

namespace DistributedRdf.Scheduling

open Java Execution List Outcome SchedulerEnv

/-!
# What the operations do to the counters

An action is counted when it depends on nothing more, and it is not counted any
more when it is blocked or ends.  The actions that are about to be admitted again
have left the blocked ones, and they are not counted yet.
-/

/-- The action has a core, and no worker is left to schedule it on. -/
def SchedulerEnv.LacksWorkers (env : SchedulerEnv) (action : ActionId) : Prop :=
  (∃ coreId, env.firstImplementation action = .ofCore coreId) ∧
    ∃ workers, env.candidates action = .ok workers ∧
      env.usefulResources action workers = []

namespace World

variable
  {kind : SchedulerKind}
  {scores : Scores}
  {world after : SchedulerWorld}
  {action : ActionId}
  {absent rest : List ActionId}

/-- Placing the action comes to a `BlockedActionException`. -/
def BlockedByPlacing
    (kind : SchedulerKind)
    (world : SchedulerWorld)
    (action : ActionId) : Prop :=
  (kind ≠ .base → (world.graph action).dataPredecessors.items = []) ∧
    world.env.LacksWorkers action

/-! ## How a placement ends -/

theorem not_lacksWorkers_of_candidate
    {workers : List WorkerId}
    {worker : WorkerId}
    (known : world.env.candidates action = .ok workers)
    (useful : worker ∈ world.env.usefulResources action workers) :
    ¬ world.env.LacksWorkers action := by
  rintro ⟨-, others, alsoKnown, none⟩
  rw [known, Except.ok.injEq] at alsoKnown
  subst alsoKnown
  rw [none] at useful
  exact absurd useful not_mem_nil

theorem not_lacksWorkers_of_unassignable
    (unassignable : world.env.Unassignable kind scores action) :
    ¬ world.env.LacksWorkers action := by
  rcases unassignable with ⟨_, workers, _, known, isUseful, _⟩
  rcases exists_mem_of_ne_nil _ isUseful with ⟨worker, useful⟩
  exact not_lacksWorkers_of_candidate known useful

variable (world)

/-- The action is blocked, or nothing happens that the counters are about. -/
theorem place_cases (action : ActionId) :
    (BlockedByPlacing kind world action ∧
      world.place kind scores action = world.block action) ∨
    (¬ BlockedByPlacing kind world action ∧
      Unaffected world (world.place kind scores action).state) := by
  have placed := @place_placed kind scores world action
  have launched (between : SchedulerWorld) :
      Unaffected between (between.tryToLaunch kind scores action).state :=
    (Changes.changedOnly (tryToLaunch_changes between action)).unaffected
  generalize World.place kind scores world action = outcome at placed ⊢
  cases placed with
  | undecided error free =>
      refine .inr ⟨?_, .refl world⟩
      rintro ⟨-, -, workers, known, -⟩
      exact absurd (known.symm.trans error) (by simp)
  | depending isReady depends =>
      refine .inr ⟨fun blocked => depends (blocked.1 isReady), ?_⟩
      rw [callHook, state_onState, addToDepending,
        state_onState]
      exact .withEnv (fun _ => rfl) rfl rfl
  | blocked noneUseful isExecution free =>
      exact .inl ⟨⟨free, isExecution, noneUseful⟩, rfl⟩
  | lost isBase unassignable =>
      exact .inr ⟨fun blocked =>
        not_lacksWorkers_of_unassignable unassignable blocked.2, launched world⟩
  | unassigned isReady free unassignable =>
      refine .inr ⟨fun blocked =>
        not_lacksWorkers_of_unassignable unassignable blocked.2, ?_⟩
      have filed :
          Unaffected world
            (world.callHook (·.addToUnassigned action)).state := by
        rw [callHook, state_onState, addToUnassigned,
          state_onState]
        exact .withEnv (fun _ => rfl) rfl rfl
      refine andThen_preserves filed ?_
      exact fun between _ unaffected => unaffected.trans (launched between)
  | assigned assignment fresh candidate free =>
      have assigned :=
        (Changes.changedOnly
          (@changes_assign scores _ _ _ fresh)).unaffected
      refine .inr ⟨?_, assigned.trans (launched _)⟩
      rintro ⟨-, lacks⟩
      rcases lacks.1 with ⟨coreId, ofCore⟩
      rcases candidate coreId ofCore with
        ⟨workers, known, isCandidate, _, _, notExecuted, _⟩
      have useful :
          assignment.resource ∈ world.env.usefulResources action workers :=
        mem_filter.mpr ⟨isCandidate, by simpa using notExecuted⟩
      exact not_lacksWorkers_of_candidate known useful lacks

/-! ## The account of the counters -/

/--
The counters account for the actions, and those that are left out so far are
neither blocked nor left out twice.
-/
structure Counted (absent : List ActionId) : Prop where
  balanced : Balanced world absent
  once : (absent ++ world.env.blockedActions.getAllActions).Nodup

variable {world}

theorem Counted.unaffected
    (counted : Counted world absent)
    (unaffected : Unaffected world after) :
    Counted after absent where
  balanced :=
    counted.balanced.transfer unaffected.nextId unaffected.kinds
      unaffected.readyCounts fun other => by rw [unaffected.isCounted]
  once := by
    rw [unaffected.blocked]
    exact counted.once

theorem Counted.drop
    (counted : Counted world (absent ++ rest))
    (notCounted : ∀ other ∈ absent, ¬ world.IsCounted other) :
    Counted world rest where
  balanced := counted.balanced.drop notCounted
  once := by
    have once := counted.once
    rw [append_assoc] at once
    exact once.of_append_right

variable
  {counts : List Int}
  {set : ActionSet}

/-- An action that comes to the blocked ones is not counted any more. -/
theorem isCounted_blocked
    (added :
      set.getAllActions.Perm
        (action :: world.env.blockedActions.getAllActions))
    (other : ActionId) :
    World.IsCounted
        { world with
          env := { world.env with
            readyCounts := counts
            blockedActions := set } } other ↔
      other ≠ action ∧ world.IsCounted other := by
  rw [IsCounted, IsCounted]
  simp only [added.mem_iff, mem_cons]
  tauto

theorem nodup_blocked
    (added :
      set.getAllActions.Perm
        (action :: world.env.blockedActions.getAllActions))
    (once :
      (action :: absent ++ world.env.blockedActions.getAllActions).Nodup) :
    (absent ++ set.getAllActions).Nodup :=
  ((added.append_left absent).trans perm_middle).nodup_iff.mpr once

/-- A counted action is blocked. -/
theorem Counted.block
    (counted : Counted world absent)
    (consistent : Consistent world)
    (known : action < world.nextId)
    (ofCore : ∃ coreId, world.env.firstImplementation action = .ofCore coreId)
    (isCounted : world.IsCounted action)
    (notAbsent : action ∉ absent) :
    Counted (world.block action).state absent := by
  rcases consistent.block_eq known ofCore with
    ⟨counts, set, recounted, added, blocked⟩
  have removed :=
    counted.balanced.removeFromReady known isCounted notAbsent recounted
  rw [blocked]
  refine ⟨removed.transfer rfl (fun _ => rfl) rfl fun other => ?_,
    nodup_blocked added ?_⟩
  · rw [state_returned, isCounted_blocked added, mem_cons]
    change _ ↔ world.IsCounted other ∧ _
    tauto
  · rw [cons_append, nodup_cons, mem_append]
    exact ⟨fun isIn => isIn.elim notAbsent isCounted.2.1, counted.once⟩

theorem Counted.place
    (counted : Counted world absent)
    (consistent : Consistent world)
    (known : action < world.nextId)
    (matched :
      BlockedByPlacing kind world action →
        world.IsCounted action ∧ action ∉ absent) :
    Counted (world.place kind scores action).state absent := by
  rcases @place_cases kind scores world action with
    ⟨blocks, blocked⟩ | ⟨_, unaffected⟩
  · rw [blocked]
    exact counted.block consistent known blocks.2.1 (matched blocks).1
      (matched blocks).2
  · exact counted.unaffected unaffected

/-! ## Actions that come to the dispatcher -/

/-- An action is counted and blocked at once. -/
theorem Counted.readmitBlocked
    (counted : Counted world (action :: rest))
    (consistent : Consistent world)
    (known : action < world.nextId)
    (ofCore : ∃ coreId, world.env.firstImplementation action = .ofCore coreId)
    (recounted : world.env.Recounted action 1 counts) :
    Counted ((world.recount counts).block action).state rest := by
  rcases (consistent.recount recounted.length).block_eq known ofCore with
    ⟨countsAfter, set, recountedAgain, added, blocked⟩
  have sameCounts : countsAfter = world.env.readyCounts := by
    apply ext_getElem?
    intro coreId
    have again := recountedAgain.entry coreId
    change _ = counts[coreId]?.map _ at again
    rw [again, recounted.entry coreId, Option.map_map]
    have unchanged :
        ((fun count : Int =>
            if (world.recount counts).env.firstImplementation action =
              .ofCore coreId then count + -1 else count) ∘
          fun count : Int =>
            if world.env.firstImplementation action = .ofCore coreId then
              count + 1 else count) = id := by
      funext count
      change (if world.env.firstImplementation action = .ofCore coreId then _
        else _) = count
      dsimp only
      split
      · ring
      · rfl
    rw [unchanged, Option.map_id, id]
  rw [blocked, sameCounts]
  refine ⟨counted.balanced.transfer rfl (fun _ => rfl) rfl fun other => ?_,
    nodup_blocked added counted.once⟩
  rw [state_returned, isCounted_blocked added, mem_cons]
  change (other ≠ action ∧ world.IsCounted other) ∧ _ ↔ _
  tauto

/--
An action that was left out is counted and placed, or it is not to be counted
and it is blocked again.
-/
theorem Counted.newAllocatableAction
    (counted : Counted world (action :: rest))
    (consistent : Consistent world)
    (known : action < world.nextId)
    (matched :
      if (world.graph action).dataPredecessors.items = [] then
        world.IsCounted action ∨ BlockedByPlacing kind world action
      else ¬ BlockedByPlacing kind world action) :
    Counted (world.newAllocatableAction kind scores action).state rest := by
  have notInRest : action ∉ rest := by
    have once := counted.once
    rw [cons_append, nodup_cons, mem_append] at once
    exact fun member => once.1 (.inl member)
  by_cases free : (world.graph action).dataPredecessors.items = []
  · rw [if_pos free] at matched
    have hasNone : ¬ (world.graph action).hasDataPredecessors := by
      rw [hasDataPredecessors_iff, free]
      exact not_not.mpr rfl
    rcases consistent.changeReadyCount_eq known 1 with
      ⟨counts, recounted, called⟩
    unfold World.newAllocatableAction
    rw [if_neg hasNone, show
      world.callHook (·.addToReady action) = .returned (world.recount counts) ()
      from called, andThen_returned]
    by_cases isCounted : world.IsCounted action
    · have added : Counted (world.recount counts) rest :=
        ⟨counted.balanced.addToReady known isCounted notInRest recounted,
          (nodup_cons.mp counted.once).2⟩
      exact added.place (consistent.recount recounted.length) known
        fun _ => ⟨isCounted, notInRest⟩
    · have blocks := matched.resolve_left isCounted
      rcases @place_cases kind scores (world.recount counts) action with
        ⟨_, blocked⟩ | ⟨notBlocked, _⟩
      · rw [blocked]
        exact counted.readmitBlocked consistent known blocks.2.1 recounted
      · exact absurd blocks notBlocked
  · rw [if_neg free] at matched
    unfold World.newAllocatableAction
    rw [if_pos (hasDataPredecessors_iff.mpr free), andThen_returned]
    have notCounted : ∀ other ∈ [action], ¬ world.IsCounted other := by
      intro other isAction isCounted
      rw [mem_singleton.mp isAction] at isCounted
      exact free isCounted.1
    have dropped : Counted world rest :=
      @Counted.drop world [action] rest counted notCounted
    exact dropped.place consistent known fun blocks => absurd blocks matched

/-- A new action is not counted yet. -/
theorem Counted.created
    {actionKind : ActionKind}
    {dataPredecessors : List ActionId}
    (counted : Counted world [])
    (consistent : Consistent world)
    (created : Created world actionKind dataPredecessors after) :
    Counted after [world.nextId] where
  balanced := by
    intro coreId count entry
    rw [created.env] at entry
    rw [counted.balanced coreId count entry, total, total, created.nextId,
      Finset.sum_range_succ]
    have newContribution :
        after.contribution [world.nextId] world.nextId = 0 := by
      simp [contribution]
    rw [newContribution, ite_self, add_zero]
    refine Finset.sum_congr rfl fun other member => ?_
    have different : other ≠ world.nextId :=
      Nat.ne_of_lt (Finset.mem_range.mp member)
    have sameCore :
        after.env.firstImplementation other =
          world.env.firstImplementation other := by
      apply firstImplementation_of_kind
      rw [created.env, modifyAction_of_ne different]
    have same : after.IsCounted other ↔ world.IsCounted other := by
      rw [IsCounted, IsCounted, created.predecessors other different,
        created.state, created.env]
      rfl
    rw [sameCore, contribution, contribution]
    simp only [same, mem_singleton, different, not_mem_nil]
  once := by
    rw [created.env]
    refine nodup_cons.mpr ⟨fun blocked => ?_, counted.once⟩
    exact absurd (consistent.blockedKnown world.nextId blocked)
      (Nat.lt_irrefl _)

/-! ## The successors of a finished action -/

/-- The successors that are freed become ready and are counted. -/
theorem Counted.settled
    {counts : List Int}
    (counted : Counted world [])
    (consistent : Consistent world)
    (settled : Settled world action after)
    (areReady :
      ∀ aa ∈ world.freedBy action,
        (world.graph aa).state ≠ .FAILED ∧
          aa ∉ world.env.blockedActions.getAllActions)
    (recounted : after.env.RecountedBy (world.freedBy action) counts) :
    Counted (after.recount counts) [] := by
  have isSuccessor (aa : ActionId) (isFreed : aa ∈ world.freedBy action) :
      aa ∈ (world.graph action).dataSuccessors.items :=
    (mem_filter.mp isFreed).1
  have depends (aa : ActionId)
      (member : aa ∈ (world.graph action).dataSuccessors.items) :
      (world.graph aa).dataPredecessors.items ≠ [] :=
    ne_nil_of_mem (consistent.mirrored action aa member)
  have isCounted : ∀ aa ∈ world.freedBy action, after.IsCounted aa := by
    intro aa isFreed
    have runnable :=
      (consistent.dependent aa (depends aa (isSuccessor aa isFreed))).resolve_right
        (areReady aa isFreed).1
    refine ⟨?_, ?_, ?_, ?_⟩
    · rw [settled.predecessors, if_pos (isSuccessor aa isFreed)]
      simpa using (mem_filter.mp isFreed).2
    · rw [settled.env]
      exact (areReady aa isFreed).2
    · simp [settled.state, runnable]
    · simp [settled.state, runnable]
  have once : (world.freedBy action ++ []).Nodup := by
    rw [append_nil]
    exact (consistent.successorsOnce action).filter _
  have known : ∀ aa ∈ world.freedBy action, aa < after.nextId := by
    intro aa isFreed
    rw [settled.nextId]
    exact consistent.known_of_dependent (depends aa (isSuccessor aa isFreed))
  have leftOut : Balanced after (world.freedBy action ++ []) := by
    refine counted.balanced.transfer settled.nextId
      (fun _ => by rw [settled.env]) (by rw [settled.env]) fun other => ?_
    have predecessors := settled.predecessors other
    rw [append_nil]
    by_cases isOne : other ∈ (world.graph action).dataSuccessors.items
    · have notBefore : ¬ world.IsCounted other :=
        fun isCounted => depends other isOne isCounted.1
      rw [if_pos isOne] at predecessors
      have freedOrNot :
          after.IsCounted other → other ∈ world.freedBy action := by
        intro isCounted
        refine mem_filter.mpr ⟨isOne, ?_⟩
        simpa using predecessors.symm.trans isCounted.1
      tauto
    · have notFreed : other ∉ world.freedBy action :=
        fun isFreed => isOne (isSuccessor other isFreed)
      rw [if_neg isOne] at predecessors
      have same : after.IsCounted other ↔ world.IsCounted other := by
        rw [IsCounted, IsCounted, predecessors, settled.state, settled.env]
      simp only [same, notFreed, not_mem_nil]
  refine ⟨leftOut.addAllToReady known isCounted once recounted, ?_⟩
  change List.Nodup ([] ++ after.env.blockedActions.getAllActions)
  rw [settled.env]
  exact counted.once

end World

end DistributedRdf.Scheduling
