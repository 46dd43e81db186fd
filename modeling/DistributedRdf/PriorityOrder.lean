import DistributedRdf.FallibleSteps
import DistributedRdf.PriorityActionSet

namespace DistributedRdf.Scheduling.PriorityActionSet

open Java PriorityQueue List PriorityQueue.IsNext List.Subset

/-!
# What a set of actions serves next

As long as the queue of the first actions is up to date, its head is the action
to serve next, or it is one that need not be rescheduled and can be dropped.
-/

variable
  {Action : Type}
  {comparator : Action → Action → Int}
  {implementation : PriorityQueue.Implementation Action comparator}
  {getCoreId : Action → Option Nat}
  {isToReschedule : Action → Bool}
  {set after : PriorityActionSet Action comparator}

/-- The priority queue holds the first action of each queue. -/
def UpToDate (set : PriorityActionSet Action comparator) : Prop :=
  set.priority.elements.Perm set.firsts

/-- The actions that can still be served -/
def waiting
    (isToReschedule : Action → Bool)
    (set : PriorityActionSet Action comparator) : List Action :=
  set.actions.filter isToReschedule

theorem upToDate_rebuildPriorityQueue :
    (set.rebuildPriorityQueue implementation).UpToDate :=
  ofList_perm implementation set.firsts

section Head

variable {first : Action}

/-- The head of the priority queue is the first action of its core. -/
theorem UpToDate.queue_of_head
    (upToDate : set.UpToDate)
    (filed : set.Filed getCoreId)
    (isHead : set.priority.peek = some first) :
    ∃ queue, set.queues[position (getCoreId first)]? = some queue ∧
      queue.peek = some first := by
  have isFirst : first ∈ set.firsts :=
    upToDate.mem_iff.mp (mem_of_peek isHead)
  obtain ⟨queue, isQueue, inFront⟩ := mem_firsts.mp isFirst
  obtain ⟨place, atPlace⟩ := mem_iff_getElem?.mp isQueue
  have here :=
    filed place queue atPlace first (mem_of_peek inFront)
  exact ⟨queue, here ▸ atPlace, inFront⟩

theorem UpToDate.least
    (transitive : ∀ one two three,
      comparator one two ≤ 0 → comparator two three ≤ 0 →
        comparator one three ≤ 0)
    (upToDate : set.UpToDate)
    (isHead : set.priority.peek = some first)
    {action : Action}
    (isAction : action ∈ set.actions) :
    comparator first action ≤ 0 := by
  obtain ⟨queue, isQueue, inQueue⟩ := mem_actions.mp isAction
  cases inFront : queue.peek with
  | none =>
      rw [elements_eq_nil_of_peek inFront] at inQueue
      simp at inQueue
  | some other =>
      have isFirst : other ∈ set.firsts :=
        mem_firsts.mpr ⟨queue, isQueue, inFront⟩
      have beforeOther : comparator first other ≤ 0 :=
        peek_least isHead (upToDate.mem_iff.mpr isFirst)
      exact transitive first other action beforeOther
        (peek_least inFront inQueue)

theorem UpToDate.actions_eq_nil
    (upToDate : set.UpToDate)
    (noHead : set.priority.peek = none) :
    set.actions = [] := by
  have noFirsts : set.firsts = [] := by
    have none := upToDate
    rw [UpToDate, elements_eq_nil_of_peek noHead] at none
    exact none.nil_eq.symm
  refine flatMap_eq_nil_iff.mpr ?_
  intro queue isQueue
  refine elements_eq_nil_of_peek ?_
  exact filterMap_eq_nil_iff.mp noFirsts queue isQueue

/-- What is left of the actions when the first one of a queue is polled -/
theorem actions_poll_perm
    {coreId : Option Nat}
    {queue : PriorityQueue Action comparator}
    (isQueue : set.queues[position coreId]? = some queue)
    (inFront : queue.peek = some first) :
    (first ::
        (set.modifyQueue (·.poll implementation) coreId).actions).Perm
      set.actions := by
  have polled := actions_perm
    (@getElem?_modifyQueue _ _ _ _ (·.poll implementation) _ isQueue)
  rw [others_modifyQueue] at polled
  calc
    List.Perm _
        (first :: (queue.poll implementation).elements ++
          (set.others coreId).flatMap elements) :=
      polled.cons first
    List.Perm _
        (queue.elements ++
          (set.others coreId).flatMap elements) :=
      (PriorityQueue.cons_poll_perm inFront).append_right _
    List.Perm _ set.actions := (actions_perm isQueue).symm

end Head

/-!
## One round of a loop
-/

section Rounds

variable
  {first : Action}
  {coreId : Option Nat}

theorem pollPriority_eq_ok
    (returned :
      set.pollPriority implementation getCoreId first = .ok after) :
    let polled :=
      set.modifyQueue (·.poll implementation) (getCoreId first)
    after.queues = polled.queues ∧
      after.priority.elements.Perm
        ((polled.peekOf (getCoreId first)).toList ++
          (set.priority.poll implementation).elements) := by
  obtain ⟨polled, isPolled, same⟩ := bind_eq_ok.mp returned
  obtain ⟨-, rfl⟩ := changeQueue_eq_ok.mp isPolled
  cases same
  refine ⟨rfl, ?_⟩
  dsimp only
  split
  case h_1 noNext =>
    rw [noNext]
    exact List.Perm.refl _
  case h_2 nextPeek isNext =>
    rw [isNext]
    exact offer_perm _ implementation nextPeek

theorem exists_pollPriority
    (known : set.hasQueue (getCoreId first) = true) :
    ∃ after, set.pollPriority implementation getCoreId first = .ok after := by
  have isPolled := (@changeQueue_eq_ok _ _ set _
    (·.poll implementation) (getCoreId first)).mpr ⟨known, rfl⟩
  exact ⟨_, bind_eq_ok.mpr ⟨_, isPolled, rfl⟩⟩

theorem Filed.pollPriority
    (filed : set.Filed getCoreId)
    (returned :
      set.pollPriority implementation getCoreId first = .ok after) :
    after.Filed getCoreId :=
  (filed.modifyQueue_of_subset fun _ _ remains =>
      mem_of_mem_poll remains).of_queues_eq
    (pollPriority_eq_ok returned).1

/-- The first action leaves its two queues, and the next one follows. -/
theorem UpToDate.pollPriority
    (upToDate : set.UpToDate)
    (filed : set.Filed getCoreId)
    (isHead : set.priority.peek = some first)
    (returned :
      set.pollPriority implementation getCoreId first = .ok after) :
    after.UpToDate := by
  obtain ⟨sameQueues, samePriority⟩ := pollPriority_eq_ok returned
  obtain ⟨queue, isQueue, inFront⟩ := upToDate.queue_of_head filed isHead
  have isPolled :=
    @getElem?_modifyQueue _ _ _ _ (·.poll implementation) _ isQueue
  have afterFirsts := firsts_perm isPolled
  rw [others_modifyQueue] at afterFirsts
  have remaining :
      (first :: (set.priority.poll implementation).elements).Perm
        (first :: (set.others (getCoreId first)).filterMap
          PriorityQueue.peek) := by
    have beforeFirsts := firsts_perm isQueue
    rw [inFront] at beforeFirsts
    exact ((PriorityQueue.cons_poll_perm isHead).trans upToDate).trans
      beforeFirsts
  rw [peekOf_eq isPolled] at samePriority
  rw [UpToDate, firsts, sameQueues]
  calc
    List.Perm _ _ := samePriority
    List.Perm _ _ := remaining.cons_inv.append_left _
    List.Perm _ _ := afterFirsts.symm

theorem removeFirst_eq_ok :
    set.removeFirst implementation coreId = .ok after ↔
      set.hasQueue coreId = true ∧
        (set.modifyQueue (·.poll implementation) coreId).rebuildPriorityQueue
          implementation = after := by
  constructor
  · intro returned
    obtain ⟨polled, isPolled, same⟩ := bind_eq_ok.mp returned
    obtain ⟨known, rfl⟩ := changeQueue_eq_ok.mp isPolled
    exact ⟨known, Except.ok.inj same⟩
  · rintro ⟨known, rfl⟩
    exact bind_eq_ok.mpr ⟨_, changeQueue_eq_ok.mpr ⟨known, rfl⟩, rfl⟩

theorem Filed.removeFirst
    (filed : set.Filed getCoreId)
    (returned : set.removeFirst implementation coreId = .ok after) :
    after.Filed getCoreId := by
  obtain ⟨-, rfl⟩ := removeFirst_eq_ok.mp returned
  exact (filed.modifyQueue_of_subset fun _ _ remains =>
    mem_of_mem_poll remains).of_queues_eq rfl

theorem exists_removeFirst
    (known : set.hasQueue coreId = true) :
    ∃ after, set.removeFirst implementation coreId = .ok after :=
  ⟨_, removeFirst_eq_ok.mpr ⟨known, rfl⟩⟩

theorem removeFirst_perm
    {queue : PriorityQueue Action comparator}
    (isQueue : set.queues[position coreId]? = some queue)
    (inFront : queue.peek = some first)
    (returned : set.removeFirst implementation coreId = .ok after) :
    (first :: after.actions).Perm set.actions := by
  obtain ⟨-, rfl⟩ := removeFirst_eq_ok.mp returned
  exact actions_poll_perm isQueue inFront

theorem upToDate_removeFirst
    (returned : set.removeFirst implementation coreId = .ok after) :
    after.UpToDate := by
  obtain ⟨-, rfl⟩ := removeFirst_eq_ok.mp returned
  exact upToDate_rebuildPriorityQueue

end Rounds

/-!
## The loops
-/

section Loops

variable
  {rounds : Nat}
  {answer : Option Action}

variable {Invariant : PriorityActionSet Action comparator → Prop}

/-- What every round of `poll` preserves -/
theorem poll_invariant
    (round :
      ∀ set first after, Invariant set → set.priority.peek = some first →
        set.pollPriority implementation getCoreId first = .ok after →
          Invariant after)
    (holds : Invariant set)
    (returned :
      poll implementation getCoreId isToReschedule rounds set =
        .ok (answer, after)) :
    Invariant after := by
  induction rounds generalizing set with
  | zero => cases returned
  | succ rounds hypothesis =>
      rw [poll] at returned
      split at returned
      case h_1 noHead =>
        cases returned
        exact holds
      case h_2 first isHead =>
        obtain ⟨polled, isPolled, continued⟩ := bind_eq_ok.mp returned
        have next := round set first polled holds isHead isPolled
        split at continued
        case isTrue ready =>
          cases continued
          exact next
        case isFalse stale => exact hypothesis next continued

/-- What every round of `peek` preserves -/
theorem peek_invariant
    (round :
      ∀ set first after, Invariant set → set.priority.peek = some first →
        set.removeFirst implementation (getCoreId first) = .ok after →
          Invariant after)
    (holds : Invariant set)
    (returned :
      peek implementation getCoreId isToReschedule rounds set =
        .ok (answer, after)) :
    Invariant after := by
  induction rounds generalizing set with
  | zero => cases returned
  | succ rounds hypothesis =>
      rw [peek] at returned
      split at returned
      case h_1 noHead =>
        cases returned
        exact holds
      case h_2 first isHead =>
        split at returned
        case isTrue ready =>
          cases returned
          exact holds
        case isFalse stale =>
          obtain ⟨removed, isRemoved, continued⟩ := bind_eq_ok.mp returned
          exact hypothesis
            (round set first removed holds isHead isRemoved) continued

theorem waiting_perm_of_actions_perm
    {first : Action}
    (left : (first :: after.actions).Perm set.actions)
    (stale : isToReschedule first = false) :
    (after.waiting isToReschedule).Perm (set.waiting isToReschedule) := by
  have ready := left.filter isToReschedule
  rwa [filter_cons_of_neg (by simp [stale])] at ready

section Returns

variable
  (transitive : ∀ one two three,
    comparator one two ≤ 0 → comparator two three ≤ 0 →
      comparator one three ≤ 0)

include transitive

variable (upToDate : set.UpToDate)

include upToDate

variable (filed : set.Filed getCoreId)

include filed

theorem poll_returns
    (enough : set.actions.length < rounds) :
    ∃ answer after,
      poll implementation getCoreId isToReschedule rounds set =
          .ok (answer, after) ∧
        PriorityQueue.IsNext comparator isToReschedule set.actions answer ∧
        (answer.toList ++ after.waiting isToReschedule).Perm
          (set.waiting isToReschedule) := by
  induction rounds generalizing set with
  | zero => exact absurd enough (Nat.not_lt_zero _)
  | succ rounds hypothesis =>
      rw [poll]
      cases isHead : set.priority.peek with
      | none =>
          refine ⟨none, set, rfl, ?_, List.Perm.refl _⟩
          rw [upToDate.actions_eq_nil isHead]
          exact forall_mem_nil _
      | some first =>
          obtain ⟨queue, isQueue, inFront⟩ :=
            upToDate.queue_of_head filed isHead
          obtain ⟨polled, isPolled⟩ :=
            @exists_pollPriority _ _ implementation _ set first
              (hasQueue_of_getElem? isQueue)
          have left : (first :: polled.actions).Perm set.actions := by
            rw [actions, (pollPriority_eq_ok isPolled).1]
            exact actions_poll_perm isQueue inFront
          simp only [isPolled]
          cases ready : isToReschedule first with
          | true =>
              refine ⟨some first, polled, rfl, ⟨?_, ready, ?_⟩, ?_⟩
              · exact left.mem_iff.mp mem_cons_self
              · intro action isAction _
                exact upToDate.least transitive isHead isAction
              · have waitingLeft := left.filter isToReschedule
                rwa [filter_cons_of_pos ready] at waitingLeft
          | false =>
              have length := left.length_eq
              rw [length_cons] at length
              obtain ⟨answer, after, returned, isNext, remain⟩ :=
                hypothesis
                  (upToDate.pollPriority filed isHead isPolled)
                  (filed.pollPriority isPolled) (by omega)
              refine ⟨answer, after, returned, ?_, ?_⟩
              · exact (isNext.cons ready).perm left
              · exact remain.trans (waiting_perm_of_actions_perm left ready)

theorem peek_returns
    (enough : set.actions.length < rounds) :
    ∃ answer after,
      peek implementation getCoreId isToReschedule rounds set =
          .ok (answer, after) ∧
        PriorityQueue.IsNext comparator isToReschedule set.actions answer ∧
        (after.waiting isToReschedule).Perm
          (set.waiting isToReschedule) := by
  induction rounds generalizing set with
  | zero => exact absurd enough (Nat.not_lt_zero _)
  | succ rounds hypothesis =>
      rw [peek]
      cases isHead : set.priority.peek with
      | none =>
          refine ⟨none, set, rfl, ?_, List.Perm.refl _⟩
          rw [upToDate.actions_eq_nil isHead]
          exact forall_mem_nil _
      | some first =>
          obtain ⟨queue, isQueue, inFront⟩ :=
            upToDate.queue_of_head filed isHead
          cases ready : isToReschedule first with
          | true =>
              simp only [ready, if_true]
              refine ⟨some first, set, rfl, ⟨?_, ready, ?_⟩, List.Perm.refl _⟩
              · exact mem_actions.mpr ⟨queue, mem_of_getElem? isQueue,
                  mem_of_peek inFront⟩
              · intro action isAction _
                exact upToDate.least transitive isHead isAction
          | false =>
              obtain ⟨removed, isRemoved⟩ :=
                @exists_removeFirst _ _ implementation set _
                  (hasQueue_of_getElem? isQueue)
              have left := removeFirst_perm isQueue inFront isRemoved
              have length := left.length_eq
              rw [length_cons] at length
              obtain ⟨answer, after, returned, isNext, remain⟩ :=
                hypothesis (upToDate_removeFirst isRemoved)
                  (filed.removeFirst isRemoved) (by omega)
              refine ⟨answer, after, ?_, ?_, ?_⟩
              · simp only [ready, isRemoved]
                exact returned
              · exact (isNext.cons ready).perm left
              · exact remain.trans (waiting_perm_of_actions_perm left ready)

end Returns

end Loops

/-!
## Actions that are offered
-/

section Offered

variable {coreId : Option Nat}

theorem queues_resized :
    ∃ count,
      (set.resized coreId).queues = set.queues ++ replicate count .empty := by
  cases coreId with
  | none => exact ⟨0, (append_nil _).symm⟩
  | some coreId => exact ⟨_, rfl⟩

theorem firsts_resized : (set.resized coreId).firsts = set.firsts := by
  obtain ⟨count, longer⟩ := @queues_resized _ _ set coreId
  have noFirsts :
      (replicate count (.empty : PriorityQueue Action comparator)).filterMap
        PriorityQueue.peek = [] :=
    filterMap_replicate_of_none rfl
  rw [firsts, longer, filterMap_append, noFirsts, append_nil, firsts]

theorem hasQueue_resized : (set.resized coreId).hasQueue coreId = true := by
  cases coreId with
  | none => rfl
  | some coreId =>
      simp only [resized, hasQueue, length_append, length_replicate,
        decide_eq_true_eq]
      omega

theorem peekOf_resized :
    (set.resized coreId).peekOf coreId = set.peekOf coreId := by
  cases coreId with
  | none => rfl
  | some coreId =>
      simp only [resized, peekOf]
      by_cases known : coreId < set.coreActions.length
      · rw [getElem?_append_left known]
      · have unknown := Nat.le_of_not_lt known
        rw [getElem?_append_right unknown,
          getElem?_eq_none unknown, getElem?_replicate]
        split
        case isTrue inRange => rfl
        case isFalse outOfRange => rfl

theorem Filed.resized
    (filed : set.Filed getCoreId) :
    (set.resized coreId).Filed getCoreId := by
  obtain ⟨count, longer⟩ := @queues_resized _ _ set coreId
  intro place queue isQueue action isAction
  rw [longer] at isQueue
  by_cases isOld : place < set.queues.length
  · rw [getElem?_append_left isOld] at isQueue
    exact filed place queue isQueue action isAction
  · rw [getElem?_append_right (Nat.le_of_not_lt isOld)] at isQueue
    rw [eq_of_mem_replicate (mem_of_getElem? isQueue)] at isAction
    simp [PriorityQueue.empty] at isAction

variable
  [DecidableEq Action]
  {action : Action}

theorem Filed.offer
    (filed : set.Filed getCoreId) :
    (set.offer implementation getCoreId isToReschedule action).Filed
      getCoreId := by
  have offered :
      ((set.resized (getCoreId action)).modifyQueue
        (·.offer implementation action) (getCoreId action)).Filed
          getCoreId := by
    refine filed.resized.modifyQueue ?_
    intro queue isQueue other isOther
    have added := offer_perm queue implementation action
    rcases mem_cons.mp (added.mem_iff.mp isOther) with same | old
    · rw [same]
    · exact filed.resized _ queue isQueue other old
  rw [PriorityActionSet.offer]
  split
  case isTrue ready =>
    dsimp only
    split
    case isTrue other => exact offered.of_queues_eq rfl
    case isFalse same => exact offered
  case isFalse stale => exact filed

theorem upToDate_offer
    (ready : isToReschedule action = true)
    (isOther : set.peekOf (getCoreId action) ≠ some action) :
    (set.offer implementation getCoreId isToReschedule action).UpToDate := by
  simp only [offer, if_pos ready, if_pos isOther]
  exact upToDate_rebuildPriorityQueue

theorem UpToDate.offer
    (upToDate : set.UpToDate) :
    (set.offer implementation getCoreId isToReschedule action).UpToDate := by
  by_cases ready : isToReschedule action = true
  · by_cases isOther : set.peekOf (getCoreId action) = some action
    · obtain ⟨queue, isQueue⟩ :=
        getElem?_of_hasQueue (@hasQueue_resized _ _ set (getCoreId action))
      have inFront : queue.peek = some action := by
        rw [← peekOf_eq isQueue, peekOf_resized, isOther]
      have offered := firsts_perm (@getElem?_modifyQueue _ _ _ _
        (·.offer implementation action) _ isQueue)
      rw [others_modifyQueue,
        peek_offer_of_peek implementation inFront,
        ← inFront] at offered
      have sameFirsts := offered.trans (firsts_perm isQueue).symm
      rw [firsts_resized] at sameFirsts
      simp only [PriorityActionSet.offer, if_pos ready, isOther, ne_eq,
        not_true_eq_false, if_false]
      refine List.Perm.trans ?_ sameFirsts.symm
      cases getCoreId action with
      | none => exact upToDate
      | some coreId => exact upToDate
    · exact upToDate_offer ready isOther
  · rw [PriorityActionSet.offer, if_neg ready]
    exact upToDate

end Offered

/-!
## Actions that are removed
-/

section Removed

variable
  [DecidableEq Action]
  {action : Action}

theorem remove_eq_ok :
    set.remove implementation getCoreId action = .ok after ↔
      set.hasQueue (getCoreId action) = true ∧
        set.modifyQueue (·.remove implementation action)
          (getCoreId action) = after :=
  changeQueue_eq_ok

theorem Filed.remove
    (filed : set.Filed getCoreId)
    (returned : set.remove implementation getCoreId action = .ok after) :
    after.Filed getCoreId := by
  obtain ⟨-, rfl⟩ := remove_eq_ok.mp returned
  refine filed.modifyQueue_of_subset ?_
  intro queue other remains
  have removed := remove_perm queue implementation action
  exact mem_of_mem_erase (removed.mem_iff.mp remains)

/-- The action is removed once, and nothing else is. -/
theorem Filed.remove_perm
    (filed : set.Filed getCoreId)
    (returned : set.remove implementation getCoreId action = .ok after) :
    after.actions.Perm (set.actions.erase action) := by
  obtain ⟨known, rfl⟩ := remove_eq_ok.mp returned
  obtain ⟨queue, isQueue⟩ := getElem?_of_hasQueue known
  have removed := actions_perm (@getElem?_modifyQueue _ _ _ _
    (·.remove implementation action) _ isQueue)
  rw [others_modifyQueue] at removed
  calc
    List.Perm _ _ := removed
    List.Perm _ (queue.elements.erase action ++
        (set.others (getCoreId action)).flatMap elements) :=
      (remove_perm queue implementation action).append_right _
    List.Perm _ ((queue.elements ++
        (set.others (getCoreId action)).flatMap
          elements).erase action) := by
      rw [erase_append]
      split
      case isTrue inQueue => exact List.Perm.refl _
      case isFalse notInQueue =>
        rw [erase_of_not_mem notInQueue,
          erase_of_not_mem filed.not_mem_others]
    List.Perm _ (set.actions.erase action) :=
      ((actions_perm isQueue).erase action).symm

/-- The priority queue is not told that an action is removed. -/
theorem UpToDate.remove
    (upToDate : set.UpToDate)
    (isOther : set.peekOf (getCoreId action) ≠ some action)
    (returned : set.remove implementation getCoreId action = .ok after) :
    after.UpToDate := by
  obtain ⟨known, rfl⟩ := remove_eq_ok.mp returned
  obtain ⟨queue, isQueue⟩ := getElem?_of_hasQueue known
  rw [peekOf_eq isQueue] at isOther
  have removed := firsts_perm (@getElem?_modifyQueue _ _ _ _
    (·.remove implementation action) _ isQueue)
  rw [others_modifyQueue,
    peek_remove_of_ne implementation isOther] at removed
  have sameFirsts := removed.trans (firsts_perm isQueue).symm
  refine List.Perm.trans ?_ sameFirsts.symm
  cases getCoreId action with
  | none => exact upToDate
  | some coreId => exact upToDate

end Removed

/-!
## The first action of each core
-/

section PeekAll

variable (implementation isToReschedule) in
def StaleTwice
    (queue : PriorityQueue Action comparator) : Prop :=
  ∃ first second,
    queue.peek = some first ∧ isToReschedule first = false ∧
      (queue.poll implementation).peek = some second ∧
        isToReschedule second = false

variable {queue : PriorityQueue Action comparator}

theorem isNext_dropFirst
    (atMostOnce : ¬StaleTwice implementation isToReschedule queue) :
    PriorityQueue.IsNext comparator isToReschedule queue.elements
      (dropFirst implementation isToReschedule queue).peek := by
  unfold dropFirst
  split
  case h_1 noFirst =>
    refine isNext_peek ?_
    rw [noFirst]
    intro first isFirst
    cases isFirst
  case h_2 first isFirst =>
    split
    case isTrue ready =>
      refine isNext_peek ?_
      rw [isFirst]
      intro other isOther
      cases isOther
      exact ready
    case isFalse stale =>
      have isStale : isToReschedule first = false := by simpa using stale
      have polled := @PriorityQueue.cons_poll_perm _ _ _ _ implementation isFirst
      refine perm ?_ polled
      refine cons ?_ isStale
      refine isNext_peek ?_
      intro second isSecond
      by_contra notReady
      exact atMostOnce ⟨first, second, isFirst, isStale, isSecond,
        by simpa using notReady⟩

/-- Behind a dropped action there may be one more that is not wanted. -/
theorem peek_dropFirst_of_staleTwice
    (staleTwice : StaleTwice implementation isToReschedule queue) :
    ∃ second,
      (dropFirst implementation isToReschedule queue).peek = some second ∧
        isToReschedule second = false := by
  obtain ⟨first, second, isFirst, firstStale, isSecond, secondStale⟩ :=
    staleTwice
  refine ⟨second, ?_, secondStale⟩
  simp only [dropFirst, isFirst, firstStale, Bool.false_eq_true, if_false,
    isSecond]

theorem dropFirst_of_ready
    (ready : ∀ first ∈ queue.peek, isToReschedule first = true) :
    dropFirst implementation isToReschedule queue = queue := by
  unfold dropFirst
  split
  case h_1 noFirst => rfl
  case h_2 first isFirst => rw [if_pos (ready first isFirst)]

theorem waiting_dropFirst :
    ((dropFirst implementation isToReschedule queue).elements.filter
        isToReschedule).Perm
      (queue.elements.filter isToReschedule) := by
  unfold dropFirst
  split
  case h_1 noFirst => exact List.Perm.refl _
  case h_2 first isFirst =>
    split
    case isTrue ready => exact List.Perm.refl _
    case isFalse stale =>
      have polled := (@PriorityQueue.cons_poll_perm _ _ _ _ implementation
        isFirst).filter isToReschedule
      rwa [filter_cons_of_neg stale] at polled

theorem subset_dropFirst :
    (dropFirst implementation isToReschedule queue).elements ⊆
      queue.elements := by
  unfold dropFirst
  split
  case h_1 noFirst => exact refl _
  case h_2 first isFirst =>
    split
    case isTrue ready => exact refl _
    case isFalse stale =>
      intro action remains
      exact mem_of_mem_poll remains

theorem queues_peekAll :
    (set.peekAll implementation isToReschedule).2.queues =
      set.queues.map (dropFirst implementation isToReschedule) :=
  rfl

theorem Filed.peekAll
    (filed : set.Filed getCoreId) :
    (set.peekAll implementation isToReschedule).2.Filed getCoreId := by
  intro place queue isQueue action isAction
  rw [queues_peekAll, getElem?_map] at isQueue
  obtain ⟨old, isOld, rfl⟩ := Option.map_eq_some_iff.mp isQueue
  exact filed place old isOld action (subset_dropFirst isAction)

theorem UpToDate.peekAll
    (upToDate : set.UpToDate)
    (ready : ∀ first ∈ set.firsts, isToReschedule first = true) :
    (set.peekAll implementation isToReschedule).2.UpToDate := by
  have sameQueues :
      (set.peekAll implementation isToReschedule).2.queues = set.queues := by
    rw [queues_peekAll]
    refine (map_congr_left ?_).trans (map_id _)
    intro queue isQueue
    refine dropFirst_of_ready ?_
    intro first isFirst
    exact ready first (mem_firsts.mpr ⟨queue, isQueue, isFirst⟩)
  rw [UpToDate, firsts, sameQueues]
  exact upToDate

theorem waiting_peekAll :
    ((set.peekAll implementation isToReschedule).2.waiting
        isToReschedule).Perm
      (set.waiting isToReschedule) := by
  rw [waiting, waiting, actions, actions, queues_peekAll, filter_flatMap,
    filter_flatMap, flatMap_map]
  exact List.Perm.flatMap_left _ fun queue _ => waiting_dropFirst

end PeekAll

end DistributedRdf.Scheduling.PriorityActionSet
