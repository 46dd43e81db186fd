import DistributedRdf.FullGraphScheduling
import DistributedRdf.TransitionSystem
import Mathlib.Data.List.TakeWhile

namespace DistributedRdf.Scheduling

open Execution Function SchedulingTable List Gap

/-!
# Planned times

A gap begins when the action that frees its resources is to end, and the gaps of
a worker are in the order of their beginnings.  An action is to start when those
that it waits for have ended.
-/

variable
  {Resources : Type}
  {dynamic : DynamicResources Resources}

/-!
## The scans of the gaps
-/

/-- What a scan leaves of a gap that it does not remove -/
def Gap.frame (gap : Gap Resources) : Int × Option ActionId :=
  (gap.initialTime, gap.origin)

variable (eligible : Gap Resources → Bool)

theorem frames_scanGaps
    (gaps : List (Gap Resources))
    (constraints : Resources)
    (predecessors : List ActionId) :
    ((scanGaps dynamic eligible gaps constraints
        predecessors).gaps.map frame).Sublist
      (gaps.map frame) := by
  induction gaps generalizing constraints predecessors with
  | nil => exact List.Sublist.slnil
  | cons gap rest hypothesis =>
      rw [scanGaps]
      split
      · have kept :
            ((if dynamic.isDynamicUseless
                (dynamic.reduceCommonDynamics gap.resources constraints).1 then
                ([] : List (Gap Resources))
              else
                [{ gap with
                  resources :=
                    (dynamic.reduceCommonDynamics gap.resources
                      constraints).1 }]).map frame).Sublist
              [gap.frame] := by
          split
          · exact nil_sublist _
          · exact List.Sublist.refl _
        simp only
        split
        · rw [map_append]
          exact kept.append (List.Sublist.refl _)
        · rw [map_append]
          exact kept.append (hypothesis _ _)
      · exact (hypothesis _ _).cons_cons _

variable {gaps : List (Gap Resources)}

/-- An action that is waited for is the origin of a gap. -/
theorem predecessors_scanGaps
    {eligible : Gap Resources → Bool}
    {constraints : Resources}
    {predecessors : List ActionId}
    {action : ActionId}
    (found :
      action ∈
        (scanGaps dynamic eligible gaps constraints predecessors).predecessors) :
    action ∈ predecessors ∨ ∃ gap ∈ gaps, gap.origin = some action := by
  induction gaps generalizing constraints predecessors with
  | nil => exact Or.inl found
  | cons gap rest hypothesis =>
      have ofFound :
          action ∈ predecessors ++ gap.origin.toList →
            action ∈ predecessors ∨
              ∃ member ∈ gap :: rest, member.origin = some action := by
        intro member
        rcases mem_append.mp member with earlier | isOrigin
        · exact Or.inl earlier
        · exact Or.inr ⟨gap, mem_cons_self .., Option.mem_toList.mp isOrigin⟩
      rw [scanGaps] at found
      split at found
      · simp only at found
        split at found
        · exact ofFound found
        · rcases hypothesis found with earlier | ⟨member, isRest, origin⟩
          · exact ofFound earlier
          · exact Or.inr ⟨member, mem_cons_of_mem _ isRest, origin⟩
      · rcases hypothesis found with earlier | ⟨member, isRest, origin⟩
        · exact Or.inl earlier
        · exact Or.inr ⟨member, mem_cons_of_mem _ isRest, origin⟩

/-- A gap that is left begins and originates as one of the gaps did. -/
theorem exists_of_frames
    {left gaps : List (Gap Resources)}
    {gap : Gap Resources}
    (frames : (left.map frame).Sublist (gaps.map frame))
    (member : gap ∈ left) :
    ∃ earlier ∈ gaps,
      earlier.initialTime = gap.initialTime ∧ earlier.origin = gap.origin := by
  have isFrame := frames.subset (mem_map_of_mem member)
  obtain ⟨earlier, isEarlier, same⟩ := mem_map.mp isFrame
  exact ⟨earlier, isEarlier, congrArg Prod.fst same, congrArg Prod.snd same⟩

variable (gaps)

/-- The first scan goes through the gaps backwards. -/
theorem frames_scanGaps_reverse
    (constraints : Resources)
    (predecessors : List ActionId) :
    ((scanGaps dynamic eligible gaps.reverse constraints
        predecessors).gaps.reverse.map frame).Sublist
      (gaps.map frame) := by
  have reversed :=
    (@frames_scanGaps Resources dynamic eligible gaps.reverse constraints
      predecessors).reverse
  rwa [← map_reverse, ← map_reverse, reverse_reverse]
    at reversed

theorem frames_takeFromGaps
    (expectedStart : Int)
    (requirements : Resources) :
    ((takeFromGaps dynamic gaps expectedStart requirements).1.map
        frame).Sublist (gaps.map frame) := by
  rw [takeFromGaps]
  simp only
  split
  · exact frames_scanGaps_reverse _ _ _ _
  · exact (frames_scanGaps _ _ _ _).trans (frames_scanGaps_reverse _ _ _ _)

variable {gaps}

theorem predecessors_takeFromGaps
    {expectedStart : Int}
    {requirements : Resources}
    {action : ActionId}
    (found :
      action ∈ (takeFromGaps dynamic gaps expectedStart requirements).2) :
    ∃ gap ∈ gaps, gap.origin = some action := by
  have ofFirst :
      action ∈
          (scanGaps dynamic (fun gap => gap.initialTime ≤ expectedStart)
            gaps.reverse requirements []).predecessors →
        ∃ gap ∈ gaps, gap.origin = some action := by
    intro inFirst
    rcases predecessors_scanGaps inFirst with none | ⟨gap, member, origin⟩
    · exact absurd none not_mem_nil
    · exact ⟨gap, mem_reverse.mp member, origin⟩
  rw [takeFromGaps] at found
  simp only at found
  split at found
  · exact ofFirst found
  · rcases predecessors_scanGaps found with inFirst | ⟨gap, member, origin⟩
    · exact ofFirst inFirst
    · obtain ⟨earlier, isEarlier, -, sameOrigin⟩ :=
        exists_of_frames (frames_scanGaps_reverse _ _ _ _) member
      exact ⟨earlier, isEarlier, sameOrigin.trans origin⟩

/-!
## The order of the gaps
-/

/-- The gaps are in the order of their beginnings. -/
def GapsSorted (gaps : List (Gap Resources)) : Prop :=
  gaps.Pairwise fun first second => first.initialTime ≤ second.initialTime

theorem GapsSorted.of_frames
    {left gaps : List (Gap Resources)}
    (sorted : GapsSorted gaps)
    (frames : (left.map frame).Sublist (gaps.map frame)) :
    GapsSorted left := by
  have framesSorted :
      (gaps.map frame).Pairwise fun first second => first.1 ≤ second.1 :=
    pairwise_map.mpr sorted
  have leftSorted :
      (left.map frame).Pairwise fun first second => first.1 ≤ second.1 :=
    framesSorted.sublist frames
  rw [pairwise_map] at leftSorted
  exact leftSorted

theorem mem_addGap
    {gap other : Gap Resources} :
    other ∈ addGap gaps gap ↔ other = gap ∨ other ∈ gaps := by
  have parts :
      other ∈ gaps ↔
        other ∈ gaps.takeWhile (·.initialTime ≤ gap.initialTime) ∨
          other ∈ gaps.dropWhile (·.initialTime ≤ gap.initialTime) := by
    rw [← mem_append, takeWhile_append_dropWhile]
  rw [addGap, mem_append, mem_cons, parts]
  exact or_left_comm

/-- The gaps in front of the new one are not later, those behind it are. -/
theorem GapsSorted.addGap
    (sorted : GapsSorted gaps)
    (gap : Gap Resources) :
    GapsSorted (addGap gaps gap) := by
  have split :
      GapsSorted
        (gaps.takeWhile (·.initialTime ≤ gap.initialTime) ++
          gaps.dropWhile (·.initialTime ≤ gap.initialTime)) := by
    rwa [takeWhile_append_dropWhile]
  obtain ⟨front, behind, across⟩ := pairwise_append.mp split
  have notLater :
      ∀ earlier ∈ gaps.takeWhile (·.initialTime ≤ gap.initialTime),
        earlier.initialTime ≤ gap.initialTime := by
    intro earlier member
    have notLater := mem_takeWhile_imp member
    exact of_decide_eq_true notLater
  have later :
      ∀ other ∈ gaps.dropWhile (·.initialTime ≤ gap.initialTime),
        gap.initialTime ≤ other.initialTime := by
    intro other member
    have nonempty := ne_nil_of_mem member
    have notHead := head_dropWhile_not _ nonempty
    have headLater := Int.le_of_lt (Int.lt_of_not_ge (of_decide_eq_false notHead))
    obtain ⟨head, rest, isCons⟩ := exists_cons_of_ne_nil nonempty
    simp only [isCons, head_cons] at headLater
    rw [isCons] at member behind
    rcases mem_cons.mp member with rfl | isRest
    · exact headLater
    · exact headLater.trans ((pairwise_cons.mp behind).1 other isRest)
  refine pairwise_append.mpr ⟨front, pairwise_cons.mpr
    ⟨later, behind⟩, ?_⟩
  intro earlier isFront other isBehind
  rcases mem_cons.mp isBehind with rfl | isLater
  · exact notLater earlier isFront
  · exact across earlier isFront other isLater

/-!
## The times of the actions
-/

theorem le_latestEnd
    (table : SchedulingTable)
    (start : Int)
    (actions : List ActionId) :
    start ≤ latestEnd table start actions := by
  induction actions generalizing start with
  | nil => exact le_refl start
  | cons first rest hypothesis =>
      refine le_trans ?_ (hypothesis _)
      change start ≤
        if (table first).scheduled then max start (table first).expectedEnd
        else start
      split
      · exact le_max_left _ _
      · exact le_refl start

theorem expectedEnd_le_latestEnd
    {table : SchedulingTable}
    {action : ActionId}
    {actions : List ActionId}
    (start : Int)
    (member : action ∈ actions)
    (scheduled : (table action).scheduled) :
    (table action).expectedEnd ≤ latestEnd table start actions := by
  induction actions generalizing start with
  | nil => exact absurd member not_mem_nil
  | cons first rest hypothesis =>
      rcases mem_cons.mp member with rfl | isRest
      · refine le_trans ?_ (le_latestEnd table _ rest)
        simp only [if_pos scheduled]
        exact le_max_right _ _
      · exact hypothesis _ isRest

namespace SchedulingTable

variable
  {table : SchedulingTable}
  {action other : ActionId}
  {predecessors : List ActionId}

/-- Predecessors that are not scheduled are passed over. -/
theorem linkAll_filter :
    table.linkAll action predecessors =
      table.linkAll action
        (predecessors.filter fun predecessor =>
          (table predecessor).scheduled) := by
  induction predecessors generalizing table with
  | nil => rfl
  | cons first rest hypothesis =>
      by_cases scheduled : (table first).scheduled
      · simp only [filter_cons, if_pos scheduled]
        refine hypothesis.trans ?_
        have sameScheduled :
            (fun predecessor =>
                (table.link action first predecessor).scheduled) =
              fun predecessor => (table predecessor).scheduled := by
          funext predecessor
          exact scheduled_link predecessor
        rw [sameScheduled]
        rfl
      · simp only [filter_cons, if_neg scheduled]
        have passedOver : table.link action first = table := by
          rw [link, if_neg scheduled]
        refine Eq.trans ?_ hypothesis
        rw [linkAll, foldl_cons, passedOver]
        rfl

theorem predecessors_linkAll_filter :
    (table.linkAll action predecessors other).resourcePredecessors =
      (table other).resourcePredecessors ++
        if other = action then
          predecessors.filter fun predecessor => (table predecessor).scheduled
        else [] := by
  rw [linkAll_filter]
  exact predecessors_linkAll
    (fun first member => (mem_filter.mp member).2) other

theorem successors_linkAll_filter :
    (table.linkAll action predecessors other).resourceSuccessors =
      (table other).resourceSuccessors ++
        replicate
          ((predecessors.filter fun predecessor =>
            (table predecessor).scheduled).count other) action := by
  rw [linkAll_filter]
  exact successors_linkAll
    (fun first member => (mem_filter.mp member).2) other

end SchedulingTable

/-!
## Scheduling one action
-/

/-- What is planned for an action, and for no other one -/
structure Planned
    (before : SchedulingTable)
    (assigned : AssignedAction Resources)
    (origins : List ActionId)
    (after : SchedulingTable) : Prop where
  others :
    ∀ other, other ≠ assigned.action →
      (after other).times = (before other).times ∧
        (after other).resourcePredecessors =
          (before other).resourcePredecessors
  scheduled : (after assigned.action).scheduled = true
  /-- The origins of the gaps that are scheduled are waited for. -/
  predecessors :
    ∀ predecessor ∈ (after assigned.action).resourcePredecessors,
      predecessor ∈ (before assigned.action).resourcePredecessors ∨
        predecessor ∈ origins ∧
          (predecessor ≠ assigned.action →
            (before predecessor).scheduled = true ∧
              (before predecessor).expectedEnd ≤
                (after assigned.action).expectedStart)
  data :
    ∀ predecessor ∈ assigned.dataPredecessors,
      (before predecessor).scheduled = true →
        (before predecessor).expectedEnd ≤
          (after assigned.action).expectedStart

/-- The gaps that are left and the one of the action, with the planned times -/
theorem scheduleUsingGaps_spec
    (assigned : AssignedAction Resources)
    (gaps : List (Gap Resources))
    (table : SchedulingTable) :
    ∃ left origins after,
      scheduleUsingGaps dynamic assigned gaps table =
          (addGap left
            ⟨(after assigned.action).expectedEnd, LONG_MAX_VALUE,
              some assigned.action, assigned.requirements, 0⟩, after) ∧
        (left.map frame).Sublist (gaps.map frame) ∧
        (∀ origin ∈ origins, ∃ gap ∈ gaps, gap.origin = some origin) ∧
        Planned table assigned origins after := by
  let dataEnd := latestEnd table 0 assigned.dataPredecessors
  let taken := takeFromGaps dynamic gaps dataEnd assigned.requirements
  let marked : SchedulingTable :=
    table.modify assigned.action fun dsi => { dsi with scheduled := true }
  let expectedStart := latestEnd marked dataEnd taken.2
  let linked := marked.linkAll assigned.action taken.2
  let after :=
    linked.modify assigned.action fun dsi =>
      { dsi with
        expectedStart := expectedStart
        expectedEnd :=
          expectedStart + assigned.averageExecutionTime.getD 0 }
  have atAction :
      after assigned.action =
        { linked assigned.action with
          expectedStart := expectedStart
          expectedEnd :=
            expectedStart + assigned.averageExecutionTime.getD 0 } :=
    modify_self _
  have markedSelf :
      marked assigned.action = { table assigned.action with scheduled := true } :=
    modify_self _
  have markedOther :
      ∀ other, other ≠ assigned.action → marked other = table other :=
    fun other different => modify_of_ne different _
  refine ⟨taken.1, taken.2, after, ?_, frames_takeFromGaps _ _ _,
    fun origin member => predecessors_takeFromGaps member, ?_⟩
  · rw [atAction]
    rfl
  · exact {
      others := by
        intro other different
        have unchanged : after other = linked other :=
          modify_of_ne different _
        rw [unchanged]
        constructor
        · exact (times_linkAll other).trans
            (congrArg _ (markedOther other different))
        · refine (predecessors_linkAll_filter).trans ?_
          rw [if_neg different, append_nil, markedOther other different]
      scheduled := by
        rw [atAction]
        refine (scheduled_linkAll assigned.action).trans ?_
        rw [markedSelf]
      predecessors := by
        intro predecessor member
        rw [atAction] at member ⊢
        have lists :
            (linked assigned.action).resourcePredecessors =
              (marked assigned.action).resourcePredecessors ++
                taken.2.filter fun origin => (marked origin).scheduled := by
          refine (predecessors_linkAll_filter).trans ?_
          rw [if_pos rfl]
        have sameList :
            (marked assigned.action).resourcePredecessors =
              (table assigned.action).resourcePredecessors := by
          rw [markedSelf]
        simp only at member
        rw [lists, sameList] at member
        rcases mem_append.mp member with earlier | isOrigin
        · exact Or.inl earlier
        · obtain ⟨isTaken, scheduled⟩ := mem_filter.mp isOrigin
          refine Or.inr ⟨isTaken, fun different => ?_⟩
          have ends := expectedEnd_le_latestEnd dataEnd isTaken scheduled
          rw [markedOther predecessor different] at scheduled ends
          exact ⟨scheduled, ends⟩
      data := by
        intro predecessor member scheduled
        rw [atAction]
        exact (expectedEnd_le_latestEnd 0 member scheduled).trans
          (le_latestEnd _ _ _) }

/-!
## Sequences of calls
-/

/--
The workers and the times of the actions.  For each action, `awaited` are the
data predecessors that were scheduled when it was.
-/
structure PlanningHistory (Resources : Type) where
  workers : WorkerId → FullGraphResourceScheduler Resources
  table : SchedulingTable
  awaited : ActionId → List ActionId

/-- A call of `scheduleAction` -/
structure ScheduleCall (Resources : Type) where
  worker : WorkerId
  assigned : AssignedAction Resources

namespace PlanningHistory

def new (descriptions : WorkerId → Resources) : PlanningHistory Resources where
  workers worker := .new (descriptions worker)
  table _ := .new
  awaited _ := []

def scheduleAction
    (dynamic : DynamicResources Resources)
    (history : PlanningHistory Resources)
    (call : ScheduleCall Resources) : PlanningHistory Resources :=
  let (scheduler, table) :=
    (history.workers call.worker).scheduleAction dynamic history.table
      call.assigned
  { workers := update history.workers call.worker scheduler
    table
    awaited :=
      update history.awaited call.assigned.action
        (call.assigned.dataPredecessors.filter fun predecessor =>
          (history.table predecessor).scheduled) }

/-- The gaps are in order, and the actions start after those they wait for. -/
structure Timely (history : PlanningHistory Resources) : Prop where
  sorted : ∀ worker, GapsSorted (history.workers worker).gaps
  begins :
    ∀ worker, ∀ gap ∈ (history.workers worker).gaps,
      (gap.origin = none → gap.initialTime = LONG_MIN_VALUE) ∧
        ∀ origin, gap.origin = some origin →
          gap.initialTime = (history.table origin).expectedEnd
  resources :
    ∀ action, (history.table action).scheduled = true →
      ∀ predecessor ∈ (history.table action).resourcePredecessors,
        (history.table predecessor).expectedEnd ≤
          (history.table action).expectedStart
  data :
    ∀ action, (history.table action).scheduled = true →
      ∀ predecessor ∈ history.awaited action,
        (history.table predecessor).expectedEnd ≤
          (history.table action).expectedStart

/-- What is kept besides: who is waited for has been scheduled. -/
structure Settled (history : PlanningHistory Resources) : Prop where
  timely : history.Timely
  notOptimized : ∀ worker, (history.workers worker).opAction = none
  origins :
    ∀ worker, ∀ gap ∈ (history.workers worker).gaps,
      ∀ origin, gap.origin = some origin →
        (history.table origin).scheduled = true
  predecessors :
    ∀ action, ∀ predecessor ∈ (history.table action).resourcePredecessors,
      (history.table action).scheduled = true ∧
        (history.table predecessor).scheduled = true
  awaited :
    ∀ action, ∀ predecessor ∈ history.awaited action,
      (history.table predecessor).scheduled = true

theorem Settled.new (descriptions : WorkerId → Resources) :
    (PlanningHistory.new descriptions).Settled where
  timely := {
    sorted := by
      intro worker
      exact pairwise_singleton _ _
    begins := by
      intro worker gap member
      have isFirst := mem_singleton.mp member
      subst isFirst
      exact ⟨fun _ => rfl, fun origin isOrigin => absurd isOrigin (by simp)⟩
    resources := by
      intro action _ predecessor member
      exact absurd member not_mem_nil
    data := by
      intro action _ predecessor member
      exact absurd member not_mem_nil }
  notOptimized := fun _ => rfl
  origins := by
    intro worker gap member origin isOrigin
    have isFirst := mem_singleton.mp member
    subst isFirst
    exact absurd isOrigin (by simp)
  predecessors := by
    intro action predecessor member
    exact absurd member not_mem_nil
  awaited := by
    intro action predecessor member
    exact absurd member not_mem_nil

variable
  {history : PlanningHistory Resources}
  {call : ScheduleCall Resources}

/-- What a call leaves, and how that relates to what was there -/
structure Called
    (before : PlanningHistory Resources)
    (call : ScheduleCall Resources)
    (after : PlanningHistory Resources) : Prop where
  gaps :
    ∀ worker, ∀ gap ∈ (after.workers worker).gaps,
      gap.origin = some call.assigned.action ∧
          gap.initialTime = (after.table call.assigned.action).expectedEnd ∨
        ∃ earlier ∈ (before.workers worker).gaps,
          earlier.initialTime = gap.initialTime ∧ earlier.origin = gap.origin
  sorted : ∀ worker, GapsSorted (after.workers worker).gaps
  opActions :
    ∀ worker,
      (after.workers worker).opAction = (before.workers worker).opAction
  others :
    ∀ other, other ≠ call.assigned.action →
      (after.table other).times = (before.table other).times ∧
        (after.table other).resourcePredecessors =
          (before.table other).resourcePredecessors
  scheduled : (after.table call.assigned.action).scheduled = true
  predecessors :
    ∀ predecessor ∈
        (after.table call.assigned.action).resourcePredecessors,
      predecessor ≠ call.assigned.action ∧
        (before.table predecessor).scheduled = true ∧
          (before.table predecessor).expectedEnd ≤
            (after.table call.assigned.action).expectedStart
  awaitedOthers :
    ∀ other, other ≠ call.assigned.action →
      after.awaited other = before.awaited other
  awaited :
    ∀ predecessor ∈ after.awaited call.assigned.action,
      (before.table predecessor).scheduled = true ∧
        (before.table predecessor).expectedEnd ≤
          (after.table call.assigned.action).expectedStart

theorem Settled.called
    (settled : history.Settled)
    (notScheduled : (history.table call.assigned.action).scheduled = false) :
    history.Called call (history.scheduleAction dynamic call) := by
  obtain ⟨left, origins, after, outcome, frames, fromGaps, planned⟩ :=
    @scheduleUsingGaps_spec Resources dynamic call.assigned
      (history.workers call.worker).gaps history.table
  let newGap : Gap Resources :=
    ⟨(after call.assigned.action).expectedEnd, LONG_MAX_VALUE,
      some call.assigned.action, call.assigned.requirements, 0⟩
  have called :
      history.scheduleAction dynamic call =
        { workers :=
            update history.workers call.worker
              { history.workers call.worker with gaps := addGap left newGap }
          table := after
          awaited :=
            update history.awaited call.assigned.action
              (call.assigned.dataPredecessors.filter fun predecessor =>
                (history.table predecessor).scheduled) } := by
    simp only [scheduleAction, FullGraphResourceScheduler.scheduleAction,
      settled.notOptimized call.worker, outcome]
    rfl
  have originScheduled :
      ∀ origin ∈ origins, (history.table origin).scheduled = true := by
    intro origin member
    obtain ⟨gap, isGap, isOrigin⟩ := fromGaps origin member
    exact settled.origins call.worker gap isGap origin isOrigin
  rw [called]
  exact {
    gaps := by
      intro worker gap member
      by_cases same : worker = call.worker
      · subst same
        simp only [update_self] at member
        rcases mem_addGap.mp member with rfl | isLeft
        · exact Or.inl ⟨rfl, rfl⟩
        · exact Or.inr (exists_of_frames frames isLeft)
      · simp only [update_of_ne same] at member
        exact Or.inr ⟨gap, member, rfl, rfl⟩
    sorted := by
      intro worker
      by_cases same : worker = call.worker
      · subst same
        simp only [update_self]
        exact ((settled.timely.sorted call.worker).of_frames frames).addGap _
      · simp only [update_of_ne same]
        exact settled.timely.sorted worker
    opActions := by
      intro worker
      by_cases same : worker = call.worker
      · subst same
        simp only [update_self]
      · simp only [update_of_ne same]
    others := planned.others
    scheduled := planned.scheduled
    predecessors := by
      intro predecessor member
      rcases planned.predecessors predecessor member with
        earlier | ⟨isOrigin, ends⟩
      · have wasScheduled :=
          (settled.predecessors call.assigned.action predecessor earlier).1
        rw [notScheduled] at wasScheduled
        exact absurd wasScheduled (by simp)
      · have different : predecessor ≠ call.assigned.action := by
          rintro rfl
          have wasScheduled := originScheduled _ isOrigin
          rw [notScheduled] at wasScheduled
          exact absurd wasScheduled (by simp)
        exact ⟨different, ends different⟩
    awaitedOthers := by
      intro other different
      exact update_of_ne different _ _
    awaited := by
      intro predecessor member
      simp only [update_self] at member
      obtain ⟨isData, scheduled⟩ := mem_filter.mp member
      exact ⟨scheduled, planned.data predecessor isData scheduled⟩ }

theorem Settled.step
    {after : PlanningHistory Resources}
    (settled : history.Settled)
    (notScheduled : (history.table call.assigned.action).scheduled = false)
    (called : history.Called call after) :
    after.Settled := by
  have different :
      ∀ other, (history.table other).scheduled = true →
        other ≠ call.assigned.action := by
    rintro _ scheduled rfl
    rw [notScheduled] at scheduled
    exact absurd scheduled (by simp)
  have sameEnd :
      ∀ other, other ≠ call.assigned.action →
        (after.table other).expectedEnd = (history.table other).expectedEnd :=
    fun other notAction =>
      congrArg (fun times => times.2.2) (called.others other notAction).1
  have sameStart :
      ∀ other, other ≠ call.assigned.action →
        (after.table other).expectedStart =
          (history.table other).expectedStart :=
    fun other notAction =>
      congrArg (fun times => times.2.1) (called.others other notAction).1
  have sameScheduled :
      ∀ other, other ≠ call.assigned.action →
        (after.table other).scheduled = (history.table other).scheduled :=
    fun other notAction =>
      congrArg Prod.fst (called.others other notAction).1
  exact {
    timely := {
      sorted := called.sorted
      begins := by
        intro worker gap member
        rcases called.gaps worker gap member with
          ⟨isNew, time⟩ | ⟨earlier, isEarlier, sameTime, sameOrigin⟩
        · refine ⟨fun none => absurd (isNew.symm.trans none) (by simp), ?_⟩
          intro origin isOrigin
          rw [isNew] at isOrigin
          cases isOrigin
          exact time
        · obtain ⟨first, ofOrigin⟩ :=
            settled.timely.begins worker earlier isEarlier
          rw [← sameTime, ← sameOrigin]
          refine ⟨first, fun origin isOrigin => ?_⟩
          rw [sameEnd origin (different origin
            (settled.origins worker earlier isEarlier origin isOrigin))]
          exact ofOrigin origin isOrigin
      resources := by
        intro action scheduled predecessor member
        by_cases isAction : action = call.assigned.action
        · subst isAction
          obtain ⟨notAction, -, ends⟩ := called.predecessors predecessor member
          rw [sameEnd predecessor notAction]
          exact ends
        · rw [(called.others action isAction).2] at member
          obtain ⟨wasScheduled, predecessorScheduled⟩ :=
            settled.predecessors action predecessor member
          rw [sameEnd predecessor (different predecessor predecessorScheduled),
            sameStart action isAction]
          exact settled.timely.resources action wasScheduled predecessor member
      data := by
        intro action scheduled predecessor member
        by_cases isAction : action = call.assigned.action
        · subst isAction
          obtain ⟨predecessorScheduled, ends⟩ :=
            called.awaited predecessor member
          rw [sameEnd predecessor (different predecessor predecessorScheduled)]
          exact ends
        · rw [called.awaitedOthers action isAction] at member
          rw [sameScheduled action isAction] at scheduled
          rw [sameEnd predecessor (different predecessor
            (settled.awaited action predecessor member)),
            sameStart action isAction]
          exact settled.timely.data action scheduled predecessor member }
    notOptimized := by
      intro worker
      rw [called.opActions, settled.notOptimized]
    origins := by
      intro worker gap member origin isOrigin
      rcases called.gaps worker gap member with
        ⟨isNew, -⟩ | ⟨earlier, isEarlier, -, sameOrigin⟩
      · rw [isNew] at isOrigin
        cases isOrigin
        exact called.scheduled
      · rw [← sameOrigin] at isOrigin
        have wasScheduled :=
          settled.origins worker earlier isEarlier origin isOrigin
        rw [sameScheduled origin (different origin wasScheduled)]
        exact wasScheduled
    predecessors := by
      intro action predecessor member
      by_cases isAction : action = call.assigned.action
      · subst isAction
        obtain ⟨notAction, wasScheduled, -⟩ :=
          called.predecessors predecessor member
        rw [sameScheduled predecessor notAction]
        exact ⟨called.scheduled, wasScheduled⟩
      · rw [(called.others action isAction).2] at member
        obtain ⟨wasScheduled, predecessorScheduled⟩ :=
          settled.predecessors action predecessor member
        rw [sameScheduled action isAction,
          sameScheduled predecessor (different predecessor predecessorScheduled)]
        exact ⟨wasScheduled, predecessorScheduled⟩
    awaited := by
      intro action predecessor member
      have predecessorScheduled :
          (history.table predecessor).scheduled = true := by
        by_cases isAction : action = call.assigned.action
        · subst isAction
          exact (called.awaited predecessor member).1
        · rw [called.awaitedOthers action isAction] at member
          exact settled.awaited action predecessor member
      rw [sameScheduled predecessor (different predecessor predecessorScheduled)]
      exact predecessorScheduled }

end PlanningHistory

/-- An action that is scheduled is not scheduled again. -/
def planningSystem
    (dynamic : DynamicResources Resources)
    (descriptions : WorkerId → Resources) :
    TransitionSystem (PlanningHistory Resources) (ScheduleCall Resources) where
  start := .new descriptions
  Enabled history call :=
    (history.table call.assigned.action).scheduled = false
  next := PlanningHistory.scheduleAction dynamic

/--
After any calls the gaps are in order and begin with the ends of their origins,
and the actions start after those that they wait for.  The gap of the whole
worker has no origin and begins before all times.
-/
theorem timely_of_run
    {descriptions : WorkerId → Resources}
    {calls : List (ScheduleCall Resources)}
    {history : PlanningHistory Resources}
    (run : Run (planningSystem dynamic descriptions) anyStep calls history) :
    history.Timely := by
  have settled : history.Settled := by
    apply run.invariant (.new descriptions)
    intro state call stateSettled notScheduled _
    exact stateSettled.step notScheduled (stateSettled.called notScheduled)
  exact settled.timely

/-- Resources that are a number of units -/
def unitResources : DynamicResources Nat where
  getDynamicCommons := min
  reduceDynamic := (· - ·)
  isDynamicUseless units := units = 0

/-- An action that takes one unit for 100 milliseconds -/
def unitCall
    (action : ActionId)
    (dataPredecessors : List ActionId) : ScheduleCall Nat where
  worker := 0
  assigned := ⟨action, dataPredecessors, 1, some 100⟩

theorem timely_twoCalls :
    ((((PlanningHistory.new fun _ => 1).scheduleAction unitResources
      (unitCall 0 [])).scheduleAction unitResources
        (unitCall 1 [0]))).Timely := by
  have notScheduled :
      (((PlanningHistory.new fun _ => 1).scheduleAction unitResources
        (unitCall 0 [])).table 1).scheduled = false := by
    decide
  have run :
      Run (planningSystem unitResources fun _ => 1) anyStep
        [unitCall 0 [], unitCall 1 [0]]
        (((PlanningHistory.new fun _ => 1).scheduleAction unitResources
          (unitCall 0 [])).scheduleAction unitResources (unitCall 1 [0])) :=
    (Run.start.snoc rfl trivial).snoc notScheduled trivial
  exact timely_of_run run

/--
The first gap begins neither at the end of an action nor at zero.  An action
whose data predecessor is scheduled later starts before that one ends.
-/
theorem not_timely_laterPredecessor :
    (((PlanningHistory.new fun _ => 2).workers 0).gaps.map
        fun gap : Gap Nat => (gap.origin, gap.initialTime)) =
      [(none, LONG_MIN_VALUE)] ∧
    LONG_MIN_VALUE ≠ 0 ∧
    let later :=
      ((PlanningHistory.new fun _ => 2).scheduleAction unitResources
        (unitCall 1 [0])).scheduleAction unitResources (unitCall 0 [])
    (later.table 0).scheduled = true ∧ (later.table 1).scheduled = true ∧
      (later.table 1).expectedStart < (later.table 0).expectedEnd := by
  refine ⟨by decide, by decide, ?_⟩
  decide

end DistributedRdf.Scheduling
