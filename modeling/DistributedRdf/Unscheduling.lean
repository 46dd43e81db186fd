import DistributedRdf.Bypass
import DistributedRdf.GapTimes

namespace DistributedRdf.Scheduling

open Execution Graphs SchedulingTable FullGraphSchedulingInformation List
open FullGraphResourceScheduler

/-!
# Actions taken out of a schedule

The resource dependencies of the actions of a worker are a graph without cycles,
in which an edge may occur several times.  Taking an action out joins those that
it waits for to those that wait for it.
-/

namespace SchedulingTable

variable
  {table : SchedulingTable}
  {action predecessor successor other : ActionId}
  {predecessors : List ActionId}

/-!
## One successor
-/

theorem scheduled_linkSuccessor (other : ActionId) :
    (linkSuccessor action predecessors successor table other).scheduled =
      (table other).scheduled := by
  refine (scheduled_linkAll other).trans ?_
  by_cases same : other = successor
  · subst same
    rw [modify_self]
    rfl
  · rw [modify_of_ne same]

section

variable (scheduled : ∀ first ∈ predecessors, (table first).scheduled)

include scheduled

theorem linkSuccessor_scheduled :
    ∀ first ∈ predecessors,
      (linkSuccessor action predecessors successor table first).scheduled := by
  intro first member
  rw [scheduled_linkSuccessor]
  exact scheduled first member

theorem scheduled_modify_removePredecessor :
    ∀ first ∈ predecessors,
      (table.modify successor (·.removePredecessor action) first).scheduled := by
  intro first member
  by_cases same : first = successor
  · subst same
    rw [modify_self]
    exact scheduled first member
  · rw [modify_of_ne same]
    exact scheduled first member

theorem predecessors_linkSuccessor
    (other : ActionId) :
    (linkSuccessor action predecessors successor table
        other).resourcePredecessors =
      if other = successor then
        (table other).resourcePredecessors.erase action ++ predecessors
      else (table other).resourcePredecessors := by
  refine (predecessors_linkAll
    (scheduled_modify_removePredecessor scheduled) other).trans ?_
  by_cases same : other = successor
  · subst same
    rw [modify_self, if_pos rfl, if_pos rfl]
    rfl
  · rw [modify_of_ne same, if_neg same, if_neg same, append_nil]

theorem successors_linkSuccessor
    (other : ActionId) :
    (linkSuccessor action predecessors successor table
        other).resourceSuccessors =
      (table other).resourceSuccessors ++
        replicate (predecessors.count other) successor := by
  refine (successors_linkAll
    (scheduled_modify_removePredecessor scheduled) other).trans ?_
  by_cases same : other = successor
  · subst same
    rw [modify_self]
    rfl
  · rw [modify_of_ne same]

end

/-!
## All successors
-/

variable
  {successors : List ActionId}

/-- The table when the successors have been linked -/
def linked
    (table : SchedulingTable)
    (action : ActionId)
    (predecessors successors : List ActionId) : SchedulingTable :=
  (linkSuccessors action predecessors successors table).1

variable (rest : List ActionId)

theorem linked_cons :
    table.linked action predecessors (successor :: rest) =
      (linkSuccessor action predecessors successor table).linked action
        predecessors rest := by
  simp only [linked, linkSuccessors]
  split
  · rfl
  · rfl

theorem scheduled_linked (other : ActionId) :
    (table.linked action predecessors successors other).scheduled =
      (table other).scheduled := by
  induction successors generalizing table with
  | nil => rfl
  | cons first rest hypothesis =>
      rw [linked_cons, hypothesis, scheduled_linkSuccessor]

section

variable (scheduled : ∀ first ∈ predecessors, (table first).scheduled)

include scheduled

theorem predecessors_linked_of_not_mem
    (notSuccessor : other ∉ successors) :
    (table.linked action predecessors successors
        other).resourcePredecessors =
      (table other).resourcePredecessors := by
  induction successors generalizing table with
  | nil => rfl
  | cons first rest hypothesis =>
      rw [mem_cons, not_or] at notSuccessor
      obtain ⟨notFirst, notRest⟩ := notSuccessor
      rw [linked_cons,
        hypothesis (linkSuccessor_scheduled scheduled) notRest,
        predecessors_linkSuccessor scheduled, if_neg notFirst]

/-- Each occurrence of a successor adds all predecessors to its list. -/
theorem count_predecessors_linked
    (different : other ≠ action)
    (second : ActionId) :
    (table.linked action predecessors successors
        second).resourcePredecessors.count other =
      (table second).resourcePredecessors.count other +
        successors.count second * predecessors.count other := by
  induction successors generalizing table with
  | nil => simp [linked, linkSuccessors]
  | cons first rest hypothesis =>
      rw [linked_cons, hypothesis (linkSuccessor_scheduled scheduled),
        predecessors_linkSuccessor scheduled]
      by_cases same : second = first
      · subst same
        rw [if_pos rfl, count_append, count_erase_of_ne different,
          count_cons_self]
        ring
      · rw [if_neg same, count_cons_of_ne (Ne.symm same)]

/-- Each occurrence of a successor takes the action out of its list once. -/
theorem count_action_linked
    (noLoop : action ∉ predecessors)
    (second : ActionId) :
    (table.linked action predecessors successors
        second).resourcePredecessors.count action =
      (table second).resourcePredecessors.count action -
        successors.count second := by
  induction successors generalizing table with
  | nil => simp [linked, linkSuccessors]
  | cons first rest hypothesis =>
      rw [linked_cons, hypothesis (linkSuccessor_scheduled scheduled),
        predecessors_linkSuccessor scheduled]
      by_cases same : second = first
      · subst same
        rw [if_pos rfl, count_append, count_erase_self,
          count_eq_zero_of_not_mem noLoop, count_cons_self]
        omega
      · rw [if_neg same, count_cons_of_ne (Ne.symm same)]

theorem count_successors_linked
    (second : ActionId) :
    (table.linked action predecessors successors
        other).resourceSuccessors.count second =
      (table other).resourceSuccessors.count second +
        successors.count second * predecessors.count other := by
  induction successors generalizing table with
  | nil => simp [linked, linkSuccessors]
  | cons first rest hypothesis =>
      rw [linked_cons, hypothesis (linkSuccessor_scheduled scheduled),
        successors_linkSuccessor scheduled]
      by_cases same : second = first
      · subst same
        rw [count_append, count_replicate_self,
          count_cons_self]
        ring
      · rw [count_append, count_cons_of_ne (Ne.symm same),
          count_replicate, if_neg (by simpa using Ne.symm same),
          Nat.add_zero]

end

/-!
## The predecessors
-/

theorem scheduled_removeFromPredecessors (other : ActionId) :
    (removeFromPredecessors action predecessors table other).scheduled =
      (table other).scheduled := by
  induction predecessors generalizing table with
  | nil => rfl
  | cons first rest hypothesis =>
      refine hypothesis.trans ?_
      by_cases same : other = first
      · subst same
        rw [modify_self]
        rfl
      · rw [modify_of_ne same]

theorem predecessors_removeFromPredecessors (other : ActionId) :
    (removeFromPredecessors action predecessors table
        other).resourcePredecessors =
      (table other).resourcePredecessors := by
  induction predecessors generalizing table with
  | nil => rfl
  | cons first rest hypothesis =>
      refine hypothesis.trans ?_
      by_cases same : other = first
      · subst same
        rw [modify_self]
        rfl
      · rw [modify_of_ne same]

/-- Each occurrence of a predecessor takes the action out of its list once. -/
theorem count_successors_removeFromPredecessors (second : ActionId) :
    (removeFromPredecessors action predecessors table
        other).resourceSuccessors.count second =
      (table other).resourceSuccessors.count second -
        if second = action then predecessors.count other else 0 := by
  induction predecessors generalizing table with
  | nil => simp [removeFromPredecessors]
  | cons first rest hypothesis =>
      refine hypothesis.trans ?_
      by_cases same : other = first
      · subst same
        rw [modify_self]
        by_cases isAction : second = action
        · subst isAction
          simp only [removeSuccessor,
            count_erase_self, count_cons_self, if_true]
          omega
        · simp only [removeSuccessor,
            count_erase_of_ne isAction, if_neg isAction]
      · rw [modify_of_ne same, count_cons_of_ne (Ne.symm same)]

/-!
## The tasks that are free
-/

/-- The tasks that are returned -/
def freed
    (table : SchedulingTable)
    (action : ActionId)
    (predecessors successors : List ActionId) : List ActionId :=
  (linkSuccessors action predecessors successors table).2

theorem freed_cons :
    table.freed action predecessors (successor :: rest) =
      if
          (linkSuccessor action predecessors successor table
            successor).isExecutable then
        successor ::
          (linkSuccessor action predecessors successor table).freed action
            predecessors rest
      else
        (linkSuccessor action predecessors successor table).freed action
          predecessors rest := by
  simp only [freed, linkSuccessors]
  split
  · rfl
  · rfl

/--
A successor is returned once: as long as it is to be linked again, it still
waits for the action.
-/
theorem freed_spec
    (scheduled : ∀ first ∈ predecessors, (table first).scheduled)
    (noLoop : action ∉ predecessors)
    (mirrored :
      ∀ second,
        (table second).resourcePredecessors.count action =
          successors.count second) :
    (table.freed action predecessors successors).Nodup ∧
      ∀ second,
        second ∈ table.freed action predecessors successors ↔
          second ∈ successors ∧
            (table.linked action predecessors successors
              second).resourcePredecessors = [] := by
  induction successors generalizing table with
  | nil => simp [freed, linkSuccessors]
  | cons first rest hypothesis =>
      have restMirrored :
          ∀ second,
            (linkSuccessor action predecessors first table
                second).resourcePredecessors.count action =
              rest.count second := by
        intro second
        rw [predecessors_linkSuccessor scheduled]
        by_cases same : second = first
        · subst same
          rw [if_pos rfl, count_append, count_erase_self, mirrored,
            count_eq_zero_of_not_mem noLoop, count_cons_self]
          rfl
        · rw [if_neg same, mirrored, count_cons_of_ne (Ne.symm same)]
      have restScheduled :
          ∀ member ∈ predecessors,
            (linkSuccessor action predecessors first table member).scheduled :=
        linkSuccessor_scheduled scheduled
      obtain ⟨nodup, members⟩ :=
        hypothesis restScheduled restMirrored
      rw [freed_cons, linked_cons]
      by_cases executable :
          (linkSuccessor action predecessors first table first).isExecutable
      · have waitsForNone :
            (linkSuccessor action predecessors first table
              first).resourcePredecessors = [] :=
          isEmpty_iff.mp executable
        have notRest : first ∉ rest := by
          have none := restMirrored first
          rw [waitsForNone, count_nil] at none
          exact count_eq_zero.mp none.symm
        rw [if_pos executable]
        refine ⟨nodup_cons.mpr ⟨?_, nodup⟩, ?_⟩
        · intro again
          exact notRest ((members first).mp again).1
        · intro second
          rw [mem_cons, mem_cons, members]
          by_cases same : second = first
          · subst same
            rw [predecessors_linked_of_not_mem restScheduled notRest]
            simp [waitsForNone]
          · simp [same]
      · have waits :
            (linkSuccessor action predecessors first table
              first).resourcePredecessors ≠ [] := by
          intro waitsForNone
          exact executable (isEmpty_iff.mpr waitsForNone)
        rw [if_neg executable]
        refine ⟨nodup, ?_⟩
        intro second
        rw [mem_cons, members]
        by_cases same : second = first
        · subst same
          by_cases later : second ∈ rest
          · simp [later]
          · rw [predecessors_linked_of_not_mem restScheduled later]
            simp [later, waits]
        · simp [same]

end SchedulingTable

/-!
## The whole operation
-/

/--
The resource dependencies of the actions of a worker: both sides know each
dependency, they are both scheduled, and there is no cycle.
-/
structure ResourceSchedule where
  table : SchedulingTable
  mirrored :
    ∀ first second,
      (table second).resourcePredecessors.count first =
        (table first).resourceSuccessors.count second
  acyclic : ∀ action, ¬ Relation.TransGen table.Precedes action action
  scheduled :
    ∀ first second, table.Precedes first second →
      (table first).scheduled ∧ (table second).scheduled

/-- What is promised of an action that is taken out -/
structure Unscheduled
    (before : SchedulingTable)
    (action : ActionId)
    (after : SchedulingTable)
    (freeTasks : List ActionId) : Prop where
  mirrored :
    ∀ first second,
      (after second).resourcePredecessors.count first =
        (after first).resourceSuccessors.count second
  notPredecessor : ∀ other, action ∉ (after other).resourcePredecessors
  notSuccessor : ∀ other, action ∉ (after other).resourceSuccessors
  noPredecessors : (after action).resourcePredecessors = []
  noSuccessors : (after action).resourceSuccessors = []
  connected :
    ∀ first second, first ≠ action → second ≠ action →
      (Relation.TransGen after.Precedes first second ↔
        Relation.TransGen before.Precedes first second)
  once : freeTasks.Nodup
  free :
    ∀ other,
      other ∈ freeTasks ↔
        other ∈ (before action).resourceSuccessors ∧
          (after other).resourcePredecessors = []

namespace ResourceSchedule

variable
  {schedule : ResourceSchedule}
  {action first second : ActionId}

theorem not_mem_predecessors (schedule : ResourceSchedule) (action : ActionId) :
    action ∉ (schedule.table action).resourcePredecessors :=
  fun loop => schedule.acyclic action (.single loop)

theorem not_mem_successors (schedule : ResourceSchedule) (action : ActionId) :
    action ∉ (schedule.table action).resourceSuccessors := by
  intro loop
  have count := schedule.mirrored action action
  rw [count_eq_zero_of_not_mem (schedule.not_mem_predecessors action)]
    at count
  exact count_eq_zero.mp count.symm loop

/-- The table of the other actions when the action has been taken out -/
def without (schedule : ResourceSchedule) (action : ActionId) : SchedulingTable :=
  (removeFromPredecessors action
    (schedule.table action).resourcePredecessors schedule.table).linked action
      (schedule.table action).resourcePredecessors
      (schedule.table action).resourceSuccessors

theorem removed_scheduled (schedule : ResourceSchedule) (action : ActionId) :
    ∀ first ∈ (schedule.table action).resourcePredecessors,
      (removeFromPredecessors action
        (schedule.table action).resourcePredecessors schedule.table
          first).scheduled := by
  intro first member
  rw [scheduled_removeFromPredecessors]
  exact (schedule.scheduled first action member).1

theorem count_predecessors_without (notAction : first ≠ action) :
    (schedule.without action second).resourcePredecessors.count first =
      (schedule.table second).resourcePredecessors.count first +
        (schedule.table action).resourceSuccessors.count second *
          (schedule.table action).resourcePredecessors.count first := by
  rw [without, count_predecessors_linked
    (schedule.removed_scheduled action) notAction,
    predecessors_removeFromPredecessors]

theorem count_action_without :
    (schedule.without action second).resourcePredecessors.count action = 0 := by
  rw [without, count_action_linked
    (schedule.removed_scheduled action) (schedule.not_mem_predecessors action),
    predecessors_removeFromPredecessors,
    schedule.mirrored action second, Nat.sub_self]

theorem count_successors_without (notAction : second ≠ action) :
    (schedule.without action first).resourceSuccessors.count second =
      (schedule.table first).resourceSuccessors.count second +
        (schedule.table action).resourceSuccessors.count second *
          (schedule.table action).resourcePredecessors.count first := by
  rw [without, count_successors_linked
    (schedule.removed_scheduled action),
    count_successors_removeFromPredecessors,
    if_neg notAction, Nat.sub_zero]

theorem count_action_successors_without :
    (schedule.without action first).resourceSuccessors.count action = 0 := by
  rw [without, count_successors_linked
    (schedule.removed_scheduled action),
    count_successors_removeFromPredecessors, if_pos rfl,
    schedule.mirrored first action, Nat.sub_self,
    count_eq_zero_of_not_mem (schedule.not_mem_successors action),
    Nat.zero_mul]

theorem mem_successors_iff :
    second ∈ (schedule.table action).resourceSuccessors ↔
      schedule.table.Precedes action second := by
  rw [SchedulingTable.Precedes, ← count_pos_iff, ← count_pos_iff,
    schedule.mirrored]

/-- The table when the action has been unscheduled -/
def after (schedule : ResourceSchedule) (action : ActionId) : SchedulingTable :=
  (schedule.without action).modify action (·.unscheduled)

theorem after_self :
    schedule.after action action = (schedule.without action action).unscheduled :=
  modify_self _

theorem after_of_ne (notAction : first ≠ action) :
    schedule.after action first = schedule.without action first :=
  modify_of_ne notAction _

theorem mirrored_after (first second : ActionId) :
    (schedule.after action second).resourcePredecessors.count first =
      (schedule.after action first).resourceSuccessors.count second := by
  by_cases secondIs : second = action
  · subst secondIs
    rw [after_self]
    by_cases firstIs : first = second
    · subst firstIs
      rw [after_self]
      rfl
    · rw [after_of_ne firstIs, count_action_successors_without]
      rfl
  · rw [after_of_ne secondIs]
    by_cases firstIs : first = action
    · subst firstIs
      rw [after_self, count_action_without]
      rfl
    · rw [after_of_ne firstIs, count_predecessors_without firstIs,
        count_successors_without secondIs, schedule.mirrored]

/-- What is left are the edges around the action. -/
theorem precedes_after_iff :
    (schedule.after action).Precedes first second ↔
      Bypass schedule.table.Precedes action first second := by
  rw [SchedulingTable.Precedes, ← count_pos_iff]
  by_cases secondIs : second = action
  · subst secondIs
    simp [after_self, unscheduled, Bypass]
  · rw [after_of_ne secondIs]
    by_cases firstIs : first = action
    · subst firstIs
      simp [count_action_without, Bypass]
    · rw [count_predecessors_without firstIs, Nat.add_pos_iff_pos_or_pos,
        CanonicallyOrderedAdd.mul_pos, count_pos_iff, count_pos_iff,
        count_pos_iff, mem_successors_iff]
      constructor
      · rintro (direct | ⟨fromAction, toAction⟩)
        · exact ⟨firstIs, secondIs, Or.inl direct⟩
        · exact ⟨firstIs, secondIs, Or.inr ⟨toAction, fromAction⟩⟩
      · rintro ⟨-, -, direct | ⟨toAction, fromAction⟩⟩
        · exact Or.inl direct
        · exact Or.inr ⟨fromAction, toAction⟩

theorem connected_after
    (firstNot : first ≠ action)
    (secondNot : second ≠ action) :
    Relation.TransGen (schedule.after action).Precedes first second ↔
      Relation.TransGen schedule.table.Precedes first second := by
  have edges :
      (schedule.after action).Precedes =
        Bypass schedule.table.Precedes action := by
    funext before next
    exact propext precedes_after_iff
  rw [edges]
  exact transGen_bypass_iff firstNot secondNot

/-- The tasks that become free when the action is unscheduled -/
def freeTasks (schedule : ResourceSchedule) (action : ActionId) : List ActionId :=
  (removeFromPredecessors action
    (schedule.table action).resourcePredecessors schedule.table).freed action
      (schedule.table action).resourcePredecessors
      (schedule.table action).resourceSuccessors

theorem freeTasks_spec (schedule : ResourceSchedule) (action : ActionId) :
    (schedule.freeTasks action).Nodup ∧
      ∀ other,
        other ∈ schedule.freeTasks action ↔
          other ∈ (schedule.table action).resourceSuccessors ∧
            (schedule.without action other).resourcePredecessors = [] := by
  refine freed_spec (schedule.removed_scheduled action)
    (schedule.not_mem_predecessors action) ?_
  intro second
  rw [predecessors_removeFromPredecessors,
    schedule.mirrored action second]

theorem unscheduled_after (schedule : ResourceSchedule) (action : ActionId) :
    Unscheduled schedule.table action (schedule.after action)
      (schedule.freeTasks action) where
  mirrored := mirrored_after
  notPredecessor := by
    intro other precedes
    exact (precedes_after_iff.mp precedes).1 rfl
  notSuccessor := by
    intro other member
    rw [← count_pos_iff, ← mirrored_after, count_pos_iff] at member
    exact (precedes_after_iff.mp member).2.1 rfl
  noPredecessors := by
    rw [after_self]
    rfl
  noSuccessors := by
    rw [after_self]
    rfl
  connected := fun first second firstNot secondNot =>
    connected_after firstNot secondNot
  once := (schedule.freeTasks_spec action).1
  free := by
    intro other
    rw [(schedule.freeTasks_spec action).2]
    by_cases isAction : other = action
    · subst isAction
      have notSuccessor := schedule.not_mem_successors other
      simp [notSuccessor]
    · rw [after_of_ne isAction]

end ResourceSchedule

/--
Whatever the graph of the resource dependencies, taking an action out leaves no
trace of it, keeps both sides of each dependency and all other connections, and
returns the successors that wait for nothing any more, each once.
-/
theorem unscheduleAction_unscheduled
    {Resources : Type}
    (scheduler : FullGraphResourceScheduler Resources)
    (schedule : ResourceSchedule)
    (action : ActionId) :
    Unscheduled schedule.table action
      (scheduler.unscheduleAction schedule.table action).2.1
      (scheduler.unscheduleAction schedule.table action).2.2 :=
  schedule.unscheduled_after action

/-!
## The schedules that are reached
-/

namespace ResourceSchedule

variable
  {action first second : ActionId}
  (schedule : ResourceSchedule)

/-- Only the lists and what is scheduled count. -/
def ofSameLists
    (table : SchedulingTable)
    (predecessors :
      ∀ action,
        (table action).resourcePredecessors =
          (schedule.table action).resourcePredecessors)
    (successors :
      ∀ action,
        (table action).resourceSuccessors =
          (schedule.table action).resourceSuccessors)
    (scheduled :
      ∀ action, (table action).scheduled = (schedule.table action).scheduled) :
    ResourceSchedule where
  table := table
  mirrored := by
    intro first second
    rw [predecessors, successors]
    exact schedule.mirrored first second
  acyclic := by
    have same : table.Precedes = schedule.table.Precedes := by
      funext first second
      rw [SchedulingTable.Precedes, SchedulingTable.Precedes, predecessors]
    rw [same]
    exact schedule.acyclic
  scheduled := by
    intro first second precedes
    rw [SchedulingTable.Precedes, predecessors] at precedes
    rw [scheduled, scheduled]
    exact schedule.scheduled first second precedes

/-- An action is taken out. -/
def unschedule (action : ActionId) :
    ResourceSchedule where
  table := schedule.after action
  mirrored := mirrored_after
  acyclic := by
    intro other cycle
    by_cases isAction : other = action
    · subst isAction
      obtain ⟨middle, -, toAction⟩ := Relation.TransGen.tail'_iff.mp cycle
      exact (precedes_after_iff.mp toAction).2.1 rfl
    · exact schedule.acyclic other ((connected_after isAction isAction).mp cycle)
  scheduled := by
    intro first second precedes
    obtain ⟨firstNot, secondNot, edge⟩ := precedes_after_iff.mp precedes
    have sameScheduled :
        ∀ other, other ≠ action →
          (schedule.after action other).scheduled =
            (schedule.table other).scheduled := by
      intro other notAction
      rw [after_of_ne notAction, without, scheduled_linked,
        scheduled_removeFromPredecessors]
    rw [sameScheduled first firstNot, sameScheduled second secondNot]
    rcases edge with direct | ⟨toAction, fromAction⟩
    · exact schedule.scheduled first second direct
    · exact ⟨(schedule.scheduled first action toAction).1,
        (schedule.scheduled action second fromAction).2⟩

variable {schedule}

/-- An action that is not scheduled has no dependencies. -/
theorem not_precedes_of_not_scheduled
    (notScheduled : (schedule.table action).scheduled = false) :
    ¬ schedule.table.Precedes action first ∧
      ¬ schedule.table.Precedes first action := by
  constructor
  · intro precedes
    have isScheduled := (schedule.scheduled _ _ precedes).1
    rw [notScheduled] at isScheduled
    exact absurd isScheduled (by simp)
  · intro precedes
    have isScheduled := (schedule.scheduled _ _ precedes).2
    rw [notScheduled] at isScheduled
    exact absurd isScheduled (by simp)

/-- The table with an action that waits for the predecessors -/
def adding
    (table : SchedulingTable)
    (action : ActionId)
    (predecessors : List ActionId) : SchedulingTable :=
  (table.modify action fun dsi => { dsi with scheduled := true }).linkAll action
    predecessors

/-- The predecessors that the action waits for -/
def waitedFor
    (table : SchedulingTable)
    (predecessors : List ActionId) : List ActionId :=
  predecessors.filter fun predecessor => (table predecessor).scheduled

variable
  {table : SchedulingTable}
  {predecessors : List ActionId}

theorem marked_eq (other : ActionId) :
    table.modify action (fun dsi => { dsi with scheduled := true }) other =
      { table other with
        scheduled := decide (other = action) || (table other).scheduled } := by
  by_cases isAction : other = action
  · subst isAction
    rw [modify_self]
    simp
  · rw [modify_of_ne isAction]
    simp [isAction]

section

variable (noLoop : action ∉ predecessors)

include noLoop

/-- An action is no predecessor of its own. -/
theorem filter_marked :
    (predecessors.filter fun predecessor =>
        (table.modify action (fun dsi => { dsi with scheduled := true })
          predecessor).scheduled) =
      waitedFor table predecessors := by
  apply filter_congr
  intro predecessor member
  have different : predecessor ≠ action := fun same => noLoop (same ▸ member)
  rw [marked_eq]
  simp [different]

variable (other : ActionId)

theorem predecessors_adding :
    (adding table action predecessors other).resourcePredecessors =
      (table other).resourcePredecessors ++
        if other = action then waitedFor table predecessors else [] := by
  rw [adding, predecessors_linkAll_filter,
    filter_marked noLoop, marked_eq]

theorem successors_adding :
    (adding table action predecessors other).resourceSuccessors =
      (table other).resourceSuccessors ++
        replicate ((waitedFor table predecessors).count other) action := by
  rw [adding, successors_linkAll_filter,
    filter_marked noLoop, marked_eq]

omit noLoop in
theorem scheduled_adding :
    (adding table action predecessors other).scheduled =
      (decide (other = action) || (table other).scheduled) := by
  rw [adding, scheduled_linkAll, marked_eq]

theorem precedes_adding :
    (adding table action predecessors).Precedes first second ↔
      table.Precedes first second ∨
        second = action ∧ first ∈ waitedFor table predecessors := by
  rw [SchedulingTable.Precedes, predecessors_adding noLoop, mem_append]
  by_cases isAction : second = action
  · simp [isAction, SchedulingTable.Precedes]
  · simp [isAction, SchedulingTable.Precedes]

end

/-- A path to another action does not lead through the new one. -/
theorem transGen_of_adding
    (notScheduled : (schedule.table action).scheduled = false)
    (noLoop : action ∉ predecessors)
    (path :
      Relation.TransGen (adding schedule.table action predecessors).Precedes
        first second)
    (notAction : second ≠ action) :
    Relation.TransGen schedule.table.Precedes first second := by
  induction path with
  | single precedes =>
      rcases (precedes_adding noLoop).mp precedes with direct | ⟨isAction, -⟩
      · exact .single direct
      · exact absurd isAction notAction
  | @tail middle last path precedes hypothesis =>
      rcases (precedes_adding noLoop).mp precedes with direct | ⟨isAction, -⟩
      · have middleNot : middle ≠ action := by
          rintro rfl
          exact (not_precedes_of_not_scheduled notScheduled).1 direct
        exact .tail (hypothesis middleNot) direct
      · exact absurd isAction notAction

variable (schedule)

/-- An action is added that waits for scheduled ones. -/
def add
    (action : ActionId)
    (notScheduled : (schedule.table action).scheduled = false)
    (predecessors : List ActionId)
    (noLoop : action ∉ predecessors) : ResourceSchedule where
  table := adding schedule.table action predecessors
  mirrored := by
    intro first second
    rw [predecessors_adding noLoop, successors_adding noLoop,
      count_append, count_append, schedule.mirrored]
    by_cases isAction : second = action
    · subst isAction
      rw [if_pos rfl, count_replicate_self]
    · rw [if_neg isAction, count_nil,
        count_replicate, if_neg (by simpa using Ne.symm isAction)]
  acyclic := by
    intro other cycle
    by_cases isAction : other = action
    · subst isAction
      obtain ⟨middle, fromAction, -⟩ := Relation.TransGen.head'_iff.mp cycle
      rcases (precedes_adding noLoop).mp fromAction with direct | ⟨-, member⟩
      · exact (not_precedes_of_not_scheduled notScheduled).1 direct
      · exact noLoop (mem_filter.mp member).1
    · exact schedule.acyclic other
        (transGen_of_adding notScheduled noLoop cycle isAction)
  scheduled := by
    intro first second precedes
    rw [scheduled_adding, scheduled_adding]
    rcases (precedes_adding noLoop).mp precedes with direct | ⟨isAction, member⟩
    · obtain ⟨firstScheduled, secondScheduled⟩ :=
        schedule.scheduled first second direct
      simp [firstScheduled, secondScheduled]
    · have firstScheduled := (mem_filter.mp member).2
      simp [firstScheduled, isAction]

/-- An action that no gap originates from is added to the schedule. -/
theorem exists_scheduled
    {Resources : Type}
    (dynamic : DynamicResources Resources)
    (schedule : ResourceSchedule)
    (assigned : AssignedAction Resources)
    (gaps : List (Gap Resources))
    (notScheduled : (schedule.table assigned.action).scheduled = false)
    (noOrigin : ∀ gap ∈ gaps, gap.origin ≠ some assigned.action) :
    ∃ later : ResourceSchedule,
      later.table =
        (scheduleUsingGaps dynamic assigned gaps schedule.table).2 := by
  let predecessors :=
    (takeFromGaps dynamic gaps
      (latestEnd schedule.table 0 assigned.dataPredecessors)
      assigned.requirements).2
  have noLoop : assigned.action ∉ predecessors := by
    intro loop
    obtain ⟨gap, member, isOrigin⟩ := predecessors_takeFromGaps loop
    exact noOrigin gap member isOrigin
  have sameLists :
      ∀ other,
        ((scheduleUsingGaps dynamic assigned gaps schedule.table).2
              other).resourcePredecessors =
            ((schedule.add assigned.action notScheduled predecessors
              noLoop).table other).resourcePredecessors ∧
          ((scheduleUsingGaps dynamic assigned gaps schedule.table).2
              other).resourceSuccessors =
            ((schedule.add assigned.action notScheduled predecessors
              noLoop).table other).resourceSuccessors ∧
          ((scheduleUsingGaps dynamic assigned gaps schedule.table).2
              other).scheduled =
            ((schedule.add assigned.action notScheduled predecessors
              noLoop).table other).scheduled := by
    intro other
    rw [scheduleUsingGaps]
    by_cases isAction : other = assigned.action
    · subst isAction
      simp only [modify_self]
      exact ⟨rfl, rfl, rfl⟩
    · simp only [modify_of_ne isAction]
      exact ⟨rfl, rfl, rfl⟩
  exact ⟨(schedule.add assigned.action notScheduled predecessors
    noLoop).ofSameLists _ (fun other => (sameLists other).1)
      (fun other => (sameLists other).2.1) (fun other => (sameLists other).2.2),
    rfl⟩

/-- No action is scheduled. -/
def empty : ResourceSchedule where
  table _ := .new
  mirrored := fun _ _ => rfl
  acyclic := by
    intro action cycle
    obtain ⟨middle, precedes, -⟩ := Relation.TransGen.head'_iff.mp cycle
    exact not_mem_nil precedes
  scheduled := fun _ _ precedes => absurd precedes not_mem_nil

end ResourceSchedule

variable (Resources : Type)

/-- What the scheduler of one worker plans -/
structure WorkerPlan where
  scheduler : FullGraphResourceScheduler Resources
  table : SchedulingTable

inductive PlanAction where
  | schedule (assigned : AssignedAction Resources)
  | unschedule (action : ActionId)

variable
  {Resources}
  (dynamic : DynamicResources Resources)

/-- The gaps do not originate from an action that is scheduled anew. -/
def workerPlanSystem
    (description : Resources) :
    TransitionSystem (WorkerPlan Resources) (PlanAction Resources) where
  start := ⟨.new description, fun _ => .new⟩
  Enabled plan planAction :=
    match planAction with
    | .schedule assigned =>
        (plan.table assigned.action).scheduled = false ∧
          ∀ gap ∈ plan.scheduler.gaps, gap.origin ≠ some assigned.action
    | .unschedule _ => True
  next plan planAction :=
    match planAction with
    | .schedule assigned =>
        let (scheduler, table) :=
          plan.scheduler.scheduleAction dynamic plan.table assigned
        ⟨scheduler, table⟩
    | .unschedule action =>
        let (scheduler, table, _) :=
          plan.scheduler.unscheduleAction plan.table action
        ⟨scheduler, table⟩

variable {dynamic}

/-- What a worker plans is always a schedule. -/
theorem exists_schedule_of_run
    {description : Resources}
    {planActions : List (PlanAction Resources)}
    {plan : WorkerPlan Resources}
    (run :
      Run (workerPlanSystem dynamic description) anyStep planActions plan) :
    ∃ schedule : ResourceSchedule, schedule.table = plan.table := by
  have invariant :
      plan.scheduler.opAction = none ∧
        ∃ schedule : ResourceSchedule, schedule.table = plan.table := by
    apply run.invariant ⟨rfl, .empty, rfl⟩
    rintro ⟨scheduler, _⟩ planAction ⟨notOptimized, schedule, rfl⟩ enabled _
    cases planAction with
    | schedule assigned =>
        obtain ⟨later, isLater⟩ :=
          schedule.exists_scheduled dynamic assigned scheduler.gaps enabled.1
            enabled.2
        have notOptimized : scheduler.opAction = none := notOptimized
        simp only [workerPlanSystem, scheduleAction,
          notOptimized]
        exact ⟨trivial, later, isLater⟩
    | unschedule action => exact ⟨notOptimized, schedule.unschedule action, rfl⟩
  exact invariant.2

theorem exists_schedule_unscheduledFirst :
    ∃ schedule : ResourceSchedule,
      schedule.table =
        ((workerPlanSystem unitResources 1).after
          [.schedule (unitCall 0 []).assigned,
            .schedule (unitCall 1 [0]).assigned, .unschedule 0]).table :=
  exists_schedule_of_run (run_of_executable
    ⟨⟨⟨rfl, by decide⟩, trivial⟩, ⟨⟨by decide, by decide⟩, trivial⟩,
      ⟨trivial, trivial⟩, trivial⟩)

end DistributedRdf.Scheduling
