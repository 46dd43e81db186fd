import Mathlib.Data.List.Perm.Basic

namespace DistributedRdf.Dataflow

open List

/-!
# Execution orders of single-assignment programs

Each location is written by one task at most.  A task that runs after the
producers of the locations it reads then finds the same values there whatever
the order of the other tasks is.
-/

/-- What a task reads, and what it writes computed from what it read. -/
structure Program
    (Task : Type u)
    (Location : Type v)
    (Value : Type w) where
  reads : Task → List Location
  writes : Task → List Location
  compute : Task → List Value → Location → Value

variable
  {Task : Type u}
  {Location : Type v}
  {Value : Type w}
  [DecidableEq Location]

namespace Program

def inputs
    (program : Program Task Location Value)
    (store : Location → Value)
    (task : Task) : List Value :=
  (program.reads task).map store

def execute
    (program : Program Task Location Value)
    (store : Location → Value)
    (task : Task) : Location → Value :=
  fun location =>
    if location ∈ program.writes task then
      program.compute task (program.inputs store task) location
    else
      store location

def executeAll
    (program : Program Task Location Value)
    (store : Location → Value)
    (order : List Task) : Location → Value :=
  order.foldl program.execute store

/-- No location is written by two tasks. -/
def SingleAssignment (program : Program Task Location Value) : Prop :=
  ∀ first second location,
    location ∈ program.writes first → location ∈ program.writes second →
      first = second

/--
Every task of the order runs after the other tasks of the order that write a
location it reads.
-/
def ProducersFirst
    (program : Program Task Location Value)
    (order : List Task) : Prop :=
  ∀ earlier task later, order = earlier ++ task :: later →
    ∀ producer location, producer ∈ order →
      location ∈ program.reads task → location ∈ program.writes producer →
        producer = task ∨ producer ∈ earlier

variable {program : Program Task Location Value}

theorem executeAll_append
    (store : Location → Value)
    (first second : List Task) :
    program.executeAll store (first ++ second) =
      program.executeAll (program.executeAll store first) second := by
  simp [executeAll, foldl_append]

variable
  {store : Location → Value}
  {location : Location}

theorem executeAll_unwritten
    {order : List Task}
    (unwritten :
      ∀ task, task ∈ order → location ∉ program.writes task) :
    program.executeAll store order location = store location := by
  induction order generalizing store with
  | nil => rfl
  | cons task rest hypothesis =>
      have restUnwritten :
          ∀ other, other ∈ rest → location ∉ program.writes other := by
        intro other member
        exact unwritten other (mem_cons_of_mem task member)
      have taskUnwritten : location ∉ program.writes task :=
        unwritten task mem_cons_self
      change program.executeAll (program.execute store task) rest location = _
      rw [hypothesis restUnwritten]
      simp [execute, taskUnwritten]

/-- After its producer a location keeps what the producer computed. -/
theorem executeAll_written
    {earlier later : List Task}
    {producer : Task}
    (single : program.SingleAssignment)
    (once : producer ∉ later)
    (written : location ∈ program.writes producer) :
    program.executeAll store (earlier ++ producer :: later) location =
      program.compute producer
        (program.inputs (program.executeAll store earlier) producer)
        location := by
  have laterUnwritten :
      ∀ task, task ∈ later → location ∉ program.writes task := by
    intro task member writesToo
    have same := single producer task location written writesToo
    exact once (same ▸ member)
  rw [executeAll_append]
  change program.executeAll
    (program.execute (program.executeAll store earlier) producer) later
      location = _
  rw [executeAll_unwritten laterUnwritten]
  simp [execute, written]

variable (store)

/--
Two orders of the same tasks give each task the same inputs if both run the
producers first.
-/
theorem inputs_eq_of_producersFirst
    (single : program.SingleAssignment)
    {order other : List Task}
    (orderNodup : order.Nodup)
    (sameTasks : order.Perm other)
    (producersFirst : program.ProducersFirst order)
    (otherProducersFirst : program.ProducersFirst other)
    {task : Task}
    {earlier later otherEarlier otherLater : List Task}
    (split : order = earlier ++ task :: later)
    (otherSplit : other = otherEarlier ++ task :: otherLater) :
    program.inputs (program.executeAll store earlier) task =
      program.inputs (program.executeAll store otherEarlier) task := by
  have otherNodup : other.Nodup := sameTasks.nodup_iff.mp orderNodup
  -- Strong induction on the position of the task in the first order.
  induction size : earlier.length using Nat.strongRecOn
    generalizing task earlier later otherEarlier otherLater with
  | _ size hypothesis =>
      apply map_congr_left
      intro location isRead
      have notTwice : task ∉ earlier := by
        rw [split] at orderNodup
        intro member
        have distinct := (nodup_append.mp orderNodup).2.2
        exact distinct task member task (by simp) rfl
      have otherNotTwice : task ∉ otherEarlier := by
        rw [otherSplit] at otherNodup
        intro member
        have distinct := (nodup_append.mp otherNodup).2.2
        exact distinct task member task (by simp) rfl
      by_cases produced :
          ∃ producer, producer ∈ earlier ∧ location ∈ program.writes producer
      · rcases produced with ⟨producer, member, written⟩
        have inOrder : producer ∈ order := by
          rw [split]
          simp [member]
        have different : producer ≠ task := by
          intro same
          exact notTwice (same ▸ member)
        have inOtherEarlier : producer ∈ otherEarlier :=
          (otherProducersFirst otherEarlier task otherLater otherSplit
            producer location (sameTasks.mem_iff.mp inOrder) isRead
            written).resolve_left different
        rcases append_of_mem member with ⟨before, between, rfl⟩
        rcases append_of_mem inOtherEarlier with
          ⟨otherBefore, otherBetween, rfl⟩
        have once : producer ∉ between := by
          intro again
          rw [split, append_assoc] at orderNodup
          have tailNodup := (nodup_append.mp orderNodup).2.1
          rw [cons_append, nodup_cons] at tailNodup
          exact tailNodup.1 (by simp [again])
        have otherOnce : producer ∉ otherBetween := by
          intro again
          rw [otherSplit, append_assoc] at otherNodup
          have tailNodup := (nodup_append.mp otherNodup).2.1
          rw [cons_append, nodup_cons] at tailNodup
          exact tailNodup.1 (by simp [again])
        rw [executeAll_written single once written,
          executeAll_written single otherOnce written]
        rw [hypothesis before.length (by simp [← size])
          (by rw [split, append_assoc, cons_append])
          (by rw [otherSplit, append_assoc, cons_append]) rfl]
      · have unwritten :
            ∀ other, other ∈ earlier → location ∉ program.writes other := by
          intro other member written
          exact produced ⟨other, member, written⟩
        have otherUnwritten :
            ∀ producer, producer ∈ otherEarlier →
              location ∉ program.writes producer := by
          intro producer member written
          have inOther : producer ∈ other := by
            rw [otherSplit]
            simp [member]
          rcases producersFirst earlier task later split producer location
              (sameTasks.mem_iff.mpr inOther) isRead written with
            same | inEarlier
          · exact otherNotTwice (same ▸ member)
          · exact produced ⟨producer, inEarlier, written⟩
        rw [executeAll_unwritten unwritten,
          executeAll_unwritten otherUnwritten]

end Program

end DistributedRdf.Dataflow
