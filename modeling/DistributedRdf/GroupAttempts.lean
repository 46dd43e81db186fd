import DistributedRdf.FallibleSteps
import DistributedRdf.MultiNodeGroups

namespace DistributedRdf.Scheduling

open Java Execution MultiNodeGroup RegisteredSlave

/-!
# Groups whose actions are started once

The counter of the group stands at the number of actions that have not
registered yet.  As long as no action is started again, the last of them gets
the id of the master.
-/

namespace MultiNodeGroup

variable
  {group : MultiNodeGroup}
  {action : ActionId}
  (action)

theorem registerProcess_master
    (isLast : group.nextProcessId = MASTER_GROUP_ID) :
    group.registerProcess action =
      ({ group with
          nextProcessId := group.nextProcessId - 1
          registeredMaster := some action }, MASTER_GROUP_ID) := by
  simp only [registerProcess, isLast, if_true]

theorem registerProcess_slave
    (notLast : group.nextProcessId ≠ MASTER_GROUP_ID) :
    group.registerProcess action =
      ({ group with
          nextProcessId := group.nextProcessId - 1
          registeredSlaves :=
            group.registeredSlaves.put ⟨group.nextProcessId, action⟩ },
        group.nextProcessId) := by
  simp only [registerProcess, notLast, if_false]

variable {action}

/-- The size of the group does not change. -/
@[simp] theorem registerProcess_groupSize :
    (group.registerProcess action).1.groupSize = group.groupSize := by
  by_cases isLast : group.nextProcessId = MASTER_GROUP_ID
  · rw [registerProcess_master action isLast]
  · rw [registerProcess_slave action isLast]

@[simp] theorem registerProcess_nextProcessId :
    (group.registerProcess action).1.nextProcessId =
      group.nextProcessId - 1 := by
  by_cases isLast : group.nextProcessId = MASTER_GROUP_ID
  · rw [registerProcess_master action isLast]
  · rw [registerProcess_slave action isLast]

/-- A process id that was not handed out before is added at the end. -/
theorem values_put_of_forall_ne
    {slaves : KeyedMap processId}
    {slave : RegisteredSlave}
    (isNew : ∀ other ∈ slaves.values, other.processId ≠ slave.processId) :
    (slaves.put slave).values = slaves.values ++ [slave] := by
  have unchanged :
      slaves.values.filter (·.processId ≠ slave.processId) = slaves.values :=
    List.filter_eq_self.mpr fun other isOther =>
      decide_eq_true (isNew other isOther)
  change slaves.values.filter _ ++ [slave] = _
  rw [unchanged]

end MultiNodeGroup

@[simp] theorem eventsOf_nil (attempt : Nat) :
    eventsOf attempt ([] : List (InAttempt α)) = [] := rfl

variable {attempt : Nat}

@[simp] theorem eventsOf_map_mk
    {events : List α} :
    eventsOf attempt (events.map (InAttempt.mk attempt)) = events := by
  induction events with
  | nil => rfl
  | cons event rest hypothesis => simpa [eventsOf] using hypothesis

theorem eventsOf_eq_nil
    {events : List (InAttempt α)}
    (different : ∀ event ∈ events, event.attempt ≠ attempt) :
    eventsOf attempt events = [] := by
  rw [eventsOf, List.map_eq_nil_iff, List.filter_eq_nil_iff]
  exact fun event isEvent => by simpa using different event isEvent

namespace GroupHistory

variable {history : GroupHistory}

section Update

variable
  {action other : ActionId}
  {change : MultiNodeExecutionAction → MultiNodeExecutionAction}

@[simp] theorem actions_update_self :
    (history.update action change).actions action =
      change (history.actions action) :=
  Function.update_self ..

theorem actions_update_of_ne
    (different : other ≠ action) :
    (history.update action change).actions other = history.actions other :=
  Function.update_of_ne different ..

/-- A change that keeps a field of an action keeps it in all of them. -/
theorem field_update
    {β : Type}
    {field : MultiNodeExecutionAction → β}
    (kept : ∀ node, field (change node) = field node)
    (other : ActionId) :
    field ((history.update action change).actions other) =
      field (history.actions other) := by
  by_cases same : other = action
  · rw [same, actions_update_self, kept]
  · rw [actions_update_of_ne same]

end Update

/-- Every action has been started at most once. -/
structure StartedOnce (history : GroupHistory) : Prop where
  attempts : ∀ registration ∈ history.registrations, registration.attempt = 1
  distinct : (history.registrations.map (·.action)).Nodup
  below :
    ∀ action ∈ history.registrations.map (·.action),
      action < history.group.groupSize
  counter :
    history.group.nextProcessId =
      history.group.groupSize - history.registrations.length

theorem attempt_eq_zero_iff {action : ActionId} :
    history.attempt action = 0 ↔
      action ∉ history.registrations.map (·.action) := by
  simp [attempt, List.countP_eq_zero]

theorem StartedOnce.attempt_eq_one
    (startedOnce : history.StartedOnce)
    {action : ActionId}
    (registered : action ∈ history.registrations.map (·.action)) :
    history.attempt action = 1 := by
  have counted :
      history.attempt action =
        (history.registrations.map (·.action)).count action := by
    simp [attempt, List.count, List.countP_map, Function.comp_def, beq_eq_decide]
  rw [counted]
  exact List.count_eq_one_of_mem startedOnce.distinct registered

/-- There is an id left for an action that is started first. -/
theorem StartedOnce.length_lt
    (startedOnce : history.StartedOnce)
    {action : ActionId}
    (isBelow : action < history.group.groupSize)
    (isNew : action ∉ history.registrations.map (·.action)) :
    history.registrations.length < history.group.groupSize := by
  have distinct : (action :: history.registrations.map (·.action)).Nodup :=
    List.nodup_cons.mpr ⟨isNew, startedOnce.distinct⟩
  have allBelow :
      action :: history.registrations.map (·.action) ⊆
        List.range history.group.groupSize := by
    intro other isOther
    rw [List.mem_range]
    rcases List.mem_cons.mp isOther with rfl | isOther
    · exact isBelow
    · exact startedOnce.below other isOther
  have shorter := (List.subperm_of_subset distinct allBelow).length_le
  simp only [List.length_cons, List.length_map, List.length_range] at shorter
  exact shorter

/-- When all of the ids are handed out, all of the actions are members. -/
theorem StartedOnce.members
    (startedOnce : history.StartedOnce)
    (complete :
      history.registrations.length = history.group.groupSize) :
    (history.registrations.map (·.action)).Perm
      (List.range history.group.groupSize) := by
  have allBelow :
      history.registrations.map (·.action) ⊆
        List.range history.group.groupSize :=
    fun action isMember => List.mem_range.mpr (startedOnce.below action isMember)
  have subperm := List.subperm_of_subset startedOnce.distinct allBelow
  exact subperm.perm_of_length_le (by simp [complete])

variable (history)

/-- The slaves that the group knows, with ids that it does not hand out again -/
structure Gathered
    (slaves : List Registration) : Prop where
  known :
    history.group.registeredSlaves.values =
      slaves.map fun slave => ⟨slave.processId, slave.action⟩
  handedOut :
    ∀ slave ∈ slaves,
      MASTER_GROUP_ID < slave.processId ∧
        history.group.nextProcessId < slave.processId
  nodes :
    ∀ slave ∈ slaves,
      (history.actions slave.action).multiNodeId = slave.processId

/-- All that registered are where they were started, and nobody was notified. -/
structure Quiet : Prop where
  assigned :
    ∀ registration ∈ history.registrations,
      (history.actions registration.action).assignedResource =
        some registration.worker
  requests : history.requests = []
  ends : history.ends = []
  notifications : history.notifications = []

/-- How far the master has come -/
inductive Launch
    (slaves : List Registration)
    (master : Registration) : Prop where
  | transferring
      (stage : (history.actions master.action).stage = .transferring)
      (quiet : history.Quiet)
      (jobs : history.jobs = [])
  | submitted
      (stage : (history.actions master.action).stage = .submitted)
      (quiet : history.Quiet)
      (jobs :
        history.jobs =
          [⟨1, master.action, some master.worker, slaves.map (·.worker)⟩])
  | ended
      (jobEnd : JobEnd)
      (stage : (history.actions master.action).stage = .idle)
      (ends : history.ends = [⟨1, jobEnd⟩])
      (notifications :
        history.notifications =
          ((slaves ++ [master]).map fun member =>
            (member.action, jobEnd)).map (InAttempt.mk 1))
      (jobs :
        history.jobs =
            [⟨1, master.action, some master.worker, slaves.map (·.worker)⟩] ∨
          history.jobs = [] ∧ jobEnd ≠ .completed)

/-- All of the actions have registered. -/
structure Complete
    (slaves : List Registration)
    (master : Registration) : Prop where
  registered : history.registrations = slaves ++ [master]
  length : slaves.length + 1 = history.group.groupSize
  gathered : history.Gathered slaves
  isMaster : master.IsMaster
  masterNode :
    (history.actions master.action).multiNodeId = MASTER_GROUP_ID
  idle :
    ∀ action, action ≠ master.action →
      (history.actions action).stage = .idle

variable {history}

/-- How far the group has come -/
inductive GroupProgress (history : GroupHistory) : Prop where
  | gathering
      (gathered : history.Gathered history.registrations)
      (incomplete :
        history.registrations ≠ [] →
          history.registrations.length < history.group.groupSize)
      (idle : ∀ action, (history.actions action).stage = .idle)
      (quiet : history.Quiet)
      (jobs : history.jobs = [])
  | launched
      (slaves : List Registration)
      (master : Registration)
      (complete : history.Complete slaves master)
      (launch : history.Launch slaves master)

/-!
## A start
-/

section Start

variable
  {action : ActionId}
  {worker : WorkerId}
  {waited : Bool}

@[simp] theorem start_group :
    (history.start action worker waited).group =
      (history.group.registerProcess action).1 := rfl

@[simp] theorem start_registrations :
    (history.start action worker waited).registrations =
      history.registrations ++
        [⟨action, worker, (history.group.registerProcess action).2,
          history.attempt action + 1⟩] := rfl

theorem start_actions_of_ne
    {other : ActionId}
    (different : other ≠ action) :
    (history.start action worker waited).actions other =
      history.actions other :=
  Function.update_of_ne different ..

theorem start_multiNodeId :
    ((history.start action worker waited).actions action).multiNodeId =
      (history.group.registerProcess action).2 := by
  simp [start, update]

theorem start_assignedResource :
    ((history.start action worker waited).actions action).assignedResource =
      some worker := by
  simp [start, update]

theorem start_stage :
    ((history.start action worker waited).actions action).stage =
      if (history.group.registerProcess action).2 = MASTER_GROUP_ID then
        .transferring
      else (history.actions action).stage := by
  simp [start, update]

theorem StartedOnce.start
    (startedOnce : history.StartedOnce)
    (isBelow : action < history.group.groupSize)
    (isNew : action ∉ history.registrations.map (·.action)) :
    (history.start action worker waited).StartedOnce where
  attempts := by
    intro registration registered
    rw [start_registrations, List.mem_append, List.mem_singleton] at registered
    rcases registered with registered | rfl
    · exact startedOnce.attempts registration registered
    · exact congrArg (· + 1) (attempt_eq_zero_iff.mpr isNew)
  distinct := by
    rw [start_registrations, List.map_append]
    refine startedOnce.distinct.append (List.nodup_singleton _) ?_
    exact List.disjoint_singleton.mpr isNew
  below := by
    intro other registered
    rw [start_group, registerProcess_groupSize]
    rw [start_registrations, List.map_append, List.mem_append] at registered
    rcases registered with registered | isAction
    · exact startedOnce.below other registered
    · rw [List.mem_singleton.mp isAction]
      exact isBelow
  counter := by
    rw [start_group, registerProcess_groupSize,
      registerProcess_nextProcessId, startedOnce.counter,
      start_registrations, List.length_append]
    push_cast
    exact Int.sub_sub ..

theorem Quiet.start
    (quiet : history.Quiet)
    (isNew : action ∉ history.registrations.map (·.action)) :
    (history.start action worker waited).Quiet where
  assigned := by
    intro registration registered
    rw [start_registrations, List.mem_append, List.mem_singleton] at registered
    rcases registered with registered | rfl
    · have different : registration.action ≠ action := by
        rintro rfl
        exact isNew (List.mem_map_of_mem registered)
      rw [start_actions_of_ne different]
      exact quiet.assigned registration registered
    · exact start_assignedResource
  requests := quiet.requests
  ends := quiet.ends
  notifications := quiet.notifications

variable {slaves : List Registration}

theorem Gathered.nodes_start
    (gathered : history.Gathered slaves)
    (isNew : action ∉ slaves.map (·.action))
    {slave : Registration}
    (isSlave : slave ∈ slaves) :
    ((history.start action worker waited).actions slave.action).multiNodeId =
      slave.processId := by
  have different : slave.action ≠ action := by
    rintro rfl
    exact isNew (List.mem_map_of_mem isSlave)
  rw [start_actions_of_ne different]
  exact gathered.nodes slave isSlave

/-- The last action of the group becomes the master. -/
theorem Gathered.start_master
    (gathered : history.Gathered slaves)
    (isNew : action ∉ slaves.map (·.action))
    (isLast : history.group.nextProcessId = MASTER_GROUP_ID) :
    (history.start action worker waited).Gathered slaves where
  known := by
    rw [start_group, registerProcess_master action isLast]
    exact gathered.known
  handedOut := by
    intro slave isSlave
    rw [start_group, registerProcess_nextProcessId]
    rcases gathered.handedOut slave isSlave with ⟨notMaster, isPast⟩
    exact ⟨notMaster, by omega⟩
  nodes := fun _ isSlave => gathered.nodes_start isNew isSlave

/-- The others become slaves. -/
theorem Gathered.start_slave
    (gathered : history.Gathered history.registrations)
    (isNew : action ∉ history.registrations.map (·.action))
    (notLast : MASTER_GROUP_ID < history.group.nextProcessId) :
    (history.start action worker waited).Gathered
      (history.start action worker waited).registrations := by
  have registered := registerProcess_slave action
    (ne_of_gt notLast)
  have isFresh :
      ∀ other ∈ history.group.registeredSlaves.values,
        other.processId ≠ history.group.nextProcessId := by
    intro other isOther
    rw [gathered.known] at isOther
    obtain ⟨slave, isSlave, rfl⟩ := List.mem_map.mp isOther
    exact ne_of_gt (gathered.handedOut slave isSlave).2
  constructor
  case known =>
    rw [start_group, start_registrations, registered, List.map_append]
    rw [← gathered.known]
    exact values_put_of_forall_ne isFresh
  case handedOut =>
    intro slave isSlave
    rw [start_registrations, registered, List.mem_append,
      List.mem_singleton] at isSlave
    rw [start_group, registerProcess_nextProcessId]
    rcases isSlave with isSlave | rfl
    · rcases gathered.handedOut slave isSlave with ⟨notMaster, isPast⟩
      exact ⟨notMaster, by omega⟩
    · exact ⟨notLast, Int.sub_one_lt_of_le (le_refl _)⟩
  case nodes =>
    intro slave isSlave
    rw [start_registrations, List.mem_append, List.mem_singleton] at isSlave
    rcases isSlave with isSlave | rfl
    · exact gathered.nodes_start isNew isSlave
    · exact start_multiNodeId

theorem GroupProgress.start
    (progress : history.GroupProgress)
    (startedOnce : history.StartedOnce)
    (isBelow : action < history.group.groupSize)
    (isNew : action ∉ history.registrations.map (·.action)) :
    (history.start action worker waited).GroupProgress := by
  have isLeft := startedOnce.length_lt isBelow isNew
  have counter := startedOnce.counter
  cases progress with
  | launched slaves master complete launch =>
      have length := complete.length
      rw [complete.registered, List.length_append, List.length_singleton]
        at isLeft
      omega
  | gathering gathered incomplete idle quiet jobs =>
      have idleOthers :
          ∀ other, other ≠ action →
            ((history.start action worker waited).actions other).stage =
              .idle := by
        intro other different
        rw [start_actions_of_ne different]
        exact idle other
      by_cases isLast : history.group.nextProcessId = MASTER_GROUP_ID
      · have asMaster :=
          registerProcess_master action isLast
        refine .launched history.registrations _ ⟨rfl, ?_, ?_, ?_, ?_, ?_⟩
          (.transferring ?_ (quiet.start isNew) jobs)
        · rw [start_group, registerProcess_groupSize]
          have : history.group.nextProcessId = 1 := isLast
          omega
        · exact gathered.start_master isNew isLast
        · exact congrArg Prod.snd asMaster
        · exact start_multiNodeId.trans (congrArg Prod.snd asMaster)
        · exact idleOthers
        · rw [start_stage, asMaster, if_pos rfl]
      · have notLast : MASTER_GROUP_ID < history.group.nextProcessId := by
          change history.group.nextProcessId ≠ 1 at isLast
          change (1 : Int) < history.group.nextProcessId
          omega
        refine .gathering (gathered.start_slave isNew notLast) ?_ ?_
          (quiet.start isNew) jobs
        · intro _
          rw [start_registrations, start_group,
            registerProcess_groupSize, List.length_append,
            List.length_singleton]
          change (1 : Int) < history.group.nextProcessId at notLast
          omega
        · intro other
          by_cases same : other = action
          · rw [same, start_stage,
              registerProcess_slave action isLast, if_neg isLast]
            exact idle action
          · exact idleOthers other same

end Start

/-!
## The end of the job
-/

/-- The members are the same, whatever else happens. -/
theorem StartedOnce.congr
    {after : GroupHistory}
    (startedOnce : history.StartedOnce)
    (registrations : after.registrations = history.registrations)
    (group : after.group = history.group) :
    after.StartedOnce where
  attempts := by
    rw [registrations]
    exact startedOnce.attempts
  distinct := by
    rw [registrations]
    exact startedOnce.distinct
  below := by
    rw [registrations, group]
    exact startedOnce.below
  counter := by
    rw [registrations, group]
    exact startedOnce.counter

section Members

variable
  {slaves : List Registration}
  {master : Registration}

section

variable (complete : history.Complete slaves master)

include complete

theorem Complete.congr
    {after : GroupHistory}
    (registrations : after.registrations = history.registrations)
    (group : after.group = history.group)
    (ids :
      ∀ action,
        (after.actions action).multiNodeId =
          (history.actions action).multiNodeId)
    (stages :
      ∀ action, action ≠ master.action →
        (after.actions action).stage = (history.actions action).stage) :
    after.Complete slaves master where
  registered := registrations.trans complete.registered
  length := by
    rw [group]
    exact complete.length
  gathered :=
    { known := by
        rw [group]
        exact complete.gathered.known
      handedOut := by
        rw [group]
        exact complete.gathered.handedOut
      nodes := fun slave isSlave =>
        (ids slave.action).trans (complete.gathered.nodes slave isSlave) }
  isMaster := complete.isMaster
  masterNode := (ids master.action).trans complete.masterNode
  idle := fun action different =>
    (stages action different).trans (complete.idle action different)

/-- The job gets the names of the workers of the slaves. -/
theorem Complete.getSlavesNames
    (quiet : history.Quiet) :
    history.getSlavesNames = some (slaves.map (·.worker)) := by
  have assigned :
      ∀ slave ∈ slaves,
        (history.actions slave.action).assignedResource =
          some slave.worker := by
    intro slave isSlave
    refine quiet.assigned slave ?_
    rw [complete.registered]
    exact List.mem_append_left _ isSlave
  rw [GroupHistory.getSlavesNames, complete.gathered.known, List.mapM_map]
  exact mapM_eq_some_map assigned

/-- The end of the job is notified to all members. -/
theorem Complete.notified :
    history.notified master.action =
      some ((slaves ++ [master]).map (·.action)) := by
  have notMasters :
      ∀ slave ∈ slaves,
        (history.actions slave.action).multiNodeId ≠ MASTER_GROUP_ID := by
    intro slave isSlave
    rw [complete.gathered.nodes slave isSlave]
    exact ne_of_gt (complete.gathered.handedOut slave isSlave).1
  have known :
      history.group.registeredSlaves.values.map (·.action) =
        slaves.map (·.action) := by
    rw [complete.gathered.known, List.map_map]
    rfl
  have noneIsMaster :
      ∀ slave ∈ slaves.map (·.action),
        (history.actions slave).multiNodeId ≠ MASTER_GROUP_ID :=
    List.forall_mem_map.mpr notMasters
  simp only [GroupHistory.notified, known]
  rw [if_neg (not_not_intro complete.masterNode), if_pos noneIsMaster,
    List.map_append]
  rfl

end

variable (change : MultiNodeExecutionAction → MultiNodeExecutionAction)

/-- What the errors of the master change -/
structure OnlyCounts :
    Prop where
  multiNodeId : ∀ node, (change node).multiNodeId = node.multiNodeId
  stage : ∀ node, (change node).stage = node.stage
  assignedResource :
    ∀ node, (change node).assignedResource = node.assignedResource

variable {change}

theorem Complete.counted
    (complete : history.Complete slaves master)
    (onlyCounts : OnlyCounts change)
    (action : ActionId) :
    (history.update action change).Complete slaves master :=
  complete.congr rfl rfl (field_update onlyCounts.multiNodeId)
    fun other _ => field_update onlyCounts.stage other

theorem Quiet.counted
    (quiet : history.Quiet)
    (onlyCounts : OnlyCounts change)
    (action : ActionId) :
    (history.update action change).Quiet where
  assigned := fun registration registered =>
    (field_update onlyCounts.assignedResource registration.action).trans
      (quiet.assigned registration registered)
  requests := quiet.requests
  ends := quiet.ends
  notifications := quiet.notifications

/-- The job that the group is expected to launch -/
def expectedJob
    (slaves : List Registration)
    (master : Registration) : InAttempt GroupJob :=
  ⟨1, master.action, some master.worker, slaves.map (·.worker)⟩

theorem Complete.master_mem
    (complete : history.Complete slaves master) :
    master ∈ history.registrations := by
  rw [complete.registered]
  exact List.mem_append_right _ List.mem_cons_self

theorem StartedOnce.attempt_of_mem
    (startedOnce : history.StartedOnce)
    {registration : Registration}
    (registered : registration ∈ history.registrations) :
    history.attempt registration.action = 1 :=
  startedOnce.attempt_eq_one (List.mem_map_of_mem registered)

theorem Complete.atStage
    (complete : history.Complete slaves master)
    (stage : LaunchStage) :
    (history.atStage master.action stage).Complete slaves master :=
  complete.congr rfl rfl (field_update fun _ => rfl) fun _ different =>
    congrArg MultiNodeExecutionAction.stage (actions_update_of_ne different)

theorem Quiet.atStage
    (quiet : history.Quiet)
    (action : ActionId)
    (stage : LaunchStage) :
    (history.atStage action stage).Quiet where
  assigned := by
    intro registration registered
    have kept :
        ∀ other,
          ((history.atStage action stage).actions other).assignedResource =
            (history.actions other).assignedResource :=
      field_update fun _ => rfl
    rw [kept]
    exact quiet.assigned registration registered
  requests := quiet.requests
  ends := quiet.ends
  notifications := quiet.notifications

theorem stage_atStage
    {action : ActionId}
    {stage : LaunchStage} :
    ((history.atStage action stage).actions action).stage = stage :=
  congrArg MultiNodeExecutionAction.stage actions_update_self

theorem GroupProgress.submit
    (startedOnce : history.StartedOnce)
    (complete : history.Complete slaves master)
    (quiet : history.Quiet)
    (jobs : history.jobs = []) :
    (history.submit master.action).GroupProgress := by
  have submitted :
      history.submit master.action =
        { history.atStage master.action .submitted with
          jobs := [expectedJob slaves master] } := by
    simp only [GroupHistory.submit, complete.getSlavesNames quiet, jobs,
      startedOnce.attempt_of_mem complete.master_mem,
      quiet.assigned master complete.master_mem, expectedJob, List.nil_append]
  have complete := complete.atStage .submitted
  have quiet := quiet.atStage master.action .submitted
  rw [submitted]
  exact .launched slaves master
    (complete.congr rfl rfl (fun _ => rfl) fun _ _ => rfl)
    (.submitted stage_atStage
      ⟨quiet.assigned, quiet.requests, quiet.ends, quiet.notifications⟩ rfl)

/-- Each member is notified in its first attempt. -/
theorem Complete.notifications
    {jobEnd : JobEnd}
    (complete : history.Complete slaves master)
    (startedOnce : history.StartedOnce) :
    (((slaves ++ [master]).map (·.action)).map fun member =>
        InAttempt.mk (history.attempt member) (member, jobEnd)) =
      ((slaves ++ [master]).map fun member =>
        (member.action, jobEnd)).map (InAttempt.mk 1) := by
  rw [List.map_map, List.map_map]
  refine List.map_congr_left fun member isMember => ?_
  rw [← complete.registered] at isMember
  change InAttempt.mk (history.attempt member.action) _ = _
  rw [startedOnce.attempt_of_mem isMember]
  rfl

theorem GroupProgress.notify
    {jobEnd : JobEnd}
    (startedOnce : history.StartedOnce)
    (complete : history.Complete slaves master)
    (quiet : history.Quiet)
    (jobs :
      history.jobs = [expectedJob slaves master] ∨
        history.jobs = [] ∧ jobEnd ≠ .completed) :
    (history.notify master.action jobEnd).GroupProgress := by
  have notified :
      history.notify master.action jobEnd =
        { history.atStage master.action .idle with
          ends := [⟨1, jobEnd⟩]
          requests :=
            ((slaves ++ [master]).map (·.action)).map ((·, jobEnd))
          notifications :=
            ((slaves ++ [master]).map fun member =>
              (member.action, jobEnd)).map (InAttempt.mk 1) } := by
    simp only [GroupHistory.notify, complete.notified, quiet.ends,
      quiet.requests, quiet.notifications, List.nil_append,
      startedOnce.attempt_of_mem complete.master_mem,
      complete.notifications startedOnce]
  have complete := complete.atStage .idle
  rw [notified]
  exact .launched slaves master
    (complete.congr rfl rfl (fun _ => rfl) fun _ _ => rfl)
    (.ended jobEnd stage_atStage rfl rfl jobs)

/-- Transfers fail: they are ordered again, or the members are notified. -/
theorem GroupProgress.failedTransfers
    (startedOnce : history.StartedOnce)
    (complete : history.Complete slaves master)
    (stage : (history.actions master.action).stage = .transferring)
    (quiet : history.Quiet)
    (jobs : history.jobs = []) :
    (history.failedTransfers master.action).GroupProgress := by
  have onlyCounts : OnlyCounts fun node =>
      { node with transferErrors := node.transferErrors + 1 } :=
    ⟨fun _ => rfl, fun _ => rfl, fun _ => rfl⟩
  have complete := complete.counted onlyCounts master.action
  have quiet := quiet.counted onlyCounts master.action
  rw [GroupHistory.failedTransfers]
  by_cases chanceLeft :
      (history.actions master.action).transferErrors + 1 < TRANSFER_CHANCES
  · rw [if_pos chanceLeft]
    refine .launched slaves master complete (.transferring ?_ quiet jobs)
    exact (field_update onlyCounts.stage master.action).trans stage
  · rw [if_neg chanceLeft]
    exact .notify (startedOnce.congr rfl rfl) complete quiet
      (.inr ⟨jobs, JobEnd.noConfusion⟩)

theorem GroupProgress.failedJob
    (startedOnce : history.StartedOnce)
    (complete : history.Complete slaves master)
    (stage : (history.actions master.action).stage = .submitted)
    (quiet : history.Quiet)
    (jobs : history.jobs = [expectedJob slaves master]) :
    (history.failedJob master.action).GroupProgress := by
  have onlyCounts : OnlyCounts fun node =>
      { node with executionErrors := node.executionErrors + 1 } :=
    ⟨fun _ => rfl, fun _ => rfl, fun _ => rfl⟩
  have complete := complete.counted onlyCounts master.action
  have quiet := quiet.counted onlyCounts master.action
  rw [GroupHistory.failedJob]
  by_cases chanceLeft :
      (history.actions master.action).transferErrors +
        ((history.actions master.action).executionErrors + 1) <
          SUBMISSION_CHANCES
  · rw [if_pos chanceLeft]
    refine .launched slaves master complete (.submitted ?_ quiet jobs)
    exact (field_update onlyCounts.stage master.action).trans stage
  · rw [if_neg chanceLeft]
    exact .notify (startedOnce.congr rfl rfl) complete quiet (.inl jobs)

end Members

section

variable (progress : history.GroupProgress)

include progress

variable {action : ActionId}

/-- Handling a request takes part in no launch. -/
theorem GroupProgress.handled
    {change : MultiNodeExecutionAction → MultiNodeExecutionAction}
    (multiNodeId : ∀ node, (change node).multiNodeId = node.multiNodeId)
    (stage : ∀ node, (change node).stage = node.stage)
    (isRequested : history.requests ≠ [])
    (requests : List (ActionId × JobEnd)) :
    GroupProgress { history.update action change with requests } := by
  cases progress with
  | gathering gathered incomplete idle quiet jobs =>
      exact absurd quiet.requests isRequested
  | launched slaves master complete launch =>
      refine .launched slaves master
        (complete.congr rfl rfl (field_update multiNodeId)
          fun other _ => field_update stage other) ?_
      cases launch with
      | transferring _ quiet _ | submitted _ quiet _ =>
          exact absurd quiet.requests isRequested
      | ended jobEnd isIdle ends notifications jobs =>
          exact .ended jobEnd
            ((field_update stage master.action).trans isIdle)
            ends notifications jobs

theorem GroupProgress.eq_master
    (notIdle : (history.actions action).stage ≠ .idle) :
    ∃ slaves master,
      action = master.action ∧ history.Complete slaves master ∧
        history.Launch slaves master := by
  cases progress with
  | gathering _ _ idle _ _ => exact absurd (idle action) notIdle
  | launched slaves master complete launch =>
      refine ⟨slaves, master, ?_, complete, launch⟩
      by_contra different
      exact notIdle (complete.idle action different)

theorem GroupProgress.next
    {step : GroupStep}
    (startedOnce : history.StartedOnce)
    (enabled : step.Enabled history)
    (firstStart : step.FirstStart history) :
    (step.next history).GroupProgress := by
  cases step with
  | start action worker waited =>
      exact progress.start startedOnce enabled.1
        (attempt_eq_zero_iff.mp firstStart)
  | submit action =>
      obtain ⟨slaves, master, rfl, complete, launch⟩ :=
        progress.eq_master (ne_of_eq_of_ne enabled (by decide))
      cases launch with
      | transferring stage quiet jobs =>
          exact .submit startedOnce complete quiet jobs
      | submitted stage _ _ | ended _ stage _ _ _ =>
          cases stage.symm.trans enabled
  | failedTransfers action =>
      obtain ⟨slaves, master, rfl, complete, launch⟩ :=
        progress.eq_master (ne_of_eq_of_ne enabled (by decide))
      cases launch with
      | transferring stage quiet jobs =>
          exact .failedTransfers startedOnce complete stage quiet jobs
      | submitted stage _ _ | ended _ stage _ _ _ =>
          cases stage.symm.trans enabled
  | completedJob action =>
      obtain ⟨slaves, master, rfl, complete, launch⟩ :=
        progress.eq_master (ne_of_eq_of_ne enabled (by decide))
      cases launch with
      | submitted stage quiet jobs =>
          exact .notify startedOnce complete quiet (.inl jobs)
      | transferring stage _ _ | ended _ stage _ _ _ =>
          cases stage.symm.trans enabled
  | failedJob action =>
      obtain ⟨slaves, master, rfl, complete, launch⟩ :=
        progress.eq_master (ne_of_eq_of_ne enabled (by decide))
      cases launch with
      | submitted stage quiet jobs =>
          exact .failedJob startedOnce complete stage quiet jobs
      | transferring stage _ _ | ended _ stage _ _ _ =>
          cases stage.symm.trans enabled
  | actionCompleted action =>
      refine progress.handled ?_ ?_ (List.ne_nil_of_mem enabled)
        (history.requests.erase (action, .completed))
      · exact fun _ => rfl
      · exact fun _ => rfl
  | errorOnAction action reassigned =>
      refine progress.handled ?_ ?_ (List.ne_nil_of_mem enabled)
        (history.requests.erase (action, .error))
      · exact fun _ => rfl
      · exact fun _ => rfl

end

section Members

variable
  {action : ActionId}
  {jobEnd : JobEnd}

@[simp] theorem notify_registrations :
    (history.notify action jobEnd).registrations = history.registrations := by
  unfold notify
  split <;> rfl

@[simp] theorem notify_group :
    (history.notify action jobEnd).group = history.group := by
  unfold notify
  split <;> rfl

variable (startedOnce : history.StartedOnce)

include startedOnce

theorem StartedOnce.notify :
    (history.notify action jobEnd).StartedOnce :=
  startedOnce.congr notify_registrations notify_group

theorem StartedOnce.update
    {change : MultiNodeExecutionAction → MultiNodeExecutionAction} :
    (history.update action change).StartedOnce :=
  startedOnce.congr rfl rfl

theorem StartedOnce.submit :
    (history.submit action).StartedOnce := by
  unfold GroupHistory.submit
  split <;> exact startedOnce.congr rfl rfl

theorem StartedOnce.failedTransfers :
    (history.failedTransfers action).StartedOnce := by
  rw [GroupHistory.failedTransfers]
  split
  · exact startedOnce.congr rfl rfl
  · exact startedOnce.update.notify

theorem StartedOnce.failedJob :
    (history.failedJob action).StartedOnce := by
  rw [GroupHistory.failedJob]
  split
  · exact startedOnce.congr rfl rfl
  · exact startedOnce.update.notify

theorem StartedOnce.next
    {step : GroupStep}
    (enabled : step.Enabled history)
    (firstStart : step.FirstStart history) :
    (step.next history).StartedOnce := by
  cases step with
  | start action worker waited =>
      exact startedOnce.start enabled.1 (attempt_eq_zero_iff.mp firstStart)
  | submit action => exact startedOnce.submit
  | failedTransfers action => exact startedOnce.failedTransfers
  | completedJob action => exact startedOnce.notify
  | failedJob action => exact startedOnce.failedJob
  | actionCompleted action | errorOnAction action reassigned =>
      exact startedOnce.congr rfl rfl

end Members

/-!
## Attempts
-/

theorem StartedOnce.registrationsOf
    (startedOnce : history.StartedOnce)
    (attempt : Nat) :
    history.registrationsOf attempt =
      if attempt = 1 then history.registrations else [] := by
  by_cases isFirst : attempt = 1
  · rw [if_pos isFirst, GroupHistory.registrationsOf, List.filter_eq_self]
    intro registration registered
    simp [startedOnce.attempts registration registered, isFirst]
  · rw [if_neg isFirst, GroupHistory.registrationsOf, List.filter_eq_nil_iff]
    intro registration registered
    simp [startedOnce.attempts registration registered, Ne.symm isFirst]

/-- What happens happens in the first attempt. -/
theorem GroupProgress.eventsOf_eq_nil
    {attempt : Nat}
    (progress : history.GroupProgress)
    (different : 1 ≠ attempt) :
    eventsOf attempt history.jobs = [] ∧
      eventsOf attempt history.ends = [] ∧
      eventsOf attempt history.notifications = [] := by
  have noJob (slaves : List Registration) (master : Registration) :
      eventsOf attempt [expectedJob slaves master] = [] :=
    Scheduling.eventsOf_eq_nil (List.forall_mem_singleton.mpr different)
  cases progress with
  | gathering _ _ _ quiet jobs =>
      rw [jobs, quiet.ends, quiet.notifications]
      exact ⟨rfl, rfl, rfl⟩
  | launched slaves master complete launch =>
      cases launch with
      | transferring _ quiet jobs =>
          rw [jobs, quiet.ends, quiet.notifications]
          exact ⟨rfl, rfl, rfl⟩
      | submitted _ quiet jobs =>
          rw [jobs, quiet.ends, quiet.notifications]
          exact ⟨noJob slaves master, rfl, rfl⟩
      | ended jobEnd _ ends notifications jobs =>
          rw [ends, notifications]
          refine ⟨?_, Scheduling.eventsOf_eq_nil ?_,
            Scheduling.eventsOf_eq_nil ?_⟩
          · rcases jobs with jobs | ⟨jobs, -⟩
            · rw [jobs]
              exact noJob slaves master
            · rw [jobs]
              rfl
          · exact List.forall_mem_singleton.mpr different
          · exact List.forall_mem_map.mpr fun _ _ => different

theorem Launch.launched
    {slaves : List Registration}
    {master : Registration}
    (launch : history.Launch slaves master)
    (complete : history.Complete slaves master)
    (startedOnce : history.StartedOnce) :
    history.Launched 1 slaves master := by
  have areSlaves : ∀ slave ∈ slaves, ¬ slave.IsMaster := fun slave isSlave =>
    ne_of_gt (complete.gathered.handedOut slave isSlave).1
  have members :
      ((slaves ++ [master]).map (·.action)).Perm
        (List.range history.group.groupSize) := by
    rw [← complete.registered]
    refine startedOnce.members ?_
    rw [complete.registered, List.length_append]
    exact complete.length
  have oneJob :
      eventsOf 1 [expectedJob slaves master] =
        [(expectedJob slaves master).event] := rfl
  have isExpected :
      ∀ job ∈ [(expectedJob slaves master).event],
        job.action = master.action ∧ job.worker = some master.worker ∧
          job.slavesNames.Perm (slaves.map (·.worker)) :=
    List.forall_mem_singleton.mpr ⟨rfl, rfl, .refl _⟩
  cases launch with
  | transferring stage quiet jobs =>
      have noEnds := quiet.ends
      exact {
        isMaster := complete.isMaster
        areSlaves
        members
        jobs := by simp [jobs]
        jobsOnce := by simp [jobs]
        endsOnce := by simp [noEnds]
        completed := by simp [noEnds]
        underway := fun _ => by simp [jobs, stage]
        notified := by simp [noEnds, quiet.notifications]
      }
  | submitted stage quiet jobs =>
      have noEnds := quiet.ends
      have jobs : history.jobs = [expectedJob slaves master] := jobs
      exact {
        isMaster := complete.isMaster
        areSlaves
        members
        jobs := by
          rw [jobs, oneJob]
          exact isExpected
        jobsOnce := by simp [jobs, oneJob]
        endsOnce := by simp [noEnds]
        completed := by simp [noEnds]
        underway := fun _ => by simp [jobs, oneJob, stage]
        notified := by simp [noEnds, quiet.notifications]
      }
  | ended jobEnd stage ends notifications jobs =>
      have oneEnd : eventsOf 1 history.ends = [jobEnd] := by
        rw [ends]
        rfl
      have jobs :
          eventsOf 1 history.jobs = [(expectedJob slaves master).event] ∨
            eventsOf 1 history.jobs = [] ∧ jobEnd ≠ .completed := by
        rcases jobs with jobs | ⟨jobs, notCompleted⟩
        · exact .inl (jobs ▸ oneJob)
        · exact .inr ⟨jobs ▸ rfl, notCompleted⟩
      exact {
        isMaster := complete.isMaster
        areSlaves
        members
        jobs := by
          rcases jobs with jobs | ⟨jobs, -⟩
          · rw [jobs]
            exact isExpected
          · rw [jobs]
            exact List.forall_mem_nil _
        jobsOnce := by
          rcases jobs with jobs | ⟨jobs, -⟩
          · rw [jobs, List.length_singleton]
          · rw [jobs]
            exact Nat.zero_le 1
        endsOnce := by rw [oneEnd, List.length_singleton]
        completed := by
          rw [oneEnd, List.mem_singleton]
          rintro rfl
          rcases jobs with jobs | ⟨-, notCompleted⟩
          · simp [jobs]
          · exact absurd rfl notCompleted
        underway := by simp [oneEnd]
        notified := by
          rw [oneEnd, notifications, eventsOf_map_mk, List.flatMap_singleton]
      }

theorem GroupProgress.launchesOnce
    (progress : history.GroupProgress)
    (startedOnce : history.StartedOnce)
    (attempt : Nat) :
    history.LaunchesOnce attempt := by
  by_cases isFirst : attempt = 1
  case neg =>
    have none : history.registrationsOf attempt = [] := by
      rw [startedOnce.registrationsOf, if_neg isFirst]
    constructor
    case notBefore =>
      rw [none]
      exact fun _ =>
        ⟨List.forall_mem_nil _, progress.eventsOf_eq_nil (Ne.symm isFirst)⟩
    case launched =>
      intro slaves master registered
      rw [none] at registered
      exact absurd registered.symm (by simp)
  case pos =>
    subst isFirst
    have all : history.registrationsOf 1 = history.registrations := by
      rw [startedOnce.registrationsOf, if_pos rfl]
    cases progress with
    | gathering gathered incomplete idle quiet jobs =>
        constructor
        case notBefore =>
          rw [all, jobs, quiet.ends, quiet.notifications]
          exact fun _ =>
            ⟨fun slave isSlave => ne_of_gt (gathered.handedOut slave isSlave).1,
              rfl, rfl, rfl⟩
        case launched =>
          intro slaves master registered length
          rw [all] at registered
          have fewer := incomplete (by simp [registered])
          rw [registered, List.length_append, List.length_singleton, length]
            at fewer
          exact absurd fewer (lt_irrefl _)
    | launched slaves master complete launch =>
        constructor
        case notBefore =>
          rw [all, complete.registered, List.length_append,
            List.length_singleton, complete.length]
          exact fun fewer => absurd fewer (lt_irrefl _)
        case launched =>
          intro otherSlaves otherMaster registered length
          rw [all, complete.registered] at registered
          obtain ⟨rfl, isSame⟩ := List.append_inj' registered rfl
          obtain rfl := List.singleton_inj.mp isSame
          exact launch.launched complete startedOnce

end GroupHistory

theorem startedOnce_new (groupSize : Nat) :
    (GroupHistory.new groupSize).StartedOnce where
  attempts := List.forall_mem_nil _
  distinct := List.nodup_nil
  below := List.forall_mem_nil _
  counter := (Int.sub_zero (groupSize : Int)).symm

theorem groupProgress_new (groupSize : Nat) :
    (GroupHistory.new groupSize).GroupProgress := by
  refine .gathering ⟨rfl, ?_, ?_⟩ ?_ ?_ ⟨?_, rfl, rfl, rfl⟩ rfl
  · exact List.forall_mem_nil _
  · exact List.forall_mem_nil _
  · exact fun someRegistered => absurd rfl someRegistered
  · exact fun _ => rfl
  · exact List.forall_mem_nil _

/-- The steps of runs in which no action is started again -/
abbrev FirstStarts : GroupHistory → GroupStep → Prop :=
  fun history step => step.FirstStart history

section Runs

variable
  {groupSize : Nat}
  {steps : List GroupStep}
  {history : GroupHistory}

theorem groupProgress_of_run
    (run : Run (groupSystem groupSize) FirstStarts steps history) :
    history.StartedOnce ∧ history.GroupProgress := by
  induction run with
  | start => exact ⟨startedOnce_new groupSize, groupProgress_new groupSize⟩
  | snoc run enabled firstStart hypothesis =>
      rcases hypothesis with ⟨startedOnce, progress⟩
      exact ⟨startedOnce.next enabled firstStart,
        progress.next startedOnce enabled firstStart⟩

/-- Every attempt launches its job once as long as nothing is started again. -/
theorem launchesOnce_of_firstStarts
    (run : Run (groupSystem groupSize) FirstStarts steps history)
    (attempt : Nat) :
    history.LaunchesOnce attempt := by
  rcases groupProgress_of_run run with ⟨startedOnce, progress⟩
  exact progress.launchesOnce startedOnce attempt

end Runs

/-- The job fails twice, and both actions are told. -/
theorem launchesOnce_twoActions :
    ((groupSystem 2).after
      [.start 1 0 false, .start 0 1 true, .submit 0, .failedJob 0,
        .failedJob 0, .errorOnAction 1 none, .errorOnAction 0 none]).LaunchesOnce
      1 :=
  launchesOnce_of_firstStarts (run_of_executable (by decide)) 1

/-- The job of two actions fails twice, and both are started again. -/
def restartedSteps : List GroupStep :=
  [.start 0 0 false, .start 1 1 false, .submit 1, .failedJob 1, .failedJob 1,
    .errorOnAction 0 (some 1), .errorOnAction 1 (some 0), .start 0 1 false,
    .start 1 0 false]

/-- In the second attempt both actions wait for a master. -/
theorem not_launchesOnce_restarted :
    ¬ ∀ groupSize steps history,
      Run (groupSystem groupSize) anyStep steps history →
        ∀ attempt, history.LaunchesOnce attempt := by
  intro launchesOnce
  have run :
      Run (groupSystem 2) anyStep restartedSteps
        ((groupSystem 2).after restartedSteps) :=
    run_of_executable (by decide)
  have second := (launchesOnce 2 _ _ run 2).launched
    [⟨0, 1, 0, 2⟩] ⟨1, 0, -1, 2⟩ (by decide) (by decide)
  exact absurd second.isMaster (by decide)

end DistributedRdf.Scheduling
