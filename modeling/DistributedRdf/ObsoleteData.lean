import DistributedRdf.DataLocations
import Mathlib.Data.List.Dedup

namespace DistributedRdf.Data.ObsoleteData

open Execution Function List

/-!
# Obsolete data that the hosts are told of

A host is told with the next job that is submitted to it.  The marking of a
datum goes through its hosts one by one, and submissions may come in between.
-/

inductive Event where
  | addLocation (name : String)
  | addObsolete (name : String) (host : Host)
  | submitTask (host : Host) (obsoleteRenamings : List String)
  deriving DecidableEq

structure State where
  /-- The renamings that are registered -/
  data : List String
  locations : String → List DataLocation
  privateFiles : Host → List String
  sharedDisk2SharedFiles : String → List String
  obsoletes : Host → List String
  /-- The hosts that `isObsolete` is still to go through -/
  hosts : List (String × Host)
  /-- What has happened, the latest first -/
  events : List Event

namespace State

def new (data : List String) : State where
  data := data
  locations := fun _ => []
  privateFiles := fun _ => []
  sharedDisk2SharedFiles := fun _ => []
  obsoletes := fun _ => []
  hosts := []
  events := []

variable
  (manager : SharedDiskManager)
  (stored : String → List Host)
  (state : State)
  (name : String)
  (host : Host)

/-- Nothing is returned for a disk that no machine has. -/
def getHosts : DataLocation → Option (List Host)
  | .PRIVATE host _ => some [host]
  | .SHARED diskName _ => manager.shared2Machines diskName
  | .PERSISTENT id => some (stored id)

/-- The exception of a disk that no machine has leaves nothing. -/
def getAllHosts : Option (List Host) :=
  ((state.locations name).mapM (getHosts manager stored)).map fun hosts =>
    hosts.flatten.dedup

def getAllDataFromHost : List String :=
  (manager.getAllSharedNames host).flatMap state.sharedDisk2SharedFiles ++
    state.privateFiles host

/-- The set of locations may have an equal one already. -/
def addLocation (loc : DataLocation) (isNew : Bool) : State :=
  let added :=
    { state with
      locations := update state.locations name
        (if isNew then loc :: state.locations name
        else state.locations name)
      events := .addLocation name :: state.events }
  match loc with
  | .PRIVATE host _ =>
      { added with
        privateFiles := update state.privateFiles host
          (name :: state.privateFiles host) }
  | .SHARED diskName _ =>
      if (manager.shared2Machines diskName).getD [] = [] then added
      else
        { added with
          sharedDisk2SharedFiles := update state.sharedDisk2SharedFiles diskName
            (name :: state.sharedDisk2SharedFiles diskName) }
  | .PERSISTENT _ => added

/-- An unknown renaming is not removed; the exception changes nothing. -/
def removeData : State :=
  if name ∈ state.data then
    { state with
      data := state.data.erase name
      hosts := state.hosts ++
        ((state.getAllHosts manager stored name).getD []).map
          fun host => (name, host) }
  else state

def addObsolete : State :=
  { state with
    obsoletes := update state.obsoletes host (state.obsoletes host ++ [name])
    privateFiles := update state.privateFiles host
      ((state.privateFiles host).filter (· ≠ name))
    sharedDisk2SharedFiles := fun diskName =>
      if diskName ∈ manager.getAllSharedNames host then
        (state.sharedDisk2SharedFiles diskName).filter (· ≠ name)
      else state.sharedDisk2SharedFiles diskName
    hosts := state.hosts.erase (name, host)
    events := .addObsolete name host :: state.events }

/-- What is returned is the list of the resource itself, not a copy of it. -/
def clearObsoletes : State × (State → List String) :=
  let obs := fun state : State => state.obsoletes host
  ({ state with obsoletes := update state.obsoletes host [] }, obs)

/-- The list is read after it has been returned. -/
def submitTask : State :=
  let (cleared, obsoletes) := state.clearObsoletes host
  { cleared with
    events := .submitTask host (obsoletes cleared) :: cleared.events }

inductive Step where
  | addLocation (name : String) (loc : DataLocation) (isNew : Bool)
  | removeData (name : String) (stored : String → List Host)
  | addObsolete (name : String) (host : Host)
  | submitTask (host : Host)

/-- A datum is locked while it goes through its hosts. -/
def Enabled : Step → Prop
  | .addLocation name loc isNew =>
      (∀ marked ∈ state.hosts, marked.1 ≠ name) ∧
        (isNew = false → loc ∈ state.locations name)
  | .removeData _ _ | .submitTask _ => True
  | .addObsolete name host => (name, host) ∈ state.hosts

instance (state : State) : (step : Step) → Decidable (state.Enabled step)
  | .addLocation .. => inferInstanceAs (Decidable (_ ∧ (_ → _)))
  | .removeData .. | .submitTask _ => isTrue trivial
  | .addObsolete .. => inferInstanceAs (Decidable (_ ∈ _))

def next : Step → State
  | .addLocation name loc isNew => state.addLocation manager name loc isNew
  | .removeData name stored => state.removeData manager stored name
  | .addObsolete name host => state.addObsolete manager name host
  | .submitTask host => state.submitTask host

def system (data : List String) : TransitionSystem State Step where
  start := new data
  Enabled := Enabled
  next := next manager

instance (data : List String) (state : State) (step : Step) :
    Decidable ((system manager data).Enabled state step) :=
  inferInstanceAs (Decidable (state.Enabled step))

/-!
## What is expected of the lists
-/

def Submits : Event → Bool
  | .submitTask other _ => other = host
  | .addLocation _ | .addObsolete _ _ => false

def Announces : Event → Bool
  | .submitTask other renamings => other = host ∧ name ∈ renamings
  | .addLocation _ | .addObsolete _ _ => false

/-- A datum that is marked on a host stays away until it has a new location. -/
def Gone : Prop :=
  ∀ later earlier name host,
    state.events = later ++ .addObsolete name host :: earlier →
      .addLocation name ∉ later →
        name ∉ state.getAllDataFromHost manager host

/-- Every marking is announced by one later submission, if there is one. -/
structure Announced : Prop where
  once :
    ∀ later earlier name host,
      state.events = later ++ .addObsolete name host :: earlier →
        later.any (Submits host) →
          later.countP (Announces name host) = 1
  only :
    ∀ later earlier host renamings,
      state.events = later ++ .submitTask host renamings :: earlier →
        ∀ name ∈ renamings, .addObsolete name host ∈ earlier
  gone : state.Gone manager

/-- No job is submitted to a host on which a datum has been marked. -/
def MarkedLast : Prop :=
  ∀ later earlier name host,
    state.events = later ++ .addObsolete name host :: earlier →
      later.any (Submits host) = false

/-!
## The lists are empty
-/

/-- What holds in every run -/
structure Silent : Prop where
  empty : ∀ host renamings, .submitTask host renamings ∈ state.events →
    renamings = []
  gone : state.Gone manager

variable
  {manager}
  {state}

theorem mem_getAllDataFromHost :
    name ∈ state.getAllDataFromHost manager host ↔
      (∃ diskName ∈ manager.getAllSharedNames host,
        name ∈ state.sharedDisk2SharedFiles diskName) ∨
          name ∈ state.privateFiles host := by
  rw [getAllDataFromHost, mem_append, mem_flatMap]

variable
  {name}
  {host}
  {other : String}

/-- A location makes one datum available, on no matter which hosts. -/
theorem getAllDataFromHost_addLocation
    {loc : DataLocation}
    {isNew : Bool}
    (isOther : other ≠ name)
    (member :
      other ∈ (state.addLocation manager name loc isNew).getAllDataFromHost
        manager host) :
    other ∈ state.getAllDataFromHost manager host := by
  rw [mem_getAllDataFromHost] at member ⊢
  have kept
      {Key : Type}
      [DecidableEq Key]
      {files : Key → List String}
      {changed key : Key}
      (member :
        other ∈ update files changed (name :: files changed) key) :
      other ∈ files key := by
    by_cases isChanged : key = changed
    · rw [isChanged, update_self] at member
      exact isChanged ▸ mem_of_ne_of_mem isOther member
    · rwa [update_of_ne isChanged] at member
  cases loc with
  | PRIVATE place path => exact member.imp_right kept
  | SHARED diskName path =>
      rw [addLocation] at member
      dsimp only at member
      split at member
      · exact member
      · exact member.imp_left fun ⟨diskName, mounted, shared⟩ =>
          ⟨diskName, mounted, kept shared⟩
  | PERSISTENT id => exact member

theorem getAllDataFromHost_addObsolete
    {place : Host}
    (member :
      other ∈ (state.addObsolete manager name host).getAllDataFromHost
        manager place) :
    other ∈ state.getAllDataFromHost manager place ∧
      (place = host → other ≠ name) := by
  rw [mem_getAllDataFromHost] at member ⊢
  rcases member with ⟨diskName, mounted, shared⟩ | isPrivate
  · rw [addObsolete] at shared
    dsimp only at shared
    split at shared
    case isTrue =>
      have kept := mem_filter.mp shared
      exact ⟨.inl ⟨diskName, mounted, kept.1⟩,
        fun _ => of_decide_eq_true kept.2⟩
    case isFalse notMounted =>
      exact ⟨.inl ⟨diskName, mounted, shared⟩,
        fun isHost => absurd (isHost ▸ mounted) notMounted⟩
  · rw [addObsolete] at isPrivate
    dsimp only at isPrivate
    by_cases isHost : place = host
    · subst isHost
      rw [update_self] at isPrivate
      have kept := mem_filter.mp isPrivate
      exact ⟨.inr kept.1, fun _ => of_decide_eq_true kept.2⟩
    · rw [update_of_ne isHost] at isPrivate
      exact ⟨.inr isPrivate, fun same => absurd same isHost⟩

section

variable (silent : Silent manager state)

include silent

variable {after : State}

theorem Silent.of_same
    (events : after.events = state.events)
    (files : after.privateFiles = state.privateFiles)
    (shared : after.sharedDisk2SharedFiles = state.sharedDisk2SharedFiles) :
    Silent manager after := by
  constructor
  case empty =>
    rw [events]
    exact silent.empty
  case gone =>
    unfold Gone getAllDataFromHost
    rw [events, files, shared]
    exact silent.gone

/-- A step that is recorded, and makes no other datum available -/
theorem Silent.step
    (event : Event)
    (events : after.events = event :: state.events)
    (empty :
      ∀ host renamings, event = .submitTask host renamings → renamings = [])
    (kept :
      ∀ name host, event ≠ .addLocation name →
        name ∈ after.getAllDataFromHost manager host →
          name ∈ state.getAllDataFromHost manager host ∧
            event ≠ .addObsolete name host) :
    Silent manager after := by
  constructor
  case empty =>
    intro host renamings member
    rw [events] at member
    rcases mem_cons.mp member with isLatest | before
    · exact empty host renamings isLatest.symm
    · exact silent.empty host renamings before
  case gone =>
    intro later earlier name host split notAdded member
    rw [events] at split
    rcases later with _ | ⟨latest, rest⟩
    · obtain ⟨rfl, -⟩ := cons.inj split
      exact (kept name host nofun member).2 rfl
    · obtain ⟨rfl, same⟩ := cons.inj split
      rw [mem_cons, not_or] at notAdded
      exact silent.gone rest earlier name host same notAdded.2
        (kept name host (Ne.symm notAdded.1) member).1

theorem Silent.addLocation
    (loc : DataLocation)
    (isNew : Bool) :
    Silent manager (state.addLocation manager name loc isNew) := by
  refine silent.step (.addLocation name) ?_ nofun
    fun other host isOther member => ⟨?_, nofun⟩
  · cases loc with
    | PRIVATE host path => rfl
    | SHARED diskName path =>
        rw [State.addLocation]
        dsimp only
        split <;> rfl
    | PERSISTENT id => rfl
  · exact getAllDataFromHost_addLocation
      (fun same => isOther (congrArg Event.addLocation same.symm)) member

theorem Silent.addObsolete :
    Silent manager (state.addObsolete manager name host) := by
  refine silent.step (.addObsolete name host) rfl nofun
    fun other place _ member => ?_
  have kept := getAllDataFromHost_addObsolete member
  refine ⟨kept.1, fun same => ?_⟩
  obtain ⟨rfl, rfl⟩ := Event.addObsolete.inj same
  exact kept.2 rfl rfl

/-- The list has been cleared when it is read. -/
theorem Silent.submitTask :
    Silent manager (state.submitTask host) := by
  refine silent.step (.submitTask host []) ?_ ?_
    fun other place _ member => ⟨member, nofun⟩
  · rw [State.submitTask, clearObsoletes]
    simp
  · intro place renamings same
    exact (Event.submitTask.inj same).2.symm

end

theorem silent_of_run
    {data : List String}
    {steps : List Step}
    (run : Run (system manager data) anyStep steps state) :
    Silent manager state := by
  have atStart : Silent manager (new data) :=
    ⟨fun _ _ member => absurd member not_mem_nil,
      fun later _ _ _ split => absurd split (by simp [new])⟩
  refine run.invariant atStart fun before step silent _ _ => ?_
  cases step with
  | addLocation name loc isNew => exact silent.addLocation loc isNew
  | removeData name stored =>
      change Silent manager (before.removeData manager stored name)
      rw [removeData]
      split
      · exact silent.of_same rfl rfl rfl
      · exact silent
  | addObsolete name host => exact silent.addObsolete
  | submitTask host => exact silent.submitTask

/-- A datum is announced as expected when no announcement is due. -/
theorem announced_iff
    {data : List String}
    {steps : List Step}
    (run : Run (system manager data) anyStep steps state) :
    Announced manager state ↔ MarkedLast state := by
  have silent := silent_of_run run
  constructor
  · intro announced later earlier name host split
    refine Bool.of_not_eq_true fun submitted => ?_
    have once := announced.once later earlier name host split submitted
    have one : 0 < later.countP (Announces name host) := by omega
    obtain ⟨event, member, announces⟩ := countP_pos_iff.mp one
    cases event with
    | submitTask other renamings =>
        have listed : name ∈ renamings := (of_decide_eq_true announces).2
        rw [silent.empty other renamings
          (split ▸ mem_append_left _ member)] at listed
        exact absurd listed not_mem_nil
    | addLocation other => exact absurd announces Bool.false_ne_true
    | addObsolete other place => exact absurd announces Bool.false_ne_true
  · intro markedLast
    constructor
    case once =>
      intro later earlier name host split submitted
      rw [markedLast later earlier name host split] at submitted
      exact absurd submitted Bool.false_ne_true
    case only =>
      intro later earlier host renamings split name listed
      rw [silent.empty host renamings
        (split ▸ mem_append_right _ mem_cons_self)] at listed
      exact absurd listed not_mem_nil
    case gone => exact silent.gone

section Example

private def oneDisk : SharedDiskManager :=
  Resources.manager ⟨[(0, [("disk", "/shared")])], nodup_singleton _⟩

private def marking : List Step :=
  [.addLocation "d1v1" (.SHARED "disk" "d1v1") true,
    .removeData "d1v1" fun _ => [], .addObsolete "d1v1" 0]

/-- The next job does not say that the datum is obsolete. -/
theorem not_announced :
    let system := system oneDisk ["d1v1"]
    let steps := marking ++ [.submitTask 0]
    Run system anyStep steps (system.after steps) ∧
      ¬ Announced oneDisk (system.after steps) := by
  refine ⟨run_of_executable (by decide), fun announced => ?_⟩
  have once := announced.once [.submitTask 0 []] _ "d1v1" 0 rfl rfl
  exact absurd once (by decide)

theorem announced_marking :
    Announced oneDisk ((system oneDisk ["d1v1"]).after marking) ↔
      MarkedLast ((system oneDisk ["d1v1"]).after marking) :=
  announced_iff (run_of_executable (by decide : Executable _ _ _ marking))

end Example

end State

end DistributedRdf.Data.ObsoleteData
