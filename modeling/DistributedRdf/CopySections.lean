import DistributedRdf.ImmediateCopies
import Mathlib.Algebra.BigOperators.Fin

namespace DistributedRdf.Data

open Java Execution Transfers Function List List.Subset DataLocation
open SharedDiskManager

/-!
# What the sections of immediate copies keep

Each thread has done what its place in `perform` says, the list of copies in
progress agrees with these places, and every listener that was not notified is
kept by an operation that is going to notify it.
-/

section Properties

variable
  {count : Nat}
  (setting : Setting (Fin count))
  (transfers : Transfers (Fin count))

/-- Where the source data is -/
def places : List DataLocation :=
  setting.locations setting.srcData ++ transfers.placed

variable (this : Fin count)

/-- The source data is at the target of a copy, or elsewhere on its host. -/
def IsThere : Prop :=
  ∃ loc ∈ places setting transfers,
    loc = (setting.copy this).tgtLoc ∨
      ∃ host, Transfers.targetHost setting this = some host ∧
        (loc.getURIInHost setting.surroundings host).isSome

/-- A listener is told what has become of the copy that it is waiting for. -/
def IsTrue (notification : Notification (Fin count)) : Prop :=
  (setting.copy notification.fOp).tgtLoc =
      (setting.copy notification.registration.operation).tgtLoc ∧
    if notification.isEnd then
      IsThere setting transfers notification.registration.operation
    else
      notification.fOp ∈ transfers.failed

/-- The reason why a copy was skipped is one that allows it. -/
def IsAllowed : SkipReason (Fin count) → Prop
  | .alreadyAvailable loc =>
      loc ∈ places setting transfers ∧
        ∃ host, Transfers.targetHost setting this = some host ∧
          (loc.getURIInHost setting.surroundings host).isSome
  | .alreadyCopying other phase =>
      other ≠ this ∧ phase.isInProgress ∧
        (setting.copy other).tgtLoc = (setting.copy this).tgtLoc

variable (registration : Registration (Fin count))

/-- How often a listener was notified -/
def notifiedCount : Nat :=
  (transfers.notifications.map (·.registration)).count registration

/--
The target has a host, and only copies that have succeeded register their
target, unless the location is registered already or has been reached.
-/
def RegistersPlaced : CopyStep (Fin count) → Prop
  | .perform this => Transfers.targetHost setting this ≠ none
  | .registerTarget this position =>
      (transfers.phase this).hasFailed →
        (setting.copy this).tgtData = none ∨ position = none ∨
          (setting.copy this).tgtLoc ∈ transfers.placed
  | _ => True

/-!
## What holds between the steps
-/

/-- A copy that has been made has put the data there; another one has failed. -/
def HasEnded (copied : Bool) : Prop :=
  if copied then
    (transfers.operation this).endState = none ∧
      (setting.copy this).tgtLoc ∈ transfers.placed
  else
    (transfers.operation this).endState = some .OP_FAILED ∧
      this ∈ transfers.failed

/-- What a thread has done when it is in a phase. -/
def PhaseHolds : Phase (Fin count) → Prop
  | .created =>
      (transfers.operation this).endState = none ∧ this ∉ transfers.started
  | .handingOver other =>
      this ∉ transfers.started ∧ other ≠ this ∧
        (transfers.phase other).isInProgress ∧
        (setting.copy other).tgtLoc = (setting.copy this).tgtLoc
  | .copying => (transfers.operation this).endState = none
  | .failing =>
      (transfers.operation this).endState = none ∧ this ∈ transfers.failed
  | .cleaning copied => HasEnded setting transfers this copied
  | .registering copied actualLocation =>
      actualLocation = some (setting.copy this).tgtLoc ∧
        HasEnded setting transfers this copied
  | .returning => HasEnded setting transfers this true
  | .finished =>
      this ∈ transfers.started →
        (transfers.operation this).endState = some .OP_OK ∧
            (setting.copy this).tgtLoc ∈ transfers.placed ∨
          (transfers.operation this).endState = some .OP_FAILED ∧
            this ∈ transfers.failed

/-- The listeners that an operation is going to notify -/
def pending
    (this : Fin count) : Nat :=
  if (transfers.phase this).isOpen then
    (transfers.operation this).listeners.count registration
  else
    0

/-- The threads and the copies in progress. -/
structure Controlled : Prop where
  phases : ∀ this, PhaseHolds setting transfers this (transfers.phase this)
  holds :
    ∀ this, transfers.holder = some this ↔
      (transfers.phase this).isHandingOver
  entries :
    ∀ cip ∈ transfers.inProgress,
      cip.loc = (setting.copy cip.c).tgtLoc ∧
        (transfers.phase cip.c).isInProgress
  listed :
    ∀ this, (transfers.phase this).isInProgress →
      this ∈ transfers.inProgress.map (·.c)
  listedOnce : (transfers.inProgress.map (·.c)).Nodup
  hosts :
    ∀ this, transfers.phase this ≠ .created →
      transfers.phase this ≠ .finished →
        Transfers.targetHost setting this ≠ none

/-- What the listeners, the threads and the target data were told. -/
structure Recorded : Prop where
  told : ∀ notification ∈ transfers.notifications,
    IsTrue setting transfers notification
  skipped : ∀ skip ∈ transfers.skipped,
    IsAllowed setting transfers skip.1 skip.2
  added : ∀ loc ∈ transfers.added, loc ∈ transfers.placed
  located :
    ∀ loc ∈ transfers.locations setting.srcData,
      loc ∈ places setting transfers

/-- Every listener is kept by one operation, or was notified. -/
structure Kept : Prop where
  counts :
    ∀ registration,
      notifiedCount transfers registration +
          ∑ this, pending transfers registration this =
        transfers.registered.count registration
  sameTarget :
    ∀ this, ∀ registration ∈ (transfers.operation this).listeners,
      (setting.copy registration.operation).tgtLoc =
        (setting.copy this).tgtLoc

structure Consistent : Prop where
  controlled : Controlled setting transfers
  recorded : Recorded setting transfers
  kept : Kept setting transfers

end Properties

variable
  {count : Nat}
  {setting : Setting (Fin count)}
  {transfers after : Transfers (Fin count)}
  {this : Fin count}

theorem consistent_new : Consistent setting (new setting) where
  controlled :=
    { phases := fun this => ⟨rfl, not_mem_nil⟩
      holds := fun this => ⟨nofun, nofun⟩
      entries := nofun
      listed := nofun
      listedOnce := nodup_nil
      hosts := fun this notCreated => absurd rfl notCreated }
  recorded :=
    { told := nofun
      skipped := nofun
      added := nofun
      located := fun loc member => mem_append_left _ member }
  kept :=
    { counts := by
        intro registration
        calc
          0 + ∑ this, pending (new setting) registration this =
              ((finRange count).map
                (pending (new setting) registration)).sum := by
            rw [Nat.zero_add, Fin.sum_univ_def]
          _ = ((finRange count).flatMap fun op =>
                [⟨op, (setting.copy op).listener⟩]).count registration :=
            count_flatMap.symm
          _ = (new setting).registered.count registration := by
            rw [← map_eq_flatMap]
            rfl
      sameTarget := by
        intro this registration member
        rw [mem_singleton.mp member] }

/-!
## Frames
-/

variable {phase : Phase (Fin count)}

theorem setPhase_of_ne
    (that : Fin count)
    (isOther : that ≠ this) :
    update transfers.phase this phase that = transfers.phase that :=
  update_of_ne isOther ..

theorem phase_of_ne
    {next : Phase (Fin count)}
    (phase : after.phase = update transfers.phase this next)
    (that : Fin count)
    (isOther : that ≠ this) :
    after.phase that = transfers.phase that := by
  rw [phase, setPhase_of_ne that isOther]

theorem endState_of_ne
    {operation : DataOperation (Fin count)}
    (that : Fin count)
    (isOther : that ≠ this) :
    (update transfers.operation this operation that).endState =
      (transfers.operation that).endState :=
  congrArg DataOperation.endState (update_of_ne isOther ..)

/-- A step of one thread; the operations of others may get listeners. -/
structure Frame (this : Fin count) (before after : Transfers (Fin count)) :
    Prop where
  placed : before.placed ⊆ after.placed
  failed : before.failed ⊆ after.failed
  phase : ∀ that, that ≠ this → after.phase that = before.phase that
  endState :
    ∀ that, that ≠ this →
      (after.operation that).endState = (before.operation that).endState
  started :
    ∀ that, that ≠ this → (that ∈ after.started ↔ that ∈ before.started)
  /-- While another thread relies on the copy, it stays in progress. -/
  inProgress :
    (before.phase this).isInProgress →
      (after.phase this).isInProgress ∨ before.holder = none

theorem PhaseHolds.congr
    (holds : PhaseHolds setting transfers this phase)
    (endState :
      (after.operation this).endState = (transfers.operation this).endState)
    (samePhase : after.phase = transfers.phase)
    (started : after.started = transfers.started)
    (placed : after.placed = transfers.placed)
    (failed : after.failed = transfers.failed) :
    PhaseHolds setting after this phase := by
  cases phase <;>
    simpa only [PhaseHolds, HasEnded, endState, samePhase, started, placed,
      failed] using holds

theorem HasEnded.frame
    {that : Fin count}
    {copied : Bool}
    (frame : Frame this transfers after)
    (isOther : that ≠ this)
    (hasEnded : HasEnded setting transfers that copied) :
    HasEnded setting after that copied := by
  rw [HasEnded, frame.endState that isOther]
  rw [HasEnded] at hasEnded
  cases copied with
  | true => exact ⟨hasEnded.1, frame.placed hasEnded.2⟩
  | false => exact ⟨hasEnded.1, frame.failed hasEnded.2⟩

section

variable (controlled : Controlled setting transfers)

include controlled

theorem Controlled.frame
    (frame : Frame this transfers after)
    (that : Fin count)
    (isOther : that ≠ this) :
    PhaseHolds setting after that (after.phase that) := by
  have holds := controlled.phases that
  rw [frame.phase that isOther]
  cases phase : transfers.phase that with
  | created =>
      rw [phase] at holds
      exact ⟨(frame.endState that isOther).trans holds.1,
        fun started => holds.2 ((frame.started that isOther).mp started)⟩
  | handingOver other =>
      have held := (controlled.holds that).mpr (by rw [phase]; rfl)
      rw [phase] at holds
      refine ⟨fun started => holds.1 ((frame.started that isOther).mp started),
        holds.2.1, ?_, holds.2.2.2⟩
      by_cases isThis : other = this
      · subst other
        refine (frame.inProgress holds.2.2.1).resolve_right ?_
        rw [held]
        exact Option.some_ne_none that
      · rw [frame.phase other isThis]
        exact holds.2.2.1
  | copying =>
      rw [phase] at holds
      exact (frame.endState that isOther).trans holds
  | failing =>
      rw [phase] at holds
      exact ⟨(frame.endState that isOther).trans holds.1, frame.failed holds.2⟩
  | cleaning copied =>
      rw [phase] at holds
      exact HasEnded.frame frame isOther holds
  | registering copied actualLocation =>
      rw [phase] at holds
      exact ⟨holds.1, HasEnded.frame frame isOther holds.2⟩
  | returning =>
      rw [phase] at holds
      exact HasEnded.frame frame isOther holds
  | finished =>
      rw [phase] at holds
      intro started
      rw [frame.endState that isOther]
      rcases holds ((frame.started that isOther).mp started) with
        ended | failed
      · exact .inl ⟨ended.1, frame.placed ended.2⟩
      · exact .inr ⟨failed.1, frame.failed failed.2⟩

theorem Controlled.phases_step
    (frame : Frame this transfers after)
    (self : PhaseHolds setting after this (after.phase this))
    (that : Fin count) :
    PhaseHolds setting after that (after.phase that) := by
  by_cases isThis : that = this
  · rw [isThis]
    exact self
  · exact controlled.frame frame that isThis

/-- A step that neither starts a copy nor hands listeners over. -/
theorem Controlled.move
    {before next : Phase (Fin count)}
    (isBefore : transfers.phase this = before)
    (phase : after.phase = update transfers.phase this next)
    (placed : transfers.placed ⊆ after.placed)
    (failed : transfers.failed ⊆ after.failed)
    (endState :
      ∀ that, that ≠ this →
        (after.operation that).endState = (transfers.operation that).endState)
    (started : after.started = transfers.started)
    (sameHolder : after.holder = transfers.holder)
    (sameList : after.inProgress = transfers.inProgress)
    (self : PhaseHolds setting after this next)
    (notBefore : before.isHandingOver = false)
    (notAfter : next.isHandingOver = false)
    (sameProgress : next.isInProgress = before.isInProgress)
    (hosted : next = .finished ∨ before ≠ .created ∧ before ≠ .finished) :
    Controlled setting after := by
  subst isBefore
  have isNext : after.phase this = next := by
    rw [phase, update_self]
  have samePhase := phase_of_ne phase
  have handingOver :
      ∀ that, (after.phase that).isHandingOver =
        (transfers.phase that).isHandingOver := by
    intro that
    by_cases isThis : that = this
    · rw [isThis, notBefore, isNext, notAfter]
    · rw [samePhase that isThis]
  have inProgress :
      ∀ that, (after.phase that).isInProgress =
        (transfers.phase that).isInProgress := by
    intro that
    by_cases isThis : that = this
    · rw [isThis, isNext, sameProgress]
    · rw [samePhase that isThis]
  have frame : Frame this transfers after :=
    { placed := placed
      failed := failed
      phase := samePhase
      endState := endState
      started := fun that _ => by rw [started]
      inProgress := fun isInProgress =>
        .inl ((inProgress this).trans isInProgress) }
  constructor
  case phases => exact controlled.phases_step frame (isNext ▸ self)
  case holds =>
    intro that
    rw [sameHolder, handingOver]
    exact controlled.holds that
  case entries =>
    intro cip member
    rw [inProgress]
    exact controlled.entries cip (sameList ▸ member)
  case listed =>
    intro that isInProgress
    rw [sameList]
    exact controlled.listed that (inProgress that ▸ isInProgress)
  case listedOnce =>
    rw [sameList]
    exact controlled.listedOnce
  case hosts =>
    intro that notCreated notFinished
    by_cases isThis : that = this
    · subst that
      rcases hosted with finished | running
      · exact absurd (isNext.trans finished) notFinished
      · exact controlled.hosts this running.1 running.2
    · rw [samePhase that isThis] at notCreated notFinished
      exact controlled.hosts that notCreated notFinished

theorem Controlled.hosts_step
    (samePhase : ∀ that, that ≠ this → after.phase that = transfers.phase that)
    (hasHost : Transfers.targetHost setting this ≠ none)
    (that : Fin count)
    (notCreated : after.phase that ≠ .created)
    (notFinished : after.phase that ≠ .finished) :
    Transfers.targetHost setting that ≠ none := by
  by_cases isThis : that = this
  · rw [isThis]
    exact hasHost
  · rw [samePhase that isThis] at notCreated notFinished
    exact controlled.hosts that notCreated notFinished

end

theorem places_mono
    (placed : transfers.placed ⊆ after.placed) :
    places setting transfers ⊆ places setting after := by
  intro loc member
  rcases mem_append.mp member with before | isPlaced
  · exact mem_append_left _ before
  · exact mem_append_right _ (placed isPlaced)

theorem IsThere.mono
    (placed : transfers.placed ⊆ after.placed)
    (isThere : IsThere setting transfers this) :
    IsThere setting after this := by
  obtain ⟨loc, member, reaches⟩ := isThere
  exact ⟨loc, places_mono placed member, reaches⟩

/-- What was said before stays true. -/
theorem Recorded.step
    (recorded : Recorded setting transfers)
    (placed : transfers.placed ⊆ after.placed)
    (failed : transfers.failed ⊆ after.failed)
    (told :
      ∀ notification ∈ after.notifications,
        notification ∈ transfers.notifications ∨
          IsTrue setting after notification)
    (skipped :
      ∀ skip ∈ after.skipped,
        skip ∈ transfers.skipped ∨ IsAllowed setting after skip.1 skip.2)
    (added :
      ∀ loc ∈ after.added, loc ∈ transfers.added ∨ loc ∈ after.placed)
    (located :
      ∀ loc ∈ after.locations setting.srcData,
        loc ∈ transfers.locations setting.srcData ∨
          loc ∈ after.placed) :
    Recorded setting after := by
  constructor
  case told =>
    intro notification member
    rcases told notification member with before | isTrue
    · have wasTrue := recorded.told notification before
      refine ⟨wasTrue.1, ?_⟩
      have what := wasTrue.2
      split at what
      case isTrue isEnd =>
        rw [if_pos isEnd]
        exact what.mono placed
      case isFalse isFailure =>
        rw [if_neg isFailure]
        exact failed what
    · exact isTrue
  case skipped =>
    intro skip member
    rcases skipped skip member with before | isAllowed
    · have wasAllowed := recorded.skipped skip before
      rcases skip with ⟨op, location | ⟨other, phase⟩⟩
      · exact ⟨places_mono placed wasAllowed.1, wasAllowed.2⟩
      · exact wasAllowed
    · exact isAllowed
  case added =>
    intro loc member
    rcases added loc member with before | isPlaced
    · exact placed (recorded.added loc before)
    · exact isPlaced
  case located =>
    intro loc member
    rcases located loc member with before | isPlaced
    · exact places_mono placed (recorded.located loc before)
    · exact mem_append_right _ isPlaced

/-- A step that only concerns the listeners of one operation. -/
theorem Kept.step
    (kept : Kept setting transfers)
    (phase : ∀ that, that ≠ this → after.phase that = transfers.phase that)
    (operation :
      ∀ that, that ≠ this → after.operation that = transfers.operation that)
    (balance :
      ∀ registration,
        notifiedCount after registration + pending after registration this +
            transfers.registered.count registration =
          notifiedCount transfers registration +
            pending transfers registration this +
              after.registered.count registration)
    (sameTarget :
      ∀ registration ∈ (after.operation this).listeners,
        (setting.copy registration.operation).tgtLoc =
          (setting.copy this).tgtLoc) :
    Kept setting after := by
  constructor
  case counts =>
    intro registration
    have before := kept.counts registration
    have balanced := balance registration
    have others :
        ∑ that ∈ Finset.univ.erase this, pending after registration that =
          ∑ that ∈ Finset.univ.erase this,
            pending transfers registration that := by
      refine Finset.sum_congr rfl fun that member => ?_
      have isOther := Finset.ne_of_mem_erase member
      rw [pending, phase that isOther, operation that isOther]
      rfl
    rw [← Finset.add_sum_erase _ _ (Finset.mem_univ this)] at before ⊢
    rw [others]
    omega
  case sameTarget =>
    intro that registration member
    by_cases isThis : that = this
    · subst that
      exact sameTarget registration member
    · rw [operation that isThis] at member
      exact kept.sameTarget that registration member

/-- A step that does not concern the listeners -/
theorem Kept.quiet
    {before next : Phase (Fin count)}
    (kept : Kept setting transfers)
    (isBefore : transfers.phase this = before)
    (phase : after.phase = update transfers.phase this next)
    (sameOpen : next.isOpen = before.isOpen)
    (operation : after.operation = transfers.operation)
    (notifications : after.notifications = transfers.notifications)
    (registered : after.registered = transfers.registered) :
    Kept setting after := by
  refine kept.step (phase_of_ne phase)
    (fun _ _ => by rw [operation]) ?_ ?_
  · intro registration
    rw [notifiedCount, notifications, registered, pending, phase, operation,
      update_self, sameOpen, ← isBefore]
    rfl
  · rw [operation]
    exact kept.sameTarget this

/-- A step that tells nobody and adds nothing -/
theorem Recorded.quiet
    (recorded : Recorded setting transfers)
    (placed : transfers.placed ⊆ after.placed)
    (failed : transfers.failed ⊆ after.failed)
    (notifications : after.notifications = transfers.notifications)
    (skipped : after.skipped = transfers.skipped)
    (added : after.added = transfers.added)
    (locations : after.locations = transfers.locations) :
    Recorded setting after :=
  recorded.step placed failed (fun _ member => .inl (notifications ▸ member))
    (fun _ member => .inl (skipped ▸ member))
    (fun _ member => .inl (added ▸ member))
    (fun _ member => .inl (locations ▸ member))

/-!
## The steps
-/

theorem notifiedCount_append
    (notifications : List (Notification (Fin count)))
    (appended :
      after.notifications = transfers.notifications ++ notifications)
    (registration : Registration (Fin count)) :
    notifiedCount after registration =
      notifiedCount transfers registration +
        (notifications.map (·.registration)).count registration := by
  rw [notifiedCount, appended, map_append, count_append]
  rfl

theorem registration_notifications
    (fOp : Fin count)
    {state : OpEndState}
    {isEnd : Bool}
    (notifies : state.notifies = some isEnd)
    (listeners : List (Registration (Fin count))) :
    (DataOperation.notifications fOp state listeners).map (·.registration) =
      listeners := by
  rw [DataOperation.notifications, notifies, map_map]
  exact map_id listeners

theorem mem_notifications
    {fOp : Fin count}
    {state : OpEndState}
    {isEnd : Bool}
    (notifies : state.notifies = some isEnd)
    {listeners : List (Registration (Fin count))}
    {notification : Notification (Fin count)}
    (member :
      notification ∈ DataOperation.notifications fOp state listeners) :
    notification.registration ∈ listeners ∧ notification.fOp = fOp ∧
      notification.isEnd = isEnd := by
  rw [DataOperation.notifications, notifies] at member
  obtain ⟨registration, isListener, rfl⟩ := mem_map.mp member
  exact ⟨isListener, rfl, rfl⟩

namespace Consistent

variable {host : Host}

theorem isSome_getMounpoint
    {surroundings : Surroundings}
    {diskName : String}
    (mounted :
      diskName ∈ surroundings.resources.manager.getAllSharedNames host) :
    (getMounpoint surroundings host diskName).isSome := by
  have isSome :=
    (isSome_mountPoint_iff host diskName).mpr mounted
  rw [terminate] at isSome
  rw [getMounpoint]
  split at isSome
  case h_1 unknown => exact absurd isSome Bool.false_ne_true
  case h_2 machine known =>
    rw [known]
    exact isSome

/-- The path of a target on its first host -/
theorem targetHost_getURIInHost
    (setting : Setting (Fin count))
    (isHost : Transfers.targetHost setting this = some host) :
    ((setting.copy this).tgtLoc.getURIInHost setting.surroundings
      host).isSome := by
  have member := mem_of_mem_head? isHost
  cases location : (setting.copy this).tgtLoc with
  | PRIVATE locationHost path =>
      rw [location] at member
      rw [mem_singleton.mp member, getURIInHost, if_pos rfl]
      rfl
  | SHARED diskName path =>
      rw [location] at member
      have mounted :
          diskName ∈
            setting.surroundings.resources.manager.getAllSharedNames host := by
        rw [← count_pos_iff,
          ← agrees_manager setting.surroundings.resources,
          count_pos_iff]
        exact member
      rw [getURIInHost, Option.isSome_map]
      exact isSome_getMounpoint mounted
  | PERSISTENT id => exact absurd location ((setting.copy this).isPlace id)

section

variable (consistent : Consistent setting transfers)

include consistent

/-- A copy is started. -/
theorem startCopy
    (created : transfers.phase this = .created)
    (free : transfers.holder = none)
    (hasHost : Transfers.targetHost setting this ≠ none) :
    Consistent setting (transfers.startCopy setting this) := by
  have holds := consistent.controlled.phases this
  rw [created] at holds
  have copying : (transfers.startCopy setting this).phase this = .copying :=
    update_self ..
  have same :
      ∀ that, that ≠ this →
        (transfers.startCopy setting this).phase that =
          transfers.phase that :=
    setPhase_of_ne
  have frame : Frame this transfers (transfers.startCopy setting this) :=
    { placed := refl _
      failed := refl _
      phase := same
      endState := fun _ _ => rfl
      started := by
        intro that isOther
        rw [Transfers.startCopy, mem_append, mem_singleton]
        exact or_iff_left isOther
      inProgress := fun _ => .inr free }
  have notInProgress : this ∉ transfers.inProgress.map (·.c) := by
    intro member
    obtain ⟨cip, isListed, isThis⟩ := mem_map.mp member
    have entry := consistent.controlled.entries cip isListed
    rw [isThis, created] at entry
    exact absurd entry.2 Bool.false_ne_true
  constructor
  case controlled =>
    constructor
    case phases =>
      refine consistent.controlled.phases_step frame ?_
      rw [copying]
      exact holds.1
    case holds =>
      intro that
      by_cases isThis : that = this
      · subst that
        rw [copying, Transfers.startCopy, Transfers.setPhase, free]
        exact ⟨nofun, nofun⟩
      · rw [same that isThis]
        exact consistent.controlled.holds that
    case entries =>
      intro cip member
      rcases mem_append.mp member with before | isNew
      · have entry := consistent.controlled.entries cip before
        have isOther : cip.c ≠ this :=
          fun isThis =>
            notInProgress (mem_map.mpr ⟨cip, before, isThis⟩)
        rw [same cip.c isOther]
        exact entry
      · obtain rfl := mem_singleton.mp isNew
        rw [copying]
        exact ⟨rfl, rfl⟩
    case listed =>
      intro that isInProgress
      rw [Transfers.startCopy, map_append, mem_append]
      by_cases isThis : that = this
      · exact .inr (mem_singleton.mpr isThis)
      · rw [same that isThis] at isInProgress
        exact .inl (consistent.controlled.listed that isInProgress)
    case listedOnce =>
      rw [Transfers.startCopy, map_append]
      exact consistent.controlled.listedOnce.append
        (nodup_singleton this)
        (disjoint_singleton.mpr notInProgress)
    case hosts => exact consistent.controlled.hosts_step same hasHost
  case recorded =>
    exact consistent.recorded.quiet (refl _) (refl _)
      rfl rfl rfl rfl
  case kept => exact consistent.kept.quiet created rfl rfl rfl rfl rfl

/-- A step that ends the copy, or its part in a copy in progress. -/
theorem ended
    {state : OpEndState}
    {isEnd : Bool}
    {next : Phase (Fin count)}
    (notifies : state.notifies = some isEnd)
    (open_ : (transfers.phase this).isOpen)
    (phase : after.phase = update transfers.phase this next)
    (closed : next.isOpen = false)
    (operation : after.operation = (transfers.end this state).operation)
    (notifications :
      after.notifications = (transfers.end this state).notifications)
    (registered : after.registered = transfers.registered) :
    Kept setting after := by
  have sameListeners :
      (after.operation this).listeners =
        (transfers.operation this).listeners := by
    rw [operation, operation_end]
  refine consistent.kept.step (phase_of_ne phase) ?_ ?_ ?_
  · intro that isOther
    rw [operation]
    exact update_of_ne isOther ..
  · intro registration
    rw [notifiedCount_append _ notifications, pending, pending, registered,
      if_pos open_, phase, update_self, closed]
    have told :=
      registration_notifications this notifies
        (transfers.operation this).listeners
    rw [DataOperation.notifyEnd]
    dsimp only
    rw [told]
    simp
  · rw [sameListeners]
    exact consistent.kept.sameTarget this

/-- The data is on the host of the target already. -/
theorem alreadyAvailable
    (created : transfers.phase this = .created)
    {host : Host}
    (isHost : Transfers.targetHost setting this = some host)
    {loc : DataLocation}
    {path : String}
    (available :
      transfers.alreadyAvailable setting host = some (loc, path)) :
    Consistent setting
      ((((transfers.setFinalTarget this path).end this .OP_OK).skip this
        (.alreadyAvailable loc)).setPhase this .finished) := by
  have holds := consistent.controlled.phases this
  rw [created] at holds
  obtain ⟨found, member, atHost⟩ := exists_of_findSome?_eq_some available
  obtain ⟨foundPath, isPath, same⟩ := Option.map_eq_some_iff.mp atHost
  obtain ⟨rfl, rfl⟩ := Prod.mk.inj same
  have isPlace := consistent.recorded.located found member
  have onHost :
      ∃ host, Transfers.targetHost setting this = some host ∧
        (found.getURIInHost setting.surroundings host).isSome :=
    ⟨host, isHost, by rw [isPath]; rfl⟩
  constructor
  case controlled =>
    exact consistent.controlled.move created rfl (refl _)
      (refl _) endState_of_ne rfl rfl rfl
      (fun started => absurd started holds.2) rfl rfl rfl (.inl rfl)
  case recorded =>
    refine consistent.recorded.step (refl _) (refl _)
      ?_ ?_ (fun _ member => .inl member) (fun _ member => .inl member)
    · intro notification member
      rcases mem_append.mp member with before | isNew
      · exact .inl before
      · have told := @mem_notifications _ this .OP_OK true rfl _ _ isNew
        have sameTarget :=
          consistent.kept.sameTarget this notification.registration told.1
        refine .inr ⟨by rw [told.2.1, sameTarget], ?_⟩
        rw [told.2.2, if_pos rfl]
        refine ⟨found, isPlace, .inr ?_⟩
        rw [Transfers.targetHost, sameTarget]
        exact onHost
    · intro skip member
      rcases mem_append.mp member with before | isNew
      · exact .inl before
      · rw [mem_singleton.mp isNew]
        exact .inr ⟨isPlace, onHost⟩
  case kept =>
    exact consistent.ended rfl (by rw [created]; rfl) rfl rfl rfl rfl rfl

theorem copying_target
    {copyInProgress : Fin count}
    (copying :
      transfers.alreadyCopying (setting.copy this).tgtLoc =
        some copyInProgress) :
    (setting.copy copyInProgress).tgtLoc = (setting.copy this).tgtLoc ∧
      (transfers.phase copyInProgress).isInProgress := by
  obtain ⟨cip, found, rfl⟩ := Option.map_eq_some_iff.mp copying
  have entry :=
    consistent.controlled.entries cip (mem_of_find?_eq_some found)
  have isTarget := find?_some found
  rw [← entry.1]
  exact ⟨isTarget_iff.mp isTarget, entry.2⟩

/-- Another copy to the target is in progress. -/
theorem endInProgress
    (created : transfers.phase this = .created)
    (free : transfers.holder = none)
    (hasHost : Transfers.targetHost setting this ≠ none)
    {copyInProgress : Fin count}
    (copying :
      transfers.alreadyCopying (setting.copy this).tgtLoc =
        some copyInProgress)
    (path : String) :
    Consistent setting
      (transfers.endInProgress this copyInProgress path) := by
  have holds := consistent.controlled.phases this
  rw [created] at holds
  obtain ⟨sameTarget, isInProgress⟩ := consistent.copying_target copying
  have isOther : copyInProgress ≠ this := by
    intro isThis
    rw [isThis, created] at isInProgress
    exact absurd isInProgress Bool.false_ne_true
  have handing :
      (transfers.endInProgress this copyInProgress path).phase this =
        .handingOver copyInProgress :=
    update_self ..
  have samePhase :
      ∀ that, that ≠ this →
        (transfers.endInProgress this copyInProgress path).phase that =
          transfers.phase that :=
    setPhase_of_ne
  have frame :
      Frame this transfers (transfers.endInProgress this copyInProgress path) :=
    { placed := refl _
      failed := refl _
      phase := samePhase
      endState := endState_of_ne
      started := fun _ _ => Iff.rfl
      inProgress := fun _ => .inr free }
  have inProgress :
      ∀ that, ((transfers.endInProgress this copyInProgress path).phase
          that).isInProgress =
        (transfers.phase that).isInProgress := by
    intro that
    by_cases isThis : that = this
    · rw [isThis, handing, created]
      rfl
    · rw [samePhase that isThis]
  constructor
  case controlled =>
    constructor
    case phases =>
      refine consistent.controlled.phases_step frame ?_
      rw [handing]
      refine ⟨holds.2, isOther, ?_, sameTarget⟩
      rw [inProgress]
      exact isInProgress
    case holds =>
      intro that
      by_cases isThis : that = this
      · subst that
        rw [handing]
        exact ⟨fun _ => rfl, fun _ => rfl⟩
      · have notHolding := consistent.controlled.holds that
        rw [free] at notHolding
        rw [samePhase that isThis, ← notHolding]
        exact ⟨fun same => absurd (Option.some.inj same).symm isThis, nofun⟩
    case entries =>
      intro other member
      rw [inProgress]
      exact consistent.controlled.entries other member
    case listed =>
      intro that isInProgress
      rw [inProgress] at isInProgress
      exact consistent.controlled.listed that isInProgress
    case listedOnce => exact consistent.controlled.listedOnce
    case hosts => exact consistent.controlled.hosts_step samePhase hasHost
  case recorded =>
    refine consistent.recorded.step (refl _) (refl _)
      ?_ ?_ (fun _ member => .inl member) (fun _ member => .inl member)
    · intro notification member
      rcases mem_append.mp member with before | isNew
      · exact .inl before
      · exact absurd isNew not_mem_nil
    · intro skip member
      rcases mem_append.mp member with before | isNew
      · exact .inl before
      · rw [mem_singleton.mp isNew]
        exact .inr ⟨isOther, isInProgress, sameTarget⟩
  case kept =>
    have sameListeners :
        ((transfers.endInProgress this copyInProgress path).operation
            this).listeners =
          (transfers.operation this).listeners := by
      change ((transfers.end this .OP_IN_PROGRESS).operation this).listeners =
        (transfers.operation this).listeners
      rw [operation_end]
    refine consistent.kept.step samePhase
      (fun that isOther => update_of_ne isOther ..) ?_ ?_
    · intro registration
      have samePending :
          pending (transfers.endInProgress this copyInProgress path)
              registration this =
            pending transfers registration this := by
        rw [pending, pending, handing, created, sameListeners]
        rfl
      have sameCount :
          notifiedCount (transfers.endInProgress this copyInProgress path)
              registration =
            notifiedCount transfers registration :=
        notifiedCount_append [] rfl registration
      rw [samePending, sameCount]
      rfl
    · rw [sameListeners]
      exact consistent.kept.sameTarget this

/-- The copy is made. -/
theorem specificCopy_copied
    (copying : transfers.phase this = .copying) :
    Consistent setting (transfers.specificCopy setting this true) := by
  have holds := consistent.controlled.phases this
  rw [copying] at holds
  have placed :
      transfers.placed ⊆ (transfers.specificCopy setting this true).placed :=
    subset_append_left ..
  constructor
  case controlled =>
    exact consistent.controlled.move copying rfl placed (refl _)
      (fun _ _ => rfl) rfl rfl rfl
      ⟨holds, mem_append_right _ mem_cons_self⟩ rfl rfl rfl
      (.inr ⟨nofun, nofun⟩)
  case recorded =>
    exact consistent.recorded.quiet placed (refl _) rfl rfl rfl rfl
  case kept => exact consistent.kept.quiet copying rfl rfl rfl rfl rfl

/-- The copy raises an exception. -/
theorem specificCopy_failing
    (copying : transfers.phase this = .copying) :
    Consistent setting (transfers.specificCopy setting this false) := by
  have holds := consistent.controlled.phases this
  rw [copying] at holds
  have failed :
      transfers.failed ⊆ (transfers.specificCopy setting this false).failed :=
    subset_append_left ..
  constructor
  case controlled =>
    exact consistent.controlled.move copying rfl (refl _) failed
      (fun _ _ => rfl) rfl rfl rfl
      ⟨holds, mem_append_right _ mem_cons_self⟩ rfl rfl rfl
      (.inr ⟨nofun, nofun⟩)
  case recorded =>
    exact consistent.recorded.quiet (refl _) failed rfl rfl rfl rfl
  case kept => exact consistent.kept.quiet copying rfl rfl rfl rfl rfl

/-- The listeners are told of the failure. -/
theorem endFailed
    (failing : transfers.phase this = .failing) :
    Consistent setting (transfers.endFailed this) := by
  have holds := consistent.controlled.phases this
  rw [failing] at holds
  constructor
  case controlled =>
    refine consistent.controlled.move failing rfl (refl _)
      (refl _) endState_of_ne rfl rfl rfl ⟨?_, holds.2⟩ rfl rfl
      rfl (.inr ⟨nofun, nofun⟩)
    exact congrArg DataOperation.endState (operation_end ..)
  case recorded =>
    refine consistent.recorded.step (refl _) (refl _)
      ?_ (fun _ member => .inl member) (fun _ member => .inl member)
      (fun _ member => .inl member)
    intro notification member
    rcases mem_append.mp member with before | isNew
    · exact .inl before
    · have told := @mem_notifications _ this .OP_FAILED false rfl _ _ isNew
      have sameTarget :=
        consistent.kept.sameTarget this notification.registration told.1
      refine .inr ⟨by rw [told.2.1, sameTarget], ?_⟩
      rw [told.2.2, if_neg Bool.false_ne_true, told.2.1]
      exact holds.2
  case kept =>
    exact consistent.ended rfl (by rw [failing]; rfl) rfl rfl rfl rfl rfl

/-- The section of the `finally` block takes the copy out of the list. -/
theorem finishedCopy
    {copied : Bool}
    (cleaning : transfers.phase this = .cleaning copied)
    (free : transfers.holder = none) :
    Consistent setting (transfers.finishedCopy this) := by
  have holds := consistent.controlled.phases this
  rw [cleaning] at holds
  have listed :=
    consistent.controlled.listed this (by rw [cleaning]; rfl)
  obtain ⟨listedCip, isListed, isThis⟩ := mem_map.mp listed
  obtain ⟨cip, before, after, others, found, split, removed⟩ :=
    @exists_of_eraseP _
      (fun cip : CopyInProgress (Fin count) => cip.c = this) _ _ isListed
      (decide_eq_true isThis)
  have isFound : cip.c = this := of_decide_eq_true found
  have target :
      (transfers.inProgress.find? fun cip => cip.c = this).map (·.loc) =
        some (setting.copy this).tgtLoc := by
    have entry := consistent.controlled.entries cip
      (split ▸ mem_append_right before mem_cons_self)
    rw [split, find?_append, find?_eq_none.mpr others,
      Option.none_or, find?_cons, found]
    rw [Option.map_some, entry.1, isFound]
  have removal :
      transfers.finishedCopy this =
        { transfers.setPhase this
            (.registering copied (some (setting.copy this).tgtLoc)) with
          inProgress := before ++ after } := by
    rw [Transfers.finishedCopy, cleaning]
    dsimp only
    rw [target, removed]
  have once := consistent.controlled.listedOnce
  rw [split, map_append, map_cons, isFound] at once
  have notRemaining : this ∉ (before ++ after).map (·.c) := by
    rw [map_append]
    exact (nodup_middle.mp once).notMem
  rw [removal]
  have registering :
      (transfers.setPhase this
          (.registering copied (some (setting.copy this).tgtLoc))).phase this =
        .registering copied (some (setting.copy this).tgtLoc) :=
    phase_setPhase ..
  have samePhase :
      ∀ that, that ≠ this →
        (transfers.setPhase this
            (.registering copied
              (some (setting.copy this).tgtLoc))).phase that =
          transfers.phase that :=
    fun that isOther => phase_setPhase_of_ne _ _ _ isOther
  have frame :
      Frame this transfers
        { transfers.setPhase this
            (.registering copied (some (setting.copy this).tgtLoc)) with
          inProgress := before ++ after } :=
    { placed := refl _
      failed := refl _
      phase := samePhase
      endState := fun _ _ => rfl
      started := fun _ _ => Iff.rfl
      inProgress := fun _ => .inr free }
  constructor
  case controlled =>
    constructor
    case phases =>
      refine consistent.controlled.phases_step frame ?_
      rw [registering]
      exact ⟨rfl, holds⟩
    case holds =>
      intro that
      by_cases isThis : that = this
      · subst that
        rw [registering]
        exact ⟨fun held => absurd (free.symm.trans held) nofun, nofun⟩
      · rw [samePhase that isThis]
        exact consistent.controlled.holds that
    case entries =>
      intro other member
      have isOther : other.c ≠ this :=
        fun isThis =>
          notRemaining (mem_map.mpr ⟨other, member, isThis⟩)
      rw [samePhase other.c isOther]
      refine consistent.controlled.entries other ?_
      rw [split]
      rcases mem_append.mp member with isBefore | isAfter
      · exact mem_append_left _ isBefore
      · exact mem_append_right _ (mem_cons_of_mem cip isAfter)
    case listed =>
      intro that isInProgress
      by_cases isThis : that = this
      · subst that
        rw [registering] at isInProgress
        exact absurd isInProgress Bool.false_ne_true
      · rw [samePhase that isThis] at isInProgress
        have member := consistent.controlled.listed that isInProgress
        rw [split, map_append, map_cons, isFound,
          mem_append, mem_cons, or_iff_right isThis,
          ← mem_append, ← map_append] at member
        exact member
    case listedOnce =>
      rw [map_append]
      exact (nodup_cons.mp (nodup_middle.mp once)).2
    case hosts =>
      have hasHost := consistent.controlled.hosts this
        (by rw [cleaning]; nofun) (by rw [cleaning]; nofun)
      exact consistent.controlled.hosts_step samePhase hasHost
  case recorded =>
    exact consistent.recorded.quiet (refl _) (refl _)
      rfl rfl rfl rfl
  case kept => exact consistent.kept.quiet cleaning rfl rfl rfl rfl rfl

/-- An operation keeps listeners as long as it has not ended. -/
theorem answers
    (known :
      this ∈ transfers.started ∨ (transfers.phase this).isInProgress) :
    (transfers.operation this).endState = none ∧
        (transfers.phase this).isOpen = true ∨
      (transfers.phase this).isOpen = false ∧
        ((transfers.operation this).endState = some .OP_OK ∧
            (setting.copy this).tgtLoc ∈ transfers.placed ∨
          (transfers.operation this).endState = some .OP_FAILED ∧
            this ∈ transfers.failed) := by
  have holds := consistent.controlled.phases this
  cases phase : transfers.phase this with
  | created =>
      rw [phase] at holds known
      exact absurd (known.resolve_right Bool.false_ne_true) holds.2
  | handingOver other =>
      rw [phase] at holds known
      exact absurd (known.resolve_right Bool.false_ne_true) holds.1
  | copying =>
      rw [phase] at holds
      exact .inl ⟨holds, rfl⟩
  | failing =>
      rw [phase] at holds
      exact .inl ⟨holds.1, rfl⟩
  | cleaning copied =>
      rw [phase] at holds
      cases copied with
      | true => exact .inl ⟨holds.1, rfl⟩
      | false => exact .inr ⟨rfl, .inr holds⟩
  | registering copied actualLocation =>
      rw [phase] at holds
      cases copied with
      | true => exact .inl ⟨holds.2.1, rfl⟩
      | false => exact .inr ⟨rfl, .inr holds.2⟩
  | returning =>
      rw [phase] at holds
      exact .inl ⟨holds.1, rfl⟩
  | finished =>
      rw [phase] at holds known
      exact .inr ⟨rfl, holds (known.resolve_right Bool.false_ne_true)⟩

end

variable (setting transfers after this) in
/-- What becomes of listeners that are added. -/
structure Listens
    (eventListeners : List (Registration (Fin count))) : Prop where
  told :
    ∀ notification ∈ after.notifications,
      notification ∈ transfers.notifications ∨
        IsTrue setting after notification
  balance :
    ∀ registration,
      notifiedCount after registration + pending after registration this =
        notifiedCount transfers registration +
          pending transfers registration this +
            eventListeners.count registration
  sameTarget :
    ∀ registration ∈ (after.operation this).listeners,
      (setting.copy registration.operation).tgtLoc =
        (setting.copy this).tgtLoc
  endState :
    ∀ that,
      (after.operation that).endState = (transfers.operation that).endState

theorem listens
    (consistent : Consistent setting transfers)
    (known :
      this ∈ transfers.started ∨ (transfers.phase this).isInProgress)
    (eventListeners : List (Registration (Fin count)))
    (sameTarget :
      ∀ registration ∈ eventListeners,
        (setting.copy registration.operation).tgtLoc =
          (setting.copy this).tgtLoc) :
    Listens setting transfers (transfers.addEventListeners this eventListeners)
      this eventListeners := by
  have keptTarget := consistent.kept.sameTarget this
  have notifying :
      ∀ state isEnd, OpEndState.notifies state = some isEnd →
        (transfers.operation this).endState = some state →
          (transfers.phase this).isOpen = false →
            (∀ registration ∈ eventListeners,
              IsTrue setting
                (transfers.addEventListeners this eventListeners)
                ⟨registration, this, isEnd⟩) →
              Listens setting transfers
                (transfers.addEventListeners this eventListeners)
                this eventListeners := by
    intro state isEnd notifies ended closed true_
    have unfolded :
        transfers.addEventListeners this eventListeners =
          transfers.setOperation this
            (transfers.operation this,
              DataOperation.notifications this state eventListeners) := by
      rw [addEventListeners, DataOperation.addEventListeners, ended]
    have sameOperation :
        (transfers.addEventListeners this eventListeners).operation =
          transfers.operation := by
      rw [unfolded]
      exact update_eq_self ..
    constructor
    case told =>
      intro notification member
      rw [unfolded] at member
      rcases mem_append.mp member with before | isNew
      · exact .inl before
      · have isTold := mem_notifications notifies isNew
        have same : notification =
            ⟨notification.registration, this, isEnd⟩ := by
          rw [← isTold.2.1, ← isTold.2.2]
        rw [same]
        exact .inr (true_ _ isTold.1)
    case balance =>
      intro registration
      have count_ :=
        @notifiedCount_append _ transfers
          (transfers.addEventListeners this eventListeners)
          (DataOperation.notifications this state eventListeners)
          (by rw [unfolded]; rfl) registration
      have samePhase :
          (transfers.addEventListeners this eventListeners).phase =
            transfers.phase := rfl
      rw [count_, registration_notifications this notifies, pending, pending,
        samePhase, closed]
      simp
    case sameTarget =>
      rw [sameOperation]
      exact keptTarget
    case endState =>
      intro that
      rw [sameOperation]
  rcases consistent.answers known with ⟨notEnded, isOpen⟩ | ⟨closed, ended⟩
  · have unfolded :
        transfers.addEventListeners this eventListeners =
          transfers.setOperation this
            (⟨(transfers.operation this).listeners ++ eventListeners, none⟩,
              []) := by
      rw [addEventListeners, DataOperation.addEventListeners]
      rw [notEnded]
    have operation :
        (transfers.addEventListeners this eventListeners).operation this =
          ⟨(transfers.operation this).listeners ++ eventListeners, none⟩ := by
      rw [unfolded]
      exact update_self ..
    have notifications :
        (transfers.addEventListeners this eventListeners).notifications =
          transfers.notifications ++ [] := by
      rw [unfolded]
      rfl
    constructor
    case told =>
      intro notification member
      rw [notifications, append_nil] at member
      exact .inl member
    case balance =>
      intro registration
      have count_ :=
        @notifiedCount_append _ transfers
          (transfers.addEventListeners this eventListeners) []
          notifications registration
      have samePhase :
          (transfers.addEventListeners this eventListeners).phase =
            transfers.phase := rfl
      rw [count_, pending, pending, samePhase, operation, isOpen,
        count_append]
      simp
      omega
    case sameTarget =>
      intro registration member
      rw [operation] at member
      rcases mem_append.mp member with before | isNew
      · exact keptTarget registration before
      · exact sameTarget registration isNew
    case endState =>
      intro that
      by_cases isThis : that = this
      · rw [isThis, operation, notEnded]
      · rw [unfolded]
        exact congrArg DataOperation.endState (update_of_ne isThis ..)
  · rcases ended with ⟨isOk, isPlaced⟩ | ⟨hasFailed, isFailed⟩
    · refine notifying .OP_OK true rfl isOk closed fun registration member => ?_
      have same := sameTarget registration member
      exact ⟨same.symm, _, mem_append_right _ isPlaced, .inl same.symm⟩
    · refine notifying .OP_FAILED false rfl hasFailed closed
        fun registration member => ?_
      exact ⟨(sameTarget registration member).symm, isFailed⟩

/-- A listener is added to a copy that was found in progress. -/
theorem addEventListener
    (consistent : Consistent setting transfers)
    (started : this ∈ transfers.started)
    (listener : Nat) :
    Consistent setting (transfers.addEventListener this listener) := by
  have listens :=
    consistent.listens (.inl started) [⟨this, listener⟩] fun registration
      member => by rw [mem_singleton.mp member]
  constructor
  case controlled =>
    constructor
    case phases =>
      exact fun that =>
        (consistent.controlled.phases that).congr (listens.endState that) rfl
          rfl rfl rfl
    case holds => exact consistent.controlled.holds
    case entries => exact consistent.controlled.entries
    case listed => exact consistent.controlled.listed
    case listedOnce => exact consistent.controlled.listedOnce
    case hosts => exact consistent.controlled.hosts
  case recorded =>
    exact consistent.recorded.step (refl _) (refl _)
      listens.told (fun _ member => .inl member) (fun _ member => .inl member)
      (fun _ member => .inl member)
  case kept =>
    refine consistent.kept.step (fun _ _ => rfl)
      (fun that isOther => update_of_ne isOther ..) ?_
      listens.sameTarget
    intro registration
    have balance := listens.balance registration
    have registered :
        (transfers.addEventListener this listener).registered.count
            registration =
          transfers.registered.count registration +
            [(⟨this, listener⟩ : Registration (Fin count))].count
              registration :=
      count_append
    rw [registered]
    change notifiedCount (transfers.addEventListeners this [⟨this, listener⟩])
        registration +
      pending (transfers.addEventListeners this [⟨this, listener⟩])
        registration this + _ = _
    omega

theorem sum_two
    {before after : Fin count → Nat}
    {first second : Fin count}
    (distinct : second ≠ first)
    (same :
      ∀ that, that ≠ first → that ≠ second → after that = before that) :
    ∑ that, after that + before first + before second =
      ∑ that, before that + after first + after second := by
  have inRest : second ∈ Finset.univ.erase first :=
    Finset.mem_erase.mpr ⟨distinct, Finset.mem_univ second⟩
  have others :
      ∑ that ∈ (Finset.univ.erase first).erase second, after that =
        ∑ that ∈ (Finset.univ.erase first).erase second, before that := by
    refine Finset.sum_congr rfl fun that member => ?_
    have notSecond := Finset.mem_erase.mp member
    exact same that (Finset.ne_of_mem_erase notSecond.2) notSecond.1
  rw [← Finset.add_sum_erase _ after (Finset.mem_univ first),
    ← Finset.add_sum_erase _ before (Finset.mem_univ first),
    ← Finset.add_sum_erase _ after inRest,
    ← Finset.add_sum_erase _ before inRest, others]
  omega

/-- The listeners get to the copy in progress, or are told that it failed. -/
theorem handOver
    (consistent : Consistent setting transfers)
    {other : Fin count}
    (handing : transfers.phase this = .handingOver other) :
    Consistent setting (transfers.handOver this) := by
  have holds := consistent.controlled.phases this
  rw [handing] at holds
  obtain ⟨notStarted, isOther, inProgress, sameTarget⟩ := holds
  have isHolder := (consistent.controlled.holds this).mpr (by rw [handing]; rfl)
  have listens :=
    consistent.listens (.inr inProgress) (transfers.operation this).listeners
      fun registration member =>
        (consistent.kept.sameTarget this registration member).trans
          sameTarget.symm
  have unfolded :
      transfers.handOver this =
        { (transfers.addEventListeners other
            (transfers.operation this).listeners).setPhase this .finished with
          holder := none } := by
    rw [Transfers.handOver, handing]
  have finished : (transfers.handOver this).phase this = .finished := by
    rw [unfolded]
    exact update_self ..
  have samePhase :
      ∀ that, that ≠ this →
        (transfers.handOver this).phase that = transfers.phase that := by
    intro that isOther
    rw [unfolded]
    exact update_of_ne isOther ..
  have operation :
      (transfers.handOver this).operation =
        (transfers.addEventListeners other
          (transfers.operation this).listeners).operation := by
    rw [unfolded]
    rfl
  have frame : Frame this transfers (transfers.handOver this) := by
    constructor
    case phase => exact samePhase
    case endState =>
      intro that _
      rw [operation]
      exact listens.endState that
    case inProgress =>
      intro isInProgress
      rw [handing] at isInProgress
      exact absurd isInProgress Bool.false_ne_true
    all_goals
      rw [unfolded]
    case placed => exact refl _
    case failed => exact refl _
    case started => exact fun _ _ => Iff.rfl
  have sameProgress :
      ∀ that, ((transfers.handOver this).phase that).isInProgress =
        (transfers.phase that).isInProgress := by
    intro that
    by_cases isThis : that = this
    · rw [isThis, finished, handing]
      rfl
    · rw [samePhase that isThis]
  constructor
  case controlled =>
    constructor
    case phases =>
      refine consistent.controlled.phases_step frame ?_
      rw [finished]
      intro started
      rw [unfolded] at started
      exact absurd started notStarted
    case holds =>
      intro that
      have noHolder : (transfers.handOver this).holder = none := by
        rw [unfolded]
      rw [noHolder]
      refine ⟨nofun, fun isHandingOver => ?_⟩
      by_cases isThis : that = this
      · rw [isThis, finished] at isHandingOver
        exact absurd isHandingOver Bool.false_ne_true
      · rw [samePhase that isThis] at isHandingOver
        have holdsToo := (consistent.controlled.holds that).mpr isHandingOver
        rw [isHolder] at holdsToo
        exact absurd (Option.some.inj holdsToo).symm isThis
    case entries =>
      intro cip member
      rw [sameProgress]
      rw [unfolded] at member
      exact consistent.controlled.entries cip member
    case listed =>
      intro that isInProgress
      rw [sameProgress] at isInProgress
      rw [unfolded]
      exact consistent.controlled.listed that isInProgress
    case listedOnce =>
      rw [unfolded]
      exact consistent.controlled.listedOnce
    case hosts =>
      refine consistent.controlled.hosts_step samePhase ?_
      exact consistent.controlled.hosts this (by rw [handing]; nofun)
        (by rw [handing]; nofun)
  case recorded =>
    rw [unfolded]
    exact consistent.recorded.step (refl _) (refl _)
      listens.told (fun _ member => .inl member) (fun _ member => .inl member)
      (fun _ member => .inl member)
  case kept =>
    constructor
    case counts =>
      intro registration
      have before := consistent.kept.counts registration
      have balance := listens.balance registration
      have handed :
          pending transfers registration this =
            (transfers.operation this).listeners.count registration := by
        rw [pending, handing]
        rfl
      have closed :
          pending (transfers.handOver this) registration this = 0 := by
        rw [pending, finished]
        rfl
      have received :
          pending (transfers.handOver this) registration other =
            pending
              (transfers.addEventListeners other
                (transfers.operation this).listeners) registration other := by
        rw [pending, samePhase other isOther, operation]
        rfl
      have sums :=
        @sum_two _ (pending transfers registration)
          (pending (transfers.handOver this) registration) this other isOther
          fun that notThis notOther => by
            rw [pending, samePhase that notThis, operation]
            rw [addEventListeners, setOperation]
            dsimp only
            rw [update_of_ne notOther]
            rfl
      have sameCount :
          notifiedCount (transfers.handOver this) registration =
            notifiedCount
              (transfers.addEventListeners other
                (transfers.operation this).listeners) registration := by
        rw [unfolded]
        rfl
      have registered :
          (transfers.handOver this).registered = transfers.registered := by
        rw [unfolded]
        rfl
      rw [registered, sameCount]
      omega
    case sameTarget =>
      intro that
      rw [operation]
      by_cases isReceiver : that = other
      · rw [isReceiver]
        exact listens.sameTarget
      · rw [addEventListeners, setOperation]
        dsimp only
        rw [update_of_ne isReceiver]
        exact consistent.kept.sameTarget that

/-- The target data gets the location, or nothing. -/
theorem registered
    (consistent : Consistent setting transfers)
    {copied : Bool}
    {actualLocation : Option DataLocation}
    (registering : transfers.phase this = .registering copied actualLocation)
    (located : Transfers (Fin count))
    (sameRest :
      located =
        { transfers with
          locations := located.locations
          added := located.added })
    (added :
      ∀ loc ∈ located.added,
        loc ∈ transfers.added ∨ loc ∈ transfers.placed)
    (locations :
      ∀ loc ∈ located.locations setting.srcData,
        loc ∈ transfers.locations setting.srcData ∨
          loc ∈ transfers.placed) :
    Consistent setting
      (located.setPhase this (if copied then .returning else .finished)) := by
  have holds := consistent.controlled.phases this
  rw [registering] at holds
  generalize nextPhase :
    (if copied then Phase.returning else Phase.finished) = next
  have next_cases : next = .returning ∧ copied = true ∨
      next = .finished ∧ copied = false := by
    cases copied with
    | true => exact .inl ⟨nextPhase.symm, rfl⟩
    | false => exact .inr ⟨nextPhase.symm, rfl⟩
  rw [sameRest]
  generalize located.added = locatedAdded at added ⊢
  generalize located.locations = locatedAt at locations ⊢
  constructor
  case controlled =>
    refine consistent.controlled.move registering rfl (refl _)
      (refl _) (fun _ _ => rfl) rfl rfl rfl ?_ rfl ?_ ?_
      (.inr ⟨nofun, nofun⟩)
    all_goals rcases next_cases with ⟨rfl, rfl⟩ | ⟨rfl, rfl⟩
    · exact holds.2
    · exact fun _ => .inr holds.2
    all_goals rfl
  case recorded =>
    exact consistent.recorded.step (refl _) (refl _)
      (fun _ member => .inl member) (fun _ member => .inl member)
      added locations
  case kept =>
    refine consistent.kept.quiet registering rfl ?_ rfl rfl rfl
    rcases next_cases with ⟨rfl, rfl⟩ | ⟨rfl, rfl⟩
    · rfl
    · rfl

theorem registerTarget
    (consistent : Consistent setting transfers)
    {position : Option Nat}
    (registering : (transfers.phase this).isRegistering)
    (permitted :
      RegistersPlaced setting transfers (.registerTarget this position)) :
    Consistent setting (transfers.registerTarget setting this position) := by
  have holds := consistent.controlled.phases this
  cases phase : transfers.phase this with
  | registering copied actualLocation =>
      rw [phase] at holds
      rw [Transfers.registerTarget, phase]
      obtain ⟨rfl, hasEnded⟩ := holds
      dsimp only
      split
      case h_1 noData =>
        exact consistent.registered phase transfers rfl
          (fun _ member => .inl member) (fun _ member => .inl member)
      case h_2 data none isData nothing => exact nomatch nothing
      case h_3 data actual isData isActual =>
        obtain rfl := Option.some.inj isActual
        cases position with
        | none =>
            exact consistent.registered phase transfers rfl
              (fun _ member => .inl member) (fun _ member => .inl member)
        | some index =>
            have isPlaced : (setting.copy this).tgtLoc ∈ transfers.placed := by
              cases copied with
              | true => exact hasEnded.2
              | false =>
                  have condition := permitted (by rw [phase]; rfl)
                  rw [isData] at condition
                  exact (condition.resolve_left nofun).resolve_left nofun
            refine consistent.registered phase _ rfl ?_ ?_
            · intro loc member
              rcases mem_append.mp member with before | isNew
              · exact .inl before
              · rw [mem_singleton.mp isNew]
                exact .inr isPlaced
            · intro loc member
              by_cases isSource : setting.srcData = data
              · rw [addLocation] at member
                dsimp only at member
                rw [isSource, update_self] at member
                rw [isSource]
                rcases eq_or_mem_of_mem_insertIdx member with
                  isNew | before
                · rw [isNew]
                  exact .inr isPlaced
                · exact .inl before
              · rw [addLocation] at member
                dsimp only at member
                rw [update_of_ne isSource] at member
                exact .inl member
  | created | handingOver | copying | failing | cleaning | returning
  | finished =>
      rw [phase] at registering
      exact absurd registering Bool.false_ne_true

/-- The listeners are told that the data is at the target. -/
theorem endCopied
    (consistent : Consistent setting transfers)
    (returning : transfers.phase this = .returning) :
    Consistent setting (transfers.endCopied setting this) := by
  have holds := consistent.controlled.phases this
  rw [returning] at holds
  obtain ⟨host, isHost⟩ :=
    Option.ne_none_iff_exists'.mp
      (consistent.controlled.hosts this (by rw [returning]; nofun)
        (by rw [returning]; nofun))
  obtain ⟨path, isPath⟩ :=
    Option.isSome_iff_exists.mp (targetHost_getURIInHost setting isHost)
  have unfolded :
      transfers.endCopied setting this =
        ((transfers.setFinalTarget this path).end this .OP_OK).setPhase this
          .finished := by
    rw [Transfers.endCopied, isHost, Option.bind_some, isPath]
  rw [unfolded]
  constructor
  case controlled =>
    refine consistent.controlled.move returning rfl (refl _)
      (refl _) endState_of_ne rfl rfl rfl
      (fun _ => .inl ⟨?_, holds.2⟩) rfl rfl rfl (.inl rfl)
    exact congrArg DataOperation.endState (operation_end ..)
  case recorded =>
    refine consistent.recorded.step (refl _) (refl _)
      ?_ (fun _ member => .inl member) (fun _ member => .inl member)
      (fun _ member => .inl member)
    intro notification member
    rcases mem_append.mp member with before | isNew
    · exact .inl before
    · have told := @mem_notifications _ this .OP_OK true rfl _ _ isNew
      have sameTarget :=
        consistent.kept.sameTarget this notification.registration told.1
      refine .inr ⟨by rw [told.2.1, sameTarget], ?_⟩
      rw [told.2.2, if_pos rfl]
      exact ⟨_, mem_append_right _ holds.2, .inl sameTarget.symm⟩
  case kept =>
    exact consistent.ended rfl (by rw [returning]; rfl) rfl rfl rfl rfl rfl

theorem perform
    (consistent : Consistent setting transfers)
    (created : transfers.phase this = .created)
    (free : transfers.holder = none)
    (hasHost : Transfers.targetHost setting this ≠ none) :
    Consistent setting (transfers.perform setting this) := by
  rw [Transfers.perform]
  split
  case h_1 noHost => exact absurd noHost hasHost
  case h_2 host isHost =>
    split
    case isTrue noData => exact consistent.startCopy created free hasHost
    case isFalse hasData =>
      split
      case h_1 loc path available =>
        exact consistent.alreadyAvailable created isHost available
      case h_2 unavailable =>
        split
        case h_1 notCopying => exact consistent.startCopy created free hasHost
        case h_2 copyInProgress copying =>
          split
          case h_1 noPath =>
            have isSome := targetHost_getURIInHost setting isHost
            rw [← (consistent.copying_target copying).1, noPath] at isSome
            exact absurd isSome Bool.false_ne_true
          case h_2 path isPath =>
            exact consistent.endInProgress created free hasHost copying path

/-- One step. -/
theorem step
    (consistent : Consistent setting transfers)
    {step : CopyStep (Fin count)}
    (enabled : transfers.Enabled setting step)
    (permitted : RegistersPlaced setting transfers step) :
    Consistent setting (transfers.step setting step) := by
  cases step with
  | perform this => exact consistent.perform enabled.1 enabled.2 permitted
  | handOver this =>
      have handing : (transfers.phase this).isHandingOver := enabled
      cases phase : transfers.phase this with
      | handingOver other => exact consistent.handOver phase
      | created | copying | failing | cleaning | registering | returning
      | finished =>
          rw [phase] at handing
          exact absurd handing Bool.false_ne_true
  | specificCopy this copied =>
      cases copied with
      | true => exact consistent.specificCopy_copied enabled
      | false => exact consistent.specificCopy_failing enabled
  | endFailed this => exact consistent.endFailed enabled
  | finishedCopy this =>
      have cleaning := enabled.1
      cases phase : transfers.phase this with
      | cleaning copied => exact consistent.finishedCopy phase enabled.2
      | created | handingOver | copying | failing | registering | returning
      | finished =>
          rw [phase] at cleaning
          exact absurd cleaning Bool.false_ne_true
  | registerTarget this position =>
      exact consistent.registerTarget enabled.1 permitted
  | endCopied this => exact consistent.endCopied enabled.1
  | addEventListener this listener =>
      exact consistent.addEventListener enabled listener

/-- Some thread can take a step as long as one has not finished. -/
theorem goesOn
    (consistent : Consistent setting transfers)
    (this : Fin count)
    (notFinished : transfers.phase this ≠ .finished) :
    ∃ step, step.isPerformed ∧ transfers.Enabled setting step := by
  cases holder : transfers.holder with
  | some that =>
      exact ⟨.handOver that, rfl,
        (consistent.controlled.holds that).mp holder⟩
  | none =>
      cases phase : transfers.phase this with
      | created => exact ⟨.perform this, rfl, phase, holder⟩
      | handingOver other =>
          have isHolder := (consistent.controlled.holds this).mpr
            (by rw [phase]; rfl)
          rw [holder] at isHolder
          exact nomatch isHolder
      | copying => exact ⟨.specificCopy this true, rfl, phase⟩
      | failing => exact ⟨.endFailed this, rfl, phase⟩
      | cleaning copied =>
          exact ⟨.finishedCopy this, rfl, by rw [phase]; rfl, holder⟩
      | registering copied actualLocation =>
          exact ⟨.registerTarget this (some 0), rfl, by rw [phase]; rfl,
            fun _ => holder, fun data _ => Nat.zero_le _⟩
      | returning => exact ⟨.endCopied this, rfl, phase, holder⟩
      | finished => exact absurd phase notFinished

end Consistent

end DistributedRdf.Data
